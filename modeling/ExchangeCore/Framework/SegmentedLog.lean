import Mathlib.Data.List.Nodup
import Mathlib.Data.List.Perm.Basic
import Mathlib.Tactic.Common

/-!
# Logs kept in segments

A log is written to one segment after another; a segment is named by the number of its first entry.
To read from a number on, one lists the segments in any order, sorts them by their start and begins
with the last one that starts no later than it.

Segments may share a start: one that was left before anything was written to it, and the one that
replaced it.  Their order in the listing is then arbitrary.  It does not matter for a reader that
takes both (`entries_eq_of_perm`), but one that begins with such a segment may begin with the wrong
one; `Unambiguous` excludes this, and then nothing from the number on is missed
(`entries_drop_firstIndex`).
-/

namespace ExchangeCore

/-- A piece of a log. -/
structure LogSegment (κ α : Type*) where
  key : κ
  /-- The number of the first entry. -/
  start : ℕ
  entries : List α

namespace SegmentedLog

variable {κ α : Type*} {d s : ℕ} {segs segs' listing : List (LogSegment κ α)}

/-- All entries, in order. -/
def entries (segs : List (LogSegment κ α)) : List α := segs.flatMap LogSegment.entries

@[simp] lemma entries_nil : entries ([] : List (LogSegment κ α)) = [] := rfl

@[simp] lemma entries_cons (seg : LogSegment κ α) (segs : List (LogSegment κ α)) :
    entries (seg :: segs) = seg.entries ++ entries segs := rfl

@[simp] lemma entries_append (segs segs' : List (LogSegment κ α)) :
    entries (segs ++ segs') = entries segs ++ entries segs' := List.flatMap_append

/-- The entries are numbered from `d + 1` on, and each segment is named by its first one. -/
def Contiguous : ℕ → List (LogSegment κ α) → Prop
  | _, [] => True
  | d, seg :: segs => (seg.entries ≠ [] → seg.start = d + 1) ∧
      Contiguous (d + seg.entries.length) segs

/-- The segments of a log whose first `d` entries are gone, in the order they were written. -/
structure WellFormed (d : ℕ) (segs : List (LogSegment κ α)) : Prop where
  keys : (segs.map LogSegment.key).Nodup
  sorted : segs.Pairwise (fun a b => a.start ≤ b.start)
  contiguous : Contiguous d segs
  /-- Only the first segment may be empty. -/
  nonempty : ∀ seg ∈ segs.tail, seg.entries ≠ []

/-- Where a reader that wants the entries behind `s` begins. -/
def firstIndex (s : ℕ) (listing : List (LogSegment κ α)) : ℕ :=
  (listing.takeWhile (fun seg => seg.start ≤ s)).length - 1

/-- The last segment that starts no later than `s` does not share its start. -/
def Unambiguous (s : ℕ) (segs : List (LogSegment κ α)) : Prop :=
  ∀ a ∈ segs, ∀ b ∈ segs, a.key ≠ b.key → a.start = b.start → a.start ≤ s →
    ∃ c ∈ segs, a.start < c.start ∧ c.start ≤ s

/-! ## Contiguity -/

lemma contiguous_append :
    Contiguous d (segs ++ segs') ↔
      Contiguous d segs ∧ Contiguous (d + (entries segs).length) segs' := by
  induction segs generalizing d with
  | nil => simp [Contiguous]
  | cons seg segs ih =>
      rw [List.cons_append, Contiguous, Contiguous, ih, entries_cons, List.length_append,
        ← Nat.add_assoc, and_assoc]

lemma Contiguous.lt_start (h : Contiguous d segs) {seg : LogSegment κ α} (hseg : seg ∈ segs)
    (hne : seg.entries ≠ []) : d < seg.start := by
  induction segs generalizing d with
  | nil => exact absurd hseg List.not_mem_nil
  | cons head segs ih =>
      rcases List.mem_cons.mp hseg with rfl | htail
      · rw [h.1 hne]
        exact Nat.lt_succ_self d
      · exact Nat.lt_of_le_of_lt (Nat.le_add_right _ _) (ih h.2 htail)

/-- Of two segments with the same start one is empty. -/
lemma Contiguous.entries_eq_nil (h : Contiguous d segs) (hkeys : (segs.map LogSegment.key).Nodup)
    {a b : LogSegment κ α} (ha : a ∈ segs) (hb : b ∈ segs) (hne : a.key ≠ b.key)
    (hstart : a.start = b.start) : a.entries = [] ∨ b.entries = [] := by
  induction segs generalizing d with
  | nil => exact absurd ha List.not_mem_nil
  | cons head segs ih =>
      -- The head, if it has entries, starts before everything behind it.
      have hhead : ∀ c ∈ segs, head.start = c.start → head.entries = [] ∨ c.entries = [] := by
        intro c hc heq
        by_contra hcon
        obtain ⟨hhne, hcne⟩ := not_or.mp hcon
        have hlt := h.2.lt_start hc hcne
        have hpos := List.length_pos_of_ne_nil hhne
        have hfirst := h.1 hhne
        omega
      rcases List.mem_cons.mp ha with rfl | ha' <;> rcases List.mem_cons.mp hb with rfl | hb'
      · exact absurd rfl hne
      · exact hhead b hb' hstart
      · exact (hhead a ha' hstart.symm).symm
      · exact ih h.2 (List.nodup_cons.mp hkeys).2 ha' hb'

/-! ## Sorted listings -/

section Sorted

variable {l l' : List (LogSegment κ α)}

/-- Two sorted listings of segments, of which those with the same start are empty but for one, give
the same entries. -/
lemma entries_eq_of_perm (hperm : l.Perm l') (hl : l.Pairwise (fun a b => a.start ≤ b.start))
    (hl' : l'.Pairwise (fun a b => a.start ≤ b.start)) (hkeys : (l'.map LogSegment.key).Nodup)
    (hempty : ∀ a ∈ l', ∀ b ∈ l', a.key ≠ b.key → a.start = b.start →
      a.entries = [] ∨ b.entries = []) : entries l = entries l' := by
  induction l' generalizing l with
  | nil =>
      obtain rfl := hperm.eq_nil
      rfl
  | cons a l' ih =>
      obtain ⟨x, y, rfl⟩ := List.append_of_mem (hperm.mem_iff.mpr List.mem_cons_self)
      have hrest : (x ++ y).Perm l' := (List.perm_cons a).mp (List.perm_middle.symm.trans hperm)
      have hsub : (x ++ y).Sublist (x ++ a :: y) :=
        List.Sublist.append_left (List.sublist_cons_self a y) x
      obtain ⟨hafter, hl''⟩ := List.pairwise_cons.mp hl'
      obtain ⟨hnot, hkeys'⟩ := List.nodup_cons.mp hkeys
      have htail := ih hrest (hl.sublist hsub) hl'' hkeys' (fun b hb c hc =>
        hempty b (List.mem_cons_of_mem a hb) c (List.mem_cons_of_mem a hc))
      rw [entries_append] at htail
      rw [entries_append, entries_cons, entries_cons, ← htail]
      -- What is listed before `a` starts where `a` does.
      by_cases hnil : a.entries = []
      · rw [hnil, List.nil_append, List.nil_append]
      · have hx : entries x = [] := by
          refine List.flatMap_eq_nil_iff.mpr (fun b hb => ?_)
          have hb' : b ∈ l' := hrest.mem_iff.mp (List.mem_append_left y hb)
          have hle : b.start ≤ a.start :=
            (List.pairwise_append.mp hl).2.2 b hb a List.mem_cons_self
          have hkey : a.key ≠ b.key := by
            intro heq
            exact hnot (heq ▸ List.mem_map_of_mem hb')
          have heq : a.start = b.start := Nat.le_antisymm (hafter b hb') hle
          exact (hempty a List.mem_cons_self b (List.mem_cons_of_mem a hb') hkey heq).resolve_left
            hnil
        rw [hx, List.nil_append, List.nil_append]

lemma start_le_last {a : LogSegment κ α} (hl : (l ++ [a]).Pairwise (fun a b => a.start ≤ b.start)) :
    ∀ c ∈ l ++ [a], c.start ≤ a.start := by
  intro c hc
  rcases List.mem_append.mp hc with hc | hc
  · exact (List.pairwise_append.mp hl).2.2 c hc a (List.mem_singleton_self a)
  · exact Nat.le_of_eq (congrArg LogSegment.start (List.mem_singleton.mp hc))

/-- In a sorted listing the segments that start no later than `s` come first. -/
lemma takeWhile_append_filter (hl : l.Pairwise (fun a b => a.start ≤ b.start)) (s : ℕ) :
    l.takeWhile (fun seg => seg.start ≤ s) = l.filter (fun seg => seg.start ≤ s) ∧
      l = l.filter (fun seg => seg.start ≤ s) ++ l.filter (fun seg => ¬seg.start ≤ s) := by
  induction l with
  | nil => exact ⟨rfl, rfl⟩
  | cons a l ih =>
      obtain ⟨hafter, hl'⟩ := List.pairwise_cons.mp hl
      obtain ⟨htake, hsplit⟩ := ih hl'
      by_cases ha : a.start ≤ s
      · refine ⟨by simp [ha, htake], ?_⟩
        simp only [List.filter_cons, ha, decide_true, if_true, not_true_eq_false, decide_false,
          List.cons_append]
        exact congrArg (a :: ·) (by simpa using hsplit)
      · have hnone : l.filter (fun seg => seg.start ≤ s) = [] := by
          refine List.filter_eq_nil_iff.mpr (fun b hb => ?_)
          have := hafter b hb
          simp only [decide_eq_true_eq]
          omega
        rw [hnone, List.nil_append] at hsplit
        refine ⟨by simp [ha, hnone], ?_⟩
        simp only [List.filter_cons, ha, decide_false, Bool.false_eq_true, if_false, hnone,
          not_false_eq_true, decide_true, if_true, List.nil_append]
        exact congrArg (a :: ·) (by simpa using hsplit)

end Sorted

/-- **Reading from a number on.**  However the directory lists the segments, the reader misses none
of the entries behind `s`: it reads what is left of the log from some entry on that is not behind
`s + 1`. -/
lemma entries_drop_firstIndex (hwf : WellFormed d segs) (hperm : listing.Perm segs)
    (hsorted : listing.Pairwise (fun a b => a.start ≤ b.start)) (hclear : Unambiguous s segs)
    (hd : d ≤ s) :
    ∃ k, d + k ≤ s ∧
      entries (listing.drop (firstIndex s listing)) = (entries segs).drop k := by
  obtain ⟨htake, hlisting⟩ := takeWhile_append_filter hsorted s
  obtain ⟨-, hsegs⟩ := takeWhile_append_filter hwf.sorted s
  have hle := hperm.filter (fun seg => decide (seg.start ≤ s))
  have hgt := hperm.filter (fun seg => decide (¬seg.start ≤ s))
  have hempty : ∀ a ∈ segs, ∀ b ∈ segs, a.key ≠ b.key → a.start = b.start →
      a.entries = [] ∨ b.entries = [] := by
    intro a ha b hb hne hstart
    exact hwf.contiguous.entries_eq_nil hwf.keys ha hb hne hstart
  -- behind `s` the listing and the log have the same entries
  have hrest : entries (listing.filter (fun seg => ¬seg.start ≤ s)) =
      entries (segs.filter (fun seg => ¬seg.start ≤ s)) := by
    refine entries_eq_of_perm hgt (hsorted.filter _) (hwf.sorted.filter _)
      (hwf.keys.sublist (List.filter_sublist.map _)) (fun a ha b hb => ?_)
    exact hempty a (List.mem_of_mem_filter ha) b (List.mem_of_mem_filter hb)
  rw [firstIndex, htake]
  rcases List.eq_nil_or_concat (listing.filter (fun seg => seg.start ≤ s)) with hnil | ⟨x, a, hx⟩
  · -- No segment starts early enough: the reader takes them all.
    refine ⟨0, by simpa using hd, ?_⟩
    rw [hnil, List.length_nil, Nat.zero_sub, List.drop_zero, List.drop_zero]
    exact entries_eq_of_perm hperm hsorted hwf.sorted hwf.keys hempty
  · obtain ⟨y, b, hy⟩ :=
      (List.eq_nil_or_concat (segs.filter (fun seg => seg.start ≤ s))).resolve_left
      (by rintro hnil; rw [hnil, hx] at hle; simpa using hle.length_eq)
    have ha : a ∈ segs.filter (fun seg => seg.start ≤ s) := hle.mem_iff.mp (by rw [hx]; simp)
    have hb : b ∈ listing.filter (fun seg => seg.start ≤ s) := hle.mem_iff.mpr (by rw [hy]; simp)
    have hmax : ∀ c ∈ listing.filter (fun seg => seg.start ≤ s), c.start ≤ a.start := by
      have hpair := hsorted.filter (fun seg => seg.start ≤ s)
      rw [hx, List.concat_eq_append] at hpair ⊢
      exact start_le_last hpair
    have hmax' : ∀ c ∈ segs.filter (fun seg => seg.start ≤ s), c.start ≤ b.start := by
      have hpair := hwf.sorted.filter (fun seg => seg.start ≤ s)
      rw [hy, List.concat_eq_append] at hpair ⊢
      exact start_le_last hpair
    have hstart : a.start = b.start := Nat.le_antisymm (hmax' a ha) (hmax b hb)
    have ha' : a ∈ segs := List.mem_of_mem_filter ha
    have hb' : b ∈ segs := hperm.mem_iff.mp (List.mem_of_mem_filter hb)
    have has : a.start ≤ s := by simpa using List.of_mem_filter ha
    have hkey : a.key = b.key := by
      by_contra hne
      obtain ⟨c, hc, hlt, hcs⟩ := hclear a ha' b hb' hne hstart has
      have hc' := hmax c (hle.mem_iff.mpr (List.mem_filter.mpr ⟨hc, by simpa using hcs⟩))
      omega
    obtain rfl : a = b := List.inj_on_of_nodup_map hwf.keys ha' hb' hkey
    have hsegs' : segs = y ++ a :: segs.filter (fun seg => ¬seg.start ≤ s) := by
      rw [hy, List.concat_eq_append, List.append_assoc, List.singleton_append] at hsegs
      exact hsegs
    refine ⟨(entries y).length, ?_, ?_⟩
    · -- The entries before `a` are numbered below its start.
      have hcontig := hwf.contiguous
      rw [hsegs', contiguous_append] at hcontig
      by_cases hne : a.entries = []
      · have hynil : y = [] := by
          by_contra hyne
          refine hwf.nonempty a ?_ hne
          rw [hsegs']
          cases y with
          | nil => exact absurd rfl hyne
          | cons c y => simp
        rw [hynil]
        simpa using hd
      · have := hcontig.2.1 hne
        omega
    · have hlen : (listing.filter (fun seg => seg.start ≤ s)).length - 1 = x.length := by
        rw [hx, List.concat_eq_append, List.length_append, List.length_singleton,
          Nat.add_sub_cancel]
      have hdrop : listing.drop x.length = a :: listing.filter (fun seg => ¬seg.start ≤ s) := by
        conv_lhs => rw [hlisting, hx, List.concat_eq_append, List.append_assoc]
        rw [List.drop_left, List.singleton_append]
      rw [hlen, hdrop, entries_cons, hrest]
      conv_rhs => rw [hsegs']
      rw [entries_append, entries_cons, List.drop_left]

/-! ## Removing segments -/

section Filter

variable {keep : LogSegment κ α → Bool}

/-- What is left, where no segment with entries is kept before one that is removed: the entries of
the removed ones are gone from the front. -/
lemma Contiguous.filter (h : Contiguous d segs)
    (hcut : segs.Pairwise (fun a b => keep a = true → keep b = false →
      a.entries = [] ∨ b.entries = [])) :
    Contiguous (d + (entries (segs.filter (fun seg => !keep seg))).length) (segs.filter keep) ∧
      entries segs =
        entries (segs.filter (fun seg => !keep seg)) ++ entries (segs.filter keep) := by
  induction segs generalizing d with
  | nil => exact ⟨trivial, rfl⟩
  | cons seg segs ih =>
      obtain ⟨hafter, hcut'⟩ := List.pairwise_cons.mp hcut
      obtain ⟨hcontig, hentries⟩ := ih h.2 hcut'
      cases hkeep : keep seg with
      | false =>
          simp only [List.filter_cons, hkeep, Bool.not_false, if_true, Bool.false_eq_true, if_false,
            entries_cons, List.length_append, hentries, List.append_assoc]
          exact ⟨by rwa [← Nat.add_assoc], trivial⟩
      | true =>
          by_cases hnil : seg.entries = []
          · simp only [List.filter_cons, hkeep, Bool.not_true, if_true, Bool.false_eq_true,
              if_false, entries_cons, hnil, List.nil_append]
            rw [hnil, List.length_nil, Nat.add_zero] at hcontig
            exact ⟨⟨fun hne => absurd hnil hne, by rwa [hnil, List.length_nil, Nat.add_zero]⟩,
              hentries⟩
          · -- Nothing with entries is removed behind a segment that is kept.
            have hgone : entries (segs.filter (fun seg => !keep seg)) = [] := by
              refine List.flatMap_eq_nil_iff.mpr (fun b hb => ?_)
              obtain ⟨hmem, hb'⟩ := List.mem_filter.mp hb
              exact (hafter b hmem hkeep (by simpa using hb')).resolve_left hnil
            rw [hgone] at hcontig hentries
            simp only [List.filter_cons, hkeep, Bool.not_true, if_true, Bool.false_eq_true,
              if_false, entries_cons, hgone, List.nil_append, List.length_nil, Nat.add_zero]
            exact ⟨⟨h.1, hcontig⟩, by rw [hentries, List.nil_append]⟩

lemma WellFormed.filter (h : WellFormed d segs)
    (hcut : segs.Pairwise (fun a b => keep a = true → keep b = false →
      a.entries = [] ∨ b.entries = [])) :
    WellFormed (d + (entries (segs.filter (fun seg => !keep seg))).length) (segs.filter keep) where
  keys := h.keys.sublist (List.filter_sublist.map _)
  sorted := h.sorted.filter _
  contiguous := (h.contiguous.filter hcut).1
  nonempty := by
    intro seg hseg
    cases segs with
    | nil => exact absurd hseg List.not_mem_nil
    | cons first segs =>
        refine h.nonempty seg ?_
        rw [List.filter_cons] at hseg
        split at hseg
        · exact List.mem_of_mem_filter hseg
        · exact List.mem_of_mem_filter (List.mem_of_mem_tail hseg)

end Filter

/-- A segment behind all others, named by the next number. -/
lemma WellFormed.concat (h : WellFormed d segs) {seg : LogSegment κ α}
    (hkey : seg.key ∉ segs.map LogSegment.key) (hle : ∀ a ∈ segs, a.start ≤ seg.start)
    (hstart : seg.start = d + (entries segs).length + 1) (hne : segs ≠ [] → seg.entries ≠ []) :
    WellFormed d (segs ++ [seg]) where
  keys := by
    rw [List.map_append, List.map_singleton]
    refine List.Nodup.append h.keys (List.nodup_singleton _) ?_
    intro k hk hk'
    exact hkey (List.mem_singleton.mp hk' ▸ hk)
  sorted := List.pairwise_append.mpr ⟨h.sorted, List.pairwise_singleton _ _, fun a ha b hb => by
    rw [List.mem_singleton.mp hb]
    exact hle a ha⟩
  contiguous := contiguous_append.mpr ⟨h.contiguous, fun _ => hstart, trivial⟩
  nonempty := by
    intro a ha
    cases segs with
    | nil => exact absurd ha List.not_mem_nil
    | cons first segs =>
        rcases List.mem_append.mp ha with ha | ha
        · exact h.nonempty a ha
        · rw [List.mem_singleton.mp ha]
          exact hne (List.cons_ne_nil _ _)

lemma Unambiguous.transfer (h : Unambiguous s segs)
    (hpair : ∀ a ∈ segs', ∀ b ∈ segs', a.key ≠ b.key → a.start = b.start → a.start ≤ s →
      ∃ a' ∈ segs, ∃ b' ∈ segs, a'.key ≠ b'.key ∧ a'.start = a.start ∧ b'.start = b.start)
    (hstart : ∀ c ∈ segs, c.start ≤ s → (∃ a ∈ segs', a.start < c.start) →
      ∃ c' ∈ segs', c'.start = c.start) :
    Unambiguous s segs' := by
  intro a ha b hb hne heq hle
  obtain ⟨a', ha', b', hb', hne', hsa, hsb⟩ := hpair a ha b hb hne heq hle
  obtain ⟨c, hc, hlt, hcs⟩ := h a' ha' b' hb' hne' (by rw [hsa, hsb, heq]) (by rw [hsa]; exact hle)
  obtain ⟨c', hc', hsc⟩ := hstart c hc hcs ⟨a, ha, by rw [← hsa]; exact hlt⟩
  exact ⟨c', hc', by rw [hsc, ← hsa]; exact hlt, by rw [hsc]; exact hcs⟩

lemma exists_perm_of_keys {names : List κ} (h : names.Perm (segs.map LogSegment.key)) :
    ∃ listing : List (LogSegment κ α), listing.Perm segs ∧ listing.map LogSegment.key = names := by
  have hcomp : (Relation.Comp (fun a b => a = List.map LogSegment.key b) List.Perm) names segs := by
    rw [List.eq_map_comp_perm]
    exact h
  obtain ⟨listing, hnames, hperm⟩ := hcomp
  exact ⟨listing, hperm, hnames.symm⟩

end SegmentedLog

end ExchangeCore
