import Mathlib.Data.List.Basic
import Mathlib.Data.List.Nodup
import Mathlib.Order.Lattice
import Mathlib.Tactic.Common

/-!
# Ordered maps

A `SortedMap κ ν` is a finite map whose entries are kept in strictly increasing key order: the
abstract content of a B-tree map, read from either end.  The order is a field of the structure,
so a map with a repeated or misplaced key cannot be built.

The operations are the ones an ordered map offers a program: lookup (`get?`), overwriting the
value behind a mutable reference (`replace`), removal (`erase`), insertion through an entry
(`upsert`), and the two ends (`first?`, `last?`).  Overwriting and removal act on the entry
list pointwise, so they commute with reading the map backwards; what they do to the entry at the
front (`filter_ne_head`, `map_setAt_head`) is therefore one argument for both ends, on a list with
distinct keys.
-/

namespace ExchangeCore

/-- A finite map with its entries in strictly increasing key order. -/
@[ext]
structure SortedMap (κ ν : Type*) [LinearOrder κ] where
  /-- The entries, least key first. -/
  entries : List (κ × ν)
  /-- Keys strictly increase along the list. -/
  sorted : entries.Pairwise (fun a b => a.1 < b.1)

namespace SortedMap

variable {κ ν : Type*} [LinearOrder κ]

instance [DecidableEq ν] : DecidableEq (SortedMap κ ν) := fun m n =>
  decidable_of_iff (m.entries = n.entries) SortedMap.ext_iff.symm

/-! ## Operations -/

/-- The map with no entries. -/
def empty : SortedMap κ ν := ⟨[], List.Pairwise.nil⟩

/-- The value stored under a key. -/
def get? (m : SortedMap κ ν) (k : κ) : Option ν :=
  (m.entries.find? (fun e => e.1 = k)).map Prod.snd

/-- The entry with the least key. -/
def first? (m : SortedMap κ ν) : Option (κ × ν) := m.entries.head?

/-- The entry with the greatest key. -/
def last? (m : SortedMap κ ν) : Option (κ × ν) := m.entries.getLast?

/-- Drop a key. -/
def erase (m : SortedMap κ ν) (k : κ) : SortedMap κ ν :=
  ⟨m.entries.filter (fun e => e.1 ≠ k), m.sorted.filter _⟩

/-- Overwrite the value of one entry of a list, keeping every key. -/
def setAt (k : κ) (v : ν) (e : κ × ν) : κ × ν := if e.1 = k then (e.1, v) else e

@[simp] lemma setAt_fst (k : κ) (v : ν) (e : κ × ν) : (setAt k v e).1 = e.1 := by
  unfold setAt
  split <;> rfl

/-- Overwrite the value under a key that is present; an absent key stays absent. -/
def replace (m : SortedMap κ ν) (k : κ) (v : ν) : SortedMap κ ν :=
  ⟨m.entries.map (setAt k v), by
    rw [List.pairwise_map]
    simpa using m.sorted⟩

/-- Insertion through an entry: the new value is computed from the old one, if any. -/
def upsertList (k : κ) (f : Option ν → ν) : List (κ × ν) → List (κ × ν)
  | [] => [(k, f none)]
  | e :: es =>
      if k < e.1 then (k, f none) :: e :: es
      else if e.1 = k then (e.1, f (some e.2)) :: es
      else e :: upsertList k f es

lemma mem_upsertList_fst {k : κ} {f : Option ν → ν} {x : κ × ν} :
    ∀ {es : List (κ × ν)}, x ∈ upsertList k f es → x.1 = k ∨ x ∈ es
  | [], h => by
      simp only [upsertList, List.mem_singleton] at h
      exact Or.inl (by rw [h])
  | e :: es, h => by
      unfold upsertList at h
      split at h
      · rcases List.mem_cons.mp h with rfl | h
        · exact Or.inl rfl
        · exact Or.inr h
      · split at h
        · rename_i hek
          rcases List.mem_cons.mp h with rfl | h
          · exact Or.inl hek
          · exact Or.inr (List.mem_cons_of_mem _ h)
        · rcases List.mem_cons.mp h with rfl | h
          · exact Or.inr (List.mem_cons_self ..)
          · exact (mem_upsertList_fst h).imp_right (List.mem_cons_of_mem _)

lemma upsertList_sorted (k : κ) (f : Option ν → ν) :
    ∀ {es : List (κ × ν)}, es.Pairwise (fun a b => a.1 < b.1) →
      (upsertList k f es).Pairwise (fun a b => a.1 < b.1)
  | [], _ => List.pairwise_singleton _ _
  | e :: es, h => by
      obtain ⟨hlt, htail⟩ := List.pairwise_cons.mp h
      unfold upsertList
      split
      · rename_i hk
        refine List.pairwise_cons.mpr ⟨?_, h⟩
        intro x hx
        rcases List.mem_cons.mp hx with rfl | hx
        · exact hk
        · exact lt_trans hk (hlt x hx)
      · rename_i hk
        split
        · exact List.pairwise_cons.mpr ⟨fun x hx => hlt x hx, htail⟩
        · rename_i hek
          refine List.pairwise_cons.mpr ⟨?_, upsertList_sorted k f htail⟩
          intro x hx
          rcases mem_upsertList_fst hx with hxk | hx
          · rw [hxk]
            exact lt_of_le_of_ne (not_lt.mp hk) hek
          · exact hlt x hx

/-- Store `f` of the current value under `k`. -/
def upsert (m : SortedMap κ ν) (k : κ) (f : Option ν → ν) : SortedMap κ ν :=
  ⟨upsertList k f m.entries, upsertList_sorted k f m.sorted⟩

@[simp] lemma entries_empty : (empty : SortedMap κ ν).entries = [] := rfl

@[simp] lemma entries_erase (m : SortedMap κ ν) (k : κ) :
    (m.erase k).entries = m.entries.filter (fun e => e.1 ≠ k) := rfl

@[simp] lemma entries_replace (m : SortedMap κ ν) (k : κ) (v : ν) :
    (m.replace k v).entries = m.entries.map (setAt k v) := rfl

/-! ## Lists with distinct keys

Reading a map in either direction gives a list with distinct keys, and everything below about
the head of such a list holds at both ends of the map. -/

lemma filter_ne_head {k : κ} {v : ν} {es : List (κ × ν)}
    (h : ((k, v) :: es).Pairwise (fun a b => a.1 ≠ b.1)) :
    ((k, v) :: es).filter (fun e => e.1 ≠ k) = es := by
  obtain ⟨hne, -⟩ := List.pairwise_cons.mp h
  rw [List.filter_cons_of_neg (by simp), List.filter_eq_self]
  intro e he
  simpa using (hne e he).symm

lemma map_setAt_head {k : κ} {v w : ν} {es : List (κ × ν)}
    (h : ((k, v) :: es).Pairwise (fun a b => a.1 ≠ b.1)) :
    ((k, v) :: es).map (setAt k w) = (k, w) :: es := by
  obtain ⟨hne, -⟩ := List.pairwise_cons.mp h
  rw [List.map_cons]
  congr 1
  · simp [setAt]
  · conv_rhs => rw [← List.map_id es]
    refine List.map_congr_left (fun e he => ?_)
    simp [setAt, (hne e he).symm]

lemma distinct (m : SortedMap κ ν) : m.entries.Pairwise (fun a b => a.1 ≠ b.1) :=
  m.sorted.imp (fun h => ne_of_lt h)

lemma distinct_reverse (m : SortedMap κ ν) :
    m.entries.reverse.Pairwise (fun a b => a.1 ≠ b.1) :=
  List.pairwise_reverse.mpr (m.distinct.imp (fun h => h.symm))

/-! ## Lookup -/

lemma get?_eq_some_iff (m : SortedMap κ ν) (k : κ) (v : ν) :
    m.get? k = some v ↔ (k, v) ∈ m.entries := by
  obtain ⟨es, hs⟩ := m
  simp only [get?]
  induction es with
  | nil => simp
  | cons e es ih =>
      obtain ⟨hlt, htail⟩ := List.pairwise_cons.mp hs
      by_cases hek : e.1 = k
      · have hnot : (k, v) ∉ es := fun hmem => absurd hek (ne_of_lt (hlt _ hmem))
        rw [List.find?_cons_of_pos (by simpa using hek)]
        constructor
        · intro h
          have : e = (k, v) := by
            rw [← hek]
            exact Prod.ext rfl (by simpa using h)
          rw [this]
          exact List.mem_cons_self ..
        · intro h
          rcases List.mem_cons.mp h with rfl | h
          · rfl
          · exact absurd h hnot
      · rw [List.find?_cons_of_neg (by simpa using hek), ih htail]
        constructor
        · exact List.mem_cons_of_mem _
        · intro h
          rcases List.mem_cons.mp h with rfl | h
          · exact absurd rfl hek
          · exact h

@[simp] lemma get?_empty (k : κ) : (empty : SortedMap κ ν).get? k = none := rfl

lemma get?_upsert (m : SortedMap κ ν) (k k' : κ) (f : Option ν → ν) :
    (m.upsert k f).get? k' = if k' = k then some (f (m.get? k)) else m.get? k' := by
  obtain ⟨es, hs⟩ := m
  simp only [get?, upsert]
  induction es with
  | nil =>
      by_cases h : k' = k
      · simp [upsertList, h]
      · simp [upsertList, h, Ne.symm h]
  | cons e es ih =>
      obtain ⟨hlt, htail⟩ := List.pairwise_cons.mp hs
      have ih := ih htail
      unfold upsertList
      split
      · rename_i hk
        -- a key below the head occurs nowhere in the list
        have hnone : (e :: es).find? (fun x => x.1 = k) = none := by
          rw [List.find?_eq_none]
          intro x hx
          rcases List.mem_cons.mp hx with rfl | hx
          · simpa using ne_of_gt hk
          · simpa using ne_of_gt (lt_trans hk (hlt x hx))
        by_cases h : k' = k
        · subst h
          simp [hnone]
        · rw [List.find?_cons_of_neg (by simpa using Ne.symm h), if_neg h]
      · split
        · rename_i hek
          by_cases h : k' = k
          · simp [h, hek]
          · simp [h, hek, Ne.symm h]
        · rename_i hek
          by_cases h' : e.1 = k'
          · have : ¬k' = k := fun hkk => hek (h'.trans hkk)
            simp [h', this]
          · simp only [List.find?_cons_of_neg, h', hek, decide_false, Bool.false_eq_true,
              not_false_eq_true]
            exact ih

lemma get?_erase (m : SortedMap κ ν) (k k' : κ) :
    (m.erase k).get? k' = if k' = k then none else m.get? k' := by
  refine Option.ext (fun v => ?_)
  rw [get?_eq_some_iff, entries_erase, List.mem_filter, ← get?_eq_some_iff]
  split
  · rename_i h
    simp [h]
  · rename_i h
    simp [h]

lemma get?_replace (m : SortedMap κ ν) (k k' : κ) (w : ν) :
    (m.replace k w).get? k' =
      if k' = k then (m.get? k').map (fun _ => w) else m.get? k' := by
  simp only [get?, entries_replace, List.find?_map]
  have hcomp : ((fun e : κ × ν => decide (e.1 = k')) ∘ setAt k w) = fun e => decide (e.1 = k') := by
    funext e
    simp
  rw [hcomp, Option.map_map]
  cases hf : m.entries.find? (fun e => decide (e.1 = k')) with
  | none => simp
  | some e =>
      have he : e.1 = k' := by simpa using List.find?_some hf
      by_cases h : k' = k
      · simp [setAt, he, h]
      · simp [setAt, he, h]

/-! ## One entry among the others

The updates split the entry list at the key they touch, which is how the content of the whole
map is compared before and after. -/

lemma filter_ne_split {k : κ} {v : ν} {l₁ l₂ : List (κ × ν)}
    (h : (l₁ ++ (k, v) :: l₂).Pairwise (fun a b => a.1 ≠ b.1)) :
    (l₁ ++ (k, v) :: l₂).filter (fun e => e.1 ≠ k) = l₁ ++ l₂ := by
  obtain ⟨-, h₂, h₁₂⟩ := List.pairwise_append.mp h
  rw [List.filter_append, filter_ne_head h₂]
  congr 1
  rw [List.filter_eq_self]
  intro e he
  simpa using h₁₂ e he (k, v) (List.mem_cons_self ..)

lemma map_setAt_split {k : κ} {v w : ν} {l₁ l₂ : List (κ × ν)}
    (h : (l₁ ++ (k, v) :: l₂).Pairwise (fun a b => a.1 ≠ b.1)) :
    (l₁ ++ (k, v) :: l₂).map (setAt k w) = l₁ ++ (k, w) :: l₂ := by
  obtain ⟨-, h₂, h₁₂⟩ := List.pairwise_append.mp h
  rw [List.map_append, map_setAt_head h₂]
  congr 1
  conv_rhs => rw [← List.map_id l₁]
  refine List.map_congr_left (fun e he => ?_)
  simp [setAt, h₁₂ e he (k, v) (List.mem_cons_self ..)]

/-- The entry found under a key splits the map; erasing and replacing act at the split. -/
lemma exists_split {m : SortedMap κ ν} {k : κ} {v : ν} (h : m.get? k = some v) :
    ∃ l₁ l₂, m.entries = l₁ ++ (k, v) :: l₂ ∧ (m.erase k).entries = l₁ ++ l₂ ∧
      ∀ w, (m.replace k w).entries = l₁ ++ (k, w) :: l₂ := by
  obtain ⟨l₁, l₂, hsplit⟩ := List.append_of_mem ((m.get?_eq_some_iff k v).mp h)
  have hd := m.distinct
  rw [hsplit] at hd
  refine ⟨l₁, l₂, hsplit, ?_, fun w => ?_⟩
  · rw [entries_erase, hsplit, filter_ne_split hd]
  · rw [entries_replace, hsplit, map_setAt_split hd]

/-- Appending to the list stored under a key adds one element to the content of the map. -/
lemma flatMap_upsert_perm {α : Type*} (m : SortedMap κ (List α)) (k : κ) (x : α) :
    ((m.upsert k (fun q => q.getD [] ++ [x])).entries.flatMap Prod.snd).Perm
      (x :: m.entries.flatMap Prod.snd) := by
  obtain ⟨es, hs⟩ := m
  simp only [upsert]
  clear hs
  induction es with
  | nil => simp [upsertList]
  | cons e es ih =>
      unfold upsertList
      split
      · simp
      · split
        · simp only [List.flatMap_cons, Option.getD_some, List.append_assoc,
            List.singleton_append]
          exact List.perm_middle
        · simp only [List.flatMap_cons]
          exact (ih.append_left e.2).trans List.perm_middle

lemma mem_upsert {m : SortedMap κ ν} {k : κ} {f : Option ν → ν} {e : κ × ν}
    (h : e ∈ (m.upsert k f).entries) : e = (k, f (m.get? k)) ∨ e ∈ m.entries := by
  have hget := (get?_eq_some_iff (m.upsert k f) e.1 e.2).mpr h
  rw [get?_upsert] at hget
  split at hget
  · rename_i hk
    exact Or.inl (Prod.ext hk (Option.some.inj hget).symm)
  · exact Or.inr ((m.get?_eq_some_iff e.1 e.2).mp hget)

/-! ## The two ends -/

lemma first?_le {m : SortedMap κ ν} {e x : κ × ν} (h : m.first? = some e)
    (hx : x ∈ m.entries) : e.1 ≤ x.1 := by
  obtain ⟨es, hs⟩ := m
  cases es with
  | nil => simp at hx
  | cons a es =>
      obtain rfl : a = e := by simpa [first?] using h
      rcases List.mem_cons.mp hx with rfl | hx
      · exact le_refl _
      · exact le_of_lt ((List.pairwise_cons.mp hs).1 x hx)

lemma le_last? {m : SortedMap κ ν} {e x : κ × ν} (h : m.last? = some e)
    (hx : x ∈ m.entries) : x.1 ≤ e.1 := by
  have hrev : m.entries.reverse.Pairwise (fun a b => b.1 < a.1) :=
    List.pairwise_reverse.mpr m.sorted
  have hx' : x ∈ m.entries.reverse := List.mem_reverse.mpr hx
  have h' : m.entries.reverse.head? = some e := by rw [List.head?_reverse]; exact h
  cases hes : m.entries.reverse with
  | nil => simp [hes] at hx'
  | cons a es =>
      rw [hes] at hrev hx' h'
      obtain rfl : a = e := by simpa using h'
      rcases List.mem_cons.mp hx' with rfl | hx'
      · exact le_refl _
      · exact le_of_lt ((List.pairwise_cons.mp hrev).1 x hx')

lemma first?_mem {m : SortedMap κ ν} {e : κ × ν} (h : m.first? = some e) : e ∈ m.entries :=
  List.mem_of_mem_head? h

lemma last?_mem {m : SortedMap κ ν} {e : κ × ν} (h : m.last? = some e) : e ∈ m.entries :=
  List.mem_of_getLast? h

end SortedMap

end ExchangeCore
