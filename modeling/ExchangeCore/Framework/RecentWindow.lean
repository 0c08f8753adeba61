import Mathlib.Data.Finset.Card
import Mathlib.Data.List.DropRight
import Mathlib.Data.List.Nodup
import Mathlib.Tactic.Common

/-!
# Deduplication by a window of recent keys

A deduplicator of capacity `n` accepts a delivered key unless it is among the last `n` keys it
has accepted.  `accepted n D` is the list of keys accepted from the deliveries `D`, in order.

With an unbounded memory every key would be accepted once.  With a bounded one the exact condition
is `nodup_accepted_iff`: nothing is accepted twice if and only if every repeated delivery comes
while fewer than `n` other keys have turned up since the key's first delivery (`newSince`).  As
long as that is so, the accepted keys are the delivered ones in the order of their first
deliveries (`FirstOrder`), and the window holds the last `n` of them.
-/

namespace ExchangeCore

namespace RecentWindow

variable {κ : Type*} [DecidableEq κ]

/-- What has been accepted after one more delivery. -/
def accept (n : ℕ) (acc : List κ) (x : κ) : List κ := if x ∈ acc.rtake n then acc else acc ++ [x]

/-- What is accepted from a list of deliveries. -/
def accepted (n : ℕ) (D : List κ) : List κ := D.foldl (accept n) []

/-- The number of keys other than `x` first delivered since the first delivery of `x`. -/
def newSince (D : List κ) (x : κ) : ℕ :=
  (D.toFinset \ insert x (D.takeWhile (· ≠ x)).toFinset).card

variable {n : ℕ} {D acc : List κ} {x : κ}

lemma accepted_append (n : ℕ) (D E : List κ) :
    accepted n (D ++ E) = E.foldl (accept n) (accepted n D) := List.foldl_append

lemma accepted_concat (n : ℕ) (D : List κ) (x : κ) :
    accepted n (D ++ [x]) = accept n (accepted n D) x := accepted_append n D [x]

/-- Nothing accepted is taken back. -/
lemma isPrefix_foldl (n : ℕ) (E : List κ) (acc : List κ) : acc <+: E.foldl (accept n) acc := by
  induction E generalizing acc with
  | nil => exact List.prefix_refl acc
  | cons x E ih =>
      refine List.IsPrefix.trans ?_ (ih _)
      unfold accept
      split
      · exact List.prefix_refl acc
      · exact List.prefix_append acc [x]

omit [DecidableEq κ] in
lemma map_rtake {κ' : Type*} (f : κ → κ') (l : List κ) (n : ℕ) :
    (l.rtake n).map f = (l.map f).rtake n := by
  rw [List.rtake, List.rtake, List.map_drop, List.length_map]

omit [DecidableEq κ] in
/-- The window after an acceptance is computed from the window before it. -/
lemma rtake_concat_rtake (n : ℕ) (acc : List κ) (x : κ) :
    (acc.rtake n ++ [x]).rtake n = (acc ++ [x]).rtake n := by
  cases n with
  | zero => rw [List.rtake_zero, List.rtake_zero]
  | succ n =>
      rw [List.rtake_concat_succ, List.rtake_concat_succ]
      simp only [List.rtake_eq_reverse_take_reverse, List.reverse_reverse, List.take_take]
      rw [Nat.min_eq_left (Nat.le_succ n)]

/-! ## The order of first deliveries -/

/-- `acc` holds the keys of `D`, each once, in the order of their first deliveries. -/
structure FirstOrder (D acc : List κ) : Prop where
  nodup : acc.Nodup
  mem : ∀ y, y ∈ acc ↔ y ∈ D
  before : ∀ A x B, acc = A ++ x :: B → ∀ y, y ∈ A ↔ y ∈ D.takeWhile (· ≠ x)

/-- The window holds exactly the keys with fewer than `n` newer ones. -/
lemma FirstOrder.mem_rtake_iff (h : FirstOrder D acc) (hx : x ∈ D) :
    x ∈ acc.rtake n ↔ newSince D x < n := by
  obtain ⟨A, B, hsplit⟩ := List.append_of_mem ((h.mem x).mpr hx)
  have hnodup := h.nodup
  rw [hsplit, List.nodup_middle, List.nodup_cons, List.mem_append, not_or] at hnodup
  obtain ⟨⟨hA, hB⟩, hAB⟩ := hnodup
  have hdisjoint := List.disjoint_of_nodup_append hAB
  -- the keys behind `x` are the newer ones
  have hnewer : B.toFinset = D.toFinset \ insert x (D.takeWhile (· ≠ x)).toFinset := by
    ext y
    have hmem := h.mem y
    have hbefore := h.before A x B hsplit y
    rw [hsplit, List.mem_append, List.mem_cons] at hmem
    rw [Finset.mem_sdiff, Finset.mem_insert, List.mem_toFinset, List.mem_toFinset,
      List.mem_toFinset, ← hmem, ← hbefore]
    constructor
    · intro hy
      refine ⟨Or.inr (Or.inr hy), ?_⟩
      rintro (rfl | hyA)
      · exact hB hy
      · exact hdisjoint hyA hy
    · rintro ⟨hy | rfl | hy, hnot⟩
      · exact absurd (Or.inr hy) hnot
      · exact absurd (Or.inl rfl) hnot
      · exact hy
  have hcard : newSince D x = B.length := by
    rw [newSince, ← hnewer, List.toFinset_card_of_nodup hAB.of_append_right]
  rw [hcard, hsplit, List.rtake]
  by_cases hlt : B.length < n
  · have hle : (A ++ x :: B).length - n ≤ A.length := by
      simp only [List.length_append, List.length_cons]
      omega
    rw [List.drop_append_of_le_length hle]
    simp [hlt]
  · have hge : (A ++ x :: B).length - n = A.length + ((B.length - n) + 1) := by
      simp only [List.length_append, List.length_cons]
      omega
    rw [hge, List.drop_length_add_append, List.drop_succ_cons]
    simp only [hlt, iff_false]
    exact fun hmem => hB (List.mem_of_mem_drop hmem)

lemma takeWhile_append_of_mem (h : x ∈ D) (E : List κ) :
    (D ++ E).takeWhile (· ≠ x) = D.takeWhile (· ≠ x) := by
  induction D with
  | nil => exact absurd h List.not_mem_nil
  | cons y D ih =>
      by_cases hy : y = x
      · simp [hy]
      · have hD : x ∈ D := (List.mem_cons.mp h).resolve_left (Ne.symm hy)
        rw [List.cons_append, List.takeWhile_cons_of_pos (by simpa using hy),
          List.takeWhile_cons_of_pos (by simpa using hy), ih hD]

lemma FirstOrder.repeated (h : FirstOrder D acc) (hx : x ∈ D) : FirstOrder (D ++ [x]) acc where
  nodup := h.nodup
  mem y := by
    rw [h.mem, List.mem_append, List.mem_singleton]
    exact ⟨Or.inl, fun hy => hy.elim id (fun heq => heq ▸ hx)⟩
  before A z B hsplit y := by
    have hz : z ∈ D := (h.mem z).mp (hsplit ▸ List.mem_append_right _ (List.mem_cons_self ..))
    rw [takeWhile_append_of_mem hz]
    exact h.before A z B hsplit y

/-- A first delivery goes to the end. -/
lemma FirstOrder.first (h : FirstOrder D acc) (hx : x ∉ D) :
    FirstOrder (D ++ [x]) (acc ++ [x]) where
  nodup := by
    rw [← List.concat_eq_append]
    exact h.nodup.concat (fun hmem => hx ((h.mem x).mp hmem))
  mem y := by rw [List.mem_append, List.mem_append, h.mem]
  before A z B hsplit y := by
    rcases List.eq_nil_or_concat B with rfl | ⟨B', w, rfl⟩
    · obtain ⟨hA, hz⟩ := List.append_inj' hsplit rfl
      obtain rfl := List.singleton_inj.mp hz
      have hall : (D ++ [x]).takeWhile (· ≠ x) = D := by
        rw [List.takeWhile_append_of_pos]
        · simp
        · intro d hd
          have : d ≠ x := fun heq => hx (heq ▸ hd)
          simpa using this
      rw [hall, ← hA]
      exact h.mem y
    · rw [List.concat_eq_append, ← List.cons_append, ← List.append_assoc] at hsplit
      obtain ⟨hacc, -⟩ := List.append_inj' hsplit rfl
      have hz : z ∈ D := (h.mem z).mp (hacc ▸ List.mem_append_right _ (List.mem_cons_self ..))
      rw [takeWhile_append_of_mem hz]
      exact h.before A z B' hacc y

/-- As long as nothing is accepted twice, the keys are accepted in the order of their first
deliveries. -/
lemma firstOrder_accepted (n : ℕ) (D : List κ) (h : (accepted n D).Nodup) :
    FirstOrder D (accepted n D) := by
  induction D using List.reverseRecOn with
  | nil =>
      exact ⟨List.nodup_nil, fun _ => Iff.rfl, fun A x B hsplit => by simp [accepted] at hsplit⟩
  | append_singleton D x ih =>
      rw [accepted_concat] at h ⊢
      unfold accept at h ⊢
      split at h
      · rename_i hmem
        have hD := ih h
        rw [if_pos hmem]
        exact hD.repeated ((hD.mem x).mp (List.mem_of_mem_drop hmem))
      · rename_i hmem
        have hD := ih h.of_append_left
        rw [if_neg hmem]
        refine hD.first (fun hx => ?_)
        exact List.disjoint_of_nodup_append h ((hD.mem x).mpr hx) (List.mem_singleton_self x)

/-! ## When nothing is accepted twice -/

/-- One more delivery: it is a first one, or comes in time. -/
lemma nodup_accepted_concat (h : (accepted n D).Nodup) :
    (accepted n (D ++ [x])).Nodup ↔ (x ∈ D → newSince D x < n) := by
  have hD := firstOrder_accepted n D h
  rw [accepted_concat, accept]
  by_cases hx : x ∈ D
  · rw [← hD.mem_rtake_iff hx]
    split
    · rename_i hmem
      exact ⟨fun _ _ => hmem, fun _ => h⟩
    · rename_i hmem
      refine ⟨fun hnodup => ?_, fun hin => absurd (hin hx) hmem⟩
      have := List.disjoint_of_nodup_append hnodup ((hD.mem x).mpr hx)
      exact absurd (List.mem_singleton_self x) this
  · have hacc : x ∉ accepted n D := fun hmem => hx ((hD.mem x).mp hmem)
    have hout : x ∉ (accepted n D).rtake n := fun hmem => hacc (List.mem_of_mem_drop hmem)
    rw [if_neg hout]
    refine ⟨fun _ hin => absurd hin hx, fun _ => ?_⟩
    rw [← List.concat_eq_append]
    exact h.concat hacc

/-- **Nothing is accepted twice** if and only if every repeated delivery comes while fewer than
`n` other keys have turned up since the key's first delivery. -/
lemma nodup_accepted_iff (n : ℕ) (D : List κ) :
    (accepted n D).Nodup ↔ ∀ D₁ x D₂, D = D₁ ++ x :: D₂ → x ∈ D₁ → newSince D₁ x < n := by
  constructor
  · intro h D₁ x D₂ hD
    have hconcat : D = (D₁ ++ [x]) ++ D₂ := by rw [hD, List.append_assoc]; rfl
    -- what was accepted up to `x` is part of it
    have hnodup : (accepted n (D₁ ++ [x])).Nodup := by
      rw [hconcat, accepted_append] at h
      exact h.sublist (isPrefix_foldl n D₂ _).sublist
    have hbefore : (accepted n D₁).Nodup := by
      rw [accepted_append] at hnodup
      exact hnodup.sublist (isPrefix_foldl n [x] _).sublist
    exact (nodup_accepted_concat hbefore).mp hnodup
  · intro h
    induction D using List.reverseRecOn with
    | nil => exact List.nodup_nil
    | append_singleton D x ih =>
        have hD : (accepted n D).Nodup := by
          refine ih (fun D₁ y D₂ hsplit => h D₁ y (D₂ ++ [x]) ?_)
          rw [hsplit, List.append_assoc, List.cons_append]
        exact (nodup_accepted_concat hD).mpr (h D x [] rfl)

/-- As long as nothing is accepted twice, the window decides as an unbounded memory would. -/
lemma mem_rtake_iff_of_nodup (h : (accept n acc x).Nodup) : x ∈ acc.rtake n ↔ x ∈ acc := by
  refine ⟨List.mem_of_mem_drop, fun hmem => ?_⟩
  by_contra hout
  rw [accept, if_neg hout] at h
  exact List.disjoint_of_nodup_append h hmem (List.mem_singleton_self x)

/-! ## Items with keys -/

section Items

variable {β : Type*} {key : β → κ}

/-- Keep an item if its key is new. -/
def keepNew (key : β → κ) (kept : List β) (x : β) : List β :=
  if key x ∈ kept.map key then kept else kept ++ [x]

/-- The items of a list whose keys have not been there before. -/
def firstDeliveries (key : β → κ) (xs : List β) : List β := xs.foldl (keepNew key) []

lemma map_keepNew {kept : List β} {x : β} (h : (accept n (kept.map key) (key x)).Nodup) :
    (keepNew key kept x).map key = accept n (kept.map key) (key x) := by
  have hiff := mem_rtake_iff_of_nodup h
  rw [keepNew, accept]
  by_cases hmem : key x ∈ kept.map key
  · rw [if_pos hmem, if_pos (hiff.mpr hmem)]
  · rw [if_neg hmem, if_neg (mt hiff.mp hmem), List.map_append]
    rfl

lemma map_foldl_keepNew {xs kept : List β}
    (h : ((xs.map key).foldl (accept n) (kept.map key)).Nodup) :
    (xs.foldl (keepNew key) kept).map key = (xs.map key).foldl (accept n) (kept.map key) := by
  induction xs generalizing kept with
  | nil => rfl
  | cons x xs ih =>
      rw [List.map_cons, List.foldl_cons] at h
      have hfirst := map_keepNew (h.sublist (isPrefix_foldl n _ _).sublist)
      rw [← hfirst] at h
      rw [List.foldl_cons, List.map_cons, List.foldl_cons, ih h, hfirst]

/-- A key is kept exactly if it has been there. -/
lemma mem_map_firstDeliveries {xs : List β} {k : κ} :
    k ∈ (firstDeliveries key xs).map key ↔ k ∈ xs.map key := by
  induction xs using List.reverseRecOn with
  | nil => exact Iff.rfl
  | append_singleton xs x ih =>
      rw [firstDeliveries, List.foldl_concat, List.map_append, List.mem_append, ← ih]
      show k ∈ (keepNew key (firstDeliveries key xs) x).map key ↔ _
      rw [keepNew]
      split
      · rename_i hmem
        refine ⟨Or.inl, fun h => h.elim id (fun hk => ?_)⟩
        rwa [List.mem_singleton.mp hk]
      · rw [List.map_append, List.mem_append]

lemma firstDeliveries_map {γ : Type*} {key' : γ → κ} (g : β → γ) (hkey : ∀ x, key' (g x) = key x)
    (xs : List β) : firstDeliveries key' (xs.map g) = (firstDeliveries key xs).map g := by
  have hkeys : ∀ l : List β, (l.map g).map key' = l.map key := by
    intro l
    rw [List.map_map]
    exact List.map_congr_left (fun x _ => hkey x)
  induction xs using List.reverseRecOn with
  | nil => rfl
  | append_singleton xs x ih =>
      rw [firstDeliveries, List.map_append, List.map_singleton, List.foldl_concat, firstDeliveries,
        List.foldl_concat]
      show keepNew key' (firstDeliveries key' (xs.map g)) (g x) =
        (keepNew key (firstDeliveries key xs) x).map g
      rw [ih, keepNew, keepNew, hkeys, hkey]
      split
      · rfl
      · rw [List.map_append]
        rfl

end Items

end RecentWindow

end ExchangeCore
