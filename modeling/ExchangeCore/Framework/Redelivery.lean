import Mathlib.Order.Lattice
import Mathlib.Order.Monotone.Basic
import ExchangeCore.Framework.Filter
import ExchangeCore.Framework.RecentWindow

/-!
# Deliveries at least once

A stream is delivered in order and without gaps, but the delivery may go back at any moment and
repeat what has been delivered (`DeliveredAgain`).  A consumer that keeps its position in the stream
(`KeepsPosition`) lets every item through once: however often it goes back, what is let through of a
delivery is the part of the stream between the position it starts from and the furthest item
delivered (`accepted_of_deliveredAgain`).  A consumer that remembers the keys of what it has taken
does so too: what it takes is what is new in the stream (`firstDeliveries_filterMap`).  If a
delivery is itself the stream of another, the two are one delivery (`Reaches.deliveredAgain`).
-/

namespace ExchangeCore

/-- After the first `m` items of a stream have been delivered, `xs` are, and then the first `m'`
have been. -/
inductive DeliveredAgain {ι : Type*} (stream : List ι) : ℕ → List ι → ℕ → Prop
  | nil (m : ℕ) : DeliveredAgain stream m [] m
  | cons {m i m' : ℕ} {x : ι} {xs : List ι} (hi : i ≤ m) (hx : stream[i]? = some x)
      (rest : DeliveredAgain stream (max m (i + 1)) xs m') : DeliveredAgain stream m (x :: xs) m'

namespace DeliveredAgain

variable {ι : Type*} {stream xs : List ι} {m m' : ℕ}

/-- What one delivery adds to the items delivered. -/
lemma getElem?_max_iff {i : ℕ} (hi : i ≤ m) (x : ι) :
    (∃ j < max m (i + 1), stream[j]? = some x) ↔
      (∃ j < m, stream[j]? = some x) ∨ stream[i]? = some x := by
  constructor
  · rintro ⟨j, hj, hx⟩
    rcases lt_max_iff.mp hj with hlt | hle
    · exact Or.inl ⟨j, hlt, hx⟩
    rcases Nat.lt_succ_iff_lt_or_eq.mp hle with hlt | rfl
    · exact Or.inl ⟨j, hlt.trans_le hi, hx⟩
    · exact Or.inr hx
  · rintro (⟨j, hj, hx⟩ | hx)
    · exact ⟨j, lt_max_of_lt_left hj, hx⟩
    · exact ⟨i, lt_max_of_lt_right i.lt_succ_self, hx⟩

lemma getElem?_iff (h : DeliveredAgain stream m xs m') (x : ι) :
    (∃ i < m', stream[i]? = some x) ↔ (∃ i < m, stream[i]? = some x) ∨ x ∈ xs := by
  induction h with
  | nil m => simp
  | @cons m i m' y xs hi hy _ ih =>
      rw [ih, getElem?_max_iff hi, hy, List.mem_cons, or_assoc, Option.some.injEq, eq_comm]

lemma le (h : DeliveredAgain stream m xs m') : m ≤ m' := by
  induction h with
  | nil m => exact le_rfl
  | cons _ _ _ ih => exact (le_max_left _ _).trans ih

/-- What follows in the stream. -/
lemma next (before items : List ι) :
    DeliveredAgain (before ++ items) before.length items (before ++ items).length := by
  induction items generalizing before with
  | nil =>
      rw [List.append_nil]
      exact .nil _
  | cons x items ih =>
      have htail := ih (before ++ [x])
      have hlength : (before ++ [x]).length = before.length + 1 := List.length_append
      rw [List.append_assoc, List.singleton_append, hlength] at htail
      refine .cons le_rfl (by rw [List.getElem?_append_right le_rfl, Nat.sub_self]; rfl) ?_
      rw [max_eq_right (Nat.le_succ _)]
      exact htail

lemma once (stream : List ι) : DeliveredAgain stream 0 stream stream.length := next [] stream

/-- What has been delivered may be repeated. -/
lemma again (h : ∀ x ∈ xs, ∃ i < m, stream[i]? = some x) : DeliveredAgain stream m xs m := by
  induction xs with
  | nil => exact .nil m
  | cons x xs ih =>
      rw [List.forall_mem_cons] at h
      obtain ⟨⟨i, hi, hx⟩, hrest⟩ := h
      refine .cons hi.le hx ?_
      rw [max_eq_left hi]
      exact ih hrest

lemma append {ys : List ι} {m'' : ℕ} (h : DeliveredAgain stream m xs m')
    (h' : DeliveredAgain stream m' ys m'') : DeliveredAgain stream m (xs ++ ys) m'' := by
  induction h with
  | nil m => exact h'
  | cons hi hx _ ih => exact .cons hi hx (ih h')

lemma extend (h : DeliveredAgain stream m xs m') (rest : List ι) :
    DeliveredAgain (stream ++ rest) m xs m' := by
  induction h with
  | nil m => exact .nil m
  | cons hi hx _ ih =>
      refine .cons hi ?_ ih
      rw [List.getElem?_append_left (List.getElem?_eq_some_iff.mp hx).1]
      exact hx

open RecentWindow in
lemma firstDeliveries_filterMap {α κ : Type*} [DecidableEq κ] {f : ι → Option α} {key : α → κ}
    (h : DeliveredAgain stream 0 xs m') :
    firstDeliveries key (xs.filterMap f) = firstDeliveries key ((stream.take m').filterMap f) := by
  have hfold : ∀ {m m' : ℕ} {xs : List ι}, DeliveredAgain stream m xs m' →
      (xs.filterMap f).foldl (keepNew key) (firstDeliveries key ((stream.take m).filterMap f)) =
        firstDeliveries key ((stream.take m').filterMap f) := by
    intro m m' xs h
    induction h with
    | nil m => rfl
    | @cons m i m' x xs hi hx _ ih =>
        obtain ⟨hlt, rfl⟩ := List.getElem?_eq_some_iff.mp hx
        rw [← ih, List.filterMap_cons]
        rcases Nat.lt_or_ge i m with hbefore | hat
        · rw [max_eq_left hbefore]
          rcases hfx : f stream[i] with _ | a
          · rfl
          · -- the key has been kept already
            have hmem : stream[i] ∈ stream.take m :=
              List.mem_take_iff_getElem.mpr ⟨i, by omega, rfl⟩
            rw [List.foldl_cons, keepNew, if_pos]
            rw [mem_map_firstDeliveries]
            exact List.mem_map_of_mem (List.mem_filterMap.mpr ⟨_, hmem, hfx⟩)
        · obtain rfl : i = m := by omega
          rw [max_eq_right (Nat.le_succ i), List.take_add_one, hx, List.filterMap_append]
          rcases hfx : f stream[i] with _ | a
          · simp [hfx]
          · rw [List.foldl_cons, firstDeliveries, firstDeliveries, List.foldl_append]
            simp [hfx]
  exact hfold h

end DeliveredAgain

/-! ## Deliveries of a delivery -/

/-- After the first `n` of the `items` delivered of a stream, `reach n` of the stream have been. -/
structure Reaches {ι : Type*} (stream items : List ι) (reach : ℕ → ℕ) : Prop where
  mono : Monotone reach
  next : ∀ n x, items[n]? = some x →
    ∃ i ≤ reach n, stream[i]? = some x ∧ reach (n + 1) = max (reach n) (i + 1)
  beyond : ∀ n, items[n]? = none → reach (n + 1) = reach n

namespace Reaches

variable {ι : Type*} {stream items xs : List ι} {reach : ℕ → ℕ} {m m' : ℕ}

lemma exists_of_deliveredAgain (h : DeliveredAgain stream m items m') :
    ∃ reach, Reaches stream items reach ∧ reach 0 = m := by
  induction h with
  | nil m => exact ⟨fun _ => m, ⟨monotone_const, fun n x hx => by simp at hx, fun _ _ => rfl⟩, rfl⟩
  | @cons m i m' x items hi hx _ ih =>
      obtain ⟨reach, hreach, hzero⟩ := ih
      refine ⟨fun n => n.casesOn m reach, ⟨?_, ?_, ?_⟩, rfl⟩
      · apply monotone_nat_of_le_succ
        intro n
        cases n with
        | zero => exact (le_max_left m (i + 1)).trans hzero.ge
        | succ n => exact hreach.mono n.le_succ
      · intro n y hy
        cases n with
        | zero =>
            obtain rfl := Option.some.inj hy
            exact ⟨i, hi, hx, hzero⟩
        | succ n => exact hreach.next n y hy
      · intro n hn
        cases n with
        | zero => exact absurd hn (by simp)
        | succ n => exact hreach.beyond n hn

/-- **Redeliveries compose**: what is delivered of a delivery is delivered of the stream. -/
lemma deliveredAgain (h : Reaches stream items reach) (hxs : DeliveredAgain items m xs m') :
    DeliveredAgain stream (reach m) xs (reach m') := by
  induction hxs with
  | nil m => exact .nil _
  | @cons m n m' x xs hn hx _ ih =>
      obtain ⟨i, hi, hix, hnext⟩ := h.next n x hx
      refine .cons (hi.trans (h.mono hn)) hix ?_
      rcases Nat.lt_or_ge n m with hbefore | hat
      · -- it has been delivered already, and so has its place in the stream
        have hreached : i + 1 ≤ reach m :=
          (le_max_right _ _).trans (hnext.ge.trans (h.mono hbefore))
        rw [max_eq_left hbefore] at ih
        rwa [max_eq_left hreached]
      · obtain rfl : n = m := le_antisymm hn hat
        rwa [max_eq_right (Nat.le_succ n), hnext] at ih

/-- The items delivered are those of the stream that have been reached. -/
lemma getElem?_iff (h : Reaches stream items reach) (hzero : reach 0 = 0) (n : ℕ) (x : ι) :
    (∃ i < reach n, stream[i]? = some x) ↔ ∃ i < n, items[i]? = some x := by
  induction n with
  | zero => simp [hzero]
  | succ n ih =>
      have hlast := @DeliveredAgain.getElem?_max_iff _ items _ _ (le_refl n) x
      rw [max_eq_right (Nat.le_succ n)] at hlast
      rw [hlast, ← ih]
      rcases hget : items[n]? with _ | y
      · rw [h.beyond n hget]
        simp
      · obtain ⟨i, hi, hy, hnext⟩ := h.next n y hget
        rw [hnext, DeliveredAgain.getElem?_max_iff hi, hy]

lemma foldl_max (h : Reaches stream items reach) (counts : List ℕ) (n : ℕ) :
    (counts.map reach).foldl max (reach n) = reach (counts.foldl max n) := by
  induction counts generalizing n with
  | nil => rfl
  | cons count counts ih =>
      rw [List.map_cons, List.foldl_cons, List.foldl_cons, ← h.mono.map_max, ih]

end Reaches

namespace Machine

variable {σ ι : Type*} {M : Machine σ ι (Option ι)}

/-- `position k` is the state behind the first `k` items of the stream: the next item is let through
and those before are not. -/
structure KeepsPosition (M : Machine σ ι (Option ι)) (stream : List ι) (position : ℕ → σ) :
    Prop where
  next : ∀ k x, stream[k]? = some x → M.step (position k) x = (position (k + 1), some x)
  again : ∀ k i x, i < k → k ≤ stream.length → stream[i]? = some x →
    M.step (position k) x = (position k, none)

variable {stream ds : List ι} {position : ℕ → σ}

/-- **Every item is let through once.** -/
lemma accepted_of_deliveredAgain (h : M.KeepsPosition stream position) {m m' : ℕ}
    (hds : DeliveredAgain stream m ds m') {k : ℕ} (hk : m ≤ k) (hlen : k ≤ stream.length) :
    M.run (position k) ds = position (max k m') ∧
      M.accepted (position k) ds = (stream.take (max k m')).drop k := by
  induction hds generalizing k with
  | nil m =>
      rw [max_eq_left hk, List.drop_eq_nil_of_le (by rw [List.length_take]; omega)]
      exact ⟨rfl, rfl⟩
  | @cons m i m' x xs hi hx rest ih =>
      have hlt : i < stream.length := (List.getElem?_eq_some_iff.mp hx).1
      rcases Nat.lt_or_ge i k with hbefore | hat
      · have hstep := h.again k i x hbefore hlen hx
        have hrest := ih (k := k) (max_le hk hbefore) hlen
        refine ⟨by rw [run_cons, hstep]; exact hrest.1, ?_⟩
        rw [accepted_cons_none (by rw [hstep]), hstep]
        exact hrest.2
      · obtain rfl : i = k := by omega
        have hstep := h.next i x hx
        have hrest := ih (k := i + 1) (by omega) hlt
        have hfar : i + 1 ≤ m' := (le_max_right _ _).trans rest.le
        rw [max_eq_right hfar] at hrest
        rw [max_eq_right (by omega : i ≤ m')]
        refine ⟨by rw [run_cons, hstep]; exact hrest.1, ?_⟩
        rw [accepted_cons_some (by rw [hstep]), hstep, hrest.2]
        have htaken : i < (stream.take m').length := by
          rw [List.length_take]
          omega
        have hget : (stream.take m')[i] = x := by
          rw [List.getElem_take]
          exact (List.getElem?_eq_some_iff.mp hx).2
        rw [← hget, ← List.drop_eq_getElem_cons]

end Machine

end ExchangeCore
