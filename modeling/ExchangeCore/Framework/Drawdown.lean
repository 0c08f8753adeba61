import ExchangeCore.Framework.Fallible
import Mathlib.Algebra.GroupWithZero.Nat
import Mathlib.Logic.Function.Basic
import Mathlib.Order.Nat

/-!
# Drawing down what is held

Funds lie in cells.  Part of what a cell has is free and part of it is held, and a cell may be
closed.  A `Drawdown` takes an amount out of what a cell holds and adds one to what it has free.  It
is refused where the cell is closed or holds too little; what is free stays below a capacity, and
where the credit does not fit, the amount has been taken nevertheless.

No drawdown adds to what is held or takes from what is free.  So a sequence of them goes through iff
all of it together fits (`attemptAll_isOk`), in whatever order; and one that stops on the way has
left the funds as they were only if nothing was to be moved until then (`refused_cons`).
-/

namespace ExchangeCore

/-- What is free and what is held in each cell. -/
@[ext] structure Funds (κ : Type) where
  opened : κ → Bool
  free : κ → ℕ
  held : κ → ℕ

/-- In one cell, `draw` is taken out of what is held and `credit` is added to what is free. -/
structure Drawdown (κ : Type) where
  cell : κ
  draw : ℕ
  credit : ℕ

namespace Drawdown

variable {κ : Type} [DecidableEq κ]

/-- The funds after the first half. -/
def take (d : Drawdown κ) (f : Funds κ) : Funds κ :=
  { f with held := Function.update f.held d.cell (f.held d.cell - d.draw) }

/-- The funds after both halves. -/
def post (d : Drawdown κ) (f : Funds κ) : Funds κ :=
  { d.take f with free := Function.update f.free d.cell (f.free d.cell + d.credit) }

/-- One drawdown, where `cap` bounds what is free. -/
def attempt (cap : ℕ) (d : Drawdown κ) : Fallible (Funds κ) Unit Unit := fun f =>
  if f.opened d.cell = false ∨ f.held d.cell < d.draw then (.error (), f)
  else if cap ≤ f.free d.cell + d.credit then (.error (), d.take f)
  else (.ok (), d.post f)

/-- One drawdown after another, up to the first that fails. -/
def attemptAll (cap : ℕ) : List (Drawdown κ) → Fallible (Funds κ) Unit Unit
  | [] => pure ()
  | d :: ds => do
      attempt cap d
      attemptAll cap ds

/-- What a sequence takes out of a cell. -/
def drawn : List (Drawdown κ) → κ → ℕ
  | [], _ => 0
  | d :: ds, c => (if c = d.cell then d.draw else 0) + drawn ds c

/-- What a sequence adds to a cell. -/
def credited : List (Drawdown κ) → κ → ℕ
  | [], _ => 0
  | d :: ds, c => (if c = d.cell then d.credit else 0) + credited ds c

/-- The funds cover a sequence: its cells are open, hold what it takes, and what it adds fits. -/
structure Covers (cap : ℕ) (f : Funds κ) (ds : List (Drawdown κ)) : Prop where
  opened : ∀ d ∈ ds, f.opened d.cell = true
  held : ∀ c, drawn ds c ≤ f.held c
  fits : ∀ c, f.free c + credited ds c < cap

/-! ## One drawdown -/

section Step

variable {cap : ℕ} {d : Drawdown κ} {f : Funds κ}

lemma held_take (c : κ) : (d.take f).held c = f.held c - if c = d.cell then d.draw else 0 := by
  by_cases h : c = d.cell
  · rw [if_pos h, h]
    exact Function.update_self ..
  · rw [if_neg h]
    exact Function.update_of_ne h ..

lemma held_post (c : κ) : (d.post f).held c = f.held c - if c = d.cell then d.draw else 0 :=
  held_take c

lemma free_post (c : κ) : (d.post f).free c = f.free c + if c = d.cell then d.credit else 0 := by
  by_cases h : c = d.cell
  · rw [if_pos h, h]
    exact Function.update_self ..
  · rw [if_neg h]
    exact Function.update_of_ne h ..

lemma attempt_of_refused (h : f.opened d.cell = false ∨ f.held d.cell < d.draw) :
    attempt cap d f = (.error (), f) := if_pos h

lemma attempt_of_overflow (hopen : f.opened d.cell = true) (hheld : d.draw ≤ f.held d.cell)
    (h : cap ≤ f.free d.cell + d.credit) : attempt cap d f = (.error (), d.take f) := by
  rw [attempt, if_neg (by simp [hopen, hheld]), if_pos h]

lemma attempt_of_fits (hopen : f.opened d.cell = true) (hheld : d.draw ≤ f.held d.cell)
    (h : f.free d.cell + d.credit < cap) : attempt cap d f = (.ok (), d.post f) := by
  rw [attempt, if_neg (by simp [hopen, hheld]), if_neg (by omega)]

/-- What is held only gets less, and what is free only gets more. -/
lemma attempt_mono (cap : ℕ) (d : Drawdown κ) (f : Funds κ) (c : κ) :
    (attempt cap d f).2.held c ≤ f.held c ∧ f.free c ≤ (attempt cap d f).2.free c := by
  unfold attempt
  split
  · exact ⟨le_rfl, le_rfl⟩
  split
  · exact ⟨(held_take c).trans_le (Nat.sub_le _ _), le_rfl⟩
  · exact ⟨(held_post c).trans_le (Nat.sub_le _ _),
      (Nat.le_add_right _ _).trans_eq (free_post c).symm⟩

/-- A drawdown of nothing changes nothing. -/
lemma post_of_null (hdraw : d.draw = 0) (hcredit : d.credit = 0) : d.post f = f := by
  refine Funds.ext rfl (funext fun c => ?_) (funext fun c => ?_)
  · rw [free_post, hcredit, ite_self, Nat.add_zero]
  · rw [held_post, hdraw, ite_self, Nat.sub_zero]

end Step

/-! ## Sequences -/

section Sequence

variable {cap : ℕ} {d : Drawdown κ} {ds : List (Drawdown κ)} {f : Funds κ}

lemma attemptAll_cons_of_ok {f' : Funds κ} (h : attempt cap d f = (.ok (), f')) :
    attemptAll cap (d :: ds) f = attemptAll cap ds f' := Fallible.bind_of_ok h

lemma attemptAll_cons_of_error {f' : Funds κ} (h : attempt cap d f = (.error (), f')) :
    attemptAll cap (d :: ds) f = (.error (), f') := Fallible.bind_of_error h

lemma attemptAll_append (ds ds' : List (Drawdown κ)) :
    attemptAll cap (ds ++ ds') = attemptAll cap ds >>= fun _ => attemptAll cap ds' := by
  induction ds with
  | nil => rw [List.nil_append, attemptAll, pure_bind]
  | cons d ds ih => simp only [List.cons_append, attemptAll, ih, bind_assoc]

lemma drawn_append (ds ds' : List (Drawdown κ)) (c : κ) :
    drawn (ds ++ ds') c = drawn ds c + drawn ds' c := by
  induction ds with
  | nil => exact (Nat.zero_add _).symm
  | cons d ds ih => rw [List.cons_append, drawn, drawn, ih, Nat.add_assoc]

lemma credited_append (ds ds' : List (Drawdown κ)) (c : κ) :
    credited (ds ++ ds') c = credited ds c + credited ds' c := by
  induction ds with
  | nil => exact (Nat.zero_add _).symm
  | cons d ds ih => rw [List.cons_append, credited, credited, ih, Nat.add_assoc]

lemma attemptAll_mono (cap : ℕ) (ds : List (Drawdown κ)) (f : Funds κ) (c : κ) :
    (attemptAll cap ds f).2.held c ≤ f.held c ∧ f.free c ≤ (attemptAll cap ds f).2.free c := by
  induction ds generalizing f with
  | nil => exact ⟨le_rfl, le_rfl⟩
  | cons d ds ih =>
      obtain ⟨hheld, hfree⟩ := attempt_mono cap d f c
      rcases h : attempt cap d f with ⟨_ | _, f'⟩
      · rw [attemptAll_cons_of_error h]
        rw [h] at hheld hfree
        exact ⟨hheld, hfree⟩
      · rw [attemptAll_cons_of_ok h]
        rw [h] at hheld hfree
        exact ⟨(ih f').1.trans hheld, hfree.trans (ih f').2⟩

lemma covers_cons (hopen : f.opened d.cell = true) (hheld : d.draw ≤ f.held d.cell) :
    Covers cap f (d :: ds) ↔ Covers cap (d.post f) ds := by
  have hdraw : ∀ c, (if c = d.cell then d.draw else 0) ≤ f.held c := by
    intro c
    split
    · rename_i h
      rwa [h]
    · exact Nat.zero_le _
  constructor
  · intro h
    refine ⟨fun e he => h.opened e (List.mem_cons_of_mem d he), fun c => ?_, fun c => ?_⟩
    · have := h.held c
      rw [drawn] at this
      rw [held_post]
      omega
    · have := h.fits c
      rw [credited] at this
      rw [free_post]
      omega
  · intro h
    refine ⟨List.forall_mem_cons.mpr ⟨hopen, h.opened⟩, fun c => ?_, fun c => ?_⟩
    · have := h.held c
      have := hdraw c
      rw [held_post] at *
      rw [drawn]
      omega
    · have := h.fits c
      rw [free_post] at this
      rw [credited]
      omega

/-- A drawdown that a sequence starts with and that the funds cover goes through. -/
lemma Covers.attempt (h : Covers cap f (d :: ds)) : attempt cap d f = (.ok (), d.post f) := by
  have hheld := h.held d.cell
  have hfits := h.fits d.cell
  rw [drawn, if_pos rfl] at hheld
  rw [credited, if_pos rfl] at hfits
  exact attempt_of_fits (h.opened d List.mem_cons_self) (by omega) (by omega)

/-- **A sequence goes through iff the funds cover all of it.** -/
theorem attemptAll_isOk (hcap : ∀ c, f.free c < cap) :
    (attemptAll cap ds f).1.isOk = true ↔ Covers cap f ds := by
  induction ds generalizing f with
  | nil =>
      refine iff_of_true rfl ⟨fun d hd => absurd hd (List.not_mem_nil), fun c => Nat.zero_le _, ?_⟩
      exact hcap
  | cons d ds ih =>
      by_cases hrefused : f.opened d.cell = false ∨ f.held d.cell < d.draw
      · rw [attemptAll_cons_of_error (attempt_of_refused hrefused)]
        refine iff_of_false (by simp) (fun h => ?_)
        have hok := h.attempt
        rw [attempt_of_refused hrefused] at hok
        exact absurd (congrArg Prod.fst hok) (by simp)
      obtain ⟨hopen, hheld⟩ := not_or.mp hrefused
      rw [Bool.not_eq_false] at hopen
      rw [not_lt] at hheld
      by_cases hfits : f.free d.cell + d.credit < cap
      · rw [attemptAll_cons_of_ok (attempt_of_fits hopen hheld hfits), covers_cons hopen hheld]
        refine ih (fun c => ?_)
        rw [free_post]
        split
        · rename_i h
          rwa [h]
        · exact hcap c
      · have hover := attempt_of_overflow hopen hheld (not_lt.mp hfits)
        rw [attemptAll_cons_of_error hover]
        refine iff_of_false (by simp) (fun h => ?_)
        have hok := h.attempt
        rw [hover] at hok
        exact absurd (congrArg Prod.fst hok) (by simp)

/-- What a sequence that goes through leaves. -/
lemma attemptAll_effect (h : Covers cap f ds) (c : κ) :
    (attemptAll cap ds f).2.free c = f.free c + credited ds c ∧
      (attemptAll cap ds f).2.held c + drawn ds c = f.held c := by
  induction ds generalizing f with
  | nil => exact ⟨rfl, rfl⟩
  | cons d ds ih =>
      have hopen := h.opened d List.mem_cons_self
      have hheld := h.held d.cell
      rw [drawn, if_pos rfl] at hheld
      obtain ⟨hfree', hheld'⟩ := ih ((covers_cons hopen (by omega)).mp h)
      have htotal := h.held c
      rw [attemptAll_cons_of_ok h.attempt, credited, drawn, hfree', free_post, Nat.add_assoc]
      rw [held_post] at hheld'
      rw [drawn] at htotal
      exact ⟨rfl, by omega⟩

/-- A sequence fails, and leaves the funds as they were. -/
def Refused (cap : ℕ) (ds : List (Drawdown κ)) (f : Funds κ) : Prop :=
  (attemptAll cap ds f).1.isOk = false ∧ (attemptAll cap ds f).2 = f

lemma not_refused_nil : ¬Refused cap [] f := fun h => absurd h.1 (by simp [attemptAll, pure])

/-- After a drawdown that has moved something, nothing that follows brings the funds back. -/
lemma attemptAll_post_ne (hheld : d.draw ≤ f.held d.cell) (hmoved : ¬(d.draw = 0 ∧ d.credit = 0)) :
    (attemptAll cap ds (d.post f)).2 ≠ f := by
  intro heq
  obtain ⟨hless, hmore⟩ := attemptAll_mono cap ds (d.post f) d.cell
  rw [heq, held_post, if_pos rfl] at hless
  rw [heq, free_post, if_pos rfl] at hmore
  omega

/-- **When a sequence fails without a trace**: it is refused at once, or its first drawdown moves
nothing and the rest fails so; a credit that does not fit is no half-way stop where nothing is
drawn. -/
theorem refused_cons :
    Refused cap (d :: ds) f ↔ f.opened d.cell = false ∨ f.held d.cell < d.draw ∨ d.draw = 0 ∧
      (cap ≤ f.free d.cell + d.credit ∨ d.credit = 0 ∧ Refused cap ds f) := by
  unfold Refused
  by_cases hrefused : f.opened d.cell = false ∨ f.held d.cell < d.draw
  · rw [attemptAll_cons_of_error (attempt_of_refused hrefused)]
    exact iff_of_true ⟨rfl, rfl⟩ (hrefused.imp_right .inl)
  obtain ⟨hopen, hheld⟩ := not_or.mp hrefused
  rw [Bool.not_eq_false] at hopen
  simp only [hopen, hheld, Bool.true_eq_false, false_or]
  rw [not_lt] at hheld
  by_cases hfits : f.free d.cell + d.credit < cap
  · rw [attemptAll_cons_of_ok (attempt_of_fits hopen hheld hfits)]
    simp only [not_le.mpr hfits, false_or]
    by_cases hnull : d.draw = 0 ∧ d.credit = 0
    · rw [post_of_null hnull.1 hnull.2]
      simp only [hnull, true_and]
    · refine iff_of_false (fun h => attemptAll_post_ne hheld hnull h.2) ?_
      rintro ⟨hdraw, hcredit, -⟩
      exact hnull ⟨hdraw, hcredit⟩
  · rw [attemptAll_cons_of_error (attempt_of_overflow hopen hheld (not_lt.mp hfits))]
    simp only [isOk_error, true_and, not_lt.mp hfits, true_or, and_true]
    constructor
    · intro h
      have hsame := held_take (d := d) (f := f) d.cell
      rw [h, if_pos rfl] at hsame
      omega
    · intro h
      refine Funds.ext rfl rfl (funext fun c => ?_)
      rw [held_take, h, ite_self, Nat.sub_zero]

lemma attempt_opened (cap : ℕ) (d : Drawdown κ) (f : Funds κ) :
    (attempt cap d f).2.opened = f.opened := by
  unfold attempt
  split
  · rfl
  split <;> rfl

/-- Cells are neither opened nor closed. -/
lemma attemptAll_opened (cap : ℕ) (ds : List (Drawdown κ)) (f : Funds κ) :
    (attemptAll cap ds f).2.opened = f.opened := by
  induction ds generalizing f with
  | nil => rfl
  | cons d ds ih =>
      have hopened := attempt_opened cap d f
      rcases h : attempt cap d f with ⟨_ | _, f'⟩
      · rw [attemptAll_cons_of_error h]
        rwa [h] at hopened
      · rw [attemptAll_cons_of_ok h, ih]
        rwa [h] at hopened

end Sequence

end Drawdown

end ExchangeCore
