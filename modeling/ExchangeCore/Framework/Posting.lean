import Mathlib.Algebra.GroupWithZero.Nat
import Mathlib.Algebra.Notation.Pi.Defs
import Mathlib.Tactic.Common

/-!
# Postings

An amount booked to one account: `posting u₀ a₀ n` is `n` at user `u₀` and asset `a₀` and nothing
anywhere else, and `assetPosting a₀ n` is what it adds up to over all users, asset by asset.
Statements about every account at once are equations between sums of postings, checked at one
account by deciding whether each posting is about it.  `Posts` says what postings turn one sheet
of totals into another; consecutive ones add up (`Posts.trans`).
-/

namespace ExchangeCore

variable {U A : Type*} [DecidableEq U] [DecidableEq A]

/-- `n` at the account of user `u₀` in asset `a₀`, and nothing anywhere else. -/
def posting (u₀ : U) (a₀ : A) (n : ℕ) (u : U) (a : A) : ℕ :=
  if u = u₀ ∧ a = a₀ then n else 0

@[simp] lemma posting_self (u : U) (a : A) (n : ℕ) : posting u a n u a = n :=
  if_pos ⟨rfl, rfl⟩

@[simp] lemma posting_zero (u₀ : U) (a₀ : A) : posting u₀ a₀ 0 = 0 := by
  funext u a
  simp [posting]

lemma posting_add (u₀ : U) (a₀ : A) (m n : ℕ) (u : U) (a : A) :
    posting u₀ a₀ (m + n) u a = posting u₀ a₀ m u a + posting u₀ a₀ n u a := by
  unfold posting
  split <;> rfl

/-- `n` of asset `a₀`, and nothing of any other. -/
def assetPosting (a₀ : A) (n : ℕ) (a : A) : ℕ := if a = a₀ then n else 0

@[simp] lemma assetPosting_self (a : A) (n : ℕ) : assetPosting a n a = n := if_pos rfl

@[simp] lemma assetPosting_zero (a₀ : A) : assetPosting a₀ 0 = 0 := by
  funext a
  simp [assetPosting]

/-- Posting `out` out of and `inn` into the sheet `f` gives the sheet `f'`. -/
def Posts (f f' out inn : A → ℕ) : Prop := ∀ a, f' a + out a = f a + inn a

namespace Posts

variable {f f' f'' out inn out' inn' : A → ℕ}

omit [DecidableEq A] in
lemma refl (f : A → ℕ) : Posts f f 0 0 := fun _ => rfl

omit [DecidableEq A] in
lemma trans (h : Posts f f' out inn) (h' : Posts f' f'' out' inn') :
    Posts f f'' (out + out') (inn + inn') := by
  intro a
  have e := h a
  have e' := h' a
  simp only [Pi.add_apply]
  omega

end Posts

end ExchangeCore
