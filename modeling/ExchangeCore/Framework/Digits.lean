import Mathlib.Data.Nat.Digits.Defs
import Mathlib.Data.List.Induction
import Mathlib.Data.List.Lex

/-!
# Digits of fixed width

A natural number in a base `b`, written with a fixed number of digits, the most significant first.
What does not fit is lost on the left (`value_digits`); what is read is written back as it was
(`digits_value`).  Of two numbers that fit, the smaller one is the first in the lexicographic order
of the digits (`digits_lt_digits`).
-/

namespace ExchangeCore

namespace Digits

variable {b : ℕ}

/-- The number that digits stand for. -/
def value (ds : List (Fin b)) : ℕ := Nat.ofDigits b (ds.reverse.map Fin.val)

lemma value_nil : value ([] : List (Fin b)) = 0 := rfl

lemma value_append (ds es : List (Fin b)) :
    value (ds ++ es) = value ds * b ^ es.length + value es := by
  rw [value, List.reverse_append, List.map_append, Nat.ofDigits_append, List.length_map,
    List.length_reverse, value, value]
  ring

lemma value_singleton (d : Fin b) : value [d] = d := Nat.ofDigits_singleton

lemma value_cons (d : Fin b) (ds : List (Fin b)) :
    value (d :: ds) = d * b ^ ds.length + value ds := by
  rw [← List.singleton_append, value_append, value_singleton]

lemma value_lt (ds : List (Fin b)) : value ds < b ^ ds.length := by
  induction ds with
  | nil => exact Nat.one_pos
  | cons d ds ih =>
      rw [value_cons, List.length_cons, pow_succ']
      have hmul : (d + 1) * b ^ ds.length ≤ b * b ^ ds.length := Nat.mul_le_mul_right _ d.isLt
      rw [add_mul, one_mul] at hmul
      omega

variable [NeZero b]

/-- The last `w` digits of a number. -/
def digits : ℕ → ℕ → List (Fin b)
  | 0, _ => []
  | w + 1, n => digits w (n / b) ++ [Fin.ofNat b n]

lemma length_digits (w n : ℕ) : (digits w n : List (Fin b)).length = w := by
  induction w generalizing n with
  | zero => rfl
  | succ w ih => rw [digits, List.length_append, ih, List.length_singleton]

lemma value_digits (w n : ℕ) : value (digits w n : List (Fin b)) = n % b ^ w := by
  induction w generalizing n with
  | zero => rw [digits, value_nil, pow_zero, Nat.mod_one]
  | succ w ih =>
      rw [digits, value_append, ih, value_singleton, List.length_singleton, pow_one, pow_succ',
        Nat.mod_mul, Fin.val_ofNat]
      ring

lemma digits_value (ds : List (Fin b)) : digits ds.length (value ds) = ds := by
  induction ds using List.reverseRecOn with
  | nil => rfl
  | append_singleton ds d ih =>
      have hb : 0 < b := Nat.pos_of_neZero b
      rw [List.length_append, List.length_singleton, digits, value_append, value_singleton,
        List.length_singleton, pow_one]
      have hdiv : (value ds * b + d) / b = value ds := by
        rw [mul_comm, Nat.mul_add_div hb, Nat.div_eq_of_lt d.isLt, Nat.add_zero]
      have hmod : Fin.ofNat b (value ds * b + d) = d := by
        apply Fin.ext
        rw [Fin.val_ofNat, mul_comm, Nat.mul_add_mod, Nat.mod_eq_of_lt d.isLt]
      rw [hdiv, ih, hmod]

/-- Only what fits is read. -/
lemma digits_mod (w n : ℕ) : (digits w (n % b ^ w) : List (Fin b)) = digits w n := by
  have hread := digits_value (digits w n : List (Fin b))
  rwa [length_digits, value_digits] at hread

/-- A number written in two parts. -/
lemma digits_add (v w n : ℕ) :
    (digits (v + w) n : List (Fin b)) = digits v (n / b ^ w) ++ digits w n := by
  induction w generalizing n with
  | zero => rw [Nat.add_zero, pow_zero, Nat.div_one, digits, List.append_nil]
  | succ w ih =>
      rw [Nat.add_succ, digits, ih, digits, ← List.append_assoc, Nat.div_div_eq_div_mul, pow_succ']

/-- Digits of the same length stand for the same number only if they are the same. -/
lemma eq_of_value_eq {ds es : List (Fin b)} (hlength : ds.length = es.length)
    (h : value ds = value es) : ds = es := by
  rw [← digits_value ds, ← digits_value es, hlength, h]

/-! ## The lexicographic order -/

/-- What follows a difference makes none. -/
lemma append_lt_append {α : Type*} [LT α] {l l' : List α} (hlength : l.length = l'.length)
    (h : l < l') (t t' : List α) : l ++ t < l' ++ t' := by
  induction h with
  | nil => exact absurd hlength (by simp)
  | cons _ ih => exact .cons (ih (Nat.succ.inj hlength))
  | rel hlt => exact .rel hlt

lemma digits_lt_digits {w m n : ℕ} (hlt : m < n) (hn : n < b ^ w) :
    (digits w m : List (Fin b)) < digits w n := by
  induction w generalizing m n with
  | zero => exact absurd (hlt.trans_le (Nat.lt_one_iff.mp hn).le) (Nat.not_lt_zero m)
  | succ w ih =>
      have hb : 0 < b := Nat.pos_of_neZero b
      have hfits : n / b < b ^ w := Nat.div_lt_of_lt_mul (pow_succ' b w ▸ hn)
      rw [digits, digits]
      rcases (Nat.div_le_div_right hlt.le : m / b ≤ n / b).lt_or_eq with hdiv | hdiv
      · exact append_lt_append (by rw [length_digits, length_digits]) (ih hdiv hfits) _ _
      · -- The digits before the last are the same.
        have hmod : m % b < n % b := by
          have hm := Nat.div_add_mod m b
          have hn := Nat.div_add_mod n b
          rw [hdiv] at hm
          omega
        rw [hdiv]
        refine List.Lex.append_left _ (.rel ?_) _
        rw [Fin.lt_def, Fin.val_ofNat, Fin.val_ofNat]
        exact hmod

end Digits

end ExchangeCore
