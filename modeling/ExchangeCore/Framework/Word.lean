import Mathlib.Algebra.GroupWithZero.Nat
import Mathlib.Algebra.Ring.Int.Defs
import Mathlib.Order.Defs.LinearOrder
import Mathlib.Order.Lattice
import Mathlib.Tactic.Common

/-!
# Machine words

The fixed-width integers of the programs modelled here are Lean's own `UInt64` and `Int64`,
whose arithmetic wraps exactly as a release build's does.  This file supplies what the proofs
need on top of them: `UInt64` as a linear order, the natural-number readings of the operations
that do not overflow, and the range in which the cast to `Int64` is exact.

Everything is stated through `UInt64.toNat`, the one normal form all arithmetic side conditions
are brought to before `omega` closes them.
-/

namespace ExchangeCore

/-! ## The order on words -/

instance linearOrderUInt64 : LinearOrder UInt64 where
  le_refl a := UInt64.le_refl a
  le_trans _ _ _ h₁ h₂ := UInt64.le_trans h₁ h₂
  lt_iff_le_not_ge a b := by
    rw [UInt64.lt_iff_toNat_lt, UInt64.le_iff_toNat_le, UInt64.le_iff_toNat_le]
    omega
  le_antisymm _ _ h₁ h₂ := UInt64.le_antisymm h₁ h₂
  le_total a b := UInt64.le_total a b
  toDecidableLE := inferInstance
  toDecidableEq := inferInstance
  toDecidableLT := inferInstance

namespace Word

/-! ## Natural-number readings -/

lemma pos_iff (a : UInt64) : 0 < a ↔ 0 < a.toNat := by
  rw [UInt64.lt_iff_toNat_lt]
  rfl

lemma toNat_mul_of_lt {a b : UInt64} (h : a.toNat * b.toNat < 2 ^ 64) :
    (a * b).toNat = a.toNat * b.toNat := by
  rw [UInt64.toNat_mul, Nat.mod_eq_of_lt h]

lemma toNat_add_of_lt {a b : UInt64} (h : a.toNat + b.toNat < 2 ^ 64) :
    (a + b).toNat = a.toNat + b.toNat := by
  rw [UInt64.toNat_add, Nat.mod_eq_of_lt h]

/-- A difference that does not underflow. -/
lemma toNat_sub_add {a b : UInt64} (h : b ≤ a) : (a - b).toNat + b.toNat = a.toNat := by
  rw [UInt64.toNat_sub_of_le _ _ h, Nat.sub_add_cancel (UInt64.le_iff_toNat_le.mp h)]

lemma toNat_sub_lt {a b : UInt64} (h : b ≤ a) (hpos : 0 < b.toNat) : (a - b).toNat < a.toNat := by
  have hsum := toNat_sub_add h
  omega

/-- A sum that does not overflow, as an integer. -/
lemma cast_toNat_add {a b : UInt64} (h : a.toNat + b.toNat < 2 ^ 64) :
    ((a + b).toNat : ℤ) = a.toNat + b.toNat := by
  rw [toNat_add_of_lt h, Nat.cast_add]

lemma cast_toNat_sub {a b : UInt64} (h : b ≤ a) : ((a - b).toNat : ℤ) = a.toNat + -b.toNat := by
  have hsum := toNat_sub_add h
  omega

lemma toNat_ofNat_of_lt {n : ℕ} (h : n < 2 ^ 64) : (UInt64.ofNat n).toNat = n := by
  rw [UInt64.toNat_ofNat', Nat.mod_eq_of_lt h]

lemma toNat_shiftLeft_eq (w k : UInt64) (n : ℕ) (hk : k.toNat = n) (hn : n < 64) :
    (w <<< k).toNat = 2 ^ n * w.toNat % 2 ^ 64 := by
  rw [UInt64.toNat_shiftLeft, hk, Nat.mod_eq_of_lt hn, Nat.shiftLeft_eq, mul_comm]

lemma toNat_shiftRight_eq (w k : UInt64) (n : ℕ) (hk : k.toNat = n) (hn : n < 64) :
    (w >>> k).toNat = w.toNat / 2 ^ n := by
  rw [UInt64.toNat_shiftRight, hk, Nat.mod_eq_of_lt hn, Nat.shiftRight_eq_div_pow]

/-- The lower bits of a word. -/
lemma toNat_and_mask (w mask : UInt64) (n : ℕ) (hmask : mask.toNat = 2 ^ n - 1) :
    (w &&& mask).toNat = w.toNat % 2 ^ n := by
  rw [UInt64.toNat_and, hmask, Nat.and_two_pow_sub_one_eq_mod]

/-- The number after `n`, however large. -/
lemma add_one_eq_ofNat {a : UInt64} {n : ℕ} (h : a.toNat = n) : a + 1 = UInt64.ofNat (n + 1) := by
  rw [← h, UInt64.ofNat_add, UInt64.ofNat_toNat]
  rfl

lemma toNat_min (a b : UInt64) : (min a b).toNat = min a.toNat b.toNat := by
  rcases le_total a b with h | h
  · rw [min_eq_left h, min_eq_left (UInt64.le_iff_toNat_le.mp h)]
  · rw [min_eq_right h, min_eq_right (UInt64.le_iff_toNat_le.mp h)]

/-! ## Checked and saturating arithmetic -/

def checkedAdd (a b : UInt64) : Option UInt64 :=
  if a.toNat + b.toNat < 2 ^ 64 then some (a + b) else none

def checkedSub (a b : UInt64) : Option UInt64 := if b ≤ a then some (a - b) else none

def checkedMul (a b : UInt64) : Option UInt64 :=
  if a.toNat * b.toNat < 2 ^ 64 then some (a * b) else none

def checkedNeg (x : Int64) : Option Int64 := if -2 ^ 63 < x.toInt then some (-x) else none

/-- `i64::checked_add`. -/
def checkedAddSigned (x y : Int64) : Option Int64 :=
  if -2 ^ 63 ≤ x.toInt + y.toInt ∧ x.toInt + y.toInt < 2 ^ 63 then some (x + y) else none

/-- The cast to `i64`, where it keeps the value. -/
def signed (a : UInt64) : Option Int64 := if a.toNat < 2 ^ 63 then some a.toInt64 else none

def saturatingSub (a b : UInt64) : UInt64 := if b ≤ a then a - b else 0

def saturatingAdd (a b : UInt64) : UInt64 := (checkedAdd a b).getD 0xFFFFFFFFFFFFFFFF

lemma saturatingSub_self (a : UInt64) : saturatingSub a a = 0 := by
  rw [saturatingSub, if_pos UInt64.le_rfl, UInt64.sub_self]

lemma checkedAdd_eq_some {a b c : UInt64} (h : checkedAdd a b = some c) :
    c.toNat = a.toNat + b.toNat := by
  unfold checkedAdd at h
  split at h
  · rename_i hlt
    obtain rfl := Option.some.inj h
    exact toNat_add_of_lt hlt
  · exact absurd h (by simp)

lemma checkedAdd_eq {a b : UInt64} (h : a.toNat + b.toNat < 2 ^ 64) :
    checkedAdd a b = some (a + b) := if_pos h

lemma checkedSucc_eq {a : UInt64} (h : a.toNat + 1 < 2 ^ 64) :
    checkedAdd a 1 = some (a + 1) := checkedAdd_eq h

lemma checkedSub_eq {a b : UInt64} (h : b ≤ a) : checkedSub a b = some (a - b) := if_pos h

lemma checkedMul_eq {a b : UInt64} (h : a.toNat * b.toNat < 2 ^ 64) :
    checkedMul a b = some (a * b) := if_pos h

lemma signed_eq {a : UInt64} (h : a.toNat < 2 ^ 63) : signed a = some a.toInt64 := if_pos h

/-- Adding to the largest word overflows. -/
lemma checkedAdd_max {a : UInt64} (h : 0 < a) : checkedAdd 0xFFFFFFFFFFFFFFFF a = none := by
  have hpos := (UInt64.lt_iff_toNat_lt.mp h)
  refine if_neg ?_
  have hmax : (0xFFFFFFFFFFFFFFFF : UInt64).toNat = 2 ^ 64 - 1 := rfl
  have hzero : (0 : UInt64).toNat = 0 := rfl
  omega

lemma checkedAdd_of_lt {a b : UInt64} (h : a.toNat + b.toNat < 2 ^ 64) :
    ∃ c, checkedAdd a b = some c := ⟨a + b, if_pos h⟩

lemma le_saturatingAdd (a b : UInt64) : a ≤ saturatingAdd a b := by
  rw [UInt64.le_iff_toNat_le, saturatingAdd]
  cases h : checkedAdd a b with
  | some c =>
      have hsum := checkedAdd_eq_some h
      rw [Option.getD_some]
      omega
  | none => exact Nat.le_of_lt_succ a.toNat_lt

/-! ## Casts to signed words -/

lemma toInt64_eq_ofNat (a : UInt64) : a.toInt64 = Int64.ofNat a.toNat := by
  apply Int64.toBitVec_inj.mp
  apply BitVec.eq_of_toNat_eq
  simp

/-- Below `2 ^ 63` the cast to `i64` keeps the value. -/
lemma toInt_toInt64 {a : UInt64} (h : a.toNat < 2 ^ 63) : a.toInt64.toInt = a.toNat := by
  rw [toInt64_eq_ofNat, Int64.toInt_ofNat_of_lt h]

/-- Below `2 ^ 63` the negated cast is the negated value. -/
lemma toInt_neg_toInt64 {a : UInt64} (h : a.toNat < 2 ^ 63) :
    (-a.toInt64).toInt = -(a.toNat : ℤ) := by
  rw [toInt64_eq_ofNat, Int64.toInt_neg_ofNat_of_le h.le]

/-- From `2 ^ 63` on the cast to `i64` is negative. -/
lemma toInt_toInt64_of_ge {a : UInt64} (h : 2 ^ 63 ≤ a.toNat) :
    a.toInt64.toInt = (a.toNat : ℤ) - 2 ^ 64 := by
  show a.toBitVec.toInt = (a.toBitVec.toNat : ℤ) - 2 ^ 64
  change 2 ^ 63 ≤ a.toBitVec.toNat at h
  rw [BitVec.toInt_eq_toNat_cond, if_neg (by omega)]
  rfl

/-- The cast keeps the order of two numbers, unless only the greater one becomes negative. -/
lemma toInt_toInt64_le_iff {a b : UInt64} (h : a.toNat ≤ b.toNat) :
    a.toInt64.toInt ≤ b.toInt64.toInt ↔ b.toNat < 2 ^ 63 ∨ 2 ^ 63 ≤ a.toNat := by
  have ha := a.toNat_lt
  have hb := b.toNat_lt
  by_cases hbig : b.toNat < 2 ^ 63
  · rw [toInt_toInt64 hbig, toInt_toInt64 (Nat.lt_of_le_of_lt h hbig)]
    omega
  · rw [toInt_toInt64_of_ge (Nat.le_of_not_lt hbig)]
    by_cases hsmall : a.toNat < 2 ^ 63
    · rw [toInt_toInt64 hsmall]
      omega
    · rw [toInt_toInt64_of_ge (Nat.le_of_not_lt hsmall)]
      omega

/-- Below `2 ^ 63` in total, the negated sum of two casts is the negated sum. -/
lemma toInt_neg_add_toInt64 {a b : UInt64} (h : a.toNat + b.toNat < 2 ^ 63) :
    (-(a.toInt64 + b.toInt64)).toInt = -((a.toNat : ℤ) + b.toNat) := by
  have hsum : (a + b).toNat = a.toNat + b.toNat := toNat_add_of_lt (by omega)
  rw [← UInt64.toInt64_add, toInt_neg_toInt64 (by omega), hsum]
  push_cast
  rfl

/-! ## Sums of signed words -/

lemma toInt_add_of_fits {a b : Int64} (hmin : -2 ^ 63 ≤ a.toInt + b.toInt)
    (hmax : a.toInt + b.toInt < 2 ^ 63) : (a + b).toInt = a.toInt + b.toInt := by
  rw [Int64.toInt_add]
  exact Int.bmod_eq_of_le_mul_two (by omega) (by omega)

/-- An equation of the integers is one of the words. -/
lemma eq_add_of_toInt_eq {a b c : Int64} (h : c.toInt = a.toInt + b.toInt) : c = a + b := by
  have hmin := c.le_toInt
  have hmax := c.toInt_lt
  refine Int64.toInt_inj.mp ?_
  rw [toInt_add_of_fits (h ▸ hmin) (h ▸ hmax), h]

/-- Two words that are not negative and cancel each other are zero. -/
lemma toInt_eq_zero_of_add {a b : Int64} (ha : 0 ≤ a.toInt) (hb : 0 ≤ b.toInt) (h : a + b = 0) :
    a.toInt = 0 ∧ b.toInt = 0 := by
  have hamax := a.toInt_lt
  have hbmax := b.toInt_lt
  have hmod : (a.toInt + b.toInt).bmod (2 ^ 64) = 0 := by
    rw [← Int64.toInt_add, h]
    rfl
  have hdvd := Int.dvd_of_bmod_eq_zero hmod
  omega

/-- Negating a cast negates its value, except at `2 ^ 63`, whose cast is its own negation. -/
lemma toInt_neg_of_ne {a : UInt64} (h : a.toNat ≠ 2 ^ 63) :
    (-a.toInt64).toInt = -a.toInt64.toInt := by
  have hne : a.toInt64.toBitVec ≠ BitVec.intMin 64 := by
    intro heq
    have hnat := congrArg BitVec.toNat heq
    rw [BitVec.toNat_intMin] at hnat
    exact h (by simpa using hnat)
  exact BitVec.toInt_neg_of_ne_intMin hne

/-- The negated cast is the negated value exactly up to `2 ^ 63`. -/
lemma toInt_neg_toInt64_iff {a : UInt64} :
    (-a.toInt64).toInt = -(a.toNat : ℤ) ↔ a.toNat ≤ 2 ^ 63 := by
  rcases Nat.lt_trichotomy a.toNat (2 ^ 63) with hlt | heq | hgt
  · exact iff_of_true (toInt_neg_toInt64 hlt) hlt.le
  · obtain rfl : a = 0x8000000000000000 := UInt64.toNat_inj.mp heq
    decide
  · rw [toInt_neg_of_ne hgt.ne', toInt_toInt64_of_ge hgt.le]
    have hlt := a.toNat_lt
    omega

lemma checkedNeg_eq {a : UInt64} (h : a.toNat < 2 ^ 63) :
    checkedNeg a.toInt64 = some (-a.toInt64) := by
  refine if_pos ?_
  rw [toInt_toInt64 h]
  omega

lemma checkedAddSigned_eq {a b : UInt64} (h : a.toNat + b.toNat < 2 ^ 63) :
    checkedAddSigned a.toInt64 b.toInt64 = some (a.toInt64 + b.toInt64) := by
  refine if_pos ?_
  rw [toInt_toInt64 (by omega), toInt_toInt64 (by omega)]
  omega

/-! ## Signed words -/

/-- The cast back to `u64` keeps a value that is not negative. -/
lemma toNat_toUInt64 {x : Int64} (h : 0 ≤ x.toInt) : (x.toUInt64.toNat : ℤ) = x.toInt := by
  show ((x.toBitVec.toNat : ℕ) : ℤ) = x.toBitVec.toInt
  change 0 ≤ x.toBitVec.toInt at h
  rw [BitVec.toInt_eq_toNat_cond] at h ⊢
  have hlt := x.toBitVec.isLt
  split at h
  · rename_i hsmall
    rw [if_pos hsmall]
  · omega

lemma toInt_neg_of_lt {x : Int64} (h : -2 ^ 63 < x.toInt) : (-x).toInt = -x.toInt := by
  rw [Int64.toInt_neg]
  have hlt := x.toInt_lt
  apply Int.bmod_eq_of_le <;> omega

end Word

end ExchangeCore
