import Mathlib.Algebra.Order.Field.Rat
import Mathlib.Data.Int.Order.Basic
import Mathlib.Tactic.FieldSimp
import Mathlib.Tactic.Linarith
import Mathlib.Tactic.NormNum
import Mathlib.Tactic.Ring

/-!
# Decimal numbers of bounded precision

A `Decimal` is `mantissa / 10 ^ scale` with a mantissa of 96 bits and at most 28 decimal places; one
value has several representations.  A product that does not fit loses as few of its last places as
it takes, rounded half to even, and there is no product where the integer part does not fit.

A product with a power of ten is exact (`value_mul_pow`): the places that have to go are zeros.  So
is rounding to an integer where the value has no more places than the power of ten takes away
(`exists_int_of_normalizedScale_le`, `value_round`).
-/

namespace ExchangeCore

/-- A decimal number. -/
structure Decimal where
  mantissa : ℤ
  scale : ℕ
  mantissa_lt : mantissa.natAbs < 2 ^ 96
  scale_le : scale ≤ 28
  deriving DecidableEq

namespace Decimal

/-- The number it stands for. -/
def value (d : Decimal) : ℚ := d.mantissa / 10 ^ d.scale

/-- A natural number of 64 bits. -/
def ofNat (n : ℕ) (h : n < 2 ^ 64) : Decimal where
  mantissa := n
  scale := 0
  mantissa_lt := by
    rw [Int.natAbs_natCast]
    exact h.trans (by decide)
  scale_le := Nat.zero_le 28

/-- `Decimal::new`: an integer of 64 bits with some of its places behind the point. -/
def new (num : Int64) (scale : Fin 29) : Decimal where
  mantissa := num.toInt
  scale := scale
  mantissa_lt := by
    have hlow := num.le_toInt
    have hhigh := num.toInt_lt
    omega
  scale_le := Nat.lt_succ_iff.mp scale.isLt

lemma value_ofNat {n : ℕ} (h : n < 2 ^ 64) : (ofNat n h).value = n := by
  rw [value, ofNat, pow_zero, div_one, Int.cast_natCast]

/-- The places that are left when trailing zeros are taken away. -/
def normalizedScaleOf : ℤ → ℕ → ℕ
  | _, 0 => 0
  | m, s + 1 => if 10 ∣ m then normalizedScaleOf (m / 10) s else s + 1

/-- The scale of the shortest representation. -/
def normalizedScale (d : Decimal) : ℕ := normalizedScaleOf d.mantissa d.scale

/-! ## Rounding -/

/-- Division rounded to the nearest integer, half to even. -/
def roundDiv (m : ℤ) (n : ℕ) : ℤ :=
  let q := m / n
  let r := m % n
  if 2 * r < n then q
  else if (n : ℤ) < 2 * r then q + 1
  else if q % 2 = 0 then q else q + 1

lemma roundDiv_mul (m : ℤ) {n : ℕ} (hn : n ≠ 0) : roundDiv (m * n) n = m := by
  have hpos : 0 < (n : ℤ) := Int.natCast_pos.mpr (Nat.pos_of_ne_zero hn)
  simp only [roundDiv]
  rw [Int.mul_emod_left, if_pos (by omega), Int.mul_ediv_cancel _ hpos.ne']

lemma natAbs_roundDiv_le (m : ℤ) {n : ℕ} (hn : n ≠ 0) : (roundDiv m n).natAbs ≤ m.natAbs := by
  have hpos : 1 ≤ (n : ℤ) := Int.natCast_pos.mpr (Nat.pos_of_ne_zero hn)
  have hdiv := Int.mul_ediv_add_emod m n
  have hr := Int.emod_nonneg m (by omega : (n : ℤ) ≠ 0)
  have hlt := Int.emod_lt_of_pos m (by omega : 0 < (n : ℤ))
  have hq : (m / n).natAbs ≤ m.natAbs := Int.natAbs_ediv_le_natAbs m n
  have hup : (n : ℤ) ≤ 2 * (m % n) → (m / n + 1).natAbs ≤ m.natAbs := by
    intro hhalf
    rcases le_or_gt 0 (m / n) with hnonneg | hneg
    · have hmul : m / n ≤ n * (m / n) := le_mul_of_one_le_left hnonneg hpos
      omega
    · omega
  simp only [roundDiv]
  split
  · exact hq
  split
  · exact hup (by omega)
  split
  · exact hq
  · exact hup (by omega)

/-- Round to an integer. -/
def round (d : Decimal) : Decimal where
  mantissa := roundDiv d.mantissa (10 ^ d.scale)
  scale := 0
  mantissa_lt := (natAbs_roundDiv_le _ (by positivity)).trans_lt d.mantissa_lt
  scale_le := Nat.zero_le 28

/-- The integer part, where it is a `u64`. -/
def toU64 (d : Decimal) : Option UInt64 :=
  let n := d.mantissa / 10 ^ d.scale
  if d.mantissa < 0 then none
  else if n < 2 ^ 64 then some (UInt64.ofNat n.toNat) else none

/-! ## Products -/

/-- A product with its places, before it is cut down: does it fit with the last `r` of them gone? -/
def FitsWithout (m : ℤ) (s r : ℕ) : Prop := (roundDiv m (10 ^ r)).natAbs < 2 ^ 96 ∧ s - r ≤ 28

instance (m : ℤ) (s r : ℕ) : Decidable (FitsWithout m s r) := inferInstanceAs (Decidable (_ ∧ _))

/-- The product, unless its integer part is too large. -/
def mul (a b : Decimal) : Option Decimal :=
  let m := a.mantissa * b.mantissa
  let s := a.scale + b.scale
  match h : (List.range (s + 1)).find? (fun r => decide (FitsWithout m s r)) with
  | none => none
  | some r =>
      have hfits : FitsWithout m s r := by simpa using List.find?_some h
      some ⟨roundDiv m (10 ^ r), s - r, hfits.1, hfits.2⟩

lemma mul_eq_some {a b c : Decimal} (h : a.mul b = some c) :
    ∃ r ≤ a.scale + b.scale, c.mantissa = roundDiv (a.mantissa * b.mantissa) (10 ^ r) ∧
      c.scale = a.scale + b.scale - r ∧
      ∀ r' < r, ¬FitsWithout (a.mantissa * b.mantissa) (a.scale + b.scale) r' := by
  unfold mul at h
  dsimp only at h
  split at h
  · exact absurd h (by simp)
  · rename_i r hfind
    obtain rfl := Option.some.inj h
    rw [List.find?_range_eq_some] at hfind
    obtain ⟨-, hmem, hmin⟩ := hfind
    refine ⟨r, Nat.lt_succ_iff.mp (List.mem_range.mp hmem), rfl, rfl, fun r' hr' => ?_⟩
    simpa using hmin r' hr'

/-- **A product with a power of ten is exact.** -/
lemma value_mul_pow {a c : Decimal} {k : ℕ} {hk : 10 ^ k < 2 ^ 64}
    (h : a.mul (ofNat (10 ^ k) hk) = some c) : c.value = a.value * 10 ^ k := by
  obtain ⟨r, hr, hmantissa, hscale, hmin⟩ := mul_eq_some h
  simp only [ofNat, Nat.add_zero, Nat.cast_pow, Nat.cast_ofNat] at hr hmantissa hscale hmin
  -- Without its last `k` places the product is the number itself.
  have hle : r ≤ k := by
    by_contra hlt
    refine hmin k (not_le.mp hlt) ⟨?_, ?_⟩
    · have hround := roundDiv_mul a.mantissa (n := 10 ^ k) (by positivity)
      rw [Nat.cast_pow, Nat.cast_ofNat] at hround
      rw [hround]
      exact a.mantissa_lt
    · have := a.scale_le
      omega
  obtain ⟨l, rfl⟩ := Nat.exists_eq_add_of_le hle
  have hsplit : a.mantissa * 10 ^ (r + l) = a.mantissa * 10 ^ l * (10 ^ r : ℕ) := by
    rw [Nat.cast_pow, Nat.cast_ofNat, Nat.add_comm, pow_add, mul_assoc]
  rw [hsplit, roundDiv_mul _ (by positivity)] at hmantissa
  obtain ⟨t, ht⟩ := Nat.exists_eq_add_of_le hr
  rw [value, value, hmantissa, hscale, ht, Nat.add_sub_cancel_left]
  push_cast
  rw [pow_add, pow_add]
  field_simp

/-- There is a product with a power of ten where the integer part fits. -/
lemma exists_mul_pow {a : Decimal} {k : ℕ} (hk : 10 ^ k < 2 ^ 64)
    (h : |a.value * 10 ^ k| < 2 ^ 96) : ∃ c, a.mul (ofNat (10 ^ k) hk) = some c := by
  -- Either all the places of the product are zeros that may go, or it is an integer.
  obtain ⟨r, hr, hfits⟩ : ∃ r ≤ a.scale, FitsWithout (a.mantissa * 10 ^ k) a.scale r := by
    have hscale := a.scale_le
    rcases Nat.le_total k a.scale with hle | hle
    · refine ⟨k, hle, ?_, by omega⟩
      have hround := roundDiv_mul a.mantissa (n := 10 ^ k) (by positivity)
      rw [Nat.cast_pow, Nat.cast_ofNat] at hround
      rw [hround]
      exact a.mantissa_lt
    · obtain ⟨l, rfl⟩ := Nat.exists_eq_add_of_le hle
      refine ⟨a.scale, Nat.le_refl _, ?_, by omega⟩
      have hsplit : a.mantissa * 10 ^ (a.scale + l) =
          a.mantissa * 10 ^ l * (10 ^ a.scale : ℕ) := by
        rw [Nat.cast_pow, Nat.cast_ofNat, Nat.add_comm, pow_add, mul_assoc]
      have hvalue : a.value * 10 ^ (a.scale + l) = ((a.mantissa * 10 ^ l : ℤ) : ℚ) := by
        rw [value, pow_add]
        push_cast
        field_simp
      rw [hvalue, ← Int.cast_abs, Int.abs_eq_natAbs] at h
      rw [hsplit, roundDiv_mul _ (by positivity)]
      exact_mod_cast h
  rcases hmul : a.mul (ofNat (10 ^ k) hk) with _ | c
  · unfold mul at hmul
    dsimp only at hmul
    split at hmul
    · rename_i hnone
      rw [List.find?_eq_none] at hnone
      refine absurd ?_ (hnone r (List.mem_range.mpr ?_))
      · simpa [ofNat] using hfits
      · rw [ofNat]
        omega
    · exact absurd hmul (by simp)
  · exact ⟨c, rfl⟩

/-! ## Shortest representations -/

lemma normalizedScaleOf_le (m : ℤ) (s : ℕ) : normalizedScaleOf m s ≤ s := by
  induction s generalizing m with
  | zero => exact Nat.le_refl _
  | succ s ih =>
      rw [normalizedScaleOf]
      split
      · exact (ih (m / 10)).trans (Nat.le_succ s)
      · exact Nat.le_refl _

/-- The places taken away are zeros. -/
lemma pow_dvd_of_normalizedScaleOf (m : ℤ) (s : ℕ) :
    (10 : ℤ) ^ (s - normalizedScaleOf m s) ∣ m := by
  induction s generalizing m with
  | zero => exact one_dvd m
  | succ s ih =>
      rw [normalizedScaleOf]
      split
      · rename_i hdvd
        obtain ⟨q, rfl⟩ := hdvd
        have hle := normalizedScaleOf_le q s
        rw [Int.mul_ediv_cancel_left q (by norm_num), Nat.succ_sub hle, pow_succ, mul_comm]
        exact mul_dvd_mul_left 10 (ih q)
      · rw [Nat.sub_self, pow_zero]
        exact one_dvd m

def normalize (d : Decimal) : Decimal where
  mantissa := d.mantissa / 10 ^ (d.scale - d.normalizedScale)
  scale := d.normalizedScale
  mantissa_lt := (Int.natAbs_ediv_le_natAbs _ _).trans_lt d.mantissa_lt
  scale_le := (normalizedScaleOf_le _ _).trans d.scale_le

/-- Zeros behind the last place make no difference. -/
lemma drop_zeros {m : ℤ} {l : ℕ} (h : (10 : ℤ) ^ l ∣ m) (t : ℕ) :
    ((m / 10 ^ l : ℤ) : ℚ) / 10 ^ t = m / 10 ^ (t + l) := by
  obtain ⟨q, rfl⟩ := h
  rw [Int.mul_ediv_cancel_left q (by positivity)]
  push_cast
  rw [pow_add]
  field_simp

lemma value_normalize (d : Decimal) : d.normalize.value = d.value := by
  have hle := normalizedScaleOf_le d.mantissa d.scale
  have hdrop := drop_zeros (pow_dvd_of_normalizedScaleOf d.mantissa d.scale)
    (normalizedScaleOf d.mantissa d.scale)
  rw [Nat.add_sub_cancel' hle] at hdrop
  exact hdrop

/-! ## Quotients -/

/-- A quotient of integers rounded to `s` places fits. -/
def QuotientFits (m : ℤ) (n s : ℕ) : Prop := (roundDiv (m * 10 ^ s) n).natAbs < 2 ^ 96

instance (m : ℤ) (n s : ℕ) : Decidable (QuotientFits m n s) := inferInstanceAs (Decidable (_ < _))

/-- The quotient, to as many places as fit; none if the divisor is zero or the integer part is too
large. -/
def div (a b : Decimal) : Option Decimal :=
  if b.mantissa = 0 then none
  else
    let m := a.mantissa * 10 ^ b.scale * b.mantissa.sign
    let n := b.mantissa.natAbs * 10 ^ a.scale
    match h : (List.range 29).find? (fun r => decide (QuotientFits m n (28 - r))) with
    | none => none
    | some r =>
        have hfits : QuotientFits m n (28 - r) := by simpa using List.find?_some h
        some (normalize ⟨roundDiv (m * 10 ^ (28 - r)) n, 28 - r, hfits, Nat.sub_le 28 r⟩)

/-- **A quotient that can be represented is exact.** -/
lemma exists_div {a b : Decimal} (hb : b.mantissa ≠ 0) {q : ℤ} {p : ℕ} (hp : p ≤ 28)
    (hq : q.natAbs < 2 ^ 96) (h : a.value / b.value * 10 ^ p = q) :
    ∃ c, a.div b = some c ∧ c.value = a.value / b.value := by
  have hsign : (b.mantissa.sign : ℚ) ≠ 0 := by exact_mod_cast mt Int.sign_eq_zero_iff_zero.mp hb
  have hmantissa : (b.mantissa : ℚ) ≠ 0 := by exact_mod_cast hb
  have habs : |(b.mantissa : ℚ)| = b.mantissa.sign * b.mantissa := by
    rw [← Int.cast_abs, ← Int.sign_mul_self_eq_abs, Int.cast_mul]
  have hn : b.mantissa.natAbs * 10 ^ a.scale ≠ 0 :=
    Nat.mul_ne_zero (Int.natAbs_ne_zero.mpr hb) (by positivity)
  -- The integers that are divided: with `p` places or more the quotient is an integer.
  have hdivided : a.mantissa * 10 ^ b.scale * b.mantissa.sign * 10 ^ p =
      q * (b.mantissa.natAbs * 10 ^ a.scale : ℕ) := by
    have hrat : ((a.mantissa * 10 ^ b.scale * b.mantissa.sign * 10 ^ p : ℤ) : ℚ) =
        ((q * (b.mantissa.natAbs * 10 ^ a.scale : ℕ) : ℤ) : ℚ) := by
      push_cast
      rw [← h, habs, value, value]
      field_simp
    exact_mod_cast hrat
  have hplaces : ∀ l, roundDiv (a.mantissa * 10 ^ b.scale * b.mantissa.sign * 10 ^ (p + l))
      (b.mantissa.natAbs * 10 ^ a.scale) = q * 10 ^ l := by
    intro l
    rw [pow_add, ← mul_assoc, hdivided, mul_right_comm, roundDiv_mul _ hn]
  have hfits : QuotientFits (a.mantissa * 10 ^ b.scale * b.mantissa.sign)
      (b.mantissa.natAbs * 10 ^ a.scale) p := by
    have hround := hplaces 0
    rw [Nat.add_zero, pow_zero, mul_one] at hround
    rw [QuotientFits, hround]
    exact hq
  unfold div
  rw [if_neg hb]
  dsimp only
  split
  · rename_i hnone
    rw [List.find?_eq_none] at hnone
    refine absurd ?_ (hnone (28 - p) (List.mem_range.mpr (by omega)))
    rw [Nat.sub_sub_self hp]
    exact decide_eq_true hfits
  · rename_i r hfind
    refine ⟨_, rfl, ?_⟩
    rw [List.find?_range_eq_some] at hfind
    obtain ⟨-, -, hmin⟩ := hfind
    -- The search stops with at least `p` places.
    have hle : p ≤ 28 - r := by
      by_contra hlt
      have hnot := hmin (28 - p) (by omega)
      rw [Nat.sub_sub_self hp] at hnot
      exact absurd (decide_eq_true hfits) (by simpa using hnot)
    obtain ⟨l, hl⟩ := Nat.exists_eq_add_of_le hle
    rw [value_normalize]
    show ((roundDiv (a.mantissa * 10 ^ b.scale * b.mantissa.sign * 10 ^ (28 - r))
      (b.mantissa.natAbs * 10 ^ a.scale) : ℤ) : ℚ) / 10 ^ (28 - r) = a.value / b.value
    rw [hl, hplaces l, eq_div_of_mul_eq (by positivity) h]
    push_cast
    rw [pow_add]
    field_simp

/-! ## Dropping places -/

/-- `round_dp_with_strategy` toward zero. -/
def truncate (dp : ℕ) (d : Decimal) : Decimal :=
  if h : d.scale ≤ dp then d
  else
    { mantissa := d.mantissa.tdiv (10 ^ (d.scale - dp))
      scale := dp
      mantissa_lt := (Int.natAbs_tdiv_le_natAbs _ _).trans_lt d.mantissa_lt
      scale_le := (Nat.le_of_not_le h).trans d.scale_le }

/-- Places that are zeros are dropped without loss. -/
lemma value_truncate {d : Decimal} {dp : ℕ} {n : ℤ} (h : d.value * 10 ^ dp = n) :
    (d.truncate dp).value = d.value := by
  rw [truncate]
  split
  · rfl
  rename_i hlt
  obtain ⟨l, hl⟩ := Nat.exists_eq_add_of_le (Nat.le_of_not_le hlt)
  have hmantissa : d.mantissa = 10 ^ l * n := by
    have hvalue : d.value = n / 10 ^ dp := by
      rw [eq_div_iff (by positivity), h]
    rw [value, hl, div_eq_div_iff (by positivity) (by positivity), pow_add] at hvalue
    have hcancel : (d.mantissa : ℚ) = 10 ^ l * n := by
      have hpow : (10 : ℚ) ^ dp ≠ 0 := by positivity
      apply mul_right_cancel₀ hpow
      rw [hvalue]
      ring
    exact_mod_cast hcancel
  show ((d.mantissa.tdiv (10 ^ (d.scale - dp)) : ℤ) : ℚ) / 10 ^ dp = d.value
  rw [hl, Nat.add_sub_cancel_left, Int.tdiv_eq_ediv_of_dvd (Dvd.intro _ hmantissa.symm),
    drop_zeros (Dvd.intro _ hmantissa.symm), value, hl]

/-! ## Integers -/

/-- A number of at most `p` places is an integer multiple of the last of them. -/
lemma exists_int_of_normalizedScaleOf_le {m : ℤ} {s p : ℕ} (h : normalizedScaleOf m s ≤ p) :
    ∃ n : ℤ, (m : ℚ) / 10 ^ s * 10 ^ p = n := by
  induction s generalizing m with
  | zero => exact ⟨m * 10 ^ p, by push_cast; simp⟩
  | succ s ih =>
      rw [normalizedScaleOf] at h
      split at h
      · rename_i hdvd
        obtain ⟨n, hn⟩ := ih h
        refine ⟨n, ?_⟩
        obtain ⟨q, rfl⟩ := hdvd
        rw [Int.mul_ediv_cancel_left q (by norm_num)] at hn
        rw [← hn]
        push_cast
        rw [pow_succ]
        field_simp
      · obtain ⟨l, rfl⟩ := Nat.exists_eq_add_of_le h
        refine ⟨m * 10 ^ l, ?_⟩
        push_cast
        rw [pow_add 10 (s + 1) l]
        field_simp

lemma exists_int_of_normalizedScale_le {d : Decimal} {p : ℕ} (h : d.normalizedScale ≤ p) :
    ∃ n : ℤ, d.value * 10 ^ p = n := exists_int_of_normalizedScaleOf_le h

lemma value_round {d : Decimal} {n : ℤ} (h : d.value = n) : d.round.value = d.value := by
  have hpow : (10 : ℚ) ^ d.scale ≠ 0 := by positivity
  have hmantissa : d.mantissa = n * (10 ^ d.scale : ℕ) := by
    rw [value, div_eq_iff hpow] at h
    exact_mod_cast h
  have hround : roundDiv d.mantissa (10 ^ d.scale) = n := by
    rw [hmantissa, roundDiv_mul _ (by positivity)]
  rw [h]
  show (roundDiv d.mantissa (10 ^ d.scale) : ℚ) / 10 ^ 0 = n
  rw [hround, pow_zero, div_one]

/-- An integer that is a `u64` is given as one. -/
lemma value_of_toU64 {d : Decimal} {n : UInt64} (hscale : d.scale = 0) (h : d.toU64 = some n) :
    (n.toNat : ℚ) = d.value := by
  unfold toU64 at h
  simp only [hscale, pow_zero, Int.ediv_one] at h
  split at h
  · exact absurd h (by simp)
  split at h
  · rename_i hneg hlt
    obtain rfl := Option.some.inj h
    have hnat : d.mantissa.toNat < 2 ^ 64 := by omega
    rw [UInt64.toNat_ofNat', Nat.mod_eq_of_lt hnat, value, hscale, pow_zero, div_one]
    exact_mod_cast Int.toNat_of_nonneg (not_lt.mp hneg)
  · exact absurd h (by simp)

/-- An integer is a `u64` exactly where its value is one. -/
lemma toU64_isSome_iff {d : Decimal} (hscale : d.scale = 0) :
    (∃ n, d.toU64 = some n) ↔ 0 ≤ d.value ∧ d.value < 2 ^ 64 := by
  have hvalue : d.value = (d.mantissa : ℚ) := by rw [value, hscale, pow_zero, div_one]
  have hneg : 0 ≤ d.value ↔ ¬d.mantissa < 0 := by
    rw [hvalue, not_lt]
    exact_mod_cast Iff.rfl
  have hlt : d.value < 2 ^ 64 ↔ d.mantissa < 2 ^ 64 := by
    rw [hvalue]
    exact_mod_cast Iff.rfl
  rw [hneg, hlt]
  unfold toU64
  simp only [hscale, pow_zero, Int.ediv_one]
  split
  · rename_i hsign
    exact iff_of_false (by simp) (fun h => h.1 hsign)
  rename_i hsign
  split
  · rename_i hsize
    exact iff_of_true ⟨_, rfl⟩ ⟨hsign, hsize⟩
  · rename_i hsize
    exact iff_of_false (by simp) (fun h => hsize h.2)

/-! ## Text -/

/-- The number as `Display` writes it: all of its places, zeros included. -/
def display (d : Decimal) : String :=
  let n := d.mantissa.natAbs
  let places := toString (n % 10 ^ d.scale)
  (if d.mantissa < 0 then "-" else "") ++ toString (n / 10 ^ d.scale) ++
    (if d.scale = 0 then ""
      else "." ++ String.ofList (List.replicate (d.scale - places.length) '0') ++ places)

end Decimal

end ExchangeCore
