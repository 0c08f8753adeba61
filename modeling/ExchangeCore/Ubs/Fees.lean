import ExchangeCore.Framework.HashMap
import ExchangeCore.Framework.Word
import Mathlib.Order.Nat

/-!
# Fees

The fee table of the VIP levels (`ubs_core/fee.rs`) and `UBSCore::calculate_fee` (`core.rs`), with
the two fields of the core that it reads.  The product of value and rate is taken in `u64` before it
is divided, so the fee is the floor it is meant to be as long as the product fits
(`calculateFee_exact_iff`); beyond, a build with overflow checks panics and one without charges next
to nothing.
-/

namespace ExchangeCore

/-- `VipFeeTable`: a maker's and a taker's rate, in millionths, for each level. -/
structure VipFeeTable where
  rates : Vector (UInt64 × UInt64) 10

namespace VipFeeTable

def defaultRates : VipFeeTable where
  rates := #v[(1000, 1500), (900, 1400), (800, 1300), (700, 1200), (600, 1100), (500, 1000),
    (400, 900), (300, 800), (200, 600), (100, 400)]

lemma level_lt (vipLevel : UInt8) : min vipLevel.toNat 9 < 10 :=
  Nat.lt_succ_of_le (min_le_right _ _)

def getRate (table : VipFeeTable) (vipLevel : UInt8) (isMaker : Bool) : UInt64 :=
  let rates := table.rates.get ⟨min vipLevel.toNat 9, level_lt vipLevel⟩
  if isMaker then rates.1 else rates.2

/-- No rate of the table takes more than the whole. -/
def AtMostAll (table : VipFeeTable) : Prop :=
  ∀ level, (table.rates.get level).1.toNat ≤ 1000000 ∧ (table.rates.get level).2.toNat ≤ 1000000

lemma defaultRates_atMostAll : defaultRates.AtMostAll := by
  unfold AtMostAll
  decide

lemma getRate_le {table : VipFeeTable} (h : table.AtMostAll) (vipLevel : UInt8) (isMaker : Bool) :
    (table.getRate vipLevel isMaker).toNat ≤ 1000000 := by
  obtain ⟨hmaker, htaker⟩ := h ⟨min vipLevel.toNat 9, level_lt vipLevel⟩
  unfold getRate
  dsimp only
  split
  · exact hmaker
  · exact htaker

end VipFeeTable

/-- `UBSCore`: what `calculate_fee` reads of it.  The constructors give it the default table, and no
function sets another. -/
structure FeeSettings where
  vipConfigs : HashMap UInt64 UInt8
  vipTable : VipFeeTable
  atMostAll : vipTable.AtMostAll

namespace FeeSettings

/-- The rate of a user: level 0 unless another is configured. -/
def rate (core : FeeSettings) (userId : UInt64) (isMaker : Bool) : UInt64 :=
  let vipLevel := (core.vipConfigs.get? userId).getD 0
  core.vipTable.getRate vipLevel isMaker

def calculateFee (core : FeeSettings) (userId tradeValue : UInt64) (isMaker : Bool) : UInt64 :=
  tradeValue * core.rate userId isMaker / 1000000

end FeeSettings

/-- `calculate_fee`, as a build with overflow checks runs it. -/
def Checked.calculateFee (core : FeeSettings) (userId tradeValue : UInt64) (isMaker : Bool) :
    Option UInt64 := do
  let product ← Word.checkedMul tradeValue (core.rate userId isMaker)
  return product / 1000000

namespace FeeSettings

variable {core : FeeSettings} {userId tradeValue : UInt64} {isMaker : Bool}

lemma toNat_calculateFee
    (h : tradeValue.toNat * (core.rate userId isMaker).toNat < 2 ^ 64) :
    (core.calculateFee userId tradeValue isMaker).toNat =
      tradeValue.toNat * (core.rate userId isMaker).toNat / 1000000 := by
  rw [calculateFee, UInt64.toNat_div, Word.toNat_mul_of_lt h]
  rfl

/-- A product that wraps loses more than the division can hide. -/
lemma toNat_calculateFee_ne
    (h : 2 ^ 64 ≤ tradeValue.toNat * (core.rate userId isMaker).toNat) :
    (core.calculateFee userId tradeValue isMaker).toNat ≠
      tradeValue.toNat * (core.rate userId isMaker).toNat / 1000000 := by
  have hmillion : (1000000 : UInt64).toNat = 1000000 := rfl
  rw [calculateFee, UInt64.toNat_div, UInt64.toNat_mul, hmillion]
  have hwrapped := Nat.mod_lt (tradeValue.toNat * (core.rate userId isMaker).toNat)
    (Nat.two_pow_pos 64)
  omega

/-- **Where the fee is exact.**  The product does not overflow, the fee is the floor of the product
by a million, takes no more than the trade, and no smaller trade pays more, iff the product fits. -/
theorem calculateFee_exact_iff (core : FeeSettings) (userId tradeValue : UInt64)
    (isMaker : Bool) :
    (Checked.calculateFee core userId tradeValue isMaker =
          some (core.calculateFee userId tradeValue isMaker) ∧
        (core.calculateFee userId tradeValue isMaker).toNat =
          tradeValue.toNat * (core.rate userId isMaker).toNat / 1000000 ∧
        core.calculateFee userId tradeValue isMaker ≤ tradeValue ∧
        ∀ smaller ≤ tradeValue, core.calculateFee userId smaller isMaker ≤
          core.calculateFee userId tradeValue isMaker) ↔
      tradeValue.toNat * (core.rate userId isMaker).toNat < 2 ^ 64 := by
  constructor
  · rintro ⟨-, hfloor, -⟩
    by_contra hover
    exact toNat_calculateFee_ne (not_lt.mp hover) hfloor
  · intro h
    have hrate : (core.rate userId isMaker).toNat ≤ 1000000 :=
      VipFeeTable.getRate_le core.atMostAll _ _
    refine ⟨?_, toNat_calculateFee h, ?_, fun smaller hle => ?_⟩
    · rw [Checked.calculateFee, Word.checkedMul_eq h]
      rfl
    · rw [UInt64.le_iff_toNat_le, toNat_calculateFee h]
      exact Nat.div_le_of_le_mul (by
        rw [Nat.mul_comm 1000000]
        exact Nat.mul_le_mul_left _ hrate)
    · have hmul := Nat.mul_le_mul_right (core.rate userId isMaker).toNat
        (UInt64.le_iff_toNat_le.mp hle)
      rw [UInt64.le_iff_toNat_le, toNat_calculateFee h, toNat_calculateFee (hmul.trans_lt h)]
      exact Nat.div_le_div_right hmul

/-- The settings of a new core: nobody has a level of their own. -/
def new : FeeSettings where
  vipConfigs := HashMap.empty
  vipTable := VipFeeTable.defaultRates
  atMostAll := VipFeeTable.defaultRates_atMostAll

/-- A trade whose product just overflows is charged nothing. -/
theorem calculateFee_overflow :
    ¬∀ (core : FeeSettings) (userId tradeValue : UInt64) (isMaker : Bool),
      Checked.calculateFee core userId tradeValue isMaker =
          some (core.calculateFee userId tradeValue isMaker) ∧
        (core.calculateFee userId tradeValue isMaker).toNat =
          tradeValue.toNat * (core.rate userId isMaker).toNat / 1000000 ∧
        core.calculateFee userId tradeValue isMaker ≤ tradeValue ∧
        ∀ smaller ≤ tradeValue, core.calculateFee userId smaller isMaker ≤
          core.calculateFee userId tradeValue isMaker := by
  intro h
  obtain ⟨-, hfloor, -⟩ := h new 1 12297829382473035 false
  exact absurd hfloor (by decide)

end FeeSettings

end ExchangeCore
