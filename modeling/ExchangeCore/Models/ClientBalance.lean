import ExchangeCore.Models.BalanceManager
import ExchangeCore.Ubs.Balance

/-!
# Balances of clients

`to_internal_balance_struct` and `to_client_balance_struct` (`models/balance_manager.rs`): a balance
with its two amounts as decimals, and the internal one, which can only be built by a deposit and a
lock.

The available amount is deposited and the frozen one then locked out of it, with the outcome of both
ignored; so the two amounts arrive as they are only if nothing is frozen (`balance_kept_iff`).
-/

namespace ExchangeCore

structure ClientBalance where
  asset : String
  avail : Decimal
  frozen : Decimal

structure InternalBalance where
  assetId : UInt32
  balance : Balance
  deriving DecidableEq, Repr

namespace SymbolManager

variable (sm : SymbolManager)

def toInternalBalanceStruct (client : ClientBalance) : Except Abort InternalBalance := do
  let (assetId, avail) ← sm.toInternalAmount client.asset client.avail
  let (_, frozen) ← sm.toInternalAmount client.asset client.frozen
  let newBalance := (Balance.default.deposit avail).2
  let newBalance := if frozen > 0 then (newBalance.lock frozen).2 else newBalance
  .ok ⟨assetId, newBalance⟩

def toClientBalance (assetId : UInt32) (avail frozen : UInt64) :
    Except Abort (Option ClientBalance) :=
  match sm.getAssetName assetId with
  | none => .ok none
  | some assetName => do
      match ← sm.toClientAmount assetId avail with
      | none => .ok none
      | some clientAvail => do
          match ← sm.toClientAmount assetId frozen with
          | none => .ok none
          | some clientFrozen => .ok (some ⟨assetName, clientAvail, clientFrozen⟩)

def toClientBalanceStruct (internal : InternalBalance) : Except Abort (Option ClientBalance) :=
  sm.toClientBalance internal.assetId internal.balance.avail internal.balance.frozen

variable {sm} {client : ClientBalance} {assetId assetId' : UInt32} {avail frozen : UInt64}

lemma toInternalBalanceStruct_eq
    (havail : sm.toInternalAmount client.asset client.avail = .ok (assetId, avail))
    (hfrozen : sm.toInternalAmount client.asset client.frozen = .ok (assetId', frozen)) :
    sm.toInternalBalanceStruct client =
      .ok ⟨assetId, if frozen > 0 then ((Balance.default.deposit avail).2.lock frozen).2
        else (Balance.default.deposit avail).2⟩ := by
  rw [toInternalBalanceStruct, havail]
  simp only [bind, Except.bind, hfrozen]

end SymbolManager

namespace Balance

lemma deposit_default (avail : UInt64) :
    (Balance.default.deposit avail).2.avail = avail ∧
      (Balance.default.deposit avail).2.frozen = 0 := by
  have hroom : Balance.default.avail.toNat + avail.toNat < 2 ^ 64 := by
    rw [Balance.default, UInt64.toNat_zero, Nat.zero_add]
    exact avail.toNat_lt
  obtain ⟨b, hdeposit, havail, hfrozen⟩ := deposit_ok hroom
  rw [hdeposit]
  refine ⟨UInt64.toNat_inj.mp ?_, hfrozen⟩
  rw [havail, Balance.default, UInt64.toNat_zero, Nat.zero_add]

/-- An amount that is locked out of the available one, or not for want of it, leaves other amounts
than these two. -/
lemma lock_ne {avail frozen : UInt64} (hpos : frozen > 0) :
    ¬(((Balance.default.deposit avail).2.lock frozen).2.avail = avail ∧
      ((Balance.default.deposit avail).2.lock frozen).2.frozen = frozen) := by
  obtain ⟨hdeposited, hnothing⟩ := deposit_default avail
  generalize (Balance.default.deposit avail).2 = b at hdeposited hnothing
  rintro ⟨havail, hfrozen⟩
  have hnat : 0 < frozen.toNat := UInt64.lt_iff_toNat_lt.mp hpos
  by_cases hle : frozen ≤ b.avail
  · have hroom : b.frozen.toNat + frozen.toNat < 2 ^ 64 := by
      rw [hnothing, UInt64.toNat_zero, Nat.zero_add]
      exact frozen.toNat_lt
    obtain ⟨b', hlock, hleft, -⟩ := lock_ok hle hroom
    rw [hlock] at havail
    rw [show b'.avail = avail from havail, hdeposited] at hleft
    omega
  · rw [lock_refused (UInt64.not_le.mp hle)] at hfrozen
    rw [← show b.frozen = frozen from hfrozen, hnothing, UInt64.toNat_zero] at hnat
    exact absurd hnat (Nat.lt_irrefl 0)

end Balance

/-! ## There and back -/

namespace SymbolManager

variable {sm : SymbolManager} {client : ClientBalance} {assetId assetId' : UInt32}
  {avail frozen : UInt64}

/-- The balance arrives with the two amounts, and comes back as it was. -/
def Kept (sm : SymbolManager) (client : ClientBalance) (avail frozen : UInt64) : Prop :=
  ∃ internal, sm.toInternalBalanceStruct client = .ok internal ∧
    internal.balance.avail = avail ∧ internal.balance.frozen = frozen ∧
    ∃ back, sm.toClientBalanceStruct internal = .ok (some back) ∧ back.asset = client.asset ∧
      back.avail.value = client.avail.value ∧ back.frozen.value = client.frozen.value

lemma comesBack_iff {name : String} {amount : Decimal} {a : AssetInfo} {raw : UInt64}
    (hok : sm.toInternalAmount name amount = .ok (assetId, raw))
    (ha : sm.getAsset assetId = some a) :
    (raw.toNat / 10 ^ a.decimals.toNat : ℚ) = amount.value ↔
      ∃ n : ℤ, amount.value * 10 ^ a.decimals.toNat = n := by
  constructor
  · intro hback
    refine ⟨raw.toNat, ?_⟩
    rw [← hback]
    push_cast
    field_simp
  · rintro ⟨n, hn⟩
    obtain ⟨a', -, ha', hraw⟩ := toInternalAmount_eq_ok hok
    obtain rfl := Option.some.inj (ha.symm.trans ha')
    rw [toInternal_eq_of_int hn hraw]
    field_simp

lemma assetId_eq (havail : sm.toInternalAmount client.asset client.avail = .ok (assetId, avail))
    (hfrozen : sm.toInternalAmount client.asset client.frozen = .ok (assetId', frozen)) :
    assetId' = assetId := by
  obtain ⟨-, hid, -, -⟩ := toInternalAmount_eq_ok havail
  obtain ⟨-, hid', -, -⟩ := toInternalAmount_eq_ok hfrozen
  exact Option.some.inj (hid'.symm.trans hid)

/-- **Balances.**  Of a client's balance whose amounts are both converted, the internal one has
exactly these amounts, and goes back to the same, if and only if nothing is frozen; where more
places may be displayed than are stored, the available amount must have no more than these, too. -/
theorem balance_kept_iff
    (havail : sm.toInternalAmount client.asset client.avail = .ok (assetId, avail))
    (hfrozen : sm.toInternalAmount client.asset client.frozen = .ok (assetId', frozen)) :
    ∃ a, sm.getAsset assetId = some a ∧
      (Kept sm client avail frozen ↔
        client.frozen.value = 0 ∧ ∃ n : ℤ, client.avail.value * 10 ^ a.decimals.toNat = n) ∧
      (a.displayDecimals ≤ a.decimals →
        (Kept sm client avail frozen ↔ client.frozen.value = 0)) := by
  obtain rfl := assetId_eq havail hfrozen
  obtain ⟨a, hid, ha, hraw⟩ := toInternalAmount_eq_ok havail
  obtain ⟨clientAvail, hbackAvail, hvalueAvail⟩ := exists_toClientAmount havail ha
  obtain ⟨clientFrozen, hbackFrozen, hvalueFrozen⟩ := exists_toClientAmount hfrozen ha
  have hname : sm.getAssetName assetId' = some client.asset := by
    obtain ⟨a', ha', hname⟩ := exists_getAsset hid
    rw [getAssetName, ha', Option.map_some, hname]
  have hbuilt := toInternalBalanceStruct_eq havail hfrozen
  have hkept : Kept sm client avail frozen ↔
      client.frozen.value = 0 ∧ ∃ n : ℤ, client.avail.value * 10 ^ a.decimals.toNat = n := by
    rw [← comesBack_iff havail ha]
    by_cases hpos : frozen > 0
    · -- The lock leaves other amounts.
      rw [if_pos hpos] at hbuilt
      refine iff_of_false ?_ ?_
      · rintro ⟨internal, hinternal, hkeptAvail, hkeptFrozen, -⟩
        obtain rfl := Except.ok.inj (hbuilt.symm.trans hinternal)
        exact Balance.lock_ne hpos ⟨hkeptAvail, hkeptFrozen⟩
      · rintro ⟨hzero, -⟩
        have hzero' : client.frozen.value * 10 ^ a.decimals.toNat = (0 : ℤ) := by
          rw [hzero, zero_mul, Int.cast_zero]
        have hback := (comesBack_iff hfrozen ha).mpr ⟨0, hzero'⟩
        rw [hzero, div_eq_zero_iff] at hback
        have hnat : 0 < frozen.toNat := UInt64.lt_iff_toNat_lt.mp hpos
        rcases hback with hraw0 | hpow
        · exact absurd hraw0 (by exact_mod_cast hnat.ne')
        · exact absurd hpow (by positivity)
    · -- Nothing is locked, and the deposit is what goes back.
      obtain ⟨hdeposited, hnothing⟩ := Balance.deposit_default avail
      have hfrozen0 : frozen = 0 := by
        have hle : frozen.toNat ≤ 0 := UInt64.le_iff_toNat_le.mp (UInt64.not_lt.mp hpos)
        exact UInt64.toNat_inj.mp (Nat.le_zero.mp hle)
      rw [if_neg hpos] at hbuilt
      have hback : sm.toClientBalanceStruct ⟨assetId', (Balance.default.deposit avail).2⟩ =
          .ok (some ⟨client.asset, clientAvail, clientFrozen⟩) := by
        rw [toClientBalanceStruct, toClientBalance, hdeposited, hnothing, ← hfrozen0, hname]
        simp only [bind, Except.bind, hbackAvail, hbackFrozen]
      rw [hfrozen0, UInt64.toNat_zero, Nat.cast_zero, zero_div] at hvalueFrozen
      constructor
      · rintro ⟨internal, hinternal, -, -, back, hback', -, havail', hfrozen'⟩
        obtain rfl := Except.ok.inj (hbuilt.symm.trans hinternal)
        obtain rfl := Option.some.inj (Except.ok.inj (hback.symm.trans hback'))
        exact ⟨hfrozen'.symm.trans hvalueFrozen, hvalueAvail.symm.trans havail'⟩
      · rintro ⟨hzero, hexact⟩
        exact ⟨_, hbuilt, hdeposited, hnothing.trans hfrozen0.symm, _, hback, rfl,
          hvalueAvail.trans hexact, hvalueFrozen.trans hzero.symm⟩
  -- with no more places displayed than stored, every amount comes back
  refine ⟨a, ha, hkept, fun hle => ?_⟩
  rw [hkept, and_iff_left]
  exact Decimal.exists_int_of_normalizedScale_le
    ((places_of_toInternal hraw).1.trans (UInt32.le_iff_toNat_le.mp hle))

/-- A balance of 1.5 BTC, nothing of it frozen. -/
def nothingFrozen : ClientBalance :=
  ⟨"BTC", .new 15 1, .new 0 0⟩

theorem balance_kept_iff_nothingFrozen : Kept onlyBtc nothingFrozen 150000000 0 := by
  obtain ⟨a, ha, -, hiff⟩ := @balance_kept_iff onlyBtc nothingFrozen 1 1 150000000 0
    (by decide +kernel) (by decide +kernel)
  have hasset : onlyBtc.getAsset 1 = some ⟨1, 8, 3, "BTC"⟩ := by decide +kernel
  obtain rfl := Option.some.inj (ha.symm.trans hasset)
  refine (hiff (by decide)).mpr ?_
  have hzero : nothingFrozen.frozen.mantissa = 0 := rfl
  rw [Decimal.value, hzero, Int.cast_zero, zero_div]

/-- A balance of 1.5 BTC beside 0.1 frozen. -/
def tenthFrozen : ClientBalance :=
  ⟨"BTC", .new 15 1, .new 1 1⟩

/-- It becomes 1.4 beside 0.1. -/
theorem tenthFrozen_not_kept :
    ¬∀ (client : ClientBalance) (assetId assetId' : UInt32) (avail frozen : UInt64),
      onlyBtc.toInternalAmount client.asset client.avail = .ok (assetId, avail) →
      onlyBtc.toInternalAmount client.asset client.frozen = .ok (assetId', frozen) →
      Kept onlyBtc client avail frozen := by
  intro hkept
  obtain ⟨internal, hbuilt, havail, -⟩ := hkept tenthFrozen 1 1 150000000 10000000
    (by decide +kernel) (by decide +kernel)
  have hinternal : onlyBtc.toInternalBalanceStruct tenthFrozen =
      .ok ⟨1, ⟨140000000, 10000000, 2⟩⟩ := by decide +kernel
  obtain rfl := Except.ok.inj (hinternal.symm.trans hbuilt)
  exact absurd havail (by decide)

end SymbolManager

end ExchangeCore
