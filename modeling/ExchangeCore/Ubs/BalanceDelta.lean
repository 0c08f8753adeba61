import ExchangeCore.Ubs.Debts

/-!
# Balance changes at the bounds of the words

`apply_balance_delta` (`ubs_core/core.rs`) once more, as a build with overflow checks runs it: a sum
or a negation that leaves its type, and a debt that does, end the call in a panic (`none`).  Casts
between `u64` and `i64` keep the bits, as they do in every build.

The available amount is a `u64` that is read as an `i64`, so from `2 ^ 63` on it looks negative: a
change is then refused for the wrong reason, or the whole balance is taken for a debt.
`applyBalanceDelta_exact_iff` says where the change is exact.
-/

namespace ExchangeCore

namespace Checked

/-- `add_debt`, by the amount of the record. -/
def addDebt (l : DebtLedger) (userId : UInt64) (assetId : UInt32) (amount : UInt64) :
    Option DebtLedger :=
  match l.debts.get? (userId, assetId) with
  | some existing => do
      let sum ← Word.checkedAdd existing amount
      return ⟨l.debts.insert (userId, assetId) sum⟩
  | none => some ⟨l.debts.insert (userId, assetId) amount⟩

def applyBalanceDelta (userId : UInt64) (assetId : UInt32) (delta : Int64) (_eventType : EventType)
    (ubs : UBSCore) : Option (UInt64 × UBSCore) := do
  let ubs := ubs.ensureAccount userId
  -- the account exists by now
  let account := (ubs.accounts.get? userId).getD (UserAccount.new userId)
  let balance := account.balanceMut assetId
  let write (b : Balance) : UBSCore :=
    { ubs with accounts := ubs.accounts.insert userId (account.writeBalance assetId b) }
  let current := balance.avail.toInt64
  let expected ← Word.checkedAddSigned current delta
  if expected ≥ 0 then
    if delta ≥ 0 then
      let balance := (Balance.deposit delta.toUInt64 balance).2
      return (balance.avail, write balance)
    else
      let withdrawn ← Word.checkedNeg delta
      let balance := (Balance.withdraw withdrawn.toUInt64 balance).2
      return (balance.avail, write balance)
  else
    let ubs := write (Balance.withdraw current.toUInt64 balance).2
    let shortfall ← Word.checkedNeg expected
    let debtLedger ← addDebt ubs.debtLedger userId assetId shortfall.toUInt64
    return (0, { ubs with debtLedger := debtLedger })

/-! ## What the checked operations say -/

lemma checkedAddSigned_eq_some {x y z : Int64} (h : Word.checkedAddSigned x y = some z) :
    z = x + y ∧ z.toInt = x.toInt + y.toInt := by
  unfold Word.checkedAddSigned at h
  split at h
  · rename_i hfits
    obtain rfl := Option.some.inj h
    exact ⟨rfl, Word.toInt_add_of_fits hfits.1 hfits.2⟩
  · exact absurd h (by simp)

/-- A negation that is returned is the negation. -/
lemma checkedNeg_eq_some {x z : Int64} (h : Word.checkedNeg x = some z) :
    z = -x ∧ z.toInt = -x.toInt := by
  unfold Word.checkedNeg at h
  split at h
  · rename_i hfits
    obtain rfl := Option.some.inj h
    exact ⟨rfl, Word.toInt_neg_of_lt hfits⟩
  · exact absurd h (by simp)

lemma checkedNeg_of_lt {x : Int64} (h : -2 ^ 63 < x.toInt) :
    Word.checkedNeg x = some (-x) := if_pos h

section Debts

variable {l l' : DebtLedger} {u : UInt64} {a : UInt32} {amount : UInt64}

lemma addDebt_eq_some (h : addDebt l u a amount = some l') :
    l' = l.addDebt u a amount ∧ l'.debt u a = l.debt u a + amount.toNat := by
  unfold addDebt at h
  unfold DebtLedger.addDebt DebtLedger.debt
  cases hget : l.debts.get? (u, a) with
  | none =>
      rw [hget] at h
      obtain rfl := Option.some.inj h
      simp
  | some existing =>
      rw [hget] at h
      obtain ⟨sum, hsum, hl⟩ := Option.bind_eq_some_iff.mp h
      obtain rfl := Option.some.inj hl
      have hadd := Word.checkedAdd_eq_some hsum
      unfold Word.checkedAdd at hsum
      split at hsum
      · obtain rfl := Option.some.inj hsum
        simpa using hadd
      · exact absurd hsum (by simp)

lemma addDebt_of_lt (h : l.debt u a + amount.toNat < 2 ^ 64) : (addDebt l u a amount).isSome := by
  unfold addDebt
  unfold DebtLedger.debt at h
  cases hget : l.debts.get? (u, a) with
  | none => rfl
  | some existing =>
      rw [hget] at h
      have hadd := Word.checkedAdd_eq (a := existing) (b := amount) h
      simp only [hadd]
      rfl

end Debts

/-! ## The four ways through the call -/

section Runs

variable {ubs : UBSCore} {u : UInt64} {a : UInt32} {delta : Int64} {eventType : EventType}
  {account : UserAccount} {expected : Int64}

/-- UBSCore after a balance of the account has been written. -/
def stored (ubs : UBSCore) (u : UInt64) (a : UInt32) (account : UserAccount) (b : Balance) :
    UBSCore :=
  { ubs.ensureAccount u with
    accounts := (ubs.ensureAccount u).accounts.insert u (account.writeBalance a b) }

lemma avail_stored (b : Balance) : (stored ubs u a account b).avail u a = b.avail.toNat := by
  simp [stored, UBSCore.avail]

/-- A write that leaves the frozen amount alone leaves it alone everywhere. -/
lemma frozen_stored (hacc : (ubs.ensureAccount u).accounts.get? u = some account) {b : Balance}
    (hfrozen : b.frozen = (account.balanceMut a).frozen) (v : UInt64) (e : UInt32) :
    (stored ubs u a account b).frozen v e = ubs.frozen v e := by
  have hm := @UBSCore.ensured_write_moves ubs u a account hacc b
    (account.balanceMut a).avail.toNat b.avail.toNat hfrozen (Nat.add_comm _ _)
  exact hm.frozen v e

lemma debtLedger_stored (b : Balance) :
    (stored ubs u a account b).debtLedger = ubs.debtLedger :=
  UBSCore.debtLedger_ensureAccount u ubs

variable (hacc : (ubs.ensureAccount u).accounts.get? u = some account)

include hacc

lemma applyBalanceDelta_of_none
    (h : Word.checkedAddSigned (account.balanceMut a).avail.toInt64 delta = none) :
    applyBalanceDelta u a delta eventType ubs = none := by
  simp only [applyBalanceDelta, hacc, Option.getD_some, h]
  rfl

lemma applyBalanceDelta_deposit
    (h : Word.checkedAddSigned (account.balanceMut a).avail.toInt64 delta = some expected)
    (hexpected : expected ≥ 0) (hdelta : delta ≥ 0) :
    applyBalanceDelta u a delta eventType ubs =
      some ((Balance.deposit delta.toUInt64 (account.balanceMut a)).2.avail,
        stored ubs u a account (Balance.deposit delta.toUInt64 (account.balanceMut a)).2) := by
  simp only [applyBalanceDelta, hacc, Option.getD_some, h, Option.bind_eq_bind, Option.bind_some,
    if_pos hexpected, if_pos hdelta]
  rfl

lemma applyBalanceDelta_withdraw
    (h : Word.checkedAddSigned (account.balanceMut a).avail.toInt64 delta = some expected)
    (hexpected : expected ≥ 0) (hdelta : ¬delta ≥ 0) (hneg : -2 ^ 63 < delta.toInt) :
    applyBalanceDelta u a delta eventType ubs =
      some ((Balance.withdraw (-delta).toUInt64 (account.balanceMut a)).2.avail,
        stored ubs u a account (Balance.withdraw (-delta).toUInt64 (account.balanceMut a)).2) := by
  simp only [applyBalanceDelta, hacc, Option.getD_some, h, Option.bind_eq_bind, Option.bind_some,
    if_pos hexpected, if_neg hdelta, checkedNeg_of_lt hneg]
  rfl

lemma applyBalanceDelta_debt
    (h : Word.checkedAddSigned (account.balanceMut a).avail.toInt64 delta = some expected)
    (hexpected : ¬expected ≥ 0) :
    applyBalanceDelta u a delta eventType ubs =
      (Word.checkedNeg expected).bind fun shortfall =>
        (addDebt ubs.debtLedger u a shortfall.toUInt64).bind fun debtLedger =>
          some (0, { stored ubs u a account
              (Balance.withdraw (account.balanceMut a).avail.toInt64.toUInt64
                (account.balanceMut a)).2 with
            debtLedger := debtLedger }) := by
  have hledger := UBSCore.debtLedger_ensureAccount u ubs
  simp only [applyBalanceDelta, hacc, Option.getD_some, h, Option.bind_eq_bind, Option.bind_some,
    if_neg hexpected, hledger]
  rfl

end Runs

/-! ## Where the change is exact -/

/-- An available amount and a debt can show the change: what is left available, or what is owed, is
a word. -/
def Representable (avail debt : ℕ) (delta : ℤ) : Prop :=
  avail + delta < 2 ^ 64 ∧ debt - (avail + delta) < 2 ^ 64

/-- The call does what it is for: what the user has, less what the user owes, changes by `delta`,
the shortfall and nothing else becomes a debt, nothing frozen is touched, and the new amount is
returned; what cannot be shown changes nothing. -/
structure Applies (ubs : UBSCore) (u : UInt64) (a : UInt32) (delta : Int64) (returned : UInt64)
    (ubs' : UBSCore) : Prop where
  returned : returned.toNat = ubs'.avail u a
  frozen : ∀ v b, ubs'.frozen v b = ubs.frozen v b
  exact : Representable (ubs.avail u a) (ubs.debtLedger.debt u a) delta.toInt →
    (ubs'.avail u a : ℤ) - ubs'.debtLedger.debt u a =
      ubs.avail u a - ubs.debtLedger.debt u a + delta.toInt
  shortfall : Representable (ubs.avail u a) (ubs.debtLedger.debt u a) delta.toInt →
    (ubs'.debtLedger.debt u a : ℤ) =
      ubs.debtLedger.debt u a + max 0 (-(ubs.avail u a + delta.toInt))
  unchanged : ¬Representable (ubs.avail u a) (ubs.debtLedger.debt u a) delta.toInt → ubs' = ubs

/-- The available amount and the result fit `i64`, and the debt fits `u64`; or the result exceeds
`u64`, where the deposit is refused. -/
def InRange (avail debt : ℕ) (delta : ℤ) : Prop :=
  (avail < 2 ^ 63 ∧ -2 ^ 63 < avail + delta ∧ avail + delta < 2 ^ 63 ∧
      debt - (avail + delta) < 2 ^ 64) ∨
    2 ^ 64 ≤ avail + delta

section Exactness

variable (ubs : UBSCore) (u : UInt64) (a : UInt32) (delta : Int64) (eventType : EventType)

lemma debt_lt (l : DebtLedger) (u : UInt64) (a : UInt32) : l.debt u a < 2 ^ 64 := by
  unfold DebtLedger.debt
  rcases l.debts.get? (u, a) with _ | amount
  · exact Nat.two_pow_pos 64
  · exact amount.toNat_lt

variable {ubs u a delta} {account : UserAccount} {expected : Int64}

/-- A result that fits `i64` and is not negative becomes the available amount. -/
lemma applies_of_nonneg (hacc : (ubs.ensureAccount u).accounts.get? u = some account)
    (havail : (account.balanceMut a).avail.toNat = ubs.avail u a) (hlt : ubs.avail u a < 2 ^ 63)
    (hlow : 0 ≤ ubs.avail u a + delta.toInt) (hhigh : ubs.avail u a + delta.toInt < 2 ^ 63) :
    ∃ returned ubs', applyBalanceDelta u a delta eventType ubs = some (returned, ubs') ∧
      Applies ubs u a delta returned ubs' := by
  have hcur : (account.balanceMut a).avail.toInt64.toInt = ubs.avail u a := by
    rw [Word.toInt_toInt64 (by omega), havail]
  have hsum : Word.checkedAddSigned (account.balanceMut a).avail.toInt64 delta =
      some ((account.balanceMut a).avail.toInt64 + delta) := if_pos (by rw [hcur]; omega)
  have hexpected : (account.balanceMut a).avail.toInt64 + delta ≥ 0 := by
    rw [ge_iff_le, Int64.le_iff_toInt_le, (checkedAddSigned_eq_some hsum).2, hcur]
    exact hlow
  have hdebt := debt_lt ubs.debtLedger u a
  -- a balance `b` in which the frozen amount is the same, and the available one has changed by
  -- `delta`
  have hstored : ∀ b : Balance, b.frozen = (account.balanceMut a).frozen →
      (b.avail.toNat : ℤ) = ubs.avail u a + delta.toInt →
        Applies ubs u a delta b.avail (stored ubs u a account b) := by
    intro b hfrozen hb
    refine ⟨(avail_stored b).symm, frozen_stored hacc hfrozen, fun _ => ?_, fun _ => ?_, ?_⟩
    · rw [avail_stored, debtLedger_stored, hb]
      omega
    · rw [debtLedger_stored]
      omega
    · intro hnot
      exact absurd (show Representable _ _ _ from ⟨by omega, by omega⟩) hnot
  by_cases hdelta : delta ≥ 0
  · have hpos : 0 ≤ delta.toInt := Int64.le_iff_toInt_le.mp hdelta
    have hcast := Word.toNat_toUInt64 hpos
    obtain ⟨b, hop, hb, hfrozen⟩ := @Balance.deposit_ok delta.toUInt64 (account.balanceMut a)
      (by omega)
    refine ⟨_, _, applyBalanceDelta_deposit hacc hsum hexpected hdelta, ?_⟩
    rw [hop]
    exact hstored b hfrozen (by omega)
  · have hneg : delta.toInt < 0 := by
      have := mt Int64.le_iff_toInt_le.mpr hdelta
      exact not_le.mp this
    have htoInt := Word.toInt_neg_of_lt (x := delta) (by omega)
    have hcast := Word.toNat_toUInt64 (x := -delta) (by omega)
    obtain ⟨b, hop, hb, hfrozen⟩ := @Balance.withdraw_ok (-delta).toUInt64 (account.balanceMut a)
      (UInt64.le_iff_toNat_le.mpr (by omega))
    refine ⟨_, _, applyBalanceDelta_withdraw hacc hsum hexpected hdelta (by omega), ?_⟩
    rw [hop]
    exact hstored b hfrozen (by omega)

/-- All that is available is taken. -/
lemma withdraw_all (b : Balance) :
    (Balance.withdraw b.avail.toInt64.toUInt64 b).2.avail.toNat = 0 ∧
      (Balance.withdraw b.avail.toInt64.toUInt64 b).2.frozen = b.frozen := by
  rw [UInt64.toUInt64_toInt64]
  obtain ⟨b', hop, havail, hfrozen⟩ := @Balance.withdraw_ok b.avail b (le_refl _)
  rw [hop]
  exact ⟨Nat.add_eq_right.mp havail, hfrozen⟩

/-- Where the `i64` sum is negative, all that is available is taken, and the negated sum becomes a
debt. -/
lemma run_of_neg (hacc : (ubs.ensureAccount u).accounts.get? u = some account)
    (hsum : Word.checkedAddSigned (account.balanceMut a).avail.toInt64 delta = some expected)
    (hneg : expected.toInt < 0) {r : UInt64 × UBSCore}
    (hrun : applyBalanceDelta u a delta eventType ubs = some r) :
    -2 ^ 63 < expected.toInt ∧ r.1 = 0 ∧ r.2.avail u a = 0 ∧
      (∀ v b, r.2.frozen v b = ubs.frozen v b) ∧
      (r.2.debtLedger.debt u a : ℤ) = ubs.debtLedger.debt u a - expected.toInt := by
  have hnot : ¬expected ≥ 0 := mt Int64.le_iff_toInt_le.mp (not_le.mpr hneg)
  rw [applyBalanceDelta_debt hacc hsum hnot] at hrun
  obtain ⟨shortfall, hshortfall, hrun⟩ := Option.bind_eq_some_iff.mp hrun
  obtain ⟨l, hl, hrun⟩ := Option.bind_eq_some_iff.mp hrun
  obtain rfl := Option.some.inj hrun
  have htoInt := (checkedNeg_eq_some hshortfall).2
  have hcast := Word.toNat_toUInt64 (x := shortfall) (by omega)
  have hdebt := (addDebt_eq_some hl).2
  have hlt := shortfall.toInt_lt
  obtain ⟨hall, hfrozen⟩ := withdraw_all (account.balanceMut a)
  refine ⟨by omega, rfl, (avail_stored _).trans hall, frozen_stored hacc hfrozen, ?_⟩
  dsimp only
  omega

lemma run_isSome_of_neg (hacc : (ubs.ensureAccount u).accounts.get? u = some account)
    (hsum : Word.checkedAddSigned (account.balanceMut a).avail.toInt64 delta = some expected)
    (hneg : expected.toInt < 0) (hlow : -2 ^ 63 < expected.toInt)
    (hdebt : ubs.debtLedger.debt u a - expected.toInt < 2 ^ 64) :
    ∃ r, applyBalanceDelta u a delta eventType ubs = some r := by
  have hnot : ¬expected ≥ 0 := mt Int64.le_iff_toInt_le.mp (not_le.mpr hneg)
  have htoInt := Word.toInt_neg_of_lt hlow
  have hcast := Word.toNat_toUInt64 (x := -expected) (by omega)
  obtain ⟨l, hl⟩ := Option.isSome_iff_exists.mp
    (@addDebt_of_lt ubs.debtLedger u a (-expected).toUInt64 (by omega))
  rw [applyBalanceDelta_debt hacc hsum hnot, checkedNeg_of_lt hlow, Option.bind_some, hl,
    Option.bind_some]
  exact ⟨_, rfl⟩

/-- A result beyond `u64` is refused by the deposit, and nothing has changed. -/
lemma applies_of_overflow (hacc : (ubs.ensureAccount u).accounts.get? u = some account)
    (havail : (account.balanceMut a).avail.toNat = ubs.avail u a)
    (hover : 2 ^ 64 ≤ ubs.avail u a + delta.toInt) :
    ∃ returned ubs', applyBalanceDelta u a delta eventType ubs = some (returned, ubs') ∧
      Applies ubs u a delta returned ubs' := by
  have hbound := (account.balanceMut a).avail.toNat_lt
  have hmax := delta.toInt_lt
  have hcur := Word.toInt_toInt64_of_ge (a := (account.balanceMut a).avail) (by omega)
  have hsum : Word.checkedAddSigned (account.balanceMut a).avail.toInt64 delta =
      some ((account.balanceMut a).avail.toInt64 + delta) := if_pos (by rw [hcur]; omega)
  have hexpected : (account.balanceMut a).avail.toInt64 + delta ≥ 0 := by
    rw [ge_iff_le, Int64.le_iff_toInt_le, (checkedAddSigned_eq_some hsum).2, hcur,
      Int64.toInt_zero]
    omega
  have hdelta : delta ≥ 0 := by
    rw [ge_iff_le, Int64.le_iff_toInt_le, Int64.toInt_zero]
    omega
  have hcast := Word.toNat_toUInt64 (x := delta) (by omega)
  have hrefused : Balance.deposit delta.toUInt64 (account.balanceMut a) =
      (.error "Deposit overflow", account.balanceMut a) := by
    rcases Balance.deposit_cases delta.toUInt64 (account.balanceMut a) with ⟨-, heq⟩ | ⟨hfits, -⟩
    · exact heq
    · omega
  -- the balance is there, since something is available
  have hget : account.getBalance a = some (account.balanceMut a) := by
    have hpos : 0 < (account.balanceMut a).avail.toNat := by omega
    unfold UserAccount.balanceMut at hpos ⊢
    generalize account.getBalance a = b? at hpos ⊢
    rcases b? with _ | b
    · exact absurd hpos (lt_irrefl 0)
    · rfl
  have hensured : ubs.ensureAccount u = ubs := by
    rw [UBSCore.ensureAccount, if_pos]
    rw [Option.isSome_iff_ne_none]
    intro hnone
    have hzero : ubs.avail u a = 0 := by
      rw [UBSCore.avail, hnone]
      rfl
    omega
  have hsame : stored ubs u a account (account.balanceMut a) = ubs := by
    rw [hensured] at hacc
    rw [stored, hensured, UserAccount.writeBalance_self hget, HashMap.insert_self hacc]
  refine ⟨_, _, applyBalanceDelta_deposit hacc hsum hexpected hdelta, ?_⟩
  rw [hrefused, hsame]
  refine ⟨havail, fun _ _ => rfl, fun h => ?_, fun h => ?_, fun _ => rfl⟩
  · exact absurd h.1 (not_lt.mpr hover)
  · exact absurd h.1 (not_lt.mpr hover)

end Exactness

/-- **Where `apply_balance_delta` is exact.**  The call returns, without a sum or a negation leaving
its type, and has done what it is for, iff the change is in range. -/
theorem applyBalanceDelta_exact_iff (u : UInt64) (a : UInt32) (delta : Int64)
    (eventType : EventType) (ubs : UBSCore) :
    (∃ returned ubs', applyBalanceDelta u a delta eventType ubs = some (returned, ubs') ∧
        Applies ubs u a delta returned ubs') ↔
      InRange (ubs.avail u a) (ubs.debtLedger.debt u a) delta.toInt := by
  obtain ⟨account, hacc⟩ := UBSCore.exists_account (UBSCore.ensureAccount_moves u ubs).2
  have havail := UBSCore.avail_ensureAccount u ubs u a
  rw [UBSCore.avail_of_some hacc] at havail
  have hbound := (account.balanceMut a).avail.toNat_lt
  have hdebt := debt_lt ubs.debtLedger u a
  have hmin := delta.le_toInt
  have hmax := delta.toInt_lt
  -- no result where the sum leaves `i64`
  have hnone : ∀ sum : ℤ, (account.balanceMut a).avail.toInt64.toInt + delta.toInt = sum →
      ¬(-2 ^ 63 ≤ sum ∧ sum < 2 ^ 63) → applyBalanceDelta u a delta eventType ubs = none := by
    rintro _ rfl hout
    exact applyBalanceDelta_of_none hacc (if_neg hout)
  have hsome : ∀ sum : ℤ, (account.balanceMut a).avail.toInt64.toInt + delta.toInt = sum →
      -2 ^ 63 ≤ sum ∧ sum < 2 ^ 63 →
        ∃ expected, Word.checkedAddSigned (account.balanceMut a).avail.toInt64 delta =
          some expected ∧ expected.toInt = sum := by
    rintro _ rfl hin
    have hchecked : Word.checkedAddSigned (account.balanceMut a).avail.toInt64 delta =
        some ((account.balanceMut a).avail.toInt64 + delta) := if_pos hin
    exact ⟨_, hchecked, (checkedAddSigned_eq_some hchecked).2⟩
  by_cases hsmall : ubs.avail u a < 2 ^ 63
  · have hcur : (account.balanceMut a).avail.toInt64.toInt = ubs.avail u a := by
      rw [Word.toInt_toInt64 (by omega), havail]
    rw [hcur] at hnone hsome
    rcases lt_or_ge (ubs.avail u a + delta.toInt : ℤ) (2 ^ 63) with hhigh | hover
    · rcases lt_or_ge (ubs.avail u a + delta.toInt) 0 with hneg | hnonneg
      · obtain ⟨expected, hsum, hexpected⟩ := hsome _ rfl ⟨by omega, hhigh⟩
        constructor
        · rintro ⟨returned, ubs', hrun, -⟩
          obtain ⟨hlow, -, -, -, hledger⟩ := run_of_neg eventType hacc hsum (by omega) hrun
          have hdebt' := debt_lt ubs'.debtLedger u a
          dsimp only at hledger
          exact .inl ⟨hsmall, by omega, hhigh, by omega⟩
        · rintro (⟨-, hlow, -, hfits⟩ | hover)
          · obtain ⟨⟨returned, ubs'⟩, hrun⟩ := run_isSome_of_neg eventType hacc hsum (by omega)
              (by omega) (by omega)
            obtain ⟨-, hreturned, hzero, hfrozen, hledger⟩ :=
              run_of_neg eventType hacc hsum (by omega) hrun
            dsimp only at hreturned hzero hfrozen hledger
            refine ⟨returned, ubs', hrun, ?_, hfrozen, fun _ => ?_, fun _ => ?_, fun hnot => ?_⟩
            · rw [hreturned, hzero]
              rfl
            · rw [hzero, hledger]
              omega
            · omega
            · exact absurd (show Representable _ _ _ from ⟨by omega, by omega⟩) hnot
          · omega
      · exact iff_of_true (applies_of_nonneg eventType hacc havail hsmall hnonneg hhigh)
          (.inl ⟨hsmall, by omega, hhigh, by omega⟩)
    · rw [hnone _ rfl (by omega)]
      refine iff_of_false (fun h => ?_) (fun h => ?_)
      · obtain ⟨returned, ubs', hrun, -⟩ := h
        exact absurd hrun (by simp)
      · rcases h with h | h <;> omega
  · have hcur := Word.toInt_toInt64_of_ge (a := (account.balanceMut a).avail) (by omega)
    rw [hcur, havail] at hnone hsome
    rcases lt_or_ge (ubs.avail u a + delta.toInt : ℤ) (2 ^ 64) with hfits | hover
    · refine iff_of_false ?_ (fun h => by rcases h with h | h <;> omega)
      rintro ⟨returned, ubs', hrun, happlies⟩
      rcases lt_or_ge (ubs.avail u a + delta.toInt : ℤ) (2 ^ 63) with hlow | hhigh
      · rw [hnone _ rfl (by omega)] at hrun
        exact absurd hrun (by simp)
      · -- the whole balance is taken, and a debt is made where there is no shortfall
        obtain ⟨expected, hsum, hexpected⟩ := hsome _ rfl (by omega)
        obtain ⟨-, -, -, -, hledger⟩ := run_of_neg eventType hacc hsum (by omega) hrun
        have hshortfall := happlies.shortfall ⟨by omega, by omega⟩
        dsimp only at hledger
        omega
    · exact iff_of_true (applies_of_overflow eventType hacc havail hover) (.inr hover)

/-- User 1 has `2 ^ 63 + 1` units of asset 7 available, and owes nothing. -/
def largeBalance : UBSCore :=
  { UBSCore.new with
    accounts := HashMap.empty.insert 1 ⟨1, [(7, ⟨0x8000000000000001, 0, 1⟩)]⟩ }

/-- A change by nothing takes it all, and leaves a debt. -/
theorem largeBalance_lost :
    ¬∀ (u : UInt64) (a : UInt32) (delta : Int64) (eventType : EventType) (ubs : UBSCore),
      ∃ returned ubs', applyBalanceDelta u a delta eventType ubs = some (returned, ubs') ∧
        Applies ubs u a delta returned ubs' := by
  intro h
  obtain ⟨returned, ubs', hrun, happlies⟩ := h 1 7 0 .deposit largeBalance
  have hdebt : (applyBalanceDelta 1 7 0 .deposit largeBalance).map
      (fun r => r.2.debtLedger.debt 1 7) = some (2 ^ 63 - 1) := by decide +kernel
  rw [hrun, Option.map_some, Option.some.injEq] at hdebt
  have hnothing : largeBalance.debtLedger.debt 1 7 = 0 := by decide
  have havail : largeBalance.avail 1 7 = 2 ^ 63 + 1 := by decide
  have hzero : (0 : Int64).toInt = 0 := rfl
  have hshortfall := happlies.shortfall
  rw [hnothing, havail, hzero] at hshortfall
  have hfits := hshortfall ⟨by omega, by omega⟩
  dsimp only at hdebt
  omega

end Checked

end ExchangeCore
