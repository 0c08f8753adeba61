import ExchangeCore.Ubs.Handler
import ExchangeCore.Ubs.Funds

/-!
# Debts

The debt ledger (`debt.rs`) beyond the repayment, and the two functions of UBSCore that make and
read debts (`core.rs`): `apply_balance_delta` records what a negative balance change exceeds the
available amount by, and `can_withdraw` refuses a user with any debt.

`owed l a` is all that is owed in an asset.  A ledger that keeps no record of nothing (`NoZero`)
tells exactly who owes something (`hasDebt_iff`), and every operation keeps it that way as long as
no record overflows.
-/

namespace ExchangeCore

inductive EventType
  | tradeSettle
  | orderFee
  | liquidation
  | staleSpeculative
  | deposit
  | orderUnlock
  | withdraw
  deriving DecidableEq, Repr

namespace DebtLedger

def hasDebt (l : DebtLedger) (userId : UInt64) : Bool :=
  decide (∃ key ∈ l.debts.keys, key.1 = userId)

/-- `add_debt`, by the amount of the record. -/
def addDebt (l : DebtLedger) (userId : UInt64) (assetId : UInt32) (amount : UInt64) : DebtLedger :=
  match l.debts.get? (userId, assetId) with
  | some existing => ⟨l.debts.insert (userId, assetId) (existing + amount)⟩
  | none => ⟨l.debts.insert (userId, assetId) amount⟩

/-- What a user owes in an asset. -/
def debt (l : DebtLedger) (u : UInt64) (a : UInt32) : ℕ :=
  (l.debts.get? (u, a)).elim 0 UInt64.toNat

/-- All that is owed in an asset. -/
def owed (l : DebtLedger) (a : UInt32) : ℕ :=
  l.debts.sumEntries (fun key amount => assetPosting key.2 amount.toNat a)

/-- No record of a debt of nothing is kept. -/
def NoZero (l : DebtLedger) : Prop := ∀ key, l.debts.get? key ≠ some 0

variable {l : DebtLedger} {u : UInt64} {a : UInt32} {amount : UInt64}

lemma debt_le_owed (l : DebtLedger) (u : UInt64) (a : UInt32) : l.debt u a ≤ l.owed a := by
  have h := l.debts.elim_le_sumEntries (u, a) (fun key amount => assetPosting key.2 amount.toNat a)
  simp only [assetPosting_self] at h
  exact h

lemma hasDebt_iff (h : l.NoZero) (u : UInt64) : l.hasDebt u = true ↔ ∃ a, 0 < l.debt u a := by
  simp only [hasDebt, decide_eq_true_eq, HashMap.mem_keys]
  constructor
  · rintro ⟨⟨v, a⟩, hkey, rfl⟩
    obtain ⟨amount, hamount⟩ := Option.isSome_iff_exists.mp hkey
    have hne : amount ≠ 0 := fun hzero => h (v, a) (hzero ▸ hamount)
    refine ⟨a, ?_⟩
    rw [debt, hamount]
    exact (Word.pos_iff amount).mp (UInt64.pos_iff_ne_zero.mpr hne)
  · rintro ⟨a, hpos⟩
    refine ⟨(u, a), ?_, rfl⟩
    rw [Option.isSome_iff_ne_none]
    intro hnone
    rw [debt, hnone] at hpos
    exact absurd hpos (lt_irrefl 0)

/-! ## Repayment -/

/-- A payment goes to the debt first: what is paid off and what is left of the payment. -/
lemma payDebt_toNat (l : DebtLedger) (u : UInt64) (a : UInt32) (amount : UInt64) :
    (l.payDebt u a amount).1.toNat = amount.toNat - l.debt u a ∧
      (l.payDebt u a amount).2.debt u a = l.debt u a - amount.toNat := by
  unfold payDebt debt
  cases hd : l.debts.get? (u, a) with
  | none => simp [hd]
  | some d =>
      have hleft : (amount - min amount d).toNat = amount.toNat - d.toNat := by
        rw [UInt64.toNat_sub_of_le _ _ (min_le_left ..), Word.toNat_min]
        omega
      have hdebt : (d - min amount d).toNat = d.toNat - amount.toNat := by
        rw [UInt64.toNat_sub_of_le _ _ (min_le_right ..), Word.toNat_min]
        omega
      refine ⟨hleft, ?_⟩
      simp only
      split
      · rename_i hzero
        rw [hzero] at hdebt
        simpa using hdebt
      · simpa using hdebt

/-- The debts are reduced by what was paid. -/
lemma owed_payDebt (l : DebtLedger) (u : UInt64) (a : UInt32) (amount : UInt64) (b : UInt32) :
    (l.payDebt u a amount).2.owed b + assetPosting a (min amount.toNat (l.debt u a)) b =
      l.owed b := by
  have hspec := (payDebt_toNat l u a amount).2
  unfold payDebt debt at hspec ⊢
  cases hd : l.debts.get? (u, a) with
  | none => simp
  | some d =>
      simp only [hd] at hspec ⊢
      split at hspec
      · rename_i hzero
        rw [if_pos hzero]
        have hsum := l.debts.sumEntries_erase (u, a)
          (fun key amount => assetPosting key.2 amount.toNat b)
        simp only [HashMap.get?_erase, if_true, Option.elim_none, hd, Option.elim_some]
          at hspec hsum ⊢
        have hmin : min amount.toNat d.toNat = d.toNat := by omega
        rw [hmin]
        exact hsum
      · rename_i hzero
        rw [if_neg hzero]
        have hsum := l.debts.sumEntries_insert (u, a) (d - min amount d)
          (fun key amount => assetPosting key.2 amount.toNat b)
        simp only [HashMap.get?_insert, if_true, hd, Option.elim_some] at hspec hsum ⊢
        simp only [owed, assetPosting] at hsum ⊢
        split_ifs at hsum ⊢ <;> omega

lemma NoZero.payDebt (h : l.NoZero) : (l.payDebt u a amount).2.NoZero := by
  unfold DebtLedger.payDebt
  cases hd : l.debts.get? (u, a) with
  | none => exact h
  | some d =>
      intro key
      by_cases hzero : d - min amount d = 0
      · simp only [hzero, if_true, HashMap.get?_erase]
        split
        · simp
        · exact h key
      · simp only [hzero, if_false, HashMap.get?_insert]
        split
        · exact fun heq => hzero (Option.some.inj heq)
        · exact h key

/-! ## New debts -/

/-- What is owed grows by the record. -/
lemma owed_addDebt (h : l.debt u a + amount.toNat < 2 ^ 64) (b : UInt32) :
    (l.addDebt u a amount).owed b = l.owed b + assetPosting a amount.toNat b := by
  unfold addDebt debt at *
  cases hd : l.debts.get? (u, a) with
  | none =>
      have hsum := l.debts.sumEntries_insert (u, a) amount
        (fun key amount => assetPosting key.2 amount.toNat b)
      rw [hd] at hsum
      exact hsum
  | some existing =>
      rw [hd] at h
      have hsum := l.debts.sumEntries_insert (u, a) (existing + amount)
        (fun key amount => assetPosting key.2 amount.toNat b)
      rw [hd] at hsum
      have hadd : (existing + amount).toNat = existing.toNat + amount.toNat :=
        Word.toNat_add_of_lt h
      simp only [owed, Option.elim_some, assetPosting, hadd] at hsum ⊢
      split_ifs at hsum ⊢ <;> omega

lemma NoZero.addDebt (h : l.NoZero) (hpos : 0 < amount.toNat)
    (hfit : l.debt u a + amount.toNat < 2 ^ 64) : (l.addDebt u a amount).NoZero := by
  have hinsert : ∀ d : UInt64, d ≠ 0 → NoZero ⟨l.debts.insert (u, a) d⟩ := by
    intro d hd key
    simp only [HashMap.get?_insert]
    split
    · exact fun heq => hd (Option.some.inj heq)
    · exact h key
  unfold DebtLedger.addDebt debt at *
  cases hd : l.debts.get? (u, a) with
  | none =>
      apply hinsert
      rintro rfl
      exact absurd hpos (lt_irrefl 0)
  | some existing =>
      rw [hd] at hfit
      apply hinsert
      intro heq
      have hadd := Word.toNat_add_of_lt hfit
      rw [heq, UInt64.toNat_zero] at hadd
      omega

end DebtLedger

namespace UBSCore

def canWithdraw (ubs : UBSCore) (userId : UInt64) (assetId : UInt32) (amount : UInt64) : Bool :=
  if ubs.debtLedger.hasDebt userId then false
  else
    match ubs.accounts.get? userId with
    | none => false
    | some account =>
        match account.getBalance assetId with
        | none => false
        | some balance => decide (balance.avail ≥ amount)

/-- `apply_balance_delta`.  The event type only decides the reason recorded with a debt. -/
def applyBalanceDelta (userId : UInt64) (assetId : UInt32) (delta : Int64) (_eventType : EventType)
    (ubs : UBSCore) : UInt64 × UBSCore :=
  let ubs := ubs.ensureAccount userId
  -- the account exists by now
  let account := (ubs.accounts.get? userId).getD (UserAccount.new userId)
  let balance := account.balanceMut assetId
  let write (b : Balance) : UBSCore :=
    { ubs with accounts := ubs.accounts.insert userId (account.writeBalance assetId b) }
  let current := balance.avail.toInt64
  let expected := current + delta
  if expected ≥ 0 then
    let balance :=
      if delta ≥ 0 then (Balance.deposit delta.toUInt64 balance).2
      else (Balance.withdraw (-delta).toUInt64 balance).2
    (balance.avail, write balance)
  else
    let ubs := write (Balance.withdraw current.toUInt64 balance).2
    let shortfall := (-expected).toUInt64
    (0, { ubs with debtLedger := ubs.debtLedger.addDebt userId assetId shortfall })

lemma debtLedger_ensureAccount (u : UInt64) (ubs : UBSCore) :
    (ubs.ensureAccount u).debtLedger = ubs.debtLedger := by
  unfold ensureAccount
  split <;> rfl

/-- An account that is created if need be, and then changed in its available amount alone. -/
lemma ensured_write_moves {ubs : UBSCore} {u : UInt64} {a : UInt32} {account : UserAccount}
    (hacc : (ubs.ensureAccount u).accounts.get? u = some account) {b : Balance} {spend gain : ℕ}
    (hfrozen : b.frozen = (account.balanceMut a).frozen)
    (havail : b.avail.toNat + spend = (account.balanceMut a).avail.toNat + gain) :
    Moves ubs { ubs.ensureAccount u with
        accounts := (ubs.ensureAccount u).accounts.insert u (account.writeBalance a b) } 0 0
      (assetPosting a spend) (assetPosting a gain) := by
  have hwrite := @moves_write _ u a account hacc b 0 0 spend gain (by rw [hfrozen]) (by
    rw [hfrozen, funds]
    omega)
  simpa using (ensureAccount_moves u ubs).1.trans hwrite

/-- **A balance change**, in an asset of which less than `2 ^ 63` is around: it is added, or taken
from the available amount, or takes all of that and leaves the rest as a debt. -/
lemma applyBalanceDelta_cases (u : UInt64) (a : UInt32) (delta : Int64) (eventType : EventType)
    (ubs : UBSCore) (h : ubs.total a + delta.toInt.natAbs < 2 ^ 63) :
    (0 ≤ delta.toInt ∧
        Moves ubs (applyBalanceDelta u a delta eventType ubs).2 0 0 0
          (assetPosting a delta.toInt.natAbs) ∧
        (applyBalanceDelta u a delta eventType ubs).2.debtLedger = ubs.debtLedger) ∨
      (delta.toInt < 0 ∧
        Moves ubs (applyBalanceDelta u a delta eventType ubs).2 0 0
          (assetPosting a delta.toInt.natAbs) 0 ∧
        (applyBalanceDelta u a delta eventType ubs).2.debtLedger = ubs.debtLedger) ∨
      ∃ shortfall : UInt64, delta.toInt < 0 ∧ 0 < shortfall.toNat ∧
        ubs.avail u a + shortfall.toNat = delta.toInt.natAbs ∧
        Moves ubs (applyBalanceDelta u a delta eventType ubs).2 0 0
          (assetPosting a (ubs.avail u a)) 0 ∧
        (applyBalanceDelta u a delta eventType ubs).2.debtLedger =
          ubs.debtLedger.addDebt u a shortfall := by
  obtain ⟨account, hacc⟩ := exists_account (ensureAccount_moves u ubs).2
  have havail := avail_ensureAccount u ubs u a
  rw [avail_of_some hacc] at havail
  have hle := ubs.avail_le_total u a
  -- the casts and sums are exact in this range
  have hcur : (account.balanceMut a).avail.toInt64.toInt = ubs.avail u a := by
    rw [Word.toInt_toInt64 (by omega), havail]
  have hexp :
      ((account.balanceMut a).avail.toInt64 + delta).toInt = ubs.avail u a + delta.toInt := by
    rw [Word.toInt_add_of_fits (by omega) (by omega), hcur]
  have hledger := debtLedger_ensureAccount u ubs
  simp only [applyBalanceDelta, hacc, Option.getD_some]
  by_cases hnonneg : ((account.balanceMut a).avail.toInt64 + delta) ≥ 0
  · have hsum : 0 ≤ (ubs.avail u a : ℤ) + delta.toInt := by
      have := Int64.le_iff_toInt_le.mp hnonneg
      rwa [hexp] at this
    simp only [if_pos hnonneg]
    by_cases hpos : delta ≥ 0
    · have hdelta : 0 ≤ delta.toInt := Int64.le_iff_toInt_le.mp hpos
      have hcast := Word.toNat_toUInt64 hdelta
      obtain ⟨b, hop, hb, hbf⟩ :=
        @Balance.deposit_ok delta.toUInt64 (account.balanceMut a) (by omega)
      simp only [if_pos hpos, hop]
      refine Or.inl ⟨hdelta, ?_, hledger⟩
      have hm := @ensured_write_moves ubs u a account hacc b 0 delta.toInt.natAbs hbf (by omega)
      rwa [assetPosting_zero] at hm
    · have hdelta : delta.toInt < 0 := by
        have := mt Int64.le_iff_toInt_le.mpr hpos
        exact not_le.mp this
      have hneg : (-delta).toInt = -delta.toInt := Word.toInt_neg_of_lt (by omega)
      have hcast := Word.toNat_toUInt64 (x := -delta) (by omega)
      obtain ⟨b, hop, hb, hbf⟩ := @Balance.withdraw_ok (-delta).toUInt64 (account.balanceMut a)
        (UInt64.le_iff_toNat_le.mpr (by omega))
      simp only [if_neg hpos, hop]
      refine Or.inr (Or.inl ⟨hdelta, ?_, hledger⟩)
      have hm := @ensured_write_moves ubs u a account hacc b delta.toInt.natAbs 0 hbf (by omega)
      rwa [assetPosting_zero] at hm
  · have hsum : (ubs.avail u a : ℤ) + delta.toInt < 0 := by
      have := mt Int64.le_iff_toInt_le.mpr hnonneg
      rw [hexp] at this
      exact not_le.mp this
    have hneg : (-((account.balanceMut a).avail.toInt64 + delta)).toInt =
        -(ubs.avail u a + delta.toInt) := by
      rw [Word.toInt_neg_of_lt (by omega), hexp]
    have hcast := Word.toNat_toUInt64 (x := -((account.balanceMut a).avail.toInt64 + delta))
      (by omega)
    have hall : (account.balanceMut a).avail.toInt64.toUInt64 = (account.balanceMut a).avail :=
      UInt64.toUInt64_toInt64 _
    obtain ⟨b, hop, hb, hbf⟩ := @Balance.withdraw_ok (account.balanceMut a).avail
      (account.balanceMut a) (le_refl _)
    simp only [if_neg hnonneg, hall, hop]
    refine Or.inr (Or.inr ⟨(-((account.balanceMut a).avail.toInt64 + delta)).toUInt64, by omega,
      by omega, by omega, ?_, by rw [hledger]⟩)
    have hm := @ensured_write_moves ubs u a account hacc b (ubs.avail u a) 0 hbf (by omega)
    rw [assetPosting_zero] at hm
    exact ⟨hm.frozen, hm.total, hm.accounts⟩

end UBSCore

end ExchangeCore
