import ExchangeCore.Framework.Machine
import ExchangeCore.Ubs.Core

/-!
# Deposits and withdrawals by message

`UbsCoreHandler` (`ubs_core/comm/ubscore_handler.rs`) as far as it moves funds in and out: a Deposit
or Withdraw message is applied to UBSCore and answered.  The transfer coordinator sends a message
again when its answer is late or lost.

`UserFunds` is what a client can observe of UBSCore, the balances and the debts, and the messages
act on it alone (`userFunds_handle`).  A delivery is compared with the one in which every message
comes once and its copies get the first answer (`Retried`).
-/

namespace ExchangeCore

/-! ## Messages -/

/-- The fields of `DepositMessage` and `WithdrawMessage`. -/
structure FundsMessage where
  txId : UInt64
  userId : UInt64
  assetId : UInt32
  amount : UInt64
  deriving DecidableEq, Repr

/-- A Deposit or Withdraw message. -/
inductive UbsMessage
  | deposit (msg : FundsMessage)
  | withdraw (msg : FundsMessage)
  deriving DecidableEq, Repr

structure ResponseMessage where
  orderId : UInt64
  accepted : UInt8
  reasonCode : UInt8
  deriving DecidableEq, Repr

namespace ResponseMessage

def accept (orderId : UInt64) : ResponseMessage := ⟨orderId, 1, 0⟩

def reject (orderId : UInt64) (reasonCode : UInt8) : ResponseMessage := ⟨orderId, 0, reasonCode⟩

end ResponseMessage

/-- `reason_codes::INSUFFICIENT_BALANCE`. -/
def INSUFFICIENT_BALANCE : UInt8 := 1

namespace UBSCore

def handleDeposit (msg : FundsMessage) (ubs : UBSCore) : UBSCore × ResponseMessage :=
  (ubs.onDeposit msg.userId msg.assetId msg.amount msg.txId, .accept msg.userId)

def handleWithdraw (msg : FundsMessage) (ubs : UBSCore) : UBSCore × ResponseMessage :=
  match ubs.onWithdraw msg.userId msg.assetId msg.amount msg.txId with
  | (true, ubs) => (ubs, .accept msg.userId)
  | (false, ubs) => (ubs, .reject msg.userId INSUFFICIENT_BALANCE)

/-- The handler on a message that moves funds. -/
def handle (ubs : UBSCore) : UbsMessage → UBSCore × ResponseMessage
  | .deposit msg => handleDeposit msg ubs
  | .withdraw msg => handleWithdraw msg ubs

end UBSCore

/-! ## Funds -/

/-- The funds of the users: the available and the frozen amount of each asset, if the user has an
account, and the debts. -/
@[ext] structure UserFunds where
  holdings : UInt64 → Option (UInt32 → UInt64 × UInt64)
  debt : UInt64 → UInt32 → UInt64

namespace UserFunds

variable (f : UserFunds) (u : UInt64) (a : UInt32) (amount : UInt64)

/-- Credit the available amount, also to a user who had no account.  A credit that overflows is
lost. -/
def credit : UserFunds :=
  let h := (f.holdings u).getD (fun _ => (0, 0))
  { f with
    holdings := Function.update f.holdings u (some (Function.update h a
      ((Word.checkedAdd (h a).1 amount).getD (h a).1, (h a).2))) }

/-- A deposit pays the debt first. -/
def deposit : UserFunds :=
  let paid := min amount (f.debt u a)
  let f' := { f with
    debt := fun v b => if v = u ∧ b = a then f.debt u a - paid else f.debt v b }
  if amount - paid > 0 then f'.credit u a (amount - paid) else f'

/-- The available amount covers a withdrawal. -/
def covers : Bool := (f.holdings u).any (fun h => amount ≤ (h a).1)

/-- A withdrawal that is covered. -/
def debit : UserFunds :=
  { f with
    holdings := Function.update f.holdings u ((f.holdings u).map (fun h =>
      Function.update h a ((h a).1 - amount, (h a).2))) }

/-- The handler, on the funds. -/
def handle : UbsMessage → UserFunds × ResponseMessage
  | .deposit msg => (f.deposit msg.userId msg.assetId msg.amount, .accept msg.userId)
  | .withdraw msg =>
      if f.covers msg.userId msg.assetId msg.amount then
        (f.debit msg.userId msg.assetId msg.amount, .accept msg.userId)
      else (f, .reject msg.userId INSUFFICIENT_BALANCE)

end UserFunds

/-- The amounts of an account. -/
def UserAccount.amounts (account : UserAccount) (a : UInt32) : UInt64 × UInt64 :=
  ((account.balanceMut a).avail, (account.balanceMut a).frozen)

namespace UBSCore

/-- The funds in a UBSCore. -/
def userFunds (ubs : UBSCore) : UserFunds where
  holdings u := (ubs.accounts.get? u).map UserAccount.amounts
  debt u a := (ubs.debtLedger.debts.get? (u, a)).getD 0

variable {ubs : UBSCore} {u : UInt64} {a : UInt32}

@[simp] lemma userFunds_emitEvent (e : BalanceEvent) (ubs : UBSCore) :
    (ubs.emitEvent e).userFunds = ubs.userFunds := rfl

lemma holdings_onBalance (op : Balance → Except String Unit × Balance) (reject : RejectReason)
    {account : UserAccount} (hacc : ubs.accounts.get? u = some account) :
    (onBalance u a op reject ubs).2.userFunds.holdings =
      Function.update ubs.userFunds.holdings u (some (Function.update account.amounts a
        ((op (account.balanceMut a)).2.avail, (op (account.balanceMut a)).2.frozen))) := by
  funext v
  simp only [onBalance, hacc, userFunds, HashMap.get?_insert]
  by_cases hv : v = u
  · subst hv
    rw [if_pos rfl, Function.update_self, Option.map_some]
    congr 1
    funext b
    by_cases hb : b = a
    · subst hb
      simp [UserAccount.amounts]
    · simp [UserAccount.amounts, hb]
  · rw [if_neg hv, Function.update_of_ne hv]

lemma debt_onBalance (op : Balance → Except String Unit × Balance) (reject : RejectReason) :
    (onBalance u a op reject ubs).2.userFunds.debt = ubs.userFunds.debt := by
  unfold onBalance
  split <;> rfl

lemma payDebt_spec (l : DebtLedger) (u : UInt64) (a : UInt32) (amount : UInt64) :
    (l.payDebt u a amount).1 = amount - min amount ((l.debts.get? (u, a)).getD 0) ∧
      ∀ v b, ((l.payDebt u a amount).2.debts.get? (v, b)).getD 0 =
        if v = u ∧ b = a then
          (l.debts.get? (u, a)).getD 0 - min amount ((l.debts.get? (u, a)).getD 0)
        else (l.debts.get? (v, b)).getD 0 := by
  unfold DebtLedger.payDebt
  cases hd : l.debts.get? (u, a) with
  | none =>
      refine ⟨by simp, fun v b => ?_⟩
      by_cases h : v = u ∧ b = a
      · simp [h, hd]
      · simp [h]
  | some debt =>
      refine ⟨rfl, fun v b => ?_⟩
      by_cases h : v = u ∧ b = a
      · obtain ⟨rfl, rfl⟩ := h
        by_cases hzero : debt - min amount debt = 0
        · simp [hzero]
        · simp [hzero]
      · have hne : (v, b) ≠ (u, a) := fun heq => h (Prod.mk.inj heq)
        by_cases hzero : debt - min amount debt = 0
        · simp [hzero, h, hne]
        · simp [hzero, h, hne]

lemma deposit_amounts (amount : UInt64) (b : Balance) :
    (Balance.deposit amount b).2.avail = (Word.checkedAdd b.avail amount).getD b.avail ∧
      (Balance.deposit amount b).2.frozen = b.frozen := by
  unfold Balance.deposit
  cases Word.checkedAdd b.avail amount <;> exact ⟨rfl, rfl⟩

lemma ensureAccount_spec (u : UInt64) (ubs : UBSCore) :
    ∃ account, (ubs.ensureAccount u).accounts.get? u = some account ∧
      account.amounts = (ubs.userFunds.holdings u).getD (fun _ => (0, 0)) ∧
      (∀ x, Function.update (ubs.ensureAccount u).userFunds.holdings u x =
        Function.update ubs.userFunds.holdings u x) ∧
      (ubs.ensureAccount u).userFunds.debt = ubs.userFunds.debt := by
  unfold ensureAccount
  cases hacc : ubs.accounts.get? u with
  | some account => exact ⟨account, hacc, by simp [userFunds, hacc], fun _ => rfl, rfl⟩
  | none =>
      refine ⟨UserAccount.new u, by simp [emitEvent], ?_, fun x => ?_, rfl⟩
      · simp only [userFunds, hacc]
        rfl
      · funext v
        by_cases hv : v = u
        · rw [hv, Function.update_self, Function.update_self]
        · rw [Function.update_of_ne hv, Function.update_of_ne hv]
          show Option.map _ ((ubs.accounts.insert u (UserAccount.new u)).get? v) = _
          rw [HashMap.get?_insert, if_neg hv]
          rfl

lemma userFunds_deposit_ensured (u : UInt64) (a : UInt32) (amount : UInt64) (ubs : UBSCore) :
    (onBalance u a (Balance.deposit amount) .balanceOverflow (ubs.ensureAccount u)).2.userFunds =
      ubs.userFunds.credit u a amount := by
  obtain ⟨account, hacc, hamounts, hholdings, hdebt⟩ := ensureAccount_spec u ubs
  obtain ⟨havail, hfrozen⟩ := deposit_amounts amount (account.balanceMut a)
  apply UserFunds.ext
  · rw [holdings_onBalance _ _ hacc, hholdings, havail, hfrozen, UserFunds.credit, ← hamounts]
    rfl
  · rw [debt_onBalance, hdebt]
    rfl

lemma userFunds_onDeposit (u : UInt64) (a : UInt32) (amount txId : UInt64) (ubs : UBSCore) :
    (ubs.onDeposit u a amount txId).userFunds = ubs.userFunds.deposit u a amount := by
  obtain ⟨hfst, hdebts⟩ := payDebt_spec ubs.debtLedger u a amount
  have hremaining : (ubs.debtLedger.payDebt u a amount).1 =
      amount - min amount (ubs.userFunds.debt u a) := hfst
  have hpaid : ({ ubs with debtLedger := (ubs.debtLedger.payDebt u a amount).2 } :
      UBSCore).userFunds = { ubs.userFunds with
        debt := fun v b => if v = u ∧ b = a then
          ubs.userFunds.debt u a - min amount (ubs.userFunds.debt u a)
          else ubs.userFunds.debt v b } := by
    apply UserFunds.ext
    · rfl
    · funext v b
      exact hdebts v b
  simp only [onDeposit, UserFunds.deposit, ← hpaid, hremaining]
  split
  · rw [userFunds_emitEvent, userFunds_deposit_ensured]
  · rfl

lemma onWithdraw_of_ok {amount txId : UInt64}
    (h : (onBalance u a (Balance.withdraw amount) .insufficientFunds ubs).1 = .ok ()) :
    ubs.onWithdraw u a amount txId =
      (true, emitEvent (.withdrawn txId u a amount)
        (onBalance u a (Balance.withdraw amount) .insufficientFunds ubs).2) := by
  unfold onWithdraw
  split
  · rename_i heq
    rw [heq]
  · rename_i heq
    rw [heq] at h
    cases h

lemma onWithdraw_of_error {amount txId : UInt64} {e : RejectReason}
    (h : (onBalance u a (Balance.withdraw amount) .insufficientFunds ubs).1 = .error e) :
    ubs.onWithdraw u a amount txId =
      (false, (onBalance u a (Balance.withdraw amount) .insufficientFunds ubs).2) := by
  unfold onWithdraw
  split
  · rename_i heq
    rw [heq] at h
    cases h
  · rename_i heq
    rw [heq]

/-- A withdrawal acts on the funds, and is accepted if they cover it. -/
lemma userFunds_onWithdraw (u : UInt64) (a : UInt32) (amount txId : UInt64) (ubs : UBSCore) :
    (ubs.onWithdraw u a amount txId).1 = ubs.userFunds.covers u a amount ∧
      (ubs.onWithdraw u a amount txId).2.userFunds =
        if ubs.userFunds.covers u a amount then ubs.userFunds.debit u a amount
        else ubs.userFunds := by
  cases hacc : ubs.accounts.get? u with
  | none => simp [onWithdraw, onBalance, userFunds, UserFunds.covers, hacc]
  | some account =>
      have hown : ubs.userFunds.holdings u = some account.amounts := by simp [userFunds, hacc]
      by_cases hcov : amount ≤ (account.balanceMut a).avail
      · have hcovers : ubs.userFunds.covers u a amount = true := by
          simp [UserFunds.covers, hown, UserAccount.amounts, hcov]
        have hop : Balance.withdraw amount (account.balanceMut a) =
            (.ok (), { account.balanceMut a with
              avail := (account.balanceMut a).avail - amount }.bump) := by
          rcases Balance.withdraw_cases amount (account.balanceMut a) with ⟨hlt, -⟩ | ⟨-, heq⟩
          · exact absurd hcov (not_le.mpr hlt)
          · exact heq
        have hok : (onBalance u a (Balance.withdraw amount) .insufficientFunds ubs).1 = .ok () := by
          simp [onBalance, hacc, hop, Except.mapError]
        rw [onWithdraw_of_ok hok, hcovers, if_pos rfl]
        refine ⟨rfl, UserFunds.ext ?_ (debt_onBalance _ _)⟩
        rw [userFunds_emitEvent, holdings_onBalance _ _ hacc, hop, UserFunds.debit, hown]
        rfl
      · have hcovers : ubs.userFunds.covers u a amount = false := by
          rw [UserFunds.covers, hown]
          exact decide_eq_false hcov
        have hop := Balance.withdraw_refused (not_le.mp hcov)
        have herror : (onBalance u a (Balance.withdraw amount) .insufficientFunds ubs).1 =
            .error .insufficientFunds := by
          simp [onBalance, hacc, hop, Except.mapError]
        rw [onWithdraw_of_error herror, hcovers, if_neg (by simp)]
        refine ⟨rfl, UserFunds.ext ?_ (debt_onBalance _ _)⟩
        -- what is written back is what was there
        have hsame : Function.update account.amounts a
            ((account.balanceMut a).avail, (account.balanceMut a).frozen) = account.amounts :=
          Function.update_eq_self a account.amounts
        rw [holdings_onBalance _ _ hacc, hop, hsame, ← hown, Function.update_eq_self]

/-- **The handler acts on the funds**, and answers by them. -/
lemma userFunds_handle (ubs : UBSCore) (m : UbsMessage) :
    ((ubs.handle m).1.userFunds, (ubs.handle m).2) = ubs.userFunds.handle m := by
  cases m with
  | deposit msg => exact congrArg (·, ResponseMessage.accept msg.userId) (userFunds_onDeposit ..)
  | withdraw msg =>
      obtain ⟨hanswer, hfunds⟩ :=
        userFunds_onWithdraw msg.userId msg.assetId msg.amount msg.txId ubs
      rcases hw : ubs.onWithdraw msg.userId msg.assetId msg.amount msg.txId with ⟨ok, ubs'⟩
      rw [hw] at hanswer hfunds
      simp only [handle, handleWithdraw, UserFunds.handle, hw]
      cases ok with
      | true => rw [← hanswer] at hfunds ⊢; simp [hfunds]
      | false => rw [← hanswer] at hfunds ⊢; simp [hfunds]

end UBSCore

/-! ## Repeated messages -/

/-- A run of the handler on messages that may be repeated, next to the one in which each message is
delivered once. -/
structure Retried where
  actual : UBSCore
  once : UBSCore
  /-- The messages delivered so far, with the answers to their single delivery. -/
  seen : List (UbsMessage × ResponseMessage)
  /-- Every copy has been answered like the single delivery. -/
  sameAnswers : Bool

namespace Retried

/-- Nothing has been delivered. -/
def start (ubs : UBSCore) : Retried := ⟨ubs, ubs, [], true⟩

/-- The answer to the single delivery of a message that has been delivered. -/
def first (r : Retried) (m : UbsMessage) : Option ResponseMessage :=
  (r.seen.find? (fun e => e.1 = m)).map Prod.snd

/-- One more message. -/
def deliver (r : Retried) (m : UbsMessage) : Retried :=
  let (actual, answer) := r.actual.handle m
  match r.first m with
  | some first => { r with actual := actual, sameAnswers := r.sameAnswers && answer = first }
  | none =>
      let (once, first) := r.once.handle m
      { actual := actual
        once := once
        seen := (m, first) :: r.seen
        sameAnswers := r.sameAnswers && answer = first }

/-- The deliveries as a machine. -/
def machine : Machine Retried UbsMessage Unit := ⟨fun r m => (r.deliver m, ())⟩

/-- The funds and the answers are those of the single deliveries. -/
def ExactlyOnce (r : Retried) : Prop :=
  r.actual.userFunds = r.once.userFunds ∧ r.sameAnswers = true

end Retried

/-- A deposit that would overflow the available amount, and is lost. -/
def UserFunds.overflows (f : UserFunds) (u : UInt64) (a : UInt32) (amount : UInt64) : Bool :=
  (f.holdings u).any (fun h => 2 ^ 64 ≤ (h a).1.toNat + amount.toNat)

/-- A repeated message that does no harm: a deposit of nothing, or one that is lost; a withdrawal
that is refused again, or one of nothing that is accepted again. -/
def UserFunds.Harmless (f : UserFunds) (first : ResponseMessage) : UbsMessage → Prop
  | .deposit msg => msg.amount = 0 ∨
      f.debt msg.userId msg.assetId = 0 ∧ f.overflows msg.userId msg.assetId msg.amount = true
  | .withdraw msg =>
      if f.covers msg.userId msg.assetId msg.amount then
        msg.amount = 0 ∧ first = .accept msg.userId
      else first = .reject msg.userId INSUFFICIENT_BALANCE

namespace UserFunds

variable {f : UserFunds} {u : UInt64} {a : UInt32} {amount : UInt64}

/-- A credit changes the funds unless it is lost. -/
lemma credit_eq_self_iff (hpos : amount ≠ 0) :
    f.credit u a amount = f ↔ f.overflows u a amount = true := by
  have hamount : 0 < amount.toNat := by
    have h := mt UInt64.toNat_inj.mp hpos
    rw [UInt64.toNat_zero] at h
    omega
  cases hh : f.holdings u with
  | none =>
      refine ⟨fun h => ?_, fun h => by simp [overflows, hh] at h⟩
      have hu := congrFun (congrArg UserFunds.holdings h) u
      simp [credit, hh] at hu
  | some h =>
      have hiff : f.overflows u a amount = true ↔ Word.checkedAdd (h a).1 amount = none := by
        simp [overflows, hh, Word.checkedAdd]
      rw [hiff]
      constructor
      · intro heq
        have hu := congrFun (congrArg UserFunds.holdings heq) u
        simp only [credit, hh, Option.getD_some, Function.update_self, Option.some.injEq] at hu
        have ha := congrArg Prod.fst (congrFun hu a)
        rw [Function.update_self] at ha
        cases hadd : Word.checkedAdd (h a).1 amount with
        | none => rfl
        | some sum =>
            have hsum := Word.checkedAdd_eq_some hadd
            rw [hadd] at ha
            obtain rfl : sum = (h a).1 := ha
            omega
      · intro hnone
        apply UserFunds.ext
        · simp only [credit, hh, Option.getD_some, hnone, Option.getD_none, Prod.mk.eta,
            Function.update_eq_self]
          rw [← hh, Function.update_eq_self]
        · rfl

/-- A deposit without effect. -/
lemma deposit_eq_self_iff : f.deposit u a amount = f ↔
    amount = 0 ∨ f.debt u a = 0 ∧ f.overflows u a amount = true := by
  -- if nothing is paid off, the deposit is a credit
  have hpay : min amount (f.debt u a) = 0 →
      f.deposit u a amount = if amount > 0 then f.credit u a amount else f := by
    intro hmin
    have hsame : ({ f with
        debt := fun v b => if v = u ∧ b = a then f.debt u a - min amount (f.debt u a)
          else f.debt v b } : UserFunds) = f := by
      refine UserFunds.ext rfl ?_
      funext v b
      simp only [hmin, UInt64.sub_zero]
      split
      · rename_i h
        rw [h.1, h.2]
      · rfl
    dsimp only [deposit]
    rw [hsame, hmin, UInt64.sub_zero]
  by_cases hamount : amount = 0
  · subst hamount
    rw [hpay (min_eq_left (UInt64.zero_le ..)), if_neg (lt_irrefl _)]
    simp
  · by_cases hdebt : f.debt u a = 0
    · have hpos : amount > 0 := UInt64.pos_iff_ne_zero.mpr hamount
      rw [hpay (by rw [hdebt]; exact min_eq_right (UInt64.zero_le ..)), if_pos hpos,
        credit_eq_self_iff hamount]
      simp [hamount, hdebt]
    · -- a debt is paid off
      refine ⟨fun h => ?_, fun h => absurd h (by simp [hamount, hdebt])⟩
      have hd : (f.deposit u a amount).debt u a = f.debt u a - min amount (f.debt u a) := by
        simp only [deposit]
        split <;> simp [credit]
      rw [h] at hd
      have hnat := congrArg UInt64.toNat hd
      rw [UInt64.toNat_sub_of_le _ _ (min_le_right ..)] at hnat
      have hmin : min amount (f.debt u a) ≠ 0 := by
        rcases min_choice amount (f.debt u a) with hc | hc
        · rwa [hc]
        · rwa [hc]
      have hne := mt UInt64.toNat_inj.mp hmin
      have hle := UInt64.le_iff_toNat_le.mp (min_le_right amount (f.debt u a))
      rw [UInt64.toNat_zero] at hne
      omega

/-- A covered withdrawal without effect. -/
lemma debit_eq_self_iff (hcov : f.covers u a amount = true) :
    f.debit u a amount = f ↔ amount = 0 := by
  cases hh : f.holdings u with
  | none => simp [covers, hh] at hcov
  | some h =>
      have hle : amount ≤ (h a).1 := by simpa [covers, hh] using hcov
      constructor
      · intro heq
        have hu := congrFun (congrArg UserFunds.holdings heq) u
        simp only [debit, hh, Function.update_self, Option.map_some, Option.some.injEq] at hu
        have ha := congrArg Prod.fst (congrFun hu a)
        rw [Function.update_self] at ha
        have hnat := congrArg UInt64.toNat ha
        rw [UInt64.toNat_sub_of_le _ _ hle] at hnat
        have hlen := UInt64.le_iff_toNat_le.mp hle
        apply UInt64.toNat_inj.mp
        rw [UInt64.toNat_zero]
        omega
      · rintro rfl
        refine UserFunds.ext ?_ rfl
        simp only [debit, hh, Option.map_some, UInt64.sub_zero, Prod.mk.eta,
          Function.update_eq_self]
        rw [← hh, Function.update_eq_self]

/-- **The harmless messages** are those that leave the funds alone and are answered as before. -/
lemma handle_eq_iff_harmless {first : ResponseMessage} {m : UbsMessage}
    (hfirst : ∀ msg, m = .deposit msg → first = .accept msg.userId) :
    f.handle m = (f, first) ↔ f.Harmless first m := by
  cases m with
  | deposit msg =>
      rw [handle, Prod.mk.injEq, deposit_eq_self_iff]
      exact and_iff_left (hfirst msg rfl).symm
  | withdraw msg =>
      simp only [handle, Harmless]
      split
      · rename_i hcov
        rw [Prod.mk.injEq, debit_eq_self_iff hcov, eq_comm (b := first)]
      · rw [Prod.mk.injEq, eq_comm (b := first)]
        exact and_iff_right rfl

end UserFunds

namespace Retried

/-- The single deposits that have been delivered were accepted. -/
def DepositsAccepted (r : Retried) : Prop :=
  ∀ e ∈ r.seen, ∀ msg, e.1 = .deposit msg → e.2 = .accept msg.userId

/-- A repeated message is harmless where it arrives. -/
def RepeatHarmless (r : Retried) (m : UbsMessage) : Prop :=
  ∀ first, r.first m = some first → r.actual.userFunds.Harmless first m

lemma DepositsAccepted.deliver {r : Retried} (h : r.DepositsAccepted) (m : UbsMessage) :
    (r.deliver m).DepositsAccepted := by
  unfold Retried.deliver
  cases hfirst : r.first m with
  | some first => exact h
  | none =>
      intro e he msg hmsg
      rcases List.mem_cons.mp he with rfl | he
      · obtain rfl : m = .deposit msg := hmsg
        rfl
      · exact h e he msg hmsg

lemma DepositsAccepted.first {r : Retried} (h : r.DepositsAccepted) {msg : FundsMessage}
    {first : ResponseMessage} (hfirst : r.first (.deposit msg) = some first) :
    first = .accept msg.userId := by
  obtain ⟨e, he, rfl⟩ := Option.map_eq_some_iff.mp hfirst
  have hkey : e.1 = .deposit msg := by simpa using List.find?_some he
  exact h e (List.mem_of_find?_eq_some he) msg hkey

lemma exactlyOnce_deliver_iff {r : Retried} (hacc : r.DepositsAccepted) (h : r.ExactlyOnce)
    (m : UbsMessage) : (r.deliver m).ExactlyOnce ↔ r.RepeatHarmless m := by
  obtain ⟨hfunds, hanswers⟩ := h
  have hactual := UBSCore.userFunds_handle r.actual m
  cases hfirst : r.first m with
  | none =>
      have honce := UBSCore.userFunds_handle r.once m
      rw [hfunds, ← honce] at hactual
      obtain ⟨hf, ha⟩ := Prod.mk.inj hactual
      refine ⟨fun _ first h => by simp [hfirst] at h, fun _ => ⟨?_, ?_⟩⟩
      · simpa [deliver, hfirst] using hf
      · simpa [deliver, hfirst, hanswers] using ha
  | some first =>
      have hiff := UserFunds.handle_eq_iff_harmless (f := r.actual.userFunds) (m := m)
        (fun msg hmsg => hacc.first (hmsg ▸ hfirst))
      have hrepeat : r.RepeatHarmless m ↔ r.actual.userFunds.Harmless first m := by
        simp [RepeatHarmless, hfirst]
      rw [hrepeat, ← hiff, ← hactual, Prod.mk.injEq]
      simp [ExactlyOnce, deliver, hfirst, hanswers, hfunds]

/-- **Exactly once.**  From any state, a run of messages in which some are repeated has at every
point the funds and the answers of single deliveries, exactly if every repeated message is harmless
in the state it arrives in. -/
theorem exactlyOnce_iff (ubs : UBSCore) (ms : List UbsMessage) :
    machine.Throughout ExactlyOnce (start ubs) ms ↔
      machine.AllSteps RepeatHarmless (start ubs) ms :=
  Machine.throughout_iff_allSteps (fun _ m h => DepositsAccepted.deliver h m)
    (fun _ m hacc h => exactlyOnce_deliver_iff hacc h m) (fun _ he => by cases he) ⟨rfl, rfl⟩ ms

/-- A UBSCore whose user 1 has 100 units of asset 2. -/
def funded : UBSCore :=
  { UBSCore.new with accounts := HashMap.empty.insert 1 ⟨1, [(2, ⟨100, 0, 0⟩)]⟩ }

/-- A withdrawal of 30 units whose answer is lost and which is sent again takes 60. -/
theorem withdraw_repeated : ¬machine.Throughout ExactlyOnce (start funded)
    [.withdraw ⟨7, 1, 2, 30⟩, .withdraw ⟨7, 1, 2, 30⟩] := by
  rintro ⟨-, -, hfunds, -⟩
  have hholdings := congrFun (congrArg UserFunds.holdings hfunds) 1
  have hamounts := congrArg (fun h => (h.getD (fun _ => (0, 0))) 2) hholdings
  exact absurd hamounts (by decide)

end Retried

end ExchangeCore
