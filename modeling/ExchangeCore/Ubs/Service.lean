import ExchangeCore.Ubs.Conservation

/-!
# The UBSCore service

The balance part of the service loop (`bin/ubscore_aeron_service.rs`): requests from the balance
topic are applied to UBSCore, and what they did is published for settlement.  Withdrawals reach
UBSCore on two ways, as a Withdraw message of `UbsCoreHandler` and as a TransferOut request, and
neither asks `can_withdraw`.

`withdrawals_guarded_iff` says when a run of the service is nevertheless one in which funds are
withdrawn only where `can_withdraw` holds: exactly if no user with a debt asks for a withdrawal the
available amount covers.
-/

namespace ExchangeCore

/-! ## Balance requests -/

inductive BalanceRequest
  | transferIn (requestId userId : UInt64) (assetId : UInt32) (amount timestamp : UInt64)
  | transferOut (requestId userId : UInt64) (assetId : UInt32) (amount timestamp : UInt64)
  deriving DecidableEq, Repr

/-- `engine_output::BalanceEvent`. -/
structure LedgerEvent where
  userId : UInt64
  assetId : UInt32
  seq : UInt64
  deltaAvail : Int64
  deltaFrozen : Int64
  avail : Option UInt64
  frozen : Option UInt64
  eventType : String
  refId : UInt64
  deriving DecidableEq

/-- The state of the service: UBSCore and, if there is a producer, what was published to
`balance.events`. -/
structure BalanceService where
  ubs : UBSCore
  balanceEvents : Option (List LedgerEvent)

def UBSCore.getBalanceFull (ubs : UBSCore) (userId : UInt64) (assetId : UInt32) :
    Option (UInt64 × UInt64) :=
  (ubs.accounts.get? userId).bind (fun account =>
    (account.getBalance assetId).map (fun b => (b.avail, b.frozen)))

namespace BalanceService

/-- Send an event to `balance.events`; whether the send succeeds is not looked at. -/
def publish (sent : Bool) (event : LedgerEvent) (s : BalanceService) : BalanceService :=
  { s with balanceEvents := s.balanceEvents.map (fun es => if sent then es ++ [event] else es) }

/-- A request from the balance topic, at a reading of the wall clock; `sent` says whether the event
gets on the topic, if one is sent. -/
def onBalanceRequest (clock : UInt64) (sent : Bool) (s : BalanceService) :
    BalanceRequest → BalanceService
  | .transferIn requestId userId assetId amount _ =>
      let s := { s with ubs := s.ubs.onDeposit userId assetId amount requestId }
      let balance := (s.ubs.getBalanceFull userId assetId).getD (amount, 0)
      s.publish sent
        { userId := userId, assetId := assetId, seq := clock, deltaAvail := amount.toInt64
          deltaFrozen := 0, avail := some balance.1, frozen := some balance.2
          eventType := "deposit", refId := requestId }
  | .transferOut requestId userId assetId amount _ =>
      match s.ubs.onWithdraw userId assetId amount requestId with
      | (true, ubs) =>
          let s := { s with ubs := ubs }
          let balance := (s.ubs.getBalanceFull userId assetId).getD (0, 0)
          s.publish sent
            { userId := userId, assetId := assetId, seq := clock, deltaAvail := -amount.toInt64
              deltaFrozen := 0, avail := some balance.1, frozen := some balance.2
              eventType := "withdraw", refId := requestId }
      | (false, ubs) => { s with ubs := ubs }

/-- What happens to UBSCore in the service: messages of the handler that move funds, balance
requests, orders, and the operations the engine's reports lead to. -/
inductive Step
  | message (m : UbsMessage)
  | request (req : BalanceRequest) (clock : UInt64) (sent : Bool)
  | order (order : InternalOrder) (clock : UInt64)
  | funds (op : UBSCore.FundsOp)

/-- One step of the service. -/
def step (s : BalanceService) : Step → BalanceService
  | .message m => { s with ubs := (s.ubs.handle m).1 }
  | .request req clock sent => s.onBalanceRequest clock sent req
  | .order order clock => { s with ubs := (UBSCore.validateOrder order clock s.ubs).2 }
  | .funds op => { s with ubs := (op.apply s.ubs).1 }

/-- The service as a machine. -/
def machine : Machine BalanceService Step Unit := ⟨fun s i => (s.step i, ())⟩

/-- The user, asset and amount of a step that is a request to withdraw. -/
def Step.withdrawal : Step → Option (UInt64 × UInt32 × UInt64)
  | .message (.withdraw msg) => some (msg.userId, msg.assetId, msg.amount)
  | .request (.transferOut _ userId assetId amount _) _ _ => some (userId, assetId, amount)
  | _ => none

/-- A request to withdraw takes funds out of the account only if `can_withdraw` held before. -/
def Guarded (s : BalanceService) (i : Step) : Prop :=
  ∀ u a amount, i.withdrawal = some (u, a, amount) →
    (∃ b, (s.step i).ubs.avail u b < s.ubs.avail u b) → s.ubs.canWithdraw u a amount = true

/-- A request to withdraw is of nothing, or not covered, or comes from a user without debts. -/
def Harmless (s : BalanceService) (i : Step) : Prop :=
  ∀ u a amount, i.withdrawal = some (u, a, amount) →
    amount = 0 ∨ s.ubs.avail u a < amount.toNat ∨ s.ubs.debtLedger.hasDebt u = false

/-! ## Withdrawals -/

section Withdrawals

variable {ubs : UBSCore} {u : UInt64} {a : UInt32} {amount : UInt64}

/-- A request for something is covered if as much is available. -/
lemma covers_iff (hpos : amount ≠ 0) :
    ubs.userFunds.covers u a amount = true ↔ amount.toNat ≤ ubs.avail u a := by
  have hpos' : 0 < amount.toNat := (Word.pos_iff amount).mp (UInt64.pos_iff_ne_zero.mpr hpos)
  rw [UBSCore.avail_eq_userFunds, UserFunds.covers]
  cases ubs.userFunds.holdings u with
  | none =>
      simp only [Option.any_none, Option.elim_none]
      constructor
      · intro h
        exact absurd h (by simp)
      · intro h
        omega
  | some h => simp [UInt64.le_iff_toNat_le]

/-- `on_withdraw` takes funds out exactly if it is asked for something that is available. -/
lemma onWithdraw_avail_lt_iff (u : UInt64) (a : UInt32) (amount txId : UInt64) (ubs : UBSCore) :
    (∃ b, (ubs.onWithdraw u a amount txId).2.avail u b < ubs.avail u b) ↔
      amount ≠ 0 ∧ amount.toNat ≤ ubs.avail u a := by
  obtain ⟨-, hfunds⟩ := UBSCore.userFunds_onWithdraw u a amount txId ubs
  simp only [UBSCore.avail_eq_userFunds, hfunds]
  by_cases hzero : amount = 0
  · subst hzero
    simp only [ne_eq, not_true_eq_false, false_and, iff_false, not_exists, not_lt]
    intro b
    split
    · rename_i hcov
      rw [(UserFunds.debit_eq_self_iff hcov).mpr rfl]
    · exact le_refl _
  · -- for a positive amount, `covers` is the comparison with what is available
    have hcov := @covers_iff ubs u a amount hzero
    rw [UBSCore.avail_eq_userFunds] at hcov
    rw [← hcov]
    constructor
    · rintro ⟨b, hlt⟩
      refine ⟨hzero, ?_⟩
      by_contra hnot
      rw [if_neg hnot] at hlt
      exact lt_irrefl _ hlt
    · rintro ⟨-, hc⟩
      have hle := hcov.mp hc
      refine ⟨a, ?_⟩
      rw [if_pos hc]
      cases hh : ubs.userFunds.holdings u with
      | none => simp [UserFunds.covers, hh] at hc
      | some h =>
          have hpos : 0 < amount.toNat :=
            (Word.pos_iff amount).mp (UInt64.pos_iff_ne_zero.mpr hzero)
          rw [hh, Option.elim_some] at hle
          simp only [UserFunds.debit, hh, Function.update_self, Option.map_some, Option.elim_some]
          rw [UInt64.toNat_sub_of_le _ _ (UInt64.le_iff_toNat_le.mpr hle)]
          omega

/-- Where something is asked for that is available, `can_withdraw` is about the debts alone. -/
lemma canWithdraw_iff (hpos : amount ≠ 0) (hcov : amount.toNat ≤ ubs.avail u a) :
    ubs.canWithdraw u a amount = true ↔ ubs.debtLedger.hasDebt u = false := by
  have hpos' : 0 < amount.toNat := (Word.pos_iff amount).mp (UInt64.pos_iff_ne_zero.mpr hpos)
  have hbalance : ∃ account balance, ubs.accounts.get? u = some account ∧
      account.getBalance a = some balance ∧ amount ≤ balance.avail := by
    cases hacc : ubs.accounts.get? u with
    | none =>
        rw [UBSCore.avail, hacc, Option.elim_none] at hcov
        omega
    | some account =>
        rw [UBSCore.avail_of_some hacc, UserAccount.balanceMut] at hcov
        cases hbal : account.getBalance a with
        | none =>
            rw [hbal] at hcov
            have hnone : (none.getD Balance.default : Balance).avail.toNat = 0 := rfl
            omega
        | some balance =>
            rw [hbal, Option.getD_some] at hcov
            exact ⟨account, balance, rfl, hbal, UInt64.le_iff_toNat_le.mpr hcov⟩
  obtain ⟨account, balance, hacc, hbal, hle⟩ := hbalance
  unfold UBSCore.canWithdraw
  cases ubs.debtLedger.hasDebt u with
  | true => simp
  | false => simp [hacc, hbal, hle]

end Withdrawals

/-- Either way, a request to withdraw is `on_withdraw`. -/
lemma step_ubs_of_withdrawal {s : BalanceService} {i : Step} {u : UInt64} {a : UInt32}
    {amount : UInt64} (h : i.withdrawal = some (u, a, amount)) :
    ∃ txId, (s.step i).ubs = (s.ubs.onWithdraw u a amount txId).2 := by
  cases i with
  | message m =>
      cases m with
      | deposit msg => exact absurd h (by simp [Step.withdrawal])
      | withdraw msg =>
          obtain ⟨rfl, rfl, rfl⟩ : msg.userId = u ∧ msg.assetId = a ∧ msg.amount = amount := by
            simpa [Step.withdrawal] using h
          refine ⟨msg.txId, ?_⟩
          simp only [step, UBSCore.handle, UBSCore.handleWithdraw]
          split <;> rename_i heq <;> rw [heq]
  | request req clock sent =>
      cases req with
      | transferIn => exact absurd h (by simp [Step.withdrawal])
      | transferOut requestId v b n ts =>
          obtain ⟨rfl, rfl, rfl⟩ : v = u ∧ b = a ∧ n = amount := by
            simpa [Step.withdrawal] using h
          refine ⟨requestId, ?_⟩
          simp only [step, onBalanceRequest]
          split <;> rename_i heq <;> rw [heq]
          rfl
  | order => exact absurd h (by simp [Step.withdrawal])
  | funds => exact absurd h (by simp [Step.withdrawal])

lemma guarded_iff (s : BalanceService) (i : Step) : Guarded s i ↔ Harmless s i := by
  refine forall_congr' (fun u => forall_congr' (fun a => forall_congr' (fun amount =>
    forall_congr' (fun hreq => ?_))))
  obtain ⟨txId, hstep⟩ := step_ubs_of_withdrawal (s := s) hreq
  rw [hstep, onWithdraw_avail_lt_iff]
  by_cases hpos : amount = 0
  · simp [hpos]
  by_cases hcov : amount.toNat ≤ s.ubs.avail u a
  · rw [canWithdraw_iff hpos hcov]
    simp [hpos, hcov, Nat.not_lt.mpr hcov]
  · simp [hcov, Nat.lt_of_not_le hcov]

/-- **Withdrawals and debts.**  From any state, a run of the service takes funds out of an account
only where `can_withdraw` holds, exactly if no user with a debt requests a withdrawal of something
that is available. -/
theorem withdrawals_guarded_iff (s : BalanceService) (is : List Step) :
    machine.AllSteps Guarded s is ↔ machine.AllSteps Harmless s is := by
  induction is generalizing s with
  | nil => exact Iff.rfl
  | cons i is ih => exact and_congr (guarded_iff s i) (ih _)

/-- A deposit of asset 2, a loss in asset 1 that leaves a debt, and a withdrawal on either way. -/
def indebted : List Step :=
  [.message (.deposit ⟨1, 1, 2, 100⟩), .funds (.balanceDelta 1 1 (-5) .tradeSettle),
    .message (.withdraw ⟨2, 1, 2, 30⟩), .request (.transferOut 3 1 2 30 0) 0 true]

/-- User 1 owes 5 units of asset 1 and takes 30 of the 100 units of asset 2. -/
theorem indebted_user_withdraws :
    ¬machine.AllSteps Guarded ⟨UBSCore.new, none⟩ indebted := by
  rintro ⟨-, -, hguard, -⟩
  exact absurd (hguard 1 2 30 rfl ⟨2, by decide⟩) (by decide)

end BalanceService

end ExchangeCore
