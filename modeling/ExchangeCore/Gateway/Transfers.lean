import ExchangeCore.Ubs.Service

/-!
# Transfers through the gateway

`transfer_in` and `transfer_out` (`gateway.rs`) move funds between the funding account of the
gateway and UBSCore.  The two ledgers are in different processes and are updated on both sides of a
message on the balance topic: `transfer_in` locks, publishes and spends; `transfer_out` publishes
and credits.  Nothing is told back, and no branch undoes what was done before it: a publication that
fails leaves the lock of a `transfer_in`, and a withdrawal that UBSCore refuses has been credited.

`TransferSystem` runs any number of requests at once.  A handler gives up control where the source
awaits, so a request is a task that waits for its next part.  The conversion of the amount and the
copy of the balance in the settlement database are not part of the model.

`transfers_conserved` is about the runs in which neither happens, and no balance overflows.
-/

namespace ExchangeCore

/-! ## The funding account -/

structure SimulatedFundingAccount where
  balances : HashMap UInt32 Balance

namespace SimulatedFundingAccount

/-- `new`: the same large amount of three assets. -/
def new : SimulatedFundingAccount :=
  let large := (Balance.deposit 1000000000000000 Balance.default).2
  ⟨((HashMap.empty.insert 1 large).insert 2 large).insert 3 large⟩

/-- An operation on the balance of an asset that must be there. -/
def onAsset (assetId : UInt32) (op : Balance → Except String Unit × Balance) (failed : String) :
    Fallible SimulatedFundingAccount String Unit := fun account =>
  match account.balances.get? assetId with
  | none => (.error s!"Asset {assetId} not found in funding account", account)
  | some balance =>
      let r := op balance
      (r.1.mapError (fun e => s!"{failed}: {e}"), ⟨account.balances.insert assetId r.2⟩)

def lock (assetId : UInt32) (amount : UInt64) : Fallible SimulatedFundingAccount String Unit :=
  onAsset assetId (Balance.lock amount) "Lock failed"

def spend (assetId : UInt32) (amount : UInt64) : Fallible SimulatedFundingAccount String Unit :=
  onAsset assetId (Balance.spendFrozen amount) "Spend failed"

/-- `credit`: an overflow is ignored. -/
def credit (assetId : UInt32) (amount : UInt64) (account : SimulatedFundingAccount) :
    SimulatedFundingAccount :=
  let balance := (account.balances.get? assetId).getD Balance.default
  ⟨account.balances.insert assetId (Balance.deposit amount balance).2⟩

/-- The available amount of an asset. -/
def avail (account : SimulatedFundingAccount) (a : UInt32) : ℕ :=
  ((account.balances.get? a).getD Balance.default).avail.toNat

/-- The frozen amount of an asset. -/
def frozen (account : SimulatedFundingAccount) (a : UInt32) : ℕ :=
  ((account.balances.get? a).getD Balance.default).frozen.toNat

/-- All there is of an asset. -/
def total (account : SimulatedFundingAccount) (a : UInt32) : ℕ := account.avail a + account.frozen a

/-- The effect on the account: `release` and `hold` are posted out of and into the frozen amounts,
`spend` and `gain` out of and into the total. -/
structure Moves (account account' : SimulatedFundingAccount)
    (release hold spend gain : UInt32 → ℕ) : Prop where
  frozen : ∀ a, account'.frozen a + release a = account.frozen a + hold a
  total : ∀ a, account'.total a + spend a = account.total a + gain a

variable {account : SimulatedFundingAccount} {a : UInt32} {amount : UInt64}

lemma Moves.refl (account : SimulatedFundingAccount) : Moves account account 0 0 0 0 :=
  ⟨fun _ => rfl, fun _ => rfl⟩

/-- The balance of one asset is replaced. -/
lemma moves_insert {b : Balance} (hb : (account.balances.get? a).getD Balance.default = b)
    (b' : Balance) (release hold spend gain : ℕ)
    (hfrozen : b'.frozen.toNat + release = b.frozen.toNat + hold)
    (htotal : b'.avail.toNat + b'.frozen.toNat + spend = b.avail.toNat + b.frozen.toNat + gain) :
    Moves account ⟨account.balances.insert a b'⟩ (assetPosting a release) (assetPosting a hold)
      (assetPosting a spend) (assetPosting a gain) := by
  constructor
  · intro c
    by_cases hc : c = a
    · subst hc
      simp only [SimulatedFundingAccount.frozen, HashMap.get?_insert, if_true, Option.getD_some, hb,
        assetPosting_self]
      exact hfrozen
    · simp only [SimulatedFundingAccount.frozen, HashMap.get?_insert, if_neg hc, assetPosting]
  · intro c
    by_cases hc : c = a
    · subst hc
      simp only [SimulatedFundingAccount.total, SimulatedFundingAccount.avail,
        SimulatedFundingAccount.frozen, HashMap.get?_insert, if_true, Option.getD_some, hb,
        assetPosting_self]
      exact htotal
    · simp only [SimulatedFundingAccount.total, SimulatedFundingAccount.avail,
        SimulatedFundingAccount.frozen, HashMap.get?_insert, if_neg hc, assetPosting]

/-- A lock freezes the amount, or fails and changes nothing, unless the frozen amount overflows. -/
lemma lock_cases (hfits : amount.toNat ≤ account.avail a →
      account.frozen a + amount.toNat < 2 ^ 64) :
    ((lock a amount account).1.isOk = true ∧
        Moves account (lock a amount account).2 0 (assetPosting a amount.toNat) 0 0) ∨
      ((lock a amount account).1.isOk = false ∧
        Moves account (lock a amount account).2 0 0 0 0) := by
  cases hget : account.balances.get? a with
  | none =>
      right
      simp only [lock, onAsset, hget]
      exact ⟨rfl, Moves.refl account⟩
  | some b =>
      have hb : (account.balances.get? a).getD Balance.default = b := by rw [hget, Option.getD_some]
      simp only [avail, frozen, hb] at hfits
      by_cases hle : amount ≤ b.avail
      · left
        have hlen := UInt64.le_iff_toNat_le.mp hle
        obtain ⟨b', hop, havail, hfrozen⟩ := Balance.lock_ok hle (hfits hlen)
        have hm := moves_insert hb b' 0 amount.toNat 0 0 (by omega) (by omega)
        simp only [lock, onAsset, hget, hop]
        rw [assetPosting_zero] at hm
        exact ⟨rfl, hm⟩
      · right
        have hop := Balance.lock_refused (not_le.mp hle)
        have hm := moves_insert hb b 0 0 0 0 rfl rfl
        simp only [lock, onAsset, hget, hop]
        rw [assetPosting_zero] at hm
        exact ⟨rfl, hm⟩

/-- What is frozen can be spent. -/
lemma spend_moves (hle : amount.toNat ≤ account.frozen a) :
    Moves account (spend a amount account).2 (assetPosting a amount.toNat) 0
      (assetPosting a amount.toNat) 0 := by
  cases hget : account.balances.get? a with
  | none =>
      -- nothing is frozen, so nothing is to be spent
      have hzero : amount.toNat = 0 := by
        simp only [frozen, hget, Option.getD_none] at hle
        exact Nat.le_zero.mp hle
      simp only [spend, onAsset, hget, hzero, assetPosting_zero]
      exact Moves.refl account
  | some b =>
      have hb : (account.balances.get? a).getD Balance.default = b := by rw [hget, Option.getD_some]
      simp only [frozen, hb] at hle
      obtain ⟨b', hop, havail, hfrozen⟩ := Balance.spendFrozen_ok (UInt64.le_iff_toNat_le.mpr hle)
      have hm := moves_insert hb b' amount.toNat 0 amount.toNat 0 (by omega) (by rw [havail]; omega)
      simp only [spend, onAsset, hget, hop]
      rw [assetPosting_zero] at hm
      exact hm

/-- A credit that does not overflow arrives. -/
lemma credit_moves (hfits : account.avail a + amount.toNat < 2 ^ 64) :
    Moves account (credit a amount account) 0 0 0 (assetPosting a amount.toNat) := by
  obtain ⟨b', hop, havail, hfrozen⟩ := @Balance.deposit_ok amount
    ((account.balances.get? a).getD Balance.default) hfits
  have hm := @moves_insert account a _ rfl b' 0 0 0 amount.toNat (by rw [hfrozen])
    (by rw [hfrozen]; omega)
  simp only [credit, hop]
  rw [assetPosting_zero] at hm
  exact hm

end SimulatedFundingAccount

/-! ## Requests -/

/-- The error codes of the two handlers. -/
inductive StatusCode
  | badRequest
  | internalServerError
  deriving DecidableEq, Repr

/-- The rest of a request that is being handled. -/
inductive TransferTask
  /-- `transfer_in` has locked the funds and goes on to publish. -/
  | publishIn (userId : UInt64) (assetId : UInt32) (amount : UInt64)
  /-- `transfer_in` has published and goes on to spend. -/
  | spend (requestId : UInt64) (assetId : UInt32) (amount : UInt64)
  /-- `transfer_out` has published and goes on to credit. -/
  | credit (requestId : UInt64) (assetId : UInt32) (amount : UInt64)
  deriving DecidableEq, Repr

/-- The gateway, the balance topic and the service. -/
structure TransferSystem where
  fundingAccount : SimulatedFundingAccount
  tasks : List TransferTask
  /-- The requests that were published and are not delivered yet. -/
  topic : List BalanceRequest
  service : BalanceService

namespace TransferSystem

/-- What may happen next; a number names a task or a request on the topic.  The id and the timestamp
of a request come from the generator and the clock, and `ok` tells whether the publication
succeeds, `sent` whether that of the event of the service does. -/
inductive Action
  | transferIn (userId : UInt64) (assetId : UInt32) (amount : UInt64)
  | publishIn (k : ℕ) (requestId timestamp : UInt64) (ok : Bool)
  | spend (k : ℕ)
  | transferOut (userId : UInt64) (assetId : UInt32) (amount requestId timestamp : UInt64)
      (ok : Bool)
  | credit (k : ℕ)
  | deliver (k : ℕ) (clock : UInt64) (sent : Bool)

/-- The answer to a request that has been handled: the id it was given, or an error. -/
abbrev Reply := Option (Except StatusCode UInt64)

/-- One action. -/
def step (s : TransferSystem) : Action → TransferSystem × Reply
  | .transferIn userId assetId amount =>
      match SimulatedFundingAccount.lock assetId amount s.fundingAccount with
      | (.error _, account) => ({ s with fundingAccount := account }, some (.error .badRequest))
      | (.ok (), account) =>
          ({ s with
              fundingAccount := account
              tasks := s.tasks ++ [.publishIn userId assetId amount] }, none)
  | .publishIn k requestId timestamp ok =>
      match s.tasks[k]? with
      | some (.publishIn userId assetId amount) =>
          if ok then
            ({ s with
                tasks := s.tasks.eraseIdx k ++ [.spend requestId assetId amount]
                topic := s.topic ++ [.transferIn requestId userId assetId amount timestamp] }, none)
          else
            -- the lock is not rolled back
            ({ s with tasks := s.tasks.eraseIdx k }, some (.error .internalServerError))
      | _ => (s, none)
  | .spend k =>
      match s.tasks[k]? with
      | some (.spend requestId assetId amount) =>
          ({ s with
              fundingAccount := (s.fundingAccount.spend assetId amount).2
              tasks := s.tasks.eraseIdx k }, some (.ok requestId))
      | _ => (s, none)
  | .transferOut userId assetId amount requestId timestamp ok =>
      if ok then
        ({ s with
            tasks := s.tasks ++ [.credit requestId assetId amount]
            topic := s.topic ++ [.transferOut requestId userId assetId amount timestamp] }, none)
      else (s, some (.error .internalServerError))
  | .credit k =>
      match s.tasks[k]? with
      | some (.credit requestId assetId amount) =>
          ({ s with
              fundingAccount := s.fundingAccount.credit assetId amount
              tasks := s.tasks.eraseIdx k }, some (.ok requestId))
      | _ => (s, none)
  | .deliver k clock sent =>
      match s.topic[k]? with
      | some request =>
          ({ s with
              topic := s.topic.eraseIdx k
              service := s.service.onBalanceRequest clock sent request }, none)
      | none => (s, none)

/-- The system as a machine. -/
def machine : Machine TransferSystem Action Reply := ⟨step⟩

/-- No request is being handled or waits on the topic. -/
def start (account : SimulatedFundingAccount) (service : BalanceService) : TransferSystem :=
  ⟨account, [], [], service⟩

/-- Nothing is in flight. -/
def Drained (s : TransferSystem) : Prop := s.tasks = [] ∧ s.topic = []

/-- What a delivered request finds: the balance a deposit is added to does not overflow, and a
withdrawal is covered. -/
def Honoured (ubs : UBSCore) : BalanceRequest → Prop
  | .transferIn _ userId assetId amount _ =>
      ubs.avail userId assetId + (amount.toNat - ubs.debtLedger.debt userId assetId) < 2 ^ 64
  | .transferOut _ userId assetId amount _ => amount.toNat ≤ ubs.avail userId assetId

/-- No transfer of something is left half done: a publication of `transfer_in` does not fail, a
withdrawal is covered where it is delivered, and no balance overflows. -/
def Safe (s : TransferSystem) : Action → Prop
  | .transferIn _ assetId amount => amount.toNat ≤ s.fundingAccount.avail assetId →
      s.fundingAccount.frozen assetId + amount.toNat < 2 ^ 64
  | .publishIn k _ _ ok => ∀ userId assetId amount,
      s.tasks[k]? = some (.publishIn userId assetId amount) → ok = true ∨ amount = 0
  | .spend _ => True
  | .transferOut .. => True
  | .credit k => ∀ requestId assetId amount,
      s.tasks[k]? = some (.credit requestId assetId amount) →
        s.fundingAccount.avail assetId + amount.toNat < 2 ^ 64
  | .deliver k .. => ∀ request, s.topic[k]? = some request → Honoured s.service.ubs request

/-! ## What is in flight -/

/-- What a task will still add to the funding account. -/
def taskFlow (a : UInt32) : TransferTask → ℤ
  | .publishIn _ _ _ => 0
  | .spend _ assetId amount => -(assetPosting assetId amount.toNat a : ℤ)
  | .credit _ assetId amount => assetPosting assetId amount.toNat a

/-- What a request will add to UBSCore. -/
def requestFlow (a : UInt32) : BalanceRequest → ℤ
  | .transferIn _ _ assetId amount _ => assetPosting assetId amount.toNat a
  | .transferOut _ _ assetId amount _ => -(assetPosting assetId amount.toNat a : ℤ)

/-- What a task holds frozen. -/
def reserved (a : UInt32) : TransferTask → ℕ
  | .publishIn _ assetId amount => assetPosting assetId amount.toNat a
  | .spend _ assetId amount => assetPosting assetId amount.toNat a
  | .credit _ _ _ => 0

/-- Both ledgers together, and what is in flight between them. -/
def net (s : TransferSystem) (a : UInt32) : ℤ :=
  s.fundingAccount.total a + (s.service.ubs.total a - s.service.ubs.debtLedger.owed a) +
    (s.tasks.map (taskFlow a)).sum + (s.topic.map (requestFlow a)).sum

/-- **The invariant**: together there is as much as at the start, and what is frozen is what the
tasks hold. -/
structure Balanced (s₀ s : TransferSystem) : Prop where
  net : ∀ a, s.net a = s₀.net a
  frozen : ∀ a, s.fundingAccount.frozen a = (s.tasks.map (reserved a)).sum

lemma sum_map_eraseIdx {α M : Type} [AddCommMonoid M] {l : List α} {k : ℕ} {x : α}
    (h : l[k]? = some x) (f : α → M) : (l.map f).sum = f x + ((l.eraseIdx k).map f).sum := by
  obtain ⟨hk, rfl⟩ := List.getElem?_eq_some_iff.mp h
  have hperm := List.getElem_cons_eraseIdx_perm hk
  rw [← (hperm.map f).sum_eq, List.map_cons, List.sum_cons]

/-- A request that is honoured changes UBSCore by its flow. -/
lemma net_onBalanceRequest {service : BalanceService} {request : BalanceRequest}
    (h : Honoured service.ubs request) (clock : UInt64) (sent : Bool) (a : UInt32) :
    ((service.onBalanceRequest clock sent request).ubs.total a : ℤ) -
        (service.onBalanceRequest clock sent request).ubs.debtLedger.owed a =
      service.ubs.total a - service.ubs.debtLedger.owed a + requestFlow a request := by
  cases request with
  | transferIn requestId u b amount timestamp =>
      exact (UBSCore.accounted_deposit u b amount requestId h).net a
  | transferOut requestId u b amount timestamp =>
      have hubs :
          (service.onBalanceRequest clock sent (.transferOut requestId u b amount timestamp)).ubs =
            (service.ubs.onWithdraw u b amount requestId).2 := by
        simp only [BalanceService.onBalanceRequest]
        rcases service.ubs.onWithdraw u b amount requestId with ⟨ok, ubs⟩
        cases ok with
        | true => rfl
        | false => rfl
      -- a withdrawal leaves the debts alone
      have hledger : (service.ubs.onWithdraw u b amount requestId).2.debtLedger =
          service.ubs.debtLedger :=
        congrArg Prod.snd (UBSCore.onWithdraw_keeps UBSCore.beside_tables u b amount requestId _)
      rw [hubs, hledger]
      simp only [requestFlow]
      rcases UBSCore.onWithdraw_cases u b amount requestId service.ubs with ⟨-, hm⟩ | ⟨hno, hm⟩
      · have htotal := hm.total a
        simp only [Pi.zero_apply] at htotal
        omega
      · -- a withdrawal that is covered is refused only if it is of nothing
        have hzero : amount.toNat = 0 := by
          by_contra hpos
          have hne : amount ≠ 0 := by
            rintro rfl
            exact hpos rfl
          have hcov := (BalanceService.covers_iff hne).mpr h
          rw [(UBSCore.userFunds_onWithdraw u b amount requestId service.ubs).1, hcov] at hno
          exact absurd hno (by simp)
        have htotal := hm.total a
        rw [hzero, assetPosting_zero]
        simp only [Pi.zero_apply] at htotal ⊢
        omega

/-! ## Runs -/

section Steps

variable {s₀ s : TransferSystem}

/-- An action that moves nothing in or out, and freezes what the tasks hold. -/
lemma Balanced.next (h : Balanced s₀ s) {account : SimulatedFundingAccount}
    {tasks : List TransferTask} {topic : List BalanceRequest} {service : BalanceService}
    (hnet : ∀ a, (account.total a : ℤ) + (service.ubs.total a - service.ubs.debtLedger.owed a) +
        (tasks.map (taskFlow a)).sum + (topic.map (requestFlow a)).sum =
      s.fundingAccount.total a + (s.service.ubs.total a - s.service.ubs.debtLedger.owed a) +
        (s.tasks.map (taskFlow a)).sum + (s.topic.map (requestFlow a)).sum)
    (hfrozen : ∀ a, account.frozen a + (s.tasks.map (reserved a)).sum =
      s.fundingAccount.frozen a + (tasks.map (reserved a)).sum) :
    Balanced s₀ ⟨account, tasks, topic, service⟩ := by
  refine ⟨fun a => (hnet a).trans (h.net a), fun a => ?_⟩
  have hsum := h.frozen a
  have hnext := hfrozen a
  dsimp only
  omega

lemma Balanced.transferIn (h : Balanced s₀ s) {u : UInt64} {b : UInt32} {amount : UInt64}
    (hsafe : Safe s (.transferIn u b amount)) :
    Balanced s₀ (s.step (.transferIn u b amount)).1 := by
  have hcases := SimulatedFundingAccount.lock_cases hsafe
  simp only [TransferSystem.step]
  rcases hlock : SimulatedFundingAccount.lock b amount s.fundingAccount with ⟨r, account⟩
  rw [hlock] at hcases
  cases r with
  | error e =>
      rcases hcases with ⟨hok, -⟩ | ⟨-, hm⟩
      · exact absurd hok (by simp)
      refine h.next (fun a => ?_) (fun a => ?_)
      · have htotal := hm.total a
        simp only [Pi.zero_apply, Nat.add_zero] at htotal
        rw [htotal]
      · have hfrozen := hm.frozen a
        simp only [Pi.zero_apply, Nat.add_zero] at hfrozen
        rw [hfrozen]
  | ok _ =>
      rcases hcases with ⟨-, hm⟩ | ⟨hno, -⟩
      · refine h.next (fun a => ?_) (fun a => ?_)
        · have htotal := hm.total a
          simp only [Pi.zero_apply, Nat.add_zero] at htotal
          simp only [htotal, List.map_append, List.map_singleton, List.sum_append,
            List.sum_singleton, taskFlow, add_zero]
        · have hfrozen := hm.frozen a
          simp only [Pi.zero_apply, Nat.add_zero] at hfrozen
          simp only [List.map_append, List.map_singleton, List.sum_append, List.sum_singleton,
            reserved]
          omega
      · exact absurd hno (by simp)

lemma Balanced.publishIn (h : Balanced s₀ s) {k : ℕ} {requestId timestamp : UInt64} {ok : Bool}
    (hsafe : Safe s (.publishIn k requestId timestamp ok)) :
    Balanced s₀ (s.step (.publishIn k requestId timestamp ok)).1 := by
  simp only [TransferSystem.step]
  split
  · rename_i u b amount htask
    split
    · refine h.next (fun a => ?_) (fun a => ?_)
      · simp only [sum_map_eraseIdx htask (taskFlow a), List.map_append, List.map_singleton,
          List.sum_append, List.sum_singleton, taskFlow, requestFlow]
        omega
      · simp only [sum_map_eraseIdx htask (reserved a), List.map_append, List.map_singleton,
          List.sum_append, List.sum_singleton, reserved]
        omega
    · rename_i hfailed
      -- what stays locked is nothing
      obtain rfl : amount = 0 := (hsafe u b amount htask).resolve_left hfailed
      refine h.next (fun a => ?_) (fun a => ?_)
      · simp only [sum_map_eraseIdx htask (taskFlow a), taskFlow, zero_add]
      · simp only [sum_map_eraseIdx htask (reserved a), reserved, UInt64.toNat_zero,
          assetPosting_zero, Pi.zero_apply, zero_add]
  · exact h

lemma Balanced.spend (h : Balanced s₀ s) (k : ℕ) : Balanced s₀ (s.step (.spend k)).1 := by
  simp only [TransferSystem.step]
  split
  · rename_i requestId b amount htask
    -- the task has its amount frozen
    have hle : amount.toNat ≤ s.fundingAccount.frozen b := by
      rw [h.frozen b, sum_map_eraseIdx htask (reserved b)]
      simp only [reserved, assetPosting_self]
      exact Nat.le_add_right _ _
    have hm := SimulatedFundingAccount.spend_moves hle
    refine h.next (fun a => ?_) (fun a => ?_)
    · have htotal := hm.total a
      simp only [Pi.zero_apply, Nat.add_zero] at htotal
      simp only [sum_map_eraseIdx htask (taskFlow a), taskFlow]
      omega
    · have hfrozen := hm.frozen a
      simp only [Pi.zero_apply, Nat.add_zero] at hfrozen
      simp only [sum_map_eraseIdx htask (reserved a), reserved]
      omega
  · exact h

lemma Balanced.transferOut (h : Balanced s₀ s) (u : UInt64) (b : UInt32)
    (amount requestId timestamp : UInt64) (ok : Bool) :
    Balanced s₀ (s.step (.transferOut u b amount requestId timestamp ok)).1 := by
  simp only [TransferSystem.step]
  split
  · refine h.next (fun a => ?_) (fun a => ?_)
    · simp only [List.map_append, List.map_singleton, List.sum_append, List.sum_singleton, taskFlow,
        requestFlow]
      omega
    · simp only [List.map_append, List.map_singleton, List.sum_append, List.sum_singleton, reserved,
        add_zero]
  · exact h

lemma Balanced.credit (h : Balanced s₀ s) {k : ℕ} (hsafe : Safe s (.credit k)) :
    Balanced s₀ (s.step (.credit k)).1 := by
  simp only [TransferSystem.step]
  split
  · rename_i requestId b amount htask
    have hm := SimulatedFundingAccount.credit_moves (hsafe requestId b amount htask)
    refine h.next (fun a => ?_) (fun a => ?_)
    · have htotal := hm.total a
      simp only [Pi.zero_apply, Nat.add_zero] at htotal
      simp only [sum_map_eraseIdx htask (taskFlow a), taskFlow]
      omega
    · have hfrozen := hm.frozen a
      simp only [Pi.zero_apply, Nat.add_zero] at hfrozen
      simp only [sum_map_eraseIdx htask (reserved a), reserved, zero_add, hfrozen]
  · exact h

lemma Balanced.deliver (h : Balanced s₀ s) {k : ℕ} {clock : UInt64} {sent : Bool}
    (hsafe : Safe s (.deliver k clock sent)) : Balanced s₀ (s.step (.deliver k clock sent)).1 := by
  simp only [TransferSystem.step]
  split
  · rename_i request hrequest
    refine h.next (fun a => ?_) (fun a => rfl)
    have hnet := net_onBalanceRequest (hsafe request hrequest) clock sent a
    rw [sum_map_eraseIdx hrequest (requestFlow a)]
    omega
  · exact h

/-- **Every safe action keeps the balance.** -/
lemma Balanced.step (h : Balanced s₀ s) {action : Action} (hsafe : Safe s action) :
    Balanced s₀ (s.step action).1 := by
  cases action with
  | transferIn u b amount => exact h.transferIn hsafe
  | publishIn k requestId timestamp ok => exact h.publishIn hsafe
  | spend k => exact h.spend k
  | transferOut u b amount requestId timestamp ok =>
      exact h.transferOut u b amount requestId timestamp ok
  | credit k => exact h.credit hsafe
  | deliver k clock sent => exact h.deliver hsafe

lemma Balanced.run (actions : List Action) (h : Balanced s₀ s)
    (hsafe : machine.AllSteps Safe s actions) : Balanced s₀ (machine.run s actions) := by
  have hthrough : machine.Throughout (Balanced s₀) s actions := by
    refine Machine.throughout_of_allSteps (fun s action hbalanced haction => ?_) h hsafe
    exact Balanced.step hbalanced haction
  exact hthrough.run

end Steps

/-- **Conservation across the two ledgers.**  Take any run of transfers in and out, with the parts
of the handlers, the publications and the deliveries in any order.  If every action is safe and
nothing is in flight at the end, the funding account and UBSCore have together what they had at the
start, asset by asset, and nothing is left frozen in the funding account. -/
theorem transfers_conserved (account : SimulatedFundingAccount) (service : BalanceService)
    (hfrozen : ∀ a, account.frozen a = 0) (actions : List Action)
    (hsafe : machine.AllSteps Safe (start account service) actions)
    (hdrained : Drained (machine.run (start account service) actions)) (a : UInt32) :
    ((machine.run (start account service) actions).fundingAccount.total a : ℤ) +
          (machine.run (start account service) actions).service.ubs.total a -
        (machine.run (start account service) actions).service.ubs.debtLedger.owed a =
      account.total a + service.ubs.total a - service.ubs.debtLedger.owed a ∧
    (machine.run (start account service) actions).fundingAccount.frozen a = 0 := by
  have hstart : Balanced (start account service) (start account service) :=
    ⟨fun _ => rfl, hfrozen⟩
  have hend := hstart.run actions hsafe
  obtain ⟨htasks, htopic⟩ := hdrained
  constructor
  · have hnet := hend.net a
    simp only [net, htasks, htopic, List.map_nil, List.sum_nil] at hnet
    simp only [start, List.map_nil, List.sum_nil] at hnet ⊢
    omega
  · rw [hend.frozen a, htasks, List.map_nil, List.sum_nil]

/-- A service that knows no user yet. -/
def empty : BalanceService := ⟨UBSCore.new, none⟩

lemma frozen_new (a : UInt32) : SimulatedFundingAccount.new.frozen a = 0 := by
  simp only [SimulatedFundingAccount.new, SimulatedFundingAccount.frozen, HashMap.get?_insert]
  split
  · rfl
  split
  · rfl
  split
  · rfl
  · rfl

/-- User 1 transfers 100 units of asset 1 in, and 40 of them out again. -/
def inAndOut : List Action :=
  [.transferIn 1 1 100, .publishIn 0 7 0 true, .deliver 0 0 true, .spend 0,
    .transferOut 1 1 40 8 0 true, .credit 0, .deliver 0 0 true]

/-- Of asset 1 there is as much as before. -/
theorem transfers_conserved_inAndOut :
    Drained (machine.run (start .new empty) inAndOut) ∧
      ((machine.run (start .new empty) inAndOut).fundingAccount.total 1 : ℤ) +
            (machine.run (start .new empty) inAndOut).service.ubs.total 1 -
          (machine.run (start .new empty) inAndOut).service.ubs.debtLedger.owed 1 =
        SimulatedFundingAccount.new.total 1 + empty.ubs.total 1 - empty.ubs.debtLedger.owed 1 := by
  have hdrained : Drained (machine.run (start .new empty) inAndOut) := ⟨by decide, by decide⟩
  refine ⟨hdrained, (transfers_conserved .new empty frozen_new inAndOut ?_ hdrained 1).1⟩
  refine ⟨fun _ => by decide, fun _ _ _ _ => Or.inl rfl, ?_, trivial, trivial, ?_, ?_, trivial⟩
  · intro request hrequest
    obtain rfl := Option.some.inj (hrequest.symm.trans
      (show _ = some (.transferIn 7 1 1 100 0) by decide))
    show UBSCore.avail _ 1 1 + (_ - DebtLedger.debt _ 1 1) < 2 ^ 64
    decide
  · intro requestId assetId amount htask
    obtain ⟨-, rfl, rfl⟩ := TransferTask.credit.inj (Option.some.inj (htask.symm.trans
      (show _ = some (TransferTask.credit 8 1 40) by decide)))
    decide
  · intro request hrequest
    obtain rfl := Option.some.inj (hrequest.symm.trans
      (show _ = some (.transferOut 8 1 1 40 0) by decide))
    show _ ≤ UBSCore.avail _ 1 1
    decide

/-- A `transfer_out` of 100 units of asset 1 for user 1. -/
def uncoveredTransferOut : List Action :=
  [.transferOut 1 1 100 8 0 true, .deliver 0 0 true, .credit 0]

/-- A publication of `transfer_in` that fails leaves the funds frozen, and a `transfer_out` of a
user who has nothing creates its amount in the funding account. -/
theorem half_done_transfers :
    (Drained (machine.run (start .new empty) [.transferIn 1 1 100, .publishIn 0 7 0 false]) ∧
      (machine.run (start .new empty)
        [.transferIn 1 1 100, .publishIn 0 7 0 false]).fundingAccount.frozen 1 ≠ 0) ∧
    Drained (machine.run (start .new empty) uncoveredTransferOut) ∧
      ((machine.run (start .new empty) uncoveredTransferOut).fundingAccount.total 1 : ℤ) +
            (machine.run (start .new empty) uncoveredTransferOut).service.ubs.total 1 -
          (machine.run (start .new empty) uncoveredTransferOut).service.ubs.debtLedger.owed 1 ≠
        SimulatedFundingAccount.new.total 1 + empty.ubs.total 1 - empty.ubs.debtLedger.owed 1 := by
  refine ⟨⟨⟨by decide, by decide⟩, by decide⟩, ⟨by decide, by decide⟩, by decide⟩

end TransferSystem

end ExchangeCore
