import ExchangeCore.Ubs.Service

/-!
# The stream of balance events

For every TransferIn and every TransferOut it applies, the service publishes an event to
`balance.events`: the change of the available amount, the amounts after it, and as the sequence
number the reading of the wall clock.  Settlement keeps the events in `balance_ledger`, by user,
asset and sequence number.

The event is built from the request, not from what the request did, and a send that fails is not
noticed.  `stream_faithful_iff` says for which runs the stream is nevertheless a ledger of UBSCore,
from which its available amounts can be replayed: those in which what is transferred in arrives in
full, no amount is too large for the signed delta, the clock moves between two events of one user
and asset, and no event is missing of a request that has moved the available amount.
-/

namespace ExchangeCore

/-! ## Available amounts -/

namespace UserFunds

variable {f : UserFunds} {u : UInt64} {a : UInt32} {amount : UInt64}

/-- The available amount of a user in an asset. -/
def avail (f : UserFunds) (u : UInt64) (a : UInt32) : ℕ :=
  (f.holdings u).elim 0 (fun h => (h a).1.toNat)

lemma avail_lt (f : UserFunds) (u : UInt64) (a : UInt32) : f.avail u a < 2 ^ 64 := by
  unfold avail
  cases f.holdings u with
  | none => exact Nat.two_pow_pos 64
  | some h => exact (h a).1.toNat_lt

/-- A credit arrives in full or not at all. -/
lemma avail_credit (f : UserFunds) (u : UInt64) (a : UInt32) (amount : UInt64) :
    (f.credit u a amount).avail u a =
      if f.avail u a + amount.toNat < 2 ^ 64 then f.avail u a + amount.toNat
      else f.avail u a := by
  have hold : ((f.holdings u).getD (fun _ => (0, 0)) a).1.toNat = f.avail u a := by
    unfold avail
    cases f.holdings u with
    | none => rfl
    | some h => rfl
  simp only [credit, avail, Function.update_self, Option.elim_some]
  change _ = if f.avail u a + amount.toNat < 2 ^ 64 then f.avail u a + amount.toNat
      else f.avail u a
  rw [← hold]
  unfold Word.checkedAdd
  split
  · rename_i hlt
    rw [Option.getD_some, Word.toNat_add_of_lt hlt]
  · rfl

lemma avail_credit_of_ne {v : UInt64} {b : UInt32} (h : ¬(u = v ∧ a = b)) :
    (f.credit u a amount).avail v b = f.avail v b := by
  unfold avail credit
  by_cases hu : v = u
  · subst hu
    have ha : b ≠ a := fun hb => h ⟨rfl, hb.symm⟩
    simp only [Function.update_self, Option.elim_some, Function.update_of_ne ha]
    cases f.holdings v with
    | none => rfl
    | some h => rfl
  · simp only [Function.update_of_ne hu]

/-- What is left of a deposit after the debt arrives, unless the sum overflows. -/
lemma avail_deposit (f : UserFunds) (u : UInt64) (a : UInt32) (amount : UInt64) :
    (f.deposit u a amount).avail u a =
      if f.avail u a + (amount.toNat - (f.debt u a).toNat) < 2 ^ 64 then
        f.avail u a + (amount.toNat - (f.debt u a).toNat)
      else f.avail u a := by
  have hleft : (amount - min amount (f.debt u a)).toNat = amount.toNat - (f.debt u a).toNat := by
    rw [UInt64.toNat_sub_of_le _ _ (min_le_left ..), Word.toNat_min]
    omega
  simp only [deposit]
  split
  · rw [avail_credit, hleft]
    rfl
  · rename_i hzero
    have hnone := mt (Word.pos_iff _).mpr hzero
    rw [hleft] at hnone
    have hlt := f.avail_lt u a
    rw [if_pos (by omega)]
    show f.avail u a = _
    omega

lemma avail_deposit_of_ne {v : UInt64} {b : UInt32} (h : ¬(u = v ∧ a = b)) :
    (f.deposit u a amount).avail v b = f.avail v b := by
  simp only [deposit]
  split
  · rw [avail_credit_of_ne h]
    rfl
  · rfl

/-- A covered withdrawal takes its amount. -/
lemma avail_debit (hcov : f.covers u a amount = true) :
    amount.toNat ≤ f.avail u a ∧
      (f.debit u a amount).avail u a = f.avail u a - amount.toNat := by
  unfold covers at hcov
  cases hh : f.holdings u with
  | none =>
      rw [hh] at hcov
      exact absurd hcov (by simp)
  | some h =>
      have hle : amount ≤ (h a).1 := by simpa [hh] using hcov
      have hle' := UInt64.le_iff_toNat_le.mp hle
      simp only [avail, debit, hh, Function.update_self, Option.map_some, Option.elim_some]
      exact ⟨hle', UInt64.toNat_sub_of_le _ _ hle⟩

lemma avail_debit_of_ne {v : UInt64} {b : UInt32} (h : ¬(u = v ∧ a = b)) :
    (f.debit u a amount).avail v b = f.avail v b := by
  unfold avail debit
  by_cases hu : v = u
  · subst hu
    have ha : b ≠ a := fun hb => h ⟨rfl, hb.symm⟩
    simp only [Function.update_self]
    cases f.holdings v with
    | none => rfl
    | some h => simp only [Option.map_some, Option.elim_some, Function.update_of_ne ha]
  · simp only [Function.update_of_ne hu]

end UserFunds

namespace UBSCore

lemma avail_userFunds (ubs : UBSCore) (u : UInt64) (a : UInt32) :
    ubs.userFunds.avail u a = ubs.avail u a := (ubs.avail_eq_userFunds u a).symm

lemma debt_userFunds (ubs : UBSCore) (u : UInt64) (a : UInt32) :
    (ubs.userFunds.debt u a).toNat = ubs.debtLedger.debt u a := by
  simp only [userFunds, DebtLedger.debt]
  cases ubs.debtLedger.debts.get? (u, a) with
  | none => rfl
  | some debt => rfl

/-- `get_balance_full` reports the amounts; where there is no balance, what stands in for it is
right if it is nothing. -/
lemma getBalanceFull_getD (ubs : UBSCore) (u : UInt64) (a : UInt32) {x : UInt64}
    (h : x = 0 ∨ ubs.avail u a ≠ 0) :
    ((ubs.getBalanceFull u a).getD (x, 0)).1.toNat = ubs.avail u a ∧
      ((ubs.getBalanceFull u a).getD (x, 0)).2.toNat = ubs.frozen u a := by
  unfold getBalanceFull avail frozen at *
  cases hacc : ubs.accounts.get? u with
  | none =>
      obtain rfl : x = 0 := h.resolve_right (by simp [hacc])
      exact ⟨rfl, rfl⟩
  | some account =>
      simp only [hacc, Option.elim_some, Option.bind_some, UserAccount.balanceMut] at h ⊢
      cases hbal : account.getBalance a with
      | none =>
          obtain rfl : x = 0 := h.resolve_right (by rw [hbal]; exact fun hne => hne rfl)
          exact ⟨rfl, rfl⟩
      | some b => exact ⟨rfl, rfl⟩

end UBSCore

/-! ## The stream as a ledger -/

/-- The primary key of `balance_ledger`. -/
def LedgerEvent.key (e : LedgerEvent) : UInt64 × UInt32 × UInt64 := (e.userId, e.assetId, e.seq)

/-- What the events of a user and an asset add up to. -/
def replay (u : UInt64) (a : UInt32) (es : List LedgerEvent) : ℤ :=
  ((es.filter (fun e => e.userId = u ∧ e.assetId = a)).map (fun e => e.deltaAvail.toInt)).sum

/-- An event says what happened to the account it is about: the change of the available amount, and
the amounts after it. -/
structure Records (before after : UBSCore) (e : LedgerEvent) : Prop where
  delta : e.deltaAvail.toInt =
    (after.avail e.userId e.assetId : ℤ) - before.avail e.userId e.assetId
  avail : e.avail.map UInt64.toNat = some (after.avail e.userId e.assetId)
  frozen : e.frozen.map UInt64.toNat = some (after.frozen e.userId e.assetId)

namespace BalanceService

/-- What was published to `balance.events`. -/
def published (s : BalanceService) : List LedgerEvent := s.balanceEvents.getD []

/-- A request from the balance topic, the reading of the clock, and whether its event is sent. -/
structure ReceivedRequest where
  request : BalanceRequest
  clock : UInt64
  sent : Bool

/-- A turn of the service that takes a request from the balance topic. -/
def receive (s : BalanceService) (r : ReceivedRequest) : BalanceService :=
  s.onBalanceRequest r.clock r.sent r.request

/-- The service taking requests from the balance topic. -/
def transfers : Machine BalanceService ReceivedRequest Unit := ⟨fun s r => (s.receive r, ())⟩

/-- Whatever a request publishes records what it did. -/
def Recorded (s : BalanceService) (r : ReceivedRequest) : Prop :=
  ∀ e ∈ (s.receive r).published.drop s.published.length, Records s.ubs (s.receive r).ubs e

/-- The keys are distinct, and the sequence numbers of a user and an asset increase. -/
def Keyed (s : BalanceService) : Prop :=
  (s.published.map LedgerEvent.key).Nodup ∧
    s.published.Pairwise (fun d e => d.userId = e.userId → d.assetId = e.assetId → d.seq < e.seq)

/-- Replaying the stream from `ubs` gives the available amounts. -/
def Replays (ubs : UBSCore) (s : BalanceService) : Prop :=
  ∀ u a, (s.ubs.avail u a : ℤ) = ubs.avail u a + replay u a s.published

/-- The clock has moved since the last event of a user and an asset. -/
def Later (s : BalanceService) (u : UInt64) (a : UInt32) (clock : UInt64) : Prop :=
  ∀ e ∈ s.published, e.userId = u → e.assetId = a → e.seq < clock

/-- A request whose event is right: what comes in is nothing, or it meets no debt, fits the signed
delta and does not overflow the available amount; what goes out, if it is covered, fits the signed
delta; and the clock has moved.  If no event is sent, there is nothing to record: what comes in goes
to the debt or overflows, what goes out is nothing or is not covered. -/
def Plain (s : BalanceService) : ReceivedRequest → Prop
  | ⟨.transferIn _ u a amount _, clock, true⟩ =>
      (amount = 0 ∨ s.ubs.debtLedger.debt u a = 0 ∧ amount.toNat < 2 ^ 63 ∧
        s.ubs.avail u a + amount.toNat < 2 ^ 64) ∧ s.Later u a clock
  | ⟨.transferIn _ u a amount _, _, false⟩ =>
      amount.toNat ≤ s.ubs.debtLedger.debt u a ∨
        2 ^ 64 ≤ s.ubs.avail u a + (amount.toNat - s.ubs.debtLedger.debt u a)
  | ⟨.transferOut _ u a amount _, clock, true⟩ =>
      s.ubs.userFunds.covers u a amount = true → amount.toNat ≤ 2 ^ 63 ∧ s.Later u a clock
  | ⟨.transferOut _ u a amount _, _, false⟩ =>
      s.ubs.userFunds.covers u a amount = true → amount = 0

/-! ## One event -/

lemma replay_append (u : UInt64) (a : UInt32) (es : List LedgerEvent) (e : LedgerEvent) :
    replay u a (es ++ [e]) =
      replay u a es + if e.userId = u ∧ e.assetId = a then e.deltaAvail.toInt else 0 := by
  unfold replay
  rw [List.filter_append, List.map_append, List.sum_append]
  by_cases h : e.userId = u ∧ e.assetId = a
  · simp [h]
  · simp [h]

/-- Sequence numbers that increase make the keys distinct. -/
lemma keyed_iff (s : BalanceService) : s.Keyed ↔
    s.published.Pairwise
      (fun d e => d.userId = e.userId → d.assetId = e.assetId → d.seq < e.seq) := by
  refine and_iff_right_of_imp (fun hseq => ?_)
  rw [List.Nodup, List.pairwise_map]
  apply hseq.imp
  intro d e hlt hkey
  obtain ⟨hu, ha, hs⟩ : d.userId = e.userId ∧ d.assetId = e.assetId ∧ d.seq = e.seq := by
    simpa [LedgerEvent.key] using hkey
  exact lt_irrefl _ (hs ▸ hlt hu ha)

/-- From `s` to `s'` one event is published, and only the account it is about changes. -/
structure Publishes (s s' : BalanceService) (e : LedgerEvent) : Prop where
  published : s'.published = s.published ++ [e]
  elsewhere : ∀ v b, ¬(e.userId = v ∧ e.assetId = b) → s'.ubs.avail v b = s.ubs.avail v b

section Publishes

variable {s s' : BalanceService} {e : LedgerEvent} {ubs : UBSCore}

lemma Publishes.keyed_iff (h : Publishes s s' e) (hkeyed : s.Keyed) :
    s'.Keyed ↔ s.Later e.userId e.assetId e.seq := by
  rw [BalanceService.keyed_iff] at hkeyed ⊢
  rw [h.published, List.pairwise_append]
  constructor
  · rintro ⟨-, -, hlast⟩ d hd hu ha
    exact hlast d hd e (List.mem_singleton_self e) hu ha
  · intro hlater
    refine ⟨hkeyed, List.pairwise_singleton .., ?_⟩
    intro d hd e' he' hu ha
    obtain rfl := List.mem_singleton.mp he'
    exact hlater d hd hu ha

/-- An event that records its change keeps the stream replayable. -/
lemma Publishes.replays (h : Publishes s s' e) (hreplays : s.Replays ubs)
    (hrecords : Records s.ubs s'.ubs e) : s'.Replays ubs := by
  intro u a
  have hbefore := hreplays u a
  rw [h.published, replay_append]
  by_cases hkey : e.userId = u ∧ e.assetId = a
  · have hdelta := hrecords.delta
    rw [hkey.1, hkey.2] at hdelta
    rw [if_pos hkey]
    omega
  · rw [if_neg hkey, h.elsewhere u a hkey]
    omega

/-- What has to hold of a request that publishes an event. -/
lemma Publishes.faithful_iff (h : Publishes s s' e) (hkeyed : s.Keyed) (hreplays : s.Replays ubs) :
    ((∀ d ∈ s'.published.drop s.published.length, Records s.ubs s'.ubs d) ∧
        s'.Keyed ∧ s'.Replays ubs) ↔
      Records s.ubs s'.ubs e ∧ s.Later e.userId e.assetId e.seq := by
  rw [h.keyed_iff hkeyed, h.published, List.drop_left]
  constructor
  · rintro ⟨hrecords, hlater, -⟩
    exact ⟨hrecords e (List.mem_singleton_self e), hlater⟩
  · rintro ⟨hrecords, hlater⟩
    refine ⟨?_, hlater, h.replays hreplays hrecords⟩
    intro d hd
    obtain rfl := List.mem_singleton.mp hd
    exact hrecords

end Publishes

/-- What has to hold of a request about an account that publishes no event. -/
lemma faithful_iff_of_silent {s s' : BalanceService} {ubs : UBSCore} {u : UInt64} {a : UInt32}
    (hpublished : s'.published = s.published)
    (helsewhere : ∀ v b, ¬(u = v ∧ a = b) → s'.ubs.avail v b = s.ubs.avail v b)
    (hkeyed : s.Keyed) (hreplays : s.Replays ubs) :
    ((∀ d ∈ s'.published.drop s.published.length, Records s.ubs s'.ubs d) ∧
        s'.Keyed ∧ s'.Replays ubs) ↔
      s'.ubs.avail u a = s.ubs.avail u a := by
  have hkeyed' : s'.Keyed := by rwa [Keyed, hpublished]
  have hnone : ∀ d ∈ s'.published.drop s.published.length, Records s.ubs s'.ubs d := by
    intro d hd
    rw [hpublished, List.drop_length] at hd
    exact absurd hd List.not_mem_nil
  rw [and_iff_right hnone, and_iff_right hkeyed']
  constructor
  · intro hreplays'
    have hbefore := hreplays u a
    have hafter := hreplays' u a
    rw [hpublished] at hafter
    omega
  · intro hsame v b
    rw [hpublished]
    by_cases hkey : u = v ∧ a = b
    · obtain ⟨rfl, rfl⟩ := hkey
      rw [hsame]
      exact hreplays u a
    · rw [helsewhere v b hkey]
      exact hreplays v b

/-! ## One request -/

section Requests

variable {s : BalanceService} {requestId u : UInt64} {a : UInt32} {amount timestamp clock : UInt64}

lemma published_publish (e : LedgerEvent) (hproducer : s.balanceEvents.isSome) :
    (s.publish true e).published = s.published ++ [e] := by
  unfold published publish
  obtain ⟨es, hes⟩ := Option.isSome_iff_exists.mp hproducer
  simp [hes]

/-- A send that fails leaves nothing. -/
lemma published_publish_false (s : BalanceService) (e : LedgerEvent) :
    (s.publish false e).published = s.published := by
  unfold published publish
  cases s.balanceEvents <;> rfl

/-- What a TransferIn does to the available amounts. -/
lemma avail_onDeposit (u : UInt64) (a : UInt32) (amount txId : UInt64) (ubs : UBSCore) :
    ((ubs.onDeposit u a amount txId).avail u a =
      if ubs.avail u a + (amount.toNat - ubs.debtLedger.debt u a) < 2 ^ 64 then
        ubs.avail u a + (amount.toNat - ubs.debtLedger.debt u a)
      else ubs.avail u a) ∧
    ∀ v b, ¬(u = v ∧ a = b) → (ubs.onDeposit u a amount txId).avail v b = ubs.avail v b := by
  have hfunds := UBSCore.userFunds_onDeposit u a amount txId ubs
  have hafter := ubs.userFunds.avail_deposit u a amount
  rw [← hfunds, UBSCore.avail_userFunds, UBSCore.avail_userFunds, UBSCore.debt_userFunds] at hafter
  refine ⟨hafter, fun v b hne => ?_⟩
  rw [← UBSCore.avail_userFunds, hfunds, UserFunds.avail_deposit_of_ne hne,
    UBSCore.avail_userFunds]

/-- The event of a TransferIn is right if the amount arrives in full and fits the delta. -/
lemma transferIn_publishes (hproducer : s.balanceEvents.isSome) :
    ∃ e, Publishes s (s.receive ⟨.transferIn requestId u a amount timestamp, clock, true⟩) e ∧
      e.userId = u ∧ e.assetId = a ∧ e.seq = clock ∧
      (Records s.ubs
          (s.receive ⟨.transferIn requestId u a amount timestamp, clock, true⟩).ubs e ↔
        amount = 0 ∨ s.ubs.debtLedger.debt u a = 0 ∧ amount.toNat < 2 ^ 63 ∧
          s.ubs.avail u a + amount.toNat < 2 ^ 64) := by
  obtain ⟨hafter, helsewhere⟩ := avail_onDeposit u a amount requestId s.ubs
  have hzero : amount = 0 ↔ amount.toNat = 0 := UInt64.toNat_inj.symm
  refine ⟨_, ⟨published_publish _ hproducer, helsewhere⟩, rfl, rfl, rfl, ?_⟩
  constructor
  · intro hrecords
    have hdelta : amount.toInt64.toInt =
        ((s.ubs.onDeposit u a amount requestId).avail u a : ℤ) - s.ubs.avail u a :=
      hrecords.delta
    -- a cast that went negative is no change a deposit makes
    by_cases hsmall : amount.toNat < 2 ^ 63
    · rw [Word.toInt_toInt64 hsmall] at hdelta
      rw [hzero]
      split at hafter <;> omega
    · have hlt := amount.toNat_lt
      rw [Word.toInt_toInt64_of_ge (by omega)] at hdelta
      split at hafter <;> omega
  · intro hplain
    have harrives : (s.ubs.onDeposit u a amount requestId).avail u a =
        s.ubs.avail u a + amount.toNat := by
      have hlt := s.ubs.userFunds.avail_lt u a
      rw [UBSCore.avail_userFunds] at hlt
      rw [hzero] at hplain
      split at hafter <;> omega
    have hfits : amount.toNat < 2 ^ 63 := by
      rw [hzero] at hplain
      omega
    obtain ⟨havail, hfrozen⟩ := (s.ubs.onDeposit u a amount requestId).getBalanceFull_getD u a
      (x := amount) (by rw [hzero]; omega)
    refine ⟨?_, congrArg some havail, congrArg some hfrozen⟩
    show amount.toInt64.toInt =
      ((s.ubs.onDeposit u a amount requestId).avail u a : ℤ) - s.ubs.avail u a
    rw [Word.toInt_toInt64 hfits, harrives]
    omega

/-- A TransferIn moves nothing if all of it goes to the debt or what is left overflows. -/
lemma avail_onDeposit_eq_iff (requestId : UInt64) :
    (s.ubs.onDeposit u a amount requestId).avail u a = s.ubs.avail u a ↔
      amount.toNat ≤ s.ubs.debtLedger.debt u a ∨
        2 ^ 64 ≤ s.ubs.avail u a + (amount.toNat - s.ubs.debtLedger.debt u a) := by
  obtain ⟨hafter, -⟩ := avail_onDeposit u a amount requestId s.ubs
  rw [hafter]
  split <;> omega

/-- A covered TransferOut takes its amount, from the account it names only. -/
lemma avail_onWithdraw (requestId : UInt64)
    (hcov : s.ubs.userFunds.covers u a amount = true) :
    amount.toNat ≤ s.ubs.avail u a ∧
      (s.ubs.onWithdraw u a amount requestId).2.avail u a = s.ubs.avail u a - amount.toNat ∧
      ∀ v b, ¬(u = v ∧ a = b) →
        (s.ubs.onWithdraw u a amount requestId).2.avail v b = s.ubs.avail v b := by
  obtain ⟨-, hfunds⟩ := UBSCore.userFunds_onWithdraw u a amount requestId s.ubs
  obtain ⟨hle, hafter⟩ := UserFunds.avail_debit hcov
  rw [if_pos hcov] at hfunds
  rw [← hfunds, UBSCore.avail_userFunds, UBSCore.avail_userFunds] at hafter
  rw [UBSCore.avail_userFunds] at hle
  refine ⟨hle, hafter, fun v b hne => ?_⟩
  rw [← UBSCore.avail_userFunds, hfunds, UserFunds.avail_debit_of_ne hne, UBSCore.avail_userFunds]

lemma receive_transferOut (sent : Bool) (hcov : s.ubs.userFunds.covers u a amount = true) :
    s.receive ⟨.transferOut requestId u a amount timestamp, clock, sent⟩ =
      BalanceService.publish sent
        { userId := u, assetId := a, seq := clock, deltaAvail := -amount.toInt64, deltaFrozen := 0
          avail := some (((s.ubs.onWithdraw u a amount requestId).2.getBalanceFull u a).getD
            (0, 0)).1
          frozen := some (((s.ubs.onWithdraw u a amount requestId).2.getBalanceFull u a).getD
            (0, 0)).2
          eventType := "withdraw", refId := requestId }
        { s with ubs := (s.ubs.onWithdraw u a amount requestId).2 } := by
  obtain ⟨hok, -⟩ := UBSCore.userFunds_onWithdraw u a amount requestId s.ubs
  rw [hcov] at hok
  simp only [receive, onBalanceRequest]
  split
  · rename_i heq
    rw [heq]
  · rename_i heq
    rw [heq] at hok
    exact absurd hok (by simp)

lemma transferOut_publishes (hproducer : s.balanceEvents.isSome)
    (hcov : s.ubs.userFunds.covers u a amount = true) :
    ∃ e, Publishes s (s.receive ⟨.transferOut requestId u a amount timestamp, clock, true⟩) e ∧
      e.userId = u ∧ e.assetId = a ∧ e.seq = clock ∧
      (Records s.ubs
          (s.receive ⟨.transferOut requestId u a amount timestamp, clock, true⟩).ubs e ↔
        amount.toNat ≤ 2 ^ 63) := by
  obtain ⟨hle, hafter, helsewhere⟩ := avail_onWithdraw requestId hcov
  rw [receive_transferOut true hcov]
  refine ⟨_, ⟨published_publish _ hproducer, helsewhere⟩, rfl, rfl, rfl, ?_⟩
  have hchange : ((s.ubs.onWithdraw u a amount requestId).2.avail u a : ℤ) - s.ubs.avail u a =
      -(amount.toNat : ℤ) := by omega
  rw [← Word.toInt_neg_toInt64_iff, ← hchange]
  constructor
  · intro hrecords
    exact hrecords.delta
  · intro hdelta
    obtain ⟨havail, hfrozen⟩ :=
      (s.ubs.onWithdraw u a amount requestId).2.getBalanceFull_getD u a (.inl rfl)
    exact ⟨hdelta, congrArg some havail, congrArg some hfrozen⟩

/-- A TransferOut that is not covered publishes nothing and moves nothing. -/
lemma transferOut_refused {sent : Bool} (hcov : s.ubs.userFunds.covers u a amount ≠ true) :
    (s.receive ⟨.transferOut requestId u a amount timestamp, clock, sent⟩).published =
        s.published ∧
      ∀ v b, (s.receive ⟨.transferOut requestId u a amount timestamp, clock, sent⟩).ubs.avail v b =
        s.ubs.avail v b := by
  obtain ⟨hok, hfunds⟩ := UBSCore.userFunds_onWithdraw u a amount requestId s.ubs
  rw [if_neg hcov] at hfunds
  simp only [receive, onBalanceRequest]
  split
  · rename_i heq
    rw [heq] at hok
    exact absurd hok.symm hcov
  · rename_i heq
    rw [heq] at hfunds
    refine ⟨rfl, ?_⟩
    intro v b
    rw [← UBSCore.avail_userFunds, hfunds, UBSCore.avail_userFunds]

end Requests

/-- A request does what its event says, and keeps the stream a ledger, exactly if it is plain. -/
lemma faithful_request_iff {s : BalanceService} {ubs : UBSCore} (hproducer : s.balanceEvents.isSome)
    (hs : s.Keyed ∧ s.Replays ubs) (r : ReceivedRequest) :
    (Recorded s r ∧ (s.receive r).Keyed ∧ (s.receive r).Replays ubs) ↔ Plain s r := by
  obtain ⟨request, clock, sent⟩ := r
  cases request with
  | transferIn requestId u a amount timestamp =>
      cases sent with
      | true =>
          obtain ⟨e, hpublishes, rfl, rfl, rfl, hrecords⟩ :=
            @transferIn_publishes s requestId u a amount timestamp clock hproducer
          rw [Plain, ← hrecords]
          exact hpublishes.faithful_iff hs.1 hs.2
      | false =>
          rw [Plain, ← avail_onDeposit_eq_iff requestId]
          -- the event is lost: a ledger stays only if nothing has changed
          exact faithful_iff_of_silent (published_publish_false _ _)
            (avail_onDeposit u a amount requestId s.ubs).2 hs.1 hs.2
  | transferOut requestId u a amount timestamp =>
      by_cases hcov : s.ubs.userFunds.covers u a amount = true
      · cases sent with
        | true =>
            obtain ⟨e, hpublishes, rfl, rfl, rfl, hrecords⟩ :=
              @transferOut_publishes s requestId u a amount timestamp clock hproducer hcov
            rw [Plain, ← hrecords, forall_prop_of_true hcov]
            exact hpublishes.faithful_iff hs.1 hs.2
        | false =>
            obtain ⟨hle, hafter, helsewhere⟩ := avail_onWithdraw requestId hcov
            have hzero : amount = 0 ↔
                (s.ubs.onWithdraw u a amount requestId).2.avail u a = s.ubs.avail u a := by
              rw [hafter, ← UInt64.toNat_inj, UInt64.toNat_zero]
              omega
            rw [Plain, forall_prop_of_true hcov, hzero, Recorded, receive_transferOut false hcov]
            exact faithful_iff_of_silent (published_publish_false _ _) helsewhere hs.1 hs.2
      · -- not covered: neither the funds nor the stream change
        obtain ⟨hpublished, havail⟩ :=
          @transferOut_refused s requestId u a amount timestamp clock sent hcov
        have hplain : Plain s ⟨.transferOut requestId u a amount timestamp, clock, sent⟩ := by
          cases sent <;> exact fun h => absurd h hcov
        exact iff_of_true ((faithful_iff_of_silent hpublished (fun v b _ => havail v b) hs.1
          hs.2).mpr (havail u a)) hplain

lemma isSome_receive {s : BalanceService} (hproducer : s.balanceEvents.isSome)
    (r : ReceivedRequest) : (s.receive r).balanceEvents.isSome := by
  obtain ⟨request, clock, sent⟩ := r
  cases request with
  | transferIn => simpa [receive, onBalanceRequest, publish] using hproducer
  | transferOut =>
      simp only [receive, onBalanceRequest]
      split
      · simpa [publish] using hproducer
      · exact hproducer

/-- **The stream of balance events.**  From any state of UBSCore, the stream of a run records every
change, under distinct keys with increasing sequence numbers, and replays to the available amounts,
exactly if all requests are plain. -/
theorem stream_faithful_iff (ubs : UBSCore) (rs : List ReceivedRequest) :
    (transfers.AllSteps Recorded ⟨ubs, some []⟩ rs ∧
        transfers.Throughout (fun s => s.Keyed ∧ s.Replays ubs) ⟨ubs, some []⟩ rs) ↔
      transfers.AllSteps Plain ⟨ubs, some []⟩ rs := by
  refine Machine.allSteps_throughout_iff (fun s r hs => isSome_receive hs r)
    (fun s r hproducer hs => faithful_request_iff hproducer hs r) rfl ⟨?_, ?_⟩ rs
  · exact ⟨List.nodup_nil, List.Pairwise.nil⟩
  · intro u a
    exact (add_zero _).symm

/-- A user who owes 5 units of asset 1. -/
def owing : UBSCore := (UBSCore.new.applyBalanceDelta 1 1 (-5) .tradeSettle).2

/-- Of 8 units transferred in, 5 go to the debt, and the event says 8 were added; two transfers in
the same millisecond have one key; and a transfer whose event is not sent is not replayed. -/
theorem stream_not_faithful :
    ¬transfers.AllSteps Recorded ⟨owing, some []⟩ [⟨.transferIn 1 1 1 8 0, 1000, true⟩] ∧
      ¬transfers.Throughout Keyed ⟨UBSCore.new, some []⟩
        [⟨.transferIn 1 1 1 8 0, 1000, true⟩, ⟨.transferIn 2 1 1 5 0, 1000, true⟩] ∧
      ¬transfers.Throughout (Replays UBSCore.new) ⟨UBSCore.new, some []⟩
        [⟨.transferIn 1 1 1 8 0, 1000, false⟩] := by
  refine ⟨?_, ?_, ?_⟩
  · rintro ⟨hrecorded, -⟩
    have hdelta := (hrecorded _ (List.mem_singleton_self _)).delta
    exact absurd hdelta (by decide +kernel)
  · rintro ⟨-, -, hnodup, -⟩
    exact absurd hnodup (by decide +kernel)
  · rintro ⟨-, hreplays⟩
    exact absurd (hreplays 1 1) (by decide +kernel)

end BalanceService

end ExchangeCore
