import ExchangeCore.Transfer.Saga

/-!
# Transfers out of Trading

Trading debits at once and for good, so a transfer out of Trading has no way back: its rollback
must never be called, and a deposit that fails has to be tried again until it succeeds.
`step_target_pending` keeps to that.  `step_source_done`, which makes the first deposit call, does
not look at the source: if that very call is refused it moves the transfer to Compensating.

`FirstDepositAnswers` says that the first deposit call is not refused.  In every run in which it
holds, transfers out of Trading are never compensated (`trading_never_compensated`); with a single
refusal one is (`trading_compensated`).
-/

namespace ExchangeCore

namespace Backend

variable {b b' : Backend} {tgt : ServiceId}

/-! ## The invariant -/

/-- The states in which the deposit may have been called, of a transfer that is not compensated. -/
def isDepositing : TransferState → Bool
  | .targetPending | .committed => true
  | _ => false

/-- The row has come to the deposit. -/
def Depositing (b : Backend) : Prop := ∃ r, b.row = some r ∧ isDepositing r.state = true

/-- The invariant of a transfer out of Trading. -/
structure TradingInv (tgt : ServiceId) (b : Backend) : Prop where
  row : ∃ r, b.row = some r ∧ r.source = .trading ∧ r.target = tgt ∧ r.state ≠ .compensating ∧
    r.state ≠ .rolledBack
  deposit : b.called tgt .deposit = true → Depositing b
  rollback : b.called .trading .rollback = false

/-- Once the transfer has come to the deposit it stays there. -/
def TradingStep (b b' : Backend) : Prop := Depositing b → Depositing b'

/-- A compare-and-set to another state than those of the way back. -/
lemma TradingInv.cas {expected newState : TransferState} {update : TransferRecord → TransferRecord}
    {applied : Bool} (h : TradingInv tgt b) (hcas : b.Cas expected update applied b')
    (hupdate : ∀ r, (update r).source = r.source ∧ (update r).target = r.target ∧
      (update r).state = newState)
    (hnew : newState ≠ .compensating ∧ newState ≠ .rolledBack)
    (hkeep : isDepositing expected = true → isDepositing newState = true) :
    TradingInv tgt b' ∧ TradingStep b b' ∧
      (applied = true → isDepositing newState = true → Depositing b') := by
  obtain ⟨r, hr, hsrc, htgt, -⟩ := h.row
  simp only [Cas, hr] at hcas
  split at hcas
  · rename_i heq
    obtain ⟨-, rfl⟩ := hcas
    obtain ⟨hs, ht, hn⟩ := hupdate r
    have hdep : isDepositing newState = true → Depositing { b with row := some (update r) } :=
      fun h => ⟨_, rfl, hn ▸ h⟩
    have hstep : TradingStep b { b with row := some (update r) } := by
      rintro ⟨r₀, hr₀, hdep₀⟩
      obtain rfl := Option.some.inj (hr₀.symm.trans hr)
      exact hdep (hkeep (heq ▸ hdep₀))
    refine ⟨⟨⟨_, rfl, hs.trans hsrc, ht.trans htgt, ?_⟩, fun hc => hstep (h.deposit hc),
      h.rollback⟩, hstep, fun _ => hdep⟩
    rw [hn]
    exact hnew
  · obtain ⟨rfl, rfl⟩ := hcas
    exact ⟨h, id, fun hc => by cases hc⟩

lemma TradingInv.afterCall {service : ServiceId} {op : AdapterOp} (answer : OpResult)
    (h : TradingInv tgt b) (hrollback : op ≠ .rollback) (hdeposit : op = .deposit → Depositing b) :
    TradingInv tgt (b.afterCall service op answer) := by
  obtain ⟨-, -, hothers⟩ := afterCall_spec b service op answer
  refine ⟨h.row, fun hc => ?_, ?_⟩
  · by_cases heq : op = .deposit
    · exact hdeposit heq
    · rw [(hothers _ _ (fun h => heq h.2.symm)).1] at hc
      exact h.deposit hc
  · rw [(hothers _ _ (fun h => hrollback h.2.symm)).1]
    exact h.rollback

/-- One more retry. -/
lemma TradingInv.retried (h : TradingInv tgt b) (now : Int64) :
    TradingInv tgt (b.retried now) ∧ TradingStep b (b.retried now) := by
  have hstep : TradingStep b (b.retried now) := by
    rintro ⟨r, hr, hdep⟩
    exact ⟨{ r with retryCount := r.retryCount + 1, updatedAt := now },
      by rw [Backend.retried, hr]; rfl, hdep⟩
  obtain ⟨r, hr, hprops⟩ := h.row
  refine ⟨⟨⟨{ r with retryCount := r.retryCount + 1, updatedAt := now }, ?_, hprops⟩,
    fun hc => hstep (h.deposit hc), h.rollback⟩, hstep⟩
  rw [Backend.retried, hr]
  rfl

end Backend

/-! ## The step functions -/

namespace TransferCoordinator

open Backend

/-- The deposit call that `step_source_done` makes is not refused. -/
def FirstDepositAnswers : (op : TransferOp) → TransferAns op → Prop
  | .adapter .sourceDone _ (.deposit _ _ _), answer => ∀ e, answer ≠ .failed e
  | _, _ => True

/-- Safe for a transfer out of Trading, as far as the first deposit call is not refused. -/
abbrev TradingSafe {α : Type} (tgt : ServiceId) (p : TransferProg α) (b : Backend) : Prop :=
  Safe (serves.restrict FirstDepositAnswers) (TradingInv tgt) TradingStep p b

section Rules

variable {tgt : ServiceId} {α : Type} {b : Backend}

lemma tradingSafe_get {k : Option TransferRecord → TransferProg α}
    (h : ∀ b, TradingInv tgt b → TradingSafe tgt (k b.row) b) :
    TradingSafe tgt (get >>= k) b := by
  refine Safe.perform (fun _ => True) (fun _ _ _ _ => trivial) trivial ?_
  rintro b₁ - hI r b₂ ⟨⟨rfl, rfl⟩, -⟩
  exact ⟨hI, id, h _ hI⟩

lemma tradingSafe_updateStateIf {expected newState : TransferState} {k : Bool → TransferProg α}
    (hnew : newState ≠ .compensating ∧ newState ≠ .rolledBack)
    (hkeep : isDepositing expected = true → isDepositing newState = true)
    (hk : ∀ applied b, (applied = true → isDepositing newState = true → Depositing b) →
      TradingSafe tgt (k applied) b) :
    TradingSafe tgt (updateStateIf expected newState >>= k) b := by
  refine Safe.perform (fun _ => True) (fun _ _ _ _ => trivial) trivial ?_
  rintro b₁ - hI applied b₂ ⟨⟨now, hcas⟩, -⟩
  obtain ⟨hI₂, hstep, hdep⟩ := hI.cas hcas (fun r => ⟨rfl, rfl, rfl⟩) hnew hkeep
  exact ⟨hI₂, hstep, hk applied b₂ hdep⟩

lemma tradingSafe_updateStateWithError {expected newState : TransferState} {error : String}
    {k : Bool → TransferProg α} (hnew : newState ≠ .compensating ∧ newState ≠ .rolledBack)
    (hkeep : isDepositing expected = true → isDepositing newState = true)
    (hk : ∀ applied b, TradingSafe tgt (k applied) b) :
    TradingSafe tgt (updateStateWithError expected newState error >>= k) b := by
  refine Safe.perform (fun _ => True) (fun _ _ _ _ => trivial) trivial ?_
  rintro b₁ - hI applied b₂ ⟨⟨now, hcas⟩, -⟩
  obtain ⟨hI₂, hstep, -⟩ := hI.cas hcas (fun r => ⟨rfl, rfl, rfl⟩) hnew hkeep
  exact ⟨hI₂, hstep, hk applied b₂⟩

/-- A withdrawal or a commit, whatever it answers. -/
lemma tradingSafe_call {site : TransferState} {service : ServiceId} {c : AdapterCall}
    {k : OpResult → TransferProg α} (hrollback : c.op ≠ .rollback) (hdeposit : c.op ≠ .deposit)
    (hk : ∀ answer b, TradingSafe tgt (k answer) b) :
    TradingSafe tgt (call site service c >>= k) b := by
  refine Safe.perform (fun _ => True) (fun _ _ _ _ => trivial) trivial ?_
  rintro b₁ - hI answer b₂ ⟨rfl, -⟩
  exact ⟨hI.afterCall answer hrollback (fun h => absurd h hdeposit), id, hk answer _⟩

lemma tradingSafe_deposit {site : TransferState} {record : TransferRecord}
    {k : OpResult → TransferProg α} (hdep : Depositing b)
    (hk : ∀ answer b, (site = .sourceDone → ∀ e, answer ≠ .failed e) →
      TradingSafe tgt (k answer) b) :
    TradingSafe tgt (deposit site record >>= k) b := by
  refine Safe.perform Depositing (fun _ _ h hstep => hstep h) hdep ?_
  rintro b₁ hdep₁ hI answer b₂ ⟨rfl, hanswer⟩
  refine ⟨hI.afterCall answer (by simp [AdapterCall.op]) (fun _ => hdep₁), id,
    hk answer _ (fun hsite => ?_)⟩
  subst hsite
  exact hanswer

end Rules

section Steps

variable {tgt : ServiceId} {b : Backend} {record : TransferRecord}

lemma tradingSafe_currentState : TradingSafe tgt currentState b := by
  refine tradingSafe_get (fun b _ => ?_)
  cases b.row <;> trivial

lemma tradingSafe_afterWithdraw (result : OpResult) : TradingSafe tgt (afterWithdraw result) b := by
  cases result with
  | success =>
      exact tradingSafe_updateStateIf (by simp) (by simp [isDepositing])
        (fun _ _ _ => trivial)
  | failed e =>
      exact tradingSafe_updateStateWithError (by simp) (by simp [isDepositing]) (fun _ _ => trivial)
  | pending => trivial

lemma tradingSafe_withdraw {site : TransferState} :
    TradingSafe tgt (withdraw site record >>= afterWithdraw) b :=
  tradingSafe_call (by simp [AdapterCall.op]) (by simp [AdapterCall.op])
    (fun answer _ => tradingSafe_afterWithdraw answer)

lemma tradingSafe_stepInit : TradingSafe tgt (stepInit record) b := by
  refine tradingSafe_updateStateIf (by simp) (by simp [isDepositing]) (fun applied b _ => ?_)
  cases applied with
  | false => exact tradingSafe_currentState
  | true => exact tradingSafe_withdraw

lemma tradingSafe_commitTransfer {site : TransferState} :
    TradingSafe tgt (commitTransfer site record) b := by
  show TradingSafe tgt (call site record.source .commit >>= fun _ =>
    updateStateIf .targetPending .committed >>= fun _ =>
      (pure (.ok .committed) : TransferProg (Except String TransferState))) b
  refine tradingSafe_call (by simp [AdapterCall.op]) (by simp [AdapterCall.op]) (fun _ b => ?_)
  exact tradingSafe_updateStateIf (by simp) (fun _ => rfl) (fun _ _ _ => trivial)

/-- The refusal that would be compensated does not come. -/
lemma tradingSafe_stepSourceDone : TradingSafe tgt (stepSourceDone record) b := by
  refine tradingSafe_updateStateIf (by simp) (by simp [isDepositing]) (fun applied b hdep => ?_)
  cases applied with
  | false => exact tradingSafe_currentState
  | true =>
      refine tradingSafe_deposit (hdep rfl rfl) (fun answer b hanswer => ?_)
      cases answer with
      | success => exact tradingSafe_commitTransfer
      | failed e => exact absurd rfl (hanswer rfl e)
      | pending => trivial

/-- A refusal is not compensated. -/
lemma tradingSafe_stepTargetPending (hsrc : record.source = .trading) (hdep : Depositing b) :
    TradingSafe tgt (stepTargetPending record) b := by
  refine tradingSafe_deposit hdep (fun answer b _ => ?_)
  cases answer with
  | success => exact tradingSafe_commitTransfer
  | failed e =>
      show TradingSafe tgt (if record.source = .trading then _ else _) b
      rw [if_pos hsrc]
      trivial
  | pending => trivial

/-- The step function keeps a transfer out of Trading from being compensated. -/
lemma tradingSafe_step (reqId : UInt64) (b : Backend) : TradingSafe tgt (step reqId) b := by
  refine tradingSafe_get (fun b hI => ?_)
  obtain ⟨record, hrow, hsrc, htgt, hcomp, hroll⟩ := hI.row
  rw [hrow]
  show TradingSafe tgt (if record.state.isTerminal = true then _ else _) b
  split
  · trivial
  · refine Safe.bind ?_ (fun r b => ?_)
    · unfold stepFrom
      cases hstate : record.state with
      | init => exact tradingSafe_stepInit
      | sourcePending => exact tradingSafe_withdraw
      | sourceDone => exact tradingSafe_stepSourceDone
      | targetPending =>
          exact tradingSafe_stepTargetPending hsrc ⟨record, hrow, by rw [hstate]; rfl⟩
      | compensating => exact absurd hstate hcomp
      | committed => trivial
      | rolledBack => trivial
      | failed => trivial
    · cases r with
      | error e => trivial
      | ok newState =>
          show TradingSafe tgt (if (!newState.isTerminal && decide (newState = record.state)) = true
            then _ else _) b
          split
          · refine Safe.perform (fun _ => True) (fun _ _ _ _ => trivial) trivial ?_
            rintro b₁ - hI₁ ⟨⟩ b₂ ⟨⟨now, rfl⟩, -⟩
            obtain ⟨hI₂, hstep⟩ := hI₁.retried now
            exact ⟨hI₂, hstep, trivial⟩
          · trivial

end Steps

/-! ## Every interleaving -/

section Runs

open Config

variable {W : Type} [DecidableEq W]

/-- A worker that reads this row calls `op` next. -/
def NextCalls (reqId : UInt64) (r : TransferRecord) (op : TransferOp) : Prop :=
  ∃ k k', step reqId = .call .get k ∧ k (some r) = .call op k'

lemma nextCalls_deposit (reqId : UInt64) {r : TransferRecord} (hstate : r.state = .targetPending) :
    NextCalls reqId r
      (.adapter .targetPending r.target (.deposit r.userId r.assetId r.amount)) := by
  obtain ⟨_, _, _, _, _, _, state, _, _, _, _⟩ := r
  subst hstate
  exact ⟨_, _, rfl, rfl⟩

/-- What is required of a transfer out of Trading: it never turns back, and a deposit that fails
leaves it in TargetPending, where every worker tries the deposit again, until one succeeds. -/
structure NeverCompensated (reqId : UInt64) (b : Backend) : Prop where
  state : ∃ r, b.row = some r ∧ r.state ≠ .compensating ∧ r.state ≠ .rolledBack
  rollback : b.called .trading .rollback = false
  retried : ∀ r, b.row = some r → b.answered r.target .deposit false = true →
    r.state = .targetPending ∧
        NextCalls reqId r
          (.adapter .targetPending r.target (.deposit r.userId r.assetId r.amount)) ∨
      r.state = .committed ∧ b.answered r.target .deposit true = true

lemma tradingInv_created {record : TransferRecord} (hsrc : record.source = .trading) :
    TradingInv record.target (created record) where
  row := ⟨_, rfl, hsrc, rfl, by simp, by simp⟩
  deposit h := by cases h
  rollback := rfl

lemma state_of_deposit_failed {src tgt : ServiceId} {b : Backend} (hsaga : SagaInv src tgt b)
    (htrading : TradingInv tgt b) {r : TransferRecord} (hr : b.row = some r)
    (hfailed : b.answered tgt .deposit false = true) :
    r.state = .targetPending ∨ r.state = .committed ∧ b.answered tgt .deposit true = true := by
  obtain ⟨r₁, hr₁, -, -, hjust⟩ := hsaga.row
  obtain ⟨r₂, hr₂, hdep⟩ := htrading.deposit (hsaga.answered _ _ _ hfailed)
  obtain rfl := Option.some.inj (hr.symm.trans hr₁)
  obtain rfl := Option.some.inj (hr.symm.trans hr₂)
  cases hstate : r.state with
  | targetPending => exact Or.inl rfl
  | committed =>
      rw [hstate] at hjust
      exact Or.inr ⟨rfl, hjust.2.1⟩
  | init => simp [hstate, isDepositing] at hdep
  | sourcePending => simp [hstate, isDepositing] at hdep
  | sourceDone => simp [hstate, isDepositing] at hdep
  | compensating => simp [hstate, isDepositing] at hdep
  | rolledBack => simp [hstate, isDepositing] at hdep
  | failed => simp [hstate, isDepositing] at hdep

/-- **A transfer out of Trading is never compensated** in a run in which the first deposit call is
not refused, whatever the adapters answer otherwise. -/
theorem trading_never_compensated (record : TransferRecord) (hsrc : record.source = .trading)
    (c : Workers W)
    (h : Reachable (serves.restrict FirstDepositAnswers) (step record.reqId) (created record) c) :
    NeverCompensated record.reqId c.shared := by
  have htrading : TradingInv record.target c.shared :=
    h.invariant (fun b _ => tradingSafe_step record.reqId b) (tradingInv_created hsrc)
  have hsaga : SagaInv record.source record.target c.shared :=
    SagaReachable.sagaInv (h.mono (fun _ _ _ _ hserv => hserv.1))
  obtain ⟨r, hr, -, htgt, hcomp, hroll⟩ := htrading.row
  refine ⟨⟨r, hr, hcomp, hroll⟩, htrading.rollback, fun r' hr' hfailed => ?_⟩
  obtain rfl := Option.some.inj (hr.symm.trans hr')
  rw [htgt] at hfailed ⊢
  rcases state_of_deposit_failed hsaga htrading hr hfailed with hstate | hstate
  · exact Or.inl ⟨hstate, htgt ▸ nextCalls_deposit record.reqId hstate⟩
  · exact Or.inr hstate

/-- A transfer of 100 units from Trading to Funding. -/
def tradingToFunding : TransferRecord :=
  { fundingToTrading with source := .trading, target := .funding }

/-- The first deposit call times out, the second is refused: the transfer stays in TargetPending. -/
theorem trading_never_compensated_refused : ∃ c : Workers Unit,
    c.shared.answered .funding .deposit false = true ∧
      NeverCompensated tradingToFunding.reqId c.shared := by
  have hfirst : ∀ op a, Succeeds op a → FirstDepositAnswers op a := by
    intro op a h
    unfold FirstDepositAnswers
    split
    · obtain rfl : _ = OpResult.success := h
      exact fun e he => by cases he
    · trivial
  have hget := Reachable.solo_perform (reachable_withdrawn tradingToFunding hfirst) (a := some _)
    ⟨⟨rfl, rfl⟩, trivial⟩
  have hcas := Reachable.solo_perform hget (a := true) ⟨⟨0, rfl, rfl⟩, trivial⟩
  have hpending := Reachable.solo_perform hcas (a := OpResult.pending)
    ⟨rfl, by simp [FirstDepositAnswers]⟩
  have hget₂ := Reachable.solo_perform (Reachable.solo_restart hpending) (a := some _)
    ⟨⟨rfl, rfl⟩, trivial⟩
  have hrefused := Reachable.solo_perform hget₂ (a := OpResult.failed "account frozen")
    ⟨rfl, trivial⟩
  exact ⟨_, rfl, trading_never_compensated tradingToFunding rfl _ hrefused⟩

/-- The first deposit call is refused: the transfer turns back. -/
theorem trading_compensated : ¬∀ c : Workers Unit, SagaReachable tradingToFunding c →
    NeverCompensated tradingToFunding.reqId c.shared := by
  intro h
  have hget := Reachable.solo_perform
    (reachable_withdrawn (P := fun _ _ => True) tradingToFunding (fun _ _ _ => trivial))
    (a := some _) ⟨⟨rfl, rfl⟩, trivial⟩
  have hcas := Reachable.solo_perform hget (a := true) ⟨⟨0, rfl, rfl⟩, trivial⟩
  have hrefused := Reachable.solo_perform hcas (a := OpResult.failed "account frozen")
    ⟨rfl, trivial⟩
  have hturned := Reachable.solo_perform hrefused (a := true) ⟨⟨0, rfl, rfl⟩, trivial⟩
  obtain ⟨r, hr, hcomp, -⟩ := (h _ (hturned.mono (fun _ _ _ _ hserv => hserv.1))).state
  obtain rfl := Option.some.inj hr
  exact hcomp rfl

end Runs

end TransferCoordinator

end ExchangeCore
