import ExchangeCore.Transfer.Saga

/-!
# What process_now returns

`TransferWorker::process_now` (`transfer/worker.rs`) steps a transfer until it is terminal or the
time is up, for `handle_internal_transfer` of the gateway, which reports the state that is returned.
Here a database operation may answer an error, before or after it has been applied, and the answer
of a compare-and-set that cannot be parsed counts as applied; other workers step the same transfer
in between.

A state that is returned is not always one that has been stored.  Where the read that follows an
error fails, `Failed` is returned; and a compare-and-set to a terminal state that is not applied is
passed over.  `processNow_stored_iff` says that there is nothing else.
-/

namespace ExchangeCore

/-! ## Operations that may fail -/

/-- The compare-and-set of an operation. -/
def TransferOp.cas : TransferOp → Option (TransferState × TransferState)
  | .updateStateIf expected newState => some (expected, newState)
  | .updateStateWithError expected newState _ => some (expected, newState)
  | _ => none

/-- Only the database answers errors; the adapters have answers of their own for them. -/
def TransferOp.isDatabase : TransferOp → Bool
  | .adapter _ _ _ => false
  | _ => true

/-- The operations of a worker: those of `step`, and the read that follows an error. -/
inductive WorkerOp
  | step (op : TransferOp)
  | followUp

/-- What they answer, an error included. -/
abbrev WorkerAns : WorkerOp → Type
  | .step op => Except String (TransferAns op)
  | .followUp => Except String (Option TransferRecord)

/-- A program of a worker. -/
abbrev WorkerProg := Prog WorkerOp WorkerAns

namespace Backend

/-- The answer that a compare-and-set is given when the one of the database cannot be parsed. -/
def Assumed : (op : TransferOp) → TransferAns op → Prop
  | .updateStateIf _ _, applied => applied = true
  | .updateStateWithError _ _ _, applied => applied = true
  | _, _ => False

/-- What the operations may answer.  Where the database answers an error, the operation may have
been applied. -/
def faulty : Service Backend WorkerOp WorkerAns
  | b, .step op, .ok a, b' => serves b op a b' ∨ Assumed op a ∧ ∃ a', serves b op a' b'
  | b, .step op, .error _, b' => op.isDatabase = true ∧ (b' = b ∨ ∃ a, serves b op a b')
  | b, .followUp, .ok r, b' => r = b.row ∧ b' = b
  | b, .followUp, .error _, b' => b' = b

/-- The transfer is in a state, in the database. -/
def Stored (b : Backend) (state : TransferState) : Prop := ∃ r, b.row = some r ∧ r.state = state

end Backend

namespace TransferWorker

open Backend Prog TransferCoordinator

/-! ## The loop -/

/-- `coordinator.step`, which the first error ends. -/
def attemptStep (reqId : UInt64) : WorkerProg (Except String (Except String TransferState)) :=
  (step reqId).attempt WorkerOp.step (fun _ answer => answer)

/-- What is returned after an error: the state of the record, or `Failed` where there is none and
where the read fails as well. -/
def stateAfterError : WorkerProg (Option TransferState) := do
  match ← perform WorkerOp.followUp with
  | .ok (some r) => return some r.state
  | .ok none => return some .failed
  | .error _ => return some .failed

/-- What the loop does with the answer of a step: it returns, or goes on. -/
def afterStep (late : Bool) (goOn : WorkerProg (Option TransferState)) :
    Except String (Except String TransferState) → WorkerProg (Option TransferState)
  | .ok (.ok state) =>
      if state.isTerminal then return some state
      else if late then return some state
      else goOn
  | .ok (.error _) => stateAfterError
  | .error _ => stateAfterError

/-- `process_now`, for as many turns as there are readings of the clock: each says whether the
deadline has passed.  Without a state, it is still running. -/
def processNow (reqId : UInt64) : List Bool → WorkerProg (Option TransferState)
  | [] => return none
  | late :: readings => attemptStep reqId >>= afterStep late (processNow reqId readings)

/-- The status and the message that `handle_internal_transfer` answers. -/
def transferStatus : TransferState → String × Option String
  | .committed => ("committed", none)
  | .rolledBack => ("rolled_back", some "Transfer cancelled")
  | .failed => ("failed", some "Transfer failed")
  | _ => ("pending", some "Processing in background")

/-- What another worker does: one operation of a step. -/
def Others (reqId : UInt64) (b b' : Backend) : Prop :=
  ∃ op a, (step reqId).Performs op ∧ faulty b (.step op) a b'

/-! ## Terminal states are not left -/

/-- Compare-and-sets follow the edges of the state machine. -/
def Allowed (op : TransferOp) : Prop :=
  ∀ expected newState, op.cas = some (expected, newState) → Edge expected newState

lemma allowed_of_cas {op : TransferOp} {expected newState : TransferState}
    (hcas : op.cas = some (expected, newState)) (h : Edge expected newState) : Allowed op := by
  intro expected' newState' hcas'
  obtain ⟨rfl, rfl⟩ := Prod.mk.inj (Option.some.inj (hcas.symm.trans hcas'))
  exact h

lemma allowed_of_none {op : TransferOp} (hcas : op.cas = none) : Allowed op := by
  intro expected newState hcas'
  exact absurd (hcas.symm.trans hcas') (by simp)

section All

variable (record : TransferRecord)

lemma all_currentState : currentState.All Allowed := by
  refine ⟨allowed_of_none rfl, fun r => ?_⟩
  cases r <;> trivial

lemma all_afterWithdraw (result : OpResult) : (afterWithdraw result).All Allowed := by
  cases result with
  | success => exact ⟨allowed_of_cas rfl ⟨.sourceOk, rfl⟩, fun _ => trivial⟩
  | failed e => exact ⟨allowed_of_cas rfl ⟨.sourceFail, rfl⟩, fun _ => trivial⟩
  | pending => trivial

lemma all_stepSourcePending : (stepSourcePending record).All Allowed :=
  ⟨allowed_of_none rfl, all_afterWithdraw⟩

lemma all_stepInit : (stepInit record).All Allowed := by
  refine ⟨allowed_of_cas rfl ⟨.sourceCall, rfl⟩, fun applied => ?_⟩
  cases applied with
  | false => exact all_currentState
  | true => exact ⟨allowed_of_none rfl, all_afterWithdraw⟩

lemma all_commitTransfer (site : TransferState) : (commitTransfer site record).All Allowed :=
  ⟨allowed_of_none rfl, fun _ => ⟨allowed_of_cas rfl ⟨.targetOk, rfl⟩, fun _ => trivial⟩⟩

lemma all_stepSourceDone : (stepSourceDone record).All Allowed := by
  refine ⟨allowed_of_cas rfl ⟨.targetCall, rfl⟩, fun applied => ?_⟩
  cases applied with
  | false => exact all_currentState
  | true =>
      refine ⟨allowed_of_none rfl, fun answer => ?_⟩
      cases answer with
      | success => exact all_commitTransfer record .sourceDone
      | failed e => exact ⟨allowed_of_cas rfl ⟨.targetFail, rfl⟩, fun _ => trivial⟩
      | pending => trivial

lemma all_stepTargetPending : (stepTargetPending record).All Allowed := by
  refine ⟨allowed_of_none rfl, fun answer => ?_⟩
  cases answer with
  | success => exact all_commitTransfer record .targetPending
  | failed e =>
      show (if record.source = .trading then _ else _ : TransferProg _).All Allowed
      split
      · trivial
      · exact ⟨allowed_of_cas rfl ⟨.targetFail, rfl⟩, fun _ => trivial⟩
  | pending => trivial

lemma all_stepCompensating : (stepCompensating record).All Allowed := by
  refine ⟨allowed_of_none rfl, fun answer => ?_⟩
  cases answer with
  | success => exact ⟨allowed_of_cas rfl ⟨.rollbackOk, rfl⟩, fun _ => trivial⟩
  | failed e => trivial
  | pending => trivial

lemma all_stepFrom : (stepFrom record).All Allowed := by
  unfold stepFrom
  cases record.state with
  | init => exact all_stepInit record
  | sourcePending => exact all_stepSourcePending record
  | sourceDone => exact all_stepSourceDone record
  | targetPending => exact all_stepTargetPending record
  | compensating => exact all_stepCompensating record
  | committed => trivial
  | rolledBack => trivial
  | failed => trivial

lemma all_step (reqId : UInt64) : (step reqId).All Allowed := by
  refine ⟨allowed_of_none rfl, fun r => ?_⟩
  cases r with
  | none => trivial
  | some record =>
      show (if record.state.isTerminal = true then _ else _ : TransferProg _).All Allowed
      split
      · trivial
      · refine All.bind (all_stepFrom record) (fun result => ?_)
        cases result with
        | error e => trivial
        | ok newState =>
            show (if (!newState.isTerminal && decide (newState = record.state)) = true
              then _ else _ : TransferProg _).All Allowed
            split
            · exact ⟨allowed_of_none rfl, fun _ => trivial⟩
            · trivial

end All

end TransferWorker

namespace Backend

open TransferWorker

variable {b b' : Backend} {op : TransferOp} {expected newState state : TransferState}

/-- A compare-and-set writes its new state. -/
lemma exists_cas (hcas : op.cas = some (expected, newState)) {a : TransferAns op}
    (h : serves b op a b') :
    ∃ update applied, (∀ r, (update r).state = newState) ∧ b.Cas expected update applied b' := by
  cases op with
  | updateStateIf expected' newState' =>
      obtain ⟨rfl, rfl⟩ := Prod.mk.inj (Option.some.inj hcas)
      obtain ⟨now, h⟩ := h
      exact ⟨_, a, fun _ => rfl, h⟩
  | updateStateWithError expected' newState' error =>
      obtain ⟨rfl, rfl⟩ := Prod.mk.inj (Option.some.inj hcas)
      obtain ⟨now, h⟩ := h
      exact ⟨_, a, fun _ => rfl, h⟩
  | get => exact absurd hcas (by simp [TransferOp.cas])
  | incrementRetry => exact absurd hcas (by simp [TransferOp.cas])
  | adapter site service call => exact absurd hcas (by simp [TransferOp.cas])

lemma stored_of_cas (hcas : op.cas = some (expected, newState)) {a : TransferAns op}
    (h : serves b op a b') : b'.Stored newState ↔ b.Stored expected ∨ b.Stored newState := by
  obtain ⟨update, applied, hupdate, h⟩ := exists_cas hcas h
  unfold Cas at h
  split at h
  · rename_i hrow
    rw [h.2]
    simp [Stored, hrow]
  · rename_i r hrow
    split at h
    · rename_i heq
      rw [h.2]
      exact iff_of_true ⟨_, rfl, hupdate r⟩ (.inl ⟨r, hrow, heq⟩)
    · rename_i hne
      rw [h.2]
      refine ⟨.inr, ?_⟩
      rintro (⟨r', hr', heq⟩ | hnew)
      · obtain rfl := Option.some.inj (hrow.symm.trans hr')
        exact absurd heq hne
      · exact hnew

/-- The other operations leave the state alone. -/
lemma stored_of_not_cas (hcas : op.cas = none) {a : TransferAns op} (h : serves b op a b') :
    b'.Stored state ↔ b.Stored state := by
  cases op with
  | updateStateIf expected newState => exact absurd hcas (by simp [TransferOp.cas])
  | updateStateWithError expected newState error => exact absurd hcas (by simp [TransferOp.cas])
  | get => rw [h.2]
  | incrementRetry =>
      obtain ⟨now, rfl⟩ := h
      rcases hrow : b.row with _ | r
      · simp [Stored, retried, hrow]
      · simp [Stored, retried, hrow]
  | adapter site service call =>
      obtain rfl : b' = b.afterCall service call.op a := h
      exact Iff.rfl

/-- A terminal state stays. -/
lemma Stored.of_serves (h : b.Stored state) (hterminal : state.isTerminal = true)
    (hop : Allowed op) {a : TransferAns op} (hserv : serves b op a b') : b'.Stored state := by
  rcases hcas : op.cas with _ | ⟨expected, newState⟩
  · exact (stored_of_not_cas hcas hserv).mpr h
  · obtain ⟨e, hedge⟩ := hop _ _ hcas
    obtain ⟨update, applied, hupdate, hserv⟩ := exists_cas hcas hserv
    obtain ⟨r, hrow, hstate⟩ := h
    simp only [Cas, hrow] at hserv
    split at hserv
    · -- What follows a terminal state is this state.
      rename_i heq
      rw [← heq, hstate, transition_of_isTerminal hterminal] at hedge
      rw [hserv.2]
      exact ⟨_, rfl, (hupdate r).trans hedge.symm⟩
    · rw [hserv.2]
      exact ⟨r, hrow, hstate⟩

/-- Whatever goes wrong, it stays. -/
lemma Stored.of_faulty (h : b.Stored state) (hterminal : state.isTerminal = true)
    (hop : Allowed op) {a : WorkerAns (.step op)} (hserv : faulty b (.step op) a b') :
    b'.Stored state := by
  cases a with
  | ok a =>
      rcases hserv with hserv | ⟨-, a', hserv⟩
      · exact h.of_serves hterminal hop hserv
      · exact h.of_serves hterminal hop hserv
  | error e =>
      obtain ⟨-, rfl | ⟨a, hserv⟩⟩ := hserv
      · exact h
      · exact h.of_serves hterminal hop hserv

/-- The read that follows an error changes nothing. -/
lemma eq_of_followUp {a : WorkerAns .followUp} (h : faulty b .followUp a b') : b' = b := by
  cases a with
  | ok r => exact h.2
  | error e => exact h

end Backend

namespace TransferWorker

open Backend Prog TransferCoordinator

/-! ## What decides whether the state returned has been stored -/

/-- A compare-and-set to a terminal state that is answered finds the record in the state it expects,
or in the terminal state already; and the read that follows an error finds the record, or the record
is in `Failed`. -/
def Lands : Event Backend WorkerOp WorkerAns → Prop
  | .own b (.step op) (.ok _) _ =>
      ∀ expected newState, op.cas = some (expected, newState) → newState.isTerminal = true →
        b.Stored expected ∨ b.Stored newState
  | .own b .followUp (.ok none) _ => b.Stored .failed
  | .own b .followUp (.error _) _ => b.Stored .failed
  | _ => True

/-- What a step has answered, if it is a terminal state, is stored. -/
def Answered (b : Backend) : Except String (Except String TransferState) → Prop
  | .ok (.ok state) => state.isTerminal = true → b.Stored state
  | _ => True

lemma answered_of_live {b : Backend} {state : TransferState} (h : state.isTerminal = false) :
    Answered b (.ok (.ok state)) := by
  intro hterminal
  exact absurd (h.symm.trans hterminal) (by simp)

/-- The operations of a step, as those of a worker. -/
abbrev attempted {α : Type} (p : TransferProg α) : WorkerProg (Except String α) :=
  p.attempt WorkerOp.step (fun _ answer => answer)

/-- What the program answers, if it is terminal, is stored at the end if and only if all that it has
done has landed. -/
def Faithful (R : Backend → Backend → Prop)
    (p : TransferProg (Except String TransferState)) : Prop :=
  ∀ b es result b', RunsAmong faulty R (attempted p) b es result b' →
    (Answered b' result ↔ ∀ e ∈ es, Lands e)

section Rules

variable {R : Backend → Backend → Prop} {op : TransferOp}

lemma lands_nil : ∀ e ∈ ([] : List (Event Backend WorkerOp WorkerAns)), Lands e :=
  fun _ he => absurd he List.not_mem_nil

lemma lands_append {between rest : List (Event Backend WorkerOp WorkerAns)}
    (hbetween : ∀ e ∈ between, ∃ t t', e = .others t t')
    (e : Event Backend WorkerOp WorkerAns) :
    (∀ e' ∈ between ++ e :: rest, Lands e') ↔ Lands e ∧ ∀ e' ∈ rest, Lands e' := by
  simp only [List.forall_mem_append, List.forall_mem_cons, and_iff_right_iff_imp]
  intro _ e' he'
  obtain ⟨t, t', rfl⟩ := hbetween e' he'
  trivial

lemma faithful_error (e : String) : Faithful R (.ret (.error e)) := by
  intro b es result b' h
  obtain ⟨rfl, rfl, rfl⟩ := h.of_ret
  exact iff_of_true trivial lands_nil

lemma faithful_live {state : TransferState} (hlive : state.isTerminal = false) :
    Faithful R (.ret (.ok state)) := by
  intro b es result b' h
  obtain ⟨rfl, rfl, rfl⟩ := h.of_ret
  exact iff_of_true (answered_of_live hlive) lands_nil

/-- One operation, as far as it is answered: an error is the end. -/
lemma faithful_call {k : TransferAns op → TransferProg (Except String TransferState)}
    (h : ∀ b a b₁ es result b', faulty b (.step op) (.ok a) b₁ →
      RunsAmong faulty R (attempted (k a)) b₁ es result b' →
      (Answered b' result ↔ Lands (.own b (.step op) (.ok a) b₁) ∧ ∀ e ∈ es, Lands e)) :
    Faithful R (perform op >>= k) := by
  intro b es result b' hrun
  obtain ⟨between, b₁, x, b₂, rest, hserv, hrest, rfl, hbetween⟩ := RunsAmong.of_call hrun
  rw [lands_append hbetween]
  cases x with
  | ok a => exact h _ _ _ _ _ _ hserv hrest
  | error e =>
      obtain ⟨rfl, rfl, rfl⟩ := hrest.of_ret
      exact iff_of_true trivial ⟨trivial, lands_nil⟩

lemma faithful_perform {k : TransferAns op → TransferProg (Except String TransferState)}
    (hop : ∀ expected newState, op.cas = some (expected, newState) →
      newState.isTerminal = false)
    (h : ∀ a, Faithful R (k a)) : Faithful R (perform op >>= k) := by
  refine faithful_call fun b a b₁ es result b' _ hrest => ?_
  rw [h a _ _ _ _ hrest, iff_and_self]
  intro _ expected newState hcas hterminal
  exact absurd ((hop _ _ hcas).symm.trans hterminal) (by simp)

/-- A compare-and-set whose new state is answered. -/
lemma faithful_cas {expected newState : TransferState}
    (hcas : op.cas = some (expected, newState)) :
    Faithful R (perform op >>= fun _ => .ret (.ok newState)) := by
  refine faithful_call fun b a b₁ es result b' hserv hrest => ?_
  obtain ⟨rfl, rfl, rfl⟩ := hrest.of_ret
  have hstored : b'.Stored newState ↔ b.Stored expected ∨ b.Stored newState := by
    rcases hserv with hserv | ⟨-, a', hserv⟩
    · exact stored_of_cas hcas hserv
    · exact stored_of_cas hcas hserv
  constructor
  · intro hanswered
    refine ⟨?_, lands_nil⟩
    intro expected' newState' hcas' hterminal
    obtain ⟨rfl, rfl⟩ := Prod.mk.inj (Option.some.inj (hcas.symm.trans hcas'))
    exact hstored.mp (hanswered hterminal)
  · rintro ⟨hlands, -⟩ hterminal
    exact hstored.mpr (hlands _ _ hcas hterminal)

/-- A read: the state that has been read is stored. -/
lemma faithful_get
    {k : Option TransferRecord → TransferProg (Except String TransferState)}
    (h : ∀ r, Faithful R (k r) ∨ ∃ record, r = some record ∧ k r = .ret (.ok record.state)) :
    Faithful R (get >>= k) := by
  refine faithful_call fun b r b₁ es result b' hserv hrest => ?_
  have hlands : Lands (.own b (.step .get) (.ok r) b₁) :=
    fun _ _ hcas => absurd hcas (by simp [TransferOp.cas])
  rw [and_iff_right hlands]
  rcases h r with hfaithful | ⟨record, rfl, hk⟩
  · exact hfaithful _ _ _ _ hrest
  · rw [hk] at hrest
    obtain ⟨rfl, rfl, rfl⟩ := hrest.of_ret
    refine iff_of_true (fun _ => ?_) lands_nil
    rcases hserv with ⟨hrow, rfl⟩ | ⟨hassumed, -⟩
    · exact ⟨record, hrow.symm, rfl⟩
    · exact absurd hassumed not_false

/-- What comes after the answer of a program, if it leaves errors and terminal states alone. -/
lemma faithful_bind {p : TransferProg (Except String TransferState)}
    {f : Except String TransferState → TransferProg (Except String TransferState)}
    (hp : Faithful R p) (herror : ∀ e, f (.error e) = .ret (.error e))
    (hterminal : ∀ state, state.isTerminal = true → f (.ok state) = .ret (.ok state))
    (hlive : ∀ state, state.isTerminal = false → Faithful R (f (.ok state))) :
    Faithful R (p >>= f) := by
  intro b es result b' hrun
  rw [attempted, attempt_bind] at hrun
  obtain ⟨answer, b₁, es₁, es₂, hfirst, hsecond, rfl⟩ := hrun.of_bind
  have hiff := hp _ _ _ _ hfirst
  rw [List.forall_mem_append, ← hiff]
  rcases answer with e | e | state
  · obtain ⟨rfl, rfl, rfl⟩ := hsecond.of_ret
    exact iff_of_true trivial ⟨trivial, lands_nil⟩
  · rw [orElse, herror] at hsecond
    obtain ⟨rfl, rfl, rfl⟩ := hsecond.of_ret
    exact iff_of_true trivial ⟨trivial, lands_nil⟩
  · cases hstate : state.isTerminal with
    | true =>
        rw [orElse, hterminal state hstate] at hsecond
        obtain ⟨rfl, rfl, rfl⟩ := hsecond.of_ret
        rw [and_iff_left lands_nil]
    | false =>
        rw [and_iff_right (answered_of_live hstate)]
        exact hlive state hstate _ _ _ _ hsecond

end Rules

/-! ## A step -/

section Steps

variable {R : Backend → Backend → Prop} (record : TransferRecord)

lemma faithful_currentState : Faithful R currentState := by
  refine faithful_get fun r => ?_
  cases r with
  | none => exact .inl (faithful_error _)
  | some record => exact .inr ⟨record, rfl, rfl⟩

lemma faithful_afterWithdraw (result : OpResult) : Faithful R (afterWithdraw result) := by
  cases result with
  | success => exact faithful_cas rfl
  | failed e => exact faithful_cas rfl
  | pending => exact faithful_live rfl

/-- An operation that is no compare-and-set. -/
lemma faithful_other {op : TransferOp}
    {k : TransferAns op → TransferProg (Except String TransferState)} (hcas : op.cas = none)
    (h : ∀ a, Faithful R (k a)) : Faithful R (perform op >>= k) :=
  faithful_perform (fun _ _ hcas' => absurd (hcas.symm.trans hcas') (by simp)) h

lemma faithful_enter {expected newState : TransferState}
    {k : Bool → TransferProg (Except String TransferState)}
    (hlive : newState.isTerminal = false) (h : ∀ applied, Faithful R (k applied)) :
    Faithful R (updateStateIf expected newState >>= k) := by
  refine faithful_perform (fun _ _ hcas => ?_) h
  obtain ⟨-, rfl⟩ := Prod.mk.inj (Option.some.inj hcas)
  exact hlive

lemma faithful_stepSourcePending : Faithful R (stepSourcePending record) :=
  faithful_other rfl faithful_afterWithdraw

lemma faithful_stepInit : Faithful R (stepInit record) := by
  refine faithful_enter rfl fun applied => ?_
  cases applied with
  | false => exact faithful_currentState
  | true => exact faithful_other rfl faithful_afterWithdraw

lemma faithful_commitTransfer (site : TransferState) :
    Faithful R (commitTransfer site record) :=
  faithful_other rfl fun _ => faithful_cas rfl

lemma faithful_stepSourceDone : Faithful R (stepSourceDone record) := by
  refine faithful_enter rfl fun applied => ?_
  cases applied with
  | false => exact faithful_currentState
  | true =>
      refine faithful_other rfl fun answer => ?_
      cases answer with
      | success => exact faithful_commitTransfer record .sourceDone
      | failed e => exact faithful_cas rfl
      | pending => exact faithful_live rfl

lemma faithful_stepTargetPending : Faithful R (stepTargetPending record) := by
  refine faithful_other rfl fun answer => ?_
  cases answer with
  | success => exact faithful_commitTransfer record .targetPending
  | failed e =>
      show Faithful R (if record.source = .trading then _ else _)
      split
      · exact faithful_live rfl
      · exact faithful_cas rfl
  | pending => exact faithful_live rfl

lemma faithful_stepCompensating : Faithful R (stepCompensating record) := by
  refine faithful_other rfl fun answer => ?_
  cases answer with
  | success => exact faithful_cas rfl
  | failed e => exact faithful_live rfl
  | pending => exact faithful_live rfl

variable {record} in
lemma faithful_stepFrom (hlive : record.state.isTerminal = false) :
    Faithful R (stepFrom record) := by
  unfold stepFrom
  cases hstate : record.state with
  | init => exact faithful_stepInit record
  | sourcePending => exact faithful_stepSourcePending record
  | sourceDone => exact faithful_stepSourceDone record
  | targetPending => exact faithful_stepTargetPending record
  | compensating => exact faithful_stepCompensating record
  | committed => exact absurd hlive (by simp [hstate, TransferState.isTerminal])
  | rolledBack => exact absurd hlive (by simp [hstate, TransferState.isTerminal])
  | failed => exact absurd hlive (by simp [hstate, TransferState.isTerminal])

/-- **A step**: a terminal state that it answers is stored, if and only if its operations have
landed. -/
lemma faithful_step (reqId : UInt64) : Faithful R (step reqId) := by
  refine faithful_get fun r => ?_
  cases r with
  | none => exact .inl (faithful_error _)
  | some record =>
      dsimp only
      cases hstate : record.state.isTerminal with
      | true => exact .inr ⟨record, rfl, rfl⟩
      | false =>
          refine .inl (faithful_bind (faithful_stepFrom hstate) (fun e => rfl) ?_ ?_)
          · intro state hterminal
            simp only [hterminal, Bool.not_true, Bool.false_and, Bool.false_eq_true, if_false]
            rfl
          · intro state hlive
            dsimp only
            split
            · exact faithful_other rfl fun _ => faithful_live hlive
            · exact faithful_live hlive

end Steps

/-! ## The loop -/

/-- What `process_now` has returned, if it is a terminal state, is stored. -/
def Returned (b : Backend) : Option TransferState → Prop
  | some state => state.isTerminal = true → b.Stored state
  | none => True

/-- The read that follows an error. -/
lemma returned_stateAfterError {R : Backend → Backend → Prop} {b b' : Backend}
    {es : List (Event Backend WorkerOp WorkerAns)} {result : Option TransferState}
    (h : RunsAmong faulty R stateAfterError b es result b') :
    Returned b' result ↔ ∀ e ∈ es, Lands e := by
  obtain ⟨between, b₁, x, b₂, rest, hserv, hrest, rfl, hbetween⟩ := RunsAmong.of_call h
  rw [lands_append hbetween]
  obtain rfl := eq_of_followUp hserv
  rcases x with e | _ | r
  · obtain ⟨rfl, rfl, rfl⟩ := hrest.of_ret
    exact ⟨fun h => ⟨h rfl, lands_nil⟩, fun h _ => h.1⟩
  · obtain ⟨rfl, rfl, rfl⟩ := hrest.of_ret
    exact ⟨fun h => ⟨h rfl, lands_nil⟩, fun h _ => h.1⟩
  · obtain ⟨rfl, rfl, rfl⟩ := hrest.of_ret
    refine iff_of_true (fun _ => ?_) ⟨trivial, lands_nil⟩
    exact ⟨r, hserv.1.symm, rfl⟩

/-- The loop, turn by turn. -/
lemma returned_processNow {R : Backend → Backend → Prop} (reqId : UInt64) (readings : List Bool)
    {b b' : Backend} {es : List (Event Backend WorkerOp WorkerAns)}
    {result : Option TransferState}
    (h : RunsAmong faulty R (processNow reqId readings) b es result b') :
    Returned b' result ↔ ∀ e ∈ es, Lands e := by
  induction readings generalizing b es with
  | nil =>
      obtain ⟨rfl, rfl, rfl⟩ := h.of_ret
      exact iff_of_true trivial lands_nil
  | cons late readings ih =>
      obtain ⟨answer, b₁, es₁, es₂, hstep, hrest, rfl⟩ := RunsAmong.of_bind h
      rw [List.forall_mem_append, ← faithful_step reqId _ _ _ _ hstep]
      rcases answer with e | e | state
      · exact (returned_stateAfterError hrest).trans (and_iff_right trivial).symm
      · exact (returned_stateAfterError hrest).trans (and_iff_right trivial).symm
      · rw [afterStep] at hrest
        split at hrest
        · obtain ⟨rfl, rfl, rfl⟩ := hrest.of_ret
          rw [and_iff_left lands_nil]
          exact Iff.rfl
        · rename_i hstate
          rw [and_iff_right (answered_of_live (Bool.eq_false_iff.mpr hstate))]
          split at hrest
          · obtain ⟨rfl, rfl, rfl⟩ := hrest.of_ret
            refine iff_of_true (fun hterminal => absurd hterminal hstate) ?_
            exact lands_nil
          · exact ih hrest

/-- An operation of a worker follows the edges. -/
def AllowedOp : WorkerOp → Prop
  | .step op => Allowed op
  | .followUp => True

lemma all_stateAfterError : stateAfterError.All AllowedOp := by
  refine ⟨trivial, fun x => ?_⟩
  rcases x with e | _ | r <;> trivial

lemma all_processNow (reqId : UInt64) (readings : List Bool) :
    (processNow reqId readings).All AllowedOp := by
  induction readings with
  | nil => trivial
  | cons late readings ih =>
      have hstep : (attempted (step reqId)).All AllowedOp := by
        refine All.attempt ?_ (all_step reqId)
        exact fun _ hop => hop
      refine All.bind hstep (fun answer => ?_)
      rcases answer with e | e | state
      · exact all_stateAfterError
      · exact all_stateAfterError
      · rw [afterStep]
        split
        · trivial
        · split
          · trivial
          · exact ih

lemma Others.stored {reqId : UInt64} {b b' : Backend} {state : TransferState}
    (h : Others reqId b b') (hterminal : state.isTerminal = true) (hstored : b.Stored state) :
    b'.Stored state := by
  obtain ⟨op, a, hop, hserv⟩ := h
  exact hstored.of_faulty hterminal ((all_step reqId).of_performs hop) hserv

/-- Any number of workers are such others. -/
lemma others_of_reachable {W : Type} [DecidableEq W] {P : (op : TransferOp) → TransferAns op → Prop}
    {reqId : UInt64} {b : Backend} {c : Workers W}
    (h : Config.Reachable (serves.restrict P) (step reqId) b c) :
    Relation.ReflTransGen (Others reqId) b c.shared := by
  refine Relation.ReflTransGen.mono ?_ _ _ h.performed
  rintro t t' ⟨op, a, hop, hserv, -⟩
  exact ⟨op, .ok a, hop, .inl hserv⟩

lemma terminal_of_reported {state : TransferState} (h : (transferStatus state).1 ≠ "pending") :
    state.isTerminal = true := by
  cases state <;> first | rfl | exact absurd rfl h

/-- **What is returned has been stored.**  In a run of `process_now` among other workers, whatever
fails, a terminal state that is returned has been that of the record at some moment, if and only
if all operations have landed.  Then the gateway reports, unless it is pending, the state the record
is in, and it stays there. -/
theorem processNow_stored_iff (reqId : UInt64) (readings : List Bool) (b b' : Backend)
    (es : List (Event Backend WorkerOp WorkerAns)) (state : TransferState)
    (h : RunsAmong faulty (Others reqId) (processNow reqId readings) b es (some state) b') :
    ((state.isTerminal = true → ∃ t ∈ b :: es.map Event.after, t.Stored state) ↔
        ∀ e ∈ es, Lands e) ∧
      ((∀ e ∈ es, Lands e) → (transferStatus state).1 ≠ "pending" →
        ∀ later, Relation.ReflTransGen (Others reqId) b' later → later.Stored state) := by
  have hiff := returned_processNow reqId readings h
  constructor
  · rw [← hiff]
    constructor
    · intro hmoment hterminal
      -- A terminal state that has been stored at some moment is still stored at the end.
      refine h.stable (A := fun t => t.Stored state)
        (fun _ _ hothers hstored => hothers.stored hterminal hstored) ?_
        (all_processNow reqId readings) (hmoment hterminal)
      intro t op x t' hop hserv hstored
      cases op with
      | step op => exact hstored.of_faulty hterminal hop hserv
      | followUp => rwa [eq_of_followUp hserv]
    · intro hreturned hterminal
      exact ⟨b', h.last_mem, hreturned hterminal⟩
  · intro hlands hreported later hlater
    have hterminal := terminal_of_reported hreported
    induction hlater with
    | refl => exact hiff.mpr hlands hterminal
    | tail _ hothers ih => exact hothers.stored hterminal ih

/-- A transfer that is committed already. -/
def committedTransfer : Backend :=
  { created fundingToTrading with row := some { fundingToTrading with state := .committed } }

theorem processNow_stored_iff_committed :
    ∃ es, RunsAmong faulty (Others 1) (processNow 1 [false]) committedTransfer es
      (some .committed) committedTransfer ∧ ∀ e ∈ es, Lands e := by
  have hrun : RunsAmong faulty (Others 1) (processNow 1 [false]) committedTransfer
      [.own committedTransfer (.step .get) (.ok committedTransfer.row) committedTransfer]
      (some .committed) committedTransfer := .own (.inl ⟨rfl, rfl⟩) (.ret _ _)
  refine ⟨_, hrun, (processNow_stored_iff 1 [false] _ _ _ _ hrun).1.mp fun _ => ?_⟩
  exact ⟨committedTransfer, List.mem_cons_self, _, rfl, rfl⟩

/-- The two reads fail, and `Failed` is returned of a transfer that has just been created; another
worker commits it afterwards. -/
theorem processNow_masks_error :
    ∃ es, RunsAmong faulty (Others 1) (processNow 1 [false]) (created fundingToTrading) es
        (some .failed) (created fundingToTrading) ∧
      (∀ t ∈ created fundingToTrading :: es.map Event.after, ¬t.Stored .failed) ∧
      ∃ later, Relation.ReflTransGen (Others 1) (created fundingToTrading) later ∧
        later.Stored .committed := by
  have hlive : ¬(created fundingToTrading).Stored .failed := by
    rintro ⟨r, hr, hstate⟩
    obtain rfl := Option.some.inj hr
    exact absurd hstate (by decide)
  refine ⟨[.own (created fundingToTrading) (.step .get) (.error "Failed to query transfer by ID")
      (created fundingToTrading),
    .own (created fundingToTrading) .followUp (.error "Failed to query transfer by ID")
      (created fundingToTrading)], ?_, ?_, ?_⟩
  · exact .own ⟨rfl, .inl rfl⟩ (.own rfl (.ret _ _))
  · intro t ht
    simp only [List.map_cons, List.map_nil, Event.after, List.mem_cons, List.not_mem_nil, or_false,
      or_self] at ht
    rw [ht]
    exact hlive
  · obtain ⟨c, hc, -, r, hr, hstate⟩ := reachable_committed fundingToTrading
      (fun _ _ _ => trivial) .success (P := fun _ _ => True) trivial
    exact ⟨c.shared, others_of_reachable hc, r, hr, hstate⟩

end TransferWorker

end ExchangeCore
