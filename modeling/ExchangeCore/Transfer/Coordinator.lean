import ExchangeCore.Framework.Workers
import ExchangeCore.Transfer.State

/-!
# The transfer coordinator

`TransferCoordinator::step` (`transfer/coordinator.rs`) as a program over two shared services: the
row of the transfer in the database (`transfer/db.rs`) and the adapters of the two services the
transfer moves funds between (`transfer/adapters`).  Every database operation and every adapter
call is one operation of the program.  All of them concern one request, so its id is implicit.

What the services may do is `Backend.serves`.  The database compares and sets atomically and says
truly whether it has; the adapters answer anything.  A database error ends the step, as a crash
does; whether the operation has been applied before is left open.
-/

namespace ExchangeCore

/-! ## Operations -/

/-- The operations of a service adapter. -/
inductive AdapterOp
  | withdraw
  | deposit
  | commit
  | rollback
  deriving DecidableEq, Repr

/-- A call of an adapter, with its arguments other than the request id. -/
inductive AdapterCall
  | withdraw (userId : UInt64) (assetId : UInt32) (amount : UInt64)
  | deposit (userId : UInt64) (assetId : UInt32) (amount : UInt64)
  | commit
  | rollback
  deriving DecidableEq, Repr

/-- The operation called. -/
def AdapterCall.op : AdapterCall → AdapterOp
  | .withdraw _ _ _ => .withdraw
  | .deposit _ _ _ => .deposit
  | .commit => .commit
  | .rollback => .rollback

/-- The operations of the coordinator.  An adapter call is labelled by the state whose step
function makes it. -/
inductive TransferOp
  | get
  | updateStateIf (expected newState : TransferState)
  | updateStateWithError (expected newState : TransferState) (error : String)
  | incrementRetry
  | adapter (site : TransferState) (service : ServiceId) (call : AdapterCall)
  deriving DecidableEq, Repr

/-- What the operations answer. -/
abbrev TransferAns : TransferOp → Type
  | .get => Option TransferRecord
  | .updateStateIf _ _ => Bool
  | .updateStateWithError _ _ _ => Bool
  | .incrementRetry => Unit
  | .adapter _ _ _ => OpResult

/-- A program of the coordinator. -/
abbrev TransferProg := Prog TransferOp TransferAns

/-! ## The services -/

/-- The definite answer, if it is one. -/
def OpResult.definite : OpResult → Option Bool
  | .success => some true
  | .failed _ => some false
  | .pending => none

/-- The state behind the operations: the row, and of each operation of each adapter whether it has
been called for this request and which definite answers it has given. -/
structure Backend where
  row : Option TransferRecord
  called : ServiceId → AdapterOp → Bool
  answered : ServiceId → AdapterOp → Bool → Bool

namespace Backend

/-- The backend after the transfer has been created. -/
def created (record : TransferRecord) : Backend :=
  ⟨some { record with state := .init }, fun _ _ => false, fun _ _ _ => false⟩

/-- A compare-and-set on the state of the row. -/
def Cas (b : Backend) (expected : TransferState) (update : TransferRecord → TransferRecord)
    (applied : Bool) (b' : Backend) : Prop :=
  match b.row with
  | none => applied = false ∧ b' = b
  | some r =>
      if r.state = expected then applied = true ∧ b' = { b with row := some (update r) }
      else applied = false ∧ b' = b

/-- The backend after a call of an adapter. -/
def afterCall (b : Backend) (service : ServiceId) (op : AdapterOp) (answer : OpResult) : Backend :=
  { b with
    called := fun s p => if s = service ∧ p = op then true else b.called s p
    answered := fun s p d =>
      if s = service ∧ p = op ∧ answer.definite = some d then true else b.answered s p d }

/-- One more retry in the row. -/
def retried (b : Backend) (now : Int64) : Backend :=
  { b with
    row := b.row.map (fun r => { r with retryCount := r.retryCount + 1, updatedAt := now }) }

/-- What the operations may answer. -/
def serves : Service Backend TransferOp TransferAns
  | b, .get, r, b' => r = b.row ∧ b' = b
  | b, .updateStateIf expected newState, applied, b' =>
      ∃ now, b.Cas expected (fun r => { r with state := newState, updatedAt := now }) applied b'
  | b, .updateStateWithError expected newState error, applied, b' =>
      ∃ now, b.Cas expected
        (fun r => { r with state := newState, updatedAt := now, error := some error }) applied b'
  | b, .incrementRetry, (), b' => ∃ now, b' = b.retried now
  | b, .adapter _ service call, answer, b' => b' = b.afterCall service call.op answer

end Backend

/-! ## The step functions -/

namespace TransferCoordinator

open Prog

/-- `db.get`. -/
def get : TransferProg (Option TransferRecord) := perform TransferOp.get

/-- `db.update_state_if`. -/
def updateStateIf (expected newState : TransferState) : TransferProg Bool :=
  perform (TransferOp.updateStateIf expected newState)

/-- `db.update_state_with_error`. -/
def updateStateWithError (expected newState : TransferState) (error : String) :
    TransferProg Bool :=
  perform (TransferOp.updateStateWithError expected newState error)

/-- `db.increment_retry`. -/
def incrementRetry : TransferProg Unit := perform TransferOp.incrementRetry

/-- A call of an adapter by the step function of `site`. -/
def call (site : TransferState) (service : ServiceId) (c : AdapterCall) : TransferProg OpResult :=
  perform (TransferOp.adapter site service c)

/-- The state of the row after a compare-and-set that was not applied. -/
def currentState : TransferProg (Except String TransferState) := do
  match ← get with
  | some r => return .ok r.state
  | none => return .error "Transfer not found after CAS failure"

/-- `source.withdraw` with the fields of the record. -/
def withdraw (site : TransferState) (record : TransferRecord) : TransferProg OpResult :=
  call site record.source (.withdraw record.userId record.assetId record.amount)

/-- `target.deposit` with the fields of the record. -/
def deposit (site : TransferState) (record : TransferRecord) : TransferProg OpResult :=
  call site record.target (.deposit record.userId record.assetId record.amount)

/-- `finalize_source_commit`: the answer is only logged. -/
def finalizeSourceCommit (site : TransferState) (record : TransferRecord) : TransferProg Unit := do
  let _ ← call site record.source .commit
  return ()

/-- What the two functions that call `source.withdraw` do with its answer. -/
def afterWithdraw : OpResult → TransferProg (Except String TransferState)
  | .success => do
      let _ ← updateStateIf .sourcePending .sourceDone
      return .ok .sourceDone
  | .failed e => do
      let _ ← updateStateWithError .sourcePending .failed e
      return .ok .failed
  | .pending => return .ok .sourcePending

def stepInit (record : TransferRecord) : TransferProg (Except String TransferState) := do
  if !(← updateStateIf .init .sourcePending) then
    currentState
  else
    let result ← withdraw .init record
    afterWithdraw result

def stepSourcePending (record : TransferRecord) : TransferProg (Except String TransferState) := do
  let result ← withdraw .sourcePending record
  afterWithdraw result

/-- Commit the source and the transfer after the target has succeeded. -/
def commitTransfer (site : TransferState) (record : TransferRecord) :
    TransferProg (Except String TransferState) := do
  finalizeSourceCommit site record
  let _ ← updateStateIf .targetPending .committed
  return .ok .committed

/-- `step_source_done`.  A failed deposit is compensated, whatever the source. -/
def stepSourceDone (record : TransferRecord) : TransferProg (Except String TransferState) := do
  if !(← updateStateIf .sourceDone .targetPending) then
    currentState
  else
    match ← deposit .sourceDone record with
    | .success => commitTransfer .sourceDone record
    | .failed e => do
        let _ ← updateStateWithError .targetPending .compensating e
        return .ok .compensating
    | .pending => return .ok .targetPending

/-- `step_target_pending`.  A failed deposit is compensated only if the source is not Trading. -/
def stepTargetPending (record : TransferRecord) : TransferProg (Except String TransferState) := do
  match ← deposit .targetPending record with
  | .success => commitTransfer .targetPending record
  | .failed e =>
      if record.source = .trading then
        return .ok .targetPending
      else do
        let _ ← updateStateWithError .targetPending .compensating e
        return .ok .compensating
  | .pending => return .ok .targetPending

def stepCompensating (record : TransferRecord) : TransferProg (Except String TransferState) := do
  match ← call .compensating record.source .rollback with
  | .success => do
      let _ ← updateStateIf .compensating .rolledBack
      return .ok .rolledBack
  | .failed _ => return .ok .compensating
  | .pending => return .ok .compensating

/-- The step function of a state. -/
def stepFrom (record : TransferRecord) : TransferProg (Except String TransferState) :=
  match record.state with
  | .init => stepInit record
  | .sourcePending => stepSourcePending record
  | .sourceDone => stepSourceDone record
  | .targetPending => stepTargetPending record
  | .compensating => stepCompensating record
  | _ => return .ok record.state

def step (reqId : UInt64) : TransferProg (Except String TransferState) := do
  match ← get with
  | none => return .error s!"Transfer not found: {reqId}"
  | some record =>
      if record.state.isTerminal then
        return .ok record.state
      else
        match ← stepFrom record with
        | .error e => return .error e
        | .ok newState =>
            if !newState.isTerminal && newState = record.state then
              incrementRetry
            return .ok newState

end TransferCoordinator

end ExchangeCore
