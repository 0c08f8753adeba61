import ExchangeCore.Transfer.StepContract

/-!
# The transfer service

All transfers at once: the handlers of the gateway (`handle_internal_transfer`), which create a
transfer, try to complete it and tell the client how it ended, and the background workers
(`TransferWorker::run_one_cycle`), which take up what the handlers left in the queue and what the
database reports as stale.  Any number of both run on any number of nodes, over one database and
the adapters of the two services; each may crash at any point, and the database may answer errors,
whether or not the operation has been applied.

`Desk` is what they share.  Of each transfer it holds a `Backend`, and beside it what has been asked
for, what the adapters have been called for and what clients have been told, so that the promises of
the service can be stated:

* `transfers_safe`: every transfer keeps the promises of the saga, and its adapters are only called
  for what has been asked for;
* `replies_truthful`: a client that is told "committed" or "rolled_back" is told the truth.

The id generator and the insertion of the record are one operation here: nobody knows the id before
the record is in the database.  An insertion overwrites the row that is under its id, if there is
one, so the promises are kept only as long as no id is given out twice (`Desk.DistinctIds`).
-/

namespace ExchangeCore

open Prog

structure TransferRequest where
  source : ServiceId
  target : ServiceId
  userId : UInt64
  assetId : UInt32
  amount : UInt64

/-- The record of a new transfer. -/
def TransferRequest.record (req : TransferRequest) (reqId : UInt64) (now : Int64) :
    TransferRecord where
  reqId := reqId
  source := req.source
  target := req.target
  userId := req.userId
  assetId := req.assetId
  amount := req.amount
  state := .init
  createdAt := now
  updatedAt := now
  error := none
  retryCount := 0

/-- `InternalTransferApiResponse`. -/
structure TransferReply where
  reqId : Option UInt64
  status : String
  message : Option String
  error : Option String

/-- What a worker takes up: a request of a client, with the readings of the clock its handler will
make, or a cycle of the background loop, with bounds on how long it lasts until it stops. -/
inductive Task
  | handle (req : TransferRequest) (now : Int64) (readings : List Bool)
  | cycle (pops turns : ℕ)

/-! ## Operations -/

/-- The operations of the service. -/
inductive ServiceOp
  | next
  | insert (req : TransferRequest) (now : Int64)
  | onRow (reqId : UInt64) (op : WorkerOp)
  | push (reqId : UInt64)
  | pop
  | findStale (staleAfterMs : Int64)
  | reply (response : TransferReply)

/-- What they answer. -/
abbrev ServiceAns : ServiceOp → Type
  | .next => Task
  | .insert _ _ => Except String UInt64
  | .onRow _ op => WorkerAns op
  | .push _ => Bool
  | .pop => Option UInt64
  | .findStale _ => Except String (List TransferRecord)
  | .reply _ => Unit

/-- A program of the service. -/
abbrev ServiceProg := Prog ServiceOp ServiceAns

/-- What handlers and workers share. -/
structure Desk where
  /-- The row of a transfer, and how the adapters have answered for it. -/
  backend : UInt64 → Backend
  /-- The ring buffer of transfers to be processed in the background. -/
  queue : List UInt64
  /-- The record a transfer was created with. -/
  requested : UInt64 → Option TransferRecord
  /-- The calls of the adapters. -/
  moves : List (UInt64 × ServiceId × AdapterCall)
  /-- What clients have been told. -/
  replies : List TransferReply
  /-- The ids under which records have been inserted. -/
  inserted : List UInt64

namespace Desk

/-- Before the first request. -/
def empty : Desk where
  backend _ := ⟨none, fun _ _ => false, fun _ _ _ => false⟩
  queue := []
  requested _ := none
  moves := []
  replies := []
  inserted := []

/-- `TransferDb::create`: whatever row is under the id is overwritten. -/
def insert (req : TransferRequest) (now : Int64) (reqId : UInt64) (t : Desk) : Desk :=
  { t with
    backend := Function.update t.backend reqId
      { t.backend reqId with row := some (req.record reqId now) }
    requested := Function.update t.requested reqId (some (req.record reqId now))
    inserted := t.inserted ++ [reqId] }

/-- No id has been given out twice. -/
def DistinctIds (t : Desk) : Prop := t.inserted.Nodup

/-- The calls of an adapter in an operation. -/
def movesOf (reqId : UInt64) : WorkerOp → List (UInt64 × ServiceId × AdapterCall)
  | .step (.adapter _ service c) => [(reqId, service, c)]
  | _ => []

end Desk

namespace TransferCoordinator

/-- The services of one transfer, where the database may answer errors. -/
def failing (outcome : ServiceId → AdapterOp → Option Bool) :
    Service Backend WorkerOp WorkerAns
  | b, .step op, .ok a, b' => decided outcome b op a b'
  | b, .step op, .error _, b' => op.isDatabase = true ∧ (b' = b ∨ ∃ a, decided outcome b op a b')
  | b, .followUp, .ok r, b' => r = b.row ∧ b' = b
  | b, .followUp, .error _, b' => b' = b

end TransferCoordinator

namespace Desk

open TransferCoordinator

variable (outcome : UInt64 → ServiceId → AdapterOp → Option Bool) (capacity : ℕ)

/-- What the operations may answer.  Each operation of an adapter has one outcome for a transfer. -/
def serves : Service Desk ServiceOp ServiceAns
  | t, .next, _, t' => t' = t
  | t, .insert req now, .ok reqId, t' => t' = t.insert req now reqId
  | t, .insert req now, .error _, t' => t' = t ∨ ∃ reqId, t' = t.insert req now reqId
  | t, .onRow reqId op, a, t' =>
      ∃ b, failing (outcome reqId) (t.backend reqId) op a b ∧
        t' = { t with
          backend := Function.update t.backend reqId b
          moves := t.moves ++ movesOf reqId op }
  | t, .push reqId, pushed, t' =>
      if t.queue.length < capacity then
        pushed = true ∧ t' = { t with queue := t.queue ++ [reqId] }
      else pushed = false ∧ t' = t
  | t, .pop, popped, t' =>
      popped = t.queue.head? ∧ t' = { t with queue := t.queue.tail }
  | t, .findStale staleAfterMs, .ok records, t' =>
      t' = t ∧ ∃ now : Int64, ∀ r, r ∈ records ↔ ∃ reqId, (t.backend reqId).row = some r ∧
        r.state.isTerminal = false ∧ r.updatedAt < now - staleAfterMs
  | t, .findStale _, .error _, t' => t' = t
  | t, .reply response, (), t' => t' = { t with replies := t.replies ++ [response] }

end Desk

/-! ## Programs -/

namespace TransferService

open TransferCoordinator TransferWorker

/-- A worker's program on one transfer. -/
def onRow {α : Type} (reqId : UInt64) (p : WorkerProg α) : ServiceProg α :=
  p.embed (ServiceOp.onRow reqId) (fun _ a => a)

/-- Tell the client. -/
def reply (response : TransferReply) : ServiceProg Unit := perform (ServiceOp.reply response)

/-- The answer to a request that is refused. -/
def refused (error : String) : TransferReply := ⟨none, "failed", none, some error⟩

/-- The answer to a request that has been processed. -/
def processed (reqId : UInt64) (state : TransferState) : TransferReply :=
  ⟨some reqId, (transferStatus state).1, (transferStatus state).2, none⟩

def create (req : TransferRequest) (now : Int64) : ServiceProg (Except String UInt64) :=
  if req.amount = 0 then return .error "Amount must be greater than 0"
  else if req.source = req.target then return .error "Source and target cannot be the same"
  else perform (ServiceOp.insert req now)

/-- `handle_internal_transfer`.  Without a state the clock has not been read to the end. -/
def handleInternalTransfer (req : TransferRequest) (now : Int64) (readings : List Bool) :
    ServiceProg Unit :=
  if req.amount = 0 then reply (refused "Amount must be greater than 0")
  else if req.source = req.target then reply (refused "Source and target cannot be the same")
  else do
    match ← create req now with
    | .error e => reply (refused e)
    | .ok reqId =>
        match ← onRow reqId (processNow reqId readings) with
        | none => return ()
        | some state =>
            if state.isTerminal then reply (processed reqId state)
            else do
              let _ ← perform (ServiceOp.push reqId)
              reply (processed reqId state)

/-- `process_transfer`, for as many turns.  Without a result, it is still running. -/
def processTransfer (reqId : UInt64) : ℕ → ServiceProg (Option Unit)
  | 0 => return none
  | turns + 1 => do
      match ← onRow reqId (attemptStep reqId) with
      | .ok (.ok state) => if state.isTerminal then return some () else processTransfer reqId turns
      | .ok (.error _) => return some ()
      | .error _ => return some ()

/-- The loop of `scan_stale_transfers`. -/
def processAll (turns : ℕ) : List TransferRecord → ServiceProg (Option Unit)
  | [] => return some ()
  | record :: records => do
      match ← processTransfer record.reqId turns with
      | some () => processAll turns records
      | none => return none

def scanStaleTransfers (staleAfterMs : Int64) (turns : ℕ) : ServiceProg (Option Unit) := do
  match ← perform (ServiceOp.findStale staleAfterMs) with
  | .ok records => processAll turns records
  | .error _ => return some ()

/-- `run_one_cycle`, for as many transfers in the queue. -/
def runOneCycle (staleAfterMs : Int64) (turns : ℕ) : ℕ → ServiceProg (Option Unit)
  | 0 => return none
  | pops + 1 => do
      match ← perform ServiceOp.pop with
      | some reqId =>
          match ← processTransfer reqId turns with
          | some () => runOneCycle staleAfterMs turns pops
          | none => return none
      | none => scanStaleTransfers staleAfterMs turns

/-- What a worker does with a task. -/
def run (staleAfterMs : Int64) : Task → ServiceProg Unit
  | .handle req now readings => handleInternalTransfer req now readings
  | .cycle pops turns => do
      let _ ← runOneCycle staleAfterMs turns pops
      return ()

/-- A worker takes up a task. -/
def main (staleAfterMs : Int64) : ServiceProg Unit := do
  run staleAfterMs (← perform ServiceOp.next)

end TransferService

end ExchangeCore
