import Mathlib.Tactic.Common

/-!
# Transfers and their states

The data of an internal transfer (`transfer/types.rs`) and the state machine it is meant to follow
(`transfer/state.rs`).  Request ids are `u64`; the stored timestamps are `i64` milliseconds.
-/

namespace ExchangeCore

/-- A service funds are moved from or to. -/
inductive ServiceId
  | funding
  | trading
  deriving DecidableEq, Repr

/-- What a service answers to an operation: done, refused for good, or not known yet. -/
inductive OpResult
  | success
  | failed (reason : String)
  | pending
  deriving DecidableEq, Repr

/-- The states of a transfer. -/
inductive TransferState
  | init
  | sourcePending
  | sourceDone
  | targetPending
  | compensating
  | committed
  | rolledBack
  | failed
  deriving DecidableEq, Repr

namespace TransferState

def isTerminal : TransferState → Bool
  | .committed | .rolledBack | .failed => true
  | _ => false

end TransferState

/-- The events of the state machine. -/
inductive TransferEvent
  | sourceCall
  | sourceOk
  | sourceFail
  | targetCall
  | targetOk
  | targetFail
  | rollbackOk
  | rollbackFail
  deriving DecidableEq, Repr

/-- `transition`: an event that does not apply leaves the state alone. -/
def transition : TransferState → TransferEvent → TransferState
  | .init, .sourceCall => .sourcePending
  | .init, .sourceOk => .sourceDone
  | .init, .sourceFail => .failed
  | .sourcePending, .sourceOk => .sourceDone
  | .sourcePending, .sourceFail => .failed
  | .sourceDone, .targetCall => .targetPending
  | .sourceDone, .targetOk => .committed
  | .sourceDone, .targetFail => .compensating
  | .targetPending, .targetOk => .committed
  | .targetPending, .targetFail => .compensating
  | .compensating, .rollbackOk => .rolledBack
  | .compensating, .rollbackFail => .compensating
  | current, _ => current

lemma transition_of_isTerminal {s : TransferState} (h : s.isTerminal = true) (e : TransferEvent) :
    transition s e = s := by
  cases s <;> first | rfl | exact absurd h (by decide)

/-- `TransferRecord`, the row of a transfer. -/
structure TransferRecord where
  reqId : UInt64
  source : ServiceId
  target : ServiceId
  userId : UInt64
  assetId : UInt32
  amount : UInt64
  state : TransferState
  createdAt : Int64
  updatedAt : Int64
  error : Option String
  retryCount : UInt32
  deriving DecidableEq

end ExchangeCore
