import ExchangeCore.Models.Order

/-!
# The ledger interface

The commands the matching engine addresses to a ledger and the `Ledger` trait (`ledger.rs`), with
the one implementation the engine instantiates it with, `NullLedger` (`null_ledger.rs`): balances
live in UBSCore, so it answers every query with a dummy value and accepts every command.
-/

namespace ExchangeCore

inductive OrderStatus
  | new
  | partiallyFilled
  | filled
  | cancelled
  | rejected
  | expired
  deriving DecidableEq, Repr

structure OrderUpdate where
  orderId : UInt64
  clientOrderId : Option String
  userId : UInt64
  symbolId : UInt32
  side : UInt8
  orderType : UInt8
  status : OrderStatus
  price : UInt64
  qty : UInt64
  filledQty : UInt64
  avgFillPrice : Option UInt64
  rejectionReason : Option String
  timestamp : UInt64
  matchId : Option UInt64
  deriving DecidableEq, Repr

/-- `ledger::MatchExecData`: one trade with the balance versions and snapshots of both parties. -/
structure MatchExecData where
  tradeId : UInt64
  buyOrderId : UInt64
  sellOrderId : UInt64
  buyerUserId : UInt64
  sellerUserId : UInt64
  price : UInt64
  quantity : UInt64
  baseAssetId : UInt32
  quoteAssetId : UInt32
  buyerRefund : UInt64
  sellerRefund : UInt64
  matchSeq : UInt64
  outputSequence : UInt64
  settledAt : UInt64
  buyerQuoteVersion : UInt64
  buyerBaseVersion : UInt64
  sellerBaseVersion : UInt64
  sellerQuoteVersion : UInt64
  buyerQuoteBalanceAfter : UInt64
  buyerBaseBalanceAfter : UInt64
  sellerBaseBalanceAfter : UInt64
  sellerQuoteBalanceAfter : UInt64
  deriving DecidableEq, Repr

inductive LedgerCommand
  | deposit (userId : UInt64) (assetId : UInt32) (amount balanceAfter version : UInt64)
  | withdraw (userId : UInt64) (assetId : UInt32) (amount balanceAfter version : UInt64)
  | lock (userId : UInt64) (assetId : UInt32) (amount balanceAfter version : UInt64)
  | unlock (userId : UInt64) (assetId : UInt32) (amount balanceAfter version : UInt64)
  | tradeSettle (userId : UInt64) (spendAssetId : UInt32) (spendAmount : UInt64)
      (gainAssetId : UInt32) (gainAmount : UInt64)
  | matchExec (data : MatchExecData)
  | matchExecBatch (batch : List MatchExecData)
  | orderUpdate (update : OrderUpdate)
  | batch (commands : List LedgerCommand)

/-- The `Ledger` trait.  `apply` takes `&mut self`, so it returns the ledger it leaves behind
also when it fails. -/
class Ledger (L : Type) where
  getBalance : L → UInt64 → UInt32 → UInt64
  getFrozen : L → UInt64 → UInt32 → UInt64
  getBalanceVersion : L → UInt64 → UInt32 → UInt64
  apply : L → LedgerCommand → Except String Unit × L

/-- The stub ledger of the matching engine. -/
structure NullLedger where
  deriving DecidableEq, Repr

namespace NullLedger

instance : Ledger NullLedger where
  getBalance _ _ _ := 0xFFFFFFFFFFFFFFFF
  getFrozen _ _ _ := 0
  getBalanceVersion _ _ _ := 0
  apply l _ := (.ok (), l)

@[simp] lemma apply_eq (l : NullLedger) (cmd : LedgerCommand) :
    Ledger.apply l cmd = (.ok (), l) := rfl

@[simp] lemma getBalance_eq (l : NullLedger) (u : UInt64) (a : UInt32) :
    Ledger.getBalance l u a = 0xFFFFFFFFFFFFFFFF := rfl

@[simp] lemma getFrozen_eq (l : NullLedger) (u : UInt64) (a : UInt32) :
    Ledger.getFrozen l u a = 0 := rfl

@[simp] lemma getBalanceVersion_eq (l : NullLedger) (u : UInt64) (a : UInt32) :
    Ledger.getBalanceVersion l u a = 0 := rfl

end NullLedger

end ExchangeCore
