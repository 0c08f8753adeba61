import ExchangeCore.Engine.Obligation
import ExchangeCore.Ubs.Funds

/-!
# The balance authority and the matching engine together

`UBSCore` and the matching engine keep no shared state.  They are coupled by what is done with
their answers, which is the machine of this file:

* an order goes to `validate_order` first and, only if accepted there, to
  `add_order_and_build_output`;
* every trade of the output is settled by `settle_trade`, in order and before the next
  operation, with the quantity, the price times the quantity and the refund it reports;
* a successful `cancel_order` is followed by `unlock_funds` for what it reports.

Deposits, withdrawals and registrations on either side come in between at will.  A failing
settlement does not stop the run: it is recorded in the answer, so that its absence is a
statement about answers.
-/

namespace ExchangeCore

/-- The two components. -/
structure Exchange where
  ubs : UBSCore
  me : MatchingEngine

namespace Exchange

/-- Both components fresh. -/
def new (enableLocalWal : Bool) : Exchange := ⟨UBSCore.new, MatchingEngine.new enableLocalWal⟩

/-- The operations.  The fees are passed on by `settle_trade` and change no balance. -/
inductive Op
  | registerUbs (symbolId : UInt32) (assets : UInt32 × UInt32)
  | registerEngine (symbolId : UInt32) (assets : UInt32 × UInt32)
  | deposit (userId : UInt64) (assetId : UInt32) (amount txId : UInt64)
  | withdraw (userId : UInt64) (assetId : UInt32) (amount txId : UInt64)
  | place (order : InternalOrder) (clock : UInt64) (io : WalIo) (inputSeq timestamp : UInt64)
      (clientOrderId : String) (fees : TradeOutput → UInt64 × UInt64)
  | cancel (io : WalIo) (symbolId : UInt32) (orderId : UInt64)

/-- The answers. -/
inductive Answer
  | done
  /-- `validate_order` has rejected the order, which is not fed to the engine. -/
  | rejected (reason : RejectReason)
  /-- The engine has refused an order fed to it. -/
  | refused (orderId : UInt64) (error : OrderError)
  /-- The engine has accepted an order fed to it; what settling its trades returned. -/
  | settled (orderId : UInt64) (results : List (Except RejectReason Unit))
  /-- The engine has cancelled an order; what unlocking its funds returned. -/
  | unlocked (results : List (Except RejectReason UInt64))
  | notCancelled (error : OrderError)

/-- The engine's view of a validated order. -/
def request (order : InternalOrder) (timestamp : UInt64) : OrderRequest where
  symbolId := order.symbolId
  orderId := order.orderId
  side := order.side
  orderType := order.orderType
  price := order.price
  quantity := order.qty
  userId := order.userId
  timestamp := timestamp

/-- The settlement of a trade the engine reports. -/
def settlement (fees : TradeOutput → UInt64 × UInt64) (t : TradeOutput) : UBSCore.Settlement where
  matchId := t.tradeId
  buyerId := t.buyerUserId
  sellerId := t.sellerUserId
  baseAsset := t.baseAssetId
  quoteAsset := t.quoteAssetId
  baseQty := t.quantity
  quoteAmt := t.price * t.quantity
  buyerRefund := t.buyerRefund
  buyerOrderId := t.buyOrderId
  sellerOrderId := t.sellOrderId
  buyerFee := (fees t).1
  sellerFee := (fees t).2

/-- Settle trades in order. -/
def settleAll (fees : TradeOutput → UInt64 × UInt64) :
    List TradeOutput → UBSCore → List (Except RejectReason Unit) × UBSCore
  | [], ubs => ([], ubs)
  | t :: ts, ubs =>
      let r := UBSCore.settleTrade (settlement fees t) ubs
      let rest := settleAll fees ts r.2
      (r.1 :: rest.1, rest.2)

/-- Unlock what the commands of a cancellation report. -/
def unlockAll (orderId : UInt64) :
    List LedgerCommand → UBSCore → List (Except RejectReason UInt64) × UBSCore
  | [], ubs => ([], ubs)
  | .unlock userId assetId amount _ _ :: cs, ubs =>
      let r := UBSCore.unlockFunds userId assetId amount orderId ubs
      let rest := unlockAll orderId cs r.2
      (r.1 :: rest.1, rest.2)
  | _ :: cs, ubs => unlockAll orderId cs ubs

/-- Validate, feed, settle. -/
def place (env : Externals) (x : Exchange) (order : InternalOrder) (clock : UInt64) (io : WalIo)
    (inputSeq timestamp : UInt64) (clientOrderId : String)
    (fees : TradeOutput → UInt64 × UInt64) : Exchange × Answer :=
  match UBSCore.validateOrder order clock x.ubs with
  | (.error e, ubs) => ({ x with ubs := ubs }, .rejected e)
  | (.ok (), ubs) =>
      match x.me.addOrderAndBuildOutput env io inputSeq (request order timestamp)
        clientOrderId with
      | (.error e, me) => (⟨ubs, me⟩, .refused order.orderId e)
      | (.ok (_, output), me) =>
          let r := settleAll fees output.trades ubs
          (⟨r.2, me⟩, .settled order.orderId r.1)

/-- Cancel, unlock. -/
def cancel (env : Externals) (x : Exchange) (io : WalIo) (symbolId : UInt32) (orderId : UInt64) :
    Exchange × Answer :=
  match x.me.cancelOrder env io symbolId orderId with
  | (.error e, me) => ({ x with me := me }, .notCancelled e)
  | (.ok commands, me) =>
      let r := unlockAll orderId commands x.ubs
      (⟨r.2, me⟩, .unlocked r.1)

/-- The two components as one machine. -/
def machine (env : Externals) : Machine Exchange Op Answer where
  step x
    | .registerUbs s assets => ({ x with ubs := x.ubs.registerSymbol s assets }, .done)
    | .registerEngine s assets => ({ x with me := (x.me.registerSymbol s assets).2 }, .done)
    | .deposit u a amount txId => ({ x with ubs := x.ubs.onDeposit u a amount txId }, .done)
    | .withdraw u a amount txId => ({ x with ubs := (x.ubs.onWithdraw u a amount txId).2 }, .done)
    | .place order clock io inputSeq timestamp clientOrderId fees =>
        x.place env order clock io inputSeq timestamp clientOrderId fees
    | .cancel io symbolId orderId => x.cancel env io symbolId orderId

/-! ## What is asked of a run, and what is claimed -/

/-- An order is placed for a symbol that both sides know by the same assets, or neither knows. -/
def KnownAlike (x : Exchange) : Op → Prop
  | .place order _ _ _ _ _ _ =>
      x.ubs.assetMap.get? order.symbolId = x.me.assetMap.get? order.symbolId
  | _ => True

/-- The order WAL, if there is one, can be written. -/
def Logged (x : Exchange) : Op → Prop
  | .place _ _ io _ _ _ _ => x.me.orderWal = none ∨ io.log = .ok () ∧ io.flush = .ok ()
  | _ => True

/-- Both. -/
def Admissible (x : Exchange) (op : Op) : Prop := x.KnownAlike op ∧ x.Logged op

/-- The id of an order fed to the engine, in an answer. -/
def Answer.fedId : Answer → Option UInt64
  | .refused orderId _ => some orderId
  | .settled orderId _ => some orderId
  | _ => none

/-- The ids of the orders fed to the engine. -/
def fedIds (answers : List Answer) : List UInt64 := answers.filterMap Answer.fedId

/-- What an operation deposits of an asset. -/
def Op.deposited (a : UInt32) : Op → ℕ
  | .deposit _ assetId amount _ => if a = assetId then amount.toNat else 0
  | _ => 0

/-- The total a run deposits of an asset. -/
def deposited (a : UInt32) (ops : List Op) : ℕ := (ops.map (Op.deposited a)).sum

/-- Neither a settlement nor an unlocking has failed. -/
def Answer.Succeeded : Answer → Prop
  | .settled _ results => ∀ r ∈ results, r = .ok ()
  | .unlocked results => ∀ r ∈ results, ∃ avail, r = .ok avail
  | _ => True

/-- Every user's frozen funds of every asset are what the user's resting orders hold. -/
def FrozenMatches (x : Exchange) : Prop := ∀ u a, x.ubs.frozen u a = obligation x.me u a

end Exchange

end ExchangeCore
