import ExchangeCore.Framework.Fallible
import ExchangeCore.Framework.HashMap
import ExchangeCore.Models.Order
import ExchangeCore.Ubs.Balance

/-!
# UBSCore

The balance authority (`ubs_core/core.rs`) with what it is made of: the deduplication guard
(`dedup.rs`), the debt ledger (`debt.rs`) and the accounts.  An order is validated here, and its
funds locked, before it reaches the matching engine; what the engine reports back is settled
here, trade by trade.

The wall clock is an argument of `validateOrder`.  Events go to `event_tx`, the list of events
sent so far if a listener is attached.  `Side` is the engine's: UBSCore has an enum of its own
with the same two cases.
-/

namespace ExchangeCore

/-! ## Orders -/

/-- `InternalOrder`; the order type is not read by the functions modelled here. -/
structure InternalOrder where
  orderId : UInt64
  userId : UInt64
  symbolId : UInt32
  side : Side
  price : UInt64
  qty : UInt64
  orderType : OrderType
  deriving DecidableEq, Repr

/-- `SnowflakeGenRng::timestamp_ms`. -/
def snowflakeTimestampMs (val : UInt64) : UInt64 := val >>> 20

namespace InternalOrder

def timestampMs (order : InternalOrder) : UInt64 := snowflakeTimestampMs order.orderId

/-- `calculate_cost`: saturates at `u64::MAX`. -/
def calculateCost (order : InternalOrder) : UInt64 :=
  match order.side with
  | .buy => (Word.checkedMul order.price order.qty).getD 0xFFFFFFFFFFFFFFFF
  | .sell => order.qty

/-- The asset `validate_order` locks, of the (base, quote) pair of the symbol. -/
def lockAsset (order : InternalOrder) (assets : UInt32 × UInt32) : UInt32 :=
  match order.side with
  | .buy => assets.2
  | .sell => assets.1

end InternalOrder

inductive RejectReason
  | orderTooOld
  | futureTimestamp
  | duplicateOrderId
  | invalidSymbol
  | orderCostOverflow
  | insufficientBalance
  | insufficientFunds
  | insufficientFrozen
  | balanceOverflow
  | accountNotFound
  | systemBusy
  | internalError
  deriving DecidableEq, Repr

/-! ## Deduplication -/

/-- `DeduplicationGuard`; the `IndexSet` is the list of its elements in insertion order. -/
structure DeduplicationGuard where
  cache : List UInt64
  minAllowedTs : UInt64
  deriving DecidableEq, Repr

namespace DeduplicationGuard

/-- `CACHE_SIZE`. -/
def CACHE_SIZE : ℕ := 10000

/-- `MAX_TIME_DRIFT_MS`. -/
def MAX_TIME_DRIFT_MS : UInt64 := 3000

def new : DeduplicationGuard := ⟨[], 0⟩

/-- Make room in a full cache; `IndexSet::pop` takes the element inserted last. -/
def evict (g : DeduplicationGuard) : DeduplicationGuard :=
  if g.cache.length ≥ CACHE_SIZE then
    match g.cache.getLast? with
    | some evicted =>
        { cache := g.cache.dropLast
          minAllowedTs := max g.minAllowedTs (snowflakeTimestampMs evicted) }
    | none => g
  else g

def checkAndRecord (g : DeduplicationGuard) (orderId now : UInt64) :
    Except RejectReason Unit × DeduplicationGuard :=
  let orderTs := snowflakeTimestampMs orderId
  if Word.saturatingSub now orderTs > MAX_TIME_DRIFT_MS then (.error .orderTooOld, g)
  else if orderTs > Word.saturatingAdd now 1000 then (.error .futureTimestamp, g)
  else if orderTs < g.minAllowedTs then (.error .orderTooOld, g)
  else if orderId ∈ g.cache then (.error .duplicateOrderId, g)
  else
    let g := g.evict
    (.ok (), { g with cache := g.cache ++ [orderId] })

end DeduplicationGuard

/-! ## Debts -/

/-- `DebtLedger`: the amounts owed; the reason and time of a debt are not read here. -/
structure DebtLedger where
  debts : HashMap (UInt64 × UInt32) UInt64

namespace DebtLedger

def new : DebtLedger := ⟨HashMap.empty⟩

/-- `pay_debt`: what is left of the payment after the debt. -/
def payDebt (l : DebtLedger) (userId : UInt64) (assetId : UInt32) (amount : UInt64) :
    UInt64 × DebtLedger :=
  match l.debts.get? (userId, assetId) with
  | some debt =>
      let payOff := min amount debt
      let debt := debt - payOff
      (amount - payOff,
        ⟨if debt = 0 then l.debts.erase (userId, assetId)
          else l.debts.insert (userId, assetId) debt⟩)
  | none => (amount, l)

end DebtLedger

/-! ## Events -/

inductive UnlockReason
  | cancel
  | expire
  | fillRemainder
  deriving DecidableEq, Repr

inductive BalanceEvent
  | deposited (txId userId : UInt64) (assetId : UInt32) (amount : UInt64)
  | withdrawn (txId userId : UInt64) (assetId : UInt32) (amount : UInt64)
  | fundsLocked (orderId userId : UInt64) (assetId : UInt32) (amount : UInt64)
  | fundsUnlocked (orderId : UInt64) (reason : UnlockReason)
  | tradeSettled (matchId buyerId sellerId : UInt64) (baseAsset quoteAsset : UInt32)
      (baseQty quoteAmt buyerFee sellerFee buyerOrderId sellerOrderId : UInt64)
  | accountCreated (userId : UInt64)
  deriving DecidableEq, Repr

/-! ## The core -/

/-- `UBSCore`: what the functions modelled here read of it. -/
structure UBSCore where
  accounts : HashMap UInt64 UserAccount
  dedupGuard : DeduplicationGuard
  debtLedger : DebtLedger
  pendingQueue : List InternalOrder
  assetMap : HashMap UInt32 (UInt32 × UInt32)
  isReplayMode : Bool
  eventTx : Option (List BalanceEvent)

namespace UBSCore

/-- `HIGH_WATER_MARK`. -/
def HIGH_WATER_MARK : ℕ := 10000

def new : UBSCore where
  accounts := HashMap.empty
  dedupGuard := DeduplicationGuard.new
  debtLedger := DebtLedger.new
  pendingQueue := []
  assetMap := HashMap.empty
  isReplayMode := false
  eventTx := none

def registerSymbol (ubs : UBSCore) (symbolId : UInt32) (assets : UInt32 × UInt32) : UBSCore :=
  { ubs with assetMap := ubs.assetMap.insert symbolId assets }

def emitEvent (event : BalanceEvent) (ubs : UBSCore) : UBSCore :=
  { ubs with eventTx := ubs.eventTx.map (· ++ [event]) }

/-- `current_time`, at a reading of the wall clock. -/
def currentTime (ubs : UBSCore) (order : InternalOrder) (clock : UInt64) : UInt64 :=
  if ubs.isReplayMode then order.timestampMs else clock

/-- One operation on the balance of an existing account: `accounts.get_mut`, `get_balance_mut`,
the operation, and the error it is mapped to. -/
def onBalance (userId : UInt64) (assetId : UInt32) (op : Balance → Except String Unit × Balance)
    (reject : RejectReason) : Fallible UBSCore RejectReason Unit := fun ubs =>
  match ubs.accounts.get? userId with
  | none => (.error .accountNotFound, ubs)
  | some account =>
      let r := op (account.balanceMut assetId)
      let accounts := ubs.accounts.insert userId (account.writeBalance assetId r.2)
      (r.1.mapError (fun _ => reject), { ubs with accounts := accounts })

/-- The available balance of an account; read after an operation that has found the account. -/
def availOf (userId : UInt64) (assetId : UInt32) :
    Fallible UBSCore RejectReason UInt64 := fun ubs =>
  match ubs.accounts.get? userId with
  | none => (.error .accountNotFound, ubs)
  | some account => (.ok (account.balanceMut assetId).avail, ubs)

def lockFunds (userId : UInt64) (assetId : UInt32) (amount orderId : UInt64) :
    Fallible UBSCore RejectReason UInt64 := do
  onBalance userId assetId (Balance.lock amount) .insufficientFunds
  let avail ← availOf userId assetId
  Fallible.modify (emitEvent (.fundsLocked orderId userId assetId amount))
  pure avail

def unlockFunds (userId : UInt64) (assetId : UInt32) (amount orderId : UInt64) :
    Fallible UBSCore RejectReason UInt64 := do
  onBalance userId assetId (Balance.unlock amount) .insufficientFrozen
  let avail ← availOf userId assetId
  Fallible.modify (emitEvent (.fundsUnlocked orderId .cancel))
  pure avail

/-- The arguments of `settle_trade`. -/
structure Settlement where
  matchId : UInt64
  buyerId : UInt64
  sellerId : UInt64
  baseAsset : UInt32
  quoteAsset : UInt32
  baseQty : UInt64
  quoteAmt : UInt64
  buyerRefund : UInt64
  buyerOrderId : UInt64
  sellerOrderId : UInt64
  buyerFee : UInt64
  sellerFee : UInt64
  deriving DecidableEq, Repr

/-- The refund step of `settle_trade`: the excess goes back from frozen to available. -/
def refundBuyer (t : Settlement) : Fallible UBSCore RejectReason Unit :=
  if t.buyerRefund > 0 then
    onBalance t.buyerId t.quoteAsset (Balance.unlock t.buyerRefund) .insufficientFrozen
  else pure ()

/-- `settle_trade`: the buyer pays out of frozen funds, receives the base asset and takes back
the excess; the seller pays out of frozen funds and receives the quote asset. -/
def settleTrade (t : Settlement) : Fallible UBSCore RejectReason Unit := do
  onBalance t.buyerId t.quoteAsset (Balance.spendFrozen t.quoteAmt) .insufficientFrozen
  onBalance t.buyerId t.baseAsset (Balance.deposit t.baseQty) .balanceOverflow
  refundBuyer t
  onBalance t.sellerId t.baseAsset (Balance.spendFrozen t.baseQty) .insufficientFrozen
  onBalance t.sellerId t.quoteAsset (Balance.deposit t.quoteAmt) .balanceOverflow
  Fallible.modify (emitEvent
    (.tradeSettled t.matchId t.buyerId t.sellerId t.baseAsset t.quoteAsset t.baseQty t.quoteAmt
      t.buyerFee t.sellerFee t.buyerOrderId t.sellerOrderId))

/-- `validate_order`: backpressure, deduplication, account, cost, assets, and the lock. -/
def validateOrder (order : InternalOrder) (clock : UInt64) : Fallible UBSCore RejectReason Unit :=
  fun ubs =>
    if ubs.pendingQueue.length > HIGH_WATER_MARK then (.error .systemBusy, ubs)
    else
      let now := ubs.currentTime order clock
      let checked := ubs.dedupGuard.checkAndRecord order.orderId now
      let ubs := { ubs with dedupGuard := checked.2 }
      match checked.1 with
      | .error e => (.error e, ubs)
      | .ok () =>
          match ubs.accounts.get? order.userId with
          | none => (.error .accountNotFound, ubs)
          | some _ =>
              let cost := order.calculateCost
              if cost = 0xFFFFFFFFFFFFFFFF then (.error .orderCostOverflow, ubs)
              else
                match ubs.assetMap.get? order.symbolId with
                | none => (.error .invalidSymbol, ubs)
                | some assets =>
                    match lockFunds order.userId (order.lockAsset assets) cost order.orderId
                      ubs with
                    | (.error e, ubs) => (.error e, ubs)
                    | (.ok _, ubs) => (.ok (), ubs)

/-- Create the account of a user who has none. -/
def ensureAccount (userId : UInt64) (ubs : UBSCore) : UBSCore :=
  if (ubs.accounts.get? userId).isSome then ubs
  else
    emitEvent (.accountCreated userId)
      { ubs with accounts := ubs.accounts.insert userId (UserAccount.new userId) }

/-- `on_deposit`: debts first, the rest to the balance.  An overflow of the balance is ignored
and the event is sent nevertheless. -/
def onDeposit (userId : UInt64) (assetId : UInt32) (amount txId : UInt64) (ubs : UBSCore) :
    UBSCore :=
  let paid := ubs.debtLedger.payDebt userId assetId amount
  let remaining := paid.1
  let ubs := { ubs with debtLedger := paid.2 }
  if remaining > 0 then
    let ubs := ubs.ensureAccount userId
    let ubs := (onBalance userId assetId (Balance.deposit remaining) .balanceOverflow ubs).2
    emitEvent (.deposited txId userId assetId remaining) ubs
  else ubs

def onWithdraw (userId : UInt64) (assetId : UInt32) (amount txId : UInt64) (ubs : UBSCore) :
    Bool × UBSCore :=
  match onBalance userId assetId (Balance.withdraw amount) .insufficientFunds ubs with
  | (.ok (), ubs) => (true, emitEvent (.withdrawn txId userId assetId amount) ubs)
  | (.error _, ubs) => (false, ubs)

end UBSCore

end ExchangeCore
