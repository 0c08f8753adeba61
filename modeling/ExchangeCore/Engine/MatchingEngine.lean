import ExchangeCore.Book.OrderBook
import ExchangeCore.Engine.Ledger
import ExchangeCore.Engine.Output

/-!
# The matching engine

`MatchingEngine` (`matching_engine_base.rs`): the books of the registered symbols, the assets of
each symbol, the trade-id generator, the running state hash and the two fields of the output
chain, `output_seq` and `last_output_hash`.

The two order-processing functions take the engine's fields by `&mut`; here they pass a `Parts`
record and return it next to their result, so that whatever an early return leaves behind is
visible.  Both are generic in the ledger, as in the source; the engine runs them on a
`NullLedger`.  Each trade loop is a `foldl` of one named body (`logicTrade`, `outputTrade`).

The order WAL only contributes the outcome of its writes: `WalIo` brings the outcomes of one
call, read only when the engine has a WAL.
-/

namespace ExchangeCore

/-- The arguments of a placement, common to every entry point. -/
structure OrderRequest where
  symbolId : UInt32
  orderId : UInt64
  side : Side
  orderType : OrderType
  price : UInt64
  quantity : UInt64
  userId : UInt64
  timestamp : UInt64
  deriving DecidableEq, Repr

namespace OrderRequest

/-- The order handed to the book. -/
def order (req : OrderRequest) : Order where
  orderId := req.orderId
  userId := req.userId
  symbolId := req.symbolId
  side := req.side
  orderType := req.orderType
  price := req.price
  quantity := req.quantity
  timestamp := req.timestamp

/-- The ledger's order update for a fresh or a rejected order. -/
def ledgerUpdate (req : OrderRequest) (clientOrderId : Option String) (status : OrderStatus)
    (rejectionReason : Option String) : OrderUpdate where
  orderId := req.orderId
  clientOrderId := clientOrderId
  userId := req.userId
  symbolId := req.symbolId
  side := req.side.asU8
  orderType := req.orderType.asU8
  status := status
  price := req.price
  qty := req.quantity
  filledQty := 0
  avgFillPrice := none
  rejectionReason := rejectionReason
  timestamp := req.timestamp
  matchId := none

/-- The output's order update for a rejected order. -/
def rejection (req : OrderRequest) : EOOrderUpdate where
  orderId := req.orderId
  userId := req.userId
  status := 5
  filledQty := 0
  remainingQty := req.quantity
  avgPrice := 0
  updatedAt := req.timestamp

end OrderRequest

/-- A limit order for symbol 1. -/
def limitRequest (orderId userId : UInt64) (side : Side) (price quantity : UInt64) :
    OrderRequest where
  symbolId := 1
  orderId := orderId
  side := side
  orderType := .limit
  price := price
  quantity := quantity
  userId := userId
  timestamp := 0

/-- The asset and amount an order of this side holds: its limit value in the quote asset for a
buy, its quantity in the base asset for a sell.  `assets` is `(base, quote)`. -/
def lockTarget (side : Side) (assets : UInt32 × UInt32) (price quantity : UInt64) :
    UInt32 × UInt64 :=
  match side with
  | .buy => (assets.2, price * quantity)
  | .sell => (assets.1, quantity)

/-! ## Books by symbol -/

/-- The book at a symbol id, if there is one. -/
def bookAt (books : List (Option OrderBook)) (symbolId : UInt32) : Option OrderBook :=
  (books[symbolId.toNat]?).join

/-- Write a book back to its slot. -/
def setBook (books : List (Option OrderBook)) (symbolId : UInt32) (book : OrderBook) :
    List (Option OrderBook) :=
  books.set symbolId.toNat (some book)

/-! ## Order processing -/

/-- What the order-processing functions take by `&mut`. -/
structure Parts (L : Type) where
  ledger : L
  orderBooks : List (Option OrderBook)
  tradeIdGen : FastUlidHalfGen
  outputSeq : UInt64
  lastOutputHash : UInt64

/-- Balance versions drawn while processing one batch of trades. -/
abbrev TempVersions := HashMap (UInt64 × UInt32) UInt64

/-- The versions a trade reports, one per party and asset. -/
structure Versions where
  buyerQuote : UInt64
  buyerBase : UInt64
  sellerBase : UInt64
  sellerQuote : UInt64

/-- The buyer's refund: the price improvement, for a trade in which the taker is the buyer. -/
def buyerRefund (req : OrderRequest) (t : Trade) : UInt64 :=
  if req.side = .buy ∧ t.buyUserId = req.userId then
    if req.price > t.price then (req.price - t.price) * t.quantity else 0
  else 0

section Processing

variable {L : Type} [Ledger L]

/-- What a lock records: its target and the balance snapshot after it. -/
structure LockSnapshot where
  asset : UInt32
  amount : UInt64
  balanceAfter : UInt64
  version : UInt64

/-- The lock of an order against a ledger. -/
def lockSnapshot (ledger : L) (req : OrderRequest) (assets : UInt32 × UInt32) : LockSnapshot :=
  let target := lockTarget req.side assets req.price req.quantity
  let currentBal := Ledger.getBalance ledger req.userId target.1
  { asset := target.1
    amount := target.2
    balanceAfter := if currentBal ≥ target.2 then currentBal - target.2 else currentBal
    version := Ledger.getBalanceVersion ledger req.userId target.1 + 1 }

/-- The ledger command of a lock. -/
def LockSnapshot.command (s : LockSnapshot) (userId : UInt64) : LedgerCommand :=
  .lock userId s.asset s.amount s.balanceAfter s.version

/-- `get_and_add_version`: the version before, and the map with it advanced by `inc`. -/
def getAndAddVersion (ledger : L) (userId : UInt64) (assetId : UInt32) (inc : UInt64)
    (temp : TempVersions) : UInt64 × TempVersions :=
  let v := (temp.get? (userId, assetId)).getD (Ledger.getBalanceVersion ledger userId assetId)
  (v, temp.insert (userId, assetId) (v + inc))

/-- The four versions a trade draws: the buyer's quote balance advances by two when there is a
refund, everything else by one. -/
def tradeVersions (ledger : L) (assets : UInt32 × UInt32) (refund : UInt64) (t : Trade)
    (temp : TempVersions) : Versions × TempVersions :=
  let buyerQuoteInc := if refund > 0 then 2 else 1
  let buyerQuote := getAndAddVersion ledger t.buyUserId assets.2 buyerQuoteInc temp
  let buyerBase := getAndAddVersion ledger t.buyUserId assets.1 1 buyerQuote.2
  let sellerBase := getAndAddVersion ledger t.sellUserId assets.1 1 buyerBase.2
  let sellerQuote := getAndAddVersion ledger t.sellUserId assets.2 1 sellerBase.2
  (⟨buyerQuote.1, buyerBase.1, sellerBase.1, sellerQuote.1⟩, sellerQuote.2)

/-- The four balances a trade reports, one per party and asset. -/
structure BalancesAfter where
  buyerQuote : UInt64
  buyerBase : UInt64
  sellerBase : UInt64
  sellerQuote : UInt64

/-- `get_and_update_balance`: apply a signed change to a temporary balance, stopping at zero. -/
def getAndUpdateBalance (ledger : L) (userId : UInt64) (assetId : UInt32) (delta : Int64)
    (temp : HashMap (UInt64 × UInt32) UInt64) : UInt64 × HashMap (UInt64 × UInt32) UInt64 :=
  let entry := (temp.get? (userId, assetId)).getD (Ledger.getBalance ledger userId assetId)
  let entry :=
    if delta ≥ 0 then entry + delta.toUInt64
    else
      let absD := (-delta).toUInt64
      if entry ≥ absD then entry - absD else 0
  (entry, temp.insert (userId, assetId) entry)

/-- The record of a trade for the ledger. -/
def matchExecData (assets : UInt32 × UInt32) (refund : UInt64) (v : Versions)
    (outputSequence : UInt64) (bal : BalancesAfter) (t : Trade) : MatchExecData where
  tradeId := t.tradeId
  buyOrderId := t.buyOrderId
  sellOrderId := t.sellOrderId
  buyerUserId := t.buyUserId
  sellerUserId := t.sellUserId
  price := t.price
  quantity := t.quantity
  baseAssetId := assets.1
  quoteAssetId := assets.2
  buyerRefund := refund
  sellerRefund := 0
  matchSeq := t.matchSeq
  outputSequence := outputSequence
  settledAt := 0
  buyerQuoteVersion := v.buyerQuote
  buyerBaseVersion := v.buyerBase
  sellerBaseVersion := v.sellerBase
  sellerQuoteVersion := v.sellerQuote
  buyerQuoteBalanceAfter := bal.buyerQuote
  buyerBaseBalanceAfter := bal.buyerBase
  sellerBaseBalanceAfter := bal.sellerBase
  sellerQuoteBalanceAfter := bal.sellerQuote

/-! ### Without an output -/

/-- What the trade loop of `process_order_logic` updates. -/
structure LogicLoop where
  matchBatch : List MatchExecData
  tempVersions : TempVersions
  tempBalances : HashMap (UInt64 × UInt32) UInt64
  outputSeq : UInt64

/-- The body of the trade loop of `process_order_logic`: every trade takes an output sequence
number of its own. -/
def logicTrade (ledger : L) (req : OrderRequest) (assets : UInt32 × UInt32) (st : LogicLoop)
    (t : Trade) : LogicLoop :=
  let refund := buyerRefund req t
  let versions := tradeVersions ledger assets refund t st.tempVersions
  let buyerQuote :=
    getAndUpdateBalance ledger t.buyUserId assets.2 refund.toInt64 st.tempBalances
  let buyerBase :=
    getAndUpdateBalance ledger t.buyUserId assets.1 t.quantity.toInt64 buyerQuote.2
  let sellerBase := getAndUpdateBalance ledger t.sellUserId assets.1 0 buyerBase.2
  let cost := t.price * t.quantity
  let sellerQuote := getAndUpdateBalance ledger t.sellUserId assets.2 cost.toInt64 sellerBase.2
  let outputSeq := st.outputSeq + 1
  let balances : BalancesAfter := ⟨buyerQuote.1, buyerBase.1, sellerBase.1, sellerQuote.1⟩
  { matchBatch := st.matchBatch ++ [matchExecData assets refund versions.1 outputSeq balances t]
    tempVersions := versions.2
    tempBalances := sellerQuote.2
    outputSeq := outputSeq }

/-- Apply the batch of a trade loop to the ledger, if it is not empty. -/
def applyBatch (ledger : L) (batch : List MatchExecData) : Except String Unit × L :=
  if batch.isEmpty then (.ok (), ledger) else Ledger.apply ledger (.matchExecBatch batch)

def processOrderLogic (assetMap : HashMap UInt32 (UInt32 × UInt32)) (req : OrderRequest)
    (p : Parts L) : Except OrderError UInt64 × Parts L :=
  let symbolId := req.symbolId
  match assetMap.get? symbolId with
  | none =>
      let rejection :=
        req.ledgerUpdate none .rejected (some s!"Asset map not found for symbol {symbolId}")
      (.ok req.orderId, { p with ledger := (Ledger.apply p.ledger (.orderUpdate rejection)).2 })
  | some assets =>
      let lock := lockSnapshot p.ledger req assets
      match Ledger.apply p.ledger (lock.command req.userId) with
      | (.error e, ledger) =>
          let rejection := req.ledgerUpdate none .rejected (some e)
          (.ok req.orderId, { p with ledger := (Ledger.apply ledger (.orderUpdate rejection)).2 })
      | (.ok (), ledger) =>
          match Ledger.apply ledger (.orderUpdate (req.ledgerUpdate none .new none)) with
          | (.error e, ledger) => (.error (.ledgerError e), { p with ledger := ledger })
          | (.ok (), ledger) =>
              match bookAt p.orderBooks symbolId with
              | none =>
                  let rejection :=
                    req.ledgerUpdate none .rejected (some s!"Invalid Symbol ID: {symbolId}")
                  (.ok req.orderId,
                    { p with ledger := (Ledger.apply ledger (.orderUpdate rejection)).2 })
              | some book =>
                  let added := book.addOrder req.order p.tradeIdGen req.timestamp
                  let p :=
                    { p with
                      ledger := ledger
                      orderBooks := setBook p.orderBooks symbolId added.2.1
                      tradeIdGen := added.2.2 }
                  match added.1 with
                  | .error e => (.error (.other e), p)
                  | .ok trades =>
                      let loop := trades.foldl (logicTrade p.ledger req assets)
                        ⟨[], HashMap.empty, HashMap.empty, p.outputSeq⟩
                      let p := { p with outputSeq := loop.outputSeq }
                      match applyBatch p.ledger loop.matchBatch with
                      | (.error e, ledger) =>
                          (.error (.ledgerError e), { p with ledger := ledger })
                      | (.ok (), ledger) => (.ok req.orderId, { p with ledger := ledger })

/-! ### With an output -/

/-- The output record of a trade. -/
def tradeOutput (symbolId : UInt32) (assets : UInt32 × UInt32) (refund : UInt64) (t : Trade) :
    TradeOutput where
  tradeId := t.tradeId
  matchSeq := t.matchSeq
  symbolId := symbolId
  buyOrderId := t.buyOrderId
  sellOrderId := t.sellOrderId
  buyerUserId := t.buyUserId
  sellerUserId := t.sellUserId
  price := t.price
  quantity := t.quantity
  baseAssetId := assets.1
  quoteAssetId := assets.2
  buyerRefund := refund
  sellerRefund := 0
  settledAt := 0

/-- A balance event of a trade: deltas only, the engine does not track balances. -/
def tradeEvent (userId : UInt64) (assetId : UInt32) (seq : UInt64) (deltaAvail deltaFrozen : Int64)
    (eventType : String) (t : Trade) : EOBalanceEvent where
  userId := userId
  assetId := assetId
  seq := seq
  deltaAvail := deltaAvail
  deltaFrozen := deltaFrozen
  avail := none
  frozen := none
  eventType := eventType
  refId := t.tradeId

/-- The buyer's quote event: the cost leaves frozen funds, and with it the refund, if any, which
goes to the available ones. -/
def buyerQuoteEvent (assets : UInt32 × UInt32) (refund : UInt64) (v : Versions) (t : Trade) :
    EOBalanceEvent :=
  let tradeCost := t.price * t.quantity
  if refund > 0 then
    tradeEvent t.buyUserId assets.2 (v.buyerQuote + 1) refund.toInt64
      (-(tradeCost.toInt64 + refund.toInt64)) "trade_refund" t
  else
    tradeEvent t.buyUserId assets.2 (v.buyerQuote + 1) 0 (-tradeCost.toInt64) "trade_debit" t

/-- The four balance events of a trade: the buyer pays and receives the base asset, the seller
pays the base asset and receives the cost. -/
def tradeEvents (assets : UInt32 × UInt32) (refund : UInt64) (v : Versions) (t : Trade) :
    List EOBalanceEvent :=
  let tradeCost := t.price * t.quantity
  [ buyerQuoteEvent assets refund v t,
    tradeEvent t.buyUserId assets.1 (v.buyerBase + 1) t.quantity.toInt64 0 "trade_credit" t,
    tradeEvent t.sellUserId assets.1 (v.sellerBase + 1) 0 (-t.quantity.toInt64) "trade_debit" t,
    tradeEvent t.sellUserId assets.2 (v.sellerQuote + 1) tradeCost.toInt64 0 "trade_credit" t ]

/-- What the trade loop of `process_order_with_output` updates. -/
structure OutputLoop where
  totalFilled : UInt64
  totalCost : UInt64
  matchBatch : List MatchExecData
  tempVersions : TempVersions
  builder : EngineOutputBuilder

/-- The body of the trade loop of `process_order_with_output`. -/
def outputTrade (ledger : L) (req : OrderRequest) (assets : UInt32 × UInt32)
    (currentOutputSeq : UInt64) (st : OutputLoop) (t : Trade) : OutputLoop :=
  let refund := buyerRefund req t
  let versions := tradeVersions ledger assets refund t st.tempVersions
  let builder := st.builder.addTrade (tradeOutput req.symbolId assets refund t)
  { totalFilled := st.totalFilled + t.quantity
    totalCost := st.totalCost + t.price * t.quantity
    matchBatch := st.matchBatch ++
      [matchExecData assets refund versions.1 currentOutputSeq ⟨0, 0, 0, 0⟩ t]
    tempVersions := versions.2
    builder := (tradeEvents assets refund versions.1 t).foldl
      EngineOutputBuilder.addBalanceEvent builder }

/-- The input bundle of an order. -/
def placeInput (env : Externals) (inputSeq : UInt64) (req : OrderRequest)
    (clientOrderId : String) : InputBundle :=
  InputBundle.new env inputSeq
    (.placeOrder
      { orderId := req.orderId
        userId := req.userId
        symbolId := req.symbolId
        side := req.side.asU8
        orderType := req.orderType.asU8
        price := req.price
        quantity := req.quantity
        cid := clientOrderId
        createdAt := req.timestamp })

/-- The lock event, first of every accepted order's balance events. -/
def lockEvent (req : OrderRequest) (lock : LockSnapshot) (currentFrozen : UInt64) :
    EOBalanceEvent where
  userId := req.userId
  assetId := lock.asset
  seq := lock.version
  deltaAvail := -lock.amount.toInt64
  deltaFrozen := lock.amount.toInt64
  avail := some lock.balanceAfter
  frozen := some (currentFrozen + lock.amount)
  eventType := "lock"
  refId := req.orderId

/-- The placement event of an order the book has accepted. -/
def orderPlacement (req : OrderRequest) : OrderPlacement where
  orderId := req.orderId
  userId := req.userId
  symbolId := req.symbolId
  side := req.side.asU8
  orderType := req.orderType.asU8
  price := req.price
  quantity := req.quantity
  createdAt := req.timestamp

/-- The status an accepted order ends with: resting, filled or partially filled. -/
def finalStatus (totalFilled remainingQty : UInt64) : UInt8 :=
  if totalFilled = 0 then 1 else if remainingQty = 0 then 3 else 2

/-- The order update and the completion event after the trade loop. -/
def finishOrder (req : OrderRequest) (loop : OutputLoop) : EngineOutputBuilder :=
  let remainingQty := req.quantity - loop.totalFilled
  let avgPrice := if loop.totalFilled > 0 then loop.totalCost / loop.totalFilled else 0
  let status := finalStatus loop.totalFilled remainingQty
  let builder := loop.builder.setOrderUpdate
    { orderId := req.orderId
      userId := req.userId
      status := status
      filledQty := loop.totalFilled
      remainingQty := remainingQty
      avgPrice := avgPrice
      updatedAt := req.timestamp }
  if status = 3 then
    builder.addOrderCompletion
      { orderId := req.orderId, reason := .filled, completedAt := req.timestamp }
  else builder

/-- `process_order_with_output`.  The sequence number is taken before anything is checked; the
chain hash advances only where an output is built. -/
def processOrderWithOutput (env : Externals) (assetMap : HashMap UInt32 (UInt32 × UInt32))
    (inputSeq : UInt64) (req : OrderRequest) (clientOrderId : String) (p : Parts L) :
    Except OrderError (UInt64 × EngineOutput) × Parts L :=
  let symbolId := req.symbolId
  let p := { p with outputSeq := p.outputSeq + 1 }
  let currentOutputSeq := p.outputSeq
  let input := placeInput env inputSeq req clientOrderId
  let builder := (EngineOutputBuilder.new currentOutputSeq p.lastOutputHash).setInput input
  match assetMap.get? symbolId with
  | none =>
      let rejection := req.ledgerUpdate (some clientOrderId) .rejected
        (some s!"Asset map not found for symbol {symbolId}")
      let output := (builder.setOrderUpdate req.rejection).buildUnchecked env input
      (.ok (req.orderId, output),
        { p with
          ledger := (Ledger.apply p.ledger (.orderUpdate rejection)).2
          lastOutputHash := output.hash })
  | some assets =>
      let lock := lockSnapshot p.ledger req assets
      let currentFrozen := Ledger.getFrozen p.ledger req.userId lock.asset
      match Ledger.apply p.ledger (lock.command req.userId) with
      | (.error e, ledger) =>
          let rejection := req.ledgerUpdate (some clientOrderId) .rejected (some e)
          let output := (builder.setOrderUpdate req.rejection).buildUnchecked env input
          (.ok (req.orderId, output),
            { p with
              ledger := (Ledger.apply ledger (.orderUpdate rejection)).2
              lastOutputHash := output.hash })
      | (.ok (), ledger) =>
          let builder := builder.addBalanceEvent (lockEvent req lock currentFrozen)
          match Ledger.apply ledger
              (.orderUpdate (req.ledgerUpdate (some clientOrderId) .new none)) with
          | (.error e, ledger) => (.error (.ledgerError e), { p with ledger := ledger })
          | (.ok (), ledger) =>
              match bookAt p.orderBooks symbolId with
              | none =>
                  let rejection := req.ledgerUpdate (some clientOrderId) .rejected
                    (some s!"Invalid Symbol ID: {symbolId}")
                  let output := (builder.setOrderUpdate req.rejection).buildUnchecked env input
                  (.ok (req.orderId, output),
                    { p with
                      ledger := (Ledger.apply ledger (.orderUpdate rejection)).2
                      lastOutputHash := output.hash })
              | some book =>
                  let added := book.addOrder req.order p.tradeIdGen req.timestamp
                  let p :=
                    { p with
                      ledger := ledger
                      orderBooks := setBook p.orderBooks symbolId added.2.1
                      tradeIdGen := added.2.2 }
                  match added.1 with
                  | .error e => (.error (.other e), p)
                  | .ok trades =>
                      let builder := builder.addOrderPlacement (orderPlacement req)
                      let loop := trades.foldl (outputTrade p.ledger req assets currentOutputSeq)
                        ⟨0, 0, [], HashMap.empty, builder⟩
                      match applyBatch p.ledger loop.matchBatch with
                      | (.error e, ledger) =>
                          (.error (.ledgerError e), { p with ledger := ledger })
                      | (.ok (), ledger) =>
                          let output := (finishOrder req loop).buildUnchecked env input
                          (.ok (req.orderId, output),
                            { p with ledger := ledger, lastOutputHash := output.hash })

end Processing

/-! ## The engine -/

/-- The order WAL; what the engine reads of it besides the outcome of a write. -/
structure Wal where
  currentSeq : UInt64
  progressId : UInt64
  deriving DecidableEq, Repr

/-- The outcomes of the WAL writes of one call. -/
structure WalIo where
  log : Except String Unit
  flush : Except String Unit

/-- Writes that succeed. -/
def WalIo.healthy : WalIo := ⟨.ok (), .ok ()⟩

/-- The matching engine. -/
structure MatchingEngine where
  orderBooks : List (Option OrderBook)
  /-- Symbol → (base asset, quote asset). -/
  assetMap : HashMap UInt32 (UInt32 × UInt32)
  orderWal : Option Wal
  tradeIdGen : FastUlidHalfGen
  stateHash : UInt64
  outputSeq : UInt64
  lastOutputHash : UInt64

namespace MatchingEngine

/-- `MatchingEngine::new` where there is no snapshot to load. -/
def new (enableLocalWal : Bool) : MatchingEngine where
  orderBooks := []
  assetMap := HashMap.empty
  orderWal := if enableLocalWal then some ⟨0, 0⟩ else none
  tradeIdGen := FastUlidHalfGen.new
  stateHash := 0
  outputSeq := 0
  lastOutputHash := GENESIS_HASH

def updateHash (env : Externals) (me : MatchingEngine) (data : Bytes) : MatchingEngine :=
  { me with stateHash := env.xxh3WithSeed data me.stateHash }

/-- `register_symbol`: a slot is given out once. -/
def registerSymbol (me : MatchingEngine) (symbolId : UInt32) (assets : UInt32 × UInt32) :
    Except String Unit × MatchingEngine :=
  let store := fun books =>
    (Except.ok (), { me with
      orderBooks := setBook books symbolId (OrderBook.new symbolId)
      assetMap := me.assetMap.insert symbolId assets })
  if me.orderBooks.length ≤ symbolId.toNat then
    store (me.orderBooks ++ List.replicate (symbolId.toNat + 1 - me.orderBooks.length) none)
  else if (bookAt me.orderBooks symbolId).isSome then
    (.error s!"Symbol ID {symbolId} is already in use", me)
  else store me.orderBooks

/-- The fields handed to the order-processing functions, with a fresh `NullLedger`. -/
def parts (me : MatchingEngine) : Parts NullLedger where
  ledger := ⟨⟩
  orderBooks := me.orderBooks
  tradeIdGen := me.tradeIdGen
  outputSeq := me.outputSeq
  lastOutputHash := me.lastOutputHash

/-- The engine after a call that was handed its fields. -/
def withParts (me : MatchingEngine) (p : Parts NullLedger) : MatchingEngine :=
  { me with
    orderBooks := p.orderBooks
    tradeIdGen := p.tradeIdGen
    outputSeq := p.outputSeq
    lastOutputHash := p.lastOutputHash }

/-- Log to the WAL, if there is one. -/
def logWal (me : MatchingEngine) (io : WalIo) : Except OrderError Unit :=
  match me.orderWal with
  | none => .ok ()
  | some _ => io.log.mapError .other

/-- Flush the WAL, if there is one. -/
def flushWal (me : MatchingEngine) (io : WalIo) : Except OrderError Unit × MatchingEngine :=
  match me.orderWal with
  | none => (.ok (), me)
  | some wal =>
      match io.flush with
      | .error e => (.error (.other e), me)
      | .ok () => (.ok (), { me with orderWal := some { wal with progressId := wal.currentSeq } })

/-- What `add_order` mixes into the state hash. -/
def orderHashData (req : OrderRequest) : Bytes :=
  Bytes.ofU64 req.orderId ++ Bytes.ofU32 req.symbolId ++ [req.side.asU8] ++
    Bytes.ofU64 req.price ++ Bytes.ofU64 req.quantity ++ Bytes.ofU64 req.userId

def addOrder (env : Externals) (io : WalIo) (me : MatchingEngine) (req : OrderRequest) :
    Except OrderError UInt64 × MatchingEngine :=
  match me.assetMap.get? req.symbolId with
  | none => (.error (.invalidSymbol req.symbolId), me)
  | some _ =>
      if (bookAt me.orderBooks req.symbolId).any (·.hasOrder req.orderId) then
        (.error (.duplicateOrderId req.orderId), me)
      else
        match me.logWal io with
        | .error e => (.error e, me)
        | .ok () =>
            let processed := processOrderLogic me.assetMap req me.parts
            let me := me.withParts processed.2
            match processed.1 with
            | .error e => (.error e, me)
            | .ok oid =>
                let me := me.updateHash env (orderHashData req)
                match me.flushWal io with
                | (.error e, me) => (.error e, me)
                | (.ok (), me) => (.ok oid, me)

def addOrderAndBuildOutput (env : Externals) (io : WalIo) (me : MatchingEngine)
    (inputSeq : UInt64) (req : OrderRequest) (clientOrderId : String) :
    Except OrderError (UInt64 × EngineOutput) × MatchingEngine :=
  match me.assetMap.get? req.symbolId with
  | none => (.error (.invalidSymbol req.symbolId), me)
  | some _ =>
      match me.logWal io with
      | .error e => (.error e, me)
      | .ok () =>
          let processed :=
            processOrderWithOutput env me.assetMap inputSeq req clientOrderId me.parts
          let me := me.withParts processed.2
          match processed.1 with
          | .error e => (.error e, me)
          | .ok result =>
              match me.flushWal io with
              | (.error e, me) => (.error e, me)
              | (.ok (), me) => (.ok result, me)

def processOrderAtomic (me : MatchingEngine) (req : OrderRequest) :
    Except OrderError UInt64 × MatchingEngine :=
  let processed := processOrderLogic me.assetMap req me.parts
  (processed.1.map (fun _ => req.orderId), me.withParts processed.2)

/-- `add_order_batch`; the command list it returns next to the results is always empty. -/
def addOrderBatch (me : MatchingEngine) :
    List OrderRequest → List (Except OrderError UInt64) × MatchingEngine
  | [] => ([], me)
  | req :: reqs =>
      let processed := me.processOrderAtomic req
      let rest := addOrderBatch processed.2 reqs
      (processed.1 :: rest.1, rest.2)

/-- `find_order_symbol`: the first book that reports the order as active. -/
def findOrderSymbol (me : MatchingEngine) (orderId : UInt64) : Option UInt32 :=
  (me.orderBooks.findIdx? (fun slot => slot.any (·.hasOrder orderId))).map UInt32.ofNat

def processCancel (me : MatchingEngine) (symbolId : UInt32) (orderId : UInt64) :
    Except OrderError (List LedgerCommand) × MatchingEngine :=
  match bookAt me.orderBooks symbolId with
  | none => (.error (.invalidSymbol symbolId), me)
  | some book =>
      let removed := book.removeOrder orderId
      let me := { me with orderBooks := setBook me.orderBooks symbolId removed.2 }
      match removed.1 with
      | .error e => (.error e, me)
      | .ok cancelled =>
          match me.assetMap.get? symbolId with
          | none => (.error (.assetMapNotFound symbolId), me)
          | some assets =>
              let unlock := lockTarget cancelled.side assets cancelled.price cancelled.quantity
              let ledger : NullLedger := ⟨⟩
              let balanceAfter := Ledger.getBalance ledger cancelled.userId unlock.1 + unlock.2
              let version := Ledger.getBalanceVersion ledger cancelled.userId unlock.1 + 1
              let update : OrderUpdate :=
                { orderId := cancelled.orderId
                  clientOrderId := none
                  userId := cancelled.userId
                  symbolId := symbolId
                  side := cancelled.side.asU8
                  orderType := cancelled.orderType.asU8
                  status := .cancelled
                  price := cancelled.price
                  qty := cancelled.quantity
                  filledQty := 0
                  avgFillPrice := none
                  rejectionReason := none
                  timestamp := cancelled.timestamp
                  matchId := none }
              (.ok [.unlock cancelled.userId unlock.1 unlock.2 balanceAfter version,
                .orderUpdate update], me)

/-- What `cancel_order` mixes into the state hash. -/
def cancelHashData (symbolId : UInt32) (orderId : UInt64) : Bytes :=
  Bytes.ofU32 symbolId ++ Bytes.ofU64 orderId ++ [0xFF]

/-- `MatchingEngine::cancel_order`; symbol 0 is a placeholder for "search all books". -/
def cancelOrder (env : Externals) (io : WalIo) (me : MatchingEngine) (symbolId : UInt32)
    (orderId : UInt64) : Except OrderError (List LedgerCommand) × MatchingEngine :=
  let actual := if symbolId = 0 then me.findOrderSymbol orderId else some symbolId
  match actual with
  | none => (.error (.orderNotFound orderId), me)
  | some actualSymbolId =>
      match me.logWal io with
      | .error e => (.error e, me)
      | .ok () =>
          match me.processCancel actualSymbolId orderId with
          | (.error e, me) => (.error e, me)
          | (.ok commands, me) =>
              (.ok commands, me.updateHash env (cancelHashData actualSymbolId orderId))

/-! ## The engine as a machine -/

/-- The calls an engine receives. -/
inductive Call
  | registerSymbol (symbolId : UInt32) (assets : UInt32 × UInt32)
  | addOrderAndBuildOutput (io : WalIo) (inputSeq : UInt64) (req : OrderRequest)
      (clientOrderId : String)
  | addOrder (io : WalIo) (req : OrderRequest)
  | addOrderBatch (reqs : List OrderRequest)
  | cancelOrder (io : WalIo) (symbolId : UInt32) (orderId : UInt64)

/-- What the engine answers. -/
inductive Answer
  | registered (result : Except String Unit)
  | output (result : Except OrderError (UInt64 × EngineOutput))
  | added (result : Except OrderError UInt64)
  | batch (results : List (Except OrderError UInt64))
  | cancelled (result : Except OrderError (List LedgerCommand))

/-- The engine under its public calls. -/
def machine (env : Externals) : Machine MatchingEngine Call Answer where
  step me
    | .registerSymbol symbolId assets =>
        let r := me.registerSymbol symbolId assets
        (r.2, .registered r.1)
    | .addOrderAndBuildOutput io inputSeq req clientOrderId =>
        let r := me.addOrderAndBuildOutput env io inputSeq req clientOrderId
        (r.2, .output r.1)
    | .addOrder io req =>
        let r := me.addOrder env io req
        (r.2, .added r.1)
    | .addOrderBatch reqs =>
        let r := me.addOrderBatch reqs
        (r.2, .batch r.1)
    | .cancelOrder io symbolId orderId =>
        let r := me.cancelOrder env io symbolId orderId
        (r.2, .cancelled r.1)

end MatchingEngine

end ExchangeCore
