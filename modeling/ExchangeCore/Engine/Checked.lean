import ExchangeCore.Engine.Obligation

/-!
# The engine with overflow checks

`add_order`, `add_order_and_build_output` and `cancel_order` (`matching_engine_base.rs`) once more,
as a build with overflow checks runs them: every addition, subtraction, multiplication and negation
of words gives its mathematical value, or the call ends in a panic (`none`).  Casts to `i64` do not
panic, but here they end the call as well unless they keep the value, so that whatever is returned
is exact throughout.

The functions have the names of those they repeat, under `Checked`, and the same shape: control
flow, data and order of steps are those of the model in `Engine/MatchingEngine.lean`, which wraps.
The id generator is not repeated, since it wraps in the source too (`wrapping_add`), nor is what
does not compute with words.  Each function comes with the bounds under which it gives what the
wrapping one gives.
-/

namespace ExchangeCore

namespace Checked

open OrderBook Reference

/-! ## The book -/

/-- `MatchState.fill`. -/
def fill (st : MatchState) (timestamp : UInt64) (maker : Order) (tradeQuantity : UInt64) :
    Option MatchState := do
  let matchSeq ← Word.checkedAdd st.matchSeq 1
  let generated := st.tradeIdGen.generateFromTs timestamp
  let quantity ← Word.checkedSub st.order.quantity tradeQuantity
  return { st with
    matchSeq := matchSeq
    tradeIdGen := generated.2
    trades := st.trades ++ [mkTrade st.order maker matchSeq generated.1 tradeQuantity]
    order := { st.order with quantity := quantity } }

/-- The inner loop. -/
def matchQueue (timestamp : UInt64) : List Order → MatchState → Option (List Order × MatchState)
  | [], st => some ([], st)
  | best :: rest, st => do
      let tradeQuantity := min st.order.quantity best.quantity
      let st ← fill st timestamp best tradeQuantity
      let left ← Word.checkedSub best.quantity tradeQuantity
      let best := { best with quantity := left }
      if best.quantity > 0 then some (best :: rest, st)
      else
        let st := st.retire best.orderId
        if st.order.quantity = 0 then some (rest, st)
        else matchQueue timestamp rest st

/-- The outer loop. -/
def matchLoop (timestamp : UInt64) : ℕ → PriceMap → MatchState → Option (PriceMap × MatchState)
  | 0, makers, st => some (makers, st)
  | fuel + 1, makers, st =>
      if st.order.quantity > 0 then
        match bestPrice st.order.side makers st.order.price with
        | some price =>
            match makers.get? price with
            | some ordersAtPrice => do
                let matched ← matchQueue timestamp ordersAtPrice st
                let makers :=
                  if matched.1.isEmpty then makers.erase price
                  else makers.replace price matched.1
                matchLoop timestamp fuel makers matched.2
            | none => some (makers, st)
        | none => some (makers, st)
      else some (makers, st)

/-- `OrderBook::add_order`. -/
def bookAddOrder (b : OrderBook) (order : Order) (tradeIdGen : FastUlidHalfGen)
    (timestamp : UInt64) : Option (Except String (List Trade) × OrderBook × FastUlidHalfGen) :=
  let orderId := order.orderId
  if orderId ∈ b.activeOrderIds then
    some (.error s!"Duplicate order ID: {orderId}", b, tradeIdGen)
  else do
    let makers := b.sideMap order.side.opposite
    let matched ← matchLoop timestamp (makers.entries.length + 1) makers
      { order := order
        tradeIdGen := tradeIdGen
        activeOrderIds := insert order.orderId b.activeOrderIds
        orderIndex := b.orderIndex.insert order.orderId (order.side, order.price)
        matchSeq := b.matchSeq
        trades := [] }
    let st := matched.2
    let b := b.setSideMap order.side.opposite matched.1
    let b :=
      { b with
        activeOrderIds := st.activeOrderIds
        orderIndex := st.orderIndex
        matchSeq := st.matchSeq }
    let b :=
      if st.order.quantity > 0 then
        b.setSideMap st.order.side
          ((b.sideMap st.order.side).upsert st.order.price (fun q => q.getD [] ++ [st.order]))
      else b
    return (.ok st.trades, b, st.tradeIdGen)

/-! ## Order processing -/

/-- The asset and amount an order of this side holds. -/
def lockTarget (side : Side) (assets : UInt32 × UInt32) (price quantity : UInt64) :
    Option (UInt32 × UInt64) :=
  match side with
  | .buy => do
      let amount ← Word.checkedMul price quantity
      return (assets.2, amount)
  | .sell => some (assets.1, quantity)

/-- The buyer's refund. -/
def buyerRefund (req : OrderRequest) (t : Trade) : Option UInt64 :=
  if req.side = .buy ∧ t.buyUserId = req.userId then
    if req.price > t.price then do
      let improvement ← Word.checkedSub req.price t.price
      Word.checkedMul improvement t.quantity
    else some 0
  else some 0

section Processing

variable {L : Type} [Ledger L]

/-- The lock of an order against a ledger. -/
def lockSnapshot (ledger : L) (req : OrderRequest) (assets : UInt32 × UInt32) :
    Option LockSnapshot := do
  let target ← lockTarget req.side assets req.price req.quantity
  let currentBal := Ledger.getBalance ledger req.userId target.1
  let balanceAfter ←
    if currentBal ≥ target.2 then Word.checkedSub currentBal target.2 else some currentBal
  let version ← Word.checkedAdd (Ledger.getBalanceVersion ledger req.userId target.1) 1
  return { asset := target.1, amount := target.2, balanceAfter := balanceAfter, version := version }

def getAndAddVersion (ledger : L) (userId : UInt64) (assetId : UInt32) (inc : UInt64)
    (temp : TempVersions) : Option (UInt64 × TempVersions) := do
  let v := (temp.get? (userId, assetId)).getD (Ledger.getBalanceVersion ledger userId assetId)
  let next ← Word.checkedAdd v inc
  return (v, temp.insert (userId, assetId) next)

/-- The four versions a trade draws. -/
def tradeVersions (ledger : L) (assets : UInt32 × UInt32) (refund : UInt64) (t : Trade)
    (temp : TempVersions) : Option (Versions × TempVersions) := do
  let buyerQuoteInc := if refund > 0 then 2 else 1
  let buyerQuote ← getAndAddVersion ledger t.buyUserId assets.2 buyerQuoteInc temp
  let buyerBase ← getAndAddVersion ledger t.buyUserId assets.1 1 buyerQuote.2
  let sellerBase ← getAndAddVersion ledger t.sellUserId assets.1 1 buyerBase.2
  let sellerQuote ← getAndAddVersion ledger t.sellUserId assets.2 1 sellerBase.2
  return (⟨buyerQuote.1, buyerBase.1, sellerBase.1, sellerQuote.1⟩, sellerQuote.2)

def getAndUpdateBalance (ledger : L) (userId : UInt64) (assetId : UInt32) (delta : Int64)
    (temp : HashMap (UInt64 × UInt32) UInt64) :
    Option (UInt64 × HashMap (UInt64 × UInt32) UInt64) := do
  let entry := (temp.get? (userId, assetId)).getD (Ledger.getBalance ledger userId assetId)
  let entry ←
    if delta ≥ 0 then Word.checkedAdd entry delta.toUInt64
    else do
      let absD ← Word.checkedNeg delta
      if entry ≥ absD.toUInt64 then Word.checkedSub entry absD.toUInt64 else some 0
  return (entry, temp.insert (userId, assetId) entry)

/-! ### Without an output -/

/-- The body of the trade loop of `process_order_logic`. -/
def logicTrade (ledger : L) (req : OrderRequest) (assets : UInt32 × UInt32) (st : LogicLoop)
    (t : Trade) : Option LogicLoop := do
  let refund ← buyerRefund req t
  let versions ← tradeVersions ledger assets refund t st.tempVersions
  let back ← Word.signed refund
  let buyerQuote ← getAndUpdateBalance ledger t.buyUserId assets.2 back st.tempBalances
  let units ← Word.signed t.quantity
  let buyerBase ← getAndUpdateBalance ledger t.buyUserId assets.1 units buyerQuote.2
  let sellerBase ← getAndUpdateBalance ledger t.sellUserId assets.1 0 buyerBase.2
  let cost ← Word.checkedMul t.price t.quantity
  let paid ← Word.signed cost
  let sellerQuote ← getAndUpdateBalance ledger t.sellUserId assets.2 paid sellerBase.2
  let outputSeq ← Word.checkedAdd st.outputSeq 1
  let balances : BalancesAfter := ⟨buyerQuote.1, buyerBase.1, sellerBase.1, sellerQuote.1⟩
  return {
    matchBatch := st.matchBatch ++ [matchExecData assets refund versions.1 outputSeq balances t]
    tempVersions := versions.2
    tempBalances := sellerQuote.2
    outputSeq := outputSeq }

def processOrderLogic (assetMap : HashMap UInt32 (UInt32 × UInt32)) (req : OrderRequest)
    (p : Parts L) : Option (Except OrderError UInt64 × Parts L) :=
  let symbolId := req.symbolId
  match assetMap.get? symbolId with
  | none =>
      let rejection :=
        req.ledgerUpdate none .rejected (some s!"Asset map not found for symbol {symbolId}")
      some (.ok req.orderId,
        { p with ledger := (Ledger.apply p.ledger (.orderUpdate rejection)).2 })
  | some assets => do
      let lock ← lockSnapshot p.ledger req assets
      match Ledger.apply p.ledger (lock.command req.userId) with
      | (.error e, ledger) =>
          let rejection := req.ledgerUpdate none .rejected (some e)
          some (.ok req.orderId,
            { p with ledger := (Ledger.apply ledger (.orderUpdate rejection)).2 })
      | (.ok (), ledger) =>
          match Ledger.apply ledger (.orderUpdate (req.ledgerUpdate none .new none)) with
          | (.error e, ledger) => some (.error (.ledgerError e), { p with ledger := ledger })
          | (.ok (), ledger) =>
              match bookAt p.orderBooks symbolId with
              | none =>
                  let rejection :=
                    req.ledgerUpdate none .rejected (some s!"Invalid Symbol ID: {symbolId}")
                  some (.ok req.orderId,
                    { p with ledger := (Ledger.apply ledger (.orderUpdate rejection)).2 })
              | some book => do
                  let added ← bookAddOrder book req.order p.tradeIdGen req.timestamp
                  let p :=
                    { p with
                      ledger := ledger
                      orderBooks := setBook p.orderBooks symbolId added.2.1
                      tradeIdGen := added.2.2 }
                  match added.1 with
                  | .error e => some (.error (.other e), p)
                  | .ok trades => do
                      let loop ← trades.foldlM (logicTrade p.ledger req assets)
                        ⟨[], HashMap.empty, HashMap.empty, p.outputSeq⟩
                      let p := { p with outputSeq := loop.outputSeq }
                      match applyBatch p.ledger loop.matchBatch with
                      | (.error e, ledger) =>
                          some (.error (.ledgerError e), { p with ledger := ledger })
                      | (.ok (), ledger) => some (.ok req.orderId, { p with ledger := ledger })

/-! ### With an output -/

/-- The buyer's quote event. -/
def buyerQuoteEvent (assets : UInt32 × UInt32) (refund : UInt64) (v : Versions) (t : Trade) :
    Option EOBalanceEvent := do
  let tradeCost ← Word.checkedMul t.price t.quantity
  let cost ← Word.signed tradeCost
  let seq ← Word.checkedAdd v.buyerQuote 1
  if refund > 0 then
    let back ← Word.signed refund
    let total ← Word.checkedAddSigned cost back
    let deltaFrozen ← Word.checkedNeg total
    return tradeEvent t.buyUserId assets.2 seq back deltaFrozen "trade_refund" t
  else
    let deltaFrozen ← Word.checkedNeg cost
    return tradeEvent t.buyUserId assets.2 seq 0 deltaFrozen "trade_debit" t

/-- The four balance events of a trade. -/
def tradeEvents (assets : UInt32 × UInt32) (refund : UInt64) (v : Versions) (t : Trade) :
    Option (List EOBalanceEvent) := do
  let tradeCost ← Word.checkedMul t.price t.quantity
  let buyerQuote ← buyerQuoteEvent assets refund v t
  let units ← Word.signed t.quantity
  let buyerBaseSeq ← Word.checkedAdd v.buyerBase 1
  let sellerBaseSeq ← Word.checkedAdd v.sellerBase 1
  let unitsOut ← Word.checkedNeg units
  let sellerQuoteSeq ← Word.checkedAdd v.sellerQuote 1
  let cost ← Word.signed tradeCost
  return [ buyerQuote,
    tradeEvent t.buyUserId assets.1 buyerBaseSeq units 0 "trade_credit" t,
    tradeEvent t.sellUserId assets.1 sellerBaseSeq 0 unitsOut "trade_debit" t,
    tradeEvent t.sellUserId assets.2 sellerQuoteSeq cost 0 "trade_credit" t ]

/-- The body of the trade loop of `process_order_with_output`. -/
def outputTrade (ledger : L) (req : OrderRequest) (assets : UInt32 × UInt32)
    (currentOutputSeq : UInt64) (st : OutputLoop) (t : Trade) : Option OutputLoop := do
  let totalFilled ← Word.checkedAdd st.totalFilled t.quantity
  let tradeCost ← Word.checkedMul t.price t.quantity
  let totalCost ← Word.checkedAdd st.totalCost tradeCost
  let refund ← buyerRefund req t
  let versions ← tradeVersions ledger assets refund t st.tempVersions
  let builder := st.builder.addTrade (tradeOutput req.symbolId assets refund t)
  let events ← tradeEvents assets refund versions.1 t
  return {
    totalFilled := totalFilled
    totalCost := totalCost
    matchBatch := st.matchBatch ++
      [matchExecData assets refund versions.1 currentOutputSeq ⟨0, 0, 0, 0⟩ t]
    tempVersions := versions.2
    builder := events.foldl EngineOutputBuilder.addBalanceEvent builder }

/-- The lock event. -/
def lockEvent (req : OrderRequest) (lock : LockSnapshot) (currentFrozen : UInt64) :
    Option EOBalanceEvent := do
  let amount ← Word.signed lock.amount
  let deltaAvail ← Word.checkedNeg amount
  let frozen ← Word.checkedAdd currentFrozen lock.amount
  return {
    userId := req.userId
    assetId := lock.asset
    seq := lock.version
    deltaAvail := deltaAvail
    deltaFrozen := amount
    avail := some lock.balanceAfter
    frozen := some frozen
    eventType := "lock"
    refId := req.orderId }

/-- The order update and the completion event after the trade loop. -/
def finishOrder (req : OrderRequest) (loop : OutputLoop) : Option EngineOutputBuilder := do
  let remainingQty ← Word.checkedSub req.quantity loop.totalFilled
  let avgPrice := if loop.totalFilled > 0 then loop.totalCost / loop.totalFilled else 0
  let status := finalStatus loop.totalFilled remainingQty
  let builder := loop.builder.setOrderUpdate
    { orderId := req.orderId
      userId := req.userId
      status := status
      filledQty := loop.totalFilled
      remainingQty := remainingQty
      avgPrice := avgPrice
      updatedAt := req.timestamp }
  if status = 3 then
    return builder.addOrderCompletion
      { orderId := req.orderId, reason := .filled, completedAt := req.timestamp }
  else return builder

def processOrderWithOutput (env : Externals) (assetMap : HashMap UInt32 (UInt32 × UInt32))
    (inputSeq : UInt64) (req : OrderRequest) (clientOrderId : String) (p : Parts L) :
    Option (Except OrderError (UInt64 × EngineOutput) × Parts L) := do
  let symbolId := req.symbolId
  let currentOutputSeq ← Word.checkedAdd p.outputSeq 1
  let p := { p with outputSeq := currentOutputSeq }
  let input := placeInput env inputSeq req clientOrderId
  let builder := (EngineOutputBuilder.new currentOutputSeq p.lastOutputHash).setInput input
  match assetMap.get? symbolId with
  | none =>
      let rejection := req.ledgerUpdate (some clientOrderId) .rejected
        (some s!"Asset map not found for symbol {symbolId}")
      let output := (builder.setOrderUpdate req.rejection).buildUnchecked env input
      some (.ok (req.orderId, output),
        { p with
          ledger := (Ledger.apply p.ledger (.orderUpdate rejection)).2
          lastOutputHash := output.hash })
  | some assets => do
      let lock ← lockSnapshot p.ledger req assets
      let currentFrozen := Ledger.getFrozen p.ledger req.userId lock.asset
      match Ledger.apply p.ledger (lock.command req.userId) with
      | (.error e, ledger) =>
          let rejection := req.ledgerUpdate (some clientOrderId) .rejected (some e)
          let output := (builder.setOrderUpdate req.rejection).buildUnchecked env input
          some (.ok (req.orderId, output),
            { p with
              ledger := (Ledger.apply ledger (.orderUpdate rejection)).2
              lastOutputHash := output.hash })
      | (.ok (), ledger) => do
          let event ← lockEvent req lock currentFrozen
          let builder := builder.addBalanceEvent event
          match Ledger.apply ledger
              (.orderUpdate (req.ledgerUpdate (some clientOrderId) .new none)) with
          | (.error e, ledger) => some (.error (.ledgerError e), { p with ledger := ledger })
          | (.ok (), ledger) =>
              match bookAt p.orderBooks symbolId with
              | none =>
                  let rejection := req.ledgerUpdate (some clientOrderId) .rejected
                    (some s!"Invalid Symbol ID: {symbolId}")
                  let output := (builder.setOrderUpdate req.rejection).buildUnchecked env input
                  some (.ok (req.orderId, output),
                    { p with
                      ledger := (Ledger.apply ledger (.orderUpdate rejection)).2
                      lastOutputHash := output.hash })
              | some book => do
                  let added ← bookAddOrder book req.order p.tradeIdGen req.timestamp
                  let p :=
                    { p with
                      ledger := ledger
                      orderBooks := setBook p.orderBooks symbolId added.2.1
                      tradeIdGen := added.2.2 }
                  match added.1 with
                  | .error e => some (.error (.other e), p)
                  | .ok trades => do
                      let builder := builder.addOrderPlacement (orderPlacement req)
                      let loop ← trades.foldlM (outputTrade p.ledger req assets currentOutputSeq)
                        ⟨0, 0, [], HashMap.empty, builder⟩
                      match applyBatch p.ledger loop.matchBatch with
                      | (.error e, ledger) =>
                          some (.error (.ledgerError e), { p with ledger := ledger })
                      | (.ok (), ledger) => do
                          let finished ← finishOrder req loop
                          let output := finished.buildUnchecked env input
                          return (.ok (req.orderId, output),
                            { p with ledger := ledger, lastOutputHash := output.hash })

end Processing

/-! ## The entry points -/

open MatchingEngine

/-- `MatchingEngine::add_order`.  The amount the order needs is computed, and checked, before the
WAL is written, though nothing reads it any more. -/
def addOrder (env : Externals) (io : WalIo) (me : MatchingEngine) (req : OrderRequest) :
    Option (Except OrderError UInt64 × MatchingEngine) :=
  match me.assetMap.get? req.symbolId with
  | none => some (.error (.invalidSymbol req.symbolId), me)
  | some assets =>
      if (bookAt me.orderBooks req.symbolId).any (·.hasOrder req.orderId) then
        some (.error (.duplicateOrderId req.orderId), me)
      else do
        let _required ← lockTarget req.side assets req.price req.quantity
        match me.logWal io with
        | .error e => some (.error e, me)
        | .ok () => do
            let processed ← processOrderLogic me.assetMap req me.parts
            let me := me.withParts processed.2
            match processed.1 with
            | .error e => some (.error e, me)
            | .ok oid =>
                let me := me.updateHash env (orderHashData req)
                match me.flushWal io with
                | (.error e, me) => some (.error e, me)
                | (.ok (), me) => some (.ok oid, me)

def addOrderAndBuildOutput (env : Externals) (io : WalIo) (me : MatchingEngine)
    (inputSeq : UInt64) (req : OrderRequest) (clientOrderId : String) :
    Option (Except OrderError (UInt64 × EngineOutput) × MatchingEngine) :=
  match me.assetMap.get? req.symbolId with
  | none => some (.error (.invalidSymbol req.symbolId), me)
  | some _ =>
      match me.logWal io with
      | .error e => some (.error e, me)
      | .ok () => do
          let processed ←
            processOrderWithOutput env me.assetMap inputSeq req clientOrderId me.parts
          let me := me.withParts processed.2
          match processed.1 with
          | .error e => some (.error e, me)
          | .ok result =>
              match me.flushWal io with
              | (.error e, me) => some (.error e, me)
              | (.ok (), me) => some (.ok result, me)

def processCancel (me : MatchingEngine) (symbolId : UInt32) (orderId : UInt64) :
    Option (Except OrderError (List LedgerCommand) × MatchingEngine) :=
  match bookAt me.orderBooks symbolId with
  | none => some (.error (.invalidSymbol symbolId), me)
  | some book =>
      let removed := book.removeOrder orderId
      let me := { me with orderBooks := setBook me.orderBooks symbolId removed.2 }
      match removed.1 with
      | .error e => some (.error e, me)
      | .ok cancelled =>
          match me.assetMap.get? symbolId with
          | none => some (.error (.assetMapNotFound symbolId), me)
          | some assets => do
              let unlock ← lockTarget cancelled.side assets cancelled.price cancelled.quantity
              let ledger : NullLedger := ⟨⟩
              let balanceAfter ←
                Word.checkedAdd (Ledger.getBalance ledger cancelled.userId unlock.1) unlock.2
              let version ←
                Word.checkedAdd (Ledger.getBalanceVersion ledger cancelled.userId unlock.1) 1
              let update : OrderUpdate :=
                { orderId := cancelled.orderId
                  clientOrderId := none
                  userId := cancelled.userId
                  symbolId := symbolId
                  side := cancelled.side.asU8
                  orderType := cancelled.orderType.asU8
                  status := .cancelled
                  price := cancelled.price
                  qty := cancelled.quantity
                  filledQty := 0
                  avgFillPrice := none
                  rejectionReason := none
                  timestamp := cancelled.timestamp
                  matchId := none }
              return (.ok [.unlock cancelled.userId unlock.1 unlock.2 balanceAfter version,
                .orderUpdate update], me)

def cancelOrder (env : Externals) (io : WalIo) (me : MatchingEngine) (symbolId : UInt32)
    (orderId : UInt64) : Option (Except OrderError (List LedgerCommand) × MatchingEngine) :=
  let actual := if symbolId = 0 then me.findOrderSymbol orderId else some symbolId
  match actual with
  | none => some (.error (.orderNotFound orderId), me)
  | some actualSymbolId =>
      match me.logWal io with
      | .error e => some (.error e, me)
      | .ok () => do
          match ← processCancel me actualSymbolId orderId with
          | (.error e, me) => some (.error e, me)
          | (.ok commands, me) =>
              some (.ok commands, me.updateHash env (cancelHashData actualSymbolId orderId))

/-! ## Bounds for the book -/

section Book

variable {timestamp : UInt64}

lemma fill_eq {st : MatchState} (maker : Order) {q : UInt64}
    (hseq : st.matchSeq.toNat + 1 < 2 ^ 64) (hq : q ≤ st.order.quantity) :
    fill st timestamp maker q = some (st.fill timestamp maker q) := by
  rw [fill, Word.checkedSucc_eq hseq, Word.checkedSub_eq hq]
  rfl

/-- The match counter has to have room for every order of the level. -/
lemma matchQueue_eq (queue : List Order) (st : MatchState)
    (h : st.matchSeq.toNat + queue.length < 2 ^ 64) :
    matchQueue timestamp queue st = some (OrderBook.matchQueue timestamp queue st) := by
  induction queue generalizing st with
  | nil => rfl
  | cons m ms ih =>
      rw [List.length_cons] at h
      have hseq : (st.matchSeq + 1).toNat = st.matchSeq.toNat + 1 :=
        Word.toNat_add_of_lt (b := 1) (show st.matchSeq.toNat + 1 < 2 ^ 64 by omega)
      rw [matchQueue, fill_eq m (by omega) (min_le_left ..)]
      simp only [Option.bind_eq_bind, Option.bind_some]
      rw [Word.checkedSub_eq (min_le_right ..), OrderBook.matchQueue]
      simp only [Option.bind_some]
      split
      · rfl
      · split
        · rfl
        · refine ih _ ?_
          show (st.matchSeq + 1).toNat + ms.length < 2 ^ 64
          omega

/-- The match counter has to have room for every opposite order. -/
lemma matchLoop_eq {s : Side} (fuel : ℕ) (makers : PriceMap) (st : MatchState)
    (hok : SideOk s makers)
    (h : st.matchSeq.toNat + (flat st.order.side makers).length < 2 ^ 64) :
    matchLoop timestamp fuel makers st = some (OrderBook.matchLoop timestamp fuel makers st) := by
  induction fuel generalizing makers st with
  | zero => rfl
  | succ fuel ih =>
      rw [matchLoop, OrderBook.matchLoop]
      by_cases hpos : st.order.quantity > 0
      · rw [if_pos hpos, if_pos hpos]
        cases hlv : levels st.order.side makers with
        | nil => simp only [bestPrice, bestEntry_eq, hlv, List.head?_nil]
        | cons e ls =>
            obtain ⟨p, queue⟩ := e
            have hlevel : LevelOk s (p, queue) := by
              refine hok _ ((mem_levels st.order.side).mp ?_)
              rw [hlv]
              exact List.mem_cons_self ..
            have hlength : (flat st.order.side makers).length =
                queue.length + (ls.flatMap Prod.snd).length := by
              rw [flat, hlv, List.flatMap_cons, List.length_append]
            by_cases hcross : Crosses st.order.side st.order.price p
            · -- the best level crosses: both inner loops agree on it
              have hall : ∀ m ∈ queue, Crosses st.order.side st.order.price m.price :=
                fun m hm => (hlevel.placed m hm).2.1 ▸ hcross
              simp only [bestPrice, bestEntry_eq, hlv, List.head?_cons, if_pos hcross,
                get?_of_levels hlv, matchQueue_eq queue st (by omega), Option.bind_eq_bind,
                Option.bind_some, matchQueue_eq_walk queue st hpos hall]
              set w := walk st.order.side st.order.price st.order.quantity queue
              by_cases hrest : w.rest = []
              · -- the level is used up: the counter has moved by its length at most
                rw [hrest, List.isEmpty_nil, if_pos rfl]
                have hfills : w.fills.length ≤ queue.length := length_fills_le _ _ _ _
                have hseq : (st.after timestamp w).matchSeq.toNat =
                    st.matchSeq.toNat + w.fills.length := by
                  show (st.matchSeq + UInt64.ofNat w.fills.length).toNat = _
                  have hlen : (UInt64.ofNat w.fills.length).toNat = w.fills.length :=
                    Word.toNat_ofNat_of_lt (by omega)
                  rw [Word.toNat_add_of_lt (by omega), hlen]
                refine ih _ _ (fun e he => hok e (List.mem_of_mem_filter he)) ?_
                rw [MatchState.after_order_side, flat, levels_erase hlv, hseq]
                omega
              · -- the taker is used up, and both loops stop
                have hzero : (st.after timestamp w).order.quantity = 0 :=
                  residual_eq_zero hall hrest
                cases fuel with
                | zero => rfl
                | succ fuel => rw [matchLoop, OrderBook.matchLoop, hzero]; rfl
            · simp only [bestPrice, bestEntry_eq, hlv, List.head?_cons, if_neg hcross]
      · rw [if_neg hpos, if_neg hpos]

lemma bookAddOrder_eq {b : OrderBook} (hb : b.Inv) (order : Order) (tradeIdGen : FastUlidHalfGen)
    (h : b.matchSeq.toNat + (b.flatSide order.side.opposite).length < 2 ^ 64) :
    bookAddOrder b order tradeIdGen timestamp = some (b.addOrder order tradeIdGen timestamp) := by
  unfold bookAddOrder OrderBook.addOrder
  by_cases hid : order.orderId ∈ b.activeOrderIds
  · simp only [if_pos hid]
  · rw [flatSide, Side.opposite_opposite] at h
    simp only [if_neg hid]
    rw [matchLoop_eq _ _ _ (hb.sideOk order.side.opposite) h]
    rfl

end Book

/-! ## Bounds for the lock -/

section Lock

variable {req : OrderRequest} (assets : UInt32 × UInt32)

lemma lockTarget_eq (o : Order) (h : o.worth o.quantity.toNat < 2 ^ 64) :
    lockTarget o.side assets o.price o.quantity =
      some (ExchangeCore.lockTarget o.side assets o.price o.quantity) := by
  unfold lockTarget
  cases hside : o.side with
  | buy =>
      have hfits : o.price.toNat * o.quantity.toNat < 2 ^ 64 := by
        simpa only [Order.worth, hside] using h
      simp only [Word.checkedMul_eq hfits]
      rfl
  | sell => rfl

lemma lockSnapshot_eq (ledger : NullLedger) (h : req.order.worth req.quantity.toNat < 2 ^ 64) :
    lockSnapshot ledger req assets = some (ExchangeCore.lockSnapshot ledger req assets) := by
  have htarget : lockTarget req.side assets req.price req.quantity =
      some (ExchangeCore.lockTarget req.side assets req.price req.quantity) :=
    lockTarget_eq assets req.order h
  have hversion : Word.checkedAdd 0 1 = some (0 + 1) := Word.checkedSucc_eq (by simp)
  simp only [lockSnapshot, ExchangeCore.lockSnapshot, htarget, Option.bind_eq_bind,
    Option.bind_some]
  rw [NullLedger.getBalance_eq, NullLedger.getBalanceVersion_eq, hversion]
  split
  · rename_i hle
    rw [Word.checkedSub_eq hle]
    rfl
  · rfl

lemma lockEvent_eq (lock : LockSnapshot) (h : lock.amount.toNat < 2 ^ 63) :
    lockEvent req lock 0 = some (ExchangeCore.lockEvent req lock 0) := by
  have hfrozen : (0 : UInt64).toNat + lock.amount.toNat < 2 ^ 64 := by
    rw [UInt64.toNat_zero]
    omega
  rw [lockEvent, Word.signed_eq h]
  simp only [Option.bind_eq_bind, Option.bind_some, Word.checkedNeg_eq h,
    Word.checkedAdd_eq hfrozen]
  rfl

end Lock

/-! ## Bounds for a trade -/

section Trades

variable {req : OrderRequest} {assets : UInt32 × UInt32} {ledger : NullLedger} {t : Trade}

/-- The refund is at most what the order held for the units traded. -/
lemma buyerRefund_eq (h : req.side = .buy → req.price.toNat * t.quantity.toNat < 2 ^ 64) :
    buyerRefund req t = some (ExchangeCore.buyerRefund req t) := by
  unfold buyerRefund ExchangeCore.buyerRefund
  split
  · rename_i hbuy
    split
    · rename_i hgt
      have hle : t.price ≤ req.price := le_of_lt hgt
      rw [Word.checkedSub_eq hle]
      refine Word.checkedMul_eq ?_
      rw [UInt64.toNat_sub_of_le _ _ hle]
      exact lt_of_le_of_lt (Nat.mul_le_mul_right _ (Nat.sub_le _ _)) (h hbuy.1)
    · rfl
  · rfl

/-- No version in the table is above `n`. -/
def VersionsUpTo (n : ℕ) (temp : TempVersions) : Prop :=
  ∀ key v, temp.get? key = some v → v.toNat ≤ n

lemma getAndAddVersion_eq {n : ℕ} {temp : TempVersions} (u : UInt64) (a : UInt32) {inc : UInt64}
    (htemp : VersionsUpTo n temp) (hroom : n + inc.toNat < 2 ^ 64) :
    getAndAddVersion ledger u a inc temp =
        some (ExchangeCore.getAndAddVersion ledger u a inc temp) ∧
      (ExchangeCore.getAndAddVersion ledger u a inc temp).1.toNat ≤ n ∧
      VersionsUpTo (n + inc.toNat) (ExchangeCore.getAndAddVersion ledger u a inc temp).2 := by
  have hv : ((temp.get? (u, a)).getD (Ledger.getBalanceVersion ledger u a)).toNat ≤ n := by
    cases hget : temp.get? (u, a) with
    | none => exact Nat.zero_le n
    | some v => exact htemp _ _ hget
  have hfits : ((temp.get? (u, a)).getD (Ledger.getBalanceVersion ledger u a)).toNat +
      inc.toNat < 2 ^ 64 := by omega
  refine ⟨?_, hv, ?_⟩
  · simp only [getAndAddVersion, Word.checkedAdd_eq hfits]
    rfl
  · intro key v hkey
    simp only [ExchangeCore.getAndAddVersion, HashMap.get?_insert] at hkey
    split at hkey
    · obtain rfl := Option.some.inj hkey
      rw [Word.toNat_add_of_lt hfits]
      omega
    · have := htemp _ _ hkey
      omega

/-- The versions drawn by a trade are in the table, and it moves them by 5 at most. -/
lemma tradeVersions_eq {n : ℕ} {temp : TempVersions} (refund : UInt64) (t : Trade)
    (htemp : VersionsUpTo n temp) (hroom : n + 5 < 2 ^ 64) :
    tradeVersions ledger assets refund t temp =
        some (ExchangeCore.tradeVersions ledger assets refund t temp) ∧
      (∀ v ∈ [(ExchangeCore.tradeVersions ledger assets refund t temp).1.buyerQuote,
          (ExchangeCore.tradeVersions ledger assets refund t temp).1.buyerBase,
          (ExchangeCore.tradeVersions ledger assets refund t temp).1.sellerBase,
          (ExchangeCore.tradeVersions ledger assets refund t temp).1.sellerQuote],
        v.toNat + 1 < 2 ^ 64) ∧
      VersionsUpTo (n + 5) (ExchangeCore.tradeVersions ledger assets refund t temp).2 := by
  have hinc : (if refund > 0 then 2 else 1 : UInt64).toNat ≤ 2 := by
    split <;> decide
  have hone : (1 : UInt64).toNat = 1 := rfl
  obtain ⟨h₁, hv₁, ht₁⟩ := @getAndAddVersion_eq ledger n temp t.buyUserId assets.2
    (if refund > 0 then 2 else 1) htemp (by omega)
  obtain ⟨h₂, hv₂, ht₂⟩ := @getAndAddVersion_eq ledger _ _ t.buyUserId assets.1 1 ht₁ (by omega)
  obtain ⟨h₃, hv₃, ht₃⟩ := @getAndAddVersion_eq ledger _ _ t.sellUserId assets.1 1 ht₂ (by omega)
  obtain ⟨h₄, hv₄, ht₄⟩ := @getAndAddVersion_eq ledger _ _ t.sellUserId assets.2 1 ht₃ (by omega)
  refine ⟨?_, ?_, ?_⟩
  · rw [tradeVersions]
    simp only [h₁, h₂, h₃, h₄, Option.bind_eq_bind, Option.bind_some]
    rfl
  · intro v hv
    simp only [List.mem_cons, List.not_mem_nil, or_false] at hv
    rcases hv with rfl | rfl | rfl | rfl <;> simp only [ExchangeCore.tradeVersions] <;> omega
  · intro key v hkey
    have := ht₄ key v hkey
    omega

/-- The amounts of a trade fit signed words. -/
structure Fits (req : OrderRequest) (t : Trade) : Prop where
  paid : t.price.toNat * t.quantity.toNat + (ExchangeCore.buyerRefund req t).toNat < 2 ^ 63
  units : t.quantity.toNat < 2 ^ 63
  limit : req.side = .buy → req.price.toNat * t.quantity.toNat < 2 ^ 64

lemma tradeEvents_eq {refund : UInt64} {v : Versions}
    (hpaid : t.price.toNat * t.quantity.toNat + refund.toNat < 2 ^ 63)
    (hunits : t.quantity.toNat < 2 ^ 63)
    (hv : ∀ x ∈ [v.buyerQuote, v.buyerBase, v.sellerBase, v.sellerQuote], x.toNat + 1 < 2 ^ 64) :
    tradeEvents assets refund v t = some (ExchangeCore.tradeEvents assets refund v t) := by
  have hmul : (t.price * t.quantity).toNat = t.price.toNat * t.quantity.toNat :=
    Word.toNat_mul_of_lt (by omega)
  have hcost : (t.price * t.quantity).toNat < 2 ^ 63 := by omega
  have hproduct := Word.checkedMul_eq (show t.price.toNat * t.quantity.toNat < 2 ^ 64 by omega)
  have hsum := @Word.checkedAddSigned_eq (t.price * t.quantity) refund (by omega)
  have hneg : Word.checkedNeg ((t.price * t.quantity).toInt64 + refund.toInt64) =
      some (-((t.price * t.quantity).toInt64 + refund.toInt64)) := by
    rw [← UInt64.toInt64_add]
    refine Word.checkedNeg_eq ?_
    rw [Word.toNat_add_of_lt (by omega)]
    omega
  simp only [List.mem_cons, List.not_mem_nil, or_false, forall_eq_or_imp, forall_eq] at hv
  obtain ⟨hbq, hbb, hsb, hsq⟩ := hv
  have hquote : buyerQuoteEvent assets refund v t =
      some (ExchangeCore.buyerQuoteEvent assets refund v t) := by
    simp only [buyerQuoteEvent, ExchangeCore.buyerQuoteEvent, hproduct, Word.signed_eq hcost,
      Word.checkedSucc_eq hbq, Option.bind_eq_bind, Option.bind_some]
    split
    · simp only [Word.signed_eq (show refund.toNat < 2 ^ 63 by omega), hsum, hneg,
        Option.bind_some]
      rfl
    · simp only [Word.checkedNeg_eq hcost, Option.bind_some]
      rfl
  simp only [tradeEvents, hproduct, hquote, Word.signed_eq hunits, Word.signed_eq hcost,
    Word.checkedSucc_eq hbb, Word.checkedSucc_eq hsb, Word.checkedSucc_eq hsq,
    Word.checkedNeg_eq hunits, Option.bind_eq_bind, Option.bind_some]
  rfl

/-- One pass of the loop with an output: the sums and the versions have to have room. -/
lemma outputTrade_eq {seq : UInt64} {st : OutputLoop} {n : ℕ} (hfits : Fits req t)
    (hfilled : st.totalFilled.toNat + t.quantity.toNat < 2 ^ 64)
    (hcost : st.totalCost.toNat + t.price.toNat * t.quantity.toNat < 2 ^ 64)
    (htemp : VersionsUpTo n st.tempVersions) (hroom : n + 5 < 2 ^ 64) :
    outputTrade ledger req assets seq st t =
        some (ExchangeCore.outputTrade ledger req assets seq st t) ∧
      VersionsUpTo (n + 5) (ExchangeCore.outputTrade ledger req assets seq st t).tempVersions := by
  obtain ⟨hversions, hv, htemp'⟩ := @tradeVersions_eq assets ledger n st.tempVersions
    (ExchangeCore.buyerRefund req t) t htemp hroom
  have hproduct := Word.checkedMul_eq
    (show t.price.toNat * t.quantity.toNat < 2 ^ 64 by have := hfits.paid; omega)
  have hmul : (t.price * t.quantity).toNat = t.price.toNat * t.quantity.toNat :=
    Word.toNat_mul_of_lt (by omega)
  refine ⟨?_, htemp'⟩
  simp only [outputTrade, Word.checkedAdd_eq hfilled, hproduct,
    Word.checkedAdd_eq (show st.totalCost.toNat + (t.price * t.quantity).toNat < 2 ^ 64 by omega),
    buyerRefund_eq hfits.limit, hversions, tradeEvents_eq hfits.paid hfits.units hv,
    Option.bind_eq_bind, Option.bind_some]
  rfl

lemma foldlM_outputTrade_eq {seq : UInt64} (trades : List Trade) {st : OutputLoop} {n : ℕ}
    (hfits : ∀ t ∈ trades, Fits req t) (hfilled : st.totalFilled.toNat + unitsOf trades < 2 ^ 64)
    (hcost : st.totalCost.toNat + valueOf trades < 2 ^ 64) (htemp : VersionsUpTo n st.tempVersions)
    (hroom : n + 5 * trades.length < 2 ^ 64) :
    trades.foldlM (outputTrade ledger req assets seq) st =
        some (trades.foldl (ExchangeCore.outputTrade ledger req assets seq) st) ∧
      (trades.foldl (ExchangeCore.outputTrade ledger req assets seq) st).totalFilled.toNat =
        st.totalFilled.toNat + unitsOf trades := by
  induction trades generalizing st n with
  | nil => exact ⟨rfl, rfl⟩
  | cons t ts ih =>
      simp only [unitsOf, valueOf, List.map_cons, List.sum_cons] at hfilled hcost
      rw [List.length_cons] at hroom
      obtain ⟨hstep, htemp'⟩ := @outputTrade_eq req assets ledger t seq st n
        (hfits t (List.mem_cons_self ..)) (by omega) (by omega) htemp (by omega)
      have hpaid := (hfits t (List.mem_cons_self ..)).paid
      have hfilled' : (ExchangeCore.outputTrade ledger req assets seq st t).totalFilled.toNat =
          st.totalFilled.toNat + t.quantity.toNat := Word.toNat_add_of_lt (by omega)
      have hcost' : (ExchangeCore.outputTrade ledger req assets seq st t).totalCost.toNat =
          st.totalCost.toNat + t.price.toNat * t.quantity.toNat := by
        have hmul : (t.price * t.quantity).toNat = t.price.toNat * t.quantity.toNat :=
          Word.toNat_mul_of_lt (by omega)
        rw [← hmul]
        exact Word.toNat_add_of_lt (by omega)
      obtain ⟨hrun, hsum⟩ := ih (fun t ht => hfits t (List.mem_cons_of_mem _ ht))
        (show _ + (ts.map (fun t => t.quantity.toNat)).sum < _ by omega)
        (show _ + (ts.map (fun t => t.price.toNat * t.quantity.toNat)).sum < _ by omega)
        htemp' (by omega)
      rw [List.foldlM_cons, hstep, List.foldl_cons]
      refine ⟨hrun, ?_⟩
      rw [hsum, hfilled']
      simp only [unitsOf, List.map_cons, List.sum_cons]
      omega

lemma finishOrder_eq {loop : OutputLoop} (h : loop.totalFilled ≤ req.quantity) :
    finishOrder req loop = some (ExchangeCore.finishOrder req loop) := by
  simp only [finishOrder, ExchangeCore.finishOrder, Word.checkedSub_eq h, Option.bind_eq_bind,
    Option.bind_some]
  split <;> rfl

/-- Every balance read from the table is the one the stub ledger reports. -/
def Untouched (temp : HashMap (UInt64 × UInt32) UInt64) : Prop :=
  ∀ key, (temp.get? key).getD 0xFFFFFFFFFFFFFFFF = 0xFFFFFFFFFFFFFFFF

/-- The largest balance there is takes no credit. -/
lemma getAndUpdateBalance_some {temp : HashMap (UInt64 × UInt32) UInt64} {u : UInt64} {a : UInt32}
    {amount : UInt64} {delta : Int64} {r : UInt64 × HashMap (UInt64 × UInt32) UInt64}
    (htemp : Untouched temp) (hdelta : Word.signed amount = some delta)
    (h : getAndUpdateBalance ledger u a delta temp = some r) : amount = 0 ∧ Untouched r.2 := by
  obtain ⟨hsmall, rfl⟩ : amount.toNat < 2 ^ 63 ∧ amount.toInt64 = delta := by
    unfold Word.signed at hdelta
    split at hdelta
    · exact ⟨‹_›, Option.some.inj hdelta⟩
    · cases hdelta
  have hnonneg : amount.toInt64 ≥ 0 := by
    rw [ge_iff_le, Int64.le_iff_toInt_le, Word.toInt_toInt64 hsmall]
    exact Int.natCast_nonneg _
  unfold getAndUpdateBalance at h
  rw [NullLedger.getBalance_eq, htemp (u, a)] at h
  simp only [if_pos hnonneg, UInt64.toUInt64_toInt64] at h
  by_cases hzero : amount = 0
  · subst hzero
    refine ⟨rfl, ?_⟩
    have hsum : Word.checkedAdd 0xFFFFFFFFFFFFFFFF 0 = some 0xFFFFFFFFFFFFFFFF := by decide
    rw [hsum] at h
    obtain rfl := Option.some.inj h
    intro key
    rw [HashMap.get?_insert]
    split
    · rfl
    · exact htemp key
  · rw [Word.checkedAdd_max (UInt64.pos_iff_ne_zero.mpr hzero)] at h
    cases h

/-- **The loop without an output fails at its first trade**: the units traded do not fit on top of
the balance the stub ledger reports. -/
lemma logicTrade_none {st : LogicLoop} (htemp : Untouched st.tempBalances)
    (hpos : 0 < t.quantity) : logicTrade ledger req assets st t = none := by
  rw [Option.eq_none_iff_forall_ne_some]
  intro r h
  simp only [logicTrade, Option.bind_eq_bind, Option.bind_eq_some_iff] at h
  obtain ⟨refund, -, versions, -, back, hback, buyerQuote, hquote, units, hunits, buyerBase, hbase,
    -⟩ := h
  obtain ⟨-, htemp'⟩ := getAndUpdateBalance_some htemp hback hquote
  obtain ⟨hzero, -⟩ := getAndUpdateBalance_some htemp' hunits hbase
  exact absurd hpos (by rw [hzero]; exact lt_irrefl _)

end Trades

/-! ## Bounds for the order processing -/

section Processing

variable {env : Externals} {assetMap : HashMap UInt32 (UInt32 × UInt32)} {inputSeq : UInt64}
  {req : OrderRequest} {clientOrderId : String} {assets : UInt32 × UInt32} {book : OrderBook}
  {p : Parts NullLedger}

/-- The amounts of a list of trades, of which a book reports at most `n`, fit the sums over them. -/
structure TradesFit (req : OrderRequest) (n : ℕ) (trades : List Trade) : Prop where
  fits : ∀ t ∈ trades, Fits req t
  units : unitsOf trades ≤ req.quantity.toNat
  value : valueOf trades < 2 ^ 64
  length : trades.length ≤ n

/-- The counters have room for `n` trades. -/
structure Room (n : ℕ) (outputSeq matchSeq : UInt64) : Prop where
  outputSeq : outputSeq.toNat + 1 < 2 ^ 64
  matchSeq : matchSeq.toNat + n < 2 ^ 64
  versions : 5 * n < 2 ^ 64

lemma processOrderWithOutput_eq (hassets : assetMap.get? req.symbolId = some assets)
    (hbook : bookAt p.orderBooks req.symbolId = some book) (hb : book.Inv)
    (hworth : req.order.worth req.quantity.toNat < 2 ^ 63)
    (hroom : Room (book.flatSide req.side.opposite).length p.outputSeq book.matchSeq)
    (htrades : ∀ trades, (book.addOrder req.order p.tradeIdGen req.timestamp).1 = .ok trades →
      TradesFit req (book.flatSide req.side.opposite).length trades) :
    processOrderWithOutput env assetMap inputSeq req clientOrderId p =
      some (ExchangeCore.processOrderWithOutput env assetMap inputSeq req clientOrderId p) := by
  have hworth' : req.order.worth req.quantity.toNat < 2 ^ 64 := by omega
  have hamount : (ExchangeCore.lockSnapshot p.ledger req assets).amount.toNat < 2 ^ 63 := by
    refine lt_of_eq_of_lt ?_ hworth
    exact lockTarget_snd req.order assets hworth'
  have hadd := @bookAddOrder_eq req.timestamp book hb req.order p.tradeIdGen
    hroom.matchSeq
  simp only [processOrderWithOutput, ExchangeCore.processOrderWithOutput,
    Word.checkedSucc_eq hroom.outputSeq, hassets, NullLedger.apply_eq, hbook,
    lockSnapshot_eq assets p.ledger hworth', NullLedger.getFrozen_eq, lockEvent_eq _ hamount, hadd,
    Option.bind_eq_bind, Option.bind_some]
  -- up to the book nothing overflows; what is left is the fold over its trades
  cases hadded : (book.addOrder req.order p.tradeIdGen req.timestamp).1 with
  | error e => rfl
  | ok trades =>
      have hall := htrades trades hadded
      have hzero : VersionsUpTo 0 (HashMap.empty : TempVersions) := by
        intro key v hkey
        cases hkey
      have hcost := hall.value
      have hversions := hroom.versions
      have hlength := hall.length
      have hunits := hall.units
      have hlt := req.quantity.toNat_lt
      obtain ⟨hloop, hfilled⟩ := @foldlM_outputTrade_eq req assets p.ledger (p.outputSeq + 1) trades
        ⟨0, 0, [], HashMap.empty, ((((EngineOutputBuilder.new (p.outputSeq + 1)
          p.lastOutputHash).setInput (placeInput env inputSeq req clientOrderId)).addBalanceEvent
          (ExchangeCore.lockEvent req (ExchangeCore.lockSnapshot p.ledger req assets) 0)
          ).addOrderPlacement (orderPlacement req))⟩ 0 hall.fits
        (show 0 + unitsOf trades < 2 ^ 64 by omega)
        (show 0 + valueOf trades < 2 ^ 64 by omega) hzero (by omega)
      have hfinish := @finishOrder_eq req _ (UInt64.le_iff_toNat_le.mpr (show _ ≤ _ by
        rw [hfilled]
        show 0 + unitsOf trades ≤ _
        omega))
      simp only [hloop, Option.bind_some, applyBatch_null, hfinish]
      rfl

/-- Without an output, an order that does not trade is as good as in the wrapping build. -/
lemma processOrderLogic_eq (hassets : assetMap.get? req.symbolId = some assets)
    (hbook : bookAt p.orderBooks req.symbolId = some book)
    (hworth : req.order.worth req.quantity.toNat < 2 ^ 64)
    (hadd : bookAddOrder book req.order p.tradeIdGen req.timestamp =
      some (book.addOrder req.order p.tradeIdGen req.timestamp))
    (hnone : ∀ trades, (book.addOrder req.order p.tradeIdGen req.timestamp).1 = .ok trades →
      trades = []) :
    processOrderLogic assetMap req p =
      some (ExchangeCore.processOrderLogic assetMap req p) := by
  simp only [processOrderLogic, ExchangeCore.processOrderLogic, hassets, NullLedger.apply_eq, hbook,
    lockSnapshot_eq assets p.ledger hworth, hadd, Option.bind_eq_bind, Option.bind_some]
  cases hadded : (book.addOrder req.order p.tradeIdGen req.timestamp).1 with
  | error e => rfl
  | ok trades =>
      obtain rfl := hnone trades hadded
      rfl

/-- Without an output, an order that trades ends in a panic. -/
lemma processOrderLogic_none (hassets : assetMap.get? req.symbolId = some assets)
    (hbook : bookAt p.orderBooks req.symbolId = some book)
    (hworth : req.order.worth req.quantity.toNat < 2 ^ 64)
    (hadd : bookAddOrder book req.order p.tradeIdGen req.timestamp =
      some (book.addOrder req.order p.tradeIdGen req.timestamp))
    {t : Trade} {ts : List Trade}
    (htrades : (book.addOrder req.order p.tradeIdGen req.timestamp).1 = .ok (t :: ts))
    (hpos : 0 < t.quantity) : processOrderLogic assetMap req p = none := by
  have hfirst : logicTrade p.ledger req assets
      ⟨[], HashMap.empty, HashMap.empty, p.outputSeq⟩ t = none :=
    logicTrade_none (fun key => rfl) hpos
  simp only [processOrderLogic, hassets, NullLedger.apply_eq, hbook,
    lockSnapshot_eq assets p.ledger hworth, hadd, htrades, List.foldlM_cons, hfirst,
    Option.bind_eq_bind, Option.bind_some, Option.bind_none]

end Processing

end Checked

end ExchangeCore
