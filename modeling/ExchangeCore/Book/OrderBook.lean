import ExchangeCore.Framework.HashMap
import ExchangeCore.Framework.Machine
import ExchangeCore.Framework.SortedMap
import ExchangeCore.Framework.Word
import ExchangeCore.Models.Order

/-!
# The order book

`OrderBook` (`matching_engine_base.rs`): two price maps of FIFO queues, the set of active order
ids, the index from ids to the queue they sit in, and the match counter.  `addOrder` is the
matching loop and `removeOrder` the cancellation, both translated statement by statement.

The source writes the matching loop twice, once per side; the copies differ in which end of the
opposite map is best, in the direction of the price test and in which of the two orders is the
buyer.  Those three differences are `bestEntry`, `Crosses` and `mkTrade`; the loop itself is one
definition.  The inner `while let … pop_front()` is `matchQueue`, by recursion on the queue it
pops from.  The outer `while` is `matchLoop`, with a fuel argument that `addOrder` sets to one
more than the number of opposite levels: every iteration either removes a level or exhausts the
taker (`matchLoop_eq_walk`, in `Book/Matching.lean`, discharges the fuel).
-/

namespace ExchangeCore

/-- A price map of one side of the book. -/
abbrev PriceMap := SortedMap UInt64 (List Order)

/-- The order book of one symbol. -/
structure OrderBook where
  symbolId : UInt32
  /-- Price → orders, oldest first. -/
  bids : PriceMap
  /-- Price → orders, oldest first. -/
  asks : PriceMap
  activeOrderIds : Finset UInt64
  /-- Order id → (side, price). -/
  orderIndex : HashMap UInt64 (Side × UInt64)
  matchSeq : UInt64

namespace OrderBook

def new (symbolId : UInt32) : OrderBook where
  symbolId := symbolId
  bids := SortedMap.empty
  asks := SortedMap.empty
  activeOrderIds := ∅
  orderIndex := HashMap.empty
  matchSeq := 0

/-- The price map of a side. -/
def sideMap (b : OrderBook) : Side → PriceMap
  | .buy => b.bids
  | .sell => b.asks

/-- Replace the price map of a side. -/
def setSideMap (b : OrderBook) (s : Side) (m : PriceMap) : OrderBook :=
  match s with
  | .buy => { b with bids := m }
  | .sell => { b with asks := m }

/-! ## Matching -/

/-- The best opposite level for a taker of this side: the lowest ask for a buy
(`asks.iter().next()`), the highest bid for a sell (`bids.iter().next_back()`). -/
def bestEntry (taker : Side) (makers : PriceMap) : Option (UInt64 × List Order) :=
  match taker with
  | .buy => makers.first?
  | .sell => makers.last?

/-- The maker's price is at or better than the taker's limit. -/
def Crosses (taker : Side) (limit makerPrice : UInt64) : Prop :=
  match taker with
  | .buy => makerPrice ≤ limit
  | .sell => limit ≤ makerPrice

instance (taker : Side) (limit makerPrice : UInt64) :
    Decidable (Crosses taker limit makerPrice) := by
  unfold Crosses
  cases taker <;> exact inferInstance

/-- `best_ask_price` / `best_bid_price`: the best opposite price, if it crosses. -/
def bestPrice (taker : Side) (makers : PriceMap) (limit : UInt64) : Option UInt64 :=
  match bestEntry taker makers with
  | some (price, _) => if Crosses taker limit price then some price else none
  | none => none

/-- The trade of `tradeQuantity` between a taker and a maker, at the maker's price. -/
def mkTrade (taker maker : Order) (matchSeq tradeId tradeQuantity : UInt64) : Trade :=
  match taker.side with
  | .buy =>
      { tradeId, matchSeq, buyOrderId := taker.orderId, sellOrderId := maker.orderId,
        buyUserId := taker.userId, sellUserId := maker.userId,
        price := maker.price, quantity := tradeQuantity }
  | .sell =>
      { tradeId, matchSeq, buyOrderId := maker.orderId, sellOrderId := taker.orderId,
        buyUserId := maker.userId, sellUserId := taker.userId,
        price := maker.price, quantity := tradeQuantity }

/-- What the matching loop updates besides the opposite price map. -/
structure MatchState where
  order : Order
  tradeIdGen : FastUlidHalfGen
  activeOrderIds : Finset UInt64
  orderIndex : HashMap UInt64 (Side × UInt64)
  matchSeq : UInt64
  trades : List Trade

/-- Record the trade with one maker: bump the counter, draw a trade id, reduce the taker. -/
def MatchState.fill (st : MatchState) (timestamp : UInt64) (maker : Order)
    (tradeQuantity : UInt64) : MatchState :=
  let matchSeq := st.matchSeq + 1
  let generated := st.tradeIdGen.generateFromTs timestamp
  { st with
    matchSeq := matchSeq
    tradeIdGen := generated.2
    trades := st.trades ++ [mkTrade st.order maker matchSeq generated.1 tradeQuantity]
    order := { st.order with quantity := st.order.quantity - tradeQuantity } }

/-- Forget a maker that was filled completely. -/
def MatchState.retire (st : MatchState) (makerId : UInt64) : MatchState :=
  { st with
    activeOrderIds := st.activeOrderIds.erase makerId
    orderIndex := st.orderIndex.erase makerId }

/-- The inner loop: pop makers off the front of one level until the taker is exhausted.  A
maker that is not fully filled goes back to the front. -/
def matchQueue (timestamp : UInt64) : List Order → MatchState → List Order × MatchState
  | [], st => ([], st)
  | best :: rest, st =>
      let tradeQuantity := min st.order.quantity best.quantity
      let st := st.fill timestamp best tradeQuantity
      let best := { best with quantity := best.quantity - tradeQuantity }
      if best.quantity > 0 then (best :: rest, st)
      else
        let st := st.retire best.orderId
        if st.order.quantity = 0 then (rest, st)
        else matchQueue timestamp rest st

/-- The outer loop: match against the best opposite level while it crosses and the taker has
quantity left, removing the levels that become empty. -/
def matchLoop (timestamp : UInt64) : ℕ → PriceMap → MatchState → PriceMap × MatchState
  | 0, makers, st => (makers, st)
  | fuel + 1, makers, st =>
      if st.order.quantity > 0 then
        match bestPrice st.order.side makers st.order.price with
        | some price =>
            match makers.get? price with
            | some ordersAtPrice =>
                let matched := matchQueue timestamp ordersAtPrice st
                let makers :=
                  if matched.1.isEmpty then makers.erase price
                  else makers.replace price matched.1
                matchLoop timestamp fuel makers matched.2
            | none => (makers, st)
        | none => (makers, st)
      else (makers, st)

def addOrder (b : OrderBook) (order : Order) (tradeIdGen : FastUlidHalfGen) (timestamp : UInt64) :
    Except String (List Trade) × OrderBook × FastUlidHalfGen :=
  let orderId := order.orderId
  if orderId ∈ b.activeOrderIds then
    (.error s!"Duplicate order ID: {orderId}", b, tradeIdGen)
  else
    let makers := b.sideMap order.side.opposite
    let matched := matchLoop timestamp (makers.entries.length + 1) makers
      { order := order
        tradeIdGen := tradeIdGen
        activeOrderIds := insert order.orderId b.activeOrderIds
        orderIndex := b.orderIndex.insert order.orderId (order.side, order.price)
        matchSeq := b.matchSeq
        trades := [] }
    let st := matched.2
    let b := b.setSideMap order.side.opposite matched.1
    let b :=
      { b with
        activeOrderIds := st.activeOrderIds
        orderIndex := st.orderIndex
        matchSeq := st.matchSeq }
    -- if the order still has quantity, add it to the book
    let b :=
      if st.order.quantity > 0 then
        b.setSideMap st.order.side
          ((b.sideMap st.order.side).upsert st.order.price (fun q => q.getD [] ++ [st.order]))
      else b
    (.ok st.trades, b, st.tradeIdGen)

/-! ## Lookup and removal -/

def hasOrder (b : OrderBook) (orderId : UInt64) : Bool := orderId ∈ b.activeOrderIds

def removeOrder (b : OrderBook) (orderId : UInt64) : Except OrderError Order × OrderBook :=
  match b.orderIndex.get? orderId with
  | some (side, price) =>
      let b :=
        { b with
          orderIndex := b.orderIndex.erase orderId
          activeOrderIds := b.activeOrderIds.erase orderId }
      let ordersMap := b.sideMap side
      match ordersMap.get? price with
      | some orders =>
          match orders.find? (fun o => o.orderId = orderId) with
          | some order =>
              -- `position` finds the first match, `remove(index)` takes it out
              let orders := orders.eraseP (fun o => o.orderId = orderId)
              let ordersMap :=
                if orders.isEmpty then ordersMap.erase price else ordersMap.replace price orders
              (.ok order, b.setSideMap side ordersMap)
          | none => (.error (.orderNotFound orderId), b)
      | none => (.error (.orderNotFound orderId), b)
  | none => (.error (.orderNotFound orderId), b)

/-! ## The book as a machine -/

/-- The calls a book receives.  The id generator belongs to the caller, so each `add` brings
its own. -/
inductive Call
  | add (order : Order) (tradeIdGen : FastUlidHalfGen) (timestamp : UInt64)
  | remove (orderId : UInt64)

/-- The book after one call, successful or not. -/
def machine : Machine OrderBook Call Unit where
  step b
    | .add order tradeIdGen timestamp => ((b.addOrder order tradeIdGen timestamp).2.1, ())
    | .remove orderId => ((b.removeOrder orderId).2, ())

/-- The books reachable from `OrderBook::new` by any sequence of calls. -/
def Reachable (b : OrderBook) : Prop := ∃ symbolId, machine.Reachable (new symbolId) b

end OrderBook

end ExchangeCore
