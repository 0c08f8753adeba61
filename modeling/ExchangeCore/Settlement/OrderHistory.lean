import ExchangeCore.Settlement.OrderStatistics

/-!
# The order history service

`order_history_service.rs` reads the commands of the ledger and keeps four tables: the active
orders, the last state of every order, a stream of updates, and the statistics of the users.  An
order update comes as such (`process_order_update`); a trade is turned into an update of both its
orders, from what the active orders say about them (`process_trade_fill`).  The statements of an
update are executed one after the other, and the first that fails ends it: `done` is how many
succeed.

`active_order_followed` says that what is read of an order is what one gets by following the
order's own events, whatever else is going on and whichever later statements fail;
`active_until_filled` what this means for the fills; and `active_agrees_history` how the two tables
of orders go together.

The total volume and the times of the statistics are left out.  `filled_qty + match_qty` wraps, as
in the default release profile.
-/

namespace ExchangeCore

/-! ## The rows -/

namespace OrderStatus

/-- The number of a status in the tables. -/
def dbCode : OrderStatus → Int8
  | new => 1
  | partiallyFilled => 3
  | filled => 4
  | cancelled => 5
  | rejected => 6
  | expired => 7

/-- The status `get_active_order` reads from a number. -/
def ofDbCode (code : Int8) : OrderStatus :=
  if code = 1 then new
  else if code = 3 then partiallyFilled
  else if code = 4 then filled
  else if code = 5 then cancelled
  else if code = 6 then rejected
  else if code = 7 then expired
  else new

@[simp] lemma ofDbCode_dbCode (status : OrderStatus) : ofDbCode status.dbCode = status := by
  cases status <;> decide

end OrderStatus

/-- The columns of `active_orders`, which `order_history` has as well. -/
structure OrderRow where
  userId : Int64
  orderId : Int64
  clientOrderId : String
  symbolId : Int32
  side : Int8
  orderType : Int8
  price : Int64
  qty : Int64
  filledQty : Int64
  avgFillPrice : Int64
  status : Int8
  createdAt : Int64
  updatedAt : Int64
  deriving DecidableEq

/-- A row of `order_history`. -/
structure OrderHistoryRow where
  order : OrderRow
  rejectionReason : String
  matchId : Option Int64
  deriving DecidableEq

/-- A row of `order_updates_stream`. -/
structure OrderStreamRow where
  eventDate : Int32
  eventId : Int64
  orderId : Int64
  userId : Int64
  clientOrderId : String
  symbolId : Int32
  status : Int8
  price : Int64
  qty : Int64
  filledQty : Int64
  avgFillPrice : Int64
  rejectionReason : String
  matchId : Option Int64
  timestamp : Int64
  deriving DecidableEq

/-- The primary key of `active_orders` and of `order_history`. -/
def orderKey (userId orderId : UInt64) : Int64 × Int64 := (userId.toInt64, orderId.toInt64)

lemma orderKey_eq_iff {u id u' id' : UInt64} :
    orderKey u id = orderKey u' id' ↔ u = u' ∧ id = id' := by
  have hinj : Function.Injective UInt64.toInt64 :=
    Function.LeftInverse.injective UInt64.toUInt64_toInt64
  rw [orderKey, orderKey, Prod.mk.injEq, hinj.eq_iff, hinj.eq_iff]

namespace OrderUpdate

/-- The values `upsert_active_order` inserts. -/
def row (order : OrderUpdate) : OrderRow where
  userId := order.userId.toInt64
  orderId := order.orderId.toInt64
  clientOrderId := order.clientOrderId.getD ""
  symbolId := order.symbolId.toInt32
  side := order.side.toInt8
  orderType := order.orderType.toInt8
  price := order.price.toInt64
  qty := order.qty.toInt64
  filledQty := order.filledQty.toInt64
  avgFillPrice := (order.avgFillPrice.getD 0).toInt64
  status := order.status.dbCode
  createdAt := order.timestamp.toInt64
  updatedAt := order.timestamp.toInt64

/-- The values `insert_order_history` inserts. -/
def historyRow (order : OrderUpdate) : OrderHistoryRow :=
  ⟨order.row, order.rejectionReason.getD "", order.matchId.map UInt64.toInt64⟩

/-- The values `insert_order_update_stream` inserts. -/
def streamRow (order : OrderUpdate) (eventId : UInt64) : OrderStreamRow where
  eventDate := (order.timestamp / 86400000).toUInt32.toInt32
  eventId := eventId.toInt64
  orderId := order.orderId.toInt64
  userId := order.userId.toInt64
  clientOrderId := order.clientOrderId.getD ""
  symbolId := order.symbolId.toInt32
  status := order.status.dbCode
  price := order.price.toInt64
  qty := order.qty.toInt64
  filledQty := order.filledQty.toInt64
  avgFillPrice := (order.avgFillPrice.getD 0).toInt64
  rejectionReason := order.rejectionReason.getD ""
  matchId := order.matchId.map UInt64.toInt64
  timestamp := order.timestamp.toInt64

/-- What is left of an update in `active_orders`. -/
def kept (order : OrderUpdate) : OrderUpdate :=
  { order with
    clientOrderId := order.clientOrderId.filter (fun cid => cid ≠ "")
    avgFillPrice := none
    rejectionReason := none
    matchId := none }

lemma kept_kept (order : OrderUpdate) : order.kept.kept = order.kept := by
  have hcid : (order.clientOrderId.filter (fun cid => cid ≠ "")).filter (fun cid => cid ≠ "") =
      order.clientOrderId.filter (fun cid => cid ≠ "") := by
    rcases order.clientOrderId with _ | cid
    · rfl
    · by_cases hempty : cid = "" <;> simp [Option.filter, hempty]
  simp only [kept, hcid]

end OrderUpdate

/-- The update `get_active_order` makes of a row. -/
def OrderRow.read (row : OrderRow) : OrderUpdate where
  orderId := row.orderId.toUInt64
  clientOrderId := if row.clientOrderId = "" then none else some row.clientOrderId
  userId := row.userId.toUInt64
  symbolId := row.symbolId.toUInt32
  side := row.side.toUInt8
  orderType := row.orderType.toUInt8
  status := OrderStatus.ofDbCode row.status
  price := row.price.toUInt64
  qty := row.qty.toUInt64
  filledQty := row.filledQty.toUInt64
  avgFillPrice := none
  rejectionReason := none
  timestamp := row.createdAt.toUInt64
  matchId := none

lemma OrderRow.read_row (order : OrderUpdate) : order.row.read = order.kept := by
  have hcid : (if order.clientOrderId.getD "" = "" then none
      else some (order.clientOrderId.getD "")) =
        order.clientOrderId.filter (fun cid => cid ≠ "") := by
    rcases order.clientOrderId with _ | cid
    · rfl
    · by_cases hempty : cid = "" <;> simp [Option.filter, hempty]
  simp only [OrderRow.read, OrderUpdate.row, OrderUpdate.kept, UInt64.toUInt64_toInt64,
    UInt32.toUInt32_toInt32, UInt8.toUInt8_toInt8, OrderStatus.ofDbCode_dbCode]
  rw [← hcid]
  rfl

/-! ## The tables -/

/-- The tables of the service. -/
structure OrderTables where
  activeOrders : HashMap (Int64 × Int64) OrderRow
  orderHistory : HashMap (Int64 × Int64) OrderHistoryRow
  orderUpdatesStream : HashMap Int64 OrderStreamRow
  orderStatistics : OrderStatistics

/-- The calls on `OrderHistoryDb`. -/
inductive HistoryCall
  | upsertActiveOrder (order : OrderUpdate)
  | deleteActiveOrder (userId orderId : UInt64)
  | insertOrderHistory (order : OrderUpdate)
  | insertOrderUpdateStream (order : OrderUpdate) (eventId : UInt64)
  | initUserStatistics (userId : UInt64)
  | updateOrderStatistics (userId : UInt64) (status : OrderStatus)

namespace OrderTables

/-- No rows. -/
def empty : OrderTables := ⟨.empty, .empty, .empty, .empty⟩

/-- A call that succeeds. -/
def execute (t : OrderTables) : HistoryCall → OrderTables
  | .upsertActiveOrder order =>
      { t with
        activeOrders := t.activeOrders.insert (orderKey order.userId order.orderId) order.row }
  | .deleteActiveOrder userId orderId =>
      { t with activeOrders := t.activeOrders.erase (orderKey userId orderId) }
  | .insertOrderHistory order =>
      { t with
        orderHistory :=
          t.orderHistory.insert (orderKey order.userId order.orderId) order.historyRow }
  | .insertOrderUpdateStream order eventId =>
      { t with
        orderUpdatesStream :=
          t.orderUpdatesStream.insert eventId.toInt64 (order.streamRow eventId) }
  | .initUserStatistics userId =>
      { t with
        orderStatistics := if (t.orderStatistics.get? userId).isSome then t.orderStatistics
          else t.orderStatistics.insert userId .initial }
  | .updateOrderStatistics userId status =>
      { t with
        orderStatistics :=
          t.orderStatistics.insert userId ((t.orderStatistics.rowOf userId).count status) }

def getActiveOrder (t : OrderTables) (userId orderId : UInt64) : Option OrderUpdate :=
  (t.activeOrders.get? (orderKey userId orderId)).map OrderRow.read

end OrderTables

/-- The calls of `process_order_update`. -/
def orderUpdateCalls (order : OrderUpdate) (eventId : UInt64) : List HistoryCall :=
  match order.status with
  | .new =>
      [.upsertActiveOrder order, .insertOrderHistory order, .insertOrderUpdateStream order eventId,
        .initUserStatistics order.userId, .updateOrderStatistics order.userId order.status]
  | .partiallyFilled =>
      [.upsertActiveOrder order, .insertOrderHistory order, .insertOrderUpdateStream order eventId]
  | .filled | .cancelled =>
      [.deleteActiveOrder order.userId order.orderId, .insertOrderHistory order,
        .insertOrderUpdateStream order eventId, .updateOrderStatistics order.userId order.status]
  | .rejected =>
      [.insertOrderHistory order, .insertOrderUpdateStream order eventId,
        .updateOrderStatistics order.userId order.status]
  | .expired =>
      [.deleteActiveOrder order.userId order.orderId, .insertOrderHistory order,
        .insertOrderUpdateStream order eventId]

/-- An order with a fill. -/
def OrderUpdate.fillBy (order : OrderUpdate) (matchQty : UInt64) : OrderUpdate :=
  let filledQty := order.filledQty + matchQty
  { order with
    filledQty := filledQty
    status := if order.qty ≤ filledQty then .filled else .partiallyFilled }

namespace OrderTables

/-- `process_order_update`, of which `done` calls succeed. -/
def processOrderUpdate (t : OrderTables) (order : OrderUpdate) (eventId : UInt64) (done : ℕ) :
    OrderTables :=
  ((orderUpdateCalls order eventId).take done).foldl execute t

def processTradeFill (t : OrderTables) (userId orderId matchQty eventId : UInt64) (done : ℕ) :
    OrderTables :=
  match t.getActiveOrder userId orderId with
  | some order => t.processOrderUpdate (order.fillBy matchQty) eventId done
  | none => t

end OrderTables

/-! ## The service -/

/-- What the service makes of a command. -/
inductive HistoryEvent
  | update (order : OrderUpdate)
  | fill (userId orderId matchQty eventId : UInt64)

/-- The fills of a trade, the buyer's first. -/
def MatchExecData.fills (trade : MatchExecData) : List HistoryEvent :=
  [.fill trade.buyerUserId trade.buyOrderId trade.quantity trade.matchSeq,
    .fill trade.sellerUserId trade.sellOrderId trade.quantity trade.matchSeq]

/-- The events of a command; the other commands are ignored. -/
def LedgerCommand.historyEvents : LedgerCommand → List HistoryEvent
  | .orderUpdate order => [.update order]
  | .matchExecBatch trades => trades.flatMap MatchExecData.fills
  | .matchExec trade => trade.fills
  | _ => []

/-- The service: its tables, and how many order updates it has received. -/
structure OrderHistoryService where
  tables : OrderTables
  totalEvents : UInt64

namespace OrderHistoryService

/-- The service at the beginning. -/
def start : OrderHistoryService := ⟨.empty, 0⟩

/-- An event, and how many of its calls succeed; a fill whose order cannot be read makes none. -/
def step (s : OrderHistoryService) (event : HistoryEvent × ℕ) : OrderHistoryService :=
  match event with
  | (.update order, done) =>
      ⟨s.tables.processOrderUpdate order (s.totalEvents + 1) done, s.totalEvents + 1⟩
  | (.fill userId orderId matchQty eventId, done) =>
      { s with tables := s.tables.processTradeFill userId orderId matchQty eventId done }

/-- Any number of events. -/
def run (events : List (HistoryEvent × ℕ)) : OrderHistoryService := events.foldl step start

end OrderHistoryService

/-! ## Active orders -/

/-- What an update leaves of the order that was active. -/
def OrderUpdate.leaves (order : OrderUpdate) (active : Option OrderUpdate) : Option OrderUpdate :=
  match order.status with
  | .new | .partiallyFilled => some order.kept
  | .filled | .cancelled | .expired => none
  | .rejected => active

/-- An order with some more fills, not all of it. -/
def OrderUpdate.filledTo (order : OrderUpdate) (fills : List UInt64) : OrderUpdate :=
  { order with
    filledQty := UInt64.ofNat (order.filledQty.toNat + (fills.map UInt64.toNat).sum)
    status := if fills = [] then order.status else .partiallyFilled }

/-- An order, as far as an event changes it. -/
def HistoryEvent.follow (u id : UInt64) (active : Option OrderUpdate) :
    HistoryEvent → Option OrderUpdate
  | .update order => if order.userId = u ∧ order.orderId = id then order.leaves active else active
  | .fill u' id' matchQty _ =>
      if u' = u ∧ id' = id then
        active.bind (fun order => (order.fillBy matchQty).leaves active)
      else active

namespace OrderTables

variable {t : OrderTables} {order : OrderUpdate} {eventId : UInt64} {done : ℕ} {u id : UInt64}

/-- The calls that leave the active orders alone. -/
def SparesActive : HistoryCall → Prop
  | .upsertActiveOrder _ | .deleteActiveOrder _ _ => False
  | _ => True

lemma activeOrders_foldl {calls : List HistoryCall} (h : ∀ call ∈ calls, SparesActive call) :
    (calls.foldl execute t).activeOrders = t.activeOrders := by
  induction calls generalizing t with
  | nil => rfl
  | cons call calls ih =>
      rw [List.forall_mem_cons] at h
      rw [List.foldl_cons, ih h.2]
      cases call with
      | upsertActiveOrder _ => exact h.1.elim
      | deleteActiveOrder _ _ => exact h.1.elim
      | _ => rfl

lemma getActiveOrder_upsert (t : OrderTables) (order : OrderUpdate) (u id : UInt64) :
    (t.execute (.upsertActiveOrder order)).getActiveOrder u id =
      if order.userId = u ∧ order.orderId = id then some order.kept else t.getActiveOrder u id := by
  rw [getActiveOrder, execute, HashMap.get?_insert]
  by_cases hkey : order.userId = u ∧ order.orderId = id
  · rw [if_pos hkey, if_pos (orderKey_eq_iff.mpr ⟨hkey.1.symm, hkey.2.symm⟩), Option.map_some,
      OrderRow.read_row]
  · rw [if_neg hkey, if_neg (fun h => hkey (orderKey_eq_iff.mp h.symm))]
    rfl

lemma getActiveOrder_delete (t : OrderTables) (u' id' u id : UInt64) :
    (t.execute (.deleteActiveOrder u' id')).getActiveOrder u id =
      if u' = u ∧ id' = id then none else t.getActiveOrder u id := by
  rw [getActiveOrder, execute, HashMap.get?_erase]
  by_cases hkey : u' = u ∧ id' = id
  · rw [if_pos hkey, if_pos (orderKey_eq_iff.mpr ⟨hkey.1.symm, hkey.2.symm⟩), Option.map_none]
  · rw [if_neg hkey, if_neg (fun h => hkey (orderKey_eq_iff.mp h.symm))]
    rfl

lemma getActiveOrder_processOrderUpdate (t : OrderTables) (order : OrderUpdate) (eventId : UInt64)
    (done : ℕ) (u id : UInt64) :
    (t.processOrderUpdate order eventId done).getActiveOrder u id =
      if 0 < done ∧ order.userId = u ∧ order.orderId = id then
        order.leaves (t.getActiveOrder u id)
      else t.getActiveOrder u id := by
  have hrest : ∀ (t' : OrderTables) {calls : List HistoryCall},
      (∀ call ∈ calls, SparesActive call) →
        ((calls.take (done - 1)).foldl execute t').getActiveOrder u id =
          t'.getActiveOrder u id := by
    intro t' calls hcalls
    rw [getActiveOrder, activeOrders_foldl (fun call hin => hcalls call (List.mem_of_mem_take hin)),
      getActiveOrder]
  rcases Nat.eq_zero_or_pos done with rfl | hpos
  · rw [if_neg (fun h => absurd h.1 (Nat.lt_irrefl 0))]
    rfl
  · obtain ⟨n, rfl⟩ := Nat.exists_eq_add_of_lt hpos
    rw [if_congr (and_iff_right hpos) rfl rfl, processOrderUpdate, orderUpdateCalls,
      OrderUpdate.leaves]
    rw [Nat.zero_add, Nat.add_sub_cancel] at *
    rcases hstatus : order.status with _ | _ | _ | _ | _ | _
    all_goals simp only [List.take_succ_cons, List.foldl_cons]
    · rw [hrest _ (by simp [SparesActive]), getActiveOrder_upsert]
    · rw [hrest _ (by simp [SparesActive]), getActiveOrder_upsert]
    · rw [hrest _ (by simp [SparesActive]), getActiveOrder_delete]
    · rw [hrest _ (by simp [SparesActive]), getActiveOrder_delete]
    · rw [hrest _ (by simp [SparesActive]), ite_self]
      rfl
    · rw [hrest _ (by simp [SparesActive]), getActiveOrder_delete]

end OrderTables

namespace OrderHistoryService

variable {s : OrderHistoryService} {u id : UInt64}

/-- What is read of an order has its key. -/
def Keyed (t : OrderTables) : Prop :=
  ∀ u id order, t.getActiveOrder u id = some order → order.userId = u ∧ order.orderId = id

lemma keyed_processOrderUpdate {t : OrderTables} (h : Keyed t) (order : OrderUpdate)
    (eventId : UInt64) (done : ℕ) : Keyed (t.processOrderUpdate order eventId done) := by
  intro u id found hfound
  rw [OrderTables.getActiveOrder_processOrderUpdate] at hfound
  split at hfound
  · rename_i hkey
    rw [OrderUpdate.leaves] at hfound
    split at hfound
    · rw [← Option.some.inj hfound]
      exact hkey.2
    · rw [← Option.some.inj hfound]
      exact hkey.2
    · exact absurd hfound (by simp)
    · exact absurd hfound (by simp)
    · exact absurd hfound (by simp)
    · exact h u id found hfound
  · exact h u id found hfound

/-- One event changes an order as it says, if its first call succeeds. -/
lemma getActiveOrder_step (h : Keyed s.tables) (event : HistoryEvent) (done : ℕ) (u id : UInt64) :
    (s.step (event, done)).tables.getActiveOrder u id =
      if 0 < done then event.follow u id (s.tables.getActiveOrder u id)
      else s.tables.getActiveOrder u id := by
  cases event with
  | update order =>
      rw [step, OrderTables.getActiveOrder_processOrderUpdate, HistoryEvent.follow]
      split <;> split <;> simp_all
  | fill u' id' matchQty eventId =>
      rw [step, OrderTables.processTradeFill]
      dsimp only
      rcases hread : s.tables.getActiveOrder u' id' with _ | order
      · dsimp only
        rw [HistoryEvent.follow]
        by_cases hkey : u' = u ∧ id' = id
        · obtain ⟨rfl, rfl⟩ := hkey
          rw [hread, Option.bind_none, ite_self, ite_self]
        · rw [if_neg hkey, ite_self]
      · obtain ⟨huser, hid⟩ := h u' id' order hread
        dsimp only
        rw [OrderTables.getActiveOrder_processOrderUpdate, HistoryEvent.follow,
          show (order.fillBy matchQty).userId = u' from huser,
          show (order.fillBy matchQty).orderId = id' from hid]
        by_cases hkey : u' = u ∧ id' = id
        · obtain ⟨rfl, rfl⟩ := hkey
          have hself : u' = u' ∧ id' = id' := ⟨rfl, rfl⟩
          rw [if_congr (and_iff_left hself) rfl rfl, if_pos hself, hread, Option.bind_some]
        · rw [if_neg hkey, if_neg (fun hall => hkey hall.2), ite_self]

lemma keyed_step (h : Keyed s.tables) (event : HistoryEvent × ℕ) : Keyed (s.step event).tables := by
  obtain ⟨event, done⟩ := event
  cases event with
  | update order => exact keyed_processOrderUpdate h order _ done
  | fill u' id' matchQty eventId =>
      rw [step, OrderTables.processTradeFill]
      dsimp only
      split
      · exact keyed_processOrderUpdate h _ _ done
      · exact h

lemma keyed_foldl (events : List (HistoryEvent × ℕ)) (h : Keyed s.tables) :
    Keyed (events.foldl step s).tables := by
  induction events generalizing s with
  | nil => exact h
  | cons event events ih => exact ih (keyed_step h event)

lemma keyed_start : Keyed start.tables := fun _ _ _ h => absurd h (by simp [start,
  OrderTables.empty, OrderTables.getActiveOrder])

/-- The events whose first call has succeeded. -/
def effective (events : List (HistoryEvent × ℕ)) : List HistoryEvent :=
  (events.filter (fun event => 0 < event.2)).map Prod.fst

lemma getActiveOrder_foldl (h : Keyed s.tables) (events : List (HistoryEvent × ℕ))
    (u id : UInt64) : (events.foldl step s).tables.getActiveOrder u id =
      (effective events).foldl (HistoryEvent.follow u id) (s.tables.getActiveOrder u id) := by
  induction events generalizing s with
  | nil => rfl
  | cons event events ih =>
      rw [List.foldl_cons, ih (keyed_step h event), getActiveOrder_step h]
      by_cases hdone : 0 < event.2
      · rw [if_pos hdone, effective, effective, List.filter_cons_of_pos (by simpa using hdone)]
        rfl
      · rw [if_neg hdone, effective, effective, List.filter_cons_of_neg (by simpa using hdone)]

/-- **Every order by itself.**  What is read of an order, after any events of any orders and users
of which any calls fail, is what its own events make of it one after the other, those left out of
which not even the first call succeeded. -/
theorem active_order_followed (events : List (HistoryEvent × ℕ)) (u id : UInt64) :
    (run events).tables.getActiveOrder u id =
      (effective events).foldl (HistoryEvent.follow u id) none :=
  getActiveOrder_foldl keyed_start events u id

/-! ## Fills -/

/-- The quantities of an order's fills. -/
def fillsFor (u id : UInt64) (events : List HistoryEvent) : List UInt64 :=
  events.filterMap (fun event => match event with
    | .update _ => none
    | .fill u' id' matchQty _ => if u' = u ∧ id' = id then some matchQty else none)

/-- Not an update of the order. -/
def Spares (u id : UInt64) (event : HistoryEvent) : Prop :=
  ∀ order, event = .update order → ¬(order.userId = u ∧ order.orderId = id)

lemma follow_update_of_spares {order : OrderUpdate} (h : Spares u id (.update order))
    (active : Option OrderUpdate) : (HistoryEvent.update order).follow u id active = active :=
  if_neg (h order rfl)

/-- An order that is not active stays so without an update of it. -/
lemma foldl_follow_none {events : List HistoryEvent} (h : ∀ event ∈ events, Spares u id event) :
    events.foldl (HistoryEvent.follow u id) none = none := by
  induction events with
  | nil => rfl
  | cons event events ih =>
      rw [List.forall_mem_cons] at h
      rw [List.foldl_cons]
      cases event with
      | update order => rw [follow_update_of_spares h.1, ih h.2]
      | fill u' id' matchQty eventId =>
          rw [HistoryEvent.follow, Option.bind_none, ite_self, ih h.2]

lemma kept_fillBy {order : OrderUpdate} (hkept : order.kept = order) (matchQty : UInt64) :
    (order.fillBy matchQty).kept = order.fillBy matchQty := by
  conv_rhs => rw [← hkept]
  rfl

lemma leaves_fillBy {order : OrderUpdate} {matchQty : UInt64} (hkept : order.kept = order)
    (hpart : ¬order.qty ≤ order.filledQty + matchQty) (active : Option OrderUpdate) :
    (order.fillBy matchQty).leaves active = some (order.fillBy matchQty) := by
  rw [OrderUpdate.leaves, kept_fillBy hkept, OrderUpdate.fillBy, if_neg hpart]

lemma filledTo_fillBy {order : OrderUpdate} {matchQty : UInt64}
    (hadd : (order.filledQty + matchQty).toNat = order.filledQty.toNat + matchQty.toNat)
    (hpart : ¬order.qty ≤ order.filledQty + matchQty) (fills : List UInt64) :
    (order.fillBy matchQty).filledTo fills = order.filledTo (matchQty :: fills) := by
  simp only [OrderUpdate.filledTo, OrderUpdate.fillBy, if_neg hpart, hadd, List.map_cons,
    List.sum_cons, Nat.add_assoc, ite_self, if_neg (List.cons_ne_nil matchQty fills)]

lemma foldl_follow_fills {events : List HistoryEvent} {order : OrderUpdate}
    (hkept : order.kept = order) (hopen : order.filledQty.toNat < order.qty.toNat)
    (h : ∀ event ∈ events, Spares u id event)
    (hroom : order.filledQty.toNat + ((fillsFor u id events).map UInt64.toNat).sum < 2 ^ 64) :
    events.foldl (HistoryEvent.follow u id) (some order) =
      if order.qty.toNat ≤ order.filledQty.toNat + ((fillsFor u id events).map UInt64.toNat).sum
      then none else some (order.filledTo (fillsFor u id events)) := by
  induction events generalizing order with
  | nil =>
      rw [if_neg (by simpa [fillsFor] using hopen)]
      simp [OrderUpdate.filledTo, fillsFor]
  | cons event events ih =>
      rw [List.forall_mem_cons] at h
      rw [List.foldl_cons]
      cases event with
      | update other =>
          -- an update that is not of this order
          rw [follow_update_of_spares h.1]
          exact ih hkept hopen h.2 hroom
      | fill u' id' matchQty eventId =>
          by_cases hkey : u' = u ∧ id' = id
          · have hfills : fillsFor u id (.fill u' id' matchQty eventId :: events) =
                matchQty :: fillsFor u id events := by simp [fillsFor, hkey]
            rw [hfills, List.map_cons, List.sum_cons] at hroom ⊢
            have hadd : (order.filledQty + matchQty).toNat =
                order.filledQty.toNat + matchQty.toNat := by
              rw [UInt64.toNat_add]
              exact Nat.mod_eq_of_lt (by omega)
            rw [HistoryEvent.follow, if_pos hkey, Option.bind_some]
            by_cases hfull : order.qty ≤ order.filledQty + matchQty
            · -- the fill completes the order, and the later ones find nothing
              have hle := UInt64.le_iff_toNat_le.mp hfull
              rw [hadd] at hle
              rw [OrderUpdate.leaves, OrderUpdate.fillBy, if_pos hfull, if_pos (by omega)]
              exact foldl_follow_none h.2
            · -- the order stays open, with more of it filled
              have hlt := UInt64.lt_iff_toNat_lt.mp (UInt64.not_le.mp hfull)
              have hkept' := kept_fillBy hkept matchQty
              have hfilled : (order.fillBy matchQty).filledQty.toNat =
                  order.filledQty.toNat + matchQty.toNat := hadd
              rw [leaves_fillBy hkept hfull, ih hkept' hlt h.2 (by omega), hfilled, Nat.add_assoc,
                filledTo_fillBy hadd hfull]
              rfl
          · have hfills : fillsFor u id (.fill u' id' matchQty eventId :: events) =
                fillsFor u id events := by simp [fillsFor, hkey]
            rw [hfills] at hroom ⊢
            rw [HistoryEvent.follow, if_neg hkey]
            exact ih hkept hopen h.2 hroom

/-- **Between placing and filling.**  An order that is placed and not updated again is active as
long as its fills do not add up to its quantity, and no longer; meanwhile it shows what has been
filled.  Other orders, and calls that fail after the first, make no difference. -/
theorem active_until_filled {order : OrderUpdate} {before after : List (HistoryEvent × ℕ)}
    {done : ℕ} (hdone : 0 < done) (hnew : order.status = .new)
    (hopen : order.filledQty.toNat < order.qty.toNat)
    (hspared : ∀ event ∈ after, Spares order.userId order.orderId event.1)
    (hroom : order.filledQty.toNat + ((fillsFor order.userId order.orderId
      (effective after)).map UInt64.toNat).sum < 2 ^ 64) :
    (run (before ++ (.update order, done) :: after)).tables.getActiveOrder order.userId
        order.orderId =
      if order.qty.toNat ≤ order.filledQty.toNat + ((fillsFor order.userId order.orderId
        (effective after)).map UInt64.toNat).sum
      then none
      else some (order.kept.filledTo (fillsFor order.userId order.orderId (effective after))) := by
  have hkeyed : Keyed (run before).tables := keyed_foldl before keyed_start
  have hplaced : ((run before).step (.update order, done)).tables.getActiveOrder order.userId
      order.orderId = some order.kept := by
    rw [getActiveOrder_step hkeyed, if_pos hdone, HistoryEvent.follow, if_pos ⟨rfl, rfl⟩,
      OrderUpdate.leaves, hnew]
  have hspares : ∀ event ∈ effective after, Spares order.userId order.orderId event := by
    intro event hin
    obtain ⟨pair, hpair, rfl⟩ := List.mem_map.mp hin
    exact hspared pair (List.mem_of_mem_filter hpair)
  have hrest := getActiveOrder_foldl (keyed_step hkeyed (.update order, done)) after order.userId
    order.orderId
  rw [hplaced] at hrest
  rw [run, List.foldl_append, List.foldl_cons]
  exact hrest.trans (foldl_follow_fills order.kept_kept hopen hspares hroom)

/-- An order to buy 5. -/
def buyOrder : OrderUpdate :=
  ⟨11, some "a", 7, 1, 1, 1, .new, 100, 5, 0, none, none, 86400000, none⟩

/-- Three fills, of which the second one fails. -/
theorem active_until_filled_twice :
    (run ([] ++ (.update buyOrder, 1) ::
        [(.fill 7 11 2 1, 1), (.fill 7 11 1 2, 0), (.fill 7 11 2 3, 5)])).tables.getActiveOrder
          7 11 = some (buyOrder.kept.filledTo [2, 2]) := by
  refine (active_until_filled (by decide) rfl (by decide) ?_ (by decide)).trans ?_
  · simp [Spares]
  · exact if_neg (by decide)

/-! ## The two tables of orders -/

/-- What the row of an order in `order_history` says about its row in `active_orders`. -/
def AgreeAt (active : Option OrderRow) : Option OrderHistoryRow → Prop
  | none => active = none
  | some row =>
      match OrderStatus.ofDbCode row.order.status with
      | .new | .partiallyFilled => active = some row.order
      | .filled | .cancelled | .expired => active = none
      | .rejected => True

/-- An update that is written completely. -/
lemma agreeAt_processOrderUpdate {t : OrderTables} {key : Int64 × Int64}
    (h : AgreeAt (t.activeOrders.get? key) (t.orderHistory.get? key)) (order : OrderUpdate)
    (eventId : UInt64) {done : ℕ} (hdone : 5 ≤ done) :
    AgreeAt ((t.processOrderUpdate order eventId done).activeOrders.get? key)
      ((t.processOrderUpdate order eventId done).orderHistory.get? key) := by
  have hall : (orderUpdateCalls order eventId).take done = orderUpdateCalls order eventId := by
    refine List.take_of_length_le (le_trans ?_ hdone)
    rw [orderUpdateCalls]
    split <;> simp
  rw [OrderTables.processOrderUpdate, hall, orderUpdateCalls]
  by_cases hkey : key = orderKey order.userId order.orderId
  · subst hkey
    rcases hstatus : order.status with _ | _ | _ | _ | _ | _ <;>
      simp [OrderTables.execute, AgreeAt, OrderUpdate.historyRow, OrderUpdate.row, hstatus]
  · rcases hstatus : order.status with _ | _ | _ | _ | _ | _ <;>
      simpa [OrderTables.execute, hkey] using h

/-- **The history and the active orders agree.**  As long as no call fails, an order is active with
the row of its last state if that is new or partially filled, and not active if it is filled,
cancelled or expired, or if there is none. -/
theorem active_agrees_history (events : List (HistoryEvent × ℕ))
    (hdone : ∀ event ∈ events, 5 ≤ event.2) (key : Int64 × Int64) :
    AgreeAt ((run events).tables.activeOrders.get? key)
      ((run events).tables.orderHistory.get? key) := by
  induction events using List.reverseRecOn with
  | nil => rfl
  | append_singleton events event ih =>
      have hbefore := ih (fun event hin => hdone event (List.mem_append_left _ hin))
      have hlast := hdone event (List.mem_append_right _ (List.mem_singleton_self _))
      rw [run, List.foldl_concat]
      obtain ⟨event, done⟩ := event
      cases event with
      | update order => exact agreeAt_processOrderUpdate hbefore order _ hlast
      | fill u id matchQty eventId =>
          rw [step, OrderTables.processTradeFill]
          dsimp only
          split
          · exact agreeAt_processOrderUpdate hbefore _ eventId hlast
          · exact hbefore

theorem active_agrees_history_filled :
    AgreeAt ((run [(.update buyOrder, 5), (.fill 7 11 5 1, 5)]).tables.activeOrders.get? (7, 11))
        ((run [(.update buyOrder, 5), (.fill 7 11 5 1, 5)]).tables.orderHistory.get? (7, 11)) ∧
      (run [(.update buyOrder, 5), (.fill 7 11 5 1, 5)]).tables.activeOrders.get? (7, 11) = none :=
  ⟨active_agrees_history _ (by simp) _, rfl⟩

/-! ## The stream -/

lemma stream_processOrderUpdate {t : OrderTables} {order : OrderUpdate} {eventId : UInt64}
    {done : ℕ} (hdone : 3 ≤ done) :
    (t.processOrderUpdate order eventId done).orderUpdatesStream.get? eventId.toInt64 =
      some (order.streamRow eventId) := by
  obtain ⟨n, rfl⟩ := Nat.exists_eq_add_of_le' hdone
  rw [OrderTables.processOrderUpdate, orderUpdateCalls]
  rcases hstatus : order.status with _ | _ | _ | _ | _ | _
  all_goals simp only [List.take_succ_cons, List.foldl_cons]
  · rcases n with _ | _ | n <;> simp [OrderTables.execute]
  · simp [OrderTables.execute]
  · rcases n with _ | n <;> simp [OrderTables.execute]
  · rcases n with _ | n <;> simp [OrderTables.execute]
  · simp [OrderTables.execute]
  · simp [OrderTables.execute]

/-- **One update a trade.**  The updates of both orders of a trade carry its sequence number, which
is the key of the stream: if both are active, only the seller's is left there. -/
theorem trade_streams_seller {before : List (HistoryEvent × ℕ)} {trade : MatchExecData}
    {buyerDone sellerDone : ℕ} {seller : OrderUpdate}
    (hseller : (run before).tables.getActiveOrder trade.sellerUserId trade.sellOrderId =
      some seller)
    (hother : ¬(trade.buyerUserId = trade.sellerUserId ∧ trade.buyOrderId = trade.sellOrderId))
    (hdone : 3 ≤ sellerDone) :
    (run (before ++ (LedgerCommand.matchExec trade).historyEvents.zip
        [buyerDone, sellerDone])).tables.orderUpdatesStream.get? trade.matchSeq.toInt64 =
      some ((seller.fillBy trade.quantity).streamRow trade.matchSeq) := by
  have hkeyed : Keyed (run before).tables := keyed_foldl before keyed_start
  have hread := getActiveOrder_step hkeyed (.fill trade.buyerUserId trade.buyOrderId trade.quantity
    trade.matchSeq) buyerDone trade.sellerUserId trade.sellOrderId
  rw [HistoryEvent.follow, if_neg hother, ite_self, hseller] at hread
  rw [run, List.foldl_append]
  show (step (step (run before) (.fill trade.buyerUserId trade.buyOrderId trade.quantity
    trade.matchSeq, buyerDone)) (.fill trade.sellerUserId trade.sellOrderId trade.quantity
    trade.matchSeq, sellerDone)).tables.orderUpdatesStream.get? _ = _
  generalize step (run before) (.fill trade.buyerUserId trade.buyOrderId trade.quantity
    trade.matchSeq, buyerDone) = s at hread ⊢
  rw [step, OrderTables.processTradeFill]
  dsimp only
  rw [hread]
  exact stream_processOrderUpdate hdone

/-- An order to sell 3. -/
def sellOrder : OrderUpdate := { buyOrder with orderId := 12, userId := 8, side := 2, qty := 3 }

/-- A trade of 2 between the two. -/
def tradeOfTwo : MatchExecData :=
  ⟨1, 11, 12, 7, 8, 100, 2, 1, 2, 0, 0, 9, 1, 0, 0, 0, 0, 0, 0, 0, 0, 0⟩

theorem trade_streams_seller_ofTwo :
    (run ([(.update buyOrder, 5), (.update sellOrder, 5)] ++
        (LedgerCommand.matchExec tradeOfTwo).historyEvents.zip
          [5, 5])).tables.orderUpdatesStream.get? 9 =
      some ((sellOrder.kept.fillBy 2).streamRow 9) :=
  trade_streams_seller rfl (by decide) (by decide)

end OrderHistoryService

end ExchangeCore
