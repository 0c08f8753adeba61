import ExchangeCore.Book.Matching

/-!
# The invariant of the order book

`Inv` gathers what every reachable book satisfies: levels are well placed, no id rests twice,
the book is not crossed, every resting order is active and indexed under its own side and price,
and the active ids are the keys of the index.

The two operations are described once, by what they do to the book: `Added` for an accepted
`addOrder`, in terms of the reference walk, and `Removed` for a `removeOrder` that finds its
order.  `Inv.added` and `Inv.removed` preserve the invariant from those descriptions alone, so a
change to the loops touches `addOrder_spec` and `removeOrder_cases` and nothing after them.

The converse of "resting orders are active" is *not* part of the invariant: a taker that is
filled completely stays in the active set (`Book/Properties.lean` says exactly when).
-/

namespace ExchangeCore

open Reference

namespace OrderBook

/-! ## The sides of a book -/

@[simp] lemma sideMap_setSideMap (b : OrderBook) (s t : Side) (m : PriceMap) :
    (b.setSideMap s m).sideMap t = if t = s then m else b.sideMap t := by
  cases s <;> cases t <;> rfl

@[simp] lemma activeOrderIds_setSideMap (b : OrderBook) (s : Side) (m : PriceMap) :
    (b.setSideMap s m).activeOrderIds = b.activeOrderIds := by cases s <;> rfl

@[simp] lemma orderIndex_setSideMap (b : OrderBook) (s : Side) (m : PriceMap) :
    (b.setSideMap s m).orderIndex = b.orderIndex := by cases s <;> rfl

@[simp] lemma sideMap_bookkeeping (b : OrderBook) (s : Side) (active : Finset UInt64)
    (index : HashMap UInt64 (Side × UInt64)) (seq : UInt64) :
    OrderBook.sideMap { b with activeOrderIds := active, orderIndex := index, matchSeq := seq } s =
      b.sideMap s := by cases s <;> rfl

@[simp] lemma matchSeq_setSideMap (b : OrderBook) (s : Side) (m : PriceMap) :
    (b.setSideMap s m).matchSeq = b.matchSeq := by cases s <;> rfl

/-- All resting orders, bids first. -/
def restingOrders (b : OrderBook) : List Order := b.flatSide .buy ++ b.flatSide .sell

lemma restingOrders_perm (b : OrderBook) (s : Side) :
    b.restingOrders.Perm (b.flatSide s ++ b.flatSide s.opposite) := by
  cases s
  · exact List.Perm.refl _
  · exact List.perm_append_comm

lemma mem_restingOrders {b : OrderBook} {o : Order} :
    o ∈ b.restingOrders ↔ ∃ s, o ∈ b.flatSide s := by
  rw [restingOrders, List.mem_append]
  constructor
  · rintro (h | h)
    · exact ⟨.buy, h⟩
    · exact ⟨.sell, h⟩
  · rintro ⟨s | s, h⟩
    · exact Or.inl h
    · exact Or.inr h

/-- The order with this id rests in the book. -/
def Rests (b : OrderBook) (orderId : UInt64) : Prop :=
  ∃ o ∈ b.restingOrders, o.orderId = orderId

/-- The content of a map does not depend on the end it is read from. -/
lemma flat_perm (taker : Side) (m : PriceMap) :
    (flat taker m).Perm (m.entries.flatMap Prod.snd) := by
  cases taker
  · exact List.Perm.refl _
  · exact (List.reverse_perm m.entries).flatMap_right _

/-! ## The invariant -/

/-- What every reachable book satisfies. -/
structure Inv (b : OrderBook) : Prop where
  /-- Every level is non-empty, and its orders are of its side, at its price, and live. -/
  sideOk : ∀ s, SideOk s (b.sideMap s)
  /-- No id rests twice. -/
  nodup : (b.restingOrders.map Order.orderId).Nodup
  /-- Every bid is below every ask. -/
  uncrossed : ∀ bid ∈ b.bids.entries, ∀ ask ∈ b.asks.entries, bid.1 < ask.1
  /-- Resting orders are active. -/
  active : ∀ o ∈ b.restingOrders, o.orderId ∈ b.activeOrderIds
  /-- Resting orders are indexed under their own side and price. -/
  index : ∀ o ∈ b.restingOrders, b.orderIndex.get? o.orderId = some (o.side, o.price)
  /-- The active ids are the keys of the index. -/
  activeKeys : b.activeOrderIds = b.orderIndex.keys

@[simp] lemma restingOrders_new (symbolId : UInt32) : (new symbolId).restingOrders = [] := rfl

lemma inv_new (symbolId : UInt32) : Inv (new symbolId) where
  sideOk s := by cases s <;> simp [SideOk, new, sideMap]
  nodup := by simp
  uncrossed := by simp [new]
  active := by simp
  index := by simp
  activeKeys := by
    ext x
    simp [new]

lemma Inv.eq_of_orderId {b : OrderBook} (h : Inv b) {o o' : Order} (ho : o ∈ b.restingOrders)
    (ho' : o' ∈ b.restingOrders) (hid : o.orderId = o'.orderId) : o = o' :=
  List.inj_on_of_nodup_map h.nodup ho ho' hid

lemma Inv.side_eq {b : OrderBook} (h : Inv b) {s : Side} {o : Order} (ho : o ∈ b.flatSide s) :
    o.side = s := by
  obtain ⟨e, he, hoe⟩ := mem_flat.mp ho
  exact ((h.sideOk s e he).placed o hoe).1

/-- Uncrossedness, from the point of view of a taker's side. -/
lemma Inv.not_crosses {b : OrderBook} (h : Inv b) (s : Side) :
    ∀ own ∈ (b.sideMap s).entries, ∀ opp ∈ (b.sideMap s.opposite).entries,
      ¬Crosses s own.1 opp.1 := by
  cases s
  · exact fun own hown opp hopp => not_le.mpr (h.uncrossed own hown opp hopp)
  · exact fun own hown opp hopp => not_le.mpr (h.uncrossed opp hopp own hown)

/-- Conversely, it is enough to know that no pair of levels crosses. -/
lemma uncrossed_of_not_crosses {b : OrderBook} (s : Side)
    (h : ∀ own ∈ (b.sideMap s).entries, ∀ opp ∈ (b.sideMap s.opposite).entries,
      ¬Crosses s own.1 opp.1) :
    ∀ bid ∈ b.bids.entries, ∀ ask ∈ b.asks.entries, bid.1 < ask.1 := by
  intro bid hbid ask hask
  cases s
  · exact not_le.mp (h bid hbid ask hask)
  · exact not_le.mp (h ask hask bid hbid)

/-! ## Adding an order -/

/-- The walk a new order takes along the opposite side. -/
def walkOf (b : OrderBook) (order : Order) : Outcome :=
  walk order.side order.price order.quantity (b.flatSide order.side.opposite)

/-- `b'` is `b` after an order was accepted and took the walk `o`. -/
structure Added (b : OrderBook) (order : Order) (o : Outcome) (b' : OrderBook) : Prop where
  /-- The opposite side is what the walk left of it. -/
  flat_opposite : b'.flatSide order.side.opposite = o.rest
  sideOk_opposite : SideOk order.side.opposite (b'.sideMap order.side.opposite)
  old_opposite : ∀ e ∈ (b'.sideMap order.side.opposite).entries,
    ∃ q, (e.1, q) ∈ (b.sideMap order.side.opposite).entries
  /-- The residual goes to the back of its own level; otherwise the own side is unchanged. -/
  own : b'.sideMap order.side =
    if 0 < o.residual then
      (b.sideMap order.side).upsert order.price
        (fun q => q.getD [] ++ [{ order with quantity := o.residual }])
    else b.sideMap order.side
  activeOrderIds : b'.activeOrderIds =
    insert order.orderId b.activeOrderIds \ (o.consumed.map Order.orderId).toFinset
  orderIndex : ∀ id, b'.orderIndex.get? id =
    if id ∈ o.consumed.map Order.orderId then none
    else if id = order.orderId then some (order.side, order.price)
    else b.orderIndex.get? id
  matchSeq : b'.matchSeq = b.matchSeq + UInt64.ofNat o.fills.length

lemma get?_foldl_erase (cs : List Order) (index : HashMap UInt64 (Side × UInt64)) (id : UInt64) :
    (cs.foldl (fun index m => index.erase m.orderId) index).get? id =
      if id ∈ cs.map Order.orderId then none else index.get? id := by
  induction cs generalizing index with
  | nil => simp
  | cons c cs ih =>
      rw [List.foldl_cons, ih, HashMap.get?_erase, List.map_cons]
      by_cases h₁ : id = c.orderId <;> by_cases h₂ : id ∈ cs.map Order.orderId <;> simp [h₁, h₂]

lemma addOrder_duplicate {b : OrderBook} {order : Order} (tradeIdGen : FastUlidHalfGen)
    (timestamp : UInt64) (hid : order.orderId ∈ b.activeOrderIds) :
    b.addOrder order tradeIdGen timestamp =
      (.error ("Duplicate order ID: " ++ toString order.orderId), b, tradeIdGen) := by
  rw [addOrder]
  simp only [if_pos hid]
  rfl

/-- **What `addOrder` does to an order it accepts.** -/
lemma addOrder_spec {b : OrderBook} {order : Order} (tradeIdGen : FastUlidHalfGen)
    (timestamp : UInt64) (hok : SideOk order.side.opposite (b.sideMap order.side.opposite))
    (hid : order.orderId ∉ b.activeOrderIds) :
    let r := b.addOrder order tradeIdGen timestamp
    r.1 = .ok (trades order timestamp tradeIdGen b.matchSeq (b.walkOf order).fills) ∧
      Added b order (b.walkOf order) r.2.1 ∧
      r.2.2 = (tradeIds timestamp (b.walkOf order).fills.length tradeIdGen).2 := by
  have hloop := matchLoop_eq_walk timestamp
    ((b.sideMap order.side.opposite).entries.length + 1) (b.sideMap order.side.opposite)
    { order := order, tradeIdGen := tradeIdGen,
      activeOrderIds := insert order.orderId b.activeOrderIds,
      orderIndex := b.orderIndex.insert order.orderId (order.side, order.price),
      matchSeq := b.matchSeq, trades := [] } hok (Nat.lt_succ_self _)
  have hflat : flat order.side (b.sideMap order.side.opposite) =
      b.flatSide order.side.opposite := by
    rw [flatSide, Side.opposite_opposite]
  simp only [hflat] at hloop
  rw [show walk order.side order.price order.quantity (b.flatSide order.side.opposite) =
    b.walkOf order from rfl] at hloop
  obtain ⟨hflat', hstate, hok', hold⟩ := hloop
  simp only [addOrder, if_neg hid, hstate, MatchState.after, List.nil_append]
  have hindex := get?_foldl_erase (b.walkOf order).consumed
    (b.orderIndex.insert order.orderId (order.side, order.price))
  refine ⟨trivial, ⟨?_, ?_, ?_, ?_, ?_, fun id => ?_, ?_⟩, trivial⟩
  · rw [flatSide, Side.opposite_opposite]
    split <;> simpa using hflat'
  · split <;> simpa using hok'
  · split <;> simpa using hold
  · by_cases hpos : 0 < (b.walkOf order).residual
    · simp [hpos]
    · simp [hpos]
  · split <;> simp
  · split <;> simp [hindex]
  · split <;> simp

/-! ### What is on the book after an order -/

section Added

variable {b b' : OrderBook} {order : Order}

/-- The residual of an accepted order, if there is one. -/
def residualOrder (order : Order) (o : Outcome) : List Order :=
  if 0 < o.residual then [{ order with quantity := o.residual }] else []

lemma Added.flat_own {o : Outcome} (h : Added b order o b') :
    (b'.flatSide order.side).Perm (residualOrder order o ++ b.flatSide order.side) := by
  unfold flatSide residualOrder
  rw [h.own]
  split
  · refine ((flat_perm _ _).trans (SortedMap.flatMap_upsert_perm _ _ _)).trans ?_
    exact (flat_perm _ _).symm.cons _
  · exact List.Perm.refl _

lemma Added.restingOrders {o : Outcome} (h : Added b order o b') :
    b'.restingOrders.Perm (residualOrder order o ++ b.flatSide order.side ++ o.rest) := by
  refine (b'.restingOrders_perm order.side).trans ?_
  rw [h.flat_opposite]
  exact h.flat_own.append_right _

lemma ids_opposite (b : OrderBook) (order : Order) :
    (b.flatSide order.side.opposite).map Order.orderId =
      (b.walkOf order).consumed.map Order.orderId ++ (b.walkOf order).rest.map Order.orderId :=
  map_rest_suffix Order.orderId (fun _ _ => rfl) _ _ _ _

lemma ids_before (b : OrderBook) (order : Order) :
    (b.restingOrders.map Order.orderId).Perm
      ((b.flatSide order.side).map Order.orderId ++
        ((b.walkOf order).consumed.map Order.orderId ++
          (b.walkOf order).rest.map Order.orderId)) := by
  rw [← ids_opposite, ← List.map_append]
  exact (b.restingOrders_perm order.side).map _

lemma mem_residualOrder {o : Outcome} {x : Order} (h : x ∈ residualOrder order o) :
    0 < o.residual ∧ x = { order with quantity := o.residual } := by
  unfold residualOrder at h
  split at h
  · rename_i hpos
    exact ⟨hpos, List.mem_singleton.mp h⟩
  · exact absurd h (List.not_mem_nil)

/-- **Classification of the resting orders after an accepted order**: the residual, an order
that was resting on the own side, or one that was resting on the opposite side and is left. -/
lemma Added.cases (h : Added b order (b.walkOf order) b') {x : Order} (hx : x ∈ b'.restingOrders) :
    (0 < (b.walkOf order).residual ∧ x = { order with quantity := (b.walkOf order).residual }) ∨
      x ∈ b.flatSide order.side ∨ x ∈ (b.walkOf order).rest := by
  rcases List.mem_append.mp (h.restingOrders.mem_iff.mp hx) with hx | hx
  · exact (List.mem_append.mp hx).imp mem_residualOrder Or.inl
  · exact Or.inr (Or.inr hx)

/-- What holds of the order and of every resting order, and survives a reduction of the
quantity, holds of every resting order afterwards: nothing that rests has grown. -/
lemma Added.forall_resting {P : Order → Prop} (h : Added b order (b.walkOf order) b')
    (hreduce : ∀ o q, q ≤ o.quantity → P o → P { o with quantity := q }) (horder : P order)
    (hall : ∀ o ∈ b.restingOrders, P o) : ∀ o ∈ b'.restingOrders, P o := by
  intro o ho
  rcases h.cases ho with ⟨-, rfl⟩ | ho | ho
  · refine hreduce order _ (UInt64.le_iff_toNat_le.mpr ?_) horder
    have := filled_add_residual order.side order.price order.quantity
      (b.flatSide order.side.opposite)
    unfold walkOf
    omega
  · exact hall o (mem_restingOrders.mpr ⟨_, ho⟩)
  · obtain ⟨m, hm, hom, hle⟩ := mem_rest ho
    rw [hom]
    exact hreduce m _ hle (hall m (mem_restingOrders.mpr ⟨_, hm⟩))

lemma crosses_head {taker : Side} {m : PriceMap} {p limit : UInt64} {q : List Order}
    {ls : List (UInt64 × List Order)} (hlv : levels taker m = (p, q) :: ls)
    {e : UInt64 × List Order} (he : e ∈ m.entries) (hc : Crosses taker limit e.1) :
    Crosses taker limit p := by
  have hbest : bestEntry taker m = some (p, q) := by rw [bestEntry_eq, hlv]; rfl
  cases taker
  · exact le_trans (SortedMap.first?_le hbest he) hc
  · exact le_trans hc (SortedMap.le_last? hbest he)

/-- A taker that is left with quantity has exhausted every crossing level. -/
lemma Added.not_crosses (h : Added b order (b.walkOf order) b')
    (hpos : 0 < (b.walkOf order).residual) :
    ∀ e ∈ (b'.sideMap order.side.opposite).entries, ¬Crosses order.side order.price e.1 := by
  intro e he hc
  cases hlv : levels order.side (b'.sideMap order.side.opposite) with
  | nil =>
      rw [← mem_levels order.side, hlv] at he
      exact absurd he (List.not_mem_nil)
  | cons e' ls =>
      obtain ⟨p, q⟩ := e'
      have hmem : (p, q) ∈ (b'.sideMap order.side.opposite).entries := by
        rw [← mem_levels order.side, hlv]
        exact List.mem_cons_self ..
      have hlevel := h.sideOk_opposite _ hmem
      obtain ⟨m, tail, hq⟩ := List.exists_cons_of_ne_nil hlevel.nonempty
      have hrest : (b.walkOf order).rest = m :: (tail ++ ls.flatMap Prod.snd) := by
        rw [← h.flat_opposite, flatSide, Side.opposite_opposite, flat, hlv, List.flatMap_cons,
          show (p, q).2 = m :: tail from hq]
        rfl
      have hprice : m.price = p := (hlevel.placed m (hq ▸ List.mem_cons_self ..)).2.1
      exact rest_head_of_residual hpos hrest (hprice ▸ crosses_head hlv he hc)

/-- The residual may stand at the back of its level. -/
lemma Added.sideOk_own (h : Added b order (b.walkOf order) b')
    (hok : SideOk order.side (b.sideMap order.side)) :
    SideOk order.side (b'.sideMap order.side) := by
  rw [h.own]
  split
  · rename_i hpos
    intro e he
    rcases SortedMap.mem_upsert he with rfl | he
    · refine ⟨by simp, fun o ho => ?_⟩
      rcases List.mem_append.mp ho with ho | ho
      · cases hget : (b.sideMap order.side).get? order.price with
        | none => simp [hget] at ho
        | some q =>
            have hlevel := hok _ ((SortedMap.get?_eq_some_iff _ _ _).mp hget)
            rw [hget] at ho
            exact hlevel.placed o ho
      · rw [List.mem_singleton.mp ho]
        exact ⟨rfl, rfl, hpos⟩
    · exact hok e he
  · exact hok

lemma Added.mem_own (h : Added b order (b.walkOf order) b') {e : UInt64 × List Order}
    (he : e ∈ (b'.sideMap order.side).entries) :
    (0 < (b.walkOf order).residual ∧ e.1 = order.price) ∨
      ∃ q, (e.1, q) ∈ (b.sideMap order.side).entries := by
  rw [h.own] at he
  split at he
  · rename_i hpos
    rcases SortedMap.mem_upsert he with rfl | he
    · exact Or.inl ⟨hpos, rfl⟩
    · exact Or.inr ⟨e.2, he⟩
  · exact Or.inr ⟨e.2, he⟩

/-- The id of an accepted order does not rest anywhere yet. -/
lemma Inv.fresh (hb : Inv b) (hid : order.orderId ∉ b.activeOrderIds) :
    order.orderId ∉ (b.flatSide order.side).map Order.orderId ++
      ((b.walkOf order).consumed.map Order.orderId ++
        (b.walkOf order).rest.map Order.orderId) := by
  rw [← (ids_before b order).mem_iff]
  intro hmem
  obtain ⟨m, hm, heq⟩ := List.mem_map.mp hmem
  exact hid (heq ▸ hb.active m hm)

/-- The bookkeeping of the orders resting afterwards: none of them was used up, and each is the
residual or was active and indexed before. -/
lemma Inv.added_bookkeeping (hb : Inv b) (h : Added b order (b.walkOf order) b')
    (hid : order.orderId ∉ b.activeOrderIds) {x : Order} (hx : x ∈ b'.restingOrders) :
    x.orderId ∉ (b.walkOf order).consumed.map Order.orderId ∧
      (x.orderId = order.orderId ∧ x.side = order.side ∧ x.price = order.price ∨
        x.orderId ≠ order.orderId ∧ x.orderId ∈ b.activeOrderIds ∧
          b.orderIndex.get? x.orderId = some (x.side, x.price)) := by
  have hfresh := hb.fresh hid
  obtain ⟨-, hopp, hdisj⟩ :=
    List.nodup_append'.mp ((ids_before b order).nodup_iff.mp hb.nodup)
  obtain ⟨-, -, hdisj'⟩ := List.nodup_append'.mp hopp
  rcases h.cases hx with ⟨-, rfl⟩ | hx | hx
  · refine ⟨fun hc => hfresh ?_, Or.inl ⟨rfl, rfl, rfl⟩⟩
    exact List.mem_append_right _ (List.mem_append_left _ hc)
  · have hmem : x.orderId ∈ (b.flatSide order.side).map Order.orderId := List.mem_map_of_mem hx
    have hold : x ∈ b.restingOrders := mem_restingOrders.mpr ⟨_, hx⟩
    refine ⟨fun hc => hdisj hmem (List.mem_append_left _ hc), Or.inr ⟨fun heq => ?_, ?_⟩⟩
    · exact hfresh (heq ▸ List.mem_append_left _ hmem)
    · exact ⟨hb.active x hold, hb.index x hold⟩
  · have hmem : x.orderId ∈ (b.walkOf order).rest.map Order.orderId := List.mem_map_of_mem hx
    obtain ⟨m, hm, hxm, -⟩ := mem_rest hx
    have hold : m ∈ b.restingOrders := mem_restingOrders.mpr ⟨_, hm⟩
    refine ⟨fun hc => hdisj' hc hmem, Or.inr ⟨fun heq => ?_, ?_, ?_⟩⟩
    · exact hfresh (heq ▸ List.mem_append_right _ (List.mem_append_right _ hmem))
    · rw [hxm]
      exact hb.active m hold
    · rw [hxm]
      exact hb.index m hold

/-- No id rests twice after an accepted order. -/
lemma Inv.added_nodup (hb : Inv b) (h : Added b order (b.walkOf order) b')
    (hid : order.orderId ∉ b.activeOrderIds) : (b'.restingOrders.map Order.orderId).Nodup := by
  have hfresh := hb.fresh hid
  obtain ⟨hown, hopp, hdisj⟩ :=
    List.nodup_append'.mp ((ids_before b order).nodup_iff.mp hb.nodup)
  obtain ⟨-, hrest, -⟩ := List.nodup_append'.mp hopp
  rw [(h.restingOrders.map Order.orderId).nodup_iff, List.append_assoc, List.map_append,
    List.map_append]
  refine List.nodup_append'.mpr ⟨?_, ?_, ?_⟩
  · unfold residualOrder
    split <;> simp
  · exact List.nodup_append'.mpr ⟨hown, hrest,
      fun id h₁ h₂ => hdisj h₁ (List.mem_append_right _ h₂)⟩
  · intro id h₁ h₂
    obtain ⟨x, hx, rfl⟩ := List.mem_map.mp h₁
    obtain ⟨-, rfl⟩ := mem_residualOrder hx
    refine hfresh ?_
    rcases List.mem_append.mp h₂ with h₂ | h₂
    · exact List.mem_append_left _ h₂
    · exact List.mem_append_right _ (List.mem_append_right _ h₂)

/-- An accepted order keeps the invariant. -/
lemma Inv.added (hb : Inv b) (h : Added b order (b.walkOf order) b')
    (hid : order.orderId ∉ b.activeOrderIds) : Inv b' where
  sideOk s := by
    rcases Side.eq_or_eq_opposite order.side s with rfl | rfl
    · exact h.sideOk_own (hb.sideOk _)
    · exact h.sideOk_opposite
  nodup := hb.added_nodup h hid
  uncrossed := by
    refine uncrossed_of_not_crosses order.side (fun own hown opp hopp => ?_)
    obtain ⟨q, hq⟩ := h.old_opposite opp hopp
    rcases h.mem_own hown with ⟨hpos, hp⟩ | ⟨q', hq'⟩
    · rw [hp]
      exact h.not_crosses hpos opp hopp
    · exact hb.not_crosses order.side (own.1, q') hq' (opp.1, q) hq
  active x hx := by
    obtain ⟨hcons, hx'⟩ := hb.added_bookkeeping h hid hx
    rw [h.activeOrderIds, Finset.mem_sdiff, Finset.mem_insert, List.mem_toFinset]
    exact ⟨hx'.imp (fun h => h.1) (fun h => h.2.1), hcons⟩
  index x hx := by
    obtain ⟨hcons, hx'⟩ := hb.added_bookkeeping h hid hx
    rw [h.orderIndex, if_neg hcons]
    rcases hx' with ⟨h₁, h₂, h₃⟩ | ⟨h₁, -, h₃⟩
    · rw [if_pos h₁, h₂, h₃]
    · rw [if_neg h₁, h₃]
  activeKeys := by
    ext id
    rw [h.activeOrderIds, hb.activeKeys]
    simp only [Finset.mem_sdiff, Finset.mem_insert, List.mem_toFinset, HashMap.mem_keys,
      h.orderIndex]
    by_cases h₁ : id ∈ (b.walkOf order).consumed.map Order.orderId <;>
      by_cases h₂ : id = order.orderId <;> simp [h₁, h₂]

end Added

/-! ## Removing an order -/

section Removed

variable {b b' : OrderBook}

/-- `b'` is `b` after the resting order `o` was taken out. -/
structure Removed (b : OrderBook) (o : Order) (b' : OrderBook) : Prop where
  /-- Up to order, exactly `o` leaves. -/
  perm : b.restingOrders.Perm (o :: b'.restingOrders)
  /-- Only the level of `o` changes: it loses `o`, and disappears if nothing else is on it. -/
  get? : ∀ s p, (b'.sideMap s).get? p =
    if s = o.side ∧ p = o.price then
      (((b.sideMap s).get? p).map (List.eraseP (fun x => x.orderId = o.orderId))).filter
        (fun q => !q.isEmpty)
    else (b.sideMap s).get? p
  activeOrderIds : b'.activeOrderIds = b.activeOrderIds.erase o.orderId
  orderIndex : b'.orderIndex = b.orderIndex.erase o.orderId
  matchSeq : b'.matchSeq = b.matchSeq

/-- The book with an id dropped from the active set and the index. -/
def forget (b : OrderBook) (orderId : UInt64) : OrderBook :=
  { b with
    orderIndex := b.orderIndex.erase orderId
    activeOrderIds := b.activeOrderIds.erase orderId }

@[simp] lemma sideMap_forget (b : OrderBook) (orderId : UInt64) (s : Side) :
    (b.forget orderId).sideMap s = b.sideMap s := by cases s <;> rfl

/-- Forgetting an id that is not active does nothing. -/
lemma Inv.forget_eq (hb : Inv b) {orderId : UInt64} (h : b.orderIndex.get? orderId = none) :
    b.forget orderId = b := by
  have hactive : orderId ∉ b.activeOrderIds := by
    rw [hb.activeKeys]
    simp [h]
  have hindex : b.orderIndex.erase orderId = b.orderIndex := by
    ext id v
    rw [HashMap.get?_erase]
    split
    · rename_i heq
      rw [heq, h]
    · rfl
  rw [forget, hindex, Finset.erase_eq_of_notMem hactive]

lemma Inv.exists_level (hb : Inv b) {o : Order} (ho : o ∈ b.restingOrders) :
    ∃ q, (b.sideMap o.side).get? o.price = some q ∧ o ∈ q := by
  obtain ⟨s, hs⟩ := mem_restingOrders.mp ho
  obtain ⟨e, he, hoe⟩ := mem_flat.mp hs
  obtain ⟨hside, hprice, -⟩ := (hb.sideOk s e he).placed o hoe
  refine ⟨e.2, ?_, hoe⟩
  rw [SortedMap.get?_eq_some_iff, hside, hprice]
  exact he

lemma perm_cons_eraseP {p : Order → Bool} {q : List Order} {o : Order}
    (h : q.find? p = some o) : q.Perm (o :: q.eraseP p) := by
  obtain ⟨hpo, l₁, l₂, rfl, hl₁⟩ := List.find?_eq_some_iff_append.mp h
  rw [List.eraseP_append_right _ (fun x hx => by simpa using hl₁ x hx),
    List.eraseP_cons_of_pos hpo]
  exact List.perm_middle

/-- The level `p` with the queue `q`, or without the level if `q` is empty. -/
def setLevel (m : PriceMap) (p : UInt64) (q : List Order) : PriceMap :=
  if q.isEmpty then m.erase p else m.replace p q

lemma get?_setLevel {m : PriceMap} {p : UInt64} {old : List Order} (h : m.get? p = some old)
    (q : List Order) (p' : UInt64) :
    (setLevel m p q).get? p' =
      if p' = p then (some q).filter (fun q => !q.isEmpty) else m.get? p' := by
  unfold setLevel
  split
  · rename_i hq
    rw [SortedMap.get?_erase, Option.filter_some_neg (by simpa using hq)]
  · rename_i hq
    rw [SortedMap.get?_replace]
    split
    · rename_i hp
      rw [hp, h, Option.filter_some_pos (by simpa using hq)]
      rfl
    · rfl

/-- Taking `o` out of its queue takes exactly `o` out of the content of the map. -/
lemma flat_setLevel {m : PriceMap} {p : UInt64} {old q : List Order} {o : Order}
    (h : m.get? p = some old) (hperm : old.Perm (o :: q)) (taker : Side) :
    (flat taker m).Perm (o :: flat taker (setLevel m p q)) := by
  refine (flat_perm taker m).trans (List.Perm.trans ?_ ((flat_perm taker _).symm.cons o))
  obtain ⟨l₁, l₂, hsplit, herase, hreplace⟩ := SortedMap.exists_split h
  have hmid : (setLevel m p q).entries.flatMap Prod.snd =
      l₁.flatMap Prod.snd ++ (q ++ l₂.flatMap Prod.snd) := by
    unfold setLevel
    split
    · rename_i hq
      rw [herase, List.isEmpty_iff.mp hq, List.flatMap_append]
      rfl
    · rw [hreplace, List.flatMap_append, List.flatMap_cons]
  rw [hmid, hsplit, List.flatMap_append, List.flatMap_cons]
  refine (List.Perm.append_left _ (hperm.append_right _)).trans ?_
  exact List.perm_middle

/-- The book with the found order taken out of its level. -/
lemma removed_setLevel {side : Side} {price : UInt64} {q : List Order} {o : Order}
    (hget : (b.sideMap side).get? price = some q)
    (hfind : q.find? (fun x => x.orderId = o.orderId) = some o)
    (hside : o.side = side) (hprice : o.price = price) :
    Removed b o ((b.forget o.orderId).setSideMap side (setLevel (b.sideMap side) price
      (q.eraseP (fun x => x.orderId = o.orderId)))) where
  perm := by
    refine (b.restingOrders_perm side).trans
      (List.Perm.trans ?_ ((restingOrders_perm _ side).symm.cons o))
    have hopp : side.opposite ≠ side := side.opposite_ne
    simp only [flatSide, sideMap_setSideMap, sideMap_forget, if_true, if_neg hopp]
    exact (flat_setLevel hget (perm_cons_eraseP hfind) _).append_right _
  get? s p := by
    subst hside hprice
    by_cases hs : s = o.side
    · subst hs
      simp only [sideMap_setSideMap, if_true, get?_setLevel hget, true_and]
      split
      · rename_i hp
        rw [hp, hget]
        rfl
      · rfl
    · simp [hs]
  activeOrderIds := by rw [activeOrderIds_setSideMap]; rfl
  orderIndex := by rw [orderIndex_setSideMap]; rfl
  matchSeq := by rw [matchSeq_setSideMap]; rfl

/-- **What `removeOrder` does.**  An id that rests is taken out of its queue and returned; any
other id is refused, and at most forgotten. -/
lemma removeOrder_cases (hb : Inv b) (orderId : UInt64) :
    (∃ o ∈ b.restingOrders, o.orderId = orderId ∧ (b.removeOrder orderId).1 = .ok o ∧
      Removed b o (b.removeOrder orderId).2) ∨
    (¬b.Rests orderId ∧ (b.removeOrder orderId).1 = .error (.orderNotFound orderId) ∧
      (b.removeOrder orderId).2 = b.forget orderId) := by
  cases hindex : b.orderIndex.get? orderId with
  | none =>
      refine Or.inr ⟨?_, ?_, ?_⟩
      · rintro ⟨o, ho, rfl⟩
        have := hb.index o ho
        rw [hindex] at this
        exact absurd this (by simp)
      · simp only [removeOrder, hindex]
      · rw [hb.forget_eq hindex]
        simp only [removeOrder, hindex]
  | some sp =>
      obtain ⟨side, price⟩ := sp
      -- an order with this id can only be on the level the index names
      have hlevel : b.Rests orderId →
          ∃ q o, (b.sideMap side).get? price = some q ∧ o ∈ q ∧ o.orderId = orderId := by
        rintro ⟨o, ho, rfl⟩
        have heq := hb.index o ho
        rw [hindex] at heq
        obtain ⟨hside, hprice⟩ := Prod.mk.inj (Option.some.inj heq)
        obtain ⟨q, hq, hoq⟩ := hb.exists_level ho
        exact ⟨q, o, by rw [hside, hprice]; exact hq, hoq, rfl⟩
      cases hget : (b.sideMap side).get? price with
      | none =>
          refine Or.inr ⟨?_, ?_, ?_⟩
          · intro hrests
            obtain ⟨q, o, hq, -⟩ := hlevel hrests
            rw [hget] at hq
            exact absurd hq (by simp)
          · simp [removeOrder, hindex, hget]
          · simp [removeOrder, hindex, hget, forget]
      | some q =>
          cases hfind : q.find? (fun o => o.orderId = orderId) with
          | none =>
              refine Or.inr ⟨?_, ?_, ?_⟩
              · intro hrests
                obtain ⟨q', o, hq', ho, hid⟩ := hlevel hrests
                rw [hget] at hq'
                obtain rfl := Option.some.inj hq'
                exact absurd hid (by simpa using List.find?_eq_none.mp hfind o ho)
              · simp [removeOrder, hindex, hget, hfind]
              · simp [removeOrder, hindex, hget, hfind, forget]
          | some o =>
              have hmem : o ∈ q := List.mem_of_find?_eq_some hfind
              have hid : o.orderId = orderId := by simpa using List.find?_some hfind
              have hentry := (SortedMap.get?_eq_some_iff _ _ _).mp hget
              obtain ⟨hside, hprice, -⟩ := (hb.sideOk side _ hentry).placed o hmem
              subst hid
              have hremove : b.removeOrder o.orderId =
                  (.ok o, (b.forget o.orderId).setSideMap side (setLevel (b.sideMap side) price
                    (q.eraseP (fun x => x.orderId = o.orderId)))) := by
                simp [removeOrder, hindex, hget, hfind, setLevel, forget]
              refine Or.inl ⟨o, ?_, rfl, by rw [hremove], ?_⟩
              · exact mem_restingOrders.mpr ⟨side, mem_flat.mpr ⟨_, hentry, hmem⟩⟩
              · rw [hremove]
                exact removed_setLevel hget hfind hside hprice

/-- A level after a removal is not empty, and part of the old level at its price. -/
lemma Inv.removed_level (hb : Inv b) {o : Order} (h : Removed b o b') {s : Side}
    {e : UInt64 × List Order} (he : e ∈ (b'.sideMap s).entries) :
    e.2 ≠ [] ∧ ∃ q, (e.1, q) ∈ (b.sideMap s).entries ∧ e.2.Sublist q := by
  have hget := (SortedMap.get?_eq_some_iff _ _ _).mpr he
  rw [h.get?] at hget
  split at hget
  · obtain ⟨hmap, hne⟩ := Option.filter_eq_some_iff.mp hget
    obtain ⟨q, hq, heq⟩ := Option.map_eq_some_iff.mp hmap
    refine ⟨by simpa using hne, q, (SortedMap.get?_eq_some_iff _ _ _).mp hq, ?_⟩
    rw [← heq]
    exact List.eraseP_sublist
  · have hmem := (SortedMap.get?_eq_some_iff _ _ _).mp hget
    exact ⟨(hb.sideOk s e hmem).nonempty, e.2, hmem, List.Sublist.refl _⟩

/-- Taking an order out keeps the invariant. -/
lemma Inv.removed (hb : Inv b) {o : Order} (h : Removed b o b') : Inv b' := by
  have hids := (h.perm.map Order.orderId).nodup_iff.mp hb.nodup
  obtain ⟨hnot, hnodup⟩ := List.nodup_cons.mp hids
  have hold : ∀ x ∈ b'.restingOrders, x ∈ b.restingOrders ∧ x.orderId ≠ o.orderId := by
    intro x hx
    exact ⟨h.perm.mem_iff.mpr (List.mem_cons_of_mem _ hx),
      fun heq => hnot (heq ▸ List.mem_map_of_mem hx)⟩
  refine ⟨fun s e he => ?_, hnodup, fun bid hbid ask hask => ?_, fun x hx => ?_,
    fun x hx => ?_, ?_⟩
  · obtain ⟨hne, q, hq, hsub⟩ := hb.removed_level h he
    exact ⟨hne, fun x hx => (hb.sideOk s _ hq).placed x (hsub.subset hx)⟩
  · obtain ⟨-, q, hq, -⟩ := hb.removed_level h (s := .buy) hbid
    obtain ⟨-, q', hq', -⟩ := hb.removed_level h (s := .sell) hask
    exact hb.uncrossed (bid.1, q) hq (ask.1, q') hq'
  · rw [h.activeOrderIds, Finset.mem_erase]
    exact ⟨(hold x hx).2, hb.active x (hold x hx).1⟩
  · rw [h.orderIndex, HashMap.get?_erase, if_neg (hold x hx).2]
    exact hb.index x (hold x hx).1
  · ext id
    rw [h.activeOrderIds, h.orderIndex, hb.activeKeys]
    by_cases hid : id = o.orderId <;> simp [hid]

/-- Forgetting an id that does not rest keeps the invariant. -/
lemma Inv.forget (hb : Inv b) {orderId : UInt64} (hid : ¬b.Rests orderId) :
    Inv (b.forget orderId) := by
  have hne : ∀ x ∈ b.restingOrders, x.orderId ≠ orderId := fun x hx heq => hid ⟨x, hx, heq⟩
  refine ⟨fun s => ?_, hb.nodup, hb.uncrossed, fun x hx => ?_, fun x hx => ?_, ?_⟩
  · rw [sideMap_forget]
    exact hb.sideOk s
  · exact Finset.mem_erase.mpr ⟨hne x hx, hb.active x hx⟩
  · rw [show (b.forget orderId).orderIndex = b.orderIndex.erase orderId from rfl,
      HashMap.get?_erase, if_neg (hne x hx)]
    exact hb.index x hx
  · ext id
    rw [show (b.forget orderId).orderIndex = b.orderIndex.erase orderId from rfl,
      show (b.forget orderId).activeOrderIds = b.activeOrderIds.erase orderId from rfl,
      hb.activeKeys]
    by_cases h : id = orderId <;> simp [h]

end Removed

/-! ## Every call keeps the invariant -/

lemma Inv.addOrder {b : OrderBook} (hb : Inv b) (order : Order) (tradeIdGen : FastUlidHalfGen)
    (timestamp : UInt64) : Inv (b.addOrder order tradeIdGen timestamp).2.1 := by
  by_cases hid : order.orderId ∈ b.activeOrderIds
  · rwa [addOrder_duplicate tradeIdGen timestamp hid]
  · obtain ⟨-, hadded, -⟩ := addOrder_spec tradeIdGen timestamp (hb.sideOk _) hid
    exact hb.added hadded hid

/-- Removing an order keeps the invariant, found or not. -/
lemma Inv.removeOrder {b : OrderBook} (hb : Inv b) (orderId : UInt64) :
    Inv (b.removeOrder orderId).2 := by
  rcases removeOrder_cases hb orderId with ⟨o, -, -, -, h⟩ | ⟨hnot, -, h⟩
  · exact hb.removed h
  · rw [h]
    exact hb.forget hnot

lemma Inv.step (b : OrderBook) (c : Call) (hb : Inv b) : Inv (machine.step b c).1 := by
  cases c with
  | add order tradeIdGen timestamp => exact hb.addOrder order tradeIdGen timestamp
  | remove orderId => exact hb.removeOrder orderId

lemma Reachable.inv {b : OrderBook} (h : Reachable b) : Inv b := by
  obtain ⟨symbolId, h⟩ := h
  exact h.invariant Inv.step (inv_new symbolId)

end OrderBook

end ExchangeCore
