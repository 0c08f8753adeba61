import ExchangeCore.Book.Invariant

/-!
# What the order book guarantees

Three results about every book reachable from `OrderBook::new` by any calls.

* `addOrder_eq_reference`: an accepted order is matched exactly as the reference price-time
  matcher matches it.
* `reachable_wellFormed`: levels are non-empty and hold live orders of their own side and price,
  no id rests twice, and the best bid is strictly below the best ask.
* `tracked_throughout_iff`: the active set, the index and the book agree along a run exactly if
  no accepted order of the run is filled completely on arrival.  The loop retires the makers it
  uses up but never the taker, so a taker without residual stays active and indexed
  (`filled_taker_stays_active`).
-/

namespace ExchangeCore

open Reference

namespace OrderBook

/-! ## Matching is price-time matching -/

/-- **`add_order` is the reference matcher.**  On every reachable book and for every order whose
id is not active: the trades are those of the walk, numbered after the old counter; the opposite
side is the part of it not consumed, whose head may be reduced; quantity is conserved; and the
residual, if any, joins the back of its own level, the own side being otherwise unchanged. -/
theorem addOrder_eq_reference {b : OrderBook} (hb : Reachable b) (order : Order)
    (tradeIdGen : FastUlidHalfGen) (timestamp : UInt64)
    (hid : order.orderId ∉ b.activeOrderIds) :
    let makers := b.flatSide order.side.opposite
    let o := walk order.side order.price order.quantity makers
    let r := b.addOrder order tradeIdGen timestamp
    r.1 = .ok (trades order timestamp tradeIdGen b.matchSeq o.fills) ∧
      r.2.1.flatSide order.side.opposite = o.rest ∧
      (∃ suffix, makers = o.consumed ++ suffix ∧
        (o.rest = suffix ∨ ∃ m tail q, suffix = m :: tail ∧ 0 < q ∧ q < m.quantity ∧
          o.rest = { m with quantity := m.quantity - q } :: tail)) ∧
      (o.fills.map (fun f => f.2.toNat)).sum + o.residual.toNat = order.quantity.toNat ∧
      (∀ p, (r.2.1.sideMap order.side).get? p =
        if 0 < o.residual ∧ p = order.price then
          some (((b.sideMap order.side).get? p).getD [] ++
            [{ order with quantity := o.residual }])
        else (b.sideMap order.side).get? p) ∧
      r.2.1.matchSeq = b.matchSeq + UInt64.ofNat o.fills.length := by
  intro makers o r
  have hinv := hb.inv
  obtain ⟨htrades, hadded, -⟩ := addOrder_spec tradeIdGen timestamp (hinv.sideOk _) hid
  refine ⟨htrades, hadded.flat_opposite, walk_rest_suffix _ _ _ _, ?_, fun p => ?_,
    hadded.matchSeq⟩
  · exact filled_add_residual _ _ _ _
  · rw [hadded.own]
    by_cases hpos : 0 < (b.walkOf order).residual
    · rw [if_pos hpos, SortedMap.get?_upsert]
      by_cases hp : p = order.price
      · rw [if_pos hp, if_pos ⟨hpos, hp⟩, hp]
        rfl
      · rw [if_neg hp, if_neg (fun h => hp h.2)]
    · rw [if_neg hpos, if_neg (fun h => hpos h.1)]

/-- A limit order of symbol 1, for the concrete books below. -/
def plainOrder (orderId userId : UInt64) (side : Side) (price quantity : UInt64) : Order where
  orderId := orderId
  userId := userId
  symbolId := 1
  side := side
  orderType := .limit
  price := price
  quantity := quantity
  timestamp := 0

/-- A buy of 3 against a resting sell of 5: one trade, and the sell keeps its place with 2. -/
theorem addOrder_eq_reference_partial_fill :
    let b := machine.run (new 1) [.add (plainOrder 1 10 .sell 100 5) .new 0]
    let order := plainOrder 2 11 .buy 100 3
    let o := walk .buy 100 3 (b.flatSide .sell)
    (b.addOrder order .new 7).1 = .ok (trades order 7 .new b.matchSeq o.fills) ∧
      (b.addOrder order .new 7).2.1.flatSide .sell = o.rest ∧
      o.rest = [plainOrder 1 10 .sell 100 2] := by
  intro b order o
  obtain ⟨h₁, h₂, -⟩ := addOrder_eq_reference (b := b) ⟨1, _, rfl⟩ order .new 7 (by decide)
  exact ⟨h₁, h₂, by decide⟩

/-! ## The shape of a reachable book -/

/-- **Every reachable book is well formed.**  Levels are non-empty, stored orders have quantity
left and sit on the map of their own side under their own price, no id is stored twice, and the
best bid is strictly below the best ask. -/
theorem reachable_wellFormed {b : OrderBook} (hb : Reachable b) :
    (∀ s, ∀ e ∈ (b.sideMap s).entries,
      e.2 ≠ [] ∧ ∀ o ∈ e.2, 0 < o.quantity ∧ o.side = s ∧ o.price = e.1) ∧
    (b.restingOrders.map Order.orderId).Nodup ∧
    (∀ bid ∈ b.bids.last?, ∀ ask ∈ b.asks.first?, bid.1 < ask.1) := by
  have hinv := hb.inv
  refine ⟨fun s e he => ⟨(hinv.sideOk s e he).nonempty, fun o ho => ?_⟩, hinv.nodup, ?_⟩
  · obtain ⟨hside, hprice, hpos⟩ := (hinv.sideOk s e he).placed o ho
    exact ⟨hpos, hside, hprice⟩
  · intro bid hbid ask hask
    exact hinv.uncrossed bid (SortedMap.last?_mem hbid) ask (SortedMap.first?_mem hask)

/-- A book with a bid at 99 and an ask at 100, after a failed removal and an order without
quantity. -/
theorem reachable_wellFormed_two_sided :
    let b := machine.run (new 1) [.add (plainOrder 1 10 .sell 100 5) .new 0,
      .add (plainOrder 2 11 .buy 99 3) .new 0, .remove 7, .add (plainOrder 3 11 .buy 100 0) .new 0]
    b.bids.last?.map Prod.fst = some 99 ∧ b.asks.first?.map Prod.fst = some 100 ∧
      (b.restingOrders.map Order.orderId).Nodup ∧
      ∀ bid ∈ b.bids.last?, ∀ ask ∈ b.asks.first?, bid.1 < ask.1 := by
  intro b
  obtain ⟨-, hnodup, hspread⟩ := reachable_wellFormed (b := b) ⟨1, _, rfl⟩
  exact ⟨by decide, by decide, hnodup, hspread⟩

/-! ## The active set and the index -/

/-- The active set, the index and the book agree: the active ids are the keys of the index and
the ids that rest, and the index names the queue each resting order is stored in. -/
structure Tracked (b : OrderBook) : Prop where
  keys : b.activeOrderIds = b.orderIndex.keys
  active_iff : ∀ id, id ∈ b.activeOrderIds ↔ b.Rests id
  index : ∀ s, ∀ e ∈ (b.sideMap s).entries, ∀ o ∈ e.2,
    b.orderIndex.get? o.orderId = some (s, e.1)

/-- The condition on a call: an accepted order asks for more than the opposite side offers at or
better than its limit, so that something of it comes to rest. -/
def LeavesResidual (b : OrderBook) : Call → Prop
  | .add order _ _ => order.orderId ∈ b.activeOrderIds ∨
      crossing order.side order.price (b.flatSide order.side.opposite) < order.quantity.toNat
  | .remove _ => True

/-- Under the invariant, agreement is the one missing inclusion. -/
lemma Inv.tracked_iff {b : OrderBook} (hb : Inv b) :
    Tracked b ↔ ∀ id ∈ b.activeOrderIds, b.Rests id := by
  constructor
  · exact fun h id hid => (h.active_iff id).mp hid
  · refine fun h => ⟨hb.activeKeys, fun id => ⟨h id, ?_⟩, fun s e he o ho => ?_⟩
    · rintro ⟨o, ho, rfl⟩
      exact hb.active o ho
    · obtain ⟨hside, hprice, -⟩ := (hb.sideOk s e he).placed o ho
      rw [← hside, ← hprice]
      refine hb.index o (mem_restingOrders.mpr ⟨s, mem_flat.mpr ⟨e, he, ho⟩⟩)

/-- On a side whose levels are well placed, the crossing orders come first. -/
lemma flat_crossing_first {s : Side} (taker : Side) {m : PriceMap} (hok : SideOk s m)
    (limit : UInt64) :
    (flat taker m).Pairwise (fun a b => Crosses taker limit b.price →
      Crosses taker limit a.price) := by
  have hprice : ∀ e ∈ levels taker m, ∀ o ∈ e.2, o.price = e.1 := fun e he o ho =>
    ((hok e ((mem_levels taker).mp he)).placed o ho).2.1
  refine List.pairwise_flatMap.mpr ⟨fun e he => ?_, ?_⟩
  · refine List.pairwise_of_forall_mem_list (fun x hx y hy hc => ?_)
    rwa [hprice e he x hx, ← hprice e he y hy]
  · have hsorted : (levels taker m).Pairwise (fun a b => Crosses taker limit b.1 →
        Crosses taker limit a.1) := by
      cases taker
      · exact m.sorted.imp (fun h hc => le_trans h.le hc)
      · exact List.pairwise_reverse.mpr (m.sorted.imp (fun h hc => le_trans hc h.le))
    refine hsorted.imp_of_mem (fun {e e'} he he' h x hx y hy hc => ?_)
    rw [hprice e he x hx]
    rw [hprice e' he' y hy] at hc
    exact h hc

/-- The makers an order meets come before those it does not. -/
lemma Inv.crossing_first {b : OrderBook} (hb : Inv b) (order : Order) :
    (b.flatSide order.side.opposite).Pairwise (fun m m' =>
      Crosses order.side order.price m'.price → Crosses order.side order.price m.price) := by
  have hfirst := flat_crossing_first order.side (hb.sideOk order.side.opposite) order.price
  rwa [show flat order.side (b.sideMap order.side.opposite) = b.flatSide order.side.opposite by
    rw [flatSide, Side.opposite_opposite]] at hfirst

/-- An accepted order leaves a residual exactly if it asks for more than is offered. -/
lemma Inv.residual_pos_iff {b : OrderBook} (hb : Inv b) (order : Order) :
    0 < (b.walkOf order).residual ↔
      crossing order.side order.price (b.flatSide order.side.opposite) <
        order.quantity.toNat := by
  rw [Word.pos_iff, walkOf, residual_eq_sub (hb.crossing_first order)]
  omega

lemma Inv.taker_active {b b' : OrderBook} {order : Order} (hb : Inv b)
    (h : Added b order (b.walkOf order) b') (hid : order.orderId ∉ b.activeOrderIds) :
    order.orderId ∈ b'.activeOrderIds := by
  rw [h.activeOrderIds, Finset.mem_sdiff, List.mem_toFinset]
  refine ⟨Finset.mem_insert_self _ _, fun hc => hb.fresh hid ?_⟩
  exact List.mem_append_right _ (List.mem_append_left _ hc)

lemma Inv.taker_rests_iff {b b' : OrderBook} {order : Order} (hb : Inv b)
    (h : Added b order (b.walkOf order) b') (hid : order.orderId ∉ b.activeOrderIds) :
    b'.Rests order.orderId ↔ 0 < (b.walkOf order).residual := by
  constructor
  · rintro ⟨x, hx, hxid⟩
    rcases h.cases hx with ⟨hpos, -⟩ | hx | hx
    · exact hpos
    · refine absurd ?_ (hb.fresh hid)
      exact hxid ▸ List.mem_append_left _ (List.mem_map_of_mem hx)
    · refine absurd ?_ (hb.fresh hid)
      exact hxid ▸ List.mem_append_right _ (List.mem_append_right _ (List.mem_map_of_mem hx))
  · intro hpos
    refine ⟨{ order with quantity := (b.walkOf order).residual }, ?_, rfl⟩
    rw [h.restingOrders.mem_iff, residualOrder, if_pos hpos]
    simp

lemma Added.rests_of_rests {b b' : OrderBook} {order : Order}
    (h : Added b order (b.walkOf order) b') {id : UInt64} (hold : b.Rests id)
    (hcons : id ∉ (b.walkOf order).consumed.map Order.orderId) : b'.Rests id := by
  obtain ⟨o, ho, rfl⟩ := hold
  have hids := (ids_before b order).mem_iff.mp (List.mem_map_of_mem ho)
  have hmem : o.orderId ∈ b'.restingOrders.map Order.orderId := by
    rw [(h.restingOrders.map Order.orderId).mem_iff, List.map_append, List.map_append]
    rcases List.mem_append.mp hids with hown | hids
    · exact List.mem_append_left _ (List.mem_append_right _ hown)
    · exact List.mem_append_right _ ((List.mem_append.mp hids).resolve_left hcons)
  obtain ⟨x, hx, hxid⟩ := List.mem_map.mp hmem
  exact ⟨x, hx, hxid⟩

lemma Inv.not_rests {b : OrderBook} (hb : Inv b) {id : UInt64} (hid : id ∉ b.activeOrderIds) :
    ¬b.Rests id := by
  rintro ⟨o, ho, rfl⟩
  exact hid (hb.active o ho)

/-- What rests after an accepted order: its residual, and what rested before and was not used
up. -/
lemma Inv.rests_added_iff {b b' : OrderBook} {order : Order} (hb : Inv b)
    (h : Added b order (b.walkOf order) b') (hid : order.orderId ∉ b.activeOrderIds)
    (id : UInt64) :
    b'.Rests id ↔ (id = order.orderId ∧ 0 < (b.walkOf order).residual) ∨
      (b.Rests id ∧ id ∉ (b.walkOf order).consumed.map Order.orderId) := by
  constructor
  · rintro ⟨x, hx, rfl⟩
    have hcons := (hb.added_bookkeeping h hid hx).1
    rcases h.cases hx with ⟨hpos, rfl⟩ | hx | hx
    · exact Or.inl ⟨rfl, hpos⟩
    · exact Or.inr ⟨⟨x, mem_restingOrders.mpr ⟨_, hx⟩, rfl⟩, hcons⟩
    · obtain ⟨m, hm, hxm, -⟩ := mem_rest hx
      exact Or.inr ⟨⟨m, mem_restingOrders.mpr ⟨_, hm⟩, by rw [hxm]⟩, hcons⟩
  · rintro (⟨rfl, hpos⟩ | ⟨hold, hcons⟩)
    · exact (hb.taker_rests_iff h hid).mpr hpos
    · exact h.rests_of_rests hold hcons

lemma Inv.rests_removeOrder_iff {b : OrderBook} (hb : Inv b) (orderId id : UInt64) :
    (b.removeOrder orderId).2.Rests id ↔ b.Rests id ∧ id ≠ orderId := by
  rcases removeOrder_cases hb orderId with ⟨o, ho, rfl, -, h⟩ | ⟨hnot, -, h⟩
  · have hnodup :
        (o.orderId :: (b.removeOrder o.orderId).2.restingOrders.map Order.orderId).Nodup :=
      ((h.perm.map Order.orderId).nodup_iff).mp hb.nodup
    constructor
    · rintro ⟨x, hx, rfl⟩
      refine ⟨⟨x, h.perm.mem_iff.mpr (List.mem_cons_of_mem _ hx), rfl⟩, fun heq => ?_⟩
      exact (List.nodup_cons.mp hnodup).1 (List.mem_map.mpr ⟨x, hx, heq⟩)
    · rintro ⟨⟨x, hx, rfl⟩, hne⟩
      rcases List.mem_cons.mp (h.perm.mem_iff.mp hx) with rfl | hx
      · exact absurd rfl hne
      · exact ⟨x, hx, rfl⟩
  · rw [h]
    exact ⟨fun hrests => ⟨hrests, fun heq => hnot (heq ▸ hrests)⟩, fun hrests => hrests.1⟩

/-- The order has enough for this maker and for every maker ahead of it. -/
def UsesUp (b : OrderBook) (order maker : Order) : Prop :=
  ∃ before after, b.flatSide order.side.opposite = before ++ maker :: after ∧
    Crosses order.side order.price maker.price ∧
    (before.map (fun m => m.quantity.toNat)).sum + maker.quantity.toNat ≤ order.quantity.toNat

lemma UsesUp.rests {b : OrderBook} {order maker : Order} (h : b.UsesUp order maker) :
    b.Rests maker.orderId := by
  obtain ⟨before, after, hflat, -, -⟩ := h
  refine ⟨maker, mem_restingOrders.mpr ⟨order.side.opposite, ?_⟩, rfl⟩
  rw [hflat]
  exact List.mem_append_right _ (List.mem_cons_self ..)

lemma Inv.mem_consumed_iff {b : OrderBook} (hb : Inv b) (order maker : Order) :
    maker ∈ (b.walkOf order).consumed ↔ b.UsesUp order maker := by
  refine Reference.mem_consumed_iff (hb.crossing_first order) (fun m hm => ?_)
  obtain ⟨e, he, hme⟩ := mem_flat.mp hm
  exact ((hb.sideOk _ e he).placed m hme).2.2

/-- An accepted order keeps the agreement exactly if it leaves a residual. -/
lemma Tracked.added_iff {b b' : OrderBook} {order : Order} (hb : Inv b) (ht : Tracked b)
    (h : Added b order (b.walkOf order) b') (hid : order.orderId ∉ b.activeOrderIds) :
    Tracked b' ↔ 0 < (b.walkOf order).residual := by
  have hb' := hb.added h hid
  rw [← hb.taker_rests_iff h hid]
  constructor
  · exact fun ht' => (ht'.active_iff _).mp (hb.taker_active h hid)
  · refine fun hrests => hb'.tracked_iff.mpr (fun id hactive => ?_)
    rw [h.activeOrderIds, Finset.mem_sdiff, Finset.mem_insert, List.mem_toFinset] at hactive
    obtain ⟨rfl | hold, hcons⟩ := hactive
    · exact hrests
    · exact h.rests_of_rests ((ht.active_iff id).mp hold) hcons

/-- A removal keeps the agreement. -/
lemma Tracked.removeOrder {b : OrderBook} (hb : Inv b) (ht : Tracked b) (orderId : UInt64) :
    Tracked (b.removeOrder orderId).2 := by
  refine (hb.removeOrder orderId).tracked_iff.mpr (fun id hactive => ?_)
  rcases removeOrder_cases hb orderId with ⟨o, -, -, -, h⟩ | ⟨hnot, -, h⟩
  · rw [h.activeOrderIds, Finset.mem_erase] at hactive
    obtain ⟨x, hx, rfl⟩ := (ht.active_iff id).mp hactive.2
    rcases List.mem_cons.mp (h.perm.mem_iff.mp hx) with rfl | hx
    · exact absurd rfl hactive.1
    · exact ⟨x, hx, rfl⟩
  · rw [h] at hactive ⊢
    exact (ht.active_iff id).mp (Finset.mem_of_mem_erase hactive)

/-- One call keeps the agreement exactly if it meets the condition. -/
lemma Tracked.step_iff (b : OrderBook) (c : Call) (hb : Inv b) (ht : Tracked b) :
    Tracked (machine.step b c).1 ↔ LeavesResidual b c := by
  cases c with
  | add order tradeIdGen timestamp =>
      by_cases hid : order.orderId ∈ b.activeOrderIds
      · simp only [machine, addOrder_duplicate tradeIdGen timestamp hid, LeavesResidual, hid,
          true_or, iff_true]
        exact ht
      · obtain ⟨-, hadded, -⟩ := addOrder_spec tradeIdGen timestamp (hb.sideOk _) hid
        rw [LeavesResidual, ← hb.residual_pos_iff, or_iff_right hid]
        exact ht.added_iff hb hadded hid
  | remove orderId => exact ⟨fun _ => trivial, fun _ => ht.removeOrder hb orderId⟩

lemma tracked_new (symbolId : UInt32) : Tracked (new symbolId) :=
  (inv_new symbolId).tracked_iff.mpr (fun id hid => absurd hid (Finset.notMem_empty id))

/-- **When the bookkeeping agrees with the book.**  Along a run from an empty book the active
set, the index and the resting orders agree in every state reached exactly if every accepted
order of the run asked for more than the opposite side offered within its limit. -/
theorem tracked_throughout_iff (symbolId : UInt32) (calls : List Call) :
    machine.Throughout Tracked (new symbolId) calls ↔
      machine.AllSteps LeavesResidual (new symbolId) calls :=
  Machine.throughout_iff_allSteps Inv.step Tracked.step_iff (inv_new symbolId)
    (tracked_new symbolId) calls

instance (b : OrderBook) (orderId : UInt64) : Decidable (b.Rests orderId) :=
  inferInstanceAs (Decidable (∃ o ∈ b.restingOrders, o.orderId = orderId))

/-- A sell of 5 rests, a buy of 5 at the same price takes all of it: the buy is reported as
active although nothing rests any more. -/
theorem filled_taker_stays_active :
    ¬∀ b, Reachable b → ∀ id, b.hasOrder id = true ↔ b.Rests id := by
  intro h
  have hb := h (machine.run (new 1) [.add (plainOrder 1 10 .sell 100 5) .new 0,
    .add (plainOrder 2 11 .buy 100 5) .new 0]) ⟨1, _, rfl⟩ 2
  exact absurd (hb.mp (by decide)) (by decide)

end OrderBook

end ExchangeCore
