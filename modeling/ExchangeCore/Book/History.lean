import ExchangeCore.Book.Properties

/-!
# The history of an order book

What happens to the orders of a book over a whole run.  A call reports the order it accepts, the
trades of that order and the order it takes out (`eventsOf`); `history` is what the calls of a run
report, in order.

* `history_balanced`: of every order id, the quantity accepted is the quantity executed, the
  quantity cancelled and the quantity that still rests.  No fill is lost and none is made up.
* `trades_within_limits`: every trade is between a buy and a sell order accepted before it, each
  executed at its limit or better.
* `priority_kept`: the orders of a side rest in the order of price, and of the call that accepted
  them within a price; an order only trades from the book in a call that uses up every order
  resting ahead of it.
-/

namespace ExchangeCore

open Reference

namespace OrderBook

/-! ## Events -/

/-- What a call reports. -/
inductive Event
  | accepted (order : Order)
  | traded (trade : Trade)
  | cancelled (order : Order)
  deriving DecidableEq

/-- The events of a call. -/
def eventsOf (b : OrderBook) : Call → List Event
  | .add order tradeIdGen timestamp =>
      match (b.addOrder order tradeIdGen timestamp).1 with
      | .ok trades => .accepted order :: trades.map .traded
      | .error _ => []
  | .remove orderId =>
      match (b.removeOrder orderId).1 with
      | .ok order => [.cancelled order]
      | .error _ => []

/-- The events of a run. -/
def history (b : OrderBook) (calls : List Call) : List Event := machine.gathered eventsOf b calls

lemma history_cons (b : OrderBook) (c : Call) (cs : List Call) :
    b.history (c :: cs) = b.eventsOf c ++ (machine.step b c).1.history cs := rfl

lemma history_append (b : OrderBook) (cs ds : List Call) :
    b.history (cs ++ ds) = b.history cs ++ (machine.run b cs).history ds :=
  Machine.gathered_append b cs ds

lemma history_concat (b : OrderBook) (cs : List Call) (c : Call) :
    b.history (cs ++ [c]) = b.history cs ++ (machine.run b cs).eventsOf c := by
  rw [history_append, history_cons]
  exact congrArg _ (List.append_nil _)

/-- What a call does to a book that satisfies the invariant, with the events it reports. -/
inductive Effect (b : OrderBook) : Call → List Event → OrderBook → Prop
  /-- An order is accepted and takes its walk. -/
  | accepted (order : Order) (tradeIdGen : FastUlidHalfGen) (timestamp : UInt64) (b' : OrderBook)
      (hid : order.orderId ∉ b.activeOrderIds) (hadded : Added b order (b.walkOf order) b') :
      Effect b (.add order tradeIdGen timestamp)
        (.accepted order ::
          (trades order timestamp tradeIdGen b.matchSeq (b.walkOf order).fills).map .traded) b'
  /-- A resting order is taken out. -/
  | cancelled (o : Order) (b' : OrderBook) (ho : o ∈ b.restingOrders) (hremoved : Removed b o b') :
      Effect b (.remove o.orderId) [.cancelled o] b'
  /-- The call is refused. -/
  | refused (c : Call) (b' : OrderBook) (hsides : ∀ s, b'.sideMap s = b.sideMap s)
      (hactive : ∀ order tradeIdGen timestamp, c = .add order tradeIdGen timestamp →
        order.orderId ∈ b.activeOrderIds) : Effect b c [] b'

/-- **Every call has one of these effects.** -/
lemma effect_step {b : OrderBook} (hb : b.Inv) (c : Call) :
    Effect b c (b.eventsOf c) (machine.step b c).1 := by
  cases c with
  | add order tradeIdGen timestamp =>
      by_cases hid : order.orderId ∈ b.activeOrderIds
      · have hdup := addOrder_duplicate tradeIdGen timestamp hid
        simp only [eventsOf, machine, hdup]
        refine .refused _ _ (fun s => rfl) (fun order' gen' ts' heq => ?_)
        obtain ⟨rfl, -, -⟩ := Call.add.inj heq
        exact hid
      · obtain ⟨hok, hadded, -⟩ := addOrder_spec tradeIdGen timestamp (hb.sideOk _) hid
        simp only [eventsOf, machine, hok]
        exact .accepted order tradeIdGen timestamp _ hid hadded
  | remove orderId =>
      rcases removeOrder_cases hb orderId with ⟨o, ho, rfl, hok, hremoved⟩ | ⟨-, herr, hforget⟩
      · simp only [eventsOf, machine, hok]
        exact .cancelled o _ ho hremoved
      · simp only [eventsOf, machine, herr, hforget]
        exact .refused _ _ (fun s => sideMap_forget b orderId s) (fun _ _ _ heq => by cases heq)

lemma restingOrders_congr {b b' : OrderBook} (h : ∀ s, b'.sideMap s = b.sideMap s) :
    b'.restingOrders = b.restingOrders := by
  simp only [restingOrders, flatSide, h]

lemma inv_run (symbolId : UInt32) (calls : List Call) :
    (machine.run (new symbolId) calls).Inv :=
  machine.run_invariant Inv.step (inv_new symbolId) calls

/-! ## Quantities -/

/-- The quantity an event accepts for an id. -/
def Event.acceptedFor (id : UInt64) : Event → ℕ
  | .accepted o => if o.orderId = id then o.quantity.toNat else 0
  | _ => 0

/-- The quantity an event executes for an id, on either side of the trade. -/
def Event.executedFor (id : UInt64) : Event → ℕ
  | .traded t =>
      (if t.buyOrderId = id then t.quantity.toNat else 0) +
        (if t.sellOrderId = id then t.quantity.toNat else 0)
  | _ => 0

/-- The quantity an event cancels for an id. -/
def Event.cancelledFor (id : UInt64) : Event → ℕ
  | .cancelled o => if o.orderId = id then o.quantity.toNat else 0
  | _ => 0

/-- The quantity that counts for an id. -/
def weightOf (id : UInt64) (o : Order) (q : ℕ) : ℕ := if o.orderId = id then q else 0

/-- The quantity that rests under an id. -/
def restingFor (b : OrderBook) (id : UInt64) : ℕ :=
  (b.restingOrders.map (fun o => weightOf id o o.quantity.toNat)).sum

/-- The sum of what the events count for. -/
def total (f : Event → ℕ) (events : List Event) : ℕ := (events.map f).sum

@[simp] lemma total_nil (f : Event → ℕ) : total f [] = 0 := rfl

@[simp] lemma total_cons (f : Event → ℕ) (e : Event) (es : List Event) :
    total f (e :: es) = f e + total f es := by simp [total]

@[simp] lemma total_append (f : Event → ℕ) (es es' : List Event) :
    total f (es ++ es') = total f es + total f es' := by simp [total]

/-- The trades of a walk execute for the taker what it is filled, and for each maker its part. -/
lemma total_executed_trades (id : UInt64) (taker : Order) (timestamp : UInt64)
    (g : FastUlidHalfGen) (seq : UInt64) (fs : List (Order × UInt64)) :
    total (Event.executedFor id) ((trades taker timestamp g seq fs).map .traded) =
      weightOf id taker (filled fs) + (fs.map (fun f => weightOf id f.1 f.2.toNat)).sum := by
  induction fs generalizing g seq with
  | nil => simp [trades, weightOf]
  | cons f fs ih =>
      obtain ⟨m, q⟩ := f
      have hone : weightOf id taker (q.toNat + filled fs) =
          weightOf id taker q.toNat + weightOf id taker (filled fs) := by
        unfold weightOf
        split <;> rfl
      rw [trades, List.map_cons, total_cons, ih, filled_cons, hone, List.map_cons, List.sum_cons]
      -- the taker is the buyer or the seller
      cases hside : taker.side <;>
        simp only [Event.executedFor, buyer, seller, hside, reduceCtorEq, if_true, if_false,
          weightOf] <;> omega

lemma total_traded (f : Event → ℕ) (hf : ∀ t, f (.traded t) = 0) (ts : List Trade) :
    total f (ts.map .traded) = 0 := by
  induction ts with
  | nil => rfl
  | cons t ts ih => rw [List.map_cons, total_cons, hf, ih]

lemma Effect.balanced {b b' : OrderBook} {c : Call} {events : List Event}
    (h : Effect b c events b') (id : UInt64) :
    b.restingFor id + total (Event.acceptedFor id) events =
      total (Event.executedFor id) events + total (Event.cancelledFor id) events +
        b'.restingFor id := by
  cases h with
  | accepted order tradeIdGen timestamp _ hid hadded =>
      rw [total_cons, total_cons, total_cons, total_executed_trades,
        total_traded _ (fun _ => rfl), total_traded _ (fun _ => rfl)]
      -- the makers before are what the walk took from them and what it left
      have hweights := sum_weight (weightOf id)
        (fun m x y => by unfold weightOf; split <;> rfl) (fun m q n => rfl)
        order.side order.price order.quantity (b.flatSide order.side.opposite)
      have hfilled := filled_add_residual order.side order.price order.quantity
        (b.flatSide order.side.opposite)
      have hbefore : b.restingFor id =
          ((b.flatSide order.side).map (fun o => weightOf id o o.quantity.toNat)).sum +
            ((b.flatSide order.side.opposite).map
              (fun o => weightOf id o o.quantity.toNat)).sum := by
        rw [restingFor, ((b.restingOrders_perm order.side).map _).sum_eq, List.map_append,
          List.sum_append]
      have hafter : b'.restingFor id =
          weightOf id order (b.walkOf order).residual.toNat +
            ((b.flatSide order.side).map (fun o => weightOf id o o.quantity.toNat)).sum +
              ((b.walkOf order).rest.map (fun o => weightOf id o o.quantity.toNat)).sum := by
        rw [restingFor, (hadded.restingOrders.map _).sum_eq, List.map_append, List.sum_append,
          List.map_append, List.sum_append]
        congr 2
        unfold residualOrder
        split
        · rfl
        · rename_i hzero
          rw [Word.pos_iff] at hzero
          rw [show (b.walkOf order).residual.toNat = 0 by omega]
          simp [weightOf]
      rw [hbefore, hafter, hweights]
      -- the taker is what it was filled and its residual
      have hsplit : weightOf id order order.quantity.toNat =
          weightOf id order (filled (b.walkOf order).fills) +
            weightOf id order (b.walkOf order).residual.toNat := by
        unfold weightOf walkOf
        split
        · exact hfilled.symm
        · rfl
      have haccepted : Event.acceptedFor id (.accepted order) =
          weightOf id order order.quantity.toNat := rfl
      rw [haccepted, hsplit]
      simp only [Event.executedFor, Event.cancelledFor, walkOf]
      omega
  | cancelled o _ ho hremoved =>
      have hbefore : b.restingFor id =
          weightOf id o o.quantity.toNat + b'.restingFor id := by
        rw [restingFor, (hremoved.perm.map _).sum_eq, List.map_cons, List.sum_cons]
        rfl
      rw [hbefore]
      simp [Event.acceptedFor, Event.executedFor, Event.cancelledFor, weightOf]
  | refused _ _ hsides _ =>
      rw [restingFor, restingFor, restingOrders_congr hsides]
      simp

/-- **No quantity is lost.**  Of every order id, over every run, what was accepted is what was
executed, what was cancelled and what still rests. -/
theorem history_balanced (symbolId : UInt32) (calls : List Call) (id : UInt64) :
    total (Event.acceptedFor id) ((new symbolId).history calls) =
      total (Event.executedFor id) ((new symbolId).history calls) +
        total (Event.cancelledFor id) ((new symbolId).history calls) +
          (machine.run (new symbolId) calls).restingFor id := by
  suffices h : ∀ b : OrderBook, b.Inv →
      b.restingFor id + total (Event.acceptedFor id) (b.history calls) =
        total (Event.executedFor id) (b.history calls) +
          total (Event.cancelledFor id) (b.history calls) +
            (machine.run b calls).restingFor id by
    have hnew := h (new symbolId) (inv_new symbolId)
    rwa [show (new symbolId).restingFor id = 0 by simp [restingFor], zero_add] at hnew
  induction calls with
  | nil => intro b _; simp [history]
  | cons c calls ih =>
      intro b hb
      have hstep := (effect_step hb c).balanced id
      have hrest := ih _ (hb.step b c)
      simp only [history_cons, total_append, Machine.run_cons]
      omega

/-! ## What the history says of the resting orders -/

/-- The event accepts an order with this id. -/
def Event.accepts (id : UInt64) : Event → Bool
  | .accepted o => o.orderId = id
  | _ => false

/-- The place in a history of the last event that accepts an id. -/
def acceptedAt (id : UInt64) : List Event → ℕ
  | [] => 0
  | _ :: es => if es.any (Event.accepts id) then acceptedAt id es + 1 else 0

lemma acceptedAt_append_of_not {id : UInt64} {es : List Event}
    (h : es.any (Event.accepts id) = false)
    (pre : List Event) : acceptedAt id (pre ++ es) = acceptedAt id pre := by
  induction pre with
  | nil =>
      induction es with
      | nil => rfl
      | cons e es _ =>
          rw [List.any_cons, Bool.or_eq_false_iff] at h
          simp [acceptedAt, h.2]
  | cons e pre ih =>
      rw [List.cons_append, acceptedAt, acceptedAt, ih, List.any_append, h, Bool.or_false]

lemma acceptedAt_lt {id : UInt64} {pre : List Event} (h : pre.any (Event.accepts id) = true) :
    acceptedAt id pre < pre.length := by
  induction pre with
  | nil => simp at h
  | cons e pre ih =>
      rw [acceptedAt, List.length_cons]
      split
      · rename_i hany
        exact Nat.succ_lt_succ (ih hany)
      · exact Nat.succ_pos _

lemma acceptedAt_append_accepted {o : Order} {es : List Event}
    (h : es.any (Event.accepts o.orderId) = false) (pre : List Event) :
    acceptedAt o.orderId (pre ++ .accepted o :: es) = pre.length := by
  induction pre with
  | nil => simp [acceptedAt, h]
  | cons e pre ih =>
      rw [List.cons_append, acceptedAt, ih, List.length_cons]
      simp [Event.accepts]

lemma any_accepts_traded (id : UInt64) (ts : List Trade) :
    (ts.map Event.traded).any (Event.accepts id) = false := by
  simp [Event.accepts]

/-- What the history of a run says of the orders that rest: each was accepted, with at least its
quantity, and those of a level queue in the order in which they were accepted. -/
structure Recorded (past : List Event) (b : OrderBook) : Prop where
  accepted : ∀ x ∈ b.restingOrders, ∃ o, Event.accepted o ∈ past ∧
    x = { o with quantity := x.quantity }
  queued : ∀ s, ∀ e ∈ (b.sideMap s).entries,
    e.2.Pairwise (fun x y => acceptedAt x.orderId past < acceptedAt y.orderId past)

lemma Recorded.any {past : List Event} {b : OrderBook} (h : Recorded past b) {x : Order}
    (hx : x ∈ b.restingOrders) : past.any (Event.accepts x.orderId) = true := by
  obtain ⟨o, ho, hxo⟩ := h.accepted x hx
  refine List.any_eq_true.mpr ⟨.accepted o, ho, ?_⟩
  rw [hxo]
  simp [Event.accepts]

/-- A relation that only binds orders of one price holds along a side if it holds along the
levels. -/
lemma flat_pairwise_iff {s : Side} (taker : Side) {m : PriceMap} (hok : SideOk s m)
    (R : Order → Order → Prop) :
    (flat taker m).Pairwise (fun x y => x.price = y.price → R x y) ↔
      ∀ e ∈ m.entries, e.2.Pairwise R := by
  have hprice : ∀ e ∈ m.entries, ∀ o ∈ e.2, o.price = e.1 := fun e he o ho =>
    ((hok e he).placed o ho).2.1
  rw [flat, List.pairwise_flatMap]
  constructor
  · rintro ⟨hlevels, -⟩ e he
    refine (hlevels e ((mem_levels taker).mpr he)).imp_of_mem (fun {x y} hx hy h => h ?_)
    rw [hprice e he x hx, hprice e he y hy]
  · refine fun h => ⟨fun e he => ?_, ?_⟩
    · refine (h e ((mem_levels taker).mp he)).imp (fun {x y} hxy => ?_)
      exact fun _ => hxy
    · refine (levels_distinct taker m).imp_of_mem (fun {e e'} he he' hne x hx y hy heq => ?_)
      rw [hprice e ((mem_levels taker).mp he) x hx,
        hprice e' ((mem_levels taker).mp he') y hy] at heq
      exact absurd heq hne

lemma Recorded.flat {past : List Event} {b : OrderBook} (h : Recorded past b) (hb : b.Inv)
    (s : Side) : (b.flatSide s).Pairwise (fun x y => x.price = y.price →
      acceptedAt x.orderId past < acceptedAt y.orderId past) :=
  (flat_pairwise_iff _ (hb.sideOk s) _).mpr (h.queued s)

lemma Recorded.added {past : List Event} {b b' : OrderBook} {order : Order} {ts : List Trade}
    (h : Recorded past b) (hb : b.Inv) (hid : order.orderId ∉ b.activeOrderIds)
    (hadded : Added b order (b.walkOf order) b') :
    Recorded (past ++ .accepted order :: ts.map .traded) b' := by
  have hnot : ∀ id, id ≠ order.orderId →
      (Event.accepted order :: ts.map Event.traded).any (Event.accepts id) = false := by
    intro id hne
    rw [List.any_cons, any_accepts_traded]
    simp [Event.accepts, Ne.symm hne]
  -- orders that rested before keep their place in the history
  have hkeep : ∀ x ∈ b.restingOrders,
      acceptedAt x.orderId (past ++ .accepted order :: ts.map .traded) =
        acceptedAt x.orderId past := by
    intro x hx
    refine acceptedAt_append_of_not (hnot _ ?_) past
    rintro heq
    exact hid (heq ▸ hb.active x hx)
  have hnew : acceptedAt order.orderId (past ++ .accepted order :: ts.map .traded) =
      past.length := acceptedAt_append_accepted (any_accepts_traded _ ts) past
  refine ⟨fun x hx => ?_, fun s => ?_⟩
  · rcases hadded.cases hx with ⟨-, rfl⟩ | hx | hx
    · exact ⟨order, by simp, rfl⟩
    · obtain ⟨o, ho, hxo⟩ := h.accepted x (mem_restingOrders.mpr ⟨_, hx⟩)
      exact ⟨o, List.mem_append_left _ ho, hxo⟩
    · obtain ⟨m, hm, hxm, -⟩ := mem_rest hx
      obtain ⟨o, ho, hmo⟩ := h.accepted m (mem_restingOrders.mpr ⟨_, hm⟩)
      refine ⟨o, List.mem_append_left _ ho, ?_⟩
      rw [hmo] at hxm
      exact hxm
  · rcases Side.eq_or_eq_opposite order.side s with rfl | rfl
    · intro e he
      rw [hadded.own] at he
      have hold : ∀ e ∈ (b.sideMap order.side).entries, e.2.Pairwise (fun x y =>
          acceptedAt x.orderId (past ++ .accepted order :: ts.map .traded) <
            acceptedAt y.orderId (past ++ .accepted order :: ts.map .traded)) := by
        intro e he
        refine (h.queued order.side e he).imp_of_mem (fun {x y} hx hy hxy => ?_)
        rwa [hkeep x (mem_restingOrders.mpr ⟨_, mem_flat.mpr ⟨e, he, hx⟩⟩),
          hkeep y (mem_restingOrders.mpr ⟨_, mem_flat.mpr ⟨e, he, hy⟩⟩)]
      split at he
      · rcases SortedMap.mem_upsert he with rfl | he
        · cases hget : (b.sideMap order.side).get? order.price with
          | none => simp
          | some q =>
              have hq := (SortedMap.get?_eq_some_iff _ _ _).mp hget
              refine List.pairwise_append.mpr ⟨hold _ hq, by simp, fun x hx y hy => ?_⟩
              have hx' : x ∈ b.restingOrders :=
                mem_restingOrders.mpr ⟨_, mem_flat.mpr ⟨_, hq, hx⟩⟩
              rw [List.mem_singleton.mp hy, hkeep x hx', hnew]
              exact acceptedAt_lt (h.any hx')
        · exact hold e he
      · exact hold e he
    · -- the walk leaves a suffix, with the ids and the prices as they were
      refine (flat_pairwise_iff order.side hadded.sideOk_opposite _).mp ?_
      rw [show OrderBook.flat order.side (b'.sideMap order.side.opposite) =
        (b.walkOf order).rest by
          rw [← hadded.flat_opposite, flatSide, Side.opposite_opposite]]
      have hbefore := (h.flat hb order.side.opposite).imp_of_mem
        (fun {x y} hx hy hxy => by
          rwa [← hkeep x (mem_restingOrders.mpr ⟨_, hx⟩),
            ← hkeep y (mem_restingOrders.mpr ⟨_, hy⟩)] at hxy)
      have hkeys := map_rest_suffix (fun o : Order => (o.price, o.orderId)) (fun _ _ => rfl)
        order.side order.price order.quantity (b.flatSide order.side.opposite)
      have hmap : ((b.flatSide order.side.opposite).map (fun o => (o.price, o.orderId))).Pairwise
          (fun x y => x.1 = y.1 →
            acceptedAt x.2 (past ++ .accepted order :: ts.map .traded) <
              acceptedAt y.2 (past ++ .accepted order :: ts.map .traded)) :=
        List.pairwise_map.mpr hbefore
      rw [hkeys] at hmap
      exact List.pairwise_map.mp (List.pairwise_append.mp hmap).2.1

/-- **One call keeps the record.** -/
lemma Recorded.step {past events : List Event} {b b' : OrderBook} {c : Call}
    (h : Recorded past b) (hb : b.Inv) (heff : Effect b c events b') :
    Recorded (past ++ events) b' := by
  cases heff with
  | accepted order tradeIdGen timestamp _ hid hadded => exact h.added hb hid hadded
  | cancelled o _ ho hremoved =>
      have hnot : ∀ id, acceptedAt id (past ++ [.cancelled o]) = acceptedAt id past :=
        fun id => acceptedAt_append_of_not (by simp [Event.accepts]) past
      refine ⟨fun x hx => ?_, fun s e he => ?_⟩
      · obtain ⟨o', ho', hxo⟩ := h.accepted x
          (hremoved.perm.mem_iff.mpr (List.mem_cons_of_mem _ hx))
        exact ⟨o', List.mem_append_left _ ho', hxo⟩
      · obtain ⟨-, q, hq, hsub⟩ := hb.removed_level hremoved he
        simp only [hnot]
        exact (h.queued s _ hq).sublist hsub
  | refused _ _ hsides _ =>
      rw [List.append_nil]
      refine ⟨?_, fun s => ?_⟩
      · rw [restingOrders_congr hsides]
        exact h.accepted
      · rw [hsides s]
        exact h.queued s

lemma recorded_run (symbolId : UInt32) (calls : List Call) :
    Recorded ((new symbolId).history calls) (machine.run (new symbolId) calls) := by
  induction calls using List.reverseRecOn with
  | nil =>
      refine ⟨fun x hx => absurd hx (List.not_mem_nil), fun s e he => ?_⟩
      cases s <;> exact absurd he (List.not_mem_nil)
  | append_singleton calls c ih =>
      have hinv : (machine.run (new symbolId) calls).Inv := inv_run symbolId calls
      rw [history_concat, Machine.run_append]
      exact ih.step hinv (effect_step hinv c)

/-! ## Limits -/

/-- The trade is between a buy and a sell order the history accepts, for a positive quantity, at
a price that is the limit of one of them and no worse than the limit of the other. -/
def WithinLimits (past : List Event) (t : Trade) : Prop :=
  ∃ buy sell : Order, Event.accepted buy ∈ past ∧ Event.accepted sell ∈ past ∧
    buy.side = .buy ∧ sell.side = .sell ∧
    t.buyOrderId = buy.orderId ∧ t.sellOrderId = sell.orderId ∧
    t.buyUserId = buy.userId ∧ t.sellUserId = sell.userId ∧
    sell.price ≤ t.price ∧ t.price ≤ buy.price ∧ (t.price = sell.price ∨ t.price = buy.price) ∧
    0 < t.quantity

/-- A trade of a walk carries the ids of its two orders. -/
lemma mem_trades_ids {taker : Order} {timestamp : UInt64} {g : FastUlidHalfGen} {seq : UInt64}
    {fs : List (Order × UInt64)} {t : Trade} (ht : t ∈ trades taker timestamp g seq fs) :
    ∃ f ∈ fs, t.price = f.1.price ∧ t.quantity = f.2 ∧
      t.buyOrderId = (buyer taker f.1).orderId ∧ t.sellOrderId = (seller taker f.1).orderId ∧
      t.buyUserId = (buyer taker f.1).userId ∧ t.sellUserId = (seller taker f.1).userId := by
  induction fs generalizing g seq with
  | nil => simp [trades] at ht
  | cons f fs ih =>
      obtain ⟨m, q⟩ := f
      rcases List.mem_cons.mp ht with rfl | ht
      · exact ⟨(m, q), List.mem_cons_self .., rfl, rfl, rfl, rfl, rfl, rfl⟩
      · obtain ⟨f, hf, hprops⟩ := ih ht
        exact ⟨f, List.mem_cons_of_mem _ hf, hprops⟩

lemma Recorded.withinLimits {past : List Event} {b : OrderBook} {order : Order}
    {timestamp seq : UInt64} {g : FastUlidHalfGen} {t : Trade} (h : Recorded past b) (hb : b.Inv)
    (ht : t ∈ trades order timestamp g seq (b.walkOf order).fills)
    {past' : List Event} (hsub : past ⊆ past') (horder : Event.accepted order ∈ past') :
    WithinLimits past' t := by
  obtain ⟨⟨m, q⟩, hf, hprice, hqty, hbuy, hsell, hbuyer, hseller⟩ := mem_trades_ids ht
  obtain ⟨hm, hcross, -, -⟩ := mem_fills hf
  have hpos : 0 < q := by
    refine fills_pos (fun x hx => ?_) (m, q) hf
    obtain ⟨e, he, hxe⟩ := mem_flat.mp hx
    exact ((hb.sideOk _ e he).placed x hxe).2.2
  have hside := hb.side_eq hm
  obtain ⟨o, ho, hmo⟩ := h.accepted m (mem_restingOrders.mpr ⟨_, hm⟩)
  have hfields : o.orderId = m.orderId ∧ o.userId = m.userId ∧ o.side = m.side ∧
      o.price = m.price := by
    rw [hmo]
    exact ⟨rfl, rfl, rfl, rfl⟩
  obtain ⟨hoid, houser, hoside, hoprice⟩ := hfields
  simp only at hprice hqty hbuy hsell hbuyer hseller hcross
  cases hs : order.side with
  | buy =>
      rw [buyer_of_buy hs, seller_of_buy hs] at *
      rw [hs] at hcross hside
      refine ⟨order, o, horder, hsub ho, hs, hoside.trans hside, hbuy, by rw [hsell, hoid],
        hbuyer, by rw [hseller, houser], ?_, ?_, Or.inl (by rw [hprice, hoprice]), hqty ▸ hpos⟩
      · rw [hprice, hoprice]
      · rw [hprice]
        exact hcross
  | sell =>
      rw [buyer_of_sell hs, seller_of_sell hs] at *
      rw [hs] at hcross hside
      refine ⟨o, order, hsub ho, horder, hoside.trans hside, hs, by rw [hbuy, hoid], hsell,
        by rw [hbuyer, houser], hseller, ?_, ?_, Or.inr (by rw [hprice, hoprice]), hqty ▸ hpos⟩
      · rw [hprice]
        exact hcross
      · rw [hprice, hoprice]

/-- **Every trade is within the limits of two accepted orders.**  Wherever a trade stands in the
history of a run, the buy and the sell order it names, with their users, were accepted before it,
and it is executed at the limit of the one that rested, which is no worse than the limit of the
other. -/
theorem trades_within_limits (symbolId : UInt32) (calls : List Call) (past later : List Event)
    (t : Trade) (h : (new symbolId).history calls = past ++ .traded t :: later) :
    WithinLimits past t := by
  induction calls using List.reverseRecOn generalizing later with
  | nil => simp [history] at h
  | append_singleton calls c ih =>
      have hinv : (machine.run (new symbolId) calls).Inv := inv_run symbolId calls
      have hrec := recorded_run symbolId calls
      rw [history_concat] at h
      rcases List.append_eq_append_iff.mp h with ⟨past', rfl, hevents⟩ | ⟨later', hold, hlater⟩
      · -- the trade is of the last call, so that its order was accepted first
        have heff := effect_step hinv c
        rw [hevents] at heff
        generalize hes : past' ++ Event.traded t :: later = events at heff
        cases heff with
        | accepted order tradeIdGen timestamp _ hid hadded =>
            cases past' with
            | nil => simp at hes
            | cons e past' =>
                obtain ⟨rfl, htrades⟩ := List.cons.inj hes
                have ht : Event.traded t ∈ (trades order timestamp tradeIdGen
                    (machine.run (new symbolId) calls).matchSeq
                    ((machine.run (new symbolId) calls).walkOf order).fills).map Event.traded :=
                  htrades ▸ List.mem_append_right _ (List.mem_cons_self ..)
                obtain ⟨t', ht', heq⟩ := List.mem_map.mp ht
                obtain rfl := Event.traded.inj heq
                exact hrec.withinLimits hinv ht' (List.subset_append_left _ _) (by simp)
        | cancelled o _ ho hremoved =>
            cases past' <;> simp at hes
        | refused _ _ _ _ => simp at hes
      · cases later' with
        | nil =>
            -- the trade would head the events of the last call, which start with an acceptance
            rw [List.nil_append] at hlater
            have heff := effect_step hinv c
            rw [← hlater] at heff
            generalize hes : Event.traded t :: later = events at heff
            cases heff <;> simp at hes
        | cons e later' =>
            obtain ⟨rfl, rfl⟩ := List.cons.inj hlater
            exact ih later' hold

theorem trades_within_limits_partial_fill :
    ∃ t, WithinLimits [.accepted (plainOrder 1 10 .sell 100 5),
      .accepted (plainOrder 2 11 .buy 101 3)] t :=
  ⟨_, trades_within_limits 1 [.add (plainOrder 1 10 .sell 100 5) .new 0,
    .add (plainOrder 2 11 .buy 101 3) .new 0] _ [] _ rfl⟩

/-! ## Priority -/

/-- A price that is strictly better for the orders of a side. -/
def Better : Side → UInt64 → UInt64 → Prop
  | .buy, p, q => q < p
  | .sell, p, q => p < q

/-- `x` comes before `y` on a side: at a better price, or at the same price and accepted
earlier. -/
def Ahead (past : List Event) (s : Side) (x y : Order) : Prop :=
  Better s x.price y.price ∨
    x.price = y.price ∧ acceptedAt x.orderId past < acceptedAt y.orderId past

lemma Ahead.asymm {past : List Event} {s : Side} {x y : Order} (h : Ahead past s x y) :
    ¬Ahead past s y x := by
  have hbetter : ∀ {p q}, Better s p q → ¬Better s q p ∧ p ≠ q := by
    intro p q hpq
    cases s
    · exact ⟨not_lt.mpr (le_of_lt hpq), ne_of_gt hpq⟩
    · exact ⟨not_lt.mpr (le_of_lt hpq), ne_of_lt hpq⟩
  rintro (h' | ⟨heq, hlt⟩)
  · rcases h with h | ⟨heq, -⟩
    · exact (hbetter h).1 h'
    · exact (hbetter h').2 heq.symm
  · rcases h with h | ⟨-, hlt'⟩
    · exact (hbetter h).2 heq.symm
    · exact absurd hlt (not_lt.mpr hlt'.le)

/-- The orders of a side rest in the order of their priority. -/
lemma Recorded.flat_ahead {past : List Event} {b : OrderBook} (h : Recorded past b) (hb : b.Inv)
    (s : Side) : (b.flatSide s).Pairwise (Ahead past s) := by
  have hprice : (b.flatSide s).Pairwise (fun x y => x.price = y.price ∨
      Better s x.price y.price) := by
    have hsorted := flat_crossing_first s.opposite (hb.sideOk s)
    refine List.pairwise_iff_getElem.mpr (fun i j hi hj hij => ?_)
    have hcross := List.pairwise_iff_getElem.mp (hsorted (b.flatSide s)[j].price) i j hi hj hij
    have hself : ∀ (t : Side) (p : UInt64), Crosses t p p := fun t p => by
      cases t <;> exact le_refl p
    have := hcross (hself _ _)
    change (b.flatSide s)[i].price = (b.flatSide s)[j].price ∨ _
    cases s
    · exact (eq_or_lt_of_le (show (b.flatSide .buy)[j].price ≤ (b.flatSide .buy)[i].price
        from this)).imp_left Eq.symm
    · exact eq_or_lt_of_le (show (b.flatSide .sell)[i].price ≤ (b.flatSide .sell)[j].price
        from this)
  refine (hprice.and (h.flat hb s)).imp (fun {x y} hxy => ?_)
  rcases hxy with ⟨heq | hlt, hat⟩
  · exact Or.inr ⟨heq, hat heq⟩
  · exact Or.inl hlt

/-- A walk fills the makers it uses up completely, and at most one more, the first of those that
are left. -/
lemma walk_fills (side : Side) (limit r : UInt64) (ms : List Order) :
    ∃ suffix last, ms = (walk side limit r ms).consumed ++ suffix ∧
      (walk side limit r ms).fills =
        (walk side limit r ms).consumed.map (fun m => (m, m.quantity)) ++ last ∧
      (last = [] ∨ ∃ m q tail, suffix = m :: tail ∧ last = [(m, q)]) := by
  induction r, ms using walk_induction side limit with
  | nil r => exact ⟨[], [], rfl, rfl, Or.inl rfl⟩
  | stop r m ms h =>
      rw [walk_cons_stop h]
      exact ⟨m :: ms, [], rfl, rfl, Or.inl rfl⟩
  | part r m ms h hq =>
      rw [walk_cons_split h hq]
      exact ⟨m :: ms, [(m, r)], rfl, rfl, Or.inr ⟨m, r, ms, rfl, rfl⟩⟩
  | full r m ms h hq ih =>
      obtain ⟨suffix, last, hms, hfills, hlast⟩ := ih
      rw [walk_cons_full h hq]
      refine ⟨suffix, last, ?_, ?_, hlast⟩
      · rw [List.cons_append, ← hms]
      · rw [hfills]
        rfl

/-- No maker is filled twice. -/
lemma nodup_fills {side : Side} {limit r : UInt64} {ms : List Order}
    (h : (ms.map Order.orderId).Nodup) :
    ((walk side limit r ms).fills.map (fun f => f.1.orderId)).Nodup := by
  obtain ⟨suffix, last, hms, hfills, hlast⟩ := walk_fills side limit r ms
  refine List.Nodup.sublist ?_ h
  rw [hfills]
  conv_rhs => rw [hms]
  rw [List.map_append, List.map_append, List.map_map]
  refine (List.Sublist.refl _).append ?_
  rcases hlast with rfl | ⟨m, q, tail, rfl, rfl⟩
  · exact List.nil_sublist _
  · exact (List.nil_sublist _).cons_cons _

/-- A walk that reaches a maker has used up every maker that comes before it. -/
lemma consumed_of_before {R : Order → Order → Prop} (hasymm : ∀ {x y}, R x y → ¬R y x)
    {side : Side} {limit r : UInt64} {ms : List Order} (hms : ms.Pairwise R) {x y : Order}
    {q : UInt64} (hx : x ∈ ms) (hxy : R x y) (hy : (y, q) ∈ (walk side limit r ms).fills) :
    x ∈ (walk side limit r ms).consumed := by
  obtain ⟨suffix, last, hsplit, hfills, hlast⟩ := walk_fills side limit r ms
  rw [hsplit] at hx hms
  rw [hfills] at hy
  obtain ⟨-, hsuffix, hacross⟩ := List.pairwise_append.mp hms
  refine (List.mem_append.mp hx).resolve_right (fun hx => ?_)
  rcases List.mem_append.mp hy with hy | hy
  · obtain ⟨y', hy', heq⟩ := List.mem_map.mp hy
    obtain ⟨rfl, -⟩ := Prod.mk.inj heq
    exact hasymm hxy (hacross y' hy' x hx)
  · rcases hlast with rfl | ⟨m, q', tail, rfl, rfl⟩
    · exact absurd hy (List.not_mem_nil)
    · obtain ⟨rfl, -⟩ := Prod.mk.inj (List.mem_singleton.mp hy)
      rcases List.mem_cons.mp hx with rfl | hx
      · exact hasymm hxy hxy
      · exact hasymm hxy ((List.pairwise_cons.mp hsuffix).1 x hx)

/-- Where every id occurs once, an id collects its own fill. -/
lemma sum_weightOf {fs : List (Order × UInt64)} (h : (fs.map (fun f => f.1.orderId)).Nodup)
    {f : Order × UInt64} (hf : f ∈ fs) :
    (fs.map (fun g => weightOf f.1.orderId g.1 g.2.toNat)).sum = f.2.toNat := by
  induction fs with
  | nil => simp at hf
  | cons g fs ih =>
      obtain ⟨hnot, hnodup⟩ := List.nodup_cons.mp h
      rw [List.map_cons, List.sum_cons]
      rcases List.mem_cons.mp hf with rfl | hf
      · have hzero : (fs.map (fun g => weightOf f.1.orderId g.1 g.2.toNat)).sum = 0 := by
          refine List.sum_eq_zero (fun n hn => ?_)
          obtain ⟨g, hg, rfl⟩ := List.mem_map.mp hn
          have hne : g.1.orderId ≠ f.1.orderId := fun heq =>
            hnot (List.mem_map.mpr ⟨g, hg, heq⟩)
          rw [weightOf, if_neg hne]
        rw [hzero, weightOf, if_pos rfl, add_zero]
      · have hne : g.1.orderId ≠ f.1.orderId := fun heq =>
          hnot (List.mem_map.mpr ⟨f, hf, heq.symm⟩)
        rw [weightOf, if_neg hne, zero_add, ih hnodup hf]

/-- **Price and time priority over a run.**  Of two orders that rest on one side after a run, let
`x` be at a better price, or at the same price and accepted before `y`.  In every call in which
`y` trades, `x` is executed for all that is left of it and rests no more. -/
theorem priority_kept (symbolId : UInt32) (calls : List Call) (c : Call) (s : Side) (x y : Order)
    (hx : x ∈ (machine.run (new symbolId) calls).flatSide s)
    (hy : y ∈ (machine.run (new symbolId) calls).flatSide s)
    (hahead : Ahead ((new symbolId).history calls) s x y)
    (htrades : 0 < total (Event.executedFor y.orderId)
      ((machine.run (new symbolId) calls).eventsOf c)) :
    total (Event.executedFor x.orderId) ((machine.run (new symbolId) calls).eventsOf c) =
        x.quantity.toNat ∧
      ¬(machine.run (new symbolId) (calls ++ [c])).Rests x.orderId := by
  have hinv : (machine.run (new symbolId) calls).Inv := inv_run symbolId calls
  have hrec := recorded_run symbolId calls
  have heff := effect_step hinv c
  rw [Machine.run_append]
  change _ ∧ ¬(machine.step (machine.run (new symbolId) calls) c).1.Rests x.orderId
  generalize hb : machine.run (new symbolId) calls = b at *
  generalize b.eventsOf c = events at *
  generalize (machine.step b c).1 = b' at *
  cases heff with
  | cancelled o _ ho hremoved => simp [Event.executedFor] at htrades
  | refused _ _ _ _ => simp at htrades
  | accepted order tradeIdGen timestamp _ hid hadded =>
      rw [total_cons, total_executed_trades] at htrades ⊢
      have htaker : ∀ z ∈ b.restingOrders, weightOf z.orderId order
          (filled (b.walkOf order).fills) = 0 := by
        intro z hz
        rw [weightOf, if_neg]
        intro heq
        exact hid (heq ▸ hinv.active z hz)
      have hxr : x ∈ b.restingOrders := mem_restingOrders.mpr ⟨s, hx⟩
      have hyr : y ∈ b.restingOrders := mem_restingOrders.mpr ⟨s, hy⟩
      simp only [htaker x hxr, htaker y hyr, Event.executedFor, Nat.zero_add] at htrades ⊢
      -- `y` is one of the makers that were filled, so that both rest on the opposite side
      obtain ⟨f, hf, hfid⟩ : ∃ f ∈ (b.walkOf order).fills, f.1.orderId = y.orderId := by
        by_contra hnone
        refine absurd (List.sum_eq_zero (fun n hn => ?_)) (ne_of_gt htrades)
        obtain ⟨f, hf, rfl⟩ := List.mem_map.mp hn
        rw [weightOf, if_neg (fun heq => hnone ⟨f, hf, heq⟩)]
      obtain ⟨hfmem, -⟩ := mem_fills hf
      obtain ⟨m, q⟩ := f
      obtain rfl : m = y := hinv.eq_of_orderId (mem_restingOrders.mpr ⟨_, hfmem⟩) hyr hfid
      obtain rfl : s = order.side.opposite := (hinv.side_eq hy).symm.trans (hinv.side_eq hfmem)
      have hconsumed : x ∈ (b.walkOf order).consumed :=
        consumed_of_before Ahead.asymm (hrec.flat_ahead hinv _) hx hahead hf
      have hfill : (x, x.quantity) ∈ (b.walkOf order).fills := by
        obtain ⟨suffix, last, -, hfills, -⟩ := walk_fills order.side order.price
          order.quantity (b.flatSide order.side.opposite)
        rw [walkOf, hfills]
        exact List.mem_append_left _ (List.mem_map_of_mem hconsumed)
      have hnodup : ((b.flatSide order.side.opposite).map Order.orderId).Nodup := by
        have hall := ((b.restingOrders_perm order.side).map Order.orderId).nodup_iff.mp hinv.nodup
        rw [List.map_append] at hall
        exact (List.nodup_append'.mp hall).2.1
      refine ⟨sum_weightOf (nodup_fills hnodup) hfill, ?_⟩
      rintro ⟨o, ho, hoid⟩
      exact (hinv.added_bookkeeping hadded hid ho).1 (hoid ▸ List.mem_map_of_mem hconsumed)

/-- Two sells of one price: the second only trades once the first is used up. -/
theorem priority_kept_two_sells :
    let calls : List Call := [.add (plainOrder 1 10 .sell 100 5) .new 0,
      .add (plainOrder 2 11 .sell 100 4) .new 0]
    total (Event.executedFor 1) ((machine.run (new 1) calls).eventsOf
        (.add (plainOrder 3 12 .buy 100 7) .new 0)) = 5 ∧
      ¬(machine.run (new 1) (calls ++ [.add (plainOrder 3 12 .buy 100 7) .new 0])).Rests 1 := by
  intro calls
  exact priority_kept 1 calls (.add (plainOrder 3 12 .buy 100 7) .new 0) .sell
    (plainOrder 1 10 .sell 100 5) (plainOrder 2 11 .sell 100 4) (by decide) (by decide)
    (Or.inr ⟨rfl, by decide⟩) (by decide)

end OrderBook

end ExchangeCore
