import ExchangeCore.Server.Matcher

/-!
# What the server does with deliveries

Two results about the deduplication of the matching server.

* `cancel_leaves_resting`: placements and cancellations share one key space.  An order can only
  rest because its id was marked when it was placed, so as long as nothing is evicted every
  cancellation of a resting order is dropped as a duplicate, the first one included.
* `handed_nodup_iff`: the poll loop publishes its batches without a timestamp, so the cut-off by
  timestamp never applies, and an order id is handed to the engine again as soon as
  `MAX_TRACKED_OFFSETS` other ids have pushed it out of the deduplicator.

Both follow the history of the ids marked: `Remembers` for the first, where nothing is evicted and
the history is the set of ids seen, and `RecentWindow.accepted` for the second.
-/

namespace ExchangeCore

open MatchingEngine RecentWindow MessageDeduplicator

/-- The order ids an event names. -/
def OrderEvent.orderIds (event : OrderEvent) : List UInt64 :=
  match event.command with
  | some (.placeOrderBatch batch) => batch.map OrderRequest.orderId
  | some (.cancelOrder _ orderId) => [orderId]
  | _ => []

namespace Matcher

/-! ## Cancelling a resting order -/

/-- The engine's resting orders are all in the history of the ids marked, and the history is
remembered completely. -/
structure Remembers (m : Matcher) (ids : List UInt64) : Prop where
  engine : EngineInv m.engine
  tracks : Tracks m.msgDedup ids
  nodup : ids.Nodup
  resting : EachBook m.engine (fun b => ∀ o ∈ b.restingOrders, o.orderId ∈ ids)

/-- A history that fits is remembered completely. -/
lemma rtake_of_subset {ids : List UInt64} {seen : Finset UInt64} (hnodup : ids.Nodup)
    (hseen : ∀ id ∈ ids, id ∈ seen) (hcard : seen.card < MAX_TRACKED_OFFSETS) :
    ids.rtake MAX_TRACKED_OFFSETS = ids := by
  have hle : ids.length ≤ seen.card := by
    rw [← List.toFinset_card_of_nodup hnodup]
    exact Finset.card_le_card (fun id hid => hseen id (List.mem_toFinset.mp hid))
  rw [List.rtake, Nat.sub_eq_zero_of_le (by omega), List.drop_zero]

namespace Remembers

variable {m : Matcher} {ids : List UInt64} {seen : Finset UInt64}

lemma new (symbols : List (UInt32 × (UInt32 × UInt32))) : Remembers (Matcher.new symbols) [] := by
  have hfold : ∀ me, EngineInv me → EachBook me (fun b => ∀ o ∈ b.restingOrders, o.orderId ∈ []) →
      EngineInv (symbols.foldl (fun me s => (me.registerSymbol s.1 s.2).2) me) ∧
        EachBook (symbols.foldl (fun me s => (me.registerSymbol s.1 s.2).2) me)
          (fun b => ∀ o ∈ b.restingOrders, o.orderId ∈ []) := by
    induction symbols with
    | nil => exact fun _ h₁ h₂ => ⟨h₁, h₂⟩
    | cons s symbols ih =>
        exact fun me h₁ h₂ => ih _ (h₁.registerSymbol s.1 s.2) (h₂.registerSymbol s.2 (by simp))
  obtain ⟨hengine, hresting⟩ := hfold _ (EngineInv.new false) (EachBook.new false)
  exact ⟨hengine, Tracks.new, List.nodup_nil, hresting⟩

/-- The duplicates are the ids of the history. -/
lemma isDuplicate_iff (h : Remembers m ids) (hseen : ∀ id ∈ ids, id ∈ seen)
    (hcard : seen.card < MAX_TRACKED_OFFSETS) (id : UInt64) :
    m.msgDedup.isDuplicate id.toInt64 = true ↔ id ∈ ids := by
  rw [h.tracks.isDuplicate_iff, rtake_of_subset h.nodup hseen hcard]

lemma mark (h : Remembers m ids) (hseen : ∀ id ∈ ids, id ∈ seen)
    (hcard : seen.card < MAX_TRACKED_OFFSETS) {id : UInt64} (hid : id ∉ ids) (ts : UInt64)
    {me' : MatchingEngine} (hengine : EngineInv me')
    (hresting : EachBook me' (fun b => ∀ o ∈ b.restingOrders, o.orderId ∈ ids ++ [id])) :
    Remembers ⟨me', m.msgDedup.markProcessed id.toInt64 ts⟩ (ids ++ [id]) where
  engine := hengine
  tracks := h.tracks.markProcessed (by rwa [rtake_of_subset h.nodup hseen hcard]) ts
  nodup := by
    rw [← List.concat_eq_append]
    exact h.nodup.concat hid
  resting := hresting

lemma resting_placed (env : Externals) (inputSeq : UInt64) (req : OrderRequest)
    (clientOrderId : String) (h : Remembers m ids) :
    EachBook (m.engine.addOrderAndBuildOutput env .healthy inputSeq req clientOrderId).2
      (fun b => ∀ o ∈ b.restingOrders, o.orderId ∈ ids ++ [req.orderId]) := by
  have hold :
      EachBook m.engine (fun b => ∀ o ∈ b.restingOrders, o.orderId ∈ ids ++ [req.orderId]) :=
    fun s b hb o ho => List.mem_append_left _ (h.resting s b hb o ho)
  have hp := placement_addOrderAndBuildOutput h.engine env .healthy inputSeq req clientOrderId
  generalize (m.engine.addOrderAndBuildOutput env .healthy inputSeq req clientOrderId).1 = r at hp
  generalize (m.engine.addOrderAndBuildOutput env .healthy inputSeq req clientOrderId).2 = me' at hp
  cases hp with
  | refused _ _ => exact hold
  | duplicate _ _ _ _ _ _ _ => exact hold
  | accepted _ book book' _ _ _ _ _ hbook _ hadded _ _ _ =>
      refine hold.withBook hbook ?_ rfl
      exact hadded.forall_resting (fun o q _ ho => ho)
        (List.mem_append_right _ (List.mem_singleton_self _)) (hold _ _ hbook)

/-- A cancellation leaves no order that was not there. -/
lemma resting_cancelled (env : Externals) (symbolId : UInt32) (orderId : UInt64)
    (h : Remembers m ids) :
    EachBook (m.engine.cancelOrder env .healthy symbolId orderId).2
      (fun b => ∀ o ∈ b.restingOrders, o.orderId ∈ ids) := by
  have hc := cancellation_cancelOrder h.engine env .healthy symbolId orderId
  generalize (m.engine.cancelOrder env .healthy symbolId orderId).1 = r at hc
  generalize (m.engine.cancelOrder env .healthy symbolId orderId).2 = me' at hc
  cases hc with
  | refused _ => exact h.resting
  | notFound _ s book hbook _ =>
      have hforget : ∀ o ∈ (book.forget orderId).restingOrders, o.orderId ∈ ids :=
        fun o ho => h.resting s book hbook o ho
      exact h.resting.withBook hbook hforget rfl
  | cancelled s _ book book' o _ _ _ _ hbook _ _ _ hremoved =>
      refine h.resting.withBook hbook (fun o' ho' => h.resting s book hbook o' ?_) rfl
      exact hremoved.perm.mem_iff.mpr (List.mem_cons_of_mem _ ho')

/-- A batch adds the ids it marks to the history. -/
lemma batch (env : Externals) (msgTs : UInt64) (reqs : List OrderRequest)
    (hcard : seen.card < MAX_TRACKED_OFFSETS) :
    ∀ {loop : BatchLoop} {ids : List UInt64}, Remembers loop.matcher ids →
      (∀ id ∈ ids, id ∈ seen) → (∀ req ∈ reqs, req.orderId ∈ seen) →
      ∃ ids', Remembers (reqs.foldl (placeOne env msgTs) loop).matcher ids' ∧
        ∀ id ∈ ids', id ∈ seen := by
  induction reqs with
  | nil => exact fun {loop ids} h hseen _ => ⟨ids, h, hseen⟩
  | cons req reqs ih =>
      intro loop ids h hseen hreqs
      have hreq := hreqs req (List.mem_cons_self ..)
      have hrest := fun r hr => hreqs r (List.mem_cons_of_mem req hr)
      rw [List.foldl_cons]
      by_cases hdup : loop.matcher.msgDedup.isDuplicate req.orderId.toInt64 = true
      · rw [show placeOne env msgTs loop req = loop from if_pos hdup]
        exact ih h hseen hrest
      · have hid : req.orderId ∉ ids := fun hmem =>
          hdup ((h.isDuplicate_iff hseen hcard req.orderId).mpr hmem)
        have hnext : Remembers (placeOne env msgTs loop req).matcher (ids ++ [req.orderId]) := by
          rw [placeOne, if_neg hdup]
          exact h.mark hseen hcard hid msgTs
            (h.engine.placement (placement_addOrderAndBuildOutput h.engine env .healthy _ req _))
            (h.resting_placed env _ req _)
        refine ih hnext (fun id hmem => ?_) hrest
        rcases List.mem_append.mp hmem with hmem | hmem
        · exact hseen id hmem
        · rw [List.mem_singleton.mp hmem]
          exact hreq

end Remembers

lemma remembers_handle (env : Externals) {m : Matcher} {event : OrderEvent} {ids : List UInt64}
    {seen : Finset UInt64} (hcard : seen.card < MAX_TRACKED_OFFSETS) (h : Remembers m ids)
    (hseen : ∀ id ∈ ids, id ∈ seen) (hevent : ∀ id ∈ event.orderIds, id ∈ seen) :
    ∃ ids', Remembers (handle env m event).1 ids' ∧ ∀ id ∈ ids', id ∈ seen := by
  obtain ⟨command, ts⟩ := event
  by_cases hout : m.msgDedup.isOutsideTrackedWindow ts = true
  · rw [show handle env m ⟨command, ts⟩ = (m, .none) from if_pos hout]
    exact ⟨ids, h, hseen⟩
  rcases command with _ | ⟨batch⟩ | ⟨symbolId, orderId⟩ | _ <;> simp only [handle, if_neg hout]
  · exact ⟨ids, h, hseen⟩
  · refine Remembers.batch env ts batch hcard h hseen ?_
    exact fun req hreq => hevent req.orderId (List.mem_map_of_mem hreq)
  · split
    · exact ⟨ids, h, hseen⟩
    · rename_i hdup
      have hid : orderId ∉ ids := fun hmem =>
        hdup ((h.isDuplicate_iff hseen hcard orderId).mpr hmem)
      have hresting : EachBook (m.engine.cancelOrder env .healthy symbolId orderId).2
          (fun b => ∀ o ∈ b.restingOrders, o.orderId ∈ ids ++ [orderId]) := fun s b hb o ho =>
        List.mem_append_left _ (h.resting_cancelled env symbolId orderId s b hb o ho)
      refine ⟨ids ++ [orderId], h.mark hseen hcard hid ts
        (h.engine.cancellation (cancellation_cancelOrder h.engine env .healthy symbolId orderId))
        hresting, fun id hmem => ?_⟩
      rcases List.mem_append.mp hmem with hmem | hmem
      · exact hseen id hmem
      · exact hevent id hmem
  · exact ⟨ids, h, hseen⟩

lemma remembers_run (env : Externals) (events : List OrderEvent) {seen : Finset UInt64}
    (hcard : seen.card < MAX_TRACKED_OFFSETS) :
    ∀ {m : Matcher} {ids : List UInt64}, Remembers m ids → (∀ id ∈ ids, id ∈ seen) →
      (∀ event ∈ events, ∀ id ∈ event.orderIds, id ∈ seen) →
      ∃ ids', Remembers ((machine env).run m events) ids' ∧ ∀ id ∈ ids', id ∈ seen := by
  induction events with
  | nil => exact fun {m ids} h hseen _ => ⟨ids, h, hseen⟩
  | cons event events ih =>
      intro m ids h hseen hevents
      obtain ⟨ids', h', hseen'⟩ :=
        remembers_handle env hcard h hseen (hevents event (List.mem_cons_self ..))
      exact ih h' hseen' (fun e he => hevents e (List.mem_cons_of_mem event he))

/-- The order rests in the book of the symbol. -/
def Rests (m : Matcher) (symbolId : UInt32) (orderId : UInt64) : Prop :=
  ∃ b, bookAt m.engine.orderBooks symbolId = some b ∧ b.Rests orderId

lemma handle_cancel_of_rests (env : Externals) {m : Matcher} {ids : List UInt64}
    {seen : Finset UInt64} (hcard : seen.card < MAX_TRACKED_OFFSETS) (h : Remembers m ids)
    (hseen : ∀ id ∈ ids, id ∈ seen) {symbolId : UInt32} {orderId : UInt64}
    (hrests : m.Rests symbolId orderId) (ts : UInt64) :
    (handle env m ⟨some (.cancelOrder symbolId orderId), ts⟩).1 = m := by
  obtain ⟨b, hb, o, ho, rfl⟩ := hrests
  have hdup := (h.isDuplicate_iff hseen hcard o.orderId).mpr (h.resting symbolId b hb o ho)
  by_cases hout : m.msgDedup.isOutsideTrackedWindow ts = true
  · simp only [handle, if_pos hout]
  · simp only [handle, if_neg hout, if_pos hdup]

/-- The event of a command to cancel an order. -/
def cancelEvent (symbolId : UInt32) (orderId ts : UInt64) : OrderEvent :=
  ⟨some (.cancelOrder symbolId orderId), ts⟩

lemma run_cancel_of_rests (env : Externals) (symbols : List (UInt32 × (UInt32 × UInt32)))
    (events : List OrderEvent) (ts : UInt64) {symbolId : UInt32} {orderId : UInt64}
    (hcard : ((events ++ [cancelEvent symbolId orderId ts]).flatMap
      OrderEvent.orderIds).toFinset.card < MAX_TRACKED_OFFSETS)
    (hrests : ((machine env).run (new symbols) events).Rests symbolId orderId) :
    (machine env).run (new symbols) (events ++ [cancelEvent symbolId orderId ts]) =
      (machine env).run (new symbols) events := by
  obtain ⟨ids, h, hseen⟩ := remembers_run env events hcard (Remembers.new symbols) (by simp)
    (fun event he id hid => List.mem_toFinset.mpr (List.mem_flatMap.mpr
      ⟨event, List.mem_append_left _ he, hid⟩))
  rw [Machine.run_append]
  exact handle_cancel_of_rests env hcard h hseen hrests ts

/-- **No cancellation removes a resting order.**  Take any run of the matcher over any commands
that name fewer than `MAX_TRACKED_OFFSETS` ids, so that nothing is evicted.  If an order rests
then, it still rests after a command to cancel it. -/
theorem cancel_leaves_resting (env : Externals) (symbols : List (UInt32 × (UInt32 × UInt32)))
    (events : List OrderEvent) (ts : UInt64) (symbolId : UInt32) (orderId : UInt64)
    (hcard : ((events ++ [cancelEvent symbolId orderId ts]).flatMap
      OrderEvent.orderIds).toFinset.card < MAX_TRACKED_OFFSETS)
    (hrests : ((machine env).run (new symbols) events).Rests symbolId orderId) :
    ((machine env).run (new symbols)
      (events ++ [cancelEvent symbolId orderId ts])).Rests symbolId orderId := by
  rw [run_cancel_of_rests env symbols events ts hcard hrests]
  exact hrests

/-- One sell order for symbol 1. -/
def placeSell : OrderEvent := ⟨some (.placeOrderBatch [limitRequest 1 7 .sell 100 5]), 0⟩

lemma rests_placeSell (env : Externals) :
    ((machine env).run (new [(1, (10, 20))]) [placeSell]).Rests 1 1 := by
  show Rests (handle env (new [(1, (10, 20))]) placeSell).1 1 1
  simp only [handle, placeSell, isOutsideTrackedWindow_zero]
  refine ⟨((OrderBook.new 1).addOrder (limitRequest 1 7 .sell 100 5).order .new 0).2.1, rfl, ?_⟩
  exact ⟨_, List.mem_singleton_self _, rfl⟩

theorem cancel_leaves_resting_placed :
    ¬∃ env : Externals, ¬((machine env).run (new [(1, (10, 20))])
      ([placeSell] ++ [cancelEvent 1 1 0])).Rests 1 1 := by
  rintro ⟨env, hnot⟩
  refine hnot (cancel_leaves_resting env _ _ 0 1 1 ?_ (rests_placeSell env))
  unfold MAX_TRACKED_OFFSETS
  decide

/-- The first cancellation of a resting order does not remove it. -/
theorem first_cancel_dropped :
    ¬∃ env : Externals, ∀ symbols events ts symbolId orderId,
      ((events ++ [cancelEvent symbolId orderId ts]).flatMap
        OrderEvent.orderIds).toFinset.card < MAX_TRACKED_OFFSETS →
      (∀ event ∈ events, ∀ s, event.command ≠ some (.cancelOrder s orderId)) →
      ((machine env).run (new symbols) events).Rests symbolId orderId →
      ¬((machine env).run (new symbols)
        (events ++ [cancelEvent symbolId orderId ts])).Rests symbolId orderId := by
  rintro ⟨env, h⟩
  have hcard : (([placeSell] ++ [cancelEvent 1 1 0]).flatMap
      OrderEvent.orderIds).toFinset.card < MAX_TRACKED_OFFSETS := by
    unfold MAX_TRACKED_OFFSETS
    decide
  refine h [(1, (10, 20))] [placeSell] 0 1 1 hcard ?_ (rests_placeSell env) ?_
  · simp [placeSell]
  · rw [run_cancel_of_rests env _ _ 0 hcard (rests_placeSell env)]
    exact rests_placeSell env

/-! ## Handing orders over -/

lemma tracks_batch (env : Externals) (msgTs : UInt64) (reqs : List OrderRequest)
    (ids : List UInt64) :
    ∀ {loop : BatchLoop}, Tracks loop.matcher.msgDedup (ids ++ loop.answer.handed) →
      Tracks (reqs.foldl (placeOne env msgTs) loop).matcher.msgDedup
          (ids ++ (reqs.foldl (placeOne env msgTs) loop).answer.handed) ∧
        ids ++ (reqs.foldl (placeOne env msgTs) loop).answer.handed =
          (reqs.map OrderRequest.orderId).foldl (accept MAX_TRACKED_OFFSETS)
            (ids ++ loop.answer.handed) := by
  induction reqs with
  | nil => exact fun h => ⟨h, rfl⟩
  | cons req reqs ih =>
      intro loop h
      rw [List.foldl_cons, List.map_cons, List.foldl_cons]
      have hdup := @Tracks.isDuplicate_iff _ _ req.orderId h
      by_cases hmem : req.orderId ∈ (ids ++ loop.answer.handed).rtake MAX_TRACKED_OFFSETS
      · rw [show placeOne env msgTs loop req = loop from if_pos (hdup.mpr hmem),
          show accept MAX_TRACKED_OFFSETS (ids ++ loop.answer.handed) req.orderId = _ from
            if_pos hmem]
        exact ih h
      · have hnot : ¬loop.matcher.msgDedup.isDuplicate req.orderId.toInt64 = true := mt hdup.mp hmem
        have hhanded : (placeOne env msgTs loop req).answer.handed =
            loop.answer.handed ++ [req.orderId] := by
          rw [placeOne, if_neg hnot]
        have hdedup : (placeOne env msgTs loop req).matcher.msgDedup =
            loop.matcher.msgDedup.markProcessed req.orderId.toInt64 msgTs := by
          rw [placeOne, if_neg hnot]
        have hnext := h.markProcessed hmem msgTs
        rw [← hdedup, List.append_assoc, ← hhanded] at hnext
        have hacc : accept MAX_TRACKED_OFFSETS (ids ++ loop.answer.handed) req.orderId =
            ids ++ (placeOne env msgTs loop req).answer.handed := by
          rw [accept, if_neg hmem, hhanded, List.append_assoc]
        rw [hacc]
        exact ih hnext

/-- A batch published without a timestamp is never outside the window. -/
lemma tracks_handle (env : Externals) (batch : List OrderRequest) {m : Matcher} {ids : List UInt64}
    (h : Tracks m.msgDedup ids) :
    Tracks (handle env m ⟨some (.placeOrderBatch batch), 0⟩).1.msgDedup
        (ids ++ (handle env m ⟨some (.placeOrderBatch batch), 0⟩).2.handed) ∧
      ids ++ (handle env m ⟨some (.placeOrderBatch batch), 0⟩).2.handed =
        (batch.map OrderRequest.orderId).foldl (accept MAX_TRACKED_OFFSETS) ids := by
  have hstart : ids ++ (Answer.none).handed = ids := List.append_nil ids
  have hloop := @tracks_batch env 0 batch ids ⟨m, m.engine.outputSeq, .none⟩
    (by rw [hstart]; exact h)
  rw [hstart] at hloop
  simp only [handle, isOutsideTrackedWindow_zero]
  exact hloop

end Matcher

/-! ## The poll loop -/

/-- The order a record delivers: the one of a bincode payload on the orders topic, for a known
symbol. -/
def orderOf (cfg : PollConfig) (r : Record) : Option OrderRequest :=
  if r.topic = cfg.ordersTopic then
    (r.payload.bind Payload.internalOrder).bind (fun order =>
      if order.symbolId ∈ cfg.symbols then some (Exchange.request order r.millis) else none)
  else none

/-- The order ids delivered by a list of polls, in order. -/
def delivered (cfg : PollConfig) (polls : List (List Record)) : List UInt64 :=
  polls.flatMap (fun batch => (batch.filterMap (orderOf cfg)).map OrderRequest.orderId)

/-- One record accumulates the order it delivers; nothing is published before the end. -/
lemma onRecord_eq (env : Externals) (cfg : PollConfig) (loop : PollLoop) (r : Record) :
    loop.onRecord env cfg r =
      { loop with placeOrders := loop.placeOrders ++ (orderOf cfg r).toList } := by
  unfold PollLoop.onRecord orderOf
  cases hpayload : r.payload with
  | none => simp
  | some payload =>
      by_cases htopic : r.topic = cfg.ordersTopic
      · cases horder : payload.internalOrder with
        | none => simp [htopic, horder]
        | some order =>
            simp only [if_pos htopic, horder, Option.bind_some, PollLoop.pushOrder]
            by_cases hknown : order.symbolId ∈ cfg.symbols
            · have hknown' : (Exchange.request order r.millis).symbolId ∈ cfg.symbols := hknown
              rw [if_pos hknown, if_pos hknown']
              rfl
            · have hknown' : (Exchange.request order r.millis).symbolId ∉ cfg.symbols := hknown
              rw [if_neg hknown, if_neg hknown']
              simp
      · simp [htopic]

/-- **What a poll publishes**: its orders in one batch, without a timestamp. -/
lemma pollEvents_eq (env : Externals) (cfg : PollConfig) (batch : List Record) :
    pollEvents env cfg batch =
      if (batch.filterMap (orderOf cfg)).isEmpty then []
      else [⟨some (.placeOrderBatch (batch.filterMap (orderOf cfg))), 0⟩] := by
  have hfold : ∀ loop : PollLoop, batch.foldl (PollLoop.onRecord env cfg) loop =
      { loop with placeOrders := loop.placeOrders ++ batch.filterMap (orderOf cfg) } := by
    induction batch with
    | nil => intro loop; simp
    | cons r batch ih =>
        intro loop
        rw [List.foldl_cons, ih, onRecord_eq]
        cases h : orderOf cfg r <;> simp [h]
  rw [pollEvents, hfold, PollLoop.publishOrders]
  simp only [List.nil_append]
  split <;> rfl

/-! ## Redelivery -/

/-- The ids of the orders handed to the engine over a list of polls. -/
def handedIds (env : Externals) (cfg : PollConfig) (m : Matcher) (polls : List (List Record)) :
    List UInt64 :=
  ((server env cfg).answers m polls).flatten.flatMap Matcher.Answer.handed

lemma tracks_poll (env : Externals) (cfg : PollConfig) (batch : List Record) {m : Matcher}
    {ids : List UInt64} (h : Tracks m.msgDedup ids) :
    Tracks ((server env cfg).step m batch).1.msgDedup
        (ids ++ ((server env cfg).step m batch).2.flatMap Matcher.Answer.handed) ∧
      ids ++ ((server env cfg).step m batch).2.flatMap Matcher.Answer.handed =
        (delivered cfg [batch]).foldl (accept MAX_TRACKED_OFFSETS) ids := by
  simp only [server, pollEvents_eq, delivered, List.flatMap_cons, List.flatMap_nil,
    List.append_nil]
  split
  · rename_i hempty
    rw [List.isEmpty_iff.mp hempty]
    simpa using h
  · obtain ⟨htracks, hids⟩ := Matcher.tracks_handle env (batch.filterMap (orderOf cfg)) h
    rw [← hids]
    simp only [Machine.answers_cons, Machine.answers_nil, List.flatMap_cons, List.flatMap_nil,
      List.append_nil]
    exact ⟨htracks, rfl⟩

lemma append_handedIds (env : Externals) (cfg : PollConfig) (polls : List (List Record)) :
    ∀ {m : Matcher} {ids : List UInt64}, Tracks m.msgDedup ids →
      ids ++ handedIds env cfg m polls =
        (delivered cfg polls).foldl (accept MAX_TRACKED_OFFSETS) ids := by
  induction polls with
  | nil => exact fun _ => List.append_nil _
  | cons batch polls ih =>
      intro m ids h
      obtain ⟨htracks, hids⟩ := tracks_poll env cfg batch h
      have hcons : delivered cfg (batch :: polls) =
          delivered cfg [batch] ++ delivered cfg polls := by
        simp [delivered]
      rw [hcons, List.foldl_append, ← hids, ← ih htracks, handedIds, Machine.answers_cons,
        List.flatten_cons, List.flatMap_append, List.append_assoc]
      rfl

lemma handedIds_eq_accepted (env : Externals) (cfg : PollConfig)
    (symbols : List (UInt32 × (UInt32 × UInt32))) (polls : List (List Record)) :
    handedIds env cfg (Matcher.new symbols) polls =
      accepted MAX_TRACKED_OFFSETS (delivered cfg polls) :=
  @append_handedIds env cfg polls (Matcher.new symbols) [] Tracks.new

/-- **When no order id is handed over twice.**  For every configuration and every sequence of
polls, in any batching and with any timestamps, no order id is handed to
`add_order_and_build_output` more than once if and only if every repeated delivery of an id comes
while fewer than `MAX_TRACKED_OFFSETS` other ids have been delivered for the first time since the
first delivery of that id. -/
theorem handed_nodup_iff (env : Externals) (cfg : PollConfig)
    (symbols : List (UInt32 × (UInt32 × UInt32))) (polls : List (List Record)) :
    (handedIds env cfg (Matcher.new symbols) polls).Nodup ↔
      ∀ D₁ id D₂, delivered cfg polls = D₁ ++ id :: D₂ → id ∈ D₁ →
        newSince D₁ id < MAX_TRACKED_OFFSETS := by
  rw [handedIds_eq_accepted]
  exact nodup_accepted_iff _ _

/-- The deliveries with their timestamps. -/
def deliveries (cfg : PollConfig) (polls : List (List Record)) : List (UInt64 × UInt64) :=
  polls.flatMap (fun batch =>
    (batch.filterMap (orderOf cfg)).map (fun req => (req.orderId, req.timestamp)))

/-- Redeliveries carry the timestamp of the original, and the timestamps of first deliveries do
not decrease. -/
structure Redelivered (cfg : PollConfig) (polls : List (List Record)) : Prop where
  same : ∀ d ∈ deliveries cfg polls, ∀ e ∈ deliveries cfg polls, d.1 = e.1 → d.2 = e.2
  monotone : ∀ E₁ d E₂, deliveries cfg polls = E₁ ++ d :: E₂ → (∀ e ∈ E₁, e.1 ≠ d.1) →
    ∀ e ∈ E₁, e.2 ≤ d.2

/-- The configuration of one known symbol. -/
def oneSymbol : PollConfig := ⟨"orders", {1}⟩

/-- A sell order with id `i`, at time `i + 1`. -/
def sellRecord (i : ℕ) : Record where
  topic := "orders"
  timestamp := some (UInt64.ofNat (i + 1)).toInt64
  payload := some ⟨some ⟨UInt64.ofNat i, 7, 1, .sell, 100, 5, .limit⟩, none⟩

/-- Polls of one such order each. -/
def sellPolls (l : List ℕ) : List (List Record) := l.map (fun i => [sellRecord i])

lemma deliveries_sellPolls (l : List ℕ) : deliveries oneSymbol (sellPolls l) =
    l.map (fun i => (UInt64.ofNat i, UInt64.ofNat (i + 1))) := by
  rw [deliveries, sellPolls, List.flatMap_map, List.map_eq_flatMap]
  rfl

lemma delivered_sellPolls (l : List ℕ) : delivered oneSymbol (sellPolls l) =
    l.map UInt64.ofNat := by
  rw [delivered, sellPolls, List.flatMap_map, List.map_eq_flatMap]
  rfl

/-- The orders `0, 1, …, n` one after the other, and then the first one again. -/
lemma redelivered_sellPolls {n : ℕ} (hn : n + 1 < 2 ^ 64) :
    Redelivered oneSymbol (sellPolls (List.range (n + 1) ++ [0])) := by
  constructor
  · -- the timestamp is a function of the id
    have hnext : ∀ d ∈ deliveries oneSymbol (sellPolls (List.range (n + 1) ++ [0])),
        d.2 = d.1 + 1 := by
      rw [deliveries_sellPolls, List.forall_mem_map]
      intro i _
      simp
    intro d hd e he heq
    rw [hnext d hd, hnext e he, heq]
  · rw [deliveries_sellPolls, List.map_append]
    intro E₁ d E₂ hsplit hfirst e he
    rcases List.eq_nil_or_concat E₂ with rfl | ⟨E₂', z, rfl⟩
    · -- the last delivery is not a first one
      obtain ⟨hE, hd⟩ := List.append_inj' hsplit rfl
      obtain rfl := List.singleton_inj.mp hd
      have hmem : (UInt64.ofNat 0, UInt64.ofNat (0 + 1)) ∈ E₁ := by
        rw [← hE]
        exact List.mem_map_of_mem (List.mem_range.mpr (Nat.succ_pos n))
      exact absurd rfl (hfirst _ hmem)
    · rw [List.concat_eq_append, ← List.cons_append, ← List.append_assoc] at hsplit
      obtain ⟨hL, -⟩ := List.append_inj' hsplit rfl
      have hsorted : ((List.range (n + 1)).map
          (fun i => (UInt64.ofNat i, UInt64.ofNat (i + 1)))).Pairwise (fun e d => e.2 ≤ d.2) := by
        rw [List.pairwise_map]
        refine List.pairwise_lt_range.imp_of_mem (fun {i j} hi hj hlt => ?_)
        rw [List.mem_range] at hi hj
        rw [UInt64.le_iff_toNat_le, Word.toNat_ofNat_of_lt (by omega),
          Word.toNat_ofNat_of_lt (by omega)]
        omega
      rw [hL] at hsorted
      exact (List.pairwise_append.mp hsorted).2.2 e he d (List.mem_cons_self ..)

/-- Since order 0, all the others have turned up. -/
lemma newSince_range {n : ℕ} (hn : n + 1 < 2 ^ 64) :
    newSince ((List.range (n + 1)).map UInt64.ofNat) 0 = n := by
  have hnodup : ((List.range (n + 1)).map UInt64.ofNat).Nodup := by
    refine List.Nodup.map_on (fun i hi j hj heq => ?_) List.nodup_range
    rw [List.mem_range] at hi hj
    have := congrArg UInt64.toNat heq
    rwa [Word.toNat_ofNat_of_lt (by omega), Word.toNat_ofNat_of_lt (by omega)] at this
  have hhead : (List.range (n + 1)).map UInt64.ofNat =
      0 :: ((List.range n).map Nat.succ).map UInt64.ofNat := by
    rw [List.range_succ_eq_map, List.map_cons]
    rfl
  have hbefore : ((List.range (n + 1)).map UInt64.ofNat).takeWhile (· ≠ 0) = [] := by
    rw [hhead]
    rfl
  rw [newSince, hbefore, List.toFinset_nil, insert_empty_eq, ← Finset.erase_eq,
    Finset.card_erase_of_mem, List.toFinset_card_of_nodup hnodup]
  · simp
  · rw [List.mem_toFinset, hhead]
    exact List.mem_cons_self ..

/-- After `MAX_TRACKED_OFFSETS` other orders the first one is handed to the engine again, although
every timestamp is in order: the cut-off by timestamp does not take over from the evicted id. -/
theorem evicted_order_handed_again :
    ¬∃ env : Externals, ∀ cfg symbols polls, Redelivered cfg polls →
      (handedIds env cfg (Matcher.new symbols) polls).Nodup := by
  rintro ⟨env, h⟩
  have hmax : MAX_TRACKED_OFFSETS + 1 < 2 ^ 64 := by
    unfold MAX_TRACKED_OFFSETS
    decide
  have hnodup := h oneSymbol [(1, (10, 20))] _ (redelivered_sellPolls hmax)
  rw [handedIds_eq_accepted, nodup_accepted_iff, delivered_sellPolls, List.map_append] at hnodup
  have hlt := hnodup ((List.range (MAX_TRACKED_OFFSETS + 1)).map UInt64.ofNat) 0 [] rfl
    (List.mem_map.mpr ⟨0, List.mem_range.mpr (Nat.succ_pos _), rfl⟩)
  rw [newSince_range hmax] at hlt
  exact lt_irrefl _ hlt

end ExchangeCore
