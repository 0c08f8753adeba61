import ExchangeCore.Server.Outputs
import ExchangeCore.Server.ValidatedOrders
import ExchangeCore.Settlement.Restarts
import ExchangeCore.Ubs.KafkaService

/-!
# From acceptance to settlement

The path of an order through the three services: the service of UBSCore accepts it and forwards it
on `validated_orders`, the matching server takes it from there and publishes an output on
`engine.outputs`, and the settlement service writes the output to its log.  Both topics deliver at
least once and in order, in polls and batches of any size, and the server publishes some outputs
again itself.

`accepted_orders_settle` puts the three together.  As long as no order comes again too late for the
deduplicator of the server, the outputs answer exactly the forwarded orders that have been
delivered, one each and in the order in which they were accepted, and after any number of restarts
the log holds outputs of theirs and nothing else; if no write has failed, it holds those delivered.
-/

namespace ExchangeCore

open MatchingEngine RecentWindow SettlementDb ChainCursor

/-- The output is for the order, as it came at some time. -/
def EngineOutput.IsFor (output : EngineOutput) (order : InternalOrder) : Prop :=
  ∃ timestamp, output.Answers (Exchange.request order timestamp)

/-- The orders in the records of the topic are those forwarded, as far as the server knows their
symbols. -/
lemma map_orderOf_topic {codec : TopicCodec} {cfg : PollConfig} {orders : List InternalOrder}
    {topic : List Record}
    (hround : ∀ order, codec.decodeOrder (codec.order order) = some order)
    (htopic : cfg.ordersTopic = "validated_orders")
    (hcarried : List.Forall₂ (fun order => (ValidatedRecord.order order).CarriedBy codec) orders
      topic) :
    (topic.filterMap (orderOf cfg)).map OrderRequest.internalOrder =
      orders.filter (fun order => order.symbolId ∈ cfg.symbols) := by
  induction hcarried with
  | nil => rfl
  | @cons order r orders topic hmsg _ ih =>
      by_cases hsymbol : order.symbolId ∈ cfg.symbols
      · obtain ⟨req, hreq, hsame⟩ := Option.map_eq_some_iff.mp
          (orderOf_carried (hround order) htopic hsymbol hmsg)
        rw [List.filterMap_cons_some hreq, List.map_cons, hsame, ih,
          List.filter_cons_of_pos (by simpa using hsymbol)]
      · have hnone : orderOf cfg r = none := by
          obtain ⟨htopic', hpayload⟩ := hmsg
          have hbytes : (ValidatedRecord.order order).payload codec = codec.order order := rfl
          rw [hbytes, hround] at hpayload
          rw [orderOf, hpayload, if_pos (htopic'.trans htopic.symm)]
          exact if_neg hsymbol
        rw [List.filterMap_cons_none hnone, ih, List.filter_cons_of_neg (by simpa using hsymbol)]

/-! ## The path of an order -/

/-- What the services are set up with: bincode reads back the orders it writes, and the server reads
the topic of UBSCore and has registered the symbols it knows. -/
structure SetUp (codec : TopicCodec) (cfg : PollConfig)
    (symbols : List (UInt32 × (UInt32 × UInt32))) : Prop where
  round : ∀ order, codec.decodeOrder (codec.order order) = some order
  topic : cfg.ordersTopic = "validated_orders"
  known : ∀ s ∈ cfg.symbols, s ∈ symbols.map Prod.fst

/-- A run of the three services. -/
structure OrderPath (env : Externals) (codec : TopicCodec) (cfg : PollConfig)
    (symbols : List (UInt32 × (UInt32 × UInt32))) where
  /-- The service of UBSCore, and the orders it receives. -/
  service : UBSCoreService
  fresh : service.forwarded = []
  received : List ReceivedOrder
  /-- The records of `validated_orders`. -/
  topic : List Record
  carried : List.Forall₂ (fun order => (ValidatedRecord.order order).CarriedBy codec)
    ((UBSCoreService.loop codec.toBincode).run service received).forwarded topic
  /-- The polls of the server deliver the first records of the topic. -/
  polls : List (List Record)
  polled : ℕ
  delivered : DeliveredAgain topic 0 polls.flatten polled
  inTime : InTime cfg polls
  /-- The sessions of the settlement service, and how many of the records of `engine.outputs` each
  gets; no send of the server fails. -/
  sessions : List Session
  counts : List ℕ
  settled : List.Forall₂ (fun s m =>
    DeliveredAgain (publishedOutputs env cfg RingBuffer.allSent (Matcher.new symbols) polls) 0
      s.delivered m) sessions counts
  short : (serverOutputs env cfg (Matcher.new symbols) polls).length < 2 ^ 64 - 1

namespace OrderPath

variable {env : Externals} {codec : TopicCodec} {cfg : PollConfig}
  {symbols : List (UInt32 × (UInt32 × UInt32))}

/-- The orders that UBSCore accepts. -/
def accepted (path : OrderPath env codec cfg symbols) : List InternalOrder :=
  UBSCoreService.accepted codec.toBincode path.service path.received

/-- The orders forwarded to the server. -/
def forwarded (path : OrderPath env codec cfg symbols) : List InternalOrder :=
  ((UBSCoreService.loop codec.toBincode).run path.service path.received).forwarded

/-- The orders that have reached the server. -/
def reached (path : OrderPath env codec cfg symbols) : List InternalOrder :=
  ((path.topic.take path.polled).filterMap (orderOf cfg)).map OrderRequest.internalOrder

/-- The outputs of the server. -/
def outputs (path : OrderPath env codec cfg symbols) : List EngineOutput :=
  serverOutputs env cfg (Matcher.new symbols) path.polls

/-- The records of `engine.outputs`. -/
def published (path : OrderPath env codec cfg symbols) : List EngineOutput :=
  publishedOutputs env cfg RingBuffer.allSent (Matcher.new symbols) path.polls

/-- How many of them have been delivered to the settlement service. -/
def furthest (path : OrderPath env codec cfg symbols) : ℕ := path.counts.foldl max 0

/-- The log of the settlement service. -/
def log (path : OrderPath env codec cfg symbols) : EngineOutputLog :=
  path.sessions.foldl (Session.run env) Table.empty

variable (path : OrderPath env codec cfg symbols)

/-- Accepted orders are forwarded, unless the send fails. -/
lemma forwarded_spec : path.forwarded.Sublist path.accepted ∧
    ((∀ r ∈ path.received, r.sent = true) → path.forwarded = path.accepted) := by
  obtain ⟨new, hrun, hsub, hall⟩ :=
    UBSCoreService.forwarded_loop codec.toBincode path.service path.received
  rw [path.fresh, List.nil_append] at hrun
  rw [forwarded, hrun]
  exact ⟨hsub, hall⟩

lemma isFor_outputs (hsetup : SetUp codec cfg symbols) :
    List.Forall₂ EngineOutput.IsFor path.outputs
      (firstDeliveries InternalOrder.orderId path.reached) := by
  have hanswers := (Serving.of_polls env hsetup.known path.inTime).answers
  have hdelivered : deliveredOrders cfg path.polls =
      path.polls.flatten.filterMap (orderOf cfg) := by
    rw [deliveredOrders, List.filterMap_flatten]
    rfl
  rw [hdelivered, path.delivered.firstDeliveries_filterMap] at hanswers
  rw [reached, firstDeliveries_map OrderRequest.internalOrder (fun _ => rfl), outputs]
  exact (List.forall₂_map_right_iff.mpr (hanswers.imp (fun o req h => ⟨req.timestamp, h⟩)))

lemma before_published :
    before path.published path.published.length = {output | output ∈ path.outputs} := by
  have hpublished := deliveredAgain_publishedOutputs env cfg (Matcher.new symbols) path.polls
  ext output
  have hall := hpublished.getElem?_iff output
  simp only [Nat.not_lt_zero, false_and, exists_false, false_or] at hall
  have hmem : ∀ l : List EngineOutput, (∃ i < l.length, l[i]? = some output) ↔ output ∈ l := by
    intro l
    rw [List.mem_iff_getElem?]
    exact exists_congr (fun i => and_iff_right_of_imp fun h => (List.getElem?_eq_some_iff.mp h).1)
  exact (hmem _).trans (hall.symm.trans (hmem _))

/-- The log, by what has been delivered of the records published. -/
lemma holds_log (hchain : HashChain env path.outputs) :
    ∃ S ⊆ before path.published path.furthest,
      Holds path.log S ∧
        ((∀ s ∈ path.sessions, ∀ attempt ∈ s.attempts, attempt.Complete) →
          S = before path.published path.furthest) := by
  obtain ⟨reach, hreach, hzero⟩ := Reaches.exists_of_deliveredAgain
    (deliveredAgain_publishedOutputs env cfg (Matcher.new symbols) path.polls)
  have hsettled : List.Forall₂ (fun s m => DeliveredAgain path.outputs 0 s.delivered m)
      path.sessions (path.counts.map reach) := by
    rw [List.forall₂_map_right_iff]
    refine path.settled.imp (fun s m hdelivered => ?_)
    have hcomposed := hreach.deliveredAgain hdelivered
    rwa [hzero] at hcomposed
  obtain ⟨S, hlog, hS, hall⟩ := holds_sessions hchain path.short hsettled
    (Set.empty_subset (before path.outputs 0)) holds_empty
  have hbefore : before path.outputs ((path.counts.map reach).foldl max 0) =
      before path.published path.furthest := by
    have hfurthest := hreach.foldl_max path.counts 0
    rw [hzero] at hfurthest
    rw [hfurthest]
    ext output
    exact hreach.getElem?_iff hzero _ output
  rw [hbefore] at hS hall
  exact ⟨S, hS, hlog, fun hcomplete => hall hcomplete (before_zero _).symm⟩

end OrderPath

open OrderPath in
/-- **From acceptance to settlement.**  In every run of the three services the outputs of the server
are a hash chain, and they are for the forwarded orders that have reached the server, one for each
id and in the order of acceptance; the orders forwarded are accepted ones, and all of them if no
send has failed.  The settlement log holds the rows of outputs that have been delivered and no
others, and if every write has been complete, those of all of them. -/
theorem accepted_orders_settle {env : Externals} {codec : TopicCodec} {cfg : PollConfig}
    {symbols : List (UInt32 × (UInt32 × UInt32))} (hsetup : SetUp codec cfg symbols)
    (path : OrderPath env codec cfg symbols) :
    HashChain env path.outputs ∧
      List.Forall₂ EngineOutput.IsFor path.outputs
        (firstDeliveries InternalOrder.orderId path.reached) ∧
      path.reached <+: path.forwarded.filter (fun order => order.symbolId ∈ cfg.symbols) ∧
      (path.polled = path.topic.length →
        path.reached = path.forwarded.filter (fun order => order.symbolId ∈ cfg.symbols)) ∧
      path.forwarded.Sublist path.accepted ∧
      ((∀ r ∈ path.received, r.sent = true) → path.forwarded = path.accepted) ∧
      (∃ S ⊆ before path.published path.furthest,
        Holds path.log S ∧
          ((∀ s ∈ path.sessions, ∀ attempt ∈ s.attempts, attempt.Complete) →
            S = before path.published path.furthest)) ∧
      before path.published path.published.length = {output | output ∈ path.outputs} := by
  have hchain := (Serving.of_polls env hsetup.known path.inTime).chain.hashChain
  have htopic := map_orderOf_topic hsetup.round hsetup.topic path.carried
  obtain ⟨hsub, hall⟩ := path.forwarded_spec
  refine ⟨hchain, path.isFor_outputs hsetup, ?_, fun hpolled => ?_, hsub, hall,
    path.holds_log hchain, path.before_published⟩
  · rw [OrderPath.forwarded, ← htopic]
    exact ((List.take_prefix _ _).filterMap _).map _
  · rw [OrderPath.forwarded, ← htopic, OrderPath.reached, hpolled, List.take_length]

lemma setUp_fixint : SetUp .fixint validatedOrders [(1, (10, 20))] where
  round := TopicCodec.decodeFixint_order
  topic := rfl
  known _ hs := List.mem_singleton.mpr (Finset.mem_singleton.mp hs)

/-- User 1 buys 60 at price 1. -/
def buySixty : ReceivedOrder := UBSCoreService.received 7 ⟨.ok (), .ok (), .ok ()⟩

/-- The topic with one order, polled twice. -/
def buyPolls : List (List Record) :=
  [[(ValidatedRecord.order buySixty.order).record], [(ValidatedRecord.order buySixty.order).record]]

/-- What is published: the second poll finds nothing in a slot of its own. -/
def buyPublished : List EngineOutput :=
  publishedOutputs zeroHash validatedOrders RingBuffer.allSent
    (Matcher.new [(1, (10, 20))]) buyPolls

lemma inTime_buyPolls : InTime validatedOrders buyPolls := by
  apply inTime_of_length
  have hlen : (delivered validatedOrders buyPolls).length = 2 := by decide
  rw [hlen]
  unfold MAX_TRACKED_OFFSETS
  decide

lemma length_buyPublished : buyPublished.length = 1 := by decide +kernel

/-- One session to which the outputs are delivered once. -/
def buySession : Session := ⟨true, [⟨⟨buyPublished, []⟩, fun _ => true⟩]⟩

lemma settled_buySession :
    List.Forall₂ (fun s m => DeliveredAgain buyPublished 0 s.delivered m) [buySession] [1] := by
  have honce := DeliveredAgain.once buyPublished
  rw [length_buyPublished] at honce
  have hdelivered : buySession.delivered = buyPublished := List.append_nil buyPublished
  refine .cons ?_ .nil
  rw [hdelivered]
  exact honce

lemma short_buyOutputs :
    (serverOutputs zeroHash validatedOrders (Matcher.new [(1, (10, 20))]) buyPolls).length <
      2 ^ 64 - 1 := by
  decide +kernel

lemma carried_buySixty :
    List.Forall₂ (fun order => (ValidatedRecord.order order).CarriedBy .fixint)
      ((UBSCoreService.loop Bincode.fixint).run
        (UBSCoreService.fresh UBSCoreService.funded 100 65536) [buySixty]).forwarded
      [(ValidatedRecord.order buySixty.order).record] := by
  have hforwarded : ((UBSCoreService.loop Bincode.fixint).run
      (UBSCoreService.fresh UBSCoreService.funded 100 65536) [buySixty]).forwarded =
        [buySixty.order] := by decide
  rw [hforwarded]
  exact .cons (ValidatedRecord.carriedBy_record _) .nil

lemma delivered_buyPolls :
    DeliveredAgain [(ValidatedRecord.order buySixty.order).record] 0 buyPolls.flatten 1 :=
  .cons le_rfl rfl (.cons (Nat.zero_le 1) rfl (.nil 1))

/-- An order is accepted, polled twice and settled. -/
def buyPath : OrderPath zeroHash .fixint validatedOrders [(1, (10, 20))] where
  service := UBSCoreService.fresh UBSCoreService.funded 100 65536
  fresh := rfl
  received := [buySixty]
  topic := [(ValidatedRecord.order buySixty.order).record]
  carried := carried_buySixty
  polls := buyPolls
  polled := 1
  delivered := delivered_buyPolls
  inTime := inTime_buyPolls
  sessions := [buySession]
  counts := [1]
  settled := settled_buySession
  short := short_buyOutputs

theorem accepted_orders_settle_buy :
    HashChain zeroHash buyPath.outputs ∧
      List.Forall₂ EngineOutput.IsFor buyPath.outputs
        (firstDeliveries InternalOrder.orderId buyPath.reached) ∧
      buyPath.forwarded = buyPath.accepted ∧
      ∃ S ⊆ before buyPath.published buyPath.furthest,
        Holds buyPath.log S ∧
          ((∀ s ∈ buyPath.sessions, ∀ attempt ∈ s.attempts, attempt.Complete) →
            S = before buyPath.published buyPath.furthest) := by
  obtain ⟨hchain, hfor, -, -, -, hall, hlog, -⟩ := accepted_orders_settle setUp_fixint buyPath
  refine ⟨hchain, hfor, hall (fun r hr => ?_), hlog⟩
  obtain rfl := List.mem_singleton.mp hr
  rfl

end ExchangeCore
