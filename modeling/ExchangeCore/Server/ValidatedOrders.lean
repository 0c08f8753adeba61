import ExchangeCore.Server.Delivery
import ExchangeCore.Ubs.Durability

/-!
# The topic `validated_orders`

UBSCore sends the orders it accepts and the cancels it forwards to one topic, and the matching
server's poll loop reads it.  Orders are encoded as `InternalOrder`, cancels as `OrderRequest`, both
with bincode; the loop decodes every record of the topic as `InternalOrder`, and its branch for
requests repeats the test of the first, so no record ever becomes a cancel.

`commands_agree_iff` compares, over a run of the handler and any polls that deliver what got on the
topic in it, the commands answered with accept with those handed to the matcher.  The encoders and
decoders are parameters, of which only the round trip of an order is used, and so is what becomes of
a send whose future is dropped.
-/

namespace ExchangeCore

/-- The third-party encoders and decoders of the topic. -/
structure TopicCodec extends Bincode where
  /-- `bincode::serialize::<OrderRequest>`. -/
  request : ClientRequest → Bytes
  /-- `bincode::deserialize::<InternalOrder>`. -/
  decodeOrder : Bytes → Option InternalOrder
  /-- `serde_json::from_slice::<OrderRequest>`. -/
  decodeRequest : Bytes → Option ClientRequest

namespace ValidatedRecord

/-- The payload that is sent: `symbol_id` and `checksum` of a cancel are placeholders. -/
def payload (codec : TopicCodec) : ValidatedRecord → Bytes
  | .order o => codec.order o
  | .cancel userId orderId => codec.request (.cancelOrder orderId userId 0 0)

/-- A record of the consumer carries the message, with any timestamp. -/
def CarriedBy (codec : TopicCodec) (msg : ValidatedRecord) (r : Record) : Prop :=
  r.topic = "validated_orders" ∧
    r.payload =
      some ⟨codec.decodeOrder (msg.payload codec), codec.decodeRequest (msg.payload codec)⟩

end ValidatedRecord

/-! ## Commands -/

/-- A command for the matching engine. -/
inductive MatcherCommand
  | place (order : InternalOrder)
  | cancel (orderId : UInt64)
  deriving DecidableEq, Repr

/-- The command UBSCore means by a message. -/
def ValidatedRecord.command : ValidatedRecord → MatcherCommand
  | .order o => .place o
  | .cancel _ orderId => .cancel orderId

/-- The order in a request of the engine. -/
def OrderRequest.internalOrder (req : OrderRequest) : InternalOrder :=
  ⟨req.orderId, req.userId, req.symbolId, req.side, req.price, req.quantity, req.orderType⟩

/-- The commands in an event of the ring buffer. -/
def OrderEvent.commands (event : OrderEvent) : List MatcherCommand :=
  match event.command with
  | some (.placeOrderBatch batch) => batch.map (fun req => .place req.internalOrder)
  | some (.cancelOrder _ orderId) => [.cancel orderId]
  | some .balanceRequest => []
  | none => []

/-- The commands handed to the matcher over a list of polls. -/
def handedCommands (env : Externals) (cfg : PollConfig) (polls : List (List Record)) :
    List MatcherCommand :=
  polls.flatMap (fun batch => (pollEvents env cfg batch).flatMap OrderEvent.commands)

/-! ## What the poll loop hands over -/

lemma handedCommands_eq (env : Externals) (cfg : PollConfig) (polls : List (List Record)) :
    handedCommands env cfg polls =
      (polls.flatten.filterMap (orderOf cfg)).map (fun req => .place req.internalOrder) := by
  induction polls with
  | nil => rfl
  | cons batch polls ih =>
      have hbatch : (pollEvents env cfg batch).flatMap OrderEvent.commands =
          (batch.filterMap (orderOf cfg)).map (fun req => .place req.internalOrder) := by
        rw [pollEvents_eq]
        split
        · rename_i hempty
          rw [List.isEmpty_iff.mp hempty]
          rfl
        · simp [OrderEvent.commands]
      have hcons : handedCommands env cfg (batch :: polls) =
          (pollEvents env cfg batch).flatMap OrderEvent.commands ++
            handedCommands env cfg polls := rfl
      rw [hcons, ih, hbatch, List.flatten_cons, List.filterMap_append, List.map_append]

lemma orderOf_carried {codec : TopicCodec} {cfg : PollConfig} {order : InternalOrder} {r : Record}
    (hround : codec.decodeOrder (codec.order order) = some order)
    (htopic : cfg.ordersTopic = "validated_orders") (hknown : order.symbolId ∈ cfg.symbols)
    (hr : (ValidatedRecord.order order).CarriedBy codec r) :
    (orderOf cfg r).map OrderRequest.internalOrder = some order := by
  obtain ⟨htopic', hpayload⟩ := hr
  have hbytes : (ValidatedRecord.order order).payload codec = codec.order order := rfl
  rw [hbytes, hround] at hpayload
  simp only [orderOf, htopic', htopic, if_true, hpayload, Option.bind_some, hknown, Option.map_some]
  rfl

lemma handedCommands_of_orders {codec : TopicCodec} {env : Externals} {cfg : PollConfig}
    (hround : ∀ order, codec.decodeOrder (codec.order order) = some order)
    (htopic : cfg.ordersTopic = "validated_orders") {orders : List InternalOrder}
    (hknown : ∀ order ∈ orders, order.symbolId ∈ cfg.symbols) {polls : List (List Record)}
    (hpolls : List.Forall₂ (ValidatedRecord.CarriedBy codec)
      (orders.map ValidatedRecord.order) polls.flatten) :
    handedCommands env cfg polls = orders.map .place := by
  rw [handedCommands_eq]
  generalize polls.flatten = records at hpolls
  induction orders generalizing records with
  | nil =>
      rw [List.map_nil, List.forall₂_nil_left_iff] at hpolls
      rw [hpolls]
      rfl
  | cons order orders ih =>
      rw [List.map_cons, List.forall₂_cons_left_iff] at hpolls
      obtain ⟨r, records', hr, hrest, rfl⟩ := hpolls
      have hhead := orderOf_carried (hround order) htopic (hknown order (by simp)) hr
      obtain ⟨req, hreq, hsame⟩ := Option.map_eq_some_iff.mp hhead
      have htail := ih (fun o ho => hknown o (by simp [ho])) records' hrest
      simp only [List.filterMap_cons, hreq, List.map_cons, hsame, htail]

/-! ## What the handler accepts and sends -/

namespace UbsCoreHandler

/-- The command in a payload. -/
def commandOf (payload : Bytes) : Option ValidatedRecord :=
  match orderOf payload with
  | some order => some (.order order)
  | none => (cancelOf payload).map (fun c => .cancel c.1 c.2)

/-- The command a message is accepted with. -/
def acceptedOf (item : Item) (response : ResponseMessage) : Option ValidatedRecord :=
  if response.accepted = 1 then commandOf item.payload else none

/-- The two ways messages reach the handler. -/
inductive Input
  | message (item : Item)
  | batch (flushOk : Bool) (items : List Item)

/-- The messages of an input. -/
def Input.items : Input → List Item
  | .message item => [item]
  | .batch _ items => items

/-- The handler on an input, and the responses. -/
def onInput (bincode : Bincode) (h : UbsCoreHandler) : Input → UbsCoreHandler × List ResponseMessage
  | .message item =>
      let r := h.onMessage bincode item.clock item.flushOk item.payload
      (r.1, [r.2])
  | .batch flushOk items =>
      let r := h.processBatch bincode flushOk items
      (r.1, r.2.map Prod.snd)

/-- The handler on a list of inputs, and the commands it answers with accept. -/
def serve (bincode : Bincode) (h : UbsCoreHandler) :
    List Input → UbsCoreHandler × List ValidatedRecord
  | [] => (h, [])
  | input :: inputs =>
      let r := h.onInput bincode input
      let rest := serve bincode r.1 inputs
      (rest.1, (List.zipWith acceptedOf input.items r.2).reduceOption ++ rest.2)

/-- What got on the topic since. -/
def deliveredSince (delivers : DroppedSend) (before after : UbsCoreHandler) :
    List ValidatedRecord :=
  ((after.sends.getD []).drop (before.sends.getD []).length).filter delivers

variable {bincode : Bincode}

lemma commandOf_eq_none {payload : Bytes} (horder : orderOf payload = none)
    (hcancel : cancelOf payload = none) : commandOf payload = none := by
  simp [commandOf, horder, hcancel]

variable (bincode) in
/-- A message that is neither an order nor a cancel is accepted with nothing. -/
lemma acceptedOf_other {item : Item} {h : UbsCoreHandler} (horder : orderOf item.payload = none)
    (hcancel : cancelOf item.payload = none)
    (himm : ProcessResult.isPending
      (h.processNoFlush bincode item.clock item.payload).2 = false) :
    (acceptedOf item (respond (h.processNoFlush bincode item.clock item.payload).2)).toList =
      (if h.sends.isSome then cancelRecords item.payload else []) ++
        orderRecords (h.processNoFlush bincode item.clock item.payload).2 := by
  cases hresult : (h.processNoFlush bincode item.clock item.payload).2 with
  | pending order response =>
      rw [hresult] at himm
      exact absurd himm (by simp [ProcessResult.isPending])
  | immediate response =>
      simp [acceptedOf, commandOf_eq_none horder hcancel, cancelRecords, hcancel, orderRecords]

variable (bincode) in
lemma acceptedOf_cancel {item : Item} {body : Bytes} {h : UbsCoreHandler}
    (hparse : parseMessage item.payload = some (.cancel, body)) :
    (acceptedOf item (respond (h.processNoFlush bincode item.clock item.payload).2)).toList =
      (if h.sends.isSome then cancelRecords item.payload else []) ++
        orderRecords (h.processNoFlush bincode item.clock item.payload).2 := by
  have horder : orderOf item.payload = none := by simp [orderOf, hparse]
  have hrun : (h.processNoFlush bincode item.clock item.payload).2 =
      .immediate (h.handleCancel body).2 := by
    simp only [processNoFlush, hparse]
    rfl
  rw [hrun]
  by_cases hlen : body.length < 16
  · simp [handleCancel, hlen, acceptedOf, respond, errorResponse, ResponseMessage.reject,
      cancelRecords, cancelOf, hparse, orderRecords]
  · cases hp : h.sends with
    | none =>
        simp [handleCancel, hlen, hp, acceptedOf, respond, errorResponse, ResponseMessage.reject,
          orderRecords]
    | some records =>
        simp [handleCancel, hlen, hp, acceptedOf, respond, ResponseMessage.accept, commandOf,
          horder, cancelRecords, cancelOf, hparse, orderRecords]

variable (bincode) in
lemma acceptedOf_order {item : Item} {body : Bytes} {h : UbsCoreHandler}
    (hparse : parseMessage item.payload = some (.order, body)) :
    (acceptedOf item (respond (h.processNoFlush bincode item.clock item.payload).2)).toList =
      (if h.sends.isSome then cancelRecords item.payload else []) ++
        orderRecords (h.processNoFlush bincode item.clock item.payload).2 := by
  have hcancel : cancelOf item.payload = none := by simp [cancelOf, hparse]
  rcases processNoFlush_order bincode (h := h) hparse with
    ⟨hnone, orderId, code, hrun⟩ | ⟨order, horder, hrun⟩
  · exact acceptedOf_other bincode hnone hcancel (by rw [hrun]; rfl)
  · rw [hrun]
    rcases admitOrder_cases bincode item.clock order h with ⟨code, hresult, -⟩ | ⟨hresult, -⟩
    · rw [hresult]
      simp [acceptedOf, respond, ResponseMessage.reject, cancelRecords, hcancel, orderRecords]
    · rw [hresult]
      simp [acceptedOf, respond, ResponseMessage.accept, commandOf, horder, cancelRecords, hcancel,
        orderRecords]

variable (bincode) in
/-- **What a message is accepted with**: a cancel if there is a producer, and an order that waits
for the flush. -/
lemma acceptedOf_onMessage (item : Item) (h : UbsCoreHandler) :
    (acceptedOf item (h.onMessage bincode item.clock item.flushOk item.payload).2).toList =
      (if h.sends.isSome then cancelRecords item.payload else []) ++
        orderRecords (h.processNoFlush bincode item.clock item.payload).2 := by
  obtain ⟨-, hresponse, -⟩ := onMessage_spec bincode item h
  rw [hresponse]
  cases hparse : parseMessage item.payload with
  | none =>
      apply acceptedOf_other
      · simp [orderOf, hparse]
      · simp [cancelOf, hparse]
      · simp [processNoFlush, hparse, ProcessResult.isPending]
  | some msg =>
      obtain ⟨msgType, body⟩ := msg
      cases msgType with
      | order => exact acceptedOf_order bincode hparse
      | cancel => exact acceptedOf_cancel bincode hparse
      | query | response | deposit | withdraw =>
          apply acceptedOf_other
          · simp [orderOf, hparse]
          · simp [cancelOf, hparse]
          · simp [processNoFlush, hparse, ProcessResult.isPending]

/-- The commands accepted of a list of messages. -/
def acceptedList (bincode : Bincode) (h : UbsCoreHandler) : List Item → List ValidatedRecord
  | [] => []
  | item :: items =>
      (if h.sends.isSome then cancelRecords item.payload else []) ++
        (orderRecords (h.processNoFlush bincode item.clock item.payload).2 ++
          acceptedList bincode (h.processNoFlush bincode item.clock item.payload).1 items)

lemma isSome_sends_of_core {s t : UbsCoreHandler} (hst : s.core = t.core) :
    s.sends.isSome = t.sends.isSome := by
  have hpub : blank s.sends = blank t.sends := congrArg (fun c => c.sends) hst
  have hblank : ∀ o, (blank o).isSome = o.isSome := by
    intro o
    cases o <;> rfl
  rw [← hblank s.sends, hpub, hblank]

lemma acceptedList_congr {s t : UbsCoreHandler} (hst : s.core = t.core) (items : List Item) :
    s.acceptedList bincode items = t.acceptedList bincode items := by
  induction items generalizing s t with
  | nil => rfl
  | cons item items ih =>
      obtain ⟨hresult, hcore⟩ := processNoFlush_congr bincode hst item.clock item.payload
      simp only [acceptedList, hresult, ih hcore, isSome_sends_of_core hst]

lemma acceptedList_append (pre items : List Item) (h : UbsCoreHandler) :
    h.acceptedList bincode (pre ++ items) =
      h.acceptedList bincode pre ++ (h.collect bincode pre).1.acceptedList bincode items := by
  induction pre generalizing h with
  | nil => rfl
  | cons item pre ih => simp only [List.cons_append, acceptedList, ih, collect, List.append_assoc]

/-- The responses to messages one by one. -/
lemma accepted_singles (items : List Item) (h : UbsCoreHandler) :
    (List.zipWith acceptedOf items ((h.singles bincode items).2.map Prod.snd)).reduceOption =
      h.acceptedList bincode items := by
  induction items generalizing h with
  | nil => rfl
  | cons item items ih =>
      obtain ⟨hcore, -, -⟩ := onMessage_spec bincode item h
      have hone := acceptedOf_onMessage bincode item h
      have hcons : ∀ (x : Option ValidatedRecord) l, (x :: l).reduceOption =
          x.toList ++ l.reduceOption := by
        intro x l
        cases x <;> rfl
      simp only [singles, List.map_cons, List.zipWith_cons_cons, hcons, hone, ih, acceptedList,
        acceptedList_congr hcore, List.append_assoc]

variable (bincode) in
/-- Whichever way the messages come, the same commands are accepted and the same core is left. -/
lemma onInput_spec (input : Input) (h : UbsCoreHandler) :
    (h.onInput bincode input).1.core = (h.collect bincode input.items).1.core ∧
      (List.zipWith acceptedOf input.items (h.onInput bincode input).2).reduceOption =
        h.acceptedList bincode input.items := by
  cases input with
  | message item =>
      obtain ⟨hcore, -, -⟩ := onMessage_spec bincode item h
      exact ⟨hcore, accepted_singles [item] h⟩
  | batch flushOk items =>
      refine ⟨processBatch_core flushOk items h, ?_⟩
      show (List.zipWith acceptedOf items
        ((h.processBatch bincode flushOk items).2.map Prod.snd)).reduceOption = _
      rw [processBatch_responses]
      exact accepted_singles items h

variable (bincode) in
/-- The run of the handler. -/
lemma serve_spec (inputs : List Input) {s t : UbsCoreHandler} (hst : s.core = t.core) :
    (s.serve bincode inputs).2 = t.acceptedList bincode (inputs.flatMap Input.items) := by
  induction inputs generalizing s t with
  | nil => rfl
  | cons input inputs ih =>
      obtain ⟨hcore, haccepted⟩ := onInput_spec bincode input s
      rw [serve, haccepted, List.flatMap_cons, acceptedList_append]
      have hcollect : (s.collect bincode input.items).1.core =
          (t.collect bincode input.items).1.core :=
        (collect_eq_singles hst input.items).1.trans
          (collect_eq_singles (rfl : t.core = t.core) input.items).1.symm
      rw [acceptedList_congr hst, ih (hcore.trans hcollect)]

/-! ## Runs without accepted cancels -/

lemma acceptedList_of_no_cancel {items : List Item}
    (hno : ∀ item ∈ items, cancelOf item.payload = none) (h : UbsCoreHandler) :
    h.acceptedList bincode items =
      (h.collect bincode items).2.flatMap (fun r => orderRecords r.2) := by
  induction items generalizing h with
  | nil => rfl
  | cons item items ih =>
      have hhead : cancelRecords item.payload = [] := by simp [cancelRecords, hno item (by simp)]
      simp only [acceptedList, collect, List.flatMap_cons, hhead, ite_self, List.nil_append,
        ih (fun later hlater => hno later (by simp [hlater]))]

lemma onInput_sends {input : Input}
    (hno : ∀ item ∈ input.items, cancelOf item.payload = none) (h : UbsCoreHandler) :
    (h.onInput bincode input).1.sends =
      h.sends.map (· ++ h.acceptedList bincode input.items) := by
  rw [acceptedList_of_no_cancel hno]
  cases input with
  | message item =>
      have hnone : cancelOf item.payload = none := hno item (by simp [Input.items])
      obtain ⟨-, -, hpub⟩ := onMessage_spec bincode item h
      simpa [onInput, Input.items, collect, cancelRecords, hnone] using hpub
  | batch flushOk items =>
      have hnil := flatMap_cancelRecords_eq_nil.mpr (show ∀ item ∈ items, _ from hno)
      have hpub := processBatch_sends bincode flushOk items h
      rw [hnil, List.nil_append] at hpub
      exact hpub

variable (bincode) in
/-- Without cancels, what is accepted is what is sent. -/
lemma serve_sends {inputs : List Input}
    (hno : ∀ item ∈ inputs.flatMap Input.items, cancelOf item.payload = none)
    (h : UbsCoreHandler) :
    (h.serve bincode inputs).1.sends =
      h.sends.map (· ++ (h.serve bincode inputs).2) := by
  induction inputs generalizing h with
  | nil => simp [serve]
  | cons input inputs ih =>
      rw [List.flatMap_cons] at hno
      obtain ⟨-, haccepted⟩ := onInput_spec bincode input h
      have hrest := ih (fun item hitem => hno item (by simp [hitem])) (h.onInput bincode input).1
      rw [onInput_sends (fun item hitem => hno item (by simp [hitem]))] at hrest
      rw [serve, haccepted]
      simpa [Function.comp_def] using hrest

/-- Without a producer, nothing is sent. -/
lemma serve_sends_none (inputs : List Input) {h : UbsCoreHandler} (hnone : h.sends = none) :
    (h.serve bincode inputs).1.sends = none := by
  induction inputs generalizing h with
  | nil => exact hnone
  | cons input inputs ih =>
      apply ih
      obtain ⟨hcore, -⟩ := onInput_spec bincode input h
      have hsome := isSome_sends_of_core hcore
      rw [collect_sends, hnone] at hsome
      simpa using hsome

variable (bincode) in
lemma cancel_mem_acceptedList_iff {items : List Item} {h : UbsCoreHandler} {c : UInt64 × UInt64} :
    ValidatedRecord.cancel c.1 c.2 ∈ h.acceptedList bincode items ↔
      h.sends.isSome = true ∧ ∃ item ∈ items, cancelOf item.payload = some c := by
  induction items generalizing h with
  | nil => simp [acceptedList]
  | cons item items ih =>
      have hnext : (h.processNoFlush bincode item.clock item.payload).1.sends.isSome =
          h.sends.isSome := by
        rw [processNoFlush_sends, Option.isSome_map]
      have horder : ValidatedRecord.cancel c.1 c.2 ∉
          orderRecords (h.processNoFlush bincode item.clock item.payload).2 := by
        cases (h.processNoFlush bincode item.clock item.payload).2 <;> simp [orderRecords]
      have hcancel : ValidatedRecord.cancel c.1 c.2 ∈
          (if h.sends.isSome then cancelRecords item.payload else []) ↔
            h.sends.isSome = true ∧ cancelOf item.payload = some c := by
        cases h.sends.isSome <;> simp [cancelRecords, eq_comm]
      simp only [acceptedList, List.mem_append, horder, false_or, ih, hnext, hcancel,
        List.exists_mem_cons_iff, ← and_or_left]

lemma orderOf_of_pending {item : Item} {h : UbsCoreHandler} {order : InternalOrder}
    {response : ResponseMessage}
    (hpending : (h.processNoFlush bincode item.clock item.payload).2 = .pending order response) :
    orderOf item.payload = some order := by
  cases hparse : parseMessage item.payload with
  | none => simp [processNoFlush, hparse] at hpending
  | some msg =>
      obtain ⟨msgType, body⟩ := msg
      cases msgType with
      | cancel | query | deposit | withdraw | response =>
          simp [processNoFlush, hparse] at hpending
      | order =>
          rcases processNoFlush_order bincode (h := h) hparse with
            ⟨-, orderId, code, hrun⟩ | ⟨order', horder, hrun⟩
          · rw [hrun] at hpending
            simp at hpending
          · rw [hrun] at hpending
            rcases admitOrder_cases bincode item.clock order' h with
              ⟨code, hresult, -⟩ | ⟨hresult, -⟩
            · rw [hresult] at hpending
              simp at hpending
            · rw [hresult] at hpending
              rw [horder, (ProcessResult.pending.inj hpending).1]

variable (bincode) in
lemma mem_orderRecords_iff (item : Item) (h : UbsCoreHandler) (order : InternalOrder) :
    ValidatedRecord.order order ∈
        orderRecords (h.processNoFlush bincode item.clock item.payload).2 ↔
      orderOf item.payload = some order ∧ h.Admits bincode item := by
  rw [← isPending_processNoFlush_iff]
  cases hresult : (h.processNoFlush bincode item.clock item.payload).2 with
  | immediate response => simp [orderRecords, ProcessResult.isPending]
  | pending order' response =>
      simp [orderRecords, ProcessResult.isPending, orderOf_of_pending hresult, eq_comm]

lemma order_mem_acceptedList_iff {items : List Item} {s t : UbsCoreHandler}
    (hst : s.core = t.core) {order : InternalOrder} :
    ValidatedRecord.order order ∈ s.acceptedList bincode items ↔
      ∃ pre item post, items = pre ++ item :: post ∧ orderOf item.payload = some order ∧
        (t.singles bincode pre).1.Admits bincode item := by
  induction items generalizing s t with
  | nil => simp [acceptedList]
  | cons first items ih =>
      obtain ⟨-, hcore⟩ := processNoFlush_congr bincode hst first.clock first.payload
      obtain ⟨hcore', -, -⟩ := onMessage_spec bincode first t
      have hcancel : ValidatedRecord.order order ∉
          (if s.sends.isSome then cancelRecords first.payload else []) := by
        split <;> simp [cancelRecords]
      rw [acceptedList, List.mem_append, List.mem_append, mem_orderRecords_iff, admits_congr hst,
        ih (hcore.trans hcore'.symm)]
      constructor
      · rintro (hmem | ⟨horder, hadmits⟩ | ⟨pre, item, post, rfl, horder, hadmits⟩)
        · exact absurd hmem hcancel
        · exact ⟨[], first, items, rfl, horder, hadmits⟩
        · exact ⟨first :: pre, item, post, rfl, horder, hadmits⟩
      · rintro ⟨pre, item, post, heq, horder, hadmits⟩
        cases pre with
        | nil =>
            obtain ⟨rfl, rfl⟩ := List.cons.inj heq
            exact Or.inr (Or.inl ⟨horder, hadmits⟩)
        | cons _ pre =>
            obtain ⟨rfl, rfl⟩ := List.cons.inj heq
            exact Or.inr (Or.inr ⟨pre, item, post, rfl, horder, hadmits⟩)

end UbsCoreHandler

/-! ## Agreement -/

/-- Every accepted command is one the poll loop can hand over: with a producer, no message is a
cancel; and an order that is admitted where it arrives is delivered by its send. -/
def CommandsReach (bincode : Bincode) (delivers : DroppedSend) (h : UbsCoreHandler)
    (inputs : List UbsCoreHandler.Input) : Prop :=
  ∀ pre item post, inputs.flatMap UbsCoreHandler.Input.items = pre ++ item :: post →
    (h.sends.isSome = true → UbsCoreHandler.cancelOf item.payload = none) ∧
      ∀ order, UbsCoreHandler.orderOf item.payload = some order →
        (h.singles bincode pre).1.Admits bincode item →
          h.sends.isSome = true ∧ delivers (.order order) = true

section Agreement

variable {codec : TopicCodec} {env : Externals} {cfg : PollConfig} {delivers : DroppedSend}
  {h : UbsCoreHandler} {inputs : List UbsCoreHandler.Input} {polls : List (List Record)}

/-- The condition, by the commands that are accepted. -/
lemma commandsReach_iff :
    CommandsReach codec.toBincode delivers h inputs ↔
      ∀ msg ∈ (h.serve codec.toBincode inputs).2, ∃ order, msg = .order order ∧
        h.sends.isSome = true ∧ delivers (.order order) = true := by
  rw [UbsCoreHandler.serve_spec codec.toBincode inputs (rfl : h.core = h.core)]
  constructor
  · intro hreach msg hmsg
    cases msg with
    | order order =>
        obtain ⟨pre, item, post, hsplit, horder, hadmits⟩ :=
          (UbsCoreHandler.order_mem_acceptedList_iff rfl).mp hmsg
        exact ⟨order, rfl, (hreach pre item post hsplit).2 order horder hadmits⟩
    | cancel userId orderId =>
        obtain ⟨hsome, item, hitem, hcancel⟩ :=
          (UbsCoreHandler.cancel_mem_acceptedList_iff codec.toBincode (c := (userId, orderId))).mp
            hmsg
        obtain ⟨pre, post, hsplit⟩ := List.append_of_mem hitem
        rw [(hreach pre item post hsplit).1 hsome] at hcancel
        exact absurd hcancel (by simp)
  · intro hall pre item post hsplit
    have hitem : item ∈ inputs.flatMap UbsCoreHandler.Input.items := by simp [hsplit]
    refine ⟨fun hsome => ?_, fun order horder hadmits => ?_⟩
    · rw [Option.eq_none_iff_forall_ne_some]
      intro c hcancel
      obtain ⟨order, heq, -⟩ := hall _
        ((UbsCoreHandler.cancel_mem_acceptedList_iff codec.toBincode).mpr
          ⟨hsome, item, hitem, hcancel⟩)
      exact absurd heq (by simp)
    · obtain ⟨order', heq, hreached⟩ := hall _
        ((UbsCoreHandler.order_mem_acceptedList_iff rfl).mpr
          ⟨pre, item, post, hsplit, horder, hadmits⟩)
      rwa [ValidatedRecord.order.inj heq]

lemma handedCommands_of_accepted
    (hround : ∀ order, codec.decodeOrder (codec.order order) = some order)
    (htopic : cfg.ordersTopic = "validated_orders") {orders : List InternalOrder}
    (haccepted : (h.serve codec.toBincode inputs).2 = orders.map .order)
    (hknown : ∀ order ∈ orders, order.symbolId ∈ cfg.symbols)
    (hpolls : List.Forall₂ (ValidatedRecord.CarriedBy codec)
      (UbsCoreHandler.deliveredSince delivers h (h.serve codec.toBincode inputs).1)
      polls.flatten) :
    handedCommands env cfg polls =
      (orders.filter (fun order => h.sends.isSome && delivers (.order order))).map .place := by
  refine handedCommands_of_orders hround htopic
    (fun order horder => hknown order (List.mem_of_mem_filter horder)) ?_
  cases hp : h.sends with
  | none =>
      simpa [UbsCoreHandler.deliveredSince, UbsCoreHandler.serve_sends_none inputs hp] using hpolls
  | some records =>
      -- a cancel would have been accepted
      have hno : ∀ item ∈ inputs.flatMap UbsCoreHandler.Input.items,
          UbsCoreHandler.cancelOf item.payload = none := by
        intro item hitem
        rw [Option.eq_none_iff_forall_ne_some]
        intro c hcancel
        have hmem := (UbsCoreHandler.cancel_mem_acceptedList_iff codec.toBincode).mpr
          ⟨by rw [hp]; rfl, item, hitem, hcancel⟩
        rw [← UbsCoreHandler.serve_spec codec.toBincode inputs (rfl : h.core = h.core),
          haccepted] at hmem
        simp at hmem
      rw [UbsCoreHandler.deliveredSince, UbsCoreHandler.serve_sends codec.toBincode hno h, hp,
        haccepted] at hpolls
      simpa [List.filter_map, Function.comp_def] using hpolls

end Agreement

/-- **Agreement on the topic.**  Let bincode round-trip an order, let the server read the topic and
know the symbols of the accepted orders, and let some polls deliver what got on the topic in a run
of the handler.  The commands handed to the matcher are the ones answered with accept, in the same
order, exactly if no accepted command is a cancel and every accepted order is delivered. -/
theorem commands_agree_iff (codec : TopicCodec) (env : Externals) (cfg : PollConfig)
    (delivers : DroppedSend)
    (hround : ∀ order, codec.decodeOrder (codec.order order) = some order)
    (htopic : cfg.ordersTopic = "validated_orders") (h : UbsCoreHandler)
    (inputs : List UbsCoreHandler.Input)
    (hknown : ∀ order, .order order ∈ (h.serve codec.toBincode inputs).2 →
      order.symbolId ∈ cfg.symbols)
    (polls : List (List Record))
    (hpolls : List.Forall₂ (ValidatedRecord.CarriedBy codec)
      (UbsCoreHandler.deliveredSince delivers h (h.serve codec.toBincode inputs).1)
      polls.flatten) :
    handedCommands env cfg polls =
        (h.serve codec.toBincode inputs).2.map ValidatedRecord.command ↔
      CommandsReach codec.toBincode delivers h inputs := by
  rw [commandsReach_iff]
  have hhanded : ∀ orders : List InternalOrder,
      (h.serve codec.toBincode inputs).2 = orders.map .order →
        handedCommands env cfg polls =
          (orders.filter (fun order => h.sends.isSome && delivers (.order order))).map .place := by
    intro orders haccepted
    refine handedCommands_of_accepted hround htopic haccepted (fun order horder => ?_) hpolls
    exact hknown order (by rw [haccepted]; exact List.mem_map_of_mem horder)
  have hplaced : ∀ orders : List InternalOrder,
      (orders.map ValidatedRecord.order).map ValidatedRecord.command = orders.map .place := by
    intro orders
    rw [List.map_map]
    rfl
  constructor
  · intro heq
    -- the loop hands over orders only
    have horders : ∀ msg ∈ (h.serve codec.toBincode inputs).2,
        msg ∈ Set.range ValidatedRecord.order := by
      intro msg hmsg
      cases msg with
      | order order => exact ⟨order, rfl⟩
      | cancel userId orderId =>
          have hmem : MatcherCommand.cancel orderId ∈ handedCommands env cfg polls := by
            rw [heq]
            exact List.mem_map_of_mem hmsg
          rw [handedCommands_eq] at hmem
          simp at hmem
    obtain ⟨orders, haccepted⟩ := (Set.range_list_map ValidatedRecord.order).ge horders
    rw [hhanded orders haccepted.symm, ← haccepted, hplaced] at heq
    have hlength := congrArg List.length heq
    rw [List.length_map, List.length_map, List.length_filter_eq_length_iff] at hlength
    rw [← haccepted]
    intro msg hmsg
    obtain ⟨order, horder, rfl⟩ := List.mem_map.mp hmsg
    exact ⟨order, rfl, by simpa using hlength order horder⟩
  · intro hall
    obtain ⟨orders, haccepted⟩ := (Set.range_list_map ValidatedRecord.order).ge
      (fun msg hmsg => (hall msg hmsg).imp (fun _ h => h.1.symm))
    rw [hhanded orders haccepted.symm, ← haccepted, hplaced, List.filter_eq_self.mpr]
    intro order horder
    obtain ⟨order', heq, hreached⟩ := hall (.order order)
      (by rw [← haccepted]; exact List.mem_map_of_mem horder)
    rw [ValidatedRecord.order.inj heq, Bool.and_eq_true]
    exact hreached

/-! ## bincode -/

namespace TopicCodec

/-- The side with an index. -/
def sideOf (index : UInt32) : Option Side :=
  if index = 0 then some .buy else if index = 1 then some .sell else none

/-- The order type with an index. -/
def orderTypeOf (index : UInt32) : Option OrderType :=
  if index = 0 then some .limit else if index = 1 then some .market else none

/-- `bincode::deserialize::<InternalOrder>` in the default configuration. -/
def decodeFixint (bytes : Bytes) : Option InternalOrder :=
  if bytes.length < 44 then none
  else do
    let side ← sideOf (Bytes.u32At bytes 20)
    let orderType ← orderTypeOf (Bytes.u32At bytes 40)
    return ⟨Bytes.u64At bytes 0, Bytes.u64At bytes 8, Bytes.u32At bytes 16, side,
      Bytes.u64At bytes 24, Bytes.u64At bytes 32, orderType⟩

/-- The default configuration: a variant of a request is its index and its fields.  bincode never
writes a JSON object. -/
def fixint : TopicCodec where
  toBincode := Bincode.fixint
  request
    | .placeOrder orderId userId symbolId side price quantity orderType checksum =>
        Bytes.ofU32 0 ++ Bytes.ofU64 orderId ++ Bytes.ofU64 userId ++ Bytes.ofU32 symbolId ++
          Bytes.ofU32 (match side with | .buy => 0 | .sell => 1) ++ Bytes.ofU64 price ++
          Bytes.ofU64 quantity ++ Bytes.ofU32 (match orderType with | .limit => 0 | .market => 1) ++
          Bytes.ofU32 checksum
    | .cancelOrder orderId userId symbolId checksum =>
        Bytes.ofU32 1 ++ Bytes.ofU64 orderId ++ Bytes.ofU64 userId ++ Bytes.ofU32 symbolId ++
          Bytes.ofU32 checksum
  decodeOrder := decodeFixint
  decodeRequest := fun _ => none

/-- An order is read back as it was written. -/
lemma decodeFixint_order (order : InternalOrder) :
    decodeFixint (Bincode.fixint.order order) = some order := by
  have hlen : ¬(Bincode.fixint.order order).length < 44 := by simp [Bincode.fixint]
  rw [decodeFixint, if_neg hlen]
  simp (disch := simp) only [Bincode.fixint, Bytes.u64At_append_of_le, Bytes.u32At_append_of_le,
    Bytes.u64At_append_ofU64, Bytes.u32At_append_ofU32, Bytes.u64At_ofU64]
  obtain ⟨orderId, userId, symbolId, side, price, qty, orderType⟩ := order
  cases side with
  | buy => cases orderType <;> rfl
  | sell => cases orderType <;> rfl

end TopicCodec

/-- The record that carries a message. -/
def ValidatedRecord.record (msg : ValidatedRecord) : Record :=
  ⟨"validated_orders", some 0,
    some ⟨TopicCodec.decodeFixint (msg.payload .fixint), none⟩⟩

lemma ValidatedRecord.carriedBy_record (msg : ValidatedRecord) :
    msg.CarriedBy .fixint msg.record := ⟨rfl, rfl⟩

/-- The server reads the topic and knows symbol 1. -/
def validatedOrders : PollConfig := ⟨"validated_orders", {1}⟩

/-- An order is accepted, and as its send is dropped there is nothing on the topic to poll. -/
theorem commands_agree_iff_buy :
    ¬∃ env : Externals, handedCommands env validatedOrders [[]] =
      (UbsCoreHandler.funded.serve Bincode.fixint
        [.message ⟨10, UbsCoreHandler.buyPayload, 0, true⟩]).2.map ValidatedRecord.command := by
  rintro ⟨env, heq⟩
  have haccepted : (UbsCoreHandler.funded.serve Bincode.fixint
      [.message ⟨10, UbsCoreHandler.buyPayload, 0, true⟩]).2 = [.order buyOrder] := by decide
  have hreach := (commands_agree_iff .fixint env validatedOrders (fun _ => false)
    TopicCodec.decodeFixint_order rfl UbsCoreHandler.funded
    [.message ⟨10, UbsCoreHandler.buyPayload, 0, true⟩] ?_ [[]] ?_).mp heq
  · have hall := commandsReach_iff.mp hreach
    change ∀ msg ∈ (UbsCoreHandler.funded.serve Bincode.fixint _).2, _ at hall
    rw [haccepted] at hall
    obtain ⟨_, -, -, hdelivered⟩ := hall (.order buyOrder) (by simp)
    exact absurd hdelivered (by simp)
  · intro order horder
    change .order order ∈ (UbsCoreHandler.funded.serve Bincode.fixint _).2 at horder
    rw [haccepted, List.mem_singleton] at horder
    obtain rfl := ValidatedRecord.order.inj horder
    decide
  · rw [UbsCoreHandler.deliveredSince, List.filter_false]
    exact .nil

/-- A cancel is answered with accept, and whatever becomes of its send, the poll that delivers it
hands nothing to the matcher. -/
theorem accepted_cancel_dropped :
    ¬∃ (env : Externals) (delivers : DroppedSend), ∀ (h : UbsCoreHandler)
      (inputs : List UbsCoreHandler.Input) (polls : List (List Record)),
      (∀ order, .order order ∈ (h.serve Bincode.fixint inputs).2 →
        order.symbolId ∈ validatedOrders.symbols) →
      List.Forall₂ (ValidatedRecord.CarriedBy .fixint)
        (UbsCoreHandler.deliveredSince delivers h (h.serve Bincode.fixint inputs).1)
        polls.flatten →
      handedCommands env validatedOrders polls =
        (h.serve Bincode.fixint inputs).2.map ValidatedRecord.command := by
  rintro ⟨env, delivers, hall⟩
  have haccepted : (UbsCoreHandler.funded.serve Bincode.fixint
      [.message ⟨10, UbsCoreHandler.cancelPayload, 0, true⟩]).2 = [.cancel 1 7] := by decide
  have hsent : (UbsCoreHandler.funded.serve Bincode.fixint
      [.message ⟨10, UbsCoreHandler.cancelPayload, 0, true⟩]).1.sends = some [.cancel 1 7] := by
    decide
  have heq := hall UbsCoreHandler.funded [.message ⟨10, UbsCoreHandler.cancelPayload, 0, true⟩]
    [([.cancel 1 7].filter delivers).map ValidatedRecord.record] ?_ ?_
  · rw [haccepted, handedCommands_eq] at heq
    have hcancel : MatcherCommand.cancel 7 ∈
        [ValidatedRecord.cancel 1 7].map ValidatedRecord.command := by
        simp [ValidatedRecord.command]
    rw [← heq] at hcancel
    simp at hcancel
  · intro order horder
    rw [haccepted] at horder
    exact absurd horder (by simp)
  · rw [UbsCoreHandler.deliveredSince, hsent, List.flatten_singleton, List.forall₂_map_right_iff]
    exact List.forall₂_same.mpr (fun msg _ => msg.carriedBy_record)

end ExchangeCore
