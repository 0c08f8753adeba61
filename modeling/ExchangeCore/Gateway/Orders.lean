import ExchangeCore.Comm.AeronChannel
import ExchangeCore.Models.ClientOrder
import ExchangeCore.Ubs.Dispatch
import Mathlib.Data.List.GetD

/-!
# Orders through the gateway

`create_order` and `cancel_order` (`gateway.rs`), with the conversion of the order
(`client_order_convertor.rs`) and the client of UBSCore (`comm/gateway_client.rs`) below them.  The
answer of UBSCore comes as bytes; a channel that fails, and bytes that are no response, are errors
of the client, while a response that rejects is a response like any other.  Neither handler looks at
which it is: whatever is parsed, the order is reported as accepted, and the cancellation as done
(`honest_iff`).

What a channel makes of a payload, the id that the generator draws and the padding in messages are
arguments.  `serve` is the channel with the handler of UBSCore at its other end.
-/

namespace ExchangeCore

/-! ## Messages -/

/-- Bytes between the fields of a `#[repr(C)]` message, of no particular value. -/
abbrev Padding (n : ℕ) := { bs : Bytes // bs.length = n }

/-- The discriminant of UBSCore's own `Side`. -/
def Side.ubsByte : Side → UInt8
  | .buy => 0
  | .sell => 1

/-- The discriminant of UBSCore's own `OrderType`. -/
def OrderType.ubsByte : OrderType → UInt8
  | .limit => 0
  | .market => 1

namespace OrderMessage

def fromOrder (order : InternalOrder) : OrderMessage where
  orderId := order.orderId
  userId := order.userId
  symbolId := order.symbolId
  side := order.side.ubsByte
  orderType := order.orderType.ubsByte
  price := order.price
  qty := order.qty

def toBytes (pad : Padding 2) (msg : OrderMessage) : Bytes :=
  Bytes.ofU64 msg.orderId ++ Bytes.ofU64 msg.userId ++ Bytes.ofU32 msg.symbolId ++
    [msg.side, msg.orderType] ++ pad.1 ++ Bytes.ofU64 msg.price ++ Bytes.ofU64 msg.qty

@[simp] lemma fromBytes_toBytes (pad : Padding 2) (msg : OrderMessage) :
    fromBytes (msg.toBytes pad) = some msg := by
  have hlen : ¬(msg.toBytes pad).length < 40 := by
    simp [toBytes, pad.2]
  have hbyte : ∀ i, (msg.toBytes pad).getD (20 + i) 0 =
      ([msg.side, msg.orderType] ++ (pad.1 ++ (Bytes.ofU64 msg.price ++ Bytes.ofU64 msg.qty))).getD
        i 0 := by
    intro i
    have hsplit : msg.toBytes pad =
        (Bytes.ofU64 msg.orderId ++ Bytes.ofU64 msg.userId ++ Bytes.ofU32 msg.symbolId) ++
          ([msg.side, msg.orderType] ++
            (pad.1 ++ (Bytes.ofU64 msg.price ++ Bytes.ofU64 msg.qty))) := by
      simp only [toBytes, List.append_assoc]
    rw [hsplit, List.getD_append_right _ _ _ _ (by simp)]
    simp
  have hside : Bytes.u8At (msg.toBytes pad) 20 = msg.side := hbyte 0
  have htype : Bytes.u8At (msg.toBytes pad) 21 = msg.orderType := hbyte 1
  rw [fromBytes, if_neg hlen, hside, htype]
  obtain ⟨orderId, userId, symbolId, side, orderType, price, qty⟩ := msg
  have hid := @Bytes.u64At_field [] (Bytes.ofU64 userId ++ (Bytes.ofU32 symbolId ++
    ([side, orderType] ++ (pad.1 ++ (Bytes.ofU64 price ++ Bytes.ofU64 qty))))) 0 rfl orderId
  have huser := @Bytes.u64At_field (Bytes.ofU64 orderId) (Bytes.ofU32 symbolId ++
    ([side, orderType] ++ (pad.1 ++ (Bytes.ofU64 price ++ Bytes.ofU64 qty)))) 8 (by simp) userId
  have hsymbol := @Bytes.u32At_field (Bytes.ofU64 orderId ++ Bytes.ofU64 userId)
    ([side, orderType] ++ (pad.1 ++ (Bytes.ofU64 price ++ Bytes.ofU64 qty))) 16 (by simp) symbolId
  have hprice := @Bytes.u64At_field (Bytes.ofU64 orderId ++ Bytes.ofU64 userId ++
    Bytes.ofU32 symbolId ++ [side, orderType] ++ pad.1) (Bytes.ofU64 qty) 24 (by simp [pad.2]) price
  have hqty := @Bytes.u64At_append_ofU64 (Bytes.ofU64 orderId ++ Bytes.ofU64 userId ++
    Bytes.ofU32 symbolId ++ [side, orderType] ++ pad.1 ++ Bytes.ofU64 price) 32
      (by simp [pad.2]) qty
  simp only [List.append_assoc, List.nil_append] at hid huser hsymbol hprice hqty
  simp only [toBytes, List.append_assoc]
  rw [hid, huser, hsymbol, hprice, hqty]

@[simp] lemma toInternalOrder_fromOrder (order : InternalOrder) :
    (fromOrder order).toInternalOrder = .ok order := by
  obtain ⟨orderId, userId, symbolId, side, price, qty, orderType⟩ := order
  cases side <;> cases orderType <;> rfl

end OrderMessage

namespace ResponseMessage

def isAccepted (msg : ResponseMessage) : Bool := msg.accepted = 1

def toBytes (pad : Padding 6) (msg : ResponseMessage) : Bytes :=
  Bytes.ofU64 msg.orderId ++ [msg.accepted, msg.reasonCode] ++ pad.1

def fromBytes (bytes : Bytes) : Option ResponseMessage :=
  if bytes.length < 16 then none else some ⟨bytes.u64At 0, bytes.u8At 8, bytes.u8At 9⟩

@[simp] lemma fromBytes_toBytes (pad : Padding 6) (msg : ResponseMessage) :
    fromBytes (msg.toBytes pad) = some msg := by
  have hlen : ¬(msg.toBytes pad).length < 16 := by
    simp [toBytes, pad.2]
  have hid : Bytes.u64At (msg.toBytes pad) 0 = msg.orderId := by
    rw [toBytes, List.append_assoc, Bytes.u64At_append_of_le (by simp), Bytes.u64At_ofU64]
  have hbyte : ∀ i, (msg.toBytes pad).getD (8 + i) 0 =
      ([msg.accepted, msg.reasonCode] ++ pad.1).getD i 0 := by
    intro i
    rw [toBytes, List.append_assoc, List.getD_append_right _ _ _ _ (by simp)]
    simp
  rw [fromBytes, if_neg hlen, hid, Bytes.u8At, hbyte 0, Bytes.u8At, hbyte 1]
  rfl

end ResponseMessage

/-! ## The client of UBSCore -/

/-- What `send_and_receive` makes of a payload. -/
abbrev Channel := Bytes → Except SendError Bytes

/-- `SendError` as text. -/
def SendError.display : SendError → String
  | .notConnected => "Not connected to subscriber"
  | .backPressured => "System busy - buffer full"
  | .adminAction => "Admin action in progress"
  | .closed => "Publication closed"
  | .maxPositionExceeded => "Max position exceeded"
  | .unknown position => s!"Unknown error code: {position}"
  | .aeronError message => s!"Aeron error: {message}"

namespace UbsGatewayClient

variable (channel : Channel)

/-- The bytes of a response, parsed; its message type is not looked at. -/
def readResponse (bytes : Bytes) : Except SendError ResponseMessage :=
  match parseMessage bytes with
  | none => .error (.aeronError "Empty response")
  | some (_, body) =>
      match ResponseMessage.fromBytes body with
      | none => .error (.aeronError "Invalid response format")
      | some msg => .ok msg

/-- Send a payload and parse the response. -/
def request (payload : Bytes) : Except SendError ResponseMessage := do
  let bytes ← channel payload
  readResponse bytes

/-- The payload of an order. -/
def orderPayload (pad : Padding 2) (order : InternalOrder) : Bytes :=
  1 :: (OrderMessage.fromOrder order).toBytes pad

/-- The payload of a cancellation. -/
def cancelPayload (userId orderId : UInt64) : Bytes :=
  2 :: (Bytes.ofU64 userId ++ Bytes.ofU64 orderId)

def sendOrder (pad : Padding 2) (order : InternalOrder) : Except SendError ResponseMessage :=
  request channel (orderPayload pad order)

def sendCancel (userId orderId : UInt64) : Except SendError ResponseMessage :=
  request channel (cancelPayload userId orderId)

end UbsGatewayClient

/-! ## The handlers -/

namespace Gateway

inductive OrderStatus
  | new
  | accepted
  | partiallyFilled
  | filled
  | cancelled
  | rejected (reason : String)
  deriving DecidableEq, Repr

structure OrderResponseData where
  orderId : String
  orderStatus : OrderStatus
  cid : Option String
  deriving DecidableEq, Repr

structure ApiResponse (α : Type) where
  status : Int32
  msg : String
  data : α
  deriving DecidableEq, Repr

def ApiResponse.success {α : Type} (data : α) : ApiResponse α := ⟨0, "ok", data⟩

/-- How a handler fails: with a status code and a text, or by a panic. -/
inductive HandlerError
  | response (status : ℕ) (text : String)
  | panic (message : String)
  deriving DecidableEq, Repr

/-- An error of a conversion is a `400 Bad Request`. -/
def badRequest : Abort → HandlerError
  | .error message => .response 400 message
  | .panic message => .panic message

/-- An error of the client is a `500 Internal Server Error`. -/
def ubscoreError (e : SendError) : HandlerError := .response 500 s!"UBSCore error: {e.display}"

def clientOrderConvert (env : ValidationEnv) (sm : SymbolManager) (orderId userId : UInt64)
    (order : ClientOrder) : Except HandlerError (UInt64 × InternalOrder) := do
  (order.validateOrder env).mapError badRequest
  let internal ← (order.toUbsInternal env sm orderId userId).mapError badRequest
  .ok (orderId, internal)

def createOrder (env : ValidationEnv) (sm : SymbolManager) (channel : Channel) (pad : Padding 2)
    (orderId userId : UInt64) (order : ClientOrder) :
    Except HandlerError (ApiResponse OrderResponseData) := do
  let (orderId, internal) ← clientOrderConvert env sm orderId userId order
  let _ ← (UbsGatewayClient.sendOrder channel pad internal).mapError ubscoreError
  .ok (.success ⟨toString orderId, .accepted, order.cid⟩)

def cancelOrder (channel : Channel) (userId orderId : UInt64) :
    Except HandlerError (ApiResponse OrderResponseData) := do
  let _ ← (UbsGatewayClient.sendCancel channel userId orderId).mapError ubscoreError
  .ok (.success ⟨toString orderId, .cancelled, none⟩)

/-! ## What is reported -/

/-- What UBSCore answers to an order, if it is converted and the client reads an answer. -/
def orderAnswer (env : ValidationEnv) (sm : SymbolManager) (channel : Channel) (pad : Padding 2)
    (orderId userId : UInt64) (order : ClientOrder) : Option ResponseMessage :=
  match clientOrderConvert env sm orderId userId order with
  | .error _ => none
  | .ok (_, internal) => (UbsGatewayClient.sendOrder channel pad internal).toOption

/-- What UBSCore answers to a cancellation. -/
def cancelAnswer (channel : Channel) (userId orderId : UInt64) : Option ResponseMessage :=
  (UbsGatewayClient.sendCancel channel userId orderId).toOption

/-- A handler reports `done` only if UBSCore accepts, and an error or a rejection if it rejects. -/
structure Honest (outcome : Except HandlerError (ApiResponse OrderResponseData))
    (answer : Option ResponseMessage) (done : OrderStatus) : Prop where
  accepted : ∀ response, outcome = .ok response → response.data.orderStatus = done →
    ∃ msg, answer = some msg ∧ msg.isAccepted = true
  rejected : ∀ msg, answer = some msg → msg.isAccepted = false →
    (∃ e, outcome = .error e) ∨ ∃ response reason, outcome = .ok response ∧
      response.data.orderStatus = .rejected reason

/-- A handler that looks at nothing but whether there is an answer. -/
lemma honest_iff_of_answered {outcome : Except HandlerError (ApiResponse OrderResponseData)}
    {answer : Option ResponseMessage} {response : ApiResponse OrderResponseData}
    (hok : ∀ msg, answer = some msg → outcome = .ok response)
    (herror : answer = none → ∃ e, outcome = .error e) :
    Honest outcome answer response.data.orderStatus ↔
      ∀ msg, answer = some msg → msg.isAccepted = true := by
  constructor
  · intro h msg hmsg
    obtain ⟨msg', hmsg', haccepted⟩ := h.accepted response (hok msg hmsg) rfl
    rw [Option.some.inj (hmsg.symm.trans hmsg')]
    exact haccepted
  · intro h
    constructor
    · intro response' hresponse _
      cases hanswer : answer with
      | none =>
          obtain ⟨e, he⟩ := herror hanswer
          exact absurd (he.symm.trans hresponse) (by simp)
      | some msg => exact ⟨msg, rfl, h msg hanswer⟩
    · intro msg hmsg hreject
      exact absurd (h msg hmsg) (by rw [hreject]; simp)

section Outcomes

variable {env : ValidationEnv} {sm : SymbolManager} {channel : Channel} {pad : Padding 2}
  {orderId userId : UInt64} {order : ClientOrder} {msg : ResponseMessage}

lemma clientOrderConvert_id {id : UInt64} {internal : InternalOrder}
    (h : clientOrderConvert env sm orderId userId order = .ok (id, internal)) : id = orderId := by
  obtain ⟨_, _, h⟩ := Except.exists_of_bind_eq_ok h
  obtain ⟨internal', _, h⟩ := Except.exists_of_bind_eq_ok h
  exact (Prod.mk.inj (Except.ok.inj h)).1.symm

lemma createOrder_of_answer
    (h : orderAnswer env sm channel pad orderId userId order = some msg) :
    createOrder env sm channel pad orderId userId order =
      .ok (.success ⟨toString orderId, .accepted, order.cid⟩) := by
  unfold orderAnswer at h
  unfold createOrder
  cases hconvert : clientOrderConvert env sm orderId userId order with
  | error e =>
      rw [hconvert] at h
      exact absurd h (by simp)
  | ok converted =>
      obtain ⟨id, internal⟩ := converted
      obtain rfl := clientOrderConvert_id hconvert
      rw [hconvert] at h
      dsimp only at h
      cases hsend : UbsGatewayClient.sendOrder channel pad internal with
      | error e =>
          rw [hsend] at h
          exact absurd h (by simp [Except.toOption])
      | ok msg' =>
          show (UbsGatewayClient.sendOrder channel pad internal).mapError ubscoreError >>= _ = _
          rw [hsend]
          rfl

lemma createOrder_of_none (h : orderAnswer env sm channel pad orderId userId order = none) :
    ∃ e, createOrder env sm channel pad orderId userId order = .error e := by
  unfold orderAnswer at h
  unfold createOrder
  cases hconvert : clientOrderConvert env sm orderId userId order with
  | error e => exact ⟨e, rfl⟩
  | ok converted =>
      obtain ⟨id, internal⟩ := converted
      rw [hconvert] at h
      dsimp only at h
      cases hsend : UbsGatewayClient.sendOrder channel pad internal with
      | error e =>
          refine ⟨ubscoreError e, ?_⟩
          show (UbsGatewayClient.sendOrder channel pad internal).mapError ubscoreError >>= _ = _
          rw [hsend]
          rfl
      | ok msg' =>
          rw [hsend] at h
          exact absurd h (by simp [Except.toOption])

lemma cancelOrder_of_answer (h : cancelAnswer channel userId orderId = some msg) :
    cancelOrder channel userId orderId = .ok (.success ⟨toString orderId, .cancelled, none⟩) := by
  unfold cancelAnswer at h
  unfold cancelOrder
  cases hsend : UbsGatewayClient.sendCancel channel userId orderId with
  | error e =>
      rw [hsend] at h
      exact absurd h (by simp [Except.toOption])
  | ok msg' => rfl

lemma cancelOrder_of_none (h : cancelAnswer channel userId orderId = none) :
    ∃ e, cancelOrder channel userId orderId = .error e := by
  unfold cancelAnswer at h
  unfold cancelOrder
  cases hsend : UbsGatewayClient.sendCancel channel userId orderId with
  | error e => exact ⟨_, rfl⟩
  | ok msg' =>
      rw [hsend] at h
      exact absurd h (by simp [Except.toOption])

end Outcomes

/-! ## UBSCore at the other end -/

/-- The channel to a UBSCore that handles one message at a time. -/
def serve (bincode : Bincode) (clock : UInt64) (flushOk : Bool) (pad : Padding 6)
    (h : UbsCoreHandler) : Channel := fun payload =>
  .ok (128 :: (h.onMessage bincode clock flushOk payload).2.toBytes pad)

section Served

variable {bincode : Bincode} {clock : UInt64} {flushOk : Bool} {pad : Padding 6}
  {h : UbsCoreHandler}

/-- The client reads the response of the handler. -/
lemma request_serve (payload : Bytes) :
    UbsGatewayClient.request (serve bincode clock flushOk pad h) payload =
      .ok (h.onMessage bincode clock flushOk payload).2 := by
  show UbsGatewayClient.readResponse (128 :: _) = _
  unfold UbsGatewayClient.readResponse
  simp only [parseMessage, show MsgType.tryFrom 128 = some .response from rfl, Option.map_some,
    ResponseMessage.fromBytes_toBytes]

lemma isAccepted_orderPayload (pad' : Padding 2) (order : InternalOrder) :
    (h.onMessage bincode clock flushOk
        (UbsGatewayClient.orderPayload pad' order)).2.isAccepted = true ↔
      (UBSCore.validateOrder order clock h.ubsCore).1.isOk = true ∧
        (h.wal.append (bincode.orderEntry order)).1.isOk = true := by
  show (h.handleOrder bincode clock flushOk
    ((OrderMessage.fromOrder order).toBytes pad')).2.isAccepted = true ↔ _
  unfold UbsCoreHandler.handleOrder
  simp only [OrderMessage.fromBytes_toBytes, OrderMessage.toInternalOrder_fromOrder]
  rcases UBSCore.validateOrder order clock h.ubsCore with ⟨_ | _, ubsCore⟩
  · simp [ResponseMessage.isAccepted, ResponseMessage.reject]
  · rcases h.wal.append (bincode.orderEntry order) with ⟨_ | _, wal⟩
    · simp [ResponseMessage.isAccepted, ResponseMessage.reject]
    · simp [ResponseMessage.isAccepted, ResponseMessage.accept]

/-- A cancellation is accepted if there is a producer to forward it to. -/
lemma isAccepted_cancelPayload (userId orderId : UInt64) :
    (h.onMessage bincode clock flushOk
        (UbsGatewayClient.cancelPayload userId orderId)).2.isAccepted = true ↔
      h.sends.isSome = true := by
  show (h.handleCancel (Bytes.ofU64 userId ++ Bytes.ofU64 orderId)).2.isAccepted = true ↔ _
  unfold UbsCoreHandler.handleCancel
  rw [if_neg (by simp)]
  cases h.sends with
  | none => simp [ResponseMessage.isAccepted, UbsCoreHandler.errorResponse, ResponseMessage.reject]
  | some records => simp [ResponseMessage.isAccepted, ResponseMessage.accept]

end Served

/-- **What the gateway reports.**  For every order and every answer of UBSCore, `create_order` and
`cancel_order` are honest exactly if the answer, where there is one, is an accept.  With UBSCore at
the other end, this is so for an order that is converted exactly if it is valid and the log has room
for it, and for a cancellation exactly if there is a producer. -/
theorem honest_iff (env : ValidationEnv) (sm : SymbolManager) (pad : Padding 2)
    (orderId userId : UInt64) (order : ClientOrder) :
    (∀ channel,
      (Honest (createOrder env sm channel pad orderId userId order)
          (orderAnswer env sm channel pad orderId userId order) .accepted ↔
        ∀ msg, orderAnswer env sm channel pad orderId userId order = some msg →
          msg.isAccepted = true) ∧
      (Honest (cancelOrder channel userId orderId) (cancelAnswer channel userId orderId)
          .cancelled ↔
        ∀ msg, cancelAnswer channel userId orderId = some msg → msg.isAccepted = true)) ∧
    ∀ bincode clock flushOk pad' h,
      (Honest (createOrder env sm (serve bincode clock flushOk pad' h) pad orderId userId order)
          (orderAnswer env sm (serve bincode clock flushOk pad' h) pad orderId userId order)
          .accepted ↔
        ∀ internal, clientOrderConvert env sm orderId userId order = .ok (orderId, internal) →
          (UBSCore.validateOrder internal clock h.ubsCore).1.isOk = true ∧
            (h.wal.append (bincode.orderEntry internal)).1.isOk = true) ∧
      (Honest (cancelOrder (serve bincode clock flushOk pad' h) userId orderId)
          (cancelAnswer (serve bincode clock flushOk pad' h) userId orderId) .cancelled ↔
        h.sends.isSome = true) := by
  have hcreate := fun channel => @honest_iff_of_answered _ _
    (.success ⟨toString orderId, .accepted, order.cid⟩)
    (fun _ => @createOrder_of_answer env sm channel pad orderId userId order _)
    (@createOrder_of_none env sm channel pad orderId userId order)
  have hcancel := fun channel => @honest_iff_of_answered _ _
    (.success ⟨toString orderId, .cancelled, none⟩)
    (fun _ => @cancelOrder_of_answer channel orderId userId _)
    (@cancelOrder_of_none channel orderId userId)
  refine ⟨fun channel => ⟨hcreate channel, hcancel channel⟩,
    fun bincode clock flushOk pad' h => ⟨(hcreate _).trans ?_, (hcancel _).trans ?_⟩⟩
  · unfold orderAnswer
    cases hconvert : clientOrderConvert env sm orderId userId order with
    | error e => simp
    | ok converted =>
        obtain ⟨id, internal⟩ := converted
        obtain rfl := clientOrderConvert_id hconvert
        simp only [UbsGatewayClient.sendOrder, request_serve, Except.toOption,
          Option.some.injEq, forall_eq', isAccepted_orderPayload, Except.ok.injEq, Prod.mk.injEq,
          true_and]
  · simp only [cancelAnswer, UbsGatewayClient.sendCancel, request_serve, Except.toOption,
      Option.some.injEq, forall_eq', isAccepted_cancelPayload]

/-- A UBSCore that knows no user and has no producer. -/
def emptyHandler : UbsCoreHandler where
  ubsCore := UBSCore.new.registerSymbol 0 (1, 2)
  wal := ⟨4096, 0, [], 0, Nat.le_refl _⟩
  sends := none

/-- The channel to it. -/
def emptyChannel : Channel := serve Bincode.fixint 0 true ⟨[0, 0, 0, 0, 0, 0], rfl⟩ emptyHandler

/-- An order of a user without an account. -/
def unknownUsersOrder : ClientOrder where
  cid := none
  symbol := "BTC_USDT"
  side := .buy
  price := ⟨150, 2, by decide, by decide⟩
  quantity := ⟨1, 3, by decide, by decide⟩
  orderType := .limit

theorem rejects_reported_done :
    orderAnswer .ascii .loadFromDb emptyChannel ⟨[0, 0], rfl⟩ 5 7 unknownUsersOrder =
        some (.reject 5 ACCOUNT_NOT_FOUND) ∧
      createOrder .ascii .loadFromDb emptyChannel ⟨[0, 0], rfl⟩ 5 7 unknownUsersOrder =
        .ok (.success ⟨"5", .accepted, none⟩) ∧
      ¬Honest (createOrder .ascii .loadFromDb emptyChannel ⟨[0, 0], rfl⟩ 5 7 unknownUsersOrder)
        (orderAnswer .ascii .loadFromDb emptyChannel ⟨[0, 0], rfl⟩ 5 7 unknownUsersOrder)
        .accepted ∧
      ¬Honest (cancelOrder emptyChannel 7 5) (cancelAnswer emptyChannel 7 5) .cancelled := by
  have hanswer : orderAnswer .ascii .loadFromDb emptyChannel ⟨[0, 0], rfl⟩ 5 7 unknownUsersOrder =
      some (.reject 5 ACCOUNT_NOT_FOUND) := by
    decide +kernel
  have houtcome : createOrder .ascii .loadFromDb emptyChannel ⟨[0, 0], rfl⟩ 5 7 unknownUsersOrder =
      .ok (.success ⟨"5", .accepted, none⟩) := by
    decide +kernel
  have hcancel : cancelAnswer emptyChannel 7 5 = some (.reject 5 INTERNAL_ERROR) := by
    decide +kernel
  refine ⟨hanswer, houtcome, fun h => ?_, fun h => ?_⟩
  · obtain ⟨msg, hmsg, haccepted⟩ := h.accepted _ houtcome rfl
    obtain rfl := Option.some.inj (hanswer.symm.trans hmsg)
    exact absurd haccepted (by decide)
  · obtain ⟨msg, hmsg, haccepted⟩ := h.accepted _ (cancelOrder_of_answer hcancel) rfl
    obtain rfl := Option.some.inj (hcancel.symm.trans hmsg)
    exact absurd haccepted (by decide)

end Gateway

end ExchangeCore
