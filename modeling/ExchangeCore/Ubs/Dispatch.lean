import ExchangeCore.Ubs.Service
import ExchangeCore.Ubs.Wal

/-!
# The message handler of UBSCore

`UbsCoreHandler` (`ubs_core/comm/ubscore_handler.rs`) on raw payloads: the wire format of the
messages (`comm/message.rs`, `comm/order_receiver.rs`), the single-message path `on_message`, and
the batch path `process_batch`, which validates and appends every order first, flushes once, and
forwards the accepted orders last.

A message on the topic `validated_orders` is represented by what it is encoded from, and a response
by the `ResponseMessage` in it.  The readings of the wall clock and the answers of the operating
system to a flush come with the messages.

The handler calls `FutureProducer::send` and drops the future it returns (`let _ = ..`) without a
poll.  What such a call does is rdkafka's: `DroppedSend` says which records get on the topic by it,
and `DroppedSend.Lazy` that none does, as of an `async fn`, which runs nothing before it is polled.
-/

namespace ExchangeCore

/-! ## Wire format -/

inductive MsgType
  | order
  | cancel
  | query
  | deposit
  | withdraw
  | response
  deriving DecidableEq, Repr

def MsgType.tryFrom (value : UInt8) : Option MsgType :=
  if value = 1 then some .order
  else if value = 2 then some .cancel
  else if value = 3 then some .query
  else if value = 4 then some .deposit
  else if value = 5 then some .withdraw
  else if value = 128 then some .response
  else none

def parseMessage : Bytes → Option (MsgType × Bytes)
  | [] => none
  | value :: body => (MsgType.tryFrom value).map (·, body)

/-- `Side::try_from`, of UBSCore's own discriminants. -/
def Side.tryFrom (value : UInt8) : Option Side :=
  if value = 0 then some .buy else if value = 1 then some .sell else none

/-- `OrderType::try_from`, of UBSCore's own discriminants. -/
def OrderType.tryFrom (value : UInt8) : Option OrderType :=
  if value = 0 then some .limit else if value = 1 then some .market else none

structure OrderMessage where
  orderId : UInt64
  userId : UInt64
  symbolId : UInt32
  side : UInt8
  orderType : UInt8
  price : UInt64
  qty : UInt64
  deriving DecidableEq, Repr

namespace OrderMessage

/-- `from_bytes`, at the offsets of `#[repr(C)]`. -/
def fromBytes (bytes : Bytes) : Option OrderMessage :=
  if bytes.length < 40 then none
  else some
    { orderId := bytes.u64At 0, userId := bytes.u64At 8, symbolId := bytes.u32At 16
      side := bytes.u8At 20, orderType := bytes.u8At 21, price := bytes.u64At 24
      qty := bytes.u64At 32 }

def toInternalOrder (msg : OrderMessage) : Except RejectReason InternalOrder :=
  match Side.tryFrom msg.side with
  | none => .error .invalidSymbol
  | some side =>
      match OrderType.tryFrom msg.orderType with
      | none => .error .invalidSymbol
      | some orderType => .ok
          { orderId := msg.orderId, userId := msg.userId, symbolId := msg.symbolId, side := side
            price := msg.price, qty := msg.qty, orderType := orderType }

end OrderMessage

/-- `from_bytes` of `DepositMessage` and `WithdrawMessage`, at the offsets of `#[repr(C)]`. -/
def FundsMessage.fromBytes (bytes : Bytes) : Option FundsMessage :=
  if bytes.length < 32 then none
  else some
    { txId := bytes.u64At 0, userId := bytes.u64At 8, assetId := bytes.u32At 16
      amount := bytes.u64At 24 }

/-- `reason_codes::DUPLICATE_ORDER_ID`. -/
def DUPLICATE_ORDER_ID : UInt8 := 2

/-- `reason_codes::INVALID_SYMBOL`. -/
def INVALID_SYMBOL : UInt8 := 5

/-- `reason_codes::ACCOUNT_NOT_FOUND`. -/
def ACCOUNT_NOT_FOUND : UInt8 := 7

/-- `reason_codes::INTERNAL_ERROR`. -/
def INTERNAL_ERROR : UInt8 := 99

/-- The reason code of a rejection by `validate_order`. -/
def RejectReason.code : RejectReason → UInt8
  | .insufficientBalance => INSUFFICIENT_BALANCE
  | .duplicateOrderId => DUPLICATE_ORDER_ID
  | .accountNotFound => ACCOUNT_NOT_FOUND
  | _ => INTERNAL_ERROR

/-! ## The handler -/

/-- A message on `validated_orders`: the encoding of an `InternalOrder`, or of an
`OrderRequest::CancelOrder` whose symbol and checksum are 0. -/
inductive ValidatedRecord
  | order (order : InternalOrder)
  | cancel (userId orderId : UInt64)
  deriving DecidableEq, Repr

/-- Whether `FutureProducer::send` puts a record on the topic if the future it returns is dropped
without a poll. -/
abbrev DroppedSend := ValidatedRecord → Bool

/-- Nothing is sent before the future is polled. -/
def DroppedSend.Lazy (delivers : DroppedSend) : Prop := ∀ msg, delivers msg = false

structure UbsCoreHandler where
  ubsCore : UBSCore
  wal : MmapWal
  /-- The records that `send` was called with, if there is a producer. -/
  sends : Option (List ValidatedRecord)

inductive ProcessResult
  | pending (order : InternalOrder) (response : ResponseMessage)
  | immediate (response : ResponseMessage)

/-- A message to handle: the correlation id it came with, its payload, the reading of the wall
clock, and whether the flush it leads to, if handled on its own, succeeds. -/
structure Item where
  correlationId : UInt64
  payload : Bytes
  clock : UInt64
  flushOk : Bool

namespace UbsCoreHandler

def errorResponse (orderId : UInt64) (reasonCode : UInt8) : ResponseMessage :=
  .reject orderId reasonCode

/-- A call of `send` for `validated_orders`, whose future is dropped. -/
def send (msg : ValidatedRecord) (h : UbsCoreHandler) : UbsCoreHandler :=
  { h with sends := h.sends.map (· ++ [msg]) }

/-- The messages that have got on `validated_orders`. -/
def topic (delivers : DroppedSend) (h : UbsCoreHandler) : List ValidatedRecord :=
  (h.sends.getD []).filter delivers

lemma topic_of_lazy {delivers : DroppedSend} (hlazy : delivers.Lazy) (h : UbsCoreHandler) :
    h.topic delivers = [] := by
  rw [topic, List.filter_eq_nil_iff]
  intro msg _
  rw [hlazy msg]
  exact Bool.false_ne_true

def handleOrderNoFlush (bincode : Bincode) (clock : UInt64) (body : Bytes) (h : UbsCoreHandler) :
    UbsCoreHandler × ProcessResult :=
  match OrderMessage.fromBytes body with
  | none => (h, .immediate (errorResponse 0 INTERNAL_ERROR))
  | some msg =>
      match msg.toInternalOrder with
      | .error _ => (h, .immediate (.reject msg.orderId INVALID_SYMBOL))
      | .ok order =>
          match UBSCore.validateOrder order clock h.ubsCore with
          | (.error reason, ubsCore) =>
              ({ h with ubsCore := ubsCore }, .immediate (.reject order.orderId reason.code))
          | (.ok (), ubsCore) =>
              match h.wal.append (bincode.orderEntry order) with
              | (.error _, wal) =>
                  ({ h with ubsCore := ubsCore, wal := wal },
                    .immediate (.reject order.orderId INTERNAL_ERROR))
              | (.ok (), wal) =>
                  ({ h with ubsCore := ubsCore, wal := wal },
                    .pending order (.accept msg.orderId))

def handleOrder (bincode : Bincode) (clock : UInt64) (flushOk : Bool) (body : Bytes)
    (h : UbsCoreHandler) : UbsCoreHandler × ResponseMessage :=
  match OrderMessage.fromBytes body with
  | none => (h, errorResponse 0 INTERNAL_ERROR)
  | some msg =>
      match msg.toInternalOrder with
      | .error _ => (h, .reject msg.orderId INVALID_SYMBOL)
      | .ok order =>
          match UBSCore.validateOrder order clock h.ubsCore with
          | (.error reason, ubsCore) =>
              ({ h with ubsCore := ubsCore }, .reject order.orderId reason.code)
          | (.ok (), ubsCore) =>
              match h.wal.append (bincode.orderEntry order) with
              | (.error _, wal) =>
                  ({ h with ubsCore := ubsCore, wal := wal },
                    .reject order.orderId INTERNAL_ERROR)
              | (.ok (), wal) =>
                  -- a failed flush is logged and no more
                  let h := { h with ubsCore := ubsCore, wal := wal.flush flushOk }
                  (h.send (.order order), .accept order.orderId)

def handleCancel (body : Bytes) (h : UbsCoreHandler) : UbsCoreHandler × ResponseMessage :=
  if body.length < 16 then (h, errorResponse 0 INTERNAL_ERROR)
  else
    let userId := body.u64At 0
    let orderId := body.u64At 8
    match h.sends with
    | some _ => (h.send (.cancel userId orderId), .accept orderId)
    | none => (h, errorResponse orderId INTERNAL_ERROR)

def handleDeposit (body : Bytes) (h : UbsCoreHandler) : UbsCoreHandler × ResponseMessage :=
  match FundsMessage.fromBytes body with
  | none => (h, errorResponse 0 INTERNAL_ERROR)
  | some msg =>
      let r := UBSCore.handleDeposit msg h.ubsCore
      ({ h with ubsCore := r.1 }, r.2)

def handleWithdraw (body : Bytes) (h : UbsCoreHandler) : UbsCoreHandler × ResponseMessage :=
  match FundsMessage.fromBytes body with
  | none => (h, errorResponse 0 INTERNAL_ERROR)
  | some msg =>
      let r := UBSCore.handleWithdraw msg h.ubsCore
      ({ h with ubsCore := r.1 }, r.2)

/-- The messages both paths answer at once. -/
def handleOther (msgType : MsgType) (body : Bytes) (h : UbsCoreHandler) :
    UbsCoreHandler × ResponseMessage :=
  match msgType with
  | .cancel => h.handleCancel body
  | .deposit => h.handleDeposit body
  | .withdraw => h.handleWithdraw body
  -- a query is not implemented, a response is unexpected, and orders do not come here
  | .query | .response | .order => (h, errorResponse 0 INTERNAL_ERROR)

def processNoFlush (bincode : Bincode) (clock : UInt64) (payload : Bytes) (h : UbsCoreHandler) :
    UbsCoreHandler × ProcessResult :=
  match parseMessage payload with
  | none => (h, .immediate (errorResponse 0 INTERNAL_ERROR))
  | some (.order, body) => h.handleOrderNoFlush bincode clock body
  | some (msgType, body) =>
      let r := h.handleOther msgType body
      (r.1, .immediate r.2)

def onMessage (bincode : Bincode) (clock : UInt64) (flushOk : Bool) (payload : Bytes)
    (h : UbsCoreHandler) : UbsCoreHandler × ResponseMessage :=
  match parseMessage payload with
  | none => (h, errorResponse 0 INTERNAL_ERROR)
  | some (.order, body) => h.handleOrder bincode clock flushOk body
  | some (msgType, body) => h.handleOther msgType body

/-- Phase 1 of `process_batch`: validate and append. -/
def collect (bincode : Bincode) (h : UbsCoreHandler) :
    List Item → UbsCoreHandler × List (UInt64 × ProcessResult)
  | [] => (h, [])
  | item :: items =>
      let r := h.processNoFlush bincode item.clock item.payload
      let rest := collect bincode r.1 items
      (rest.1, (item.correlationId, r.2) :: rest.2)

/-- An order waits for the flush. -/
def ProcessResult.isPending : ProcessResult → Bool
  | .pending _ _ => true
  | .immediate _ => false

/-- Phase 2 of `process_batch`: a single flush. -/
def flushBatch (flushOk : Bool) (results : List (UInt64 × ProcessResult)) (h : UbsCoreHandler) :
    UbsCoreHandler :=
  if results.any (fun r => ProcessResult.isPending r.2) then { h with wal := h.wal.flush flushOk }
  else h

/-- Phase 3 of `process_batch`: forward to Kafka and respond. -/
def forwardBatch (h : UbsCoreHandler) :
    List (UInt64 × ProcessResult) → UbsCoreHandler × List (UInt64 × ResponseMessage)
  | [] => (h, [])
  | (correlationId, .pending order response) :: results =>
      let rest := forwardBatch (h.send (.order order)) results
      (rest.1, (correlationId, response) :: rest.2)
  | (correlationId, .immediate response) :: results =>
      let rest := forwardBatch h results
      (rest.1, (correlationId, response) :: rest.2)

def processBatch (bincode : Bincode) (flushOk : Bool) (items : List Item) (h : UbsCoreHandler) :
    UbsCoreHandler × List (UInt64 × ResponseMessage) :=
  let collected := h.collect bincode items
  let flushed := flushBatch flushOk collected.2 collected.1
  flushed.forwardBatch collected.2

/-- `on_message` on the payloads one by one. -/
def singles (bincode : Bincode) (h : UbsCoreHandler) :
    List Item → UbsCoreHandler × List (UInt64 × ResponseMessage)
  | [] => (h, [])
  | item :: items =>
      let r := h.onMessage bincode item.clock item.flushOk item.payload
      let rest := singles bincode r.1 items
      (rest.1, (item.correlationId, r.2) :: rest.2)

end UbsCoreHandler

end ExchangeCore
