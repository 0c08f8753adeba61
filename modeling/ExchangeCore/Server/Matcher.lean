import ExchangeCore.Server.MessageDeduplicator
import ExchangeCore.System.Exchange

/-!
# The matching server

The server (`bin/matching_engine_server.rs`) is a pipeline of two parts.  The poll loop turns the
records of a poll into commands for the ring buffer; the matcher closure takes the commands out
in order, drops what its deduplicator knows or rejects, and hands the rest to the engine.  The
loop reads nothing the closure writes, so running the closure on what a poll has published before
the next poll is the behaviour of the pipeline.

A payload is represented by what the two decoders of the loop make of it.  Offsets and logging are
left out; the engine has no WAL here, so the outcomes of WAL writes are not read.
-/

namespace ExchangeCore

/-! ## The matcher closure -/

/-- `EngineCommand`; a balance request is ignored, so its content is left out. -/
inductive EngineCommand
  | placeOrderBatch (batch : List OrderRequest)
  | cancelOrder (symbolId : UInt32) (orderId : UInt64)
  | balanceRequest
  deriving DecidableEq, Repr

/-- `OrderEvent`: what the matcher reads of it. -/
structure OrderEvent where
  command : Option EngineCommand
  timestamp : UInt64
  deriving DecidableEq, Repr

/-- What the matcher closure owns. -/
structure Matcher where
  engine : MatchingEngine
  msgDedup : MessageDeduplicator

namespace Matcher

/-- A fresh engine with the symbols registered, and nothing tracked. -/
def new (symbols : List (UInt32 × (UInt32 × UInt32))) : Matcher where
  engine := symbols.foldl (fun me s => (me.registerSymbol s.1 s.2).2) (MatchingEngine.new false)
  msgDedup := MessageDeduplicator.new

/-- What the matcher leaves behind in the event, and the ids of the orders it has handed to
`add_order_and_build_output` on the way. -/
structure Answer where
  engineOutputs : List EngineOutput
  handed : List UInt64

/-- Nothing done. -/
def Answer.none : Answer := ⟨[], []⟩

/-- The state of the loop over a batch. -/
structure BatchLoop where
  matcher : Matcher
  inputSeq : UInt64
  answer : Answer

/-- One order of a batch: skipped as a duplicate, or marked and handed to the engine. -/
def placeOne (env : Externals) (msgTs : UInt64) (loop : BatchLoop) (req : OrderRequest) :
    BatchLoop :=
  let orderId := req.orderId
  let msgId := orderId.toInt64
  if loop.matcher.msgDedup.isDuplicate msgId then loop
  else
    let msgDedup := loop.matcher.msgDedup.markProcessed msgId msgTs
    let inputSeq := loop.inputSeq + 1
    let r := loop.matcher.engine.addOrderAndBuildOutput env .healthy inputSeq req
      s!"kafka_{orderId}"
    let engineOutputs := match r.1 with
      | .ok (_, output) => loop.answer.engineOutputs ++ [output]
      | .error _ => loop.answer.engineOutputs
    { matcher := ⟨r.2, msgDedup⟩
      inputSeq := inputSeq
      answer := ⟨engineOutputs, loop.answer.handed ++ [orderId]⟩ }

/-- The matcher on one event. -/
def handle (env : Externals) (m : Matcher) (event : OrderEvent) : Matcher × Answer :=
  let msgTs := event.timestamp
  if m.msgDedup.isOutsideTrackedWindow msgTs then (m, .none)
  else
    match event.command with
    | some (.placeOrderBatch batch) =>
        let loop := batch.foldl (placeOne env msgTs) ⟨m, m.engine.outputSeq, .none⟩
        (loop.matcher, loop.answer)
    | some (.cancelOrder symbolId orderId) =>
        let msgId := orderId.toInt64
        if m.msgDedup.isDuplicate msgId then (m, .none)
        else
          ({ engine := (m.engine.cancelOrder env .healthy symbolId orderId).2
             msgDedup := m.msgDedup.markProcessed msgId msgTs }, .none)
    | some .balanceRequest => (m, .none)
    | none => (m, .none)

/-- The matcher as a machine. -/
def machine (env : Externals) : Machine Matcher OrderEvent Answer where
  step := handle env

end Matcher

/-! ## The poll loop -/

/-- `models::OrderRequest`. -/
inductive ClientRequest
  | placeOrder (orderId userId : UInt64) (symbolId : UInt32) (side : Side) (price quantity : UInt64)
      (orderType : OrderType) (checksum : UInt32)
  | cancelOrder (orderId userId : UInt64) (symbolId : UInt32) (checksum : UInt32)
  deriving DecidableEq, Repr

/-- A payload, as the bincode and the JSON decoder read it. -/
structure Payload where
  internalOrder : Option InternalOrder
  orderRequest : Option ClientRequest
  deriving DecidableEq, Repr

/-- A Kafka record. -/
structure Record where
  topic : String
  /-- `timestamp().to_millis()`. -/
  timestamp : Option Int64
  payload : Option Payload
  deriving DecidableEq, Repr

namespace Record

/-- The timestamp the loop works with. -/
def millis (r : Record) : UInt64 := (r.timestamp.getD 0).toUInt64

end Record

/-- What the loop reads of the configuration and the symbol manager. -/
structure PollConfig where
  ordersTopic : String
  symbols : Finset UInt32

def calculateChecksum (env : Externals) (orderId userId : UInt64) (symbolId : UInt32) (side : UInt8)
    (price qty : UInt64) (typeId : UInt8) : UInt32 :=
  env.crc32 (Bytes.ofU64 orderId ++ Bytes.ofU64 userId ++ Bytes.ofU32 symbolId ++ [side] ++
    Bytes.ofU64 price ++ Bytes.ofU64 qty ++ [typeId])

/-- The state of the loop over the records of a poll. -/
structure PollLoop where
  placeOrders : List OrderRequest
  published : List OrderEvent

namespace PollLoop

/-- Publish the accumulated orders, if there are any. -/
def publishOrders (loop : PollLoop) (timestamp : UInt64) : PollLoop :=
  if loop.placeOrders.isEmpty then loop
  else
    { placeOrders := []
      published := loop.published ++ [⟨some (.placeOrderBatch loop.placeOrders), timestamp⟩] }

/-- Accumulate an order for a known symbol. -/
def pushOrder (cfg : PollConfig) (loop : PollLoop) (req : OrderRequest) : PollLoop :=
  if req.symbolId ∈ cfg.symbols then { loop with placeOrders := loop.placeOrders ++ [req] }
  else loop

/-- The second branch of the loop: JSON requests. -/
def onRequest (env : Externals) (cfg : PollConfig) (timestamp : UInt64) (loop : PollLoop) :
    ClientRequest → PollLoop
  | .placeOrder orderId userId symbolId side price quantity orderType checksum =>
      let calculated := calculateChecksum env orderId userId symbolId side.asU8 price quantity
        orderType.asU8
      if calculated ≠ checksum then loop
      else
        loop.pushOrder cfg
          { symbolId, orderId, side, orderType, price, quantity, userId, timestamp }
  | .cancelOrder orderId _ symbolId _ =>
      if symbolId ∈ cfg.symbols then
        let loop := loop.publishOrders timestamp
        { loop with
          published := loop.published ++ [⟨some (.cancelOrder symbolId orderId), timestamp⟩] }
      else loop

/-- One record.  The second test repeats the first, so its branch is never taken. -/
def onRecord (env : Externals) (cfg : PollConfig) (loop : PollLoop) (m : Record) : PollLoop :=
  let timestamp := m.millis
  match m.payload with
  | none => loop
  | some payload =>
      if m.topic = cfg.ordersTopic then
        match payload.internalOrder with
        | some order => loop.pushOrder cfg (Exchange.request order timestamp)
        | none => loop
      else if m.topic = cfg.ordersTopic then
        match payload.orderRequest with
        | some req => loop.onRequest env cfg timestamp req
        | none => loop
      else loop

end PollLoop

/-- The events one poll publishes; the last batch is published with the timestamp 0. -/
def pollEvents (env : Externals) (cfg : PollConfig) (batch : List Record) : List OrderEvent :=
  ((batch.foldl (PollLoop.onRecord env cfg) ⟨[], []⟩).publishOrders 0).published

/-- The server as a machine: one input is one poll. -/
def server (env : Externals) (cfg : PollConfig) :
    Machine Matcher (List Record) (List Matcher.Answer) where
  step m batch :=
    ((Matcher.machine env).run m (pollEvents env cfg batch),
      (Matcher.machine env).answers m (pollEvents env cfg batch))

end ExchangeCore
