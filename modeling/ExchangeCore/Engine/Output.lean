import ExchangeCore.Framework.Bytes
import Mathlib.Tactic.Common

/-!
# Engine outputs

The chain-hashed bundle the matching engine emits for an order (`engine_output.rs`): the data
types, the byte string `compute_hash` feeds to xxh3, the builder, and the two checks a consumer
makes (`verify`, `verify_chain`).

Hash functions and the JSON serialiser are third-party code; they are the fields of `Externals`,
and nothing in the development assumes anything of them.  `compute_hash` is split at its last
line: `preimage` is the byte string, `computeHash` applies xxh3 to it.
-/

namespace ExchangeCore

/-! ## Inputs -/

/-- Place-order input, kept in full for the order history. -/
structure PlaceOrderInput where
  orderId : UInt64
  userId : UInt64
  symbolId : UInt32
  side : UInt8
  orderType : UInt8
  price : UInt64
  quantity : UInt64
  cid : String
  createdAt : UInt64
  deriving DecidableEq, Repr

/-- Cancel-order input. -/
structure CancelOrderInput where
  orderId : UInt64
  userId : UInt64
  createdAt : UInt64
  deriving DecidableEq, Repr

/-- Deposit input. -/
structure DepositInput where
  userId : UInt64
  assetId : UInt32
  amount : UInt64
  createdAt : UInt64
  deriving DecidableEq, Repr

/-- Withdraw input. -/
structure WithdrawInput where
  userId : UInt64
  assetId : UInt32
  amount : UInt64
  createdAt : UInt64
  deriving DecidableEq, Repr

/-- All possible input types. -/
inductive InputData
  | placeOrder (o : PlaceOrderInput)
  | cancelOrder (c : CancelOrderInput)
  | deposit (d : DepositInput)
  | withdraw (w : WithdrawInput)
  deriving DecidableEq, Repr

/-- The original input with its integrity check. -/
structure InputBundle where
  inputSeq : UInt64
  crc : UInt32
  data : InputData
  deriving DecidableEq, Repr

/-- The third-party functions the engine calls. -/
structure Externals where
  /-- `xxhash_rust::xxh3::xxh3_64`. -/
  xxh3 : Bytes → UInt64
  /-- `xxhash_rust::xxh3::xxh3_64_with_seed`. -/
  xxh3WithSeed : Bytes → UInt64 → UInt64
  /-- `crc32fast::hash`. -/
  crc32 : Bytes → UInt32
  /-- `serde_json::to_vec(&data).unwrap_or_default()`. -/
  jsonVec : InputData → Bytes

/-- `InputBundle::new`: the CRC is taken over the serialised data. -/
def InputBundle.new (env : Externals) (inputSeq : UInt64) (data : InputData) : InputBundle where
  inputSeq := inputSeq
  crc := env.crc32 (env.jsonVec data)
  data := data

/-! ## Outputs -/

/-- `TradeOutput`: one trade, with the assets it moves and the buyer's refund. -/
structure TradeOutput where
  tradeId : UInt64
  matchSeq : UInt64
  symbolId : UInt32
  buyOrderId : UInt64
  sellOrderId : UInt64
  buyerUserId : UInt64
  sellerUserId : UInt64
  price : UInt64
  quantity : UInt64
  baseAssetId : UInt32
  quoteAssetId : UInt32
  buyerRefund : UInt64
  sellerRefund : UInt64
  settledAt : UInt64
  deriving DecidableEq, Repr

/-- `engine_output::BalanceEvent`, a signed change of one user's balance of one asset; `none`
in `avail` and `frozen` means that the engine does not track the balance. -/
structure EOBalanceEvent where
  userId : UInt64
  assetId : UInt32
  seq : UInt64
  deltaAvail : Int64
  deltaFrozen : Int64
  avail : Option UInt64
  frozen : Option UInt64
  eventType : String
  refId : UInt64
  deriving DecidableEq

/-- `engine_output::OrderUpdate`; the status is 1 = accepted, 2 = partially filled, 3 = filled,
4 = cancelled, 5 = rejected. -/
structure EOOrderUpdate where
  orderId : UInt64
  userId : UInt64
  status : UInt8
  filledQty : UInt64
  remainingQty : UInt64
  avgPrice : UInt64
  updatedAt : UInt64
  deriving DecidableEq, Repr

/-- `OrderPlacement`, for the tracking of active orders. -/
structure OrderPlacement where
  orderId : UInt64
  userId : UInt64
  symbolId : UInt32
  side : UInt8
  orderType : UInt8
  price : UInt64
  quantity : UInt64
  createdAt : UInt64
  deriving DecidableEq, Repr

/-- Why an order is complete. -/
inductive CompletionReason
  | filled
  | cancelled
  deriving DecidableEq, Repr

structure OrderCompletion where
  orderId : UInt64
  reason : CompletionReason
  completedAt : UInt64
  deriving DecidableEq, Repr

/-- The complete output bundle: one input, one output with all its effects. -/
structure EngineOutput where
  outputSeq : UInt64
  prevHash : UInt64
  symbolId : UInt32
  input : InputBundle
  orderUpdate : Option EOOrderUpdate
  trades : List TradeOutput
  balanceEvents : List EOBalanceEvent
  orderPlacements : List OrderPlacement
  orderCompletions : List OrderCompletion
  hash : UInt64
  deriving DecidableEq

/-- The hash the first output links to. -/
def GENESIS_HASH : UInt64 := 0

/-! ## The hash pre-image -/

/-- `hash_input_data`: a type marker and the fields of the input. -/
def InputData.bytes : InputData → Bytes
  | .placeOrder o =>
      1 :: (Bytes.ofU64 o.orderId ++ (Bytes.ofU64 o.userId ++ (Bytes.ofU32 o.symbolId ++
        (o.side :: o.orderType :: (Bytes.ofU64 o.price ++ (Bytes.ofU64 o.quantity ++
          (Bytes.ofStr o.cid ++ Bytes.ofU64 o.createdAt)))))))
  | .cancelOrder c =>
      2 :: (Bytes.ofU64 c.orderId ++ (Bytes.ofU64 c.userId ++ Bytes.ofU64 c.createdAt))
  | .deposit d =>
      3 :: (Bytes.ofU64 d.userId ++ (Bytes.ofU32 d.assetId ++ (Bytes.ofU64 d.amount ++
        Bytes.ofU64 d.createdAt)))
  | .withdraw w =>
      4 :: (Bytes.ofU64 w.userId ++ (Bytes.ofU32 w.assetId ++ (Bytes.ofU64 w.amount ++
        Bytes.ofU64 w.createdAt)))

/-- The order update, behind a marker byte for its presence. -/
def orderUpdateBytes : Option EOOrderUpdate → Bytes
  | some ou =>
      1 :: (Bytes.ofU64 ou.orderId ++ (Bytes.ofU64 ou.userId ++ (ou.status ::
        (Bytes.ofU64 ou.filledQty ++ (Bytes.ofU64 ou.remainingQty ++ (Bytes.ofU64 ou.avgPrice ++
          Bytes.ofU64 ou.updatedAt))))))
  | none => [0]

/-- The hashed fields of a trade; `symbol_id` is not among them. -/
def TradeOutput.bytes (t : TradeOutput) : Bytes :=
  Bytes.ofU64 t.tradeId ++ (Bytes.ofU64 t.matchSeq ++ (Bytes.ofU64 t.buyOrderId ++
    (Bytes.ofU64 t.sellOrderId ++ (Bytes.ofU64 t.buyerUserId ++ (Bytes.ofU64 t.sellerUserId ++
      (Bytes.ofU64 t.price ++ (Bytes.ofU64 t.quantity ++ (Bytes.ofU32 t.baseAssetId ++
        (Bytes.ofU32 t.quoteAssetId ++ (Bytes.ofU64 t.buyerRefund ++
          (Bytes.ofU64 t.sellerRefund ++ Bytes.ofU64 t.settledAt)))))))))))

/-- The hashed fields of a balance event; an untracked balance is hashed as 0. -/
def EOBalanceEvent.bytes (e : EOBalanceEvent) : Bytes :=
  Bytes.ofU64 e.userId ++ (Bytes.ofU32 e.assetId ++ (Bytes.ofU64 e.seq ++
    (Bytes.ofI64 e.deltaAvail ++ (Bytes.ofI64 e.deltaFrozen ++
      (Bytes.ofU64 (e.avail.getD 0) ++ (Bytes.ofU64 (e.frozen.getD 0) ++
        (Bytes.ofStr e.eventType ++ Bytes.ofU64 e.refId)))))))

namespace EngineOutput

/-- The byte string `compute_hash` builds.  The lengths of the two lists are cast to `u32`. -/
def preimage (o : EngineOutput) : Bytes :=
  Bytes.ofU64 o.outputSeq ++ (Bytes.ofU64 o.prevHash ++ (Bytes.ofU32 o.symbolId ++
    (Bytes.ofU64 o.input.inputSeq ++ (Bytes.ofU32 o.input.crc ++ (o.input.data.bytes ++
      (orderUpdateBytes o.orderUpdate ++
        (Bytes.ofU32 (UInt32.ofNat o.trades.length) ++ (o.trades.flatMap TradeOutput.bytes ++
          (Bytes.ofU32 (UInt32.ofNat o.balanceEvents.length) ++
            o.balanceEvents.flatMap EOBalanceEvent.bytes)))))))))

def computeHash (env : Externals) (o : EngineOutput) : UInt64 := env.xxh3 o.preimage

/-- `EngineOutput::verify`: the stored hash is the computed one. -/
def verify (env : Externals) (o : EngineOutput) : Bool := o.hash == o.computeHash env

/-- `EngineOutput::verify_chain`: this output follows `prev`. -/
def verifyChain (o prev : EngineOutput) : Bool :=
  o.outputSeq == prev.outputSeq + 1 && o.prevHash == prev.hash

def verifyPrevHash (o : EngineOutput) (expectedPrevHash : UInt64) : Bool :=
  o.prevHash == expectedPrevHash

end EngineOutput

/-! ## The builder -/

/-- `EngineOutputBuilder`: an output under construction. -/
structure EngineOutputBuilder where
  outputSeq : UInt64
  prevHash : UInt64
  input : Option InputBundle
  orderUpdate : Option EOOrderUpdate
  trades : List TradeOutput
  balanceEvents : List EOBalanceEvent
  orderPlacements : List OrderPlacement
  orderCompletions : List OrderCompletion

namespace EngineOutputBuilder

/-- A new builder with the chain header. -/
def new (outputSeq prevHash : UInt64) : EngineOutputBuilder where
  outputSeq := outputSeq
  prevHash := prevHash
  input := none
  orderUpdate := none
  trades := []
  balanceEvents := []
  orderPlacements := []
  orderCompletions := []

def setInput (b : EngineOutputBuilder) (input : InputBundle) : EngineOutputBuilder :=
  { b with input := some input }

def setOrderUpdate (b : EngineOutputBuilder) (update : EOOrderUpdate) : EngineOutputBuilder :=
  { b with orderUpdate := some update }

def addTrade (b : EngineOutputBuilder) (trade : TradeOutput) : EngineOutputBuilder :=
  { b with trades := b.trades ++ [trade] }

def addBalanceEvent (b : EngineOutputBuilder) (event : EOBalanceEvent) : EngineOutputBuilder :=
  { b with balanceEvents := b.balanceEvents ++ [event] }

def addOrderPlacement (b : EngineOutputBuilder) (placement : OrderPlacement) :
    EngineOutputBuilder :=
  { b with orderPlacements := b.orderPlacements ++ [placement] }

def addOrderCompletion (b : EngineOutputBuilder) (completion : OrderCompletion) :
    EngineOutputBuilder :=
  { b with orderCompletions := b.orderCompletions ++ [completion] }

/-- The output of a builder whose input has been set to `input`, hash included; this is what
`build_unchecked` returns after `set_input(input)`. -/
def buildUnchecked (env : Externals) (b : EngineOutputBuilder) (input : InputBundle) :
    EngineOutput :=
  let output : EngineOutput :=
    { outputSeq := b.outputSeq
      prevHash := b.prevHash
      symbolId := (b.trades.head?.map TradeOutput.symbolId).getD 0
      input := input
      orderUpdate := b.orderUpdate
      trades := b.trades
      balanceEvents := b.balanceEvents
      orderPlacements := b.orderPlacements
      orderCompletions := b.orderCompletions
      hash := 0 }
  { output with hash := output.computeHash env }

/-- `build`: `none` if the input is not set. -/
def build (env : Externals) (b : EngineOutputBuilder) : Option EngineOutput :=
  b.input.map (b.buildUnchecked env)

/-- Building computes the hash over the output without it, and the hash is not hashed. -/
lemma verify_buildUnchecked (env : Externals) (b : EngineOutputBuilder) (input : InputBundle) :
    (b.buildUnchecked env input).verify env = true := by
  simp only [buildUnchecked, EngineOutput.verify, EngineOutput.computeHash, beq_iff_eq]
  rfl

end EngineOutputBuilder

end ExchangeCore
