import Mathlib.Tactic.Common

/-!
# Orders, trades and trade ids

The data model shared by the order book and the matching engine (`models/order_utils.rs`), and
the 64-bit id generator the book draws trade ids from (`fast_ulid.rs`).  Ids, prices and
quantities are `u64`, symbols and assets `u32`, as in the source.
-/

namespace ExchangeCore

/-- The side of an order; the discriminants are `Side.asU8`. -/
inductive Side
  | buy
  | sell
  deriving DecidableEq, Repr

namespace Side

/-- `#[repr(u8)]`: `Buy = 1`, `Sell = 2`. -/
def asU8 : Side → UInt8
  | .buy => 1
  | .sell => 2

/-- The side an order of this side trades against. -/
def opposite : Side → Side
  | .buy => .sell
  | .sell => .buy

@[simp] lemma opposite_ne (s : Side) : s.opposite ≠ s := by cases s <;> decide

@[simp] lemma ne_opposite (s : Side) : s ≠ s.opposite := by cases s <;> decide

@[simp] lemma opposite_opposite (s : Side) : s.opposite.opposite = s := by cases s <;> rfl

lemma eq_or_eq_opposite (s t : Side) : t = s ∨ t = s.opposite := by
  cases s <;> cases t <;> simp [opposite]

end Side

/-- The kind of an order; matching does not depend on it. -/
inductive OrderType
  | limit
  | market
  deriving DecidableEq, Repr

/-- `#[repr(u8)]`: `Limit = 1`, `Market = 2`. -/
def OrderType.asU8 : OrderType → UInt8
  | .limit => 1
  | .market => 2

/-- An order as the book stores it; `quantity` is what is left of it. -/
structure Order where
  orderId : UInt64
  userId : UInt64
  symbolId : UInt32
  side : Side
  orderType : OrderType
  price : UInt64
  quantity : UInt64
  timestamp : UInt64
  deriving DecidableEq, Repr

/-- One execution between a buy and a sell order. -/
structure Trade where
  tradeId : UInt64
  buyOrderId : UInt64
  sellOrderId : UInt64
  buyUserId : UInt64
  sellUserId : UInt64
  price : UInt64
  quantity : UInt64
  matchSeq : UInt64
  deriving DecidableEq, Repr

/-- Why the engine refuses a call. -/
inductive OrderError
  | insufficientFunds (userId : UInt64) (assetId : UInt32) (required avail : UInt64)
  | invalidSymbol (symbolId : UInt32)
  | symbolMismatch (expected actual : UInt32)
  | duplicateOrderId (orderId : UInt64)
  | orderNotFound (orderId : UInt64)
  | assetMapNotFound (symbolId : UInt32)
  | ledgerError (msg : String)
  | other (msg : String)
  deriving DecidableEq, Repr

/-! ## Trade ids -/

/-- `FastUlidHalfGen`: 48 bits of timestamp over a 16-bit counter.  Its random generator is
read only by `generate`, which the engine does not call. -/
structure FastUlidHalfGen where
  lastVal : UInt64
  deriving DecidableEq, Repr

namespace FastUlidHalfGen

/-- A fresh generator. -/
def new : FastUlidHalfGen := ⟨0⟩

/-- Deterministic generation from an external timestamp: the timestamp's own block if it is
ahead of the last id, the successor of the last id otherwise. -/
def generateFromTs (g : FastUlidHalfGen) (timestampMs : UInt64) : UInt64 × FastUlidHalfGen :=
  let tsPart := timestampMs <<< 16
  if tsPart > g.lastVal then (tsPart, ⟨tsPart⟩) else (g.lastVal + 1, ⟨g.lastVal + 1⟩)

end FastUlidHalfGen

end ExchangeCore
