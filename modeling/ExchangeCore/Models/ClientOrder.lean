import ExchangeCore.Models.BalanceManager
import ExchangeCore.Ubs.Core

/-!
# Orders of clients

`ClientOrder` (`models/client_order.rs`): an order as a client writes it, with decimals and names,
its validation, and its conversion to the `InternalOrder` that UBSCore is sent.

The `validator` crate and the Unicode tables of the standard library are a parameter
(`ValidationEnv`).  A conversion panics where a product of decimals overflows.
-/

namespace ExchangeCore

/-- A `ValidationError` and the field it is about. -/
structure FieldError where
  field : String
  code : String
  message : Option String
  deriving DecidableEq, Repr

/-- What the validation uses from elsewhere: `char::is_alphanumeric`, `str::to_uppercase`, and the
text of a `ValidationErrors`. -/
structure ValidationEnv where
  isAlphanumeric : Char → Bool
  toUppercase : String → String
  render : List FieldError → String

/-- These on ASCII text, where no text of errors is asked for. -/
def ValidationEnv.ascii : ValidationEnv where
  isAlphanumeric := Char.isAlphanum
  toUppercase := String.toUpper
  render _ := ""

structure ClientOrder where
  cid : Option String
  symbol : String
  side : Side
  price : Decimal
  quantity : Decimal
  orderType : OrderType

structure ClientRawOrder where
  userId : UInt64
  cid : Option String
  symbolId : UInt64
  side : Side
  price : UInt64
  priceDecimal : UInt32
  quantity : UInt64
  quantityDecimal : UInt32
  orderType : OrderType

/-! ## Validation -/

section Validation

variable (env : ValidationEnv)

/-- Only alphanumeric characters and underscores. -/
def wordChars (text : String) : Bool := text.toList.all (fun c => env.isAlphanumeric c || c = '_')

def validateCid (id : String) : Option FieldError :=
  if id.utf8ByteSize < 16 ∨ id.utf8ByteSize > 32 then
    some ⟨"cid", "cid_length",
      s!"Client order ID must be between 16 and 32 characters (got {id.utf8ByteSize})"⟩
  else if !wordChars env id then
    some ⟨"cid", "cid_alphanumeric",
      "Client order ID must be alphanumeric (including underscore)"⟩
  else none

def validateSymbolFormat (symbol : String) : Option FieldError :=
  if !wordChars env symbol then
    some ⟨"symbol", "invalid_symbol_chars", "Symbol must be alphanumeric (including underscore)"⟩
  else if symbol ≠ env.toUppercase symbol then
    some ⟨"symbol", "invalid_symbol_case", "Symbol must be uppercase"⟩
  else if '_' ∉ symbol.toList then
    some ⟨"symbol", "invalid_symbol_format", "Symbol must contain an underscore"⟩
  else if symbol.toList.head? = some '_' ∨ symbol.toList.getLast? = some '_' then
    some ⟨"symbol", "invalid_symbol_format", "Underscore cannot be at the start or end"⟩
  else if ['_', '_'] <:+: symbol.toList then
    some ⟨"symbol", "invalid_symbol_format", "Symbol cannot contain consecutive underscores"⟩
  else none

/-- `length(min = 3, max = 24)`. -/
def validateSymbolLength (symbol : String) : Option FieldError :=
  if symbol.length < 3 ∨ symbol.length > 24 then some ⟨"symbol", "length", none⟩ else none

/-- A number that has to be positive. -/
def validatePositive (field code message : String) (number : Decimal) : Option FieldError :=
  if number.mantissa > 0 then none else some ⟨field, code, message⟩

def validatePriceDecimal : Decimal → Option FieldError :=
  validatePositive "price" "invalid_price" "Price must be a positive number"

def validateQuantityDecimal : Decimal → Option FieldError :=
  validatePositive "quantity" "invalid_quantity" "Quantity must be a positive number"

end Validation

namespace ClientOrder

variable (env : ValidationEnv) (order : ClientOrder) (sm : SymbolManager)

/-- What is wrong with the fields. -/
def fieldErrors : List FieldError :=
  (order.cid.bind (validateCid env)).toList ++ (validateSymbolLength order.symbol).toList ++
    (validateSymbolFormat env order.symbol).toList ++ (validatePriceDecimal order.price).toList ++
    (validateQuantityDecimal order.quantity).toList

def validateOrder : Except Abort Unit :=
  match order.fieldErrors env with
  | [] => .ok ()
  | errors => .error (.error (env.render errors))

def validateWithSymbolManager : Except Abort Unit := do
  order.validateOrder env
  match sm.getSymbolInfo order.symbol with
  | none => .error (.error s!"Unknown symbol: {order.symbol}")
  | some _ => .ok ()

/-! ## Conversion -/

def toRawOrder (userId : UInt64) : Except Abort ClientRawOrder := do
  order.validateOrder env
  match sm.getSymbolInfo order.symbol with
  | none => .error (.error s!"Unknown symbol: {order.symbol}")
  | some info => do
      let price ← sm.toInternalPrice order.symbol order.price
      match sm.getAssetName info.baseAssetId with
      | none => .error (.error s!"Unknown base asset ID: {info.baseAssetId}")
      | some baseAssetName => do
          let (_, quantity) ← sm.toInternalAmount baseAssetName order.quantity
          let quantityDecimal := (sm.getAssetDecimal info.baseAssetId).getD 8
          .ok
            { userId := userId, cid := order.cid, symbolId := info.symbolId.toUInt64
              side := order.side, price := price, priceDecimal := info.priceDecimal
              quantity := quantity, quantityDecimal := quantityDecimal
              orderType := order.orderType }

def toUbsInternal (orderId userId : UInt64) : Except Abort InternalOrder := do
  order.validateWithSymbolManager env sm
  let raw ← order.toRawOrder env sm userId
  .ok
    { orderId := orderId, userId := raw.userId, symbolId := raw.symbolId.toUInt32, side := raw.side
      price := raw.price, qty := raw.quantity, orderType := raw.orderType }

variable {env order sm}

lemma positive_of_validateOrder (h : order.validateOrder env = .ok ()) :
    0 < order.price.mantissa ∧ 0 < order.quantity.mantissa := by
  have hnil : order.fieldErrors env = [] := by
    unfold validateOrder at h
    split at h
    · assumption
    · exact absurd h (by simp)
  simp only [fieldErrors, List.append_eq_nil_iff, Option.toList_eq_nil_iff, validatePriceDecimal,
    validateQuantityDecimal, validatePositive] at hnil
  obtain ⟨⟨-, hprice⟩, hquantity⟩ := hnil
  refine ⟨?_, ?_⟩
  · by_contra hneg
    rw [if_neg hneg] at hprice
    exact absurd hprice (by simp)
  · by_contra hneg
    rw [if_neg hneg] at hquantity
    exact absurd hquantity (by simp)

/-- **What a converted order is**: its price and its quantity scaled. -/
lemma toUbsInternal_eq_ok {orderId userId : UInt64} {internal : InternalOrder}
    (h : order.toUbsInternal env sm orderId userId = .ok internal) :
    order.validateOrder env = .ok () ∧ internal.orderId = orderId ∧ internal.userId = userId ∧
      internal.side = order.side ∧
      ∃ info base id, sm.getSymbolInfo order.symbol = some info ∧
        internal.symbolId = info.symbolId ∧
        sm.getAsset info.baseAssetId = some base ∧
        sm.toInternalPrice order.symbol order.price = .ok internal.price ∧
        sm.toInternalAmount base.name order.quantity = .ok (id, internal.qty) := by
  obtain ⟨_, hvalid, h⟩ := Except.exists_of_bind_eq_ok h
  obtain ⟨_, hvalid, _⟩ := Except.exists_of_bind_eq_ok hvalid
  obtain ⟨raw, hraw, h⟩ := Except.exists_of_bind_eq_ok h
  obtain rfl := Except.ok.inj h
  obtain ⟨_, _, hraw⟩ := Except.exists_of_bind_eq_ok hraw
  refine ⟨hvalid, rfl, ?_⟩
  cases hinfo : sm.getSymbolInfo order.symbol with
  | none =>
      rw [hinfo] at hraw
      exact absurd hraw (by simp)
  | some info =>
      rw [hinfo] at hraw
      obtain ⟨price, hprice, hraw⟩ := Except.exists_of_bind_eq_ok hraw
      cases hbase : sm.getAsset info.baseAssetId with
      | none =>
          simp only [SymbolManager.getAssetName, hbase] at hraw
          exact absurd hraw (by simp)
      | some base =>
          simp only [SymbolManager.getAssetName, hbase, Option.map_some] at hraw
          obtain ⟨⟨id, quantity⟩, hquantity, hraw⟩ := Except.exists_of_bind_eq_ok hraw
          obtain rfl := Except.ok.inj hraw
          refine ⟨rfl, rfl, info, base, id, rfl, ?_, hbase, hprice, hquantity⟩
          exact UInt32.toUInt32_toUInt64 info.symbolId

end ClientOrder

end ExchangeCore
