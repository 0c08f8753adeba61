import ExchangeCore.Models.ClientOrder
import ExchangeCore.Ubs.Durability

/-!
# The units of locked funds

The gateway scales the price of an order by the price decimals of its symbol and the quantity by the
decimals of the base asset (`to_ubs_internal`), and UBSCore locks the product of the two as an
amount of the quote asset (`calculate_cost`), whose own decimals play no part.  `unitConsistent_iff`
says for which orders this is what the order is worth: the two exponents have to add up to the
decimals of the quote asset.
-/

namespace ExchangeCore

/-- The price of an order in units of the quote asset. -/
def ClientOrder.total (order : ClientOrder) : ℚ := order.price.value * order.quantity.value

/-- The lock of an order is of what the order is worth, so that a user can place it exactly if the
user holds as much of the quote asset. -/
structure UnitConsistent (sm : SymbolManager) (order : ClientOrder) (internal : InternalOrder)
    (quote : AssetInfo) : Prop where
  cost : (internal.calculateCost.toNat : ℚ) = order.total * 10 ^ quote.decimals.toNat
  /-- An order that passes the other checks is accepted if what the user holds covers its total. -/
  funds : ∀ ubs clock cost holdings amount id,
    UBSCore.lockRequest internal clock ubs = some (quote.assetId, cost) →
    ubs.userFunds.holdings internal.userId = some holdings →
    ubs.userFunds.fits internal.userId quote.assetId cost = true →
    sm.toInternalAmount quote.name amount = .ok (id, (holdings quote.assetId).1) →
      ((UBSCore.validateOrder internal clock ubs).1.isOk = true ↔ order.total ≤ amount.value)

variable {sm : SymbolManager} {order : ClientOrder} {internal : InternalOrder} {quote : AssetInfo}

/-- With the right cost, the right users can place the order. -/
lemma UnitConsistent.of_cost (hsm : sm.Coherent) {quoteId : UInt32}
    (hquote : sm.getAsset quoteId = some quote)
    (hcost : (internal.calculateCost.toNat : ℚ) = order.total * 10 ^ quote.decimals.toNat) :
    UnitConsistent sm order internal quote := by
  refine ⟨hcost, ?_⟩
  intro ubs clock cost holdings amount id hrequest hholdings hfits hamount
  obtain ⟨hok, -⟩ := UBSCore.validateOrder_of_some hrequest
  obtain ⟨-, -, -, rfl⟩ := UBSCore.lockRequest_eq_some hrequest
  obtain ⟨-, hraw⟩ := hsm.toInternalAmount_exact hquote hamount
  have hpow : (0 : ℚ) < 10 ^ quote.decimals.toNat := by positivity
  rw [hok, hfits, Bool.and_true, UserFunds.covers, hholdings, Option.any_some, decide_eq_true_iff,
    UInt64.le_iff_toNat_le, ← Nat.cast_le (α := ℚ), hcost, hraw, mul_le_mul_iff_left₀ hpow]

/-- **Units of locked funds.**  The cost of a buy order is its total in internal units of the quote
asset exactly if price decimals and base decimals add up to the decimals of the quote asset and the
amount is a `u64`, or, by coincidence, if the product overflows and that amount is `u64::MAX`. -/
theorem unitConsistent_iff (env : ValidationEnv) (sm : SymbolManager) (order : ClientOrder)
    (orderId userId : UInt64) (internal : InternalOrder) (info : SymbolInfo)
    (base quote : AssetInfo) (hsm : sm.Coherent) (hbuy : order.side = .buy)
    (hconvert : order.toUbsInternal env sm orderId userId = .ok internal)
    (hinfo : sm.getSymbolInfo order.symbol = some info)
    (hbase : sm.getAsset info.baseAssetId = some base)
    (hquote : sm.getAsset info.quoteAssetId = some quote) :
    UnitConsistent sm order internal quote ↔
      (info.priceDecimal.toNat + base.decimals.toNat = quote.decimals.toNat ∧
        order.total * 10 ^ quote.decimals.toNat < 2 ^ 64) ∨
      (2 ^ 64 ≤ order.total * 10 ^ (info.priceDecimal.toNat + base.decimals.toNat) ∧
        order.total * 10 ^ quote.decimals.toNat = 2 ^ 64 - 1) := by
  obtain ⟨hvalid, -, -, hside, info', base', id, hinfo', -, hbase', hprice, hqty⟩ :=
    ClientOrder.toUbsInternal_eq_ok hconvert
  obtain rfl : info = info' := Option.some.inj (hinfo.symm.trans hinfo')
  obtain rfl : base = base' := Option.some.inj (hbase.symm.trans hbase')
  have hP := hsm.toInternalPrice_exact hinfo hprice
  obtain ⟨-, hQ⟩ := hsm.toInternalAmount_exact hbase hqty
  -- the product of the two internal numbers counts price and base decimals
  have hproduct : ((internal.price.toNat * internal.qty.toNat : ℕ) : ℚ) =
      order.total * 10 ^ (info.priceDecimal.toNat + base.decimals.toNat) := by
    push_cast
    rw [hP, hQ, ClientOrder.total, pow_add]
    ring
  have htotal : 0 < order.total := by
    obtain ⟨hp, hq⟩ := ClientOrder.positive_of_validateOrder hvalid
    have hp' : (0 : ℚ) < order.price.mantissa := by exact_mod_cast hp
    have hq' : (0 : ℚ) < order.quantity.mantissa := by exact_mod_cast hq
    exact mul_pos (div_pos hp' (by positivity)) (div_pos hq' (by positivity))
  have hiff : UnitConsistent sm order internal quote ↔
      (internal.calculateCost.toNat : ℚ) = order.total * 10 ^ quote.decimals.toNat :=
    ⟨UnitConsistent.cost, UnitConsistent.of_cost hsm hquote⟩
  rw [hiff, InternalOrder.calculateCost, hside, hbuy]
  dsimp only
  by_cases hfits : internal.price.toNat * internal.qty.toNat < 2 ^ 64
  · have hlt : order.total * 10 ^ (info.priceDecimal.toNat + base.decimals.toNat) < 2 ^ 64 := by
      rw [← hproduct]
      exact_mod_cast hfits
    rw [Word.checkedMul, if_pos hfits, Option.getD_some, Word.toNat_mul_of_lt hfits, hproduct,
      mul_right_inj' htotal.ne']
    constructor
    · intro hpow
      left
      rw [← hpow]
      exact ⟨pow_right_injective₀ (by norm_num) (by norm_num) hpow, hlt⟩
    · rintro (⟨heq, -⟩ | ⟨hle, -⟩)
      · rw [heq]
      · exact absurd hle (not_le.mpr hlt)
  · have hle :
        (2 : ℚ) ^ 64 ≤ order.total * 10 ^ (info.priceDecimal.toNat + base.decimals.toNat) := by
      rw [← hproduct]
      exact_mod_cast not_lt.mp hfits
    -- the product overflows, and the cost saturates
    have hmax : (((0xFFFFFFFFFFFFFFFF : UInt64).toNat : ℕ) : ℚ) = 2 ^ 64 - 1 := by
      show ((18446744073709551615 : ℕ) : ℚ) = 2 ^ 64 - 1
      norm_num
    rw [Word.checkedMul, if_neg hfits, Option.getD_none, hmax]
    constructor
    · intro heq
      exact .inr ⟨hle, heq.symm⟩
    · rintro (⟨heq, hlt⟩ | ⟨-, heq⟩)
      · rw [heq] at hle
        exact absurd hle (not_le.mpr hlt)
      · exact heq.symm

/-! ## Two sets of assets -/

lemma SymbolManager.coherent_of_keys {sm : SymbolManager}
    (hnames : (sm.assets.map AssetInfo.name).Nodup)
    (hamounts : ∀ a ∈ sm.assets, a.displayDecimals ≤ a.decimals)
    (hprices : ∀ id ∈ sm.symbolInfo.keys, ∀ info ∈ sm.symbolInfo.get? id,
      info.priceDisplayDecimal ≤ info.priceDecimal) : sm.Coherent := by
  refine ⟨hnames, hamounts, fun symbol info hinfo => ?_⟩
  obtain ⟨id, -, hget⟩ := Option.bind_eq_some_iff.mp hinfo
  exact hprices id (by rw [HashMap.mem_keys, hget]; rfl) info hget

lemma mantissa_price_lt : (150 : ℤ).natAbs < 2 ^ 96 := by decide

lemma mantissa_quantity_lt : (1 : ℤ).natAbs < 2 ^ 96 := by decide

lemma two_places_le : 2 ≤ 28 := by decide

lemma three_places_le : 3 ≤ 28 := by decide

/-- A thousandth of a bitcoin at 1.50 USDT. -/
def buyMilliBtc : ClientOrder where
  cid := none
  symbol := "BTC_USDT"
  side := .buy
  price := ⟨150, 2, mantissa_price_lt, two_places_le⟩
  quantity := ⟨1, 3, mantissa_quantity_lt, three_places_le⟩
  orderType := .limit

/-- Assets whose decimals fit: prices have 2 places, bitcoin has 6 and USDT 8. -/
def fittingAssets : SymbolManager :=
  SymbolManager.new |>.addAsset 1 6 3 "BTC" |>.addAsset 2 8 2 "USDT"
    |>.insertSymbol "BTC_USDT" 0 1 2 2 2

theorem unitConsistent_iff_fittingAssets :
    UnitConsistent fittingAssets buyMilliBtc ⟨5, 7, 0, .buy, 150, 1000, .limit⟩
      ⟨2, 8, 2, "USDT"⟩ := by
  refine (unitConsistent_iff ValidationEnv.ascii fittingAssets buyMilliBtc 5 7
    ⟨5, 7, 0, .buy, 150, 1000, .limit⟩ ⟨0, 1, 2, 2, 2⟩ ⟨1, 6, 3, "BTC"⟩ ⟨2, 8, 2, "USDT"⟩
    (SymbolManager.coherent_of_keys ?_ ?_ ?_) rfl ?_ ?_ ?_ ?_).mpr (.inl ⟨?_, ?_⟩)
  · decide +kernel
  · decide +kernel
  · intro id hid
    have hkeys : fittingAssets.symbolInfo.keys = {0} := by decide +kernel
    rw [hkeys, Finset.mem_singleton] at hid
    subst hid
    decide +kernel
  · decide +kernel
  · decide +kernel
  · decide +kernel
  · decide +kernel
  · decide
  · have hdecimals : (8 : UInt32).toNat = 8 := by decide
    rw [hdecimals]
    norm_num [ClientOrder.total, buyMilliBtc, Decimal.value]

/-- With the assets of `load_from_db` the lock is a hundred times what the order is worth. -/
theorem loadFromDb_locks_hundredfold :
    SymbolManager.loadFromDb.Coherent ∧
      buyMilliBtc.toUbsInternal ValidationEnv.ascii SymbolManager.loadFromDb 5 7 =
        .ok ⟨5, 7, 0, .buy, 150, 100000, .limit⟩ ∧
      ¬UnitConsistent SymbolManager.loadFromDb buyMilliBtc ⟨5, 7, 0, .buy, 150, 100000, .limit⟩
        ⟨2, 8, 2, "USDT"⟩ := by
  refine ⟨SymbolManager.coherent_of_keys ?_ ?_ ?_, ?_, fun h => ?_⟩
  · decide +kernel
  · decide +kernel
  · intro id hid
    have hkeys : SymbolManager.loadFromDb.symbolInfo.keys = {0, 1} := by decide +kernel
    rw [hkeys, Finset.mem_insert, Finset.mem_singleton] at hid
    rcases hid with rfl | rfl
    · decide +kernel
    · decide +kernel
  · decide +kernel
  · have hlock :
        (InternalOrder.calculateCost ⟨5, 7, 0, .buy, 150, 100000, .limit⟩).toNat = 15000000 := by
      decide +kernel
    have hdecimals : (8 : UInt32).toNat = 8 := by decide
    have hcost := h.cost
    rw [hlock, hdecimals] at hcost
    norm_num [ClientOrder.total, buyMilliBtc, Decimal.value] at hcost

end ExchangeCore
