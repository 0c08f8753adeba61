import ExchangeCore.Framework.Decimal
import ExchangeCore.Framework.Fallible
import ExchangeCore.Framework.HashMap

/-!
# Symbols, assets and their units

`SymbolManager` (`symbol_manager.rs`) and the conversions of `BalanceManager`
(`models/balance_manager.rs`) from the decimals of a client to integers: an amount is scaled by the
decimals of its asset, a price by the price decimals of its symbol, and both are refused where they
have more places than may be displayed.

Where no more places may be displayed than are stored (`SymbolManager.Coherent`), the conversions
are exact (`toInternalAmount_exact`, `toInternalPrice_exact`).
-/

namespace ExchangeCore

/-! ## Symbols and assets -/

/-- `SymbolInfo`, without the name. -/
structure SymbolInfo where
  symbolId : UInt32
  baseAssetId : UInt32
  quoteAssetId : UInt32
  priceDecimal : UInt32
  priceDisplayDecimal : UInt32
  deriving DecidableEq, Repr

structure AssetInfo where
  assetId : UInt32
  decimals : UInt32
  displayDecimals : UInt32
  name : String
  deriving DecidableEq, Repr

/-- `SymbolManager`; the assets in the order in which the map visits them. -/
structure SymbolManager where
  symbolToId : HashMap String UInt32
  symbolInfo : HashMap UInt32 SymbolInfo
  assets : List AssetInfo
  assets_nodup : (assets.map AssetInfo.assetId).Nodup

namespace SymbolManager

def new : SymbolManager where
  symbolToId := HashMap.empty
  symbolInfo := HashMap.empty
  assets := []
  assets_nodup := List.nodup_nil

def insertSymbol (symbol : String)
    (id baseAssetId quoteAssetId priceDecimal priceDisplayDecimal : UInt32)
    (sm : SymbolManager) : SymbolManager :=
  { sm with
    symbolToId := sm.symbolToId.insert symbol id
    symbolInfo := sm.symbolInfo.insert id
      ⟨id, baseAssetId, quoteAssetId, priceDecimal, priceDisplayDecimal⟩ }

def addAsset (assetId decimals displayDecimals : UInt32) (name : String) (sm : SymbolManager) :
    SymbolManager :=
  { sm with
    assets := sm.assets.filter (fun a => a.assetId ≠ assetId) ++
      [⟨assetId, decimals, displayDecimals, name⟩]
    assets_nodup := by
      rw [List.map_append, List.nodup_append]
      refine ⟨(List.filter_sublist.map _).nodup sm.assets_nodup, List.nodup_singleton _, ?_⟩
      intro id hid id' hid'
      obtain ⟨a, ha, rfl⟩ := List.mem_map.mp hid
      rw [List.map_singleton, List.mem_singleton] at hid'
      rw [hid']
      exact of_decide_eq_true (List.mem_filter.mp ha).2 }

def loadFromDb : SymbolManager :=
  new |>.addAsset 1 8 3 "BTC" |>.addAsset 2 8 2 "USDT" |>.addAsset 3 8 4 "ETH"
    |>.insertSymbol "BTC_USDT" 0 1 2 2 2 |>.insertSymbol "ETH_USDT" 1 3 2 2 2

variable (sm : SymbolManager)

def getSymbolInfo (symbol : String) : Option SymbolInfo :=
  (sm.symbolToId.get? symbol).bind sm.symbolInfo.get?

/-- The asset of an id. -/
def getAsset (assetId : UInt32) : Option AssetInfo := sm.assets.find? (fun a => a.assetId = assetId)

def getAssetName (assetId : UInt32) : Option String := (sm.getAsset assetId).map AssetInfo.name

def getAssetDecimal (assetId : UInt32) : Option UInt32 :=
  (sm.getAsset assetId).map AssetInfo.decimals

def getAssetDisplayDecimals (assetId : UInt32) : Option UInt32 :=
  (sm.getAsset assetId).map AssetInfo.displayDecimals

/-- `get_asset_id`: the first asset of the name. -/
def getAssetId (name : String) : Option UInt32 :=
  (sm.assets.find? (fun a => a.name = name)).map AssetInfo.assetId

/-- Assets have names of their own, and no more places may be displayed than are stored. -/
structure Coherent : Prop where
  names : (sm.assets.map AssetInfo.name).Nodup
  amounts : ∀ a ∈ sm.assets, a.displayDecimals ≤ a.decimals
  prices : ∀ symbol info, sm.getSymbolInfo symbol = some info →
    info.priceDisplayDecimal ≤ info.priceDecimal

variable {sm}

lemma mem_of_getAsset {assetId : UInt32} {a : AssetInfo} (h : sm.getAsset assetId = some a) :
    a ∈ sm.assets ∧ a.assetId = assetId :=
  ⟨List.mem_of_find?_eq_some h, by simpa using List.find?_some h⟩

lemma Coherent.getAssetId (h : sm.Coherent) {a : AssetInfo} (ha : a ∈ sm.assets) :
    sm.getAssetId a.name = some a.assetId := by
  have hsome : (sm.assets.find? (fun b => b.name = a.name)).isSome := by
    rw [List.find?_isSome]
    exact ⟨a, ha, decide_eq_true rfl⟩
  obtain ⟨b, hb⟩ := Option.isSome_iff_exists.mp hsome
  have hname : b.name = a.name := by simpa using List.find?_some hb
  rw [SymbolManager.getAssetId, hb, Option.map_some,
    List.inj_on_of_nodup_map h.names (List.mem_of_find?_eq_some hb) ha hname]

end SymbolManager

/-! ## Conversions -/

/-- `10_u64.checked_pow`. -/
def checkedPow10 (decimals : UInt32) : Option Decimal :=
  if h : 10 ^ decimals.toNat < 2 ^ 64 then some (Decimal.ofNat _ h) else none

/-- The conversion of amounts and prices: no more places than may be displayed, then the number
scaled and rounded.  The texts are the caller's. -/
def toInternal (tooPrecise overflow : String) (outOfRange : Decimal → String)
    (decimals displayDecimals : UInt32) (number : Decimal) : Except Abort UInt64 :=
  if number.normalizedScale > displayDecimals.toNat then .error (.error tooPrecise)
  else
    match checkedPow10 decimals with
    | none => .error (.error overflow)
    | some multiplier =>
        match number.mul multiplier with
        | none => .error (.panic "Multiplication overflowed")
        | some product =>
            let result := product.round
            match result.toU64 with
            | none => .error (.error (outOfRange result))
            | some raw => .ok raw

/-- A number that scales to an integer is converted to it. -/
lemma toInternal_eq_of_int {tooPrecise overflow : String} {outOfRange : Decimal → String}
    {decimals displayDecimals : UInt32} {number : Decimal} {raw : UInt64} {n : ℤ}
    (hn : number.value * 10 ^ decimals.toNat = n)
    (h : toInternal tooPrecise overflow outOfRange decimals displayDecimals number = .ok raw) :
    (raw.toNat : ℚ) = number.value * 10 ^ decimals.toNat := by
  unfold toInternal at h
  split at h
  · exact absurd h (by simp)
  split at h
  · exact absurd h (by simp)
  rename_i multiplier hmultiplier
  split at h
  · exact absurd h (by simp)
  rename_i product hproduct
  dsimp only at h
  split at h
  · exact absurd h (by simp)
  rename_i raw' hraw
  obtain rfl := Except.ok.inj h
  have hvalue : product.value = number.value * 10 ^ decimals.toNat := by
    unfold checkedPow10 at hmultiplier
    split at hmultiplier
    · obtain rfl := Option.some.inj hmultiplier
      exact Decimal.value_mul_pow hproduct
    · exact absurd hmultiplier (by simp)
  rw [Decimal.value_of_toU64 rfl hraw, Decimal.value_round (hvalue.trans hn), hvalue]

/-- What is converted has no more places than may be displayed, and its power of ten is a `u64`. -/
lemma places_of_toInternal {tooPrecise overflow : String} {outOfRange : Decimal → String}
    {decimals displayDecimals : UInt32} {number : Decimal} {raw : UInt64}
    (h : toInternal tooPrecise overflow outOfRange decimals displayDecimals number = .ok raw) :
    number.normalizedScale ≤ displayDecimals.toNat ∧
      ∃ multiplier, checkedPow10 decimals = some multiplier := by
  unfold toInternal at h
  split at h
  · exact absurd h (by simp)
  rename_i hscale
  split at h
  · exact absurd h (by simp)
  rename_i multiplier hmultiplier
  exact ⟨not_lt.mp hscale, multiplier, hmultiplier⟩

lemma toInternal_exact {tooPrecise overflow : String} {outOfRange : Decimal → String}
    {decimals displayDecimals : UInt32} {number : Decimal} {raw : UInt64}
    (hle : displayDecimals ≤ decimals)
    (h : toInternal tooPrecise overflow outOfRange decimals displayDecimals number = .ok raw) :
    (raw.toNat : ℚ) = number.value * 10 ^ decimals.toNat := by
  obtain ⟨n, hn⟩ := Decimal.exists_int_of_normalizedScale_le (d := number) (p := decimals.toNat)
    ((places_of_toInternal h).1.trans (UInt32.le_iff_toNat_le.mp hle))
  exact toInternal_eq_of_int hn h

/-- What is accepted of a number: no more places than may be displayed, at most 19 of them stored,
and its integer is one of 64 bits. -/
structure Accepted (decimals displayDecimals : UInt32) (number : Decimal) : Prop where
  places : number.normalizedScale ≤ displayDecimals.toNat
  decimals_le : decimals.toNat ≤ 19
  nonneg : 0 ≤ number.value * 10 ^ decimals.toNat
  lt : number.value * 10 ^ decimals.toNat < 2 ^ 64

section ToInternal

variable {tooPrecise overflow : String} {outOfRange : Decimal → String}
  {decimals displayDecimals : UInt32} {number : Decimal}

lemma checkedPow10_eq (h : decimals.toNat ≤ 19) :
    ∃ hpow, checkedPow10 decimals = some (Decimal.ofNat (10 ^ decimals.toNat) hpow) := by
  have hpow : 10 ^ decimals.toNat < 2 ^ 64 :=
    (Nat.pow_le_pow_right (by omega) h).trans_lt (by norm_num)
  exact ⟨hpow, dif_pos hpow⟩

lemma checkedPow10_eq_none (h : 19 < decimals.toNat) : checkedPow10 decimals = none := by
  refine dif_neg (not_lt.mpr ?_)
  exact le_trans (by norm_num) (Nat.pow_le_pow_right (by omega : 0 < 10) h)

/-- **What the conversion does**, for a number whose product fits: it returns, exactly, or refuses.
For any number, it returns only what is accepted. -/
lemma toInternal_spec (hle : displayDecimals ≤ decimals) :
    ((∃ raw, toInternal tooPrecise overflow outOfRange decimals displayDecimals number = .ok raw) ↔
        Accepted decimals displayDecimals number) ∧
      (|number.value * 10 ^ decimals.toNat| < 2 ^ 96 → ∀ message,
        toInternal tooPrecise overflow outOfRange decimals displayDecimals number ≠
          .error (.panic message)) := by
  unfold toInternal
  by_cases hplaces : number.normalizedScale > displayDecimals.toNat
  · rw [if_pos hplaces]
    refine ⟨iff_of_false (by simp) (fun h => ?_), fun _ message => by simp⟩
    exact absurd h.places (not_le.mpr hplaces)
  rw [if_neg hplaces]
  by_cases hdecimals : decimals.toNat ≤ 19
  swap
  · rw [checkedPow10_eq_none (not_le.mp hdecimals)]
    exact ⟨iff_of_false (by simp) (fun h => hdecimals h.decimals_le), fun _ message => by simp⟩
  obtain ⟨hpow, hmultiplier⟩ := checkedPow10_eq hdecimals
  rw [hmultiplier]
  dsimp only
  rcases hproduct : number.mul (Decimal.ofNat (10 ^ decimals.toNat) hpow) with _ | product
  · -- The product does not fit, and is far too large for an integer of 64 bits.
    have hlarge : ¬|number.value * 10 ^ decimals.toNat| < 2 ^ 96 := by
      intro hfits
      obtain ⟨c, hc⟩ := Decimal.exists_mul_pow hpow hfits
      exact absurd (hproduct.symm.trans hc) (by simp)
    refine ⟨iff_of_false (by simp) (fun h => hlarge ?_), fun h => absurd h hlarge⟩
    rw [abs_of_nonneg h.nonneg]
    exact h.lt.trans (by norm_num)
  · -- the product is exact and a whole number, so that rounding leaves it
    have hvalue := Decimal.value_mul_pow hproduct
    obtain ⟨n, hn⟩ := Decimal.exists_int_of_normalizedScale_le (d := number) (p := decimals.toNat)
      ((not_lt.mp hplaces).trans (UInt32.le_iff_toNat_le.mp hle))
    have hround := Decimal.value_round (hvalue.trans hn)
    have hiff := @Decimal.toU64_isSome_iff product.round rfl
    rw [hround, hvalue] at hiff
    dsimp only
    rcases hraw : product.round.toU64 with _ | raw
    · refine ⟨iff_of_false (by simp) (fun h => ?_), fun _ message => by simp⟩
      obtain ⟨raw, hsome⟩ := hiff.mpr ⟨h.nonneg, h.lt⟩
      exact absurd (hraw.symm.trans hsome) (by simp)
    · obtain ⟨hnonneg, hlt⟩ := hiff.mp ⟨raw, hraw⟩
      exact ⟨iff_of_true ⟨raw, rfl⟩ ⟨not_lt.mp hplaces, hdecimals, hnonneg, hlt⟩,
        fun _ message => by simp⟩

end ToInternal

namespace AssetInfo

/-- The conversion of an amount of an asset. -/
def toInternal (a : AssetInfo) (amount : Decimal) : Except Abort UInt64 :=
  ExchangeCore.toInternal s!"Amount {amount.display} exceeds max precision {a.displayDecimals}"
    "Decimals too large, overflow" (fun result => s!"Amount overflow or negative: {result.display}")
    a.decimals a.displayDecimals amount

lemma toInternal_spec {a : AssetInfo} (hle : a.displayDecimals ≤ a.decimals) {amount : Decimal} :
    ((∃ raw, a.toInternal amount = .ok raw) ↔ Accepted a.decimals a.displayDecimals amount) ∧
      (|amount.value * 10 ^ a.decimals.toNat| < 2 ^ 96 → ∀ message,
        a.toInternal amount ≠ .error (.panic message)) :=
  ExchangeCore.toInternal_spec hle

end AssetInfo

namespace SymbolManager

variable (sm : SymbolManager)

def toInternalAmount (assetName : String) (amount : Decimal) : Except Abort (UInt32 × UInt64) :=
  match sm.getAssetId assetName with
  | none => .error (.error s!"Unknown asset: {assetName}")
  | some assetId =>
      match sm.getAssetDecimal assetId with
      | none => .error (.error s!"Decimal not found for asset: {assetName}")
      | some decimals =>
          let displayDecimals := (sm.getAssetDisplayDecimals assetId).getD decimals
          (toInternal s!"Amount {amount.display} exceeds max precision {displayDecimals}"
            "Decimals too large, overflow"
            (fun result => s!"Amount overflow or negative: {result.display}")
            decimals displayDecimals amount).map (assetId, ·)

def toInternalPrice (symbol : String) (price : Decimal) : Except Abort UInt64 :=
  match sm.getSymbolInfo symbol with
  | none => .error (.error s!"Unknown symbol: {symbol}")
  | some info =>
      toInternal s!"Price {price.display} exceeds max precision {info.priceDisplayDecimal}"
        "Price decimals overflow"
        (fun result => s!"Price overflow or negative: {result.display}")
        info.priceDecimal info.priceDisplayDecimal price

variable {sm}

lemma Coherent.toInternalAmount_exact (h : sm.Coherent) {a : AssetInfo} {assetId id : UInt32}
    (ha : sm.getAsset assetId = some a) {amount : Decimal} {raw : UInt64}
    (hok : sm.toInternalAmount a.name amount = .ok (id, raw)) :
    id = assetId ∧ (raw.toNat : ℚ) = amount.value * 10 ^ a.decimals.toNat := by
  obtain ⟨hmem, rfl⟩ := mem_of_getAsset ha
  simp only [toInternalAmount, h.getAssetId hmem, getAssetDecimal, getAssetDisplayDecimals, ha,
    Option.map_some, Option.getD_some] at hok
  cases hraw : toInternal _ _ _ a.decimals a.displayDecimals amount with
  | error e =>
      rw [hraw] at hok
      exact absurd hok (by simp [Except.map])
  | ok raw' =>
      rw [hraw] at hok
      obtain ⟨rfl, rfl⟩ := Prod.mk.inj (Except.ok.inj hok)
      exact ⟨rfl, toInternal_exact (h.amounts a hmem) hraw⟩

lemma Coherent.toInternalPrice_exact (h : sm.Coherent) {symbol : String} {info : SymbolInfo}
    (hinfo : sm.getSymbolInfo symbol = some info) {price : Decimal} {raw : UInt64}
    (hok : sm.toInternalPrice symbol price = .ok raw) :
    (raw.toNat : ℚ) = price.value * 10 ^ info.priceDecimal.toNat := by
  rw [toInternalPrice, hinfo] at hok
  exact toInternal_exact (h.prices symbol info hinfo) hok

/-! ## The way back -/

end SymbolManager

/-- The division of an integer by a power of ten. -/
def toClient (decimals : UInt32) (raw : UInt64) : Except Abort (Option Decimal) :=
  match checkedPow10 decimals with
  | none => .ok none
  | some divisor =>
      match (Decimal.ofNat raw.toNat raw.toNat_lt).div divisor with
      | none => .error (.panic "Division overflowed")
      | some quotient => .ok (some quotient)

/-- The quotient is exact. -/
lemma exists_toClient {decimals : UInt32} {divisor : Decimal}
    (h : checkedPow10 decimals = some divisor) (raw : UInt64) :
    ∃ quotient, toClient decimals raw = .ok (some quotient) ∧
      quotient.value = raw.toNat / 10 ^ decimals.toNat := by
  have hdecimals : decimals.toNat ≤ 19 := by
    by_contra hlarge
    rw [checkedPow10_eq_none (not_le.mp hlarge)] at h
    exact absurd h (by simp)
  obtain ⟨hpow, hdivisor⟩ := checkedPow10_eq hdecimals
  obtain rfl := Option.some.inj (h.symm.trans hdivisor)
  have hraw : (Decimal.ofNat raw.toNat raw.toNat_lt).value = raw.toNat := by
    rw [Decimal.value_ofNat]
  have hten : (Decimal.ofNat (10 ^ decimals.toNat) hpow).value = 10 ^ decimals.toNat := by
    rw [Decimal.value_ofNat]
    push_cast
    rfl
  have hne : (Decimal.ofNat (10 ^ decimals.toNat) hpow).mantissa ≠ 0 := by
    show ((10 ^ decimals.toNat : ℕ) : ℤ) ≠ 0
    positivity
  have hsize : ((raw.toNat : ℤ)).natAbs < 2 ^ 96 := by
    rw [Int.natAbs_natCast]
    exact raw.toNat_lt.trans (by norm_num)
  obtain ⟨c, hc, hvalue⟩ := @Decimal.exists_div (Decimal.ofNat raw.toNat raw.toNat_lt)
    (Decimal.ofNat (10 ^ decimals.toNat) hpow) hne raw.toNat decimals.toNat (by omega) hsize (by
      rw [hraw, hten]
      field_simp
      push_cast
      ring)
  refine ⟨c, ?_, ?_⟩
  · rw [toClient, hdivisor]
    dsimp only
    rw [hc]
  · rw [hvalue, hraw, hten]

namespace SymbolManager

variable (sm : SymbolManager)

def getSymbolInfoById (id : UInt32) : Option SymbolInfo := sm.symbolInfo.get? id

/-- `BalanceManager::to_client_amount`: rounded toward zero to the places that may be displayed. -/
def toClientAmount (assetId : UInt32) (amount : UInt64) : Except Abort (Option Decimal) :=
  match sm.getAssetDecimal assetId with
  | none => .ok none
  | some decimals =>
      let displayDecimals := (sm.getAssetDisplayDecimals assetId).getD decimals
      (toClient decimals amount).map (Option.map (Decimal.truncate displayDecimals.toNat))

def toClientPriceById (symbolId : UInt32) (price : UInt64) : Except Abort (Option Decimal) :=
  match sm.getSymbolInfoById symbolId with
  | none => .ok none
  | some info => toClient info.priceDecimal price

variable {sm}

/-! ## What is accepted -/

lemma getAsset_of_mem {a : AssetInfo} (ha : a ∈ sm.assets) : sm.getAsset a.assetId = some a := by
  have hsome : (sm.assets.find? (fun b => b.assetId = a.assetId)).isSome := by
    rw [List.find?_isSome]
    exact ⟨a, ha, decide_eq_true rfl⟩
  obtain ⟨b, hb⟩ := Option.isSome_iff_exists.mp hsome
  have hid : b.assetId = a.assetId := by simpa using List.find?_some hb
  rw [getAsset, hb, List.inj_on_of_nodup_map sm.assets_nodup (List.mem_of_find?_eq_some hb) ha hid]

lemma exists_getAsset {name : String} {assetId : UInt32} (h : sm.getAssetId name = some assetId) :
    ∃ a, sm.getAsset assetId = some a ∧ a.name = name := by
  obtain ⟨a, ha, rfl⟩ := Option.map_eq_some_iff.mp h
  exact ⟨a, getAsset_of_mem (List.mem_of_find?_eq_some ha), by simpa using List.find?_some ha⟩

lemma toInternalAmount_eq {name : String} {assetId : UInt32} {a : AssetInfo}
    (hid : sm.getAssetId name = some assetId) (ha : sm.getAsset assetId = some a)
    (amount : Decimal) :
    sm.toInternalAmount name amount =
      (a.toInternal amount).map (assetId, ·) := by
  simp only [toInternalAmount, hid, getAssetDecimal, getAssetDisplayDecimals, ha, Option.map_some,
    Option.getD_some, AssetInfo.toInternal]

lemma toInternalAmount_of_unknown {name : String} (h : sm.getAssetId name = none)
    (amount : Decimal) :
    sm.toInternalAmount name amount = .error (.error s!"Unknown asset: {name}") := by
  rw [toInternalAmount, h]

/-- An amount that is converted is one of a known asset, accepted, and exact. -/
lemma toInternalAmount_eq_ok {name : String} {amount : Decimal} {assetId : UInt32} {raw : UInt64}
    (h : sm.toInternalAmount name amount = .ok (assetId, raw)) :
    ∃ a, sm.getAssetId name = some assetId ∧ sm.getAsset assetId = some a ∧
      a.toInternal amount = .ok raw := by
  rcases hid : sm.getAssetId name with _ | id
  · rw [toInternalAmount_of_unknown hid] at h
    exact absurd h (by simp)
  obtain ⟨a, ha, -⟩ := exists_getAsset hid
  rw [toInternalAmount_eq hid ha] at h
  cases hraw : a.toInternal amount with
  | error e =>
      rw [hraw] at h
      exact absurd h (by simp [Except.map])
  | ok raw' =>
      rw [hraw] at h
      obtain ⟨rfl, rfl⟩ := Prod.mk.inj (Except.ok.inj h)
      exact ⟨a, rfl, ha, hraw⟩

/-- Amounts: what is accepted is converted, exactly; else they are refused, without a panic if the
product fits. -/
lemma toInternalAmount_spec (hassets : ∀ a ∈ sm.assets, a.displayDecimals ≤ a.decimals)
    (name : String) (amount : Decimal) :
    ((∃ r, sm.toInternalAmount name amount = .ok r) ↔
        ∃ assetId a, sm.getAssetId name = some assetId ∧ sm.getAsset assetId = some a ∧
          Accepted a.decimals a.displayDecimals amount) ∧
      (∀ assetId raw, sm.toInternalAmount name amount = .ok (assetId, raw) →
        ∃ a, sm.getAssetId name = some assetId ∧ sm.getAsset assetId = some a ∧
          (raw.toNat : ℚ) = amount.value * 10 ^ a.decimals.toNat) ∧
      ((∀ assetId a, sm.getAssetId name = some assetId → sm.getAsset assetId = some a →
          |amount.value * 10 ^ a.decimals.toNat| < 2 ^ 96) →
        ∀ message, sm.toInternalAmount name amount ≠ .error (.panic message)) := by
  refine ⟨?_, ?_, ?_⟩
  · constructor
    · rintro ⟨⟨assetId, raw⟩, hok⟩
      obtain ⟨a, hid, ha, hraw⟩ := toInternalAmount_eq_ok hok
      have hle := hassets a (mem_of_getAsset ha).1
      exact ⟨assetId, a, hid, ha, (AssetInfo.toInternal_spec hle).1.mp ⟨raw, hraw⟩⟩
    · rintro ⟨assetId, a, hid, ha, haccepted⟩
      have hle := hassets a (mem_of_getAsset ha).1
      obtain ⟨raw, hraw⟩ := (AssetInfo.toInternal_spec hle).1.mpr haccepted
      exact ⟨(assetId, raw), by rw [toInternalAmount_eq hid ha, hraw]; rfl⟩
  · intro assetId raw hok
    obtain ⟨a, hid, ha, hraw⟩ := toInternalAmount_eq_ok hok
    exact ⟨a, hid, ha, toInternal_exact (hassets a (mem_of_getAsset ha).1) hraw⟩
  · intro hfits message hpanic
    rcases hid : sm.getAssetId name with _ | assetId
    · rw [toInternalAmount_of_unknown hid] at hpanic
      exact absurd hpanic (by simp)
    obtain ⟨a, ha, -⟩ := exists_getAsset hid
    rw [toInternalAmount_eq hid ha] at hpanic
    refine (AssetInfo.toInternal_spec (hassets a (mem_of_getAsset ha).1)).2 (hfits assetId a hid ha)
      message ?_
    cases hraw : a.toInternal amount with
    | error e =>
        rw [hraw] at hpanic
        rw [Except.error.inj hpanic]
    | ok raw =>
        rw [hraw] at hpanic
        exact absurd hpanic (by simp [Except.map])

/-- Prices: the same. -/
lemma toInternalPrice_spec
    (hsymbols : ∀ symbol info, sm.getSymbolInfo symbol = some info →
      info.priceDisplayDecimal ≤ info.priceDecimal)
    (symbol : String) (price : Decimal) :
    ((∃ raw, sm.toInternalPrice symbol price = .ok raw) ↔
        ∃ info, sm.getSymbolInfo symbol = some info ∧
          Accepted info.priceDecimal info.priceDisplayDecimal price) ∧
      (∀ raw, sm.toInternalPrice symbol price = .ok raw →
        ∃ info, sm.getSymbolInfo symbol = some info ∧
          (raw.toNat : ℚ) = price.value * 10 ^ info.priceDecimal.toNat) ∧
      ((∀ info, sm.getSymbolInfo symbol = some info →
          |price.value * 10 ^ info.priceDecimal.toNat| < 2 ^ 96) →
        ∀ message, sm.toInternalPrice symbol price ≠ .error (.panic message)) := by
  rw [toInternalPrice]
  rcases hinfo : sm.getSymbolInfo symbol with _ | info
  · exact ⟨iff_of_false (by simp) (by simp), by simp, fun _ message => by simp⟩
  · have hle := hsymbols symbol info hinfo
    refine ⟨?_, ?_, ?_⟩
    · rw [(toInternal_spec hle).1]
      constructor
      · exact fun h => ⟨info, rfl, h⟩
      · rintro ⟨info', hinfo', h⟩
        rwa [Option.some.inj hinfo']
    · exact fun raw hraw => ⟨info, rfl, toInternal_exact hle hraw⟩
    · exact fun hfits => (toInternal_spec hle).2 (hfits info rfl)

/-- The integer of an amount that has been converted comes back over the power of ten, with nothing
lost in the places that may not be displayed. -/
lemma exists_toClientAmount {name : String} {amount : Decimal} {assetId : UInt32} {a : AssetInfo}
    {raw : UInt64} (hok : sm.toInternalAmount name amount = .ok (assetId, raw))
    (ha : sm.getAsset assetId = some a) :
    ∃ c, sm.toClientAmount assetId raw = .ok (some c) ∧
      c.value = raw.toNat / 10 ^ a.decimals.toNat := by
  obtain ⟨a', -, ha', hraw⟩ := toInternalAmount_eq_ok hok
  obtain rfl := Option.some.inj (ha.symm.trans ha')
  obtain ⟨hplaces, divisor, hdivisor⟩ := places_of_toInternal hraw
  obtain ⟨quotient, hquotient, hvalue⟩ := exists_toClient hdivisor raw
  have hconvert : sm.toClientAmount assetId raw =
      .ok (some (quotient.truncate a.displayDecimals.toNat)) := by
    simp only [toClientAmount, getAssetDecimal, getAssetDisplayDecimals, ha, Option.map_some,
      Option.getD_some, hquotient, Except.map]
  refine ⟨_, hconvert, ?_⟩
  -- The places that would be dropped are zeros: there are none, or the amount has none.
  have hint : ∃ n : ℤ, quotient.value * 10 ^ a.displayDecimals.toNat = n := by
    rcases Nat.le_total a.displayDecimals.toNat a.decimals.toNat with hle | hle
    · obtain ⟨n, hn⟩ := Decimal.exists_int_of_normalizedScale_le hplaces
      refine ⟨n, ?_⟩
      rw [hvalue, toInternal_exact (UInt32.le_iff_toNat_le.mpr hle) hraw,
        mul_div_cancel_right₀ _ (by positivity), hn]
    · obtain ⟨l, hl⟩ := Nat.exists_eq_add_of_le hle
      refine ⟨raw.toNat * 10 ^ l, ?_⟩
      rw [hvalue, hl, pow_add]
      push_cast
      field_simp
  obtain ⟨n, hn⟩ := hint
  rw [Decimal.value_truncate hn, hvalue]

/-- **What is converted.**  Where no more places may be displayed than are stored, an amount or a
price is converted, and exactly, if and only if its asset or symbol is known, it has no more places
than may be displayed, at most 19 places are stored, and the integer is one of 64 bits.  Otherwise
it is refused; if the product with the power of ten has a representation, without a panic. -/
theorem toInternal_exact_iff (sm : SymbolManager)
    (hassets : ∀ a ∈ sm.assets, a.displayDecimals ≤ a.decimals)
    (hsymbols : ∀ symbol info, sm.getSymbolInfo symbol = some info →
      info.priceDisplayDecimal ≤ info.priceDecimal)
    (name : String) (number : Decimal) :
    (((∃ r, sm.toInternalAmount name number = .ok r) ↔
          ∃ assetId a, sm.getAssetId name = some assetId ∧ sm.getAsset assetId = some a ∧
            Accepted a.decimals a.displayDecimals number) ∧
        (∀ assetId raw, sm.toInternalAmount name number = .ok (assetId, raw) →
          ∃ a, sm.getAssetId name = some assetId ∧ sm.getAsset assetId = some a ∧
            (raw.toNat : ℚ) = number.value * 10 ^ a.decimals.toNat) ∧
        ((∀ assetId a, sm.getAssetId name = some assetId → sm.getAsset assetId = some a →
            |number.value * 10 ^ a.decimals.toNat| < 2 ^ 96) →
          ∀ message, sm.toInternalAmount name number ≠ .error (.panic message))) ∧
      ((∃ raw, sm.toInternalPrice name number = .ok raw) ↔
          ∃ info, sm.getSymbolInfo name = some info ∧
            Accepted info.priceDecimal info.priceDisplayDecimal number) ∧
        (∀ raw, sm.toInternalPrice name number = .ok raw →
          ∃ info, sm.getSymbolInfo name = some info ∧
            (raw.toNat : ℚ) = number.value * 10 ^ info.priceDecimal.toNat) ∧
        ((∀ info, sm.getSymbolInfo name = some info →
            |number.value * 10 ^ info.priceDecimal.toNat| < 2 ^ 96) →
          ∀ message, sm.toInternalPrice name number ≠ .error (.panic message)) :=
  ⟨toInternalAmount_spec hassets name number, toInternalPrice_spec hsymbols name number⟩

/-- BTC alone. -/
def onlyBtc : SymbolManager := new.addAsset 1 8 3 "BTC"

theorem toInternal_exact_iff_btc :
    ∃ r, onlyBtc.toInternalAmount "BTC" ⟨15, 1, by decide, by decide⟩ = .ok r := by
  have hassets : ∀ a ∈ onlyBtc.assets, a.displayDecimals ≤ a.decimals := by decide
  have hsymbols : ∀ symbol info, onlyBtc.getSymbolInfo symbol = some info →
      info.priceDisplayDecimal ≤ info.priceDecimal := by
    intro symbol info hinfo
    rw [getSymbolInfo, onlyBtc, addAsset, new, HashMap.get?_empty] at hinfo
    exact absurd hinfo (by simp)
  refine (toInternal_exact_iff onlyBtc hassets hsymbols "BTC" _).1.1.mpr
    ⟨1, ⟨1, 8, 3, "BTC"⟩, by decide +kernel, by decide +kernel, ?_⟩
  exact
    { places := by decide
      decimals_le := by decide
      nonneg := by norm_num [Decimal.value]
      lt := by
        rw [show UInt32.toNat 8 = 8 from rfl]
        norm_num [Decimal.value] }

/-- The largest `Decimal` panics as an amount of BTC; and the amount 0 of an asset of 20 decimals is
refused. -/
theorem toInternalAmount_fails :
    (∃ message, onlyBtc.toInternalAmount "BTC" ⟨2 ^ 96 - 1, 0, by decide, by decide⟩ =
        .error (.panic message)) ∧
      ¬∀ (sm : SymbolManager) (name : String) (amount : Decimal),
        (∀ a ∈ sm.assets, a.displayDecimals ≤ a.decimals) →
        ((∃ r, sm.toInternalAmount name amount = .ok r) ↔
          ∃ assetId a, sm.getAssetId name = some assetId ∧ sm.getAsset assetId = some a ∧
            amount.normalizedScale ≤ a.displayDecimals.toNat ∧
            0 ≤ amount.value * 10 ^ a.decimals.toNat ∧
            amount.value * 10 ^ a.decimals.toNat < 2 ^ 64) := by
  refine ⟨⟨"Multiplication overflowed", by decide +kernel⟩, fun hiff => ?_⟩
  obtain ⟨r, hr⟩ := (hiff (new.addAsset 1 20 20 "FINE") "FINE" ⟨0, 0, by decide, by decide⟩
    (by decide)).mpr ⟨1, ⟨1, 20, 20, "FINE"⟩, by decide +kernel, by decide +kernel, by decide,
      by norm_num [Decimal.value], by norm_num [Decimal.value]⟩
  have herror : (new.addAsset 1 20 20 "FINE").toInternalAmount "FINE"
      ⟨0, 0, by decide, by decide⟩ = .error (.error "Decimals too large, overflow") := by
    decide +kernel
  exact absurd (herror.symm.trans hr) (by simp)

end SymbolManager

end ExchangeCore
