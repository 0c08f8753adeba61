import ExchangeCore.Models.ClientOrder
import ExchangeCore.Server.Matcher

/-!
# Orders of clients as requests, and back

`ClientOrder::try_to_internal` and `ClientOrder::try_from_internal` (`models/client_order.rs`) over
a `SymbolManager` that has been built by `add_asset` and `insert_symbol`.

An order that is accepted comes back with the same symbol, side and type, and with numerically the
same price and quantity: the conversion is exact, and the rounding on the way back drops zeros only.
`to_ubs_internal` accepts the same orders, with the same integers (`request_roundTrip`).
-/

namespace ExchangeCore

/-! ## The symbols with their names -/

/-- `SymbolManager` with the map from ids to symbols, which only the way back reads. -/
structure SymbolDirectory where
  manager : SymbolManager
  idToSymbol : HashMap UInt32 String

/-- A call that configures the symbols. -/
inductive Configure
  | addAsset (assetId decimals displayDecimals : UInt32) (name : String)
  | insertSymbol (symbol : String)
      (id baseAssetId quoteAssetId priceDecimal priceDisplayDecimal : UInt32)

namespace Configure

/-- The name of an asset that is added. -/
def assetName : Configure → Option String
  | .addAsset _ _ _ name => some name
  | .insertSymbol _ _ _ _ _ _ => none

/-- The id of a symbol that is inserted. -/
def symbolId : Configure → Option UInt32
  | .addAsset _ _ _ _ => none
  | .insertSymbol _ id _ _ _ _ => some id

/-- No more places may be displayed than are stored. -/
def Places : Configure → Prop
  | .addAsset _ decimals displayDecimals _ => displayDecimals ≤ decimals
  | .insertSymbol _ _ _ _ priceDecimal priceDisplayDecimal => priceDisplayDecimal ≤ priceDecimal

instance : DecidablePred Places
  | .addAsset _ _ _ _ => inferInstanceAs (Decidable (_ ≤ _))
  | .insertSymbol _ _ _ _ _ _ => inferInstanceAs (Decidable (_ ≤ _))

end Configure

/-- Assets have names of their own, symbols have ids of their own, and no more places may be
displayed than are stored. -/
structure WellConfigured (calls : List Configure) : Prop where
  names : (calls.filterMap Configure.assetName).Nodup
  ids : (calls.filterMap Configure.symbolId).Nodup
  places : ∀ call ∈ calls, call.Places

namespace SymbolDirectory

def new : SymbolDirectory := ⟨.new, HashMap.empty⟩

/-- `add_asset`, `insert_symbol`. -/
def configure (sd : SymbolDirectory) : Configure → SymbolDirectory
  | .addAsset assetId decimals displayDecimals name =>
      { sd with manager := sd.manager.addAsset assetId decimals displayDecimals name }
  | .insertSymbol symbol id baseAssetId quoteAssetId priceDecimal priceDisplayDecimal =>
      { manager := sd.manager.insertSymbol symbol id baseAssetId quoteAssetId priceDecimal
          priceDisplayDecimal
        idToSymbol := sd.idToSymbol.insert id symbol }

/-- The symbols after some calls. -/
def build (calls : List Configure) : SymbolDirectory := calls.foldl configure new

def getSymbol (sd : SymbolDirectory) (id : UInt32) : Option String := sd.idToSymbol.get? id

/-- What holds after the calls: the names and ids are those of the calls, and an id leads to the
symbol it was found by. -/
structure Built (calls : List Configure) (sd : SymbolDirectory) : Prop where
  names : (sd.manager.assets.map AssetInfo.name).Nodup
  mem_names : ∀ a ∈ sd.manager.assets, a.name ∈ calls.filterMap Configure.assetName
  amounts : ∀ a ∈ sd.manager.assets, a.displayDecimals ≤ a.decimals
  prices : ∀ id info, sd.manager.symbolInfo.get? id = some info →
    info.priceDisplayDecimal ≤ info.priceDecimal ∧ info.symbolId = id
  symbols : ∀ symbol id, sd.manager.symbolToId.get? symbol = some id →
    id ∈ calls.filterMap Configure.symbolId ∧ sd.idToSymbol.get? id = some symbol

lemma built_new : Built [] new where
  names := List.nodup_nil
  mem_names := fun a ha => absurd ha List.not_mem_nil
  amounts := fun a ha => absurd ha List.not_mem_nil
  prices := by
    intro id info hinfo
    rw [new, SymbolManager.new, HashMap.get?_empty] at hinfo
    exact absurd hinfo (by simp)
  symbols := by
    intro symbol id hid
    rw [new, SymbolManager.new, HashMap.get?_empty] at hid
    exact absurd hid (by simp)

variable {calls : List Configure} {sd : SymbolDirectory}

lemma Built.addAsset (h : Built calls sd) {assetId decimals displayDecimals : UInt32}
    {name : String} (hname : name ∉ calls.filterMap Configure.assetName)
    (hle : displayDecimals ≤ decimals) :
    Built (calls ++ [.addAsset assetId decimals displayDecimals name])
      (sd.configure (.addAsset assetId decimals displayDecimals name)) := by
  have hnames : (calls ++ [Configure.addAsset assetId decimals displayDecimals name]).filterMap
      Configure.assetName = calls.filterMap Configure.assetName ++ [name] := List.filterMap_append
  have hids : (calls ++ [Configure.addAsset assetId decimals displayDecimals name]).filterMap
      Configure.symbolId = calls.filterMap Configure.symbolId :=
    List.filterMap_append.trans (List.append_nil _)
  -- An asset is one of those before, or the new one.
  have hmem : ∀ a ∈ (sd.manager.addAsset assetId decimals displayDecimals name).assets,
      a ∈ sd.manager.assets ∨ a = ⟨assetId, decimals, displayDecimals, name⟩ := by
    intro a ha
    rcases List.mem_append.mp ha with hold | hnew
    · exact .inl (List.mem_of_mem_filter hold)
    · exact .inr (List.mem_singleton.mp hnew)
  refine ⟨?_, ?_, ?_, h.prices, ?_⟩
  · show (List.map AssetInfo.name (sd.manager.assets.filter (fun a => a.assetId ≠ assetId) ++
      [⟨assetId, decimals, displayDecimals, name⟩])).Nodup
    rw [List.map_append, List.nodup_append]
    refine ⟨(List.filter_sublist.map _).nodup h.names, List.nodup_singleton _, ?_⟩
    rintro x hx y hy rfl
    obtain ⟨a, ha, rfl⟩ := List.mem_map.mp hx
    rw [List.map_singleton, List.mem_singleton] at hy
    have hold := h.mem_names a (List.mem_of_mem_filter ha)
    rw [hy] at hold
    exact hname hold
  · intro a ha
    rw [hnames]
    rcases hmem a ha with hold | rfl
    · exact List.mem_append_left _ (h.mem_names a hold)
    · exact List.mem_append_right _ (List.mem_singleton_self name)
  · intro a ha
    rcases hmem a ha with hold | rfl
    · exact h.amounts a hold
    · exact hle
  · rw [hids]
    exact h.symbols

lemma Built.insertSymbol (h : Built calls sd) {symbol : String}
    {id baseAssetId quoteAssetId priceDecimal priceDisplayDecimal : UInt32}
    (hid : id ∉ calls.filterMap Configure.symbolId) (hle : priceDisplayDecimal ≤ priceDecimal) :
    Built
      (calls ++
        [.insertSymbol symbol id baseAssetId quoteAssetId priceDecimal priceDisplayDecimal])
      (sd.configure
        (.insertSymbol symbol id baseAssetId quoteAssetId priceDecimal priceDisplayDecimal)) := by
  have hnames : (calls ++ [Configure.insertSymbol symbol id baseAssetId quoteAssetId priceDecimal
      priceDisplayDecimal]).filterMap Configure.assetName = calls.filterMap Configure.assetName :=
    List.filterMap_append.trans (List.append_nil _)
  have hids : (calls ++ [Configure.insertSymbol symbol id baseAssetId quoteAssetId priceDecimal
      priceDisplayDecimal]).filterMap Configure.symbolId =
      calls.filterMap Configure.symbolId ++ [id] := List.filterMap_append
  refine ⟨h.names, ?_, h.amounts, ?_, ?_⟩
  · rw [hnames]
    exact h.mem_names
  · intro id' info hinfo
    simp only [configure, SymbolManager.insertSymbol, HashMap.get?_insert] at hinfo
    split at hinfo
    · rename_i heq
      obtain rfl := Option.some.inj hinfo
      exact ⟨hle, heq.symm⟩
    · exact h.prices id' info hinfo
  · intro symbol' id' hsymbol
    rw [hids]
    simp only [configure, SymbolManager.insertSymbol, HashMap.get?_insert] at hsymbol ⊢
    split at hsymbol
    · rename_i heq
      obtain rfl := Option.some.inj hsymbol
      exact ⟨List.mem_append_right _ (List.mem_singleton_self id), by rw [if_pos rfl, heq]⟩
    · -- The id of another symbol is not the new one.
      obtain ⟨hold, hback⟩ := h.symbols symbol' id' hsymbol
      have hne : id' ≠ id := fun heq => hid (heq ▸ hold)
      rw [if_neg hne]
      exact ⟨List.mem_append_left _ hold, hback⟩

/-- What has been built of calls that fit together. -/
lemma build_built (h : WellConfigured calls) : Built calls (build calls) := by
  induction calls using List.reverseRecOn with
  | nil => exact built_new
  | append_singleton calls call ih =>
      obtain ⟨hnames, hids, hplaces⟩ := h
      rw [List.filterMap_append, List.nodup_append] at hnames hids
      have hbefore : WellConfigured calls :=
        ⟨hnames.1, hids.1, fun c hc => hplaces c (List.mem_append_left _ hc)⟩
      have hplace := hplaces call (List.mem_append_right _ List.mem_cons_self)
      have hstep : build (calls ++ [call]) = (build calls).configure call := by
        rw [build, List.foldl_append]
        rfl
      rw [hstep]
      cases call with
      | addAsset assetId decimals displayDecimals name =>
          refine (ih hbefore).addAsset ?_ hplace
          exact fun hold => hnames.2.2 name hold name (List.mem_singleton_self name) rfl
      | insertSymbol symbol id baseAssetId quoteAssetId priceDecimal priceDisplayDecimal =>
          refine (ih hbefore).insertSymbol ?_ hplace
          exact fun hold => hids.2.2 id hold id (List.mem_singleton_self id) rfl

lemma Built.getSymbolInfo (h : Built calls sd) {symbol : String} {info : SymbolInfo}
    (hinfo : sd.manager.getSymbolInfo symbol = some info) :
    sd.manager.getSymbolInfoById info.symbolId = some info ∧
      sd.getSymbol info.symbolId = some symbol ∧
      info.priceDisplayDecimal ≤ info.priceDecimal := by
  obtain ⟨id, hid, hget⟩ := Option.bind_eq_some_iff.mp hinfo
  obtain ⟨hle, rfl⟩ := h.prices id info hget
  exact ⟨hget, (h.symbols symbol _ hid).2, hle⟩

lemma Built.coherent (h : Built calls sd) : sd.manager.Coherent where
  names := h.names
  amounts := h.amounts
  prices := fun _ _ hinfo => (h.getSymbolInfo hinfo).2.2

end SymbolDirectory

/-! ## Orders as requests -/

namespace ClientOrder

variable (env : ValidationEnv) (ext : Externals) (order : ClientOrder)

def tryToInternal (sm : SymbolManager) (orderId userId : UInt64) : Except Abort ClientRequest := do
  order.validateWithSymbolManager env sm
  let raw ← order.toRawOrder env sm userId
  let checksum := calculateChecksum ext orderId raw.userId raw.symbolId.toUInt32 raw.side.asU8
    raw.price raw.quantity raw.orderType.asU8
  .ok (.placeOrder orderId raw.userId raw.symbolId.toUInt32 raw.side raw.price raw.quantity
    raw.orderType checksum)

def tryFromInternal (sd : SymbolDirectory) : ClientRequest → Except Abort ClientOrder
  | .placeOrder _ _ symbolId side price quantity orderType _ =>
      match sd.getSymbol symbolId with
      | none => .error (.error s!"Unknown symbol ID: {symbolId}")
      | some symbol =>
          match sd.manager.getSymbolInfoById symbolId with
          | none => .error (.error s!"Unknown symbol ID: {symbolId}")
          | some info => do
              match ← sd.manager.toClientPriceById symbolId price with
              | none => .error (.error "Failed to convert price")
              | some priceDecimal => do
                  match ← sd.manager.toClientAmount info.baseAssetId quantity with
                  | none => .error (.error "Failed to convert quantity")
                  | some quantityDecimal =>
                      .ok
                        { cid := none, symbol := symbol, side := side, price := priceDecimal
                          quantity := quantityDecimal, orderType := orderType }
  | .cancelOrder _ _ _ _ => .error (.error "Only PlaceOrder can be converted to ClientOrder")

end ClientOrder

/-- The request of an internal order, with its checksum. -/
def InternalOrder.clientRequest (ext : Externals) (order : InternalOrder) : ClientRequest :=
  .placeOrder order.orderId order.userId order.symbolId order.side order.price order.qty
    order.orderType
    (calculateChecksum ext order.orderId order.userId order.symbolId order.side.asU8 order.price
      order.qty order.orderType.asU8)

namespace ClientOrder

variable {env : ValidationEnv} {ext : Externals} {order : ClientOrder} {sm : SymbolManager}
  {orderId userId : UInt64}

/-- The two conversions take the same course. -/
lemma tryToInternal_eq :
    order.tryToInternal env ext sm orderId userId =
      (order.toUbsInternal env sm orderId userId).map (InternalOrder.clientRequest ext) := by
  rw [tryToInternal, toUbsInternal]
  simp only [bind, Except.bind]
  rcases order.validateWithSymbolManager env sm with e | _
  · rfl
  · dsimp only
    rcases order.toRawOrder env sm userId with e | raw
    · rfl
    · rfl

lemma orderType_of_toUbsInternal {internal : InternalOrder}
    (h : order.toUbsInternal env sm orderId userId = .ok internal) :
    internal.orderType = order.orderType := by
  obtain ⟨_, _, h⟩ := Except.exists_of_bind_eq_ok h
  obtain ⟨raw, hraw, h⟩ := Except.exists_of_bind_eq_ok h
  obtain rfl := Except.ok.inj h
  obtain ⟨_, _, hraw⟩ := Except.exists_of_bind_eq_ok hraw
  split at hraw
  · exact absurd hraw (by simp)
  · obtain ⟨_, _, hraw⟩ := Except.exists_of_bind_eq_ok hraw
    split at hraw
    · exact absurd hraw (by simp)
    · obtain ⟨⟨_, _⟩, _, hraw⟩ := Except.exists_of_bind_eq_ok hraw
      obtain rfl := Except.ok.inj hraw
      rfl

lemma tryToInternal_eq_ok {request : ClientRequest} :
    order.tryToInternal env ext sm orderId userId = .ok request ↔
      ∃ internal, order.toUbsInternal env sm orderId userId = .ok internal ∧
        internal.clientRequest ext = request := by
  rw [tryToInternal_eq]
  rcases order.toUbsInternal env sm orderId userId with e | internal
  · simp [Except.map]
  · simp [Except.map]

/-- **The way back**: what has been accepted is found by its id, and is numerically what it was. -/
lemma exists_tryFromInternal {calls : List Configure} {sd : SymbolDirectory}
    (hbuilt : sd.Built calls) {internal : InternalOrder}
    (h : order.toUbsInternal env sd.manager orderId userId = .ok internal) :
    ∃ back, tryFromInternal sd (internal.clientRequest ext) = .ok back ∧
      back.symbol = order.symbol ∧ back.side = order.side ∧ back.orderType = order.orderType ∧
      back.price.value = order.price.value ∧ back.quantity.value = order.quantity.value := by
  have htype := orderType_of_toUbsInternal h
  obtain ⟨-, -, -, hside, info, base, id, hinfo, hsymbolId, hbase, hprice, hquantity⟩ :=
    toUbsInternal_eq_ok h
  obtain ⟨hbyId, hsymbol, -⟩ := hbuilt.getSymbolInfo hinfo
  have hpriceExact := hbuilt.coherent.toInternalPrice_exact hinfo hprice
  obtain ⟨rfl, hquantityExact⟩ := hbuilt.coherent.toInternalAmount_exact hbase hquantity
  -- The power of ten of the price is one of 64 bits, since the price has been converted.
  rw [SymbolManager.toInternalPrice, hinfo] at hprice
  obtain ⟨-, divisor, hdivisor⟩ := places_of_toInternal hprice
  obtain ⟨price, hbackPrice, hpriceValue⟩ := exists_toClient hdivisor internal.price
  obtain ⟨quantity, hbackQuantity, hquantityValue⟩ :=
    SymbolManager.exists_toClientAmount hquantity hbase
  refine ⟨⟨none, order.symbol, internal.side, price, quantity, internal.orderType⟩, ?_, rfl,
    hside, htype, ?_, ?_⟩
  · simp only [InternalOrder.clientRequest, tryFromInternal, hsymbolId, hsymbol, hbyId,
      SymbolManager.toClientPriceById, hbackPrice, hbackQuantity, bind, Except.bind]
  · rw [hpriceValue, hpriceExact, mul_div_cancel_right₀ _ (by positivity)]
  · rw [hquantityValue, hquantityExact, mul_div_cancel_right₀ _ (by positivity)]

/-- **Orders and requests.**  With symbols that are configured without clashes, the two conversions
accept the same orders.  The request of an accepted one has its side, its type, the price and
quantity of the internal order, and the checksum of its own fields; and it converts back to the same
symbol, side and type, and to numerically the same price and quantity. -/
theorem request_roundTrip (env : ValidationEnv) (ext : Externals) (calls : List Configure)
    (h : WellConfigured calls) (order : ClientOrder) (orderId userId : UInt64) :
    let sd := SymbolDirectory.build calls
    ((∃ request, order.tryToInternal env ext sd.manager orderId userId = .ok request) ↔
        ∃ internal, order.toUbsInternal env sd.manager orderId userId = .ok internal) ∧
      ∀ request, order.tryToInternal env ext sd.manager orderId userId = .ok request →
        (∃ internal checksum, order.toUbsInternal env sd.manager orderId userId = .ok internal ∧
            request = .placeOrder orderId userId internal.symbolId order.side internal.price
              internal.qty order.orderType checksum ∧
            checksum = calculateChecksum ext orderId userId internal.symbolId order.side.asU8
              internal.price internal.qty order.orderType.asU8) ∧
          ∃ back, tryFromInternal sd request = .ok back ∧
            back.symbol = order.symbol ∧ back.side = order.side ∧
            back.orderType = order.orderType ∧ back.price.value = order.price.value ∧
            back.quantity.value = order.quantity.value := by
  intro sd
  constructor
  · constructor
    · rintro ⟨request, hrequest⟩
      obtain ⟨internal, hinternal, -⟩ := tryToInternal_eq_ok.mp hrequest
      exact ⟨internal, hinternal⟩
    · rintro ⟨internal, hinternal⟩
      exact ⟨_, tryToInternal_eq_ok.mpr ⟨internal, hinternal, rfl⟩⟩
  · intro request hrequest
    obtain ⟨internal, hinternal, rfl⟩ := tryToInternal_eq_ok.mp hrequest
    refine ⟨?_, exists_tryFromInternal (SymbolDirectory.build_built h) hinternal⟩
    obtain ⟨-, horder, huser, hside, -⟩ := toUbsInternal_eq_ok hinternal
    have htype := orderType_of_toUbsInternal hinternal
    refine ⟨internal, _, hinternal, ?_, rfl⟩
    rw [InternalOrder.clientRequest, horder, huser, hside, htype]

end ClientOrder

/-- The calls of `load_from_db`. -/
def dbCalls : List Configure :=
  [.addAsset 1 8 3 "BTC", .addAsset 2 8 2 "USDT", .addAsset 3 8 4 "ETH",
    .insertSymbol "BTC_USDT" 0 1 2 2 2, .insertSymbol "ETH_USDT" 1 3 2 2 2]

example : (SymbolDirectory.build dbCalls).manager = SymbolManager.loadFromDb := rfl

lemma wellConfigured_dbCalls : WellConfigured dbCalls where
  names := by decide
  ids := by decide
  places := by decide

namespace ClientOrder

theorem request_roundTrip_btcBid :
    let ext : Externals := ⟨fun _ => 0, fun _ _ => 0, fun _ => 0, fun _ => []⟩
    let bid : ClientOrder := ⟨none, "BTC_USDT", .buy, .new 5000025 2, .new 15 1, .limit⟩
    ∃ request back, bid.tryToInternal .ascii ext (SymbolDirectory.build dbCalls).manager 7 9 =
        .ok request ∧
      tryFromInternal (SymbolDirectory.build dbCalls) request = .ok back ∧
      back.price.value = bid.price.value ∧ back.quantity.value = bid.quantity.value := by
  intro ext bid
  obtain ⟨haccepted, hrequests⟩ :=
    request_roundTrip .ascii ext dbCalls wellConfigured_dbCalls bid 7 9
  have hinternal : bid.toUbsInternal .ascii (SymbolDirectory.build dbCalls).manager 7 9 =
      .ok ⟨7, 9, 0, .buy, 5000025, 150000000, .limit⟩ := by decide +kernel
  obtain ⟨request, hrequest⟩ := haccepted.mpr ⟨_, hinternal⟩
  obtain ⟨-, back, hback, -, -, -, hprice, hquantity⟩ := hrequests request hrequest
  exact ⟨request, back, hrequest, hback, hprice, hquantity⟩

end ClientOrder

end ExchangeCore
