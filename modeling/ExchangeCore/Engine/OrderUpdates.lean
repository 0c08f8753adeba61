import ExchangeCore.Engine.Lifecycle
import ExchangeCore.Engine.Overflow

/-!
# Order updates

The order update of an output is computed from two running sums after the book has changed.
`orderUpdate_consistent` compares it with the trades of the same output and with the book the call
leaves: what is filled, what is left and rests, which of the three states the order is in, and its
average price, the floor of the average weighted by volume.

The sums are words.  What is filled never exceeds the quantity, so it needs no assumption; the value
has to fit.
-/

namespace ExchangeCore

open OrderBook Reference MatchingEngine

/-! ## Weighted averages -/

section Average

variable {α : Type} {price quantity : α → ℕ} {xs : List α}

/-- The total value of a list, weighted by quantity. -/
def totalValue (price quantity : α → ℕ) (xs : List α) : ℕ :=
  (xs.map (fun x => price x * quantity x)).sum

/-- The average price, rounded down. -/
def averagePrice (price quantity : α → ℕ) (xs : List α) : ℕ :=
  totalValue price quantity xs / (xs.map quantity).sum

lemma le_averagePrice {low : ℕ} (hpos : 0 < (xs.map quantity).sum)
    (hlow : ∀ x ∈ xs, low ≤ price x) : low ≤ averagePrice price quantity xs := by
  rw [averagePrice, Nat.le_div_iff_mul_le hpos, totalValue, ← List.sum_map_mul_left]
  exact List.sum_le_sum (fun x hx => Nat.mul_le_mul_right _ (hlow x hx))

lemma averagePrice_le {high : ℕ} (hhigh : ∀ x ∈ xs, price x ≤ high) :
    averagePrice price quantity xs ≤ high := by
  apply Nat.div_le_of_le_mul
  rw [totalValue, Nat.mul_comm, ← List.sum_map_mul_left]
  exact List.sum_le_sum (fun x hx => Nat.mul_le_mul_right _ (hhigh x hx))

lemma exists_le_averagePrice (hpos : 0 < (xs.map quantity).sum) :
    ∃ x ∈ xs, price x ≤ averagePrice price quantity xs := by
  by_contra h
  have habove : ∀ x ∈ xs, averagePrice price quantity xs + 1 ≤ price x :=
    fun x hx => not_le.mp (fun hle => h ⟨x, hx, hle⟩)
  exact absurd (le_averagePrice hpos habove) (by omega)

lemma exists_averagePrice_le (hpos : 0 < (xs.map quantity).sum) :
    ∃ x ∈ xs, averagePrice price quantity xs ≤ price x := by
  by_contra h
  have hbelow : ∀ x ∈ xs, price x < averagePrice price quantity xs :=
    fun x hx => not_le.mp (fun hle => h ⟨x, hx, hle⟩)
  have hle : averagePrice price quantity xs ≤ averagePrice price quantity xs - 1 :=
    averagePrice_le (fun x hx => Nat.le_sub_one_of_lt (hbelow x hx))
  obtain ⟨x, hx, -⟩ := @exists_le_averagePrice _ price _ _ hpos
  have := hbelow x hx
  omega

end Average

/-! ## The order update of an output -/

/-- The update agrees with the trades reported and with the book left behind. -/
structure Consistent (req : OrderRequest) (trades : List TradeOutput) (book' : OrderBook)
    (update : EOOrderUpdate) : Prop where
  filled : update.filledQty.toNat = (trades.map (fun t => t.quantity.toNat)).sum
  /-- Nothing is lost, and the subtraction does not underflow. -/
  remaining : update.filledQty.toNat + update.remainingQty.toNat = req.quantity.toNat
  /-- The order rests with what remains, if anything does. -/
  rests : ∀ o ∈ book'.restingOrders, o.orderId = req.orderId → o.quantity = update.remainingQty
  rests_iff : book'.Rests req.orderId ↔ update.remainingQty ≠ 0
  status_new : update.status = 1 ↔ update.filledQty = 0
  status_partial : update.status = 2 ↔ update.filledQty ≠ 0 ∧ update.remainingQty ≠ 0
  status_filled : update.status = 3 ↔ update.filledQty ≠ 0 ∧ update.remainingQty = 0
  noTrades : trades = [] ↔ update.filledQty = 0
  /-- The average price, where there is one. -/
  average : trades ≠ [] → update.avgPrice.toNat =
    averagePrice (fun t => t.price.toNat) (fun t => t.quantity.toNat) trades
  atLeastLowest : trades ≠ [] → ∃ t ∈ trades, t.price ≤ update.avgPrice
  atMostHighest : trades ≠ [] → ∃ t ∈ trades, update.avgPrice ≤ t.price
  withinLimit : trades ≠ [] → Crosses req.side req.price update.avgPrice

section Update

variable {me : MatchingEngine} {req : OrderRequest} {assets : UInt32 × UInt32} {b b' : OrderBook}

/-- The order update after the trade loop, from its sums. -/
def updateOf (req : OrderRequest) (totalFilled totalCost : UInt64) : EOOrderUpdate where
  orderId := req.orderId
  userId := req.userId
  status := finalStatus totalFilled (req.quantity - totalFilled)
  filledQty := totalFilled
  remainingQty := req.quantity - totalFilled
  avgPrice := if totalFilled > 0 then totalCost / totalFilled else 0
  updatedAt := req.timestamp

lemma finishOrder_orderUpdate (req : OrderRequest) (loop : OutputLoop) :
    (finishOrder req loop).orderUpdate = some (updateOf req loop.totalFilled loop.totalCost) := by
  unfold finishOrder
  by_cases hstatus : finalStatus loop.totalFilled (req.quantity - loop.totalFilled) = 3
  · simp only [if_pos hstatus]
    rfl
  · simp only [if_neg hstatus]
    rfl

lemma totalCost_foldl_outputTrade (ledger : NullLedger) (req : OrderRequest)
    (assets : UInt32 × UInt32) (seq : UInt64) (trades : List Trade) (st : OutputLoop) :
    (trades.foldl (outputTrade ledger req assets seq) st).totalCost =
      st.totalCost + UInt64.ofNat (valueOf trades) := by
  induction trades generalizing st with
  | nil => simp [valueOf]
  | cons t trades ih =>
      have hcons : valueOf (t :: trades) = t.price.toNat * t.quantity.toNat + valueOf trades := rfl
      rw [List.foldl_cons, ih, hcons, UInt64.ofNat_add, UInt64.ofNat_mul, UInt64.ofNat_toNat,
        UInt64.ofNat_toNat, ← UInt64.add_assoc]
      rfl

lemma outputOf_orderUpdate (env : Externals) (me : MatchingEngine) (inputSeq : UInt64)
    (req : OrderRequest) (clientOrderId : String) (assets : UInt32 × UInt32) (book : OrderBook) :
    (me.outputOf env inputSeq req clientOrderId assets book).orderUpdate =
      some (updateOf req (UInt64.ofNat (unitsOf (me.tradesOf book req)))
        (UInt64.ofNat (valueOf (me.tradesOf book req)))) := by
  obtain ⟨hfilled, -⟩ := lifecycle_foldl_outputTrade me.parts.ledger req assets
    (me.parts.outputSeq + 1) (me.tradesOf book req)
    ⟨0, 0, [], HashMap.empty, acceptedBuilder env inputSeq req clientOrderId assets me.parts⟩
  have hcost := totalCost_foldl_outputTrade me.parts.ledger req assets
    (me.parts.outputSeq + 1) (me.tradesOf book req)
    ⟨0, 0, [], HashMap.empty, acceptedBuilder env inputSeq req clientOrderId assets me.parts⟩
  refine (finishOrder_orderUpdate req _).trans ?_
  rw [hfilled, hcost, UInt64.zero_add, UInt64.zero_add]
  rfl

lemma unitsOf_tradesOf (me : MatchingEngine) (b : OrderBook) (req : OrderRequest) :
    unitsOf (me.tradesOf b req) + (b.walkOf req.order).residual.toNat = req.quantity.toNat := by
  rw [unitsOf, tradesOf, sum_trades req.order req.timestamp _ (fun f => f.2.toNat) _
    (fun f _ t _ hq _ _ => by rw [hq])]
  exact filled_add_residual _ _ _ _

lemma trade_pos_crosses (hb : b.Inv) {t : Trade} (ht : t ∈ me.tradesOf b req) :
    0 < t.quantity ∧ Crosses req.side req.price t.price := by
  obtain ⟨f, hf, hprice, hquantity, -⟩ := mem_trades ht
  obtain ⟨-, hcross, -⟩ := mem_fills hf
  have hpos : ∀ m ∈ b.flatSide req.order.side.opposite, 0 < m.quantity := by
    intro m hm
    obtain ⟨e, he, hme⟩ := mem_flat.mp hm
    exact ((hb.sideOk _ e he).placed m hme).2.2
  rw [hprice, hquantity]
  exact ⟨fills_pos hpos f hf, hcross⟩

lemma unitsOf_eq_zero_iff {trades : List Trade} (hpos : ∀ t ∈ trades, 0 < t.quantity) :
    unitsOf trades = 0 ↔ trades = [] := by
  constructor
  · intro h
    rcases trades with _ | ⟨t, trades⟩
    · rfl
    · have hfirst := UInt64.lt_iff_toNat_lt.mp (hpos t List.mem_cons_self)
      rw [unitsOf, List.map_cons, List.sum_cons] at h
      rw [UInt64.toNat_zero] at hfirst
      omega
  · rintro rfl
    rfl

lemma quantity_of_rests (hb : b.Inv) (hid : req.orderId ∉ b.activeOrderIds)
    (hadded : Added b req.order (b.walkOf req.order) b') {o : Order} (ho : o ∈ b'.restingOrders)
    (horder : o.orderId = req.orderId) : o.quantity = (b.walkOf req.order).residual := by
  have hrests : b'.Rests req.order.orderId := ⟨o, ho, horder⟩
  have hpos := (hb.taker_rests_iff hadded hid).mp hrests
  have hmem : { req.order with quantity := (b.walkOf req.order).residual } ∈ b'.restingOrders := by
    rw [hadded.restingOrders.mem_iff, residualOrder, if_pos hpos]
    simp
  exact congrArg Order.quantity ((hb.added hadded hid).eq_of_orderId ho hmem horder)

lemma sum_outputOf_trades {M : Type*} [AddMonoid M] (env : Externals) (inputSeq : UInt64)
    (clientOrderId : String) (f : UInt64 → UInt64 → M) :
    ((me.outputOf env inputSeq req clientOrderId assets b).trades.map
      (fun t => f t.price t.quantity)).sum =
        ((me.tradesOf b req).map (fun t => f t.price t.quantity)).sum := by
  rw [outputOf, acceptedOutput_trades, List.map_map]
  rfl

lemma consistent_of_added (hb : b.Inv) (hid : req.orderId ∉ b.activeOrderIds)
    (hadded : Added b req.order (b.walkOf req.order) b') (env : Externals) (inputSeq : UInt64)
    (clientOrderId : String) (hquantity : 0 < req.quantity)
    (hvalue : valueOf (me.tradesOf b req) < 2 ^ 64) :
    Consistent req (me.outputOf env inputSeq req clientOrderId assets b).trades b'
      (updateOf req (UInt64.ofNat (unitsOf (me.tradesOf b req)))
        (UInt64.ofNat (valueOf (me.tradesOf b req)))) := by
  have hsum := unitsOf_tradesOf me b req
  have hlt := req.quantity.toNat_lt
  have hpos := UInt64.lt_iff_toNat_lt.mp hquantity
  set units := unitsOf (me.tradesOf b req) with hunits
  set residual := (b.walkOf req.order).residual with hresidual
  have hfilled : (UInt64.ofNat units).toNat = units := Word.toNat_ofNat_of_lt (by omega)
  have hremaining : req.quantity - UInt64.ofNat units = residual := by
    rw [← UInt64.toNat_inj, UInt64.toNat_sub_of_le _ _ (UInt64.le_iff_toNat_le.mpr (by omega)),
      hfilled]
    omega
  have hzero : UInt64.ofNat units = 0 ↔ units = 0 := by
    rw [← UInt64.toNat_inj, hfilled]
    rfl
  have hresidualZero : residual = 0 ↔ residual.toNat = 0 := by
    rw [← UInt64.toNat_inj]
    rfl
  have htrade := fun t ht => @trade_pos_crosses me req b hb t ht
  have hnone : units = 0 ↔ me.tradesOf b req = [] :=
    unitsOf_eq_zero_iff (fun t ht => (htrade t ht).1)
  have hreported : (me.outputOf env inputSeq req clientOrderId assets b).trades =
      (me.tradesOf b req).map (fun t => tradeOutput req.symbolId assets (buyerRefund req t) t) :=
    acceptedOutput_trades ..
  have hempty : (me.outputOf env inputSeq req clientOrderId assets b).trades = [] ↔ units = 0 := by
    rw [hreported, List.map_eq_nil_iff, hnone]
  -- the average of the trades reported is that of the trades
  have hsumUnits := @sum_outputOf_trades me req assets b ℕ _ env inputSeq clientOrderId
    (fun _ quantity => quantity.toNat)
  have hsumValue := @sum_outputOf_trades me req assets b ℕ _ env inputSeq clientOrderId
    (fun price quantity => price.toNat * quantity.toNat)
  have haverage : (me.outputOf env inputSeq req clientOrderId assets b).trades ≠ [] →
      (updateOf req (UInt64.ofNat units)
        (UInt64.ofNat (valueOf (me.tradesOf b req)))).avgPrice.toNat
        = averagePrice (fun t => t.price.toNat) (fun t => t.quantity.toNat)
          (me.outputOf env inputSeq req clientOrderId assets b).trades := by
    intro hne
    have hsome : UInt64.ofNat units > 0 := by
      rw [gt_iff_lt, Word.pos_iff, hfilled]
      exact Nat.pos_of_ne_zero (fun h => hne (hempty.mpr h))
    rw [averagePrice, totalValue, hsumUnits, hsumValue, updateOf]
    simp only [if_pos hsome, UInt64.toNat_div, hfilled, Word.toNat_ofNat_of_lt hvalue]
    rfl
  have hweight : (me.outputOf env inputSeq req clientOrderId assets b).trades ≠ [] →
      0 < ((me.outputOf env inputSeq req clientOrderId assets b).trades.map
        (fun t => t.quantity.toNat)).sum := by
    intro hne
    rw [hsumUnits]
    exact Nat.pos_of_ne_zero (fun h => hne (hempty.mpr h))
  have hstatus : (updateOf req (UInt64.ofNat units)
      (UInt64.ofNat (valueOf (me.tradesOf b req)))).status =
        if units = 0 then 1 else if residual = 0 then 3 else 2 := by
    rw [updateOf, hremaining, finalStatus]
    exact if_congr hzero rfl rfl
  refine ⟨hfilled.trans hsumUnits.symm, ?_, fun o ho horder => ?_, ?_, ?_, ?_, ?_, ?_, haverage,
    fun hne => ?_, fun hne => ?_, fun hne => ?_⟩
  · rw [updateOf, hremaining, hfilled]
    exact hsum
  · rw [updateOf, hremaining]
    exact quantity_of_rests hb hid hadded ho horder
  · rw [updateOf, hremaining, show req.orderId = req.order.orderId from rfl,
      hb.taker_rests_iff hadded hid, Word.pos_iff, ← hresidual, ne_eq, hresidualZero]
    omega
  · rw [hstatus, show (updateOf req (UInt64.ofNat units) _).filledQty = UInt64.ofNat units from rfl,
      hzero]
    split_ifs <;> simp_all
  · rw [hstatus, updateOf, hremaining, ne_eq, hzero]
    split_ifs <;> simp_all
  · rw [hstatus, updateOf, hremaining, ne_eq, hzero]
    split_ifs <;> simp_all
  · rw [hempty, updateOf, hzero]
  · obtain ⟨t, ht, hle⟩ := @exists_le_averagePrice _ (fun t => t.price.toNat) _ _ (hweight hne)
    exact ⟨t, ht, UInt64.le_iff_toNat_le.mpr (hle.trans_eq (haverage hne).symm)⟩
  · obtain ⟨t, ht, hle⟩ := @exists_averagePrice_le _ (fun t => t.price.toNat) _ _ (hweight hne)
    exact ⟨t, ht, UInt64.le_iff_toNat_le.mpr ((haverage hne).trans_le hle)⟩
  · have hcross : ∀ t ∈ (me.outputOf env inputSeq req clientOrderId assets b).trades,
        Crosses req.side req.price t.price := by
      rw [hreported, List.forall_mem_map]
      exact fun t ht => (htrade t ht).2
    cases hside : req.side with
    | buy =>
        rw [hside] at hcross
        refine UInt64.le_iff_toNat_le.mpr ((haverage hne).trans_le (averagePrice_le ?_))
        exact fun t ht => UInt64.le_iff_toNat_le.mp (hcross t ht)
    | sell =>
        rw [hside] at hcross
        refine UInt64.le_iff_toNat_le.mpr (le_trans ?_ (haverage hne).ge)
        exact le_averagePrice (hweight hne) (fun t ht => UInt64.le_iff_toNat_le.mp (hcross t ht))

end Update

/-- **The order update is consistent.**  For every order with a quantity that a reachable engine
accepts, the update of the returned output agrees with the output's trades and with the book
afterwards, if the value of the order (of a sell, of its trades) fits a word. -/
theorem orderUpdate_consistent (env : Externals) (enableLocalWal : Bool) (me : MatchingEngine)
    (hreach : (machine env).Reachable (new enableLocalWal) me) (io : WalIo) (inputSeq : UInt64)
    (req : OrderRequest) (clientOrderId : String) (id : UInt64) (output : EngineOutput)
    (hok : (me.addOrderAndBuildOutput env io inputSeq req clientOrderId).1 = .ok (id, output))
    (hquantity : 0 < req.quantity)
    (hbuy : req.side = .buy → req.price.toNat * req.quantity.toNat < 2 ^ 64)
    (hsell : req.side = .sell →
      totalValue (fun t => t.price.toNat) (fun t => t.quantity.toNat) output.trades < 2 ^ 64) :
    ∃ update book', output.orderUpdate = some update ∧
      bookAt (me.addOrderAndBuildOutput env io inputSeq req clientOrderId).2.orderBooks
        req.symbolId = some book' ∧
        Consistent req output.trades book' update := by
  have h : EngineInv me := hreach.invariant (EngineInv.step env) (EngineInv.new enableLocalWal)
  have hp := placement_addOrderAndBuildOutput h env io inputSeq req clientOrderId
  rw [hok] at hp
  generalize (me.addOrderAndBuildOutput env io inputSeq req clientOrderId).2 = me' at hp
  cases hp with
  | accepted assets book book' gen wal _ _ hassets hbook hid hadded hret hlost _ =>
      have hflush : me.orderWal = none ∨ io.flush = .ok () := by
        by_contra hnot
        obtain ⟨e, he⟩ := hlost hnot
        cases he
      obtain rfl : output = me.outputOf env inputSeq req clientOrderId assets book :=
        (Prod.mk.inj (Except.ok.inj (hret hflush))).2
      have hvalue : valueOf (me.tradesOf book req) < 2 ^ 64 := by
        cases hside : req.side with
        | buy =>
            have hworth : req.order.worth req.quantity.toNat =
                req.price.toNat * req.quantity.toNat := by
              simp [Order.worth, OrderRequest.order, hside]
            refine lt_of_le_of_lt ((valueOf_tradesOf h hassets hbook).1 hside) ?_
            rw [hworth]
            exact hbuy hside
        | sell =>
            have hfits := hsell hside
            rwa [totalValue, @sum_outputOf_trades me req assets book ℕ _ env inputSeq clientOrderId
              (fun price quantity => price.toNat * quantity.toNat)] at hfits
      refine ⟨_, book', outputOf_orderUpdate env me inputSeq req clientOrderId assets book, ?_,
        consistent_of_added (h.books _ _ hbook) hid hadded env inputSeq clientOrderId hquantity
          hvalue⟩
      exact (bookAt_setBook hbook book' req.symbolId).trans (if_pos rfl)

/-- A buy of 5 at 110 against a resting sell of 2 at 100: partially filled, 3 rest. -/
theorem orderUpdate_consistent_partial :
    let env : Externals := ⟨fun _ => 0, fun _ _ => 0, fun _ => 0, fun _ => []⟩
    let r :=
      (oneResting env).addOrderAndBuildOutput env .healthy 2 (limitRequest 2 8 .buy 110 5) "b"
    ∃ output update book', r.1 = .ok (2, output) ∧ output.orderUpdate = some update ∧
      update.status = 2 ∧ update.avgPrice = 100 ∧ update.remainingQty = 3 ∧
        bookAt r.2.orderBooks 1 = some book' ∧
          Consistent (limitRequest 2 8 .buy 110 5) output.trades book' update := by
  intro env r
  have haccepted : r.1.toOption.map Prod.fst = some 2 := by decide +kernel
  obtain ⟨output, hok⟩ : ∃ output, r.1 = .ok (2, output) := by
    rcases hr : r.1 with e | ⟨id, output⟩
    · rw [hr] at haccepted
      exact absurd haccepted (by simp [Except.toOption])
    · rw [hr] at haccepted
      obtain rfl : id = 2 := Option.some.inj haccepted
      exact ⟨output, rfl⟩
  have hreach : (machine env).Reachable (new false) (oneResting env) := ⟨_, rfl⟩
  obtain ⟨update, book', hupdate, hbook, hconsistent⟩ :=
    orderUpdate_consistent env false (oneResting env) hreach .healthy 2
      (limitRequest 2 8 .buy 110 5) "b" 2 output hok (by decide) (fun _ => by decide)
      (fun hside => nomatch hside)
  -- the update, read off the only book
  obtain ⟨assets, before, -, hbefore, rfl⟩ :=
    exists_outputOf (hreach.invariant (EngineInv.step env) (EngineInv.new false)) hok
  obtain rfl : ((OrderBook.new 1).addOrder (limitRequest 1 7 .sell 100 2).order .new 0).2.1 =
    before := Option.some.inj hbefore
  have hvalues := hupdate.symm.trans (outputOf_orderUpdate ..)
  have hsymbol : (limitRequest 2 8 .buy 110 5).symbolId = 1 := rfl
  rw [hsymbol] at hbook
  subst r
  refine ⟨_, update, book', hok, hupdate, ?_, ?_, ?_, hbook, hconsistent⟩
  · rw [Option.some.inj hvalues]
    decide +kernel
  · rw [Option.some.inj hvalues]
    decide +kernel
  · rw [Option.some.inj hvalues]
    decide +kernel

end ExchangeCore
