import ExchangeCore.Engine.Processing
import ExchangeCore.Framework.Posting
import Mathlib.Algebra.Order.BigOperators.Group.Finset
import Mathlib.Algebra.Order.BigOperators.Group.List

/-!
# What resting orders hold

A resting order holds back funds of its user: a buy its price times what is left of it, in the
quote asset, a sell what is left of it, in the base asset.  `obligation me u a` is the total of
user `u` in asset `a` over all books of the engine, in natural numbers.

The engine-level balance equations are proved here once, for every use of them:

* an accepted order adds what it locks, and every trade takes out what it releases on the two
  sides (`obligation_accepted`);
* a cancelled order takes out exactly what it still held (`obligation_cancelled`).

They rest on two facts about a single fill: the buyer of a trade is released by its own limit
price, the maker's price plus the refund (`trade_amounts`), and weights that are additive in the
quantity are conserved by a walk (`Reference.sum_weight`).
-/

namespace ExchangeCore

open OrderBook Reference

/-! ## What an order holds -/

/-- What `n` units of an order hold: their limit value for a buy, the units for a sell. -/
def Order.worth (o : Order) (n : ℕ) : ℕ :=
  match o.side with
  | .buy => o.price.toNat * n
  | .sell => n

/-- The asset an order of this side holds. -/
def heldAsset (assets : UInt32 × UInt32) : Side → UInt32
  | .buy => assets.2
  | .sell => assets.1

/-- What `n` units of an order hold, as a posting. -/
def held (assets : UInt32 × UInt32) (u : UInt64) (a : UInt32) (o : Order) (n : ℕ) : ℕ :=
  posting o.userId (heldAsset assets o.side) (o.worth n) u a

lemma Order.worth_add (o : Order) (m n : ℕ) : o.worth (m + n) = o.worth m + o.worth n := by
  unfold worth
  split
  · exact Nat.mul_add _ _ _
  · rfl

lemma Order.worth_mono (o : Order) {m n : ℕ} (h : m ≤ n) : o.worth m ≤ o.worth n := by
  unfold worth
  split
  · exact Nat.mul_le_mul_left _ h
  · exact h

lemma held_add (assets : UInt32 × UInt32) (u : UInt64) (a : UInt32) (o : Order) (m n : ℕ) :
    held assets u a o (m + n) = held assets u a o m + held assets u a o n := by
  rw [held, Order.worth_add, posting_add]
  rfl

lemma lockTarget_fst (side : Side) (assets : UInt32 × UInt32) (price quantity : UInt64) :
    (lockTarget side assets price quantity).1 = heldAsset assets side := by
  cases side <;> rfl

/-- The locked amount is what the order holds, as long as it fits a word. -/
lemma lockTarget_snd (o : Order) (assets : UInt32 × UInt32)
    (h : o.worth o.quantity.toNat < 2 ^ 64) :
    (lockTarget o.side assets o.price o.quantity).2.toNat = o.worth o.quantity.toNat := by
  unfold Order.worth at h ⊢
  cases hside : o.side with
  | buy =>
      rw [hside] at h
      exact Word.toNat_mul_of_lt h
  | sell => rfl

/-! ## What a trade releases -/

/-- What a trade takes out of frozen funds: cost and refund from the buyer, the quantity from
the seller. -/
def released (t : TradeOutput) (u : UInt64) (a : UInt32) : ℕ :=
  posting t.buyerUserId t.quoteAssetId (t.price.toNat * t.quantity.toNat + t.buyerRefund.toNat)
    u a + posting t.sellerUserId t.baseAssetId t.quantity.toNat u a

section Fill

variable {req : OrderRequest} {m : Order} {q : UInt64} {t : Trade}

/-- **The amounts of one trade.**  The buyer is released by the worth of its own order, cost
and refund together, and the seller by the worth of its own. -/
lemma trade_amounts (hside : m.side = req.side.opposite)
    (hcross : Crosses req.side req.price m.price) (hfits : req.order.worth q.toNat < 2 ^ 64)
    (hprice : t.price = m.price) (hquantity : t.quantity = q)
    (hbuyer : t.buyUserId = (buyer req.order m).userId) :
    t.price.toNat * t.quantity.toNat + (buyerRefund req t).toNat =
        (buyer req.order m).worth q.toNat ∧
      t.quantity.toNat = (seller req.order m).worth q.toNat := by
  subst hquantity
  cases hs : req.side with
  | buy =>
      -- the taker buys: the maker's price is at or below its limit, the difference comes back
      have hb : buyer req.order m = req.order := buyer_of_buy hs m
      have hsell : seller req.order m = m := seller_of_buy hs m
      rw [hs] at hside hcross
      have hle : m.price.toNat ≤ req.price.toNat := UInt64.le_iff_toNat_le.mp hcross
      have hfits' : req.price.toNat * t.quantity.toNat < 2 ^ 64 := by
        simpa only [Order.worth, OrderRequest.order, hs] using hfits
      have hrefund : (buyerRefund req t).toNat =
          (req.price.toNat - m.price.toNat) * t.quantity.toNat := by
        rw [hb] at hbuyer
        unfold buyerRefund
        rw [if_pos ⟨hs, hbuyer⟩, hprice]
        split
        · rename_i hgt
          rw [← UInt64.toNat_sub_of_le _ _ hcross]
          refine Word.toNat_mul_of_lt ?_
          rw [UInt64.toNat_sub_of_le _ _ hcross]
          exact lt_of_le_of_lt (Nat.mul_le_mul_right _ (Nat.sub_le _ _)) hfits'
        · rename_i hgt
          have heq : req.price.toNat - m.price.toNat = 0 := by
            have := UInt64.le_iff_toNat_le.mp (not_lt.mp hgt)
            omega
          rw [heq, Nat.zero_mul]
          rfl
      rw [hb, hsell, hrefund, hprice, ← Nat.add_mul, Nat.add_sub_cancel' hle]
      simp only [Order.worth, OrderRequest.order, hs, hside, Side.opposite, and_self]
  | sell =>
      -- the taker sells: the buyer is the maker, filled at its own price
      have hb : buyer req.order m = m := buyer_of_sell hs m
      have hsell : seller req.order m = req.order := seller_of_sell hs m
      have hrefund : buyerRefund req t = 0 := by
        unfold buyerRefund
        rw [if_neg]
        rw [hs]
        rintro ⟨h, -⟩
        exact absurd h (by decide)
      rw [hs] at hside
      rw [hb, hsell, hrefund, hprice]
      simp only [Order.worth, OrderRequest.order, hs, hside, Side.opposite, UInt64.toNat_zero,
        Nat.add_zero, and_self]

lemma released_fill (assets : UInt32 × UInt32) (u : UInt64) (a : UInt32)
    (hside : m.side = req.side.opposite) (hcross : Crosses req.side req.price m.price)
    (hfits : req.order.worth q.toNat < 2 ^ 64) (hprice : t.price = m.price)
    (hquantity : t.quantity = q) (hbuyer : t.buyUserId = (buyer req.order m).userId)
    (hseller : t.sellUserId = (seller req.order m).userId) :
    released (tradeOutput req.symbolId assets (buyerRefund req t) t) u a =
      held assets u a req.order q.toNat + held assets u a m q.toNat := by
  obtain ⟨hcost, hqty⟩ := trade_amounts hside hcross hfits hprice hquantity hbuyer
  simp only [released, tradeOutput]
  rw [hcost, hqty, hbuyer, hseller]
  cases hs : req.side with
  | buy =>
      have hs' : req.order.side = .buy := hs
      rw [buyer_of_buy hs', seller_of_buy hs', held, held, hside, hs', hs]
      rfl
  | sell =>
      have hs' : req.order.side = .sell := hs
      rw [buyer_of_sell hs', seller_of_sell hs', held, held, hside, hs', hs, Nat.add_comm]
      rfl

end Fill

/-! ## One book -/

/-- What the resting orders of a book hold. -/
def bookHeld (assets : UInt32 × UInt32) (u : UInt64) (a : UInt32) (b : OrderBook) : ℕ :=
  (b.restingOrders.map (fun o => held assets u a o o.quantity.toNat)).sum

section Book

variable {b b' : OrderBook} {order : Order} (assets : UInt32 × UInt32) (u : UInt64) (a : UInt32)

lemma sum_residualOrder (o : Outcome) :
    ((residualOrder order o).map (fun x => held assets u a x x.quantity.toNat)).sum =
      held assets u a order o.residual.toNat := by
  unfold residualOrder
  split
  · rw [List.map_singleton, List.sum_singleton]
    rfl
  · rename_i hpos
    have hzero : o.residual.toNat = 0 := by
      have := mt (Word.pos_iff o.residual).mpr hpos
      omega
    rw [hzero]
    simp [held, Order.worth]
    split <;> simp

lemma held_fills_add_residual :
    ((b.walkOf order).fills.map (fun f => held assets u a order f.2.toNat)).sum +
        held assets u a order (b.walkOf order).residual.toNat =
      held assets u a order order.quantity.toNat := by
  have hsum : ∀ fs : List (Order × UInt64),
      (fs.map (fun f => held assets u a order f.2.toNat)).sum =
        held assets u a order (filled fs) := by
    intro fs
    induction fs with
    | nil => simp [held, Order.worth]; split <;> simp
    | cons f fs ih => rw [List.map_cons, List.sum_cons, ih, filled_cons, held_add]
  rw [hsum, ← held_add, walkOf, filled_add_residual]

/-- **A book that takes an order**: it holds what it held and what the order locks, less what
the fills release on both sides. -/
lemma bookHeld_added (h : Added b order (b.walkOf order) b') :
    bookHeld assets u a b' + ((b.walkOf order).fills.map (fun f =>
        held assets u a order f.2.toNat + held assets u a f.1 f.2.toNat)).sum =
      bookHeld assets u a b + held assets u a order order.quantity.toNat := by
  have hafter := (h.restingOrders.map (fun o => held assets u a o o.quantity.toNat)).sum_eq
  have hbefore := ((b.restingOrders_perm order.side).map
    (fun o => held assets u a o o.quantity.toNat)).sum_eq
  rw [List.map_append, List.map_append, List.sum_append, List.sum_append,
    sum_residualOrder] at hafter
  rw [List.map_append, List.sum_append] at hbefore
  have hmakers := sum_weight (held assets u a) (held_add assets u a) (fun _ _ _ => rfl)
    order.side order.price order.quantity (b.flatSide order.side.opposite)
  have htaker := @held_fills_add_residual b order assets u a
  have hsplit : ((b.walkOf order).fills.map (fun f =>
      held assets u a order f.2.toNat + held assets u a f.1 f.2.toNat)).sum =
        ((b.walkOf order).fills.map (fun f => held assets u a order f.2.toNat)).sum +
          ((b.walkOf order).fills.map (fun f => held assets u a f.1 f.2.toNat)).sum :=
    List.sum_map_add
  unfold bookHeld
  unfold walkOf at *
  omega

lemma bookHeld_removed {o : Order} (h : Removed b o b') :
    bookHeld assets u a b = held assets u a o o.quantity.toNat + bookHeld assets u a b' := by
  have hperm := (h.perm.map (fun o => held assets u a o o.quantity.toNat)).sum_eq
  rw [List.map_cons, List.sum_cons] at hperm
  exact hperm

end Book

/-! ## The engine -/

/-- What the resting orders of one symbol hold. -/
def slotHeld (me : MatchingEngine) (u : UInt64) (a : UInt32) (s : UInt32) : ℕ :=
  match me.assetMap.get? s, bookAt me.orderBooks s with
  | some assets, some b => bookHeld assets u a b
  | _, _ => 0

/-- **The obligation** of user `u` in asset `a`: what the user's resting orders hold, over the
books of all registered symbols. -/
def obligation (me : MatchingEngine) (u : UInt64) (a : UInt32) : ℕ :=
  ∑ s ∈ me.assetMap.keys, slotHeld me u a s

section Engine

variable {me me' : MatchingEngine} {s : UInt32} {assets : UInt32 × UInt32} {b b' : OrderBook}

lemma slotHeld_of_some (hassets : me.assetMap.get? s = some assets)
    (hb : bookAt me.orderBooks s = some b) (u : UInt64) (a : UInt32) :
    slotHeld me u a s = bookHeld assets u a b := by
  rw [slotHeld, hassets, hb]

lemma obligation_of_slot (u : UInt64) (a : UInt32) {s : UInt32} (hs : s ∈ me.assetMap.keys)
    (hmap : me'.assetMap = me.assetMap) {x y : ℕ}
    (hother : ∀ t, t ≠ s → slotHeld me' u a t = slotHeld me u a t)
    (hslot : slotHeld me' u a s + x = slotHeld me u a s + y) :
    obligation me' u a + x = obligation me u a + y := by
  unfold obligation
  rw [hmap, ← Finset.add_sum_erase _ _ hs, ← Finset.add_sum_erase _ (slotHeld me u a) hs]
  have hrest : ∑ t ∈ me.assetMap.keys.erase s, slotHeld me' u a t =
      ∑ t ∈ me.assetMap.keys.erase s, slotHeld me u a t :=
    Finset.sum_congr rfl (fun t ht => hother t (Finset.ne_of_mem_erase ht))
  omega

lemma obligation_setBook (hassets : me.assetMap.get? s = some assets)
    (hb : bookAt me.orderBooks s = some b) (hbooks : me'.orderBooks = setBook me.orderBooks s b')
    (hmap : me'.assetMap = me.assetMap) (u : UInt64) (a : UInt32) {x y : ℕ}
    (h : bookHeld assets u a b' + x = bookHeld assets u a b + y) :
    obligation me' u a + x = obligation me u a + y := by
  have hbook' : bookAt me'.orderBooks s = some b' := by
    rw [hbooks, bookAt_setBook hb, if_pos rfl]
  have hs : s ∈ me.assetMap.keys := by simp [hassets]
  refine obligation_of_slot u a hs hmap (fun t ht => ?_) ?_
  · rw [slotHeld, slotHeld, hmap, hbooks, bookAt_setBook hb, if_neg ht]
  · rw [slotHeld_of_some (hmap ▸ hassets) hbook', slotHeld_of_some hassets hb]
    exact h

/-- **An accepted order**: the obligations grow by what it locks and shrink by what its trades
release. -/
lemma obligation_accepted (env : Externals) (inputSeq : UInt64) {req : OrderRequest}
    (clientOrderId : String) (h : EngineInv me)
    (hassets : me.assetMap.get? req.symbolId = some assets)
    (hb : bookAt me.orderBooks req.symbolId = some b)
    (hadded : Added b req.order (b.walkOf req.order) b')
    (hbooks : me'.orderBooks = setBook me.orderBooks req.symbolId b')
    (hmap : me'.assetMap = me.assetMap)
    (hfits : req.order.worth req.quantity.toNat < 2 ^ 64) (u : UInt64) (a : UInt32) :
    obligation me' u a +
        ((me.outputOf env inputSeq req clientOrderId assets b).trades.map
          (fun t => released t u a)).sum =
      obligation me u a + held assets u a req.order req.quantity.toNat := by
  refine obligation_setBook hassets hb hbooks hmap u a ?_
  rw [← show req.order.quantity = req.quantity from rfl, ← bookHeld_added assets u a hadded,
    MatchingEngine.outputOf, acceptedOutput_trades, List.map_map, MatchingEngine.tradesOf]
  congr 1
  refine sum_trades req.order req.timestamp _ _ _ (fun f hf t hprice hquantity hbuyer hseller => ?_)
    _ _
  obtain ⟨hmem, hcross, -, hle⟩ := mem_fills hf
  have hside : f.1.side = req.side.opposite := (h.books _ _ hb).side_eq hmem
  refine released_fill assets u a hside hcross ?_ hprice hquantity hbuyer hseller
  exact lt_of_le_of_lt (req.order.worth_mono (UInt64.le_iff_toNat_le.mp hle)) hfits

/-- **A cancelled order** takes out of the obligations exactly what it still held. -/
lemma obligation_cancelled {o : Order} (hassets : me.assetMap.get? s = some assets)
    (hb : bookAt me.orderBooks s = some b) (hremoved : Removed b o b')
    (hbooks : me'.orderBooks = setBook me.orderBooks s b') (hmap : me'.assetMap = me.assetMap)
    (u : UInt64) (a : UInt32) :
    obligation me' u a + held assets u a o o.quantity.toNat = obligation me u a := by
  have hbook : bookHeld assets u a b' + held assets u a o o.quantity.toNat =
      bookHeld assets u a b + 0 := by
    rw [bookHeld_removed assets u a hremoved]
    omega
  have hsum := obligation_setBook hassets hb hbooks hmap u a hbook
  omega

/-- Forgetting an id that does not rest leaves the obligations alone. -/
lemma obligation_forget (h : EngineInv me) {orderId : UInt64}
    (hb : bookAt me.orderBooks s = some b)
    (hbooks : me'.orderBooks = setBook me.orderBooks s (b.forget orderId))
    (hmap : me'.assetMap = me.assetMap) (u : UInt64) (a : UInt32) :
    obligation me' u a = obligation me u a := by
  obtain ⟨assets, hassets⟩ := h.exists_assets hb
  have hbook : bookHeld assets u a (b.forget orderId) + 0 = bookHeld assets u a b + 0 := rfl
  have hsum := obligation_setBook hassets hb hbooks hmap u a hbook
  omega

lemma obligation_registerSymbol (h : EngineInv me) (s : UInt32) (assets : UInt32 × UInt32)
    (u : UInt64) (a : UInt32) :
    obligation (me.registerSymbol s assets).2 u a = obligation me u a := by
  rcases me.registerSymbol_cases s assets with ⟨-, heq⟩ | ⟨-, hnone, hbooks, heq⟩
  · rw [heq]
  · have hmap : (me.registerSymbol s assets).2.assetMap = me.assetMap.insert s assets := by
      rw [heq]
    have hnew : s ∉ me.assetMap.keys := by
      rw [HashMap.mem_keys, h.registered, hnone]
      simp
    -- the new book is empty
    have hslot : slotHeld (me.registerSymbol s assets).2 u a s = 0 := by
      rw [slotHeld, hbooks, hmap, HashMap.get?_insert, if_pos rfl, if_pos rfl]
      rfl
    unfold obligation
    rw [hmap, HashMap.keys_insert, Finset.sum_insert hnew, hslot, Nat.zero_add]
    refine Finset.sum_congr rfl (fun t ht => ?_)
    have hne : t ≠ s := fun heq => hnew (heq ▸ ht)
    rw [slotHeld, slotHeld, hbooks, hmap, HashMap.get?_insert, if_neg hne, if_neg hne]

end Engine

end ExchangeCore
