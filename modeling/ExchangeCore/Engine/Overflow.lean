import ExchangeCore.Book.Properties
import ExchangeCore.Engine.BalanceEvents
import ExchangeCore.Engine.Checked
import Mathlib.Algebra.BigOperators.Ring.List

/-!
# Overflow in the engine

Which calls of the engine compute without overflow, given that the orders have passed the
validation of UBSCore: what an order holds fits a signed word, and so does what the resting orders
hold of each asset.

`add_order_and_build_output` never overflows then, as long as its counters have room.  The other two
entry points still add to the balances of the stub ledger, which reports the largest word for all of
them: `add_order` overflows at the first trade, and `cancel_order` at whatever it unlocks.
`run_exact_iff` says so for whole runs: every call is exact if and only if no order that comes
without an output trades, and no order is cancelled that holds something.
-/

namespace ExchangeCore

open OrderBook Reference MatchingEngine

/-! ## What the resting orders hold of an asset -/

/-- What the resting orders of one symbol hold of an asset. -/
def slotHeldIn (me : MatchingEngine) (a : UInt32) (s : UInt32) : ℕ :=
  match me.assetMap.get? s, bookAt me.orderBooks s with
  | some assets, some b => (b.restingOrders.map (fun o =>
      assetPosting (heldAsset assets o.side) (o.worth o.quantity.toNat) a)).sum
  | _, _ => 0

/-- What the resting orders of all books hold of an asset. -/
def heldIn (me : MatchingEngine) (a : UInt32) : ℕ := ∑ s ∈ me.assetMap.keys, slotHeldIn me a s

namespace MatchingEngine

/-! ## Calls and conditions -/

/-- An order that has passed the validation: what it holds and what the resting orders hold of each
asset fit a signed word. -/
def Validated (me : MatchingEngine) (req : OrderRequest) : Prop :=
  req.order.worth req.quantity.toNat < 2 ^ 63 ∧ ∀ a, heldIn me a < 2 ^ 63

/-- All orders placed have passed the validation. -/
def OrdersValidated (me : MatchingEngine) : Call → Prop
  | .addOrder _ req => Validated me req
  | .addOrderAndBuildOutput _ _ req _ => Validated me req
  | _ => True

/-- The counters have room for a trade with every order that rests on the other side. -/
def HasRoom (me : MatchingEngine) : Call → Prop
  | .addOrder _ req => ∀ b, bookAt me.orderBooks req.symbolId = some b →
      b.matchSeq.toNat + (b.flatSide req.side.opposite).length < 2 ^ 64
  | .addOrderAndBuildOutput _ _ req _ => ∀ b, bookAt me.orderBooks req.symbolId = some b →
      Checked.Room (b.flatSide req.side.opposite).length me.outputSeq b.matchSeq
  | _ => True

/-- The call gives what it gives when every operation has its mathematical value. -/
def Exact (env : Externals) (me : MatchingEngine) : Call → Prop
  | .addOrder io req => Checked.addOrder env io me req = some (me.addOrder env io req)
  | .addOrderAndBuildOutput io inputSeq req clientOrderId =>
      Checked.addOrderAndBuildOutput env io me inputSeq req clientOrderId =
        some (me.addOrderAndBuildOutput env io inputSeq req clientOrderId)
  | .cancelOrder io symbolId orderId =>
      Checked.cancelOrder env io me symbolId orderId =
        some (me.cancelOrder env io symbolId orderId)
  | _ => True

/-- An order meets one of the other side that crosses it. -/
def MeetsMaker (b : OrderBook) (order : Order) : Prop :=
  0 < order.quantity ∧
    ∃ m ∈ b.flatSide order.side.opposite, Crosses order.side order.price m.price

/-- An order that comes without an output and reaches its book does not trade; a cancelled order
that rests is one to buy at price 0, which holds nothing. -/
def Calm (me : MatchingEngine) : Call → Prop
  | .addOrder io req => ∀ b, bookAt me.orderBooks req.symbolId = some b →
      req.orderId ∉ b.activeOrderIds → me.logWal io = .ok () → ¬MeetsMaker b req.order
  | .cancelOrder io symbolId orderId => ∀ s b, me.CancelReaches io symbolId orderId s b →
      ∀ o ∈ b.restingOrders, o.orderId = orderId → o.side = .buy ∧ o.price = 0
  | _ => True

end MatchingEngine

/-! ## The bounds of a validated order -/

section Bounds

variable {me : MatchingEngine} {req : OrderRequest} {assets : UInt32 × UInt32} {b : OrderBook}

lemma sum_worth_le_heldIn (h : EngineInv me) {s : UInt32}
    (hassets : me.assetMap.get? s = some assets)
    (hb : bookAt me.orderBooks s = some b) (side : Side) :
    ((b.flatSide side).map (fun o => o.worth o.quantity.toNat)).sum ≤
      heldIn me (heldAsset assets side) := by
  have hslot : ((b.flatSide side).map (fun o => o.worth o.quantity.toNat)).sum ≤
      slotHeldIn me (heldAsset assets side) s := by
    rw [slotHeldIn, hassets, hb]
    have hperm := ((b.restingOrders_perm side).map (fun o =>
      assetPosting (heldAsset assets o.side) (o.worth o.quantity.toNat)
        (heldAsset assets side))).sum_eq
    rw [List.map_append, List.sum_append] at hperm
    have hside : (b.flatSide side).map (fun o => o.worth o.quantity.toNat) =
        (b.flatSide side).map (fun o => assetPosting (heldAsset assets o.side)
          (o.worth o.quantity.toNat) (heldAsset assets side)) := by
      refine List.map_congr_left (fun o ho => ?_)
      rw [(h.books _ _ hb).side_eq ho, assetPosting_self]
    show _ ≤ (b.restingOrders.map _).sum
    rw [hside, hperm]
    exact Nat.le_add_right _ _
  refine hslot.trans ?_
  have hs : s ∈ me.assetMap.keys := by simp [hassets]
  exact Finset.single_le_sum (fun t _ => Nat.zero_le (slotHeldIn me _ t)) hs

/-- Where an asset total fits, so does what a single order holds. -/
lemma worth_lt_of_heldIn (h : EngineInv me) {s : UInt32}
    (hassets : me.assetMap.get? s = some assets) (hb : bookAt me.orderBooks s = some b)
    (hheld : ∀ a, heldIn me a < 2 ^ 63) :
    ∀ o ∈ b.restingOrders, o.worth o.quantity.toNat < 2 ^ 63 := by
  intro o ho
  obtain ⟨side, hside⟩ := mem_restingOrders.mp ho
  refine lt_of_le_of_lt ?_ (hheld (heldAsset assets side))
  refine le_trans ?_ (sum_worth_le_heldIn h hassets hb side)
  exact List.single_le_sum (fun _ _ => Nat.zero_le _) _ (List.mem_map_of_mem hside)

/-- The value of the trades is at most what the order holds, if it buys, and at most what the
resting orders hold, if it sells. -/
lemma valueOf_tradesOf (h : EngineInv me) (hassets : me.assetMap.get? req.symbolId = some assets)
    (hb : bookAt me.orderBooks req.symbolId = some b) :
    (req.side = .buy → valueOf (me.tradesOf b req) ≤ req.order.worth req.quantity.toNat) ∧
      (req.side = .sell → valueOf (me.tradesOf b req) ≤ heldIn me assets.2) := by
  have hvalue : valueOf (me.tradesOf b req) = ((b.walkOf req.order).fills.map
      (fun f => f.1.price.toNat * f.2.toNat)).sum := by
    refine sum_trades req.order req.timestamp _ _ _ (fun f _ t hprice hquantity _ _ => ?_) _ _
    rw [hprice, hquantity]
  have hfilled : filled (b.walkOf req.order).fills ≤ req.quantity.toNat := by
    have hsum := filled_add_residual req.side req.price req.quantity
      (b.flatSide req.side.opposite)
    exact le_of_le_of_eq (Nat.le_add_right _ _) hsum
  rw [hvalue]
  constructor
  · intro hbuy
    -- every maker is at or below the limit
    calc ((b.walkOf req.order).fills.map (fun f => f.1.price.toNat * f.2.toNat)).sum
        ≤ ((b.walkOf req.order).fills.map (fun f => req.price.toNat * f.2.toNat)).sum := by
          refine List.sum_le_sum (fun f hf => Nat.mul_le_mul_right _ ?_)
          obtain ⟨-, hcross, -⟩ := mem_fills hf
          rw [show req.order.side = .buy from hbuy] at hcross
          exact UInt64.le_iff_toNat_le.mp hcross
      _ = req.price.toNat * filled (b.walkOf req.order).fills := by
          rw [filled, List.sum_map_mul_left]
      _ ≤ req.order.worth req.quantity.toNat := by
          rw [Order.worth, show req.order.side = .buy from hbuy]
          exact Nat.mul_le_mul_left _ hfilled
  · intro hsell
    have hmakers := sum_weight Order.worth Order.worth_add (fun _ _ _ => rfl) req.side req.price
      req.quantity (b.flatSide req.side.opposite)
    have hle := sum_worth_le_heldIn h hassets hb req.side.opposite
    rw [hsell] at hle hmakers
    refine le_trans (le_of_eq ?_) ((Nat.le_add_right _ _).trans (hmakers.ge.trans hle))
    rw [walkOf, show req.order.side = .sell from hsell]
    refine congrArg List.sum (List.map_congr_left (fun f hf => ?_))
    obtain ⟨hmem, -⟩ := mem_fills hf
    rw [Order.worth, (h.books _ _ hb).side_eq hmem]
    rfl

lemma length_tradesOf : (me.tradesOf b req).length ≤ (b.flatSide req.side.opposite).length := by
  rw [tradesOf, length_trades]
  exact length_fills_le _ _ _ _

lemma tradesFit_of_validated (h : EngineInv me) (hvalid : Validated me req)
    (hassets : me.assetMap.get? req.symbolId = some assets)
    (hb : bookAt me.orderBooks req.symbolId = some b) :
    Checked.TradesFit req (b.flatSide req.side.opposite).length (me.tradesOf b req) := by
  obtain ⟨hworth, hheld⟩ := hvalid
  have hall := worth_lt_of_heldIn h hassets hb hheld
  obtain ⟨hbuy, hsell⟩ := valueOf_tradesOf h hassets hb
  constructor
  · intro t ht
    obtain ⟨hpaid, hunits⟩ := tradesOf_fit h hb hworth hall ht
    refine ⟨hpaid, hunits, fun hside => ?_⟩
    obtain ⟨-, -, -, hle, -⟩ := mem_tradesOf h hb (by omega) ht
    rw [Order.worth, show req.order.side = .buy from hside] at hworth
    have hmono := Nat.mul_le_mul_left req.price.toNat (UInt64.le_iff_toNat_le.mp hle)
    refine lt_of_le_of_lt hmono (lt_trans hworth ?_)
    omega
  · have hunits : unitsOf (me.tradesOf b req) = filled (b.walkOf req.order).fills :=
      sum_trades req.order req.timestamp _ _ _ (fun f _ t _ hquantity _ _ => by rw [hquantity]) _ _
    have hsum := filled_add_residual req.side req.price req.quantity
      (b.flatSide req.side.opposite)
    rw [hunits]
    exact le_of_le_of_eq (Nat.le_add_right _ _) hsum
  · have hquote := hheld assets.2
    cases hside : req.side with
    | buy =>
        have := hbuy hside
        omega
    | sell =>
        have := hsell hside
        omega
  · exact length_tradesOf

/-- A maker that crosses is met exactly if there is a trade. -/
lemma tradesOf_eq_nil_iff_not_meetsMaker (hb : b.Inv) :
    me.tradesOf b req = [] ↔ ¬MeetsMaker b req.order := by
  have hlength : me.tradesOf b req = [] ↔ (b.walkOf req.order).fills = [] := by
    rw [← List.length_eq_zero_iff, tradesOf, length_trades, List.length_eq_zero_iff]
  rw [hlength, walkOf]
  have hfirst := hb.crossing_first req.order
  cases hmakers : b.flatSide req.order.side.opposite with
  | nil =>
      refine iff_of_true rfl ?_
      rintro ⟨-, m, hm, -⟩
      rw [hmakers] at hm
      cases hm
  | cons m ms =>
      rw [hmakers] at hfirst
      -- the first maker crosses if any does
      have hmeets : MeetsMaker b req.order ↔
          0 < req.order.quantity ∧ Crosses req.order.side req.order.price m.price := by
        refine and_congr_right (fun _ => ?_)
        rw [hmakers]
        refine ⟨?_, fun hm => ⟨m, List.mem_cons_self .., hm⟩⟩
        rintro ⟨m', hm', hcross⟩
        rcases List.mem_cons.mp hm' with rfl | hm'
        · exact hcross
        · exact (List.pairwise_cons.mp hfirst).1 m' hm' hcross
      rw [hmeets]
      constructor
      · intro hnil hgo
        rw [walk, if_pos hgo] at hnil
        dsimp only at hnil
        split at hnil <;> cases hnil
      · intro hstop
        rw [walk_cons_stop hstop]

lemma tradesOf_pos (hb : b.Inv) {t : Trade} (ht : t ∈ me.tradesOf b req) : 0 < t.quantity := by
  obtain ⟨f, hf, -, hquantity, -⟩ := mem_trades ht
  rw [hquantity]
  refine fills_pos (fun m hm => ?_) f hf
  obtain ⟨e, he, hme⟩ := mem_flat.mp hm
  exact ((hb.sideOk _ e he).placed m hme).2.2

lemma addOrder_ok (hb : b.Inv) {trades : List Trade}
    (hadded : (b.addOrder req.order me.tradeIdGen req.timestamp).1 = .ok trades) :
    req.orderId ∉ b.activeOrderIds ∧ trades = me.tradesOf b req := by
  by_cases hid : req.orderId ∈ b.activeOrderIds
  · have hdup := @addOrder_duplicate b req.order me.tradeIdGen req.timestamp hid
    rw [hdup] at hadded
    cases hadded
  · obtain ⟨hok, -⟩ := @addOrder_spec b req.order me.tradeIdGen req.timestamp
      (hb.sideOk req.order.side.opposite) hid
    exact ⟨hid, Except.ok.inj (hadded.symm.trans hok)⟩

end Bounds

namespace MatchingEngine

/-! ## One call -/

section Step

variable {me : MatchingEngine} {env : Externals}

lemma exact_addOrderAndBuildOutput (h : EngineInv me) {io : WalIo} {inputSeq : UInt64}
    {req : OrderRequest} {clientOrderId : String} (hvalid : Validated me req)
    (hroom : HasRoom me (.addOrderAndBuildOutput io inputSeq req clientOrderId)) :
    Exact env me (.addOrderAndBuildOutput io inputSeq req clientOrderId) := by
  show Checked.addOrderAndBuildOutput env io me inputSeq req clientOrderId = some _
  unfold Checked.addOrderAndBuildOutput addOrderAndBuildOutput
  cases hassets : me.assetMap.get? req.symbolId with
  | none => rfl
  | some assets =>
      obtain ⟨b, hb⟩ := h.exists_book hassets
      cases hlog : me.logWal io with
      | error e => rfl
      | ok u =>
          have hprocess := @Checked.processOrderWithOutput_eq env me.assetMap inputSeq req
            clientOrderId assets b me.parts hassets hb (h.books _ _ hb) hvalid.1 (hroom b hb)
            (fun trades hadded => by
              obtain ⟨-, rfl⟩ := addOrder_ok (h.books _ _ hb) hadded
              exact tradesFit_of_validated h hvalid hassets hb)
          simp only [hprocess, Option.bind_eq_bind, Option.bind_some]
          generalize processOrderWithOutput env me.assetMap inputSeq req clientOrderId me.parts = r
          cases r.1 with
          | error e => rfl
          | ok result =>
              dsimp only
              generalize (me.withParts r.2).flushWal io = flushed
              obtain ⟨_ | _, me'⟩ := flushed <;> rfl

lemma exact_addOrder_iff (h : EngineInv me) {io : WalIo} {req : OrderRequest}
    (hvalid : Validated me req) (hroom : HasRoom me (.addOrder io req)) :
    Exact env me (.addOrder io req) ↔ Calm me (.addOrder io req) := by
  have hworth : req.order.worth req.quantity.toNat < 2 ^ 64 := by
    have := hvalid.1
    omega
  show Checked.addOrder env io me req = some (me.addOrder env io req) ↔ _
  cases hassets : me.assetMap.get? req.symbolId with
  | none =>
      refine iff_of_true ?_ ?_
      · simp only [Checked.addOrder, addOrder, hassets]
      · intro b hb
        obtain ⟨assets, hsome⟩ := h.exists_assets hb
        rw [hassets] at hsome
        cases hsome
  | some assets =>
      obtain ⟨b, hb⟩ := h.exists_book hassets
      have hbook := h.books _ _ hb
      have hcalm : Calm me (.addOrder io req) ↔ (req.orderId ∉ b.activeOrderIds →
          me.logWal io = .ok () → ¬MeetsMaker b req.order) := by
        refine ⟨fun hall => hall b hb, fun hone b' hb' => ?_⟩
        obtain rfl := Option.some.inj (hb.symm.trans hb')
        exact hone
      have hadd := @Checked.bookAddOrder_eq req.timestamp b hbook req.order me.tradeIdGen
        (hroom b hb)
      have hlock := Checked.lockTarget_eq assets req.order hworth
      rw [hcalm]
      by_cases hid : req.orderId ∈ b.activeOrderIds
      · -- an id that is active is refused before the book is reached
        refine iff_of_true ?_ (fun hnot => absurd hid hnot)
        have hhas : (bookAt me.orderBooks req.symbolId).any (·.hasOrder req.orderId) = true := by
          rw [hb]
          exact decide_eq_true hid
        simp only [Checked.addOrder, addOrder, hassets, if_pos hhas]
      · have hhas : (bookAt me.orderBooks req.symbolId).any (·.hasOrder req.orderId) ≠ true := by
          rw [hb]
          exact fun htrue => hid (of_decide_eq_true htrue)
        have hlock' : Checked.lockTarget req.side assets req.price req.quantity =
            some (lockTarget req.side assets req.price req.quantity) := hlock
        cases hlog : me.logWal io with
        | error e =>
            refine iff_of_true ?_ (fun _ hok => by cases hok)
            simp only [Checked.addOrder, addOrder, hassets, if_neg hhas, hlock', hlog,
              Option.bind_eq_bind, Option.bind_some]
        | ok u =>
            obtain ⟨hok, -⟩ := @addOrder_spec b req.order me.tradeIdGen req.timestamp
              (hbook.sideOk req.order.side.opposite) hid
            -- only a trade computes new balances, and its credit overflows
            by_cases hnone : me.tradesOf b req = []
            · have hprocess := @Checked.processOrderLogic_eq me.assetMap req assets b me.parts
                hassets hb hworth hadd (fun trades hadded => by
                  obtain ⟨-, rfl⟩ := addOrder_ok hbook hadded
                  exact hnone)
              refine iff_of_true ?_ (fun _ _ => (tradesOf_eq_nil_iff_not_meetsMaker hbook).mp hnone)
              simp only [Checked.addOrder, addOrder, hassets, if_neg hhas, hlock', hlog, hprocess,
                Option.bind_eq_bind, Option.bind_some]
              generalize processOrderLogic me.assetMap req me.parts = r
              cases r.1 with
              | error e => rfl
              | ok oid =>
                  dsimp only
                  generalize ((me.withParts r.2).updateHash env (orderHashData req)).flushWal io =
                    flushed
                  obtain ⟨_ | _, me'⟩ := flushed <;> rfl
            · obtain ⟨t, ts, htrades⟩ := List.exists_cons_of_ne_nil hnone
              have hpos : 0 < t.quantity :=
                @tradesOf_pos me req b hbook t (htrades ▸ List.mem_cons_self ..)
              have hprocess := @Checked.processOrderLogic_none me.assetMap req assets b me.parts
                hassets hb hworth hadd t ts (hok.trans (congrArg Except.ok htrades)) hpos
              refine iff_of_false ?_ (fun hnot => ?_)
              · simp only [Checked.addOrder, hassets, if_neg hhas, hlock', hlog, hprocess,
                  Option.bind_eq_bind, Option.bind_some, Option.bind_none, reduceCtorEq,
                  not_false_eq_true]
              · exact hnone ((tradesOf_eq_nil_iff_not_meetsMaker hbook).mpr (hnot hid rfl))

/-- Only an amount of 0 fits on top of the balance the stub ledger reports. -/
lemma holdsNothing_of_unlock {o : Order} (hpos : 0 < o.quantity) {assets : UInt32 × UInt32}
    {unlock : UInt32 × UInt64} {balanceAfter : UInt64}
    (hlock : Checked.lockTarget o.side assets o.price o.quantity = some unlock)
    (hadd : Word.checkedAdd 0xFFFFFFFFFFFFFFFF unlock.2 = some balanceAfter) :
    o.side = .buy ∧ o.price = 0 := by
  have hzero : unlock.2 = 0 := by
    by_contra hne
    rw [Word.checkedAdd_max (UInt64.pos_iff_ne_zero.mpr hne)] at hadd
    cases hadd
  cases hside : o.side with
  | buy =>
      simp only [Checked.lockTarget, hside, Word.checkedMul] at hlock
      split at hlock
      · rename_i hfits
        obtain rfl := Option.some.inj hlock
        have hmul := Word.toNat_mul_of_lt hfits
        rw [show o.price * o.quantity = 0 from hzero, UInt64.toNat_zero, eq_comm,
          Nat.mul_eq_zero] at hmul
        have hquantity := (Word.pos_iff _).mp hpos
        refine ⟨rfl, UInt64.toNat_inj.mp ?_⟩
        rw [UInt64.toNat_zero]
        omega
      · cases hlock
  | sell =>
      simp only [Checked.lockTarget, hside] at hlock
      obtain rfl := Option.some.inj hlock
      exact absurd hpos (by rw [show o.quantity = 0 from hzero]; exact lt_irrefl _)

lemma exact_cancelOrder_iff (h : EngineInv me) {io : WalIo} {symbolId : UInt32} {orderId : UInt64} :
    Exact env me (.cancelOrder io symbolId orderId) ↔
      Calm me (.cancelOrder io symbolId orderId) := by
  show Checked.cancelOrder env io me symbolId orderId = some _ ↔ _
  cases htarget : me.cancelTarget symbolId orderId with
  | none =>
      -- without an order to cancel, or with a log that fails, nothing is computed
      refine iff_of_true ?_ (fun s b hreach => ?_)
      · rw [cancelTarget] at htarget
        simp only [Checked.cancelOrder, cancelOrder, htarget]
      · rw [CancelReaches, htarget] at hreach
        cases hreach.1
  | some s =>
      have htarget' := htarget
      rw [cancelTarget] at htarget'
      cases hlog : me.logWal io with
      | error e =>
          refine iff_of_true ?_ (fun s b hreach => ?_)
          · simp only [Checked.cancelOrder, cancelOrder, htarget', hlog]
          · rw [CancelReaches, hlog] at hreach
            cases hreach.2.1
      | ok u =>
          cases hbook : bookAt me.orderBooks s with
          | none =>
              refine iff_of_true ?_ ?_
              · simp only [Checked.cancelOrder, cancelOrder, htarget', hlog, Checked.processCancel,
                  processCancel, hbook, Option.bind_eq_bind, Option.bind_some]
              · rintro t b ⟨ht, -, hb⟩
                obtain rfl := Option.some.inj (htarget.symm.trans ht)
                rw [hbook] at hb
                cases hb
          | some b =>
              have hb := h.books _ _ hbook
              have hcalm : Calm me (.cancelOrder io symbolId orderId) ↔
                  ∀ o ∈ b.restingOrders, o.orderId = orderId → o.side = .buy ∧ o.price = 0 := by
                refine ⟨fun hall => hall s b ⟨htarget, hlog, hbook⟩, ?_⟩
                rintro hone t b' ⟨ht, -, hb'⟩
                obtain rfl := Option.some.inj (htarget.symm.trans ht)
                obtain rfl := Option.some.inj (hbook.symm.trans hb')
                exact hone
              rw [hcalm]
              obtain ⟨assets, hassets⟩ := h.exists_assets hbook
              rcases removeOrder_cases hb orderId with ⟨o, ho, hid, hok, -⟩ | ⟨hnot, herr, -⟩
              · -- the order found is the only one with its id
                have hone : (∀ o' ∈ b.restingOrders, o'.orderId = orderId →
                    o'.side = .buy ∧ o'.price = 0) ↔ o.side = .buy ∧ o.price = 0 := by
                  refine ⟨fun hall => hall o ho hid, fun hzero o' ho' hid' => ?_⟩
                  obtain rfl := hb.eq_of_orderId ho ho' (hid.trans hid'.symm)
                  exact hzero
                rw [hone]
                simp only [Checked.cancelOrder, cancelOrder, htarget', hlog, Checked.processCancel,
                  processCancel, hbook, hok, hassets, NullLedger.getBalance_eq,
                  NullLedger.getBalanceVersion_eq]
                constructor
                · intro hexact
                  -- the null ledger has the largest word available: adding anything to it overflows
                  obtain ⟨side, hside⟩ := mem_restingOrders.mp ho
                  obtain ⟨e, he, hoe⟩ := mem_flat.mp hside
                  have hpos := ((hb.sideOk side e he).placed o hoe).2.2
                  cases hlock : Checked.lockTarget o.side assets o.price o.quantity with
                  | none =>
                      rw [hlock] at hexact
                      cases hexact
                  | some unlock =>
                      cases hadd : Word.checkedAdd 0xFFFFFFFFFFFFFFFF unlock.2 with
                      | none =>
                          simp only [hlock, hadd, Option.bind_eq_bind, Option.bind_some,
                            Option.bind_none, reduceCtorEq] at hexact
                      | some balanceAfter => exact holdsNothing_of_unlock hpos hlock hadd
                · rintro ⟨hside, hprice⟩
                  -- a buy order at price 0 holds nothing
                  have hworth : o.worth o.quantity.toNat < 2 ^ 64 := by
                    simp [Order.worth, hside, hprice]
                  have hlock := Checked.lockTarget_eq assets o hworth
                  have hzero : (lockTarget o.side assets o.price o.quantity).2 = 0 := by
                    rw [hside, hprice]
                    exact UInt64.zero_mul
                  have hadd : Word.checkedAdd 0xFFFFFFFFFFFFFFFF
                      (lockTarget o.side assets o.price o.quantity).2 =
                        some (0xFFFFFFFFFFFFFFFF +
                          (lockTarget o.side assets o.price o.quantity).2) := by
                    rw [hzero]
                    decide
                  have hversion : Word.checkedAdd 0 1 = some (0 + 1) := by decide
                  simp only [hlock, hadd, hversion, Option.bind_eq_bind, Option.bind_some]
                  rfl
              · refine iff_of_true ?_ (fun o ho hid => absurd ⟨o, ho, hid⟩ hnot)
                simp only [Checked.cancelOrder, cancelOrder, htarget', hlog, Checked.processCancel,
                  processCancel, hbook, herr, Option.bind_eq_bind, Option.bind_some]

lemma exact_iff_calm (env : Externals) (h : EngineInv me) (c : Call) (hvalid : OrdersValidated me c)
    (hroom : HasRoom me c) : Exact env me c ↔ Calm me c := by
  cases c with
  | registerSymbol symbolId assets => exact Iff.rfl
  | addOrderAndBuildOutput io inputSeq req clientOrderId =>
      exact iff_of_true (exact_addOrderAndBuildOutput h hvalid hroom) trivial
  | addOrder io req => exact exact_addOrder_iff h hvalid hroom
  | addOrderBatch reqs => exact Iff.rfl
  | cancelOrder io symbolId orderId => exact exact_cancelOrder_iff h

end Step

/-- **Overflow in the engine.**  In every run with validated orders and room in the counters, all
calls are exact if and only if they are calm. -/
theorem run_exact_iff (env : Externals) (enableLocalWal : Bool) (calls : List Call)
    (hvalid : (machine env).AllSteps OrdersValidated (new enableLocalWal) calls)
    (hroom : (machine env).AllSteps HasRoom (new enableLocalWal) calls) :
    (machine env).AllSteps (Exact env) (new enableLocalWal) calls ↔
      (machine env).AllSteps Calm (new enableLocalWal) calls :=
  Machine.allSteps_congr (EngineInv.step env)
    (fun _ c h hboth => exact_iff_calm env h c hboth.1 hboth.2) (EngineInv.new enableLocalWal)
    (hvalid.and hroom)

/-! ## Runs on fixed inputs -/

/-- What all resting orders hold is at least what they hold of one asset. -/
lemma heldIn_le (me : MatchingEngine) (a : UInt32) :
    heldIn me a ≤ ∑ s ∈ me.assetMap.keys, (bookAt me.orderBooks s).elim 0 (fun b =>
      (b.restingOrders.map (fun o => o.worth o.quantity.toNat)).sum) := by
  refine Finset.sum_le_sum (fun s _ => ?_)
  unfold slotHeldIn
  cases me.assetMap.get? s with
  | none => exact Nat.zero_le _
  | some assets =>
      cases bookAt me.orderBooks s with
      | none => exact Nat.zero_le _
      | some b =>
          refine List.sum_le_sum (fun o _ => ?_)
          unfold assetPosting
          split
          · exact le_refl _
          · exact Nat.zero_le _

/-- Hash functions and a serialiser that are not read here. -/
def blank : Externals := ⟨fun _ => 0, fun _ _ => 0, fun _ => 0, fun _ => []⟩

/-- A sell order without an output rests, and a buy order with one takes a part of it. -/
def restThenTrade : List Call :=
  [.registerSymbol 1 (10, 20), .addOrder .healthy (limitRequest 1 7 .sell 100 5),
    .addOrderAndBuildOutput .healthy 1 (limitRequest 2 8 .buy 100 3) "a"]

lemma restThenTrade_validated :
    (machine blank).AllSteps OrdersValidated (new false) restThenTrade := by
  refine ⟨trivial, ⟨by decide, fun a => ?_⟩, ⟨by decide, fun a => ?_⟩, trivial⟩
  · exact lt_of_le_of_lt (heldIn_le _ a) (by decide +kernel)
  · exact lt_of_le_of_lt (heldIn_le _ a) (by decide +kernel)

theorem run_exact_iff_restThenTrade :
    (machine blank).AllSteps (Exact blank) (new false) restThenTrade := by
  refine (run_exact_iff blank false restThenTrade restThenTrade_validated
    ⟨trivial, ?_, ?_, trivial⟩).mpr ⟨trivial, ?_, trivial, trivial⟩
  · intro b hb
    obtain rfl := Option.some.inj hb
    decide +kernel
  · intro b hb
    obtain rfl := Option.some.inj hb
    exact ⟨by decide +kernel, by decide +kernel, by decide +kernel⟩
  · rintro b hb - - ⟨-, m, hm, -⟩
    obtain rfl := Option.some.inj hb
    cases hm

/-- The order that rests is cancelled, or is taken by an order without an output: the balance of the
stub ledger plus the 2 or 3 units overflows. -/
theorem cancel_and_trade_overflow :
    ((machine blank).AllSteps OrdersValidated (new false)
        (restThenTrade ++ [.cancelOrder .healthy 1 1]) ∧
      ¬(machine blank).AllSteps (Exact blank) (new false)
        (restThenTrade ++ [.cancelOrder .healthy 1 1])) ∧
    (machine blank).AllSteps OrdersValidated (new false)
        [.registerSymbol 1 (10, 20), .addOrder .healthy (limitRequest 1 7 .sell 100 5),
          .addOrder .healthy (limitRequest 2 8 .buy 100 3)] ∧
      ¬(machine blank).AllSteps (Exact blank) (new false)
        [.registerSymbol 1 (10, 20), .addOrder .healthy (limitRequest 1 7 .sell 100 5),
          .addOrder .healthy (limitRequest 2 8 .buy 100 3)] := by
  obtain ⟨h₁, h₂, h₃, -⟩ := restThenTrade_validated
  refine ⟨⟨⟨h₁, h₂, h₃, trivial, trivial⟩, ?_⟩, ⟨h₁, h₂, h₃, trivial⟩, ?_⟩
  · rintro ⟨-, -, -, hexact, -⟩
    have hpanic : (Checked.cancelOrder blank .healthy ((machine blank).run (new false)
        restThenTrade) 1 1).isNone = true := by decide +kernel
    rw [show Checked.cancelOrder blank .healthy ((machine blank).run (new false)
      restThenTrade) 1 1 = some _ from hexact] at hpanic
    cases hpanic
  · rintro ⟨-, -, hexact, -⟩
    have hpanic : (Checked.addOrder blank .healthy ((machine blank).run (new false)
        (restThenTrade.take 2)) (limitRequest 2 8 .buy 100 3)).isNone = true := by decide +kernel
    rw [show Checked.addOrder blank .healthy ((machine blank).run (new false)
      (restThenTrade.take 2)) (limitRequest 2 8 .buy 100 3) = some _ from hexact] at hpanic
    cases hpanic

end MatchingEngine

end ExchangeCore
