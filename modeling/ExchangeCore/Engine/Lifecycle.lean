import ExchangeCore.Book.Properties
import ExchangeCore.Engine.Chain

/-!
# The lifecycle events of orders

The settlement service keeps the table `active_orders` by replaying the outputs: an
order placement inserts its order, an order completion deletes it.  The table is meant to hold
the orders that rest in the books.

The engine reports the placement of every order a book accepts and the completion of a taker that
is filled.  Nothing else is reported: a maker that is used up, an order that is cancelled, and an
order without quantity, which is placed and never rests; and the output of an order is lost if the
WAL cannot be flushed afterwards.  `KeepsReplay` is the condition on a call that none of this makes
a difference, `replay_throughout_iff` says that the replay agrees with the books throughout exactly
the runs all of whose calls meet it, and `filled_maker_stays_open` is a run with a maker that is
used up.

The books do not share their ids, so the same id may rest under several symbols; the condition
speaks of the id resting elsewhere where that hides a missing event, or makes one hit too much.
-/

namespace ExchangeCore

open OrderBook

/-! ## The events of an accepted order -/

/-- The trade loop adds up what is filled and reports no lifecycle event. -/
lemma lifecycle_foldl_outputTrade (ledger : NullLedger) (req : OrderRequest)
    (assets : UInt32 × UInt32) (seq : UInt64) (trades : List Trade) (st : OutputLoop) :
    let loop := trades.foldl (outputTrade ledger req assets seq) st
    loop.totalFilled =
        st.totalFilled + UInt64.ofNat (trades.map (fun t => t.quantity.toNat)).sum ∧
      loop.builder.orderPlacements = st.builder.orderPlacements ∧
      loop.builder.orderCompletions = st.builder.orderCompletions := by
  induction trades generalizing st with
  | nil => exact ⟨by simp, rfl, rfl⟩
  | cons t trades ih =>
      obtain ⟨hfilled, hplaced, hcompleted⟩ := ih (outputTrade ledger req assets seq st t)
      refine ⟨?_, hplaced.trans ?_, hcompleted.trans ?_⟩
      · rw [List.foldl_cons, hfilled, List.map_cons, List.sum_cons, UInt64.ofNat_add,
          UInt64.ofNat_toNat, ← UInt64.add_assoc]
        rfl
      · rw [builder_outputTrade]
      · rw [builder_outputTrade]

/-- An order is completed exactly if it had a quantity and nothing of it is left. -/
lemma finalStatus_eq_filled_iff {quantity residual : UInt64} {filled : ℕ}
    (h : filled + residual.toNat = quantity.toNat) :
    finalStatus (UInt64.ofNat filled) (quantity - UInt64.ofNat filled) = 3 ↔
      quantity ≠ 0 ∧ residual = 0 := by
  have hlt := quantity.toNat_lt
  have hfilled : (UInt64.ofNat filled).toNat = filled := by
    rw [UInt64.toNat_ofNat']
    exact Nat.mod_eq_of_lt (by omega)
  have hzero : UInt64.ofNat filled = 0 ↔ filled = 0 := by
    rw [← UInt64.toNat_inj, hfilled]
    rfl
  have hremaining : quantity - UInt64.ofNat filled = residual := by
    rw [← UInt64.toNat_inj, UInt64.toNat_sub_of_le _ _ (UInt64.le_iff_toNat_le.mpr (by omega)),
      hfilled]
    omega
  have hquantity : quantity = 0 ↔ quantity.toNat = 0 := by
    rw [← UInt64.toNat_inj]
    rfl
  have hresidual : residual = 0 ↔ residual.toNat = 0 := by
    rw [← UInt64.toNat_inj]
    rfl
  rw [hremaining, finalStatus]
  by_cases hnone : filled = 0
  · simp only [hzero.mpr hnone, if_true, ne_eq, hquantity, hresidual]
    exact iff_of_false (by decide) (by omega)
  · rw [if_neg (mt hzero.mp hnone)]
    by_cases hrest : residual = 0
    · simp only [hrest, if_true, true_iff, and_true, ne_eq, hquantity]
      omega
    · simp only [hrest, if_false, and_false, iff_false]
      decide

/-- The events after the trade loop: at most the completion of the order itself. -/
lemma finishOrder_lifecycle (req : OrderRequest) (loop : OutputLoop) :
    (finishOrder req loop).orderPlacements = loop.builder.orderPlacements ∧
      (finishOrder req loop).orderCompletions = loop.builder.orderCompletions ++
        if finalStatus loop.totalFilled (req.quantity - loop.totalFilled) = 3 then
          [{ orderId := req.orderId, reason := .filled, completedAt := req.timestamp }]
        else [] := by
  unfold finishOrder
  by_cases hstatus : finalStatus loop.totalFilled (req.quantity - loop.totalFilled) = 3
  · simp only [if_pos hstatus]
    exact ⟨rfl, rfl⟩
  · simp only [if_neg hstatus, List.append_nil]
    exact ⟨rfl, rfl⟩

/-- The lifecycle events of an accepted order: its placement, and its completion if it is filled
at once. -/
lemma acceptedOutput_lifecycle (env : Externals) (inputSeq : UInt64) (req : OrderRequest)
    (clientOrderId : String) (assets : UInt32 × UInt32) (trades : List Trade)
    (p : Parts NullLedger) {residual : UInt64}
    (h : (trades.map (fun t => t.quantity.toNat)).sum + residual.toNat = req.quantity.toNat) :
    let output := acceptedOutput env inputSeq req clientOrderId assets trades p
    output.orderPlacements = [orderPlacement req] ∧
      output.orderCompletions =
        if req.quantity ≠ 0 ∧ residual = 0 then
          [{ orderId := req.orderId, reason := .filled, completedAt := req.timestamp }]
        else [] := by
  obtain ⟨hfilled, hplaced, hcompleted⟩ := lifecycle_foldl_outputTrade p.ledger req assets
    (p.outputSeq + 1) trades
    ⟨0, 0, [], HashMap.empty, acceptedBuilder env inputSeq req clientOrderId assets p⟩
  rw [UInt64.zero_add] at hfilled
  obtain ⟨hplaced', hcompleted'⟩ := finishOrder_lifecycle req
    (trades.foldl (outputTrade p.ledger req assets (p.outputSeq + 1))
      ⟨0, 0, [], HashMap.empty, acceptedBuilder env inputSeq req clientOrderId assets p⟩)
  simp only [hfilled, hcompleted, finalStatus_eq_filled_iff h] at hcompleted'
  exact ⟨hplaced'.trans hplaced, hcompleted'⟩

/-! ## Replaying outputs -/

/-- What the settlement service does with an output: insert the placed orders, then delete the
completed ones. -/
def EngineOutput.replay (o : EngineOutput) (active : Finset UInt64) : Finset UInt64 :=
  let active := o.orderPlacements.foldl (fun active p => insert p.orderId active) active
  o.orderCompletions.foldl (fun active c => active.erase c.orderId) active

namespace MatchingEngine

/-- What the replay of the output of an accepted order changes: only the order itself, which is
deleted again if it is filled at once. -/
lemma mem_replay_outputOf (env : Externals) (me : MatchingEngine) (inputSeq : UInt64)
    (req : OrderRequest) (clientOrderId : String) (assets : UInt32 × UInt32) (book : OrderBook)
    (active : Finset UInt64) (id : UInt64) :
    id ∈ (me.outputOf env inputSeq req clientOrderId assets book).replay active ↔
      if id = req.orderId then ¬(req.quantity ≠ 0 ∧ (book.walkOf req.order).residual = 0)
      else id ∈ active := by
  -- the trades and the residual add up to the quantity
  have hsum : ((me.tradesOf book req).map (fun t => t.quantity.toNat)).sum +
      (book.walkOf req.order).residual.toNat = req.quantity.toNat := by
    rw [tradesOf, Reference.sum_trades req.order req.timestamp _ (fun f => f.2.toNat) _
      (fun f _ t _ hq _ _ => by rw [hq])]
    exact Reference.filled_add_residual _ _ _ _
  obtain ⟨hplaced, hcompleted⟩ := acceptedOutput_lifecycle env inputSeq req clientOrderId assets
    (me.tradesOf book req) me.parts hsum
  rw [EngineOutput.replay, outputOf, hplaced, hcompleted]
  by_cases hfilled : req.quantity ≠ 0 ∧ (book.walkOf req.order).residual = 0
  · simp only [if_pos hfilled, List.foldl_cons, List.foldl_nil, orderPlacement, Finset.mem_erase,
      Finset.mem_insert]
    split <;> simp_all
  · simp only [if_neg hfilled, List.foldl_cons, List.foldl_nil, orderPlacement, Finset.mem_insert]
    split <;> simp_all

/-! ## Open orders -/

/-- The order rests in one of the books. -/
def Open (me : MatchingEngine) (id : UInt64) : Prop :=
  ∃ s b, bookAt me.orderBooks s = some b ∧ b.Rests id

/-- The order rests in the book of another symbol. -/
def OpenElsewhere (me : MatchingEngine) (s : UInt32) (id : UInt64) : Prop :=
  ∃ t b, t ≠ s ∧ bookAt me.orderBooks t = some b ∧ b.Rests id

section

variable {me me' : MatchingEngine} {s : UInt32} {b b' : OrderBook}

lemma open_setBook_iff (hbook : bookAt me.orderBooks s = some b)
    (hbooks : me'.orderBooks = setBook me.orderBooks s b') (id : UInt64) :
    me'.Open id ↔ b'.Rests id ∨ me.OpenElsewhere s id := by
  constructor
  · rintro ⟨t, c, hc, hrests⟩
    rw [hbooks, bookAt_setBook hbook] at hc
    split at hc
    · obtain rfl := Option.some.inj hc
      exact Or.inl hrests
    · rename_i hne
      exact Or.inr ⟨t, c, hne, hc, hrests⟩
  · rintro (hrests | ⟨t, c, hne, hc, hrests⟩)
    · refine ⟨s, b', ?_, hrests⟩
      rw [hbooks, bookAt_setBook hbook, if_pos rfl]
    · refine ⟨t, c, ?_, hrests⟩
      rw [hbooks, bookAt_setBook hbook, if_neg hne, hc]

lemma open_iff (hbook : bookAt me.orderBooks s = some b) (id : UInt64) :
    me.Open id ↔ b.Rests id ∨ me.OpenElsewhere s id :=
  open_setBook_iff hbook (setBook_self hbook).symm id

end

lemma open_registerSymbol_iff (me : MatchingEngine) (s : UInt32) (assets : UInt32 × UInt32)
    (id : UInt64) : (me.registerSymbol s assets).2.Open id ↔ me.Open id := by
  rcases me.registerSymbol_cases s assets with ⟨-, heq⟩ | ⟨-, hnone, hbooks, -⟩
  · rw [heq]
  · constructor
    · rintro ⟨t, b, hb, hrests⟩
      rw [hbooks] at hb
      split at hb
      · -- the new book is empty
        obtain rfl := Option.some.inj hb
        obtain ⟨o, ho, -⟩ := hrests
        rw [restingOrders_new] at ho
        exact absurd ho List.not_mem_nil
      · exact ⟨t, b, hb, hrests⟩
    · rintro ⟨t, b, hb, hrests⟩
      refine ⟨t, b, ?_, hrests⟩
      have hne : t ≠ s := by
        rintro rfl
        exact absurd (hnone.symm.trans hb) (by simp)
      rw [hbooks, if_neg hne, hb]

/-! ## Placing and cancelling -/

lemma open_placed_iff {me : MatchingEngine} {req : OrderRequest} {book book' : OrderBook}
    {gen : FastUlidHalfGen} {output : EngineOutput} {wal : Option Wal}
    (hbook : bookAt me.orderBooks req.symbolId = some book) (hb : book.Inv)
    (hadded : Added book req.order (book.walkOf req.order) book')
    (hid : req.orderId ∉ book.activeOrderIds) (id : UInt64) :
    (me.placed req.symbolId book' gen output wal).Open id ↔
      (id = req.orderId ∧ 0 < (book.walkOf req.order).residual) ∨
        (book.Rests id ∧ ∀ maker, book.UsesUp req.order maker → maker.orderId ≠ id) ∨
        me.OpenElsewhere req.symbolId id := by
  have hcons : id ∉ (book.walkOf req.order).consumed.map Order.orderId ↔
      ∀ maker, book.UsesUp req.order maker → maker.orderId ≠ id := by
    simp only [List.mem_map, hb.mem_consumed_iff, not_exists, not_and]
  rw [open_setBook_iff hbook rfl, hb.rests_added_iff hadded hid, hcons, or_assoc]
  rfl

/-! ## The replay next to the engine -/

/-- The calls of a run whose outputs are replayed. -/
inductive LifecycleCall
  | registerSymbol (symbolId : UInt32) (assets : UInt32 × UInt32)
  | addOrderAndBuildOutput (io : WalIo) (inputSeq : UInt64) (req : OrderRequest)
      (clientOrderId : String)
  | cancelOrder (io : WalIo) (symbolId : UInt32) (orderId : UInt64)

/-- The call of the engine. -/
def LifecycleCall.call : LifecycleCall → Call
  | .registerSymbol symbolId assets => .registerSymbol symbolId assets
  | .addOrderAndBuildOutput io inputSeq req clientOrderId =>
      .addOrderAndBuildOutput io inputSeq req clientOrderId
  | .cancelOrder io symbolId orderId => .cancelOrder io symbolId orderId

/-- The engine next to the set its outputs are replayed into. -/
def lifecycle (env : Externals) :
    Machine (MatchingEngine × Finset UInt64) LifecycleCall Answer where
  step s c :=
    let r := (machine env).step s.1 c.call
    ((r.1, (returnedOutputs [r.2]).foldl (fun active o => o.replay active) s.2), r.2)

/-- The replay holds exactly the open orders. -/
def Replayed (s : MatchingEngine × Finset UInt64) : Prop := ∀ id, id ∈ s.2 ↔ s.1.Open id

/-- An accepted order asks for more than its opposite side offers at or better than its limit. -/
def ComesToRest (book : OrderBook) (req : OrderRequest) : Prop :=
  Reference.crossing req.side req.price (book.flatSide req.side.opposite) < req.quantity.toNat

/-- What an order accepted by `book` has to meet: every maker it uses up rests elsewhere too; and
if its output is returned, it comes to rest, or has a quantity and does not rest elsewhere, or has
none and does; and if its output is lost, it does not come to rest or rests elsewhere. -/
structure PlacementReported (me : MatchingEngine) (io : WalIo) (req : OrderRequest)
    (book : OrderBook) : Prop where
  makers : ∀ maker, book.UsesUp req.order maker → me.OpenElsewhere req.symbolId maker.orderId
  returned : (me.orderWal = none ∨ io.flush = .ok ()) → ¬ComesToRest book req →
    (req.quantity ≠ 0 ↔ ¬me.OpenElsewhere req.symbolId req.orderId)
  lost : ¬(me.orderWal = none ∨ io.flush = .ok ()) → ComesToRest book req →
    me.OpenElsewhere req.symbolId req.orderId

/-- The condition on a call, in the state it arrives in. -/
def KeepsReplay (s : MatchingEngine × Finset UInt64) : LifecycleCall → Prop
  | .registerSymbol _ _ => True
  | .addOrderAndBuildOutput io _ req _ =>
      ∀ book, bookAt s.1.orderBooks req.symbolId = some book → s.1.logWal io = .ok () →
        req.orderId ∉ book.activeOrderIds → PlacementReported s.1 io req book
  | .cancelOrder io symbolId orderId =>
      ∀ t b, s.1.CancelReaches io symbolId orderId t b → b.Rests orderId →
        s.1.OpenElsewhere t orderId

lemma residual_pos_iff_comesToRest {book : OrderBook} (hb : book.Inv) (req : OrderRequest) :
    0 < (book.walkOf req.order).residual ↔ ComesToRest book req :=
  hb.residual_pos_iff req.order

/-- After an accepted order: the other orders agree exactly if those used up rest elsewhere. -/
lemma others_agree_iff {me : MatchingEngine} {active : Finset UInt64} {req : OrderRequest}
    {book book' : OrderBook} {gen : FastUlidHalfGen} {output : EngineOutput} {wal : Option Wal}
    (hreplayed : Replayed (me, active)) (hbook : bookAt me.orderBooks req.symbolId = some book)
    (hb : book.Inv) (hadded : Added book req.order (book.walkOf req.order) book')
    (hid : req.orderId ∉ book.activeOrderIds) :
    (∀ id, id ≠ req.orderId →
        (id ∈ active ↔ (me.placed req.symbolId book' gen output wal).Open id)) ↔
      ∀ maker, book.UsesUp req.order maker → me.OpenElsewhere req.symbolId maker.orderId := by
  have hactive : ∀ id, id ∈ active ↔ book.Rests id ∨ me.OpenElsewhere req.symbolId id :=
    fun id => (hreplayed id).trans (open_iff hbook id)
  constructor
  · intro hagree maker hused
    have hne : maker.orderId ≠ req.orderId := fun heq => hb.not_rests hid (heq ▸ hused.rests)
    have hopen := (hagree _ hne).mp ((hactive _).mpr (Or.inl hused.rests))
    rw [open_placed_iff hbook hb hadded hid] at hopen
    rcases hopen with ⟨heq, -⟩ | ⟨-, hnot⟩ | helse
    · exact absurd heq hne
    · exact absurd rfl (hnot maker hused)
    · exact helse
  · intro hmakers id hne
    rw [hactive, open_placed_iff hbook hb hadded hid]
    constructor
    · rintro (hrests | helse)
      · by_cases hused : ∃ maker, book.UsesUp req.order maker ∧ maker.orderId = id
        · obtain ⟨maker, hused, rfl⟩ := hused
          exact Or.inr (Or.inr (hmakers maker hused))
        · exact Or.inr (Or.inl ⟨hrests, fun maker hu heq => hused ⟨maker, hu, heq⟩⟩)
      · exact Or.inr (Or.inr helse)
    · rintro (⟨heq, -⟩ | ⟨hrests, -⟩ | helse)
      · exact absurd heq hne
      · exact Or.inl hrests
      · exact Or.inr helse

lemma open_taker_iff {me : MatchingEngine} {req : OrderRequest} {book book' : OrderBook}
    {gen : FastUlidHalfGen} {output : EngineOutput} {wal : Option Wal}
    (hbook : bookAt me.orderBooks req.symbolId = some book) (hb : book.Inv)
    (hadded : Added book req.order (book.walkOf req.order) book')
    (hid : req.orderId ∉ book.activeOrderIds) :
    (me.placed req.symbolId book' gen output wal).Open req.orderId ↔
      ComesToRest book req ∨ me.OpenElsewhere req.symbolId req.orderId := by
  rw [open_placed_iff hbook hb hadded hid]
  have hnot := hb.not_rests hid
  rw [residual_pos_iff_comesToRest hb]
  tauto

lemma replayed_returned_iff {env : Externals} {io : WalIo} {me : MatchingEngine}
    {active : Finset UInt64} {inputSeq : UInt64} {req : OrderRequest} {clientOrderId : String}
    {assets : UInt32 × UInt32} {book book' : OrderBook} {gen : FastUlidHalfGen}
    {wal : Option Wal} (hreplayed : Replayed (me, active))
    (hbook : bookAt me.orderBooks req.symbolId = some book) (hb : book.Inv)
    (hadded : Added book req.order (book.walkOf req.order) book')
    (hid : req.orderId ∉ book.activeOrderIds) (hflush : me.orderWal = none ∨ io.flush = .ok ()) :
    let output := me.outputOf env inputSeq req clientOrderId assets book
    Replayed (me.placed req.symbolId book' gen output wal, output.replay active) ↔
      PlacementReported me io req book := by
  intro output
  have hprop : ∀ {q r e : Prop}, (¬(q ∧ ¬r) ↔ r ∨ e) ↔ (¬r → (q ↔ ¬e)) := by
    clear * -
    tauto
  have hothers := @others_agree_iff me active req book book' gen output wal hreplayed hbook hb
    hadded hid
  have htaker := @open_taker_iff me req book book' gen output wal hbook hb hadded hid
  have hresidual : (book.walkOf req.order).residual = 0 ↔ ¬ComesToRest book req := by
    rw [← residual_pos_iff_comesToRest hb]
    simp
  -- the order itself, and every other one
  have hsplit : Replayed (me.placed req.symbolId book' gen output wal, output.replay active) ↔
      (¬(req.quantity ≠ 0 ∧ ¬ComesToRest book req) ↔
        ComesToRest book req ∨ me.OpenElsewhere req.symbolId req.orderId) ∧
      ∀ id, id ≠ req.orderId →
        (id ∈ active ↔ (me.placed req.symbolId book' gen output wal).Open id) := by
    constructor
    · intro h
      refine ⟨?_, fun id hne => ?_⟩
      · have hself := h req.orderId
        rwa [mem_replay_outputOf, if_pos rfl, hresidual, htaker] at hself
      · have hother := h id
        rwa [mem_replay_outputOf, if_neg hne] at hother
    · rintro ⟨hself, hother⟩ id
      rw [mem_replay_outputOf]
      by_cases heq : id = req.orderId
      · rw [if_pos heq, heq, hresidual, htaker]
        exact hself
      · rw [if_neg heq]
        exact hother id heq
  rw [hsplit, hothers, hprop]
  constructor
  · rintro ⟨hself, hmakers⟩
    exact ⟨hmakers, fun _ => hself, fun hlost => absurd hflush hlost⟩
  · rintro ⟨hmakers, hreturned, -⟩
    exact ⟨hreturned hflush, hmakers⟩

lemma replayed_lost_iff {io : WalIo} {me : MatchingEngine} {active : Finset UInt64}
    {req : OrderRequest} {book book' : OrderBook} {gen : FastUlidHalfGen} {output : EngineOutput}
    {wal : Option Wal} (hreplayed : Replayed (me, active))
    (hbook : bookAt me.orderBooks req.symbolId = some book) (hb : book.Inv)
    (hadded : Added book req.order (book.walkOf req.order) book')
    (hid : req.orderId ∉ book.activeOrderIds) (hflush : ¬(me.orderWal = none ∨ io.flush = .ok ())) :
    Replayed (me.placed req.symbolId book' gen output wal, active) ↔
      PlacementReported me io req book := by
  have hothers := @others_agree_iff me active req book book' gen output wal hreplayed hbook hb
    hadded hid
  have htaker := @open_taker_iff me req book book' gen output wal hbook hb hadded hid
  have hself : req.orderId ∈ active ↔ me.OpenElsewhere req.symbolId req.orderId := by
    rw [hreplayed req.orderId, open_iff hbook, or_iff_right (hb.not_rests hid)]
  constructor
  · intro h
    refine ⟨hothers.mp (fun id _ => h id), fun hok => absurd hok hflush, fun _ hrest => ?_⟩
    exact hself.mp ((h req.orderId).mpr (htaker.mpr (Or.inl hrest)))
  · rintro ⟨hmakers, -, hlost⟩ id
    by_cases heq : id = req.orderId
    · subst heq
      change req.orderId ∈ active ↔ _
      rw [hself, htaker]
      exact ⟨Or.inr, fun h => h.elim (hlost hflush) (fun helse => helse)⟩
    · exact hothers.mpr hmakers id heq

/-! ## Whole runs -/

lemma foldl_replay_returned (active : Finset UInt64) (orderId : UInt64) (output : EngineOutput) :
    (returnedOutputs [.output (.ok (orderId, output))]).foldl
      (fun active o => o.replay active) active = output.replay active := rfl

lemma replayed_placement_iff (env : Externals) {me : MatchingEngine} {active : Finset UInt64}
    (h : EngineInv me) (hreplayed : Replayed (me, active)) (io : WalIo) (inputSeq : UInt64)
    (req : OrderRequest) (clientOrderId : String) :
    Replayed ((lifecycle env).step (me, active)
        (.addOrderAndBuildOutput io inputSeq req clientOrderId)).1 ↔
      KeepsReplay (me, active) (.addOrderAndBuildOutput io inputSeq req clientOrderId) := by
  have hp := placement_addOrderAndBuildOutput h env io inputSeq req clientOrderId
  simp only [lifecycle, LifecycleCall.call, machine]
  generalize (me.addOrderAndBuildOutput env io inputSeq req clientOrderId).1 = r at hp
  generalize (me.addOrderAndBuildOutput env io inputSeq req clientOrderId).2 = me' at hp
  cases hp with
  | refused e hrefused =>
      refine iff_of_true hreplayed (fun book hbook hlog => ?_)
      obtain ⟨assets, hassets⟩ := h.exists_assets hbook
      rcases hrefused with hnone | herr
      · exact absurd (hnone.symm.trans hassets) (by simp)
      · exact absurd (hlog.symm.trans herr) (by simp)
  | duplicate e assets book hlog hassets hbook hid =>
      refine iff_of_true hreplayed (fun book' hbook' _ hfresh => ?_)
      obtain rfl := Option.some.inj (hbook.symm.trans hbook')
      exact absurd hid hfresh
  | accepted assets book book' gen wal r hlog hassets hbook hid hadded hok hlost _ =>
      have hb := h.books _ _ hbook
      have hkeeps : KeepsReplay (me, active)
          (.addOrderAndBuildOutput io inputSeq req clientOrderId) ↔
            PlacementReported me io req book := by
        refine ⟨fun hk => hk book hbook hlog hid, fun hr book'' hbook'' _ _ => ?_⟩
        obtain rfl := Option.some.inj (hbook.symm.trans hbook'')
        exact hr
      rw [hkeeps]
      by_cases hflush : me.orderWal = none ∨ io.flush = .ok ()
      · rw [hok hflush, foldl_replay_returned]
        exact replayed_returned_iff hreplayed hbook hb hadded hid hflush
      · obtain ⟨e, rfl⟩ := hlost hflush
        exact replayed_lost_iff hreplayed hbook hb hadded hid hflush

lemma replayed_cancel_iff (env : Externals) {me : MatchingEngine} {active : Finset UInt64}
    (h : EngineInv me) (hreplayed : Replayed (me, active)) (io : WalIo) (symbolId : UInt32)
    (orderId : UInt64) :
    Replayed ((lifecycle env).step (me, active) (.cancelOrder io symbolId orderId)).1 ↔
      KeepsReplay (me, active) (.cancelOrder io symbolId orderId) := by
  change (∀ id, id ∈ active ↔ (me.cancelOrder env io symbolId orderId).2.Open id) ↔ _
  rcases orderBooks_cancelOrder env io me symbolId orderId with ⟨hnot, hbooks⟩ | ⟨s, b, hb, hbooks⟩
  · refine iff_of_true (fun id => (hreplayed id).trans ?_) (fun s b hreaches => ?_)
    · simp only [Open, hbooks]
    · exact absurd hreaches (hnot s b)
  · have hinv := h.books s b hb.2.2
    have hopen : ∀ id, (me.cancelOrder env io symbolId orderId).2.Open id ↔
        (b.Rests id ∧ id ≠ orderId) ∨ me.OpenElsewhere s id := fun id => by
      rw [open_setBook_iff hb.2.2 hbooks, hinv.rests_removeOrder_iff]
    have hactive : ∀ id, id ∈ active ↔ b.Rests id ∨ me.OpenElsewhere s id :=
      fun id => (hreplayed id).trans (open_iff hb.2.2 id)
    constructor
    · rintro hagree t c ⟨htarget, -, hc⟩ hrests
      -- the cancellation reaches only one book
      obtain rfl := Option.some.inj (hb.1.symm.trans htarget)
      obtain rfl := Option.some.inj (hb.2.2.symm.trans hc)
      have hstill :=
        (hopen orderId).mp ((hagree orderId).mp ((hactive orderId).mpr (Or.inl hrests)))
      exact hstill.resolve_left (fun hc => hc.2 rfl)
    · intro hkeeps id
      rw [hactive, hopen]
      constructor
      · rintro (hrests | helse)
        · by_cases heq : id = orderId
          · exact Or.inr (heq ▸ hkeeps s b hb (heq ▸ hrests))
          · exact Or.inl ⟨hrests, heq⟩
        · exact Or.inr helse
      · exact fun ho => ho.imp_left And.left

/-- **One call** keeps the replay in step exactly if it meets the condition. -/
lemma replayed_step_iff (env : Externals) (s : MatchingEngine × Finset UInt64)
    (c : LifecycleCall) (h : EngineInv s.1) (hreplayed : Replayed s) :
    Replayed ((lifecycle env).step s c).1 ↔ KeepsReplay s c := by
  obtain ⟨me, active⟩ := s
  cases c with
  | registerSymbol symbolId assets =>
      refine iff_of_true (fun id => (hreplayed id).trans ?_) trivial
      exact (open_registerSymbol_iff me symbolId assets id).symm
  | addOrderAndBuildOutput io inputSeq req cid =>
      exact replayed_placement_iff env h hreplayed io inputSeq req cid
  | cancelOrder io symbolId orderId => exact replayed_cancel_iff env h hreplayed io symbolId orderId

/-- **When replaying the lifecycle events yields the open orders.**  For every run of
registrations, placements and cancellations of an empty engine, folding the outputs into a set
gives after each call exactly the ids resting in the books, if and only if every call of the run
meets `KeepsReplay` in the state it arrives in. -/
theorem replay_throughout_iff (env : Externals) (enableLocalWal : Bool)
    (calls : List LifecycleCall) :
    (lifecycle env).Throughout Replayed (new enableLocalWal, ∅) calls ↔
      (lifecycle env).AllSteps KeepsReplay (new enableLocalWal, ∅) calls := by
  refine Machine.throughout_iff_allSteps
    (fun s c (h : EngineInv s.1) => EngineInv.step env s.1 c.call h) (replayed_step_iff env)
    (EngineInv.new enableLocalWal) (fun id => ?_) calls
  refine iff_of_false (Finset.notMem_empty id) ?_
  rintro ⟨s, b, hb, -⟩
  simp [new, bookAt] at hb

/-- A maker filled by the next order: no completion is reported for it, so that the replay still
holds it when it no longer rests. -/
theorem filled_maker_stays_open :
    ¬∃ env : Externals, (lifecycle env).Throughout Replayed (new false, ∅)
      [.registerSymbol 1 (10, 20),
        .addOrderAndBuildOutput .healthy 1 (limitRequest 1 7 .sell 100 5) "a",
        .addOrderAndBuildOutput .healthy 2 (limitRequest 2 8 .buy 100 5) "b"] := by
  rintro ⟨env, -, -, hbefore, hafter⟩
  have hinv := EngineInv.step env _ (.addOrderAndBuildOutput .healthy 1
    (limitRequest 1 7 .sell 100 5) "a") (EngineInv.step env _ (.registerSymbol 1 (10, 20))
      (EngineInv.new false))
  have hkeeps := (replayed_step_iff env _ _ hinv hbefore).mp hafter
  -- the book before the second order holds the first one, and there is no other book
  obtain ⟨book, hbooks, hmaker, hfresh⟩ : ∃ book : OrderBook,
      ((machine env).run (new false) [.registerSymbol 1 (10, 20),
        .addOrderAndBuildOutput .healthy 1 (limitRequest 1 7 .sell 100 5) "a"]).orderBooks =
          [none, some book] ∧
      book.flatSide .sell = [(limitRequest 1 7 .sell 100 5).order] ∧
      (2 : UInt64) ∉ book.activeOrderIds := ⟨_, rfl, rfl, of_decide_eq_true rfl⟩
  have hbook : bookAt ((machine env).run (new false) [.registerSymbol 1 (10, 20),
      .addOrderAndBuildOutput .healthy 1 (limitRequest 1 7 .sell 100 5) "a"]).orderBooks 1 =
        some book := by
    rw [hbooks]
    rfl
  obtain ⟨t, c, hne, hc, -⟩ := (hkeeps book hbook rfl hfresh).makers
    (limitRequest 1 7 .sell 100 5).order ⟨[], [], hmaker, by decide, by decide⟩
  change bookAt ((machine env).run (new false) [.registerSymbol 1 (10, 20),
      .addOrderAndBuildOutput .healthy 1 (limitRequest 1 7 .sell 100 5) "a"]).orderBooks t =
        some c at hc
  rw [hbooks] at hc
  exact hne (bookAt_single hc).1

end MatchingEngine

end ExchangeCore
