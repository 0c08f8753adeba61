import ExchangeCore.Book.History
import ExchangeCore.Engine.TradeIds

/-!
# The books of the engine

Of what the engine keeps, matching depends on the books and on the generator of trade ids alone
(`BookState`), and of what it is called with, on the orders that reach a book and the ids that are
taken out of one (`BookCall`).  Every call of the engine, whichever path it takes, is a few such
calls (`bookCalls`), so that the run of an engine is a run of `BookState.machine`.

* `book_refined`: the book of a symbol is, after any run of the engine, where the calls that
  reached it lead a book of its own, and the trades of the symbol are the ones that book reports.
* `symbols_isolated`: orders, batches and cancellations for other symbols leave no trace in the
  book of a symbol and in its trades, other than in the trade ids.
* `paths_agree`: orders handed to the engine one by one, with an output or without, or in batches
  cut anywhere, end in the same books with the same trades, trade ids included.
-/

namespace ExchangeCore

open OrderBook

namespace OrderBook

/-! ## The generator only names the trades -/

/-- The two states of a matching loop agree on everything but the generator and the trades. -/
structure MatchState.Agrees (st st' : MatchState) : Prop where
  order : st.order = st'.order
  activeOrderIds : st.activeOrderIds = st'.activeOrderIds
  orderIndex : st.orderIndex = st'.orderIndex
  matchSeq : st.matchSeq = st'.matchSeq

namespace MatchState.Agrees

variable {st st' : MatchState}

lemma fill (h : st.Agrees st') (timestamp : UInt64) (maker : Order) (tradeQuantity : UInt64) :
    (st.fill timestamp maker tradeQuantity).Agrees (st'.fill timestamp maker tradeQuantity) := by
  obtain ⟨horder, hactive, hindex, hseq⟩ := h
  exact ⟨by simp only [MatchState.fill, horder], hactive, hindex,
    by simp only [MatchState.fill, hseq]⟩

lemma retire (h : st.Agrees st') (makerId : UInt64) :
    (st.retire makerId).Agrees (st'.retire makerId) := by
  obtain ⟨horder, hactive, hindex, hseq⟩ := h
  exact ⟨horder, by simp only [MatchState.retire, hactive],
    by simp only [MatchState.retire, hindex], hseq⟩

lemma matchQueue (timestamp : UInt64) (q : List Order) (h : st.Agrees st') :
    (OrderBook.matchQueue timestamp q st).1 = (OrderBook.matchQueue timestamp q st').1 ∧
      (OrderBook.matchQueue timestamp q st).2.Agrees (OrderBook.matchQueue timestamp q st').2 := by
  induction q generalizing st st' with
  | nil => exact ⟨rfl, h⟩
  | cons best rest ih =>
      have hfill := h.fill timestamp best (min st.order.quantity best.quantity)
      have hretire := hfill.retire best.orderId
      simp only [OrderBook.matchQueue, ← h.order]
      split
      · exact ⟨rfl, hfill⟩
      · rw [← hretire.order]
        split
        · exact ⟨rfl, hretire⟩
        · exact ih hretire

lemma matchLoop (timestamp : UInt64) (fuel : ℕ) (makers : PriceMap) (h : st.Agrees st') :
    (OrderBook.matchLoop timestamp fuel makers st).1 =
        (OrderBook.matchLoop timestamp fuel makers st').1 ∧
      (OrderBook.matchLoop timestamp fuel makers st).2.Agrees
        (OrderBook.matchLoop timestamp fuel makers st').2 := by
  induction fuel generalizing makers st st' with
  | zero => exact ⟨rfl, h⟩
  | succ fuel ih =>
      simp only [OrderBook.matchLoop, ← h.order]
      split
      · split
        · split
          · rename_i q _
            obtain ⟨hqueue, hagrees⟩ := h.matchQueue timestamp q
            rw [hqueue]
            exact ih _ hagrees
          · exact ⟨rfl, h⟩
        · exact ⟨rfl, h⟩
      · exact ⟨rfl, h⟩

end MatchState.Agrees

/-- The book an order leaves does not depend on the generator. -/
lemma addOrder_book (b : OrderBook) (order : Order) (g g' : FastUlidHalfGen) (timestamp : UInt64) :
    (b.addOrder order g timestamp).2.1 = (b.addOrder order g' timestamp).2.1 := by
  by_cases hid : order.orderId ∈ b.activeOrderIds
  · rw [addOrder_duplicate g timestamp hid, addOrder_duplicate g' timestamp hid]
  · obtain ⟨hmap, horder, hactive, hindex, hseq⟩ := @MatchState.Agrees.matchLoop
      ⟨order, g, insert order.orderId b.activeOrderIds,
        b.orderIndex.insert order.orderId (order.side, order.price), b.matchSeq, []⟩
      ⟨order, g', insert order.orderId b.activeOrderIds,
        b.orderIndex.insert order.orderId (order.side, order.price), b.matchSeq, []⟩
      timestamp ((b.sideMap order.side.opposite).entries.length + 1)
      (b.sideMap order.side.opposite) ⟨rfl, rfl, rfl, rfl⟩
    simp only [addOrder, if_neg hid, hmap, horder, hactive, hindex, hseq]

/-- A trade without its id. -/
def unnamed (t : Trade) : Trade := { t with tradeId := 0 }

lemma unnamed_trades (taker : Order) (timestamp : UInt64) (g g' : FastUlidHalfGen) (seq : UInt64)
    (fs : List (Order × UInt64)) :
    (Reference.trades taker timestamp g seq fs).map unnamed =
      (Reference.trades taker timestamp g' seq fs).map unnamed := by
  induction fs generalizing g g' seq with
  | nil => rfl
  | cons f fs ih =>
      obtain ⟨m, q⟩ := f
      simp only [Reference.trades, List.map_cons, unnamed]
      exact congrArg _ (ih _ _ _)

/-- The trades of a call to the book. -/
def okTrades (r : Except String (List Trade)) : List Trade :=
  match r with
  | .ok trades => trades
  | .error _ => []

lemma unnamed_okTrades {b : OrderBook} (hb : b.Inv) (order : Order) (g g' : FastUlidHalfGen)
    (timestamp : UInt64) :
    (okTrades (b.addOrder order g timestamp).1).map unnamed =
      (okTrades (b.addOrder order g' timestamp).1).map unnamed := by
  by_cases hid : order.orderId ∈ b.activeOrderIds
  · rw [addOrder_duplicate g timestamp hid, addOrder_duplicate g' timestamp hid]
  · rw [(addOrder_spec g timestamp (hb.sideOk _) hid).1,
      (addOrder_spec g' timestamp (hb.sideOk _) hid).1]
    exact unnamed_trades _ _ _ _ _ _

/-- The trades among the events of a book. -/
def tradesIn (events : List Event) : List Trade :=
  events.filterMap fun
    | .traded t => some t
    | _ => none

lemma tradesIn_map_traded (ts : List Trade) : tradesIn (ts.map .traded) = ts := by
  induction ts with
  | nil => rfl
  | cons t ts ih => exact congrArg (t :: ·) ih

lemma tradesIn_eventsOf_add (b : OrderBook) (order : Order) (g : FastUlidHalfGen)
    (timestamp : UInt64) :
    tradesIn (b.eventsOf (.add order g timestamp)) = okTrades (b.addOrder order g timestamp).1 := by
  rw [eventsOf]
  cases (b.addOrder order g timestamp).1 with
  | error e => rfl
  | ok trades => exact tradesIn_map_traded trades

lemma tradesIn_eventsOf_remove (b : OrderBook) (orderId : UInt64) :
    tradesIn (b.eventsOf (.remove orderId)) = [] := by
  rw [eventsOf]
  cases (b.removeOrder orderId).1 <;> rfl

end OrderBook

/-! ## The books and the generator -/

/-- The books of the registered symbols and the generator of trade ids. -/
@[ext]
structure BookState where
  bookOf : UInt32 → Option OrderBook
  tradeIdGen : FastUlidHalfGen

/-- What reaches the books. -/
inductive BookCall
  | openBook (symbolId : UInt32)
  | place (req : OrderRequest)
  | remove (symbolId : UInt32) (orderId : UInt64)

namespace BookState

/-- The state with one book replaced. -/
def withBook (st : BookState) (s : UInt32) (b : OrderBook) : BookState :=
  { st with bookOf := fun t => if t = s then some b else st.bookOf t }

/-- The books under the calls that reach them. -/
def machine : Machine BookState BookCall Unit where
  step st
    | .openBook s =>
        match st.bookOf s with
        | some _ => (st, ())
        | none => (st.withBook s (OrderBook.new s), ())
    | .place req =>
        match st.bookOf req.symbolId with
        | none => (st, ())
        | some b =>
            let added := b.addOrder req.order st.tradeIdGen req.timestamp
            ({ st.withBook req.symbolId added.2.1 with tradeIdGen := added.2.2 }, ())
    | .remove s orderId =>
        match st.bookOf s with
        | none => (st, ())
        | some b => (st.withBook s (b.removeOrder orderId).2, ())

/-- The trades of a call, with their symbol. -/
def trades (st : BookState) : BookCall → List (UInt32 × Trade)
  | .place req =>
      match st.bookOf req.symbolId with
      | none => []
      | some b => (okTrades (b.addOrder req.order st.tradeIdGen req.timestamp).1).map
          (Prod.mk req.symbolId)
  | _ => []

/-- Every book satisfies the invariant. -/
def Inv (st : BookState) : Prop := ∀ s b, st.bookOf s = some b → b.Inv

variable {st : BookState}

lemma Inv.withBook (h : st.Inv) {s : UInt32} {b : OrderBook} (hb : b.Inv) :
    (st.withBook s b).Inv := by
  intro t c hc
  simp only [BookState.withBook] at hc
  split at hc
  · obtain rfl := Option.some.inj hc
    exact hb
  · exact h t c hc

lemma Inv.step (st : BookState) (c : BookCall) (h : st.Inv) : (machine.step st c).1.Inv := by
  cases c with
  | openBook s =>
      simp only [machine]
      split
      · exact h
      · exact h.withBook (inv_new s)
  | place req =>
      simp only [machine]
      split
      · exact h
      · rename_i b hb
        exact (h.withBook ((h _ _ hb).addOrder _ _ _) :)
  | remove s orderId =>
      simp only [machine]
      split
      · exact h
      · rename_i b hb
        exact h.withBook (OrderBook.Inv.step b (.remove orderId) (h _ _ hb))

/-! ### One book -/

/-- The calls of its own that a call makes of the book of a symbol. -/
def toBook (s : UInt32) (st : BookState) (c : BookCall) : List OrderBook.Call :=
  if (st.bookOf s).isSome then
    match c with
    | .openBook _ => []
    | .place req =>
        if req.symbolId = s then [.add req.order st.tradeIdGen req.timestamp] else []
    | .remove t orderId => if t = s then [.remove orderId] else []
  else []

/-- The book of a symbol, empty before there is one. -/
def bookOrNew (s : UInt32) (st : BookState) : OrderBook := (st.bookOf s).getD (OrderBook.new s)

/-- The trade of a pair, if it is of this symbol. -/
def ofSymbol (s : UInt32) (e : UInt32 × Trade) : Option Trade := if e.1 = s then some e.2 else none

lemma filterMap_ofSymbol (s t : UInt32) (ts : List Trade) :
    (ts.map (Prod.mk t)).filterMap (ofSymbol s) = if t = s then ts else [] := by
  rw [List.filterMap_map]
  split
  · rename_i hts
    subst hts
    have hsome : (ofSymbol t) ∘ Prod.mk t = some := funext fun x => if_pos rfl
    rw [hsome, List.filterMap_some]
  · rename_i hts
    refine List.filterMap_eq_nil_iff.mpr (fun x _ => ?_)
    exact if_neg hts

lemma bookOrNew_step (s : UInt32) (st : BookState) (c : BookCall) :
    bookOrNew s (machine.step st c).1 =
      OrderBook.machine.run (bookOrNew s st) (toBook s st c) := by
  cases c with
  | openBook t =>
      simp only [machine, toBook]
      cases ht : st.bookOf t with
      | some b => simp
      -- a book that is not there yet counts as an empty one, so that opening it changes nothing
      | none =>
          by_cases hts : s = t
          · subst hts
            simp [bookOrNew, withBook, ht]
          · simp [bookOrNew, withBook, hts]
  | place req =>
      simp only [machine, toBook]
      cases ht : st.bookOf req.symbolId with
      | none =>
          by_cases hts : req.symbolId = s
          · subst hts
            simp [ht]
          · simp [hts]
      | some b =>
          by_cases hts : req.symbolId = s
          · subst hts
            simp [bookOrNew, withBook, ht, OrderBook.machine]
          · simp [bookOrNew, withBook, hts, Ne.symm hts]
  | remove t orderId =>
      simp only [machine, toBook]
      cases ht : st.bookOf t with
      | none =>
          by_cases hts : t = s
          · subst hts
            simp [ht]
          · simp [hts]
      | some b =>
          by_cases hts : t = s
          · subst hts
            simp [bookOrNew, withBook, ht, OrderBook.machine]
          · simp [bookOrNew, withBook, hts, Ne.symm hts]

lemma trades_ofSymbol (s : UInt32) (st : BookState) (c : BookCall) :
    (st.trades c).filterMap (ofSymbol s) =
      tradesIn ((bookOrNew s st).history (toBook s st c)) := by
  cases c with
  | openBook t =>
      simp only [trades, toBook, ite_self]
      rfl
  | place req =>
      simp only [trades, toBook]
      cases ht : st.bookOf req.symbolId with
      | none =>
          by_cases hts : req.symbolId = s
          · subst hts
            simp [ht, tradesIn, history]
          · simp [hts, tradesIn, history]
      | some b =>
          simp only
          rw [filterMap_ofSymbol]
          by_cases hts : req.symbolId = s
          · subst hts
            simp only [if_true, ht, Option.isSome_some, bookOrNew, Option.getD_some, history,
              Machine.gathered_cons, Machine.gathered_nil, List.append_nil]
            rw [tradesIn_eventsOf_add]
          · simp [hts, tradesIn, history]
  | remove t orderId =>
      simp only [trades, toBook, List.filterMap_nil]
      split
      · split
        · simp only [history, Machine.gathered_cons, Machine.gathered_nil, List.append_nil]
          rw [tradesIn_eventsOf_remove]
        · rfl
      · rfl

/-! ### The calls of one symbol -/

/-- The call, if it is about this symbol. -/
def keep (s : UInt32) (c : BookCall) : Option BookCall :=
  match c with
  | .openBook t => if t = s then some c else none
  | .place req => if req.symbolId = s then some c else none
  | .remove t _ => if t = s then some c else none

/-- The trades of a symbol in a call, without their ids. -/
def unnamedTrades (s : UInt32) (st : BookState) (c : BookCall) : List Trade :=
  ((st.trades c).filterMap (ofSymbol s)).map unnamed

/-- The book of the symbol is the same. -/
structure SameBook (s : UInt32) (st st' : BookState) : Prop where
  book : st.bookOf s = st'.bookOf s
  inv : st.Inv

/-- A call about another symbol leaves the book of this one alone. -/
lemma SameBook.skip {s : UInt32} {st st' : BookState} (h : SameBook s st st') {c : BookCall}
    (hc : keep s c = none) :
    SameBook s (machine.step st c).1 st' ∧ unnamedTrades s st c = [] := by
  refine ⟨⟨?_, Inv.step st c h.inv⟩, ?_⟩
  · rw [← h.book]
    cases c with
    | openBook t =>
        have hts : s ≠ t := fun heq => by simp [keep, heq] at hc
        simp only [machine]
        split
        · rfl
        · exact if_neg hts
    | place req =>
        have hts : s ≠ req.symbolId := fun heq => by simp [keep, heq] at hc
        simp only [machine]
        split
        · rfl
        · exact if_neg hts
    | remove t orderId =>
        have hts : s ≠ t := fun heq => by simp [keep, heq] at hc
        simp only [machine]
        split
        · rfl
        · exact if_neg hts
  · cases c with
    | openBook t => rfl
    | place req =>
        have hts : req.symbolId ≠ s := fun heq => by simp [keep, heq] at hc
        simp only [unnamedTrades, trades]
        split
        · rfl
        · rw [filterMap_ofSymbol, if_neg hts]
          rfl
    | remove t orderId => rfl

/-- A call about this symbol does the same to its book on both sides. -/
lemma SameBook.keep {s : UInt32} {st st' : BookState} (h : SameBook s st st') {c c' : BookCall}
    (hc : BookState.keep s c = some c') :
    SameBook s (machine.step st c).1 (machine.step st' c').1 ∧
      unnamedTrades s st c = unnamedTrades s st' c' := by
  obtain ⟨hbook, hinv⟩ := h
  have hstep := Inv.step st c hinv
  cases c with
  | openBook t =>
      obtain ⟨rfl, rfl⟩ : t = s ∧ c' = .openBook t := by
        simpa [BookState.keep, eq_comm] using hc
      refine ⟨⟨?_, hstep⟩, rfl⟩
      simp only [machine]
      cases ht : st.bookOf t with
      | some b => simp only [← hbook, ht]
      | none => simp only [← hbook, ht, withBook, if_true]
  | place req =>
      obtain ⟨rfl, rfl⟩ : req.symbolId = s ∧ c' = .place req := by
        simpa [BookState.keep, eq_comm] using hc
      refine ⟨⟨?_, hstep⟩, ?_⟩
      · simp only [machine]
        cases ht : st.bookOf req.symbolId with
        | none => simp only [← hbook, ht]
        | some b =>
            simp only [← hbook, ht, withBook, if_true]
            rw [addOrder_book b req.order st.tradeIdGen st'.tradeIdGen]
      · simp only [unnamedTrades, trades]
        cases ht : st.bookOf req.symbolId with
        | none => simp only [← hbook, ht]
        | some b =>
            simp only [← hbook, ht, filterMap_ofSymbol, if_true]
            exact unnamed_okTrades (hinv _ _ ht) _ _ _ _
  | remove t orderId =>
      obtain ⟨rfl, rfl⟩ : t = s ∧ c' = .remove t orderId := by
        simpa [BookState.keep, eq_comm] using hc
      refine ⟨⟨?_, hstep⟩, rfl⟩
      simp only [machine]
      cases ht : st.bookOf t with
      | none => simp only [← hbook, ht]
      | some b => simp only [← hbook, ht, withBook, if_true]

lemma SameBook.run {s : UInt32} {st st' : BookState} (h : SameBook s st st')
    (calls : List BookCall) :
    SameBook s (machine.run st calls) (machine.run st' (calls.filterMap (BookState.keep s))) ∧
      machine.gathered (unnamedTrades s) st calls =
        machine.gathered (unnamedTrades s) st' (calls.filterMap (BookState.keep s)) :=
  Machine.run_related (P := fun _ => True) (fun _ _ _ _ hrel hc => hrel.skip hc)
    (fun _ _ _ _ _ hrel hc => hrel.keep hc) h calls (fun _ _ => trivial)

end BookState

/-! ## The engine -/

namespace MatchingEngine

variable {me me' : MatchingEngine}

/-- The books and the generator of an engine. -/
def bookState (me : MatchingEngine) : BookState where
  bookOf s := bookAt me.orderBooks s
  tradeIdGen := me.tradeIdGen

/-- The calls that reach the books, if the order WAL takes the entry. -/
def ifLogged (me : MatchingEngine) (io : WalIo) (calls : List BookCall) : List BookCall :=
  match me.logWal io with
  | .error _ => []
  | .ok () => calls

/-- What a call makes of the books. -/
def bookCalls (me : MatchingEngine) : Call → List BookCall
  | .registerSymbol s _ => [.openBook s]
  | .addOrderAndBuildOutput io _ req _ => me.ifLogged io [.place req]
  | .addOrder io req => me.ifLogged io [.place req]
  | .addOrderBatch reqs => reqs.map .place
  | .cancelOrder io s orderId =>
      match me.cancelTarget s orderId with
      | none => []
      | some t => me.ifLogged io [.remove t orderId]

lemma bookState_withBook {s : UInt32} {b b' : OrderBook}
    (hbook : bookAt me.orderBooks s = some b)
    (hbooks : me'.orderBooks = setBook me.orderBooks s b') :
    me'.bookState = { me.bookState.withBook s b' with tradeIdGen := me'.tradeIdGen } := by
  refine BookState.ext (funext fun t => ?_) rfl
  simp only [bookState, BookState.withBook, hbooks, bookAt_setBook hbook]

lemma bookState_place {req : OrderRequest} {book : OrderBook}
    (hbook : bookAt me.orderBooks req.symbolId = some book)
    (hgen : me'.tradeIdGen = (book.addOrder req.order me.tradeIdGen req.timestamp).2.2)
    (hbooks : me'.orderBooks = setBook me.orderBooks req.symbolId
      (book.addOrder req.order me.tradeIdGen req.timestamp).2.1) :
    me'.bookState = (BookState.machine.step me.bookState (.place req)).1 := by
  have hstate : me.bookState.bookOf req.symbolId = some book := hbook
  rw [bookState_withBook hbook hbooks, hgen]
  simp only [BookState.machine, hstate]
  rfl

lemma bookState_place_none {req : OrderRequest} (hbook : bookAt me.orderBooks req.symbolId = none) :
    (BookState.machine.step me.bookState (.place req)).1 = me.bookState := by
  have hstate : me.bookState.bookOf req.symbolId = none := hbook
  simp only [BookState.machine, hstate]

lemma bookState_place_active {req : OrderRequest} {book : OrderBook}
    (hbook : bookAt me.orderBooks req.symbolId = some book)
    (hid : req.orderId ∈ book.activeOrderIds) :
    (BookState.machine.step me.bookState (.place req)).1 = me.bookState := by
  have hadd := @addOrder_duplicate book req.order me.tradeIdGen req.timestamp hid
  refine (bookState_place hbook ?_ ?_).symm
  · rw [hadd]
  · rw [hadd]
    exact (setBook_self hbook).symm

lemma bookAt_eq_none (h : EngineInv me) {s : UInt32}
    (hassets : me.assetMap.get? s = none) : bookAt me.orderBooks s = none := by
  rw [← Option.not_isSome_iff_eq_none, ← h.registered s, hassets]
  simp

/-- Processing an order without an output. -/
lemma bookState_withParts (me : MatchingEngine) (h : EngineInv me) (req : OrderRequest) :
    (me.withParts (processOrderLogic me.assetMap req me.parts).2).bookState =
      (BookState.machine.step me.bookState (.place req)).1 := by
  rcases processOrderLogic_cases me.assetMap req me.parts with ⟨hnone, heq⟩ | ⟨book, hbook, heq⟩
  · have hbook : bookAt me.orderBooks req.symbolId = none := hnone.elim (bookAt_eq_none h) id
    rw [heq, bookState_place_none hbook]
    rfl
  · rw [heq]
    exact bookState_place hbook rfl rfl

lemma bookState_flushWal (me : MatchingEngine) (io : WalIo) :
    (me.flushWal io).2.bookState = me.bookState := by
  obtain ⟨r, wal, hflush, -⟩ := flushWal_cases me io
  rw [hflush]
  rfl

lemma bookState_addOrder (h : EngineInv me) (env : Externals) (io : WalIo) (req : OrderRequest) :
    (me.addOrder env io req).2.bookState =
      BookState.machine.run me.bookState (me.ifLogged io [.place req]) := by
  rcases hassets : me.assetMap.get? req.symbolId with _ | assets
  · simp only [addOrder, hassets, ifLogged]
    split
    · rfl
    · exact (bookState_place_none (bookAt_eq_none h hassets)).symm
  · obtain ⟨book, hbook⟩ := h.exists_book hassets
    have hhas : (bookAt me.orderBooks req.symbolId).any (·.hasOrder req.orderId) =
        decide (req.orderId ∈ book.activeOrderIds) := by rw [hbook]; rfl
    by_cases hactive : req.orderId ∈ book.activeOrderIds
    · simp only [addOrder, hassets, hhas, hactive, decide_true, if_true, ifLogged]
      split
      · rfl
      · exact (bookState_place_active hbook hactive).symm
    · simp only [addOrder, hassets, hhas, hactive, decide_false, Bool.false_eq_true, if_false,
        ifLogged]
      rcases me.logWal io with e | ⟨⟨⟩⟩
      · rfl
      · simp only
        have hparts := bookState_withParts me h req
        split
        · exact hparts
        · have hflush := bookState_flushWal ((me.withParts (processOrderLogic me.assetMap req
            me.parts).2).updateHash env (orderHashData req)) io
          split
          · rename_i hresult
            rw [hresult] at hflush
            exact hflush.trans hparts
          · rename_i hresult
            rw [hresult] at hflush
            exact hflush.trans hparts

lemma bookState_addOrderAndBuildOutput (h : EngineInv me) (env : Externals) (io : WalIo)
    (inputSeq : UInt64) (req : OrderRequest) (clientOrderId : String) :
    (me.addOrderAndBuildOutput env io inputSeq req clientOrderId).2.bookState =
      BookState.machine.run me.bookState (me.ifLogged io [.place req]) := by
  rcases hassets : me.assetMap.get? req.symbolId with _ | assets
  · simp only [addOrderAndBuildOutput, hassets, ifLogged]
    split
    · rfl
    · exact (bookState_place_none (bookAt_eq_none h hassets)).symm
  · obtain ⟨book, hbook⟩ := h.exists_book hassets
    simp only [addOrderAndBuildOutput, hassets, ifLogged]
    rcases me.logWal io with e | ⟨⟨⟩⟩
    · rfl
    · obtain ⟨hgen, hbooks⟩ :=
        processOrderWithOutput_book h env inputSeq clientOrderId hassets hbook
      have hparts : (me.withParts (processOrderWithOutput env me.assetMap inputSeq req
          clientOrderId me.parts).2).bookState =
            (BookState.machine.step me.bookState (.place req)).1 :=
        bookState_place hbook hgen hbooks
      have hflush := bookState_flushWal (me.withParts (processOrderWithOutput env me.assetMap
        inputSeq req clientOrderId me.parts).2) io
      simp only
      split
      · exact hparts
      · split
        · rename_i hresult
          rw [hresult] at hflush
          exact hflush.trans hparts
        · rename_i hresult
          rw [hresult] at hflush
          exact hflush.trans hparts

lemma bookState_addOrderBatch (h : EngineInv me) (reqs : List OrderRequest) :
    (me.addOrderBatch reqs).2.bookState =
      BookState.machine.run me.bookState (reqs.map .place) := by
  induction reqs generalizing me with
  | nil => rfl
  | cons req reqs ih =>
      have hrest := ih (h.logged (me.logged_withParts req))
      rw [List.map_cons, Machine.run_cons, ← bookState_withParts me h req, ← hrest]
      rfl

lemma bookState_cancelOrder (env : Externals) (io : WalIo) (me : MatchingEngine) (s : UInt32)
    (orderId : UInt64) :
    (me.cancelOrder env io s orderId).2.bookState =
      BookState.machine.run me.bookState (me.bookCalls (.cancelOrder io s orderId)) := by
  cases htarget : me.cancelTarget s orderId with
  | none =>
      have htarget' := htarget
      rw [cancelTarget] at htarget'
      simp only [cancelOrder, htarget', bookCalls, htarget]
      rfl
  | some t =>
      have htarget' := htarget
      rw [cancelTarget] at htarget'
      simp only [cancelOrder, htarget', bookCalls, htarget, ifLogged]
      rcases me.logWal io with e | ⟨⟨⟩⟩
      · rfl
      · cases hbook : bookAt me.orderBooks t with
        | none =>
            have hstate : me.bookState.bookOf t = none := hbook
            simp only [processCancel, hbook, Machine.run_cons, Machine.run_nil, BookState.machine,
              hstate]
        | some b =>
            have hstate : me.bookState.bookOf t = some b := hbook
            have hbooks : ∀ me' : MatchingEngine,
                me'.orderBooks = setBook me.orderBooks t (b.removeOrder orderId).2 →
                me'.tradeIdGen = me.tradeIdGen →
                me'.bookState = me.bookState.withBook t (b.removeOrder orderId).2 :=
              fun me' hbooks hgen => (bookState_withBook hbook hbooks).trans (by rw [hgen]; rfl)
            simp only [processCancel, hbook, Machine.run_cons, Machine.run_nil, BookState.machine,
              hstate]
            cases (b.removeOrder orderId).1 with
            | error e => exact hbooks _ rfl rfl
            | ok o => cases me.assetMap.get? t <;> exact hbooks _ rfl rfl

lemma bookState_registerSymbol (me : MatchingEngine) (s : UInt32) (assets : UInt32 × UInt32) :
    (me.registerSymbol s assets).2.bookState =
      (BookState.machine.step me.bookState (.openBook s)).1 := by
  rcases me.registerSymbol_cases s assets with ⟨⟨e, he⟩, heq⟩ | ⟨-, hnone, hbooks, heq⟩
  · -- only a slot in use is refused
    have hsome : ∃ b, me.bookState.bookOf s = some b := by
      refine Option.isSome_iff_exists.mp ?_
      by_contra hnot
      have hfree : (bookAt me.orderBooks s).isSome = false := Bool.eq_false_iff.mpr hnot
      simp only [registerSymbol, hfree, Bool.false_eq_true, if_false] at he
      split at he <;> cases he
    obtain ⟨b, hb⟩ := hsome
    rw [heq]
    simp only [BookState.machine, hb]
  · have hstate : me.bookState.bookOf s = none := hnone
    simp only [BookState.machine, hstate]
    refine BookState.ext (funext fun t => hbooks t) ?_
    rw [heq]
    rfl

/-- **A call of the engine is the calls it makes of the books.** -/
lemma bookState_step (env : Externals) (me : MatchingEngine) (c : Call) (h : EngineInv me) :
    ((machine env).step me c).1.bookState =
      BookState.machine.run me.bookState (me.bookCalls c) := by
  cases c with
  | registerSymbol s assets => exact bookState_registerSymbol me s assets
  | addOrderAndBuildOutput io inputSeq req cid =>
      exact bookState_addOrderAndBuildOutput h env io inputSeq req cid
  | addOrder io req => exact bookState_addOrder h env io req
  | addOrderBatch reqs => exact bookState_addOrderBatch h reqs
  | cancelOrder io s orderId => exact bookState_cancelOrder env io me s orderId

/-! ### The trades of a call -/

lemma trades_place {req : OrderRequest} (h : EngineInv me) :
    me.bookState.trades (.place req) = me.processedTrades req := by
  cases hassets : me.assetMap.get? req.symbolId with
  | none =>
      have hstate : me.bookState.bookOf req.symbolId = none := bookAt_eq_none h hassets
      simp only [BookState.trades, hstate, processedTrades, hassets]
  | some assets =>
      obtain ⟨book, hbook⟩ := h.exists_book hassets
      have hstate : me.bookState.bookOf req.symbolId = some book := hbook
      simp only [BookState.trades, hstate, processedTrades, hassets, bookTrades, hbook]
      change List.map _ (okTrades (book.addOrder req.order me.tradeIdGen req.timestamp).1) = _
      cases (book.addOrder req.order me.tradeIdGen req.timestamp).1 <;> rfl

lemma gathered_ifLogged (h : EngineInv me) (io : WalIo) (req : OrderRequest) :
    BookState.machine.gathered BookState.trades me.bookState (me.ifLogged io [.place req]) =
      me.loggedTrades io req := by
  rw [ifLogged, loggedTrades]
  rcases me.logWal io with e | ⟨⟨⟩⟩
  · rfl
  · exact (List.append_nil _).trans (trades_place h)

/-- **The trades of a call are those of the calls it makes of the books.** -/
lemma executed_eq_gathered (me : MatchingEngine) (c : Call) (h : EngineInv me) :
    me.executed c = BookState.machine.gathered BookState.trades me.bookState (me.bookCalls c) := by
  cases c with
  | registerSymbol s assets => rfl
  | addOrderAndBuildOutput io inputSeq req cid => exact (gathered_ifLogged h io req).symm
  | addOrder io req => exact (gathered_ifLogged h io req).symm
  | addOrderBatch reqs =>
      simp only [executed, bookCalls]
      induction reqs generalizing me with
      | nil => rfl
      | cons req reqs ih =>
          rw [batchTrades, List.map_cons, Machine.gathered_cons, trades_place h,
            ← bookState_withParts me h req]
          exact congrArg (me.processedTrades req ++ ·) (ih _ (h.logged (me.logged_withParts req)))
  | cancelOrder io s orderId =>
      simp only [executed, bookCalls]
      split
      · rfl
      · rw [ifLogged]
        split <;> rfl

/-- The calls a run makes of the books. -/
def bookCallsIn (env : Externals) (me : MatchingEngine) (calls : List Call) : List BookCall :=
  (machine env).gathered bookCalls me calls

lemma executedIn_eq_gathered (env : Externals) (me : MatchingEngine) (calls : List Call) :
    executedIn env me calls = (machine env).gathered executed me calls := by
  induction calls generalizing me with
  | nil => rfl
  | cons c calls ih => exact congrArg (me.executed c ++ ·) (ih _)

lemma bookState_run (env : Externals) {me : MatchingEngine} (h : EngineInv me)
    (calls : List Call) :
    ((machine env).run me calls).bookState =
        BookState.machine.run me.bookState (bookCallsIn env me calls) ∧
      executedIn env me calls =
        BookState.machine.gathered BookState.trades me.bookState (bookCallsIn env me calls) := by
  refine ⟨Machine.run_component (EngineInv.step env) (bookState_step env) h calls, ?_⟩
  rw [executedIn_eq_gathered]
  exact Machine.gathered_component (EngineInv.step env) (bookState_step env)
    executed_eq_gathered h calls

end MatchingEngine

namespace MatchingEngine

/-- The calls a run of the engine makes of the book of a symbol. -/
def reached (env : Externals) (s : UInt32) (me : MatchingEngine) (calls : List Call) :
    List OrderBook.Call :=
  BookState.machine.gathered (BookState.toBook s) me.bookState (bookCallsIn env me calls)

/-- The trades a run executes for a symbol. -/
def executedFor (env : Externals) (s : UInt32) (me : MatchingEngine) (calls : List Call) :
    List Trade :=
  (executedIn env me calls).filterMap (BookState.ofSymbol s)

end MatchingEngine

open MatchingEngine

/-- **The books of the engine refine the book.**  After any run of an engine, over any symbols and
through any of its paths, the book of a registered symbol is a book of its own run on the calls that
reached it, and the trades executed for the symbol are, in order, those of its history. -/
theorem book_refined (env : Externals) (enableLocalWal : Bool)
    (calls : List MatchingEngine.Call) (s : UInt32) :
    (∀ b, bookAt ((machine env).run (MatchingEngine.new enableLocalWal) calls).orderBooks s =
        some b → b = OrderBook.machine.run (OrderBook.new s)
          (reached env s (MatchingEngine.new enableLocalWal) calls)) ∧
      executedFor env s (MatchingEngine.new enableLocalWal) calls =
        tradesIn ((OrderBook.new s).history
          (reached env s (MatchingEngine.new enableLocalWal) calls)) := by
  obtain ⟨hrun, htrades⟩ := bookState_run env (EngineInv.new enableLocalWal) calls
  have hnew : BookState.bookOrNew s (MatchingEngine.new enableLocalWal).bookState =
      OrderBook.new s := by
    simp [BookState.bookOrNew, bookState, MatchingEngine.new, bookAt]
  have hstep := fun (st : BookState) (c : BookCall) (_ : True) => BookState.bookOrNew_step s st c
  constructor
  · intro b hb
    have hbook := Machine.run_component (fun _ _ _ => trivial) hstep trivial
      (s := (MatchingEngine.new enableLocalWal).bookState)
      (bookCallsIn env (MatchingEngine.new enableLocalWal) calls)
    rw [← hrun, hnew] at hbook
    have hstate : BookState.bookOrNew s
        ((machine env).run (MatchingEngine.new enableLocalWal) calls).bookState = b := by
      simp only [BookState.bookOrNew, bookState, hb, Option.getD_some]
    exact hstate.symm.trans hbook
  · have hstepTrades : ∀ (st : BookState) (c : BookCall), True →
        (BookState.trades st c).filterMap (BookState.ofSymbol s) =
          OrderBook.machine.gathered (fun b c => tradesIn (b.eventsOf c))
            (BookState.bookOrNew s st) (BookState.toBook s st c) := fun st c _ => by
      rw [BookState.trades_ofSymbol, history, tradesIn, Machine.filterMap_gathered]
      rfl
    have hgathered := Machine.gathered_component (fun _ _ _ => trivial) hstep hstepTrades
      trivial (s := (MatchingEngine.new enableLocalWal).bookState)
      (bookCallsIn env (MatchingEngine.new enableLocalWal) calls)
    rw [executedFor, htrades, Machine.filterMap_gathered, hgathered, hnew, history, tradesIn,
      Machine.filterMap_gathered]
    rfl

/-! ### Symbols on their own -/

namespace MatchingEngine

variable {me me' : MatchingEngine}

/-- The part of a call that is about a symbol. -/
def Call.restrict (s : UInt32) : Call → Option Call
  | .registerSymbol t assets => if t = s then some (.registerSymbol t assets) else none
  | .addOrderAndBuildOutput io inputSeq req cid =>
      if req.symbolId = s then some (.addOrderAndBuildOutput io inputSeq req cid) else none
  | .addOrder io req => if req.symbolId = s then some (.addOrder io req) else none
  | .addOrderBatch reqs => some (.addOrderBatch (reqs.filter (fun req => req.symbolId = s)))
  | .cancelOrder io t orderId => if t = s then some (.cancelOrder io t orderId) else none

/-- A cancellation names its symbol; symbol 0 would search all books for the id. -/
def Call.NamesSymbol : Call → Prop
  | .cancelOrder _ s _ => s ≠ 0
  | _ => True

lemma orderWal_step (env : Externals) (h : EngineInv me) (c : Call) :
    ((machine env).step me c).1.orderWal = none ↔ me.orderWal = none := by
  cases c with
  | registerSymbol s assets =>
      rcases me.registerSymbol_cases s assets with ⟨-, heq⟩ | ⟨-, -, -, heq⟩
      · simp only [machine, heq]
      · simp only [machine]
        rw [heq]
  | addOrderAndBuildOutput io inputSeq req cid =>
      have hp := placement_addOrderAndBuildOutput h env io inputSeq req cid
      simp only [machine]
      generalize (me.addOrderAndBuildOutput env io inputSeq req cid).2 = me' at hp
      generalize (me.addOrderAndBuildOutput env io inputSeq req cid).1 = r at hp
      cases hp with
      | refused e _ => exact Iff.rfl
      | duplicate e _ _ _ _ _ _ => exact Iff.rfl
      | accepted _ _ _ _ wal _ _ _ _ _ _ _ _ hwal => exact hwal
  | addOrder io req => exact (logged_addOrder env io me req).wal
  | addOrderBatch reqs =>
      simp only [machine]
      induction reqs generalizing me with
      | nil => exact Iff.rfl
      | cons req reqs ih =>
          have hfirst := me.logged_withParts req
          exact (ih (h.logged hfirst)).trans hfirst.wal
  | cancelOrder io s orderId =>
      have hc := cancellation_cancelOrder h env io s orderId
      simp only [machine]
      generalize (me.cancelOrder env io s orderId).2 = me' at hc
      generalize (me.cancelOrder env io s orderId).1 = r at hc
      cases hc with
      | refused e => exact Iff.rfl
      | notFound e _ _ _ _ => exact Iff.rfl
      | cancelled _ _ _ _ _ _ _ _ _ _ _ _ _ _ => exact Iff.rfl

lemma ifLogged_congr (hwal : me.orderWal = none ↔ me'.orderWal = none) (io : WalIo)
    (calls : List BookCall) : me.ifLogged io calls = me'.ifLogged io calls := by
  unfold ifLogged logWal
  cases hme : me.orderWal with
  | none => rw [hwal.mp hme]
  | some w =>
      cases hme' : me'.orderWal with
      | none => exact absurd (hwal.mpr hme') (by simp [hme])
      | some w' => rfl

lemma filterMap_ifLogged (io : WalIo) (calls : List BookCall) (f : BookCall → Option BookCall) :
    (me.ifLogged io calls).filterMap f = me.ifLogged io (calls.filterMap f) := by
  unfold ifLogged
  split <;> rfl

lemma ifLogged_nil (me : MatchingEngine) (io : WalIo) : me.ifLogged io [] = [] := by
  unfold ifLogged
  split <;> rfl

lemma keep_place (s : UInt32) (req : OrderRequest) :
    [BookCall.place req].filterMap (BookState.keep s) =
      if req.symbolId = s then [.place req] else [] := by
  by_cases hts : req.symbolId = s <;> simp [BookState.keep, hts]

lemma bookCalls_restrict (hwal : me.orderWal = none ↔ me'.orderWal = none) (s : UInt32) {c : Call}
    (hc : c.NamesSymbol) :
    (me.bookCalls c).filterMap (BookState.keep s) =
      (c.restrict s).elim [] me'.bookCalls := by
  have hplace : ∀ (io : WalIo) (req : OrderRequest) (c' : Call),
      me'.bookCalls c' = me'.ifLogged io [.place req] →
      (me.ifLogged io [.place req]).filterMap (BookState.keep s) =
        (if req.symbolId = s then some c' else none).elim [] me'.bookCalls := by
    intro io req c' hc'
    rw [filterMap_ifLogged, keep_place]
    split
    · rw [Option.elim_some, hc', ifLogged_congr hwal]
    · exact ifLogged_nil me io
  cases c with
  | registerSymbol t assets =>
      by_cases hts : t = s <;> simp [bookCalls, Call.restrict, BookState.keep, hts]
  | addOrderAndBuildOutput io inputSeq req cid => exact hplace io req _ rfl
  | addOrder io req => exact hplace io req _ rfl
  | addOrderBatch reqs =>
      -- a batch keeps the requests of the symbol, in their order
      simp only [bookCalls, Call.restrict, Option.elim_some]
      induction reqs with
      | nil => rfl
      | cons req reqs ih =>
          by_cases hts : req.symbolId = s
          · have hkeep : BookState.keep s (.place req) = some (.place req) := if_pos hts
            rw [List.map_cons, List.filterMap_cons_some hkeep,
              List.filter_cons_of_pos (by simpa using hts), List.map_cons, ih trivial]
          · have hkeep : BookState.keep s (.place req) = none := if_neg hts
            rw [List.map_cons, List.filterMap_cons_none hkeep,
              List.filter_cons_of_neg (by simpa using hts), ih trivial]
  | cancelOrder io t orderId =>
      -- the symbol is given, so that no lookup in the other books takes part
      have htarget : ∀ me : MatchingEngine, me.cancelTarget t orderId = some t :=
        fun _ => if_neg hc
      simp only [bookCalls, htarget, Call.restrict, filterMap_ifLogged]
      by_cases hts : t = s
      · subst hts
        have hkeep : [BookCall.remove t orderId].filterMap (BookState.keep t) =
            [.remove t orderId] := by simp [BookState.keep]
        rw [if_pos rfl, Option.elim_some, hkeep, ifLogged_congr hwal]
        simp only [bookCalls, htarget]
      · simp [BookState.keep, hts, ifLogged_nil]

/-- The two engines agree on the book of a symbol. -/
structure Agrees (s : UInt32) (me me' : MatchingEngine) : Prop where
  inv : EngineInv me
  inv' : EngineInv me'
  wal : me.orderWal = none ↔ me'.orderWal = none
  books : BookState.SameBook s me.bookState me'.bookState

/-- The trades of a symbol in a call, without their ids. -/
def unnamedFor (s : UInt32) (me : MatchingEngine) (c : Call) : List Trade :=
  ((me.executed c).filterMap (BookState.ofSymbol s)).map unnamed

lemma unnamedFor_eq (s : UInt32) (h : EngineInv me) (c : Call) :
    unnamedFor s me c = BookState.machine.gathered (BookState.unnamedTrades s) me.bookState
      (me.bookCalls c) := by
  rw [unnamedFor, executed_eq_gathered me c h, Machine.filterMap_gathered, Machine.map_gathered]
  rfl

lemma Agrees.step (env : Externals) {s : UInt32} (h : Agrees s me me') {c : Call}
    (hc : c.NamesSymbol) :
    Agrees s ((machine env).step me c).1
        ((c.restrict s).elim me' (fun c' => ((machine env).step me' c').1)) ∧
      unnamedFor s me c = (c.restrict s).elim [] (unnamedFor s me') := by
  obtain ⟨hinv, hinv', hwal, hbooks⟩ := h
  obtain ⟨hrun, htrades⟩ := hbooks.run (me.bookCalls c)
  rw [bookCalls_restrict hwal s hc] at hrun htrades
  rw [← bookState_step env me c hinv] at hrun
  rw [← unnamedFor_eq s hinv] at htrades
  cases hrestrict : c.restrict s with
  | none =>
      rw [hrestrict] at hrun htrades
      exact ⟨⟨EngineInv.step env me c hinv, hinv', (orderWal_step env hinv c).trans hwal, hrun⟩,
        htrades⟩
  | some c' =>
      rw [hrestrict, Option.elim_some] at hrun htrades
      rw [← bookState_step env me' c' hinv'] at hrun
      rw [← unnamedFor_eq s hinv'] at htrades
      exact ⟨⟨EngineInv.step env me c hinv, EngineInv.step env me' c' hinv',
        (orderWal_step env hinv c).trans (hwal.trans (orderWal_step env hinv' c').symm), hrun⟩,
        htrades⟩

lemma unnamed_executedFor (env : Externals) (s : UInt32) (me : MatchingEngine)
    (calls : List Call) :
    (executedFor env s me calls).map unnamed =
      (machine env).gathered (unnamedFor s) me calls := by
  rw [executedFor, executedIn_eq_gathered, Machine.filterMap_gathered, Machine.map_gathered]
  rfl

end MatchingEngine

/-- **Symbols are isolated.**  In a run whose cancellations name their symbol, the book of a symbol
and the trades executed for it, up to the trade ids, are those of the run that is left when orders,
parts of batches and cancellations for other symbols are taken out. -/
theorem symbols_isolated (env : Externals) (enableLocalWal : Bool) (s : UInt32)
    (calls : List MatchingEngine.Call) (hnamed : ∀ c ∈ calls, c.NamesSymbol) :
    bookAt ((machine env).run (MatchingEngine.new enableLocalWal) calls).orderBooks s =
        bookAt ((machine env).run (MatchingEngine.new enableLocalWal)
          (calls.filterMap (Call.restrict s))).orderBooks s ∧
      (executedFor env s (MatchingEngine.new enableLocalWal) calls).map unnamed =
        (executedFor env s (MatchingEngine.new enableLocalWal)
          (calls.filterMap (Call.restrict s))).map unnamed := by
  have hnew : Agrees s (MatchingEngine.new enableLocalWal) (MatchingEngine.new enableLocalWal) :=
    ⟨.new _, .new _, Iff.rfl, rfl, (EngineInv.new enableLocalWal).books⟩
  have hskip : ∀ (me me' : MatchingEngine) (c : MatchingEngine.Call), c.NamesSymbol →
      Agrees s me me' → Call.restrict s c = none →
        Agrees s ((machine env).step me c).1 me' ∧ unnamedFor s me c = [] :=
    fun me me' c hc h hnone => by simpa [hnone] using h.step env hc
  have hkeep : ∀ (me me' : MatchingEngine) (c c' : MatchingEngine.Call), c.NamesSymbol →
      Agrees s me me' → Call.restrict s c = some c' →
        Agrees s ((machine env).step me c).1 ((machine env).step me' c').1 ∧
          unnamedFor s me c = unnamedFor s me' c' :=
    fun me me' c c' hc h hsome => by simpa [hsome] using h.step env hc
  have hrelated := Machine.run_related hskip hkeep hnew calls hnamed
  exact ⟨hrelated.1.books.book, by rw [unnamed_executedFor, unnamed_executedFor, hrelated.2]⟩

theorem symbols_isolated_twoBooks :
    let env : Externals := ⟨fun _ => 0, fun _ _ => 0, fun _ => 0, fun _ => []⟩
    let alone : List MatchingEngine.Call :=
      [.registerSymbol 2 (30, 20), .addOrderBatch [timedRequest 2 1 .sell 9],
        .addOrderAndBuildOutput .healthy 1 (timedRequest 2 2 .buy 3) "a"]
    bookAt ((machine env).run (MatchingEngine.new false) twoBooks).orderBooks 2 =
        bookAt ((machine env).run (MatchingEngine.new false) alone).orderBooks 2 ∧
      (executedFor env 2 (MatchingEngine.new false) twoBooks).map unnamed =
        (executedFor env 2 (MatchingEngine.new false) alone).map unnamed := by
  intro env alone
  have hnamed : ∀ c ∈ twoBooks, c.NamesSymbol := by
    intro c hc
    simp only [twoBooks, List.mem_cons, List.not_mem_nil, or_false] at hc
    rcases hc with rfl | rfl | rfl | rfl | rfl <;> trivial
  have halone : twoBooks.filterMap (Call.restrict 2) = alone := rfl
  exact halone ▸ symbols_isolated env false 2 twoBooks hnamed

/-! ### Paths -/

namespace MatchingEngine

/-- The call hands over these orders, in this order, and the order WAL takes its entry. -/
def Carries (c : Call) (reqs : List OrderRequest) : Prop :=
  match c with
  | .addOrderBatch reqs' => reqs' = reqs
  | .addOrder io req => io.log = .ok () ∧ reqs = [req]
  | .addOrderAndBuildOutput io _ req _ => io.log = .ok () ∧ reqs = [req]
  | _ => False

lemma bookCalls_of_carries (me : MatchingEngine) {c : Call} {reqs : List OrderRequest}
    (h : Carries c reqs) : me.bookCalls c = reqs.map .place := by
  have hlogged : ∀ io : WalIo, io.log = .ok () → ∀ calls, me.ifLogged io calls = calls := by
    intro io hio calls
    have hlog : me.logWal io = .ok () := by
      unfold logWal
      split
      · rfl
      · rw [hio]
        rfl
    rw [ifLogged, hlog]
  cases c with
  | registerSymbol _ _ => exact absurd h id
  | addOrderAndBuildOutput io _ req _ =>
      obtain ⟨hio, rfl⟩ := h
      exact hlogged io hio _
  | addOrder io req =>
      obtain ⟨hio, rfl⟩ := h
      exact hlogged io hio _
  | addOrderBatch reqs' =>
      obtain rfl : reqs' = reqs := h
      rfl
  | cancelOrder _ _ _ => exact absurd h id

lemma bookCallsIn_of_carries (env : Externals) (me : MatchingEngine) {calls : List Call}
    {batches : List (List OrderRequest)} (h : List.Forall₂ Carries calls batches) :
    bookCallsIn env me calls = batches.flatten.map .place := by
  induction h generalizing me with
  | nil => rfl
  | cons hfirst _ ih =>
      rw [List.flatten_cons, List.map_append, ← ih, ← bookCalls_of_carries me hfirst]
      rfl

end MatchingEngine

/-- **The paths agree.**  From any reachable engine, two sequences of calls that hand over the same
orders in the same order, through any of the three paths and in batches cut anywhere, leave the same
book for every symbol and the same generator, and execute the same trades with the same ids. -/
theorem paths_agree (env : Externals) (enableLocalWal : Bool)
    (past calls calls' : List MatchingEngine.Call)
    (batches batches' : List (List OrderRequest)) (hcarries : List.Forall₂ Carries calls batches)
    (hcarries' : List.Forall₂ Carries calls' batches')
    (hsame : batches.flatten = batches'.flatten) :
    let me := (machine env).run (MatchingEngine.new enableLocalWal) past
    (∀ s, bookAt ((machine env).run me calls).orderBooks s =
        bookAt ((machine env).run me calls').orderBooks s) ∧
      ((machine env).run me calls).tradeIdGen = ((machine env).run me calls').tradeIdGen ∧
      executedIn env me calls = executedIn env me calls' := by
  intro me
  have hme : EngineInv me := Machine.run_invariant (EngineInv.step env) (EngineInv.new _) past
  obtain ⟨hstate, htrades⟩ := bookState_run env hme calls
  obtain ⟨hstate', htrades'⟩ := bookState_run env hme calls'
  have hcalls : bookCallsIn env me calls = bookCallsIn env me calls' := by
    rw [bookCallsIn_of_carries env me hcarries, bookCallsIn_of_carries env me hcarries', hsame]
  rw [hcalls, ← hstate'] at hstate
  exact ⟨fun s => congrFun (congrArg BookState.bookOf hstate) s,
    congrArg BookState.tradeIdGen hstate, by rw [htrades, htrades', hcalls]⟩

theorem paths_agree_two_orders :
    let env : Externals := ⟨fun _ => 0, fun _ _ => 0, fun _ => 0, fun _ => []⟩
    let me := (machine env).run (MatchingEngine.new false) [.registerSymbol 1 (10, 20)]
    let sell := timedRequest 1 1 .sell 9
    let buy := timedRequest 1 2 .buy 5
    executedIn env me [.addOrder .healthy sell, .addOrderAndBuildOutput .healthy 1 buy "a"] =
      executedIn env me [.addOrderBatch [sell, buy]] := by
  intro env me sell buy
  exact (paths_agree env false [.registerSymbol 1 (10, 20)]
    [.addOrder .healthy sell, .addOrderAndBuildOutput .healthy 1 buy "a"]
    [.addOrderBatch [sell, buy]] [[sell], [buy]] [[sell, buy]]
    (.cons ⟨rfl, rfl⟩ (.cons ⟨rfl, rfl⟩ .nil)) (.cons rfl .nil) rfl).2.2

end ExchangeCore
