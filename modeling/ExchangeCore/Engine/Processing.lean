import ExchangeCore.Book.Invariant
import ExchangeCore.Engine.MatchingEngine

/-!
# What order processing does

One description per entry point of the engine, in the form later proofs use: `Placement` for
`add_order_and_build_output`, `Logged` for the two paths without an output, `Cancellation` for
`cancel_order`.  Each lists every way a call can end, with the guards that lead there, what it
answers and the engine it leaves behind; nothing after this file unfolds the processing
functions.

`EngineInv` is what every reachable engine satisfies: its books satisfy the book invariant, and
a symbol has assets exactly if it has a book.
-/

namespace ExchangeCore

open OrderBook

/-! ## Books by symbol -/

/-- A slot in range is overwritten, whatever it held. -/
lemma bookAt_setBook_of_lt {books : List (Option OrderBook)} {s : UInt32}
    (h : s.toNat < books.length) (b' : OrderBook) (t : UInt32) :
    bookAt (setBook books s b') t = if t = s then some b' else bookAt books t := by
  unfold bookAt setBook
  by_cases hts : t = s
  · subst hts
    simp [h]
  · have hne : s.toNat ≠ t.toNat := fun heq => hts (UInt32.toNat.inj heq.symm)
    rw [List.getElem?_set_ne hne, if_neg hts]

lemma bookAt_setBook {books : List (Option OrderBook)} {s : UInt32} {b : OrderBook}
    (h : bookAt books s = some b) (b' : OrderBook) (t : UInt32) :
    bookAt (setBook books s b') t = if t = s then some b' else bookAt books t := by
  have hlt : s.toNat < books.length := by
    by_contra hge
    rw [bookAt, List.getElem?_eq_none (not_lt.mp hge)] at h
    exact absurd h (by simp)
  exact bookAt_setBook_of_lt hlt b' t

lemma setBook_self {books : List (Option OrderBook)} {s : UInt32} {b : OrderBook}
    (h : bookAt books s = some b) : setBook books s b = books := by
  apply List.ext_getElem?
  intro i
  by_cases hi : s.toNat = i
  · subst hi
    have hslot : books[s.toNat]? = some (some b) := by
      unfold bookAt at h
      cases hslot : books[s.toNat]? with
      | none => rw [hslot] at h; exact absurd h (by simp)
      | some slot => rw [hslot] at h; exact congrArg some h
    obtain ⟨hlt, -⟩ := List.getElem?_eq_some_iff.mp hslot
    rw [setBook, List.getElem?_set_self hlt, hslot]
  · rw [setBook, List.getElem?_set_ne hi]

lemma bookAt_single {b c : OrderBook} {s : UInt32} (h : bookAt [none, some b] s = some c) :
    s = 1 ∧ c = b := by
  rw [bookAt] at h
  rcases hn : s.toNat with _ | _ | n
  · simp [hn] at h
  · refine ⟨UInt32.toNat.inj hn, ?_⟩
    simpa [hn, eq_comm] using h
  · simp [hn] at h

/-! ## Sums over trades -/

/-- The units of a list of trades. -/
def unitsOf (trades : List Trade) : ℕ := (trades.map (fun t => t.quantity.toNat)).sum

/-- The value of a list of trades. -/
def valueOf (trades : List Trade) : ℕ :=
  (trades.map (fun t => t.price.toNat * t.quantity.toNat)).sum

/-! ## The trade loops -/

section Loops

variable {L : Type} [Ledger L] {ledger : L} {req : OrderRequest} {assets : UInt32 × UInt32}

lemma outputSeq_foldl_logicTrade (trades : List Trade) (st : LogicLoop) :
    (trades.foldl (logicTrade ledger req assets) st).outputSeq =
      st.outputSeq + UInt64.ofNat trades.length := by
  induction trades generalizing st with
  | nil => simp
  | cons t trades ih =>
      rw [List.foldl_cons, ih, List.length_cons]
      exact Reference.seq_succ _ _

lemma foldl_addBalanceEvent (events : List EOBalanceEvent) (b : EngineOutputBuilder) :
    events.foldl EngineOutputBuilder.addBalanceEvent b =
      { b with balanceEvents := b.balanceEvents ++ events } := by
  induction events generalizing b with
  | nil => simp
  | cons e events ih => simp [ih, EngineOutputBuilder.addBalanceEvent]

variable {seq : UInt64}

lemma builder_outputTrade (st : OutputLoop) (t : Trade) :
    (outputTrade ledger req assets seq st t).builder =
      { st.builder with
        trades := st.builder.trades ++ [tradeOutput req.symbolId assets (buyerRefund req t) t]
        balanceEvents := st.builder.balanceEvents ++ tradeEvents assets (buyerRefund req t)
          (tradeVersions ledger assets (buyerRefund req t) t st.tempVersions).1 t } := by
  simp only [outputTrade, foldl_addBalanceEvent, EngineOutputBuilder.addTrade]

lemma trades_foldl_outputTrade (trades : List Trade) (st : OutputLoop) :
    (trades.foldl (outputTrade ledger req assets seq) st).builder.trades =
      st.builder.trades ++
        trades.map (fun t => tradeOutput req.symbolId assets (buyerRefund req t) t) := by
  induction trades generalizing st with
  | nil => simp
  | cons t trades ih => simp [ih, builder_outputTrade]

lemma sum_events_foldl_outputTrade {M : Type*} [AddCommMonoid M] (f : EOBalanceEvent → M)
    (perTrade : Trade → M) (trades : List Trade)
    (hf : ∀ v, ∀ t ∈ trades, ((tradeEvents assets (buyerRefund req t) v t).map f).sum = perTrade t)
    (st : OutputLoop) :
    ((trades.foldl (outputTrade ledger req assets seq) st).builder.balanceEvents.map f).sum =
      (st.builder.balanceEvents.map f).sum + (trades.map perTrade).sum := by
  induction trades generalizing st with
  | nil => simp
  | cons t trades ih =>
      rw [List.foldl_cons, ih (fun v t ht => hf v t (List.mem_cons_of_mem _ ht)),
        builder_outputTrade, List.map_append, List.sum_append, hf _ t (List.mem_cons_self ..),
        List.map_cons, List.sum_cons, add_assoc]

lemma header_foldl_outputTrade (trades : List Trade) (st : OutputLoop) :
    (trades.foldl (outputTrade ledger req assets seq) st).builder.outputSeq =
        st.builder.outputSeq ∧
      (trades.foldl (outputTrade ledger req assets seq) st).builder.prevHash =
        st.builder.prevHash := by
  induction trades generalizing st with
  | nil => exact ⟨rfl, rfl⟩
  | cons t trades ih =>
      obtain ⟨h₁, h₂⟩ := ih (outputTrade ledger req assets seq st t)
      rw [List.foldl_cons, h₁, h₂, builder_outputTrade]
      exact ⟨rfl, rfl⟩

end Loops

/-! ## The output of an accepted order -/

/-- The builder of an accepted order when its trade loop starts. -/
def acceptedBuilder (env : Externals) (inputSeq : UInt64) (req : OrderRequest)
    (clientOrderId : String) (assets : UInt32 × UInt32) (p : Parts NullLedger) :
    EngineOutputBuilder :=
  let lock := lockSnapshot p.ledger req assets
  ((((EngineOutputBuilder.new (p.outputSeq + 1) p.lastOutputHash).setInput
    (placeInput env inputSeq req clientOrderId)).addBalanceEvent
      (lockEvent req lock (Ledger.getFrozen p.ledger req.userId lock.asset))).addOrderPlacement
        (orderPlacement req))

/-- The output of an accepted order with these trades. -/
def acceptedOutput (env : Externals) (inputSeq : UInt64) (req : OrderRequest)
    (clientOrderId : String) (assets : UInt32 × UInt32) (trades : List Trade)
    (p : Parts NullLedger) : EngineOutput :=
  (finishOrder req (trades.foldl (outputTrade p.ledger req assets (p.outputSeq + 1))
    ⟨0, 0, [], HashMap.empty,
      acceptedBuilder env inputSeq req clientOrderId assets p⟩)).buildUnchecked
      env (placeInput env inputSeq req clientOrderId)

section Output

variable (env : Externals) (inputSeq : UInt64) (req : OrderRequest) (clientOrderId : String)
  (assets : UInt32 × UInt32) (trades : List Trade) (p : Parts NullLedger)

lemma finishOrder_fields (loop : OutputLoop) :
    (finishOrder req loop).outputSeq = loop.builder.outputSeq ∧
      (finishOrder req loop).prevHash = loop.builder.prevHash ∧
      (finishOrder req loop).trades = loop.builder.trades ∧
      (finishOrder req loop).balanceEvents = loop.builder.balanceEvents := by
  simp only [finishOrder]
  -- whether the order is completed or not, only the update and the completions change
  split_ifs <;> exact ⟨rfl, rfl, rfl, rfl⟩

lemma acceptedOutput_header :
    (acceptedOutput env inputSeq req clientOrderId assets trades p).outputSeq = p.outputSeq + 1 ∧
      (acceptedOutput env inputSeq req clientOrderId assets trades p).prevHash =
        p.lastOutputHash := by
  obtain ⟨h₁, h₂, -, -⟩ := finishOrder_fields req
    (trades.foldl (outputTrade p.ledger req assets (p.outputSeq + 1))
      ⟨0, 0, [], HashMap.empty, acceptedBuilder env inputSeq req clientOrderId assets p⟩)
  rw [(header_foldl_outputTrade trades _).1] at h₁
  rw [(header_foldl_outputTrade trades _).2] at h₂
  exact ⟨h₁, h₂⟩

lemma acceptedOutput_trades :
    (acceptedOutput env inputSeq req clientOrderId assets trades p).trades =
      trades.map (fun t => tradeOutput req.symbolId assets (buyerRefund req t) t) := by
  refine (finishOrder_fields req _).2.2.1.trans ?_
  rw [trades_foldl_outputTrade]
  rfl

lemma acceptedOutput_sum_events {M : Type*} [AddCommMonoid M] (f : EOBalanceEvent → M)
    (perTrade : Trade → M)
    (hf : ∀ v, ∀ t ∈ trades,
      ((tradeEvents assets (buyerRefund req t) v t).map f).sum = perTrade t) :
    ((acceptedOutput env inputSeq req clientOrderId assets trades p).balanceEvents.map f).sum =
      f (lockEvent req (lockSnapshot p.ledger req assets) 0) + (trades.map perTrade).sum := by
  have hfields := (finishOrder_fields req
    (trades.foldl (outputTrade p.ledger req assets (p.outputSeq + 1))
      ⟨0, 0, [], HashMap.empty, acceptedBuilder env inputSeq req clientOrderId assets p⟩)).2.2.2
  rw [show (acceptedOutput env inputSeq req clientOrderId assets trades p).balanceEvents = _ from
    hfields, sum_events_foldl_outputTrade f perTrade trades hf]
  simp [acceptedBuilder, EngineOutputBuilder.addOrderPlacement,
    EngineOutputBuilder.addBalanceEvent, EngineOutputBuilder.setInput, EngineOutputBuilder.new,
    Ledger.getFrozen]

end Output

/-! ## Order processing on the stub ledger -/

section Processing

variable {env : Externals} {assetMap : HashMap UInt32 (UInt32 × UInt32)} {inputSeq : UInt64}
  {req : OrderRequest} {clientOrderId : String} {assets : UInt32 × UInt32} {book : OrderBook}
  {p : Parts NullLedger}

@[simp] lemma applyBatch_null (l : NullLedger) (batch : List MatchExecData) :
    applyBatch l batch = (.ok (), l) := by
  unfold applyBatch
  split <;> rfl

/-- A duplicate id is refused by the book, after the sequence number has been taken. -/
lemma processOrderWithOutput_duplicate (hassets : assetMap.get? req.symbolId = some assets)
    (hbook : bookAt p.orderBooks req.symbolId = some book)
    (hid : req.orderId ∈ book.activeOrderIds) :
    ∃ e, processOrderWithOutput env assetMap inputSeq req clientOrderId p =
      (.error e, { p with outputSeq := p.outputSeq + 1 }) := by
  have hadd := @addOrder_duplicate book req.order p.tradeIdGen req.timestamp hid
  simp only [processOrderWithOutput, hassets, NullLedger.apply_eq, hbook, hadd, setBook_self hbook]
  exact ⟨_, rfl⟩

lemma processOrderWithOutput_accepted (hassets : assetMap.get? req.symbolId = some assets)
    (hbook : bookAt p.orderBooks req.symbolId = some book) {trades : List Trade}
    (hadd : (book.addOrder req.order p.tradeIdGen req.timestamp).1 = .ok trades) :
    processOrderWithOutput env assetMap inputSeq req clientOrderId p =
      (.ok (req.orderId, acceptedOutput env inputSeq req clientOrderId assets trades p),
        { p with
          orderBooks := setBook p.orderBooks req.symbolId
            (book.addOrder req.order p.tradeIdGen req.timestamp).2.1
          tradeIdGen := (book.addOrder req.order p.tradeIdGen req.timestamp).2.2
          outputSeq := p.outputSeq + 1
          lastOutputHash :=
            (acceptedOutput env inputSeq req clientOrderId assets trades p).hash }) := by
  simp only [processOrderWithOutput, hassets, NullLedger.apply_eq, hbook, hadd, applyBatch_null]
  rfl

/-- The number of trades a call to the book reports. -/
def tradeCount (r : Except String (List Trade)) : ℕ :=
  match r with
  | .ok trades => trades.length
  | .error _ => 0

/-- Without an output: either nothing happens, or the book takes the order and every trade
takes a sequence number. -/
lemma processOrderLogic_cases (assetMap : HashMap UInt32 (UInt32 × UInt32)) (req : OrderRequest)
    (p : Parts NullLedger) :
    ((assetMap.get? req.symbolId = none ∨ bookAt p.orderBooks req.symbolId = none) ∧
        (processOrderLogic assetMap req p).2 = p) ∨
      ∃ book, bookAt p.orderBooks req.symbolId = some book ∧
        (processOrderLogic assetMap req p).2 =
          { p with
            orderBooks := setBook p.orderBooks req.symbolId
              (book.addOrder req.order p.tradeIdGen req.timestamp).2.1
            tradeIdGen := (book.addOrder req.order p.tradeIdGen req.timestamp).2.2
            outputSeq := p.outputSeq + UInt64.ofNat
              (tradeCount (book.addOrder req.order p.tradeIdGen req.timestamp).1) } := by
  cases hassets : assetMap.get? req.symbolId with
  | none =>
      refine Or.inl ⟨Or.inl rfl, ?_⟩
      simp only [processOrderLogic, hassets, NullLedger.apply_eq]
  | some assets =>
      cases hbook : bookAt p.orderBooks req.symbolId with
      | none =>
          refine Or.inl ⟨Or.inr rfl, ?_⟩
          simp only [processOrderLogic, hassets, NullLedger.apply_eq, hbook]
      | some book =>
          refine Or.inr ⟨book, rfl, ?_⟩
          cases hadd : (book.addOrder req.order p.tradeIdGen req.timestamp).1 with
          | error e =>
              simp only [processOrderLogic, hassets, NullLedger.apply_eq, hbook, hadd, tradeCount]
              simp
          | ok trades =>
              simp only [processOrderLogic, hassets, NullLedger.apply_eq, hbook, hadd, tradeCount,
                applyBatch_null, outputSeq_foldl_logicTrade]

end Processing

/-! ## The invariant of the engine -/

/-- What every reachable engine satisfies. -/
structure EngineInv (me : MatchingEngine) : Prop where
  /-- Every book satisfies the book invariant. -/
  books : ∀ s b, bookAt me.orderBooks s = some b → b.Inv
  /-- A symbol has assets exactly if it has a book. -/
  registered : ∀ s, (me.assetMap.get? s).isSome ↔ (bookAt me.orderBooks s).isSome

namespace EngineInv

variable {me : MatchingEngine}

lemma new (enableLocalWal : Bool) : EngineInv (MatchingEngine.new enableLocalWal) where
  books s b h := by simp [MatchingEngine.new, bookAt] at h
  registered s := by simp [MatchingEngine.new, bookAt]

lemma exists_assets (h : EngineInv me) {s : UInt32} {b : OrderBook}
    (hb : bookAt me.orderBooks s = some b) : ∃ assets, me.assetMap.get? s = some assets :=
  Option.isSome_iff_exists.mp ((h.registered s).mpr (by rw [hb]; rfl))

lemma exists_book (h : EngineInv me) {s : UInt32} {assets : UInt32 × UInt32}
    (hassets : me.assetMap.get? s = some assets) : ∃ b, bookAt me.orderBooks s = some b :=
  Option.isSome_iff_exists.mp ((h.registered s).mp (by rw [hassets]; rfl))

/-- Replacing one book by another that satisfies the invariant. -/
lemma withBook (h : EngineInv me) {me' : MatchingEngine} {s : UInt32} {b b' : OrderBook}
    (hb : bookAt me.orderBooks s = some b) (hb' : b'.Inv)
    (hbooks : me'.orderBooks = setBook me.orderBooks s b') (hassets : me'.assetMap = me.assetMap) :
    EngineInv me' where
  books t c hc := by
    rw [hbooks, bookAt_setBook hb] at hc
    split at hc
    · obtain rfl := Option.some.inj hc
      exact hb'
    · exact h.books t c hc
  registered t := by
    rw [hassets, hbooks, bookAt_setBook hb, h.registered t]
    split
    · rename_i hts
      rw [hts, hb]
      simp
    · rfl

end EngineInv

namespace MatchingEngine

/-! ## Placing an order with an output -/

/-- The trades of an order against a book. -/
def tradesOf (me : MatchingEngine) (book : OrderBook) (req : OrderRequest) : List Trade :=
  Reference.trades req.order req.timestamp me.tradeIdGen book.matchSeq (book.walkOf req.order).fills

/-- The output of an order the book accepts. -/
def outputOf (env : Externals) (me : MatchingEngine) (inputSeq : UInt64) (req : OrderRequest)
    (clientOrderId : String) (assets : UInt32 × UInt32) (book : OrderBook) : EngineOutput :=
  acceptedOutput env inputSeq req clientOrderId assets (me.tradesOf book req) me.parts

/-- The engine after an order its book has accepted. -/
def placed (me : MatchingEngine) (symbolId : UInt32) (book' : OrderBook) (gen : FastUlidHalfGen)
    (output : EngineOutput) (wal : Option Wal) : MatchingEngine :=
  { me with
    orderBooks := setBook me.orderBooks symbolId book'
    tradeIdGen := gen
    outputSeq := me.outputSeq + 1
    lastOutputHash := output.hash
    orderWal := wal }

/-- **How `add_order_and_build_output` ends**: with what answer and in which engine. -/
inductive Placement (env : Externals) (io : WalIo) (me : MatchingEngine) (inputSeq : UInt64)
    (req : OrderRequest) (clientOrderId : String) :
    Except OrderError (UInt64 × EngineOutput) → MatchingEngine → Prop
  /-- Refused before anything is done. -/
  | refused (e : OrderError)
      (h : me.assetMap.get? req.symbolId = none ∨ me.logWal io = .error e) :
      Placement env io me inputSeq req clientOrderId (.error e) me
  /-- Refused by the book, with the sequence number already taken. -/
  | duplicate (e : OrderError) (assets : UInt32 × UInt32) (book : OrderBook)
      (hlog : me.logWal io = .ok ())
      (hassets : me.assetMap.get? req.symbolId = some assets)
      (hbook : bookAt me.orderBooks req.symbolId = some book)
      (hid : req.orderId ∈ book.activeOrderIds) :
      Placement env io me inputSeq req clientOrderId (.error e)
        { me with outputSeq := me.outputSeq + 1 }
  /-- Accepted by the book; the answer is lost if the WAL cannot be flushed. -/
  | accepted (assets : UInt32 × UInt32) (book book' : OrderBook) (gen : FastUlidHalfGen)
      (wal : Option Wal) (r : Except OrderError (UInt64 × EngineOutput))
      (hlog : me.logWal io = .ok ())
      (hassets : me.assetMap.get? req.symbolId = some assets)
      (hbook : bookAt me.orderBooks req.symbolId = some book)
      (hid : req.orderId ∉ book.activeOrderIds)
      (hadded : Added book req.order (book.walkOf req.order) book')
      (hok : me.orderWal = none ∨ io.flush = .ok () →
        r = .ok (req.orderId, me.outputOf env inputSeq req clientOrderId assets book))
      (hlost : ¬(me.orderWal = none ∨ io.flush = .ok ()) → ∃ e, r = .error e)
      (hwal : wal = none ↔ me.orderWal = none) :
      Placement env io me inputSeq req clientOrderId r
        (me.placed req.symbolId book' gen
          (me.outputOf env inputSeq req clientOrderId assets book) wal)

lemma flushWal_cases (me : MatchingEngine) (io : WalIo) :
    ∃ r wal, me.flushWal io = (r, { me with orderWal := wal }) ∧
      (me.orderWal = none ∨ io.flush = .ok () → r = .ok ()) ∧
      (¬(me.orderWal = none ∨ io.flush = .ok ()) → ∃ e, r = .error e) ∧
      (wal = none ↔ me.orderWal = none) := by
  cases hwal : me.orderWal with
  | none =>
      refine ⟨.ok (), none, ?_, fun _ => rfl, fun h => absurd (Or.inl rfl) h, Iff.rfl⟩
      rw [flushWal, hwal]
      simp only [← hwal]
  | some wal =>
      cases hflush : io.flush with
      | error e =>
          refine ⟨.error (.other e), some wal, ?_, by simp, fun _ => ⟨_, rfl⟩, Iff.rfl⟩
          rw [flushWal, hwal]
          simp only [hflush]
          rw [← hwal]
      | ok u =>
          refine ⟨.ok (), some { wal with progressId := wal.currentSeq }, ?_, fun _ => rfl,
            fun h => absurd (Or.inr rfl) h, by simp⟩
          simp only [flushWal, hwal, hflush]

lemma placement_addOrderAndBuildOutput {me : MatchingEngine} (h : EngineInv me) (env : Externals)
    (io : WalIo) (inputSeq : UInt64) (req : OrderRequest) (clientOrderId : String) :
    Placement env io me inputSeq req clientOrderId
      (me.addOrderAndBuildOutput env io inputSeq req clientOrderId).1
      (me.addOrderAndBuildOutput env io inputSeq req clientOrderId).2 := by
  cases hassets : me.assetMap.get? req.symbolId with
  | none =>
      simp only [addOrderAndBuildOutput, hassets]
      exact .refused _ (Or.inl hassets)
  | some assets =>
      cases hlog : me.logWal io with
      | error e =>
          simp only [addOrderAndBuildOutput, hassets, hlog]
          exact .refused _ (Or.inr hlog)
      | ok u =>
          obtain ⟨book, hbook⟩ := h.exists_book hassets
          by_cases hid : req.orderId ∈ book.activeOrderIds
          · obtain ⟨e, heq⟩ := @processOrderWithOutput_duplicate env me.assetMap inputSeq req
              clientOrderId assets book me.parts hassets hbook hid
            simp only [addOrderAndBuildOutput, hassets, hlog, heq]
            exact .duplicate e assets book hlog hassets hbook hid
          · obtain ⟨htrades, hadded, -⟩ := @addOrder_spec book req.order me.tradeIdGen
              req.timestamp ((h.books _ _ hbook).sideOk _) hid
            have heq := @processOrderWithOutput_accepted env me.assetMap inputSeq req clientOrderId
              assets book me.parts hassets hbook _ htrades
            simp only [addOrderAndBuildOutput, hassets, hlog, heq]
            obtain ⟨r, wal, hflush, hok, hlost, hwal⟩ := flushWal_cases (me.withParts
              (processOrderWithOutput env me.assetMap inputSeq req clientOrderId me.parts).2) io
            rw [heq] at hflush hok hlost hwal
            simp only [hflush]
            -- the WAL of the engine handed to `flush` is the one it was called with
            change (me.orderWal = none ∨ io.flush = .ok () → r = .ok ()) at hok
            change (¬(me.orderWal = none ∨ io.flush = .ok ()) → ∃ e, r = .error e) at hlost
            cases r with
            | error e =>
                exact .accepted assets book _ _ wal _ hlog hassets hbook hid hadded
                  (fun hc => absurd (hok hc) (by simp)) (fun _ => ⟨e, rfl⟩) hwal
            | ok u =>
                refine .accepted assets book _ _ wal _ hlog hassets hbook hid hadded
                  (fun _ => rfl) (fun hc => ?_) hwal
                obtain ⟨e, he⟩ := hlost hc
                exact absurd he (by simp)

/-- A placement with an output hands its order to the book of its symbol, or leaves the books
alone. -/
lemma orderBooks_addOrderAndBuildOutput (env : Externals) (io : WalIo) (me : MatchingEngine)
    (inputSeq : UInt64) (req : OrderRequest) (clientOrderId : String) :
    (me.addOrderAndBuildOutput env io inputSeq req clientOrderId).2.orderBooks = me.orderBooks ∨
      ∃ book, bookAt me.orderBooks req.symbolId = some book ∧
        (me.addOrderAndBuildOutput env io inputSeq req clientOrderId).2.orderBooks =
          setBook me.orderBooks req.symbolId
            (book.addOrder req.order me.tradeIdGen req.timestamp).2.1 := by
  -- what the processing function leaves, which no later step changes
  have hprocess : (processOrderWithOutput env me.assetMap inputSeq req clientOrderId
      me.parts).2.orderBooks = me.orderBooks ∨
        ∃ book, bookAt me.orderBooks req.symbolId = some book ∧
          (processOrderWithOutput env me.assetMap inputSeq req clientOrderId
            me.parts).2.orderBooks = setBook me.orderBooks req.symbolId
              (book.addOrder req.order me.tradeIdGen req.timestamp).2.1 := by
    cases hassets : me.assetMap.get? req.symbolId with
    | none =>
        simp only [processOrderWithOutput, hassets]
        exact Or.inl rfl
    | some assets =>
        cases hbook : bookAt me.orderBooks req.symbolId with
        | none =>
            have hbook' : bookAt me.parts.orderBooks req.symbolId = none := hbook
            simp only [processOrderWithOutput, hassets, NullLedger.apply_eq, hbook']
            exact Or.inl rfl
        | some book =>
            refine Or.inr ⟨book, rfl, ?_⟩
            have hbook' : bookAt me.parts.orderBooks req.symbolId = some book := hbook
            simp only [processOrderWithOutput, hassets, NullLedger.apply_eq, hbook']
            split
            · rfl
            · simp only [applyBatch_null]
              rfl
  unfold addOrderAndBuildOutput
  split
  · exact Or.inl rfl
  · split
    · exact Or.inl rfl
    · dsimp only
      split
      · exact hprocess
      · obtain ⟨r, wal, hflush, -⟩ := flushWal_cases (me.withParts
          (processOrderWithOutput env me.assetMap inputSeq req clientOrderId me.parts).2) io
        rw [hflush]
        cases r <;> exact hprocess

/-! ## Placing orders without an output -/

/-- **What a path without an output does to the engine**: it takes the order into its book and
advances the sequence number once per trade, or does nothing to either. -/
structure Logged (me : MatchingEngine) (req : OrderRequest) (me' : MatchingEngine) : Prop where
  assetMap : me'.assetMap = me.assetMap
  lastOutputHash : me'.lastOutputHash = me.lastOutputHash
  wal : me'.orderWal = none ↔ me.orderWal = none
  books : (me'.orderBooks = me.orderBooks ∧ me'.outputSeq = me.outputSeq) ∨
    ∃ book, bookAt me.orderBooks req.symbolId = some book ∧
      me'.orderBooks = setBook me.orderBooks req.symbolId
        (book.addOrder req.order me.tradeIdGen req.timestamp).2.1 ∧
      me'.outputSeq = me.outputSeq + UInt64.ofNat
        (tradeCount (book.addOrder req.order me.tradeIdGen req.timestamp).1)

lemma Logged.refl (me : MatchingEngine) (req : OrderRequest) : Logged me req me :=
  ⟨rfl, rfl, Iff.rfl, Or.inl ⟨rfl, rfl⟩⟩

lemma logged_withParts (me : MatchingEngine) (req : OrderRequest) :
    Logged me req (me.withParts (processOrderLogic me.assetMap req me.parts).2) := by
  rcases processOrderLogic_cases me.assetMap req me.parts with ⟨-, heq⟩ | ⟨book, hbook, heq⟩
  · rw [heq]
    exact ⟨rfl, rfl, Iff.rfl, Or.inl ⟨rfl, rfl⟩⟩
  · rw [heq]
    exact ⟨rfl, rfl, Iff.rfl, Or.inr ⟨book, hbook, rfl, rfl⟩⟩

lemma logged_addOrder (env : Externals) (io : WalIo) (me : MatchingEngine) (req : OrderRequest) :
    Logged me req (me.addOrder env io req).2 := by
  unfold addOrder
  split
  · exact Logged.refl me req
  · split
    · exact Logged.refl me req
    · split
      · exact Logged.refl me req
      · have hlogged := logged_withParts me req
        dsimp only
        split
        · exact hlogged
        · obtain ⟨r, wal, hflush, -, -, hwal⟩ := flushWal_cases ((me.withParts
            (processOrderLogic me.assetMap req me.parts).2).updateHash env (orderHashData req)) io
          rw [hflush]
          cases r <;>
            exact ⟨hlogged.assetMap, hlogged.lastOutputHash, hwal.trans hlogged.wal, hlogged.books⟩

/-! ## Cancelling -/

/-- The engine with one book replaced, as a cancellation leaves it. -/
def replaced (me : MatchingEngine) (symbolId : UInt32) (book' : OrderBook) (stateHash : UInt64) :
    MatchingEngine :=
  { me with orderBooks := setBook me.orderBooks symbolId book', stateHash := stateHash }

/-- **How `cancel_order` ends.** -/
inductive Cancellation (me : MatchingEngine) (orderId : UInt64) :
    Except OrderError (List LedgerCommand) → MatchingEngine → Prop
  /-- Refused before a book is touched. -/
  | refused (e : OrderError) : Cancellation me orderId (.error e) me
  /-- The book does not hold the order, and at most forgets its id. -/
  | notFound (e : OrderError) (s : UInt32) (book : OrderBook)
      (hbook : bookAt me.orderBooks s = some book) (hid : ¬book.Rests orderId) :
      Cancellation me orderId (.error e)
        (me.replaced s (book.forget orderId) me.stateHash)
  /-- The order is taken out of its book, and what it held is reported for unlocking. -/
  | cancelled (s : UInt32) (assets : UInt32 × UInt32) (book book' : OrderBook) (o : Order)
      (balanceAfter version stateHash : UInt64) (update : OrderUpdate)
      (hbook : bookAt me.orderBooks s = some book) (hassets : me.assetMap.get? s = some assets)
      (ho : o ∈ book.restingOrders) (hid : o.orderId = orderId) (hremoved : Removed book o book') :
      Cancellation me orderId
        (.ok [.unlock o.userId (lockTarget o.side assets o.price o.quantity).1
          (lockTarget o.side assets o.price o.quantity).2 balanceAfter version,
          .orderUpdate update])
        (me.replaced s book' stateHash)

lemma cancellation_cancelOrder {me : MatchingEngine} (h : EngineInv me) (env : Externals)
    (io : WalIo) (symbolId : UInt32) (orderId : UInt64) :
    Cancellation me orderId (me.cancelOrder env io symbolId orderId).1
      (me.cancelOrder env io symbolId orderId).2 := by
  cases hactual : (if symbolId = 0 then me.findOrderSymbol orderId else some symbolId) with
  | none =>
      simp only [cancelOrder, hactual]
      exact .refused _
  | some s =>
      cases hlog : me.logWal io with
      | error e =>
          simp only [cancelOrder, hactual, hlog]
          exact .refused _
      | ok u =>
          cases hbook : bookAt me.orderBooks s with
          | none =>
              simp only [cancelOrder, hactual, hlog, processCancel, hbook]
              exact .refused _
          | some book =>
              obtain ⟨assets, hassets⟩ := h.exists_assets hbook
              rcases removeOrder_cases (h.books _ _ hbook) orderId with
                ⟨o, ho, hid, hok, hremoved⟩ | ⟨hnot, herr, hforget⟩
              · simp only [cancelOrder, hactual, hlog, processCancel, hbook, hok, hassets]
                exact .cancelled s assets book _ o _ _ _ _ hbook hassets ho hid hremoved
              · simp only [cancelOrder, hactual, hlog, processCancel, hbook, herr, hforget]
                exact .notFound _ s book hbook hnot

/-- The symbol whose book a cancellation goes to. -/
def cancelTarget (me : MatchingEngine) (symbolId : UInt32) (orderId : UInt64) : Option UInt32 :=
  if symbolId = 0 then me.findOrderSymbol orderId else some symbolId

/-- The cancellation is written to the log and goes to the book `b` of the symbol `s`. -/
def CancelReaches (me : MatchingEngine) (io : WalIo) (symbolId : UInt32) (orderId : UInt64)
    (s : UInt32) (b : OrderBook) : Prop :=
  me.cancelTarget symbolId orderId = some s ∧ me.logWal io = .ok () ∧
    bookAt me.orderBooks s = some b

lemma orderBooks_cancelOrder (env : Externals) (io : WalIo) (me : MatchingEngine)
    (symbolId : UInt32) (orderId : UInt64) :
    ((∀ s b, ¬me.CancelReaches io symbolId orderId s b) ∧
        (me.cancelOrder env io symbolId orderId).2.orderBooks = me.orderBooks) ∨
      ∃ s b, me.CancelReaches io symbolId orderId s b ∧
        (me.cancelOrder env io symbolId orderId).2.orderBooks =
          setBook me.orderBooks s (b.removeOrder orderId).2 := by
  cases htarget : me.cancelTarget symbolId orderId with
  | none =>
      refine Or.inl ⟨by simp [CancelReaches, htarget], ?_⟩
      rw [cancelTarget] at htarget
      simp only [cancelOrder, htarget]
  | some s =>
      have htarget' := htarget
      rw [cancelTarget] at htarget'
      cases hlog : me.logWal io with
      | error e =>
          refine Or.inl ⟨by simp [CancelReaches, hlog], ?_⟩
          simp only [cancelOrder, htarget', hlog]
      | ok u =>
          cases hbook : bookAt me.orderBooks s with
          | none =>
              refine Or.inl ⟨?_, ?_⟩
              · rintro t b ⟨ht, -, hb⟩
                obtain rfl := Option.some.inj (htarget.symm.trans ht)
                exact absurd (hbook.symm.trans hb) (by simp)
              · simp only [cancelOrder, htarget', hlog, processCancel, hbook]
          | some b =>
              refine Or.inr ⟨s, b, ⟨htarget, hlog, hbook⟩, ?_⟩
              simp only [cancelOrder, htarget', hlog, processCancel, hbook]
              -- the book is written back whatever the removal answers
              cases (b.removeOrder orderId).1 with
              | error e => rfl
              | ok o => cases me.assetMap.get? s <;> rfl

/-! ## Registering a symbol -/

/-- Growing the slots does not change which books there are. -/
lemma bookAt_append_replicate (books : List (Option OrderBook)) (n : ℕ) (s : UInt32) :
    bookAt (books ++ List.replicate n none) s = bookAt books s := by
  unfold bookAt
  by_cases h : s.toNat < books.length
  · rw [List.getElem?_append_left h]
  · rw [List.getElem?_append_right (not_lt.mp h), List.getElem?_eq_none (not_lt.mp h),
      List.getElem?_replicate]
    split <;> rfl

/-- Registration is refused, or gives a symbol without a book an empty one. -/
lemma registerSymbol_cases (me : MatchingEngine) (s : UInt32) (assets : UInt32 × UInt32) :
    ((∃ e, (me.registerSymbol s assets).1 = .error e) ∧ (me.registerSymbol s assets).2 = me) ∨
      ((me.registerSymbol s assets).1 = .ok () ∧ bookAt me.orderBooks s = none ∧
        (∀ t, bookAt (me.registerSymbol s assets).2.orderBooks t =
          if t = s then some (OrderBook.new s) else bookAt me.orderBooks t) ∧
        (me.registerSymbol s assets).2 =
          { me with
            orderBooks := (me.registerSymbol s assets).2.orderBooks
            assetMap := me.assetMap.insert s assets }) := by
  by_cases hlen : me.orderBooks.length ≤ s.toNat
  · refine Or.inr ⟨by simp [registerSymbol, hlen], ?_, fun t => ?_, by simp [registerSymbol, hlen]⟩
    · rw [bookAt, List.getElem?_eq_none hlen]
      rfl
    · simp only [registerSymbol, if_pos hlen]
      rw [bookAt_setBook_of_lt (by simp; omega), bookAt_append_replicate]
  · cases hbook : bookAt me.orderBooks s with
    | some b =>
        have heq : me.registerSymbol s assets =
            (.error s!"Symbol ID {s} is already in use", me) := by
          simp only [registerSymbol, if_neg hlen, hbook, Option.isSome_some, if_true]
        rw [heq]
        exact Or.inl ⟨⟨_, rfl⟩, rfl⟩
    | none =>
        refine Or.inr ⟨by simp [registerSymbol, hlen, hbook], rfl, fun t => ?_,
          by simp [registerSymbol, hlen, hbook]⟩
        simp only [registerSymbol, if_neg hlen, hbook, Option.isSome_none]
        exact bookAt_setBook_of_lt (not_le.mp hlen) _ t

/-! ## What holds of each book -/

/-- `P` holds of every book of the engine. -/
def EachBook (me : MatchingEngine) (P : OrderBook → Prop) : Prop :=
  ∀ s b, bookAt me.orderBooks s = some b → P b

namespace EachBook

variable {me me' : MatchingEngine} {P : OrderBook → Prop} {s : UInt32} {b b' : OrderBook}

lemma new (enableLocalWal : Bool) : EachBook (MatchingEngine.new enableLocalWal) P := by
  intro s b hb
  simp [MatchingEngine.new, bookAt] at hb

lemma withBook (h : EachBook me P) (hb : bookAt me.orderBooks s = some b) (hb' : P b')
    (hbooks : me'.orderBooks = setBook me.orderBooks s b') : EachBook me' P := by
  intro t c hc
  rw [hbooks, bookAt_setBook hb] at hc
  split at hc
  · obtain rfl := Option.some.inj hc
    exact hb'
  · exact h t c hc

lemma registerSymbol (h : EachBook me P) (assets : UInt32 × UInt32)
    (hnew : P (OrderBook.new s)) : EachBook (me.registerSymbol s assets).2 P := by
  rcases me.registerSymbol_cases s assets with ⟨-, heq⟩ | ⟨-, -, hbooks, -⟩
  · rwa [heq]
  · intro t c hc
    rw [hbooks] at hc
    split at hc
    · obtain rfl := Option.some.inj hc
      exact hnew
    · exact h t c hc

end EachBook

end MatchingEngine

/-! ## Every call keeps the invariant -/

namespace EngineInv

open MatchingEngine

variable {me me' : MatchingEngine}

lemma placement (h : EngineInv me) {env : Externals} {io : WalIo} {inputSeq : UInt64}
    {req : OrderRequest} {clientOrderId : String}
    {r : Except OrderError (UInt64 × EngineOutput)}
    (hp : Placement env io me inputSeq req clientOrderId r me') : EngineInv me' := by
  cases hp with
  | refused e _ => exact h
  | duplicate e assets book _ _ _ _ => exact ⟨h.books, h.registered⟩
  | accepted assets book book' gen wal r _ _ hbook hid hadded =>
      exact h.withBook hbook ((h.books _ _ hbook).added hadded hid) rfl rfl

lemma logged (h : EngineInv me) {req : OrderRequest} (hl : Logged me req me') : EngineInv me' := by
  rcases hl.books with ⟨heq, -⟩ | ⟨book, hbook, heq, -⟩
  · refine ⟨fun s b hb => h.books s b (heq ▸ hb), fun s => ?_⟩
    rw [hl.assetMap, heq]
    exact h.registered s
  · exact h.withBook hbook ((h.books _ _ hbook).addOrder _ _ _) heq hl.assetMap

lemma cancellation (h : EngineInv me) {orderId : UInt64}
    {r : Except OrderError (List LedgerCommand)} (hc : Cancellation me orderId r me') :
    EngineInv me' := by
  cases hc with
  | refused e => exact h
  | notFound e s book hbook hid => exact h.withBook hbook ((h.books _ _ hbook).forget hid) rfl rfl
  | cancelled s assets book book' o _ _ _ _ hbook _ _ _ hremoved =>
      exact h.withBook hbook ((h.books _ _ hbook).removed hremoved) rfl rfl

lemma registerSymbol (h : EngineInv me) (s : UInt32) (assets : UInt32 × UInt32) :
    EngineInv (me.registerSymbol s assets).2 := by
  rcases me.registerSymbol_cases s assets with ⟨-, heq⟩ | ⟨-, hnone, hbooks, heq⟩
  · rwa [heq]
  · refine ⟨fun t b hb => ?_, fun t => ?_⟩
    · rw [hbooks] at hb
      split at hb
      · obtain rfl := Option.some.inj hb
        exact inv_new s
      · exact h.books t b hb
    · rw [hbooks, heq, HashMap.get?_insert]
      split
      · simp
      · exact h.registered t

lemma addOrderBatch (h : EngineInv me) (reqs : List OrderRequest) :
    EngineInv (me.addOrderBatch reqs).2 := by
  induction reqs generalizing me with
  | nil => exact h
  | cons req reqs ih => exact ih (h.logged (me.logged_withParts req))

lemma step (env : Externals) (me : MatchingEngine) (c : MatchingEngine.Call)
    (h : EngineInv me) :
    EngineInv ((MatchingEngine.machine env).step me c).1 := by
  cases c with
  | registerSymbol s assets => exact h.registerSymbol s assets
  | addOrderAndBuildOutput io inputSeq req cid =>
      exact h.placement (placement_addOrderAndBuildOutput h env io inputSeq req cid)
  | addOrder io req => exact h.logged (logged_addOrder env io me req)
  | addOrderBatch reqs => exact h.addOrderBatch reqs
  | cancelOrder io s orderId => exact h.cancellation (cancellation_cancelOrder h env io s orderId)

end EngineInv

end ExchangeCore
