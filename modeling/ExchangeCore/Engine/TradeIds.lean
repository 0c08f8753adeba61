import ExchangeCore.Engine.BalanceEvents

/-!
# Trade ids

One generator gives the trades of all books their ids, from timestamps that come with the orders;
every book counts its own trades in `match_seq`.  `executed` lists the trades of a call with the
symbol of their book, whichever way the order comes in.

What a call does to the generator and the counters is an `Advance`, a log of stamped trades and the
stamps afterwards.  Along every advance the ids grow, whatever the timestamps are, as long as they
do not wrap around (`Advance.ids`).  Below `2 ^ 47` a timestamp leaves its block room for `2 ^ 62`
trades (`tradeIds_increasing`).
-/

namespace ExchangeCore

open OrderBook Reference

/-! ## Stamps -/

/-- The generator and, for each symbol, the match counter of its book. -/
@[ext] structure Stamps where
  gen : FastUlidHalfGen
  seqOf : UInt32 → UInt64

namespace Stamps

/-- A log of stamped trades, with the stamps before and after: the trades of one order at a time, at
timestamps below `2 ^ 47`. -/
inductive Advance : Stamps → List (UInt32 × Trade) → Stamps → Prop
  | none (st : Stamps) : Advance st [] st
  | order (st : Stamps) (symbolId : UInt32) (taker : Order) (timestamp : UInt64)
      (fills : List (Order × UInt64)) (hts : timestamp.toNat < 2 ^ 47) :
      Advance st
        ((trades taker timestamp st.gen (st.seqOf symbolId) fills).map (Prod.mk symbolId))
        ⟨(tradeIds timestamp fills.length st.gen).2,
          Function.update st.seqOf symbolId (st.seqOf symbolId + UInt64.ofNat fills.length)⟩
  | trans {st st₁ st₂ : Stamps} {log log₁ : List (UInt32 × Trade)} (h : Advance st log st₁)
      (h₁ : Advance st₁ log₁ st₂) : Advance st (log ++ log₁) st₂

/-- The ids of a log. -/
def ids (log : List (UInt32 × Trade)) : List ℕ := log.map (fun e => e.2.tradeId.toNat)

/-- The match counters in a log of the trades of one book. -/
def seqs (symbolId : UInt32) (log : List (UInt32 × Trade)) : List ℕ :=
  (log.filter (fun e => e.1 = symbolId)).map (fun e => e.2.matchSeq.toNat)

/-- A list increases strictly, from above `low` up to `high`. -/
structure Climbs (low : ℕ) (xs : List ℕ) (high : ℕ) : Prop where
  pairwise : xs.Pairwise (· < ·)
  above : ∀ x ∈ xs, low < x
  below : ∀ x ∈ xs, x ≤ high
  le : low ≤ high

namespace Climbs

variable {low mid high : ℕ} {xs ys : List ℕ}

lemma nil (low : ℕ) : Climbs low [] low := ⟨.nil, by simp, by simp, le_refl low⟩

lemma cons (hlt : low < mid) (h : Climbs mid xs high) : Climbs low (mid :: xs) high := by
  refine ⟨List.pairwise_cons.mpr ⟨h.above, h.pairwise⟩, fun x hx => ?_, fun x hx => ?_,
    hlt.le.trans h.le⟩
  · rcases List.mem_cons.mp hx with rfl | hx
    · exact hlt
    · exact hlt.trans (h.above x hx)
  · rcases List.mem_cons.mp hx with rfl | hx
    · exact h.le
    · exact h.below x hx

lemma append (h : Climbs low xs mid) (h' : Climbs mid ys high) : Climbs low (xs ++ ys) high := by
  refine ⟨List.pairwise_append.mpr ⟨h.pairwise, h'.pairwise, fun x hx y hy =>
    (h.below x hx).trans_lt (h'.above y hy)⟩, fun x hx => ?_, fun x hx => ?_, h.le.trans h'.le⟩
  · rcases List.mem_append.mp hx with hx | hx
    · exact h.above x hx
    · exact h.le.trans_lt (h'.above x hx)
  · rcases List.mem_append.mp hx with hx | hx
    · exact (h.below x hx).trans h'.le
    · exact h'.below x hx

end Climbs

/-- One id: above the last one, and at most one above it or at the start of a block. -/
lemma generateFromTs_spec (g : FastUlidHalfGen) {timestamp : UInt64} (room : ℕ)
    (hts : timestamp.toNat < 2 ^ 47) (hblock : 2 ^ 63 ≤ room) (hlast : g.lastVal.toNat ≤ room)
    (hfits : room + 1 < 2 ^ 64) :
    (g.generateFromTs timestamp).1 = (g.generateFromTs timestamp).2.lastVal ∧
      g.lastVal.toNat < (g.generateFromTs timestamp).1.toNat ∧
        (g.generateFromTs timestamp).1.toNat ≤ room + 1 := by
  have hshift : (timestamp <<< 16).toNat = timestamp.toNat * 2 ^ 16 := by
    rw [Word.toNat_shiftLeft_eq _ 16 16 rfl (by decide)]
    omega
  have hsucc : (g.lastVal + 1).toNat = g.lastVal.toNat + 1 := by
    rw [UInt64.toNat_add, UInt64.toNat_one]
    exact Nat.mod_eq_of_lt (by omega)
  rw [FastUlidHalfGen.generateFromTs]
  split
  · rename_i hahead
    have hlt := UInt64.lt_iff_toNat_lt.mp hahead
    refine ⟨rfl, hlt, ?_⟩
    change (timestamp <<< 16).toNat ≤ room + 1
    omega
  · refine ⟨rfl, ?_, ?_⟩
    · change g.lastVal.toNat < (g.lastVal + 1).toNat
      omega
    · change (g.lastVal + 1).toNat ≤ room + 1
      omega

lemma ids_trades (taker : Order) {timestamp : UInt64} (hts : timestamp.toNat < 2 ^ 47)
    (symbolId : UInt32) (fills : List (Order × UInt64)) (g : FastUlidHalfGen) (seq : UInt64)
    (room : ℕ) (hblock : 2 ^ 63 ≤ room) (hlast : g.lastVal.toNat ≤ room)
    (hfits : room + fills.length < 2 ^ 64) :
    Climbs g.lastVal.toNat (ids ((trades taker timestamp g seq fills).map (Prod.mk symbolId)))
        (tradeIds timestamp fills.length g).2.lastVal.toNat ∧
      (tradeIds timestamp fills.length g).2.lastVal.toNat ≤ room + fills.length := by
  induction fills generalizing g seq room with
  | nil => exact ⟨Climbs.nil _, hlast⟩
  | cons f fills ih =>
      rw [List.length_cons] at hfits ⊢
      obtain ⟨hid, habove, hbelow⟩ := generateFromTs_spec g room hts hblock hlast (by omega)
      rw [hid] at habove hbelow
      obtain ⟨hclimbs, hle⟩ := ih (g.generateFromTs timestamp).2 (seq + 1) (room + 1)
        (by omega) hbelow (by omega)
      refine ⟨?_, ?_⟩
      · have hcons : ids ((trades taker timestamp g seq (f :: fills)).map (Prod.mk symbolId)) =
            (g.generateFromTs timestamp).1.toNat ::
              ids ((trades taker timestamp (g.generateFromTs timestamp).2 (seq + 1) fills).map
                (Prod.mk symbolId)) := by
          rw [trades]
          generalize g.generateFromTs timestamp = r
          rfl
        rw [hcons, hid]
        exact hclimbs.cons habove
      · refine hle.trans ?_
        omega

/-- The match counters of one order. -/
lemma seqs_trades (taker : Order) (timestamp : UInt64) (symbolId : UInt32)
    (fills : List (Order × UInt64)) (g : FastUlidHalfGen) (seq : UInt64)
    (hfits : seq.toNat + fills.length < 2 ^ 64) :
    Climbs seq.toNat (seqs symbolId ((trades taker timestamp g seq fills).map (Prod.mk symbolId)))
        (seq + UInt64.ofNat fills.length).toNat ∧
      (seq + UInt64.ofNat fills.length).toNat = seq.toNat + fills.length := by
  induction fills generalizing g seq with
  | nil =>
      have hzero : seq + UInt64.ofNat ([] : List (Order × UInt64)).length = seq :=
        UInt64.add_zero seq
      rw [hzero]
      exact ⟨Climbs.nil _, rfl⟩
  | cons f fills ih =>
      rw [List.length_cons] at hfits ⊢
      have hsucc : (seq + 1).toNat = seq.toNat + 1 := by
        rw [UInt64.toNat_add, UInt64.toNat_one]
        exact Nat.mod_eq_of_lt (by omega)
      obtain ⟨hclimbs, hhigh⟩ := ih (g.generateFromTs timestamp).2 (seq + 1) (by omega)
      rw [seq_succ] at hclimbs hhigh
      refine ⟨?_, by omega⟩
      have hcons : seqs symbolId ((trades taker timestamp g seq (f :: fills)).map
          (Prod.mk symbolId)) = (seq + 1).toNat ::
            seqs symbolId ((trades taker timestamp (g.generateFromTs timestamp).2 (seq + 1)
              fills).map (Prod.mk symbolId)) := by
        simp [seqs, trades]
      rw [hcons]
      exact hclimbs.cons (by omega)

/-- The match counters of the trades of another book. -/
lemma seqs_other {symbolId other : UInt32} (hne : symbolId ≠ other) (ts : List Trade) :
    seqs other (ts.map (Prod.mk symbolId)) = [] := by
  rw [seqs, List.filter_eq_nil_iff.mpr, List.map_nil]
  simp [hne]

lemma Advance.ids {st st' : Stamps} {log : List (UInt32 × Trade)} (h : Advance st log st')
    (room : ℕ) (hblock : 2 ^ 63 ≤ room) (hlast : st.gen.lastVal.toNat ≤ room)
    (hfits : room + log.length < 2 ^ 64) :
    Climbs st.gen.lastVal.toNat (Stamps.ids log) st'.gen.lastVal.toNat ∧
      st'.gen.lastVal.toNat ≤ room + log.length := by
  induction h generalizing room with
  | none st => exact ⟨Climbs.nil _, hlast⟩
  | order st symbolId taker timestamp fills hts =>
      rw [List.length_map, length_trades] at hfits ⊢
      exact ids_trades taker hts symbolId fills st.gen _ room hblock hlast hfits
  | trans _ _ ih ih₁ =>
      rw [List.length_append] at hfits ⊢
      obtain ⟨hclimbs, hle⟩ := ih room hblock hlast (by omega)
      obtain ⟨hclimbs₁, hle₁⟩ := ih₁ _ (by omega) hle (by omega)
      refine ⟨?_, by omega⟩
      rw [Stamps.ids, List.map_append]
      exact hclimbs.append hclimbs₁

/-- So do the match counters of each book. -/
lemma Advance.seqs {st st' : Stamps} {log : List (UInt32 × Trade)} (h : Advance st log st')
    (symbolId : UInt32) (hfits : (st.seqOf symbolId).toNat + log.length < 2 ^ 64) :
    Climbs (st.seqOf symbolId).toNat (Stamps.seqs symbolId log) (st'.seqOf symbolId).toNat ∧
      (st'.seqOf symbolId).toNat ≤ (st.seqOf symbolId).toNat + log.length := by
  induction h with
  | none st => exact ⟨Climbs.nil _, le_refl _⟩
  | order st symbolId' taker timestamp fills hts =>
      rw [List.length_map, length_trades] at hfits ⊢
      by_cases hsame : symbolId = symbolId'
      · subst hsame
        obtain ⟨hclimbs, hhigh⟩ := seqs_trades taker timestamp symbolId fills st.gen
          (st.seqOf symbolId) hfits
        simp only [Function.update_self]
        exact ⟨hclimbs, hhigh.le⟩
      · simp only [Function.update_of_ne hsame, seqs_other (Ne.symm hsame)]
        exact ⟨Climbs.nil _, Nat.le_add_right _ _⟩
  | trans _ _ ih ih₁ =>
      rw [List.length_append] at hfits ⊢
      obtain ⟨hclimbs, hle⟩ := ih (by omega)
      obtain ⟨hclimbs₁, hle₁⟩ := ih₁ (by omega)
      refine ⟨?_, by omega⟩
      rw [Stamps.seqs, List.filter_append, List.map_append]
      exact hclimbs.append hclimbs₁

end Stamps

/-! ## The trades of a run -/

namespace MatchingEngine

variable {me me' : MatchingEngine}

/-- The generator and the match counters of the books; 0 where there is no book. -/
def stamps (me : MatchingEngine) : Stamps where
  gen := me.tradeIdGen
  seqOf s := (bookAt me.orderBooks s).elim 0 OrderBook.matchSeq

/-- The trades `add_order` of the book reports for an order, if there is a book. -/
def bookTrades (me : MatchingEngine) (req : OrderRequest) : List (UInt32 × Trade) :=
  match bookAt me.orderBooks req.symbolId with
  | none => []
  | some book =>
      match (book.addOrder req.order me.tradeIdGen req.timestamp).1 with
      | .error _ => []
      | .ok trades => trades.map (Prod.mk req.symbolId)

/-- The trades of an order that is handed to `process_order_logic`. -/
def processedTrades (me : MatchingEngine) (req : OrderRequest) : List (UInt32 × Trade) :=
  match me.assetMap.get? req.symbolId with
  | none => []
  | some _ => me.bookTrades req

/-- The trades of an order that has to be logged first. -/
def loggedTrades (me : MatchingEngine) (io : WalIo) (req : OrderRequest) :
    List (UInt32 × Trade) :=
  match me.logWal io with
  | .error _ => []
  | .ok () => me.processedTrades req

/-- The trades of a batch. -/
def batchTrades (me : MatchingEngine) : List OrderRequest → List (UInt32 × Trade)
  | [] => []
  | req :: reqs => me.processedTrades req ++ batchTrades (me.processOrderAtomic req).2 reqs

/-- The trades executed in a call, each with the symbol of its book.  An order whose id is active is
refused by the book, if not before. -/
def executed (me : MatchingEngine) : Call → List (UInt32 × Trade)
  | .registerSymbol _ _ => []
  | .addOrderAndBuildOutput io _ req _ => me.loggedTrades io req
  | .addOrder io req => me.loggedTrades io req
  | .addOrderBatch reqs => me.batchTrades reqs
  | .cancelOrder _ _ _ => []

/-- The trades executed in a run, in order. -/
def executedIn (env : Externals) (me : MatchingEngine) : List Call → List (UInt32 × Trade)
  | [] => []
  | c :: calls => me.executed c ++ executedIn env ((machine env).step me c).1 calls

/-- The orders of a call come with timestamps below `2 ^ 47`. -/
def TimestampsFit : Call → Prop
  | .addOrderAndBuildOutput _ _ req _ => req.timestamp.toNat < 2 ^ 47
  | .addOrder _ req => req.timestamp.toNat < 2 ^ 47
  | .addOrderBatch reqs => ∀ req ∈ reqs, req.timestamp.toNat < 2 ^ 47
  | _ => True

/-! ## One call -/

lemma stamps_congr (hbooks : me'.orderBooks = me.orderBooks)
    (hgen : me'.tradeIdGen = me.tradeIdGen) : me'.stamps = me.stamps := by
  rw [stamps, stamps, hbooks, hgen]

lemma stamps_withBook {s : UInt32} {b b' : OrderBook} {gen : FastUlidHalfGen}
    (hbook : bookAt me.orderBooks s = some b) (hbooks : me'.orderBooks = setBook me.orderBooks s b')
    (hgen : me'.tradeIdGen = gen) :
    me'.stamps = ⟨gen, Function.update me.stamps.seqOf s b'.matchSeq⟩ := by
  refine Stamps.ext hgen (funext fun t => ?_)
  simp only [stamps, hbooks, bookAt_setBook hbook, Function.update_apply]
  split
  · rfl
  · rfl

lemma seqOf_stamps {s : UInt32} {b : OrderBook} (hbook : bookAt me.orderBooks s = some b) :
    me.stamps.seqOf s = b.matchSeq := by
  simp only [stamps, hbook, Option.elim_some]

lemma bookTrades_of_ok {req : OrderRequest} {book : OrderBook} {trades : List Trade}
    (hbook : bookAt me.orderBooks req.symbolId = some book)
    (hok : (book.addOrder req.order me.tradeIdGen req.timestamp).1 = .ok trades) :
    me.bookTrades req = trades.map (Prod.mk req.symbolId) := by
  simp only [bookTrades, hbook, hok]

lemma bookTrades_of_active {req : OrderRequest} {book : OrderBook}
    (hbook : bookAt me.orderBooks req.symbolId = some book)
    (hid : req.orderId ∈ book.activeOrderIds) : me.bookTrades req = [] := by
  have hadd := @addOrder_duplicate book req.order me.tradeIdGen req.timestamp hid
  simp only [bookTrades, hbook, hadd]

lemma advance_bookTrades (h : EngineInv me) {req : OrderRequest} {book : OrderBook}
    (hbook : bookAt me.orderBooks req.symbolId = some book)
    (hts : req.timestamp.toNat < 2 ^ 47)
    (hgen : me'.tradeIdGen = (book.addOrder req.order me.tradeIdGen req.timestamp).2.2)
    (hbooks : me'.orderBooks = setBook me.orderBooks req.symbolId
      (book.addOrder req.order me.tradeIdGen req.timestamp).2.1) :
    Stamps.Advance me.stamps (me.bookTrades req) me'.stamps := by
  by_cases hid : req.order.orderId ∈ book.activeOrderIds
  · rw [addOrder_duplicate me.tradeIdGen req.timestamp hid] at hgen hbooks
    rw [bookTrades_of_active hbook hid,
      stamps_congr (hbooks.trans (setBook_self hbook)) hgen]
    exact .none _
  · obtain ⟨htrades, hadded, hids⟩ :=
      addOrder_spec me.tradeIdGen req.timestamp ((h.books _ _ hbook).sideOk _) hid
    rw [bookTrades_of_ok hbook htrades, stamps_withBook hbook hbooks hgen, hids, hadded.matchSeq,
      ← seqOf_stamps hbook]
    exact .order me.stamps req.symbolId req.order req.timestamp _ hts

lemma advance_withParts (h : EngineInv me) {req : OrderRequest}
    (hts : req.timestamp.toNat < 2 ^ 47) :
    Stamps.Advance me.stamps (me.processedTrades req)
      (me.withParts (processOrderLogic me.assetMap req me.parts).2).stamps := by
  rcases processOrderLogic_cases me.assetMap req me.parts with ⟨hnone, heq⟩ | ⟨book, hbook, heq⟩
  · have hempty : me.processedTrades req = [] := by
      have hassets : me.assetMap.get? req.symbolId = none := by
        rcases hnone with hassets | hbook
        · exact hassets
        · rcases hassets : me.assetMap.get? req.symbolId with _ | assets
          · rfl
          · obtain ⟨b, hb⟩ := h.exists_book hassets
            exact absurd (hbook.symm.trans hb) (by simp)
      rw [processedTrades, hassets]
    rw [heq, hempty]
    exact .none _
  · obtain ⟨assets, hassets⟩ := h.exists_assets hbook
    rw [processedTrades, hassets, heq]
    exact advance_bookTrades h hbook hts rfl rfl

lemma stamps_flushWal (me : MatchingEngine) (io : WalIo) :
    (me.flushWal io).2.stamps = me.stamps := by
  obtain ⟨r, wal, hflush, -⟩ := flushWal_cases me io
  rw [hflush]
  rfl

lemma advance_addOrder (h : EngineInv me) (env : Externals) (io : WalIo) {req : OrderRequest}
    (hts : req.timestamp.toNat < 2 ^ 47) :
    Stamps.Advance me.stamps (me.loggedTrades io req) (me.addOrder env io req).2.stamps := by
  rcases hassets : me.assetMap.get? req.symbolId with _ | assets
  · have hempty : me.loggedTrades io req = [] := by
      rw [loggedTrades, processedTrades, hassets]
      cases me.logWal io <;> rfl
    simp only [addOrder, hassets, hempty]
    exact .none _
  · obtain ⟨book, hbook⟩ := h.exists_book hassets
    by_cases hactive : req.orderId ∈ book.activeOrderIds
    · -- refused before the book is reached; the book would refuse it as well
      have hempty : me.loggedTrades io req = [] := by
        simp only [loggedTrades, processedTrades, hassets, bookTrades_of_active hbook hactive]
        cases me.logWal io <;> rfl
      have hrefused : (bookAt me.orderBooks req.symbolId).any (·.hasOrder req.orderId) = true := by
        rw [hbook]
        exact decide_eq_true hactive
      simp only [addOrder, hassets, hrefused, if_true, hempty]
      exact .none _
    · have haccepted :
          (bookAt me.orderBooks req.symbolId).any (·.hasOrder req.orderId) = false := by
        rw [hbook]
        exact decide_eq_false hactive
      rcases hlog : me.logWal io with e | ⟨⟨⟩⟩
      · simp only [addOrder, hassets, haccepted, Bool.false_eq_true, if_false, hlog, loggedTrades]
        exact .none _
      · simp only [addOrder, hassets, haccepted, Bool.false_eq_true, if_false, hlog, loggedTrades]
        have hadvance := advance_withParts h hts
        -- the id generator has advanced before the flush, whether or not that succeeds
        split
        · exact hadvance
        · have hflush := stamps_flushWal ((me.withParts (processOrderLogic me.assetMap req
            me.parts).2).updateHash env (orderHashData req)) io
          split
          · rename_i hresult
            rw [hresult] at hflush
            exact hflush ▸ hadvance
          · rename_i hresult
            rw [hresult] at hflush
            exact hflush ▸ hadvance

lemma processOrderWithOutput_book (h : EngineInv me) (env : Externals) (inputSeq : UInt64)
    {req : OrderRequest} (clientOrderId : String) {assets : UInt32 × UInt32} {book : OrderBook}
    (hassets : me.assetMap.get? req.symbolId = some assets)
    (hbook : bookAt me.orderBooks req.symbolId = some book) :
    let p := (processOrderWithOutput env me.assetMap inputSeq req clientOrderId me.parts).2
    p.tradeIdGen = (book.addOrder req.order me.tradeIdGen req.timestamp).2.2 ∧
      p.orderBooks = setBook me.orderBooks req.symbolId
        (book.addOrder req.order me.tradeIdGen req.timestamp).2.1 := by
  by_cases hid : req.orderId ∈ book.activeOrderIds
  · obtain ⟨e, heq⟩ := @processOrderWithOutput_duplicate env me.assetMap inputSeq req
      clientOrderId assets book me.parts hassets hbook hid
    have hadd := @addOrder_duplicate book req.order me.tradeIdGen req.timestamp hid
    rw [heq, hadd]
    exact ⟨rfl, (setBook_self hbook).symm⟩
  · obtain ⟨htrades, -, -⟩ := @addOrder_spec book req.order me.tradeIdGen
      req.timestamp ((h.books _ _ hbook).sideOk _) hid
    rw [@processOrderWithOutput_accepted env me.assetMap inputSeq req clientOrderId
      assets book me.parts hassets hbook _ htrades]
    exact ⟨rfl, rfl⟩

lemma advance_addOrderAndBuildOutput (h : EngineInv me) (env : Externals) (io : WalIo)
    (inputSeq : UInt64) {req : OrderRequest} (clientOrderId : String)
    (hts : req.timestamp.toNat < 2 ^ 47) :
    Stamps.Advance me.stamps (me.loggedTrades io req)
      (me.addOrderAndBuildOutput env io inputSeq req clientOrderId).2.stamps := by
  rcases hassets : me.assetMap.get? req.symbolId with _ | assets
  · have hempty : me.loggedTrades io req = [] := by
      rw [loggedTrades, processedTrades, hassets]
      cases me.logWal io <;> rfl
    simp only [addOrderAndBuildOutput, hassets, hempty]
    exact .none _
  · obtain ⟨book, hbook⟩ := h.exists_book hassets
    rcases hlog : me.logWal io with e | ⟨⟨⟩⟩
    · simp only [addOrderAndBuildOutput, hassets, hlog, loggedTrades]
      exact .none _
    · obtain ⟨hgen, hbooks⟩ :=
        processOrderWithOutput_book h env inputSeq clientOrderId hassets hbook
      have hadvance : Stamps.Advance me.stamps (me.bookTrades req) (me.withParts
          (processOrderWithOutput env me.assetMap inputSeq req clientOrderId
            me.parts).2).stamps := advance_bookTrades h hbook hts hgen hbooks
      have hflush := stamps_flushWal (me.withParts (processOrderWithOutput env me.assetMap inputSeq
        req clientOrderId me.parts).2) io
      simp only [addOrderAndBuildOutput, hassets, hlog, loggedTrades, processedTrades]
      split
      · exact hadvance
      · split
        · rename_i hresult
          rw [hresult] at hflush
          exact hflush ▸ hadvance
        · rename_i hresult
          rw [hresult] at hflush
          exact hflush ▸ hadvance

lemma advance_addOrderBatch (h : EngineInv me) {reqs : List OrderRequest}
    (hts : ∀ req ∈ reqs, req.timestamp.toNat < 2 ^ 47) :
    Stamps.Advance me.stamps (me.batchTrades reqs) (me.addOrderBatch reqs).2.stamps := by
  induction reqs generalizing me with
  | nil => exact .none _
  | cons req reqs ih =>
      obtain ⟨hfirst, hrest⟩ := List.forall_mem_cons.mp hts
      exact (advance_withParts h hfirst).trans (ih (h.logged (me.logged_withParts req)) hrest)

/-- A cancellation does not count. -/
lemma stamps_cancelOrder (h : EngineInv me) (env : Externals) (io : WalIo) (symbolId : UInt32)
    (orderId : UInt64) : (me.cancelOrder env io symbolId orderId).2.stamps = me.stamps := by
  have hc := cancellation_cancelOrder h env io symbolId orderId
  generalize (me.cancelOrder env io symbolId orderId).1 = r at hc
  generalize (me.cancelOrder env io symbolId orderId).2 = me' at hc
  -- the book that is replaced keeps its counter
  have hkept : ∀ {s : UInt32} {b b' : OrderBook} {hash : UInt64},
      bookAt me.orderBooks s = some b → b'.matchSeq = b.matchSeq →
        (me.replaced s b' hash).stamps = me.stamps := by
    intro s b b' hash hbook hseq
    refine (@stamps_withBook me (me.replaced s b' hash) s b b' me.tradeIdGen hbook rfl rfl).trans ?_
    rw [hseq, ← seqOf_stamps hbook, Function.update_eq_self]
    rfl
  cases hc with
  | refused e => rfl
  | notFound e s book hbook hid => exact hkept hbook rfl
  | cancelled s assets book book' o _ _ _ _ hbook _ _ _ hremoved =>
      exact hkept hbook hremoved.matchSeq

lemma stamps_registerSymbol (me : MatchingEngine) (s : UInt32) (assets : UInt32 × UInt32) :
    (me.registerSymbol s assets).2.stamps = me.stamps := by
  rcases me.registerSymbol_cases s assets with ⟨-, heq⟩ | ⟨-, hnone, hbooks, heq⟩
  · rw [heq]
  · refine Stamps.ext (by rw [heq]; rfl) (funext fun t => ?_)
    simp only [stamps, hbooks]
    split
    · rename_i hts
      rw [hts, hnone]
      rfl
    · rfl

lemma advance_step (h : EngineInv me) (env : Externals) {c : Call} (hts : TimestampsFit c) :
    Stamps.Advance me.stamps (me.executed c) ((machine env).step me c).1.stamps := by
  cases c with
  | registerSymbol s assets =>
      exact (stamps_registerSymbol me s assets).symm ▸ Stamps.Advance.none me.stamps
  | addOrderAndBuildOutput io inputSeq req cid =>
      exact advance_addOrderAndBuildOutput h env io inputSeq cid hts
  | addOrder io req => exact advance_addOrder h env io hts
  | addOrderBatch reqs => exact advance_addOrderBatch h hts
  | cancelOrder io s orderId =>
      exact (stamps_cancelOrder h env io s orderId).symm ▸ Stamps.Advance.none me.stamps

lemma advance_run (h : EngineInv me) (env : Externals) {calls : List Call}
    (hts : ∀ c ∈ calls, TimestampsFit c) :
    Stamps.Advance me.stamps (executedIn env me calls) ((machine env).run me calls).stamps := by
  induction calls generalizing me with
  | nil => exact .none _
  | cons c calls ih =>
      obtain ⟨hfirst, hrest⟩ := List.forall_mem_cons.mp hts
      exact (advance_step h env hfirst).trans (ih (EngineInv.step env me c h) hrest)

end MatchingEngine

open MatchingEngine

/-- **Trade ids increase.**  In every run of an engine with fewer than `2 ^ 62` trades, whose orders
come with timestamps below `2 ^ 47` in any order, the ids of all trades increase strictly in the
order of execution, and so do the match counters of each book's trades. -/
theorem tradeIds_increasing (env : Externals) (enableLocalWal : Bool)
    (calls : List MatchingEngine.Call) (hts : ∀ c ∈ calls, TimestampsFit c)
    (hcount : (executedIn env (MatchingEngine.new enableLocalWal) calls).length < 2 ^ 62) :
    ((executedIn env (MatchingEngine.new enableLocalWal) calls).map
        (fun e => e.2.tradeId)).Pairwise (· < ·) ∧
      ∀ symbolId, (((executedIn env (MatchingEngine.new enableLocalWal) calls).filter
        (fun e => e.1 = symbolId)).map (fun e => e.2.matchSeq)).Pairwise (· < ·) := by
  have hadvance := advance_run (EngineInv.new enableLocalWal) env hts
  constructor
  · have hids := (hadvance.ids (2 ^ 63) (le_refl _) (Nat.zero_le _) (by omega)).1.pairwise
    rw [Stamps.ids, List.pairwise_map] at hids
    rw [List.pairwise_map]
    exact hids.imp (fun h => UInt64.lt_iff_toNat_lt.mpr h)
  · intro symbolId
    have hseqs := (hadvance.seqs symbolId (show 0 + _ < 2 ^ 64 by omega)).1.pairwise
    rw [Stamps.seqs, List.pairwise_map] at hseqs
    rw [List.pairwise_map]
    exact hseqs.imp (fun h => UInt64.lt_iff_toNat_lt.mpr h)

/-- A limit order for a symbol at a time. -/
def timedRequest (symbolId : UInt32) (orderId : UInt64) (side : Side) (timestamp : UInt64) :
    OrderRequest :=
  { limitRequest orderId 7 side 100 5 with symbolId := symbolId, timestamp := timestamp }

/-- A trade in each of two books, the second order with an earlier timestamp than the first. -/
def twoBooks : List MatchingEngine.Call :=
  [.registerSymbol 1 (10, 20), .registerSymbol 2 (30, 20),
    .addOrderBatch [timedRequest 1 1 .sell 9, timedRequest 2 1 .sell 9],
    .addOrder .healthy (timedRequest 1 2 .buy 5),
    .addOrderAndBuildOutput .healthy 1 (timedRequest 2 2 .buy 3) "a"]

theorem tradeIds_increasing_twoBooks :
    let env : Externals := ⟨fun _ => 0, fun _ _ => 0, fun _ => 0, fun _ => []⟩
    let log := executedIn env (MatchingEngine.new false) twoBooks
    log.map (fun e => e.2.tradeId) = [0x50000, 0x50001] ∧
      (log.map (fun e => e.2.tradeId)).Pairwise (· < ·) := by
  intro env log
  have hlog : log.map (fun e => e.2.tradeId) = [0x50000, 0x50001] := by decide +kernel
  have htimes : ∀ c ∈ twoBooks, TimestampsFit c := by
    intro c hc
    simp only [twoBooks, List.mem_cons, List.not_mem_nil, or_false] at hc
    rcases hc with rfl | rfl | rfl | rfl | rfl
    · trivial
    · trivial
    · exact List.forall_mem_cons.mpr ⟨by decide, List.forall_mem_cons.mpr ⟨by decide, by simp⟩⟩
    · exact (by decide : (5 : UInt64).toNat < 2 ^ 47)
    · exact (by decide : (3 : UInt64).toNat < 2 ^ 47)
  have hlength : (executedIn env (MatchingEngine.new false) twoBooks).length = 2 := by
    rw [← List.length_map (fun e : UInt32 × Trade => e.2.tradeId), hlog]
    rfl
  have hcount : (executedIn env (MatchingEngine.new false) twoBooks).length < 2 ^ 62 := by
    rw [hlength]
    decide
  exact ⟨hlog, (tradeIds_increasing env false twoBooks htimes hcount).1⟩

end ExchangeCore
