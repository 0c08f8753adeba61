import ExchangeCore.Engine.Snapshot

/-!
# Recovering from a snapshot

An engine takes a snapshot, a new engine is started on the same directory, and the same symbols are
registered again.  The recovered engine is meant to be observationally equal to the snapshotted
one: whatever is placed and cancelled from then on, both give the same answers.

No snapshot is ever loaded, so the recovered engine is a new engine with empty books.  It accepts
the registrations (a loaded one would refuse them), and it is observationally equal to the
snapshotted engine exactly if that one has nothing to recover: `recovers_iff`, with `Pristine` for
"nothing to recover".  Any active order id, any trade counted by a book and any sequence number
taken is lost, and a few calls show it.

Trade ids are compared up to the fresh generator: the snapshotted engine is given a fresh one too.
-/

namespace ExchangeCore

open OrderBook

/-! ## The slots of an engine -/

/-- The slots hold books at their own symbols, and end with a book. -/
structure Slots (books : List (Option OrderBook)) : Prop where
  length_le : books.length ≤ 2 ^ 32
  last : ∀ slot, books.getLast? = some slot → slot.isSome
  symbolId : ∀ s b, bookAt books s = some b → b.symbolId = s

namespace Slots

variable {books books' : List (Option OrderBook)} {s : UInt32} {b b' : OrderBook}

/-- Writing a book to a slot in range. -/
lemma set (hlen : books.length ≤ 2 ^ 32)
    (hlast : s.toNat + 1 = books.length ∨ ∀ slot, books.getLast? = some slot → slot.isSome)
    (hsymbol : ∀ t c, t ≠ s → bookAt books t = some c → c.symbolId = t)
    (hs : s.toNat < books.length) (hb' : b'.symbolId = s) : Slots (setBook books s b') where
  length_le := by
    rw [setBook, List.length_set]
    exact hlen
  last := by
    intro slot hslot
    rw [setBook, List.getLast?_eq_getElem?, List.length_set] at hslot
    by_cases heq : s.toNat = books.length - 1
    · rw [heq, List.getElem?_set_self (by omega)] at hslot
      rw [← Option.some.inj hslot]
      rfl
    · rw [List.getElem?_set_ne heq, ← List.getLast?_eq_getElem?] at hslot
      exact (hlast.resolve_left (by omega)) slot hslot
  symbolId := by
    intro t c hc
    rw [bookAt_setBook_of_lt hs] at hc
    split at hc
    · rename_i hts
      obtain rfl := Option.some.inj hc
      rw [hb', hts]
    · rename_i hts
      exact hsymbol t c hts hc

lemma replaceBook (h : Slots books) (hb : bookAt books s = some b)
    (hid : b'.symbolId = b.symbolId) : Slots (setBook books s b') := by
  have hs : s.toNat < books.length := by
    by_contra hge
    rw [bookAt, List.getElem?_eq_none (not_lt.mp hge)] at hb
    exact absurd hb (by simp)
  exact set h.length_le (Or.inr h.last) (fun t c _ => h.symbolId t c) hs
    (hid.trans (h.symbolId s b hb))

/-- Slots with the same books are the same: none of them ends with an empty one. -/
lemma ext (h : Slots books) (h' : Slots books') (heq : ∀ s, bookAt books s = bookAt books' s) :
    books = books' := by
  -- a longer list would end with a book the other does not have
  have hlength : ∀ {bs bs' : List (Option OrderBook)}, Slots bs → Slots bs' →
      (∀ s, bookAt bs s = bookAt bs' s) → bs.length ≤ bs'.length := by
    intro bs bs' hbs hbs' hbooks
    by_contra hlt
    have hne : bs ≠ [] := by
      rintro rfl
      simp at hlt
    obtain ⟨book, hbook⟩ := Option.isSome_iff_exists.mp
      (hbs.last _ (List.getLast?_eq_some_getLast hne))
    have hindex : (UInt32.ofNat (bs.length - 1)).toNat = bs.length - 1 := by
      have hle := hbs.length_le
      rw [UInt32.toNat_ofNat']
      exact Nat.mod_eq_of_lt (by omega)
    have hat := hbooks (UInt32.ofNat (bs.length - 1))
    rw [bookAt, bookAt, hindex, ← List.getLast?_eq_getElem?, List.getLast?_eq_some_getLast hne,
      List.getElem?_eq_none (by omega), hbook] at hat
    exact absurd hat (by simp)
  have hlen : books.length = books'.length :=
    le_antisymm (hlength h h' heq) (hlength h' h (fun s => (heq s).symm))
  refine List.ext_getElem hlen (fun i hi hi' => ?_)
  have hindex : (UInt32.ofNat i).toNat = i := by
    have hle := h.length_le
    rw [UInt32.toNat_ofNat']
    exact Nat.mod_eq_of_lt (by omega)
  have hat := heq (UInt32.ofNat i)
  rw [bookAt, bookAt, hindex, List.getElem?_eq_getElem hi, List.getElem?_eq_getElem hi'] at hat
  exact hat

end Slots

namespace OrderBook

@[simp] lemma symbolId_setSideMap (b : OrderBook) (s : Side) (m : PriceMap) :
    (b.setSideMap s m).symbolId = b.symbolId := by cases s <;> rfl

lemma symbolId_addOrder (b : OrderBook) (order : Order) (gen : FastUlidHalfGen)
    (timestamp : UInt64) : (b.addOrder order gen timestamp).2.1.symbolId = b.symbolId := by
  simp only [OrderBook.addOrder]
  split_ifs <;> simp

lemma symbolId_removeOrder (b : OrderBook) (orderId : UInt64) :
    (b.removeOrder orderId).2.symbolId = b.symbolId := by
  unfold OrderBook.removeOrder
  split
  · dsimp only
    split
    · split
      · simp
      · rfl
    · rfl
  · rfl

end OrderBook

namespace MatchingEngine

/-! ## What every call keeps -/

/-- Flushing marks the progress of the WAL. -/
def flushed (wal : Wal) : Wal := { wal with progressId := wal.currentSeq }

/-- No call advances the number of the WAL. -/
lemma orderWal_flushWal (me : MatchingEngine) (io : WalIo) :
    (me.flushWal io).2.orderWal = me.orderWal ∨
      (me.flushWal io).2.orderWal = me.orderWal.map flushed := by
  cases hwal : me.orderWal with
  | none => exact Or.inl (by simp only [flushWal, hwal])
  | some wal =>
      cases hflush : io.flush with
      | error e => exact Or.inl (by simp only [flushWal, hwal, hflush])
      | ok u => exact Or.inr (by simp only [flushWal, hwal, hflush, Option.map_some, flushed])

lemma orderWal_addOrderAndBuildOutput (env : Externals) (io : WalIo) (me : MatchingEngine)
    (inputSeq : UInt64) (req : OrderRequest) (clientOrderId : String) :
    (me.addOrderAndBuildOutput env io inputSeq req clientOrderId).2.orderWal = me.orderWal ∨
      (me.addOrderAndBuildOutput env io inputSeq req clientOrderId).2.orderWal =
        me.orderWal.map flushed := by
  unfold addOrderAndBuildOutput
  split
  · exact Or.inl rfl
  · split
    · exact Or.inl rfl
    · dsimp only
      split
      · exact Or.inl rfl
      · have hflush := orderWal_flushWal (me.withParts (processOrderWithOutput env me.assetMap
          inputSeq req clientOrderId me.parts).2) io
        split
        · rename_i heq
          rwa [heq] at hflush
        · rename_i heq
          rwa [heq] at hflush

lemma orderWal_addOrder (env : Externals) (io : WalIo) (me : MatchingEngine) (req : OrderRequest) :
    (me.addOrder env io req).2.orderWal = me.orderWal ∨
      (me.addOrder env io req).2.orderWal = me.orderWal.map flushed := by
  unfold addOrder
  split
  · exact Or.inl rfl
  · split
    · exact Or.inl rfl
    · split
      · exact Or.inl rfl
      · dsimp only
        split
        · exact Or.inl rfl
        · have hflush := orderWal_flushWal ((me.withParts
            (processOrderLogic me.assetMap req me.parts).2).updateHash env (orderHashData req)) io
          split
          · rename_i heq
            rwa [heq] at hflush
          · rename_i heq
            rwa [heq] at hflush

lemma orderWal_addOrderBatch (reqs : List OrderRequest) (me : MatchingEngine) :
    (me.addOrderBatch reqs).2.orderWal = me.orderWal := by
  induction reqs generalizing me with
  | nil => rfl
  | cons req reqs ih => exact (ih _).trans rfl

lemma orderWal_cancelOrder (env : Externals) (io : WalIo) (me : MatchingEngine)
    (symbolId : UInt32) (orderId : UInt64) :
    (me.cancelOrder env io symbolId orderId).2.orderWal = me.orderWal := by
  have hcancel : ∀ s, (me.processCancel s orderId).2.orderWal = me.orderWal := by
    intro s
    unfold processCancel
    split
    · rfl
    · dsimp only
      split
      · rfl
      · split <;> rfl
  unfold cancelOrder
  dsimp only
  split
  · rfl
  · rename_i s _
    split
    · rfl
    · split
      · rename_i heq
        rw [← hcancel s, heq]
      · rename_i heq
        rw [← hcancel s, heq]
        rfl

/-- What every engine satisfies that was started without a snapshot. -/
structure RunInv (enableLocalWal : Bool) (me : MatchingEngine) : Prop where
  engine : EngineInv me
  slots : Slots me.orderBooks
  /-- The WAL is as it was opened. -/
  wal : me.orderWal = (new enableLocalWal).orderWal
  /-- Without a symbol nothing is counted. -/
  chain : (∀ s, bookAt me.orderBooks s = none) →
    me.outputSeq = 0 ∧ me.lastOutputHash = GENESIS_HASH

namespace RunInv

variable {enableLocalWal : Bool} {me : MatchingEngine}

lemma new (enableLocalWal : Bool) : RunInv enableLocalWal (MatchingEngine.new enableLocalWal) where
  engine := EngineInv.new enableLocalWal
  slots := ⟨by simp [MatchingEngine.new], by simp [MatchingEngine.new],
    by simp [MatchingEngine.new, bookAt]⟩
  wal := rfl
  chain _ := ⟨rfl, rfl⟩

lemma slots_registerSymbol (h : Slots me.orderBooks) (s : UInt32) (assets : UInt32 × UInt32) :
    Slots (me.registerSymbol s assets).2.orderBooks := by
  have hs := s.toNat_lt
  unfold registerSymbol
  split
  · rename_i hlen
    -- the slots are extended up to the new one, which is the last
    refine Slots.set ?_ (Or.inl ?_) (fun t c _ hc => ?_) ?_ rfl
    · simp only [List.length_append, List.length_replicate]
      omega
    · simp only [List.length_append, List.length_replicate]
      omega
    · rw [bookAt_append_replicate] at hc
      exact h.symbolId t c hc
    · simp only [List.length_append, List.length_replicate]
      omega
  · rename_i hlen
    split
    · exact h
    · exact Slots.set h.length_le (Or.inr h.last) (fun t c _ => h.symbolId t c) (not_le.mp hlen) rfl

lemma slots_logged (h : Slots me.orderBooks) {req : OrderRequest} {me' : MatchingEngine}
    (hl : Logged me req me') : Slots me'.orderBooks := by
  rcases hl.books with ⟨heq, -⟩ | ⟨book, hbook, heq, -⟩
  · rwa [heq]
  · rw [heq]
    exact h.replaceBook hbook (book.symbolId_addOrder _ _ _)

lemma slots_step (env : Externals) (h : Slots me.orderBooks) (c : Call) :
    Slots ((machine env).step me c).1.orderBooks := by
  cases c with
  | registerSymbol s assets => exact slots_registerSymbol h s assets
  | addOrderAndBuildOutput io inputSeq req cid =>
      rcases orderBooks_addOrderAndBuildOutput env io me inputSeq req cid with
        heq | ⟨book, hbook, heq⟩
      · exact heq ▸ h
      · exact heq ▸ h.replaceBook hbook (book.symbolId_addOrder _ _ _)
  | addOrder io req => exact slots_logged h (logged_addOrder env io me req)
  | addOrderBatch reqs =>
      change Slots (me.addOrderBatch reqs).2.orderBooks
      induction reqs generalizing me with
      | nil => exact h
      | cons req reqs ih => exact ih (slots_logged h (me.logged_withParts req))
  | cancelOrder io s orderId =>
      rcases orderBooks_cancelOrder env io me s orderId with ⟨-, heq⟩ | ⟨t, b, hb, heq⟩
      · exact heq ▸ h
      · exact heq ▸ h.replaceBook hb.2.2 (b.symbolId_removeOrder orderId)

lemma map_flushed_new (enableLocalWal : Bool) :
    (MatchingEngine.new enableLocalWal).orderWal.map flushed =
      (MatchingEngine.new enableLocalWal).orderWal := by
  cases enableLocalWal <;> rfl

lemma wal_step (env : Externals) (h : me.orderWal = (MatchingEngine.new enableLocalWal).orderWal)
    (c : Call) : ((machine env).step me c).1.orderWal =
      (MatchingEngine.new enableLocalWal).orderWal := by
  have hkept : ∀ wal : Option Wal, wal = me.orderWal ∨ wal = me.orderWal.map flushed →
      wal = (MatchingEngine.new enableLocalWal).orderWal := by
    rintro wal (rfl | rfl)
    · exact h
    · rw [h, map_flushed_new]
  cases c with
  | registerSymbol s assets =>
      refine hkept _ (Or.inl ?_)
      change (me.registerSymbol s assets).2.orderWal = me.orderWal
      rcases me.registerSymbol_cases s assets with ⟨-, heq⟩ | ⟨-, -, -, heq⟩
      · rw [heq]
      · rw [heq]
  | addOrderAndBuildOutput io inputSeq req cid =>
      exact hkept _ (orderWal_addOrderAndBuildOutput env io me inputSeq req cid)
  | addOrder io req => exact hkept _ (orderWal_addOrder env io me req)
  | addOrderBatch reqs => exact hkept _ (Or.inl (orderWal_addOrderBatch reqs me))
  | cancelOrder io s orderId => exact hkept _ (Or.inl (orderWal_cancelOrder env io me s orderId))

/-- A book that is put back is not gone. -/
lemma not_none_setBook {books : List (Option OrderBook)} {s : UInt32} {b b' : OrderBook}
    (hb : bookAt books s = some b) : ¬∀ t, bookAt (setBook books s b') t = none := by
  intro hnone
  have hsome := hnone s
  rw [bookAt_setBook hb, if_pos rfl] at hsome
  exact absurd hsome (by simp)

/-- An engine left without books was without them before, and the call has counted nothing. -/
lemma chain_logged {me' : MatchingEngine} {req : OrderRequest} (hl : Logged me req me')
    (hnone : ∀ s, bookAt me'.orderBooks s = none) :
    (∀ s, bookAt me.orderBooks s = none) ∧ me'.outputSeq = me.outputSeq := by
  rcases hl.books with ⟨heq, hseq⟩ | ⟨book, hbook, heq, -⟩
  · exact ⟨fun s => heq ▸ hnone s, hseq⟩
  · rw [heq] at hnone
    exact absurd hnone (not_none_setBook hbook)

lemma chain_addOrderBatch (reqs : List OrderRequest) (me : MatchingEngine)
    (hnone : ∀ s, bookAt (me.addOrderBatch reqs).2.orderBooks s = none) :
    (∀ s, bookAt me.orderBooks s = none) ∧ (me.addOrderBatch reqs).2.outputSeq = me.outputSeq ∧
      (me.addOrderBatch reqs).2.lastOutputHash = me.lastOutputHash := by
  induction reqs generalizing me with
  | nil => exact ⟨hnone, rfl, rfl⟩
  | cons req reqs ih =>
      obtain ⟨hnone₁, hseq₁, hhash₁⟩ := ih _ hnone
      have hl := me.logged_withParts req
      obtain ⟨hnone₀, hseq₀⟩ := chain_logged hl hnone₁
      exact ⟨hnone₀, hseq₁.trans hseq₀, hhash₁.trans hl.lastOutputHash⟩

lemma chain_step (env : Externals) (h : EngineInv me) (c : Call)
    (hnone : ∀ s, bookAt ((machine env).step me c).1.orderBooks s = none) :
    (∀ s, bookAt me.orderBooks s = none) ∧
      ((machine env).step me c).1.outputSeq = me.outputSeq ∧
      ((machine env).step me c).1.lastOutputHash = me.lastOutputHash := by
  cases c with
  | registerSymbol s assets =>
      change ∀ t, bookAt (me.registerSymbol s assets).2.orderBooks t = none at hnone
      change _ ∧ (me.registerSymbol s assets).2.outputSeq = _ ∧
        (me.registerSymbol s assets).2.lastOutputHash = _
      rcases me.registerSymbol_cases s assets with ⟨-, heq⟩ | ⟨-, -, hbooks, -⟩
      · rw [heq] at hnone ⊢
        exact ⟨hnone, rfl, rfl⟩
      · have hsome := hnone s
        rw [hbooks, if_pos rfl] at hsome
        exact absurd hsome (by simp)
  | addOrderAndBuildOutput io inputSeq req cid =>
      have hp := placement_addOrderAndBuildOutput h env io inputSeq req cid
      change ∀ s, bookAt (me.addOrderAndBuildOutput env io inputSeq req cid).2.orderBooks s = none
        at hnone
      change _ ∧ (me.addOrderAndBuildOutput env io inputSeq req cid).2.outputSeq = _ ∧
        (me.addOrderAndBuildOutput env io inputSeq req cid).2.lastOutputHash = _
      generalize (me.addOrderAndBuildOutput env io inputSeq req cid).1 = r at hp
      generalize (me.addOrderAndBuildOutput env io inputSeq req cid).2 = me' at hp hnone ⊢
      cases hp with
      | refused e _ => exact ⟨hnone, rfl, rfl⟩
      | duplicate e assets book _ _ hbook _ =>
          -- an order gets this far only if there is a book
          exact absurd ((hnone req.symbolId).symm.trans hbook) (by simp)
      | accepted assets book book' gen wal r _ _ hbook _ _ _ _ _ =>
          exact absurd hnone (not_none_setBook hbook)
  | addOrder io req =>
      have hl := logged_addOrder env io me req
      obtain ⟨hnone₀, hseq⟩ := chain_logged hl hnone
      exact ⟨hnone₀, hseq, hl.lastOutputHash⟩
  | addOrderBatch reqs => exact chain_addOrderBatch reqs me hnone
  | cancelOrder io s orderId =>
      have hc := cancellation_cancelOrder h env io s orderId
      change ∀ t, bookAt (me.cancelOrder env io s orderId).2.orderBooks t = none at hnone
      change _ ∧ (me.cancelOrder env io s orderId).2.outputSeq = _ ∧
        (me.cancelOrder env io s orderId).2.lastOutputHash = _
      generalize (me.cancelOrder env io s orderId).1 = r at hc
      generalize (me.cancelOrder env io s orderId).2 = me' at hc hnone ⊢
      cases hc with
      | refused e => exact ⟨hnone, rfl, rfl⟩
      | notFound e t book hbook _ =>
          exact absurd hnone (not_none_setBook hbook)
      | cancelled t assets book book' o _ _ _ _ hbook _ _ _ _ =>
          exact absurd hnone (not_none_setBook hbook)

lemma step (env : Externals) (me : MatchingEngine) (c : Call) (h : RunInv enableLocalWal me) :
    RunInv enableLocalWal ((machine env).step me c).1 where
  engine := EngineInv.step env me c h.engine
  slots := slots_step env h.slots c
  wal := wal_step env h.wal c
  chain hnone := by
    obtain ⟨hnone₀, hseq, hhash⟩ := chain_step env h.engine c hnone
    rw [hseq, hhash]
    exact h.chain hnone₀

end RunInv

/-! ## Registering the symbols again -/

/-- The calls that register symbols, each with its base and quote asset. -/
def registrations (symbols : List (UInt32 × UInt32 × UInt32)) : List Call :=
  symbols.map (fun r => .registerSymbol r.1 r.2)

/-- The symbols of an engine, each once, in any order. -/
structure SymbolsOf (me : MatchingEngine) (symbols : List (UInt32 × UInt32 × UInt32)) : Prop where
  nodup : (symbols.map Prod.fst).Nodup
  mem_iff : ∀ s assets, (s, assets) ∈ symbols ↔ me.assetMap.get? s = some assets

/-- `e'` is `e` with these symbols registered. -/
structure Registered (symbols : List (UInt32 × UInt32 × UInt32)) (e e' : MatchingEngine) :
    Prop where
  books : ∀ t, bookAt e'.orderBooks t =
    if t ∈ symbols.map Prod.fst then some (OrderBook.new t) else bookAt e.orderBooks t
  assets : ∀ t assets, e'.assetMap.get? t = some assets ↔
    (t, assets) ∈ symbols ∨ (t ∉ symbols.map Prod.fst ∧ e.assetMap.get? t = some assets)
  rest : ∃ books assets, e' = { e with orderBooks := books, assetMap := assets }

namespace Registered

variable {symbols : List (UInt32 × UInt32 × UInt32)} {e e' e'' : MatchingEngine} {s : UInt32}
  {as : UInt32 × UInt32}

lemma nil (e : MatchingEngine) : Registered [] e e :=
  ⟨by simp, by simp, e.orderBooks, e.assetMap, rfl⟩

lemma registerSymbol (h : bookAt e.orderBooks s = none) (as : UInt32 × UInt32) :
    (e.registerSymbol s as).1 = .ok () ∧ Registered [(s, as)] e (e.registerSymbol s as).2 := by
  have hok : (e.registerSymbol s as).1 = .ok () := by
    unfold MatchingEngine.registerSymbol
    rw [h]
    split <;> rfl
  rcases e.registerSymbol_cases s as with ⟨⟨msg, herr⟩, -⟩ | ⟨-, -, hbooks, heq⟩
  · exact absurd (herr.symm.trans hok) (by simp)
  · refine ⟨hok, fun t => ?_, fun t as' => ?_, _, _, heq⟩
    · rw [hbooks t]
      by_cases hts : t = s <;> simp [hts]
    · rw [heq, HashMap.get?_insert]
      by_cases hts : t = s
      · simp [hts, eq_comm]
      · simp [hts]

lemma cons (h : Registered [(s, as)] e e') (h' : Registered symbols e' e'')
    (hs : s ∉ symbols.map Prod.fst) : Registered ((s, as) :: symbols) e e'' where
  books t := by
    rw [h'.books t, h.books t]
    by_cases hts : t = s
    · simp [hts]
    · simp only [List.map_cons, List.map_nil, List.mem_cons, hts, List.not_mem_nil, or_false,
        if_false, false_or]
  assets t as' := by
    rw [h'.assets t as', h.assets t as']
    by_cases hts : t = s
    · subst hts
      have hnot : (t, as') ∉ symbols := fun hmem => hs (List.mem_map_of_mem hmem)
      simp [hs, hnot]
    · simp [hts]
  rest := by
    obtain ⟨books, assets, rfl⟩ := h.rest
    obtain ⟨books', assets', rfl⟩ := h'.rest
    exact ⟨books', assets', rfl⟩

end Registered

lemma registered_run (env : Externals) (symbols : List (UInt32 × UInt32 × UInt32)) :
    ∀ {e : MatchingEngine}, (symbols.map Prod.fst).Nodup →
      (∀ s ∈ symbols.map Prod.fst, bookAt e.orderBooks s = none) →
        (∀ a ∈ (machine env).answers e (registrations symbols), a = .registered (.ok ())) ∧
          Registered symbols e ((machine env).run e (registrations symbols)) := by
  induction symbols with
  | nil => exact fun {e} _ _ => ⟨fun a ha => absurd ha List.not_mem_nil, Registered.nil e⟩
  | cons r symbols ih =>
      intro e hnodup hnone
      obtain ⟨s, as⟩ := r
      obtain ⟨hfresh, hnodup⟩ := List.nodup_cons.mp hnodup
      obtain ⟨hok, hone⟩ := Registered.registerSymbol (hnone s (List.mem_cons_self ..)) as
      obtain ⟨hall, hreg⟩ := @ih (e.registerSymbol s as).2 hnodup (fun t ht => by
        have hne : t ≠ s := fun hts => hfresh (hts ▸ ht)
        rw [hone.books t, if_neg (by simpa using hne)]
        exact hnone t (List.mem_cons_of_mem _ ht))
      refine ⟨fun a ha => ?_, hone.cons hreg hfresh⟩
      rcases List.mem_cons.mp ha with rfl | ha
      · exact congrArg Answer.registered hok
      · exact hall a ha

/-! ## Observational equality -/

/-- The calls by which engines are compared. -/
inductive OrderCall
  | addOrderAndBuildOutput (io : WalIo) (inputSeq : UInt64) (req : OrderRequest)
      (clientOrderId : String)
  | cancelOrder (io : WalIo) (symbolId : UInt32) (orderId : UInt64)

/-- The call of the engine. -/
def OrderCall.call : OrderCall → Call
  | .addOrderAndBuildOutput io inputSeq req clientOrderId =>
      .addOrderAndBuildOutput io inputSeq req clientOrderId
  | .cancelOrder io symbolId orderId => .cancelOrder io symbolId orderId

/-- Whatever is placed and cancelled, both engines give the same answers. -/
def ObsEq (env : Externals) (me me' : MatchingEngine) : Prop :=
  ∀ calls : List OrderCall, (machine env).answers me (calls.map OrderCall.call) =
    (machine env).answers me' (calls.map OrderCall.call)

/-- The engine with another state hash. -/
def withHash (me : MatchingEngine) (stateHash : UInt64) : MatchingEngine :=
  { me with stateHash := stateHash }

section StateHash

variable (env : Externals) (io : WalIo) (me : MatchingEngine) (h : UInt64)

lemma flushWal_withHash :
    (me.withHash h).flushWal io = ((me.flushWal io).1, (me.flushWal io).2.withHash h) := by
  cases hwal : me.orderWal with
  | none =>
      have hwal' : (me.withHash h).orderWal = none := hwal
      simp only [flushWal, hwal, hwal']
  | some wal =>
      have hwal' : (me.withHash h).orderWal = some wal := hwal
      cases hflush : io.flush with
      | error e => simp only [flushWal, hwal, hwal', hflush]
      | ok u =>
          simp only [flushWal, hwal, hwal', hflush]
          rfl

lemma addOrderAndBuildOutput_withHash (inputSeq : UInt64) (req : OrderRequest)
    (clientOrderId : String) :
    (me.withHash h).addOrderAndBuildOutput env io inputSeq req clientOrderId =
      ((me.addOrderAndBuildOutput env io inputSeq req clientOrderId).1,
        (me.addOrderAndBuildOutput env io inputSeq req clientOrderId).2.withHash h) := by
  -- the processing functions are handed the same fields
  have hparts : (me.withHash h).parts = me.parts := rfl
  have hassets : (me.withHash h).assetMap = me.assetMap := rfl
  have hlog : (me.withHash h).logWal io = me.logWal io := rfl
  unfold addOrderAndBuildOutput
  rw [hparts, hassets, hlog]
  cases me.assetMap.get? req.symbolId with
  | none => rfl
  | some assets =>
      cases me.logWal io with
      | error e => rfl
      | ok u =>
          dsimp only
          generalize processOrderWithOutput env me.assetMap inputSeq req clientOrderId me.parts = p
          obtain ⟨r, p⟩ := p
          cases r with
          | error e => rfl
          | ok result =>
              have hwith : (me.withHash h).withParts p = (me.withParts p).withHash h := rfl
              rw [hwith]
              dsimp only
              rw [flushWal_withHash]
              generalize (me.withParts p).flushWal io = f
              obtain ⟨rf, mf⟩ := f
              cases rf <;> rfl

lemma processCancel_withHash (s : UInt32) (orderId : UInt64) :
    (me.withHash h).processCancel s orderId =
      ((me.processCancel s orderId).1, (me.processCancel s orderId).2.withHash h) := by
  have hbooks : (me.withHash h).orderBooks = me.orderBooks := rfl
  have hassets : (me.withHash h).assetMap = me.assetMap := rfl
  unfold processCancel
  rw [hbooks, hassets]
  cases bookAt me.orderBooks s with
  | none => rfl
  | some book =>
      dsimp only
      cases (book.removeOrder orderId).1 with
      | error e => rfl
      | ok o => cases me.assetMap.get? s <;> rfl

lemma cancelOrder_withHash (symbolId : UInt32) (orderId : UInt64) :
    ∃ h', (me.withHash h).cancelOrder env io symbolId orderId =
      ((me.cancelOrder env io symbolId orderId).1,
        (me.cancelOrder env io symbolId orderId).2.withHash h') := by
  have hfind : (me.withHash h).findOrderSymbol orderId = me.findOrderSymbol orderId := rfl
  have hlog : (me.withHash h).logWal io = me.logWal io := rfl
  unfold cancelOrder
  rw [hfind, hlog]
  dsimp only
  cases (if symbolId = 0 then me.findOrderSymbol orderId else some symbolId) with
  | none => exact ⟨h, rfl⟩
  | some s =>
      cases me.logWal io with
      | error e => exact ⟨h, rfl⟩
      | ok u =>
          dsimp only
          rw [processCancel_withHash]
          generalize me.processCancel s orderId = c
          obtain ⟨r, me'⟩ := c
          cases r with
          | error e => exact ⟨h, rfl⟩
          | ok commands => exact ⟨_, rfl⟩

/-- No answer depends on the state hash. -/
lemma obsEq_withHash : ObsEq env (me.withHash h) me := by
  intro calls
  induction calls generalizing me h with
  | nil => rfl
  | cons c calls ih =>
      have hstep : ∃ h', (machine env).step (me.withHash h) c.call =
          (((machine env).step me c.call).1.withHash h', ((machine env).step me c.call).2) := by
        cases c with
        | addOrderAndBuildOutput io inputSeq req cid =>
            refine ⟨h, ?_⟩
            simp only [machine, OrderCall.call, addOrderAndBuildOutput_withHash]
        | cancelOrder io symbolId orderId =>
            obtain ⟨h', hcancel⟩ := cancelOrder_withHash env io me h symbolId orderId
            refine ⟨h', ?_⟩
            simp only [machine, OrderCall.call, hcancel]
      obtain ⟨h', hstep⟩ := hstep
      rw [List.map_cons, Machine.answers_cons, Machine.answers_cons, hstep]
      exact congrArg _ (ih _ h')

end StateHash

end MatchingEngine

/-! ## Nothing to recover -/

namespace OrderBook

variable {b : OrderBook}

/-- A book without active ids holds nothing. -/
lemma Inv.flatSide_eq_nil (hb : b.Inv) (hactive : b.activeOrderIds = ∅) (s : Side) :
    b.flatSide s = [] := by
  refine List.eq_nil_iff_forall_not_mem.mpr (fun o ho => ?_)
  have hmem := hb.active o (mem_restingOrders.mpr ⟨s, ho⟩)
  rw [hactive] at hmem
  exact absurd hmem (Finset.notMem_empty _)

/-- A book without active ids that has counted no trade is as new. -/
lemma Inv.eq_new (hb : b.Inv) (hactive : b.activeOrderIds = ∅) (hseq : b.matchSeq = 0) :
    b = OrderBook.new b.symbolId := by
  have hside : ∀ s, b.sideMap s = SortedMap.empty := by
    intro s
    apply SortedMap.ext
    refine List.eq_nil_iff_forall_not_mem.mpr (fun e he => ?_)
    obtain ⟨o, os, hqueue⟩ := List.exists_cons_of_ne_nil (hb.sideOk s e he).nonempty
    have hmem : o ∈ b.flatSide s := mem_flat.mpr ⟨e, he, hqueue ▸ List.mem_cons_self ..⟩
    rw [hb.flatSide_eq_nil hactive] at hmem
    exact absurd hmem List.not_mem_nil
  have hindex : b.orderIndex = HashMap.empty := by
    refine HashMap.ext (fun id => ?_)
    have hkey : id ∉ b.orderIndex.keys := by
      rw [← hb.activeKeys, hactive]
      exact Finset.notMem_empty id
    rw [HashMap.get?_empty]
    simpa using hkey
  have hbids : b.bids = SortedMap.empty := hside .buy
  have hasks : b.asks = SortedMap.empty := hside .sell
  obtain ⟨symbolId, bids, asks, active, index, seq⟩ := b
  simp only at hactive hseq hindex hbids hasks
  subst hactive hseq hindex hbids hasks
  rfl

end OrderBook

namespace MatchingEngine

/-- The engine has nothing to recover: no output has been counted, and no book knows an order or
has counted a trade. -/
structure Pristine (me : MatchingEngine) : Prop where
  outputSeq : me.outputSeq = 0
  lastOutputHash : me.lastOutputHash = GENESIS_HASH
  books : ∀ s b, bookAt me.orderBooks s = some b → b.activeOrderIds = ∅ ∧ b.matchSeq = 0

/-- The engine with a fresh generator of trade ids. -/
def withFreshIds (me : MatchingEngine) : MatchingEngine :=
  { me with tradeIdGen := FastUlidHalfGen.new }

lemma registered_new (env : Externals) (enableLocalWal : Bool) {me : MatchingEngine}
    {symbols : List (UInt32 × UInt32 × UInt32)} (hsymbols : SymbolsOf me symbols) :
    (∀ a ∈ (machine env).answers (new enableLocalWal) (registrations symbols),
        a = .registered (.ok ())) ∧
      Registered symbols (new enableLocalWal)
        ((machine env).run (new enableLocalWal) (registrations symbols)) :=
  registered_run env symbols hsymbols.nodup (fun s _ => by simp [new, bookAt])

lemma SymbolsOf.mem_iff_book {me : MatchingEngine} {symbols : List (UInt32 × UInt32 × UInt32)}
    (hsymbols : SymbolsOf me symbols) (h : EngineInv me) (s : UInt32) :
    s ∈ symbols.map Prod.fst ↔ (bookAt me.orderBooks s).isSome := by
  rw [← h.registered s, Option.isSome_iff_exists]
  constructor
  · intro hs
    obtain ⟨r, hr, rfl⟩ := List.mem_map.mp hs
    exact ⟨r.2, (hsymbols.mem_iff r.1 r.2).mp hr⟩
  · rintro ⟨assets, hassets⟩
    exact List.mem_map.mpr ⟨(s, assets), (hsymbols.mem_iff s assets).mpr hassets, rfl⟩

lemma Pristine.recovered_eq {env : Externals} {enableLocalWal : Bool} {me : MatchingEngine}
    {symbols : List (UInt32 × UInt32 × UInt32)} (hp : Pristine me) (h : RunInv enableLocalWal me)
    (hsymbols : SymbolsOf me symbols) :
    (machine env).run (new enableLocalWal) (registrations symbols) =
      (me.withFreshIds).withHash 0 := by
  have hreg := (registered_new env enableLocalWal hsymbols).2
  have hrun : RunInv enableLocalWal
      ((machine env).run (new enableLocalWal) (registrations symbols)) :=
    Machine.run_invariant (RunInv.step env) (RunInv.new enableLocalWal) _
  generalize (machine env).run (new enableLocalWal) (registrations symbols) = e at hreg hrun
  have hbooks : e.orderBooks = me.orderBooks := by
    refine hrun.slots.ext h.slots (fun s => ?_)
    rw [hreg.books s]
    have hmem := hsymbols.mem_iff_book h.engine s
    cases hb : bookAt me.orderBooks s with
    | none =>
        rw [hb] at hmem
        rw [if_neg (by simpa using hmem)]
        simp [new, bookAt]
    | some b =>
        rw [hb] at hmem
        rw [if_pos (by simpa using hmem)]
        obtain ⟨hactive, hseq⟩ := hp.books s b hb
        rw [(h.engine.books s b hb).eq_new hactive hseq, h.slots.symbolId s b hb]
  have hassets : e.assetMap = me.assetMap := by
    refine HashMap.ext (fun s => Option.ext (fun assets => ?_))
    rw [hreg.assets s assets, hsymbols.mem_iff]
    simp [new]
  obtain ⟨books, assets, rfl⟩ := hreg.rest
  obtain ⟨orderBooks, assetMap, orderWal, gen, stateHash, outputSeq, lastOutputHash⟩ := me
  simp only at hbooks hassets
  obtain ⟨hseq, hhash, -⟩ := hp
  have hwal := h.wal
  simp only at hseq hhash hwal
  subst hbooks hassets hseq hhash hwal
  rfl

/-! ## What a few calls show -/

/-- An order for the book of a symbol, at price 1. -/
def probe (symbolId : UInt32) (orderId : UInt64) (side : Side) : OrderRequest :=
  { limitRequest orderId 0 side 1 1 with
    symbolId := symbolId }

section Probe

variable {env : Externals} {me : MatchingEngine} {b : OrderBook} {req : OrderRequest}

lemma logWal_healthy (me : MatchingEngine) : me.logWal .healthy = .ok () := by
  unfold logWal
  split <;> rfl

lemma place_active (h : EngineInv me) (hb : bookAt me.orderBooks req.symbolId = some b)
    (hid : req.orderId ∈ b.activeOrderIds) (inputSeq : UInt64) (clientOrderId : String) :
    ∃ e, (me.addOrderAndBuildOutput env .healthy inputSeq req clientOrderId).1 = .error e := by
  have hp := placement_addOrderAndBuildOutput h env .healthy inputSeq req clientOrderId
  generalize (me.addOrderAndBuildOutput env .healthy inputSeq req clientOrderId).1 = r at hp
  generalize (me.addOrderAndBuildOutput env .healthy inputSeq req clientOrderId).2 = me' at hp
  cases hp with
  | refused e _ => exact ⟨e, rfl⟩
  | duplicate e _ _ _ _ _ _ => exact ⟨e, rfl⟩
  | accepted assets book book' gen wal r _ _ hbook hfresh _ _ _ _ =>
      obtain rfl := Option.some.inj (hb.symm.trans hbook)
      exact absurd hid hfresh

/-- An id that is not active is accepted. -/
lemma place_fresh (h : EngineInv me) (hb : bookAt me.orderBooks req.symbolId = some b)
    (hid : req.orderId ∉ b.activeOrderIds) (inputSeq : UInt64) (clientOrderId : String) :
    ∃ assets book' gen wal, Added b req.order (b.walkOf req.order) book' ∧
      me.addOrderAndBuildOutput env .healthy inputSeq req clientOrderId =
        (.ok (req.orderId, me.outputOf env inputSeq req clientOrderId assets b),
          me.placed req.symbolId book' gen
            (me.outputOf env inputSeq req clientOrderId assets b) wal) := by
  have hp := placement_addOrderAndBuildOutput h env .healthy inputSeq req clientOrderId
  generalize me.addOrderAndBuildOutput env .healthy inputSeq req clientOrderId = p at hp
  obtain ⟨r, me'⟩ := p
  cases hp with
  | refused e hrefused =>
      rcases hrefused with hnone | herr
      · obtain ⟨assets, hassets⟩ := h.exists_assets hb
        exact absurd (hnone.symm.trans hassets) (by simp)
      · exact absurd (herr.symm.trans (logWal_healthy _)) (by simp)
  | duplicate e assets book _ _ hbook hactive =>
      obtain rfl := Option.some.inj (hb.symm.trans hbook)
      exact absurd hactive hid
  | accepted assets book book' gen wal r _ _ hbook _ hadded hok _ _ =>
      obtain rfl := Option.some.inj (hb.symm.trans hbook)
      obtain rfl := hok (Or.inr rfl)
      exact ⟨assets, book', gen, wal, hadded, rfl⟩

/-- A sell and a buy that match it: the first output shows the chain fields, the second the trade
counter of the book. -/
def probes (s : UInt32) : List OrderCall :=
  [.addOrderAndBuildOutput .healthy 0 (probe s 1 .sell) "",
    .addOrderAndBuildOutput .healthy 0 (probe s 2 .buy) ""]

lemma answers_probes (env : Externals) {s : UInt32} (h : EngineInv me)
    (hb : bookAt me.orderBooks s = some b) (hactive : b.activeOrderIds = ∅) :
    ∃ o₁ o₂, (machine env).answers me ((probes s).map OrderCall.call) =
        [.output (.ok (1, o₁)), .output (.ok (2, o₂))] ∧
      o₁.outputSeq = me.outputSeq + 1 ∧ o₁.prevHash = me.lastOutputHash ∧
      o₂.trades.map TradeOutput.matchSeq = [b.matchSeq + 1] := by
  have hinv := h.books s b hb
  -- the sell meets nothing and comes to rest
  have hfresh : (probe s 1 .sell).orderId ∉ b.activeOrderIds := by
    rw [hactive]
    exact Finset.notMem_empty _
  obtain ⟨assets, book, gen, wal, hadded, hsell⟩ :=
    @place_fresh env me b (probe s 1 .sell) h hb hfresh 0 ""
  have hwalk : b.walkOf (probe s 1 .sell).order = ⟨[], [], [], 1⟩ := by
    rw [OrderBook.walkOf, hinv.flatSide_eq_nil hactive]
    rfl
  rw [hwalk] at hadded
  have hflat : book.flatSide .sell = [(probe s 1 .sell).order] := by
    have hperm := hadded.flat_own
    rw [hinv.flatSide_eq_nil hactive] at hperm
    exact List.perm_singleton.mp hperm
  change me.addOrderAndBuildOutput env .healthy 0 (probe s 1 .sell) "" =
    (.ok (1, _), me.placed s book gen _ wal) at hsell
  have h' := EngineInv.step env me (.addOrderAndBuildOutput .healthy 0 (probe s 1 .sell) "") h
  simp only [machine, hsell] at h'
  have hb' : bookAt (me.placed s book gen
      (me.outputOf env 0 (probe s 1 .sell) "" assets b) wal).orderBooks s = some book := by
    rw [placed, bookAt_setBook hb, if_pos rfl]
  generalize me.placed s book gen (me.outputOf env 0 (probe s 1 .sell) "" assets b) wal = me₁
    at hsell h' hb'
  -- the buy takes it
  have hfresh' : (probe s 2 .buy).orderId ∉ book.activeOrderIds := by
    rw [hadded.activeOrderIds, hactive]
    change (2 : UInt64) ∉ insert 1 ∅ \ ([] : List UInt64).toFinset
    decide
  obtain ⟨assets', book', gen', wal', -, hbuy⟩ := @place_fresh env me₁ book (probe s 2 .buy) h' hb'
    hfresh' 0 ""
  obtain ⟨hseq, hprev⟩ := acceptedOutput_header env 0 (probe s 1 .sell) "" assets
    (me.tradesOf b (probe s 1 .sell)) me.parts
  refine ⟨me.outputOf env 0 (probe s 1 .sell) "" assets b,
    me₁.outputOf env 0 (probe s 2 .buy) "" assets' book, ?_, hseq, hprev, ?_⟩
  · simp only [probes, List.map_cons, List.map_nil, OrderCall.call, Machine.answers_cons,
      Machine.answers_nil, machine, hsell, hbuy]
    rfl
  · rw [outputOf, acceptedOutput_trades, tradesOf, OrderBook.walkOf,
      show (probe s 2 .buy).order.side.opposite = .sell from rfl, hflat, List.map_map]
    have hmatch : book.matchSeq = b.matchSeq := by
      rw [hadded.matchSeq]
      exact UInt64.add_zero _
    rw [hmatch]
    rfl

/-- An engine that cannot be told from one whose book is new knows no order either: an active id
would be refused by the one and accepted by the other. -/
lemma ObsEq.activeOrderIds_eq_empty {e : MatchingEngine} {s : UInt32} (hobs : ObsEq env e me)
    (he : EngineInv e) (h : EngineInv me) (hnew : bookAt e.orderBooks s = some (OrderBook.new s))
    (hb : bookAt me.orderBooks s = some b) : b.activeOrderIds = ∅ := by
  by_contra hne
  obtain ⟨id, hid⟩ := Finset.nonempty_of_ne_empty hne
  obtain ⟨err, herr⟩ := @place_active env me b (probe s id .buy) h hb hid 0 ""
  obtain ⟨assets, book', gen, wal, -, hok⟩ := @place_fresh env e (OrderBook.new s)
    (probe s id .buy) he hnew (Finset.notMem_empty _) 0 ""
  have hsame := hobs [.addOrderAndBuildOutput .healthy 0 (probe s id .buy) ""]
  simp only [List.map_cons, List.map_nil, OrderCall.call, Machine.answers_cons,
    Machine.answers_nil, machine, hok, herr] at hsame
  simp at hsame

/-- Such engines have counted the same outputs, and the book no trade. -/
lemma ObsEq.counters {e : MatchingEngine} {s : UInt32} (hobs : ObsEq env e me)
    (he : EngineInv e) (h : EngineInv me) (hnew : bookAt e.orderBooks s = some (OrderBook.new s))
    (hb : bookAt me.orderBooks s = some b) (hactive : b.activeOrderIds = ∅) :
    me.outputSeq = e.outputSeq ∧ me.lastOutputHash = e.lastOutputHash ∧ b.matchSeq = 0 := by
  obtain ⟨o₁, o₂, hansw, hseq, hprev, hmatch⟩ := @answers_probes me b env s h hb hactive
  obtain ⟨o₁', o₂', hansw', hseq', hprev', hmatch'⟩ :=
    @answers_probes e (OrderBook.new s) env s he hnew rfl
  have hsame := hobs (probes s)
  rw [hansw, hansw'] at hsame
  simp only [List.cons.injEq, Answer.output.injEq, Except.ok.injEq, Prod.mk.injEq, true_and,
    and_true] at hsame
  obtain ⟨rfl, rfl⟩ := hsame
  refine ⟨?_, ?_, ?_⟩
  · exact (UInt64.add_left_inj 1).mp (hseq.symm.trans hseq')
  · exact hprev.symm.trans hprev'
  · have heq := hmatch.symm.trans hmatch'
    exact (UInt64.add_left_inj 1).mp (List.cons.inj heq).1

end Probe

/-! ## Recovery -/

/-- The calls of an engine that takes snapshots. -/
inductive SnapshotCall
  | call (c : Call)
  | triggerCowSnapshot

/-- An engine next to its snapshot directory. -/
def snapshots (env : Externals) :
    Machine (MatchingEngine × SnapshotDir) SnapshotCall (Option Answer) where
  step s
    | .call c =>
        let r := (machine env).step s.1 c
        ((r.1, s.2), some r.2)
    | .triggerCowSnapshot => ((s.1, s.1.triggerCowSnapshot s.2), none)

/-- A snapshot is taken, an engine is started on the same directory, and the symbols are
registered again: the registrations are accepted, and the recovered engine is observationally
equal to the snapshotted one. -/
def Recovers (env : Externals) (enableLocalWal : Bool) (s : MatchingEngine × SnapshotDir)
    (symbols : List (UInt32 × UInt32 × UInt32)) : Prop :=
  ∃ e, newOn .healthy (s.1.triggerCowSnapshot s.2) enableLocalWal = .ok e ∧
    (∀ a ∈ (machine env).answers e (registrations symbols), a = .registered (.ok ())) ∧
    ObsEq env ((machine env).run e (registrations symbols)) s.1.withFreshIds

/-- An engine started without a snapshot next to a directory of snapshots numbered 0. -/
def SnapshotInv (enableLocalWal : Bool) (s : MatchingEngine × SnapshotDir) : Prop :=
  RunInv enableLocalWal s.1 ∧ ∀ file ∈ s.2, file.1 = "engine_snapshot_0.bin"

lemma RunInv.name_of_mem_triggerCowSnapshot {enableLocalWal : Bool} {me : MatchingEngine}
    {dir : SnapshotDir} (h : RunInv enableLocalWal me)
    (hdir : ∀ file ∈ dir, file.1 = "engine_snapshot_0.bin") :
    ∀ file ∈ me.triggerCowSnapshot dir, file.1 = "engine_snapshot_0.bin" := by
  have hseq : (me.orderWal.map Wal.currentSeq).getD 0 = 0 := by
    rw [h.wal]
    cases enableLocalWal <;> rfl
  intro file hfile
  rw [triggerCowSnapshot, hseq] at hfile
  rcases List.mem_append.mp hfile with hold | hnew
  · exact hdir file (List.mem_of_mem_filter hold)
  · rw [List.mem_singleton.mp hnew]
    rfl

lemma SnapshotInv.step (env : Externals) {enableLocalWal : Bool}
    (s : MatchingEngine × SnapshotDir) (c : SnapshotCall) (h : SnapshotInv enableLocalWal s) :
    SnapshotInv enableLocalWal ((snapshots env).step s c).1 := by
  cases c with
  | call c => exact ⟨RunInv.step env s.1 c h.1, h.2⟩
  | triggerCowSnapshot => exact ⟨h.1, h.1.name_of_mem_triggerCowSnapshot h.2⟩

/-- An engine that cannot be told from a new one with its symbols has nothing to recover. -/
lemma Pristine.of_obsEq {env : Externals} {enableLocalWal : Bool} {me : MatchingEngine}
    {symbols : List (UInt32 × UInt32 × UInt32)} (h : RunInv enableLocalWal me)
    (hsymbols : SymbolsOf me symbols)
    (hobs : ObsEq env ((machine env).run (new enableLocalWal) (registrations symbols))
      me.withFreshIds) : Pristine me := by
  have hreg := (registered_new env enableLocalWal hsymbols).2
  have hrun : RunInv enableLocalWal
      ((machine env).run (new enableLocalWal) (registrations symbols)) :=
    Machine.run_invariant (RunInv.step env) (RunInv.new enableLocalWal) _
  generalize (machine env).run (new enableLocalWal) (registrations symbols) = e at hreg hrun hobs
  have hinv : EngineInv me.withFreshIds := ⟨h.engine.books, h.engine.registered⟩
  have hnew : ∀ {s b}, bookAt me.orderBooks s = some b →
      bookAt e.orderBooks s = some (OrderBook.new s) := by
    intro s b hb
    have hmem := (hsymbols.mem_iff_book h.engine s).mpr (by rw [hb]; rfl)
    rw [hreg.books s, if_pos hmem]
  have hbooks : ∀ s b, bookAt me.orderBooks s = some b → b.activeOrderIds = ∅ ∧ b.matchSeq = 0 := by
    intro s b hb
    have hactive := hobs.activeOrderIds_eq_empty hrun.engine hinv (hnew hb) hb
    exact ⟨hactive, (hobs.counters hrun.engine hinv (hnew hb) hb hactive).2.2⟩
  by_cases hany : ∃ s b, bookAt me.orderBooks s = some b
  · obtain ⟨s, b, hb⟩ := hany
    obtain ⟨hseq, hhash, -⟩ := hobs.counters hrun.engine hinv (hnew hb) hb (hbooks s b hb).1
    obtain ⟨books, assets, rfl⟩ := hreg.rest
    exact ⟨hseq, hhash, hbooks⟩
  · have hnone : ∀ s, bookAt me.orderBooks s = none := by
      intro s
      cases hb : bookAt me.orderBooks s with
      | none => rfl
      | some b => exact absurd ⟨s, b, hb⟩ hany
    obtain ⟨hseq, hhash⟩ := h.chain hnone
    exact ⟨hseq, hhash, hbooks⟩

/-- **When a snapshot is recovered.**  For every run of an engine started on empty directories,
with or without a WAL, and every order in which its symbols are registered again: the recovered
engine accepts the registrations and is observationally equal to the snapshotted one exactly if
the snapshotted engine has nothing to recover. -/
theorem recovers_iff (env : Externals) (enableLocalWal : Bool) (calls : List SnapshotCall)
    (symbols : List (UInt32 × UInt32 × UInt32))
    (hsymbols : SymbolsOf ((snapshots env).run (new enableLocalWal, []) calls).1 symbols) :
    Recovers env enableLocalWal ((snapshots env).run (new enableLocalWal, []) calls) symbols ↔
      Pristine ((snapshots env).run (new enableLocalWal, []) calls).1 := by
  obtain ⟨h, hdir⟩ : SnapshotInv enableLocalWal
      ((snapshots env).run (new enableLocalWal, []) calls) :=
    Machine.run_invariant (SnapshotInv.step env)
      ⟨RunInv.new enableLocalWal, fun file hfile => absurd hfile List.not_mem_nil⟩ calls
  generalize (snapshots env).run (new enableLocalWal, []) calls = s at h hdir hsymbols
  have hnew := newOn_eq_new (h.name_of_mem_triggerCowSnapshot hdir) enableLocalWal
  constructor
  · rintro ⟨e, he, -, hobs⟩
    obtain rfl := Except.ok.inj (hnew.symm.trans he)
    exact Pristine.of_obsEq h hsymbols hobs
  · intro hp
    refine ⟨new enableLocalWal, hnew, (registered_new env enableLocalWal hsymbols).1, ?_⟩
    rw [hp.recovered_eq h hsymbols]
    exact obsEq_withHash env s.1.withFreshIds 0

/-- An engine with a WAL and a registered symbol, but no orders, is recovered, also from the second
of two snapshots. -/
theorem recovers_iff_no_orders :
    ¬∃ env : Externals, ¬Recovers env true ((snapshots env).run (new true, [])
      [.call (.registerSymbol 1 (10, 20)), .triggerCowSnapshot]) [(1, 10, 20)] := by
  rintro ⟨env, hnot⟩
  refine hnot ((recovers_iff env true _ _ ⟨by decide, fun s assets => ?_⟩).mpr ⟨rfl, rfl, ?_⟩)
  · change _ ↔ ((HashMap.empty : HashMap UInt32 (UInt32 × UInt32)).insert 1 (10, 20)).get? s = _
    rw [HashMap.get?_insert, HashMap.get?_empty]
    by_cases hs : s = 1 <;> simp [hs, eq_comm]
  · intro s b hb
    obtain ⟨rfl, rfl⟩ := bookAt_single (b := OrderBook.new 1) hb
    exact ⟨rfl, rfl⟩

/-- A resting order is lost: the snapshotted engine cancels it, the recovered one does not find
it. -/
theorem resting_order_not_recovered :
    ¬∃ env : Externals, Recovers env false ((snapshots env).run (new false, [])
      [.call (.registerSymbol 1 (10, 20)),
        .call (.addOrderAndBuildOutput .healthy 1 (limitRequest 1 7 .sell 100 5) "a")])
      [(1, 10, 20)] := by
  rintro ⟨env, e, he, -, hobs⟩
  have h : RunInv false ((machine env).run (new false) [.registerSymbol 1 (10, 20),
      .addOrderAndBuildOutput .healthy 1 (limitRequest 1 7 .sell 100 5) "a"]) :=
    Machine.run_invariant (RunInv.step env) (RunInv.new false) _
  have hdir := @RunInv.name_of_mem_triggerCowSnapshot false _ [] h (by simp)
  obtain rfl := Except.ok.inj ((newOn_eq_new hdir false).symm.trans he)
  obtain ⟨err, commands, hsame⟩ : ∃ err commands,
      [Answer.cancelled (.error err)] = [Answer.cancelled (.ok commands)] :=
    ⟨_, _, hobs [.cancelOrder .healthy 1 1]⟩
  simp at hsame

end MatchingEngine

end ExchangeCore
