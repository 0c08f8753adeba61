import ExchangeCore.Engine.Chain

/-!
# The sequence numbers of balance events

The settlement service writes every balance event to the table `balance_ledger`, whose primary key
is `(user_id, asset_id, seq)`: for each user and asset the numbers are meant to grow from event to
event, so that no row overwrites an earlier one.

The engine has no balances, hence no versions to number from.  `NullLedger` answers 0 for every
version, so that each lock event is numbered 1; and the versions drawn for the trades of an order
restart from 0 with every order, so that the first event of the taker on the asset it locks is
numbered 1 again.  An order that meets a maker collides with its own lock event, and two orders
that lock the same asset of the same user collide with each other.  `ledgerKeys_iff` says that
nothing else goes wrong.
-/

namespace ExchangeCore

/-- The primary key of the ledger row of a balance event. -/
def EOBalanceEvent.ledgerKey (e : EOBalanceEvent) : UInt64 × UInt32 × UInt64 :=
  (e.userId, e.assetId, e.seq)

/-- The balance events of the outputs, in the order they are emitted. -/
def emittedEvents (outputs : List EngineOutput) : List EOBalanceEvent :=
  outputs.flatMap EngineOutput.balanceEvents

/-- The events can be appended to the ledger: no key is used twice, and for each user and asset
the numbers increase. -/
structure LedgerKeys (outputs : List EngineOutput) : Prop where
  distinct : ((emittedEvents outputs).map EOBalanceEvent.ledgerKey).Nodup
  increasing : (emittedEvents outputs).Pairwise (fun e e' =>
    e.userId = e'.userId → e.assetId = e'.assetId → e.seq < e'.seq)

/-- The key of a lock event: the first number of a user's asset. -/
def lockKey (k : UInt64 × UInt32) : UInt64 × UInt32 × UInt64 := (k.1, k.2, 1)

lemma lockKey_injective : Function.Injective lockKey := by
  rintro ⟨u, a⟩ ⟨u', a'⟩ h
  simp only [lockKey, Prod.mk.injEq] at h
  exact Prod.ext h.1 h.2.1

/-! ## The events of one trade -/

section Trade

variable {req : OrderRequest} {assets : UInt32 × UInt32} {t : Trade}

/-- The user and the asset an order locks. -/
def OrderRequest.lockOf (req : OrderRequest) (assets : UInt32 × UInt32) : UInt64 × UInt32 :=
  (req.userId, (lockTarget req.side assets req.price req.quantity).1)

/-- The taker of a trade is the order placed. -/
def TakerIs (req : OrderRequest) (t : Trade) : Prop :=
  match req.side with
  | .buy => t.buyUserId = req.userId
  | .sell => t.sellUserId = req.userId

@[simp] lemma ledgerKey_buyerQuoteEvent (refund : UInt64) (v : Versions) :
    (buyerQuoteEvent assets refund v t).ledgerKey =
      (t.buyUserId, assets.2, v.buyerQuote + 1) := by
  unfold buyerQuoteEvent
  split <;> rfl

lemma exists_lockKey_tradeEvents (assets : UInt32 × UInt32) (ht : TakerIs req t) (refund : UInt64) :
    ∃ e ∈ tradeEvents assets refund
      (tradeVersions (⟨⟩ : NullLedger) assets refund t HashMap.empty).1 t,
        e.ledgerKey = lockKey (req.lockOf assets) := by
  unfold TakerIs at ht
  cases hside : req.side with
  | buy =>
      -- the buyer's quote balance is the first whose version is drawn
      rw [hside] at ht
      refine ⟨_, List.mem_cons_self .., ?_⟩
      rw [ledgerKey_buyerQuoteEvent]
      simp [tradeVersions, getAndAddVersion, lockKey, OrderRequest.lockOf, lockTarget, hside, ht,
        Ledger.getBalanceVersion]
  | sell =>
      rw [hside] at ht
      by_cases hself : t.buyUserId = req.userId
      · by_cases hasset : assets.1 = assets.2
        · -- a self-trade in a single asset: the draw for the buyer's quote comes first
          refine ⟨_, List.mem_cons_self .., ?_⟩
          rw [ledgerKey_buyerQuoteEvent]
          simp [tradeVersions, getAndAddVersion, lockKey, OrderRequest.lockOf, lockTarget, hside,
            hself, hasset, Ledger.getBalanceVersion]
        · -- a self-trade: the buyer's base balance is the seller's
          refine ⟨_, List.mem_cons_of_mem _ (List.mem_cons_self ..), ?_⟩
          simp [tradeVersions, getAndAddVersion, tradeEvent, EOBalanceEvent.ledgerKey, lockKey,
            OrderRequest.lockOf, lockTarget, hside, hself, hasset, Ledger.getBalanceVersion]
      · refine ⟨_, List.mem_cons_of_mem _ (List.mem_cons_of_mem _ (List.mem_cons_self ..)), ?_⟩
        have hne : ¬t.buyUserId = t.sellUserId := fun h => hself (h.trans ht)
        simp [tradeVersions, getAndAddVersion, tradeEvent, EOBalanceEvent.ledgerKey, lockKey,
          OrderRequest.lockOf, lockTarget, hside, ht, Ledger.getBalanceVersion, Ne.symm hself]

end Trade

/-! ## The events of one output -/

section Output

variable {env : Externals} {inputSeq : UInt64} {req : OrderRequest} {clientOrderId : String}
  {assets : UInt32 × UInt32} {p : Parts NullLedger}

lemma balanceEvents_foldl_outputTrade (ledger : NullLedger) (req : OrderRequest)
    (assets : UInt32 × UInt32) (seq : UInt64) (trades : List Trade) (st : OutputLoop) :
    ∃ more, (trades.foldl (outputTrade ledger req assets seq) st).builder.balanceEvents =
      st.builder.balanceEvents ++ more := by
  induction trades generalizing st with
  | nil => exact ⟨[], by simp⟩
  | cons t trades ih =>
      obtain ⟨more, hmore⟩ := ih (outputTrade ledger req assets seq st t)
      rw [List.foldl_cons, hmore, builder_outputTrade]
      exact ⟨_, List.append_assoc ..⟩

lemma ledgerKeys_acceptedOutput_nil :
    (acceptedOutput env inputSeq req clientOrderId assets [] p).balanceEvents.map
      EOBalanceEvent.ledgerKey = [lockKey (req.lockOf assets)] := by
  rw [show (acceptedOutput env inputSeq req clientOrderId assets [] p).balanceEvents = _ from
    (finishOrder_fields req _).2.2.2]
  rfl

lemma ledgerKeys_acceptedOutput_cons {t : Trade} (ht : TakerIs req t) (trades : List Trade) :
    ∃ keys, (acceptedOutput env inputSeq req clientOrderId assets (t :: trades) p).balanceEvents.map
        EOBalanceEvent.ledgerKey = lockKey (req.lockOf assets) :: keys ∧
      lockKey (req.lockOf assets) ∈ keys := by
  obtain ⟨more, hmore⟩ := balanceEvents_foldl_outputTrade p.ledger req assets (p.outputSeq + 1)
    trades (outputTrade p.ledger req assets (p.outputSeq + 1) ⟨0, 0, [], HashMap.empty,
      acceptedBuilder env inputSeq req clientOrderId assets p⟩ t)
  rw [← List.foldl_cons, builder_outputTrade] at hmore
  obtain ⟨e, he, hkey⟩ := exists_lockKey_tradeEvents assets ht (buyerRefund req t)
  rw [show (acceptedOutput env inputSeq req clientOrderId assets (t :: trades) p).balanceEvents = _
    from (finishOrder_fields req _).2.2.2, hmore]
  refine ⟨_, rfl, ?_⟩
  rw [← hkey]
  exact List.mem_map_of_mem (List.mem_append_left _ he)

end Output

/-! ## One call -/

/-- A walk fills nothing exactly if there is nothing to fill or the best price does not cross. -/
lemma OrderBook.Inv.fills_eq_nil_iff {b : OrderBook} (hb : b.Inv) (order : Order) :
    (b.walkOf order).fills = [] ↔ order.quantity = 0 ∨
      OrderBook.bestPrice order.side (b.sideMap order.side.opposite) order.price = none := by
  have hflat : b.flatSide order.side.opposite =
      OrderBook.flat order.side (b.sideMap order.side.opposite) := by
    rw [OrderBook.flatSide, Side.opposite_opposite]
  rw [OrderBook.walkOf, hflat, OrderBook.bestPrice, OrderBook.bestEntry_eq, OrderBook.flat]
  cases hlevels : OrderBook.levels order.side (b.sideMap order.side.opposite) with
  | nil => simp [Reference.walk]
  | cons e ls =>
      have hok : OrderBook.LevelOk order.side.opposite e := by
        refine hb.sideOk _ e ((OrderBook.mem_levels order.side).mp ?_)
        rw [hlevels]
        exact List.mem_cons_self ..
      -- the first maker stands at the price of the first level
      obtain ⟨m, ms, hqueue⟩ := List.exists_cons_of_ne_nil hok.nonempty
      have hprice : m.price = e.1 := (hok.placed m (hqueue ▸ List.mem_cons_self ..)).2.1
      rw [List.flatMap_cons, hqueue, List.cons_append, Reference.walk, hprice]
      by_cases hcross : 0 < order.quantity ∧ OrderBook.Crosses order.side order.price e.1
      · have hne : order.quantity ≠ 0 := hcross.1.ne'
        simp only [if_pos hcross, List.head?_cons, if_pos hcross.2, hne, false_or]
        split <;> simp
      · simp only [if_neg hcross, List.head?_cons, true_iff]
        rcases not_and_or.mp hcross with hzero | hnot
        · exact Or.inl (by simpa using hzero)
        · exact Or.inr (by rw [if_neg hnot])

namespace MatchingEngine

/-- The call is accepted by the book, and its output reaches the caller. -/
def emits (me : MatchingEngine) (io : WalIo) (req : OrderRequest) : Bool :=
  (me.logWal io).isOk && !(bookAt me.orderBooks req.symbolId).any (·.hasOrder req.orderId) &&
    (me.orderWal.isNone || io.flush.isOk)

/-- The user and asset locked by the order of a call that emits an output. -/
def emittedLock (me : MatchingEngine) : Call → Option (UInt64 × UInt32)
  | .addOrderAndBuildOutput io _ req _ =>
      if me.emits io req then (me.assetMap.get? req.symbolId).map req.lockOf else none
  | _ => none

/-- If the call emits an output, its order meets no maker. -/
def EmitsPassive (me : MatchingEngine) : Call → Prop
  | .addOrderAndBuildOutput io _ req _ => me.emits io req = true → PassiveIn me req
  | _ => True

lemma emits_eq_true_iff {me : MatchingEngine} {io : WalIo} {req : OrderRequest}
    {book : OrderBook} (hbook : bookAt me.orderBooks req.symbolId = some book) :
    me.emits io req = true ↔ me.logWal io = .ok () ∧ req.orderId ∉ book.activeOrderIds ∧
      (me.orderWal = none ∨ io.flush = .ok ()) := by
  have hlog : (me.logWal io).isOk = true ↔ me.logWal io = .ok () := by
    cases me.logWal io <;> simp [Except.isOk, Except.toBool]
  have hflush : io.flush.isOk = true ↔ io.flush = .ok () := by
    cases io.flush <;> simp [Except.isOk, Except.toBool]
  simp [emits, hbook, OrderBook.hasOrder, hlog, hflush, and_assoc]

/-- What a call contributes to the ledger: nothing; the row of its lock event; or, if its order
meets a maker, two rows with the key of its lock event. -/
inductive Rows (me : MatchingEngine) (c : Call) : List EngineOutput → Prop
  | none (hlock : me.emittedLock c = .none) (hpassive : EmitsPassive me c) : Rows me c []
  | lock (o : EngineOutput) (k : UInt64 × UInt32) (hlock : me.emittedLock c = some k)
      (hpassive : EmitsPassive me c)
      (hkeys : o.balanceEvents.map EOBalanceEvent.ledgerKey = [lockKey k]) : Rows me c [o]
  | traded (o : EngineOutput) (k : UInt64 × UInt32) (keys : List (UInt64 × UInt32 × UInt64))
      (hlock : me.emittedLock c = some k) (hpassive : ¬EmitsPassive me c)
      (hkeys : o.balanceEvents.map EOBalanceEvent.ledgerKey = lockKey k :: keys)
      (hmem : lockKey k ∈ keys) : Rows me c [o]

lemma takerIs_of_mem_tradesOf {me : MatchingEngine} {book : OrderBook} {req : OrderRequest}
    {t : Trade} (ht : t ∈ me.tradesOf book req) : TakerIs req t := by
  obtain ⟨f, -, -, -, hbuy, hsell⟩ := Reference.mem_trades ht
  unfold TakerIs
  cases hside : req.side with
  | buy => exact hbuy.trans (congrArg Order.userId (Reference.buyer_of_buy hside f.1))
  | sell => exact hsell.trans (congrArg Order.userId (Reference.seller_of_sell hside f.1))

lemma tradesOf_eq_nil_iff {me : MatchingEngine} {book : OrderBook} {req : OrderRequest}
    (hb : book.Inv) (hid : req.orderId ∉ book.activeOrderIds) :
    me.tradesOf book req = [] ↔ Passive req book := by
  have hfills : me.tradesOf book req = [] ↔ (book.walkOf req.order).fills = [] := by
    rw [tradesOf]
    cases (book.walkOf req.order).fills <;> simp [Reference.trades]
  rw [hfills, hb.fills_eq_nil_iff, Passive]
  simp only [hid, false_or]
  rfl

/-- A call that emits nothing contributes nothing. -/
lemma Rows.of_not_emits {me : MatchingEngine} {io : WalIo} {req : OrderRequest}
    (hno : me.emits io req = false) (inputSeq : UInt64) (clientOrderId : String) :
    Rows me (.addOrderAndBuildOutput io inputSeq req clientOrderId) [] := by
  refine .none ?_ ?_
  · simp [emittedLock, hno]
  · simp [EmitsPassive, hno]

lemma rows_returned (env : Externals) {me : MatchingEngine} (h : EngineInv me) {io : WalIo}
    {req : OrderRequest} {assets : UInt32 × UInt32} {book : OrderBook}
    (hassets : me.assetMap.get? req.symbolId = some assets)
    (hbook : bookAt me.orderBooks req.symbolId = some book)
    (hid : req.orderId ∉ book.activeOrderIds) (hyes : me.emits io req = true) (inputSeq : UInt64)
    (clientOrderId : String) :
    Rows me (.addOrderAndBuildOutput io inputSeq req clientOrderId)
      [me.outputOf env inputSeq req clientOrderId assets book] := by
  have hlock : me.emittedLock (.addOrderAndBuildOutput io inputSeq req clientOrderId) =
      some (req.lockOf assets) := by
    simp [emittedLock, hyes, hassets]
  have hpassive : EmitsPassive me (.addOrderAndBuildOutput io inputSeq req clientOrderId) ↔
      me.tradesOf book req = [] := by
    rw [tradesOf_eq_nil_iff (h.books _ _ hbook) hid]
    simp [EmitsPassive, hyes, PassiveIn, hbook]
  cases htrades : me.tradesOf book req with
  | nil =>
      refine .lock _ _ hlock (hpassive.mpr htrades) ?_
      rw [outputOf, htrades]
      exact ledgerKeys_acceptedOutput_nil
  | cons t ts =>
      have ht : TakerIs req t := takerIs_of_mem_tradesOf (htrades ▸ List.mem_cons_self ..)
      obtain ⟨keys, hkeys, hmem⟩ := @ledgerKeys_acceptedOutput_cons env inputSeq req
        clientOrderId assets me.parts t ht ts
      refine .traded _ _ keys hlock (fun hc => ?_) ?_ hmem
      · rw [hpassive, htrades] at hc
        exact absurd hc (by simp)
      · rw [outputOf, htrades]
        exact hkeys

lemma rows_placement (env : Externals) {me : MatchingEngine} (h : EngineInv me) (io : WalIo)
    (inputSeq : UInt64) (req : OrderRequest) (clientOrderId : String) :
    Rows me (.addOrderAndBuildOutput io inputSeq req clientOrderId)
      (returnedOutputs
        [.output (me.addOrderAndBuildOutput env io inputSeq req clientOrderId).1]) := by
  have hp := placement_addOrderAndBuildOutput h env io inputSeq req clientOrderId
  generalize (me.addOrderAndBuildOutput env io inputSeq req clientOrderId).1 = r at hp
  generalize (me.addOrderAndBuildOutput env io inputSeq req clientOrderId).2 = me' at hp
  cases hp with
  | refused e hrefused =>
      rcases hrefused with hassets | hlog
      · refine .none (by simp [emittedLock, hassets]) (fun _ book hbook => ?_)
        obtain ⟨assets, hsome⟩ := h.exists_assets hbook
        exact absurd (hassets.symm.trans hsome) (by simp)
      · refine .of_not_emits ?_ _ _
        simp [emits, hlog, Except.isOk, Except.toBool]
  | duplicate e assets book hlog hassets hbook hid =>
      refine .of_not_emits ?_ _ _
      rw [Bool.eq_false_iff, ne_eq, emits_eq_true_iff hbook]
      exact fun hemits => hemits.2.1 hid
  | accepted assets book book' gen wal r hlog hassets hbook hid hadded hok hlost _ =>
      by_cases hflush : me.orderWal = none ∨ io.flush = .ok ()
      · rw [hok hflush]
        refine rows_returned env h hassets hbook hid ?_ _ _
        exact (emits_eq_true_iff hbook).mpr ⟨hlog, hid, hflush⟩
      · obtain ⟨e, rfl⟩ := hlost hflush
        refine .of_not_emits ?_ _ _
        rw [Bool.eq_false_iff, ne_eq, emits_eq_true_iff hbook]
        exact fun hemits => hflush hemits.2.2

/-- **One call.** -/
lemma rows_step (env : Externals) {me : MatchingEngine} (h : EngineInv me) (c : Call) :
    Rows me c (returnedOutputs [((machine env).step me c).2]) := by
  cases c with
  | addOrderAndBuildOutput io inputSeq req cid => exact rows_placement env h io inputSeq req cid
  | registerSymbol s assets => exact .none rfl trivial
  | addOrder io req => exact .none rfl trivial
  | addOrderBatch reqs => exact .none rfl trivial
  | cancelOrder io s orderId => exact .none rfl trivial

/-! ## Whole runs -/

/-- The users and assets locked by the orders of a run that emit an output, in order. -/
def emittedLocks (env : Externals) : MatchingEngine → List Call → List (UInt64 × UInt32)
  | _, [] => []
  | me, c :: calls =>
      (me.emittedLock c).toList ++ emittedLocks env ((machine env).step me c).1 calls

/-- The keys of the ledger rows of a run. -/
def runKeys (env : Externals) (me : MatchingEngine) (calls : List Call) :
    List (UInt64 × UInt32 × UInt64) :=
  (emittedEvents (returnedOutputs ((machine env).answers me calls))).map EOBalanceEvent.ledgerKey

lemma runKeys_cons (env : Externals) (me : MatchingEngine) (c : Call) (calls : List Call) :
    runKeys env me (c :: calls) =
      (emittedEvents (returnedOutputs [((machine env).step me c).2])).map
        EOBalanceEvent.ledgerKey ++ runKeys env ((machine env).step me c).1 calls := by
  rw [runKeys, Machine.answers_cons, returnedOutputs_cons, emittedEvents, List.flatMap_append,
    List.map_append]
  rfl

lemma locks_sublist_runKeys (env : Externals) (calls : List Call) :
    ∀ {me : MatchingEngine}, EngineInv me →
      ((emittedLocks env me calls).map lockKey).Sublist (runKeys env me calls) := by
  induction calls with
  | nil => exact fun _ => List.nil_sublist _
  | cons c calls ih =>
      intro me h
      rw [runKeys_cons, emittedLocks, List.map_append]
      refine List.Sublist.append ?_ (ih (EngineInv.step env me c h))
      have hrows := rows_step env h c
      generalize returnedOutputs [((machine env).step me c).2] = os at hrows
      cases hrows with
      | none hlock _ => simp [hlock]
      | lock o k hlock _ hkeys => simp [hlock, emittedEvents, hkeys]
      | traded o k keys hlock _ hkeys _ => simp [hlock, emittedEvents, hkeys]

/-- Where no key is used twice, no emitted order has met a maker. -/
lemma allSteps_of_nodup (env : Externals) (calls : List Call) :
    ∀ {me : MatchingEngine}, EngineInv me → (runKeys env me calls).Nodup →
      (machine env).AllSteps EmitsPassive me calls := by
  induction calls with
  | nil => exact fun _ _ => trivial
  | cons c calls ih =>
      intro me h hnodup
      rw [runKeys_cons] at hnodup
      obtain ⟨hhead, htail, -⟩ := List.nodup_append.mp hnodup
      refine ⟨?_, ih (EngineInv.step env me c h) htail⟩
      have hrows := rows_step env h c
      generalize returnedOutputs [((machine env).step me c).2] = os at hrows hhead
      cases hrows with
      | none _ hpassive => exact hpassive
      | lock o k _ hpassive _ => exact hpassive
      | traded o k keys _ _ hkeys hmem =>
          -- the row of the lock event and that of a trade event
          simp only [emittedEvents, List.flatMap_cons, List.flatMap_nil, List.append_nil, hkeys,
            List.nodup_cons] at hhead
          exact absurd hmem hhead.1

/-- Where no emitted order meets a maker, the rows are those of the lock events. -/
lemma runKeys_of_allSteps (env : Externals) (calls : List Call) :
    ∀ {me : MatchingEngine}, EngineInv me → (machine env).AllSteps EmitsPassive me calls →
      runKeys env me calls = (emittedLocks env me calls).map lockKey := by
  induction calls with
  | nil => exact fun _ _ => rfl
  | cons c calls ih =>
      rintro me h ⟨hpassive, hrest⟩
      rw [runKeys_cons, emittedLocks, List.map_append, ih (EngineInv.step env me c h) hrest]
      congr 1
      have hrows := rows_step env h c
      generalize returnedOutputs [((machine env).step me c).2] = os at hrows
      cases hrows with
      | none hlock _ => simp [hlock, emittedEvents]
      | lock o k hlock _ hkeys => simp [hlock, emittedEvents, hkeys]
      | traded o k keys _ hnot _ _ => exact absurd hpassive hnot

/-- Rows that are all lock rows of different users and assets are in order. -/
lemma LedgerKeys.of_locks {outputs : List EngineOutput} {locks : List (UInt64 × UInt32)}
    (hkeys : (emittedEvents outputs).map EOBalanceEvent.ledgerKey = locks.map lockKey)
    (hnodup : locks.Nodup) : LedgerKeys outputs := by
  have hdistinct : ((emittedEvents outputs).map EOBalanceEvent.ledgerKey).Nodup := by
    rw [hkeys]
    exact hnodup.map lockKey_injective
  refine ⟨hdistinct, ?_⟩
  -- two events of the same user and asset would both be numbered 1
  have hone : ∀ e ∈ emittedEvents outputs, e.seq = 1 := by
    intro e he
    have hmem : e.ledgerKey ∈ locks.map lockKey := hkeys ▸ List.mem_map_of_mem he
    obtain ⟨k, -, hk⟩ := List.mem_map.mp hmem
    exact (congrArg (·.2.2) hk).symm
  refine (List.pairwise_map.mp hdistinct).imp_of_mem ?_
  intro e e' he he' hne huser hasset
  refine absurd ?_ hne
  simp only [EOBalanceEvent.ledgerKey, huser, hasset, hone e he, hone e' he']

/-- **When the balance events can be appended to the ledger.**  For every run of a fresh engine,
the keys `(user_id, asset_id, seq)` of all emitted balance events are distinct and increase for
each user and asset, exactly if no order that emits an output meets a maker and no two of them
lock the same asset of the same user. -/
theorem ledgerKeys_iff (env : Externals) (enableLocalWal : Bool) (calls : List Call) :
    LedgerKeys (returnedOutputs ((machine env).answers (new enableLocalWal) calls)) ↔
      (machine env).AllSteps EmitsPassive (new enableLocalWal) calls ∧
        (emittedLocks env (new enableLocalWal) calls).Nodup := by
  have h := EngineInv.new enableLocalWal
  constructor
  · rintro ⟨hdistinct, -⟩
    refine ⟨allSteps_of_nodup env calls h hdistinct, ?_⟩
    exact (hdistinct.sublist (locks_sublist_runKeys env calls h)).of_map _
  · rintro ⟨hpassive, hnodup⟩
    exact LedgerKeys.of_locks (runKeys_of_allSteps env calls h hpassive) hnodup

/-- Two resting buys of one user: both lock events are numbered 1, and the second row overwrites
the first. -/
theorem second_lock_repeats_key :
    ¬∃ env : Externals, LedgerKeys (returnedOutputs ((machine env).answers (new false)
      [.registerSymbol 1 (10, 20),
        .addOrderAndBuildOutput .healthy 1 (limitRequest 1 7 .buy 100 5) "a",
        .addOrderAndBuildOutput .healthy 2 (limitRequest 2 7 .buy 99 5) "b"])) := by
  rintro ⟨env, hdistinct, -⟩
  have hnodup : ([(7, 20, 1), (7, 20, 1)] : List (UInt64 × UInt32 × UInt64)).Nodup := hdistinct
  exact absurd hnodup (by decide)

end MatchingEngine

end ExchangeCore
