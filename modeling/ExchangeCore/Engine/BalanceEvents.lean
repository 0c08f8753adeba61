import ExchangeCore.Engine.Obligation

/-!
# The balance events of the engine

The engine keeps no balances; it reports signed changes.  Two results say that the reports add
up.

* `frozen_deltas_eq_obligation`: over every run of placements and cancellations whose held
  amounts fit a signed word, the reported changes of a user's frozen funds, less the amounts the
  cancellations report for unlocking, are what the user's resting orders hold, as long as no answer
  is lost by the order WAL (`failed_flush_hides_lock`).
* `output_zero_sum`: the events of a single output move funds around but neither create nor
  destroy any, asset by asset.

Both are read off the lock event and the four events of each trade, and then summed over the
trades of the walk.  All amounts are cast from `u64` to `i64` before they are negated; `2 ^ 63`
has no negation there, which `output_zero_sum` has to exclude (`huge_sell_not_zero_sum`).
-/

namespace ExchangeCore

open OrderBook (Added Removed Crosses mem_restingOrders walkOf)
open Reference MatchingEngine

/-! ## The events of one trade -/

/-- The reported change of a user's frozen funds of an asset. -/
def frozenDelta (u : UInt64) (a : UInt32) (events : List EOBalanceEvent) : ℤ :=
  (events.map (fun e => if u = e.userId ∧ a = e.assetId then e.deltaFrozen.toInt else 0)).sum

/-- The reported change of all funds of an asset. -/
def assetDelta (a : UInt32) (events : List EOBalanceEvent) : ℤ :=
  (events.map (fun e =>
    if a = e.assetId then e.deltaAvail.toInt + e.deltaFrozen.toInt else 0)).sum

section TradeEvents

variable {assets : UInt32 × UInt32} {refund : UInt64} {t : Trade}

lemma buyerQuoteEvent_account (v : Versions) :
    (buyerQuoteEvent assets refund v t).userId = t.buyUserId ∧
      (buyerQuoteEvent assets refund v t).assetId = assets.2 := by
  simp only [buyerQuoteEvent]
  split <;> exact ⟨rfl, rfl⟩

/-- With or without a refund, cost and refund leave the frozen funds and the refund arrives. -/
lemma buyerQuoteEvent_deltas (v : Versions)
    (h : (t.price * t.quantity).toNat + refund.toNat < 2 ^ 63) :
    (buyerQuoteEvent assets refund v t).deltaAvail.toInt = refund.toNat ∧
      (buyerQuoteEvent assets refund v t).deltaFrozen.toInt =
        -((t.price * t.quantity).toNat + refund.toNat : ℤ) := by
  simp only [buyerQuoteEvent]
  split
  · exact ⟨Word.toInt_toInt64 (by omega), Word.toInt_neg_add_toInt64 h⟩
  · rename_i hzero
    have hrefund : refund.toNat = 0 := by
      have := mt (Word.pos_iff refund).mpr hzero
      omega
    refine ⟨by rw [hrefund]; rfl, ?_⟩
    rw [show (tradeEvent t.buyUserId assets.2 (v.buyerQuote + 1) 0
      (-(t.price * t.quantity).toInt64) "trade_debit" t).deltaFrozen =
        -(t.price * t.quantity).toInt64 from rfl, Word.toInt_neg_toInt64 (by omega), hrefund]
    simp

/-- A trade releases cost and refund from the buyer and the quantity from the seller. -/
lemma frozenDelta_tradeEvents (u : UInt64) (a : UInt32) (v : Versions)
    (hcost : (t.price * t.quantity).toNat + refund.toNat < 2 ^ 63)
    (hquantity : t.quantity.toNat < 2 ^ 63) :
    frozenDelta u a (tradeEvents assets refund v t) =
      -((posting t.buyUserId assets.2 ((t.price * t.quantity).toNat + refund.toNat) u a +
        posting t.sellUserId assets.1 t.quantity.toNat u a : ℕ) : ℤ) := by
  obtain ⟨huser, hasset⟩ := @buyerQuoteEvent_account assets refund t v
  obtain ⟨-, hfrozen⟩ := @buyerQuoteEvent_deltas assets refund t v hcost
  have hsell := Word.toInt_neg_toInt64 hquantity
  simp only [frozenDelta, tradeEvents, tradeEvent, List.map_cons, List.map_nil, List.sum_cons,
    List.sum_nil, huser, hasset, hfrozen, hsell, Int64.toInt_zero, posting]
  split_ifs <;> push_cast <;> ring

lemma assetDelta_tradeEvents (a : UInt32) (v : Versions)
    (hcost : (t.price * t.quantity).toNat + refund.toNat < 2 ^ 63)
    (hquantity : t.quantity.toNat ≠ 2 ^ 63) :
    assetDelta a (tradeEvents assets refund v t) = 0 := by
  obtain ⟨-, hasset⟩ := @buyerQuoteEvent_account assets refund t v
  obtain ⟨havail, hfrozen⟩ := @buyerQuoteEvent_deltas assets refund t v hcost
  have hsell := Word.toInt_neg_of_ne hquantity
  have hcredit : (t.price * t.quantity).toInt64.toInt = (t.price * t.quantity).toNat :=
    Word.toInt_toInt64 (by omega)
  simp only [assetDelta, tradeEvents, tradeEvent, List.map_cons, List.map_nil, List.sum_cons,
    List.sum_nil, hasset, havail, hfrozen, hsell, hcredit, Int64.toInt_zero]
  split_ifs <;> ring

end TradeEvents

/-! ## The events of one output -/

lemma sum_map_neg_cast {α : Type*} (f : α → ℕ) (l : List α) :
    (l.map (fun x => -(f x : ℤ))).sum = -((l.map f).sum : ℤ) := by
  induction l with
  | nil => rfl
  | cons x l ih =>
      rw [List.map_cons, List.sum_cons, ih, List.map_cons, List.sum_cons]
      push_cast
      ring

section Output

variable {me : MatchingEngine} {req : OrderRequest} {assets : UInt32 × UInt32} {b : OrderBook}

/-- What is known of every trade of an accepted order: its buyer and its seller are the order
and a resting one, each is released by its own worth, and the quantity is bounded by both. -/
lemma mem_tradesOf (h : EngineInv me) (hb : bookAt me.orderBooks req.symbolId = some b)
    (hfits : req.order.worth req.quantity.toNat < 2 ^ 64) {t : Trade}
    (ht : t ∈ me.tradesOf b req) :
    ∃ m ∈ b.restingOrders, t.quantity ≤ m.quantity ∧ t.quantity ≤ req.quantity ∧
      t.price.toNat * t.quantity.toNat + (buyerRefund req t).toNat =
        (buyer req.order m).worth t.quantity.toNat ∧
      t.quantity.toNat = (seller req.order m).worth t.quantity.toNat := by
  obtain ⟨f, hf, hprice, hquantity, hbuyer, -⟩ := mem_trades ht
  obtain ⟨hmem, hcross, hle, hle'⟩ := mem_fills hf
  have hside : f.1.side = req.side.opposite := (h.books _ _ hb).side_eq hmem
  have hworth : req.order.worth f.2.toNat < 2 ^ 64 :=
    lt_of_le_of_lt (req.order.worth_mono (UInt64.le_iff_toNat_le.mp hle')) hfits
  have hamounts := trade_amounts hside hcross hworth hprice hquantity hbuyer
  rw [hquantity] at hamounts ⊢
  exact ⟨f.1, mem_restingOrders.mpr ⟨_, hmem⟩, hle, hle', hamounts⟩

lemma tradesOf_fit (h : EngineInv me) (hb : bookAt me.orderBooks req.symbolId = some b)
    (hfits : req.order.worth req.quantity.toNat < 2 ^ 63)
    (hall : ∀ o ∈ b.restingOrders, o.worth o.quantity.toNat < 2 ^ 63) {t : Trade}
    (ht : t ∈ me.tradesOf b req) :
    t.price.toNat * t.quantity.toNat + (buyerRefund req t).toNat < 2 ^ 63 ∧
      t.quantity.toNat < 2 ^ 63 := by
  obtain ⟨m, hm, hle, hle', hcost, hqty⟩ := mem_tradesOf h hb (by omega) ht
  -- both parties fit, so both sides of the trade do
  have hbound : ∀ o, o = req.order ∨ o = m → o.worth t.quantity.toNat < 2 ^ 63 := by
    rintro o (rfl | rfl)
    · exact lt_of_le_of_lt (req.order.worth_mono (UInt64.le_iff_toNat_le.mp hle')) hfits
    · exact lt_of_le_of_lt (o.worth_mono (UInt64.le_iff_toNat_le.mp hle)) (hall o hm)
  have hbuyer : (buyer req.order m).worth t.quantity.toNat < 2 ^ 63 := by
    refine hbound _ ?_
    unfold buyer
    split <;> simp
  have hseller : (seller req.order m).worth t.quantity.toNat < 2 ^ 63 := by
    refine hbound _ ?_
    unfold seller
    split <;> simp
  exact ⟨hcost ▸ hbuyer, lt_of_eq_of_lt hqty hseller⟩

/-- The frozen funds an accepted order's events report: the lock, less what its trades
release. -/
lemma frozenDelta_outputOf (env : Externals) (inputSeq : UInt64) (clientOrderId : String)
    (h : EngineInv me) (hb : bookAt me.orderBooks req.symbolId = some b)
    (hfits : req.order.worth req.quantity.toNat < 2 ^ 63)
    (hall : ∀ o ∈ b.restingOrders, o.worth o.quantity.toNat < 2 ^ 63) (u : UInt64) (a : UInt32) :
    frozenDelta u a (me.outputOf env inputSeq req clientOrderId assets b).balanceEvents =
      (held assets u a req.order req.quantity.toNat : ℤ) -
        (((me.outputOf env inputSeq req clientOrderId assets b).trades.map
          (fun t => released t u a)).sum : ℕ) := by
  have hfits' : req.order.worth req.quantity.toNat < 2 ^ 64 := by omega
  have hlock : (lockTarget req.side assets req.price req.quantity).2.toNat =
      req.order.worth req.quantity.toNat := lockTarget_snd req.order assets hfits'
  have htrade : ∀ v, ∀ t ∈ me.tradesOf b req,
      frozenDelta u a (tradeEvents assets (buyerRefund req t) v t) =
        -((released (tradeOutput req.symbolId assets (buyerRefund req t) t) u a : ℕ) : ℤ) := by
    intro v t ht
    obtain ⟨hpaid, hunits⟩ := tradesOf_fit h hb hfits hall ht
    have hmul : (t.price * t.quantity).toNat = t.price.toNat * t.quantity.toNat :=
      Word.toNat_mul_of_lt (by omega)
    rw [frozenDelta_tradeEvents u a v (by omega) (by omega), hmul]
    rfl
  rw [frozenDelta, MatchingEngine.outputOf, acceptedOutput_sum_events env inputSeq req
    clientOrderId assets _ _ _ _ htrade, acceptedOutput_trades, List.map_map]
  rw [sum_map_neg_cast, sub_eq_add_neg]
  congr 1
  simp only [lockEvent, lockSnapshot, lockTarget_fst, held, posting,
    show req.order.userId = req.userId from rfl, show req.order.side = req.side from rfl]
  split
  · rw [Word.toInt_toInt64 (by rw [hlock]; exact hfits), hlock]
  · rfl

end Output

/-! ## Runs of placements and cancellations -/

/-- Every resting order holds an amount that fits a signed word. -/
def AllFit (me : MatchingEngine) : Prop :=
  EachBook me (fun b => ∀ o ∈ b.restingOrders, o.worth o.quantity.toNat < 2 ^ 63)

/-- The call is a registration, a cancellation, or a placement with an output whose held amount
fits a signed word. -/
def HeldFits : Call → Prop
  | .registerSymbol _ _ => True
  | .addOrderAndBuildOutput _ _ req _ => req.order.worth req.quantity.toNat < 2 ^ 63
  | .addOrder _ _ => False
  | .addOrderBatch _ => False
  | .cancelOrder _ _ _ => True

/-- The answer of a placement is not lost by the WAL. -/
def KeepsAnswer (me : MatchingEngine) : Call → Prop
  | .addOrderAndBuildOutput io _ _ _ => me.orderWal = none ∨ io.flush = .ok ()
  | _ => True

/-- Both. -/
def Measured (me : MatchingEngine) (call : Call) : Prop := HeldFits call ∧ KeepsAnswer me call

/-- What an answer reports of a user's frozen funds. -/
def answerFrozen (u : UInt64) (a : UInt32) : Answer → ℤ
  | .output (.ok (_, output)) => frozenDelta u a output.balanceEvents
  | _ => 0

/-- What a list of commands unlocks for a user. -/
def commandsUnlocked (u : UInt64) (a : UInt32) (commands : List LedgerCommand) : ℕ :=
  (commands.map fun
    | .unlock userId assetId amount _ _ => posting userId assetId amount.toNat u a
    | _ => 0).sum

/-- What an answer reports for unlocking. -/
def answerUnlocked (u : UInt64) (a : UInt32) : Answer → ℕ
  | .cancelled (.ok commands) => commandsUnlocked u a commands
  | _ => 0

section Step

variable {me me' : MatchingEngine} {s : UInt32} {b b' : OrderBook}

lemma fits_added {order : Order} (h : Added b order (b.walkOf order) b')
    (hall : ∀ o ∈ b.restingOrders, o.worth o.quantity.toNat < 2 ^ 63)
    (hfits : order.worth order.quantity.toNat < 2 ^ 63) :
    ∀ o ∈ b'.restingOrders, o.worth o.quantity.toNat < 2 ^ 63 := by
  refine h.forall_resting (fun o q hle ho => ?_) hfits hall
  exact lt_of_le_of_lt (o.worth_mono (UInt64.le_iff_toNat_le.mp hle)) ho

/-- A placement: the frozen funds reported are those of the order and its makers. -/
lemma obligation_placement (env : Externals) {io : WalIo} {inputSeq : UInt64} {req : OrderRequest}
    {cid : String} (h : EngineInv me) (hall : AllFit me)
    (hc : Measured me (.addOrderAndBuildOutput io inputSeq req cid)) (u : UInt64) (a : UInt32) :
    AllFit (me.addOrderAndBuildOutput env io inputSeq req cid).2 ∧
      (obligation (me.addOrderAndBuildOutput env io inputSeq req cid).2 u a : ℤ) =
        obligation me u a +
          answerFrozen u a (.output (me.addOrderAndBuildOutput env io inputSeq req cid).1) -
          answerUnlocked u a (.output (me.addOrderAndBuildOutput env io inputSeq req cid).1) := by
  have hp := placement_addOrderAndBuildOutput h env io inputSeq req cid
  generalize (me.addOrderAndBuildOutput env io inputSeq req cid).1 = r at hp
  generalize (me.addOrderAndBuildOutput env io inputSeq req cid).2 = me' at hp
  cases hp with
  | refused e _ => exact ⟨hall, by simp [answerFrozen, answerUnlocked]⟩
  | duplicate e assets book _ _ _ _ =>
      refine ⟨hall, ?_⟩
      simp only [answerFrozen, answerUnlocked, Nat.cast_zero, add_zero, sub_zero]
      rfl
  | accepted assets book book' gen wal r _ hassets hbook hid hadded hok _ _ =>
      have hfits : req.order.worth req.quantity.toNat < 2 ^ 63 := hc.1
      have hflush : me.orderWal = none ∨ io.flush = .ok () := hc.2
      have hsum := obligation_accepted env inputSeq cid h hassets hbook hadded
        (rfl : (me.placed req.symbolId book' gen (me.outputOf env inputSeq req cid assets book)
          wal).orderBooks = _) rfl (by omega) u a
      have hdelta := @frozenDelta_outputOf me req assets book env inputSeq cid h hbook hfits
        (hall _ _ hbook) u a
      refine ⟨hall.withBook hbook (fits_added hadded (hall _ _ hbook) hfits) rfl, ?_⟩
      rw [hok hflush]
      simp only [answerFrozen, answerUnlocked, hdelta, Nat.cast_zero, sub_zero]
      omega

lemma obligation_cancellation (env : Externals) (io : WalIo) (symbolId : UInt32) (orderId : UInt64)
    (h : EngineInv me) (hall : AllFit me) (u : UInt64) (a : UInt32) :
    AllFit (me.cancelOrder env io symbolId orderId).2 ∧
      (obligation (me.cancelOrder env io symbolId orderId).2 u a : ℤ) =
        obligation me u a +
          answerFrozen u a (.cancelled (me.cancelOrder env io symbolId orderId).1) -
          answerUnlocked u a (.cancelled (me.cancelOrder env io symbolId orderId).1) := by
  have hp := cancellation_cancelOrder h env io symbolId orderId
  generalize (me.cancelOrder env io symbolId orderId).1 = r at hp
  generalize (me.cancelOrder env io symbolId orderId).2 = me' at hp
  cases hp with
  | refused e => exact ⟨hall, by simp [answerFrozen, answerUnlocked]⟩
  | notFound e s book hbook hid =>
      -- Forgetting an id touches no queue.
      have hforget : ∀ o ∈ (book.forget orderId).restingOrders,
          o.worth o.quantity.toNat < 2 ^ 63 := fun o ho => hall s book hbook o ho
      refine ⟨hall.withBook hbook hforget rfl, ?_⟩
      have hsame := obligation_forget h hbook
        (rfl : (me.replaced s (book.forget orderId) me.stateHash).orderBooks = _) rfl u a
      rw [hsame]
      simp [answerFrozen, answerUnlocked]
  | cancelled s assets book book' o _ _ stateHash _ hbook hassets ho hid hremoved =>
      have hworth := hall _ _ hbook o ho
      have hamount := lockTarget_snd o assets (by omega)
      have hsum := obligation_cancelled hassets hbook hremoved
        (rfl : (me.replaced s book' stateHash).orderBooks = _) rfl u a
      refine ⟨hall.withBook hbook (fun x hx => hall _ _ hbook x ?_) rfl, ?_⟩
      · exact hremoved.perm.mem_iff.mpr (List.mem_cons_of_mem _ hx)
      · simp only [answerFrozen, answerUnlocked, commandsUnlocked, List.map_cons, List.map_nil,
          List.sum_cons, List.sum_nil, lockTarget_fst, hamount]
        rw [← hsum]
        simp only [held]
        push_cast
        ring

/-- **One call.**  The obligations change by the frozen funds reported, less those reported for
unlocking, and the resting orders keep fitting. -/
lemma obligation_step (env : Externals) {c : Call} (h : EngineInv me) (hall : AllFit me)
    (hc : Measured me c) (u : UInt64) (a : UInt32) :
    AllFit ((machine env).step me c).1 ∧
      (obligation ((machine env).step me c).1 u a : ℤ) =
        obligation me u a + answerFrozen u a ((machine env).step me c).2 -
          answerUnlocked u a ((machine env).step me c).2 := by
  cases c with
  | registerSymbol s assets =>
      refine ⟨?_, ?_⟩
      · exact hall.registerSymbol assets (by simp)
      · have hsame := obligation_registerSymbol h s assets u a
        simp only [machine, answerFrozen, answerUnlocked, hsame]
        simp
  | addOrderAndBuildOutput io inputSeq req cid => exact obligation_placement env h hall hc u a
  | addOrder io req => exact absurd hc.1 id
  | addOrderBatch reqs => exact absurd hc.1 id
  | cancelOrder io s orderId => exact obligation_cancellation env io s orderId h hall u a

end Step

lemma obligation_run (env : Externals) (u : UInt64) (a : UInt32) (calls : List Call) :
    ∀ {me : MatchingEngine}, EngineInv me → AllFit me →
      (machine env).AllSteps Measured me calls →
        (obligation ((machine env).run me calls) u a : ℤ) = obligation me u a +
          (((machine env).answers me calls).map (answerFrozen u a)).sum -
            (((machine env).answers me calls).map (answerUnlocked u a)).sum := by
  induction calls with
  | nil => intros; simp
  | cons c calls ih =>
      rintro me h hall ⟨hc, hrest⟩
      obtain ⟨hall', hstep⟩ := obligation_step env h hall hc u a
      rw [Machine.run_cons, ih (EngineInv.step env me c h) hall' hrest, hstep,
        Machine.answers_cons, List.map_cons, List.map_cons, List.sum_cons, List.sum_cons]
      push_cast
      ring

/-- **The reported frozen funds are the obligations of the resting orders.**  Over every run of
registrations, placements and cancellations of a fresh engine in which every placed order holds
less than `2 ^ 63`, the frozen deltas of all emitted events of a user and an asset, less what
the cancellations report for unlocking, are the total obligation of that user's resting orders
in that asset. -/
theorem frozen_deltas_eq_obligation (env : Externals) (enableLocalWal : Bool) (calls : List Call)
    (h : (machine env).AllSteps Measured (new enableLocalWal) calls) (u : UInt64) (a : UInt32) :
    (((machine env).answers (new enableLocalWal) calls).map (answerFrozen u a)).sum -
        (((machine env).answers (new enableLocalWal) calls).map (answerUnlocked u a)).sum =
      (obligation ((machine env).run (new enableLocalWal) calls) u a : ℤ) := by
  have hrun := obligation_run env u a calls (EngineInv.new enableLocalWal)
    (EachBook.new enableLocalWal) h
  have hempty : obligation (new enableLocalWal) u a = 0 := rfl
  rw [hrun, hempty]
  simp

/-- A sell order of 2, a buy order of 7 that takes it below its limit, and the cancellation of
what is left. -/
def partlyFilledThenCancelled : List Call :=
  [.registerSymbol 1 (10, 20),
    .addOrderAndBuildOutput .healthy 1 (limitRequest 1 7 .sell 100 2) "a",
    .addOrderAndBuildOutput .healthy 2 (limitRequest 2 8 .buy 110 7) "b",
    .cancelOrder .healthy 1 2]

/-- The sums agree after a fill below the limit and the cancellation of the rest. -/
theorem frozen_deltas_eq_obligation_cancelled :
    ¬∃ env : Externals,
      (((machine env).answers (new false) partlyFilledThenCancelled).map (answerFrozen 8 20)).sum -
        (((machine env).answers (new false) partlyFilledThenCancelled).map
          (answerUnlocked 8 20)).sum ≠
      (obligation ((machine env).run (new false) partlyFilledThenCancelled) 8 20 : ℤ) := by
  rintro ⟨env, hnot⟩
  exact hnot (frozen_deltas_eq_obligation env false partlyFilledThenCancelled
    ⟨⟨trivial, trivial⟩, ⟨by rw [HeldFits]; decide, Or.inl rfl⟩,
      ⟨by rw [HeldFits]; decide, Or.inl rfl⟩, ⟨trivial, trivial⟩, trivial⟩ 8 20)

/-- A sell order of 2 that comes to rest, but the flush of the WAL fails. -/
def restingUnreported : List Call :=
  [.registerSymbol 1 (10, 20),
    .addOrderAndBuildOutput ⟨.ok (), .error "disk full"⟩ 1 (limitRequest 1 7 .sell 100 2) "a"]

theorem failed_flush_hides_lock :
    ¬∃ env : Externals, ∀ (enableLocalWal : Bool) (calls : List Call),
      (machine env).AllSteps (fun _ => HeldFits) (new enableLocalWal) calls →
        ∀ u a, (((machine env).answers (new enableLocalWal) calls).map (answerFrozen u a)).sum -
            (((machine env).answers (new enableLocalWal) calls).map (answerUnlocked u a)).sum =
          (obligation ((machine env).run (new enableLocalWal) calls) u a : ℤ) := by
  rintro ⟨env, h⟩
  have hsum := h true restingUnreported ⟨trivial, by simp only [HeldFits]; decide, trivial⟩ 7 10
  have hnone : (0 : ℤ) = 2 := hsum
  exact absurd hnone (by decide)

/-! ## A single output -/

section ZeroSum

variable {env : Externals} {io : WalIo} {inputSeq : UInt64} {req : OrderRequest}
  {clientOrderId : String} {me : MatchingEngine} {id : UInt64} {output : EngineOutput}

lemma exists_outputOf (h : EngineInv me)
    (hok : (me.addOrderAndBuildOutput env io inputSeq req clientOrderId).1 = .ok (id, output)) :
    ∃ assets book, me.assetMap.get? req.symbolId = some assets ∧
      bookAt me.orderBooks req.symbolId = some book ∧
      output = me.outputOf env inputSeq req clientOrderId assets book := by
  have hp := placement_addOrderAndBuildOutput h env io inputSeq req clientOrderId
  rw [hok] at hp
  generalize (me.addOrderAndBuildOutput env io inputSeq req clientOrderId).2 = me' at hp
  cases hp with
  | accepted assets book book' gen wal _ _ hassets hbook _ _ hret hlost _ =>
      refine ⟨assets, book, hassets, hbook, ?_⟩
      by_cases hflush : me.orderWal = none ∨ io.flush = .ok ()
      · exact (Prod.mk.inj (Except.ok.inj (hret hflush))).2
      · obtain ⟨e, he⟩ := hlost hflush
        cases he

lemma assetDelta_lockEvent {lock : LockSnapshot} (frozen : UInt64)
    (h : lock.amount.toNat ≠ 2 ^ 63) :
    (lockEvent req lock frozen).deltaAvail.toInt + (lockEvent req lock frozen).deltaFrozen.toInt =
      0 := by
  rw [show (lockEvent req lock frozen).deltaAvail = -lock.amount.toInt64 from rfl,
    Word.toInt_neg_of_ne h]
  simp [lockEvent]

/-- A trade of an accepted order fits a signed word together with its refund: with a refund it
is bounded by the order, without one by itself. -/
lemma cost_add_refund_lt {b : OrderBook} (h : EngineInv me)
    (hb : bookAt me.orderBooks req.symbolId = some b)
    (horder : req.price.toNat * req.quantity.toNat < 2 ^ 63) {t : Trade}
    (ht : t ∈ me.tradesOf b req) (hcost : t.price.toNat * t.quantity.toNat < 2 ^ 63) :
    (t.price * t.quantity).toNat + (buyerRefund req t).toNat < 2 ^ 63 := by
  have hmul : (t.price * t.quantity).toNat = t.price.toNat * t.quantity.toNat :=
    Word.toNat_mul_of_lt (by omega)
  rw [hmul]
  cases hside : req.side with
  | sell =>
      have hnone : buyerRefund req t = 0 := by simp [buyerRefund, hside]
      rw [hnone]
      simpa using hcost
  | buy =>
      have hworth : ∀ n, req.order.worth n = req.price.toNat * n := by
        intro n
        simp [Order.worth, OrderRequest.order, hside]
      obtain ⟨m, -, -, hle, hsum, -⟩ :=
        mem_tradesOf h hb (by rw [hworth]; omega) ht
      have hbuyer : buyer req.order m = req.order := by simp [buyer, OrderRequest.order, hside]
      rw [hsum, hbuyer]
      refine lt_of_le_of_lt (req.order.worth_mono (UInt64.le_iff_toNat_le.mp hle)) ?_
      rw [hworth]
      exact horder

/-- **Every output is zero-sum.**  In every reachable engine, the events of a returned output
neither create nor destroy funds of any asset, provided the cost of the order and of each of its
trades is below `2 ^ 63` and no base amount is exactly `2 ^ 63`. -/
theorem output_zero_sum (env : Externals) (enableLocalWal : Bool) (me : MatchingEngine)
    (hreach : (machine env).Reachable (new enableLocalWal) me) (io : WalIo) (inputSeq : UInt64)
    (req : OrderRequest) (clientOrderId : String) (id : UInt64) (output : EngineOutput)
    (hok : (me.addOrderAndBuildOutput env io inputSeq req clientOrderId).1 = .ok (id, output))
    (horder : req.price.toNat * req.quantity.toNat < 2 ^ 63)
    (htrades : ∀ t ∈ output.trades, t.price.toNat * t.quantity.toNat < 2 ^ 63)
    (hsell : req.side = .sell → req.quantity.toNat ≠ 2 ^ 63)
    (hbase : ∀ t ∈ output.trades, t.quantity.toNat ≠ 2 ^ 63) (a : UInt32) :
    assetDelta a output.balanceEvents = 0 := by
  have h : EngineInv me := hreach.invariant (EngineInv.step env) (EngineInv.new enableLocalWal)
  obtain ⟨assets, book, -, hbook, rfl⟩ := exists_outputOf h hok
  rw [outputOf, acceptedOutput_trades] at htrades hbase
  simp only [List.forall_mem_map] at htrades hbase
  have htrade : ∀ v, ∀ t ∈ me.tradesOf book req,
      assetDelta a (tradeEvents assets (buyerRefund req t) v t) = 0 := fun v t ht =>
    assetDelta_tradeEvents a v (cost_add_refund_lt h hbook horder ht (htrades t ht)) (hbase t ht)
  have hamount : (lockTarget req.side assets req.price req.quantity).2.toNat ≠ 2 ^ 63 := by
    cases hside : req.side with
    | sell => exact hsell hside
    | buy =>
        have hmul := Word.toNat_mul_of_lt (a := req.price) (b := req.quantity) (by omega)
        simp only [lockTarget, hmul]
        omega
  have hlock := @assetDelta_lockEvent req (lockSnapshot me.parts.ledger req assets) 0 hamount
  rw [assetDelta, outputOf, acceptedOutput_sum_events env inputSeq req clientOrderId assets _ _ _ _
    htrade, hlock]
  simp

end ZeroSum

/-- A sell order rests; the engine a buy order arrives in. -/
def oneResting (env : Externals) : MatchingEngine :=
  (machine env).run (new false)
    [.registerSymbol 1 (10, 20),
      .addOrderAndBuildOutput .healthy 1 (limitRequest 1 7 .sell 100 2) "a"]

theorem output_zero_sum_refund :
    ¬∃ (env : Externals) (id : UInt64) (output : EngineOutput) (a : UInt32),
      ((oneResting env).addOrderAndBuildOutput env .healthy 2 (limitRequest 2 8 .buy 110 7)
        "b").1 = .ok (id, output) ∧ assetDelta a output.balanceEvents ≠ 0 := by
  rintro ⟨env, id, output, a, hok, hnot⟩
  have hreach : (machine env).Reachable (new false) (oneResting env) := ⟨_, rfl⟩
  -- the trade, read off the only book
  have hmem : ∀ t ∈ output.trades, t.price = 100 ∧ t.quantity = 2 := by
    obtain ⟨assets, book, -, hbook, rfl⟩ :=
      exists_outputOf (hreach.invariant (EngineInv.step env) (EngineInv.new false)) hok
    obtain rfl : ((OrderBook.new 1).addOrder (limitRequest 1 7 .sell 100 2).order .new 0).2.1 =
      book := Option.some.inj hbook
    have hfills : ∀ f ∈ (((OrderBook.new 1).addOrder (limitRequest 1 7 .sell 100 2).order .new
        0).2.1.walkOf (limitRequest 2 8 .buy 110 7).order).fills,
        f.1.price = 100 ∧ f.2 = 2 := by decide
    rw [outputOf, acceptedOutput_trades, List.forall_mem_map]
    intro t ht
    obtain ⟨f, hf, hprice, hquantity, -⟩ := mem_trades ht
    exact ⟨hprice.trans (hfills f hf).1, hquantity.trans (hfills f hf).2⟩
  refine hnot (output_zero_sum env false _ hreach _ _ _ _ id output hok (by decide)
    (fun t ht => ?_) (fun h => by cases h) (fun t ht => ?_) a)
  · rw [(hmem t ht).1, (hmem t ht).2]
    decide
  · rw [(hmem t ht).2]
    decide

/-- An order that sells `2 ^ 63` units for nothing. -/
def hugeSell : OrderRequest := limitRequest 1 7 .sell 0 0x8000000000000000

/-- The bound on the costs alone does not do: `hugeSell` locks an amount whose negation is
itself, so its lock event takes `2 ^ 63` out of the available and out of the frozen funds. -/
theorem huge_sell_not_zero_sum :
    ¬∃ env : Externals, ∀ me, (machine env).Reachable (new false) me →
      ∀ io inputSeq req clientOrderId id output,
        (me.addOrderAndBuildOutput env io inputSeq req clientOrderId).1 = .ok (id, output) →
        req.price.toNat * req.quantity.toNat +
          (output.trades.map (fun t => t.price.toNat * t.quantity.toNat)).sum < 2 ^ 63 →
        ∀ a, assetDelta a output.balanceEvents = 0 := by
  rintro ⟨env, h⟩
  obtain ⟨me, hme⟩ : ∃ me, me = ((new false).registerSymbol 1 (10, 20)).2 := ⟨_, rfl⟩
  have hok : (me.addOrderAndBuildOutput env .healthy 1 hugeSell "a").1 =
      .ok (1, me.outputOf env 1 hugeSell "a" (10, 20) (OrderBook.new 1)) := by
    subst hme
    rfl
  have hcost : hugeSell.price.toNat * hugeSell.quantity.toNat +
      ((me.outputOf env 1 hugeSell "a" (10, 20) (OrderBook.new 1)).trades.map
        (fun t => t.price.toNat * t.quantity.toNat)).sum < 2 ^ 63 := by
    rw [outputOf, acceptedOutput_trades]
    exact (by decide : 0 * 9223372036854775808 + 0 < 2 ^ 63)
  have hsum := h me ⟨[.registerSymbol 1 (10, 20)], hme.symm⟩ _ _ _ _ _ _ hok hcost 10
  have hlock : assetDelta 10 (me.outputOf env 1 hugeSell "a" (10, 20) (OrderBook.new
      1)).balanceEvents = -2 ^ 64 := rfl
  rw [hlock] at hsum
  exact absurd hsum (by decide)

end ExchangeCore
