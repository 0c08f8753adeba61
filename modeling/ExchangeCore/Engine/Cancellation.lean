import ExchangeCore.Book.Properties
import ExchangeCore.Engine.Processing

/-!
# Cancellations

What a cancellation takes out of the book, and what it reports.  `TakenOut` describes the removal
queue by queue: the order leaves its queue, the orders before and behind it stay as they are, and
the level goes with its last order.

`cancellation_exact` says this of `remove_order` on every reachable book and of `cancel_order` on
every reachable engine.  An engine with a WAL refuses the cancellation of a resting order if the
write fails (`failed_write_not_cancelled`).
-/

namespace ExchangeCore

namespace OrderBook

variable {b b' : OrderBook}

/-- `b'` is `b` with the order `o` taken out of its queue; no other order changes or moves. -/
structure TakenOut (b : OrderBook) (o : Order) (b' : OrderBook) : Prop where
  queue : ∃ front back, (b.sideMap o.side).get? o.price = some (front ++ o :: back) ∧
    (b'.sideMap o.side).get? o.price = if front ++ back = [] then none else some (front ++ back)
  others : ∀ s p, ¬(s = o.side ∧ p = o.price) → (b'.sideMap s).get? p = (b.sideMap s).get? p

lemma mem_restingOrders_of_get? {s : Side} {p : UInt64} {q : List Order} {o : Order}
    (hget : (b.sideMap s).get? p = some q) (ho : o ∈ q) : o ∈ b.restingOrders :=
  mem_restingOrders.mpr ⟨s, mem_flat.mpr ⟨_, (SortedMap.get?_eq_some_iff _ _ _).mp hget, ho⟩⟩

lemma Removed.takenOut (hb : Inv b) {o : Order} (ho : o ∈ b.restingOrders) (h : Removed b o b') :
    TakenOut b o b' := by
  refine ⟨?_, fun s p hne => (h.get? s p).trans (if_neg hne)⟩
  obtain ⟨q, hq, hoq⟩ := hb.exists_level ho
  obtain ⟨x, front, back, -, hx, hsplit, herase⟩ :=
    List.exists_of_eraseP (p := fun x : Order => x.orderId = o.orderId) hoq (decide_eq_true rfl)
  -- ids are unique, so the first order with the id is `o`
  have hxq : x ∈ q := by
    rw [hsplit]
    exact List.mem_append_right front List.mem_cons_self
  obtain rfl : x = o :=
    hb.eq_of_orderId (mem_restingOrders_of_get? hq hxq) ho (of_decide_eq_true hx)
  refine ⟨front, back, hq.trans (congrArg some hsplit), ?_⟩
  rw [h.get?, if_pos ⟨rfl, rfl⟩, hq, Option.map_some, herase]
  by_cases hnil : front ++ back = []
  · rw [if_pos hnil, hnil]
    rfl
  · rw [if_neg hnil, Option.filter_some_pos (by simpa using hnil)]

lemma Inv.removeOrder_exact (hb : Inv b) (orderId : UInt64) :
    (∀ o, (b.removeOrder orderId).1 = .ok o ↔ o ∈ b.restingOrders ∧ o.orderId = orderId) ∧
      (∀ o, (b.removeOrder orderId).1 = .ok o → TakenOut b o (b.removeOrder orderId).2) ∧
        ∀ e, (b.removeOrder orderId).1 = .error e →
          (b.removeOrder orderId).2.bids = b.bids ∧ (b.removeOrder orderId).2.asks = b.asks := by
  rcases removeOrder_cases hb orderId with ⟨o, ho, hid, hok, hremoved⟩ | ⟨hnot, herr, hforget⟩
  · rw [hok]
    refine ⟨fun o' => ⟨fun h => ?_, fun h => ?_⟩, fun o' h => ?_, fun e h => (nomatch h)⟩
    · rw [← Except.ok.inj h]
      exact ⟨ho, hid⟩
    · rw [hb.eq_of_orderId ho h.1 (hid.trans h.2.symm)]
    · rw [← Except.ok.inj h]
      exact hremoved.takenOut hb ho
  · rw [herr, hforget]
    refine ⟨fun o => ⟨fun h => (nomatch h), fun h => ?_⟩, fun o h => (nomatch h),
      fun e _ => ⟨rfl, rfl⟩⟩
    exact absurd ⟨o, h.1, h.2⟩ hnot

end OrderBook

namespace MatchingEngine

open OrderBook

variable {me : MatchingEngine}

/-- The asset and the amount a resting order still holds: the value left of a buy in the quote
asset, the quantity left of a sell in the base asset.  The value is exact where it fits a word. -/
structure Holds (assets : UInt32 × UInt32) (o : Order) (asset : UInt32) (amount : UInt64) :
    Prop where
  buy : o.side = .buy → asset = assets.2 ∧ amount = o.price * o.quantity ∧
    (o.price.toNat * o.quantity.toNat < 2 ^ 64 →
      amount.toNat = o.price.toNat * o.quantity.toNat)
  sell : o.side = .sell → asset = assets.1 ∧ amount = o.quantity

lemma holds_lockTarget (assets : UInt32 × UInt32) (o : Order) :
    Holds assets o (lockTarget o.side assets o.price o.quantity).1
      (lockTarget o.side assets o.price o.quantity).2 := by
  constructor
  · intro hside
    rw [hside]
    exact ⟨rfl, rfl, Word.toNat_mul_of_lt⟩
  · intro hside
    rw [hside]
    exact ⟨rfl, rfl⟩

/-- A cancellation that succeeds: one order is taken out of the symbol's book, and the first
command unlocks what it held. -/
def Cancels (me : MatchingEngine) (symbolId : UInt32) (orderId : UInt64)
    (commands : List LedgerCommand) (me' : MatchingEngine) : Prop :=
  ∃ book book' o assets asset amount balanceAfter version update,
    bookAt me.orderBooks symbolId = some book ∧ me.assetMap.get? symbolId = some assets ∧
      o ∈ book.restingOrders ∧ o.orderId = orderId ∧ TakenOut book o book' ∧
        me'.orderBooks = setBook me.orderBooks symbolId book' ∧
          commands = [.unlock o.userId asset amount balanceAfter version, .orderUpdate update] ∧
            Holds assets o asset amount

/-- Every book has the bids and asks it had. -/
def SameOrders (me me' : MatchingEngine) : Prop :=
  ∀ s, (bookAt me'.orderBooks s).map (fun book => (book.bids, book.asks)) =
    (bookAt me.orderBooks s).map (fun book => (book.bids, book.asks))

/-- What `cancel_order` answers for a registered symbol, and leaves behind. -/
lemma cancelOrder_exact (h : EngineInv me) (env : Externals) (io : WalIo) {symbolId : UInt32}
    (hsymbol : symbolId ≠ 0) {book : OrderBook} (hbook : bookAt me.orderBooks symbolId = some book)
    (orderId : UInt64) :
    ((∃ commands, (me.cancelOrder env io symbolId orderId).1 = .ok commands) ↔
        me.logWal io = .ok () ∧ book.Rests orderId) ∧
      (∀ commands, (me.cancelOrder env io symbolId orderId).1 = .ok commands →
        Cancels me symbolId orderId commands (me.cancelOrder env io symbolId orderId).2) ∧
        ∀ e, (me.cancelOrder env io symbolId orderId).1 = .error e →
          SameOrders me (me.cancelOrder env io symbolId orderId).2 := by
  rcases hlog : me.logWal io with e | ⟨⟨⟩⟩
  · have hcancel : me.cancelOrder env io symbolId orderId = (.error e, me) := by
      simp only [cancelOrder, if_neg hsymbol, hlog]
    rw [hcancel]
    exact ⟨iff_of_false (by simp) (fun h => absurd h.1 (by simp)),
      fun _ h => absurd h (by simp), fun _ _ _ => rfl⟩
  · obtain ⟨assets, hassets⟩ := h.exists_assets hbook
    rcases removeOrder_cases (h.books _ _ hbook) orderId with
      ⟨o, ho, hid, hok, hremoved⟩ | ⟨hnot, herr, hforget⟩
    · -- the order rests: it is taken out, and its funds are unlocked
      obtain ⟨update, hash, hcancel⟩ : ∃ update hash, me.cancelOrder env io symbolId orderId =
          (.ok [.unlock o.userId (lockTarget o.side assets o.price o.quantity).1
            (lockTarget o.side assets o.price o.quantity).2
            (Ledger.getBalance (⟨⟩ : NullLedger) o.userId
              (lockTarget o.side assets o.price o.quantity).1 +
                (lockTarget o.side assets o.price o.quantity).2)
            (Ledger.getBalanceVersion (⟨⟩ : NullLedger) o.userId
              (lockTarget o.side assets o.price o.quantity).1 + 1), .orderUpdate update],
            me.replaced symbolId (book.removeOrder orderId).2 hash) := by
        simp only [cancelOrder, if_neg hsymbol, hlog, processCancel, hbook, hok, hassets]
        exact ⟨_, _, rfl⟩
      rw [hcancel]
      refine ⟨iff_of_true ⟨_, rfl⟩ ⟨rfl, o, ho, hid⟩, fun commands hcommands => ?_,
        fun e h => absurd h (by simp)⟩
      exact ⟨book, _, o, assets, _, _, _, _, update, hbook, hassets, ho, hid,
        hremoved.takenOut (h.books _ _ hbook) ho, rfl, (Except.ok.inj hcommands).symm,
        holds_lockTarget assets o⟩
    · have hcancel : me.cancelOrder env io symbolId orderId =
          (.error (.orderNotFound orderId),
            me.replaced symbolId (book.forget orderId) me.stateHash) := by
        simp only [cancelOrder, if_neg hsymbol, hlog, processCancel, hbook, herr, hforget]
        rfl
      rw [hcancel]
      refine ⟨iff_of_false (by simp) (fun h => hnot h.2), fun _ h => absurd h (by simp),
        fun _ _ s => ?_⟩
      -- only the mark of an active id is lost
      rw [replaced, bookAt_setBook hbook]
      split
      · rename_i hs
        rw [hs, hbook]
        rfl
      · rfl

end MatchingEngine

open MatchingEngine OrderBook

/-- **Cancelling is exact.**  On every reachable book `remove_order` returns the order that rests
under the id, if there is one, and takes exactly that one out of its queue; otherwise the book
keeps its orders.  On every reachable engine and registered symbol so does `cancel_order`, if the
cancellation could be logged, and unlocks what the order still held. -/
theorem cancellation_exact :
    (∀ b : OrderBook, b.Reachable → ∀ orderId,
      (∀ o, (b.removeOrder orderId).1 = .ok o ↔ o ∈ b.restingOrders ∧ o.orderId = orderId) ∧
        (∀ o, (b.removeOrder orderId).1 = .ok o → TakenOut b o (b.removeOrder orderId).2) ∧
          ∀ e, (b.removeOrder orderId).1 = .error e →
            (b.removeOrder orderId).2.bids = b.bids ∧ (b.removeOrder orderId).2.asks = b.asks) ∧
      ∀ (env : Externals) (enableLocalWal : Bool) (me : MatchingEngine),
        (machine env).Reachable (MatchingEngine.new enableLocalWal) me →
          ∀ (io : WalIo) (symbolId : UInt32) (book : OrderBook) (orderId : UInt64), symbolId ≠ 0 →
            bookAt me.orderBooks symbolId = some book →
              ((∃ commands, (me.cancelOrder env io symbolId orderId).1 = .ok commands) ↔
                  me.logWal io = .ok () ∧ book.Rests orderId) ∧
                (∀ commands, (me.cancelOrder env io symbolId orderId).1 = .ok commands →
                  Cancels me symbolId orderId commands
                    (me.cancelOrder env io symbolId orderId).2) ∧
                  ∀ e, (me.cancelOrder env io symbolId orderId).1 = .error e →
                    SameOrders me (me.cancelOrder env io symbolId orderId).2 := by
  constructor
  · intro b hb orderId
    exact hb.inv.removeOrder_exact orderId
  · intro env enableLocalWal me hreach io symbolId book orderId hsymbol hbook
    have h : EngineInv me := hreach.invariant (EngineInv.step env) (EngineInv.new enableLocalWal)
    exact cancelOrder_exact h env io hsymbol hbook orderId

/-- An engine with a WAL, and a sell order of 5 that rests. -/
def walEngine (env : Externals) : MatchingEngine :=
  (machine env).run (MatchingEngine.new true)
    [.registerSymbol 1 (10, 20), .addOrder .healthy (limitRequest 1 7 .sell 100 5)]

/-- A resting sell of 5, of which 3 have been bought, is taken out with 2; and one in an engine. -/
theorem cancellation_exact_partlyFilled :
    let b := OrderBook.machine.run (.new 1) [.add (plainOrder 1 10 .sell 100 5) .new 0,
      .add (plainOrder 2 11 .buy 100 3) .new 0]
    let env : Externals := ⟨fun _ => 0, fun _ _ => 0, fun _ => 0, fun _ => []⟩
    (b.removeOrder 1).1 = .ok (plainOrder 1 10 .sell 100 2) ∧
      TakenOut b (plainOrder 1 10 .sell 100 2) (b.removeOrder 1).2 ∧
        ∃ commands, ((walEngine env).cancelOrder env .healthy 1 1).1 = .ok commands := by
  intro b env
  obtain ⟨hok, htaken, -⟩ := cancellation_exact.1 b ⟨1, _, rfl⟩ 1
  have hrests := (hok (plainOrder 1 10 .sell 100 2)).mpr ⟨by decide, rfl⟩
  refine ⟨hrests, htaken _ hrests, ?_⟩
  refine (cancellation_exact.2 env true (walEngine env) ⟨_, rfl⟩ .healthy 1 _ 1 (by decide)
    rfl).1.mpr ⟨rfl, (limitRequest 1 7 .sell 100 5).order, by decide, rfl⟩

/-- A cancellation that cannot be logged is refused, though its order rests. -/
theorem failed_write_not_cancelled :
    ¬∃ env : Externals, ∀ me, (machine env).Reachable (MatchingEngine.new true) me →
      ∀ io symbolId book orderId, symbolId ≠ 0 → bookAt me.orderBooks symbolId = some book →
        ((∃ commands, (me.cancelOrder env io symbolId orderId).1 = .ok commands) ↔
          book.Rests orderId) := by
  rintro ⟨env, h⟩
  let book := ((OrderBook.new 1).addOrder (limitRequest 1 7 .sell 100 5).order .new 0).2.1
  have hbook : bookAt (walEngine env).orderBooks 1 = some book := rfl
  have hrests : book.Rests 1 := ⟨(limitRequest 1 7 .sell 100 5).order, by decide, rfl⟩
  obtain ⟨commands, hok⟩ :=
    (h (walEngine env) ⟨_, rfl⟩ ⟨.error "disk full", .ok ()⟩ 1 book 1 (by decide) hbook).mpr hrests
  have hrefused : ((walEngine env).cancelOrder env ⟨.error "disk full", .ok ()⟩ 1 1).1 =
      .error (.other "disk full") := rfl
  exact absurd (hok.symm.trans hrefused) (by simp)

end ExchangeCore
