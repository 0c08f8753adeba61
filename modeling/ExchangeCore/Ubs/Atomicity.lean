import ExchangeCore.Ubs.AccountFunds
import ExchangeCore.Ubs.Funds

/-!
# Half-settled trades

`settle_trade` (`ubs_core/core.rs`) debits and credits two accounts in five steps, each behind a
check of its own, and returns at the first that fails.  Seen as funds, the steps are drawdowns
(`settlePayments_parallels`), so the trade settles iff both accounts together cover it
(`Settlement.Settles`), and otherwise what the steps before the failing one have moved stays moved.
A failed settlement leaves no trace only if it fails before anything is to be moved
(`Settlement.StopsAtOnce`): `settleTrade_atomic_iff`.
-/

namespace ExchangeCore

namespace UBSCore

open Fallible Drawdown

/-! ## A settlement as drawdowns -/

lemma onBalance_parallels {op : Balance → Except String Unit × Balance} {draw credit : ℕ}
    (hop : Balance.Draws op draw credit) (u : UInt64) (a : UInt32) (reject : RejectReason) :
    Parallels (fun ubs f => accountFunds ubs.accounts = f) (onBalance u a op reject)
      (attempt (2 ^ 64) ⟨(u, a), draw, credit⟩) := by
  rintro ubs _ rfl
  cases hget : ubs.accounts.get? u with
  | none =>
      rw [attempt_of_none hget]
      simp only [onBalance, hget, isOk_error, true_and]
  | some account =>
      obtain ⟨hok, hfunds⟩ := funds_write (a := a) hop hget
      simp only [onBalance, hget]
      refine ⟨?_, hfunds⟩
      rw [← hok]
      rcases (op (account.balanceMut a)).1 with e | _
      · rfl
      · rfl

namespace Settlement

/-- The steps of a settlement; the seller is refunded nothing. -/
def drawdowns (t : Settlement) : List (Drawdown (UInt64 × UInt32)) :=
  sideDrawdowns t.buyerId t.quoteAsset t.baseAsset t.quoteAmt t.baseQty t.buyerRefund ++
    sideDrawdowns t.sellerId t.baseAsset t.quoteAsset t.baseQty t.quoteAmt 0

/-- What a settlement adds to available funds. -/
def credit (t : Settlement) (u : UInt64) (a : UInt32) : ℕ :=
  posting t.buyerId t.baseAsset t.baseQty.toNat u a +
    posting t.buyerId t.quoteAsset t.buyerRefund.toNat u a +
    posting t.sellerId t.quoteAsset t.quoteAmt.toNat u a

/-- Both parties have an account, each has frozen what the trade takes, and there is room for what
it brings. -/
structure Settles (t : Settlement) (ubs : UBSCore) : Prop where
  buyer : t.buyerId ∈ ubs.accounts.keys
  seller : t.sellerId ∈ ubs.accounts.keys
  frozen : ∀ u a, t.release u a ≤ ubs.frozen u a
  room : ∀ u a, ubs.avail u a + t.credit u a < 2 ^ 64

/-- The trade fails before anything is moved: at the buyer's payment, or, where the steps until then
have nothing to move, at the first of the others. -/
def StopsAtOnce (t : Settlement) (ubs : UBSCore) : Prop :=
  t.buyerId ∉ ubs.accounts.keys ∨ ubs.frozen t.buyerId t.quoteAsset < t.quoteAmt.toNat ∨
    t.quoteAmt = 0 ∧
      (2 ^ 64 ≤ ubs.avail t.buyerId t.baseAsset + t.baseQty.toNat ∨
        t.baseQty = 0 ∧
          (ubs.frozen t.buyerId t.quoteAsset < t.buyerRefund.toNat ∨
            t.buyerRefund = 0 ∧ t.sellerId ∉ ubs.accounts.keys))

end Settlement

/-- The steps of `settle_trade` before the event. -/
def settlePayments (t : Settlement) : Fallible UBSCore RejectReason Unit := do
  onBalance t.buyerId t.quoteAsset (Balance.spendFrozen t.quoteAmt) .insufficientFrozen
  onBalance t.buyerId t.baseAsset (Balance.deposit t.baseQty) .balanceOverflow
  refundBuyer t
  onBalance t.sellerId t.baseAsset (Balance.spendFrozen t.baseQty) .insufficientFrozen
  onBalance t.sellerId t.quoteAsset (Balance.deposit t.quoteAmt) .balanceOverflow

/-- The event that `settle_trade` emits. -/
def settledEvent (t : Settlement) : BalanceEvent :=
  .tradeSettled t.matchId t.buyerId t.sellerId t.baseAsset t.quoteAsset t.baseQty t.quoteAmt
    t.buyerFee t.sellerFee t.buyerOrderId t.sellerOrderId

lemma settleTrade_eq (t : Settlement) :
    settleTrade t = settlePayments t >>= fun _ => Fallible.modify (emitEvent (settledEvent t)) := by
  simp only [settleTrade, settlePayments, settledEvent, bind_assoc]

lemma refundBuyer_parallels (t : Settlement) :
    Parallels (fun ubs f => accountFunds ubs.accounts = f) (refundBuyer t)
      (attemptAll (2 ^ 64) (refundDrawdowns t.buyerId t.quoteAsset t.buyerRefund)) := by
  unfold refundBuyer refundDrawdowns
  split
  · rw [attemptAll]
    have hunlock := onBalance_parallels (Balance.unlock_draws t.buyerRefund) t.buyerId t.quoteAsset
      .insufficientFrozen
    simpa only [attemptAll, bind_pure_unit] using hunlock
  · exact .pure

lemma settlePayments_parallels (t : Settlement) :
    Parallels (fun ubs f => accountFunds ubs.accounts = f) (settlePayments t)
      (attemptAll (2 ^ 64) t.drawdowns) := by
  have hlast := onBalance_parallels (Balance.deposit_draws t.quoteAmt) t.sellerId t.quoteAsset
    .balanceOverflow
  rw [← bind_pure_unit (x := attempt _ _)] at hlast
  simp only [Settlement.drawdowns, sideDrawdowns, List.cons_append, attemptAll, attemptAll_append]
  refine (onBalance_parallels (Balance.spendFrozen_draws _) _ _ _).bind ?_
  refine (onBalance_parallels (Balance.deposit_draws _) _ _ _).bind ?_
  refine (refundBuyer_parallels t).bind ?_
  exact (onBalance_parallels (Balance.spendFrozen_draws _) _ _ _).bind hlast

lemma settleTrade_run (t : Settlement) (ubs : UBSCore) :
    (settleTrade t ubs).1 = (settlePayments t ubs).1 ∧
      (settleTrade t ubs).2.accounts = (settlePayments t ubs).2.accounts ∧
      ((settlePayments t ubs).1.isOk = false →
        (settleTrade t ubs).2.eventTx = (settlePayments t ubs).2.eventTx) := by
  rw [settleTrade_eq]
  show (Fallible.bind (settlePayments t) _ ubs).1 = _ ∧
    (Fallible.bind (settlePayments t) _ ubs).2.accounts = _ ∧
      (_ → (Fallible.bind (settlePayments t) _ ubs).2.eventTx = _)
  rw [Fallible.bind]
  rcases settlePayments t ubs with ⟨_ | _, ubs'⟩
  · exact ⟨rfl, rfl, fun _ => rfl⟩
  · exact ⟨rfl, rfl, fun h => absurd h (by simp)⟩

lemma onBalance_keeps_eventTx (u : UInt64) (a : UInt32)
    (op : Balance → Except String Unit × Balance) (reject : RejectReason) :
    Fallible.Keeps eventTx (onBalance u a op reject) := by
  intro ubs
  unfold onBalance
  split <;> rfl

lemma settlePayments_keeps_eventTx (t : Settlement) :
    Fallible.Keeps eventTx (settlePayments t) := by
  have hrefund : Fallible.Keeps eventTx (refundBuyer t) := by
    unfold refundBuyer
    split
    · exact onBalance_keeps_eventTx _ _ _ _
    · exact .pure _
  exact .bind (onBalance_keeps_eventTx _ _ _ _) (fun _ => .bind (onBalance_keeps_eventTx _ _ _ _)
    (fun _ => .bind hrefund (fun _ => .bind (onBalance_keeps_eventTx _ _ _ _)
      (fun _ => onBalance_keeps_eventTx _ _ _ _))))

/-! ## When a settlement goes through, and when it leaves no trace -/

namespace Settlement

variable (t : Settlement) (ubs : UBSCore)

lemma covers_iff : Covers (2 ^ 64) (accountFunds ubs.accounts) t.drawdowns ↔ t.Settles ubs := by
  have hzero : (0 : UInt64).toNat = 0 := rfl
  rw [drawdowns, covers_sides_iff, hzero, Nat.add_zero, posting_zero]
  constructor
  · rintro ⟨⟨hbuyer, hseller⟩, hheld, hfree⟩
    exact ⟨hbuyer, hseller, hheld, hfree⟩
  · intro h
    exact ⟨⟨h.buyer, h.seller⟩, h.frozen, h.room⟩

/-- The steps fail without a trace iff the trade stops at once. -/
lemma refused_iff :
    Refused (2 ^ 64) t.drawdowns (accountFunds ubs.accounts) ↔ t.StopsAtOnce ubs := by
  have hclosed : ∀ u a, (accountFunds ubs.accounts).opened (u, a) = false ↔
      u ∉ ubs.accounts.keys := by
    intro u a
    rw [← accountFunds_opened_iff ubs.accounts u a, Bool.not_eq_true]
  have havail : ∀ u a, (accountFunds ubs.accounts).free (u, a) = ubs.avail u a := fun _ _ => rfl
  have hfrozen : ∀ u a, (accountFunds ubs.accounts).held (u, a) = ubs.frozen u a := fun _ _ => rfl
  have hzero : ∀ x : UInt64, x = 0 ↔ x.toNat = 0 := fun x => UInt64.toNat_inj.symm
  have hfree : ∀ u a, ¬2 ^ 64 ≤ ubs.avail u a := fun u a =>
    not_le.mpr (accountFunds_free_lt ubs.accounts (u, a))
  unfold StopsAtOnce
  rw [hzero, hzero, hzero]
  -- a step that moves nothing passes, since its cell is open and what is free there fits
  have hseller : refundDrawdowns t.sellerId t.baseAsset 0 = [] := rfl
  rcases refundDrawdowns_cases t.buyerId t.quoteAsset t.buyerRefund with
    ⟨hrefund, hpos⟩ | ⟨hrefund, hnone⟩
  all_goals
    simp only [drawdowns, sideDrawdowns, hrefund, hseller, List.cons_append, List.nil_append,
      refused_cons, hclosed, havail, hfrozen, Nat.add_zero, not_refused_nil, hfree]
  · grind
  · grind

end Settlement

lemma settleTrade_isOk (ubs : UBSCore) (t : Settlement) :
    (settleTrade t ubs).1.isOk = true ↔ t.Settles ubs := by
  rw [(settleTrade_run t ubs).1, (settlePayments_parallels t ubs _ rfl).1,
    attemptAll_isOk (accountFunds_free_lt ubs.accounts), t.covers_iff]

/-- **When a failed settlement leaves no trace.**  Whenever `settle_trade` returns an error, no
account's available or frozen balance has changed and no event was emitted, iff the trade settles or
it stops at once. -/
theorem settleTrade_atomic_iff (ubs : UBSCore) (t : Settlement) :
    (∀ e, (settleTrade t ubs).1 = .error e →
        (∀ u a, (settleTrade t ubs).2.avail u a = ubs.avail u a ∧
          (settleTrade t ubs).2.frozen u a = ubs.frozen u a) ∧
        (settleTrade t ubs).2.eventTx = ubs.eventTx) ↔
      t.Settles ubs ∨ t.StopsAtOnce ubs := by
  obtain ⟨hval, haccounts, hevents⟩ := settleTrade_run t ubs
  obtain ⟨hok, hfunds⟩ := settlePayments_parallels t ubs _ rfl
  rw [← haccounts] at hfunds
  rw [← t.covers_iff ubs, ← t.refused_iff ubs,
    ← attemptAll_isOk (accountFunds_free_lt ubs.accounts), Refused, ← hok, ← hfunds, hval]
  cases hrun : (settlePayments t ubs).1 with
  | ok _ => exact iff_of_true (fun e he => absurd he (by simp)) (.inl rfl)
  | error e =>
      simp only [isOk_error, Bool.false_eq_true, false_or, true_and]
      constructor
      · intro h
        obtain ⟨hsame, -⟩ := h e rfl
        refine Funds.ext ?_ (funext fun c => (hsame c.1 c.2).1) (funext fun c => (hsame c.1 c.2).2)
        rw [hfunds]
        exact attemptAll_opened _ _ _
      · intro h _ _
        refine ⟨fun u a => ⟨congrFun (congrArg Funds.free h) (u, a),
          congrFun (congrArg Funds.held h) (u, a)⟩, ?_⟩
        rw [hevents (by rw [hrun]; rfl)]
        exact settlePayments_keeps_eventTx t ubs

/-- User 1 has 100 units of asset 2 frozen; there is no user 9. -/
def buyerOnly : UBSCore :=
  { UBSCore.new with accounts := HashMap.empty.insert 1 ⟨1, [(2, ⟨0, 100, 1⟩)]⟩ }

/-- User 1 buys 5 units of asset 1 from user 9. -/
def fromNobody : Settlement where
  matchId := 1
  buyerId := 1
  sellerId := 9
  baseAsset := 1
  quoteAsset := 2
  baseQty := 5
  quoteAmt := 100
  buyerRefund := 0
  buyerOrderId := 11
  sellerOrderId := 12
  buyerFee := 0
  sellerFee := 0

/-- The seller has no account: the buyer has paid, and has been given what nobody delivered. -/
theorem fromNobody_halfSettled :
    ¬∀ (ubs : UBSCore) (t : Settlement) (e : RejectReason), (settleTrade t ubs).1 = .error e →
      (∀ u a, (settleTrade t ubs).2.avail u a = ubs.avail u a ∧
        (settleTrade t ubs).2.frozen u a = ubs.frozen u a) ∧
      (settleTrade t ubs).2.eventTx = ubs.eventTx := by
  intro h
  have hpaid := ((h buyerOnly fromNobody .accountNotFound (by decide)).1 1 2).2
  exact absurd hpaid (by decide)

end UBSCore

end ExchangeCore
