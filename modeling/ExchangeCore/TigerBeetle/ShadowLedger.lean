import ExchangeCore.TigerBeetle.Worker
import ExchangeCore.Ubs.Positions

/-!
# The shadow ledger

UBSCore and TigerBeetle side by side: each call to UBSCore is followed by the events it has sent
going through the worker.  The calls are those an order makes in its life: its funds are locked, any
number of trades spend and refund pieces of the lock, and a cancel unlocks what is left.  The table
`orders` is the callers' own account of that; it is what says which calls belong to a run of orders
(`Proper`), and no component reads it.

A pending transfer is posted or voided once.  The lock of an order is one pending transfer, and a
trade posts it, which also releases what the trade has not spent.  So the two ledgers agree as long
as each order is closed by a single call: a trade that uses up the lock of both orders, or a cancel
before any trade (`AtOnce`, `Whole`).  After a partial fill TigerBeetle has nothing reserved for the
order any more, and rejects its next fill and its cancel.
-/

namespace ExchangeCore

open UBSCore TigerBeetleWorker

/-! ## Orders -/

/-- What has become of an order whose funds were locked. -/
inductive OrderProgress
  | untouched
  | filled
  | cancelled
  deriving DecidableEq, Repr

/-- An order whose funds were locked, and what is left of the lock. -/
structure OrderFunds where
  userId : UInt64
  assetId : UInt32
  locked : UInt64
  left : ℕ
  progress : OrderProgress
  deriving DecidableEq, Repr

/-- The calls to UBSCore in the life of an order. -/
inductive OrderCall
  | lock (userId : UInt64) (assetId : UInt32) (amount orderId : UInt64)
  | settle (t : Settlement)
  | unlock (userId : UInt64) (assetId : UInt32) (amount orderId : UInt64)

/-- Take an amount out of what is left of an order. -/
def takeFrom (orders : HashMap UInt64 OrderFunds) (orderId : UInt64) (amount : ℕ)
    (progress : OrderProgress) : HashMap UInt64 OrderFunds :=
  match orders.get? orderId with
  | none => orders
  | some o => orders.insert orderId { o with left := o.left - amount, progress := progress }

namespace OrderCall

/-- The call, and whether it succeeded. -/
def apply (ubs : UBSCore) : OrderCall → UBSCore × Bool
  | .lock userId assetId amount orderId =>
      let r := lockFunds userId assetId amount orderId ubs
      (r.2, r.1.isOk)
  | .settle t =>
      let r := settleTrade t ubs
      (r.2, r.1.isOk)
  | .unlock userId assetId amount orderId =>
      let r := unlockFunds userId assetId amount orderId ubs
      (r.2, r.1.isOk)

/-- The orders after a call that has succeeded. -/
def book (orders : HashMap UInt64 OrderFunds) : OrderCall → HashMap UInt64 OrderFunds
  | .lock userId assetId amount orderId =>
      orders.insert orderId ⟨userId, assetId, amount, amount.toNat, .untouched⟩
  | .settle t =>
      takeFrom (takeFrom orders t.buyerOrderId (t.quoteAmt.toNat + t.buyerRefund.toNat) .filled)
        t.sellerOrderId t.baseQty.toNat .filled
  | .unlock _ _ amount orderId => takeFrom orders orderId amount.toNat .cancelled

/-- The event a call sends if it succeeds. -/
def event : OrderCall → BalanceEvent
  | .lock userId assetId amount orderId => .fundsLocked orderId userId assetId amount
  | .settle t => settled t
  | .unlock _ _ _ orderId => .fundsUnlocked orderId .cancel

/-- No fee is charged. -/
def NoFees : OrderCall → Prop
  | .settle t => t.buyerFee = 0 ∧ t.sellerFee = 0
  | _ => True

instance decidableNoFees : (call : OrderCall) → Decidable call.NoFees
  | .lock .. => instDecidableTrue
  | .settle _ => instDecidableAnd
  | .unlock .. => instDecidableTrue

end OrderCall

/-! ## Orders and their transfers -/

/-- The pending transfer of an order. -/
def OrderFunds.transfer (o : OrderFunds) : PendingTransfer ℕ where
  debit := tbAccountId o.userId o.assetId
  credit := tbAccountId HOLDING_ACCOUNT_ID_PREFIX o.assetId
  amount := o.locked.toNat
  status :=
    match o.progress with
    | .untouched => .pending
    | .filled => .posted
    | .cancelled => .voided

/-- **Every order has its transfer**, and every transfer of an order is that of an order known. -/
def Mirrors (l : TwoPhaseLedger ℕ ℕ) (orders : HashMap UInt64 OrderFunds) : Prop :=
  ∀ orderId, l.transfers.get? (lockId orderId) = (orders.get? orderId).map OrderFunds.transfer

/-- Nothing has been taken from an order that is untouched. -/
def Intact (orders : HashMap UInt64 OrderFunds) : Prop :=
  ∀ orderId o, orders.get? orderId = some o → o.progress = .untouched → o.left = o.locked.toNat

section Orders

variable {l l' : TwoPhaseLedger ℕ ℕ} {orders : HashMap UInt64 OrderFunds} {orderId : UInt64}
  {o : OrderFunds}

lemma takeFrom_of_some (h : orders.get? orderId = some o) (amount : ℕ) (progress : OrderProgress) :
    takeFrom orders orderId amount progress =
      orders.insert orderId { o with left := o.left - amount, progress := progress } := by
  simp only [takeFrom, h]

lemma Mirrors.insert (h : Mirrors l orders)
    (ht : l'.transfers = l.transfers.insert (lockId orderId) o.transfer) :
    Mirrors l' (orders.insert orderId o) := by
  intro other
  rw [ht, HashMap.get?_insert, HashMap.get?_insert]
  by_cases hother : other = orderId
  · rw [if_pos hother, if_pos (congrArg lockId hother), Option.map_some]
  · rw [if_neg hother, if_neg (mt lockId_inj.mp hother)]
    exact h other

lemma Intact.insert (h : Intact orders) (ho : o.progress = .untouched → o.left = o.locked.toNat) :
    Intact (orders.insert orderId o) := by
  intro other o' hget huntouched
  rw [HashMap.get?_insert] at hget
  split at hget
  · obtain rfl := Option.some.inj hget
    exact ho huntouched
  · exact h other o' hget huntouched

/-- An order that was filled or cancelled. -/
lemma Intact.insert_touched (h : Intact orders) (ho : o.progress ≠ .untouched) :
    Intact (orders.insert orderId o) := h.insert (fun huntouched => absurd huntouched ho)

lemma Mirrors.get?_of_some (h : Mirrors l orders) (ho : orders.get? orderId = some o) :
    l.transfers.get? (lockId orderId) = some o.transfer := by
  rw [h orderId, ho, Option.map_some]

lemma OrderFunds.transfer_open (h : o.progress = .untouched) : o.transfer.status = .pending := by
  simp only [OrderFunds.transfer, h]

end Orders

/-! ## The system -/

/-- UBSCore, the shadow ledger and the orders. -/
structure ShadowSystem where
  ubs : UBSCore
  ledger : TwoPhaseLedger ℕ ℕ
  orders : HashMap UInt64 OrderFunds

namespace ShadowSystem

/-- The events sent in a call. -/
def sent (before after : UBSCore) : List BalanceEvent :=
  (after.eventTx.getD []).drop (before.eventTx.getD []).length

/-- A call, and the events it has sent through the worker; the answer is whether every batch was
accepted. -/
def step (s : ShadowSystem) (call : OrderCall) : ShadowSystem × Bool :=
  let r := call.apply s.ubs
  let events := sent s.ubs r.1
  ({ ubs := r.1
     ledger := workerLoop.run s.ledger events
     orders := if r.2 then call.book s.orders else s.orders },
    (workerLoop.answers s.ledger events).all id)

/-- The system as a machine. -/
def machine : Machine ShadowSystem OrderCall Bool := ⟨step⟩

/-- **Equal balances**: the available and the pending amount of every user are what UBSCore has. -/
def Agrees (s : ShadowSystem) : Prop :=
  ∀ u a, s.ledger.available (tbAccountId u a) = s.ubs.avail u a ∧
    s.ledger.debitsPending (tbAccountId u a) = s.ubs.frozen u a

/-- An order of the user with at least the amount left of its lock. -/
def Has (s : ShadowSystem) (orderId userId : UInt64) (assetId : UInt32) (amount : ℕ) : Prop :=
  ∃ o ∈ s.orders.get? orderId, o.userId = userId ∧ o.assetId = assetId ∧ amount ≤ o.left ∧
    o.progress ≠ .cancelled

/-- **The calls of a run of orders**: the id of an order is new when its funds are locked, a trade
takes no more from its two orders than is left of them, and a cancel unlocks what is left. -/
def Proper (s : ShadowSystem) : OrderCall → Prop
  | .lock _ _ _ orderId => s.orders.get? orderId = none
  | .settle t =>
      t.buyerOrderId ≠ t.sellerOrderId ∧
        s.Has t.buyerOrderId t.buyerId t.quoteAsset (t.quoteAmt.toNat + t.buyerRefund.toNat) ∧
        s.Has t.sellerOrderId t.sellerId t.baseAsset t.baseQty.toNat
  | .unlock userId assetId amount orderId =>
      s.Has orderId userId assetId amount.toNat ∧
        ∀ o ∈ s.orders.get? orderId, o.left = amount.toNat

/-- The order has not been filled. -/
def Untouched (s : ShadowSystem) (orderId : UInt64) : Prop :=
  ∀ o ∈ s.orders.get? orderId, o.progress = .untouched

/-- **Each order is filled once or cancelled**: no order is filled twice, or cancelled after a fill.
What the buyer has locked covers the fee. -/
def AtOnce (s : ShadowSystem) : OrderCall → Prop
  | .lock .. => True
  | .settle t =>
      s.Untouched t.buyerOrderId ∧ s.Untouched t.sellerOrderId ∧
        ∀ o ∈ s.orders.get? t.buyerOrderId,
          t.quoteAmt.toNat + t.buyerFee.toNat ≤ o.locked.toNat
  | .unlock _ _ _ orderId => s.Untouched orderId

/-- **Each fill is whole**: it leaves nothing of the locks of the two orders. -/
def Whole (s : ShadowSystem) : OrderCall → Prop
  | .settle t =>
      (∀ o ∈ s.orders.get? t.buyerOrderId, o.left = t.quoteAmt.toNat + t.buyerRefund.toNat) ∧
        ∀ o ∈ s.orders.get? t.sellerOrderId, o.left = t.baseQty.toNat
  | _ => True

section Decidable

variable (s : ShadowSystem)

instance decidableHas (orderId userId : UInt64) (assetId : UInt32) (amount : ℕ) :
    Decidable (s.Has orderId userId assetId amount) := Option.decidableExistsMem _

instance decidableUntouched (orderId : UInt64) : Decidable (s.Untouched orderId) :=
  Option.decidableForallMem _

instance decidableProper : (call : OrderCall) → Decidable (s.Proper call)
  | .lock _ _ _ orderId => inferInstanceAs (Decidable (s.orders.get? orderId = none))
  | .settle _ => instDecidableAnd
  | .unlock .. => instDecidableAnd

instance decidableAtOnce : (call : OrderCall) → Decidable (s.AtOnce call)
  | .lock .. => instDecidableTrue
  | .settle _ => instDecidableAnd
  | .unlock _ _ _ orderId => s.decidableUntouched orderId

instance decidableWhole : (call : OrderCall) → Decidable (s.Whole call)
  | .lock .. => instDecidableTrue
  | .settle _ => instDecidableAnd
  | .unlock .. => instDecidableTrue

end Decidable

/-- **What connects the two sides** of the system. -/
structure Connected (s : ShadowSystem) : Prop where
  listening : s.ubs.eventTx.isSome
  mirrors : Mirrors s.ledger s.orders
  intact : Intact s.orders

/-! ## One call -/

section Calls

variable {s : ShadowSystem} {call : OrderCall}

lemma apply_eventTx (call : OrderCall) (ubs : UBSCore) :
    (call.apply ubs).1.eventTx =
      if (call.apply ubs).2 then ubs.eventTx.map (· ++ [call.event]) else ubs.eventTx := by
  cases call with
  | lock u a amount orderId => exact lockFunds_emits u a amount orderId ubs
  | settle t => exact settleTrade_emits t ubs
  | unlock u a amount orderId => exact unlockFunds_emits u a amount orderId ubs

/-- A listener stays attached. -/
lemma listening_apply (h : s.ubs.eventTx.isSome) (call : OrderCall) :
    (call.apply s.ubs).1.eventTx.isSome := by
  rw [apply_eventTx]
  split
  · rwa [Option.isSome_map]
  · exact h

/-- A call that fails reaches neither the worker nor the orders. -/
lemma step_refused (hok : (call.apply s.ubs).2 = false) :
    step s call = (⟨(call.apply s.ubs).1, s.ledger, s.orders⟩, true) := by
  have hevents : sent s.ubs (call.apply s.ubs).1 = [] := by
    rw [sent, apply_eventTx, hok]
    exact List.drop_length
  simp only [step, hevents, hok]
  rfl

/-- A call that succeeds is one batch. -/
lemma step_ok (hlisten : s.ubs.eventTx.isSome) (hok : (call.apply s.ubs).2 = true)
    {l' : TwoPhaseLedger ℕ ℕ} {accepted : Bool}
    (hprocess : process s.ledger call.event = (l', accepted)) :
    step s call = (⟨(call.apply s.ubs).1, l', call.book s.orders⟩, accepted) := by
  obtain ⟨log, hlog⟩ := Option.isSome_iff_exists.mp hlisten
  have hevents : sent s.ubs (call.apply s.ubs).1 = [call.event] := by
    rw [sent, apply_eventTx, hok, hlog]
    exact List.drop_left
  have hrun : workerLoop.step s.ledger call.event = (l', accepted) := hprocess
  simp only [step, hevents, hok, Machine.run_cons, Machine.run_nil, Machine.answers_cons,
    Machine.answers_nil, hrun, if_true, List.all_cons, List.all_nil, id, Bool.and_true]

/-- What the batch of a call does to what is reserved, user by user. -/
def Reserves (l l' : TwoPhaseLedger ℕ ℕ) (release hold : UInt64 → UInt32 → ℕ) : Prop :=
  ∀ u a, l'.debitsPending (tbAccountId u a) + release u a =
    l.debitsPending (tbAccountId u a) + hold u a

lemma batch_lock {u : UInt64} {a : UInt32} {amount orderId : UInt64} (hs : s.Connected)
    (hproper : s.Proper (.lock u a amount orderId)) :
    ∃ l', process s.ledger (.fundsLocked orderId u a amount) = (l', true) ∧
      Mirrors l' (OrderCall.book s.orders (.lock u a amount orderId)) ∧
      Intact (OrderCall.book s.orders (.lock u a amount orderId)) ∧
      l'.posted = s.ledger.posted ∧
      Reserves s.ledger l' 0 (posting u a amount.toNat) := by
  have hnew : s.ledger.transfers.get? (lockId orderId) = none := by
    rw [hs.mirrors orderId, hproper, Option.map_none]
  obtain ⟨l', hprocess, htransfers, hposted, hpending⟩ := process_fundsLocked hnew u a amount
  refine ⟨l', hprocess, hs.mirrors.insert htransfers, hs.intact.insert (fun _ => rfl), hposted, ?_⟩
  intro v b
  rw [hpending, assetPosting_tbAccountId]
  rfl

lemma batch_unlock {u : UInt64} {a : UInt32} {amount orderId : UInt64} (hs : s.Connected)
    (hproper : s.Proper (.unlock u a amount orderId))
    (hatOnce : s.AtOnce (.unlock u a amount orderId)) :
    ∃ l', process s.ledger (.fundsUnlocked orderId .cancel) = (l', true) ∧
      Mirrors l' (OrderCall.book s.orders (.unlock u a amount orderId)) ∧
      Intact (OrderCall.book s.orders (.unlock u a amount orderId)) ∧
      l'.posted = s.ledger.posted ∧
      Reserves s.ledger l' (posting u a amount.toNat) 0 := by
  obtain ⟨⟨o, ho, rfl, rfl, -, -⟩, hleft⟩ := hproper
  have huntouched := hatOnce o ho
  have hamount : o.locked.toNat = amount.toNat := by
    rw [← hs.intact orderId o ho huntouched, hleft o ho]
  obtain ⟨l', hprocess, htransfers, hposted, hpending⟩ :=
    process_fundsUnlocked (hs.mirrors.get?_of_some ho) (OrderFunds.transfer_open huntouched) .cancel
  rw [OrderCall.book, takeFrom_of_some ho]
  have hcancelled : OrderProgress.cancelled ≠ .untouched := by decide
  refine ⟨l', hprocess, hs.mirrors.insert htransfers, hs.intact.insert_touched hcancelled, hposted,
    ?_⟩
  intro v b
  rw [← hpending, ← hamount, ← assetPosting_tbAccountId]
  rfl

lemma batch_settle {t : Settlement} (hs : s.Connected) (hproper : s.Proper (.settle t))
    (hatOnce : s.AtOnce (.settle t)) :
    ∃ buyer seller l', s.orders.get? t.buyerOrderId = some buyer ∧
      s.orders.get? t.sellerOrderId = some seller ∧
      process s.ledger (settled t) = (l', true) ∧
      Mirrors l' (OrderCall.book s.orders (.settle t)) ∧
      Intact (OrderCall.book s.orders (.settle t)) ∧
      l'.posted = settledMoves t buyer.transfer seller.transfer s.ledger.posted ∧
      Reserves s.ledger l' (posting t.sellerId t.baseAsset seller.locked.toNat +
        posting t.buyerId t.quoteAsset buyer.locked.toNat) 0 := by
  obtain ⟨hdistinct, ⟨buyer, hbuyer, hbuyerId, hquote, -, -⟩,
    ⟨seller, hseller, hsellerId, hbase, hqty, -⟩⟩ := hproper
  obtain ⟨hopenB, hopenS, hcover⟩ := hatOnce
  have hcoverB : (t.quoteAmt + t.buyerFee).toNat ≤ buyer.locked.toNat := by
    rw [UInt64.toNat_add]
    exact (Nat.mod_le _ _).trans (hcover buyer hbuyer)
  have hcoverS : t.baseQty.toNat ≤ seller.locked.toNat := by
    rwa [← hs.intact _ seller hseller (hopenS seller hseller)]
  obtain ⟨l', hprocess, htransfers, hposted, hpending⟩ :=
    process_settled (hs.mirrors.get?_of_some hbuyer) (hs.mirrors.get?_of_some hseller) hdistinct
      (OrderFunds.transfer_open (hopenB buyer hbuyer))
      (OrderFunds.transfer_open (hopenS seller hseller)) hcoverB hcoverS
  have hfilled : OrderProgress.filled ≠ .untouched := by decide
  -- the two orders, one after the other
  have hseller' : (takeFrom s.orders t.buyerOrderId (t.quoteAmt.toNat + t.buyerRefund.toNat)
      .filled).get? t.sellerOrderId = some seller := by
    rw [takeFrom_of_some hbuyer, HashMap.get?_insert, if_neg hdistinct.symm, hseller]
  refine ⟨buyer, seller, l', hbuyer, hseller, hprocess, ?_, ?_, hposted, ?_⟩
  · rw [OrderCall.book, takeFrom_of_some hseller', takeFrom_of_some hbuyer]
    refine Mirrors.insert (l := ⟨s.ledger.transfers.insert (lockId t.buyerOrderId)
      { buyer.transfer with status := .posted }, s.ledger.posted⟩) (hs.mirrors.insert rfl) ?_
    exact htransfers
  · rw [OrderCall.book, takeFrom_of_some hseller', takeFrom_of_some hbuyer]
    exact (hs.intact.insert_touched hfilled).insert_touched hfilled
  · intro u a
    have h := hpending (tbAccountId u a)
    simp only [OrderFunds.transfer, assetPosting_tbAccountId, hbuyerId, hquote, hsellerId,
      hbase] at h
    simp only [Pi.add_apply, Pi.zero_apply]
    omega

/-- **One call**, which closes every order it touches: its batch is accepted. -/
lemma connected_step (hs : s.Connected) (hproper : s.Proper call) (hatOnce : s.AtOnce call) :
    (step s call).1.Connected ∧ (step s call).2 = true := by
  have hlisten := listening_apply hs.listening call
  rcases hok : (call.apply s.ubs).2 with _ | _
  · rw [step_refused hok]
    exact ⟨⟨hlisten, hs.mirrors, hs.intact⟩, rfl⟩
  · obtain ⟨l', hprocess, hmirrors, hintact⟩ : ∃ l', process s.ledger call.event = (l', true) ∧
        Mirrors l' (call.book s.orders) ∧ Intact (call.book s.orders) := by
      cases call with
      | lock u a amount orderId =>
          obtain ⟨l', hprocess, hmirrors, hintact, -⟩ := batch_lock hs hproper
          exact ⟨l', hprocess, hmirrors, hintact⟩
      | settle t =>
          obtain ⟨_, _, l', -, -, hprocess, hmirrors, hintact, -⟩ := batch_settle hs hproper hatOnce
          exact ⟨l', hprocess, hmirrors, hintact⟩
      | unlock u a amount orderId =>
          obtain ⟨l', hprocess, hmirrors, hintact, -⟩ := batch_unlock hs hproper hatOnce
          exact ⟨l', hprocess, hmirrors, hintact⟩
    rw [step_ok hs.listening hok hprocess]
    exact ⟨⟨hlisten, hmirrors, hintact⟩, rfl⟩

end Calls

/-! ## Balances -/

/-- The users of the orders have accounts. -/
def HaveAccounts (ubs : UBSCore) (orders : HashMap UInt64 OrderFunds) : Prop :=
  ∀ orderId o, orders.get? orderId = some o → o.userId ∈ ubs.accounts.keys

/-- **The two sides in step**: equal balances, and what keeps UBSCore from failing half-way. -/
structure InStep (s : ShadowSystem) : Prop where
  connected : s.Connected
  agrees : s.Agrees
  accounts : HaveAccounts s.ubs s.orders
  bounded : ∀ a, s.ubs.total a < 2 ^ 63

section Balances

variable {s : ShadowSystem} {ubs ubs' : UBSCore} {orders : HashMap UInt64 OrderFunds}

lemma HaveAccounts.insert (h : HaveAccounts ubs orders) {orderId : UInt64} {o : OrderFunds}
    (ho : o.userId ∈ ubs.accounts.keys) : HaveAccounts ubs (orders.insert orderId o) := by
  intro other o' hget
  rw [HashMap.get?_insert] at hget
  split at hget
  · obtain rfl := Option.some.inj hget
    exact ho
  · exact h other o' hget

lemma HaveAccounts.takeFrom (h : HaveAccounts ubs orders) (orderId : UInt64) (amount : ℕ)
    (progress : OrderProgress) : HaveAccounts ubs (takeFrom orders orderId amount progress) := by
  unfold ExchangeCore.takeFrom
  split
  · exact h
  · rename_i o ho
    exact h.insert (h orderId o ho)

lemma HaveAccounts.moves (h : HaveAccounts ubs orders) {r hd : UInt64 → UInt32 → ℕ}
    {sp g : UInt32 → ℕ} (hm : Moves ubs ubs' r hd sp g) : HaveAccounts ubs' orders :=
  fun orderId o ho => hm.accounts (h orderId o ho)

/-- UBSCore and the ledger change alike. -/
lemma Agrees.shift {s' : ShadowSystem} (h : s.Agrees) {d c r hd : UInt64 → UInt32 → ℕ}
    (hshift : Shifts s.ubs s'.ubs d c r hd) (hreserve : Reserves s.ledger s'.ledger r hd)
    (hposted : ∀ u a, s'.ledger.posted (tbAccountId u a) + d u a + r u a =
      s.ledger.posted (tbAccountId u a) + c u a + hd u a) : s'.Agrees := by
  intro u a
  obtain ⟨havail, hfrozen⟩ := h u a
  have h₁ := hshift.avail u a
  have h₂ := hshift.frozen u a
  have h₃ := hreserve u a
  have h₄ := hposted u a
  simp only [TwoPhaseLedger.available] at havail ⊢
  omega

/-- What a batch releases is frozen in UBSCore. -/
lemma Agrees.release_le_frozen (h : s.Agrees) {l' : TwoPhaseLedger ℕ ℕ}
    {release : UInt64 → UInt32 → ℕ} (hreserve : Reserves s.ledger l' release 0) (u : UInt64)
    (a : UInt32) : release u a ≤ s.ubs.frozen u a := by
  have hsum : l'.debitsPending (tbAccountId u a) + release u a =
      s.ledger.debitsPending (tbAccountId u a) := hreserve u a
  rw [← (h u a).2, ← hsum]
  exact Nat.le_add_left _ _

/-- A call that succeeds, and changes both sides alike. -/
lemma InStep.ok {call : OrderCall} (hs : s.InStep) (hproper : s.Proper call)
    (hatOnce : s.AtOnce call) (happly : call.apply s.ubs = (ubs', true)) {l' : TwoPhaseLedger ℕ ℕ}
    (hprocess : process s.ledger call.event = (l', true)) {d c r hd : UInt64 → UInt32 → ℕ}
    (hshift : Shifts s.ubs ubs' d c r hd) (hreserve : Reserves s.ledger l' r hd)
    (hposted : ∀ u a, l'.posted (tbAccountId u a) + d u a + r u a =
      s.ledger.posted (tbAccountId u a) + c u a + hd u a)
    {r' hd' : UInt64 → UInt32 → ℕ} (hm : Moves s.ubs ubs' r' hd' 0 0)
    (haccounts : HaveAccounts s.ubs (call.book s.orders)) : (step s call).1.InStep := by
  have hconnected := (connected_step hs.connected hproper hatOnce).1
  rw [step_ok hs.connected.listening (by rw [happly]) hprocess, happly] at hconnected ⊢
  refine ⟨hconnected, hs.agrees.shift hshift hreserve hposted, haccounts.moves hm, fun a => ?_⟩
  have htotal : ubs'.total a = s.ubs.total a := hm.total a
  show ubs'.total a < 2 ^ 63
  rw [htotal]
  exact hs.bounded a

/-- What a trade without fees posts to a user: what is paid out of the holding account has been
posted to it before. -/
lemma settledMoves_eq {t : Settlement} {buyer seller : OrderFunds} (posted : ℕ → ℤ)
    (hfees : t.buyerFee = 0 ∧ t.sellerFee = 0)
    (hbuyer : buyer.userId = t.buyerId ∧ buyer.assetId = t.quoteAsset)
    (hseller : seller.userId = t.sellerId ∧ seller.assetId = t.baseAsset)
    (u : UInt64) (a : UInt32) :
    settledMoves t buyer.transfer seller.transfer posted (tbAccountId u a) + t.release u a =
      posted (tbAccountId u a) + t.gain u a := by
  simp only [settledMoves, TwoPhaseLedger.move, OrderFunds.transfer, assetPosting_tbAccountId,
    hbuyer, hseller, hfees, UInt64.add_zero, UInt64.toNat_zero, posting_zero, Pi.zero_apply,
    Settlement.release, Settlement.gain, posting_add]
  omega

/-- A call that fails, and has changed no funds. -/
lemma InStep.refused {call : OrderCall} (hs : s.InStep) (hok : (call.apply s.ubs).2 = false)
    (hshift : Shifts s.ubs (call.apply s.ubs).1 0 0 0 0)
    (hm : Moves s.ubs (call.apply s.ubs).1 0 0 0 0) : (step s call).1.InStep := by
  have hlisten := listening_apply hs.connected.listening call
  rw [step_refused hok]
  refine ⟨⟨hlisten, hs.connected.mirrors, hs.connected.intact⟩, ?_, hs.accounts.moves hm,
    fun a => ?_⟩
  · intro u a
    have havail : (call.apply s.ubs).1.avail u a = s.ubs.avail u a := hshift.avail u a
    have hfrozen : (call.apply s.ubs).1.frozen u a = s.ubs.frozen u a := hshift.frozen u a
    rw [havail, hfrozen]
    exact hs.agrees u a
  · have htotal : (call.apply s.ubs).1.total a = s.ubs.total a := hm.total a
    rw [htotal]
    exact hs.bounded a

lemma inStep_lock {u : UInt64} {a : UInt32} {amount orderId : UInt64} (hs : s.InStep)
    (hproper : s.Proper (.lock u a amount orderId)) :
    (step s (.lock u a amount orderId)).1.InStep := by
  have hbound : s.ubs.total a < 2 ^ 64 := (hs.bounded a).trans (by decide)
  rcases lockFunds_outcome u amount orderId hbound with ⟨hok, hmem, hshift, hm⟩ | ⟨hok, hshift, hm⟩
  · obtain ⟨l', hprocess, -, -, hposted, hreserve⟩ := batch_lock hs.connected hproper
    refine hs.ok hproper trivial (Prod.ext rfl hok) hprocess hshift hreserve (fun v b => ?_) hm
      (hs.accounts.insert hmem)
    rw [hposted, Pi.zero_apply, Pi.zero_apply]
    omega
  · exact hs.refused hok hshift hm

lemma inStep_unlock {u : UInt64} {a : UInt32} {amount orderId : UInt64} (hs : s.InStep)
    (hproper : s.Proper (.unlock u a amount orderId))
    (hatOnce : s.AtOnce (.unlock u a amount orderId)) :
    (step s (.unlock u a amount orderId)).1.InStep := by
  have hbound : s.ubs.total a < 2 ^ 64 := (hs.bounded a).trans (by decide)
  obtain ⟨l', hprocess, -, -, hposted, hreserve⟩ := batch_unlock hs.connected hproper hatOnce
  obtain ⟨⟨o, ho, rfl, rfl, -⟩, -⟩ := id hproper
  -- what TigerBeetle has reserved for the order is frozen in UBSCore
  have hfrozen : amount.toNat ≤ s.ubs.frozen o.userId o.assetId := by
    have h := hs.agrees.release_le_frozen hreserve o.userId o.assetId
    rwa [posting_self] at h
  obtain ⟨avail, ubs', hrun, hm⟩ :=
    @unlockFunds_moves s.ubs _ _ amount orderId (hs.accounts orderId o ho) hfrozen hbound
  have happly :
      OrderCall.apply s.ubs (.unlock o.userId o.assetId amount orderId) = (ubs', true) := by
    rw [OrderCall.apply, hrun]
    rfl
  refine hs.ok hproper hatOnce happly hprocess (unlockFunds_shifts avail ubs' hrun) hreserve
    (fun v b => ?_) hm (hs.accounts.takeFrom orderId _ _)
  rw [hposted, Pi.zero_apply, Pi.zero_apply]
  omega

lemma inStep_settle {t : Settlement} (hs : s.InStep) (hproper : s.Proper (.settle t))
    (hatOnce : s.AtOnce (.settle t)) (hwhole : s.Whole (.settle t))
    (hfees : OrderCall.NoFees (.settle t)) : (step s (.settle t)).1.InStep := by
  obtain ⟨buyer, seller, l', hbuyer, hseller, hprocess, -, -, hposted, hreserve⟩ :=
    batch_settle hs.connected hproper hatOnce
  obtain ⟨-, ⟨o, ho, hbuyerId, hquote, -⟩, ⟨o', ho', hsellerId, hbase, -⟩⟩ := id hproper
  obtain rfl := Option.some.inj (hbuyer.symm.trans ho)
  obtain rfl := Option.some.inj (hseller.symm.trans ho')
  -- the trade takes all that was locked for the two orders
  have hlockedB : buyer.locked.toNat = t.quoteAmt.toNat + t.buyerRefund.toNat := by
    rw [← hs.connected.intact _ buyer hbuyer (hatOnce.1 buyer hbuyer), hwhole.1 buyer hbuyer]
  have hlockedS : seller.locked.toNat = t.baseQty.toNat := by
    rw [← hs.connected.intact _ seller hseller (hatOnce.2.1 seller hseller),
      hwhole.2 seller hseller]
  have hrelease : Reserves s.ledger l' t.release 0 := by
    intro u a
    have h := hreserve u a
    rw [hlockedB, hlockedS, Pi.add_apply, Pi.add_apply] at h
    rw [← h, Settlement.release]
    omega
  have hfrozen := hs.agrees.release_le_frozen hrelease
  obtain ⟨_, ubs', hrun, hm⟩ := settleTrade_moves (hbuyerId ▸ hs.accounts _ buyer hbuyer)
    (hsellerId ▸ hs.accounts _ seller hseller) hfrozen hs.bounded
  have happly : OrderCall.apply s.ubs (.settle t) = (ubs', true) := by
    rw [OrderCall.apply, hrun]
    rfl
  refine hs.ok hproper hatOnce happly hprocess (settleTrade_shifts t s.ubs _ ubs' hrun) hrelease
    (fun u a => ?_) hm ((hs.accounts.takeFrom _ _ _).takeFrom _ _ _)
  have h := settledMoves_eq s.ledger.posted hfees ⟨hbuyerId, hquote⟩ ⟨hsellerId, hbase⟩ u a
  rw [hposted, Pi.zero_apply, Pi.zero_apply]
  omega

/-- **One call without fees**, which closes every order it touches: the balances stay equal. -/
lemma inStep_step {call : OrderCall} (hs : s.InStep) (hproper : s.Proper call)
    (hatOnce : s.AtOnce call) (hwhole : s.Whole call) (hfees : call.NoFees) :
    (step s call).1.InStep := by
  cases call with
  | lock u a amount orderId => exact inStep_lock hs hproper
  | settle t => exact inStep_settle hs hproper hatOnce hwhole hfees
  | unlock u a amount orderId => exact inStep_unlock hs hproper hatOnce

end Balances

/-! ## Runs -/

lemma accepted_run {s : ShadowSystem} (hs : s.Connected) (calls : List OrderCall)
    (hcalls : machine.AllSteps (fun s call => s.Proper call ∧ s.AtOnce call) s calls) :
    ∀ accepted ∈ machine.answers s calls, accepted = true := by
  induction calls generalizing s with
  | nil =>
      intro accepted hmem
      cases hmem
  | cons call calls ih =>
      obtain ⟨⟨hproper, hatOnce⟩, hrest⟩ := hcalls
      obtain ⟨hconnected, haccepted⟩ := connected_step hs hproper hatOnce
      intro accepted hmem
      rcases List.mem_cons.mp hmem with rfl | hmem
      · exact haccepted
      · exact ih hconnected hrest accepted hmem

lemma agrees_run {s : ShadowSystem} (hs : s.InStep) (calls : List OrderCall)
    (hcalls : machine.AllSteps (fun s call => (s.Proper call ∧ s.AtOnce call) ∧ s.Whole call ∧
      call.NoFees) s calls) : machine.Throughout Agrees s calls := by
  have hthrough : machine.Throughout InStep s calls := by
    refine Machine.throughout_of_allSteps (fun s call hs hcall => ?_) hs hcalls
    obtain ⟨⟨hproper, hatOnce⟩, hwhole, hfees⟩ := hcall
    exact inStep_step hs hproper hatOnce hwhole hfees
  exact hthrough.mono (fun _ h => h.agrees)

/-- **The shadow ledger.**  In every run of orders from equal balances in which each order is filled
once or cancelled, and what a buyer has locked covers the fee: TigerBeetle accepts every batch.  If
moreover every fill is whole and no fees are charged, the available and pending amounts of every
user stay equal to the available and frozen amounts of UBSCore. -/
theorem shadow_ledger_agrees (s : ShadowSystem) (hs : s.InStep) (calls : List OrderCall) :
    (machine.AllSteps (fun s call => s.Proper call ∧ s.AtOnce call) s calls →
      ∀ accepted ∈ machine.answers s calls, accepted = true) ∧
    (machine.AllSteps (fun s call => (s.Proper call ∧ s.AtOnce call) ∧ s.Whole call ∧ call.NoFees)
        s calls →
      machine.Throughout Agrees s calls) :=
  ⟨accepted_run hs.connected calls, agrees_run hs calls⟩

/-- A shadow ledger opened with the balances of a UBSCore that has nothing frozen. -/
def start (ubs : UBSCore) : ShadowSystem where
  ubs := ubs
  ledger :=
    ⟨HashMap.empty, fun account => ubs.avail (extractUserId account) (extractAssetId account)⟩
  orders := HashMap.empty

lemma inStep_start {ubs : UBSCore} (hlisten : ubs.eventTx.isSome)
    (hfrozen : ∀ u a, ubs.frozen u a = 0)
    (hbound : ∀ a, ubs.total a < 2 ^ 63) : (start ubs).InStep where
  connected := ⟨hlisten, fun _ => rfl, fun _ _ hget => by simp [start] at hget⟩
  agrees := by
    intro u a
    have hpending : (start ubs).ledger.debitsPending (tbAccountId u a) = 0 := rfl
    rw [TwoPhaseLedger.available, hpending]
    constructor
    · simp [start]
    · exact (hfrozen u a).symm
  accounts := fun _ _ hget => by simp [start] at hget
  bounded := hbound

/-- User 1 has 100 units of asset 2, and user 2 has 10 units of asset 1. -/
def twoUsers : UBSCore :=
  onDeposit 2 1 10 2 (onDeposit 1 2 100 1 (UBSCore.fresh HashMap.empty (some [])))

lemma inStep_twoUsers : (start twoUsers).InStep := by
  have hnew : ∀ u a, (UBSCore.fresh HashMap.empty (some [])).frozen u a = 0 := fun _ _ => rfl
  have hm₁ := @onDeposit_moves (UBSCore.fresh HashMap.empty (some [])) 1 2 100 1 (by decide)
  have hm₂ :=
    @onDeposit_moves (onDeposit 1 2 100 1 (UBSCore.fresh HashMap.empty (some []))) 2 1 10 2
    (by decide)
  have hm := hm₁.trans hm₂
  apply inStep_start
  · decide
  · intro u a
    exact (hm.frozen u a).trans (hnew u a)
  · intro a
    have h : twoUsers.total a = 0 + (assetPosting 2 100 a + assetPosting 1 10 a) := hm.total a
    rw [h]
    unfold assetPosting
    split <;> split <;> decide

/-- User 1 buys for 90 units what it has locked 95 for, then locks 5 units more and cancels. -/
def filledAndCancelled : List OrderCall :=
  [.lock 1 2 95 7, .lock 2 1 10 8, .settle ⟨3, 1, 2, 1, 2, 10, 90, 5, 7, 8, 0, 0⟩, .lock 1 2 5 9,
    .unlock 1 2 5 9]

/-- Five batches, after which the balances are the same. -/
theorem shadow_ledger_agrees_filledAndCancelled :
    (∀ accepted ∈ machine.answers (start twoUsers) filledAndCancelled, accepted = true) ∧
      machine.Throughout Agrees (start twoUsers) filledAndCancelled ∧
      (machine.run (start twoUsers) filledAndCancelled).ledger.available
        (tbAccountId 2 2) = 90 := by
  obtain ⟨haccepted, hagrees⟩ := shadow_ledger_agrees _ inStep_twoUsers filledAndCancelled
  exact ⟨haccepted (by decide), hagrees (by decide), by decide⟩

/-- Two trades fill the orders of the two users. -/
def filledInTwo : List OrderCall :=
  [.lock 1 2 100 7, .lock 2 1 10 8, .settle ⟨3, 1, 2, 1, 2, 4, 40, 0, 7, 8, 0, 0⟩,
    .settle ⟨4, 1, 2, 1, 2, 6, 60, 0, 7, 8, 0, 0⟩]

theorem second_fill_rejected :
    (start twoUsers).InStep ∧
      machine.AllSteps (fun s call => s.Proper call ∧ call.NoFees) (start twoUsers) filledInTwo ∧
      machine.answers (start twoUsers) filledInTwo = [true, true, true, false] ∧
      ¬(machine.run (start twoUsers) filledInTwo).Agrees := by
  refine ⟨inStep_twoUsers, by decide, by decide, fun h => ?_⟩
  exact absurd (h 1 2).1 (by decide)

end ShadowSystem

end ExchangeCore
