import ExchangeCore.Framework.Machine
import ExchangeCore.Framework.TwoPhase
import ExchangeCore.Ubs.Core

/-!
# The TigerBeetle worker

`TigerBeetleWorker` (`ubs_core/tigerbeetle.rs`) receives the events of UBSCore and turns each into a
batch of transfers, so that TigerBeetle holds a second copy of the balances.  A lock becomes a
pending transfer into a holding account, under an id made of the order's; an unlock voids it, and a
trade posts the transfers of both orders and pays the two parties out of the holding account.
Deposits and withdrawals are skipped.  A batch that TigerBeetle rejects is logged and forgotten.

TigerBeetle is the `TwoPhaseLedger`: what makes a transfer valid there is what becomes of pending
transfers, so that the accounts, ledger numbers and codes of the transfers are not part of it, and
neither are the fresh ids of the transfers nothing refers to.
-/

namespace ExchangeCore

namespace TigerBeetleWorker

/-- `HOLDING_ACCOUNT_ID_PREFIX`. -/
def HOLDING_ACCOUNT_ID_PREFIX : UInt64 := 0xFFFFFFFFFFFFFFFE

/-- `REVENUE_ACCOUNT_ID_PREFIX`. -/
def REVENUE_ACCOUNT_ID_PREFIX : UInt64 := 0xFFFFFFFFFFFFFFFD

def tbAccountId (userId : UInt64) (assetId : UInt32) : ℕ := userId.toNat <<< 64 ||| assetId.toNat

def tbId (typePrefix id : UInt64) : ℕ := typePrefix.toNat <<< 64 ||| id.toNat

def extractUserId (accountId : ℕ) : UInt64 := UInt64.ofNat (accountId >>> 64)

def extractAssetId (accountId : ℕ) : UInt32 := UInt32.ofNat accountId

/-- The id of the pending transfer of an order; type 2 is an order lock. -/
def lockId (orderId : UInt64) : ℕ := tbId 2 orderId

/-- The transfers `worker_loop` makes of an event.  The amount posted for the buyer is a sum of
`u64`. -/
def transfersOf : BalanceEvent → List (LedgerTransfer ℕ ℕ)
  | .deposited .. => []
  | .withdrawn .. => []
  | .fundsLocked orderId userId assetId amount =>
      [.pending (lockId orderId) (tbAccountId userId assetId)
        (tbAccountId HOLDING_ACCOUNT_ID_PREFIX assetId) amount.toNat]
  | .fundsUnlocked orderId _ => [.void (lockId orderId)]
  | .tradeSettled _ buyerId sellerId baseAsset quoteAsset baseQty quoteAmt buyerFee sellerFee
      buyerOrderId sellerOrderId =>
      [.post (lockId buyerOrderId) (quoteAmt + buyerFee).toNat,
        .post (lockId sellerOrderId) baseQty.toNat,
        .transfer (tbAccountId HOLDING_ACCOUNT_ID_PREFIX baseAsset) (tbAccountId buyerId baseAsset)
          baseQty.toNat,
        .transfer (tbAccountId HOLDING_ACCOUNT_ID_PREFIX quoteAsset)
          (tbAccountId sellerId quoteAsset) quoteAmt.toNat,
        .transfer (tbAccountId HOLDING_ACCOUNT_ID_PREFIX quoteAsset)
          (tbAccountId REVENUE_ACCOUNT_ID_PREFIX quoteAsset) buyerFee.toNat,
        .transfer (tbAccountId sellerId quoteAsset)
          (tbAccountId REVENUE_ACCOUNT_ID_PREFIX quoteAsset) sellerFee.toNat]
  | .accountCreated _ => []

/-- One round of `worker_loop`: the ledger after an event, and whether the batch was accepted. -/
def process (l : TwoPhaseLedger ℕ ℕ) (event : BalanceEvent) : TwoPhaseLedger ℕ ℕ × Bool :=
  match l.createTransfers (transfersOf event) with
  | some l' => (l', true)
  | none => (l, false)

/-- `worker_loop`, as a machine that takes one event after the other. -/
def workerLoop : Machine (TwoPhaseLedger ℕ ℕ) BalanceEvent Bool := ⟨process⟩

/-! ## Ids -/

lemma tbAccountId_eq (u : UInt64) (a : UInt32) : tbAccountId u a = u.toNat * 2 ^ 64 + a.toNat := by
  have hlt : a.toNat < 2 ^ 64 := lt_trans a.toNat_lt (by decide)
  rw [tbAccountId, ← Nat.shiftLeft_add_eq_or_of_lt hlt, Nat.shiftLeft_eq]

@[simp] lemma extractUserId_tbAccountId (u : UInt64) (a : UInt32) :
    extractUserId (tbAccountId u a) = u := by
  have hlt := a.toNat_lt
  have hshift : tbAccountId u a >>> 64 = u.toNat := by
    rw [tbAccountId_eq, Nat.shiftRight_eq_div_pow]
    omega
  rw [extractUserId, hshift, UInt64.ofNat_toNat]

@[simp] lemma extractAssetId_tbAccountId (u : UInt64) (a : UInt32) :
    extractAssetId (tbAccountId u a) = a := by
  have hlt := a.toNat_lt
  apply UInt32.toNat_inj.mp
  rw [extractAssetId, tbAccountId_eq, UInt32.toNat_ofNat']
  omega

/-- Accounts of different users or assets are different. -/
lemma tbAccountId_inj {u v : UInt64} {a b : UInt32} :
    tbAccountId u a = tbAccountId v b ↔ u = v ∧ a = b := by
  constructor
  · intro h
    have huser := congrArg extractUserId h
    have hasset := congrArg extractAssetId h
    rw [extractUserId_tbAccountId, extractUserId_tbAccountId] at huser
    rw [extractAssetId_tbAccountId, extractAssetId_tbAccountId] at hasset
    exact ⟨huser, hasset⟩
  · rintro ⟨rfl, rfl⟩
    rfl

lemma lockId_inj {x y : UInt64} : lockId x = lockId y ↔ x = y := by
  unfold lockId tbId
  rw [← Nat.shiftLeft_add_eq_or_of_lt x.toNat_lt, ← Nat.shiftLeft_add_eq_or_of_lt y.toNat_lt,
    Nat.add_left_cancel_iff, UInt64.toNat_inj]

/-- An amount on the TigerBeetle account of a user is an amount of that user. -/
lemma assetPosting_tbAccountId (u v : UInt64) (a b : UInt32) (n : ℕ) :
    assetPosting (tbAccountId u a) n (tbAccountId v b) = posting u a n v b := by
  simp only [assetPosting, posting, tbAccountId_inj]

/-! ## Batches -/

variable {l : TwoPhaseLedger ℕ ℕ}

lemma process_of_createTransfers {l' : TwoPhaseLedger ℕ ℕ} {event : BalanceEvent}
    (h : l.createTransfers (transfersOf event) = some l') : process l event = (l', true) := by
  simp only [process, h]

/-- The batch of a lock is accepted if the order is new. -/
lemma process_fundsLocked {orderId : UInt64} (hnew : l.transfers.get? (lockId orderId) = none)
    (u : UInt64) (a : UInt32) (amount : UInt64) :
    ∃ l', process l (.fundsLocked orderId u a amount) = (l', true) ∧
      l'.transfers = l.transfers.insert (lockId orderId)
        ⟨tbAccountId u a, tbAccountId HOLDING_ACCOUNT_ID_PREFIX a, amount.toNat, .pending⟩ ∧
      l'.posted = l.posted ∧
      ∀ account, l'.debitsPending account =
        l.debitsPending account + assetPosting (tbAccountId u a) amount.toNat account := by
  obtain ⟨l', happly, hrest⟩ := TwoPhaseLedger.apply_pending hnew (tbAccountId u a)
    (tbAccountId HOLDING_ACCOUNT_ID_PREFIX a) amount.toNat
  refine ⟨l', process_of_createTransfers ?_, hrest⟩
  simp only [transfersOf, TwoPhaseLedger.createTransfers, happly, Option.bind_some]

lemma process_fundsUnlocked {orderId : UInt64} {t : PendingTransfer ℕ}
    (hget : l.transfers.get? (lockId orderId) = some t) (hopen : t.status = .pending)
    (reason : UnlockReason) :
    ∃ l', process l (.fundsUnlocked orderId reason) = (l', true) ∧
      l'.transfers = l.transfers.insert (lockId orderId) { t with status := .voided } ∧
      l'.posted = l.posted ∧
      ∀ account, l'.debitsPending account + assetPosting t.debit t.amount account =
        l.debitsPending account := by
  obtain ⟨l', happly, hrest⟩ := TwoPhaseLedger.apply_void hget hopen
  refine ⟨l', process_of_createTransfers ?_, hrest⟩
  simp only [transfersOf, TwoPhaseLedger.createTransfers, happly, Option.bind_some]

/-- The event of a trade. -/
def settled (t : UBSCore.Settlement) : BalanceEvent :=
  .tradeSettled t.matchId t.buyerId t.sellerId t.baseAsset t.quoteAsset t.baseQty t.quoteAmt
    t.buyerFee t.sellerFee t.buyerOrderId t.sellerOrderId

/-- What a trade posts: the two posts, the two payments and the two fees. -/
def settledMoves (t : UBSCore.Settlement) (buyer seller : PendingTransfer ℕ) (posted : ℕ → ℤ) :
    ℕ → ℤ :=
  let posted := TwoPhaseLedger.move posted buyer.debit buyer.credit (t.quoteAmt + t.buyerFee).toNat
  let posted := TwoPhaseLedger.move posted seller.debit seller.credit t.baseQty.toNat
  let posted := TwoPhaseLedger.move posted (tbAccountId HOLDING_ACCOUNT_ID_PREFIX t.baseAsset)
    (tbAccountId t.buyerId t.baseAsset) t.baseQty.toNat
  let posted := TwoPhaseLedger.move posted (tbAccountId HOLDING_ACCOUNT_ID_PREFIX t.quoteAsset)
    (tbAccountId t.sellerId t.quoteAsset) t.quoteAmt.toNat
  let posted := TwoPhaseLedger.move posted (tbAccountId HOLDING_ACCOUNT_ID_PREFIX t.quoteAsset)
    (tbAccountId REVENUE_ACCOUNT_ID_PREFIX t.quoteAsset) t.buyerFee.toNat
  TwoPhaseLedger.move posted (tbAccountId t.sellerId t.quoteAsset)
    (tbAccountId REVENUE_ACCOUNT_ID_PREFIX t.quoteAsset) t.sellerFee.toNat

/-- The batch of a trade is accepted if the transfers of both orders are open and cover what is
posted. -/
lemma process_settled {t : UBSCore.Settlement} {buyer seller : PendingTransfer ℕ}
    (hbuyer : l.transfers.get? (lockId t.buyerOrderId) = some buyer)
    (hseller : l.transfers.get? (lockId t.sellerOrderId) = some seller)
    (hdistinct : t.buyerOrderId ≠ t.sellerOrderId)
    (hopenB : buyer.status = .pending) (hopenS : seller.status = .pending)
    (hcoverB : (t.quoteAmt + t.buyerFee).toNat ≤ buyer.amount)
    (hcoverS : t.baseQty.toNat ≤ seller.amount) :
    ∃ l', process l (settled t) = (l', true) ∧
      l'.transfers =
        (l.transfers.insert (lockId t.buyerOrderId) { buyer with status := .posted }).insert
          (lockId t.sellerOrderId) { seller with status := .posted } ∧
      l'.posted = settledMoves t buyer seller l.posted ∧
      ∀ account, l'.debitsPending account + assetPosting seller.debit seller.amount account +
          assetPosting buyer.debit buyer.amount account = l.debitsPending account := by
  obtain ⟨l₁, happly₁, htransfers₁, hposted₁, hpending₁⟩ :=
    TwoPhaseLedger.apply_post hbuyer hopenB hcoverB
  have hseller₁ : l₁.transfers.get? (lockId t.sellerOrderId) = some seller := by
    rw [htransfers₁, HashMap.get?_insert, if_neg (fun h => hdistinct (lockId_inj.mp h.symm)),
      hseller]
  obtain ⟨l₂, happly₂, htransfers₂, hposted₂, hpending₂⟩ :=
    TwoPhaseLedger.apply_post hseller₁ hopenS hcoverS
  refine ⟨⟨l₂.transfers, settledMoves t buyer seller l.posted⟩, process_of_createTransfers ?_, ?_,
    rfl, fun account => ?_⟩
  · -- the two posts; the four transfers that follow are always valid
    simp only [settled, transfersOf, TwoPhaseLedger.createTransfers, happly₁, happly₂,
      Option.bind_some]
    simp only [TwoPhaseLedger.apply, Option.bind_some, hposted₂, hposted₁, settledMoves]
  · show l₂.transfers = _
    rw [htransfers₂, htransfers₁]
  · have h₁ := hpending₁ account
    have h₂ := hpending₂ account
    show l₂.debitsPending account + _ + _ = _
    rw [h₂, h₁]

end TigerBeetleWorker

end ExchangeCore
