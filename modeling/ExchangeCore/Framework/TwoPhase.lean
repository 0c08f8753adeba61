import ExchangeCore.Framework.HashMap
import ExchangeCore.Framework.Posting

/-!
# Two-phase transfers

A ledger in which a transfer is made at once, or reserved first and then posted or voided.  A
pending transfer reserves its amount on the account it debits.  It can be posted or voided once; a
post may take less than was reserved, and releases the rest.  A batch is accepted if every transfer
in it is valid when its turn comes, and has no effect otherwise.

Accounts and the ids of pending transfers are arbitrary types.  What an account has available is
what was posted to it less what is reserved on it, so a ledger has no invariant of its own:
`debitsPending` is a sum over the pending transfers, and each valid transfer changes it by one
posting.
-/

namespace ExchangeCore

/-- What has become of a pending transfer. -/
inductive PendingStatus
  | pending
  | posted
  | voided
  deriving DecidableEq, Repr

/-- A pending transfer. -/
structure PendingTransfer (A : Type) where
  debit : A
  credit : A
  amount : ℕ
  status : PendingStatus
  deriving DecidableEq, Repr

/-- A transfer of a batch. -/
inductive LedgerTransfer (I A : Type)
  | transfer (debit credit : A) (amount : ℕ)
  | pending (id : I) (debit credit : A) (amount : ℕ)
  | post (pendingId : I) (amount : ℕ)
  | void (pendingId : I)
  deriving DecidableEq, Repr

/-- The ledger: the pending transfers, and what was posted to each account. -/
structure TwoPhaseLedger (I A : Type) [DecidableEq I] where
  transfers : HashMap I (PendingTransfer A)
  posted : A → ℤ

namespace TwoPhaseLedger

variable {I A : Type} [DecidableEq I] [DecidableEq A]

/-- Post an amount from one account to another. -/
def move (posted : A → ℤ) (debit credit : A) (amount : ℕ) (account : A) : ℤ :=
  posted account - assetPosting debit amount account + assetPosting credit amount account

/-- The ledger after a valid transfer. -/
def apply (l : TwoPhaseLedger I A) : LedgerTransfer I A → Option (TwoPhaseLedger I A)
  | .transfer debit credit amount => some { l with posted := move l.posted debit credit amount }
  | .pending id debit credit amount =>
      match l.transfers.get? id with
      | some _ => none
      | none => some { l with transfers := l.transfers.insert id ⟨debit, credit, amount, .pending⟩ }
  | .post pendingId amount =>
      match l.transfers.get? pendingId with
      | none => none
      | some t =>
          if t.status = .pending ∧ amount ≤ t.amount then
            some
              { transfers := l.transfers.insert pendingId { t with status := .posted }
                posted := move l.posted t.debit t.credit amount }
          else none
  | .void pendingId =>
      match l.transfers.get? pendingId with
      | none => none
      | some t =>
          if t.status = .pending then
            some { l with transfers := l.transfers.insert pendingId { t with status := .voided } }
          else none

/-- The ledger after a batch, if every transfer in it is valid. -/
def createTransfers (l : TwoPhaseLedger I A) :
    List (LedgerTransfer I A) → Option (TwoPhaseLedger I A)
  | [] => some l
  | t :: batch => (l.apply t).bind (fun l' => createTransfers l' batch)

/-- What a pending transfer reserves on an account. -/
def reserves (account : A) (t : PendingTransfer A) : ℕ :=
  if t.status = .pending then assetPosting t.debit t.amount account else 0

/-- What is reserved on an account. -/
def debitsPending (l : TwoPhaseLedger I A) (account : A) : ℕ := l.transfers.sum (reserves account)

/-- What an account has available. -/
def available (l : TwoPhaseLedger I A) (account : A) : ℤ :=
  l.posted account - l.debitsPending account

/-! ## One transfer -/

variable {l : TwoPhaseLedger I A} {id : I} {t : PendingTransfer A}

lemma apply_pending (hnew : l.transfers.get? id = none) (debit credit : A) (amount : ℕ) :
    ∃ l', l.apply (.pending id debit credit amount) = some l' ∧
      l'.transfers = l.transfers.insert id ⟨debit, credit, amount, .pending⟩ ∧
      l'.posted = l.posted ∧
      ∀ account, l'.debitsPending account =
        l.debitsPending account + assetPosting debit amount account := by
  refine ⟨{ l with transfers := l.transfers.insert id ⟨debit, credit, amount, .pending⟩ },
    by simp only [apply, hnew], rfl, rfl, fun account => ?_⟩
  have hsum := l.transfers.sum_insert id ⟨debit, credit, amount, .pending⟩ (reserves account)
  rw [hnew] at hsum
  simpa [debitsPending, reserves] using hsum

lemma debitsPending_close (hget : l.transfers.get? id = some t) (hopen : t.status = .pending)
    {status : PendingStatus} (hclosed : status ≠ .pending) (account : A) :
    (l.transfers.insert id { t with status := status }).sum (reserves account) +
        assetPosting t.debit t.amount account = l.debitsPending account := by
  have hsum := l.transfers.sum_insert id { t with status := status } (reserves account)
  rw [hget] at hsum
  simpa [debitsPending, reserves, hopen, hclosed] using hsum

lemma apply_post (hget : l.transfers.get? id = some t) (hopen : t.status = .pending) {amount : ℕ}
    (hle : amount ≤ t.amount) :
    ∃ l', l.apply (.post id amount) = some l' ∧
      l'.transfers = l.transfers.insert id { t with status := .posted } ∧
      l'.posted = move l.posted t.debit t.credit amount ∧
      ∀ account, l'.debitsPending account + assetPosting t.debit t.amount account =
        l.debitsPending account := by
  refine ⟨{ transfers := l.transfers.insert id { t with status := .posted }
            posted := move l.posted t.debit t.credit amount },
    by simp only [apply, hget, hopen, hle, and_self, if_true], rfl, rfl, fun account => ?_⟩
  exact debitsPending_close hget hopen (by decide) account

lemma apply_void (hget : l.transfers.get? id = some t) (hopen : t.status = .pending) :
    ∃ l', l.apply (.void id) = some l' ∧
      l'.transfers = l.transfers.insert id { t with status := .voided } ∧
      l'.posted = l.posted ∧
      ∀ account, l'.debitsPending account + assetPosting t.debit t.amount account =
        l.debitsPending account := by
  refine ⟨{ l with transfers := l.transfers.insert id { t with status := .voided } },
    by simp only [apply, hget, hopen, if_true], rfl, rfl, fun account => ?_⟩
  exact debitsPending_close hget hopen (by decide) account

end TwoPhaseLedger

end ExchangeCore
