import ExchangeCore.Engine.Ledger
import ExchangeCore.Framework.Fallible
import ExchangeCore.Framework.HashMap
import ExchangeCore.Framework.Posting
import ExchangeCore.Ubs.Balance
import Mathlib.Algebra.Group.Pi.Basic

/-!
# Applying ledger commands to accounts

`GlobalLedger::apply_transaction` (`ledger.rs`) with the account operations it calls
(`user_account.rs`).  A command may fail half-way and leave what it has changed; a settlement may
also panic, where the code `expect`s an operation to succeed after its own check.  Both are
outcomes here (`Abort`).  The sum of a spend and a refund wraps, as in a release build; where a
build with overflow checks would panic in it, this one panics in the settlement or refuses.

A `Batch` is applied command by command, so applying it is applying the list of commands it nests,
in order (`applyTransaction_eq_flatten`): what is proved of a list of plain commands holds of every
nesting.  On this rests conservation: what a successful command adds to the total of an asset is
what it deposits, less what it withdraws (`applyTransaction_conserves`).
-/

namespace ExchangeCore

/-- The accounts of a ledger, by user. -/
abbrev Accounts := HashMap UInt64 UserAccount

namespace UserAccount

/-! ## Account operations -/

/-- One operation on the balance `get_balance_mut` points at. -/
def onBalance (assetId : UInt32) (op : Balance → Except String Unit × Balance) :
    Fallible UserAccount String Unit := fun account =>
  let r := op (account.balanceMut assetId)
  (r.1, account.writeBalance assetId r.2)

/-- Does the frozen amount cover a spend and a refund? -/
def checkFrozen (missing insufficient : String) (assetId : UInt32) (spend refund : UInt64)
    (account : UserAccount) : Except String Unit :=
  match account.getBalance assetId with
  | none => .error missing
  | some bal =>
      let required := spend + refund
      if bal.frozen < required then .error insufficient else .ok ()

def checkBuyerBalance : UInt32 → UInt64 → UInt64 → UserAccount → Except String Unit :=
  checkFrozen "Quote asset not found" "Insufficient frozen quote funds"

def checkSellerBalance : UInt32 → UInt64 → UInt64 → UserAccount → Except String Unit :=
  checkFrozen "Base asset not found" "Insufficient frozen base funds"

/-- Spend frozen funds of one asset, gain another, and unlock what was held in excess. -/
def settle (spendAssetId gainAssetId : UInt32) (spend gain refund : UInt64) :
    Fallible UserAccount String Unit := do
  onBalance spendAssetId (Balance.spendFrozen spend)
  onBalance gainAssetId (Balance.deposit gain)
  if 0 < refund then onBalance spendAssetId (Balance.unlock refund) else pure ()

def settleAsBuyer (quoteAssetId baseAssetId : UInt32) (spendQuote gainBase refundQuote : UInt64) :
    Fallible UserAccount String Unit :=
  settle quoteAssetId baseAssetId spendQuote gainBase refundQuote

def settleAsSeller (baseAssetId quoteAssetId : UInt32) (spendBase gainQuote refundBase : UInt64) :
    Fallible UserAccount String Unit :=
  settle baseAssetId quoteAssetId spendBase gainQuote refundBase

/-- The deprecated `TradeSettle`: the outcome of the deposit is dropped. -/
def tradeSettle (userId : UInt64) (spendAssetId : UInt32) (spendAmount : UInt64)
    (gainAssetId : UInt32) (gainAmount : UInt64) :
    Fallible UserAccount String Unit := fun account =>
  match account.getBalance spendAssetId with
  | none =>
      (.error s!"Asset not found for spend: User {userId} Asset {spendAssetId}", account)
  | some _ =>
      match onBalance spendAssetId (Balance.spendFrozen spendAmount) account with
      | (.error _, account) =>
          (.error s!"Insufficient frozen funds for settle: User {userId} Asset {spendAssetId}",
            account)
      | (.ok (), account) =>
          (.ok (), (onBalance gainAssetId (Balance.deposit gainAmount) account).2)

end UserAccount

/-! ## Commands -/

namespace GlobalLedger

open UserAccount (onBalance)

/-- An operation on the account of a user, which `entry` creates if it is missing. -/
def onUser (userId : UInt64) (op : Fallible UserAccount String Unit)
    (describe : String → String) : Fallible Accounts Abort Unit := fun accounts =>
  let r := op ((accounts.get? userId).getD (UserAccount.new userId))
  (r.1.mapError (fun e => .error (describe e)), accounts.insert userId r.2)

/-- The account of a user, or the error that there is none. -/
def account (userId : UInt64) (missing : String) : Fallible Accounts Abort UserAccount :=
  fun accounts =>
    match accounts.get? userId with
    | none => (.error (.error missing), accounts)
    | some user => (.ok user, accounts)

/-- A check that refuses the command. -/
def check (r : Except String Unit) (describe : String → String) : Fallible Accounts Abort Unit :=
  fun accounts => (r.mapError (fun e => .error (describe e)), accounts)

/-- An operation on an account that is there, whose failure is a panic (`unwrap`, `expect`). -/
def expectUser (userId : UInt64) (op : Fallible UserAccount String Unit) (critical : String) :
    Fallible Accounts Abort Unit := fun accounts =>
  match accounts.get? userId with
  | none => (.error (.panic "called `Option::unwrap()` on a `None` value"), accounts)
  | some user =>
      let r := op user
      (r.1.mapError (fun e => .panic (critical ++ ": " ++ e.quote)), accounts.insert userId r.2)

/-- The two settlements of a match. -/
def settleMatch (data : MatchExecData) (quoteAmount baseAmount : UInt64) :
    Fallible Accounts Abort Unit := do
  expectUser data.buyerUserId
    (UserAccount.settleAsBuyer data.quoteAssetId data.baseAssetId quoteAmount baseAmount
      data.buyerRefund)
    "Critical: Buyer settle failed after check passed"
  expectUser data.sellerUserId
    (UserAccount.settleAsSeller data.baseAssetId data.quoteAssetId baseAmount quoteAmount
      data.sellerRefund)
    "Critical: Seller settle failed after check passed"

def applyMatchExec (data : MatchExecData) : Fallible Accounts Abort Unit :=
  match Word.checkedMul data.price data.quantity with
  | none => fun accounts => (.error (.error "Quote amount overflow"), accounts)
  | some quoteAmount => do
      let baseAmount := data.quantity
      let buyer ← account data.buyerUserId
        ("Buyer account " ++ toString data.buyerUserId ++ " not found")
      check (buyer.checkBuyerBalance data.quoteAssetId quoteAmount data.buyerRefund)
        (fun e => s!"Buyer check failed: {e}")
      let seller ← account data.sellerUserId
        ("Seller account " ++ toString data.sellerUserId ++ " not found")
      check (seller.checkSellerBalance data.baseAssetId baseAmount data.sellerRefund)
        (fun e => s!"Seller check failed: {e}")
      settleMatch data quoteAmount baseAmount

/-- The loop of a `MatchExecBatch`. -/
def applyMatchExecs : List MatchExecData → Fallible Accounts Abort Unit
  | [] => pure ()
  | data :: batch => do
      applyMatchExec data
      applyMatchExecs batch

mutual

def applyTransaction : LedgerCommand → Fallible Accounts Abort Unit
  | .deposit userId assetId amount _ _ =>
      onUser userId (onBalance assetId (Balance.deposit amount))
        (fun e => s!"Deposit failed for User {userId} Asset {assetId}: {e}")
  | .withdraw userId assetId amount _ _ =>
      onUser userId (onBalance assetId (Balance.withdraw amount))
        (fun _ => s!"Insufficient funds for withdraw: User {userId} Asset {assetId}")
  | .lock userId assetId amount _ _ =>
      onUser userId (onBalance assetId (Balance.lock amount))
        (fun _ => s!"Insufficient funds for lock: User {userId} Asset {assetId}")
  | .unlock userId assetId amount _ _ =>
      onUser userId (onBalance assetId (Balance.unlock amount))
        (fun _ => s!"Insufficient frozen funds for unlock: User {userId} Asset {assetId}")
  | .tradeSettle userId spendAssetId spendAmount gainAssetId gainAmount =>
      onUser userId
        (UserAccount.tradeSettle userId spendAssetId spendAmount gainAssetId gainAmount) id
  | .matchExec data => applyMatchExec data
  | .matchExecBatch batch => applyMatchExecs batch
  | .orderUpdate _ => pure ()
  | .batch commands => applyTransactions commands

/-- The loop of a `Batch`: the commands one after another, up to the first that fails. -/
def applyTransactions : List LedgerCommand → Fallible Accounts Abort Unit
  | [] => pure ()
  | cmd :: commands => do
      applyTransaction cmd
      applyTransactions commands

end

end GlobalLedger

/-! ## Batches are sequences -/

namespace LedgerCommand

mutual

/-- The plain commands a command consists of, in order. -/
def flatten : LedgerCommand → List LedgerCommand
  | .batch commands => flattenAll commands
  | cmd => [cmd]

/-- The plain commands of a list of commands. -/
def flattenAll : List LedgerCommand → List LedgerCommand
  | [] => []
  | cmd :: commands => flatten cmd ++ flattenAll commands

end

/-- Is this a single command, not a batch of them? -/
def isPlain : LedgerCommand → Bool
  | .batch _ => false
  | _ => true

mutual

lemma isPlain_of_mem_flatten : ∀ (cmd : LedgerCommand), ∀ c ∈ cmd.flatten, c.isPlain = true
  | .batch commands => by
      rw [flatten]
      exact isPlain_of_mem_flattenAll commands
  | .deposit .. | .withdraw .. | .lock .. | .unlock .. | .tradeSettle .. | .matchExec _
  | .matchExecBatch _ | .orderUpdate _ => by simp [flatten, isPlain]

lemma isPlain_of_mem_flattenAll :
    ∀ (commands : List LedgerCommand), ∀ c ∈ flattenAll commands, c.isPlain = true
  | [] => by simp [flattenAll]
  | cmd :: commands => by
      intro c hc
      rw [flattenAll, List.mem_append] at hc
      rcases hc with hc | hc
      · exact isPlain_of_mem_flatten cmd c hc
      · exact isPlain_of_mem_flattenAll commands c hc

end

end LedgerCommand

namespace GlobalLedger

lemma applyTransactions_cons (cmd : LedgerCommand) (commands : List LedgerCommand) :
    applyTransactions (cmd :: commands) =
      applyTransaction cmd >>= fun _ => applyTransactions commands := by
  rw [applyTransactions]

lemma applyTransactions_append (commands commands' : List LedgerCommand) :
    applyTransactions (commands ++ commands') =
      applyTransactions commands >>= fun _ => applyTransactions commands' := by
  induction commands with
  | nil => rw [List.nil_append, applyTransactions, pure_bind]
  | cons cmd commands ih => simp only [List.cons_append, applyTransactions_cons, ih, bind_assoc]

lemma applyTransactions_singleton (cmd : LedgerCommand) :
    applyTransactions [cmd] = applyTransaction cmd := by
  rw [applyTransactions, applyTransactions]
  exact bind_pure (applyTransaction cmd)

mutual

/-- Applying a command is applying the plain commands it consists of. -/
lemma applyTransaction_eq_flatten :
    ∀ cmd : LedgerCommand, applyTransaction cmd = applyTransactions cmd.flatten
  | .batch commands => by
      rw [LedgerCommand.flatten, applyTransaction]
      exact applyTransactions_eq_flattenAll commands
  | .deposit .. | .withdraw .. | .lock .. | .unlock .. | .tradeSettle .. | .matchExec _
  | .matchExecBatch _ | .orderUpdate _ => (applyTransactions_singleton _).symm

lemma applyTransactions_eq_flattenAll : ∀ commands : List LedgerCommand,
    applyTransactions commands = applyTransactions (LedgerCommand.flattenAll commands)
  | [] => rfl
  | cmd :: commands => by
      rw [LedgerCommand.flattenAll, applyTransactions_append, applyTransactions_cons,
        ← applyTransaction_eq_flatten cmd, ← applyTransactions_eq_flattenAll commands]

end

end GlobalLedger

/-! ## Funds -/

namespace Balance

/-- Available and frozen funds together. -/
def worth (b : Balance) : ℕ := b.avail.toNat + b.frozen.toNat

/-- What an operation that succeeds takes out of a balance and puts into it. -/
def Pays (op : Balance → Except String Unit × Balance) (out inn : ℕ) : Prop :=
  ∀ b b', op b = (.ok (), b') → b'.worth + out = b.worth + inn

variable (amount : UInt64)

lemma deposit_pays : Pays (deposit amount) 0 amount.toNat := by
  intro b b' h
  obtain ⟨havail, hfrozen⟩ := deposit_eq_ok h
  rw [worth, worth, havail, hfrozen]
  omega

lemma withdraw_pays : Pays (withdraw amount) amount.toNat 0 := by
  intro b b' h
  obtain ⟨havail, hfrozen⟩ := withdraw_eq_ok h
  rw [worth, worth, hfrozen]
  omega

lemma lock_pays : Pays (lock amount) 0 0 := by
  intro b b' h
  obtain ⟨havail, hfrozen⟩ := lock_eq_ok h
  rw [worth, worth]
  omega

lemma unlock_pays : Pays (unlock amount) 0 0 := by
  intro b b' h
  obtain ⟨havail, hfrozen⟩ := unlock_eq_ok h
  rw [worth, worth]
  omega

lemma spendFrozen_pays : Pays (spendFrozen amount) amount.toNat 0 := by
  intro b b' h
  obtain ⟨havail, hfrozen⟩ := spendFrozen_eq_ok h
  rw [worth, worth, havail]
  omega

end Balance

namespace UserAccount

/-- The funds of the entries of an asset. -/
def heldIn (a : UInt32) : List (UInt32 × Balance) → ℕ
  | [] => 0
  | e :: es => assetPosting e.1 e.2.worth a + heldIn a es

/-- The funds of an account in an asset, over every entry of the asset. -/
def held (account : UserAccount) (a : UInt32) : ℕ := heldIn a account.assets

lemma heldIn_setFirst (assetId : UInt32) (b : Balance) (es : List (UInt32 × Balance))
    (a : UInt32) :
    heldIn a (setFirst assetId b es) +
        assetPosting assetId
          (((es.find? (fun e => e.1 = assetId)).map Prod.snd).getD Balance.default).worth a =
      heldIn a es + assetPosting assetId b.worth a := by
  induction es with
  | nil =>
      have hdefault : Balance.default.worth = 0 := rfl
      simp only [setFirst, heldIn, List.find?_nil, Option.map_none, Option.getD_none, hdefault,
        assetPosting_zero, Pi.zero_apply]
      omega
  | cons e es ih =>
      rw [setFirst]
      by_cases he : e.1 = assetId
      · rw [if_pos he]
        simp only [heldIn, List.find?_cons, he, decide_true, Option.map_some, Option.getD_some]
        omega
      · rw [if_neg he]
        simp only [heldIn, List.find?_cons, he, decide_false]
        omega

lemma held_writeBalance (account : UserAccount) (assetId : UInt32) (b : Balance) :
    Posts account.held (account.writeBalance assetId b).held
      (assetPosting assetId (account.balanceMut assetId).worth) (assetPosting assetId b.worth) :=
  heldIn_setFirst assetId b account.assets

/-- What an account operation that succeeds takes out of the account and puts into it. -/
def Pays (op : Fallible UserAccount String Unit) (out inn : UInt32 → ℕ) : Prop :=
  ∀ account, op.Ensures account (fun _ account' => Posts account.held account'.held out inn)

lemma onBalance_pays {op : Balance → Except String Unit × Balance} {out inn : ℕ}
    (h : Balance.Pays op out inn) (assetId : UInt32) :
    Pays (onBalance assetId op) (assetPosting assetId out) (assetPosting assetId inn) := by
  intro account _ account' hrun a
  obtain ⟨hok, rfl⟩ := Prod.mk.inj hrun
  have hbal := h _ (op (account.balanceMut assetId)).2 (Prod.ext hok rfl)
  have hwrite := held_writeBalance account assetId (op (account.balanceMut assetId)).2 a
  unfold assetPosting at *
  by_cases hasset : a = assetId
  · simp only [if_pos hasset] at hwrite ⊢
    omega
  · simp only [if_neg hasset] at hwrite ⊢
    omega

/-- A settlement pays one asset for the other; the refund stays in the account. -/
lemma settle_pays (spendAssetId gainAssetId : UInt32) (spend gain refund : UInt64) :
    Pays (settle spendAssetId gainAssetId spend gain refund)
      (assetPosting spendAssetId spend.toNat) (assetPosting gainAssetId gain.toNat) := by
  intro account
  refine Fallible.Ensures.andThen (onBalance_pays (Balance.spendFrozen_pays spend) spendAssetId
    account) (fun _ spent hspend => ?_)
  refine Fallible.Ensures.andThen (onBalance_pays (Balance.deposit_pays gain) gainAssetId spent)
    (fun _ gained hgain => ?_)
  have hsum := hspend.trans hgain
  simp only [assetPosting_zero, add_zero, zero_add] at hsum
  split
  · intro u refunded hrun
    have hrefund := onBalance_pays (Balance.unlock_pays refund) spendAssetId gained u refunded hrun
    simpa only [assetPosting_zero, add_zero] using hsum.trans hrefund
  · exact Fallible.Ensures.pure hsum

end UserAccount

/-! ## Conservation -/

namespace GlobalLedger

/-- The funds of all users in an asset. -/
def total (accounts : Accounts) (a : UInt32) : ℕ := accounts.sum (fun account => account.held a)

/-- What a ledger operation that succeeds takes out of the totals and puts into them. -/
def Pays (m : Fallible Accounts Abort Unit) (out inn : UInt32 → ℕ) : Prop :=
  ∀ accounts, m.Ensures accounts
    (fun _ accounts' => Posts (total accounts) (total accounts') out inn)

section Pays

variable {m m' : Fallible Accounts Abort Unit} {out inn out' inn' : UInt32 → ℕ}
  {op : Fallible UserAccount String Unit}

lemma Pays.andThen (h : Pays m out inn) (h' : Pays m' out' inn') :
    Pays (m >>= fun _ => m') (out + out') (inn + inn') := by
  intro accounts
  refine Fallible.Ensures.andThen (h accounts) (fun _ accounts' hfirst => ?_)
  intro u accounts'' hrun
  exact hfirst.trans (h' accounts' u accounts'' hrun)

lemma pays_pure : Pays (pure ()) 0 0 := fun _ => Fallible.Ensures.pure (Posts.refl _)

/-- Storing the account an operation leaves shifts the totals by what it shifts the account. -/
lemma posts_insert {accounts : Accounts} {u : UInt64} {account account' : UserAccount}
    (hget : ∀ a, (accounts.get? u).elim 0 (fun user => user.held a) = account.held a)
    (h : Posts account.held account'.held out inn) :
    Posts (total accounts) (total (accounts.insert u account')) out inn := by
  intro a
  have hsum := HashMap.sum_insert accounts u account' (fun user => user.held a)
  have hacc := h a
  rw [hget] at hsum
  unfold total
  omega

lemma onUser_pays (h : UserAccount.Pays op out inn) (u : UInt64) (describe : String → String) :
    Pays (onUser u op describe) out inn := by
  intro accounts _ accounts' hrun
  obtain ⟨hok, rfl⟩ := Prod.mk.inj hrun
  refine @posts_insert _ _ accounts u ((accounts.get? u).getD (UserAccount.new u)) _ ?_ ?_
  · intro a
    rcases accounts.get? u with _ | user <;> rfl
  · refine h _ () _ (Prod.ext ?_ rfl)
    generalize (op ((accounts.get? u).getD (UserAccount.new u))).1 = r at hok
    rcases r with e | _
    · exact absurd hok (by simp [Except.mapError])
    · rfl

lemma expectUser_pays (h : UserAccount.Pays op out inn) (u : UInt64) (critical : String) :
    Pays (expectUser u op critical) out inn := by
  intro accounts _ accounts' hrun
  unfold expectUser at hrun
  split at hrun
  · exact absurd (congrArg Prod.fst hrun) (by simp)
  · rename_i user hget
    obtain ⟨hok, rfl⟩ := Prod.mk.inj hrun
    refine posts_insert (fun a => ?_) (h user () _ (Prod.ext ?_ rfl))
    · rw [hget, Option.elim_some]
    · generalize (op user).1 = r at hok
      rcases r with e | _
      · exact absurd hok (by simp [Except.mapError])
      · rfl

/-- A step that only reads. -/
lemma Pays.after {α : Type} {r : Fallible Accounts Abort α} {k : α → Fallible Accounts Abort Unit}
    (hr : Fallible.Keeps id r) (hk : ∀ a, Pays (k a) out inn) : Pays (r >>= k) out inn := by
  intro accounts
  refine Fallible.Ensures.andThen (P := fun _ accounts' => accounts' = accounts) ?_ ?_
  · intro a accounts' hrun
    exact (congrArg Prod.snd hrun).symm.trans (hr accounts)
  · rintro a _ rfl
    exact hk a _

end Pays

lemma account_keeps (u : UInt64) (missing : String) : Fallible.Keeps id (account u missing) := by
  intro accounts
  unfold account
  split <;> rfl

lemma check_keeps (r : Except String Unit) (describe : String → String) :
    Fallible.Keeps id (check r describe) := fun _ => rfl

lemma applyMatchExec_pays (data : MatchExecData) : Pays (applyMatchExec data) 0 0 := by
  unfold applyMatchExec
  split
  · intro accounts _ accounts' hrun
    exact absurd (congrArg Prod.fst hrun) (by simp)
  · rename_i quoteAmount _
    refine Pays.after (account_keeps _ _) (fun buyer => ?_)
    refine Pays.after (check_keeps _ _) (fun _ => ?_)
    refine Pays.after (account_keeps _ _) (fun seller => ?_)
    refine Pays.after (check_keeps _ _) (fun _ => ?_)
    have hboth := Pays.andThen
      (expectUser_pays (UserAccount.settle_pays data.quoteAssetId data.baseAssetId quoteAmount
        data.quantity data.buyerRefund) data.buyerUserId
        "Critical: Buyer settle failed after check passed")
      (expectUser_pays (UserAccount.settle_pays data.baseAssetId data.quoteAssetId data.quantity
        quoteAmount data.sellerRefund) data.sellerUserId
        "Critical: Seller settle failed after check passed")
    intro accounts u accounts' hrun a
    have := hboth accounts u accounts' hrun a
    simp only [Pi.add_apply, Pi.zero_apply] at this ⊢
    omega

lemma applyMatchExecs_pays (batch : List MatchExecData) : Pays (applyMatchExecs batch) 0 0 := by
  induction batch with
  | nil => exact pays_pure
  | cons data batch ih =>
      rw [applyMatchExecs]
      simpa only [add_zero] using (applyMatchExec_pays data).andThen ih

end GlobalLedger

namespace LedgerCommand

/-- What a plain command deposits. -/
def depositOf : LedgerCommand → UInt32 → ℕ
  | .deposit _ assetId amount _ _ => assetPosting assetId amount.toNat
  | _ => 0

/-- What a plain command withdraws. -/
def withdrawalOf : LedgerCommand → UInt32 → ℕ
  | .withdraw _ assetId amount _ _ => assetPosting assetId amount.toNat
  | _ => 0

/-- The deposits of an asset a command contains. -/
def deposits (cmd : LedgerCommand) (a : UInt32) : ℕ :=
  (cmd.flatten.map (fun c => c.depositOf a)).sum

/-- The withdrawals of an asset a command contains. -/
def withdrawals (cmd : LedgerCommand) (a : UInt32) : ℕ :=
  (cmd.flatten.map (fun c => c.withdrawalOf a)).sum

/-- Is this the deprecated variant? -/
def isTradeSettle : LedgerCommand → Bool
  | .tradeSettle .. => true
  | _ => false

/-- Commands that only move funds between users or between available and frozen. -/
def isInternal : LedgerCommand → Bool
  | .lock .. | .unlock .. | .orderUpdate _ | .matchExec _ | .matchExecBatch _ => true
  | _ => false

lemma deposits_of_isInternal {cmd : LedgerCommand} (h : cmd.isInternal = true) (a : UInt32) :
    cmd.deposits a = 0 ∧ cmd.withdrawals a = 0 := by
  cases cmd with
  | lock | unlock | matchExec | matchExecBatch | orderUpdate =>
      simp [deposits, withdrawals, flatten, depositOf, withdrawalOf]
  | _ => exact absurd h (by simp [isInternal])

end LedgerCommand

namespace GlobalLedger

lemma applyTransaction_pays {cmd : LedgerCommand} (hplain : cmd.isPlain = true)
    (hsettle : cmd.isTradeSettle = false) :
    Pays (applyTransaction cmd) cmd.withdrawalOf cmd.depositOf := by
  cases cmd with
  | deposit userId assetId amount balanceAfter version =>
      have h :=
        onUser_pays (UserAccount.onBalance_pays (Balance.deposit_pays amount) assetId) userId
        (fun e => s!"Deposit failed for User {userId} Asset {assetId}: {e}")
      rwa [assetPosting_zero] at h
  | withdraw userId assetId amount balanceAfter version =>
      have h := onUser_pays (UserAccount.onBalance_pays (Balance.withdraw_pays amount) assetId)
        userId (fun _ => s!"Insufficient funds for withdraw: User {userId} Asset {assetId}")
      rwa [assetPosting_zero] at h
  | lock userId assetId amount balanceAfter version =>
      have h := onUser_pays (UserAccount.onBalance_pays (Balance.lock_pays amount) assetId) userId
        (fun _ => s!"Insufficient funds for lock: User {userId} Asset {assetId}")
      rwa [assetPosting_zero] at h
  | unlock userId assetId amount balanceAfter version =>
      have h := onUser_pays (UserAccount.onBalance_pays (Balance.unlock_pays amount) assetId) userId
        (fun _ => s!"Insufficient frozen funds for unlock: User {userId} Asset {assetId}")
      rwa [assetPosting_zero] at h
  | tradeSettle userId spendAssetId spendAmount gainAssetId gainAmount =>
      exact absurd hsettle (by simp [LedgerCommand.isTradeSettle])
  | matchExec data => exact applyMatchExec_pays data
  | matchExecBatch batch => exact applyMatchExecs_pays batch
  | orderUpdate update => exact pays_pure
  | batch commands => exact absurd hplain (by simp [LedgerCommand.isPlain])

/-- A sequence of plain commands posts what its commands post. -/
lemma applyTransactions_pays {commands : List LedgerCommand}
    (hplain : ∀ cmd ∈ commands, cmd.isPlain = true)
    (hsettle : ∀ cmd ∈ commands, cmd.isTradeSettle = false) :
    Pays (applyTransactions commands)
      (fun a => (commands.map (fun cmd => cmd.withdrawalOf a)).sum)
      (fun a => (commands.map (fun cmd => cmd.depositOf a)).sum) := by
  induction commands with
  | nil =>
      rw [applyTransactions]
      exact pays_pure
  | cons cmd commands ih =>
      rw [List.forall_mem_cons] at hplain hsettle
      have hrest := ih hplain.2 hsettle.2
      have hfirst := applyTransaction_pays hplain.1 hsettle.1
      rw [applyTransactions_cons]
      simp only [List.map_cons, List.sum_cons]
      exact hfirst.andThen hrest

/-- **Conservation**: a command that succeeds changes the total of an asset by what it deposits
less what it withdraws; a command that is neither leaves every total as it was. -/
theorem applyTransaction_conserves {accounts : Accounts} {cmd : LedgerCommand}
    (hsettle : ∀ c ∈ cmd.flatten, c.isTradeSettle = false)
    (hok : (applyTransaction cmd accounts).1 = .ok ()) (a : UInt32) :
    total (applyTransaction cmd accounts).2 a + cmd.withdrawals a =
        total accounts a + cmd.deposits a ∧
      (cmd.isInternal = true →
        total (applyTransaction cmd accounts).2 a = total accounts a) := by
  have hpays := applyTransactions_pays (LedgerCommand.isPlain_of_mem_flatten cmd) hsettle
  rw [← applyTransaction_eq_flatten] at hpays
  have hposts : total (applyTransaction cmd accounts).2 a + cmd.withdrawals a =
      total accounts a + cmd.deposits a := hpays accounts () _ (Prod.ext hok rfl) a
  refine ⟨hposts, fun hinternal => ?_⟩
  obtain ⟨hdeposits, hwithdrawals⟩ := LedgerCommand.deposits_of_isInternal hinternal a
  omega

/-- A nested batch in which a user trades an asset against itself with themselves, with refunds on
both sides. -/
def selfTradeBatch : LedgerCommand :=
  .batch [.deposit 1 7 100 0 0,
    .batch [.lock 1 7 60 0 0,
      .matchExec ⟨0, 0, 0, 1, 1, 2, 10, 7, 7, 5, 3, 0, 0, 0, 0, 0, 0, 0, 0, 0, 0, 0⟩],
    .withdraw 1 7 25 0 0]

theorem applyTransaction_conserves_selfTradeBatch :
    total (applyTransaction selfTradeBatch HashMap.empty).2 7 + selfTradeBatch.withdrawals 7 =
      total HashMap.empty 7 + selfTradeBatch.deposits 7 :=
  (applyTransaction_conserves (by decide) (by decide) 7).1

end GlobalLedger

end ExchangeCore
