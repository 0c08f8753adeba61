import ExchangeCore.Ledger.GlobalLedger
import ExchangeCore.Ledger.MatchSettlement
import Mathlib.Algebra.Group.Int.Defs
import Mathlib.Algebra.Group.Prod

/-!
# Commands that fail half-way

`GlobalLedger::apply` and `apply_transaction` (`ledger.rs`) change the accounts in place, one single
command of a batch after another, and return at the first that is refused.  `step_cases` says what a
single command does to the funds: accepted, it shifts them by the amounts it names (`shift`);
refused, it leaves them alone, except for a lock or an unlock whose second half does not fit, which
has done the first (`half`); a match may panic instead.

So a command that returns an error has changed no funds iff, at the single command that is refused,
everything moved until then cancels out (`Unspoilt`, a condition that runs along the single
commands): `apply_atomic_iff`, for both functions.
-/

namespace ExchangeCore

namespace LedgerCommand

/-- A batch of matches, taken apart. -/
def expand : LedgerCommand → List LedgerCommand
  | .matchExecBatch execs => execs.map .matchExec
  | cmd => [cmd]

/-- The single commands a command consists of, in order. -/
def elements (cmd : LedgerCommand) : List LedgerCommand := cmd.flatten.flatMap expand

/-- Is this neither a batch of commands nor one of matches? -/
def isSingle : LedgerCommand → Bool
  | .batch _ | .matchExecBatch _ => false
  | _ => true

lemma isSingle_of_mem_elements (cmd : LedgerCommand) : ∀ c ∈ cmd.elements, c.isSingle = true := by
  intro c hc
  obtain ⟨plain, hplain, hmem⟩ := List.mem_flatMap.mp hc
  have hisPlain := isPlain_of_mem_flatten cmd plain hplain
  cases plain with
  | batch commands => exact absurd hisPlain (by simp [isPlain])
  | matchExecBatch batch =>
      obtain ⟨data, -, rfl⟩ := List.mem_map.mp hmem
      rfl
  | _ =>
      obtain rfl := List.mem_singleton.mp hmem
      rfl

end LedgerCommand

namespace GlobalLedger

/-! ## Single commands -/

lemma applyMatchExecs_eq (batch : List MatchExecData) :
    applyMatchExecs batch = applyTransactions (batch.map .matchExec) := by
  induction batch with
  | nil => rw [applyMatchExecs, List.map_nil, applyTransactions]
  | cons data batch ih =>
      rw [applyMatchExecs, List.map_cons, applyTransactions_cons, ih, applyTransaction]

lemma applyTransactions_expand (commands : List LedgerCommand) :
    applyTransactions (commands.flatMap LedgerCommand.expand) = applyTransactions commands := by
  induction commands with
  | nil => rfl
  | cons cmd commands ih =>
      rw [List.flatMap_cons, applyTransactions_append, ih, applyTransactions_cons]
      cases cmd with
      | matchExecBatch batch =>
          rw [applyTransaction, applyMatchExecs_eq]
          rfl
      | _ => simp only [LedgerCommand.expand, applyTransactions_singleton]

/-- Applying a command is applying its single commands. -/
lemma applyTransaction_eq_elements (cmd : LedgerCommand) :
    applyTransaction cmd = applyTransactions cmd.elements := by
  rw [applyTransaction_eq_flatten, LedgerCommand.elements, applyTransactions_expand]

end GlobalLedger

/-! ## Funds -/

namespace Balance

/-- The available and the frozen amount. -/
def amounts (b : Balance) : ℤ × ℤ := (b.avail.toNat, b.frozen.toNat)

/-- An operation is refused where `refuses` holds of the available and the frozen amount: accepted,
it shifts them by `shift`, and refused, by `half`. -/
structure Shifts (op : Balance → Except String Unit × Balance) (refuses : ℕ → ℕ → Prop)
    (shift : ℤ × ℤ) (half : ℕ → ℕ → ℤ × ℤ) : Prop where
  accepted : ∀ b, ¬refuses b.avail.toNat b.frozen.toNat →
    (op b).1 = .ok () ∧ (op b).2.amounts = b.amounts + shift
  refused : ∀ b, refuses b.avail.toNat b.frozen.toNat →
    (∃ message, (op b).1 = .error message) ∧
      (op b).2.amounts = b.amounts + half b.avail.toNat b.frozen.toNat

variable (amount : UInt64)

lemma deposit_shifts : Shifts (deposit amount) (fun avail _ => 2 ^ 64 ≤ avail + amount.toNat)
    (amount.toNat, 0) (fun _ _ => 0) where
  accepted b h := by
    rcases deposit_cases amount b with ⟨hover, -⟩ | ⟨hfits, heq⟩
    · exact absurd hover h
    · rw [heq]
      exact ⟨rfl, Prod.ext (Word.cast_toNat_add hfits) (add_zero _).symm⟩
  refused b h := by
    rcases deposit_cases amount b with ⟨-, heq⟩ | ⟨hfits, -⟩
    · rw [heq]
      exact ⟨⟨_, rfl⟩, (add_zero _).symm⟩
    · exact absurd hfits (not_lt.mpr h)

lemma withdraw_shifts : Shifts (withdraw amount) (fun avail _ => avail < amount.toNat)
    (-amount.toNat, 0) (fun _ _ => 0) where
  accepted b h := by
    rcases withdraw_cases amount b with ⟨hlt, -⟩ | ⟨hle, heq⟩
    · exact absurd (UInt64.lt_iff_toNat_lt.mp hlt) h
    · rw [heq]
      exact ⟨rfl, Prod.ext (Word.cast_toNat_sub hle) (add_zero _).symm⟩
  refused b h := by
    rw [withdraw_refused (UInt64.lt_iff_toNat_lt.mpr h)]
    exact ⟨⟨_, rfl⟩, (add_zero _).symm⟩

lemma lock_shifts : Shifts (lock amount)
    (fun avail frozen => avail < amount.toNat ∨ 2 ^ 64 ≤ frozen + amount.toNat)
    (-amount.toNat, amount.toNat)
    (fun avail _ => if amount.toNat ≤ avail then (-amount.toNat, 0) else 0) where
  accepted b h := by
    rcases lock_cases amount b with ⟨hlt, -⟩ | ⟨-, hover, -⟩ | ⟨hle, hfits, heq⟩
    · exact absurd (.inl (UInt64.lt_iff_toNat_lt.mp hlt)) h
    · exact absurd (.inr hover) h
    · rw [heq]
      exact ⟨rfl, Prod.ext (Word.cast_toNat_sub hle) (Word.cast_toNat_add hfits)⟩
  refused b h := by
    rcases lock_cases amount b with ⟨hlt, heq⟩ | ⟨hle, -, heq⟩ | ⟨hle, hfits, -⟩
    · rw [heq, if_neg (not_le.mpr (UInt64.lt_iff_toNat_lt.mp hlt))]
      exact ⟨⟨_, rfl⟩, (add_zero _).symm⟩
    · rw [heq, if_pos (UInt64.le_iff_toNat_le.mp hle)]
      exact ⟨⟨_, rfl⟩, Prod.ext (Word.cast_toNat_sub hle) (add_zero _).symm⟩
    · exact absurd h (not_or.mpr ⟨not_lt.mpr (UInt64.le_iff_toNat_le.mp hle), not_le.mpr hfits⟩)

lemma unlock_shifts : Shifts (unlock amount)
    (fun avail frozen => frozen < amount.toNat ∨ 2 ^ 64 ≤ avail + amount.toNat)
    (amount.toNat, -amount.toNat)
    (fun _ frozen => if amount.toNat ≤ frozen then (0, -amount.toNat) else 0) where
  accepted b h := by
    rcases unlock_cases amount b with ⟨hlt, -⟩ | ⟨-, hover, -⟩ | ⟨hle, hfits, heq⟩
    · exact absurd (.inl (UInt64.lt_iff_toNat_lt.mp hlt)) h
    · exact absurd (.inr hover) h
    · rw [heq]
      exact ⟨rfl, Prod.ext (Word.cast_toNat_add hfits) (Word.cast_toNat_sub hle)⟩
  refused b h := by
    rcases unlock_cases amount b with ⟨hlt, heq⟩ | ⟨hle, -, heq⟩ | ⟨hle, hfits, -⟩
    · rw [heq, if_neg (not_le.mpr (UInt64.lt_iff_toNat_lt.mp hlt))]
      exact ⟨⟨_, rfl⟩, (add_zero _).symm⟩
    · rw [heq, if_pos (UInt64.le_iff_toNat_le.mp hle)]
      exact ⟨⟨_, rfl⟩, Prod.ext (add_zero _).symm (Word.cast_toNat_sub hle)⟩
    · exact absurd h (not_or.mpr ⟨not_lt.mpr (UInt64.le_iff_toNat_le.mp hle), not_le.mpr hfits⟩)

lemma spendFrozen_shifts : Shifts (spendFrozen amount) (fun _ frozen => frozen < amount.toNat)
    (0, -amount.toNat) (fun _ _ => 0) where
  accepted b h := by
    rcases spendFrozen_cases amount b with ⟨hlt, -⟩ | ⟨hle, heq⟩
    · exact absurd (UInt64.lt_iff_toNat_lt.mp hlt) h
    · rw [heq]
      exact ⟨rfl, Prod.ext (add_zero _).symm (Word.cast_toNat_sub hle)⟩
  refused b h := by
    rcases spendFrozen_cases amount b with ⟨-, heq⟩ | ⟨hle, -⟩
    · rw [heq]
      exact ⟨⟨_, rfl⟩, (add_zero _).symm⟩
    · exact absurd h (not_lt.mpr (UInt64.le_iff_toNat_le.mp hle))

end Balance

namespace GlobalLedger

/-- The available and the frozen funds of a user in an asset. -/
def fundsAt (accounts : Accounts) (u : UInt64) (a : UInt32) : ℤ × ℤ :=
  ((accountFunds accounts).free (u, a), (accountFunds accounts).held (u, a))

variable {accounts : Accounts} {u : UInt64} {a : UInt32}

lemma fundsAt_eq (accounts : Accounts) (u : UInt64) (a : UInt32) :
    fundsAt accounts u a =
      (((accounts.get? u).getD (UserAccount.new u)).balanceMut a).amounts := by
  simp only [fundsAt, accountFunds, Balance.amounts]
  rcases accounts.get? u with _ | account
  · rfl
  · rfl

lemma fundsAt_insert (accounts : Accounts) (u : UInt64) (account : UserAccount) (v : UInt64)
    (e : UInt32) :
    fundsAt (accounts.insert u account) v e =
      if v = u then (account.balanceMut e).amounts else fundsAt accounts v e := by
  rw [fundsAt_eq, fundsAt_eq, HashMap.get?_insert]
  split <;> rfl

/-- Storing the account that is there, or a new one, moves nothing. -/
lemma fundsAt_insert_self {account : UserAccount}
    (haccount : account = (accounts.get? u).getD (UserAccount.new u)) :
    fundsAt (accounts.insert u account) = fundsAt accounts := by
  funext v e
  rw [fundsAt_insert]
  split
  · rename_i hv
    rw [hv, fundsAt_eq, haccount]
  · rfl

/-- An amount at one user and asset. -/
def booked (v : UInt64) (e : UInt32) (x : ℤ × ℤ) (u : UInt64) (a : UInt32) : ℤ × ℤ :=
  if u = v ∧ a = e then x else 0

lemma fundsAt_write {account : UserAccount} {b : Balance} {x : ℤ × ℤ}
    (haccount : account = (accounts.get? u).getD (UserAccount.new u))
    (hb : b.amounts = (account.balanceMut a).amounts + x) :
    fundsAt (accounts.insert u (account.writeBalance a b)) =
      fundsAt accounts + booked u a x := by
  funext v e
  rw [fundsAt_insert, Pi.add_apply, Pi.add_apply, booked]
  by_cases hv : v = u
  · subst hv
    rw [if_pos rfl, UserAccount.balanceMut_writeBalance, fundsAt_eq, ← haccount]
    by_cases he : e = a
    · rw [if_pos he, if_pos ⟨rfl, he⟩, he, hb]
    · rw [if_neg he, if_neg (fun h => he h.2), add_zero]
  · rw [if_neg hv, if_neg (fun h => hv h.1), add_zero]

/-! ## What a single command does -/

/-- A single command is refused, and the call returns an error. -/
def Refused (accounts : Accounts) : LedgerCommand → Prop
  | .deposit u a n _ _ => 2 ^ 64 ≤ (accountFunds accounts).free (u, a) + n.toNat
  | .withdraw u a n _ _ => (accountFunds accounts).free (u, a) < n.toNat
  | .lock u a n _ _ =>
      (accountFunds accounts).free (u, a) < n.toNat ∨
        2 ^ 64 ≤ (accountFunds accounts).held (u, a) + n.toNat
  | .unlock u a n _ _ =>
      (accountFunds accounts).held (u, a) < n.toNat ∨
        2 ^ 64 ≤ (accountFunds accounts).free (u, a) + n.toNat
  | .tradeSettle u a n _ _ =>
      ((accounts.get? u).bind (fun account => account.getBalance a)).isNone ∨
        (accountFunds accounts).held (u, a) < n.toNat
  | .matchExec data => ¬data.Checked accounts
  | _ => False

/-- A single command goes through.  A match whose checks pass may still panic. -/
def Accepted (accounts : Accounts) : LedgerCommand → Prop
  | .matchExec data => data.Checked accounts ∧ data.Settles accounts
  | cmd => ¬Refused accounts cmd

/-- What a single command that goes through adds to the available and the frozen funds.  The gain of
a `TradeSettle` is dropped where it does not fit. -/
def shift (accounts : Accounts) : LedgerCommand → UInt64 → UInt32 → ℤ × ℤ
  | .deposit u a n _ _ => booked u a (n.toNat, 0)
  | .withdraw u a n _ _ => booked u a (-n.toNat, 0)
  | .lock u a n _ _ => booked u a (-n.toNat, n.toNat)
  | .unlock u a n _ _ => booked u a (n.toNat, -n.toNat)
  | .tradeSettle u a n a' n' =>
      booked u a (0, -n.toNat) +
        if (accountFunds accounts).free (u, a') + n'.toNat < 2 ^ 64 then booked u a' (n'.toNat, 0)
        else 0
  | .matchExec data => fun u a => (data.credit u a, -data.release u a)
  | _ => 0

/-- What a single command that is refused has done nevertheless. -/
def half (accounts : Accounts) : LedgerCommand → UInt64 → UInt32 → ℤ × ℤ
  | .lock u a n _ _ =>
      booked u a (if n.toNat ≤ (accountFunds accounts).free (u, a) then (-n.toNat, 0) else 0)
  | .unlock u a n _ _ =>
      booked u a (if n.toNat ≤ (accountFunds accounts).held (u, a) then (0, -n.toNat) else 0)
  | _ => 0

@[simp] lemma booked_zero (v : UInt64) (e : UInt32) : booked v e 0 = 0 := by
  funext u a
  exact ite_self 0

lemma accountFunds_free_eq (accounts : Accounts) (u : UInt64) (a : UInt32) :
    (accountFunds accounts).free (u, a) =
      (((accounts.get? u).getD (UserAccount.new u)).balanceMut a).avail.toNat := by
  have h := congrArg Prod.fst (fundsAt_eq accounts u a)
  exact Int.ofNat.inj h

lemma accountFunds_held_eq (accounts : Accounts) (u : UInt64) (a : UInt32) :
    (accountFunds accounts).held (u, a) =
      (((accounts.get? u).getD (UserAccount.new u)).balanceMut a).frozen.toNat := by
  have h := congrArg Prod.snd (fundsAt_eq accounts u a)
  exact Int.ofNat.inj h

/-- How a call ends, and what it has done to the funds. -/
inductive Ends (accounts : Accounts) (r : Except Abort Unit × Accounts) (accepted refused : Prop)
    (shift half : UInt64 → UInt32 → ℤ × ℤ) : Prop
  | ok (h : accepted) (hrefused : ¬refused) (hok : r.1 = .ok ())
      (hfunds : fundsAt r.2 = fundsAt accounts + shift)
  | error (h : refused) (haccepted : ¬accepted) (message : String)
      (herror : r.1 = .error (.error message)) (hfunds : fundsAt r.2 = fundsAt accounts + half)
  | panic (haccepted : ¬accepted) (hrefused : ¬refused) (message : String)
      (hpanic : r.1 = .error (.panic message))

/-- An operation on one balance. -/
lemma onUser_ends {op : Balance → Except String Unit × Balance} {refuses : ℕ → ℕ → Prop}
    {x : ℤ × ℤ} {y : ℕ → ℕ → ℤ × ℤ} (hop : Balance.Shifts op refuses x y) (accounts : Accounts)
    (u : UInt64) (a : UInt32) (describe : String → String) :
    Ends accounts (onUser u (UserAccount.onBalance a op) describe accounts)
      (¬refuses ((accountFunds accounts).free (u, a)) ((accountFunds accounts).held (u, a)))
      (refuses ((accountFunds accounts).free (u, a)) ((accountFunds accounts).held (u, a)))
      (booked u a x)
      (booked u a
        (y ((accountFunds accounts).free (u, a)) ((accountFunds accounts).held (u, a)))) := by
  rw [accountFunds_free_eq, accountFunds_held_eq]
  by_cases hrefuses : refuses
      (((accounts.get? u).getD (UserAccount.new u)).balanceMut a).avail.toNat
      (((accounts.get? u).getD (UserAccount.new u)).balanceMut a).frozen.toNat
  · obtain ⟨⟨message, hval⟩, hamounts⟩ := hop.refused _ hrefuses
    refine .error hrefuses (not_not.mpr hrefuses) (describe message) ?_ (fundsAt_write rfl hamounts)
    simp only [onUser, UserAccount.onBalance, hval, Except.mapError]
  · obtain ⟨hval, hamounts⟩ := hop.accepted _ hrefuses
    refine .ok hrefuses hrefuses ?_ (fundsAt_write rfl hamounts)
    simp only [onUser, UserAccount.onBalance, hval, Except.mapError]

/-- The deprecated `TradeSettle`: a gain that does not fit is dropped. -/
lemma tradeSettle_ends (accounts : Accounts) (u : UInt64) (a : UInt32) (n : UInt64) (a' : UInt32)
    (n' : UInt64) :
    Ends accounts (applyTransaction (.tradeSettle u a n a' n') accounts)
      (Accepted accounts (.tradeSettle u a n a' n')) (Refused accounts (.tradeSettle u a n a' n'))
      (shift accounts (.tradeSettle u a n a' n')) 0 := by
  obtain ⟨account, haccount⟩ : ∃ account, account = (accounts.get? u).getD (UserAccount.new u) :=
    ⟨_, rfl⟩
  have hlisted : (accounts.get? u).bind (fun account => account.getBalance a) =
      account.getBalance a := by
    rw [haccount]
    rcases accounts.get? u with _ | account
    · rfl
    · rfl
  have hheld : (accountFunds accounts).held (u, a) = (account.balanceMut a).frozen.toNat := by
    rw [accountFunds_held_eq, haccount]
  have hfree : (accountFunds accounts).free (u, a') = (account.balanceMut a').avail.toNat := by
    rw [accountFunds_free_eq, haccount]
  have hrun : applyTransaction (.tradeSettle u a n a' n') accounts =
      ((UserAccount.tradeSettle u a n a' n' account).1.mapError (fun e => .error e),
        accounts.insert u (UserAccount.tradeSettle u a n a' n' account).2) := by
    rw [haccount]
    rfl
  rw [hrun]
  cases hget : account.getBalance a with
  | none =>
      -- there is no balance to spend from
      have hrefused : Refused accounts (.tradeSettle u a n a' n') :=
        .inl (by rw [hlisted, hget]; rfl)
      simp only [UserAccount.tradeSettle, hget]
      refine .error hrefused (not_not.mpr hrefused) _ rfl ?_
      rw [add_zero]
      exact fundsAt_insert_self haccount
  | some bal =>
      have hspends := Balance.spendFrozen_shifts n
      by_cases hcovered : (account.balanceMut a).frozen.toNat < n.toNat
      · have hrefused : Refused accounts (.tradeSettle u a n a' n') := .inr (by rwa [hheld])
        obtain ⟨⟨message, hval⟩, hamounts⟩ := hspends.refused _ hcovered
        have hwrite := fundsAt_write haccount hamounts
        rw [booked_zero] at hwrite
        simp only [UserAccount.tradeSettle, hget, UserAccount.onBalance, hval]
        exact .error hrefused (not_not.mpr hrefused) _ rfl hwrite
      · have hrefused : ¬Refused accounts (.tradeSettle u a n a' n') := by
          rintro (hnone | hless)
          · rw [hlisted, hget] at hnone
            exact absurd hnone (by simp)
          · rw [hheld] at hless
            exact hcovered hless
        obtain ⟨hval, hamounts⟩ := hspends.accepted _ hcovered
        have hwrite := fundsAt_write haccount hamounts
        obtain ⟨spent, hspent⟩ : ∃ spent, spent = account.writeBalance a
          (Balance.spendFrozen n (account.balanceMut a)).2 := ⟨_, rfl⟩
        rw [← hspent] at hwrite
        have hget' : spent = ((accounts.insert u spent).get? u).getD (UserAccount.new u) := by
          rw [HashMap.get?_insert, if_pos rfl, Option.getD_some]
        -- spending has not touched what is available
        have havail : (spent.balanceMut a').avail.toNat = (account.balanceMut a').avail.toNat := by
          rw [hspent, UserAccount.balanceMut_writeBalance]
          split
          · rename_i hasset
            have hfst := congrArg Prod.fst hamounts
            rw [hasset]
            simpa [Balance.amounts] using hfst
          · rfl
        simp only [UserAccount.tradeSettle, hget, UserAccount.onBalance, hval, ← hspent]
        refine .ok hrefused hrefused rfl ?_
        rw [shift, hfree, ← havail, ← add_assoc, ← hwrite, ← HashMap.insert_insert accounts u spent]
        have hgains := Balance.deposit_shifts n'
        by_cases hfits : (spent.balanceMut a').avail.toNat + n'.toNat < 2 ^ 64
        · rw [if_pos hfits]
          exact fundsAt_write hget' (hgains.accepted _ (not_le.mpr hfits)).2
        · rw [if_neg hfits, ← booked_zero u a']
          exact fundsAt_write hget' (hgains.refused _ (not_lt.mp hfits)).2

lemma matchExec_ends (accounts : Accounts) (data : MatchExecData) :
    Ends accounts (applyTransaction (.matchExec data) accounts)
      (Accepted accounts (.matchExec data))
      (Refused accounts (.matchExec data)) (shift accounts (.matchExec data)) 0 := by
  rw [applyTransaction]
  by_cases h : data.Checked accounts
  swap
  · obtain ⟨message, hrun⟩ := applyMatchExec_of_not_checked h
    rw [hrun]
    exact .error h (fun haccepted => h haccepted.1) message rfl (add_zero _).symm
  rw [applyMatchExec_of_checked h]
  have hok := settleMatch_isOk h
  by_cases hsettles : data.Settles accounts
  · refine .ok ⟨h, hsettles⟩ (not_not.mpr h) (eq_ok_of_isOk (hok.mpr hsettles)) ?_
    funext u a
    obtain ⟨hfree, hheld⟩ := settleMatch_funds h hsettles u a
    refine Prod.ext ?_ ?_
    · simp only [fundsAt, shift, Pi.add_apply, Prod.fst_add, hfree]
      push_cast
      rfl
    · simp only [fundsAt, shift, Pi.add_apply, Prod.snd_add]
      omega
  · rcases hrun : (settleMatch data (data.price * data.quantity) data.quantity accounts).1
      with e | _
    · obtain ⟨message, rfl⟩ := settleMatch_error hrun
      exact .panic (fun haccepted => hsettles haccepted.2) (not_not.mpr h) message hrun
    · rw [hrun] at hok
      exact absurd (hok.mp rfl) hsettles

/-- **What a single command does**: it goes through and shifts the funds by the amounts it names, it
is refused, and leaves at most half of itself, or it panics. -/
lemma step_cases (accounts : Accounts) {cmd : LedgerCommand} (hsingle : cmd.isSingle = true) :
    Ends accounts (applyTransaction cmd accounts) (Accepted accounts cmd) (Refused accounts cmd)
      (shift accounts cmd) (half accounts cmd) := by
  cases cmd with
  | deposit u a n balanceAfter version =>
      have h := onUser_ends (Balance.deposit_shifts n) accounts u a
        (fun e => s!"Deposit failed for User {u} Asset {a}: {e}")
      rw [booked_zero] at h
      exact h
  | withdraw u a n balanceAfter version =>
      have h := onUser_ends (Balance.withdraw_shifts n) accounts u a
        (fun _ => s!"Insufficient funds for withdraw: User {u} Asset {a}")
      rw [booked_zero] at h
      exact h
  | lock u a n balanceAfter version =>
      exact onUser_ends (Balance.lock_shifts n) accounts u a
        (fun _ => s!"Insufficient funds for lock: User {u} Asset {a}")
  | unlock u a n balanceAfter version =>
      exact onUser_ends (Balance.unlock_shifts n) accounts u a
        (fun _ => s!"Insufficient frozen funds for unlock: User {u} Asset {a}")
  | tradeSettle u a n a' n' => exact tradeSettle_ends accounts u a n a' n'
  | matchExec data => exact matchExec_ends accounts data
  | matchExecBatch batch => exact absurd hsingle (by simp [LedgerCommand.isSingle])
  | orderUpdate update => exact .ok id id rfl (add_zero _).symm
  | batch commands => exact absurd hsingle (by simp [LedgerCommand.isSingle])

/-! ## A command as a run of single commands -/

/-- Along the single commands, `moved` being what they have moved so far: where one is refused, this
and what the refused one has done cancel out; and so they do at the end, if `atEnd`. -/
def Unspoilt (atEnd : Prop) : List LedgerCommand → (UInt64 → UInt32 → ℤ × ℤ) → Accounts → Prop
  | [], moved, _ => atEnd → moved = 0
  | cmd :: commands, moved, accounts =>
      (Refused accounts cmd → moved + half accounts cmd = 0) ∧
        (Accepted accounts cmd →
          Unspoilt atEnd commands (moved + shift accounts cmd) (applyTransaction cmd accounts).2)

/-- A run that has moved `moved` since `start`, and fails, or ends where `atEnd` holds, leaves the
funds of `start` iff it is unspoilt. -/
lemma unspoilt_iff {atEnd : Prop} {start : Accounts} {commands : List LedgerCommand}
    (hsingle : ∀ cmd ∈ commands, cmd.isSingle = true) {moved : UInt64 → UInt32 → ℤ × ℤ}
    {accounts : Accounts} (h : fundsAt accounts = fundsAt start + moved) :
    (((∃ message, (applyTransactions commands accounts).1 = .error (.error message)) ∨
          (applyTransactions commands accounts).1 = .ok () ∧ atEnd) →
        fundsAt (applyTransactions commands accounts).2 = fundsAt start) ↔
      Unspoilt atEnd commands moved accounts := by
  induction commands generalizing accounts moved with
  | nil =>
      rw [Unspoilt, applyTransactions]
      show ((∃ message, (Except.ok () : Except Abort Unit) = .error (.error message)) ∨
        (Except.ok () : Except Abort Unit) = .ok () ∧ atEnd → fundsAt accounts = fundsAt start) ↔ _
      rw [h, add_eq_left]
      simp
  | cons cmd commands ih =>
      rw [List.forall_mem_cons] at hsingle
      rw [Unspoilt, applyTransactions_cons]
      rcases hrun : applyTransaction cmd accounts with ⟨r, accounts'⟩
      have hstep := step_cases accounts hsingle.1
      rw [hrun] at hstep
      rcases hstep with ⟨haccepted, hrefused, rfl, hfunds⟩ |
        ⟨hrefused, haccepted, message, rfl, hfunds⟩ | ⟨haccepted, hrefused, message, rfl⟩
      · rw [Fallible.bind_of_ok hrun, ih hsingle.2 (by rw [hfunds, h, add_assoc])]
        exact ⟨fun hrest => ⟨fun hr => absurd hr hrefused, fun _ => hrest⟩,
          fun hboth => hboth.2 haccepted⟩
      · rw [Fallible.bind_of_error hrun]
        have heq : fundsAt accounts' = fundsAt start ↔ moved + half accounts cmd = 0 := by
          dsimp only at hfunds
          rw [hfunds, h, add_assoc, add_eq_left]
        dsimp only
        rw [heq]
        exact ⟨fun hleft => ⟨fun _ => hleft (.inl ⟨message, rfl⟩), fun ha => absurd ha haccepted⟩,
          fun hboth _ => hboth.1 hrefused⟩
      · rw [Fallible.bind_of_error hrun]
        exact iff_of_true (fun hleft => absurd hleft (by simp))
          ⟨fun hr => absurd hr hrefused, fun ha => absurd ha haccepted⟩

section Apply

variable (codec : LedgerCodec) (clock : ℕ → ℕ)

lemma appendRecord_keeps (r : WalRecord) (ledger : GlobalLedger) :
    (appendRecord codec clock r ledger).2.accounts = ledger.accounts ∧
      (appendRecord codec clock r ledger).2.listener = ledger.listener := by
  unfold appendRecord
  split
  · exact ⟨rfl, rfl⟩
  · exact ⟨rfl, rfl⟩

lemma notify_spec (answer : LedgerListener → Except String Unit) (ledger : GlobalLedger) :
    (notify answer ledger).2 = ledger ∧
      ((∃ message, (notify answer ledger).1 = .error (.error message)) ↔
        ∃ listener ∈ ledger.listener, ∃ e, answer listener = .error e) := by
  unfold notify
  rcases ledger.listener with _ | listener
  · exact ⟨rfl, by simp⟩
  · refine ⟨rfl, ?_⟩
    rcases hanswer : answer listener with e | _
    · exact iff_of_true ⟨e, by simp [hanswer, Except.mapError]⟩ ⟨listener, rfl, e, hanswer⟩
    · exact iff_of_false (by simp [hanswer, Except.mapError]) (by simp [hanswer])

lemma apply_of_append_error {cmd : LedgerCommand} {ledger : GlobalLedger}
    (h : (appendRecord codec clock (ledger.lastSeq + 1, cmd) ledger).1 ≠ .ok ()) :
    (apply codec clock cmd ledger).2.accounts = ledger.accounts := by
  have hkeeps := (appendRecord_keeps codec clock (ledger.lastSeq + 1, cmd) ledger).1
  unfold apply
  dsimp only
  rcases hrun : appendRecord codec clock (ledger.lastSeq + 1, cmd) ledger with ⟨e | _, ledger'⟩
  · rw [Fallible.bind_of_error hrun]
    rwa [hrun] at hkeeps
  · exact absurd (congrArg Prod.fst hrun) h

lemma apply_of_append_ok {cmd : LedgerCommand} {ledger : GlobalLedger}
    (h : (appendRecord codec clock (ledger.lastSeq + 1, cmd) ledger).1 = .ok ()) :
    (apply codec clock cmd ledger).2.accounts = (applyTransaction cmd ledger.accounts).2 ∧
      ((∃ message, (apply codec clock cmd ledger).1 = .error (.error message)) ↔
        (∃ message, (applyTransaction cmd ledger.accounts).1 = .error (.error message)) ∨
          (applyTransaction cmd ledger.accounts).1 = .ok () ∧
            ∃ listener ∈ ledger.listener, ∃ e, listener.onCommand cmd = .error e) := by
  obtain ⟨haccounts, hlistener⟩ := appendRecord_keeps codec clock (ledger.lastSeq + 1, cmd) ledger
  unfold apply
  dsimp only
  rcases hrun : appendRecord codec clock (ledger.lastSeq + 1, cmd) ledger with ⟨r, ledger'⟩
  rw [hrun] at h haccounts hlistener
  dsimp only at h haccounts hlistener
  subst h
  rw [Fallible.bind_of_ok hrun, ← haccounts, ← hlistener]
  rcases hcmd : applyTransaction cmd ledger'.accounts with ⟨e | _, accounts'⟩
  · have hon : onAccounts (applyTransaction cmd) ledger' =
        (.error e, { ledger' with accounts := accounts' }) := by rw [onAccounts, hcmd]
    rw [Fallible.bind_of_error hon]
    exact ⟨rfl, by simp⟩
  · have hon : onAccounts (applyTransaction cmd) ledger' =
        (.ok (), { ledger' with accounts := accounts' }) := by rw [onAccounts, hcmd]
    rw [Fallible.bind_of_ok hon]
    obtain ⟨hsame, hiff⟩ := notify_spec (fun listener => listener.onCommand cmd)
      { ledger' with accounts := accounts' }
    rcases hnotify : notify (fun listener => listener.onCommand cmd)
      { ledger' with accounts := accounts' } with ⟨e | _, ledger''⟩
    · rw [hnotify] at hsame hiff
      rw [Fallible.bind_of_error hnotify]
      exact ⟨congrArg GlobalLedger.accounts hsame, by simpa using hiff⟩
    · rw [hnotify] at hsame hiff
      rw [Fallible.bind_of_ok hnotify]
      refine ⟨congrArg GlobalLedger.accounts hsame, ?_⟩
      simpa [Fallible.modify] using hiff

/-- **When a command that fails leaves no trace.**  An error of `apply_transaction` means that no
funds have changed iff the command is unspoilt.  For `apply`, which may also fail for the log or the
listener: iff it is unspoilt, should the record be written, where an objection of the listener
counts as a failure at the end. -/
theorem apply_atomic_iff (ledger : GlobalLedger) (cmd : LedgerCommand) :
    ((∀ message, (applyTransaction cmd ledger.accounts).1 = .error (.error message) →
          ∀ u a, fundsAt (applyTransaction cmd ledger.accounts).2 u a =
            fundsAt ledger.accounts u a) ↔
        Unspoilt False cmd.elements 0 ledger.accounts) ∧
      ((∀ message, (apply codec clock cmd ledger).1 = .error (.error message) →
          ∀ u a, fundsAt (apply codec clock cmd ledger).2.accounts u a =
            fundsAt ledger.accounts u a) ↔
        ((appendRecord codec clock (ledger.lastSeq + 1, cmd) ledger).1 = .ok () →
          Unspoilt (∃ listener ∈ ledger.listener, ∃ e, listener.onCommand cmd = .error e)
            cmd.elements 0 ledger.accounts)) := by
  have hunspoilt := fun atEnd => @unspoilt_iff atEnd ledger.accounts cmd.elements
    (LedgerCommand.isSingle_of_mem_elements cmd) 0 ledger.accounts (add_zero _).symm
  simp only [← applyTransaction_eq_elements] at hunspoilt
  constructor
  · rw [← hunspoilt]
    constructor
    · rintro h (⟨message, herror⟩ | ⟨-, hfalse⟩)
      · exact funext fun u => funext fun a => h message herror u a
      · exact hfalse.elim
    · intro h message herror u a
      rw [h (.inl ⟨message, herror⟩)]
  · by_cases happend : (appendRecord codec clock (ledger.lastSeq + 1, cmd) ledger).1 = .ok ()
    · obtain ⟨haccounts, hiff⟩ := apply_of_append_ok codec clock happend
      rw [← hunspoilt, ← hiff, haccounts]
      constructor
      · rintro h - ⟨message, herror⟩
        exact funext fun u => funext fun a => h message herror u a
      · intro h message herror u a
        rw [h happend ⟨message, herror⟩]
    · refine iff_of_true (fun _ _ u a => ?_) (fun h => absurd h happend)
      rw [apply_of_append_error codec clock happend]

/-- A deposit, and a withdrawal that it does not cover. -/
def overdrawn : LedgerCommand := .batch [.deposit 1 7 100 0 0, .withdraw 1 7 200 0 0]

/-- The batch is refused, and the deposit stays. -/
theorem overdrawn_spoilt :
    ¬∀ (ledger : GlobalLedger) (cmd : LedgerCommand),
      (∀ message, (applyTransaction cmd ledger.accounts).1 = .error (.error message) →
        ∀ u a, fundsAt (applyTransaction cmd ledger.accounts).2 u a =
          fundsAt ledger.accounts u a) ∧
      ∀ message, (apply (LedgerCodec.balances (fun _ => "")) (fun _ => 0) cmd ledger).1 =
          .error (.error message) →
        ∀ u a, fundsAt (apply (LedgerCodec.balances (fun _ => "")) (fun _ => 0) cmd
          ledger).2.accounts u a = fundsAt ledger.accounts u a := by
  intro h
  have herror : (applyTransaction overdrawn fresh.accounts).1 =
      .error (.error "Insufficient funds for withdraw: User 1 Asset 7") := by decide +kernel
  have hsame := (h fresh overdrawn).1 _ herror 1 7
  exact absurd hsame (by decide)

end Apply

end GlobalLedger

end ExchangeCore
