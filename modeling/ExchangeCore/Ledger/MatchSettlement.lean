import ExchangeCore.Ledger.Transactions
import ExchangeCore.Ubs.Atomicity

/-!
# Settling a match in the ledger

`GlobalLedger::apply_match_exec` (`ledger.rs`) checks both parties, and then settles one after the
other with `expect`, taking the settlement to be guaranteed by the checks.  The checks are about
frozen funds, one party at a time and with a sum that wraps; what the settlement needs is that the
funds cover both sides together (`MatchExecData.Settles`).  Where they pass and the funds do not,
the call panics, and only there (`applyMatchExec_panicFree_iff`).

`UBSCore::settle_trade` settles the same trade with a check at every step and none before.  On a
trade of two assets that moves something, and whose sums do not wrap, the two implementations agree
(`applyMatchExec_agrees`).
-/

namespace ExchangeCore

namespace GlobalLedger

open Fallible Drawdown

/-! ## The settlement, step by step -/

/-- An operation made of two is the two operations, one after the other. -/
lemma expectUser_bind (u : UInt64) (m k : Fallible UserAccount String Unit) (critical : String) :
    expectUser u (m >>= fun _ => k) critical =
      expectUser u m critical >>= fun _ => expectUser u k critical := by
  funext accounts
  show _ = Fallible.bind (expectUser u m critical) _ accounts
  rw [Fallible.bind]
  cases hget : accounts.get? u with
  | none => simp only [expectUser, hget]
  | some account =>
      have hbind : (m >>= fun _ => k) account = Fallible.bind m (fun _ => k) account := rfl
      simp only [expectUser, hget, hbind, Fallible.bind]
      rcases m account with ⟨e | _, account'⟩
      · rfl
      · simp only [Except.mapError, HashMap.get?_insert, if_true, HashMap.insert_insert]

/-- The steps of one side of a settlement. -/
lemma expectUser_settle (u : UInt64) (spendAssetId gainAssetId : UInt32)
    (spend gain refund : UInt64) (critical : String) :
    expectUser u (UserAccount.settle spendAssetId gainAssetId spend gain refund) critical =
      expectUser u (UserAccount.onBalance spendAssetId (Balance.spendFrozen spend)) critical >>=
        fun _ =>
      expectUser u (UserAccount.onBalance gainAssetId (Balance.deposit gain)) critical >>= fun _ =>
      if 0 < refund then
        expectUser u (UserAccount.onBalance spendAssetId (Balance.unlock refund)) critical
      else pure () := by
  unfold UserAccount.settle
  rw [expectUser_bind]
  congr 1
  funext _
  by_cases h : 0 < refund
  · simp only [if_pos h]
    exact expectUser_bind u _ _ critical
  · simp only [if_neg h, bind_pure_unit]

/-- An operation on a balance, in terms of the funds. -/
lemma expectUser_parallels {op : Balance → Except String Unit × Balance} {draw credit : ℕ}
    (hop : Balance.Draws op draw credit) (u : UInt64) (a : UInt32) (critical : String) :
    Parallels (fun accounts f => accountFunds accounts = f)
      (expectUser u (UserAccount.onBalance a op) critical)
      (attempt (2 ^ 64) ⟨(u, a), draw, credit⟩) := by
  rintro accounts _ rfl
  cases hget : accounts.get? u with
  | none =>
      rw [attempt_of_none hget]
      simp only [expectUser, hget, isOk_error, true_and]
  | some account =>
      obtain ⟨hok, hfunds⟩ := funds_write (a := a) hop hget
      simp only [expectUser, hget, UserAccount.onBalance]
      refine ⟨?_, hfunds⟩
      rw [← hok]
      rcases (op (account.balanceMut a)).1 with e | _
      · rfl
      · rfl

/-- One side of a settlement, in terms of the funds. -/
lemma expectUser_settle_parallels (u : UInt64) (spendAssetId gainAssetId : UInt32)
    (spend gain refund : UInt64) (critical : String) :
    Parallels (fun accounts f => accountFunds accounts = f)
      (expectUser u (UserAccount.settle spendAssetId gainAssetId spend gain refund) critical)
      (attemptAll (2 ^ 64) (sideDrawdowns u spendAssetId gainAssetId spend gain refund)) := by
  rw [expectUser_settle]
  simp only [sideDrawdowns, attemptAll]
  refine (expectUser_parallels (Balance.spendFrozen_draws _) _ _ _).bind ?_
  refine (expectUser_parallels (Balance.deposit_draws _) _ _ _).bind ?_
  unfold refundDrawdowns
  split
  · have hunlock := expectUser_parallels (Balance.unlock_draws refund) u spendAssetId critical
    simpa only [attemptAll, bind_pure_unit] using hunlock
  · exact .pure

lemma settleMatch_parallels (data : MatchExecData) (quoteAmount baseAmount : UInt64) :
    Parallels (fun accounts f => accountFunds accounts = f)
      (settleMatch data quoteAmount baseAmount) (attemptAll (2 ^ 64)
        (sideDrawdowns data.buyerUserId data.quoteAssetId data.baseAssetId quoteAmount baseAmount
            data.buyerRefund ++
          sideDrawdowns data.sellerUserId data.baseAssetId data.quoteAssetId baseAmount quoteAmount
            data.sellerRefund)) := by
  rw [attemptAll_append]
  exact (expectUser_settle_parallels _ _ _ _ _ _ _).bind (expectUser_settle_parallels _ _ _ _ _ _ _)

/-- A settlement that fails panics. -/
lemma expectUser_error {u : UInt64} {op : Fallible UserAccount String Unit} {critical : String}
    {accounts : Accounts} {e : Abort} (h : (expectUser u op critical accounts).1 = .error e) :
    ∃ message, e = .panic message := by
  unfold expectUser at h
  split at h
  · exact ⟨_, (Except.error.inj h).symm⟩
  · rename_i account _
    dsimp only at h
    generalize (op account).1 = r at h
    rcases r with e' | _
    · exact ⟨_, (Except.error.inj h).symm⟩
    · exact absurd h (by simp [Except.mapError])

lemma settleMatch_error {data : MatchExecData} {quoteAmount baseAmount : UInt64}
    {accounts : Accounts} {e : Abort}
    (h : (settleMatch data quoteAmount baseAmount accounts).1 = .error e) :
    ∃ message, e = .panic message := by
  change (Fallible.bind (expectUser _ _ _) _ accounts).1 = _ at h
  rw [Fallible.bind] at h
  split at h
  · exact expectUser_error h
  · rename_i e' accounts' hrun
    obtain rfl := Except.error.inj h
    exact expectUser_error (congrArg Prod.fst hrun)

end GlobalLedger

/-! ## The checks -/

namespace MatchExecData

/-- The pre-flight checks pass. -/
structure Checked (data : MatchExecData) (accounts : Accounts) : Prop where
  quoteAmount : data.price.toNat * data.quantity.toNat < 2 ^ 64
  buyer : ∃ buyer, accounts.get? data.buyerUserId = some buyer ∧
    buyer.checkBuyerBalance data.quoteAssetId (data.price * data.quantity) data.buyerRefund = .ok ()
  seller : ∃ seller, accounts.get? data.sellerUserId = some seller ∧
    seller.checkSellerBalance data.baseAssetId data.quantity data.sellerRefund = .ok ()

/-- What the two parties pay and take back, out of their frozen funds. -/
def release (data : MatchExecData) (u : UInt64) (a : UInt32) : ℕ :=
  posting data.buyerUserId data.quoteAssetId
      (data.price.toNat * data.quantity.toNat + data.buyerRefund.toNat) u a +
    posting data.sellerUserId data.baseAssetId
      (data.quantity.toNat + data.sellerRefund.toNat) u a

/-- What the two parties receive and are given back, to their available funds. -/
def credit (data : MatchExecData) (u : UInt64) (a : UInt32) : ℕ :=
  posting data.buyerUserId data.baseAssetId data.quantity.toNat u a +
      posting data.buyerUserId data.quoteAssetId data.buyerRefund.toNat u a +
    (posting data.sellerUserId data.quoteAssetId (data.price.toNat * data.quantity.toNat) u a +
      posting data.sellerUserId data.baseAssetId data.sellerRefund.toNat u a)

/-- The funds cover both sides of the match together. -/
structure Settles (data : MatchExecData) (accounts : Accounts) : Prop where
  frozen : ∀ u a, data.release u a ≤ (accountFunds accounts).held (u, a)
  room : ∀ u a, (accountFunds accounts).free (u, a) + data.credit u a < 2 ^ 64

end MatchExecData

namespace GlobalLedger

open Fallible Drawdown

variable {data : MatchExecData} {accounts : Accounts}

lemma account_of_some {u : UInt64} {user : UserAccount} (h : accounts.get? u = some user)
    (missing : String) : account u missing accounts = (.ok user, accounts) := by
  simp only [account, h]

lemma account_of_none {u : UInt64} (h : accounts.get? u = none) (missing : String) :
    account u missing accounts = (.error (.error missing), accounts) := by
  simp only [account, h]

lemma check_of_ok (describe : String → String) :
    check (.ok ()) describe accounts = (.ok (), accounts) := rfl

/-- With the checks passed, what is left is the settlement. -/
lemma applyMatchExec_of_checked (h : data.Checked accounts) :
    applyMatchExec data accounts =
      settleMatch data (data.price * data.quantity) data.quantity accounts := by
  obtain ⟨buyer, hbuyer, hbuyerOk⟩ := h.buyer
  obtain ⟨seller, hseller, hsellerOk⟩ := h.seller
  unfold applyMatchExec
  rw [Word.checkedMul_eq h.quoteAmount]
  dsimp only
  rw [bind_of_ok (account_of_some hbuyer _), hbuyerOk, bind_of_ok (check_of_ok _),
    bind_of_ok (account_of_some hseller _), hsellerOk,
    bind_of_ok (check_of_ok _)]

/-- Where a check does not pass, the call returns an error and has changed nothing. -/
lemma applyMatchExec_of_not_checked (h : ¬data.Checked accounts) :
    ∃ message, applyMatchExec data accounts = (.error (.error message), accounts) := by
  by_cases hmul : data.price.toNat * data.quantity.toNat < 2 ^ 64
  swap
  · have hnone : Word.checkedMul data.price data.quantity = none := if_neg hmul
    rw [applyMatchExec, hnone]
    exact ⟨_, rfl⟩
  rw [applyMatchExec, Word.checkedMul_eq hmul]
  dsimp only
  cases hbuyer : accounts.get? data.buyerUserId with
  | none => exact ⟨_, bind_of_error (account_of_none hbuyer _)⟩
  | some buyer =>
      rw [bind_of_ok (account_of_some hbuyer _)]
      rcases hbuyerOk : buyer.checkBuyerBalance data.quoteAssetId (data.price * data.quantity)
        data.buyerRefund with e | _
      · exact ⟨_, bind_of_error rfl⟩
      rw [bind_of_ok (check_of_ok _)]
      cases hseller : accounts.get? data.sellerUserId with
      | none => exact ⟨_, bind_of_error (account_of_none hseller _)⟩
      | some seller =>
          rw [bind_of_ok (account_of_some hseller _)]
          rcases hsellerOk : seller.checkSellerBalance data.baseAssetId data.quantity
            data.sellerRefund with e | _
          · exact ⟨_, bind_of_error rfl⟩
          · exact absurd ⟨hmul, ⟨buyer, hbuyer, hbuyerOk⟩, seller, hseller, hsellerOk⟩ h

/-- The settlement goes through iff the funds cover both sides. -/
lemma settleMatch_isOk (h : data.Checked accounts) :
    (settleMatch data (data.price * data.quantity) data.quantity accounts).1.isOk = true ↔
      data.Settles accounts := by
  obtain ⟨hok, -⟩ :=
    settleMatch_parallels data (data.price * data.quantity) data.quantity accounts _ rfl
  obtain ⟨buyer, hbuyer, -⟩ := h.buyer
  obtain ⟨seller, hseller, -⟩ := h.seller
  have hkeys : ∀ u user, accounts.get? u = some user → u ∈ accounts.keys := by
    intro u user hget
    rw [HashMap.mem_keys, hget, Option.isSome_some]
  rw [hok, attemptAll_isOk (accountFunds_free_lt accounts), covers_sides_iff,
    Word.toNat_mul_of_lt h.quoteAmount]
  constructor
  · rintro ⟨-, hheld, hfree⟩
    exact ⟨hheld, hfree⟩
  · intro hsettles
    exact ⟨⟨hkeys _ _ hbuyer, hkeys _ _ hseller⟩, hsettles.frozen, hsettles.room⟩

/-- What a settlement that goes through does to the funds. -/
lemma settleMatch_funds (h : data.Checked accounts) (hsettles : data.Settles accounts) (u : UInt64)
    (a : UInt32) :
    (accountFunds (settleMatch data (data.price * data.quantity) data.quantity accounts).2).free
          (u, a) = (accountFunds accounts).free (u, a) + data.credit u a ∧
      (accountFunds (settleMatch data (data.price * data.quantity) data.quantity accounts).2).held
          (u, a) + data.release u a = (accountFunds accounts).held (u, a) := by
  obtain ⟨hok, hfunds⟩ := settleMatch_parallels data (data.price * data.quantity) data.quantity
    accounts _ rfl
  rw [(settleMatch_isOk h).mpr hsettles, eq_comm, attemptAll_isOk (accountFunds_free_lt accounts)]
    at hok
  have heffect := attemptAll_effect hok (u, a)
  rw [← hfunds, drawn_append, credited_append, drawn_sideDrawdowns, drawn_sideDrawdowns,
    credited_sideDrawdowns, credited_sideDrawdowns, Word.toNat_mul_of_lt h.quoteAmount] at heffect
  exact heffect

/-- **When `apply_match_exec` does not panic.**  It returns an error, or the checks have passed and
both settlements succeed, iff the funds cover both sides where the checks pass. -/
theorem applyMatchExec_panicFree_iff (accounts : Accounts) (data : MatchExecData) :
    ((∃ message, (applyMatchExec data accounts).1 = .error (.error message)) ∨
        data.Checked accounts ∧ (applyMatchExec data accounts).1 = .ok ()) ↔
      (data.Checked accounts → data.Settles accounts) := by
  by_cases h : data.Checked accounts
  · have hiff := settleMatch_isOk h
    rw [applyMatchExec_of_checked h]
    rcases hrun : (settleMatch data (data.price * data.quantity) data.quantity accounts).1
      with e | _
    · rw [hrun] at hiff
      obtain ⟨message, rfl⟩ := settleMatch_error hrun
      simpa [h] using hiff
    · rw [hrun] at hiff
      exact iff_of_true (.inr ⟨h, rfl⟩) (fun _ => hiff.mp rfl)
  · obtain ⟨message, hrun⟩ := applyMatchExec_of_not_checked h
    rw [hrun]
    exact iff_of_true (.inl ⟨message, rfl⟩) (fun hchecked => absurd hchecked h)

/-- A buyer with 10 units of asset 2 frozen, and as many units of asset 1 as there can be. -/
def fullBuyer : Accounts :=
  (HashMap.empty.insert 1 ⟨1, [(2, ⟨0, 10, 1⟩), (1, ⟨0xFFFFFFFFFFFFFFFF, 0, 1⟩)]⟩).insert 2
    ⟨2, [(1, ⟨0, 5, 1⟩)]⟩

/-- User 1 buys 5 units of asset 1 from user 2, at 2 units of asset 2 each. -/
def fiveUnits : MatchExecData where
  tradeId := 1
  buyOrderId := 11
  sellOrderId := 12
  buyerUserId := 1
  sellerUserId := 2
  price := 2
  quantity := 5
  baseAssetId := 1
  quoteAssetId := 2
  buyerRefund := 0
  sellerRefund := 0
  matchSeq := 1
  outputSequence := 1
  settledAt := 0
  buyerQuoteVersion := 0
  buyerBaseVersion := 0
  sellerBaseVersion := 0
  sellerQuoteVersion := 0
  buyerQuoteBalanceAfter := 0
  buyerBaseBalanceAfter := 0
  sellerBaseBalanceAfter := 0
  sellerQuoteBalanceAfter := 0

/-- Both checks pass, and the buyer's settlement fails. -/
theorem fiveUnits_panics :
    ¬∀ (accounts : Accounts) (data : MatchExecData),
      (∃ message, (applyMatchExec data accounts).1 = .error (.error message)) ∨
        data.Checked accounts ∧ (applyMatchExec data accounts).1 = .ok () := by
  intro h
  have hchecked : fiveUnits.Checked fullBuyer :=
    ⟨by decide, ⟨⟨1, [(2, ⟨0, 10, 1⟩), (1, ⟨0xFFFFFFFFFFFFFFFF, 0, 1⟩)]⟩, by decide, by decide⟩,
      ⟨2, [(1, ⟨0, 5, 1⟩)]⟩, by decide, by decide⟩
  have hfail : (settleMatch fiveUnits 10 5 fullBuyer).1.isOk = false := by decide +kernel
  have hrun := h fullBuyer fiveUnits
  rw [applyMatchExec_of_checked hchecked] at hrun
  rcases hrun with ⟨message, hmessage⟩ | ⟨-, hok⟩
  · obtain ⟨_, hpanic⟩ := settleMatch_error hmessage
    exact absurd hpanic (by simp)
  · change (settleMatch fiveUnits 10 5 fullBuyer).1 = .ok () at hok
    rw [hok] at hfail
    exact absurd hfail (by simp)

/-! ## The two implementations -/

lemma onBalance_parallels_expectUser (u : UInt64) (a : UInt32)
    (op : Balance → Except String Unit × Balance) (reject : RejectReason) (critical : String) :
    Parallels (fun ubs accounts => ubs.accounts = accounts) (UBSCore.onBalance u a op reject)
      (expectUser u (UserAccount.onBalance a op) critical) := by
  rintro ubs _ rfl
  cases hget : ubs.accounts.get? u with
  | none => simp only [UBSCore.onBalance, expectUser, hget, isOk_error, true_and]
  | some account =>
      simp only [UBSCore.onBalance, expectUser, hget, UserAccount.onBalance, and_true]
      rcases (op (account.balanceMut a)).1 with e | _
      · rfl
      · rfl

end GlobalLedger

/-- What UBSCore is told of a match: the amounts, next to identifiers and fees. -/
def MatchExecData.settlement (data : MatchExecData)
    (matchId buyerOrderId sellerOrderId buyerFee sellerFee : UInt64) : UBSCore.Settlement where
  matchId := matchId
  buyerId := data.buyerUserId
  sellerId := data.sellerUserId
  baseAsset := data.baseAssetId
  quoteAsset := data.quoteAssetId
  baseQty := data.quantity
  quoteAmt := data.price * data.quantity
  buyerRefund := data.buyerRefund
  buyerOrderId := buyerOrderId
  sellerOrderId := sellerOrderId
  buyerFee := buyerFee
  sellerFee := sellerFee

namespace GlobalLedger

open Fallible

open UBSCore (settlePayments settleTrade)

/-- The five steps of UBSCore are those of the ledger where the seller is refunded nothing. -/
lemma settlePayments_parallels_settleMatch {data : MatchExecData} (hrefund : data.sellerRefund = 0)
    (matchId buyerOrderId sellerOrderId buyerFee sellerFee : UInt64) :
    Parallels (fun ubs accounts => ubs.accounts = accounts)
      (settlePayments (data.settlement matchId buyerOrderId sellerOrderId buyerFee sellerFee))
      (settleMatch data (data.price * data.quantity) data.quantity) := by
  unfold settlePayments settleMatch UserAccount.settleAsBuyer UserAccount.settleAsSeller
  rw [expectUser_settle, expectUser_settle, hrefund, if_neg (lt_irrefl (0 : UInt64)),
    bind_pure_unit]
  simp only [bind_assoc]
  refine (onBalance_parallels_expectUser _ _ _ _ _).bind ?_
  refine (onBalance_parallels_expectUser _ _ _ _ _).bind ?_
  refine Parallels.bind ?_ ((onBalance_parallels_expectUser _ _ _ _ _).bind
    (onBalance_parallels_expectUser _ _ _ _ _))
  unfold UBSCore.refundBuyer
  show Parallels _ (if 0 < data.buyerRefund then _ else _) _
  split
  · exact onBalance_parallels_expectUser _ _ _ _ _
  · exact .pure

lemma checkFrozen_of_le {account : UserAccount} {a : UInt32} {spend refund : UInt64}
    (hpos : 0 < spend.toNat) (hfits : spend.toNat + refund.toNat < 2 ^ 64)
    (hle : spend.toNat + refund.toNat ≤ (account.balanceMut a).frozen.toNat)
    (missing insufficient : String) :
    UserAccount.checkFrozen missing insufficient a spend refund account = .ok () := by
  unfold UserAccount.checkFrozen
  unfold UserAccount.balanceMut at hle
  generalize account.getBalance a = bal? at hle ⊢
  rcases bal? with _ | bal
  · -- a balance that is missing has nothing frozen
    have hzero : (Balance.default.frozen).toNat = 0 := rfl
    rw [Option.getD_none] at hle
    omega
  · rw [Option.getD_some] at hle
    refine if_neg (not_lt.mpr (UInt64.le_iff_toNat_le.mpr ?_))
    rwa [Word.toNat_add_of_lt hfits]

section Agreement

variable {data : MatchExecData} {ubs : UBSCore}
  {matchId buyerOrderId sellerOrderId buyerFee sellerFee : UInt64}

/-- A match that UBSCore settles passes the checks of the ledger. -/
lemma checked_of_settles (hprice : 0 < data.price) (hquantity : 0 < data.quantity)
    (hrefund : data.sellerRefund = 0)
    (hsum : data.price.toNat * data.quantity.toNat + data.buyerRefund.toNat < 2 ^ 64)
    (h : (data.settlement matchId buyerOrderId sellerOrderId buyerFee sellerFee).Settles ubs) :
    data.Checked ubs.accounts := by
  have hmul : data.price.toNat * data.quantity.toNat < 2 ^ 64 := by omega
  have hqty := (Word.pos_iff _).mp hquantity
  have hcost := Nat.mul_pos ((Word.pos_iff _).mp hprice) hqty
  rw [← Word.toNat_mul_of_lt hmul] at hcost hsum
  have hbuyer := h.frozen data.buyerUserId data.quoteAssetId
  have hseller := h.frozen data.sellerUserId data.baseAssetId
  simp only [UBSCore.Settlement.release, MatchExecData.settlement, posting_self] at hbuyer hseller
  obtain ⟨buyer, hb⟩ : ∃ buyer, ubs.accounts.get? data.buyerUserId = some buyer :=
    UBSCore.exists_account h.buyer
  obtain ⟨seller, hs⟩ : ∃ seller, ubs.accounts.get? data.sellerUserId = some seller :=
    UBSCore.exists_account h.seller
  rw [UBSCore.frozen_of_some hb] at hbuyer
  rw [UBSCore.frozen_of_some hs] at hseller
  have hzero : (0 : UInt64).toNat = 0 := rfl
  refine ⟨hmul, ⟨buyer, hb, checkFrozen_of_le hcost hsum (by omega) _ _⟩, seller, hs, ?_⟩
  rw [hrefund]
  refine checkFrozen_of_le hqty ?_ ?_ _ _
  · rw [hzero]
    exact data.quantity.toNat_lt
  · rw [hzero]
    omega

/-- **The two implementations agree.**  On a match that moves something, where the seller is
refunded nothing and the buyer's sum does not wrap, the ledger succeeds iff UBSCore does, and then
both leave the same accounts: the same balances, with the same versions, of every user. -/
theorem applyMatchExec_agrees (ubs : UBSCore) (data : MatchExecData)
    (matchId buyerOrderId sellerOrderId buyerFee sellerFee : UInt64) (hprice : 0 < data.price)
    (hquantity : 0 < data.quantity) (hrefund : data.sellerRefund = 0)
    (hsum : data.price.toNat * data.quantity.toNat + data.buyerRefund.toNat < 2 ^ 64) :
    ((applyMatchExec data ubs.accounts).1 = .ok () ↔
        (settleTrade (data.settlement matchId buyerOrderId sellerOrderId buyerFee sellerFee)
          ubs).1 = .ok ()) ∧
      ((applyMatchExec data ubs.accounts).1 = .ok () →
        (applyMatchExec data ubs.accounts).2 =
          (settleTrade (data.settlement matchId buyerOrderId sellerOrderId buyerFee sellerFee)
            ubs).2.accounts) := by
  obtain ⟨hval, haccounts, -⟩ := UBSCore.settleTrade_run
    (data.settlement matchId buyerOrderId sellerOrderId buyerFee sellerFee) ubs
  obtain ⟨hok, hsame⟩ := settlePayments_parallels_settleMatch hrefund matchId buyerOrderId
    sellerOrderId buyerFee sellerFee ubs _ rfl
  by_cases h : data.Checked ubs.accounts
  · rw [applyMatchExec_of_checked h, hval, haccounts, hsame]
    refine ⟨⟨fun hrun => eq_ok_of_isOk ?_, fun hrun => eq_ok_of_isOk ?_⟩, fun _ => rfl⟩
    · rw [hok, hrun]
      rfl
    · rw [← hok, hrun]
      rfl
  · -- what UBSCore settles passes the checks
    have hfail :
        (settleTrade (data.settlement matchId buyerOrderId sellerOrderId buyerFee sellerFee)
          ubs).1 ≠ .ok () := by
      intro hrun
      have hsettles := (UBSCore.settleTrade_isOk ubs
        (data.settlement matchId buyerOrderId sellerOrderId buyerFee sellerFee)).mp
          (by rw [hrun]; rfl)
      exact h (checked_of_settles hprice hquantity hrefund hsum hsettles)
    obtain ⟨message, hrun⟩ := applyMatchExec_of_not_checked h
    rw [hrun]
    exact ⟨iff_of_false (by simp) hfail, fun hsome => absurd hsome (by simp)⟩

/-- Both parties of the match above, the buyer with room for what it brings. -/
def fiveUnitsFunded : UBSCore :=
  { UBSCore.new with
    accounts := (HashMap.empty.insert 1 ⟨1, [(2, ⟨0, 10, 1⟩)]⟩).insert 2 ⟨2, [(1, ⟨0, 5, 1⟩)]⟩ }

theorem applyMatchExec_agrees_fiveUnits :
    (applyMatchExec fiveUnits fiveUnitsFunded.accounts).2 =
      (settleTrade (fiveUnits.settlement 1 11 12 0 0) fiveUnitsFunded).2.accounts :=
  (applyMatchExec_agrees fiveUnitsFunded fiveUnits 1 11 12 0 0 (by decide) (by decide) rfl
    (by decide)).2 (by decide +kernel)

end Agreement

end GlobalLedger

end ExchangeCore
