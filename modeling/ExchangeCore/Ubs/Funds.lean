import ExchangeCore.Framework.Posting
import ExchangeCore.Ubs.Core
import Mathlib.Algebra.Group.Pi.Basic

/-!
# What the balance operations do to the funds

Two views of `UBSCore`, in natural numbers: `frozen ubs u a`, the frozen funds of user `u` in
asset `a`, and `total ubs a`, all funds of the asset over all accounts.  `Moves` says how a call
changes them, as postings out and in; it composes, so a call made of several balance operations is
specified by adding up its parts.  The symbol table and the debts are left alone by everything
but `register_symbol` and the repayment of a debt, whether a call succeeds or not (`tables`).

The main results are the specifications of the entry points in terms of `Moves`:
`settleTrade_moves`, `unlockFunds_moves`, `validateOrder_cases`, `onDeposit_moves` and
`onWithdraw_moves`.
-/

namespace ExchangeCore

namespace InternalOrder

/-- The cost of an order, in natural numbers. -/
def cost (order : InternalOrder) : ℕ :=
  match order.side with
  | .buy => order.price.toNat * order.qty.toNat
  | .sell => order.qty.toNat

lemma toNat_calculateCost {order : InternalOrder}
    (h : order.calculateCost ≠ 0xFFFFFFFFFFFFFFFF) : order.calculateCost.toNat = order.cost := by
  unfold calculateCost at h ⊢
  unfold cost
  cases hs : order.side with
  | sell => rfl
  | buy =>
      simp only [hs, Word.checkedMul] at h ⊢
      split at h
      · rename_i hlt
        rw [if_pos hlt]
        exact Word.toNat_mul_of_lt hlt
      · exact absurd rfl h

end InternalOrder

namespace UBSCore

/-- The frozen funds of a user in an asset; a user without an account has none. -/
def frozen (ubs : UBSCore) (u : UInt64) (a : UInt32) : ℕ :=
  (ubs.accounts.get? u).elim 0 (fun account => (account.balanceMut a).frozen.toNat)

/-- The available funds of a user in an asset. -/
def avail (ubs : UBSCore) (u : UInt64) (a : UInt32) : ℕ :=
  (ubs.accounts.get? u).elim 0 (fun account => (account.balanceMut a).avail.toNat)

/-- All funds of an account in an asset. -/
def funds (a : UInt32) (account : UserAccount) : ℕ :=
  (account.balanceMut a).avail.toNat + (account.balanceMut a).frozen.toNat

/-- All funds of an asset. -/
def total (ubs : UBSCore) (a : UInt32) : ℕ := ubs.accounts.sum (funds a)

/-- **The effect of a call**: `release` and `hold` are posted out of and into the frozen funds,
`spend` and `gain` out of and into the total. -/
structure Moves (ubs ubs' : UBSCore) (release hold : UInt64 → UInt32 → ℕ)
    (spend gain : UInt32 → ℕ) : Prop where
  frozen : ∀ u a, ubs'.frozen u a + release u a = ubs.frozen u a + hold u a
  total : ∀ a, ubs'.total a + spend a = ubs.total a + gain a
  /-- No account disappears. -/
  accounts : ubs.accounts.keys ⊆ ubs'.accounts.keys

section Views

variable {ubs ubs' ubs'' : UBSCore} {u : UInt64} {a : UInt32} {account : UserAccount}

lemma frozen_of_some (h : ubs.accounts.get? u = some account) :
    ubs.frozen u a = (account.balanceMut a).frozen.toNat := by
  rw [frozen, h]
  rfl

lemma funds_le_total (h : ubs.accounts.get? u = some account) : funds a account ≤ ubs.total a := by
  have := ubs.accounts.elim_le_sum u (funds a)
  rw [h] at this
  exact this

lemma frozen_le_total (ubs : UBSCore) (u : UInt64) (a : UInt32) : ubs.frozen u a ≤ ubs.total a := by
  cases h : ubs.accounts.get? u with
  | none =>
      rw [frozen, h]
      exact Nat.zero_le _
  | some account =>
      rw [frozen_of_some h]
      exact (Nat.le_add_left _ _).trans (funds_le_total h)

lemma avail_of_some {ubs : UBSCore} {u : UInt64} {account : UserAccount}
    (h : ubs.accounts.get? u = some account) (a : UInt32) :
    ubs.avail u a = (account.balanceMut a).avail.toNat := by
  rw [avail, h]
  rfl

/-- No user has more available than there is. -/
lemma avail_le_total (ubs : UBSCore) (u : UInt64) (a : UInt32) : ubs.avail u a ≤ ubs.total a := by
  cases h : ubs.accounts.get? u with
  | none =>
      rw [avail, h]
      exact Nat.zero_le _
  | some account =>
      rw [avail_of_some h]
      exact (Nat.le_add_right _ _).trans (funds_le_total h)

lemma Moves.refl (ubs : UBSCore) : Moves ubs ubs 0 0 0 0 :=
  ⟨fun _ _ => rfl, fun _ => rfl, Finset.Subset.refl _⟩

/-- Effects add up. -/
lemma Moves.trans {r₁ h₁ r₂ h₂ : UInt64 → UInt32 → ℕ} {s₁ g₁ s₂ g₂ : UInt32 → ℕ}
    (h : Moves ubs ubs' r₁ h₁ s₁ g₁) (h' : Moves ubs' ubs'' r₂ h₂ s₂ g₂) :
    Moves ubs ubs'' (r₁ + r₂) (h₁ + h₂) (s₁ + s₂) (g₁ + g₂) where
  frozen u a := by
    have e := h.frozen u a
    have e' := h'.frozen u a
    simp only [Pi.add_apply]
    omega
  total a := by
    have e := h.total a
    have e' := h'.total a
    simp only [Pi.add_apply]
    omega
  accounts := h.accounts.trans h'.accounts

lemma Moves.emitEvent {r h : UInt64 → UInt32 → ℕ} {s g : UInt32 → ℕ} (hm : Moves ubs ubs' r h s g)
    (event : BalanceEvent) : Moves ubs (emitEvent event ubs') r h s g :=
  ⟨hm.frozen, hm.total, hm.accounts⟩

end Views

/-! ## Single balance operations -/

section Operations

variable {ubs : UBSCore} {u : UInt64} {a : UInt32} {account : UserAccount} {amount : UInt64}
  {reject : RejectReason}

/-- Writing a balance back: frozen funds and total change as the balance does. -/
lemma moves_write (hacc : ubs.accounts.get? u = some account) {b : Balance}
    {release hold spend gain : ℕ}
    (hfrozen : b.frozen.toNat + release = (account.balanceMut a).frozen.toNat + hold)
    (hfunds : b.avail.toNat + b.frozen.toNat + spend = funds a account + gain) :
    Moves ubs { ubs with accounts := ubs.accounts.insert u (account.writeBalance a b) }
      (posting u a release) (posting u a hold) (assetPosting a spend) (assetPosting a gain) where
  frozen u' a' := by
    by_cases hu : u' = u
    · subst hu
      rw [frozen, HashMap.get?_insert, if_pos rfl, Option.elim_some,
        UserAccount.balanceMut_writeBalance, frozen_of_some hacc]
      by_cases ha : a' = a
      · subst ha
        simpa using hfrozen
      · simp [posting, ha]
    · rw [frozen, HashMap.get?_insert, if_neg hu]
      simp [posting, hu, frozen]
  total a' := by
    have hsum := ubs.accounts.sum_insert u (account.writeBalance a b) (funds a')
    rw [hacc, Option.elim_some] at hsum
    simp only [total, assetPosting]
    by_cases ha : a' = a
    · subst ha
      have hnew : funds a' (account.writeBalance a' b) = b.avail.toNat + b.frozen.toNat := by
        simp [funds]
      rw [if_pos rfl, if_pos rfl]
      omega
    · have hsame : funds a' (account.writeBalance a b) = funds a' account := by simp [funds, ha]
      rw [if_neg ha, if_neg ha]
      omega
  accounts := by
    rw [HashMap.keys_insert]
    exact Finset.subset_insert _ _

lemma onBalance_moves (release hold spend gain : ℕ)
    {op : Balance → Except String Unit × Balance} (hacc : ubs.accounts.get? u = some account)
    {b : Balance} (hop : op (account.balanceMut a) = (.ok (), b))
    (hfrozen : b.frozen.toNat + release = (account.balanceMut a).frozen.toNat + hold)
    (hfunds : b.avail.toNat + b.frozen.toNat + spend = funds a account + gain) :
    (onBalance u a op reject).Succeeds ubs (fun _ ubs' => Moves ubs ubs'
      (posting u a release) (posting u a hold) (assetPosting a spend) (assetPosting a gain)) := by
  refine ⟨(), _, ?_, moves_write hacc hfrozen hfunds⟩
  simp only [onBalance, hacc, hop]
  rfl

lemma exists_account (hu : u ∈ ubs.accounts.keys) :
    ∃ account, ubs.accounts.get? u = some account :=
  Option.isSome_iff_exists.mp ((HashMap.mem_keys _ _).mp hu)

lemma lock_moves (hacc : ubs.accounts.get? u = some account)
    (h : amount ≤ (account.balanceMut a).avail) (htotal : ubs.total a < 2 ^ 64) :
    (onBalance u a (Balance.lock amount) reject).Succeeds ubs
      (fun _ ubs' => Moves ubs ubs' 0 (posting u a amount.toNat) 0 0) := by
  have hle := UInt64.le_iff_toNat_le.mp h
  have hfunds := funds_le_total hacc (a := a)
  unfold funds at hfunds
  obtain ⟨b, hop, havail, hfrozen⟩ := Balance.lock_ok h (by omega)
  refine (onBalance_moves 0 amount.toNat 0 0 hacc hop (by omega) ?_).mono (fun _ _ hm => ?_)
  · unfold funds
    omega
  · simpa using hm

lemma unlock_moves (hu : u ∈ ubs.accounts.keys) (h : amount.toNat ≤ ubs.frozen u a)
    (htotal : ubs.total a < 2 ^ 64) :
    (onBalance u a (Balance.unlock amount) reject).Succeeds ubs
      (fun _ ubs' => Moves ubs ubs' (posting u a amount.toNat) 0 0 0) := by
  obtain ⟨account, hacc⟩ := exists_account hu
  rw [frozen_of_some hacc] at h
  have hfunds := funds_le_total hacc (a := a)
  unfold funds at hfunds
  obtain ⟨b, hop, havail, hfrozen⟩ := Balance.unlock_ok (UInt64.le_iff_toNat_le.mpr h) (by omega)
  refine (onBalance_moves amount.toNat 0 0 0 hacc hop (by omega) ?_).mono (fun _ _ hm => ?_)
  · unfold funds
    omega
  · simpa using hm

lemma spendFrozen_moves (hu : u ∈ ubs.accounts.keys) (h : amount.toNat ≤ ubs.frozen u a) :
    (onBalance u a (Balance.spendFrozen amount) reject).Succeeds ubs
      (fun _ ubs' => Moves ubs ubs' (posting u a amount.toNat) 0
        (assetPosting a amount.toNat) 0) := by
  obtain ⟨account, hacc⟩ := exists_account hu
  rw [frozen_of_some hacc] at h
  obtain ⟨b, hop, havail, hfrozen⟩ := Balance.spendFrozen_ok (UInt64.le_iff_toNat_le.mpr h)
  refine (onBalance_moves amount.toNat 0 amount.toNat 0 hacc hop (by omega) ?_).mono
    (fun _ _ hm => ?_)
  · rw [havail]
    unfold funds
    omega
  · simpa using hm

lemma deposit_moves (hu : u ∈ ubs.accounts.keys) (h : ubs.avail u a + amount.toNat < 2 ^ 64) :
    (onBalance u a (Balance.deposit amount) reject).Succeeds ubs
      (fun _ ubs' => Moves ubs ubs' 0 0 0 (assetPosting a amount.toNat)) := by
  obtain ⟨account, hacc⟩ := exists_account hu
  rw [avail_of_some hacc] at h
  obtain ⟨b, hop, havail, hfrozen⟩ := Balance.deposit_ok h
  refine (onBalance_moves 0 0 0 amount.toNat hacc hop (by rw [hfrozen]) ?_).mono
    (fun _ _ hm => ?_)
  · rw [hfrozen]
    unfold funds
    omega
  · simpa using hm

lemma withdraw_moves (hacc : ubs.accounts.get? u = some account)
    (h : amount ≤ (account.balanceMut a).avail) :
    (onBalance u a (Balance.withdraw amount) reject).Succeeds ubs
      (fun _ ubs' => Moves ubs ubs' 0 0 (assetPosting a amount.toNat) 0) := by
  obtain ⟨b, hop, havail, hfrozen⟩ := Balance.withdraw_ok h
  refine (onBalance_moves 0 0 amount.toNat 0 hacc hop (by rw [hfrozen]) ?_).mono
    (fun _ _ hm => ?_)
  · rw [hfrozen]
    unfold funds
    omega
  · simpa using hm

/-- An operation that leaves the balance as it was leaves the funds as they were, whatever it
answers. -/
lemma onBalance_unchanged {op : Balance → Except String Unit × Balance}
    (hacc : ubs.accounts.get? u = some account)
    (hop : (op (account.balanceMut a)).2 = account.balanceMut a) :
    Moves ubs (onBalance u a op reject ubs).2 0 0 0 0 := by
  have hm := @moves_write ubs u a account hacc (account.balanceMut a) 0 0 0 0 rfl rfl
  simp only [onBalance, hacc, hop]
  simpa using hm

/-- An operation that has succeeded has changed the balance as it says. -/
lemma onBalance_ensures (release hold spend gain : ℕ)
    {op : Balance → Except String Unit × Balance}
    (hop : ∀ b b', op b = (.ok (), b') → b'.frozen.toNat + release = b.frozen.toNat + hold ∧
      b'.avail.toNat + b'.frozen.toNat + spend = b.avail.toNat + b.frozen.toNat + gain) :
    (onBalance u a op reject).Ensures ubs (fun _ ubs' => Moves ubs ubs'
      (posting u a release) (posting u a hold) (assetPosting a spend) (assetPosting a gain)) := by
  intro _ ubs' hrun
  unfold onBalance at hrun
  split at hrun
  · exact absurd (congrArg Prod.fst hrun) (by simp)
  rename_i account hacc
  obtain ⟨hval, rfl⟩ := Prod.mk.inj hrun
  rcases hr : op (account.balanceMut a) with ⟨r, b'⟩
  cases r with
  | error e =>
      rw [hr] at hval
      exact absurd hval (by simp [Except.mapError])
  | ok _ =>
      obtain ⟨hfrozen, hfunds⟩ := hop _ _ hr
      exact moves_write hacc hfrozen hfunds

end Operations

/-! ## Settling a trade -/

/-- What settling a trade takes out of frozen funds. -/
def Settlement.release (t : Settlement) (u : UInt64) (a : UInt32) : ℕ :=
  posting t.buyerId t.quoteAsset (t.quoteAmt.toNat + t.buyerRefund.toNat) u a +
    posting t.sellerId t.baseAsset t.baseQty.toNat u a

lemma refundBuyer_moves {ubs : UBSCore} {t : Settlement} (hbuyer : t.buyerId ∈ ubs.accounts.keys)
    (h : t.buyerRefund.toNat ≤ ubs.frozen t.buyerId t.quoteAsset)
    (htotal : ubs.total t.quoteAsset < 2 ^ 64) :
    (refundBuyer t).Succeeds ubs (fun _ ubs' =>
      Moves ubs ubs' (posting t.buyerId t.quoteAsset t.buyerRefund.toNat) 0 0 0) := by
  unfold refundBuyer
  split
  · exact unlock_moves hbuyer h htotal
  · rename_i hzero
    have hnone : t.buyerRefund.toNat = 0 := by
      have := mt (Word.pos_iff t.buyerRefund).mpr hzero
      omega
    rw [hnone, posting_zero]
    exact .pure (Moves.refl ubs)

/-- **Settling succeeds**, and moves funds without creating or destroying any, if both parties
have an account, have frozen what the trade takes, and no asset has `2 ^ 63` units. -/
lemma settleTrade_moves {ubs : UBSCore} {t : Settlement} (hbuyer : t.buyerId ∈ ubs.accounts.keys)
    (hseller : t.sellerId ∈ ubs.accounts.keys)
    (hfrozen : ∀ u a, t.release u a ≤ ubs.frozen u a) (htotal : ∀ a, ubs.total a < 2 ^ 63) :
    (settleTrade t).Succeeds ubs (fun _ ubs' => Moves ubs ubs' t.release 0 0 0) := by
  -- what the two parties have frozen, and so what there is, at the two accounts debited
  have hb := hfrozen t.buyerId t.quoteAsset
  have hs := hfrozen t.sellerId t.baseAsset
  simp only [Settlement.release, posting_self] at hb hs
  have hqty := ubs.frozen_le_total t.sellerId t.baseAsset
  have hcost := ubs.frozen_le_total t.buyerId t.quoteAsset
  have htb := htotal t.baseAsset
  have htq := htotal t.quoteAsset
  unfold settleTrade
  refine (spendFrozen_moves hbuyer (by omega)).andThen (fun _ ubs₁ m₁ => ?_)
  refine (deposit_moves (m₁.accounts hbuyer) ?_).andThen (fun _ ubs₂ m₂ => ?_)
  · have := m₁.total t.baseAsset
    simp only [Pi.zero_apply] at this
    have havail := ubs₁.avail_le_total t.buyerId t.baseAsset
    omega
  replace m₂ := m₁.trans m₂
  refine (refundBuyer_moves (m₂.accounts hbuyer) ?_ ?_).andThen (fun _ ubs₃ m₃ => ?_)
  · have := m₂.frozen t.buyerId t.quoteAsset
    simp only [Pi.add_apply, Pi.zero_apply, posting_self] at this
    omega
  · have := m₂.total t.quoteAsset
    simp only [Pi.add_apply, Pi.zero_apply, assetPosting] at this
    split_ifs at this <;> omega
  replace m₃ := m₂.trans m₃
  refine (spendFrozen_moves (m₃.accounts hseller) ?_).andThen (fun _ ubs₄ m₄ => ?_)
  · have := m₃.frozen t.sellerId t.baseAsset
    simp only [Pi.add_apply, Pi.zero_apply] at this
    rw [posting_add] at hs
    omega
  replace m₄ := m₃.trans m₄
  refine (deposit_moves (m₄.accounts hseller) ?_).andThen (fun _ ubs₅ m₅ => ?_)
  · have := m₄.total t.quoteAsset
    simp only [Pi.add_apply, Pi.zero_apply, assetPosting_self] at this
    have havail := ubs₄.avail_le_total t.sellerId t.quoteAsset
    omega
  replace m₅ := m₄.trans m₅
  refine .modify (Moves.emitEvent ⟨fun u a => ?_, fun a => ?_, m₅.accounts⟩ _)
  · have := m₅.frozen u a
    simp only [Pi.add_apply, Pi.zero_apply, Settlement.release, posting_add] at this ⊢
    omega
  · have := m₅.total a
    simp only [Pi.add_apply, Pi.zero_apply] at this ⊢
    omega

/-- The refund as an effect, if it is made. -/
lemma refundBuyer_ensures {ubs : UBSCore} {t : Settlement} :
    (refundBuyer t).Ensures ubs (fun _ ubs' =>
      Moves ubs ubs' (posting t.buyerId t.quoteAsset t.buyerRefund.toNat) 0 0 0) := by
  unfold refundBuyer
  split
  · intro _ ubs' hrun
    have hm := onBalance_ensures t.buyerRefund.toNat 0 0 0 (fun b b' hop => ?_) _ _ hrun
    · simpa using hm
    · obtain ⟨havail, hfrozen⟩ := Balance.unlock_eq_ok hop
      omega
  · rename_i hzero
    have hnone : t.buyerRefund.toNat = 0 := by
      have := mt (Word.pos_iff t.buyerRefund).mpr hzero
      omega
    rw [hnone, posting_zero]
    exact .pure (Moves.refl ubs)

/-- **A trade that has been settled** has moved funds without creating or destroying any. -/
lemma settleTrade_ensures (t : Settlement) (ubs : UBSCore) :
    (settleTrade t).Ensures ubs (fun _ ubs' => Moves ubs ubs' t.release 0 0 0) := by
  have hspend : ∀ (amount : UInt64) (b b' : Balance), Balance.spendFrozen amount b = (.ok (), b') →
      b'.frozen.toNat + amount.toNat = b.frozen.toNat + 0 ∧
        b'.avail.toNat + b'.frozen.toNat + amount.toNat = b.avail.toNat + b.frozen.toNat + 0 := by
    intro amount b b' hop
    obtain ⟨havail, hfrozen⟩ := Balance.spendFrozen_eq_ok hop
    rw [havail]
    omega
  have hdeposit : ∀ (amount : UInt64) (b b' : Balance), Balance.deposit amount b = (.ok (), b') →
      b'.frozen.toNat + 0 = b.frozen.toNat + 0 ∧
        b'.avail.toNat + b'.frozen.toNat + 0 = b.avail.toNat + b.frozen.toNat + amount.toNat := by
    intro amount b b' hop
    obtain ⟨havail, hfrozen⟩ := Balance.deposit_eq_ok hop
    rw [hfrozen]
    omega
  unfold settleTrade
  refine (onBalance_ensures _ _ _ _ (hspend t.quoteAmt)).andThen (fun _ ubs₁ m₁ => ?_)
  refine (onBalance_ensures _ _ _ _ (hdeposit t.baseQty)).andThen (fun _ ubs₂ m₂ => ?_)
  refine refundBuyer_ensures.andThen (fun _ ubs₃ m₃ => ?_)
  refine (onBalance_ensures _ _ _ _ (hspend t.baseQty)).andThen (fun _ ubs₄ m₄ => ?_)
  refine (onBalance_ensures _ _ _ _ (hdeposit t.quoteAmt)).andThen (fun _ ubs₅ m₅ => ?_)
  have m := (((m₁.trans m₂).trans m₃).trans m₄).trans m₅
  refine .modify (Moves.emitEvent ⟨fun u a => ?_, fun a => ?_, m.accounts⟩ _)
  · have := m.frozen u a
    simp only [Pi.add_apply, Pi.zero_apply, Settlement.release, posting_add, posting_zero] at this ⊢
    omega
  · have := m.total a
    simp only [Pi.add_apply, Pi.zero_apply, assetPosting_zero] at this ⊢
    omega

/-! ## Locking and unlocking -/

section Locking

variable {ubs : UBSCore} {u : UInt64} {a : UInt32} {amount orderId : UInt64}

lemma availOf_succeeds (hu : u ∈ ubs.accounts.keys) :
    (availOf u a).Succeeds ubs (fun _ ubs' => ubs' = ubs) := by
  obtain ⟨account, hacc⟩ := exists_account hu
  exact ⟨(account.balanceMut a).avail, ubs, by simp only [availOf, hacc], rfl⟩

lemma unlockFunds_moves (hu : u ∈ ubs.accounts.keys) (h : amount.toNat ≤ ubs.frozen u a)
    (htotal : ubs.total a < 2 ^ 64) :
    (unlockFunds u a amount orderId).Succeeds ubs
      (fun _ ubs' => Moves ubs ubs' (posting u a amount.toNat) 0 0 0) := by
  unfold unlockFunds
  refine (unlock_moves hu h htotal).andThen (fun _ ubs₁ m₁ => ?_)
  refine (availOf_succeeds (m₁.accounts hu)).andThen ?_
  rintro avail _ rfl
  exact .bind (.modify (.pure (m₁.emitEvent _)))

lemma unlockFunds_cases (hu : u ∈ ubs.accounts.keys) (htotal : ubs.total a < 2 ^ 64) :
    (unlockFunds u a amount orderId).Succeeds ubs
        (fun _ ubs' => Moves ubs ubs' (posting u a amount.toNat) 0 0 0) ∨
      ∃ e ubs', unlockFunds u a amount orderId ubs = (.error e, ubs') ∧
        Moves ubs ubs' 0 0 0 0 := by
  by_cases h : amount.toNat ≤ ubs.frozen u a
  · exact Or.inl (unlockFunds_moves hu h htotal)
  · right
    obtain ⟨account, hacc⟩ := exists_account hu
    rw [frozen_of_some hacc, ← UInt64.le_iff_toNat_le] at h
    have hop := Balance.unlock_refused (not_le.mp h)
    have hm := @onBalance_unchanged ubs u a account .insufficientFrozen (Balance.unlock amount) hacc
      (by rw [hop])
    refine ⟨.insufficientFrozen, _, ?_, hm⟩
    show Fallible.bind _ _ ubs = _
    simp only [Fallible.bind, onBalance, hacc, hop]
    rfl

lemma lockFunds_cases (hu : u ∈ ubs.accounts.keys) (htotal : ubs.total a < 2 ^ 64) :
    (lockFunds u a amount orderId).Succeeds ubs
        (fun _ ubs' => Moves ubs ubs' 0 (posting u a amount.toNat) 0 0) ∨
      ∃ e ubs', lockFunds u a amount orderId ubs = (.error e, ubs') ∧ Moves ubs ubs' 0 0 0 0 := by
  obtain ⟨account, hacc⟩ := exists_account hu
  by_cases h : amount ≤ (account.balanceMut a).avail
  · left
    unfold lockFunds
    refine (lock_moves hacc h htotal).andThen (fun _ ubs₁ m₁ => ?_)
    refine (availOf_succeeds (m₁.accounts hu)).andThen ?_
    rintro avail _ rfl
    exact .bind (.modify (.pure (m₁.emitEvent _)))
  · right
    have hop := Balance.lock_refused (not_le.mp h)
    have hm := @onBalance_unchanged ubs u a account .insufficientFunds (Balance.lock amount) hacc
      (by rw [hop])
    refine ⟨.insufficientFunds, _, ?_, hm⟩
    show Fallible.bind _ _ ubs = _
    simp only [Fallible.bind, onBalance, hacc, hop]
    rfl

end Locking

/-! ## Validating an order -/

section Validate

variable (order : InternalOrder) (clock : UInt64) {ubs : UBSCore}

/-- The dedup guard holds no funds. -/
lemma Moves.of_accounts {ubs ubs' : UBSCore} (haccounts : ubs'.accounts = ubs.accounts) :
    Moves ubs ubs' 0 0 0 0 := by
  have hfrozen : ∀ u a, ubs'.frozen u a = ubs.frozen u a := fun u a => by
    rw [UBSCore.frozen, haccounts, UBSCore.frozen]
  have htotal : ∀ a, ubs'.total a = ubs.total a := fun a => by
    rw [UBSCore.total, haccounts, UBSCore.total]
  exact ⟨hfrozen, htotal, by rw [haccounts]⟩

/-- **How `validate_order` ends**: rejected with the funds as they were, or accepted with the
order's exact cost frozen. -/
lemma validateOrder_cases (htotal : ∀ a, ubs.total a < 2 ^ 64) :
    (∃ e ubs', validateOrder order clock ubs = (.error e, ubs') ∧ Moves ubs ubs' 0 0 0 0) ∨
      ∃ assets ubs', validateOrder order clock ubs = (.ok (), ubs') ∧
        ubs.assetMap.get? order.symbolId = some assets ∧ order.userId ∈ ubs.accounts.keys ∧
        Moves ubs ubs' 0 (posting order.userId (order.lockAsset assets) order.cost) 0 0 := by
  by_cases hbusy : ubs.pendingQueue.length > HIGH_WATER_MARK
  · exact Or.inl ⟨.systemBusy, ubs, by simp only [validateOrder, if_pos hbusy], Moves.refl ubs⟩
  -- from here on the dedup guard has recorded the id, or has refused it
  obtain ⟨ubs₁, hubs₁⟩ : ∃ ubs₁, ubs₁ = { ubs with dedupGuard := (ubs.dedupGuard.checkAndRecord
    order.orderId (ubs.currentTime order clock)).2 } := ⟨_, rfl⟩
  have m₁ : Moves ubs ubs₁ 0 0 0 0 := by
    subst hubs₁
    exact .of_accounts rfl
  cases hdup : (ubs.dedupGuard.checkAndRecord order.orderId (ubs.currentTime order clock)).1 with
  | error e =>
      exact Or.inl ⟨e, ubs₁, by simp only [validateOrder, if_neg hbusy, hdup, ← hubs₁], m₁⟩
  | ok _ =>
      cases hacc : ubs.accounts.get? order.userId with
      | none =>
          exact Or.inl ⟨.accountNotFound, ubs₁,
            by simp only [validateOrder, if_neg hbusy, hdup, ← hubs₁, hacc], m₁⟩
      | some account =>
          by_cases hcost : order.calculateCost = 0xFFFFFFFFFFFFFFFF
          · exact Or.inl ⟨.orderCostOverflow, ubs₁,
              by simp only [validateOrder, if_neg hbusy, hdup, ← hubs₁, hacc, if_pos hcost], m₁⟩
          cases hassets : ubs.assetMap.get? order.symbolId with
          | none =>
              exact Or.inl ⟨.invalidSymbol, ubs₁, by
                simp only [validateOrder, if_neg hbusy, hdup, ← hubs₁, hacc, if_neg hcost, hassets],
                m₁⟩
          | some assets =>
              have hu : order.userId ∈ ubs.accounts.keys := by simp [hacc]
              have htotal₁ : ubs₁.total (order.lockAsset assets) < 2 ^ 64 := by
                have h₁ := m₁.total (order.lockAsset assets)
                have h₂ := htotal (order.lockAsset assets)
                simp only [Pi.zero_apply] at h₁
                omega
              have hlock := @lockFunds_cases ubs₁ order.userId (order.lockAsset assets)
                order.calculateCost order.orderId (m₁.accounts hu) htotal₁
              rcases hlock with ⟨avail, ubs₂, hlock, m₂⟩ | ⟨e, ubs₂, hlock, m₂⟩
              · rw [InternalOrder.toNat_calculateCost hcost] at m₂
                refine Or.inr ⟨assets, ubs₂, ?_, rfl, hu, by simpa using m₁.trans m₂⟩
                simp only [validateOrder, if_neg hbusy, hdup, ← hubs₁, hacc, if_neg hcost, hassets,
                  hlock]
              · refine Or.inl ⟨e, ubs₂, ?_, by simpa using m₁.trans m₂⟩
                simp only [validateOrder, if_neg hbusy, hdup, ← hubs₁, hacc, if_neg hcost, hassets,
                  hlock]

end Validate

/-! ## Deposits and withdrawals -/

section Transfers

variable {ubs : UBSCore} {u : UInt64} {a : UInt32} {amount txId : UInt64}

/-- A new account is empty. -/
lemma ensureAccount_moves (u : UInt64) (ubs : UBSCore) :
    Moves ubs (ensureAccount u ubs) 0 0 0 0 ∧ u ∈ (ensureAccount u ubs).accounts.keys := by
  unfold ensureAccount
  split
  · rename_i h
    exact ⟨Moves.refl ubs, (HashMap.mem_keys _ _).mpr h⟩
  · rename_i h
    have hnone : ubs.accounts.get? u = none := by simpa using h
    have hm : Moves ubs { ubs with accounts := ubs.accounts.insert u (UserAccount.new u) }
        0 0 0 0 := by
      refine ⟨fun u' a' => ?_, fun a' => ?_, ?_⟩
      · simp only [frozen, HashMap.get?_insert]
        split
        · rename_i heq
          rw [heq, hnone]
          rfl
        · rfl
      · have hsum := ubs.accounts.sum_insert u (UserAccount.new u) (funds a')
        rw [hnone] at hsum
        exact hsum
      · rw [HashMap.keys_insert]
        exact Finset.subset_insert _ _
    refine ⟨hm.emitEvent _, ?_⟩
    show u ∈ (ubs.accounts.insert u (UserAccount.new u)).keys
    rw [HashMap.keys_insert]
    exact Finset.mem_insert_self _ _

/-- A new account has nothing available. -/
lemma avail_ensureAccount (u : UInt64) (ubs : UBSCore) (v : UInt64) (a : UInt32) :
    (ubs.ensureAccount u).avail v a = ubs.avail v a := by
  unfold ensureAccount
  split
  · rfl
  · rename_i h
    have hnone : ubs.accounts.get? u = none := by simpa using h
    simp only [avail, emitEvent, HashMap.get?_insert]
    split
    · rename_i hv
      rw [hv, hnone]
      rfl
    · rfl

/-- What is left of a deposit after the debts arrives in full. -/
lemma onDeposit_moves
    (h : ubs.avail u a + (ubs.debtLedger.payDebt u a amount).1.toNat < 2 ^ 64) :
    Moves ubs (onDeposit u a amount txId ubs) 0 0 0
      (assetPosting a (ubs.debtLedger.payDebt u a amount).1.toNat) := by
  simp only [onDeposit]
  generalize ubs.debtLedger.payDebt u a amount = paid at h ⊢
  have m₀ : Moves ubs { ubs with debtLedger := paid.2 } 0 0 0 0 := .of_accounts rfl
  split
  · obtain ⟨m₁, hu⟩ := ensureAccount_moves u { ubs with debtLedger := paid.2 }
    replace m₁ := m₀.trans m₁
    have havail : (ensureAccount u { ubs with debtLedger := paid.2 }).avail u a = ubs.avail u a :=
      avail_ensureAccount u _ u a
    obtain ⟨_, ubs₂, hok, m₂⟩ := @deposit_moves (ensureAccount u { ubs with debtLedger := paid.2 })
      u a paid.1 .balanceOverflow hu (by rwa [havail])
    rw [hok]
    have m₁₂ := m₁.trans m₂
    simp only [zero_add] at m₁₂
    exact m₁₂.emitEvent _
  · rename_i hzero
    have hnone : paid.1.toNat = 0 := by
      have := mt (Word.pos_iff paid.1).mpr hzero
      omega
    rw [hnone, assetPosting_zero]
    exact m₀

/-- A withdrawal takes its amount out and is answered true, or changes nothing and is answered
false. -/
lemma onWithdraw_cases (u : UInt64) (a : UInt32) (amount txId : UInt64) (ubs : UBSCore) :
    ((onWithdraw u a amount txId ubs).1 = true ∧
        Moves ubs (onWithdraw u a amount txId ubs).2 0 0 (assetPosting a amount.toNat) 0) ∨
      ((onWithdraw u a amount txId ubs).1 = false ∧
        Moves ubs (onWithdraw u a amount txId ubs).2 0 0 0 0) := by
  cases hacc : ubs.accounts.get? u with
  | none =>
      right
      simp only [onWithdraw, onBalance, hacc]
      exact ⟨trivial, Moves.refl ubs⟩
  | some account =>
      by_cases h : amount ≤ (account.balanceMut a).avail
      · left
        obtain ⟨_, ubs', hok, hm⟩ :=
          @withdraw_moves ubs u a account amount .insufficientFunds hacc h
        simp only [onWithdraw, hok]
        exact ⟨trivial, hm.emitEvent _⟩
      · right
        have hop := Balance.withdraw_refused (not_le.mp h)
        have hm := @onBalance_unchanged ubs u a account .insufficientFunds (Balance.withdraw amount)
          hacc (by rw [hop])
        have herr : (onBalance u a (Balance.withdraw amount) .insufficientFunds ubs).1 =
            .error .insufficientFunds := by
          simp only [onBalance, hacc, hop]
          rfl
        rw [onWithdraw]
        split
        · rename_i heq
          rw [heq] at herr
          cases herr
        · rename_i heq
          rw [heq] at hm
          exact ⟨rfl, hm⟩

lemma onWithdraw_moves (u : UInt64) (a : UInt32) (amount txId : UInt64) (ubs : UBSCore) :
    ∃ spend, Moves ubs (onWithdraw u a amount txId ubs).2 0 0 spend 0 := by
  rcases onWithdraw_cases u a amount txId ubs with ⟨-, hm⟩ | ⟨-, hm⟩
  · exact ⟨_, hm⟩
  · exact ⟨_, hm⟩

end Transfers

/-! ## What the balance operations leave alone -/

/-- The symbol table and the debts. -/
def tables (ubs : UBSCore) : HashMap UInt32 (UInt32 × UInt32) × DebtLedger :=
  (ubs.assetMap, ubs.debtLedger)

/-- What `f` observes is neither an account nor an event. -/
def Beside {τ : Type} (f : UBSCore → τ) : Prop :=
  ∀ ubs accounts events, f { ubs with accounts := accounts, eventTx := events } = f ubs

lemma beside_tables : Beside tables := fun _ _ _ => rfl

section Beside

variable {τ : Type} {f : UBSCore → τ} (hf : Beside f)

include hf

lemma Beside.emitEvent (event : BalanceEvent) (ubs : UBSCore) : f (ubs.emitEvent event) = f ubs :=
  hf ubs ubs.accounts _

lemma onBalance_keeps (u : UInt64) (a : UInt32) (op : Balance → Except String Unit × Balance)
    (reject : RejectReason) : Fallible.Keeps f (onBalance u a op reject) := by
  intro ubs
  unfold onBalance
  split
  · rfl
  · exact hf ubs _ ubs.eventTx

omit hf in
lemma availOf_keeps (u : UInt64) (a : UInt32) : Fallible.Keeps f (availOf u a) := by
  intro ubs
  unfold availOf
  split <;> rfl

lemma lockFunds_keeps (u : UInt64) (a : UInt32) (amount orderId : UInt64) :
    Fallible.Keeps f (lockFunds u a amount orderId) :=
  .bind (onBalance_keeps hf _ _ _ _) (fun _ => .bind (availOf_keeps _ _) (fun _ =>
    .bind (.modify (hf.emitEvent _)) (fun _ => .pure _)))

lemma unlockFunds_keeps (u : UInt64) (a : UInt32) (amount orderId : UInt64) :
    Fallible.Keeps f (unlockFunds u a amount orderId) :=
  .bind (onBalance_keeps hf _ _ _ _) (fun _ => .bind (availOf_keeps _ _) (fun _ =>
    .bind (.modify (hf.emitEvent _)) (fun _ => .pure _)))

lemma settleTrade_keeps (t : Settlement) : Fallible.Keeps f (settleTrade t) := by
  have hrefund : Fallible.Keeps f (refundBuyer t) := by
    unfold refundBuyer
    split
    · exact onBalance_keeps hf _ _ _ _
    · exact .pure _
  exact .bind (onBalance_keeps hf _ _ _ _) (fun _ => .bind (onBalance_keeps hf _ _ _ _) (fun _ =>
    .bind hrefund (fun _ => .bind (onBalance_keeps hf _ _ _ _) (fun _ =>
      .bind (onBalance_keeps hf _ _ _ _) (fun _ => .modify (hf.emitEvent _))))))

lemma onDeposit_keeps (u : UInt64) (a : UInt32) (amount txId : UInt64) (ubs : UBSCore) :
    f (onDeposit u a amount txId ubs) =
      f { ubs with debtLedger := (ubs.debtLedger.payDebt u a amount).2 } := by
  have haccount : ∀ ubs, f (ensureAccount u ubs) = f ubs := by
    intro ubs
    unfold ensureAccount
    split
    · rfl
    · exact hf ubs _ _
  simp only [onDeposit]
  split
  · rw [hf.emitEvent]
    exact (onBalance_keeps hf _ _ _ _ _).trans (haccount _)
  · rfl

lemma onWithdraw_keeps (u : UInt64) (a : UInt32) (amount txId : UInt64) (ubs : UBSCore) :
    f (onWithdraw u a amount txId ubs).2 = f ubs := by
  have hkeeps := onBalance_keeps hf u a (Balance.withdraw amount) .insufficientFunds ubs
  unfold onWithdraw
  split
  · rename_i heq
    rw [heq] at hkeeps
    exact (hf.emitEvent _ _).trans hkeeps
  · rename_i heq
    rw [heq] at hkeeps
    exact hkeeps

end Beside

lemma validateOrder_keeps (order : InternalOrder) (clock : UInt64) :
    Fallible.Keeps tables (validateOrder order clock) := by
  intro ubs
  unfold validateOrder
  split
  · rfl
  simp only
  split
  · rfl
  split
  · rfl
  split
  · rfl
  split
  · rfl
  rename_i assets _
  have hlock :=
    lockFunds_keeps beside_tables order.userId (order.lockAsset assets) order.calculateCost
      order.orderId { ubs with dedupGuard := (ubs.dedupGuard.checkAndRecord order.orderId
        (ubs.currentTime order clock)).2 }
  split <;> rename_i heq <;> rw [heq] at hlock <;> exact hlock

end UBSCore

end ExchangeCore
