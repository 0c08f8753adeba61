import ExchangeCore.Framework.Drawdown
import ExchangeCore.Framework.HashMap
import ExchangeCore.Framework.Posting
import ExchangeCore.Ubs.Balance

/-!
# The balances of accounts as funds

A map of accounts, seen as funds: a cell is a user and an asset, what is available there is free and
what is frozen is held, and the cells of a user without an account are closed.  The three balance
operations that settle a trade (`spend_frozen`, `deposit`, `unlock`) are drawdowns of these funds
under the capacity of a word (`Balance.Draws`), also in how they fail, and so is storing the account
they leave (`funds_write`).  One side of a trade is three of them (`sideDrawdowns`).
-/

namespace ExchangeCore

namespace Balance

/-- The operation takes `draw` out of the frozen amount and adds `credit` to the available one, or
fails as a drawdown does. -/
structure Draws (op : Balance → Except String Unit × Balance) (draw credit : ℕ) : Prop where
  refused : ∀ b, b.frozen.toNat < draw → (op b).1.isOk = false ∧ (op b).2 = b
  overflow : ∀ b, draw ≤ b.frozen.toNat → 2 ^ 64 ≤ b.avail.toNat + credit →
    (op b).1.isOk = false ∧ (op b).2.avail = b.avail ∧
      (op b).2.frozen.toNat = b.frozen.toNat - draw
  moved : ∀ b, draw ≤ b.frozen.toNat → b.avail.toNat + credit < 2 ^ 64 →
    (op b).1.isOk = true ∧ (op b).2.avail.toNat = b.avail.toNat + credit ∧
      (op b).2.frozen.toNat = b.frozen.toNat - draw

lemma deposit_draws (amount : UInt64) : Draws (deposit amount) 0 amount.toNat where
  refused b h := absurd h (Nat.not_lt_zero _)
  overflow b _ h := by
    rcases deposit_cases amount b with ⟨-, heq⟩ | ⟨hfits, -⟩
    · rw [heq]
      exact ⟨rfl, rfl, rfl⟩
    · exact absurd hfits (not_lt.mpr h)
  moved b _ h := by
    obtain ⟨b', hop, havail, hfrozen⟩ := deposit_ok h
    rw [hop]
    exact ⟨rfl, havail, congrArg UInt64.toNat hfrozen⟩

lemma spendFrozen_draws (amount : UInt64) : Draws (spendFrozen amount) amount.toNat 0 where
  refused b h := by
    rcases spendFrozen_cases amount b with ⟨-, heq⟩ | ⟨hle, -⟩
    · rw [heq]
      exact ⟨rfl, rfl⟩
    · exact absurd h (not_lt.mpr (UInt64.le_iff_toNat_le.mp hle))
  overflow b _ h := absurd b.avail.toNat_lt (not_lt.mpr h)
  moved b h _ := by
    obtain ⟨b', hop, havail, hfrozen⟩ := spendFrozen_ok (UInt64.le_iff_toNat_le.mpr h)
    rw [hop]
    exact ⟨rfl, congrArg UInt64.toNat havail, Nat.eq_sub_of_add_eq hfrozen⟩

lemma unlock_draws (amount : UInt64) : Draws (unlock amount) amount.toNat amount.toNat where
  refused b h := by
    rw [unlock_refused (UInt64.lt_iff_toNat_lt.mpr h)]
    exact ⟨rfl, rfl⟩
  overflow b h hover := by
    rcases unlock_cases amount b with ⟨hlt, -⟩ | ⟨hle, -, heq⟩ | ⟨-, hfits, -⟩
    · exact absurd h (not_le.mpr (UInt64.lt_iff_toNat_lt.mp hlt))
    · rw [heq]
      exact ⟨rfl, rfl, Nat.eq_sub_of_add_eq (Word.toNat_sub_add hle)⟩
    · exact absurd hfits (not_lt.mpr hover)
  moved b h hfits := by
    obtain ⟨b', hop, havail, hfrozen⟩ := unlock_ok (UInt64.le_iff_toNat_le.mpr h) hfits
    rw [hop]
    exact ⟨rfl, havail, Nat.eq_sub_of_add_eq hfrozen⟩

end Balance

/-- The accounts, seen as funds. -/
def accountFunds (accounts : HashMap UInt64 UserAccount) : Funds (UInt64 × UInt32) where
  opened c := (accounts.get? c.1).isSome
  free c := (accounts.get? c.1).elim 0 (fun account => (account.balanceMut c.2).avail.toNat)
  held c := (accounts.get? c.1).elim 0 (fun account => (account.balanceMut c.2).frozen.toNat)

section Funds

variable {accounts : HashMap UInt64 UserAccount} {u : UInt64} {a : UInt32} {account : UserAccount}

/-- A word bounds what is available. -/
lemma accountFunds_free_lt (accounts : HashMap UInt64 UserAccount) (c : UInt64 × UInt32) :
    (accountFunds accounts).free c < 2 ^ 64 := by
  simp only [accountFunds]
  rcases accounts.get? c.1 with _ | account
  · exact Nat.two_pow_pos 64
  · exact UInt64.toNat_lt _

lemma accountFunds_opened (h : accounts.get? u = some account) :
    (accountFunds accounts).opened (u, a) = true := by
  simp only [accountFunds, h, Option.isSome_some]

lemma accountFunds_free (h : accounts.get? u = some account) :
    (accountFunds accounts).free (u, a) = (account.balanceMut a).avail.toNat := by
  simp only [accountFunds, h, Option.elim_some]

lemma accountFunds_held (h : accounts.get? u = some account) :
    (accountFunds accounts).held (u, a) = (account.balanceMut a).frozen.toNat := by
  simp only [accountFunds, h, Option.elim_some]

/-- Storing an account in which one balance was overwritten changes one cell. -/
lemma accountFunds_insert (h : accounts.get? u = some account) (b : Balance) :
    accountFunds (accounts.insert u (account.writeBalance a b)) =
      { opened := (accountFunds accounts).opened
        free := Function.update (accountFunds accounts).free (u, a) b.avail.toNat
        held := Function.update (accountFunds accounts).held (u, a) b.frozen.toNat } := by
  have hget : ∀ v, (accounts.insert u (account.writeBalance a b)).get? v =
      if v = u then some (account.writeBalance a b) else accounts.get? v := fun v =>
    HashMap.get?_insert _ _ _ _
  refine Funds.ext (funext fun c => ?_) (funext fun c => ?_) (funext fun c => ?_)
  all_goals
    obtain ⟨v, e⟩ := c
    simp only [accountFunds, hget, Function.update_apply, Prod.mk.injEq]
    by_cases hv : v = u
    · subst hv
      simp only [h, if_true, Option.isSome_some, Option.elim_some, true_and,
        UserAccount.balanceMut_writeBalance]
      try split <;> rfl
    · simp only [hv, if_false, false_and]

/-- An operation that draws down a balance draws down the funds. -/
lemma funds_write {op : Balance → Except String Unit × Balance} {draw credit : ℕ}
    (hop : Balance.Draws op draw credit) (h : accounts.get? u = some account) :
    (op (account.balanceMut a)).1.isOk =
        (Drawdown.attempt (2 ^ 64) ⟨(u, a), draw, credit⟩ (accountFunds accounts)).1.isOk ∧
      accountFunds (accounts.insert u
          (account.writeBalance a (op (account.balanceMut a)).2)) =
        (Drawdown.attempt (2 ^ 64) ⟨(u, a), draw, credit⟩ (accountFunds accounts)).2 := by
  have hopen := accountFunds_opened (a := a) h
  have hfree := accountFunds_free (a := a) h
  have hheld := accountFunds_held (a := a) h
  rw [accountFunds_insert h]
  by_cases hcovered : draw ≤ (account.balanceMut a).frozen.toNat
  · by_cases hfits : (account.balanceMut a).avail.toNat + credit < 2 ^ 64
    · obtain ⟨hok, havail, hfrozen⟩ := hop.moved _ hcovered hfits
      rw [Drawdown.attempt_of_fits hopen (by rwa [hheld]) (by rwa [hfree]), hok, havail, hfrozen]
      refine ⟨rfl, Funds.ext rfl ?_ ?_⟩
      · simp only [Drawdown.post, hfree]
      · simp only [Drawdown.post, Drawdown.take, hheld]
    · obtain ⟨hok, havail, hfrozen⟩ := hop.overflow _ hcovered (not_lt.mp hfits)
      rw [Drawdown.attempt_of_overflow hopen (by rwa [hheld])
        (by rw [hfree]; exact not_lt.mp hfits), hok, havail, hfrozen]
      refine ⟨rfl, Funds.ext rfl ?_ ?_⟩
      · rw [← hfree]
        exact Function.update_eq_self ..
      · simp only [Drawdown.take, hheld]
  · obtain ⟨hok, hsame⟩ := hop.refused _ (not_le.mp hcovered)
    rw [Drawdown.attempt_of_refused (.inr (by rw [hheld]; exact not_le.mp hcovered)), hok, hsame]
    refine ⟨rfl, Funds.ext rfl ?_ ?_⟩
    · rw [← hfree]
      exact Function.update_eq_self ..
    · rw [← hheld]
      exact Function.update_eq_self ..

/-- Without an account, nothing is drawn. -/
lemma attempt_of_none (h : accounts.get? u = none) (draw credit : ℕ) :
    Drawdown.attempt (2 ^ 64) ⟨(u, a), draw, credit⟩ (accountFunds accounts) =
      (.error (), accountFunds accounts) :=
  Drawdown.attempt_of_refused (.inl (by simp only [accountFunds, h, Option.isSome_none]))

lemma accountFunds_opened_iff (accounts : HashMap UInt64 UserAccount) (u : UInt64) (a : UInt32) :
    (accountFunds accounts).opened (u, a) = true ↔ u ∈ accounts.keys :=
  (HashMap.mem_keys _ _).symm

end Funds

/-! ## One side of a trade -/

open Drawdown

lemma ite_cell (u u₀ : UInt64) (a a₀ : UInt32) (n : ℕ) :
    (if (u, a) = (u₀, a₀) then n else 0) = posting u₀ a₀ n u a := by
  simp only [Prod.mk.injEq, posting]

section Side

variable (u : UInt64) (spendAssetId gainAssetId : UInt32) (spend gain refund : UInt64)

/-- The refund, if there is one. -/
def refundDrawdowns : List (Drawdown (UInt64 × UInt32)) :=
  if 0 < refund then [⟨(u, spendAssetId), refund.toNat, refund.toNat⟩] else []

/-- A user spends frozen funds of one asset, gains another, and takes back what was frozen in
excess. -/
def sideDrawdowns : List (Drawdown (UInt64 × UInt32)) :=
  ⟨(u, spendAssetId), spend.toNat, 0⟩ :: ⟨(u, gainAssetId), 0, gain.toNat⟩ ::
    refundDrawdowns u spendAssetId refund

lemma refundDrawdowns_cases :
    refundDrawdowns u spendAssetId refund =
          [⟨(u, spendAssetId), refund.toNat, refund.toNat⟩] ∧ 0 < refund.toNat ∨
      refundDrawdowns u spendAssetId refund = [] ∧ refund.toNat = 0 := by
  have hpos := Word.pos_iff refund
  unfold refundDrawdowns
  split
  · rename_i h
    exact .inl ⟨rfl, hpos.mp h⟩
  · rename_i h
    exact .inr ⟨rfl, Nat.eq_zero_of_not_pos (mt hpos.mpr h)⟩

lemma drawn_sideDrawdowns (v : UInt64) (a : UInt32) :
    drawn (sideDrawdowns u spendAssetId gainAssetId spend gain refund) (v, a) =
      posting u spendAssetId (spend.toNat + refund.toNat) v a := by
  rw [posting_add]
  rcases refundDrawdowns_cases u spendAssetId refund with ⟨h, -⟩ | ⟨h, hzero⟩
  · simp only [sideDrawdowns, h, drawn, ite_cell, ite_self, Nat.add_zero, Nat.zero_add]
  · simp only [sideDrawdowns, h, hzero, drawn, ite_cell, ite_self, posting_zero, Pi.zero_apply,
      Nat.add_zero]

lemma credited_sideDrawdowns (v : UInt64) (a : UInt32) :
    credited (sideDrawdowns u spendAssetId gainAssetId spend gain refund) (v, a) =
      posting u gainAssetId gain.toNat v a + posting u spendAssetId refund.toNat v a := by
  rcases refundDrawdowns_cases u spendAssetId refund with ⟨h, -⟩ | ⟨h, hzero⟩
  · simp only [sideDrawdowns, h, credited, ite_cell, ite_self, Nat.add_zero, Nat.zero_add]
  · simp only [sideDrawdowns, h, hzero, credited, ite_cell, ite_self, posting_zero, Pi.zero_apply,
      Nat.add_zero, Nat.zero_add]

lemma cell_of_mem_sideDrawdowns {d : Drawdown (UInt64 × UInt32)}
    (hd : d ∈ sideDrawdowns u spendAssetId gainAssetId spend gain refund) : d.cell.1 = u := by
  rw [sideDrawdowns, List.mem_cons, List.mem_cons] at hd
  rcases hd with rfl | rfl | hd
  · rfl
  · rfl
  · rcases refundDrawdowns_cases u spendAssetId refund with ⟨h, -⟩ | ⟨h, -⟩
    · rw [h] at hd
      rw [List.mem_singleton.mp hd]
    · rw [h] at hd
      exact absurd hd (List.not_mem_nil)

end Side

section Covers

variable {accounts : HashMap UInt64 UserAccount} {buyer seller : UInt64} {base quote : UInt32}
  {quoteAmt baseQty buyerRefund sellerRefund : UInt64}

/-- Both sides of a trade are covered iff both users have accounts, have frozen what the two sides
take together, and have room for what they bring. -/
lemma covers_sides_iff :
    Covers (2 ^ 64) (accountFunds accounts)
        (sideDrawdowns buyer quote base quoteAmt baseQty buyerRefund ++
          sideDrawdowns seller base quote baseQty quoteAmt sellerRefund) ↔
      (buyer ∈ accounts.keys ∧ seller ∈ accounts.keys) ∧
      (∀ u a, posting buyer quote (quoteAmt.toNat + buyerRefund.toNat) u a +
          posting seller base (baseQty.toNat + sellerRefund.toNat) u a ≤
        (accountFunds accounts).held (u, a)) ∧
      ∀ u a, (accountFunds accounts).free (u, a) +
          (posting buyer base baseQty.toNat u a + posting buyer quote buyerRefund.toNat u a +
            (posting seller quote quoteAmt.toNat u a +
              posting seller base sellerRefund.toNat u a)) <
        2 ^ 64 := by
  constructor
  · intro h
    refine ⟨⟨?_, ?_⟩, fun u a => ?_, fun u a => ?_⟩
    · rw [← accountFunds_opened_iff accounts buyer quote]
      exact h.opened ⟨(buyer, quote), _, _⟩ (List.mem_append_left _ List.mem_cons_self)
    · rw [← accountFunds_opened_iff accounts seller base]
      exact h.opened ⟨(seller, base), _, _⟩ (List.mem_append_right _ List.mem_cons_self)
    · have := h.held (u, a)
      rwa [drawn_append, drawn_sideDrawdowns, drawn_sideDrawdowns] at this
    · have := h.fits (u, a)
      rwa [credited_append, credited_sideDrawdowns, credited_sideDrawdowns] at this
  · rintro ⟨⟨hbuyer, hseller⟩, hheld, hfree⟩
    refine ⟨fun d hd => ?_, fun c => ?_, fun c => ?_⟩
    · have hcell : d.cell.1 ∈ accounts.keys := by
        rcases List.mem_append.mp hd with hd | hd
        · rwa [cell_of_mem_sideDrawdowns _ _ _ _ _ _ hd]
        · rwa [cell_of_mem_sideDrawdowns _ _ _ _ _ _ hd]
      exact (accountFunds_opened_iff accounts d.cell.1 d.cell.2).mpr hcell
    · rw [drawn_append, ← Prod.mk.eta (p := c), drawn_sideDrawdowns, drawn_sideDrawdowns]
      exact hheld c.1 c.2
    · rw [credited_append, ← Prod.mk.eta (p := c), credited_sideDrawdowns, credited_sideDrawdowns]
      exact hfree c.1 c.2

end Covers

end ExchangeCore
