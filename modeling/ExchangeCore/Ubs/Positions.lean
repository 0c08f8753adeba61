import ExchangeCore.Ubs.Locks

/-!
# Positions

What a call does to the available and to the frozen amount of every user, and which event it emits.
`Shifts` refines `Moves`: it keeps the two amounts of a user apart, where `Moves` has the frozen
amounts and the total of an asset.  It is stated for calls that have succeeded; when they do is
what the lemmas about `Moves` say.
-/

namespace ExchangeCore

namespace UBSCore

/-- **The effect on every position**: `debit` and `credit` are posted out of and into the available
amounts, `release` and `hold` out of and into the frozen amounts. -/
structure Shifts (ubs ubs' : UBSCore) (debit credit release hold : UInt64 → UInt32 → ℕ) : Prop where
  avail : ∀ u a, ubs'.avail u a + debit u a = ubs.avail u a + credit u a
  frozen : ∀ u a, ubs'.frozen u a + release u a = ubs.frozen u a + hold u a

section Positions

variable {ubs ubs' ubs'' : UBSCore} {u : UInt64} {a : UInt32} {amount orderId : UInt64}
  {reject : RejectReason}

lemma Shifts.refl (ubs : UBSCore) : Shifts ubs ubs 0 0 0 0 := ⟨fun _ _ => rfl, fun _ _ => rfl⟩

lemma Shifts.trans {d₁ c₁ r₁ h₁ d₂ c₂ r₂ h₂ : UInt64 → UInt32 → ℕ}
    (s₁ : Shifts ubs ubs' d₁ c₁ r₁ h₁) (s₂ : Shifts ubs' ubs'' d₂ c₂ r₂ h₂) :
    Shifts ubs ubs'' (d₁ + d₂) (c₁ + c₂) (r₁ + r₂) (h₁ + h₂) := by
  constructor
  · intro u a
    have h₁ := s₁.avail u a
    have h₂ := s₂.avail u a
    simp only [Pi.add_apply]
    omega
  · intro u a
    have h₁ := s₁.frozen u a
    have h₂ := s₂.frozen u a
    simp only [Pi.add_apply]
    omega

lemma Shifts.emitEvent {d c r h : UInt64 → UInt32 → ℕ} (s : Shifts ubs ubs' d c r h)
    (event : BalanceEvent) : Shifts ubs (ubs'.emitEvent event) d c r h := ⟨s.avail, s.frozen⟩

/-- One of the two amounts of every position, when that of one user in one asset has changed. -/
lemma position_update {holdings : UInt64 → Option (UInt32 → UInt64 × UInt64)}
    {h : UInt32 → UInt64 × UInt64} (hown : holdings u = some h) (amounts : UInt64 × UInt64)
    (part : UInt64 × UInt64 → UInt64) {out into : ℕ}
    (hpart : (part amounts).toNat + out = (part (h a)).toNat + into) (v : UInt64) (c : UInt32) :
    (Function.update holdings u (some (Function.update h a amounts)) v).elim 0
          (fun h => (part (h c)).toNat) + posting u a out v c =
      (holdings v).elim 0 (fun h => (part (h c)).toNat) + posting u a into v c := by
  by_cases hv : v = u
  · subst hv
    rw [Function.update_self, hown]
    by_cases hc : c = a
    · subst hc
      simpa [posting] using hpart
    · simp [posting, hc]
  · simp [posting, hv]

/-- An operation that has succeeded has changed the two amounts as it says. -/
lemma onBalance_shifts (debit credit release hold : ℕ)
    {op : Balance → Except String Unit × Balance}
    (hop : ∀ b b', op b = (.ok (), b') → b'.avail.toNat + debit = b.avail.toNat + credit ∧
      b'.frozen.toNat + release = b.frozen.toNat + hold) :
    (onBalance u a op reject).Ensures ubs (fun _ ubs' => Shifts ubs ubs'
      (posting u a debit) (posting u a credit) (posting u a release) (posting u a hold)) := by
  intro _ ubs' hrun
  have hstate : (onBalance u a op reject ubs).2 = ubs' := by rw [hrun]
  cases hacc : ubs.accounts.get? u with
  | none =>
      simp only [onBalance, hacc] at hrun
      exact absurd (congrArg Prod.fst hrun) (by simp)
  | some account =>
      obtain ⟨b', hb'⟩ : ∃ b', op (account.balanceMut a) = (.ok (), b') := by
        simp only [onBalance, hacc] at hrun
        rcases hr : op (account.balanceMut a) with ⟨r, b'⟩
        cases r with
        | ok _ => exact ⟨b', rfl⟩
        | error e =>
            rw [hr] at hrun
            exact absurd (congrArg Prod.fst hrun) (by simp [Except.mapError])
      obtain ⟨havail, hfrozen⟩ := hop _ _ hb'
      have hholdings := @holdings_onBalance ubs u a op reject account hacc
      have hown : ubs.userFunds.holdings u = some account.amounts := by simp [userFunds, hacc]
      rw [hstate, hb'] at hholdings
      constructor
      · intro v c
        rw [avail_eq_userFunds, avail_eq_userFunds, hholdings]
        exact position_update hown _ Prod.fst havail v c
      · intro v c
        rw [frozen_eq_userFunds, frozen_eq_userFunds, hholdings]
        exact position_update hown _ Prod.snd hfrozen v c

lemma spendFrozen_shifts (amount : UInt64) :
    (onBalance u a (Balance.spendFrozen amount) reject).Ensures ubs
      (fun _ ubs' => Shifts ubs ubs' 0 0 (posting u a amount.toNat) 0) := by
  have h := @onBalance_shifts ubs u a reject 0 0 amount.toNat 0 (Balance.spendFrozen amount)
    (fun b b' hop => ?_)
  · simpa only [posting_zero] using h
  · obtain ⟨havail, hfrozen⟩ := Balance.spendFrozen_eq_ok hop
    rw [havail]
    exact ⟨rfl, hfrozen⟩

lemma deposit_shifts (amount : UInt64) :
    (onBalance u a (Balance.deposit amount) reject).Ensures ubs
      (fun _ ubs' => Shifts ubs ubs' 0 (posting u a amount.toNat) 0 0) := by
  have h := @onBalance_shifts ubs u a reject 0 amount.toNat 0 0 (Balance.deposit amount)
    (fun b b' hop => ?_)
  · simpa only [posting_zero] using h
  · obtain ⟨havail, hfrozen⟩ := Balance.deposit_eq_ok hop
    rw [hfrozen]
    exact ⟨havail, rfl⟩

lemma lock_shifts (amount : UInt64) :
    (onBalance u a (Balance.lock amount) reject).Ensures ubs
      (fun _ ubs' =>
        Shifts ubs ubs' (posting u a amount.toNat) 0 0 (posting u a amount.toNat)) := by
  have h := @onBalance_shifts ubs u a reject amount.toNat 0 0 amount.toNat (Balance.lock amount)
    (fun b b' hop => ?_)
  · simpa only [posting_zero] using h
  · obtain ⟨havail, hfrozen⟩ := Balance.lock_eq_ok hop
    exact ⟨havail, hfrozen⟩

lemma unlock_shifts (amount : UInt64) :
    (onBalance u a (Balance.unlock amount) reject).Ensures ubs
      (fun _ ubs' =>
        Shifts ubs ubs' 0 (posting u a amount.toNat) (posting u a amount.toNat) 0) := by
  have h := @onBalance_shifts ubs u a reject 0 amount.toNat amount.toNat 0 (Balance.unlock amount)
    (fun b b' hop => ?_)
  · simpa only [posting_zero] using h
  · obtain ⟨havail, hfrozen⟩ := Balance.unlock_eq_ok hop
    exact ⟨havail, hfrozen⟩

/-! ## The three calls -/

/-- Reading a balance changes nothing. -/
lemma availOf_ensures : (availOf u a).Ensures ubs (fun _ ubs' => ubs' = ubs) := by
  intro avail ubs' hrun
  unfold availOf at hrun
  split at hrun
  · exact absurd (congrArg Prod.fst hrun) (by simp)
  · exact (Prod.mk.inj hrun).2.symm

/-- What a call does to the positions before it reads the balance and emits its event. -/
lemma shifts_andThen_emit {d c r h : UInt64 → UInt32 → ℕ} {m : Fallible UBSCore RejectReason Unit}
    (hm : m.Ensures ubs (fun _ ubs' => Shifts ubs ubs' d c r h)) (event : BalanceEvent) :
    Fallible.Ensures (do
      m
      let avail ← availOf u a
      Fallible.modify (emitEvent event)
      pure avail) ubs (fun _ ubs' => Shifts ubs ubs' d c r h) := by
  refine hm.andThen (fun _ ubs₁ hshift => ?_)
  refine availOf_ensures.andThen (fun avail ubs₂ hsame => ?_)
  rw [hsame]
  refine Fallible.Ensures.andThen (P := fun _ ubs₃ => ubs₃ = ubs₁.emitEvent event) (.modify rfl)
    (fun _ ubs₃ hemitted => ?_)
  rw [hemitted]
  exact .pure (hshift.emitEvent event)

lemma lockFunds_shifts : (lockFunds u a amount orderId).Ensures ubs
    (fun _ ubs' => Shifts ubs ubs' (posting u a amount.toNat) 0 0 (posting u a amount.toNat)) :=
  shifts_andThen_emit (lock_shifts amount) _

/-- What covers a lock leaves room for it, as long as there is less than `2 ^ 64` of the asset. -/
lemma fits_of_covers (htotal : ubs.total a < 2 ^ 64)
    (hcovers : ubs.userFunds.covers u a amount = true) :
    ubs.userFunds.fits u a amount = true := by
  obtain ⟨amounts, hamounts, hle⟩ := (Option.any_eq_true _ _).mp hcovers
  have hle := UInt64.le_iff_toNat_le.mp (of_decide_eq_true hle)
  obtain ⟨account, hacc, rfl⟩ := Option.map_eq_some_iff.mp hamounts
  have hfunds : ((account.amounts a).1.toNat + (account.amounts a).2.toNat) ≤ ubs.total a :=
    funds_le_total hacc
  refine (Option.any_eq_true _ _).mpr ⟨account.amounts, hamounts, decide_eq_true ?_⟩
  omega

/-- A lock that is refused changes no position, as long as the frozen amount cannot overflow. -/
lemma lockFunds_refused_shifts (htotal : ubs.total a < 2 ^ 64)
    (hrefused : (lockFunds u a amount orderId ubs).1.isOk = false) :
    Shifts ubs (lockFunds u a amount orderId ubs).2 0 0 0 0 := by
  obtain ⟨hok, hfunds⟩ := userFunds_lockFunds u a amount orderId ubs
  have hcovers : ubs.userFunds.covers u a amount = false := by
    by_contra hcov
    rw [Bool.not_eq_false] at hcov
    rw [hrefused, hcov, fits_of_covers htotal hcov] at hok
    exact Bool.false_ne_true hok
  have hsame : (lockFunds u a amount orderId ubs).2.userFunds = ubs.userFunds := by
    rw [hfunds, UserFunds.afterLock, hcovers]
    rfl
  constructor
  · intro v c
    rw [avail_eq_userFunds, avail_eq_userFunds, hsame]
  · intro v c
    rw [frozen_eq_userFunds, frozen_eq_userFunds, hsame]

/-- **A lock either succeeds or changes nothing**, as long as there is less than `2 ^ 64` of the
asset. -/
lemma lockFunds_outcome (u : UInt64) (amount orderId : UInt64) (htotal : ubs.total a < 2 ^ 64) :
    ((lockFunds u a amount orderId ubs).1.isOk = true ∧ u ∈ ubs.accounts.keys ∧
      Shifts ubs (lockFunds u a amount orderId ubs).2 (posting u a amount.toNat) 0 0
        (posting u a amount.toNat) ∧
      Moves ubs (lockFunds u a amount orderId ubs).2 0 (posting u a amount.toNat) 0 0) ∨
    ((lockFunds u a amount orderId ubs).1.isOk = false ∧
      Shifts ubs (lockFunds u a amount orderId ubs).2 0 0 0 0 ∧
      Moves ubs (lockFunds u a amount orderId ubs).2 0 0 0 0) := by
  cases hu : ubs.accounts.get? u with
  | none =>
      right
      rw [lockFunds_without_account hu]
      exact ⟨rfl, Shifts.refl ubs, Moves.refl ubs⟩
  | some account =>
      have hmem : u ∈ ubs.accounts.keys := by simp [hu]
      rcases @lockFunds_cases ubs u a amount orderId hmem htotal with
        ⟨avail, ubs', hrun, hm⟩ | ⟨e, ubs', hrun, hm⟩
      · left
        have hshift := lockFunds_shifts avail ubs' hrun
        rw [hrun]
        exact ⟨rfl, hmem, hshift, hm⟩
      · right
        have hrefused : (lockFunds u a amount orderId ubs).1.isOk = false := by
          rw [hrun]
          rfl
        refine ⟨hrefused, lockFunds_refused_shifts htotal hrefused, ?_⟩
        rwa [hrun]

lemma unlockFunds_shifts : (unlockFunds u a amount orderId).Ensures ubs
    (fun _ ubs' => Shifts ubs ubs' 0 (posting u a amount.toNat) (posting u a amount.toNat) 0) :=
  shifts_andThen_emit (unlock_shifts amount) _

lemma refundBuyer_shifts (t : Settlement) : (refundBuyer t).Ensures ubs (fun _ ubs' =>
    Shifts ubs ubs' 0 (posting t.buyerId t.quoteAsset t.buyerRefund.toNat)
      (posting t.buyerId t.quoteAsset t.buyerRefund.toNat) 0) := by
  unfold refundBuyer
  split
  · exact unlock_shifts t.buyerRefund
  · rename_i hzero
    have hnone : t.buyerRefund.toNat = 0 := by
      have := mt (Word.pos_iff t.buyerRefund).mpr hzero
      omega
    rw [hnone, posting_zero]
    exact .pure (Shifts.refl ubs)

/-- What settling a trade adds to available funds. -/
def Settlement.gain (t : Settlement) (u : UInt64) (a : UInt32) : ℕ :=
  posting t.buyerId t.baseAsset t.baseQty.toNat u a +
    posting t.buyerId t.quoteAsset t.buyerRefund.toNat u a +
    posting t.sellerId t.quoteAsset t.quoteAmt.toNat u a

/-- **A trade that has been settled**, position by position. -/
lemma settleTrade_shifts (t : Settlement) (ubs : UBSCore) :
    (settleTrade t).Ensures ubs (fun _ ubs' => Shifts ubs ubs' 0 t.gain t.release 0) := by
  unfold settleTrade
  refine (spendFrozen_shifts t.quoteAmt).andThen (fun _ ubs₁ s₁ => ?_)
  refine (deposit_shifts t.baseQty).andThen (fun _ ubs₂ s₂ => ?_)
  refine (refundBuyer_shifts t).andThen (fun _ ubs₃ s₃ => ?_)
  refine (spendFrozen_shifts t.baseQty).andThen (fun _ ubs₄ s₄ => ?_)
  refine (deposit_shifts t.quoteAmt).andThen (fun _ ubs₅ s₅ => ?_)
  have hall := (((s₁.trans s₂).trans s₃).trans s₄).trans s₅
  refine .modify (Shifts.emitEvent ⟨fun u a => ?_, fun u a => ?_⟩ _)
  · have := hall.avail u a
    simp only [Pi.add_apply, Pi.zero_apply, Settlement.gain] at this ⊢
    omega
  · have := hall.frozen u a
    simp only [Pi.add_apply, Pi.zero_apply, Settlement.release, posting_add] at this ⊢
    omega

/-! ## Events -/

/-- The call emits the event if it succeeds, and nothing if it fails. -/
def Emits {α : Type} (event : BalanceEvent) (m : Fallible UBSCore RejectReason α) : Prop :=
  ∀ ubs, (m ubs).2.eventTx =
    if (m ubs).1.isOk then ubs.eventTx.map (· ++ [event]) else ubs.eventTx

lemma Emits.after {α β : Type} {event : BalanceEvent} {m : Fallible UBSCore RejectReason α}
    {k : α → Fallible UBSCore RejectReason β} (hm : Fallible.Keeps eventTx m)
    (hk : ∀ x, Emits event (k x)) : Emits event (m >>= k) := by
  intro ubs
  have hkeeps := hm ubs
  show (Fallible.bind m k ubs).2.eventTx =
    if (Fallible.bind m k ubs).1.isOk then _ else _
  rw [Fallible.bind]
  generalize m ubs = p at hkeeps
  obtain ⟨r, ubs'⟩ := p
  cases r with
  | error e => exact hkeeps
  | ok x =>
      rw [← hkeeps]
      exact hk x ubs'

lemma emits_modify (event : BalanceEvent) :
    Emits event (Fallible.modify (emitEvent event) : Fallible UBSCore RejectReason Unit) :=
  fun _ => rfl

lemma emits_modify_pure {α : Type} (event : BalanceEvent) (x : α) :
    Emits event (do Fallible.modify (emitEvent event); pure x) := fun _ => rfl

lemma onBalance_eventTx (op : Balance → Except String Unit × Balance) :
    Fallible.Keeps eventTx (onBalance u a op reject) := by
  intro ubs
  unfold onBalance
  split
  · rfl
  · rfl

lemma lockFunds_emits (u : UInt64) (a : UInt32) (amount orderId : UInt64) :
    Emits (.fundsLocked orderId u a amount) (lockFunds u a amount orderId) := by
  unfold lockFunds
  apply Emits.after (onBalance_eventTx _)
  intro _
  apply Emits.after (availOf_keeps u a)
  intro avail
  exact emits_modify_pure _ avail

lemma unlockFunds_emits (u : UInt64) (a : UInt32) (amount orderId : UInt64) :
    Emits (.fundsUnlocked orderId .cancel) (unlockFunds u a amount orderId) := by
  unfold unlockFunds
  apply Emits.after (onBalance_eventTx _)
  intro _
  apply Emits.after (availOf_keeps u a)
  intro avail
  exact emits_modify_pure _ avail

lemma settleTrade_emits (t : Settlement) :
    Emits (.tradeSettled t.matchId t.buyerId t.sellerId t.baseAsset t.quoteAsset t.baseQty
      t.quoteAmt t.buyerFee t.sellerFee t.buyerOrderId t.sellerOrderId) (settleTrade t) := by
  have hrefund : Fallible.Keeps eventTx (refundBuyer t) := by
    unfold refundBuyer
    split
    · exact onBalance_eventTx _
    · exact .pure ()
  unfold settleTrade
  apply Emits.after (onBalance_eventTx _)
  intro _
  apply Emits.after (onBalance_eventTx _)
  intro _
  apply Emits.after hrefund
  intro _
  apply Emits.after (onBalance_eventTx _)
  intro _
  apply Emits.after (onBalance_eventTx _)
  intro _
  exact emits_modify _

end Positions

end UBSCore

end ExchangeCore
