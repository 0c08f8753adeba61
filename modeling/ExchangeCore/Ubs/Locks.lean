import ExchangeCore.Ubs.Conservation

/-!
# Locking funds, on the funds

What `lock_funds` and `validate_order` do to the funds of the users, for every state, also one in
which a balance is about to overflow.  `Balance::lock` has taken the amount out of the available
funds by the time it finds that the frozen funds would overflow, so the outcome is one of three: the
lock, nothing, or the loss of the amount (`UserFunds.afterLock`).

`lockRequest` are the checks of `validate_order` up to the lock: what an order that passes them
locks.
-/

namespace ExchangeCore

namespace UserFunds

variable (f : UserFunds) (u : UInt64) (a : UInt32) (amount : UInt64)

/-- The frozen amount has room for a lock. -/
def fits : Bool := (f.holdings u).any (fun h => (h a).2.toNat + amount.toNat < 2 ^ 64)

/-- A lock that is covered and fits. -/
def lock : UserFunds :=
  { f with
    holdings := Function.update f.holdings u ((f.holdings u).map (fun h =>
      Function.update h a ((h a).1 - amount, (h a).2 + amount))) }

/-- The funds after an attempt to lock: a lock that is covered but does not fit has taken the amount
out of the available funds. -/
def afterLock : UserFunds :=
  if f.covers u a amount then
    if f.fits u a amount then f.lock u a amount else f.debit u a amount
  else f

/-- A lock of nothing changes nothing. -/
lemma lock_zero : f.lock u a 0 = f := by
  apply UserFunds.ext
  · simp only [lock, UInt64.sub_zero, UInt64.add_zero, Prod.mk.eta, Function.update_eq_self,
      Option.map_id']
  · rfl

/-- A lock of something is seen in the funds. -/
lemma lock_eq_self_iff (hcov : f.covers u a amount = true) :
    f.lock u a amount = f ↔ amount = 0 := by
  constructor
  · intro heq
    obtain ⟨h, hh⟩ : ∃ h, f.holdings u = some h := by
      cases hh : f.holdings u with
      | none => simp [covers, hh] at hcov
      | some h => exact ⟨h, rfl⟩
    have hle : amount ≤ (h a).1 := by simpa [covers, hh] using hcov
    have hu := congrFun (congrArg UserFunds.holdings heq) u
    simp only [lock, hh, Function.update_self, Option.map_some, Option.some.injEq] at hu
    have ha := congrArg Prod.fst (congrFun hu a)
    rw [Function.update_self] at ha
    have hnat := congrArg UInt64.toNat ha
    rw [UInt64.toNat_sub_of_le _ _ hle] at hnat
    have hlen := UInt64.le_iff_toNat_le.mp hle
    apply UInt64.toNat_inj.mp
    rw [UInt64.toNat_zero]
    omega
  · rintro rfl
    exact f.lock_zero u a

lemma fits_zero (hcov : f.covers u a 0 = true) : f.fits u a 0 = true := by
  cases hh : f.holdings u with
  | none => simp [covers, hh] at hcov
  | some h =>
      have hlt := (h a).2.toNat_lt
      simpa [fits, hh] using hlt

end UserFunds

namespace UBSCore

variable {ubs : UBSCore} {u : UInt64} {a : UInt32} {amount orderId : UInt64}

lemma holdings_of_some {account : UserAccount} (hacc : ubs.accounts.get? u = some account) :
    ubs.userFunds.holdings u = some account.amounts := by
  simp [userFunds, hacc]

lemma lock_amounts (amount : UInt64) (b : Balance) :
    ((Balance.lock amount b).1.isOk =
        (decide (amount ≤ b.avail) && decide (b.frozen.toNat + amount.toNat < 2 ^ 64))) ∧
      ((Balance.lock amount b).2.avail, (Balance.lock amount b).2.frozen) =
        if amount ≤ b.avail then
          if b.frozen.toNat + amount.toNat < 2 ^ 64 then (b.avail - amount, b.frozen + amount)
          else (b.avail - amount, b.frozen)
        else (b.avail, b.frozen) := by
  rcases Balance.lock_cases amount b with ⟨hlt, heq⟩ | ⟨hle, hover, heq⟩ | ⟨hle, hfits, heq⟩
  · rw [heq, if_neg (not_le.mpr hlt), decide_eq_false (not_le.mpr hlt)]
    exact ⟨rfl, rfl⟩
  · rw [heq, if_pos hle, if_neg (not_lt.mpr hover), decide_eq_true hle,
      decide_eq_false (not_lt.mpr hover)]
    exact ⟨rfl, rfl⟩
  · rw [heq, if_pos hle, if_pos hfits, decide_eq_true hle, decide_eq_true hfits]
    exact ⟨rfl, rfl⟩

lemma userFunds_lock (reject : RejectReason) :
    ((onBalance u a (Balance.lock amount) reject ubs).1.isOk =
        (ubs.userFunds.covers u a amount && ubs.userFunds.fits u a amount)) ∧
      (onBalance u a (Balance.lock amount) reject ubs).2.userFunds =
        ubs.userFunds.afterLock u a amount := by
  cases hacc : ubs.accounts.get? u with
  | none =>
      simp [onBalance, hacc, UserFunds.afterLock, UserFunds.covers, userFunds, Except.isOk,
        Except.toBool]
  | some account =>
      have hown := holdings_of_some hacc
      obtain ⟨hok, hamounts⟩ := lock_amounts amount (account.balanceMut a)
      have hcov : ubs.userFunds.covers u a amount =
          decide (amount ≤ (account.balanceMut a).avail) := by
        rw [UserFunds.covers, hown]
        rfl
      have hfits : ubs.userFunds.fits u a amount =
          decide ((account.balanceMut a).frozen.toNat + amount.toNat < 2 ^ 64) := by
        rw [UserFunds.fits, hown]
        rfl
      refine ⟨?_, UserFunds.ext ?_ ?_⟩
      · rw [hcov, hfits, ← hok]
        simp only [onBalance, hacc]
        -- the answer of the account is the one of the lock
        cases (Balance.lock amount (account.balanceMut a)).1 <;> rfl
      · rw [holdings_onBalance _ _ hacc, hamounts, UserFunds.afterLock, hcov, hfits]
        simp only [decide_eq_true_eq]
        split
        · split
          · rw [UserFunds.lock, hown]
            rfl
          · -- covered, but the frozen amount overflows: `avail` has been reduced by then
            rw [UserFunds.debit, hown]
            rfl
        · have hsame : Function.update account.amounts a
              ((account.balanceMut a).avail, (account.balanceMut a).frozen) = account.amounts :=
            Function.update_eq_self a account.amounts
          rw [hsame, ← hown, Function.update_eq_self]
      · rw [debt_onBalance, UserFunds.afterLock]
        split
        · split <;> rfl
        · rfl

/-- **`lock_funds` on the funds**, and when it succeeds. -/
lemma userFunds_lockFunds (u : UInt64) (a : UInt32) (amount orderId : UInt64) (ubs : UBSCore) :
    ((lockFunds u a amount orderId ubs).1.isOk =
        (ubs.userFunds.covers u a amount && ubs.userFunds.fits u a amount)) ∧
      (lockFunds u a amount orderId ubs).2.userFunds = ubs.userFunds.afterLock u a amount := by
  obtain ⟨hok, hfunds⟩ := @userFunds_lock ubs u a amount
    .insufficientFunds
  rw [← hok, ← hfunds]
  show (Fallible.bind _ _ ubs).1.isOk = _ ∧ (Fallible.bind _ _ ubs).2.userFunds = _
  rw [Fallible.bind]
  rcases hrun : onBalance u a (Balance.lock amount) .insufficientFunds ubs with ⟨r, ubs'⟩
  cases r with
  | error e => exact ⟨rfl, rfl⟩
  | ok _ =>
      -- the account has been found, so reading it back succeeds
      have hmem : u ∈ ubs'.accounts.keys := by
        cases hacc : ubs.accounts.get? u with
        | none => simp [onBalance, hacc] at hrun
        | some account =>
            simp only [onBalance, hacc] at hrun
            obtain ⟨-, rfl⟩ := Prod.mk.inj hrun
            simp
      obtain ⟨account, hacc⟩ := exists_account hmem
      have havail : availOf u a ubs' = (.ok (account.balanceMut a).avail, ubs') := by
        simp only [availOf, hacc]
      show (Fallible.bind _ _ ubs').1.isOk = _ ∧ (Fallible.bind _ _ ubs').2.userFunds = _
      rw [Fallible.bind, havail]
      exact ⟨rfl, rfl⟩

/-! ## Validation -/

/-- The checks of `validate_order` up to the lock: the asset and the amount an order that passes
them is about to lock. -/
def lockRequest (order : InternalOrder) (clock : UInt64) (ubs : UBSCore) :
    Option (UInt32 × UInt64) :=
  if ubs.pendingQueue.length > HIGH_WATER_MARK then none
  else if (ubs.dedupGuard.checkAndRecord order.orderId (ubs.currentTime order clock)).1.isOk = false
    then none
  else if (ubs.accounts.get? order.userId).isNone then none
  else if order.calculateCost = 0xFFFFFFFFFFFFFFFF then none
  else (ubs.assetMap.get? order.symbolId).map (fun assets =>
    (order.lockAsset assets, order.calculateCost))

/-- The state in which the lock is made: the guard has recorded the order, unless the queue was
full. -/
def recorded (order : InternalOrder) (clock : UInt64) (ubs : UBSCore) : UBSCore :=
  if ubs.pendingQueue.length > HIGH_WATER_MARK then ubs
  else { ubs with dedupGuard :=
    (ubs.dedupGuard.checkAndRecord order.orderId (ubs.currentTime order clock)).2 }

/-- **`validate_order`** is its checks and then the lock. -/
lemma validateOrder_eq (order : InternalOrder) (clock : UInt64) (ubs : UBSCore) :
    match lockRequest order clock ubs with
    | none => ∃ e, validateOrder order clock ubs = (.error e, recorded order clock ubs)
    | some (a, cost) => validateOrder order clock ubs =
        ((lockFunds order.userId a cost order.orderId (recorded order clock ubs)).1.map
          (fun _ => ()),
          (lockFunds order.userId a cost order.orderId (recorded order clock ubs)).2) := by
  by_cases hbusy : ubs.pendingQueue.length > HIGH_WATER_MARK
  · simp only [lockRequest, recorded, validateOrder, if_pos hbusy]
    exact ⟨_, rfl⟩
  simp only [lockRequest, recorded, validateOrder, if_neg hbusy]
  generalize ubs.dedupGuard.checkAndRecord order.orderId (ubs.currentTime order clock) = checked
  rcases checked with ⟨r, guard⟩
  cases r with
  | error e => exact ⟨e, rfl⟩
  | ok _ =>
      simp only [Except.isOk, Except.toBool, Bool.true_eq_false, if_false]
      cases ubs.accounts.get? order.userId with
      | none => exact ⟨_, rfl⟩
      | some account =>
          simp only [Option.isNone_some, Bool.false_eq_true, if_false]
          by_cases hcost : order.calculateCost = 0xFFFFFFFFFFFFFFFF
          · simp only [if_pos hcost]
            exact ⟨_, rfl⟩
          simp only [if_neg hcost]
          cases ubs.assetMap.get? order.symbolId with
          | none => exact ⟨_, rfl⟩
          | some assets =>
              simp only [Option.map_some]
              generalize lockFunds order.userId (order.lockAsset assets) order.calculateCost
                order.orderId _ = locked
              rcases locked with ⟨r, ubs'⟩
              cases r <;> rfl

lemma userFunds_recorded (order : InternalOrder) (clock : UInt64) (ubs : UBSCore) :
    (recorded order clock ubs).userFunds = ubs.userFunds := by
  unfold recorded
  split <;> rfl

lemma validateOrder_of_none {order : InternalOrder} {clock : UInt64}
    (h : lockRequest order clock ubs = none) :
    (validateOrder order clock ubs).1.isOk = false ∧
      (validateOrder order clock ubs).2.userFunds = ubs.userFunds := by
  have heq := validateOrder_eq order clock ubs
  rw [h] at heq
  obtain ⟨e, heq⟩ := heq
  rw [heq]
  exact ⟨rfl, userFunds_recorded order clock ubs⟩

/-- An order that passes the checks is accepted if its lock succeeds. -/
lemma validateOrder_of_some {order : InternalOrder} {clock : UInt64} {cost : UInt64}
    (h : lockRequest order clock ubs = some (a, cost)) :
    ((validateOrder order clock ubs).1.isOk =
        (ubs.userFunds.covers order.userId a cost && ubs.userFunds.fits order.userId a cost)) ∧
      (validateOrder order clock ubs).2.userFunds =
        ubs.userFunds.afterLock order.userId a cost := by
  have heq := validateOrder_eq order clock ubs
  rw [h] at heq
  obtain ⟨hok, hfunds⟩ := userFunds_lockFunds order.userId a cost order.orderId
    (recorded order clock ubs)
  rw [userFunds_recorded] at hok hfunds
  rw [heq, ← hok, ← hfunds]
  refine ⟨?_, rfl⟩
  cases (lockFunds order.userId a cost order.orderId (recorded order clock ubs)).1 <;> rfl

end UBSCore

end ExchangeCore
