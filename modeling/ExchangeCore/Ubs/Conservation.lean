import ExchangeCore.Framework.Machine
import ExchangeCore.Ubs.Debts

/-!
# Conservation of funds

Money sits in three places of UBSCore: available, frozen and, negatively, in the debts.  Over every
run of the operations that move it, what there is of an asset less what is owed in it is what came
in less what went out.

The operations ignore some of their results, an overflow in particular.  The argument is therefore a
bound carried along with the equation: what there is and what is owed together never exceed the
volume of the run (`Accounted.gross`), so with less than `2 ^ 63` of an asset coming in, no
operation on it overflows.  A lock, an unlock or a trade brings nothing in, which is why only the
deposits and the balance changes count.
-/

namespace ExchangeCore

namespace UBSCore

/-- The operations that move funds. -/
inductive FundsOp
  | deposit (userId : UInt64) (assetId : UInt32) (amount txId : UInt64)
  | withdraw (userId : UInt64) (assetId : UInt32) (amount txId : UInt64)
  | lock (userId : UInt64) (assetId : UInt32) (amount orderId : UInt64)
  | unlock (userId : UInt64) (assetId : UInt32) (amount orderId : UInt64)
  | settle (t : Settlement)
  | balanceDelta (userId : UInt64) (assetId : UInt32) (delta : Int64) (eventType : EventType)

namespace FundsOp

/-- The operation on UBSCore, and whether it succeeded. -/
def apply (ubs : UBSCore) : FundsOp → UBSCore × Bool
  | .deposit userId assetId amount txId => (onDeposit userId assetId amount txId ubs, true)
  | .withdraw userId assetId amount txId =>
      let r := onWithdraw userId assetId amount txId ubs
      (r.2, r.1)
  | .lock userId assetId amount orderId =>
      let r := lockFunds userId assetId amount orderId ubs
      (r.2, r.1.isOk)
  | .unlock userId assetId amount orderId =>
      let r := unlockFunds userId assetId amount orderId ubs
      (r.2, r.1.isOk)
  | .settle t =>
      let r := settleTrade t ubs
      (r.2, r.1.isOk)
  | .balanceDelta userId assetId delta eventType =>
      ((applyBalanceDelta userId assetId delta eventType ubs).2, true)

/-- What an operation brings into an asset, given whether it succeeded. -/
def flow (ok : Bool) (a : UInt32) : FundsOp → ℤ
  | .deposit _ assetId amount _ => assetPosting assetId amount.toNat a
  | .withdraw _ assetId amount _ => if ok then -(assetPosting assetId amount.toNat a : ℤ) else 0
  | .balanceDelta _ assetId delta _ => if a = assetId then delta.toInt else 0
  | _ => 0

/-- What an operation can bring in at most. -/
def volume (a : UInt32) : FundsOp → ℕ
  | .deposit _ assetId amount _ => assetPosting assetId amount.toNat a
  | .balanceDelta _ assetId delta _ => assetPosting assetId delta.toInt.natAbs a
  | _ => 0

end FundsOp

/-- The operations as a machine, which answers whether the operation succeeded. -/
def fundsMachine : Machine UBSCore FundsOp Bool := ⟨FundsOp.apply⟩

/-- The sum of what a list of operations brought in. -/
def flows (a : UInt32) (ops : List FundsOp) (oks : List Bool) : ℤ :=
  (List.zipWith (fun op ok => FundsOp.flow ok a op) ops oks).sum

/-- The sum of what a list of operations can bring in. -/
def volumes (a : UInt32) (ops : List FundsOp) : ℕ := (ops.map (FundsOp.volume a)).sum

/-- A trade is settled. -/
def TradeSettles (ubs : UBSCore) (op : FundsOp) : Prop :=
  ∀ t, op = .settle t → (op.apply ubs).2 = true

/-- A deposit reduces the debt before any of it is credited. -/
def DebtFirst (ubs : UBSCore) (op : FundsOp) : Prop :=
  ∀ u a amount txId, op = .deposit u a amount txId →
    (op.apply ubs).1.debtLedger.debt u a = ubs.debtLedger.debt u a - amount.toNat ∧
      (op.apply ubs).1.avail u a = ubs.avail u a + (amount.toNat - ubs.debtLedger.debt u a)

/-- **What a step does to the books**: the difference between what there is and what is owed changes
by the flow, and the two together grow by the volume at most. -/
structure Accounted (ubs ubs' : UBSCore) (flow : UInt32 → ℤ) (volume : UInt32 → ℕ) : Prop where
  net : ∀ a, (ubs'.total a : ℤ) - ubs'.debtLedger.owed a =
    ubs.total a - ubs.debtLedger.owed a + flow a
  gross : ∀ a, ubs'.total a + ubs'.debtLedger.owed a ≤
    ubs.total a + ubs.debtLedger.owed a + volume a
  noZero : ubs.debtLedger.NoZero → ubs'.debtLedger.NoZero

section Steps

variable {ubs ubs' : UBSCore}

/-- Funds that move without debts. -/
lemma Accounted.ofMoves {r h : UInt64 → UInt32 → ℕ} {s g : UInt32 → ℕ} {flow : UInt32 → ℤ}
    {volume : UInt32 → ℕ} (hm : Moves ubs ubs' r h s g) (hledger : ubs'.debtLedger = ubs.debtLedger)
    (hflow : ∀ a, flow a = g a - s a) (hvolume : ∀ a, g a ≤ s a + volume a) :
    Accounted ubs ubs' flow volume where
  net a := by
    have := hm.total a
    have := hflow a
    rw [hledger]
    omega
  gross a := by
    have := hm.total a
    have := hvolume a
    rw [hledger]
    omega
  noZero hzero := by
    rw [hledger]
    exact hzero

lemma accounted_deposit (u : UInt64) (a : UInt32) (amount txId : UInt64)
    (h : ubs.avail u a + (amount.toNat - ubs.debtLedger.debt u a) < 2 ^ 64) :
    Accounted ubs (onDeposit u a amount txId ubs) (fun b => assetPosting a amount.toNat b)
      (assetPosting a amount.toNat) := by
  obtain ⟨hleft, -⟩ := ubs.debtLedger.payDebt_toNat u a amount
  have hm := @onDeposit_moves ubs u a amount txId (by rwa [hleft])
  have hledger : (onDeposit u a amount txId ubs).debtLedger =
      (ubs.debtLedger.payDebt u a amount).2 :=
    congrArg Prod.snd (onDeposit_keeps beside_tables u a amount txId ubs)
  have hbooks : ∀ b, (onDeposit u a amount txId ubs).total b + (ubs.debtLedger.owed b) =
      ubs.total b + (onDeposit u a amount txId ubs).debtLedger.owed b +
        assetPosting a amount.toNat b := by
    intro b
    have htotal := hm.total b
    have howed := ubs.debtLedger.owed_payDebt u a amount b
    rw [hledger]
    rw [hleft] at htotal
    simp only [Pi.zero_apply, assetPosting] at htotal howed ⊢
    split_ifs at htotal howed ⊢ <;> omega
  refine ⟨fun b => ?_, fun b => ?_, fun hzero => hledger ▸ hzero.payDebt⟩
  · have := hbooks b
    omega
  · have := hbooks b
    have hpaid := ubs.debtLedger.owed_payDebt u a amount b
    rw [← hledger] at hpaid
    omega

lemma accounted_delta (u : UInt64) (a : UInt32) (delta : Int64) (eventType : EventType)
    (h : ubs.total a + ubs.debtLedger.owed a + delta.toInt.natAbs < 2 ^ 63) :
    Accounted ubs (applyBalanceDelta u a delta eventType ubs).2
      (fun b => if b = a then delta.toInt else 0) (assetPosting a delta.toInt.natAbs) := by
  rcases applyBalanceDelta_cases u a delta eventType ubs (by omega) with
    ⟨hsign, hm, hledger⟩ | ⟨hsign, hm, hledger⟩ | ⟨shortfall, hsign, hpos, hsum, hm, hledger⟩
  · refine .ofMoves hm hledger (fun b => ?_) (fun b => by simp)
    simp only [Pi.zero_apply, assetPosting]
    split_ifs <;> omega
  · refine .ofMoves hm hledger (fun b => ?_) (fun b => by simp)
    simp only [Pi.zero_apply, assetPosting]
    split_ifs <;> omega
  · have hle := ubs.debtLedger.debt_le_owed u a
    have hfit : ubs.debtLedger.debt u a + shortfall.toNat < 2 ^ 64 := by omega
    refine ⟨fun b => ?_, fun b => ?_, fun hzero => hledger ▸ hzero.addDebt hpos hfit⟩
    · have htotal := hm.total b
      rw [hledger, DebtLedger.owed_addDebt hfit]
      simp only [Pi.zero_apply, assetPosting] at htotal ⊢
      split_ifs at htotal ⊢ <;> omega
    · have htotal := hm.total b
      rw [hledger, DebtLedger.owed_addDebt hfit]
      simp only [Pi.zero_apply, assetPosting] at htotal ⊢
      split_ifs at htotal ⊢ <;> omega

/-- An operation that succeeds or changes no funds, and whose success only moves funds between
available and frozen. -/
lemma accounted_internal {ε α : Type} {m : Fallible UBSCore ε α} (hkeeps : Fallible.Keeps tables m)
    {r h : UInt64 → UInt32 → ℕ}
    (hcases : m.Succeeds ubs (fun _ ubs' => Moves ubs ubs' r h 0 0) ∨
      ∃ e ubs', m ubs = (.error e, ubs') ∧ Moves ubs ubs' 0 0 0 0) :
    Accounted ubs (m ubs).2 0 0 := by
  have hledger : (m ubs).2.debtLedger = ubs.debtLedger := congrArg Prod.snd (hkeeps ubs)
  rcases hcases with ⟨_, ubs', hrun, hm⟩ | ⟨e, ubs', hrun, hm⟩
  · rw [hrun] at hledger ⊢
    exact .ofMoves hm hledger (fun _ => rfl) (fun _ => Nat.le_refl _)
  · rw [hrun] at hledger ⊢
    exact .ofMoves hm hledger (fun _ => rfl) (fun _ => Nat.le_refl _)

lemma cases_without_account {ε α : Type} {m : Fallible UBSCore ε α} {r h : UInt64 → UInt32 → ℕ}
    {e : ε} (hrun : m ubs = (.error e, ubs)) :
    m.Succeeds ubs (fun _ ubs' => Moves ubs ubs' r h 0 0) ∨
      ∃ e ubs', m ubs = (.error e, ubs') ∧ Moves ubs ubs' 0 0 0 0 :=
  Or.inr ⟨e, ubs, hrun, Moves.refl ubs⟩

lemma lockFunds_without_account {u : UInt64} (hu : ubs.accounts.get? u = none) (a : UInt32)
    (amount orderId : UInt64) :
    lockFunds u a amount orderId ubs = (.error .accountNotFound, ubs) :=
  Fallible.bind_of_error (by rw [onBalance, hu])

lemma unlockFunds_without_account {u : UInt64} (hu : ubs.accounts.get? u = none) (a : UInt32)
    (amount orderId : UInt64) :
    unlockFunds u a amount orderId ubs = (.error .accountNotFound, ubs) :=
  Fallible.bind_of_error (by rw [onBalance, hu])

/-- **One operation**, as long as what there is, what is owed and what comes in stay below
`2 ^ 63`. -/
lemma accounted_apply (op : FundsOp)
    (h : ∀ a, ubs.total a + ubs.debtLedger.owed a + op.volume a < 2 ^ 63)
    (hsettled : TradeSettles ubs op) :
    Accounted ubs (op.apply ubs).1 (fun a => op.flow (op.apply ubs).2 a)
      (fun a => op.volume a) := by
  cases op with
  | deposit u a amount txId =>
      have ha := h a
      simp only [FundsOp.volume, assetPosting_self] at ha
      have havail := ubs.avail_le_total u a
      -- part of it may go to a debt
      exact accounted_deposit u a amount txId (by omega)
  | withdraw u a amount txId =>
      have hledger : (onWithdraw u a amount txId ubs).2.debtLedger = ubs.debtLedger :=
        congrArg Prod.snd (onWithdraw_keeps beside_tables u a amount txId ubs)
      rcases onWithdraw_cases u a amount txId ubs with ⟨hok, hm⟩ | ⟨hok, hm⟩
      · refine .ofMoves hm hledger (fun b => ?_) (fun b => by simp)
        simp [FundsOp.flow, FundsOp.apply, hok]
      · refine .ofMoves hm hledger (fun b => ?_) (fun b => by simp)
        simp [FundsOp.flow, FundsOp.apply, hok]
  | lock u a amount orderId =>
      have ha := h a
      refine accounted_internal (lockFunds_keeps beside_tables u a amount orderId) ?_
        (h := posting u a amount.toNat) (r := 0)
      cases hu : ubs.accounts.get? u with
      | none => exact cases_without_account (lockFunds_without_account hu a amount orderId)
      | some account => exact lockFunds_cases (by simp [hu]) (by omega)
  | unlock u a amount orderId =>
      have ha := h a
      refine accounted_internal (unlockFunds_keeps beside_tables u a amount orderId) ?_
        (r := posting u a amount.toNat) (h := 0)
      cases hu : ubs.accounts.get? u with
      | none => exact cases_without_account (unlockFunds_without_account hu a amount orderId)
      | some account => exact unlockFunds_cases (by simp [hu]) (by omega)
  | settle t =>
      have hok := hsettled t rfl
      rcases hrun : settleTrade t ubs with ⟨r, ubs'⟩
      have hledger : ubs'.debtLedger = ubs.debtLedger := by
        have := congrArg Prod.snd (settleTrade_keeps beside_tables t ubs)
        rwa [hrun] at this
      simp only [FundsOp.apply, hrun] at hok ⊢
      cases r with
      | error e => exact absurd hok (by simp)
      | ok _ =>
          have hm := settleTrade_ensures t ubs _ _ hrun
          exact .ofMoves hm hledger (fun _ => rfl) (fun _ => Nat.le_refl _)
  | balanceDelta u a delta eventType =>
      have ha := h a
      simp only [FundsOp.volume, assetPosting_self] at ha
      exact accounted_delta u a delta eventType (by omega)

lemma avail_eq_userFunds (ubs : UBSCore) (u : UInt64) (a : UInt32) :
    ubs.avail u a = (ubs.userFunds.holdings u).elim 0 (fun h => (h a).1.toNat) := by
  simp only [avail, userFunds]
  cases ubs.accounts.get? u <;> rfl

lemma frozen_eq_userFunds (ubs : UBSCore) (u : UInt64) (a : UInt32) :
    ubs.frozen u a = (ubs.userFunds.holdings u).elim 0 (fun h => (h a).2.toNat) := by
  simp only [frozen, userFunds]
  cases ubs.accounts.get? u with
  | none => rfl
  | some account => rfl

lemma onDeposit_debtFirst (u : UInt64) (a : UInt32) (amount txId : UInt64)
    (h : ubs.total a + amount.toNat < 2 ^ 64) :
    (onDeposit u a amount txId ubs).debtLedger.debt u a =
        ubs.debtLedger.debt u a - amount.toNat ∧
      (onDeposit u a amount txId ubs).avail u a =
        ubs.avail u a + (amount.toNat - ubs.debtLedger.debt u a) := by
  obtain ⟨hleft, hdebt⟩ := ubs.debtLedger.payDebt_toNat u a amount
  have hledger : (onDeposit u a amount txId ubs).debtLedger =
      (ubs.debtLedger.payDebt u a amount).2 :=
    congrArg Prod.snd (onDeposit_keeps beside_tables u a amount txId ubs)
  refine ⟨by rw [hledger, hdebt], ?_⟩
  rw [← hleft]
  simp only [onDeposit]
  generalize ubs.debtLedger.payDebt u a amount = paid at hleft ⊢
  split
  · have hle := ubs.avail_le_total u a
    have hfunds := userFunds_deposit_ensured u a paid.1 { ubs with debtLedger := paid.2 }
    rw [avail_eq_userFunds, userFunds_emitEvent, hfunds]
    simp only [UserFunds.credit, Function.update_self, Option.elim_some]
    have hold : (((({ ubs with debtLedger := paid.2 } : UBSCore).userFunds.holdings u).getD
        (fun _ => (0, 0))) a).1.toNat = ubs.avail u a := by
      rw [avail_eq_userFunds]
      show ((ubs.userFunds.holdings u).getD (fun _ => (0, 0)) a).1.toNat = _
      cases ubs.userFunds.holdings u <;> rfl
    obtain ⟨sum, hadd⟩ := Word.checkedAdd_of_lt (show _ + paid.1.toNat < 2 ^ 64 from
      hold ▸ (show ubs.avail u a + paid.1.toNat < 2 ^ 64 by omega))
    rw [hadd, Option.getD_some, Word.checkedAdd_eq_some hadd, hold]
  · rename_i hzero
    have hnone : paid.1.toNat = 0 := by
      have := mt (Word.pos_iff paid.1).mpr hzero
      omega
    rw [hnone]
    rfl

end Steps

/-! ## Runs -/

lemma volumes_cons (a : UInt32) (op : FundsOp) (ops : List FundsOp) :
    volumes a (op :: ops) = op.volume a + volumes a ops := by
  simp [volumes]

lemma accounted_run (ubs : UBSCore) (ops : List FundsOp)
    (hvolume : ∀ a, ubs.total a + ubs.debtLedger.owed a + volumes a ops < 2 ^ 63)
    (hsettled : fundsMachine.AllSteps TradeSettles ubs ops) :
    Accounted ubs (fundsMachine.run ubs ops)
        (fun a => flows a ops (fundsMachine.answers ubs ops)) (fun a => volumes a ops) ∧
      fundsMachine.AllSteps DebtFirst ubs ops := by
  induction ops generalizing ubs with
  | nil => exact ⟨⟨fun a => (Int.add_zero _).symm, fun a => Nat.le_refl _, id⟩, trivial⟩
  | cons op ops ih =>
      obtain ⟨hop, hrest⟩ := hsettled
      have hstep : Accounted ubs (op.apply ubs).1 (fun a => op.flow (op.apply ubs).2 a)
          (fun a => op.volume a) := by
        apply accounted_apply op (fun a => ?_) hop
        have := hvolume a
        rw [volumes_cons] at this
        omega
      -- the bound carries over: what the first call may have added is no longer to come
      obtain ⟨hrun, hdebts⟩ := ih (op.apply ubs).1 (fun a => by
        have h₁ := hvolume a
        have h₂ := hstep.gross a
        rw [volumes_cons] at h₁
        omega) hrest
      refine ⟨⟨fun a => ?_, fun a => ?_, fun hzero => hrun.noZero (hstep.noZero hzero)⟩, ?_, hdebts⟩
      · have h₁ := hstep.net a
        have h₂ := hrun.net a
        simp only [Machine.run_cons, Machine.answers_cons, flows, List.zipWith_cons_cons,
          List.sum_cons] at h₁ h₂ ⊢
        change (((fundsMachine.run (op.apply ubs).1 ops).total a : ℕ) : ℤ) -
          (fundsMachine.run (op.apply ubs).1 ops).debtLedger.owed a =
            _ + (op.flow (op.apply ubs).2 a +
              (List.zipWith _ ops (fundsMachine.answers (op.apply ubs).1 ops)).sum)
        omega
      · have h₁ := hstep.gross a
        have h₂ := hrun.gross a
        rw [volumes_cons]
        simp only [Machine.run_cons] at h₁ h₂ ⊢
        change (fundsMachine.run (op.apply ubs).1 ops).total a +
          (fundsMachine.run (op.apply ubs).1 ops).debtLedger.owed a ≤ _
        omega
      · rintro u a amount txId rfl
        have ha := hvolume a
        rw [volumes_cons] at ha
        simp only [FundsOp.volume, assetPosting_self] at ha
        exact onDeposit_debtFirst u a amount txId (by omega)

/-- A UBSCore without accounts, with its symbols registered and a listener attached or not. -/
def fresh (symbols : HashMap UInt32 (UInt32 × UInt32)) (eventTx : Option (List BalanceEvent)) :
    UBSCore :=
  { UBSCore.new with assetMap := symbols, eventTx := eventTx }

/-- **Conservation.**  After every run of operations whose trades all settle, with less than
`2 ^ 63` of each asset coming in: what there is of an asset less what is owed in it is the deposits
less the successful withdrawals plus the balance changes; every deposit reduces the debt first; and
no record of a debt of nothing is kept, so `has_debt` is exact. -/
theorem funds_conserved (symbols : HashMap UInt32 (UInt32 × UInt32))
    (eventTx : Option (List BalanceEvent)) (ops : List FundsOp)
    (hvolume : ∀ a, volumes a ops < 2 ^ 63)
    (hsettled : fundsMachine.AllSteps TradeSettles (fresh symbols eventTx) ops) :
    (∀ a, ((fundsMachine.run (fresh symbols eventTx) ops).total a : ℤ) -
        (fundsMachine.run (fresh symbols eventTx) ops).debtLedger.owed a =
      flows a ops (fundsMachine.answers (fresh symbols eventTx) ops)) ∧
    fundsMachine.AllSteps DebtFirst (fresh symbols eventTx) ops ∧
    (fundsMachine.run (fresh symbols eventTx) ops).debtLedger.NoZero ∧
    ∀ u, (fundsMachine.run (fresh symbols eventTx) ops).debtLedger.hasDebt u = true ↔
      ∃ a, 0 < (fundsMachine.run (fresh symbols eventTx) ops).debtLedger.debt u a := by
  have htotal : ∀ a, (fresh symbols eventTx).total a = 0 := fun _ => rfl
  have howed : ∀ a, (fresh symbols eventTx).debtLedger.owed a = 0 := fun _ => rfl
  have hzero : (fresh symbols eventTx).debtLedger.NoZero := fun key => by
    simp [fresh, UBSCore.new, DebtLedger.new]
  obtain ⟨hbooks, hdebts⟩ := accounted_run (fresh symbols eventTx) ops (fun a => by
    have := hvolume a
    rw [htotal, howed]
    omega) hsettled
  refine ⟨fun a => ?_, hdebts, hbooks.noZero hzero,
    DebtLedger.hasDebt_iff (hbooks.noZero hzero)⟩
  have hnet := hbooks.net a
  rw [htotal, howed] at hnet
  omega

/-- User 1 deposits, sells to user 2 through a lock, loses more than is left and deposits again. -/
def debtRun : List FundsOp :=
  [.deposit 1 1 100 7, .deposit 2 2 60 8, .lock 1 1 40 9, .lock 2 2 60 10,
    .settle ⟨11, 2, 1, 1, 2, 40, 50, 10, 10, 9, 0, 0⟩, .balanceDelta 1 1 (-75) .tradeSettle,
    .deposit 1 1 20 12, .withdraw 2 2 10 13]

/-- After it, 45 units of asset 1 are left: 100 deposited, 75 taken, 15 of them as a debt that the
second deposit pays. -/
theorem funds_conserved_debtRun :
    flows 1 debtRun (fundsMachine.answers (fresh HashMap.empty none) debtRun) = 45 ∧
      ((fundsMachine.run (fresh HashMap.empty none) debtRun).total 1 : ℤ) -
        (fundsMachine.run (fresh HashMap.empty none) debtRun).debtLedger.owed 1 = 45 := by
  have hvolume : ∀ a, volumes a debtRun < 2 ^ 63 := by
    intro a
    simp only [debtRun, volumes, List.map_cons, List.map_nil, FundsOp.volume, assetPosting,
      List.sum_cons, List.sum_nil]
    split_ifs <;> decide
  have hflows : flows 1 debtRun (fundsMachine.answers (fresh HashMap.empty none) debtRun) = 45 := by
    decide
  have hsettled : fundsMachine.AllSteps TradeSettles (fresh HashMap.empty none) debtRun := by
    refine ⟨?_, ?_, ?_, ?_, fun _ _ => by decide, ?_, ?_, ?_, trivial⟩
    all_goals
      intro t ht
      exact absurd ht (by simp)
  have h := (funds_conserved HashMap.empty none debtRun hvolume hsettled).1 1
  exact ⟨hflows, h.trans hflows⟩

end UBSCore

end ExchangeCore
