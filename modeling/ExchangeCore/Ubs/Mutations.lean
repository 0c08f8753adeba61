import ExchangeCore.Framework.Machine
import ExchangeCore.Ubs.Balance

/-!
# Failed mutations of a balance

The six mutations of `Balance` (`enforced_balance.rs`), as calls of one machine.  A mutation that
returns has done what its documentation says.  One that fails has changed nothing, unless it was the
second of its two updates that failed: `lock`, `unlock` and `refund_frozen` write the one amount
before they check that the other has room (`HalfDone`), and then the units taken out are gone.  So a
mutation is all or nothing exactly if that does not happen (`allOrNothing_iff`).

It does not happen in a run that starts with, and pays in, less than 2^64 units altogether
(`allSteps_allOrNothing`).
-/

namespace ExchangeCore

namespace Balance

/-- A call of one of the mutating methods. -/
inductive Mutation
  | deposit (amount : UInt64)
  | withdraw (amount : UInt64)
  | lock (amount : UInt64)
  | unlock (amount : UInt64)
  | spendFrozen (amount : UInt64)
  | refundFrozen (spend refund : UInt64)
  deriving DecidableEq, Repr

/-- The available and the frozen amount together. -/
def funds (b : Balance) : ℕ := b.avail.toNat + b.frozen.toNat

/-! ## All or nothing -/

namespace Mutation

/-- Run the method. -/
def apply : Mutation → Balance → Except String Unit × Balance
  | .deposit amount => Balance.deposit amount
  | .withdraw amount => Balance.withdraw amount
  | .lock amount => Balance.lock amount
  | .unlock amount => Balance.unlock amount
  | .spendFrozen amount => Balance.spendFrozen amount
  | .refundFrozen spend refund => Balance.refundFrozen spend refund

/-- What the method's documentation says is added to the available amount. -/
def availChange : Mutation → ℤ
  | .deposit amount => amount.toNat
  | .withdraw amount => -amount.toNat
  | .lock amount => -amount.toNat
  | .unlock amount => amount.toNat
  | .spendFrozen _ => 0
  | .refundFrozen _ refund => refund.toNat

/-- What it says is added to the frozen amount. -/
def frozenChange : Mutation → ℤ
  | .deposit _ | .withdraw _ => 0
  | .lock amount => amount.toNat
  | .unlock amount => -amount.toNat
  | .spendFrozen amount => -amount.toNat
  | .refundFrozen spend _ => -spend.toNat

/-- The change from one balance to the other is the documented one. -/
structure Documented (m : Mutation) (b b' : Balance) : Prop where
  avail : (b'.avail.toNat : ℤ) = b.avail.toNat + m.availChange
  frozen : (b'.frozen.toNat : ℤ) = b.frozen.toNat + m.frozenChange
  version : b'.version = b.version + 1

/-- If the method returns, the change is the documented one; if it fails, there is none. -/
def AllOrNothing (m : Mutation) (b : Balance) : Prop :=
  ((m.apply b).1 = .ok () → m.Documented b (m.apply b).2) ∧
    ∀ e, (m.apply b).1 = .error e → (m.apply b).2 = b

/-- The first of the two updates takes something out, and the second overflows. -/
def HalfDone : Mutation → Balance → Prop
  | .lock amount, b => amount ≤ b.avail ∧ 2 ^ 64 ≤ b.frozen.toNat + amount.toNat
  | .unlock amount, b => amount ≤ b.frozen ∧ 2 ^ 64 ≤ b.avail.toNat + amount.toNat
  | .refundFrozen spend refund, b =>
      0 < spend ∧ spend ≤ b.frozen ∧ 2 ^ 64 ≤ b.avail.toNat + refund.toNat
  | _, _ => False

/-- How a call ends. -/
inductive Ends (m : Mutation) (b : Balance) : Except String Unit × Balance → Prop
  | done (b' : Balance) (hdone : m.Documented b b') (hwhole : ¬m.HalfDone b) : Ends m b (.ok (), b')
  | refused (e : String) (hwhole : ¬m.HalfDone b) : Ends m b (.error e, b)
  /-- What the first update took out is gone. -/
  | halfDone (e : String) (b' : Balance) (hhalf : m.HalfDone b) (hlost : b'.funds < b.funds) :
      Ends m b (.error e, b')

section Ends

variable (amount spend refund : UInt64) (b : Balance)

lemma deposit_ends : Ends (.deposit amount) b (Balance.deposit amount b) := by
  rcases deposit_cases amount b with ⟨-, heq⟩ | ⟨hfits, heq⟩
  · rw [heq]
    exact .refused _ id
  · rw [heq]
    exact .done _ ⟨Word.cast_toNat_add hfits, (add_zero _).symm, rfl⟩ id

lemma withdraw_ends : Ends (.withdraw amount) b (Balance.withdraw amount b) := by
  rcases withdraw_cases amount b with ⟨-, heq⟩ | ⟨hle, heq⟩
  · rw [heq]
    exact .refused _ id
  · rw [heq]
    exact .done _ ⟨Word.cast_toNat_sub hle, (add_zero _).symm, rfl⟩ id

lemma spendFrozen_ends : Ends (.spendFrozen amount) b (Balance.spendFrozen amount b) := by
  rcases spendFrozen_cases amount b with ⟨-, heq⟩ | ⟨hle, heq⟩
  · rw [heq]
    exact .refused _ id
  · rw [heq]
    exact .done _ ⟨(add_zero _).symm, Word.cast_toNat_sub hle, rfl⟩ id

lemma lock_ends : Ends (.lock amount) b (Balance.lock amount b) := by
  rcases lock_cases amount b with ⟨hlt, heq⟩ | ⟨hle, hover, heq⟩ | ⟨hle, hfits, heq⟩
  · rw [heq]
    exact .refused _ (fun h => not_lt.mpr h.1 hlt)
  · rw [heq]
    have hfrozen := b.frozen.toNat_lt
    exact .halfDone _ _ ⟨hle, hover⟩ (Nat.add_lt_add_right (Word.toNat_sub_lt hle (by omega)) _)
  · rw [heq]
    exact .done _ ⟨Word.cast_toNat_sub hle, Word.cast_toNat_add hfits, rfl⟩
      (fun h => not_lt.mpr h.2 hfits)

lemma unlock_ends : Ends (.unlock amount) b (Balance.unlock amount b) := by
  rcases unlock_cases amount b with ⟨hlt, heq⟩ | ⟨hle, hover, heq⟩ | ⟨hle, hfits, heq⟩
  · rw [heq]
    exact .refused _ (fun h => not_lt.mpr h.1 hlt)
  · rw [heq]
    have havail := b.avail.toNat_lt
    exact .halfDone _ _ ⟨hle, hover⟩ (Nat.add_lt_add_left (Word.toNat_sub_lt hle (by omega)) _)
  · rw [heq]
    exact .done _ ⟨Word.cast_toNat_add hfits, Word.cast_toNat_sub hle, rfl⟩
      (fun h => not_lt.mpr h.2 hfits)

lemma refundFrozen_ends :
    Ends (.refundFrozen spend refund) b (Balance.refundFrozen spend refund b) := by
  rcases refundFrozen_cases spend refund b with
    ⟨hlt, heq⟩ | ⟨hle, hover, heq⟩ | ⟨hle, hfits, heq⟩
  · rw [heq]
    exact .refused _ (fun h => not_lt.mpr h.2.1 hlt)
  · rw [heq]
    by_cases hpos : 0 < spend
    · exact .halfDone _ _ ⟨hpos, hle, hover⟩
        (Nat.add_lt_add_left (Word.toNat_sub_lt hle ((Word.pos_iff spend).mp hpos)) _)
    · -- Nothing was spent, so nothing is lost.
      obtain rfl : spend = 0 := UInt64.le_zero_iff.mp (not_lt.mp hpos)
      rw [UInt64.sub_zero]
      exact .refused _ (fun h => hpos h.1)
  · rw [heq]
    exact .done _ ⟨Word.cast_toNat_add hfits, Word.cast_toNat_sub hle, rfl⟩
      (fun h => not_lt.mpr h.2.2 hfits)

/-- Every call is done, refused without an effect, or half done. -/
lemma apply_ends (m : Mutation) : m.Ends b (m.apply b) := by
  cases m with
  | deposit amount => exact deposit_ends amount b
  | withdraw amount => exact withdraw_ends amount b
  | lock amount => exact lock_ends amount b
  | unlock amount => exact unlock_ends amount b
  | spendFrozen amount => exact spendFrozen_ends amount b
  | refundFrozen spend refund => exact refundFrozen_ends spend refund b

end Ends

variable {m : Mutation} {b : Balance}

lemma allOrNothing_iff_not_halfDone : m.AllOrNothing b ↔ ¬m.HalfDone b := by
  have hends := apply_ends b m
  unfold AllOrNothing
  generalize m.apply b = r at hends
  cases hends with
  | done b' hdone hwhole => exact iff_of_true ⟨fun _ => hdone, fun e h => absurd h (by simp)⟩ hwhole
  | refused e hwhole => exact iff_of_true ⟨fun h => absurd h (by simp), fun _ _ => rfl⟩ hwhole
  | halfDone e b' hhalf hlost =>
      refine iff_of_false (fun h => ?_) (not_not.mpr hhalf)
      obtain rfl : b' = b := h.2 e rfl
      exact lt_irrefl _ hlost

/-- A mutation that documents no change of the funds keeps them, unless it is half done. -/
lemma funds_apply_iff (hkept : m.availChange + m.frozenChange = 0) :
    (m.apply b).2.funds = b.funds ↔ ¬m.HalfDone b := by
  have hends := apply_ends b m
  generalize m.apply b = r at hends
  cases hends with
  | done b' hdone hwhole =>
      have havail := hdone.avail
      have hfrozen := hdone.frozen
      refine iff_of_true ?_ hwhole
      show b'.avail.toNat + b'.frozen.toNat = b.avail.toNat + b.frozen.toNat
      omega
  | refused e hwhole => exact iff_of_true rfl hwhole
  | halfDone e b' hhalf hlost => exact iff_of_false hlost.ne (not_not.mpr hhalf)

end Mutation

/-- **All or nothing.**  A mutation does what it documents or nothing at all exactly if it is not
half done, and exactly then a lock or an unlock leaves the sum of the two amounts alone. -/
theorem allOrNothing_iff (b : Balance) :
    (∀ m : Mutation, m.AllOrNothing b ↔ ¬m.HalfDone b) ∧
      ∀ amount, ((lock amount b).2.funds = b.funds ↔ ¬(Mutation.lock amount).HalfDone b) ∧
        ((unlock amount b).2.funds = b.funds ↔ ¬(Mutation.unlock amount).HalfDone b) := by
  refine ⟨fun m => Mutation.allOrNothing_iff_not_halfDone, fun amount => ⟨?_, ?_⟩⟩
  · exact @Mutation.funds_apply_iff (.lock amount) b (neg_add_cancel _)
  · exact @Mutation.funds_apply_iff (.unlock amount) b (add_neg_cancel _)

/-! ## Runs -/

/-- The balance, one mutation after another. -/
def machine : Machine Balance Mutation (Except String Unit) where
  step b m := ((m.apply b).2, (m.apply b).1)

/-- A lock that the available amount covers, of one unit more than the frozen amount has room for:
it fails, and the unit is gone.  The same with a refund. -/
theorem lock_loses :
    machine.run default [.deposit 0xFFFFFFFFFFFFFFFF, .lock 0xFFFFFFFFFFFFFFFF, .deposit 1] =
        ⟨1, 0xFFFFFFFFFFFFFFFF, 3⟩ ∧
      lock 1 ⟨1, 0xFFFFFFFFFFFFFFFF, 3⟩ =
        (.error "Lock frozen overflow", ⟨0, 0xFFFFFFFFFFFFFFFF, 3⟩) ∧
      ¬(Mutation.lock 1).AllOrNothing ⟨1, 0xFFFFFFFFFFFFFFFF, 3⟩ ∧
      machine.run default [.deposit 1, .lock 1, .deposit 0xFFFFFFFFFFFFFFFF] =
        ⟨0xFFFFFFFFFFFFFFFF, 1, 3⟩ ∧
      refundFrozen 1 1 ⟨0xFFFFFFFFFFFFFFFF, 1, 3⟩ =
        (.error "Refund avail overflow", ⟨0xFFFFFFFFFFFFFFFF, 0, 3⟩) ∧
      ¬(Mutation.refundFrozen 1 1).AllOrNothing ⟨0xFFFFFFFFFFFFFFFF, 1, 3⟩ := by
  refine ⟨by decide, by decide, fun h => ?_, by decide, by decide, fun h => ?_⟩
  · exact absurd (h.2 _ rfl) (by decide)
  · exact absurd (h.2 _ rfl) (by decide)

namespace Mutation

/-- What a mutation adds to the funds at most. -/
def paidIn : Mutation → ℕ
  | .deposit amount => amount.toNat
  | .refundFrozen _ refund => refund.toNat
  | _ => 0

variable {m : Mutation} {b : Balance}

lemma change_le_paidIn (m : Mutation) : m.availChange + m.frozenChange ≤ m.paidIn := by
  cases m <;> simp only [availChange, frozenChange, paidIn] <;> omega

lemma funds_apply_le (m : Mutation) (b : Balance) : (m.apply b).2.funds ≤ b.funds + m.paidIn := by
  have hends := apply_ends b m
  generalize m.apply b = r at hends
  cases hends with
  | done b' hdone hwhole =>
      have havail := hdone.avail
      have hfrozen := hdone.frozen
      have hchange := change_le_paidIn m
      show b'.avail.toNat + b'.frozen.toNat ≤ b.avail.toNat + b.frozen.toNat + m.paidIn
      omega
  | refused e hwhole => exact Nat.le_add_right _ _
  | halfDone e b' hhalf hlost => exact Nat.le_add_right_of_le hlost.le

/-- A half-done mutation would have made the balance hold 2^64 units. -/
lemma le_of_halfDone (h : m.HalfDone b) : 2 ^ 64 ≤ b.funds + m.paidIn := by
  cases m with
  | lock amount =>
      have hle := UInt64.le_iff_toNat_le.mp h.1
      have hover := h.2
      rw [funds]
      omega
  | unlock amount =>
      have hle := UInt64.le_iff_toNat_le.mp h.1
      have hover := h.2
      rw [funds]
      omega
  | refundFrozen spend refund =>
      have hover := h.2.2
      rw [funds, paidIn]
      omega
  | _ => exact h.elim

end Mutation

/-- **Enough room.**  In a run that starts with and pays in less than 2^64 units altogether, every
mutation is all or nothing. -/
theorem allSteps_allOrNothing {b : Balance} {ms : List Mutation}
    (h : b.funds + (ms.map Mutation.paidIn).sum < 2 ^ 64) :
    machine.AllSteps (fun b m => m.AllOrNothing b) b ms := by
  induction ms generalizing b with
  | nil => trivial
  | cons m ms ih =>
      rw [List.map_cons, List.sum_cons] at h
      refine ⟨Mutation.allOrNothing_iff_not_halfDone.mpr (fun hhalf => ?_), ih ?_⟩
      · have hover := Mutation.le_of_halfDone hhalf
        omega
      · have hle := Mutation.funds_apply_le m b
        show (m.apply b).2.funds + _ < _
        omega

/-- A run with a refusal in it. -/
theorem allSteps_allOrNothing_refused :
    machine.AllSteps (fun b m => m.AllOrNothing b) ⟨5, 0, 0⟩
      [.deposit 10, .lock 12, .withdraw 4, .refundFrozen 9 3, .unlock 1] :=
  allSteps_allOrNothing (by decide)

end Balance

end ExchangeCore
