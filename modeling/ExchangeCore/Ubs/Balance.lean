import ExchangeCore.Framework.Word

/-!
# Balances and accounts

`Balance` (`enforced_balance.rs`): the available and the frozen amount of one asset, changed only
through checked operations, and `UserAccount` (`user_account.rs`): a vector of balances keyed by
asset.  The operations take `&mut self`, so each returns the balance it leaves behind also when
it fails: `lock` and `unlock` have written one of the two amounts before the second check can
refuse.
-/

namespace ExchangeCore

/-- The balance of one asset. -/
structure Balance where
  avail : UInt64
  frozen : UInt64
  version : UInt64
  deriving DecidableEq, Repr

namespace Balance

def default : Balance := ⟨0, 0, 0⟩

/-- The version after a mutation. -/
def bump (b : Balance) : Balance := { b with version := b.version + 1 }

/-- Deposit to the available amount. -/
def deposit (amount : UInt64) (b : Balance) : Except String Unit × Balance :=
  match Word.checkedAdd b.avail amount with
  | none => (.error "Deposit overflow", b)
  | some avail => (.ok (), { b with avail := avail }.bump)

/-- Withdraw from the available amount. -/
def withdraw (amount : UInt64) (b : Balance) : Except String Unit × Balance :=
  if b.avail < amount then (.error "Insufficient funds", b)
  else
    match Word.checkedSub b.avail amount with
    | none => (.error "Withdraw underflow", b)
    | some avail => (.ok (), { b with avail := avail }.bump)

/-- Move from available to frozen. -/
def lock (amount : UInt64) (b : Balance) : Except String Unit × Balance :=
  if b.avail < amount then (.error "Insufficient funds to lock", b)
  else
    match Word.checkedSub b.avail amount with
    | none => (.error "Lock avail underflow", b)
    | some avail =>
        let b := { b with avail := avail }
        match Word.checkedAdd b.frozen amount with
        | none => (.error "Lock frozen overflow", b)
        | some frozen => (.ok (), { b with frozen := frozen }.bump)

/-- Move from frozen to available. -/
def unlock (amount : UInt64) (b : Balance) : Except String Unit × Balance :=
  if b.frozen < amount then (.error "Insufficient frozen funds", b)
  else
    match Word.checkedSub b.frozen amount with
    | none => (.error "Unlock frozen underflow", b)
    | some frozen =>
        let b := { b with frozen := frozen }
        match Word.checkedAdd b.avail amount with
        | none => (.error "Unlock avail overflow", b)
        | some avail => (.ok (), { b with avail := avail }.bump)

/-- Take out of frozen without adding to available. -/
def spendFrozen (amount : UInt64) (b : Balance) : Except String Unit × Balance :=
  if b.frozen < amount then (.error "Insufficient frozen funds", b)
  else
    match Word.checkedSub b.frozen amount with
    | none => (.error "Spend frozen underflow", b)
    | some frozen => (.ok (), { b with frozen := frozen }.bump)

/-- Take out of frozen and add to available. -/
def refundFrozen (spend refund : UInt64) (b : Balance) : Except String Unit × Balance :=
  if b.frozen < spend then (.error "Insufficient frozen for refund", b)
  else
    match Word.checkedSub b.frozen spend with
    | none => (.error "Refund frozen underflow", b)
    | some frozen =>
        let b := { b with frozen := frozen }
        match Word.checkedAdd b.avail refund with
        | none => (.error "Refund avail overflow", b)
        | some avail => (.ok (), { b with avail := avail }.bump)

/-! ## What the operations can do -/

section Cases

variable (amount spend refund : UInt64) (b : Balance)

lemma deposit_cases :
    (2 ^ 64 ≤ b.avail.toNat + amount.toNat ∧ deposit amount b = (.error "Deposit overflow", b)) ∨
      b.avail.toNat + amount.toNat < 2 ^ 64 ∧
        deposit amount b = (.ok (), ⟨b.avail + amount, b.frozen, b.version + 1⟩) := by
  rw [deposit]
  by_cases hfits : b.avail.toNat + amount.toNat < 2 ^ 64
  · rw [Word.checkedAdd_eq hfits]
    exact .inr ⟨hfits, rfl⟩
  · rw [Word.checkedAdd, if_neg hfits]
    exact .inl ⟨not_lt.mp hfits, rfl⟩

lemma withdraw_cases :
    (b.avail < amount ∧ withdraw amount b = (.error "Insufficient funds", b)) ∨
      amount ≤ b.avail ∧
        withdraw amount b = (.ok (), ⟨b.avail - amount, b.frozen, b.version + 1⟩) := by
  rw [withdraw]
  rcases lt_or_ge b.avail amount with hlt | hle
  · rw [if_pos hlt]
    exact .inl ⟨hlt, rfl⟩
  · rw [if_neg (not_lt.mpr hle), Word.checkedSub_eq hle]
    exact .inr ⟨hle, rfl⟩

/-- The first half of a lock stays if the second does not fit. -/
lemma lock_cases :
    (b.avail < amount ∧ lock amount b = (.error "Insufficient funds to lock", b)) ∨
      (amount ≤ b.avail ∧ 2 ^ 64 ≤ b.frozen.toNat + amount.toNat ∧
        lock amount b =
          (.error "Lock frozen overflow", ⟨b.avail - amount, b.frozen, b.version⟩)) ∨
      amount ≤ b.avail ∧ b.frozen.toNat + amount.toNat < 2 ^ 64 ∧
        lock amount b = (.ok (), ⟨b.avail - amount, b.frozen + amount, b.version + 1⟩) := by
  rw [lock]
  rcases lt_or_ge b.avail amount with hlt | hle
  · rw [if_pos hlt]
    exact .inl ⟨hlt, rfl⟩
  rw [if_neg (not_lt.mpr hle), Word.checkedSub_eq hle]
  dsimp only
  by_cases hfits : b.frozen.toNat + amount.toNat < 2 ^ 64
  · rw [Word.checkedAdd_eq hfits]
    exact .inr (.inr ⟨hle, hfits, rfl⟩)
  · rw [Word.checkedAdd, if_neg hfits]
    exact .inr (.inl ⟨hle, not_lt.mp hfits, rfl⟩)

/-- The first half of an unlock stays if the second does not fit. -/
lemma unlock_cases :
    (b.frozen < amount ∧ unlock amount b = (.error "Insufficient frozen funds", b)) ∨
      (amount ≤ b.frozen ∧ 2 ^ 64 ≤ b.avail.toNat + amount.toNat ∧
        unlock amount b =
          (.error "Unlock avail overflow", ⟨b.avail, b.frozen - amount, b.version⟩)) ∨
      amount ≤ b.frozen ∧ b.avail.toNat + amount.toNat < 2 ^ 64 ∧
        unlock amount b = (.ok (), ⟨b.avail + amount, b.frozen - amount, b.version + 1⟩) := by
  rw [unlock]
  rcases lt_or_ge b.frozen amount with hlt | hle
  · rw [if_pos hlt]
    exact .inl ⟨hlt, rfl⟩
  rw [if_neg (not_lt.mpr hle), Word.checkedSub_eq hle]
  dsimp only
  by_cases hfits : b.avail.toNat + amount.toNat < 2 ^ 64
  · rw [Word.checkedAdd_eq hfits]
    exact .inr (.inr ⟨hle, hfits, rfl⟩)
  · rw [Word.checkedAdd, if_neg hfits]
    exact .inr (.inl ⟨hle, not_lt.mp hfits, rfl⟩)

lemma spendFrozen_cases :
    (b.frozen < amount ∧ spendFrozen amount b = (.error "Insufficient frozen funds", b)) ∨
      amount ≤ b.frozen ∧
        spendFrozen amount b = (.ok (), ⟨b.avail, b.frozen - amount, b.version + 1⟩) := by
  rw [spendFrozen]
  rcases lt_or_ge b.frozen amount with hlt | hle
  · rw [if_pos hlt]
    exact .inl ⟨hlt, rfl⟩
  · rw [if_neg (not_lt.mpr hle), Word.checkedSub_eq hle]
    exact .inr ⟨hle, rfl⟩

/-- What a refund spends stays spent if what it pays back does not fit. -/
lemma refundFrozen_cases :
    (b.frozen < spend ∧
        refundFrozen spend refund b = (.error "Insufficient frozen for refund", b)) ∨
      (spend ≤ b.frozen ∧ 2 ^ 64 ≤ b.avail.toNat + refund.toNat ∧
        refundFrozen spend refund b =
          (.error "Refund avail overflow", ⟨b.avail, b.frozen - spend, b.version⟩)) ∨
      spend ≤ b.frozen ∧ b.avail.toNat + refund.toNat < 2 ^ 64 ∧
        refundFrozen spend refund b =
          (.ok (), ⟨b.avail + refund, b.frozen - spend, b.version + 1⟩) := by
  rw [refundFrozen]
  rcases lt_or_ge b.frozen spend with hlt | hle
  · rw [if_pos hlt]
    exact .inl ⟨hlt, rfl⟩
  rw [if_neg (not_lt.mpr hle), Word.checkedSub_eq hle]
  dsimp only
  by_cases hfits : b.avail.toNat + refund.toNat < 2 ^ 64
  · rw [Word.checkedAdd_eq hfits]
    exact .inr (.inr ⟨hle, hfits, rfl⟩)
  · rw [Word.checkedAdd, if_neg hfits]
    exact .inr (.inl ⟨hle, not_lt.mp hfits, rfl⟩)

end Cases

/-! ## When the operations succeed -/

variable {amount : UInt64} {b : Balance}

lemma deposit_ok (h : b.avail.toNat + amount.toNat < 2 ^ 64) :
    ∃ b', deposit amount b = (.ok (), b') ∧
      b'.avail.toNat = b.avail.toNat + amount.toNat ∧ b'.frozen = b.frozen := by
  rcases deposit_cases amount b with ⟨hover, -⟩ | ⟨-, heq⟩
  · exact absurd h (not_lt.mpr hover)
  · exact ⟨_, heq, Word.toNat_add_of_lt h, rfl⟩

lemma withdraw_ok (h : amount ≤ b.avail) :
    ∃ b', withdraw amount b = (.ok (), b') ∧
      b'.avail.toNat + amount.toNat = b.avail.toNat ∧ b'.frozen = b.frozen := by
  rcases withdraw_cases amount b with ⟨hlt, -⟩ | ⟨-, heq⟩
  · exact absurd h (not_le.mpr hlt)
  · exact ⟨_, heq, Word.toNat_sub_add h, rfl⟩

lemma lock_ok (h : amount ≤ b.avail) (hfrozen : b.frozen.toNat + amount.toNat < 2 ^ 64) :
    ∃ b', lock amount b = (.ok (), b') ∧
      b'.avail.toNat + amount.toNat = b.avail.toNat ∧
      b'.frozen.toNat = b.frozen.toNat + amount.toNat := by
  rcases lock_cases amount b with ⟨hlt, -⟩ | ⟨-, hover, -⟩ | ⟨-, -, heq⟩
  · exact absurd h (not_le.mpr hlt)
  · exact absurd hfrozen (not_lt.mpr hover)
  · exact ⟨_, heq, Word.toNat_sub_add h, Word.toNat_add_of_lt hfrozen⟩

lemma unlock_ok (h : amount ≤ b.frozen) (havail : b.avail.toNat + amount.toNat < 2 ^ 64) :
    ∃ b', unlock amount b = (.ok (), b') ∧
      b'.avail.toNat = b.avail.toNat + amount.toNat ∧
      b'.frozen.toNat + amount.toNat = b.frozen.toNat := by
  rcases unlock_cases amount b with ⟨hlt, -⟩ | ⟨-, hover, -⟩ | ⟨-, -, heq⟩
  · exact absurd h (not_le.mpr hlt)
  · exact absurd havail (not_lt.mpr hover)
  · exact ⟨_, heq, Word.toNat_add_of_lt havail, Word.toNat_sub_add h⟩

lemma spendFrozen_ok (h : amount ≤ b.frozen) :
    ∃ b', spendFrozen amount b = (.ok (), b') ∧
      b'.avail = b.avail ∧ b'.frozen.toNat + amount.toNat = b.frozen.toNat := by
  rcases spendFrozen_cases amount b with ⟨hlt, -⟩ | ⟨-, heq⟩
  · exact absurd h (not_le.mpr hlt)
  · exact ⟨_, heq, rfl, Word.toNat_sub_add h⟩

/-- A withdrawal that the balance does not cover changes nothing. -/
lemma withdraw_refused (h : b.avail < amount) :
    withdraw amount b = (.error "Insufficient funds", b) := if_pos h

/-- A lock that the balance does not cover changes nothing. -/
lemma lock_refused (h : b.avail < amount) :
    lock amount b = (.error "Insufficient funds to lock", b) := if_pos h

lemma unlock_refused (h : b.frozen < amount) :
    unlock amount b = (.error "Insufficient frozen funds", b) := if_pos h

/-! ## What success means -/

section Success

variable {b' : Balance}

/-- Of an outcome that is known to be a success. -/
lemma eq_of_ok {r : Except String Unit × Balance} {b'' : Balance} (h : r = (.ok (), b'))
    (heq : r = (.ok (), b'')) : b'' = b' := (Prod.mk.inj (heq.symm.trans h)).2

lemma ne_of_error {r : Except String Unit × Balance} {e : String} {b'' : Balance}
    (h : r = (.ok (), b')) : r ≠ (.error e, b'') := by
  rw [h]
  simp

lemma deposit_eq_ok (h : deposit amount b = (.ok (), b')) :
    b'.avail.toNat = b.avail.toNat + amount.toNat ∧ b'.frozen = b.frozen := by
  rcases deposit_cases amount b with ⟨-, heq⟩ | ⟨hfits, heq⟩
  · exact absurd heq (ne_of_error h)
  · obtain rfl := eq_of_ok h heq
    exact ⟨Word.toNat_add_of_lt hfits, rfl⟩

lemma withdraw_eq_ok (h : withdraw amount b = (.ok (), b')) :
    b'.avail.toNat + amount.toNat = b.avail.toNat ∧ b'.frozen = b.frozen := by
  rcases withdraw_cases amount b with ⟨-, heq⟩ | ⟨hle, heq⟩
  · exact absurd heq (ne_of_error h)
  · obtain rfl := eq_of_ok h heq
    exact ⟨Word.toNat_sub_add hle, rfl⟩

lemma lock_eq_ok (h : lock amount b = (.ok (), b')) :
    b'.avail.toNat + amount.toNat = b.avail.toNat ∧
      b'.frozen.toNat = b.frozen.toNat + amount.toNat := by
  rcases lock_cases amount b with ⟨-, heq⟩ | ⟨-, -, heq⟩ | ⟨hle, hfits, heq⟩
  · exact absurd heq (ne_of_error h)
  · exact absurd heq (ne_of_error h)
  · obtain rfl := eq_of_ok h heq
    exact ⟨Word.toNat_sub_add hle, Word.toNat_add_of_lt hfits⟩

lemma unlock_eq_ok (h : unlock amount b = (.ok (), b')) :
    b'.avail.toNat = b.avail.toNat + amount.toNat ∧
      b'.frozen.toNat + amount.toNat = b.frozen.toNat := by
  rcases unlock_cases amount b with ⟨-, heq⟩ | ⟨-, -, heq⟩ | ⟨hle, hfits, heq⟩
  · exact absurd heq (ne_of_error h)
  · exact absurd heq (ne_of_error h)
  · obtain rfl := eq_of_ok h heq
    exact ⟨Word.toNat_add_of_lt hfits, Word.toNat_sub_add hle⟩

lemma spendFrozen_eq_ok (h : spendFrozen amount b = (.ok (), b')) :
    b'.avail = b.avail ∧ b'.frozen.toNat + amount.toNat = b.frozen.toNat := by
  rcases spendFrozen_cases amount b with ⟨-, heq⟩ | ⟨hle, heq⟩
  · exact absurd heq (ne_of_error h)
  · obtain rfl := eq_of_ok h heq
    exact ⟨rfl, Word.toNat_sub_add hle⟩

end Success

end Balance

/-! ## Accounts -/

/-- A user's account: balances keyed by asset, in order of creation. -/
structure UserAccount where
  userId : UInt64
  assets : List (UInt32 × Balance)
  deriving DecidableEq, Repr

namespace UserAccount

def new (userId : UInt64) : UserAccount := ⟨userId, []⟩

def getBalance (account : UserAccount) (assetId : UInt32) : Option Balance :=
  (account.assets.find? (fun e => e.1 = assetId)).map Prod.snd

/-- Overwrite the first entry of an asset, or append one. -/
def setFirst (assetId : UInt32) (b : Balance) : List (UInt32 × Balance) → List (UInt32 × Balance)
  | [] => [(assetId, b)]
  | e :: es => if e.1 = assetId then (assetId, b) :: es else e :: setFirst assetId b es

/-- The balance `get_balance_mut` points at: a missing one is created empty. -/
def balanceMut (account : UserAccount) (assetId : UInt32) : Balance :=
  (account.getBalance assetId).getD Balance.default

/-- The account after a write through `get_balance_mut`. -/
def writeBalance (account : UserAccount) (assetId : UInt32) (b : Balance) : UserAccount :=
  { account with assets := setFirst assetId b account.assets }

lemma find?_setFirst (assetId : UInt32) (b : Balance) (es : List (UInt32 × Balance))
    (assetId' : UInt32) :
    ((setFirst assetId b es).find? (fun e => e.1 = assetId')).map Prod.snd =
      if assetId' = assetId then some b
      else (es.find? (fun e => e.1 = assetId')).map Prod.snd := by
  induction es with
  | nil =>
      by_cases h : assetId' = assetId
      · simp [setFirst, h]
      · simp [setFirst, h, Ne.symm h]
  | cons e es ih =>
      unfold setFirst
      by_cases he : e.1 = assetId
      · by_cases h : assetId' = assetId
        · simp [he, h]
        · simp [he, h, Ne.symm h]
      · by_cases h : e.1 = assetId'
        · have hne : assetId' ≠ assetId := fun h' => he (h.trans h')
          simp [h, hne]
        · simp only [if_neg he, List.find?_cons, h, decide_false, ih]

@[simp] lemma balanceMut_writeBalance (account : UserAccount) (assetId assetId' : UInt32)
    (b : Balance) :
    (account.writeBalance assetId b).balanceMut assetId' =
      if assetId' = assetId then b else account.balanceMut assetId' := by
  unfold balanceMut getBalance writeBalance
  rw [find?_setFirst]
  split <;> rfl

lemma setFirst_self {assetId : UInt32} {b : Balance} {es : List (UInt32 × Balance)}
    (h : (es.find? (fun e => e.1 = assetId)).map Prod.snd = some b) :
    setFirst assetId b es = es := by
  induction es with
  | nil => exact absurd h (by simp)
  | cons e es ih =>
      rw [setFirst]
      by_cases he : e.1 = assetId
      · simp only [List.find?_cons, he, decide_true, Option.map_some, Option.some.injEq] at h
        rw [if_pos he, ← he, ← h]
      · simp only [List.find?_cons, he, decide_false] at h
        rw [if_neg he, ih h]

/-- Writing back the balance that is there changes nothing. -/
lemma writeBalance_self {account : UserAccount} {assetId : UInt32} {b : Balance}
    (h : account.getBalance assetId = some b) : account.writeBalance assetId b = account := by
  rw [writeBalance, setFirst_self h]

end UserAccount

end ExchangeCore
