import ExchangeCore.Models.Snowflake
import ExchangeCore.Transfer.Coordinator

/-!
# The funding adapter

`TbFundingAdapter` (`transfer/adapters/funding.rs`): the four adapter operations as programs over
TigerBeetle.  A withdrawal or a deposit creates a transfer under the request id, a commit posts the
pending transfer under the next id and a rollback voids it under the one after.

TigerBeetle itself is a parameter.  `TigerBeetle.Lawful` states what is relied on: a transfer is
applied at most once per id, an id that exists is answered by an error, and creating accounts moves
no funds.
-/

namespace ExchangeCore

/-! ## TigerBeetle -/

/-- An account or transfer id, an `u128`. -/
abbrev TbId := BitVec 128

/-- The flags of a transfer, as far as they are used. -/
inductive TbFlags
  | none
  | pending
  | postPendingTransfer
  | voidPendingTransfer
  deriving DecidableEq, Repr

/-- `Transfer`, with the defaults of `Transfer::new`. -/
structure TbTransfer where
  id : TbId
  debitAccountId : TbId := 0
  creditAccountId : TbId := 0
  amount : BitVec 128 := 0
  pendingId : TbId := 0
  ledger : UInt32 := 0
  code : UInt16 := 0
  flags : TbFlags := .none
  deriving DecidableEq, Repr

/-- `Account`. -/
structure TbAccount where
  id : TbId
  ledger : UInt32
  code : UInt16
  deriving DecidableEq, Repr

/-- The balance of an account. -/
structure TbBalance where
  debitsPending : ℕ
  debitsPosted : ℕ
  creditsPending : ℕ
  creditsPosted : ℕ
  deriving DecidableEq, Repr

/-- The operations of the client, each called with a batch of one. -/
inductive TbOp
  | createAccounts (account : TbAccount)
  | createTransfers (transfer : TbTransfer)
  deriving DecidableEq, Repr

/-- Both answer `Result<(), E>`. -/
abbrev TbAns (_ : TbOp) : Type := Except String Unit

/-- A program over the client. -/
abbrev TbProg := Prog TbOp TbAns

/-- A TigerBeetle cluster as its clients see it. -/
structure TigerBeetle (σ : Type) where
  serves : Service σ TbOp TbAns
  /-- A transfer with this id has been applied. -/
  applied : σ → TbId → Prop
  balance : σ → TbId → TbBalance

namespace TigerBeetle

variable {σ : Type}

/-- What is relied on. -/
structure Lawful (tb : TigerBeetle σ) : Prop where
  /-- An id that exists is answered by an error, and nothing is applied. -/
  exists_error : ∀ {s t a s'}, tb.applied s t.id → tb.serves s (.createTransfers t) a s' →
    (∃ e, a = .error e) ∧ tb.balance s' = tb.balance s
  /-- What is answered Ok has been applied. -/
  ok_applied : ∀ {s t s'}, tb.serves s (.createTransfers t) (.ok ()) s' → tb.applied s' t.id
  /-- What has been applied stays so. -/
  applied_mono : ∀ {s op a s' id}, tb.serves s op a s' → tb.applied s id → tb.applied s' id
  /-- Creating an account moves no funds. -/
  accounts_balance : ∀ {s account a s'}, tb.serves s (.createAccounts account) a s' →
    tb.balance s' = tb.balance s

/-- A step of any client. -/
def Moves (tb : TigerBeetle σ) (s s' : σ) : Prop := ∃ op a, tb.serves s op a s'

end TigerBeetle

/-! ## The adapter -/

namespace TbFundingAdapter

open Prog

def tradingLedger : UInt32 := 1

/-- `HOLDING_ACCOUNT_ID_PREFIX`, `u64::MAX - 1`. -/
def holdingAccountIdPrefix : UInt64 := 0xFFFFFFFFFFFFFFFE

def tbAccountId (userId : UInt64) (assetId : UInt32) : TbId :=
  (BitVec.ofNat 128 userId.toNat <<< 64) ||| BitVec.ofNat 128 assetId.toNat

/-- `ensure_account`: an error is taken to mean that the account exists. -/
def ensureAccount (accountId : TbId) (ledger : UInt32) (code : UInt16) :
    TbProg (Except String Unit) := do
  match ← perform (TbOp.createAccounts ⟨accountId, ledger, code⟩) with
  | .ok _ => return .ok ()
  | .error _ => return .ok ()

/-- The end of every operation: create the transfer, and take any error for a technical one. -/
def createTransfer (t : TbTransfer) : TbProg OpResult := do
  match ← perform (TbOp.createTransfers t) with
  | .ok _ => return .success
  | .error _ => return .pending

def transferId (reqId : UInt64) : TbId := BitVec.ofNat 128 reqId.toNat

/-- The transfer `withdraw` creates: a pending one from the user to the holding account. -/
def withdrawTransfer (reqId userId : UInt64) (assetId : UInt32) (amount : UInt64) : TbTransfer where
  id := transferId reqId
  debitAccountId := tbAccountId userId assetId
  creditAccountId := tbAccountId holdingAccountIdPrefix assetId
  amount := BitVec.ofNat 128 amount.toNat
  ledger := tradingLedger
  code := 1
  flags := .pending

/-- The transfer `deposit` creates: one from the holding account to the user. -/
def depositTransfer (reqId userId : UInt64) (assetId : UInt32) (amount : UInt64) : TbTransfer where
  id := transferId reqId
  debitAccountId := tbAccountId holdingAccountIdPrefix assetId
  creditAccountId := tbAccountId userId assetId
  amount := BitVec.ofNat 128 amount.toNat
  ledger := tradingLedger
  code := 2

/-- The transfer `commit` creates. -/
def commitTransfer (reqId : UInt64) : TbTransfer where
  id := transferId reqId + 1
  pendingId := transferId reqId
  flags := .postPendingTransfer

/-- The transfer `rollback` creates. -/
def rollbackTransfer (reqId : UInt64) : TbTransfer where
  id := transferId reqId + 2
  pendingId := transferId reqId
  flags := .voidPendingTransfer

/-- `withdraw` and `deposit` make sure that both accounts exist first. -/
def createBetweenAccounts (userId : UInt64) (assetId : UInt32) (t : TbTransfer) :
    TbProg OpResult := do
  match ← ensureAccount (tbAccountId userId assetId) tradingLedger 1 with
  | .error _ => return .pending
  | .ok _ =>
      match ← ensureAccount (tbAccountId holdingAccountIdPrefix assetId) tradingLedger 1 with
      | .error _ => return .pending
      | .ok _ => createTransfer t

/-- The operations of the adapter. -/
def call (reqId : UInt64) : AdapterCall → TbProg OpResult
  | .withdraw userId assetId amount =>
      createBetweenAccounts userId assetId (withdrawTransfer reqId userId assetId amount)
  | .deposit userId assetId amount =>
      createBetweenAccounts userId assetId (depositTransfer reqId userId assetId amount)
  | .commit => createTransfer (commitTransfer reqId)
  | .rollback => createTransfer (rollbackTransfer reqId)

/-- The transfer an operation creates. -/
def transferOf (reqId : UInt64) : AdapterCall → TbTransfer
  | .withdraw userId assetId amount => withdrawTransfer reqId userId assetId amount
  | .deposit userId assetId amount => depositTransfer reqId userId assetId amount
  | .commit => commitTransfer reqId
  | .rollback => rollbackTransfer reqId

/-! ## Calling again -/

section Retry

variable {σ : Type} {tb : TigerBeetle σ}

lemma runs_ensureAccount (htb : tb.Lawful) {accountId : TbId} {ledger : UInt32} {code : UInt16}
    {s s' : σ} {answer : Except String Unit}
    (hrun : (ensureAccount accountId ledger code).Runs tb.serves s answer s') :
    answer = .ok () ∧ tb.Moves s s' ∧ tb.balance s' = tb.balance s := by
  obtain ⟨a, s₁, hserves, hend⟩ := hrun
  obtain ⟨rfl, rfl⟩ : answer = .ok () ∧ s' = s₁ := by
    cases a with
    | ok u => exact hend
    | error e => exact hend
  exact ⟨rfl, ⟨_, _, hserves⟩, htb.accounts_balance hserves⟩

/-- An operation ends by creating its transfer, after steps that move no funds. -/
lemma runs_call (htb : tb.Lawful) {reqId : UInt64} {c : AdapterCall} {s s' : σ} {answer : OpResult}
    (hrun : (call reqId c).Runs tb.serves s answer s') :
    ∃ s₁, Relation.ReflTransGen tb.Moves s s₁ ∧ tb.balance s₁ = tb.balance s ∧
      (createTransfer (transferOf reqId c)).Runs tb.serves s₁ answer s' := by
  have hbetween : ∀ {userId assetId t}, (createBetweenAccounts userId assetId t).Runs tb.serves s
      answer s' → ∃ s₁, Relation.ReflTransGen tb.Moves s s₁ ∧ tb.balance s₁ = tb.balance s ∧
        (createTransfer t).Runs tb.serves s₁ answer s' := by
    intro userId assetId t hrun
    obtain ⟨a₁, s₁, hfirst, hrun⟩ := hrun.of_bind
    obtain ⟨rfl, hmoves₁, hbalance₁⟩ := runs_ensureAccount htb hfirst
    obtain ⟨a₂, s₂, hsecond, hrun⟩ := hrun.of_bind
    obtain ⟨rfl, hmoves₂, hbalance₂⟩ := runs_ensureAccount htb hsecond
    exact ⟨s₂, .tail (.single hmoves₁) hmoves₂, hbalance₂.trans hbalance₁, hrun⟩
  cases c with
  | withdraw userId assetId amount => exact hbetween hrun
  | deposit userId assetId amount => exact hbetween hrun
  | commit => exact ⟨s, .refl, rfl, hrun⟩
  | rollback => exact ⟨s, .refl, rfl, hrun⟩

lemma runs_createTransfer {t : TbTransfer} {s s' : σ} {answer : OpResult}
    (hrun : (createTransfer t).Runs tb.serves s answer s') :
    ∃ a, tb.serves s (.createTransfers t) a s' ∧
      (a = .ok () ∧ answer = .success ∨ (∃ e, a = .error e) ∧ answer = .pending) := by
  obtain ⟨a, s₁, hserves, hend⟩ := hrun
  cases a with
  | ok u =>
      obtain ⟨rfl, rfl⟩ : answer = .success ∧ s' = s₁ := hend
      exact ⟨_, hserves, Or.inl ⟨rfl, rfl⟩⟩
  | error e =>
      obtain ⟨rfl, rfl⟩ : answer = .pending ∧ s' = s₁ := hend
      exact ⟨_, hserves, Or.inr ⟨⟨e, rfl⟩, rfl⟩⟩

lemma applied_of_moves (htb : tb.Lawful) {s s' : σ} {id : TbId}
    (h : Relation.ReflTransGen tb.Moves s s') (happlied : tb.applied s id) : tb.applied s' id := by
  induction h with
  | refl => exact happlied
  | tail _ hmove ih =>
      obtain ⟨op, a, hserves⟩ := hmove
      exact htb.applied_mono hserves ih

/-- An operation that answers Success has taken effect. -/
lemma applied_of_success (htb : tb.Lawful) {reqId : UInt64} {c : AdapterCall} {s s' : σ}
    (hrun : (call reqId c).Runs tb.serves s .success s') :
    tb.applied s' (transferOf reqId c).id := by
  obtain ⟨s₁, -, -, hcreate⟩ := runs_call htb hrun
  obtain ⟨a, hserves, ⟨rfl, -⟩ | ⟨-, hpending⟩⟩ := runs_createTransfer hcreate
  · exact htb.ok_applied hserves
  · cases hpending

/-- What the coordinator relies on when it calls an operation again. -/
def RetrySucceeds (tb : TigerBeetle σ) (s : σ) (answer : OpResult) (s' : σ) : Prop :=
  answer = .success ∧ tb.balance s' = tb.balance s

/-- **Calling again.**  Once an operation has taken effect, and whatever has happened since, calling
it again moves no funds, but answers Pending and never Success. -/
theorem retry_pending (htb : tb.Lawful) (reqId : UInt64) (c : AdapterCall) (s s' s'' : σ)
    (answer : OpResult) (heffect : tb.applied s (transferOf reqId c).id)
    (hhistory : Relation.ReflTransGen tb.Moves s s')
    (hrun : (call reqId c).Runs tb.serves s' answer s'') :
    ¬RetrySucceeds tb s' answer s'' ∧ answer = .pending ∧ tb.balance s'' = tb.balance s' := by
  obtain ⟨s₁, hmoves, hbalance, hcreate⟩ := runs_call htb hrun
  have happlied := applied_of_moves htb (hhistory.trans hmoves) heffect
  obtain ⟨a, hserves, hanswer⟩ := runs_createTransfer hcreate
  obtain ⟨⟨e, rfl⟩, hsame⟩ := htb.exists_error happlied hserves
  rcases hanswer with ⟨hok, -⟩ | ⟨-, rfl⟩
  · cases hok
  · exact ⟨(fun h => by cases h.1), rfl, hsame.trans hbalance⟩

end Retry

/-! ## A cluster in memory -/

/-- The accounts and transfers of a cluster. -/
structure MemTb where
  accounts : List TbId
  transfers : List TbTransfer
  deriving DecidableEq

namespace MemTb

/-- The pending transfer `id` has been posted or voided. -/
def resolvedBy (m : MemTb) (flags : TbFlags) (id : TbId) : Bool :=
  m.transfers.any (fun t => t.flags = flags && t.pendingId = id)

/-- Whether `create_transfers` applies a transfer: its id is new, its accounts exist, and the
transfer it posts or voids is pending. -/
def accepts (m : MemTb) (t : TbTransfer) : Bool :=
  !m.transfers.any (fun u => u.id = t.id) &&
    match t.flags with
    | .none | .pending =>
        m.accounts.contains t.debitAccountId && m.accounts.contains t.creditAccountId
    | _ => m.transfers.any (fun u => u.id = t.pendingId && u.flags = .pending) &&
        !m.resolvedBy .postPendingTransfer t.pendingId &&
          !m.resolvedBy .voidPendingTransfer t.pendingId

/-- One operation. -/
def exec (m : MemTb) : TbOp → Except String Unit × MemTb
  | .createAccounts account =>
      if m.accounts.contains account.id then (.error "exists", m)
      else (.ok (), { m with accounts := account.id :: m.accounts })
  | .createTransfers t =>
      if m.accepts t then (.ok (), { m with transfers := t :: m.transfers })
      else (.error "rejected", m)

/-- The amounts pending and posted on one side of an account. -/
def side (m : MemTb) (account : TbTransfer → TbId) (id : TbId) : ℕ × ℕ :=
  let own := m.transfers.filter (fun t => account t = id)
  let amounts := fun p => ((own.filter p).map (fun t => t.amount.toNat)).sum
  (amounts (fun t => t.flags = .pending && !m.resolvedBy .postPendingTransfer t.id &&
      !m.resolvedBy .voidPendingTransfer t.id),
    amounts (fun t => t.flags = .none ||
      t.flags = .pending && m.resolvedBy .postPendingTransfer t.id))

/-- A cluster that nothing disturbs. -/
def tigerBeetle : TigerBeetle MemTb where
  serves m op a m' := (a, m') = m.exec op
  applied m id := ∃ t ∈ m.transfers, t.id = id
  balance m id :=
    let (debitsPending, debitsPosted) := m.side TbTransfer.debitAccountId id
    let (creditsPending, creditsPosted) := m.side TbTransfer.creditAccountId id
    ⟨debitsPending, debitsPosted, creditsPending, creditsPosted⟩

lemma lawful : tigerBeetle.Lawful where
  exists_error := by
    rintro m t a m' ⟨u, hu, hid⟩ hserves
    -- an id that exists is not accepted again
    have hrefused : m.accepts t = false := by
      have hany : m.transfers.any (fun u => u.id = t.id) = true :=
        List.any_eq_true.mpr ⟨u, hu, decide_eq_true hid⟩
      simp [accepts, hany]
    obtain ⟨rfl, rfl⟩ : a = .error "rejected" ∧ m' = m := by
      simpa [tigerBeetle, exec, hrefused] using hserves
    exact ⟨⟨_, rfl⟩, rfl⟩
  ok_applied := by
    rintro m t m' hserves
    have hexec : (Except.ok (), m') = m.exec (.createTransfers t) := hserves
    simp only [exec] at hexec
    split at hexec
    · obtain rfl : m' = _ := (Prod.mk.inj hexec).2
      exact ⟨t, List.mem_cons_self, rfl⟩
    · cases (Prod.mk.inj hexec).1
  applied_mono := by
    rintro m op a m' id hserves ⟨t, ht, hid⟩
    have hexec : (a, m') = m.exec op := hserves
    cases op with
    | createAccounts account =>
        simp only [exec] at hexec
        split at hexec
        · obtain rfl : m' = _ := (Prod.mk.inj hexec).2
          exact ⟨t, ht, hid⟩
        · obtain rfl : m' = _ := (Prod.mk.inj hexec).2
          exact ⟨t, ht, hid⟩
    | createTransfers u =>
        simp only [exec] at hexec
        split at hexec
        · obtain rfl : m' = _ := (Prod.mk.inj hexec).2
          exact ⟨t, List.mem_cons_of_mem _ ht, hid⟩
        · obtain rfl : m' = _ := (Prod.mk.inj hexec).2
          exact ⟨t, ht, hid⟩
  accounts_balance := by
    rintro m account a m' hserves
    have hexec : (a, m') = m.exec (.createAccounts account) := hserves
    simp only [exec] at hexec
    split at hexec
    · obtain rfl : m' = _ := (Prod.mk.inj hexec).2
      rfl
    · obtain rfl : m' = _ := (Prod.mk.inj hexec).2
      rfl

/-- A program run in memory. -/
def run {α : Type} : TbProg α → MemTb → α × MemTb
  | .ret a, m => (a, m)
  | .call op k, m => run (k (m.exec op).1) (m.exec op).2

lemma runs_run {α : Type} (p : TbProg α) (m : MemTb) :
    p.Runs tigerBeetle.serves m (run p m).1 (run p m).2 := by
  induction p generalizing m with
  | ret a => exact ⟨rfl, rfl⟩
  | call op k ih => exact ⟨_, _, rfl, ih _ _⟩

/-- The cluster after a first withdrawal of 100 units. -/
def withdrawn : MemTb := (run (call 1 (.withdraw 7 2 100)) ⟨[], []⟩).2

end MemTb

theorem retry_pending_withdraw :
    (call 1 (.withdraw 7 2 100)).Runs MemTb.tigerBeetle.serves ⟨[], []⟩ .success MemTb.withdrawn ∧
    (MemTb.run (call 1 (.withdraw 7 2 100)) MemTb.withdrawn).1 = .pending := by
  have hfirst := MemTb.runs_run (call 1 (.withdraw 7 2 100)) ⟨[], []⟩
  refine ⟨hfirst, ?_⟩
  exact (retry_pending MemTb.lawful 1 (.withdraw 7 2 100) MemTb.withdrawn _ _ _
    (applied_of_success MemTb.lawful hfirst) .refl (MemTb.runs_run _ _)).2.1

/-- A retried withdrawal does not succeed. -/
theorem retry_fails : ¬∀ answer m',
    (call 1 (.withdraw 7 2 100)).Runs MemTb.tigerBeetle.serves MemTb.withdrawn answer m' →
      RetrySucceeds MemTb.tigerBeetle MemTb.withdrawn answer m' := by
  intro h
  have hretry := (h _ _ (MemTb.runs_run _ _)).1
  exact absurd hretry (by decide)

/-! ## The ids of different requests -/

/-- What a transfer is for. -/
inductive TransferRole
  | hold
  | post
  | void
  deriving DecidableEq, Repr

/-- The id of a request's transfer in a role. -/
def roleId (reqId : UInt64) : TransferRole → TbId
  | .hold => transferId reqId
  | .post => transferId reqId + 1
  | .void => transferId reqId + 2

/-- No two requests and roles share a transfer id. -/
def IdsDistinct (ids : List UInt64) : Prop :=
  ∀ r ∈ ids, ∀ r' ∈ ids, ∀ role role', roleId r role = roleId r' role' → r = r' ∧ role = role'

/-- How far the id of a role is from the request id. -/
def offset : TransferRole → ℕ
  | .hold => 0
  | .post => 1
  | .void => 2

lemma toNat_roleId (r : UInt64) (role : TransferRole) :
    (roleId r role).toNat = r.toNat + offset role := by
  have hr : r.toNat < 2 ^ 64 := r.toNat_lt
  cases role <;> simp [roleId, transferId, offset, BitVec.toNat_add] <;> omega

/-- No two ids are one or two apart. -/
def Spaced (ids : List UInt64) : Prop :=
  ∀ r ∈ ids, ∀ r' ∈ ids, r'.toNat ≠ r.toNat + 1 ∧ r'.toNat ≠ r.toNat + 2

lemma idsDistinct_iff_spaced (ids : List UInt64) : IdsDistinct ids ↔ Spaced ids := by
  constructor
  · intro h r hr r' hr'
    refine ⟨fun heq => ?_, fun heq => ?_⟩
    · -- the post of `r` is the hold of `r'`
      have hid : roleId r .post = roleId r' .hold := by
        apply BitVec.eq_of_toNat_eq
        simp only [toNat_roleId, offset]
        omega
      cases (h r hr r' hr' _ _ hid).2
    · -- the void of `r` is the hold of `r'`
      have hid : roleId r .void = roleId r' .hold := by
        apply BitVec.eq_of_toNat_eq
        simp only [toNat_roleId, offset]
        omega
      cases (h r hr r' hr' _ _ hid).2
  · intro h r hr r' hr' role role' hid
    have hnat := congrArg BitVec.toNat hid
    simp only [toNat_roleId] at hnat
    have hto := h r hr r' hr'
    have hfrom := h r' hr' r hr
    have heq : r.toNat = r'.toNat := by
      cases role <;> cases role' <;> simp only [offset] at hnat <;> omega
    refine ⟨UInt64.toNat_inj.mp heq, ?_⟩
    cases role <;> cases role' <;> simp only [offset] at hnat <;> first | rfl | omega

section Requests

variable {ι : Type} [DecidableEq ι]

/-- The request ids issued by new generators, one for each machine of `machines`. -/
def requestIds (machines : ι → SequenceStrategy × UInt8)
    (calls : List (SnowflakeGen.IdCall ι)) : List UInt64 :=
  SnowflakeGen.issue (fun i => .new (machines i).1 (machines i).2) calls

/-- **When the transfer ids are distinct.**  Whatever the machines and the clocks, the transfer ids
are distinct exactly if no two request ids are one or two apart; and they are not as soon as one
generator is called again within a millisecond whose sequence is not used up. -/
theorem idsDistinct_iff (machines : ι → SequenceStrategy × UInt8)
    (calls : List (SnowflakeGen.IdCall ι)) :
    (IdsDistinct (requestIds machines calls) ↔ Spaced (requestIds machines calls)) ∧
    ∀ before between after i clock draw clock' draw',
      calls = before ++ (i, clock, draw) :: (between ++ (i, clock', draw') :: after) →
      (∀ c ∈ between, c.1 ≠ i) →
      let g := (before.foldl SnowflakeGen.advanceAt
        (fun i => .new (machines i).1 (machines i).2) i).advance clock draw
      clock' ≤ g.lastTs → g.sequence.toNat < 2 ^ 13 - 1 →
        ¬IdsDistinct (requestIds machines calls) := by
  refine ⟨idsDistinct_iff_spaced _, ?_⟩
  rintro before between after i clock draw clock' draw' rfl hbetween g hclock hseq hdistinct
  obtain ⟨r, hr, r', hr', hsucc⟩ := SnowflakeGen.succ_mem_issue _ before between after i clock
    clock' draw draw' hbetween hclock hseq
  exact ((idsDistinct_iff_spaced _).mp hdistinct r hr r' hr').1 hsucc

/-- Two requests of the coordinator's own generator in one millisecond: the commit of the first is
the withdrawal of the second. -/
theorem idsDistinct_fails : ¬IdsDistinct (requestIds (fun _ : Unit => (.random, 1))
    [((), 1700000000000, 5), ((), 1700000000000, 0)]) := by
  intro h
  have hid : roleId 1782579200000008197 .post = roleId 1782579200000008198 .hold := by decide
  exact absurd (h _ (by decide) _ (by decide) _ _ hid).2 (by decide)

end Requests

end TbFundingAdapter

end ExchangeCore
