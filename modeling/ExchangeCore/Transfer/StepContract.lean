import ExchangeCore.Framework.Contracts
import ExchangeCore.Transfer.ProcessNow

/-!
# The contract of the step function

What one call of `TransferCoordinator::step` promises, whatever other workers do to the same
transfer in between, if each operation of an adapter has one outcome for the transfer (`Sticky`):

* the row stays that of the transfer (`SameTransfer`), and the adapters are only called for what
  the transfer moves (`Fits`);
* a terminal state that is returned is the one stored (`Ends.stored`);
* where the adapters give definite answers (`prompt`), the transfer is one state further afterwards,
  or more (`Ends.advanced`).

The second part is what lets the service tell a client how its transfer ended.  It is about the
three places where the answer of a compare-and-set to a terminal state is passed over: what the
worker knows at each of them excludes every state but the expected one and the new one.  The third
part is what lets a worker complete a transfer: a compare-and-set that is not applied finds that
another worker has been faster.
-/

namespace ExchangeCore

namespace TransferState

/-- How far a transfer is. -/
def level : TransferState → ℕ
  | .init => 0
  | .sourcePending => 1
  | .sourceDone => 2
  | .targetPending => 3
  | .compensating => 4
  | .committed | .rolledBack | .failed => 5

lemma isTerminal_of_level {s : TransferState} (h : 5 ≤ s.level) : s.isTerminal = true := by
  cases s <;> simp [level] at h <;> rfl

lemma eq_of_level {s s' : TransferState} (hlive : s.isTerminal = false) (h : s.level = s'.level) :
    s' = s := by
  cases s <;> cases s' <;> simp_all [level, isTerminal]

end TransferState

namespace Backend

variable {b b' : Backend} {r₀ : TransferRecord}

/-! ## The row of a transfer -/

/-- The row is one of this transfer, in whatever state. -/
structure SameTransfer (r₀ r : TransferRecord) : Prop where
  reqId : r.reqId = r₀.reqId
  source : r.source = r₀.source
  target : r.target = r₀.target
  userId : r.userId = r₀.userId
  assetId : r.assetId = r₀.assetId
  amount : r.amount = r₀.amount
  createdAt : r.createdAt = r₀.createdAt

lemma sameTransfer_of_serves {op : TransferOp} {a : TransferAns op} (hserv : serves b op a b')
    (h : ∀ r, b.row = some r → SameTransfer r₀ r) : ∀ r, b'.row = some r → SameTransfer r₀ r := by
  -- a conditional update writes fields that are not part of the transfer
  have hcas : ∀ {expected update applied},
      (∀ r, SameTransfer r₀ r → SameTransfer r₀ (update r)) → b.Cas expected update applied b' →
        ∀ r, b'.row = some r → SameTransfer r₀ r := by
    intro expected update applied hupdate hcas r hr
    unfold Cas at hcas
    split at hcas
    · rw [hcas.2] at hr
      exact h r hr
    · rename_i r' hr'
      split at hcas
      · rw [hcas.2] at hr
        obtain rfl := Option.some.inj hr
        exact hupdate r' (h r' hr')
      · rw [hcas.2] at hr
        exact h r hr
  cases op with
  | get =>
      rw [hserv.2]
      exact h
  | updateStateIf expected newState =>
      obtain ⟨now, hserv⟩ := hserv
      refine hcas (fun r hr => ?_) hserv
      exact ⟨hr.1, hr.2, hr.3, hr.4, hr.5, hr.6, hr.7⟩
  | updateStateWithError expected newState error =>
      obtain ⟨now, hserv⟩ := hserv
      refine hcas (fun r hr => ?_) hserv
      exact ⟨hr.1, hr.2, hr.3, hr.4, hr.5, hr.6, hr.7⟩
  | incrementRetry =>
      obtain ⟨now, rfl⟩ := hserv
      intro r hr
      obtain ⟨r', hr', rfl⟩ := Option.map_eq_some_iff.mp hr
      have hsame := h r' hr'
      exact ⟨hsame.1, hsame.2, hsame.3, hsame.4, hsame.5, hsame.6, hsame.7⟩
  | adapter site service call =>
      obtain rfl : b' = _ := hserv
      exact h

/-- The call of an adapter moves what the transfer moves. -/
def Moves (r₀ : TransferRecord) (service : ServiceId) (call : AdapterCall) : Prop :=
  (service = r₀.source ∧
    (call = .withdraw r₀.userId r₀.assetId r₀.amount ∨ call = .commit ∨ call = .rollback)) ∨
  (service = r₀.target ∧ call = .deposit r₀.userId r₀.assetId r₀.amount)

/-- The operation calls an adapter, if it does, for what the transfer moves. -/
def Fits (r₀ : TransferRecord) : TransferOp → Prop
  | .adapter _ service call => Moves r₀ service call
  | _ => True

/-- What holds of a transfer whatever its workers do. -/
structure TransferInv (outcome : ServiceId → AdapterOp → Option Bool) (r₀ : TransferRecord)
    (b : Backend) : Prop where
  saga : SagaInv r₀.source r₀.target b
  agree : TransferCoordinator.Agree outcome b
  same : ∀ r, b.row = some r → SameTransfer r₀ r

/-- The row is in one of these states. -/
def In (S : TransferState → Prop) (b : Backend) : Prop := ∃ r, b.row = some r ∧ S r.state

lemma In.of_stored {S : TransferState → Prop} {state : TransferState} (h : b.Stored state)
    (hS : S state) : b.In S := by
  obtain ⟨r, hr, rfl⟩ := h
  exact ⟨r, hr, hS⟩

/-- States that are not left are kept by every step. -/
lemma In.of_step {S : TransferState → Prop} (hS : ∀ s s', S s → Edge s s' → S s')
    (hstep : SagaStep b b') (h : b.In S) : b'.In S := by
  obtain ⟨r, hr, hs⟩ := h
  obtain ⟨r', hr', -, -, heq | hedge⟩ := hstep.row r hr
  · exact ⟨r', hr', heq ▸ hs⟩
  · exact ⟨r', hr', hS _ _ hs hedge⟩

lemma Stored.of_step {state : TransferState} (hterminal : state.isTerminal = true)
    (hstep : SagaStep b b') (h : b.Stored state) : b'.Stored state := by
  refine In.of_step (S := (· = state)) (fun s s' hs hedge => ?_) hstep h
  obtain ⟨e, he⟩ := hedge
  rw [← he, hs, transition_of_isTerminal hterminal]

lemma level_edge {s s' : TransferState} (hedge : Edge s s') (hne : s ≠ s') :
    s.level < s'.level := by
  obtain ⟨e, rfl⟩ := hedge
  cases s <;> cases e <;> simp_all [transition, TransferState.level]

/-- The transfer has come to this level, or to its end. -/
def AtLeast (n : ℕ) (s : TransferState) : Prop := s.isTerminal = true ∨ n ≤ s.level

lemma atLeast_edge {n : ℕ} (s s' : TransferState) (h : AtLeast n s) (hedge : Edge s s') :
    AtLeast n s' := by
  by_cases heq : s = s'
  · exact heq ▸ h
  · rcases h with hterminal | hle
    · obtain ⟨e, rfl⟩ := hedge
      rw [transition_of_isTerminal hterminal]
      exact Or.inl hterminal
    · exact Or.inr (Nat.le_trans hle (Nat.le_of_lt (level_edge hedge heq)))

lemma In.lower {m n : ℕ} (h : b.In (AtLeast n)) (hmn : m ≤ n) : b.In (AtLeast m) := by
  obtain ⟨r, hr, hlevel⟩ := h
  exact ⟨r, hr, hlevel.imp_right (Nat.le_trans hmn)⟩

/-- After a compare-and-set from a level that the transfer has come to, it is past this level. -/
lemma past_of_cas {op : TransferOp} {expected newState : TransferState}
    (hop : op.cas = some (expected, newState)) {a : TransferAns op} (hserv : serves b op a b')
    (hedge : Edge expected newState) (hne : expected ≠ newState)
    (hin : b.In (AtLeast expected.level)) : b'.In (AtLeast (expected.level + 1)) := by
  obtain ⟨update, applied, hupdate, hcas⟩ := exists_cas hop hserv
  obtain ⟨r, hr, hlevel⟩ := hin
  simp only [Cas, hr] at hcas
  split at hcas
  · rw [hcas.2]
    exact ⟨_, rfl, Or.inr (by rw [hupdate r]; exact level_edge hedge hne)⟩
  · rename_i hstate
    rw [hcas.2]
    refine ⟨r, hr, hlevel.imp_right (fun hle => ?_)⟩
    refine Nat.lt_of_le_of_ne hle (fun heq => hstate ?_)
    refine TransferState.eq_of_level (Bool.eq_false_iff.mpr (fun hterminal => hne ?_)) heq
    obtain ⟨e, rfl⟩ := hedge
    exact (transition_of_isTerminal hterminal e).symm

/-- What comes after the target has been called. -/
def PastTarget (s : TransferState) : Prop :=
  s = .targetPending ∨ s = .committed ∨ s = .compensating ∨ s = .rolledBack

/-- What comes after the deposit has failed. -/
def PastDeposit (s : TransferState) : Prop := s = .compensating ∨ s = .rolledBack

lemma pastTarget_edge (s s' : TransferState) (h : PastTarget s) (hedge : Edge s s') :
    PastTarget s' := by
  obtain ⟨e, rfl⟩ := hedge
  rcases h with rfl | rfl | rfl | rfl <;> cases e <;> simp [PastTarget, transition]

lemma pastDeposit_edge (s s' : TransferState) (h : PastDeposit s) (hedge : Edge s s') :
    PastDeposit s' := by
  obtain ⟨e, rfl⟩ := hedge
  rcases h with rfl | rfl <;> cases e <;> simp [PastDeposit, transition]

namespace TransferInv

variable {outcome : ServiceId → AdapterOp → Option Bool}

lemma atLeast (h : TransferInv outcome r₀ b) : b.In (AtLeast 0) := by
  obtain ⟨r, hr, -⟩ := h.saga.row
  exact ⟨r, hr, Or.inr (Nat.zero_le _)⟩

lemma exists_row (h : TransferInv outcome r₀ b) : ∃ r, b.row = some r ∧ SameTransfer r₀ r ∧
    Justified r₀.source r₀.target b r.state := by
  obtain ⟨r, hr, -, -, hjust⟩ := h.saga.row
  exact ⟨r, hr, h.same r hr, hjust⟩

/-- An operation of an adapter has not succeeded and failed. -/
lemma not_both (h : TransferInv outcome r₀ b) {s : ServiceId} {op : AdapterOp}
    (htrue : b.answered s op true = true) (hfalse : b.answered s op false = true) : False := by
  have h₁ := h.agree s op true htrue
  have h₂ := h.agree s op false hfalse
  rw [h₁] at h₂
  simp at h₂

lemma withdraw_failed (h : TransferInv outcome r₀ b) (hin : b.In (AtLeast 1))
    (hfailed : b.answered r₀.source .withdraw false = true) :
    b.Stored .sourcePending ∨ b.Stored .failed := by
  obtain ⟨r, hr, hpast⟩ := hin
  obtain ⟨r', hr', -, hjust⟩ := h.exists_row
  obtain rfl := Option.some.inj (hr.symm.trans hr')
  have hnot : ¬b.answered r₀.source .withdraw true = true := fun htrue => h.not_both htrue hfailed
  cases hs : r.state with
  | init =>
      exact absurd hpast (by simp [AtLeast, hs, TransferState.level, TransferState.isTerminal])
  | sourcePending => exact Or.inl ⟨r, hr, hs⟩
  | failed => exact Or.inr ⟨r, hr, hs⟩
  | sourceDone => exact absurd (by rwa [hs] at hjust) hnot
  | targetPending => exact absurd (by rwa [hs] at hjust) hnot
  | compensating =>
      rw [hs] at hjust
      exact absurd hjust.1 hnot
  | rolledBack =>
      rw [hs] at hjust
      exact absurd hjust.1 hnot
  | committed =>
      rw [hs] at hjust
      exact absurd hjust.1 hnot

lemma deposit_succeeded (h : TransferInv outcome r₀ b) (hin : b.In PastTarget)
    (hdone : b.answered r₀.target .deposit true = true) :
    b.Stored .targetPending ∨ b.Stored .committed := by
  obtain ⟨r, hr, hpast⟩ := hin
  obtain ⟨r', hr', -, hjust⟩ := h.exists_row
  obtain rfl := Option.some.inj (hr.symm.trans hr')
  rcases hpast with hs | hs | hs | hs
  · exact Or.inl ⟨r, hr, hs⟩
  · exact Or.inr ⟨r, hr, hs⟩
  · rw [hs] at hjust
    exact (h.not_both hdone hjust.2).elim
  · rw [hs] at hjust
    exact (h.not_both hdone hjust.2).elim

end TransferInv

end Backend

/-! ## The step functions -/

namespace TransferCoordinator

open Backend

/-- The services, with one outcome for each operation of an adapter. -/
abbrev decided (outcome : ServiceId → AdapterOp → Option Bool) :
    Service Backend TransferOp TransferAns := serves.restrict (Sticky outcome)

/-- An adapter answers what it has done. -/
def Definite : (op : TransferOp) → TransferAns op → Prop
  | .adapter _ _ _, answer => OpResult.definite answer ≠ none
  | _, _ => True

/-- The contract of a program for the transfer, where the adapters may have to answer definitely. -/
abbrev TransferContract {α : Type} (prompt : Prop) (outcome : ServiceId → AdapterOp → Option Bool)
    (r₀ : TransferRecord) (Q : α → Backend → Prop) (p : TransferProg α) (b : Backend) : Prop :=
  Contract ((decided outcome).restrict (fun op a => prompt → Definite op a))
    (TransferInv outcome r₀) SagaStep (Fits r₀) Q p b

/-- What a step that begins on a level promises of the state it returns. -/
structure Ends (prompt : Prop) (n : ℕ) (result : Except String TransferState) (b : Backend) :
    Prop where
  /-- There is one. -/
  found : ∃ state, result = .ok state
  /-- A terminal state is stored. -/
  stored : ∀ state, result = .ok state → state.isTerminal = true → b.Stored state
  /-- The transfer is past the level. -/
  advanced : prompt → b.In (AtLeast (n + 1))

/-- A transfer that can be brought to its end: what has been withdrawn can be given back, and from
Trading no deposit fails. -/
structure Resolvable (outcome : ServiceId → AdapterOp → Option Bool) (r₀ : TransferRecord) :
    Prop where
  trading : r₀.source = .trading → outcome r₀.target .deposit ≠ some false
  rollback : outcome r₀.source .rollback ≠ some false

section Rules

variable {prompt : Prop} {outcome : ServiceId → AdapterOp → Option Bool} {r₀ : TransferRecord}
  {b : Backend} {n : ℕ} {α : Type} {Q : α → Backend → Prop}

lemma contract_live {state : TransferState} (h : state.isTerminal = false)
    (hadvanced : prompt → b.In (AtLeast (n + 1))) :
    TransferContract prompt outcome r₀ (Ends prompt n) (.ret (.ok state)) b := by
  refine Contract.ret (fun b => prompt → b.In (AtLeast (n + 1)))
    (fun _ _ hb hstep hprompt => In.of_step atLeast_edge hstep (hb hprompt)) hadvanced ?_
  refine fun b₁ hb₁ _ => ⟨⟨state, rfl⟩, fun s hs hterminal => ?_, hb₁⟩
  obtain rfl := Except.ok.inj hs
  exact absurd (h.symm.trans hterminal) (by simp)

lemma contract_stored {state : TransferState} (h : b.Stored state)
    (hadvanced : prompt → b.In (AtLeast (n + 1))) :
    TransferContract prompt outcome r₀ (Ends prompt n) (.ret (.ok state)) b := by
  by_cases hterminal : state.isTerminal = true
  · refine Contract.ret (fun b => b.Stored state)
      (fun _ _ hs hstep => Stored.of_step hterminal hstep hs) h
      (fun b₁ hb₁ _ => ⟨⟨state, rfl⟩, ?_, fun _ => ?_⟩)
    · rintro s hs -
      obtain rfl := Except.ok.inj hs
      exact hb₁
    · exact In.of_stored hb₁ (Or.inl hterminal)
  · exact contract_live (Bool.eq_false_iff.mpr hterminal) hadvanced

variable (A : Backend → Prop) (hstable : ∀ b b', A b → SagaStep b b' → A b')
include hstable

lemma contract_get {k : Option TransferRecord → TransferProg α} (hA : A b)
    (h : ∀ b r, A b → TransferInv outcome r₀ b → b.row = some r →
      TransferContract prompt outcome r₀ Q (k (some r)) b) :
    TransferContract prompt outcome r₀ Q (get >>= k) b := by
  refine Contract.perform A hstable hA trivial ?_
  rintro b₁ hA₁ hI r b₂ ⟨⟨⟨rfl, rfl⟩, -⟩, -⟩
  obtain ⟨r, hr, -⟩ := hI.exists_row
  rw [hr]
  exact ⟨hI, SagaStep.refl _, h _ r hA₁ hI hr⟩

/-- A compare-and-set along an edge, from a level the transfer has come to, to a state that is
justified wherever it is applied. -/
lemma contract_cas {op : TransferOp} {expected newState : TransferState}
    {k : TransferAns op → TransferProg α} (hop : op.cas = some (expected, newState)) (hA : A b)
    (hedge : Edge expected newState) (hne : expected ≠ newState)
    (hlevel : ∀ b, A b → b.In (AtLeast expected.level))
    (hjust : ∀ b, A b → Justified r₀.source r₀.target b expected →
      Justified r₀.source r₀.target b newState)
    (hk : ∀ a b b', A b → TransferInv outcome r₀ b → serves b op a b' →
      (b'.Stored newState ↔ b.Stored expected ∨ b.Stored newState) →
        b'.In (AtLeast (expected.level + 1)) → TransferContract prompt outcome r₀ Q (k a) b') :
    TransferContract prompt outcome r₀ Q (Prog.perform op >>= k) b := by
  have hfits : Fits r₀ op := by
    cases op with
    | adapter site service call => exact absurd hop (by simp [TransferOp.cas])
    | _ => trivial
  refine Contract.perform A hstable hA hfits ?_
  rintro b₁ hA₁ hI a b₂ ⟨⟨hserv, hsticky⟩, -⟩
  have hsaga : SagaInv r₀.source r₀.target b₂ ∧ SagaStep b₁ b₂ := by
    cases op with
    | updateStateIf expected' newState' =>
        obtain ⟨rfl, rfl⟩ := Prod.mk.inj (Option.some.inj hop)
        obtain ⟨now, hcas⟩ := hserv
        exact hI.saga.cas hcas (fun r => ⟨rfl, rfl, rfl⟩) hedge (hjust b₁ hA₁)
    | updateStateWithError expected' newState' error =>
        obtain ⟨rfl, rfl⟩ := Prod.mk.inj (Option.some.inj hop)
        obtain ⟨now, hcas⟩ := hserv
        exact hI.saga.cas hcas (fun r => ⟨rfl, rfl, rfl⟩) hedge (hjust b₁ hA₁)
    | get => exact absurd hop (by simp [TransferOp.cas])
    | incrementRetry => exact absurd hop (by simp [TransferOp.cas])
    | adapter site service call => exact absurd hop (by simp [TransferOp.cas])
  exact ⟨⟨hsaga.1, agree_of_serves ⟨hserv, hsticky⟩ hI.agree,
    sameTransfer_of_serves hserv hI.same⟩, hsaga.2,
    hk a b₁ b₂ hA₁ hI hserv (stored_of_cas hop hserv)
      (past_of_cas hop hserv hedge hne (hlevel b₁ hA₁))⟩

/-- A compare-and-set to a terminal state, from a state the worker knows the transfer to be in
unless it is there already, and the terminal state returned. -/
lemma contract_settle {op : TransferOp} {expected newState : TransferState}
    {k : TransferAns op → TransferProg (Except String TransferState)}
    (hop : op.cas = some (expected, newState)) (hA : A b) (hedge : Edge expected newState)
    (hne : expected ≠ newState) (hn : n ≤ expected.level)
    (hlevel : ∀ b, A b → b.In (AtLeast expected.level))
    (hjust : ∀ b, A b → Justified r₀.source r₀.target b expected →
      Justified r₀.source r₀.target b newState)
    (hknown : ∀ b, A b → TransferInv outcome r₀ b → b.Stored expected ∨ b.Stored newState)
    (hk : ∀ a, k a = .ret (.ok newState)) :
    TransferContract prompt outcome r₀ (Ends prompt n) (Prog.perform op >>= k) b := by
  refine contract_cas A hstable hop hA hedge hne hlevel hjust
    (fun a b b' hA₁ hI _ hstored hpast => ?_)
  rw [hk a]
  exact contract_stored (hstored.mpr (hknown b hA₁ hI)) (fun _ => hpast.lower (Nat.succ_le_succ hn))

/-- A compare-and-set to a state that is returned and not terminal. -/
lemma contract_enter {op : TransferOp} {expected newState : TransferState}
    {k : TransferAns op → TransferProg (Except String TransferState)}
    (hop : op.cas = some (expected, newState)) (hA : A b) (hedge : Edge expected newState)
    (hne : expected ≠ newState) (hn : n ≤ expected.level)
    (hlevel : ∀ b, A b → b.In (AtLeast expected.level))
    (hjust : ∀ b, A b → Justified r₀.source r₀.target b expected →
      Justified r₀.source r₀.target b newState)
    (hlive : newState.isTerminal = false) (hk : ∀ a, k a = .ret (.ok newState)) :
    TransferContract prompt outcome r₀ (Ends prompt n) (Prog.perform op >>= k) b := by
  refine contract_cas A hstable hop hA hedge hne hlevel hjust (fun a b b' _ _ _ _ hpast => ?_)
  rw [hk a]
  exact contract_live hlive (fun _ => hpast.lower (Nat.succ_le_succ hn))

lemma contract_call {site : TransferState} {service : ServiceId} {c : AdapterCall}
    {k : OpResult → TransferProg α} (hA : A b) (hfits : Fits r₀ (.adapter site service c))
    (hrollback : c.op = .rollback → ∀ b, A b → b.answered r₀.target .deposit false = true)
    (hcommit : c.op = .commit → ∀ b, A b → b.answered r₀.target .deposit true = true)
    (hk : ∀ answer b, A b → TransferInv outcome r₀ b → (prompt → answer.definite ≠ none) →
      (∀ d, answer.definite = some d → b.answered service c.op d = true) →
        b.called service c.op = true → TransferContract prompt outcome r₀ Q (k answer) b) :
    TransferContract prompt outcome r₀ Q (call site service c >>= k) b := by
  refine Contract.perform A hstable hA hfits ?_
  rintro b₁ hA₁ hI answer b₂ ⟨⟨hserv, hsticky⟩, hdefinite⟩
  have hsame := sameTransfer_of_serves hserv hI.same
  have hagree := agree_of_serves ⟨hserv, hsticky⟩ hI.agree
  obtain rfl : b₂ = b₁.afterCall service c.op answer := hserv
  have hstep := sagaStep_afterCall b₁ service c.op answer
  obtain ⟨hcalled, hanswered, -⟩ := afterCall_spec b₁ service c.op answer
  have hI₂ : TransferInv outcome r₀ (b₁.afterCall service c.op answer) :=
    ⟨hI.saga.afterCall answer (fun h => hrollback h b₁ hA₁) (fun h => hcommit h b₁ hA₁), hagree,
      hsame⟩
  exact ⟨hI₂, hstep,
    hk answer _ (hstable _ _ hA₁ hstep) hI₂ hdefinite hanswered hcalled⟩

end Rules

section Steps

variable {prompt : Prop} {outcome : ServiceId → AdapterOp → Option Bool}
  {r₀ record : TransferRecord} {b : Backend} {n : ℕ}

/-- The state of the row after a compare-and-set that was not applied. -/
lemma contract_currentState (h : b.In (AtLeast (n + 1))) :
    TransferContract prompt outcome r₀ (Ends prompt n) currentState b :=
  contract_get (fun b => b.In (AtLeast (n + 1)))
    (fun _ _ h hstep => In.of_step atLeast_edge hstep h) h
    (fun _ r h _ hr => contract_stored ⟨r, hr, rfl⟩ (fun _ => h))

lemma stored_of_applied {b' : Backend} {expected newState : TransferState}
    (hI : TransferInv outcome r₀ b) (hserv : serves b (.updateStateIf expected newState) true b') :
    b.Stored expected := by
  obtain ⟨now, hcas⟩ := hserv
  obtain ⟨r, hr, -⟩ := hI.exists_row
  simp only [Cas, hr] at hcas
  split at hcas
  · rename_i heq
    exact ⟨r, hr, heq⟩
  · exact absurd hcas.1 (by simp)

/-- What a worker knows: the answer of an adapter, and how far the transfer is. -/
abbrev Knows (s : ServiceId) (op : AdapterOp) (d : Bool) (S : TransferState → Prop) (b : Backend) :
    Prop := b.answered s op d = true ∧ b.In S

lemma knows_step {s : ServiceId} {op : AdapterOp} {d : Bool} {S : TransferState → Prop}
    (hS : ∀ s s', S s → Edge s s' → S s') (b b' : Backend) (h : Knows s op d S b)
    (hstep : SagaStep b b') : Knows s op d S b' :=
  ⟨hstep.answered _ _ _ h.1, In.of_step hS hstep h.2⟩

lemma atLeast_of_pastTarget (h : b.In PastTarget) : b.In (AtLeast 3) := by
  obtain ⟨r, hr, hpast⟩ := h
  refine ⟨r, hr, ?_⟩
  rcases hpast with hs | hs | hs | hs <;> simp [AtLeast, hs, TransferState.level]

lemma atLeast_of_pastDeposit (h : b.In PastDeposit) : b.In (AtLeast 4) := by
  obtain ⟨r, hr, hpast⟩ := h
  refine ⟨r, hr, ?_⟩
  rcases hpast with hs | hs <;> simp [AtLeast, hs, TransferState.level]

lemma contract_afterWithdraw {result : OpResult} (hn : n ≤ 1) (hin : b.In (AtLeast 1))
    (hdefinite : prompt → result.definite ≠ none)
    (h : ∀ d, result.definite = some d → b.answered r₀.source .withdraw d = true) :
    TransferContract prompt outcome r₀ (Ends prompt n) (afterWithdraw result) b := by
  cases result with
  | success =>
      exact contract_enter _ (knows_step atLeast_edge) rfl ⟨h true rfl, hin⟩ ⟨.sourceOk, rfl⟩
        (by simp) hn (fun _ hA => hA.2) (fun _ hA _ => hA.1) rfl (fun _ => rfl)
  | failed e =>
      exact contract_settle _ (knows_step atLeast_edge) rfl ⟨h false rfl, hin⟩ ⟨.sourceFail, rfl⟩
        (by simp) hn (fun _ hA => hA.2) (fun _ hA _ => hA.1)
        (fun _ hA hI => hI.withdraw_failed hA.2 hA.1) (fun _ => rfl)
  | pending => exact contract_live rfl (fun hprompt => absurd rfl (hdefinite hprompt))

lemma contract_withdraw {site : TransferState} (hn : n ≤ 1) (hsame : SameTransfer r₀ record)
    (hin : b.In (AtLeast 1)) :
    TransferContract prompt outcome r₀ (Ends prompt n) (withdraw site record >>= afterWithdraw)
      b := by
  refine contract_call (fun b => b.In (AtLeast 1))
    (fun _ _ h hstep => In.of_step atLeast_edge hstep h) hin (Or.inl ⟨hsame.source, Or.inl ?_⟩)
    (fun h => by cases h) (fun h => by cases h) (fun _ _ hin _ hdefinite hanswered _ =>
      contract_afterWithdraw hn hin hdefinite (hsame.source ▸ hanswered))
  rw [hsame.userId, hsame.assetId, hsame.amount]

lemma contract_stepInit (hsame : SameTransfer r₀ record) (hin : b.In (AtLeast 0)) :
    TransferContract prompt outcome r₀ (Ends prompt 0) (stepInit record) b := by
  refine contract_cas (fun b => b.In (AtLeast 0))
    (fun _ _ h hstep => In.of_step atLeast_edge hstep h)
    (rfl : (TransferOp.updateStateIf .init .sourcePending).cas = _) hin ⟨.sourceCall, rfl⟩ (by simp)
    (fun _ h => h) (fun _ _ _ => trivial) (fun applied b b' _ hI hserv hstored hpast => ?_)
  cases applied with
  | false => exact contract_currentState hpast
  | true =>
      have hpending := hstored.mpr (Or.inl (stored_of_applied hI hserv))
      exact contract_withdraw (by simp) hsame (In.of_stored hpending (Or.inr (Nat.le_refl _)))

lemma contract_commitTransfer {site : TransferState} (hn : n ≤ 3) (hsame : SameTransfer r₀ record)
    (h : Knows r₀.target .deposit true PastTarget b) :
    TransferContract prompt outcome r₀ (Ends prompt n) (commitTransfer site record) b := by
  show TransferContract prompt outcome r₀ (Ends prompt n)
    (call site record.source .commit >>= fun _ =>
      updateStateIf .targetPending .committed >>= fun _ =>
        (pure (.ok .committed) : TransferProg (Except String TransferState))) b
  refine contract_call _ (knows_step pastTarget_edge) h
    (Or.inl ⟨hsame.source, Or.inr (Or.inl rfl)⟩) (fun h => by cases h) (fun _ _ hA => hA.1)
    (fun _ b hA _ _ _ hcalled => ?_)
  rw [hsame.source] at hcalled
  exact contract_settle (fun b => Knows r₀.target .deposit true PastTarget b ∧
      b.called r₀.source .commit = true)
    (fun b b' h hstep => ⟨knows_step pastTarget_edge b b' h.1 hstep, hstep.called _ _ h.2⟩) rfl
    ⟨hA, hcalled⟩ ⟨.targetOk, rfl⟩ (by simp) hn (fun _ hA => atLeast_of_pastTarget hA.1.2)
    (fun _ hA hw => ⟨hw, hA.1.1, hA.2⟩) (fun _ hA hI => hI.deposit_succeeded hA.1.2 hA.1.1)
    (fun _ => rfl)

lemma contract_compensate {e : String} (hn : n ≤ 3)
    (h : Knows r₀.target .deposit false PastTarget b) :
    TransferContract prompt outcome r₀ (Ends prompt n)
      (updateStateWithError .targetPending .compensating e >>= fun _ =>
        (pure (.ok .compensating) : TransferProg (Except String TransferState))) b :=
  contract_enter _ (knows_step pastTarget_edge) rfl h ⟨.targetFail, rfl⟩ (by simp) hn
    (fun _ hA => atLeast_of_pastTarget hA.2) (fun _ hA hw => ⟨hw, hA.1⟩) rfl (fun _ => rfl)

/-- A deposit, with what is done in the two definite cases. -/
lemma contract_deposit {site : TransferState}
    {k : OpResult → TransferProg (Except String TransferState)} (hsame : SameTransfer r₀ record)
    (hin : b.In PastTarget)
    (hsuccess : ∀ b, Knows r₀.target .deposit true PastTarget b →
      TransferContract prompt outcome r₀ (Ends prompt n) (k .success) b)
    (hfailed : ∀ e b, TransferInv outcome r₀ b → Knows r₀.target .deposit false PastTarget b →
      TransferContract prompt outcome r₀ (Ends prompt n) (k (.failed e)) b)
    (hpending : ∀ b, ¬prompt →
      TransferContract prompt outcome r₀ (Ends prompt n) (k .pending) b) :
    TransferContract prompt outcome r₀ (Ends prompt n) (deposit site record >>= k) b := by
  refine contract_call (fun b => b.In PastTarget)
    (fun _ _ h hstep => In.of_step pastTarget_edge hstep h) hin (Or.inr ⟨hsame.target, ?_⟩)
    (fun h => by cases h) (fun h => by cases h) (fun answer b hin hI hdefinite hanswered _ => ?_)
  · rw [hsame.userId, hsame.assetId, hsame.amount]
  · rw [hsame.target] at hanswered
    cases answer with
    | success => exact hsuccess b ⟨hanswered true rfl, hin⟩
    | failed e => exact hfailed e b hI ⟨hanswered false rfl, hin⟩
    | pending => exact hpending b (fun hprompt => hdefinite hprompt rfl)

lemma contract_stepSourceDone (hsame : SameTransfer r₀ record) (hin : b.In (AtLeast 2)) :
    TransferContract prompt outcome r₀ (Ends prompt 2) (stepSourceDone record) b := by
  refine contract_cas (fun b => b.In (AtLeast 2))
    (fun _ _ h hstep => In.of_step atLeast_edge hstep h)
    (rfl : (TransferOp.updateStateIf .sourceDone .targetPending).cas = _) hin ⟨.targetCall, rfl⟩
    (by simp)
    (fun _ h => h) (fun _ _ hw => hw) (fun applied b b' _ hI hserv hstored hpast => ?_)
  cases applied with
  | false => exact contract_currentState hpast
  | true =>
      have hpending := hstored.mpr (Or.inl (stored_of_applied hI hserv))
      exact contract_deposit hsame (In.of_stored hpending (Or.inl rfl))
        (fun _ h => contract_commitTransfer (by simp) hsame h)
        (fun _ _ _ h => contract_compensate (by simp) h)
        (fun _ hprompt => contract_live rfl (fun h => absurd h hprompt))

variable (hresolvable : prompt → Resolvable outcome r₀)
include hresolvable

lemma contract_stepTargetPending (hsame : SameTransfer r₀ record) (hin : b.In PastTarget) :
    TransferContract prompt outcome r₀ (Ends prompt 3) (stepTargetPending record) b := by
  refine contract_deposit hsame hin (fun _ h => contract_commitTransfer (Nat.le_refl _) hsame h)
    (fun e b hI h => ?_) (fun _ hprompt => contract_live rfl (fun h => absurd h hprompt))
  show TransferContract prompt outcome r₀ (Ends prompt 3)
    (if record.source = .trading then _ else _) b
  split
  · rename_i htrading
    refine contract_live rfl (fun hprompt => ?_)
    exact absurd (hI.agree _ _ _ h.1)
      ((hresolvable hprompt).trading (hsame.source.symm.trans htrading))
  · exact contract_compensate (Nat.le_refl _) h

lemma contract_stepCompensating (hsame : SameTransfer r₀ record)
    (h : Knows r₀.target .deposit false PastDeposit b) :
    TransferContract prompt outcome r₀ (Ends prompt 4) (stepCompensating record) b := by
  refine contract_call _ (knows_step pastDeposit_edge) h
    (Or.inl ⟨hsame.source, Or.inr (Or.inr rfl)⟩) (fun _ _ hA => hA.1) (fun h => by cases h)
    (fun answer b hA hI hdefinite hanswered _ => ?_)
  cases answer with
  | success =>
      exact contract_settle _ (knows_step pastDeposit_edge) rfl hA ⟨.rollbackOk, rfl⟩ (by simp)
        (Nat.le_refl _) (fun _ hA => atLeast_of_pastDeposit hA.2) (fun _ _ hw => hw)
        (fun _ hA _ => hA.2.elim fun r hr => hr.2.imp (⟨r, hr.1, ·⟩) (⟨r, hr.1, ·⟩))
        (fun _ => rfl)
  | failed e =>
      refine contract_live rfl (fun hprompt => ?_)
      have hfalse := hanswered false rfl
      rw [hsame.source] at hfalse
      exact absurd (hI.agree _ _ _ hfalse) (hresolvable hprompt).rollback
  | pending => exact contract_live rfl (fun hprompt => absurd rfl (hdefinite hprompt))

/-- **The contract of a step**: a terminal state it returns is stored, and with definite answers the
transfer gets past the level it was on. -/
lemma contract_step (reqId : UInt64) (hin : b.In (AtLeast n)) :
    TransferContract prompt outcome r₀ (Ends prompt n) (step reqId) b := by
  refine contract_get (fun b => b.In (AtLeast n))
    (fun _ _ h hstep => In.of_step atLeast_edge hstep h) hin (fun b record hA hI hrow => ?_)
  have hsame := hI.same record hrow
  obtain ⟨r, hr, -, hjust⟩ := hI.exists_row
  obtain rfl := Option.some.inj (hr.symm.trans hrow)
  show TransferContract prompt outcome r₀ (Ends prompt n)
    (if r.state.isTerminal = true then _ else _) b
  split
  · rename_i hterminal
    exact contract_stored ⟨r, hrow, rfl⟩ (fun _ => ⟨r, hrow, Or.inl hterminal⟩)
  · rename_i hlive
    -- the level of a live transfer is the one it was on, or a later one
    have hn : n ≤ r.state.level := by
      obtain ⟨r', hr', hlevel⟩ := hA
      obtain rfl := Option.some.inj (hr.symm.trans hr')
      exact hlevel.resolve_left hlive
    refine Contract.bind (Q := Ends prompt r.state.level) hI ?_ (fun result b _ _ hresult => ?_)
    · unfold stepFrom
      cases hstate : r.state with
      | init => exact contract_stepInit hsame ⟨r, hrow, Or.inr (Nat.zero_le _)⟩
      | sourcePending =>
          exact contract_withdraw (Nat.le_refl _) hsame
            (In.of_stored ⟨r, hrow, hstate⟩ (Or.inr (Nat.le_refl _)))
      | sourceDone =>
          exact contract_stepSourceDone hsame
            (In.of_stored ⟨r, hrow, hstate⟩ (Or.inr (Nat.le_refl _)))
      | targetPending =>
          exact contract_stepTargetPending hresolvable hsame ⟨r, hrow, Or.inl hstate⟩
      | compensating =>
          rw [hstate] at hjust
          exact contract_stepCompensating hresolvable hsame ⟨hjust.2, r, hrow, Or.inl hstate⟩
      | committed => exact absurd (by rw [hstate]; rfl) hlive
      | rolledBack => exact absurd (by rw [hstate]; rfl) hlive
      | failed => exact absurd (by rw [hstate]; rfl) hlive
    · -- what the step function promises still holds after the retry counter is written
      have hends : ∀ b₁, Relation.ReflTransGen SagaStep b b₁ → TransferInv outcome r₀ b₁ →
          Ends prompt n result b₁ := fun b₁ hs hI =>
        ⟨(hresult b₁ hs hI).found, (hresult b₁ hs hI).stored,
          fun hprompt => ((hresult b₁ hs hI).advanced hprompt).lower (Nat.succ_le_succ hn)⟩
      cases result with
      | error e => exact hends
      | ok newState =>
          show TransferContract prompt outcome r₀ (Ends prompt n)
            (if (!newState.isTerminal && decide (newState = r.state)) = true then _ else _) b
          split
          · refine ⟨trivial, ?_⟩
            rintro b₁ hs hI₁ ⟨⟩ b₂ ⟨⟨⟨now, rfl⟩, hsticky⟩, -⟩
            obtain ⟨hsaga, hstep⟩ := hI₁.saga.retried now
            have hserv : serves b₁ .incrementRetry () (b₁.retried now) := ⟨now, rfl⟩
            exact ⟨⟨hsaga, agree_of_serves ⟨hserv, hsticky⟩ hI₁.agree,
              sameTransfer_of_serves hserv hI₁.same⟩, hstep,
              fun b₃ hs₃ => hends b₃ ((hs.tail hstep).trans hs₃)⟩
          · exact hends

end Steps

end TransferCoordinator

end ExchangeCore
