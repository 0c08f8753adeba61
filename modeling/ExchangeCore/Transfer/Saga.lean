import ExchangeCore.Transfer.Coordinator

/-!
# The transfer saga

What holds of a transfer however many workers run `TransferCoordinator::step` on it, in whatever
order their operations come, wherever they crash and whatever the adapters answer.

`Justified` says which answers the adapters must have given for the row to be in a state, and
`SagaInv` that they have, that a rollback is only called once a deposit has failed and a commit only
once one has succeeded.  A worker works on a copy of the row that may be long out of date; what it
takes from the copy and from earlier answers is that they have been given, which is stable, and the
compare-and-set supplies the rest.

That much holds whatever the adapters answer.  If each operation has one outcome per request and a
definite answer never contradicts it (`Sticky`), the answers that have been given exclude the
others, and the transfer is safe (`saga_safety`).

`finalize_source_commit` does nothing about an answer that is no success.  So a committed transfer
has a committed source only as long as all commits succeed (`committed_after_commit`).
-/

namespace ExchangeCore

namespace Backend

variable {b b' : Backend} {src tgt : ServiceId}

/-! ## The invariant and the guarantee -/

/-- One state may follow another by an event of the state machine. -/
def Edge (s s' : TransferState) : Prop := ∃ e, transition s e = s'

/-- The answers that lead to a state. -/
def Justified (src tgt : ServiceId) (b : Backend) : TransferState → Prop
  | .init | .sourcePending => True
  | .sourceDone | .targetPending => b.answered src .withdraw true = true
  | .compensating | .rolledBack =>
      b.answered src .withdraw true = true ∧ b.answered tgt .deposit false = true
  | .committed =>
      b.answered src .withdraw true = true ∧ b.answered tgt .deposit true = true ∧
        b.called src .commit = true
  | .failed => b.answered src .withdraw false = true

/-- **The invariant of the saga.** -/
structure SagaInv (src tgt : ServiceId) (b : Backend) : Prop where
  row : ∃ r, b.row = some r ∧ r.source = src ∧ r.target = tgt ∧ Justified src tgt b r.state
  rollback : b.called src .rollback = true → b.answered tgt .deposit false = true
  commit : b.called src .commit = true → b.answered tgt .deposit true = true
  answered : ∀ s op d, b.answered s op d = true → b.called s op = true

/-- **The guarantee of every step**: the row keeps its services and moves along the edges of the
state machine, and what has been called and answered stays so. -/
structure SagaStep (b b' : Backend) : Prop where
  row : ∀ r, b.row = some r → ∃ r', b'.row = some r' ∧ r'.source = r.source ∧
    r'.target = r.target ∧ (r'.state = r.state ∨ Edge r.state r'.state)
  called : ∀ s op, b.called s op = true → b'.called s op = true
  answered : ∀ s op d, b.answered s op d = true → b'.answered s op d = true

lemma SagaStep.refl (b : Backend) : SagaStep b b where
  row r hr := ⟨r, hr, rfl, rfl, Or.inl rfl⟩
  called _ _ h := h
  answered _ _ _ h := h

/-- What justifies a state keeps justifying it. -/
lemma Justified.mono {s : TransferState} (h : Justified src tgt b s) (hstep : SagaStep b b') :
    Justified src tgt b' s := by
  cases s with
  | init => trivial
  | sourcePending => trivial
  | sourceDone => exact hstep.answered _ _ _ h
  | targetPending => exact hstep.answered _ _ _ h
  | compensating => exact ⟨hstep.answered _ _ _ h.1, hstep.answered _ _ _ h.2⟩
  | committed =>
      exact ⟨hstep.answered _ _ _ h.1, hstep.answered _ _ _ h.2.1, hstep.called _ _ h.2.2⟩
  | rolledBack => exact ⟨hstep.answered _ _ _ h.1, hstep.answered _ _ _ h.2⟩
  | failed => exact hstep.answered _ _ _ h

/-! ## One operation -/

/-- A compare-and-set leaves the adapters alone. -/
lemma Cas.keeps {expected : TransferState} {update : TransferRecord → TransferRecord}
    {applied : Bool} (hcas : b.Cas expected update applied b') :
    b'.called = b.called ∧ b'.answered = b.answered := by
  unfold Cas at hcas
  split at hcas
  · rw [hcas.2]
    exact ⟨rfl, rfl⟩
  · split at hcas
    · rw [hcas.2]
      exact ⟨rfl, rfl⟩
    · rw [hcas.2]
      exact ⟨rfl, rfl⟩

/-- A compare-and-set along an edge to a state that is justified wherever it is applied. -/
lemma SagaInv.cas {expected newState : TransferState} {update : TransferRecord → TransferRecord}
    {applied : Bool} (h : SagaInv src tgt b) (hcas : b.Cas expected update applied b')
    (hupdate : ∀ r, (update r).source = r.source ∧ (update r).target = r.target ∧
      (update r).state = newState)
    (hedge : Edge expected newState)
    (hjust : Justified src tgt b expected → Justified src tgt b newState) :
    SagaInv src tgt b' ∧ SagaStep b b' := by
  obtain ⟨r, hr, hsrc, htgt, hstate⟩ := h.row
  simp only [Cas, hr] at hcas
  split at hcas
  · rename_i heq
    obtain ⟨-, rfl⟩ := hcas
    obtain ⟨hs, ht, hn⟩ := hupdate r
    have hstep : SagaStep b { b with row := some (update r) } := by
      refine ⟨fun r₀ hr₀ => ?_, fun _ _ h => h, fun _ _ _ h => h⟩
      obtain rfl := Option.some.inj (hr₀.symm.trans hr)
      exact ⟨_, rfl, hs, ht, Or.inr (by rw [hn, heq]; exact hedge)⟩
    refine ⟨⟨⟨_, rfl, hs.trans hsrc, ht.trans htgt, ?_⟩, h.rollback, h.commit, h.answered⟩, hstep⟩
    rw [hn]
    exact (hjust (heq ▸ hstate)).mono hstep
  · rw [hcas.2]
    exact ⟨h, SagaStep.refl b⟩

lemma afterCall_spec (b : Backend) (service : ServiceId) (op : AdapterOp) (answer : OpResult) :
    (b.afterCall service op answer).called service op = true ∧
      (∀ d, answer.definite = some d →
        (b.afterCall service op answer).answered service op d = true) ∧
      ∀ s p, ¬(s = service ∧ p = op) →
        (b.afterCall service op answer).called s p = b.called s p ∧
          ∀ d, (b.afterCall service op answer).answered s p d = b.answered s p d := by
  refine ⟨by simp [afterCall], fun d hd => by simp [afterCall, hd], fun s p hne => ⟨if_neg hne, ?_⟩⟩
  exact fun d => if_neg (fun h => hne ⟨h.1, h.2.1⟩)

lemma sagaStep_afterCall (b : Backend) (service : ServiceId) (op : AdapterOp)
    (answer : OpResult) : SagaStep b (b.afterCall service op answer) where
  row r hr := ⟨r, hr, rfl, rfl, Or.inl rfl⟩
  called s p h := by
    simp only [afterCall]
    split
    · rfl
    · exact h
  answered s p d h := by
    simp only [afterCall]
    split
    · rfl
    · exact h

/-- A call that is no rollback before the deposit has failed and no commit before it has
succeeded. -/
lemma SagaInv.afterCall {service : ServiceId} {op : AdapterOp} (answer : OpResult)
    (h : SagaInv src tgt b)
    (hrollback : op = .rollback → b.answered tgt .deposit false = true)
    (hcommit : op = .commit → b.answered tgt .deposit true = true) :
    SagaInv src tgt (b.afterCall service op answer) := by
  have hstep := sagaStep_afterCall b service op answer
  obtain ⟨hcalled, -, hothers⟩ := afterCall_spec b service op answer
  obtain ⟨r, hr, hsrc, htgt, hstate⟩ := h.row
  refine ⟨⟨r, hr, hsrc, htgt, hstate.mono hstep⟩, fun hc => ?_, fun hc => ?_, fun s p d hd => ?_⟩
  · by_cases heq : op = .rollback
    · exact hstep.answered _ _ _ (hrollback heq)
    · rw [(hothers _ _ (fun h => heq h.2.symm)).1] at hc
      exact hstep.answered _ _ _ (h.rollback hc)
  · by_cases heq : op = .commit
    · exact hstep.answered _ _ _ (hcommit heq)
    · rw [(hothers _ _ (fun h => heq h.2.symm)).1] at hc
      exact hstep.answered _ _ _ (h.commit hc)
  · by_cases heq : s = service ∧ p = op
    · rw [heq.1, heq.2]
      exact hcalled
    · obtain ⟨hcalled', hanswered'⟩ := hothers s p heq
      rw [hanswered'] at hd
      rw [hcalled']
      exact h.answered s p d hd

/-- The retry counter does not matter. -/
lemma SagaInv.retried (h : SagaInv src tgt b) (now : Int64) :
    SagaInv src tgt (b.retried now) ∧ SagaStep b (b.retried now) := by
  obtain ⟨r, hr, hsrc, htgt, hstate⟩ := h.row
  have hrow : (b.retried now).row =
      some { r with retryCount := r.retryCount + 1, updatedAt := now } := by
    rw [Backend.retried, hr]
    rfl
  have hstep : SagaStep b (b.retried now) := by
    refine ⟨fun r₀ hr₀ => ?_, fun _ _ h => h, fun _ _ _ h => h⟩
    obtain rfl := Option.some.inj (hr₀.symm.trans hr)
    exact ⟨_, hrow, rfl, rfl, Or.inl rfl⟩
  exact ⟨⟨⟨_, hrow, hsrc, htgt, hstate.mono hstep⟩, h.rollback, h.commit, h.answered⟩, hstep⟩

end Backend

/-! ## The step functions are safe -/

namespace TransferCoordinator

open Backend

/-- Safe for the saga between these services. -/
abbrev SagaSafe {α : Type} (src tgt : ServiceId) (p : TransferProg α) (b : Backend) : Prop :=
  Safe serves (SagaInv src tgt) SagaStep p b

section Rules

variable {src tgt : ServiceId} {α : Type} {b : Backend}

lemma safe_get {k : Option TransferRecord → TransferProg α}
    (h : ∀ b, SagaInv src tgt b → SagaSafe src tgt (k b.row) b) :
      SagaSafe src tgt (get >>= k) b := by
  refine Safe.perform (fun _ => True) (fun _ _ _ _ => trivial) trivial ?_
  rintro b₁ - hI r b₂ ⟨rfl, rfl⟩
  exact ⟨hI, SagaStep.refl _, h _ hI⟩

variable (A : Backend → Prop) (hstable : ∀ b b', A b → SagaStep b b' → A b')
include hstable

/-- A compare-and-set, by a worker that knows `A`. -/
lemma safe_updateStateIf {expected newState : TransferState} {k : Bool → TransferProg α}
    (hA : A b) (hedge : Edge expected newState)
    (hjust : ∀ b, A b → Justified src tgt b expected → Justified src tgt b newState)
    (hk : ∀ applied b, A b → SagaSafe src tgt (k applied) b) :
    SagaSafe src tgt (updateStateIf expected newState >>= k) b := by
  refine Safe.perform A hstable hA ?_
  rintro b₁ hA₁ hI applied b₂ ⟨now, hcas⟩
  obtain ⟨hI₂, hstep⟩ := hI.cas hcas (fun r => ⟨rfl, rfl, rfl⟩) hedge (hjust b₁ hA₁)
  exact ⟨hI₂, hstep, hk applied b₂ (hstable _ _ hA₁ hstep)⟩

lemma safe_updateStateWithError {expected newState : TransferState} {error : String}
    {k : Bool → TransferProg α} (hA : A b) (hedge : Edge expected newState)
    (hjust : ∀ b, A b → Justified src tgt b expected → Justified src tgt b newState)
    (hk : ∀ applied b, A b → SagaSafe src tgt (k applied) b) :
    SagaSafe src tgt (updateStateWithError expected newState error >>= k) b := by
  refine Safe.perform A hstable hA ?_
  rintro b₁ hA₁ hI applied b₂ ⟨now, hcas⟩
  obtain ⟨hI₂, hstep⟩ := hI.cas hcas (fun r => ⟨rfl, rfl, rfl⟩) hedge (hjust b₁ hA₁)
  exact ⟨hI₂, hstep, hk applied b₂ (hstable _ _ hA₁ hstep)⟩

lemma safe_call {site : TransferState} {service : ServiceId} {c : AdapterCall}
    {k : OpResult → TransferProg α} (hA : A b)
    (hrollback : c.op = .rollback → ∀ b, A b → b.answered tgt .deposit false = true)
    (hcommit : c.op = .commit → ∀ b, A b → b.answered tgt .deposit true = true)
    (hk : ∀ answer b, A b → (∀ d, answer.definite = some d → b.answered service c.op d = true) →
      b.called service c.op = true → SagaSafe src tgt (k answer) b) :
    SagaSafe src tgt (call site service c >>= k) b := by
  refine Safe.perform A hstable hA ?_
  rintro b₁ hA₁ hI answer b₂ rfl
  have hstep := sagaStep_afterCall b₁ service c.op answer
  obtain ⟨hcalled, hanswered, -⟩ := afterCall_spec b₁ service c.op answer
  exact ⟨hI.afterCall answer (fun h => hrollback h b₁ hA₁) (fun h => hcommit h b₁ hA₁), hstep,
    hk answer _ (hstable _ _ hA₁ hstep) hanswered hcalled⟩

end Rules

section Steps

variable {src tgt : ServiceId} {b : Backend} {record : TransferRecord}

lemma answered_stable (s : ServiceId) (op : AdapterOp) (d : Bool) (b b' : Backend)
    (h : b.answered s op d = true) (hstep : SagaStep b b') : b'.answered s op d = true :=
  hstep.answered _ _ _ h

lemma safe_currentState : SagaSafe src tgt currentState b := by
  refine safe_get (fun b _ => ?_)
  cases b.row <;> trivial

/-- A definite answer of the source decides between the next state and failure. -/
lemma safe_afterWithdraw {result : OpResult}
    (h : ∀ d, result.definite = some d → b.answered src .withdraw d = true) :
    SagaSafe src tgt (afterWithdraw result) b := by
  cases result with
  | success =>
      exact safe_updateStateIf _ (answered_stable src .withdraw true) (h true rfl) ⟨.sourceOk, rfl⟩
        (fun _ hA _ => hA) (fun _ _ _ => trivial)
  | failed e =>
      exact safe_updateStateWithError _ (answered_stable src .withdraw false) (h false rfl)
        ⟨.sourceFail, rfl⟩ (fun _ hA _ => hA) (fun _ _ _ => trivial)
  | pending => trivial

lemma safe_withdraw {site : TransferState} (hsrc : record.source = src) :
    SagaSafe src tgt (withdraw site record >>= afterWithdraw) b := by
  subst hsrc
  refine safe_call (fun _ => True) (fun _ _ _ _ => trivial) trivial (fun h => ?_) (fun h => ?_)
    (fun _ _ _ hanswered _ => safe_afterWithdraw hanswered)
  · cases h
  · cases h

lemma safe_stepInit (hsrc : record.source = src) : SagaSafe src tgt (stepInit record) b := by
  refine safe_updateStateIf (fun _ => True) (fun _ _ _ _ => trivial) trivial ⟨.sourceCall, rfl⟩
    (fun _ _ _ => trivial) (fun applied b _ => ?_)
  cases applied with
  | false => exact safe_currentState
  | true => exact safe_withdraw hsrc

lemma safe_stepSourcePending (hsrc : record.source = src) :
    SagaSafe src tgt (stepSourcePending record) b := safe_withdraw hsrc

/-- Once the deposit is known to have succeeded, the transfer is committed, after a call of
`commit`. -/
lemma safe_commitTransfer {site : TransferState} (hsrc : record.source = src)
    (h : b.answered tgt .deposit true = true) :
    SagaSafe src tgt (commitTransfer site record) b := by
  subst hsrc
  show SagaSafe record.source tgt (call site record.source .commit >>= fun _ =>
    updateStateIf .targetPending .committed >>= fun _ =>
      (pure (.ok .committed) : TransferProg (Except String TransferState))) b
  refine safe_call _ (answered_stable tgt .deposit true) h (fun h => ?_) (fun _ _ hA => hA) ?_
  · cases h
  · intro _ b hdeposit _ hcalled
    refine safe_updateStateIf
      (fun b => b.answered tgt .deposit true = true ∧ b.called record.source .commit = true)
      (fun _ _ hA hstep => ⟨hstep.answered _ _ _ hA.1, hstep.called _ _ hA.2⟩) ⟨hdeposit, hcalled⟩
      ⟨.targetOk, rfl⟩ (fun _ hA hw => ⟨hw, hA.1, hA.2⟩) (fun _ _ _ => trivial)

lemma safe_compensate {e : String} (h : b.answered tgt .deposit false = true) :
    SagaSafe src tgt (updateStateWithError .targetPending .compensating e >>= fun _ =>
      (pure (.ok .compensating) : TransferProg (Except String TransferState))) b :=
  safe_updateStateWithError _ (answered_stable tgt .deposit false) h ⟨.targetFail, rfl⟩
    (fun _ hA hw => ⟨hw, hA⟩) (fun _ _ _ => trivial)

/-- A deposit, with what is done in the two definite cases. -/
lemma safe_deposit {site : TransferState}
    {k : OpResult → TransferProg (Except String TransferState)} (htgt : record.target = tgt)
    (hsuccess : ∀ b, b.answered tgt .deposit true = true → SagaSafe src tgt (k .success) b)
    (hfailed : ∀ e b, b.answered tgt .deposit false = true → SagaSafe src tgt (k (.failed e)) b)
    (hpending : ∀ b, SagaSafe src tgt (k .pending) b) :
    SagaSafe src tgt (deposit site record >>= k) b := by
  subst htgt
  refine safe_call (fun _ => True) (fun _ _ _ _ => trivial) trivial (fun h => ?_) (fun h => ?_)
    (fun answer b _ hanswered _ => ?_)
  · cases h
  · cases h
  · cases answer with
    | success => exact hsuccess b (hanswered true rfl)
    | failed e => exact hfailed e b (hanswered false rfl)
    | pending => exact hpending b

lemma safe_stepSourceDone (hsrc : record.source = src) (htgt : record.target = tgt) :
    SagaSafe src tgt (stepSourceDone record) b := by
  refine safe_updateStateIf (fun _ => True) (fun _ _ _ _ => trivial) trivial ⟨.targetCall, rfl⟩
    (fun _ _ hw => hw) (fun applied b _ => ?_)
  cases applied with
  | false => exact safe_currentState
  | true =>
      exact safe_deposit htgt (fun _ h => safe_commitTransfer hsrc h)
        (fun _ _ h => safe_compensate h) (fun _ => trivial)

lemma safe_stepTargetPending (hsrc : record.source = src) (htgt : record.target = tgt) :
    SagaSafe src tgt (stepTargetPending record) b := by
  refine safe_deposit htgt (fun _ h => safe_commitTransfer hsrc h) (fun e b h => ?_)
    (fun _ => trivial)
  show SagaSafe src tgt (if record.source = .trading then _ else _) b
  split
  · trivial
  · exact safe_compensate h

/-- A worker that has read the compensating state knows that the deposit has failed. -/
lemma safe_stepCompensating (hsrc : record.source = src)
    (h : b.answered tgt .deposit false = true) :
    SagaSafe src tgt (stepCompensating record) b := by
  subst hsrc
  refine safe_call _ (answered_stable tgt .deposit false) h (fun _ _ hA => hA) (fun h => ?_)
    (fun answer b hA _ _ => ?_)
  · cases h
  · cases answer with
    | success =>
        exact safe_updateStateIf _ (answered_stable tgt .deposit false) hA ⟨.rollbackOk, rfl⟩
          (fun _ _ h => h) (fun _ _ _ => trivial)
    | failed e => trivial
    | pending => trivial

/-- **The step function is safe**, on whatever copy of the row it has read. -/
lemma safe_step (reqId : UInt64) (b : Backend) : SagaSafe src tgt (step reqId) b := by
  refine safe_get (fun b hI => ?_)
  obtain ⟨record, hrow, hsrc, htgt, hjust⟩ := hI.row
  rw [hrow]
  show SagaSafe src tgt (if record.state.isTerminal = true then _ else _) b
  split
  · trivial
  · refine Safe.bind ?_ (fun r b => ?_)
    · unfold stepFrom
      cases hstate : record.state with
      | init => exact safe_stepInit hsrc
      | sourcePending => exact safe_stepSourcePending hsrc
      | sourceDone => exact safe_stepSourceDone hsrc htgt
      | targetPending => exact safe_stepTargetPending hsrc htgt
      | compensating =>
          rw [hstate] at hjust
          exact safe_stepCompensating hsrc hjust.2
      | committed => trivial
      | rolledBack => trivial
      | failed => trivial
    · cases r with
      | error e => trivial
      | ok newState =>
          show SagaSafe src tgt
            (if (!newState.isTerminal && decide (newState = record.state)) = true
              then _ else _) b
          split
          · refine Safe.perform (fun _ => True) (fun _ _ _ _ => trivial) trivial ?_
            rintro b₁ - hI₁ ⟨⟩ b₂ ⟨now, rfl⟩
            obtain ⟨hI₂, hstep⟩ := hI₁.retried now
            exact ⟨hI₂, hstep, trivial⟩
          · trivial

end Steps

/-! ## Every interleaving -/

section Runs

open Config

variable {W : Type} [DecidableEq W]

/-- The workers on one transfer. -/
abbrev Workers (W : Type) := Config W Backend TransferOp TransferAns (Except String TransferState)

/-- The configurations reached by workers that start on a created transfer. -/
abbrev SagaReachable (record : TransferRecord) (c : Workers W) : Prop :=
  Reachable serves (step record.reqId) (created record) c

lemma sagaInv_created (record : TransferRecord) :
    SagaInv record.source record.target (created record) where
  row := ⟨_, rfl, rfl, rfl, trivial⟩
  rollback h := by cases h
  commit h := by cases h
  answered _ _ _ h := by cases h

lemma SagaReachable.sagaInv {record : TransferRecord} {c : Workers W}
    (h : SagaReachable record c) : SagaInv record.source record.target c.shared :=
  Reachable.invariant (fun b _ => safe_step record.reqId b) (sagaInv_created record) h

/-- Each operation has one outcome for this request, and a definite answer agrees with it. -/
def Sticky (outcome : ServiceId → AdapterOp → Option Bool) :
    (op : TransferOp) → TransferAns op → Prop
  | .adapter _ service call, answer =>
      ∀ d, OpResult.definite answer = some d → outcome service call.op = some d
  | _, _ => True

/-- The answers that have been given agree with the outcomes. -/
def Agree (outcome : ServiceId → AdapterOp → Option Bool) (b : Backend) : Prop :=
  ∀ s op d, b.answered s op d = true → outcome s op = some d

lemma agree_of_serves {outcome : ServiceId → AdapterOp → Option Bool} {b b' : Backend}
    {op : TransferOp} {a : TransferAns op} (hserv : serves.restrict (Sticky outcome) b op a b')
    (h : Agree outcome b) : Agree outcome b' := by
  -- all but an adapter call leave the answers alone
  obtain ⟨hserv, hsticky⟩ := hserv
  cases op with
  | get => exact hserv.2 ▸ h
  | updateStateIf expected newState => rwa [Agree, hserv.choose_spec.keeps.2]
  | updateStateWithError expected newState error => rwa [Agree, hserv.choose_spec.keeps.2]
  | incrementRetry => exact hserv.choose_spec ▸ h
  | adapter site service call =>
      obtain rfl : b' = _ := hserv
      intro s op d hd
      simp only [afterCall] at hd
      split at hd
      · rename_i heq
        obtain ⟨rfl, rfl, hdef⟩ := heq
        exact hsticky d hdef
      · exact h s op d hd

/-- What a transfer promises in every state. -/
structure SagaProperty (outcome : ServiceId → AdapterOp → Option Bool) (b : Backend)
    (r : TransferRecord) : Prop where
  committed : r.state = .committed → b.answered r.source .withdraw true = true ∧
    b.answered r.target .deposit true = true ∧ b.called r.source .rollback = false
  rolledBack : r.state = .rolledBack → outcome r.target .deposit = some false
  failed : r.state = .failed → outcome r.source .withdraw = some false
  exclusive : ¬(outcome r.target .deposit = some true ∧ b.called r.source .rollback = true)

lemma sagaProperty_of_inv {outcome : ServiceId → AdapterOp → Option Bool} {src tgt : ServiceId}
    {b : Backend} (h : SagaInv src tgt b) (hagree : Agree outcome b) {r : TransferRecord}
    (hr : b.row = some r) : SagaProperty outcome b r := by
  obtain ⟨r', hr', rfl, rfl, hjust⟩ := h.row
  obtain rfl := Option.some.inj (hr.symm.trans hr')
  have hexclusive : ¬(outcome r.target .deposit = some true ∧
      b.called r.source .rollback = true) := by
    rintro ⟨hdeposit, hcalled⟩
    have hfalse := hagree _ _ _ (h.rollback hcalled)
    exact absurd (hdeposit.symm.trans hfalse) (by simp)
  refine ⟨fun hs => ?_, fun hs => ?_, fun hs => ?_, hexclusive⟩
  · rw [hs] at hjust
    refine ⟨hjust.1, hjust.2.1, Bool.eq_false_iff.mpr (fun hcalled => ?_)⟩
    exact hexclusive ⟨hagree _ _ _ hjust.2.1, hcalled⟩
  · rw [hs] at hjust
    exact hagree _ _ _ hjust.2
  · rw [hs] at hjust
    exact hagree _ _ _ hjust

/-- The row moves along the edges of the state machine, and not out of a terminal state. -/
lemma SagaReachable.row_step {record : TransferRecord} {c c' : Workers W} {r : TransferRecord}
    (h : SagaReachable record c) (hr : c.shared.row = some r)
    (hstep : Step serves (step record.reqId) c c') :
    ∃ r', c'.shared.row = some r' ∧ (r'.state = r.state ∨ Edge r.state r'.state) ∧
      (r.state.isTerminal = true → r'.state = r.state) := by
  rcases Reachable.guarantee (fun b _ => safe_step record.reqId b) (sagaInv_created record) h
    hstep with heq | hG
  · exact ⟨r, heq ▸ hr, Or.inl rfl, fun _ => rfl⟩
  · obtain ⟨r', hr', -, -, hedge⟩ := hG.row r hr
    refine ⟨r', hr', hedge, fun hterminal => ?_⟩
    rcases hedge with hsame | ⟨e, he⟩
    · exact hsame
    · rw [← he, transition_of_isTerminal hterminal]

/-- **Saga safety.**  In every configuration any number of workers reach, the transfer keeps what
its state promises, and every step moves the state along an edge of the state machine and leaves a
terminal state alone. -/
theorem saga_safety (outcome : ServiceId → AdapterOp → Option Bool) (record : TransferRecord)
    (c : Workers W)
    (h : Reachable (serves.restrict (Sticky outcome)) (step record.reqId) (created record) c) :
    ∃ r, c.shared.row = some r ∧ r.source = record.source ∧ r.target = record.target ∧
      SagaProperty outcome c.shared r ∧
      ∀ c', Step (serves.restrict (Sticky outcome)) (step record.reqId) c c' →
        ∃ r', c'.shared.row = some r' ∧ (r'.state = r.state ∨ Edge r.state r'.state) ∧
          (r.state.isTerminal = true → r'.state = r.state) := by
  have hreach : SagaReachable record c := h.mono (fun _ _ _ _ hserv => hserv.1)
  have hagree : Agree outcome c.shared :=
    h.of_service (fun _ _ _ _ hserv => agree_of_serves hserv) (fun _ _ _ hd => by cases hd)
  obtain ⟨r, hr, hsrc, htgt, -⟩ := hreach.sagaInv.row
  exact ⟨r, hr, hsrc, htgt, sagaProperty_of_inv hreach.sagaInv hagree hr,
    fun c' hstep => hreach.row_step hr (hstep.mono (fun _ _ _ _ hserv => hserv.1))⟩

end Runs

/-! ## The way to Committed -/

section Committed

open Config

variable {W : Type} [DecidableEq W] {P : (op : TransferOp) → TransferAns op → Prop}

/-- The backend after the source has been debited. -/
def withdrawn (record : TransferRecord) : Backend where
  row := some { record with state := .sourceDone, updatedAt := 0 }
  called s op := if s = record.source ∧ op = .withdraw then true else false
  answered s op d :=
    if s = record.source ∧ op = .withdraw ∧ OpResult.definite .success = some d then true else false

/-- The adapters say yes. -/
def Succeeds : (op : TransferOp) → TransferAns op → Prop
  | .adapter _ _ _, answer => answer = OpResult.success
  | _, _ => True

/-- One worker debits the source and crashes. -/
lemma reachable_withdrawn (record : TransferRecord) (hP : ∀ op a, Succeeds op a → P op a) :
    Reachable (serves.restrict P) (step record.reqId) (created record)
      (solo (withdrawn record) (step record.reqId)) := by
  have hstart : Reachable (serves.restrict P) (step record.reqId) (created record)
      (solo (created record) (step record.reqId)) := Reachable.solo_start
  have hget := Reachable.solo_perform hstart (a := some _) ⟨⟨rfl, rfl⟩, hP _ _ trivial⟩
  have hcas := Reachable.solo_perform hget (a := true) ⟨⟨0, rfl, rfl⟩, hP _ _ trivial⟩
  have hcall := Reachable.solo_perform hcas (a := OpResult.success) ⟨rfl, hP _ _ (by rfl)⟩
  have hdone := Reachable.solo_perform hcall (a := true) ⟨⟨0, rfl, rfl⟩, hP _ _ trivial⟩
  exact Reachable.solo_restart hdone

/-- `finalize_source_commit` does not fail the transfer: whatever the source answers to `commit`,
the transfer can be committed. -/
lemma reachable_committed (record : TransferRecord) (hP : ∀ op a, Succeeds op a → P op a)
    (answer : OpResult) (hanswer : P (.adapter .sourceDone record.source .commit) answer) :
    ∃ c : Workers Unit, Reachable (serves.restrict P) (step record.reqId) (created record) c ∧
      (∀ d, c.shared.answered record.source .commit d = true ↔ answer.definite = some d) ∧
      ∃ r, c.shared.row = some r ∧ r.state = .committed := by
  have hget := Reachable.solo_perform (reachable_withdrawn record hP) (a := some _)
    ⟨⟨rfl, rfl⟩, hP _ _ trivial⟩
  have hcas := Reachable.solo_perform hget (a := true) ⟨⟨0, rfl, rfl⟩, hP _ _ trivial⟩
  have hdeposit := Reachable.solo_perform hcas (a := OpResult.success) ⟨rfl, hP _ _ (by rfl)⟩
  have hcommit := Reachable.solo_perform hdeposit (a := answer) ⟨rfl, hanswer⟩
  have hdone := Reachable.solo_perform hcommit (a := true) ⟨⟨0, rfl, rfl⟩, hP _ _ trivial⟩
  refine ⟨_, hdone, fun d => ?_, _, rfl, rfl⟩
  simp [solo, afterCall, AdapterCall.op, withdrawn]

/-- A transfer of 100 units from Funding to Trading. -/
def fundingToTrading : TransferRecord where
  reqId := 1
  source := .funding
  target := .trading
  userId := 7
  assetId := 2
  amount := 100
  state := .init
  createdAt := 0
  updatedAt := 0
  error := none
  retryCount := 0

theorem saga_safety_committed : ∃ c : Workers Unit,
    c.shared.answered .trading .deposit true = true ∧
    c.shared.called .funding .rollback = false := by
  have hsticky : ∀ op a, Succeeds op a → Sticky (fun _ _ => some true) op a := by
    intro op a h
    cases op with
    | adapter site service call =>
        obtain rfl : a = OpResult.success := h
        exact fun d hd => hd
    | _ => trivial
  obtain ⟨c, hc, -, r, hr, hstate⟩ := reachable_committed fundingToTrading hsticky .success
    (hsticky _ _ rfl)
  obtain ⟨r', hr', hsrc, htgt, hprop, -⟩ := saga_safety _ fundingToTrading c hc
  obtain rfl := Option.some.inj (hr.symm.trans hr')
  obtain ⟨-, hdeposit, hrollback⟩ := hprop.committed hstate
  rw [htgt] at hdeposit
  rw [hsrc] at hrollback
  exact ⟨c, hdeposit, hrollback⟩

/-- A transfer is committed only after the target has been credited and, after that,
`source.commit` has been called. -/
lemma committed_after_commit_call (record : TransferRecord) (c : Workers W)
    (h : SagaReachable record c) :
    (c.shared.called record.source .commit = true →
      c.shared.answered record.target .deposit true = true) ∧
    ∀ r, c.shared.row = some r → r.state = .committed →
      c.shared.answered record.target .deposit true = true ∧
        c.shared.called record.source .commit = true := by
  have hI := h.sagaInv
  refine ⟨hI.commit, fun r hr hstate => ?_⟩
  obtain ⟨r', hr', -, -, hjust⟩ := hI.row
  obtain rfl := Option.some.inj (hr.symm.trans hr')
  rw [hstate] at hjust
  exact hjust.2

/-- A call of `commit` is answered by success. -/
def CommitSucceeds : (op : TransferOp) → TransferAns op → Prop
  | .adapter _ _ .commit, answer => answer = OpResult.success
  | _, _ => True

/-- Where `commit` has been called, it has succeeded. -/
def CommitsDone (b : Backend) : Prop :=
  ∀ s, b.called s .commit = true → b.answered s .commit true = true

lemma commitsDone_of_serves {b b' : Backend} {op : TransferOp} {a : TransferAns op}
    (hserv : serves.restrict CommitSucceeds b op a b') (h : CommitsDone b) : CommitsDone b' := by
  obtain ⟨hserv, hsucceeds⟩ := hserv
  cases op with
  | get => exact hserv.2 ▸ h
  | updateStateIf expected newState =>
      obtain ⟨hcalled, hanswered⟩ := hserv.choose_spec.keeps
      rwa [CommitsDone, hcalled, hanswered]
  | updateStateWithError expected newState error =>
      obtain ⟨hcalled, hanswered⟩ := hserv.choose_spec.keeps
      rwa [CommitsDone, hcalled, hanswered]
  | incrementRetry => exact hserv.choose_spec ▸ h
  | adapter site service call =>
      obtain rfl : b' = _ := hserv
      intro s hs
      obtain ⟨-, hanswered, hothers⟩ := afterCall_spec b service call.op a
      by_cases heq : s = service ∧ AdapterOp.commit = call.op
      · -- the call is this commit
        obtain ⟨rfl, hop⟩ := heq
        cases call with
        | commit =>
            obtain rfl : a = OpResult.success := hsucceeds
            exact hanswered true rfl
        | _ => cases hop
      · obtain ⟨hcalled, hsame⟩ := hothers s .commit heq
        rw [hcalled] at hs
        rw [hsame]
        exact h s hs

/-- **Committed comes after the commit.**  As long as every call of `commit` is answered by success,
a transfer is committed only after its source has been. -/
theorem committed_after_commit (record : TransferRecord) (c : Workers W)
    (h : Reachable (serves.restrict CommitSucceeds) (step record.reqId) (created record) c) :
    ∀ r, c.shared.row = some r → r.state = .committed →
      c.shared.answered record.source .commit true = true := by
  intro r hr hstate
  have hreach : SagaReachable record c := h.mono (fun _ _ _ _ hserv => hserv.1)
  have hdone : CommitsDone c.shared :=
    h.of_service (fun _ _ _ _ hserv => commitsDone_of_serves hserv) (fun _ hd => by cases hd)
  exact hdone record.source ((committed_after_commit_call record c hreach).2 r hr hstate).2

/-- A transfer that is committed, and its source before it. -/
theorem committed_after_commit_fundingToTrading :
    ∃ c : Workers Unit, SagaReachable fundingToTrading c ∧
      (∃ r, c.shared.row = some r ∧ r.state = .committed) ∧
      c.shared.answered .funding .commit true = true := by
  have hsucceeds : ∀ op a, Succeeds op a → CommitSucceeds op a := by
    intro op a h
    cases op with
    | adapter site service call =>
        cases call with
        | commit => exact h
        | _ => trivial
    | _ => trivial
  obtain ⟨c, hc, -, r, hr, hstate⟩ := reachable_committed fundingToTrading hsucceeds .success rfl
  exact ⟨c, hc.mono (fun _ _ _ _ hserv => hserv.1), ⟨r, hr, hstate⟩,
    committed_after_commit fundingToTrading c hc r hr hstate⟩

/-- A commit that is still pending leaves the withdrawal of a committed transfer open. -/
theorem committed_without_commit :
    ¬∀ c : Workers Unit, SagaReachable fundingToTrading c → ∀ r, c.shared.row = some r →
      r.state = .committed → c.shared.answered .funding .commit true = true := by
  intro h
  obtain ⟨c, hc, hcommit, r, hr, hstate⟩ := reachable_committed (P := fun _ _ => True)
    fundingToTrading (fun _ _ _ => trivial) .pending trivial
  have hreach : SagaReachable fundingToTrading c := hc.mono (fun _ _ _ _ hserv => hserv.1)
  have htrue := (hcommit true).mp (h c hreach r hr hstate)
  exact absurd htrue (by decide)

end Committed

end TransferCoordinator

end ExchangeCore
