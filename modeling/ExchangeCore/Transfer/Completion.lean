import ExchangeCore.Transfer.ServiceSafety

/-!
# The background loop completes transfers

`TransferWorker::run_one_cycle` takes up what is in the queue and what the database reports as
stale.  `cycle_completes` is about one worker among all the others, whose own operations are
answered (`Answering`): whatever the others do in between, and wherever they fail or crash, every
transfer that it takes up is brought to the terminal state that the outcomes of the adapters decide
(`resolution`).  It takes six calls of `step` for a transfer: one for each level, and one that finds
the terminal state.

Two kinds of transfers are not completed, and the worker does not get beyond them: those whose
rollback is refused, and those from Trading whose deposit is refused (`Resolvable`).
-/

namespace ExchangeCore

open Prog Config Backend TransferCoordinator TransferWorker Desk

/-- The terminal state that the outcomes decide. -/
def resolution (outcome : ServiceId → AdapterOp → Option Bool) (r₀ : TransferRecord) :
    TransferState :=
  if outcome r₀.source .withdraw = some false then .failed
  else if outcome r₀.target .deposit = some false then .rolledBack
  else .committed

namespace Backend

/-- The transfer is at its end. -/
def Completed (b : Backend) : Prop := b.In (fun s => s.isTerminal = true)

lemma Completed.of_step {b b' : Backend} (hstep : SagaStep b b') (h : b.Completed) :
    b'.Completed := by
  refine In.of_step (fun s s' hterminal hedge => ?_) hstep h
  obtain ⟨e, rfl⟩ := hedge
  rwa [transition_of_isTerminal hterminal]

/-- A transfer at its end is in the state that the outcomes decide. -/
lemma TransferInv.resolved {outcome : ServiceId → AdapterOp → Option Bool} {r₀ : TransferRecord}
    {b : Backend} (h : TransferInv outcome r₀ b) (hcompleted : b.Completed) :
    b.Stored (resolution outcome r₀) := by
  obtain ⟨r, hr, hterminal⟩ := hcompleted
  obtain ⟨r', hr', -, hjust⟩ := h.exists_row
  obtain rfl := Option.some.inj (hr.symm.trans hr')
  refine ⟨r, hr, ?_⟩
  cases hs : r.state with
  | failed =>
      rw [hs] at hjust
      rw [resolution, if_pos (h.agree _ _ _ hjust)]
  | rolledBack =>
      rw [hs] at hjust
      rw [resolution, h.agree _ _ _ hjust.1, h.agree _ _ _ hjust.2]
      rfl
  | committed =>
      rw [hs] at hjust
      rw [resolution, h.agree _ _ _ hjust.1, h.agree _ _ _ hjust.2.1]
      rfl
  | _ => exact absurd hterminal (by rw [hs]; decide)

end Backend

namespace TransferService

/-! ## One transfer -/

section Transfer

variable {outcome : UInt64 → ServiceId → AdapterOp → Option Bool} {capacity : ℕ} {t : Desk}
  {reqId : UInt64} {r₀ : TransferRecord}

lemma contract_step_completed {prompt : Prop} {outcome : ServiceId → AdapterOp → Option Bool}
    {b : Backend} (h : b.Completed) :
    TransferContract prompt outcome r₀
      (fun result b => b.Completed ∧ ∃ state, result = .ok state ∧ state.isTerminal = true)
      (step reqId) b := by
  refine contract_get (fun b => b.Completed) (fun _ _ h hstep => h.of_step hstep) h
    (fun b r hcompleted _ hr => ?_)
  have hterminal : r.state.isTerminal = true := by
    obtain ⟨r', hr', hterminal⟩ := hcompleted
    obtain rfl := Option.some.inj (hr.symm.trans hr')
    exact hterminal
  show TransferContract prompt outcome r₀ _ (if r.state.isTerminal = true then _ else _) b
  rw [if_pos hterminal]
  exact Contract.ret (fun b => b.Completed) (fun _ _ h hstep => h.of_step hstep) hcompleted
    (fun _ h _ => ⟨h, r.state, rfl, hterminal⟩)

/-- The worker has come to the end of a transfer. -/
def Finished (reqId : UInt64) (result : Option Unit) (t : Desk) : Prop :=
  result = some () ∧ (t.backend reqId).Completed

lemma contract_found (turns : ℕ) (hreq : t.requested reqId = some r₀) (hI : DeskInv outcome t)
    (h : (t.backend reqId).Completed) :
    ServiceContract True outcome capacity (Finished reqId) (processTransfer reqId (turns + 1))
      t := by
  have hstep : TransferContract True (outcome reqId) r₀ _ (step reqId) (t.backend reqId) :=
    contract_step_completed h
  refine Contract.bind hI (contract_onRow hreq (contract_attemptStep hstep))
    (fun answer t₁ hI₁ _ hanswer => ?_)
  obtain ⟨result, rfl, -, state, rfl, hterminal⟩ | ⟨hnot, -⟩ := hanswer t₁ .refl hI₁
  · show ServiceContract True outcome capacity _ (if state.isTerminal = true then _ else _) t₁
    rw [if_pos hterminal]
    intro t₂ hs hI₂
    obtain ⟨-, -, hcompleted, -⟩ | ⟨hnot, -⟩ := hanswer t₂ hs hI₂
    · exact ⟨rfl, hcompleted⟩
    · exact absurd trivial hnot
  · exact absurd trivial hnot

/-- **A transfer is completed**: every turn gets it past the level it was on. -/
lemma contract_complete (hresolvable : Resolvable (outcome reqId) r₀) {turns n : ℕ}
    (hreq : t.requested reqId = some r₀) (hI : DeskInv outcome t)
    (hin : (t.backend reqId).In (AtLeast n)) (hn : n ≤ 5) (hturns : 5 < n + turns) :
    ServiceContract True outcome capacity (Finished reqId) (processTransfer reqId turns) t := by
  induction turns generalizing n t with
  | zero => omega
  | succ turns ih =>
      rcases Nat.lt_or_eq_of_le hn with hlt | rfl
      · have hstep : TransferContract True (outcome reqId) r₀ (Ends True n) (step reqId)
            (t.backend reqId) := contract_step (fun _ => hresolvable) reqId hin
        refine Contract.bind hI (contract_onRow hreq (contract_attemptStep hstep))
          (fun answer t₁ hI₁ hs hanswer => ?_)
        obtain ⟨result, rfl, hends⟩ | ⟨hnot, -⟩ := hanswer t₁ .refl hI₁
        · obtain ⟨state, rfl⟩ := hends.found
          show ServiceContract True outcome capacity _
            (if state.isTerminal = true then _ else _) t₁
          split
          · rename_i hterminal
            intro t₂ hs₂ hI₂
            obtain ⟨result, hresult, hends₂⟩ | ⟨hnot, -⟩ := hanswer t₂ hs₂ hI₂
            · obtain rfl := Except.ok.inj hresult
              exact ⟨rfl, In.of_stored (hends₂.stored state rfl hterminal) hterminal⟩
            · exact absurd trivial hnot
          · exact ih (requested_later hreq hs) hI₁ (hends.advanced trivial) hlt (by omega)
        · exact absurd trivial hnot
      · refine contract_found turns hreq hI ?_
        obtain ⟨r, hr, hterminal | hlevel⟩ := hin
        · exact ⟨r, hr, hterminal⟩
        · exact ⟨r, hr, TransferState.isTerminal_of_level hlevel⟩

end Transfer

/-! ## A cycle -/

section Cycle

variable {W : Type} [DecidableEq W] {outcome : UInt64 → ServiceId → AdapterOp → Option Bool}
  {capacity : ℕ} {staleAfterMs : Int64} {t t' : Desk} {es : List (Event Desk ServiceOp ServiceAns)}
  {result : Option Unit} {turns : ℕ}

/-- What the other nodes do: a step from a configuration that is reached. -/
def Meanwhile (W : Type) [DecidableEq W]
    (outcome : UInt64 → ServiceId → AdapterOp → Option Bool) (capacity : ℕ) (staleAfterMs : Int64)
    (t t' : Desk) : Prop :=
  ∃ c c' : Nodes W, ServiceReachable outcome capacity staleAfterMs c ∧
    ServiceStep outcome capacity staleAfterMs c c' ∧ c.shared = t ∧ c'.shared = t'

/-- A run of a worker among the others, whose own operations are answered. -/
abbrev WorkerRun {α : Type} (W : Type) [DecidableEq W]
    (outcome : UInt64 → ServiceId → AdapterOp → Option Bool) (capacity : ℕ) (staleAfterMs : Int64)
    (p : ServiceProg α) (t : Desk) (es : List (Event Desk ServiceOp ServiceAns)) (a : α)
    (t' : Desk) : Prop :=
  p.RunsAmong ((Desk.serves outcome capacity).restrict Answering)
    (Meanwhile W outcome capacity staleAfterMs) t es a t'

/-- The transfers that a worker takes up. -/
def taken : Event Desk ServiceOp ServiceAns → List UInt64
  | .own _ .pop (some reqId) _ => [reqId]
  | .own _ (.findStale _) (.ok records) _ => records.map (·.reqId)
  | _ => []

/-- The run as long as no id is given out twice. -/
abbrev DistinctRun {α : Type} (W : Type) [DecidableEq W]
    (outcome : UInt64 → ServiceId → AdapterOp → Option Bool) (capacity : ℕ) (staleAfterMs : Int64)
    (p : ServiceProg α) (t : Desk) (es : List (Event Desk ServiceOp ServiceAns)) (a : α)
    (t' : Desk) : Prop :=
  p.RunsAmong (((Desk.serves outcome capacity).restrict Answering).within DistinctIds)
    (fun t t' => Meanwhile W outcome capacity staleAfterMs t t' ∧ t'.DistinctIds) t es a t'

/-- A run at whose end no id has been given out twice. -/
lemma WorkerRun.distinct {α : Type} {p : ServiceProg α} {a : α}
    (hrun : WorkerRun W outcome capacity staleAfterMs p t es a t') (hids : t'.DistinctIds) :
    t.DistinctIds ∧ DistinctRun W outcome capacity staleAfterMs p t es a t' := by
  refine hrun.within ?_ (fun t op a t' hserv => distinctIds_back t op a t' hserv.1) hids
  rintro t t' ⟨c, c', -, hstep, rfl, rfl⟩ hids
  exact hstep.back distinctIds_back hids

lemma Meanwhile.keeps (h : Meanwhile W outcome capacity staleAfterMs t t')
    (hids : t'.DistinctIds) : DeskInv outcome t' ∧ DeskStep t t' := by
  obtain ⟨c, c', hreach, hstep, rfl, rfl⟩ := h
  exact ⟨ServiceReachable.deskInv (hreach.tail hstep) hids, hreach.deskStep hstep hids⟩

lemma contract_run {α : Type} {p : ServiceProg α} {Q : α → Desk → Prop} {a : α}
    (h : ServiceContract True outcome capacity Q p t) (hI : DeskInv outcome t)
    (hrun : DistinctRun W outcome capacity staleAfterMs p t es a t') :
    DeskInv outcome t' ∧ Relation.ReflTransGen DeskStep t t' ∧ Q a t' :=
  Contract.of_runsAmong (fun _ _ _ _ hserv => ⟨⟨hserv.1.1, hserv.2⟩, fun _ => hserv.1.2⟩)
    (fun _ _ _ hothers => hothers.1.keeps hothers.2) hrun h hI

lemma keeps_meanwhile (hI : DeskInv outcome t)
    (hs : Relation.ReflTransGen
      (fun t t' => Meanwhile W outcome capacity staleAfterMs t t' ∧ t'.DistinctIds) t t') :
    DeskInv outcome t' ∧ Relation.ReflTransGen DeskStep t t' := by
  induction hs with
  | refl => exact ⟨hI, .refl⟩
  | tail _ hothers ih =>
      obtain ⟨hI', hstep⟩ := hothers.1.keeps hothers.2
      exact ⟨hI', ih.2.tail hstep⟩

lemma completed_later {reqId : UInt64} {r₀ : TransferRecord} (hreq : t.requested reqId = some r₀)
    (hs : Relation.ReflTransGen DeskStep t t') (h : (t.backend reqId).Completed) :
    (t'.backend reqId).Completed := by
  induction hs with
  | refl => exact h
  | tail hs hstep ih => exact ih.of_step (hstep.requested reqId r₀ (requested_later hreq hs)).2

/-- A transfer that a worker takes up is completed, and it takes up no others meanwhile. -/
lemma run_processTransfer {reqId : UInt64} {r₀ : TransferRecord} (hturns : 6 ≤ turns)
    (hreq : t.requested reqId = some r₀) (hresolvable : Resolvable (outcome reqId) r₀)
    (hI : DeskInv outcome t)
    (hrun : DistinctRun W outcome capacity staleAfterMs (processTransfer reqId turns) t es result
      t') :
    (DeskInv outcome t' ∧ Relation.ReflTransGen DeskStep t t' ∧ Finished reqId result t') ∧
      ∀ e ∈ es, taken e = [] := by
  refine ⟨contract_run (contract_complete hresolvable hreq hI
    (hI.requested reqId r₀ hreq).2.atLeast (Nat.zero_le _) (by omega)) hI hrun, ?_⟩
  have hall : (processTransfer reqId turns).All (fun op => ∃ op', op = .onRow reqId op') := by
    clear hrun hturns
    induction turns with
    | zero => trivial
    | succ turns ih =>
        refine All.bind (All.embed (fun op => ⟨op, rfl⟩) _) (fun answer => ?_)
        rcases answer with e | e | state
        · trivial
        · trivial
        · show (if state.isTerminal = true then _ else _ : ServiceProg (Option Unit)).All _
          split
          · trivial
          · exact ih
  rintro (_ | ⟨s, op, x, s'⟩) he
  · rfl
  · obtain ⟨op', rfl⟩ := hrun.own_of_all hall _ _ _ _ he
    rfl

/-- What is taken up in these events has been completed. -/
def AllCompleted (es : List (Event Desk ServiceOp ServiceAns)) (t : Desk) : Prop :=
  ∀ e ∈ es, ∀ reqId ∈ taken e, (∃ r₀, t.requested reqId = some r₀) ∧ (t.backend reqId).Completed

/-- What is taken up in these events can be completed. -/
def AllResolvable (outcome : UInt64 → ServiceId → AdapterOp → Option Bool)
    (es : List (Event Desk ServiceOp ServiceAns)) : Prop :=
  ∀ e ∈ es, ∀ reqId ∈ taken e, ∀ r₀, e.after.requested reqId = some r₀ →
    Resolvable (outcome reqId) r₀

/-- The events around an operation of the worker. -/
lemma allCompleted_call {between rest : List (Event Desk ServiceOp ServiceAns)}
    {e : Event Desk ServiceOp ServiceAns} (hbetween : ∀ e ∈ between, ∃ t t', e = .others t t')
    (he : ∀ reqId ∈ taken e, (∃ r₀, t.requested reqId = some r₀) ∧ (t.backend reqId).Completed)
    (hrest : AllCompleted rest t) : AllCompleted (between ++ e :: rest) t := by
  refine List.forall_mem_append.mpr ⟨fun e he reqId htaken => ?_,
    List.forall_mem_cons.mpr ⟨he, hrest⟩⟩
  obtain ⟨_, _, rfl⟩ := hbetween e he
  exact absurd htaken List.not_mem_nil

lemma run_processAll (hturns : 6 ≤ turns) (records : List TransferRecord)
    (hrecords : ∀ r ∈ records, ∃ r₀, t.requested r.reqId = some r₀)
    (hresolvable : ∀ r ∈ records, ∀ r₀, t.requested r.reqId = some r₀ →
      Resolvable (outcome r.reqId) r₀)
    (hI : DeskInv outcome t)
    (hrun : DistinctRun W outcome capacity staleAfterMs (processAll turns records) t es result
      t') :
    (DeskInv outcome t' ∧ Relation.ReflTransGen DeskStep t t' ∧ result = some () ∧
      ∀ r ∈ records, (t'.backend r.reqId).Completed) ∧ ∀ e ∈ es, taken e = [] := by
  induction records generalizing t es with
  | nil =>
      obtain ⟨rfl, rfl, rfl⟩ := hrun.of_ret
      exact ⟨⟨hI, .refl, rfl, fun r hr => absurd hr List.not_mem_nil⟩,
        fun e he => absurd he List.not_mem_nil⟩
  | cons r records ih =>
      obtain ⟨⟨r₀, hreq⟩, hrest⟩ := List.forall_mem_cons.mp hrecords
      obtain ⟨hr, hresolvable⟩ := List.forall_mem_cons.mp hresolvable
      obtain ⟨first, t₁, es₁, es₂, hfirst, hsecond, rfl⟩ := hrun.of_bind
      obtain ⟨⟨hI₁, hs₁, rfl, hcompleted⟩, hnone₁⟩ :=
        run_processTransfer hturns hreq (hr r₀ hreq) hI hfirst
      have hrest₁ : ∀ r ∈ records, ∃ r₀, t₁.requested r.reqId = some r₀ := by
        intro r' hr'
        obtain ⟨r₀', hreq'⟩ := hrest r' hr'
        exact ⟨r₀', requested_later hreq' hs₁⟩
      have hresolvable₁ : ∀ r ∈ records, ∀ r₀, t₁.requested r.reqId = some r₀ →
          Resolvable (outcome r.reqId) r₀ := by
        intro r' hr' r₀' hreq'
        obtain ⟨r₀'', hreq''⟩ := hrest r' hr'
        obtain rfl := Option.some.inj ((requested_later hreq'' hs₁).symm.trans hreq')
        exact hresolvable r' hr' r₀'' hreq''
      obtain ⟨⟨hI', hs₂, hresult, hall⟩, hnone₂⟩ := ih hrest₁ hresolvable₁ hI₁ hsecond
      refine ⟨⟨hI', hs₁.trans hs₂, hresult, List.forall_mem_cons.mpr ⟨?_, hall⟩⟩, ?_⟩
      · exact completed_later (requested_later hreq hs₁) hs₂ hcompleted
      · exact List.forall_mem_append.mpr ⟨hnone₁, hnone₂⟩

lemma run_scanStaleTransfers (hturns : 6 ≤ turns) (hI : DeskInv outcome t)
    (hresolvable : AllResolvable outcome es)
    (hrun : DistinctRun W outcome capacity staleAfterMs (scanStaleTransfers staleAfterMs turns) t
      es result t') :
    (DeskInv outcome t' ∧ Relation.ReflTransGen DeskStep t t') ∧ result = some () ∧
      AllCompleted es t' := by
  obtain ⟨between, t₁, x, t₂, rest, hs, hserv, hrest, rfl, hbetween⟩ := hrun.first_call
  obtain ⟨hI₁, hs₁⟩ := keeps_meanwhile hI hs
  cases x with
  | error e => exact absurd hserv.1.2 id
  | ok records =>
      obtain ⟨rfl, hrecords⟩ := requested_of_findStale hI₁ hserv.1.1
      have hmem : Event.own t₂ (ServiceOp.findStale staleAfterMs) (Except.ok records) t₂ ∈
          between ++
            Event.own t₂ (ServiceOp.findStale staleAfterMs) (Except.ok records) t₂ :: rest :=
        List.mem_append_right _ List.mem_cons_self
      obtain ⟨⟨hI', hs', hresult, hall⟩, hnone⟩ := run_processAll hturns records hrecords
        (fun r hr => hresolvable _ hmem r.reqId (List.mem_map_of_mem hr)) hI₁ hrest
      refine ⟨⟨hI', hs₁.trans hs'⟩, hresult,
        allCompleted_call hbetween (fun reqId htaken => ?_) (fun e he reqId htaken => ?_)⟩
      · obtain ⟨r, hr, rfl⟩ := List.mem_map.mp htaken
        obtain ⟨r₀, hreq⟩ := hrecords r hr
        exact ⟨⟨r₀, requested_later hreq hs'⟩, hall r hr⟩
      · rw [hnone e he] at htaken
        exact absurd htaken List.not_mem_nil

lemma run_runOneCycle (hturns : 6 ≤ turns) {pops : ℕ} (hI : DeskInv outcome t)
    (hresolvable : AllResolvable outcome es)
    (hrun : DistinctRun W outcome capacity staleAfterMs (runOneCycle staleAfterMs turns pops) t es
      result t') :
    (DeskInv outcome t' ∧ Relation.ReflTransGen DeskStep t t') ∧
      (result = none → pops ≤ (es.flatMap taken).length) ∧ AllCompleted es t' := by
  induction pops generalizing t es with
  | zero =>
      obtain ⟨rfl, rfl, rfl⟩ := hrun.of_ret
      exact ⟨⟨hI, .refl⟩, fun _ => Nat.zero_le _, fun e he => absurd he List.not_mem_nil⟩
  | succ pops ih =>
      obtain ⟨between, t₁, x, t₂, rest, hs, hserv, hrest, rfl, hbetween⟩ := hrun.first_call
      obtain ⟨hI₁, hs₁⟩ := keeps_meanwhile hI hs
      obtain ⟨⟨hI₂, hstep⟩, hreq⟩ := desk_pop hI₁ hserv.1.1
      have hs₂ := hs₁.tail hstep
      cases x with
      | none =>
          -- the queue is empty: the scan for stale transfers ends the cycle
          obtain ⟨⟨hI', hs'⟩, hresult, hall⟩ := run_scanStaleTransfers hturns hI₂
            (fun e he => hresolvable e (List.mem_append_right _ (List.mem_cons_of_mem _ he))) hrest
          exact ⟨⟨hI', hs₂.trans hs'⟩, fun h => absurd (hresult.symm.trans h) (by simp),
            allCompleted_call hbetween (fun _ htaken => absurd htaken List.not_mem_nil) hall⟩
      | some reqId =>
          -- a request is taken: it is driven to its end, then the cycle goes on
          obtain ⟨r₀, hreq⟩ := hreq reqId rfl
          obtain ⟨first, t₃, es₁, es₂, hfirst, hsecond, rfl⟩ :=
            RunsAmong.of_bind (p := processTransfer reqId turns) hrest
          have hmem : Event.own t₁ ServiceOp.pop (some reqId) t₂ ∈
              between ++ Event.own t₁ ServiceOp.pop (some reqId) t₂ :: (es₁ ++ es₂) :=
            List.mem_append_right _ List.mem_cons_self
          obtain ⟨⟨hI₃, hs₃, rfl, hcompleted⟩, hnone⟩ := run_processTransfer hturns hreq
            (hresolvable _ hmem reqId List.mem_cons_self r₀ hreq) hI₂ hfirst
          have hresolvable₂ : AllResolvable outcome es₂ := fun e he => hresolvable e
            (List.mem_append_right _ (List.mem_cons_of_mem _ (List.mem_append_right _ he)))
          obtain ⟨⟨hI', hs'⟩, hpops, hall⟩ := ih hI₃ hresolvable₂ hsecond
          refine ⟨⟨hI', (hs₂.trans hs₃).trans hs'⟩, fun h => ?_, ?_⟩
          · have hlen := hpops h
            simp only [List.flatMap_append, List.flatMap_cons, taken, List.length_append,
              List.length_singleton]
            omega
          · refine allCompleted_call hbetween (fun reqId' htaken => ?_)
              (List.forall_mem_append.mpr ⟨fun e he reqId' htaken => ?_, hall⟩)
            · obtain rfl := List.mem_singleton.mp htaken
              have hreq₃ := requested_later hreq hs₃
              exact ⟨⟨r₀, requested_later hreq₃ hs'⟩, completed_later hreq₃ hs' hcompleted⟩
            · rw [hnone e he] at htaken
              exact absurd htaken List.not_mem_nil

/-- **A cycle completes what it takes up.**  A worker runs one cycle of the background loop, among
any number of handlers and workers that may fail and crash; its own operations are answered, no id
is given out twice, and the transfers that it takes up, from the queue and of the stale ones, can be
resolved.  Then at the end each of them is stored in the terminal state that the outcomes of the
adapters decide, and the cycle has come to its end, or has taken up as many transfers as it was run
for. -/
theorem cycle_completes (outcome : UInt64 → ServiceId → AdapterOp → Option Bool) (capacity : ℕ)
    (staleAfterMs : Int64) (c : Nodes W) (hreach : ServiceReachable outcome capacity staleAfterMs c)
    (turns pops : ℕ) (hturns : 6 ≤ turns) (es : List (Event Desk ServiceOp ServiceAns))
    (result : Option Unit) (t' : Desk)
    (hrun : WorkerRun W outcome capacity staleAfterMs (runOneCycle staleAfterMs turns pops)
      c.shared es result t')
    (hids : t'.DistinctIds) (hresolvable : AllResolvable outcome es) :
    (∀ e ∈ es, ∀ reqId ∈ taken e, ∃ r₀, t'.requested reqId = some r₀ ∧
        (t'.backend reqId).Stored (resolution (outcome reqId) r₀)) ∧
      (result = some () ∨ pops ≤ (es.flatMap taken).length) := by
  obtain ⟨hids₀, hrun⟩ := WorkerRun.distinct hrun hids
  obtain ⟨⟨hI, -⟩, hpops, hall⟩ := run_runOneCycle hturns (hreach.deskInv hids₀) hresolvable hrun
  refine ⟨fun e he reqId htaken => ?_, ?_⟩
  · obtain ⟨⟨r₀, hreq⟩, hcompleted⟩ := hall e he reqId htaken
    exact ⟨r₀, hreq, (hI.requested reqId r₀ hreq).2.resolved hcompleted⟩
  · cases result with
    | none => exact Or.inr (hpops rfl)
    | some _ => exact Or.inl rfl

end Cycle

/-! ## A stale transfer -/

/-- The handler of a request has crashed after it has created the transfer. -/
def crashed : Desk where
  backend := Function.update Desk.empty.backend 1
    { Desk.empty.backend 1 with row := some (sampleRequest.record 1 0) }
  queue := []
  requested := Function.update Desk.empty.requested 1 (some (sampleRequest.record 1 0))
  moves := []
  replies := []
  inserted := [1]

lemma reachable_crashed : ∃ c : Nodes Unit,
    ServiceReachable (fun _ _ _ => some true) 1 0 c ∧ c.shared = crashed := by
  have hstart : ServiceReachable (fun _ _ _ => some true) 1 0 (solo Desk.empty (main 0)) :=
    Reachable.solo_start
  have hnext := Reachable.solo_perform hstart (a := Task.handle sampleRequest 0 [false]) rfl
  have hinserted : Desk.serves (fun _ _ _ => some true) 1 Desk.empty (.insert sampleRequest 0)
      (.ok 1) crashed := rfl
  exact ⟨_, Reachable.solo_perform hnext hinserted, rfl⟩

lemma crashed_findStale : (Desk.serves (fun _ _ _ => some true) 1).restrict Answering crashed
    (.findStale 0) (.ok [sampleRequest.record 1 0]) crashed := by
  refine ⟨⟨rfl, 1, fun r => ?_⟩, trivial⟩
  rw [List.mem_singleton]
  constructor
  · rintro rfl
    exact ⟨1, rfl, rfl, by decide⟩
  · rintro ⟨reqId, hrow, -⟩
    by_cases hid : reqId = 1
    · subst hid
      exact (Option.some.inj hrow).symm
    · have hempty : crashed.backend reqId = Desk.empty.backend reqId := Function.update_of_ne hid ..
      rw [hempty] at hrow
      cases hrow

/-- An operation of the worker on a transfer, and what comes after it. -/
lemma run_onRow {t : Desk} {b b' : Backend} {reqId : UInt64} {op : WorkerOp} {a : WorkerAns op}
    {k : ServiceAns (.onRow reqId op) → ServiceProg (Option Unit)} {result : Option Unit}
    (hb : t.backend reqId = b) (hserv : failing (fun _ _ => some true) b op a b')
    (hanswers : Answers op a)
    (hk : ∀ t₁, t₁.backend reqId = b' →
      ∃ es t', WorkerRun Unit (fun _ _ _ => some true) 1 0 (k a) t₁ es result t' ∧
        t'.inserted = t₁.inserted) :
    ∃ es t', WorkerRun Unit (fun _ _ _ => some true) 1 0 (.call (.onRow reqId op) k) t es result
      t' ∧ t'.inserted = t.inserted := by
  subst hb
  obtain ⟨es, t', hrest, hinserted⟩ := hk { t with
    backend := Function.update t.backend reqId b'
    moves := t.moves ++ movesOf reqId op } (Function.update_self ..)
  exact ⟨_, t', .own ⟨⟨b', hserv, rfl⟩, hanswers⟩ hrest, hinserted⟩

/-- A cycle of the background loop takes it up. -/
lemma run_crashed : ∃ es t', WorkerRun Unit (fun _ _ _ => some true) 1 0 (runOneCycle 0 6 1) crashed
    (.own crashed .pop none crashed ::
      .own crashed (.findStale 0) (.ok [sampleRequest.record 1 0]) crashed :: es) (some ()) t' ∧
      t'.inserted = [1] := by
  have hsome : OpResult.definite .success ≠ none := by simp [OpResult.definite]
  suffices hrest : ∃ es t', WorkerRun Unit (fun _ _ _ => some true) 1 0
      (processAll 6 [sampleRequest.record 1 0]) crashed es (some ()) t' ∧
        t'.inserted = crashed.inserted by
    obtain ⟨es, t', hrest, hinserted⟩ := hrest
    exact ⟨es, t', .own ⟨⟨rfl, rfl⟩, trivial⟩ (.own crashed_findStale hrest), hinserted⟩
  refine run_onRow rfl (failing_get _) trivial fun t₁ h₁ => ?_
  refine run_onRow h₁ (failing_cas rfl rfl) trivial fun t₂ h₂ => ?_
  refine run_onRow h₂ (failing_call _ _ _ _) hsome fun t₃ h₃ => ?_
  refine run_onRow h₃ (failing_cas rfl rfl) trivial fun t₄ h₄ => ?_
  refine run_onRow h₄ (failing_get _) trivial fun t₅ h₅ => ?_
  refine run_onRow h₅ (failing_cas rfl rfl) trivial fun t₆ h₆ => ?_
  refine run_onRow h₆ (failing_call _ _ _ _) hsome fun t₇ h₇ => ?_
  refine run_onRow h₇ (failing_call _ _ _ _) hsome fun t₈ h₈ => ?_
  refine run_onRow h₈ (failing_cas rfl rfl) trivial fun t₉ _ => ?_
  exact ⟨_, _, .ret (some ()) t₉, rfl⟩

/-- The stale transfer is committed. -/
theorem cycle_completes_crashed : ∃ (c : Nodes Unit) (es : List (Event Desk ServiceOp ServiceAns))
    (t' : Desk), WorkerRun Unit (fun _ _ _ => some true) 1 0 (runOneCycle 0 6 1) c.shared es
      (some ()) t' ∧ (t'.backend 1).Stored .committed := by
  obtain ⟨c, hc, hshared⟩ := reachable_crashed
  obtain ⟨es, t', hrun, hinserted⟩ := run_crashed
  rw [← hshared] at hrun
  have hids : t'.DistinctIds := (congrArg List.Nodup hinserted).mpr (List.pairwise_singleton _ 1)
  have hcompletes := cycle_completes _ 1 0 c hc 6 1 (Nat.le_refl 6) _ _ t' hrun hids
    (fun _ _ _ _ _ _ => ⟨fun _ => by simp, by simp⟩)
  obtain ⟨r₀, -, hstored⟩ := hcompletes.1 _ (List.mem_cons_of_mem _ List.mem_cons_self) 1
    List.mem_cons_self
  refine ⟨c, _, t', hrun, ?_⟩
  have hresolution : resolution (fun _ _ => some true) r₀ = .committed := by simp [resolution]
  rwa [hresolution] at hstored

end TransferService

end ExchangeCore
