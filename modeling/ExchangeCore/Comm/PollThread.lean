import ExchangeCore.Comm.Correlation

/-!
# The poll thread

`start_poll_thread` repeats two statements: drain the queue of registrations, then poll for at most
100 responses.  A call puts its registration into the queue before it publishes its request, but a
registration is seen only by the next drain.  So a call whose registration, request and response all
fall between a drain and the poll after it has its response discarded while it waits.

`PollSystem` is the system of `AeronSystem` with each channel's poll thread at one of its two
statements; every other step is as before.  The responses that were taken while their call waited,
and not given to it, are collected in `lost`.

`no_response_lost` is about the runs in which a response is taken only after the drain has taken the
registration of its call.  What carries it: a call that waits is registered (`Registered`), in the
queue behind all others with its number, or pending with no other of its number in the queue.
-/

namespace ExchangeCore

/-- The statement a poll thread is at. -/
inductive PollPhase
  | draining
  /-- How many fragments the poll may still take. -/
  | polling (left : ℕ)
  deriving DecidableEq

/-- The system with the phases of the poll threads. -/
structure PollSystem (ι τ σ : Type) where
  sys : AeronSystem ι τ σ
  phase : ι → PollPhase
  /-- The calls whose response was taken while they waited, and was not given to them. -/
  lost : List τ

namespace PollSystem

open AeronSystem

variable {ι τ σ : Type} [DecidableEq ι] [DecidableEq τ]

/-- The fragment limit of `poll`. -/
def FRAGMENT_LIMIT : ℕ := 100

/-- Nothing is connected. -/
def start (s : σ) : PollSystem ι τ σ := ⟨AeronSystem.start s, fun _ => .draining, []⟩

/-- The call is one of channel `i`, and waits. -/
def waitsOn (sys : AeronSystem ι τ σ) (i : ι) (t : τ) : Bool :=
  (sys.result t).isNone && (sys.calls t).any (fun c => c.channel = i)

/-- The poll thread takes the response of call `t`; it is lost if `t` is a call of this channel that
waits, and the response is not dispatched to it. -/
def poll (s : PollSystem ι τ σ) (i : ι) (ch : AeronChannel τ) (t : τ) (message : Bytes) (left : ℕ) :
    PollSystem ι τ σ where
  sys := s.sys.poll i ch message
  phase := Function.update s.phase i (.polling left)
  lost :=
    if waitsOn s.sys i t = true ∧ (dispatch ch message).2 ≠ some (t, message.drop 8) then
      s.lost ++ [t]
    else s.lost

/-- One step; `P` may restrict when a call is sent, and `Q` when a response is taken. -/
inductive Step (handle : σ → Bytes → σ × Bytes) (P : AeronSystem ι τ σ → ι → Prop)
    (Q : AeronSystem ι τ σ → ι → τ → Prop) : PollSystem ι τ σ → PollSystem ι τ σ → Prop
  | connect (s) (i : ι) (hi : s.sys.channels i = none) :
      Step handle P Q s
        { s with sys := s.sys.connect i, phase := Function.update s.phase i .draining }
  | send (s) (i : ι) (ch) (t : τ) (payload) (hch : s.sys.channels i = some ch)
      (ht : s.sys.calls t = none) (hP : P s.sys i) :
      Step handle P Q s { s with sys := s.sys.send i ch t payload }
  | offer (s) (t : τ) (c) (position) (hc : s.sys.calls t = some c)
      (hoffered : s.sys.offered t = false) :
      Step handle P Q s { s with sys := s.sys.offer t c position }
  | timeout (s) (t : τ) (hoffered : s.sys.offered t = true) (hwaits : s.sys.result t = none) :
      Step handle P Q s { s with sys := s.sys.timeout t }
  | serve (s) (t : τ) (message rest published) (hreq : s.sys.requests = (t, message) :: rest) :
      Step handle P Q s { s with sys := s.sys.serve handle t message rest published }
  | other (s) (service : σ) : Step handle P Q s { s with sys := { s.sys with service := service } }
  /-- `try_recv` has a registration. -/
  | register (s) (i : ι) (ch) (correlationId) (t : τ) (rest) (hphase : s.phase i = .draining)
      (hch : s.sys.channels i = some ch) (hreg : ch.pendingTx = (correlationId, t) :: rest) :
      Step handle P Q s { s with sys := s.sys.register i ch correlationId t rest }
  /-- `try_recv` has none, so the poll begins. -/
  | drained (s) (i : ι) (ch) (hphase : s.phase i = .draining) (hch : s.sys.channels i = some ch)
      (hempty : ch.pendingTx = []) :
      Step handle P Q s
        { s with phase := Function.update s.phase i (.polling FRAGMENT_LIMIT) }
  | poll (s) (i : ι) (ch) (t : τ) (message left) (hphase : s.phase i = .polling (left + 1))
      (hch : s.sys.channels i = some ch)
      (hresp : s.sys.responses[ch.position]? = some (t, message)) (hQ : Q s.sys i t) :
      Step handle P Q s (s.poll i ch t message left)
  /-- The poll returns, and the loop starts over. -/
  | polled (s) (i : ι) (left) (hphase : s.phase i = .polling left) :
      Step handle P Q s { s with phase := Function.update s.phase i .draining }

/-- The systems reached from `start`. -/
def Reachable (handle : σ → Bytes → σ × Bytes) (P : AeronSystem ι τ σ → ι → Prop)
    (Q : AeronSystem ι τ σ → ι → τ → Prop) (s₀ : σ) (s : PollSystem ι τ σ) : Prop :=
  Relation.ReflTransGen (Step handle P Q) (start s₀) s

/-! ## The conditions -/

/-- The number of the next call on channel `i` is not that of a call on it that still waits. -/
def FreshId (sys : AeronSystem ι τ σ) (i : ι) : Prop :=
  ∀ ch, sys.channels i = some ch → ∀ t c, sys.calls t = some c → c.channel = i →
    sys.result t = none → c.correlationId ≠ ch.nextCorrelationId

/-- The registration of a call that waits is not in the queue any more. -/
def Drained (sys : AeronSystem ι τ σ) (i : ι) (t : τ) : Prop :=
  ∀ ch c, sys.channels i = some ch → sys.calls t = some c → c.channel = i → sys.result t = none →
    (c.correlationId, t) ∉ ch.pendingTx

/-! ## The invariant -/

/-- The call `t` is registered under its number: it is pending and no other registration with the
number is in the queue, or it is the last in the queue with it. -/
def RegisteredAs (ch : AeronChannel τ) (id : UInt64) (t : τ) : Prop :=
  (ch.pending.get? id = some t ∧ ∀ u, (id, u) ∉ ch.pendingTx) ∨
    ∃ before after, ch.pendingTx = before ++ (id, t) :: after ∧ ∀ u, (id, u) ∉ after

/-- The messages are frames of the calls they are labelled with, and a call that waits is
registered. -/
structure Registered (sys : AeronSystem ι τ σ) : Prop where
  request : ∀ t message, (t, message) ∈ sys.requests →
    ∃ c, sys.calls t = some c ∧ message = frame c.correlationId c.payload
  response : ∀ t message, (t, message) ∈ sys.responses →
    ∃ c bytes, sys.calls t = some c ∧ message = frame c.correlationId bytes
  waiting : ∀ t c, sys.calls t = some c → sys.result t = none →
    ∃ ch, sys.channels c.channel = some ch ∧ RegisteredAs ch c.correlationId t

variable {sys sys' : AeronSystem ι τ σ}

omit [DecidableEq ι] [DecidableEq τ] in
/-- Steps that neither make a call nor touch a channel: the calls that wait only get fewer. -/
lemma Registered.mono (h : Registered sys) (hcalls : sys'.calls = sys.calls)
    (hchannels : sys'.channels = sys.channels)
    (hresult : ∀ t, sys'.result t = none → sys.result t = none)
    (hrequests : ∀ t message, (t, message) ∈ sys'.requests → (t, message) ∈ sys.requests ∨
      ∃ c, sys.calls t = some c ∧ message = frame c.correlationId c.payload)
    (hresponses : ∀ t message, (t, message) ∈ sys'.responses → (t, message) ∈ sys.responses ∨
      ∃ c bytes, sys.calls t = some c ∧ message = frame c.correlationId bytes) :
    Registered sys' where
  request t message hmem := by
    rw [hcalls]
    rcases hrequests t message hmem with hold | hnew
    · exact h.request t message hold
    · exact hnew
  response t message hmem := by
    rw [hcalls]
    rcases hresponses t message hmem with hold | hnew
    · exact h.response t message hold
    · exact hnew
  waiting t c hc hw := by
    rw [hcalls] at hc
    rw [hchannels]
    exact h.waiting t c hc (hresult t hw)

omit [DecidableEq ι] in
lemma result_of_update {t u : τ} {r : Except SendError Bytes}
    {result : τ → Option (Except SendError Bytes)}
    (h : Function.update result t (some r) u = none) : result u = none := by
  by_cases heq : u = t
  · rw [heq, Function.update_self] at h
    exact absurd h (by simp)
  · rwa [Function.update_of_ne heq] at h

omit [DecidableEq τ] in
lemma Registered.connect (h : Registered sys) {i : ι} (hi : sys.channels i = none) :
    Registered (sys.connect i) where
  request := h.request
  response := h.response
  waiting t c hc hw := by
    obtain ⟨ch, hch, hreg⟩ := h.waiting t c hc hw
    have hne : c.channel ≠ i := by
      intro heq
      rw [heq, hi] at hch
      exact absurd hch (by simp)
    exact ⟨ch, (Function.update_of_ne hne _ _).trans hch, hreg⟩

/-- A new call is last in the queue, and has another number than those that wait. -/
lemma Registered.send (h : Registered sys) {i : ι} {ch : AeronChannel τ} {t : τ} (payload : Bytes)
    (hch : sys.channels i = some ch) (ht : sys.calls t = none) (hfresh : FreshId sys i) :
    Registered (sys.send i ch t payload) := by
  have hcalls : ∀ u, (sys.send i ch t payload).calls u =
      if u = t then some ⟨i, ch.nextCorrelationId, payload⟩ else sys.calls u :=
    fun u => Function.update_apply ..
  have hold : ∀ u c, sys.calls u = some c → (sys.send i ch t payload).calls u = some c := by
    intro u c hc
    have hne : u ≠ t := by
      rintro rfl
      rw [ht] at hc
      exact absurd hc (by simp)
    rw [hcalls, if_neg hne, hc]
  refine ⟨fun u message hmem => ?_, fun u message hmem => ?_, fun u c hc hw => ?_⟩
  · obtain ⟨c, hc, hmessage⟩ := h.request u message hmem
    exact ⟨c, hold u c hc, hmessage⟩
  · obtain ⟨c, bytes, hc, hmessage⟩ := h.response u message hmem
    exact ⟨c, bytes, hold u c hc, hmessage⟩
  · rw [hcalls] at hc
    simp only [AeronSystem.send]
    split at hc
    · rename_i hu
      -- the new call itself: nobody behind it has its number
      obtain rfl := Option.some.inj hc
      refine ⟨_, Function.update_self .., Or.inr ⟨ch.pendingTx, [], ?_, fun v => List.not_mem_nil⟩⟩
      rw [hu]
    · obtain ⟨ch', hch', hreg⟩ := h.waiting u c hc hw
      by_cases hi : c.channel = i
      · rw [hi, hch] at hch'
        obtain rfl := Option.some.inj hch'
        -- a call that waits on the same channel, with another number
        have hne : c.correlationId ≠ ch.nextCorrelationId := hfresh ch hch u c hc hi hw
        have hnew : ∀ v, (c.correlationId, v) ∉ [(ch.nextCorrelationId, t)] := by
          intro v hmem
          exact hne (Prod.mk.inj (List.mem_singleton.mp hmem)).1
        rw [hi, Function.update_self]
        refine ⟨_, rfl, ?_⟩
        rcases hreg with ⟨hpending, hnone⟩ | ⟨before, after, hqueue, hnone⟩
        · refine Or.inl ⟨hpending, fun v hmem => ?_⟩
          rcases List.mem_append.mp hmem with hmem | hmem
          · exact hnone v hmem
          · exact hnew v hmem
        · refine Or.inr ⟨before, after ++ [(ch.nextCorrelationId, t)], ?_, fun v hmem => ?_⟩
          · simp only [hqueue, List.append_assoc, List.cons_append]
          · rcases List.mem_append.mp hmem with hmem | hmem
            · exact hnone v hmem
            · exact hnew v hmem
      · rw [Function.update_of_ne hi]
        exact ⟨ch', hch', hreg⟩

omit [DecidableEq τ] in
/-- The drain takes the head of the queue. -/
lemma RegisteredAs.register {ch : AeronChannel τ} {id id' : UInt64} {t t' : τ}
    {rest : List (UInt64 × τ)} (h : RegisteredAs ch id t)
    (hqueue : ch.pendingTx = (id', t') :: rest) :
    RegisteredAs { ch with pendingTx := rest, pending := ch.pending.insert id' t' } id t := by
  rcases h with ⟨hpending, hnone⟩ | ⟨before, after, hsplit, hnone⟩
  · have hne : id ≠ id' := by
      rintro rfl
      exact hnone t' (hqueue ▸ List.mem_cons_self)
    refine Or.inl ⟨?_, fun u hmem => hnone u (hqueue ▸ List.mem_cons_of_mem _ hmem)⟩
    rw [HashMap.get?_insert, if_neg hne]
    exact hpending
  · rw [hqueue] at hsplit
    cases before with
    | nil =>
        obtain ⟨hhead, rfl⟩ := List.cons.inj hsplit
        obtain ⟨rfl, rfl⟩ := Prod.mk.inj hhead
        refine Or.inl ⟨?_, hnone⟩
        rw [HashMap.get?_insert, if_pos rfl]
    | cons first before =>
        obtain ⟨-, rfl⟩ := List.cons.inj hsplit
        exact Or.inr ⟨before, after, rfl, hnone⟩

omit [DecidableEq τ] in
/-- A response is dispatched to a call that is pending, which then does not wait any more. -/
lemma RegisteredAs.dispatch {ch : AeronChannel τ} {id : UInt64} {t : τ} (h : RegisteredAs ch id t)
    (message : Bytes) (hnot : ∀ bytes, (dispatch ch message).2 ≠ some (t, bytes)) :
    RegisteredAs (dispatch ch message).1 id t := by
  unfold AeronSystem.dispatch at hnot ⊢
  cases hparse : parseFrame message with
  | none => exact h
  | some parsed =>
      obtain ⟨id', bytes⟩ := parsed
      cases hpending : ch.pending.get? id' with
      | none =>
          simp only [hpending]
          exact h
      | some t' =>
          simp only [hparse, hpending] at hnot ⊢
          rcases h with ⟨hmine, hnone⟩ | hqueued
          · have hne : id ≠ id' := by
              rintro rfl
              obtain rfl := Option.some.inj (hpending.symm.trans hmine)
              exact hnot bytes rfl
            refine Or.inl ⟨?_, hnone⟩
            rw [HashMap.get?_erase, if_neg hne]
            exact hmine
          · exact Or.inr hqueued

omit [DecidableEq τ] in
lemma Registered.update (h : Registered sys) {i : ι} {ch ch' : AeronChannel τ}
    (hch : sys.channels i = some ch) (hcalls : sys'.calls = sys.calls)
    (hchannels : sys'.channels = Function.update sys.channels i (some ch'))
    (hresult : ∀ t, sys'.result t = none → sys.result t = none)
    (hrequests : sys'.requests = sys.requests) (hresponses : sys'.responses = sys.responses)
    (hkeep : ∀ t c, sys.calls t = some c → sys'.result t = none → c.channel = i →
      RegisteredAs ch c.correlationId t → RegisteredAs ch' c.correlationId t) :
    Registered sys' where
  request t message hmem := by
    rw [hcalls]
    rw [hrequests] at hmem
    exact h.request t message hmem
  response t message hmem := by
    rw [hcalls]
    rw [hresponses] at hmem
    exact h.response t message hmem
  waiting t c hc hw := by
    rw [hcalls] at hc
    obtain ⟨ch₀, hch₀, hreg⟩ := h.waiting t c hc (hresult t hw)
    rw [hchannels]
    by_cases hi : c.channel = i
    · rw [hi, hch] at hch₀
      obtain rfl := Option.some.inj hch₀
      rw [hi, Function.update_self]
      exact ⟨ch', rfl, hkeep t c hc hw hi hreg⟩
    · rw [Function.update_of_ne hi]
      exact ⟨ch₀, hch₀, hreg⟩

lemma Registered.poll (h : Registered sys) {i : ι} {ch : AeronChannel τ} (message : Bytes)
    (hch : sys.channels i = some ch) : Registered (sys.poll i ch message) := by
  refine h.update hch rfl rfl (fun t hw => ?_) rfl rfl (fun t c hc hw hi hreg => ?_)
  · rcases result_poll sys i ch message t with heq | ⟨hnone, -⟩
    · exact heq.symm.trans hw
    · exact hnone
  · apply hreg.dispatch
    intro bytes hdelivered
    -- a call that waits and is given a response does not wait afterwards
    rcases result_poll sys i ch message t with heq | ⟨-, bytes', -, hres⟩
    · have hpoll : (sys.poll i ch message).result t = some (.ok bytes) := by
        have hnone : sys.result t = none := heq.symm.trans hw
        simp only [AeronSystem.poll, hdelivered, hnone, if_true, Function.update_self]
      rw [hw] at hpoll
      exact absurd hpoll (by simp)
    · rw [hw] at hres
      exact absurd hres (by simp)

/-- **Every step keeps the calls that wait registered.** -/
lemma Registered.step {handle : σ → Bytes → σ × Bytes} {Q : AeronSystem ι τ σ → ι → τ → Prop}
    {s s' : PollSystem ι τ σ} (h : Registered s.sys) (hstep : Step handle FreshId Q s s') :
    Registered s'.sys := by
  cases hstep with
  | connect i hi => exact h.connect hi
  | send i ch t payload hch ht hfresh => exact h.send payload hch ht hfresh
  | offer t c position hc hoffered =>
      simp only [AeronSystem.offer]
      split
      · exact h.mono rfl rfl (fun u hw => result_of_update hw) (fun _ _ hmem => Or.inl hmem)
          (fun _ _ hmem => Or.inl hmem)
      · refine h.mono rfl rfl (fun _ hw => hw) (fun u message hmem => ?_)
          (fun _ _ hmem => Or.inl hmem)
        rcases List.mem_append.mp hmem with hmem | hmem
        · exact Or.inl hmem
        · obtain ⟨rfl, rfl⟩ := Prod.mk.inj (List.mem_singleton.mp hmem)
          exact Or.inr ⟨c, hc, rfl⟩
  | timeout t hoffered hwaits =>
      exact h.mono rfl rfl (fun u hw => result_of_update hw) (fun _ _ hmem => Or.inl hmem)
        (fun _ _ hmem => Or.inl hmem)
  | serve t message rest published hreq =>
      have hrest : ∀ u m, (u, m) ∈ rest → (u, m) ∈ s.sys.requests :=
        fun u m hmem => hreq ▸ List.mem_cons_of_mem _ hmem
      -- the response carries the number of the request that is served
      obtain ⟨c, hc, rfl⟩ := h.request t message (hreq ▸ List.mem_cons_self)
      simp only [AeronSystem.serve, parseFrame_frame]
      refine h.mono rfl rfl (fun _ hw => hw) (fun u m hmem => Or.inl (hrest u m hmem)) ?_
      intro u m hmem
      dsimp only at hmem
      split at hmem
      · rcases List.mem_append.mp hmem with hmem | hmem
        · exact Or.inl hmem
        · obtain ⟨rfl, rfl⟩ := Prod.mk.inj (List.mem_singleton.mp hmem)
          exact Or.inr ⟨c, _, hc, rfl⟩
      · exact Or.inl hmem
  | other service =>
      exact h.mono rfl rfl (fun _ hw => hw) (fun _ _ hmem => Or.inl hmem)
        (fun _ _ hmem => Or.inl hmem)
  | register i ch id t rest hphase hch hreg =>
      exact h.update hch rfl rfl (fun _ hw => hw) rfl rfl
        (fun u c hc hw hi hregistered => hregistered.register hreg)
  | drained i ch hphase hch hempty => exact h
  | poll i ch t message left hphase hch hresp hQ => exact h.poll message hch
  | polled i left hphase => exact h

/-! ## No response is lost -/

omit [DecidableEq τ] in
/-- A response whose call is registered is dispatched to it. -/
lemma dispatch_of_pending {ch : AeronChannel τ} {id : UInt64} {t : τ}
    (hpending : ch.pending.get? id = some t) (bytes : Bytes) :
    (dispatch ch (frame id bytes)).2 = some (t, (frame id bytes).drop 8) := by
  have hdrop : (frame id bytes).drop 8 = bytes := List.drop_left' (Bytes.length_ofU64 _)
  rw [hdrop]
  simp only [dispatch, parseFrame_frame, hpending]

lemma lost_step {handle : σ → Bytes → σ × Bytes} {s s' : PollSystem ι τ σ} (h : Registered s.sys)
    (hlost : s.lost = []) (hstep : Step handle FreshId Drained s s') : s'.lost = [] := by
  cases hstep with
  | poll i ch t message left hphase hch hresp hdrained =>
      simp only [PollSystem.poll]
      rw [if_neg, hlost]
      rintro ⟨hwaits, hnot⟩
      rw [waitsOn, Bool.and_eq_true, Option.isNone_iff_eq_none, Option.any_eq_true] at hwaits
      obtain ⟨hw, c, hc, hi⟩ := hwaits
      have hi : c.channel = i := of_decide_eq_true hi
      obtain ⟨c', bytes, hc', rfl⟩ := h.response t message (List.mem_of_getElem? hresp)
      obtain rfl := Option.some.inj (hc.symm.trans hc')
      obtain ⟨ch', hch', hreg⟩ := h.waiting t c hc hw
      rw [hi, hch] at hch'
      obtain rfl := Option.some.inj hch'
      rcases hreg with ⟨hpending, -⟩ | ⟨before, after, hqueue, -⟩
      · exact hnot (dispatch_of_pending hpending bytes)
      · apply hdrained ch c hch hc hi hw
        rw [hqueue]
        exact List.mem_append_right _ List.mem_cons_self
  | connect => exact hlost
  | send => exact hlost
  | offer => exact hlost
  | timeout => exact hlost
  | serve => exact hlost
  | other => exact hlost
  | register => exact hlost
  | drained => exact hlost
  | polled => exact hlost

/-- **No response is lost.**  In every run in which a response of a call that waits is taken only
after a drain has taken its registration, and no call is numbered like one on its channel that still
waits, every response that is taken while its call waits is given to the call. -/
theorem no_response_lost (handle : σ → Bytes → σ × Bytes) (s₀ : σ) (s : PollSystem ι τ σ)
    (h : Reachable handle FreshId Drained s₀ s) : s.lost = [] := by
  have hinv : Registered s.sys ∧ s.lost = [] := by
    induction h with
    | refl =>
        refine ⟨⟨fun t message hmem => ?_, fun t message hmem => ?_, fun t c hc => ?_⟩, rfl⟩
        · exact absurd hmem List.not_mem_nil
        · exact absurd hmem List.not_mem_nil
        · exact absurd hc (by simp [start, AeronSystem.start])
    | tail _ hstep ih => exact ⟨ih.1.step hstep, lost_step ih.1 ih.2 hstep⟩
  exact hinv.2

/-- A gateway cancels order 11; the drain takes the registration, and the poll the response. -/
theorem no_response_lost_cancel : ∃ s : PollSystem Unit Unit Unit,
    s.sys.result () = some (.ok (acceptResponse 11)) ∧ s.lost = [] := by
  have hstart : Reachable cancels FreshId Drained () (start () : PollSystem Unit Unit Unit) := .refl
  have hconnect := hstart.tail (.connect _ () rfl)
  have hsend := hconnect.tail (.send _ () _ () (cancelMessage 1 11) rfl rfl
    (fun ch hch t c hc => absurd hc (by simp [start, AeronSystem.connect, AeronSystem.start])))
  have hoffer := hsend.tail (.offer _ () _ 0 rfl rfl)
  have hregister := hoffer.tail (.register _ () _ _ _ _ rfl rfl rfl)
  have hdrained := hregister.tail (.drained _ () _ rfl rfl rfl)
  have hserve := hdrained.tail (.serve _ () _ _ true rfl)
  have hpoll := hserve.tail (.poll _ () _ _ _ _ rfl rfl rfl (fun ch c hch _ _ _ => by
    obtain rfl := Option.some.inj hch
    exact List.not_mem_nil))
  exact ⟨_, rfl, no_response_lost cancels () _ hpoll⟩

/-- A gateway connects, and its poll thread finds no registration and goes on to poll.  The gateway
then registers a cancellation and publishes it, the service answers, and the poll discards the
answer while the gateway waits. -/
theorem response_lost_between_drain_and_poll : ¬∀ s : PollSystem Unit Unit Unit,
    Reachable cancels FreshId (fun _ _ _ => True) () s → s.lost = [] := by
  intro h
  have hstart : Reachable cancels FreshId (fun _ _ _ => True) ()
      (start () : PollSystem Unit Unit Unit) := .refl
  have hconnect := hstart.tail (.connect _ () rfl)
  have hdrained := hconnect.tail (.drained _ () _ rfl rfl rfl)
  have hsend := hdrained.tail (.send _ () _ () (cancelMessage 1 11) rfl rfl
    (fun ch hch t c hc => absurd hc (by simp [start, AeronSystem.connect, AeronSystem.start])))
  have hoffer := hsend.tail (.offer _ () _ 0 rfl rfl)
  have hserve := hoffer.tail (.serve _ () _ _ true rfl)
  have hpoll := hserve.tail (.poll _ () _ _ _ _ rfl rfl rfl trivial)
  exact absurd (h _ hpoll) (by decide)

end PollSystem

end ExchangeCore
