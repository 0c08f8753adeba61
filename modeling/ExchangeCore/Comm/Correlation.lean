import ExchangeCore.Comm.AeronChannel

/-!
# Correlation of requests and responses

Every channel starts to number its calls at 1, and every channel sees the responses to all of them.
So a response can be given to a call of another channel that happens to have the same number.  It
cannot if every call is sent with a number that is free at that moment (`IdFree`): then no two
calls that wait have the same number, and whatever is on its way with the number of a call that
waits is that call's own (`CorrelationInv`).
-/

namespace ExchangeCore

namespace AeronSystem

variable {ι τ σ : Type} {sys : AeronSystem ι τ σ}

/-! ## The invariant -/

/-- The channels know what they have registered. -/
structure ChannelInv (sys : AeronSystem ι τ σ) : Prop where
  connected : ∀ t c, sys.calls t = some c → ∃ ch, sys.channels c.channel = some ch
  entry : ∀ i ch, sys.channels i = some ch → ∀ id t,
    (id, t) ∈ ch.pendingTx ∨ ch.pending.get? id = some t →
      ∃ c, sys.calls t = some c ∧ c.channel = i ∧ c.correlationId = id
  unoffered : ∀ t, sys.offered t = false → sys.result t = none
  uncalled : ∀ t, sys.calls t = none → sys.offered t = false

/-- The messages in the streams are those of the calls they are labelled with. -/
structure StreamInv (sys : AeronSystem ι τ σ) : Prop where
  request : ∀ t message, (t, message) ∈ sys.requests →
    sys.offered t = true ∧ ∃ c, sys.calls t = some c ∧ message = frame c.correlationId c.payload
  response : ∀ t message, (t, message) ∈ sys.responses →
    sys.offered t = true ∧ ∃ c bytes, sys.calls t = some c ∧
      message = frame c.correlationId bytes ∧ (t, c.payload, bytes) ∈ sys.handled

/-- A call that waits owns its correlation id. -/
structure OwnerInv (sys : AeronSystem ι τ σ) : Prop where
  waiting : ∀ t c t' c', sys.calls t = some c → sys.result t = none → sys.calls t' = some c' →
    sys.result t' = none → c'.correlationId = c.correlationId → t' = t
  request : ∀ t c t' c' message, sys.calls t = some c → sys.result t = none →
    (t', message) ∈ sys.requests → sys.calls t' = some c' →
    c'.correlationId = c.correlationId → t' = t
  response : ∀ t c ch k t' c' message, sys.calls t = some c → sys.result t = none →
    sys.channels c.channel = some ch → ch.position ≤ k →
    sys.responses[k]? = some (t', message) → sys.calls t' = some c' →
    c'.correlationId = c.correlationId → t' = t

/-- **The invariant.** -/
structure CorrelationInv (sys : AeronSystem ι τ σ) : Prop where
  channel : ChannelInv sys
  stream : StreamInv sys
  owner : OwnerInv sys
  correlated : Correlated sys

lemma correlationInv_start (s : σ) : CorrelationInv (start s : AeronSystem ι τ σ) where
  channel := ⟨nofun, nofun, fun _ _ => rfl, fun _ _ => rfl⟩
  stream := ⟨nofun, nofun⟩
  owner := ⟨nofun, nofun, nofun⟩
  correlated := nofun

/-! ## What most steps leave alone -/

variable {sys' : AeronSystem ι τ σ}

/-- Fewer messages, of the same or more calls. -/
lemma StreamInv.mono (h : StreamInv sys)
    (hcalls : ∀ t c, sys.calls t = some c → sys'.calls t = some c)
    (hoffered : ∀ t, sys.offered t = true → sys'.offered t = true)
    (hrequests : ∀ r ∈ sys'.requests, r ∈ sys.requests)
    (hresponses : sys'.responses = sys.responses)
    (hhandled : ∀ r ∈ sys.handled, r ∈ sys'.handled) : StreamInv sys' where
  request t message hmem := by
    obtain ⟨ho, c, hc, hmessage⟩ := h.request t message (hrequests _ hmem)
    exact ⟨hoffered t ho, c, hcalls t c hc, hmessage⟩
  response t message hmem := by
    rw [hresponses] at hmem
    obtain ⟨ho, c, bytes, hc, hmessage, hbytes⟩ := h.response t message hmem
    exact ⟨hoffered t ho, c, bytes, hcalls t c hc, hmessage, hhandled _ hbytes⟩

/-- Fewer calls that wait, fewer requests, and channels that have read further. -/
lemma OwnerInv.mono (h : OwnerInv sys) (hcalls : sys'.calls = sys.calls)
    (hresult : ∀ t, sys'.result t = none → sys.result t = none)
    (hrequests : ∀ r ∈ sys'.requests, r ∈ sys.requests)
    (hresponses : sys'.responses = sys.responses)
    (hchannels : ∀ t c ch', sys.calls t = some c → sys'.channels c.channel = some ch' →
      ∃ ch, sys.channels c.channel = some ch ∧ ch.position ≤ ch'.position) : OwnerInv sys' where
  waiting t c t' c' hc hw hc' hw' heq := by
    rw [hcalls] at hc hc'
    exact h.waiting t c t' c' hc (hresult t hw) hc' (hresult t' hw') heq
  request t c t' c' message hc hw hmem hc' heq := by
    rw [hcalls] at hc hc'
    exact h.request t c t' c' message hc (hresult t hw) (hrequests _ hmem) hc' heq
  response t c ch' k t' c' message hc hw hch' hk hmem hc' heq := by
    rw [hcalls] at hc hc'
    rw [hresponses] at hmem
    obtain ⟨ch, hch, hle⟩ := hchannels t c ch' hc hch'
    exact h.response t c ch k t' c' message hc (hresult t hw) hch (hle.trans hk) hmem hc' heq

/-- A channel that was already connected has not moved back. -/
lemma position_le_of_update [DecidableEq ι] {i j : ι} {ch ch₁ ch' : AeronChannel τ}
    (hch : sys.channels i = some ch)
    (hch' : Function.update sys.channels i (some ch₁) j = some ch')
    (hle : ch.position ≤ ch₁.position) :
    ∃ ch₀, sys.channels j = some ch₀ ∧ ch₀.position ≤ ch'.position := by
  by_cases hj : j = i
  · subst hj
    rw [Function.update_self] at hch'
    obtain rfl := Option.some.inj hch'
    exact ⟨ch, hch, hle⟩
  · rw [Function.update_of_ne hj] at hch'
    exact ⟨ch', hch', le_rfl⟩

/-- Replacing a channel by one with no other registrations. -/
lemma ChannelInv.update [DecidableEq ι] (h : ChannelInv sys) {i : ι} {ch ch₁ : AeronChannel τ}
    (hch : sys.channels i = some ch)
    (hentries : ∀ id t, (id, t) ∈ ch₁.pendingTx ∨ ch₁.pending.get? id = some t →
      (id, t) ∈ ch.pendingTx ∨ ch.pending.get? id = some t)
    (hchannels : sys'.channels = Function.update sys.channels i (some ch₁))
    (hcalls : sys'.calls = sys.calls) (hoffered : sys'.offered = sys.offered)
    (hresult : ∀ t, sys.result t = none → sys.offered t = false → sys'.result t = none) :
    ChannelInv sys' where
  connected t c hc := by
    rw [hcalls] at hc
    obtain ⟨ch₀, hch₀⟩ := h.connected t c hc
    rw [hchannels]
    by_cases hj : c.channel = i
    · rw [hj, Function.update_self]
      exact ⟨_, rfl⟩
    · rw [Function.update_of_ne hj]
      exact ⟨ch₀, hch₀⟩
  entry j ch' hch' id t hmem := by
    rw [hchannels] at hch'
    rw [hcalls]
    by_cases hj : j = i
    · subst hj
      rw [Function.update_self] at hch'
      obtain rfl := Option.some.inj hch'
      exact h.entry j ch hch id t (hentries id t hmem)
    · rw [Function.update_of_ne hj] at hch'
      exact h.entry j ch' hch' id t hmem
  unoffered t ht := by
    rw [hoffered] at ht
    exact hresult t (h.unoffered t ht) ht
  uncalled t ht := by
    rw [hcalls] at ht
    rw [hoffered]
    exact h.uncalled t ht

/-! ## One step -/

section Steps

variable [DecidableEq ι] [DecidableEq τ]

omit [DecidableEq τ] in
lemma CorrelationInv.connect (h : CorrelationInv sys) {i : ι} (hi : sys.channels i = none) :
    CorrelationInv (sys.connect i) := by
  -- no call has been made on this channel yet
  have hne : ∀ t c, sys.calls t = some c → c.channel ≠ i := by
    intro t c hc heq
    obtain ⟨ch, hch⟩ := h.channel.connected t c hc
    rw [heq, hi] at hch
    cases hch
  refine ⟨⟨fun t c hc => ?_, fun j ch hch id t hmem => ?_, h.channel.unoffered, h.channel.uncalled⟩,
    h.stream.mono (fun _ _ hc => hc) (fun _ ho => ho) (fun _ hr => hr) rfl (fun _ hr => hr),
    h.owner.mono rfl (fun _ hw => hw) (fun _ hr => hr) rfl (fun t c ch' hc hch' => ?_),
    h.correlated⟩
  · obtain ⟨ch, hch⟩ := h.channel.connected t c hc
    exact ⟨ch, (Function.update_of_ne (hne t c hc) _ _).trans hch⟩
  · simp only [AeronSystem.connect] at hch
    by_cases hj : j = i
    · subst hj
      rw [Function.update_self] at hch
      obtain rfl := Option.some.inj hch
      simp at hmem
    · rw [Function.update_of_ne hj] at hch
      exact h.channel.entry j ch hch id t hmem
  · simp only [AeronSystem.connect] at hch'
    rw [Function.update_of_ne (hne t c hc)] at hch'
    exact ⟨ch', hch', le_rfl⟩

section Send

variable {i : ι} {ch : AeronChannel τ} {t : τ} {payload : Bytes}

lemma calls_send (u : τ) : (sys.send i ch t payload).calls u =
    if u = t then some ⟨i, ch.nextCorrelationId, payload⟩ else sys.calls u :=
  Function.update_apply ..

omit [DecidableEq ι] [DecidableEq τ] in
lemma ne_of_calls (ht : sys.calls t = none) {u : τ} {c : ChannelCall ι}
    (hc : sys.calls u = some c) : u ≠ t := by
  rintro rfl
  rw [ht] at hc
  cases hc

lemma ChannelInv.send (h : ChannelInv sys) (hch : sys.channels i = some ch)
    (ht : sys.calls t = none) : ChannelInv (sys.send i ch t payload) where
  connected u c hc := by
    rw [calls_send] at hc
    simp only [AeronSystem.send]
    by_cases hj : c.channel = i
    · rw [hj, Function.update_self]
      exact ⟨_, rfl⟩
    · rw [Function.update_of_ne hj]
      split at hc
      · obtain rfl := Option.some.inj hc
        exact absurd rfl hj
      · exact h.connected u c hc
  entry j ch' hch' id u hmem := by
    -- an entry that was there before
    have hold : (∃ c, sys.calls u = some c ∧ c.channel = j ∧ c.correlationId = id) →
        ∃ c, (sys.send i ch t payload).calls u = some c ∧ c.channel = j ∧ c.correlationId = id := by
      rintro ⟨c, hc, hprops⟩
      exact ⟨c, by rw [calls_send, if_neg (ne_of_calls ht hc), hc], hprops⟩
    simp only [AeronSystem.send] at hch'
    by_cases hj : j = i
    · subst hj
      rw [Function.update_self] at hch'
      obtain rfl := Option.some.inj hch'
      rcases hmem with hmem | hmem
      · rcases List.mem_append.mp hmem with hmem | hmem
        · exact hold (h.entry j ch hch id u (Or.inl hmem))
        · obtain ⟨rfl, rfl⟩ := Prod.mk.inj (List.mem_singleton.mp hmem)
          exact ⟨_, by rw [calls_send, if_pos rfl], rfl, rfl⟩
      · exact hold (h.entry j ch hch id u (Or.inr hmem))
    · rw [Function.update_of_ne hj] at hch'
      exact hold (h.entry j ch' hch' id u hmem)
  unoffered := h.unoffered
  uncalled u hu := by
    rw [calls_send] at hu
    split at hu
    · cases hu
    · exact h.uncalled u hu

/-- A call sent with a free correlation id owns it. -/
lemma OwnerInv.send (h : OwnerInv sys) (hstream : StreamInv sys) (hch : sys.channels i = some ch)
    (ht : sys.calls t = none) (hfree : IdFree sys i) : OwnerInv (sys.send i ch t payload) := by
  obtain ⟨hwaiting, hrequests, hresponses⟩ := hfree ch hch
  refine ⟨fun u c u' c' hc hw hc' hw' heq => ?_, fun u c u' c' message hc hw hmem hc' heq => ?_,
    fun u c ch' k u' c' message hc hw hch' hk hmem hc' heq => ?_⟩
  · rw [calls_send] at hc hc'
    split at hc
    · rename_i hu
      -- the new call: no waiting call has its id, nor does a message in flight
      obtain rfl := Option.some.inj hc
      split at hc'
      · rename_i hu'
        rw [hu, hu']
      · exact absurd heq (hwaiting u' c' hc' hw')
    · split at hc'
      · obtain rfl := Option.some.inj hc'
        exact absurd heq.symm (hwaiting u c hc hw)
      · exact h.waiting u c u' c' hc hw hc' hw' heq
  · obtain ⟨-, c₀, hc₀, rfl⟩ := hstream.request u' message hmem
    rw [calls_send, if_neg (ne_of_calls ht hc₀), hc₀] at hc'
    obtain rfl := Option.some.inj hc'
    rw [calls_send] at hc
    split at hc
    · obtain rfl := Option.some.inj hc
      refine absurd ?_ (hrequests u' _ c₀.payload hmem)
      rw [heq, parseFrame_frame]
    · exact h.request u c u' c₀ _ hc hw hmem hc₀ heq
  · obtain ⟨-, c₀, bytes, hc₀, rfl, -⟩ := hstream.response u' message (List.mem_of_getElem? hmem)
    rw [calls_send, if_neg (ne_of_calls ht hc₀), hc₀] at hc'
    obtain rfl := Option.some.inj hc'
    obtain ⟨ch₀, hch₀, hle⟩ := position_le_of_update hch hch' le_rfl
    rw [calls_send] at hc
    split at hc
    · obtain rfl := Option.some.inj hc
      obtain rfl := Option.some.inj (hch.symm.trans hch₀)
      refine absurd ?_ (hresponses k u' _ bytes (hle.trans hk) hmem)
      rw [heq, parseFrame_frame]
    · exact h.response u c ch₀ k u' c₀ _ hc hw hch₀ (hle.trans hk) hmem hc₀ heq

lemma CorrelationInv.send (h : CorrelationInv sys) (hch : sys.channels i = some ch)
    (ht : sys.calls t = none) (hfree : IdFree sys i) :
    CorrelationInv (sys.send i ch t payload) := by
  have hkeep : ∀ u c, sys.calls u = some c → (sys.send i ch t payload).calls u = some c :=
    fun u c hc => by rw [calls_send, if_neg (ne_of_calls ht hc), hc]
  refine ⟨h.channel.send hch ht,
    h.stream.mono hkeep (fun _ ho => ho) (fun _ hr => hr) rfl (fun _ hr => hr),
    h.owner.send h.stream hch ht hfree, fun u c bytes hc hresult => ?_⟩
  rw [calls_send] at hc
  split at hc
  · rename_i hu
    -- the new call has not returned
    have hnone : sys.result u = none := by
      rw [hu]
      exact h.channel.unoffered t (h.channel.uncalled t ht)
    exact absurd (hresult.symm.trans hnone) (by simp)
  · exact h.correlated u c bytes hc hresult

end Send

omit [DecidableEq ι] in
/-- A call ends without a response. -/
lemma CorrelationInv.fail (h : CorrelationInv sys) {t : τ} {e : SendError}
    (hoffered : sys.offered t = true) :
    CorrelationInv { sys with result := Function.update sys.result t (some (.error e)) } := by
  have hresult : ∀ u, Function.update sys.result t (some (.error e)) u = none →
      sys.result u = none := by
    intro u hu
    by_cases heq : u = t
    · subst heq
      rw [Function.update_self] at hu
      cases hu
    · rwa [Function.update_of_ne heq] at hu
  refine ⟨⟨h.channel.connected, h.channel.entry, fun u hu => ?_, h.channel.uncalled⟩,
    h.stream.mono (fun _ _ hc => hc) (fun _ ho => ho) (fun _ hr => hr) rfl (fun _ hr => hr),
    h.owner.mono rfl hresult (fun _ hr => hr) rfl (fun _ _ ch' _ hch' => ⟨ch', hch', le_rfl⟩),
    fun u c bytes hc hok => ?_⟩
  · have hne : u ≠ t := by
      rintro rfl
      rw [hoffered] at hu
      cases hu
    exact (Function.update_of_ne hne _ _).trans (h.channel.unoffered u hu)
  · by_cases heq : u = t
    · subst heq
      simp at hok
    · simp only [Function.update_of_ne heq] at hok
      exact h.correlated u c bytes hc hok

omit [DecidableEq ι] in
lemma CorrelationInv.mark (h : CorrelationInv sys) {t : τ} {c : ChannelCall ι}
    (hc : sys.calls t = some c) :
    CorrelationInv { sys with offered := Function.update sys.offered t true } := by
  have hmark : ∀ u, sys.offered u = true → Function.update sys.offered t true u = true := by
    intro u hu
    by_cases heq : u = t
    · rw [heq, Function.update_self]
    · rwa [Function.update_of_ne heq]
  refine ⟨⟨h.channel.connected, h.channel.entry, fun u hu => ?_, fun u hu => ?_⟩,
    h.stream.mono (fun _ _ hc => hc) hmark (fun _ hr => hr) rfl (fun _ hr => hr),
    h.owner.mono rfl (fun _ hw => hw) (fun _ hr => hr) rfl
      (fun _ _ ch' _ hch' => ⟨ch', hch', le_rfl⟩), h.correlated⟩
  · by_cases heq : u = t
    · subst heq
      simp at hu
    · simp only [Function.update_of_ne heq] at hu
      exact h.channel.unoffered u hu
  · have hne : u ≠ t := (ne_of_calls hu hc).symm
    exact (Function.update_of_ne hne _ _).trans (h.channel.uncalled u hu)

omit [DecidableEq ι] in
lemma CorrelationInv.offer (h : CorrelationInv sys) {t : τ} {c : ChannelCall ι} (position : Int64)
    (hc : sys.calls t = some c) (hoffered : sys.offered t = false) :
    CorrelationInv (sys.offer t c position) := by
  have hmarked := h.mark hc
  simp only [AeronSystem.offer]
  split
  · exact hmarked.fail (by simp)
  · -- the request is that of a call that waits
    have hwaits : sys.result t = none := h.channel.unoffered t hoffered
    refine ⟨⟨hmarked.channel.connected, hmarked.channel.entry, hmarked.channel.unoffered,
      hmarked.channel.uncalled⟩, ⟨fun u message hmem => ?_, hmarked.stream.response⟩,
      ⟨h.owner.waiting, fun u d u' d' message hd hw hmem hd' heq => ?_, h.owner.response⟩,
      h.correlated⟩
    · rcases List.mem_append.mp hmem with hmem | hmem
      · exact hmarked.stream.request u message hmem
      · obtain ⟨rfl, rfl⟩ := Prod.mk.inj (List.mem_singleton.mp hmem)
        exact ⟨Function.update_self .., c, hc, rfl⟩
    · rcases List.mem_append.mp hmem with hmem | hmem
      · exact h.owner.request u d u' d' message hd hw hmem hd' heq
      · obtain ⟨rfl, rfl⟩ := Prod.mk.inj (List.mem_singleton.mp hmem)
        exact h.owner.waiting u d u' d' hd hw hd' hwaits heq

omit [DecidableEq ι] [DecidableEq τ] in
/-- The response to a request is labelled like the request. -/
lemma CorrelationInv.serve (h : CorrelationInv sys) (handle : σ → Bytes → σ × Bytes) {t : τ}
    {message : Bytes} {rest : List (τ × Bytes)} (published : Bool)
    (hreq : sys.requests = (t, message) :: rest) :
    CorrelationInv (sys.serve handle t message rest published) := by
  have hmem : (t, message) ∈ sys.requests := hreq ▸ List.mem_cons_self
  have hrest : ∀ r ∈ rest, r ∈ sys.requests := fun r hr => hreq ▸ List.mem_cons_of_mem _ hr
  obtain ⟨ho, c, hc, rfl⟩ := h.stream.request t message hmem
  simp only [AeronSystem.serve, parseFrame_frame]
  have hhandled : ∀ r ∈ sys.handled, r ∈ sys.handled ++
      [(t, c.payload, (handle sys.service c.payload).2)] := fun r hr => List.mem_append_left _ hr
  have hcorrelated : ∀ u d bytes, sys.calls u = some d → sys.result u = some (.ok bytes) →
      (u, d.payload, bytes) ∈ sys.handled ++ [(t, c.payload, (handle sys.service c.payload).2)] :=
    fun u d bytes hd hok => hhandled _ (h.correlated u d bytes hd hok)
  split
  · refine ⟨⟨h.channel.connected, h.channel.entry, h.channel.unoffered, h.channel.uncalled⟩,
      ⟨fun u m hm => h.stream.request u m (hrest _ hm), fun u m hm => ?_⟩,
      ⟨h.owner.waiting, fun u d u' d' m hd hw hm => h.owner.request u d u' d' m hd hw (hrest _ hm),
        fun u d ch k u' d' m hd hw hch hk hm hd' heq => ?_⟩, hcorrelated⟩
    · rcases List.mem_append.mp hm with hm | hm
      · obtain ⟨ho', d, bytes, hd, rfl, hbytes⟩ := h.stream.response u m hm
        exact ⟨ho', d, bytes, hd, rfl, hhandled _ hbytes⟩
      · obtain ⟨rfl, rfl⟩ := Prod.mk.inj (List.mem_singleton.mp hm)
        exact ⟨ho, c, _, hc, rfl, List.mem_append_right _ (List.mem_singleton.mpr rfl)⟩
    · by_cases hlt : k < sys.responses.length
      · rw [List.getElem?_append_left hlt] at hm
        exact h.owner.response u d ch k u' d' m hd hw hch hk hm hd' heq
      · rw [List.getElem?_append_right (not_lt.mp hlt)] at hm
        obtain ⟨rfl, rfl⟩ := Prod.mk.inj (List.mem_singleton.mp (List.mem_of_getElem? hm))
        exact h.owner.request u d u' d' _ hd hw hmem hd' heq
  · exact ⟨⟨h.channel.connected, h.channel.entry, h.channel.unoffered, h.channel.uncalled⟩,
      h.stream.mono (fun _ _ hd => hd) (fun _ ho => ho) hrest rfl hhandled,
      h.owner.mono rfl (fun _ hw => hw) hrest rfl (fun _ _ ch' _ hch' => ⟨ch', hch', le_rfl⟩),
      hcorrelated⟩

omit [DecidableEq τ] in
lemma CorrelationInv.register (h : CorrelationInv sys) {i : ι} {ch : AeronChannel τ} {id : UInt64}
    {t : τ} {rest : List (UInt64 × τ)} (hch : sys.channels i = some ch)
    (hreg : ch.pendingTx = (id, t) :: rest) : CorrelationInv (sys.register i ch id t rest) := by
  refine ⟨h.channel.update hch (fun id' u hmem => ?_) rfl rfl rfl (fun _ hw _ => hw),
    h.stream.mono (fun _ _ hc => hc) (fun _ ho => ho) (fun _ hr => hr) rfl (fun _ hr => hr),
    h.owner.mono rfl (fun _ hw => hw) (fun _ hr => hr) rfl
      (fun _ _ ch' _ hch' => position_le_of_update hch hch' le_rfl), h.correlated⟩
  rcases hmem with hmem | hmem
  · exact Or.inl (hreg ▸ List.mem_cons_of_mem _ hmem)
  · rw [HashMap.get?_insert] at hmem
    split at hmem
    · rename_i hid
      obtain rfl := Option.some.inj hmem
      rw [hid, hreg]
      exact Or.inl List.mem_cons_self
    · exact Or.inr hmem

omit [DecidableEq ι] [DecidableEq τ] in
lemma dispatch_spec (ch : AeronChannel τ) (message : Bytes) :
    (dispatch ch message).1.position = ch.position + 1 ∧
      (dispatch ch message).1.pendingTx = ch.pendingTx ∧
      (∀ id t, (dispatch ch message).1.pending.get? id = some t → ch.pending.get? id = some t) ∧
      ∀ t bytes, (dispatch ch message).2 = some (t, bytes) →
        ∃ id, parseFrame message = some (id, bytes) ∧ ch.pending.get? id = some t := by
  unfold dispatch
  split
  · exact ⟨rfl, rfl, fun _ _ h => h, by simp⟩
  · rename_i id bytes hparse
    dsimp only
    split
    · exact ⟨rfl, rfl, fun _ _ h => h, by simp⟩
    · rename_i t hpending
      refine ⟨rfl, rfl, fun id' t' h => ?_, fun t' bytes' h => ?_⟩
      · rw [HashMap.get?_erase] at h
        split at h
        · cases h
        · exact h
      · obtain ⟨rfl, rfl⟩ := Prod.mk.inj (Option.some.inj h)
        exact ⟨id, hparse, hpending⟩

/-- Only the result of the call a response is dispatched to can change. -/
lemma result_poll (sys : AeronSystem ι τ σ) (i : ι) (ch : AeronChannel τ) (message : Bytes)
    (u : τ) :
    (sys.poll i ch message).result u = sys.result u ∨
      sys.result u = none ∧ ∃ bytes, (dispatch ch message).2 = some (u, bytes) ∧
        (sys.poll i ch message).result u = some (.ok bytes) := by
  simp only [AeronSystem.poll]
  cases hd : (dispatch ch message).2 with
  | none => exact Or.inl rfl
  | some delivery =>
      obtain ⟨t, bytes⟩ := delivery
      dsimp only
      split
      · rename_i hwaits
        by_cases heq : u = t
        · subst heq
          exact Or.inr ⟨hwaits, bytes, rfl, Function.update_self ..⟩
        · exact Or.inl (Function.update_of_ne heq _ _)
      · exact Or.inl rfl

/-- A call that waits is given its own response. -/
lemma CorrelationInv.poll (h : CorrelationInv sys) {i : ι} {ch : AeronChannel τ} {t : τ}
    {message : Bytes} (hch : sys.channels i = some ch)
    (hresp : sys.responses[ch.position]? = some (t, message)) :
    CorrelationInv (sys.poll i ch message) := by
  obtain ⟨hposition, hpendingTx, hpending, hdelivery⟩ := dispatch_spec ch message
  have hle : ch.position ≤ (dispatch ch message).1.position := by
    rw [hposition]
    exact Nat.le_succ _
  obtain ⟨ho, c, bytes, hc, rfl, hbytes⟩ :=
    h.stream.response t message (List.mem_of_getElem? hresp)
  -- the call the response is dispatched to has its correlation id, so it is its own
  have hown : ∀ u bytes', sys.result u = none →
      (dispatch ch (frame c.correlationId bytes)).2 = some (u, bytes') →
        u = t ∧ bytes' = bytes := by
    intro u bytes' hw hd
    obtain ⟨id, hparse, hpend⟩ := hdelivery u bytes' hd
    rw [parseFrame_frame] at hparse
    obtain ⟨rfl, rfl⟩ := Prod.mk.inj (Option.some.inj hparse)
    obtain ⟨d, hd, rfl, hid⟩ := h.channel.entry i ch hch _ u (Or.inr hpend)
    exact ⟨(h.owner.response u d ch _ t c _ hd hw hch le_rfl hresp hc hid.symm).symm, rfl⟩
  refine ⟨h.channel.update hch (fun id u hmem => ?_) rfl rfl rfl (fun u hw hu => ?_),
    h.stream.mono (fun _ _ hc => hc) (fun _ ho => ho) (fun _ hr => hr) rfl (fun _ hr => hr),
    h.owner.mono rfl (fun u hw => ?_) (fun _ hr => hr) rfl
      (fun _ _ ch' _ hch' => position_le_of_update hch hch' hle),
    fun u d bytes' hd hok => ?_⟩
  · rcases hmem with hmem | hmem
    · exact Or.inl (hpendingTx ▸ hmem)
    · exact Or.inr (hpending id u hmem)
  · rcases result_poll sys i ch (frame c.correlationId bytes) u with heq | ⟨-, bytes', hd, -⟩
    · exact heq.trans hw
    · obtain ⟨rfl, -⟩ := hown u bytes' hw hd
      exact absurd (ho.symm.trans hu) (by simp)
  · rcases result_poll sys i ch (frame c.correlationId bytes) u with heq | ⟨hnone, -⟩
    · exact heq.symm.trans hw
    · exact hnone
  · rcases result_poll sys i ch (frame c.correlationId bytes) u with heq |
      ⟨hnone, bytes'', hdisp, hres⟩
    · exact h.correlated u d bytes' hd (heq.symm.trans hok)
    · obtain rfl : bytes'' = bytes' := by
        simpa using hres.symm.trans hok
      obtain ⟨rfl, rfl⟩ := hown u bytes'' hnone hdisp
      obtain rfl := Option.some.inj (hc.symm.trans hd)
      exact hbytes

/-- **Every step keeps the invariant**, if calls are only sent with a free id. -/
lemma CorrelationInv.step {handle : σ → Bytes → σ × Bytes} {sys' : AeronSystem ι τ σ}
    (h : CorrelationInv sys) (hstep : Step handle IdFree sys sys') : CorrelationInv sys' := by
  cases hstep with
  | connect i hi => exact h.connect hi
  | send i ch t payload hch ht hfree => exact h.send hch ht hfree
  | offer t c position hc hoffered => exact h.offer position hc hoffered
  | timeout t hoffered hwaits => exact h.fail hoffered
  | serve t message rest published hreq => exact h.serve handle published hreq
  | other s =>
      exact ⟨⟨h.channel.connected, h.channel.entry, h.channel.unoffered, h.channel.uncalled⟩,
        ⟨h.stream.request, h.stream.response⟩,
        ⟨h.owner.waiting, h.owner.request, h.owner.response⟩, h.correlated⟩
  | register i ch id t rest hch hreg => exact h.register hch hreg
  | poll i ch t message hch hresp => exact h.poll hch hresp

/-- **Correlation.**  In every run in which each call is sent with a correlation id that is free at
that moment, a call returns what the service has produced for it. -/
theorem correlated_of_idFree (handle : σ → Bytes → σ × Bytes) (s₀ : σ)
    (sys : AeronSystem ι τ σ) (h : Reachable handle IdFree s₀ sys) : Correlated sys := by
  have hinv : CorrelationInv sys := by
    induction h with
    | refl => exact correlationInv_start s₀
    | tail _ hstep ih => exact ih.step hstep
  exact hinv.correlated

end Steps

/-! ## Two gateways that cancel -/

/-- `accept_response`: the type byte, the order id, `accepted`, `reason_code`, and the padding of
the struct. -/
def acceptResponse (orderId : UInt64) : Bytes :=
  128 :: (Bytes.ofU64 orderId ++ [1, 0, 0, 0, 0, 0, 0, 0])

/-- `error_response`, with `INTERNAL_ERROR`. -/
def errorResponse (orderId : UInt64) : Bytes :=
  128 :: (Bytes.ofU64 orderId ++ [0, 99, 0, 0, 0, 0, 0, 0])

/-- `handle_cancel`, when the cancellation can be forwarded. -/
def handleCancel (body : Bytes) : Bytes :=
  if body.length < 16 then errorResponse 0
  else acceptResponse (Bytes.toU64 ((body.drop 8).take 8))

/-- A Cancel message: the type byte, the user and the order. -/
def cancelMessage (userId orderId : UInt64) : Bytes :=
  2 :: (Bytes.ofU64 userId ++ Bytes.ofU64 orderId)

/-- The service as far as it answers cancellations. -/
def cancels : Unit → Bytes → Unit × Bytes := fun _ payload => ((), handleCancel (payload.drop 1))

/-- One gateway cancels order 11 and is told so. -/
theorem correlated_of_idFree_cancel : ∃ sys : AeronSystem Unit Unit Unit,
    sys.result () = some (.ok (acceptResponse 11)) ∧
      ((), cancelMessage 1 11, acceptResponse 11) ∈ sys.handled := by
  have hstart : Reachable cancels IdFree () (start () : AeronSystem Unit Unit Unit) := .refl
  have hconnect := hstart.tail (.connect _ () rfl)
  have hsend := hconnect.tail (.send _ () _ () (cancelMessage 1 11) rfl rfl
    (fun _ _ => ⟨nofun, nofun, nofun⟩))
  have hoffer := hsend.tail (.offer _ () _ 0 rfl rfl)
  have hregister := hoffer.tail (.register _ () _ _ _ _ rfl rfl)
  have hserve := hregister.tail (.serve _ () _ _ true rfl)
  have hpoll := hserve.tail (.poll _ () _ _ _ rfl rfl)
  exact ⟨_, rfl, correlated_of_idFree cancels () _ hpoll () _ _ rfl rfl⟩

/-- Two gateways cancel at the same time, each with its first call: the second is told that the
order of the first is cancelled, before its own request is handled. -/
theorem correlation_mixed_up : ¬∀ sys : AeronSystem Bool Bool Unit,
    Reachable cancels (fun _ _ => True) () sys → Correlated sys := by
  intro h
  have hstart : Reachable cancels (fun _ _ => True) () (start () : AeronSystem Bool Bool Unit) :=
    .refl
  have hconnect := (hstart.tail (.connect _ false rfl)).tail (.connect _ true rfl)
  have hsend₁ := hconnect.tail (.send _ false _ false (cancelMessage 1 11) rfl rfl trivial)
  have hoffer₁ := hsend₁.tail (.offer _ false _ 0 rfl rfl)
  have hsend₂ := hoffer₁.tail (.send _ true _ true (cancelMessage 2 22) rfl rfl trivial)
  have hoffer₂ := hsend₂.tail (.offer _ true _ 0 rfl rfl)
  have hregister := hoffer₂.tail (.register _ true _ _ _ _ rfl rfl)
  have hserve := hregister.tail (.serve _ false _ _ true rfl)
  have hpoll := hserve.tail (.poll _ true _ _ _ rfl rfl)
  have hmem : (true, cancelMessage 2 22, acceptResponse 11) ∈
      [(false, cancelMessage 1 11, acceptResponse 11)] := h _ hpoll true _ _ rfl rfl
  exact absurd (List.mem_singleton.mp hmem) (by decide)

end AeronSystem

end ExchangeCore
