import ExchangeCore.Engine.Chain
import ExchangeCore.Server.Delivery
import ExchangeCore.Server.Publisher

/-!
# The outputs of the server

What the matcher makes is published, in order, on the topic `engine.outputs`.  Kafka may deliver an
order again, and the deduplicator forgets ids, but as long as every repeated delivery comes in time,
`server_outputs_chain` says what the settlement relies on: the outputs made answer the orders
delivered, one each and in the order of their first deliveries, they are a hash chain, and what is
published is a delivery of them in which some may come again, and those whose send fails are
missing.

An order that comes again too late may still be resting, and is then refused by its book after the
sequence number has been taken; the bound on repeated deliveries excludes it.
-/

namespace ExchangeCore

open MatchingEngine RecentWindow MessageDeduplicator

/-- The orders delivered by a list of polls, in order. -/
def deliveredOrders (cfg : PollConfig) (polls : List (List Record)) : List OrderRequest :=
  polls.flatMap (fun batch => batch.filterMap (orderOf cfg))

/-- The outputs the matcher makes over a list of polls. -/
def serverOutputs (env : Externals) (cfg : PollConfig) (m : Matcher) (polls : List (List Record)) :
    List EngineOutput :=
  ((server env cfg).answers m polls).flatten.flatMap Matcher.Answer.engineOutputs

/-- The outputs that get on the topic, where `sent` says which sends succeed. -/
def publishedOutputs (env : Externals) (cfg : PollConfig) (sent : ℕ → ℕ → Bool) (m : Matcher)
    (polls : List (List Record)) : List EngineOutput :=
  RingBuffer.published sent .new ((server env cfg).answers m polls).flatten

/-- The output is for the order: its input is the order, under the id the server gives it. -/
def EngineOutput.Answers (output : EngineOutput) (req : OrderRequest) : Prop :=
  output.input.data = .placeOrder
    { orderId := req.orderId
      userId := req.userId
      symbolId := req.symbolId
      side := req.side.asU8
      orderType := req.orderType.asU8
      price := req.price
      quantity := req.quantity
      cid := s!"kafka_{req.orderId}"
      createdAt := req.timestamp }

/-- Every repeated delivery of an order id comes before `MAX_TRACKED_OFFSETS` other ids have turned
up. -/
def InTime (cfg : PollConfig) (polls : List (List Record)) : Prop :=
  ∀ D₁ id D₂, delivered cfg polls = D₁ ++ id :: D₂ → id ∈ D₁ → newSince D₁ id < MAX_TRACKED_OFFSETS

lemma map_deliveredOrders (cfg : PollConfig) (polls : List (List Record)) :
    (deliveredOrders cfg polls).map OrderRequest.orderId = delivered cfg polls := by
  rw [deliveredOrders, delivered, List.map_flatMap]

lemma symbolId_of_orderOf {cfg : PollConfig} {r : Record} {req : OrderRequest}
    (h : orderOf cfg r = some req) : req.symbolId ∈ cfg.symbols := by
  unfold orderOf at h
  split at h
  · obtain ⟨order, -, horder⟩ := Option.bind_eq_some_iff.mp h
    split at horder
    · rename_i hsymbol
      obtain rfl := Option.some.inj horder
      exact hsymbol
    · exact absurd horder (by simp)
  · exact absurd h (by simp)

/-! ## Chains -/

namespace MatchingEngine

lemma ChainFrom.concat {env : Externals} {outputs : List EngineOutput} {o : EngineOutput}
    (hverify : o.verify env = true) {last : Option EngineOutput} (h : ChainFrom env last outputs)
    (hfollows : Follows (outputs.getLast?.or last) o) : ChainFrom env last (outputs ++ [o]) := by
  induction outputs generalizing last with
  | nil => exact ⟨hverify, hfollows, trivial⟩
  | cons first outputs ih =>
      obtain ⟨hfirst, hlink, hrest⟩ := h
      refine ⟨hfirst, hlink, ih hrest ?_⟩
      rw [List.getLast?_cons] at hfollows
      rcases hlast : outputs.getLast? with _ | prev
      · rw [hlast] at hfollows
        exact hfollows
      · rw [hlast] at hfollows
        exact hfollows

end MatchingEngine

/-! ## What the server keeps -/

/-- The matcher has made `outputs` for the orders `acc`. -/
structure Serving (env : Externals) (cfg : PollConfig) (m : Matcher)
    (outputs : List EngineOutput) (acc : List OrderRequest) : Prop where
  engine : EngineInv m.engine
  noWal : m.engine.orderWal = none
  known : ∀ s ∈ cfg.symbols, (m.engine.assetMap.get? s).isSome
  active : EachBook m.engine (fun b => ∀ id ∈ b.activeOrderIds, id ∈ acc.map OrderRequest.orderId)
  tracks : Tracks m.msgDedup (acc.map OrderRequest.orderId)
  chain : ChainFrom env none outputs
  linked : Linked m.engine outputs.getLast?
  answers : List.Forall₂ EngineOutput.Answers outputs acc

namespace Serving

variable {env : Externals} {cfg : PollConfig} {m : Matcher} {outputs : List EngineOutput}
  {acc : List OrderRequest} {req : OrderRequest} {ts : UInt64}

variable (ts) in
/-- A new order of a known symbol is answered, and its output continues the chain. -/
lemma place (h : Serving env cfg m outputs acc) (hsymbol : req.symbolId ∈ cfg.symbols)
    (hnew : req.orderId ∉ acc.map OrderRequest.orderId) (inputSeq : UInt64) :
    ∃ o, (m.engine.addOrderAndBuildOutput env .healthy inputSeq req
        s!"kafka_{req.orderId}").1 = .ok (req.orderId, o) ∧
      Serving env cfg ⟨(m.engine.addOrderAndBuildOutput env .healthy inputSeq req
        s!"kafka_{req.orderId}").2, m.msgDedup.markProcessed req.orderId.toInt64 ts⟩
        (outputs ++ [o]) (acc ++ [req]) := by
  have hp := placement_addOrderAndBuildOutput h.engine env .healthy inputSeq req
    s!"kafka_{req.orderId}"
  have hengine := h.engine.placement hp
  -- a new id is active in no book, so that the order is not a duplicate
  have hkeeps : KeepsChain m.engine (.addOrderAndBuildOutput .healthy inputSeq req
      s!"kafka_{req.orderId}") := by
    refine Or.inr (Or.inr ⟨fun book hbook hid => ?_, Or.inl h.noWal⟩)
    exact hnew (h.active _ book hbook _ hid)
  have hlinked := hp.linked hkeeps h.linked
  generalize (m.engine.addOrderAndBuildOutput env .healthy inputSeq req
    s!"kafka_{req.orderId}").1 = r at hp hlinked
  generalize (m.engine.addOrderAndBuildOutput env .healthy inputSeq req
    s!"kafka_{req.orderId}").2 = me' at hp hlinked hengine
  cases hp with
  | refused e hrefused =>
      rcases hrefused with hnone | hlog
      · -- the symbol is known and there is no WAL: nothing can refuse the order
        have hknown := h.known _ hsymbol
        rw [hnone] at hknown
        exact absurd hknown (by simp)
      · rw [logWal, h.noWal] at hlog
        exact absurd hlog (by simp)
  | duplicate e assets book _ _ hbook hid => exact absurd (h.active _ book hbook _ hid) hnew
  | accepted assets book book' gen wal r _ _ hbook hid hadded hok _ hwal =>
      obtain rfl := hok (Or.inl h.noWal)
      rcases hlinked with ⟨⟨e, he⟩, -⟩ | ⟨id, o, ho, hverify, hfollows, hlast⟩
      · exact absurd he (by simp)
      obtain ⟨rfl, rfl⟩ := Prod.mk.inj (Except.ok.inj ho)
      refine ⟨_, rfl, hengine, hwal.mpr h.noWal, h.known, ?_, ?_, ?_, ?_, ?_⟩
      · -- the new id is active, and no other that was not
        rw [List.map_append]
        have hold : EachBook m.engine (fun b => ∀ id ∈ b.activeOrderIds,
            id ∈ acc.map OrderRequest.orderId ++ [req].map OrderRequest.orderId) :=
          fun s b hb id hid => List.mem_append_left _ (h.active s b hb id hid)
        refine hold.withBook hbook (fun id hid => ?_) rfl
        rw [hadded.activeOrderIds, Finset.mem_sdiff, Finset.mem_insert] at hid
        rcases hid.1 with rfl | hid
        · exact List.mem_append_right _ (List.mem_singleton_self _)
        · exact hold _ book hbook _ hid
      · rw [List.map_append]
        exact h.tracks.markProcessed (fun hmem => hnew (List.mem_of_mem_drop hmem)) ts
      · refine h.chain.concat hverify ?_
        rwa [Option.or_none]
      · rwa [List.getLast?_concat]
      · exact List.rel_append h.answers (.cons rfl .nil)

variable (ts) in
lemma placeOne (loop : Matcher.BatchLoop) (h : Serving env cfg loop.matcher outputs acc)
    (hsymbol : req.symbolId ∈ cfg.symbols)
    (hintime : (accept MAX_TRACKED_OFFSETS (acc.map OrderRequest.orderId) req.orderId).Nodup) :
    ∃ new, (Matcher.placeOne env ts loop req).answer.engineOutputs =
        loop.answer.engineOutputs ++ new ∧
      Serving env cfg (Matcher.placeOne env ts loop req).matcher (outputs ++ new)
        (keepNew OrderRequest.orderId acc req) := by
  have hdup : loop.matcher.msgDedup.isDuplicate req.orderId.toInt64 = true ↔
      req.orderId ∈ acc.map OrderRequest.orderId :=
    h.tracks.isDuplicate_iff.trans (mem_rtake_iff_of_nodup hintime)
  by_cases hmem : req.orderId ∈ acc.map OrderRequest.orderId
  · have hskip : Matcher.placeOne env ts loop req = loop := if_pos (hdup.mpr hmem)
    refine ⟨[], ?_, ?_⟩
    · rw [hskip, List.append_nil]
    · rw [hskip, List.append_nil, keepNew, if_pos hmem]
      exact h
  · obtain ⟨o, hok, hnext⟩ := h.place ts hsymbol hmem (loop.inputSeq + 1)
    refine ⟨[o], ?_, ?_⟩
    · rw [Matcher.placeOne, if_neg (mt hdup.mp hmem)]
      simp only [hok]
    · rw [Matcher.placeOne, if_neg (mt hdup.mp hmem), keepNew, if_neg hmem]
      exact hnext

variable (ts) in
/-- The orders of a batch, as long as nothing is accepted twice. -/
lemma batch (reqs : List OrderRequest) (loop : Matcher.BatchLoop)
    (h : Serving env cfg loop.matcher outputs acc)
    (hsymbols : ∀ req ∈ reqs, req.symbolId ∈ cfg.symbols)
    (hintime : ((reqs.map OrderRequest.orderId).foldl (accept MAX_TRACKED_OFFSETS)
      (acc.map OrderRequest.orderId)).Nodup) :
    ∃ new, (reqs.foldl (Matcher.placeOne env ts) loop).answer.engineOutputs =
        loop.answer.engineOutputs ++ new ∧
      Serving env cfg (reqs.foldl (Matcher.placeOne env ts) loop).matcher (outputs ++ new)
        (reqs.foldl (keepNew OrderRequest.orderId) acc) := by
  induction reqs generalizing loop outputs acc with
  | nil => exact ⟨[], (List.append_nil _).symm, by rwa [List.append_nil]⟩
  | cons req reqs ih =>
      rw [List.forall_mem_cons] at hsymbols
      rw [List.map_cons, List.foldl_cons] at hintime
      have hfirst := hintime.sublist (isPrefix_foldl _ _ _).sublist
      obtain ⟨new, hnew, hone⟩ := h.placeOne ts loop hsymbols.1 hfirst
      rw [← map_keepNew hfirst] at hintime
      obtain ⟨rest, hrest, hall⟩ := ih _ hone hsymbols.2 hintime
      refine ⟨new ++ rest, ?_, ?_⟩
      · rw [List.foldl_cons, hrest, hnew, List.append_assoc]
      · rw [List.foldl_cons, List.foldl_cons, ← List.append_assoc]
        exact hall

lemma poll (records : List Record) (h : Serving env cfg m outputs acc)
    (hintime : (((records.filterMap (orderOf cfg)).map OrderRequest.orderId).foldl
      (accept MAX_TRACKED_OFFSETS) (acc.map OrderRequest.orderId)).Nodup) :
    Serving env cfg ((server env cfg).step m records).1
      (outputs ++ ((server env cfg).step m records).2.flatMap Matcher.Answer.engineOutputs)
      ((records.filterMap (orderOf cfg)).foldl (keepNew OrderRequest.orderId) acc) := by
  have hsymbols : ∀ req ∈ records.filterMap (orderOf cfg), req.symbolId ∈ cfg.symbols := by
    intro req hreq
    obtain ⟨r, -, hr⟩ := List.mem_filterMap.mp hreq
    exact symbolId_of_orderOf hr
  obtain ⟨new, hnew, hall⟩ := batch 0 (records.filterMap (orderOf cfg))
    ⟨m, m.engine.outputSeq, .none⟩ h hsymbols hintime
  simp only [server, pollEvents_eq]
  split
  · rename_i hempty
    rw [List.isEmpty_iff.mp hempty]
    simpa using h
  · simp only [Machine.answers_cons, Machine.answers_nil, Machine.run_cons, Machine.run_nil,
      List.flatMap_cons, List.flatMap_nil, List.append_nil, Matcher.machine, Matcher.handle,
      isOutsideTrackedWindow_zero, Bool.false_eq_true, if_false]
    rw [hnew]
    exact hall

lemma run (polls : List (List Record)) (h : Serving env cfg m outputs acc)
    (hintime : ((delivered cfg polls).foldl (accept MAX_TRACKED_OFFSETS)
      (acc.map OrderRequest.orderId)).Nodup) :
    Serving env cfg ((server env cfg).run m polls) (outputs ++ serverOutputs env cfg m polls)
      ((deliveredOrders cfg polls).foldl (keepNew OrderRequest.orderId) acc) := by
  induction polls generalizing m outputs acc with
  | nil =>
      show Serving env cfg m (outputs ++ []) acc
      rwa [List.append_nil]
  | cons records polls ih =>
      rw [← map_deliveredOrders, deliveredOrders, List.flatMap_cons, List.map_append,
        List.foldl_append] at hintime
      have hfirst := hintime.sublist (isPrefix_foldl _ _ _).sublist
      have hone := h.poll records hfirst
      rw [← map_foldl_keepNew hfirst] at hintime
      have hrest := ih hone (by rwa [← map_deliveredOrders])
      rw [deliveredOrders, List.flatMap_cons, List.foldl_append, serverOutputs,
        Machine.answers_cons, List.flatten_cons, List.flatMap_append, ← List.append_assoc]
      exact hrest

/-- Registering a symbol gives it assets, and takes none away. -/
lemma known_registerSymbol (me : MatchingEngine) (hme : EngineInv me) (s : UInt32)
    (assets : UInt32 × UInt32) : ((me.registerSymbol s assets).2.assetMap.get? s).isSome ∧
      ∀ t, (me.assetMap.get? t).isSome →
        ((me.registerSymbol s assets).2.assetMap.get? t).isSome := by
  have hafter := hme.registerSymbol s assets
  rcases me.registerSymbol_cases s assets with ⟨⟨e, he⟩, heq⟩ | ⟨-, -, -, heq⟩
  · refine ⟨(hafter.registered s).mpr ?_, fun t ht => by rwa [heq]⟩
    -- only a slot in use is refused
    rw [heq]
    by_contra hnot
    have hfree : (bookAt me.orderBooks s).isSome = false := Bool.eq_false_iff.mpr hnot
    simp only [registerSymbol, hfree, Bool.false_eq_true, if_false] at he
    split at he <;> cases he
  · rw [heq]
    refine ⟨by rw [HashMap.get?_insert, if_pos rfl]; rfl, fun t ht => ?_⟩
    show ((me.assetMap.insert s assets).get? t).isSome
    rw [HashMap.get?_insert]
    split
    · rfl
    · exact ht

/-- Registration, before anything is made. -/
lemma register (h : Serving env cfg m [] []) (s : UInt32) (assets : UInt32 × UInt32) :
    Serving env cfg ⟨(m.engine.registerSymbol s assets).2, m.msgDedup⟩ [] [] where
  engine := h.engine.registerSymbol s assets
  noWal := by
    rcases m.engine.registerSymbol_cases s assets with ⟨-, heq⟩ | ⟨-, -, -, heq⟩
    · rw [heq]
      exact h.noWal
    · rw [heq]
      exact h.noWal
  known t ht := (known_registerSymbol m.engine h.engine s assets).2 t (h.known t ht)
  active := h.active.registerSymbol assets (fun id hid => absurd hid (Finset.notMem_empty id))
  tracks := h.tracks
  chain := trivial
  linked := by
    rcases m.engine.registerSymbol_cases s assets with ⟨-, heq⟩ | ⟨-, -, -, heq⟩
    · rw [heq]
      exact h.linked
    · rw [heq]
      exact h.linked
  answers := .nil

/-- A server that has just started, as far as the symbols registered go. -/
lemma new (env : Externals) (ordersTopic : String) (symbols : List (UInt32 × (UInt32 × UInt32))) :
    Serving env ⟨ordersTopic, (symbols.map Prod.fst).toFinset⟩ (Matcher.new symbols) [] [] := by
  induction symbols using List.reverseRecOn with
  | nil =>
      exact ⟨EngineInv.new false, rfl, fun s hs => absurd hs (Finset.notMem_empty s),
        EachBook.new false, Tracks.new, trivial, ⟨rfl, rfl⟩, .nil⟩
  | append_singleton symbols s ih =>
      have hnext := ih.register s.1 s.2
      have hnew : Matcher.new (symbols ++ [s]) =
          ⟨((Matcher.new symbols).engine.registerSymbol s.1 s.2).2, MessageDeduplicator.new⟩ := by
        rw [Matcher.new, List.foldl_concat]
        rfl
      rw [hnew]
      refine ⟨hnext.engine, hnext.noWal, fun t ht => ?_, hnext.active, hnext.tracks, trivial,
        hnext.linked, .nil⟩
      rw [List.mem_toFinset, List.map_append, List.mem_append] at ht
      rcases ht with ht | ht
      · exact hnext.known t (List.mem_toFinset.mpr ht)
      · obtain rfl := List.mem_singleton.mp ht
        exact (known_registerSymbol _ ih.engine s.1 s.2).1

end Serving

namespace Serving

lemma of_polls (env : Externals) {cfg : PollConfig} {symbols : List (UInt32 × (UInt32 × UInt32))}
    {polls : List (List Record)} (hknown : ∀ s ∈ cfg.symbols, s ∈ symbols.map Prod.fst)
    (hintime : InTime cfg polls) :
    Serving env cfg ((server env cfg).run (Matcher.new symbols) polls)
      (serverOutputs env cfg (Matcher.new symbols) polls)
      (firstDeliveries OrderRequest.orderId (deliveredOrders cfg polls)) := by
  have hstart : Serving env cfg (Matcher.new symbols) [] [] :=
    { Serving.new env cfg.ordersTopic symbols with
      known := fun s hs => (Serving.new env cfg.ordersTopic symbols).known s
        (List.mem_toFinset.mpr (hknown s hs)) }
  exact hstart.run polls ((nodup_accepted_iff _ _).mpr hintime)

end Serving

/-- What is published if no send fails is a delivery of what the matcher makes. -/
lemma deliveredAgain_publishedOutputs (env : Externals) (cfg : PollConfig) (m : Matcher)
    (polls : List (List Record)) :
    DeliveredAgain (serverOutputs env cfg m polls) 0
      (publishedOutputs env cfg RingBuffer.allSent m polls)
      (serverOutputs env cfg m polls).length := by
  have hempty : RingBuffer.new.Holds [] := by
    intro slot outputs hleft
    exact absurd hleft (by simp [RingBuffer.new])
  exact RingBuffer.deliveredAgain_published hempty _

/-- **What is made and published.**  Let the server register the symbols it knows, and let the
deliveries be repeated in time only.  The outputs made over any polls are a hash chain, and they
answer the orders delivered, one output each, in the order of their first deliveries.  Some of the
outputs may be published again; those whose send fails are not published then, and if none fails,
they are all published, in order. -/
theorem server_outputs_chain (env : Externals) (cfg : PollConfig)
    (symbols : List (UInt32 × (UInt32 × UInt32))) (polls : List (List Record))
    (sent : ℕ → ℕ → Bool) (hknown : ∀ s ∈ cfg.symbols, s ∈ symbols.map Prod.fst)
    (hintime : InTime cfg polls) :
    HashChain env (serverOutputs env cfg (Matcher.new symbols) polls) ∧
      List.Forall₂ EngineOutput.Answers (serverOutputs env cfg (Matcher.new symbols) polls)
        (firstDeliveries OrderRequest.orderId (deliveredOrders cfg polls)) ∧
      (publishedOutputs env cfg sent (Matcher.new symbols) polls).Sublist
        (publishedOutputs env cfg RingBuffer.allSent (Matcher.new symbols) polls) ∧
      DeliveredAgain (serverOutputs env cfg (Matcher.new symbols) polls) 0
        (publishedOutputs env cfg RingBuffer.allSent (Matcher.new symbols) polls)
        (serverOutputs env cfg (Matcher.new symbols) polls).length := by
  have hserving := Serving.of_polls env hknown hintime
  exact ⟨hserving.chain.hashChain, hserving.answers, RingBuffer.published_sublist sent _ _,
    deliveredAgain_publishedOutputs env cfg _ polls⟩

lemma inTime_of_length {cfg : PollConfig} {polls : List (List Record)}
    (h : (delivered cfg polls).length ≤ MAX_TRACKED_OFFSETS) : InTime cfg polls := by
  intro D₁ id D₂ hsplit _
  have hcard : newSince D₁ id ≤ D₁.length :=
    (Finset.card_le_card Finset.sdiff_subset).trans (List.toFinset_card_le D₁)
  rw [hsplit, List.length_append, List.length_cons] at h
  omega

theorem server_outputs_chain_again :
    ¬∃ env : Externals, ¬(
      HashChain env (serverOutputs env oneSymbol (Matcher.new [(1, (10, 20))])
          (sellPolls [0, 1, 0])) ∧
        List.Forall₂ EngineOutput.Answers
          (serverOutputs env oneSymbol (Matcher.new [(1, (10, 20))]) (sellPolls [0, 1, 0]))
          (firstDeliveries OrderRequest.orderId
            (deliveredOrders oneSymbol (sellPolls [0, 1, 0])))) := by
  rintro ⟨env, hnot⟩
  have hknown : ∀ s ∈ oneSymbol.symbols, s ∈ [((1 : UInt32), ((10 : UInt32), (20 : UInt32)))].map
      Prod.fst := fun s hs => List.mem_singleton.mpr (Finset.mem_singleton.mp hs)
  have hintime : InTime oneSymbol (sellPolls [0, 1, 0]) := by
    apply inTime_of_length
    rw [delivered_sellPolls]
    unfold MAX_TRACKED_OFFSETS
    decide
  obtain ⟨hchain, hanswers, -⟩ :=
    server_outputs_chain env oneSymbol _ _ RingBuffer.allSent hknown hintime
  exact hnot ⟨hchain, hanswers⟩

end ExchangeCore
