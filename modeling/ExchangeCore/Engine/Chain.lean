import ExchangeCore.Engine.Processing
import Mathlib.Data.List.Chain

/-!
# The output chain

The outputs an engine returns are meant to be a hash chain: each verifies, the first links to the
genesis hash with sequence number 1, and each later one verifies against its predecessor.

`output_seq` and `last_output_hash` are advanced at different points.  A duplicate id is refused
by the book after `output_seq` has been advanced; the paths without an output advance it once per
trade and never touch the hash; and a failed flush loses an output both fields already count.
`KeepsChain` is the condition on a call, in the state it arrives in, that none of this happens,
and `outputs_hashChain` says that along the runs all of whose calls meet it the returned outputs
do form a chain.  `duplicate_breaks_chain` is a run of the first kind.
-/

namespace ExchangeCore

namespace MatchingEngine

open OrderBook

/-! ## Chains of outputs -/

/-- The outputs returned with `Ok`, in order. -/
def returnedOutputs (answers : List Answer) : List EngineOutput :=
  answers.filterMap fun
    | .output (.ok (_, output)) => some output
    | _ => none

/-- The outputs form a hash chain from the genesis hash. -/
structure HashChain (env : Externals) (outputs : List EngineOutput) : Prop where
  verified : ∀ o ∈ outputs, o.verify env = true
  genesis : ∀ o, outputs.head? = some o → o.prevHash = GENESIS_HASH ∧ o.outputSeq = 1
  linked : outputs.IsChain (fun earlier later => later.verifyChain earlier = true)

/-- An output links to the last one, or to the genesis hash if there is none. -/
def Follows (last : Option EngineOutput) (o : EngineOutput) : Prop :=
  match last with
  | none => o.prevHash = GENESIS_HASH ∧ o.outputSeq = 1
  | some prev => o.verifyChain prev = true

/-- The outputs continue a chain whose last output is `last`. -/
def ChainFrom (env : Externals) : Option EngineOutput → List EngineOutput → Prop
  | _, [] => True
  | last, o :: os => o.verify env = true ∧ Follows last o ∧ ChainFrom env (some o) os

lemma ChainFrom.hashChain {env : Externals} {outputs : List EngineOutput}
    (h : ChainFrom env none outputs) : HashChain env outputs := by
  -- the three parts, for a chain continuing any last output
  have key : ∀ (os : List EngineOutput) (last : Option EngineOutput), ChainFrom env last os →
      (∀ o ∈ os, o.verify env = true) ∧ (∀ o, os.head? = some o → Follows last o) ∧
        os.IsChain (fun earlier later => later.verifyChain earlier = true) := by
    intro os
    induction os with
    | nil => exact fun _ _ => ⟨by simp, by simp, .nil⟩
    | cons o os ih =>
        rintro last ⟨hverify, hfollows, hrest⟩
        obtain ⟨hall, hhead, hchain⟩ := ih (some o) hrest
        refine ⟨?_, ?_, ?_⟩
        · intro x hx
          rcases List.mem_cons.mp hx with rfl | hx
          · exact hverify
          · exact hall x hx
        · rintro x hx
          obtain rfl := Option.some.inj hx
          exact hfollows
        · cases os with
          | nil => exact .singleton o
          | cons o' os => exact .cons_cons (hhead o' rfl) hchain
  obtain ⟨hverified, hgenesis, hlinked⟩ := key outputs none h
  exact ⟨hverified, hgenesis, hlinked⟩

/-! ## The condition on a call -/

/-- The order meets no maker in this book: its id is refused, it has no quantity, or the best
opposite price does not cross. -/
def Passive (req : OrderRequest) (book : OrderBook) : Prop :=
  req.orderId ∈ book.activeOrderIds ∨ req.quantity = 0 ∨
    bestPrice req.side (book.sideMap req.side.opposite) req.price = none

/-- The order meets no maker in the engine. -/
def PassiveIn (me : MatchingEngine) (req : OrderRequest) : Prop :=
  ∀ book, bookAt me.orderBooks req.symbolId = some book → Passive req book

/-- No order of a batch meets a maker when its turn comes. -/
def PassiveBatch : MatchingEngine → List OrderRequest → Prop
  | _, [] => True
  | me, req :: reqs => PassiveIn me req ∧ PassiveBatch (me.processOrderAtomic req).2 reqs

/-- The call leaves the chain fields where the last returned output put them, or returns the
output that advances them. -/
def KeepsChain (me : MatchingEngine) : Call → Prop
  | .registerSymbol _ _ => True
  | .addOrderAndBuildOutput io _ req _ =>
      me.assetMap.get? req.symbolId = none ∨ (∃ e, me.logWal io = .error e) ∨
        (∀ book, bookAt me.orderBooks req.symbolId = some book →
          req.orderId ∉ book.activeOrderIds) ∧
        (me.orderWal = none ∨ io.flush = .ok ())
  | .addOrder io req => (∃ e, me.logWal io = .error e) ∨ PassiveIn me req
  | .addOrderBatch reqs => PassiveBatch me reqs
  | .cancelOrder _ _ _ => True

/-! ## One call -/

/-- The chain fields of the engine are those of the last output. -/
def Linked (me : MatchingEngine) : Option EngineOutput → Prop
  | none => me.outputSeq = 0 ∧ me.lastOutputHash = GENESIS_HASH
  | some o => me.outputSeq = o.outputSeq ∧ me.lastOutputHash = o.hash

lemma Linked.of_eq {me me' : MatchingEngine} {last : Option EngineOutput} (h : Linked me last)
    (hseq : me'.outputSeq = me.outputSeq) (hhash : me'.lastOutputHash = me.lastOutputHash) :
    Linked me' last := by
  cases last with
  | none => exact ⟨hseq.trans h.1, hhash.trans h.2⟩
  | some o => exact ⟨hseq.trans h.1, hhash.trans h.2⟩

lemma Linked.follows {me : MatchingEngine} {last : Option EngineOutput} (h : Linked me last)
    {o : EngineOutput} (hseq : o.outputSeq = me.outputSeq + 1)
    (hprev : o.prevHash = me.lastOutputHash) : Follows last o := by
  cases last with
  | none =>
      rw [h.1] at hseq
      exact ⟨hprev.trans h.2, hseq⟩
  | some prev =>
      simp only [Follows, EngineOutput.verifyChain, Bool.and_eq_true, beq_iff_eq]
      exact ⟨by rw [hseq, h.1], by rw [hprev, h.2]⟩

/-- An order that meets no maker takes no sequence number. -/
lemma tradeCount_of_passive {req : OrderRequest} {book : OrderBook} (h : Passive req book)
    (gen : FastUlidHalfGen) :
    tradeCount (book.addOrder req.order gen req.timestamp).1 = 0 := by
  by_cases hid : req.orderId ∈ book.activeOrderIds
  · rw [@addOrder_duplicate book req.order gen req.timestamp hid]
    rfl
  · -- the outer loop stops at its first test
    have hstop : ∀ (n : ℕ) (st : MatchState), st.order = req.order →
        (matchLoop req.timestamp (n + 1) (book.sideMap req.side.opposite) st).2 = st := by
      intro n st hst
      rcases h with h | h | h
      · exact absurd h hid
      · have hzero : ¬st.order.quantity > 0 := by
          rw [hst, show req.order.quantity = 0 from h]
          exact lt_irrefl _
        simp only [matchLoop, if_neg hzero]
      · have hnone : bestPrice st.order.side (book.sideMap req.side.opposite) st.order.price =
            none := by rw [hst]; exact h
        simp only [matchLoop, hnone]
        split <;> rfl
    have hside : req.order.side = req.side := rfl
    have hact : req.order.orderId ∉ book.activeOrderIds := hid
    simp only [OrderBook.addOrder, if_neg hact, hside, tradeCount]
    rw [hstop _ _ rfl]
    rfl

lemma Logged.linked {me me' : MatchingEngine} {req : OrderRequest} {last : Option EngineOutput}
    (h : Logged me req me') (hpassive : PassiveIn me req) (hl : Linked me last) :
    Linked me' last := by
  rcases h.books with ⟨-, hseq⟩ | ⟨book, hbook, -, hseq⟩
  · exact hl.of_eq hseq h.lastOutputHash
  · rw [tradeCount_of_passive (hpassive book hbook)] at hseq
    exact hl.of_eq (by simpa using hseq) h.lastOutputHash

lemma linked_addOrderBatch {last : Option EngineOutput} (reqs : List OrderRequest) :
    ∀ {me : MatchingEngine}, PassiveBatch me reqs → Linked me last →
      Linked (me.addOrderBatch reqs).2 last := by
  induction reqs with
  | nil => exact fun _ hl => hl
  | cons req reqs ih =>
      intro me hp hl
      exact ih hp.2 ((logged_withParts me req).linked hp.1 hl)

/-- An order placed with an output either leaves the chain alone or returns its next link. -/
lemma Placement.linked {env : Externals} {io : WalIo} {me me' : MatchingEngine}
    {inputSeq : UInt64} {req : OrderRequest} {clientOrderId : String}
    {r : Except OrderError (UInt64 × EngineOutput)} {last : Option EngineOutput}
    (h : Placement env io me inputSeq req clientOrderId r me')
    (hkeeps : KeepsChain me (.addOrderAndBuildOutput io inputSeq req clientOrderId))
    (hl : Linked me last) :
    ((∃ e, r = .error e) ∧ Linked me' last) ∨
      ∃ id o, r = .ok (id, o) ∧ o.verify env = true ∧ Follows last o ∧ Linked me' (some o) := by
  cases h with
  | refused e _ => exact Or.inl ⟨⟨e, rfl⟩, hl⟩
  | duplicate e assets book hlog hassets hbook hid =>
      rcases hkeeps with hnone | ⟨e', herr⟩ | ⟨hfresh, -⟩
      · exact absurd (hnone.symm.trans hassets) (by simp)
      · exact absurd (hlog.symm.trans herr) (by simp)
      · exact absurd hid (hfresh book hbook)
  | accepted assets book book' gen wal r hlog hassets hbook hid hadded hok _ _ =>
      rcases hkeeps with hnone | ⟨e', herr⟩ | ⟨-, hflush⟩
      · exact absurd (hnone.symm.trans hassets) (by simp)
      · exact absurd (hlog.symm.trans herr) (by simp)
      · obtain ⟨hseq, hprev⟩ := acceptedOutput_header env inputSeq req clientOrderId assets
          (me.tradesOf book req) me.parts
        refine Or.inr ⟨_, _, hok hflush, EngineOutputBuilder.verify_buildUnchecked _ _ _,
          hl.follows hseq hprev, ?_⟩
        exact ⟨hseq.symm, rfl⟩

/-- **One call.**  Either it returns no output and leaves the chain fields alone, or it returns
the next link of the chain. -/
lemma step_linked (env : Externals) {me : MatchingEngine} {c : Call}
    {last : Option EngineOutput} (h : EngineInv me) (hkeeps : KeepsChain me c)
    (hl : Linked me last) :
    (returnedOutputs [((machine env).step me c).2] = [] ∧
        Linked ((machine env).step me c).1 last) ∨
      ∃ o, returnedOutputs [((machine env).step me c).2] = [o] ∧ o.verify env = true ∧
        Follows last o ∧ Linked ((machine env).step me c).1 (some o) := by
  cases c with
  | registerSymbol s assets =>
      refine Or.inl ⟨rfl, ?_⟩
      rcases me.registerSymbol_cases s assets with ⟨-, heq⟩ | ⟨-, -, -, heq⟩
      · exact hl.of_eq (congrArg outputSeq heq) (congrArg lastOutputHash heq)
      · have hseq : (me.registerSymbol s assets).2.outputSeq = me.outputSeq := by rw [heq]
        have hhash : (me.registerSymbol s assets).2.lastOutputHash = me.lastOutputHash := by
          rw [heq]
        exact hl.of_eq hseq hhash
  | addOrderAndBuildOutput io inputSeq req cid =>
      rcases (placement_addOrderAndBuildOutput h env io inputSeq req cid).linked hkeeps hl with
        ⟨⟨e, he⟩, hl'⟩ | ⟨id, o, ho, hverify, hfollows, hl'⟩
      · exact Or.inl ⟨by simp [machine, returnedOutputs, he], hl'⟩
      · exact Or.inr ⟨o, by simp [machine, returnedOutputs, ho], hverify, hfollows, hl'⟩
  | addOrder io req =>
      refine Or.inl ⟨rfl, ?_⟩
      rcases hkeeps with ⟨e, herr⟩ | hpassive
      · -- the log is written before anything else changes
        have hsame : (me.addOrder env io req).2 = me := by
          unfold MatchingEngine.addOrder
          split
          · rfl
          · split
            · rfl
            · simp only [herr]
        exact hl.of_eq (congrArg outputSeq hsame) (congrArg lastOutputHash hsame)
      · exact (logged_addOrder env io me req).linked hpassive hl
  | addOrderBatch reqs => exact Or.inl ⟨rfl, linked_addOrderBatch reqs hkeeps hl⟩
  | cancelOrder io s orderId =>
      refine Or.inl ⟨rfl, ?_⟩
      have hc := cancellation_cancelOrder h env io s orderId
      -- no way of ending a cancellation touches the chain fields
      have hfields : (me.cancelOrder env io s orderId).2.outputSeq = me.outputSeq ∧
          (me.cancelOrder env io s orderId).2.lastOutputHash = me.lastOutputHash := by
        generalize (me.cancelOrder env io s orderId).1 = r at hc
        generalize (me.cancelOrder env io s orderId).2 = me' at hc
        cases hc <;> exact ⟨rfl, rfl⟩
      exact hl.of_eq hfields.1 hfields.2

/-! ## Whole runs -/

lemma returnedOutputs_cons (a : Answer) (as : List Answer) :
    returnedOutputs (a :: as) = returnedOutputs [a] ++ returnedOutputs as := by
  rw [show a :: as = [a] ++ as from rfl, returnedOutputs, List.filterMap_append]
  rfl

lemma chainFrom_answers (env : Externals) (calls : List Call) :
    ∀ {me : MatchingEngine} {last : Option EngineOutput}, EngineInv me → Linked me last →
      (machine env).AllSteps KeepsChain me calls →
        ChainFrom env last (returnedOutputs ((machine env).answers me calls)) := by
  induction calls with
  | nil => exact fun _ _ _ => trivial
  | cons c calls ih =>
      rintro me last h hl ⟨hkeeps, hrest⟩
      have h' := EngineInv.step env me c h
      rw [Machine.answers_cons, returnedOutputs_cons]
      rcases step_linked env h hkeeps hl with ⟨hnone, hl'⟩ | ⟨o, ho, hverify, hfollows, hl'⟩
      · rw [hnone]
        exact ih h' hl' hrest
      · rw [ho]
        exact ⟨hverify, hfollows, ih h' hl' hrest⟩

/-- **When the outputs form a hash chain.**  Along every run of a fresh engine all of whose
calls meet `KeepsChain` in the state they arrive in, the returned outputs each verify, start at
the genesis hash with sequence number 1, and verify against one another in order. -/
theorem outputs_hashChain (env : Externals) (enableLocalWal : Bool) (calls : List Call)
    (h : (machine env).AllSteps KeepsChain (new enableLocalWal) calls) :
    HashChain env (returnedOutputs ((machine env).answers (new enableLocalWal) calls)) := by
  have hlinked : Linked (new enableLocalWal) none := ⟨rfl, rfl⟩
  exact (chainFrom_answers env calls (EngineInv.new enableLocalWal) hlinked h).hashChain

theorem outputs_hashChain_two :
    ¬∃ env : Externals, ¬HashChain env (returnedOutputs ((machine env).answers (new false)
      [.registerSymbol 1 (10, 20),
        .addOrderAndBuildOutput .healthy 1 (limitRequest 1 7 .sell 100 5) "a",
        .addOrder .healthy (limitRequest 2 7 .sell 101 5),
        .addOrderAndBuildOutput .healthy 2 (limitRequest 3 8 .buy 100 5) "b"])) := by
  rintro ⟨env, hnot⟩
  refine hnot (outputs_hashChain env false _ ⟨trivial, Or.inr (Or.inr ⟨?_, Or.inl rfl⟩),
    Or.inr ?_, Or.inr (Or.inr ⟨?_, Or.inl rfl⟩), trivial⟩)
  · intro book hbook
    obtain rfl := Option.some.inj hbook
    decide
  · intro book hbook
    obtain rfl := Option.some.inj hbook
    exact Or.inr (Or.inr rfl)
  · intro book hbook
    obtain rfl := Option.some.inj hbook
    exact of_decide_eq_true rfl

lemma HashChain.outputSeqs {env : Externals} {outputs : List EngineOutput}
    (h : HashChain env outputs) :
    (outputs.map EngineOutput.outputSeq).IsChain (fun earlier later => later = earlier + 1) := by
  rw [List.isChain_map]
  refine h.linked.imp (fun earlier later hlink => ?_)
  simp only [EngineOutput.verifyChain, Bool.and_eq_true, beq_iff_eq] at hlink
  exact hlink.1

/-- The same id placed twice: the second call fails but takes a sequence number, so the next
output does not follow the first. -/
theorem duplicate_breaks_chain :
    ¬∃ env : Externals, HashChain env (returnedOutputs ((machine env).answers (new false)
      [.registerSymbol 1 (10, 20),
        .addOrderAndBuildOutput .healthy 1 (limitRequest 1 7 .sell 100 5) "a",
        .addOrderAndBuildOutput .healthy 2 (limitRequest 1 7 .sell 100 5) "b",
        .addOrderAndBuildOutput .healthy 3 (limitRequest 2 7 .sell 100 5) "c"])) := by
  rintro ⟨env, h⟩
  have hchain : ([1, 3] : List UInt64).IsChain (fun earlier later => later = earlier + 1) :=
    h.outputSeqs
  have hlink := (List.isChain_cons_cons.mp hchain).1
  exact absurd hlink (by decide)

end MatchingEngine

end ExchangeCore
