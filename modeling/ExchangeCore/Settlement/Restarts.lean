import ExchangeCore.Engine.Chain
import ExchangeCore.Framework.Redelivery
import ExchangeCore.Settlement.SourceOfTruth

/-!
# Settlement across restarts

The settlement service commits no offsets (`enable.auto.commit` is false, `auto.offset.reset` is
`earliest`), so that after every restart the outputs of the engine are delivered again from the
first one, and within a session a rebalance may go back as well.  What it has settled already it
knows from the cursors alone, which it loads from the log (`load_chain_state`).

A `Session` is what one process does: it loads the cursors and processes batches.  Of the outputs of
a batch some may not be written, because a shard fails, after which the loop goes on, or because the
process crashes.  For a stream that is a hash chain, as the outputs of the engine are, `settled_log`
says of any number of sessions that the log holds nothing but outputs of the stream and, if every
write has been complete, exactly those that have been delivered.  What has not been written is lost
where a later output has been.
-/

namespace ExchangeCore

open MatchingEngine SettlementDb ChainCursor

/-! ## The chain verifier keeps its position -/

namespace ChainCursor

/-- The cursors behind the first `k` outputs of a stream. -/
def position (stream : List EngineOutput) (k : ℕ) : ChainCursor :=
  match k with
  | 0 => ⟨0, GENESIS_HASH⟩
  | k + 1 => (stream[k]?.map after).getD ⟨0, GENESIS_HASH⟩

variable {env : Externals} {stream : List EngineOutput} {output : EngineOutput} {i k : ℕ}

lemma position_succ (h : stream[k]? = some output) : position stream (k + 1) = after output := by
  rw [position, h]
  rfl

lemma outputSeq_of_chain (h : HashChain env stream) (hlen : stream.length < 2 ^ 64 - 1)
    (hi : stream[i]? = some output) : output.outputSeq.toNat = i + 1 := by
  induction i generalizing output with
  | zero =>
      rw [(h.genesis output (by rwa [List.head?_eq_getElem?])).2]
      rfl
  | succ i ih =>
      obtain ⟨hlt, rfl⟩ := List.getElem?_eq_some_iff.mp hi
      have hlink := List.isChain_iff_getElem.mp h.linked i hlt
      simp only [EngineOutput.verifyChain, Bool.and_eq_true, beq_iff_eq] at hlink
      have hprev := ih (List.getElem?_eq_getElem (Nat.lt_of_succ_lt hlt))
      rw [hlink.1, UInt64.toNat_add, hprev, UInt64.toNat_one, Nat.mod_eq_of_lt (by omega)]

/-- The cursors behind an output are those the next one asks for. -/
lemma position_spec (h : HashChain env stream) (hlen : stream.length < 2 ^ 64 - 1)
    (hk : k ≤ stream.length) :
    (position stream k).lastSeq.toNat = k ∧
      ∀ output, stream[k]? = some output → output.prevHash = (position stream k).lastHash := by
  cases k with
  | zero =>
      refine ⟨rfl, fun output hout => ?_⟩
      exact (h.genesis output (by rwa [List.head?_eq_getElem?])).1
  | succ k =>
      have hprev : stream[k]? = some stream[k] := List.getElem?_eq_getElem hk
      rw [position_succ hprev]
      refine ⟨outputSeq_of_chain h hlen hprev, fun output hout => ?_⟩
      obtain ⟨hlt, rfl⟩ := List.getElem?_eq_some_iff.mp hout
      have hlink := List.isChain_iff_getElem.mp h.linked k hlt
      simp only [EngineOutput.verifyChain, Bool.and_eq_true, beq_iff_eq] at hlink
      exact hlink.2

lemma verifier_same (env : Externals) (cursor : ChainCursor) (output accepted : EngineOutput)
    (h : ((verifier env).step cursor output).2 = some accepted) : accepted = output := by
  change (cursor.verifyOutput env output).1 = some accepted at h
  unfold verifyOutput at h
  dsimp only at h
  split_ifs at h
  · exact (Option.some.inj h).symm
  · exact (Option.some.inj h).symm

/-- **The verifier on a hash chain**: the next output is accepted, those before are skipped. -/
lemma keepsPosition_verifier (h : HashChain env stream) (hlen : stream.length < 2 ^ 64 - 1) :
    (verifier env).KeepsPosition stream (position stream) where
  next k output hout := by
    have hk : k < stream.length := (List.getElem?_eq_some_iff.mp hout).1
    obtain ⟨hlast, hprev⟩ := position_spec h hlen hk.le
    have hseq := outputSeq_of_chain h hlen hout
    have hnext : (position stream k).HasNext := by
      rw [HasNext, hlast]
      omega
    have hverify := h.verified output (List.mem_of_getElem? hout)
    rw [position_succ hout]
    show ((verifyOutput env _ output).2, (verifyOutput env _ output).1) = _
    rcases verifyOutput_cases env hnext output with
      ⟨hle, -⟩ | ⟨-, hnot, -⟩ | ⟨hlt, -⟩ | ⟨-, -, -, hstep⟩
    · omega
    · exact absurd ⟨hprev output hout, hverify⟩ hnot
    · omega
    · rw [hstep]
  again k i output hik hk hout := by
    obtain ⟨hlast, -⟩ := position_spec h hlen hk
    have hseq := outputSeq_of_chain h hlen hout
    have hnext : (position stream k).HasNext := by
      rw [HasNext, hlast]
      omega
    show ((verifyOutput env _ output).2, (verifyOutput env _ output).1) = _
    rcases verifyOutput_cases env hnext output with
      ⟨-, hstep⟩ | ⟨heq, -⟩ | ⟨hlt, -⟩ | ⟨hlt, -⟩
    · rw [hstep]
    · omega
    · omega
    · omega

end ChainCursor

/-! ## Sessions -/

/-- A batch received, and which of its outputs get to the log. -/
structure Attempt where
  batch : ReceivedBatch
  written : EngineOutput → Bool

/-- All shards are written. -/
def Attempt.Complete (attempt : Attempt) : Prop :=
  ∀ output ∈ attempt.batch.outputs, attempt.written output = true

/-- The processing loop, whose writes may fail: the cursors go on in any case. -/
def attemptLoop (env : Externals) : Machine SettlementService Attempt Unit where
  step s attempt :=
    let (verified, cursor) := verifyBatch env attempt.batch.outputs s.cursor
    let log := if verified.isEmpty then s.log
      else writeSotParallel attempt.batch.order (verified.filter attempt.written) s.log
    (⟨cursor, log, s.accepted ++ verified⟩, ())

/-- What one process of the service does. -/
structure Session where
  /-- The query for the chain state is answered. -/
  loaded : Bool
  /-- The batches that are processed; in the last one the process may crash. -/
  attempts : List Attempt

namespace Session

/-- Everything that is delivered to the process. -/
def delivered (s : Session) : List EngineOutput :=
  s.attempts.flatMap (fun attempt => attempt.batch.outputs)

/-- The cursors it starts from. -/
def cursor (s : Session) (log : EngineOutputLog) : ChainCursor :=
  loadChainState (if s.loaded then .ok (getChainState log)
    else .error "Failed to query engine_output_log for chain state")

/-- The log it leaves. -/
def run (env : Externals) (log : EngineOutputLog) (s : Session) : EngineOutputLog :=
  ((attemptLoop env).run ⟨s.cursor log, log, []⟩ s.attempts).log

end Session

/-! ## What the log holds -/

namespace SettlementDb

/-- The rows of the log are those of the outputs of a set. -/
def Holds (log : EngineOutputLog) (S : Set EngineOutput) : Prop :=
  ∀ key row, log.rowAt key = some row ↔
    ∃ output ∈ S, engineOutputKey output = key ∧ engineOutputRow output = row

variable {env : Externals} {stream items : List EngineOutput} {log : EngineOutputLog}
  {S : Set EngineOutput}

lemma holds_empty : Holds Table.empty ∅ := by
  intro key row
  rw [Table.rowAt_empty]
  simp

/-- Outputs of the stream, whether new or not, are held besides the others. -/
lemma Holds.insertAll (h : Holds log S) (hdistinct : DistinctSeqs stream)
    (hS : ∀ a ∈ S, a ∈ stream) (hitems : ∀ a ∈ items, a ∈ stream)
    (hkeys : items.Pairwise (fun a b => engineOutputKey a ≠ engineOutputKey b)) :
    Holds (Table.insertAll engineOutputKey engineOutputRow items log) (S ∪ {a | a ∈ items}) := by
  intro key row
  rw [Table.rowAt_insertAll hkeys]
  constructor
  · rintro (⟨output, hin, hkey, hrow⟩ | ⟨-, hold⟩)
    · exact ⟨output, Or.inr hin, hkey, hrow⟩
    · obtain ⟨output, hin, hkey, hrow⟩ := (h key row).mp hold
      exact ⟨output, Or.inl hin, hkey, hrow⟩
  · rintro ⟨output, hin | hin, hkey, hrow⟩
    · by_cases hany : ∃ item ∈ items, engineOutputKey item = key
      · -- The row is written again.
        obtain ⟨item, hitem, heq⟩ := hany
        have hsame := hdistinct.eq_of_mem item (hitems item hitem) output (hS output hin)
          (engineOutputKey_eq_iff.mp (heq.trans hkey.symm)).2
        exact Or.inl ⟨item, hitem, heq, hsame ▸ hrow⟩
      · refine Or.inr ⟨fun item hitem heq => hany ⟨item, hitem, heq⟩, ?_⟩
        exact (h key row).mpr ⟨output, hin, hkey, hrow⟩
    · exact Or.inl ⟨output, hin, hkey, hrow⟩

/-- The write of a batch, in whatever order its shards are written. -/
lemma Holds.writeSotParallel (h : Holds log S) (hdistinct : DistinctSeqs stream)
    (hS : ∀ a ∈ S, a ∈ stream) (hitems : items.Sublist stream) (order : List UInt32) :
    Holds (writeSotParallel order items log) (S ∪ {a | a ∈ items}) := by
  have hwrites : ExchangeCore.writeSotParallel order items log = Table.insertAll engineOutputKey
      engineOutputRow (sotShards order items).flatten log := Table.foldl_insertAll _ _ _ _
  have hmem : {a | a ∈ items} = {a | a ∈ (sotShards order items).flatten} := by
    ext a
    exact (mem_sotShards order).symm
  rw [hwrites, hmem]
  exact h.insertAll hdistinct hS (fun a ha => hitems.subset ((mem_sotShards order).mp ha))
    (pairwise_sotShards order (List.Pairwise.sublist hitems hdistinct))

lemma distinctSeqs_of_chain (h : HashChain env stream) (hlen : stream.length < 2 ^ 64 - 1) :
    DistinctSeqs stream := by
  rw [DistinctSeqs, List.pairwise_iff_getElem]
  intro i j hi hj hij heq
  have hseqi := outputSeq_of_chain h hlen (List.getElem?_eq_getElem hi)
  have hseqj := outputSeq_of_chain h hlen (List.getElem?_eq_getElem hj)
  rw [heq] at hseqi
  omega

/-- The outputs of a stream before a position. -/
def before (stream : List EngineOutput) (n : ℕ) : Set EngineOutput :=
  {a | ∃ i < n, stream[i]? = some a}

lemma before_zero (stream : List EngineOutput) : before stream 0 = ∅ := by
  ext a
  exact iff_of_false (fun ⟨i, hi, _⟩ => Nat.not_lt_zero i hi) (Set.notMem_empty a)

/-- The chain state is that behind some output that is held, or the beginning. -/
lemma Holds.cursor {n : ℕ} (h : Holds log S) (hS : S ⊆ before stream n) (s : Session) :
    ∃ k ≤ n, k ≤ stream.length ∧ s.cursor log = position stream k := by
  have hzero : ∃ k ≤ n, k ≤ stream.length ∧
      (⟨0, GENESIS_HASH⟩ : ChainCursor) = position stream k :=
    ⟨0, Nat.zero_le _, Nat.zero_le _, rfl⟩
  rw [Session.cursor]
  split
  · rw [loadChainState, getChainState]
    split
    · rename_i k row hnewest
      obtain ⟨output, hout, -, rfl⟩ := (h _ _).mp (Table.newest_eq_some_iff.mp hnewest).1
      obtain ⟨i, hi, hget⟩ := hS hout
      refine ⟨i + 1, hi, (List.getElem?_eq_some_iff.mp hget).1, ?_⟩
      rw [position_succ hget]
      exact congrArg₂ ChainCursor.mk (UInt64.toUInt64_toInt64 _) (UInt64.toUInt64_toInt64 _)
    · exact hzero
  · exact hzero

lemma mem_part {n k : ℕ} {a : EngineOutput} :
    a ∈ (stream.take n).drop k ↔ ∃ i, k ≤ i ∧ i < n ∧ stream[i]? = some a := by
  rw [List.mem_iff_getElem?]
  constructor
  · rintro ⟨j, hj⟩
    rw [List.getElem?_drop] at hj
    obtain ⟨hlt, -⟩ := List.getElem?_eq_some_iff.mp hj
    rw [List.length_take] at hlt
    refine ⟨k + j, Nat.le_add_right k j, by omega, ?_⟩
    rwa [List.getElem?_take_of_lt (by omega)] at hj
  · rintro ⟨i, hki, hin, hi⟩
    refine ⟨i - k, ?_⟩
    rw [List.getElem?_drop, Nat.add_sub_cancel' hki, List.getElem?_take_of_lt hin]
    exact hi

end SettlementDb

/-! ## Runs -/

section Runs

variable {env : Externals} {stream : List EngineOutput} {log : EngineOutputLog}
  {S : Set EngineOutput}

lemma holds_attemptLoop_step {s : SettlementService} {attempt : Attempt} (h : Holds s.log S)
    (hdistinct : DistinctSeqs stream) (hS : ∀ a ∈ S, a ∈ stream)
    (hsub : ((verifier env).accepted s.cursor attempt.batch.outputs).Sublist stream) :
    Holds ((attemptLoop env).step s attempt).1.log
      (S ∪ {a | a ∈ ((verifier env).accepted s.cursor attempt.batch.outputs).filter
        attempt.written}) := by
  show Holds (if ((verifier env).accepted s.cursor attempt.batch.outputs).isEmpty then s.log
    else writeSotParallel attempt.batch.order
      (((verifier env).accepted s.cursor attempt.batch.outputs).filter attempt.written)
      s.log) _
  split
  · rename_i hempty
    rw [List.isEmpty_iff.mp hempty, List.filter_nil]
    have hnone : {a : EngineOutput | a ∈ ([] : List EngineOutput)} = ∅ := by ext a; simp
    rw [hnone, Set.union_empty]
    exact h
  · exact h.writeSotParallel hdistinct hS (List.filter_sublist.trans hsub) _

/-- The batches of a session: some of what is accepted gets to the log. -/
lemma holds_attemptLoop {s : SettlementService} {attempts : List Attempt}
    (hdistinct : DistinctSeqs stream)
    (hsub : ((verifier env).accepted s.cursor
      (attempts.flatMap (fun attempt => attempt.batch.outputs))).Sublist stream)
    (hS : ∀ a ∈ S, a ∈ stream) (h : Holds s.log S) :
    ∃ W ⊆ {a | a ∈ (verifier env).accepted s.cursor
        (attempts.flatMap (fun attempt => attempt.batch.outputs))},
      Holds ((attemptLoop env).run s attempts).log (S ∪ W) ∧
        ((∀ attempt ∈ attempts, attempt.Complete) →
          W = {a | a ∈ (verifier env).accepted s.cursor
            (attempts.flatMap (fun attempt => attempt.batch.outputs))}) := by
  induction attempts generalizing s S with
  | nil =>
      refine ⟨∅, Set.empty_subset _, by rwa [Set.union_empty], fun _ => ?_⟩
      exact (Set.eq_empty_of_forall_notMem (fun a ha => List.not_mem_nil ha)).symm
  | cons attempt attempts ih =>
      rw [List.flatMap_cons, Machine.accepted_append] at hsub
      have hfirst := (List.sublist_append_left _ _).trans hsub
      have hlog := holds_attemptLoop_step h hdistinct hS hfirst
      have hS' : ∀ a ∈ S ∪ {a | a ∈ ((verifier env).accepted s.cursor
          attempt.batch.outputs).filter attempt.written}, a ∈ stream := by
        rintro a (ha | ha)
        · exact hS a ha
        · exact hfirst.subset (List.mem_of_mem_filter ha)
      obtain ⟨W, hW, hrest, hall⟩ := ih (s := ((attemptLoop env).step s attempt).1)
        ((List.sublist_append_right _ _).trans hsub) hS' hlog
      rw [List.flatMap_cons, Machine.accepted_append]
      refine ⟨_, ?_, (Set.union_assoc _ _ _).symm ▸ hrest, fun hcomplete => ?_⟩
      · rintro a (ha | ha)
        · exact List.mem_append_left _ (List.mem_of_mem_filter ha)
        · exact List.mem_append_right _ (hW ha)
      · rw [List.forall_mem_cons] at hcomplete
        rw [hall hcomplete.2]
        ext a
        constructor
        · rintro (ha | ha)
          · exact List.mem_append_left _ (List.mem_of_mem_filter ha)
          · exact List.mem_append_right _ ha
        · intro ha
          rcases List.mem_append.mp ha with ha | ha
          · have hin := Machine.mem_of_mem_accepted (verifier_same env) ha
            exact Or.inl (List.mem_filter.mpr ⟨ha, hcomplete.1 a hin⟩)
          · exact Or.inr ha

lemma holds_session (hchain : HashChain env stream) (hlen : stream.length < 2 ^ 64 - 1)
    {s : Session} {m n : ℕ} (hdelivered : DeliveredAgain stream 0 s.delivered m)
    (hS : S ⊆ before stream n) (h : Holds log S) :
    ∃ S', Holds (s.run env log) S' ∧ S' ⊆ before stream (max n m) ∧
      ((∀ attempt ∈ s.attempts, attempt.Complete) → S = before stream n →
        S' = before stream (max n m)) := by
  have hstream : ∀ a ∈ S, a ∈ stream := by
    intro a ha
    obtain ⟨i, -, hi⟩ := hS ha
    exact List.mem_of_getElem? hi
  obtain ⟨k, hkn, hk, hcursor⟩ := h.cursor hS s
  obtain ⟨-, haccepted⟩ := Machine.accepted_of_deliveredAgain
    (keepsPosition_verifier hchain hlen) hdelivered (Nat.zero_le k) hk
  rw [← hcursor] at haccepted
  have hsub : ((verifier env).accepted (s.cursor log) s.delivered).Sublist stream := by
    rw [haccepted]
    exact (List.drop_sublist _ _).trans (List.take_sublist _ _)
  obtain ⟨W, hW, hlog, hall⟩ := holds_attemptLoop (s := ⟨s.cursor log, log, []⟩)
    (distinctSeqs_of_chain hchain hlen) hsub hstream h
  have hpart : ∀ a, a ∈ (verifier env).accepted (s.cursor log) s.delivered ↔
      ∃ i, k ≤ i ∧ i < max k m ∧ stream[i]? = some a := by
    intro a
    rw [haccepted]
    exact mem_part
  refine ⟨S ∪ W, hlog, ?_, fun hcomplete hold => ?_⟩
  · rintro a (ha | ha)
    · obtain ⟨i, hi, hget⟩ := hS ha
      exact ⟨i, by omega, hget⟩
    · obtain ⟨i, -, hi, hget⟩ := (hpart a).mp (hW ha)
      exact ⟨i, by omega, hget⟩
  · rw [hall hcomplete, hold]
    ext a
    constructor
    · rintro (⟨i, hi, hget⟩ | ha)
      · exact ⟨i, by omega, hget⟩
      · obtain ⟨i, -, hi, hget⟩ := (hpart a).mp ha
        exact ⟨i, by omega, hget⟩
    · rintro ⟨i, hi, hget⟩
      -- What is behind the old outputs has been accepted now.
      rcases Nat.lt_or_ge i n with hin | hin
      · exact Or.inl ⟨i, hin, hget⟩
      · exact Or.inr ((hpart a).mpr ⟨i, hkn.trans hin, by omega, hget⟩)

lemma holds_sessions (hchain : HashChain env stream) (hlen : stream.length < 2 ^ 64 - 1)
    {sessions : List Session} {counts : List ℕ} {n : ℕ}
    (hdelivered : List.Forall₂ (fun s m => DeliveredAgain stream 0 s.delivered m) sessions counts)
    (hS : S ⊆ before stream n) (h : Holds log S) :
    ∃ S', Holds (sessions.foldl (Session.run env) log) S' ∧
      S' ⊆ before stream (counts.foldl max n) ∧
      ((∀ s ∈ sessions, ∀ attempt ∈ s.attempts, attempt.Complete) → S = before stream n →
        S' = before stream (counts.foldl max n)) := by
  induction hdelivered generalizing log S n with
  | nil => exact ⟨S, h, hS, fun _ hall => hall⟩
  | cons hfirst _ ih =>
      obtain ⟨S', h', hS', hall'⟩ := holds_session hchain hlen hfirst hS h
      obtain ⟨S'', h'', hS'', hall''⟩ := ih hS' h'
      refine ⟨S'', h'', hS'', fun hcut hall => ?_⟩
      rw [List.forall_mem_cons] at hcut
      exact hall'' hcut.2 (hall' hcut.1 hall)

/-- **The log across restarts.**  However the outputs are delivered again, wherever processes crash
and whichever writes fail, the log holds nothing but outputs of the stream that have been delivered,
under their keys; if every write has been complete, it holds all of them. -/
theorem settled_log (hchain : HashChain env stream) (hlen : stream.length < 2 ^ 64 - 1)
    {sessions : List Session} {counts : List ℕ}
    (hdelivered : List.Forall₂ (fun s m => DeliveredAgain stream 0 s.delivered m) sessions counts) :
    ∃ S ⊆ before stream (counts.foldl max 0),
      Holds (sessions.foldl (Session.run env) Table.empty) S ∧
        ((∀ s ∈ sessions, ∀ attempt ∈ s.attempts, attempt.Complete) →
          S = before stream (counts.foldl max 0)) := by
  obtain ⟨S, hlog, hS, hall⟩ := holds_sessions hchain hlen hdelivered (Set.empty_subset _)
    holds_empty
  exact ⟨S, hS, hlog, fun hcomplete => hall hcomplete (before_zero stream).symm⟩

/-- A trade and then a deposit. -/
def tradeThenDeposit : List EngineOutput := [tradedOutput, depositOutput 2 0]

/-- The first process settles the trade, and the second one, to which it is delivered twice, the
deposit as well. -/
def tradeAgain : List Session :=
  [⟨true, [⟨⟨[tradedOutput], []⟩, fun _ => true⟩]⟩,
    ⟨true, [⟨⟨[tradedOutput], []⟩, fun _ => true⟩, ⟨⟨tradeThenDeposit, [0, 1]⟩, fun _ => true⟩]⟩]

lemma hashChain_tradeThenDeposit : HashChain zeroHash tradeThenDeposit where
  verified := by decide +kernel
  genesis output h := by
    obtain rfl := Option.some.inj h
    decide +kernel
  linked := by decide +kernel

theorem settled_log_tradeAgain :
    ∃ S ⊆ before tradeThenDeposit 2,
      Holds (tradeAgain.foldl (Session.run zeroHash) Table.empty) S ∧
        ((∀ s ∈ tradeAgain, ∀ attempt ∈ s.attempts, attempt.Complete) →
          S = before tradeThenDeposit 2) := by
  have htrade : tradeThenDeposit[0]? = some tradedOutput := rfl
  have hdeposit : tradeThenDeposit[1]? = some (depositOutput 2 0) := rfl
  have hfirst : DeliveredAgain tradeThenDeposit 0 [tradedOutput] 1 :=
    .cons (Nat.zero_le 0) htrade (.nil 1)
  have hsecond : DeliveredAgain tradeThenDeposit 0 (tradedOutput :: tradeThenDeposit) 2 :=
    .cons (Nat.zero_le 0) htrade (.cons (Nat.zero_le 1) htrade (.cons le_rfl hdeposit (.nil 2)))
  have hdelivered : List.Forall₂ (fun s m => DeliveredAgain tradeThenDeposit 0 s.delivered m)
      tradeAgain [1, 2] := .cons hfirst (.cons hsecond .nil)
  exact settled_log hashChain_tradeThenDeposit (by decide) hdelivered

/-- The shard of the deposit is written, that of the trade before it fails: to the next process the
trade looks settled. -/
example :
    ([⟨true, [⟨⟨tradeThenDeposit, []⟩, fun output => output.symbolId = 0⟩]⟩,
        ⟨true, [⟨⟨tradeThenDeposit, []⟩, fun _ => true⟩]⟩].foldl
      (Session.run zeroHash) Table.empty).rowAt (engineOutputKey tradedOutput) = none := by
  decide +kernel

end Runs

end ExchangeCore
