import ExchangeCore.Framework.Table
import ExchangeCore.Framework.Word
import ExchangeCore.Settlement.ChainVerifier

/-!
# The engine output log of the settlement service

The accepted outputs are written to the table `engine_output_log` before anything is derived from
them (`write_sot_parallel` of `settlement_service.rs`, `write_engine_outputs_batch` of
`settlement_db.rs`), and after a restart the service takes its cursors from there
(`load_chain_state`, `get_chain_state`).

The table is partitioned by the symbol of the output, which is that of its first trade, or 0 without
trades.  `get_chain_state` reads the newest row of the partition 0 alone, by signed sequence number.
So it finds the last output exactly if that is in the partition and newest there
(`chain_state_recovered_iff`).
-/

namespace ExchangeCore

/-- A row of `engine_output_log`; what is only written, the serialized output and the time, is left
out. -/
structure EngineOutputRow where
  symbolId : Int32
  outputSeq : Int64
  hash : Int64
  prevHash : Int64
  deriving DecidableEq, Repr

/-- `engine_output_log`, with rows by `symbol_id` and `output_seq`. -/
abbrev EngineOutputLog : Type := Table Int32 ℤ EngineOutputRow

namespace SettlementDb

/-- The values written for an output. -/
def engineOutputRow (output : EngineOutput) : EngineOutputRow where
  symbolId := output.symbolId.toInt32
  outputSeq := output.outputSeq.toInt64
  hash := output.hash.toInt64
  prevHash := output.prevHash.toInt64

/-- The primary key of an output. -/
def engineOutputKey (output : EngineOutput) : Int32 × ℤ :=
  ((engineOutputRow output).symbolId, (engineOutputRow output).outputSeq.toInt)

def writeEngineOutputsBatch (outputs : List EngineOutput) (log : EngineOutputLog) :
    EngineOutputLog :=
  Table.insertAll engineOutputKey engineOutputRow outputs log

def getChainState (log : EngineOutputLog) : UInt64 × UInt64 :=
  match log.newest 0 with
  | some (_, row) => (row.outputSeq.toUInt64, row.hash.toUInt64)
  | none => (0, 0)

end SettlementDb

/-- `load_chain_state`, on what the query has returned. -/
def loadChainState : Except String (UInt64 × UInt64) → ChainCursor
  | .ok (seq, hash) => ⟨seq, hash⟩
  | .error _ => ⟨0, GENESIS_HASH⟩

/-- The shards of `write_sot_parallel`, one for each symbol.  The writes are concurrent: `order`
puts them into any order. -/
def sotShards (order : List UInt32) (outputs : List EngineOutput) : List (List EngineOutput) :=
  (outputs.map EngineOutput.symbolId ++ order).dedup.map
    (fun symbolId => outputs.filter (fun output => output.symbolId = symbolId))

/-- `write_sot_parallel`, all writes successful. -/
def writeSotParallel (order : List UInt32) (outputs : List EngineOutput) (log : EngineOutputLog) :
    EngineOutputLog :=
  (sotShards order outputs).foldl (fun log shard => SettlementDb.writeEngineOutputsBatch shard log)
    log

/-- A batch received, and the order in which its shards will be written. -/
structure ReceivedBatch where
  outputs : List EngineOutput
  order : List UInt32

/-- The service, with the outputs it has accepted. -/
structure SettlementService where
  cursor : ChainCursor
  log : EngineOutputLog
  accepted : List EngineOutput

/-- The service on an empty log. -/
def SettlementService.start : SettlementService :=
  ⟨loadChainState (.ok (SettlementDb.getChainState .empty)), .empty, []⟩

/-- The processing loop, batch by batch. -/
def settlementLoop (env : Externals) : Machine SettlementService ReceivedBatch Unit where
  step s batch :=
    let (verified, cursor) := ChainCursor.verifyBatch env batch.outputs s.cursor
    let log := if verified.isEmpty then s.log else writeSotParallel batch.order verified s.log
    (⟨cursor, log, s.accepted ++ verified⟩, ())

/-! ## The log -/

namespace SettlementDb

lemma engineOutputKey_eq_iff {a b : EngineOutput} :
    engineOutputKey a = engineOutputKey b ↔
      a.symbolId = b.symbolId ∧ a.outputSeq = b.outputSeq := by
  rw [engineOutputKey, engineOutputKey, Prod.mk.injEq, Int64.toInt_inj]
  exact and_congr (Function.LeftInverse.injective UInt32.toUInt32_toInt32).eq_iff
    (Function.LeftInverse.injective UInt64.toUInt64_toInt64).eq_iff

/-- The rows of the log are those of the outputs. -/
def Logged (log : EngineOutputLog) (outputs : List EngineOutput) : Prop :=
  ∀ key row, log.rowAt key = some row ↔
    ∃ output ∈ outputs, engineOutputKey output = key ∧ engineOutputRow output = row

/-- No two outputs have one sequence number. -/
def DistinctSeqs (outputs : List EngineOutput) : Prop :=
  outputs.Pairwise (fun a b => a.outputSeq ≠ b.outputSeq)

variable {log : EngineOutputLog} {outputs verified : List EngineOutput} {output : EngineOutput}

lemma distinctSeqs_of_increasing
    (h : outputs.Pairwise (fun earlier later => earlier.outputSeq < later.outputSeq)) :
    DistinctSeqs outputs := by
  refine h.imp (fun hlt heq => ?_)
  rw [heq] at hlt
  exact UInt64.lt_irrefl _ hlt

lemma DistinctSeqs.eq_of_mem (h : DistinctSeqs outputs) :
    ∀ a ∈ outputs, ∀ b ∈ outputs, a.outputSeq = b.outputSeq → a = b := by
  induction h with
  | nil => exact fun a ha => absurd ha List.not_mem_nil
  | cons hhead _ ih =>
      intro a ha b hb heq
      rcases List.mem_cons.mp ha with rfl | ha'
      · rcases List.mem_cons.mp hb with rfl | hb'
        · rfl
        · exact absurd heq (hhead b hb')
      · rcases List.mem_cons.mp hb with rfl | hb'
        · exact absurd heq.symm (hhead a ha')
        · exact ih a ha' b hb' heq

lemma mem_sotShards (order : List UInt32) :
    output ∈ (sotShards order outputs).flatten ↔ output ∈ outputs := by
  rw [sotShards, List.mem_flatten]
  constructor
  · rintro ⟨shard, hshard, hin⟩
    obtain ⟨symbolId, -, rfl⟩ := List.mem_map.mp hshard
    exact List.mem_of_mem_filter hin
  · intro hin
    refine ⟨_, List.mem_map.mpr ⟨output.symbolId, ?_, rfl⟩, ?_⟩
    · rw [List.mem_dedup]
      exact List.mem_append_left _ (List.mem_map_of_mem hin)
    · exact List.mem_filter.mpr ⟨hin, decide_eq_true rfl⟩

lemma pairwise_sotShards (order : List UInt32) (h : DistinctSeqs outputs) :
    (sotShards order outputs).flatten.Pairwise
      (fun a b => engineOutputKey a ≠ engineOutputKey b) := by
  rw [sotShards, List.pairwise_flatten]
  constructor
  · intro shard hshard
    obtain ⟨symbolId, -, rfl⟩ := List.mem_map.mp hshard
    refine (List.Pairwise.filter _ h).imp (fun hne heq => hne ?_)
    exact (engineOutputKey_eq_iff.mp heq).2
  · rw [List.pairwise_map]
    refine (List.nodup_dedup _).imp (fun hne a ha b hb heq => hne ?_)
    have hsymbol := (engineOutputKey_eq_iff.mp heq).1
    rw [← of_decide_eq_true (List.mem_filter.mp ha).2,
      ← of_decide_eq_true (List.mem_filter.mp hb).2, hsymbol]

/-- Outputs with new numbers are logged besides the others. -/
lemma Logged.write (h : Logged log outputs) (hdistinct : DistinctSeqs (outputs ++ verified))
    (order : List UInt32) : Logged (writeSotParallel order verified log) (outputs ++ verified) := by
  obtain ⟨-, hverified, hacross⟩ := List.pairwise_append.mp hdistinct
  have hwrites : writeSotParallel order verified log = Table.insertAll engineOutputKey
      engineOutputRow (sotShards order verified).flatten log := Table.foldl_insertAll _ _ _ _
  intro key row
  rw [hwrites, Table.rowAt_insertAll (pairwise_sotShards order hverified)]
  constructor
  · rintro (⟨output, hin, hkey, hrow⟩ | ⟨-, hold⟩)
    · exact ⟨output, List.mem_append_right _ ((mem_sotShards order).mp hin), hkey, hrow⟩
    · obtain ⟨output, hin, hkey, hrow⟩ := (h key row).mp hold
      exact ⟨output, List.mem_append_left _ hin, hkey, hrow⟩
  · rintro ⟨output, hin, hkey, hrow⟩
    rcases List.mem_append.mp hin with hin | hin
    · refine .inr ⟨fun other hother heq => ?_, (h key row).mpr ⟨output, hin, hkey, hrow⟩⟩
      rw [← hkey] at heq
      exact hacross output hin other ((mem_sotShards order).mp hother)
        (engineOutputKey_eq_iff.mp heq).2.symm
    · exact .inl ⟨output, (mem_sotShards order).mpr hin, hkey, hrow⟩

/-- What is read is one output exactly if it is in the partition 0, and newest there. -/
lemma Logged.getChainState_iff (h : Logged log outputs) (hdistinct : DistinctSeqs outputs)
    (hin : output ∈ outputs) (hpos : output.outputSeq ≠ 0) :
    getChainState log = (output.outputSeq, output.hash) ↔
      output.symbolId = 0 ∧ ∀ other ∈ outputs, other.symbolId = 0 →
        other.outputSeq.toInt64.toInt ≤ output.outputSeq.toInt64.toInt := by
  have hkey : ∀ other : EngineOutput, other.symbolId = 0 →
      engineOutputKey other = (0, other.outputSeq.toInt64.toInt) := by
    intro other hzero
    show (other.symbolId.toInt32, _) = _
    rw [hzero]
    rfl
  have hsymbol : ∀ other : EngineOutput, ∀ k : ℤ, engineOutputKey other = (0, k) →
      other.symbolId = 0 ∧ other.outputSeq.toInt64.toInt = k := by
    intro other k heq
    obtain ⟨hfirst, hsecond⟩ := Prod.mk.inj heq
    refine ⟨?_, hsecond⟩
    rw [← UInt32.toUInt32_toInt32 other.symbolId]
    exact congrArg Int32.toUInt32 hfirst
  constructor
  · intro hstate
    rw [getChainState] at hstate
    rcases hnewest : log.newest 0 with _ | ⟨k, row⟩
    · rw [hnewest] at hstate
      exact absurd (Prod.mk.inj hstate).1.symm hpos
    · rw [hnewest] at hstate
      obtain ⟨hrow, hgreatest⟩ := Table.newest_eq_some_iff.mp hnewest
      obtain ⟨found, hfound, hfoundKey, rfl⟩ := (h _ _).mp hrow
      obtain ⟨hzero, rfl⟩ := hsymbol found k hfoundKey
      -- The row read is that of the output: no other has its number.
      obtain rfl : found = output := hdistinct.eq_of_mem found hfound output hin
        ((UInt64.toUInt64_toInt64 found.outputSeq).symm.trans (Prod.mk.inj hstate).1)
      refine ⟨hzero, fun other hother hotherZero => ?_⟩
      exact hgreatest _ (engineOutputRow other) ((h _ _).mpr ⟨other, hother, hkey other hotherZero,
        rfl⟩)
  · rintro ⟨hzero, hgreatest⟩
    have hnewest : log.newest 0 =
        some (output.outputSeq.toInt64.toInt, engineOutputRow output) := by
      refine Table.newest_eq_some_iff.mpr ⟨(h _ _).mpr ⟨output, hin, hkey output hzero, rfl⟩, ?_⟩
      intro k row hrow
      obtain ⟨other, hother, hotherKey, -⟩ := (h _ _).mp hrow
      obtain ⟨hotherZero, rfl⟩ := hsymbol other k hotherKey
      exact hgreatest other hother hotherZero
    rw [getChainState, hnewest]
    exact Prod.ext (UInt64.toUInt64_toInt64 _) (UInt64.toUInt64_toInt64 _)

lemma Logged.getChainState_nil (h : Logged log []) : getChainState log = (0, 0) := by
  have hnone : log.newest 0 = none := by
    refine Table.newest_eq_none_iff.mpr (fun k => Option.eq_none_iff_forall_ne_some.mpr ?_)
    intro row hrow
    obtain ⟨output, hin, -⟩ := (h _ _).mp hrow
    exact absurd hin List.not_mem_nil
  rw [getChainState, hnone]

end SettlementDb

/-! ## Runs -/

section Runs

open SettlementDb ChainCursor

variable {env : Externals} {s : SettlementService} {batches : List ReceivedBatch}

lemma run_settlementLoop (hlogged : Logged s.log s.accepted)
    (hdistinct : DistinctSeqs (s.accepted ++
      (verifier env).accepted s.cursor (batches.flatMap ReceivedBatch.outputs))) :
    ((settlementLoop env).run s batches).accepted = s.accepted ++
        (verifier env).accepted s.cursor (batches.flatMap ReceivedBatch.outputs) ∧
      Logged ((settlementLoop env).run s batches).log
        ((settlementLoop env).run s batches).accepted := by
  induction batches generalizing s with
  | nil =>
      rw [List.flatMap_nil, Machine.accepted_nil, List.append_nil]
      exact ⟨rfl, hlogged⟩
  | cons batch batches ih =>
      rw [List.flatMap_cons, Machine.accepted_append, ← List.append_assoc] at hdistinct ⊢
      refine ih (s := ((settlementLoop env).step s batch).1) ?_ hdistinct
      show Logged (if ((verifier env).accepted s.cursor batch.outputs).isEmpty then s.log
        else writeSotParallel batch.order ((verifier env).accepted s.cursor batch.outputs) s.log)
        (s.accepted ++ (verifier env).accepted s.cursor batch.outputs)
      have hsofar := (List.pairwise_append.mp hdistinct).1
      split
      · rename_i hempty
        rw [List.isEmpty_iff.mp hempty, List.append_nil]
        exact hlogged
      · exact hlogged.write hsofar batch.order

end Runs

/-! ## Restart -/

/-- The last output is in the partition that is read, and no other there has a number that is
greater when it is read as signed. -/
def LastInReadPartition (accepted : List EngineOutput) : Prop :=
  ∀ last, accepted.getLast? = some last → last.symbolId = 0 ∧
    (last.outputSeq.toNat < 2 ^ 63 ∨
      ∀ output ∈ accepted, output.symbolId = 0 → 2 ^ 63 ≤ output.outputSeq.toNat)

/-- A service with this cursor goes on behind the outputs accepted: the cursor is at the last of
them, the next output of the chain is accepted and none of them is again. -/
structure Recovers (env : Externals) (cursor : ChainCursor) (accepted : List EngineOutput) :
    Prop where
  position : cursor = (accepted.getLast?.map ChainCursor.after).getD ⟨0, GENESIS_HASH⟩
  next : ∀ output, output.verify env = true →
    output.outputSeq.toNat ≤ cursor.lastSeq.toNat + 1 →
      (((ChainCursor.verifier env).step cursor output).2 = some output ↔
        output.outputSeq.toNat = cursor.lastSeq.toNat + 1 ∧ output.prevHash = cursor.lastHash)
  settled : ∀ output ∈ accepted, ((ChainCursor.verifier env).step cursor output).2 = none

section Restart

open SettlementDb ChainCursor

variable {env : Externals} {accepted : List EngineOutput}

lemma le_last {last : EngineOutput}
    (h : accepted.Pairwise (fun earlier later => earlier.outputSeq < later.outputSeq))
    (hlast : accepted.getLast? = some last) :
    ∀ output ∈ accepted, output.outputSeq.toNat ≤ last.outputSeq.toNat := by
  obtain ⟨before, rfl⟩ := List.getLast?_eq_some_iff.mp hlast
  intro output hin
  rcases List.mem_append.mp hin with hin | hin
  · have hlt := (List.pairwise_append.mp h).2.2 output hin last List.mem_cons_self
    exact (UInt64.lt_iff_toNat_lt.mp hlt).le
  · rw [List.mem_singleton.mp hin]

/-- A service whose cursor is at the last output goes on behind it. -/
lemma recovers_of_position
    (hincreasing : accepted.Pairwise (fun earlier later => earlier.outputSeq < later.outputSeq))
    (hbounds : ∀ output ∈ accepted, output.SeqBounded) {cursor : ChainCursor}
    (hcursor : cursor = (accepted.getLast?.map after).getD ⟨0, GENESIS_HASH⟩) :
    Recovers env cursor accepted := by
  rcases hlast : accepted.getLast? with _ | last
  · have hnil : accepted = [] := List.getLast?_eq_none_iff.mp hlast
    subst hnil
    have hnext : cursor.HasNext := by
      rw [hcursor]
      decide
    exact ⟨hcursor, fun output hverify hle => accepts_iff hnext hverify hle,
      fun output hin => absurd hin List.not_mem_nil⟩
  · have hafter : cursor = after last := by rw [hcursor, hlast]; rfl
    have hnext : cursor.HasNext := by
      rw [hafter]
      exact hbounds last (List.mem_of_getLast? hlast)
    refine ⟨hcursor, fun output hverify hle => accepts_iff hnext hverify hle, ?_⟩
    intro output hin
    refine skipped_of_le hnext ?_
    rw [hafter]
    exact le_last hincreasing hlast output hin

/-- What a run of the service from an empty log has accepted: increasing numbers, from 1 on, all of
them logged. -/
lemma run_start (env : Externals) {batches : List ReceivedBatch}
    (hseq : ∀ batch ∈ batches, ∀ output ∈ batch.outputs, output.SeqBounded) :
    let s := (settlementLoop env).run .start batches
    s.accepted.Pairwise (fun earlier later => earlier.outputSeq < later.outputSeq) ∧
      (∀ output ∈ s.accepted, 0 < output.outputSeq.toNat ∧ output.SeqBounded) ∧
      Logged s.log s.accepted := by
  have hstream : ∀ output ∈ batches.flatMap ReceivedBatch.outputs, output.SeqBounded := by
    intro output hin
    obtain ⟨batch, hbatch, hin⟩ := List.mem_flatMap.mp hin
    exact hseq batch hbatch output hin
  have hfirst : SettlementService.start.cursor.HasNext := by decide
  have hincreasing := (verifiedChain_accepted env hfirst hstream).increasing
  have hempty : Logged SettlementService.start.log SettlementService.start.accepted := by
    intro key row
    refine iff_of_false (by rw [SettlementService.start, Table.rowAt_empty]; simp) ?_
    rintro ⟨output, hin, -⟩
    exact absurd hin List.not_mem_nil
  obtain ⟨haccepted, hlogged⟩ := run_settlementLoop hempty (distinctSeqs_of_increasing hincreasing)
  have hall : ((settlementLoop env).run .start batches).accepted =
      (verifier env).accepted SettlementService.start.cursor
        (batches.flatMap ReceivedBatch.outputs) := haccepted
  refine ⟨?_, ?_, hlogged⟩
  · rw [hall]
    exact hincreasing
  · rw [hall]
    exact bounds_accepted env hfirst hstream

/-- Where the outputs are logged, the cursors loaded are those of the last one exactly if it is in
the partition that is read, and newest there. -/
lemma recovers_iff_readPartition {log : EngineOutputLog}
    (hincreasing : accepted.Pairwise (fun earlier later => earlier.outputSeq < later.outputSeq))
    (hbounds : ∀ output ∈ accepted, 0 < output.outputSeq.toNat ∧ output.SeqBounded)
    (hlogged : Logged log accepted) :
    Recovers env (loadChainState (.ok (getChainState log))) accepted ↔
      LastInReadPartition accepted := by
  have hrecovers : Recovers env (loadChainState (.ok (getChainState log))) accepted ↔
      loadChainState (.ok (getChainState log)) =
        (accepted.getLast?.map after).getD ⟨0, GENESIS_HASH⟩ :=
    ⟨Recovers.position, recovers_of_position hincreasing (fun output hin => (hbounds output hin).2)⟩
  rw [hrecovers]
  rcases hlast : accepted.getLast? with _ | last
  · have hnil : accepted = [] := List.getLast?_eq_none_iff.mp hlast
    subst hnil
    refine iff_of_true ?_ (fun last hsome => absurd hsome (by simp))
    rw [hlogged.getChainState_nil]
    rfl
  · have hin := List.mem_of_getLast? hlast
    have hpos : last.outputSeq ≠ 0 := by
      intro hzero
      have hlt := (hbounds last hin).1
      rw [hzero, UInt64.toNat_zero] at hlt
      exact Nat.lt_irrefl 0 hlt
    have hstate : loadChainState (.ok (getChainState log)) = after last ↔
        getChainState log = (last.outputSeq, last.hash) := by
      constructor
      · intro h
        obtain ⟨hseq, hhash⟩ := ChainCursor.mk.inj h
        exact Prod.ext hseq hhash
      · intro h
        rw [h]
        rfl
    have hle := le_last hincreasing hlast
    have hcondition : LastInReadPartition accepted ↔ last.symbolId = 0 ∧
        (last.outputSeq.toNat < 2 ^ 63 ∨
          ∀ output ∈ accepted, output.symbolId = 0 → 2 ^ 63 ≤ output.outputSeq.toNat) := by
      refine ⟨fun h => h last hlast, fun h last' hlast' => ?_⟩
      obtain rfl := Option.some.inj (hlast.symm.trans hlast')
      exact h
    show loadChainState (.ok (getChainState log)) = after last ↔ _
    rw [hstate, hlogged.getChainState_iff (distinctSeqs_of_increasing hincreasing) hin hpos,
      hcondition]
    refine and_congr_right (fun _ => ?_)
    constructor
    · intro hgreatest
      by_cases hsmall : last.outputSeq.toNat < 2 ^ 63
      · exact .inl hsmall
      · refine .inr (fun output houtput hzero => ?_)
        have hsigned := hgreatest output houtput hzero
        rw [Word.toInt_toInt64_le_iff (hle output houtput)] at hsigned
        exact hsigned.resolve_left hsmall
    · intro hcases output houtput hzero
      rw [Word.toInt_toInt64_le_iff (hle output houtput)]
      exact hcases.imp_right (fun h => h output houtput hzero)

/-- **Restart.**  Whatever has been accepted from a stream in any batches, and in whatever order the
shards have been written, the service restarts behind the last output exactly if that has been
written to the partition 0 and is the newest there by signed number. -/
theorem chain_state_recovered_iff (env : Externals) {batches : List ReceivedBatch}
    (hseq : ∀ batch ∈ batches, ∀ output ∈ batch.outputs, output.SeqBounded) :
    Recovers env
        (loadChainState (.ok (getChainState ((settlementLoop env).run .start batches).log)))
        ((settlementLoop env).run .start batches).accepted ↔
      LastInReadPartition ((settlementLoop env).run .start batches).accepted := by
  obtain ⟨hincreasing, hbounds, hlogged⟩ := run_start env hseq
  exact recovers_iff_readPartition hincreasing hbounds hlogged

/-- An output with a trade in symbol 1. -/
def tradedOutput : EngineOutput :=
  ((EngineOutputBuilder.new 1 0).addTrade
    ⟨1, 1, 1, 10, 11, 7, 8, 100, 2, 1, 2, 0, 0, 0⟩).buildUnchecked zeroHash
      ⟨1, 0, .placeOrder ⟨10, 7, 1, 0, 0, 100, 2, "a", 0⟩⟩

theorem chain_state_recovered_iff_depositLast :
    Recovers zeroHash
      (loadChainState (.ok (getChainState ((settlementLoop zeroHash).run .start
        [⟨[tradedOutput], []⟩, ⟨[depositOutput 2 0], [0]⟩]).log)))
      ((settlementLoop zeroHash).run .start
        [⟨[tradedOutput], []⟩, ⟨[depositOutput 2 0], [0]⟩]).accepted := by
  refine (chain_state_recovered_iff zeroHash (by decide)).mpr (fun last hlast => ?_)
  have hdeposit : ((settlementLoop zeroHash).run .start
      [⟨[tradedOutput], []⟩, ⟨[depositOutput 2 0], [0]⟩]).accepted.getLast? =
      some (depositOutput 2 0) := by decide +kernel
  obtain rfl := Option.some.inj (hdeposit.symm.trans hlast)
  exact ⟨rfl, .inl (by decide)⟩

/-- After the trade alone the service starts from the beginning. -/
theorem traded_not_recovered :
    ¬Recovers zeroHash
      (loadChainState (.ok (getChainState ((settlementLoop zeroHash).run .start
        [⟨[tradedOutput], []⟩]).log)))
      ((settlementLoop zeroHash).run .start [⟨[tradedOutput], []⟩]).accepted := by
  intro h
  exact absurd h.position (by decide +kernel)

end Restart

end ExchangeCore
