import ExchangeCore.Engine.Output
import ExchangeCore.Framework.Filter

/-!
# Chain verification of the settlement service

`verify_batch` of `settlement_service.rs`.  The service keeps two cursors, the sequence number and
the hash of the last output it has accepted.  Outputs at or before the cursor are skipped; behind a
gap the chain is taken up again where the output says it does, and only an output that comes next is
checked against the hash.

A gap moves both cursors before the output is verified, so that the hash need not be that of an
accepted output.  The outputs accepted still form chains wherever their numbers are consecutive
(`verified_chain`): a cursor that has been moved is beyond every number accepted before.  But a
damaged output far ahead moves them as well, and what genuinely comes next is skipped; every other
output that is rejected is as good as absent (`rejected_keeps_iff`).
-/

namespace ExchangeCore

/-- The cursors of `verify_batch`. -/
structure ChainCursor where
  lastSeq : UInt64
  lastHash : UInt64
  deriving DecidableEq, Repr

namespace ChainCursor

/-- The cursors behind an output. -/
def after (output : EngineOutput) : ChainCursor := ⟨output.outputSeq, output.hash⟩

/-- One iteration of the loop of `verify_batch`: the output if it is accepted, and the cursors. -/
def verifyOutput (env : Externals) (cursor : ChainCursor) (output : EngineOutput) :
    Option EngineOutput × ChainCursor :=
  let seq := output.outputSeq
  let expected := cursor.lastSeq + 1
  if seq < expected then (none, cursor)
  else
    let cursor := if seq > expected then ⟨seq - 1, output.prevHash⟩ else cursor
    if seq = expected ∧ ¬output.verifyPrevHash cursor.lastHash then (none, cursor)
    else if ¬output.verify env then (none, cursor)
    else (some output, after output)

/-- `verify_batch` as a machine, output by output. -/
def verifier (env : Externals) : Machine ChainCursor EngineOutput (Option EngineOutput) where
  step cursor output := ((cursor.verifyOutput env output).2, (cursor.verifyOutput env output).1)

/-- `verify_batch`: the outputs accepted, and the cursors. -/
def verifyBatch (env : Externals) (batch : List EngineOutput) (cursor : ChainCursor) :
    List EngineOutput × ChainCursor :=
  ((verifier env).accepted cursor batch, (verifier env).run cursor batch)

/-- What successive calls of `verify_batch` accept. -/
def verifyBatches (env : Externals) : List (List EngineOutput) → ChainCursor → List EngineOutput
  | [], _ => []
  | batch :: batches, cursor =>
      (verifyBatch env batch cursor).1 ++ verifyBatches env batches (verifyBatch env batch cursor).2

/-- There is a next sequence number. -/
def HasNext (cursor : ChainCursor) : Prop := cursor.lastSeq.toNat < 2 ^ 64 - 1

instance (cursor : ChainCursor) : Decidable cursor.HasNext := inferInstanceAs (Decidable (_ < _))

end ChainCursor

/-- `u64::MAX` is not used as a sequence number. -/
def EngineOutput.SeqBounded (output : EngineOutput) : Prop := output.outputSeq.toNat < 2 ^ 64 - 1

instance (output : EngineOutput) : Decidable output.SeqBounded :=
  inferInstanceAs (Decidable (_ < _))

namespace ChainCursor

variable {env : Externals} {cursor : ChainCursor} {output : EngineOutput}

/-! ## One output -/

/-- Everything an iteration can do: skip the output, reject it and leave the cursors, reject it
behind a gap and move them, or accept it. -/
lemma verifyOutput_cases (env : Externals) (h : cursor.HasNext) (output : EngineOutput) :
    output.outputSeq.toNat ≤ cursor.lastSeq.toNat ∧
        cursor.verifyOutput env output = (none, cursor) ∨
      output.outputSeq.toNat = cursor.lastSeq.toNat + 1 ∧
        ¬(output.prevHash = cursor.lastHash ∧ output.verify env = true) ∧
        cursor.verifyOutput env output = (none, cursor) ∨
      cursor.lastSeq.toNat + 1 < output.outputSeq.toNat ∧ output.verify env = false ∧
        cursor.verifyOutput env output = (none, ⟨output.outputSeq - 1, output.prevHash⟩) ∨
      cursor.lastSeq.toNat < output.outputSeq.toNat ∧ output.verify env = true ∧
        (output.outputSeq.toNat = cursor.lastSeq.toNat + 1 → output.prevHash = cursor.lastHash) ∧
        cursor.verifyOutput env output = (some output, after output) := by
  have hexpected : (cursor.lastSeq + 1).toNat = cursor.lastSeq.toNat + 1 := by
    rw [HasNext] at h
    rw [UInt64.toNat_add, UInt64.toNat_one, Nat.mod_eq_of_lt (by omega)]
  have hlt := UInt64.lt_iff_toNat_lt (a := output.outputSeq) (b := cursor.lastSeq + 1)
  have hgt := UInt64.lt_iff_toNat_lt (a := cursor.lastSeq + 1) (b := output.outputSeq)
  rw [hexpected] at hlt hgt
  unfold verifyOutput
  dsimp only
  by_cases hskip : output.outputSeq < cursor.lastSeq + 1
  · rw [if_pos hskip]
    exact .inl ⟨Nat.lt_succ_iff.mp (hlt.mp hskip), rfl⟩
  rw [if_neg hskip]
  by_cases hgap : output.outputSeq > cursor.lastSeq + 1
  · -- a gap: the cursors are reset before the output is verified
    have hbeyond : cursor.lastSeq.toNat + 1 < output.outputSeq.toNat := hgt.mp hgap
    have hne : ¬(output.outputSeq = cursor.lastSeq + 1 ∧
        ¬output.verifyPrevHash output.prevHash = true) := by
      rintro ⟨heq, -⟩
      rw [heq, hexpected] at hbeyond
      exact Nat.lt_irrefl _ hbeyond
    rw [if_pos hgap, if_neg hne]
    rcases hverify : output.verify env with _ | _
    · rw [if_pos Bool.false_ne_true]
      exact .inr (.inr (.inl ⟨hbeyond, rfl, rfl⟩))
    · rw [if_neg (not_not.mpr rfl)]
      exact .inr (.inr (.inr ⟨by omega, rfl, fun hnext => absurd hnext (by omega), rfl⟩))
  · rw [if_neg hgap]
    have hnext : output.outputSeq.toNat = cursor.lastSeq.toNat + 1 := by
      rw [hlt] at hskip
      rw [gt_iff_lt, hgt] at hgap
      omega
    have heq : output.outputSeq = cursor.lastSeq + 1 :=
      UInt64.toNat.inj (hnext.trans hexpected.symm)
    by_cases hlink : output.verifyPrevHash cursor.lastHash = true
    · rw [if_neg (fun h => h.2 hlink)]
      have hprev : output.prevHash = cursor.lastHash := beq_iff_eq.mp hlink
      rcases hverify : output.verify env with _ | _
      · rw [if_pos Bool.false_ne_true]
        exact .inr (.inl ⟨hnext, fun h => absurd h.2 Bool.false_ne_true, rfl⟩)
      · rw [if_neg (not_not.mpr rfl)]
        exact .inr (.inr (.inr ⟨by omega, rfl, fun _ => hprev, rfl⟩))
    · rw [if_pos ⟨heq, hlink⟩]
      exact .inr (.inl ⟨hnext, fun h => hlink (beq_iff_eq.mpr h.1), rfl⟩)

lemma hasNext_step (env : Externals) (h : cursor.HasNext) (hseq : output.SeqBounded) :
    ((verifier env).step cursor output).1.HasNext := by
  show (cursor.verifyOutput env output).2.HasNext
  rcases cursor.verifyOutput_cases env h output with
    ⟨-, hrun⟩ | ⟨-, -, hrun⟩ | ⟨hgap, -, hrun⟩ | ⟨-, -, -, hrun⟩
  · rwa [hrun]
  · rwa [hrun]
  · rw [hrun]
    have hone : (1 : UInt64) ≤ output.outputSeq := UInt64.le_iff_toNat_le.mpr (by
      rw [UInt64.toNat_one]
      omega)
    show (output.outputSeq - 1).toNat < 2 ^ 64 - 1
    rw [EngineOutput.SeqBounded] at hseq
    rw [UInt64.toNat_sub_of_le _ _ hone]
    omega
  · rw [hrun]
    exact hseq

/-! ## What is accepted -/

/-- The cursor is at or beyond an accepted output, and at it only with its hash. -/
def Remembers (cursor : ChainCursor) (output : EngineOutput) : Prop :=
  output.outputSeq.toNat ≤ cursor.lastSeq.toNat ∧
    (output.outputSeq = cursor.lastSeq → output.hash = cursor.lastHash)

/-- The later output has a higher number, and the link if it is the next one. -/
def Precedes (earlier later : EngineOutput) : Prop :=
  earlier.outputSeq.toNat < later.outputSeq.toNat ∧
    (later.outputSeq.toNat = earlier.outputSeq.toNat + 1 → later.prevHash = earlier.hash)

/-- An output is accepted beyond the cursor, verified, and linked if it comes next. -/
lemma accepted_spec (h : cursor.HasNext) {accepted : EngineOutput}
    (haccept : ((verifier env).step cursor output).2 = some accepted) :
    cursor.lastSeq.toNat < accepted.outputSeq.toNat ∧ accepted.verify env = true ∧
      (accepted.outputSeq.toNat = cursor.lastSeq.toNat + 1 →
        accepted.prevHash = cursor.lastHash) ∧
      ((verifier env).step cursor output).1 = after accepted := by
  change (cursor.verifyOutput env output).1 = some accepted at haccept
  show _ ∧ _ ∧ _ ∧ (cursor.verifyOutput env output).2 = after accepted
  rcases cursor.verifyOutput_cases env h output with
    ⟨-, hrun⟩ | ⟨-, -, hrun⟩ | ⟨-, -, hrun⟩ | ⟨hbeyond, hverify, hlink, hrun⟩
  · rw [hrun] at haccept
    exact absurd haccept (by simp)
  · rw [hrun] at haccept
    exact absurd haccept (by simp)
  · rw [hrun] at haccept
    exact absurd haccept (by simp)
  · rw [hrun] at haccept ⊢
    obtain rfl := Option.some.inj haccept
    exact ⟨hbeyond, hverify, hlink, rfl⟩

lemma skipped_of_le (h : cursor.HasNext)
    (hle : output.outputSeq.toNat ≤ cursor.lastSeq.toNat) :
    ((verifier env).step cursor output).2 = none := by
  show (cursor.verifyOutput env output).1 = none
  rcases cursor.verifyOutput_cases env h output with
    ⟨-, hrun⟩ | ⟨hnext, -, -⟩ | ⟨hgap, -, -⟩ | ⟨hbeyond, -, -, -⟩
  · rw [hrun]
  · omega
  · omega
  · omega

/-- Of the outputs that verify and are not behind a gap, the one that comes next and is linked is
accepted, and no other. -/
lemma accepts_iff (h : cursor.HasNext) (hverify : output.verify env = true)
    (hle : output.outputSeq.toNat ≤ cursor.lastSeq.toNat + 1) :
    ((verifier env).step cursor output).2 = some output ↔
      output.outputSeq.toNat = cursor.lastSeq.toNat + 1 ∧ output.prevHash = cursor.lastHash := by
  show (cursor.verifyOutput env output).1 = some output ↔ _
  rcases cursor.verifyOutput_cases env h output with
    ⟨hskip, hrun⟩ | ⟨-, hnot, hrun⟩ | ⟨hgap, -, -⟩ | ⟨hbeyond, -, hlink, hrun⟩
  · rw [hrun]
    exact iff_of_false (by simp) (fun h => by omega)
  · rw [hrun]
    exact iff_of_false (by simp) (fun h => hnot ⟨h.2, hverify⟩)
  · omega
  · rw [hrun]
    have hnext : output.outputSeq.toNat = cursor.lastSeq.toNat + 1 := by omega
    exact iff_of_true rfl ⟨hnext, hlink hnext⟩

/-- What the cursor remembers it does not forget: where it moves, it moves beyond. -/
lemma Remembers.step (h : cursor.HasNext) {earlier : EngineOutput}
    (hearlier : cursor.Remembers earlier) :
    ((verifier env).step cursor output).1.Remembers earlier := by
  show (cursor.verifyOutput env output).2.Remembers earlier
  have hbeyond : ∀ c : ChainCursor, cursor.lastSeq.toNat < c.lastSeq.toNat →
      c.Remembers earlier := by
    intro c hlt
    refine ⟨hearlier.1.trans hlt.le, fun heq => ?_⟩
    rw [← heq] at hlt
    exact absurd hearlier.1 (Nat.not_le_of_lt hlt)
  rcases cursor.verifyOutput_cases env h output with
    ⟨-, hrun⟩ | ⟨-, -, hrun⟩ | ⟨hgap, -, hrun⟩ | ⟨hnew, -, -, hrun⟩
  · rwa [hrun]
  · rwa [hrun]
  · rw [hrun]
    have hone : (1 : UInt64) ≤ output.outputSeq := UInt64.le_iff_toNat_le.mpr (by
      rw [UInt64.toNat_one]
      omega)
    refine hbeyond _ ?_
    show cursor.lastSeq.toNat < (output.outputSeq - 1).toNat
    rw [UInt64.toNat_sub_of_le _ _ hone, UInt64.toNat_one]
    omega
  · rw [hrun]
    exact hbeyond _ hnew

/-- What is accepted later comes behind what the cursor remembers. -/
lemma Remembers.precedes (h : cursor.HasNext) {earlier accepted : EngineOutput}
    (hearlier : cursor.Remembers earlier)
    (haccept : ((verifier env).step cursor output).2 = some accepted) :
    Precedes earlier accepted := by
  obtain ⟨hbeyond, -, hlink, -⟩ := accepted_spec h haccept
  refine ⟨Nat.lt_of_le_of_lt hearlier.1 hbeyond, fun hnext => ?_⟩
  -- Consecutive to an earlier output means consecutive to the cursor.
  have hat : earlier.outputSeq.toNat = cursor.lastSeq.toNat := by
    have hle := hearlier.1
    omega
  rw [hearlier.2 (UInt64.toNat.inj hat)]
  exact hlink (by rw [hnext, hat])

/-- The sequence numbers increase, every output verifies, and outputs with consecutive numbers are
linked. -/
structure VerifiedChain (env : Externals) (outputs : List EngineOutput) : Prop where
  increasing : outputs.Pairwise (fun earlier later => earlier.outputSeq < later.outputSeq)
  verified : ∀ output ∈ outputs, output.verify env = true
  linked : ∀ earlier ∈ outputs, ∀ later ∈ outputs,
    later.outputSeq.toNat = earlier.outputSeq.toNat + 1 → later.prevHash = earlier.hash

lemma linked_of_pairwise {outputs : List EngineOutput} (h : outputs.Pairwise Precedes) :
    ∀ earlier ∈ outputs, ∀ later ∈ outputs,
      later.outputSeq.toNat = earlier.outputSeq.toNat + 1 → later.prevHash = earlier.hash := by
  induction h with
  | nil => exact fun earlier hearlier => absurd hearlier List.not_mem_nil
  | cons hhead _ ih =>
      intro earlier hearlier later hlater hnext
      rcases List.mem_cons.mp hearlier with rfl | hearlier'
      · rcases List.mem_cons.mp hlater with rfl | hlater'
        · omega
        · exact (hhead later hlater').2 hnext
      · rcases List.mem_cons.mp hlater with rfl | hlater'
        · have hbefore := (hhead earlier hearlier').1
          omega
        · exact ih earlier hearlier' later hlater' hnext

lemma verifiedChain_accepted (env : Externals) (h : cursor.HasNext) {outputs : List EngineOutput}
    (hseq : ∀ output ∈ outputs, output.SeqBounded) :
    VerifiedChain env ((verifier env).accepted cursor outputs) := by
  have hstep : ∀ (c : ChainCursor) (o : EngineOutput), c.HasNext → o.SeqBounded →
      ((verifier env).step c o).1.HasNext := fun _ _ hc ho => hasNext_step env hc ho
  have hpairwise : ((verifier env).accepted cursor outputs).Pairwise Precedes := by
    refine Machine.pairwise_accepted hstep ?_ (fun _ _ _ hc _ hr => Remembers.step hc hr)
      (fun _ _ _ _ hc _ hr haccept => hr.precedes hc haccept) h hseq
    intro c o accepted hc _ haccept
    rw [(accepted_spec hc haccept).2.2.2]
    exact ⟨Nat.le_refl _, fun _ => rfl⟩
  refine ⟨?_, ?_, linked_of_pairwise hpairwise⟩
  · exact hpairwise.imp (fun hprecedes => UInt64.lt_iff_toNat_lt.mpr hprecedes.1)
  · exact Machine.forall_mem_accepted hstep
      (fun _ _ _ hc _ haccept => (accepted_spec hc haccept).2.1) h hseq

/-- What is accepted has a number beyond the first cursor, and not the greatest of all. -/
lemma bounds_accepted (env : Externals) (h : cursor.HasNext) {outputs : List EngineOutput}
    (hseq : ∀ output ∈ outputs, output.SeqBounded) :
    ∀ output ∈ (verifier env).accepted cursor outputs,
      0 < output.outputSeq.toNat ∧ output.SeqBounded := by
  refine Machine.forall_mem_accepted (fun _ _ hc ho => hasNext_step env hc ho) ?_ h hseq
  intro c o accepted hc ho haccept
  obtain ⟨hbeyond, -, -, hafter⟩ := accepted_spec hc haccept
  have hnext := hasNext_step env hc ho
  rw [hafter] at hnext
  exact ⟨Nat.lt_of_le_of_lt (Nat.zero_le _) hbeyond, hnext⟩

lemma verifyBatches_eq (env : Externals) (batches : List (List EngineOutput))
    (cursor : ChainCursor) :
    verifyBatches env batches cursor = (verifier env).accepted cursor batches.flatten := by
  rw [← Machine.acceptedBatches_eq]
  induction batches generalizing cursor with
  | nil => rfl
  | cons batch batches ih => rw [verifyBatches, ih, Machine.acceptedBatches]; rfl

/-- **Chain verification.**  The outputs accepted do not depend on how the stream is cut into
batches; their numbers increase, each verifies, and where two have consecutive numbers the later one
carries the hash of the earlier. -/
theorem verified_chain (env : Externals) {cursor : ChainCursor} (hcursor : cursor.HasNext)
    {batches : List (List EngineOutput)} (hseq : ∀ output ∈ batches.flatten, output.SeqBounded) :
    verifyBatches env batches cursor = (verifyBatch env batches.flatten cursor).1 ∧
      VerifiedChain env (verifyBatches env batches cursor) := by
  rw [verifyBatches_eq]
  exact ⟨rfl, verifiedChain_accepted env hcursor hseq⟩

/-- Every hash is 0. -/
def zeroHash : Externals := ⟨fun _ => 0, fun _ _ => 0, fun _ => 0, fun _ => []⟩

/-- An output without trades. -/
def depositOutput (seq hash : UInt64) : EngineOutput where
  outputSeq := seq
  prevHash := 0
  symbolId := 0
  input := ⟨seq, 0, .deposit ⟨7, 1, 5, 0⟩⟩
  orderUpdate := none
  trades := []
  balanceEvents := []
  orderPlacements := []
  orderCompletions := []
  hash := hash

/-- Three outputs in two batches, the second of them twice and the third damaged. -/
def withDuplicate : List (List EngineOutput) :=
  [[depositOutput 1 0, depositOutput 2 0], [depositOutput 2 0, depositOutput 3 9]]

theorem verified_chain_withDuplicate :
    verifyBatches zeroHash withDuplicate ⟨0, 0⟩ = [depositOutput 1 0, depositOutput 2 0] ∧
      verifyBatches zeroHash withDuplicate ⟨0, 0⟩ =
        (verifyBatch zeroHash withDuplicate.flatten ⟨0, 0⟩).1 ∧
      VerifiedChain zeroHash (verifyBatches zeroHash withDuplicate ⟨0, 0⟩) :=
  ⟨by decide +kernel, verified_chain zeroHash (by decide) (by decide)⟩

/-! ## What is rejected -/

/-- The output, if it is not accepted, leaves the cursors as they are. -/
def Keeps (env : Externals) (cursor : ChainCursor) (output : EngineOutput) : Prop :=
  (cursor.verifyOutput env output).1 = none → (cursor.verifyOutput env output).2 = cursor

/-- The output is ahead of the one that comes next, and damaged. -/
def Displaces (env : Externals) (cursor : ChainCursor) (output : EngineOutput) : Prop :=
  cursor.lastSeq + 1 < output.outputSeq ∧ ¬output.verify env

/-- A rejected output leaves the cursors unless it is ahead of the next one: a gap moves them before
the output is verified. -/
lemma keeps_iff : cursor.Keeps env output ↔ ¬cursor.Displaces env output := by
  rw [Keeps, Displaces, verifyOutput]
  dsimp only
  by_cases hskip : output.outputSeq < cursor.lastSeq + 1
  · rw [if_pos hskip]
    exact iff_of_true (fun _ => rfl) (fun h => UInt64.lt_asymm hskip h.1)
  rw [if_neg hskip]
  by_cases hgap : cursor.lastSeq + 1 < output.outputSeq
  · have hne : output.outputSeq ≠ cursor.lastSeq + 1 := (UInt64.ne_of_lt hgap).symm
    rw [if_pos hgap, if_neg (fun h => hne h.1)]
    by_cases hverify : output.verify env = true
    · rw [if_neg (not_not.mpr hverify)]
      exact iff_of_true (fun h => absurd h (Option.some_ne_none _)) (fun h => h.2 hverify)
    · rw [if_pos hverify]
      refine iff_of_false (fun h => hne ?_) (not_not.mpr ⟨hgap, hverify⟩)
      rw [← congrArg ChainCursor.lastSeq (h rfl), UInt64.sub_add_cancel]
  · rw [if_neg hgap]
    refine iff_of_true (fun h => ?_) (fun h => hgap h.1)
    split at h
    · rw [if_pos ‹_›]
    split at h
    · rw [if_neg ‹_›, if_pos ‹_›]
    · exact absurd h (Option.some_ne_none _)

lemma accepted_eq {accepted : EngineOutput}
    (h : ((verifier env).step cursor output).2 = some accepted) : accepted = output := by
  change (cursor.verifyOutput env output).1 = some accepted at h
  rw [verifyOutput] at h
  dsimp only at h
  split_ifs at h
  · exact (Option.some.inj h).symm
  · exact (Option.some.inj h).symm

/-- **What a rejected output does.**  It leaves the cursors unless it is ahead of the next one and
damaged.  Where no such output comes, those rejected might as well not have come: the same outputs
are accepted without them, and the cursors end up the same. -/
theorem rejected_keeps_iff (env : Externals) (cursor : ChainCursor) :
    (∀ output, cursor.Keeps env output ↔ ¬cursor.Displaces env output) ∧
      ∀ outputs, (verifier env).AllSteps (fun c o => ¬c.Displaces env o) cursor outputs →
        verifyBatch env ((verifier env).accepted cursor outputs) cursor =
          verifyBatch env outputs cursor := by
  refine ⟨fun output => keeps_iff, fun outputs h => ?_⟩
  have hkeeps : (verifier env).AllSteps (fun c o => c.Keeps env o) cursor outputs := by
    simpa only [keeps_iff] using h
  obtain ⟨hrun, haccepted⟩ := Machine.run_accepted (fun _ _ _ => accepted_eq) hkeeps
  exact Prod.ext haccepted hrun

/-- A damaged output far ahead moves the cursors, and the genuine one that comes next is skipped. -/
theorem damagedAhead_displaces :
    ¬Keeps zeroHash ⟨0, 0⟩ (depositOutput 5 9) ∧
      (verifyBatch zeroHash [depositOutput 1 0] ⟨0, 0⟩).1 = [depositOutput 1 0] ∧
      (verifyBatch zeroHash [depositOutput 5 9, depositOutput 1 0] ⟨0, 0⟩).1 = [] := by
  refine ⟨fun h => ?_, by decide +kernel, by decide +kernel⟩
  have hrejected : (verifyOutput zeroHash ⟨0, 0⟩ (depositOutput 5 9)).1 = none := by
    decide +kernel
  have hmoved : (verifyOutput zeroHash ⟨0, 0⟩ (depositOutput 5 9)).2.lastSeq = 4 := by
    decide +kernel
  rw [h hrejected] at hmoved
  exact absurd hmoved (by decide)

end ChainCursor

end ExchangeCore
