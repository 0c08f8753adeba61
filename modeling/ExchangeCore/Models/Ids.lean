import ExchangeCore.Framework.Machine
import ExchangeCore.Models.Snowflake
import ExchangeCore.Ubs.Core

/-!
# The order of snowflake ids

A `SnowflakeGen` as a machine that is called with clock readings and with the words its random
generator draws, and the parts of an id read back (`timestamp_ms`, `machine_id`, `sequence` and
`from_parts` of `fast_ulid.rs`).

The clock may stall or jump backwards, and a sequence that is used up borrows the next millisecond:
the millisecond of the generator is at least that of the clock, and goes back never, so that the
ids of a generator increase (`generate_increasing`).
-/

namespace ExchangeCore

namespace SnowflakeGen

open SequenceStrategy

/-! ## The parts of an id -/

/-- `machine_id`. -/
def machineIdOf (val : UInt64) : UInt8 := ((val >>> 13) &&& 0x7F).toUInt8

/-- `sequence`. -/
def sequenceOf (val : UInt64) : UInt16 := (val &&& 0x1FFF).toUInt16

def fromParts (timestampMs : UInt64) (machineId : UInt8) (sequence : UInt16) : UInt64 :=
  (timestampMs <<< 20) ||| ((machineId &&& 0x7F).toUInt64 <<< 13) |||
    (sequence &&& 0x1FFF).toUInt64

lemma toNat_snowflakeTimestampMs (val : UInt64) :
    (snowflakeTimestampMs val).toNat = val.toNat / 2 ^ 20 :=
  Word.toNat_shiftRight_eq val 20 20 rfl (by decide)

lemma toNat_machineIdOf (val : UInt64) :
    (machineIdOf val).toNat = val.toNat / 2 ^ 13 % 2 ^ 7 := by
  rw [machineIdOf, UInt64.toNat_toUInt8, Word.toNat_and_mask _ 0x7F 7 rfl,
    Word.toNat_shiftRight_eq _ 13 13 rfl (by decide)]
  omega

lemma toNat_sequenceOf (val : UInt64) : (sequenceOf val).toNat = val.toNat % 2 ^ 13 := by
  rw [sequenceOf, UInt64.toNat_toUInt16, Word.toNat_and_mask _ 0x1FFF 13 rfl]
  omega

lemma machineIdOf_id (g : SnowflakeGen) : machineIdOf g.id = g.machineId := by
  have hm := g.machineId_lt
  have hs := g.sequence_lt
  have hid := g.toNat_id
  apply UInt8.toNat_inj.mp
  rw [toNat_machineIdOf]
  omega

/-- It carries the sequence as well, and the millisecond where that has 44 bits. -/
lemma parts_id (g : SnowflakeGen) (h : g.lastTs.toNat < 2 ^ 44) :
    snowflakeTimestampMs g.id = g.lastTs ∧ machineIdOf g.id = g.machineId ∧
      sequenceOf g.id = g.sequence := by
  have hm := g.machineId_lt
  have hs := g.sequence_lt
  have hid := g.toNat_id
  refine ⟨?_, machineIdOf_id g, ?_⟩
  · apply UInt64.toNat_inj.mp
    rw [toNat_snowflakeTimestampMs]
    omega
  · apply UInt16.toNat_inj.mp
    rw [toNat_sequenceOf]
    omega

/-- Masks that take nothing away. -/
lemma id_eq_fromParts (g : SnowflakeGen) :
    g.id = fromParts g.lastTs g.machineId g.sequence := by
  have hmachine : g.machineId &&& 0x7F = g.machineId := by
    apply UInt8.toNat_inj.mp
    rw [UInt8.toNat_and, show (0x7F : UInt8).toNat = 2 ^ 7 - 1 from rfl,
      Nat.and_two_pow_sub_one_eq_mod, Nat.mod_eq_of_lt g.machineId_lt]
  have hsequence : g.sequence &&& 0x1FFF = g.sequence := by
    apply UInt16.toNat_inj.mp
    rw [UInt16.toNat_and, show (0x1FFF : UInt16).toNat = 2 ^ 13 - 1 from rfl,
      Nat.and_two_pow_sub_one_eq_mod, Nat.mod_eq_of_lt g.sequence_lt]
  rw [fromParts, hmachine, hsequence, id]

/-! ## One call -/

/-- The sequence is used up exactly at its last value. -/
lemma nextSequence_ne_zero {current : UInt16} (h : current.toNat < 2 ^ 13)
    (hne : nextSequence current ≠ 0) :
    (nextSequence current).toNat = current.toNat + 1 := by
  apply toNat_nextSequence
  by_contra hlast
  obtain rfl : current = 0x1FFF := by
    apply UInt16.toNat_inj.mp
    rw [show (0x1FFF : UInt16).toNat = 2 ^ 13 - 1 from rfl]
    omega
  exact hne rfl

/-- The calls of a generator: one that borrows a millisecond, one within its millisecond, and one in
a new millisecond. -/
lemma advance_cases (g : SnowflakeGen) (clock : UInt64) (draw : UInt16) :
    (g.advance clock draw).machineId = g.machineId ∧
      (clock ≤ g.lastTs ∧ (g.advance clock draw).lastTs = g.lastTs + 1 ∨
        clock ≤ g.lastTs ∧ nextSequence g.sequence ≠ 0 ∧
          (g.advance clock draw).lastTs = g.lastTs ∧
          (g.advance clock draw).sequence = nextSequence g.sequence ∨
        g.lastTs < clock ∧ (g.advance clock draw).lastTs = clock) := by
  rcases lt_or_ge g.lastTs clock with hlt | hle
  · have hadv : g.advance clock draw =
        g.stamped clock (g.strategy.resetSequence draw) (resetSequence_lt _ _) := by
      simp only [advance, if_neg hlt.not_gt, if_neg hlt.ne']
    rw [hadv]
    exact ⟨rfl, .inr (.inr ⟨hlt, rfl⟩)⟩
  · have hnow : (if clock < g.lastTs then g.lastTs else clock) = g.lastTs := by
      rw [ite_eq_left_iff]
      exact fun hge => le_antisymm hle (not_lt.mp hge)
    by_cases hnext : nextSequence g.sequence = 0
    · have hadv : g.advance clock draw =
          g.stamped (g.lastTs + 1) (g.strategy.resetSequence draw) (resetSequence_lt _ _) := by
        simp only [advance, hnow, if_pos, if_pos hnext]
      rw [hadv]
      exact ⟨rfl, .inl ⟨hle, rfl⟩⟩
    · have hadv : g.advance clock draw =
          g.stamped g.lastTs (nextSequence g.sequence) (and_mask_lt _) := by
        simp only [advance, hnow, if_pos, if_neg hnext]
      rw [hadv]
      exact ⟨rfl, .inr (.inl ⟨hle, hnext, rfl, rfl⟩)⟩

/-- What comes after a generator: a later millisecond, or the next of the sequence in the same. -/
def Before (g g' : SnowflakeGen) : Prop :=
  g.lastTs.toNat < g'.lastTs.toNat ∨
    g'.lastTs = g.lastTs ∧ g'.sequence.toNat = g.sequence.toNat + 1

/-- **What a call does**: it goes on to a millisecond that is at least the clock's, and at most one
ahead of what was reached. -/
lemma advance_spec (g : SnowflakeGen) (clock : UInt64) (draw : UInt16)
    (h : g.lastTs.toNat + 1 < 2 ^ 64) :
    g.Before (g.advance clock draw) ∧ clock ≤ (g.advance clock draw).lastTs ∧
      (g.advance clock draw).lastTs.toNat ≤ max clock.toNat (g.lastTs.toNat + 1) := by
  have hone : (g.lastTs + 1).toNat = g.lastTs.toNat + 1 := by
    rw [UInt64.toNat_add]
    exact Nat.mod_eq_of_lt h
  rcases (g.advance_cases clock draw).2 with ⟨hle, hts⟩ | ⟨hle, hne, hts, hseq⟩ | ⟨hlt, hts⟩
  · rw [UInt64.le_iff_toNat_le] at hle ⊢
    rw [Before, hts, hone]
    exact ⟨.inl (Nat.lt_succ_self _), by omega, le_max_right _ _⟩
  · refine ⟨.inr ⟨hts, ?_⟩, hts ▸ hle, ?_⟩
    · rw [hseq]
      exact nextSequence_ne_zero g.sequence_lt hne
    · rw [hts]
      omega
  · rw [UInt64.lt_iff_toNat_lt] at hlt
    rw [Before, hts]
    exact ⟨.inl hlt, le_refl _, le_max_left _ _⟩

/-- What comes later has the larger id. -/
lemma Before.id_lt {g g' : SnowflakeGen} (h : g.Before g') (hmachine : g'.machineId = g.machineId)
    (hfits : g'.lastTs.toNat < 2 ^ 44) : g.id < g'.id := by
  have hm := g.machineId_lt
  have hs := g.sequence_lt
  have hid := g.toNat_id
  have hid' := g'.toNat_id
  rw [hmachine] at hid'
  rw [UInt64.lt_iff_toNat_lt]
  rcases h with hlater | ⟨hsame, hnext⟩
  · omega
  · rw [hsame] at hid' hfits
    omega

/-! ## Runs -/

/-- A generator as a machine, called with a clock reading and a word drawn. -/
def machine : Machine SnowflakeGen (UInt64 × UInt16) UInt64 where
  step g call := ((g.generate call.1 call.2).2, (g.generate call.1 call.2).1)

/-- An id of a call: the parts it has been made of. -/
def StampedBy (machineId : UInt8) (call : UInt64 × UInt16) (val : UInt64) : Prop :=
  val = fromParts (snowflakeTimestampMs val) (machineIdOf val) (sequenceOf val) ∧
    machineIdOf val = machineId ∧ (machineIdOf val).toNat < 2 ^ 7 ∧
    (sequenceOf val).toNat < 2 ^ 13 ∧ call.1 ≤ snowflakeTimestampMs val

/-- A run: the ids increase from the last one, and each is stamped by its call. -/
lemma answers_increasing (g : SnowflakeGen) {calls : List (UInt64 × UInt16)}
    (hlength : calls.length < 2 ^ 43) (hclock : ∀ call ∈ calls, call.1.toNat < 2 ^ 43)
    (hlast : g.lastTs.toNat + calls.length < 2 ^ 44) :
    (g.id :: machine.answers g calls).Pairwise (· < ·) ∧
      List.Forall₂ (StampedBy g.machineId) calls (machine.answers g calls) := by
  induction calls generalizing g with
  | nil => exact ⟨List.pairwise_singleton _ _, .nil⟩
  | cons call calls ih =>
      rw [List.length_cons] at hlength hlast
      have hfirst := hclock call List.mem_cons_self
      have hmachine := (g.advance_cases call.1 call.2).1
      obtain ⟨hbefore, hreading, hle⟩ := g.advance_spec call.1 call.2 (by omega)
      obtain ⟨hpairwise, hstamped⟩ := ih (g.advance call.1 call.2) (by omega)
        (fun c hc => hclock c (List.mem_cons_of_mem _ hc)) (by omega)
      have hfits : (g.advance call.1 call.2).lastTs.toNat < 2 ^ 44 := by omega
      have hlt := hbefore.id_lt hmachine hfits
      obtain ⟨hts, hid, hseq⟩ := parts_id _ hfits
      refine ⟨List.pairwise_cons.mpr ⟨?_, hpairwise⟩, .cons ?_ ?_⟩
      · intro val hval
        rcases List.mem_cons.mp hval with rfl | hval
        · exact hlt
        · exact hlt.trans (List.rel_of_pairwise_cons hpairwise hval)
      · refine ⟨?_, ?_, ?_, ?_, ?_⟩
        · show (g.advance call.1 call.2).id = _
          rw [show (machine.step g call).2 = (g.advance call.1 call.2).id from rfl, hts, hid, hseq]
          exact id_eq_fromParts _
        · exact hid.trans hmachine
        · exact hid ▸ (g.advance call.1 call.2).machineId_lt
        · exact hseq ▸ (g.advance call.1 call.2).sequence_lt
        · exact hts ▸ hreading
      · rw [hmachine] at hstamped
        exact hstamped

lemma machineIdOf_answers (g : SnowflakeGen) {calls : List (UInt64 × UInt16)} {val : UInt64}
    (h : val ∈ machine.answers g calls) : machineIdOf val = g.machineId := by
  induction calls generalizing g with
  | nil => exact absurd h List.not_mem_nil
  | cons call calls ih =>
      have hmachine := (g.advance_cases call.1 call.2).1
      rcases List.mem_cons.mp h with rfl | h
      · exact (machineIdOf_id _).trans hmachine
      · exact (ih _ h).trans hmachine

/-- **The ids of a generator.**  Over fewer than `2 ^ 43` calls with clock readings below `2 ^ 43`,
whatever is drawn, the ids increase; each has the generator's machine id and a millisecond that is
at least the reading of its call.  A generator with another machine id never issues any of them. -/
theorem generate_increasing (strategy : SequenceStrategy) (machineId : UInt8)
    (calls : List (UInt64 × UInt16)) (hlength : calls.length < 2 ^ 43)
    (hclock : ∀ call ∈ calls, call.1.toNat < 2 ^ 43) :
    let ids := machine.answers (new strategy machineId) calls
    ids.Pairwise (· < ·) ∧ List.Forall₂ (StampedBy (machineId &&& 0x7F)) calls ids ∧
      ∀ (strategy' : SequenceStrategy) (machineId' : UInt8) (calls' : List (UInt64 × UInt16)),
        machineId' &&& 0x7F ≠ machineId &&& 0x7F →
        ∀ val ∈ ids, val ∉ machine.answers (new strategy' machineId') calls' := by
  intro ids
  have hlast : (new strategy machineId).lastTs.toNat + calls.length < 2 ^ 44 := by
    rw [show (new strategy machineId).lastTs.toNat = 0 from rfl]
    omega
  obtain ⟨hpairwise, hstamped⟩ := answers_increasing (new strategy machineId) hlength hclock hlast
  refine ⟨hpairwise.of_cons, hstamped, ?_⟩
  intro strategy' machineId' calls' hne val hval hval'
  exact hne ((machineIdOf_answers _ hval').symm.trans (machineIdOf_answers _ hval))

/-- A clock that jumps backwards after the first call. -/
theorem generate_increasing_backwards :
    (machine.answers (new .zero 1) [(5, 0), (3, 0)]).Pairwise (· < ·) := by
  refine (generate_increasing .zero 1 [(5, 0), (3, 0)] (by decide) ?_).1
  intro call hcall
  rcases List.mem_pair.mp hcall with rfl | rfl
  · exact (by decide : 5 < 2 ^ 43)
  · exact (by decide : 3 < 2 ^ 43)

end SnowflakeGen

end ExchangeCore
