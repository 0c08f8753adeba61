import ExchangeCore.Framework.Word
import Mathlib.Algebra.GroupWithZero.Nat
import Mathlib.Logic.Function.Basic

/-!
# Snowflake ids

`SnowflakeGen` (`fast_ulid.rs`): 44 bits of milliseconds, 7 bits of machine and 13 bits of sequence.
The clock reading and the word drawn from the random generator are inputs of `generate`.  Any number
of generators, on whatever machines, issue ids in any order (`issue`).

Within one millisecond a generator counts up, so that the ids it issues there are consecutive
(`generate_succ`).
-/

namespace ExchangeCore

/-- `SequenceStrategy`: how a generator starts the sequence of a new millisecond. -/
inductive SequenceStrategy
  | zero
  | random
  deriving DecidableEq, Repr

namespace SequenceStrategy

/-- `next_sequence`, the same for both strategies. -/
def nextSequence (current : UInt16) : UInt16 := (current + 1) &&& 0x1FFF

/-- `reset_sequence`, with the word drawn. -/
def resetSequence : SequenceStrategy → UInt16 → UInt16
  | .zero, _ => 0
  | .random, draw => draw &&& 0x1FFF

lemma and_mask_lt (w : UInt16) : (w &&& 0x1FFF).toNat < 2 ^ 13 := by
  rw [UInt16.toNat_and]
  exact lt_of_le_of_lt Nat.and_le_right (by decide)

lemma resetSequence_lt (strategy : SequenceStrategy) (draw : UInt16) :
    (strategy.resetSequence draw).toNat < 2 ^ 13 := by
  cases strategy with
  | zero => exact Nat.two_pow_pos 13
  | random => exact and_mask_lt draw

/-- Below the last value the sequence counts up. -/
lemma toNat_nextSequence {current : UInt16} (h : current.toNat < 2 ^ 13 - 1) :
    (nextSequence current).toNat = current.toNat + 1 := by
  have hmask : (0x1FFF : UInt16).toNat = 2 ^ 13 - 1 := rfl
  rw [nextSequence, UInt16.toNat_and, hmask, Nat.and_two_pow_sub_one_eq_mod, UInt16.toNat_add]
  have hone : (1 : UInt16).toNat = 1 := rfl
  omega

end SequenceStrategy

/-- `SnowflakeGen`, without its random generator. -/
structure SnowflakeGen where
  strategy : SequenceStrategy
  machineId : UInt8
  lastTs : UInt64
  sequence : UInt16
  machineId_lt : machineId.toNat < 2 ^ 7
  sequence_lt : sequence.toNat < 2 ^ 13

namespace SnowflakeGen

open SequenceStrategy

def new (strategy : SequenceStrategy) (machineId : UInt8) : SnowflakeGen where
  strategy := strategy
  machineId := machineId &&& 0x7F
  lastTs := 0
  sequence := 0
  machineId_lt := by
    rw [UInt8.toNat_and]
    exact lt_of_le_of_lt Nat.and_le_right (by decide)
  sequence_lt := by decide

/-- The generator after it has stamped an id. -/
def stamped (g : SnowflakeGen) (now : UInt64) (sequence : UInt16) (h : sequence.toNat < 2 ^ 13) :
    SnowflakeGen :=
  { g with lastTs := now, sequence := sequence, sequence_lt := h }

/-- The state part of `generate`: the millisecond and the sequence of the next id.  A clock behind
the last id is ignored, and a sequence that is used up moves on to the next millisecond. -/
def advance (g : SnowflakeGen) (clock : UInt64) (draw : UInt16) : SnowflakeGen :=
  let now := if clock < g.lastTs then g.lastTs else clock
  if now = g.lastTs then
    if nextSequence g.sequence = 0 then
      g.stamped (g.lastTs + 1) (g.strategy.resetSequence draw) (resetSequence_lt _ _)
    else
      g.stamped now (nextSequence g.sequence) (and_mask_lt _)
  else
    g.stamped now (g.strategy.resetSequence draw) (resetSequence_lt _ _)

/-- The id a generator has last stamped. -/
def id (g : SnowflakeGen) : UInt64 :=
  (g.lastTs <<< 20) ||| (g.machineId.toUInt64 <<< 13) ||| g.sequence.toUInt64

def generate (g : SnowflakeGen) (clock : UInt64) (draw : UInt16) : UInt64 × SnowflakeGen :=
  let g' := g.advance clock draw
  (g'.id, g')

/-! ## The layout of an id -/

/-- The three fields do not overlap. -/
lemma toNat_id (g : SnowflakeGen) :
    g.id.toNat = 2 ^ 20 * (g.lastTs.toNat % 2 ^ 44) +
      (2 ^ 13 * g.machineId.toNat + g.sequence.toNat) := by
  have hm := g.machineId_lt
  have hs := g.sequence_lt
  have hlow : 2 ^ 13 * g.machineId.toNat + g.sequence.toNat < 2 ^ 20 := by omega
  have hts : (g.lastTs <<< 20).toNat = 2 ^ 20 * (g.lastTs.toNat % 2 ^ 44) := by
    rw [Word.toNat_shiftLeft_eq _ 20 20 rfl (by decide)]
    omega
  have hmachine : (g.machineId.toUInt64 <<< 13).toNat = 2 ^ 13 * g.machineId.toNat := by
    rw [Word.toNat_shiftLeft_eq _ 13 13 rfl (by decide), UInt8.toNat_toUInt64]
    omega
  rw [Nat.two_pow_add_eq_or_of_lt hlow, Nat.two_pow_add_eq_or_of_lt hs, ← Nat.or_assoc, id,
    UInt64.toNat_or, UInt64.toNat_or, hts, hmachine, UInt16.toNat_toUInt64]

/-- Within a millisecond a generator issues consecutive ids. -/
lemma generate_succ (g : SnowflakeGen) {clock : UInt64} (draw : UInt16) (hclock : clock ≤ g.lastTs)
    (hseq : g.sequence.toNat < 2 ^ 13 - 1) :
    (g.generate clock draw).1.toNat = g.id.toNat + 1 := by
  have hnow : (if clock < g.lastTs then g.lastTs else clock) = g.lastTs := by
    split
    · rfl
    · rename_i hlt
      exact le_antisymm hclock (not_lt.mp hlt)
  have hnext := toNat_nextSequence hseq
  have hne : nextSequence g.sequence ≠ 0 := by
    intro h0
    rw [h0] at hnext
    cases hnext
  have hadv : g.advance clock draw =
      g.stamped g.lastTs (nextSequence g.sequence) (and_mask_lt _) := by
    simp only [advance, hnow, if_pos, if_neg hne]
  simp only [generate, hadv, toNat_id, stamped, hnext]
  omega

/-! ## Ids issued by any number of generators -/

section Issue

variable {ι : Type} [DecidableEq ι]

/-- A call of `generate`: the generator, the clock reading and the word drawn. -/
abbrev IdCall (ι : Type) := ι × UInt64 × UInt16

/-- The generators after one call. -/
def advanceAt (gens : ι → SnowflakeGen) (c : IdCall ι) : ι → SnowflakeGen :=
  Function.update gens c.1 ((gens c.1).advance c.2.1 c.2.2)

/-- The ids issued by a run of calls. -/
def issue (gens : ι → SnowflakeGen) : List (IdCall ι) → List UInt64
  | [] => []
  | c :: rest => ((gens c.1).generate c.2.1 c.2.2).1 :: issue (advanceAt gens c) rest

lemma issue_append (gens : ι → SnowflakeGen) (calls rest : List (IdCall ι)) :
    issue gens (calls ++ rest) = issue gens calls ++ issue (calls.foldl advanceAt gens) rest := by
  induction calls generalizing gens with
  | nil => rfl
  | cons c calls ih => simp [issue, ih]

/-- The calls of other generators leave a generator alone. -/
lemma foldl_advanceAt_of_not_mem (gens : ι → SnowflakeGen) {i : ι} {calls : List (IdCall ι)}
    (h : ∀ c ∈ calls, c.1 ≠ i) : calls.foldl advanceAt gens i = gens i := by
  induction calls generalizing gens with
  | nil => rfl
  | cons c calls ih =>
      rw [List.foldl_cons, ih _ (fun c' hc' => h c' (List.mem_cons_of_mem _ hc')), advanceAt,
        Function.update_of_ne (h c List.mem_cons_self).symm]

/-- A generator called again within its millisecond issues the successor of its last id. -/
lemma succ_mem_issue (gens : ι → SnowflakeGen) (before between after : List (IdCall ι)) (i : ι)
    (clock clock' : UInt64) (draw draw' : UInt16) (hbetween : ∀ c ∈ between, c.1 ≠ i)
    (hclock : clock' ≤ ((before.foldl advanceAt gens i).advance clock draw).lastTs)
    (hseq : ((before.foldl advanceAt gens i).advance clock draw).sequence.toNat < 2 ^ 13 - 1) :
    ∃ r ∈ issue gens (before ++ (i, clock, draw) :: (between ++ (i, clock', draw') :: after)),
      ∃ r' ∈ issue gens (before ++ (i, clock, draw) :: (between ++ (i, clock', draw') :: after)),
        r'.toNat = r.toNat + 1 := by
  have hsame :
      (between.foldl advanceAt (advanceAt (before.foldl advanceAt gens) (i, clock, draw))) i
      = (before.foldl advanceAt gens i).advance clock draw := by
    rw [foldl_advanceAt_of_not_mem _ hbetween]
    exact Function.update_self ..
  refine ⟨((before.foldl advanceAt gens i).advance clock draw).id, ?_,
    (((before.foldl advanceAt gens i).advance clock draw).generate clock' draw').1, ?_,
    generate_succ _ draw' hclock hseq⟩
  · rw [issue_append, issue]
    exact List.mem_append_right _ List.mem_cons_self
  · rw [issue_append, issue, issue_append, issue]
    refine List.mem_append_right _ (List.mem_cons_of_mem _ (List.mem_append_right _ ?_))
    rw [hsame]
    exact List.mem_cons_self

end Issue

end SnowflakeGen

end ExchangeCore
