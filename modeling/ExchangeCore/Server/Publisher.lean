import ExchangeCore.Framework.Redelivery
import ExchangeCore.Server.Matcher

/-!
# The publisher behind the matcher

The second stage of the pipeline, `kafka_and_commit` (`bin/matching_engine_server.rs`), sends to
`engine.outputs` what it finds in the field `engine_outputs` of an event.  The events of the ring
buffer are reused, the poll loop overwrites their other fields only, and the matcher sets this one
only if it has made outputs: an event that makes none, such as a batch of orders delivered again,
sends the outputs that an earlier event has left in its slot a second time.

`deliveredAgain_published` says that nothing worse happens.  As long as no send fails, the outputs
made are sent in order and without a gap, and what is sent besides has been sent before.  A send
that fails is only printed, and the output is missing (`published_sublist`).
-/

namespace ExchangeCore

/-- The number of slots of the ring buffer. -/
def RING_SIZE : ℕ := 8192

/-- The ring buffer: the sequence number of the next event, and `engine_outputs` slot by slot. -/
structure RingBuffer where
  sequence : ℕ
  engineOutputs : ℕ → Option (List EngineOutput)

namespace RingBuffer

/-- A new ring buffer, with the events of the factory. -/
def new : RingBuffer := ⟨0, fun _ => none⟩

def slot (ring : RingBuffer) : ℕ := ring.sequence % RING_SIZE

/-- What the matcher does to the event it has handled. -/
def setOutputs (outputs : List EngineOutput) (ring : RingBuffer) : RingBuffer :=
  if outputs.isEmpty then ring
  else { ring with
    engineOutputs := Function.update ring.engineOutputs ring.slot (some outputs) }

/-- `kafka_and_commit` on the event: what gets on the topic, where `sent` says which of its sends
succeed. -/
def kafkaAndCommit (sent : ℕ → Bool) (ring : RingBuffer) : List EngineOutput :=
  match ring.engineOutputs ring.slot with
  | none => []
  | some outputs => (outputs.zipIdx.filter (fun output => sent output.2)).map Prod.fst

/-- The two stages on one event after the other. -/
def pipeline (sent : ℕ → ℕ → Bool) : Machine RingBuffer Matcher.Answer (List EngineOutput) where
  step ring answer :=
    let ring := ring.setOutputs answer.engineOutputs
    ({ ring with sequence := ring.sequence + 1 }, ring.kafkaAndCommit (sent ring.sequence))

/-- What gets on `engine.outputs` for the answers of the matcher. -/
def published (sent : ℕ → ℕ → Bool) (ring : RingBuffer) (answers : List Matcher.Answer) :
    List EngineOutput :=
  ((pipeline sent).answers ring answers).flatten

/-- No send fails. -/
def allSent : ℕ → ℕ → Bool := fun _ _ => true

/-- The slots hold outputs that have been made. -/
def Holds (ring : RingBuffer) (made : List EngineOutput) : Prop :=
  ∀ slot outputs, ring.engineOutputs slot = some outputs → outputs ⊆ made

variable {ring : RingBuffer} {made : List EngineOutput}

lemma kafkaAndCommit_sublist (sent : ℕ → Bool) (ring : RingBuffer) (n : ℕ) :
    (ring.kafkaAndCommit sent).Sublist (ring.kafkaAndCommit (allSent n)) := by
  unfold kafkaAndCommit
  cases ring.engineOutputs ring.slot with
  | none => exact List.Sublist.refl _
  | some outputs => exact (List.monotone_filter_right _ (fun _ _ => rfl)).map _

lemma kafkaAndCommit_allSent (n : ℕ) (ring : RingBuffer) :
    ring.kafkaAndCommit (allSent n) = (ring.engineOutputs ring.slot).getD [] := by
  unfold kafkaAndCommit
  cases ring.engineOutputs ring.slot with
  | none => rfl
  | some outputs =>
      have hall : outputs.zipIdx.filter (fun output => allSent n output.2) = outputs.zipIdx :=
        List.filter_eq_self.mpr (fun _ _ => rfl)
      dsimp only
      rw [hall]
      exact List.zipIdx_map_fst 0 outputs

lemma Holds.setOutputs (h : ring.Holds made) (outputs : List EngineOutput) :
    (ring.setOutputs outputs).Holds (made ++ outputs) := by
  intro slot left hleft
  rw [RingBuffer.setOutputs] at hleft
  split at hleft
  · exact List.subset_append_of_subset_left _ (h slot left hleft)
  · change Function.update ring.engineOutputs ring.slot (some outputs) slot = some left at hleft
    rcases eq_or_ne slot ring.slot with rfl | hne
    · rw [Function.update_self] at hleft
      obtain rfl := Option.some.inj hleft
      exact List.subset_append_right _ _
    · rw [Function.update_of_ne hne] at hleft
      exact List.subset_append_of_subset_left _ (h slot left hleft)

/-- **One event.**  Its outputs are sent, or if there are none, some are sent again. -/
lemma deliveredAgain_kafkaAndCommit (h : ring.Holds made) (outputs : List EngineOutput) (n : ℕ) :
    DeliveredAgain (made ++ outputs) made.length
      ((ring.setOutputs outputs).kafkaAndCommit (allSent n)) (made ++ outputs).length := by
  rw [kafkaAndCommit_allSent, setOutputs]
  split
  · rename_i hempty
    obtain rfl := List.isEmpty_iff.mp hempty
    rw [List.append_nil]
    apply DeliveredAgain.again
    intro output houtput
    cases hleft : ring.engineOutputs ring.slot with
    | none =>
        rw [hleft] at houtput
        exact absurd houtput List.not_mem_nil
    | some left =>
        rw [hleft] at houtput
        obtain ⟨i, hi⟩ := List.mem_iff_getElem?.mp (h _ _ hleft houtput)
        exact ⟨i, (List.getElem?_eq_some_iff.mp hi).1, hi⟩
  · have hself : Function.update ring.engineOutputs ring.slot (some outputs) ring.slot =
        some outputs := Function.update_self ..
    show DeliveredAgain _ _ ((Function.update ring.engineOutputs ring.slot (some outputs)
      ring.slot).getD []) _
    rw [hself]
    exact DeliveredAgain.next made outputs

/-- **What is sent** of the outputs made, if no send fails: all of them, in order, and now and then
some of them again. -/
lemma deliveredAgain_published (h : ring.Holds made) (answers : List Matcher.Answer) :
    DeliveredAgain (made ++ answers.flatMap Matcher.Answer.engineOutputs) made.length
      (published allSent ring answers)
      (made ++ answers.flatMap Matcher.Answer.engineOutputs).length := by
  induction answers generalizing ring made with
  | nil =>
      rw [List.flatMap_nil, List.append_nil]
      exact .nil _
  | cons answer answers ih =>
      have hfirst := deliveredAgain_kafkaAndCommit h answer.engineOutputs
        (ring.setOutputs answer.engineOutputs).sequence
      have hrest := @ih { ring.setOutputs answer.engineOutputs with
        sequence := (ring.setOutputs answer.engineOutputs).sequence + 1 } _
        (h.setOutputs answer.engineOutputs)
      rw [List.flatMap_cons, ← List.append_assoc]
      exact (hfirst.extend _).append hrest

/-- A send that fails leaves its output out. -/
lemma published_sublist (sent : ℕ → ℕ → Bool) (ring : RingBuffer)
    (answers : List Matcher.Answer) :
    (published sent ring answers).Sublist (published allSent ring answers) := by
  induction answers generalizing ring with
  | nil => exact List.Sublist.refl _
  | cons answer answers ih => exact (kafkaAndCommit_sublist _ _ _).append (ih _)

end RingBuffer

end ExchangeCore
