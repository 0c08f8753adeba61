import ExchangeCore.Framework.RecentWindow
import ExchangeCore.Framework.Word

/-!
# The message deduplicator of the matching server

`MessageDeduplicator` (`matching_engine_server.rs`) remembers the last `MAX_TRACKED_OFFSETS`
message ids in a set and, for eviction in order of arrival, in a queue together with the
timestamp of the message.  Two tests read it: `is_duplicate`, exact as long as an id is
remembered, and `is_outside_tracked_window`, a cut-off by timestamp for messages older than
anything remembered.

`Tracks d ids` relates it to the history of the ids marked: the queue and the set hold the
last `MAX_TRACKED_OFFSETS` of them.  Message ids are order ids cast to `i64`, which loses nothing.
-/

namespace ExchangeCore

open RecentWindow

/-- `MAX_TRACKED_OFFSETS`; irreducible, so that no proof counts to it. -/
@[irreducible] def MAX_TRACKED_OFFSETS : ℕ := 100000

structure MessageDeduplicator where
  recentOffsets : Finset Int64
  offsetQueue : List (Int64 × UInt64)
  /-- The timestamp at the front of the queue, 0 if nothing is tracked. -/
  oldestTrackedTs : UInt64

namespace MessageDeduplicator

def new : MessageDeduplicator := ⟨∅, [], 0⟩

def isDuplicate (d : MessageDeduplicator) (offset : Int64) : Bool := offset ∈ d.recentOffsets

def isOutsideTrackedWindow (d : MessageDeduplicator) (msgTs : UInt64) : Bool :=
  if d.offsetQueue.length < MAX_TRACKED_OFFSETS then false
  else if msgTs = 0 ∨ d.oldestTrackedTs = 0 then false
  else msgTs < d.oldestTrackedTs

/-- The eviction loop of `mark_processed`. -/
def evict : Finset Int64 → List (Int64 × UInt64) → Finset Int64 × List (Int64 × UInt64)
  | recent, [] => (recent, [])
  | recent, e :: queue =>
      if (e :: queue).length > MAX_TRACKED_OFFSETS then evict (recent.erase e.1) queue
      else (recent, e :: queue)

def markProcessed (d : MessageDeduplicator) (offset : Int64) (timestamp : UInt64) :
    MessageDeduplicator :=
  if offset ∈ d.recentOffsets then d
  else
    let kept := evict (insert offset d.recentOffsets) (d.offsetQueue ++ [(offset, timestamp)])
    { recentOffsets := kept.1
      offsetQueue := kept.2
      oldestTrackedTs := (kept.2.head?.map Prod.snd).getD 0 }

@[simp] lemma isOutsideTrackedWindow_zero (d : MessageDeduplicator) :
    d.isOutsideTrackedWindow 0 = false := by
  simp [isOutsideTrackedWindow]

/-! ## The ids remembered -/

/-- The eviction loop keeps the end of the queue, and the set in step with it. -/
lemma evict_eq (queue : List (Int64 × UInt64)) (h : (queue.map Prod.fst).Nodup) :
    evict (queue.map Prod.fst).toFinset queue =
      (((queue.rtake MAX_TRACKED_OFFSETS).map Prod.fst).toFinset,
        queue.rtake MAX_TRACKED_OFFSETS) := by
  induction queue with
  | nil => rw [List.rtake_nil, evict, List.map_nil]
  | cons e queue ih =>
      rw [List.map_cons, List.nodup_cons] at h
      unfold evict
      split
      · rename_i hlen
        have herase : ((e :: queue).map Prod.fst).toFinset.erase e.1 =
            (queue.map Prod.fst).toFinset := by
          rw [List.map_cons, List.toFinset_cons, Finset.erase_insert]
          simpa using h.1
        have hrtake : (e :: queue).rtake MAX_TRACKED_OFFSETS =
            queue.rtake MAX_TRACKED_OFFSETS := by
          rw [List.length_cons] at hlen
          rw [List.rtake, List.length_cons, Nat.sub_add_comm (by omega), List.drop_succ_cons]
          rfl
        rw [herase, ih h.2, hrtake]
      · rename_i hlen
        have hrtake : (e :: queue).rtake MAX_TRACKED_OFFSETS = e :: queue := by
          rw [List.rtake, Nat.sub_eq_zero_of_le (by omega), List.drop_zero]
        rw [hrtake]

/-- A new id goes to the end of the queue, which loses its front if it has become too long, and the
set follows. -/
lemma markProcessed_new {d : MessageDeduplicator} {offset : Int64} {ts : UInt64}
    (hrecent : d.recentOffsets = (d.offsetQueue.map Prod.fst).toFinset)
    (hnodup : (d.offsetQueue.map Prod.fst).Nodup) (hnew : offset ∉ d.recentOffsets) :
    d.markProcessed offset ts =
      { recentOffsets := (((d.offsetQueue ++ [(offset, ts)]).rtake MAX_TRACKED_OFFSETS).map
          Prod.fst).toFinset
        offsetQueue := (d.offsetQueue ++ [(offset, ts)]).rtake MAX_TRACKED_OFFSETS
        oldestTrackedTs := ((((d.offsetQueue ++ [(offset, ts)]).rtake
          MAX_TRACKED_OFFSETS).head?.map Prod.snd).getD 0) } := by
  have hset : insert offset d.recentOffsets =
      ((d.offsetQueue ++ [(offset, ts)]).map Prod.fst).toFinset := by
    rw [hrecent, List.map_append, List.toFinset_append, Finset.insert_eq, Finset.union_comm]
    rfl
  have hids : ((d.offsetQueue ++ [(offset, ts)]).map Prod.fst).Nodup := by
    rw [List.map_append, List.map_singleton, ← List.concat_eq_append]
    refine hnodup.concat (fun hmem => hnew ?_)
    rw [hrecent]
    exact List.mem_toFinset.mpr hmem
  simp only [MessageDeduplicator.markProcessed, if_neg hnew, hset, evict_eq _ hids]

/-- The deduplicator remembers the last ids of a history. -/
structure Tracks (d : MessageDeduplicator) (ids : List UInt64) : Prop where
  queue : d.offsetQueue.map Prod.fst = (ids.rtake MAX_TRACKED_OFFSETS).map UInt64.toInt64
  recent : d.recentOffsets = (d.offsetQueue.map Prod.fst).toFinset
  nodup : (ids.rtake MAX_TRACKED_OFFSETS).Nodup

lemma toInt64_injective : Function.Injective UInt64.toInt64 := by
  intro a b h
  rw [← UInt64.toUInt64_toInt64 a, h, UInt64.toUInt64_toInt64]

namespace Tracks

variable {d : MessageDeduplicator} {ids : List UInt64} {id : UInt64}

lemma new : Tracks MessageDeduplicator.new [] := by
  refine ⟨?_, rfl, ?_⟩ <;> rw [List.rtake_nil]
  · rfl
  · exact List.nodup_nil

lemma isDuplicate_iff (h : Tracks d ids) :
    d.isDuplicate id.toInt64 = true ↔ id ∈ ids.rtake MAX_TRACKED_OFFSETS := by
  rw [isDuplicate, decide_eq_true_iff, h.recent, h.queue, List.mem_toFinset,
    List.mem_map_of_injective toInt64_injective]

/-- Marking a new id adds it to the history. -/
lemma markProcessed (h : Tracks d ids) (hid : id ∉ ids.rtake MAX_TRACKED_OFFSETS) (ts : UInt64) :
    Tracks (d.markProcessed id.toInt64 ts) (ids ++ [id]) := by
  have hnew : id.toInt64 ∉ d.recentOffsets := by
    have := mt h.isDuplicate_iff.mp hid
    simpa [isDuplicate] using this
  have hmap : (d.offsetQueue ++ [(id.toInt64, ts)]).map Prod.fst =
      (ids.rtake MAX_TRACKED_OFFSETS ++ [id]).map UInt64.toInt64 := by
    rw [List.map_append, List.map_append, h.queue]
    rfl
  have hnodup : (d.offsetQueue.map Prod.fst).Nodup := by
    rw [h.queue]
    exact h.nodup.map toInt64_injective
  have hrtake : ((d.offsetQueue ++ [(id.toInt64, ts)]).rtake MAX_TRACKED_OFFSETS).map Prod.fst =
      ((ids ++ [id]).rtake MAX_TRACKED_OFFSETS).map UInt64.toInt64 := by
    rw [map_rtake, hmap, ← map_rtake, rtake_concat_rtake]
  rw [markProcessed_new h.recent hnodup hnew]
  refine ⟨hrtake, rfl, ?_⟩
  rw [← rtake_concat_rtake, ← List.concat_eq_append]
  exact (h.nodup.concat hid).sublist (List.drop_sublist _ _)

end Tracks

/-! ## Any sequence of marks -/

/-- The ids and timestamps of the marks that insert a new id into the set. -/
def inserted (d : MessageDeduplicator) : List (Int64 × UInt64) → List (Int64 × UInt64)
  | [] => []
  | mark :: marks =>
      if mark.1 ∈ d.recentOffsets then inserted (d.markProcessed mark.1 mark.2) marks
      else mark :: inserted (d.markProcessed mark.1 mark.2) marks

/-- The deduplicator after a sequence of marks. -/
def markAll (d : MessageDeduplicator) (marks : List (Int64 × UInt64)) : MessageDeduplicator :=
  marks.foldl (fun d mark => d.markProcessed mark.1 mark.2) d

/-- The queue holds the last new marks of a history, and the rest follows it. -/
structure Remembers (d : MessageDeduplicator) (history : List (Int64 × UInt64)) : Prop where
  queue : d.offsetQueue = history.rtake MAX_TRACKED_OFFSETS
  recent : d.recentOffsets = (d.offsetQueue.map Prod.fst).toFinset
  nodup : (d.offsetQueue.map Prod.fst).Nodup
  oldest : d.oldestTrackedTs = (d.offsetQueue.head?.map Prod.snd).getD 0

namespace Remembers

variable {d : MessageDeduplicator} {history : List (Int64 × UInt64)}

lemma new : Remembers MessageDeduplicator.new [] := by
  refine ⟨?_, rfl, List.nodup_nil, rfl⟩
  rw [List.rtake_nil]
  rfl

lemma markProcessed (h : Remembers d history) {mark : Int64 × UInt64}
    (hnew : mark.1 ∉ d.recentOffsets) :
    Remembers (d.markProcessed mark.1 mark.2) (history ++ [mark]) := by
  rw [markProcessed_new h.recent h.nodup hnew]
  have hnotin : mark.1 ∉ d.offsetQueue.map Prod.fst := by
    rw [h.recent] at hnew
    exact fun hmem => hnew (List.mem_toFinset.mpr hmem)
  refine ⟨?_, rfl, ?_, rfl⟩
  · rw [h.queue]
    exact rtake_concat_rtake _ _ _
  · rw [map_rtake, List.map_append, List.map_singleton, ← List.concat_eq_append]
    exact (h.nodup.concat hnotin).sublist (List.drop_sublist _ _)

/-- One mark: an id in the set changes nothing, another one is added. -/
lemma markAll (h : Remembers d history) (marks : List (Int64 × UInt64)) :
    Remembers (d.markAll marks) (history ++ d.inserted marks) := by
  induction marks generalizing d history with
  | nil =>
      rw [inserted, List.append_nil]
      exact h
  | cons mark marks ih =>
      have hrest : d.markAll (mark :: marks) = (d.markProcessed mark.1 mark.2).markAll marks := rfl
      rw [hrest, inserted]
      split
      · rename_i hseen
        have hsame : d.markProcessed mark.1 mark.2 = d := if_pos hseen
        rw [hsame]
        exact ih h
      · rename_i hnew
        have hnext := ih (h.markProcessed hnew)
        rwa [List.append_assoc, List.singleton_append] at hnext

end Remembers

/-- **What a deduplicator remembers.**  After any marks, the set holds the ids of the queue, the
queue holds no id twice and at most `MAX_TRACKED_OFFSETS`, the oldest timestamp is the one at its
front, and an id is a duplicate exactly if it is among the last `MAX_TRACKED_OFFSETS` that were
newly inserted. -/
theorem marked_remembers (marks : List (Int64 × UInt64)) :
    (MessageDeduplicator.new.markAll marks).recentOffsets =
        ((MessageDeduplicator.new.markAll marks).offsetQueue.map Prod.fst).toFinset ∧
      ((MessageDeduplicator.new.markAll marks).offsetQueue.map Prod.fst).Nodup ∧
        (MessageDeduplicator.new.markAll marks).offsetQueue.length ≤ MAX_TRACKED_OFFSETS ∧
          (MessageDeduplicator.new.markAll marks).oldestTrackedTs =
            ((MessageDeduplicator.new.markAll marks).offsetQueue.head?.map Prod.snd).getD 0 ∧
            ∀ id, (MessageDeduplicator.new.markAll marks).isDuplicate id = true ↔
              id ∈ ((MessageDeduplicator.new.inserted marks).map Prod.fst).rtake
                MAX_TRACKED_OFFSETS := by
  have h := Remembers.new.markAll marks
  rw [List.nil_append] at h
  generalize MessageDeduplicator.new.markAll marks = d at h
  refine ⟨h.recent, h.nodup, ?_, h.oldest, fun id => ?_⟩
  · rw [show d.offsetQueue = _ from h.queue, List.rtake, List.length_drop]
    omega
  · rw [isDuplicate, decide_eq_true_iff, h.recent, List.mem_toFinset, h.queue, map_rtake]

end MessageDeduplicator

end ExchangeCore
