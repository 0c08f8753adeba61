import Mathlib.Data.Fintype.Sum
import Mathlib.Data.Fintype.Sigma
import Mathlib.Tactic.DeriveFintype
import ExchangeCore.Engine.Output
import ExchangeCore.Framework.Channels
import ExchangeCore.Settlement.BalanceLedger

/-!
# The derived writers of the settlement service

What is derived from the settled outputs is written by tasks of their own (`spawn_derived_writers`
of `settlement_service.rs`): four for balance events, sharded by user, one for trades and one for
orders, each behind a channel of 10 000 messages.  The processing loop feeds them and waits for room
(`dispatch_to_writers`); a thread that reads the balance events of UBSCore from Kafka feeds the same
balance writers, but drops an event when the channel is full.  A balance or trades writer collects
up to 200 messages and writes them together.

`user_events_kept` says that in every interleaving the events of a user are handed to the database
in the order in which they came, none passed over or handed twice, except those of UBSCore that
found their channel full; and `ledger_rows` what the rows of `balance_ledger` are then.  A batch
whose write fails is logged and forgotten: `Outcome` is how the write of a batch ends.  Two events
of one key in one batch are written with one timestamp, and which of them the row shows, or what
mixture, is up to the database: `merge` stands for that.

The table of the trades and the tables the orders go to, the CSV file and StarRocks, which is
switched off, are left out.
-/

namespace ExchangeCore

open Channels

namespace DerivedWriters

/-! ## The channels -/

/-- `NUM_BALANCE_WRITERS`. -/
abbrev NUM_BALANCE_WRITERS : ℕ := 4

/-- The writers, and their channels. -/
inductive Writer
  | balance (shard : Fin NUM_BALANCE_WRITERS)
  | trades
  | orders
  deriving DecidableEq, Fintype

/-- What the channels carry. -/
inductive Message
  | balance (events : List EOBalanceEvent)
  | trades (trades : List TradeOutput) (lastSeq : UInt64)
  | orders (outputs : List EngineOutput)

/-- Who sends. -/
inductive Feed
  | dispatcher
  | ubsEvents
  deriving DecidableEq

lemma Feed.mem_pair (p : Feed) : p ∈ ({.dispatcher, .ubsEvents} : Finset Feed) := by
  cases p with
  | dispatcher => exact Finset.mem_insert_self _ _
  | ubsEvents => exact Finset.mem_insert_of_mem (Finset.mem_singleton_self _)

instance : Fintype Feed := ⟨{.dispatcher, .ubsEvents}, Feed.mem_pair⟩

/-- `MAX_DRAIN_BATCH`. -/
def MAX_DRAIN_BATCH : ℕ := 200

/-- `DERIVED_WRITER_BUFFER`. -/
def DERIVED_WRITER_BUFFER : ℕ := 10000

/-- How many messages a writer collects. -/
def drainOf : Writer → ℕ
  | .balance _ => MAX_DRAIN_BATCH
  | .trades => MAX_DRAIN_BATCH
  | .orders => 1

/-- Whether a feed waits for room. -/
def waitsForRoom : Feed → Bool
  | .dispatcher => true
  | .ubsEvents => false

lemma buffer_pos : 0 < DERIVED_WRITER_BUFFER := Nat.succ_pos _

lemma drainOf_pos (c : Writer) : 0 < drainOf c := by
  cases c with
  | balance _ => exact Nat.succ_pos _
  | trades => exact Nat.succ_pos _
  | orders => exact Nat.one_pos

/-- The buffers, what the writers collect, and who waits. -/
def limits : ChannelLimits Feed Writer :=
  ⟨DERIVED_WRITER_BUFFER, drainOf, waitsForRoom, buffer_pos, drainOf_pos⟩

/-- The shard of a user. -/
def shardOf (userId : UInt64) : Fin NUM_BALANCE_WRITERS :=
  Fin.ofNat NUM_BALANCE_WRITERS userId.toNat

/-! ## What is sent -/

/-- The shards of an output's events, in the order of the hash map: `order` puts them into any. -/
def shardsOf (order : List (Fin NUM_BALANCE_WRITERS)) (output : EngineOutput) :
    List (Fin NUM_BALANCE_WRITERS) :=
  ((output.balanceEvents.map (fun event => shardOf event.userId)) ++ order).dedup.filter
    (fun shard => shard ∈ output.balanceEvents.map (fun event => shardOf event.userId))

/-- What `dispatch_to_writers` sends for an output. -/
def dispatchOutput (dispatch : EngineOutput × List (Fin NUM_BALANCE_WRITERS)) :
    List (Writer × Message) :=
  let (output, order) := dispatch
  (shardsOf order output).map (fun shard => (Writer.balance shard, Message.balance
    (output.balanceEvents.filter (fun event => shardOf event.userId = shard)))) ++
  if output.trades.isEmpty then []
  else [(.trades, .trades output.trades output.outputSeq)]

/-- `dispatch_to_writers`, on a verified batch. -/
def dispatchToWriters (batch : List (EngineOutput × List (Fin NUM_BALANCE_WRITERS))) :
    List (Writer × Message) :=
  batch.flatMap dispatchOutput ++ [(.orders, .orders (batch.map Prod.fst))]

/-- What the consumer of the balance events tries to send. -/
def forwardEvents (events : List EOBalanceEvent) : List (Writer × Message) :=
  events.map (fun event => (.balance (shardOf event.userId), .balance [event]))

/-- The sends of the two. -/
def sends (batches : List (List (EngineOutput × List (Fin NUM_BALANCE_WRITERS))))
    (events : List EOBalanceEvent) : Feed → List (Writer × Message)
  | .dispatcher => batches.flatMap dispatchToWriters
  | .ubsEvents => forwardEvents events

/-- The balance events in a message. -/
def Message.events : Message → List EOBalanceEvent
  | .balance events => events
  | _ => []

/-! ## What is written -/

/-- The values inserted for an event; a balance that is not tracked is written as -1. -/
def ledgerEntry (event : EOBalanceEvent) : BalanceLedgerEntry where
  userId := event.userId.toInt64
  assetId := event.assetId.toInt32
  seq := event.seq.toInt64
  deltaAvail := event.deltaAvail
  deltaFrozen := event.deltaFrozen
  avail := (event.avail.map UInt64.toInt64).getD (-1)
  frozen := (event.frozen.map UInt64.toInt64).getD (-1)
  eventType := event.eventType
  refId := event.refId.toInt64

/-- The rows of a batch for a key. -/
def rowsFor (key : (Int64 × Int32) × ℤ) (events : List EOBalanceEvent) : List BalanceLedgerEntry :=
  (events.map ledgerEntry).filter (fun entry => entry.key = key)

/-- The rows of one key become one. -/
def insertRows (merge : List BalanceLedgerEntry → BalanceLedgerEntry) (events : List EOBalanceEvent)
    (ledger : Table (Int64 × Int32) ℤ BalanceLedgerEntry) :
    Table (Int64 × Int32) ℤ BalanceLedgerEntry :=
  events.foldl (fun ledger event => ledger.insertRow (ledgerEntry event).key
    (merge (rowsFor (ledgerEntry event).key events))) ledger

/-- How the write of a batch ends.  The batch is unlogged: the rows of some events may have been
inserted although it has failed. -/
inductive Outcome
  | applied
  | failed (inserted : EOBalanceEvent → Bool)

/-- The events whose rows are inserted. -/
def Outcome.inserted : Outcome → List EOBalanceEvent → List EOBalanceEvent
  | .applied, events => events
  | .failed inserted, events => events.filter inserted

def Outcome.answer : Outcome → Except String Unit
  | .applied => .ok ()
  | .failed _ => .error "Failed to batch insert balance_ledger"

def appendBalanceEventsBatch (merge : List BalanceLedgerEntry → BalanceLedgerEntry)
    (outcome : Outcome) (events : List EOBalanceEvent)
    (ledger : Table (Int64 × Int32) ℤ BalanceLedgerEntry) :
    Except String Unit × Table (Int64 × Int32) ℤ BalanceLedgerEntry :=
  if events.isEmpty then (.ok (), ledger)
  else (outcome.answer, insertRows merge (outcome.inserted events) ledger)

/-- What a writer writes to the ledger.  It goes on whatever the answer is. -/
def writeBatch (merge : List BalanceLedgerEntry → BalanceLedgerEntry) (outcome : Outcome)
    (ledger : Table (Int64 × Int32) ℤ BalanceLedgerEntry) (batch : Writer × List Message) :
    Table (Int64 × Int32) ℤ BalanceLedgerEntry :=
  (appendBalanceEventsBatch merge outcome (batch.2.flatMap Message.events) ledger).2

/-- The ledger after the writes so far, the `i`th of which ends in `outcomes i`. -/
def ledger (merge : List BalanceLedgerEntry → BalanceLedgerEntry) (outcomes : ℕ → Outcome)
    (s : Channels Feed Writer Message) : Table (Int64 × Int32) ℤ BalanceLedgerEntry :=
  s.written.zipIdx.foldl (fun ledger write => writeBatch merge (outcomes write.2) ledger write.1)
    Table.empty

/-! ## What gets into the channels -/

section Entered

variable {shard : Fin NUM_BALANCE_WRITERS}

/-- The events for a shard, in the messages of some sends. -/
def shardEvents (shard : Fin NUM_BALANCE_WRITERS) (sends : List (Writer × Message)) :
    List EOBalanceEvent := (messagesFor (.balance shard) sends).flatMap Message.events

lemma shardEvents_append (sends sends' : List (Writer × Message)) :
    shardEvents shard (sends ++ sends') = shardEvents shard sends ++ shardEvents shard sends' := by
  rw [shardEvents, messagesFor_append, List.flatMap_append]
  rfl

lemma mem_shardsOf {order : List (Fin NUM_BALANCE_WRITERS)} {output : EngineOutput} :
    shard ∈ shardsOf order output ↔
      shard ∈ output.balanceEvents.map (fun event => shardOf event.userId) := by
  rw [shardsOf, List.mem_filter, List.mem_dedup, List.mem_append, decide_eq_true_iff]
  exact ⟨And.right, fun h => ⟨Or.inl h, h⟩⟩

lemma shardEvents_map {shards : List (Fin NUM_BALANCE_WRITERS)} (hnodup : shards.Nodup)
    (eventsOf : Fin NUM_BALANCE_WRITERS → List EOBalanceEvent) :
    shardEvents shard (shards.map (fun shard => (Writer.balance shard,
      Message.balance (eventsOf shard)))) = if shard ∈ shards then eventsOf shard else [] := by
  induction shards with
  | nil => rfl
  | cons first shards ih =>
      obtain ⟨hfirst, hrest⟩ := List.nodup_cons.mp hnodup
      rw [List.map_cons, ← List.singleton_append, shardEvents_append, ih hrest]
      by_cases heq : shard = first
      · subst heq
        rw [if_neg hfirst, if_pos List.mem_cons_self]
        simp [shardEvents, messagesFor, Message.events]
      · have hmem : shard ∈ first :: shards ↔ shard ∈ shards := by simp [heq]
        rw [if_congr hmem rfl rfl]
        simp [shardEvents, messagesFor, Ne.symm heq]

lemma shardEvents_dispatchOutput (output : EngineOutput) (order : List (Fin NUM_BALANCE_WRITERS)) :
    shardEvents shard (dispatchOutput (output, order)) =
      output.balanceEvents.filter (fun event => shardOf event.userId = shard) := by
  have htrades : shardEvents shard (if output.trades.isEmpty then []
      else [(.trades, .trades output.trades output.outputSeq)]) = [] := by
    split
    · rfl
    · rfl
  have hnodup : (shardsOf order output).Nodup := (List.nodup_dedup _).filter _
  rw [dispatchOutput, shardEvents_append, htrades, List.append_nil,
    shardEvents_map hnodup (fun shard => output.balanceEvents.filter
      (fun event => shardOf event.userId = shard))]
  split
  · rfl
  · rename_i hnot
    refine (List.filter_eq_nil_iff.mpr (fun event hin hshard => hnot ?_)).symm
    rw [mem_shardsOf, ← of_decide_eq_true hshard]
    exact List.mem_map_of_mem hin

/-- The events of the outputs of some batches. -/
def outputEvents (batches : List (List (EngineOutput × List (Fin NUM_BALANCE_WRITERS)))) :
    List EOBalanceEvent := batches.flatten.flatMap (fun dispatch => dispatch.1.balanceEvents)

lemma shardEvents_dispatcher
    (batches : List (List (EngineOutput × List (Fin NUM_BALANCE_WRITERS)))) :
    shardEvents shard (batches.flatMap dispatchToWriters) =
      (outputEvents batches).filter (fun event => shardOf event.userId = shard) := by
  have hbatch : ∀ batch : List (EngineOutput × List (Fin NUM_BALANCE_WRITERS)),
      shardEvents shard (batch.flatMap dispatchOutput) =
        (batch.flatMap (fun dispatch => dispatch.1.balanceEvents)).filter
          (fun event => shardOf event.userId = shard) := by
    intro batch
    induction batch with
    | nil => rfl
    | cons dispatch batch ih =>
        rw [List.flatMap_cons, shardEvents_append, shardEvents_dispatchOutput, ih,
          List.flatMap_cons, List.filter_append]
  induction batches with
  | nil => rfl
  | cons batch batches ih =>
      have hcons : outputEvents (batch :: batches) =
          batch.flatMap (fun dispatch => dispatch.1.balanceEvents) ++ outputEvents batches := by
        rw [outputEvents, List.flatten_cons, List.flatMap_append]
        rfl
      rw [List.flatMap_cons, shardEvents_append, dispatchToWriters, shardEvents_append, hbatch, ih,
        hcons, List.filter_append]
      exact congrArg (· ++ _) (List.append_nil _)

end Entered

/-! ## What is written of a user -/

section Users

variable {batches : List (List (EngineOutput × List (Fin NUM_BALANCE_WRITERS)))}
  {events : List EOBalanceEvent} {s : Channels Feed Writer Message}

/-- The events of a user. -/
def ofUser (u : UInt64) (events : List EOBalanceEvent) : List EOBalanceEvent :=
  events.filter (fun event => event.userId = u)

/-- The events of a user that have been written, in order. -/
def writtenEvents (s : Channels Feed Writer Message) (u : UInt64) : List EOBalanceEvent :=
  ofUser u ((s.writtenOf (.balance (shardOf u))).flatMap Message.events)

/-- All events that have been written. -/
def allWritten (s : Channels Feed Writer Message) : List EOBalanceEvent :=
  s.written.flatMap (fun batch => batch.2.flatMap Message.events)

/-- Those of them whose rows have been inserted. -/
def allStored (outcomes : ℕ → Outcome) (s : Channels Feed Writer Message) : List EOBalanceEvent :=
  s.written.zipIdx.flatMap (fun write =>
    (outcomes write.2).inserted (write.1.2.flatMap Message.events))

/-- The events of UBSCore that have found room. -/
def takenEvents (s : Channels Feed Writer Message) : List EOBalanceEvent :=
  (kept (s.done .ubsEvents)).flatMap (fun send => send.2.events)

/-- The events of a user that have got to their writer, and from whom. -/
def enteredEvents (s : Channels Feed Writer Message) (u : UInt64) : List (Feed × EOBalanceEvent) :=
  ((s.entered (.balance (shardOf u))).flatMap (fun entry => entry.2.events.map (entry.1, ·))).filter
    (fun entry => entry.2.userId = u)

lemma map_enteredEvents (u : UInt64) : (enteredEvents s u).map Prod.snd =
    ofUser u (((s.entered (.balance (shardOf u))).map Prod.snd).flatMap Message.events) := by
  rw [enteredEvents, ofUser]
  induction s.entered (.balance (shardOf u)) with
  | nil => rfl
  | cons entry entries ih =>
      rw [List.flatMap_cons, List.filter_append, List.map_append, ih, List.map_cons,
        List.flatMap_cons, List.filter_append, List.filter_map, List.map_map]
      congr 1
      exact List.map_id' _

lemma messagesFrom_enteredEvents (p : Feed) (u : UInt64) :
    messagesFrom p (enteredEvents s u) =
      ofUser u ((messagesFrom p (s.entered (.balance (shardOf u)))).flatMap Message.events) := by
  have hone : ∀ (q : Feed) (l : List EOBalanceEvent),
      messagesFrom p ((l.map (q, ·)).filter (fun entry => entry.2.userId = u)) =
        if q = p then ofUser u l else [] := by
    intro q l
    rw [List.filter_map, messagesFrom, List.filterMap_map]
    by_cases hq : q = p
    · rw [if_pos hq]
      exact (List.filterMap_congr (fun event _ => if_pos hq)).trans List.filterMap_some
    · rw [if_neg hq, List.filterMap_eq_nil_iff]
      exact fun event _ => if_neg hq
  rw [enteredEvents]
  induction s.entered (.balance (shardOf u)) with
  | nil => rfl
  | cons entry entries ih =>
      rw [List.flatMap_cons, List.filter_append, messagesFrom_append, ih, hone,
        ← List.singleton_append, messagesFrom_append, List.flatMap_append, ofUser, ofUser, ofUser,
        List.filter_append]
      congr 1
      by_cases hq : entry.1 = p
      · simp [messagesFrom, hq]
      · simp [messagesFrom, hq]

lemma ofUser_filter_shard (u : UInt64) (events : List EOBalanceEvent) :
    ofUser u (events.filter (fun event => shardOf event.userId = shardOf u)) = ofUser u events := by
  rw [ofUser, ofUser, List.filter_filter]
  refine List.filter_congr (fun event _ => ?_)
  by_cases hu : event.userId = u
  · simp [hu]
  · simp [hu]

/-- What is sent for a user goes to the user's writer. -/
lemma shard_of_mem_sends {p : Feed} {send : Writer × Message}
    (hsend : send ∈ sends batches events p) {event : EOBalanceEvent}
    (hevent : event ∈ send.2.events) :
    send.1 = .balance (shardOf event.userId) := by
  cases p with
  | dispatcher =>
      obtain ⟨batch, -, hsend⟩ := List.mem_flatMap.mp hsend
      rcases List.mem_append.mp hsend with hsend | hsend
      · obtain ⟨dispatch, -, hsend⟩ := List.mem_flatMap.mp hsend
        rcases List.mem_append.mp hsend with hsend | hsend
        · obtain ⟨shard, -, rfl⟩ := List.mem_map.mp hsend
          rw [of_decide_eq_true (List.mem_filter.mp hevent).2]
        · -- trades carry no balance events, nor do orders
          split at hsend
          · exact absurd hsend List.not_mem_nil
          · rw [List.mem_singleton.mp hsend] at hevent
            exact absurd hevent List.not_mem_nil
      · rw [List.mem_singleton.mp hsend] at hevent
        exact absurd hevent List.not_mem_nil
  | ubsEvents =>
      obtain ⟨sent, -, rfl⟩ := List.mem_map.mp hsend
      rw [List.mem_singleton.mp hevent]

lemma ofUser_messagesFor {α : Type*} {eventsOf : α → List EOBalanceEvent}
    {items : List (Writer × α)}
    (hplace : ∀ item ∈ items, ∀ event ∈ eventsOf item.2,
      item.1 = .balance (shardOf event.userId)) (u : UInt64) :
    ofUser u ((messagesFor (.balance (shardOf u)) items).flatMap eventsOf) =
      ofUser u (items.flatMap (fun item => eventsOf item.2)) := by
  induction items with
  | nil => rfl
  | cons item items ih =>
      obtain ⟨hitem, hitems⟩ := List.forall_mem_cons.mp hplace
      rw [List.flatMap_cons, ← List.singleton_append, messagesFor_append, List.flatMap_append,
        ofUser, ofUser, List.filter_append, List.filter_append]
      refine congrArg₂ (· ++ ·) ?_ (ih hitems)
      by_cases hto : item.1 = .balance (shardOf u)
      · simp [messagesFor, hto]
      · have hnone : (eventsOf item.2).filter (fun event => event.userId = u) = [] := by
          refine List.filter_eq_nil_iff.mpr (fun event hin hu => hto ?_)
          rw [hitem event hin, of_decide_eq_true hu]
        rw [hnone]
        simp [messagesFor, hto]

lemma ofUser_allWritten (h : Inv limits (sends batches events) s) (u : UInt64) :
    ofUser u (allWritten s) = writtenEvents s u := by
  have hplace : ∀ batch ∈ s.written, ∀ event ∈ batch.2.flatMap Message.events,
      batch.1 = .balance (shardOf event.userId) := by
    intro batch hbatch event hin
    obtain ⟨message, hmessage, hevent⟩ := List.mem_flatMap.mp hin
    obtain ⟨p, hsend⟩ := h.exists_of_mem_written hbatch hmessage
    exact shard_of_mem_sends hsend hevent
  rw [allWritten, writtenEvents, writtenOf, ← List.flatMap_id, List.flatMap_assoc]
  exact (ofUser_messagesFor hplace u).symm

/-- What found room has been tried, in order. -/
lemma kept_sublist_sends (h : Inv limits (sends batches events) s) (p : Feed) :
    (kept (s.done p)).Sublist (sends batches events p) := by
  rw [← h.progress p]
  exact (kept_sublist _).trans (List.sublist_append_left _ _)

lemma flatMap_forwardEvents (events : List EOBalanceEvent) :
    (forwardEvents events).flatMap (fun send => send.2.events) = events := by
  rw [forwardEvents, List.flatMap_map]
  exact List.flatMap_singleton' events

lemma messagesFrom_ubsEvents (h : Inv limits (sends batches events) s) (u : UInt64) :
    messagesFrom .ubsEvents (enteredEvents s u) = ofUser u (takenEvents s) := by
  rw [messagesFrom_enteredEvents, h.entered, takenEvents]
  exact ofUser_messagesFor (fun send hin event hevent =>
    shard_of_mem_sends ((kept_sublist_sends h .ubsEvents).subset hin) hevent) u

lemma takenEvents_sublist (h : Inv limits (sends batches events) s) :
    (takenEvents s).Sublist events := by
  have hsublist := (kept_sublist_sends h .ubsEvents).flatMap (fun send => send.2.events)
  rwa [sends, flatMap_forwardEvents] at hsublist

lemma takenEvents_of_stopped (h : Inv limits (sends batches events) s) (hstopped : Stopped s)
    (hroom : ∀ attempt ∈ s.done .ubsEvents, attempt.1 = true) : takenEvents s = events := by
  have hprogress := h.progress .ubsEvents
  rw [hstopped.todo, List.append_nil] at hprogress
  rw [takenEvents, kept_of_all hroom, hprogress, sends, flatMap_forwardEvents]

lemma messagesFrom_dispatcher (h : Inv limits (sends batches events) s) (u : UInt64) :
    messagesFrom .dispatcher (enteredEvents s u) <+: ofUser u (outputEvents batches) := by
  rw [messagesFrom_enteredEvents, ← ofUser_filter_shard u (outputEvents batches),
    ← shardEvents_dispatcher]
  exact ((h.messagesFrom_prefix rfl _).flatMap _).filter _

lemma messagesFrom_dispatcher_of_stopped (h : Inv limits (sends batches events) s)
    (hstopped : Stopped s) (u : UInt64) :
    messagesFrom .dispatcher (enteredEvents s u) = ofUser u (outputEvents batches) := by
  rw [messagesFrom_enteredEvents, ← ofUser_filter_shard u (outputEvents batches),
    ← shardEvents_dispatcher, h.messagesFrom_of_stopped hstopped rfl]
  rfl

/-! ### What the writes leave in the table -/

variable {outcomes : ℕ → Outcome}

lemma Outcome.inserted_sublist (outcome : Outcome) (events : List EOBalanceEvent) :
    (outcome.inserted events).Sublist events := by
  cases outcome with
  | applied => exact .refl _
  | failed inserted => exact List.filter_sublist

lemma allWritten_eq_zipIdx (s : Channels Feed Writer Message) :
    allWritten s = s.written.zipIdx.flatMap (fun write => write.1.2.flatMap Message.events) := by
  rw [allWritten, ← List.zipIdx_map_fst 0 s.written, List.flatMap_map, List.zipIdx_map_fst]

lemma allStored_sublist (outcomes : ℕ → Outcome) (s : Channels Feed Writer Message) :
    (allStored outcomes s).Sublist (allWritten s) := by
  rw [allWritten_eq_zipIdx]
  exact List.Sublist.flatMap_right _ (fun write _ => Outcome.inserted_sublist _ _)

/-- Only a write that fails leaves something out. -/
lemma allStored_of_applied (happlied : ∀ i < s.written.length, outcomes i = .applied) :
    allStored outcomes s = allWritten s := by
  rw [allWritten_eq_zipIdx, allStored]
  refine List.flatMap_congr (fun write hin => ?_)
  rw [happlied write.2 (List.snd_lt_of_mem_zipIdx hin)]
  rfl

lemma mem_allStored {i : ℕ} {batch : Writer × List Message} (hwrite : s.written[i]? = some batch)
    (happlied : outcomes i = .applied) {event : EOBalanceEvent}
    (hin : event ∈ batch.2.flatMap Message.events) : event ∈ allStored outcomes s := by
  refine List.mem_flatMap.mpr ⟨(batch, i), List.mem_zipIdx_iff_getElem?.mpr hwrite, ?_⟩
  rw [happlied]
  exact hin

/-- The events of a user whose rows have been inserted. -/
def storedEvents (outcomes : ℕ → Outcome) (s : Channels Feed Writer Message) (u : UInt64) :
    List EOBalanceEvent := ofUser u (allStored outcomes s)

/-- What is kept of the events of a user. -/
structure UserEvents (batches : List (List (EngineOutput × List (Fin NUM_BALANCE_WRITERS))))
    (events : List EOBalanceEvent) (outcomes : ℕ → Outcome) (s : Channels Feed Writer Message)
    (u : UInt64) : Prop where
  /-- Of those that have got to the writer, the first ones have been written. -/
  written : writtenEvents s u <+: (enteredEvents s u).map Prod.snd
  /-- Of the outputs' events the first ones have got there. -/
  outputs : messagesFrom .dispatcher (enteredEvents s u) <+: ofUser u (outputEvents batches)
  /-- Of UBSCore's those that found room have. -/
  ubs : messagesFrom .ubsEvents (enteredEvents s u) = ofUser u (takenEvents s)
  taken : (takenEvents s).Sublist events
  stored : (storedEvents outcomes s u).Sublist (writtenEvents s u)
  /-- What has been written is in the table, unless a write has failed. -/
  applied : (∀ i < s.written.length, outcomes i = .applied) →
    storedEvents outcomes s u = writtenEvents s u
  /-- In the end everything has been written, and all of the outputs is among it. -/
  stopped : Stopped s → writtenEvents s u = (enteredEvents s u).map Prod.snd ∧
    messagesFrom .dispatcher (enteredEvents s u) = ofUser u (outputEvents batches)
  /-- And all of UBSCore, if it always found room. -/
  roomy : Stopped s → (∀ attempt ∈ s.done .ubsEvents, attempt.1 = true) → takenEvents s = events

lemma UserEvents.of_inv (outcomes : ℕ → Outcome) (h : Inv limits (sends batches events) s)
    (u : UInt64) : UserEvents batches events outcomes s u where
  written := by
    rw [map_enteredEvents]
    exact ((h.writtenOf_prefix _).flatMap _).filter _
  outputs := messagesFrom_dispatcher h u
  ubs := messagesFrom_ubsEvents h u
  taken := takenEvents_sublist h
  stored := by
    rw [← ofUser_allWritten h]
    exact (allStored_sublist outcomes s).filter _
  applied happlied := by rw [storedEvents, allStored_of_applied happlied, ofUser_allWritten h]
  stopped hstopped := by
    rw [map_enteredEvents, writtenEvents, h.writtenOf_of_stopped hstopped]
    exact ⟨rfl, messagesFrom_dispatcher_of_stopped h hstopped u⟩
  roomy hstopped hroom := takenEvents_of_stopped h hstopped hroom

/-- **No event is lost on the way to the database, doubled or out of order**, whatever the writes
end in.  The tasks can always go on until everything has stopped. -/
theorem user_events_kept (outcomes : ℕ → Outcome)
    (h : Runs limits (Channels.start (sends batches events)) s) (u : UInt64) :
    (∃ s', Runs limits s s' ∧ Stopped s') ∧ UserEvents batches events outcomes s u :=
  ⟨exists_stopped h.inv, .of_inv outcomes h.inv u⟩

/-- A lock event of UBSCore. -/
def lockEvent : EOBalanceEvent := ⟨7, 1, 1, -100, 100, some 900, some 100, "lock", 11⟩

/-- A credit of a settled trade. -/
def creditEvent : EOBalanceEvent := ⟨7, 1, 2, 50, 0, none, none, "trade_settle_buyer_receive", 12⟩

/-- A batch of an output with the credit. -/
def creditBatch : List (EngineOutput × List (Fin NUM_BALANCE_WRITERS)) :=
  [(⟨1, 0, 0, ⟨1, 0, .deposit ⟨7, 1, 5, 0⟩⟩, none, [], [creditEvent], [], [], 0⟩, [])]

/-- Both events are sent, collected and written together; the orders are still to be sent. -/
lemma lockAndCredit_runs : ∃ s, Runs limits (Channels.start (sends [creditBatch] [lockEvent])) s ∧
    s.written = [(.balance 3, [.balance [lockEvent], .balance [creditEvent]])] := by
  have hlock := Relation.ReflTransGen.tail .refl (Step.send (L := limits)
    (s := Channels.start (sends [creditBatch] [lockEvent])) (p := .ubsEvents) rfl (by decide))
  have hcredit := hlock.tail (.send (p := .dispatcher) rfl (by decide))
  have hfirst := hcredit.tail (.collect (c := .balance 3) rfl (by decide))
  have hsecond := hfirst.tail (.collect (c := .balance 3) rfl (by decide))
  refine ⟨_, hsecond.tail (.write (c := .balance 3) ?_ (Or.inl rfl)), rfl⟩
  exact fun hnil => List.cons_ne_nil _ _ hnil

/-- The write fails when only the lock has got into the table. -/
theorem user_events_kept_lockAndCredit :
    ∃ s, Runs limits (Channels.start (sends [creditBatch] [lockEvent])) s ∧
      writtenEvents s 7 = [lockEvent, creditEvent] ∧
        storedEvents (fun _ => .failed (fun event => event.seq = 1)) s 7 = [lockEvent] ∧
          UserEvents [creditBatch] [lockEvent]
            (fun _ => .failed (fun event => event.seq = 1)) s 7 := by
  obtain ⟨s, hruns, hwritten⟩ := lockAndCredit_runs
  refine ⟨s, hruns, ?_, ?_, (user_events_kept _ hruns 7).2⟩
  · rw [writtenEvents, writtenOf, hwritten]
    rfl
  · rw [storedEvents, allStored, hwritten]
    rfl

end Users

/-! ## The rows -/

section Rows

variable {merge : List BalanceLedgerEntry → BalanceLedgerEntry} {u : UInt64}

lemma rowsFor_append (key : (Int64 × Int32) × ℤ) (events events' : List EOBalanceEvent) :
    rowsFor key (events ++ events') = rowsFor key events ++ rowsFor key events' := by
  rw [rowsFor, List.map_append, List.filter_append]
  rfl

lemma rowAt_insertRows (events : List EOBalanceEvent)
    (t : Table (Int64 × Int32) ℤ BalanceLedgerEntry) (key : (Int64 × Int32) × ℤ) :
    (insertRows merge events t).rowAt key =
      if rowsFor key events = [] then t.rowAt key else some (merge (rowsFor key events)) := by
  have hfold : ∀ (rest : List EOBalanceEvent) (t : Table (Int64 × Int32) ℤ BalanceLedgerEntry),
      (rest.foldl (fun ledger event => ledger.insertRow (ledgerEntry event).key
        (merge (rowsFor (ledgerEntry event).key events))) t).rowAt key =
        if rowsFor key rest = [] then t.rowAt key else some (merge (rowsFor key events)) := by
    intro rest
    induction rest with
    | nil => exact fun t => (if_pos rfl).symm
    | cons event rest ih =>
        intro t
        rw [List.foldl_cons, ih, Table.rowAt_insertRow]
        by_cases hkey : (ledgerEntry event).key = key
        · have hcons : rowsFor key (event :: rest) ≠ [] := by
            rw [rowsFor, List.map_cons, List.filter_cons_of_pos (by simpa using hkey)]
            exact List.cons_ne_nil _ _
          rw [if_neg hcons, if_pos hkey.symm, hkey]
          split <;> rfl
        · have hcons : rowsFor key (event :: rest) = rowsFor key rest := by
            rw [rowsFor, List.map_cons, List.filter_cons_of_neg (by simpa using hkey)]
            rfl
          rw [hcons, if_neg (Ne.symm hkey)]
  exact hfold events t

/-- An empty batch is not sent to the database. -/
lemma writeBatch_eq (outcome : Outcome) (t : Table (Int64 × Int32) ℤ BalanceLedgerEntry)
    (batch : Writer × List Message) :
    writeBatch merge outcome t batch =
      insertRows merge (outcome.inserted (batch.2.flatMap Message.events)) t := by
  rw [writeBatch, appendBalanceEventsBatch]
  split
  · rename_i hempty
    have hnone := outcome.inserted_sublist (batch.2.flatMap Message.events)
    rw [List.isEmpty_iff.mp hempty, List.sublist_nil] at hnone
    rw [List.isEmpty_iff.mp hempty, hnone]
    rfl
  · rfl

/-- The row of a key is that of the last events that have been inserted together with it. -/
lemma rowAt_ledger (merge : List BalanceLedgerEntry → BalanceLedgerEntry) (outcomes : ℕ → Outcome)
    (s : Channels Feed Writer Message) (key : (Int64 × Int32) × ℤ) :
    ∃ older newest,
      rowsFor key (allStored outcomes s) = older ++ newest ∧
        (newest = [] → older = []) ∧
        (ledger merge outcomes s).rowAt key =
          if newest = [] then none else some (merge newest) := by
  rw [ledger, allStored]
  induction s.written.zipIdx using List.reverseRecOn with
  | nil => exact ⟨[], [], rfl, fun _ => rfl, rfl⟩
  | append_singleton writes write ih =>
      obtain ⟨older, newest, hrows, holder, hrow⟩ := ih
      rw [List.foldl_concat, writeBatch_eq, rowAt_insertRows, List.flatMap_append,
        rowsFor_append, hrows, List.flatMap_singleton]
      by_cases hnone :
          rowsFor key ((outcomes write.2).inserted (write.1.2.flatMap Message.events)) = []
      · rw [if_pos hnone, hnone, List.append_nil]
        exact ⟨older, newest, rfl, holder, hrow⟩
      · rw [if_neg hnone]
        exact ⟨older ++ newest, _, rfl, fun hnil => absurd hnil hnone, (if_neg hnone).symm⟩

variable {batches : List (List (EngineOutput × List (Fin NUM_BALANCE_WRITERS)))}
  {events : List EOBalanceEvent} {outcomes : ℕ → Outcome} {s : Channels Feed Writer Message}

lemma userId_eq_of_key {event event' : EOBalanceEvent}
    (h : (ledgerEntry event).key = (ledgerEntry event').key) : event.userId = event'.userId :=
  Function.LeftInverse.injective UInt64.toUInt64_toInt64 (congrArg (fun key => key.1.1) h)

/-- The two feeds make up what has been entered. -/
lemma perm_messagesFrom (entered : List (Feed × EOBalanceEvent)) :
    (entered.map Prod.snd).Perm
      (messagesFrom .dispatcher entered ++ messagesFrom .ubsEvents entered) := by
  induction entered with
  | nil => exact .nil
  | cons entry entered ih =>
      obtain ⟨p, event⟩ := entry
      cases p with
      | dispatcher => exact ih.cons event
      | ubsEvents => exact (ih.cons event).trans List.perm_middle.symm

/-- Nothing is inserted of a user that has not been sent, and nothing twice. -/
lemma storedEvents_subperm (h : UserEvents batches events outcomes s u) :
    (storedEvents outcomes s u).Subperm (ofUser u (outputEvents batches ++ events)) := by
  have hentered : (messagesFrom .dispatcher (enteredEvents s u) ++
      messagesFrom .ubsEvents (enteredEvents s u)).Sublist
        (ofUser u (outputEvents batches ++ events)) := by
    rw [ofUser, List.filter_append, h.ubs]
    exact h.outputs.sublist.append (h.taken.filter _)
  exact (h.stored.trans h.written.sublist).subperm.trans
    ((perm_messagesFrom _).subperm.trans hentered.subperm)

lemma rowsFor_ofUser (event : EOBalanceEvent) (events : List EOBalanceEvent) :
    rowsFor (ledgerEntry event).key (ofUser event.userId events) =
      rowsFor (ledgerEntry event).key events := by
  rw [rowsFor, rowsFor, ofUser, List.filter_map, List.filter_map, List.filter_filter]
  congr 1
  refine List.filter_congr (fun event' _ => ?_)
  by_cases hkey : (ledgerEntry event').key = (ledgerEntry event).key
  · simp [hkey, userId_eq_of_key hkey]
  · simp [hkey]

/-- Of events with different keys one has a given key. -/
lemma rowsFor_of_nodup {event : EOBalanceEvent} {events : List EOBalanceEvent}
    (hkeys : (events.map (fun event => (ledgerEntry event).key)).Nodup) (hin : event ∈ events) :
    rowsFor (ledgerEntry event).key events = [ledgerEntry event] := by
  induction events with
  | nil => exact absurd hin List.not_mem_nil
  | cons first events ih =>
      obtain ⟨hfirst, hrest⟩ := List.nodup_cons.mp hkeys
      rw [← List.singleton_append, rowsFor_append]
      rcases List.mem_cons.mp hin with rfl | hin
      · have hnone : rowsFor (ledgerEntry event).key events = [] := by
          refine List.filter_eq_nil_iff.mpr (fun entry hentry hkey => hfirst ?_)
          obtain ⟨event', hevent', rfl⟩ := List.mem_map.mp hentry
          exact List.mem_map.mpr ⟨event', hevent', of_decide_eq_true hkey⟩
        rw [hnone]
        simp [rowsFor]
      · have hother : (ledgerEntry first).key ≠ (ledgerEntry event).key :=
          fun hkey => hfirst (List.mem_map.mpr ⟨event, hin, hkey.symm⟩)
        rw [ih hrest hin]
        simp [rowsFor, hother]

lemma row_of_stored (hmerge : ∀ entry, merge [entry] = entry)
    (h : Inv limits (sends batches events) s)
    (hkeys : ((outputEvents batches ++ events).map (fun event => (ledgerEntry event).key)).Nodup)
    {event : EOBalanceEvent} (hin : event ∈ allStored outcomes s) :
    event ∈ outputEvents batches ++ events ∧
      (ledger merge outcomes s).rowAt (ledgerEntry event).key = some (ledgerEntry event) := by
  have hsub := storedEvents_subperm (UserEvents.of_inv outcomes h event.userId)
  have hsent : event ∈ outputEvents batches ++ events :=
    List.mem_of_mem_filter (hsub.subset (List.mem_filter.mpr ⟨hin, decide_eq_true rfl⟩))
  refine ⟨hsent, ?_⟩
  have hrows : (rowsFor (ledgerEntry event).key (allStored outcomes s)).Subperm
      [ledgerEntry event] := by
    rw [← rowsFor_of_nodup hkeys hsent, ← rowsFor_ofUser event (allStored outcomes s),
      ← rowsFor_ofUser event (outputEvents batches ++ events)]
    obtain ⟨sent, hperm, hsublist⟩ := hsub
    exact List.Subperm.filter _ ⟨sent.map ledgerEntry, hperm.map _, hsublist.map _⟩
  obtain ⟨older, newest, hsplit, holder, hrow⟩ :=
    rowAt_ledger merge outcomes s (ledgerEntry event).key
  rw [hrow]
  have hmem : ledgerEntry event ∈ older ++ newest := by
    rw [← hsplit]
    exact List.mem_filter.mpr ⟨List.mem_map_of_mem hin, decide_eq_true rfl⟩
  have hle := hrows.length_le
  have hsubset := hrows.subset
  rw [hsplit] at hle hsubset
  -- there is one row of the key, so that it is the newest
  rcases newest with _ | ⟨entry, newest⟩
  · rw [holder rfl] at hmem
    exact absurd hmem List.not_mem_nil
  · rw [List.length_append, List.length_cons, List.length_singleton] at hle
    obtain rfl := List.eq_nil_of_length_eq_zero (show newest.length = 0 by omega)
    have hentry : entry = ledgerEntry event :=
      List.mem_singleton.mp (hsubset (List.mem_append_right _ (List.mem_singleton_self _)))
    rw [if_neg (List.cons_ne_nil _ _), hmerge, hentry]

/-- **The ledger shows what has happened.**  If the events carry different keys, every row is the
one of an event of an output or of UBSCore, and once everything has stopped each event of an output
has been written and has its row, unless the batch it was written with has failed. -/
theorem ledger_rows (hmerge : ∀ entry, merge [entry] = entry) (outcomes : ℕ → Outcome)
    (h : Runs limits (Channels.start (sends batches events)) s)
    (hkeys : ((outputEvents batches ++ events).map (fun event => (ledgerEntry event).key)).Nodup) :
    (∀ key entry, (ledger merge outcomes s).rowAt key = some entry →
        ∃ event ∈ outputEvents batches ++ events,
          key = (ledgerEntry event).key ∧ entry = ledgerEntry event) ∧
      (Stopped s → ∀ event ∈ outputEvents batches,
        ∃ i batch, s.written[i]? = some batch ∧ event ∈ batch.2.flatMap Message.events ∧
          (outcomes i = .applied →
            (ledger merge outcomes s).rowAt (ledgerEntry event).key =
              some (ledgerEntry event))) := by
  refine ⟨fun key entry hrow => ?_, fun hstopped event hin => ?_⟩
  · obtain ⟨older, newest, hsplit, -, hnewest⟩ := rowAt_ledger merge outcomes s key
    have hsome : newest ≠ [] := by
      intro hnil
      rw [hrow, if_pos hnil] at hnewest
      exact Option.some_ne_none _ hnewest
    obtain ⟨row, hnew⟩ := List.exists_mem_of_ne_nil _ hsome
    have hmem : row ∈ rowsFor key (allStored outcomes s) :=
      hsplit ▸ List.mem_append_right _ hnew
    obtain ⟨hmem, hkey⟩ := List.mem_filter.mp hmem
    obtain ⟨event, hevent, rfl⟩ := List.mem_map.mp hmem
    obtain rfl := of_decide_eq_true hkey
    obtain ⟨hsent, hat⟩ := row_of_stored hmerge h.inv hkeys hevent
    rw [hrow] at hat
    exact ⟨event, hsent, rfl, Option.some.inj hat⟩
  · obtain ⟨hwritten, hdispatcher⟩ :=
      (UserEvents.of_inv outcomes h.inv event.userId).stopped hstopped
    have hmem : event ∈ ofUser event.userId (allWritten s) := by
      rw [ofUser_allWritten h.inv, hwritten]
      refine (perm_messagesFrom _).mem_iff.mpr (List.mem_append_left _ ?_)
      rw [hdispatcher]
      exact List.mem_filter.mpr ⟨hin, decide_eq_true rfl⟩
    obtain ⟨batch, hbatch, hevent⟩ := List.mem_flatMap.mp (List.mem_of_mem_filter hmem)
    obtain ⟨i, hi⟩ := List.mem_iff_getElem?.mp hbatch
    exact ⟨i, batch, hi, hevent,
      fun happlied => (row_of_stored hmerge h.inv hkeys (mem_allStored hi happlied hevent)).2⟩

/-- Of the rows of a key in a batch the last one stays. -/
def lastRow (rows : List BalanceLedgerEntry) : BalanceLedgerEntry :=
  rows.getLast?.getD (ledgerEntry lockEvent)

theorem ledger_rows_lockAndCredit :
    ∃ s, Runs limits (Channels.start (sends [creditBatch] [lockEvent])) s ∧
      (∀ key entry, (ledger lastRow (fun _ => .applied) s).rowAt key = some entry →
        ∃ event ∈ [creditEvent, lockEvent],
          key = (ledgerEntry event).key ∧ entry = ledgerEntry event) ∧
        (ledger lastRow (fun _ => .applied) s).rowAt (ledgerEntry creditEvent).key =
          some (ledgerEntry creditEvent) := by
  obtain ⟨s, hruns, hwritten⟩ := lockAndCredit_runs
  have hmerge : ∀ entry, lastRow [entry] = entry := fun _ => rfl
  obtain ⟨hrows, -⟩ := ledger_rows hmerge (fun _ => .applied) hruns (by decide)
  refine ⟨s, hruns, hrows, ?_⟩
  rw [ledger, hwritten]
  decide

end Rows

end DerivedWriters

end ExchangeCore
