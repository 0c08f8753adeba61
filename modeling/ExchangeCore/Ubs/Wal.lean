import ExchangeCore.Framework.Bytes
import ExchangeCore.Ubs.Locks

/-!
# The write-ahead logs of UBSCore

`MmapWal` (`wal/mmap_wal.rs`), which the message handler writes to, and `GroupCommitWal`
(`wal/group_commit.rs`), which `process_order_durable` writes to.  A log is represented by the
entries appended to it and by how many of them a successful flush has covered, with the sizes that
decide whether an entry fits.  What the operating system answers to a flush is an argument.

`Bincode` are the encoders of the third-party crate.
-/

namespace ExchangeCore

inductive WalEntryType
  | deposit
  | withdraw
  | orderLock
  | orderUnlock
  | trade
  | fee
  | snapshot
  deriving DecidableEq, Repr

structure WalEntry where
  entryType : WalEntryType
  payload : Bytes
  deriving DecidableEq, Repr

/-- The length of `serialize`: `[Len(4)][CRC(4)][Type(1)][Payload]`. -/
def WalEntry.serializedLen (entry : WalEntry) : ℕ := 4 + 4 + 1 + entry.payload.length

inductive WalError
  | tooShort
  | invalidLength (len : ℕ)
  | invalidType (type : UInt8)
  | crcMismatch (stored computed : UInt32)
  | ioError (msg : String)
  deriving DecidableEq, Repr

/-- `bincode::serialize`, of the types the handler writes. -/
structure Bincode where
  order : InternalOrder → Bytes

/-- The default configuration of the crate: little-endian integers of fixed width, an enum as the
index of its variant. -/
def Bincode.fixint : Bincode where
  order o := Bytes.ofU64 o.orderId ++ Bytes.ofU64 o.userId ++ Bytes.ofU32 o.symbolId ++
    Bytes.ofU32 (match o.side with | .buy => 0 | .sell => 1) ++ Bytes.ofU64 o.price ++
    Bytes.ofU64 o.qty ++ Bytes.ofU32 (match o.orderType with | .limit => 0 | .market => 1)

/-- The entry an accepted order leaves in a log. -/
def Bincode.orderEntry (bincode : Bincode) (order : InternalOrder) : WalEntry :=
  ⟨.orderLock, bincode.order order⟩

/-! ## The memory-mapped log -/

/-- `MmapWal`: the map has `size` bytes, of which the entries take those before the cursor. -/
structure MmapWal where
  size : ℕ
  cursor : ℕ
  entries : List WalEntry
  /-- How many entries a successful flush has covered. -/
  flushed : ℕ
  flushed_le : flushed ≤ entries.length

namespace MmapWal

/-- There is room for an entry. -/
def hasRoom (wal : MmapWal) (entry : WalEntry) : Bool :=
  decide (wal.cursor + entry.serializedLen ≤ wal.size)

def append (entry : WalEntry) (wal : MmapWal) : Except WalError Unit × MmapWal :=
  if wal.cursor + entry.serializedLen > wal.size then (.error (.ioError "WAL full"), wal)
  else
    (.ok (),
      { wal with
        cursor := wal.cursor + entry.serializedLen
        entries := wal.entries ++ [entry]
        flushed_le := by
          rw [List.length_append]
          exact Nat.le_add_right_of_le wal.flushed_le })

/-- `flush`, where `ok` tells whether the operating system has synced the map. -/
def flush (ok : Bool) (wal : MmapWal) : MmapWal :=
  if ok then { wal with flushed := wal.entries.length, flushed_le := Nat.le_refl _ } else wal

variable {wal : MmapWal} {entry : WalEntry}

lemma append_of_room (h : wal.hasRoom entry = true) :
    (wal.append entry).1 = .ok () ∧ (wal.append entry).2.entries = wal.entries ++ [entry] ∧
      (wal.append entry).2.flushed = wal.flushed := by
  have hfit : ¬wal.cursor + entry.serializedLen > wal.size := by simpa [hasRoom] using h
  simp only [append, if_neg hfit, and_self]

lemma append_of_full (h : wal.hasRoom entry = false) :
    wal.append entry = (.error (.ioError "WAL full"), wal) := by
  have hfull : wal.cursor + entry.serializedLen > wal.size := by simpa [hasRoom] using h
  rw [append, if_pos hfull]

lemma append_size (wal : MmapWal) (entry : WalEntry) : (wal.append entry).2.size = wal.size := by
  unfold append
  split <;> rfl

@[simp] lemma flush_entries (ok : Bool) (wal : MmapWal) : (wal.flush ok).entries = wal.entries := by
  unfold flush
  split <;> rfl

end MmapWal

/-! ## The log with group commit -/

/-- `GroupCommitWal`: the entries in the buffer, and those a flush has put on disk. -/
structure GroupCommitWal where
  maxBatchSize : ℕ
  /-- The capacity of the buffer. -/
  capacity : ℕ
  buffer : List WalEntry
  pendingCount : ℕ
  written : List WalEntry

/-- The answers of the operating system to the flushes of one order: the one that makes room in the
buffer, the one a full batch leads to, and the one that is asked for. -/
structure FlushIo where
  room : Except String Unit
  batch : Except String Unit
  commit : Except String Unit

namespace GroupCommitWal

/-- The bytes in the buffer. -/
def bufferLen (wal : GroupCommitWal) : ℕ := (wal.buffer.map WalEntry.serializedLen).sum

/-- `flush`.  If the write or the sync fails, the buffer is kept. -/
def flush (io : Except String Unit) : Fallible GroupCommitWal WalError Unit := fun wal =>
  if wal.buffer.isEmpty then (.ok (), wal)
  else
    match io with
    | .error e => (.error (.ioError e), wal)
    | .ok () => (.ok (), { wal with
        written := wal.written ++ wal.buffer, buffer := [], pendingCount := 0 })

/-- The flush `append` makes if the entry does not fit into the rest of the buffer. -/
def makeRoom (io : Except String Unit) (entry : WalEntry) : Fallible GroupCommitWal WalError Unit :=
  fun wal =>
    if entry.serializedLen > wal.capacity - wal.bufferLen then flush io wal else (.ok (), wal)

/-- Write the entry into the buffer. -/
def write (entry : WalEntry) : Fallible GroupCommitWal WalError Unit := fun wal =>
  let len := entry.serializedLen
  let capacity := wal.capacity
  if len > capacity then
    (.error (.ioError s!"Entry too large: {len} > buffer capacity {capacity}"), wal)
  else if len > capacity - wal.bufferLen then
    (.error (.ioError "Buffer write failed"), wal)
  else
    (.ok (), { wal with buffer := wal.buffer ++ [entry], pendingCount := wal.pendingCount + 1 })

/-- The flush `append` makes if the batch is full. -/
def autoFlush (io : Except String Unit) : Fallible GroupCommitWal WalError Unit := fun wal =>
  if wal.pendingCount ≥ wal.maxBatchSize then flush io wal else (.ok (), wal)

def append (io : FlushIo) (entry : WalEntry) : Fallible GroupCommitWal WalError Unit := do
  makeRoom io.room entry
  write entry
  autoFlush io.batch

/-- `append` and then `flush`, as `process_order_durable` does. -/
def appendAndFlush (io : FlushIo) (entry : WalEntry) : Fallible GroupCommitWal WalError Unit := do
  append io entry
  flush io.commit

/-- The entries of a log, on disk and then in the buffer. -/
def entries (wal : GroupCommitWal) : List WalEntry := wal.written ++ wal.buffer

lemma flush_keeps (io : Except String Unit) : Fallible.Keeps entries (flush io) := by
  intro wal
  unfold flush
  split
  · rfl
  · cases io with
    | error e => rfl
    | ok _ => simp [entries]

lemma makeRoom_keeps (io : Except String Unit) (entry : WalEntry) :
    Fallible.Keeps entries (makeRoom io entry) := by
  intro wal
  unfold makeRoom
  split
  · exact flush_keeps io wal
  · rfl

lemma autoFlush_keeps (io : Except String Unit) : Fallible.Keeps entries (autoFlush io) := by
  intro wal
  unfold autoFlush
  split
  · exact flush_keeps io wal
  · rfl

/-- What has been written has been appended. -/
lemma write_ensures (entry : WalEntry) (wal : GroupCommitWal) :
    (write entry).Ensures wal (fun _ wal' => wal'.entries = wal.entries ++ [entry]) := by
  intro _ wal' hrun
  simp only [write] at hrun
  split at hrun
  · exact absurd (congrArg Prod.fst hrun) (by simp)
  split at hrun
  · exact absurd (congrArg Prod.fst hrun) (by simp)
  obtain ⟨-, rfl⟩ := Prod.mk.inj hrun
  simp [entries]

lemma flush_error {wal : GroupCommitWal} (h : ¬wal.buffer.isEmpty = true) (e : String) :
    flush (.error e) wal = (.error (.ioError e), wal) := if_neg h

lemma flush_ok {wal : GroupCommitWal} (h : ¬wal.buffer.isEmpty = true) :
    flush (.ok ()) wal = (.ok (), { wal with
      written := wal.written ++ wal.buffer, buffer := [], pendingCount := 0 }) := if_neg h

lemma flush_capacity (io : Except String Unit) : Fallible.Keeps capacity (flush io) := by
  intro wal
  unfold flush
  split
  · rfl
  · cases io with
    | error e => rfl
    | ok _ => rfl

lemma write_of_fits {entry : WalEntry} {wal : GroupCommitWal}
    (hcapacity : entry.serializedLen ≤ wal.capacity)
    (hroom : ¬entry.serializedLen > wal.capacity - wal.bufferLen) :
    write entry wal = (.ok (), { wal with
      buffer := wal.buffer ++ [entry], pendingCount := wal.pendingCount + 1 }) :=
  (if_neg (Nat.not_lt.mpr hcapacity)).trans (if_neg hroom)

lemma write_of_large {entry : WalEntry} {wal : GroupCommitWal}
    (hlarge : entry.serializedLen > wal.capacity) :
    ∃ e, write entry wal = (.error e, wal) := ⟨_, if_pos hlarge⟩

/-- The entry gets into the buffer: it is not larger than that, and if it does not fit into the rest
of it, the flush that makes room succeeds. -/
def Enters (io : FlushIo) (entry : WalEntry) (wal : GroupCommitWal) : Prop :=
  entry.serializedLen ≤ wal.capacity ∧
    (entry.serializedLen > wal.capacity - wal.bufferLen → io.room = .ok ())

/-- With the entry in the buffer the batch is full. -/
def FillsBatch (entry : WalEntry) (wal : GroupCommitWal) : Prop :=
  wal.maxBatchSize ≤
    (if entry.serializedLen > wal.capacity - wal.bufferLen then 0 else wal.pendingCount) + 1

/-- The end of an append whose entry fits into the rest of the buffer. -/
lemma write_autoFlush {io : Except String Unit} {entry : WalEntry} {wal : GroupCommitWal}
    (hroom : ¬entry.serializedLen > wal.capacity - wal.bufferLen)
    (hcapacity : entry.serializedLen ≤ wal.capacity) :
    ((do write entry; autoFlush io : Fallible GroupCommitWal WalError Unit) wal).2.entries =
        wal.entries ++ [entry] ∧
      (((do write entry; autoFlush io : Fallible GroupCommitWal WalError Unit) wal).1 = .ok () ↔
        (wal.maxBatchSize ≤ wal.pendingCount + 1 → io = .ok ())) := by
  have hrun : (do write entry; autoFlush io : Fallible GroupCommitWal WalError Unit) wal =
      autoFlush io { wal with
        buffer := wal.buffer ++ [entry], pendingCount := wal.pendingCount + 1 } :=
    Fallible.bind_of_ok (write_of_fits hcapacity hroom)
  rw [hrun]
  refine ⟨?_, ?_⟩
  · rw [autoFlush_keeps io, entries, entries, List.append_assoc]
  · unfold autoFlush
    split
    · rename_i hfull
      have hne : ¬(wal.buffer ++ [entry]).isEmpty = true := by simp
      cases io with
      | error e =>
          rw [flush_error hne]
          exact iff_of_false (by simp) (fun h => absurd (h hfull) (by simp))
      | ok _ =>
          rw [flush_ok hne]
          exact iff_of_true rfl (fun _ => rfl)
    · rename_i hfull
      exact iff_of_true rfl (fun h => absurd h hfull)

/-- **What an append does**: its entry is in the log afterwards if it gets into the buffer, and the
answer is `Ok` if besides the flush of a full batch succeeds. -/
lemma append_spec (io : FlushIo) (entry : WalEntry) (wal : GroupCommitWal) :
    (Enters io entry wal → (append io entry wal).2.entries = wal.entries ++ [entry]) ∧
      (¬Enters io entry wal → (append io entry wal).2.entries = wal.entries) ∧
      ((append io entry wal).1 = .ok () ↔
        Enters io entry wal ∧ (FillsBatch entry wal → io.batch = .ok ())) := by
  have hbind : ∀ {wal'}, makeRoom io.room entry wal = (.ok (), wal') → append io entry wal =
      (do write entry; autoFlush io.batch : Fallible GroupCommitWal WalError Unit) wal' :=
    fun hmade => Fallible.bind_of_ok hmade
  by_cases hneeds : entry.serializedLen > wal.capacity - wal.bufferLen
  · by_cases hcapacity : entry.serializedLen ≤ wal.capacity
    · -- There is something to flush.
      have hne : ¬wal.buffer.isEmpty = true := by
        intro hempty
        rw [bufferLen, List.isEmpty_iff.mp hempty, List.map_nil, List.sum_nil] at hneeds
        omega
      rcases hio : io.room with e | _
      · have hfail : append io entry wal = (.error (.ioError e), wal) :=
          Fallible.bind_of_error (by rw [makeRoom, if_pos hneeds, hio, flush_error hne])
        have hnot : ¬Enters io entry wal := fun h => absurd (h.2 hneeds) (by rw [hio]; simp)
        rw [hfail]
        exact ⟨fun h => absurd h hnot, fun _ => rfl, iff_of_false (by simp) (fun h => hnot h.1)⟩
      · have hmade : makeRoom io.room entry wal = (.ok (), { wal with
            written := wal.written ++ wal.buffer, buffer := [], pendingCount := 0 }) := by
          rw [makeRoom, if_pos hneeds, hio, flush_ok hne]
        have henters : Enters io entry wal := ⟨hcapacity, fun _ => hio⟩
        obtain ⟨hentries, hok⟩ := @write_autoFlush io.batch entry { wal with
          written := wal.written ++ wal.buffer, buffer := [], pendingCount := 0 }
          (Nat.not_lt.mpr hcapacity) hcapacity
        rw [hbind hmade]
        refine ⟨fun _ => ?_, fun h => absurd henters h, ?_⟩
        · rw [hentries, entries, entries, List.append_nil]
        · rw [hok, and_iff_right henters, FillsBatch, if_pos hneeds]
    · -- a record that is larger than the buffer is refused, after the flush
      have hnot : ¬Enters io entry wal := fun h => hcapacity h.1
      have hkeeps : (append io entry wal).2.entries = wal.entries ∧
          (append io entry wal).1 ≠ .ok () := by
        have hroom := makeRoom_keeps io.room entry wal
        have hlen : (makeRoom io.room entry wal).2.capacity = wal.capacity := by
          rw [makeRoom, if_pos hneeds]
          exact flush_capacity io.room wal
        show (Fallible.bind (makeRoom io.room entry) _ wal).2.entries = _ ∧
          (Fallible.bind (makeRoom io.room entry) _ wal).1 ≠ _
        rw [Fallible.bind]
        generalize makeRoom io.room entry wal = made at hroom hlen
        obtain ⟨result, wal'⟩ := made
        cases result with
        | error e => exact ⟨hroom, by simp⟩
        | ok _ =>
            have hlarge : entry.serializedLen > wal'.capacity := by
              dsimp only at hlen
              omega
            obtain ⟨e, hwrite⟩ := write_of_large hlarge
            show (Fallible.bind (write entry) _ wal').2.entries = _ ∧
              (Fallible.bind (write entry) _ wal').1 ≠ _
            rw [Fallible.bind, hwrite]
            exact ⟨hroom, by simp⟩
      exact ⟨fun h => absurd h hnot, fun _ => hkeeps.1,
        iff_of_false hkeeps.2 (fun h => hnot h.1)⟩
  · -- there is room in the buffer as it is
    have hcapacity : entry.serializedLen ≤ wal.capacity := by omega
    have henters : Enters io entry wal := ⟨hcapacity, fun h => absurd h hneeds⟩
    have hmade : makeRoom io.room entry wal = (.ok (), wal) := by rw [makeRoom, if_neg hneeds]
    obtain ⟨hentries, hok⟩ := @write_autoFlush io.batch entry wal hneeds hcapacity
    rw [hbind hmade]
    refine ⟨fun _ => hentries, fun h => absurd henters h, ?_⟩
    rw [hok, and_iff_right henters, FillsBatch, if_neg hneeds]

/-- A flush that succeeds leaves nothing in the buffer. -/
lemma flush_ensures (io : Except String Unit) (wal : GroupCommitWal) :
    (flush io).Ensures wal (fun _ wal' => wal'.written = wal.entries ∧ wal'.buffer = []) := by
  intro _ wal' hrun
  unfold flush at hrun
  split at hrun
  · rename_i hempty
    obtain ⟨-, rfl⟩ := Prod.mk.inj hrun
    have hnil := List.isEmpty_iff.mp hempty
    rw [entries, hnil, List.append_nil]
    exact ⟨rfl, rfl⟩
  · cases io with
    | error e => exact absurd (congrArg Prod.fst hrun) (by simp)
    | ok _ =>
        obtain ⟨-, rfl⟩ := Prod.mk.inj hrun
        exact ⟨rfl, rfl⟩

/-- **A log that has taken an entry and has been flushed** has it on disk, after all that was there
before. -/
lemma appendAndFlush_ensures (io : FlushIo) (entry : WalEntry) (wal : GroupCommitWal) :
    (appendAndFlush io entry).Ensures wal
      (fun _ wal' => wal'.written = wal.entries ++ [entry] ∧ wal'.buffer = []) := by
  have hkeeps : ∀ {m : Fallible GroupCommitWal WalError Unit} {s : GroupCommitWal},
      Fallible.Keeps entries m → m.Ensures s (fun _ s' => s'.entries = s.entries) := by
    intro m s h _ s' hrun
    have := h s
    rwa [hrun] at this
  have happend : (append io entry).Ensures wal
      (fun _ wal' => wal'.entries = wal.entries ++ [entry]) := by
    unfold append
    refine (hkeeps (makeRoom_keeps io.room entry)).andThen (fun _ wal₁ h₁ => ?_)
    refine (write_ensures entry wal₁).andThen (fun _ wal₂ h₂ => ?_)
    intro _ wal₃ hrun
    have h₃ := hkeeps (autoFlush_keeps io.batch) _ _ hrun
    rw [h₃, h₂, h₁]
  unfold appendAndFlush
  refine happend.andThen (fun _ wal₁ h₁ => ?_)
  intro _ wal₂ hrun
  have h₂ := flush_ensures io.commit wal₁ _ _ hrun
  rwa [h₁] at h₂

end GroupCommitWal

/-! ## Durable orders -/

/-- UBSCore with its log and the queue of the Kafka publisher. -/
structure DurableCore where
  ubs : UBSCore
  wal : Option GroupCommitWal
  /-- What `order_tx` holds: order ids and payloads. -/
  orderTx : Option (List (UInt64 × Bytes))

namespace DurableCore

/-- `ORDER_QUEUE_SIZE`. -/
def ORDER_QUEUE_SIZE : ℕ := 10000

/-- Queue an order for Kafka; a full queue drops it. -/
def queueOrder (bincode : Bincode) (order : InternalOrder) (core : DurableCore) : DurableCore :=
  { core with
    orderTx := core.orderTx.map (fun queue =>
      if queue.length < ORDER_QUEUE_SIZE then queue ++ [(order.orderId, bincode.order order)]
      else queue) }

/-- `process_order_durable`: validate, write to the log if there is one, queue for Kafka. -/
def processOrderDurable (bincode : Bincode) (io : FlushIo) (order : InternalOrder)
    (clock : UInt64) : Fallible DurableCore RejectReason Unit := fun core =>
  match UBSCore.validateOrder order clock core.ubs with
  | (.error reason, ubs) => (.error reason, { core with ubs := ubs })
  | (.ok (), ubs) =>
      match core.wal with
      | none => (.ok (), queueOrder bincode order { core with ubs := ubs })
      | some wal =>
          match GroupCommitWal.appendAndFlush io (bincode.orderEntry order) wal with
          | (.error _, wal) => (.error .internalError, { core with ubs := ubs, wal := some wal })
          | (.ok (), wal) =>
              (.ok (), queueOrder bincode order { core with ubs := ubs, wal := some wal })

end DurableCore

end ExchangeCore
