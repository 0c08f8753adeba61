import ExchangeCore.Framework.Image
import ExchangeCore.Framework.Machine
import ExchangeCore.Ledger.WalSegment
import ExchangeCore.Ubs.WalReplay

/-!
# The log with group commit, on disk

`GroupCommitWal` (`wal/group_commit.rs`) with its file, byte by byte.  The log of `Ubs/Wal` keeps
entries; here a buffer of bounded capacity keeps their records, and a flush writes it into the file
at the position reached so far.  `Represents` relates the two, and every call of the one simulates
the call of the other, whatever the operating system answers (`appendRecord_simulates`,
`flush_simulates`).

So a log that has been flushed holds on disk the records of the entries that have got into the
buffer, and replay delivers these.  They are the entries accepted with `Ok`, unless an append fails
in the flush it makes after buffering its entry: that entry stays behind.
-/

namespace ExchangeCore

structure AlignedBuffer where
  capacity : ℕ
  bytes : Bytes
  bytes_le : bytes.length ≤ capacity

namespace AlignedBuffer

def withCapacity (capacity : ℕ) : AlignedBuffer := ⟨capacity, [], Nat.zero_le _⟩

def remaining (buffer : AlignedBuffer) : ℕ := buffer.capacity - buffer.bytes.length

/-- `write`: `none` if there is not enough space. -/
def write (data : Bytes) (buffer : AlignedBuffer) : Option AlignedBuffer :=
  if h : data.length > buffer.remaining then none
  else some
    { capacity := buffer.capacity
      bytes := buffer.bytes ++ data
      bytes_le := by
        have := buffer.bytes_le
        rw [remaining] at h
        rw [List.length_append]
        omega }

def clear (buffer : AlignedBuffer) : AlignedBuffer := withCapacity buffer.capacity

end AlignedBuffer

/-- `GroupCommitConfig`; an `AlignedBuffer` asserts that it is not empty. -/
structure GroupCommitConfig where
  maxBatchSize : ℕ
  bufferSize : ℕ
  bufferSize_pos : 0 < bufferSize
  preAllocSize : ℕ

/-- What becomes of a flush: it is written and synced, or the write fails after some bytes, or the
sync fails. -/
inductive FlushOutcome
  | synced
  | writeFailed (written : ℕ) (e : String)
  | syncFailed (e : String)
  deriving DecidableEq

/-- The answer of the operating system. -/
def FlushOutcome.answer : FlushOutcome → Except String Unit
  | .synced => .ok ()
  | .writeFailed _ e => .error e
  | .syncFailed e => .error e

/-- How an append ends early: with an error, or in the assertion of the serializer. -/
inductive AppendFailure
  | error (e : WalError)
  | panic (message : String)
  deriving DecidableEq

namespace OnDisk

structure GroupCommitWal where
  file : Image
  buffer : AlignedBuffer
  pendingCount : ℕ
  config : GroupCommitConfig
  totalEntries : ℕ
  bytesWritten : ℕ

namespace GroupCommitWal

/-- A log that goes on at a position of a file. -/
def startAt (config : GroupCommitConfig) (file : Image) (position : ℕ) : GroupCommitWal where
  file := file
  buffer := .withCapacity config.bufferSize
  pendingCount := 0
  config := config
  totalEntries := 0
  bytesWritten := position

/-- `create`: a new file, filled with zeros up to the size to be allocated. -/
def create (config : GroupCommitConfig) : GroupCommitWal :=
  startAt config (.zeroed config.preAllocSize) 0

def findWritePosition (file : Image) : ℕ :=
  if file.len = 0 then 0
  else
    match file.readExact 0 4 with
    | some header => if UInt32.ofNat (Bytes.toNatLe header) = 0 then 0 else file.len
    | none => file.len

/-- The file `open` works on: allocated to its size if it is shorter. -/
def allocate (config : GroupCommitConfig) (file : Image) : Image :=
  if config.preAllocSize > 0 ∧ file.len < config.preAllocSize then file.extend config.preAllocSize
  else file

/-- `open`, of an existing file or of one it creates. -/
def openFile (config : GroupCommitConfig) (existing : Option Image) : GroupCommitWal :=
  let file := allocate config (existing.getD (.zeroed 0))
  startAt config file (findWritePosition file)

def flush (io : FlushOutcome) : Fallible GroupCommitWal WalError Unit := fun wal =>
  if wal.buffer.bytes.isEmpty then (.ok (), wal)
  else
    match io with
    | .writeFailed written e => (.error (.ioError e),
        { wal with file := wal.file.overwrite wal.bytesWritten (wal.buffer.bytes.take written) })
    | .syncFailed e => (.error (.ioError e),
        { wal with file := wal.file.overwrite wal.bytesWritten wal.buffer.bytes })
    | .synced => (.ok (),
        { wal with
          file := wal.file.overwrite wal.bytesWritten wal.buffer.bytes
          bytesWritten := wal.bytesWritten + wal.buffer.bytes.length
          buffer := wal.buffer.clear
          pendingCount := 0 })

/-- The flush `append` makes if the record does not fit into the rest of the buffer. -/
def makeRoom (io : FlushOutcome) (serialized : Bytes) : Fallible GroupCommitWal WalError Unit :=
  fun wal => if serialized.length > wal.buffer.remaining then flush io wal else (.ok (), wal)

/-- Write the record into the buffer. -/
def write (serialized : Bytes) : Fallible GroupCommitWal WalError Unit := fun wal =>
  let len := serialized.length
  let capacity := wal.buffer.capacity
  if len > capacity then
    (.error (.ioError s!"Entry too large: {len} > buffer capacity {capacity}"), wal)
  else
    match wal.buffer.write serialized with
    | none => (.error (.ioError "Buffer write failed"), wal)
    | some buffer => (.ok (),
        { wal with
          buffer := buffer
          pendingCount := wal.pendingCount + 1
          totalEntries := wal.totalEntries + 1 })

/-- The flush `append` makes if the batch is full. -/
def autoFlush (io : FlushOutcome) : Fallible GroupCommitWal WalError Unit := fun wal =>
  if wal.pendingCount ≥ wal.config.maxBatchSize then flush io wal else (.ok (), wal)

/-- `append`, once the entry is serialized; `room` and `batch` are the outcomes of the flushes it
may make. -/
def appendRecord (room batch : FlushOutcome) (serialized : Bytes) :
    Fallible GroupCommitWal WalError Unit := do
  makeRoom room serialized
  write serialized
  autoFlush batch

def append (crc32 : Bytes → UInt32) (room batch : FlushOutcome) (entry : WalEntry) :
    Fallible GroupCommitWal AppendFailure Unit := fun wal =>
  match entry.serialize crc32 with
  | .error (.panic message) => (.error (.panic message), wal)
  | .error (.error message) => (.error (.error (.ioError message)), wal)
  | .ok serialized =>
      let (result, wal) := appendRecord room batch serialized wal
      (result.mapError .error, wal)

end GroupCommitWal

/-- A call of the log. -/
inductive LogCall
  | append (room batch : FlushOutcome) (entry : WalEntry)
  | flush (io : FlushOutcome)

/-- The log as a machine: it answers `Ok` or how the call failed. -/
def logMachine (crc32 : Bytes → UInt32) :
    Machine GroupCommitWal LogCall (Except AppendFailure Unit) where
  step wal
    | .append room batch entry =>
        let (result, wal) := wal.append crc32 room batch entry
        (wal, result)
    | .flush io =>
        let (result, wal) := wal.flush io
        (wal, result.mapError .error)

/-! ## The log the bytes stand for -/

namespace GroupCommitWal

/-- The file starts with `pre`, which was there before; then come the records of the entries written
and those a failed flush has got through, and the rest is zero, no more than at the start.  The
buffer holds the records of the entries not yet written. -/
structure Represents (crc32 : Bytes → UInt32) (pre : Bytes) (spare : ℕ) (disk : GroupCommitWal)
    (log : ExchangeCore.GroupCommitWal) : Prop where
  maxBatchSize : disk.config.maxBatchSize = log.maxBatchSize
  capacity : disk.buffer.capacity = log.capacity
  buffer : disk.buffer.bytes = WalEntry.records crc32 log.buffer
  pendingCount : disk.pendingCount = log.pendingCount
  bytesWritten : disk.bytesWritten = (pre ++ WalEntry.records crc32 log.written).length
  file : ∃ k m, k ≤ disk.buffer.bytes.length ∧ m ≤ spare ∧ disk.file.bytes =
    pre ++ WalEntry.records crc32 log.written ++ (disk.buffer.bytes.take k ++ List.replicate m 0)

variable {crc32 : Bytes → UInt32} {pre : Bytes} {spare : ℕ} {disk : GroupCommitWal}
  {log : ExchangeCore.GroupCommitWal} {entry : WalEntry}

lemma startAt_represents (config : GroupCommitConfig) {file : Image} {m : ℕ}
    (hfile : file.bytes = pre ++ List.replicate m 0) :
    Represents crc32 pre m (startAt config file pre.length)
      ⟨config.maxBatchSize, config.bufferSize, [], 0, []⟩ where
  maxBatchSize := rfl
  capacity := rfl
  buffer := rfl
  pendingCount := rfl
  bytesWritten := by rw [WalEntry.records_nil, List.append_nil]; rfl
  file := ⟨0, m, Nat.zero_le _, Nat.le_refl _, by
    rw [WalEntry.records_nil, List.append_nil, List.take_zero, List.nil_append]; exact hfile⟩

lemma Represents.length_buffer (h : Represents crc32 pre spare disk log) :
    disk.buffer.bytes.length = log.bufferLen := by
  rw [h.buffer, WalEntry.length_records, ExchangeCore.GroupCommitWal.bufferLen]

lemma Represents.isEmpty_buffer (h : Represents crc32 pre spare disk log) :
    disk.buffer.bytes.isEmpty = log.buffer.isEmpty := by
  rw [h.buffer]
  cases log.buffer with
  | nil => rfl
  | cons entry entries =>
      have hpos : 0 < (WalEntry.records crc32 (entry :: entries)).length := by
        rw [WalEntry.records_cons, List.length_append, WalEntry.length_record,
          WalEntry.serializedLen]
        omega
      rw [List.isEmpty_cons, List.isEmpty_eq_false_iff]
      exact List.ne_nil_of_length_pos hpos

/-- Writing a beginning of the buffer over a beginning of the buffer. -/
lemma Represents.bytes_overwrite (h : Represents crc32 pre spare disk log) (written : ℕ) :
    ∃ k m, k ≤ disk.buffer.bytes.length ∧ m ≤ spare ∧
      (disk.file.overwrite disk.bytesWritten (disk.buffer.bytes.take written)).bytes =
        pre ++ WalEntry.records crc32 log.written ++
          (disk.buffer.bytes.take k ++ List.replicate m 0) := by
  obtain ⟨k, m, hk, hm, hfile⟩ := h.file
  have hover := Image.bytes_overwrite hfile h.bytesWritten.symm (disk.buffer.bytes.take written)
  by_cases hle : k ≤ written
  · -- The write covers what an earlier one has left.
    refine ⟨min written disk.buffer.bytes.length, m - (min written disk.buffer.bytes.length - k),
      Nat.min_le_right _ _, (Nat.sub_le _ _).trans hm, ?_⟩
    rw [hover, List.append_assoc]
    congr 1
    rw [← List.take_eq_take_min]
    congr 1
    rw [List.length_take, List.drop_append, List.length_take, Nat.min_eq_left hk,
      List.drop_eq_nil_of_le (by rw [List.length_take]; omega), List.nil_append,
      List.drop_replicate]
  · refine ⟨k, m, hk, hm, ?_⟩
    have hsplit : disk.buffer.bytes.take k = disk.buffer.bytes.take written ++
        (disk.buffer.bytes.take k).drop written := by
      conv_lhs => rw [← List.take_append_drop written (disk.buffer.bytes.take k)]
      rw [List.take_take, Nat.min_eq_left (by omega)]
    have hlen : (disk.buffer.bytes.take written).length = written := by
      rw [List.length_take]
      omega
    rw [hover, hlen, List.append_assoc]
    congr 1
    rw [List.drop_append_of_le_length (by rw [List.length_take]; omega), ← List.append_assoc,
      ← hsplit]

lemma flush_simulates (crc32 : Bytes → UInt32) (pre : Bytes) (spare : ℕ) (io : FlushOutcome) :
    Fallible.Simulates (Represents crc32 pre spare) (flush io)
      (ExchangeCore.GroupCommitWal.flush io.answer) := by
  intro disk log h
  unfold flush ExchangeCore.GroupCommitWal.flush
  rw [h.isEmpty_buffer]
  split
  · exact ⟨rfl, h⟩
  cases io with
  | writeFailed written e => exact ⟨rfl, { h with file := h.bytes_overwrite written }⟩
  | syncFailed e =>
      have hwritten := h.bytes_overwrite disk.buffer.bytes.length
      rw [List.take_length] at hwritten
      exact ⟨rfl, { h with file := hwritten }⟩
  | synced =>
      obtain ⟨k, m, hk, hm, hfile⟩ := h.file
      have hover := Image.bytes_overwrite hfile h.bytesWritten.symm disk.buffer.bytes
      have hrecords : WalEntry.records crc32 (log.written ++ log.buffer) =
          WalEntry.records crc32 log.written ++ disk.buffer.bytes := by
        rw [WalEntry.records_append, h.buffer]
      refine ⟨rfl, ⟨h.maxBatchSize, h.capacity, rfl, rfl, ?_, 0, m - (disk.buffer.bytes.length - k),
        Nat.zero_le _, (Nat.sub_le _ _).trans hm, ?_⟩⟩
      · show disk.bytesWritten + disk.buffer.bytes.length =
          (pre ++ WalEntry.records crc32 (log.written ++ log.buffer)).length
        rw [hrecords, h.bytesWritten, List.length_append, List.length_append, List.length_append]
        omega
      · show (disk.file.overwrite disk.bytesWritten disk.buffer.bytes).bytes =
          pre ++ WalEntry.records crc32 (log.written ++ log.buffer) ++
            ([] ++ List.replicate (m - (disk.buffer.bytes.length - k)) 0)
        rw [hover, hrecords, ← List.append_assoc pre, List.nil_append]
        congr 1
        rw [List.drop_append, List.drop_eq_nil_of_le (by rw [List.length_take]; omega),
          List.nil_append, List.drop_replicate, List.length_take, Nat.min_eq_left hk]

lemma makeRoom_simulates (crc32 : Bytes → UInt32) (pre : Bytes) (spare : ℕ) (io : FlushOutcome)
    (entry : WalEntry) :
    Fallible.Simulates (Represents crc32 pre spare) (makeRoom io (entry.record crc32))
      (ExchangeCore.GroupCommitWal.makeRoom io.answer entry) := by
  intro disk log h
  rw [makeRoom, ExchangeCore.GroupCommitWal.makeRoom, WalEntry.length_record,
    AlignedBuffer.remaining, h.capacity, h.length_buffer]
  split
  · exact flush_simulates crc32 pre spare io disk log h
  · exact ⟨rfl, h⟩

lemma write_simulates (crc32 : Bytes → UInt32) (pre : Bytes) (spare : ℕ) (entry : WalEntry) :
    Fallible.Simulates (Represents crc32 pre spare) (write (entry.record crc32))
      (ExchangeCore.GroupCommitWal.write entry) := by
  intro disk log h
  have hremaining : disk.buffer.remaining = log.capacity - log.bufferLen := by
    rw [AlignedBuffer.remaining, h.capacity, h.length_buffer]
  simp only [write, ExchangeCore.GroupCommitWal.write, WalEntry.length_record, h.capacity]
  split
  · exact ⟨rfl, h⟩
  by_cases hfull : entry.serializedLen > log.capacity - log.bufferLen
  · have hnone : disk.buffer.write (entry.record crc32) = none :=
      dif_pos (by rwa [WalEntry.length_record, hremaining])
    rw [hnone, if_pos hfull]
    exact ⟨rfl, h⟩
  · have hroom : ¬(entry.record crc32).length > disk.buffer.remaining := by
      rwa [WalEntry.length_record, hremaining]
    rw [AlignedBuffer.write, dif_neg hroom, if_neg hfull]
    obtain ⟨k, m, hk, hm, hfile⟩ := h.file
    refine ⟨rfl, ⟨h.maxBatchSize, h.capacity, ?_, ?_, h.bytesWritten, k, m, ?_, hm, ?_⟩⟩
    · show disk.buffer.bytes ++ entry.record crc32 = _
      rw [h.buffer, WalEntry.records_append, WalEntry.records_cons, WalEntry.records_nil,
        List.append_nil]
    · show disk.pendingCount + 1 = log.pendingCount + 1
      rw [h.pendingCount]
    · show k ≤ (disk.buffer.bytes ++ entry.record crc32).length
      rw [List.length_append]
      omega
    · show disk.file.bytes = _ ++ ((disk.buffer.bytes ++ entry.record crc32).take k ++ _)
      rw [List.take_append_of_le_length hk, hfile]

lemma autoFlush_simulates (crc32 : Bytes → UInt32) (pre : Bytes) (spare : ℕ) (io : FlushOutcome) :
    Fallible.Simulates (Represents crc32 pre spare) (autoFlush io)
      (ExchangeCore.GroupCommitWal.autoFlush io.answer) := by
  intro disk log h
  rw [autoFlush, ExchangeCore.GroupCommitWal.autoFlush, h.pendingCount, h.maxBatchSize]
  split
  · exact flush_simulates crc32 pre spare io disk log h
  · exact ⟨rfl, h⟩

/-- **Appending a record is appending the entry.** -/
lemma appendRecord_simulates (crc32 : Bytes → UInt32) (pre : Bytes) (spare : ℕ) (io : FlushIo)
    (room batch : FlushOutcome) (hroom : io.room = room.answer) (hbatch : io.batch = batch.answer)
    (entry : WalEntry) :
    Fallible.Simulates (Represents crc32 pre spare) (appendRecord room batch (entry.record crc32))
      (ExchangeCore.GroupCommitWal.append io entry) := by
  rw [appendRecord, ExchangeCore.GroupCommitWal.append, hroom, hbatch]
  refine Fallible.Simulates.bind (makeRoom_simulates crc32 pre spare room entry) (fun _ => ?_)
  refine Fallible.Simulates.bind (write_simulates crc32 pre spare entry) (fun _ => ?_)
  exact autoFlush_simulates crc32 pre spare batch

/-! ## What gets onto the disk -/

/-- The entry fits its record and gets into the buffer. -/
def Enters (room : FlushOutcome) (entry : WalEntry) (disk : GroupCommitWal) : Prop :=
  entry.Fits ∧ entry.serializedLen ≤ disk.buffer.capacity ∧
    (entry.serializedLen > disk.buffer.remaining → room = .synced)

/-- With the entry in the buffer the batch is full. -/
def FillsBatch (entry : WalEntry) (disk : GroupCommitWal) : Prop :=
  disk.config.maxBatchSize ≤
    (if entry.serializedLen > disk.buffer.remaining then 0 else disk.pendingCount) + 1

/-- The append fails in the flush it makes with its entry in the buffer. -/
def LeavesBehind (disk : GroupCommitWal) : LogCall → Prop
  | .append room batch entry =>
      Enters room entry disk ∧ FillsBatch entry disk ∧ batch ≠ .synced
  | .flush _ => False

/-- Behind `pre` the log has taken these entries, on disk or still in the buffer. -/
def Holds (crc32 : Bytes → UInt32) (pre : Bytes) (spare : ℕ) (disk : GroupCommitWal)
    (entries : List WalEntry) : Prop :=
  (∀ entry ∈ entries, entry.Fits) ∧
    ∃ log, Represents crc32 pre spare disk log ∧ log.entries = entries

end GroupCommitWal

/-- The entries of the appends that have been answered with `Ok`. -/
def accepted (calls : List LogCall) (answers : List (Except AppendFailure Unit)) : List WalEntry :=
  (calls.zip answers).filterMap (fun
    | (.append _ _ entry, .ok _) => some entry
    | _ => none)

section Accepted

variable {room batch : FlushOutcome} {entry : WalEntry} {calls : List LogCall}
  {answer : Except AppendFailure Unit} {answers : List (Except AppendFailure Unit)}

lemma accepted_flush (io : FlushOutcome) :
    accepted (.flush io :: calls) (answer :: answers) = accepted calls answers := rfl

lemma accepted_append_ok : accepted (.append room batch entry :: calls) (.ok () :: answers) =
    entry :: accepted calls answers := rfl

lemma accepted_append_error (h : answer ≠ .ok ()) :
    accepted (.append room batch entry :: calls) (answer :: answers) = accepted calls answers := by
  rcases answer with e | _
  · rfl
  · exact absurd rfl h

end Accepted

lemma logMachine_append (crc32 : Bytes → UInt32) (disk : GroupCommitWal)
    (room batch : FlushOutcome) (entry : WalEntry) :
    (logMachine crc32).step disk (.append room batch entry) =
      ((disk.append crc32 room batch entry).2, (disk.append crc32 room batch entry).1) := rfl

namespace GroupCommitWal

variable {entries : List WalEntry}

lemma answer_eq_ok (io : FlushOutcome) : io.answer = .ok () ↔ io = .synced := by
  cases io with
  | synced => exact iff_of_true rfl rfl
  | writeFailed written e => exact iff_of_false (by simp [FlushOutcome.answer]) (by simp)
  | syncFailed e => exact iff_of_false (by simp [FlushOutcome.answer]) (by simp)

lemma Represents.enters_iff (h : Represents crc32 pre spare disk log) {io : FlushIo}
    {room : FlushOutcome} (hroom : io.room = room.answer) (hfits : entry.Fits) :
    Enters room entry disk ↔ ExchangeCore.GroupCommitWal.Enters io entry log := by
  rw [Enters, ExchangeCore.GroupCommitWal.Enters, and_iff_right hfits, h.capacity,
    AlignedBuffer.remaining, h.capacity, h.length_buffer, hroom, answer_eq_ok]

lemma Represents.fillsBatch_iff (h : Represents crc32 pre spare disk log) :
    FillsBatch entry disk ↔ ExchangeCore.GroupCommitWal.FillsBatch entry log := by
  rw [FillsBatch, ExchangeCore.GroupCommitWal.FillsBatch, h.maxBatchSize, AlignedBuffer.remaining,
    h.capacity, h.length_buffer, h.pendingCount]

/-- What one append does: the entry that gets into the buffer stays, whatever is answered. -/
lemma append_spec (h : Holds crc32 pre spare disk entries) (room batch : FlushOutcome)
    (entry : WalEntry) :
    (Enters room entry disk →
        Holds crc32 pre spare (append crc32 room batch entry disk).2 (entries ++ [entry])) ∧
      (¬Enters room entry disk →
        Holds crc32 pre spare (append crc32 room batch entry disk).2 entries) ∧
      ((append crc32 room batch entry disk).1 = .ok () ↔
        Enters room entry disk ∧ (FillsBatch entry disk → batch = .synced)) := by
  obtain ⟨hall, log, hrep, hentries⟩ := h
  by_cases hfits : entry.Fits
  · -- the entry has a record, and the append is the one of the abstract log
    let io : FlushIo := ⟨room.answer, batch.answer, .ok ()⟩
    have hrun : append crc32 room batch entry disk =
        ((appendRecord room batch (entry.record crc32) disk).1.mapError .error,
          (appendRecord room batch (entry.record crc32) disk).2) := by
      rw [append, WalEntry.serialize_of_fits hfits]
    have hok : ∀ r : Except WalError Unit,
        r.mapError AppendFailure.error = .ok () ↔ r = .ok () := by
      intro r
      rcases r with e | _
      · exact iff_of_false (by simp [Except.mapError]) (by simp)
      · exact iff_of_true rfl rfl
    obtain ⟨hanswer, hrep'⟩ :=
      appendRecord_simulates crc32 pre spare io room batch rfl rfl entry disk log hrep
    obtain ⟨hin, hout, hiff⟩ := ExchangeCore.GroupCommitWal.append_spec io entry log
    have henters : Enters room entry disk ↔ ExchangeCore.GroupCommitWal.Enters io entry log :=
      hrep.enters_iff rfl hfits
    rw [hrun, henters, hrep.fillsBatch_iff]
    refine ⟨fun hent => ⟨?_, _, hrep', ?_⟩, fun hent => ⟨hall, _, hrep', ?_⟩, ?_⟩
    · intro e he
      rcases List.mem_append.mp he with he | he
      · exact hall e he
      · rwa [List.mem_singleton.mp he]
    · rw [hin hent, hentries]
    · rw [hout hent, hentries]
    · dsimp only
      rw [hok, hanswer, hiff, ← answer_eq_ok batch]
  · -- the entry does not fit a record: the serialiser panics before the buffer is touched
    obtain ⟨message, hpanic⟩ := @WalEntry.serialize_of_not_fits crc32 entry hfits
    have hrun : append crc32 room batch entry disk = (.error (.panic message), disk) := by
      rw [append, hpanic]
    have hnot : ¬Enters room entry disk := fun h => hfits h.1
    rw [hrun]
    exact ⟨fun h => absurd h hnot, fun _ => ⟨hall, log, hrep, hentries⟩,
      iff_of_false (by simp) (fun h => hnot h.1)⟩

lemma flush_holds (h : Holds crc32 pre spare disk entries) (io : FlushOutcome) :
    Holds crc32 pre spare (flush io disk).2 entries := by
  obtain ⟨hall, log, hrep, hentries⟩ := h
  obtain ⟨-, hrep'⟩ := flush_simulates crc32 pre spare io disk log hrep
  exact ⟨hall, _, hrep', (ExchangeCore.GroupCommitWal.flush_keeps io.answer log).trans hentries⟩

lemma flush_bytes (h : Holds crc32 pre spare disk entries) :
    ∃ m ≤ spare, (flush .synced disk).2.file.bytes =
      pre ++ WalEntry.records crc32 entries ++ List.replicate m 0 := by
  obtain ⟨-, log, hrep, rfl⟩ := h
  obtain ⟨hanswer, hrep'⟩ := flush_simulates crc32 pre spare .synced disk log hrep
  have hflushed : ExchangeCore.GroupCommitWal.flush FlushOutcome.synced.answer log =
      (.ok (), (ExchangeCore.GroupCommitWal.flush FlushOutcome.synced.answer log).2) := by
    refine Prod.ext ?_ rfl
    unfold ExchangeCore.GroupCommitWal.flush
    split
    · rfl
    · rfl
  obtain ⟨hwritten, hbuffer⟩ :=
    ExchangeCore.GroupCommitWal.flush_ensures FlushOutcome.synced.answer log _ _ hflushed
  obtain ⟨k, m, -, hm, hfile⟩ := hrep'.file
  refine ⟨m, hm, ?_⟩
  rw [hfile, hwritten, hrep'.buffer, hbuffer, WalEntry.records_nil, List.take_nil, List.nil_append]

/-- **A run of the log**: what it holds afterwards are the entries accepted, in order, with those
among them that an append has left behind. -/
lemma run_holds (h : Holds crc32 pre spare disk entries) (calls : List LogCall) :
    ∃ kept, Holds crc32 pre spare ((logMachine crc32).run disk calls) (entries ++ kept) ∧
      (accepted calls ((logMachine crc32).answers disk calls)).length ≤ kept.length ∧
      (accepted calls ((logMachine crc32).answers disk calls) = kept ↔
        (logMachine crc32).AllSteps (fun disk call => ¬disk.LeavesBehind call) disk calls) := by
  induction calls generalizing disk entries with
  | nil => exact ⟨[], by rwa [List.append_nil], Nat.le_refl _, iff_of_true rfl trivial⟩
  | cons call calls ih =>
      rw [Machine.run_cons, Machine.answers_cons, Machine.AllSteps]
      cases call with
      | flush io =>
          obtain ⟨kept, hholds, hle, hiff⟩ := ih (flush_holds h io)
          have hnot : ¬LeavesBehind disk (.flush io) := not_false
          rw [accepted_flush, and_iff_right hnot]
          exact ⟨kept, hholds, hle, hiff⟩
      | append room batch entry =>
          obtain ⟨hin, hout, hok⟩ := append_spec h room batch entry
          rw [logMachine_append]
          by_cases henters : Enters room entry disk
          · obtain ⟨kept, hholds, hle, hiff⟩ := ih (hin henters)
            rw [List.append_assoc] at hholds
            refine ⟨entry :: kept, hholds, ?_⟩
            -- in the buffer: answered with success, unless the batch it fills cannot be written
            by_cases hbatch : FillsBatch entry disk → batch = .synced
            · have hnot : ¬LeavesBehind disk (.append room batch entry) :=
                fun hleft => hleft.2.2 (hbatch hleft.2.1)
              rw [hok.mpr ⟨henters, hbatch⟩, accepted_append_ok, List.length_cons, List.length_cons,
                List.cons.injEq, and_iff_right rfl, and_iff_right hnot]
              exact ⟨Nat.succ_le_succ hle, hiff⟩
            · -- Kept, although the append has failed: one entry too many from here on.
              have hleft : LeavesBehind disk (.append room batch entry) := by
                rw [Classical.not_imp] at hbatch
                exact ⟨henters, hbatch.1, hbatch.2⟩
              rw [accepted_append_error (fun hans => hbatch (hok.mp hans).2), List.length_cons]
              refine ⟨Nat.le_succ_of_le hle, iff_of_false ?_ (fun hall => hall.1 hleft)⟩
              intro heq
              have hlen := congrArg List.length heq
              rw [List.length_cons] at hlen
              exact absurd hle (Nat.not_le.mpr (Nat.lt_of_succ_le hlen.ge))
          · obtain ⟨kept, hholds, hle, hiff⟩ := ih (hout henters)
            have hnot : ¬LeavesBehind disk (.append room batch entry) := fun h => henters h.1
            rw [accepted_append_error (fun hans => henters (hok.mp hans).1), and_iff_right hnot]
            exact ⟨kept, hholds, hle, hiff⟩

lemma create_holds (crc32 : Bytes → UInt32) (config : GroupCommitConfig) :
    Holds crc32 [] config.preAllocSize (create config) [] := by
  have hzeros : (Image.zeroed config.preAllocSize).bytes =
      [] ++ List.replicate config.preAllocSize 0 := Image.bytes_zeroed _
  exact ⟨by simp, _, startAt_represents config hzeros, rfl⟩

lemma Holds.delivers_iff (h : Holds crc32 [] spare disk entries) {es : List WalEntry} :
    WalReplay.Delivers crc32 (flush .synced disk).2.file.bytes es ↔ es = entries := by
  obtain ⟨m, -, hfile⟩ := flush_bytes h
  rw [WalReplay.delivers_iff, hfile, List.nil_append, WalReplay.entriesOf_records h.1, eq_comm]

lemma run_concat_flush (crc32 : Bytes → UInt32) (disk : GroupCommitWal) (calls : List LogCall) :
    ((logMachine crc32).run disk (calls ++ [.flush .synced])).file =
      (flush .synced ((logMachine crc32).run disk calls)).2.file := by
  rw [Machine.run_append]
  rfl

end GroupCommitWal

/-- **Failed flushes.**  Whatever becomes of the flushes of a new log, after a final one that
succeeds replay delivers the entries accepted with `Ok`, each once and in order, exactly if no
append has failed in the flush it makes with its entry in the buffer. -/
theorem accepted_replayed_iff (crc32 : Bytes → UInt32) (config : GroupCommitConfig)
    (calls : List LogCall) :
    WalReplay.Delivers crc32
        ((logMachine crc32).run (.create config) (calls ++ [.flush .synced])).file.bytes
        (accepted calls ((logMachine crc32).answers (.create config) calls)) ↔
      (logMachine crc32).AllSteps (fun disk call => ¬disk.LeavesBehind call) (.create config)
        calls := by
  obtain ⟨kept, hholds, -, hiff⟩ :=
    GroupCommitWal.run_holds (GroupCommitWal.create_holds crc32 config) calls
  rw [List.nil_append] at hholds
  rw [GroupCommitWal.run_concat_flush, hholds.delivers_iff, hiff]

lemma small_buffer_pos : 0 < 64 := Nat.succ_pos 63

/-- A log that flushes after every entry. -/
def smallBatches : GroupCommitConfig := ⟨1, 64, small_buffer_pos, 0⟩

/-- A deposit. -/
def depositEntry : WalEntry := ⟨.deposit, [1, 2, 3]⟩

theorem rejected_entry_replayed :
    accepted [.append .synced (.syncFailed "EIO") depositEntry]
        ((logMachine LedgerCodec.crc32Ieee).answers (.create smallBatches)
          [.append .synced (.syncFailed "EIO") depositEntry]) = [] ∧
      ¬WalReplay.Delivers LedgerCodec.crc32Ieee
        ((logMachine LedgerCodec.crc32Ieee).run (.create smallBatches)
          [.append .synced (.syncFailed "EIO") depositEntry, .flush .synced]).file.bytes [] := by
  rw [WalReplay.delivers_iff]
  refine ⟨by decide +kernel, ?_⟩
  decide +kernel

/-! ## A session without failures -/

/-- A call of a session in which all I/O succeeds. -/
inductive SessionCall
  | append (entry : WalEntry)
  | flush

/-- The call, with what becomes of its flushes. -/
def SessionCall.synced : SessionCall → LogCall
  | .append entry => .append .synced .synced entry
  | .flush => .flush .synced

lemma allSteps_synced (crc32 : Bytes → UInt32) (disk : GroupCommitWal)
    (calls : List SessionCall) :
    (logMachine crc32).AllSteps (fun disk call => ¬disk.LeavesBehind call) disk
      (calls.map SessionCall.synced) := by
  induction calls generalizing disk with
  | nil => trivial
  | cons call calls ih =>
      refine ⟨?_, ih _⟩
      cases call with
      | append entry => exact fun hleft => hleft.2.2 rfl
      | flush => exact not_false

/-- **One session.**  If all I/O succeeds, replay delivers exactly the entries whose append has
returned `Ok`, for every batch size, every buffer and every size allocated. -/
theorem session_replayed (crc32 : Bytes → UInt32) (config : GroupCommitConfig)
    (calls : List SessionCall) :
    WalReplay.Delivers crc32
      ((logMachine crc32).run (.create config)
        (calls.map SessionCall.synced ++ [.flush .synced])).file.bytes
      (accepted (calls.map SessionCall.synced)
        ((logMachine crc32).answers (.create config) (calls.map SessionCall.synced))) := by
  obtain ⟨kept, hholds, -, hiff⟩ := GroupCommitWal.run_holds
    (GroupCommitWal.create_holds crc32 config) (calls.map SessionCall.synced)
  rw [List.nil_append] at hholds
  rw [GroupCommitWal.run_concat_flush, hholds.delivers_iff]
  exact hiff.mpr (allSteps_synced crc32 _ calls)

end OnDisk

end ExchangeCore
