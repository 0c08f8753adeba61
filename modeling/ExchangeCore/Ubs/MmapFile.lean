import ExchangeCore.Framework.Blocks
import ExchangeCore.Ubs.GroupCommitFile

/-!
# The memory-mapped log on its file

`MmapWal` of `wal/mmap_wal.rs`.  `open` looks for the end of the written data by the lengths it
reads at the start of each entry (`find_cursor`); `append` copies the record to the cursor.  The map
is the file: what a session has appended is what the next one opens.

`find_cursor` reads the header of a record little-endian and counts nine bytes besides it, but the
header is big-endian, with the version in its highest byte, and what it counts includes the type.
So it goes through the records as through blocks of another format, and finds their end exactly if
they also split into such blocks (`mmap_reopened_iff`).
-/

namespace ExchangeCore

namespace OnDisk

structure MmapWal where
  mmap : Image
  cursor : ℕ
  totalEntries : ℕ

namespace MmapWal

def defaultFileSize : ℕ := 64 * 1024 * 1024

/-- What `find_cursor` skips besides the length it has read: length, checksum and type. -/
def entryOverhead : ℕ := 4 + 4 + 1

def findCursor (mmap : Image) : ℕ := Blocks.skip entryOverhead mmap mmap.len 0

/-- `open`, on the file if it exists. -/
def openFile (file : Option Image) : MmapWal :=
  let mmap := (file.getD (.zeroed 0)).extend defaultFileSize
  ⟨mmap, findCursor mmap, 0⟩

/-- The copy of a serialized entry to the cursor. -/
def appendRecord (serialized : Bytes) : Fallible MmapWal WalError Unit := fun wal =>
  if h : wal.cursor + serialized.length > wal.mmap.len then (.error (.ioError "WAL full"), wal)
  else
    (.ok (),
      { wal with
        mmap := wal.mmap.write wal.cursor serialized (Nat.le_of_not_lt h)
        cursor := wal.cursor + serialized.length
        totalEntries := wal.totalEntries + 1 })

def append (crc32 : Bytes → UInt32) (entry : WalEntry) : Fallible MmapWal AppendFailure Unit :=
  fun wal =>
    match entry.serialize crc32 with
    | .error (.panic message) => (.error (.panic message), wal)
    | .error (.error message) => (.error (.error (.ioError message)), wal)
    | .ok serialized =>
        let (result, wal) := appendRecord serialized wal
        (result.mapError .error, wal)

end MmapWal

/-- A call on the file: a session begins, or appends. -/
inductive MmapCall
  | openFile
  | append (entry : WalEntry)

/-- The file with what the last session knows of it, once there has been one, and the entries whose
append has returned `Ok`. -/
structure MmapHistory where
  wal : Option MmapWal
  appended : List WalEntry

namespace MmapHistory

/-- No file yet. -/
def fresh : MmapHistory := ⟨none, []⟩

/-- The file. -/
def file (s : MmapHistory) : Option Image := s.wal.map MmapWal.mmap

/-- What there is to read. -/
def bytes (s : MmapHistory) : Bytes := s.file.elim [] Image.bytes

/-- `append` in the session that is open. -/
def append (crc32 : Bytes → UInt32) (entry : WalEntry) (s : MmapHistory) : MmapHistory :=
  match s.wal with
  | none => s
  | some wal =>
      match wal.append crc32 entry with
      | (.ok _, wal') => ⟨some wal', s.appended ++ [entry]⟩
      | (.error _, wal') => ⟨some wal', s.appended⟩

end MmapHistory

/-- The sessions on a file as a machine. -/
def mmapMachine (crc32 : Bytes → UInt32) : Machine MmapHistory MmapCall Unit where
  step s
    | .openFile => (⟨some (MmapWal.openFile s.file), s.appended⟩, ())
    | .append entry => (s.append crc32 entry, ())

/-! ## The log the bytes stand for -/

namespace MmapWal

/-- The records of the entries are what has been written, and the cursor is behind them. -/
structure Represents (crc32 : Bytes → UInt32) (disk : MmapWal) (log : ExchangeCore.MmapWal) :
    Prop where
  size : disk.mmap.len = log.size
  cursor : disk.cursor = log.cursor
  data : disk.mmap.data = WalEntry.records crc32 log.entries
  cursor_eq : disk.cursor = disk.mmap.data.length

variable {crc32 : Bytes → UInt32} {disk : MmapWal} {log : ExchangeCore.MmapWal} {entry : WalEntry}

lemma appendRecord_simulates (crc32 : Bytes → UInt32) (entry : WalEntry) :
    Fallible.Simulates (Represents crc32) (appendRecord (entry.record crc32))
      (ExchangeCore.MmapWal.append entry) := by
  intro disk log h
  have hfull : disk.cursor + (entry.record crc32).length > disk.mmap.len ↔
      log.cursor + entry.serializedLen > log.size := by
    rw [WalEntry.length_record, h.size, h.cursor]
  unfold appendRecord ExchangeCore.MmapWal.append
  by_cases hroom : disk.cursor + (entry.record crc32).length > disk.mmap.len
  · rw [dif_pos hroom, if_pos (hfull.mp hroom)]
    exact ⟨rfl, h⟩
  · rw [dif_neg hroom, if_neg (fun hlog => hroom (hfull.mpr hlog))]
    have hdata := @Image.write_data disk.mmap disk.cursor (entry.record crc32) h.cursor_eq
      (Nat.le_of_not_lt hroom)
    refine ⟨rfl, h.size, ?_, ?_, ?_⟩
    · show disk.cursor + (entry.record crc32).length = log.cursor + entry.serializedLen
      rw [h.cursor, WalEntry.length_record]
    · refine hdata.trans ?_
      rw [WalEntry.records_append, WalEntry.records_cons, WalEntry.records_nil, List.append_nil,
        h.data]
    · show disk.cursor + (entry.record crc32).length = _
      rw [hdata, List.length_append, h.cursor_eq]

lemma findCursor_eq_iff (mmap : Image) :
    findCursor mmap = mmap.data.length ↔ Blocks.Splits entryOverhead mmap.data :=
  Blocks.skip_eq_length_iff (by decide)

end MmapWal

/-! ## Sessions -/

namespace MmapHistory

/-- The file holds the records of what has been appended, with the cursor behind them. -/
def Intact (crc32 : Bytes → UInt32) (s : MmapHistory) : Prop :=
  match s.wal with
  | none => s.appended = []
  | some disk => ∃ log, MmapWal.Represents crc32 disk log ∧ log.size = MmapWal.defaultFileSize ∧
      log.entries = s.appended

/-- The file begins with the records of all entries appended, in order. -/
def Begins (crc32 : Bytes → UInt32) (s : MmapHistory) : Prop :=
  WalEntry.records crc32 s.appended <+: s.bytes

/-- A session that begins finds the cursor at the total length of what has been appended. -/
def FindsEnd (crc32 : Bytes → UInt32) (s : MmapHistory) (call : MmapCall) : Prop :=
  call = .openFile →
    (MmapWal.openFile s.file).cursor = (WalEntry.records crc32 s.appended).length

/-- When a session begins, the records of what has been appended split into the blocks that
`find_cursor` looks for. -/
def Splits (crc32 : Bytes → UInt32) (s : MmapHistory) (call : MmapCall) : Prop :=
  call = .openFile →
    Blocks.Splits MmapWal.entryOverhead (WalEntry.records crc32 s.appended)

variable {crc32 : Bytes → UInt32} {s : MmapHistory}

lemma Intact.begins (h : Intact crc32 s) : Begins crc32 s := by
  obtain ⟨wal, appended⟩ := s
  rcases wal with _ | disk
  · obtain rfl : appended = [] := h
    exact List.nil_prefix
  · obtain ⟨log, hrep, -, rfl⟩ := h
    show WalEntry.records crc32 log.entries <+: disk.mmap.bytes
    rw [Image.bytes_eq, hrep.data]
    exact List.prefix_append _ _

/-- The map a session works on. -/
lemma Intact.mmap_openFile (h : Intact crc32 s) :
    (MmapWal.openFile s.file).mmap.len = MmapWal.defaultFileSize ∧
      (MmapWal.openFile s.file).mmap.data = WalEntry.records crc32 s.appended := by
  obtain ⟨wal, appended⟩ := s
  rcases wal with _ | disk
  · obtain rfl : appended = [] := h
    exact ⟨Nat.zero_max _, rfl⟩
  · obtain ⟨log, hrep, hsize, rfl⟩ := h
    refine ⟨?_, hrep.data⟩
    show max disk.mmap.len MmapWal.defaultFileSize = MmapWal.defaultFileSize
    rw [hrep.size, hsize, max_self]

lemma Intact.findsEnd_iff (h : Intact crc32 s) (call : MmapCall) :
    FindsEnd crc32 s call ↔ Splits crc32 s call := by
  refine imp_congr_right (fun _ => ?_)
  have hcursor : (MmapWal.openFile s.file).cursor =
      MmapWal.findCursor (MmapWal.openFile s.file).mmap := rfl
  rw [hcursor, ← h.mmap_openFile.2]
  exact MmapWal.findCursor_eq_iff _

/-- A session that finds the end goes on behind the records. -/
lemma Intact.step_openFile (h : Intact crc32 s) (hend : FindsEnd crc32 s .openFile) :
    Intact crc32 ((mmapMachine crc32).step s .openFile).1 := by
  obtain ⟨hlen, hdata⟩ := h.mmap_openFile
  refine ⟨⟨MmapWal.defaultFileSize, (MmapWal.openFile s.file).cursor, s.appended, 0,
    Nat.zero_le _⟩, ⟨hlen, rfl, hdata, ?_⟩, rfl, rfl⟩
  show (MmapWal.openFile s.file).cursor = (MmapWal.openFile s.file).mmap.data.length
  rw [hend rfl, hdata]

/-- An append adds its record behind the others, or leaves the file alone. -/
lemma Intact.step_append (h : Intact crc32 s) (entry : WalEntry) :
    Intact crc32 ((mmapMachine crc32).step s (.append entry)).1 := by
  show Intact crc32 (s.append crc32 entry)
  obtain ⟨wal, appended⟩ := s
  rcases wal with _ | disk
  · exact h
  obtain ⟨log, hrep, hsize, rfl⟩ := h
  unfold append MmapWal.append
  dsimp only
  by_cases hfits : entry.Fits
  · rw [WalEntry.serialize_of_fits hfits]
    dsimp only
    obtain ⟨hanswer, hrep'⟩ := MmapWal.appendRecord_simulates crc32 entry disk log hrep
    rcases hroom : log.hasRoom entry with _ | _
    · rw [log.append_of_full hroom] at hanswer hrep'
      rw [hanswer]
      exact ⟨log, hrep', hsize, rfl⟩
    · obtain ⟨hok, hentries, -⟩ := log.append_of_room hroom
      rw [hok] at hanswer
      rw [hanswer]
      refine ⟨_, hrep', ?_, hentries⟩
      exact (log.append_size entry).trans hsize
  · obtain ⟨message, hpanic⟩ := @WalEntry.serialize_of_not_fits crc32 entry hfits
    rw [hpanic]
    exact ⟨log, hrep, hsize, rfl⟩

lemma Intact.step (h : Intact crc32 s) {call : MmapCall} (hend : FindsEnd crc32 s call) :
    Intact crc32 ((mmapMachine crc32).step s call).1 := by
  cases call with
  | openFile => exact h.step_openFile hend
  | append entry => exact h.step_append entry

end MmapHistory

/-- **Reopening.**  Every session finds the cursor at the total length of what earlier ones have
appended, and the file always begins with all entries in order, exactly if the records there are
when a session begins split into the blocks that `find_cursor` looks for. -/
theorem mmap_reopened_iff (crc32 : Bytes → UInt32) (calls : List MmapCall) :
    ((mmapMachine crc32).AllSteps (MmapHistory.FindsEnd crc32) .fresh calls ∧
      (mmapMachine crc32).Throughout (MmapHistory.Begins crc32) .fresh calls) ↔
      (mmapMachine crc32).AllSteps (MmapHistory.Splits crc32) .fresh calls := by
  have hfresh : MmapHistory.Intact crc32 .fresh := rfl
  have hkeeps : ∀ s call, MmapHistory.Intact crc32 s → MmapHistory.FindsEnd crc32 s call →
      MmapHistory.Intact crc32 ((mmapMachine crc32).step s call).1 :=
    fun _ _ h hend => h.step hend
  have hiff : ((mmapMachine crc32).AllSteps (MmapHistory.FindsEnd crc32) .fresh calls ∧
      (mmapMachine crc32).Throughout (MmapHistory.Intact crc32) .fresh calls) ↔
      (mmapMachine crc32).AllSteps (MmapHistory.Splits crc32) .fresh calls := by
    refine Machine.allSteps_throughout_iff (fun _ _ (h : True) => h) ?_ trivial hfresh calls
    intro s call _ h
    rw [← h.findsEnd_iff call]
    exact ⟨And.left, fun hend => ⟨hend, h.step hend⟩⟩
  constructor
  · rintro ⟨hend, -⟩
    exact hiff.mp ⟨hend, Machine.throughout_of_allSteps hkeeps hfresh hend⟩
  · intro hsplits
    obtain ⟨hend, hintact⟩ := hiff.mpr hsplits
    exact ⟨hend, hintact.mono (fun _ h => h.begins)⟩

/-- A session after one that has appended a deposit. -/
def reopened : List MmapCall := [.openFile, .append depositEntry, .openFile, .append depositEntry]

/-- The second session starts at the beginning again, and writes over the first one's deposit. -/
theorem reopened_overwrites :
    ¬((mmapMachine LedgerCodec.crc32Ieee).AllSteps (MmapHistory.FindsEnd LedgerCodec.crc32Ieee)
        .fresh reopened ∧
      (mmapMachine LedgerCodec.crc32Ieee).Throughout (MmapHistory.Begins LedgerCodec.crc32Ieee)
        .fresh reopened) := by
  rintro ⟨⟨-, -, hend, -⟩, -⟩
  exact absurd (hend rfl) (by decide +kernel)

end OnDisk

end ExchangeCore
