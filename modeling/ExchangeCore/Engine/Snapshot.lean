import ExchangeCore.Engine.Processing

/-!
# Snapshots of the engine

`trigger_cow_snapshot` forks a child that writes an `EngineSnapshot` to the snapshot directory,
under a name that carries the sequence number of the order WAL; `MatchingEngine::new` looks through
the directory for the snapshot with the highest number and starts from it.

A directory is the list of its files in the order `read_dir` yields them, each with what reading
and decoding it gives.  `newOn` is `MatchingEngine::new` on such a directory.  The order WAL is
opened and not read: `replay_wal` returns at once.

The number of the WAL is 0 when it is opened and nothing advances it, without a WAL it is taken to
be 0, and the search for the highest number starts from 0 and asks for a higher one.  So a snapshot
is written under the name `engine_snapshot_0.bin` and never loaded (`newOn_eq_new`).
-/

namespace ExchangeCore

/-- `EngineSnapshot`; the accounts and the ledger number it also has are written empty and not
read. -/
structure EngineSnapshot where
  orderBooks : List (Option OrderBook)
  orderWalSeq : UInt64
  outputSeq : UInt64
  lastOutputHash : UInt64

/-- What opening and decoding a file gives. -/
abbrev SnapshotFile := Except String EngineSnapshot

/-- The files of the snapshot directory, by name. -/
abbrev SnapshotDir := List (String × SnapshotFile)

/-! ## File names -/

/-- `Path::file_stem` and `Path::extension`: a file name is split at its last dot, unless it has
none or only a leading one. -/
def splitExtension (name : List Char) : List Char × Option (List Char) :=
  let after := (name.reverse.takeWhile (· ≠ '.')).reverse
  let before := name.take (name.length - (after.length + 1))
  if after.length = name.length ∨ before = [] then (name, none) else (before, some after)

/-- `str::parse::<u64>`: decimal digits, at least one, after an optional plus sign. -/
def parseU64 (s : List Char) : Option UInt64 :=
  let digits : List Char := if s.head? = some '+' then s.tail else s
  let n : ℕ := digits.foldl (fun n c => 10 * n + (c.toNat - '0'.toNat)) 0
  if digits ≠ [] ∧ digits.all Char.isDigit ∧ n < 2 ^ 64 then some (UInt64.ofNat n) else none

/-- The sequence number in the name of a snapshot file. -/
def snapshotSeq (name : String) : Option UInt64 :=
  let split := splitExtension name.toList
  let stemStart := "engine_snapshot_".toList
  if stemStart.isPrefixOf split.1 ∧ split.2 = some "bin".toList then
    parseU64 (split.1.drop stemStart.length)
  else none

/-- The body of the search for the latest snapshot. -/
def laterSnapshot (latest : UInt64 × Option SnapshotFile) (file : String × SnapshotFile) :
    UInt64 × Option SnapshotFile :=
  match snapshotSeq file.1 with
  | some seq => if seq > latest.1 then (seq, some file.2) else latest
  | none => latest

/-- The latest snapshot of a directory. -/
def latestSnapshot (dir : SnapshotDir) : Option SnapshotFile :=
  (dir.foldl laterSnapshot (0, none)).2

namespace MatchingEngine

/-- The outcomes of the file operations of `MatchingEngine::new` besides reading snapshots. -/
structure NewIo where
  createWalDir : Except String Unit
  createSnapDir : Except String Unit
  openWal : Except String Unit

/-- Operations that succeed. -/
def NewIo.healthy : NewIo := ⟨.ok (), .ok (), .ok ()⟩

/-- `MatchingEngine::new`. -/
def newOn (io : NewIo) (dir : SnapshotDir) (enableLocalWal : Bool) :
    Except String MatchingEngine := do
  if enableLocalWal then io.createWalDir
  io.createSnapDir
  let engine ← match latestSnapshot dir with
    | none => pure (new enableLocalWal)
    | some file => do
        let snap ← file
        pure { new enableLocalWal with
          orderBooks := snap.orderBooks
          outputSeq := snap.outputSeq
          lastOutputHash := snap.lastOutputHash }
  if enableLocalWal then io.openWal
  pure engine

/-- What `trigger_cow_snapshot` saves. -/
def snapshot (me : MatchingEngine) : EngineSnapshot where
  orderBooks := me.orderBooks
  orderWalSeq := (me.orderWal.map Wal.currentSeq).getD 0
  outputSeq := me.outputSeq
  lastOutputHash := me.lastOutputHash

/-- `trigger_cow_snapshot`, once its child has completed: the directory with the snapshot in it,
in place of a file of the same name. -/
def triggerCowSnapshot (me : MatchingEngine) (dir : SnapshotDir) : SnapshotDir :=
  let currentSeq := (me.orderWal.map Wal.currentSeq).getD 0
  let filename := s!"engine_snapshot_{currentSeq}.bin"
  dir.filter (fun file => file.1 ≠ filename) ++ [(filename, .ok me.snapshot)]

end MatchingEngine

/-! ## Nothing is loaded -/

/-- The number in the only name a snapshot is saved under does not count as a later one. -/
lemma latestSnapshot_eq_none {dir : SnapshotDir}
    (h : ∀ file ∈ dir, file.1 = "engine_snapshot_0.bin") : latestSnapshot dir = none := by
  have hzero : snapshotSeq "engine_snapshot_0.bin" = some 0 := by decide
  have hfold : dir.foldl laterSnapshot (0, none) = (0, none) := by
    induction dir with
    | nil => rfl
    | cons file dir ih =>
        have hstay : laterSnapshot (0, none) file = (0, none) := by
          rw [laterSnapshot, h file (List.mem_cons_self ..), hzero]
          rfl
        rw [List.foldl_cons, hstay]
        exact ih (fun f hf => h f (List.mem_cons_of_mem _ hf))
  rw [latestSnapshot, hfold]

/-- Files with higher numbers are picked, whatever else is there. -/
example : latestSnapshot [("engine_snapshot_7.bin", .error "a"),
    ("engine_snapshot_12.bin", .error "b"),
    ("engine_snapshot_0.bin", .error "c"), ("notes.txt", .error "d")] = some (.error "b") := rfl

namespace MatchingEngine

lemma newOn_eq_new {dir : SnapshotDir} (h : ∀ file ∈ dir, file.1 = "engine_snapshot_0.bin")
    (enableLocalWal : Bool) : newOn .healthy dir enableLocalWal = .ok (new enableLocalWal) := by
  rw [newOn, latestSnapshot_eq_none h]
  cases enableLocalWal <;> rfl

end MatchingEngine

end ExchangeCore
