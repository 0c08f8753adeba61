import ExchangeCore.Framework.SegmentedLog
import ExchangeCore.Ledger.WalSegment
import Mathlib.Data.List.Sort

/-!
# The rolling write-ahead log

`RollingWal` (`ledger.rs`): a directory of segment files, of which the last is written to.  A
segment is left when it is full or five minutes old; its file is renamed to carry the digest of its
contents, and a new one is named by the next sequence number.  `list_wals` sorts a listing of the
directory by these numbers and keeps the order of the listing among equal ones.

The order in which `read_dir` lists a directory is an argument (`listing`), and so are the readings
of the clock: `clock i` is the `i`-th.  Errors of the operating system are left out, and a write
through the memory map is a write to the file, as long as the directory still has it.
-/

namespace ExchangeCore

/-- The name of a segment file: `ledger_SEQ.wal`, with a digest appended by each renaming. -/
structure WalName where
  startSeq : UInt64
  digests : List String
  deriving DecidableEq, Repr

/-- A directory of segment files. -/
abbrev WalDir := HashMap WalName Image

/-- `WAL_ROLL_TIME`, in nanoseconds. -/
def walRollTime : ℕ := 5 * 60 * 1000000000

def walRetention : ℕ := 3

structure RollingWal where
  dir : WalDir
  /-- The file of the current segment. -/
  currentPath : WalName
  currentSegment : WalSegment
  lastRollTime : ℕ
  /-- How often the clock has been read. -/
  ticks : ℕ

namespace RollingWal

def listWals (listing : List WalName) : List WalName :=
  listing.insertionSort (fun a b => a.startSeq ≤ b.startSeq)

def findLatestWal (listing : List WalName) : Option WalName := (listWals listing).getLast?

/-- The files a cleanup deletes: all but the last three of the sorted listing. -/
def oldWals (listing : List WalName) : List WalName :=
  let wals := listWals listing
  wals.take (wals.length - walRetention)

def cleanupOldWals (listing : List WalName) (dir : WalDir) : WalDir :=
  (oldWals listing).foldl HashMap.erase dir

/-- The files to be replayed: from the last segment on that starts no later than `min_seq`; a file
that has disappeared is skipped. -/
def replayFiles (listing : List WalName) (minSeq : UInt64) (dir : WalDir) : List Image :=
  let wals := listWals listing
  let startIdx := (wals.takeWhile (fun name => name.startSeq ≤ minSeq)).length - 1
  (wals.drop startIdx).filterMap dir.get?

/-- The records of one file after another, up to the first error. -/
def readFiles (codec : LedgerCodec) : List Image → List WalRecord × Option Abort
  | [] => ([], none)
  | file :: files =>
      match WalIterator.readAll codec file with
      | (rs, some e) => (rs, some e)
      | (rs, none) =>
          let rest := readFiles codec files
          (rs ++ rest.1, rest.2)

def replayIter (codec : LedgerCodec) (listing : List WalName) (minSeq : UInt64) (dir : WalDir) :
    List WalRecord × Option Abort :=
  readFiles codec (replayFiles listing minSeq dir)

def new (clock : ℕ → ℕ) (listing : List WalName) (startSeq : UInt64) (dir : WalDir) :
    Except Abort RollingWal :=
  match findLatestWal listing with
  | some lastFile =>
      match dir.get? lastFile with
      | none => .error (.error "No such file or directory")
      | some file => (WalSegment.openExisting file).map (fun segment =>
          ⟨dir, lastFile, segment, clock 0, 1⟩)
  | none =>
      let path : WalName := ⟨startSeq, []⟩
      let segment := WalSegment.create (dir.get? path)
      .ok ⟨dir.insert path segment.file, path, segment, clock 0, 1⟩

variable (codec : LedgerCodec) (clock : ℕ → ℕ)

/-- The directory after the current file is renamed to carry its digest. -/
def renameCurrent (wal : RollingWal) : WalDir :=
  let md5 := codec.md5 wal.currentSegment.md5Ctx
  if md5 ∈ wal.currentPath.digests then wal.dir
  else
    match wal.dir.get? wal.currentPath with
    | none => wal.dir
    | some file =>
        (wal.dir.erase wal.currentPath).insert
          ⟨wal.currentPath.startSeq, wal.currentPath.digests ++ [md5]⟩ file

/-- `rotate`; the cleanup it spawns runs later. -/
def rotate (nextSeq : UInt64) (wal : RollingWal) : RollingWal :=
  let dir := wal.renameCurrent codec
  let path : WalName := ⟨nextSeq, []⟩
  let segment := WalSegment.create (dir.get? path)
  { dir := dir.insert path segment.file
    currentPath := path
    currentSegment := segment
    lastRollTime := clock wal.ticks
    ticks := wal.ticks + 1 }

/-- Append to the current segment, and so to its file. -/
def appendToSegment (r : WalRecord) : Fallible RollingWal String Unit := fun wal =>
  let res := WalSegment.append codec r wal.currentSegment
  (res.1,
    { wal with
      currentSegment := res.2
      dir :=
        if (wal.dir.get? wal.currentPath).isSome then wal.dir.insert wal.currentPath res.2.file
        else wal.dir })

/-- The log at an `append`, after the check of the time. -/
def rollByTime (seq : UInt64) (wal : RollingWal) : RollingWal :=
  let timeTrigger := clock wal.ticks - wal.lastRollTime ≥ walRollTime
  let wal := { wal with ticks := wal.ticks + 1 }
  if timeTrigger then wal.rotate codec clock seq else wal

def append (r : WalRecord) : Fallible RollingWal String Unit := fun wal =>
  match appendToSegment codec r (wal.rollByTime codec clock r.1) with
  | (.ok (), wal) => (.ok (), wal)
  | (.error _, wal) => appendToSegment codec r (wal.rotate codec clock r.1)

/-! ## Reading a directory -/

/-- The directory holds exactly these segments, and the reader can take their records. -/
structure DirHolds (codec : LedgerCodec) (dir : WalDir)
    (segs : List (LogSegment WalName WalRecord)) : Prop where
  stored : ∀ seg ∈ segs, ∃ file, dir.get? seg.key = some file ∧
    file.data = codec.records seg.entries ∧ file.len = walMaxSize
  listed : ∀ name, (dir.get? name).isSome → ∃ seg ∈ segs, seg.key = name
  named : ∀ seg ∈ segs, seg.start = seg.key.startSeq.toNat
  readable : ∀ seg ∈ segs, ∀ r ∈ seg.entries, WalSegment.Readable codec r

section Reading

open SegmentedLog (entries WellFormed Unambiguous)

variable {codec : LedgerCodec} {dir : WalDir} {segs : List (LogSegment WalName WalRecord)}
  {listing : List WalName} {d : ℕ}

lemma readAll_of_stored {file : Image} {rs : List WalRecord} (hdata : file.data = codec.records rs)
    (hreadable : ∀ r ∈ rs, WalSegment.Readable codec r) :
    WalIterator.readAll codec file = (rs, none) := by
  have hcount := codec.length_le_length_records rs
  have hle := file.data_le
  rw [hdata] at hle
  exact @WalIterator.collect_records codec file [] rs _ hdata (by omega) hreadable

lemma readFiles_of_stored
    (hstored : ∀ seg ∈ segs, ∃ file, dir.get? seg.key = some file ∧
      file.data = codec.records seg.entries ∧ file.len = walMaxSize)
    (hreadable : ∀ seg ∈ segs, ∀ r ∈ seg.entries, WalSegment.Readable codec r) :
    readFiles codec ((segs.map LogSegment.key).filterMap dir.get?) = (entries segs, none) := by
  induction segs with
  | nil => rfl
  | cons seg segs ih =>
      rw [List.forall_mem_cons] at hstored hreadable
      obtain ⟨file, hget, hdata, -⟩ := hstored.1
      rw [List.map_cons, List.filterMap_cons_some hget, readFiles,
        readAll_of_stored hdata hreadable.1]
      simp only [ih hstored.2 hreadable.2]
      rfl

lemma length_takeWhile_map {α β : Type} (f : α → β) (p : β → Bool) (q : α → Bool) (l : List α)
    (h : ∀ a ∈ l, p (f a) = q a) : ((l.map f).takeWhile p).length = (l.takeWhile q).length := by
  induction l with
  | nil => rfl
  | cons a l ih =>
      rw [List.forall_mem_cons] at h
      rw [List.map_cons, List.takeWhile_cons, List.takeWhile_cons, h.1]
      split
      · rw [List.length_cons, List.length_cons, ih h.2]
      · rfl

lemma exists_listing (hdir : DirHolds codec dir segs) (hkeys : (segs.map LogSegment.key).Nodup)
    (hlists : dir.Lists listing) :
    ∃ sorted : List (LogSegment WalName WalRecord), sorted.Perm segs ∧
      sorted.map LogSegment.key = listWals listing ∧
      sorted.Pairwise (fun a b => a.start ≤ b.start) := by
  have hperm : (listWals listing).Perm (segs.map LogSegment.key) := by
    refine (List.perm_insertionSort _ _).trans ((List.perm_ext_iff_of_nodup hlists.1 hkeys).mpr ?_)
    intro name
    rw [hlists.mem_iff, List.mem_map]
    constructor
    · exact hdir.listed name
    · rintro ⟨seg, hseg, rfl⟩
      obtain ⟨file, hget, -⟩ := hdir.stored seg hseg
      rw [hget]
      rfl
  obtain ⟨sorted, hsorted, hnames⟩ := SegmentedLog.exists_perm_of_keys hperm
  refine ⟨sorted, hsorted, hnames, ?_⟩
  have hpair : (listWals listing).Pairwise (fun a b => a.startSeq ≤ b.startSeq) :=
    List.pairwise_insertionSort _ _
  rw [← hnames, List.pairwise_map] at hpair
  refine List.Pairwise.imp_of_mem (fun {a b} ha hb hle => ?_) hpair
  rw [hdir.named a (hsorted.mem_iff.mp ha), hdir.named b (hsorted.mem_iff.mp hb)]
  exact UInt64.le_iff_toNat_le.mp hle

/-- **Replaying a directory**: whatever the order of the listing, the records read are those of the
log from some point on that is not behind `minSeq`. -/
lemma replayIter_eq (hdir : DirHolds codec dir segs) (hwf : WellFormed d segs)
    (hlists : dir.Lists listing) {minSeq : UInt64} (hclear : Unambiguous minSeq.toNat segs)
    (hd : d ≤ minSeq.toNat) :
    ∃ k, d + k ≤ minSeq.toNat ∧
      replayIter codec listing minSeq dir = ((entries segs).drop k, none) := by
  obtain ⟨sorted, hperm, hnames, hpair⟩ := exists_listing hdir hwf.keys hlists
  obtain ⟨k, hk, hentries⟩ :=
    SegmentedLog.entries_drop_firstIndex hwf hperm hpair hclear hd
  refine ⟨k, hk, ?_⟩
  have hindex : ((listWals listing).takeWhile (fun name => name.startSeq ≤ minSeq)).length - 1 =
      SegmentedLog.firstIndex minSeq.toNat sorted := by
    rw [← hnames, length_takeWhile_map LogSegment.key _ (fun seg => seg.start ≤ minSeq.toNat)]
    · rfl
    · intro seg hseg
      rw [hdir.named seg (hperm.mem_iff.mp hseg), decide_eq_decide]
      exact UInt64.le_iff_toNat_le
  have hmem : ∀ seg ∈ sorted.drop (SegmentedLog.firstIndex minSeq.toNat sorted), seg ∈ segs :=
    fun seg hseg => hperm.mem_iff.mp (List.mem_of_mem_drop hseg)
  rw [replayIter, replayFiles, hindex, ← hnames, ← List.map_drop,
    readFiles_of_stored (fun seg hseg => hdir.stored seg (hmem seg hseg))
      (fun seg hseg => hdir.readable seg (hmem seg hseg)), hentries]

end Reading

/-! ## Appending -/

section Appending

open SegmentedLog (entries WellFormed Unambiguous)

/-- The log is written to `cur`, after the segments in `closed`; its first `d` records are gone. -/
structure Tracks (codec : LedgerCodec) (d : ℕ) (closed : List (LogSegment WalName WalRecord))
    (cur : LogSegment WalName WalRecord) (wal : RollingWal) : Prop where
  wf : WellFormed d closed
  key : cur.key ∉ closed.map LogSegment.key
  sorted : ∀ seg ∈ closed, seg.start ≤ cur.start
  start : cur.start = d + (entries closed).length + 1
  positive : ∀ seg ∈ closed, 1 ≤ seg.start
  dir : DirHolds codec wal.dir (closed ++ [cur])
  path : cur.key = wal.currentPath
  file : wal.dir.get? wal.currentPath = some wal.currentSegment.file
  holds : wal.currentSegment.Holds (codec.records cur.entries)
  /-- Segments that were left carry a digest, the current one does not. -/
  bare : cur.key.digests = []
  renamed : ∀ seg ∈ closed, seg.key.digests ≠ []

/-- Only the very first segment can be left empty. -/
def Settled (closed : List (LogSegment WalName WalRecord)) (cur : LogSegment WalName WalRecord) :
    Prop := closed ≠ [] → cur.entries ≠ []

variable {codec : LedgerCodec} {d : ℕ} {closed : List (LogSegment WalName WalRecord)}
  {cur : LogSegment WalName WalRecord} {wal : RollingWal} {r : WalRecord}

lemma Tracks.wellFormed (h : Tracks codec d closed cur wal) (hsettled : Settled closed cur) :
    WellFormed d (closed ++ [cur]) := h.wf.concat h.key h.sorted h.start hsettled

lemma Tracks.len (h : Tracks codec d closed cur wal) :
    wal.currentSegment.file.len = walMaxSize := by
  obtain ⟨file, hget, -, hlen⟩ := h.dir.stored cur (by simp)
  rw [h.path, h.file] at hget
  rw [Option.some.inj hget, hlen]

/-- What is left with an entry in the directory once the current file has its digest. -/
def closedWith (closed : List (LogSegment WalName WalRecord)) (cur : LogSegment WalName WalRecord)
    (name : WalName) : List (LogSegment WalName WalRecord) :=
  closed.filter (fun seg => seg.key ≠ name) ++ [{ cur with key := name }]

/-- A closed segment whose name the renamed file takes over was empty. -/
lemma Tracks.entries_eq_nil_of_key (h : Tracks codec d closed cur wal)
    (hsettled : Settled closed cur) {seg : LogSegment WalName WalRecord} (hseg : seg ∈ closed)
    (hstart : seg.key.startSeq = cur.key.startSeq) : seg.entries = [] := by
  have hwf := h.wellFormed hsettled
  have hne : seg.key ≠ cur.key := fun heq => h.key (heq ▸ List.mem_map_of_mem hseg)
  have heq : seg.start = cur.start := by
    rw [h.dir.named seg (List.mem_append_left _ hseg), h.dir.named cur (by simp), hstart]
  refine (hwf.contiguous.entries_eq_nil hwf.keys (List.mem_append_left _ hseg) (by simp) hne
    heq).resolve_right ?_
  exact hsettled (List.ne_nil_of_mem hseg)

/-- Dropping such a segment changes nothing. -/
lemma Tracks.filter_closed (h : Tracks codec d closed cur wal) (hsettled : Settled closed cur)
    {name : WalName} (hstart : name.startSeq = cur.key.startSeq) :
    WellFormed d (closed.filter (fun seg => seg.key ≠ name)) ∧
      entries (closed.filter (fun seg => seg.key ≠ name)) = entries closed := by
  have hgone : entries (closed.filter (fun seg => !decide (seg.key ≠ name))) = [] := by
    refine List.flatMap_eq_nil_iff.mpr (fun seg hseg => ?_)
    obtain ⟨hmem, hkey⟩ := List.mem_filter.mp hseg
    have hkey' : seg.key = name := by simpa using hkey
    exact h.entries_eq_nil_of_key hsettled hmem (by rw [hkey', hstart])
  have hcut : closed.Pairwise (fun a b => decide (a.key ≠ name) = true →
      decide (b.key ≠ name) = false → a.entries = [] ∨ b.entries = []) := by
    refine List.Pairwise.imp_of_mem (R := fun _ _ => True) (fun {a b} _ hb _ _ hkey => ?_)
      (List.pairwise_of_forall (fun _ _ => trivial))
    have hkey' : b.key = name := by simpa using hkey
    exact .inr (h.entries_eq_nil_of_key hsettled hb (by rw [hkey', hstart]))
  have hwf := h.wf.filter hcut
  obtain ⟨-, hentries⟩ := h.wf.contiguous.filter hcut
  rw [hgone] at hwf hentries
  exact ⟨hwf, hentries.symm⟩

/-- The name the current file takes when it is left. -/
def digestName (codec : LedgerCodec) (wal : RollingWal) : WalName :=
  ⟨wal.currentPath.startSeq, [codec.md5 wal.currentSegment.md5Ctx]⟩

lemma Tracks.renameCurrent_eq (h : Tracks codec d closed cur wal) :
    wal.renameCurrent codec =
      (wal.dir.erase wal.currentPath).insert (wal.digestName codec) wal.currentSegment.file := by
  have hdigests : wal.currentPath.digests = [] := by rw [← h.path, h.bare]
  simp only [renameCurrent, hdigests, List.not_mem_nil, if_false, h.file, List.nil_append,
    digestName]

lemma Tracks.renamed_closedWith (h : Tracks codec d closed cur wal) :
    ∀ seg ∈ closedWith closed cur (wal.digestName codec), seg.key.digests ≠ [] := by
  intro seg hseg
  rcases List.mem_append.mp hseg with hseg | hseg
  · exact h.renamed seg (List.mem_of_mem_filter hseg)
  · rw [List.mem_singleton.mp hseg]
    exact List.cons_ne_nil _ _

/-- The directory after the renaming. -/
lemma Tracks.dirHolds_renameCurrent (h : Tracks codec d closed cur wal) :
    DirHolds codec (wal.renameCurrent codec) (closedWith closed cur (wal.digestName codec)) := by
  -- the new name carries a digest, the old one does not
  have hname : wal.digestName codec ≠ wal.currentPath := by
    intro heq
    have hdigests := congrArg WalName.digests heq
    rw [← h.path, h.bare] at hdigests
    exact List.cons_ne_nil _ _ hdigests
  rw [h.renameCurrent_eq]
  constructor
  · intro seg hseg
    rcases List.mem_append.mp hseg with hseg | hseg
    · -- a segment that keeps its file
      obtain ⟨hmem, hkey⟩ := List.mem_filter.mp hseg
      have hcur : seg.key ≠ wal.currentPath := by
        rw [← h.path]
        exact fun heq => h.key (heq ▸ List.mem_map_of_mem hmem)
      obtain ⟨file, hget, hstored⟩ := h.dir.stored seg (List.mem_append_left _ hmem)
      refine ⟨file, ?_, hstored⟩
      rw [HashMap.get?_insert, if_neg (by simpa using hkey), HashMap.get?_erase, if_neg hcur, hget]
    · rw [List.mem_singleton.mp hseg]
      exact ⟨wal.currentSegment.file, by simp, h.holds.data, h.len⟩
  · intro name hsome
    rw [HashMap.get?_insert, HashMap.get?_erase] at hsome
    by_cases hdigest : name = wal.digestName codec
    · exact ⟨{ cur with key := wal.digestName codec }, List.mem_append_right _ (by simp),
        hdigest.symm⟩
    · rw [if_neg hdigest] at hsome
      split at hsome
      · exact absurd hsome (by simp)
      · rename_i hcur
        obtain ⟨seg, hseg, hkey⟩ := h.dir.listed name hsome
        rcases List.mem_append.mp hseg with hmem | hmem
        · refine ⟨seg, List.mem_append_left _ (List.mem_filter.mpr ⟨hmem, ?_⟩), hkey⟩
          simpa [hkey] using hdigest
        · rw [List.mem_singleton.mp hmem, h.path] at hkey
          exact absurd hkey.symm hcur
  · intro seg hseg
    rcases List.mem_append.mp hseg with hseg | hseg
    · exact h.dir.named seg (List.mem_append_left _ (List.mem_of_mem_filter hseg))
    · rw [List.mem_singleton.mp hseg]
      show cur.start = wal.currentPath.startSeq.toNat
      rw [← h.path, h.dir.named cur (by simp)]
  · intro seg hseg
    rcases List.mem_append.mp hseg with hseg | hseg
    · exact h.dir.readable seg (List.mem_append_left _ (List.mem_of_mem_filter hseg))
    · rw [List.mem_singleton.mp hseg]
      exact h.dir.readable cur (by simp)

variable (clock : ℕ → ℕ)

/-- A rotation closes the current segment and opens an empty one. -/
lemma Tracks.rotate (h : Tracks codec d closed cur wal) (hsettled : Settled closed cur)
    {next : UInt64} (hnext : next.toNat = cur.start + cur.entries.length) :
    Tracks codec d (closedWith closed cur (wal.digestName codec)) ⟨⟨next, []⟩, next.toNat, []⟩
        (wal.rotate codec clock next) ∧
      entries (closedWith closed cur (wal.digestName codec)) = entries closed ++ cur.entries := by
  have hdir := h.dirHolds_renameCurrent
  have hrenamed := h.renamed_closedWith
  have hstart : (wal.digestName codec).startSeq = cur.key.startSeq := by
    rw [digestName, h.path]
  obtain ⟨hwf, hentries⟩ := h.filter_closed hsettled hstart
  have hall : entries (closedWith closed cur (wal.digestName codec)) =
      entries closed ++ cur.entries := by
    rw [closedWith, SegmentedLog.entries_append, hentries]
    simp
  -- The new name is not taken: every other file carries a digest.
  have hfresh : ∀ seg ∈ closedWith closed cur (wal.digestName codec), seg.key ≠ ⟨next, []⟩ :=
    fun seg hseg heq => hrenamed seg hseg (congrArg WalName.digests heq)
  have hnone : (wal.renameCurrent codec).get? ⟨next, []⟩ = none := by
    by_contra hsome
    obtain ⟨seg, hseg, hkey⟩ := hdir.listed _ (Option.isSome_iff_ne_none.mpr hsome)
    exact hfresh seg hseg hkey
  have hbelow : ∀ seg ∈ closedWith closed cur (wal.digestName codec), seg.start ≤ cur.start := by
    intro seg hseg
    rcases List.mem_append.mp hseg with hseg | hseg
    · exact h.sorted seg (List.mem_of_mem_filter hseg)
    · rw [List.mem_singleton.mp hseg]
  have hrotate : wal.rotate codec clock next =
      { dir := (wal.renameCurrent codec).insert ⟨next, []⟩ (Image.zeroed walMaxSize)
        currentPath := ⟨next, []⟩
        currentSegment := WalSegment.create none
        lastRollTime := clock wal.ticks
        ticks := wal.ticks + 1 } := by
    rw [RollingWal.rotate]
    simp only [hnone]
    rfl
  refine ⟨?_, hall⟩
  rw [hrotate]
  exact {
    wf := by
      refine hwf.concat ?_ ?_ ?_ ?_
      · rw [List.mem_map]
        rintro ⟨seg, hseg, hkey⟩
        exact absurd hkey (by simpa using (List.mem_filter.mp hseg).2)
      · intro seg hseg
        exact h.sorted seg (List.mem_of_mem_filter hseg)
      · rw [hentries]
        exact h.start
      · intro hne
        refine hsettled (fun hnil => hne ?_)
        rw [hnil, List.filter_nil]
    key := by
      rw [List.mem_map]
      rintro ⟨seg, hseg, hkey⟩
      exact hfresh seg hseg hkey
    sorted := fun seg hseg => (hbelow seg hseg).trans (by rw [hnext]; exact Nat.le_add_right _ _)
    start := by
      show next.toNat = _
      rw [hall, List.length_append, hnext, h.start]
      omega
    positive := by
      intro seg hseg
      rcases List.mem_append.mp hseg with hseg | hseg
      · exact h.positive seg (List.mem_of_mem_filter hseg)
      · rw [List.mem_singleton.mp hseg]
        show 1 ≤ cur.start
        rw [h.start]
        omega
    dir := {
      stored := by
        intro seg hseg
        rcases List.mem_append.mp hseg with hseg | hseg
        · obtain ⟨file, hget, hstored⟩ := hdir.stored seg hseg
          exact ⟨file, by rw [HashMap.get?_insert, if_neg (hfresh seg hseg), hget], hstored⟩
        · rw [List.mem_singleton.mp hseg]
          exact ⟨Image.zeroed walMaxSize, by simp, rfl, rfl⟩
      listed := by
        intro name hsome
        rw [HashMap.get?_insert] at hsome
        split at hsome
        · rename_i heq
          exact ⟨_, List.mem_append_right _ (List.mem_singleton_self _), heq.symm⟩
        · obtain ⟨seg, hseg, hkey⟩ := hdir.listed name hsome
          exact ⟨seg, List.mem_append_left _ hseg, hkey⟩
      named := by
        intro seg hseg
        rcases List.mem_append.mp hseg with hseg | hseg
        · exact hdir.named seg hseg
        · rw [List.mem_singleton.mp hseg]
      readable := by
        intro seg hseg
        rcases List.mem_append.mp hseg with hseg | hseg
        · exact hdir.readable seg hseg
        · rw [List.mem_singleton.mp hseg]
          exact fun r hr => absurd hr List.not_mem_nil }
    path := rfl
    file := by simp; rfl
    holds := WalSegment.create_holds
    bare := rfl
    renamed := hrenamed }

/-- Neither the clock nor the time of the last rotation matters to what the log holds. -/
lemma Tracks.tick (h : Tracks codec d closed cur wal) (ticks : ℕ) :
    Tracks codec d closed cur { wal with ticks := ticks } :=
  ⟨h.wf, h.key, h.sorted, h.start, h.positive, h.dir, h.path, h.file, h.holds, h.bare, h.renamed⟩

/-- A record that fits goes to the end of the current segment. -/
lemma Tracks.appendToSegment (h : Tracks codec d closed cur wal)
    (hfits : (codec.records cur.entries).length + 8 + codec.dataLen r.2 ≤ walMaxSize)
    (hreadable : WalSegment.Readable codec r) :
    (appendToSegment codec r wal).1 = .ok () ∧
      Tracks codec d closed { cur with entries := cur.entries ++ [r] }
        (appendToSegment codec r wal).2 := by
  obtain ⟨hok, hholds, hlen⟩ := WalSegment.append_of_fits h.holds (by rwa [h.len])
  rw [h.len] at hlen
  have hrecords : codec.records (cur.entries ++ [r]) =
      codec.records cur.entries ++ codec.record r := by
    rw [codec.records_append, codec.records_cons, codec.records_nil, List.append_nil]
  rw [← hrecords] at hholds
  refine ⟨hok, ?_⟩
  simp only [RollingWal.appendToSegment, h.file, Option.isSome_some, if_true]
  generalize (WalSegment.append codec r wal.currentSegment).2 = segment at hholds hlen
  -- the closed segments are in other files, which the append leaves alone
  have hclosed : ∀ seg ∈ closed, seg.key ≠ wal.currentPath := by
    intro seg hseg heq
    exact h.key (by rw [h.path, ← heq]; exact List.mem_map_of_mem hseg)
  exact {
    wf := h.wf
    key := h.key
    sorted := h.sorted
    start := h.start
    positive := h.positive
    dir := {
      stored := by
        intro seg hseg
        rcases List.mem_append.mp hseg with hseg | hseg
        · obtain ⟨file, hget, hstored⟩ := h.dir.stored seg (List.mem_append_left _ hseg)
          exact ⟨file, by rw [HashMap.get?_insert, if_neg (hclosed seg hseg), hget], hstored⟩
        · rw [List.mem_singleton.mp hseg]
          exact ⟨segment.file, by simp [h.path], hholds.data, hlen⟩
      listed := by
        intro name hsome
        rw [HashMap.get?_insert] at hsome
        split at hsome
        · rename_i heq
          exact ⟨_, List.mem_append_right _ (List.mem_singleton_self _), h.path.trans heq.symm⟩
        · rename_i hne
          obtain ⟨seg, hseg, hkey⟩ := h.dir.listed name hsome
          rcases List.mem_append.mp hseg with hseg | hseg
          · exact ⟨seg, List.mem_append_left _ hseg, hkey⟩
          · rw [List.mem_singleton.mp hseg, h.path] at hkey
            exact absurd hkey.symm hne
      named := by
        intro seg hseg
        rcases List.mem_append.mp hseg with hseg | hseg
        · exact h.dir.named seg (List.mem_append_left _ hseg)
        · rw [List.mem_singleton.mp hseg]
          exact h.dir.named cur (by simp)
      readable := by
        intro seg hseg
        rcases List.mem_append.mp hseg with hseg | hseg
        · exact h.dir.readable seg (List.mem_append_left _ hseg)
        · rw [List.mem_singleton.mp hseg]
          intro r' hr'
          rcases List.mem_append.mp hr' with hr' | hr'
          · exact h.dir.readable cur (by simp) r' hr'
          · rw [List.mem_singleton.mp hr']
            exact hreadable }
    path := h.path
    file := by simp
    holds := hholds
    bare := h.bare
    renamed := h.renamed }

/-- A record that does not fit leaves the log as it is. -/
lemma Tracks.appendToSegment_full (h : Tracks codec d closed cur wal)
    (hfull : ¬(codec.records cur.entries).length + 8 + codec.dataLen r.2 ≤ walMaxSize) :
    RollingWal.appendToSegment codec r wal = (.error "Segment Full", wal) := by
  have hroom : wal.currentSegment.cursor + 8 + codec.dataLen r.2 > wal.currentSegment.file.len := by
    rw [h.holds.cursor, h.len]
    omega
  have happend : WalSegment.append codec r wal.currentSegment =
      (.error "Segment Full", wal.currentSegment) := by
    rw [WalSegment.append, dif_pos hroom]
  have hdir : wal.dir.insert wal.currentPath wal.currentSegment.file = wal.dir := by
    refine HashMap.ext (fun name => ?_)
    rw [HashMap.get?_insert]
    split
    · rename_i heq
      rw [heq, h.file]
    · rfl
  rw [RollingWal.appendToSegment]
  simp only [happend, h.file, Option.isSome_some, if_true, hdir]

/-- A rotation, with a segment that starts behind `s`, leaves what is before unambiguous. -/
lemma Tracks.unambiguous_rotate (h : Tracks codec d closed cur wal) {s : ℕ}
    {next : LogSegment WalName WalRecord} (hnext : s < next.start)
    (hs : Unambiguous s (closed ++ [cur])) :
    Unambiguous s (closedWith closed cur (wal.digestName codec) ++ [next]) := by
  have hstart : (wal.digestName codec).startSeq = cur.key.startSeq := by
    rw [digestName, h.path]
  -- Where a segment of the new directory comes from.
  have hback : ∀ a ∈ closedWith closed cur (wal.digestName codec) ++ [next], a.start ≤ s →
      a ∈ closed ∨ a = { cur with key := wal.digestName codec } := by
    intro a ha hle
    rcases List.mem_append.mp ha with ha | ha
    · rcases List.mem_append.mp ha with ha | ha
      · exact .inl (List.mem_of_mem_filter ha)
      · exact .inr (List.mem_singleton.mp ha)
    · rw [List.mem_singleton.mp ha] at hle
      omega
  have hcur : ∀ seg ∈ closed, seg.key ≠ cur.key :=
    fun seg hseg heq => h.key (heq ▸ List.mem_map_of_mem hseg)
  refine hs.transfer ?_ ?_
  · intro a ha b hb hne heq hle
    rcases hback a ha hle with ha' | rfl <;> rcases hback b hb (heq ▸ hle) with hb' | rfl
    · exact ⟨a, List.mem_append_left _ ha', b, List.mem_append_left _ hb', hne, rfl, rfl⟩
    · exact ⟨a, List.mem_append_left _ ha', cur, by simp, hcur a ha', rfl, rfl⟩
    · exact ⟨cur, by simp, b, List.mem_append_left _ hb', (hcur b hb').symm, rfl, rfl⟩
    · exact absurd rfl hne
  · intro c hc _ _
    rcases List.mem_append.mp hc with hmem | hmem
    · by_cases hkey : c.key = wal.digestName codec
      · refine ⟨{ cur with key := wal.digestName codec },
          List.mem_append_left _ (List.mem_append_right _ (by simp)), ?_⟩
        rw [h.dir.named c hc, hkey, hstart, ← h.dir.named cur (by simp)]
      · exact ⟨c, List.mem_append_left _ (List.mem_append_left _
          (List.mem_filter.mpr ⟨hmem, by simpa using hkey⟩)), rfl⟩
    · rw [List.mem_singleton.mp hmem]
      exact ⟨{ cur with key := wal.digestName codec },
        List.mem_append_left _ (List.mem_append_right _ (by simp)), rfl⟩

/-- What an append of the record `r` leaves: the log with `r` behind it, and nothing before `r`
that was unambiguous has become ambiguous. -/
structure Extended (codec : LedgerCodec) (d : ℕ) (segs : List (LogSegment WalName WalRecord))
    (r : WalRecord) (closed : List (LogSegment WalName WalRecord))
    (cur : LogSegment WalName WalRecord) (wal : RollingWal) : Prop where
  tracks : Tracks codec d closed cur wal
  settled : Settled closed cur
  entries : entries (closed ++ [cur]) = entries segs ++ [r]
  unambiguous : ∀ s, s < r.1.toNat → Unambiguous s segs → Unambiguous s (closed ++ [cur])

/-- An append to the current segment. -/
lemma Tracks.extended (h : Tracks codec d closed cur wal)
    (hfits : (codec.records cur.entries).length + 8 + codec.dataLen r.2 ≤ walMaxSize)
    (hreadable : WalSegment.Readable codec r) :
    (RollingWal.appendToSegment codec r wal).1 = .ok () ∧
      Extended codec d (closed ++ [cur]) r closed { cur with entries := cur.entries ++ [r] }
        (RollingWal.appendToSegment codec r wal).2 := by
  obtain ⟨hok, htracks⟩ := h.appendToSegment hfits hreadable
  refine ⟨hok, htracks, fun _ => by simp, by simp, fun s _ hs => ?_⟩
  -- Keys and starts are the same on both sides.
  have hback : ∀ a ∈ closed ++ [{ cur with entries := cur.entries ++ [r] }],
      ∃ a' ∈ closed ++ [cur], a'.key = a.key ∧ a'.start = a.start := by
    intro a ha
    rcases List.mem_append.mp ha with ha | ha
    · exact ⟨a, List.mem_append_left _ ha, rfl, rfl⟩
    · rw [List.mem_singleton.mp ha]
      exact ⟨cur, by simp, rfl, rfl⟩
  refine hs.transfer ?_ ?_
  · intro a ha b hb hne heq hle
    obtain ⟨a', ha', hka, hsa⟩ := hback a ha
    obtain ⟨b', hb', hkb, hsb⟩ := hback b hb
    exact ⟨a', ha', b', hb', by rw [hka, hkb]; exact hne, hsa, hsb⟩
  · intro c hc _ _
    rcases List.mem_append.mp hc with hc | hc
    · exact ⟨c, List.mem_append_left _ hc, rfl⟩
    · rw [List.mem_singleton.mp hc]
      exact ⟨_, List.mem_append_right _ (List.mem_singleton_self _), rfl⟩

lemma fits_empty (hreadable : WalSegment.Readable codec r) :
    (codec.records []).length + 8 + codec.dataLen r.2 ≤ walMaxSize := by
  have hsize := hreadable.1
  have hmax : maxRecordSize + 8 ≤ walMaxSize := by decide
  rw [codec.records_nil, List.length_nil]
  omega

/-- A rotation, and then an append to the new segment. -/
lemma Tracks.extended_rotate (h : Tracks codec d closed cur wal) (hsettled : Settled closed cur)
    (hreadable : WalSegment.Readable codec r)
    (hseq : r.1.toNat = cur.start + cur.entries.length) :
    (RollingWal.appendToSegment codec r (wal.rotate codec clock r.1)).1 = .ok () ∧
      ∃ closed' cur', Extended codec d (closed ++ [cur]) r closed' cur'
        (RollingWal.appendToSegment codec r (wal.rotate codec clock r.1)).2 := by
  obtain ⟨htracks, hentries⟩ := h.rotate clock hsettled hseq
  obtain ⟨hok, hext⟩ := htracks.extended (fits_empty hreadable) hreadable
  refine ⟨hok, _, _, hext.tracks, hext.settled, ?_, fun s hs hclear => ?_⟩
  · rw [hext.entries, SegmentedLog.entries_append, hentries, SegmentedLog.entries_append]
    simp
  · exact hext.unambiguous s hs (h.unambiguous_rotate hs hclear)

/-- **Appending**: a record the reader can take is always appended, behind what is there. -/
lemma Tracks.append (h : Tracks codec d closed cur wal) (hsettled : Settled closed cur)
    (hreadable : WalSegment.Readable codec r)
    (hseq : r.1.toNat = cur.start + cur.entries.length) :
    (RollingWal.append codec clock r wal).1 = .ok () ∧
      ∃ closed' cur', Extended codec d (closed ++ [cur]) r closed' cur'
        (RollingWal.append codec clock r wal).2 := by
  have htick := h.tick (wal.ticks + 1)
  -- One way or the other, a first attempt that succeeds is the whole append.
  have hfirst : ∀ {wal' : RollingWal}, wal.rollByTime codec clock r.1 = wal' →
      (RollingWal.appendToSegment codec r wal').1 = .ok () →
        RollingWal.append codec clock r wal = RollingWal.appendToSegment codec r wal' := by
    intro wal' hroll hok
    rw [RollingWal.append, hroll]
    generalize RollingWal.appendToSegment codec r wal' = res at hok
    obtain ⟨_, wal''⟩ := res
    obtain rfl := hok
    rfl
  by_cases htime : clock wal.ticks - wal.lastRollTime ≥ walRollTime
  · have hroll : wal.rollByTime codec clock r.1 =
        RollingWal.rotate codec clock r.1 { wal with ticks := wal.ticks + 1 } := if_pos htime
    obtain ⟨hok, hext⟩ := htick.extended_rotate clock hsettled hreadable hseq
    rw [hfirst hroll hok]
    exact ⟨hok, hext⟩
  · have hroll : wal.rollByTime codec clock r.1 = { wal with ticks := wal.ticks + 1 } :=
      if_neg htime
    by_cases hfits : (codec.records cur.entries).length + 8 + codec.dataLen r.2 ≤ walMaxSize
    · obtain ⟨hok, hext⟩ := htick.extended hfits hreadable
      rw [hfirst hroll hok]
      exact ⟨hok, _, _, hext⟩
    · have hfull := htick.appendToSegment_full hfits
      have happend : RollingWal.append codec clock r wal = RollingWal.appendToSegment codec r
          (RollingWal.rotate codec clock r.1 { wal with ticks := wal.ticks + 1 }) := by
        rw [RollingWal.append, hroll, hfull]
      rw [happend]
      exact htick.extended_rotate clock hsettled hreadable hseq

end Appending

/-! ## Cleaning up -/

section Cleanup

open SegmentedLog (entries WellFormed Unambiguous)

variable {codec : LedgerCodec} {d : ℕ} {closed : List (LogSegment WalName WalRecord)}
  {cur : LogSegment WalName WalRecord} {wal : RollingWal} {listing : List WalName}

/-- What is deleted does not start behind what is kept. -/
lemma Tracks.start_le_of_old (h : Tracks codec d closed cur wal) (hsettled : Settled closed cur)
    (hlists : wal.dir.Lists listing) {a b : LogSegment WalName WalRecord}
    (ha : a ∈ closed ++ [cur]) (hb : b ∈ closed ++ [cur]) (hkept : a.key ∉ oldWals listing)
    (hold : b.key ∈ oldWals listing) : b.start ≤ a.start := by
  have hkeys := (h.wellFormed hsettled).keys
  obtain ⟨sorted, hperm, hnames, hpair⟩ := exists_listing h.dir hkeys hlists
  have hold_eq : oldWals listing =
      (sorted.take (sorted.length - walRetention)).map LogSegment.key := by
    rw [oldWals, ← hnames, List.length_map, List.map_take]
  rw [hold_eq] at hkept hold
  obtain ⟨b', hb', hkey⟩ := List.mem_map.mp hold
  obtain rfl : b' = b :=
    List.inj_on_of_nodup_map hkeys (hperm.mem_iff.mp (List.mem_of_mem_take hb')) hb hkey
  have ha' : a ∈ sorted.drop (sorted.length - walRetention) := by
    have hmem := hperm.mem_iff.mpr ha
    rw [← List.take_append_drop (sorted.length - walRetention) sorted, List.mem_append] at hmem
    exact hmem.resolve_left (fun htake => hkept (List.mem_map_of_mem htake))
  rw [← List.take_append_drop (sorted.length - walRetention) sorted] at hpair
  exact (List.pairwise_append.mp hpair).2.2 b' hb' a ha'

/-- The current segment is never deleted: at most one other starts as late, and three are kept. -/
lemma Tracks.current_kept (h : Tracks codec d closed cur wal) (hsettled : Settled closed cur)
    (hlists : wal.dir.Lists listing) : cur.key ∉ oldWals listing := by
  intro hold
  have hwf := h.wellFormed hsettled
  obtain ⟨sorted, hperm, hnames, hpair⟩ := exists_listing h.dir hwf.keys hlists
  have hold_eq : oldWals listing =
      (sorted.take (sorted.length - walRetention)).map LogSegment.key := by
    rw [oldWals, ← hnames, List.length_map, List.map_take]
  rw [hold_eq] at hold
  have hlen : walRetention < sorted.length := by
    by_contra hshort
    have hzero : sorted.length - walRetention = 0 := by omega
    rw [hzero, List.take_zero] at hold
    exact absurd hold List.not_mem_nil
  have hnodup : (sorted.map LogSegment.key).Nodup := (hperm.map _).nodup_iff.mpr hwf.keys
  -- Whatever is kept starts where the current segment does and is empty.
  have hempty : ∀ seg ∈ sorted.drop (sorted.length - walRetention),
      seg ∈ closed ∧ seg.entries = [] := by
    intro seg hseg
    have hkey : seg.key ∉ oldWals listing := by
      rw [hold_eq]
      rw [← List.take_append_drop (sorted.length - walRetention) sorted, List.map_append] at hnodup
      exact fun hmem => List.disjoint_of_nodup_append hnodup hmem (List.mem_map_of_mem hseg)
    have hne : seg.key ≠ cur.key := by
      intro heq
      rw [heq, hold_eq] at hkey
      exact hkey hold
    have hmem := hperm.mem_iff.mp (List.mem_of_mem_drop hseg)
    have hclosed : seg ∈ closed := by
      rcases List.mem_append.mp hmem with hmem | hmem
      · exact hmem
      · exact absurd (congrArg LogSegment.key (List.mem_singleton.mp hmem)) hne
    have hle := h.start_le_of_old (b := cur) hsettled hlists hmem (by simp) hkey
      (by rw [hold_eq]; exact hold)
    have heq : seg.start = cur.start := Nat.le_antisymm (h.sorted seg hclosed) hle
    refine ⟨hclosed,
      (hwf.contiguous.entries_eq_nil hwf.keys hmem (by simp) hne heq).resolve_right ?_⟩
    exact hsettled (List.ne_nil_of_mem hclosed)
  -- Only the first segment can be empty.
  have hsub : sorted.drop (sorted.length - walRetention) ⊆ closed.head?.toList := by
    intro seg hseg
    obtain ⟨hclosed, hnil⟩ := hempty seg hseg
    cases hc : closed with
    | nil => exact absurd (hc ▸ hclosed) List.not_mem_nil
    | cons first rest =>
        rw [hc] at hclosed
        rcases List.mem_cons.mp hclosed with rfl | htail
        · simp
        · exact absurd hnil (h.wf.nonempty seg (by rw [hc]; exact htail))
  have hcount := (List.subperm_of_subset
    ((List.Nodup.of_map _ hnodup).sublist (List.drop_sublist _ _)) hsub).length_le
  have hone : (closed.head?.toList).length ≤ 1 := by
    cases closed.head? <;> simp
  rw [List.length_drop] at hcount
  have hthree : walRetention = 3 := rfl
  omega

/-- **Cleaning up** takes records away from the front of the log, all of them from files that are
deleted. -/
lemma Tracks.cleanup (h : Tracks codec d closed cur wal) (hsettled : Settled closed cur)
    (hlists : wal.dir.Lists listing) :
    ∃ k closed', Tracks codec (d + k) closed' cur
        { wal with dir := cleanupOldWals listing wal.dir } ∧ Settled closed' cur ∧
      entries (closed ++ [cur]) = (entries (closed ++ [cur])).take k ++ entries (closed' ++ [cur]) ∧
      ((entries (closed ++ [cur])).take k).length = k ∧
      (∀ r ∈ (entries (closed ++ [cur])).take k, ∃ name ∈ oldWals listing, ∃ file,
        wal.dir.get? name = some file ∧ r ∈ (WalIterator.readAll codec file).1) ∧
      ∀ s, Unambiguous s (closed ++ [cur]) → Unambiguous s (closed' ++ [cur]) := by
  have hwf := h.wellFormed hsettled
  have hcur := h.current_kept hsettled hlists
  let keep : LogSegment WalName WalRecord → Bool := fun seg => seg.key ∉ oldWals listing
  have hkeep :
      ∀ {seg : LogSegment WalName WalRecord}, keep seg = true ↔ seg.key ∉ oldWals listing :=
    fun {seg} => decide_eq_true_iff
  have hdrop :
      ∀ {seg : LogSegment WalName WalRecord}, keep seg = false ↔ seg.key ∈ oldWals listing := by
    intro seg
    simp [keep]
  -- a deleted segment comes before every one that is kept, up to empty ones
  have hcut : closed.Pairwise (fun a b => keep a = true → keep b = false →
      a.entries = [] ∨ b.entries = []) := by
    refine List.Pairwise.imp_of_mem (fun {a b} ha hb hle hka hkb => ?_) h.wf.sorted
    have hle' := h.start_le_of_old hsettled hlists (List.mem_append_left _ ha)
      (List.mem_append_left _ hb) (hkeep.mp hka) (hdrop.mp hkb)
    have hne : a.key ≠ b.key := fun heq => hkeep.mp hka (heq ▸ hdrop.mp hkb)
    exact h.wf.contiguous.entries_eq_nil h.wf.keys ha hb hne (Nat.le_antisymm hle hle')
  obtain ⟨-, hsplit⟩ := h.wf.contiguous.filter hcut
  have hwf' := h.wf.filter hcut
  set gone := closed.filter (fun seg => !keep seg) with hgone
  have hall : entries (closed ++ [cur]) =
      entries gone ++ entries (closed.filter keep ++ [cur]) := by
    rw [SegmentedLog.entries_append, hsplit, SegmentedLog.entries_append, List.append_assoc]
  have htake : (entries (closed ++ [cur])).take (entries gone).length = entries gone := by
    rw [hall, List.take_left]
  have hget : ∀ name, (cleanupOldWals listing wal.dir).get? name =
      if name ∈ oldWals listing then none else wal.dir.get? name :=
    fun name => HashMap.get?_foldl_erase _ _ _
  refine ⟨(entries gone).length, closed.filter keep, ?_, ?_, ?_, ?_, ?_, ?_⟩
  · -- what is kept is still what the directory holds
    exact {
      wf := hwf'
      key := fun hmem => h.key ((List.filter_sublist.map LogSegment.key).subset hmem)
      sorted := fun seg hseg => h.sorted seg (List.mem_of_mem_filter hseg)
      start := by
        have hlen := congrArg List.length hsplit
        rw [List.length_append] at hlen
        rw [h.start]
        omega
      positive := fun seg hseg => h.positive seg (List.mem_of_mem_filter hseg)
      dir := {
        stored := by
          intro seg hseg
          rcases List.mem_append.mp hseg with hseg | hseg
          · obtain ⟨hmem, hkept⟩ := List.mem_filter.mp hseg
            obtain ⟨file, hfile, hstored⟩ := h.dir.stored seg (List.mem_append_left _ hmem)
            exact ⟨file, by rw [hget, if_neg (hkeep.mp hkept), hfile], hstored⟩
          · rw [List.mem_singleton.mp hseg]
            obtain ⟨file, hfile, hstored⟩ := h.dir.stored cur (by simp)
            exact ⟨file, by rw [hget, if_neg hcur, hfile], hstored⟩
        listed := by
          intro name hsome
          rw [hget] at hsome
          split at hsome
          · exact absurd hsome (by simp)
          · rename_i hkept
            obtain ⟨seg, hseg, rfl⟩ := h.dir.listed name hsome
            rcases List.mem_append.mp hseg with hseg | hseg
            · exact ⟨seg, List.mem_append_left _ (List.mem_filter.mpr ⟨hseg, hkeep.mpr hkept⟩), rfl⟩
            · exact ⟨seg, List.mem_append_right _ hseg, rfl⟩
        named := by
          intro seg hseg
          rcases List.mem_append.mp hseg with hseg | hseg
          · exact h.dir.named seg (List.mem_append_left _ (List.mem_of_mem_filter hseg))
          · exact h.dir.named seg (List.mem_append_right _ hseg)
        readable := by
          intro seg hseg
          rcases List.mem_append.mp hseg with hseg | hseg
          · exact h.dir.readable seg (List.mem_append_left _ (List.mem_of_mem_filter hseg))
          · exact h.dir.readable seg (List.mem_append_right _ hseg) }
      path := h.path
      file := by
        rw [hget, ← h.path, if_neg hcur, h.path]
        exact h.file
      holds := h.holds
      bare := h.bare
      renamed := fun seg hseg => h.renamed seg (List.mem_of_mem_filter hseg) }
  · intro hne
    refine hsettled (fun hnil => hne ?_)
    rw [hnil, List.filter_nil]
  · rw [htake]
    exact hall
  · rw [htake]
  · -- what is gone was in a file that is deleted
    intro r hr
    rw [htake] at hr
    obtain ⟨seg, hseg, hrseg⟩ := List.mem_flatMap.mp hr
    obtain ⟨hmem, hold⟩ := List.mem_filter.mp hseg
    obtain ⟨file, hfile, hdata, -⟩ := h.dir.stored seg (List.mem_append_left _ hmem)
    refine ⟨seg.key, hdrop.mp (by simpa using hold), file, hfile, ?_⟩
    rw [readAll_of_stored hdata (h.dir.readable seg (List.mem_append_left _ hmem))]
    exact hrseg
  · -- fewer segments are no more ambiguous
    intro s hs
    have hback :
        ∀ a ∈ closed.filter keep ++ [cur], a ∈ closed ++ [cur] ∧ a.key ∉ oldWals listing := by
      intro a ha
      rcases List.mem_append.mp ha with ha | ha
      · obtain ⟨hmem, hkept⟩ := List.mem_filter.mp ha
        exact ⟨List.mem_append_left _ hmem, hkeep.mp hkept⟩
      · exact ⟨List.mem_append_right _ ha, by rw [List.mem_singleton.mp ha]; exact hcur⟩
    refine hs.transfer ?_ ?_
    · intro a ha b hb hne heq hle
      exact ⟨a, (hback a ha).1, b, (hback b hb).1, hne, rfl, rfl⟩
    · rintro c hc - ⟨a, ha, hlt⟩
      obtain ⟨ha', hkept⟩ := hback a ha
      by_cases hold : c.key ∈ oldWals listing
      · have := h.start_le_of_old hsettled hlists ha' hc hkept hold
        omega
      · refine ⟨c, ?_, rfl⟩
        rcases List.mem_append.mp hc with hmem | hmem
        · exact List.mem_append_left _ (List.mem_filter.mpr ⟨hmem, hkeep.mpr hold⟩)
        · exact List.mem_append_right _ hmem

end Cleanup

end RollingWal

end ExchangeCore
