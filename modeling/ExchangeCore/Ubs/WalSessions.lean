import ExchangeCore.Ubs.GroupCommitFile

/-!
# Reopening the log with group commit

Several sessions on one file, each opened with `GroupCommitWal::open` and flushed at its end.  To
find where to go on, `find_write_position` looks at the first four bytes and at the length of the
file, not at the records: a file that has been allocated in advance and written to is continued
behind the zeros, where replay never comes.

`sessions_faithful_iff` says which sequences of sessions are replayed in full: those that find no
byte behind the records when they open a file with records.
-/

namespace ExchangeCore

namespace OnDisk

/-- A session: the configuration it opens the log with, and its calls before the final flush. -/
structure LogSession where
  config : GroupCommitConfig
  calls : List SessionCall

/-- The file, if it exists, and the entries accepted so far. -/
structure LogFile where
  file : Option Image
  entries : List WalEntry

namespace LogFile

/-- No file yet. -/
def fresh : LogFile := ⟨none, []⟩

/-- What there is to read. -/
def bytes (s : LogFile) : Bytes := s.file.elim [] Image.bytes

/-- The length of the file a session works on. -/
def allocatedLen (s : LogFile) (session : LogSession) : ℕ :=
  max (s.file.elim 0 Image.len) session.config.preAllocSize

end LogFile

/-- The calls of a session, all of whose flushes succeed. -/
def LogSession.logCalls (session : LogSession) : List LogCall :=
  session.calls.map SessionCall.synced

/-- The sessions on a file as a machine. -/
def sessionMachine (crc32 : Bytes → UInt32) : Machine LogFile LogSession Unit where
  step s session :=
    let wal := GroupCommitWal.openFile session.config s.file
    ({ file := some ((logMachine crc32).run wal (session.logCalls ++ [.flush .synced])).file
       entries := s.entries ++
         accepted session.logCalls ((logMachine crc32).answers wal session.logCalls) }, ())

/-- The session goes on right after the last record written. -/
def Resumes (crc32 : Bytes → UInt32) (s : LogFile) (session : LogSession) : Prop :=
  (GroupCommitWal.openFile session.config s.file).bytesWritten =
    (WalEntry.records crc32 s.entries).length

/-- The session has something to write. -/
def LogSession.Writes (session : LogSession) : Prop :=
  ∃ entry, .append entry ∈ session.calls ∧ entry.Fits ∧
    entry.serializedLen ≤ session.config.bufferSize

/-- The end of the records shows in the length of the file: behind records there is nothing, and a
file without records is empty or has room for the header that is looked at. -/
def ShowsEnd (crc32 : Bytes → UInt32) (s : LogFile) (session : LogSession) : Prop :=
  if s.entries = [] then s.allocatedLen session = 0 ∨ 4 ≤ s.allocatedLen session
  else s.allocatedLen session = (WalEntry.records crc32 s.entries).length

/-! ## Where a session goes on -/

/-- The file is made of the records of the entries, and zeros. -/
structure Intact (crc32 : Bytes → UInt32) (s : LogFile) : Prop where
  fits : ∀ entry ∈ s.entries, entry.Fits
  none_entries : s.file = none → s.entries = []
  bytes : ∃ m, s.bytes = WalEntry.records crc32 s.entries ++ List.replicate m 0

variable {crc32 : Bytes → UInt32} {s : LogFile} {session : LogSession} {file : Image}

lemma bytes_allocate (config : GroupCommitConfig) (file : Image) :
    ∃ m, (GroupCommitWal.allocate config file).bytes = file.bytes ++ List.replicate m 0 := by
  unfold GroupCommitWal.allocate
  split
  · exact ⟨_, Image.bytes_extend _ _⟩
  · exact ⟨0, by rw [List.replicate_zero, List.append_nil]⟩

lemma len_allocate (config : GroupCommitConfig) (file : Image) :
    (GroupCommitWal.allocate config file).len = max file.len config.preAllocSize := by
  unfold GroupCommitWal.allocate
  split
  · rfl
  · rename_i hnot
    omega

lemma Intact.allocated (h : Intact crc32 s) (session : LogSession) :
    ∃ m, (GroupCommitWal.openFile session.config s.file).file.bytes =
      WalEntry.records crc32 s.entries ++ List.replicate m 0 := by
  obtain ⟨m, hbytes⟩ := h.bytes
  have hfile : (s.file.getD (.zeroed 0)).bytes = s.bytes := by
    rw [LogFile.bytes]
    cases s.file with
    | none => rfl
    | some file => rfl
  obtain ⟨m', hallocate⟩ := bytes_allocate session.config (s.file.getD (.zeroed 0))
  refine ⟨m + m', hallocate.trans ?_⟩
  rw [hfile, hbytes, List.append_assoc, List.replicate_append_replicate]

lemma len_openFile (s : LogFile) (session : LogSession) :
    (GroupCommitWal.openFile session.config s.file).file.len = s.allocatedLen session := by
  refine (len_allocate session.config _).trans ?_
  rw [LogFile.allocatedLen]
  cases s.file with
  | none => rfl
  | some file => rfl

lemma readExact_header (h : 4 ≤ file.len) :
    ∃ header, file.readExact 0 4 = some header ∧
      UInt32.ofNat (Bytes.toNatLe header) = Bytes.u32At file.bytes 0 := by
  refine ⟨_, if_pos (by omega), ?_⟩
  obtain ⟨l, hl⟩ := Nat.exists_eq_add_of_le h
  rw [Bytes.u32At, List.drop_zero, Image.bytes, hl, ← Image.slice_append,
    List.take_append_of_le_length (Image.length_slice _ _ _).ge,
    List.take_of_length_le (Image.length_slice _ _ _).le]

lemma findWritePosition_cases (file : Image) :
    GroupCommitWal.findWritePosition file = 0 ∨
      GroupCommitWal.findWritePosition file = file.len := by
  unfold GroupCommitWal.findWritePosition
  split
  · exact .inl rfl
  · split
    · split
      · exact .inl rfl
      · exact .inr rfl
    · exact .inr rfl

/-- A file of zeros counts as empty if it has room for a header. -/
lemma findWritePosition_zeros (h : file.bytes = List.replicate file.len 0) :
    GroupCommitWal.findWritePosition file = 0 ↔ file.len = 0 ∨ 4 ≤ file.len := by
  by_cases hfour : 4 ≤ file.len
  · obtain ⟨header, hread, hheader⟩ := readExact_header hfour
    have hzero : Bytes.u32At file.bytes 0 = 0 := by
      rw [h, Bytes.u32At, List.drop_zero, List.take_replicate, Nat.min_eq_left hfour]
      rfl
    refine iff_of_true ?_ (.inr hfour)
    rw [GroupCommitWal.findWritePosition, if_neg (by omega), hread]
    dsimp only
    rw [if_pos (hheader.trans hzero)]
  · have hread : file.readExact 0 4 = none := if_neg (by omega)
    rw [GroupCommitWal.findWritePosition, hread]
    constructor
    · intro hposition
      split at hposition
      · left
        assumption
      · exact .inl hposition
    · rintro (hlen | hlen)
      · rw [if_pos hlen]
      · exact absurd hlen hfour

/-- A file that starts with a record is continued at its end. -/
lemma findWritePosition_record {entry : WalEntry} (hfits : entry.Fits) {rest : Bytes}
    (h : file.bytes = entry.record crc32 ++ rest) :
    GroupCommitWal.findWritePosition file = file.len := by
  have hlen : 9 ≤ file.len := by
    rw [← Image.length_bytes, h, List.length_append, WalEntry.length_record,
      WalEntry.serializedLen]
    omega
  obtain ⟨header, hread, hheader⟩ := readExact_header (by omega : 4 ≤ file.len)
  rw [GroupCommitWal.findWritePosition, if_neg (by omega), hread]
  dsimp only
  rw [if_neg]
  rw [hheader, h]
  exact WalEntry.u32At_record hfits

/-- A session goes on after the last record exactly if the length of the file shows where that
is. -/
lemma Intact.resumes_iff (h : Intact crc32 s) (session : LogSession) :
    Resumes crc32 s session ↔ ShowsEnd crc32 s session := by
  obtain ⟨m, hbytes⟩ := h.allocated session
  have hlen := len_openFile s session
  rw [Resumes, ShowsEnd, ← hlen]
  show GroupCommitWal.findWritePosition (GroupCommitWal.openFile session.config s.file).file =
    _ ↔ _
  have hfits := h.fits
  cases hentries : s.entries with
  | nil =>
      rw [hentries, WalEntry.records_nil, List.nil_append] at hbytes
      have hm := congrArg List.length hbytes
      rw [Image.length_bytes, List.length_replicate] at hm
      rw [← hm] at hbytes
      rw [WalEntry.records_nil, List.length_nil, if_pos rfl]
      exact findWritePosition_zeros hbytes
  | cons entry entries =>
      rw [hentries] at hbytes hfits
      rw [WalEntry.records_cons, List.append_assoc] at hbytes
      rw [findWritePosition_record (hfits entry List.mem_cons_self) hbytes,
        if_neg (List.cons_ne_nil _ _)]

/-! ## What a session writes -/

lemma session_bytes {config : GroupCommitConfig} {pre : Bytes} {m : ℕ}
    (hfile : file.bytes = pre ++ List.replicate m 0) (calls : List SessionCall) :
    (∀ entry ∈ accepted (calls.map SessionCall.synced) ((logMachine crc32).answers
        (.startAt config file pre.length) (calls.map SessionCall.synced)), entry.Fits) ∧
      ∃ m' ≤ m, ((logMachine crc32).run (.startAt config file pre.length)
        (calls.map SessionCall.synced ++ [.flush .synced])).file.bytes =
          pre ++ WalEntry.records crc32 (accepted (calls.map SessionCall.synced)
            ((logMachine crc32).answers (.startAt config file pre.length)
              (calls.map SessionCall.synced))) ++ List.replicate m' 0 := by
  have hstart : GroupCommitWal.Holds crc32 pre m (.startAt config file pre.length) [] :=
    ⟨by simp, _, GroupCommitWal.startAt_represents config hfile, rfl⟩
  obtain ⟨kept, hholds, -, hiff⟩ :=
    GroupCommitWal.run_holds hstart (calls.map SessionCall.synced)
  rw [List.nil_append] at hholds
  obtain rfl := hiff.mpr (allSteps_synced crc32 _ calls)
  rw [GroupCommitWal.run_concat_flush]
  exact ⟨hholds.1, GroupCommitWal.flush_bytes hholds⟩

namespace GroupCommitWal

/-- The capacity of the buffer. -/
def capacity (disk : GroupCommitWal) : ℕ := disk.buffer.capacity

lemma flush_capacity (io : FlushOutcome) : Fallible.Keeps capacity (flush io) := by
  intro disk
  unfold flush
  split
  · rfl
  · cases io with
    | synced => rfl
    | writeFailed written e => rfl
    | syncFailed e => rfl

lemma write_capacity (serialized : Bytes) : Fallible.Keeps capacity (write serialized) := by
  intro disk
  unfold write
  dsimp only
  split
  · rfl
  · rw [AlignedBuffer.write]
    split
    · rfl
    · rename_i buffer hwrite
      split at hwrite
      · exact absurd hwrite (by simp)
      · rw [← Option.some.inj hwrite]
        rfl

lemma appendRecord_capacity (room batch : FlushOutcome) (serialized : Bytes) :
    Fallible.Keeps capacity (appendRecord room batch serialized) := by
  unfold appendRecord
  refine Fallible.Keeps.bind (fun disk => ?_) (fun _ => ?_)
  · unfold makeRoom
    split
    · exact flush_capacity room disk
    · rfl
  refine Fallible.Keeps.bind (write_capacity serialized) (fun _ disk => ?_)
  unfold autoFlush
  split
  · exact flush_capacity batch disk
  · rfl

lemma append_capacity (crc32 : Bytes → UInt32) (room batch : FlushOutcome) (entry : WalEntry) :
    Fallible.Keeps capacity (append crc32 room batch entry) := by
  intro disk
  unfold append
  split
  · rfl
  · rfl
  · exact appendRecord_capacity room batch _ disk

end GroupCommitWal

/-- A session accepts nothing exactly if it has nothing to write. -/
lemma accepted_eq_nil_iff {disk : GroupCommitWal} {pre : Bytes} {spare : ℕ}
    {entries : List WalEntry} (h : GroupCommitWal.Holds crc32 pre spare disk entries)
    (calls : List SessionCall) :
    accepted (calls.map SessionCall.synced)
        ((logMachine crc32).answers disk (calls.map SessionCall.synced)) = [] ↔
      ∀ entry, .append entry ∈ calls → entry.Fits → disk.capacity < entry.serializedLen := by
  induction calls generalizing disk entries with
  | nil => exact iff_of_true rfl (fun _ hmem => absurd hmem List.not_mem_nil)
  | cons call calls ih =>
      rw [List.map_cons, Machine.answers_cons]
      cases call with
      | flush =>
          have hnext := ih (GroupCommitWal.flush_holds h .synced)
          rw [GroupCommitWal.flush_capacity] at hnext
          rw [SessionCall.synced, accepted_flush]
          refine hnext.trans ⟨fun hall entry hmem => ?_, fun hall entry hmem => ?_⟩
          · rcases List.mem_cons.mp hmem with heq | hmem
            · exact absurd heq (by simp)
            · exact hall entry hmem
          · exact hall entry (List.mem_cons_of_mem _ hmem)
      | append entry =>
          obtain ⟨hin, hout, hok⟩ := GroupCommitWal.append_spec h .synced .synced entry
          have henters : GroupCommitWal.Enters .synced entry disk ↔
              entry.Fits ∧ entry.serializedLen ≤ disk.capacity := by
            rw [GroupCommitWal.Enters, GroupCommitWal.capacity]
            exact ⟨fun h => ⟨h.1, h.2.1⟩, fun h => ⟨h.1, h.2, fun _ => rfl⟩⟩
          rw [SessionCall.synced, logMachine_append]
          by_cases hent : GroupCommitWal.Enters .synced entry disk
          · rw [hok.mpr ⟨hent, fun _ => rfl⟩, accepted_append_ok]
            -- an entry that fits is accepted, every flush being synced
            refine iff_of_false (List.cons_ne_nil _ _) (fun hall => ?_)
            obtain ⟨hfits, hle⟩ := henters.mp hent
            exact absurd hle (Nat.not_le.mpr (hall entry List.mem_cons_self hfits))
          · have hnext := ih (hout hent)
            rw [GroupCommitWal.append_capacity] at hnext
            rw [accepted_append_error (fun hans => hent (hok.mp hans).1)]
            refine hnext.trans ⟨fun hall e hmem hfits => ?_, fun hall e hmem => ?_⟩
            · rcases List.mem_cons.mp hmem with heq | hmem
              · obtain rfl := SessionCall.append.inj heq
                exact Nat.not_le.mp (fun hle => hent (henters.mpr ⟨hfits, hle⟩))
              · exact hall e hmem hfits
            · exact hall e (List.mem_cons_of_mem _ hmem)

/-! ## Records behind a few zeros -/

/-- Records that start behind up to three zeros, where no header is found, are not read back. -/
lemma entriesOf_misplaced {entries : List WalEntry} (hfits : ∀ entry ∈ entries, entry.Fits)
    (hne : entries ≠ []) {k : ℕ} (hpos : 0 < k) (hk : k < 4) :
    WalReplay.entriesOf crc32 (List.replicate k 0 ++ WalEntry.records crc32 entries) ≠
      entries := by
  obtain ⟨entry, rest, rfl⟩ := List.exists_cons_of_ne_nil hne
  have hentry : entry.Fits := hfits entry List.mem_cons_self
  set file := List.replicate k 0 ++ WalEntry.records crc32 (entry :: rest) with hfile
  have hlen : file.length = k + ((entry :: rest).map WalEntry.serializedLen).sum := by
    rw [hfile, List.length_append, List.length_replicate, WalEntry.length_records]
  have hsize : 9 ≤ file.length := by
    rw [hlen, List.map_cons, List.sum_cons, WalEntry.serializedLen]
    omega
  have hshort : (WalRecordFormat.unpackVerlen (Bytes.u32BeAt file 0)).2 < entry.data.length := by
    rw [hfile, WalEntry.records_cons]
    exact WalEntry.misread_length hentry hpos hk
  have hskip : (Bytes.u32At file 0).toNat % 256 = 0 := by
    obtain ⟨k, rfl⟩ := Nat.exists_eq_succ_of_ne_zero (Nat.ne_of_gt hpos)
    rw [hfile, List.replicate_succ, List.cons_append]
    exact WalEntry.u32At_zero_cons _
  obtain ⟨fuel, hfuel⟩ := Nat.exists_eq_succ_of_ne_zero (Nat.ne_of_gt (by omega : 0 < file.length))
  intro heq
  rw [WalReplay.entriesOf, hfuel, WalReplay.delivered,
    if_neg (by rw [WalRecordFormat.headerSize]; omega)] at heq
  -- What is left behind a skip has no room for all the records.
  have hrecover : (if (Bytes.u32At file 0).toNat > 0 ∧ (Bytes.u32At file 0).toNat < file.length then
      WalReplay.delivered crc32 fuel (file.drop (Bytes.u32At file 0).toNat) else []) ≠
        entry :: rest := by
    split
    · rename_i hrange
      intro hall
      have hroom := @WalReplay.size_delivered_le crc32 fuel
        (file.drop (Bytes.u32At file 0).toNat)
      rw [hall, List.length_drop] at hroom
      omega
    · exact fun hnil => absurd hnil.symm (List.cons_ne_nil _ _)
  cases hread : WalEntry.deserialize crc32 file with
  | ok read =>
      obtain ⟨found, consumed⟩ := read
      rw [hread] at heq
      obtain ⟨rfl, -⟩ := List.cons.inj heq
      obtain ⟨-, -, hlength⟩ := WalEntry.consumed_of_deserialize hread
      omega
  | error e =>
      rw [hread] at heq
      cases e with
      | tooShort => exact absurd heq.symm (List.cons_ne_nil _ _)
      | invalidLength len => exact hrecover heq
      | invalidType type => exact hrecover heq
      | crcMismatch stored computed => exact hrecover heq
      | ioError msg => exact hrecover heq

/-! ## Sequences of sessions -/

/-- A session whose position is known. -/
lemma openFile_eq {pre : Bytes}
    (hposition : (GroupCommitWal.openFile session.config s.file).bytesWritten = pre.length) :
    GroupCommitWal.openFile session.config s.file =
      .startAt session.config (GroupCommitWal.openFile session.config s.file).file pre.length := by
  rw [← hposition]
  rfl

/-- What a session leaves that starts behind `pre`. -/
lemma step_bytes {pre : Bytes} {m : ℕ}
    (hposition : (GroupCommitWal.openFile session.config s.file).bytesWritten = pre.length)
    (hfile : (GroupCommitWal.openFile session.config s.file).file.bytes =
      pre ++ List.replicate m 0) :
    ∃ new, (∀ entry ∈ new, entry.Fits) ∧ (new = [] ↔ ¬session.Writes) ∧
      ((sessionMachine crc32).step s session).1.entries = s.entries ++ new ∧
      ∃ m' ≤ m, ((sessionMachine crc32).step s session).1.bytes =
        pre ++ WalEntry.records crc32 new ++ List.replicate m' 0 := by
  have hopen := openFile_eq hposition
  have hstart : GroupCommitWal.Holds crc32 pre m
      (GroupCommitWal.openFile session.config s.file) [] := by
    rw [hopen]
    exact ⟨by simp, _, GroupCommitWal.startAt_represents session.config hfile, rfl⟩
  obtain ⟨hfits, m', hm', hbytes⟩ := @session_bytes crc32 _ session.config pre m hfile session.calls
  rw [← hopen] at hfits hbytes
  refine ⟨_, hfits, ?_, rfl, m', hm', hbytes⟩
  refine (accepted_eq_nil_iff hstart session.calls).trans ?_
  rw [LogSession.Writes]
  push Not
  rfl

/-- A session that goes on after the last record leaves the file intact. -/
lemma Intact.step_resumes (h : Intact crc32 s) (hresumes : Resumes crc32 s session) :
    Intact crc32 ((sessionMachine crc32).step s session).1 := by
  obtain ⟨m, hfile⟩ := h.allocated session
  obtain ⟨new, hfits, -, hentries, m', -, hbytes⟩ := @step_bytes crc32 _ _ _ _ hresumes hfile
  refine ⟨?_, fun hnone => absurd hnone (by simp [sessionMachine]), m', ?_⟩
  · intro entry hmem
    rw [hentries] at hmem
    exact (List.mem_append.mp hmem).elim (h.fits entry) (hfits entry)
  · rw [hbytes, hentries, WalEntry.records_append]

/-- Where the position found is not the end of the records, it is the end of the file. -/
lemma position_of_not_resumes (hempty : s.entries = []) (hnot : ¬Resumes crc32 s session) :
    (GroupCommitWal.openFile session.config s.file).bytesWritten =
      (GroupCommitWal.openFile session.config s.file).file.bytes.length := by
  rw [Image.length_bytes]
  rcases findWritePosition_cases (GroupCommitWal.openFile session.config s.file).file with
    hzero | hlen
  · refine absurd ?_ hnot
    rw [Resumes, hempty, WalEntry.records_nil]
    exact hzero
  · exact hlen

/-- A session that writes nothing into a new file leaves it intact. -/
lemma Intact.step_idle (h : Intact crc32 s) (hnone : s.file = none) (hidle : ¬session.Writes) :
    Intact crc32 ((sessionMachine crc32).step s session).1 := by
  by_cases hresumes : Resumes crc32 s session
  · exact h.step_resumes hresumes
  have hempty := h.none_entries hnone
  obtain ⟨m, hfile⟩ := h.allocated session
  have hposition := position_of_not_resumes hempty hresumes
  obtain ⟨new, -, hnew, hentries, m', hm', hbytes⟩ := @step_bytes crc32 _ _ _ _ hposition
    (by rw [List.replicate_zero, List.append_nil])
  obtain rfl := hnew.mpr hidle
  rw [hempty, List.append_nil] at hentries
  refine ⟨by rw [hentries]; simp, fun hnone => absurd hnone (by simp [sessionMachine]), m + m', ?_⟩
  rw [hbytes, hfile, hempty, hentries, WalEntry.records_nil, List.append_nil, List.nil_append,
    List.replicate_append_replicate, List.nil_append]

/-- What is written into a new file where its length does not show that it is empty is lost: neither
does replay deliver it, nor does a later session go on after it. -/
lemma Intact.step_misplaced (h : Intact crc32 s) (hnone : s.file = none)
    (hwrites : session.Writes) (hnot : ¬ShowsEnd crc32 s session) (sessions : List LogSession) :
    ¬((sessionMachine crc32).AllSteps (fun s session => s.file.isSome → Resumes crc32 s session)
        ((sessionMachine crc32).step s session).1 sessions ∧
      WalReplay.Delivers crc32
        ((sessionMachine crc32).run ((sessionMachine crc32).step s session).1 sessions).bytes
        ((sessionMachine crc32).run
          ((sessionMachine crc32).step s session).1 sessions).entries) := by
  have hempty := h.none_entries hnone
  obtain ⟨m, hfile⟩ := h.allocated session
  rw [hempty, WalEntry.records_nil, List.nil_append] at hfile
  have hlen := len_openFile s session
  rw [← Image.length_bytes, hfile, List.length_replicate] at hlen
  rw [ShowsEnd, if_pos hempty, ← hlen] at hnot
  -- the entries are written behind the zeros of the whole file
  have hposition := position_of_not_resumes hempty
    (fun hresumes => hnot (by
      have hshows := (h.resumes_iff session).mp hresumes
      rwa [ShowsEnd, if_pos hempty, ← hlen] at hshows))
  obtain ⟨new, hfits, hnew, hentries, m', hm', hbytes⟩ := @step_bytes crc32 _ _ _ _ hposition
    (by rw [List.replicate_zero, List.append_nil])
  obtain rfl : m' = 0 := Nat.le_zero.mp hm'
  rw [hfile, List.replicate_zero, List.append_nil] at hbytes
  rw [hempty, List.nil_append] at hentries
  have hne : new ≠ [] := fun hnil => hnew.mp hnil hwrites
  set next := ((sessionMachine crc32).step s session).1 with hnext
  rintro ⟨hall, hdelivers⟩
  cases sessions with
  | nil =>
      rw [Machine.run_nil, WalReplay.delivers_iff, hbytes, hentries] at hdelivers
      exact entriesOf_misplaced hfits hne (by omega) (by omega) hdelivers
  | cons session' sessions =>
      -- a later session finds 0 or the end of the file, and neither is the end of the records
      have hresumes : Resumes crc32 next session' := hall.1 rfl
      rw [Resumes, hentries] at hresumes
      have hlen' : next.allocatedLen session' ≥ m + (WalEntry.records crc32 new).length := by
        have hsize := congrArg List.length hbytes
        rw [List.length_append, List.length_replicate] at hsize
        rw [← hsize, LogFile.allocatedLen]
        show max _ _ ≥ (Image.bytes _).length
        rw [Image.length_bytes]
        exact Nat.le_max_left _ _
      have hrecords : 0 < (WalEntry.records crc32 new).length := by
        obtain ⟨entry, rest, rfl⟩ := List.exists_cons_of_ne_nil hne
        rw [WalEntry.records_cons, List.length_append, WalEntry.length_record,
          WalEntry.serializedLen]
        omega
      have hfound := findWritePosition_cases
        (GroupCommitWal.openFile session'.config next.file).file
      rw [len_openFile] at hfound
      have hwritten : (GroupCommitWal.openFile session'.config next.file).bytesWritten =
        GroupCommitWal.findWritePosition
          (GroupCommitWal.openFile session'.config next.file).file := rfl
      omega

/-- **Several sessions.**  Every session that opens an existing file goes on right after the last
record, and replay delivers all entries of all sessions, exactly if in every session the length of
the file shows where the records end, unless it creates the file and writes nothing. -/
theorem sessions_faithful_iff (crc32 : Bytes → UInt32) (sessions : List LogSession) :
    ((sessionMachine crc32).AllSteps (fun s session => s.file.isSome → Resumes crc32 s session)
        .fresh sessions ∧
      WalReplay.Delivers crc32 ((sessionMachine crc32).run .fresh sessions).bytes
        ((sessionMachine crc32).run .fresh sessions).entries) ↔
      (sessionMachine crc32).AllSteps (fun s session =>
        ShowsEnd crc32 s session ∨ s.file = none ∧ ¬session.Writes) .fresh sessions := by
  have hfresh : Intact crc32 .fresh := ⟨by simp [LogFile.fresh], fun _ => rfl, 0, rfl⟩
  generalize LogFile.fresh = s at hfresh
  induction sessions generalizing s with
  | nil =>
      refine iff_of_true ⟨trivial, ?_⟩ trivial
      obtain ⟨m, hbytes⟩ := hfresh.bytes
      rw [Machine.run_nil, WalReplay.delivers_iff, hbytes]
      exact WalReplay.entriesOf_records hfresh.fits m
  | cons session sessions ih =>
      rw [Machine.AllSteps, Machine.AllSteps, Machine.run_cons, and_assoc]
      by_cases hshows : ShowsEnd crc32 s session
      · have hresumes := (hfresh.resumes_iff session).mpr hshows
        have hmeets : s.file.isSome → Resumes crc32 s session := fun _ => hresumes
        have hcondition : ShowsEnd crc32 s session ∨ s.file = none ∧ ¬session.Writes := .inl hshows
        rw [and_iff_right hmeets, and_iff_right hcondition]
        exact ih _ (hfresh.step_resumes hresumes)
      by_cases hidle : s.file = none ∧ ¬session.Writes
      · have hvacuous : s.file.isSome → Resumes crc32 s session := by
          intro hsome
          rw [hidle.1] at hsome
          exact absurd hsome (by simp)
        have hcondition : ShowsEnd crc32 s session ∨ s.file = none ∧ ¬session.Writes := .inr hidle
        rw [and_iff_right hvacuous, and_iff_right hcondition]
        exact ih _ (hfresh.step_idle hidle.1 hidle.2)
      · refine iff_of_false ?_ (fun hall => hall.1.elim hshows hidle)
        -- the session is not the one allowed exception: it fails here, or a later replay does
        rintro ⟨hresumes, hrest⟩
        cases hfile : s.file with
        | none =>
            have hwrites : session.Writes := by
              by_contra hnot
              exact hidle ⟨hfile, hnot⟩
            exact hfresh.step_misplaced hfile hwrites hshows sessions hrest
        | some file =>
            exact hshows ((hfresh.resumes_iff session).mp (hresumes (by rw [hfile]; rfl)))

/-- 64 bytes are allocated in advance. -/
def allocating : GroupCommitConfig := ⟨100, 64, small_buffer_pos, 64⟩

/-- Two sessions of one deposit each. -/
def twoSessions : List LogSession :=
  [⟨allocating, [.append depositEntry]⟩, ⟨allocating, [.append depositEntry]⟩]

/-- The second session starts at the end of the file, behind the zeros, and its entry is not
replayed. -/
theorem second_session_lost :
    ¬((sessionMachine LedgerCodec.crc32Ieee).AllSteps
        (fun s session => s.file.isSome → Resumes LedgerCodec.crc32Ieee s session)
        .fresh twoSessions ∧
      WalReplay.Delivers LedgerCodec.crc32Ieee
        ((sessionMachine LedgerCodec.crc32Ieee).run .fresh twoSessions).bytes
        ((sessionMachine LedgerCodec.crc32Ieee).run .fresh twoSessions).entries) := by
  rw [WalReplay.delivers_iff]
  rintro ⟨-, hreplayed⟩
  exact absurd hreplayed (by decide +kernel)

end OnDisk

end ExchangeCore
