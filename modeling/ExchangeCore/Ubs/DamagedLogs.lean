import ExchangeCore.Ubs.GroupCommitFile
import ExchangeCore.Ubs.MmapFile
import ExchangeCore.Ubs.ReplayScan

/-!
# Logs with padding and logs with damage

The rounds of replay on files that writers leave: the records of some entries with zeros behind
them, and the same with one record damaged.

Eight or more zeros are not recognised as the end of the log but read as a header of length zero,
and noted as an error (`Written.clean_iff`).  Behind a damaged record the loop goes on at the
length of its data read in the wrong byte order and without the header, which is never where the
record ends; so what follows is delivered only if the bytes of the damaged record happen to lead
there (`damage_skipped_iff`).
-/

namespace ExchangeCore

namespace WalReplay

open Relation

/-! ## Rounds on records and on zeros -/

/-- The round skips over an error. -/
def IsSkip (a : ℕ × Round) : Prop := ∃ e len, a.2 = .skip e len

/-- The errors noted in some rounds. -/
def skipped (rounds : List (ℕ × Round)) : List (ℕ × WalError) :=
  rounds.filterMap fun
    | (_, .entry _ _) => none
    | (offset, .skip e _) => some (offset, e)

/-- The records of some entries, one behind the other, from an offset on. -/
def placed (offset : ℕ) : List WalEntry → List Delivery
  | [] => []
  | entry :: entries =>
      ⟨offset, entry, entry.serializedLen⟩ :: placed (offset + entry.serializedLen) entries

variable {crc32 : Bytes → UInt32} {file rest : Bytes} {offset looks : ℕ} {entry : WalEntry}
  {entries : List WalEntry} {w : Walked Halt (ℕ × Round)}

lemma deliveries_append (xs ys : List (ℕ × Round)) :
    deliveries (xs ++ ys) = deliveries xs ++ deliveries ys := List.filterMap_append

lemma deliveries_of_skips {rounds : List (ℕ × Round)} (h : ∀ a ∈ rounds, IsSkip a) :
    deliveries rounds = [] := by
  rw [deliveries, List.filterMap_eq_nil_iff]
  rintro ⟨offset, round⟩ hmem
  obtain ⟨e, len, rfl⟩ := h _ hmem
  rfl

lemma look_record (hdrop : file.drop offset = entry.record crc32 ++ rest) (hfits : entry.Fits) :
    look crc32 file offset =
      .item (offset, .entry entry entry.serializedLen) (offset + entry.serializedLen) := by
  have hlength : (file.drop offset).length = entry.serializedLen + rest.length := by
    rw [hdrop, List.length_append, WalEntry.length_record]
  have hsize : WalRecordFormat.headerSize ≤ entry.serializedLen := by
    rw [WalEntry.serializedLen, WalRecordFormat.headerSize]
    omega
  have hoffset : offset < file.length := by
    rw [List.length_drop] at hlength
    rw [WalRecordFormat.headerSize] at hsize
    omega
  rw [look_of_lt hoffset, found, if_neg (by omega), hdrop, WalEntry.deserialize_record hfits]

lemma walk_records (hdrop : file.drop offset = WalEntry.records crc32 entries ++ rest)
    (hfits : ∀ entry ∈ entries, entry.Fits)
    (hwalk : Found.walk (look crc32 file) looks offset = some w) :
    ∃ before looks' w', deliveries before = placed offset entries ∧ skipped before = [] ∧
      Found.walk (look crc32 file) looks' (offset + (WalEntry.records crc32 entries).length) =
        some w' ∧
      w = { w' with items := before ++ w'.items } := by
  induction entries generalizing offset looks w with
  | nil => exact ⟨[], looks, w, rfl, rfl, hwalk, rfl⟩
  | cons entry entries ih =>
      rw [List.forall_mem_cons] at hfits
      rw [WalEntry.records_cons, List.append_assoc] at hdrop
      have hlook := look_record hdrop hfits.1
      have hbehind : file.drop (offset + entry.serializedLen) =
          WalEntry.records crc32 entries ++ rest := by
        rw [← List.drop_drop, hdrop, List.drop_left' WalEntry.length_record]
      rcases looks with _ | looks
      · exact absurd hwalk (by simp [Found.walk])
      obtain ⟨later, hlater, rfl⟩ := Found.walk_of_item hlook hwalk
      obtain ⟨before, looks', w', hdeliveries, hskipped, hwalk', rfl⟩ := ih hbehind hfits.2 hlater
      refine ⟨(offset, .entry entry entry.serializedLen) :: before, looks', w', ?_, hskipped, ?_,
        rfl⟩
      · rw [placed, ← hdeliveries]
        rfl
      · rw [WalEntry.records_cons, List.length_append, WalEntry.length_record, ← Nat.add_assoc]
        exact hwalk'

/-- Fewer than eight zeros end the log; more of them are a header of length zero. -/
lemma look_zeros {padding : ℕ} (hdrop : file.drop offset = List.replicate padding 0) :
    look crc32 file offset =
      if padding < 8 then .finish else .fault (.noted (.invalidLength 0)) := by
  have hlength : (file.drop offset).length = padding := by rw [hdrop, List.length_replicate]
  by_cases hoffset : offset < file.length
  swap
  · rw [look, if_neg hoffset, if_pos]
    rw [List.length_drop] at hlength
    omega
  rw [look_of_lt hoffset, found, WalRecordFormat.headerSize, hlength]
  by_cases hshort : padding < 8
  · rw [if_pos hshort, if_pos hshort, if_pos]
    rw [hdrop, List.all_replicate]
    simp
  rw [if_neg hshort, if_neg hshort, hdrop, WalEntry.deserialize_zeros (by omega)]
  dsimp only
  rw [skipLen, Bytes.u32At_replicate_zero]
  rfl

lemma walk_zeros {padding : ℕ} (hdrop : file.drop offset = List.replicate padding 0)
    (hwalk : Found.walk (look crc32 file) looks offset = some w) :
    w = ⟨[], offset, if padding < 8 then none else some (.noted (.invalidLength 0))⟩ := by
  rcases looks with _ | looks
  · exact absurd hwalk (by simp [Found.walk])
  rw [Found.walk, look_zeros hdrop] at hwalk
  split
  · rename_i hshort
    rw [if_pos hshort] at hwalk
    exact (Option.some.inj hwalk).symm
  · rename_i hlong
    rw [if_neg hlong] at hwalk
    exact (Option.some.inj hwalk).symm

/-! ## Padding -/

section Padding

variable {σ : Type} {callback : WalEntry → Fallible σ WalError Unit} {padding : ℕ}

lemma errors_runRounds (hok : ∀ entry s, (callback entry s).1 = .ok ())
    (rounds : List (ℕ × Round)) (replay : WalReplay) (s : σ) :
    (runRounds callback rounds replay s).1.errors = replay.errors ++ skipped rounds := by
  induction rounds generalizing replay s with
  | nil => exact (List.append_nil _).symm
  | cons round rounds ih =>
      obtain ⟨offset, entry | ⟨e, len⟩⟩ := round
      · rw [runRounds, ih, hok]
        rfl
      · rw [runRounds, ih]
        exact List.append_assoc _ _ _

/-- The errors of the records of some entries with zeros behind them: none, or one. -/
lemma errors_records (hok : ∀ entry s, (callback entry s).1 = .ok ())
    (hfits : ∀ entry ∈ entries, entry.Fits) (padding : ℕ) (s : σ) :
    (replay crc32 callback (WalEntry.records crc32 entries ++ List.replicate padding 0)
      s).1.errors = if padding < 8 then 0 else 1 := by
  obtain ⟨w, hscan, -⟩ :=
    scan_ends crc32 (WalEntry.records crc32 entries ++ List.replicate padding 0)
  obtain ⟨before, looks, w', -, hskipped, hwalk, rfl⟩ :=
    @walk_records crc32 _ (List.replicate padding 0) 0 _ _ _ (List.drop_zero ..) hfits hscan
  rw [Nat.zero_add] at hwalk
  have hloop := @loop_eq_walk crc32 _ 0 σ callback new s
    (WalEntry.records crc32 entries ++ List.replicate padding 0).length _ _ hscan (by omega)
    (Nat.zero_le _)
  obtain rfl := @walk_zeros crc32 _ _ _ _ padding List.drop_left hwalk
  rw [List.drop_zero] at hloop
  rw [WalReplay.replay, hloop]
  show (noteHalt _ (if padding < 8 then none else some (.noted (.invalidLength 0)))
    (runRounds callback (before ++ []) new s).1).errors.length = _
  have herrors : (runRounds callback (before ++ []) new s).1.errors = [] := by
    rw [errors_runRounds hok, List.append_nil, hskipped]
    rfl
  split
  · show (runRounds callback (before ++ []) new s).1.errors.length = 0
    rw [herrors, List.length_nil]
  · show ((runRounds callback (before ++ []) new s).1.errors ++ [_]).length = 1
    rw [herrors, List.nil_append, List.length_singleton]

end Padding

end WalReplay

/-! ## Logs as they are written -/

/-- A log has been written without failures and flushed: the entries it has accepted, and the file.
The first is a `GroupCommitWal`, the second an `MmapWal`. -/
inductive Written (crc32 : Bytes → UInt32) : List WalEntry → Bytes → Prop
  | groupCommit (config : GroupCommitConfig) (calls : List OnDisk.SessionCall) :
      Written crc32
        (OnDisk.accepted (calls.map OnDisk.SessionCall.synced)
          ((OnDisk.logMachine crc32).answers (.create config)
            (calls.map OnDisk.SessionCall.synced)))
        ((OnDisk.logMachine crc32).run (.create config)
          (calls.map OnDisk.SessionCall.synced ++ [.flush .synced])).file.bytes
  | mmap (entries : List WalEntry) :
      Written crc32
        ((OnDisk.mmapMachine crc32).run .fresh (.openFile :: entries.map .append)).appended
        ((OnDisk.mmapMachine crc32).run .fresh (.openFile :: entries.map .append)).bytes

namespace Written

variable {crc32 : Bytes → UInt32} {entries : List WalEntry} {file : Bytes}

lemma intact_of_appends {s : OnDisk.MmapHistory} (h : s.Intact crc32)
    (hfits : ∀ entry ∈ s.appended, entry.Fits) (entries : List WalEntry) :
    ((OnDisk.mmapMachine crc32).run s (entries.map .append)).Intact crc32 ∧
      ∀ entry ∈ ((OnDisk.mmapMachine crc32).run s (entries.map .append)).appended,
        entry.Fits := by
  induction entries generalizing s with
  | nil => exact ⟨h, hfits⟩
  | cons entry entries ih =>
      refine ih (h.step_append entry) ?_
      show ∀ e ∈ (s.append crc32 entry).appended, e.Fits
      obtain ⟨wal, appended⟩ := s
      rcases wal with _ | disk
      · exact hfits
      unfold OnDisk.MmapHistory.append OnDisk.MmapWal.append
      dsimp only
      by_cases hentry : entry.Fits
      · rw [WalEntry.serialize_of_fits hentry]
        dsimp only
        rcases (OnDisk.MmapWal.appendRecord (entry.record crc32) disk).1 with e | _
        · exact hfits
        · intro e he
          rcases List.mem_append.mp he with he | he
          · exact hfits e he
          · rwa [List.mem_singleton.mp he]
      · obtain ⟨message, hpanic⟩ := @WalEntry.serialize_of_not_fits crc32 entry hentry
        rw [hpanic]
        exact hfits

lemma bytes_eq (h : Written crc32 entries file) :
    (∀ entry ∈ entries, entry.Fits) ∧
      ∃ padding, file = WalEntry.records crc32 entries ++ List.replicate padding 0 := by
  rcases h with ⟨config, calls⟩ | entries
  · obtain ⟨kept, hholds, -, hiff⟩ := OnDisk.GroupCommitWal.run_holds
      (OnDisk.GroupCommitWal.create_holds crc32 config) (calls.map OnDisk.SessionCall.synced)
    rw [List.nil_append] at hholds
    obtain ⟨padding, -, hbytes⟩ := OnDisk.GroupCommitWal.flush_bytes hholds
    rw [hiff.mpr (OnDisk.allSteps_synced crc32 _ calls), OnDisk.GroupCommitWal.run_concat_flush]
    exact ⟨hholds.1, padding, hbytes⟩
  · have hfresh : OnDisk.MmapHistory.Intact crc32 .fresh := rfl
    have hend : OnDisk.MmapHistory.FindsEnd crc32 .fresh .openFile :=
      (hfresh.findsEnd_iff .openFile).mpr
        (fun _ => ⟨[], rfl, fun block hblock => absurd hblock List.not_mem_nil⟩)
    obtain ⟨hintact, hfits⟩ := @intact_of_appends crc32
      ((OnDisk.mmapMachine crc32).step .fresh .openFile).1 (hfresh.step_openFile hend)
      (fun entry he => absurd he List.not_mem_nil) entries
    rw [Machine.run_cons]
    refine ⟨hfits, ?_⟩
    generalize (OnDisk.mmapMachine crc32).run _ (entries.map .append) = s at hintact
    obtain ⟨wal, appended⟩ := s
    rcases wal with _ | disk
    · obtain rfl : appended = [] := hintact
      exact ⟨0, rfl⟩
    · obtain ⟨log, hrep, -, rfl⟩ := hintact
      refine ⟨disk.mmap.len - disk.mmap.data.length, (Image.bytes_eq disk.mmap).trans ?_⟩
      rw [hrep.data]

/-- **Padding.**  Replayed with a callback that never fails, a log has no errors if and only if
fewer than eight zeros follow the last record. -/
theorem clean_iff (h : Written crc32 entries file) {σ : Type}
    {callback : WalEntry → Fallible σ WalError Unit}
    (hok : ∀ entry s, (callback entry s).1 = .ok ()) (extra : ℕ) (s : σ) :
    (WalReplay.replay crc32 callback (file ++ List.replicate extra 0) s).1.errors = 0 ↔
      file.length + extra < (WalEntry.records crc32 entries).length + 8 := by
  obtain ⟨hfits, padding, rfl⟩ := h.bytes_eq
  rw [List.append_assoc, List.replicate_append_replicate, WalReplay.errors_records hok hfits,
    List.length_append, List.length_replicate]
  split
  · rename_i hshort
    exact iff_of_true rfl (by omega)
  · rename_i hlong
    exact iff_of_false (by omega) (by omega)

/-- A session that appends a deposit. -/
def oneDeposit : List OnDisk.SessionCall := [.append OnDisk.depositEntry]

/-- Without allocation, and with seven zeros behind it, the log of a deposit is clean. -/
theorem clean_iff_deposit :
    (WalReplay.replay LedgerCodec.crc32Ieee (fun _ s => (.ok (), s))
      (((OnDisk.logMachine LedgerCodec.crc32Ieee).run (.create OnDisk.smallBatches)
        (oneDeposit.map OnDisk.SessionCall.synced ++ [.flush .synced])).file.bytes ++
          List.replicate 7 0) ()).1.errors = 0 := by
  have hshort : ((OnDisk.logMachine LedgerCodec.crc32Ieee).run (.create OnDisk.smallBatches)
      (oneDeposit.map OnDisk.SessionCall.synced ++ [.flush .synced])).file.bytes.length + 7 <
      (WalEntry.records LedgerCodec.crc32Ieee
        (OnDisk.accepted (oneDeposit.map OnDisk.SessionCall.synced)
          ((OnDisk.logMachine LedgerCodec.crc32Ieee).answers (.create OnDisk.smallBatches)
            (oneDeposit.map OnDisk.SessionCall.synced)))).length + 8 := by
    decide +kernel
  exact (clean_iff (.groupCommit OnDisk.smallBatches oneDeposit) (fun _ _ => rfl) 7 ()).mpr hshort

theorem allocated_not_clean :
    ¬∀ (entries : List WalEntry) (file : Bytes), Written LedgerCodec.crc32Ieee entries file →
      (WalReplay.replay LedgerCodec.crc32Ieee (fun _ s => (.ok (), s)) file ()).1.errors = 0 := by
  intro hclean
  have herrors := hclean _ _
    (.groupCommit ⟨1, 64, OnDisk.small_buffer_pos, 64⟩ oneDeposit)
  exact absurd herrors (by decide +kernel)

end Written

/-! ## Damage -/

namespace WalReplay

open Relation

variable {crc32 : Bytes → UInt32} {file bad rest : Bytes} {offset looks : ℕ} {entry : WalEntry}
  {w : Walked Halt (ℕ × Round)}

/-- The bytes of a record after damage to its data: version and length are as they were, but the
checksum does not match any more, or the type is not known. -/
structure Damaged (crc32 : Bytes → UInt32) (entry : WalEntry) (bad : Bytes) : Prop where
  length : bad.length = entry.serializedLen
  verlen : bad.take 4 = (entry.record crc32).take 4
  unreadable : crc32 (bad.take 4 ++ bad.drop 8) ≠ Bytes.u32BeAt bad 4 ∨
    ∃ typeByte payload, bad.drop 8 = typeByte :: payload ∧ WalEntryType.tryFrom typeByte = none

/-- From an undecodable position the loop skips to another one. -/
def SkipsTo (crc32 : Bytes → UInt32) (file : Bytes) (pos pos' : ℕ) : Prop :=
  pos + 8 ≤ file.length ∧ pos' = pos + skipLen (file.drop pos) ∧ pos < pos' ∧ pos' < file.length ∧
    ∃ e, WalEntry.deserialize crc32 (file.drop pos) = .error e ∧ e ≠ .tooShort

/-- An entry can be read at a position. -/
def Readable (crc32 : Bytes → UInt32) (file : Bytes) (pos : ℕ) : Prop :=
  ∃ entry consumed, WalEntry.deserialize crc32 (file.drop pos) = .ok (entry, consumed)

lemma leadsBy_skip_iff {pos' : ℕ} :
    Found.LeadsBy IsSkip (look crc32 file) offset pos' ↔ SkipsTo crc32 file offset pos' := by
  have hlength : (file.drop offset).length = file.length - offset := List.length_drop
  constructor
  · rintro ⟨a, hlook, e, len, hskip⟩
    have hoffset : offset < file.length := by
      by_contra hnot
      rw [look, if_neg hnot] at hlook
      exact absurd hlook (by simp)
    rw [look_of_lt hoffset] at hlook
    rcases found_cases crc32 offset (file.drop offset) with
      (hend | ⟨e', hend⟩) | ⟨entry, consumed, -, hitem⟩ |
        ⟨e', ⟨hsize, hread, hne⟩, hpos, hlt, hitem⟩
    · rw [hend] at hlook
      exact absurd hlook (by simp)
    · rw [hend] at hlook
      exact absurd hlook (by simp)
    · rw [hitem] at hlook
      obtain ⟨rfl, -⟩ := Found.item.inj hlook
      exact absurd hskip (by simp)
    · rw [hitem] at hlook
      obtain ⟨-, rfl⟩ := Found.item.inj hlook
      rw [WalRecordFormat.headerSize] at hsize
      exact ⟨by omega, rfl, by omega, by omega, e', hread, hne⟩
  · rintro ⟨hsize, rfl, hpos, hlt, e, hread, hne⟩
    have hfound := @found_of_error crc32 _ offset e
      (by rw [WalRecordFormat.headerSize]; omega) hread hne
    rw [if_pos ⟨by omega, by omega⟩] at hfound
    exact ⟨_, (look_of_lt (by omega)).trans hfound, e, _, rfl⟩

lemma skipsTo_lt {pos pos' : ℕ} (h : SkipsTo crc32 file pos pos') : pos < pos' := h.2.2.1

lemma le_of_skips {pos pos' : ℕ} (h : ReflTransGen (SkipsTo crc32 file) pos pos') : pos ≤ pos' := by
  induction h with
  | refl => exact Nat.le_refl _
  | tail _ hstep ih => exact ih.trans (skipsTo_lt hstep).le

/-- The first four bytes say how far to skip. -/
lemma Damaged.skipLen_eq (h : Damaged crc32 entry bad) (hfits : entry.Fits) :
    skipLen (bad ++ rest) = 256 * (entry.data.length / 256 / 256) +
      65536 * (entry.data.length / 256 % 256) + 16777216 * (entry.data.length % 256) := by
  have hlen := h.length
  rw [WalEntry.serializedLen] at hlen
  have hword : Bytes.u32At (bad ++ rest) 0 = Bytes.u32At (entry.record crc32 ++ rest) 0 := by
    have hrecord := @WalEntry.length_record crc32 entry
    rw [WalEntry.serializedLen] at hrecord
    rw [Bytes.u32At, Bytes.u32At, Bytes.slice_append_of_le (by omega),
      Bytes.slice_append_of_le (by omega), List.drop_zero, List.drop_zero, h.verlen]
  rw [skipLen, hword, WalEntry.toNat_u32At_record hfits]

/-- A log with a damaged record among others. -/
def damagedLog (crc32 : Bytes → UInt32) (before : List WalEntry) (bad : Bytes)
    (after : List WalEntry) (padding : ℕ) : Bytes :=
  WalEntry.records crc32 before ++
    (bad ++ (WalEntry.records crc32 after ++ List.replicate padding 0))

/-- Replay hands over these records, at these places, and no others. -/
def HandsOver (crc32 : Bytes → UInt32) (file : Bytes) (records : List Delivery) : Prop :=
  ∃ w, scan crc32 file = some w ∧ deliveries w.items = records

/-- From the damaged record the skips lead to the one behind it; if there is none, they lead to
nothing that can be read. -/
def Resumes (crc32 : Bytes → UInt32) (file : Bytes) (damage behind : ℕ) : List WalEntry → Prop
  | [] => ∀ pos, ReflTransGen (SkipsTo crc32 file) damage pos → ¬Readable crc32 file pos
  | _ :: _ => ReflTransGen (SkipsTo crc32 file) damage behind

lemma leadsBy_of_skips {pos : ℕ} (h : ReflTransGen (SkipsTo crc32 file) offset pos) :
    ReflTransGen (Found.LeadsBy IsSkip (look crc32 file)) offset pos :=
  h.lift id (fun _ _ => leadsBy_skip_iff.mpr)

/-- Skips to a position that can be read hand over what is there. -/
lemma deliveries_of_readable {pos : ℕ} (hskips : ReflTransGen (SkipsTo crc32 file) offset pos)
    (hread : Readable crc32 file pos)
    (hwalk : Found.walk (look crc32 file) looks offset = some w) : deliveries w.items ≠ [] := by
  obtain ⟨before, looks', rest, -, hrest, rfl⟩ :=
    Found.walk_split (leadsBy_of_skips hskips) hwalk
  obtain ⟨entry, consumed, hread⟩ := hread
  obtain ⟨hconsumed, hle, -⟩ := WalEntry.consumed_of_deserialize hread
  rw [WalEntry.serializedLen] at hconsumed
  have hlength : (file.drop pos).length = file.length - pos := List.length_drop
  have hlook : look crc32 file pos = .item (pos, .entry entry consumed) (pos + consumed) := by
    rw [look_of_lt (by omega), found, if_neg (by rw [WalRecordFormat.headerSize]; omega), hread]
  rcases looks' with _ | looks'
  · exact absurd hrest (by simp [Found.walk])
  obtain ⟨later, -, rfl⟩ := Found.walk_of_item hlook hrest
  dsimp only
  rw [deliveries_append]
  intro hnil
  exact absurd (List.append_eq_nil_iff.mp hnil).2 (List.cons_ne_nil _ _)

lemma first_delivery (hwalk : Found.walk (look crc32 file) looks offset = some w) :
    deliveries w.items = [] ∨
      ∃ d later, deliveries w.items = d :: later ∧ Readable crc32 file d.offset ∧
        ReflTransGen (SkipsTo crc32 file) offset d.offset := by
  rcases @Found.walk_first _ _ (look crc32 file) offset looks w IsSkip hwalk with
    hall | ⟨before, ⟨place', round⟩, behind, later, place, hbefore, hnot, hleads, hlook, hitems⟩
  · exact .inl (deliveries_of_skips hall)
  obtain ⟨hplace, -, -, -, hread⟩ := look_item hlook
  obtain rfl : place' = place := hplace
  rcases round with ⟨entry, consumed⟩ | ⟨e, len⟩
  · refine .inr ⟨⟨place', entry, consumed⟩, deliveries later, ?_,
      ⟨entry, consumed, hread entry consumed rfl⟩, ?_⟩
    · rw [hitems, deliveries_append, deliveries_of_skips hbefore]
      rfl
    · exact hleads.lift id (fun _ _ => leadsBy_skip_iff.mp)
  · exact absurd ⟨e, len, rfl⟩ hnot

section Damage

variable {before after : List WalEntry}

/-- The record behind the damaged one is too near: the skip from the damaged record goes elsewhere,
and past it if the damaged record has less than 64 KiB of data. -/
lemma Damaged.skip_misses (h : Damaged crc32 entry bad) (hfits : entry.Fits) :
    skipLen (bad ++ rest) ≠ bad.length ∧
      (entry.data.length < 65536 → bad.length < skipLen (bad ++ rest)) := by
  have hpos := entry.length_data_pos
  have hlength := h.length
  have hsize : entry.serializedLen = 8 + entry.data.length := by
    rw [WalEntry.serializedLen, WalEntry.data, List.length_cons]
    omega
  rw [h.skipLen_eq hfits, hlength, hsize]
  exact ⟨by omega, fun hsmall => by omega⟩

lemma drop_damagedLog (padding : ℕ) :
    (damagedLog crc32 before bad after padding).drop (WalEntry.records crc32 before).length =
      bad ++ (WalEntry.records crc32 after ++ List.replicate padding 0) :=
  List.drop_left

/-- What is handed over is what the records before the damage give, and then what the walk from the
damaged record on gives. -/
lemma walk_from_damage (hbefore : ∀ entry ∈ before, entry.Fits) (padding : ℕ) :
    ∃ looks w, Found.walk (look crc32 (damagedLog crc32 before bad after padding)) looks
        (WalEntry.records crc32 before).length = some w ∧
      ∀ records, HandsOver crc32 (damagedLog crc32 before bad after padding)
        (placed 0 before ++ records) ↔ deliveries w.items = records := by
  obtain ⟨w, hscan, -⟩ := scan_ends crc32 (damagedLog crc32 before bad after padding)
  obtain ⟨rounds, looks, w', hrounds, -, hwalk, rfl⟩ :=
    @walk_records crc32 (damagedLog crc32 before bad after padding)
      (bad ++ (WalEntry.records crc32 after ++ List.replicate padding 0)) 0 _ _ _
      (List.drop_zero ..) hbefore hscan
  rw [Nat.zero_add] at hwalk
  refine ⟨looks, w', hwalk, fun records => ?_⟩
  constructor
  · rintro ⟨w, hscan', hdeliveries⟩
    obtain rfl := Option.some.inj (hscan'.symm.trans hscan)
    rw [deliveries_append, hrounds] at hdeliveries
    exact List.append_cancel_left hdeliveries
  · rintro rfl
    refine ⟨_, hscan, ?_⟩
    rw [deliveries_append, hrounds]

/-- The walk from the damaged record on hands over the records behind it exactly if the skips lead
there. -/
lemma deliveries_from_iff (hafter : ∀ entry ∈ after, entry.Fits) {padding behind : ℕ}
    (hdrop : file.drop behind = WalEntry.records crc32 after ++ List.replicate padding 0)
    (hwalk : Found.walk (look crc32 file) looks offset = some w) :
    deliveries w.items = placed behind after ↔ Resumes crc32 file offset behind after := by
  rcases after with _ | ⟨next, after⟩
  · constructor
    · intro hnil pos hskips hread
      exact deliveries_of_readable hskips hread hwalk hnil
    · intro hnone
      rcases first_delivery hwalk with hnil | ⟨d, later, -, hread, hskips⟩
      · exact hnil
      · exact absurd hread (hnone _ hskips)
  · constructor
    · intro hdeliveries
      rcases first_delivery hwalk with hnil | ⟨d, later, hfirst, -, hskips⟩
      · exact absurd (hnil.symm.trans hdeliveries) (by simp [placed])
      · obtain ⟨rfl, -⟩ := List.cons.inj (hfirst.symm.trans hdeliveries)
        exact hskips
    · intro hskips
      obtain ⟨skips, looks', w', hskipped, hwalk', rfl⟩ :=
        Found.walk_split (leadsBy_of_skips hskips) hwalk
      obtain ⟨rounds, looks'', w'', hrounds, -, hwalk'', rfl⟩ := walk_records hdrop hafter hwalk'
      have hend : file.drop (behind + (WalEntry.records crc32 (next :: after)).length) =
          List.replicate padding 0 := by
        rw [← List.drop_drop, hdrop, List.drop_left]
      obtain rfl := walk_zeros hend hwalk''
      dsimp only
      rw [deliveries_append, deliveries_append, deliveries_of_skips hskipped, hrounds]
      exact List.append_nil _

/-- **A damaged record.**  Of a log with one record damaged in its data replay hands over all other
records, and nothing else, exactly if the skips lead from the damaged record to the next one.  A
single skip never does, and none do behind a damaged record of less than 64 KiB of data. -/
theorem damage_skipped_iff (crc32 : Bytes → UInt32) (hbefore : ∀ entry ∈ before, entry.Fits)
    (hafter : ∀ entry ∈ after, entry.Fits) (hentry : entry.Fits)
    (hdamaged : Damaged crc32 entry bad) (padding : ℕ) :
    (HandsOver crc32 (damagedLog crc32 before bad after padding)
        (placed 0 before ++
          placed ((WalEntry.records crc32 before).length + bad.length) after) ↔
      Resumes crc32 (damagedLog crc32 before bad after padding)
        (WalEntry.records crc32 before).length
        ((WalEntry.records crc32 before).length + bad.length) after) ∧
      ¬SkipsTo crc32 (damagedLog crc32 before bad after padding)
        (WalEntry.records crc32 before).length
        ((WalEntry.records crc32 before).length + bad.length) ∧
      (after ≠ [] → entry.data.length < 65536 →
        ¬HandsOver crc32 (damagedLog crc32 before bad after padding)
          (placed 0 before ++
            placed ((WalEntry.records crc32 before).length + bad.length) after)) := by
  have hdamage := @drop_damagedLog crc32 bad before after padding
  have hbehind : (damagedLog crc32 before bad after padding).drop
      ((WalEntry.records crc32 before).length + bad.length) =
      WalEntry.records crc32 after ++ List.replicate padding 0 := by
    rw [← List.drop_drop, hdamage, List.drop_left]
  obtain ⟨hmiss, hpast⟩ := @Damaged.skip_misses crc32 bad
    (WalEntry.records crc32 after ++ List.replicate padding 0) entry hdamaged hentry
  rw [← hdamage] at hmiss hpast
  have hiff : HandsOver crc32 (damagedLog crc32 before bad after padding)
      (placed 0 before ++ placed ((WalEntry.records crc32 before).length + bad.length) after) ↔
      Resumes crc32 (damagedLog crc32 before bad after padding)
        (WalEntry.records crc32 before).length
        ((WalEntry.records crc32 before).length + bad.length) after := by
    obtain ⟨looks, w, hwalk, hrecords⟩ := @walk_from_damage crc32 bad before after hbefore padding
    rw [hrecords, deliveries_from_iff hafter hbehind hwalk]
  refine ⟨hiff, ?_, ?_⟩
  · rintro ⟨-, hstep, -⟩
    omega
  · intro hne hsmall hhands
    have hresumes := hiff.mp hhands
    obtain ⟨next, later, rfl⟩ := List.exists_cons_of_ne_nil hne
    -- The first skip is past the next record already.
    rcases ReflTransGen.cases_head hresumes with heq | ⟨pos, ⟨-, rfl, -⟩, hlater⟩
    · have hlength := hdamaged.length
      rw [WalEntry.serializedLen] at hlength
      omega
    · have hle := le_of_skips hlater
      have hfar := hpast hsmall
      omega

/-- The record of a deposit with a bit of its payload flipped. -/
def flipped : Bytes := (OnDisk.depositEntry.record LedgerCodec.crc32Ieee).set 9 0

lemma flipped_damaged : Damaged LedgerCodec.crc32Ieee OnDisk.depositEntry flipped where
  length := by decide +kernel
  verlen := by decide +kernel
  unreadable := .inl (by decide +kernel)

lemma deposits_fit : ∀ entry ∈ [OnDisk.depositEntry], entry.Fits := by
  intro entry hentry
  rw [List.mem_singleton.mp hentry]
  decide +kernel

theorem damage_skipped_iff_flipped :
    ¬HandsOver LedgerCodec.crc32Ieee
      (damagedLog LedgerCodec.crc32Ieee [] flipped [OnDisk.depositEntry] 0)
      (placed 0 [] ++ placed ((WalEntry.records LedgerCodec.crc32Ieee []).length + flipped.length)
        [OnDisk.depositEntry]) :=
  (damage_skipped_iff LedgerCodec.crc32Ieee (by simp) deposits_fit
    (deposits_fit _ List.mem_cons_self) flipped_damaged 0).2.2 (by simp) (by decide +kernel)

/-- Nothing at all is delivered of the two records. -/
theorem flipped_loses_next :
    ¬∀ (before after : List WalEntry) (entry : WalEntry) (bad : Bytes),
      (∀ entry ∈ before, entry.Fits) → (∀ entry ∈ after, entry.Fits) → entry.Fits →
      Damaged LedgerCodec.crc32Ieee entry bad →
      Delivers LedgerCodec.crc32Ieee (damagedLog LedgerCodec.crc32Ieee before bad after 0)
        (before ++ after) := by
  intro hothers
  have hdelivers := hothers [] [OnDisk.depositEntry] OnDisk.depositEntry flipped (by simp)
    deposits_fit (deposits_fit _ List.mem_cons_self) flipped_damaged
  rw [delivers_iff] at hdelivers
  exact absurd hdelivers (by decide +kernel)

end Damage

end WalReplay

end ExchangeCore
