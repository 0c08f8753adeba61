import ExchangeCore.Framework.Blocks
import ExchangeCore.Framework.Walk
import ExchangeCore.Ledger.Transactions

/-!
# Segments of the ledger's write-ahead log

`WalSegment` and `WalIterator` (`ledger.rs`).  A segment is a memory-mapped file of fixed length;
a record in it is `[len(4)][crc(4)][seq(8)][command]`, where `len` counts the sequence number and
the command.  The writer keeps a cursor and a digest of what it has written, represented by the
bytes fed to it.

The reader takes a record for `8 + len` bytes, as the writer does; `open_existing`, which finds
the cursor of a file again, for `16 + len`.  So what it finds is the writer's cursor only where
the bytes written happen to parse with these longer blocks as well (`reopen_iff`).

The encoders and digests of third-party crates are a parameter (`LedgerCodec`).
-/

namespace ExchangeCore

/-- `ledger::Snapshot`. -/
structure LedgerSnapshot where
  lastSeq : UInt64
  accounts : Accounts
  deriving DecidableEq

/-- `bincode` for the types the ledger stores, `crc32fast` and `md5`. -/
structure LedgerCodec where
  serialize : LedgerCommand → Bytes
  deserialize : Bytes → Except String LedgerCommand
  serializeSnapshot : LedgerSnapshot → Bytes
  deserializeSnapshot : Bytes → Except String LedgerSnapshot
  crc32 : Bytes → UInt32
  md5 : Bytes → String

def maxRecordSize : ℕ := 10 * 1024 * 1024

def walMaxSize : ℕ := 512 * 1024 * 1024

/-- A record of the log: a sequence number and a command. -/
abbrev WalRecord := UInt64 × LedgerCommand

namespace LedgerCodec

variable (codec : LedgerCodec)

/-- What the length field of a record counts: the sequence number and the command. -/
def dataLen (cmd : LedgerCommand) : ℕ := 8 + (codec.serialize cmd).length

/-- The bytes of a record. -/
def record (r : WalRecord) : Bytes :=
  let cmdBytes := codec.serialize r.2
  let lenBytes := Bytes.ofU32 (UInt32.ofNat (codec.dataLen r.2))
  let seqBytes := Bytes.ofU64 r.1
  let crc := codec.crc32 (lenBytes ++ (seqBytes ++ cmdBytes))
  lenBytes ++ Bytes.ofU32 crc ++ (seqBytes ++ cmdBytes)

/-- The bytes of a sequence of records. -/
def records (rs : List WalRecord) : Bytes := rs.flatMap codec.record

@[simp] lemma length_record (r : WalRecord) :
    (codec.record r).length = 8 + codec.dataLen r.2 := by
  simp only [record, dataLen, List.length_append, Bytes.length_ofU32, Bytes.length_ofU64]

@[simp] lemma records_nil : codec.records [] = [] := rfl

@[simp] lemma records_cons (r : WalRecord) (rs : List WalRecord) :
    codec.records (r :: rs) = codec.record r ++ codec.records rs := rfl

lemma records_append (rs rs' : List WalRecord) :
    codec.records (rs ++ rs') = codec.records rs ++ codec.records rs' := List.flatMap_append

lemma length_le_length_records (rs : List WalRecord) : rs.length ≤ (codec.records rs).length := by
  induction rs with
  | nil => exact Nat.le_refl 0
  | cons r rs ih =>
      rw [records_cons, List.length_cons, List.length_append, length_record]
      omega

/-- bincode gives the command back. -/
def RoundTrips (cmd : LedgerCommand) : Prop := codec.deserialize (codec.serialize cmd) = .ok cmd

end LedgerCodec

/-! ## Writing -/

/-- `WalSegment`; the digest is represented by the bytes it has consumed. -/
structure WalSegment where
  file : Image
  cursor : ℕ
  md5Ctx : Bytes
  deriving DecidableEq, Repr

namespace WalSegment

/-- `create`: an existing file keeps its contents, and the cursor starts at zero. -/
def create (existing : Option Image) : WalSegment where
  file := existing.getD (Image.zeroed walMaxSize)
  cursor := 0
  md5Ctx := []

def append (codec : LedgerCodec) (r : WalRecord) : Fallible WalSegment String Unit := fun seg =>
  if h : seg.cursor + 8 + codec.dataLen r.2 > seg.file.len then (.error "Segment Full", seg)
  else
    (.ok (),
      { file := seg.file.write seg.cursor (codec.record r) (by rw [codec.length_record]; omega)
        cursor := seg.cursor + 8 + codec.dataLen r.2
        md5Ctx := seg.md5Ctx ++ codec.record r })

/-- Append one record after another, up to the first that does not fit. -/
def appendAll (codec : LedgerCodec) : List WalRecord → Fallible WalSegment String Unit
  | [] => pure ()
  | r :: rs => do
      append codec r
      appendAll codec rs

/-- The loop of `open_existing`, from a cursor and what the digest has consumed.  Each round moves
the cursor forward, so that the length of the file bounds their number. -/
def scan (file : Image) : ℕ → ℕ → Bytes → Except Abort (ℕ × Bytes)
  | 0, cursor, md5Ctx => .ok (cursor, md5Ctx)
  | fuel + 1, cursor, md5Ctx =>
      if cursor + 8 < file.len then
        let payloadLen := (file.u32At cursor).toNat
        if payloadLen = 0 then .ok (cursor, md5Ctx)
        else if cursor + 8 + payloadLen > file.len then .ok (cursor, md5Ctx)
        else
          let totalLen := 8 + 8 + payloadLen
          if cursor + totalLen > file.len then
            .error (.panic "range end index out of range for slice")
          else scan file fuel (cursor + totalLen) (md5Ctx ++ file.slice cursor totalLen)
      else .ok (cursor, md5Ctx)

def openExisting (file : Image) : Except Abort WalSegment :=
  (scan file file.len 0 []).map (fun r => ⟨file, r.1, r.2⟩)

end WalSegment

/-! ## Reading -/

namespace WalIterator

/-- `WalIterator::next` at a position of the file: a record and the position behind it, or the end
of the log. -/
def next (codec : LedgerCodec) (file : Image) (pos : ℕ) :
    Except Abort (Option (WalRecord × ℕ)) :=
  match file.readExact pos 4 with
  | none => .ok none
  | some lenBuf =>
      let payloadLen := (UInt32.ofNat (Bytes.toNatLe lenBuf)).toNat
      if payloadLen > maxRecordSize then .error (.error "Record too large")
      else if payloadLen = 0 then .ok none
      else
        match file.readExact (pos + 4) 4, file.readExact (pos + 8) payloadLen with
        | some crcBuf, some dataBuf =>
            let storedCrc := UInt32.ofNat (Bytes.toNatLe crcBuf)
            if codec.crc32 (lenBuf ++ dataBuf) ≠ storedCrc then
              .error (.error "CRC Mismatch in file")
            else if payloadLen < 8 then .error (.panic "mid > len")
            else
              match codec.deserialize (dataBuf.drop 8) with
              | .error e => .error (.error e)
              | .ok cmd => .ok (some ((Bytes.toU64 (dataBuf.take 8), cmd), pos + 8 + payloadLen))
        | _, _ => .error (.error "failed to fill whole buffer")

/-- The records from a position on, and how the iteration ends early. -/
def collect (codec : LedgerCodec) (file : Image) : ℕ → ℕ → List WalRecord × Option Abort
  | 0, _ => ([], none)
  | fuel + 1, pos =>
      match next codec file pos with
      | .error e => ([], some e)
      | .ok none => ([], none)
      | .ok (some (r, pos)) =>
          let rest := collect codec file fuel pos
          (r :: rest.1, rest.2)

/-- All records of a file; each moves the position forward, so that the length of the file bounds
their number. -/
def readAll (codec : LedgerCodec) (file : Image) : List WalRecord × Option Abort :=
  collect codec file (file.len + 1) 0

end WalIterator

/-! ## What the writer leaves -/

namespace WalSegment

variable {codec : LedgerCodec} {seg seg' : WalSegment} {bs : Bytes} {r : WalRecord}

/-- The segment holds these bytes and nothing else, and the writer stands behind them. -/
structure Holds (seg : WalSegment) (bs : Bytes) : Prop where
  data : seg.file.data = bs
  cursor : seg.cursor = bs.length
  md5Ctx : seg.md5Ctx = bs

lemma create_holds : (create none).Holds [] := ⟨rfl, rfl, rfl⟩

lemma append_of_fits (h : seg.Holds bs) (hfits : bs.length + 8 + codec.dataLen r.2 ≤ seg.file.len) :
    (append codec r seg).1 = .ok () ∧ (append codec r seg).2.Holds (bs ++ codec.record r) ∧
      (append codec r seg).2.file.len = seg.file.len := by
  have hroom : ¬seg.cursor + 8 + codec.dataLen r.2 > seg.file.len := by
    rw [h.cursor]
    omega
  rw [append, dif_neg hroom]
  refine ⟨rfl, ⟨?_, ?_, ?_⟩, rfl⟩
  · rw [Image.write_data (by rw [h.cursor, h.data]), h.data]
  · show seg.cursor + 8 + codec.dataLen r.2 = _
    rw [h.cursor, List.length_append, codec.length_record]
    omega
  · show seg.md5Ctx ++ codec.record r = _
    rw [h.md5Ctx]

lemma fits_of_append (h : seg.Holds bs) (hok : append codec r seg = (.ok (), seg')) :
    bs.length + 8 + codec.dataLen r.2 ≤ seg.file.len := by
  unfold append at hok
  split at hok
  · exact absurd (congrArg Prod.fst hok) (by simp)
  · rename_i hroom
    rw [h.cursor] at hroom
    omega

lemma appendAll_holds {rs : List WalRecord} (h : seg.Holds bs)
    (hok : appendAll codec rs seg = (.ok (), seg')) :
    seg'.Holds (bs ++ codec.records rs) ∧ seg'.file.len = seg.file.len := by
  induction rs generalizing seg bs with
  | nil =>
      obtain rfl : seg = seg' := congrArg Prod.snd hok
      exact ⟨by simpa using h, rfl⟩
  | cons r rs ih =>
      rw [appendAll] at hok
      change Fallible.bind (append codec r) (fun _ => appendAll codec rs) seg = _ at hok
      rw [Fallible.bind] at hok
      split at hok
      · rename_i u mid happend
        obtain ⟨-, hmid, hlen⟩ := append_of_fits h (fits_of_append h happend)
        rw [happend] at hmid hlen
        obtain ⟨hholds, hlen'⟩ := ih hmid hok
        rw [codec.records_cons, ← List.append_assoc]
        exact ⟨hholds, hlen'.trans hlen⟩
      · exact absurd (congrArg Prod.fst hok) (by simp)

end WalSegment

/-! ## Reading back what was written -/

namespace WalIterator

variable {codec : LedgerCodec} {file : Image} {pre post : Bytes} {r : WalRecord}

/-- The length field of a record. -/
lemma toNat_dataLen (h : codec.dataLen r.2 < 2 ^ 32) :
    (UInt32.ofNat (codec.dataLen r.2)).toNat = codec.dataLen r.2 := by
  rw [UInt32.toNat_ofNat', Nat.mod_eq_of_lt h]

/-- At a record, the reader finds its length field. -/
lemma readExact_len (hdata : file.data = pre ++ codec.record r ++ post) :
    file.readExact pre.length 4 = some (Bytes.ofU32 (UInt32.ofNat (codec.dataLen r.2))) := by
  have hle := file.data_le
  rw [hdata, List.length_append, List.length_append, codec.length_record] at hle
  rw [Image.readExact, if_pos (by omega)]
  refine congrArg some (Image.slice_of_eq_append
    (z := Bytes.ofU32 (codec.crc32 (Bytes.ofU32 (UInt32.ofNat (codec.dataLen r.2)) ++
      (Bytes.ofU64 r.1 ++ codec.serialize r.2))) ++
      (Bytes.ofU64 r.1 ++ codec.serialize r.2) ++ post)
    ?_ rfl (Bytes.length_ofU32 _))
  rw [hdata, LedgerCodec.record]
  simp only [List.append_assoc]

/-- A record of readable size is read back. -/
lemma next_record (hdata : file.data = pre ++ codec.record r ++ post)
    (hsize : codec.dataLen r.2 ≤ maxRecordSize) (hround : codec.RoundTrips r.2) :
    next codec file pre.length = .ok (some (r, pre.length + 8 + codec.dataLen r.2)) := by
  have hle := file.data_le
  have hnat := toNat_dataLen (Nat.lt_of_le_of_lt hsize (by decide))
  have hpos : codec.dataLen r.2 = 8 + (codec.serialize r.2).length := rfl
  rw [hdata, List.length_append, List.length_append, codec.length_record] at hle
  set crc := codec.crc32 (Bytes.ofU32 (UInt32.ofNat (codec.dataLen r.2)) ++
    (Bytes.ofU64 r.1 ++ codec.serialize r.2)) with hcrc
  -- the two reads: the checksum behind the length, then the data behind the checksum
  have hcrcBuf : file.readExact (pre.length + 4) 4 = some (Bytes.ofU32 crc) := by
    rw [Image.readExact, if_pos (by omega)]
    refine congrArg some (Image.slice_of_eq_append
      (x := pre ++ Bytes.ofU32 (UInt32.ofNat (codec.dataLen r.2)))
      (z := Bytes.ofU64 r.1 ++ codec.serialize r.2 ++ post) ?_ ?_ (Bytes.length_ofU32 _))
    · rw [hdata, LedgerCodec.record]
      simp only [List.append_assoc, hcrc]
    · rw [List.length_append, Bytes.length_ofU32]
  have hdataBuf : file.readExact (pre.length + 8) (codec.dataLen r.2) =
      some (Bytes.ofU64 r.1 ++ codec.serialize r.2) := by
    rw [Image.readExact, if_pos (by omega)]
    refine congrArg some (Image.slice_of_eq_append
      (x := pre ++ Bytes.ofU32 (UInt32.ofNat (codec.dataLen r.2)) ++ Bytes.ofU32 crc)
      (z := post) ?_ ?_ ?_)
    · rw [hdata, LedgerCodec.record]
      simp only [List.append_assoc, hcrc]
    · simp only [List.length_append, Bytes.length_ofU32]
    · rw [List.length_append, Bytes.length_ofU64, hpos]
  have hseq : Bytes.toU64 ((Bytes.ofU64 r.1 ++ codec.serialize r.2).take 8) = r.1 := by
    rw [List.take_append_of_le_length (Bytes.length_ofU64 _).ge,
      List.take_of_length_le (Bytes.length_ofU64 _).le, Bytes.toU64_ofU64]
  have hcmd : (Bytes.ofU64 r.1 ++ codec.serialize r.2).drop 8 = codec.serialize r.2 := by
    rw [List.drop_append_of_le_length (Bytes.length_ofU64 _).ge,
      List.drop_of_length_le (Bytes.length_ofU64 _).le, List.nil_append]
  have hdeserialize : codec.deserialize (codec.serialize r.2) = .ok r.2 := hround
  simp only [next, readExact_len hdata, Bytes.toNatLe_ofU32, hnat, hcrcBuf, hdataBuf, hseq, hcmd,
    hdeserialize]
  rw [if_neg (by omega), if_neg (by omega), if_neg (by rw [hcrc]; simp), if_neg (by omega)]

/-- A longer record stops the reader. -/
lemma next_tooLarge (hdata : file.data = pre ++ codec.record r ++ post) (hlen : file.len < 2 ^ 32)
    (hsize : maxRecordSize < codec.dataLen r.2) :
    next codec file pre.length = .error (.error "Record too large") := by
  have hle := file.data_le
  rw [hdata, List.length_append, List.length_append, codec.length_record] at hle
  simp only [next, readExact_len hdata, Bytes.toNatLe_ofU32,
    toNat_dataLen (Nat.lt_of_le_of_lt (by omega : codec.dataLen r.2 ≤ file.len) hlen)]
  rw [if_pos hsize]

/-- Behind what has been written there are zeros, or no four bytes. -/
lemma readExact_behind {pos : ℕ} (h : file.data.length ≤ pos) :
    file.readExact pos 4 = if pos + 4 ≤ file.len then some [0, 0, 0, 0] else none := by
  rw [Image.readExact, Image.slice_of_length_le h]
  rfl

/-- Behind the last record the log ends. -/
lemma next_end {pos : ℕ} (h : file.data.length ≤ pos) : next codec file pos = .ok none := by
  rw [next, readExact_behind h]
  by_cases hroom : pos + 4 ≤ file.len
  · rw [if_pos hroom]
    rfl
  · rw [if_neg hroom]

/-- All records of readable size are read back. -/
lemma collect_records {rs : List WalRecord} {fuel : ℕ} (hdata : file.data = pre ++ codec.records rs)
    (hfuel : rs.length < fuel)
    (hrs : ∀ r ∈ rs, codec.dataLen r.2 ≤ maxRecordSize ∧ codec.RoundTrips r.2) :
    collect codec file fuel pre.length = (rs, none) := by
  induction rs generalizing pre fuel with
  | nil =>
      obtain ⟨fuel, rfl⟩ := Nat.exists_eq_succ_of_ne_zero (Nat.ne_of_gt hfuel)
      rw [collect, next_end (by rw [hdata]; simp)]
  | cons r rs ih =>
      obtain ⟨fuel, rfl⟩ := Nat.exists_eq_succ_of_ne_zero (Nat.ne_of_gt (Nat.zero_lt_of_lt hfuel))
      rw [List.forall_mem_cons] at hrs
      rw [codec.records_cons, ← List.append_assoc] at hdata
      have hnext := next_record hdata hrs.1.1 hrs.1.2
      have hrest := ih hdata (Nat.lt_of_succ_lt_succ hfuel) hrs.2
      rw [List.length_append, codec.length_record, ← Nat.add_assoc] at hrest
      rw [collect, hnext]
      simp only [hrest]

/-- A log that is read back without an error has records of readable size only. -/
lemma dataLen_le_of_collect {rs : List WalRecord} {fuel : ℕ}
    (hdata : file.data = pre ++ codec.records rs) (hlen : file.len < 2 ^ 32)
    (hround : ∀ r ∈ rs, codec.RoundTrips r.2)
    (hread : collect codec file fuel pre.length = (rs, none)) :
    ∀ r ∈ rs, codec.dataLen r.2 ≤ maxRecordSize := by
  induction rs generalizing pre fuel with
  | nil => exact fun r hr => absurd hr (List.not_mem_nil)
  | cons r rs ih =>
      rw [List.forall_mem_cons] at hround ⊢
      rw [codec.records_cons, ← List.append_assoc] at hdata
      cases fuel with
      | zero => exact absurd (congrArg Prod.fst hread) (by simp [collect])
      | succ fuel =>
          rw [collect] at hread
          have hsize : codec.dataLen r.2 ≤ maxRecordSize := by
            by_contra hlarge
            rw [next_tooLarge hdata hlen (not_le.mp hlarge)] at hread
            exact absurd (congrArg Prod.fst hread) (by simp)
          rw [next_record hdata hsize hround.1] at hread
          refine ⟨hsize, @ih _ fuel hdata hround.2 ?_⟩
          obtain ⟨hfst, hsnd⟩ := Prod.mk.inj hread
          rw [List.length_append, codec.length_record, ← Nat.add_assoc]
          exact Prod.ext (List.cons.inj hfst).2 hsnd

end WalIterator

/-! ## Reopening a segment -/

namespace WalSegment

/-- A block as `open_existing` delimits it: its first four bytes are a number, not zero, and it is
sixteen bytes longer than that. -/
def IsBlock (block : Bytes) : Prop :=
  Bytes.u32At block 0 ≠ 0 ∧ block.length = 16 + (Bytes.u32At block 0).toNat

/-- The bytes are a sequence of such blocks. -/
def SplitsIntoBlocks (bs : Bytes) : Prop :=
  ∃ blocks : List Bytes, bs = blocks.flatten ∧ ∀ block ∈ blocks, IsBlock block

variable {file : Image} {fuel cursor : ℕ} {md5Ctx : Bytes}

/-- What the scan finds at a position. -/
def look (file : Image) (cursor : ℕ) : Found String Bytes :=
  if cursor + 8 < file.len then
    let payloadLen := (file.u32At cursor).toNat
    if payloadLen = 0 then .finish
    else if cursor + 8 + payloadLen > file.len then .finish
    else
      let totalLen := 8 + 8 + payloadLen
      if cursor + totalLen > file.len then .fault "range end index out of range for slice"
      else .item (file.slice cursor totalLen) (cursor + totalLen)
  else .finish

lemma scan_eq_look (file : Image) (fuel cursor : ℕ) (md5Ctx : Bytes) :
    scan file (fuel + 1) cursor md5Ctx =
      match look file cursor with
      | .finish => .ok (cursor, md5Ctx)
      | .fault message => .error (.panic message)
      | .item block behind => scan file fuel behind (md5Ctx ++ block) := by
  rw [scan, look]
  dsimp only
  split_ifs
  · rfl
  · rfl
  · rfl
  · rfl
  · rfl

/-- Everything the scan can find: nothing that fits, a length that leaves less than eight bytes for
the rest of its block, or a block. -/
lemma look_cases (file : Image) (cursor : ℕ) :
    look file cursor = .finish ∧
        ¬(file.u32At cursor ≠ 0 ∧ cursor + 8 + (file.u32At cursor).toNat ≤ file.len) ∨
      look file cursor = .fault "range end index out of range for slice" ∧
        file.u32At cursor ≠ 0 ∧ cursor + 8 + (file.u32At cursor).toNat ≤ file.len ∧
          file.len < cursor + 16 + (file.u32At cursor).toNat ∨
      look file cursor = .item (file.slice cursor (16 + (file.u32At cursor).toNat))
          (cursor + (16 + (file.u32At cursor).toNat)) ∧
        file.u32At cursor ≠ 0 ∧ cursor + 16 + (file.u32At cursor).toNat ≤ file.len := by
  have hzero : file.u32At cursor = 0 ↔ (file.u32At cursor).toNat = 0 :=
    (UInt32.toNat_inj (b := 0)).symm
  rw [look, ne_eq, hzero]
  dsimp only
  split_ifs
  · exact .inl ⟨rfl, by omega⟩
  · exact .inl ⟨rfl, by omega⟩
  · exact .inr (.inl ⟨rfl, by omega⟩)
  · exact .inr (.inr ⟨rfl, by omega⟩)
  · exact .inl ⟨rfl, by omega⟩

lemma scan_nothing (file : Image) (cursor : ℕ) (md5Ctx : Bytes) :
    ∃ blocks : List Bytes, (∀ block ∈ blocks, IsBlock block) ∧
      file.slice cursor blocks.flatten.length = blocks.flatten ∧
      cursor = cursor + blocks.flatten.length ∧ md5Ctx = md5Ctx ++ blocks.flatten := by
  refine ⟨[], fun _ hblock => absurd hblock List.not_mem_nil, ?_, rfl, ?_⟩
  · exact List.eq_nil_of_length_eq_zero (Image.length_slice _ _ _)
  · rw [List.flatten_nil, List.append_nil]

/-- What the scan passes over are blocks, and the digest consumes them. -/
lemma scan_sound {cursor' : ℕ} {md5Ctx' : Bytes}
    (h : scan file fuel cursor md5Ctx = .ok (cursor', md5Ctx')) :
    ∃ blocks : List Bytes, (∀ block ∈ blocks, IsBlock block) ∧
      file.slice cursor blocks.flatten.length = blocks.flatten ∧
      cursor' = cursor + blocks.flatten.length ∧ md5Ctx' = md5Ctx ++ blocks.flatten := by
  induction fuel generalizing cursor md5Ctx with
  | zero =>
      obtain ⟨rfl, rfl⟩ := Prod.mk.inj (Except.ok.inj h)
      exact scan_nothing file cursor md5Ctx
  | succ fuel ih =>
      rw [scan_eq_look] at h
      rcases look_cases file cursor with ⟨hend, -⟩ | ⟨hpanic, -⟩ | ⟨hitem, hne, -⟩
      · rw [hend] at h
        obtain ⟨rfl, rfl⟩ := Prod.mk.inj (Except.ok.inj h)
        exact scan_nothing file cursor md5Ctx
      · rw [hpanic] at h
        exact absurd h (by simp)
      · -- One block, then the rest of the scan.
        rw [hitem] at h
        obtain ⟨blocks, hblocks, hslice, hcursor, hmd5⟩ := ih h
        have hfirst := Blocks.isBlock_slice (by decide : 4 ≤ 16) hne
        refine ⟨file.slice cursor (16 + (file.u32At cursor).toNat) :: blocks,
          List.forall_mem_cons.mpr ⟨hfirst, hblocks⟩, ?_, ?_, ?_⟩
        · rw [List.flatten_cons, List.length_append, Image.length_slice, ← Image.slice_append,
            hslice]
        · rw [hcursor, List.flatten_cons, List.length_append, Image.length_slice, Nat.add_assoc]
        · rw [hmd5, List.flatten_cons, List.append_assoc]

lemma look_of_block {block rest : Bytes} (h : IsBlock block)
    (hslice : file.slice cursor (block ++ rest).length = block ++ rest)
    (hfits : cursor + block.length ≤ file.len) :
    look file cursor = .item block (cursor + block.length) ∧
      file.slice (cursor + block.length) rest.length = rest := by
  obtain ⟨hne, hlength, hblock, hrest⟩ := Blocks.IsBlock.of_slice h (by decide) hslice
  refine ⟨?_, hrest⟩
  rcases look_cases file cursor with ⟨-, hnot⟩ | ⟨-, -, -, hpast⟩ | ⟨hitem, -, -⟩
  · exact absurd ⟨hne, by omega⟩ hnot
  · omega
  · rw [hitem, ← hlength, hblock]

/-- A scan over blocks that make up the written bytes stops behind them. -/
lemma scan_complete {blocks : List Bytes} (hblocks : ∀ block ∈ blocks, IsBlock block)
    (hend : cursor + blocks.flatten.length = file.data.length)
    (hslice : file.slice cursor blocks.flatten.length = blocks.flatten)
    (hfuel : blocks.length ≤ fuel) :
    scan file fuel cursor md5Ctx = .ok (file.data.length, md5Ctx ++ blocks.flatten) := by
  induction blocks generalizing fuel cursor md5Ctx with
  | nil =>
      have hcursor : cursor = file.data.length := hend
      rw [List.flatten_nil, List.append_nil, ← hcursor]
      rcases fuel with _ | fuel
      · rfl
      · have hzero := Image.u32At_of_length_le hcursor.ge
        rcases look_cases file cursor with ⟨hstop, -⟩ | ⟨-, hne, -⟩ | ⟨-, hne, -⟩
        · rw [scan_eq_look, hstop]
        · exact absurd hzero hne
        · exact absurd hzero hne
  | cons block blocks ih =>
      rw [List.forall_mem_cons] at hblocks
      obtain ⟨fuel, rfl⟩ := Nat.exists_eq_succ_of_ne_zero
        (Nat.ne_of_gt (Nat.lt_of_lt_of_le (Nat.succ_pos _) hfuel))
      have hle := file.data_le
      rw [List.flatten_cons] at hend hslice
      rw [List.length_append] at hend
      obtain ⟨hlook, htail⟩ := look_of_block hblocks.1 hslice (by omega)
      rw [scan_eq_look, hlook]
      dsimp only
      rw [ih hblocks.2 (by omega) htail (Nat.le_of_succ_le_succ hfuel), List.flatten_cons,
        List.append_assoc]

/-- Reopening finds the end of the written bytes exactly if they split into blocks. -/
lemma openExisting_iff {seg : WalSegment} {bs : Bytes} (h : seg.Holds bs) :
    openExisting seg.file = .ok seg ↔ SplitsIntoBlocks bs := by
  obtain ⟨file, cursor, md5Ctx⟩ := seg
  obtain ⟨hbytes, hcursor, hmd5⟩ := h
  dsimp only at hbytes hcursor hmd5 ⊢
  subst hbytes hcursor hmd5
  constructor
  · intro hopen
    rw [openExisting] at hopen
    cases hscan : scan file file.len 0 [] with
    | error e => exact absurd hopen (by rw [hscan]; simp [Except.map])
    | ok p =>
        rw [hscan] at hopen
        obtain ⟨-, -, hmd5⟩ := WalSegment.mk.inj (Except.ok.inj hopen)
        obtain ⟨blocks, hblocks, -, -, hmd5'⟩ := scan_sound hscan
        exact ⟨blocks, by rw [← hmd5, hmd5', List.nil_append], hblocks⟩
  · rintro ⟨blocks, hdata, hblocks⟩
    have hcount := @Blocks.length_le_length_flatten 16 blocks hblocks (by decide)
    have hle := file.data_le
    have hscan := @scan_complete file file.len 0 [] blocks hblocks (by rw [hdata, Nat.zero_add])
      (by rw [← hdata, Image.slice_data]) (by rw [hdata] at hle; omega)
    rw [openExisting, hscan, List.nil_append, ← hdata]
    rfl

lemma openExisting_file {seg : WalSegment} (h : openExisting file = .ok seg) : seg.file = file := by
  rw [openExisting] at h
  cases hscan : scan file file.len 0 [] with
  | error e => exact absurd h (by rw [hscan]; simp [Except.map])
  | ok p =>
      rw [hscan] at h
      exact (WalSegment.mk.inj (Except.ok.inj h)).1.symm

/-- Blocks lead the scan to a length that reaches past the end of the file, by at most eight bytes:
the check of `open_existing` lets it through, and the slice is out of range. -/
def Overruns (file : Image) : Prop :=
  ∃ blocks : List Bytes, (∀ block ∈ blocks, IsBlock block) ∧
    file.slice 0 blocks.flatten.length = blocks.flatten ∧
    file.u32At blocks.flatten.length ≠ 0 ∧
    blocks.flatten.length + 8 + (file.u32At blocks.flatten.length).toNat ≤ file.len ∧
    file.len < blocks.flatten.length + 16 + (file.u32At blocks.flatten.length).toNat

/-- Without such a length the scan ends. -/
lemma scan_ok (fuel : ℕ) (md5Ctx : Bytes) {blocks : List Bytes}
    (hblocks : ∀ block ∈ blocks, IsBlock block)
    (hslice : file.slice 0 blocks.flatten.length = blocks.flatten) (h : ¬Overruns file) :
    ∃ r, scan file fuel blocks.flatten.length md5Ctx = .ok r := by
  induction fuel generalizing blocks md5Ctx with
  | zero => exact ⟨_, rfl⟩
  | succ fuel ih =>
      rw [scan_eq_look]
      rcases look_cases file blocks.flatten.length with ⟨hend, -⟩ | ⟨-, hne, hroom, hpast⟩ |
        ⟨hitem, hne, -⟩
      · rw [hend]
        exact ⟨_, rfl⟩
      · exact absurd ⟨blocks, hblocks, hslice, hne, hroom, hpast⟩ h
      · have hfirst := Blocks.isBlock_slice (by decide : 4 ≤ 16) hne
        have hnext := @ih (md5Ctx ++ file.slice blocks.flatten.length
            (16 + (file.u32At blocks.flatten.length).toNat))
          (blocks ++ [file.slice blocks.flatten.length
            (16 + (file.u32At blocks.flatten.length).toNat)]) ?_ ?_
        · rw [hitem]
          simpa only [List.flatten_append, List.flatten_singleton, List.length_append,
            Image.length_slice] using hnext
        · intro block hblock
          rcases List.mem_append.mp hblock with hblock | hblock
          · exact hblocks block hblock
          · rw [List.mem_singleton.mp hblock]
            exact hfirst
        · rw [List.flatten_append, List.flatten_singleton, List.length_append,
            Image.length_slice, ← Image.slice_append, hslice, Nat.zero_add]

lemma openExisting_ok (h : ¬Overruns file) : ∃ seg, openExisting file = .ok seg := by
  obtain ⟨r, hscan⟩ :=
    @scan_ok file file.len [] [] (by simp) (by simp [Image.slice, List.rightpad]) h
  rw [List.flatten_nil, List.length_nil] at hscan
  exact ⟨_, by rw [openExisting, hscan]; rfl⟩

/-- A file nothing was written to does not lead the scan anywhere. -/
lemma not_overruns_of_empty (h : file.data = []) : ¬Overruns file := by
  rintro ⟨blocks, -, -, hne, -⟩
  exact hne (Image.u32At_of_length_le (by rw [h]; exact Nat.zero_le _))

/-- A record the reader can take: not too large, and given back by bincode. -/
def Readable (codec : LedgerCodec) (r : WalRecord) : Prop :=
  codec.dataLen r.2 ≤ maxRecordSize ∧ codec.RoundTrips r.2

/-- Reopening the file of a segment with these records resumes where the writer stopped. -/
structure Resumes (codec : LedgerCodec) (rs : List WalRecord) (seg : WalSegment) : Prop where
  /-- Cursor and digest are those of the writer. -/
  reopened : ∃ seg', openExisting seg.file = .ok seg' ∧ seg'.cursor = seg.cursor ∧
    seg'.md5Ctx = seg.md5Ctx
  /-- What a later session appends is read back after what was there. -/
  later : ∀ seg' rs' seg'', openExisting seg.file = .ok seg' → (∀ r ∈ rs', Readable codec r) →
    appendAll codec rs' seg' = (.ok (), seg'') →
      WalIterator.readAll codec seg''.file = (rs ++ rs', none)

/-- **Reopening a segment.**  The records of a fresh segment are followed by those of a later
session exactly if their bytes split into blocks that are each sixteen bytes longer than the
number they start with, and none of them is too large for the reader. -/
theorem reopen_iff (codec : LedgerCodec) (rs : List WalRecord)
    (hround : ∀ r ∈ rs, codec.RoundTrips r.2)
    (happend : (appendAll codec rs (create none)).1 = .ok ()) :
    Resumes codec rs (appendAll codec rs (create none)).2 ↔
      SplitsIntoBlocks (codec.records rs) ∧ ∀ r ∈ rs, codec.dataLen r.2 ≤ maxRecordSize := by
  obtain ⟨seg, hseg⟩ : ∃ seg, appendAll codec rs (create none) = (.ok (), seg) :=
    ⟨_, Prod.ext happend rfl⟩
  obtain ⟨hholds, hlen⟩ := appendAll_holds create_holds hseg
  rw [List.nil_append] at hholds
  rw [hseg]
  have hlt : seg.file.len < 2 ^ 32 := by
    rw [hlen]
    decide
  constructor
  · intro h
    obtain ⟨seg', hopen, hcursor, hmd5⟩ := h.reopened
    have hsame : seg' = seg := by
      have hfile := openExisting_file hopen
      obtain ⟨file', cursor', md5Ctx'⟩ := seg'
      obtain ⟨file, cursor, md5Ctx⟩ := seg
      simp_all
    rw [hsame] at hopen
    refine ⟨(openExisting_iff hholds).mp hopen, ?_⟩
    -- a later session that appends nothing already needs all records to be readable
    have hread := h.later seg [] seg hopen (fun r hr => absurd hr List.not_mem_nil) rfl
    rw [List.append_nil, WalIterator.readAll] at hread
    exact @WalIterator.dataLen_le_of_collect codec _ [] rs _ hholds.data hlt hround hread
  · rintro ⟨hblocks, hsize⟩
    -- the cursor is back at the end, so that later records follow on
    have hopen := (openExisting_iff hholds).mpr hblocks
    refine ⟨⟨seg, hopen, rfl, rfl⟩, ?_⟩
    intro seg' rs' seg'' hopen' hreadable hlater
    obtain rfl : seg = seg' := Except.ok.inj (hopen.symm.trans hopen')
    obtain ⟨hholds', -⟩ := appendAll_holds hholds hlater
    rw [← codec.records_append] at hholds'
    have hcount := codec.length_le_length_records (rs ++ rs')
    have hfit := seg''.file.data_le
    rw [hholds'.data] at hfit
    refine @WalIterator.collect_records codec _ [] (rs ++ rs') _ hholds'.data (by omega)
      (fun r hr => ?_)
    rcases List.mem_append.mp hr with hr | hr
    · exact ⟨hsize r hr, hround r hr⟩
    · exact hreadable r hr

end WalSegment

/-! ## The encoders on concrete records -/

namespace LedgerCodec

/-- CRC-32, one byte. -/
def crc32Byte (crc : UInt32) (b : UInt8) : UInt32 :=
  (List.range 8).foldl
    (fun crc _ => if crc &&& 1 = 1 then (crc >>> 1) ^^^ 0xEDB88320 else crc >>> 1)
    (crc ^^^ b.toUInt32)

/-- CRC-32 as `crc32fast` computes it. -/
def crc32Ieee (bs : Bytes) : UInt32 := ~~~(bs.foldl crc32Byte 0xFFFFFFFF)

/-- A string: its length, then its bytes. -/
def bincodeStr (str : String) : Bytes :=
  Bytes.ofU64 (UInt64.ofNat str.utf8ByteSize) ++ Bytes.ofStr str

/-- An optional value: a tag, then the value. -/
def bincodeOption {α : Type} (f : α → Bytes) : Option α → Bytes
  | none => [0]
  | some a => 1 :: f a

/-- The fields of a command about one balance. -/
def bincodeBalance (userId : UInt64) (assetId : UInt32) (amount balanceAfter version : UInt64) :
    Bytes :=
  Bytes.ofU64 userId ++ Bytes.ofU32 assetId ++ Bytes.ofU64 amount ++ Bytes.ofU64 balanceAfter ++
    Bytes.ofU64 version

/-- The fields of a trade. -/
def bincodeMatch (data : MatchExecData) : Bytes :=
  [data.tradeId, data.buyOrderId, data.sellOrderId, data.buyerUserId, data.sellerUserId,
    data.price, data.quantity].flatMap Bytes.ofU64 ++
  Bytes.ofU32 data.baseAssetId ++ Bytes.ofU32 data.quoteAssetId ++
  [data.buyerRefund, data.sellerRefund, data.matchSeq, data.outputSequence, data.settledAt,
    data.buyerQuoteVersion, data.buyerBaseVersion, data.sellerBaseVersion, data.sellerQuoteVersion,
    data.buyerQuoteBalanceAfter, data.buyerBaseBalanceAfter, data.sellerBaseBalanceAfter,
    data.sellerQuoteBalanceAfter].flatMap Bytes.ofU64

/-- The index of a variant. -/
def bincodeStatus : OrderStatus → Bytes
  | .new => Bytes.ofU32 0
  | .partiallyFilled => Bytes.ofU32 1
  | .filled => Bytes.ofU32 2
  | .cancelled => Bytes.ofU32 3
  | .rejected => Bytes.ofU32 4
  | .expired => Bytes.ofU32 5

/-- The fields of an order update. -/
def bincodeUpdate (u : OrderUpdate) : Bytes :=
  Bytes.ofU64 u.orderId ++ bincodeOption bincodeStr u.clientOrderId ++ Bytes.ofU64 u.userId ++
    Bytes.ofU32 u.symbolId ++ [u.side, u.orderType] ++ bincodeStatus u.status ++
    [u.price, u.qty, u.filledQty].flatMap Bytes.ofU64 ++
    bincodeOption Bytes.ofU64 u.avgFillPrice ++ bincodeOption bincodeStr u.rejectionReason ++
    Bytes.ofU64 u.timestamp ++ bincodeOption Bytes.ofU64 u.matchId

mutual

/-- bincode of a command: the index of the variant, then the fields; a vector is its length and its
elements. -/
def bincodeCommand : LedgerCommand → Bytes
  | .deposit u a n b v => Bytes.ofU32 0 ++ bincodeBalance u a n b v
  | .withdraw u a n b v => Bytes.ofU32 1 ++ bincodeBalance u a n b v
  | .lock u a n b v => Bytes.ofU32 2 ++ bincodeBalance u a n b v
  | .unlock u a n b v => Bytes.ofU32 3 ++ bincodeBalance u a n b v
  | .tradeSettle u a n a' n' => Bytes.ofU32 4 ++ Bytes.ofU64 u ++ Bytes.ofU32 a ++ Bytes.ofU64 n ++
      Bytes.ofU32 a' ++ Bytes.ofU64 n'
  | .matchExec data => Bytes.ofU32 5 ++ bincodeMatch data
  | .matchExecBatch batch => Bytes.ofU32 6 ++ Bytes.ofU64 (UInt64.ofNat batch.length) ++
      batch.flatMap bincodeMatch
  | .orderUpdate update => Bytes.ofU32 7 ++ bincodeUpdate update
  | .batch commands => Bytes.ofU32 8 ++ Bytes.ofU64 (UInt64.ofNat commands.length) ++
      bincodeCommands commands

/-- The elements of a batch. -/
def bincodeCommands : List LedgerCommand → Bytes
  | [] => []
  | cmd :: commands => bincodeCommand cmd ++ bincodeCommands commands

end

/-- An account entry of a snapshot. -/
def accountBytes (userId : UInt64) (user : UserAccount) : Bytes :=
  Bytes.ofU64 userId ++ Bytes.ofU64 user.userId ++
    Bytes.ofU64 (UInt64.ofNat user.assets.length) ++
    user.assets.flatMap (fun e => Bytes.ofU32 e.1 ++ Bytes.ofU64 e.2.avail ++
      Bytes.ofU64 e.2.frozen ++ Bytes.ofU64 e.2.version)

/-- The account entry at an offset. -/
def accountAt (bs : Bytes) (offset : ℕ) : UserAccount where
  userId := Bytes.u64At bs (offset + 8)
  assets := (List.range (Bytes.u64At bs (offset + 16)).toNat).map (fun i =>
    (Bytes.u32At bs (offset + 24 + 28 * i),
      ⟨Bytes.u64At bs (offset + 28 + 28 * i), Bytes.u64At bs (offset + 36 + 28 * i),
        Bytes.u64At bs (offset + 44 + 28 * i)⟩))

/-- bincode, reading back the commands about one balance and snapshots of at most the account of
user 1, with a digest for MD5. -/
def balances (md5 : Bytes → String) : LedgerCodec where
  serialize := bincodeCommand
  deserialize bs :=
    let command := fun (make : UInt64 → UInt32 → UInt64 → UInt64 → UInt64 → LedgerCommand) =>
      Except.ok (make (Bytes.u64At bs 4) (Bytes.u32At bs 12) (Bytes.u64At bs 16)
        (Bytes.u64At bs 24) (Bytes.u64At bs 32))
    match (Bytes.u32At bs 0).toNat with
    | 0 => command .deposit
    | 1 => command .withdraw
    | 2 => command .lock
    | 3 => command .unlock
    | _ => .error "invalid variant"
  serializeSnapshot snap :=
    Bytes.ofU64 snap.lastSeq ++
      match snap.accounts.get? 1 with
      | none => Bytes.ofU64 0
      | some user => Bytes.ofU64 1 ++ accountBytes 1 user
  deserializeSnapshot bs :=
    .ok ⟨Bytes.u64At bs 0,
      if Bytes.u64At bs 8 = 0 then HashMap.empty
      else HashMap.empty.insert (Bytes.u64At bs 16) (accountAt bs 16)⟩
  crc32 := crc32Ieee
  md5 := md5

end LedgerCodec

namespace WalSegment

instance decidableIsBlock (block : Bytes) : Decidable (IsBlock block) :=
  inferInstanceAs (Decidable (_ ∧ _))

/-- Two deposits, recorded as 31 and 32: the scan takes the second sequence number for a length, and
it happens to lead to the end of the record. -/
def twoDeposits : List WalRecord := [(31, .deposit 1 7 100 0 0), (32, .deposit 1 7 50 0 0)]

theorem reopen_iff_twoDeposits :
    Resumes (LedgerCodec.balances (fun _ => "")) twoDeposits
      (appendAll (LedgerCodec.balances (fun _ => "")) twoDeposits (create none)).2 := by
  refine (reopen_iff (LedgerCodec.balances (fun _ => "")) twoDeposits ?_ (by decide)).mpr ⟨?_, ?_⟩
  · exact List.forall_mem_cons.mpr ⟨rfl, List.forall_mem_cons.mpr
      ⟨rfl, fun r hr => absurd hr List.not_mem_nil⟩⟩
  · refine ⟨[((LedgerCodec.balances (fun _ => "")).records twoDeposits).take 64,
      ((LedgerCodec.balances (fun _ => "")).records twoDeposits).drop 64], ?_, ?_⟩
    · simp
    · decide +kernel
  · decide

/-- One deposit: the reopened cursor is eight bytes behind the writer's. -/
theorem reopen_oneDeposit :
    ¬Resumes (LedgerCodec.balances (fun _ => "")) [(1, .deposit 1 7 100 0 0)]
      (appendAll (LedgerCodec.balances (fun _ => "")) [(1, .deposit 1 7 100 0 0)]
        (create none)).2 := by
  intro h
  obtain ⟨seg, hopen, hcursor, -⟩ := h.reopened
  have hfound : (openExisting (appendAll (LedgerCodec.balances (fun _ => ""))
      [(1, .deposit 1 7 100 0 0)] (create none)).2.file).map WalSegment.cursor = .ok 64 := by
    decide +kernel
  have hwriter : (appendAll (LedgerCodec.balances (fun _ => ""))
      [(1, .deposit 1 7 100 0 0)] (create none)).2.cursor = 56 := by
    decide +kernel
  rw [hopen] at hfound
  exact absurd ((Except.ok.inj hfound).symm.trans (hcursor.trans hwriter)) (by decide)

end WalSegment

end ExchangeCore
