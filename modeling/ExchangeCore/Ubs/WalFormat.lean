import ExchangeCore.Framework.Fallible
import ExchangeCore.Ubs.Wal

/-!
# The record format of UBSCore's logs

`wal_record_serialize` and `wal_record_deserialize` (`common_utils.rs`) with `WalEntry::serialize`
and `WalEntry::deserialize` (`wal/entry.rs`) on top.  A record is `[Ver(1)][Len(3)][CRC(4)][Data]`,
the header big-endian; the data of an entry is its type and then its payload.  `Len` counts the
data, so that a record of more than 2^24 - 1 bytes of data cannot be written: the assertion of the
serializer panics.

A record is read back from the start of any byte string that begins with it (`deserialize_record`).
The checksum is a parameter.
-/

namespace ExchangeCore

/-! ## Records -/

namespace WalRecordFormat

/-- `WAL_RECORD_HEADER_SIZE`. -/
def headerSize : ℕ := 8

/-- `WAL_RECORD_MAX_LEN`. -/
def maxLen : ℕ := 0x00FFFFFF

/-- `WAL_SCHEMA_VERSION`. -/
def schemaVersion : UInt8 := 0

def packVerlen (version : UInt8) (length : ℕ) : UInt32 :=
  (version.toUInt32 <<< 24) ||| (UInt32.ofNat length &&& UInt32.ofNat maxLen)

def unpackVerlen (verlen : UInt32) : UInt8 × ℕ :=
  ((verlen >>> 24).toUInt8, (verlen &&& UInt32.ofNat maxLen).toNat)

/-- `WalRecordError`. -/
inductive Error
  | tooShort
  | zeroLength
  | lengthOverflow (len : ℕ)
  | crcMismatch (stored computed : UInt32)
  | unsupportedVersion (version : UInt8)
  deriving DecidableEq, Repr

variable (crc32 : Bytes → UInt32)

/-- The bytes of a record: version and length, checksum, data. -/
def record (version : UInt8) (data : Bytes) : Bytes :=
  let verlenBytes := Bytes.ofU32Be (packVerlen version data.length)
  verlenBytes ++ Bytes.ofU32Be (crc32 (verlenBytes ++ data)) ++ data

/-- `wal_record_serialize_v`. -/
def serializeV (version : UInt8) (data : Bytes) : Except Abort Bytes :=
  let len := data.length
  if len ≤ maxLen then .ok (record crc32 version data)
  else .error (.panic s!"WAL record too large: {len} > {maxLen}")

/-- `wal_record_serialize`. -/
def serialize (data : Bytes) : Except Abort Bytes := serializeV crc32 schemaVersion data

/-- `wal_record_deserialize_v`: the version, the data and the bytes consumed. -/
def deserializeV (buf : Bytes) : Except Error (UInt8 × Bytes × ℕ) :=
  if buf.length < headerSize then .error .tooShort
  else
    let verlenBytes := buf.take 4
    let version := (unpackVerlen (Bytes.u32BeAt buf 0)).1
    let dataLen := (unpackVerlen (Bytes.u32BeAt buf 0)).2
    if dataLen = 0 then .error .zeroLength
    else if dataLen > maxLen then .error (.lengthOverflow dataLen)
    else
      let storedCrc := Bytes.u32BeAt buf 4
      let totalLen := headerSize + dataLen
      if buf.length < totalLen then .error .tooShort
      else
        let data := (buf.drop 8).take dataLen
        let computedCrc := crc32 (verlenBytes ++ data)
        if computedCrc ≠ storedCrc then .error (.crcMismatch storedCrc computedCrc)
        else .ok (version, data, totalLen)

/-- `wal_record_deserialize`. -/
def deserialize (buf : Bytes) : Except Error (Bytes × ℕ) :=
  (deserializeV crc32 buf).map (fun r => (r.2.1, r.2.2))

variable {crc32} {version : UInt8} {data rest : Bytes}

@[simp] lemma length_record : (record crc32 version data).length = headerSize + data.length := by
  simp only [record, List.length_append, Bytes.length_ofU32Be, headerSize]

lemma toNat_packVerlen (h : data.length ≤ maxLen) :
    (packVerlen version data.length).toNat = version.toNat * 2 ^ 24 + data.length := by
  have hlen : data.length < 2 ^ 24 := Nat.lt_of_le_of_lt h (by decide)
  have hmask : (UInt32.ofNat data.length &&& UInt32.ofNat maxLen).toNat = data.length := by
    rw [UInt32.toNat_and, UInt32.toNat_ofNat', UInt32.toNat_ofNat', Nat.mod_eq_of_lt (by omega)]
    exact (Nat.and_two_pow_sub_one_eq_mod data.length 24).trans (Nat.mod_eq_of_lt hlen)
  have hversion := version.toNat_lt
  rw [packVerlen, UInt32.toNat_or, hmask, UInt32.toNat_shiftLeft, UInt8.toNat_toUInt32]
  have hshift : version.toNat <<< ((24 : UInt32).toNat % 32) % 2 ^ 32 = version.toNat <<< 24 := by
    rw [show (24 : UInt32).toNat % 32 = 24 from rfl, Nat.shiftLeft_eq]
    exact Nat.mod_eq_of_lt (by omega)
  rw [hshift, ← Nat.shiftLeft_add_eq_or_of_lt hlen, Nat.shiftLeft_eq]

lemma toNat_unpackVerlen (verlen : UInt32) :
    (unpackVerlen verlen).1.toNat = verlen.toNat / 2 ^ 24 ∧
      (unpackVerlen verlen).2 = verlen.toNat % 2 ^ 24 := by
  have hlt := verlen.toNat_lt
  constructor
  · rw [unpackVerlen, UInt32.toNat_toUInt8, UInt32.toNat_shiftRight,
      show (24 : UInt32).toNat % 32 = 24 from rfl, Nat.shiftRight_eq_div_pow]
    omega
  · rw [unpackVerlen, UInt32.toNat_and, UInt32.toNat_ofNat']
    exact Nat.and_two_pow_sub_one_eq_mod _ 24

/-- The length field gives the length back. -/
lemma unpackVerlen_packVerlen (h : data.length ≤ maxLen) :
    unpackVerlen (packVerlen version data.length) = (version, data.length) := by
  have hlen : data.length < 2 ^ 24 := Nat.lt_of_le_of_lt h (by decide)
  obtain ⟨hversion, hlength⟩ := toNat_unpackVerlen (packVerlen version data.length)
  rw [toNat_packVerlen h] at hversion hlength
  refine Prod.ext (UInt8.toNat.inj ?_) ?_
  · dsimp only
    omega
  · dsimp only
    omega

lemma length_unpackVerlen_le (verlen : UInt32) : (unpackVerlen verlen).2 ≤ maxLen := by
  rw [(toNat_unpackVerlen verlen).2, maxLen]
  omega

/-- No word is lost: version and length take up all of it. -/
lemma packVerlen_of_unpackVerlen {verlen : UInt32}
    (h : unpackVerlen verlen = (version, data.length)) :
    packVerlen version data.length = verlen := by
  obtain ⟨hversion, hlength⟩ := toNat_unpackVerlen verlen
  have hle := length_unpackVerlen_le verlen
  rw [h] at hversion hlength hle
  dsimp only at hversion hlength hle
  refine UInt32.toNat.inj ?_
  rw [toNat_packVerlen hle, hversion, hlength]
  omega

/-- The header of a record is read, whatever follows it. -/
lemma unpackVerlen_record (hlen : data.length ≤ maxLen) :
    unpackVerlen (Bytes.u32BeAt (record crc32 version data ++ rest) 0) =
      (version, data.length) := by
  have hverlen : Bytes.u32BeAt (record crc32 version data ++ rest) 0 =
      packVerlen version data.length := by
    rw [record, List.append_assoc, List.append_assoc]
    exact Bytes.u32BeAt_field [] _ rfl _
  rw [hverlen, unpackVerlen_packVerlen hlen]

lemma deserializeV_of_header {buf : Bytes} {len : ℕ}
    (hheader : unpackVerlen (Bytes.u32BeAt buf 0) = (version, len)) (hpos : len ≠ 0)
    (hlen : len ≤ maxLen) (hroom : headerSize + len ≤ buf.length) :
    deserializeV crc32 buf =
      if crc32 (buf.take 4 ++ (buf.drop 8).take len) ≠ Bytes.u32BeAt buf 4 then
        .error (.crcMismatch (Bytes.u32BeAt buf 4) (crc32 (buf.take 4 ++ (buf.drop 8).take len)))
      else .ok (version, (buf.drop 8).take len, headerSize + len) := by
  rw [deserializeV, if_neg (by omega)]
  simp only [hheader]
  rw [if_neg hpos, if_neg (by omega), if_neg (by omega)]

/-- A record is read back, whatever follows it. -/
lemma deserializeV_record (hpos : data ≠ []) (hlen : data.length ≤ maxLen) :
    deserializeV crc32 (record crc32 version data ++ rest) =
      .ok (version, data, headerSize + data.length) := by
  have hpos' : data.length ≠ 0 := fun h => hpos (List.length_eq_zero_iff.mp h)
  have hshape : record crc32 version data ++ rest =
      Bytes.ofU32Be (packVerlen version data.length) ++
        (Bytes.ofU32Be (crc32 (Bytes.ofU32Be (packVerlen version data.length) ++ data)) ++
          (data ++ rest)) := by
    simp only [record, List.append_assoc]
  have hcrc : Bytes.u32BeAt (record crc32 version data ++ rest) 4 =
      crc32 (Bytes.ofU32Be (packVerlen version data.length) ++ data) := by
    rw [hshape]
    exact Bytes.u32BeAt_field _ _ (Bytes.length_ofU32Be _) _
  have htake : (record crc32 version data ++ rest).take 4 =
      Bytes.ofU32Be (packVerlen version data.length) := by
    rw [hshape, List.take_left' (Bytes.length_ofU32Be _)]
  have hdata : ((record crc32 version data ++ rest).drop 8).take data.length = data := by
    rw [hshape, ← List.append_assoc, List.drop_left' (by simp), List.take_left]
  have htotal : headerSize + data.length ≤ (record crc32 version data ++ rest).length := by
    rw [List.length_append, length_record]
    omega
  rw [deserializeV_of_header (unpackVerlen_record hlen) hpos' hlen htotal, hcrc, htake, hdata,
    if_neg (not_not.mpr rfl)]

/-- What `wal_record_deserialize_v` has checked of a buffer it reads a record from. -/
structure Accepted (crc32 : Bytes → UInt32) (buf : Bytes) (version : UInt8) (data : Bytes)
    (consumed : ℕ) : Prop where
  header : unpackVerlen (Bytes.u32BeAt buf 0) = (version, data.length)
  nonempty : data.length ≠ 0
  consumed_eq : consumed = headerSize + data.length
  room : consumed ≤ buf.length
  data_eq : (buf.drop 8).take data.length = data
  crc : crc32 (buf.take 4 ++ data) = Bytes.u32BeAt buf 4

lemma accepted_of_deserializeV {buf : Bytes} {consumed : ℕ}
    (h : deserializeV crc32 buf = .ok (version, data, consumed)) :
    Accepted crc32 buf version data consumed := by
  unfold deserializeV at h
  split at h
  · exact absurd h (by simp)
  dsimp only at h
  split at h
  · exact absurd h (by simp)
  rename_i hpos
  split at h
  · exact absurd h (by simp)
  split at h
  · exact absurd h (by simp)
  rename_i hshort
  split at h
  · exact absurd h (by simp)
  rename_i hcrc
  obtain ⟨rfl, hdata⟩ := Prod.mk.inj (Except.ok.inj h)
  obtain ⟨rfl, rfl⟩ := Prod.mk.inj hdata
  have hlength : ((buf.drop 8).take (unpackVerlen (Bytes.u32BeAt buf 0)).2).length =
      (unpackVerlen (Bytes.u32BeAt buf 0)).2 := by
    rw [List.length_take, List.length_drop]
    simp only [headerSize] at hshort
    omega
  refine ⟨?_, ?_, ?_, by omega, ?_, not_not.mp hcrc⟩
  · rw [hlength]
  · rw [hlength]
    exact hpos
  · rw [hlength]
  · rw [hlength]

lemma length_of_deserializeV {buf : Bytes} {consumed : ℕ}
    (h : deserializeV crc32 buf = .ok (version, data, consumed)) :
    data.length = (unpackVerlen (Bytes.u32BeAt buf 0)).2 ∧ consumed = headerSize + data.length ∧
      consumed ≤ buf.length := by
  have hread := accepted_of_deserializeV h
  exact ⟨by rw [hread.header], hread.consumed_eq, hread.room⟩

/-- What is read is what follows the header, with the checksum of it. -/
lemma crc_of_deserializeV {buf : Bytes} {consumed : ℕ}
    (h : deserializeV crc32 buf = .ok (version, data, consumed)) :
    data = (buf.drop 8).take data.length ∧ crc32 (buf.take 4 ++ data) = Bytes.u32BeAt buf 4 := by
  have hread := accepted_of_deserializeV h
  exact ⟨hread.data_eq.symm, hread.crc⟩

end WalRecordFormat

/-! ## Entries -/

/-- `entry_type as u8`. -/
def WalEntryType.asU8 : WalEntryType → UInt8
  | .deposit => 1
  | .withdraw => 2
  | .orderLock => 3
  | .orderUnlock => 4
  | .trade => 5
  | .fee => 6
  | .snapshot => 7

def WalEntryType.tryFrom : UInt8 → Option WalEntryType
  | 1 => some .deposit
  | 2 => some .withdraw
  | 3 => some .orderLock
  | 4 => some .orderUnlock
  | 5 => some .trade
  | 6 => some .fee
  | 7 => some .snapshot
  | _ => none

@[simp] lemma WalEntryType.tryFrom_asU8 (type : WalEntryType) :
    WalEntryType.tryFrom type.asU8 = some type := by
  cases type <;> rfl

/-- `From<WalRecordError> for WalError`. -/
def WalError.ofRecord : WalRecordFormat.Error → WalError
  | .tooShort => .tooShort
  | .zeroLength => .invalidLength 0
  | .lengthOverflow len => .invalidLength len
  | .crcMismatch stored computed => .crcMismatch stored computed
  | .unsupportedVersion version => .invalidType version

namespace WalEntry

open WalRecordFormat

variable (crc32 : Bytes → UInt32)

/-- The data of a record: type and payload. -/
def data (entry : WalEntry) : Bytes := entry.entryType.asU8 :: entry.payload

def serialize (entry : WalEntry) : Except Abort Bytes := WalRecordFormat.serialize crc32 entry.data

def deserialize (buf : Bytes) : Except WalError (WalEntry × ℕ) :=
  match WalRecordFormat.deserialize crc32 buf with
  | .error e => .error (.ofRecord e)
  | .ok ([], _) => .error .tooShort
  | .ok (typeByte :: payload, consumed) =>
      match WalEntryType.tryFrom typeByte with
      | none => .error (.invalidType typeByte)
      | some entryType => .ok (⟨entryType, payload⟩, consumed)

/-- The record of an entry. -/
def record (entry : WalEntry) : Bytes := WalRecordFormat.record crc32 schemaVersion entry.data

/-- The records of a sequence of entries. -/
def records (entries : List WalEntry) : Bytes := entries.flatMap (record crc32)

/-- The length field of a record can hold the length of the entry. -/
def Fits (entry : WalEntry) : Prop := entry.data.length ≤ maxLen

instance (entry : WalEntry) : Decidable entry.Fits := inferInstanceAs (Decidable (_ ≤ _))

variable {crc32} {entry : WalEntry} {entries : List WalEntry} {rest : Bytes}

@[simp] lemma length_record : (record crc32 entry).length = entry.serializedLen := by
  rw [record, WalRecordFormat.length_record, data, List.length_cons, serializedLen, headerSize]
  omega

lemma length_records : (records crc32 entries).length = (entries.map serializedLen).sum := by
  simp only [records, List.length_flatMap, length_record]

@[simp] lemma records_nil : records crc32 [] = [] := rfl

@[simp] lemma records_cons :
    records crc32 (entry :: entries) = record crc32 entry ++ records crc32 entries := rfl

lemma records_append (xs ys : List WalEntry) :
    records crc32 (xs ++ ys) = records crc32 xs ++ records crc32 ys := List.flatMap_append

lemma serialize_of_fits (h : entry.Fits) : serialize crc32 entry = .ok (record crc32 entry) :=
  if_pos h

lemma serialize_of_not_fits (h : ¬entry.Fits) :
    ∃ message, serialize crc32 entry = .error (.panic message) :=
  ⟨_, if_neg h⟩

/-- An entry is read back from a record of its data, of any version and whatever follows it. -/
lemma deserialize_recordV (version : UInt8) (h : entry.Fits) :
    deserialize crc32 (WalRecordFormat.record crc32 version entry.data ++ rest) =
      .ok (entry, entry.serializedLen) := by
  have hread : WalRecordFormat.deserialize crc32
      (WalRecordFormat.record crc32 version entry.data ++ rest) =
        .ok (entry.data, entry.serializedLen) := by
    have hsize : headerSize + entry.data.length = entry.serializedLen := by
      rw [← @length_record crc32, record, WalRecordFormat.length_record]
    have hne : entry.data ≠ [] := List.cons_ne_nil _ _
    rw [WalRecordFormat.deserialize, deserializeV_record hne h, hsize]
    rfl
  rw [deserialize, hread]
  dsimp only [data]
  rw [WalEntryType.tryFrom_asU8]

/-- An entry is read back from its record, whatever follows it. -/
lemma deserialize_record (h : entry.Fits) :
    deserialize crc32 (record crc32 entry ++ rest) = .ok (entry, entry.serializedLen) :=
  deserialize_recordV schemaVersion h

/-- An entry that is read is the data of a record: a known type, and the payload. -/
lemma deserialize_eq_ok {buf : Bytes} {consumed : ℕ}
    (h : deserialize crc32 buf = .ok (entry, consumed)) :
    ∃ version typeByte,
      deserializeV crc32 buf = .ok (version, typeByte :: entry.payload, consumed) ∧
        WalEntryType.tryFrom typeByte = some entry.entryType := by
  unfold deserialize at h
  split at h
  · exact absurd h (by simp)
  · exact absurd h (by simp)
  rename_i typeByte payload consumed' hread
  split at h
  · exact absurd h (by simp)
  rename_i entryType htype
  obtain ⟨rfl, rfl⟩ := Prod.mk.inj (Except.ok.inj h)
  rw [WalRecordFormat.deserialize] at hread
  cases hv : deserializeV crc32 buf with
  | error e => exact absurd hread (by rw [hv]; simp [Except.map])
  | ok r =>
      obtain ⟨version, data, total⟩ := r
      rw [hv] at hread
      obtain ⟨rfl, rfl⟩ := Prod.mk.inj (Except.ok.inj hread)
      exact ⟨version, typeByte, rfl, htype⟩

/-- An entry that is read takes as many bytes as its record has, and they are all there. -/
lemma consumed_of_deserialize {buf : Bytes} {consumed : ℕ}
    (h : deserialize crc32 buf = .ok (entry, consumed)) :
    consumed = entry.serializedLen ∧ consumed ≤ buf.length ∧
      entry.data.length = (unpackVerlen (Bytes.u32BeAt buf 0)).2 := by
  obtain ⟨version, typeByte, hok, -⟩ := deserialize_eq_ok h
  obtain ⟨hlength, hconsumed, hle⟩ := length_of_deserializeV hok
  simp only [List.length_cons, headerSize] at hlength hconsumed
  refine ⟨?_, hle, ?_⟩
  · rw [serializedLen]
    omega
  · rw [← hlength, WalEntry.data, List.length_cons]

lemma deserialize_zeros {len : ℕ} (h : 8 ≤ len) :
    deserialize crc32 (List.replicate len 0) = .error (.invalidLength 0) := by
  have hverlen : Bytes.u32BeAt (List.replicate len 0) 0 = 0 := by
    rw [Bytes.u32BeAt, List.drop_zero, List.take_replicate, Nat.min_eq_left (by omega)]
    rfl
  have hlen : ¬len < headerSize := Nat.not_lt.mpr h
  rw [deserialize, WalRecordFormat.deserialize, deserializeV, List.length_replicate, if_neg hlen,
    hverlen]
  rfl

/-! ## The header, read at other places and in the other byte order -/

/-- The bytes a record starts with. -/
lemma record_eq (h : entry.Fits) : ∃ tail, record crc32 entry =
    [0, UInt8.ofNat (entry.data.length / 256 / 256), UInt8.ofNat (entry.data.length / 256),
      UInt8.ofNat entry.data.length] ++ tail := by
  have hlen : entry.data.length < 2 ^ 24 := Nat.lt_of_le_of_lt h (by decide)
  have hpack : (packVerlen schemaVersion entry.data.length).toNat = entry.data.length := by
    rw [toNat_packVerlen h, schemaVersion, UInt8.toNat_zero, Nat.zero_mul, Nat.zero_add]
  have hhigh : UInt8.ofNat (entry.data.length / 256 / 256 / 256) = 0 := by
    rw [show entry.data.length / 256 / 256 / 256 = 0 by omega]
    rfl
  have hverlen : Bytes.ofU32Be (packVerlen schemaVersion entry.data.length) =
      [0, UInt8.ofNat (entry.data.length / 256 / 256), UInt8.ofNat (entry.data.length / 256),
        UInt8.ofNat entry.data.length] := by
    rw [Bytes.ofU32Be_eq, hpack, hhigh]
  refine ⟨Bytes.ofU32Be (crc32 (Bytes.ofU32Be (packVerlen schemaVersion entry.data.length) ++
    entry.data)) ++ entry.data, ?_⟩
  rw [← hverlen, ← List.append_assoc]
  rfl

lemma length_data_pos (entry : WalEntry) : 0 < entry.data.length := Nat.succ_pos _

/-- Little-endian, the first bytes of a record are the length with its bytes in the opposite order
and the version for the lowest one. -/
lemma toNat_u32At_record (h : entry.Fits) :
    (Bytes.u32At (record crc32 entry ++ rest) 0).toNat =
      256 * (entry.data.length / 256 / 256) + 65536 * (entry.data.length / 256 % 256) +
        16777216 * (entry.data.length % 256) := by
  have hlen : entry.data.length < 2 ^ 24 := Nat.lt_of_le_of_lt h (by decide)
  have hhigh : entry.data.length / 256 / 256 % 2 ^ 8 = entry.data.length / 256 / 256 :=
    Nat.mod_eq_of_lt (by omega)
  obtain ⟨tail, hrecord⟩ := @record_eq crc32 entry h
  rw [hrecord]
  simp only [Bytes.u32At, List.drop_zero, List.cons_append, List.take_succ_cons, List.take_zero,
    Bytes.toNatLe, UInt32.toNat_ofNat', UInt8.toNat_ofNat', UInt8.toNat_zero, hhigh]
  omega

/-- Little-endian, the first bytes of a record are not zero. -/
lemma u32At_record (h : entry.Fits) : Bytes.u32At (record crc32 entry ++ rest) 0 ≠ 0 := by
  have hpos := entry.length_data_pos
  intro hzero
  have hword := @toNat_u32At_record crc32 entry rest h
  rw [hzero, UInt32.toNat_zero] at hword
  omega

/-- Behind up to three zeros, a header gives a shorter length. -/
lemma misread_length (h : entry.Fits) {k : ℕ} (hpos : 0 < k) (hk : k < 4) :
    (unpackVerlen (Bytes.u32BeAt (List.replicate k 0 ++ (record crc32 entry ++ rest)) 0)).2 <
      entry.data.length := by
  have hdata := entry.length_data_pos
  have hlen : entry.data.length < 2 ^ 24 := Nat.lt_of_le_of_lt h (by decide)
  obtain ⟨tail, hrecord⟩ := @record_eq crc32 entry h
  have hle : ∀ w : UInt32, (unpackVerlen w).2 ≤ w.toNat := by
    intro w
    rw [unpackVerlen, UInt32.toNat_and]
    exact Nat.and_le_left
  refine Nat.lt_of_le_of_lt (hle _) ?_
  rw [hrecord]
  obtain rfl | rfl | rfl : k = 1 ∨ k = 2 ∨ k = 3 := by omega
  all_goals
    simp only [Bytes.u32BeAt, List.replicate, List.drop_zero, List.cons_append, List.nil_append,
      List.take_succ_cons, List.take_zero, List.reverse_cons, List.reverse_nil, Bytes.toNatLe,
      UInt32.toNat_ofNat', UInt8.toNat_ofNat', UInt8.toNat_zero]
    omega

/-- Behind a zero, the number read little-endian is a multiple of 256. -/
lemma u32At_zero_cons (bs : Bytes) : (Bytes.u32At (0 :: bs) 0).toNat % 256 = 0 := by
  rw [Bytes.u32At, List.drop_zero, List.take_succ_cons, Bytes.toNatLe, UInt32.toNat_ofNat',
    UInt8.toNat_zero]
  omega

end WalEntry

end ExchangeCore
