import ExchangeCore.Ledger.WalSegment
import ExchangeCore.Ubs.WalFormat

/-!
# The record codec

`wal_record_serialize_v` and `wal_record_deserialize_v` (`common_utils.rs`) undo each other,
whatever the checksum is.  Version and length share one word, and all of that word is used: a buffer
is accepted exactly if it begins with a record (`deserializeV_eq_ok_iff`), so that nothing is read
that the serializer would not have written.

Entries are read with `wal_record_deserialize`, which ignores the version.  They are read back too,
but the converse holds for the current version only (`serialize_eq_take_iff`).
-/

namespace ExchangeCore

/-! ## Records -/

namespace WalRecordFormat

variable {crc32 : Bytes → UInt32} {version : UInt8} {data buf : Bytes} {consumed : ℕ}

/-- A buffer that is accepted begins with the record of what is read. -/
lemma Accepted.take_eq (h : Accepted crc32 buf version data consumed) :
    buf.take consumed = record crc32 version data := by
  have hroom := h.room
  have hconsumed := h.consumed_eq
  rw [headerSize] at hconsumed
  have hverlen : Bytes.ofU32Be (packVerlen version data.length) = buf.take 4 := by
    rw [packVerlen_of_unpackVerlen h.header, Bytes.ofU32Be_u32BeAt (by omega), List.drop_zero]
  have hcrc : Bytes.ofU32Be (crc32 (buf.take 4 ++ data)) = (buf.drop 4).take 4 := by
    rw [h.crc, Bytes.ofU32Be_u32BeAt (by omega)]
  have hsplit : buf.take consumed =
      buf.take 4 ++ (buf.drop 4).take 4 ++ (buf.drop 8).take data.length := by
    rw [← List.take_add, hconsumed, List.take_add]
  rw [hsplit, h.data_eq, record, hverlen, hcrc]

/-- **What is read.**  A record is read from exactly those buffers that begin with it. -/
theorem deserializeV_eq_ok_iff :
    deserializeV crc32 buf = .ok (version, data, consumed) ↔
      data ≠ [] ∧ data.length ≤ maxLen ∧ consumed = headerSize + data.length ∧
        ∃ rest, buf = record crc32 version data ++ rest := by
  constructor
  · intro h
    have hread := accepted_of_deserializeV h
    refine ⟨fun hnil => hread.nonempty (by rw [hnil, List.length_nil]), ?_, hread.consumed_eq,
      buf.drop consumed, ?_⟩
    · have hle := length_unpackVerlen_le (Bytes.u32BeAt buf 0)
      rwa [hread.header] at hle
    · rw [← hread.take_eq, List.take_append_drop]
  · rintro ⟨hne, hle, rfl, rest, rfl⟩
    exact deserializeV_record hne hle

/-- **Round trip.**  Every record of one byte to 2^24 - 1 bytes of data is read back, whatever
follows it; and what is read from a buffer is serialized to the bytes it was read from. -/
theorem deserializeV_serializeV (crc32 : Bytes → UInt32) (version : UInt8) :
    (∀ data rest, 1 ≤ data.length → data.length ≤ 2 ^ 24 - 1 →
      ∃ bytes, serializeV crc32 version data = .ok bytes ∧
        deserializeV crc32 (bytes ++ rest) = .ok (version, data, 8 + data.length)) ∧
    ∀ buf data n, deserializeV crc32 buf = .ok (version, data, n) →
      n ≤ buf.length ∧ serializeV crc32 version data = .ok (buf.take n) := by
  constructor
  · intro data rest hpos hle
    refine ⟨record crc32 version data, if_pos hle, ?_⟩
    exact deserializeV_record (List.length_pos_iff.mp hpos) hle
  · intro buf data n h
    have hread := accepted_of_deserializeV h
    obtain ⟨-, hle, -⟩ := deserializeV_eq_ok_iff.mp h
    rw [hread.take_eq]
    exact ⟨hread.room, if_pos hle⟩

/-- The longest record there is, and a byte in front of another record. -/
theorem deserializeV_serializeV_ieee :
    (∃ bytes, serializeV LedgerCodec.crc32Ieee 255 (List.replicate (2 ^ 24 - 1) 0xFF) = .ok bytes ∧
      deserializeV LedgerCodec.crc32Ieee (bytes ++ [0]) =
        .ok (255, List.replicate (2 ^ 24 - 1) 0xFF,
          8 + (List.replicate (2 ^ 24 - 1) (0xFF : UInt8)).length)) ∧
    serializeV LedgerCodec.crc32Ieee 42 [7] =
      .ok ((record LedgerCodec.crc32Ieee 42 [7] ++ [42, 0, 0, 1]).take 9) := by
  refine ⟨(deserializeV_serializeV LedgerCodec.crc32Ieee 255).1 _ [0] ?_ ?_, ?_⟩
  · rw [List.length_replicate]
    omega
  · rw [List.length_replicate]
  · exact ((deserializeV_serializeV LedgerCodec.crc32Ieee 42).2 _ [7] 9 (by decide +kernel)).2

end WalRecordFormat

/-! ## Entries -/

lemma WalEntryType.asU8_of_tryFrom {byte : UInt8} {type : WalEntryType}
    (h : WalEntryType.tryFrom byte = some type) : byte = type.asU8 := by
  unfold WalEntryType.tryFrom at h
  split at h <;> cases h <;> rfl

namespace WalEntry

open WalRecordFormat

variable {crc32 : Bytes → UInt32} {buf : Bytes} {entry : WalEntry} {consumed : ℕ}

/-- An entry is read from exactly those buffers that begin with a record of its data, of whatever
version. -/
theorem deserialize_eq_ok_iff :
    deserialize crc32 buf = .ok (entry, consumed) ↔
      entry.Fits ∧ consumed = entry.serializedLen ∧
        ∃ version rest, buf = WalRecordFormat.record crc32 version entry.data ++ rest := by
  constructor
  · intro h
    obtain ⟨version, typeByte, hok, htype⟩ := deserialize_eq_ok h
    obtain ⟨hconsumed, -⟩ := consumed_of_deserialize h
    rw [WalEntryType.asU8_of_tryFrom htype] at hok
    obtain ⟨-, hle, -, rest, hbuf⟩ := deserializeV_eq_ok_iff.mp hok
    exact ⟨hle, hconsumed, version, rest, hbuf⟩
  · rintro ⟨hfits, rfl, version, rest, rfl⟩
    exact deserialize_recordV version hfits

/-- **The version is not checked.**  An entry that is read is serialized to the bytes it was read
from exactly if they are of the current version. -/
theorem serialize_eq_take_iff (h : deserialize crc32 buf = .ok (entry, consumed)) :
    serialize crc32 entry = .ok (buf.take consumed) ↔
      (unpackVerlen (Bytes.u32BeAt buf 0)).1 = schemaVersion := by
  obtain ⟨hfits, hconsumed, version, rest, rfl⟩ := deserialize_eq_ok_iff.mp h
  have hlength : (WalRecordFormat.record crc32 version entry.data).length = consumed := by
    rw [WalRecordFormat.length_record, hconsumed, serializedLen, data, List.length_cons, headerSize]
    omega
  rw [serialize_of_fits hfits, List.take_left' hlength, unpackVerlen_record hfits, record]
  constructor
  · intro heq
    have hheader := @unpackVerlen_record crc32 version entry.data [] hfits
    rw [← Except.ok.inj heq, unpackVerlen_record hfits] at hheader
    exact (Prod.mk.inj hheader).1.symm
  · rintro rfl
    rfl

theorem serialize_ne_take_versionNine :
    serialize LedgerCodec.crc32Ieee ⟨.deposit, [7]⟩ ≠
      .ok ((WalRecordFormat.record LedgerCodec.crc32Ieee 9 [1, 7]).take 10) := by
  have hread : deserialize LedgerCodec.crc32Ieee
      (WalRecordFormat.record LedgerCodec.crc32Ieee 9 [1, 7]) = .ok (⟨.deposit, [7]⟩, 10) := by
    decide +kernel
  exact mt (serialize_eq_take_iff hread).mp (by decide +kernel)

end WalEntry

end ExchangeCore
