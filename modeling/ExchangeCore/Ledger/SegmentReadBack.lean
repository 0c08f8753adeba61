import ExchangeCore.Ledger.DamagedFiles

/-!
# Reading back a segment

What `WalSegment::append` writes into a new segment, `WalIterator` returns, record by record, and
then it ends (`iterate_appendAll`).  A segment takes records up to its last byte
(`appendAll_ok_iff`), so that anything from no room to all of it may be left behind the last record.
The reader looks for the length of a further record there.  If fewer than four bytes are left it
meets the end of the file, and otherwise it reads zeros (`readExact_behind`): either way that is the
end of the log, and remains so if the iterator is asked again.
-/

namespace ExchangeCore

namespace WalIterator

variable {codec : LedgerCodec} {file : Image} {pre : Bytes}

/-- Records one behind the other are returned one after another, and the call behind the last one
ends the iteration. -/
lemma walk_records {rs : List WalRecord} (hdata : file.data = pre ++ codec.records rs)
    (hrs : ∀ r ∈ rs, codec.dataLen r.2 ≤ maxRecordSize ∧ codec.RoundTrips r.2) :
    Found.walk (look codec file) (rs.length + 1) pre.length =
      some ⟨rs.map .ok, pre.length + (codec.records rs).length, none⟩ := by
  induction rs generalizing pre with
  | nil =>
      have hend : next codec file pre.length = .ok none := by
        refine next_end ?_
        rw [hdata, codec.records_nil, List.append_nil]
      rw [List.length_nil, Found.walk, look, hend]
      rfl
  | cons r rs ih =>
      rw [List.forall_mem_cons] at hrs
      rw [codec.records_cons, ← List.append_assoc] at hdata
      have hrest := ih hdata hrs.2
      rw [List.length_append, codec.length_record, ← Nat.add_assoc] at hrest
      rw [List.length_cons, Found.walk, look, next_record hdata hrs.1.1 hrs.1.2]
      dsimp only
      rw [hrest, Option.map_some, codec.records_cons, List.length_append, codec.length_record,
        List.map_cons, ← Nat.add_assoc, ← Nat.add_assoc]

end WalIterator

namespace WalSegment

variable {codec : LedgerCodec}

/-- A new segment of so many bytes. -/
def fresh (len : ℕ) : WalSegment := ⟨Image.zeroed len, 0, []⟩

lemma create_none : create none = fresh walMaxSize := rfl

lemma fresh_holds (len : ℕ) : (fresh len).Holds [] := ⟨rfl, rfl, rfl⟩

lemma appendAll_ok {seg : WalSegment} {bs : Bytes} {rs : List WalRecord} (h : seg.Holds bs)
    (hfits : (bs ++ codec.records rs).length ≤ seg.file.len) :
    (appendAll codec rs seg).1 = .ok () := by
  induction rs generalizing seg bs with
  | nil => rfl
  | cons r rs ih =>
      rw [codec.records_cons, ← List.append_assoc] at hfits
      have hroom : bs.length + 8 + codec.dataLen r.2 ≤ seg.file.len := by
        rw [List.length_append, List.length_append, codec.length_record] at hfits
        omega
      obtain ⟨hok, hholds, hlen⟩ := append_of_fits h hroom
      have happend : append codec r seg = (.ok (), (append codec r seg).2) := Prod.ext hok rfl
      rw [appendAll, Fallible.bind_of_ok happend]
      exact ih hholds (hfits.trans_eq hlen.symm)

/-- **Capacity.**  All appends to a new segment succeed exactly if the records fit into it. -/
theorem appendAll_ok_iff (codec : LedgerCodec) (len : ℕ) (rs : List WalRecord) :
    (appendAll codec rs (fresh len)).1 = .ok () ↔ (codec.records rs).length ≤ len := by
  constructor
  · intro hok
    obtain ⟨hholds, hlen⟩ := appendAll_holds (fresh_holds len)
      (Prod.ext hok rfl : appendAll codec rs (fresh len) = (.ok (), _))
    have hle := (appendAll codec rs (fresh len)).2.file.data_le
    rw [hholds.data, hlen] at hle
    exact hle
  · exact fun hfits => appendAll_ok (fresh_holds len) hfits

/-- **Reading back.**  If all appends to a new segment succeed, of records that are not too large
for the reader and that bincode gives back, then the iterator returns these records, each without an
error, and ends with the call after the last of them.  From there on it returns nothing more. -/
theorem iterate_appendAll (codec : LedgerCodec) (len : ℕ) (rs : List WalRecord)
    (happend : (appendAll codec rs (fresh len)).1 = .ok ())
    (hsize : ∀ r ∈ rs, 8 + (codec.serialize r.2).length ≤ maxRecordSize)
    (hround : ∀ r ∈ rs, codec.deserialize (codec.serialize r.2) = .ok r.2) :
    WalIterator.iterate codec (appendAll codec rs (fresh len)).2.file (rs.length + 1) =
        some ⟨rs.map .ok, (codec.records rs).length, none⟩ ∧
      ∀ pos, (codec.records rs).length ≤ pos →
        WalIterator.next codec (appendAll codec rs (fresh len)).2.file pos = .ok none := by
  obtain ⟨hholds, -⟩ := appendAll_holds (fresh_holds len)
    (Prod.ext happend rfl : appendAll codec rs (fresh len) = (.ok (), _))
  rw [List.nil_append] at hholds
  constructor
  · have hwalk := @WalIterator.walk_records codec _ [] rs hholds.data
      (fun r hr => ⟨hsize r hr, hround r hr⟩)
    rwa [List.length_nil, Nat.zero_add] at hwalk
  · intro pos hpos
    exact WalIterator.next_end (by rwa [hholds.data])

/-- Two deposits in a segment they fill, in one with three bytes more, in one with seven bytes
more, and in one that `create` makes. -/
theorem iterate_appendAll_twoDeposits :
    let codec := LedgerCodec.balances (fun _ => "")
    let read := fun seg => WalIterator.iterate codec (appendAll codec twoDeposits seg).2.file 3
    read (fresh 112) = some ⟨twoDeposits.map .ok, 112, none⟩ ∧
      read (fresh 115) = some ⟨twoDeposits.map .ok, 112, none⟩ ∧
      read (fresh 119) = some ⟨twoDeposits.map .ok, 112, none⟩ ∧
      read (create none) = some ⟨twoDeposits.map .ok, 112, none⟩ := by
  intro codec read
  have hlength : (codec.records twoDeposits).length = 112 := by decide
  have hsize : ∀ r ∈ twoDeposits, 8 + (codec.serialize r.2).length ≤ maxRecordSize := by decide
  have hround : ∀ r ∈ twoDeposits, codec.deserialize (codec.serialize r.2) = .ok r.2 :=
    List.forall_mem_cons.mpr ⟨rfl, List.forall_mem_cons.mpr
      ⟨rfl, fun r hr => absurd hr List.not_mem_nil⟩⟩
  have hread : ∀ len, 112 ≤ len → read (fresh len) = some ⟨twoDeposits.map .ok, 112, none⟩ := by
    intro len hlen
    have happend := (appendAll_ok_iff codec len twoDeposits).mpr (hlength.trans_le hlen)
    rw [← hlength]
    exact (iterate_appendAll codec len twoDeposits happend hsize hround).1
  refine ⟨hread 112 (by omega), hread 115 (by omega), hread 119 (by omega), ?_⟩
  rw [create_none]
  exact hread walMaxSize (by decide)

end WalSegment

end ExchangeCore
