import ExchangeCore.Ubs.WalFormat

/-!
# Reading the logs of UBSCore back

`WalReplay::replay` (`wal/replay.rs`).  The file is read as a whole and then parsed from the start:
an entry is handed to the callback, zeros end the log, and behind anything else the loop goes on at
a distance read from the first four bytes, little-endian, if that stays within the file.

What the callback sees is a list of entries that depends on the file alone (`entriesOf`).  The
records of a log with zeros behind them give back the entries (`entriesOf_records`); no file gives
back more than it has room for (`size_delivered_le`).
-/

namespace ExchangeCore

/-- `WalReplay`: the counters, and the errors with their offsets. -/
structure WalReplay where
  entriesRead : ℕ
  bytesRead : ℕ
  errors : List (ℕ × WalError)

structure ReplayStats where
  entriesRead : ℕ
  bytesRead : ℕ
  errors : ℕ
  deriving DecidableEq, Repr

namespace WalReplay

/-- `open`. -/
def new : WalReplay := ⟨0, 0, []⟩

/-- Note an error. -/
def pushError (offset : ℕ) (e : WalError) (replay : WalReplay) : WalReplay :=
  { replay with errors := replay.errors ++ [(offset, e)] }

/-- Note an entry. -/
def countEntry (consumed : ℕ) (replay : WalReplay) : WalReplay :=
  { replay with
    entriesRead := replay.entriesRead + 1
    bytesRead := replay.bytesRead + consumed }

/-- The outcome of the callback: an error is noted and the loop goes on. -/
def noteResult (offset : ℕ) : Except WalError Unit → WalReplay → WalReplay
  | .ok _, replay => replay
  | .error e, replay => replay.pushError offset e

variable {σ : Type} (crc32 : Bytes → UInt32) (callback : WalEntry → Fallible σ WalError Unit)

/-- The loop of `replay`, from an offset and with what the file has from there on.  Each round takes
at least one byte, so that the length of the file bounds their number. -/
def loop : ℕ → ℕ → Bytes → WalReplay → σ → WalReplay × σ
  | 0, _, _, replay, s => (replay, s)
  | fuel + 1, offset, remaining, replay, s =>
      if remaining.isEmpty then (replay, s)
      else if remaining.length < WalRecordFormat.headerSize then
        if remaining.all (· = 0) then (replay, s)
        else (replay.pushError offset .tooShort, s)
      else
        match WalEntry.deserialize crc32 remaining with
        | .ok (entry, consumed) =>
            let (result, s) := callback entry s
            loop fuel (offset + consumed) (remaining.drop consumed)
              ((replay.noteResult offset result).countEntry consumed) s
        | .error .tooShort =>
            if remaining.all (· = 0) then (replay, s)
            else (replay.pushError offset .tooShort, s)
        | .error e =>
            let replay := replay.pushError offset e
            let len := (Bytes.u32At remaining 0).toNat
            if len > 0 ∧ len < remaining.length then
              loop fuel (offset + len) (remaining.drop len) replay s
            else (replay, s)

/-- `replay`, of the bytes of a file. -/
def replay (file : Bytes) (s : σ) : ReplayStats × σ :=
  let (replay, s) := loop crc32 callback file.length 0 file new s
  (⟨replay.entriesRead, replay.bytesRead, replay.errors.length⟩, s)

/-! ## What is delivered -/

/-- The entries the loop hands to the callback. -/
def delivered : ℕ → Bytes → List WalEntry
  | 0, _ => []
  | fuel + 1, remaining =>
      if remaining.length < WalRecordFormat.headerSize then []
      else
        match WalEntry.deserialize crc32 remaining with
        | .ok (entry, consumed) => entry :: delivered fuel (remaining.drop consumed)
        | .error .tooShort => []
        | .error _ =>
            let len := (Bytes.u32At remaining 0).toNat
            if len > 0 ∧ len < remaining.length then delivered fuel (remaining.drop len) else []

/-- The entries of a file. -/
def entriesOf (file : Bytes) : List WalEntry := delivered crc32 file.length file

/-- `replay` calls the callback with exactly these entries, in order, and counts them. -/
def Delivers (file : Bytes) (entries : List WalEntry) : Prop :=
  ∀ (σ : Type) (callback : WalEntry → Fallible σ WalError Unit) (s : σ),
    (replay crc32 callback file s).2 = entries.foldl (fun s entry => (callback entry s).2) s ∧
      (replay crc32 callback file s).1.entriesRead = entries.length

variable {crc32} {callback} {fuel offset : ℕ} {remaining rest file : Bytes}
  {entries : List WalEntry}

lemma entriesRead_noteResult (result : Except WalError Unit) (replay : WalReplay) :
    (replay.noteResult offset result).entriesRead = replay.entriesRead := by
  rcases result with e | _
  · rfl
  · rfl

lemma loop_eq (replay : WalReplay) (s : σ) :
    (loop crc32 callback fuel offset remaining replay s).2 =
        (delivered crc32 fuel remaining).foldl (fun s entry => (callback entry s).2) s ∧
      (loop crc32 callback fuel offset remaining replay s).1.entriesRead =
        replay.entriesRead + (delivered crc32 fuel remaining).length := by
  induction fuel generalizing offset remaining replay s with
  | zero => exact ⟨rfl, rfl⟩
  | succ fuel ih =>
      rw [loop, delivered]
      split
      · rename_i hempty
        rw [List.isEmpty_iff.mp hempty]
        exact ⟨rfl, rfl⟩
      split
      · split
        · exact ⟨rfl, rfl⟩
        · exact ⟨rfl, rfl⟩
      cases WalEntry.deserialize crc32 remaining with
      | ok read =>
          obtain ⟨entry, consumed⟩ := read
          obtain ⟨hstate, hcount⟩ := @ih (offset + consumed) (remaining.drop consumed)
            ((replay.noteResult offset (callback entry s).1).countEntry consumed)
            (callback entry s).2
          refine ⟨hstate, hcount.trans ?_⟩
          show (replay.noteResult offset (callback entry s).1).entriesRead + 1 + _ = _
          rw [entriesRead_noteResult, List.length_cons]
          omega
      | error e =>
          -- Every error but `TooShort` lets the loop go on.
          have hskip : ∀ e : WalError,
              (if (Bytes.u32At remaining 0).toNat > 0 ∧
                  (Bytes.u32At remaining 0).toNat < remaining.length then
                loop crc32 callback fuel (offset + (Bytes.u32At remaining 0).toNat)
                  (remaining.drop (Bytes.u32At remaining 0).toNat) (replay.pushError offset e) s
              else (replay.pushError offset e, s)).2 =
                (if (Bytes.u32At remaining 0).toNat > 0 ∧
                    (Bytes.u32At remaining 0).toNat < remaining.length then
                  delivered crc32 fuel (remaining.drop (Bytes.u32At remaining 0).toNat)
                else []).foldl (fun s entry => (callback entry s).2) s ∧
              (if (Bytes.u32At remaining 0).toNat > 0 ∧
                  (Bytes.u32At remaining 0).toNat < remaining.length then
                loop crc32 callback fuel (offset + (Bytes.u32At remaining 0).toNat)
                  (remaining.drop (Bytes.u32At remaining 0).toNat) (replay.pushError offset e) s
              else (replay.pushError offset e, s)).1.entriesRead =
                replay.entriesRead + (if (Bytes.u32At remaining 0).toNat > 0 ∧
                    (Bytes.u32At remaining 0).toNat < remaining.length then
                  delivered crc32 fuel (remaining.drop (Bytes.u32At remaining 0).toNat)
                else []).length := by
            intro e
            split
            · exact ih (replay.pushError offset e) s
            · exact ⟨rfl, rfl⟩
          cases e with
          | tooShort =>
              dsimp only
              split
              · exact ⟨rfl, rfl⟩
              · exact ⟨rfl, rfl⟩
          | invalidLength len => exact hskip _
          | invalidType type => exact hskip _
          | crcMismatch stored computed => exact hskip _
          | ioError msg => exact hskip _

lemma delivers_iff : Delivers crc32 file entries ↔ entriesOf crc32 file = entries := by
  constructor
  · intro h
    -- A callback that records its calls.
    obtain ⟨hstate, -⟩ := h (List WalEntry) (fun entry calls => (.ok (), calls ++ [entry])) []
    have hloop := (@loop_eq _ crc32 (fun entry calls => (.ok (), calls ++ [entry]))
      file.length 0 file new []).1
    have hrecord : ∀ (es calls : List WalEntry),
        es.foldl (fun calls entry => calls ++ [entry]) calls = calls ++ es := by
      intro es
      induction es with
      | nil => simp
      | cons e es ih => simp [ih]
    rw [hrecord] at hloop
    have hcalls := hloop.symm.trans (hstate.trans (hrecord entries []))
    rwa [List.nil_append, List.nil_append] at hcalls
  · rintro rfl σ callback s
    obtain ⟨hstate, hcount⟩ := @loop_eq σ crc32 callback file.length 0 file new s
    exact ⟨hstate, by rw [replay]; exact hcount.trans (Nat.zero_add _)⟩

/-- Records come first, one after another. -/
lemma delivered_records (hfits : ∀ entry ∈ entries, entry.Fits) :
    delivered crc32 (entries.length + fuel) (WalEntry.records crc32 entries ++ rest) =
      entries ++ delivered crc32 fuel rest := by
  induction entries with
  | nil => rw [List.length_nil, Nat.zero_add]; rfl
  | cons entry entries ih =>
      rw [List.forall_mem_cons] at hfits
      have hsize : ¬(WalEntry.records crc32 (entry :: entries) ++ rest).length <
          WalRecordFormat.headerSize := by
        rw [WalEntry.records_cons, List.length_append, List.length_append, WalEntry.length_record,
          WalEntry.serializedLen, WalRecordFormat.headerSize]
        omega
      rw [show (entry :: entries).length + fuel = entries.length + fuel + 1 by
        rw [List.length_cons]; omega, delivered, if_neg hsize, WalEntry.records_cons,
        List.append_assoc, WalEntry.deserialize_record hfits.1]
      dsimp only
      rw [List.drop_left' WalEntry.length_record, ih hfits.2, List.cons_append]

/-- Zeros end the log. -/
lemma delivered_zeros (len : ℕ) : delivered crc32 fuel (List.replicate len 0) = [] := by
  cases fuel with
  | zero => rfl
  | succ fuel =>
      rw [delivered]
      split
      · rfl
      rename_i hlen
      rw [List.length_replicate, WalRecordFormat.headerSize] at hlen
      rw [WalEntry.deserialize_zeros (by omega)]
      dsimp only
      rw [Bytes.u32At_replicate_zero]
      rfl

/-- The records of a log, with zeros behind them. -/
lemma entriesOf_records (hfits : ∀ entry ∈ entries, entry.Fits) (len : ℕ) :
    entriesOf crc32 (WalEntry.records crc32 entries ++ List.replicate len 0) = entries := by
  have hcount : entries.length ≤ (WalEntry.records crc32 entries).length := by
    rw [WalEntry.length_records, ← @List.length_map _ _ entries WalEntry.serializedLen]
    refine List.length_le_sum_of_one_le _ (fun n hn => ?_)
    obtain ⟨entry, -, rfl⟩ := List.mem_map.mp hn
    rw [WalEntry.serializedLen]
    omega
  obtain ⟨k, hk⟩ := Nat.exists_eq_add_of_le hcount
  rw [entriesOf, List.length_append, hk, Nat.add_assoc, delivered_records hfits, delivered_zeros,
    List.append_nil]

/-- No file delivers more than it has room for. -/
lemma size_delivered_le :
    ((delivered crc32 fuel remaining).map WalEntry.serializedLen).sum ≤ remaining.length := by
  induction fuel generalizing remaining with
  | zero => exact Nat.zero_le _
  | succ fuel ih =>
      rw [delivered]
      split
      · exact Nat.zero_le _
      have hdrop : ∀ k, ((delivered crc32 fuel (remaining.drop k)).map WalEntry.serializedLen).sum ≤
          remaining.length - k := fun k => ih.trans (List.length_drop).le
      have hskip : ((if (Bytes.u32At remaining 0).toNat > 0 ∧
          (Bytes.u32At remaining 0).toNat < remaining.length then
            delivered crc32 fuel (remaining.drop (Bytes.u32At remaining 0).toNat)
          else []).map WalEntry.serializedLen).sum ≤ remaining.length := by
        split
        · exact (hdrop _).trans (Nat.sub_le _ _)
        · exact Nat.zero_le _
      cases hread : WalEntry.deserialize crc32 remaining with
      | ok read =>
          obtain ⟨entry, consumed⟩ := read
          obtain ⟨hconsumed, hle, -⟩ := WalEntry.consumed_of_deserialize hread
          have hrest := hdrop consumed
          rw [List.map_cons, List.sum_cons, ← hconsumed]
          omega
      | error e =>
          cases e with
          | tooShort => exact Nat.zero_le _
          | invalidLength len => exact hskip
          | invalidType type => exact hskip
          | crcMismatch stored computed => exact hskip
          | ioError msg => exact hskip

end WalReplay

end ExchangeCore
