import ExchangeCore.Framework.Walk
import ExchangeCore.Ubs.WalReplay

/-!
# What replay does with a file of arbitrary contents

`WalReplay::replay` with the bounds of every access checked, for a file of any contents.  A round of
the loop hands an entry over or skips over an error, and takes in either case the bytes up to the
next offset; the loop is the walk of these rounds (`loop_eq_walk`).

No access is out of bounds, the offsets go up, and the records handed over are in the file, one
behind the other, each with its checksum and a known type (`replay_safe`).
-/

namespace ExchangeCore

/-! ## Checked access -/

namespace Bytes

/-- `&buf[start..stop]`. -/
def range (buf : Bytes) (start stop : ℕ) : Except Abort Bytes :=
  if start > stop then
    .error (.panic s!"slice index starts at {start} but ends at {stop}")
  else if stop > buf.length then
    .error (.panic s!"range end index {stop} out of range for slice of length {buf.length}")
  else .ok ((buf.drop start).take (stop - start))

/-- `&buf[start..]`. -/
def rangeFrom (buf : Bytes) (start : ℕ) : Except Abort Bytes :=
  if start > buf.length then
    .error (.panic s!"range start index {start} out of range for slice of length {buf.length}")
  else .ok (buf.drop start)

/-- `buf[i]`. -/
def index (buf : Bytes) (i : ℕ) : Except Abort UInt8 :=
  match buf[i]? with
  | some b => .ok b
  | none =>
      .error (.panic s!"index out of bounds: the len is {buf.length} but the index is {i}")

/-- `slice.try_into().unwrap()`, for an array of four bytes. -/
def intoFour (slice : Bytes) : Except Abort Bytes :=
  if slice.length = 4 then .ok slice
  else .error (.panic "called Result::unwrap() on an Err value: TryFromSliceError(())")

variable {buf : Bytes} {start stop i : ℕ}

lemma range_ok (hle : start ≤ stop) (hstop : stop ≤ buf.length) :
    buf.range start stop = .ok ((buf.drop start).take (stop - start)) := by
  rw [range, if_neg (by omega), if_neg (by omega)]

lemma rangeFrom_ok (h : start ≤ buf.length) : buf.rangeFrom start = .ok (buf.drop start) := by
  rw [rangeFrom, if_neg (by omega)]

lemma index_ok (h : i < buf.length) : buf.index i = .ok buf[i] := by
  rw [index, List.getElem?_eq_getElem h]

lemma intoFour_ok (h : buf.length = 4) : buf.intoFour = .ok buf := if_pos h

end Bytes

/-! ## Records and entries -/

namespace WalRecordFormat

variable (crc32 : Bytes → UInt32)

/-- `wal_record_deserialize_v`: what it returns, or a panic. -/
def deserializeVChecked (buf : Bytes) : Except Abort (Except Error (UInt8 × Bytes × ℕ)) :=
  if buf.length < headerSize then .ok (.error .tooShort)
  else do
    let verlenBytes ← (← buf.range 0 4).intoFour
    let verlen := unpackVerlen (Bytes.u32BeAt verlenBytes 0)
    if verlen.2 = 0 then .ok (.error .zeroLength)
    else if verlen.2 > maxLen then .ok (.error (.lengthOverflow verlen.2))
    else do
      let storedCrc := Bytes.u32BeAt (← (← buf.range 4 8).intoFour) 0
      let totalLen := headerSize + verlen.2
      if buf.length < totalLen then .ok (.error .tooShort)
      else do
        let data ← buf.range 8 totalLen
        let computedCrc := crc32 (verlenBytes ++ data)
        if computedCrc ≠ storedCrc then .ok (.error (.crcMismatch storedCrc computedCrc))
        else .ok (.ok (verlen.1, data, totalLen))

/-- No access is out of bounds. -/
lemma deserializeVChecked_ok (buf : Bytes) :
    deserializeVChecked crc32 buf = .ok (deserializeV crc32 buf) := by
  rw [deserializeVChecked, deserializeV]
  by_cases hshort : buf.length < headerSize
  · rw [if_pos hshort, if_pos hshort]
  rw [if_neg hshort, if_neg hshort]
  rw [headerSize] at hshort
  have hword : Bytes.u32BeAt (buf.take 4) 0 = Bytes.u32BeAt buf 0 := by
    rw [Bytes.u32BeAt, Bytes.u32BeAt, List.drop_zero, List.drop_zero, List.take_take, Nat.min_self]
  have hcrc : Bytes.u32BeAt ((buf.drop 4).take 4) 0 = Bytes.u32BeAt buf 4 := by
    rw [Bytes.u32BeAt, Bytes.u32BeAt, List.drop_zero, List.take_take, Nat.min_self]
  -- each range is behind a length check that covers it
  have hfirst : buf.range 0 4 = .ok (buf.take 4) := Bytes.range_ok (by omega) (by omega)
  have hsecond : buf.range 4 8 = .ok ((buf.drop 4).take 4) := Bytes.range_ok (by omega) (by omega)
  have hfour : Bytes.intoFour (buf.take 4) = .ok (buf.take 4) :=
    Bytes.intoFour_ok (by rw [List.length_take]; omega)
  have hfour' : Bytes.intoFour ((buf.drop 4).take 4) = .ok ((buf.drop 4).take 4) :=
    Bytes.intoFour_ok (by rw [List.length_take, List.length_drop]; omega)
  rw [hfirst]
  simp only [bind, Except.bind, hfour, hword]
  split
  · rfl
  split
  · rfl
  rw [hsecond]
  simp only [hfour', hcrc]
  split
  · rfl
  rename_i hroom
  rw [headerSize] at hroom
  rw [headerSize, Bytes.range_ok (by omega) (by omega), Nat.add_sub_cancel_left]
  dsimp only
  split
  · rfl
  · rfl

end WalRecordFormat

namespace WalEntry

open WalRecordFormat

variable (crc32 : Bytes → UInt32)

/-- `deserialize`: what it returns, or a panic. -/
def deserializeChecked (buf : Bytes) : Except Abort (Except WalError (WalEntry × ℕ)) := do
  match ← deserializeVChecked crc32 buf with
  | .error e => .ok (.error (.ofRecord e))
  | .ok (_, data, consumed) =>
      if data.isEmpty then .ok (.error .tooShort)
      else do
        let typeByte ← data.index 0
        match WalEntryType.tryFrom typeByte with
        | none => .ok (.error (.invalidType typeByte))
        | some entryType => do
            let payload ← data.rangeFrom 1
            .ok (.ok (⟨entryType, payload⟩, consumed))

lemma deserializeChecked_ok (buf : Bytes) :
    deserializeChecked crc32 buf = .ok (deserialize crc32 buf) := by
  rw [deserializeChecked, deserializeVChecked_ok, deserialize, WalRecordFormat.deserialize]
  simp only [bind, Except.bind]
  rcases deserializeV crc32 buf with e | ⟨version, data, consumed⟩
  · rfl
  rcases data with _ | ⟨typeByte, payload⟩
  · rfl
  · simp only [List.isEmpty_cons, Except.map, Bool.false_eq_true, if_false]
    rw [Bytes.index_ok (by simp), Bytes.rangeFrom_ok (by simp)]
    dsimp only [List.getElem_cons_zero, List.drop_succ_cons, List.drop_zero]
    rcases WalEntryType.tryFrom typeByte with _ | entryType
    · rfl
    · rfl

/-- The bytes are the record of an entry: the length in the header is that of the data, the checksum
is right, and the data are a known type and the payload. -/
def IsRecord (bytes : Bytes) (entry : WalEntry) : Prop :=
  (unpackVerlen (Bytes.u32BeAt bytes 0)).2 = (bytes.drop 8).length ∧
    crc32 (bytes.take 4 ++ bytes.drop 8) = Bytes.u32BeAt bytes 4 ∧
    ∃ typeByte, bytes.drop 8 = typeByte :: entry.payload ∧
      WalEntryType.tryFrom typeByte = some entry.entryType

variable {crc32} {buf : Bytes} {entry : WalEntry} {consumed : ℕ}

lemma isRecord_of_deserialize (h : deserialize crc32 buf = .ok (entry, consumed)) :
    IsRecord crc32 (buf.take consumed) entry := by
  obtain ⟨version, typeByte, hok, htype⟩ := deserialize_eq_ok h
  obtain ⟨hlength, hconsumed, hle⟩ := length_of_deserializeV hok
  obtain ⟨hdata, hcrc⟩ := crc_of_deserializeV hok
  rw [headerSize] at hconsumed
  have hfield : ∀ k, k + 4 ≤ 8 →
      Bytes.u32BeAt (buf.take consumed) k = Bytes.u32BeAt buf k := by
    intro k hk
    rw [Bytes.u32BeAt, Bytes.u32BeAt, List.drop_take, List.take_take, Nat.min_eq_left (by omega)]
  have hrest : (buf.take consumed).drop 8 = typeByte :: entry.payload := by
    rw [List.drop_take, hconsumed, Nat.add_sub_cancel_left, ← hdata]
  have hhead : (buf.take consumed).take 4 = buf.take 4 := by
    rw [List.take_take, Nat.min_eq_left (by omega)]
  refine ⟨?_, ?_, typeByte, hrest, htype⟩
  · rw [hrest, hfield 0 (by omega), hlength]
  · rw [hrest, hhead, hfield 4 (by omega), hcrc]

end WalEntry

namespace WalReplay

/-! ## Rounds of the loop -/

/-- What a round that goes on does. -/
inductive Round
  | entry (entry : WalEntry) (consumed : ℕ)
  | skip (e : WalError) (len : ℕ)

/-- How the loop ends otherwise than at the end of the data. -/
inductive Halt
  | noted (e : WalError)
  | panic (message : String)
  deriving DecidableEq

/-- How far a round takes the loop. -/
def Round.len : Round → ℕ
  | .entry _ consumed => consumed
  | .skip _ len => len

/-- Behind an error: skip as many bytes as the first four say, read little-endian. -/
def skip (offset : ℕ) (remaining : Bytes) (e : WalError) :
    Except Abort (Found Halt (ℕ × Round)) := do
  let b₀ ← remaining.index 0
  let b₁ ← remaining.index 1
  let b₂ ← remaining.index 2
  let b₃ ← remaining.index 3
  let len := (Bytes.u32At [b₀, b₁, b₂, b₃] 0).toNat
  if len > 0 ∧ len < remaining.length then .ok (.item (offset, .skip e len) (offset + len))
  else .ok (.fault (.noted e))

variable (crc32 : Bytes → UInt32)

/-- The body of the loop: the offset with what is done there, and the next offset. -/
def body (file : Bytes) (offset : ℕ) : Except Abort (Found Halt (ℕ × Round)) := do
  let remaining ← file.rangeFrom offset
  if remaining.length < WalRecordFormat.headerSize then
    if remaining.all (· = 0) then .ok .finish else .ok (.fault (.noted .tooShort))
  else
    match ← WalEntry.deserializeChecked crc32 remaining with
    | .ok (entry, consumed) => .ok (.item (offset, .entry entry consumed) (offset + consumed))
    | .error .tooShort =>
        if remaining.all (· = 0) then .ok .finish else .ok (.fault (.noted .tooShort))
    | .error e => skip offset remaining e

/-- What the loop finds at an offset. -/
def look (file : Bytes) (offset : ℕ) : Found Halt (ℕ × Round) :=
  if offset < file.length then
    match body crc32 file offset with
    | .ok found => found
    | .error (.error message) => .fault (.panic message)
    | .error (.panic message) => .fault (.panic message)
  else .finish

/-- The rounds of the loop on a file, which has a round for every byte. -/
def scan (file : Bytes) : Option (Walked Halt (ℕ × Round)) :=
  Found.walk (look crc32 file) (file.length + 1) 0

/-- An entry handed over: where its record is, and how long it is. -/
structure Delivery where
  offset : ℕ
  entry : WalEntry
  consumed : ℕ

/-- The entries handed over in some rounds. -/
def deliveries (rounds : List (ℕ × Round)) : List Delivery :=
  rounds.filterMap fun
    | (offset, .entry entry consumed) => some ⟨offset, entry, consumed⟩
    | (_, .skip _ _) => none

variable {crc32} {file remaining : Bytes} {offset : ℕ}

/-! ## Every access is within bounds -/

/-- The bytes that say how far to skip. -/
def skipLen (remaining : Bytes) : ℕ := (Bytes.u32At remaining 0).toNat

/-- The body, without panics. -/
def found (crc32 : Bytes → UInt32) (offset : ℕ) (remaining : Bytes) : Found Halt (ℕ × Round) :=
  if remaining.length < WalRecordFormat.headerSize then
    if remaining.all (· = 0) then .finish else .fault (.noted .tooShort)
  else
    match WalEntry.deserialize crc32 remaining with
    | .ok (entry, consumed) => .item (offset, .entry entry consumed) (offset + consumed)
    | .error .tooShort =>
        if remaining.all (· = 0) then .finish else .fault (.noted .tooShort)
    | .error e =>
        if skipLen remaining > 0 ∧ skipLen remaining < remaining.length then
          .item (offset, .skip e (skipLen remaining)) (offset + skipLen remaining)
        else .fault (.noted e)

lemma u32At_index {bs : Bytes} (h : 4 ≤ bs.length) :
    Bytes.u32At [bs[0], bs[1], bs[2], bs[3]] 0 = Bytes.u32At bs 0 := by
  obtain ⟨b₀, b₁, b₂, b₃, rest, rfl⟩ : ∃ b₀ b₁ b₂ b₃ rest, bs = b₀ :: b₁ :: b₂ :: b₃ :: rest := by
    match bs, h with
    | b₀ :: b₁ :: b₂ :: b₃ :: rest, _ => exact ⟨b₀, b₁, b₂, b₃, rest, rfl⟩
  rfl

lemma skip_ok (h : 4 ≤ remaining.length) (e : WalError) :
    skip offset remaining e =
      .ok (if skipLen remaining > 0 ∧ skipLen remaining < remaining.length then
        .item (offset, .skip e (skipLen remaining)) (offset + skipLen remaining)
      else .fault (.noted e)) := by
  rw [skip, Bytes.index_ok (by omega), Bytes.index_ok (by omega), Bytes.index_ok (by omega),
    Bytes.index_ok (by omega)]
  simp only [bind, Except.bind]
  rw [u32At_index h]
  split
  · rename_i hskip
    rw [skipLen, if_pos hskip]
  · rename_i hskip
    rw [skipLen, if_neg hskip]

/-- **No access of the body is out of bounds.** -/
lemma body_ok (h : offset < file.length) :
    body crc32 file offset = .ok (found crc32 offset (file.drop offset)) := by
  rw [body, Bytes.rangeFrom_ok h.le, found]
  simp only [bind, Except.bind]
  generalize file.drop offset = remaining
  by_cases hsize : remaining.length < WalRecordFormat.headerSize
  · rw [if_pos hsize, if_pos hsize]
    split
    · rfl
    · rfl
  rw [if_neg hsize, if_neg hsize, WalEntry.deserializeChecked_ok]
  rw [WalRecordFormat.headerSize] at hsize
  dsimp only
  rcases WalEntry.deserialize crc32 remaining with e | ⟨entry, consumed⟩
  · cases e with
    | tooShort =>
        dsimp only
        split
        · rfl
        · rfl
    | invalidLength len => exact skip_ok (by omega) _
    | invalidType type => exact skip_ok (by omega) _
    | crcMismatch stored computed => exact skip_ok (by omega) _
    | ioError msg => exact skip_ok (by omega) _
  · rfl

lemma look_of_lt (h : offset < file.length) :
    look crc32 file offset = found crc32 offset (file.drop offset) := by
  rw [look, if_pos h, body_ok h]

/-! ## What a round can do -/

/-- Everything a round can do: end the loop, with or without an error noted, hand an entry over, or
skip. -/
lemma found_cases (crc32 : Bytes → UInt32) (offset : ℕ) (remaining : Bytes) :
    (found crc32 offset remaining = .finish ∨
        ∃ e, found crc32 offset remaining = .fault (.noted e)) ∨
      (∃ entry consumed, WalEntry.deserialize crc32 remaining = .ok (entry, consumed) ∧
        found crc32 offset remaining =
          .item (offset, .entry entry consumed) (offset + consumed)) ∨
      ∃ e, (WalRecordFormat.headerSize ≤ remaining.length ∧
          WalEntry.deserialize crc32 remaining = .error e ∧ e ≠ .tooShort) ∧
        0 < skipLen remaining ∧ skipLen remaining < remaining.length ∧
        found crc32 offset remaining =
          .item (offset, .skip e (skipLen remaining)) (offset + skipLen remaining) := by
  rw [found]
  split
  · split
    · exact .inl (.inl rfl)
    · exact .inl (.inr ⟨_, rfl⟩)
  rename_i hsize
  split
  · rename_i entry consumed hread
    exact .inr (.inl ⟨entry, consumed, hread, rfl⟩)
  · split
    · exact .inl (.inl rfl)
    · exact .inl (.inr ⟨_, rfl⟩)
  · rename_i e hne hread
    split
    · rename_i hlen
      exact .inr (.inr ⟨e, ⟨Nat.le_of_not_lt hsize, hread, fun heq => hne heq⟩, hlen.1, hlen.2,
        rfl⟩)
    · exact .inl (.inr ⟨_, rfl⟩)

/-- Behind an error other than `TooShort` the round skips, if that stays within the file. -/
lemma found_of_error {e : WalError} (hsize : WalRecordFormat.headerSize ≤ remaining.length)
    (hread : WalEntry.deserialize crc32 remaining = .error e) (hne : e ≠ .tooShort) :
    found crc32 offset remaining =
      if skipLen remaining > 0 ∧ skipLen remaining < remaining.length then
        .item (offset, .skip e (skipLen remaining)) (offset + skipLen remaining)
      else .fault (.noted e) := by
  rw [found, if_neg (Nat.not_lt.mpr hsize), hread]
  cases e with
  | tooShort => exact absurd rfl hne
  | invalidLength len => rfl
  | invalidType type => rfl
  | crcMismatch stored computed => rfl
  | ioError msg => rfl

/-- An item is a round at its offset, it takes some bytes of the file, and the next offset is behind
these. -/
lemma look_item {a : ℕ × Round} {behind : ℕ} (h : look crc32 file offset = .item a behind) :
    a.1 = offset ∧ behind = offset + a.2.len ∧ 0 < a.2.len ∧ behind ≤ file.length ∧
      ∀ entry consumed, a.2 = .entry entry consumed →
        WalEntry.deserialize crc32 (file.drop offset) = .ok (entry, consumed) := by
  by_cases hoffset : offset < file.length
  swap
  · rw [look, if_neg hoffset] at h
    exact absurd h (by simp)
  rw [look_of_lt hoffset] at h
  have hlength : (file.drop offset).length = file.length - offset := List.length_drop
  rcases found_cases crc32 offset (file.drop offset) with
    (hend | ⟨e, hend⟩) | ⟨entry, consumed, hread, hitem⟩ | ⟨e, -, hpos, hlt, hitem⟩
  · rw [hend] at h
    exact absurd h (by simp)
  · rw [hend] at h
    exact absurd h (by simp)
  · rw [hitem] at h
    obtain ⟨rfl, rfl⟩ := Found.item.inj h
    obtain ⟨hconsumed, hle, -⟩ := WalEntry.consumed_of_deserialize hread
    refine ⟨rfl, rfl, ?_, by omega, ?_⟩
    · rw [Round.len, hconsumed, WalEntry.serializedLen]
      omega
    · intro entry' consumed' hround
      obtain ⟨rfl, rfl⟩ := Round.entry.inj hround
      exact hread
  · rw [hitem] at h
    obtain ⟨rfl, rfl⟩ := Found.item.inj h
    refine ⟨rfl, rfl, hpos, by omega, ?_⟩
    intro entry consumed hround
    exact absurd hround (by simp)

lemma look_advances (crc32 : Bytes → UInt32) (file : Bytes) :
    Found.Advances (look crc32 file) file.length := by
  intro offset a behind _ hlook
  obtain ⟨-, hbehind, hpos, hle, -⟩ := look_item hlook
  exact ⟨by omega, hle⟩

lemma look_ne_panic (message : String) : look crc32 file offset ≠ .fault (.panic message) := by
  by_cases hoffset : offset < file.length
  swap
  · rw [look, if_neg hoffset]
    simp
  rw [look_of_lt hoffset]
  rcases found_cases crc32 offset (file.drop offset) with
    (hend | ⟨e, hend⟩) | ⟨entry, consumed, -, hitem⟩ | ⟨e, -, -, -, hitem⟩
  · rw [hend]
    simp
  · rw [hend]
    simp
  · rw [hitem]
    simp
  · rw [hitem]
    simp

/-! ## The loop is the walk -/

section Rounds

variable {σ : Type} (callback : WalEntry → Fallible σ WalError Unit)

/-- The counters and the callback over some rounds. -/
def runRounds : List (ℕ × Round) → WalReplay → σ → WalReplay × σ
  | [], replay, s => (replay, s)
  | (offset, .entry entry consumed) :: rounds, replay, s =>
      runRounds rounds
        ((replay.noteResult offset (callback entry s).1).countEntry consumed) (callback entry s).2
  | (offset, .skip e _) :: rounds, replay, s => runRounds rounds (replay.pushError offset e) s

/-- The error noted at the end. -/
def noteHalt (offset : ℕ) : Option Halt → WalReplay → WalReplay
  | some (.noted e), replay => replay.pushError offset e
  | _, replay => replay

variable {callback} {replay : WalReplay} {s : σ} {fuel looks : ℕ} {w : Walked Halt (ℕ × Round)}

lemma bytesRead_noteResult (result : Except WalError Unit) (replay : WalReplay) :
    (replay.noteResult offset result).bytesRead = replay.bytesRead := by
  rcases result with e | _
  · rfl
  · rfl

lemma loop_succ (h : remaining ≠ []) :
    loop crc32 callback (fuel + 1) offset remaining replay s =
      match found crc32 offset remaining with
      | .finish => (replay, s)
      | .fault halt => (noteHalt offset (some halt) replay, s)
      | .item (_, .entry entry consumed) _ =>
          loop crc32 callback fuel (offset + consumed) (remaining.drop consumed)
            ((replay.noteResult offset (callback entry s).1).countEntry consumed)
            (callback entry s).2
      | .item (_, .skip e len) _ =>
          loop crc32 callback fuel (offset + len) (remaining.drop len)
            (replay.pushError offset e) s := by
  rw [loop, found, List.isEmpty_eq_false_iff.mpr h, if_neg Bool.false_ne_true]
  split
  · split
    · rfl
    · rfl
  rcases WalEntry.deserialize crc32 remaining with e | ⟨entry, consumed⟩
  swap
  · rfl
  -- every error but `TooShort` skips by the length in the header, if that stays in the file
  have hskip : ∀ e : WalError,
      (if (Bytes.u32At remaining 0).toNat > 0 ∧
          (Bytes.u32At remaining 0).toNat < remaining.length then
        loop crc32 callback fuel (offset + (Bytes.u32At remaining 0).toNat)
          (remaining.drop (Bytes.u32At remaining 0).toNat) (replay.pushError offset e) s
      else (replay.pushError offset e, s)) =
      match (if skipLen remaining > 0 ∧ skipLen remaining < remaining.length then
          .item (offset, .skip e (skipLen remaining)) (offset + skipLen remaining)
        else .fault (.noted e) : Found Halt (ℕ × Round)) with
      | .finish => (replay, s)
      | .fault halt => (noteHalt offset (some halt) replay, s)
      | .item (_, .entry entry consumed) _ =>
          loop crc32 callback fuel (offset + consumed) (remaining.drop consumed)
            ((replay.noteResult offset (callback entry s).1).countEntry consumed)
            (callback entry s).2
      | .item (_, .skip e len) _ =>
          loop crc32 callback fuel (offset + len) (remaining.drop len)
            (replay.pushError offset e) s := by
    intro e
    rw [← skipLen]
    split
    · rfl
    · rfl
  cases e with
  | tooShort =>
      dsimp only
      split
      · rfl
      · rfl
  | invalidLength len => exact hskip _
  | invalidType type => exact hskip _
  | crcMismatch stored computed => exact hskip _
  | ioError msg => exact hskip _

/-- **The loop is the walk**: its rounds one after the other, and the error noted at the end. -/
lemma loop_eq_walk (hwalk : Found.walk (look crc32 file) looks offset = some w)
    (hfuel : file.length ≤ offset + fuel) (hoffset : offset ≤ file.length) :
    loop crc32 callback fuel offset (file.drop offset) replay s =
      ((noteHalt w.stop w.fault (runRounds callback w.items replay s).1),
        (runRounds callback w.items replay s).2) := by
  induction looks generalizing offset fuel replay s w with
  | zero => exact absurd hwalk (by simp [Found.walk])
  | succ looks ih =>
      by_cases hlt : offset < file.length
      swap
      · -- The end of the file.
        have hlook : look crc32 file offset = .finish := by rw [look, if_neg hlt]
        have hnil : file.drop offset = [] := List.drop_eq_nil_of_le (by omega)
        rw [Found.walk, hlook] at hwalk
        rw [← Option.some.inj hwalk, hnil]
        rcases fuel with _ | fuel
        · rfl
        · rfl
      rcases fuel with _ | fuel
      · omega
      have hne : file.drop offset ≠ [] := by
        intro hnil
        rw [List.drop_eq_nil_iff] at hnil
        omega
      have hlook := @look_of_lt crc32 _ _ hlt
      rw [loop_succ hne]
      rcases found_cases crc32 offset (file.drop offset) with
        (hend | ⟨e, hend⟩) | ⟨entry, consumed, -, hitem⟩ | ⟨e, -, -, -, hitem⟩
      · rw [hend] at hlook ⊢
        rw [Found.walk, hlook] at hwalk
        rw [← Option.some.inj hwalk]
        rfl
      · rw [hend] at hlook ⊢
        rw [Found.walk, hlook] at hwalk
        rw [← Option.some.inj hwalk]
        rfl
      · rw [hitem] at hlook ⊢
        obtain ⟨-, -, hpos, hle, -⟩ := look_item hlook
        obtain ⟨rest, hrest, rfl⟩ := Found.walk_of_item hlook hwalk
        dsimp only [Round.len] at hpos ⊢
        -- the walk goes on behind the round, and so does the loop
        rw [List.drop_drop, ih hrest (by omega) hle]
        rfl
      · rw [hitem] at hlook ⊢
        obtain ⟨-, -, hpos, hle, -⟩ := look_item hlook
        obtain ⟨rest, hrest, rfl⟩ := Found.walk_of_item hlook hwalk
        dsimp only [Round.len] at hpos ⊢
        rw [List.drop_drop, ih hrest (by omega) hle]
        rfl

/-- What some rounds leave: the callback over the entries handed over, and what these add to the
counters. -/
lemma runRounds_deliveries (rounds : List (ℕ × Round)) (replay : WalReplay) (s : σ) :
    (runRounds callback rounds replay s).2 =
        (deliveries rounds).foldl (fun s d => (callback d.entry s).2) s ∧
      (runRounds callback rounds replay s).1.entriesRead =
        replay.entriesRead + (deliveries rounds).length ∧
      (runRounds callback rounds replay s).1.bytesRead =
        replay.bytesRead + ((deliveries rounds).map Delivery.consumed).sum := by
  induction rounds generalizing replay s with
  | nil => exact ⟨rfl, rfl, rfl⟩
  | cons round rounds ih =>
      obtain ⟨offset, entry | ⟨e, len⟩⟩ := round
      · rename_i consumed
        obtain ⟨hstate, hentries, hbytes⟩ :=
          ih ((replay.noteResult offset (callback entry s).1).countEntry consumed)
            (callback entry s).2
        refine ⟨hstate, hentries.trans ?_, hbytes.trans ?_⟩
        · show (replay.noteResult offset (callback entry s).1).entriesRead + 1 +
            (deliveries rounds).length = replay.entriesRead + ((deliveries rounds).length + 1)
          rw [entriesRead_noteResult]
          omega
        · show (replay.noteResult offset (callback entry s).1).bytesRead + consumed +
            ((deliveries rounds).map Delivery.consumed).sum =
              replay.bytesRead + (consumed + ((deliveries rounds).map Delivery.consumed).sum)
          rw [bytesRead_noteResult]
          omega
      · exact ih (replay.pushError offset e) s

lemma noteHalt_counters (stop : ℕ) (halt : Option Halt) (replay : WalReplay) :
    (noteHalt stop halt replay).entriesRead = replay.entriesRead ∧
      (noteHalt stop halt replay).bytesRead = replay.bytesRead := by
  rcases halt with _ | e | message
  · exact ⟨rfl, rfl⟩
  · exact ⟨rfl, rfl⟩
  · exact ⟨rfl, rfl⟩

lemma replay_eq_scan (h : scan crc32 file = some w) (s : σ) :
    (WalReplay.replay crc32 callback file s).2 =
        (deliveries w.items).foldl (fun s d => (callback d.entry s).2) s ∧
      (WalReplay.replay crc32 callback file s).1.entriesRead = (deliveries w.items).length ∧
      (WalReplay.replay crc32 callback file s).1.bytesRead =
        ((deliveries w.items).map Delivery.consumed).sum := by
  have hloop := @loop_eq_walk crc32 file 0 σ callback new s file.length _ w h (by omega)
    (Nat.zero_le _)
  obtain ⟨hstate, hentries, hbytes⟩ := @runRounds_deliveries σ callback w.items new s
  obtain ⟨hentries', hbytes'⟩ :=
    noteHalt_counters w.stop w.fault (runRounds callback w.items new s).1
  rw [List.drop_zero] at hloop
  rw [WalReplay.replay, hloop]
  refine ⟨hstate, ?_, ?_⟩
  · exact (hentries'.trans hentries).trans (Nat.zero_add _)
  · exact (hbytes'.trans hbytes).trans (Nat.zero_add _)

end Rounds

lemma mem_deliveries {rounds : List (ℕ × Round)} {d : Delivery} :
    d ∈ deliveries rounds ↔ (d.offset, .entry d.entry d.consumed) ∈ rounds := by
  rw [deliveries, List.mem_filterMap]
  constructor
  · rintro ⟨⟨offset, entry | ⟨e, len⟩⟩, hmem, hsome⟩
    · obtain rfl := Option.some.inj hsome
      exact hmem
    · exact absurd hsome (by simp)
  · exact fun hmem => ⟨_, hmem, rfl⟩

/-- Entries handed over are as far apart as their rounds. -/
lemma pairwise_deliveries {rounds : List (ℕ × Round)}
    (h : rounds.Pairwise (fun a b => a.1 + a.2.len ≤ b.1)) :
    (deliveries rounds).Pairwise (fun d d' => d.offset + d.consumed ≤ d'.offset) := by
  rw [deliveries, List.pairwise_filterMap]
  refine h.imp ?_
  rintro ⟨offset, entry | ⟨e, len⟩⟩ ⟨offset', entry' | ⟨e', len'⟩⟩ hle d hd d' hd'
  · obtain rfl := Option.some.inj hd
    obtain rfl := Option.some.inj hd'
    exact hle
  · exact absurd hd' (by simp)
  · exact absurd hd (by simp)
  · exact absurd hd (by simp)

lemma sum_deliveries_le (rounds : List (ℕ × Round)) :
    ((deliveries rounds).map Delivery.consumed).sum ≤ (rounds.map (fun a => a.2.len)).sum := by
  induction rounds with
  | nil => exact Nat.le_refl _
  | cons round rounds ih =>
      obtain ⟨offset, entry | ⟨e, len⟩⟩ := round
      · exact Nat.add_le_add_left ih _
      · exact ih.trans (Nat.le_add_left _ _)

lemma scan_ends (crc32 : Bytes → UInt32) (file : Bytes) :
    ∃ w, scan crc32 file = some w ∧ w.stop ≤ file.length ∧
      ∀ message, w.fault ≠ some (.panic message) := by
  have hrounds : file.length < 0 + (file.length + 1) := by omega
  obtain ⟨w, hwalk, hstop, -, hend⟩ :=
    Found.walk_ends (look_advances crc32 file) (Nat.zero_le _) hrounds
  refine ⟨w, hwalk, hstop, fun message hfault => ?_⟩
  rw [hfault] at hend
  exact look_ne_panic message hend

/-- **Replay is safe on every file.**  The loop ends, without an access out of bounds, at offsets
that go up and stay within the file.  What is handed to the callback are the records found at some
of these offsets, each whole, with its checksum and a known type, none overlapping another, and
`bytes_read` is the sum of their lengths. -/
theorem replay_safe (crc32 : Bytes → UInt32) (file : Bytes) :
    ∃ w, scan crc32 file = some w ∧
      (∀ message, w.fault ≠ some (.panic message)) ∧
      (w.items.map Prod.fst).Pairwise (· < ·) ∧
      (∀ a ∈ w.items, a.1 < w.stop) ∧ w.stop ≤ file.length ∧
      (∀ d ∈ deliveries w.items, d.offset + d.consumed ≤ file.length ∧
        d.consumed = d.entry.serializedLen ∧
        WalEntry.IsRecord crc32 ((file.drop d.offset).take d.consumed) d.entry) ∧
      (deliveries w.items).Pairwise (fun d d' => d.offset + d.consumed ≤ d'.offset) ∧
      ∀ (σ : Type) (callback : WalEntry → Fallible σ WalError Unit) (s : σ),
        (replay crc32 callback file s).2 =
            (deliveries w.items).foldl (fun s d => (callback d.entry s).2) s ∧
          (replay crc32 callback file s).1.entriesRead = (deliveries w.items).length ∧
          (replay crc32 callback file s).1.bytesRead =
            ((deliveries w.items).map Delivery.consumed).sum ∧
          (replay crc32 callback file s).1.bytesRead ≤ file.length := by
  obtain ⟨w, hwalk, hstop, hsafe⟩ := scan_ends crc32 file
  -- one look gives a piece that starts where it looks and ends where the next begins
  have hspan : ∀ (pos : ℕ) (a : ℕ × Round) (behind : ℕ),
      look crc32 file pos = .item a behind → a.1 = pos ∧ behind = pos + a.2.len := by
    intro pos a behind hlook
    obtain ⟨hoffset, hbehind, -⟩ := look_item hlook
    exact ⟨hoffset, hbehind⟩
  obtain ⟨hpairs, hwithin, hsum⟩ := Found.walk_spans hspan hwalk
  have hitem : ∀ a ∈ w.items, 0 < a.2.len ∧ ∀ entry consumed, a.2 = .entry entry consumed →
      WalEntry.deserialize crc32 (file.drop a.1) = .ok (entry, consumed) := by
    intro a ha
    obtain ⟨place, behind, -, hlook⟩ := Found.exists_look_of_mem hwalk ha
    obtain ⟨rfl, -, hpos, -, hread⟩ := look_item hlook
    exact ⟨hpos, hread⟩
  refine ⟨w, hwalk, hsafe, ?_, ?_, hstop, ?_, pairwise_deliveries hpairs, ?_⟩
  · rw [List.pairwise_map]
    refine hpairs.imp_of_mem (fun ha _ hle => ?_)
    have hpos := (hitem _ ha).1
    omega
  · intro a ha
    have hpos := (hitem a ha).1
    have hle := (hwithin a ha).2
    omega
  · -- a delivery is a record found at its offset
    intro d hd
    have hmem := mem_deliveries.mp hd
    have hread := (hitem _ hmem).2 d.entry d.consumed rfl
    obtain ⟨hconsumed, -, -⟩ := WalEntry.consumed_of_deserialize hread
    exact ⟨(hwithin _ hmem).2.trans hstop, hconsumed, WalEntry.isRecord_of_deserialize hread⟩
  · intro σ callback s
    obtain ⟨hstate, hentries, hbytes⟩ := @replay_eq_scan crc32 file σ callback w hwalk s
    refine ⟨hstate, hentries, hbytes, ?_⟩
    rw [hbytes]
    have hle := sum_deliveries_le w.items
    omega

end WalReplay

end ExchangeCore
