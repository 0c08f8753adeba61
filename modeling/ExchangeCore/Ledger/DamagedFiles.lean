import ExchangeCore.Framework.Walk
import ExchangeCore.Ledger.WalSegment

/-!
# Reading damaged files

`WalIterator` and `WalSegment::open_existing` (`ledger.rs`) on a file of arbitrary contents.  Both
are walks through the file: the iterator, which the loop over it resumes after an error, and the
scan, whose items are the blocks it feeds to the digest.  Every item takes some room, so that both
end, within the file.

Both trust a length that is too small for them.  The iterator splits the sequence number off a
record without asking whether the record has eight bytes, and panics if its checksum is right
(`ShortRecord`); the scan leaves room for a header of eight bytes and then takes sixteen
(`WalSegment.Overruns`).  These are the only panics (`readers_panicFree_iff`).
-/

namespace ExchangeCore

open Relation

namespace WalIterator

variable {codec : LedgerCodec} {file : Image} {pos : ℕ}

/-- Where a call of `next` that has read a length leaves the reader: behind the length if it is too
large, behind the record if the file holds it, and at the end of the file otherwise, for
`read_exact` takes what is left. -/
def behind (file : Image) (pos : ℕ) : ℕ :=
  let payloadLen := (file.u32At pos).toNat
  if payloadLen > maxRecordSize then pos + 4 else min (pos + 8 + payloadLen) file.len

/-- What a loop over the iterator finds at a position.  An error is an item: the next call of `next`
goes on behind what this one has read. -/
def look (codec : LedgerCodec) (file : Image) (pos : ℕ) : Found String (Except String WalRecord) :=
  match next codec file pos with
  | .ok none => .finish
  | .ok (some (r, pos')) => .item (.ok r) pos'
  | .error (.error message) => .item (.error message) (behind file pos)
  | .error (.panic message) => .fault message

/-- The items of the iterator up to its end, in so many calls of `next`. -/
def iterate (codec : LedgerCodec) (file : Image) (calls : ℕ) :
    Option (Walked String (Except String WalRecord)) :=
  Found.walk (look codec file) calls 0

/-- The lengths in the file lead from one position to the next. -/
def Follows (file : Image) (pos pos' : ℕ) : Prop :=
  pos + 4 ≤ file.len ∧ file.u32At pos ≠ 0 ∧ pos' = behind file pos

/-- A record that is too short for its sequence number, with the right checksum. -/
def ShortAt (codec : LedgerCodec) (file : Image) (pos : ℕ) : Prop :=
  file.u32At pos ≠ 0 ∧ (file.u32At pos).toNat < 8 ∧
    pos + 8 + (file.u32At pos).toNat ≤ file.len ∧
    codec.crc32 (file.slice pos 4 ++ file.slice (pos + 8) (file.u32At pos).toNat) =
      file.u32At (pos + 4)

/-- The lengths in the file lead to such a record. -/
def ShortRecord (codec : LedgerCodec) (file : Image) : Prop :=
  ∃ pos, ReflTransGen (Follows file) 0 pos ∧ ShortAt codec file pos

/-- Everything a call of `next` can do: end the iteration, panic at a short record, or return an
item. -/
lemma look_cases (codec : LedgerCodec) (file : Image) (pos : ℕ) :
    look codec file pos = .finish ∧ ¬(pos + 4 ≤ file.len ∧ file.u32At pos ≠ 0) ∨
      look codec file pos = .fault "mid > len" ∧ pos + 4 ≤ file.len ∧ ShortAt codec file pos ∨
      (∃ item, look codec file pos = .item item (behind file pos)) ∧
        (pos + 4 ≤ file.len ∧ file.u32At pos ≠ 0) ∧ ¬ShortAt codec file pos := by
  by_cases hlen : pos + 4 ≤ file.len
  swap
  · refine .inl ⟨?_, fun h => hlen h.1⟩
    rw [look, next, Image.readExact, if_neg hlen]
  have hread : file.readExact pos 4 = some (file.slice pos 4) := by
    rw [Image.readExact, if_pos hlen]
  have hzero : file.u32At pos = 0 ↔ (file.u32At pos).toNat = 0 :=
    (UInt32.toNat_inj (b := 0)).symm
  rw [look, next, hread, behind, ShortAt, ne_eq, hzero]
  dsimp only
  rw [← Image.u32At]
  by_cases hlarge : (file.u32At pos).toNat > maxRecordSize
  · rw [if_pos hlarge, if_pos hlarge]
    have hmax : 8 ≤ maxRecordSize := by decide
    exact .inr (.inr ⟨⟨_, rfl⟩, ⟨hlen, by omega⟩, fun h => by omega⟩)
  rw [if_neg hlarge, if_neg hlarge]
  by_cases hempty : (file.u32At pos).toNat = 0
  · rw [if_pos hempty]
    exact .inl ⟨rfl, fun h => h.2 hempty⟩
  rw [if_neg hempty]
  by_cases hfits : pos + 8 + (file.u32At pos).toNat ≤ file.len
  swap
  · -- One of the two reads meets the end of the file.
    have hdata : file.readExact (pos + 8) (file.u32At pos).toNat = none := by
      rw [Image.readExact, if_neg hfits]
    rw [hdata]
    refine .inr (.inr ⟨⟨.error "failed to fill whole buffer", ?_⟩, ⟨hlen, hempty⟩,
      fun h => hfits h.2.2.1⟩)
    rw [Nat.min_eq_right (by omega)]
    rcases file.readExact (pos + 4) 4 with _ | crcBuf
    · rfl
    · rfl
  -- both reads are within the file: now the checksum decides
  have hcrc : file.readExact (pos + 4) 4 = some (file.slice (pos + 4) 4) := by
    rw [Image.readExact, if_pos (by omega)]
  have hdata : file.readExact (pos + 8) (file.u32At pos).toNat =
      some (file.slice (pos + 8) (file.u32At pos).toNat) := by
    rw [Image.readExact, if_pos hfits]
  rw [hcrc, hdata]
  dsimp only
  rw [← Image.u32At, Nat.min_eq_left hfits]
  by_cases hsum : codec.crc32 (file.slice pos 4 ++
      file.slice (pos + 8) (file.u32At pos).toNat) = file.u32At (pos + 4)
  swap
  · rw [if_pos hsum]
    exact .inr (.inr ⟨⟨_, rfl⟩, ⟨hlen, hempty⟩, fun h => hsum h.2.2.2⟩)
  rw [if_neg (not_not.mpr hsum)]
  -- the data has passed its checksum; `split_at(8)` panics if there is less than a number
  by_cases hshort : (file.u32At pos).toNat < 8
  · rw [if_pos hshort]
    exact .inr (.inl ⟨rfl, hlen, hempty, hshort, hfits, hsum⟩)
  rw [if_neg hshort]
  refine .inr (.inr ⟨?_, ⟨hlen, hempty⟩, fun h => hshort h.2.1⟩)
  rcases codec.deserialize ((file.slice (pos + 8) (file.u32At pos).toNat).drop 8) with e | cmd
  · exact ⟨_, rfl⟩
  · exact ⟨_, rfl⟩

/-- An item takes at least the four bytes of its length. -/
lemma behind_bounds (h : pos + 4 ≤ file.len) :
    pos < behind file pos ∧ behind file pos ≤ file.len := by
  rw [behind]
  split
  · omega
  · omega

lemma follows_of_leads {pos' : ℕ} (h : Found.Leads (look codec file) pos pos') :
    Follows file pos pos' := by
  obtain ⟨a, hlook⟩ := h
  rcases look_cases codec file pos with ⟨hend, -⟩ | ⟨hpanic, -⟩ | ⟨⟨item, hitem⟩, hhere, -⟩
  · rw [hend] at hlook
    exact absurd hlook (by simp)
  · rw [hpanic] at hlook
    exact absurd hlook (by simp)
  · rw [hitem] at hlook
    exact ⟨hhere.1, hhere.2, (Found.item.inj hlook).2.symm⟩

lemma look_advances (codec : LedgerCodec) (file : Image) :
    Found.Advances (look codec file) file.len := by
  intro pos a pos' hpos hlook
  obtain ⟨hlen, -, rfl⟩ := follows_of_leads ⟨a, hlook⟩
  exact behind_bounds hlen

/-- Where the lengths lead, the items lead, unless a short record stops them before. -/
lemma leads_of_follows {pos' : ℕ} (h : ReflTransGen (Follows file) pos pos') :
    ReflTransGen (Found.Leads (look codec file)) pos pos' ∨
      ∃ short, ReflTransGen (Found.Leads (look codec file)) pos short ∧
        ShortAt codec file short := by
  induction h with
  | refl => exact .inl .refl
  | @tail mid _ _ hstep ih =>
      rcases ih with hleads | hshort
      · obtain ⟨hlen, hne, rfl⟩ := hstep
        rcases look_cases codec file mid with ⟨-, hnot⟩ | ⟨-, -, hat⟩ | ⟨hitem, -, -⟩
        · exact absurd ⟨hlen, hne⟩ hnot
        · exact .inr ⟨mid, hleads, hat⟩
        · exact .inl (hleads.tail hitem)
      · exact .inr hshort

/-- A position is faulty exactly if there is a short record. -/
lemma look_fault_iff : (∃ e, look codec file pos = .fault e) ↔ ShortAt codec file pos := by
  rcases look_cases codec file pos with ⟨hend, hnot⟩ | ⟨hpanic, -, hat⟩ | ⟨⟨item, hitem⟩, -, hnot⟩
  · rw [hend]
    refine iff_of_false (by simp) (fun hat => hnot ⟨?_, hat.1⟩)
    have hfits := hat.2.2.1
    omega
  · exact iff_of_true ⟨_, hpanic⟩ hat
  · rw [hitem]
    exact iff_of_false (by simp) hnot

/-- **The iterator ends**, within the file, and panics exactly if the lengths lead to a short
record. -/
lemma iterate_spec (codec : LedgerCodec) (file : Image) :
    ∃ w, iterate codec file (file.len + 1) = some w ∧ w.stop ≤ file.len ∧
      (w.fault = none ↔ ¬ShortRecord codec file) := by
  have hadvances := look_advances codec file
  have hcalls : file.len < 0 + (file.len + 1) := by omega
  obtain ⟨w, hwalk, hstop, -, -⟩ := Found.walk_ends hadvances (Nat.zero_le _) hcalls
  have hfaults := Found.walk_faults_iff hadvances (Nat.zero_le _) hcalls hwalk
  refine ⟨w, hwalk, hstop, ?_⟩
  rw [← not_iff_not, ← ne_eq, hfaults, not_not]
  constructor
  · rintro ⟨pos, e, hleads, hfault⟩
    exact ⟨pos, hleads.lift id (fun _ _ => follows_of_leads), look_fault_iff.mp ⟨e, hfault⟩⟩
  · rintro ⟨pos, hfollows, hat⟩
    rcases leads_of_follows hfollows with hleads | ⟨short, hleads, hshort⟩
    · obtain ⟨e, hfault⟩ := look_fault_iff.mpr hat
      exact ⟨pos, e, hleads, hfault⟩
    · obtain ⟨e, hfault⟩ := look_fault_iff.mpr hshort
      exact ⟨short, e, hleads, hfault⟩

end WalIterator

namespace WalSegment

variable {file : Image} {fuel cursor : ℕ} {md5Ctx : Bytes}

lemma scan_eq_walk {w : Walked String Bytes} (h : Found.walk (look file) fuel cursor = some w) :
    scan file fuel cursor md5Ctx =
      w.fault.elim (.ok (w.stop, md5Ctx ++ w.items.flatten))
        (fun message => .error (.panic message)) := by
  induction fuel generalizing cursor md5Ctx w with
  | zero => exact absurd h (by simp [Found.walk])
  | succ fuel ih =>
      rw [scan_eq_look]
      rcases hlook : look file cursor with _ | message | ⟨block, behind⟩
      · rw [Found.walk, hlook] at h
        obtain rfl := Option.some.inj h
        dsimp only [Option.elim]
        rw [List.flatten_nil, List.append_nil]
      · rw [Found.walk, hlook] at h
        obtain rfl := Option.some.inj h
        rfl
      · obtain ⟨rest, hrest, rfl⟩ := Found.walk_of_item hlook h
        dsimp only
        rw [ih hrest, List.flatten_cons, List.append_assoc]

/-- One more round makes no difference to the scan of a file that has a round for every byte. -/
lemma scan_succ (h : file.len ≤ cursor + fuel) :
    scan file (fuel + 1) cursor md5Ctx = scan file fuel cursor md5Ctx := by
  induction fuel generalizing cursor md5Ctx with
  | zero => rw [scan, scan, if_neg (by omega)]
  | succ fuel ih =>
      rw [scan, scan]
      dsimp only
      rw [ih (by omega)]

lemma scan_rounds {rounds : ℕ} (h : file.len ≤ rounds) :
    scan file rounds 0 [] = scan file file.len 0 [] := by
  induction rounds, h using Nat.le_induction with
  | base => rfl
  | succ rounds hle ih => rw [scan_succ (by omega), ih]

lemma look_advances (file : Image) : Found.Advances (look file) file.len := by
  intro cursor block behind hcursor hlook
  rcases look_cases file cursor with ⟨hend, -⟩ | ⟨hpanic, -⟩ | ⟨hitem, -, hfits⟩
  · rw [hend] at hlook
    exact absurd hlook (by simp)
  · rw [hpanic] at hlook
    exact absurd hlook (by simp)
  · rw [hitem] at hlook
    obtain ⟨-, rfl⟩ := Found.item.inj hlook
    omega

lemma leads_of_blocks {blocks : List Bytes} (hblocks : ∀ block ∈ blocks, IsBlock block)
    (hslice : file.slice cursor blocks.flatten.length = blocks.flatten)
    (hfits : cursor + blocks.flatten.length ≤ file.len) :
    ReflTransGen (Found.Leads (look file)) cursor (cursor + blocks.flatten.length) := by
  induction blocks generalizing cursor with
  | nil => exact .refl
  | cons block blocks ih =>
      rw [List.forall_mem_cons] at hblocks
      rw [List.flatten_cons] at hslice hfits ⊢
      rw [List.length_append] at hfits ⊢
      obtain ⟨hlook, htail⟩ := look_of_block hblocks.1 hslice (by omega)
      have hahead := ih hblocks.2 htail (by omega)
      rw [Nat.add_assoc] at hahead
      exact hahead.head ⟨block, hlook⟩

/-- **The scan ends**, within the file, and panics exactly if blocks lead to a length that overruns
the file. -/
lemma openExisting_spec (file : Image) :
    (∃ seg, openExisting file = .ok seg ∧ seg.cursor ≤ file.len) ↔ ¬Overruns file := by
  have hadvances := look_advances file
  have hrounds : file.len < 0 + (file.len + 1) := by omega
  obtain ⟨w, hwalk, hstop, -, -⟩ := Found.walk_ends hadvances (Nat.zero_le _) hrounds
  have hscan := @scan_eq_walk file _ _ [] w hwalk
  rw [scan_rounds (Nat.le_succ _)] at hscan
  constructor
  · rintro ⟨seg, hopen, -⟩ ⟨blocks, hblocks, hslice, hne, hroom, hpast⟩
    have hleads := leads_of_blocks hblocks hslice (by omega)
    rw [Nat.zero_add] at hleads
    rcases look_cases file blocks.flatten.length with ⟨-, hnot⟩ | ⟨hpanic, -⟩ | ⟨-, -, hfits⟩
    · exact hnot ⟨hne, hroom⟩
    · rw [Found.fault_of_leads hleads hpanic hwalk] at hscan
      rw [openExisting, hscan] at hopen
      exact absurd hopen (by simp [Except.map])
    · omega
  · intro hsafe
    obtain ⟨seg, hopen⟩ := openExisting_ok hsafe
    refine ⟨seg, hopen, ?_⟩
    rw [openExisting, hscan] at hopen
    rcases hfault : w.fault with _ | message
    · rw [hfault] at hopen
      rw [← Except.ok.inj hopen]
      exact hstop
    · rw [hfault] at hopen
      exact absurd hopen (by simp [Except.map])

/-- **Files that are read without a panic.**  Both readers end on every file, and within it.  The
iterator panics exactly if the lengths lead to a short record, `open_existing` exactly if they lead
to a length that overruns the file. -/
theorem readers_panicFree_iff (codec : LedgerCodec) (file : Image) :
    (∃ w, WalIterator.iterate codec file (file.len + 1) = some w ∧ w.stop ≤ file.len ∧
        (w.fault = none ↔ ¬WalIterator.ShortRecord codec file)) ∧
      (∀ rounds, file.len ≤ rounds → scan file rounds 0 [] = scan file file.len 0 []) ∧
      ((∃ seg, openExisting file = .ok seg ∧ seg.cursor ≤ file.len) ↔ ¬Overruns file) :=
  ⟨WalIterator.iterate_spec codec file, fun _ h => scan_rounds h, openExisting_spec file⟩

/-- A record of one byte, with its checksum. -/
def oneByte : Image := ⟨9, [1, 0, 0, 0, 173, 222, 66, 251, 0], Nat.le_refl 9⟩

theorem oneByte_panics :
    (¬∃ w, WalIterator.iterate (LedgerCodec.balances (fun _ => "")) oneByte (oneByte.len + 1) =
        some w ∧ w.fault = none) ∧
      ¬∃ seg, openExisting oneByte = .ok seg := by
  have hiterate : (WalIterator.iterate (LedgerCodec.balances (fun _ => "")) oneByte
      (oneByte.len + 1)).map Walked.fault = some (some "mid > len") := by
    decide +kernel
  have hopen : openExisting oneByte =
      .error (.panic "range end index out of range for slice") := by
    decide +kernel
  constructor
  · rintro ⟨w, hwalk, hfault⟩
    rw [hwalk, Option.map_some, hfault] at hiterate
    exact absurd hiterate (by simp)
  · rintro ⟨seg, hseg⟩
    exact absurd (hopen.symm.trans hseg) (by simp)

end WalSegment

end ExchangeCore
