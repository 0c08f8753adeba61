import ExchangeCore.Framework.Image

/-!
# Blocks that start with their length

A reader that finds its way through a file by lengths takes it for a sequence of blocks, each a
fixed number of bytes longer than the number in its first four bytes, until a zero, or a length that
reaches past the end, stops it.  `skip` is that loop.

Where it stops is the end of the written bytes exactly if these split into such blocks
(`skip_eq_length_iff`).  No assumption is made about what wrote them: the blocks of the reader need
not be the records of the writer.
-/

namespace ExchangeCore

namespace Blocks

/-- A block: the number in its first four bytes is not zero, and the block is so much longer. -/
def IsBlock (overhead : ℕ) (block : Bytes) : Prop :=
  Bytes.u32At block 0 ≠ 0 ∧ block.length = overhead + (Bytes.u32At block 0).toNat

/-- The bytes are a sequence of such blocks. -/
def Splits (overhead : ℕ) (bs : Bytes) : Prop :=
  ∃ blocks : List Bytes, bs = blocks.flatten ∧ ∀ block ∈ blocks, IsBlock overhead block

/-- Pass over the blocks from a position on, in at most so many steps. -/
def skip (overhead : ℕ) (file : Image) : ℕ → ℕ → ℕ
  | 0, pos => pos
  | fuel + 1, pos =>
      if pos + 4 ≤ file.len then
        let len := (file.u32At pos).toNat
        if len = 0 then pos
        else if pos + (overhead + len) > file.len then pos
        else skip overhead file fuel (pos + (overhead + len))
      else pos

variable {overhead : ℕ} {file : Image} {fuel pos : ℕ} {bs : Bytes}

/-! ## Blocks -/

lemma length_le_length_flatten {blocks : List Bytes} (h : ∀ block ∈ blocks, IsBlock overhead block)
    (hoverhead : 4 ≤ overhead) : blocks.length ≤ blocks.flatten.length := by
  induction blocks with
  | nil => exact Nat.le_refl 0
  | cons block blocks ih =>
      rw [List.forall_mem_cons] at h
      have hblock := h.1.2
      have hrest := ih h.2
      rw [List.flatten_cons, List.length_append, List.length_cons]
      omega

/-! ## The loop -/

lemma u32At_slice (file : Image) (pos : ℕ) {k : ℕ} (h : 4 ≤ k) :
    Bytes.u32At (file.slice pos k) 0 = file.u32At pos := by
  obtain ⟨l, rfl⟩ := Nat.exists_eq_add_of_le h
  rw [← Image.slice_append, Bytes.u32At, List.drop_zero,
    List.take_append_of_le_length (Image.length_slice _ _ _).ge,
    List.take_of_length_le (Image.length_slice _ _ _).le, Image.u32At]

/-- A number that is not zero starts a block. -/
lemma isBlock_slice (hoverhead : 4 ≤ overhead) (h : file.u32At pos ≠ 0) :
    IsBlock overhead (file.slice pos (overhead + (file.u32At pos).toNat)) := by
  rw [IsBlock, u32At_slice file pos (by omega), Image.length_slice]
  exact ⟨h, rfl⟩

lemma IsBlock.of_slice {block rest : Bytes} (h : IsBlock overhead block) (hoverhead : 4 ≤ overhead)
    (hslice : file.slice pos (block ++ rest).length = block ++ rest) :
    file.u32At pos ≠ 0 ∧ block.length = overhead + (file.u32At pos).toNat ∧
      file.slice pos block.length = block ∧
        file.slice (pos + block.length) rest.length = rest := by
  obtain ⟨hne, hlength⟩ := h
  rw [List.length_append, ← Image.slice_append] at hslice
  obtain ⟨hblock, hrest⟩ := List.append_inj hslice (Image.length_slice _ _ _)
  have hnumber : Bytes.u32At block 0 = file.u32At pos := by
    rw [← hblock, u32At_slice file pos (by omega)]
  rw [hnumber] at hne hlength
  exact ⟨hne, hlength, hblock, hrest⟩

lemma passes_nothing (overhead : ℕ) (file : Image) (pos : ℕ) :
    ∃ blocks : List Bytes, (∀ block ∈ blocks, IsBlock overhead block) ∧
      file.slice pos blocks.flatten.length = blocks.flatten ∧
        pos = pos + blocks.flatten.length := by
  refine ⟨[], fun _ hblock => absurd hblock List.not_mem_nil, ?_, rfl⟩
  exact List.eq_nil_of_length_eq_zero (Image.length_slice _ _ _)

/-- What the loop passes over are blocks. -/
lemma skip_sound (hoverhead : 4 ≤ overhead) :
    ∃ blocks : List Bytes, (∀ block ∈ blocks, IsBlock overhead block) ∧
      file.slice pos blocks.flatten.length = blocks.flatten ∧
      skip overhead file fuel pos = pos + blocks.flatten.length := by
  induction fuel generalizing pos with
  | zero => exact passes_nothing overhead file pos
  | succ fuel ih =>
      rw [skip]
      dsimp only
      split
      · split
        · exact passes_nothing overhead file pos
        split
        · exact passes_nothing overhead file pos
        -- One block, and then what the rest of the loop passes over.
        rename_i hne _
        obtain ⟨blocks, hblocks, hslice, hpos⟩ := @ih (pos + (overhead + (file.u32At pos).toNat))
        have hfirst := isBlock_slice hoverhead (fun hzero => hne (by rw [hzero]; rfl))
        refine ⟨file.slice pos (overhead + (file.u32At pos).toNat) :: blocks,
          List.forall_mem_cons.mpr ⟨hfirst, hblocks⟩, ?_, ?_⟩
        · rw [List.flatten_cons, List.length_append, Image.length_slice, ← Image.slice_append,
            hslice]
        · rw [hpos, List.flatten_cons, List.length_append, Image.length_slice, Nat.add_assoc]
      · exact passes_nothing overhead file pos

/-- Over blocks that end with the written bytes, the loop stops behind them. -/
lemma skip_complete {blocks : List Bytes} (hblocks : ∀ block ∈ blocks, IsBlock overhead block)
    (hoverhead : 4 ≤ overhead) (hend : pos + blocks.flatten.length = file.data.length)
    (hslice : file.slice pos blocks.flatten.length = blocks.flatten)
    (hfuel : blocks.length ≤ fuel) : skip overhead file fuel pos = file.data.length := by
  induction blocks generalizing fuel pos with
  | nil =>
      have hpos : pos = file.data.length := hend
      cases fuel with
      | zero => exact hpos
      | succ fuel =>
          rw [skip, Image.u32At_of_length_le hpos.ge, ← hpos]
          dsimp only
          split <;> rfl
  | cons block blocks ih =>
      rw [List.forall_mem_cons] at hblocks
      obtain ⟨fuel, rfl⟩ := Nat.exists_eq_succ_of_ne_zero
        (Nat.ne_of_gt (Nat.lt_of_lt_of_le (Nat.succ_pos _) hfuel))
      rw [List.flatten_cons] at hend hslice
      obtain ⟨hne, hlength, -, htail⟩ := hblocks.1.of_slice hoverhead hslice
      rw [List.length_append] at hend
      have hpositive : (file.u32At pos).toNat ≠ 0 := fun hzero => hne (UInt32.toNat.inj hzero)
      have hle := file.data_le
      rw [skip, if_pos (by omega)]
      dsimp only
      rw [if_neg hpositive, if_neg (by omega), ← hlength]
      exact ih hblocks.2 (by omega) htail (Nat.le_of_succ_le_succ hfuel)

/-- **Where the loop stops.**  It stops at the end of the written bytes exactly if these split into
blocks. -/
theorem skip_eq_length_iff (hoverhead : 4 ≤ overhead) :
    skip overhead file file.len 0 = file.data.length ↔ Splits overhead file.data := by
  constructor
  · intro hstop
    obtain ⟨blocks, hblocks, hslice, hpos⟩ := @skip_sound overhead file file.len 0 hoverhead
    refine ⟨blocks, ?_, hblocks⟩
    rw [← hslice, ← Nat.zero_add blocks.flatten.length, ← hpos, hstop, Image.slice_data]
  · rintro ⟨blocks, hdata, hblocks⟩
    have hcount := length_le_length_flatten hblocks hoverhead
    have hle := file.data_le
    rw [hdata] at hle
    refine skip_complete hblocks hoverhead (by rw [hdata, Nat.zero_add]) ?_ (by omega)
    rw [← hdata, Image.slice_data]

end Blocks

end ExchangeCore
