import ExchangeCore.Framework.Bytes

/-!
# Zero-filled files

A file that is extended to its full length before anything is written into it reads as zeros
wherever nothing has been written.  An `Image` keeps the bytes up to the last one written and the
length; the rest is implicit.  Writing at the end of the written bytes appends to them
(`write_data`), and a read either falls into them (`slice_of_le`) or is all zeros
(`slice_of_length_le`).
-/

namespace ExchangeCore

/-- A file of `len` bytes that starts with `data` and is zero from there on. -/
structure Image where
  len : ℕ
  data : Bytes
  data_le : data.length ≤ len
  deriving DecidableEq, Repr

namespace Image

/-- A file of zeros. -/
def zeroed (len : ℕ) : Image := ⟨len, [], Nat.zero_le len⟩

/-- The `k` bytes at an offset. -/
def slice (img : Image) (offset k : ℕ) : Bytes := ((img.data.drop offset).take k).rightpad k 0

/-- The `k` bytes at an offset, unless the file ends before. -/
def readExact (img : Image) (offset k : ℕ) : Option Bytes :=
  if offset + k ≤ img.len then some (img.slice offset k) else none

/-- The `u32` at an offset. -/
def u32At (img : Image) (offset : ℕ) : UInt32 :=
  UInt32.ofNat (Bytes.toNatLe (img.slice offset 4))

/-- Overwrite the bytes at an offset. -/
def write (img : Image) (offset : ℕ) (bs : Bytes) (h : offset + bs.length ≤ img.len) : Image where
  len := img.len
  data := (img.data.take offset).rightpad offset 0 ++ bs ++ img.data.drop (offset + bs.length)
  data_le := by
    have := img.data_le
    simp only [List.rightpad, List.length_append, List.length_take, List.length_replicate,
      List.length_drop]
    omega

/-- All bytes of the file. -/
def bytes (img : Image) : Bytes := img.slice 0 img.len

/-- Extend the file to a length, unless it is longer already. -/
def extend (img : Image) (len : ℕ) : Image where
  len := max img.len len
  data := img.data
  data_le := Nat.le_trans img.data_le (Nat.le_max_left _ _)

/-- Overwrite the bytes at an offset; the file grows if they reach past its end. -/
def overwrite (img : Image) (offset : ℕ) (bs : Bytes) : Image :=
  (img.extend (offset + bs.length)).write offset bs (Nat.le_max_right _ _)

variable {img : Image} {offset k : ℕ} {bs : Bytes}

@[simp] lemma write_len (h : offset + bs.length ≤ img.len) :
    (img.write offset bs h).len = img.len :=
  rfl

/-- Writing at the end appends. -/
lemma write_data (hoffset : offset = img.data.length) (h : offset + bs.length ≤ img.len) :
    (img.write offset bs h).data = img.data ++ bs := by
  subst hoffset
  simp [write, List.rightpad]

@[simp] lemma length_slice (img : Image) (offset k : ℕ) : (img.slice offset k).length = k := by
  simp only [slice, List.rightpad, List.length_append, List.length_replicate, List.length_take,
    List.length_drop]
  omega

/-- A read that falls into the written bytes. -/
lemma slice_of_le (h : offset + k ≤ img.data.length) :
    img.slice offset k = (img.data.drop offset).take k := by
  have hlen : ((img.data.drop offset).take k).length = k := by
    rw [List.length_take, List.length_drop]
    omega
  rw [slice, List.rightpad, hlen, Nat.sub_self, List.replicate_zero, List.append_nil]

/-- A read behind the written bytes. -/
lemma slice_of_length_le (h : img.data.length ≤ offset) :
    img.slice offset k = List.replicate k 0 := by
  rw [slice, List.drop_eq_nil_of_le h]
  simp [List.rightpad]

/-- The bytes behind a part of known length. -/
lemma slice_of_eq_append {x y z : Bytes} (hdata : img.data = x ++ y ++ z) (hx : x.length = offset)
    (hy : y.length = k) : img.slice offset k = y := by
  have hle : offset + k ≤ img.data.length := by
    rw [hdata, List.length_append, List.length_append]
    omega
  rw [slice_of_le hle, hdata, List.append_assoc, List.drop_append_of_le_length (by omega),
    List.drop_eq_nil_of_le (by omega), List.nil_append, ← hy, List.take_left]

lemma getElem?_slice (img : Image) (offset k i : ℕ) :
    (img.slice offset k)[i]? = if i < k then some (img.data.getD (offset + i) 0) else none := by
  split
  · rename_i hi
    by_cases hdata : offset + i < img.data.length
    · have hlt : i < ((img.data.drop offset).take k).length := by
        rw [List.length_take, List.length_drop]
        omega
      rw [slice, List.rightpad, List.getElem?_append_left hlt, List.getElem?_take_of_lt hi,
        List.getElem?_drop, List.getD_eq_getElem?_getD, List.getElem?_eq_getElem hdata]
      rfl
    · have hle : ((img.data.drop offset).take k).length ≤ i := by
        rw [List.length_take, List.length_drop]
        omega
      rw [slice, List.rightpad, List.getElem?_append_right hle,
        List.getElem?_replicate_of_lt (by omega),
        List.getD_eq_getElem?_getD, List.getElem?_eq_none (by omega)]
      rfl
  · rename_i hi
    exact List.getElem?_eq_none (by rw [length_slice]; omega)

/-- Consecutive reads read the concatenation. -/
lemma slice_append (img : Image) (offset k l : ℕ) :
    img.slice offset k ++ img.slice (offset + k) l = img.slice offset (k + l) := by
  refine List.ext_getElem? (fun i => ?_)
  by_cases hi : i < k
  · rw [List.getElem?_append_left (by rwa [length_slice]), getElem?_slice, getElem?_slice,
      if_pos hi, if_pos (by omega)]
  · have hsum : offset + k + (i - k) = offset + i := by omega
    have hiff : i - k < l ↔ i < k + l := by omega
    rw [List.getElem?_append_right (by rw [length_slice]; omega), length_slice, getElem?_slice,
      getElem?_slice, hsum, if_congr hiff rfl rfl]

/-- The written bytes, read from the start. -/
lemma slice_data (img : Image) : img.slice 0 img.data.length = img.data := by
  rw [slice_of_le (by omega), List.drop_zero, List.take_length]

lemma u32At_of_length_le (h : img.data.length ≤ offset) : img.u32At offset = 0 := by
  rw [u32At, slice_of_length_le h]
  rfl

/-! ## The whole file -/

@[simp] lemma length_bytes (img : Image) : img.bytes.length = img.len := length_slice _ _ _

/-- A file is what has been written and zeros behind it. -/
lemma bytes_eq (img : Image) :
    img.bytes = img.data ++ List.replicate (img.len - img.data.length) 0 := by
  have hle := img.data_le
  rw [bytes, slice, List.drop_zero, List.take_of_length_le hle, List.rightpad]

@[simp] lemma bytes_zeroed (len : ℕ) : (zeroed len).bytes = List.replicate len 0 := bytes_eq _

lemma bytes_extend (img : Image) (len : ℕ) :
    (img.extend len).bytes = img.bytes ++ List.replicate (len - img.len) 0 := by
  have hle := img.data_le
  rw [bytes_eq, bytes_eq, List.append_assoc, List.replicate_append_replicate]
  show img.data ++ List.replicate (max img.len len - img.data.length) 0 = _
  congr 2
  omega

lemma slice_to_end (h : offset ≤ img.len) :
    img.slice offset (img.len - offset) =
      img.data.drop offset ++ List.replicate (img.len - offset - (img.data.length - offset)) 0 := by
  have hle := img.data_le
  have hlen : (img.data.drop offset).length ≤ img.len - offset := by
    rw [List.length_drop]
    omega
  rw [slice, List.take_of_length_le hlen, List.rightpad, List.length_drop]

/-- Writing over what stands behind a part of known length. -/
lemma bytes_overwrite {x y : Bytes} (hbytes : img.bytes = x ++ y) (hx : x.length = offset)
    (bs : Bytes) : (img.overwrite offset bs).bytes = x ++ bs ++ y.drop bs.length := by
  have hle := img.data_le
  have hlen : img.len = offset + y.length := by
    rw [← length_bytes, hbytes, List.length_append, hx]
  have hy : img.len - offset = y.length := by omega
  have hsplit : img.slice 0 offset ++ img.slice offset (img.len - offset) = x ++ y := by
    have happend := slice_append img 0 offset (img.len - offset)
    rwa [Nat.zero_add, Nat.add_sub_cancel' (by omega), ← bytes, hbytes] at happend
  obtain ⟨hfirst, hrest⟩ := List.append_inj hsplit (by rw [length_slice, hx])
  have hdata : (img.overwrite offset bs).data = x ++ bs ++ img.data.drop (offset + bs.length) := by
    show (img.data.take offset).rightpad offset 0 ++ bs ++ _ = _
    rw [← hfirst, slice, List.drop_zero]
    rfl
  have hlen' : (img.overwrite offset bs).len = max img.len (offset + bs.length) := rfl
  rw [bytes_eq, hdata, hlen', List.append_assoc (x ++ bs)]
  congr 1
  by_cases hfits : bs.length ≤ y.length
  · have hdrop : y.drop bs.length =
        img.slice (offset + bs.length) (img.len - (offset + bs.length)) := by
      have happend := slice_append img offset bs.length (img.len - (offset + bs.length))
      rw [show bs.length + (img.len - (offset + bs.length)) = img.len - offset by omega, hrest]
        at happend
      rw [← happend, List.drop_left' (length_slice _ _ _)]
    rw [hdrop, slice_to_end (by omega)]
    congr 2
    simp only [List.length_append, List.length_drop]
    omega
  · rw [List.drop_eq_nil_of_le (by omega), List.drop_eq_nil_of_le (by omega), List.append_nil,
      List.nil_append, List.length_append, hx]
    rw [show max img.len (offset + bs.length) - (offset + bs.length) = 0 by omega,
      List.replicate_zero]

end Image

end ExchangeCore
