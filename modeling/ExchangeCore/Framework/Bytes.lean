import Mathlib.Tactic.Common
import Mathlib.Tactic.Ring

/-!
# Byte strings

Fixed-width integers written least significant byte first, or most significant byte first, and the
one principle by which a concatenation of encodings can be taken apart again: two concatenations
agree part by part as soon as the first parts have the same length.
-/

namespace ExchangeCore

/-- A byte string. -/
abbrev Bytes := List UInt8

namespace Bytes

/-- The `k` low bytes of `n`, least significant first. -/
def ofNatLe : ℕ → ℕ → Bytes
  | 0, _ => []
  | k + 1, n => UInt8.ofNat n :: ofNatLe k (n / 256)

/-- `u32::to_le_bytes`. -/
def ofU32 (w : UInt32) : Bytes := ofNatLe 4 w.toNat

/-- `u64::to_le_bytes`. -/
def ofU64 (w : UInt64) : Bytes := ofNatLe 8 w.toNat

/-- `i64::to_le_bytes`: the two's complement bit pattern. -/
def ofI64 (i : Int64) : Bytes := ofU64 i.toUInt64

/-- `str::as_bytes`. -/
def ofStr (s : String) : Bytes := s.toUTF8.data.toList

@[simp] lemma length_ofNatLe (k n : ℕ) : (ofNatLe k n).length = k := by
  induction k generalizing n with
  | zero => rfl
  | succ k ih => simp [ofNatLe, ih]

@[simp] lemma length_ofU32 (w : UInt32) : (ofU32 w).length = 4 := length_ofNatLe 4 _

@[simp] lemma length_ofU64 (w : UInt64) : (ofU64 w).length = 8 := length_ofNatLe 8 _

@[simp] lemma length_ofI64 (i : Int64) : (ofI64 i).length = 8 := length_ofU64 _

@[simp] lemma length_ofStr (s : String) : (ofStr s).length = s.utf8ByteSize := by
  rw [ofStr, Array.length_toList]
  rfl

lemma ofNatLe_inj {k m n : ℕ} (hm : m < 256 ^ k) (hn : n < 256 ^ k)
    (h : ofNatLe k m = ofNatLe k n) : m = n := by
  induction k generalizing m n with
  | zero => simp only [pow_zero, Nat.lt_one_iff] at hm hn; omega
  | succ k ih =>
      simp only [ofNatLe, List.cons.injEq] at h
      rw [pow_succ] at hm hn
      have hlow : m % 256 = n % 256 := by
        simpa using congrArg UInt8.toNat h.1
      have hhigh : m / 256 = n / 256 := ih (by omega) (by omega) h.2
      omega

@[simp] lemma ofU32_inj {v w : UInt32} : ofU32 v = ofU32 w ↔ v = w := by
  refine ⟨fun h => ?_, congrArg ofU32⟩
  exact UInt32.toNat.inj (ofNatLe_inj v.toNat_lt w.toNat_lt h)

@[simp] lemma ofU64_inj {v w : UInt64} : ofU64 v = ofU64 w ↔ v = w := by
  refine ⟨fun h => ?_, congrArg ofU64⟩
  exact UInt64.toNat.inj (ofNatLe_inj v.toNat_lt w.toNat_lt h)

@[simp] lemma ofI64_inj {i j : Int64} : ofI64 i = ofI64 j ↔ i = j := by
  rw [ofI64, ofI64, ofU64_inj]
  refine ⟨fun h => ?_, congrArg Int64.toUInt64⟩
  rw [← Int64.toInt64_toUInt64 i, h, Int64.toInt64_toUInt64]

@[simp] lemma ofStr_inj {s t : String} : ofStr s = ofStr t ↔ s = t := by
  constructor
  · intro h
    have harr : s.toUTF8.data = t.toUTF8.data := Array.toList_inj.mp h
    have hbytes : s.toUTF8 = t.toUTF8 := ByteArray.ext harr
    exact String.toByteArray_inj.mp hbytes
  · rintro rfl
    rfl

/-- Text of one byte a character. -/
lemma ofStr_ofList {cs : List Char} (h : ∀ c ∈ cs, c.utf8Size = 1) :
    ofStr (String.ofList cs) = cs.map (fun c => c.val.toUInt8) := by
  have hencode : cs.flatMap String.utf8EncodeChar = cs.map (fun c => c.val.toUInt8) := by
    induction cs with
    | nil => rfl
    | cons c cs ih =>
        rw [List.flatMap_cons, List.map_cons, ih (fun c' hc' => h c' (List.mem_cons_of_mem c hc')),
          String.utf8EncodeChar_eq_singleton (h c List.mem_cons_self), List.singleton_append]
  rw [ofStr, String.toUTF8, String.toByteArray_ofList, List.utf8Encode, hencode,
    List.data_toByteArray]

/-! ## Reading -/

/-- The number written least significant byte first. -/
def toNatLe : Bytes → ℕ
  | [] => 0
  | b :: bs => b.toNat + 256 * toNatLe bs

/-- `u64::from_le_bytes`. -/
def toU64 (bs : Bytes) : UInt64 := UInt64.ofNat (toNatLe bs)

/-- The `u64` at an offset. -/
def u64At (bs : Bytes) (offset : ℕ) : UInt64 := toU64 ((bs.drop offset).take 8)

/-- The `u32` at an offset. -/
def u32At (bs : Bytes) (offset : ℕ) : UInt32 := UInt32.ofNat (toNatLe ((bs.drop offset).take 4))

/-- The byte at an offset. -/
def u8At (bs : Bytes) (offset : ℕ) : UInt8 := bs.getD offset 0

lemma toNatLe_ofNatLe {k n : ℕ} (hn : n < 256 ^ k) : toNatLe (ofNatLe k n) = n := by
  induction k generalizing n with
  | zero =>
      rw [pow_zero, Nat.lt_one_iff] at hn
      rw [hn]
      rfl
  | succ k ih =>
      rw [pow_succ] at hn
      rw [ofNatLe, toNatLe, ih (by omega), UInt8.toNat_ofNat']
      omega

lemma toNatLe_lt (bs : Bytes) : toNatLe bs < 256 ^ bs.length := by
  induction bs with
  | nil => exact Nat.one_pos
  | cons b bs ih =>
      have hb := b.toNat_lt
      rw [toNatLe, List.length_cons, pow_succ]
      omega

lemma ofNatLe_toNatLe (bs : Bytes) : ofNatLe bs.length (toNatLe bs) = bs := by
  induction bs with
  | nil => rfl
  | cons b bs ih =>
      have hb := b.toNat_lt
      have hlow : UInt8.ofNat (b.toNat + 256 * toNatLe bs) = b := by
        refine UInt8.toNat.inj ?_
        rw [UInt8.toNat_ofNat']
        omega
      have hhigh : (b.toNat + 256 * toNatLe bs) / 256 = toNatLe bs := by omega
      rw [List.length_cons, ofNatLe, toNatLe, hlow, hhigh, ih]

@[simp] lemma toU64_ofU64 (w : UInt64) : toU64 (ofU64 w) = w := by
  rw [toU64, ofU64, toNatLe_ofNatLe w.toNat_lt, UInt64.ofNat_toNat]

lemma toNatLe_ofU32 (w : UInt32) : UInt32.ofNat (toNatLe (ofU32 w)) = w := by
  rw [ofU32, toNatLe_ofNatLe w.toNat_lt, UInt32.ofNat_toNat]

lemma u32At_replicate_zero (len : ℕ) : u32At (List.replicate len 0) 0 = 0 := by
  have hzeros : ∀ k : ℕ, toNatLe (List.replicate k 0) = 0 := by
    intro k
    induction k with
    | zero => rfl
    | succ k ih => rw [List.replicate_succ, toNatLe, ih, UInt8.toNat_zero]
  rw [u32At, List.drop_zero, List.take_replicate, hzeros]
  rfl

/-! ## Fields of a record

A field is read at its offset: what is written behind it does not matter. -/

/-- A slice inside the first part. -/
lemma slice_append_of_le {x y : Bytes} {offset k : ℕ} (h : offset + k ≤ x.length) :
    ((x ++ y).drop offset).take k = (x.drop offset).take k := by
  rw [List.drop_append_of_le_length (by omega), List.take_append_of_le_length]
  rw [List.length_drop]
  omega

lemma slice_append_of_eq {x y : Bytes} {offset k : ℕ} (hx : x.length = offset)
    (hy : y.length = k) : ((x ++ y).drop offset).take k = y := by
  rw [← hx, List.drop_left, ← hy, List.take_length]

lemma u64At_append_of_le {x y : Bytes} {offset : ℕ} (h : offset + 8 ≤ x.length) :
    u64At (x ++ y) offset = u64At x offset := by
  rw [u64At, slice_append_of_le h, u64At]

lemma u32At_append_of_le {x y : Bytes} {offset : ℕ} (h : offset + 4 ≤ x.length) :
    u32At (x ++ y) offset = u32At x offset := by
  rw [u32At, slice_append_of_le h, u32At]

lemma u64At_append_ofU64 {x : Bytes} {offset : ℕ} (h : x.length = offset) (w : UInt64) :
    u64At (x ++ ofU64 w) offset = w := by
  rw [u64At, slice_append_of_eq h (length_ofU64 w), toU64_ofU64]

lemma u32At_append_ofU32 {x : Bytes} {offset : ℕ} (h : x.length = offset) (w : UInt32) :
    u32At (x ++ ofU32 w) offset = w := by
  rw [u32At, slice_append_of_eq h (length_ofU32 w), toNatLe_ofU32]

/-- A field with something before and something behind it. -/
lemma u64At_field (x y : Bytes) {offset : ℕ} (h : x.length = offset) (w : UInt64) :
    u64At (x ++ (ofU64 w ++ y)) offset = w := by
  rw [← List.append_assoc, u64At_append_of_le (by simp [h]), u64At_append_ofU64 h]

lemma u32At_field (x y : Bytes) {offset : ℕ} (h : x.length = offset) (w : UInt32) :
    u32At (x ++ (ofU32 w ++ y)) offset = w := by
  rw [← List.append_assoc, u32At_append_of_le (by simp [h]), u32At_append_ofU32 h]

lemma u64At_ofU64 (w : UInt64) : u64At (ofU64 w) 0 = w :=
  @u64At_append_ofU64 [] 0 rfl w

/-! ## Big-endian words -/

/-- `u32::to_be_bytes`. -/
def ofU32Be (w : UInt32) : Bytes := (ofU32 w).reverse

/-- The `u32` at an offset, most significant byte first. -/
def u32BeAt (bs : Bytes) (offset : ℕ) : UInt32 :=
  UInt32.ofNat (toNatLe ((bs.drop offset).take 4).reverse)

@[simp] lemma length_ofU32Be (w : UInt32) : (ofU32Be w).length = 4 := by
  rw [ofU32Be, List.length_reverse, length_ofU32]

lemma ofU32Be_eq (w : UInt32) : ofU32Be w =
    [UInt8.ofNat (w.toNat / 256 / 256 / 256), UInt8.ofNat (w.toNat / 256 / 256),
      UInt8.ofNat (w.toNat / 256), UInt8.ofNat w.toNat] := rfl

/-- A field with something before and something behind it. -/
lemma u32BeAt_field (x y : Bytes) {offset : ℕ} (h : x.length = offset) (w : UInt32) :
    u32BeAt (x ++ (ofU32Be w ++ y)) offset = w := by
  have hfield : ((x ++ (ofU32Be w ++ y)).drop offset).take 4 = ofU32Be w := by
    rw [← List.append_assoc, slice_append_of_le (by simp [h]),
      slice_append_of_eq h (length_ofU32Be w)]
  rw [u32BeAt, hfield, ofU32Be, List.reverse_reverse, toNatLe_ofU32]

/-- The bytes of the word that is read are those that stand there. -/
lemma ofU32Be_u32BeAt {bs : Bytes} {offset : ℕ} (h : offset + 4 ≤ bs.length) :
    ofU32Be (u32BeAt bs offset) = (bs.drop offset).take 4 := by
  have hlength : ((bs.drop offset).take 4).reverse.length = 4 := by
    rw [List.length_reverse, List.length_take, List.length_drop]
    omega
  have hword : (u32BeAt bs offset).toNat = toNatLe ((bs.drop offset).take 4).reverse := by
    rw [u32BeAt, UInt32.toNat_ofNat']
    refine Nat.mod_eq_of_lt ((toNatLe_lt _).trans_eq ?_)
    rw [hlength]
    rfl
  have hbytes := ofNatLe_toNatLe ((bs.drop offset).take 4).reverse
  rw [hlength] at hbytes
  rw [ofU32Be, ofU32, hword, hbytes, List.reverse_reverse]

/-! ## Concatenation -/

/-- Take a concatenation apart where the first parts have the same length. -/
lemma append_eq_append_iff_of_length {a b c d : Bytes} (h : a.length = b.length) :
    a ++ c = b ++ d ↔ a = b ∧ c = d := by
  constructor
  · exact fun heq => List.append_inj heq h
  · rintro ⟨rfl, rfl⟩
    rfl

section Concatenation

variable {α β : Type} {f : α → Bytes} {g : α → β}

/-- Concatenations of parts of pointwise equal length agree part by part: if parts of one length
agree exactly when `g` does, the concatenations agree exactly when `g` does throughout. -/
lemma flatMap_eq_flatMap_iff {xs ys : List α}
    (hlen : xs.map (fun x => (f x).length) = ys.map (fun y => (f y).length))
    (hpart : ∀ x y, (f x).length = (f y).length → (f x = f y ↔ g x = g y)) :
    xs.flatMap f = ys.flatMap f ↔ xs.map g = ys.map g := by
  induction xs generalizing ys with
  | nil =>
      obtain rfl : ys = [] := by simpa using hlen.symm
      simp
  | cons x xs ih =>
      cases ys with
      | nil => simp at hlen
      | cons y ys =>
          obtain ⟨hhead, htail⟩ := List.cons.inj hlen
          rw [List.flatMap_cons, List.flatMap_cons, append_eq_append_iff_of_length hhead,
            hpart x y hhead, ih htail, List.map_cons, List.map_cons, List.cons.injEq]

lemma length_flatMap_congr {xs ys : List α}
    (hlen : xs.map (fun x => (f x).length) = ys.map (fun y => (f y).length)) :
    (xs.flatMap f).length = (ys.flatMap f).length := by
  rw [List.length_flatMap, List.length_flatMap, hlen]

end Concatenation

end Bytes

end ExchangeCore
