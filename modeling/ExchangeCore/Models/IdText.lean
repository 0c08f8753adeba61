import ExchangeCore.Framework.Bytes
import ExchangeCore.Framework.Digits
import ExchangeCore.Framework.Fallible
import ExchangeCore.Framework.Word

/-!
# Ids as text

`to_str_base32` of both generators and `from_str_base32` (`fast_ulid.rs`): an id is cut at a bit
that is no multiple of five, and each part is written in base 32 and padded.

The text of a snowflake id is the id in base 32 all the same, since the lower part has 20 bits
(`toStrBase32_eq`): it is read back, and ids and texts have the same order (`base32_roundTrip`).
What is read has 65 bits, and the first of them is lost (`canonical_iff`).
-/

namespace ExchangeCore

/-! ## The alphabet -/

def alphabet : Bytes := Bytes.ofStr "0123456789ABCDEFGHJKMNPQRSTVWXYZ"

lemma length_alphabet : alphabet.length = 32 := by
  decide +kernel

/-- `ALPHABET[d]`. -/
def digitByte (d : Fin 32) : UInt8 := alphabet.get (d.cast length_alphabet.symm)

/-- `ALPHABET[d] as char`. -/
def digitChar (d : Fin 32) : Char := Char.ofNat (digitByte d).toNat

lemma digitChar_lt {d e : Fin 32} : d < e → digitChar d < digitChar e := by
  revert d e
  decide +kernel

lemma utf8_digitChar (d : Fin 32) :
    (digitChar d).utf8Size = 1 ∧ (digitChar d).val.toUInt8 = digitByte d := by
  revert d
  decide +kernel

lemma digitByte_injective : Function.Injective digitByte := by
  intro d e h
  have hchar : digitChar d = digitChar e := by rw [digitChar, digitChar, h]
  rcases Nat.lt_trichotomy d e with hlt | heq | hgt
  · exact absurd (hchar ▸ digitChar_lt hlt) (Char.lt_irrefl _)
  · exact Fin.ext heq
  · exact absurd (hchar ▸ digitChar_lt hgt) (Char.lt_irrefl _)

/-- The text of some digits. -/
def digitText (ds : List (Fin 32)) : String := String.ofList (ds.map digitChar)

lemma ofStr_digitText (ds : List (Fin 32)) : Bytes.ofStr (digitText ds) = ds.map digitByte := by
  have hascii : ∀ c ∈ ds.map digitChar, c.utf8Size = 1 := by
    intro c hc
    obtain ⟨d, -, rfl⟩ := List.mem_map.mp hc
    exact (utf8_digitChar d).1
  rw [digitText, Bytes.ofStr_ofList hascii, List.map_map]
  exact List.map_congr_left fun d _ => (utf8_digitChar d).2

lemma digitText_inj {ds es : List (Fin 32)} : digitText ds = digitText es ↔ ds = es := by
  rw [← Bytes.ofStr_inj, ofStr_digitText, ofStr_digitText]
  exact digitByte_injective.list_map.eq_iff

lemma digitText_lt {ds es : List (Fin 32)} (h : ds < es) : digitText ds < digitText es := by
  rw [String.lt_iff, digitText, digitText, String.toList_ofList, String.toList_ofList]
  exact List.map_lt (fun _ _ => digitChar_lt) h

/-! ## Writing -/

/-- The loop that writes the last `w` digits, from the last one to the first. -/
def writeBase32 : ℕ → UInt64 → List Char
  | 0, _ => []
  | w + 1, t => writeBase32 w (t / 32) ++ [digitChar (Fin.ofNat 32 (t % 32).toNat)]

def FastUlidHalfGen.toStrBase32 (val : UInt64) : String :=
  let ts := val >>> 16
  let rand := val &&& 0xFFFF
  String.ofList (writeBase32 10 ts ++ writeBase32 4 rand)

def SnowflakeGen.toStrBase32 (val : UInt64) : String :=
  let ts := val >>> 20
  let low := val &&& 0xFFFFF
  String.ofList (writeBase32 9 ts ++ writeBase32 4 low)

lemma writeBase32_eq (w : ℕ) (t : UInt64) :
    writeBase32 w t = (Digits.digits w t.toNat).map digitChar := by
  induction w generalizing t with
  | zero => rfl
  | succ w ih =>
      have hlast : Fin.ofNat 32 (t % 32).toNat = Fin.ofNat 32 t.toNat := by
        apply Fin.ext
        rw [Fin.val_ofNat, Fin.val_ofNat, UInt64.toNat_mod, show (32 : UInt64).toNat = 32 from rfl,
          Nat.mod_mod]
      rw [writeBase32, ih, Digits.digits, List.map_append, hlast, UInt64.toNat_div]
      rfl

/-! ## Reading -/

/-- The loop that fills `DECODE`. -/
def fillDecode (map : Vector Int8 256) : Vector Int8 256 :=
  (List.finRange 32).foldl
    (fun map i => map.set (digitByte i).toNat (Int8.ofNat i) (digitByte i).toNat_lt) map

/-- `DECODE`: the loop is run twice, with the same alphabet. -/
def decodeTable : Vector Int8 256 := fillDecode (fillDecode (Vector.replicate 256 (-1)))

/-- `DECODE[b]`. -/
def decode (b : UInt8) : Int8 :=
  have hlt : b.toNat < 256 := b.toNat_lt
  decodeTable[b.toNat]

/-- A loop that reads digits, with the index it has come to. -/
def readBase32 : ℕ → Bytes → UInt64 → Except String UInt64
  | _, [], acc => .ok acc
  | i, b :: bs, acc =>
      let val := decode b
      if val = -1 then .error s!"Invalid character at index {i}"
      else readBase32 (i + 1) bs ((acc <<< 5) ||| val.toInt64.toUInt64)

def SnowflakeGen.fromStrBase32 (s : String) : Except String UInt64 := do
  let bytes := Bytes.ofStr s
  if bytes.length ≠ 13 then .error s!"Invalid length: expected 13, got {bytes.length}"
  else
    let ts ← readBase32 0 (bytes.take 9) 0
    let low ← readBase32 9 (bytes.drop 9) 0
    .ok ((ts <<< 20) ||| low)

lemma decode_digitByte (d : Fin 32) :
    decode (digitByte d) ≠ -1 ∧ (decode (digitByte d)).toInt64.toUInt64.toNat = d := by
  revert d
  decide +kernel

/-- The loop leaves the other bytes alone. -/
lemma getElem_fillDecode (map : Vector Int8 256) {n : ℕ} (hn : n < 256)
    (h : ∀ d, (digitByte d).toNat ≠ n) : (fillDecode map)[n] = map[n] := by
  rw [fillDecode]
  generalize List.finRange 32 = ds
  induction ds generalizing map with
  | nil => rfl
  | cons d ds ih =>
      simp only [List.foldl_cons]
      rw [ih]
      exact Vector.getElem_set_ne _ hn (h d)

lemma exists_digitByte {b : UInt8} (h : decode b ≠ -1) : ∃ d, digitByte d = b := by
  by_contra hnone
  have hne : ∀ d, (digitByte d).toNat ≠ b.toNat :=
    fun d hd => hnone ⟨d, UInt8.toNat_inj.mp hd⟩
  refine h ?_
  rw [decode]
  simp only [decodeTable]
  rw [getElem_fillDecode _ b.toNat_lt hne, getElem_fillDecode _ b.toNat_lt hne,
    Vector.getElem_replicate]

/-- One digit more. -/
lemma toNat_shift_or {acc w : UInt64} {d : Fin 32} (hacc : acc.toNat * 32 + d < 2 ^ 64)
    (hw : w.toNat = d) : ((acc <<< 5) ||| w).toNat = acc.toNat * 32 + d := by
  have hshift : (acc <<< 5).toNat = 2 ^ 5 * acc.toNat := by
    rw [Word.toNat_shiftLeft_eq _ 5 5 rfl (by decide)]
    omega
  rw [UInt64.toNat_or, hshift, hw, ← Nat.two_pow_add_eq_or_of_lt d.isLt]
  ring

/-- **What a loop reads**: the digits of the bytes, if they are all of the alphabet. -/
lemma readBase32_eq_ok {i : ℕ} {bs : Bytes} {acc r : UInt64}
    (hfits : (acc.toNat + 1) * 32 ^ bs.length ≤ 2 ^ 64) :
    readBase32 i bs acc = .ok r ↔
      ∃ ds : List (Fin 32), bs = ds.map digitByte ∧
        r.toNat = acc.toNat * 32 ^ bs.length + Digits.value ds := by
  induction bs generalizing i acc with
  | nil =>
      rw [readBase32, Except.ok.injEq, List.length_nil, pow_zero, mul_one]
      constructor
      · rintro rfl
        exact ⟨[], rfl, rfl⟩
      · rintro ⟨ds, hds, hr⟩
        obtain rfl := List.map_eq_nil_iff.mp hds.symm
        exact UInt64.toNat_inj.mp hr.symm
  | cons b bs ih =>
      rw [List.length_cons, pow_succ'] at hfits ⊢
      by_cases hdigit : ∃ d, digitByte d = b
      · obtain ⟨d, rfl⟩ := hdigit
        obtain ⟨hvalid, hval⟩ := decode_digitByte d
        -- what is still to come fits behind the digit
        have hroom : (acc.toNat * 32 + d + 1) * 32 ^ bs.length ≤ 2 ^ 64 := by
          refine le_trans ?_ hfits
          rw [← mul_assoc]
          exact Nat.mul_le_mul_right _ (by omega)
        have hacc : acc.toNat * 32 + d < 2 ^ 64 :=
          (Nat.le_mul_of_pos_right _ (by positivity)).trans hroom
        have hnext := toNat_shift_or hacc hval
        rw [readBase32, if_neg hvalid, ih (by rwa [hnext]), hnext]
        constructor
        · rintro ⟨ds, rfl, hr⟩
          refine ⟨d :: ds, rfl, ?_⟩
          rw [hr, Digits.value_cons, List.length_map]
          ring
        · rintro ⟨ds, hds, hr⟩
          obtain ⟨e, ds, rfl, hbyte, rfl⟩ := List.map_eq_cons_iff.mp hds.symm
          obtain rfl := digitByte_injective hbyte
          refine ⟨ds, rfl, ?_⟩
          rw [hr, Digits.value_cons, List.length_map]
          ring
      · have hinvalid : decode b = -1 := by
          by_contra hvalid
          exact hdigit (exists_digitByte hvalid)
        rw [readBase32, if_pos hinvalid]
        refine iff_of_false (by simp) ?_
        rintro ⟨ds, hds, -⟩
        obtain ⟨e, ds, rfl, hbyte, -⟩ := List.map_eq_cons_iff.mp hds.symm
        exact hdigit ⟨e, hbyte⟩

lemma readBase32_zero_eq_ok {i : ℕ} {bs : Bytes} {r : UInt64} (hlength : bs.length ≤ 12) :
    readBase32 i bs 0 = .ok r ↔
      ∃ ds : List (Fin 32), bs = ds.map digitByte ∧ r.toNat = Digits.value ds := by
  have hfits : ((0 : UInt64).toNat + 1) * 32 ^ bs.length ≤ 2 ^ 64 := by
    have hpow : 32 ^ bs.length ≤ 32 ^ 12 := Nat.pow_le_pow_right (by norm_num) hlength
    rw [UInt64.toNat_zero]
    omega
  rw [readBase32_eq_ok hfits, UInt64.toNat_zero]
  simp only [zero_mul, zero_add]

lemma exists_readBase32 (i : ℕ) {ds : List (Fin 32)} (hlength : ds.length ≤ 12) :
    ∃ r, readBase32 i (ds.map digitByte) 0 = .ok r ∧ r.toNat = Digits.value ds := by
  have hlt : Digits.value ds < 2 ^ 64 := by
    have hpow : 32 ^ ds.length ≤ 32 ^ 12 := Nat.pow_le_pow_right (by norm_num) hlength
    have hvalue := Digits.value_lt ds
    omega
  have hr : (UInt64.ofNat (Digits.value ds)).toNat = Digits.value ds := by
    rw [UInt64.toNat_ofNat', Nat.mod_eq_of_lt hlt]
  refine ⟨UInt64.ofNat (Digits.value ds), ?_, hr⟩
  exact (readBase32_zero_eq_ok (by rwa [List.length_map])).mpr ⟨ds, rfl, hr⟩

/-- The two parts of an id put together: of the upper one, what has 44 bits. -/
lemma toNat_join {ts low : UInt64} (hlow : low.toNat < 2 ^ 20) :
    ((ts <<< 20) ||| low).toNat = (ts.toNat * 2 ^ 20 + low.toNat) % 2 ^ 64 := by
  have hts : (ts <<< 20).toNat = 2 ^ 20 * (ts.toNat % 2 ^ 44) := by
    rw [Word.toNat_shiftLeft_eq _ 20 20 rfl (by decide)]
    omega
  rw [UInt64.toNat_or, hts, ← Nat.two_pow_add_eq_or_of_lt hlow]
  omega

/-- The parts of nine and of four digits put together. -/
lemma toNat_join_digits {upper lower : List (Fin 32)} {ts low : UInt64}
    (hlength : lower.length = 4) (hts : ts.toNat = Digits.value upper)
    (hlow : low.toNat = Digits.value lower) :
    ((ts <<< 20) ||| low).toNat = Digits.value (upper ++ lower) % 2 ^ 64 := by
  have hlt := Digits.value_lt lower
  rw [hlength] at hlt
  rw [toNat_join (by omega), hts, hlow, Digits.value_append, hlength]
  rfl

namespace SnowflakeGen

/-- **What is read**: thirteen digits, of the number they stand for the last 64 bits. -/
lemma fromStrBase32_eq_ok {s : String} {v : UInt64} :
    fromStrBase32 s = .ok v ↔
      ∃ ds : List (Fin 32), ds.length = 13 ∧ s = digitText ds ∧
        v.toNat = Digits.value ds % 2 ^ 64 := by
  constructor
  · intro h
    rw [fromStrBase32] at h
    split at h
    · exact absurd h (by simp)
    rename_i hlength
    rw [not_not] at hlength
    obtain ⟨ts, hts, h⟩ := Except.exists_of_bind_eq_ok h
    obtain ⟨low, hlow, h⟩ := Except.exists_of_bind_eq_ok h
    obtain rfl := Except.ok.inj h
    rw [readBase32_zero_eq_ok (by simp [hlength])] at hts hlow
    obtain ⟨upper, hupper, hts⟩ := hts
    obtain ⟨lower, hlower, hlow⟩ := hlow
    -- nine digits for the upper part, four for the lower
    have hbytes : Bytes.ofStr s = (upper ++ lower).map digitByte := by
      rw [List.map_append, ← hupper, ← hlower, List.take_append_drop]
    have hlowerLength : lower.length = 4 := by
      have hdrop := congrArg List.length hlower
      rw [List.length_map, List.length_drop, hlength] at hdrop
      exact hdrop.symm
    refine ⟨upper ++ lower, ?_, ?_, toNat_join_digits hlowerLength hts hlow⟩
    · rw [← hlength, hbytes, List.length_map]
    · rw [← Bytes.ofStr_inj, ofStr_digitText, hbytes]
  · rintro ⟨ds, hlength, rfl, hv⟩
    have hlowerLength : (ds.drop 9).length = 4 := by
      rw [List.length_drop, hlength]
    obtain ⟨ts, hreadTs, hts⟩ := @exists_readBase32 0 (ds.take 9) (by simp)
    obtain ⟨low, hreadLow, hlow⟩ := @exists_readBase32 9 (ds.drop 9) (by simp [hlength])
    have hjoin := toNat_join_digits hlowerLength hts hlow
    rw [List.take_append_drop, ← hv] at hjoin
    have hbytes : (ds.map digitByte).length = 13 := by rw [List.length_map, hlength]
    rw [fromStrBase32, ofStr_digitText]
    simp only [hbytes, ne_eq, not_true, if_false, ← List.map_take, ← List.map_drop, hreadTs,
      hreadLow, bind, Except.bind]
    rw [UInt64.toNat_inj.mp hjoin]

lemma toStrBase32_eq (v : UInt64) : toStrBase32 v = digitText (Digits.digits 13 v.toNat) := by
  have hts : (v >>> 20).toNat = v.toNat / 32 ^ 4 :=
    Word.toNat_shiftRight_eq v 20 20 rfl (by decide)
  have hlow : (v &&& 0xFFFFF).toNat = v.toNat % 32 ^ 4 := Word.toNat_and_mask v 0xFFFFF 20 rfl
  rw [toStrBase32, writeBase32_eq, writeBase32_eq, hts, hlow, Digits.digits_mod, ← List.map_append,
    ← Digits.digits_add, digitText]

/-- The text of an id is read back. -/
lemma fromStrBase32_toStrBase32 (v : UInt64) : fromStrBase32 (toStrBase32 v) = .ok v := by
  refine fromStrBase32_eq_ok.mpr ⟨_, Digits.length_digits 13 v.toNat, toStrBase32_eq v, ?_⟩
  have hlt := v.toNat_lt
  rw [Digits.value_digits]
  omega

lemma toStrBase32_lt {a b : UInt64} (h : a < b) : toStrBase32 a < toStrBase32 b := by
  rw [toStrBase32_eq, toStrBase32_eq]
  exact digitText_lt (Digits.digits_lt_digits (UInt64.lt_iff_toNat_lt.mp h)
    (b.toNat_lt.trans (by norm_num)))

end SnowflakeGen

namespace FastUlidHalfGen

/-- The text of an id: the lower part has 20 bits instead of 16. -/
lemma toStrBase32_eq (v : UInt64) :
    toStrBase32 v =
      digitText (Digits.digits 14 (v.toNat / 2 ^ 16 * 2 ^ 20 + v.toNat % 2 ^ 16)) := by
  have hts : (v >>> 16).toNat = (v.toNat / 2 ^ 16 * 2 ^ 20 + v.toNat % 2 ^ 16) / 32 ^ 4 := by
    rw [Word.toNat_shiftRight_eq _ 16 16 rfl (by decide)]
    omega
  have hrand : (v &&& 0xFFFF).toNat = (v.toNat / 2 ^ 16 * 2 ^ 20 + v.toNat % 2 ^ 16) % 32 ^ 4 := by
    rw [Word.toNat_and_mask _ 0xFFFF 16 rfl]
    omega
  rw [toStrBase32, writeBase32_eq, writeBase32_eq, hts, hrand, Digits.digits_mod,
    ← List.map_append, ← Digits.digits_add, digitText]

lemma toStrBase32_lt {a b : UInt64} (h : a < b) : toStrBase32 a < toStrBase32 b := by
  rw [UInt64.lt_iff_toNat_lt] at h
  have hlt := b.toNat_lt
  rw [toStrBase32_eq, toStrBase32_eq]
  exact digitText_lt (Digits.digits_lt_digits (by omega) (by omega))

end FastUlidHalfGen

namespace SnowflakeGen

/-- **Ids and their texts.**  The text of a snowflake id is read back as the id; and ids compare as
their texts do, for both generators. -/
theorem base32_roundTrip :
    (∀ v, fromStrBase32 (toStrBase32 v) = .ok v) ∧
      (∀ a b : UInt64, a < b → toStrBase32 a < toStrBase32 b) ∧
      ∀ a b : UInt64, a < b → FastUlidHalfGen.toStrBase32 a < FastUlidHalfGen.toStrBase32 b :=
  ⟨fromStrBase32_toStrBase32, fun _ _ => toStrBase32_lt, fun _ _ => FastUlidHalfGen.toStrBase32_lt⟩

/-! ## Texts of more than 64 bits -/

/-- Thirteen characters of the alphabet of which the first is one of `G` to `Z`. -/
def Overlong (s : String) : Prop :=
  ∃ (d : Fin 32) (ds : List (Fin 32)), 16 ≤ d ∧ ds.length = 12 ∧ s = digitText (d :: ds)

lemma overlong_digitText {ds : List (Fin 32)} (hlength : ds.length = 13) :
    Overlong (digitText ds) ↔ 2 ^ 64 ≤ Digits.value ds := by
  obtain ⟨d, ds, rfl⟩ := List.exists_cons_of_length_eq_add_one hlength
  have hrest : ds.length = 12 := Nat.succ.inj hlength
  have hlt := Digits.value_lt ds
  rw [Digits.value_cons, hrest]
  rw [hrest] at hlt
  constructor
  · rintro ⟨e, es, hlarge, -, htext⟩
    obtain ⟨rfl, rfl⟩ := List.cons.inj (digitText_inj.mp htext)
    have hnat : 16 ≤ d.val := hlarge
    omega
  · intro hlarge
    refine ⟨d, ds, ?_, hrest, rfl⟩
    rw [Fin.le_def, show (16 : Fin 32).val = 16 from rfl]
    omega

/-- The text that an id would have been given. -/
lemma toStrBase32_eq_iff {ds : List (Fin 32)} (hlength : ds.length = 13) {v : UInt64}
    (hv : v.toNat = Digits.value ds % 2 ^ 64) :
    toStrBase32 v = digitText ds ↔ Digits.value ds < 2 ^ 64 := by
  rw [toStrBase32_eq, digitText_inj]
  constructor
  · intro heq
    have hvalue := congrArg Digits.value heq
    have hlt := v.toNat_lt
    rw [Digits.value_digits] at hvalue
    omega
  · intro hlt
    rw [hv, Nat.mod_eq_of_lt hlt, ← hlength]
    exact Digits.digits_value ds

/-- **What is read canonically.**  A text is read, if at all, as an id that is written as this text,
unless it has thirteen characters of the alphabet of which the first is too large.  Two texts that
are read as one id are the same exactly when both of them are such, or neither. -/
theorem canonical_iff (s : String) :
    ((∀ v, fromStrBase32 s = .ok v → toStrBase32 v = s) ↔ ¬Overlong s) ∧
      ∀ s' v, fromStrBase32 s = .ok v → fromStrBase32 s' = .ok v →
        (s = s' ↔ (Overlong s ↔ Overlong s')) := by
  constructor
  · constructor
    · rintro hcanonical ⟨d, ds, hlarge, hrest, rfl⟩
      have hlength : (d :: ds).length = 13 := congrArg Nat.succ hrest
      have hv : (UInt64.ofNat (Digits.value (d :: ds))).toNat =
          Digits.value (d :: ds) % 2 ^ 64 := UInt64.toNat_ofNat'
      have hread := hcanonical _ (fromStrBase32_eq_ok.mpr ⟨d :: ds, hlength, rfl, hv⟩)
      have hlt := (toStrBase32_eq_iff hlength hv).mp hread
      have hge := (overlong_digitText hlength).mp ⟨d, ds, hlarge, hrest, rfl⟩
      exact absurd hlt (not_lt.mpr hge)
    · intro hfits v hread
      obtain ⟨ds, hlength, rfl, hv⟩ := fromStrBase32_eq_ok.mp hread
      rw [overlong_digitText hlength, not_le] at hfits
      exact (toStrBase32_eq_iff hlength hv).mpr hfits
  · intro s' v hread hread'
    obtain ⟨ds, hlength, rfl, hv⟩ := fromStrBase32_eq_ok.mp hread
    obtain ⟨es, hlength', rfl, hv'⟩ := fromStrBase32_eq_ok.mp hread'
    rw [overlong_digitText hlength, overlong_digitText hlength', digitText_inj]
    constructor
    · rintro rfl
      exact Iff.rfl
    · intro hboth
      -- The numbers have 65 bits, of which 64 are the same.
      have hlt := Digits.value_lt ds
      have hlt' := Digits.value_lt es
      rw [hlength] at hlt
      rw [hlength'] at hlt'
      exact Digits.eq_of_value_eq (hlength.trans hlength'.symm) (by omega)

/-- `G000000000000` is read as the id 0. -/
theorem overlong_not_canonical :
    ¬∀ s v, fromStrBase32 s = .ok v → toStrBase32 v = s := by
  intro hcanonical
  have hread : fromStrBase32 "G000000000000" = .ok 0 := by decide +kernel
  have hwritten : toStrBase32 0 = "0000000000000" := by decide +kernel
  exact absurd (hwritten.symm.trans (hcanonical _ _ hread)) (by decide)

end SnowflakeGen

end ExchangeCore
