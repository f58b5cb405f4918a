import ArcOS.Lib.Utf16
import ArcOS.Lib.Int32
import ArcOS.Lib.Bytes
import Mathlib.Logic.Function.Basic
import Mathlib.Data.List.TakeDrop

/-!
The text encodings of `libs/util/string.c`.

`utf16_to_codepoint` moves on by one or two code units as it should, but the value it has put together
from a pair of surrogates is overwritten with the first of them: a text comes through exactly when it
has no pair (`utf16_delivers_iff`). `codepoint_to_utf8` writes the right bytes, but does not move the
pointer on behind the one byte of an ASCII character: a text is written exactly when it has none
(`utf8_written_iff`).
-/

namespace ArcOS.Util

open Lib

/-! ### `utf16_to_codepoint` -/

/-- What a call leaves: the pointer it returns, the value of `*codepoint`, and what had been stored
there before. -/
structure Decoded where
  string : ℕ
  codepoint : Int32
  overwritten : List Int32

/-- `utf16_to_codepoint`. The string is given by the `int`s that its elements convert to, one code unit
an element, and the pointer by its index. -/
def utf16ToCodepoint (units : ℕ → Int32) (string : ℕ) : Decoded :=
  let c1 := units string
  let string := string + 1
  if c1 ≥ 0xd800 ∧ c1 < 0xdc00 then
    let c2 := units string
    let string := string + 1
    { string, codepoint := c1
      overwritten := [((c1 &&& 0x3ff) <<< 10) + (c2 &&& 0x3ff) + 0x10000] }
  else { string, codepoint := c1, overwritten := [] }

/-- The call repeated from an element on: the pointer and the value behind every call. -/
def decodeAll (units : ℕ → Int32) : ℕ → ℕ → List (ℕ × Int32)
  | 0, _ => []
  | n + 1, string =>
    let d := utf16ToCodepoint units string
    (d.string, d.codepoint) :: decodeAll units n d.string

/-! ### `codepoint_to_utf8` -/

/-- The pointer to the output, and the memory there. -/
abbrev Output := ℕ × (ℕ → UInt8)

/-- `*stringOutput = byte` -/
def store (byte : Int32) (o : Output) : Output := (o.1, Function.update o.2 o.1 byte.toUInt32.toUInt8)

/-- `*stringOutput++ = byte` -/
def put (byte : Int32) (o : Output) : Output := ((store byte o).1 + 1, (store byte o).2)

/-- `codepoint_to_utf8`; the output is returned with the pointer. -/
def codepointToUtf8 (codepoint : Int32) (o : Output) : Output :=
  if codepoint ≤ 0x7F then store codepoint o
  else if codepoint ≤ 0x7FF then
    let o := put ((0xC0 : Int32) ||| ((codepoint >>> 6) &&& 0x1F)) o
    put ((0x80 : Int32) ||| (codepoint &&& 0x3F)) o
  else if codepoint ≤ 0xFFFF then
    let o := put ((0xE0 : Int32) ||| ((codepoint >>> 12) &&& 0xF)) o
    let o := put ((0x80 : Int32) ||| ((codepoint >>> 6) &&& 0x3F)) o
    put ((0x80 : Int32) ||| (codepoint &&& 0x3F)) o
  else if codepoint ≤ 0x1FFFFF then
    let o := put ((0xF0 : Int32) ||| ((codepoint >>> 18) &&& 0x7)) o
    let o := put ((0x80 : Int32) ||| ((codepoint >>> 12) &&& 0x3F)) o
    let o := put ((0x80 : Int32) ||| ((codepoint >>> 6) &&& 0x3F)) o
    put ((0x80 : Int32) ||| (codepoint &&& 0x3F)) o
  else o

/-- The calls for the values of a text one behind the other. -/
def encodeAll (text : List Char) (o : Output) : Output :=
  text.foldl (fun o c => codepointToUtf8 (Int32.ofNat c.toNat) o) o

/-! ### Decoding -/

section Decoding

variable {units : ℕ → Int32} {string : ℕ} {c : Char} {text : List Char}

/-- The elements from an index on hold code units. -/
def HoldsUnits (units : ℕ → Int32) (string : ℕ) (l : List UInt16) : Prop :=
  ∀ k (hk : k < l.length), units (string + k) = Int32.ofNat (l.get ⟨k, hk⟩).toNat

/-- What the calls are to leave: every value, and the pointer behind its code units. -/
def expected : List Char → ℕ → List (ℕ × Int32)
  | [], _ => []
  | c :: text, string =>
    (string + (utf16 c).length, Int32.ofNat c.toNat) :: expected text (string + (utf16 c).length)

lemma HoldsUnits.append {l l' : List UInt16} (h : HoldsUnits units string (l ++ l')) :
    HoldsUnits units string l ∧ HoldsUnits units (string + l.length) l' := by
  refine ⟨fun k hk => ?_, fun k hk => ?_⟩
  · have hunit := h k (by simp; omega)
    simpa [List.getElem_append_left hk] using hunit
  · have hunit := h (l.length + k) (by simp; omega)
    simpa [Nat.add_assoc] using hunit

lemma pair_eq (u v : ℕ) : ((Int32.ofNat u &&& 0x3ff) <<< 10) + (Int32.ofNat v &&& 0x3ff) + 0x10000 =
    Int32.ofNat (pairValue u v) := by
  have hmask : (0x3ff : Int32) = Int32.ofNat (2 ^ 10 - 1) := by decide
  have hshift : (10 : Int32) = Int32.ofNat 10 := by decide
  have hbase : (0x10000 : Int32) = Int32.ofNat 0x10000 := by decide
  rw [hmask, hshift, hbase, int32_and_mask, int32_and_mask, int32_shiftLeft (by omega), int32_add,
    int32_add]
  rfl

lemma high_iff (u : UInt16) : (Int32.ofNat u.toNat ≥ 0xd800 ∧ Int32.ofNat u.toNat < 0xdc00) ↔
    0xD800 ≤ u.toNat ∧ u.toNat < 0xDC00 := by
  have hu := u.toNat_lt
  have hlow : (0xd800 : Int32) = Int32.ofNat 0xd800 := by decide
  have hhigh : (0xdc00 : Int32) = Int32.ofNat 0xdc00 := by decide
  rw [hlow, hhigh, ge_iff_le, int32_le (by omega) (by omega), int32_lt (by omega) (by omega)]

lemma call_of_lt (h : HoldsUnits units string (utf16 c)) (hc : c.toNat < 0x10000) :
    utf16ToCodepoint units string = ⟨string + 1, Int32.ofNat c.toNat, []⟩ := by
  obtain ⟨u, hu, hvalue, hlow⟩ := utf16_of_lt hc
  rw [hu] at h
  have hunit : units string = Int32.ofNat u.toNat := h 0 (by simp)
  unfold utf16ToCodepoint
  rw [hunit, if_neg (by rwa [high_iff]), hvalue]

/-- A call at a pair puts its value together, and leaves the first surrogate. -/
lemma call_of_le (h : HoldsUnits units string (utf16 c)) (hc : 0x10000 ≤ c.toNat) :
    ∃ u : UInt16, utf16ToCodepoint units string =
      ⟨string + 2, Int32.ofNat u.toNat, [Int32.ofNat c.toNat]⟩ := by
  obtain ⟨u, v, huv, hhigh, hvalue⟩ := utf16_of_le hc
  rw [huv] at h
  have hunit : units string = Int32.ofNat u.toNat := h 0 (by simp)
  have hunit' : units (string + 1) = Int32.ofNat v.toNat := h 1 (by simp)
  refine ⟨u, ?_⟩
  unfold utf16ToCodepoint
  rw [hunit, if_pos (by rwa [high_iff])]
  simp only [hunit', pair_eq, hvalue]

lemma call_string (h : HoldsUnits units string (utf16 c)) :
    (utf16ToCodepoint units string).string = string + (utf16 c).length := by
  rcases Nat.lt_or_ge c.toNat 0x10000 with hc | hc
  · obtain ⟨u, hu, -⟩ := utf16_of_lt hc
    rw [call_of_lt h hc, hu]
    rfl
  · obtain ⟨u, v, huv, -⟩ := utf16_of_le hc
    obtain ⟨w, hw⟩ := call_of_le h hc
    rw [hw, huv]
    rfl

/-- The value is delivered when it is of one unit, and only then. -/
lemma call_codepoint_iff (h : HoldsUnits units string (utf16 c)) :
    (utf16ToCodepoint units string).codepoint = Int32.ofNat c.toNat ↔ c.toNat ≤ 0xFFFF := by
  have hmax := toNat_lt_or_le c
  rcases Nat.lt_or_ge c.toNat 0x10000 with hc | hc
  · simp [call_of_lt h hc, Nat.le_of_lt_succ hc]
  · obtain ⟨u, hu⟩ := call_of_le h hc
    have hlt := u.toNat_lt
    rw [hu, int32_inj (by omega) (by omega)]
    omega

lemma decodeAll_strings (text : List Char) {string : ℕ}
    (h : HoldsUnits units string (text.flatMap utf16)) :
    (decodeAll units text.length string).map Prod.fst = (expected text string).map Prod.fst := by
  induction text generalizing string with
  | nil => rfl
  | cons c text ih =>
    obtain ⟨hc, htext⟩ := HoldsUnits.append h
    have hstring := call_string hc
    simp [decodeAll, expected, hstring, ih htext]

/-- Every value is delivered when all of them are of one unit, and only then. -/
lemma decodeAll_iff (text : List Char) {string : ℕ} (h : HoldsUnits units string (text.flatMap utf16)) :
    decodeAll units text.length string = expected text string ↔ ∀ c ∈ text, c.toNat ≤ 0xFFFF := by
  induction text generalizing string with
  | nil => simp [decodeAll, expected]
  | cons c text ih =>
    obtain ⟨hc, htext⟩ := HoldsUnits.append h
    have hstring := call_string hc
    simp [decodeAll, expected, hstring, ih htext, call_codepoint_iff hc]

/-- The calls move on by the units of each value, and decoding inverts the encoding of exactly the texts
without a pair. -/
theorem utf16_delivers_iff (units : ℕ → Int32) (string : ℕ) (text : List Char)
    (h : HoldsUnits units string (text.flatMap utf16)) :
    (decodeAll units text.length string).map Prod.fst = (expected text string).map Prod.fst ∧
      (decodeAll units text.length string = expected text string ↔ ∀ c ∈ text, c.toNat ≤ 0xFFFF) :=
  ⟨decodeAll_strings text h, decodeAll_iff text h⟩

/-- A text as an array of `int`s. -/
def wchars (text : List Char) : ℕ → Int32 := fun k => Int32.ofNat ((text.flatMap utf16).getD k 0).toNat

lemma holdsUnits_wchars (text : List Char) : HoldsUnits (wchars text) 0 (text.flatMap utf16) := by
  intro k hk
  simp [wchars, List.getElem?_eq_getElem hk]

theorem utf16_delivers_iff_two : decodeAll (wchars ['é', '€']) 2 0 = expected ['é', '€'] 0 ↔
    ∀ c ∈ ['é', '€'], c.toNat ≤ 0xFFFF :=
  (utf16_delivers_iff (wchars ['é', '€']) 0 ['é', '€'] (holdsUnits_wchars _)).2

/-- The first value behind 0xFFFF comes out as its first surrogate. -/
theorem utf16_pair_lost :
    HoldsUnits (wchars [Char.ofNat 0x10000]) 0 ([Char.ofNat 0x10000].flatMap utf16) ∧
      decodeAll (wchars [Char.ofNat 0x10000]) 1 0 = [(2, 0xD800)] ∧
      expected [Char.ofNat 0x10000] 0 = [(2, 0x10000)] :=
  ⟨holdsUnits_wchars _, by decide, by decide⟩

end Decoding

/-! ### Encoding -/

section Encoding

variable {o o' o'' : Output} {l l' : List UInt8} {n k j : ℕ} {c : Char} {text : List Char}

/-- Bytes are written at the pointer, and the pointer is moved on behind them. -/
structure Wrote (l : List UInt8) (o o' : Output) : Prop where
  pointer : o'.1 = o.1 + l.length
  bytes : stretch o'.2 o.1 l.length = l
  frame : ∀ a, a < o.1 ∨ o.1 + l.length ≤ a → o'.2 a = o.2 a

lemma Wrote.nil (o : Output) : Wrote [] o o := ⟨rfl, rfl, fun _ _ => rfl⟩

lemma Wrote.trans (h : Wrote l o o') (h' : Wrote l' o' o'') : Wrote (l ++ l') o o'' := by
  have hpointer := h.pointer
  refine ⟨?_, ?_, fun a ha => ?_⟩
  · rw [h'.pointer, h.pointer, List.length_append, Nat.add_assoc]
  · -- the second stretch lies behind the first, which is not written again
    have hfirst : stretch o''.2 o.1 l.length = stretch o'.2 o.1 l.length :=
      stretch_congr fun i hi => h'.frame _ (.inl (by omega))
    rw [List.length_append, stretch_add, hfirst, h.bytes, ← h.pointer, h'.bytes]
  · rw [List.length_append] at ha
    rw [h'.frame a (by omega), h.frame a (by omega)]

lemma wrote_put (byte : Int32) (o : Output) : Wrote [byte.toUInt32.toUInt8] o (put byte o) := by
  refine ⟨rfl, ?_, fun a ha => ?_⟩
  · simp [stretch, put, store]
  · have hne : a ≠ o.1 := by simp at ha; omega
    simp [put, store, hne]

lemma byte_eq (hn : n < 2 ^ 31) (hk : k < 32) (lead : ℕ) :
    (Int32.ofNat (2 ^ j * lead) |||
      ((Int32.ofNat n >>> Int32.ofNat k) &&& Int32.ofNat (2 ^ j - 1))).toUInt32.toUInt8 =
      UInt8.ofNat (n / 2 ^ k % 2 ^ j + 2 ^ j * lead) := by
  have hlt : n / 2 ^ k % 2 ^ j < 2 ^ j := Nat.mod_lt _ (Nat.two_pow_pos j)
  rw [int32_shiftRight hn hk, int32_and_mask, int32_or, ← Nat.two_pow_add_eq_or_of_lt hlt,
    Int32.toUInt32_ofNat', UInt32.toUInt8_ofNat', Nat.add_comm]

lemma low_byte_eq (lead : ℕ) :
    (Int32.ofNat (2 ^ j * lead) ||| (Int32.ofNat n &&& Int32.ofNat (2 ^ j - 1))).toUInt32.toUInt8 =
      UInt8.ofNat (n % 2 ^ j + 2 ^ j * lead) := by
  have hlt : n % 2 ^ j < 2 ^ j := Nat.mod_lt _ (Nat.two_pow_pos j)
  rw [int32_and_mask, int32_or, ← Nat.two_pow_add_eq_or_of_lt hlt, Int32.toUInt32_ofNat',
    UInt32.toUInt8_ofNat', Nat.add_comm]

lemma follow_low : ((0x80 : Int32) ||| (Int32.ofNat n &&& 0x3F)).toUInt32.toUInt8 =
    UInt8.ofNat (n % 0x40 + 0x80) := low_byte_eq (j := 6) 2

lemma follow_middle (hn : n < 2 ^ 31) :
    ((0x80 : Int32) ||| ((Int32.ofNat n >>> 6) &&& 0x3F)).toUInt32.toUInt8 =
      UInt8.ofNat (n / 64 % 0x40 + 0x80) := byte_eq (j := 6) hn (show 6 < 32 by omega) 2

lemma le_iff (c : Char) {b : ℕ} (hb : b < 2 ^ 31) :
    Int32.ofNat c.toNat ≤ Int32.ofNat b ↔ c.toNat ≤ b := by
  have hmax := toNat_lt_or_le c
  exact int32_le (by omega) hb

lemma le_127 (c : Char) : Int32.ofNat c.toNat ≤ 0x7F ↔ c.toNat ≤ 0x7F :=
  le_iff c (b := 0x7F) (by omega)

lemma le_2047 (c : Char) : Int32.ofNat c.toNat ≤ 0x7FF ↔ c.toNat ≤ 0x7FF :=
  le_iff c (b := 0x7FF) (by omega)

lemma le_65535 (c : Char) : Int32.ofNat c.toNat ≤ 0xFFFF ↔ c.toNat ≤ 0xFFFF :=
  le_iff c (b := 0xFFFF) (by omega)

lemma wrote_two (hc : 0x7F < c.toNat) (hc' : c.toNat ≤ 0x7FF) (o : Output) :
    Wrote (String.utf8EncodeChar c) o (codepointToUtf8 (Int32.ofNat c.toNat) o) := by
  have hn : c.toNat < 2 ^ 31 := by omega
  have hlead : ((0xC0 : Int32) ||| ((Int32.ofNat c.toNat >>> 6) &&& 0x1F)).toUInt32.toUInt8 =
      UInt8.ofNat (c.toNat / 64 % 0x20 + 0xc0) := byte_eq (j := 5) hn (show 6 < 32 by omega) 6
  have hbytes : String.utf8EncodeChar c = [UInt8.ofNat (c.toNat / 64 % 0x20 + 0xc0)] ++
      [UInt8.ofNat (c.toNat % 0x40 + 0x80)] := by
    unfold String.utf8EncodeChar
    exact (if_neg (Nat.not_le.mpr hc)).trans (if_pos hc')
  unfold codepointToUtf8
  rw [hbytes, ← hlead, ← follow_low, if_neg (by rw [le_127]; omega), if_pos (by rw [le_2047]; omega)]
  exact (wrote_put _ o).trans (wrote_put _ _)

lemma wrote_three (hc : 0x7FF < c.toNat) (hc' : c.toNat ≤ 0xFFFF) (o : Output) :
    Wrote (String.utf8EncodeChar c) o (codepointToUtf8 (Int32.ofNat c.toNat) o) := by
  have hn : c.toNat < 2 ^ 31 := by omega
  have hlead : ((0xE0 : Int32) ||| ((Int32.ofNat c.toNat >>> 12) &&& 0xF)).toUInt32.toUInt8 =
      UInt8.ofNat (c.toNat / 4096 % 0x10 + 0xe0) := byte_eq (j := 4) hn (show 12 < 32 by omega) 14
  have hbytes : String.utf8EncodeChar c = [UInt8.ofNat (c.toNat / 4096 % 0x10 + 0xe0)] ++
      [UInt8.ofNat (c.toNat / 64 % 0x40 + 0x80)] ++ [UInt8.ofNat (c.toNat % 0x40 + 0x80)] := by
    unfold String.utf8EncodeChar
    exact (if_neg (show ¬ c.toNat ≤ 0x7f by omega)).trans
      ((if_neg (Nat.not_le.mpr hc)).trans (if_pos hc'))
  unfold codepointToUtf8
  rw [hbytes, ← hlead, ← follow_middle hn, ← follow_low, if_neg (by rw [le_127]; omega),
    if_neg (by rw [le_2047]; omega), if_pos (by rw [le_65535]; omega)]
  exact ((wrote_put _ o).trans (wrote_put _ _)).trans (wrote_put _ _)

lemma wrote_four (hc : 0xFFFF < c.toNat) (o : Output) :
    Wrote (String.utf8EncodeChar c) o (codepointToUtf8 (Int32.ofNat c.toNat) o) := by
  have hmax := toNat_lt_or_le c
  have hn : c.toNat < 2 ^ 31 := by omega
  have hbound : Int32.ofNat c.toNat ≤ 0x1FFFFF := (le_iff c (b := 0x1FFFFF) (by omega)).mpr (by omega)
  have hlead : ((0xF0 : Int32) ||| ((Int32.ofNat c.toNat >>> 18) &&& 0x7)).toUInt32.toUInt8 =
      UInt8.ofNat (c.toNat / 262144 % 0x08 + 0xf0) := byte_eq (j := 3) hn (show 18 < 32 by omega) 30
  have hhigh : ((0x80 : Int32) ||| ((Int32.ofNat c.toNat >>> 12) &&& 0x3F)).toUInt32.toUInt8 =
      UInt8.ofNat (c.toNat / 4096 % 0x40 + 0x80) := byte_eq (j := 6) hn (show 12 < 32 by omega) 2
  have hbytes : String.utf8EncodeChar c = [UInt8.ofNat (c.toNat / 262144 % 0x08 + 0xf0)] ++
      [UInt8.ofNat (c.toNat / 4096 % 0x40 + 0x80)] ++ [UInt8.ofNat (c.toNat / 64 % 0x40 + 0x80)] ++
      [UInt8.ofNat (c.toNat % 0x40 + 0x80)] := by
    unfold String.utf8EncodeChar
    exact (if_neg (show ¬ c.toNat ≤ 0x7f by omega)).trans
      ((if_neg (show ¬ c.toNat ≤ 0x7ff by omega)).trans (if_neg (Nat.not_le.mpr hc)))
  unfold codepointToUtf8
  rw [hbytes, ← hlead, ← hhigh, ← follow_middle hn, ← follow_low, if_neg (by rw [le_127]; omega),
    if_neg (by rw [le_2047]; omega), if_neg (by rw [le_65535]; omega), if_pos hbound]
  exact (((wrote_put _ o).trans (wrote_put _ _)).trans (wrote_put _ _)).trans (wrote_put _ _)

/-- Behind the ASCII characters a call writes the encoding of its character. -/
lemma wrote_call (hc : 0x7F < c.toNat) (o : Output) :
    Wrote (String.utf8EncodeChar c) o (codepointToUtf8 (Int32.ofNat c.toNat) o) := by
  rcases Nat.lt_or_ge 0x7FF c.toNat with hc2 | hc2
  · rcases Nat.lt_or_ge 0xFFFF c.toNat with hc3 | hc3
    · exact wrote_four hc3 o
    · exact wrote_three hc2 hc3 o
  · exact wrote_two hc hc2 o

lemma wrote_all (h : ∀ c ∈ text, 0x7F < c.toNat) (o : Output) :
    Wrote (text.flatMap String.utf8EncodeChar) o (encodeAll text o) := by
  induction text generalizing o with
  | nil => exact Wrote.nil o
  | cons c text ih =>
    have hc := wrote_call (h c (by simp)) o
    exact hc.trans (ih (fun d hd => h d (by simp [hd])) _)

lemma encodeAll_concat (text : List Char) (c : Char) (o : Output) :
    encodeAll (text ++ [c]) o = codepointToUtf8 (Int32.ofNat c.toNat) (encodeAll text o) := by
  simp [encodeAll]

lemma call_ascii (hc : c.toNat ≤ 0x7F) (o : Output) :
    (codepointToUtf8 (Int32.ofNat c.toNat) o).1 = o.1 := by
  unfold codepointToUtf8
  rw [if_pos (by rwa [le_127])]
  rfl

/-- A text is written, prefix by prefix, and decodes to what it was, exactly when it has no ASCII
character. -/
theorem utf8_written_iff (text : List Char) (o : Output) :
    ((∀ k ≤ text.length,
        Wrote ((text.take k).flatMap String.utf8EncodeChar) o (encodeAll (text.take k) o)) ∧
      (stretch (encodeAll text o).2 o.1 ((encodeAll text o).1 - o.1)).toByteArray.utf8Decode? =
        some text.toArray) ↔ ∀ c ∈ text, 0x7F < c.toNat := by
  constructor
  · rintro ⟨hwritten, -⟩ c hc
    obtain ⟨k, hk, rfl⟩ := List.getElem_of_mem hc
    by_contra hle
    have hbehind := (hwritten (k + 1) hk).pointer
    have hbefore := (hwritten k (by omega)).pointer
    have hpos := Char.utf8Size_pos text[k]
    rw [List.take_succ_eq_append_getElem hk, encodeAll_concat, call_ascii (by omega), hbefore,
      List.flatMap_append, List.length_append] at hbehind
    simp only [List.flatMap_singleton, String.length_utf8EncodeChar] at hbehind
    omega
  · intro h
    refine ⟨fun k _ => wrote_all (fun c hc => h c (List.mem_of_mem_take hc)) o, ?_⟩
    have hall := wrote_all h o
    rw [hall.pointer, Nat.add_sub_cancel_left, hall.bytes]
    exact List.utf8Decode?_utf8Encode

/-- Of two ASCII characters the second one is written over the first. -/
theorem utf8_overwritten :
    ¬ Wrote (['A', 'B'].flatMap String.utf8EncodeChar) (0, fun _ => 0)
      (encodeAll ['A', 'B'] (0, fun _ => 0)) ∧
    (encodeAll ['A', 'B'] (0, fun _ => 0)).1 = 0 ∧
    (encodeAll ['A', 'B'] (0, fun _ => 0)).2 0 = 0x42 :=
  ⟨fun h => absurd h.pointer (by decide), by decide, by decide⟩

end Encoding

end ArcOS.Util
