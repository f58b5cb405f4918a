import ArcOS.Stdio.Printf
import Mathlib.Data.Nat.Digits.Lemmas

/-!
The numerals that `printf_unsigned` and `printf_signed` print, and the dump of `print_buffer`.

The digits that are printed are those of the number over the natural numbers (`printfUnsigned_eq`), which
are no digits at all for 0: `numbers_canonical_iff`. The counter of `print_buffer` is shorter than its
bound, and `printBuffer_iff` says for which bounds it comes to the end.
-/

namespace ArcOS.Stdio

/-! ### Numerals -/

/-- The value of a digit. -/
def digitValue (c : UInt8) : ℕ := if c < 97 then c.toNat - 48 else c.toNat - 87

/-- The number that a text is read as. -/
def parseNumeral (radix : ℕ) (text : List UInt8) : ℕ :=
  text.foldl (fun n c => radix * n + digitValue c) 0

/-- The text is the canonical numeral of a number: digits of the radix, no `0` in front of others, and read
as the number. -/
structure Canonical (radix : ℕ) (text : List UInt8) (n : ℕ) : Prop where
  nonempty : text ≠ []
  digits : ∀ c ∈ text, c ∈ hexChars.take radix
  lead : text.head? = some 48 → text = [48]
  value : parseNumeral radix text = n

/-- The character of a digit. -/
def hexDigit (d : ℕ) : UInt8 := hexChars.getD d 0

section Numerals

variable {radix d : ℕ}

lemma digitValue_hexDigit (hd : d < 16) : digitValue (hexDigit d) = d := by
  have hall : ∀ d : Fin 16, digitValue (hexDigit d) = d := by decide
  exact hall ⟨d, hd⟩

lemma hexDigit_mem (hd : d < radix) (hradix : radix ≤ 16) : hexDigit d ∈ hexChars.take radix := by
  have hlen : d < hexChars.length := hd.trans_le hradix
  rw [hexDigit, List.getD_eq_getElem?_getD, List.getElem?_eq_getElem hlen]
  exact List.mem_take_iff_getElem.mpr ⟨d, lt_min hd hlen, rfl⟩

lemma hexDigit_ne_zero (hd : d < 16) (h : hexDigit d = 48) : d = 0 := by
  have hall : ∀ d : Fin 16, hexDigit d = 48 → (d : ℕ) = 0 := by decide
  exact hall ⟨d, hd⟩ h

lemma parseNumeral_reverse {ds : List ℕ} (h : ∀ d ∈ ds, d < 16) :
    parseNumeral radix (ds.map hexDigit).reverse = Nat.ofDigits radix ds := by
  rw [parseNumeral, List.foldl_reverse]
  induction ds with
  | nil => rfl
  | cons d ds ih =>
    have hd : d < 16 := h d List.mem_cons_self
    have hds := ih fun e he => h e (List.mem_cons_of_mem _ he)
    simp only [List.map_cons, List.foldr_cons, Nat.ofDigits_cons, digitValue_hexDigit hd, hds]
    omega

theorem canonical_digits {n : ℕ} (h1 : 1 < radix) (h16 : radix ≤ 16) (hn : n ≠ 0) :
    Canonical radix ((Nat.digits radix n).map hexDigit).reverse n := by
  have hlt : ∀ d ∈ Nat.digits radix n, d < radix := fun d hd => Nat.digits_lt_base h1 hd
  have hne : Nat.digits radix n ≠ [] := Nat.digits_ne_nil_iff_ne_zero.mpr hn
  refine ⟨by simpa using hne, ?_, ?_, ?_⟩
  · simp only [List.mem_reverse, List.mem_map]
    rintro c ⟨d, hd, rfl⟩
    exact hexDigit_mem (hlt d hd) h16
  · intro hhead
    have hlast : hexDigit ((Nat.digits radix n).getLast hne) = 48 := by
      rw [List.head?_reverse, List.getLast?_map, List.getLast?_eq_some_getLast hne] at hhead
      simpa using hhead
    have hmem := List.getLast_mem hne
    exact absurd (hexDigit_ne_zero ((hlt _ hmem).trans_le h16) hlast) (Nat.getLast_digit_ne_zero radix hn)
  · rw [parseNumeral_reverse fun d hd => (hlt d hd).trans_le h16, Nat.ofDigits_digits]

end Numerals

/-! ### `printf_unsigned` and `printf_signed` -/

section Printed

variable {number radix : UInt64}

/-- With room for them, the loop writes the digits of the number. -/
lemma digitsLoop_eq (hradix : 1 < radix.toNat) : ∀ {left : ℕ} {number : UInt64},
    (Nat.digits radix.toNat number.toNat).length ≤ left →
      digitsLoop radix left number = (Nat.digits radix.toNat number.toNat).map hexDigit := by
  intro left
  induction left with
  | zero =>
    intro number h
    rw [List.length_eq_zero_iff.mp (Nat.le_zero.mp h)]
    rfl
  | succ left ih =>
    intro number h
    rw [digitsLoop]
    have hiff : number > 0 ↔ 0 < number.toNat := UInt64.lt_iff_toNat_lt
    by_cases hpos : 0 < number.toNat
    · have hdigits := Nat.digits_def' hradix hpos
      rw [hdigits, List.length_cons] at h
      have hrest := @ih (number / radix) (by rw [UInt64.toNat_div]; omega)
      rw [if_pos (hiff.mpr hpos), hdigits, List.map_cons, hrest, UInt64.toNat_div,
        UInt64.toNat_mod]
      rfl
    · have hzero : number.toNat = 0 := by omega
      rw [if_neg (hiff.not.mpr hpos), hzero, Nat.digits_zero, List.map_nil]

lemma length_digits_le (h8 : 8 ≤ radix.toNat) (number : UInt64) :
    (Nat.digits radix.toNat number.toNat).length ≤ 22 := by
  rw [Nat.digits_length_le_iff (by omega)]
  calc number.toNat < 8 ^ 22 := number.toNat_lt.trans (by norm_num)
    _ ≤ radix.toNat ^ 22 := Nat.pow_le_pow_left h8 22

theorem printfUnsigned_eq (h8 : 8 ≤ radix.toNat) (number : UInt64) : printfUnsigned number radix =
    ((Nat.digits radix.toNat number.toNat).map hexDigit).reverse := by
  have hlen := length_digits_le h8 number
  rw [printfUnsigned, digitsLoop_eq (by omega) (by omega)]

lemma toInt_cases (number : Int64) : number.toInt =
    if number.toUInt64.toNat < 2 ^ 63 then (number.toUInt64.toNat : ℤ) else number.toUInt64.toNat - 2 ^ 64 := by
  have hbits := BitVec.toInt_eq_toNat_cond number.toBitVec
  have hnat : number.toUInt64.toNat = number.toBitVec.toNat := rfl
  have hint : number.toInt = number.toBitVec.toInt := rfl
  rw [hint, hbits, hnat]
  split <;> split <;> first | rfl | omega

lemma neg_toUInt64 {number : Int64} (h : number < 0) :
    (-number).toUInt64.toNat = number.toInt.natAbs := by
  have hneg : number.toInt < 0 := Int64.lt_iff_toInt_lt.mp h
  have hbits := toInt_cases number
  have hlt := number.toUInt64.toNat_lt
  rw [Int64.toUInt64_neg, UInt64.toNat_neg]
  split at hbits <;> simp only [UInt64.size] <;> omega

lemma nonneg_toUInt64 {number : Int64} (h : ¬ number < 0) :
    number.toUInt64.toNat = number.toInt.natAbs := by
  have hpos : ¬ number.toInt < 0 := fun hlt => h (Int64.lt_iff_toInt_lt.mpr hlt)
  have hbits := toInt_cases number
  have hlt := number.toUInt64.toNat_lt
  split at hbits <;> omega

lemma canonical_iff (h8 : 8 ≤ radix.toNat) (h16 : radix.toNat ≤ 16) (number : UInt64) :
    Canonical radix.toNat (printfUnsigned number radix) number.toNat ↔ number.toNat ≠ 0 := by
  rw [printfUnsigned_eq h8]
  refine ⟨fun h hzero => h.nonempty ?_, canonical_digits (by omega) h16⟩
  simp [hzero]

end Printed

/-- What `printf_unsigned` is to print. The loop over the digits ends before the buffer does: room behind
its 32 bytes makes no difference. -/
structure PrintsUnsigned (number radix : UInt64) : Prop where
  numeral : Canonical radix.toNat (printfUnsigned number radix) number.toNat
  buffer : ∀ places ≥ 32, digitsLoop radix places number = digitsLoop radix 32 number

/-- What `printf_signed` is to print: a sign in front of the magnitude. -/
def PrintsSigned (number : Int64) (radix : UInt64) : Prop :=
  if number < 0 then
    ∃ numeral, printfSigned number radix = 45 :: numeral ∧
      Canonical radix.toNat numeral number.toInt.natAbs
  else Canonical radix.toNat (printfSigned number radix) number.toInt.natAbs

/-- **Numbers are printed as canonical numerals, but for 0.** -/
theorem numbers_canonical_iff (radix : UInt64) (hradix : radix = 8 ∨ radix = 10 ∨ radix = 16) :
    (∀ number : UInt64, PrintsUnsigned number radix ↔ number ≠ 0) ∧
      ∀ number : Int64, PrintsSigned number radix ↔ number ≠ 0 := by
  have hrange : 8 ≤ radix.toNat ∧ radix.toNat ≤ 16 := by
    rcases hradix with rfl | rfl | rfl <;> decide
  obtain ⟨h8, h16⟩ := hrange
  constructor
  · intro number
    have hzero : number.toNat ≠ 0 ↔ number ≠ 0 := by simp [← UInt64.toNat_inj]
    rw [← hzero, ← canonical_iff h8 h16]
    refine ⟨fun h => h.numeral, fun h => ⟨h, fun places hplaces => ?_⟩⟩
    have hlen := length_digits_le h8 number
    rw [digitsLoop_eq (by omega) (by omega), digitsLoop_eq (by omega) (by omega)]
  · intro number
    unfold PrintsSigned printfSigned
    split
    · next hneg =>
      have hlt : number.toInt < 0 := Int64.lt_iff_toInt_lt.mp hneg
      have hmagnitude := neg_toUInt64 hneg
      refine iff_of_true ⟨_, rfl, ?_⟩ ?_
      · rw [← hmagnitude]
        exact (canonical_iff h8 h16 _).mpr (by omega)
      · rintro rfl
        exact absurd hlt (by decide)
    · next hpos =>
      have hmagnitude := nonneg_toUInt64 hpos
      rw [← hmagnitude, canonical_iff h8 h16, hmagnitude]
      simp [← Int64.toInt_inj]

theorem numbers_canonical_iff_decimal :
    (∀ number : UInt64, PrintsUnsigned number 10 ↔ number ≠ 0) ∧
      ∀ number : Int64, PrintsSigned number 10 ↔ number ≠ 0 :=
  numbers_canonical_iff 10 (by decide)

/-- Nothing at all is printed for 0. -/
theorem zero_not_printed :
    printfUnsigned 0 10 = [] ∧ ¬ PrintsUnsigned 0 10 ∧ printfSigned 0 10 = [] ∧ ¬ PrintsSigned 0 10 := by
  refine ⟨rfl, fun h => h.numeral.nonempty rfl, rfl, fun h => ?_⟩
  rw [PrintsSigned, if_neg (by decide)] at h
  exact h.nonempty rfl

example : printfSigned (-0x8000000000000000) 10 =
    [45, 57, 50, 50, 51, 51, 55, 50, 48, 51, 54, 56, 53, 52, 55, 55, 53, 56, 48, 56] := by decide +kernel

/-! ### `print_buffer` -/

/-- The loop of `print_buffer`, with the rounds it may take. The counter has 16 bits, the bound 32. -/
def dumpLoop (buffer : ℕ → UInt8) (count : UInt32) : ℕ → UInt16 → List UInt8 → Option (List UInt8)
  | 0, _, _ => none
  | fuel + 1, i, out =>
    if i.toUInt32 < count then
      dumpLoop buffer count fuel (i + 1) (out ++ [hexChars.getD (buffer i.toNat >>> 4).toNat 0,
        hexChars.getD (buffer i.toNat &&& 0xF).toNat 0])
    else some out

/-- `print_buffer`: the bytes printed; `none` when the loop has used up its rounds. -/
def printBuffer (fuel : ℕ) (msg : List UInt8) (buffer : ℕ → UInt8) (count : UInt32) : Option (List UInt8) :=
  (dumpLoop buffer count fuel 0 msg).map (· ++ [10])

/-- The two digits of a byte. -/
def hexByte (b : UInt8) : List UInt8 := [hexDigit (b.toNat / 16), hexDigit (b.toNat % 16)]

/-- The bytes of a buffer from `i` on, two digits each. -/
def dumpFrom (buffer : ℕ → UInt8) (i n : ℕ) : List UInt8 :=
  (List.range' i n).flatMap fun k => hexByte (buffer k)

/-- The message, the bytes of the buffer, and a line end. -/
def dump (msg : List UInt8) (buffer : ℕ → UInt8) (count : ℕ) : List UInt8 :=
  msg ++ dumpFrom buffer 0 count ++ [10]

section Dump

variable {buffer : ℕ → UInt8} {count : UInt32}

lemma hexByte_eq (b : UInt8) : hexByte b =
    [hexChars.getD (b >>> 4).toNat 0, hexChars.getD (b &&& 0xF).toNat 0] := by
  have hlow : b.toNat &&& 15 = b.toNat % 16 := Nat.and_two_pow_sub_one_eq_mod _ 4
  simp [hexByte, hexDigit, hlow, Nat.shiftRight_eq_div_pow]

lemma dumpLoop_eq (hcount : count.toNat < 2 ^ 16) (n : ℕ) : ∀ {fuel : ℕ} {i : UInt16} {out : List UInt8},
    i.toNat + n = count.toNat → n < fuel →
      dumpLoop buffer count fuel i out = some (out ++ dumpFrom buffer i.toNat n) := by
  induction n with
  | zero =>
    intro fuel i out hi hfuel
    obtain ⟨fuel, rfl⟩ : ∃ k, fuel = k + 1 := ⟨fuel - 1, by omega⟩
    have hend : ¬ i.toUInt32 < count := by
      rw [UInt32.lt_iff_toNat_lt, UInt16.toNat_toUInt32]
      omega
    rw [dumpLoop, if_neg hend]
    simp [dumpFrom]
  | succ n ih =>
    intro fuel i out hi hfuel
    obtain ⟨fuel, rfl⟩ : ∃ k, fuel = k + 1 := ⟨fuel - 1, by omega⟩
    have hgo : i.toUInt32 < count := by
      rw [UInt32.lt_iff_toNat_lt, UInt16.toNat_toUInt32]
      omega
    have hnext : (i + 1).toNat = i.toNat + 1 := by
      rw [UInt16.toNat_add]
      exact Nat.mod_eq_of_lt (by simp; omega)
    rw [dumpLoop, if_pos hgo, ih (by omega) (by omega), hnext, ← hexByte_eq]
    simp [dumpFrom, List.range'_succ]

/-- The counter never comes to a bound of more than 16 bits. -/
lemma dumpLoop_stuck (hcount : 2 ^ 16 ≤ count.toNat) (fuel : ℕ) : ∀ (i : UInt16) (out : List UInt8),
    dumpLoop buffer count fuel i out = none := by
  induction fuel with
  | zero => exact fun _ _ => rfl
  | succ fuel ih =>
    intro i out
    have hgo : i.toUInt32 < count := by
      have hi := i.toNat_lt
      rw [UInt32.lt_iff_toNat_lt, UInt16.toNat_toUInt32]
      omega
    rw [dumpLoop, if_pos hgo]
    exact ih _ _

end Dump

/-- **When `print_buffer` ends, with everything dumped.** -/
theorem printBuffer_iff (msg : List UInt8) (buffer : ℕ → UInt8) (count : UInt32) :
    (∃ fuel₀, ∀ fuel ≥ fuel₀, printBuffer fuel msg buffer count = some (dump msg buffer count.toNat)) ↔
      count.toNat < 2 ^ 16 := by
  constructor
  · rintro ⟨fuel, h⟩
    have hrun := h fuel le_rfl
    by_contra hlarge
    rw [printBuffer, dumpLoop_stuck (not_lt.mp hlarge), Option.map_none] at hrun
    cases hrun
  · intro hcount
    refine ⟨count.toNat + 1, fun fuel hfuel => ?_⟩
    rw [printBuffer, dumpLoop_eq hcount count.toNat (by simp) (by omega)]
    rfl

/-- 65536 bytes are dumped for ever, whatever they are. -/
theorem printBuffer_endless : ¬ ∃ fuel msg buffer, (printBuffer fuel msg buffer 65536).isSome := by
  rintro ⟨fuel, msg, buffer, h⟩
  rw [printBuffer, dumpLoop_stuck (by decide), Option.map_none] at h
  cases h

end ArcOS.Stdio
