import Mathlib.Data.List.Basic

/-!
UTF-16.

A scalar value (a `Char`) below 0x10000 is one code unit, any other is a pair of surrogates. No scalar
value is a surrogate, so that the first unit says which of the two it is (`utf16_of_lt`, `utf16_of_le`),
and the value of a pair is the scalar value it stands for.
-/

namespace Lib

/-- The code units of a scalar value. -/
def utf16 (c : Char) : List UInt16 :=
  if c.toNat < 0x10000 then [UInt16.ofNat c.toNat]
  else [UInt16.ofNat (0xD800 + (c.toNat - 0x10000) / 0x400),
    UInt16.ofNat (0xDC00 + (c.toNat - 0x10000) % 0x400)]

/-- The value of a pair of surrogates. -/
def pairValue (high low : ℕ) : ℕ := high % 0x400 * 0x400 + low % 0x400 + 0x10000

variable {c : Char}

lemma toNat_lt_or_le (c : Char) :
    c.toNat < 0xD800 ∨ 0xE000 ≤ c.toNat ∧ c.toNat < 0x110000 := by
  have hvalid : c.toNat.isValidChar := c.valid
  unfold Nat.isValidChar at hvalid
  omega

lemma utf16_of_lt (h : c.toNat < 0x10000) : ∃ u : UInt16, utf16 c = [u] ∧ u.toNat = c.toNat ∧
    ¬ (0xD800 ≤ u.toNat ∧ u.toNat < 0xDC00) := by
  have hvalue : (UInt16.ofNat c.toNat).toNat = c.toNat := by
    rw [UInt16.toNat_ofNat', Nat.mod_eq_of_lt (by omega)]
  have hc := toNat_lt_or_le c
  exact ⟨_, if_pos h, hvalue, by omega⟩

lemma utf16_of_le (h : 0x10000 ≤ c.toNat) : ∃ u v : UInt16, utf16 c = [u, v] ∧
    (0xD800 ≤ u.toNat ∧ u.toNat < 0xDC00) ∧ pairValue u.toNat v.toNat = c.toNat := by
  have hc := toNat_lt_or_le c
  have hhigh : (UInt16.ofNat (0xD800 + (c.toNat - 0x10000) / 0x400)).toNat =
      0xD800 + (c.toNat - 0x10000) / 0x400 := by
    rw [UInt16.toNat_ofNat', Nat.mod_eq_of_lt (by omega)]
  have hlow : (UInt16.ofNat (0xDC00 + (c.toNat - 0x10000) % 0x400)).toNat =
      0xDC00 + (c.toNat - 0x10000) % 0x400 := by
    rw [UInt16.toNat_ofNat', Nat.mod_eq_of_lt (by omega)]
  refine ⟨_, _, if_neg (by omega), ?_, ?_⟩
  · omega
  · unfold pairValue
    omega

end Lib
