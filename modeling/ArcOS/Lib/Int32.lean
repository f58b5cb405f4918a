import Mathlib.Data.Nat.Bitwise
import Mathlib.Data.Int.Basic

/-!
`int`s that are not negative.

Below 2^31 the operations of `Int32` are those of the natural numbers, the arithmetic shift to the right
among them.
-/

namespace Lib

variable {m n k : ℕ}

lemma toInt_int32 (h : n < 2 ^ 31) : (Int32.ofNat n).toInt = n := Int32.toInt_ofNat_of_lt h

lemma int32_inj (hm : m < 2 ^ 31) (hn : n < 2 ^ 31) : Int32.ofNat m = Int32.ofNat n ↔ m = n := by
  rw [← Int32.toInt_inj, toInt_int32 hm, toInt_int32 hn, Int.natCast_inj]

lemma int32_le (hm : m < 2 ^ 31) (hn : n < 2 ^ 31) : Int32.ofNat m ≤ Int32.ofNat n ↔ m ≤ n := by
  rw [Int32.le_iff_toInt_le, toInt_int32 hm, toInt_int32 hn, Int.ofNat_le]

lemma int32_lt (hm : m < 2 ^ 31) (hn : n < 2 ^ 31) : Int32.ofNat m < Int32.ofNat n ↔ m < n := by
  rw [Int32.lt_iff_toInt_lt, toInt_int32 hm, toInt_int32 hn, Int.ofNat_lt]

lemma int32_and (m n : ℕ) : Int32.ofNat m &&& Int32.ofNat n = Int32.ofNat (m &&& n) := by
  apply Int32.toBitVec_inj.mp
  simp

lemma int32_or (m n : ℕ) : Int32.ofNat m ||| Int32.ofNat n = Int32.ofNat (m ||| n) := by
  apply Int32.toBitVec_inj.mp
  simp

lemma int32_add (m n : ℕ) : Int32.ofNat m + Int32.ofNat n = Int32.ofNat (m + n) :=
  (Int32.ofNat_add m n).symm

lemma int32_and_mask (n k : ℕ) : Int32.ofNat n &&& Int32.ofNat (2 ^ k - 1) = Int32.ofNat (n % 2 ^ k) := by
  rw [int32_and, Nat.and_two_pow_sub_one_eq_mod]

lemma smod_of_lt (hk : k < 32) : (Int32.ofNat k).toBitVec.smod 32 = BitVec.ofNat 32 k := by
  have hmsb : (BitVec.ofNat 32 k).msb = false := by
    rw [BitVec.msb_eq_false_iff_two_mul_lt, BitVec.toNat_ofNat]
    omega
  have h32 : (32 : BitVec 32).msb = false := by decide
  rw [Int32.toBitVec_ofNat', BitVec.smod_eq, hmsb, h32]
  apply BitVec.eq_of_toNat_eq
  simp
  omega

lemma int32_shiftLeft (hk : k < 32) (n : ℕ) :
    Int32.ofNat n <<< Int32.ofNat k = Int32.ofNat (n * 2 ^ k) := by
  apply Int32.toBitVec_inj.mp
  rw [Int32.toBitVec_shiftLeft, smod_of_lt hk]
  apply BitVec.eq_of_toNat_eq
  simp [Nat.shiftLeft_eq, Nat.mod_eq_of_lt (show k < 4294967296 by omega)]

lemma int32_shiftRight (hn : n < 2 ^ 31) (hk : k < 32) :
    Int32.ofNat n >>> Int32.ofNat k = Int32.ofNat (n / 2 ^ k) := by
  have hmsb : (BitVec.ofNat 32 n).msb = false := by
    rw [BitVec.msb_eq_false_iff_two_mul_lt, BitVec.toNat_ofNat]
    omega
  have hle : n / 2 ^ k ≤ n := Nat.div_le_self n _
  apply Int32.toBitVec_inj.mp
  rw [Int32.toBitVec_shiftRight, smod_of_lt hk]
  apply BitVec.eq_of_toNat_eq
  rw [Int32.toBitVec_ofNat', BitVec.toNat_sshiftRight'_of_msb_false hmsb, Int32.toBitVec_ofNat']
  simp only [BitVec.toNat_ofNat]
  rw [Nat.mod_eq_of_lt (by omega : n < 2 ^ 32), Nat.mod_eq_of_lt (by omega : k < 2 ^ 32),
    Nat.mod_eq_of_lt (by omega : n / 2 ^ k < 2 ^ 32), Nat.shiftRight_eq_div_pow]

end Lib
