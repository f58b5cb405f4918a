import Mathlib.Data.List.OfFn
import Mathlib.Data.List.GetD
import Mathlib.Tactic.Ring

/-!
Blocks of bytes, the little-endian numbers in them, and stretches of a stream of bytes.

A block is a function on the positions below its size, so that a block of the wrong size cannot be
built. A stretch of a stream `f` is the list `f a, f (a+1), …`; a piece copied out of a block is a
stretch of the stream the block holds a window of (`slice_eq_stretch`), and adjoining stretches
join (`stretch_add`).
-/

namespace Lib

/-- A block of `n` bytes. -/
abbrev Bytes (n : ℕ) := Fin n → UInt8

/-- The little-endian number of two bytes. -/
def le16 (b₀ b₁ : UInt8) : UInt16 := UInt16.ofNat (b₀.toNat + 256 * b₁.toNat)

/-- The little-endian number of four bytes. -/
def le32 (b₀ b₁ b₂ b₃ : UInt8) : UInt32 :=
  UInt32.ofNat (b₀.toNat + 256 * (b₁.toNat + 256 * (b₂.toNat + 256 * b₃.toNat)))

/-- Byte `k` of a number, from the low end. -/
def byteOf (v : UInt32) (k : ℕ) : UInt8 := UInt8.ofNat (v.toNat / 256 ^ k)

theorem le32_byteOf (v : UInt32) : le32 (byteOf v 0) (byteOf v 1) (byteOf v 2) (byteOf v 3) = v := by
  have hv := v.toNat_lt
  apply UInt32.toNat_inj.mp
  simp only [le32, byteOf, UInt8.toNat_ofNat', UInt32.toNat_ofNat']
  omega

/-- The bytes of a 16-bit number. -/
def bytes16 (v : UInt16) : List UInt8 := [UInt8.ofNat v.toNat, UInt8.ofNat (v.toNat / 256)]

/-- The bytes of a 32-bit number. -/
def bytes32 (v : UInt32) : List UInt8 := [byteOf v 0, byteOf v 1, byteOf v 2, byteOf v 3]

lemma le16_bytes (v : UInt16) : le16 (UInt8.ofNat v.toNat) (UInt8.ofNat (v.toNat / 256)) = v := by
  have hv := v.toNat_lt
  apply UInt16.toNat_inj.mp
  simp only [le16, UInt8.toNat_ofNat', UInt16.toNat_ofNat']
  omega

/-- The 16-bit number at `k` of a stream. -/
def word16 (f : ℕ → UInt8) (k : ℕ) : UInt16 := le16 (f k) (f (k + 1))

/-- The 32-bit number at `k` of a stream. -/
def word32 (f : ℕ → UInt8) (k : ℕ) : UInt32 := le32 (f k) (f (k + 1)) (f (k + 2)) (f (k + 3))

lemma word16_congr {f g : ℕ → UInt8} {j k : ℕ} (h : ∀ i < 2, f (j + i) = g (k + i)) :
    word16 f j = word16 g k := by
  unfold word16
  rw [h 1 (by omega)]
  exact congrArg (fun b => le16 b _) (h 0 (by omega))

lemma word32_congr {f g : ℕ → UInt8} {j k : ℕ} (h : ∀ i < 4, f (j + i) = g (k + i)) :
    word32 f j = word32 g k := by
  unfold word32
  rw [h 1 (by omega), h 2 (by omega), h 3 (by omega)]
  exact congrArg (fun b => le32 b _ _ _) (h 0 (by omega))

lemma word32_inj {f g : ℕ → UInt8} {j k : ℕ} (h : word32 f j = word32 g k) :
    ∀ i < 4, f (j + i) = g (k + i) := by
  have hlt : ∀ b : UInt8, b.toNat < 256 := fun b => b.toNat_lt
  have hn := congrArg UInt32.toNat h
  simp only [word32, le32, UInt32.toNat_ofNat'] at hn
  have h0 := hlt (f j)
  have h1 := hlt (f (j + 1))
  have h2 := hlt (f (j + 2))
  have h3 := hlt (f (j + 3))
  have h0' := hlt (g k)
  have h1' := hlt (g (k + 1))
  have h2' := hlt (g (k + 2))
  have h3' := hlt (g (k + 3))
  intro i hi
  apply UInt8.toNat_inj.mp
  obtain rfl | rfl | rfl | rfl : i = 0 ∨ i = 1 ∨ i = 2 ∨ i = 3 := by omega
  · simp only [Nat.add_zero]
    omega
  · omega
  · omega
  · omega

/-! ### Segments of a stream -/

/-- The bytes `f a, …, f (a + n - 1)`. -/
def stretch (f : ℕ → UInt8) (a n : ℕ) : List UInt8 := (List.range n).map fun i => f (a + i)

@[simp] lemma length_stretch (f : ℕ → UInt8) (a n : ℕ) : (stretch f a n).length = n := by
  simp [stretch]

@[simp] lemma stretch_zero (f : ℕ → UInt8) (a : ℕ) : stretch f a 0 = [] := rfl

theorem stretch_add (f : ℕ → UInt8) (a m n : ℕ) :
    stretch f a (m + n) = stretch f a m ++ stretch f (a + m) n := by
  simp [stretch, List.range_add, Nat.add_assoc]

lemma stretch_mono (f : ℕ → UInt8) (a : ℕ) {m n : ℕ} (h : m ≤ n) :
    stretch f a m <+: stretch f a n := by
  obtain ⟨k, rfl⟩ := Nat.exists_eq_add_of_le h
  rw [stretch_add]
  exact List.prefix_append _ _

lemma getElem_stretch (f : ℕ → UInt8) (a n i : ℕ) (h : i < (stretch f a n).length) :
    (stretch f a n)[i] = f (a + i) := by
  simp [stretch]

lemma getElem?_stretch (f : ℕ → UInt8) (a n i : ℕ) :
    (stretch f a n)[i]? = if i < n then some (f (a + i)) else none := by
  split
  · next h => simp [stretch, h]
  · next h => simp [stretch, h]

lemma stretch_congr {f g : ℕ → UInt8} {a b n : ℕ} (h : ∀ i < n, f (a + i) = g (b + i)) :
    stretch f a n = stretch g b n := by
  unfold stretch
  exact List.map_congr_left fun i hi => h i (List.mem_range.mp hi)

lemma take_stretch (f : ℕ → UInt8) (a n k : ℕ) :
    (stretch f a n).take k = stretch f a (min k n) := by
  simp [stretch, ← List.map_take, List.take_range]

theorem flatMap_stretch {α : Type*} (d : α) (g : α → ℕ → UInt8) {w : ℕ} (hw : 0 < w) :
    ∀ l : List α, l.flatMap (fun x => stretch (g x) 0 w) =
      stretch (fun p => g (l.getD (p / w) d) (p % w)) 0 (w * l.length)
  | [] => by simp
  | x :: l => by
    rw [List.flatMap_cons, flatMap_stretch d g hw l, List.length_cons, Nat.mul_succ, Nat.add_comm,
      stretch_add]
    congr 1
    · apply stretch_congr
      intro i hi
      simp [Nat.div_eq_of_lt hi, Nat.mod_eq_of_lt hi]
    · apply stretch_congr
      intro i _
      simp [Nat.add_div_left i hw]

/-! ### Pieces of a block -/

namespace Bytes

variable {n : ℕ}

/-- The `len` bytes from `off` on. What would lie behind the block is not delivered. -/
def slice (b : Bytes n) (off len : ℕ) : List UInt8 := ((List.ofFn b).drop off).take len

/-- The block that starts with the bytes of a list. -/
def ofList (n : ℕ) (l : List UInt8) : Bytes n := fun i => l.getD i 0

/-- The block with the bytes of a list laid over it from `off` on. -/
def write (b : Bytes n) (off : ℕ) (l : List UInt8) : Bytes n :=
  fun i => if off ≤ i ∧ i < off + l.length then l.getD (i - off) 0 else b i

/-- The little-endian 16-bit number at `off`. -/
def u16 (b : Bytes n) (off : ℕ) (h : off + 1 < n := by decide) : UInt16 :=
  le16 (b ⟨off, by omega⟩) (b ⟨off + 1, h⟩)

/-- The little-endian 32-bit number at `off`. -/
def u32 (b : Bytes n) (off : ℕ) (h : off + 3 < n := by decide) : UInt32 :=
  le32 (b ⟨off, by omega⟩) (b ⟨off + 1, by omega⟩) (b ⟨off + 2, by omega⟩) (b ⟨off + 3, h⟩)

lemma length_slice (b : Bytes n) {off len : ℕ} (h : off + len ≤ n) :
    (b.slice off len).length = len := by
  simp [slice]
  omega

theorem slice_eq_stretch {b : Bytes n} {f : ℕ → UInt8} {a off len : ℕ} (h : off + len ≤ n)
    (hb : ∀ i (hi : off + i < n), i < len → b ⟨off + i, hi⟩ = f (a + i)) :
    b.slice off len = stretch f a len := by
  apply List.ext_getElem (by rw [length_slice b h, length_stretch])
  intro i h₁ h₂
  rw [length_stretch] at h₂
  rw [getElem_stretch]
  simp only [slice, List.getElem_take, List.getElem_drop, List.getElem_ofFn]
  exact hb i (by omega) h₂

end Bytes
end Lib
