import ArcOS.Lib.Bytes

/-!
A flat memory of 2^32 bytes.

Addresses wrap around. A range is a base and a length, and `offset base a` is how far an address lies
behind a base; a store changes the bytes of its range and no others (`store_of_lt`, `store_of_le`).
-/

namespace Lib

abbrev Memory := UInt32 → UInt8

namespace Memory

/-- How far an address lies behind a base. -/
def offset (base a : UInt32) : ℕ := (a - base).toNat

/-- The bytes from an address on. -/
def view (m : Memory) (a : UInt32) : ℕ → UInt8 := fun k => m (a + UInt32.ofNat k)

/-- The memory with the bytes of a list laid over it from an address on. -/
def store (m : Memory) (base : UInt32) (bytes : List UInt8) : Memory := fun a =>
  if offset base a < bytes.length then bytes.getD (offset base a) 0 else m a

/-- The memory with `n` bytes set from an address on. -/
def fill (m : Memory) (base : UInt32) (value : UInt8) (n : ℕ) : Memory := fun a =>
  if offset base a < n then value else m a

variable {m : Memory} {base a : UInt32} {bytes : List UInt8} {n : ℕ}

lemma offset_lt (base a : UInt32) : offset base a < 2 ^ 32 := (a - base).toNat_lt

lemma add_offset (base a : UInt32) : base + UInt32.ofNat (offset base a) = a := by
  rw [offset, UInt32.ofNat_toNat]
  grind

lemma offset_add (base : UInt32) {k : ℕ} (hk : k < 2 ^ 32) : offset base (base + UInt32.ofNat k) = k := by
  have h : base + UInt32.ofNat k - base = UInt32.ofNat k := by grind
  rw [offset, h, UInt32.toNat_ofNat', Nat.mod_eq_of_lt hk]

lemma store_of_lt (h : offset base a < bytes.length) :
    m.store base bytes a = bytes.getD (offset base a) 0 := if_pos h

lemma store_of_le (h : bytes.length ≤ offset base a) : m.store base bytes a = m a :=
  if_neg (Nat.not_lt.mpr h)

lemma view_store (m : Memory) (base : UInt32) (bytes : List UInt8) {k : ℕ}
    (hk : k < bytes.length) (h32 : k < 2 ^ 32) :
    (m.store base bytes).view base k = bytes.getD k 0 := by
  unfold view
  rw [store_of_lt (by rw [offset_add base h32]; exact hk), offset_add base h32]

/-- Behind a base that is moved on, an address is as much closer, or around the end of the memory. -/
lemma offset_shift (base a : UInt32) {k : ℕ} (hk : k < 2 ^ 32) : offset (base + UInt32.ofNat k) a =
    if k ≤ offset base a then offset base a - k else offset base a + 2 ^ 32 - k := by
  have h : a - (base + UInt32.ofNat k) = a - base - UInt32.ofNat k := by grind
  have hlt := offset_lt base a
  unfold offset at hlt ⊢
  rw [h, UInt32.toNat_sub, UInt32.toNat_ofNat', Nat.mod_eq_of_lt hk]
  split <;> omega

lemma view_shift (m : Memory) (a : UInt32) (k j : ℕ) :
    m.view (a + UInt32.ofNat k) j = m.view a (k + j) := by
  unfold view
  rw [UInt32.ofNat_add, UInt32.add_assoc]

lemma store_store (m : Memory) (base : UInt32) (xs ys : List UInt8) (h : xs.length + ys.length ≤ 2 ^ 32)
    (hx : xs.length < 2 ^ 32) :
    (m.store base xs).store (base + UInt32.ofNat xs.length) ys = m.store base (xs ++ ys) := by
  funext a
  have hlt := offset_lt base a
  have hs := offset_shift base a hx
  split at hs
  · next hle =>
    by_cases hy : offset base a < xs.length + ys.length
    · rw [store_of_lt (by omega), store_of_lt (by simpa using hy), hs]
      simp [List.getD_eq_getElem?_getD, List.getElem?_append_right hle]
    · rw [store_of_le (by omega), store_of_le hle, store_of_le (by simp; omega)]
  · next hlt' =>
    rw [store_of_le (by omega), store_of_lt (by omega), store_of_lt (by simp; omega)]
    simp [List.getD_eq_getElem?_getD, List.getElem?_append_left (by omega : offset base a < xs.length)]

lemma word32_store (m : Memory) (a v : UInt32) :
    word32 ((m.store a (bytes32 v)).view a) 0 = v := by
  have hbyte : ∀ k < 4, (m.store a (bytes32 v)).view a k = (bytes32 v).getD k 0 := fun k hk =>
    view_store m a _ hk (by omega)
  unfold word32
  rw [hbyte 0 (by omega), hbyte (0 + 1) (by omega), hbyte (0 + 2) (by omega), hbyte (0 + 3) (by omega)]
  exact le32_byteOf v

end Memory
end Lib
