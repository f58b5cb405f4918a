import ArcOS.Fat.State
import ArcOS.Lib.Memory

/-!
The partition that the bootloader and the kernel read from.

Stage 1 copies the entry that the MBR hands over, stage 2 passes the copy's segment and offset to
`MBR_DetectPartition`, and the kernel calls the same function with the flat address of an entry of the
MBR it read itself. `samePartition_iff` says when both find the same partition.
-/

namespace ArcOS.Disk

open Lib Fat

/-! ### The routine -/

/-- `segoffset_to_linear` -/
def segoffsetToLinear (addr : UInt32) : UInt32 :=
  let offset := addr &&& 0xFFFF
  let segment := addr >>> 16
  segment * 16 + offset

/-- `MBR_DetectPartition`; the fields `lbaStart` and `size` of `MBR_Entry` are at 8 and 12. -/
def detectPartition (disk : Fat.Disk) (partition : UInt32) (m : Memory) : Partition :=
  if disk.id < 0x80 then
    ⟨disk, 0, disk.cylinders.toUInt32 * disk.heads.toUInt32 * disk.sectors.toUInt32⟩
  else
    let entry := m.view (segoffsetToLinear partition)
    ⟨disk, word32 entry 8, word32 entry 12⟩

/-! ### The bootloader -/

/-- The address of segment and offset in real mode. -/
def realMode (segment offset : UInt16) : UInt32 := segment.toUInt32 * 16 + offset.toUInt32

/-- `rep movsb` with the count in `cx` -/
def repMovsb (ds es : UInt16) : ℕ → UInt16 → UInt16 → Memory → Memory
  | 0, _, _, m => m
  | cx + 1, si, di, m =>
    repMovsb ds es cx (si + 1) (di + 1) (Function.update m (realMode es di) (m (realMode ds si)))

/-- `PARTITION_ENTRY_SEGMENT` -/
def partitionEntrySegment : UInt16 := 0x2000

/-- `PARTITION_ENTRY_OFFSET` -/
def partitionEntryOffset : UInt16 := 0x0

/-- What `entry.asm` of stage 2 pushes for a segment and an offset. -/
def pushedPartition (segment offset : UInt16) : UInt32 :=
  (segment.toUInt32 <<< 16) ||| offset.toUInt32

/-- The partition the bootloader gets from the entry that the MBR left at `ds:si`. -/
def bootPartition (disk : Fat.Disk) (ds si : UInt16) (m : Memory) : Partition :=
  let m := repMovsb ds partitionEntrySegment 16 si partitionEntryOffset m
  detectPartition disk (pushedPartition partitionEntrySegment partitionEntryOffset) m

/-! ### The kernel -/

/-- The partition the kernel gets, with the MBR read to `mbrBuffer`. -/
def kernelPartition (disk : Fat.Disk) (mbr : Bytes 512) (mbrBuffer : UInt32) (m : Memory) : Partition :=
  let m := m.store mbrBuffer (List.ofFn mbr)
  let entries := mbrBuffer + 446
  detectPartition disk entries m

/-! ### The entries of an MBR -/

/-- Byte `i` of entry `k`. -/
def entryByte (mbr : Bytes 512) (k : Fin 4) (i : ℕ) : UInt8 := (List.ofFn mbr).getD (446 + 16 * k + i) 0

/-- The MBR hands entry `k` over: it stands at `ds:si`, clear of the place stage 1 copies it to. -/
structure HandedOver (mbr : Bytes 512) (k : Fin 4) (ds si : UInt16) (m : Memory) : Prop where
  entry : ∀ i < 16, m (realMode ds (si + UInt16.ofNat i)) = entryByte mbr k i
  clear : ∀ i < 16, ∀ j < 16, realMode ds (si + UInt16.ofNat i) ≠
    realMode partitionEntrySegment (partitionEntryOffset + UInt16.ofNat j)

/-- Both start at the same sector and are of the same size. -/
def SamePartition (p q : Partition) : Prop :=
  p.partitionOffset = q.partitionOffset ∧ p.partitionSize = q.partitionSize

instance (p q : Partition) : Decidable (SamePartition p q) := by
  unfold SamePartition
  infer_instance

/-! ### What the bootloader finds -/

lemma add_one_ofNat (a : UInt16) (j : ℕ) : a + 1 + UInt16.ofNat j = a + UInt16.ofNat (j + 1) := by
  rw [UInt16.ofNat_add, UInt16.add_assoc, UInt16.add_comm 1]
  rfl

section Copy

variable {ds es : UInt16}

lemma repMovsb_of_ne {a : UInt32} : ∀ {n : ℕ} {si di : UInt16} {m : Memory},
    (∀ j < n, a ≠ realMode es (di + UInt16.ofNat j)) → repMovsb ds es n si di m a = m a
  | 0, _, _, _, _ => rfl
  | n + 1, si, di, m, h => by
    have hfirst : a ≠ realMode es di := by simpa using h 0 (by omega)
    have hrest : ∀ j < n, a ≠ realMode es (di + 1 + UInt16.ofNat j) := by
      intro j hj
      rw [add_one_ofNat]
      exact h (j + 1) (by omega)
    rw [repMovsb, repMovsb_of_ne hrest, Function.update_of_ne hfirst]

/-- **`rep movsb` copies** bytes that it does not write, to places that are distinct. -/
theorem repMovsb_copies : ∀ {n : ℕ} {si di : UInt16} {m : Memory},
    (∀ i < n, ∀ j < n, i ≠ j →
      realMode es (di + UInt16.ofNat i) ≠ realMode es (di + UInt16.ofNat j)) →
    (∀ i < n, ∀ j < n, realMode ds (si + UInt16.ofNat i) ≠ realMode es (di + UInt16.ofNat j)) →
    ∀ i < n, repMovsb ds es n si di m (realMode es (di + UInt16.ofNat i)) =
      m (realMode ds (si + UInt16.ofNat i))
  | 0, _, _, _, _, _ => fun i hi => absurd hi (Nat.not_lt_zero i)
  | n + 1, si, di, m, hdistinct, hclear => by
    intro i hi
    rw [repMovsb]
    cases i with
    | zero =>
      have hlater : ∀ j < n, realMode es di ≠ realMode es (di + 1 + UInt16.ofNat j) := by
        intro j hj
        rw [add_one_ofNat]
        simpa using hdistinct 0 (by omega) (j + 1) (by omega) (by omega)
      simp [repMovsb_of_ne hlater]
    | succ i =>
      have hsrc : realMode ds (si + UInt16.ofNat (i + 1)) ≠ realMode es di := by
        simpa using hclear (i + 1) hi 0 (by omega)
      have hrest : repMovsb ds es n (si + 1) (di + 1)
          (Function.update m (realMode es di) (m (realMode ds si)))
          (realMode es (di + 1 + UInt16.ofNat i)) =
          Function.update m (realMode es di) (m (realMode ds si))
            (realMode ds (si + 1 + UInt16.ofNat i)) := repMovsb_copies
        (fun i hi j hj hij => by
          rw [add_one_ofNat, add_one_ofNat]
          exact hdistinct (i + 1) (by omega) (j + 1) (by omega) (by omega))
        (fun i hi j hj => by
          rw [add_one_ofNat, add_one_ofNat]
          exact hclear (i + 1) (by omega) (j + 1) (by omega)) i (by omega)
      rw [add_one_ofNat, add_one_ofNat, Function.update_of_ne hsrc] at hrest
      exact hrest

end Copy

section Boot

variable {mbr : Bytes 512} {k : Fin 4} {ds si : UInt16} {m : Memory} {disk : Fat.Disk}

lemma detectPartition_hardDisk (hid : 0x80 ≤ disk.id) (p : UInt32) (m : Memory) :
    detectPartition disk p m = ⟨disk, word32 (m.view (segoffsetToLinear p)) 8,
      word32 (m.view (segoffsetToLinear p)) 12⟩ := by
  exact if_neg (UInt8.not_lt.mpr hid)

/-- Only the bytes of the partition entry matter. -/
lemma detectPartition_congr {m' : Memory} {p : UInt32} (hid : 0x80 ≤ disk.id)
    (h : ∀ i < 16, m'.view (segoffsetToLinear p) i = m.view (segoffsetToLinear p) i) :
    detectPartition disk p m' = detectPartition disk p m := by
  rw [detectPartition_hardDisk hid, detectPartition_hardDisk hid, word32_congr fun i hi => h (8 + i) (by omega),
    word32_congr fun i hi => h (12 + i) (by omega)]

/-- The bootloader gets the numbers of the entry that was handed over. -/
theorem bootPartition_eq (h : HandedOver mbr k ds si m) (hid : 0x80 ≤ disk.id) :
    bootPartition disk ds si m = ⟨disk, word32 (entryByte mbr k) 8, word32 (entryByte mbr k) 12⟩ := by
  have hplace : ∀ i < 16, segoffsetToLinear (pushedPartition partitionEntrySegment
      partitionEntryOffset) + UInt32.ofNat i =
        realMode partitionEntrySegment (partitionEntryOffset + UInt16.ofNat i) := by
    decide
  have hdistinct : ∀ i < 16, ∀ j < 16, i ≠ j →
      realMode partitionEntrySegment (partitionEntryOffset + UInt16.ofNat i) ≠
        realMode partitionEntrySegment (partitionEntryOffset + UInt16.ofNat j) := by
    decide
  have hcopy : ∀ i < 16, (repMovsb ds partitionEntrySegment 16 si partitionEntryOffset m).view
      (segoffsetToLinear (pushedPartition partitionEntrySegment partitionEntryOffset)) i =
        entryByte mbr k i := by
    intro i hi
    rw [Memory.view, hplace i hi, repMovsb_copies hdistinct h.clear i hi]
    exact h.entry i hi
  unfold bootPartition
  rw [detectPartition_hardDisk hid, word32_congr fun i hi => hcopy (8 + i) (by omega),
    word32_congr fun i hi => hcopy (12 + i) (by omega)]

end Boot

/-! ### What the kernel finds -/

lemma segoffsetToLinear_toNat (p : UInt32) :
    (segoffsetToLinear p).toNat = p.toNat / 65536 * 16 + p.toNat % 65536 := by
  have hp := p.toNat_lt
  have hoff : (p &&& 0xFFFF).toNat = p.toNat % 65536 := by
    rw [UInt32.toNat_and, show (0xFFFF : UInt32).toNat = 2 ^ 16 - 1 from rfl,
      Nat.and_two_pow_sub_one_eq_mod]
  have hseg : (p >>> 16).toNat = p.toNat / 65536 := by
    rw [UInt32.toNat_shiftRight, show (16 : UInt32).toNat % 32 = 16 from rfl,
      Nat.shiftRight_eq_div_pow]
  unfold segoffsetToLinear
  rw [UInt32.toNat_add, UInt32.toNat_mul, hoff, hseg, show (16 : UInt32).toNat = 16 from rfl]
  omega

lemma segoffsetToLinear_low {p : UInt32} (h : p < 0x10000) : segoffsetToLinear p = p := by
  have hp : p.toNat < 65536 := UInt32.lt_iff_toNat_lt.mp h
  apply UInt32.toNat_inj.mp
  rw [segoffsetToLinear_toNat]
  omega

section Kernel

variable {mbr : Bytes 512} {k : Fin 4} {ds si : UInt16} {m : Memory} {disk : Fat.Disk}
  {mbrBuffer : UInt32}

/-- Where the kernel's pointer leads, taken for a segment and an offset. -/
def kernelEntry (mbrBuffer : UInt32) : UInt32 := segoffsetToLinear (mbrBuffer + 446)

/-- The bytes there, once the MBR is read: those of the first entry, when the pointer is below 64 KiB,
and otherwise what memory held outside of the buffer. -/
def foundByte (mbr : Bytes 512) (mbrBuffer : UInt32) (m : Memory) (i : ℕ) : UInt8 :=
  if mbrBuffer + 446 < 0x10000 then entryByte mbr 0 i
  else m (kernelEntry mbrBuffer + UInt32.ofNat i)

/-- The byte the kernel reads is behind the buffer, or before it. -/
lemma kernelEntry_outside (h : ¬ mbrBuffer + 446 < 0x10000) {i : ℕ} (hi : i < 16) :
    512 ≤ Memory.offset mbrBuffer (kernelEntry mbrBuffer + UInt32.ofNat i) := by
  have hp : 65536 ≤ (mbrBuffer + 446).toNat := UInt32.le_iff_toNat_le.mp (UInt32.not_lt.mp h)
  have hlt := (mbrBuffer + 446).toNat_lt
  have hb := mbrBuffer.toNat_lt
  have hq := segoffsetToLinear_toNat (mbrBuffer + 446)
  have hbuffer : mbrBuffer.toNat + 446 = (mbrBuffer + 446).toNat := by
    rw [UInt32.toNat_add, show (446 : UInt32).toNat = 446 from rfl] at hp ⊢
    omega
  have hi32 : (UInt32.ofNat i).toNat = i := by
    rw [UInt32.toNat_ofNat', Nat.mod_eq_of_lt (by omega)]
  have hsum : (mbrBuffer + 446).toNat / 65536 * 16 + (mbrBuffer + 446).toNat % 65536 + i < 2 ^ 32 := by
    omega
  -- The address lies 65520 bytes for each segment before the pointer.
  have hseg : 1 ≤ (mbrBuffer + 446).toNat / 65536 ∧ (mbrBuffer + 446).toNat / 65536 ≤ 65535 := by
    omega
  unfold Memory.offset kernelEntry
  rw [UInt32.toNat_sub, UInt32.toNat_add, hq, hi32, Nat.mod_eq_of_lt hsum, Nat.mod_eq_of_lt (by omega)]
  omega

lemma kernel_view {i : ℕ} (hi : i < 16) :
    (m.store mbrBuffer (List.ofFn mbr)).view (kernelEntry mbrBuffer) i = foundByte mbr mbrBuffer m i := by
  unfold foundByte
  split
  · next h =>
    unfold kernelEntry entryByte
    rw [segoffsetToLinear_low h, show (446 : UInt32) = UInt32.ofNat 446 from rfl, Memory.view_shift,
      Memory.view_store _ _ _ (by rw [List.length_ofFn]; omega) (by omega)]
    rfl
  · next h =>
    apply Memory.store_of_le
    rw [List.length_ofFn]
    exact kernelEntry_outside h hi

theorem kernelPartition_eq (hid : 0x80 ≤ disk.id) :
    kernelPartition disk mbr mbrBuffer m =
      ⟨disk, word32 (foundByte mbr mbrBuffer m) 8, word32 (foundByte mbr mbrBuffer m) 12⟩ := by
  apply (detectPartition_hardDisk hid _ _).trans
  change (⟨disk, word32 ((m.store mbrBuffer (List.ofFn mbr)).view (kernelEntry mbrBuffer)) 8,
    word32 ((m.store mbrBuffer (List.ofFn mbr)).view (kernelEntry mbrBuffer)) 12⟩ : Partition) = _
  rw [word32_congr (j := 8) (k := 8) fun i hi => kernel_view (i := 8 + i) (by omega),
    word32_congr (j := 12) (k := 12) fun i hi => kernel_view (i := 12 + i) (by omega)]

end Kernel

/-! ### Agreement -/

lemma word32_pair_iff {f g : ℕ → UInt8} :
    (word32 f 8 = word32 g 8 ∧ word32 f 12 = word32 g 12) ↔ ∀ i < 8, f (8 + i) = g (8 + i) := by
  constructor
  · rintro ⟨h1, h2⟩ i hi
    by_cases h : i < 4
    · exact word32_inj h1 i h
    · have := word32_inj h2 (i - 4) (by omega)
      rwa [show 12 + (i - 4) = 8 + i by omega] at this
  · intro h
    exact ⟨word32_congr fun i hi => h i (by omega), word32_congr fun i hi => by
      have := h (4 + i) (by omega)
      rwa [show 8 + (4 + i) = 12 + i by omega] at this⟩

/-- **When kernel and bootloader use the same partition.** The MBR hands entry `k` over, and the kernel
reads the MBR to `mbrBuffer`. When its pointer to the first entry is below 64 KiB: exactly if that
entry has the start and size of entry `k`; else exactly if memory happens to hold these eight bytes at
the place that the pointer means as segment and offset. -/
theorem samePartition_iff (bootDisk kernelDisk : Fat.Disk) (hboot : 0x80 ≤ bootDisk.id)
    (hkernel : 0x80 ≤ kernelDisk.id) (mbr : Bytes 512) (k : Fin 4) (ds si : UInt16) (m : Memory)
    (h : HandedOver mbr k ds si m) (mbrBuffer : UInt32) (m' : Memory) :
    SamePartition (kernelPartition kernelDisk mbr mbrBuffer m') (bootPartition bootDisk ds si m) ↔
      if mbrBuffer + 446 < 0x10000 then ∀ i < 8, entryByte mbr 0 (8 + i) = entryByte mbr k (8 + i)
      else ∀ i < 8, m' (segoffsetToLinear (mbrBuffer + 446) + UInt32.ofNat (8 + i)) =
        entryByte mbr k (8 + i) := by
  rw [kernelPartition_eq hkernel, bootPartition_eq h hboot]
  apply word32_pair_iff.trans
  unfold foundByte
  split
  · exact Iff.rfl
  · exact Iff.rfl

/-- An MBR with a partition of 100 sectors from 63 on, and one of 200 sectors from 2048 on. -/
def twoPartitions : Bytes 512 := fun i =>
  if i.val = 454 then 63 else if i.val = 458 then 100
  else if i.val = 471 then 8 else if i.val = 474 then 200 else 0

/-- Memory with that MBR at `7C00`. -/
def withMbr : Memory := Memory.store (fun _ => 0) 0x7C00 (List.ofFn twoPartitions)

/-- A hard disk of 4 cylinders. -/
def hardDisk : Fat.Disk := ⟨0x80, 4, 63, 16⟩

lemma withMbr_handedOver : HandedOver twoPartitions 1 0 0x7DCE withMbr :=
  ⟨by decide +kernel, by decide +kernel⟩

/-- Booted from the second entry, with the kernel's buffer in low memory. -/
theorem samePartition_second :
    SamePartition (kernelPartition hardDisk twoPartitions 0xFD00 withMbr)
        (bootPartition hardDisk 0 0x7DCE withMbr) ↔
      if (0xFD00 : UInt32) + 446 < 0x10000 then
        ∀ i < 8, entryByte twoPartitions 0 (8 + i) = entryByte twoPartitions 1 (8 + i)
      else ∀ i < 8, withMbr (segoffsetToLinear (0xFD00 + 446) + UInt32.ofNat (8 + i)) =
        entryByte twoPartitions 1 (8 + i) :=
  samePartition_iff hardDisk hardDisk (by decide) (by decide) twoPartitions 1 0 0x7DCE withMbr
    withMbr_handedOver 0xFD00 withMbr

/-- Booted from the second entry, the kernel takes the first one; booted from the first, with its
buffer above 64 KiB, it takes bytes outside of the buffer. -/
theorem partitions_differ :
    ¬ SamePartition (kernelPartition hardDisk twoPartitions 0xFD00 withMbr)
        (bootPartition hardDisk 0 0x7DCE withMbr) ∧
    ¬ SamePartition (kernelPartition hardDisk twoPartitions 0x90000 withMbr)
        (bootPartition hardDisk 0 0x7DBE withMbr) := by
  constructor <;> decide +kernel

end ArcOS.Disk
