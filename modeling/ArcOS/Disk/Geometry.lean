import ArcOS.Disk.Polling

/-!
The geometry that the kernel keeps of its disk, and the divisions by it.

`Hard_DISK_Initialize` stores the words 1, 3 and 6 of the IDENTIFY response as they are, and
`Kernel_DISK_ReadSectors` divides by two of them before every read, whatever the read then uses.
-/

namespace ArcOS.Disk

/-! ### The response -/

lemma le16_byteOfWord (w : UInt16) : Lib.le16 w.toUInt8 (w >>> 8).toUInt8 = w := by
  have hw := w.toNat_lt
  apply UInt16.toNat_inj.mp
  simp only [Lib.le16, UInt16.toNat_ofNat', UInt16.toNat_toUInt8, UInt16.toNat_shiftRight,
    UInt16.reduceToNat, Nat.reduceMod, Nat.shiftRight_eq_div_pow]
  omega

lemma word16_readWords (a : Answers) (b : Bus) (buffer : ℕ → UInt8) (s : Cursor) {i : ℕ}
    (hi : i < 256) :
    Lib.word16 (readWords a.io b.base 256 0 (buffer, s)).1 (2 * i) = a.data (s.words + i) := by
  have hlow : 0 ≤ 2 * i ∧ 2 * i < 0 + 2 * 256 := by omega
  have hhigh : 0 ≤ 2 * i + 1 ∧ 2 * i + 1 < 0 + 2 * 256 := by omega
  have hindex : (2 * i + 1) / 2 = i := by omega
  have heven : 2 * i % 2 = 0 := by omega
  have hodd : ¬ (2 * i + 1) % 2 = 0 := by omega
  rw [readWords_eq, Lib.word16]
  simp only [if_pos hlow, if_pos hhigh, Nat.sub_zero, wordAt_answers, byteOfWord, if_pos heven,
    if_neg hodd, hindex, Nat.mul_div_cancel_left i (Nat.succ_pos 1)]
  exact le16_byteOfWord _

/-- The record that `Hard_DISK_Initialize` fills from a response. -/
def identified (disk : Fat.Disk) (response : ℕ → UInt16) : Fat.Disk :=
  { disk with cylinders := response 1, heads := response 3, sectors := response 6 }

lemma hardDiskInitialize_record {a : Answers} {fuel : ℕ} {disk disk' : Fat.Disk}
    {buffer : ℕ → UInt8} {s s' : Cursor}
    (h : hardDiskInitialize a.io fuel disk buffer s = some (true, disk', s')) :
    disk' = identified disk fun i => a.data (s.words + i) := by
  obtain ⟨⟨ok, buffer', t⟩, hread, hrecord⟩ := Option.map_eq_some_iff.mp h
  rw [diskRead_answers] at hread
  obtain ⟨u, hwait, hread⟩ := Option.bind_eq_some_iff.mp hread
  obtain ⟨m, -, -, rfl⟩ := (ataWaitBsy_eq_some_iff a _).mp hwait
  obtain ⟨⟨buffer'', v⟩, hsectors, hok⟩ := Option.map_eq_some_iff.mp hread
  cases hok
  -- the one sector of the response
  rw [show (1 : UInt8).toNat = 0 + 1 from rfl, readSectors, Option.bind_eq_some_iff] at hsectors
  obtain ⟨w, hbsy, hsectors⟩ := hsectors
  obtain ⟨x, hdrq, hsectors⟩ := Option.bind_eq_some_iff.mp hsectors
  obtain ⟨k, -, -, rfl⟩ := (ataWaitBsy_eq_some_iff a _).mp hbsy
  obtain ⟨l, -, -, rfl⟩ := (ataWaitDrq_eq_some_iff a _).mp hdrq
  rw [readSectors, Option.some.injEq, Nat.zero_mul] at hsectors
  simp only at hrecord
  split_ifs at hrecord
  · cases hrecord
    have hword : ∀ i < 256, Lib.word16 buffer'' (2 * i) = a.data (s.words + i) := by
      intro i hi
      have hbuffer := congrArg Prod.fst hsectors
      simp only at hbuffer
      rw [← hbuffer]
      exact word16_readWords a _ buffer _ hi
    simp only [identified]
    rw [hword 1 (by decide), hword 3 (by decide), hword 6 (by decide)]
  · cases hrecord

/-! ### The reads behind it -/

/-- A call of `Kernel_DISK_ReadSectors`. -/
structure ReadCall where
  lba : UInt32
  sectors : UInt8
  dataOut : ℕ → UInt8
  isIdentify : Bool

section

variable {σ : Type*} (io : Ports σ)

/-- Calls of `Kernel_DISK_ReadSectors` one behind the other, up to one that does not return. -/
def kernelReadAll (fuel : ℕ) (disk : Fat.Disk) : List ReadCall → σ → Except Stop σ
  | [], s => .ok s
  | c :: calls, s =>
    match kernelDiskReadSectors io fuel disk c.lba c.sectors c.dataOut c.isIdentify s with
    | .error stop => .error stop
    | .ok (_, _, s) => kernelReadAll fuel disk calls s

variable {io}

/-- The attempts to read divide by nothing. -/
lemma kernelReadAttempts_ne (fuel : ℕ) (disk : Fat.Disk) (lba : UInt32) (sectors : UInt8)
    (isIdentify : Bool) (left : ℕ) (dataOut : ℕ → UInt8) (s : σ) :
    kernelReadAttempts io fuel disk lba sectors isIdentify left dataOut s ≠
      .error .divideByZero := by
  induction left generalizing dataOut s with
  | zero => rintro ⟨⟩
  | succ left ih =>
    rw [kernelReadAttempts]
    split_ifs
    · rintro ⟨⟩
    · cases hread : diskRead io fuel disk lba sectors dataOut isIdentify s with
      | none => rintro ⟨⟩
      | some r =>
        obtain ⟨ok, dataOut', s'⟩ := r
        cases ok with
        | true => rintro ⟨⟩
        | false => exact ih dataOut' s'

lemma kernelDiskReadSectors_divides_iff (fuel : ℕ) (disk : Fat.Disk) (lba : UInt32) (sectors : UInt8)
    (dataOut : ℕ → UInt8) (isIdentify : Bool) (s : σ) :
    kernelDiskReadSectors io fuel disk lba sectors dataOut isIdentify s = .error .divideByZero ↔
      disk.sectors = 0 ∨ disk.heads = 0 := by
  rw [kernelDiskReadSectors, diskLba2Chs]
  split_ifs with hzero
  · exact iff_of_true rfl hzero
  · exact iff_of_false (kernelReadAttempts_ne fuel disk lba sectors isIdentify 3 dataOut s) hzero

/-- No sequence of calls divides by zero if and only if the geometry has no zero. -/
lemma kernelReadAll_divides_iff (disk : Fat.Disk) (s : σ) :
    (∀ fuel calls, kernelReadAll io fuel disk calls s ≠ .error .divideByZero) ↔
      disk.heads ≠ 0 ∧ disk.sectors ≠ 0 := by
  constructor
  · intro h
    have hcall := h 0 [{ lba := 0, sectors := 1, dataOut := fun _ => 0, isIdentify := false }]
    by_contra hzero
    have hdivides : kernelDiskReadSectors io 0 disk 0 1 (fun _ => 0) false s = .error .divideByZero :=
      (kernelDiskReadSectors_divides_iff 0 disk 0 1 _ false s).mpr (by tauto)
    rw [kernelReadAll, hdivides] at hcall
    exact hcall rfl
  · rintro ⟨hheads, hsectors⟩ fuel calls
    induction calls generalizing s with
    | nil => rintro ⟨⟩
    | cons c calls ih =>
      rw [kernelReadAll]
      cases hcall : kernelDiskReadSectors io fuel disk c.lba c.sectors c.dataOut c.isIdentify s with
      | error stop =>
        rintro ⟨⟩
        rcases (kernelDiskReadSectors_divides_iff fuel disk c.lba c.sectors c.dataOut c.isIdentify
          s).mp hcall with hzero | hzero
        · exact hsectors hzero
        · exact hheads hzero
      | ok r => exact ih r.2.2

end

/-- **When the kernel's reads divide by zero.** After an initialisation that returned true, no sequence
of reads divides by zero if and only if the disk is a floppy, or the words 3 and 6 of the IDENTIFY
response are not 0. -/
theorem kernel_divides_iff {a : Answers} {fuel : ℕ} {disk disk' : Fat.Disk} {driveNumber : UInt8}
    {buffer : ℕ → UInt8} {s s' : Cursor}
    (h : kernelDiskInitialize a.io fuel disk driveNumber buffer s = some (true, disk', s')) :
    (∀ fuel calls, kernelReadAll a.io fuel disk' calls s' ≠ .error .divideByZero) ↔
      driveNumber < 0x80 ∨ (a.data (s.words + 3) ≠ 0 ∧ a.data (s.words + 6) ≠ 0) := by
  rw [kernelReadAll_divides_iff]
  rw [kernelDiskInitialize] at h
  split_ifs at h with hfloppy
  · cases h
    have hgeometry : (2 : UInt16) ≠ 0 ∧ (18 : UInt16) ≠ 0 := by decide
    exact iff_of_true hgeometry (Or.inl hfloppy)
  · rw [hardDiskInitialize_record h]
    simp only [identified]
    exact ⟨Or.inr, fun hwords => hwords.resolve_left hfloppy⟩

/-- A drive that is always ready, with a response to IDENTIFY. -/
def readyDrive (response : ℕ → UInt16) : Answers where
  status _ := 0x58
  data := response

lemma readyDrive_accepted (response : ℕ → UInt16) (disk : Fat.Disk) (buffer : ℕ → UInt8) :
    ∃ disk' s', kernelDiskInitialize (readyDrive response).io 1 disk 0x80 buffer
      { polls := 0, words := 0, command := 0 } = some (true, disk', s') := by
  have hready : (0x58 : UInt8) &&& ataSrBsy = 0 := by decide
  have hrequests : ¬ (0x58 : UInt8) &&& ataSrDrq = 0 := by decide
  have herr : ((0x58 : UInt8) &&& ataSrErr == 0) = true := by decide
  have hwait : ∀ (b : Bus) (s : Cursor), ataWaitBsy (readyDrive response).io b.base 1 s =
      some { s with polls := s.polls + 1 } := by
    intro b s
    simp [ataWaitBsy, readyDrive, hready]
  have hwait' : ∀ (b : Bus) (s : Cursor), ataWaitDrq (readyDrive response).io b.base 1 s =
      some { s with polls := s.polls + 1 } := by
    intro b s
    simp [ataWaitDrq, readyDrive, hrequests]
  rw [kernelDiskInitialize, if_neg (show ¬ (0x80 : UInt8) < 0x80 by decide), hardDiskInitialize,
    diskRead_answers, hwait, Option.bind_some, show (1 : UInt8).toNat = 0 + 1 from rfl, readSectors,
    hwait, Option.bind_some, hwait', Option.bind_some, readSectors, Option.map_some, Option.map_some]
  simp only [readyDrive, herr, if_true]
  exact ⟨_, _, rfl⟩

/-- A drive that reports its old geometry. -/
theorem kernel_divides_iff_geometry : ∃ disk s',
    kernelDiskInitialize (readyDrive fun _ => 16).io 1 largeDisk 0x80 (fun _ => 0)
      { polls := 0, words := 0, command := 0 } = some (true, disk, s') ∧
    ∀ fuel calls, kernelReadAll (readyDrive fun _ => 16).io fuel disk calls s' ≠
      .error .divideByZero := by
  obtain ⟨disk, s', h⟩ := readyDrive_accepted (fun _ => 16) largeDisk fun _ => 0
  exact ⟨disk, s', h, (kernel_divides_iff h).mpr (Or.inr ⟨by decide, by decide⟩)⟩

/-- A drive that no longer reports its geometry: the first read divides by zero. -/
theorem no_geometry_divides : ∃ disk s',
    kernelDiskInitialize (readyDrive fun _ => 0).io 1 largeDisk 0x80 (fun _ => 0)
      { polls := 0, words := 0, command := 0 } = some (true, disk, s') ∧
    kernelReadAll (readyDrive fun _ => 0).io 1 disk
      [{ lba := 0, sectors := 1, dataOut := fun _ => 0, isIdentify := false }] s' =
        .error .divideByZero := by
  obtain ⟨disk, s', h⟩ := readyDrive_accepted (fun _ => 0) largeDisk fun _ => 0
  refine ⟨disk, s', h, ?_⟩
  rw [kernelDiskInitialize, if_neg (show ¬ (0x80 : UInt8) < 0x80 by decide)] at h
  have hzero : disk.sectors = 0 ∨ disk.heads = 0 := by
    rw [hardDiskInitialize_record h]
    exact Or.inl rfl
  rw [kernelReadAll, (kernelDiskReadSectors_divides_iff _ _ _ _ _ _ _).mpr hzero]

end ArcOS.Disk
