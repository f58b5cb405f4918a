import ArcOS.Disk.Ata

/-!
The sectors that a PIO read delivers.

The loop over the words of a sector stores what the data register hands out; on the controller these
are the words of one sector after the other. From this follow the contents of the buffer after
`Disk_Read`, and what three attempts of `Kernel_DISK_ReadSectors` answer.
-/

namespace ArcOS.Disk

/-! ### The words of a sector -/

section Words

variable {σ : Type*} (io : Ports σ) (ioBase : UInt16)

/-- The state after some reads of the data register. -/
def afterWords (s : σ) : ℕ → σ
  | 0 => s
  | n + 1 => (io.inw (ioBase + ataRegData) (afterWords s n)).2

/-- The word that a read of the data register hands out. -/
def wordAt (s : σ) (n : ℕ) : UInt16 := (io.inw (ioBase + ataRegData) (afterWords io ioBase s n)).1

lemma afterWords_succ (s : σ) (n : ℕ) :
    afterWords io ioBase s (n + 1) = afterWords io ioBase (io.inw (ioBase + ataRegData) s).2 n := by
  induction n with
  | zero => rfl
  | succ n ih => rw [afterWords, ih, afterWords]

lemma wordAt_succ (s : σ) (n : ℕ) :
    wordAt io ioBase s (n + 1) = wordAt io ioBase (io.inw (ioBase + ataRegData) s).2 n := by
  rw [wordAt, afterWords_succ, wordAt]

/-- A byte of a word, the low one first. -/
def byteOfWord (w : UInt16) (i : ℕ) : UInt8 := if i % 2 = 0 then w.toUInt8 else (w >>> 8).toUInt8

lemma readWords_succ (n position : ℕ) (buffer : ℕ → UInt8) (s : σ) :
    readWords io ioBase (n + 1) position (buffer, s) =
      readWords io ioBase n (position + 2)
        (storeWord buffer position (io.inw (ioBase + ataRegData) s).1,
          (io.inw (ioBase + ataRegData) s).2) := rfl

/-- The loop over the words fills its part of the buffer with them and leaves the rest alone. -/
lemma readWords_eq (n position : ℕ) (buffer : ℕ → UInt8) (s : σ) :
    readWords io ioBase n position (buffer, s) =
      (fun p => if position ≤ p ∧ p < position + 2 * n then
          byteOfWord (wordAt io ioBase s ((p - position) / 2)) (p - position) else buffer p,
        afterWords io ioBase s n) := by
  induction n generalizing position buffer s with
  | zero =>
    refine Prod.ext (funext fun p => ?_) rfl
    have hempty : ¬ (position ≤ p ∧ p < position + 2 * 0) := by omega
    simp only [if_neg hempty]
    rfl
  | succ n ih =>
    rw [readWords_succ, ih, afterWords_succ]
    refine Prod.ext (funext fun p => ?_) rfl
    simp only [storeWord]
    by_cases hlater : position + 2 ≤ p
    · -- a word behind the first one, or a byte behind all words
      have hindex : (p - position) / 2 = (p - (position + 2)) / 2 + 1 := by omega
      have hparity : (p - position) % 2 = (p - (position + 2)) % 2 := by omega
      have hne : p ≠ position + 1 := by omega
      have hne' : p ≠ position := by omega
      have hinside : position + 2 ≤ p ∧ p < position + 2 + 2 * n ↔
          position ≤ p ∧ p < position + 2 * (n + 1) := by omega
      simp only [hinside, hindex, wordAt_succ, byteOfWord, hparity, Function.update_of_ne hne,
        Function.update_of_ne hne']
    · rw [if_neg (by omega)]
      obtain hp | rfl | rfl : p < position ∨ p = position ∨ p = position + 1 := by omega
      · rw [if_neg (by omega), Function.update_of_ne (by omega), Function.update_of_ne (by omega)]
      · rw [if_pos (by omega), Function.update_of_ne (by omega), Function.update_self]
        simp [byteOfWord, wordAt, afterWords]
      · rw [if_pos (by omega), Function.update_self]
        simp [byteOfWord, wordAt, afterWords]

end Words

/-! ### The sectors of a drive -/

section Run

variable (d : Drives) (b : Bus) {s : Controller}

/-- A byte of the sectors from an LBA on. -/
def sectorByte (slave : Bool) (lba i : ℕ) : UInt8 :=
  byteOfWord (d.content b slave (lba + i / 512) (i % 512 / 2)) i

lemma afterWords_sector (hbusy : (s.channel b).busy = 0) (hleft : 0 < (s.channel b).left)
    (hword : (s.channel b).word = 0) {n : ℕ} (hn : n ≤ 255) :
    afterWords d.io b.base s n = s.modify b fun c => { c with word := n } := by
  induction n with
  | zero =>
    refine (s.modify_self b _ ?_).symm
    rw [← hword]
  | succ n ih =>
    have hmore : n < 255 := by omega
    rw [afterWords, ih (by omega), io_inw_data, Drives.data]
    simp only [Controller.modify_channel, hbusy, hleft, hmore, and_self, if_true,
      Controller.modify_modify]
    rfl

lemma wordAt_sector (hbusy : (s.channel b).busy = 0) (hleft : 0 < (s.channel b).left)
    (hword : (s.channel b).word = 0) {n : ℕ} (hn : n ≤ 255) :
    wordAt d.io b.base s n = d.content b (s.channel b).slave (s.channel b).lba n := by
  rw [wordAt, afterWords_sector d b hbusy hleft hword hn, io_inw_data, Drives.data]
  simp [hbusy, hleft]

lemma nextSector_place (hmore : 1 < (s.channel b).left) :
    ((d.nextSector b s).channel b).lba = (s.channel b).lba + 1 ∧
      ((d.nextSector b s).channel b).slave = (s.channel b).slave := by
  rw [Drives.nextSector, if_pos hmore]
  simp [Controller.modify]

lemma nextSector_busy (hlast : (s.channel b).left ≤ 1) :
    ((d.nextSector b s).channel b).busy = (s.channel b).busy := by
  rw [Drives.nextSector, if_neg (by omega)]
  simp

lemma sectorByte_next (slave : Bool) (lba i : ℕ) :
    sectorByte d b slave lba (i + 512) = sectorByte d b slave (lba + 1) i := by
  have hparity : (i + 512) % 2 = i % 2 := by omega
  have hnext : lba + (i / 512 + 1) = lba + 1 + i / 512 := by omega
  rw [sectorByte, sectorByte, Nat.add_div_right _ (by decide), Nat.add_mod_right, byteOfWord, byteOfWord,
    hparity, hnext]

lemma readWords_sector (hbusy : (s.channel b).busy = 0) (hleft : 0 < (s.channel b).left)
    (hword : (s.channel b).word = 0) (sector : ℕ) (buffer : ℕ → UInt8) (p : ℕ) :
    (readWords d.io b.base 256 (sector * 512) (buffer, s)).1 p =
      if sector * 512 ≤ p ∧ p < (sector + 1) * 512 then
        sectorByte d b (s.channel b).slave (s.channel b).lba (p - sector * 512) else buffer p := by
  rw [readWords_eq]
  have hinside : sector * 512 ≤ p ∧ p < sector * 512 + 2 * 256 ↔
      sector * 512 ≤ p ∧ p < (sector + 1) * 512 := by omega
  simp only [hinside]
  split_ifs with hp
  · rw [wordAt_sector d b hbusy hleft hword (by omega), sectorByte,
      Nat.div_eq_of_lt (a := p - sector * 512) (b := 512) (by omega),
      Nat.mod_eq_of_lt (a := p - sector * 512) (b := 512) (by omega), Nat.add_zero]
  · rfl

lemma sector_split (sector n p : ℕ) : sector * 512 ≤ p ∧ p < (sector + (n + 1)) * 512 ↔
    (sector * 512 ≤ p ∧ p < (sector + 1) * 512) ∨
      ((sector + 1) * 512 ≤ p ∧ p < (sector + 1 + n) * 512) := by
  omega

/-- **The loop over the sectors** ends, fills its part of the buffer with the sectors that the command
has left, and leaves the drive ready. -/
lemma readSectors_delivers {n : ℕ} (hn : (s.channel b).left = n) (hword : (s.channel b).word = 0)
    (hidle : n = 0 → (s.channel b).busy = 0) (sector : ℕ) (buffer : ℕ → UInt8) :
    ∃ fuel₀ buffer' s', (∀ fuel, fuel₀ ≤ fuel →
        readSectors d.io fuel b.base n sector (buffer, s) = some (buffer', s')) ∧
      (∀ p, buffer' p = if sector * 512 ≤ p ∧ p < (sector + n) * 512 then
        sectorByte d b (s.channel b).slave (s.channel b).lba (p - sector * 512) else buffer p) ∧
      ((s'.channel b).busy = 0 ∧ (s'.channel b).left = 0) ∧
      (s'.channel b).err = (s.channel b).err ∧ s'.served = s.served := by
  induction n generalizing s sector buffer with
  | zero =>
    refine ⟨0, buffer, s, fun _ _ => rfl, fun p => ?_, ⟨hidle rfl, hn⟩, rfl, rfl⟩
    rw [if_neg (by omega)]
  | succ n ih =>
    -- BSY is waited for, and the sector is read
    obtain ⟨t, ht⟩ : ∃ t, t = s.modify b fun c => { c with busy := 0 } := ⟨_, rfl⟩
    have htleft : (t.channel b).left = (s.channel b).left := by simp [ht]
    have htword : (t.channel b).word = 0 := by simp [ht, hword]
    have htbusy : (t.channel b).busy = 0 := by simp [ht]
    have htplace : (t.channel b).lba = (s.channel b).lba ∧ (t.channel b).slave = (s.channel b).slave ∧
        (t.channel b).err = (s.channel b).err := by simp [ht]
    obtain ⟨hleft', hword', herr', hserved'⟩ := nextSector_channel d b t
    have hfirst := readWords_sector d b htbusy (by omega) htword sector buffer
    rw [htplace.1, htplace.2.1] at hfirst
    obtain ⟨fuel₀, buffer', s', hrun, hbuffer, hready, herr, hserved⟩ := ih
      (by rw [hleft']; omega) hword' (fun hzero => (nextSector_busy d b (by omega)).trans htbusy)
      (sector + 1) (readWords d.io b.base 256 (sector * 512) (buffer, t)).1
    refine ⟨max fuel₀ ((s.channel b).busy + 1), buffer', s', fun fuel hfuel => ?_, fun p => ?_, hready,
      herr.trans (herr'.trans htplace.2.2), hserved.trans (hserved'.trans (by simp [ht]))⟩
    · rw [readSectors_succ d b (by omega) hword (by omega), ← ht]
      exact hrun fuel (by omega)
    · rw [hbuffer, hfirst, if_congr (sector_split sector n p) rfl rfl]
      by_cases hlater : (sector + 1) * 512 ≤ p ∧ p < (sector + 1 + n) * 512
      · -- the byte is in a later sector, so there is one
        obtain ⟨hlba, hslave⟩ := nextSector_place d b (s := t) (by omega)
        have hshift : p - sector * 512 = p - (sector + 1) * 512 + 512 := by omega
        rw [if_pos hlater, if_pos (Or.inr hlater), hlba, hslave, htplace.1, htplace.2.1, hshift,
          sectorByte_next]
      · rw [if_neg hlater]
        by_cases hhere : sector * 512 ≤ p ∧ p < (sector + 1) * 512
        · rw [if_pos hhere, if_pos (Or.inl hhere)]
        · rw [if_neg hhere, if_neg (not_or.mpr ⟨hhere, hlater⟩)]

end Run

/-! ### Reads -/

/-- The channel and the unit that a drive number stands for: two units a channel, from 0x80 on. -/
def driveUnit (id : UInt8) : Bus × Bool :=
  (if id.toNat - 0x80 < 2 then .primary else .secondary, (id.toNat - 0x80) % 2 == 1)

lemma readFile_slave (disk : Fat.Disk) (lba : UInt32) (sectors : UInt8) :
    (readFile disk lba sectors).slave = (disk.id.toNat % 2 == 1) := by
  have hid : (disk.id.toNat * 16 % 256).testBit 4 = (disk.id.toNat % 2 == 1) := by
    have hbit : disk.id.toNat * 16 % 256 / 16 % 2 = disk.id.toNat % 2 := by omega
    simp [Nat.testBit_eq_decide_div_mod_eq, hbit]
    rfl
  have hlow : (lba.toNat / 2 ^ 24 % 16).testBit 4 = false :=
    Nat.testBit_lt_two_pow (Nat.mod_lt _ (by decide))
  have hslave : (readFile disk lba sectors).slave =
      (readFile disk lba sectors).device.toNat.testBit 4 := by
    simp [TaskFile.slave, Nat.testBit_eq_decide_div_mod_eq]
    rfl
  rw [hslave, readFile_device_toNat, Nat.testBit_or, Nat.testBit_or, hid, hlow,
    show Nat.testBit 0xE0 4 = false from rfl]
  simp

lemma readFile_unit {disk : Fat.Disk} (hid : 0x80 ≤ disk.id) (lba : UInt32) (sectors : UInt8) :
    (busOf disk.id, (readFile disk lba sectors).slave) = driveUnit disk.id := by
  have hle : 0x80 ≤ disk.id.toNat := UInt8.le_iff_toNat_le.mp hid
  have hbus : disk.id < 0x82 ↔ disk.id.toNat - 0x80 < 2 := by
    simp only [UInt8.lt_iff_toNat_lt, UInt8.reduceToNat]
    omega
  have hparity : disk.id.toNat % 2 = (disk.id.toNat - 0x80) % 2 := by omega
  rw [readFile_slave, busOf, driveUnit, if_congr hbus rfl rfl, hparity]

section Read

variable (d : Drives) (disk : Fat.Disk) (lba : UInt32) (sectors : UInt8)

/-- The buffer after a read: the sectors of the unit of the drive number, and what was behind them. -/
def readBuffer (buffer : ℕ → UInt8) (i : ℕ) : UInt8 :=
  if i < sectors.toNat * 512 then
    sectorByte d (driveUnit disk.id).1 (driveUnit disk.id).2 lba.toNat i
  else buffer i

lemma readBuffer_readBuffer (buffer : ℕ → UInt8) :
    readBuffer d disk lba sectors (readBuffer d disk lba sectors buffer) =
      readBuffer d disk lba sectors buffer := by
  funext i
  unfold readBuffer
  split_ifs <;> rfl

variable {disk lba sectors}

/-- `Disk_Read` ends, has the sectors read from the unit of the drive number, and returns whether the
command did without the error bit. -/
lemma diskRead_delivers (hid : 0x80 ≤ disk.id) (hlba : lba.toNat + sectors.toNat ≤ 2 ^ 28)
    (hsectors : 1 ≤ sectors.toNat) (buffer : ℕ → UInt8) (s : Controller) :
    ∃ fuel₀ s', (∀ fuel, fuel₀ ≤ fuel →
        diskRead d.io fuel disk lba sectors buffer false s =
          some (!d.fails s.served.length, readBuffer d disk lba sectors buffer, s')) ∧
      s'.served = { bus := busOf disk.id, file := readFile disk lba sectors } :: s.served := by
  obtain ⟨t, ht⟩ : ∃ t, t = issued d disk lba sectors s := ⟨_, rfl⟩
  have hcount : ¬ sectors = 0 := by
    rintro rfl
    exact absurd hsectors (by decide)
  have hleft : (t.channel (busOf disk.id)).left = sectors.toNat := by
    simp [ht, issued, Drives.start, TaskFile.sectors, readFile, hcount]
  have hplace : (t.channel (busOf disk.id)).lba = lba.toNat ∧
      (t.channel (busOf disk.id)).slave = (readFile disk lba sectors).slave := by
    simp [ht, issued, Drives.start, readFile_lba]
    omega
  have hunit := readFile_unit hid lba sectors
  obtain ⟨fuel₀, buffer', s', hrun, hbuffer, ⟨hbusy, hnone⟩, herr, hserved⟩ := readSectors_delivers d
    (busOf disk.id) hleft (by simp [ht, issued, Drives.start]) (by omega) 0 buffer
  have herr' : (s'.channel (busOf disk.id)).err = d.fails s.served.length := by
    rw [herr, ht]
    simp [issued, Drives.start]
  have hstatus : ((s'.channel (busOf disk.id)).status &&& ataSrErr == 0) =
      !d.fails s.served.length := by
    rw [← herr', Channel.status, if_neg (by omega), if_neg (by omega)]
    cases (s'.channel (busOf disk.id)).err <;> rfl
  have hcontent : buffer' = readBuffer d disk lba sectors buffer := by
    funext i
    rw [hbuffer, readBuffer, ← hunit, hplace.1, hplace.2]
    simp
  refine ⟨max fuel₀ ((s.channel (busOf disk.id)).busy + 1), s'.modify (busOf disk.id) .poll,
    fun fuel hfuel => ?_, ?_⟩
  · rw [diskRead_issued d disk lba sectors buffer (by omega), ← ht, hrun fuel (by omega),
      Option.map_some, hstatus, hcontent]
  · rw [Controller.modify_served, hserved, ht]
    simp [issued, Drives.start]

/-- The attempts of `Kernel_DISK_ReadSectors`: true if and only if a command among them does without
the error bit, and then the buffer has the sectors. -/
lemma kernelReadAttempts_delivers (hid : 0x80 ≤ disk.id)
    (hlba : lba.toNat + sectors.toNat ≤ 2 ^ 28) (hsectors : 1 ≤ sectors.toNat) (left : ℕ)
    (dataOut : ℕ → UInt8) (s : Controller) :
    ∃ fuel₀ ok dataOut' s', (∀ fuel, fuel₀ ≤ fuel →
        kernelReadAttempts d.io fuel disk lba sectors false left dataOut s =
          .ok (ok, dataOut', s')) ∧
      (ok = true ↔ ∃ j < left, d.fails (s.served.length + j) = false) ∧
      (ok = true → dataOut' = readBuffer d disk lba sectors dataOut) := by
  have hhard : ¬ disk.id < 0x80 := UInt8.not_lt.mpr hid
  induction left generalizing dataOut s with
  | zero => exact ⟨0, false, dataOut, s, fun _ _ => rfl, by simp, by simp⟩
  | succ left ih =>
    obtain ⟨fuel₀, s', hread, hserved⟩ := diskRead_delivers d hid hlba hsectors dataOut s
    cases hfails : d.fails s.served.length with
    | false =>
      refine ⟨fuel₀, true, readBuffer d disk lba sectors dataOut, s', fun fuel hfuel => ?_, ?_,
        fun _ => rfl⟩
      · simp only [kernelReadAttempts, if_neg hhard, hread fuel hfuel, hfails, Bool.not_false]
      · exact iff_of_true rfl ⟨0, Nat.succ_pos _, hfails⟩
    | true =>
      obtain ⟨fuel₁, ok, dataOut', s'', hrest, hok, hbuffer⟩ :=
        ih (readBuffer d disk lba sectors dataOut) s'
      refine ⟨max fuel₀ fuel₁, ok, dataOut', s'', fun fuel hfuel => ?_, ?_, fun htrue => ?_⟩
      · simp only [kernelReadAttempts, if_neg hhard, hread fuel (by omega), hfails, Bool.not_true]
        exact hrest fuel (by omega)
      · -- the first command fails, so a command that does not is among the others
        have hlength : s'.served.length = s.served.length + 1 := by simp [hserved]
        rw [hok, hlength]
        constructor
        · rintro ⟨j, hj, hnot⟩
          exact ⟨j + 1, Nat.succ_lt_succ hj, by rwa [Nat.add_comm j, ← Nat.add_assoc]⟩
        · rintro ⟨j, hj, hnot⟩
          cases j with
          | zero => rw [Nat.add_zero, hfails] at hnot; cases hnot
          | succ j => exact ⟨j, Nat.lt_of_succ_lt_succ hj, by rwa [Nat.add_assoc, Nat.add_comm 1]⟩
      · rw [hbuffer htrue, readBuffer_readBuffer]

/-- **PIO reads deliver the right sectors.** For the drive numbers of the four units and a request
inside the 28 bits, `Disk_Read` ends, has its command taken by the channel and unit of the drive number,
fills the buffer with the sectors from the LBA on and writes nothing behind them; it returns true if
and only if the command did without the error bit. With a geometry without a zero
`Kernel_DISK_ReadSectors` returns true if and only if one of three such commands did. -/
theorem pio_delivers (hid : 0x80 ≤ disk.id ∧ disk.id ≤ 0x83)
    (hlba : lba.toNat + sectors.toNat ≤ 2 ^ 28) (hsectors : 1 ≤ sectors.toNat)
    (buffer : ℕ → UInt8) (before : Controller) :
    (∃ fuel₀ buffer' after, (∀ fuel, fuel₀ ≤ fuel →
        diskRead d.io fuel disk lba sectors buffer false before =
          some (!d.fails before.served.length, buffer', after)) ∧
      (∃ r, after.served = r :: before.served ∧ (r.bus, r.file.slave) = driveUnit disk.id) ∧
      ∀ i, buffer' i = if i < sectors.toNat * 512 then
        sectorByte d (driveUnit disk.id).1 (driveUnit disk.id).2 lba.toNat i else buffer i) ∧
    (disk.heads ≠ 0 → disk.sectors ≠ 0 →
      ∃ fuel₀ ok dataOut after, (∀ fuel, fuel₀ ≤ fuel →
          kernelDiskReadSectors d.io fuel disk lba sectors buffer false before =
            .ok (ok, dataOut, after)) ∧
        (ok = true ↔ ∃ j < 3, d.fails (before.served.length + j) = false) ∧
        (ok = true → dataOut = readBuffer d disk lba sectors buffer)) := by
  obtain ⟨hid, -⟩ := hid
  constructor
  · obtain ⟨fuel₀, after, hread, hserved⟩ := diskRead_delivers d hid hlba hsectors buffer before
    exact ⟨fuel₀, _, after, hread, ⟨_, hserved, readFile_unit hid lba sectors⟩, fun _ => rfl⟩
  · intro hheads hgeometry
    obtain ⟨fuel₀, ok, dataOut, after, hrun, hok, hbuffer⟩ :=
      kernelReadAttempts_delivers d hid hlba hsectors 3 buffer before
    refine ⟨fuel₀, ok, dataOut, after, fun fuel hfuel => ?_, hok, hbuffer⟩
    rw [kernelDiskReadSectors, diskLba2Chs, if_neg (by simp [hheads, hgeometry])]
    exact hrun fuel hfuel

end Read

/-- Drives that keep BSY up for three reads, and whose first command ends with the error bit. -/
def slowDrives : Drives where
  content _ _ lba word := UInt16.ofNat (lba + word)
  delay _ := 3
  fails k := k == 0

/-- The second unit of the secondary channel. -/
def lastUnit : Fat.Disk := { id := 0x83, cylinders := 16, sectors := 63, heads := 16 }

/-- The last two sectors in reach, at the second attempt. -/
theorem pio_delivers_slow : ∃ fuel₀ dataOut after,
    (∀ fuel, fuel₀ ≤ fuel →
      kernelDiskReadSectors slowDrives.io fuel lastUnit 0x0FFFFFFE 2 (fun _ => 0) false idleController =
        .ok (true, dataOut, after)) ∧
    dataOut = readBuffer slowDrives lastUnit 0x0FFFFFFE 2 fun _ => 0 := by
  obtain ⟨-, hkernel⟩ := pio_delivers slowDrives (show 0x80 ≤ lastUnit.id ∧ lastUnit.id ≤ 0x83 by decide)
    (show (0x0FFFFFFE : UInt32).toNat + (2 : UInt8).toNat ≤ 2 ^ 28 by decide) (by decide) (fun _ => 0)
    idleController
  obtain ⟨fuel₀, ok, dataOut, after, hrun, hok, hbuffer⟩ := hkernel (by decide) (by decide)
  obtain rfl : ok = true := hok.mpr ⟨1, by decide, rfl⟩
  exact ⟨fuel₀, dataOut, after, hrun, hbuffer rfl⟩

end ArcOS.Disk
