import ArcOS.Disk.Bios

/-!
The disk of the kernel: `Disk_Read` and `Kernel_DISK_ReadSectors`, over the ports of an ATA
controller.

The routines are written against the three port instructions they use; the loops that wait for the
drive get a number of rounds. `Drives` is a controller: it takes the address of a read out of its
registers when the command is written, keeps BSY up for some reads of the status before each sector,
and then hands out the sector word by word.
-/

namespace ArcOS.Disk

/-! ### `io.h` -/

/-- `i686_inb`, `i686_inw` and `i686_outb` -/
structure Ports (σ : Type*) where
  inb : UInt16 → σ → UInt8 × σ
  inw : UInt16 → σ → UInt16 × σ
  outb : UInt16 → UInt8 → σ → σ

/-- `ATA_PRIMARY_IO_BASE` -/
def ataPrimaryIoBase : UInt16 := 0x1F0
/-- `ATA_SECONDARY_IO_BASE` -/
def ataSecondaryIoBase : UInt16 := 0x170

def ataRegData : UInt16 := 0x00
def ataRegSectorCount : UInt16 := 0x02
def ataRegLbaLow : UInt16 := 0x03
def ataRegLbaMid : UInt16 := 0x04
def ataRegLbaHigh : UInt16 := 0x05
def ataRegDevice : UInt16 := 0x06
def ataRegCommand : UInt16 := 0x07
def ataRegStatus : UInt16 := 0x07
def ataRegAltStatus : UInt16 := 0x206

def ataSrBsy : UInt8 := 0x80
def ataSrDrq : UInt8 := 0x08
def ataSrErr : UInt8 := 0x01

def ataCmdReadPio : UInt8 := 0x20
def ataCmdIdentify : UInt8 := 0xEC

/-! ### `disk.c` -/

/-- Why a call does not return. -/
inductive Stop where
  | divideByZero
  | outOfFuel
  deriving DecidableEq

section Routines

variable {σ : Type*} (io : Ports σ)

/-- `i686_ata_wait_bsy`, with the rounds it may take -/
def ataWaitBsy (ioBase : UInt16) : ℕ → σ → Option σ
  | 0, _ => none
  | fuel + 1, s =>
    let (status, s) := io.inb (ioBase + ataRegStatus) s
    if status &&& ataSrBsy ≠ 0 then ataWaitBsy ioBase fuel s else some s

/-- `i686_ata_wait_drq`, with the rounds it may take -/
def ataWaitDrq (ioBase : UInt16) : ℕ → σ → Option σ
  | 0, _ => none
  | fuel + 1, s =>
    let (status, s) := io.inb (ioBase + ataRegStatus) s
    if status &&& ataSrDrq = 0 then ataWaitDrq ioBase fuel s else some s

/-- A word stored in the buffer. -/
def storeWord (buffer : ℕ → UInt8) (position : ℕ) (word : UInt16) : ℕ → UInt8 :=
  Function.update (Function.update buffer position word.toUInt8) (position + 1) (word >>> 8).toUInt8

/-- The loop over the words of a sector, with the words left and the place of the next one -/
def readWords (ioBase : UInt16) : ℕ → ℕ → (ℕ → UInt8) × σ → (ℕ → UInt8) × σ
  | 0, _, p => p
  | left + 1, position, (buffer, s) =>
    let (word, s) := io.inw (ioBase + ataRegData) s
    readWords ioBase left (position + 2) (storeWord buffer position word, s)

/-- The loop over the sectors, with the sectors left and the number of the next one -/
def readSectors (fuel : ℕ) (ioBase : UInt16) : ℕ → ℕ → (ℕ → UInt8) × σ → Option ((ℕ → UInt8) × σ)
  | 0, _, p => some p
  | left + 1, sector, (buffer, s) =>
    (ataWaitBsy io ioBase fuel s).bind fun s =>
      (ataWaitDrq io ioBase fuel s).bind fun s =>
        readSectors fuel ioBase left (sector + 1) (readWords io ioBase 256 (sector * 512) (buffer, s))

/-- The command with its registers: an IDENTIFY, or a read. -/
def issueCommand (ioBase : UInt16) (lba : UInt32) (sectors : UInt8) (isIdentify : Bool) (s : σ) : σ :=
  if isIdentify then
    let s := io.outb (ioBase + ataRegSectorCount) 0 s
    let s := io.outb (ioBase + ataRegLbaLow) 0 s
    let s := io.outb (ioBase + ataRegLbaMid) 0 s
    let s := io.outb (ioBase + ataRegLbaHigh) 0 s
    io.outb (ioBase + ataRegCommand) ataCmdIdentify s
  else
    let s := io.outb (ioBase + ataRegSectorCount) sectors s
    let s := io.outb (ioBase + ataRegLbaLow) lba.toUInt8 s
    let s := io.outb (ioBase + ataRegLbaMid) (lba >>> 8).toUInt8 s
    let s := io.outb (ioBase + ataRegLbaHigh) (lba >>> 16).toUInt8 s
    io.outb (ioBase + ataRegCommand) ataCmdReadPio s

/-- `Disk_Read`: the result and the buffer; `none` when a loop that waits has used up its rounds. -/
def diskRead (fuel : ℕ) (disk : Fat.Disk) (lba : UInt32) (sectors : UInt8) (buffer : ℕ → UInt8)
    (isIdentify : Bool) (s : σ) : Option (Bool × (ℕ → UInt8) × σ) :=
  let ioBase := if disk.id < 0x82 then ataPrimaryIoBase else ataSecondaryIoBase
  let s := io.outb (ioBase + ataRegDevice)
    ((0xE0 : UInt8) ||| disk.id <<< 4 ||| ((lba >>> 24) &&& 0x0F).toUInt8) s
  (ataWaitBsy io ioBase fuel s).bind fun s =>
    let s := (io.inb (ioBase + ataRegAltStatus) s).2
    let s := (io.inb (ioBase + ataRegAltStatus) s).2
    let s := (io.inb (ioBase + ataRegAltStatus) s).2
    let s := (io.inb (ioBase + ataRegAltStatus) s).2
    let s := issueCommand io ioBase lba sectors isIdentify s
    (readSectors io fuel ioBase sectors.toNat 0 (buffer, s)).map fun (buffer, s) =>
      let (status, s) := io.inb (ioBase + ataRegStatus) s
      (status &&& ataSrErr == 0, buffer, s)

/-- The loop of `Kernel_DISK_ReadSectors`, with the attempts left. `Floppy_Read` returns true and does
nothing. -/
def kernelReadAttempts (fuel : ℕ) (disk : Fat.Disk) (lba : UInt32) (sectors : UInt8)
    (isIdentify : Bool) : ℕ → (ℕ → UInt8) → σ → Except Stop (Bool × (ℕ → UInt8) × σ)
  | 0, dataOut, s => .ok (false, dataOut, s)
  | left + 1, dataOut, s =>
    if disk.id < 0x80 then .ok (true, dataOut, s)
    else match diskRead io fuel disk lba sectors dataOut isIdentify s with
      | none => .error .outOfFuel
      | some (true, dataOut, s) => .ok (true, dataOut, s)
      | some (false, dataOut, s) =>
        kernelReadAttempts fuel disk lba sectors isIdentify left dataOut s

/-- `Kernel_DISK_ReadSectors`. It calls `DISK_LBA2CHS` for hard disks too. -/
def kernelDiskReadSectors (fuel : ℕ) (disk : Fat.Disk) (lba : UInt32) (sectors : UInt8)
    (dataOut : ℕ → UInt8) (isIdentify : Bool) (s : σ) : Except Stop (Bool × (ℕ → UInt8) × σ) :=
  match diskLba2Chs disk lba with
  | none => .error .divideByZero
  | some _ => kernelReadAttempts io fuel disk lba sectors isIdentify 3 dataOut s

end Routines

/-! ### The controller -/

/-- The two channels of the controller. -/
inductive Bus where
  | primary
  | secondary
  deriving DecidableEq

/-- The first port of a channel. -/
def Bus.base : Bus → UInt16
  | .primary => ataPrimaryIoBase
  | .secondary => ataSecondaryIoBase

/-- The channel and the register behind a port. -/
def decodePort (port : UInt16) : Option (Bus × UInt16) :=
  if 0x1F0 ≤ port ∧ port ≤ 0x1F7 then some (.primary, port - 0x1F0)
  else if 0x170 ≤ port ∧ port ≤ 0x177 then some (.secondary, port - 0x170)
  else if port = 0x3F6 then some (.primary, ataRegAltStatus)
  else if port = 0x376 then some (.secondary, ataRegAltStatus)
  else none

/-- The registers that hold the address of a command. -/
structure TaskFile where
  count : UInt8
  low : UInt8
  mid : UInt8
  high : UInt8
  device : UInt8

namespace TaskFile

/-- The sector number in the registers, when the device register asks for one (bit 6). -/
def lba (f : TaskFile) : Option ℕ :=
  if f.device.toNat / 64 % 2 = 1 then
    some (f.low.toNat + 256 * (f.mid.toNat + 256 * (f.high.toNat + 256 * (f.device.toNat % 16))))
  else none

/-- The unit that is selected (bit 4 of the device register). -/
def slave (f : TaskFile) : Bool := f.device.toNat / 16 % 2 == 1

/-- The number of sectors; a count of 0 stands for 256. -/
def sectors (f : TaskFile) : ℕ := if f.count = 0 then 256 else f.count.toNat

end TaskFile

/-- A channel: its registers, and the transfer that is going on. -/
structure Channel where
  file : TaskFile
  slave : Bool
  /-- the sector handed out, the number of sectors left with it, and its next word -/
  lba : ℕ
  left : ℕ
  word : ℕ
  /-- the reads of the status that still find BSY -/
  busy : ℕ
  /-- the error bit of the command -/
  err : Bool

namespace Channel

def status (c : Channel) : UInt8 :=
  if 0 < c.busy then 0x80 else if 0 < c.left then 0x58 else if c.err then 0x51 else 0x50

/-- A read of the status. -/
def poll (c : Channel) : Channel := { c with busy := c.busy - 1 }

lemma poll_of_ready {c : Channel} (h : c.busy = 0) : c.poll = c := by
  cases c
  cases h
  rfl

end Channel

/-- A read command that the controller took: the channel, and its registers at that moment. -/
structure Request where
  bus : Bus
  file : TaskFile

/-- The state of the controller, with the number of sectors it has made ready and the read commands it
took, latest first. -/
structure Controller where
  channel : Bus → Channel
  clock : ℕ
  served : List Request

/-- What is behind the controller: the words of every sector, how long BSY stays up before each sector,
and which commands end with the error bit. -/
structure Drives where
  content : Bus → Bool → ℕ → ℕ → UInt16
  delay : ℕ → ℕ
  fails : ℕ → Bool

namespace Controller

/-- A change of one channel. -/
def modify (b : Bus) (f : Channel → Channel) (s : Controller) : Controller :=
  { s with channel := Function.update s.channel b (f (s.channel b)) }

section modify

variable (b : Bus) (f g : Channel → Channel) (s : Controller)

@[simp] lemma modify_channel : (s.modify b f).channel b = f (s.channel b) := by simp [modify]
@[simp] lemma modify_clock : (s.modify b f).clock = s.clock := rfl
@[simp] lemma modify_served : (s.modify b f).served = s.served := rfl

@[simp] lemma modify_modify : (s.modify b f).modify b g = s.modify b (g ∘ f) := by
  simp [modify]

lemma modify_eq {c : Channel} (h : f (s.channel b) = c) : s.modify b f = s.modify b fun _ => c := by
  rw [modify, modify, h]

lemma modify_self (h : f (s.channel b) = s.channel b) : s.modify b f = s := by
  rw [modify, h, Function.update_eq_self]

end modify
end Controller

namespace Drives

variable (d : Drives)

/-- The transfer goes on to the next sector. -/
def nextSector (b : Bus) (s : Controller) : Controller :=
  if 1 < (s.channel b).left then
    { s.modify b fun c =>
        { c with lba := c.lba + 1, left := c.left - 1, word := 0, busy := d.delay s.clock } with
      clock := s.clock + 1 }
  else s.modify b fun c => { c with left := 0, word := 0 }

/-- A read of the data register. -/
def data (b : Bus) (s : Controller) : UInt16 × Controller :=
  if (s.channel b).busy = 0 ∧ 0 < (s.channel b).left then
    (d.content b (s.channel b).slave (s.channel b).lba (s.channel b).word,
      if (s.channel b).word < 255 then s.modify b fun c => { c with word := c.word + 1 }
      else d.nextSector b s)
  else (0, s)

/-- READ SECTORS is written to the command register. -/
def start (b : Bus) (s : Controller) : Controller where
  channel := Function.update s.channel b
    { file := (s.channel b).file
      slave := (s.channel b).file.slave
      lba := (s.channel b).file.lba.getD 0
      left := (s.channel b).file.sectors
      word := 0
      busy := d.delay s.clock
      err := d.fails s.served.length }
  clock := s.clock + 1
  served := { bus := b, file := (s.channel b).file } :: s.served

/-- A write to a register of a channel. -/
def write (b : Bus) (r : UInt16) (v : UInt8) (s : Controller) : Controller :=
  if r = ataRegSectorCount then s.modify b fun c => { c with file := { c.file with count := v } }
  else if r = ataRegLbaLow then s.modify b fun c => { c with file := { c.file with low := v } }
  else if r = ataRegLbaMid then s.modify b fun c => { c with file := { c.file with mid := v } }
  else if r = ataRegLbaHigh then s.modify b fun c => { c with file := { c.file with high := v } }
  else if r = ataRegDevice then s.modify b fun c => { c with file := { c.file with device := v } }
  else if r = ataRegCommand ∧ v = ataCmdReadPio then d.start b s
  else s

section write

variable (b : Bus) (v : UInt8) (s : Controller)

lemma write_count : d.write b ataRegSectorCount v s =
    s.modify b fun c => { c with file := { c.file with count := v } } := rfl
lemma write_low : d.write b ataRegLbaLow v s =
    s.modify b fun c => { c with file := { c.file with low := v } } := rfl
lemma write_mid : d.write b ataRegLbaMid v s =
    s.modify b fun c => { c with file := { c.file with mid := v } } := rfl
lemma write_high : d.write b ataRegLbaHigh v s =
    s.modify b fun c => { c with file := { c.file with high := v } } := rfl
lemma write_device : d.write b ataRegDevice v s =
    s.modify b fun c => { c with file := { c.file with device := v } } := rfl
lemma write_command : d.write b ataRegCommand ataCmdReadPio s = d.start b s := rfl

end write

/-- The ports of the controller. Reading the alternate status changes nothing. -/
def io : Ports Controller where
  inb port s :=
    match decodePort port with
    | some (b, r) =>
      if r = ataRegStatus then ((s.channel b).status, s.modify b .poll)
      else if r = ataRegAltStatus then ((s.channel b).status, s)
      else (0, s)
    | none => (0, s)
  inw port s :=
    match decodePort port with
    | some (b, r) => if r = ataRegData then d.data b s else (0, s)
    | none => (0, s)
  outb port v s :=
    match decodePort port with
    | some (b, r) => d.write b r v s
    | none => s

end Drives

/-! ### The routines on the controller -/

section Run

variable (d : Drives) (b : Bus) {s : Controller}

lemma decodePort_altStatus : decodePort (b.base + ataRegAltStatus) = some (b, ataRegAltStatus) := by
  cases b <;> rfl

lemma decodePort_base {r : UInt16} (hr : r ≤ 7) : decodePort (b.base + r) = some (b, r) := by
  have hall : ∀ n : Fin 8, decodePort (b.base + UInt16.ofNat n) = some (b, UInt16.ofNat n) := by
    cases b <;> decide
  have hlt : r.toNat < 8 := Nat.lt_succ_of_le (UInt16.le_iff_toNat_le.mp hr)
  simpa using hall ⟨r.toNat, hlt⟩

@[simp] lemma io_inb_status (s : Controller) :
    d.io.inb (b.base + ataRegStatus) s = ((s.channel b).status, s.modify b .poll) := by
  simp only [Drives.io, decodePort_base b (show ataRegStatus ≤ 7 by decide)]
  rfl

@[simp] lemma io_inb_altStatus (s : Controller) :
    d.io.inb (b.base + ataRegAltStatus) s = ((s.channel b).status, s) := by
  simp only [Drives.io, decodePort_altStatus]
  rfl

@[simp] lemma io_inw_data (s : Controller) :
    d.io.inw (b.base + ataRegData) s = d.data b s := by
  simp only [Drives.io, decodePort_base b (show ataRegData ≤ 7 by decide)]
  rfl

lemma io_outb {r : UInt16} (hr : r ≤ 7) (v : UInt8) (s : Controller) :
    d.io.outb (b.base + r) v s = d.write b r v s := by
  simp only [Drives.io, decodePort_base b hr]

/-! The loops that wait -/

lemma status_bsy (c : Channel) : c.status &&& ataSrBsy ≠ 0 ↔ 0 < c.busy := by
  unfold Channel.status
  split_ifs with hbusy
  · exact iff_of_true (by decide) hbusy
  · exact iff_of_false (by decide) hbusy
  · exact iff_of_false (by decide) hbusy
  · exact iff_of_false (by decide) hbusy

lemma status_drq {c : Channel} (hbusy : c.busy = 0) (hleft : 0 < c.left) :
    c.status &&& ataSrDrq ≠ 0 := by
  rw [Channel.status, if_neg (by omega), if_pos hleft]
  decide

lemma status_err {c : Channel} (herr : c.err = false) : c.status &&& ataSrErr = 0 := by
  simp only [Channel.status, herr, Bool.false_eq_true, if_false]
  split_ifs <;> decide

lemma ataWaitBsy_eq {fuel : ℕ} (hfuel : (s.channel b).busy < fuel) :
    ataWaitBsy d.io b.base fuel s = some (s.modify b fun c => { c with busy := 0 }) := by
  induction fuel generalizing s with
  | zero => exact absurd hfuel (Nat.not_lt_zero _)
  | succ fuel ih =>
    simp only [ataWaitBsy, io_inb_status, status_bsy]
    by_cases hbusy : 0 < (s.channel b).busy
    · have hnext : ((s.modify b .poll).channel b).busy < fuel := by
        simp only [Controller.modify_channel, Channel.poll]
        omega
      rw [if_pos hbusy, ih hnext, Controller.modify_modify]
      rfl
    · rw [if_neg hbusy]
      refine congrArg some ((s.modify_eq b _ ?_).trans (s.modify_eq b _ rfl).symm)
      simp only [Channel.poll]
      congr 1
      omega

/-- `i686_ata_wait_drq` finds DRQ at once when a sector is ready. -/
lemma ataWaitDrq_eq {fuel : ℕ} (hfuel : 0 < fuel) (hbusy : (s.channel b).busy = 0)
    (hleft : 0 < (s.channel b).left) : ataWaitDrq d.io b.base fuel s = some s := by
  obtain ⟨fuel, rfl⟩ := Nat.exists_eq_add_of_lt hfuel
  rw [show 0 + fuel + 1 = fuel + 1 by omega, ataWaitDrq, io_inb_status]
  simp only [if_neg (status_drq hbusy hleft)]
  exact congrArg some (s.modify_self b _ (Channel.poll_of_ready hbusy))

/-! The words of a sector -/

lemma readWords_next {n position : ℕ} {buffer : ℕ → UInt8} (hbusy : (s.channel b).busy = 0)
    (hleft : 0 < (s.channel b).left) (hword : (s.channel b).word + (n + 1) = 256) :
    (readWords d.io b.base (n + 1) position (buffer, s)).2 = d.nextSector b s := by
  induction n generalizing s position buffer with
  | zero =>
    have hlast : ¬ (s.channel b).word < 255 := by omega
    simp [readWords, Drives.data, hbusy, hleft, hlast]
  | succ n ih =>
    have hmore : (s.channel b).word < 255 := by omega
    rw [readWords, io_inw_data, Drives.data, if_pos ⟨hbusy, hleft⟩, if_pos hmore, ih (by simpa)
      (by simpa) (by simp; omega)]
    simp [Drives.nextSector, Controller.modify]

/-! The sectors -/

lemma nextSector_channel (s : Controller) :
    ((d.nextSector b s).channel b).left = (s.channel b).left - 1 ∧
      ((d.nextSector b s).channel b).word = 0 ∧
      ((d.nextSector b s).channel b).err = (s.channel b).err ∧
      (d.nextSector b s).served = s.served := by
  unfold Drives.nextSector
  split_ifs with hmore
  · exact ⟨by simp [Controller.modify], by simp [Controller.modify], by simp [Controller.modify], rfl⟩
  · refine ⟨?_, by simp, by simp, rfl⟩
    simp
    omega

lemma readSectors_succ {fuel : ℕ} (hleft : 0 < (s.channel b).left) (hword : (s.channel b).word = 0)
    (hfuel : (s.channel b).busy < fuel) (n sector : ℕ) (buffer : ℕ → UInt8) :
    readSectors d.io fuel b.base (n + 1) sector (buffer, s) =
      readSectors d.io fuel b.base n (sector + 1)
        ((readWords d.io b.base 256 (sector * 512)
          (buffer, s.modify b fun c => { c with busy := 0 })).1,
        d.nextSector b (s.modify b fun c => { c with busy := 0 })) := by
  rw [readSectors, ataWaitBsy_eq d b hfuel, Option.bind_some,
    ataWaitDrq_eq d b (by omega) (by simp) (by simpa), Option.bind_some,
    ← readWords_next d b (n := 255) (by simp) (by simpa) (by simp [hword])]

/-- The loop over the sectors ends when the drive has that many; the command stays the same. -/
lemma readSectors_ends {n : ℕ} (hn : n ≤ (s.channel b).left) (hword : (s.channel b).word = 0)
    (sector : ℕ) (buffer : ℕ → UInt8) :
    ∃ fuel₀ buffer' s', (∀ fuel, fuel₀ ≤ fuel →
        readSectors d.io fuel b.base n sector (buffer, s) = some (buffer', s')) ∧
      (s'.channel b).err = (s.channel b).err ∧ s'.served = s.served := by
  induction n generalizing s sector buffer with
  | zero => exact ⟨0, buffer, s, fun _ _ => rfl, rfl, rfl⟩
  | succ n ih =>
    obtain ⟨hleft', hword', herr', hserved'⟩ :=
      nextSector_channel d b (s.modify b fun c => { c with busy := 0 })
    simp only [Controller.modify_channel] at hleft' herr'
    obtain ⟨fuel₀, buffer', s', hrun, herr, hserved⟩ := ih (by rw [hleft']; omega) hword' (sector + 1)
      (readWords d.io b.base 256 (sector * 512) (buffer, s.modify b fun c => { c with busy := 0 })).1
    refine ⟨max fuel₀ ((s.channel b).busy + 1), buffer', s', fun fuel hfuel => ?_, herr.trans herr',
      hserved.trans hserved'⟩
    rw [readSectors_succ d b (by omega) hword (by omega)]
    exact hrun fuel (by omega)

/-! A read -/

/-- The channel that `Disk_Read` uses for a drive number. -/
def busOf (id : UInt8) : Bus := if id < 0x82 then .primary else .secondary

lemma busOf_base (id : UInt8) :
    (if id < 0x82 then ataPrimaryIoBase else ataSecondaryIoBase) = (busOf id).base := by
  unfold busOf
  split_ifs <;> rfl

/-- The registers that `Disk_Read` leaves when it writes the read command. -/
def readFile (disk : Fat.Disk) (lba : UInt32) (sectors : UInt8) : TaskFile where
  count := sectors
  low := lba.toUInt8
  mid := (lba >>> 8).toUInt8
  high := (lba >>> 16).toUInt8
  device := (0xE0 : UInt8) ||| disk.id <<< 4 ||| ((lba >>> 24) &&& 0x0F).toUInt8

lemma issueCommand_read (lba : UInt32) (sectors : UInt8) (s : Controller) :
    issueCommand d.io b.base lba sectors false s =
      d.start b (s.modify b fun c => { c with file :=
        { count := sectors, low := lba.toUInt8, mid := (lba >>> 8).toUInt8
          high := (lba >>> 16).toUInt8, device := c.file.device } }) := by
  have hle : ∀ r : UInt16, r = ataRegSectorCount ∨ r = ataRegLbaLow ∨ r = ataRegLbaMid ∨
      r = ataRegLbaHigh ∨ r = ataRegCommand → r ≤ 7 := by
    rintro r (rfl | rfl | rfl | rfl | rfl) <;> decide
  simp only [issueCommand, Bool.false_eq_true, if_false]
  rw [io_outb d b (hle _ (by simp)), io_outb d b (hle _ (by simp)), io_outb d b (hle _ (by simp)),
    io_outb d b (hle _ (by simp)), io_outb d b (hle _ (by simp))]
  refine (d.write_command b _).trans (congrArg (d.start b) ?_)
  rw [d.write_high, d.write_mid, d.write_low, d.write_count]
  simp only [Controller.modify_modify]
  rfl

/-- The controller when `Disk_Read` has written the read command. -/
def issued (disk : Fat.Disk) (lba : UInt32) (sectors : UInt8) (s : Controller) : Controller :=
  d.start (busOf disk.id) (s.modify (busOf disk.id) fun c =>
    { c with file := readFile disk lba sectors, busy := 0 })

/-- `Disk_Read` comes to the loop over the sectors with the command issued. -/
lemma diskRead_issued (disk : Fat.Disk) (lba : UInt32) (sectors : UInt8) (buffer : ℕ → UInt8)
    {fuel : ℕ} (hfuel : (s.channel (busOf disk.id)).busy < fuel) :
    diskRead d.io fuel disk lba sectors buffer false s =
      (readSectors d.io fuel (busOf disk.id).base sectors.toNat 0
        (buffer, issued d disk lba sectors s)).map fun p =>
          ((p.2.channel (busOf disk.id)).status &&& ataSrErr == 0, p.1,
            p.2.modify (busOf disk.id) .poll) := by
  obtain ⟨b, hb⟩ : ∃ b, b = busOf disk.id := ⟨_, rfl⟩
  have hissue : issueCommand d.io b.base lba sectors false
      ((d.write b ataRegDevice (readFile disk lba sectors).device s).modify b fun c =>
        { c with busy := 0 }) = issued d disk lba sectors s := by
    rw [issueCommand_read, d.write_device, issued, ← hb]
    simp only [Controller.modify_modify]
    rfl
  have hbusy : ((d.write b ataRegDevice (readFile disk lba sectors).device s).channel b).busy <
      fuel := by
    rw [← hb] at hfuel
    simpa only [d.write_device, Controller.modify_channel] using hfuel
  simp only [diskRead]
  rw [busOf_base, ← hb, io_outb d b (by decide)]
  change (ataWaitBsy d.io b.base fuel
    (d.write b ataRegDevice (readFile disk lba sectors).device s)).bind _ = _
  rw [ataWaitBsy_eq d b hbusy, Option.bind_some]
  simp only [io_inb_altStatus]
  rw [hissue]
  simp only [io_inb_status]

/-- **A read on a drive that does not fail.** It returns true, and the drive has taken one more
command, with the registers of the address. -/
theorem diskRead_succeeds (hfails : ∀ k, d.fails k = false) (disk : Fat.Disk) (lba : UInt32)
    (sectors : UInt8) (buffer : ℕ → UInt8) (s : Controller) :
    ∃ fuel₀ buffer' s', (∀ fuel, fuel₀ ≤ fuel →
        diskRead d.io fuel disk lba sectors buffer false s = some (true, buffer', s')) ∧
      s'.served = { bus := busOf disk.id, file := readFile disk lba sectors } :: s.served := by
  obtain ⟨t, ht⟩ : ∃ t, t = issued d disk lba sectors s := ⟨_, rfl⟩
  have hleft : sectors.toNat ≤ (t.channel (busOf disk.id)).left := by
    have hlt := sectors.toNat_lt
    simp only [ht, issued, Drives.start, Function.update_self, Controller.modify_channel,
      TaskFile.sectors, readFile]
    split_ifs <;> omega
  obtain ⟨fuel₀, buffer', s', hrun, herr, hserved⟩ := readSectors_ends d (busOf disk.id) hleft
    (by simp [ht, issued, Drives.start]) 0 buffer
  refine ⟨max fuel₀ ((s.channel (busOf disk.id)).busy + 1), buffer', s'.modify (busOf disk.id) .poll,
    fun fuel hfuel => ?_, ?_⟩
  · rw [diskRead_issued d disk lba sectors buffer (by omega), ← ht, hrun fuel (by omega),
      Option.map_some]
    simp only
    rw [status_err (herr.trans (by simp [ht, issued, Drives.start, hfails]))]
    rfl
  · rw [Controller.modify_served, hserved, ht]
    simp [issued, Drives.start]

end Run

/-! ### Addresses that wrap -/

lemma readFile_device_toNat (disk : Fat.Disk) (lba : UInt32) (sectors : UInt8) :
    (readFile disk lba sectors).device.toNat =
      0xE0 ||| disk.id.toNat * 16 % 256 ||| lba.toNat / 2 ^ 24 % 16 := by
  have hlow : ((lba >>> 24) &&& 0x0F).toUInt8.toNat = lba.toNat / 2 ^ 24 % 16 := by
    have hand : lba.toNat / 2 ^ 24 &&& 15 = lba.toNat / 2 ^ 24 % 16 :=
      Nat.and_two_pow_sub_one_eq_mod _ 4
    simp only [UInt32.toNat_toUInt8, UInt32.toNat_and, UInt32.toNat_shiftRight, UInt32.reduceToNat,
      Nat.reduceMod, Nat.shiftRight_eq_div_pow]
    rw [hand]
    omega
  have hid : (disk.id <<< 4).toNat = disk.id.toNat * 16 % 256 := by
    simp only [UInt8.toNat_shiftLeft, UInt8.reduceToNat, Nat.reduceMod, Nat.shiftLeft_eq]
  rw [← hlow, ← hid]
  simp only [readFile, UInt8.toNat_or, UInt8.reduceToNat]

lemma readFile_device (disk : Fat.Disk) (lba : UInt32) (sectors : UInt8) :
    (readFile disk lba sectors).device.toNat / 64 % 2 = 1 ∧
      (readFile disk lba sectors).device.toNat % 16 = lba.toNat / 2 ^ 24 % 16 := by
  have hdevice := readFile_device_toNat disk lba sectors
  constructor
  · have hbit : (readFile disk lba sectors).device.toNat.testBit 6 = true := by
      rw [hdevice, Nat.testBit_or, Nat.testBit_or, show Nat.testBit 0xE0 6 = true from rfl]
      rfl
    simpa [Nat.testBit_eq_decide_div_mod_eq] using hbit
  · have hid : disk.id.toNat * 16 % 256 % 16 = 0 := by omega
    have hmod := Nat.or_mod_two_pow (n := 4) (a := 0xE0 ||| disk.id.toNat * 16 % 256)
      (b := lba.toNat / 2 ^ 24 % 16)
    have hmod' := Nat.or_mod_two_pow (n := 4) (a := 0xE0) (b := disk.id.toNat * 16 % 256)
    rw [hdevice, hmod, hmod', hid]
    simp

lemma readFile_lba (disk : Fat.Disk) (lba : UInt32) (sectors : UInt8) :
    (readFile disk lba sectors).lba = some (lba.toNat % 2 ^ 28) := by
  obtain ⟨hbit, hlow⟩ := readFile_device disk lba sectors
  rw [TaskFile.lba, if_pos hbit, hlow]
  simp only [readFile, UInt32.toNat_toUInt8, UInt32.toNat_shiftRight, UInt32.reduceToNat,
    Nat.reduceMod, Nat.shiftRight_eq_div_pow, Option.some.injEq]
  omega

/-- `Kernel_DISK_ReadSectors` makes a drive behind the controller read exactly the sectors from the LBA
on, or returns false. -/
def KernelReads (d : Drives) (disk : Fat.Disk) (lba : UInt32) (sectors : UInt8)
    (dataOut : ℕ → UInt8) (before : Controller) : Prop :=
  ∃ fuel₀, ∀ fuel, fuel₀ ≤ fuel → ∃ ok buffer after,
    kernelDiskReadSectors d.io fuel disk lba sectors dataOut false before = .ok (ok, buffer, after) ∧
    (ok = false ∨ ∃ r, after.served = r :: before.served ∧ r.file.lba = some lba.toNat ∧
      r.file.count = sectors)

/-- **The kernel's reads.** On a hard disk whose drive does not fail, the request is right or refused
if and only if the geometry has no zero and the LBA fits into 28 bits. -/
theorem kernelReads_iff {d : Drives} (hfails : ∀ k, d.fails k = false) {disk : Fat.Disk}
    (hid : 0x80 ≤ disk.id) (lba : UInt32) (sectors : UInt8) (dataOut : ℕ → UInt8)
    (before : Controller) :
    KernelReads d disk lba sectors dataOut before ↔
      disk.sectors ≠ 0 ∧ disk.heads ≠ 0 ∧ lba.toNat < 2 ^ 28 := by
  have hhard : ¬ disk.id < 0x80 := UInt8.not_lt.mpr hid
  obtain ⟨fuel₀, buffer, after, hrun, hserved⟩ :=
    diskRead_succeeds d hfails disk lba sectors dataOut before
  by_cases hzero : disk.sectors = 0 ∨ disk.heads = 0
  · refine iff_of_false ?_ (by tauto)
    rintro ⟨n, h⟩
    obtain ⟨ok, buffer, after, hrun, -⟩ := h n le_rfl
    rw [kernelDiskReadSectors, diskLba2Chs, if_pos hzero] at hrun
    cases hrun
  · have hkernel : ∀ fuel, fuel₀ ≤ fuel →
        kernelDiskReadSectors d.io fuel disk lba sectors dataOut false before =
          .ok (true, buffer, after) := by
      intro fuel hfuel
      rw [kernelDiskReadSectors, diskLba2Chs, if_neg hzero]
      simp only [kernelReadAttempts, if_neg hhard, hrun fuel hfuel]
    obtain ⟨hsectors, hheads⟩ := not_or.mp hzero
    constructor
    · rintro ⟨n, h⟩
      obtain ⟨ok, buffer', after', hok, hreads⟩ := h (max n fuel₀) (le_max_left _ _)
      rw [hkernel _ (le_max_right _ _)] at hok
      cases hok
      rcases hreads with hfalse | ⟨r, hr, hlba, -⟩
      · cases hfalse
      · rw [hserved] at hr
        cases hr
        rw [readFile_lba, Option.some.injEq] at hlba
        exact ⟨hsectors, hheads, hlba ▸ Nat.mod_lt _ (by decide)⟩
    · rintro ⟨-, -, hlt⟩
      refine ⟨fuel₀, fun fuel hfuel => ⟨true, buffer, after, hkernel fuel hfuel, Or.inr ?_⟩⟩
      exact ⟨_, hserved, by rw [readFile_lba, Nat.mod_eq_of_lt hlt], rfl⟩

/-- A large drive: 1024 cylinders, 255 heads and 63 sectors of it can be addressed through the BIOS. -/
def largeDisk : Fat.Disk := { id := 0x80, cylinders := 1024, sectors := 63, heads := 255 }

/-- A controller with drives full of zeros that never make anybody wait. -/
def zeroDrives : Drives where
  content _ _ _ _ := 0
  delay _ := 0
  fails _ := false

/-- The controller before the first command. -/
def idleController : Controller where
  channel _ :=
    { file := { count := 0, low := 0, mid := 0, high := 0, device := 0 }
      slave := false, lba := 0, left := 0, word := 0, busy := 0, err := false }
  clock := 0
  served := []

/-- The first LBA behind the 1024 cylinders, and the first one behind the 28 bits: both are cut to
0. -/
theorem sector_address_wraps :
    ¬ BiosReads false largeDisk 16450560 1 0x7E00 [] ∧
      ¬ KernelReads zeroDrives largeDisk 0x10000000 1 (fun _ => 0) idleController := by
  constructor
  · rw [biosReads_iff (by decide) (by decide)]
    decide
  · rw [kernelReads_iff (fun _ => rfl) (by decide)]
    decide

/-- **When no sector address wraps.** On a drive that reads from every address it can be given,
`DISK_ReadSectors` makes it read exactly the sectors from the LBA on, or returns false, if and only if
the cylinder, the head and the sector fit into their bits, or the sector is cut to 0 and refused.
`Kernel_DISK_ReadSectors` does so for a hard disk if and only if the stored geometry has no zero and
the LBA fits into 28 bits. -/
theorem sector_address_iff (disk : Fat.Disk) (lba : UInt32) (sectors : UInt8) :
    (∀ (sectorZero : Bool) (dataOut : UInt32) (before : List ReadRegs), disk.sectors ≠ 0 → disk.heads ≠ 0 →
      (BiosReads sectorZero disk lba sectors dataOut before ↔
        (lba.toNat / disk.sectors.toNat / disk.heads.toNat < 1024 ∧
          lba.toNat / disk.sectors.toNat % disk.heads.toNat < 256 ∧
          lba.toNat % disk.sectors.toNat + 1 < 64) ∨
        ((lba.toNat % disk.sectors.toNat + 1) % 64 = 0 ∧ sectorZero = false))) ∧
    ∀ (d : Drives) (dataOut : ℕ → UInt8) (before : Controller), (∀ k, d.fails k = false) →
      0x80 ≤ disk.id →
      (KernelReads d disk lba sectors dataOut before ↔
        disk.sectors ≠ 0 ∧ disk.heads ≠ 0 ∧ lba.toNat < 2 ^ 28) :=
  ⟨fun sectorZero _ before hsectors hheads => biosReads_iff hsectors hheads sectorZero before,
    fun _ dataOut before hfails hid => kernelReads_iff hfails hid lba sectors dataOut before⟩

/-- The last LBA in front of the limits. -/
theorem sector_address_iff_largest :
    BiosReads false largeDisk 16450559 1 0x7E00 [] ∧
      KernelReads zeroDrives largeDisk 0x0FFFFFFF 1 (fun _ => 0) idleController :=
  ⟨((sector_address_iff largeDisk 16450559 1).1 false 0x7E00 [] (by decide) (by decide)).mpr (by decide),
    ((sector_address_iff largeDisk 0x0FFFFFFF 1).2 zeroDrives (fun _ => 0) idleController (fun _ => rfl)
      (by decide)).mpr (by decide)⟩

end ArcOS.Disk
