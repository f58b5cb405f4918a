import ArcOS.Lib.Bytes
import Mathlib.Logic.Function.Basic
import Mathlib.Tactic.FinCases

/-!
The data of the FAT layer: the records of `fat.h`, the state the layer keeps, and the disk behind it.

The layer exists twice, in the bootloader (`libs/boot/fat.c`) and in the kernel (`libs/core/fat.c`).
Both keep one `FAT_Data` record and the same five static variables; they differ in the disk routine
they call and in where the partition offset is added. A `Layer` is what they differ in.

A `FAT_File*` is a place that holds a `FAT_FileData` record, or NULL. Using NULL, indexing the slot
table outside its bounds and writing behind `name[MAX_PATH_SIZE]` stop a run (`Stop`): the C program
goes on there in memory that is none of the layer's.

Beside the state the log records the calls a run makes, for the theorems about what is called with what.
-/

namespace ArcOS.Fat

open Lib

/-! ### The records of `fat.h` -/

/-- A block of `SECTOR_SIZE` bytes. -/
abbrev Sector := Bytes 512

lemma mod_sector_lt (i : ℕ) : i % 512 < 512 := Nat.mod_lt i (by omega)

/-- `DISK`. -/
structure Disk where
  id : UInt8
  cylinders : UInt16
  sectors : UInt16
  heads : UInt16

/-- `Partition`. -/
structure Partition where
  disk : Disk
  partitionOffset : UInt32
  partitionSize : UInt32

/-- `FAT_DirectoryEntry`, a packed record of 32 bytes. -/
abbrev DirectoryEntry := Bytes 32

namespace DirectoryEntry

def name (e : DirectoryEntry) : Bytes 11 := fun i => e ⟨i, by omega⟩
def attributes (e : DirectoryEntry) : UInt8 := e 11
def firstClusterHigh (e : DirectoryEntry) : UInt16 := Bytes.u16 e 20
def firstClusterLow (e : DirectoryEntry) : UInt16 := Bytes.u16 e 26
def size (e : DirectoryEntry) : UInt32 := Bytes.u32 e 28

/-- The first cluster, put together from its two halves. -/
def firstCluster (e : DirectoryEntry) : UInt32 :=
  e.firstClusterLow.toUInt32 + (e.firstClusterHigh.toUInt32 <<< 16)

/-- The first byte of the name: 0 marks the end of the entries, 0xE5 a deleted one. -/
def mark (e : DirectoryEntry) : UInt8 := e 0

end DirectoryEntry

/-- `FAT_ATTRIBUTE_DIRECTORY`. -/
def attributeDirectory : UInt8 := 0x10

/-- `FAT_BootSector`, the packed record at the start of the boot sector. -/
abbrev BootSector := Sector

namespace BootSector

def bytesPerSector (b : BootSector) : UInt16 := Bytes.u16 b 11
def sectorsPerCluster (b : BootSector) : UInt8 := b 13
def reservedSectors (b : BootSector) : UInt16 := Bytes.u16 b 14
def fatCount (b : BootSector) : UInt8 := b 16
def dirEntryCount (b : BootSector) : UInt16 := Bytes.u16 b 17
def totalSectors (b : BootSector) : UInt16 := Bytes.u16 b 19
def sectorsPerFat (b : BootSector) : UInt16 := Bytes.u16 b 22
def largeSectorCount (b : BootSector) : UInt32 := Bytes.u32 b 32
def ebr32SectorsPerFat (b : BootSector) : UInt32 := Bytes.u32 b 36
def ebr32RootDirectoryCluster (b : BootSector) : UInt32 := Bytes.u32 b 44

end BootSector

/-- `FAT_File`, the part of an open file its users see. -/
@[ext]
structure File where
  handle : Int
  isDirectory : Bool
  position : UInt32
  size : UInt32
  deriving DecidableEq

/-- `FAT_FileData`. The field `pub` is the source's `Public`. -/
@[ext]
structure FileData where
  buffer : Sector
  pub : File
  opened : Bool
  firstCluster : UInt32
  currentCluster : UInt32
  currentSectorInCluster : UInt32

/-- The record of zeros. -/
def FileData.zero : FileData where
  buffer := fun _ => 0
  pub := { handle := 0, isDirectory := false, position := 0, size := 0 }
  opened := false
  firstCluster := 0
  currentCluster := 0
  currentSectorInCluster := 0

/-- `ROOT_DIRECTORY_HANDLE`. -/
def rootDirectoryHandle : Int := -1

/-- A `FAT_FileData` record of the layer: the root directory, or one of the `MAX_FILE_HANDLES`
slots. -/
inductive Loc where
  | root
  | slot (i : Fin 10)
  deriving DecidableEq

/-- `FAT_Data` and the static variables `g_*` of `fat.c`. -/
structure FatData where
  bootSector : BootSector
  rootDirectory : FileData
  openedFiles : Fin 10 → FileData
  fatCache : Bytes 2560
  fatCachePosition : UInt32
  lfnCount : Int
  dataSectionLba : UInt32
  fatType : UInt8
  totalSectors : UInt32
  sectorsPerFat : UInt32

namespace FatData

/-- The record at a place. -/
def fd (f : FatData) : Loc → FileData
  | .root => f.rootDirectory
  | .slot i => f.openedFiles i

/-- The state with another record at a place. -/
def setFd (f : FatData) (loc : Loc) (d : FileData) : FatData :=
  match loc with
  | .root => { f with rootDirectory := d }
  | .slot i => { f with openedFiles := Function.update f.openedFiles i d }

def sectorsPerCluster (f : FatData) : UInt32 := (BootSector.sectorsPerCluster f.bootSector).toUInt32
def reservedSectors (f : FatData) : UInt32 := (BootSector.reservedSectors f.bootSector).toUInt32

section setFd

variable (f : FatData) (loc loc' : Loc) (d d' : FileData)

@[simp] lemma fd_setFd : (f.setFd loc d).fd loc = d := by
  cases loc <;> simp [fd, setFd]

lemma fd_setFd_of_ne {loc loc' : Loc} (h : loc' ≠ loc) : (f.setFd loc d).fd loc' = f.fd loc' := by
  cases loc <;> cases loc' <;> simp_all [fd, setFd, Function.update_of_ne]

@[simp] lemma setFd_setFd : (f.setFd loc d).setFd loc d' = f.setFd loc d' := by
  cases loc <;> simp [setFd]

@[simp] lemma setFd_fd : f.setFd loc (f.fd loc) = f := by
  cases loc <;> simp [setFd, fd]

@[simp] lemma setFd_bootSector : (f.setFd loc d).bootSector = f.bootSector := by cases loc <;> rfl
@[simp] lemma setFd_fatCache : (f.setFd loc d).fatCache = f.fatCache := by cases loc <;> rfl
@[simp] lemma setFd_fatCachePosition :
    (f.setFd loc d).fatCachePosition = f.fatCachePosition := by cases loc <;> rfl
@[simp] lemma setFd_dataSectionLba :
    (f.setFd loc d).dataSectionLba = f.dataSectionLba := by cases loc <;> rfl
@[simp] lemma setFd_fatType : (f.setFd loc d).fatType = f.fatType := by cases loc <;> rfl
@[simp] lemma setFd_sectorsPerCluster :
    (f.setFd loc d).sectorsPerCluster = f.sectorsPerCluster := by cases loc <;> rfl
@[simp] lemma setFd_reservedSectors :
    (f.setFd loc d).reservedSectors = f.reservedSectors := by cases loc <;> rfl

lemma fd_root : f.fd .root = f.rootDirectory := rfl
lemma fd_slot (i : Fin 10) : f.fd (.slot i) = f.openedFiles i := rfl

end setFd
end FatData

/-! ### The state of a run -/

/-- Why a run of the layer stops without returning. -/
inductive Stop where
  /-- A NULL `FAT_File*` is used. -/
  | nullFile
  /-- A handle indexes the slot table outside its bounds. -/
  | badHandle
  /-- A byte is written behind the local buffer `name`. -/
  | nameOverflow
  /-- A division by zero. -/
  | divideByZero
  /-- A loop still runs after the rounds it was given. -/
  | outOfFuel
  deriving DecidableEq

/-- What a run leaves in the log. -/
inductive Event where
  /-- The disk routine is called for sectors from an absolute LBA on. -/
  | diskRead (lba : UInt32) (sectors : ℕ)
  /-- `FAT_NextCluster` is called in a state, after a number of disk calls. -/
  | nextCluster (fat : FatData) (clock : ℕ) (cluster : UInt32)
  /-- `FAT_FindFile` is called in a state, on the memory from the name on. -/
  | findFile (fat : FatData) (file : Option Loc) (name : List UInt8)
  /-- Bytes are copied out of a sector buffer. -/
  | copy (offset count : ℕ)
  | printf (text : String)
  | putc (c : UInt8)

/-- A copy stays inside the sector buffer it is made out of. -/
def Event.InBuffer : Event → Prop
  | .copy offset count => offset + count ≤ 512
  | _ => True

/-- The state of a run: what the layer keeps, how often the disk was called, and the log, latest
entry first. -/
structure St where
  fat : FatData
  clock : ℕ
  log : List Event

namespace St

def note (e : Event) (s : St) : St := { s with log := e :: s.log }
def setFd (loc : Loc) (d : FileData) (s : St) : St := { s with fat := s.fat.setFd loc d }

@[simp] lemma note_fat (e : Event) (s : St) : (s.note e).fat = s.fat := rfl
@[simp] lemma note_clock (e : Event) (s : St) : (s.note e).clock = s.clock := rfl
@[simp] lemma note_log (e : Event) (s : St) : (s.note e).log = e :: s.log := rfl
@[simp] lemma setFd_fat (loc : Loc) (d : FileData) (s : St) :
    (s.setFd loc d).fat = s.fat.setFd loc d := rfl
@[simp] lemma setFd_clock (loc : Loc) (d : FileData) (s : St) : (s.setFd loc d).clock = s.clock := rfl
@[simp] lemma setFd_log (loc : Loc) (d : FileData) (s : St) : (s.setFd loc d).log = s.log := rfl

/-- The state before the first call: static data is zero. -/
def start : St where
  fat := { bootSector := fun _ => 0
           rootDirectory := FileData.zero
           openedFiles := fun _ => FileData.zero
           fatCache := fun _ => 0
           fatCachePosition := 0
           lfnCount := 0
           dataSectionLba := 0
           fatType := 0
           totalSectors := 0
           sectorsPerFat := 0 }
  clock := 0
  log := []

end St

/-! ### The disk and the two layers -/

/-- A disk as `DISK_ReadSectors` shows it: the bytes of every sector, which calls succeed, and what a
call that fails leaves in its buffer. Calls are numbered from the start of the run. -/
structure Device where
  disk : UInt32 → Sector
  ok : ℕ → UInt32 → Bool
  junk : ℕ → (n : ℕ) → Bytes n → Bytes n

namespace Device

/-- The `n` bytes on the disk from a sector on. -/
def window (dev : Device) (lba : UInt32) (n : ℕ) : Bytes n :=
  fun i => dev.disk (lba + UInt32.ofNat (i / 512)) ⟨i % 512, mod_sector_lt i⟩

/-- `DISK_ReadSectors` for the sectors that fill a buffer of `n` bytes. -/
def readSectors (dev : Device) (clock : ℕ) (lba : UInt32) (n : ℕ) (buf : Bytes n) :
    Bool × Bytes n :=
  if dev.ok clock lba then (true, dev.window lba n) else (false, dev.junk clock n buf)

/-- The device with a given disk, whose calls succeed as `ok` says; one that fails leaves the buffer
as it was. -/
def ofDisk (disk : UInt32 → Sector) (ok : ℕ → UInt32 → Bool := fun _ _ => true) : Device where
  disk := disk
  ok := ok
  junk _ _ buf := buf

/-- Every call succeeds. -/
def Reliable (dev : Device) : Prop := ∀ clock lba, dev.ok clock lba = true

lemma window_sector (dev : Device) (lba : UInt32) : dev.window lba 512 = dev.disk lba := by
  funext i
  have h : (i : ℕ) / 512 = 0 := by omega
  simp [window, h, Nat.mod_eq_of_lt i.isLt]

lemma readSectors_of_ok {dev : Device} {clock : ℕ} {lba : UInt32} (h : dev.ok clock lba = true)
    (n : ℕ) (buf : Bytes n) : dev.readSectors clock lba n buf = (true, dev.window lba n) := by
  simp [readSectors, h]

end Device

/-- `Kernel_DISK_ReadSectors`. For a floppy `Floppy_Read` reports success and reads nothing. -/
def kernelReadSectors (dev : Device) (disk : Disk) (clock : ℕ) (lba : UInt32) (n : ℕ)
    (buf : Bytes n) : Bool × Bytes n :=
  if disk.id < 0x80 then (true, buf) else dev.readSectors clock lba n buf

/-- What the two FAT layers differ in: the disk routine, and the absolute LBA they pass it for one
sector of the partition and for the window of the FAT that is cached. -/
structure Layer where
  readSectors : ℕ → UInt32 → (n : ℕ) → Bytes n → Bool × Bytes n
  sectorLba : UInt32 → UInt32
  fatLba : UInt32 → UInt32

/-- The bootloader's layer. `Partition_ReadSectors` adds the partition offset to every sector
number. -/
def bootLayer (dev : Device) (part : Partition) : Layer where
  readSectors := dev.readSectors
  sectorLba lba := lba + part.partitionOffset
  fatLba lba := lba + part.partitionOffset

/-- The kernel's layer. It adds the partition offset where it calls `Kernel_DISK_ReadSectors`, in
`Kernel_FAT_Initialize`, `Kernel_FAT_OpenEntry` and twice in `Kernel_FAT_Read`; the call in
`Kernel_FAT_NextCluster` has no such addition. -/
def kernelLayer (dev : Device) (part : Partition) : Layer where
  readSectors := kernelReadSectors dev part.disk
  sectorLba lba := lba + part.partitionOffset
  fatLba lba := lba

/-- A call of the disk routine. -/
def Layer.read (L : Layer) (lba : UInt32) {n : ℕ} (buf : Bytes n) (s : St) :
    (Bool × Bytes n) × St :=
  (L.readSectors s.clock lba n buf,
    { s with clock := s.clock + 1, log := .diskRead lba (n / 512) :: s.log })

@[simp] lemma Layer.read_fat (L : Layer) (lba : UInt32) {n : ℕ} (buf : Bytes n) (s : St) :
    (L.read lba buf s).2.fat = s.fat := rfl
@[simp] lemma Layer.read_clock (L : Layer) (lba : UInt32) {n : ℕ} (buf : Bytes n) (s : St) :
    (L.read lba buf s).2.clock = s.clock + 1 := rfl
@[simp] lemma Layer.read_log (L : Layer) (lba : UInt32) {n : ℕ} (buf : Bytes n) (s : St) :
    (L.read lba buf s).2.log = .diskRead lba (n / 512) :: s.log := rfl

end ArcOS.Fat
