import ArcOS.Lib.Memory
import ArcOS.Fat.Layers

/-!
`ELF_Read` of `libs/boot/elf.c`, over the bootloader's FAT layer and a flat memory.

The memory holds the two buffers of the loader and the segments it loads. What lies at `MEMORY_FAT_ADDR` is
kept as the state of the FAT layer; what a segment that is written over it makes of that state is left open
(`Overlay`). The program headers stay in the header buffer while the segments are loaded, and the loops count
down the fields `Offset` and `FileSize` there. A segment may be written over its own header, so the loops
take the number of rounds they may run, and stop with `outOfFuel` when these are used up.
-/

namespace ArcOS.Elf

open Lib Fat

/-! ### `memory.c` -/

/-- `memset`. The count is a `uint16_t`. -/
def memset (ptr : UInt32) (value : UInt8) (num : UInt16) (m : Memory) : Memory :=
  m.fill ptr value num.toNat

/-- `memcpy`, one byte after the other. The count is a `uint16_t`. -/
def memcpy (dst src : UInt32) (num : UInt16) (m : Memory) : Memory :=
  (List.range num.toNat).foldl
    (fun m i => m.store (dst + UInt32.ofNat i) [m (src + UInt32.ofNat i)]) m

/-! ### Headers -/

/-- `MEMORY_FAT_ADDR`, where the data of the FAT layer lies. -/
def fatData : UInt32 := 0x20000

/-- Bytes written to an address reach into the `MEMORY_FAT_SIZE` bytes of the FAT layer's data. -/
def HitsFatData (address : UInt32) (count : ℕ) : Prop :=
  Memory.offset address fatData < count ∨ 0 < count ∧ Memory.offset fatData address < 0x10000

instance (address : UInt32) (count : ℕ) : Decidable (HitsFatData address count) :=
  inferInstanceAs (Decidable (_ ∨ _))

/-- `MEMORY_ELF_ADDR`, the header buffer. -/
def headerBuffer : UInt32 := 0x30000

/-- `MEMORY_LOAD_KERNEL`, the load buffer. -/
def loadBuffer : UInt32 := 0x40000

/-- `MEMORY_LOAD_SIZE`. -/
def memoryLoadSize : UInt32 := 0x10000

/-- The size of an `ELFHeader`. -/
def headerSize : UInt32 := 52

/-- `ELF_PROGRAM_TYPE_LOAD`. -/
def programTypeLoad : UInt32 := 1

/-! The fields of an `ELFHeader` that are used, in the bytes it starts with. -/

namespace ELFHeader

def programEntryPosition (b : ℕ → UInt8) : UInt32 := word32 b 24
def programHeaderTablePosition (b : ℕ → UInt8) : UInt32 := word32 b 28
def programHeaderTableEntrySize (b : ℕ → UInt8) : UInt32 := (word16 b 42).toUInt32
def programHeaderTableEntryCount (b : ℕ → UInt8) : UInt32 := (word16 b 44).toUInt32

end ELFHeader

/-! The fields of an `ELFProgramHeader` that are used. -/

namespace ELFProgramHeader

def type (b : ℕ → UInt8) : UInt32 := word32 b 0
def offset (b : ℕ → UInt8) : UInt32 := word32 b 4
def virtualAddress (b : ℕ → UInt8) : UInt32 := word32 b 8
def fileSize (b : ℕ → UInt8) : UInt32 := word32 b 16
def memorySize (b : ℕ → UInt8) : UInt32 := word32 b 20

end ELFProgramHeader

/-! ### The state -/

/-- What a run of the loader leaves in its log. -/
inductive LoadEvent where
  /-- `FAT_Open` has returned, in a state of the FAT layer. -/
  | opened (file : Except Stop (Option Loc)) (fat : St)
  /-- `FAT_Read` is called in a state of the FAT layer. -/
  | read (file : Option Loc) (byteCount dataOut : UInt32) (fat : St)
  /-- `memset` or `memcpy` has written bytes of a segment. -/
  | written (address : UInt32) (count : UInt16)

/-- What becomes of the state of the FAT layer when bytes are written over its data. How the compiler lays
`FAT_Data` out decides it; here it may be any function of the memory behind the write. -/
abbrev Overlay := Memory → St → St

/-- The state of the loader: the FAT layer, the memory, the variable that `entryPoint` points to, and the
log, latest entry first. -/
structure Loader where
  fat : St
  mem : Memory
  entryPoint : UInt32
  log : List LoadEvent

namespace Loader

/-- The bytes of the program header at an address. -/
def header (s : Loader) (programHeader : UInt32) : ℕ → UInt8 := s.mem.view programHeader

/-- A 32-bit field is written. -/
def setWord (address value : UInt32) (s : Loader) : Loader :=
  { s with mem := s.mem.store address (bytes32 value) }

/-- Bytes of a segment are written, with the memory behind that. -/
def written (overlay : Overlay) (address : UInt32) (count : UInt16) (m : Memory) (s : Loader) : Loader :=
  { s with
    fat := if HitsFatData address count.toNat then overlay m s.fat else s.fat
    mem := m
    log := .written address count :: s.log }

def printf (text : String) (s : Loader) : Loader := { s with fat := s.fat.note (.printf text) }

end Loader

/-! ### The calls of the FAT layer -/

variable (dev : Device) (part : Partition)

def fatOpen (fuel : ℕ) (path : List UInt8) (name : NameBuffer) (s : Loader) :
    Except Stop (Option Loc) × Loader :=
  let r := Boot.fatOpen dev part fuel path name s.fat
  (r.1, { s with fat := r.2, log := .opened r.1 r.2 :: s.log })

/-- `FAT_Read` into the memory at `dataOut`. It writes upwards from one of the two buffers: only with nearly
2 ^ 32 bytes would it come around to the data of the layer. -/
def fatRead (file : Option Loc) (byteCount dataOut : UInt32) (s : Loader) : Except Stop UInt32 × Loader :=
  let r := Boot.fatRead dev part file byteCount s.fat
  let s := { s with fat := r.2, log := .read file byteCount dataOut s.fat :: s.log }
  match r.1 with
  | .error e => (.error e, s)
  | .ok (count, stored) => (.ok count, { s with mem := s.mem.store dataOut stored })

def fatClose (file : Option Loc) (s : Loader) : Except Stop Unit × Loader :=
  let r := close file s.fat
  (r.1, { s with fat := r.2 })

/-- `FAT_Read` and the test that all bytes came. The result tells whether `ELF_Read` goes on; if not, it
returns `false`. -/
def readAll (file : Option Loc) (byteCount dataOut : UInt32) (text : String) (s : Loader) :
    Except Stop Bool × Loader :=
  match fatRead dev part file byteCount dataOut s with
  | (.error e, s) => (.error e, s)
  | (.ok count, s) => if count = byteCount then (.ok true, s) else (.ok false, s.printf text)

/-! ### `ELF_Read` -/

/-- The number of bytes that one round of a loop reads. -/
def shouldRead (left : UInt32) : UInt32 := if left < memoryLoadSize then left else memoryLoadSize

/-- The loop that seeks the start of a segment, with the rounds it may run. -/
def seekLoop (file : Option Loc) (programHeader : UInt32) : ℕ → Loader → Except Stop Bool × Loader
  | 0, s =>
    (if 0 < ELFProgramHeader.offset (s.header programHeader) then .error .outOfFuel else .ok true, s)
  | rounds + 1, s =>
    let offset := ELFProgramHeader.offset (s.header programHeader)
    if 0 < offset then
      match readAll dev part file (shouldRead offset) loadBuffer "ELF Load error\n" s with
      | (.ok true, s) => seekLoop file programHeader rounds (s.setWord (programHeader + 4)
          (ELFProgramHeader.offset (s.header programHeader) - shouldRead offset))
      | r => r
    else (.ok true, s)

variable (overlay : Overlay)

/-- The loop that copies a segment, with the rounds it may run. -/
def loadLoop (file : Option Loc) (programHeader : UInt32) :
    ℕ → UInt32 → Loader → Except Stop Bool × Loader
  | 0, _, s =>
    (if 0 < ELFProgramHeader.fileSize (s.header programHeader) then .error .outOfFuel else .ok true, s)
  | rounds + 1, virtualAddress, s =>
    let fileSize := ELFProgramHeader.fileSize (s.header programHeader)
    if 0 < fileSize then
      let read := shouldRead fileSize
      match readAll dev part file read loadBuffer "ELF Load error\n" s with
      | (.ok true, s) =>
        let s := s.setWord (programHeader + 16) (ELFProgramHeader.fileSize (s.header programHeader) - read)
        loadLoop file programHeader rounds (virtualAddress + read) (s.written overlay virtualAddress read.toUInt16
          (memcpy virtualAddress loadBuffer read.toUInt16 s.mem))
      | r => r
    else (.ok true, s)

/-- The file is opened anew, and one segment of it is loaded. -/
def loadFile (fuel : ℕ) (path : List UInt8) (name : NameBuffer) (programHeader virtualAddress : UInt32)
    (s : Loader) : Except Stop Bool × Loader :=
  match fatOpen dev part fuel path name s with
  | (.error e, s) => (.error e, s)
  | (.ok fd, s) =>
    match seekLoop dev part fd programHeader fuel s with
    | (.ok true, s) =>
      match loadLoop dev part overlay fd programHeader fuel virtualAddress s with
      | (.ok true, s) => let r := fatClose fd s; (r.1.map fun _ => true, r.2)
      | r => r
    | r => r

/-- One program header. -/
def loadSegment (fuel : ℕ) (path : List UInt8) (name : NameBuffer) (programHeader : UInt32)
    (s : Loader) : Except Stop Bool × Loader :=
  if ELFProgramHeader.type (s.header programHeader) = programTypeLoad then
    let virtualAddress := ELFProgramHeader.virtualAddress (s.header programHeader)
    let memorySize := (ELFProgramHeader.memorySize (s.header programHeader)).toUInt16
    loadFile dev part overlay fuel path name programHeader virtualAddress
      (s.written overlay virtualAddress memorySize (memset virtualAddress 0 memorySize s.mem))
  else (.ok true, s)

/-- The loop over the program headers, from number `i` on. -/
def loadSegments (fuel : ℕ) (path : List UInt8) (names : ℕ → NameBuffer)
    (programHeaderTableEntrySize : UInt32) : ℕ → ℕ → Loader → Except Stop Bool × Loader
  | 0, _, s => (.ok true, s)
  | left + 1, i, s =>
    match loadSegment dev part overlay fuel path (names (i + 1))
        (headerBuffer + UInt32.ofNat i * programHeaderTableEntrySize) s with
    | (.ok true, s) => loadSegments fuel path names programHeaderTableEntrySize left (i + 1) s
    | r => r

/-- What follows the ELF header: the program headers are read into the header buffer, over what is skipped
to reach them, and the segments are loaded. -/
def loadImage (fuel : ℕ) (path : List UInt8) (names : ℕ → NameBuffer) (file : Option Loc)
    (programHeaderOffset programHeaderTableEntrySize programHeaderTableEntryCount : UInt32)
    (s : Loader) : Except Stop Bool × Loader :=
  match fatRead dev part file (programHeaderOffset - headerSize) headerBuffer s with
  | (.error e, s) => (.error e, s)
  | (.ok _, s) =>
    let programHeaderSize := programHeaderTableEntrySize * programHeaderTableEntryCount
    match readAll dev part file programHeaderSize headerBuffer "ELF Load error\n" s with
    | (.ok true, s) =>
      match fatClose file s with
      | (.error e, s) => (.error e, s)
      | (.ok (), s) => loadSegments dev part overlay fuel path names programHeaderTableEntrySize
          programHeaderTableEntryCount.toNat 0 s
    | r => r

/-- `ELF_Read`, with what the stack holds at each call of `FAT_Open`. The flag `ok`, which collects the checks
of the header, is never looked at, and not modelled. -/
def elfRead (fuel : ℕ) (path : List UInt8) (names : ℕ → NameBuffer) (s : Loader) :
    Except Stop Bool × Loader :=
  match fatOpen dev part fuel path (names 0) s with
  | (.error e, s) => (.error e, s)
  | (.ok fd, s) =>
    match readAll dev part fd headerSize headerBuffer "ELF Load error!\n" s with
    | (.ok true, s) =>
      let header := s.mem.view headerBuffer
      loadImage dev part overlay fuel path names fd (ELFHeader.programHeaderTablePosition header)
        (ELFHeader.programHeaderTableEntrySize header) (ELFHeader.programHeaderTableEntryCount header)
        { s with entryPoint := ELFHeader.programEntryPosition header }
    | r => r

end ArcOS.Elf
