import ArcOS.Boot.MemoryMap
import ArcOS.Boot.Splash
import ArcOS.Boot.Stage1
import ArcOS.Disk.Bios
import ArcOS.Elf.Loads
import ArcOS.Fat.Layout
import ArcOS.Kernel.Cli

/-!
`start` of stage 2's `main.c`, and the whole way from the MBR to the kernel.

`start` calls one layer after the other: the disk, the partition, the file system, the memory map, the loader, the
graphics and the keyboard. `boot_enters_kernel` puts together what is known of each: where stage 1 can read its
blocks and the volume has the two files that `start` asks for, the kernel is entered with its image in memory.

What comes between the two stages is the assembly of `entry.asm`. It has switched the A20 line on and entered
protected mode, and what it does to the memory is to clear `.bss`. The stubs that call the BIOS are taken by what they
return, and the frame buffer is apart from the memory.
-/

namespace ArcOS.Boot

open Lib Lib.Memory Fat Stdio Kernel.Cli

/-- The disk as `DISK_ReadSectors` shows it, where one of the three attempts of each read succeeds. -/
def Drive.device (d : Drive) : Device := .ofDisk fun lba i => d.image (512 * lba.toNat + i)

namespace Main

/-! ### What `main.c` runs on -/

/-- `MEMORY_VESA_INFO` -/
def memoryVesaInfo : UInt32 := 0x40000

/-- `MEMORY_MODE_INFO` -/
def memoryModeInfo : UInt32 := 0x50000

/-- The drive, the BIOS with a state for each of its services, and what the compiler decides: how `FAT_Data` is laid
out, and what the stack holds at the calls of `FAT_Open` and in `kernelEntry`. -/
structure Machine (σ τ υ : Type*) where
  drive : Drive
  disk : Disk.Bios σ
  int15 : UInt32 → τ → E820Regs × τ
  video : VideoBios υ
  /-- What INT 10h has filled the block at `MEMORY_VESA_INFO` with. -/
  vesaInfo : υ → List UInt8
  /-- What it has filled the block at `MEMORY_MODE_INFO` with. -/
  modeInfo : υ → List UInt8
  font : Font
  overlay : Elf.Overlay
  elfNames : ℕ → NameBuffer
  directoryName : NameBuffer
  fileName : NameBuffer
  kernelEntry : UInt32

/-- The memory with the two blocks. -/
def Machine.videoBlocks {σ τ υ : Type*} (M : Machine σ τ υ) (bios : υ) (m : Memory) : Memory :=
  (m.store memoryVesaInfo (M.vesaInfo bios)).store memoryModeInfo (M.modeInfo bios)

/-- What `start` finds, with the keys in the order they are pressed. -/
structure Stage2 (σ τ υ : Type*) where
  disk : σ
  e820 : τ
  regions : ℕ → MemoryRegion
  video : Video υ
  fat : St
  mem : Memory
  keys : List UInt8

/-- Where a run comes to: the loop at `end`, `x86_WaitForEnter`, or the call of the kernel. -/
inductive Ending where
  | halted
  | waiting
  | kernel (bootParams : BootParams) (s : Elf.Loader)

/-- Where a run stops. -/
inductive Halt where
  | stage1 (stop : Boot.Stop)
  | fat (stop : Fat.Stop)
  | rounds

/-! ### `main.c` -/

/-- What `x86_WaitForEnter` does with the keys that are pressed: the keys behind Enter, or `none` while it waits. -/
def waitForEnter : List UInt8 → Option (List UInt8)
  | [] => none
  | al :: keys => if al = 0x0D then some keys else waitForEnter keys

section

variable {σ τ υ : Type*} (M : Machine σ τ υ) (fuel : ℕ)

/-- `start` from `VBE_Initialize` on, with what it has printed before -/
def enterKernel (bootParams : BootParams) (video : Video υ) (keys : List UInt8) (out : List UInt8)
    (s : Elf.Loader) : Except Halt (List UInt8 × Ending) :=
  match vbeInitialize M.video M.font video fuel with
  | none => .error .rounds
  | some (false, _) => .ok (out ++ printed "VBE initialization error\r\n" [], .halted)
  | some (true, v) =>
    match waitForEnter keys with
    | none => .ok (out, .waiting)
    | some _ =>
      let bios := (M.video.setMode 0x03 v.bios).2
      .ok (out, .kernel bootParams { s with mem := M.videoBlocks bios s.mem })

/-- `start` from `FAT_ReadDirectory` on -/
def showFiles (part : Partition) (bootParams : BootParams) (video : Video υ) (keys : List UInt8) (out : List UInt8)
    (s : Elf.Loader) : Except Halt (List UInt8 × Ending) :=
  match fatReadDirectory M.drive.device part fuel (ascii "/") M.directoryName s.fat with
  | (.error stop, _) => .error (.fat stop)
  | (.ok (), fat) =>
    match fatReadFile M.drive.device part fuel (ascii "root/test.txt") M.fileName fat with
    | (.error stop, _) => .error (.fat stop)
    | (.ok (), fat) => enterKernel M fuel bootParams video keys out { s with fat := fat }

/-- What is printed once the kernel is loaded. -/
def report (part : Partition) : List UInt8 :=
  printed "\nDISK: id=%u cylinders=%u heads=%u sectors=%u\n"
      [.int part.disk.id.toUInt32, .int part.disk.cylinders.toUInt32, .int part.disk.heads.toUInt32,
        .int part.disk.sectors.toUInt32] ++
    printed "MBR: partitionOffset=%u partitionSize=%u\n" [.int part.partitionOffset, .int part.partitionSize]

/-- `start` from `ELF_Read` on -/
def loadKernel (part : Partition) (bootParams : BootParams) (fat : St) (s : Stage2 σ τ υ) :
    Except Halt (List UInt8 × Ending) :=
  match Elf.elfRead M.drive.device part M.overlay fuel (ascii "/kernel.elf") M.elfNames
      ⟨fat, s.mem, M.kernelEntry, []⟩ with
  | (.error stop, _) => .error (.fat stop)
  | (.ok false, _) => .ok (printed "ELF read failed, booting halted\r\n" [], .halted)
  | (.ok true, l) => showFiles M fuel part bootParams s.video s.keys (report part) l

/-- `start`, without `clrscr` and what the layers print themselves. -/
def start (bootDrive : UInt16) (partition : UInt32) (s : Stage2 σ τ υ) : Except Halt (List UInt8 × Ending) :=
  match Disk.diskInitialize M.disk bootDrive.toUInt8 s.disk with
  | (none, _) => .ok (printed "Disk initialization error\r\n" [], .halted)
  | (some disk, _) =>
    let part := Disk.detectPartition disk partition s.mem
    match fatInitialize M.drive.device part s.fat with
    | (.error stop, _) => .error (.fat stop)
    | (.ok false, _) => .ok (printed "FAT initialization error\r\n" [], .halted)
    | (.ok true, fat) =>
      match memDetect M.int15 fuel s.regions s.e820 with
      | none => .error .rounds
      | some memory => loadKernel M fuel part ⟨bootDrive.toUInt8, memory⟩ fat s

/-! ### `entry.asm` -/

/-- The memory without what is in `.bss`. -/
def clearBss (bssStart bssEnd : UInt32) (m : Memory) : Memory :=
  m.store bssStart (List.replicate (bssEnd - bssStart).toNat 0)

/-- `entry` -/
def entry (bssStart bssEnd : UInt32) (e : Entry) (s : Stage2 σ τ υ) : Except Halt (List UInt8 × Ending) :=
  start M fuel e.dl.toUInt16 (Disk.pushedPartition e.di e.si) { s with mem := clearBss bssStart bssEnd e.mem }

/-- The way from the jump of the MBR on. -/
def boot (bssStart bssEnd : UInt32) (ds si : UInt16) (dl : UInt8) (s : Stage2 σ τ υ) :
    Except Halt (List UInt8 × Ending) :=
  match Boot.start M.drive fuel ds si dl s.mem with
  | .error stop => .error (.stage1 stop)
  | .ok e => entry M fuel bssStart bssEnd e s

end

/-! ### The parts of `start` -/

/-- The volume has the two files that `start` asks for: the kernel, which is loaded above all memory of the boot
loader, and a file in the directory `root`. -/
structure Bootable (dev : Device) (part : Partition) (f : FatData) (held : Set ℕ) (kernel : DirectoryEntry)
    (chain : List UInt32) (test : DirectoryEntry) (testChain : List UInt32) (file : ℕ → UInt8) : Prop where
  kernelFile : Elf.HasFile dev part f held (ascii "/kernel.elf") kernel chain
  bytes : Elf.fileByte dev part f kernel chain = file
  whole : Elf.Whole file kernel.size.toNat
  high : ∀ j < Elf.headerCount file, ∀ a, Elf.Covers (Elf.programHeader file j) a → 0x50100 ≤ a.toNat
  testFile : ∀ m ∈ held, ∀ name, Resolves dev part f (heldEntries (partitionSectors dev part) f m)
    (handed name [] (components (ascii "root/test.txt"))) (some test)
  testRaw : IsRawFile dev part f test testChain

/-- The BIOS has a list of modes that stays as it is, and fills no more than its two blocks. -/
structure HasModes {σ τ υ : Type*} (M : Machine σ τ υ) (v : Video υ) (modes : List UInt16) : Prop where
  info : (M.video.getVbeInfo v.bios).1 = 0
  picked : v.pickedMode = 0xFFFF
  listed : ModesAt M.video (segOff2Lin (M.video.videoModePtr (M.video.getVbeInfo v.bios).2)) modes
    (M.video.getVbeInfo v.bios).2
  kept : ∀ mode bios, ModesAt M.video (segOff2Lin (M.video.videoModePtr (M.video.getVbeInfo v.bios).2)) modes bios →
    ModesAt M.video (segOff2Lin (M.video.videoModePtr (M.video.getVbeInfo v.bios).2)) modes
      (M.video.getModeInfo mode bios).2
  blocks : ∀ bios, (M.vesaInfo bios).length ≤ 512 ∧ (M.modeInfo bios).length ≤ 256

/-- What the FAT layer does from one state to another: it shows the root directory and the test file, and keeps the
volume. -/
structure ShowsFiles (dev : Device) (part : Partition) (f : FatData) (held : Set ℕ) (test : DirectoryEntry)
    (testChain : List UInt32) (s t : St) : Prop where
  shows : ∃ m ∈ held, Shows s t (listing (heldEntries (partitionSectors dev part) f m) ++
    (crlf (fileContent dev part f test testChain) ++ [10]))
  volume : SameVolume f t.fat

lemma drive_reliable (d : Drive) : d.device.Reliable := fun _ _ => rfl

lemma exists_waitForEnter : ∀ {keys : List UInt8}, 0x0D ∈ keys → ∃ left, waitForEnter keys = some left := by
  intro keys
  induction keys with
  | nil => simp
  | cons al keys ih =>
    intro h
    rw [waitForEnter]
    split
    · exact ⟨keys, rfl⟩
    · next hne => exact ih ((List.mem_cons.mp h).resolve_left (Ne.symm hne))

lemma offset_of_le {base a : UInt32} (h : base.toNat ≤ a.toNat) : offset base a = a.toNat - base.toNat :=
  UInt32.toNat_sub_of_le _ _ (UInt32.le_iff_toNat_le.mpr h)

lemma plainPath_test : PlainPath (ascii "root/test.txt") := by
  refine ⟨by simp [ascii], ?_, ?_⟩
  all_goals
    rw [show components (ascii "root/test.txt") = [ascii "root", ascii "test.txt"] by decide]
    decide

section Parts

variable {σ τ υ : Type*} {M : Machine σ τ υ} {part : Partition} {f : FatData} {held : Set ℕ}
  {kernel test : DirectoryEntry} {chain testChain : List UInt32} {file : ℕ → UInt8} {video : Video υ}
  {modes : List UInt16} {keys : List UInt8}

/-- **From the graphics on**: the kernel is called once Enter is pressed. -/
lemma enterKernel_ends (hmodes : HasModes M video modes) (hkeys : 0x0D ∈ keys) :
    ∃ n, ∀ fuel, n ≤ fuel → ∀ bootParams out s, ∃ bios,
      enterKernel M fuel bootParams video keys out s =
        .ok (out, .kernel bootParams { s with mem := M.videoBlocks bios s.mem }) := by
  obtain ⟨⟨ok, v⟩, hok, n, hn⟩ := vbeInitialize_returns M.font hmodes.info hmodes.picked hmodes.listed hmodes.kept
  obtain ⟨left, hleft⟩ := exists_waitForEnter hkeys
  dsimp only at hok
  subst hok
  refine ⟨n, fun fuel hfuel bootParams out s => ⟨(M.video.setMode 0x03 v.bios).2, ?_⟩⟩
  rw [enterKernel, hn fuel hfuel]
  dsimp only
  rw [hleft]

/-- **From `FAT_ReadDirectory` on**, on a volume that has the files. -/
lemma showFiles_ends (hvolume : Bootable M.drive.device part f held kernel chain test testChain file)
    (hmodes : HasModes M video modes) (hkeys : 0x0D ∈ keys) :
    ∃ n, ∀ fuel, n ≤ fuel → ∀ bootParams out (s : Elf.Loader), Rests M.drive.device part f held s.fat →
      ∃ u bios, showFiles M fuel part bootParams video keys out s =
          .ok (out, .kernel bootParams { s with fat := u, mem := M.videoBlocks bios s.mem }) ∧
        ShowsFiles M.drive.device part f held test testChain s.fat u := by
  obtain ⟨n, hn⟩ := enterKernel_ends hmodes hkeys
  refine ⟨max n (max (recordBound f) (test.size.toNat + 100)), fun fuel hfuel bootParams out s hrests => ?_⟩
  have hrel := drive_reliable M.drive
  obtain ⟨m, hm, hlisted, hshows, hrest⟩ :=
    hrests.listsRoot hrel (show stripSlash (ascii "/") = [] by decide) fuel M.directoryName
  obtain ⟨hread, -, hshows'⟩ := hrest.showsFile hrel hvolume.kernelFile.fatType plainPath_test
    (hvolume.testFile m hm M.fileName) hvolume.testRaw (show recordBound f ≤ fuel by omega) (by omega)
  obtain ⟨bios, hrun⟩ := hn fuel (by omega) bootParams out { s with
    fat := (fatReadFile M.drive.device part fuel (ascii "root/test.txt") M.fileName
      (fatReadDirectory M.drive.device part fuel (ascii "/") M.directoryName s.fat).2).2 }
  refine ⟨_, bios, ?_, ⟨m, hm, hshows.trans hshows'⟩,
    (SameVolume.stable _ f).call fuel (.readFile (ascii "root/test.txt") M.fileName) hrest.volume⟩
  rw [showFiles, show fatReadDirectory M.drive.device part fuel (ascii "/") M.directoryName s.fat =
    (.ok (), _) from Prod.ext hlisted rfl]
  dsimp only
  rw [show fatReadFile M.drive.device part fuel (ascii "root/test.txt") M.fileName
    (fatReadDirectory M.drive.device part fuel (ascii "/") M.directoryName s.fat).2 = (.ok (), _) from
    Prod.ext hread rfl]
  exact hrun

/-- The blocks of INT 10h are low in memory. -/
lemma HasModes.videoBlocks (h : HasModes M video modes) (bios : υ) {m : Memory} {a : UInt32}
    (ha : 0x50100 ≤ a.toNat) : M.videoBlocks bios m a = m a := by
  obtain ⟨hvesa, hmode⟩ := h.blocks bios
  have hbehind : ∀ {base : UInt32} {n : ℕ}, base.toNat + n ≤ 0x50100 → n ≤ offset base a := by
    intro base n hn
    rw [offset_of_le (by omega)]
    omega
  rw [Machine.videoBlocks, store_of_le (hmode.trans (hbehind (by decide))),
    store_of_le (hvesa.trans (hbehind (by decide)))]

/-- **From `ELF_Read` on**, from whatever memory. -/
lemma loadKernel_ends (hvolume : Bootable M.drive.device part f held kernel chain test testChain file)
    {s : Stage2 σ τ υ} (hmodes : HasModes M s.video modes) (hkeys : 0x0D ∈ s.keys) {t : St}
    (hrests : Rests M.drive.device part f held t) :
    ∃ n, ∀ fuel, n ≤ fuel → ∀ bootParams mem, ∃ u l,
      loadKernel M fuel part bootParams t { s with mem := mem } = .ok (report part, .kernel bootParams l) ∧
      ShowsFiles M.drive.device part f held test testChain u l.fat ∧
      l.entryPoint = Elf.ELFHeader.programEntryPosition file ∧
      ∀ j < Elf.headerCount file, ∀ a, Elf.Covers (Elf.programHeader file j) a →
        l.mem a = Elf.loadedByte file (Elf.programHeader file j) (Elf.skipped file mem) a := by
  obtain ⟨n, hn⟩ := showFiles_ends hvolume hmodes hkeys
  refine ⟨max n (max (recordBound f) 0x10000), fun fuel hfuel bootParams mem => ?_⟩
  obtain ⟨l, hread, hrest, hpoint, hmem⟩ := hvolume.kernelFile.loads
    (show recordBound f ≤ fuel by omega) (by omega) M.overlay M.elfNames hvolume.bytes hvolume.whole hrests mem
    M.kernelEntry
  obtain ⟨u, bios, hrun, hshows⟩ := hn fuel (by omega) bootParams (report part) l hrest
  refine ⟨l.fat, { l with fat := u, mem := M.videoBlocks bios l.mem }, ?_, hshows, hpoint,
    fun j hj a hcov => ?_⟩
  · rw [loadKernel, hread]
    exact hrun
  · rw [← hmem j hj a hcov]
    exact hmodes.videoBlocks bios (hvolume.high j hj a hcov)

end Parts

/-! ### From the MBR to the kernel -/

/-- The kernel is entered as stage 2 has prepared it: with the number of the drive and the memory map, at the entry
point of its file, with the volume in `FAT_Data`, and with its image exactly if the bytes that `ELF_Read` leaves alone
were right in the memory `m`. -/
structure Entered (dev : Device) (f : FatData) (file : ℕ → UInt8) (size : ℕ) (m : Memory) (dl : UInt8)
    (blocks : List E820MemoryBlock) (bootParams : BootParams) (l : Elf.Loader) : Prop where
  bootDevice : bootParams.bootDevice = dl
  regionCount : bootParams.memory.regionCount = blocks.length - 1
  regions : ∀ i (h : i < blocks.length - 1), bootParams.memory.regions i = (blocks.get ⟨i, by omega⟩).region
  entryPoint : l.entryPoint = Elf.ELFHeader.programEntryPosition file
  image : Elf.Faithful file size l ↔ Elf.RightBefore file (Elf.skipped file m)
  mounts : ∀ part, ∃ t, Kernel.fatInitialize dev part l.fat = (.ok true, t) ∧ SameVolume f t.fat

lemma clearBss_kept {bssStart bssEnd a : UInt32} {m : Memory} (hbss : bssStart ≤ bssEnd)
    (ha : bssEnd.toNat ≤ a.toNat) : clearBss bssStart bssEnd m a = m a := by
  have hstart := UInt32.le_iff_toNat_le.mp hbss
  refine store_of_le ?_
  rw [List.length_replicate, UInt32.toNat_sub_of_le _ _ hbss, offset_of_le (hstart.trans ha)]
  omega

/-- What stage 1 leaves alone. -/
lemma stage1_kept {d : Drive} {ds si : UInt16} {dl : UInt8} {m m' : Memory} {done : List UInt8}
    (h : Progress (prepared d ds si dl m) done m') {a : UInt32} (ha : 0x50100 ≤ a.toNat) : m' a = m a := by
  have hne : ∀ b : UInt32, b.toNat < 0x50100 → a ≠ b := fun b hb heq => by
    rw [heq] at ha
    omega
  have hoffset : ∀ base : UInt32, base.toNat < 0x50000 → 0x100 ≤ offset base a := fun base hb => by
    rw [offset_of_le (by omega)]
    omega
  have hplaces : ∀ j < 16, (Disk.realMode Disk.partitionEntrySegment
      (Disk.partitionEntryOffset + UInt16.ofNat j)).toNat < 0x50100 := by decide
  have hdap := hoffset extensionsDap (by decide)
  rw [h.kept a ?_ (by unfold Filled; omega), prepared_of_ne (hne _ (by decide)) (hne _ (by decide)),
    Disk.repMovsb_of_ne fun j hj => hne _ (hplaces j hj)]
  rw [offset_of_le (by rw [show (0x500 : UInt32).toNat = 0x500 from rfl]; omega),
    show (0x500 : UInt32).toNat = 0x500 from rfl]
  omega

section Boot

variable {σ τ υ : Type*} {M : Machine σ τ υ} {part : Partition} {held : Set ℕ} {kernel test : DirectoryEntry}
  {chain testChain : List UInt32} {file : ℕ → UInt8} {modes : List UInt16} {blocks : List E820MemoryBlock}

/-- The kernel's layer mounts what stage 2 has mounted: its disk routine reports no error, and the boot sector is the
one in `FAT_Data`. -/
lemma kernel_mounts {d : Drive} {s t u : St} (hmount : fatInitialize d.device part s = (.ok true, t))
    (hsame : SameVolume t.fat u.fat) (part' : Partition) :
    ∃ t', Kernel.fatInitialize d.device part' u = (.ok true, t') ∧ SameVolume t.fat t'.fat := by
  obtain ⟨s', hs', -⟩ := fatInitialize_volume hmount
  refine fatInitializeVolume_again hs' hsame.bootSector fun clock lba n buf => ?_
  change (kernelReadSectors d.device part'.disk clock lba n buf).1 = true
  unfold kernelReadSectors
  split
  · rfl
  · rfl

/-- **`start`**, wherever the partition lies in memory. -/
lemma start_ends {s : Stage2 σ τ υ} {dl : UInt8} {disk : Fat.Disk} {t : St}
    (hdisk : (Disk.diskInitialize M.disk dl s.disk).1 = some disk)
    (hmount : fatInitialize M.drive.device part s.fat = (.ok true, t)) (hcount : rootCount t.fat ≠ 0) (h0 : 0 ∈ held)
    (hvolume : Bootable M.drive.device part t.fat held kernel chain test testChain file)
    (hreports : Reports M.int15 0 s.e820 blocks) (hmodes : HasModes M s.video modes) (hkeys : 0x0D ∈ s.keys) :
    ∃ n, ∀ fuel, n ≤ fuel → ∀ partition mem m, Disk.detectPartition disk partition mem = part →
      (∀ a : UInt32, 0x50100 ≤ a.toNat → mem a = m a) → ∃ bootParams u l,
        start M fuel dl.toUInt16 partition { s with mem := mem } = .ok (report part, .kernel bootParams l) ∧
        ShowsFiles M.drive.device part t.fat held test testChain u l.fat ∧
        Entered M.drive.device t.fat file kernel.size.toNat m dl blocks bootParams l := by
  have hrel := drive_reliable M.drive
  obtain ⟨n, hn⟩ := loadKernel_ends hvolume hmodes hkeys (mounted_rests hrel hmount hcount h0)
  have hsome : 1 ≤ blocks.length := by
    cases blocks with
    | nil => exact hreports.elim
    | cons => simp
  obtain ⟨memory, hmap, hcount', hregions⟩ := memDetect_first s.regions hreports hsome
  refine ⟨max n blocks.length, fun fuel hfuel partition mem m hpart hmem => ?_⟩
  obtain ⟨u, l, hrun, hshows, hpoint, himage⟩ := hn fuel (by omega) ⟨dl, memory⟩ mem
  refine ⟨⟨dl, memory⟩, u, l, ?_, hshows, rfl, hcount', hregions, hpoint, ?_, fun part' => ?_⟩
  · rw [start, UInt8.toUInt8_toUInt16, show Disk.diskInitialize M.disk dl s.disk = (some disk, _) from
      Prod.ext hdisk rfl]
    dsimp only
    rw [hpart, hmount]
    dsimp only
    rw [hmap fuel (by omega)]
    exact hrun
  · refine Elf.faithful_iff hvolume.whole.wellFormed ⟨hvolume.whole.inside, hpoint, fun j hj a hcov => ?_⟩
    rw [himage j hj a hcov]
    exact Elf.loadedByte_congr (Elf.skipped_congr (hmem a (hvolume.high j hj a hcov)))
  · exact kernel_mounts hmount hshows.volume part'

lemma entry_place : ∀ i < 16, 0x20000 ≤ ((0x20000 : UInt32) + UInt32.ofNat i).toNat := by decide

lemma diskInitialize_id {bios : Disk.Bios σ} {dl : UInt8} {s : σ} {disk : Fat.Disk}
    (h : (Disk.diskInitialize bios dl s).1 = some disk) : disk.id = dl := by
  unfold Disk.diskInitialize at h
  split at h
  · cases h
    rfl
  · cases h

end Boot

/-! ### A disk that boots -/

/-- The directory entries of the kernel, of the directory `root` and of the test file. -/
def kernelElf : DirectoryEntry := dirEntry (ascii "KERNEL  ELF") 0 2 88

def rootEntry : DirectoryEntry := dirEntry (ascii "ROOT       ") attributeDirectory 3 0

def testEntry : DirectoryEntry := dirEntry (ascii "TEST    TXT") 0 4 3

/-- The small volume with the small executable as the kernel, and a test file. -/
def bootVolume : UInt32 → Sector :=
  diskOf [(0, smallVolume.bootSector),
    (1, Bytes.ofList 512 [0xF8, 0xFF, 0xFF, 0xFF, 0xFF, 0xFF, 0xFF, 0xFF, 0xFF, 0xFF]),
    (33, Bytes.ofList 512 (List.ofFn kernelElf ++ List.ofFn rootEntry)),
    (34, Bytes.ofList 512 Elf.smallFile), (35, Bytes.ofList 512 (List.ofFn testEntry)),
    (36, Bytes.ofList 512 [72, 105, 10])]

/-- A drive with this volume from LBA 2048 on. -/
def bootDrive : Drive :=
  { flakyDrive with image := fun n => bootVolume (UInt32.ofNat (n / 512) - 2048) ⟨n % 512, mod_sector_lt n⟩ }

/-- A machine with that drive, two video modes and two blocks of memory. -/
def bootMachine : Machine Unit Unit Unit where
  drive := bootDrive
  disk := { reset := fun _ _ => (false, ()), read := fun _ _ => (false, ())
            params := fun _ _ => (⟨false, 0, 3, 63, 15⟩, ()) }
  int15 := listBios smallMachine
  video := twoModes
  vesaInfo _ := ascii "VESA"
  modeInfo _ := []
  font _ _ := 0x18
  overlay _ := id
  elfNames _ := blankName
  directoryName := blankName
  fileName := blankName
  kernelEntry := 0

def bootState : Stage2 Unit Unit Unit where
  disk := ()
  e820 := ()
  regions := emptyTable
  video := ⟨(), goodMode, 0xFFFF, fun _ => 0, []⟩
  fat := .start
  mem := installedMemory
  keys := [27, 13]

/-- The partition of the second entry of the MBR. -/
def bootPart : Partition := ⟨⟨0x80, 4, 63, 16⟩, 2048, 200⟩

def bootVolumeLayer : Layer := bootLayer bootDrive.device bootPart

lemma boot_mounts : fatInitialize bootDrive.device bootPart .start = (.ok true, mounted bootVolumeLayer) :=
  Prod.ext (by decide) rfl

lemma boot_fat16 : (mounted bootVolumeLayer).fat.fatType = 16 := by rfl

lemma boot_kernelFile : Elf.HasFile bootDrive.device bootPart (mounted bootVolumeLayer).fat {0} (ascii "/kernel.elf")
    kernelElf [2] where
  reliable _ _ := rfl
  fatType := boot_fat16
  plain := by
    refine ⟨by simp [ascii], ?_, ?_⟩
    all_goals
      rw [show components (ascii "/kernel.elf") = [ascii "kernel.elf"] by decide]
      decide
  lasts := .of_early (by simp [ascii]) (by simp [ascii])
    (show stripSlash (ascii "/kernel.elf") = ascii "kernel" ++ 46 :: ascii "elf" by decide) (by simp [ascii])
    (by decide) (by decide +kernel) (by decide +kernel)
  isFile := by
    refine ⟨by decide, fun c hc => ?_, ⟨by simp, fun i hi => ?_⟩, by decide +kernel⟩
    · cases hc
      decide
    · simp at hi

lemma boot_rootDirectory : OpenDirectory bootDrive.device bootPart (mounted bootVolumeLayer).fat rootEntry [3] where
  directory := by unfold IsDirectory; decide
  size := by decide
  whole := ⟨by decide, ⟨by simp, by simp⟩, by decide⟩
  nodup := by simp
  unbroken tag := by
    apply unbroken_of_wide
    rw [boot_fat16]
    decide

/-- The kernel's file as the volume has it. -/
def bootFile : ℕ → UInt8 :=
  Elf.fileByte bootDrive.device bootPart (mounted bootVolumeLayer).fat kernelElf [2]

/-- It has one program header, with a segment of 8 bytes at 1 MiB, of which it holds the first four. -/
lemma bootFile_fields : (Elf.headerCount bootFile = 1 ∧ Elf.ELFHeader.programHeaderTablePosition bootFile = 52 ∧
      Elf.ELFHeader.programHeaderTableEntrySize bootFile = 32 ∧
      Elf.ELFHeader.programEntryPosition bootFile = 0x100000) ∧
    Elf.ELFProgramHeader.offset (Elf.programHeader bootFile 0) = 84 ∧
    Elf.ELFProgramHeader.virtualAddress (Elf.programHeader bootFile 0) = 0x100000 ∧
    Elf.ELFProgramHeader.fileSize (Elf.programHeader bootFile 0) = 4 ∧
    Elf.ELFProgramHeader.memorySize (Elf.programHeader bootFile 0) = 8 := by decide +kernel

lemma bootFile_one {j : ℕ} (hj : j < Elf.headerCount bootFile) : j = 0 := by
  rw [bootFile_fields.1.1] at hj
  exact Nat.lt_one_iff.mp hj

lemma bootFile_wellFormed : Elf.WellFormed bootFile := by
  obtain ⟨⟨hcount, hposition, hsize, -⟩, -, haddress, hfile, hmemory⟩ := bootFile_fields
  refine Elf.wellFormed_of_one hcount (by rw [hposition]; decide) (by rw [hsize]; rfl)
    (Elf.fits_of_range (by rw [hfile, hmemory]; decide) ?_ ?_ ?_)
  all_goals
    rw [Elf.FarBehind, haddress, hmemory]
    decide

lemma boot_bootable : Bootable bootDrive.device bootPart (mounted bootVolumeLayer).fat {0} kernelElf [2] testEntry [4]
    bootFile where
  kernelFile := boot_kernelFile
  bytes := rfl
  whole := by
    obtain ⟨⟨hcount, hposition, hsize, -⟩, hoffset, -, hfile, -⟩ := bootFile_fields
    refine ⟨bootFile_wellFormed, by decide, ?_, fun j hj hend => ?_⟩
    · have hentries : Elf.ELFHeader.programHeaderTableEntryCount bootFile = 1 := UInt32.toNat_inj.mp hcount
      rw [Elf.TableInside, hposition, hsize, hentries]
      decide
    · obtain rfl := bootFile_one hj
      have hlt := hend.2
      rw [hoffset, hfile] at hlt
      revert hlt
      decide
  high j hj a hcov := by
    obtain rfl := bootFile_one hj
    obtain ⟨-, -, haddress, -, hmemory⟩ := bootFile_fields
    have hoff := hcov.2
    rw [haddress, hmemory, offset, UInt32.toNat_sub] at hoff
    have hlt := a.toNat_lt
    simp only [UInt32.reduceToNat] at hoff
    omega
  testFile m hm name := by
    obtain rfl : m = 0 := hm
    rw [show components (ascii "root/test.txt") = [ascii "root", ascii "test" ++ 46 :: ascii "txt"] by decide, handed,
      handed]
    refine .inside (by decide +kernel) boot_rootDirectory (.found ?_)
    rw [shortName_behind (by simp [ascii]) (by simp [ascii])]
    decide +kernel
  testRaw := by
    refine ⟨by decide, fun c hc => by cases hc; decide, fun i hi => ?_, ⟨by simp, fun _ => by simp⟩, fun i hi => ?_,
      by decide +kernel⟩
    all_goals simp at hi

lemma boot_hasModes : HasModes bootMachine bootState.video [0x101, 0x118] where
  info := rfl
  picked := rfl
  listed := by
    rw [show segOff2Lin _ = 0x40022 by decide]
    exact twoModes_at
  kept _ _ h := h
  blocks := fun () => ⟨by decide, by decide⟩

end Main
end ArcOS.Boot
