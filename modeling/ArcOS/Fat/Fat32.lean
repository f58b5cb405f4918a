import ArcOS.Fat.Chains

/-!
Directories on FAT32.

An entry of the table has 28 bits, the upper four are reserved (`Chain32`). `FAT_NextCluster` returns all 32,
and `FAT_Read` takes a value from FFFFFFF8 on for an end mark: `directory32_iff` says for which tables a
subdirectory is read as its chain. The root directory is no chain to `FAT_Read`: its handle has the size
0, its cluster is a sector number that is counted up, and it never ends (`root32_never`).
-/

namespace ArcOS.Fat

open Lib Lib.Search

/-! ### Subdirectories -/

section Subdirectory

/-- A well-formed chain of a FAT32 volume: the low 28 bits of each link name the next cluster, those of the
last are an end mark. -/
structure Chain32 (dev : Device) (part : Partition) (f : FatData) (first : UInt32)
    (chain : List UInt32) : Prop where
  fat32 : f.fatType = 32
  head : chain.head? = some first
  cluster : ∀ c ∈ chain, 2 ≤ c ∧ c < 0x0FFFFFF7
  link : ∀ i, i + 1 < chain.length →
    diskLink dev part f (chain.getD i 0) &&& 0x0FFFFFFF = chain.getD (i + 1) 0
  last : 0x0FFFFFF8 ≤ diskLink dev part f (chain.getLastD 0) &&& 0x0FFFFFFF

/-- **The directory is read as its chain**: repeated `FAT_ReadEntry` calls give the entries of the chain
and then false, and read no sector that is not one of the chain. -/
structure ReadAsChain (dev : Device) (part : Partition) (f : FatData) (chain : List UInt32) (p : Loc)
    (s : St) : Prop where
  entries : Delivers (Boot.fatReadEntry dev part (some p)) (chainEntries dev part f chain) s
  sectors : ∀ k, Logged (Event.ReadsIn (SectorOf part f chain)) s
    (after (Boot.fatReadEntry dev part (some p)) k s)

variable {dev : Device} {part : Partition} {f : FatData} {first : UInt32} {chain : List UInt32} {s : St}

lemma masked_toNat (link : UInt32) : (link &&& 0x0FFFFFFF).toNat = link.toNat % 0x10000000 := by
  rw [UInt32.toNat_and, show (0x0FFFFFFF : UInt32).toNat = 2 ^ 28 - 1 from rfl,
    Nat.and_two_pow_sub_one_eq_mod]

/-- With the reserved bits 0 in every link but the last, and all 1 in that one, the links are followed
as the chain has them. -/
theorem Chain32.whole (h : Chain32 dev part f first chain)
    (hlinks : ∀ i, i + 1 < chain.length → diskLink dev part f (chain.getD i 0) < 0x10000000)
    (hlast : 0xF0000000 ≤ diskLink dev part f (chain.getLastD 0)) : WholeChain dev part f first chain := by
  refine ⟨h.head, ⟨fun c hc => ?_, fun i hi => ?_⟩, ?_⟩
  · have hlt := (h.cluster c hc).2
    rw [UInt32.lt_iff_toNat_lt] at hlt ⊢
    exact hlt.trans (by decide)
  · have hlt := hlinks i hi
    rw [UInt32.lt_iff_toNat_lt, show (0x10000000 : UInt32).toNat = 0x10000000 from rfl] at hlt
    rw [← h.link i hi]
    exact UInt32.toNat_inj.mp (by rw [masked_toNat, Nat.mod_eq_of_lt hlt])
  · have hmark := h.last
    rw [UInt32.le_iff_toNat_le, masked_toNat, show (0x0FFFFFF8 : UInt32).toNat = 0x0FFFFFF8 from rfl] at hmark
    rw [UInt32.le_iff_toNat_le, show (0xF0000000 : UInt32).toNat = 0xF0000000 from rfl] at hlast
    rw [UInt32.le_iff_toNat_le, show (0xFFFFFFF8 : UInt32).toNat = 0xFFFFFFF8 from rfl]
    have := (diskLink dev part f (chain.getLastD 0)).toNat_lt
    omega

/-- **Such a chain is walked**, unless it has 2^32 bytes or a multiple of them. -/
theorem Chain32.walks (h : Chain32 dev part f first chain) (hspc : 0 < f.sectorsPerCluster.toNat)
    (hlinks : ∀ i, i + 1 < chain.length → diskLink dev part f (chain.getD i 0) < 0x10000000)
    (hlast : 0xF0000000 ≤ diskLink dev part f (chain.getLastD 0))
    (hsize : chainLength f chain % 2 ^ 23 ≠ 0) : WalksChain dev part f first chain :=
  (h.whole hlinks hlast).walks (unbroken_of_wide (by rw [h.fat32]; decide)) hspc hsize

variable (dev part) in
lemma first_sectorOf (hhead : chain.head? = some first) (hspc : 0 < f.sectorsPerCluster.toNat) :
    SectorOf part f chain ((cursorAt dev part f first 0).lba + part.partitionOffset) := by
  refine ⟨first, List.mem_of_mem_head? hhead, 0, hspc, ?_⟩
  exact congrArg (· + part.partitionOffset) (UInt32.add_zero _).symm

/-- **When a FAT32 subdirectory is read as its chain**, with a disk whose reads succeed: exactly if the
walk along the 32-bit links as they stand in the table goes through the sectors of the chain, sector for
sector with its content, and comes to an end mark where the chain ends. -/
theorem directory32_iff (dev : Device) (hrel : dev.Reliable) (part : Partition) (s s' : St)
    (hr : Reachable (bootLayer dev part) s) (entry : DirectoryEntry)
    (hdir : entry.attributes &&& attributeDirectory ≠ 0) (hsize : entry.size = 0) (p : Loc)
    (hopen : Boot.fatOpenEntry dev part entry s = (some p, s')) (chain : List UInt32)
    (hchain : Chain32 dev part s.fat entry.firstCluster chain) :
    ReadAsChain dev part s.fat chain p s' ↔ WalksChain dev part s.fat entry.firstCluster chain := by
  obtain ⟨i, rfl, hreading⟩ := openEntry_reading (hr.coherent hrel) hdir hsize hopen
  have hshows : Delivers (Boot.fatReadEntry dev part (some (.slot i))) (chainEntries dev part s.fat chain) s' ↔
      ShowsChain dev part s.fat entry.firstCluster chain :=
    (directory_streams hrel hreading).delivers_iff.trans answers_iff
  have hreads := directory_reads hrel hreading (SectorOf part s.fat chain)
  have hfirst := first_sectorOf dev part hchain.head hr.sectorsPerCluster
  constructor
  · rintro ⟨hentries, hsectors⟩
    have hw := hshows.mp hentries
    exact ⟨hw, (walk_reads hw hfirst).mp (hreads.mp hsectors)⟩
  · rintro ⟨hw, hinside⟩
    exact ⟨hshows.mpr hw, hreads.mpr ((walk_reads hw hfirst).mpr hinside)⟩

end Subdirectory

/-! ### A small FAT32 volume -/

/-- The boot sector of a FAT32 volume with a table of 64 sectors and its root directory at cluster 2. -/
def bootSector32 : BootSector :=
  let v : Format := { dirEntryCount := 0, totalSectors := 8192, sectorsPerFat := 0 }
  (v.bootSector.write 36 (bytes32 64)).write 44 (bytes32 2)

/-- The directory `D` of that volume, at cluster 3. -/
def entryD : DirectoryEntry := dirEntry [68] attributeDirectory 3 0

/-- A disk with that volume. The entries of the clusters 2, the root directory, and 3 are given. -/
def disk32 (root sub : UInt32) : UInt32 → Sector :=
  diskOf [(0, bootSector32),
    (1, Bytes.ofList 512 (bytes32 0x0FFFFFF8 ++ bytes32 0x0FFFFFFF ++ bytes32 root ++ bytes32 sub)),
    (65, Bytes.ofList 512 (List.ofFn entryD)), (66, Bytes.ofList 512 (List.ofFn entryB))]

/-- The bootloader's layer on that disk. -/
def layer32 (root sub : UInt32) : Layer := bootLayer (.ofDisk (disk32 root sub)) (hardDiskPartition 0)

/-- The state of that volume with the directory `D` open. -/
def openedD (root sub : UInt32) : St := (openEntry (layer32 root sub) entryD (mounted (layer32 root sub))).2

theorem directory32_small :
    ReadAsChain (.ofDisk (disk32 0xFFFFFFFF 0xFFFFFFFF)) (hardDiskPartition 0)
        (mounted (layer32 0xFFFFFFFF 0xFFFFFFFF)).fat [3] (.slot 0) (openedD 0xFFFFFFFF 0xFFFFFFFF) ↔
      WalksChain (.ofDisk (disk32 0xFFFFFFFF 0xFFFFFFFF)) (hardDiskPartition 0)
        (mounted (layer32 0xFFFFFFFF 0xFFFFFFFF)).fat entryD.firstCluster [3] :=
  directory32_iff (.ofDisk (disk32 0xFFFFFFFF 0xFFFFFFFF)) (fun _ _ => rfl) (hardDiskPartition 0)
    (mounted (layer32 0xFFFFFFFF 0xFFFFFFFF)) (openedD 0xFFFFFFFF 0xFFFFFFFF)
    (mounted_reachable (by decide +kernel)) entryD (by decide) (by decide) (.slot 0)
    (Prod.ext (by decide +kernel) rfl) [3]
    ⟨by decide +kernel, by decide, by simp, fun i hi => absurd hi (by simp), by decide +kernel⟩

/-- The chain of `D` ends in 0FFFFFFF, as it should on FAT32. After its 16 entries another sector is read,
and a 17th entry comes out of it. -/
theorem directory32_marked :
    Chain32 (.ofDisk (disk32 0x0FFFFFFF 0x0FFFFFFF)) (hardDiskPartition 0)
      (mounted (layer32 0x0FFFFFFF 0x0FFFFFFF)).fat entryD.firstCluster [3] ∧
    openEntry (layer32 0x0FFFFFFF 0x0FFFFFFF) entryD (mounted (layer32 0x0FFFFFFF 0x0FFFFFFF)) =
      (some (.slot 0), openedD 0x0FFFFFFF 0x0FFFFFFF) ∧
    ¬ ReadAsChain (.ofDisk (disk32 0x0FFFFFFF 0x0FFFFFFF)) (hardDiskPartition 0)
      (mounted (layer32 0x0FFFFFFF 0x0FFFFFFF)).fat [3] (.slot 0) (openedD 0x0FFFFFFF 0x0FFFFFFF) := by
  refine ⟨⟨by decide +kernel, by decide, by simp, fun i hi => absurd hi (by simp), by decide +kernel⟩,
    Prod.ext (by decide +kernel) rfl, fun h => ?_⟩
  have hlength : (chainEntries (.ofDisk (disk32 0x0FFFFFFF 0x0FFFFFFF)) (hardDiskPartition 0)
      (mounted (layer32 0x0FFFFFFF 0x0FFFFFFF)).fat [3]).length = 16 := by
    rw [length_chainEntries]
    decide +kernel
  have hnone := h.entries.last
  rw [hlength] at hnone
  have hsome : ((Boot.fatReadEntry (.ofDisk (disk32 0x0FFFFFFF 0x0FFFFFFF)) (hardDiskPartition 0)
      (some (.slot 0)) (after (Boot.fatReadEntry (.ofDisk (disk32 0x0FFFFFFF 0x0FFFFFFF))
        (hardDiskPartition 0) (some (.slot 0))) 16 (openedD 0x0FFFFFFF 0x0FFFFFFF))).1.map
          Option.isSome).toOption = some true := by
    decide +kernel
  rw [hnone] at hsome
  cases hsome

/-! ### The root directory -/

section Root

variable {L : Layer} {s s' : St}

/-- The root handle is at record `k`, and has no size. -/
def RootOpen (k : ℕ) (s : St) : Prop := s.fat.rootDirectory.pub =
  { handle := rootDirectoryHandle, isDirectory := true, position := UInt32.ofNat (32 * k), size := 0 }

/-- **`FAT_ReadEntry` on a root handle without a size** always gives an entry. -/
theorem readEntry_rootOpen {k : ℕ} (h : RootOpen k s) :
    (∃ e, (readEntry L (some .root) s).1 = .ok (some e)) ∧
      RootOpen (k + 1) (readEntry L (some .root) s).2 := by
  have hpub : (s.fat.fd .root).pub = ⟨rootDirectoryHandle, true, UInt32.ofNat (32 * k), 0⟩ := h
  have hderef : s.fat.deref (some .root) = .ok .root := by simp [FatData.deref, hpub]
  have hentry := readEntry_aligned (L := L) (k := k) hderef (by rw [hpub]; simp [cappedCount])
    (by rw [hpub])
  have hcopied := copied_fd .root s
  rw [hpub] at hcopied
  dsimp only at hcopied
  rw [ofNat_succ] at hcopied
  rw [hentry]
  refine ⟨⟨_, rfl⟩, ?_⟩
  dsimp only
  split
  · have hahead := lookAhead_root_fd L .root (copied .root s) (by rw [hcopied])
    rw [hcopied] at hahead
    exact congrArg FileData.pub hahead
  · exact congrArg FileData.pub hcopied

lemma rootOpen_after (h : RootOpen 0 s) (k : ℕ) :
    RootOpen k (after (readEntry L (some .root)) k s) := by
  induction k with
  | zero => exact h
  | succ k ih =>
    rw [after_succ]
    exact (readEntry_rootOpen ih).2

lemma rootOpen_endless (h : RootOpen 0 s) (entries : List DirectoryEntry) :
    ¬ Delivers (readEntry L (some .root)) entries s := by
  intro hd
  obtain ⟨⟨e, he⟩, -⟩ := readEntry_rootOpen (L := L) (rootOpen_after h entries.length)
  have hend := hd.last
  rw [he] at hend
  cases hend

/-- The boot sector of a FAT32 volume: it has no 16-bit table size and no root directory of fixed
size. -/
def BootSector.IsFat32 (b : BootSector) : Prop := b.sectorsPerFat = 0 ∧ b.dirEntryCount = 0

/-- **The FAT32 root directory is never read as its chain.** After a successful initialisation of either layer,
with whatever disk and whatever chain, reading the root handle does not give the entries of the chain
and then false: it never gives false. -/
theorem root32_never (L : Layer) (s s' : St)
    (h : fatInitialize L s = (.ok true, s') ∨ fatInitializeVolume L s = (.ok true, s'))
    (h32 : BootSector.IsFat32 s'.fat.bootSector) (dev : Device) (part : Partition) (chain : List UInt32) :
    ¬ Delivers (readEntry L (some .root)) (chainEntries dev part s'.fat chain) s' := by
  have hinit : Initialised L s' := by
    rcases h with h | h
    · exact fatInitialize_initialised h
    · exact fatInitializeVolume_initialised h
  refine rootOpen_endless ?_ _
  rw [RootOpen, hinit.rootPub, h32.2]
  rfl

end Root

theorem root32_never_small :
    ¬ Delivers (readEntry (layer32 0xFFFFFFFF 0xFFFFFFFF) (some .root))
      (chainEntries (.ofDisk (disk32 0xFFFFFFFF 0xFFFFFFFF)) (hardDiskPartition 0)
        (mounted (layer32 0xFFFFFFFF 0xFFFFFFFF)).fat [2]) (mounted (layer32 0xFFFFFFFF 0xFFFFFFFF)) :=
  root32_never (layer32 0xFFFFFFFF 0xFFFFFFFF) .start (mounted (layer32 0xFFFFFFFF 0xFFFFFFFF))
    (.inl (Prod.ext (by decide +kernel) rfl)) ⟨by decide +kernel, by decide +kernel⟩
    (.ofDisk (disk32 0xFFFFFFFF 0xFFFFFFFF)) (hardDiskPartition 0) [2]

/-- The root directory of the small volume is cluster 2, which is its whole chain. Behind its 16 entries
the next sector is read, which is cluster 3. -/
theorem root32_runs_on :
    (fatInitialize (layer32 0xFFFFFFFF 0xFFFFFFFF) .start).1 = .ok true ∧
    Chain32 (.ofDisk (disk32 0xFFFFFFFF 0xFFFFFFFF)) (hardDiskPartition 0)
      (mounted (layer32 0xFFFFFFFF 0xFFFFFFFF)).fat
      (BootSector.ebr32RootDirectoryCluster (mounted (layer32 0xFFFFFFFF 0xFFFFFFFF)).fat.bootSector) [2] ∧
    ¬ Delivers (readEntry (layer32 0xFFFFFFFF 0xFFFFFFFF) (some .root))
      (chainEntries (.ofDisk (disk32 0xFFFFFFFF 0xFFFFFFFF)) (hardDiskPartition 0)
        (mounted (layer32 0xFFFFFFFF 0xFFFFFFFF)).fat [2]) (mounted (layer32 0xFFFFFFFF 0xFFFFFFFF)) := by
  have hmounts : fatInitialize (layer32 0xFFFFFFFF 0xFFFFFFFF) .start =
      (.ok true, mounted (layer32 0xFFFFFFFF 0xFFFFFFFF)) := Prod.ext (by decide +kernel) rfl
  refine ⟨by decide +kernel, ⟨by decide +kernel, by decide +kernel, by simp,
    fun i hi => absurd hi (by simp), by decide +kernel⟩, rootOpen_endless ?_ _⟩
  rw [RootOpen, (fatInitialize_initialised hmounts).rootPub]
  decide +kernel

end ArcOS.Fat
