import ArcOS.Fat.Files

/-!
Which sector numbers are passed to the disk routine, in the bootloader's layer.

The numbers of a well-formed volume are taken from its boot sector without wrapping (`WellFormed`), and
`mounted_numbers` says that `FAT_Initialize` computes them. A cluster of a file then lies in the
partition with all its sectors (`sector_inside`), and so does the entry of the table that links it
(`table_inside`). `read_inside` carries the cursor of an open file along its clusters. Only cluster 0, which a
file of length 0 has, is no cluster of the volume.
-/

namespace ArcOS.Fat

open Lib

/-! ### The numbers of a volume -/

namespace BootSector

/-- The number of sectors of the volume. -/
def sectorCount (b : BootSector) : ℕ :=
  if b.totalSectors = 0 then b.largeSectorCount.toNat else b.totalSectors.toNat

/-- The first sector of the data section: behind the tables and the root directory. -/
def dataStart (b : BootSector) : ℕ :=
  b.reservedSectors.toNat + b.sectorsPerFat.toNat * b.fatCount.toNat +
    (32 * b.dirEntryCount.toNat + 511) / 512

/-- The number of data clusters. -/
def clusterCount (b : BootSector) : ℕ := (b.sectorCount - b.dataStart) / b.sectorsPerCluster.toNat

/-- The cluster is a data cluster: they are numbered from 2 on. -/
def IsData (b : BootSector) (cluster : UInt32) : Prop :=
  2 ≤ cluster.toNat ∧ cluster.toNat < b.clusterCount + 2

end BootSector

/-- A well-formed FAT12 or FAT16 volume that lies in a partition: a table has room for the entries of
all clusters, of 12 or 16 bits each. -/
structure WellFormed (b : BootSector) (part : Partition) : Prop where
  bytesPerSector : b.bytesPerSector = 512
  sectorsPerCluster : b.sectorsPerCluster ≠ 0
  sectorsPerFat : b.sectorsPerFat ≠ 0
  fatCount : b.fatCount ≠ 0
  data : b.dataStart ≤ b.sectorCount
  table : (b.clusterCount + 2) * (if b.clusterCount < 0xFF5 then 12 else 16) ≤
    4096 * b.sectorsPerFat.toNat
  inside : b.sectorCount ≤ part.partitionSize.toNat
  fits : part.partitionOffset.toNat + part.partitionSize.toNat ≤ 2 ^ 32

/-- What `FAT_Initialize` takes from the boot sector. -/
lemma fatInitializeVolume_sizes {L : Layer} {s s' : St} (h : fatInitializeVolume L s = (.ok true, s')) :
    s'.fat.sectorsPerFat = (sized s'.fat).sectorsPerFat ∧
      s'.fat.totalSectors = (sized s'.fat).totalSectors ∧
      s'.fat.fatType = if (s'.fat.totalSectors - s'.fat.dataSectionLba) / s'.fat.sectorsPerCluster < 0xFF5
        then 12 else if BootSector.sectorsPerFat s'.fat.bootSector ≠ 0 then 16 else 32 := by
  unfold fatInitializeVolume at h
  dsimp only at h
  split at h
  · cases h
  split at h
  · unfold detect at h
    split at h
    · next heq =>
      split at heq <;> cases heq
      cases h
    · next heq =>
      split at heq <;> cases heq
      cases h
      exact ⟨rfl, rfl, rfl⟩
  · cases h

/-- The numbers that the layer keeps are those of the volume. -/
structure Numbers (f : FatData) (b : BootSector) : Prop where
  bootSector : f.bootSector = b
  dataSectionLba : f.dataSectionLba.toNat = b.dataStart
  fatType : f.fatType = if b.clusterCount < 0xFF5 then 12 else 16

lemma layout_dataStart {f : FatData} {part : Partition} {dataSectionLba rootDirLba : UInt32}
    (hwf : WellFormed f.bootSector part)
    (hspf : f.sectorsPerFat = (BootSector.sectorsPerFat f.bootSector).toUInt32)
    (h : layout f = .ok (dataSectionLba, rootDirLba)) :
    dataSectionLba.toNat = BootSector.dataStart f.bootSector := by
  have h512 : (BootSector.bytesPerSector f.bootSector).toUInt32 = 512 := by
    rw [hwf.bytesPerSector]
    rfl
  have hspf16 := (BootSector.sectorsPerFat f.bootSector).toNat_lt
  have hcount := (BootSector.fatCount f.bootSector).toNat_lt
  have hreserved := (BootSector.reservedSectors f.bootSector).toNat_lt
  have hentries := (BootSector.dirEntryCount f.bootSector).toNat_lt
  have htables : (BootSector.sectorsPerFat f.bootSector).toNat *
      (BootSector.fatCount f.bootSector).toNat ≤ 65535 * 255 :=
    Nat.mul_le_mul (by omega) (by omega)
  rw [layout, if_neg hwf.sectorsPerFat, h512, if_neg (by decide)] at h
  obtain ⟨rfl, -⟩ : _ = dataSectionLba ∧ _ = rootDirLba := by simpa using h
  simp only [BootSector.dataStart, FatData.reservedSectors, hspf, UInt32.toNat_add, UInt32.toNat_mul,
    UInt32.toNat_div, UInt32.toNat_sub, UInt16.toNat_toUInt32, UInt8.toNat_toUInt32,
    UInt32.reduceToNat]
  omega

theorem mounted_numbers {dev : Device} {part : Partition} {s₀ s : St}
    (h : Boot.fatInitialize dev part s₀ = (.ok true, s)) (hwf : WellFormed s.fat.bootSector part) :
    Numbers s.fat s.fat.bootSector := by
  obtain ⟨t, ht, -⟩ := fatInitialize_volume h
  obtain ⟨hspf, htotal, hft⟩ := fatInitializeVolume_sizes ht
  have hdata : s.fat.dataSectionLba.toNat = BootSector.dataStart s.fat.bootSector := by
    refine layout_dataStart hwf ?_ (fatInitializeVolume_initialised ht).layout
    rw [hspf]
    exact if_neg hwf.sectorsPerFat
  have hsectors : s.fat.totalSectors.toNat = BootSector.sectorCount s.fat.bootSector := by
    rw [htotal]
    simp only [sized, BootSector.sectorCount]
    split_ifs
    · rfl
    · exact UInt16.toNat_toUInt32 _
  have hclusters : ((s.fat.totalSectors - s.fat.dataSectionLba) / s.fat.sectorsPerCluster).toNat =
      BootSector.clusterCount s.fat.bootSector := by
    have hle : s.fat.dataSectionLba ≤ s.fat.totalSectors := by
      rw [UInt32.le_iff_toNat_le, hdata, hsectors]
      exact hwf.data
    rw [UInt32.toNat_div, UInt32.toNat_sub_of_le _ _ hle, hdata, hsectors]
    simp [BootSector.clusterCount, FatData.sectorsPerCluster]
  refine ⟨rfl, hdata, ?_⟩
  rw [hft]
  simp only [UInt32.lt_iff_toNat_lt, hclusters, if_pos hwf.sectorsPerFat]
  rfl

/-! ### Sectors inside the partition -/

/-- The LBA is one of the partition's. -/
def InPartition (part : Partition) (lba : UInt32) : Prop :=
  part.partitionOffset.toNat ≤ lba.toNat ∧
    lba.toNat < part.partitionOffset.toNat + part.partitionSize.toNat

/-- A call of the disk routine is passed the number of a sector of the partition. It is the first sector that
is read; a refill of the window asks for four more. -/
def Event.InPartition (part : Partition) : Event → Prop
  | .diskRead lba _ => Fat.InPartition part lba
  | _ => True

variable {dev : Device} {part : Partition} {f : FatData} {b : BootSector} {cluster lba : UInt32}

lemma WellFormed.inPartition_iff (hwf : WellFormed b part) :
    InPartition part (lba + part.partitionOffset) ↔ lba.toNat < part.partitionSize.toNat := by
  have hfits := hwf.fits
  have hlba := lba.toNat_lt
  rw [InPartition, UInt32.toNat_add]
  omega

lemma WellFormed.inPartition (hwf : WellFormed b part) (h : lba.toNat < b.sectorCount) :
    InPartition part (lba + part.partitionOffset) :=
  hwf.inPartition_iff.mpr (lt_of_lt_of_le h hwf.inside)

lemma Numbers.sectorsPerCluster (h : Numbers f b) :
    f.sectorsPerCluster.toNat = b.sectorsPerCluster.toNat := by
  rw [FatData.sectorsPerCluster, h.bootSector]
  exact UInt8.toNat_toUInt32 _

lemma SameVolume.numbers {f' : FatData} (hv : SameVolume f f') (hn : Numbers f b) : Numbers f' b :=
  ⟨hv.bootSector.trans hn.bootSector, by rw [hv.dataSectionLba, hn.dataSectionLba],
    hv.fatType.trans hn.fatType⟩

lemma Numbers.clusterToLba (h : Numbers f b) (hwf : WellFormed b part) (hc : b.IsData cluster) :
    (f.clusterToLba cluster).toNat =
        b.dataStart + (cluster.toNat - 2) * b.sectorsPerCluster.toNat ∧
      (f.clusterToLba cluster).toNat + b.sectorsPerCluster.toNat ≤ b.sectorCount := by
  obtain ⟨hlow, hhigh⟩ := hc
  have hlast : b.clusterCount * b.sectorsPerCluster.toNat ≤ b.sectorCount - b.dataStart :=
    Nat.div_mul_le_self _ _
  have hroom : (cluster.toNat - 2 + 1) * b.sectorsPerCluster.toNat ≤
      b.clusterCount * b.sectorsPerCluster.toNat :=
    Nat.mul_le_mul_right _ (by omega)
  rw [Nat.add_mul, Nat.one_mul] at hroom
  have hdata := hwf.data
  have hinside := hwf.inside
  have hsize := part.partitionSize.toNat_lt
  have hsub : (cluster - 2).toNat = cluster.toNat - 2 :=
    UInt32.toNat_sub_of_le _ _ (UInt32.le_iff_toNat_le.mpr hlow)
  have hlba : (f.clusterToLba cluster).toNat =
      b.dataStart + (cluster.toNat - 2) * b.sectorsPerCluster.toNat := by
    rw [FatData.clusterToLba, UInt32.toNat_add, UInt32.toNat_mul, hsub, h.dataSectionLba,
      h.sectorsPerCluster]
    omega
  exact ⟨hlba, by omega⟩

/-- **Every sector of a data cluster is in the partition.** -/
theorem sector_inside (h : Numbers f b) (hwf : WellFormed b part) (hc : b.IsData cluster)
    {sector : UInt32} (hsector : sector.toNat < b.sectorsPerCluster.toNat) :
    InPartition part (f.clusterToLba cluster + sector + part.partitionOffset) := by
  obtain ⟨-, hroom⟩ := h.clusterToLba hwf hc
  have hinside := hwf.inside
  have hsize := part.partitionSize.toNat_lt
  apply hwf.inPartition
  rw [UInt32.toNat_add]
  omega

/-- **The entry of a data cluster starts in a sector of the first table.** -/
theorem table_inside (h : Numbers f b) (hwf : WellFormed b part) (hc : b.IsData cluster) :
    InPartition part (tableLba part f (fatIndex f.fatType cluster / 512)) := by
  have hroom := hwf.table
  have hspf := b.sectorsPerFat.toNat_lt
  have hreserved := b.reservedSectors.toNat_lt
  have hlast := hc.2
  have hindex : (fatIndex f.fatType cluster / 512).toNat < b.sectorsPerFat.toNat := by
    rw [h.fatType]
    split_ifs at hroom ⊢
    · simp only [fatIndex, if_true, UInt32.toNat_div, UInt32.toNat_mul, UInt32.reduceToNat]
      omega
    · simp only [fatIndex, show ¬ (16 : UInt8) = 12 by decide, if_false, if_true, UInt32.toNat_div,
        UInt32.toNat_mul, UInt32.reduceToNat]
      omega
  have hfirst : b.sectorsPerFat.toNat * 1 ≤ b.sectorsPerFat.toNat * b.fatCount.toNat :=
    Nat.mul_le_mul_left _ (Nat.pos_of_ne_zero fun h0 => hwf.fatCount (UInt8.toNat_inj.mp h0))
  have hdata := hwf.data
  rw [BootSector.dataStart] at hdata
  apply hwf.inPartition
  rw [UInt32.toNat_add, FatData.reservedSectors, h.bootSector, UInt16.toNat_toUInt32]
  omega

/-! ### The clusters of a file -/

/-- The clusters of a file: data clusters, each of them linked on the disk to another one or marked as
the last. -/
structure Clusters (dev : Device) (part : Partition) (f : FatData) (chain : List UInt32) : Prop where
  data : ∀ c ∈ chain, BootSector.IsData f.bootSector c
  link : ∀ c ∈ chain, diskLink dev part f c ∈ chain ∨ 0xFFFFFFF8 ≤ diskLink dev part f c

/-- A well-formed entry of a regular file: its first cluster is one of the file's, or 0 when the file
is empty. -/
structure FileEntry (dev : Device) (part : Partition) (f : FatData) (entry : DirectoryEntry)
    (chain : List UInt32) : Prop where
  regular : entry.attributes &&& attributeDirectory = 0
  clusters : Clusters dev part f chain
  first : entry.firstCluster ∈ chain ∨ entry.firstCluster = 0 ∧ entry.size = 0

/-- The cursor of a record names a sector of the file. -/
def Placed (f : FatData) (chain : List UInt32) (d : FileData) : Prop :=
  d.currentCluster ∈ chain ∧ d.currentSectorInCluster.toNat < f.sectorsPerCluster.toNat

section Cursor

variable {chain : List UInt32} {loc : Loc} {s : St}

/-- A lookup of a cluster of the file reads from the table, if at all. -/
lemma nextCluster_inside (hn : Numbers s.fat b) (hwf : WellFormed b part) (hc : b.IsData cluster) :
    Logged (Event.InPartition part) s (nextCluster (bootLayer dev part) cluster s).2 := by
  have hlookup : Logged (Event.InPartition part) s (s.note (.nextCluster s.fat s.clock cluster)) :=
    .cons (show Event.InPartition part (.nextCluster _ _ _) from trivial) rfl
  apply hlookup.trans
  simp only [nextCluster, refill]
  split
  · exact .cons (show Event.InPartition part (.diskRead _ _) from table_inside hn hwf hc) rfl
  · exact .refl _

lemma stepCursor_inside (hv : SameVolume f s.fat) (hcache : Coherent dev part s)
    (hn : Numbers f f.bootSector) (hwf : WellFormed f.bootSector part)
    (hclusters : Clusters dev part f chain) (hplace : Placed f chain (s.fat.fd loc))
    (hlog : Logged (FindsEvent dev part) s (stepCursor (bootLayer dev part) loc s)) :
    Coherent dev part (stepCursor (bootLayer dev part) loc s) ∧
      Logged (Event.InPartition part) s (stepCursor (bootLayer dev part) loc s) ∧
      (0xFFFFFFF8 ≤ ((stepCursor (bootLayer dev part) loc s).fat.fd loc).currentCluster ∨
        Placed f chain ((stepCursor (bootLayer dev part) loc s).fat.fd loc)) := by
  obtain ⟨hcluster, hsector⟩ := hplace
  have hspc := f.sectorsPerCluster.toNat_lt
  have hsucc : ((s.fat.fd loc).currentSectorInCluster + 1).toNat =
      (s.fat.fd loc).currentSectorInCluster.toNat + 1 := by
    rw [UInt32.toNat_add, show (1 : UInt32).toNat = 1 from rfl]
    omega
  unfold stepCursor at hlog ⊢
  dsimp only at hlog ⊢
  split
  · next hle =>
    rw [if_pos hle] at hlog
    obtain ⟨t, ht⟩ : ∃ t, t = s.setFd loc { s.fat.fd loc with currentSectorInCluster := 0 } := ⟨_, rfl⟩
    have hv' : SameVolume f t.fat := by
      rw [ht]
      cases loc <;> exact ⟨hv.1, hv.2, hv.3⟩
    have hlog' : Logged (FindsEvent dev part) t
        (nextCluster (bootLayer dev part) (s.fat.fd loc).currentCluster t).2 := by
      rw [ht]
      exact hlog
    have hinside : Logged (Event.InPartition part) t
        (nextCluster (bootLayer dev part) (s.fat.fd loc).currentCluster t).2 :=
      nextCluster_inside (hv'.numbers hn) hwf (hclusters.data _ hcluster)
    obtain ⟨hlink, hcache'⟩ := nextCluster_found (by rw [ht]; exact hcache.setFd)
      (nextCluster_logged hlog')
    rw [hv'.diskLink] at hlink
    rw [← ht]
    refine ⟨hcache'.setFd, by rw [ht] at hinside ⊢; exact hinside, ?_⟩
    rw [St.setFd_fat, FatData.fd_setFd]
    rcases hclusters.link _ hcluster with hmem | hend
    · exact Or.inr ⟨hlink ▸ hmem, Nat.lt_of_le_of_lt (Nat.zero_le _) hsector⟩
    · exact Or.inl (hlink ▸ hend)
  · next hle =>
    rw [hv.sectorsPerCluster, UInt32.le_iff_toNat_le, hsucc] at hle
    refine ⟨hcache.setFd, .refl s, Or.inr ?_⟩
    rw [St.setFd_fat, FatData.fd_setFd]
    exact ⟨hcluster, by rw [hsucc]; omega⟩

lemma lookAhead_inside (hv : SameVolume f s.fat) (hcache : Coherent dev part s)
    (hn : Numbers f f.bootSector) (hwf : WellFormed f.bootSector part)
    (hclusters : Clusters dev part f chain) (hh : (s.fat.fd loc).pub.handle ≠ rootDirectoryHandle)
    (hplace : Placed f chain (s.fat.fd loc))
    (hlog : Logged (FindsEvent dev part) s (lookAhead (bootLayer dev part) loc s).2) :
    Coherent dev part (lookAhead (bootLayer dev part) loc s).2 ∧
      Logged (Event.InPartition part) s (lookAhead (bootLayer dev part) loc s).2 ∧
      (Placed f chain ((lookAhead (bootLayer dev part) loc s).2.fat.fd loc) ∨
        ((lookAhead (bootLayer dev part) loc s).2.fat.fd loc).pub.size =
          ((lookAhead (bootLayer dev part) loc s).2.fat.fd loc).pub.position) := by
  have hgrows := stepCursor_grows (bootLayer dev part) loc s hh
  have hv' : SameVolume f (stepCursor (bootLayer dev part) loc s).fat :=
    (SameVolume.stable _ f).stepCursor trivial hh hv
  unfold lookAhead at hlog ⊢
  rw [if_neg hh] at hlog ⊢
  dsimp only at hlog ⊢
  split
  · next hend =>
    rw [if_pos hend] at hlog
    obtain ⟨hcache', hinside, -⟩ := stepCursor_inside hv hcache hn hwf hclusters hplace hlog
    refine ⟨hcache'.setFd, hinside, Or.inr ?_⟩
    rw [St.setFd_fat, FatData.fd_setFd]
  · next hend =>
    rw [if_neg hend] at hlog
    obtain ⟨hlog', -⟩ := hlog.split hgrows (fillBuffer_grows (bootLayer dev part) loc _ _)
    obtain ⟨hcache', hinside, hnext⟩ := stepCursor_inside hv hcache hn hwf hclusters hplace hlog'
    have hplace' : Placed f chain ((stepCursor (bootLayer dev part) loc s).fat.fd loc) :=
      hnext.resolve_left hend
    generalize stepCursor (bootLayer dev part) loc s = t at *
    have hread : InPartition part (t.fat.clusterToLba (t.fat.fd loc).currentCluster +
        (t.fat.fd loc).currentSectorInCluster + part.partitionOffset) := by
      rw [hv'.clusterToLba]
      apply sector_inside hn hwf (hclusters.data _ hplace'.1)
      rw [← hn.sectorsPerCluster]
      exact hplace'.2
    refine ⟨hcache'.fillBuffer, hinside.trans ?_, Or.inl ?_⟩
    · unfold fillBuffer
      dsimp only
      split
      · exact .cons (show Event.InPartition part (.diskRead _ _) from hread) rfl
      · exact (Logged.cons (show Event.InPartition part (.diskRead _ _) from hread) rfl).trans
          (.cons (show Event.InPartition part (.printf _) from trivial) rfl)
    · rw [fillBuffer_fd]
      exact hplace'

/-- A record of an open file that reads its clusters. -/
structure Follows (dev : Device) (part : Partition) (f : FatData) (chain : List UInt32) (loc : Loc)
    (s : St) : Prop where
  volume : SameVolume f s.fat
  cache : Coherent dev part s
  handle : (s.fat.fd loc).pub.handle ≠ rootDirectoryHandle
  placed : (s.fat.fd loc).pub.position ≠ (s.fat.fd loc).pub.size → Placed f chain (s.fat.fd loc)

/-- **One round of the loop of `FAT_Read` reads inside the partition.** -/
theorem readRound_inside (hn : Numbers f f.bootSector) (hwf : WellFormed f.bootSector part)
    (hclusters : Clusters dev part f chain) (h : Follows dev part f chain loc s)
    (hleft : (s.fat.fd loc).pub.position ≠ (s.fat.fd loc).pub.size) (n : UInt32)
    (hlog : Logged (FindsEvent dev part) s (readRound (bootLayer dev part) loc n s).state) :
    Follows dev part f chain loc (readRound (bootLayer dev part) loc n s).state ∧
      Logged (Event.InPartition part) s (readRound (bootLayer dev part) loc n s).state := by
  have hplace := h.placed hleft
  have hvolume : SameVolume f (readRound (bootLayer dev part) loc n s).state.fat :=
    (SameVolume.stable (bootLayer dev part) f).readRound trivial n h.volume
  have hhandle : ((readRound (bootLayer dev part) loc n s).state.fat.fd loc).pub.handle ≠
      rootDirectoryHandle := by
    obtain ⟨-, -, -, hkeeps, -⟩ := readRound_spec (bootLayer dev part) loc s n
    rw [hkeeps.handle]
    exact h.handle
  have hfd := copyChunk_fd loc s (takeCount n (s.fat.fd loc).pub.position)
  have hv : SameVolume f (copyChunk loc (takeCount n (s.fat.fd loc).pub.position) s).2.fat :=
    (SameVolume.stable (bootLayer dev part) f).copyChunk trivial n h.volume
  have hc : Coherent dev part (copyChunk loc (takeCount n (s.fat.fd loc).pub.position) s).2 :=
    Coherent.setFd (s := s.note _) h.cache
  have hcopied : ∀ G : Event → Prop, (∀ offset count, G (.copy offset count)) →
      Logged G s (copyChunk loc (takeCount n (s.fat.fd loc).pub.position) s).2 :=
    fun G hG => .cons (hG _ _) rfl
  have hgrows := (hcopied (fun _ => True) fun _ _ => trivial).suffix
  have hinside := hcopied (Event.InPartition part) fun _ _ => trivial
  unfold readRound at hlog hvolume hhandle ⊢
  dsimp only at hlog hvolume hhandle ⊢
  generalize (copyChunk loc (takeCount n (s.fat.fd loc).pub.position) s).2 = t at *
  split
  · next hfull =>
    rw [if_pos hfull] at hlog hvolume hhandle
    obtain ⟨-, hlog'⟩ := hlog.split hgrows (lookAhead_grows (bootLayer dev part) loc t)
    obtain ⟨hcache, hahead, hnext⟩ := lookAhead_inside hv hc hn hwf hclusters
      (by rw [hfd]; exact h.handle) (by rw [hfd]; exact ⟨hplace.1, hplace.2⟩) hlog'
    exact ⟨⟨hvolume, hcache, hhandle, fun hne => hnext.resolve_right (Ne.symm hne)⟩,
      hinside.trans hahead⟩
  · exact ⟨⟨hv, hc, by rw [hfd]; exact h.handle, fun _ => by rw [hfd]; exact ⟨hplace.1, hplace.2⟩⟩,
      hinside⟩

theorem readLoop_inside (hn : Numbers f f.bootSector) (hwf : WellFormed f.bootSector part)
    (hclusters : Clusters dev part f chain) :
    ∀ (rounds : ℕ) (n : UInt32) (s : St), Follows dev part f chain loc s →
      (s.fat.fd loc).pub.position.toNat + n.toNat ≤ (s.fat.fd loc).pub.size.toNat →
      Logged (FindsEvent dev part) s (readLoop (bootLayer dev part) loc rounds n s).2 →
      Follows dev part f chain loc (readLoop (bootLayer dev part) loc rounds n s).2 ∧
        Logged (Event.InPartition part) s (readLoop (bootLayer dev part) loc rounds n s).2 := by
  intro rounds
  induction rounds with
  | zero => exact fun n s h _ _ => ⟨h, .refl s⟩
  | succ rounds ih =>
    intro n s h hcap hlog
    by_cases h0 : 0 < n
    · have h0' : 0 < n.toNat := by simpa [UInt32.lt_iff_toNat_lt] using h0
      have hleft : (s.fat.fd loc).pub.position ≠ (s.fat.fd loc).pub.size := fun heq => by
        rw [heq] at hcap
        omega
      have hgrows := readRound_grows (bootLayer dev part) loc s n
      obtain ⟨htake, -, hpos, -, hsize⟩ := readRound_spec (bootLayer dev part) loc s n
      have hround := readRound_inside hn hwf hclusters h hleft n
      rw [readLoop_succ h0] at hlog ⊢
      generalize readRound (bootLayer dev part) loc n s = r at *
      split
      · next hgo =>
        rw [if_pos hgo] at hlog
        obtain ⟨hlog₁, hlog₂⟩ := hlog.split hgrows
          (readLoop_grows (bootLayer dev part) loc r.state rounds (n - r.take))
        obtain ⟨hfollows, hinside⟩ := hround hlog₁
        have hz := (s.fat.fd loc).pub.size.toNat_lt
        have hrest : (n - r.take).toNat = n.toNat - r.take.toNat :=
          UInt32.toNat_sub_of_le _ _ (by rw [UInt32.le_iff_toNat_le]; omega)
        have hsame : (r.state.fat.fd loc).pub.size = (s.fat.fd loc).pub.size :=
          hsize.resolve_right fun hend => by
            rw [hend.1] at hgo
            cases hgo
        have hcap' : (r.state.fat.fd loc).pub.position.toNat + (n - r.take).toNat ≤
            (r.state.fat.fd loc).pub.size.toNat := by
          rw [hsame, hpos, UInt32.toNat_add, Nat.mod_eq_of_lt (by omega), hrest]
          omega
        obtain ⟨hfollows', hinside'⟩ := ih (n - r.take) r.state hfollows hcap' hlog₂
        exact ⟨hfollows', hinside.trans hinside'⟩
      · next hgo =>
        rw [if_neg hgo] at hlog
        exact hround hlog
    · rw [readLoop_done h0]
      exact ⟨h, .refl s⟩

end Cursor

/-! ### Open files -/

/-- The states in which an open file of a volume is read: from where the file was opened, through reads
that find what they look up, and whatever else leaves its record and the volume alone. -/
inductive OpenFile (dev : Device) (part : Partition) (f : FatData) (chain : List UInt32) (p : Loc) :
    St → Prop where
  | opened (entry : DirectoryEntry) {s s' : St} : SameVolume f s.fat →
      FileEntry dev part f entry chain → Boot.fatOpenEntry dev part entry s = (some p, s') →
      OpenFile dev part f chain p s'
  | read (n : UInt32) {s : St} : OpenFile dev part f chain p s → Coherent dev part s →
      Logged (FindsEvent dev part) s (Boot.fatRead dev part (some p) n s).2 →
      OpenFile dev part f chain p (Boot.fatRead dev part (some p) n s).2
  | other {s s' : St} : OpenFile dev part f chain p s → s'.fat.fd p = s.fat.fd p →
      SameVolume f s'.fat → OpenFile dev part f chain p s'

/-- What the record of an open file keeps. -/
structure OpenRecord (f : FatData) (chain : List UInt32) (p : Loc) (s : St) : Prop where
  volume : SameVolume f s.fat
  capped : Capped p s
  isFile : (s.fat.fd p).pub.isDirectory = false
  handle : (s.fat.fd p).pub.handle ≠ rootDirectoryHandle
  placed : (s.fat.fd p).pub.position ≠ (s.fat.fd p).pub.size → Placed f chain (s.fat.fd p)

variable {entry : DirectoryEntry} {chain : List UInt32} {p : Loc} {s s' : St}

lemma openEntry_record (hwf : WellFormed f.bootSector part) (hv : SameVolume f s.fat)
    (hentry : FileEntry dev part f entry chain)
    (h : Boot.fatOpenEntry dev part entry s = (some p, s')) : OpenRecord f chain p s' := by
  have hcapped : Capped p s' := openEntry_capped hentry.regular h
  obtain ⟨i, rfl, -, -, rfl⟩ := openEntry_some h
  refine ⟨⟨hv.1, hv.2, hv.3⟩, hcapped, ?_, ?_, ?_⟩
  all_goals rw [FatData.fd_setFd]
  · simp [openedRecord, entryRecord, hentry.regular]
  · simp only [openedRecord, entryRecord, rootDirectoryHandle]
    omega
  · intro hne
    rcases hentry.first with hmem | ⟨-, hsize⟩
    · refine ⟨hmem, Nat.pos_of_ne_zero fun hzero => hwf.sectorsPerCluster (UInt8.toNat_inj.mp ?_)⟩
      exact (UInt8.toNat_toUInt32 _).symm.trans hzero
    · exact absurd hsize.symm hne

/-- **A read of an open file**: it reads inside the partition, and keeps the record. -/
theorem read_inside (hn : Numbers f f.bootSector) (hwf : WellFormed f.bootSector part)
    (hclusters : Clusters dev part f chain) (h : OpenRecord f chain p s)
    (hcache : Coherent dev part s) (n : UInt32)
    (hlog : Logged (FindsEvent dev part) s (Boot.fatRead dev part (some p) n s).2) :
    OpenRecord f chain p (Boot.fatRead dev part (some p) n s).2 ∧
      Logged (Event.InPartition part) s (Boot.fatRead dev part (some p) n s).2 := by
  have hin := h.capped.inside
  have hcap := cappedCount_eq n (.inl h.isFile) hin
  obtain ⟨hdelivered, -, hcapped⟩ := read_spec (L := bootLayer dev part) h.capped n
  have hloop := readLoop_inside hn hwf hclusters (cappedCount (s.fat.fd p).pub n).toNat
    (cappedCount (s.fat.fd p).pub n) s ⟨h.volume, hcache, h.handle, h.placed⟩ (by omega)
  have hread : (Boot.fatRead dev part (some p) n s).2 = (readLoop (bootLayer dev part) p
      (cappedCount (s.fat.fd p).pub n).toNat (cappedCount (s.fat.fd p).pub n) s).2 := by
    rw [Boot.fatRead, read, h.capped.deref]
  rw [← hread] at hloop
  obtain ⟨hfollows, hinside⟩ := hloop hlog
  exact ⟨⟨hfollows.volume, hcapped, hdelivered.keeps.isDirectory.trans h.isFile, hfollows.handle,
    hfollows.placed⟩, hinside⟩

lemma OpenFile.record (hn : Numbers f f.bootSector) (hwf : WellFormed f.bootSector part)
    (h : OpenFile dev part f chain p s) : Clusters dev part f chain ∧ OpenRecord f chain p s := by
  induction h with
  | opened entry hv hentry hopen => exact ⟨hentry.clusters, openEntry_record hwf hv hentry hopen⟩
  | read n _ hcache hlog ih =>
    obtain ⟨hclusters, hrecord⟩ := ih
    exact ⟨hclusters, (read_inside hn hwf hclusters hrecord hcache n hlog).1⟩
  | other _ hfd hv ih =>
    obtain ⟨hclusters, hrecord⟩ := ih
    refine ⟨hclusters, ⟨hv, hrecord.capped.of_fd hfd, ?_, ?_, ?_⟩⟩
    all_goals rw [hfd]
    · exact hrecord.isFile
    · exact hrecord.handle
    · exact hrecord.placed

/-! ### Opening -/

lemma logged_putcs (part : Partition) (cs : List UInt8) (s : St) :
    Logged (Event.InPartition part) s (cs.foldl (fun s c => s.note (.putc c)) s) := by
  induction cs generalizing s with
  | nil => exact .refl s
  | cons c cs ih =>
    exact (Logged.cons (show Event.InPartition part (.putc c) from trivial) rfl).trans (ih _)

/-- `FAT_OpenEntry` reads one sector, and has nothing but messages to log after it. -/
lemma openEntry_log (L : Layer) (part : Partition) (entry : DirectoryEntry) {i : Fin 10}
    (hfree : s.fat.freeSlot = some i) :
    ∃ t : St, t.log = .diskRead (L.sectorLba (s.fat.clusterToLba entry.firstCluster)) 1 :: s.log ∧
      Logged (Event.InPartition part) t (openEntry L entry s).2 := by
  cases hr : (firstSector L entry i s).1 with
  | true =>
    rw [openEntry_ok hfree hr]
    exact ⟨_, rfl, .refl _⟩
  | false =>
    unfold firstSector at hr
    simp only [openEntry, hfree, Layer.read, entryRecord, St.setFd, FatData.setFd_setFd,
      FatData.clusterToLba] at hr ⊢
    rw [if_neg (by simp [hr])]
    refine ⟨{ s with log := .diskRead _ 1 :: s.log }, rfl, ?_⟩
    exact (Logged.cons (show Event.InPartition part (.printf _) from trivial) rfl).trans
      ((logged_putcs part (List.ofFn entry.name) _).trans
        (.cons (show Event.InPartition part (.printf "\n") from trivial) rfl))

lemma openEntry_inside_iff {L : Layer} {i : Fin 10} (hfree : s.fat.freeSlot = some i) :
    Logged (Event.InPartition part) s (openEntry L entry s).2 ↔
      InPartition part (L.sectorLba (s.fat.clusterToLba entry.firstCluster)) := by
  obtain ⟨t, ht, hrest⟩ := openEntry_log L part entry hfree
  constructor
  · intro h
    obtain ⟨hread, -⟩ := h.split ⟨[_], ht.symm⟩ hrest.suffix
    exact hread.mem [.diskRead _ _] ht (List.mem_singleton_self _)
  · intro h
    exact (Logged.cons (show Event.InPartition part (.diskRead _ _) from h) ht).trans hrest

/-- Cluster 0, two clusters in front of the data section, is in the partition. -/
def ZeroInside (b : BootSector) (part : Partition) : Prop :=
  2 * b.sectorsPerCluster.toNat ≤ b.dataStart ∨
    2 ^ 32 + b.dataStart < part.partitionSize.toNat + 2 * b.sectorsPerCluster.toNat

lemma firstSector_inside (hn : Numbers f f.bootSector) (hwf : WellFormed f.bootSector part)
    (hentry : FileEntry dev part f entry chain) :
    InPartition part (f.clusterToLba entry.firstCluster + part.partitionOffset) ↔
      entry.firstCluster ≠ 0 ∨ ZeroInside f.bootSector part := by
  have hspc := hn.sectorsPerCluster
  have hpos : 0 < (BootSector.sectorsPerCluster f.bootSector).toNat :=
    Nat.pos_of_ne_zero fun hzero => hwf.sectorsPerCluster (UInt8.toNat_inj.mp hzero)
  rcases hentry.first with hmem | ⟨hzero, -⟩
  · have hdata := hentry.clusters.data _ hmem
    refine iff_of_true ?_ (Or.inl fun hzero => ?_)
    · have hfirst := sector_inside hn hwf hdata (show (0 : UInt32).toNat < _ from hpos)
      rwa [UInt32.add_zero] at hfirst
    · rw [hzero] at hdata
      exact absurd hdata.1 (by decide)
  · have hlba : (f.clusterToLba 0).toNat = (BootSector.dataStart f.bootSector +
        4294967294 * (BootSector.sectorsPerCluster f.bootSector).toNat) % 4294967296 := by
      rw [FatData.clusterToLba, UInt32.toNat_add, UInt32.toNat_mul, hn.dataSectionLba, hspc,
        show ((0 : UInt32) - 2).toNat = 4294967294 from rfl, Nat.add_mod_mod]
    have hdata := hwf.data
    have hinside := hwf.inside
    have hsize := part.partitionSize.toNat_lt
    have hsmall := (BootSector.sectorsPerCluster f.bootSector).toNat_lt
    rw [hzero, hwf.inPartition_iff, hlba, ZeroInside]
    constructor
    · intro h
      right
      omega
    · rintro (h | h)
      · exact absurd rfl h
      · omega

/-! ### The partition -/

/-- A FAT12 volume of 100 clusters of 4 sectors, with its data section from sector 3 on. -/
def denseVolume : Format :=
  { sectorsPerCluster := 4, dirEntryCount := 16, totalSectors := 403, sectorsPerFat := 1 }

/-- The volume in a partition from sector 63 on. Only the sectors of the partition can be read. -/
def denseDevice : Device := .ofDisk (diskOf [(63, denseVolume.bootSector)]) fun _ lba =>
  decide (63 ≤ lba) && decide (lba < 63 + 8192)

/-- The entry of an empty file. -/
def emptyEntry : DirectoryEntry := dirEntry [67] 0 0 0

/-- Opening an empty file on that volume asks for sector 58, in front of the partition, and fails. -/
theorem openEntry_outside :
    (Boot.fatInitialize denseDevice (hardDiskPartition 63) .start).1 = .ok true ∧
    WellFormed (mounted (bootLayer denseDevice (hardDiskPartition 63))).fat.bootSector
      (hardDiskPartition 63) ∧
    FileEntry denseDevice (hardDiskPartition 63)
      (mounted (bootLayer denseDevice (hardDiskPartition 63))).fat emptyEntry [] ∧
    (∀ clock lba, InPartition (hardDiskPartition 63) lba → denseDevice.ok clock lba = true) ∧
    (Boot.fatOpenEntry denseDevice (hardDiskPartition 63) emptyEntry
      (mounted (bootLayer denseDevice (hardDiskPartition 63)))).1 = none ∧
    ¬ Logged (Event.InPartition (hardDiskPartition 63))
      (mounted (bootLayer denseDevice (hardDiskPartition 63)))
      (Boot.fatOpenEntry denseDevice (hardDiskPartition 63) emptyEntry
        (mounted (bootLayer denseDevice (hardDiskPartition 63)))).2 := by
  refine ⟨by decide +kernel, ?_, ?_, fun clock lba ⟨hlow, hhigh⟩ => ?_, by decide +kernel, ?_⟩
  · exact ⟨by decide +kernel, by decide +kernel, by decide +kernel, by decide +kernel, by decide +kernel,
      by decide +kernel, by decide +kernel, by decide +kernel⟩
  · exact ⟨by decide +kernel, ⟨by simp, by simp⟩, Or.inr ⟨by decide +kernel, by decide +kernel⟩⟩
  · simp only [denseDevice, Device.ofDisk, Bool.and_eq_true, decide_eq_true_eq,
      UInt32.le_iff_toNat_le, UInt32.lt_iff_toNat_lt]
    exact ⟨hlow, hhigh⟩
  · have hfree : (mounted (bootLayer denseDevice (hardDiskPartition 63))).fat.freeSlot = some 0 := by
      decide +kernel
    rw [Boot.fatOpenEntry, openEntry_inside_iff hfree, InPartition]
    decide +kernel

/-- **The FAT layer stays inside its partition.** After `FAT_Initialize` on a well-formed volume:
opening a well-formed entry of a regular file passes on only sector numbers of the partition if and only if
there is no free slot, the entry has a first cluster, or cluster 0 would be in the partition; it then succeeds
when a slot is free and the sectors of the partition can be read. A read of an open file that finds
what it looks up passes on only such numbers. -/
theorem reads_inside (dev : Device) (part : Partition) (s₀ s : St)
    (hinit : Boot.fatInitialize dev part s₀ = (.ok true, s))
    (hwf : WellFormed s.fat.bootSector part) :
    (∀ t entry chain, SameVolume s.fat t.fat → FileEntry dev part s.fat entry chain →
      (Logged (Event.InPartition part) t (Boot.fatOpenEntry dev part entry t).2 ↔
        t.fat.freeSlot = none ∨ entry.firstCluster ≠ 0 ∨ ZeroInside s.fat.bootSector part) ∧
      ((∀ clock lba, InPartition part lba → dev.ok clock lba = true) → t.fat.freeSlot ≠ none →
        entry.firstCluster ≠ 0 ∨ ZeroInside s.fat.bootSector part →
        (Boot.fatOpenEntry dev part entry t).1 ≠ none)) ∧
    ∀ chain p t n, OpenFile dev part s.fat chain p t → Coherent dev part t →
      Logged (FindsEvent dev part) t (Boot.fatRead dev part (some p) n t).2 →
      Logged (Event.InPartition part) t (Boot.fatRead dev part (some p) n t).2 := by
  have hn := mounted_numbers hinit hwf
  refine ⟨fun t entry chain hv hentry => ?_, fun chain p t n hopen hcache hlog => ?_⟩
  · have hfirst := firstSector_inside hn hwf hentry
    rw [← hv.clusterToLba] at hfirst
    cases hfree : t.fat.freeSlot with
    | none =>
      rw [Boot.fatOpenEntry, openEntry_full hfree]
      refine ⟨iff_of_true (.cons (show Event.InPartition part (.printf _) from trivial) rfl)
        (Or.inl rfl), fun _ h => absurd rfl h⟩
    | some i =>
      refine ⟨(openEntry_inside_iff hfree).trans (hfirst.trans ?_), fun hok _ h => ?_⟩
      · simp
      · have hread : (firstSector (bootLayer dev part) entry i t).1 = true := by
          rw [firstSector]
          exact congrArg Prod.fst (Device.readSectors_of_ok (hok _ _ (hfirst.mpr h)) 512 _)
        rw [Boot.fatOpenEntry, openEntry_ok hfree hread]
        simp
  · obtain ⟨hclusters, hrecord⟩ := hopen.record hn hwf
    exact (read_inside hn hwf hclusters hrecord hcache n hlog).2

/-- The file `B` of the small volume is opened and read. -/
theorem reads_inside_small :
    Logged (Event.InPartition (hardDiskPartition 0)) (mounted smallLayer)
      (Boot.fatOpenEntry (.ofDisk smallDisk) (hardDiskPartition 0) entryB (mounted smallLayer)).2 ∧
    Logged (Event.InPartition (hardDiskPartition 0)) openedB
      (Boot.fatRead (.ofDisk smallDisk) (hardDiskPartition 0) (some (.slot 0)) 600 openedB).2 := by
  have hinit : Boot.fatInitialize (.ofDisk smallDisk) (hardDiskPartition 0) .start =
      (.ok true, mounted smallLayer) := Prod.ext smallLayer_mounts rfl
  have hwf : WellFormed (mounted smallLayer).fat.bootSector (hardDiskPartition 0) :=
    ⟨by decide +kernel, by decide +kernel, by decide +kernel, by decide +kernel, by decide +kernel,
      by decide +kernel, by decide +kernel, by decide +kernel⟩
  have hentry : FileEntry (.ofDisk smallDisk) (hardDiskPartition 0) (mounted smallLayer).fat entryB
      [2, 3] := by
    refine ⟨by decide +kernel, ⟨?_, ?_⟩, Or.inl (by decide +kernel)⟩
    · exact List.forall_mem_cons.mpr ⟨by unfold BootSector.IsData; decide +kernel,
        List.forall_mem_singleton.mpr (by unfold BootSector.IsData; decide +kernel)⟩
    · exact List.forall_mem_cons.mpr ⟨by decide +kernel,
        List.forall_mem_singleton.mpr (by decide +kernel)⟩
  have hopen : OpenFile (.ofDisk smallDisk) (hardDiskPartition 0) (mounted smallLayer).fat [2, 3]
      (.slot 0) openedB := .opened entryB (.refl _) hentry openEntry_entryB
  obtain ⟨hopens, hreads⟩ := reads_inside (.ofDisk smallDisk) (hardDiskPartition 0) .start
    (mounted smallLayer) hinit hwf
  refine ⟨(hopens (mounted smallLayer) entryB [2, 3] (.refl _) hentry).1.mpr
    (Or.inr (Or.inl (by decide +kernel))), hreads [2, 3] (.slot 0) openedB 600 hopen
    (.inl (by decide +kernel)) ?_⟩
  exact ((finds_stable (f := openedB.fat) (fun _ _ => rfl) (by decide +kernel) openedB).read 600
    (fun _ _ => trivial) ⟨.refl _, .refl _⟩).2

end ArcOS.Fat
