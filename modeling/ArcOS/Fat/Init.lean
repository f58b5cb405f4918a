import ArcOS.Fat.Image
import ArcOS.Fat.Slots

/-!
What a successful `FAT_Initialize` leaves.

Both layers end in `fatInitializeVolume`; the bootloader reads the boot sector before it.
-/

namespace ArcOS.Fat

open Lib

variable {L : Layer} {s s' : St}

/-- The state after a successful initialisation. -/
structure Initialised (L : Layer) (s : St) : Prop where
  cachePosition : s.fat.fatCachePosition = 0xFFFFFFFF
  closed : ∀ i, (s.fat.openedFiles i).opened = false
  rootPub : s.fat.rootDirectory.pub = { handle := rootDirectoryHandle, isDirectory := true
                                        position := 0
                                        size := 32 * (BootSector.dirEntryCount s.fat.bootSector).toUInt32 }
  rootOpened : s.fat.rootDirectory.opened = true
  rootCursor : s.fat.rootDirectory.currentCluster = s.fat.rootDirectory.firstCluster ∧
    s.fat.rootDirectory.currentSectorInCluster = 0
  rootBuffer : ∃ clock buf, L.readSectors clock (L.sectorLba s.fat.rootDirectory.firstCluster) 512 buf =
    (true, s.fat.rootDirectory.buffer)
  layout : layout s.fat = .ok (s.fat.dataSectionLba, s.fat.rootDirectory.firstCluster)
  sectorsPerCluster : s.fat.sectorsPerCluster ≠ 0
  fatType : s.fat.fatType = 12 ∨ s.fat.fatType = 16 ∨ s.fat.fatType = 32

theorem fatInitializeVolume_initialised (h : fatInitializeVolume L s = (.ok true, s')) :
    Initialised L s' := by
  unfold fatInitializeVolume at h
  dsimp only at h
  split at h
  · cases h
  next dataSectionLba rootDirLba hlayout =>
  split at h
  · next hread =>
    unfold detect at h
    split at h
    · next heq =>
      split at heq <;> cases heq
      cases h
    · next heq =>
      split at heq
      · cases heq
      next hspc =>
      cases heq
      cases h
      refine ⟨rfl, fun _ => rfl, rfl, rfl, ⟨rfl, rfl⟩, ⟨_, _, Prod.ext hread rfl⟩, hlayout, hspc, ?_⟩
      dsimp only
      split
      · exact .inl rfl
      · split
        · exact .inr (.inl rfl)
        · exact .inr (.inr rfl)
  · cases h

lemma fatInitializeVolume_bootSector (h : fatInitializeVolume L s = (.ok true, s')) :
    s'.fat.bootSector = s.fat.bootSector := by
  unfold fatInitializeVolume at h
  dsimp only at h
  split at h
  · cases h
  split at h
  · unfold detect at h
    split at h
    · next heq =>
      split at heq <;> cases heq
      cases h
    · next heq =>
      split at heq <;> cases heq
      cases h
      rfl
  · cases h

/-- `FAT_Initialize` is `Kernel_FAT_Initialize` behind the read of the boot sector. -/
theorem fatInitialize_volume (h : fatInitialize L s = (.ok true, s')) :
    ∃ t, fatInitializeVolume L t = (.ok true, s') ∧
      L.readSectors s.clock (L.sectorLba 0) 512 s.fat.bootSector = (true, t.fat.bootSector) := by
  unfold fatInitialize at h
  dsimp only at h
  split at h
  · next hread => exact ⟨_, h, Prod.ext hread rfl⟩
  · cases h

theorem fatInitialize_initialised (h : fatInitialize L s = (.ok true, s')) : Initialised L s' := by
  obtain ⟨t, ht, -⟩ := fatInitialize_volume h
  exact fatInitializeVolume_initialised ht

lemma Initialised.named (h : Initialised L s) : Named s :=
  ⟨by rw [h.rootPub], fun i hi => by rw [h.closed i] at hi; cases hi⟩

/-- A property that holds after every initialisation and survives every call holds in every reachable
state. -/
theorem Reachable.stable {P : St → Prop} (h : StableCalls L P)
    (hinit : ∀ s s', fatInitializeVolume L s = (.ok true, s') → P s') (hr : Reachable L s) : P s := by
  induction hr with
  | init hi =>
    obtain ⟨t, ht, -⟩ := fatInitialize_volume hi
    exact hinit t _ ht
  | initVolume hi => exact hinit _ _ hi
  | call fuel c _ ih => exact h.call fuel c ih

theorem Reachable.named (h : Reachable L s) : Named s :=
  h.stable (named_stable L) fun _ _ hi => (fatInitializeVolume_initialised hi).named

/-- The state of a layer that is initialised first thing. -/
def mounted (L : Layer) : St := (fatInitialize L .start).2

lemma mounted_reachable (h : (fatInitialize L .start).1 = .ok true) : Reachable L (mounted L) :=
  .init (Prod.ext h rfl)

/-- The directory `A` of the small volume, at cluster 4. -/
def entryA : DirectoryEntry := dirEntry [65] attributeDirectory 4 0

/-- The file `B` of the small volume, of 1024 bytes in the clusters 2 and 3. -/
def entryB : DirectoryEntry := dirEntry [66] 0 2 1024

/-- A small volume at the start of a disk. -/
def smallDisk : UInt32 → Sector :=
  diskOf [(0, smallVolume.bootSector),
    (1, Bytes.ofList 512 [0xF8, 0xFF, 0xFF, 0xFF, 3, 0, 0xFF, 0xFF, 0xFF, 0xFF]),
    (33, Bytes.ofList 512 (List.ofFn entryA ++ List.ofFn entryB)),
    (34, fun _ => 97), (35, fun _ => 98)]

/-- The bootloader's layer on the small volume. -/
def smallLayer : Layer := bootLayer (.ofDisk smallDisk) (hardDiskPartition 0)

/-- The memory of a local buffer that holds zeros. -/
def blankName : NameBuffer := fun _ => 0

lemma smallLayer_mounts : (fatInitialize smallLayer .start).1 = .ok true := by decide +kernel

end ArcOS.Fat
