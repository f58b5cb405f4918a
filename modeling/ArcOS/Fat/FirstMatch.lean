import ArcOS.Fat.Fat12
import ArcOS.Fat.FindFile
import ArcOS.Kernel.ShortName
import Mathlib.Data.Fintype.Pi
import Mathlib.Data.Nat.Prime.Basic

/-!
What the search of a directory finds, on FAT12 and FAT16.

The root directory is a row of sectors (`root_delivers`), a subdirectory the clusters of its chain
(`chain_delivers`). `FAT_FindFile` looks at the names of all their records: it finds the first one with
the name (`findFile_first`), live or not (`liveEntries`).
-/

namespace ArcOS.Fat

open Lib Lib.Search

variable {dev : Device} {part : Partition} {f : FatData} {s : St} {k : ℕ}

/-! ### The root directory -/

section Root

variable (dev part f)

/-- The number of records of the root directory. -/
def rootCount : ℕ := (BootSector.dirEntryCount f.bootSector).toNat

/-- Sector `n` of the root directory. -/
def rootSector (n : ℕ) : Sector :=
  dev.disk (f.rootDirectory.firstCluster + UInt32.ofNat n + part.partitionOffset)

/-- The records of the root directory. -/
def rootEntries : List DirectoryEntry :=
  (List.range (rootCount f)).map fun k => entryAt (rootSector dev part f (k / 16)) k

/-- The root directory is at record `k`. -/
structure RootAt (k : ℕ) (s : St) : Prop where
  pub : s.fat.rootDirectory.pub =
    { handle := rootDirectoryHandle, isDirectory := true, position := UInt32.ofNat (32 * k)
      size := UInt32.ofNat (32 * rootCount f) }
  cluster : s.fat.rootDirectory.currentCluster =
    f.rootDirectory.firstCluster + UInt32.ofNat (k / 16)
  buffer : s.fat.rootDirectory.buffer = rootSector dev part f (k / 16)

variable {dev part f}

lemma getElem?_rootEntries (k : ℕ) : (rootEntries dev part f)[k]? =
    if k < rootCount f then some (entryAt (rootSector dev part f (k / 16)) k) else none := by
  split
  · next h => simp [rootEntries, h]
  · next h => simp [rootEntries, h]

lemma cappedCount_root (h : RootAt dev part f k s) (hcount : rootCount f ≠ 0) (hk : k ≤ rootCount f) :
    cappedCount (s.fat.fd .root).pub 32 = if k < rootCount f then 32 else 0 := by
  have hmax : rootCount f < 2 ^ 16 := (BootSector.dirEntryCount f.bootSector).toNat_lt
  have hcap := cappedCount_eq 32 (p := (s.fat.fd .root).pub)
    (.inr (by
      rw [FatData.fd_root, h.pub]
      intro h0
      have := congrArg UInt32.toNat h0
      rw [UInt32.toNat_ofNat', show (0 : UInt32).toNat = 0 from rfl] at this
      omega))
    (by rw [FatData.fd_root, h.pub, UInt32.toNat_ofNat', UInt32.toNat_ofNat']; omega)
  apply UInt32.toNat_inj.mp
  rw [hcap, FatData.fd_root, h.pub, UInt32.toNat_ofNat', UInt32.toNat_ofNat',
    show (32 : UInt32).toNat = 32 from rfl]
  split
  · rw [show (32 : UInt32).toNat = 32 from rfl]
    omega
  · rw [show (0 : UInt32).toNat = 0 from rfl]
    omega

/-- **One `FAT_ReadEntry` on the root directory.** -/
theorem readEntry_root (hrel : dev.Reliable) (h : RootAt dev part f k s) (hk : k < rootCount f) :
    (readEntry (bootLayer dev part) (some .root) s).1 =
        .ok (some (entryAt (rootSector dev part f (k / 16)) k)) ∧
      RootAt dev part f (k + 1) (readEntry (bootLayer dev part) (some .root) s).2 := by
  have hderef : s.fat.deref (some .root) = .ok .root := by
    simp [FatData.deref, FatData.fd_root, h.pub]
  have hentry := readEntry_aligned (L := bootLayer dev part) (k := k) hderef
    (by rw [cappedCount_root h (by omega) hk.le, if_pos hk]) (by rw [FatData.fd_root, h.pub])
  have hcopied := copied_fd .root s
  rw [FatData.fd_root, FatData.fd_root, h.pub] at hcopied
  dsimp only at hcopied
  rw [ofNat_succ] at hcopied
  rw [hentry, FatData.fd_root, h.buffer]
  refine ⟨rfl, ?_⟩
  dsimp only
  by_cases hlast : k % 16 = 15
  · have hdiv : (k + 1) / 16 = k / 16 + 1 := by omega
    rw [if_pos hlast]
    have hahead := lookAhead_root_fd (bootLayer dev part) .root (copied .root s)
      (by rw [FatData.fd_root, hcopied])
    rw [FatData.fd_root, FatData.fd_root, hcopied] at hahead
    dsimp only at hahead
    have hnext : s.fat.rootDirectory.currentCluster + 1 =
        f.rootDirectory.firstCluster + UInt32.ofNat ((k + 1) / 16) := by
      rw [h.cluster, hdiv, UInt32.ofNat_add, UInt32.add_assoc]
      rfl
    refine ⟨by rw [hahead], by rw [hahead, hnext], ?_⟩
    rw [hahead]
    simp only [bootLayer, Device.readSectors_of_ok (hrel _ _), Device.window_sector, hnext]
    rfl
  · have hdiv : (k + 1) / 16 = k / 16 := by omega
    rw [if_neg hlast]
    exact ⟨by rw [hcopied], by rw [hcopied, hdiv, h.cluster], by rw [hcopied, hdiv, h.buffer]⟩

/-- **What reading the root directory gives.** -/
theorem root_delivers (hrel : dev.Reliable) (hcount : rootCount f ≠ 0) (h : RootAt dev part f 0 s) :
    Delivers (readEntry (bootLayer dev part) (some .root)) (rootEntries dev part f) s := by
  refine streams_of_inv (I := fun k t => k ≤ rootCount f ∧ RootAt dev part f k t) (fun k t ht => ?_)
    ⟨Nat.zero_le _, h⟩
  obtain ⟨hk, hat⟩ := ht
  rw [getElem?_rootEntries]
  split
  · next hlt =>
    obtain ⟨hres, hnext⟩ := readEntry_root hrel hat hlt
    exact ⟨hres, fun _ => ⟨hlt, hnext⟩⟩
  · next hge =>
    have hderef : t.fat.deref (some .root) = .ok .root := by
      simp [FatData.deref, FatData.fd_root, hat.pub]
    refine ⟨?_, fun hsome => by cases hsome⟩
    rw [readEntry_end hderef (by rw [cappedCount_root hat hcount hk, if_neg hge])]

lemma Initialised.rootAt (h : Initialised (bootLayer dev part) s) :
    RootAt dev part s.fat 0 s := by
  obtain ⟨clock, buf, hread⟩ := h.rootBuffer
  have hbuffer : s.fat.rootDirectory.buffer = dev.window (s.fat.rootDirectory.firstCluster +
      part.partitionOffset) 512 :=
    (congrArg Prod.snd hread).symm.trans (readSectors_true dev (congrArg Prod.fst hread))
  rw [Device.window_sector] at hbuffer
  refine ⟨?_, ?_, ?_⟩
  · have hsize : UInt32.ofNat (32 * rootCount s.fat) =
        32 * (BootSector.dirEntryCount s.fat.bootSector).toUInt32 := by
      rw [rootCount, UInt32.ofNat_mul, ← UInt16.toNat_toUInt32, UInt32.ofNat_toNat]
      rfl
    rw [h.rootPub, hsize]
    rfl
  · rw [h.rootCursor.1]
    exact (UInt32.add_zero _).symm
  · rw [hbuffer, rootSector]
    exact congrArg (fun lba => dev.disk (lba + part.partitionOffset)) (UInt32.add_zero _).symm

end Root

/-! ### Subdirectories -/

section Chain

variable {first : UInt32} {chain : List UInt32} {i : Fin 10}

/-- **What reading a directory along its chain gives.** -/
theorem chain_delivers (hrel : dev.Reliable) (h : Reading dev part f first i 0 s)
    (hw : ShowsChain dev part f first chain) :
    Delivers (readEntry (bootLayer dev part) (some (.slot i))) (chainEntries dev part f chain) s :=
  (directory_streams hrel h).delivers_iff.mpr (answers_iff.mpr hw)

lemma or_ones16 {next : UInt32} (h : next.toNat < 0x10000) :
    (next ||| 0xFFFF0000).toNat = 0xFFFF0000 + next.toNat := by
  rw [UInt32.toNat_or, show (0xFFFF0000 : UInt32).toNat = 0xFFFF <<< 16 from rfl, Nat.or_comm,
    ← Nat.shiftLeft_add_eq_or_of_lt (show next.toNat < 2 ^ 16 from h), Nat.shiftLeft_eq]

lemma diskLink_small (hft : f.fatType = 12 ∨ f.fatType = 16) {cluster : UInt32}
    (h : diskLink dev part f cluster < 0xFFFFFFF8) : (diskLink dev part f cluster).toNat < 0xFFF8 := by
  rw [UInt32.lt_iff_toNat_lt, show (0xFFFFFFF8 : UInt32).toNat = 0xFFFFFFF8 from rfl] at h
  unfold diskLink decodeLink at h ⊢
  generalize (fun k => tableByte dev part f ((fatIndex f.fatType cluster).toNat + k)) = b at h ⊢
  have h0 := (b 0).toNat_lt
  have h1 := (b 1).toNat_lt
  rcases hft with h12 | h16
  · have hhalf := half_toNat b cluster
    rw [if_pos h12] at h ⊢
    dsimp only at h ⊢
    generalize (if cluster % 2 = 0 then (le16 (b 0) (b 1)).toUInt32 &&& 0x0FFF
      else (le16 (b 0) (b 1)).toUInt32 >>> 4) = next at h hhalf ⊢
    have hlt : next.toNat < 4096 := by rw [hhalf]; split <;> omega
    rw [or_ones hlt, extended12] at h ⊢
    split at h
    · rw [UInt32.toNat_ofNat'] at h
      omega
    · rw [if_neg ‹_›, UInt32.ofNat_toNat]
      omega
  · rw [if_neg (by rw [h16]; decide), if_pos h16] at h ⊢
    dsimp only at h ⊢
    have hlt : (le16 (b 0) (b 1)).toUInt32.toNat < 0x10000 := by
      rw [load_toNat]
      omega
    generalize (le16 (b 0) (b 1)).toUInt32 = next at h hlt ⊢
    split at h
    · next hmark =>
      rw [UInt32.le_iff_toNat_le, show (0xFFF8 : UInt32).toNat = 0xFFF8 from rfl] at hmark
      rw [or_ones16 hlt] at h
      omega
    · next hmark =>
      rw [UInt32.le_iff_toNat_le, show (0xFFF8 : UInt32).toNat = 0xFFF8 from rfl] at hmark
      rw [if_neg ‹_›]
      omega

/-- A chain without a cycle on FAT12 or FAT16 has too few sectors for 2^32 bytes, and not that many. -/
lemma chainLength_mod (hft : f.fatType = 12 ∨ f.fatType = 16)
    (hspc : 0 < f.sectorsPerCluster.toNat) (h : WholeChain dev part f first chain) (hn : chain.Nodup) :
    chainLength f chain % 2 ^ 23 ≠ 0 := by
  have hspc' : f.sectorsPerCluster.toNat < 256 := by
    rw [FatData.sectorsPerCluster, UInt8.toNat_toUInt32]
    exact UInt8.toNat_lt _
  obtain ⟨c, cs, rfl⟩ : ∃ c cs, chain = c :: cs := by
    cases chain with
    | nil => cases h.head
    | cons c cs => exact ⟨c, cs, rfl⟩
  -- the clusters behind the first are links of 16 bits, and all different
  have hsmall : ∀ x ∈ cs.map UInt32.toNat, x ∈ List.range 0xFFF8 := by
    intro x hx
    obtain ⟨y, hy, rfl⟩ := List.mem_map.mp hx
    obtain ⟨i, hi, rfl⟩ := List.mem_iff_getElem.mp hy
    have hlink := h.linked.link i (by simpa using hi)
    have hnext : (c :: cs).getD (i + 1) 0 = cs[i] := by
      rw [List.getD_cons_succ, List.getD_eq_getElem _ _ hi]
    rw [hnext] at hlink
    have hlt := h.linked.cluster cs[i] (List.mem_cons_of_mem _ (List.getElem_mem hi))
    rw [← hlink] at hlt ⊢
    exact List.mem_range.mpr (diskLink_small hft hlt)
  have hnodup : (cs.map UInt32.toNat).Nodup :=
    (List.nodup_cons.mp hn).2.map fun _ _ => UInt32.toNat_inj.mp
  have hlen : cs.length ≤ 0xFFF8 := by
    simpa using (List.subperm_of_subset hnodup hsmall).length_le
  rw [chainLength, List.length_cons]
  generalize f.sectorsPerCluster.toNat = spc at hspc hspc'
  generalize cs.length = m at hlen
  have hpos : 0 < spc * (m + 1) := Nat.mul_pos hspc (by omega)
  have hmax : spc * (m + 1) ≤ 255 * 0xFFF9 := Nat.mul_le_mul (by omega) (by omega)
  intro hmod
  have heq : spc * (m + 1) = 2 ^ 23 := by omega
  obtain ⟨j, -, rfl⟩ := (Nat.dvd_prime_pow Nat.prime_two).mp ⟨m + 1, heq.symm⟩
  have hj : j < 8 := by
    by_contra hge
    have := Nat.pow_le_pow_right (show 0 < 2 by omega) (show 8 ≤ j by omega)
    omega
  have hspc128 : 2 ^ j ≤ 128 := by
    calc 2 ^ j ≤ 2 ^ 7 := Nat.pow_le_pow_right (by omega) (by omega)
      _ = 128 := rfl
  have := Nat.mul_le_mul hspc128 (show m + 1 ≤ 0xFFF9 by omega)
  omega

end Chain

/-! ### Names -/

section Names

/-- The record has the name. -/
def hasName (name : List UInt8) (e : DirectoryEntry) : Bool := decide (List.ofFn e.name = name)

lemma nameMatches_eq (name : List UInt8) : nameMatches (getShortName name) = hasName (Kernel.shortName name) := by
  funext e
  have htake : Kernel.shortName name =
      List.ofFn fun i : Fin 11 => getShortName name ⟨i, by omega⟩ := by
    apply List.ext_getElem (by simp [Kernel.shortName])
    intro i h₁ h₂
    simp only [Kernel.shortName, List.getElem_take, List.getElem_ofFn]
  unfold nameMatches hasName
  rw [htake]
  refine decide_eq_decide.mpr ⟨fun h => congrArg List.ofFn (funext fun i => (h i).symm), fun h i => ?_⟩
  exact (congrFun (List.ofFn_injective h) i).symm

end Names

/-! ### The search -/

/-- `FAT_ATTRIBUTE_VOLUME_ID`. -/
def attributeVolumeId : UInt8 := 0x08

/-- `FAT_ATTRIBUTE_LFN`. -/
def attributeLfn : UInt8 := 0x0F

/-- The live entries among the records of a directory: those before the end mark that are not deleted, no
volume label and no slot of a long name. -/
def liveEntries (records : List DirectoryEntry) : List DirectoryEntry :=
  (records.takeWhile fun e => e.mark ≠ 0).filter fun e =>
    e.mark ≠ 0xE5 ∧ e.attributes &&& attributeVolumeId = 0 ∧ e.attributes ≠ attributeLfn

/-- A directory at its start, with its records: the root directory with its first sector in the buffer,
or a directory of size 0 that was just opened, on a chain without a cycle whose links are found. -/
inductive AtStart (dev : Device) (part : Partition) : Loc → List DirectoryEntry → St → Prop where
  | root {s : St} : rootCount s.fat ≠ 0 → RootAt dev part s.fat 0 s →
      AtStart dev part .root (rootEntries dev part s.fat) s
  | subdirectory {s s' : St} {p : Loc} (entry : DirectoryEntry) (chain : List UInt32) :
      Reachable (bootLayer dev part) s → entry.attributes &&& attributeDirectory ≠ 0 → entry.size = 0 →
      Boot.fatOpenEntry dev part entry s = (some p, s') →
      WholeChain dev part s.fat entry.firstCluster chain → chain.Nodup → Unbroken s.fat chain →
      AtStart dev part p (chainEntries dev part s.fat chain) s'

lemma AtStart.delivers {p : Loc} {records : List DirectoryEntry} (hrel : dev.Reliable)
    (hft : s.fat.fatType = 12 ∨ s.fat.fatType = 16) (h : AtStart dev part p records s) :
    Delivers (readEntry (bootLayer dev part) (some p)) records s := by
  cases h with
  | root hcount hat => exact root_delivers hrel hcount hat
  | subdirectory entry chain hr hdir hsize hopen hchain hn hu =>
    obtain ⟨i, rfl, hreading⟩ := openEntry_reading (hr.coherent hrel) hdir hsize hopen
    rw [hreading.place.volume.fatType] at hft
    have hmod := chainLength_mod hft hr.sectorsPerCluster hchain hn
    exact chain_delivers hrel hreading (hchain.walks hu hr.sectorsPerCluster hmod).toShowsChain

lemma AtStart.search {p : Loc} {records : List DirectoryEntry} (hrel : dev.Reliable)
    (hft : s.fat.fatType = 12 ∨ s.fat.fatType = 16) (h : AtStart dev part p records s)
    (name : List UInt8) {fuel : ℕ} (hfuel : records.length < fuel) :
    (findFile (bootLayer dev part) fuel (some p) name s).1 =
      .ok (records.find? (hasName (Kernel.shortName name))) := by
  rw [findFile_eq, findLoop_search, search_list (h.delivers hrel hft) hfuel, nameMatches_eq]

/-- **What `FAT_FindFile` finds**: the first of all records of the directory that has the short name of the
component, on FAT12 and FAT16 with a disk whose reads succeed. -/
theorem findFile_first (dev : Device) (hrel : dev.Reliable) (part : Partition) (s : St)
    (hft : s.fat.fatType = 12 ∨ s.fat.fatType = 16) (p : Loc) (records : List DirectoryEntry)
    (hstart : AtStart dev part p records s) (c : Kernel.Component) (later : List UInt8) (fuel : ℕ)
    (hfuel : records.length < fuel) :
    (Boot.fatFindFile dev part fuel (some p) (c.text ++ 0 :: later) s).1 =
      .ok (records.find? (hasName c.canonical)) := by
  rw [Boot.fatFindFile, hstart.search hrel hft _ hfuel, Kernel.shortName_component]

/-- The component `B`. -/
def componentB : Kernel.Component where
  base := [66]
  ext := []
  base_length := by decide
  ext_length := by decide
  bytes := by simp

lemma smallLayer_atStart : AtStart (.ofDisk smallDisk) (hardDiskPartition 0) .root
    (rootEntries (.ofDisk smallDisk) (hardDiskPartition 0) (mounted smallLayer).fat) (mounted smallLayer) :=
  .root (by decide +kernel) (fatInitialize_initialised (Prod.ext smallLayer_mounts rfl)).rootAt

theorem findFile_first_small :
    (Boot.fatFindFile (.ofDisk smallDisk) (hardDiskPartition 0) 17 (some .root)
        (componentB.text ++ 0 :: []) (mounted smallLayer)).1 =
      .ok ((rootEntries (.ofDisk smallDisk) (hardDiskPartition 0) (mounted smallLayer).fat).find?
        (hasName componentB.canonical)) :=
  findFile_first (.ofDisk smallDisk) (fun _ _ => rfl) (hardDiskPartition 0) (mounted smallLayer)
    (.inr (by decide +kernel)) .root _ smallLayer_atStart componentB [] 17 (by decide +kernel)

/-- The small volume with a volume label `B` in its root directory, and no other entry. -/
def labelDisk : UInt32 → Sector :=
  diskOf [(0, smallVolume.bootSector), (33, Bytes.ofList 512 (List.ofFn (dirEntry [66] 0x08 0 0)))]

/-- The bootloader's layer on that volume. -/
def labelLayer : Layer := bootLayer (.ofDisk labelDisk) (hardDiskPartition 0)

/-- The label is found as a file, though no live entry has the name. -/
theorem findFile_label :
    AtStart (.ofDisk labelDisk) (hardDiskPartition 0) .root
      (rootEntries (.ofDisk labelDisk) (hardDiskPartition 0) (mounted labelLayer).fat)
      (mounted labelLayer) ∧
    (Boot.fatFindFile (.ofDisk labelDisk) (hardDiskPartition 0) 17 (some .root)
      (componentB.text ++ 0 :: []) (mounted labelLayer)).1 = .ok (some (dirEntry [66] 0x08 0 0)) ∧
    (liveEntries (rootEntries (.ofDisk labelDisk) (hardDiskPartition 0) (mounted labelLayer).fat)).find?
      (hasName componentB.canonical) = none := by
  have hmounts : fatInitialize labelLayer .start = (.ok true, mounted labelLayer) :=
    Prod.ext (by decide +kernel) rfl
  have hstart : AtStart (.ofDisk labelDisk) (hardDiskPartition 0) .root
      (rootEntries (.ofDisk labelDisk) (hardDiskPartition 0) (mounted labelLayer).fat)
      (mounted labelLayer) :=
    .root (by decide +kernel) (fatInitialize_initialised hmounts).rootAt
  refine ⟨hstart, ?_, by decide +kernel⟩
  rw [Boot.fatFindFile, hstart.search (fun _ _ => rfl) (.inr (by decide +kernel)) _ (by decide +kernel),
    Kernel.shortName_component]
  exact congrArg Except.ok (by decide +kernel)

end ArcOS.Fat
