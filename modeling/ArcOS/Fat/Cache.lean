import ArcOS.Fat.Init
import ArcOS.Lib.Transducer

/-!
The cached window of the allocation table, in the bootloader's layer.

The cache is coherent when its tag is the invalid value or it holds the five sectors of the table
from its tag on. `nextCluster_found` is the step lemma: from a coherent cache a lookup that gets its
window (`Refills`) and whose entry does not reach behind it (`Straddles`) gives the link that is on the
disk, and leaves the cache coherent. `FAT_NextCluster` checks neither.
-/

namespace ArcOS.Fat

open Lib Lib.Transducer

variable (dev : Device) (part : Partition)

/-! ### The table on the disk -/

/-- The absolute LBA of a sector of the first table. -/
def tableLba (f : FatData) (sector : UInt32) : UInt32 :=
  f.reservedSectors + sector + part.partitionOffset

/-- Byte `i` of the first table on the disk. -/
def tableByte (f : FatData) (i : ℕ) : UInt8 :=
  dev.disk (tableLba part f (UInt32.ofNat (i / 512))) ⟨i % 512, mod_sector_lt i⟩

/-- The link of a cluster that is on the disk. -/
def diskLink (f : FatData) (cluster : UInt32) : UInt32 :=
  decodeLink f.fatType cluster fun k => tableByte dev part f ((fatIndex f.fatType cluster).toNat + k)

/-- The cache is empty, or holds the sectors its tag names. -/
def Coherent (s : St) : Prop := s.fat.fatCachePosition = 0xFFFFFFFF ∨
  s.fat.fatCache = dev.window (tableLba part s.fat s.fat.fatCachePosition) 2560

/-- A lookup that moves the window gets the sectors it asks for. -/
def Refills (f : FatData) (clock : ℕ) (cluster : UInt32) : Prop :=
  f.misses (fatIndex f.fatType cluster / 512) = true →
    (dev.readSectors clock (tableLba part f (fatIndex f.fatType cluster / 512)) 2560 f.fatCache).2 =
      dev.window (tableLba part f (fatIndex f.fatType cluster / 512)) 2560

/-- A lookup inside the window, of an entry whose second byte is behind it. -/
def Straddles (f : FatData) (cluster : UInt32) : Prop :=
  f.misses (fatIndex f.fatType cluster / 512) = false ∧ f.fatType = 12 ∧
    (fatIndex f.fatType cluster - f.fatCachePosition * 512).toNat = 2559

/-- A lookup gets its window and stays inside it. -/
def Finds (f : FatData) (clock : ℕ) (cluster : UInt32) : Prop :=
  Refills dev part f clock cluster ∧ ¬ Straddles f cluster

variable {dev part} {f : FatData} {s : St} {sector cluster : UInt32}

/-! ### A lookup -/

/-- A sector inside the window is one of the five from the tag on. -/
lemma hit_bounds (h : f.misses sector = false) :
    f.fatCachePosition.toNat ≤ sector.toNat ∧ sector.toNat < f.fatCachePosition.toNat + 5 := by
  simp only [FatData.misses, Bool.or_eq_false_iff, decide_eq_false_iff_not, UInt32.lt_iff_toNat_lt,
    UInt32.le_iff_toNat_le, UInt32.toNat_add] at h
  have h5 : (5 : UInt32).toNat = 5 := rfl
  have := sector.toNat_lt
  omega

lemma not_misses_invalid (h : f.fatCachePosition = 0xFFFFFFFF) (cluster : UInt32) :
    f.misses (fatIndex f.fatType cluster / 512) = true := by
  have hlt : (fatIndex f.fatType cluster / 512).toNat < 0xFFFFFFFF := by
    have := (fatIndex f.fatType cluster).toNat_lt
    rw [UInt32.toNat_div, show (512 : UInt32).toNat = 512 from rfl]
    omega
  have : fatIndex f.fatType cluster / 512 < f.fatCachePosition := by
    rw [h, UInt32.lt_iff_toNat_lt]
    exact hlt
  simp [FatData.misses, this]

/-- The bytes a link is decoded from. -/
def linkWidth (fatType : UInt8) : ℕ := if fatType = 12 ∨ fatType = 16 then 2 else 4

lemma decodeLink_congr {fatType : UInt8} {b b' : ℕ → UInt8}
    (h : ∀ k < linkWidth fatType, b k = b' k) :
    decodeLink fatType cluster b = decodeLink fatType cluster b' := by
  unfold decodeLink
  unfold linkWidth at h
  split
  · next h12 =>
    rw [if_pos (.inl h12)] at h
    rw [h 0 (by omega), h 1 (by omega)]
  · next h12 =>
    split
    · next h16 =>
      rw [if_pos (.inr h16)] at h
      rw [h 0 (by omega), h 1 (by omega)]
    · next h16 =>
      rw [if_neg (by simp [h12, h16])] at h
      rw [h 0 (by omega), h 1 (by omega), h 2 (by omega), h 3 (by omega)]

lemma window_tableByte (i : ℕ) (h : i < 2560) :
    dev.window (tableLba part f sector) 2560 ⟨i, h⟩ = tableByte dev part f (sector.toNat * 512 + i) := by
  have hdiv : (sector.toNat * 512 + i) / 512 = sector.toNat + i / 512 := by omega
  have hmod : (sector.toNat * 512 + i) % 512 = i % 512 := by omega
  simp only [Device.window, tableByte, hdiv, hmod, tableLba, UInt32.ofNat_add, UInt32.ofNat_toNat]
  congr 1
  grind

lemma cacheByte_tableByte (h : f.fatCache = dev.window (tableLba part f f.fatCachePosition) 2560)
    {i : ℕ} (hlo : f.fatCachePosition.toNat * 512 ≤ i)
    (hhi : i - f.fatCachePosition.toNat * 512 < 2560) :
    f.cacheByte (i - f.fatCachePosition.toNat * 512) = tableByte dev part f i := by
  rw [FatData.cacheByte, dif_pos hhi, h, window_tableByte]
  congr 1
  omega

lemma entry_inside (hhit : f.misses (fatIndex f.fatType cluster / 512) = false)
    (hs : ¬ Straddles f cluster) :
    f.fatCachePosition.toNat * 512 ≤ (fatIndex f.fatType cluster).toNat ∧
      (fatIndex f.fatType cluster - f.fatCachePosition * 512).toNat =
        (fatIndex f.fatType cluster).toNat - f.fatCachePosition.toNat * 512 ∧
      (fatIndex f.fatType cluster).toNat - f.fatCachePosition.toNat * 512 + linkWidth f.fatType ≤
        2560 := by
  have hb := hit_bounds hhit
  have hi := (fatIndex f.fatType cluster).toNat_lt
  have hc := cluster.toNat_lt
  rw [UInt32.toNat_div, show (512 : UInt32).toNat = 512 from rfl] at hb
  have hmul : (f.fatCachePosition * 512).toNat = f.fatCachePosition.toNat * 512 := by
    rw [UInt32.toNat_mul, show (512 : UInt32).toNat = 512 from rfl]
    omega
  have hsub : (fatIndex f.fatType cluster - f.fatCachePosition * 512).toNat =
      (fatIndex f.fatType cluster).toNat - f.fatCachePosition.toNat * 512 := by
    rw [UInt32.toNat_sub_of_le _ _ (by rw [UInt32.le_iff_toNat_le, hmul]; omega), hmul]
  refine ⟨by omega, hsub, ?_⟩
  -- FAT16 and FAT32 entries are aligned to their width; a FAT12 entry is where `Straddles` says
  by_cases h12 : f.fatType = 12
  · have : (fatIndex f.fatType cluster).toNat - f.fatCachePosition.toNat * 512 ≠ 2559 :=
      fun h => hs ⟨hhit, h12, hsub.trans h⟩
    simp only [linkWidth, h12, true_or, if_true] at this ⊢
    rw [h12] at hb
    omega
  · by_cases h16 : f.fatType = 16
    · have : (fatIndex f.fatType cluster).toNat % 2 = 0 := by
        rw [fatIndex, if_neg h12, if_pos h16, UInt32.toNat_mul,
          show (2 : UInt32).toNat = 2 from rfl]
        omega
      simp only [linkWidth, h16, or_true, if_true]
      rw [h16] at hb this
      omega
    · have : (fatIndex f.fatType cluster).toNat % 4 = 0 := by
        rw [fatIndex, if_neg h12, if_neg h16, UInt32.toNat_mul,
          show (4 : UInt32).toNat = 4 from rfl]
        omega
      simp only [linkWidth, h12, h16, or_self, if_false]
      omega

/-- A window that starts at the sector of an entry holds the entry. -/
lemma entry_first (cluster : UInt32) (h : f.fatCachePosition = fatIndex f.fatType cluster / 512) :
    f.misses (fatIndex f.fatType cluster / 512) = false ∧ ¬ Straddles f cluster := by
  have hi := (fatIndex f.fatType cluster).toNat_lt
  have hpos : f.fatCachePosition.toNat = (fatIndex f.fatType cluster).toNat / 512 := by
    rw [h, UInt32.toNat_div, show (512 : UInt32).toNat = 512 from rfl]
  refine ⟨?_, fun hs => ?_⟩
  · simp only [FatData.misses, ← h, Bool.or_eq_false_iff, decide_eq_false_iff_not,
      UInt32.lt_iff_toNat_lt, UInt32.le_iff_toNat_le, UInt32.toNat_add,
      show (5 : UInt32).toNat = 5 from rfl]
    omega
  · have hmul : (f.fatCachePosition * 512).toNat = f.fatCachePosition.toNat * 512 := by
      rw [UInt32.toNat_mul, show (512 : UInt32).toNat = 512 from rfl]
      omega
    have := hs.2.2
    rw [UInt32.toNat_sub_of_le _ _ (by rw [UInt32.le_iff_toNat_le, hmul]; omega), hmul] at this
    omega

lemma refill_hit {L : Layer} (h : s.fat.misses sector = false) : refill L sector s = s := by
  rw [refill, if_neg (by simp [h])]

lemma refill_miss {L : Layer} (h : s.fat.misses sector = true) : refill L sector s =
    { fat := { s.fat with
        fatCache := (L.readSectors s.clock (L.fatLba (s.fat.reservedSectors + sector)) 2560
          s.fat.fatCache).2
        fatCachePosition := sector }
      clock := s.clock + 1
      log := .diskRead (L.fatLba (s.fat.reservedSectors + sector)) 5 :: s.log } := by
  rw [refill, if_pos h]
  rfl

/-- The cache holds the sectors of its tag, and the entry of a cluster is all inside. -/
structure Covers (dev : Device) (part : Partition) (f : FatData) (cluster : UInt32) : Prop where
  cache : f.fatCache = dev.window (tableLba part f f.fatCachePosition) 2560
  hit : f.misses (fatIndex f.fatType cluster / 512) = false
  inside : ¬ Straddles f cluster

lemma Covers.link (h : Covers dev part f cluster) :
    decodeLink f.fatType cluster (fun k => f.cacheByte
      ((fatIndex f.fatType cluster - f.fatCachePosition * 512).toNat + k)) =
        diskLink dev part f cluster := by
  obtain ⟨hlo, hoff, hw⟩ := entry_inside h.hit h.inside
  apply decodeLink_congr
  intro k hk
  rw [hoff, show (fatIndex f.fatType cluster).toNat - f.fatCachePosition.toNat * 512 + k =
    (fatIndex f.fatType cluster).toNat + k - f.fatCachePosition.toNat * 512 by omega,
    cacheByte_tableByte h.cache (by omega) (by omega)]

lemma nextCluster_covers (hc : Coherent dev part s) (hf : Finds dev part s.fat s.clock cluster) :
    Covers dev part (nextCluster (bootLayer dev part) cluster s).2.fat cluster := by
  obtain ⟨hrefill, hstr⟩ := hf
  simp only [nextCluster]
  cases hm : s.fat.misses (fatIndex s.fat.fatType cluster / 512) with
  | true =>
    rw [refill_miss (by exact hm)]
    obtain ⟨hhit, hs⟩ := entry_first (f := { s.fat with
      fatCachePosition := fatIndex s.fat.fatType cluster / 512
      fatCache := (dev.readSectors s.clock (tableLba part s.fat (fatIndex s.fat.fatType cluster / 512))
        2560 s.fat.fatCache).2 }) cluster rfl
    exact ⟨hrefill hm, hhit, hs⟩
  | false =>
    rw [refill_hit (by exact hm)]
    rcases hc with hinv | hcache
    · rw [not_misses_invalid hinv] at hm
      cases hm
    · exact ⟨hcache, hm, hstr⟩

lemma nextCluster_volume (L : Layer) (cluster : UInt32) (s : St) :
    (nextCluster L cluster s).2.fat.fatType = s.fat.fatType ∧
      (nextCluster L cluster s).2.fat.bootSector = s.fat.bootSector := by
  simp only [nextCluster, refill]
  split <;> exact ⟨rfl, rfl⟩

/-- **A lookup that gets its window and stays inside it** gives the link on the disk, and leaves the
cache coherent. -/
theorem nextCluster_found (hc : Coherent dev part s) (hf : Finds dev part s.fat s.clock cluster) :
    (nextCluster (bootLayer dev part) cluster s).1 = diskLink dev part s.fat cluster ∧
      Coherent dev part (nextCluster (bootLayer dev part) cluster s).2 := by
  have h := nextCluster_covers hc hf
  obtain ⟨hft, hbs⟩ := nextCluster_volume (bootLayer dev part) cluster s
  refine ⟨?_, .inr h.cache⟩
  have hlink := h.link
  rw [hft] at hlink
  simp only [diskLink, tableByte, tableLba, FatData.reservedSectors, hft, hbs] at hlink ⊢
  rw [← hlink]
  simp only [nextCluster, refill]
  split <;> rfl

/-! ### Runs of lookups -/

lemma Initialised.coherent {L : Layer} (h : Initialised L s) : Coherent dev part s :=
  .inl h.cachePosition

/-- **The cache is coherent as long as every lookup gets its window and stays inside it**, and then
every link is the one on the disk. -/
theorem lookups_coherent (dev : Device) (part : Partition) (s s' : St)
    (h : Boot.fatInitialize dev part s = (.ok true, s')) (clusters : List UInt32)
    (hfinds : Along (Boot.fatNextCluster dev part)
      (fun t cluster => Finds dev part t.fat t.clock cluster) clusters s') :
    Always (Boot.fatNextCluster dev part) (fun t cluster link t' => Coherent dev part t' ∧
      link = diskLink dev part t.fat cluster) clusters s' := by
  refine always_of_step (P := Coherent dev part) (fun t cluster hc hf => ?_) clusters s'
    (fatInitialize_initialised h).coherent hfinds
  obtain ⟨hlink, hc'⟩ := nextCluster_found hc hf
  exact ⟨⟨hc', hlink⟩, hc'⟩

/-- The state of the small volume when the disk fails once, at the third call. -/
def failedOnce : Device := .ofDisk smallDisk fun clock _ => clock != 2

/-- After one failed read the cache holds what is not on the disk, and the next lookup in its window
succeeds without a read and gives a link that is not there. -/
theorem lookups_incoherent :
    (Boot.fatInitialize failedOnce (hardDiskPartition 0) .start).1 = .ok true ∧
    ¬ Always (Boot.fatNextCluster failedOnce (hardDiskPartition 0))
      (fun t cluster link t' => Coherent failedOnce (hardDiskPartition 0) t' ∧
        link = diskLink failedOnce (hardDiskPartition 0) t.fat cluster) [2, 2]
      (Boot.fatInitialize failedOnce (hardDiskPartition 0) .start).2 := by
  refine ⟨by decide +kernel, fun h => ?_⟩
  have hne : (Boot.fatNextCluster failedOnce (hardDiskPartition 0) 2
      (Boot.fatInitialize failedOnce (hardDiskPartition 0) .start).2).1 ≠
        diskLink failedOnce (hardDiskPartition 0)
          (Boot.fatInitialize failedOnce (hardDiskPartition 0) .start).2.fat 2 := by
    decide +kernel
  exact hne h.1.2

theorem lookups_coherent_small : Always (Boot.fatNextCluster (.ofDisk smallDisk) (hardDiskPartition 0))
    (fun t cluster link t' => Coherent (.ofDisk smallDisk) (hardDiskPartition 0) t' ∧
      link = diskLink (.ofDisk smallDisk) (hardDiskPartition 0) t.fat cluster) [2, 3]
    (mounted smallLayer) :=
  lookups_coherent (.ofDisk smallDisk) (hardDiskPartition 0) .start (mounted smallLayer)
    (Prod.ext smallLayer_mounts rfl) [2, 3]
    ⟨⟨fun _ => rfl, fun h => absurd h.2.1 (by decide +kernel)⟩,
      ⟨fun _ => rfl, fun h => absurd h.2.1 (by decide +kernel)⟩, trivial⟩

end ArcOS.Fat
