import ArcOS.Fat.Files

/-!
FAT12 links through the cached window.

An entry has 12 bits, and every other one starts in the middle of a byte (`entry12`). `FAT_NextCluster`
loads the two bytes it lies in from the window, which it moves only when the first of them is outside
(`Straddles`). `lookup12_iff` says when the load stays inside the window and gives the entry.
-/

namespace ArcOS.Fat

open Lib Lib.Transducer

/-- Entry `c` of a table of 12-bit entries. -/
def entry12 (table : ℕ → UInt8) (c : ℕ) : ℕ :=
  let pair := (table (3 * c / 2)).toNat + 256 * (table (3 * c / 2 + 1)).toNat
  if c % 2 = 0 then pair % 4096 else pair / 16

/-- An entry as `FAT_NextCluster` returns it: the marks of the end of a chain are filled up with
ones. -/
def extended12 (entry : ℕ) : UInt32 :=
  if 0xFF8 ≤ entry then UInt32.ofNat (0xFFFFF000 + entry) else UInt32.ofNat entry

/-- Where in `FatCache` the load of a lookup starts. -/
def loadOffset (L : Layer) (cluster : UInt32) (s : St) : ℕ :=
  (fatIndex s.fat.fatType cluster - (nextCluster L cluster s).2.fat.fatCachePosition * 512).toNat

/-- **The lookup is sound**: both bytes of the 16-bit load are in `FatCache`, and the result is the
entry that is on the disk. -/
structure Sound12 (dev : Device) (part : Partition) (cluster : UInt32) (s : St) : Prop where
  first : loadOffset (bootLayer dev part) cluster s < 5 * 512
  second : loadOffset (bootLayer dev part) cluster s + 1 < 5 * 512
  link : (nextCluster (bootLayer dev part) cluster s).1 =
    extended12 (entry12 (tableByte dev part s.fat) cluster.toNat)

/-! ### The entry on the disk -/

section Entry

variable {b : ℕ → UInt8} {cluster : UInt32}

/-- The 16-bit load, as a number. -/
lemma load_toNat : (le16 (b 0) (b 1)).toUInt32.toNat = (b 0).toNat + 256 * (b 1).toNat := by
  have h0 := (b 0).toNat_lt
  have h1 := (b 1).toNat_lt
  rw [UInt16.toNat_toUInt32, le16, UInt16.toNat_ofNat']
  omega

lemma half_toNat (b : ℕ → UInt8) (cluster : UInt32) :
    (if cluster % 2 = 0 then (le16 (b 0) (b 1)).toUInt32 &&& 0x0FFF
      else (le16 (b 0) (b 1)).toUInt32 >>> 4).toNat =
    if cluster.toNat % 2 = 0 then ((b 0).toNat + 256 * (b 1).toNat) % 4096
      else ((b 0).toNat + 256 * (b 1).toNat) / 16 := by
  have hparity : cluster % 2 = 0 ↔ cluster.toNat % 2 = 0 := by
    rw [← UInt32.toNat_inj, UInt32.toNat_mod]
    rfl
  simp only [hparity]
  split
  · rw [UInt32.toNat_and, load_toNat, show (0x0FFF : UInt32).toNat = 2 ^ 12 - 1 from rfl,
      Nat.and_two_pow_sub_one_eq_mod]
  · rw [UInt32.toNat_shiftRight, load_toNat, show (4 : UInt32).toNat % 32 = 4 from rfl,
      Nat.shiftRight_eq_div_pow]

lemma or_ones {next : UInt32} (h : next.toNat < 4096) :
    (if 0xFF8 ≤ next then next ||| 0xFFFFF000 else next) = extended12 next.toNat := by
  have hor : (next ||| 0xFFFFF000).toNat = 0xFFFFF000 + next.toNat := by
    rw [UInt32.toNat_or, show (0xFFFFF000 : UInt32).toNat = 0xFFFFF <<< 12 from rfl, Nat.or_comm,
      ← Nat.shiftLeft_add_eq_or_of_lt (show next.toNat < 2 ^ 12 from h), Nat.shiftLeft_eq]
  unfold extended12
  simp only [UInt32.le_iff_toNat_le, show (0xFF8 : UInt32).toNat = 0xFF8 from rfl]
  split
  · rw [← hor, UInt32.ofNat_toNat]
  · rw [UInt32.ofNat_toNat]

end Entry

section Disk

variable {dev : Device} {part : Partition} {f : FatData} {s : St} {cluster : UInt32}

lemma fatIndex12_toNat (h : cluster < 0x1000) : (fatIndex 12 cluster).toNat = 3 * cluster.toNat / 2 := by
  have hc : cluster.toNat < 4096 := UInt32.lt_iff_toNat_lt.mp h
  rw [fatIndex, if_pos rfl, UInt32.toNat_div, UInt32.toNat_mul, show (3 : UInt32).toNat = 3 from rfl,
    show (2 : UInt32).toNat = 2 from rfl]
  omega

theorem diskLink_entry12 (h12 : f.fatType = 12) (h : cluster < 0x1000) :
    diskLink dev part f cluster = extended12 (entry12 (tableByte dev part f) cluster.toNat) := by
  have hindex := fatIndex12_toNat h
  unfold diskLink decodeLink
  rw [h12, if_pos rfl]
  dsimp only
  have hhalf := half_toNat (fun k => tableByte dev part f ((fatIndex 12 cluster).toNat + k)) cluster
  have hlt := (tableByte dev part f ((fatIndex 12 cluster).toNat + 0)).toNat_lt
  have hlt1 := (tableByte dev part f ((fatIndex 12 cluster).toNat + 1)).toNat_lt
  rw [or_ones (by rw [hhalf]; split <;> omega), hhalf, hindex]
  rfl

/-! ### The lookup -/

lemma Straddles.loadOffset (h : Straddles s.fat cluster) :
    loadOffset (bootLayer dev part) cluster s = 2559 := by
  unfold Fat.loadOffset
  simp only [nextCluster]
  rw [refill_hit (by exact h.1)]
  exact h.2.2

/-- **From a coherent cache, a lookup is sound exactly when its entry does not straddle the end of the
window.** -/
theorem sound12_iff (hrel : dev.Reliable) (hc : Coherent dev part s) (h12 : s.fat.fatType = 12)
    (hcluster : cluster < 0x1000) : Sound12 dev part cluster s ↔ ¬ Straddles s.fat cluster := by
  constructor
  · intro h hs
    have hlast := h.second
    rw [hs.loadOffset] at hlast
    omega
  · intro hs
    have hfinds : Finds dev part s.fat s.clock cluster :=
      ⟨fun _ => by rw [Device.readSectors_of_ok (hrel _ _)], hs⟩
    obtain ⟨hft, -⟩ := nextCluster_volume (bootLayer dev part) cluster s
    have hcovers := nextCluster_covers hc hfinds
    obtain ⟨-, hoffset, hinside⟩ := entry_inside hcovers.hit hcovers.inside
    rw [← hoffset, hft, linkWidth, if_pos (.inl h12)] at hinside
    have hload : loadOffset (bootLayer dev part) cluster s + 2 ≤ 2560 := hinside
    refine ⟨by omega, by omega, ?_⟩
    rw [(nextCluster_found hc hfinds).1, diskLink_entry12 h12 hcluster]

/-- Lookups keep the cache coherent when the reads succeed, whatever they return. -/
lemma lookups_keep (hrel : dev.Reliable) : ∀ (clusters : List UInt32) {s : St},
    Coherent dev part s → s.fat.fatType = 12 →
      Coherent dev part (final (Boot.fatNextCluster dev part) clusters s) ∧
        (final (Boot.fatNextCluster dev part) clusters s).fat.fatType = 12
  | [], _, hc, h12 => ⟨hc, h12⟩
  | cluster :: clusters, s, hc, h12 => by
    have hc' : Coherent dev part (nextCluster (bootLayer dev part) cluster s).2 :=
      (coherent_stable hrel).refill _ _ hc
    have hft := (nextCluster_volume (bootLayer dev part) cluster s).1
    exact lookups_keep hrel clusters hc' (hft.trans h12)

/-- **When `FAT_NextCluster` decodes FAT12.** After a successful `FAT_Initialize` and any lookups,
with a disk whose reads succeed, a lookup loads only bytes of `FatCache` and gives the 12-bit entry that
is on the disk, exactly if the entry does not lie half in the last byte of the window. -/
theorem lookup12_iff (dev : Device) (hrel : dev.Reliable) (part : Partition) (s s' : St)
    (h : Boot.fatInitialize dev part s = (.ok true, s')) (h12 : s'.fat.fatType = 12)
    (earlier : List UInt32) (cluster : UInt32) (hcluster : cluster < 0x1000) :
    Sound12 dev part cluster (final (Boot.fatNextCluster dev part) earlier s') ↔
      ¬ Straddles (final (Boot.fatNextCluster dev part) earlier s').fat cluster := by
  obtain ⟨hc, hft⟩ := lookups_keep hrel earlier (fatInitialize_initialised h).coherent h12
  exact sound12_iff hrel hc hft hcluster

end Disk

/-! ### A volume whose table is longer than the window -/

/-- A FAT12 volume with a table of 12 sectors. -/
def volume12 : Format := { dirEntryCount := 16, totalSectors := 4000, sectorsPerFat := 12 }

/-- A disk with that volume; the entry of cluster 1706 lies in the bytes 2559 and 2560. -/
def disk12 : UInt32 → Sector :=
  diskOf [(0, volume12.bootSector), (1, Bytes.ofList 512 [0xF8, 0xFF, 0xFF, 3, 0xF0, 0xFF]),
    (5, fun i => if i.val = 511 then 0xAB else 0), (6, Bytes.ofList 512 [0x06])]

/-- The state of that volume once it is initialised. -/
def mounted12 : St := mounted (bootLayer (.ofDisk disk12) (hardDiskPartition 0))

lemma volume12_mounts : Boot.fatInitialize (.ofDisk disk12) (hardDiskPartition 0) .start =
    (.ok true, mounted12) :=
  Prod.ext (by decide +kernel) rfl

/-- The first lookup of a cluster is sound. -/
theorem lookup12_first :
    Sound12 (.ofDisk disk12) (hardDiskPartition 0) 1706
        (final (Boot.fatNextCluster (.ofDisk disk12) (hardDiskPartition 0)) [] mounted12) ↔
      ¬ Straddles (final (Boot.fatNextCluster (.ofDisk disk12) (hardDiskPartition 0)) []
        mounted12).fat 1706 :=
  lookup12_iff (.ofDisk disk12) (fun _ _ => rfl) (hardDiskPartition 0) .start mounted12 volume12_mounts
    (by decide +kernel) [] 1706 (by decide)

/-- After the link of cluster 2 the window ends in the middle of the entry of cluster 1706: its value
6AB comes out as 0AB, with the upper bits out of `FatCachePosition`. -/
theorem lookup12_straddles :
    ¬ Sound12 (.ofDisk disk12) (hardDiskPartition 0) 1706
      (final (Boot.fatNextCluster (.ofDisk disk12) (hardDiskPartition 0)) [2] mounted12) ∧
    entry12 (tableByte (.ofDisk disk12) (hardDiskPartition 0) mounted12.fat) 1706 = 0x6AB ∧
    (Boot.fatNextCluster (.ofDisk disk12) (hardDiskPartition 0) 1706
      (final (Boot.fatNextCluster (.ofDisk disk12) (hardDiskPartition 0)) [2] mounted12)).1 = 0x0AB := by
  refine ⟨fun h => ?_, by decide +kernel, by decide +kernel⟩
  have hsecond := h.second
  revert hsecond
  decide +kernel

end ArcOS.Fat
