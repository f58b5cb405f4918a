import ArcOS.Fat.Inside
import Mathlib.Data.Set.Pairwise.Basic
import Mathlib.Order.CompletePartialOrder
import Mathlib.Order.Interval.Set.Disjoint

/-!
The layout of a volume that `FAT_Initialize` computes from a boot sector.

`BootSector.dataFirst` and the numbers beside it are the layout over the natural numbers, for both
layouts; `Computed` says which 32-bit numbers an initialisation leaves, whether it succeeds or not.
Where the data section starts inside the volume the two agree (`NoWrap`), and the areas of the volume
follow one another (`Area.Before.end_le`). No field is looked at before it is used: `startsSafely_iff`
says for which boot sectors nothing goes wrong. The width of the entries is found by another test than
the layout (`laidOut32_iff`).
-/

namespace ArcOS.Fat

open Lib

/-! ### The layout over the natural numbers -/

namespace BootSector

variable (b : BootSector)

/-- The sectors of one table. -/
def tableSectors : ℕ :=
  if b.sectorsPerFat = 0 then b.ebr32SectorsPerFat.toNat else b.sectorsPerFat.toNat

/-- The first sector behind the tables. -/
def tablesEnd : ℕ := b.reservedSectors.toNat + b.tableSectors * b.fatCount.toNat

/-- The sectors of the root directory that lies between the tables and the data. -/
def rootSectors : ℕ :=
  if b.sectorsPerFat = 0 then 0
  else (32 * b.dirEntryCount.toNat + b.bytesPerSector.toNat - 1) / b.bytesPerSector.toNat

/-- The first sector of the data section. -/
def dataFirst : ℕ := b.tablesEnd + b.rootSectors

/-- The first sector of a cluster. -/
def clusterFirst (c : ℕ) : ℕ := b.dataFirst + (c - 2) * b.sectorsPerCluster.toNat

/-- The first sector of the root directory. -/
def rootFirst : ℕ :=
  if b.sectorsPerFat = 0 then b.clusterFirst b.ebr32RootDirectoryCluster.toNat else b.tablesEnd

/-- The number of data clusters. -/
def dataClusters : ℕ := (b.sectorCount - b.dataFirst) / b.sectorsPerCluster.toNat

end BootSector

/-! ### What is computed -/

/-- The numbers an initialisation on a boot sector leaves. -/
structure Computed (b : BootSector) (f : FatData) : Prop where
  bootSector : f.bootSector = b
  sectorsPerFat : f.sectorsPerFat = if BootSector.sectorsPerFat b = 0 then BootSector.ebr32SectorsPerFat b
    else (BootSector.sectorsPerFat b).toUInt32
  totalSectors : f.totalSectors = if BootSector.totalSectors b = 0 then BootSector.largeSectorCount b
    else (BootSector.totalSectors b).toUInt32
  layout : layout f = .ok (f.dataSectionLba, f.rootDirectory.firstCluster)
  rootSize : f.rootDirectory.pub.size = 32 * (BootSector.dirEntryCount b).toUInt32

/-- `Kernel_FAT_Initialize` on the boot sector in memory, or `FAT_Initialize` on the one it reads,
returns. -/
inductive Initialises (L : Layer) (s : St) : BootSector → Except Stop Bool × St → Prop
  | volume : Initialises L s s.fat.bootSector (fatInitializeVolume L s)
  | disk {b : BootSector} (hread : L.readSectors s.clock (L.sectorLba 0) 512 s.fat.bootSector = (true, b)) :
    Initialises L s b (fatInitialize L s)

variable {L : Layer} {s : St} {b : BootSector} {f : FatData} {r : Except Stop Bool × St}

lemma Initialises.eq (h : Initialises L s b r) :
    ∃ t : St, t.fat.bootSector = b ∧ r = fatInitializeVolume L t := by
  cases h with
  | volume => exact ⟨s, rfl, rfl⟩
  | disk hread =>
    refine ⟨{ (L.read (L.sectorLba 0) s.fat.bootSector s).2 with fat := { s.fat with bootSector := b } },
      rfl, ?_⟩
    simp [fatInitialize, Layer.read, hread]

lemma fatInitializeVolume_error {e : Stop} (h : layout (sized s.fat) = .error e) :
    (fatInitializeVolume L s).1 = .error e := by
  simp [fatInitializeVolume, h]

/-- With the layout found, the numbers are kept; the volume is then given up where the root directory
cannot be read or the clusters cannot be counted. -/
lemma fatInitializeVolume_computed {p : UInt32 × UInt32} (h : layout (sized s.fat) = .ok p) :
    Computed s.fat.bootSector (fatInitializeVolume L s).2.fat := by
  have hlayout : layout (sized s.fat) = .ok (p.1, p.2) := h
  simp only [fatInitializeVolume, h, detect]
  split
  · split
    · next heq =>
      split at heq <;> cases heq
      exact ⟨rfl, rfl, rfl, hlayout, rfl⟩
    · next heq =>
      split at heq <;> cases heq
      exact ⟨rfl, rfl, rfl, hlayout, rfl⟩
  · exact ⟨rfl, rfl, rfl, hlayout, rfl⟩

lemma bytesPerSector_eq_zero : (BootSector.bytesPerSector b).toUInt32 = 0 ↔ BootSector.bytesPerSector b = 0 := by
  rw [← UInt32.toNat_inj, UInt16.toNat_toUInt32, ← UInt16.toNat_inj]
  rfl

lemma layout_ok (h : BootSector.sectorsPerFat f.bootSector = 0 ∨ BootSector.bytesPerSector f.bootSector ≠ 0) :
    ∃ p, layout f = .ok p := by
  by_cases hspf : BootSector.sectorsPerFat f.bootSector = 0
  · exact ⟨_, if_pos hspf⟩
  · have hbytes := bytesPerSector_eq_zero.not.mpr (h.resolve_left hspf)
    exact ⟨_, (if_neg hspf).trans (if_neg hbytes)⟩

/-! ### The numbers do not wrap -/

section NoWrap

/-- Where the natural numbers fit, the 32-bit ones are the same: every number that the layout goes
through, those of the data clusters included. -/
structure NoWrap (b : BootSector) (f : FatData) : Prop where
  tables : (f.sectorsPerFat * (BootSector.fatCount b).toUInt32).toNat = b.tableSectors * b.fatCount.toNat
  tablesEnd : (f.reservedSectors + f.sectorsPerFat * (BootSector.fatCount b).toUInt32).toNat = b.tablesEnd
  rootSize : (32 * (BootSector.dirEntryCount b).toUInt32).toNat = 32 * b.dirEntryCount.toNat
  rounded : BootSector.sectorsPerFat b ≠ 0 →
    (32 * (BootSector.dirEntryCount b).toUInt32 + (BootSector.bytesPerSector b).toUInt32 - 1).toNat =
      32 * b.dirEntryCount.toNat + b.bytesPerSector.toNat - 1
  data : f.dataSectionLba.toNat = b.dataFirst
  root : f.rootDirectory.firstCluster.toNat = b.rootFirst
  sectors : f.totalSectors.toNat = b.sectorCount
  rest : f.dataSectionLba ≤ f.totalSectors ∧
    (f.totalSectors - f.dataSectionLba).toNat = b.sectorCount - b.dataFirst
  clusters : ((f.totalSectors - f.dataSectionLba) / f.sectorsPerCluster).toNat = b.dataClusters
  cluster : ∀ c, 2 ≤ c → c < 2 + b.dataClusters →
    (UInt32.ofNat c).toNat = c ∧ (UInt32.ofNat c - 2).toNat = c - 2 ∧
    ((UInt32.ofNat c - 2) * f.sectorsPerCluster).toNat = (c - 2) * b.sectorsPerCluster.toNat ∧
    (f.clusterToLba (UInt32.ofNat c)).toNat = b.clusterFirst c

variable (hc : Computed b f)
include hc

lemma Computed.reservedSectors : f.reservedSectors.toNat = b.reservedSectors.toNat := by
  rw [FatData.reservedSectors, hc.bootSector, UInt16.toNat_toUInt32]

lemma Computed.sectorsPerCluster : f.sectorsPerCluster.toNat = b.sectorsPerCluster.toNat := by
  rw [FatData.sectorsPerCluster, hc.bootSector, UInt8.toNat_toUInt32]

lemma Computed.tableSectors : f.sectorsPerFat.toNat = b.tableSectors := by
  rw [hc.sectorsPerFat, BootSector.tableSectors]
  split_ifs
  · rfl
  · exact UInt16.toNat_toUInt32 _

lemma Computed.sectorCount : f.totalSectors.toNat = b.sectorCount := by
  rw [hc.totalSectors, BootSector.sectorCount]
  split_ifs
  · rfl
  · exact UInt16.toNat_toUInt32 _

lemma Computed.tablesEnd : (f.reservedSectors + f.sectorsPerFat * (BootSector.fatCount b).toUInt32).toNat =
    b.tablesEnd % 2 ^ 32 := by
  rw [UInt32.toNat_add, UInt32.toNat_mul, hc.reservedSectors, hc.tableSectors, UInt8.toNat_toUInt32,
    Nat.add_mod_mod, BootSector.tablesEnd]

lemma Computed.layout32 (h : BootSector.sectorsPerFat b = 0) :
    f.dataSectionLba = f.reservedSectors + f.sectorsPerFat * (BootSector.fatCount b).toUInt32 ∧
    f.rootDirectory.firstCluster = f.clusterToLba (BootSector.ebr32RootDirectoryCluster b) := by
  obtain ⟨hbs, -, -, hlayout, -⟩ := hc
  subst hbs
  rw [ArcOS.Fat.layout, if_pos h] at hlayout
  obtain ⟨hdata, hroot⟩ := Prod.mk.inj (Except.ok.inj hlayout)
  rw [FatData.clusterToLba, ← hdata, ← hroot]
  exact ⟨rfl, rfl⟩

lemma Computed.layout16 (h : BootSector.sectorsPerFat b ≠ 0) :
    BootSector.bytesPerSector b ≠ 0 ∧
    f.dataSectionLba = f.reservedSectors + f.sectorsPerFat * (BootSector.fatCount b).toUInt32 +
      (32 * (BootSector.dirEntryCount b).toUInt32 + (BootSector.bytesPerSector b).toUInt32 - 1) /
        (BootSector.bytesPerSector b).toUInt32 ∧
    f.rootDirectory.firstCluster =
      f.reservedSectors + f.sectorsPerFat * (BootSector.fatCount b).toUInt32 := by
  obtain ⟨hbs, -, -, hlayout, -⟩ := hc
  subst hbs
  rw [ArcOS.Fat.layout, if_neg h] at hlayout
  by_cases hbytes : (BootSector.bytesPerSector f.bootSector).toUInt32 = 0
  · rw [if_pos hbytes] at hlayout
    cases hlayout
  · rw [if_neg hbytes] at hlayout
    obtain ⟨hdata, hroot⟩ := Prod.mk.inj (Except.ok.inj hlayout)
    exact ⟨bytesPerSector_eq_zero.not.mp hbytes, hdata.symm, hroot.symm⟩

omit hc in
lemma rounded_toNat (h : BootSector.bytesPerSector b ≠ 0) :
    (32 * (BootSector.dirEntryCount b).toUInt32 + (BootSector.bytesPerSector b).toUInt32 - 1).toNat =
      32 * b.dirEntryCount.toNat + b.bytesPerSector.toNat - 1 := by
  have hentries := (BootSector.dirEntryCount b).toNat_lt
  have hbytes := (BootSector.bytesPerSector b).toNat_lt
  have hpos : (BootSector.bytesPerSector b).toNat ≠ 0 := fun hzero => h (UInt16.toNat_inj.mp hzero)
  simp only [UInt32.toNat_sub, UInt32.toNat_add, UInt32.toNat_mul, UInt16.toNat_toUInt32,
    UInt32.reduceToNat]
  omega

lemma Computed.data : f.dataSectionLba.toNat = b.dataFirst % 2 ^ 32 := by
  by_cases hspf : BootSector.sectorsPerFat b = 0
  · rw [(hc.layout32 hspf).1, hc.tablesEnd, BootSector.dataFirst, BootSector.rootSectors, if_pos hspf,
      Nat.add_zero]
  · obtain ⟨hbytes, hdata, -⟩ := hc.layout16 hspf
    rw [hdata, UInt32.toNat_add, UInt32.toNat_div, rounded_toNat hbytes, hc.tablesEnd,
      UInt16.toNat_toUInt32, BootSector.dataFirst, BootSector.rootSectors, if_neg hspf, Nat.mod_add_mod]

lemma Computed.cluster {c : UInt32} (h : 2 ≤ c.toNat) :
    (f.clusterToLba c).toNat = b.clusterFirst c.toNat % 2 ^ 32 := by
  have hsub : (c - 2).toNat = c.toNat - 2 := UInt32.toNat_sub_of_le _ _ (UInt32.le_iff_toNat_le.mpr h)
  rw [FatData.clusterToLba, UInt32.toNat_add, UInt32.toNat_mul, hsub, hc.data, hc.sectorsPerCluster,
    BootSector.clusterFirst, Nat.add_mod_mod, Nat.mod_add_mod]

lemma Computed.root (h : BootSector.sectorsPerFat b = 0 → 2 ≤ b.ebr32RootDirectoryCluster.toNat) :
    f.rootDirectory.firstCluster.toNat = b.rootFirst % 2 ^ 32 := by
  rw [BootSector.rootFirst]
  split_ifs with hspf
  · rw [(hc.layout32 hspf).2, hc.cluster (h hspf)]
  · rw [(hc.layout16 hspf).2.2, hc.tablesEnd]

omit hc in
lemma sectorCount_lt (b : BootSector) : b.sectorCount < 2 ^ 32 := by
  have hsmall := (BootSector.totalSectors b).toNat_lt
  rw [BootSector.sectorCount]
  split_ifs
  · exact (BootSector.largeSectorCount b).toNat_lt
  · omega

omit hc in
lemma clusterFirst_le {b : BootSector} (hdata : b.dataFirst ≤ b.sectorCount) {c : ℕ} (hc : 2 ≤ c)
    (hlt : c < 2 + b.dataClusters) : b.clusterFirst c + b.sectorsPerCluster.toNat ≤ b.sectorCount := by
  have hmul : (c - 1) * (BootSector.sectorsPerCluster b).toNat ≤ b.sectorCount - b.dataFirst :=
    (Nat.mul_le_mul_right _ (show c - 1 ≤ b.dataClusters by omega)).trans (Nat.div_mul_le_self _ _)
  have hsplit : (c - 1) * (BootSector.sectorsPerCluster b).toNat =
      (c - 2) * (BootSector.sectorsPerCluster b).toNat + (BootSector.sectorsPerCluster b).toNat := by
    rw [← Nat.succ_mul, show (c - 2).succ = c - 1 by omega]
  rw [BootSector.clusterFirst]
  omega

section Inside

variable (hdata : b.dataFirst ≤ b.sectorCount)
include hdata

lemma Computed.data_eq : f.dataSectionLba.toNat = b.dataFirst := by
  have hcount := sectorCount_lt b
  rw [hc.data, Nat.mod_eq_of_lt (by omega)]

lemma Computed.data_le : f.dataSectionLba ≤ f.totalSectors := by
  rw [UInt32.le_iff_toNat_le, hc.data_eq hdata, hc.sectorCount]
  exact hdata

lemma Computed.rest : (f.totalSectors - f.dataSectionLba).toNat = b.sectorCount - b.dataFirst := by
  rw [UInt32.toNat_sub_of_le _ _ (hc.data_le hdata), hc.data_eq hdata, hc.sectorCount]

lemma Computed.clusters :
    ((f.totalSectors - f.dataSectionLba) / f.sectorsPerCluster).toNat = b.dataClusters := by
  rw [UInt32.toNat_div, hc.rest hdata, hc.sectorsPerCluster, BootSector.dataClusters]

end Inside

theorem Computed.noWrap (hdata : b.dataFirst ≤ b.sectorCount) (hreserved : b.reservedSectors ≠ 0)
    (hroot : BootSector.sectorsPerFat b = 0 →
      2 ≤ b.ebr32RootDirectoryCluster.toNat ∧ b.ebr32RootDirectoryCluster.toNat < 2 + b.dataClusters) :
    NoWrap b f := by
  have hcount := sectorCount_lt b
  have hpos : 0 < (BootSector.reservedSectors b).toNat :=
    Nat.pos_of_ne_zero fun h => hreserved (UInt16.toNat_inj.mp h)
  have htables : b.tablesEnd ≤ b.dataFirst := Nat.le_add_right _ _
  have hproduct : b.tableSectors * (BootSector.fatCount b).toNat ≤ b.tablesEnd := Nat.le_add_left _ _
  have hfirst : (BootSector.reservedSectors b).toNat ≤ b.tablesEnd := Nat.le_add_right _ _
  have hclusters : b.dataClusters ≤ b.sectorCount - b.dataFirst := Nat.div_le_self _ _
  constructor
  case tables =>
    rw [UInt32.toNat_mul, hc.tableSectors, UInt8.toNat_toUInt32, Nat.mod_eq_of_lt (by omega)]
  case tablesEnd => rw [hc.tablesEnd, Nat.mod_eq_of_lt (by omega)]
  case rootSize =>
    have hentries := (BootSector.dirEntryCount b).toNat_lt
    rw [UInt32.toNat_mul, UInt16.toNat_toUInt32]
    exact Nat.mod_eq_of_lt (by simp only [UInt32.reduceToNat]; omega)
  case rounded => exact fun hspf => rounded_toNat (hc.layout16 hspf).1
  case data => exact hc.data_eq hdata
  case root =>
    rw [hc.root fun hspf => (hroot hspf).1]
    refine Nat.mod_eq_of_lt ?_
    rw [BootSector.rootFirst]
    split_ifs with hspf
    · have hin := clusterFirst_le hdata (hroot hspf).1 (hroot hspf).2
      omega
    · omega
  case sectors => exact hc.sectorCount
  case rest => exact ⟨hc.data_le hdata, hc.rest hdata⟩
  case clusters => exact hc.clusters hdata
  case cluster =>
    intro c h2 hlt
    have hin := clusterFirst_le hdata h2 hlt
    have hnat : (UInt32.ofNat c).toNat = c := UInt32.toNat_ofNat_of_lt' (show c < 2 ^ 32 by omega)
    have hsub : (UInt32.ofNat c - 2).toNat = c - 2 := by
      rw [UInt32.toNat_sub_of_le _ _ (by rw [UInt32.le_iff_toNat_le, hnat]; exact h2), hnat]
      rfl
    have hcluster := hc.cluster (show 2 ≤ (UInt32.ofNat c).toNat from hnat.symm ▸ h2)
    have hstart : (c - 2) * (BootSector.sectorsPerCluster b).toNat ≤ b.clusterFirst c :=
      Nat.le_add_left _ _
    rw [hnat, Nat.mod_eq_of_lt (by omega)] at hcluster
    refine ⟨hnat, hsub, ?_, hcluster⟩
    rw [UInt32.toNat_mul, hsub, hc.sectorsPerCluster, Nat.mod_eq_of_lt (by omega)]

end NoWrap

/-! ### The areas of a volume -/

/-- An area of a volume: the reserved sectors, one of the tables, the root directory of the FAT12 and
FAT16 layout, a data cluster. -/
inductive Area where
  | reserved
  | table (k : ℕ)
  | root
  | cluster (c : ℕ)

namespace Area

/-- The volume has the area. -/
def Of (b : BootSector) : Area → Prop
  | reserved => True
  | table k => k < b.fatCount.toNat
  | root => b.sectorsPerFat ≠ 0
  | cluster c => 2 ≤ c ∧ c < 2 + b.dataClusters

/-- The first sector of an area, as the layer finds it. -/
def first (f : FatData) : Area → ℕ
  | reserved => 0
  | table k => f.reservedSectors.toNat + k * f.sectorsPerFat.toNat
  | root => f.rootDirectory.firstCluster.toNat
  | cluster c => (f.clusterToLba (UInt32.ofNat c)).toNat

/-- The number of its sectors. The root directory has the sectors its size in bytes needs. -/
def count (f : FatData) : Area → ℕ
  | reserved => f.reservedSectors.toNat
  | table _ => f.sectorsPerFat.toNat
  | root => (f.rootDirectory.pub.size.toNat + 511) / 512
  | cluster _ => f.sectorsPerCluster.toNat

/-- The sectors of an area. -/
def sectors (f : FatData) (a : Area) : Set ℕ := Set.Ico (a.first f) (a.first f + a.count f)

/-- The order of the areas on the volume. -/
def Before : Area → Area → Prop
  | reserved, a => a ≠ reserved
  | table j, table k => j < k
  | table _, root => True
  | table _, cluster _ => True
  | root, cluster _ => True
  | cluster c, cluster d => c < d
  | _, _ => False

lemma before_or_before {a a' : Area} (h : a ≠ a') : a.Before a' ∨ a'.Before a := by
  cases a <;> cases a' <;> simp_all [Before]

end Area

/-- A boot sector whose numbers are those of a volume: sectors of 512 bytes, none of the sizes zero, and
the data section inside the volume, over the natural numbers. -/
structure Plausible (b : BootSector) : Prop where
  bytesPerSector : b.bytesPerSector = 512
  sectorsPerCluster : 1 ≤ b.sectorsPerCluster
  fatCount : 1 ≤ b.fatCount
  reservedSectors : 1 ≤ b.reservedSectors
  data : b.dataFirst ≤ b.sectorCount
  root : b.sectorsPerFat = 0 →
    2 ≤ b.ebr32RootDirectoryCluster.toNat ∧ b.ebr32RootDirectoryCluster.toNat < 2 + b.dataClusters

/-- The areas of the volume lie beside each other, inside the volume, and no number on the way to them
wraps. -/
structure SoundLayout (b : BootSector) (f : FatData) : Prop where
  disjoint : Set.PairwiseDisjoint {a : Area | a.Of b} fun a => a.sectors f
  inside : ∀ a : Area, a.Of b → a.sectors f ⊆ Set.Iio b.sectorCount
  noWrap : NoWrap b f

section Areas

variable (hp : Plausible b) (hc : Computed b f)
include hp hc

lemma Plausible.noWrap : NoWrap b f := by
  refine hc.noWrap hp.data (fun hzero => ?_) hp.root
  have hreserved := hp.reservedSectors
  rw [hzero] at hreserved
  exact absurd hreserved (by decide)

/-- The root directory of the FAT12 and FAT16 layout has the sectors in front of the data section. -/
lemma Plausible.root_count (h : BootSector.sectorsPerFat b ≠ 0) : Area.root.count f = b.rootSectors := by
  have hbytes : (BootSector.bytesPerSector b).toNat = 512 := congrArg UInt16.toNat hp.bytesPerSector
  rw [Area.count, hc.rootSize, (hp.noWrap hc).rootSize, BootSector.rootSectors, if_neg h, hbytes]
  rfl

lemma Plausible.first_eq {a : Area} (ha : a.Of b) : a.first f = match a with
    | .reserved => 0
    | .table k => b.reservedSectors.toNat + k * b.tableSectors
    | .root => b.tablesEnd
    | .cluster c => b.clusterFirst c := by
  have hn := hp.noWrap hc
  cases a with
  | reserved => rfl
  | table k => simp only [Area.first, hc.reservedSectors, hc.tableSectors]
  | root =>
    simp only [Area.first, hn.root, BootSector.rootFirst]
    exact if_neg ha
  | cluster c => exact (hn.cluster c ha.1 ha.2).2.2.2

lemma Plausible.table_le {j k : ℕ} (hjk : j < k) (hk : k ≤ (BootSector.fatCount b).toNat) :
    (Area.table j).first f + (Area.table j).count f ≤ b.reservedSectors.toNat + k * b.tableSectors ∧
    b.reservedSectors.toNat + k * b.tableSectors ≤ b.tablesEnd := by
  have hj : (Area.table j).Of b := show j < _ by omega
  have hmul : (j + 1) * b.tableSectors ≤ k * b.tableSectors := Nat.mul_le_mul_right _ hjk
  have hall : k * b.tableSectors ≤ (BootSector.fatCount b).toNat * b.tableSectors := Nat.mul_le_mul_right _ hk
  rw [hp.first_eq hc hj, Area.count, hc.tableSectors, BootSector.tablesEnd, Nat.mul_comm b.tableSectors]
  rw [Nat.succ_mul] at hmul
  dsimp only
  omega

theorem Area.Before.end_le {a a' : Area} (h : a.Before a') (ha : a.Of b) (ha' : a'.Of b) :
    a.first f + a.count f ≤ a'.first f := by
  have hn := hp.noWrap hc
  have htables : b.tablesEnd ≤ b.dataFirst := Nat.le_add_right _ _
  have hreserved : (BootSector.reservedSectors b).toNat ≤ b.tablesEnd := Nat.le_add_right _ _
  have hdata : ∀ c, b.dataFirst ≤ b.clusterFirst c := fun c => Nat.le_add_right _ _
  cases a with
  | reserved =>
    rw [hp.first_eq hc ha, hp.first_eq hc ha', Area.count, hc.reservedSectors]
    cases a' with
    | reserved => exact absurd rfl h
    | table k => dsimp only; omega
    | root => dsimp only; omega
    | cluster c =>
      have := hdata c
      dsimp only
      omega
  | table j =>
    cases a' with
    | reserved => exact absurd h id
    | table k =>
      rw [hp.first_eq hc ha']
      exact (hp.table_le hc h (Nat.le_of_lt ha')).1
    | root =>
      rw [hp.first_eq hc ha']
      have hlast := hp.table_le hc ha le_rfl
      exact hlast.1.trans hlast.2
    | cluster c =>
      rw [hp.first_eq hc ha']
      have hlast := hp.table_le hc ha le_rfl
      exact hlast.1.trans (hlast.2.trans (htables.trans (hdata c)))
  | root =>
    cases a' with
    | cluster c =>
      rw [hp.first_eq hc ha, hp.first_eq hc ha', hp.root_count hc ha]
      exact hdata c
    | reserved => exact absurd h id
    | table k => exact absurd h id
    | root => exact absurd h id
  | cluster c =>
    cases a' with
    | cluster d =>
      have hsplit : (c - 2 + 1) * (BootSector.sectorsPerCluster b).toNat ≤
          (d - 2) * (BootSector.sectorsPerCluster b).toNat :=
        Nat.mul_le_mul_right _ (by have := ha.1; have : c < d := h; omega)
      rw [Nat.succ_mul] at hsplit
      rw [hp.first_eq hc ha, hp.first_eq hc ha', Area.count, hc.sectorsPerCluster]
      simp only [BootSector.clusterFirst]
      omega
    | reserved => exact absurd h id
    | table k => exact absurd h id
    | root => exact absurd h id

lemma Plausible.end_le {a : Area} (ha : a.Of b) : a.first f + a.count f ≤ b.sectorCount := by
  have hdata := hp.data
  have htables : b.tablesEnd ≤ b.dataFirst := Nat.le_add_right _ _
  cases a with
  | reserved =>
    have hreserved : (BootSector.reservedSectors b).toNat ≤ b.tablesEnd := Nat.le_add_right _ _
    rw [hp.first_eq hc ha, Area.count, hc.reservedSectors]
    dsimp only
    omega
  | table j =>
    have hlast := hp.table_le hc ha le_rfl
    omega
  | root =>
    rw [hp.first_eq hc ha, hp.root_count hc ha]
    exact hdata
  | cluster c =>
    rw [hp.first_eq hc ha, Area.count, hc.sectorsPerCluster]
    exact clusterFirst_le hdata ha.1 ha.2

end Areas

/-- **The volume layout is sound.** Whatever the disk does behind the boot sector, an initialisation on a
boot sector whose data section starts inside the volume leaves a layout whose areas are disjoint and
inside the volume, and computes none of its numbers with a wraparound. -/
theorem layout_sound (L : Layer) (s : St) (b : BootSector) (r : Except Stop Bool × St)
    (hinit : Initialises L s b r) (hp : Plausible b) : SoundLayout b r.2.fat := by
  obtain ⟨t, rfl, rfl⟩ := hinit.eq
  obtain ⟨p, hlayout⟩ : ∃ p, layout (sized t.fat) = .ok p := by
    refine layout_ok (Or.inr ?_)
    show BootSector.bytesPerSector t.fat.bootSector ≠ 0
    rw [hp.bytesPerSector]
    decide
  have hc := fatInitializeVolume_computed (L := L) hlayout
  refine ⟨?_, ?_, hp.noWrap hc⟩
  · intro a ha a' ha' hne
    show Disjoint (a.sectors _) (a'.sectors _)
    rw [Area.sectors, Area.sectors, Set.Ico_disjoint_Ico]
    rcases Area.before_or_before hne with h | h
    · exact (min_le_left _ _).trans ((h.end_le hp hc ha ha').trans (le_max_right _ _))
    · exact (min_le_right _ _).trans ((h.end_le hp hc ha' ha).trans (le_max_left _ _))
  · intro a ha i hi
    exact lt_of_lt_of_le hi.2 (hp.end_le hc ha)

theorem layout_sound_small : SoundLayout smallVolume.bootSector (fatInitialize smallLayer .start).2.fat :=
  layout_sound smallLayer .start smallVolume.bootSector _
    (.disk (Prod.ext rfl (Device.window_sector (.ofDisk smallDisk) 0)))
    ⟨by decide +kernel, by decide +kernel, by decide +kernel, by decide +kernel, by decide +kernel,
      fun h => absurd h (by decide +kernel)⟩

/-! ### Which boot sectors are safe -/

/-- The state agrees with the boot sector: the data section and the root directory are where it puts them,
and a cluster is as long. The boot sector counts in sectors of its own size and the layer in sectors of 512
bytes, so the places are compared in bytes, over the natural numbers. The width of the table entries, which
the number of clusters decides, agrees but for a small volume with the FAT32 layout. -/
structure Consistent (b : BootSector) (f : FatData) : Prop where
  data : f.dataSectionLba.toNat * 512 = b.dataFirst * b.bytesPerSector.toNat
  root : f.rootDirectory.firstCluster.toNat * 512 = b.rootFirst * b.bytesPerSector.toNat
  cluster : f.sectorsPerCluster.toNat * 512 = b.sectorsPerCluster.toNat * b.bytesPerSector.toNat
  rootCluster : b.sectorsPerFat = 0 → 2 ≤ b.ebr32RootDirectoryCluster.toNat
  fatType : b.sectorsPerFat ≠ 0 ∨ 0xFF5 ≤ b.dataClusters →
    f.fatType = if b.dataClusters < 0xFF5 then 12 else if b.sectorsPerFat ≠ 0 then 16 else 32

/-- How an initialisation may end: with false, or with true, a difference that has not wrapped and a
consistent state. It does not stop at a division by zero. -/
def StartsSafely (b : BootSector) : Except Stop Bool × St → Prop
  | (.ok true, s) => s.fat.dataSectionLba ≤ s.fat.totalSectors ∧ Consistent b s.fat
  | (.ok false, _) => True
  | (.error _, _) => False

/-- A boot sector with sectors of 512 bytes and clusters of at least one of them, whose data section starts
inside the volume, and whose root directory is a cluster with a sector number of 32 bits. -/
structure Usable (b : BootSector) : Prop where
  sectorsPerCluster : b.sectorsPerCluster ≠ 0
  bytesPerSector : b.bytesPerSector = 512
  data : b.dataFirst ≤ b.sectorCount
  root : b.sectorsPerFat = 0 → 2 ≤ b.ebr32RootDirectoryCluster.toNat ∧
    b.clusterFirst b.ebr32RootDirectoryCluster.toNat < 2 ^ 32

lemma fatInitializeVolume_result {p : UInt32 × UInt32} (h : layout (sized s.fat) = .ok p) :
    (fatInitializeVolume L s).1 =
      if (L.readSectors s.clock (L.sectorLba p.2) 512 s.fat.rootDirectory.buffer).1 = true then
        if (BootSector.sectorsPerCluster s.fat.bootSector).toUInt32 = 0 then .error .divideByZero
        else .ok true
      else .ok false := by
  simp only [fatInitializeVolume, h, detect]
  split
  · next hread =>
    refine Eq.trans ?_ (if_pos hread).symm
    split
    · next heq =>
      split at heq
      · next hzero =>
        cases heq
        exact (if_pos hzero).symm
      · cases heq
    · next heq =>
      split at heq
      · cases heq
      · next hzero => exact (if_neg hzero).symm
  · next hread => exact (if_neg hread).symm

lemma StartsSafely.eq_true (h : r.1 = .ok true) :
    StartsSafely b r ↔ r.2.fat.dataSectionLba ≤ r.2.fat.totalSectors ∧ Consistent b r.2.fat := by
  obtain ⟨v, t⟩ := r
  subst h
  rfl

lemma StartsSafely.error {e : Stop} (h : r.1 = .error e) : ¬ StartsSafely b r := by
  obtain ⟨v, t⟩ := r
  subst h
  exact id

lemma Computed.bytesPerSector (hc : Computed b f) (hspc : BootSector.sectorsPerCluster b ≠ 0)
    (h : f.sectorsPerCluster.toNat * 512 = b.sectorsPerCluster.toNat * b.bytesPerSector.toNat) :
    BootSector.bytesPerSector b = 512 := by
  have hpos : 0 < (BootSector.sectorsPerCluster b).toNat :=
    Nat.pos_of_ne_zero fun hzero => hspc (UInt8.toNat_inj.mp hzero)
  rw [hc.sectorsPerCluster] at h
  exact UInt16.toNat_inj.mp (Nat.eq_of_mul_eq_mul_left hpos h).symm

/-- After an initialisation that succeeds, the state is consistent where the boot sector is usable. -/
lemma consistent_iff (hc : Computed b f) (hspc : BootSector.sectorsPerCluster b ≠ 0)
    (hft : f.fatType = if (f.totalSectors - f.dataSectionLba) / f.sectorsPerCluster < 0xFF5
      then 12 else if BootSector.sectorsPerFat b ≠ 0 then 16 else 32) :
    f.dataSectionLba ≤ f.totalSectors ∧ Consistent b f ↔ Usable b := by
  constructor
  · rintro ⟨hle, hdata, hroot, hcluster, hrootCluster, -⟩
    have hbytes := hc.bytesPerSector hspc hcluster
    have h512 : (BootSector.bytesPerSector b).toNat = 512 := congrArg UInt16.toNat hbytes
    rw [h512] at hdata hroot
    rw [UInt32.le_iff_toNat_le, Nat.eq_of_mul_eq_mul_right (by decide) hdata, hc.sectorCount] at hle
    refine ⟨hspc, hbytes, hle, fun h => ⟨hrootCluster h, ?_⟩⟩
    rw [BootSector.rootFirst, if_pos h] at hroot
    rw [← Nat.eq_of_mul_eq_mul_right (by decide) hroot]
    exact f.rootDirectory.firstCluster.toNat_lt
  · rintro ⟨-, hbytes, hdata, hroot⟩
    have h512 : (BootSector.bytesPerSector b).toNat = 512 := congrArg UInt16.toNat hbytes
    refine ⟨hc.data_le hdata, ?_, ?_, ?_, fun h => (hroot h).1, fun _ => ?_⟩
    · rw [hc.data_eq hdata, h512]
    · rw [hc.root fun h => (hroot h).1, h512]
      refine congrArg (· * 512) (Nat.mod_eq_of_lt ?_)
      rw [BootSector.rootFirst]
      split_ifs with h
      · exact (hroot h).2
      · have hcount := sectorCount_lt b
        have htables : b.tablesEnd ≤ b.dataFirst := Nat.le_add_right _ _
        omega
    · rw [hc.sectorsPerCluster, h512]
    · have hlt : (f.totalSectors - f.dataSectionLba) / f.sectorsPerCluster < 0xFF5 ↔
          b.dataClusters < 0xFF5 := by
        rw [UInt32.lt_iff_toNat_lt, hc.clusters hdata]
        rfl
      rw [hft, if_congr hlt rfl rfl]

/-- **Which boot sectors are safe to start on.** No field of the boot sector is validated. With the reads
succeeding, an initialisation of either layer neither divides by zero nor counts the clusters from a
wrapped difference, and leaves a consistent state, if and only if the boot sector is usable. -/
theorem startsSafely_iff (L : Layer) (s : St) (b : BootSector) (r : Except Stop Bool × St)
    (hread : ∀ clock lba n buf, (L.readSectors clock lba n buf).1 = true) (hinit : Initialises L s b r) :
    StartsSafely b r ↔ Usable b := by
  obtain ⟨t, rfl, rfl⟩ := hinit.eq
  cases hlayout : layout (sized t.fat) with
  | error e =>
    refine iff_of_false (StartsSafely.error (fatInitializeVolume_error hlayout)) fun hu => ?_
    obtain ⟨p, hp⟩ : ∃ p, layout (sized t.fat) = .ok p :=
      layout_ok (Or.inr fun hzero => absurd (hu.bytesPerSector.symm.trans hzero) (by decide))
    rw [hlayout] at hp
    cases hp
  | ok p =>
    have hresult := fatInitializeVolume_result (L := L) hlayout
    rw [if_pos (hread _ _ _ _)] at hresult
    have hc := fatInitializeVolume_computed (L := L) hlayout
    by_cases hzero : (BootSector.sectorsPerCluster t.fat.bootSector).toUInt32 = 0
    · rw [if_pos hzero] at hresult
      refine iff_of_false (StartsSafely.error hresult) fun hu => hu.sectorsPerCluster ?_
      exact UInt8.toNat_inj.mp ((UInt8.toNat_toUInt32 _).symm.trans (congrArg UInt32.toNat hzero))
    · rw [if_neg hzero] at hresult
      obtain ⟨-, -, hft⟩ := fatInitializeVolume_sizes (Prod.ext hresult rfl)
      rw [hc.bootSector] at hft
      rw [StartsSafely.eq_true hresult]
      exact consistent_iff hc (fun h => hzero (h ▸ rfl)) hft

theorem startsSafely_iff_small :
    StartsSafely smallVolume.bootSector (fatInitialize smallLayer .start) ↔ Usable smallVolume.bootSector :=
  startsSafely_iff smallLayer .start smallVolume.bootSector _ (fun _ _ _ _ => rfl)
    (.disk (Prod.ext rfl (Device.window_sector (.ofDisk smallDisk) 0)))

/-- A volume of two sectors whose data section would start at sector 3. -/
def crampedVolume : Format := { dirEntryCount := 16, totalSectors := 2, sectorsPerFat := 1 }

/-- On a boot sector of zeros the clusters are counted by a division by zero. On a volume too small for
its tables the difference wraps. -/
theorem fatInitialize_unsafe :
    (Boot.fatInitialize (.ofDisk fun _ _ => 0) (hardDiskPartition 0) .start).1 = .error .divideByZero ∧
    ¬ StartsSafely (fun _ => 0) (Boot.fatInitialize (.ofDisk fun _ _ => 0) (hardDiskPartition 0) .start) ∧
    (Boot.fatInitialize (.ofDisk (diskOf [(0, crampedVolume.bootSector)])) (hardDiskPartition 0) .start).1 =
      .ok true ∧
    ¬ StartsSafely crampedVolume.bootSector
      (Boot.fatInitialize (.ofDisk (diskOf [(0, crampedVolume.bootSector)])) (hardDiskPartition 0) .start) := by
  have hzero : (Boot.fatInitialize (.ofDisk fun _ _ => 0) (hardDiskPartition 0) .start).1 =
      .error .divideByZero := by decide +kernel
  have hcramped : (Boot.fatInitialize (.ofDisk (diskOf [(0, crampedVolume.bootSector)]))
      (hardDiskPartition 0) .start).1 = .ok true := by decide +kernel
  refine ⟨hzero, StartsSafely.error hzero, hcramped, fun h => ?_⟩
  have hle := ((StartsSafely.eq_true hcramped).mp h).1
  revert hle
  decide +kernel

/-! ### The layout and the width of the entries -/

/-- The volume is laid out as FAT32: there is no 16-bit table size, and the root directory is where its
cluster is. -/
def LaidOut32 (f : FatData) : Prop :=
  BootSector.sectorsPerFat f.bootSector = 0 ∧
    f.rootDirectory.firstCluster = f.clusterToLba (BootSector.ebr32RootDirectoryCluster f.bootSector)

/-- The number of clusters behind the tables of the FAT32 layout, in 32 bits. -/
def BootSector.clusters32 (b : BootSector) : UInt32 :=
  ((if b.totalSectors = 0 then b.largeSectorCount else b.totalSectors.toUInt32) -
    (b.reservedSectors.toUInt32 + b.ebr32SectorsPerFat * b.fatCount.toUInt32)) / b.sectorsPerCluster.toUInt32

lemma Initialises.computed {s' : St} (h : Initialises L s b (.ok true, s')) :
    Computed b s'.fat ∧ s'.fat.fatType = if (s'.fat.totalSectors - s'.fat.dataSectionLba) /
      s'.fat.sectorsPerCluster < 0xFF5 then 12 else if BootSector.sectorsPerFat b ≠ 0 then 16 else 32 := by
  obtain ⟨t, rfl, ht⟩ := h.eq
  have hc : Computed t.fat.bootSector s'.fat := by
    cases hlayout : layout (sized t.fat) with
    | error e =>
      have herror := fatInitializeVolume_error (L := L) hlayout
      rw [← ht] at herror
      cases herror
    | ok p =>
      have hc := fatInitializeVolume_computed (L := L) hlayout
      rwa [← ht] at hc
  obtain ⟨-, -, hft⟩ := fatInitializeVolume_sizes ht.symm
  rw [hc.bootSector] at hft
  exact ⟨hc, hft⟩

/-- With the FAT32 layout the clusters counted are those behind the tables. -/
lemma Computed.clusters32 (hc : Computed b f) (h : BootSector.sectorsPerFat b = 0) :
    (f.totalSectors - f.dataSectionLba) / f.sectorsPerCluster = b.clusters32 := by
  rw [(hc.layout32 h).1, hc.totalSectors, hc.sectorsPerFat, if_pos h, FatData.sectorsPerCluster,
    FatData.reservedSectors, hc.bootSector, BootSector.clusters32]

/-- **When the layout and the entry width agree.** After an initialisation that returns true, the table is
decoded in entries of 32 bits exactly for a volume laid out as FAT32, if and only if the volume is not
laid out so or has 0xFF5 clusters at least. -/
theorem laidOut32_iff (L : Layer) (s s' : St) (b : BootSector) (hinit : Initialises L s b (.ok true, s')) :
    (s'.fat.fatType = 32 ↔ LaidOut32 s'.fat) ↔ b.sectorsPerFat ≠ 0 ∨ 0xFF5 ≤ b.clusters32 := by
  obtain ⟨hc, hft⟩ := hinit.computed
  by_cases hspf : BootSector.sectorsPerFat b = 0
  · have hlaid : LaidOut32 s'.fat := by
      rw [LaidOut32, hc.bootSector]
      exact ⟨hspf, (hc.layout32 hspf).2⟩
    rw [hc.clusters32 hspf] at hft
    rw [iff_true_right hlaid, hft, or_iff_right (not_not.mpr hspf)]
    by_cases hlt : b.clusters32 < 0xFF5
    · rw [if_pos hlt]
      exact iff_of_false (by decide) (UInt32.not_le.mpr hlt)
    · rw [if_neg hlt, if_neg (not_not.mpr hspf)]
      exact iff_of_true rfl (UInt32.not_lt.mp hlt)
  · have hlaid : ¬ LaidOut32 s'.fat := by
      rw [LaidOut32, hc.bootSector]
      exact fun h => hspf h.1
    refine iff_of_true ((iff_false_right hlaid).mpr ?_) (Or.inl hspf)
    rw [hft, if_pos hspf]
    split_ifs <;> decide

/-- The boot sector of a FAT32 volume of 100 sectors. -/
def tinyBootSector : BootSector :=
  let b := { dirEntryCount := 0, totalSectors := 100, sectorsPerFat := 0 : Format }.bootSector
  (b.write 36 (bytes32 1)).write 44 (bytes32 2)

/-- The bootloader's layer on that volume. -/
def tinyLayer : Layer := bootLayer (.ofDisk (diskOf [(0, tinyBootSector)])) (hardDiskPartition 0)

theorem laidOut32_iff_tiny :
    ((mounted tinyLayer).fat.fatType = 32 ↔ LaidOut32 (mounted tinyLayer).fat) ↔
      tinyBootSector.sectorsPerFat ≠ 0 ∨ 0xFF5 ≤ tinyBootSector.clusters32 :=
  laidOut32_iff tinyLayer .start (mounted tinyLayer) tinyBootSector (by
    have hmounts : fatInitialize tinyLayer .start = (.ok true, mounted tinyLayer) :=
      Prod.ext (by decide +kernel) rfl
    rw [← hmounts]
    exact .disk (Prod.ext rfl (Device.window_sector (.ofDisk (diskOf [(0, tinyBootSector)])) 0)))

/-- The volume has 98 clusters: it is laid out as FAT32, and its table is decoded in entries of 12 bits. -/
theorem tiny_decoded12 :
    fatInitialize tinyLayer .start = (.ok true, mounted tinyLayer) ∧ LaidOut32 (mounted tinyLayer).fat ∧
      (mounted tinyLayer).fat.fatType = 12 ∧
      ¬ ((mounted tinyLayer).fat.fatType = 32 ↔ LaidOut32 (mounted tinyLayer).fat) := by
  have hlaid : LaidOut32 (mounted tinyLayer).fat := ⟨by decide +kernel, by decide +kernel⟩
  have hft : (mounted tinyLayer).fat.fatType = 12 := by decide +kernel
  refine ⟨Prod.ext (by decide +kernel) rfl, hlaid, hft, fun h => ?_⟩
  have h32 := h.mpr hlaid
  rw [hft] at h32
  exact absurd h32 (by decide)

/-! ### The boot sector in memory -/

lemma layout_congr {g : FatData} (hboot : g.bootSector = f.bootSector)
    (hsectors : g.sectorsPerFat = f.sectorsPerFat) : Fat.layout g = Fat.layout f := by
  simp only [Fat.layout, FatData.reservedSectors, FatData.sectorsPerCluster, hboot, hsectors]

/-- **An initialisation on the boot sector of a mounted volume** mounts the same volume, in whatever state the
layer is and over whichever disk routine, if this one can read the root directory. -/
theorem fatInitializeVolume_again {L' : Layer} {t u : St} (h : fatInitializeVolume L s = (.ok true, t))
    (hboot : u.fat.bootSector = t.fat.bootSector)
    (hread : ∀ clock lba n (buf : Bytes n), (L'.readSectors clock lba n buf).1 = true) :
    ∃ t', fatInitializeVolume L' u = (.ok true, t') ∧ SameVolume t.fat t'.fat := by
  have hinit := fatInitializeVolume_initialised h
  obtain ⟨hsectors, htotal, htype⟩ := fatInitializeVolume_sizes h
  have hlayout : Fat.layout (sized u.fat) = .ok (t.fat.dataSectionLba, t.fat.rootDirectory.firstCluster) := by
    refine (layout_congr (g := sized u.fat) hboot ?_).trans hinit.layout
    rw [hsectors]
    simp only [sized, hboot]
  have hok : (fatInitializeVolume L' u).1 = .ok true := by
    rw [fatInitializeVolume_result hlayout, if_pos (hread _ _ _ _), hboot]
    exact if_neg hinit.sectorsPerCluster
  have hrun : fatInitializeVolume L' u = (.ok true, (fatInitializeVolume L' u).2) := Prod.ext hok rfl
  obtain ⟨hsectors', htotal', htype'⟩ := fatInitializeVolume_sizes hrun
  have hboot' := (fatInitializeVolume_bootSector hrun).trans hboot
  have hsame : Fat.layout (fatInitializeVolume L' u).2.fat = Fat.layout t.fat := by
    refine layout_congr hboot' ?_
    rw [hsectors, hsectors']
    simp only [sized, hboot']
  rw [(fatInitializeVolume_initialised hrun).layout, hinit.layout] at hsame
  obtain ⟨hdata, -⟩ := Prod.mk.inj (Except.ok.inj hsame)
  have htotals : (fatInitializeVolume L' u).2.fat.totalSectors = t.fat.totalSectors := by
    rw [htotal, htotal']
    simp only [sized, hboot']
  refine ⟨_, hrun, hboot', hdata, ?_⟩
  rw [htype, htype', hdata, htotals, FatData.sectorsPerCluster, FatData.sectorsPerCluster, hboot']

end ArcOS.Fat
