import ArcOS.Fat.State

/-!
Disk images: a boot sector with given parameters, a directory entry, and a disk put together from
sectors. The fields of an entry read back what they were given (`dirEntry_fields`).
-/

namespace ArcOS.Fat

open Lib

/-- The parameters a FAT12 or FAT16 volume is formatted with. -/
structure Format where
  sectorsPerCluster : UInt8 := 1
  reservedSectors : UInt16 := 1
  fatCount : UInt8 := 1
  dirEntryCount : UInt16
  totalSectors : UInt16 := 0
  sectorsPerFat : UInt16
  largeSectorCount : UInt32 := 0

/-- The boot sector of a volume. -/
def Format.bootSector (v : Format) : BootSector :=
  let b : BootSector := fun _ => 0
  let b := (b.write 11 (bytes16 512)).write 13 [v.sectorsPerCluster]
  let b := (b.write 14 (bytes16 v.reservedSectors)).write 16 [v.fatCount]
  let b := (b.write 17 (bytes16 v.dirEntryCount)).write 19 (bytes16 v.totalSectors)
  (b.write 22 (bytes16 v.sectorsPerFat)).write 32 (bytes32 v.largeSectorCount)

/-- A directory entry. -/
def dirEntry (name : List UInt8) (attributes : UInt8) (firstCluster size : UInt32) :
    DirectoryEntry :=
  let e : DirectoryEntry := fun i => if i.val < 11 then name.getD i 32 else 0
  let e := (e.write 11 [attributes]).write 20 (bytes16 (firstCluster >>> 16).toUInt16)
  (e.write 26 (bytes16 firstCluster.toUInt16)).write 28 (bytes32 size)

theorem dirEntry_fields (name : List UInt8) (attributes : UInt8) (firstCluster size : UInt32) :
    (dirEntry name attributes firstCluster size).attributes = attributes ∧
    (dirEntry name attributes firstCluster size).firstCluster = firstCluster ∧
    (dirEntry name attributes firstCluster size).size = size := by
  have hlow : (dirEntry name attributes firstCluster size).firstClusterLow = firstCluster.toUInt16 :=
    le16_bytes _
  have hhigh : (dirEntry name attributes firstCluster size).firstClusterHigh =
      (firstCluster >>> 16).toUInt16 := le16_bytes _
  refine ⟨rfl, ?_, le32_byteOf _⟩
  have hc := firstCluster.toNat_lt
  apply UInt32.toNat_inj.mp
  simp only [DirectoryEntry.firstCluster, hlow, hhigh, UInt32.toNat_add, UInt32.toNat_shiftLeft,
    UInt16.toNat_toUInt32, UInt32.toNat_toUInt16, UInt32.toNat_shiftRight, Nat.shiftLeft_eq,
    Nat.shiftRight_eq_div_pow, show (16 : UInt32).toNat % 32 = 16 from rfl]
  omega

/-- The disk with the given sectors; the others are zero. -/
def diskOf (sectors : List (UInt32 × Sector)) : UInt32 → Sector := fun lba =>
  (sectors.lookup lba).getD fun _ => 0

/-- A FAT16 volume with one sector of root directory, its data section from sector 34 on. -/
def smallVolume : Format := { dirEntryCount := 16, totalSectors := 8192, sectorsPerFat := 32 }

/-- A partition of the first hard disk. -/
def hardDiskPartition (offset : UInt32) : Partition where
  disk := { id := 0x80, cylinders := 0, sectors := 0, heads := 0 }
  partitionOffset := offset
  partitionSize := 8192

end ArcOS.Fat
