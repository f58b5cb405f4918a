import ArcOS.Fat.Chains
import ArcOS.Fat.TwoRun
import ArcOS.Kernel.CatPath

/-!
Searching a directory.

The loop of `FAT_FindFile` is a search through what `FAT_ReadEntry` hands out (`findLoop_search`). A
directory with a size ends with it. One of size 0 ends only where the walk over the disk comes to an end
mark, or where the name is found (`findFile_ends_iff`).
-/

namespace ArcOS.Fat

open Lib Lib.Search

section Search

variable {L : Layer} {loc : Loc} {s : St}

lemma findLoop_search (L : Layer) (file : Option Loc) (short : Bytes 12) : ∀ (fuel : ℕ) (s : St),
    findLoop L file short fuel s = search (readEntry L file) (nameMatches short) .outOfFuel fuel s
  | 0, _ => rfl
  | fuel + 1, s => by
    rw [findLoop, search]
    rcases readEntry L file s with ⟨e | _ | entry, s'⟩
    · rfl
    · rfl
    · dsimp only
      rw [findLoop_search L file short fuel s']

/-! ### Directories that have a size -/

/-- The handle names its own record, which has a size and stands inside it. -/
structure Sized (loc : Loc) (s : St) : Prop where
  deref : s.fat.deref (some loc) = .ok loc
  size : (s.fat.fd loc).pub.size ≠ 0
  inside : (s.fat.fd loc).pub.position.toNat ≤ (s.fat.fd loc).pub.size.toNat

/-- Every entry of a directory with a size leaves less of it. -/
lemma readEntry_sized (h : Sized loc s) : ∃ r, (readEntry L (some loc) s).1 = .ok r ∧
    (r.isSome → Sized loc (readEntry L (some loc) s).2 ∧
      ((readEntry L (some loc) s).2.fat.fd loc).pub.size.toNat -
          ((readEntry L (some loc) s).2.fat.fd loc).pub.position.toNat <
        (s.fat.fd loc).pub.size.toNat - (s.fat.fd loc).pub.position.toNat) := by
  have hcap := cappedCount_eq 32 (.inr h.size) h.inside
  have hin := h.inside
  have hspec : Delivered (s.fat.fd loc) (cappedCount (s.fat.fd loc).pub 32)
      (readLoop L loc (cappedCount (s.fat.fd loc).pub 32).toNat (cappedCount (s.fat.fd loc).pub 32) s).1
      ((readLoop L loc (cappedCount (s.fat.fd loc).pub 32).toNat
        (cappedCount (s.fat.fd loc).pub 32) s).2.fat.fd loc) :=
    readLoop_spec _ _ s le_rfl (by omega)
  obtain ⟨⟨count, stored, hres, -, -, hpos⟩, hinside, hshrinks, hkeeps⟩ := hspec
  have hread : read L (some loc) 32 s = readLoop L loc (cappedCount (s.fat.fd loc).pub 32).toNat
      (cappedCount (s.fat.fd loc).pub 32) s := by
    unfold read
    rw [h.deref]
  unfold readEntry
  rw [hread]
  dsimp only
  rw [hres]
  refine ⟨_, rfl, fun hsome => ?_⟩
  dsimp only at hsome ⊢
  split at hsome
  · next h32 =>
    rw [h32, show (32 : UInt32).toNat = 32 from rfl] at hpos
    refine ⟨⟨(deref_keeps hkeeps).trans h.deref, fun h0 => ?_, hinside⟩, by omega⟩
    rw [h0, show (0 : UInt32).toNat = 0 from rfl] at hinside
    omega
  · cases hsome

/-- **The search of a directory with a size ends.** -/
theorem findFile_sized (h : Sized loc s) (name : List UInt8) : ∃ fuel r,
    (findFile L fuel (some loc) name s).1 = .ok r := by
  refine ⟨(s.fat.fd loc).pub.size.toNat - (s.fat.fd loc).pub.position.toNat + 1, ?_⟩
  rw [findFile_eq, findLoop_search]
  exact search_measure (P := Sized loc) (fun t => (t.fat.fd loc).pub.size.toNat -
    (t.fat.fd loc).pub.position.toNat) (fun t ht => readEntry_sized ht) _ s h (Nat.lt_succ_self _)

end Search

/-! ### When a search ends -/

variable {dev : Device} {part : Partition} {f : FatData} {first : UInt32} {i : Fin 10} {s : St}

lemma reading_ends_iff (hrel : dev.Reliable) (h : Reading dev part f first i 0 s) (name : List UInt8) :
    (∃ fuel, (findFile (bootLayer dev part) fuel (some (.slot i)) name s).1 ≠ .error .outOfFuel) ↔
      (∃ n, EndsAt dev part f first n) ∨
        ∃ k, nameMatches (getShortName name) (walkEntry dev part f first k) = true := by
  simp only [findFile_eq, findLoop_search]
  rw [search_ends_iff (directory_streams hrel h)]
  constructor
  · rintro ⟨k, hk⟩
    by_cases hover : Over dev part f first k
    · exact .inl (hover.imp fun n hn => hn.2)
    · exact .inr ⟨k, hk _ (if_neg hover)⟩
  · rintro (⟨n, hend⟩ | ⟨k, hk⟩)
    · refine ⟨16 * n, fun x hx => ?_⟩
      rw [dirAnswers, if_pos ⟨n, by omega, hend⟩] at hx
      cases hx
    · refine ⟨k, fun x hx => ?_⟩
      unfold dirAnswers at hx
      split at hx
      · cases hx
      · cases hx
        exact hk

/-- **When the search of a directory ends.** With a disk whose reads succeed, the loop of `FAT_FindFile` on a
directory that was just opened ends exactly if the directory has a size, or the walk from its first
cluster comes to an end mark, or it comes to an entry with the name. -/
theorem findFile_ends_iff (dev : Device) (hrel : dev.Reliable) (part : Partition) (s s' : St)
    (hr : Reachable (bootLayer dev part) s) (entry : DirectoryEntry)
    (hdir : entry.attributes &&& attributeDirectory ≠ 0) (p : Loc)
    (hopen : Boot.fatOpenEntry dev part entry s = (some p, s')) (name : List UInt8) :
    (∃ fuel, (Boot.fatFindFile dev part fuel (some p) name s').1 ≠ .error .outOfFuel) ↔
      entry.size ≠ 0 ∨ (∃ n, EndsAt dev part s.fat entry.firstCluster n) ∨
        ∃ k, nameMatches (getShortName name) (walkEntry dev part s.fat entry.firstCluster k) = true := by
  by_cases hsize : entry.size = 0
  · obtain ⟨i, rfl, hreading⟩ := openEntry_reading (hr.coherent hrel) hdir hsize hopen
    rw [reading_ends_iff hrel hreading name]
    simp only [hsize, ne_eq, not_true_eq_false, false_or]
  · obtain ⟨i, rfl, -, -, rfl⟩ := openEntry_some hopen
    refine iff_of_true ?_ (.inl hsize)
    have hsized : Sized (.slot i) { fat := s.fat.setFd (.slot i) (openedRecord (bootLayer dev part) entry i s)
                                    clock := s.clock + 1
                                    log := .diskRead ((bootLayer dev part).sectorLba
                                      (s.fat.clusterToLba entry.firstCluster)) 1 :: s.log } := by
      refine ⟨deref_of_handle ?_, ?_, ?_⟩
      · rw [← FatData.fd_slot, FatData.fd_setFd]
        rfl
      · rw [FatData.fd_setFd]
        exact hsize
      · rw [FatData.fd_setFd]
        exact Nat.zero_le _
    obtain ⟨fuel, r, hres⟩ := findFile_sized (L := bootLayer dev part) hsized name
    exact ⟨fuel, by rw [hres]; simp⟩

/-- The state of the small volume with the directory `A` open. -/
def openedA : St := (openEntry smallLayer entryA (mounted smallLayer)).2

theorem findFile_ends_small :
    (∃ fuel, (Boot.fatFindFile (.ofDisk smallDisk) (hardDiskPartition 0) fuel (some (.slot 0)) [66, 0]
        openedA).1 ≠ .error .outOfFuel) ↔
      entryA.size ≠ 0 ∨
        (∃ n, EndsAt (.ofDisk smallDisk) (hardDiskPartition 0) (mounted smallLayer).fat
          entryA.firstCluster n) ∨
        ∃ k, nameMatches (getShortName [66, 0]) (walkEntry (.ofDisk smallDisk) (hardDiskPartition 0)
          (mounted smallLayer).fat entryA.firstCluster k) = true :=
  findFile_ends_iff (.ofDisk smallDisk) (fun _ _ => rfl) (hardDiskPartition 0) (mounted smallLayer) openedA
    (mounted_reachable smallLayer_mounts) entryA (by decide) (.slot 0)
    (Prod.ext (by decide +kernel) rfl) [66, 0]

/-! ### A directory whose cluster is linked to itself -/

/-- The disk with the small volume, the entry of cluster 4 of whose table is 4. -/
def cyclicDisk : UInt32 → Sector :=
  diskOf [(0, smallVolume.bootSector), (1, Bytes.ofList 512 [0xF8, 0xFF, 0xFF, 0xFF, 3, 0, 0xFF, 0xFF, 4, 0]),
    (33, Bytes.ofList 512 (List.ofFn entryA ++ List.ofFn entryB))]

/-- The bootloader's layer on that disk. -/
def cyclicLayer : Layer := bootLayer (.ofDisk cyclicDisk) (hardDiskPartition 0)

/-- The state of that volume with the directory `A` open. -/
def openedCyclic : St := (openEntry cyclicLayer entryA (mounted cyclicLayer)).2

lemma cursorAt_cyclic (n : ℕ) : cursorAt (.ofDisk cyclicDisk) (hardDiskPartition 0)
    (mounted cyclicLayer).fat 4 (n + 1) = ⟨0, 4, 0, 36⟩ := by
  induction n with
  | zero => decide +kernel
  | succ n ih =>
    rw [cursorAt_succ, ih]
    decide +kernel

/-- The search of `B` in the directory `A` goes on for ever. -/
theorem findFile_cyclic :
    openEntry cyclicLayer entryA (mounted cyclicLayer) = (some (.slot 0), openedCyclic) ∧
    ∀ fuel, (Boot.fatFindFile (.ofDisk cyclicDisk) (hardDiskPartition 0) fuel (some (.slot 0)) [66, 0]
      openedCyclic).1 = .error .outOfFuel := by
  have hrel : (Device.ofDisk cyclicDisk).Reliable := fun _ _ => rfl
  have hopen : openEntry cyclicLayer entryA (mounted cyclicLayer) = (some (.slot 0), openedCyclic) :=
    Prod.ext (by decide +kernel) rfl
  have hmounts : Reachable cyclicLayer (mounted cyclicLayer) := mounted_reachable (by decide +kernel)
  obtain ⟨i, hi, hreading⟩ := openEntry_reading (hmounts.coherent hrel) (by decide) (by decide) hopen
  cases hi
  refine ⟨hopen, fun fuel => ?_⟩
  by_contra hends
  have hfirst : entryA.firstCluster = 4 := (dirEntry_fields _ _ _ _).2.1
  rcases (reading_ends_iff hrel hreading [66, 0]).mp ⟨fuel, hends⟩ with ⟨n, hmark, hsize⟩ | ⟨k, hk⟩
  · cases n with
    | zero => exact hsize rfl
    | succ n =>
      rw [hfirst, cursorAt_cyclic] at hmark
      exact absurd hmark (by decide)
  · have hlba : (cursorAt (.ofDisk cyclicDisk) (hardDiskPartition 0) (mounted cyclicLayer).fat 4
        (k / 16)).lba = 36 := by
      cases k / 16 with
      | zero => decide +kernel
      | succ n => rw [cursorAt_cyclic]
    rw [hfirst, walkEntry, hlba] at hk
    have h0 : getShortName [66, 0] 0 = 0 := of_decide_eq_true hk 0
    exact absurd h0 (by decide)

end ArcOS.Fat
