import ArcOS.Fat.Files
import ArcOS.Lib.Search

/-!
Reading a directory entry by entry.

`FAT_ReadEntry` on a record whose position is a multiple of 32 hands out an entry of the buffered
sector, and looks ahead behind the last of them (`readEntry_aligned`). A directory that was just opened
and has size 0 is read along a walk over the disk (`DirCursor`), up to the end marks that
`FAT_NextCluster` finds there; `directory_streams` says which entries come out.
-/

namespace ArcOS.Fat

open Lib Lib.Search

/-! ### One entry -/

/-- The entry of a sector that has number `k` in its directory. -/
def entryAt (b : Sector) (k : ℕ) : DirectoryEntry := fun i => b ⟨32 * (k % 16) + i, by omega⟩

lemma entryAt_ext {b b' : Sector} (n : ℕ) (h : ∀ j < 16, entryAt b (16 * n + j) = entryAt b' (16 * n + j)) :
    b = b' := by
  funext i
  have hentry := congrFun (h (i / 32) (by omega)) ⟨i % 32, by omega⟩
  have hi : 32 * ((16 * n + (i : ℕ) / 32) % 16) + (i : ℕ) % 32 = i := by omega
  simpa only [entryAt, hi] using hentry

section Aligned

variable {L : Layer} {p loc : Loc} {s : St} {k : ℕ}

/-- The state once an entry is copied out of the buffer. -/
def copied (loc : Loc) (s : St) : St := (copyChunk loc 32 s).2

lemma copied_fd (loc : Loc) (s : St) : (copied loc s).fat.fd loc = { s.fat.fd loc with
    pub := { (s.fat.fd loc).pub with position := (s.fat.fd loc).pub.position + 32 } } :=
  copyChunk_fd loc s 32

lemma position_mod (h : (s.fat.fd loc).pub.position = UInt32.ofNat (32 * k)) :
    ((s.fat.fd loc).pub.position % 512).toNat = 32 * (k % 16) := by
  rw [h, UInt32.toNat_mod, UInt32.toNat_ofNat', show (512 : UInt32).toNat = 512 from rfl]
  omega

lemma ofNat_succ (k : ℕ) : UInt32.ofNat (32 * k) + 32 = UInt32.ofNat (32 * (k + 1)) := by
  rw [Nat.mul_succ, UInt32.ofNat_add]
  rfl

lemma readLoop_single {n : UInt32} (h0 : 0 < n) (rounds : ℕ) (htake : (readRound L loc n s).take = n) :
    readLoop L loc (rounds + 1) n s =
      (.ok (n, (readRound L loc n s).chunk), (readRound L loc n s).state) := by
  rw [readLoop_succ h0, htake]
  split
  · rw [UInt32.sub_self, readLoop_done (by decide)]
    simp only [Except.map, UInt32.add_zero, List.append_nil]
  · rfl

/-- **`FAT_ReadEntry` at an entry of the buffered sector.** -/
theorem readEntry_aligned (hd : s.fat.deref (some p) = .ok loc)
    (hcap : cappedCount (s.fat.fd loc).pub 32 = 32)
    (hpos : (s.fat.fd loc).pub.position = UInt32.ofNat (32 * k)) :
    readEntry L (some p) s = (.ok (some (entryAt (s.fat.fd loc).buffer k)),
      if k % 16 = 15 then (lookAhead L loc (copied loc s)).2 else copied loc s) := by
  have hmod := position_mod hpos
  have hleft : (leftInBuffer (s.fat.fd loc).pub.position).toNat = 512 - 32 * (k % 16) := by
    rw [leftInBuffer_toNat, ← hmod, UInt32.toNat_mod]
    rfl
  have htake : takeCount 32 (s.fat.fd loc).pub.position = 32 := by
    refine UInt32.toNat_inj.mp ((takeCount_le 32 (s.fat.fd loc).pub.position).2.2.trans ?_)
    rw [leftInBuffer_toNat] at hleft
    rw [hleft, show (32 : UInt32).toNat = 32 from rfl]
    omega
  have hlast : leftInBuffer (s.fat.fd loc).pub.position = 32 ↔ k % 16 = 15 := by
    rw [← UInt32.toNat_inj, hleft, show (32 : UInt32).toNat = 32 from rfl]
    omega
  have hround : readRound L loc 32 s = ⟨32, (s.fat.fd loc).buffer.slice (32 * (k % 16)) 32,
      if k % 16 = 15 then (lookAhead L loc (copied loc s)).1 else true,
      if k % 16 = 15 then (lookAhead L loc (copied loc s)).2 else copied loc s⟩ := by
    unfold readRound copied
    simp only [htake, hlast, copyChunk, memcpy, hmod]
    split <;> rfl
  have hentry : Bytes.ofList 32 ((s.fat.fd loc).buffer.slice (32 * (k % 16)) 32) =
      entryAt (s.fat.fd loc).buffer k := by
    funext i
    simp only [Bytes.ofList, Bytes.slice, entryAt, List.getD_eq_getElem?_getD, List.getElem?_take,
      i.isLt, if_true, List.getElem?_drop]
    rw [List.getElem?_ofFn, dif_pos (by omega)]
    rfl
  unfold readEntry read
  simp only [hd, hcap]
  rw [show (32 : UInt32).toNat = 31 + 1 from rfl, readLoop_single (by decide) 31 (by rw [hround]),
    hround]
  simp only [Except.map, if_true, hentry]

lemma readEntry_end (hd : s.fat.deref (some p) = .ok loc)
    (hcap : cappedCount (s.fat.fd loc).pub 32 = 0) : readEntry L (some p) s = (.ok none, s) := by
  unfold readEntry read
  simp only [hd, hcap]
  rw [readLoop_done (by decide)]
  rfl

lemma lookAhead_root_fd (L : Layer) (loc : Loc) (s : St)
    (hh : (s.fat.fd loc).pub.handle = rootDirectoryHandle) :
    (lookAhead L loc s).2.fat.fd loc = { s.fat.fd loc with
      currentCluster := (s.fat.fd loc).currentCluster + 1
      buffer := (L.readSectors s.clock (L.sectorLba ((s.fat.fd loc).currentCluster + 1)) 512
        (s.fat.fd loc).buffer).2 } := by
  unfold lookAhead
  rw [if_pos hh]
  dsimp only
  rw [fillBuffer_fd, St.setFd_fat, FatData.fd_setFd]
  rfl

end Aligned

/-! ### The window of the table -/

section Window

variable (dev : Device) (part : Partition) (f : FatData)

/-- The state with the window of the table from a sector on in its cache. -/
def FatData.holding (tag : UInt32) : FatData :=
  { f with fatCachePosition := tag, fatCache := dev.window (tableLba part f tag) 2560 }

/-- Where the window is once the link of a cluster is looked up. -/
def windowTag (tag cluster : UInt32) : UInt32 :=
  if ({ f with fatCachePosition := tag }).misses (fatIndex f.fatType cluster / 512) then
    fatIndex f.fatType cluster / 512
  else tag

/-- The link of a cluster that is read off the window. -/
def windowLink (tag cluster : UInt32) : UInt32 :=
  decodeLink f.fatType cluster fun k =>
    (f.holding dev part (windowTag f tag cluster)).cacheByte
      ((fatIndex f.fatType cluster - windowTag f tag cluster * 512).toNat + k)

theorem windowLink_eq (tag cluster : UInt32)
    (h : ¬ Straddles { f with fatCachePosition := tag } cluster) :
    windowLink dev part f tag cluster = diskLink dev part f cluster := by
  have hcovers : Covers dev part (f.holding dev part (windowTag f tag cluster)) cluster := by
    unfold windowTag
    split
    · have hfirst := entry_first (f := f.holding dev part (fatIndex f.fatType cluster / 512)) cluster rfl
      exact ⟨rfl, hfirst.1, hfirst.2⟩
    · next hhit => exact ⟨rfl, Bool.eq_false_of_not_eq_true hhit, h⟩
  exact hcovers.link

variable {dev part f} {s : St}

lemma cacheByte_congr {f f' : FatData} (hcache : f.fatCache = f'.fatCache)
    (htag : f.fatCachePosition = f'.fatCachePosition) : f.cacheByte = f'.cacheByte := by
  funext i
  unfold FatData.cacheByte
  rw [hcache, htag]

/-- After a lookup on a disk whose reads succeed the cache holds its window. -/
lemma nextCluster_holds (hrel : dev.Reliable) (hc : Coherent dev part s) (cluster : UInt32) :
    (nextCluster (bootLayer dev part) cluster s).2.fat.fatCachePosition =
        windowTag s.fat s.fat.fatCachePosition cluster ∧
      (nextCluster (bootLayer dev part) cluster s).2.fat.fatCache =
        dev.window (tableLba part s.fat (windowTag s.fat s.fat.fatCachePosition cluster)) 2560 := by
  have htag : windowTag s.fat s.fat.fatCachePosition cluster =
      if s.fat.misses (fatIndex s.fat.fatType cluster / 512) then
        fatIndex s.fat.fatType cluster / 512 else s.fat.fatCachePosition := rfl
  rw [htag]
  simp only [nextCluster]
  cases hm : s.fat.misses (fatIndex s.fat.fatType cluster / 512) with
  | true =>
    rw [refill_miss (by exact hm), if_pos rfl]
    refine ⟨rfl, ?_⟩
    simp only [bootLayer, Device.readSectors_of_ok (hrel _ _)]
    rfl
  | false =>
    rw [refill_hit (by exact hm), if_neg (by simp)]
    rcases hc with hinv | hcache
    · rw [not_misses_invalid hinv] at hm
      cases hm
    · exact ⟨rfl, hcache⟩

/-- **A lookup on a disk whose reads succeed** reads the link off its window. -/
theorem nextCluster_window (hrel : dev.Reliable) (hv : SameVolume f s.fat) (hc : Coherent dev part s)
    (cluster : UInt32) :
    (nextCluster (bootLayer dev part) cluster s).1 =
        windowLink dev part f s.fat.fatCachePosition cluster ∧
      (nextCluster (bootLayer dev part) cluster s).2.fat.fatCachePosition =
        windowTag f s.fat.fatCachePosition cluster := by
  obtain ⟨htag, hcache⟩ := nextCluster_holds hrel hc cluster
  have hsame : windowTag s.fat s.fat.fatCachePosition cluster =
      windowTag f s.fat.fatCachePosition cluster := by
    unfold windowTag
    rw [hv.fatType]
    rfl
  have hreserved : s.fat.reservedSectors = f.reservedSectors := by
    simp only [FatData.reservedSectors, hv.bootSector]
  rw [hsame] at htag hcache
  refine ⟨?_, htag⟩
  have hbytes : (f.holding dev part (windowTag f s.fat.fatCachePosition cluster)).cacheByte =
      (nextCluster (bootLayer dev part) cluster s).2.fat.cacheByte := by
    refine cacheByte_congr ?_ htag.symm
    rw [hcache, tableLba, hreserved]
    rfl
  have hft := (nextCluster_volume (bootLayer dev part) cluster s).1
  have hoffset : (nextCluster (bootLayer dev part) cluster s).1 =
      decodeLink (nextCluster (bootLayer dev part) cluster s).2.fat.fatType cluster fun k =>
        (nextCluster (bootLayer dev part) cluster s).2.fat.cacheByte ((fatIndex s.fat.fatType cluster -
          (nextCluster (bootLayer dev part) cluster s).2.fat.fatCachePosition * 512).toNat + k) := rfl
  rw [hoffset, hft, htag, ← hbytes, hv.fatType]
  rfl

end Window

/-! ### The walk over the disk -/

/-- Where the reading of a directory stands: the window of the table, the cluster, the sector in it, and
the sector of the partition that is in the buffer. -/
structure DirCursor where
  tag : UInt32
  cluster : UInt32
  sector : UInt32
  lba : UInt32
  deriving DecidableEq

section Walk

variable (dev : Device) (part : Partition) (f : FatData)

namespace DirCursor

/-- The next sector, before it is read. -/
def step (c : DirCursor) : DirCursor :=
  if f.sectorsPerCluster ≤ c.sector + 1 then
    { c with tag := windowTag f c.tag c.cluster
             cluster := windowLink dev part f c.tag c.cluster
             sector := 0 }
  else { c with sector := c.sector + 1 }

/-- The next sector. Where the chain says that it ends, the buffer stays as it is. -/
def next (c : DirCursor) : DirCursor :=
  let c := c.step dev part f
  if 0xFFFFFFF8 ≤ c.cluster then c else { c with lba := f.clusterToLba c.cluster + c.sector }

end DirCursor

/-- Sector `n` of the walk that starts at a cluster. -/
def cursorAt (first : UInt32) (n : ℕ) : DirCursor :=
  (DirCursor.next dev part f)^[n] ⟨f.fatCachePosition, first, 0, f.clusterToLba first⟩

/-- The walk ends at sector `n`: there is an end mark in place of a cluster. At a position of 2^32 or a
multiple of it, which the 32 bits of `Position` show as 0, it is passed over. -/
def EndsAt (first : UInt32) (n : ℕ) : Prop :=
  0xFFFFFFF8 ≤ (cursorAt dev part f first n).cluster ∧ n % 2 ^ 23 ≠ 0

/-- Entry `k` of the walk. -/
def walkEntry (first : UInt32) (k : ℕ) : DirectoryEntry :=
  entryAt (dev.disk ((cursorAt dev part f first (k / 16)).lba + part.partitionOffset)) k

instance (first : UInt32) (n : ℕ) : Decidable (EndsAt dev part f first n) :=
  inferInstanceAs (Decidable (_ ∧ _))

lemma cursorAt_succ (first : UInt32) (n : ℕ) :
    cursorAt dev part f first (n + 1) = (cursorAt dev part f first n).next dev part f :=
  Function.iterate_succ_apply' _ _ _

/-- The record at a place is where the cursor says. -/
structure AtCursor (c : DirCursor) (loc : Loc) (s : St) : Prop where
  volume : SameVolume f s.fat
  cache : Coherent dev part s
  tag : s.fat.fatCachePosition = c.tag
  cluster : (s.fat.fd loc).currentCluster = c.cluster
  sector : (s.fat.fd loc).currentSectorInCluster = c.sector

end Walk

/-- A read of a single sector is of one in `A`. The table is read five sectors at a time. -/
def Event.ReadsIn (A : UInt32 → Prop) : Event → Prop
  | .diskRead lba sectors => sectors = 1 → A lba
  | _ => True

section Walk

variable {dev : Device} {part : Partition} {f : FatData} {c : DirCursor} {loc : Loc} {s : St}

lemma nextCluster_readsIn (L : Layer) (A : UInt32 → Prop) (cluster : UInt32) (s : St) :
    Logged (Event.ReadsIn A) s (nextCluster L cluster s).2 := by
  have hlookup : Logged (Event.ReadsIn A) s (s.note (.nextCluster s.fat s.clock cluster)) :=
    .cons (show Event.ReadsIn A (.nextCluster _ _ _) from trivial) rfl
  simp only [nextCluster]
  unfold refill
  split
  · exact hlookup.trans (.cons (e := .diskRead _ 5) (fun h => by cases h) rfl)
  · exact hlookup

lemma stepCursor_readsIn (L : Layer) (A : UInt32 → Prop) (loc : Loc) (s : St) :
    Logged (Event.ReadsIn A) s (stepCursor L loc s) := by
  unfold stepCursor
  dsimp only
  split
  · exact nextCluster_readsIn L A _ (s.setFd loc _)
  · exact .refl s

lemma AtCursor.note (h : AtCursor dev part f c loc s) (e : Event) : AtCursor dev part f c loc (s.note e) :=
  ⟨h.volume, h.cache, h.tag, h.cluster, h.sector⟩

lemma AtCursor.setFd {c' : DirCursor} {d : FileData} (h : AtCursor dev part f c loc s) (htag : c.tag = c'.tag)
    (hcluster : d.currentCluster = c'.cluster) (hsector : d.currentSectorInCluster = c'.sector) :
    AtCursor dev part f c' loc (s.setFd loc d) := by
  refine ⟨?_, h.cache.setFd, ?_, ?_, ?_⟩
  · cases loc <;> exact ⟨h.volume.1, h.volume.2, h.volume.3⟩
  · rw [St.setFd_fat, FatData.setFd_fatCachePosition, h.tag, htag]
  · rw [St.setFd_fat, FatData.fd_setFd, hcluster]
  · rw [St.setFd_fat, FatData.fd_setFd, hsector]

/-- **The cursor of the record follows the walk.** -/
theorem stepCursor_at (hrel : dev.Reliable) (h : AtCursor dev part f c loc s) :
    AtCursor dev part f (c.step dev part f) loc (stepCursor (bootLayer dev part) loc s) := by
  have hspc := h.volume.sectorsPerCluster
  unfold stepCursor DirCursor.step
  dsimp only
  rw [hspc, h.sector]
  split
  · have h₁ : AtCursor dev part f { c with sector := 0 } loc
        (s.setFd loc { s.fat.fd loc with currentSectorInCluster := 0 }) :=
      h.setFd rfl h.cluster rfl
    obtain ⟨hlink, htag⟩ := nextCluster_window hrel h₁.volume h₁.cache (s.fat.fd loc).currentCluster
    rw [h₁.tag] at hlink htag
    rw [← h.cluster]
    have h₂ : AtCursor dev part f { c with tag := windowTag f c.tag (s.fat.fd loc).currentCluster, sector := 0 } loc
        (nextCluster (bootLayer dev part) (s.fat.fd loc).currentCluster
          (s.setFd loc { s.fat.fd loc with currentSectorInCluster := 0 })).2 := by
      refine ⟨(SameVolume.stable (bootLayer dev part) f).nextCluster _ h₁.volume,
        (coherent_stable hrel).nextCluster _ h₁.cache, htag, ?_, ?_⟩
      · rw [nextCluster_fd]
        exact h₁.cluster
      · rw [nextCluster_fd]
        exact h₁.sector
    exact h₂.setFd rfl hlink rfl
  · exact h.setFd rfl h.cluster rfl

lemma next_cluster (c : DirCursor) :
    (c.next dev part f).cluster = (c.step dev part f).cluster := by
  simp only [DirCursor.next]
  split <;> rfl

lemma fillBuffer_tag {L : Layer} (lba : UInt32) :
    (fillBuffer L loc lba s).2.fat.fatCachePosition = s.fat.fatCachePosition := by
  unfold fillBuffer
  dsimp only
  split <;> cases loc <;> rfl

lemma fillBuffer_log (L : Layer) (loc : Loc) (lba : UInt32) (s : St) :
    ∃ new, (fillBuffer L loc lba s).2.log = new ++ .diskRead (L.sectorLba lba) 1 :: s.log ∧
      ∀ e ∈ new, ∃ text, e = .printf text := by
  unfold fillBuffer
  dsimp only
  split
  · exact ⟨[], rfl, by simp⟩
  · exact ⟨[.printf "FAT: read error\r\n"], rfl, by simp⟩

lemma fillBuffer_readsIn {L : Layer} (A : UInt32 → Prop) (lba : UInt32) :
    Logged (Event.ReadsIn A) s (fillBuffer L loc lba s).2 ↔ A (L.sectorLba lba) := by
  obtain ⟨new, hnew, hprint⟩ := fillBuffer_log L loc lba s
  constructor
  · intro h
    exact h.mem (new ++ [.diskRead (L.sectorLba lba) 1]) (by rw [hnew]; simp)
      (e := .diskRead (L.sectorLba lba) 1) (by simp) rfl
  · intro hA
    refine ⟨new ++ [.diskRead (L.sectorLba lba) 1], by rw [hnew]; simp, fun e he => ?_⟩
    rcases List.mem_append.mp he with he | he
    · obtain ⟨text, rfl⟩ := hprint e he
      exact trivial
    · obtain rfl := List.mem_singleton.mp he
      exact fun _ => hA

/-- **Looking ahead** reads the next sector of the walk, or ends the directory. -/
theorem lookAhead_at (hrel : dev.Reliable) (hh : (s.fat.fd loc).pub.handle ≠ rootDirectoryHandle)
    (h : AtCursor dev part f c loc s) :
    AtCursor dev part f (c.next dev part f) loc (lookAhead (bootLayer dev part) loc s).2 ∧
    (0xFFFFFFF8 ≤ (c.next dev part f).cluster →
      ((lookAhead (bootLayer dev part) loc s).2.fat.fd loc).pub =
          { (s.fat.fd loc).pub with size := (s.fat.fd loc).pub.position } ∧
        ((lookAhead (bootLayer dev part) loc s).2.fat.fd loc).buffer = (s.fat.fd loc).buffer ∧
        (c.next dev part f).lba = c.lba) ∧
    (¬ 0xFFFFFFF8 ≤ (c.next dev part f).cluster →
      ((lookAhead (bootLayer dev part) loc s).2.fat.fd loc).pub = (s.fat.fd loc).pub ∧
        ((lookAhead (bootLayer dev part) loc s).2.fat.fd loc).buffer =
          dev.disk ((c.next dev part f).lba + part.partitionOffset)) ∧
    ∀ A, Logged (Event.ReadsIn A) s (lookAhead (bootLayer dev part) loc s).2 ↔
      (¬ 0xFFFFFFF8 ≤ (c.next dev part f).cluster →
        A ((c.next dev part f).lba + part.partitionOffset)) := by
  have hat := stepCursor_at hrel h
  have hquiet := fun A => stepCursor_readsIn (bootLayer dev part) A loc s
  obtain ⟨cl, k, hfd⟩ := stepCursor_fd (bootLayer dev part) loc s
  have hend : 0xFFFFFFF8 ≤ ((stepCursor (bootLayer dev part) loc s).fat.fd loc).currentCluster ↔
      0xFFFFFFF8 ≤ (c.next dev part f).cluster := by rw [next_cluster, hat.cluster]
  unfold lookAhead
  rw [if_neg hh]
  dsimp only
  simp only [hend]
  generalize hs₁ : stepCursor (bootLayer dev part) loc s = s₁ at *
  by_cases hlast : 0xFFFFFFF8 ≤ (c.next dev part f).cluster
  · have hnext : c.next dev part f = c.step dev part f := by
      rw [next_cluster] at hlast
      simp only [DirCursor.next, if_pos hlast]
    rw [if_pos hlast, St.setFd_fat, FatData.fd_setFd, hfd]
    refine ⟨?_, fun _ => ⟨rfl, rfl, ?_⟩, fun hne => absurd hlast hne, fun A => ⟨fun _ hne =>
      absurd hlast hne, fun _ => hquiet A⟩⟩
    · rw [hnext, ← hfd]
      exact hat.setFd rfl hat.cluster hat.sector
    · rw [hnext]
      unfold DirCursor.step
      split <;> rfl
  · have hnext : c.next dev part f = { c.step dev part f with
        lba := f.clusterToLba (c.step dev part f).cluster + (c.step dev part f).sector } := by
      rw [next_cluster] at hlast
      simp only [DirCursor.next, if_neg hlast]
    have hlba : s₁.fat.clusterToLba (s₁.fat.fd loc).currentCluster +
        (s₁.fat.fd loc).currentSectorInCluster = (c.next dev part f).lba := by
      rw [hat.volume.clusterToLba, hat.cluster, hat.sector, hnext]
    rw [if_neg hlast, hlba]
    have hfill : (fillBuffer (bootLayer dev part) loc (c.next dev part f).lba s₁).2.fat.fd loc =
        { s₁.fat.fd loc with buffer := ((bootLayer dev part).readSectors s₁.clock
            ((bootLayer dev part).sectorLba (c.next dev part f).lba) 512 (s₁.fat.fd loc).buffer).2 } :=
      fillBuffer_fd _
    refine ⟨?_, fun he => absurd he hlast, fun _ => ?_, fun A => ?_⟩
    · refine ⟨(SameVolume.stable (bootLayer dev part) f).fillBuffer trivial _ hat.volume,
        hat.cache.fillBuffer, ?_, ?_, ?_⟩
      · rw [fillBuffer_tag, hat.tag, hnext]
      · rw [hfill, hat.cluster, hnext]
      · rw [hfill, hat.sector, hnext]
    · rw [hfill, hfd]
      refine ⟨rfl, ?_⟩
      simp only [bootLayer, Device.readSectors_of_ok (hrel _ _), Device.window_sector]
    · rw [(hquiet A).iff_of_suffix (fillBuffer_grows (bootLayer dev part) loc s₁ _),
        fillBuffer_readsIn]
      exact ⟨fun hA _ => hA, fun hA => hA hlast⟩

end Walk

/-! ### A directory that is being read -/

section Reading

variable (dev : Device) (part : Partition) (f : FatData) (first : UInt32)

/-- Slot `i` is at entry `k` of the walk. -/
structure Reading (i : Fin 10) (k : ℕ) (s : St) : Prop where
  place : AtCursor dev part f (cursorAt dev part f first (k / 16)) (.slot i) s
  pub : (s.fat.fd (.slot i)).pub =
    { handle := (i : ℕ), isDirectory := true, position := UInt32.ofNat (32 * k), size := 0 }
  buffer : (s.fat.fd (.slot i)).buffer =
    dev.disk ((cursorAt dev part f first (k / 16)).lba + part.partitionOffset)

/-- Slot `i` is a directory that was read to its end. -/
def Ended (i : Fin 10) (s : St) : Prop :=
  ∃ z, z ≠ 0 ∧ (s.fat.fd (.slot i)).pub =
    { handle := (i : ℕ), isDirectory := true, position := z, size := z }

/-- Between the entries `k` and `k + 1` the walk comes to its end. -/
def LastEntry (k : ℕ) : Prop := k % 16 = 15 ∧ EndsAt dev part f first (k / 16 + 1)

/-- The walk has come to its end before entry `k`. -/
def Over (k : ℕ) : Prop := ∃ n, n < k / 16 + 1 ∧ EndsAt dev part f first n

instance (k : ℕ) : Decidable (Over dev part f first k) :=
  inferInstanceAs (Decidable (∃ n, n < k / 16 + 1 ∧ EndsAt dev part f first n))

/-- What reading the walk entry by entry gives. -/
def dirAnswers (k : ℕ) : Option DirectoryEntry :=
  if Over dev part f first k then none else some (walkEntry dev part f first k)

variable {dev part f first} {i : Fin 10} {s : St} {k : ℕ}

lemma Ended.readEntry {L : Layer} (h : Ended i s) : readEntry L (some (.slot i)) s = (.ok none, s) := by
  obtain ⟨z, hz, hpub⟩ := h
  refine readEntry_end (deref_of_handle ?_) ?_
  · rw [← FatData.fd_slot, hpub]
  · rw [hpub]
    simp [cappedCount, hz]

/-- The position behind an entry is 0 again only after 2^32 bytes. -/
lemma position_eq_zero (k : ℕ) (h : k % 16 = 15) :
    UInt32.ofNat (32 * (k + 1)) = 0 ↔ (k / 16 + 1) % 2 ^ 23 = 0 := by
  rw [← UInt32.toNat_inj, UInt32.toNat_ofNat', show (0 : UInt32).toNat = 0 from rfl]
  omega

/-- **One `FAT_ReadEntry` on a directory** hands out the entry at the cursor, and leads to the next entry
of the walk or to its end. -/
theorem readEntry_reading (hrel : dev.Reliable) (h : Reading dev part f first i k s) :
    (readEntry (bootLayer dev part) (some (.slot i)) s).1 = .ok (some (walkEntry dev part f first k)) ∧
    (LastEntry dev part f first k → Ended i (readEntry (bootLayer dev part) (some (.slot i)) s).2) ∧
    (¬ LastEntry dev part f first k →
      Reading dev part f first i (k + 1) (readEntry (bootLayer dev part) (some (.slot i)) s).2) ∧
    ∀ A, Logged (Event.ReadsIn A) s (readEntry (bootLayer dev part) (some (.slot i)) s).2 ↔
      (k % 16 = 15 → ¬ 0xFFFFFFF8 ≤ (cursorAt dev part f first (k / 16 + 1)).cluster →
        A ((cursorAt dev part f first (k / 16 + 1)).lba + part.partitionOffset)) := by
  obtain ⟨hat, hpub, hbuf⟩ := h
  have hderef : s.fat.deref (some (.slot i)) = .ok (.slot i) :=
    deref_of_handle (by rw [← FatData.fd_slot, hpub])
  have hentry := readEntry_aligned (L := bootLayer dev part) (k := k) hderef
    (by rw [hpub]; simp [cappedCount]) (by rw [hpub])
  have hcopied := copied_fd (.slot i) s
  rw [hpub] at hcopied
  dsimp only at hcopied
  rw [ofNat_succ] at hcopied
  have hat' : AtCursor dev part f (cursorAt dev part f first (k / 16)) (.slot i) (copied (.slot i) s) :=
    (hat.note _).setFd rfl hat.cluster hat.sector
  have hquiet : ∀ A, Logged (Event.ReadsIn A) s (copied (.slot i) s) := fun A =>
    .cons (show Event.ReadsIn A (.copy _ _) from trivial) rfl
  rw [hentry, hbuf]
  refine ⟨rfl, ?_⟩
  dsimp only
  by_cases hlast : k % 16 = 15
  · obtain ⟨hnext, hstop, hgo, hlog⟩ := lookAhead_at hrel
      (by rw [hcopied]; simp only [rootDirectoryHandle]; omega) hat'
    have hdiv : (k + 1) / 16 = k / 16 + 1 := by omega
    rw [← cursorAt_succ] at hnext hstop hgo hlog
    rw [if_pos hlast]
    refine ⟨fun hend => ?_, fun hend => ?_, fun A => ?_⟩
    · obtain ⟨hp, -, -⟩ := hstop hend.2.1
      refine ⟨UInt32.ofNat (32 * (k + 1)), fun h0 => hend.2.2 ((position_eq_zero k hlast).mp h0), ?_⟩
      rw [hp, hcopied]
    · by_cases hmark : 0xFFFFFFF8 ≤ (cursorAt dev part f first (k / 16 + 1)).cluster
      · -- an end mark at a position that shows as 0: the size stays 0, the buffer as it was
        have hzero : UInt32.ofNat (32 * (k + 1)) = 0 := by
          by_contra hne
          exact hend ⟨hlast, hmark, fun h0 => hne ((position_eq_zero k hlast).mpr h0)⟩
        obtain ⟨hp, hb, hl⟩ := hstop hmark
        refine ⟨by rw [hdiv]; exact hnext, ?_, ?_⟩
        · rw [hp, hcopied, hzero]
        · rw [hb, hcopied, hdiv, hl, hbuf]
      · obtain ⟨hp, hb⟩ := hgo hmark
        exact ⟨by rw [hdiv]; exact hnext, by rw [hp, hcopied], by rw [hb, hdiv]⟩
    · rw [(hquiet A).iff_of_suffix (lookAhead_grows (bootLayer dev part) _ _), hlog A]
      exact ⟨fun hA _ => hA, fun hA => hA hlast⟩
  · have hdiv : (k + 1) / 16 = k / 16 := by omega
    rw [if_neg hlast]
    refine ⟨fun hend => absurd hend.1 hlast, fun _ => ?_, fun A => ⟨fun _ h => absurd h hlast,
      fun _ => hquiet A⟩⟩
    exact ⟨by rw [hdiv]; exact hat', by rw [hcopied], by rw [hcopied, hdiv, hbuf]⟩

/-! ### Whole directories -/

lemma over_succ (k : ℕ) : Over dev part f first (k + 1) ↔
    Over dev part f first k ∨ LastEntry dev part f first k := by
  constructor
  · rintro ⟨n, hn, hend⟩
    by_cases hk : n < k / 16 + 1
    · exact .inl ⟨n, hk, hend⟩
    · obtain rfl : n = k / 16 + 1 := by omega
      exact .inr ⟨by omega, hend⟩
  · rintro (⟨n, hn, hend⟩ | ⟨hk, hend⟩)
    · exact ⟨n, by omega, hend⟩
    · exact ⟨k / 16 + 1, by omega, hend⟩

lemma reading_after (hrel : dev.Reliable) (h : Reading dev part f first i 0 s) (k : ℕ) :
    (¬ Over dev part f first k →
      Reading dev part f first i k (after (readEntry (bootLayer dev part) (some (.slot i))) k s)) ∧
    (Over dev part f first k →
      Ended i (after (readEntry (bootLayer dev part) (some (.slot i))) k s)) := by
  induction k with
  | zero =>
    refine ⟨fun _ => h, ?_⟩
    rintro ⟨n, hn, hend⟩
    obtain rfl : n = 0 := by omega
    exact absurd rfl hend.2
  | succ k ih =>
    rw [after_succ, over_succ]
    obtain ⟨hgo, hstop⟩ := ih
    by_cases hover : Over dev part f first k
    · refine ⟨fun hne => absurd (.inl hover) hne, fun _ => ?_⟩
      rw [(hstop hover).readEntry]
      exact hstop hover
    · obtain ⟨-, hend, hnext, -⟩ := readEntry_reading hrel (hgo hover)
      exact ⟨fun hne => hnext fun hl => hne (.inr hl), fun ho => hend (ho.resolve_left hover)⟩

/-- **What reading a directory gives**: the entries of the walk, up to its end. -/
theorem directory_streams (hrel : dev.Reliable) (h : Reading dev part f first i 0 s) :
    Streams (readEntry (bootLayer dev part) (some (.slot i))) (dirAnswers dev part f first) s := by
  intro k _
  obtain ⟨hgo, hstop⟩ := reading_after hrel h k
  unfold dirAnswers
  by_cases hover : Over dev part f first k
  · rw [if_pos hover, (hstop hover).readEntry]
  · rw [if_neg hover]
    exact (readEntry_reading hrel (hgo hover)).1

lemma after_readEntry_grows (L : Layer) (file : Option Loc) (s : St) (k : ℕ) :
    s.log <:+ (after (readEntry L file) k s).log := by
  induction k with
  | zero => exact List.suffix_rfl
  | succ k ih =>
    rw [after_succ]
    exact ih.trans (readEntry_grows _ _ _)

/-- **Which sectors are read**: those of the walk, up to its end. -/
theorem directory_reads (hrel : dev.Reliable) (h : Reading dev part f first i 0 s) (A : UInt32 → Prop) :
    (∀ k, Logged (Event.ReadsIn A) s (after (readEntry (bootLayer dev part) (some (.slot i))) k s)) ↔
      ∀ n, ¬ Over dev part f first (16 * n) →
        ¬ 0xFFFFFFF8 ≤ (cursorAt dev part f first (n + 1)).cluster →
        A ((cursorAt dev part f first (n + 1)).lba + part.partitionOffset) := by
  constructor
  · intro hlog n hover hmark
    have hover' : ¬ Over dev part f first (16 * n + 15) := by
      rintro ⟨m, hm, hend⟩
      exact hover ⟨m, by omega, hend⟩
    obtain ⟨-, -, -, hone⟩ := readEntry_reading hrel ((reading_after hrel h (16 * n + 15)).1 hover')
    have hlast := hlog (16 * n + 15 + 1)
    rw [after_succ] at hlast
    have hread := (hlast.split (after_readEntry_grows _ _ s _) (readEntry_grows _ _ _)).2
    have hnew := (hone A).mp hread (by omega)
    rw [show (16 * n + 15) / 16 + 1 = n + 1 by omega] at hnew
    exact hnew hmark
  · intro hA k
    induction k with
    | zero => exact .refl s
    | succ k ih =>
      rw [after_succ]
      obtain ⟨hgo, hstop⟩ := reading_after hrel h k
      by_cases hover : Over dev part f first k
      · rw [(hstop hover).readEntry]
        exact ih
      · obtain ⟨-, -, -, hone⟩ := readEntry_reading hrel (hgo hover)
        refine ih.trans ((hone A).mpr fun hlast hmark => hA (k / 16) ?_ hmark)
        rintro ⟨m, hm, hend⟩
        exact hover ⟨m, by omega, hend⟩

/-- `FAT_OpenEntry` on a directory of size 0 puts a slot at the start of its walk. -/
theorem openEntry_reading {entry : DirectoryEntry} {p : Loc} {s' : St} (hc : Coherent dev part s)
    (hdir : entry.attributes &&& attributeDirectory ≠ 0) (hsize : entry.size = 0)
    (h : openEntry (bootLayer dev part) entry s = (some p, s')) :
    ∃ i, p = .slot i ∧ Reading dev part s.fat entry.firstCluster i 0 s' := by
  obtain ⟨i, rfl, -, hr, rfl⟩ := openEntry_some h
  refine ⟨i, rfl, ⟨⟨rfl, rfl, rfl⟩, hc, rfl, ?_, ?_⟩, ?_, ?_⟩
  all_goals rw [FatData.fd_setFd]
  · rfl
  · rfl
  · simp only [openedRecord, entryRecord, hsize]
    simp [hdir]
  · have hread := readSectors_true dev hr
    rw [Device.window_sector] at hread
    exact hread

end Reading

end ArcOS.Fat
