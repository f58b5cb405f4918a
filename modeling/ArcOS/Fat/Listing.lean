import ArcOS.Fat.RootHandle

/-!
What `FAT_ReadDirectory` shows of a directory.

A directory at its start is a source of its records, the root directory as well as a subdirectory
(`AtStart.traverses`). So the loop shows the first seven of them, and the handle is given back
(`readDirectory_shows`).
-/

namespace ArcOS.Fat

open Lib Lib.Search

variable {dev : Device} {part : Partition} {f : FatData} {first : UInt32} {i : Fin 10} {s t : St} {p : Loc}
  {records l : List DirectoryEntry}

/-! ### Directories as sources -/

section Sources

variable (dev part f first i) in
/-- Slot `i` is at record `k` of a walk, or behind its end. -/
def WalkAt (k : ℕ) (s : St) : Prop :=
  (¬ Over dev part f first k → Reading dev part f first i k s) ∧ (Over dev part f first k → Ended i s)

lemma WalkAt.note {k : ℕ} (h : WalkAt dev part f first i k s) (e : Event) :
    WalkAt dev part f first i k (s.note e) := by
  refine ⟨fun hover => ?_, h.2⟩
  obtain ⟨hplace, hpub, hbuffer⟩ := h.1 hover
  exact ⟨hplace.note e, hpub, hbuffer⟩

lemma Reading.walkAt (h : Reading dev part f first i 0 s) : WalkAt dev part f first i 0 s := by
  refine ⟨fun _ => h, ?_⟩
  rintro ⟨n, hn, hend⟩
  obtain rfl : n = 0 := by omega
  exact absurd rfl hend.2

theorem walk_traverses (hrel : dev.Reliable) (h : ∀ k ≤ l.length, dirAnswers dev part f first k = l[k]?) :
    Traverses (readEntry (bootLayer dev part) (some (.slot i))) l (WalkAt dev part f first i) := by
  intro k s hk hat
  have hanswer := h k hk
  by_cases hover : Over dev part f first k
  · rw [dirAnswers, if_pos hover] at hanswer
    have hend : min (k + 1) l.length = k := by
      have := List.getElem?_eq_none_iff.mp hanswer.symm
      omega
    rw [(hat.2 hover).readEntry, ← hanswer, hend]
    exact ⟨rfl, hat⟩
  · rw [dirAnswers, if_neg hover] at hanswer
    have hlt : k < l.length := by
      by_contra hge
      rw [List.getElem?_eq_none (by omega)] at hanswer
      cases hanswer
    obtain ⟨hres, hend, hnext, -⟩ := readEntry_reading hrel (hat.1 hover)
    rw [Nat.min_eq_left hlt, ← hanswer]
    refine ⟨hres, fun hne => hnext fun hl => ?_, fun ho => hend ?_⟩
    · exact hne ((over_succ k).mpr (.inr hl))
    · exact ((over_succ k).mp ho).resolve_left hover

/-- **A directory at its start is a source of its records**, whatever is printed in between. -/
theorem AtStart.traverses (hrel : dev.Reliable) (hft : s.fat.fatType = 12 ∨ s.fat.fatType = 16)
    (h : AtStart dev part p records s) : ∃ I : ℕ → St → Prop,
      Traverses (readEntry (bootLayer dev part) (some p)) records I ∧ I 0 s ∧
        ∀ k t e, I k t → I k (t.note e) := by
  cases h with
  | root hcount hat =>
    refine ⟨fun k t => Holding (partitionSectors dev part) s.fat 0 k t.fat.rootDirectory, ?_, ?_,
      fun _ _ _ ht => ht⟩
    · rw [← heldEntries_zero]
      exact holding_traverses (bootLayer_steady hrel part) hcount 0
    · exact ⟨hat.pub, rfl, hat.cluster, hat.buffer⟩
  | subdirectory entry chain hr hdir hsize hopen hchain hn hu =>
    obtain ⟨i, rfl, hreading⟩ := openEntry_reading (hr.coherent hrel) hdir hsize hopen
    rw [hreading.place.volume.fatType] at hft
    have hmod := chainLength_mod hft hr.sectorsPerCluster hchain hn
    have hshows := (hchain.walks hu hr.sectorsPerCluster hmod).toShowsChain
    exact ⟨_, walk_traverses hrel (answers_iff.mpr hshows), hreading.walkAt, fun _ _ e ht => ht.note e⟩

end Sources

/-! ### `FAT_ReadDirectory` -/

lemma openPath_quiet {L : Layer} (hok : ∀ clock lba n (buf : Bytes n), (L.readSectors clock lba n buf).1 = true)
    {fuel : ℕ} {path : List UInt8} {name : NameBuffer} (h : openPath L fuel path name s = (.ok (some p), t)) :
    Logged Quiet s t := by
  cases p with
  | root =>
    rw [openPath_root (stripSlash_of_root h)] at h
    cases h
    exact .refl s
  | slot i => exact (openPath_handed hok h).1

lemma listing_sameSlots {L : Layer} (hn : Named t) (hb : Balanced s (some p) t) (left : ℕ) :
    (close (some p) (listLoop L (some p) left t).2).1 = .ok () ∧
      SameSlots s (close (some p) (listLoop L (some p) left t).2).2 := by
  cases p with
  | root =>
    obtain ⟨hn', hslots⟩ :
        Named (listLoop L (some .root) left t).2 ∧ SameSlots s (listLoop L (some .root) left t).2 :=
      (((named_stable L).mono fun _ _ => trivial).and (SameSlots.stable L s)).listLoop
        (fun u hu loc hloc => by rw [hu.1.deref_root] at hloc; cases hloc; rfl) left t ⟨hn, hb⟩
    rw [close_root hn'.deref_root]
    exact ⟨rfl, hslots.of_openedFiles rfl⟩
  | slot i =>
    obtain ⟨hn', hone⟩ : Named (listLoop L (some (.slot i)) left t).2 ∧
        OneMore s i (listLoop L (some (.slot i)) left t).2 :=
      (((named_stable L).mono fun _ _ => trivial).and (OneMore.stable L s i)).listLoop
        (fun u hu loc hloc => by rw [hu.1.deref_slot hu.2.opened] at hloc; cases hloc; rfl) left t ⟨hn, hb.1⟩
    rw [close_slot (hn'.deref_slot hone.opened)]
    exact ⟨rfl, hone.close⟩

lemma readDirectory_handed (hrel : dev.Reliable) (hr : Reachable (bootLayer dev part) s)
    (hft : s.fat.fatType = 12 ∨ s.fat.fatType = 16) {fuel : ℕ} {path : List UInt8} {name : NameBuffer}
    (ho : openPath (bootLayer dev part) fuel path name s = (.ok (some p), t))
    (hstart : AtStart dev part p records t) :
    let r := readDirectory (bootLayer dev part) fuel path name s
    r.1 = .ok () ∧ SameSlots s r.2 ∧ Shows s r.2 (listing records) := by
  have hL := bootLayer_steady hrel part
  have hvolume := (SameVolume.stable (bootLayer dev part) s.fat).openPath fuel path name (.refl _)
  rw [ho] at hvolume
  obtain ⟨hn, hb⟩ := openPath_balanced hr.named ho
  obtain ⟨I, htraverses, h0, hnote⟩ := hstart.traverses hrel (by rw [hvolume.fatType]; exact hft)
  obtain ⟨hok, -, hshows⟩ := listLoop_shows hL.ok htraverses hnote 7 0 (t.note (.printf "\n")) (Nat.zero_le _)
    (hnote 0 t _ h0)
  have hbalanced : Balanced s (some p) (t.note (.printf "\n")) :=
    match p, hb with
    | .root, hb => ⟨hb.flags, hb.frame⟩
    | .slot _, hb => ⟨⟨hb.1.closed, hb.1.opened, hb.1.flags, hb.1.frame⟩, hb.2⟩
  obtain ⟨hclosed, hslots⟩ := listing_sameSlots (L := bootLayer dev part) (t := t.note (.printf "\n"))
    ⟨hn.root, hn.slot⟩ hbalanced 7
  intro r
  rw [show r = _ from readDirectory_closes ho hok]
  refine ⟨hclosed, hslots, ?_⟩
  exact ((Shows.of_quiet (openPath_quiet hL.ok ho)).trans
    ((Shows.note (.printf "\n") t).trans hshows)).of_log (close_log _ _)

/-- **What `FAT_ReadDirectory` shows**: for a path that leads to a directory at its start, the names of its first
seven records, whatever they stand for, each on a line of its own. The slots are as before. -/
theorem readDirectory_shows (dev : Device) (hrel : dev.Reliable) (part : Partition) (s : St)
    (hr : Reachable (bootLayer dev part) s) (hft : s.fat.fatType = 12 ∨ s.fat.fatType = 16) {fuel : ℕ}
    {path : List UInt8} {name : NameBuffer} {p : Loc}
    (hopen : (Boot.fatOpen dev part fuel path name s).1 = .ok (some p)) (records : List DirectoryEntry)
    (hstart : AtStart dev part p records (Boot.fatOpen dev part fuel path name s).2) :
    let r := Boot.fatReadDirectory dev part fuel path name s
    r.1 = .ok () ∧ SameSlots s r.2 ∧ Shows s r.2 (listing records) :=
  readDirectory_handed hrel hr hft (Prod.ext hopen rfl) hstart

/-- The root directory of the small volume: `A`, `B`, and five records that stand for nothing. -/
theorem readDirectory_shows_small :
    Shows (mounted smallLayer) (readDirectory smallLayer 20 [47] blankName (mounted smallLayer)).2
      ([10, 32, 32, 65] ++ List.replicate 10 32 ++ [13, 10] ++ [32, 32, 66] ++ List.replicate 10 32 ++ [13, 10] ++
        (List.replicate 5 ([32, 32] ++ List.replicate 11 0 ++ [13, 10])).flatten) := by
  have hroot : openPath smallLayer 20 [47] blankName (mounted smallLayer) =
      (.ok (some .root), mounted smallLayer) := openPath_root (by decide)
  have hlisting : listing (rootEntries (.ofDisk smallDisk) (hardDiskPartition 0) (mounted smallLayer).fat) =
      [10, 32, 32, 65] ++ List.replicate 10 32 ++ [13, 10] ++ [32, 32, 66] ++ List.replicate 10 32 ++ [13, 10] ++
        (List.replicate 5 ([32, 32] ++ List.replicate 11 0 ++ [13, 10])).flatten := by
    decide +kernel
  rw [← hlisting]
  exact (readDirectory_shows (.ofDisk smallDisk) (fun _ _ => rfl) (hardDiskPartition 0) (mounted smallLayer)
    (mounted_reachable smallLayer_mounts) (.inr (by decide +kernel)) (by rw [Boot.fatOpen, ← smallLayer, hroot]) _
    (by rw [Boot.fatOpen, ← smallLayer, hroot]; exact smallLayer_atStart)).2.2

end ArcOS.Fat
