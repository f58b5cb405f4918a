import ArcOS.Fat.FirstMatch
import ArcOS.Fat.History
import ArcOS.Fat.Show

/-!
What the root handle remembers.

`FAT_Close` rewinds the root directory, but leaves in its buffer the sector that was read last. So all that the
handle keeps of the calls before is the number of a sector (`rootStep`), and this number says what is found
and what is listed from then on (`rootHandle_remembers`). It holds for both layers, as long as the sectors
of the partition can be read and stay as they are (`Steady`).
-/

namespace ArcOS.Fat

open Lib Lib.Search Lib.Transducer

/-! ### Steady layers -/

/-- Every read succeeds, and one sector of the partition is always what `disk` says. -/
structure Steady (L : Layer) (disk : UInt32 → Sector) : Prop where
  ok : ∀ clock lba n (buf : Bytes n), (L.readSectors clock lba n buf).1 = true
  sector : ∀ clock lba (buf : Sector), (L.readSectors clock (L.sectorLba lba) 512 buf).2 = disk lba

/-- The sectors of a partition. -/
def partitionSectors (dev : Device) (part : Partition) (lba : UInt32) : Sector :=
  dev.disk (lba + part.partitionOffset)

theorem bootLayer_steady {dev : Device} (hrel : dev.Reliable) (part : Partition) :
    Steady (bootLayer dev part) (partitionSectors dev part) where
  ok := bootLayer_ok hrel part
  sector clock lba buf := by
    change (dev.readSectors clock (lba + part.partitionOffset) 512 buf).2 = _
    rw [Device.readSectors_of_ok (hrel _ _), Device.window_sector]
    rfl

/-! ### The records behind the handle -/

section Records

variable (disk : UInt32 → Sector) (f : FatData)

/-- Sector `n` of the root directory. -/
def rootRow (n : ℕ) : Sector := disk (f.rootDirectory.firstCluster + UInt32.ofNat n)

/-- The sector in the buffer at record `k`, after a start with sector `m` there. -/
def heldSector (m k : ℕ) : ℕ := if k < 16 then m else k / 16

/-- Record `k` of the root directory as it is read from the start with sector `m` in the buffer: one of `m`
where it should be one of the first sector. -/
def heldRecord (m k : ℕ) : DirectoryEntry := entryAt (rootRow disk f (heldSector m k)) k

/-- All these records. -/
def heldEntries (m : ℕ) : List DirectoryEntry := (List.range (rootCount f)).map (heldRecord disk f m)

/-- The root directory is at record `k`, after a start with sector `m` in its buffer. -/
structure Holding (m k : ℕ) (d : FileData) : Prop where
  pub : d.pub = { handle := rootDirectoryHandle, isDirectory := true, position := UInt32.ofNat (32 * k)
                  size := UInt32.ofNat (32 * rootCount f) }
  first : d.firstCluster = f.rootDirectory.firstCluster
  cluster : d.currentCluster = f.rootDirectory.firstCluster + UInt32.ofNat (k / 16)
  buffer : d.buffer = rootRow disk f (heldSector m k)

variable {disk f} {L : Layer} {m k fuel : ℕ} {s t : St}

@[simp] lemma heldEntries_length : (heldEntries disk f m).length = rootCount f := by
  simp [heldEntries]

/-- With the first sector in the buffer they are the records on the disk. -/
lemma heldEntries_zero (dev : Device) (part : Partition) (f : FatData) :
    heldEntries (partitionSectors dev part) f 0 = rootEntries dev part f := by
  refine List.map_congr_left fun k _ => ?_
  have hk : heldSector 0 k = k / 16 := by
    unfold heldSector
    split <;> omega
  rw [heldRecord, hk]
  rfl

lemma Holding.deref (h : Holding disk f m k s.fat.rootDirectory) : s.fat.deref (some .root) = .ok .root := by
  simp [FatData.deref, FatData.fd_root, h.pub]

lemma Holding.capped (h : Holding disk f m k s.fat.rootDirectory) (hcount : rootCount f ≠ 0)
    (hk : k ≤ rootCount f) : cappedCount (s.fat.fd .root).pub 32 = if k < rootCount f then 32 else 0 :=
  -- the bound is that of a root directory whose sectors are all the one in the buffer
  have hroot : RootAt (.ofDisk fun _ => s.fat.rootDirectory.buffer) (hardDiskPartition 0) f k s :=
    ⟨h.pub, h.cluster, rfl⟩
  cappedCount_root hroot hcount hk

/-- **One `FAT_ReadEntry` on the root handle.** -/
theorem readEntry_holding (hL : Steady L disk) (h : Holding disk f m k s.fat.rootDirectory)
    (hk : k < rootCount f) :
    (readEntry L (some .root) s).1 = .ok (some (heldRecord disk f m k)) ∧
      Holding disk f m (k + 1) (readEntry L (some .root) s).2.fat.rootDirectory := by
  have hentry := readEntry_aligned (L := L) (k := k) h.deref
    (by rw [h.capped (by omega) hk.le, if_pos hk]) (by rw [FatData.fd_root, h.pub])
  have hcopied := copied_fd .root s
  rw [FatData.fd_root, FatData.fd_root, h.pub] at hcopied
  dsimp only at hcopied
  rw [ofNat_succ] at hcopied
  rw [hentry, FatData.fd_root, h.buffer]
  refine ⟨rfl, ?_⟩
  dsimp only
  by_cases hlast : k % 16 = 15
  · have hrow : heldSector m (k + 1) = k / 16 + 1 := by
      rw [heldSector, if_neg (by omega)]
      omega
    have hahead := lookAhead_root_fd L .root (copied .root s) (by rw [FatData.fd_root, hcopied])
    rw [FatData.fd_root, FatData.fd_root, hcopied] at hahead
    dsimp only at hahead
    have hnext : s.fat.rootDirectory.currentCluster + 1 =
        f.rootDirectory.firstCluster + UInt32.ofNat (k / 16 + 1) := by
      rw [h.cluster, UInt32.ofNat_add, UInt32.add_assoc]
      rfl
    rw [if_pos hlast, hahead]
    refine ⟨rfl, h.first, ?_, ?_⟩
    · rw [hnext, show (k + 1) / 16 = k / 16 + 1 by omega]
    · dsimp only
      rw [hL.sector, hnext, hrow]
      rfl
  · have hrow : heldSector m (k + 1) = heldSector m k := by
      unfold heldSector
      split <;> split <;> omega
    rw [if_neg hlast, hcopied]
    refine ⟨rfl, h.first, ?_, ?_⟩
    · rw [h.cluster, show (k + 1) / 16 = k / 16 by omega]
    · rw [h.buffer, hrow]

theorem holding_traverses (hL : Steady L disk) (hcount : rootCount f ≠ 0) (m : ℕ) :
    Traverses (readEntry L (some .root)) (heldEntries disk f m)
      fun k s => Holding disk f m k s.fat.rootDirectory := by
  intro k s hk h
  rw [heldEntries_length] at hk ⊢
  rcases Nat.eq_or_lt_of_le hk with rfl | hlt
  · rw [readEntry_end h.deref (by rw [h.capped hcount le_rfl, if_neg (lt_irrefl _)]),
      List.getElem?_eq_none (by simp), Nat.min_eq_right (Nat.le_succ _)]
    exact ⟨rfl, h⟩
  · obtain ⟨hres, hnext⟩ := readEntry_holding hL h hlt
    rw [Nat.min_eq_left hlt]
    refine ⟨?_, hnext⟩
    rw [hres, heldEntries, List.getElem?_map, List.getElem?_range hlt]
    rfl

/-- **`FAT_Close` rewinds the handle, and leaves the buffer.** -/
theorem close_holding (h : Holding disk f m k s.fat.rootDirectory) :
    Holding disk f (heldSector m k) 0 (close (some .root) s).2.fat.rootDirectory := by
  rw [close_root h.deref]
  refine ⟨?_, h.first, ?_, h.buffer⟩
  · change { s.fat.rootDirectory.pub with position := 0 } = _
    rw [h.pub]
    rfl
  · change s.fat.rootDirectory.firstCluster = _
    rw [h.first]
    exact (UInt32.add_zero _).symm

end Records

/-! ### Calls that leave the root directory alone -/

section Frame

variable {L : Layer} {fuel : ℕ} {i : Fin 10} {s t : St}

theorem root_frame (L : Layer) (d : FileData) : Stable L (· ≠ .root) fun s => s.fat.rootDirectory = d where
  note _ _ _ h := h
  disk _ _ _ _ h := h
  refill sector s h := by
    unfold refill
    split <;> exact h
  setFd loc d' s hA _ h := by
    cases loc with
    | root => exact absurd rfl hA
    | slot i => exact h

theorem Stable.listLoop {A : Loc → Prop} {P : St → Prop} (h : Stable L A P) {file : Option Loc}
    (hA : ∀ s, P s → ∀ loc, s.fat.deref file = .ok loc → A loc) :
    ∀ (left : ℕ) (s : St), P s → P (listLoop L file left s).2 := by
  intro left
  induction left with
  | zero =>
    intro s hs
    have hr := h.readEntry (hA s hs) hs
    rw [Fat.listLoop]
    split <;> next heq => rw [heq] at hr; exact hr
  | succ left ih =>
    intro s hs
    have hr := h.readEntry (hA s hs) hs
    rw [Fat.listLoop]
    split
    · next heq => rw [heq] at hr; exact hr
    · next heq => rw [heq] at hr; exact hr
    · next heq =>
      rw [heq] at hr
      exact ih _ (h.note _ _ trivial (h.putcs _ (h.note _ _ trivial hr)))

theorem Stable.dumpLoop {A : Loc → Prop} {P : St → Prop} (h : Stable L A P) {file : Option Loc}
    (hA : ∀ s, P s → ∀ loc, s.fat.deref file = .ok loc → A loc) :
    ∀ (rounds : ℕ) (s : St), P s → P (dumpLoop L file rounds s).2 := by
  intro rounds
  induction rounds with
  | zero => exact fun _ hs => hs
  | succ rounds ih =>
    intro s hs
    have hr := h.read 100 (hA s hs) hs
    rw [Fat.dumpLoop]
    split
    · next heq => rw [heq] at hr; exact hr
    · next heq =>
      rw [heq] at hr
      split
      · exact hr
      · exact ih _ (h.printChunk _ hr)

/-- What is kept while slot `i` is in use: its handle, and the root directory. -/
def Beside (i : Fin 10) (s t : St) : Prop :=
  Keeps (s.fat.fd (.slot i)) (t.fat.fd (.slot i)) ∧ t.fat.rootDirectory = s.fat.rootDirectory

lemma Beside.refl (i : Fin 10) (s : St) : Beside i s s := ⟨.refl _, rfl⟩

lemma beside_stable (L : Layer) (i : Fin 10) (s : St) : Stable L (· ≠ .root) (Beside i s) :=
  ((keeps_stable L (.slot i) s).mono fun _ _ => trivial).and (root_frame L _)

lemma Beside.deref (h : Beside i s t) (hd : s.fat.deref (some (.slot i)) = .ok (.slot i)) :
    ∀ loc, t.fat.deref (some (.slot i)) = .ok loc → loc ≠ .root := by
  intro loc hloc
  rw [deref_keeps h.1, hd] at hloc
  cases hloc
  exact Loc.noConfusion

variable (hd : s.fat.deref (some (.slot i)) = .ok (.slot i))

include hd

lemma findFile_beside (name : List UInt8) : Beside i s (findFile L fuel (some (.slot i)) name s).2 :=
  (beside_stable L i s).findFile (fun _ ht => ht.deref hd) fuel name (.refl i s)

lemma read_beside (n : UInt32) : Beside i s (read L (some (.slot i)) n s).2 :=
  (beside_stable L i s).read n ((Beside.refl i s).deref hd) (.refl i s)

lemma close_beside (h : Beside i s t) : (close (some (.slot i)) t).1 = .ok () ∧
    (close (some (.slot i)) t).2.fat.rootDirectory = s.fat.rootDirectory := by
  rw [close_slot ((deref_keeps h.1).trans hd)]
  exact ⟨rfl, h.2⟩

omit hd in
lemma openEntry_rootDirectory (entry : DirectoryEntry) :
    (openEntry L entry s).2.fat.rootDirectory = s.fat.rootDirectory := by
  cases hfree : s.fat.freeSlot with
  | none =>
    rw [openEntry_full hfree]
    rfl
  | some i =>
    rw [(openEntry_free (L := L) entry hfree).2.1]
    rfl

end Frame

/-! ### Opening a path -/

section Opening

variable (disk : UInt32 → Sector) (f : FatData)

/-- The sector in the buffer behind a search for a short name. -/
def findLeaves (m : ℕ) (short : Bytes 12) : ℕ :=
  heldSector m (min ((heldEntries disk f m).findIdx (nameMatches short) + 1) (rootCount f))

/-- The sector in the buffer behind `FAT_Open`: the first component of a path is looked up in the root
directory, and no other one. -/
def openLeaves (m : ℕ) (path : List UInt8) (name : NameBuffer) : ℕ :=
  if stripSlash path = [] then m else
    match component (stripSlash path) name with
    | .ok (first, _, _) => findLeaves disk f m (getShortName (List.ofFn first))
    | .error _ => m

variable {disk f} {L : Layer} {m fuel : ℕ} {s₀ s t : St} {path : List UInt8} {name : NameBuffer} {w : Walk}

/-- **What a search of the root directory finds, and where it leaves it.** -/
theorem findFile_holding (hL : Steady L disk) (hcount : rootCount f ≠ 0)
    (h : Holding disk f m 0 s.fat.rootDirectory) {text : List UInt8} {found : Option DirectoryEntry}
    (hfind : findFile L fuel (some .root) text s = (.ok found, t)) :
    found = (heldEntries disk f m).find? (nameMatches (getShortName text)) ∧
      Holding disk f m (min ((heldEntries disk f m).findIdx (nameMatches (getShortName text)) + 1) (rootCount f))
        t.fat.rootDirectory := by
  rw [findFile, findLoop_search] at hfind
  have hend := (holding_traverses hL hcount m).search fuel 0 (s.note (.findFile s.fat (some .root) text))
    (Nat.zero_le _) h hfind
  rw [List.drop_zero, heldEntries_length, Nat.zero_add] at hend
  exact hend

lemma lookup_root (hL : Steady L disk) (hcount : rootCount f ≠ 0) (h : Holding disk f m 0 s.fat.rootDirectory)
    (hw : w.current = some .root) {first : NameBuffer} {rest : List UInt8} {found : Option DirectoryEntry}
    (hl : lookup L fuel w s = (.ok (first, rest, found), t)) :
    ∃ isLast, component w.path w.name = .ok (first, rest, isLast) ∧
      Holding disk f (findLeaves disk f m (getShortName (List.ofFn first))) 0 t.fat.rootDirectory := by
  obtain ⟨isLast, u, hcomponent, hfind, hclose⟩ := lookup_ok hl
  rw [hw] at hfind hclose
  have hend := close_holding (findFile_holding hL hcount h hfind).2
  rw [hclose] at hend
  exact ⟨isLast, hcomponent, hend⟩

lemma lookup_slot {i : Fin 10} (hd : s.fat.deref (some (.slot i)) = .ok (.slot i))
    (hw : w.current = some (.slot i)) {first : NameBuffer} {rest : List UInt8} {found : Option DirectoryEntry}
    (hl : lookup L fuel w s = (.ok (first, rest, found), t)) : t.fat.rootDirectory = s.fat.rootDirectory := by
  obtain ⟨isLast, u, -, hfind, hclose⟩ := lookup_ok hl
  rw [hw] at hfind hclose
  have hu : Beside i s (findFile L fuel (some (.slot i)) (List.ofFn first) s).2 :=
    findFile_beside hd (List.ofFn first)
  rw [hfind] at hu
  have hend := (close_beside hd hu).2
  rwa [hclose] at hend

variable (disk f) in
/-- The root directory along the walk of `FAT_Open`: as it was before the first round, and as the search in it
left it from then on. -/
def RootAlong (m : ℕ) (path : List UInt8) (name : NameBuffer) (w : Walk) (s : St) : Prop :=
  (w = startWalk path name ∧ Holding disk f m 0 s.fat.rootDirectory) ∨
    (stripSlash path ≠ [] ∧ w.current ≠ some .root ∧
      Holding disk f (openLeaves disk f m path name) 0 s.fat.rootDirectory)

lemma lookup_along (hL : Steady L disk) (hcount : rootCount f ≠ 0) (hn : Named s) (hb : Balanced s₀ w.current s)
    (h : RootAlong disk f m path name w s) (hp : w.path ≠ []) {first : NameBuffer} {rest : List UInt8}
    {found : Option DirectoryEntry} (hl : lookup L fuel w s = (.ok (first, rest, found), t)) :
    stripSlash path ≠ [] ∧ Holding disk f (openLeaves disk f m path name) 0 t.fat.rootDirectory := by
  rcases h with ⟨rfl, hroot⟩ | ⟨hpath, hcurrent, hroot⟩
  · obtain ⟨isLast, hcomponent, hend⟩ := lookup_root hL hcount hroot rfl hl
    have hpath : stripSlash path ≠ [] := hp
    refine ⟨hpath, ?_⟩
    rw [openLeaves, if_neg hpath, show component (stripSlash path) name = _ from hcomponent]
    exact hend
  · refine ⟨hpath, ?_⟩
    rcases hw : w.current with _ | _ | i
    · obtain ⟨-, u, -, -, hclose⟩ := lookup_ok hl
      rw [hw] at hclose
      cases hclose
    · exact absurd hw hcurrent
    · rw [hw] at hb
      rw [lookup_slot (hn.deref_slot hb.1.opened) hw hl]
      exact hroot

lemma openStep_ne_root {w' : Walk} (h : openStep L fuel w s = (.ok (.inl w'), t)) : w'.current ≠ some .root := by
  obtain ⟨-, -, entry, v, -, hcurrent⟩ := openStep_goesOn h
  intro hroot
  obtain ⟨i, hi, -⟩ := openEntry_some (Prod.ext (hcurrent.symm.trans hroot) rfl)
  cases hi

/-- **What `FAT_Open` does to the root handle.** -/
theorem openPath_holding (hL : Steady L disk) (hcount : rootCount f ≠ 0) (hn : Named s)
    (h : Holding disk f m 0 s.fat.rootDirectory) {file : Option Loc}
    (ho : openPath L fuel path name s = (.ok file, t)) :
    Holding disk f (openLeaves disk f m path name) 0 t.fat.rootDirectory := by
  obtain ⟨w, u, hw, hend⟩ :=
    openLoop_last L fuel (path.length + 1) (startWalk path name) s (stripSlash_length path)
  have hu : (Named u ∧ Balanced s w.current u) ∧ RootAlong disk f m path name w u := by
    refine hw.invariant (P := fun w u => (Named u ∧ Balanced s w.current u) ∧ RootAlong disk f m path name w u)
      (fun w₁ s₁ w₂ s₂ h₁ hstep => ?_) ⟨⟨hn, SameSlots.refl s⟩, .inl ⟨rfl, h⟩⟩
    refine ⟨openStep_balanced h₁.1.1 h₁.1.2 hstep, .inr ?_⟩
    obtain ⟨hp, first, entry, v, hl, -⟩ := openStep_goesOn hstep
    obtain ⟨hpath, hroot⟩ := lookup_along hL hcount h₁.1.1 h₁.1.2 h₁.2 hp hl
    have hstate : s₂ = (openEntry L entry v).2 := by
      rw [openStep_eq, if_neg hp, hl] at hstep
      exact (Prod.ext_iff.mp hstep).2.symm
    refine ⟨hpath, openStep_ne_root hstep, ?_⟩
    rw [hstate, openEntry_rootDirectory]
    exact hroot
  rw [← openPath_eq, ho] at hend
  rcases hend with ⟨file', hlast, heq⟩ | ⟨e, -, heq⟩
  · cases heq
    rw [openStep_eq] at hlast ⊢
    split at hlast
    · next hp =>
      cases hlast
      rw [if_pos hp]
      rcases hu.2 with ⟨rfl, hroot⟩ | ⟨-, -, hroot⟩
      · have hempty : stripSlash path = [] := hp
        rw [openLeaves, if_pos hempty]
        exact hroot
      · exact hroot
    · next hp =>
      rw [if_neg hp]
      split at hlast
      · cases hlast
      · cases hlast
      · next hl =>
        cases hlast
        exact (lookup_along hL hcount hu.1.1 hu.1.2 hu.2 hp hl).2
  · cases heq

lemma openPath_root (hp : stripSlash path = []) : openPath L fuel path name s = (.ok (some .root), s) :=
  openPath_ends_eq (.refl _ _) hp

lemma stripSlash_of_root (h : openPath L fuel path name s = (.ok (some .root), t)) : stripSlash path = [] := by
  obtain ⟨w, u, hw, hend⟩ :=
    openLoop_last L fuel (path.length + 1) (startWalk path name) s (stripSlash_length path)
  have hu : w = startWalk path name ∨ w.current ≠ some .root :=
    hw.invariant (P := fun w _ => w = startWalk path name ∨ w.current ≠ some .root)
      (fun _ _ _ _ _ hstep => .inr (openStep_ne_root hstep)) (.inl rfl)
  rw [← openPath_eq, h] at hend
  rcases hend with ⟨file, hlast, heq⟩ | ⟨e, -, heq⟩
  · cases heq
    rw [openStep_eq] at hlast
    split at hlast
    · next hp =>
      rcases hu with rfl | hne
      · exact hp
      · exact absurd (by simpa using hlast) hne
    · split at hlast <;> cases hlast
  · cases heq

/-- `FAT_ReadDirectory` closes the directory that it has listed. -/
lemma readDirectory_closes {p : Loc} (ho : openPath L fuel path name s = (.ok (some p), t))
    (hok : (listLoop L (some p) 7 (t.note (.printf "\n"))).1 = .ok ()) :
    readDirectory L fuel path name s = close (some p) (listLoop L (some p) 7 (t.note (.printf "\n"))).2 := by
  simp only [readDirectory, ho]
  rcases hloop : listLoop L (some p) 7 (t.note (.printf "\n")) with ⟨res, u⟩
  rw [hloop] at hok
  dsimp only at hok
  subst hok
  rfl

/-- **`FAT_ReadDirectory` on the root directory**: it shows the records behind the handle, and leaves the buffer
as it was. -/
theorem readDirectory_root (fuel : ℕ) (name : NameBuffer) (hL : Steady L disk) (hcount : rootCount f ≠ 0)
    (h : Holding disk f m 0 s.fat.rootDirectory) (hp : stripSlash path = []) :
    (readDirectory L fuel path name s).1 = .ok () ∧
      Shows s (readDirectory L fuel path name s).2 (listing (heldEntries disk f m)) ∧
      Holding disk f m 0 (readDirectory L fuel path name s).2.fat.rootDirectory := by
  obtain ⟨hok, hat, hshows⟩ := listLoop_shows hL.ok (holding_traverses hL hcount m) (fun _ _ _ h => h) 7 0
    (s.note (.printf "\n")) (Nat.zero_le _) h
  rw [heldEntries_length] at hat
  have hfew : heldSector m (min (0 + 7 + 1) (rootCount f)) = m := if_pos (by omega)
  have hclose := close_holding hat
  rw [hfew] at hclose
  rw [readDirectory_closes (openPath_root hp) hok]
  refine ⟨by rw [close_root hat.deref], ?_, hclose⟩
  exact ((Shows.note (.printf "\n") s).trans hshows).of_log (close_log _ _)

lemma readDirectory_holding (hL : Steady L disk) (hcount : rootCount f ≠ 0) (hn : Named s)
    (h : Holding disk f m 0 s.fat.rootDirectory) (hr : (readDirectory L fuel path name s).1 = .ok ()) :
    Holding disk f (openLeaves disk f m path name) 0
      (readDirectory L fuel path name s).2.fat.rootDirectory := by
  rcases ho : openPath L fuel path name s with ⟨e | file, t⟩
  · simp [readDirectory, ho] at hr
  have hroot := openPath_holding hL hcount hn h ho
  obtain ⟨hn', hb⟩ := openPath_balanced hn ho
  rcases file with _ | _ | i
  · rw [(open_null_used ho).2] at hr
    cases hr
  · rw [openLeaves, if_pos (stripSlash_of_root ho)]
    exact (readDirectory_root _ _ hL hcount h (stripSlash_of_root ho)).2.2
  · have hd : (t.note (.printf "\n")).fat.deref (some (.slot i)) = .ok (.slot i) := hn'.deref_slot hb.1.opened
    have hloop := (beside_stable L i _).listLoop (fun _ hu => hu.deref hd) 7 _ (.refl i _)
    simp only [readDirectory, ho] at hr ⊢
    split at hr
    · cases hr
    · next heq =>
      rw [heq] at hloop
      rw [(close_beside hd hloop).2]
      exact hroot

lemma readFile_holding (hL : Steady L disk) (hcount : rootCount f ≠ 0) (hn : Named s)
    (h : Holding disk f m 0 s.fat.rootDirectory) (hp : stripSlash path ≠ [])
    (hr : (readFile L fuel path name s).1 = .ok ()) :
    Holding disk f (openLeaves disk f m path name) 0 (readFile L fuel path name s).2.fat.rootDirectory := by
  rcases ho : openPath L fuel path name s with ⟨e | file, t⟩
  · simp [readFile, ho] at hr
  have hroot := openPath_holding hL hcount hn h ho
  obtain ⟨hn', hb⟩ := openPath_balanced hn ho
  rcases file with _ | _ | i
  · rw [(open_null_used ho).1] at hr
    cases hr
  · exact absurd (stripSlash_of_root ho) hp
  · have hd : t.fat.deref (some (.slot i)) = .ok (.slot i) := hn'.deref_slot hb.1.opened
    have hloop := (beside_stable L i t).dumpLoop (fun _ hu => hu.deref hd) fuel t (.refl i t)
    simp only [readFile, ho] at hr ⊢
    split at hr
    · cases hr
    · next u heq =>
      rw [heq] at hloop
      rw [(close_beside hd (t := u.note (.printf "\n")) hloop).2]
      exact hroot

end Opening

/-! ### Runs -/

section Runs

variable (disk : UInt32 → Sector) (f : FatData)

/-- **The root handle as a machine**: its state is the sector in the buffer, and only the first component of a
path makes it another one. -/
def rootStep (m : ℕ) : Call → ℕ
  | .openPath path name | .readDirectory path name | .readFile path name => openLeaves disk f m path name
  | _ => m

/-- The call reads only through open slots, or closes one or the root directory. -/
def Away (s : St) : Call → Prop
  | .read file _ | .readEntry file | .findFile file _ =>
    ∃ i, file = some (.slot i) ∧ (s.fat.openedFiles i).opened = true
  | .close file => file = some .root ∨ ∃ i, file = some (.slot i) ∧ (s.fat.openedFiles i).opened = true
  | .readFile path _ => stripSlash path ≠ []
  | _ => True

/-- The call is one of these, and returns. -/
def Served (L : Layer) (fuel : ℕ) (s : St) (c : Call) : Prop :=
  Away s c ∧ ∃ answer, (call L fuel c s).1 = .ok answer

variable {disk f} {L : Layer} {m fuel : ℕ} {s : St} {c : Call}

/-- **One call.** -/
theorem call_holding (hL : Steady L disk) (hcount : rootCount f ≠ 0) (hn : Named s)
    (h : Holding disk f m 0 s.fat.rootDirectory) (hc : Served L fuel s c) :
    Holding disk f (rootStep disk f m c) 0 (call L fuel c s).2.fat.rootDirectory := by
  obtain ⟨haway, answer, hanswer⟩ := hc
  cases c with
  | openEntry entry =>
    change Holding disk f m 0 (openEntry L entry s).2.fat.rootDirectory
    rw [openEntry_rootDirectory]
    exact h
  | nextCluster cluster =>
    have hframe := (root_frame L s.fat.rootDirectory).nextCluster cluster rfl
    exact hframe ▸ h
  | read file n =>
    obtain ⟨i, rfl, hi⟩ := haway
    exact (read_beside (L := L) (hn.deref_slot hi) n).2 ▸ h
  | readEntry file =>
    obtain ⟨i, rfl, hi⟩ := haway
    exact (read_beside (L := L) (hn.deref_slot hi) 32).2 ▸ h
  | close file =>
    rcases haway with rfl | ⟨i, rfl, hi⟩
    · exact close_holding h
    · exact (close_beside (hn.deref_slot hi) (.refl i s)).2 ▸ h
  | findFile file name =>
    obtain ⟨i, rfl, hi⟩ := haway
    have hbeside : Beside i s (findFile L fuel (some (.slot i)) name s).2 :=
      findFile_beside (hn.deref_slot hi) name
    exact hbeside.2 ▸ h
  | openPath path name =>
    rcases ho : openPath L fuel path name s with ⟨e | file, t⟩
    · simp [call, ho, Except.map] at hanswer
    · have hroot := openPath_holding hL hcount hn h ho
      change Holding disk f (openLeaves disk f m path name) 0 (openPath L fuel path name s).2.fat.rootDirectory
      rw [ho]
      exact hroot
  | readDirectory path name =>
    refine readDirectory_holding hL hcount hn h ?_
    cases hr : (readDirectory L fuel path name s).1 with
    | ok => rfl
    | error e => simp [call, hr, Except.map] at hanswer
  | readFile path name =>
    refine readFile_holding hL hcount hn h haway ?_
    cases hr : (readFile L fuel path name s).1 with
    | ok => rfl
    | error e => simp [call, hr, Except.map] at hanswer

lemma Initialised.holding (hL : Steady L disk) (h : Initialised L s) :
    Holding disk s.fat 0 0 s.fat.rootDirectory := by
  obtain ⟨clock, buf, hread⟩ := h.rootBuffer
  have hfirst : s.fat.rootDirectory.firstCluster + UInt32.ofNat 0 = s.fat.rootDirectory.firstCluster :=
    UInt32.add_zero _
  refine ⟨?_, rfl, ?_, ?_⟩
  · have hsize : UInt32.ofNat (32 * rootCount s.fat) =
        32 * (BootSector.dirEntryCount s.fat.bootSector).toUInt32 := by
      rw [rootCount, UInt32.ofNat_mul, ← UInt16.toNat_toUInt32, UInt32.ofNat_toNat]
      rfl
    rw [h.rootPub, hsize]
    rfl
  · rw [h.rootCursor.1]
    exact hfirst.symm
  · have hsector := hL.sector clock s.fat.rootDirectory.firstCluster buf
    rw [hread] at hsector
    rw [show rootRow disk s.fat (heldSector 0 0) = disk s.fat.rootDirectory.firstCluster from
      congrArg disk hfirst]
    exact hsector

lemma run_holding {t : St} (hL : Steady L disk) (hinit : Initialised L t) (hcount : rootCount t.fat ≠ 0)
    {history : List Call} (hserved : Along (call L fuel) (Served L fuel) history t) :
    Holding disk t.fat (history.foldl (rootStep disk t.fat) 0) 0
      (final (call L fuel) history t).fat.rootDirectory :=
  (final_refines (R := fun m u => Named u ∧ Holding disk t.fat m 0 u.fat.rootDirectory)
    (fun _ _ c h hc => ⟨(named_stable L).call fuel c h.1, call_holding hL hcount h.1 h.2 hc⟩) history 0 t
    ⟨hinit.named, hinit.holding hL⟩ hserved).2

/-- **All that the root handle remembers of a run is a number.** After any calls that return and do not read
through the root handle itself, what is found in the root directory and what is listed of it are the records
that the machine `rootStep` says. -/
theorem rootHandle_remembers (L : Layer) (disk : UInt32 → Sector) (hL : Steady L disk) (t : St)
    (hinit : Initialised L t) (hcount : rootCount t.fat ≠ 0) (fuel : ℕ) (history : List Call)
    (hserved : Along (call L fuel) (Served L fuel) history t) :
    let m := history.foldl (rootStep disk t.fat) 0
    let s := final (call L fuel) history t
    (∀ name, rootCount t.fat < fuel → (findFile L fuel (some .root) name s).1 =
        .ok ((heldEntries disk t.fat m).find? (nameMatches (getShortName name)))) ∧
      ∀ path name, stripSlash path = [] → (readDirectory L fuel path name s).1 = .ok () ∧
        Shows s (readDirectory L fuel path name s).2 (listing (heldEntries disk t.fat m)) := by
  intro m s
  have hroot : Holding disk t.fat m 0 s.fat.rootDirectory := run_holding hL hinit hcount hserved
  refine ⟨fun name hfuel => ?_, fun path name hp => ?_⟩
  · rw [findFile_eq, findLoop_search]
    exact search_list ((holding_traverses hL hcount m).delivers hroot) (by rwa [heldEntries_length])
  · obtain ⟨hok, hshows, -⟩ := readDirectory_root fuel name hL hcount hroot hp
    exact ⟨hok, hshows⟩

end Runs

/-- After a lookup that failed, the listing of the root directory shows what lies in the sector behind it. -/
theorem rootHandle_remembers_missed :
    Shows missed (readDirectory smallLayer 17 [47] blankName missed).2
      (10 :: (List.replicate 7 ([32, 32] ++ List.replicate 11 97 ++ [13, 10])).flatten) := by
  have hL : Steady smallLayer (partitionSectors (.ofDisk smallDisk) (hardDiskPartition 0)) :=
    bootLayer_steady (fun _ _ => rfl) _
  have hserved : Along (call smallLayer 17) (Served smallLayer 17) [.openPath [99] blankName]
      (mounted smallLayer) := by
    have hnone : (openPath smallLayer 17 [99] blankName (mounted smallLayer)).1 = .ok none := by decide +kernel
    exact ⟨⟨trivial, .file none, by rw [call, hnone]; rfl⟩, trivial⟩
  have hnumber : [Call.openPath [99] blankName].foldl
      (rootStep (partitionSectors (.ofDisk smallDisk) (hardDiskPartition 0)) (mounted smallLayer).fat) 0 = 1 := by
    decide +kernel
  have hlisting : listing (heldEntries (partitionSectors (.ofDisk smallDisk) (hardDiskPartition 0))
      (mounted smallLayer).fat 1) =
      10 :: (List.replicate 7 ([32, 32] ++ List.replicate 11 97 ++ [13, 10])).flatten := by
    decide +kernel
  have hshows := ((rootHandle_remembers smallLayer _ hL (mounted smallLayer)
    (fatInitialize_initialised (Prod.ext smallLayer_mounts rfl)) (by decide +kernel) 17
    [.openPath [99] blankName] hserved).2 [47] blankName (by decide)).2
  rw [hnumber, hlisting] at hshows
  exact hshows

end ArcOS.Fat
