import ArcOS.Fat.NullFile

/-!
Through what `FAT_Open` descends.

The test that stops at a file that is no directory never fires (`notADirectory_eq`). `descends_iff` says
when `FAT_Open` is safe without it: when no such file comes up where path is left.
-/

namespace ArcOS.Fat

open Lib

/-- The directory attribute of an entry is set. -/
def IsDirectory (entry : DirectoryEntry) : Prop := entry.attributes &&& attributeDirectory ≠ 0

/-- A search runs on the root directory, or on an open file that is a directory. -/
def Event.OnDirectory : Event → Prop
  | .findFile fat file _ => file = some .root ∨
      ∃ i, file = some (.slot i) ∧ (fat.openedFiles i).pub.isDirectory = true
  | _ => True

/-- **`FAT_Open` descends through directories only**: an entry without the directory attribute that a
component resolves to, with a slash behind it, makes it return NULL with the slots as before; and every
search runs on the root directory or on an open file with the attribute, wherever the walk comes to with path
left and whenever `FAT_FindFile` is called. -/
structure Descends (L : Layer) (fuel : ℕ) (path : List UInt8) (name : NameBuffer) (s : St) :
    Prop where
  refuses : ∀ w t name' rest entry t', Walks L fuel (startWalk path name) s w t → w.path ≠ [] →
    component w.path w.name = .ok (name', rest, false) →
    lookup L fuel w t = (.ok (name', rest, some entry), t') → ¬ IsDirectory entry →
      (openPath L fuel path name s).1 = .ok none ∧ SameSlots s (openPath L fuel path name s).2
  directories : ∀ w t, Walks L fuel (startWalk path name) s w t → w.path ≠ [] →
    w.current = some .root ∨
      ∃ i, w.current = some (.slot i) ∧ (t.fat.openedFiles i).pub.isDirectory = true
  searches : Logged Event.OnDirectory s (openPath L fuel path name s).2

/-- What a component with a slash behind it resolves to is no obstacle: with path left it is a directory
that can be opened, and at the end of the path it is a directory, or cannot be opened. -/
def DescendFine (L : Layer) (fuel : ℕ) (w : Walk) (s : St) : Prop :=
  ∀ name' rest entry t, component w.path w.name = .ok (name', rest, false) →
    lookup L fuel w s = (.ok (name', rest, some entry), t) →
      if rest = [] then IsDirectory entry ∨ ¬ EntryOpens L entry t
      else IsDirectory entry ∧ EntryOpens L entry t

variable {L : Layer} {fuel : ℕ} {path : List UInt8} {name : NameBuffer} {w w' : Walk} {s s' t : St}

lemma component_isLast {p rest : List UInt8} {n name' : NameBuffer} {isLast : Bool}
    (h : component p n = .ok (name', rest, isLast)) (hrest : rest ≠ []) : isLast = false := by
  unfold component at h
  split at h
  · split at h <;> cases h
    rfl
  · split at h <;> cases h
    exact absurd rfl hrest

/-- The slot of an entry that was opened says whether it is a directory. -/
lemma openEntry_isDirectory {entry : DirectoryEntry} (h : EntryOpens L entry s) :
    ∃ i, (openEntry L entry s).1 = some (.slot i) ∧
      (((openEntry L entry s).2.fat.openedFiles i).pub.isDirectory = true ↔ IsDirectory entry) := by
  obtain ⟨i, hfree, hread⟩ := h
  refine ⟨i, by rw [openEntry_ok hfree hread], ?_⟩
  rw [openEntry_ok hfree hread]
  simp [FatData.setFd, openedRecord, entryRecord, IsDirectory]

lemma openStep_found {n : NameBuffer} {rest : List UInt8} {entry : DirectoryEntry} (hp : w.path ≠ [])
    (hl : lookup L fuel w s = (.ok (n, rest, some entry), s')) :
    openStep L fuel w s = (.ok (.inl ⟨rest, (openEntry L entry s').1, n⟩), (openEntry L entry s').2) := by
  rw [openStep_eq, if_neg hp, hl]

lemma Descends.fine (h : Descends L fuel path name s)
    (hw : Walks L fuel (startWalk path name) s w t) (hp : w.path ≠ []) : DescendFine L fuel w t := by
  intro name' rest entry t' hc hl
  have hnext := hw.snoc (openStep_found hp hl)
  split
  · next hrest =>
    by_contra hbad
    obtain ⟨hfile, hopen⟩ := not_or.mp hbad
    obtain ⟨i, hi, -⟩ := openEntry_isDirectory (not_not.mp hopen)
    -- the path is used up, and the file is what comes out
    have hnull := (h.refuses w t name' rest entry t' hw hp hc hl hfile).1
    rw [openPath_ends hnext hrest, hi] at hnull
    cases hnull
  · next hrest =>
    have hcurrent := h.directories _ _ hnext hrest
    have hopen : EntryOpens L entry t' := by
      by_contra hfail
      rw [openEntry_eq_none.mpr hfail] at hcurrent
      rcases hcurrent with hroot | ⟨i, hi, -⟩
      · cases hroot
      · cases hi
    obtain ⟨i, hi, hdir⟩ := openEntry_isDirectory hopen
    refine ⟨?_, hopen⟩
    rcases hcurrent with hroot | ⟨j, hj, hjdir⟩
    · rw [hi] at hroot
      cases hroot
    · rw [hi] at hj
      cases hj
      exact hdir.mp hjdir

/-- Without an obstacle every search runs on a directory. -/
lemma walks_directories
    (hfine : ∀ w t, Walks L fuel (startWalk path name) s w t → w.path ≠ [] → DescendFine L fuel w t)
    (hw : Walks L fuel (startWalk path name) s w t) : w.path ≠ [] → w.current = some .root ∨
      ∃ i, w.current = some (.slot i) ∧ (t.fat.openedFiles i).pub.isDirectory = true := by
  have h := hw.invariant (P := fun w t => Walks L fuel (startWalk path name) s w t ∧
    (w.path ≠ [] → w.current = some .root ∨
      ∃ i, w.current = some (.slot i) ∧ (t.fat.openedFiles i).pub.isDirectory = true)) ?_
    ⟨.refl _ _, fun _ => .inl rfl⟩
  · exact h.2
  rintro w t w' t' ⟨hw, -⟩ ho
  refine ⟨hw.snoc ho, fun hp' => .inr ?_⟩
  obtain ⟨hp, name', entry, u, hl, hcur⟩ := openStep_goesOn ho
  obtain ⟨isLast, u', hc, -⟩ := lookup_ok hl
  have hlast := component_isLast hc hp'
  subst hlast
  have hgood := hfine w t hw hp _ _ _ _ hc hl
  rw [if_neg hp'] at hgood
  obtain ⟨i, hi, hdir⟩ := openEntry_isDirectory hgood.2
  rw [openStep_found hp hl, Prod.mk.injEq] at ho
  rw [hcur, ← ho.2]
  exact ⟨i, hi, hdir.mpr hgood.1⟩

lemma NoSearch.onDirectory {e : Event} (h : NoSearch e) : e.OnDirectory := by
  cases e with
  | findFile _ _ _ => cases h
  | _ => trivial

lemma openStep_onDirectory (h : w.path ≠ [] → w.current = some .root ∨
    ∃ i, w.current = some (.slot i) ∧ (s.fat.openedFiles i).pub.isDirectory = true) :
    Logged Event.OnDirectory s (openStep L fuel w s).2 := by
  by_cases hc : ∃ name rest isLast, w.path ≠ [] ∧ component w.path w.name = .ok (name, rest, isLast)
  · obtain ⟨name, rest, isLast, hp, hc⟩ := hc
    have hsearch : Event.OnDirectory (.findFile s.fat w.current (List.ofFn name)) := h hp
    have hnote : Logged Event.OnDirectory s (s.note (.findFile s.fat w.current (List.ofFn name))) :=
      .cons hsearch rfl
    exact hnote.trans ((openStep_search hp hc).mono fun _ => NoSearch.onDirectory)
  · rw [openStep_silent fun name rest isLast hp hok => hc ⟨name, rest, isLast, hp, hok⟩]
    exact .refl s

lemma walks_slots (hr : Reachable L s) (hw : Walks L fuel (startWalk path name) s w t) :
    Named t ∧ Balanced s w.current t :=
  hw.invariant (P := fun w t => Named t ∧ Balanced s w.current t)
    (fun _ _ _ _ h ho => openStep_balanced h.1 h.2 ho) ⟨hr.named, SameSlots.refl s⟩

/-- **When `FAT_Open` descends through directories only**: exactly when no component with a slash behind
it resolves to an obstacle. -/
theorem descends_iff (L : Layer) (fuel : ℕ) (path : List UInt8) (name : NameBuffer) (s : St)
    (hr : Reachable L s) : Descends L fuel path name s ↔
      ∀ w t, Walks L fuel (startWalk path name) s w t → w.path ≠ [] → DescendFine L fuel w t := by
  constructor
  · intro h w t hw hp
    exact h.fine hw hp
  · intro hfine
    refine ⟨?_, fun w t hw hp => walks_directories hfine hw hp, openPath_invariant
      (fun w t hw ht => ht.trans (openStep_onDirectory (walks_directories hfine hw))) (.refl s)⟩
    intro w t name' rest entry t' hw hp hc hl hfile
    have hgood := hfine w t hw hp _ _ _ _ hc hl
    have hnext := hw.snoc (openStep_found hp hl)
    split at hgood
    · next hrest =>
      have hnone := openEntry_eq_none.mpr (hgood.resolve_left hfile)
      have hslots := (walks_slots hr hnext).2
      rw [openPath_ends_eq hnext hrest]
      rw [hnone] at hslots ⊢
      exact ⟨rfl, hslots⟩
    · exact absurd hgood.1 hfile

/-! ### A file that passes for a directory -/

/-- The small volume, with a directory entry in the first bytes of the file `B`. -/
def forgedDisk : UInt32 → Sector := fun lba =>
  if lba = 34 then Bytes.ofList 512 (List.ofFn entryA) else smallDisk lba

/-- The bootloader's layer on that disk. -/
def forgedLayer : Layer := bootLayer (.ofDisk forgedDisk) (hardDiskPartition 0)

lemma forgedLayer_mounts : (fatInitialize forgedLayer .start).1 = .ok true := by decide +kernel

/-- The place of a walk after a round, and the attribute of a slot. -/
def afterRound (i : Fin 10) (r : Except Stop (Walk ⊕ Option Loc) × St) :
    Option (List UInt8 × Option Loc × Bool) :=
  match r.1 with
  | .ok (.inl w) => some (w.path, w.current, (r.2.fat.openedFiles i).pub.isDirectory)
  | _ => none

lemma afterRound_some {i : Fin 10} {p : List UInt8} {file : Option Loc} {b : Bool}
    (h : afterRound i (openStep L fuel w s) = some (p, file, b)) :
    ∃ w', openStep L fuel w s = (.ok (.inl w'), (openStep L fuel w s).2) ∧ w'.path = p ∧
      w'.current = file ∧ ((openStep L fuel w s).2.fat.openedFiles i).pub.isDirectory = b := by
  unfold afterRound at h
  split at h
  · next w' hw =>
    simp only [Option.some.injEq, Prod.mk.injEq] at h
    exact ⟨w', Prod.ext hw rfl, h.1, h.2.1, h.2.2⟩
  · cases h

/-- A round that leads to a slot, with path left and a file that is no directory in it. -/
lemma Descends.not_through_file {p : List UInt8} (h : Descends L fuel path name s) (hp : p ≠ [])
    (i : Fin 10) :
    afterRound i (openStep L fuel (startWalk path name) s) ≠ some (p, some (.slot i), false) := by
  intro hround
  obtain ⟨w', ho, hpath, hcur, hdir⟩ := afterRound_some hround
  rcases h.directories w' _ ((Walks.refl _ _).snoc ho) (by rw [hpath]; exact hp) with
    hroot | ⟨j, hj, hjdir⟩
  · rw [hcur] at hroot
    cases hroot
  · rw [hcur] at hj
    cases hj
    rw [hdir] at hjdir
    cases hjdir

/-- `B/A` is opened through the file `B`, and what is in the file is what comes out. -/
theorem descends_forged : Reachable forgedLayer (mounted forgedLayer) ∧
    ¬ Descends forgedLayer 20 [66, 47, 65] blankName (mounted forgedLayer) ∧
    (openPath forgedLayer 20 [66, 47, 65] blankName (mounted forgedLayer)).1 =
      .ok (some (.slot 0)) := by
  refine ⟨mounted_reachable forgedLayer_mounts, fun h => ?_, by decide +kernel⟩
  exact h.not_through_file (p := [65]) (List.cons_ne_nil _ _) 0 (by decide +kernel)

theorem descends_small : Descends smallLayer 20 [65, 47, 66] blankName (mounted smallLayer) ↔
    ∀ w t, Walks smallLayer 20 (startWalk [65, 47, 66] blankName) (mounted smallLayer) w t →
      w.path ≠ [] → DescendFine smallLayer 20 w t :=
  descends_iff smallLayer 20 [65, 47, 66] blankName _ (mounted_reachable smallLayer_mounts)

end ArcOS.Fat
