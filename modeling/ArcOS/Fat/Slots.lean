import ArcOS.Fat.Stable

/-!
The slot table: what `FAT_OpenEntry` and `FAT_Close` do to it.

`openEntry_ok` and its companions give the state after `FAT_OpenEntry` outright, `close_slot` and
`close_root` the one after `FAT_Close`. Later modules cite them and do not unfold the two functions.
-/

namespace ArcOS.Fat

open Lib

variable {L : Layer} {entry : DirectoryEntry} {i : Fin 10} {s : St}

/-! ### `FAT_OpenEntry` -/

/-- The read of the first sector of an entry. -/
def firstSector (L : Layer) (entry : DirectoryEntry) (i : Fin 10) (s : St) : Bool × Sector :=
  L.readSectors s.clock (L.sectorLba (s.fat.clusterToLba entry.firstCluster)) 512
    (s.fat.openedFiles i).buffer

/-- The record `FAT_OpenEntry` leaves in a slot. -/
def openedRecord (L : Layer) (entry : DirectoryEntry) (i : Fin 10) (s : St) : FileData :=
  { entryRecord (s.fat.openedFiles i) i entry with
    buffer := (firstSector L entry i s).2
    opened := (firstSector L entry i s).1 }

lemma freeSlot_of_first {f : FatData} {i : Fin 10} (hi : (f.openedFiles i).opened = false)
    (hbefore : ∀ j < i, (f.openedFiles j).opened = true) : f.freeSlot = some i := by
  refine List.find?_eq_some_iff_getElem.mpr ⟨by simp [hi], i, by simp, by simp, fun j hj => ?_⟩
  have := hbefore ⟨j, by omega⟩ hj
  simpa using this

theorem openEntry_full (h : s.fat.freeSlot = none) :
    openEntry L entry s = (none, s.note (.printf "FAT: out of file handles\r\n")) := by
  simp only [openEntry, h]

theorem openEntry_ok (h : s.fat.freeSlot = some i) (hr : (firstSector L entry i s).1 = true) :
    openEntry L entry s = (some (.slot i),
      { fat := s.fat.setFd (.slot i) (openedRecord L entry i s), clock := s.clock + 1
        log := .diskRead (L.sectorLba (s.fat.clusterToLba entry.firstCluster)) 1 :: s.log }) := by
  unfold firstSector at hr
  simp only [openEntry, h, Layer.read, entryRecord, St.setFd, FatData.setFd_setFd, openedRecord,
    firstSector, FatData.clusterToLba] at hr ⊢
  rw [if_pos hr, hr]

/-- **`FAT_OpenEntry` on a free slot**: the outcome of its one read decides what it returns, and
whether the slot is open afterwards. -/
theorem openEntry_free (entry : DirectoryEntry) (h : s.fat.freeSlot = some i) :
    (openEntry L entry s).1 = (if (firstSector L entry i s).1 then some (.slot i) else none) ∧
      (openEntry L entry s).2.fat = s.fat.setFd (.slot i) (openedRecord L entry i s) ∧
      (openEntry L entry s).2.clock = s.clock + 1 := by
  cases hr : (firstSector L entry i s).1 with
  | true => simp [openEntry_ok h hr]
  | false =>
    have hd : (openedRecord L entry i s).opened = false := hr
    have hclosed := opened_of_freeSlot h
    unfold firstSector at hr
    simp only [openEntry, h, Layer.read, entryRecord, St.setFd, FatData.setFd_setFd, openedRecord,
      firstSector, FatData.clusterToLba] at hr ⊢
    rw [if_neg (by simp [hr])]
    simp [hr, hclosed]

/-- What a handle that `FAT_OpenEntry` returns comes from. -/
theorem openEntry_some {p : Loc} {s' : St} (h : openEntry L entry s = (some p, s')) :
    ∃ i, p = .slot i ∧ s.fat.freeSlot = some i ∧ (firstSector L entry i s).1 = true ∧
      s' = { fat := s.fat.setFd (.slot i) (openedRecord L entry i s), clock := s.clock + 1
             log := .diskRead (L.sectorLba (s.fat.clusterToLba entry.firstCluster)) 1 :: s.log } := by
  cases hfree : s.fat.freeSlot with
  | none =>
    rw [openEntry_full hfree] at h
    cases h
  | some i =>
    cases hr : (firstSector L entry i s).1 with
    | false =>
      have h1 := (openEntry_free (L := L) entry hfree).1
      rw [h, hr] at h1
      cases h1
    | true =>
      rw [openEntry_ok hfree hr] at h
      cases h
      exact ⟨i, rfl, rfl, hr, rfl⟩

/-- **`FAT_OpenEntry` and the slot table**: the slot it hands out was closed, at most that slot is
marked open, and no other record is touched. -/
theorem openEntry_slots (L : Layer) (entry : DirectoryEntry) (s : St) :
    ((openEntry L entry s).1 = none ∧
        ∀ j, ((openEntry L entry s).2.fat.openedFiles j).opened = (s.fat.openedFiles j).opened ∧
          ((s.fat.openedFiles j).opened = true →
            (openEntry L entry s).2.fat.openedFiles j = s.fat.openedFiles j)) ∨
    ∃ i, (openEntry L entry s).1 = some (.slot i) ∧ (s.fat.openedFiles i).opened = false ∧
      ((openEntry L entry s).2.fat.openedFiles i).opened = true ∧
      ∀ j ≠ i, (openEntry L entry s).2.fat.openedFiles j = s.fat.openedFiles j := by
  cases h : s.fat.freeSlot with
  | none =>
    rw [openEntry_full h]
    exact .inl ⟨rfl, fun j => ⟨rfl, fun _ => rfl⟩⟩
  | some i =>
    obtain ⟨h1, hf, -⟩ := openEntry_free (L := L) entry h
    have hclosed := opened_of_freeSlot h
    have hother : ∀ j ≠ i, (openEntry L entry s).2.fat.openedFiles j = s.fat.openedFiles j := by
      intro j hj
      rw [hf]
      exact Function.update_of_ne hj _ _
    have hi : (openEntry L entry s).2.fat.openedFiles i = openedRecord L entry i s := by
      rw [hf]
      exact Function.update_self _ _ _
    cases hr : (firstSector L entry i s).1 with
    | false =>
      refine .inl ⟨by rw [h1, hr]; rfl, fun j => ?_⟩
      by_cases hj : j = i
      · subst hj
        rw [hi, hclosed]
        exact ⟨hr, fun h => by cases h⟩
      · rw [hother j hj]
        exact ⟨rfl, fun _ => rfl⟩
    | true =>
      refine .inr ⟨i, by rw [h1, hr]; rfl, hclosed, by rw [hi]; exact hr, hother⟩

/-! ### `FAT_Close` -/

lemma close_root (h : s.fat.deref (some .root) = .ok .root) : close (some .root) s =
    (.ok (), s.setFd .root { s.fat.rootDirectory with
      pub := { s.fat.rootDirectory.pub with position := 0 }
      currentCluster := s.fat.rootDirectory.firstCluster }) := by
  simp only [close, h]
  rfl

lemma close_slot (h : s.fat.deref (some (.slot i)) = .ok (.slot i)) :
    close (some (.slot i)) s =
      (.ok (), s.setFd (.slot i) { s.fat.openedFiles i with opened := false }) := by
  simp only [close, h]
  rfl

/-! ### Handles -/

/-- The root directory has its own handle, and an open slot the one that names it. -/
structure Named (s : St) : Prop where
  root : s.fat.rootDirectory.pub.handle = rootDirectoryHandle
  slot : ∀ i, (s.fat.openedFiles i).opened = true → (s.fat.openedFiles i).pub.handle = ((i : ℕ) : ℤ)

lemma deref_of_handle {f : FatData} (h : (f.openedFiles i).pub.handle = ((i : ℕ) : ℤ)) :
    f.deref (some (.slot i)) = .ok (.slot i) := by
  have hi := i.isLt
  simp only [FatData.deref, FatData.fd, h, rootDirectoryHandle]
  rw [if_neg (by omega), dif_pos ⟨by omega, by omega⟩]
  simp

lemma Named.deref_root (h : Named s) : s.fat.deref (some .root) = .ok .root := by
  simp [FatData.deref, FatData.fd, h.root]

lemma Named.deref_slot (h : Named s) (hi : (s.fat.openedFiles i).opened = true) :
    s.fat.deref (some (.slot i)) = .ok (.slot i) :=
  deref_of_handle (h.slot i hi)

/-- A record with the handle of its slot keeps the table named, and so does one that is not open. -/
lemma Named.setSlot (h : Named s) (i : Fin 10) {d : FileData}
    (hd : d.opened = true → d.pub.handle = ((i : ℕ) : ℤ)) : Named (s.setFd (.slot i) d) := by
  refine ⟨h.root, fun j => ?_⟩
  by_cases hj : j = i
  · subst hj
    simp only [St.setFd_fat, FatData.setFd, Function.update_self]
    exact hd
  · simp only [St.setFd_fat, FatData.setFd, Function.update_of_ne hj]
    exact h.slot j

lemma Named.setFd (h : Named s) (loc : Loc) (d : FileData)
    (hh : d.pub.handle = (s.fat.fd loc).pub.handle)
    (ho : d.opened = true → (s.fat.fd loc).opened = true) : Named (s.setFd loc d) := by
  cases loc with
  | root => exact ⟨hh.trans h.root, h.slot⟩
  | slot i => exact h.setSlot i fun hd => hh.trans (h.slot i (ho hd))

theorem named_stable (L : Layer) : StableCalls L Named where
  note _ _ _ h := ⟨h.root, h.slot⟩
  disk _ _ _ _ h := ⟨h.root, h.slot⟩
  refill sector s h := by
    unfold refill
    split
    · exact ⟨h.root, h.slot⟩
    · exact h
  setFd _ _ _ _ hk h := h.setFd _ _ hk.handle fun ho => hk.opened ▸ ho
  setSlot i _ _ _ hd h := h.setSlot i fun _ => hd
  search _ _ _ h := ⟨h.root, h.slot⟩
  close file s h := by
    unfold close
    split
    · exact h
    next p =>
    split
    · exact h
    · have hp := h.setFd p { s.fat.fd p with
        pub := { (s.fat.fd p).pub with position := 0 } } rfl fun ho => ho
      exact hp.setFd .root { (s.setFd p _).fat.fd .root with
        currentCluster := ((s.setFd p _).fat.fd .root).firstCluster } rfl fun ho => ho
    · next i _ =>
      exact h.setFd (.slot i) { s.fat.fd (.slot i) with opened := false } rfl
        fun ho => by cases ho

end ArcOS.Fat
