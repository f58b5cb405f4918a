import ArcOS.Fat.Walk

/-!
Handle accounting.

Between two rounds of `FAT_Open` the slot table is the one before the call (`SameSlots`), but for
the slot of the current file if that is not the root directory (`OneMore`). Every round keeps this,
so a call that returns leaves one slot more open, or none.
-/

namespace ArcOS.Fat

open Lib Lib.Transducer

variable {L : Layer} {fuel : ℕ} {s₀ s s' : St} {i : Fin 10}

/-! ### The slot table, compared with an earlier one -/

/-- The same slots are open as in `s₀`, and the records open there are untouched. -/
structure SameSlots (s₀ s : St) : Prop where
  flags : ∀ j, (s.fat.openedFiles j).opened = (s₀.fat.openedFiles j).opened
  frame : ∀ j, (s₀.fat.openedFiles j).opened = true → s.fat.openedFiles j = s₀.fat.openedFiles j

/-- Slot `i`, closed in `s₀`, is open, and else the table is as in `SameSlots`. -/
structure OneMore (s₀ : St) (i : Fin 10) (s : St) : Prop where
  closed : (s₀.fat.openedFiles i).opened = false
  opened : (s.fat.openedFiles i).opened = true
  flags : ∀ j ≠ i, (s.fat.openedFiles j).opened = (s₀.fat.openedFiles j).opened
  frame : ∀ j, (s₀.fat.openedFiles j).opened = true → s.fat.openedFiles j = s₀.fat.openedFiles j

lemma SameSlots.refl (s : St) : SameSlots s s := ⟨fun _ => rfl, fun _ _ => rfl⟩

lemma SameSlots.trans {s₁ s₂ s₃ : St} (h : SameSlots s₁ s₂) (h' : SameSlots s₂ s₃) :
    SameSlots s₁ s₃ :=
  ⟨fun j => (h'.flags j).trans (h.flags j), fun j hj =>
    (h'.frame j ((h.flags j).trans hj)).trans (h.frame j hj)⟩

lemma SameSlots.of_openedFiles (h : SameSlots s₀ s) (heq : s'.fat.openedFiles = s.fat.openedFiles) :
    SameSlots s₀ s' :=
  ⟨by rw [heq]; exact h.flags, by rw [heq]; exact h.frame⟩

theorem SameSlots.stable (L : Layer) (s₀ : St) : Stable L (· = .root) (SameSlots s₀) where
  note _ _ _ h := h.of_openedFiles rfl
  disk _ _ _ _ h := h.of_openedFiles rfl
  refill sector s h := h.of_openedFiles (by unfold refill; split <;> rfl)
  setFd loc _ _ hA _ h := h.of_openedFiles (by subst hA; rfl)

theorem OneMore.stable (L : Layer) (s₀ : St) (i : Fin 10) :
    Stable L (· = .slot i) (OneMore s₀ i) where
  note _ _ _ h := ⟨h.closed, h.opened, h.flags, h.frame⟩
  disk _ _ _ _ h := ⟨h.closed, h.opened, h.flags, h.frame⟩
  refill sector s h := by
    unfold refill
    split
    · exact ⟨h.closed, h.opened, h.flags, h.frame⟩
    · exact h
  setFd loc d s hA hk h := by
    subst hA
    have hne : ∀ j ≠ i, (s.setFd (.slot i) d).fat.openedFiles j = s.fat.openedFiles j :=
      fun j hj => Function.update_of_ne hj _ _
    refine ⟨h.closed, ?_, fun j hj => by rw [hne j hj]; exact h.flags j hj, fun j hj => ?_⟩
    · simp only [St.setFd_fat, FatData.setFd, Function.update_self]
      exact hk.opened.trans h.opened
    · rw [hne j fun hji => by rw [hji, h.closed] at hj; cases hj]
      exact h.frame j hj

lemma OneMore.close (h : OneMore s₀ i s) :
    SameSlots s₀ (s.setFd (.slot i) { s.fat.openedFiles i with opened := false }) := by
  have hne : ∀ j ≠ i, (s.setFd (.slot i) { s.fat.openedFiles i with
      opened := false }).fat.openedFiles j = s.fat.openedFiles j :=
    fun j hj => Function.update_of_ne hj _ _
  refine ⟨fun j => ?_, fun j hj => ?_⟩
  · by_cases hj : j = i
    · subst hj
      simp only [St.setFd_fat, FatData.setFd, Function.update_self]
      exact h.closed.symm
    · rw [hne j hj]; exact h.flags j hj
  · rw [hne j fun hji => by rw [hji, h.closed] at hj; cases hj]
    exact h.frame j hj

/-! ### The table along a walk -/

/-- What `FAT_Open` has done to the table when `file` is its current file. -/
def Balanced (s₀ : St) (file : Option Loc) (s : St) : Prop :=
  match file with
  | some (.slot i) => OneMore s₀ i s ∧ (s.fat.openedFiles i).pub.handle = ((i : ℕ) : ℤ) ∧
      (s.fat.openedFiles i).pub.position = 0
  | _ => SameSlots s₀ s

lemma openEntry_named (entry : DirectoryEntry) (h : Named s) : Named (openEntry L entry s).2 :=
  (named_stable L).openEntry entry h

theorem openEntry_balanced (entry : DirectoryEntry) (h : SameSlots s₀ s) :
    Balanced s₀ (openEntry L entry s).1 (openEntry L entry s).2 := by
  rcases openEntry_slots L entry s with ⟨h1, hsame⟩ | ⟨i, h1, hclosed, hopened, hother⟩
  · rw [h1]
    exact h.trans ⟨fun j => (hsame j).1, fun j => (hsame j).2⟩
  · have hsome : openEntry L entry s = (some (.slot i), (openEntry L entry s).2) := Prod.ext h1 rfl
    obtain ⟨k, hk, -, -, hs⟩ := openEntry_some hsome
    cases hk
    have hfd : (openEntry L entry s).2.fat.openedFiles i = openedRecord L entry i s := by
      rw [hs]
      exact Function.update_self _ _ _
    rw [h1]
    refine ⟨⟨by rw [← h.flags i]; exact hclosed, hopened, fun j hj => ?_, fun j hj => ?_⟩, ?_, ?_⟩
    · rw [hother j hj]; exact h.flags j
    · rw [hother j fun hji => by rw [hji, ← h.flags i, hclosed] at hj; cases hj]
      exact h.frame j hj
    · rw [hfd]; rfl
    · rw [hfd]; rfl

/-- Looking a component up and closing the current file gives the table before the call. -/
theorem lookup_sameSlots {w : Walk} {name : NameBuffer} {rest : List UInt8}
    {found : Option DirectoryEntry} (hn : Named s) (hb : Balanced s₀ w.current s)
    (h : lookup L fuel w s = (.ok (name, rest, found), s')) : Named s' ∧ SameSlots s₀ s' := by
  obtain ⟨isLast, t, -, hf, hcl⟩ := lookup_ok h
  have hread : t = (findFile L fuel w.current (List.ofFn name) s).2 := by rw [hf]
  have hclose : s' = (close w.current t).2 := by rw [hcl]
  rcases hw : w.current with _ | _ | i
  · rw [hw] at hcl
    cases hcl
  · rw [hw] at hb hread hclose
    have ht : Named t ∧ SameSlots s₀ t := hread ▸
      (((named_stable L).mono fun _ _ => trivial).and (SameSlots.stable L s₀)).findFile
        (fun s hs loc hloc => by rw [hs.1.deref_root] at hloc; cases hloc; rfl) fuel _
        ⟨(named_stable L).search _ _ s hn, SameSlots.of_openedFiles hb rfl⟩
    refine ⟨hclose ▸ (named_stable L).close _ _ ht.1, ?_⟩
    rw [hclose, close_root ht.1.deref_root]
    exact ht.2.of_openedFiles rfl
  · rw [hw] at hb hread hclose
    have ht : Named t ∧ OneMore s₀ i t := hread ▸
      (((named_stable L).mono fun _ _ => trivial).and (OneMore.stable L s₀ i)).findFile
        (fun s hs loc hloc => by rw [hs.1.deref_slot hs.2.opened] at hloc; cases hloc; rfl) fuel _
        ⟨(named_stable L).search _ _ s hn, hb.1.closed, hb.1.opened, hb.1.flags, hb.1.frame⟩
    refine ⟨hclose ▸ (named_stable L).close _ _ ht.1, ?_⟩
    rw [hclose, close_slot (ht.1.deref_slot ht.2.opened)]
    exact ht.2.close

/-- **One round of `FAT_Open` keeps the table balanced.** -/
theorem openStep_balanced {w w' : Walk} (hn : Named s) (hb : Balanced s₀ w.current s)
    (h : openStep L fuel w s = (.ok (.inl w'), s')) : Named s' ∧ Balanced s₀ w'.current s' := by
  rw [openStep_eq] at h
  split at h
  · cases h
  split at h
  · cases h
  · next hl =>
    obtain ⟨hn', hs⟩ := lookup_sameSlots hn hb hl
    cases h
    exact ⟨openEntry_named _ hn', openEntry_balanced _ hs⟩
  · cases h

theorem openStep_result {w : Walk} {file : Option Loc} (hn : Named s)
    (hb : Balanced s₀ w.current s) (h : (openStep L fuel w s).1 = .ok (.inr file)) :
    Named (openStep L fuel w s).2 ∧ Balanced s₀ file (openStep L fuel w s).2 := by
  rw [openStep_eq] at h ⊢
  split at h
  · next hp =>
    cases h
    rw [if_pos hp]
    exact ⟨hn, hb⟩
  next hp =>
  rw [if_neg hp]
  split at h
  · cases h
  · cases h
  · next hl =>
    cases h
    obtain ⟨hn', hs⟩ := lookup_sameSlots hn hb hl
    exact ⟨⟨hn'.root, hn'.slot⟩, hs.of_openedFiles rfl⟩

theorem openPath_balanced {path : List UInt8} {name : NameBuffer} {file : Option Loc}
    (hn : Named s) (h : openPath L fuel path name s = (.ok file, s')) :
    Named s' ∧ Balanced s file s' := by
  obtain ⟨w, t, hw, hend⟩ := openLoop_last L fuel (path.length + 1)
    (startWalk path name) s (stripSlash_length path)
  have ht : Named t ∧ Balanced s w.current t :=
    hw.invariant (P := fun w t => Named t ∧ Balanced s w.current t)
      (fun _ _ _ _ hs ho => openStep_balanced hs.1 hs.2 ho) ⟨hn, SameSlots.refl s⟩
  rcases hend with ⟨file', hlast, heq⟩ | ⟨e, -, heq⟩
  · rw [show openLoop L fuel (path.length + 1) (startWalk path name) s =
      openPath L fuel path name s from rfl, h] at heq
    cases heq
    exact openStep_result ht.1 ht.2 hlast
  · rw [show openLoop L fuel (path.length + 1) (startWalk path name) s =
      openPath L fuel path name s from rfl, h] at heq
    cases heq

/-! ### Runs of opening and closing -/

/-- A path is opened, and what comes of it closed. -/
def openClose (L : Layer) (fuel : ℕ) (c : List UInt8 × NameBuffer) (s : St) :
    Except Stop Unit × St :=
  match openPath L fuel c.1 c.2 s with
  | (.error e, s) => (.error e, s)
  | (.ok none, s) => (.ok (), s)
  | (.ok (some p), s) => close (some p) s

/-- `FAT_Open` returns. -/
def OpenReturns (L : Layer) (fuel : ℕ) (s : St) (c : List UInt8 × NameBuffer) : Prop :=
  ∃ file, (openPath L fuel c.1 c.2 s).1 = .ok file

theorem openClose_sameSlots {c : List UInt8 × NameBuffer} (hn : Named s)
    (h : OpenReturns L fuel s c) :
    Named (openClose L fuel c s).2 ∧ SameSlots s (openClose L fuel c s).2 := by
  obtain ⟨file, hfile⟩ := h
  have heq : openPath L fuel c.1 c.2 s = (.ok file, (openPath L fuel c.1 c.2 s).2) :=
    Prod.ext hfile rfl
  obtain ⟨hn', hb⟩ := openPath_balanced hn heq
  generalize (openPath L fuel c.1 c.2 s).2 = t at heq hn' hb
  unfold openClose
  rw [heq]
  rcases file with _ | _ | i
  · exact ⟨hn', hb⟩
  · refine ⟨(named_stable L).close _ _ hn', ?_⟩
    dsimp only
    rw [close_root hn'.deref_root]
    exact SameSlots.of_openedFiles hb rfl
  · refine ⟨(named_stable L).close _ _ hn', ?_⟩
    dsimp only
    rw [close_slot (hn'.deref_slot hb.1.opened)]
    exact hb.1.close

/-- **Handle accounting.** A slot that `FAT_OpenEntry` hands out was closed, and no more than that slot is
opened; `FAT_Open` balances the table; runs of opening and closing leave it as it was. -/
theorem handles_accounted (L : Layer) (s : St) (hr : Reachable L s) :
    (∀ entry, ((openEntry L entry s).1 = none ∧ SameSlots s (openEntry L entry s).2) ∨
      ∃ i, (openEntry L entry s).1 = some (.slot i) ∧ OneMore s i (openEntry L entry s).2) ∧
    (∀ fuel path name file s', openPath L fuel path name s = (.ok file, s') → Balanced s file s') ∧
    ∀ fuel calls, Along (openClose L fuel) (OpenReturns L fuel) calls s →
      SameSlots s (final (openClose L fuel) calls s) := by
  refine ⟨fun entry => ?_, fun fuel path name file s' h => (openPath_balanced hr.named h).2,
    fun fuel calls h => ?_⟩
  · have hb := openEntry_balanced (L := L) entry (SameSlots.refl s)
    rcases openEntry_slots L entry s with ⟨h1, -⟩ | ⟨i, h1, -⟩
    · rw [h1] at hb
      exact .inl ⟨h1, hb⟩
    · rw [h1] at hb
      exact .inr ⟨i, h1, hb.1⟩
  · exact (final_inv (P := fun t => Named t ∧ SameSlots s t) (fun t c ht hc =>
      ⟨(openClose_sameSlots ht.1 hc).1, ht.2.trans (openClose_sameSlots ht.1 hc).2⟩) calls s
      ⟨hr.named, SameSlots.refl s⟩ h).2

/-- The directory `A` is opened twice in a row, and the table is as it was. -/
theorem handles_accounted_small : SameSlots (mounted smallLayer) (final (openClose smallLayer 20)
    [([65], fun _ => 0), ([65], fun _ => 0)] (mounted smallLayer)) :=
  (handles_accounted smallLayer _ (mounted_reachable smallLayer_mounts)).2.2 20 _
    ⟨⟨some (.slot 0), by decide +kernel⟩, ⟨some (.slot 0), by decide +kernel⟩, trivial⟩

end ArcOS.Fat
