import ArcOS.Fat.Accounting
import ArcOS.Fat.ReadBounds

/-!
Where a NULL `FAT_File*` comes from, and where it goes.

`FAT_Open` does not look at what `FAT_OpenEntry` returns before its next round, and its callers
`FAT_ReadFile` and `FAT_ReadDirectory` do not look at what `FAT_Open` returns. `openPath_sound_iff`
says when the first does no harm; the second always does (`open_null_used`).
-/

namespace ArcOS.Fat

open Lib Lib.Transducer

variable {L : Layer} {fuel : ℕ} {w : Walk} {s s' t : St}

/-! ### Searching a directory -/

lemma deref_stable (L : Layer) (file : Option Loc) (r : Except Stop Loc) :
    Stable L (fun _ => True) fun s => s.fat.deref file = r where
  note _ _ _ h := h
  disk _ _ _ _ h := h
  refill sector s h := by unfold refill; split <;> exact h
  setFd loc d s _ hk h := by
    rw [← h]
    cases file with
    | none => rfl
    | some p =>
      by_cases hp : p = loc
      · subst hp
        simp only [FatData.deref, St.setFd_fat, FatData.fd_setFd, hk.handle]
      · simp only [FatData.deref, St.setFd_fat, FatData.fd_setFd_of_ne _ _ hp]

lemma readEntry_returns {file : Option Loc} {loc : Loc} (h : s.fat.deref file = .ok loc) :
    ∃ found, (readEntry L file s).1 = .ok found := by
  obtain ⟨x, hx⟩ := readLoop_returns L loc _ (cappedCount (s.fat.fd loc).pub 32) s le_rfl
  exact ⟨_, by simp only [readEntry, read, h, hx]; rfl⟩

lemma findLoop_error {file : Option Loc} {loc : Loc} {short : Bytes 12} {e : Stop}
    (h : s.fat.deref file = .ok loc) (he : (findLoop L file short fuel s).1 = .error e) :
    e = .outOfFuel := by
  induction fuel generalizing s with
  | zero => cases he; rfl
  | succ fuel ih =>
    obtain ⟨found, hfound⟩ := readEntry_returns (L := L) h
    have hd : (readEntry L file s).2.fat.deref file = _ :=
      (deref_stable L file _).readEntry (fun _ _ => trivial) h
    unfold findLoop at he
    split at he
    · next heq => rw [heq] at hfound; cases hfound
    · cases he
    · next heq =>
      rw [heq] at hd
      split at he
      · cases he
      · exact ih hd he

theorem findFile_error {file : Option Loc} {loc : Loc} {name : List UInt8} {e : Stop}
    (h : s.fat.deref file = .ok loc) (he : (findFile L fuel file name s).1 = .error e) :
    e = .outOfFuel :=
  findLoop_error (s := s.note (.findFile s.fat file name)) h he

/-! ### When `FAT_Open` is sound -/

/-- `FAT_OpenEntry` finds a free slot and can read the first sector. -/
def EntryOpens (L : Layer) (entry : DirectoryEntry) (s : St) : Prop :=
  ∃ i, s.fat.freeSlot = some i ∧ (firstSector L entry i s).1 = true

/-- A round of `FAT_Open` does not go wrong: the component fits into the local buffer, the search for
it ends, and what is found can be opened unless it is the last component. -/
structure RoundFine (L : Layer) (fuel : ℕ) (w : Walk) (s : St) : Prop where
  fits : ∀ e, component w.path w.name ≠ .error e
  ends : ∀ name rest isLast, component w.path w.name = .ok (name, rest, isLast) →
    (findFile L fuel w.current (List.ofFn name) s).1 ≠ .error .outOfFuel
  opens : ∀ name rest entry t, lookup L fuel w s = (.ok (name, rest, some entry), t) → rest ≠ [] →
    EntryOpens L entry t

/-- `FAT_Open` returns without using a NULL file, which would have stopped it, and returns NULL if
`FAT_OpenEntry` fails on any component. -/
structure OpenSound (L : Layer) (fuel : ℕ) (path : List UInt8) (name : NameBuffer) (s : St) :
    Prop where
  returns : ∃ file, (openPath L fuel path name s).1 = .ok file
  propagates : ∀ w t name' rest entry t', Walks L fuel (startWalk path name) s w t → w.path ≠ [] →
    lookup L fuel w t = (.ok (name', rest, some entry), t') → (openEntry L entry t').1 = none →
      (openPath L fuel path name s).1 = .ok none

lemma openEntry_eq_none {entry : DirectoryEntry} :
    (openEntry L entry s).1 = none ↔ ¬ EntryOpens L entry s := by
  unfold EntryOpens
  cases h : s.fat.freeSlot with
  | none => simp [openEntry_full h]
  | some i => simp [(openEntry_free entry h).1]

lemma openStep_null (L : Layer) (fuel : ℕ) (w : Walk) (s : St) (hp : w.path ≠ []) (hw : w.current = none) :
    ∃ e, (openStep L fuel w s).1 = .error e := by
  rw [openStep_eq, if_neg hp]
  rcases hl : lookup L fuel w s with ⟨e | ⟨name, rest, found⟩, t⟩
  · exact ⟨e, rfl⟩
  · obtain ⟨isLast, t', -, -, hcl⟩ := lookup_ok hl
    rw [hw] at hcl
    cases hcl

lemma lookup_error {e : Stop} (hn : Named s) (hb : Balanced t w.current s)
    (hw : w.current ≠ none) (h : (lookup L fuel w s).1 = .error e) :
    component w.path w.name = .error e ∨ ∃ name rest isLast,
      component w.path w.name = .ok (name, rest, isLast) ∧
        (findFile L fuel w.current (List.ofFn name) s).1 = .error .outOfFuel := by
  have hderef : ∃ loc, s.fat.deref w.current = .ok loc ∧ w.current = some loc := by
    rcases hc : w.current with _ | _ | i
    · exact absurd hc hw
    · exact ⟨.root, hn.deref_root, rfl⟩
    · rw [hc] at hb
      exact ⟨.slot i, hn.deref_slot hb.1.opened, rfl⟩
  obtain ⟨loc, hloc, hcur⟩ := hderef
  unfold lookup at h
  split at h
  · next hc => cases h; exact .inl hc
  next name rest isLast hc =>
  refine .inr ⟨name, rest, isLast, hc, ?_⟩
  split at h
  · next hf => rw [hf]; cases findFile_error hloc (by rw [hf]); rfl
  next t' hf =>
  have hd : (findFile L fuel w.current (List.ofFn name) s).2.fat.deref w.current = _ :=
    (deref_stable L w.current _).findFile (fun _ _ _ _ => trivial) fuel _ hloc
  rw [hf] at hd
  have hclose : ∃ x, (close w.current t').1 = .ok x := by
    rw [hcur] at hd ⊢
    cases loc with
    | root => exact ⟨(), by rw [close_root hd]⟩
    | slot i => exact ⟨(), by rw [close_slot hd]⟩
  obtain ⟨x, hx⟩ := hclose
  split at h
  · next hcl => rw [hcl] at hx; cases hx
  · cases h

/-- A sound run of `FAT_Open` has no round that goes wrong. -/
lemma OpenSound.roundFine {path : List UInt8} {name : NameBuffer} (h : OpenSound L fuel path name s)
    (hw : Walks L fuel (startWalk path name) s w t) (hp : w.path ≠ []) : RoundFine L fuel w t := by
  obtain ⟨file, hfile⟩ := h.returns
  have hno : ∀ e, (openStep L fuel w t).1 ≠ .error e := fun e h => by
    rw [openPath_stops hw h] at hfile
    cases hfile
  refine ⟨fun e h => hno e ?_, fun name' rest isLast hc h => hno .outOfFuel ?_,
    fun name' rest entry t' hl hrest => ?_⟩
  · rw [openStep_eq, if_neg hp]
    simp only [lookup, h]
  · rw [openStep_eq, if_neg hp]
    rcases hf : findFile L fuel w.current (List.ofFn name') t with ⟨e | found, t'⟩
    · rw [hf] at h; cases h
      simp only [lookup, hc, hf]
    · rw [hf] at h; cases h
  · by_contra hopen
    -- the next round of the walk is on NULL
    have hstep := openStep_failed hp hl (openEntry_eq_none.mpr hopen)
    obtain ⟨e, he⟩ := openStep_null L fuel ⟨rest, none, name'⟩ (openEntry L entry t').2 hrest rfl
    rw [openPath_stops (hw.snoc hstep) he] at hfile
    cases hfile

/-- Where no round goes wrong, the table is balanced along the walk, and the current file is not NULL
while path is left. -/
lemma walks_balanced (hr : Reachable L s) {path : List UInt8} {name : NameBuffer}
    (hfine : ∀ w t, Walks L fuel (startWalk path name) s w t → w.path ≠ [] → RoundFine L fuel w t)
    (hw : Walks L fuel (startWalk path name) s w t) :
    Named t ∧ Balanced s w.current t ∧ (w.path ≠ [] → w.current ≠ none) := by
  have h := hw.invariant (P := fun w t => Walks L fuel (startWalk path name) s w t ∧ Named t ∧
    Balanced s w.current t ∧ (w.path ≠ [] → w.current ≠ none)) ?_
    ⟨.refl _ _, hr.named, SameSlots.refl s, fun _ h => by cases h⟩
  · exact h.2
  rintro w t w' t' ⟨hw, hn, hb, -⟩ ho
  obtain ⟨hn', hb'⟩ := openStep_balanced hn hb ho
  refine ⟨hw.snoc ho, hn', hb', fun hp' hnone => ?_⟩
  obtain ⟨hp, name', entry, u, hl, hcur⟩ := openStep_goesOn ho
  exact openEntry_eq_none.mp (hcur ▸ hnone) ((hfine w t hw hp).opens _ _ _ _ hl hp')

/-- **`FAT_Open` is sound exactly when no round goes wrong**: when every component that the walk
comes to fits, every search ends, and `FAT_OpenEntry` fails on the last component only. -/
theorem openPath_sound_iff (L : Layer) (fuel : ℕ) (path : List UInt8) (name : NameBuffer) (s : St)
    (hr : Reachable L s) : OpenSound L fuel path name s ↔
      ∀ w t, Walks L fuel (startWalk path name) s w t → w.path ≠ [] → RoundFine L fuel w t := by
  constructor
  · intro h w t hw hp
    exact h.roundFine hw hp
  · intro hfine
    refine ⟨?_, fun w t name' rest entry t' hw hp hl hnone => ?_⟩
    · obtain ⟨w, t, hw, ⟨file, -, heq⟩ | ⟨e, he, -⟩⟩ := openLoop_last L fuel
        (path.length + 1) (startWalk path name) s (stripSlash_length path)
      · exact ⟨file, by rw [openPath_eq, heq]⟩
      · obtain ⟨hn, hb, hcur⟩ := walks_balanced hr hfine hw
        obtain ⟨hp, hl⟩ := openStep_stops he
        have hf := hfine w t hw hp
        rcases lookup_error hn hb (hcur hp) hl with hc | ⟨name', rest, isLast, hc, hend⟩
        · exact absurd hc (hf.fits e)
        · exact absurd hend (hf.ends _ _ _ hc)
    · have hrest : rest = [] := by
        by_contra hrest
        exact openEntry_eq_none.mp hnone ((hfine w t hw hp).opens _ _ _ _ hl hrest)
      exact openPath_ends (hw.snoc (openStep_failed hp hl hnone)) hrest

/-- The volume with every slot in use. -/
def fullTable : St :=
  final (fun c => call smallLayer 0 c) (List.replicate 10 (.openEntry (dirEntry [66] 0 3 0)))
    (mounted smallLayer)

/-- With every slot in use, `A/B` is looked up through a NULL file. -/
theorem openPath_full_unsound : Reachable smallLayer fullTable ∧
    (openPath smallLayer 20 [65, 47, 66] (fun _ => 0) fullTable).1 = .error .nullFile ∧
    ¬ OpenSound smallLayer 20 [65, 47, 66] (fun _ => 0) fullTable := by
  have hnull : (openPath smallLayer 20 [65, 47, 66] (fun _ => 0) fullTable).1 = .error .nullFile := by
    decide +kernel
  refine ⟨?_, hnull, fun h => ?_⟩
  · exact final_inv' (fun s c hs => .call 0 c hs) _ _ (mounted_reachable smallLayer_mounts)
  · obtain ⟨file, hfile⟩ := h.returns
    rw [hnull] at hfile
    cases hfile

theorem openPath_sound_iff_small : OpenSound smallLayer 20 [65] (fun _ => 0) (mounted smallLayer) ↔
    ∀ w t, Walks smallLayer 20 (startWalk [65] fun _ => 0) (mounted smallLayer) w t →
      w.path ≠ [] → RoundFine smallLayer 20 w t :=
  openPath_sound_iff smallLayer 20 [65] (fun _ => 0) _ (mounted_reachable smallLayer_mounts)

/-! ### The callers of `FAT_Open` -/

/-- What an unresolvable path should come to: the caller returns without using the NULL file, prints
nothing of a file behind `FAT_Open`, and leaves the open slots as they were. -/
structure Harmless (s s₁ : St) (r : Except Stop Unit × St) : Prop where
  returns : r.1 = .ok ()
  silent : Logged (fun e => ∀ c, e ≠ .putc c) s₁ r.2
  slots : ∀ j, (r.2.fat.openedFiles j).opened = (s.fat.openedFiles j).opened

lemma openPath_zero (L : Layer) (path : List UInt8) (name : NameBuffer) (s : St) :
    (openPath L 0 path name s).1 ≠ .ok none := by
  rw [openPath_eq, openLoop, openStep_eq]
  by_cases hp : (startWalk path name).path = []
  · rw [if_pos hp]
    intro h
    cases h
  · rw [if_neg hp]
    rcases hc : component (startWalk path name).path (startWalk path name).name with
      e | ⟨name', rest, isLast⟩
    · simp [lookup, hc]
    · have hend : (findFile L 0 (startWalk path name).current (List.ofFn name') s).1 = .error .outOfFuel := rfl
      rcases hf : findFile L 0 (startWalk path name).current (List.ofFn name') s with ⟨r, t⟩
      rw [hf] at hend
      dsimp only at hend
      subst hend
      rw [lookup, hc]
      dsimp only
      rw [hf]
      intro h
      cases h

/-- **The callers of `FAT_Open` use NULL**: `FAT_ReadFile` reads it, `FAT_ReadDirectory` reads an entry
of it. -/
theorem open_null_used {path : List UInt8} {name : NameBuffer} {s₁ : St}
    (h : openPath L fuel path name s = (.ok none, s₁)) :
    readFile L fuel path name s = (.error .nullFile, s₁) ∧
      readDirectory L fuel path name s = (.error .nullFile, s₁.note (.printf "\n")) := by
  obtain _ | fuel := fuel
  · exact absurd (by rw [h]) (openPath_zero L path name s)
  constructor
  · simp only [readFile, h, dumpLoop, read, FatData.deref]
  · simp only [readDirectory, h]
    unfold listLoop
    simp only [readEntry, read, FatData.deref, Except.map]

/-- **An unresolvable path is never harmless.** -/
theorem unresolved_not_harmless (L : Layer) (fuel : ℕ) (path : List UInt8) (name : NameBuffer)
    (s s₁ : St) (h : openPath L fuel path name s = (.ok none, s₁)) :
    ¬ Harmless s s₁ (readFile L fuel path name s) ∧
      ¬ Harmless s s₁ (readDirectory L fuel path name s) := by
  obtain ⟨hfile, hdir⟩ := open_null_used h
  rw [hfile, hdir]
  refine ⟨fun h => ?_, fun h => ?_⟩
  · cases h.returns
  · cases h.returns

/-- The state in which `FAT_Open` leaves the small volume when there is no `C`. -/
def afterMissing : St := (openPath smallLayer 20 [99] (fun _ => 0) (mounted smallLayer)).2

lemma openPath_missing : openPath smallLayer 20 [99] (fun _ => 0) (mounted smallLayer) =
    (.ok none, afterMissing) := by
  have h : (openPath smallLayer 20 [99] (fun _ => 0) (mounted smallLayer)).1 = .ok none := by
    decide +kernel
  exact Prod.ext h (by rw [afterMissing])

/-- `cat c` and `ls c` where there is no `C`. -/
theorem missing_null_used : Reachable smallLayer (mounted smallLayer) ∧
    openPath smallLayer 20 [99] (fun _ => 0) (mounted smallLayer) = (.ok none, afterMissing) ∧
    (readFile smallLayer 20 [99] (fun _ => 0) (mounted smallLayer)).1 = .error .nullFile ∧
    (readDirectory smallLayer 20 [99] (fun _ => 0) (mounted smallLayer)).1 = .error .nullFile :=
  ⟨mounted_reachable smallLayer_mounts, openPath_missing, by decide +kernel, by decide +kernel⟩

theorem unresolved_not_harmless_small :
    ¬ Harmless (mounted smallLayer) afterMissing
        (readFile smallLayer 20 [99] (fun _ => 0) (mounted smallLayer)) ∧
      ¬ Harmless (mounted smallLayer) afterMissing
        (readDirectory smallLayer 20 [99] (fun _ => 0) (mounted smallLayer)) :=
  unresolved_not_harmless _ _ _ _ _ _ openPath_missing

end ArcOS.Fat
