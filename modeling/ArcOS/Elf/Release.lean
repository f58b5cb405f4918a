import ArcOS.Elf.Header
import ArcOS.Fat.Accounting

/-!
The file handle of `ELF_Read`.

Every part of a run that gives up does so where a read has brought too few bytes (`Ends`), and returns
past `FAT_Close`. `elfRead_releases_iff` says when the slots that are open are those of the call.
-/

namespace ArcOS.Elf

open Lib Fat

variable {dev : Device} {part : Partition} {overlay : Overlay} {s s' s'' : Loader} {s₀ : St} {p : Loc}
  {done : Bool}

/-! ### The reads of a run -/

/-- A read brings as many bytes as it asks for. -/
def LoadEvent.Delivered (dev : Device) (part : Partition) : LoadEvent → Prop
  | .opened _ _ => True
  | .read file n _ u => ∃ stored, (Boot.fatRead dev part file n u).1 = .ok (n, stored)
  | .written _ _ => True

/-- The event is a call of `FAT_Read`. -/
def LoadEvent.isRead : LoadEvent → Bool
  | .opened _ _ => false
  | .read _ _ _ _ => true
  | .written _ _ => false

/-- The reads whose result the loader looks at, in their order: all but the second, which skips the bytes
between the header and the table. -/
def checkedReads (log : List LoadEvent) : List LoadEvent := (log.filter LoadEvent.isRead).reverse.eraseIdx 1

/-- A part of a run ends: it goes on, and all of its reads were delivered, or it gives up, and one was not. -/
def Ends (dev : Device) (part : Partition) (done : Bool) (s s' : Loader) : Prop :=
  ∃ l, s'.log = l ++ s.log ∧ (done = true ↔ ∀ e ∈ l, e.Delivered dev part)

lemma Ends.refl (s : Loader) : Ends dev part true s s := ⟨[], rfl, by simp⟩

lemma Ends.trans (h : Ends dev part true s s') (h' : Ends dev part done s' s'') :
    Ends dev part done s s'' := by
  obtain ⟨l, hl, hall⟩ := h
  obtain ⟨l', hl', hall'⟩ := h'
  refine ⟨l' ++ l, by rw [hl', hl, List.append_assoc], hall'.trans ?_⟩
  rw [List.forall_mem_append]
  exact (and_iff_left (hall.mp rfl)).symm

lemma Ends.of_opened {r : Except Stop (Option Loc)} {u : St} (h : s'.log = .opened r u :: s.log) :
    Ends dev part true s s' :=
  ⟨[_], h, by simp [LoadEvent.Delivered]⟩

lemma fatRead_event {file : Option Loc} {n dataOut count : UInt32}
    (h : fatRead dev part file n dataOut s = (.ok count, s')) :
    s'.log = .read file n dataOut s.fat :: s.log ∧ s'.fat = (Boot.fatRead dev part file n s.fat).2 ∧
      (count = n ↔ (LoadEvent.read file n dataOut s.fat).Delivered dev part) := by
  unfold fatRead at h
  dsimp only at h
  split at h
  · cases h
  · next count' stored heq =>
    cases h
    refine ⟨rfl, rfl, ?_⟩
    rw [LoadEvent.Delivered, heq]
    constructor
    · rintro rfl
      exact ⟨stored, rfl⟩
    · rintro ⟨stored', hok⟩
      cases hok
      rfl

lemma readAll_event {file : Option Loc} {n dataOut : UInt32} {text : String}
    (h : readAll dev part file n dataOut text s = (.ok done, s')) :
    s'.log = .read file n dataOut s.fat :: s.log ∧
      (s'.fat = (Boot.fatRead dev part file n s.fat).2 ∨
        s'.fat = (Boot.fatRead dev part file n s.fat).2.note (.printf text)) ∧
      (done = true ↔ (LoadEvent.read file n dataOut s.fat).Delivered dev part) := by
  unfold readAll at h
  split at h
  · cases h
  · next count t heq =>
    obtain ⟨hlog, hfat, hcount⟩ := fatRead_event heq
    split at h
    · next hn =>
      cases h
      exact ⟨hlog, Or.inl hfat, iff_of_true rfl (hcount.mp hn)⟩
    · next hn =>
      cases h
      refine ⟨hlog, Or.inr ?_, iff_of_false (by simp) (hcount.not.mp hn)⟩
      rw [← hfat]
      rfl

lemma readAll_ends {file : Option Loc} {n dataOut : UInt32} {text : String}
    (h : readAll dev part file n dataOut text s = (.ok done, s')) : Ends dev part done s s' := by
  obtain ⟨hlog, -, hdone⟩ := readAll_event h
  exact ⟨[_], hlog, by simpa using hdone⟩

/-! ### The slot that is held -/

/-- Compared with `s₀`, nothing is open but the file: a slot that was not, or the root directory. -/
def Holds (s₀ : St) : Loc → St → Prop
  | .root, s => Named s ∧ SameSlots s₀ s
  | .slot i, s => Named s ∧ OneMore s₀ i s

lemma Holds.named {s : St} (h : Holds s₀ p s) : Named s := by
  cases p with
  | root => exact h.1
  | slot i => exact h.1

lemma Holds.deref {s : St} (h : Holds s₀ p s) : s.fat.deref (some p) = .ok p := by
  cases p with
  | root => exact h.1.deref_root
  | slot i => exact h.1.deref_slot h.2.opened

lemma Holds.stable (L : Layer) (s₀ : St) (p : Loc) : Stable L (· = p) (Holds s₀ p) := by
  cases p with
  | root => exact ((named_stable L).mono fun _ _ => trivial).and (SameSlots.stable L s₀)
  | slot i => exact ((named_stable L).mono fun _ _ => trivial).and (OneMore.stable L s₀ i)

section Steps

variable {t : St} (h : Holds s₀ p t)
include h

lemma Holds.read (L : Layer) (n : UInt32) : Holds s₀ p (Fat.read L (some p) n t).2 :=
  (Holds.stable L s₀ p).read n (fun loc hloc => by rw [h.deref] at hloc; exact (Except.ok.inj hloc).symm) h

lemma Holds.note (L : Layer) (text : String) : Holds s₀ p (t.note (.printf text)) :=
  (Holds.stable L s₀ p).note _ _ trivial h

lemma Holds.close (L : Layer) :
    Named (Fat.close (some p) t).2 ∧ SameSlots s₀ (Fat.close (some p) t).2 := by
  refine ⟨(named_stable L).close (some p) t h.named, ?_⟩
  cases p with
  | root =>
    rw [close_root h.deref]
    exact h.2.of_openedFiles rfl
  | slot i =>
    rw [close_slot h.deref]
    exact h.2.close

lemma Holds.same_iff : (∀ i, (t.fat.openedFiles i).opened = (s₀.fat.openedFiles i).opened) ↔ p = .root := by
  cases p with
  | root => exact iff_of_true h.2.flags rfl
  | slot i =>
    refine iff_of_false (fun hall => ?_) (by simp)
    have hi := hall i
    rw [h.2.opened, h.2.closed] at hi
    cases hi

end Steps

lemma openPath_holds {t t' : St} {fuel : ℕ} {path : List UInt8} {name : NameBuffer} {L : Layer}
    (hn : Named t) (hs : SameSlots s₀ t) (h : openPath L fuel path name t = (.ok (some p), t')) :
    Holds s₀ p t' := by
  obtain ⟨hn', hb⟩ := openPath_balanced hn h
  cases p with
  | root => exact ⟨hn', hs.trans hb⟩
  | slot i =>
    obtain ⟨hmore, -⟩ := hb
    refine ⟨hn', (hs.flags i).symm.trans hmore.closed, hmore.opened,
      fun j hj => (hmore.flags j hj).trans (hs.flags j), fun j hj => ?_⟩
    exact (hmore.frame j ((hs.flags j).trans hj)).trans (hs.frame j hj)

lemma openPath_root {t t' : St} {fuel : ℕ} {path : List UInt8} {name : NameBuffer} {L : Layer}
    (h : openPath L fuel path name t = (.ok (some p), t')) : p = .root ↔ stripSlash path = [] := by
  by_cases hempty : stripSlash path = []
  · have hend : (openPath L fuel path name t).1 = .ok (some .root) :=
      openPath_ends (.refl (startWalk path name) t) hempty
    rw [h] at hend
    cases hend
    exact iff_of_true rfl hempty
  · refine iff_of_false (fun hroot => ?_) hempty
    subst hroot
    obtain ⟨w, u, hw, hend⟩ := openLoop_last L fuel (path.length + 1) (startWalk path name) t
      (stripSlash_length path)
    -- a file that is reached by a component is never the root directory
    have hslot : w.path ≠ [] ∨ w.current ≠ some .root := by
      refine hw.invariant (P := fun w _ => w.path ≠ [] ∨ w.current ≠ some .root) ?_ (Or.inl hempty)
      intro w u w' u' _ ho
      obtain ⟨-, name, entry, v, -, hcurrent⟩ := openStep_goesOn ho
      rw [hcurrent]
      right
      rcases openEntry_slots L entry v with ⟨hnone, -⟩ | ⟨i, hsome, -⟩
      · rw [hnone]
        simp
      · rw [hsome]
        simp
    rw [← openPath_eq, h] at hend
    rcases hend with ⟨file, hlast, heq⟩ | ⟨e, -, heq⟩
    · cases heq
      rw [openStep_eq] at hlast
      split at hlast
      · next hp =>
        have hcurrent := Except.ok.inj hlast
        exact (hslot.resolve_left (not_not.mpr hp)) (Sum.inr.inj hcurrent)
      · split at hlast <;> cases hlast
    · cases heq

/-! ### A run -/

lemma readAll_holds {n dataOut : UInt32} {text : String} (h : Holds s₀ p s.fat)
    (hrun : readAll dev part (some p) n dataOut text s = (.ok done, s')) :
    Holds s₀ p s'.fat ∧ Ends dev part done s s' := by
  refine ⟨?_, readAll_ends hrun⟩
  obtain ⟨-, hfat | hfat, -⟩ := readAll_event hrun
  · rw [hfat]
    exact h.read (bootLayer dev part) n
  · rw [hfat]
    exact (h.read (bootLayer dev part) n).note (bootLayer dev part) text

/-- A round of a loop that reads a piece, and goes on where the piece comes in full. -/
lemma round_holds {n dataOut : UInt32} {text : String} {rest : Loader → Except Stop Bool × Loader}
    (hrest : ∀ t : Loader, Holds s₀ p t.fat → rest t = (.ok done, s') →
      Holds s₀ p s'.fat ∧ Ends dev part done t s')
    (h : Holds s₀ p s.fat)
    (hrun : (match readAll dev part (some p) n dataOut text s with
      | (.ok true, t) => rest t
      | r => r) = (.ok done, s')) :
    Holds s₀ p s'.fat ∧ Ends dev part done s s' := by
  split at hrun
  · next t hread =>
    obtain ⟨ht, hends⟩ := readAll_holds h hread
    obtain ⟨hs', hmore⟩ := hrest t ht hrun
    exact ⟨hs', hends.trans hmore⟩
  · exact readAll_holds h hrun

lemma seekLoop_holds {ph : UInt32} : ∀ {rounds : ℕ} {s : Loader}, Holds s₀ p s.fat →
    seekLoop dev part (some p) ph rounds s = (.ok done, s') →
    Holds s₀ p s'.fat ∧ Ends dev part done s s' := by
  intro rounds
  induction rounds with
  | zero =>
    intro s h hrun
    rw [seekLoop] at hrun
    split at hrun
    · cases hrun
    · cases hrun
      exact ⟨h, .refl _⟩
  | succ rounds ih =>
    intro s h hrun
    rw [seekLoop] at hrun
    split at hrun
    · refine round_holds (fun t ht hmore => ?_) h hrun
      obtain ⟨hs', hends⟩ := ih (by exact ht) hmore
      exact ⟨hs', hends⟩
    · cases hrun
      exact ⟨h, .refl _⟩

lemma written_ends {m : Memory} {address : UInt32} {count : UInt16}
    (hkeeps : ∀ e ∈ (s.written overlay address count m).log, e.KeepsOff) :
    (s.written overlay address count m).fat = s.fat ∧
      Ends dev part true s (s.written overlay address count m) :=
  ⟨if_neg (hkeeps _ (List.mem_cons_self ..)), [.written address count], rfl,
    by simp [LoadEvent.Delivered]⟩

lemma loadLoop_holds {ph : UInt32} : ∀ {rounds : ℕ} {va : UInt32} {s : Loader}, Holds s₀ p s.fat →
    loadLoop dev part overlay (some p) ph rounds va s = (.ok done, s') → (∀ e ∈ s'.log, e.KeepsOff) →
    Holds s₀ p s'.fat ∧ Ends dev part done s s' := by
  intro rounds
  induction rounds with
  | zero =>
    intro va s h hrun _
    rw [loadLoop] at hrun
    split at hrun
    · cases hrun
    · cases hrun
      exact ⟨h, .refl _⟩
  | succ rounds ih =>
    intro va s h hrun hkeeps
    rw [loadLoop] at hrun
    dsimp only at hrun
    split at hrun
    · refine round_holds (fun t ht hmore => ?_) h hrun
      generalize shouldRead (ELFProgramHeader.fileSize (s.header ph)) = n at hmore
      generalize hu : t.setWord (ph + 16) (ELFProgramHeader.fileSize (t.header ph) - n) = u at hmore
      have hlog := loadLoop_log dev part overlay (some p) ph rounds (va + n)
        (u.written overlay va n.toUInt16 (memcpy va loadBuffer n.toUInt16 u.mem))
      rw [hmore] at hlog
      obtain ⟨hkept, hwrite⟩ := written_ends (fun e he => hkeeps e (hlog.subset he))
      obtain ⟨hs', hends⟩ := ih (by rw [hkept, ← hu]; exact ht) hmore hkeeps
      have htu : Ends dev part true t u := ⟨[], by rw [← hu]; rfl, by simp⟩
      exact ⟨hs', (htu.trans hwrite).trans hends⟩
    · cases hrun
      exact ⟨h, .refl _⟩

/-- What a part of a run leaves that opens the file: the table as it was, if the run goes on, and the file
held, if it gives up. -/
def Leaves (s₀ : St) (path : List UInt8) : Bool → St → Prop
  | true, s => Named s ∧ SameSlots s₀ s
  | false, s => ∃ p, Holds s₀ p s ∧ (p = .root ↔ stripSlash path = [])

variable {fuel : ℕ} {path : List UInt8} {name : NameBuffer} {names : ℕ → NameBuffer}

lemma fatOpen_holds {r : Except Stop (Option Loc)} (hn : Named s.fat) (hs : SameSlots s₀ s.fat)
    (hopen : fatOpen dev part fuel path name s = (r, s')) (hres : Resolved s'.log) :
    ∃ p, r = .ok (some p) ∧ Holds s₀ p s'.fat ∧ (p = .root ↔ stripSlash path = []) ∧
      s'.log = .opened r s'.fat :: s.log := by
  unfold fatOpen at hopen
  dsimp only at hopen
  obtain ⟨hr, hstate⟩ := Prod.ext_iff.mp hopen
  dsimp only at hr hstate
  subst hstate
  obtain ⟨p, hp⟩ := hres _ _ (List.mem_cons_self ..)
  have heq : openPath (bootLayer dev part) fuel path name s.fat =
      (.ok (some p), (Boot.fatOpen dev part fuel path name s.fat).2) := Prod.ext hp rfl
  exact ⟨p, hr.symm.trans hp, openPath_holds hn hs heq, openPath_root heq, by rw [hr]⟩

lemma loadFile_leaves {ph va : UInt32} (hn : Named s.fat) (hs : SameSlots s₀ s.fat)
    (hrun : loadFile dev part overlay fuel path name ph va s = (.ok done, s')) (hres : Resolved s'.log)
    (hkeeps : ∀ e ∈ s'.log, e.KeepsOff) : Leaves s₀ path done s'.fat ∧ Ends dev part done s s' := by
  have hsuffix := loadFile_log dev part overlay fuel path name ph va s
  rw [hrun] at hsuffix
  rcases hopen : fatOpen dev part fuel path name s with ⟨r, t⟩
  rw [hopen] at hsuffix
  obtain ⟨p, rfl, ht, hroot, hlog⟩ := fatOpen_holds hn hs hopen (hres.of_suffix hsuffix)
  rw [loadFile, hopen] at hrun
  dsimp only at hrun
  split at hrun
  · next u hseek =>
    obtain ⟨hu, hends⟩ := seekLoop_holds ht hseek
    split at hrun
    · next v hload =>
      have hlogged : v.log = s'.log := by
        rw [← show (fatClose (some p) v).2 = s' from congrArg Prod.snd hrun]
        rfl
      obtain ⟨hv, hends'⟩ := loadLoop_holds hu hload (hlogged ▸ hkeeps)
      have hclose := hv.close (bootLayer dev part)
      unfold fatClose at hrun
      dsimp only at hrun
      rcases hc : close (some p) v.fat with ⟨e | ⟨⟩, w⟩
      · rw [hc] at hrun
        cases hrun
      · rw [hc] at hrun hclose
        cases hrun
        exact ⟨hclose, ((Ends.of_opened hlog).trans hends).trans hends'⟩
    · next hne =>
      obtain ⟨hs', hends'⟩ := loadLoop_holds hu hrun hkeeps
      cases done with
      | true => exact (hne _ hrun).elim
      | false => exact ⟨⟨p, hs', hroot⟩, ((Ends.of_opened hlog).trans hends).trans hends'⟩
  · next hne =>
    obtain ⟨hs', hends⟩ := seekLoop_holds ht hrun
    cases done with
    | true => exact (hne _ hrun).elim
    | false => exact ⟨⟨p, hs', hroot⟩, (Ends.of_opened hlog).trans hends⟩

lemma loadSegment_leaves {ph : UInt32} (hn : Named s.fat) (hs : SameSlots s₀ s.fat)
    (hrun : loadSegment dev part overlay fuel path name ph s = (.ok done, s')) (hres : Resolved s'.log)
    (hkeeps : ∀ e ∈ s'.log, e.KeepsOff) : Leaves s₀ path done s'.fat ∧ Ends dev part done s s' := by
  rw [loadSegment] at hrun
  split at hrun
  · dsimp only at hrun
    generalize ELFProgramHeader.virtualAddress (s.header ph) = va at hrun
    generalize (ELFProgramHeader.memorySize (s.header ph)).toUInt16 = n at hrun
    have hlog := (List.suffix_cons _ _).trans (loadFile_log dev part overlay fuel path name ph va
      (s.written overlay va n (memset va 0 n s.mem)))
    rw [hrun] at hlog
    obtain ⟨hkept, hwrite⟩ := written_ends (fun e he => hkeeps e (hlog.subset he))
    obtain ⟨hleaves, hends⟩ := loadFile_leaves (by rw [hkept]; exact hn) (by rw [hkept]; exact hs) hrun hres
      hkeeps
    exact ⟨hleaves, hwrite.trans hends⟩
  · cases hrun
    exact ⟨⟨hn, hs⟩, .refl _⟩

/-- **Every segment leaves the table as it was, or is the last one.** -/
lemma loadSegments_leaves {entrySize : UInt32} : ∀ {left i : ℕ} {s : Loader}, Named s.fat →
    SameSlots s₀ s.fat → loadSegments dev part overlay fuel path names entrySize left i s = (.ok done, s') →
    Resolved s'.log → (∀ e ∈ s'.log, e.KeepsOff) →
      Leaves s₀ path done s'.fat ∧ Ends dev part done s s' := by
  intro left
  induction left with
  | zero =>
    intro i s hn hs hrun _ _
    cases hrun
    exact ⟨⟨hn, hs⟩, .refl _⟩
  | succ left ih =>
    intro i s hn hs hrun hres hkeeps
    rw [loadSegments] at hrun
    split at hrun
    · next t hsegment =>
      have hsuffix := loadSegments_log dev part overlay fuel path names entrySize left (i + 1) t
      rw [hrun] at hsuffix
      obtain ⟨⟨hn', hs'⟩, hends⟩ := loadSegment_leaves hn hs hsegment (hres.of_suffix hsuffix)
        (fun e he => hkeeps e (hsuffix.subset he))
      obtain ⟨hleaves, hrest⟩ := ih hn' hs' hrun hres hkeeps
      exact ⟨hleaves, hends.trans hrest⟩
    · exact loadSegment_leaves hn hs hrun hres hkeeps

/-- What follows the header: the read that skips bytes is not looked at. -/
lemma loadImage_leaves {position entrySize entryCount : UInt32} (h : Holds s₀ p s.fat)
    (hroot : p = .root ↔ stripSlash path = [])
    (hrun : loadImage dev part overlay fuel path names (some p) position entrySize entryCount s = (.ok done, s'))
    (hres : Resolved s'.log) (hkeeps : ∀ e ∈ s'.log, e.KeepsOff) : Leaves s₀ path done s'.fat ∧
      ∃ t, t.log = .read (some p) (position - headerSize) headerBuffer s.fat :: s.log ∧
        Ends dev part done t s' := by
  rw [loadImage] at hrun
  split at hrun
  · cases hrun
  next gap t hskip =>
  obtain ⟨hlog, hfat, -⟩ := fatRead_event hskip
  have ht : Holds s₀ p t.fat := hfat ▸ h.read (bootLayer dev part) _
  dsimp only at hrun
  split at hrun
  · next u htable =>
    obtain ⟨hu, hends⟩ := readAll_holds ht htable
    have hclose := hu.close (bootLayer dev part)
    unfold fatClose at hrun
    dsimp only at hrun
    rcases hc : close (some p) u.fat with ⟨e | ⟨⟩, w⟩
    · rw [hc] at hrun
      cases hrun
    · rw [hc] at hrun hclose
      obtain ⟨hleaves, hrest⟩ := loadSegments_leaves (s := { u with fat := w }) hclose.1 hclose.2 hrun hres
        hkeeps
      exact ⟨hleaves, t, hlog, hends.trans hrest⟩
  · next hne =>
    obtain ⟨hs', hends⟩ := readAll_holds ht hrun
    cases done with
    | true => exact (hne _ hrun).elim
    | false => exact ⟨⟨p, hs', hroot⟩, t, hlog, hends⟩

lemma checkedReads_append (l : List LoadEvent) {skip header opened : LoadEvent} (hs : skip.isRead = true)
    (hh : header.isRead = true) (ho : opened.isRead = false) :
    checkedReads (l ++ [skip, header, opened]) = header :: (l.filter LoadEvent.isRead).reverse := by
  simp [checkedReads, hs, hh, ho]

lemma delivered_filter {l : List LoadEvent} :
    (∀ e ∈ (l.filter LoadEvent.isRead).reverse, e.Delivered dev part) ↔ ∀ e ∈ l, e.Delivered dev part := by
  simp only [List.mem_reverse, List.mem_filter]
  constructor
  · intro h e he
    cases e with
    | opened r u => trivial
    | read file n d u => exact h _ ⟨he, rfl⟩
    | written a n => trivial
  · exact fun h e he => h e he.1

/-- What a run leaves, and that it goes to its end if all of its checked reads are delivered. -/
theorem elfRead_leaves (hn : Named s.fat) (hempty : s.log = [])
    (hrun : elfRead dev part overlay fuel path names s = (.ok done, s')) (hres : Resolved s'.log)
    (hkeeps : ∀ e ∈ s'.log, e.KeepsOff) : Leaves s.fat path done s'.fat ∧
      (done = true ↔ ∀ e ∈ checkedReads s'.log, e.Delivered dev part) := by
  rcases hopen : fatOpen dev part fuel path (names 0) s with ⟨r, t⟩
  have hsuffix : t.log <:+ s'.log := by
    cases r with
    | error e =>
      rw [elfRead, hopen] at hrun
      cases hrun
    | ok fd =>
      have hlog := elfRead_log hopen hrun
      rw [readAll_log] at hlog
      exact (List.suffix_cons _ _).trans hlog
  obtain ⟨p, rfl, ht, hroot, hlog⟩ :=
    fatOpen_holds hn (SameSlots.refl _) hopen (hres.of_suffix hsuffix)
  rw [elfRead, hopen] at hrun
  dsimp only at hrun
  split at hrun
  · next u hheader =>
    obtain ⟨hu, -⟩ := readAll_holds ht hheader
    obtain ⟨hulog, -, hdelivered⟩ := readAll_event hheader
    obtain ⟨hleaves, v, hvlog, l, hl, hdone⟩ := loadImage_leaves (by exact hu) hroot
      hrun hres hkeeps
    refine ⟨hleaves, hdone.trans ?_⟩
    rw [hl, hvlog, hulog, hlog, hempty, checkedReads_append l rfl rfl rfl, List.forall_mem_cons,
      delivered_filter]
    exact (and_iff_right (hdelivered.mp rfl)).symm
  · next hne =>
    obtain ⟨hs', -⟩ := readAll_holds ht hrun
    obtain ⟨hslog, -, hdelivered⟩ := readAll_event hrun
    cases done with
    | true => exact (hne _ hrun).elim
    | false =>
      refine ⟨⟨p, hs', hroot⟩, hdelivered.trans ?_⟩
      rw [hslog, hlog, hempty]
      simp only [checkedReads, LoadEvent.isRead, List.filter_cons, List.filter_nil, if_true,
        Bool.false_eq_true, if_false, List.reverse_singleton, List.eraseIdx_cons_succ, List.eraseIdx_nil,
        List.forall_mem_singleton]

/-- **When `ELF_Read` releases its file handle.** On any disk, with whatever reads failing, with a path that
`FAT_Open` resolves each time it is called and segments that are not written over the data of the FAT layer:
a run that returns leaves open the slots that were open before, if and only if the path is the root directory
or every checked read brings all its bytes. -/
theorem elfRead_releases_iff (dev : Device) (part : Partition) (s : St)
    (hr : Reachable (bootLayer dev part) s) (overlay : Overlay) (m : Memory) (entryPoint : UInt32) (fuel : ℕ)
    (path : List UInt8) (names : ℕ → NameBuffer) (done : Bool) (s' : Loader)
    (hrun : elfRead dev part overlay fuel path names ⟨s, m, entryPoint, []⟩ = (.ok done, s'))
    (hres : Resolved s'.log) (hkeeps : ∀ e ∈ s'.log, e.KeepsOff) :
    (∀ i, (s'.fat.fat.openedFiles i).opened = (s.fat.openedFiles i).opened) ↔
      stripSlash path = [] ∨ ∀ e ∈ checkedReads s'.log, e.Delivered dev part := by
  obtain ⟨hleaves, hdone⟩ := elfRead_leaves (s := ⟨s, m, entryPoint, []⟩) hr.named rfl hrun hres hkeeps
  rw [← hdone]
  cases done with
  | true => exact iff_of_true hleaves.2.flags (Or.inr rfl)
  | false =>
    obtain ⟨p, hp, hroot⟩ := hleaves
    rw [hp.same_iff, hroot]
    simp

theorem elfRead_releases_iff_small :
    (∀ i, ((runOn smallDevice).2.fat.fat.openedFiles i).opened =
        ((loaderOn smallDevice).fat.fat.openedFiles i).opened) ↔
      stripSlash [75] = [] ∨ ∀ e ∈ checkedReads (runOn smallDevice).2.log,
        e.Delivered smallDevice (hardDiskPartition 0) :=
  elfRead_releases_iff smallDevice (hardDiskPartition 0) (loaderOn smallDevice).fat small_reachable
    (fun _ => id) (fun _ => 1) 0 17 [75] (fun _ => blankName) true (runOn smallDevice).2 small_run
    (resolved_of_checked small_checked) (by decide +kernel)

/-- A file that ends in its table is opened, and the run returns `false` with its slot still open. -/
theorem elfRead_leaks :
    Reachable (bootLayer cutDevice (hardDiskPartition 0)) (loaderOn cutDevice).fat ∧
    Resolved (runOn cutDevice).2.log ∧ (∀ e ∈ (runOn cutDevice).2.log, e.KeepsOff) ∧
    (runOn cutDevice).1 = .ok false ∧
    ((loaderOn cutDevice).fat.fat.openedFiles 0).opened = false ∧
    ((runOn cutDevice).2.fat.fat.openedFiles 0).opened = true := by
  exact ⟨cut_reachable, resolved_of_checked cut_checked, by decide +kernel, by decide +kernel,
    by decide +kernel, by decide +kernel⟩

end ArcOS.Elf
