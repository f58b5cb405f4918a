import ArcOS.Fat.Layers

/-!
What every call preserves.

The functions of the layer touch the state by a handful of updates only: a log entry, a disk call, a
refill of the cached window, a record written while reading, a record written into a closed slot,
and `FAT_Close`. A property those updates preserve (`Stable`, `StableCalls`) is preserved by every
function and every call.
-/

namespace ArcOS.Fat

open Lib

/-- What reading through a record leaves alone. -/
structure Keeps (d d' : FileData) : Prop where
  handle : d'.pub.handle = d.pub.handle
  isDirectory : d'.pub.isDirectory = d.pub.isDirectory
  opened : d'.opened = d.opened
  firstCluster : d'.firstCluster = d.firstCluster
  root : d.pub.handle = rootDirectoryHandle → d'.pub.size = d.pub.size ∧
    d'.currentSectorInCluster = d.currentSectorInCluster

/-- An event that reading notes in a state: a copy that stays inside its buffer, or a lookup with the
state it is made in. -/
def Event.Of (s : St) : Event → Prop
  | .copy offset count => offset + count ≤ 512
  | .nextCluster fat clock _ => fat = s.fat ∧ clock = s.clock
  | .findFile _ _ _ => False
  | _ => True

lemma Event.Of.inBuffer {e : Event} {s : St} (h : e.Of s) : e.InBuffer := by
  cases e with
  | copy offset count => exact h
  | _ => trivial

/-- The property survives the updates that reading makes at places of `A`. -/
structure Stable (L : Layer) (A : Loc → Prop) (P : St → Prop) : Prop where
  note : ∀ (e : Event) s, e.Of s → P s → P (s.note e)
  disk : ∀ lba n (buf : Bytes n) s, P s → P (L.read lba buf s).2
  refill : ∀ sector s, P s → P (refill L sector s)
  setFd : ∀ loc d s, A loc → Keeps (s.fat.fd loc) d → P s → P (s.setFd loc d)

lemma Keeps.refl (d : FileData) : Keeps d d := ⟨rfl, rfl, rfl, rfl, fun _ => ⟨rfl, rfl⟩⟩

lemma Keeps.trans {d d' d'' : FileData} (h : Keeps d d') (h' : Keeps d' d'') : Keeps d d'' :=
  ⟨h'.handle.trans h.handle, h'.isDirectory.trans h.isDirectory, h'.opened.trans h.opened,
    h'.firstCluster.trans h.firstCluster, fun hr =>
      ⟨(h'.root (h.handle.trans hr)).1.trans (h.root hr).1,
        (h'.root (h.handle.trans hr)).2.trans (h.root hr).2⟩⟩

section Reading

lemma Stable.mono {L : Layer} {A B : Loc → Prop} {P : St → Prop} (h : Stable L A P)
    (hB : ∀ loc, B loc → A loc) : Stable L B P :=
  ⟨h.note, h.disk, h.refill, fun loc d s hloc => h.setFd loc d s (hB loc hloc)⟩

lemma Stable.and {L : Layer} {A : Loc → Prop} {P Q : St → Prop} (h : Stable L A P)
    (h' : Stable L A Q) : Stable L A fun s => P s ∧ Q s where
  note e s he hs := ⟨h.note e s he hs.1, h'.note e s he hs.2⟩
  disk lba n buf s hs := ⟨h.disk lba n buf s hs.1, h'.disk lba n buf s hs.2⟩
  refill sector s hs := ⟨h.refill sector s hs.1, h'.refill sector s hs.2⟩
  setFd loc d s hA hk hs := ⟨h.setFd loc d s hA hk hs.1, h'.setFd loc d s hA hk hs.2⟩

variable {L : Layer} {A : Loc → Prop} {P : St → Prop} {loc : Loc} {s : St}

lemma refill_fd (L : Layer) (sector : UInt32) (s : St) (loc : Loc) :
    (refill L sector s).fat.fd loc = s.fat.fd loc := by
  unfold refill
  split <;> cases loc <;> rfl

lemma nextCluster_fd (L : Layer) (cluster : UInt32) (s : St) (loc : Loc) :
    (nextCluster L cluster s).2.fat.fd loc = s.fat.fd loc :=
  refill_fd L _ _ loc

theorem keeps_stable (L : Layer) (loc : Loc) (s : St) :
    Stable L (fun _ => True) fun t => Keeps (s.fat.fd loc) (t.fat.fd loc) where
  note _ _ _ h := h
  disk _ _ _ _ h := h
  refill sector t h := by rwa [refill_fd]
  setFd loc' d t _ hk h := by
    by_cases hl : loc = loc'
    · subst hl
      rw [St.setFd_fat, FatData.fd_setFd]
      exact h.trans hk
    · rwa [St.setFd_fat, FatData.fd_setFd_of_ne _ _ hl]

theorem Stable.nextCluster (h : Stable L A P) (cluster : UInt32) (hs : P s) :
    P (nextCluster L cluster s).2 :=
  h.refill _ _ (h.note _ _ ⟨rfl, rfl⟩ hs)

theorem Stable.fillBuffer (h : Stable L A P) (hA : A loc) (lba : UInt32) (hs : P s) :
    P (fillBuffer L loc lba s).2 := by
  have hw : P ((L.read (L.sectorLba lba) (s.fat.fd loc).buffer s).2.setFd loc
      { s.fat.fd loc with buffer := (L.read (L.sectorLba lba) (s.fat.fd loc).buffer s).1.2 }) :=
    h.setFd _ _ _ hA ⟨rfl, rfl, rfl, rfl, fun _ => ⟨rfl, rfl⟩⟩ (h.disk _ _ _ _ hs)
  unfold Fat.fillBuffer
  dsimp only
  split
  · exact hw
  · exact h.note _ _ trivial hw

lemma stepCursor_fd (L : Layer) (loc : Loc) (s : St) : ∃ c k, (stepCursor L loc s).fat.fd loc =
    { s.fat.fd loc with currentCluster := c, currentSectorInCluster := k } := by
  unfold stepCursor
  dsimp only
  split
  · refine ⟨(nextCluster L (s.fat.fd loc).currentCluster (s.setFd loc { s.fat.fd loc with
      currentSectorInCluster := 0 })).1, 0, ?_⟩
    simp only [St.setFd_fat, FatData.fd_setFd]
  · exact ⟨(s.fat.fd loc).currentCluster, (s.fat.fd loc).currentSectorInCluster + 1, by simp⟩

theorem Stable.stepCursor (h : Stable L A P) (hA : A loc)
    (hh : (s.fat.fd loc).pub.handle ≠ rootDirectoryHandle) (hs : P s) : P (stepCursor L loc s) := by
  unfold Fat.stepCursor
  dsimp only
  split
  · refine h.setFd _ _ _ hA ?_ (h.nextCluster _ (h.setFd _ _ _ hA
      ⟨rfl, rfl, rfl, rfl, fun h => absurd h hh⟩ hs))
    rw [nextCluster_fd, St.setFd_fat, FatData.fd_setFd]
    exact ⟨rfl, rfl, rfl, rfl, fun h => absurd h hh⟩
  · exact h.setFd _ _ _ hA ⟨rfl, rfl, rfl, rfl, fun h => absurd h hh⟩ hs

theorem Stable.lookAhead (h : Stable L A P) (hA : A loc) (hs : P s) : P (lookAhead L loc s).2 := by
  unfold Fat.lookAhead
  dsimp only
  split
  · exact h.fillBuffer hA _ (h.setFd _ _ _ hA ⟨rfl, rfl, rfl, rfl, fun _ => ⟨rfl, rfl⟩⟩ hs)
  · next hh =>
    have hc := h.stepCursor hA hh hs
    split
    · refine h.setFd _ _ _ hA ⟨rfl, rfl, rfl, rfl, fun h => absurd ?_ hh⟩ hc
      obtain ⟨c, k, hd⟩ := stepCursor_fd L loc s
      rwa [hd] at h
    · exact h.fillBuffer hA _ hc

lemma leftInBuffer_toNat (position : UInt32) :
    (leftInBuffer position).toNat = 512 - position.toNat % 512 := by
  rw [leftInBuffer, UInt32.toNat_sub_of_le]
  · simp
  · rw [UInt32.le_iff_toNat_le]
    simp
    omega

/-- **A round copies from inside the buffer**, whatever its position and count. -/
theorem takeCount_le (n position : UInt32) :
    (position % 512).toNat + (takeCount n position).toUInt16.toNat ≤ 512 ∧
      (takeCount n position).toUInt16.toNat = (takeCount n position).toNat ∧
      (takeCount n position).toNat = min n.toNat (512 - position.toNat % 512) := by
  have hl := leftInBuffer_toNat position
  have ht : (takeCount n position).toNat = min n.toNat (512 - position.toNat % 512) := by
    unfold takeCount
    split
    · next h => rw [UInt32.lt_iff_toNat_lt, hl] at h; omega
    · next h => rw [UInt32.lt_iff_toNat_lt, hl] at h; omega
  have h16 : (takeCount n position).toUInt16.toNat = (takeCount n position).toNat := by
    rw [UInt32.toNat_toUInt16]
    omega
  refine ⟨?_, h16, ht⟩
  rw [h16, ht]
  simp
  omega

theorem Stable.copyChunk (h : Stable L A P) (hA : A loc) (n : UInt32) (hs : P s) :
    P (copyChunk loc (takeCount n (s.fat.fd loc).pub.position) s).2 :=
  h.setFd _ _ _ hA ⟨rfl, rfl, rfl, rfl, fun _ => ⟨rfl, rfl⟩⟩ (h.note _ _ (takeCount_le n _).1 hs)

lemma readLoop_succ {n : UInt32} (hn : 0 < n) (rounds : ℕ) :
    Fat.readLoop L loc (rounds + 1) n s =
      if (Fat.readRound L loc n s).goesOn then
        ((Fat.readLoop L loc rounds (n - (Fat.readRound L loc n s).take)
            (Fat.readRound L loc n s).state).1.map fun x =>
          ((Fat.readRound L loc n s).take + x.1, (Fat.readRound L loc n s).chunk ++ x.2),
          (Fat.readLoop L loc rounds (n - (Fat.readRound L loc n s).take)
            (Fat.readRound L loc n s).state).2)
      else (.ok ((Fat.readRound L loc n s).take, (Fat.readRound L loc n s).chunk),
        (Fat.readRound L loc n s).state) := by
  rw [Fat.readLoop, if_pos hn]

lemma readLoop_done {n : UInt32} (hn : ¬ 0 < n) (rounds : ℕ) :
    Fat.readLoop L loc rounds n s = (.ok (0, []), s) := by
  cases rounds <;> simp [Fat.readLoop, hn]

theorem Stable.readRound (h : Stable L A P) (hA : A loc) (n : UInt32) (hs : P s) :
    P (readRound L loc n s).state := by
  have hc := h.copyChunk hA n hs
  unfold Fat.readRound
  dsimp only
  split
  · exact h.lookAhead hA hc
  · exact hc

theorem Stable.readLoop (h : Stable L A P) (hA : A loc) :
    ∀ (rounds : ℕ) (n : UInt32) (s : St), P s → P (readLoop L loc rounds n s).2 := by
  intro rounds
  induction rounds with
  | zero => intro n s hs; exact hs
  | succ rounds ih =>
    intro n s hs
    have hr := h.readRound hA n hs
    by_cases hn : 0 < n
    · rw [readLoop_succ hn]
      split
      · exact ih _ _ hr
      · simpa only using hr
    · rw [readLoop_done hn]
      exact hs

theorem Stable.read (h : Stable L A P) {file : Option Loc} (n : UInt32)
    (hA : ∀ loc, s.fat.deref file = .ok loc → A loc) (hs : P s) : P (read L file n s).2 := by
  unfold Fat.read
  split
  · exact hs
  · next loc hloc => exact h.readLoop (hA loc hloc) _ _ _ hs

theorem Stable.readEntry (h : Stable L A P) {file : Option Loc}
    (hA : ∀ loc, s.fat.deref file = .ok loc → A loc) (hs : P s) : P (readEntry L file s).2 :=
  h.read 32 hA hs

theorem Stable.findLoop (h : Stable L A P) {file : Option Loc}
    (hA : ∀ s, P s → ∀ loc, s.fat.deref file = .ok loc → A loc) (short : Bytes 12) :
    ∀ (rounds : ℕ) (s : St), P s → P (findLoop L file short rounds s).2 := by
  intro rounds
  induction rounds with
  | zero => intro s hs; exact hs
  | succ rounds ih =>
    intro s hs
    have hr := h.readEntry (hA s hs) hs
    unfold Fat.findLoop
    split
    · next heq => rw [heq] at hr; exact hr
    · next heq => rw [heq] at hr; exact hr
    · next heq =>
      rw [heq] at hr
      split
      · exact hr
      · exact ih _ hr

theorem Stable.findFile (h : Stable L A P) {file : Option Loc}
    (hA : ∀ s, P s → ∀ loc, s.fat.deref file = .ok loc → A loc) (fuel : ℕ) (name : List UInt8)
    (hs : P (s.note (.findFile s.fat file name))) : P (findFile L fuel file name s).2 :=
  h.findLoop hA _ fuel _ hs

end Reading

/-- The property survives every update a call makes, apart from noting a search. -/
structure StableSlots (L : Layer) (P : St → Prop) : Prop extends Stable L (fun _ => True) P where
  setSlot : ∀ (i : Fin 10) d s, (s.fat.openedFiles i).opened = false → d.pub.handle = ((i : ℕ) : ℤ) → P s →
    P (s.setFd (.slot i) d)
  close : ∀ file s, P s → P (close file s).2

/-- The property survives every update a call makes. -/
structure StableCalls (L : Layer) (P : St → Prop) : Prop extends StableSlots L P where
  search : ∀ file name s, P s → P (s.note (.findFile s.fat file name))

section Calls

variable {L : Layer} {P : St → Prop} {s : St}

lemma opened_of_freeSlot {f : FatData} {i : Fin 10} (h : f.freeSlot = some i) :
    (f.openedFiles i).opened = false := by
  simpa using List.find?_some h

lemma Stable.putcs {A : Loc → Prop} (h : Stable L A P) (cs : List UInt8) (hs : P s) :
    P (cs.foldl (fun s c => s.note (.putc c)) s) := by
  induction cs generalizing s with
  | nil => exact hs
  | cons c cs ih => exact ih (h.note _ _ trivial hs)

theorem StableSlots.openEntry (h : StableSlots L P) (entry : DirectoryEntry) (hs : P s) :
    P (openEntry L entry s).2 := by
  unfold Fat.openEntry
  split
  · exact h.note _ _ trivial hs
  · next i hi =>
    have hfree := opened_of_freeSlot hi
    have h1 := h.disk (L.sectorLba (s.fat.clusterToLba entry.firstCluster)) 512
      (entryRecord (s.fat.openedFiles i) i entry).buffer _
      (h.setSlot i (entryRecord (s.fat.openedFiles i) i entry) s hfree rfl hs)
    dsimp only
    split
    · refine h.setSlot i _ _ ?_ rfl h1
      simpa [FatData.setFd, entryRecord] using hfree
    · refine h.note _ _ trivial (h.putcs _ (h.note _ _ trivial (h.setSlot i _ _ ?_ rfl h1)))
      simpa [FatData.setFd, entryRecord] using hfree

theorem StableCalls.openStep (h : StableCalls L P) (fuel : ℕ) (w : Walk) (hs : P s) :
    P (openStep L fuel w s).2 := by
  unfold Fat.openStep
  split
  · exact hs
  split
  · exact hs
  next name rest isLast _ =>
  have hf : P (findFile L fuel w.current (List.ofFn name) s).2 :=
    h.findFile (fun _ _ _ _ => trivial) fuel _ (h.search _ _ s hs)
  split
  · next heq => rw [heq] at hf; exact hf
  next found t heq =>
  rw [heq] at hf
  have hc := h.close w.current t hf
  split
  · next heq => rw [heq] at hc; exact hc
  next heq =>
  rw [heq] at hc
  split
  · split
    · exact h.note _ _ trivial hc
    · exact h.openEntry _ hc
  · exact h.note _ _ trivial hc

theorem StableCalls.openLoop (h : StableCalls L P) (fuel : ℕ) :
    ∀ (rounds : ℕ) (w : Walk) (s : St), P s → P (openLoop L fuel rounds w s).2 := by
  intro rounds
  induction rounds with
  | zero => intro w s hs; exact hs
  | succ rounds ih =>
    intro w s hs
    have hw := h.openStep fuel w hs
    unfold Fat.openLoop
    split
    · next heq => rw [heq] at hw; exact hw
    · next heq => rw [heq] at hw; exact hw
    · next heq => rw [heq] at hw; exact ih _ _ hw

theorem StableCalls.openPath (h : StableCalls L P) (fuel : ℕ) (path : List UInt8)
    (name : NameBuffer) (hs : P s) : P (openPath L fuel path name s).2 :=
  h.openLoop fuel _ _ _ hs

theorem StableCalls.listLoop (h : StableCalls L P) (file : Option Loc) :
    ∀ (left : ℕ) (s : St), P s → P (listLoop L file left s).2 := by
  intro left
  induction left with
  | zero =>
    intro s hs
    have hr : P (readEntry L file s).2 := h.readEntry (fun _ _ => trivial) hs
    unfold Fat.listLoop
    split <;> next heq => rw [heq] at hr; exact hr
  | succ left ih =>
    intro s hs
    have hr : P (readEntry L file s).2 := h.readEntry (fun _ _ => trivial) hs
    unfold Fat.listLoop
    split
    · next heq => rw [heq] at hr; exact hr
    · next heq => rw [heq] at hr; exact hr
    · next heq =>
      rw [heq] at hr
      exact ih _ (h.note _ _ trivial (h.putcs _ (h.note _ _ trivial hr)))

theorem StableCalls.readDirectory (h : StableCalls L P) (fuel : ℕ) (path : List UInt8)
    (name : NameBuffer) (hs : P s) : P (readDirectory L fuel path name s).2 := by
  have ho := h.openPath fuel path name hs
  unfold Fat.readDirectory
  split
  · next heq => rw [heq] at ho; exact ho
  next file t heq =>
  rw [heq] at ho
  have hl := h.listLoop file 7 _ (h.note (.printf "\n") _ trivial ho)
  split
  · next heq => rw [heq] at hl; exact hl
  · next heq => rw [heq] at hl; exact h.close _ _ hl

lemma Stable.printChunk {A : Loc → Prop} (h : Stable L A P) (bytes : List UInt8) (hs : P s) :
    P (printChunk bytes s) := by
  unfold Fat.printChunk
  induction bytes generalizing s with
  | nil => exact hs
  | cons c bytes ih =>
    refine ih (h.note _ _ trivial ?_)
    split
    · exact h.note _ _ trivial hs
    · exact hs

theorem StableCalls.dumpLoop (h : StableCalls L P) (file : Option Loc) :
    ∀ (rounds : ℕ) (s : St), P s → P (dumpLoop L file rounds s).2 := by
  intro rounds
  induction rounds with
  | zero => intro s hs; exact hs
  | succ rounds ih =>
    intro s hs
    have hr : P (read L file 100 s).2 := h.read 100 (fun _ _ => trivial) hs
    unfold Fat.dumpLoop
    split
    · next heq => rw [heq] at hr; exact hr
    · next heq =>
      rw [heq] at hr
      split
      · exact hr
      · exact ih _ (h.printChunk _ hr)

theorem StableCalls.readFile (h : StableCalls L P) (fuel : ℕ) (path : List UInt8)
    (name : NameBuffer) (hs : P s) : P (readFile L fuel path name s).2 := by
  have ho := h.openPath fuel path name hs
  unfold Fat.readFile
  split
  · next heq => rw [heq] at ho; exact ho
  next file t heq =>
  rw [heq] at ho
  have hl := h.dumpLoop file fuel _ ho
  split
  · next heq => rw [heq] at hl; exact hl
  · next heq => rw [heq] at hl; exact h.close _ _ (h.note _ _ trivial hl)

/-- **Every call preserves a stable property.** -/
theorem StableCalls.call (h : StableCalls L P) (fuel : ℕ) (c : Call) (hs : P s) :
    P (call L fuel c s).2 := by
  cases c with
  | openEntry entry => exact h.openEntry entry hs
  | nextCluster cluster => exact h.nextCluster cluster hs
  | read file n => exact h.read n (fun _ _ => trivial) hs
  | readEntry file => exact h.readEntry (fun _ _ => trivial) hs
  | close file => exact h.close file s hs
  | findFile file name => exact h.findFile (fun _ _ _ _ => trivial) fuel name (h.search file name s hs)
  | openPath path name => exact h.openPath fuel path name hs
  | readDirectory path name => exact h.readDirectory fuel path name hs
  | readFile path name => exact h.readFile fuel path name hs

end Calls

/-! ### The log -/

/-- The log of `t` is that of `s` with entries of `G` on top. -/
def Logged (G : Event → Prop) (s t : St) : Prop := ∃ new, t.log = new ++ s.log ∧ ∀ e ∈ new, G e

namespace Logged

variable {G : Event → Prop} {s t u : St}

lemma refl (s : St) : Logged G s s := ⟨[], rfl, by simp⟩

lemma suffix (h : Logged G s t) : s.log <:+ t.log := h.imp fun _ h => h.1.symm

lemma cons {e : Event} (he : G e) (ht : t.log = e :: s.log) : Logged G s t :=
  ⟨[e], ht, by simpa using he⟩

lemma trans (h : Logged G s t) (h' : Logged G t u) : Logged G s u := by
  obtain ⟨new, hn, hG⟩ := h
  obtain ⟨new', hn', hG'⟩ := h'
  refine ⟨new' ++ new, by rw [hn', hn, List.append_assoc], fun e he => ?_⟩
  rcases List.mem_append.mp he with he | he
  · exact hG' e he
  · exact hG e he

lemma mono {G' : Event → Prop} (h : Logged G s t) (hG : ∀ e, G e → G' e) : Logged G' s t :=
  h.imp fun _ h => ⟨h.1, fun e he => hG e (h.2 e he)⟩

lemma mem (h : Logged G s t) (new : List Event) (hn : t.log = new ++ s.log) {e : Event}
    (he : e ∈ new) : G e := by
  obtain ⟨new', hn', hG⟩ := h
  exact hG e (List.append_cancel_right (hn.symm.trans hn') ▸ he)

/-- What is logged on the way is logged in each part of the way. -/
theorem split (h : Logged G s u) (hst : s.log <:+ t.log) (htu : t.log <:+ u.log) :
    Logged G s t ∧ Logged G t u := by
  obtain ⟨new, hn, hG⟩ := h
  obtain ⟨b, hb⟩ := hst
  obtain ⟨a, ha⟩ := htu
  have hnew : new = a ++ b := by
    refine List.append_cancel_right (?_ : new ++ s.log = a ++ b ++ s.log)
    rw [← hn, ← ha, ← hb, List.append_assoc]
  subst hnew
  exact ⟨⟨b, hb.symm, fun e he => hG e (by simp [he])⟩, ⟨a, ha.symm, fun e he => hG e (by simp [he])⟩⟩

/-- After a part of the way that is all right, only the rest counts. -/
lemma iff_of_suffix (h : Logged G s t) (htu : t.log <:+ u.log) : Logged G s u ↔ Logged G t u :=
  ⟨fun hu => (hu.split h.suffix htu).2, h.trans⟩

end Logged

lemma close_log (file : Option Loc) (s : St) : (close file s).2.log = s.log := by
  unfold close
  split
  · rfl
  · split <;> rfl

lemma refill_log (L : Layer) (sector : UInt32) (s : St) :
    Logged Event.InBuffer s (refill L sector s) := by
  unfold refill
  split
  · exact .cons (show Event.InBuffer (.diskRead _ _) from trivial) rfl
  · exact .refl s

lemma nextCluster_logged {G : Event → Prop} {L : Layer} {cluster : UInt32} {s : St}
    (h : Logged G s (nextCluster L cluster s).2) : G (.nextCluster s.fat s.clock cluster) := by
  unfold nextCluster refill at h
  dsimp only at h
  split at h
  · exact h.mem [.diskRead _ _, .nextCluster s.fat s.clock cluster] rfl (by simp)
  · exact h.mem [.nextCluster s.fat s.clock cluster] rfl (by simp)

theorem logged_stable (L : Layer) (s : St) : StableCalls L (Logged Event.InBuffer s) where
  note _ _ he h := h.trans (.cons he.inBuffer rfl)
  disk _ _ _ _ h := h.trans (.cons (show Event.InBuffer (.diskRead _ _) from trivial) rfl)
  refill _ _ h := h.trans (refill_log L _ _)
  setFd _ _ _ _ _ h := h
  setSlot _ _ _ _ _ h := h
  close _ _ h := by unfold Logged at *; rwa [close_log]
  search file name _ h := h.trans (.cons (show Event.InBuffer (.findFile _ file name) from trivial) rfl)

/-! ### Searches -/

/-- The string that a call of `FAT_FindFile` is handed. -/
def Event.searched : Event → Option (List UInt8)
  | .findFile _ _ name => some (cString name)
  | _ => none

/-- What is logged is no search. -/
def NoSearch (e : Event) : Prop := e.searched = none

theorem noSearch_stable (L : Layer) (s : St) : StableSlots L (Logged NoSearch s) where
  note e _ he h := by
    refine h.trans (.cons ?_ rfl)
    cases e with
    | findFile _ _ _ => exact he.elim
    | _ => rfl
  disk _ _ _ _ h := h.trans (.cons (show NoSearch (.diskRead _ _) from rfl) rfl)
  refill sector u h := by
    unfold refill
    split
    · exact h.trans (.cons (show NoSearch (.diskRead _ _) from rfl) rfl)
    · exact h
  setFd _ _ _ _ _ h := h
  setSlot _ _ _ _ _ h := h
  close _ _ h := by unfold Logged at *; rwa [close_log]

section Grows

variable (L : Layer) (loc : Loc) (file : Option Loc) (s : St)

lemma fillBuffer_grows (lba : UInt32) : s.log <:+ (fillBuffer L loc lba s).2.log :=
  ((logged_stable L s).fillBuffer trivial lba (.refl s)).suffix

lemma stepCursor_grows (hh : (s.fat.fd loc).pub.handle ≠ rootDirectoryHandle) :
    s.log <:+ (stepCursor L loc s).log :=
  ((logged_stable L s).stepCursor trivial hh (.refl s)).suffix

lemma lookAhead_grows : s.log <:+ (lookAhead L loc s).2.log :=
  ((logged_stable L s).lookAhead trivial (.refl s)).suffix

lemma copyChunk_grows (n : UInt32) :
    s.log <:+ (copyChunk loc (takeCount n (s.fat.fd loc).pub.position) s).2.log :=
  ⟨[_], rfl⟩

lemma readRound_grows (n : UInt32) : s.log <:+ (readRound L loc n s).state.log :=
  ((logged_stable L s).readRound trivial n (.refl s)).suffix

lemma readLoop_grows (rounds : ℕ) (n : UInt32) : s.log <:+ (readLoop L loc rounds n s).2.log :=
  ((logged_stable L s).readLoop trivial rounds n s (.refl s)).suffix

lemma read_grows (n : UInt32) : s.log <:+ (read L file n s).2.log :=
  ((logged_stable L s).read n (fun _ _ => trivial) (.refl s)).suffix

lemma readEntry_grows : s.log <:+ (readEntry L file s).2.log :=
  read_grows L file s 32

lemma findLoop_grows (short : Bytes 12) (rounds : ℕ) :
    s.log <:+ (findLoop L file short rounds s).2.log :=
  ((logged_stable L s).findLoop (fun _ _ _ _ => trivial) short rounds s (.refl s)).suffix

lemma findFile_grows (fuel : ℕ) (name : List UInt8) :
    s.log <:+ (findFile L fuel file name s).2.log :=
  (List.suffix_cons _ _).trans (findLoop_grows L file (s.note (.findFile s.fat file name)) _ fuel)

lemma openStep_grows (fuel : ℕ) (w : Walk) : s.log <:+ (openStep L fuel w s).2.log :=
  ((logged_stable L s).openStep fuel w (.refl s)).suffix

lemma openLoop_grows (fuel rounds : ℕ) (w : Walk) : s.log <:+ (openLoop L fuel rounds w s).2.log :=
  ((logged_stable L s).openLoop fuel rounds w s (.refl s)).suffix

lemma openPath_grows (fuel : ℕ) (path : List UInt8) (name : NameBuffer) :
    s.log <:+ (openPath L fuel path name s).2.log :=
  openLoop_grows L s fuel _ _

lemma listLoop_grows (left : ℕ) : s.log <:+ (listLoop L file left s).2.log :=
  ((logged_stable L s).listLoop file left s (.refl s)).suffix

lemma dumpLoop_grows (rounds : ℕ) : s.log <:+ (dumpLoop L file rounds s).2.log :=
  ((logged_stable L s).dumpLoop file rounds s (.refl s)).suffix

end Grows

end ArcOS.Fat
