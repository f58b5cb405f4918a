import ArcOS.Elf.Loader
import ArcOS.Fat.Files

/-!
How the loader reads its file.

`Extends` is what the calls of the FAT layer do to the state: the log grows, and what every call preserves is
preserved. A relation that the calls and the writes respect is respected by every part of a run
(`Respected`). `fatRead_at` and `readAll_at` say what a read brings from a position of the file, as long as the
events that are logged are `Sound`.
-/

namespace ArcOS.Elf

open Lib Fat

variable {dev : Device} {part : Partition} {overlay : Overlay}

/-! ### What every run does -/

/-- The log only grew, and what the calls of the FAT layer preserve was preserved. -/
structure Extends (dev : Device) (part : Partition) (s s' : Loader) : Prop where
  log : s.log <:+ s'.log
  stable : ∀ P, StableCalls (bootLayer dev part) P → P s.fat → P s'.fat

namespace Extends

variable {s s' s'' : Loader}

lemma refl (s : Loader) : Extends dev part s s := ⟨List.suffix_rfl, fun _ _ h => h⟩

lemma trans (h : Extends dev part s s') (h' : Extends dev part s' s'') : Extends dev part s s'' :=
  ⟨h.log.trans h'.log, fun P hP hs => h'.stable P hP (h.stable P hP hs)⟩

lemma of_entry {e : UInt32} : Extends dev part s { s with entryPoint := e } :=
  ⟨List.suffix_rfl, fun _ _ h => h⟩

end Extends

lemma fatOpen_extends (dev : Device) (part : Partition) (fuel : ℕ) (path : List UInt8)
    (name : NameBuffer) (s : Loader) : Extends dev part s (fatOpen dev part fuel path name s).2 :=
  ⟨List.suffix_cons _ _, fun _ hP hs => hP.openPath fuel path name hs⟩

lemma fatRead_extends (dev : Device) (part : Partition) (file : Option Loc) (n dataOut : UInt32)
    (s : Loader) : Extends dev part s (fatRead dev part file n dataOut s).2 := by
  have hr : ∀ P, StableCalls (bootLayer dev part) P → P s.fat →
      P (Boot.fatRead dev part file n s.fat).2 := fun P hP hs => hP.read n (fun _ _ => trivial) hs
  unfold fatRead
  dsimp only
  split
  · exact ⟨List.suffix_cons _ _, hr⟩
  · exact ⟨List.suffix_cons _ _, hr⟩

lemma fatClose_extends (dev : Device) (part : Partition) (file : Option Loc) (s : Loader) :
    Extends dev part s (fatClose file s).2 :=
  ⟨List.suffix_rfl, fun _ hP hs => hP.close file s.fat hs⟩

lemma readAll_extends (dev : Device) (part : Partition) (file : Option Loc) (n dataOut : UInt32)
    (text : String) (s : Loader) : Extends dev part s (readAll dev part file n dataOut text s).2 := by
  have hr := fatRead_extends dev part file n dataOut s
  unfold readAll
  split
  · next heq => rw [heq] at hr; exact hr
  · next heq =>
    rw [heq] at hr
    split
    · exact hr
    · exact hr.trans ⟨List.suffix_rfl, fun _ hP hs => hP.note _ _ trivial hs⟩

/-- A relation between the states before and after that every step of loading a segment respects. The reads
of the segments go into the load buffer, and none asks for more than its size. -/
structure Respected (dev : Device) (part : Partition) (overlay : Overlay) (R : Loader → Loader → Prop) :
    Prop where
  refl : ∀ s, R s s
  trans : ∀ {s s' s''}, R s s' → R s' s'' → R s s''
  mem : ∀ s m, R s { s with mem := m }
  written : ∀ s address count m, R s (s.written overlay address count m)
  printf : ∀ s text, R s (s.printf text)
  opens : ∀ fuel path name s, R s (fatOpen dev part fuel path name s).2
  reads : ∀ file n s, n ≤ memoryLoadSize → R s (fatRead dev part file n loadBuffer s).2
  closes : ∀ file s, R s (fatClose file s).2

lemma shouldRead_le (left : UInt32) : shouldRead left ≤ memoryLoadSize := by
  rw [shouldRead]
  split
  · next h => exact UInt32.le_of_lt h
  · exact UInt32.le_refl _

namespace Respected

variable {R : Loader → Loader → Prop} (h : Respected dev part overlay R)
include h

lemma readAll (file : Option Loc) {n : UInt32} (hn : n ≤ memoryLoadSize) (text : String) (s : Loader) :
    R s (readAll dev part file n loadBuffer text s).2 := by
  have hr := h.reads file n s hn
  unfold Elf.readAll
  split
  · next heq => rw [heq] at hr; exact hr
  · next heq =>
    rw [heq] at hr
    split
    · exact hr
    · exact h.trans hr (h.printf _ _)

lemma seekLoop (file : Option Loc) (ph : UInt32) :
    ∀ (rounds : ℕ) (s : Loader), R s (seekLoop dev part file ph rounds s).2 := by
  intro rounds
  induction rounds with
  | zero => exact fun s => h.refl s
  | succ rounds ih =>
    intro s
    have hr := h.readAll file (shouldRead_le (ELFProgramHeader.offset (s.header ph))) "ELF Load error\n" s
    rw [Elf.seekLoop]
    split
    · split
      · next heq =>
        rw [heq] at hr
        exact h.trans hr (h.trans (h.mem _ _) (ih _))
      · exact hr
    · exact h.refl s

lemma loadLoop (file : Option Loc) (ph : UInt32) :
    ∀ (rounds : ℕ) (va : UInt32) (s : Loader), R s (loadLoop dev part overlay file ph rounds va s).2 := by
  intro rounds
  induction rounds with
  | zero => exact fun _ s => h.refl s
  | succ rounds ih =>
    intro va s
    have hr := h.readAll file (shouldRead_le (ELFProgramHeader.fileSize (s.header ph))) "ELF Load error\n" s
    rw [Elf.loadLoop]
    split
    · dsimp only
      split
      · next heq =>
        rw [heq] at hr
        exact h.trans hr (h.trans (h.mem _ _) (h.trans (h.written _ _ _ _) (ih _ _)))
      · exact hr
    · exact h.refl s

lemma loadFile_open (fuel : ℕ) (path : List UInt8) (name : NameBuffer) (ph va : UInt32) (s : Loader) :
    R (fatOpen dev part fuel path name s).2 (loadFile dev part overlay fuel path name ph va s).2 := by
  unfold Elf.loadFile
  split
  · next heq =>
    rw [heq]
    exact h.refl _
  next fd t heq =>
  rw [heq]
  have hk := h.seekLoop fd ph fuel t
  split
  · next u heq =>
    rw [heq] at hk
    have hl := h.loadLoop fd ph fuel va u
    split
    · next heq =>
      rw [heq] at hl
      exact h.trans (h.trans hk hl) (h.closes fd _)
    · exact h.trans hk hl
  · exact hk

lemma loadSegment (fuel : ℕ) (path : List UInt8) (name : NameBuffer) (ph : UInt32) (s : Loader) :
    R s (loadSegment dev part overlay fuel path name ph s).2 := by
  unfold Elf.loadSegment
  split
  · exact h.trans (h.written _ _ _ _) (h.trans (h.opens fuel path name _) (h.loadFile_open fuel path name ph _ _))
  · exact h.refl s

/-- **What every step respects, the loop over the program headers does.** -/
theorem loadSegments (fuel : ℕ) (path : List UInt8) (names : ℕ → NameBuffer) (entrySize : UInt32) :
    ∀ (left i : ℕ) (s : Loader), R s (loadSegments dev part overlay fuel path names entrySize left i s).2 := by
  intro left
  induction left with
  | zero => exact fun _ s => h.refl s
  | succ left ih =>
    intro i s
    have hr := h.loadSegment fuel path (names (i + 1)) (headerBuffer + UInt32.ofNat i * entrySize) s
    rw [Elf.loadSegments]
    split
    · next heq => rw [heq] at hr; exact h.trans hr (ih _ _)
    · exact hr

end Respected

lemma log_respected (dev : Device) (part : Partition) (overlay : Overlay) :
    Respected dev part overlay fun s s' => s.log <:+ s'.log where
  refl _ := List.suffix_rfl
  trans := List.IsSuffix.trans
  mem _ _ := List.suffix_rfl
  written _ _ _ _ := List.suffix_cons _ _
  printf _ _ := List.suffix_rfl
  opens fuel path name s := (fatOpen_extends dev part fuel path name s).log
  reads file n s _ := (fatRead_extends dev part file n loadBuffer s).log
  closes file s := (fatClose_extends dev part file s).log

lemma seekLoop_log (dev : Device) (part : Partition) (file : Option Loc) (ph : UInt32) :
    ∀ (rounds : ℕ) (s : Loader), s.log <:+ (seekLoop dev part file ph rounds s).2.log :=
  (log_respected dev part fun _ => id).seekLoop file ph

section Log

variable (dev : Device) (part : Partition) (overlay : Overlay)

lemma loadLoop_log (file : Option Loc) (ph : UInt32) : ∀ (rounds : ℕ) (va : UInt32) (s : Loader),
    s.log <:+ (loadLoop dev part overlay file ph rounds va s).2.log :=
  (log_respected dev part overlay).loadLoop file ph

lemma loadFile_log (fuel : ℕ) (path : List UInt8) (name : NameBuffer) (ph va : UInt32) (s : Loader) :
    (fatOpen dev part fuel path name s).2.log <:+
      (loadFile dev part overlay fuel path name ph va s).2.log :=
  (log_respected dev part overlay).loadFile_open fuel path name ph va s

lemma loadSegments_log (fuel : ℕ) (path : List UInt8) (names : ℕ → NameBuffer) (entrySize : UInt32) :
    ∀ (left i : ℕ) (s : Loader),
      s.log <:+ (loadSegments dev part overlay fuel path names entrySize left i s).2.log :=
  (log_respected dev part overlay).loadSegments fuel path names entrySize

lemma loadImage_log (fuel : ℕ) (path : List UInt8) (names : ℕ → NameBuffer) (file : Option Loc)
    (position entrySize entryCount : UInt32) (s : Loader) :
    s.log <:+ (loadImage dev part overlay fuel path names file position entrySize entryCount s).2.log := by
  have hg := (fatRead_extends dev part file (position - headerSize) headerBuffer s).log
  unfold loadImage
  split
  · next heq => rw [heq] at hg; exact hg
  next t heq =>
  rw [heq] at hg
  have ht := (readAll_extends dev part file (entrySize * entryCount) headerBuffer "ELF Load error\n" t).log
  dsimp only
  split
  · next u heq =>
    rw [heq] at ht
    have hc := (fatClose_extends dev part file u).log
    split
    · next heq => rw [heq] at hc; exact (hg.trans ht).trans hc
    · next heq =>
      rw [heq] at hc
      exact ((hg.trans ht).trans hc).trans (loadSegments_log dev part overlay fuel path names _ _ _ _)
  · exact hg.trans ht

end Log

/-! ### A position in the file -/

variable {f : FatData} {entry : DirectoryEntry} {chain : List UInt32} {i : Fin 10} {k : ℕ}
  {s s' : Loader}

/-- The bytes of a file; zeros behind its end. -/
def fileByte (dev : Device) (part : Partition) (f : FatData) (entry : DirectoryEntry)
    (chain : List UInt32) : ℕ → UInt8 :=
  fun k => (fileContent dev part f entry chain).getD k 0

lemma fileByte_eq (hspc : 0 < f.sectorsPerCluster.toNat) (h : IsFile dev part f entry chain)
    (hk : k < entry.size.toNat) :
    fileByte dev part f entry chain k = chainByte dev part f chain k := by
  rw [fileByte, fileContent_eq hspc h, List.getD_eq_getElem?_getD, getElem?_stretch, if_pos hk,
    Option.getD_some, Nat.zero_add]

/-- The slot holds the file, at a position. -/
structure At (dev : Device) (part : Partition) (f : FatData) (entry : DirectoryEntry)
    (chain : List UInt32) (i : Fin 10) (k : ℕ) (s : St) : Prop
    extends Ready dev part f entry chain i s where
  position : (s.fat.openedFiles i).pub.position.toNat = k

/-- An event that is as it should be: a file that is opened is the one of the entry, and the lookups of a
read find their links. -/
def Sound (dev : Device) (part : Partition) (entry : DirectoryEntry) : LoadEvent → Prop
  | .opened r u => ∀ p, r = .ok (some p) → ∃ i, p = .slot i ∧ HandedOut dev part entry i u
  | .read file n _ u => Logged (FindsEvent dev part) u (Boot.fatRead dev part file n u).2
  | .written _ _ => True

/-- Every call of `FAT_Open` has brought a file. -/
def Resolved (log : List LoadEvent) : Prop := ∀ r u, .opened r u ∈ log → ∃ p, r = .ok (some p)

lemma Resolved.of_suffix {l l' : List LoadEvent} (h : Resolved l') (hs : l <:+ l') : Resolved l :=
  fun r u hmem => h r u (hs.subset hmem)

/-- An event of a run that finds its file, on a volume that is not FAT12. -/
def LoadEvent.OnFile (dev : Device) (part : Partition) (entry : DirectoryEntry) : LoadEvent → Prop
  | .opened r u => ∃ i, r = .ok (some (.slot i)) ∧ HandedOut dev part entry i u
  | .read _ _ _ u => u.fat.fatType ≠ 12
  | .written _ _ => True

lemma LoadEvent.OnFile.sound (hrel : dev.Reliable) : ∀ {e : LoadEvent}, e.OnFile dev part entry →
    Sound dev part entry e
  | .opened r u, h => fun p hp => by
    obtain ⟨i, rfl, hout⟩ := h
    cases hp
    exact ⟨i, rfl, hout⟩
  | .read file n _ u, h => (Stable.read (finds_stable hrel h u) n (fun _ _ => trivial)
      ⟨.refl u.fat, .refl u⟩).2
  | .written _ _, _ => trivial

lemma resolved_of_onFile {log : List LoadEvent} (h : ∀ e ∈ log, e.OnFile dev part entry) : Resolved log := by
  intro r u hmem
  obtain ⟨i, hr, -⟩ := h _ hmem
  exact ⟨_, hr⟩

/-- A write of a segment does not reach into the data of the FAT layer. -/
def LoadEvent.KeepsOff : LoadEvent → Prop
  | .written address count => ¬ HitsFatData address count.toNat
  | _ => True

instance : DecidablePred LoadEvent.KeepsOff
  | .opened _ _ => inferInstanceAs (Decidable True)
  | .read _ _ _ _ => inferInstanceAs (Decidable True)
  | .written _ _ => inferInstanceAs (Decidable (¬ _))

/-- The state of the layer while the loader runs. -/
structure Serving (dev : Device) (part : Partition) (f : FatData) (s : Loader) : Prop where
  volume : SameVolume f s.fat.fat
  cache : Coherent dev part s.fat

lemma Serving.extends (hrel : dev.Reliable) (h : Serving dev part f s)
    (he : Extends dev part s s') : Serving dev part f s' :=
  ⟨he.stable _ (SameVolume.stable (bootLayer dev part) f) h.volume,
    he.stable _ (coherent_stable hrel) h.cache⟩

/-- `FAT_Open` brings the file, at its start. -/
lemma fatOpen_at (hrel : dev.Reliable) (hfile : IsFile dev part f entry chain)
    (hs : Serving dev part f s) {fuel : ℕ} {path : List UInt8} {name : NameBuffer} {p : Loc}
    (h : fatOpen dev part fuel path name s = (.ok (some p), s'))
    (hsound : ∀ e ∈ s'.log, Sound dev part entry e) :
    ∃ i, p = .slot i ∧ At dev part f entry chain i 0 s'.fat ∧ s'.mem = s.mem ∧
      s'.entryPoint = s.entryPoint := by
  have hs' := hs.extends hrel (h ▸ fatOpen_extends dev part fuel path name s)
  unfold fatOpen at h
  dsimp only at h
  obtain ⟨hr, hstate⟩ := Prod.ext_iff.mp h
  dsimp only at hr hstate
  subst hstate
  obtain ⟨i, rfl, hout⟩ := hsound _ (List.mem_cons_self ..) p hr
  obtain ⟨hready, hpos⟩ := hout.ready hs'.volume hs'.cache hfile
  exact ⟨i, rfl, ⟨hready, by rw [hpos]; rfl⟩, rfl, rfl⟩

/-- **A read brings the bytes at the position**, as many as there are. -/
theorem fatRead_at (hrel : dev.Reliable) (hspc : 0 < f.sectorsPerCluster.toNat)
    (hfile : IsFile dev part f entry chain) (hat : At dev part f entry chain i k s.fat)
    (n dataOut : UInt32)
    (hsound : ∀ e ∈ (fatRead dev part (some (.slot i)) n dataOut s).2.log, Sound dev part entry e) :
    ∃ count, (fatRead dev part (some (.slot i)) n dataOut s).1 = .ok count ∧
      count.toNat = min n.toNat (entry.size.toNat - k) ∧
      (fatRead dev part (some (.slot i)) n dataOut s).2.mem =
        s.mem.store dataOut (stretch (fileByte dev part f entry chain) k count.toNat) ∧
      (fatRead dev part (some (.slot i)) n dataOut s).2.entryPoint = s.entryPoint ∧
      At dev part f entry chain i (k + count.toNat)
        (fatRead dev part (some (.slot i)) n dataOut s).2.fat := by
  have hfinds : Logged (FindsEvent dev part) s.fat
      (read (bootLayer dev part) (some (.slot i)) n s.fat).2 := by
    apply hsound (.read (some (.slot i)) n dataOut s.fat)
    unfold fatRead
    dsimp only
    split <;> exact List.mem_cons_self ..
  obtain ⟨count, hres, hcount, hpos, hready, -⟩ :=
    read_ready hrel hspc hfile hat.toReady n hfinds
  rw [hat.position] at hcount hpos hres
  have hseg : stretch (chainByte dev part f chain) k count.toNat =
      stretch (fileByte dev part f entry chain) k count.toNat :=
    stretch_congr fun j hj => (fileByte_eq hspc hfile (by omega)).symm
  unfold fatRead
  dsimp only [Boot.fatRead]
  rw [hres, hseg]
  exact ⟨count, rfl, hcount, rfl, rfl, ⟨hready, hpos⟩⟩

theorem readAll_at (hrel : dev.Reliable) (hspc : 0 < f.sectorsPerCluster.toNat)
    (hfile : IsFile dev part f entry chain) (hat : At dev part f entry chain i k s.fat)
    {n dataOut : UInt32} {text : String}
    (h : readAll dev part (some (.slot i)) n dataOut text s = (.ok true, s'))
    (hsound : ∀ e ∈ s'.log, Sound dev part entry e) :
    n.toNat ≤ entry.size.toNat - k ∧
      s'.mem = s.mem.store dataOut (stretch (fileByte dev part f entry chain) k n.toNat) ∧
      s'.entryPoint = s.entryPoint ∧ At dev part f entry chain i (k + n.toNat) s'.fat := by
  have hread := fatRead_at hrel hspc hfile hat n dataOut
  unfold readAll at h
  rcases hr : fatRead dev part (some (.slot i)) n dataOut s with ⟨e | count, t⟩
  · rw [hr] at h
    cases h
  · rw [hr] at h hread
    dsimp only at h hread
    split at h
    · next heq =>
      cases h
      subst heq
      obtain ⟨count', hok, hcount, hmem, hentry, hat'⟩ := hread hsound
      cases hok
      exact ⟨by omega, hmem, hentry, hat'⟩
    · cases h

end ArcOS.Elf
