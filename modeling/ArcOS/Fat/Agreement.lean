import ArcOS.Fat.TwoRun

/-!
The two FAT layers side by side.

The layers make the same disk calls but for one: the kernel's refill of the cached window asks for the sectors
of the table without the partition offset. `Agrees` says that the disk answers both requests alike; as
long as every refill meets it, the two layers go through the same states (`layers_agree`). A partition
at the start of its disk always does.
-/

namespace ArcOS.Fat

open Lib Lib.Transducer

/-! ### Opening a file to show it -/

/-- A file is closed when its use has ended. -/
def closeUsed (file : Option Loc) : Except Stop Unit × St → Except Stop Unit × St
  | (.error e, s) => (.error e, s)
  | (.ok (), s) => close file s

/-- A path is opened, its file used and closed. -/
def useFile (use : Layer → Option Loc → St → Except Stop Unit × St) (L : Layer) (fuel : ℕ)
    (path : List UInt8) (name : NameBuffer) (s : St) : Except Stop Unit × St :=
  match openPath L fuel path name s with
  | (.error e, s) => (.error e, s)
  | (.ok file, s) => closeUsed file (use L file s)

def showEntries (L : Layer) (file : Option Loc) (s : St) : Except Stop Unit × St :=
  listLoop L file 7 (s.note (.printf "\n"))

def showBytes (fuel : ℕ) (L : Layer) (file : Option Loc) (s : St) : Except Stop Unit × St :=
  match dumpLoop L file fuel s with
  | (.error e, s) => (.error e, s)
  | (.ok (), s) => (.ok (), s.note (.printf "\n"))

lemma readDirectory_eq (L : Layer) (fuel : ℕ) (path : List UInt8) (name : NameBuffer) (s : St) :
    readDirectory L fuel path name s = useFile showEntries L fuel path name s := by
  unfold readDirectory useFile showEntries
  rcases openPath L fuel path name s with ⟨e | file, t⟩
  · rfl
  · dsimp only
    rcases listLoop L file 7 (t.note (.printf "\n")) with ⟨e | _, u⟩ <;> rfl

lemma readFile_eq (L : Layer) (fuel : ℕ) (path : List UInt8) (name : NameBuffer) (s : St) :
    readFile L fuel path name s = useFile (showBytes fuel) L fuel path name s := by
  unfold readFile useFile showBytes
  rcases openPath L fuel path name s with ⟨e | file, t⟩
  · rfl
  · dsimp only
    rcases dumpLoop L file fuel t with ⟨e | _, u⟩ <;> rfl

/-! ### A call in two runs -/

namespace Sim

variable {L L' : Layer} {G G' : Event → Prop} {R : St → St → Prop} {A : Loc → FileData → Prop}
  {fuel : ℕ} {s t : St}

lemma putcs (h : Sim L L' G G' R A) (cs : List UInt8) (hR : R s t) :
    R (cs.foldl (fun s c => s.note (.putc c)) s) (cs.foldl (fun s c => s.note (.putc c)) t) := by
  induction cs generalizing s t with
  | nil => exact hR
  | cons c cs ih => exact ih (h.note _ _ hR)

lemma printChunk (h : Sim L L' G G' R A) (bytes : List UInt8) (hR : R s t) :
    R (printChunk bytes s) (printChunk bytes t) := by
  unfold Fat.printChunk
  induction bytes generalizing s t with
  | nil => exact hR
  | cons c bytes ih =>
    refine ih (h.note _ _ ?_)
    split
    · exact h.note _ _ hR
    · exact hR

lemma printed_suffix (L : Layer) (entry : DirectoryEntry) (s : St) :
    s.log <:+ (((List.ofFn entry.name).foldl (fun s c => s.note (.putc c))
      (s.note (.printf "  "))).note (.printf "\r\n")).log := by
  have hs := logged_stable L s
  exact (hs.note (.printf "\r\n") _ trivial (hs.putcs _
    (hs.note (.printf "  ") s trivial (.refl s)))).suffix

lemma listLoop_suffix (L : Layer) (file : Option Loc) (left : ℕ) (s : St) :
    (Fat.readEntry L file s).2.log <:+ (listLoop L file left s).2.log := by
  unfold listLoop
  rcases Fat.readEntry L file s with ⟨e | _ | entry, u⟩
  · exact List.suffix_rfl
  · exact List.suffix_rfl
  · cases left with
    | zero => exact List.suffix_rfl
    | succ left =>
      exact (printed_suffix L entry u).trans (listLoop_grows L file _ left)

lemma listEntry (h : Sim L L' G G' R A) (hall : ∀ loc d, A loc d) {file : Option Loc} {left : ℕ}
    (hR : R s t)
    (hg : Guarded G G' s t (listLoop L file left s).2 (listLoop L' file left t).2) :
    Same R (Fat.readEntry L file s) (Fat.readEntry L' file t) ∧
      Guarded G G' (Fat.readEntry L file s).2 (Fat.readEntry L' file t).2
        (listLoop L file left s).2 (listLoop L' file left t).2 := by
  obtain ⟨hg₁, hg₂⟩ := hg.split (readEntry_grows L file s) (readEntry_grows L' file t)
    (listLoop_suffix L file left s) (listLoop_suffix L' file left t)
  exact ⟨h.readEntry hR (fun p _ => hall p _) hg₁, hg₂⟩

theorem listLoop (h : Sim L L' G G' R A) (hall : ∀ loc d, A loc d) {file : Option Loc} :
    ∀ (left : ℕ) (s t : St), R s t →
      Guarded G G' s t (listLoop L file left s).2 (listLoop L' file left t).2 →
      Same R (listLoop L file left s) (listLoop L' file left t) := by
  intro left
  induction left with
  | zero =>
    intro s t hR hg
    obtain ⟨⟨hres, hR₁⟩, -⟩ := h.listEntry hall hR hg
    unfold Fat.listLoop
    rcases hs : Fat.readEntry L file s with ⟨r, s₁⟩
    rcases ht : Fat.readEntry L' file t with ⟨r', t₁⟩
    rw [hs, ht] at hres hR₁
    obtain rfl : r = r' := hres
    rcases r with e | _ | entry <;> exact ⟨rfl, hR₁⟩
  | succ left ih =>
    intro s t hR hg
    obtain ⟨⟨hres, hR₁⟩, hg₂⟩ := h.listEntry hall hR hg
    unfold Fat.listLoop at hg₂ ⊢
    rcases hs : Fat.readEntry L file s with ⟨r, s₁⟩
    rcases ht : Fat.readEntry L' file t with ⟨r', t₁⟩
    rw [hs, ht] at hres hR₁ hg₂
    obtain rfl : r = r' := hres
    rcases r with e | _ | entry
    · exact ⟨rfl, hR₁⟩
    · exact ⟨rfl, hR₁⟩
    · have hprinted := h.note (.printf "\r\n") (.printf "\r\n")
        (h.putcs (List.ofFn entry.name) (h.note (.printf "  ") (.printf "  ") hR₁))
      exact ih _ _ hprinted (hg₂.split (printed_suffix L entry s₁) (printed_suffix L' entry t₁)
        (listLoop_grows L file _ left) (listLoop_grows L' file _ left)).2

lemma printChunk_suffix (L : Layer) (bytes : List UInt8) (s : St) :
    s.log <:+ (Fat.printChunk bytes s).log :=
  ((logged_stable L s).printChunk bytes (.refl s)).suffix

lemma dumpLoop_suffix (L : Layer) (file : Option Loc) (rounds : ℕ) (s : St) :
    (Fat.read L file 100 s).2.log <:+ (dumpLoop L file (rounds + 1) s).2.log := by
  unfold dumpLoop
  rcases Fat.read L file 100 s with ⟨e | ⟨count, bytes⟩, u⟩
  · exact List.suffix_rfl
  · dsimp only
    split
    · exact List.suffix_rfl
    · exact (printChunk_suffix L bytes u).trans (dumpLoop_grows L file _ rounds)

theorem dumpLoop (h : Sim L L' G G' R A) (hall : ∀ loc d, A loc d) {file : Option Loc} :
    ∀ (rounds : ℕ) (s t : St), R s t →
      Guarded G G' s t (dumpLoop L file rounds s).2 (dumpLoop L' file rounds t).2 →
      Same R (dumpLoop L file rounds s) (dumpLoop L' file rounds t) := by
  intro rounds
  induction rounds with
  | zero => intro s t hR _; exact ⟨rfl, hR⟩
  | succ rounds ih =>
    intro s t hR hg
    have hgs := read_grows L file s 100
    have hgt := read_grows L' file t 100
    obtain ⟨hg₁, hg₂⟩ := hg.split hgs hgt (dumpLoop_suffix L file _ s) (dumpLoop_suffix L' file _ t)
    obtain ⟨hres, hR₁⟩ := h.read hR 100 (fun p _ => hall p _) hg₁
    unfold Fat.dumpLoop at hg₂ ⊢
    rcases hs : Fat.read L file 100 s with ⟨r, s₁⟩
    rcases ht : Fat.read L' file 100 t with ⟨r', t₁⟩
    rw [hs, ht] at hres hR₁ hg₂
    obtain rfl : r = r' := hres
    rcases r with e | ⟨count, bytes⟩
    · exact ⟨rfl, hR₁⟩
    · dsimp only at hg₂ ⊢
      split
      · exact ⟨rfl, hR₁⟩
      · next hcount =>
        rw [if_neg hcount, if_neg hcount] at hg₂
        exact ih _ _ (h.printChunk bytes hR₁) (hg₂.split (printChunk_suffix L bytes s₁)
          (printChunk_suffix L' bytes t₁) (dumpLoop_grows L file _ rounds)
          (dumpLoop_grows L' file _ rounds)).2

theorem closeAny (h : Sim L L' G G' R A) (hall : ∀ loc d, A loc d) (file : Option Loc) (hR : R s t) :
    Same R (Fat.close file s) (Fat.close file t) := by
  cases file with
  | none => exact ⟨rfl, hR⟩
  | some p => exact h.close hR (hall p _)

/-- **A file is opened, used and closed alike in both runs** when it is used alike. -/
theorem useFile (h : Sim L L' G G' R A) (hall : ∀ loc d, A loc d) (hR : R s t)
    {use : Layer → Option Loc → St → Except Stop Unit × St}
    (hgrows : ∀ L file u, u.log <:+ (use L file u).2.log)
    (huse : ∀ file s t, R s t → Guarded G G' s t (use L file s).2 (use L' file t).2 →
      Same R (use L file s) (use L' file t))
    {path : List UInt8} {name : NameBuffer}
    (hg : Guarded G G' s t (useFile use L fuel path name s).2 (useFile use L' fuel path name t).2) :
    Same R (useFile use L fuel path name s) (useFile use L' fuel path name t) := by
  have hend : ∀ (L : Layer) (file : Option Loc) (u : St),
      (use L file u).2.log <:+ (closeUsed file (use L file u)).2.log := by
    intro L file u
    rcases use L file u with ⟨e | _, v⟩
    · exact List.suffix_rfl
    · exact (close_log file v) ▸ List.suffix_rfl
  have hrest : ∀ (L : Layer) (u : St), (Fat.openPath L fuel path name u).2.log <:+
      (Fat.useFile use L fuel path name u).2.log := by
    intro L u
    unfold Fat.useFile
    rcases Fat.openPath L fuel path name u with ⟨e | file, v⟩
    · exact List.suffix_rfl
    · exact (hgrows L file v).trans (hend L file v)
  obtain ⟨hg₁, hg₂⟩ := hg.split (openPath_grows L s fuel path name)
    (openPath_grows L' t fuel path name) (hrest L s) (hrest L' t)
  obtain ⟨⟨hres, hR₁⟩, -⟩ := h.openPath hR (fun d => hall _ d) rfl hg₁
  unfold Fat.useFile at hg₂ ⊢
  rcases hs : Fat.openPath L fuel path name s with ⟨r, s₁⟩
  rcases ht : Fat.openPath L' fuel path name t with ⟨r', t₁⟩
  rw [hs, ht] at hres hR₁ hg₂
  obtain rfl : r = r' := hres
  rcases r with e | file
  · exact ⟨rfl, hR₁⟩
  obtain ⟨hg₃, -⟩ := hg₂.split (hgrows L file s₁) (hgrows L' file t₁) (hend L file s₁) (hend L' file t₁)
  obtain ⟨hres, hR₂⟩ := huse file _ _ hR₁ hg₃
  dsimp only
  rcases hs : use L file s₁ with ⟨r, s₂⟩
  rcases ht : use L' file t₁ with ⟨r', t₂⟩
  rw [hs, ht] at hres hR₂
  obtain rfl : r = r' := hres
  rcases r with e | _
  · exact ⟨rfl, hR₂⟩
  · exact h.closeAny hall file hR₂

theorem readDirectory (h : Sim L L' G G' R A) (hall : ∀ loc d, A loc d) (hR : R s t)
    {path : List UInt8} {name : NameBuffer}
    (hg : Guarded G G' s t (readDirectory L fuel path name s).2 (readDirectory L' fuel path name t).2) :
    Same R (readDirectory L fuel path name s) (readDirectory L' fuel path name t) := by
  have hgrows : ∀ (L : Layer) (file : Option Loc) (u : St), u.log <:+ (showEntries L file u).2.log :=
    fun L file u => (show u.log <:+ (u.note (.printf "\n")).log from List.suffix_cons _ _).trans
      (listLoop_grows L file _ 7)
  rw [readDirectory_eq, readDirectory_eq] at hg ⊢
  refine h.useFile hall hR hgrows (fun file u v hR hg => ?_) hg
  exact h.listLoop hall 7 _ _ (h.note _ (.printf "\n") hR) (hg.split (List.suffix_cons _ _)
    (List.suffix_cons _ _) (listLoop_grows L file _ 7) (listLoop_grows L' file _ 7)).2

theorem readFile (h : Sim L L' G G' R A) (hall : ∀ loc d, A loc d) (hR : R s t)
    {path : List UInt8} {name : NameBuffer}
    (hg : Guarded G G' s t (readFile L fuel path name s).2 (readFile L' fuel path name t).2) :
    Same R (readFile L fuel path name s) (readFile L' fuel path name t) := by
  have hdump : ∀ (L : Layer) (file : Option Loc) (u : St),
      (Fat.dumpLoop L file fuel u).2.log <:+ (showBytes fuel L file u).2.log := by
    intro L file u
    unfold showBytes
    rcases Fat.dumpLoop L file fuel u with ⟨e | _, v⟩
    · exact List.suffix_rfl
    · exact List.suffix_cons _ _
  rw [readFile_eq, readFile_eq] at hg ⊢
  refine h.useFile hall hR (fun L file u => (dumpLoop_grows L file u fuel).trans (hdump L file u))
    (fun file u v hR hg => ?_) hg
  obtain ⟨hg₁, -⟩ := hg.split (dumpLoop_grows L file u fuel) (dumpLoop_grows L' file v fuel)
    (hdump L file u) (hdump L' file v)
  obtain ⟨hres, hR₁⟩ := h.dumpLoop hall fuel _ _ hR hg₁
  unfold showBytes
  rcases hs : Fat.dumpLoop L file fuel u with ⟨r, s₁⟩
  rcases ht : Fat.dumpLoop L' file fuel v with ⟨r', t₁⟩
  rw [hs, ht] at hres hR₁
  obtain rfl : r = r' := hres
  rcases r with e | _
  · exact ⟨rfl, hR₁⟩
  · exact ⟨rfl, h.note _ _ hR₁⟩

/-- **Every call gives the same answer in both runs**, when all records are in common. -/
theorem call (h : Sim L L' G G' R A) (hall : ∀ loc d, A loc d) (c : Call) (hR : R s t)
    (hg : Guarded G G' s t (call L fuel c s).2 (call L' fuel c t).2) :
    Same R (call L fuel c s) (call L' fuel c t) := by
  cases c with
  | openEntry entry =>
    obtain ⟨⟨hres, hR'⟩, -⟩ := h.openEntry entry hR
    exact ⟨by simp only [Fat.call, hres], hR'⟩
  | nextCluster cluster =>
    obtain ⟨hres, hR'⟩ := h.next cluster hR hg.left hg.right
    exact ⟨by simp only [Fat.call, hres], hR'⟩
  | read file n =>
    obtain ⟨hres, hR'⟩ := h.read hR n (fun p _ => hall p _) hg
    exact ⟨by simp only [Fat.call, hres], hR'⟩
  | readEntry file =>
    obtain ⟨hres, hR'⟩ := h.readEntry hR (fun p _ => hall p _) hg
    exact ⟨by simp only [Fat.call, hres], hR'⟩
  | close file =>
    obtain ⟨hres, hR'⟩ := h.closeAny hall file hR
    exact ⟨by simp only [Fat.call, hres], hR'⟩
  | findFile file name =>
    obtain ⟨hres, hR'⟩ := h.findFile hR rfl (fun p _ => hall p _) hg
    exact ⟨by simp only [Fat.call, hres], hR'⟩
  | openPath path name =>
    obtain ⟨⟨hres, hR'⟩, -⟩ := h.openPath hR (fun d => hall _ d) rfl hg
    exact ⟨by simp only [Fat.call, hres], hR'⟩
  | readDirectory path name =>
    obtain ⟨hres, hR'⟩ := h.readDirectory hall hR hg
    exact ⟨by simp only [Fat.call, hres], hR'⟩
  | readFile path name =>
    obtain ⟨hres, hR'⟩ := h.readFile hall hR hg
    exact ⟨by simp only [Fat.call, hres], hR'⟩

end Sim

/-! ### The layers -/

variable {dev : Device} {part : Partition} {s t : St}

/-- The two requests for a window of the table that is not cached, with the partition offset and without
it, bring the same bytes. -/
def RefillAgrees (dev : Device) (part : Partition) (f : FatData) (clock : ℕ) (cluster : UInt32) :
    Prop :=
  f.misses (fatIndex f.fatType cluster / 512) = true →
    (dev.readSectors clock (f.reservedSectors + fatIndex f.fatType cluster / 512 + part.partitionOffset)
      2560 f.fatCache).2 =
    (dev.readSectors clock (f.reservedSectors + fatIndex f.fatType cluster / 512) 2560 f.fatCache).2

/-- Every lookup that is logged meets `RefillAgrees`. -/
def Agrees (dev : Device) (part : Partition) : Event → Prop
  | .nextCluster f clock cluster => RefillAgrees dev part f clock cluster
  | _ => True

lemma nextCluster_common {cluster : UInt32} (h : Common s t)
    (hr : RefillAgrees dev part s.fat s.clock cluster) (hid : ¬ part.disk.id < 0x80) :
    Same Common (nextCluster (bootLayer dev part) cluster s)
      (nextCluster (kernelLayer dev part) cluster t) := by
  obtain ⟨f, c, l⟩ := s
  obtain ⟨f', c', l'⟩ := t
  obtain ⟨rfl, rfl⟩ := h
  unfold nextCluster
  dsimp only [St.note_fat] at hr ⊢
  cases hm : f.misses (fatIndex f.fatType cluster / 512) with
  | false => rw [refill_hit hm, refill_hit hm]; exact ⟨rfl, rfl, rfl⟩
  | true =>
    have hbytes : ((kernelLayer dev part).readSectors c ((kernelLayer dev part).fatLba
        (f.reservedSectors + fatIndex f.fatType cluster / 512)) 2560 f.fatCache).2 =
        ((bootLayer dev part).readSectors c ((bootLayer dev part).fatLba
          (f.reservedSectors + fatIndex f.fatType cluster / 512)) 2560 f.fatCache).2 := by
      simp only [kernelLayer, kernelReadSectors, if_neg hid]
      exact (hr hm).symm
    rw [refill_miss hm, refill_miss hm]
    simp only [St.note_fat, St.note_clock, hbytes]
    exact ⟨rfl, rfl, rfl⟩

/-- On a hard disk the layers keep their states the same, as long as every refill agrees. -/
theorem common_sim (dev : Device) (part : Partition) (hid : ¬ part.disk.id < 0x80) :
    Sim (bootLayer dev part) (kernelLayer dev part) (Agrees dev part) (fun _ => True) Common
      fun _ _ => True where
  fd h _ := by rw [h.1]
  keep _ _ := trivial
  deref _ _ _ := trivial
  volume h := h.1 ▸ .refl _
  note _ _ h := h
  setFd {s t loc d} h _ _ := ⟨congrArg (fun f => f.setFd loc d) h.1, h.2⟩
  sector {s t} lba buf h := by
    refine ⟨?_, h.1, congrArg (· + 1) h.2⟩
    simp only [Layer.read, kernelLayer, bootLayer, kernelReadSectors, if_neg hid, h.2]
  next cluster h hl _ := nextCluster_common h (nextCluster_logged hl) hid
  openEntry entry h := by
    refine ⟨openEntry_common entry h fun i => ?_, fun _ _ => trivial⟩
    simp only [firstSector, kernelLayer, bootLayer, kernelReadSectors, if_neg hid, h.1, h.2]
  close h _ := close_common h

/-- **The kernel's layer does what the bootloader's layer does**, as long as every refill agrees: the
same answers, the bytes that are stored included, and the same state after every call. -/
theorem layers_agree (dev : Device) (part : Partition) (hid : ¬ part.disk.id < 0x80) (fuel : ℕ)
    (calls : List Call) (s t : St) (hst : s.fat = t.fat ∧ s.clock = t.clock)
    (hagrees : Along (call (bootLayer dev part) fuel)
      (fun u c => Logged (Agrees dev part) u (call (bootLayer dev part) fuel c u).2) calls s) :
    List.Forall₂ (fun a b => a.1 = b.1 ∧ a.2.fat = b.2.fat)
      (trace (call (bootLayer dev part) fuel) calls s)
      (trace (call (kernelLayer dev part) fuel) calls t) := by
  have hlogged : ∀ (u : St) (c : Call),
      Logged (fun _ => True) u (call (kernelLayer dev part) fuel c u).2 := fun u c => by
    obtain ⟨new, hnew, -⟩ := (logged_stable (kernelLayer dev part) u).call fuel c (.refl u)
    exact ⟨new, hnew, fun _ _ => trivial⟩
  refine (trace_sim (H := fun _ _ => True) (R := Common) (fun u v c hR hu _ => ?_) calls s t hst hagrees
    (along_true _ _)).imp fun _ _ h => ⟨h.1, h.2.1⟩
  exact (common_sim dev part hid).call (fun _ _ => trivial) c hR ⟨hu, hlogged v c⟩

lemma agrees_of_offset_zero (h : part.partitionOffset = 0) (e : Event) : Agrees dev part e := by
  cases e with
  | nextCluster f clock cluster => exact fun _ => by rw [h, UInt32.add_zero]
  | _ => trivial

theorem layers_agree_small :
    List.Forall₂ (fun a b => a.1 = b.1 ∧ a.2.fat = b.2.fat)
      (trace (call smallLayer 17) [.openPath [98] blankName, .read (some (.slot 0)) 600]
        (mounted smallLayer))
      (trace (call (kernelLayer (.ofDisk smallDisk) (hardDiskPartition 0)) 17)
        [.openPath [98] blankName, .read (some (.slot 0)) 600] (mounted smallLayer)) :=
  layers_agree (.ofDisk smallDisk) (hardDiskPartition 0) (by decide) 17 _ _ _ ⟨rfl, rfl⟩
    (along_of_forall _ fun c _ u => by
      obtain ⟨new, hnew, -⟩ := (logged_stable smallLayer u).call 17 c (.refl u)
      exact ⟨new, hnew, fun e _ => agrees_of_offset_zero rfl e⟩)

/-- The small volume in a partition that starts at sector 63. -/
def partitionedDisk : UInt32 → Sector := fun lba => smallDisk (lba - 63)

def partitionedLayer : Layer := bootLayer (.ofDisk partitionedDisk) (hardDiskPartition 63)

/-- The link of cluster 2 is 3, and the kernel's layer takes it out of a sector in front of the
partition. -/
theorem layers_disagree :
    (fatInitialize partitionedLayer .start).1 = .ok true ∧
    (nextCluster partitionedLayer 2 (mounted partitionedLayer)).1 = 3 ∧
    (nextCluster (kernelLayer (.ofDisk partitionedDisk) (hardDiskPartition 63)) 2
      (mounted partitionedLayer)).1 = 0 :=
  ⟨by decide +kernel, by decide +kernel, by decide +kernel⟩

end ArcOS.Fat
