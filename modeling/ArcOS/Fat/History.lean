import ArcOS.Fat.Files
import ArcOS.Fat.TwoRun

/-!
Path lookup and what came before it.

`Alike` relates two states of the bootloader's layer on one disk: the same slots are open, with the
same records, and the same root directory; the caches may differ as long as both are coherent. It is a
`Sim`, so lookups from states alike come to the same. A history of calls behind which every file is
closed leads to a state alike the one after `FAT_Initialize`, but for the buffer of the root
directory, which `FAT_Close` leaves as it is.
-/

namespace ArcOS.Fat

open Lib Lib.Transducer

variable {dev : Device} {part : Partition} {s t : St}

/-! ### States alike -/

/-- The two states have the volume, the open records and the root directory in common. -/
structure Alike (dev : Device) (part : Partition) (s t : St) : Prop where
  volume : SameVolume s.fat t.fat
  cache : Coherent dev part s ∧ Coherent dev part t
  named : Named s ∧ Named t
  root : s.fat.rootDirectory = t.fat.rootDirectory
  flags : ∀ i, (s.fat.openedFiles i).opened = (t.fat.openedFiles i).opened
  slots : ∀ i, (s.fat.openedFiles i).opened = true → s.fat.openedFiles i = t.fat.openedFiles i

/-- The records that states alike have in common. -/
def Shared : Loc → FileData → Prop
  | .root, _ => True
  | .slot _, d => d.opened = true

/-- No lookup that is logged straddles the end of its window. -/
def StraddleFree : Event → Prop
  | .nextCluster f _ cluster => ¬ Straddles f cluster
  | _ => True

namespace Alike

lemma fd {loc : Loc} (h : Alike dev part s t) (hA : Shared loc (s.fat.fd loc)) :
    s.fat.fd loc = t.fat.fd loc := by
  cases loc with
  | root => exact h.root
  | slot i => exact h.slots i hA

lemma freeSlot (h : Alike dev part s t) : s.fat.freeSlot = t.fat.freeSlot := by
  unfold FatData.freeSlot
  congr 1
  funext i
  rw [h.flags i]

lemma setFd (h : Alike dev part s t) (loc : Loc) {d : FileData} (hn : Named (s.setFd loc d))
    (hn' : Named (t.setFd loc d)) : Alike dev part (s.setFd loc d) (t.setFd loc d) := by
  refine ⟨?_, ⟨h.cache.1.setFd, h.cache.2.setFd⟩, ⟨hn, hn'⟩, ?_, fun i => ?_, fun i hi => ?_⟩
  · cases loc <;> exact ⟨h.volume.1, h.volume.2, h.volume.3⟩
  · cases loc with
    | root => rfl
    | slot i => exact h.root
  · cases loc with
    | root => exact h.flags i
    | slot j =>
      by_cases hij : i = j
      · subst hij
        simp only [St.setFd_fat, FatData.setFd, Function.update_self]
      · simp only [St.setFd_fat, FatData.setFd, Function.update_of_ne hij]
        exact h.flags i
  · cases loc with
    | root => exact h.slots i hi
    | slot j =>
      by_cases hij : i = j
      · subst hij
        simp only [St.setFd_fat, FatData.setFd, Function.update_self]
      · simp only [St.setFd_fat, FatData.setFd, Function.update_of_ne hij] at hi ⊢
        exact h.slots i hi

lemma of_fat {s' t' : St} (h : Alike dev part s t) (hs : s'.fat = s.fat) (ht : t'.fat = t.fat) :
    Alike dev part s' t' := by
  obtain ⟨f, c, l⟩ := s'
  obtain ⟨f', c', l'⟩ := t'
  dsimp only at hs ht
  subst hs ht
  exact ⟨h.volume, h.cache, ⟨⟨h.named.1.root, h.named.1.slot⟩, ⟨h.named.2.root, h.named.2.slot⟩⟩, h.root,
    h.flags, h.slots⟩

lemma nextCluster (hrel : dev.Reliable) (h : Alike dev part s t) {cluster : UInt32}
    (hs : ¬ Straddles s.fat cluster) (ht : ¬ Straddles t.fat cluster) :
    Same (Alike dev part) (nextCluster (bootLayer dev part) cluster s)
      (nextCluster (bootLayer dev part) cluster t) := by
  have hfinds : ∀ u : St, ¬ Straddles u.fat cluster → Finds dev part u.fat u.clock cluster :=
    fun u hu => ⟨fun _ => by rw [Device.readSectors_of_ok (hrel _ _)], hu⟩
  obtain ⟨hlink, hc⟩ := nextCluster_found h.cache.1 (hfinds s hs)
  obtain ⟨hlink', hc'⟩ := nextCluster_found h.cache.2 (hfinds t ht)
  have hfd := nextCluster_fd (bootLayer dev part) cluster
  refine ⟨by rw [hlink, hlink', h.volume.diskLink], ?_, ⟨hc, hc'⟩,
    ⟨(named_stable _).nextCluster cluster h.named.1, (named_stable _).nextCluster cluster h.named.2⟩,
    ?_, fun i => ?_, fun i hi => ?_⟩
  · obtain ⟨hft, hbs⟩ := nextCluster_volume (bootLayer dev part) cluster s
    have hv := (SameVolume.stable (bootLayer dev part) s.fat).nextCluster cluster (s := t) h.volume
    have hv' := (SameVolume.stable (bootLayer dev part) s.fat).nextCluster cluster (s := s) (.refl _)
    exact ⟨hv.1.trans hv'.1.symm, hv.2.trans hv'.2.symm, hv.3.trans hv'.3.symm⟩
  · exact ((hfd s .root).trans h.root).trans (hfd t .root).symm
  · have h1 := hfd s (.slot i)
    have h2 := hfd t (.slot i)
    simp only [FatData.fd_slot] at h1 h2
    rw [h1, h2]
    exact h.flags i
  · have h1 := hfd s (.slot i)
    have h2 := hfd t (.slot i)
    simp only [FatData.fd_slot] at h1 h2
    rw [h1] at hi ⊢
    rw [h2]
    exact h.slots i hi

lemma openEntry (hrel : dev.Reliable) (h : Alike dev part s t) (entry : DirectoryEntry) :
    Same (Alike dev part) (openEntry (bootLayer dev part) entry s)
        (openEntry (bootLayer dev part) entry t) ∧
      ∀ p, (openEntry (bootLayer dev part) entry s).1 = some p →
        Shared p ((openEntry (bootLayer dev part) entry s).2.fat.fd p) := by
  cases hfree : s.fat.freeSlot with
  | none =>
    rw [openEntry_full hfree, openEntry_full (h.freeSlot ▸ hfree)]
    exact ⟨⟨rfl, h.of_fat rfl rfl⟩, fun p hp => by cases hp⟩
  | some i =>
    have hfree' : t.fat.freeSlot = some i := h.freeSlot ▸ hfree
    have hread : ∀ u : St, firstSector (bootLayer dev part) entry i u =
        (true, dev.window (u.fat.clusterToLba entry.firstCluster + part.partitionOffset) 512) :=
      fun u => Device.readSectors_of_ok (hrel _ _) _ _
    have hrec : openedRecord (bootLayer dev part) entry i t =
        openedRecord (bootLayer dev part) entry i s := by
      simp only [openedRecord, entryRecord, hread, h.volume.clusterToLba]
    rw [openEntry_ok hfree (by rw [hread]), openEntry_ok hfree' (by rw [hread]), hrec]
    refine ⟨⟨rfl, (h.setFd (.slot i) ?_ ?_).of_fat rfl rfl⟩, fun p hp => ?_⟩
    · exact (named_stable (bootLayer dev part)).setSlot i _ s (opened_of_freeSlot hfree) rfl h.named.1
    · exact (named_stable (bootLayer dev part)).setSlot i _ t (opened_of_freeSlot hfree') rfl h.named.2
    · cases hp
      rw [FatData.fd_setFd]
      simp only [Shared, openedRecord, hread]

lemma close {p : Loc} (h : Alike dev part s t) (hA : Shared p (s.fat.fd p)) :
    Same (Alike dev part) (close (some p) s) (close (some p) t) := by
  have hn := (named_stable (bootLayer dev part)).close (some p) s h.named.1
  have hn' := (named_stable (bootLayer dev part)).close (some p) t h.named.2
  cases p with
  | root =>
    rw [close_root h.named.1.deref_root] at hn ⊢
    rw [close_root h.named.2.deref_root, ← h.root] at hn' ⊢
    exact ⟨rfl, h.setFd _ hn hn'⟩
  | slot i =>
    have hi : (t.fat.openedFiles i).opened = true := (h.flags i).symm.trans hA
    rw [close_slot (h.named.1.deref_slot hA)] at hn ⊢
    rw [close_slot (h.named.2.deref_slot hi), ← h.slots i hA] at hn' ⊢
    exact ⟨rfl, h.setFd _ hn hn'⟩

/-- **On a disk whose reads succeed, states alike stay alike** as long as no lookup straddles the end
of its window. -/
theorem sim (part : Partition) (hrel : dev.Reliable) :
    Sim (bootLayer dev part) (bootLayer dev part) StraddleFree StraddleFree (Alike dev part) Shared where
  fd h hA := h.fd hA
  keep {loc d d'} hA hk := by
    cases loc with
    | root => trivial
    | slot i => exact hk.opened.trans hA
  deref {s t p loc} h hA hd := by
    cases p with
    | root =>
      rw [h.named.1.deref_root] at hd
      cases hd
      trivial
    | slot i =>
      rw [h.named.1.deref_slot hA] at hd
      cases hd
      exact hA
  volume h := h.volume
  note _ _ h := h.of_fat rfl rfl
  setFd {s t loc d} h hA hk := by
    refine h.setFd _ (h.named.1.setFd _ _ hk.handle fun ho => hk.opened ▸ ho) (h.named.2.setFd _ _ ?_ ?_)
    · rw [← h.fd hA]; exact hk.handle
    · rw [← h.fd hA]; exact fun ho => hk.opened ▸ ho
  sector {s t} lba buf h := by
    refine ⟨?_, h.of_fat rfl rfl⟩
    exact (Device.readSectors_of_ok (hrel _ _) _ _).trans
      (Device.readSectors_of_ok (hrel _ _) _ _).symm
  next cluster h hl hr := h.nextCluster hrel (nextCluster_logged hl) (nextCluster_logged hr)
  openEntry entry h := h.openEntry hrel entry
  close h hA := h.close hA

end Alike

/-! ### Histories -/

theorem root_stable (L : Layer) (d : FileData) :
    StableCalls L fun s => Keeps d s.fat.rootDirectory where
  note _ _ _ h := h
  disk _ _ _ _ h := h
  refill sector s h := by unfold refill; split <;> exact h
  setFd loc d' s _ hk h := by
    cases loc with
    | root => exact h.trans hk
    | slot i => exact h
  setSlot _ _ _ _ _ h := h
  search _ _ _ h := h
  close file s h := by
    unfold Fat.close
    split
    · exact h
    next p =>
    split
    · exact h
    · cases p with
      | root => exact ⟨h.handle, h.isDirectory, h.opened, h.firstCluster, h.root⟩
      | slot i => exact ⟨h.handle, h.isDirectory, h.opened, h.firstCluster, h.root⟩
    · exact h

/-- Behind a history every opened file has been closed, and the root directory rewound. -/
structure AllClosed (s : St) : Prop where
  slots : ∀ i, (s.fat.openedFiles i).opened = false
  position : s.fat.rootDirectory.pub.position = 0
  cursor : s.fat.rootDirectory.currentCluster = s.fat.rootDirectory.firstCluster

/-- **A history that ends with every file closed leads to a state alike the first**, if the buffer of the
root directory holds its first sector. -/
theorem history_alike {s₀ : St} (hrel : dev.Reliable)
    (hinit : fatInitialize (bootLayer dev part) s₀ = (.ok true, t)) (fuel : ℕ) (history : List Call)
    (hs : final (call (bootLayer dev part) fuel) history t = s) (hclosed : AllClosed s)
    (hbuffer : s.fat.rootDirectory.buffer =
      dev.disk (s.fat.rootDirectory.firstCluster + part.partitionOffset)) : Alike dev part s t := by
  have hi := fatInitialize_initialised hinit
  have hreach : Reachable (bootLayer dev part) s :=
    hs ▸ final_inv' (fun u c hu => .call fuel c hu) history t (.init hinit)
  have hkeeps : Keeps t.fat.rootDirectory s.fat.rootDirectory :=
    hs ▸ final_inv' (P := fun u : St => Keeps t.fat.rootDirectory u.fat.rootDirectory)
      (fun u c hu => (root_stable (bootLayer dev part) _).call fuel c hu) history t (.refl _)
  have hvol : SameVolume t.fat s.fat :=
    hs ▸ final_inv' (P := fun u : St => SameVolume t.fat u.fat)
      (fun u c hu => (SameVolume.stable (bootLayer dev part) t.fat).call fuel c hu) history t (.refl _)
  refine ⟨hvol.symm, ⟨hreach.coherent hrel, hi.coherent⟩, ⟨hreach.named, hi.named⟩, ?_, fun i => ?_,
    fun i h => ?_⟩
  · obtain ⟨clock, buf, hread⟩ := hi.rootBuffer
    have hbuf : t.fat.rootDirectory.buffer =
        dev.disk (t.fat.rootDirectory.firstCluster + part.partitionOffset) :=
      calc t.fat.rootDirectory.buffer = _ := (congrArg Prod.snd hread).symm
        _ = _ := readSectors_true _ (congrArg Prod.fst hread)
        _ = dev.disk (t.fat.rootDirectory.firstCluster + part.partitionOffset) :=
          Device.window_sector _ _
    obtain ⟨hsize, hsector⟩ := hkeeps.root hi.named.root
    have hpub : s.fat.rootDirectory.pub = t.fat.rootDirectory.pub :=
      File.ext hkeeps.handle hkeeps.isDirectory (by rw [hclosed.position, hi.rootPub]) hsize
    exact FileData.ext (by rw [hbuffer, hbuf, hkeeps.firstCluster]) hpub hkeeps.opened
      hkeeps.firstCluster
      (by rw [hclosed.cursor, hi.rootCursor.1, hkeeps.firstCluster]) hsector
  · rw [hclosed.slots, hi.closed]
  · rw [hclosed.slots] at h
    cases h

theorem straddleFree_stable {f : FatData} (L : Layer) (hft : f.fatType ≠ 12) (s : St) :
    StableCalls L fun u => SameVolume f u.fat ∧ Logged StraddleFree s u where
  note e u he h := by
    refine ⟨h.1, h.2.trans (.cons ?_ rfl)⟩
    cases e with
    | nextCluster f' clock cluster =>
      obtain ⟨rfl, rfl⟩ := he
      exact fun hs => hft (h.1.fatType ▸ hs.2.1)
    | _ => trivial
  disk _ _ _ _ h := ⟨h.1, h.2.trans (.cons (show StraddleFree (.diskRead _ _) from trivial) rfl)⟩
  refill sector u h := by
    refine ⟨(SameVolume.stable L f).refill sector u h.1, h.2.trans ?_⟩
    unfold refill
    split
    · exact .cons (show StraddleFree (.diskRead _ _) from trivial) rfl
    · exact .refl u
  setFd loc d u hA hk h := ⟨(SameVolume.stable L f).setFd loc d u hA hk h.1, h.2⟩
  setSlot i d u ho hd h := ⟨(SameVolume.stable L f).setSlot i d u ho hd h.1, h.2⟩
  close file u h :=
    ⟨(SameVolume.stable L f).close file u h.1, by unfold Logged at *; rw [close_log]; exact h.2⟩
  search file name u h :=
    ⟨h.1, h.2.trans (.cons (show StraddleFree (.findFile _ file name) from trivial) rfl)⟩

/-- A read makes no lookup that straddles the end of its window. -/
def ReadsStraddleFree (dev : Device) (part : Partition) (p : Loc) (u : St) (n : UInt32) : Prop :=
  Logged StraddleFree u (Boot.fatRead dev part (some p) n u).2

/-- **Opening a path after a history is opening it first thing**: the same outcome, the same record,
and the same answers to every sequence of reads. -/
theorem openPath_forgets (dev : Device) (part : Partition) (hrel : dev.Reliable) (s₀ s t : St)
    (hinit : Boot.fatInitialize dev part s₀ = (.ok true, t)) (fuel : ℕ) (history : List Call)
    (hs : final (call (bootLayer dev part) fuel) history t = s) (hclosed : AllClosed s)
    (hbuffer : s.fat.rootDirectory.buffer =
      dev.disk (s.fat.rootDirectory.firstCluster + part.partitionOffset))
    (path : List UInt8) (name name' : NameBuffer) (hnames : pathNames path name = pathNames path name')
    (hlog : Logged StraddleFree s (Boot.fatOpen dev part fuel path name s).2)
    (hlog' : Logged StraddleFree t (Boot.fatOpen dev part fuel path name' t).2) :
    (Boot.fatOpen dev part fuel path name s).1 = (Boot.fatOpen dev part fuel path name' t).1 ∧
      ∀ p, (Boot.fatOpen dev part fuel path name s).1 = .ok (some p) →
        (Boot.fatOpen dev part fuel path name s).2.fat.fd p =
            (Boot.fatOpen dev part fuel path name' t).2.fat.fd p ∧
          ∀ requests, Along (Boot.fatRead dev part (some p)) (ReadsStraddleFree dev part p) requests
              (Boot.fatOpen dev part fuel path name s).2 →
            Along (Boot.fatRead dev part (some p)) (ReadsStraddleFree dev part p) requests
              (Boot.fatOpen dev part fuel path name' t).2 →
            List.Forall₂ (fun a b => a.1 = b.1)
              (trace (Boot.fatRead dev part (some p)) requests
                (Boot.fatOpen dev part fuel path name s).2)
              (trace (Boot.fatRead dev part (some p)) requests
                (Boot.fatOpen dev part fuel path name' t).2) := by
  have hsim := Alike.sim part hrel
  have halike := history_alike hrel hinit fuel history hs hclosed hbuffer
  obtain ⟨⟨hres, hopened⟩, hshared⟩ := hsim.openPath halike (fun _ => trivial) hnames ⟨hlog, hlog'⟩
  refine ⟨hres, fun p hp => ⟨hopened.fd (hshared p hp), fun requests hg hg' => ?_⟩⟩
  -- the record stays shared while it is read through, so every read gives the same answer
  refine (trace_sim (R := fun u v => Alike dev part u v ∧ Shared p (u.fat.fd p))
    (fun u v n hR hu hv => ?_) requests _ _ ⟨hopened, hshared p hp⟩ hg hg').imp fun _ _ h => h.1
  obtain ⟨hanswer, hR'⟩ := hsim.read hR.1 n (fun q hq => by cases hq; exact hR.2) ⟨hu, hv⟩
  exact ⟨hanswer, hR', hsim.keep hR.2 ((keeps_stable (bootLayer dev part) p u).read n
    (fun _ _ => trivial) (.refl _))⟩

/-- A history that opens a file of the small volume and closes it. -/
def opened : St :=
  final (call smallLayer 17) [.openPath [98] blankName, .close (some (.slot 0))] (mounted smallLayer)

theorem openPath_forgets_small :
    (Boot.fatOpen (.ofDisk smallDisk) (hardDiskPartition 0) 17 [98] blankName opened).1 =
      (Boot.fatOpen (.ofDisk smallDisk) (hardDiskPartition 0) 17 [98] blankName
        (mounted smallLayer)).1 := by
  have hft : (mounted smallLayer).fat.fatType ≠ 12 := by decide +kernel
  have hft' : opened.fat.fatType ≠ 12 := by decide +kernel
  have hbuffer : ∀ i, opened.fat.rootDirectory.buffer i = (Device.ofDisk smallDisk).disk
      (opened.fat.rootDirectory.firstCluster + (hardDiskPartition 0).partitionOffset) i := by
    decide +kernel
  exact (openPath_forgets (.ofDisk smallDisk) (hardDiskPartition 0) (fun _ _ => rfl) .start opened
    (mounted smallLayer) (Prod.ext smallLayer_mounts rfl) 17
    [.openPath [98] blankName, .close (some (.slot 0))] rfl
    ⟨by decide +kernel, by decide +kernel, by decide +kernel⟩ (funext hbuffer) [98] blankName blankName
    rfl ((straddleFree_stable _ hft' _).openPath 17 [98] blankName ⟨.refl _, .refl _⟩).2
    ((straddleFree_stable _ hft _).openPath 17 [98] blankName ⟨.refl _, .refl _⟩).2).1

/-- A lookup of a name that is missing, behind which the buffer of the root directory holds the sector
behind the last of the root directory. -/
def missed : St := final (call smallLayer 17) [.openPath [99] blankName] (mounted smallLayer)

/-- After a lookup that failed, a path that could be opened first thing is not found. -/
theorem openPath_remembers :
    (fatInitialize smallLayer .start).1 = .ok true ∧ AllClosed missed ∧
    pathNames [98] blankName = [[98]] ∧
    (openPath smallLayer 17 [98] blankName (mounted smallLayer)).1 = .ok (some (.slot 0)) ∧
    (openPath smallLayer 17 [98] blankName missed).1 = .ok none :=
  ⟨smallLayer_mounts, ⟨by decide +kernel, by decide +kernel, by decide +kernel⟩, by decide +kernel,
    by decide +kernel, by decide +kernel⟩

end ArcOS.Fat
