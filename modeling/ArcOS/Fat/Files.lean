import ArcOS.Fat.Content

/-!
Reading files.

A directory entry and a chain make a file (`IsFile`). `openEntry_onChain` says that `FAT_OpenEntry` starts on the
chain. `reads_faithful` is about one handle and a disk whose reads may fail, `reads_interleaved` about
any number of handles and a disk whose reads succeed.
-/

namespace ArcOS.Fat

open Lib Lib.Transducer

variable (dev : Device) (part : Partition)

/-- The entry of a regular file whose chain, linked on the disk, is long enough for its size. -/
structure IsFile (f : FatData) (entry : DirectoryEntry) (chain : List UInt32) : Prop where
  regular : entry.attributes &&& attributeDirectory = 0
  first : ∀ c, chain.head? = some c → c = entry.firstCluster
  linked : Linked dev part f chain
  room : entry.size.toNat ≤ 512 * f.sectorsPerCluster.toNat * chain.length

/-- The content of a file: the first bytes of its clusters laid end to end. -/
def fileContent (f : FatData) (entry : DirectoryEntry) (chain : List UInt32) : List UInt8 :=
  (chain.flatMap (clusterBytes dev part f)).take entry.size.toNat

variable {dev part} {f : FatData} {entry : DirectoryEntry} {chain : List UInt32} {s s' : St}

lemma fileContent_eq (hspc : 0 < f.sectorsPerCluster.toNat) (h : IsFile dev part f entry chain) :
    fileContent dev part f entry chain = stretch (chainByte dev part f chain) 0 entry.size.toNat := by
  rw [fileContent, chain_content _ _ _ hspc, take_stretch, Nat.min_eq_left h.room]

/-- A handle of a file: it names its record, which is on the chain and has the size of the file. -/
structure Handle (dev : Device) (part : Partition) (f : FatData) (entry : DirectoryEntry)
    (chain : List UInt32) (i : Fin 10) (s : St) : Prop where
  deref : s.fat.deref (some (.slot i)) = .ok (.slot i)
  onChain : OnChain dev part f chain (.slot i) s
  size : (s.fat.fd (.slot i)).pub.size = entry.size

theorem openedRecord_onChain {i : Fin 10} {s₀ : St} (hv : SameVolume f s₀.fat)
    (hfile : IsFile dev part f entry chain) (hr : (firstSector (bootLayer dev part) entry i s₀).1 = true) :
    Cursor f chain (openedRecord (bootLayer dev part) entry i s₀) ∧
      Loaded dev part f (openedRecord (bootLayer dev part) entry i s₀) := by
  have hplace : 0 < entry.size.toNat → entry.firstCluster = chain.getD 0 0 := fun h => by
    cases hc : chain with
    | nil =>
      have := hfile.room
      rw [hc] at this
      simp at this
      omega
    | cons c cs =>
      rw [← hfile.first c (by rw [hc]; rfl)]
      rfl
  refine ⟨⟨?_, ?_, Nat.zero_le _, hfile.room, fun h => ?_⟩, fun _ => ?_⟩
  · simp only [openedRecord, entryRecord, rootDirectoryHandle]
    omega
  · simp [openedRecord, entryRecord, hfile.regular]
  · refine ⟨?_, ?_⟩
    · simpa [openedRecord, entryRecord] using hplace h
    · simp [openedRecord, entryRecord]
  · have hread := readSectors_true dev hr
    simp only [openedRecord, entryRecord, UInt32.add_zero]
    rw [← hv.clusterToLba, ← Device.window_sector]
    exact hread

lemma entryB_isFile {ok : ℕ → UInt32 → Bool} {f : FatData} (hbs : f.bootSector = smallVolume.bootSector)
    (hft : f.fatType = 16) : IsFile (.ofDisk smallDisk ok) (hardDiskPartition 0) f entryB [2, 3] := by
  refine ⟨by decide +kernel, fun c hc => by cases hc; decide +kernel, ⟨by simp, fun i hi => ?_⟩, ?_⟩
  · have h0 : i = 0 := by
      simp at hi
      omega
    subst h0
    have hlink : diskLink (.ofDisk smallDisk) (hardDiskPartition 0) (mounted smallLayer).fat 2 = 3 := by
      decide +kernel
    have hm : (mounted smallLayer).fat.fatType = 16 ∧
        (mounted smallLayer).fat.reservedSectors = 1 := by decide +kernel
    have hr : f.reservedSectors = 1 := by
      rw [FatData.reservedSectors, hbs]
      decide +kernel
    simp only [diskLink, tableByte, tableLba, hm.1, hm.2] at hlink
    simp only [diskLink, tableByte, tableLba, hft, hr]
    exact hlink
  · simp only [FatData.sectorsPerCluster, hbs]
    decide +kernel

/-! ### A disk whose reads succeed -/

theorem finds_stable (hrel : dev.Reliable) (hft : f.fatType ≠ 12) (s : St) :
    Stable (bootLayer dev part) (fun _ => True)
      fun t => SameVolume f t.fat ∧ Logged (FindsEvent dev part) s t where
  note e t he h := by
    refine ⟨h.1, h.2.trans (.cons ?_ rfl)⟩
    cases e with
    | nextCluster f' clock cluster =>
      obtain ⟨rfl, rfl⟩ := he
      exact ⟨fun _ => by rw [Device.readSectors_of_ok (hrel _ _)],
        fun hs => hft (h.1.fatType ▸ hs.2.1)⟩
    | _ => trivial
  disk lba n buf t h :=
    ⟨h.1, h.2.trans (.cons (show FindsEvent dev part (.diskRead _ _) from trivial) rfl)⟩
  refill sector t h := by
    refine ⟨(SameVolume.stable (bootLayer dev part) f).refill sector t h.1, h.2.trans ?_⟩
    unfold refill
    split
    · exact .cons (show FindsEvent dev part (.diskRead _ _) from trivial) rfl
    · exact .refl t
  setFd loc d t hA hk h := ⟨(SameVolume.stable (bootLayer dev part) f).setFd loc d t hA hk h.1, h.2⟩

lemma others_stable (L : Layer) (i : Fin 10) (s : St) :
    Stable L (· = .slot i) fun t => ∀ j ≠ i, t.fat.openedFiles j = s.fat.openedFiles j where
  note _ _ _ h := h
  disk _ _ _ _ h := h
  refill sector t h := by unfold refill; split <;> exact h
  setFd loc d t hA _ h := by
    subst hA
    intro j hj
    rw [← h j hj]
    exact Function.update_of_ne hj _ _

/-- A handle whose next bytes are in its buffer. -/
structure Ready (dev : Device) (part : Partition) (f : FatData) (entry : DirectoryEntry)
    (chain : List UInt32) (i : Fin 10) (s : St) : Prop
    extends Handle dev part f entry chain i s where
  loaded : Loaded dev part f (s.fat.fd (.slot i))

/-- On a FAT16 or FAT32 volume whose reads succeed, every lookup of a read finds its link. -/
lemma Ready.finds (hrel : dev.Reliable) (hft : f.fatType ≠ 12) {i : Fin 10}
    (h : Ready dev part f entry chain i s) (n : UInt32) :
    Logged (FindsEvent dev part) s (read (bootLayer dev part) (some (.slot i)) n s).2 :=
  (Stable.read (finds_stable (f := f) hrel hft s) n (fun _ _ => trivial)
    ⟨h.onChain.volume, .refl s⟩).2

/-- **One request on one of several handles**: it delivers all it can of the file, and every handle,
its own and the others, stays ready. -/
theorem read_ready (hrel : dev.Reliable) (hspc : 0 < f.sectorsPerCluster.toNat)
    {i : Fin 10} (hfile : IsFile dev part f entry chain) (h : Ready dev part f entry chain i s)
    (n : UInt32)
    (hfinds : Logged (FindsEvent dev part) s (read (bootLayer dev part) (some (.slot i)) n s).2) :
    ∃ count, (read (bootLayer dev part) (some (.slot i)) n s).1 = .ok (count, stretch
        (chainByte dev part f chain) (s.fat.openedFiles i).pub.position.toNat count.toNat) ∧
      count.toNat =
        min n.toNat (entry.size.toNat - (s.fat.openedFiles i).pub.position.toNat) ∧
      ((read (bootLayer dev part) (some (.slot i)) n s).2.fat.openedFiles i).pub.position.toNat =
        (s.fat.openedFiles i).pub.position.toNat + count.toNat ∧
      Ready dev part f entry chain i (read (bootLayer dev part) (some (.slot i)) n s).2 ∧
      ∀ j ≠ i, (read (bootLayer dev part) (some (.slot i)) n s).2.fat.openedFiles j =
          s.fat.openedFiles j ∧
        ∀ entry' chain', Ready dev part f entry' chain' j s →
          Ready dev part f entry' chain' j (read (bootLayer dev part) (some (.slot i)) n s).2 := by
  have hA : ∀ loc, s.fat.deref (some (.slot i)) = .ok loc → loc = .slot i := fun loc hloc => by
    rw [h.deref] at hloc
    cases hloc
    rfl
  have hothers : ∀ j ≠ i, (read (bootLayer dev part) (some (.slot i)) n s).2.fat.openedFiles j =
      s.fat.openedFiles j := (others_stable (bootLayer dev part) i s).read n hA fun _ _ => rfl
  obtain ⟨hcap, count, hres, -, ho', hpub, hload⟩ :=
    read_content hfile.linked hspc h.deref h.onChain (fun _ => h.loaded) hfinds
  obtain ⟨hcount, hload'⟩ := hload hrel h.loaded
  rw [h.size] at hcap
  rw [← hcount] at hcap
  have hin := h.onChain.cursor.inside
  rw [h.size] at hin
  have hz := entry.size.toNat_lt
  refine ⟨count, hres, hcap, ?_, ⟨⟨?_, ho', by rw [hpub]; exact h.size⟩, hload'⟩,
    fun j hj => ⟨hothers j hj, fun entry' chain' hj' => ?_⟩⟩
  · have hpos := congrArg (fun p : File => p.position.toNat) hpub
    dsimp only [FatData.fd] at hpos hcap hin ⊢
    rw [hpos, UInt32.toNat_add, Nat.mod_eq_of_lt (by omega)]
  · rw [← h.deref]
    simp only [FatData.deref, hpub]
  · have hfd : (read (bootLayer dev part) (some (.slot i)) n s).2.fat.fd (.slot j) =
        s.fat.fd (.slot j) := hothers j hj
    refine ⟨⟨?_, ⟨ho'.volume, ho'.cache, by rw [hfd]; exact hj'.onChain.cursor⟩,
      by rw [hfd]; exact hj'.size⟩, by rw [hfd]; exact hj'.loaded⟩
    rw [← hj'.deref]
    simp only [FatData.deref, hfd]

/-! ### One handle, on a disk whose reads may fail -/

/-- `FAT_OpenEntry` starts a file on its chain, with the first sector in the buffer. -/
theorem openEntry_onChain {p : Loc} (hc : Coherent dev part s)
    (hfile : IsFile dev part s.fat entry chain)
    (h : openEntry (bootLayer dev part) entry s = (some p, s')) :
    s'.fat.deref (some p) = .ok p ∧ OnChain dev part s.fat chain p s' ∧
      Loaded dev part s.fat (s'.fat.fd p) ∧ (s'.fat.fd p).pub.size = entry.size ∧
      (s'.fat.fd p).pub.position = 0 := by
  obtain ⟨i, rfl, -, hr, rfl⟩ := openEntry_some h
  obtain ⟨hcur, hload⟩ := openedRecord_onChain (.refl s.fat) hfile hr
  refine ⟨deref_of_handle ?_, ⟨⟨rfl, rfl, rfl⟩, hc, ?_⟩, ?_, ?_, ?_⟩
  · simp [FatData.setFd, openedRecord, entryRecord]
  all_goals rw [FatData.fd_setFd]
  · exact hcur
  · exact hload
  · rfl
  · rfl

/-- The condition under which a read delivers what the file holds: where it asks for bytes that are
left, the buffer holds the sector that the cursor names, and every lookup it makes finds its link. -/
def ReadGuard (dev : Device) (part : Partition) (f : FatData) (p : Loc) (t : St) (n : UInt32) : Prop :=
  (0 < n.toNat → Loaded dev part f (t.fat.fd p)) ∧
    Logged (FindsEvent dev part) t (Boot.fatRead dev part (some p) n t).2

/-- **What is read is what the file holds**, as long as every read meets its guard. -/
theorem reads_faithful (dev : Device) (part : Partition) (entry : DirectoryEntry)
    (chain : List UInt32) (s₀ s : St) (p : Loc) (hspc : s₀.fat.sectorsPerCluster ≠ 0)
    (hcache : Coherent dev part s₀) (hfile : IsFile dev part s₀.fat entry chain)
    (hopen : Boot.fatOpenEntry dev part entry s₀ = (some p, s)) (requests : List UInt32)
    (hguard : Along (Boot.fatRead dev part (some p)) (ReadGuard dev part s₀.fat p) requests s) :
    Always (Boot.fatRead dev part (some p)) (fun t _ r _ => ∀ count stored, r = .ok (count, stored) →
      ∀ k < stored.length, stored[k]? = (fileContent dev part s₀.fat entry chain)[
        (t.fat.fd p).pub.position.toNat + k]?) requests s := by
  have hpos : 0 < s₀.fat.sectorsPerCluster.toNat := by
    by_contra h
    exact hspc (UInt32.toNat_inj.mp (by simpa using h))
  obtain ⟨hderef, hon, -, hsize, -⟩ := openEntry_onChain hcache hfile hopen
  refine always_of_step (P := fun t => t.fat.deref (some p) = .ok p ∧
    OnChain dev part s₀.fat chain p t ∧ (t.fat.fd p).pub.size = entry.size)
    (fun t n ht hg => ?_) requests s ⟨hderef, hon, hsize⟩ hguard
  obtain ⟨hd, ho, hz⟩ := ht
  obtain ⟨hcap, count, hres, hle, ho', hpub, -⟩ := read_content hfile.linked hpos hd ho hg.1 hg.2
  refine ⟨fun count' stored hr k hk => ?_, ?_, ho', by rw [hpub]; exact hz⟩
  · rw [hres] at hr
    cases hr
    rw [length_stretch] at hk
    have hin := ho.cursor.inside
    rw [hz] at hin hcap
    rw [fileContent_eq hpos hfile, getElem?_stretch, getElem?_stretch, if_pos hk,
      if_pos (by omega), Nat.zero_add]
  · rw [← hd]
    simp only [FatData.deref, hpub]

lemma Ready.guard (hrel : dev.Reliable) (hft : f.fatType ≠ 12) {i : Fin 10}
    (h : Ready dev part f entry chain i s) (n : UInt32) : ReadGuard dev part f (.slot i) s n :=
  ⟨fun _ => h.loaded, h.finds hrel hft n⟩

/-- The state of the small volume with `B` open. -/
def openedB : St := (openEntry smallLayer entryB (mounted smallLayer)).2

lemma openEntry_entryB : openEntry smallLayer entryB (mounted smallLayer) = (some (.slot 0), openedB) :=
  Prod.ext (by decide +kernel) rfl

lemma mounted_bootSector (ok : ℕ → UInt32 → Bool)
    (h : (fatInitialize (bootLayer (.ofDisk smallDisk ok) (hardDiskPartition 0)) .start).1 = .ok true) :
    (mounted (bootLayer (.ofDisk smallDisk ok) (hardDiskPartition 0))).fat.bootSector =
      smallVolume.bootSector := by
  obtain ⟨t, ht, hread⟩ := fatInitialize_volume (Prod.ext h rfl :
    fatInitialize (bootLayer (.ofDisk smallDisk ok) (hardDiskPartition 0)) .start = (.ok true, mounted _))
  rw [fatInitializeVolume_bootSector ht]
  calc t.fat.bootSector = _ := (congrArg Prod.snd hread).symm
    _ = _ := readSectors_true _ (congrArg Prod.fst hread)
    _ = smallVolume.bootSector := Device.window_sector _ _

theorem reads_faithful_small :
    Always (Boot.fatRead (.ofDisk smallDisk) (hardDiskPartition 0) (some (.slot 0)))
      (fun t _ r _ => ∀ count stored, r = .ok (count, stored) → ∀ k < stored.length,
        stored[k]? = (fileContent (.ofDisk smallDisk) (hardDiskPartition 0) (mounted smallLayer).fat
          entryB [2, 3])[(t.fat.fd (.slot 0)).pub.position.toNat + k]?) [600, 600] openedB := by
  have hfile : IsFile (.ofDisk smallDisk) (hardDiskPartition 0) (mounted smallLayer).fat entryB [2, 3] :=
    entryB_isFile (mounted_bootSector _ smallLayer_mounts) (by decide +kernel)
  have hc : Coherent (.ofDisk smallDisk) (hardDiskPartition 0) (mounted smallLayer) :=
    .inl (by decide +kernel)
  have hspc : (mounted smallLayer).fat.sectorsPerCluster ≠ 0 := by decide +kernel
  have h12 : (mounted smallLayer).fat.fatType ≠ 12 := by decide +kernel
  obtain ⟨hderef, hon, hload, hsize, -⟩ := openEntry_onChain hc hfile openEntry_entryB
  refine reads_faithful _ _ entryB [2, 3] (mounted smallLayer) openedB (.slot 0) hspc hc hfile
    openEntry_entryB [600, 600] (along_of_inv (P := Ready (.ofDisk smallDisk) (hardDiskPartition 0)
      (mounted smallLayer).fat entryB [2, 3] 0) (fun t n ht => ⟨ht.guard (fun _ _ => rfl) h12 n, ?_⟩) _ _
      ⟨⟨hderef, hon, hsize⟩, hload⟩)
  obtain ⟨count, -, -, -, hown, -⟩ := read_ready (fun _ _ => rfl) (by decide +kernel) hfile ht n
    (ht.finds (fun _ _ => rfl) h12 n)
  exact hown

/-- The disk of the small volume when the read of the second sector of `B` fails. -/
def lookAheadFails : Device := .ofDisk smallDisk fun clock _ => clock != 4

def staleLayer : Layer := bootLayer lookAheadFails (hardDiskPartition 0)

/-- A read of the first sector of `B` reports success though the read ahead fails, and the next one
delivers the first sector again, as if it were the second. -/
theorem reads_stale :
    (fatInitialize staleLayer .start).1 = .ok true ∧
    IsFile lookAheadFails (hardDiskPartition 0) (mounted staleLayer).fat entryB [2, 3] ∧
    (openEntry staleLayer entryB (mounted staleLayer)).1 = some (.slot 0) ∧
    ¬ Always (Boot.fatRead lookAheadFails (hardDiskPartition 0) (some (.slot 0)))
      (fun t _ r _ => ∀ count stored, r = .ok (count, stored) → ∀ k < stored.length,
        stored[k]? = (fileContent lookAheadFails (hardDiskPartition 0) (mounted staleLayer).fat
          entryB [2, 3])[(t.fat.fd (.slot 0)).pub.position.toNat + k]?) [512, 1]
      (openEntry staleLayer entryB (mounted staleLayer)).2 := by
  have hinit : (fatInitialize staleLayer .start).1 = .ok true := by decide +kernel
  have hfile : IsFile lookAheadFails (hardDiskPartition 0) (mounted staleLayer).fat entryB [2, 3] :=
    entryB_isFile (mounted_bootSector (fun clock _ => clock != 4) hinit) (by decide +kernel)
  refine ⟨hinit, hfile, by decide +kernel, fun h => ?_⟩
  -- byte 512 of the file is 98, what is delivered for it is 97
  have hread : (Boot.fatRead lookAheadFails (hardDiskPartition 0) (some (.slot 0)) 1
      (Boot.fatRead lookAheadFails (hardDiskPartition 0) (some (.slot 0)) 512
        (openEntry staleLayer entryB (mounted staleLayer)).2).2).1 = .ok (1, [97]) := by
    decide +kernel
  have hbyte := h.2.1 1 [97] hread 0 (by decide)
  rw [fileContent_eq (by decide +kernel) hfile, getElem?_stretch] at hbyte
  revert hbyte
  decide +kernel

/-! ### Several handles, on FAT16 and FAT32 -/

/-- The width of an entry of the table, in bytes, on FAT16 and FAT32. -/
def entryWidth (f : FatData) : ℕ := if f.fatType = 16 then 2 else 4

/-- The entry of a cluster as it stands in the first table, on FAT16 and FAT32. -/
def rawLink (dev : Device) (part : Partition) (f : FatData) (cluster : UInt32) : UInt32 :=
  if f.fatType = 16 then
    (le16 (tableByte dev part f (2 * cluster.toNat))
      (tableByte dev part f (2 * cluster.toNat + 1))).toUInt32
  else le32 (tableByte dev part f (4 * cluster.toNat)) (tableByte dev part f (4 * cluster.toNat + 1))
    (tableByte dev part f (4 * cluster.toNat + 2)) (tableByte dev part f (4 * cluster.toNat + 3))

/-- A regular file whose chain is linked by the raw entries of the first table, by links below the
range that ends a chain and entries whose byte offset in the table is a 32-bit number. -/
structure IsRawFile (dev : Device) (part : Partition) (f : FatData) (entry : DirectoryEntry)
    (chain : List UInt32) : Prop where
  regular : entry.attributes &&& attributeDirectory = 0
  first : ∀ c, chain.head? = some c → c = entry.firstCluster
  link : ∀ i, i + 1 < chain.length → rawLink dev part f (chain.getD i 0) = chain.getD (i + 1) 0
  below : (∀ c ∈ chain, c < 0xFFFFFFF8) ∧ (f.fatType = 16 → ∀ c ∈ chain.tail, c < 0xFFF8)
  fits : ∀ i, i + 1 < chain.length → entryWidth f * (chain.getD i 0).toNat < 2 ^ 32
  room : entry.size.toNat ≤ 512 * f.sectorsPerCluster.toNat * chain.length

lemma diskLink_eq_rawLink {cluster : UInt32} (hft : f.fatType = 16 ∨ f.fatType = 32)
    (hfits : entryWidth f * cluster.toNat < 2 ^ 32) (hb : f.fatType = 16 → rawLink dev part f cluster < 0xFFF8) :
    diskLink dev part f cluster = rawLink dev part f cluster := by
  rcases hft with h | h
  · have hidx : (fatIndex f.fatType cluster).toNat = 2 * cluster.toNat := by
      rw [entryWidth, if_pos h] at hfits
      rw [h, fatIndex, if_neg (by decide), if_pos rfl, UInt32.toNat_mul,
        show (2 : UInt32).toNat = 2 from rfl]
      omega
    have hlt := hb h
    simp only [rawLink, h, if_true, UInt32.lt_iff_toNat_lt] at hlt
    rw [diskLink, hidx, decodeLink, if_neg (by rw [h]; decide), if_pos h]
    simp only [rawLink, h, if_true, Nat.add_zero]
    rw [if_neg]
    rw [UInt32.le_iff_toNat_le]
    omega
  · have h12 : f.fatType ≠ 12 := by rw [h]; decide
    have h16 : f.fatType ≠ 16 := by rw [h]; decide
    have hidx : (fatIndex f.fatType cluster).toNat = 4 * cluster.toNat := by
      rw [entryWidth, if_neg h16] at hfits
      rw [fatIndex, if_neg h12, if_neg h16, UInt32.toNat_mul, show (4 : UInt32).toNat = 4 from rfl]
      omega
    rw [diskLink, hidx, decodeLink, if_neg h12, if_neg h16, rawLink, if_neg h16, Nat.add_zero]

lemma IsRawFile.isFile (h : IsRawFile dev part f entry chain)
    (hft : f.fatType = 16 ∨ f.fatType = 32) : IsFile dev part f entry chain := by
  refine ⟨h.regular, h.first, ⟨h.below.1, fun i hi => ?_⟩, h.room⟩
  rw [diskLink_eq_rawLink hft (h.fits i hi) fun h16 => ?_, h.link i hi]
  rw [h.link i hi, List.getD_eq_getElem _ _ hi]
  apply h.below.2 h16 _
  rw [← List.getElem_tail (by simpa using Nat.lt_sub_of_add_lt hi)]
  exact List.getElem_mem _

/-- Slot `i` was handed out by `FAT_OpenEntry` for an entry, and its record is as it was then. -/
def HandedOut (dev : Device) (part : Partition) (entry : DirectoryEntry) (i : Fin 10) (s : St) : Prop :=
  ∃ s₀ s₁, Boot.fatOpenEntry dev part entry s₀ = (some (.slot i), s₁) ∧ SameVolume s.fat s₀.fat ∧
    s.fat.openedFiles i = s₁.fat.openedFiles i

/-- A request on a slot. -/
def readSlot (dev : Device) (part : Partition) (c : Fin 10 × UInt32) (s : St) :
    Except Stop (UInt32 × List UInt8) × St :=
  Boot.fatRead dev part (some (.slot c.1)) c.2 s

/-- Everything that the requests on slot `i` return in a run, end to end. -/
def delivered (dev : Device) (part : Partition) (i : Fin 10) : List (Fin 10 × UInt32) → St → List UInt8
  | [], _ => []
  | c :: requests, s =>
    (match (readSlot dev part c s).1 with
      | .ok (_, stored) => if c.1 = i then stored else []
      | .error _ => []) ++ delivered dev part i requests (readSlot dev part c s).2

lemma readSlot_ready (hrel : dev.Reliable) (hft : f.fatType ≠ 12)
    (hspc : 0 < f.sectorsPerCluster.toNat) {files : Fin 10 → Option (DirectoryEntry × List UInt32)}
    (hfiles : ∀ i e c, files i = some (e, c) → IsFile dev part f e c)
    (hready : ∀ i e c, files i = some (e, c) → Ready dev part f e c i s) {r : Fin 10 × UInt32}
    (hr : (files r.1).isSome) :
    ∀ i e c, files i = some (e, c) → Ready dev part f e c i (readSlot dev part r s).2 := by
  intro i e c hi
  obtain ⟨⟨e', c'⟩, hr'⟩ := Option.isSome_iff_exists.mp hr
  obtain ⟨count, -, -, -, hown, hother⟩ := read_ready hrel hspc (hfiles _ _ _ hr') (hready _ _ _ hr') r.2
    ((hready _ _ _ hr').finds hrel hft r.2)
  by_cases hir : i = r.1
  · subst hir
    rw [hr'] at hi
    cases hi
    exact hown
  · exact (hother i hir).2 _ _ (hready i _ _ hi)

/-- Requests on handles that are ready deliver each file from its position on. -/
lemma delivered_ready (hrel : dev.Reliable) (hft : f.fatType ≠ 12)
    (hspc : 0 < f.sectorsPerCluster.toNat) {files : Fin 10 → Option (DirectoryEntry × List UInt32)}
    (hfiles : ∀ i e c, files i = some (e, c) → IsFile dev part f e c) :
    ∀ (requests : List (Fin 10 × UInt32)) (s : St),
      (∀ i e c, files i = some (e, c) → Ready dev part f e c i s) →
      (∀ r ∈ requests, (files r.1).isSome) → ∀ i e c, files i = some (e, c) →
      ∃ n, delivered dev part i requests s = stretch (chainByte dev part f c)
          (s.fat.openedFiles i).pub.position.toNat n ∧
        (s.fat.openedFiles i).pub.position.toNat + n ≤ e.size.toNat := by
  intro requests
  induction requests with
  | nil =>
    intro s hready _ i e c hi
    refine ⟨0, rfl, ?_⟩
    have h := hready i e c hi
    have := h.onChain.cursor.inside
    rw [h.size] at this
    exact this
  | cons r requests ih =>
    intro s hready hr i e c hi
    obtain ⟨⟨e', c'⟩, hr'⟩ := Option.isSome_iff_exists.mp (hr r (by simp))
    obtain ⟨count, hres, hcount, hpos, -, hother⟩ := read_ready hrel hspc (hfiles _ _ _ hr')
      (hready _ _ _ hr') r.2 ((hready _ _ _ hr').finds hrel hft r.2)
    obtain ⟨n, hn, hle⟩ := ih (readSlot dev part r s).2
      (readSlot_ready hrel hft hspc hfiles hready (hr r (by simp)))
      (fun r' hr' => hr r' (List.mem_cons_of_mem _ hr')) i e c hi
    by_cases hri : r.1 = i
    · subst hri
      rw [hr'] at hi
      cases hi
      refine ⟨count.toNat + n, ?_, ?_⟩
      · rw [delivered, hn, show (readSlot dev part r s).1 = _ from hres, stretch_add]
        dsimp only
        rw [if_pos rfl, ← hpos]
        rfl
      · rw [← Nat.add_assoc, ← hpos]
        exact hle
    · have hsame : (readSlot dev part r s).2.fat.openedFiles i = s.fat.openedFiles i :=
        (hother i fun h => hri h.symm).1
      refine ⟨n, ?_, by rw [← hsame]; exact hle⟩
      rw [delivered, hn, show (readSlot dev part r s).1 = _ from hres, hsame]
      dsimp only
      rw [if_neg hri, List.nil_append]

lemma Ready.readsAlone (hrel : dev.Reliable) (hft : f.fatType ≠ 12)
    (hspc : 0 < f.sectorsPerCluster.toNat) (hfile : IsFile dev part f entry chain) {i : Fin 10}
    (h : Ready dev part f entry chain i s) (h0 : (s.fat.openedFiles i).pub.position = 0) {n : ℕ}
    (hn : n ≤ entry.size.toNat) : (readSlot dev part (i, UInt32.ofNat n) s).1 =
      .ok (UInt32.ofNat n, stretch (chainByte dev part f chain) 0 n) := by
  have hsmall : (UInt32.ofNat n).toNat = n := by
    have := entry.size.toNat_lt
    rw [UInt32.toNat_ofNat']
    exact Nat.mod_eq_of_lt (by omega)
  obtain ⟨count, hres, hcount, -⟩ := read_ready hrel hspc hfile h (UInt32.ofNat n) (h.finds hrel hft _)
  rw [h0, hsmall, show (0 : UInt32).toNat = 0 from rfl, Nat.sub_zero, Nat.min_eq_left hn] at hcount
  rw [h0, UInt32.toNat_inj.mp (hcount.trans hsmall.symm), hsmall] at hres
  exact hres

/-- A slot that was handed out for a file is ready, as long as the cache is coherent. -/
lemma HandedOut.ready {i : Fin 10} (hf : SameVolume f s.fat) (hc : Coherent dev part s)
    (hfile : IsFile dev part f entry chain) (h : HandedOut dev part entry i s) :
    Ready dev part f entry chain i s ∧ (s.fat.openedFiles i).pub.position = 0 := by
  obtain ⟨s₀, s₁, hopen, hv, hrec⟩ := h
  obtain ⟨k, hk, -, hr, rfl⟩ := openEntry_some hopen
  cases hk
  have hrec' : s.fat.openedFiles i = openedRecord (bootLayer dev part) entry i s₀ :=
    hrec.trans (Function.update_self _ _ _)
  obtain ⟨hcur, hload⟩ := openedRecord_onChain (hf.trans hv) hfile hr
  refine ⟨⟨⟨deref_of_handle ?_, ⟨hf, hc, ?_⟩, ?_⟩, ?_⟩, ?_⟩
  · rw [hrec']; rfl
  · rw [FatData.fd_slot, hrec']; exact hcur
  · rw [FatData.fd_slot, hrec']; rfl
  · rw [FatData.fd_slot, hrec']; exact hload
  · rw [hrec']; rfl

theorem coherent_stable (hrel : dev.Reliable) :
    StableCalls (bootLayer dev part) (Coherent dev part) where
  note _ _ _ h := h
  disk _ _ _ _ h := h
  refill sector t h := by
    cases hm : t.fat.misses sector with
    | true =>
      rw [refill_miss hm]
      refine .inr ?_
      dsimp only [bootLayer]
      rw [Device.readSectors_of_ok (hrel _ _)]
      rfl
    | false => rw [refill_hit hm]; exact h
  setFd _ _ _ _ _ h := h.setFd
  setSlot _ _ _ _ _ h := h.setFd
  search _ _ _ h := h
  close file t h := by
    unfold close
    split
    · exact h
    · split
      · exact h
      · exact h.setFd.setFd
      · exact h.setFd

theorem Reachable.coherent (hrel : dev.Reliable) (h : Reachable (bootLayer dev part) s) :
    Coherent dev part s :=
  h.stable (coherent_stable hrel) fun _ _ hi => (fatInitializeVolume_initialised hi).coherent

lemma sectorsPerCluster_stable (L : Layer) :
    StableCalls L fun s => 0 < s.fat.sectorsPerCluster.toNat where
  note _ _ _ h := h
  disk _ _ _ _ h := h
  refill sector s h := by unfold refill; split <;> exact h
  setFd loc _ _ _ _ h := by cases loc <;> exact h
  setSlot _ _ _ _ _ h := h
  search _ _ _ h := h
  close file s h := by
    have hv := (SameVolume.stable L s.fat).close file s (.refl _)
    rwa [hv.sectorsPerCluster]

lemma Reachable.sectorsPerCluster {L : Layer} (h : Reachable L s) : 0 < s.fat.sectorsPerCluster.toNat :=
  h.stable (sectorsPerCluster_stable L) fun _ _ hi => by
    have hspc := (fatInitializeVolume_initialised hi).sectorsPerCluster
    by_contra h0
    exact hspc (UInt32.toNat_inj.mp (by simpa using h0))

/-- **Reading is correct under any interleaving of open files.** Every request returns all the bytes it can,
what a handle delivers is the file from its start on, and one request would have delivered the
same. -/
theorem reads_interleaved (dev : Device) (part : Partition) (s : St)
    (hr : Reachable (bootLayer dev part) s) (hrel : dev.Reliable)
    (hft : s.fat.fatType = 16 ∨ s.fat.fatType = 32)
    (files : Fin 10 → Option (DirectoryEntry × List UInt32))
    (hfiles : ∀ i e c, files i = some (e, c) →
      IsRawFile dev part s.fat e c ∧ HandedOut dev part e i s)
    (requests : List (Fin 10 × UInt32)) (hreq : ∀ r ∈ requests, (files r.1).isSome) :
    Always (readSlot dev part) (fun t r answer _ => ∀ e c, files r.1 = some (e, c) →
        (t.fat.openedFiles r.1).pub.size = e.size ∧
        ∃ count stored, answer = .ok (count, stored) ∧ stored.length = count.toNat ∧
          count.toNat = min r.2.toNat
            (e.size.toNat - (t.fat.openedFiles r.1).pub.position.toNat)) requests s ∧
      ∀ i e c, files i = some (e, c) →
        delivered dev part i requests s <+: fileContent dev part s.fat e c ∧
        (readSlot dev part (i, UInt32.ofNat (delivered dev part i requests s).length) s).1 =
          .ok (UInt32.ofNat (delivered dev part i requests s).length,
            delivered dev part i requests s) := by
  have hpos := hr.sectorsPerCluster
  have h12 : s.fat.fatType ≠ 12 := by rcases hft with h | h <;> rw [h] <;> decide
  have hfile : ∀ i e c, files i = some (e, c) → IsFile dev part s.fat e c :=
    fun i e c hi => (hfiles i e c hi).1.isFile hft
  have hready : ∀ i e c, files i = some (e, c) → Ready dev part s.fat e c i s ∧
      (s.fat.openedFiles i).pub.position = 0 :=
    fun i e c hi => (hfiles i e c hi).2.ready (.refl _) (hr.coherent hrel) (hfile i e c hi)
  refine ⟨?_, fun i e c hi => ?_⟩
  · refine always_of_step (G := fun _ r => (files r.1).isSome)
      (P := fun t => ∀ i e c, files i = some (e, c) → Ready dev part s.fat e c i t)
      (fun t r ht hsome => ?_) requests s (fun i e c hi => (hready i e c hi).1)
      (along_of_forall s fun r hr' _ => hreq r hr')
    refine ⟨fun e c hi => ?_, readSlot_ready hrel h12 hpos hfile ht hsome⟩
    obtain ⟨count, hres, hcount, -⟩ := read_ready hrel hpos (hfile r.1 e c hi) (ht r.1 e c hi) r.2
      ((ht r.1 e c hi).finds hrel h12 r.2)
    exact ⟨(ht r.1 e c hi).size, count, _, hres, length_stretch _ _ _, hcount⟩
  · obtain ⟨hr', hp0⟩ := hready i e c hi
    obtain ⟨n, hn, hle⟩ := delivered_ready hrel h12 hpos hfile requests s
      (fun i e c hi => (hready i e c hi).1) hreq i e c hi
    rw [hp0, show (0 : UInt32).toNat = 0 from rfl] at hn hle
    rw [Nat.zero_add] at hle
    rw [hn, length_stretch, fileContent_eq hpos (hfile i e c hi)]
    exact ⟨stretch_mono _ _ hle, hr'.readsAlone hrel h12 hpos (hfile i e c hi) hp0 hle⟩

/-- The small volume with `B` open in the slots 0 and 1. -/
def openedTwice : St := (openEntry smallLayer entryB openedB).2

lemma openedTwice_handedOut {i : Fin 10} (hi : i.val < 2) :
    HandedOut (.ofDisk smallDisk) (hardDiskPartition 0) entryB i openedTwice := by
  have hfst : (openEntry smallLayer entryB openedB).1 = some (.slot 1) := by decide +kernel
  have h₁ : SameVolume openedB.fat openedTwice.fat :=
    (SameVolume.stable smallLayer openedB.fat).openEntry entryB (.refl _)
  have h₀ : SameVolume (mounted smallLayer).fat openedTwice.fat :=
    (SameVolume.stable smallLayer (mounted smallLayer).fat).openEntry entryB
      ((SameVolume.stable smallLayer (mounted smallLayer).fat).openEntry entryB (.refl _))
  obtain rfl | rfl : i = 0 ∨ i = 1 := by omega
  · refine ⟨mounted smallLayer, openedB, openEntry_entryB, h₀.symm, ?_⟩
    rcases openEntry_slots smallLayer entryB openedB with ⟨h, -⟩ | ⟨j, hj, -, -, hother⟩
    · rw [hfst] at h
      cases h
    · rw [hfst] at hj
      cases hj
      exact hother 0 (by decide)
  · exact ⟨openedB, openedTwice, Prod.ext hfst rfl, h₁.symm, rfl⟩

/-- The files that are open in `openedTwice`. -/
def twoFiles (i : Fin 10) : Option (DirectoryEntry × List UInt32) :=
  if i.val < 2 then some (entryB, [2, 3]) else none

lemma entryB_isRawFile :
    IsRawFile (.ofDisk smallDisk) (hardDiskPartition 0) openedTwice.fat entryB [2, 3] := by
  refine ⟨by decide +kernel, fun c hc => by cases hc; decide +kernel, fun i hi => ?_,
    ⟨by simp, fun _ => by simp⟩, fun i hi => ?_, by decide +kernel⟩
  all_goals
    obtain rfl : i = 0 := by
      simp at hi
      omega
    decide +kernel

lemma twoFiles_handedOut (i : Fin 10) (e : DirectoryEntry) (c : List UInt32)
    (h : twoFiles i = some (e, c)) :
    IsRawFile (.ofDisk smallDisk) (hardDiskPartition 0) openedTwice.fat e c ∧
      HandedOut (.ofDisk smallDisk) (hardDiskPartition 0) e i openedTwice := by
  unfold twoFiles at h
  split at h
  · next hi =>
    cases h
    exact ⟨entryB_isRawFile, openedTwice_handedOut hi⟩
  · cases h

theorem reads_interleaved_small :
    delivered (.ofDisk smallDisk) (hardDiskPartition 0) 1 [(0, 600), (1, 100), (0, 600), (1, 1000)]
      openedTwice <+: fileContent (.ofDisk smallDisk) (hardDiskPartition 0) openedTwice.fat entryB [2, 3] :=
  ((reads_interleaved (.ofDisk smallDisk) (hardDiskPartition 0) openedTwice
    (.call 0 (.openEntry entryB) (.call 0 (.openEntry entryB) (mounted_reachable smallLayer_mounts)))
    (fun _ _ => rfl) (by decide +kernel) twoFiles twoFiles_handedOut
    [(0, 600), (1, 100), (0, 600), (1, 1000)] (by simp [twoFiles])).2 1 entryB [2, 3] rfl).1

/-! ### A link that is a data cluster and ends the chain -/

/-- The number of a data cluster of the volume. -/
def DataCluster (f : FatData) (cluster : UInt32) : Prop :=
  2 ≤ cluster ∧ cluster - 2 < (f.totalSectors - f.dataSectionLba) / f.sectorsPerCluster

instance (f : FatData) (cluster : UInt32) : Decidable (DataCluster f cluster) :=
  inferInstanceAs (Decidable (_ ∧ _))

/-- A FAT16 volume with more clusters than FAT16 has numbers for. -/
def largeVolume : Format := { dirEntryCount := 16, sectorsPerFat := 274, largeSectorCount := 70000 }

/-- A file of 1024 bytes in the clusters 2 and 65528. -/
def entryC : DirectoryEntry := dirEntry [67] 0 2 1024

/-- The disk of the large volume. -/
def largeDisk : UInt32 → Sector :=
  diskOf [(0, largeVolume.bootSector), (1, Bytes.ofList 512 [0xF8, 0xFF, 0xFF, 0xFF, 0xF8, 0xFF])]

def largeLayer : Layer := bootLayer (.ofDisk largeDisk) (hardDiskPartition 0)

/-- A request for the whole file returns its first cluster only. -/
theorem read_stops_at_data_cluster :
    Reachable largeLayer (mounted largeLayer) ∧ (mounted largeLayer).fat.fatType = 16 ∧
    (mounted largeLayer).fat.sectorsPerCluster = 1 ∧
    entryC.attributes &&& attributeDirectory = 0 ∧ entryC.firstCluster = 2 ∧ entryC.size = 1024 ∧
    rawLink (.ofDisk largeDisk) (hardDiskPartition 0) (mounted largeLayer).fat 2 = 65528 ∧
    DataCluster (mounted largeLayer).fat 65528 ∧
    (openEntry largeLayer entryC (mounted largeLayer)).1 = some (.slot 0) ∧
    (readSlot (.ofDisk largeDisk) (hardDiskPartition 0) (0, 1024)
      (openEntry largeLayer entryC (mounted largeLayer)).2).1.map Prod.fst = .ok 512 :=
  ⟨mounted_reachable (by decide +kernel), by decide +kernel, by decide +kernel, by decide +kernel,
    by decide +kernel, by decide +kernel, by decide +kernel, by decide +kernel, by decide +kernel,
    by decide +kernel⟩

end ArcOS.Fat
