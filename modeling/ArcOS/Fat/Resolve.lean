import ArcOS.Fat.Components
import ArcOS.Fat.Descend
import ArcOS.Fat.Listing

/-!
`FAT_Open` and the tree of directories on the disk.

`Resolves` says what the names of a path lead to from the records of a directory: it is about the disk alone.
`FAT_Open` comes to that after any run of calls that return (`openPath_resolves`), and `FAT_ReadFile` and
`FAT_ReadDirectory` show the file or the directory that is there (`shows_resolved`).
-/

namespace ArcOS.Fat

open Lib Lib.Search Lib.Transducer

/-! ### The tree -/

section Tree

variable (dev : Device) (part : Partition) (f : FatData)

/-- The entry of a directory that can be gone through: its chain is on the disk up to an end mark, without a
cycle and, on FAT12, with no entry of the table half in one window and half in the next. -/
structure OpenDirectory (entry : DirectoryEntry) (chain : List UInt32) : Prop where
  directory : IsDirectory entry
  size : entry.size = 0
  whole : WholeChain dev part f entry.firstCluster chain
  nodup : chain.Nodup
  unbroken : ∀ tag, Unbroken { f with fatCachePosition := tag } chain

/-- What names lead to from a directory with these records: the first record with the name, in the directory
that the names before it lead to. -/
inductive Resolves : List DirectoryEntry → List (List UInt8) → Option DirectoryEntry → Prop where
  | missing {records name names} : records.find? (hasName (Kernel.shortName name)) = none →
      Resolves records (name :: names) none
  | found {records name entry} : records.find? (hasName (Kernel.shortName name)) = some entry →
      Resolves records [name] (some entry)
  | inside {records name names entry chain result} :
      records.find? (hasName (Kernel.shortName name)) = some entry → OpenDirectory dev part f entry chain →
      Resolves (chainEntries dev part f chain) names result → Resolves records (name :: names) result

/-- More than the records of any directory that can be gone through: in a chain without a cycle each cluster is
there once. -/
def recordBound (f : FatData) : ℕ :=
  max (rootCount f) (16 * (f.sectorsPerCluster.toNat * 0x100000000)) + 1

end Tree

/-- The names that `FAT_Open` looks up for components, behind the ones it copied before: the last one goes on
with the byte that lay behind it in the buffer. -/
def handed (name : NameBuffer) : List (List UInt8) → List (List UInt8) → List (List UInt8)
  | _, [] => []
  | before, [c] => [cString (c ++ [leftOver name before c.length])]
  | before, c :: d :: cs => c :: handed name (before ++ [c]) (d :: cs)

/-- What `FAT_Open` gives for what the names lead to: a new slot that was just handed out for the entry, or
NULL. -/
def Opened (dev : Device) (part : Partition) (f : FatData) (s : St) :
    Option DirectoryEntry → Except Stop (Option Loc) × St → Prop
  | none, r => r.1 = .ok none ∧ SameSlots s r.2
  | some entry, r => ∃ i u, r.1 = .ok (some (.slot i)) ∧ OneMore s i r.2 ∧ Reachable (bootLayer dev part) u ∧
      SameVolume f u.fat ∧ Boot.fatOpenEntry dev part entry u = (some (.slot i), r.2)

/-- Between two calls: the root handle is at its start, with some sector in its buffer, and a slot is free. -/
structure AtRest (dev : Device) (part : Partition) (f : FatData) (m : ℕ) (s : St) : Prop where
  reachable : Reachable (bootLayer dev part) s
  volume : SameVolume f s.fat
  count : rootCount f ≠ 0
  root : Holding (partitionSectors dev part) f m 0 s.fat.rootDirectory
  free : ∃ i, (s.fat.openedFiles i).opened = false

/-- A path whose components fit into the buffer of `FAT_Open`, without a slash at its end. -/
structure PlainPath (path : List UInt8) : Prop where
  nonzero : ∀ b ∈ path, b ≠ 0
  short : ∀ c ∈ components path, c.length < 255
  last : (components path).getLastD [] ≠ []

variable {dev : Device} {part : Partition} {f f' : FatData} {s t u : St} {path : List UInt8} {name : NameBuffer}
  {fuel : ℕ} {w : Walk} {p : Loc} {records : List DirectoryEntry} {before : List (List UInt8)}

/-! ### The volume -/

section Volume

lemma SameVolume.chainEntries (h : SameVolume f f') (chain : List UInt32) :
    chainEntries dev part f' chain = Fat.chainEntries dev part f chain := by
  have hsector : ∀ a, chainSector dev part f' chain a = chainSector dev part f chain a := by
    intro a
    simp only [chainSector, clusterSector, h.sectorsPerCluster, h.clusterToLba]
  simp only [Fat.chainEntries, chainLength, h.sectorsPerCluster, hsector]

lemma SameVolume.wholeChain (h : SameVolume f f') {first : UInt32} {chain : List UInt32}
    (hw : WholeChain dev part f first chain) : WholeChain dev part f' first chain :=
  ⟨hw.head, ⟨hw.linked.cluster, fun i hi => (h.diskLink dev part _).trans (hw.linked.link i hi)⟩,
    by rw [h.diskLink]; exact hw.ends⟩

lemma SameVolume.fileContent (h : SameVolume f f') (entry : DirectoryEntry) (chain : List UInt32) :
    fileContent dev part f' entry chain = Fat.fileContent dev part f entry chain := by
  have hbytes : clusterBytes dev part f' = clusterBytes dev part f := by
    funext cluster
    simp only [clusterBytes, clusterSector, h.sectorsPerCluster, h.clusterToLba]
  rw [Fat.fileContent, Fat.fileContent, hbytes]

lemma SameVolume.isRawFile (h : SameVolume f f') {entry : DirectoryEntry} {chain : List UInt32}
    (hraw : IsRawFile dev part f entry chain) : IsRawFile dev part f' entry chain := by
  have hlink : rawLink dev part f' = rawLink dev part f := by
    funext cluster
    simp only [rawLink, tableByte, tableLba, FatData.reservedSectors, h.bootSector, h.fatType]
  refine ⟨hraw.regular, hraw.first, ?_, ?_, ?_, ?_⟩
  · rw [hlink]
    exact hraw.link
  · rw [h.fatType]
    exact hraw.below
  · rw [entryWidth, h.fatType]
    exact hraw.fits
  · rw [h.sectorsPerCluster]
    exact hraw.room

/-- On the way through a directory the window may be anywhere. -/
lemma OpenDirectory.unbroken_of {entry : DirectoryEntry} {chain : List UInt32}
    (h : OpenDirectory dev part f entry chain) (hv : SameVolume f f') : Unbroken f' chain := by
  have hwindow : windowTag { f with fatCachePosition := f'.fatCachePosition } = windowTag f' := by
    funext tag cluster
    simp only [windowTag, FatData.misses, hv.fatType]
    rfl
  intro i hi hs
  apply h.unbroken f'.fatCachePosition i hi
  simp only [Straddles, FatData.misses, tagAfter, hwindow, hv.fatType] at hs ⊢
  exact hs

lemma OpenDirectory.length_lt {entry : DirectoryEntry} {chain : List UInt32}
    (h : OpenDirectory dev part f entry chain) : (chainEntries dev part f chain).length < recordBound f := by
  have hchain : chain.length ≤ 0x100000000 := by
    have hnodup : (chain.map UInt32.toNat).Nodup := h.nodup.map fun _ _ => UInt32.toNat_inj.mp
    have hbelow : chain.map UInt32.toNat ⊆ List.range 0x100000000 := by
      intro n hn
      obtain ⟨c, -, rfl⟩ := List.mem_map.mp hn
      exact List.mem_range.mpr c.toNat_lt
    have hlength := (List.subperm_of_subset hnodup hbelow).length_le
    rwa [List.length_map, List.length_range] at hlength
  rw [length_chainEntries, recordBound, chainLength, Nat.lt_succ_iff]
  exact le_max_of_le_right (Nat.mul_le_mul_left 16 (Nat.mul_le_mul_left _ hchain))

lemma OpenDirectory.atStart {entry : DirectoryEntry} {chain : List UInt32} (h : OpenDirectory dev part f entry chain)
    (hu : Reachable (bootLayer dev part) u) (hv : SameVolume f u.fat)
    (hopen : Boot.fatOpenEntry dev part entry u = (some p, t)) :
    AtStart dev part p (chainEntries dev part f chain) t := by
  rw [← hv.chainEntries chain]
  exact .subdirectory entry chain hu h.directory h.size hopen (hv.wholeChain h.whole) h.nodup (h.unbroken_of hv)

end Volume

/-! ### The names -/

section Names

variable {c : List UInt8} {name₀ : NameBuffer}

lemma cString_stop (l later : List UInt8) : cString (l ++ 0 :: later) = cString l := by
  induction l with
  | nil => simp [cString]
  | cons b l ih =>
    unfold cString at ih ⊢
    rw [List.cons_append, List.takeWhile_cons, List.takeWhile_cons, ih]

lemma cString_last (hlen : c.length + 1 < 256) (h : Holds name₀ name before) :
    cString (List.ofFn ((name.write 0 c).write (c.length + 1) [0])) =
      cString (c ++ [leftOver name₀ before c.length]) := by
  have hk : c.length ≤ c.length + 1 := Nat.le_succ _
  have hlong : (c ++ [leftOver name₀ before c.length]).length = c.length + 1 := by simp
  obtain ⟨later, hlist⟩ := ofFn_split (b := (name.write 0 c).write (c.length + 1) [0])
    (l := c ++ [leftOver name₀ before c.length]) (by omega) fun i hi => by
      rw [copied_apply name c hk]
      by_cases hc : i < c.length
      · rw [if_pos hc, List.getElem_append_left hc, List.getD_eq_getElem _ _ hc]
      · obtain rfl : i = c.length := by omega
        rw [if_neg hc, if_neg (by simp), h]
        simp
  rw [hlist, copied_apply name c hk, if_neg (by simp), if_pos (by simp), cString_stop]

lemma handed_ne_nil {cs : List (List UInt8)} (h : cs ≠ []) : handed name before cs ≠ [] := by
  match cs with
  | [] => exact absurd rfl h
  | [_] => simp [handed]
  | _ :: _ :: _ => simp [handed]

lemma shortName_cString (str : List UInt8) : Kernel.shortName (cString str) = Kernel.shortName str := by
  rw [Kernel.shortName, getShortName_cString, Kernel.shortName]

/-- **The name that a round looks up** is the next of the names handed over, and the walk goes on with the
others. -/
theorem component_handed (hplain : PlainPath path) (h : At path name w before) :
    ∃ next names name' rest isLast, handed name before (w.path.splitOn 47) = next :: names ∧
      component w.path w.name = .ok (name', rest, isLast) ∧ cString (List.ofFn name') = next ∧
      (names = [] ∧ rest = [] ∨ rest ≠ [] ∧ ∀ current, ∃ before', At path name ⟨rest, current, name'⟩ before' ∧
        handed name before' (rest.splitOn 47) = names) := by
  rcases split_path h.nonzero with ⟨c, rest, hpc, hb, hsplit⟩ | ⟨hno, hb, hsplit⟩
  · have hshort : c.length < 255 := hplain.short c (by rw [h.split, hsplit]; simp)
    have hrest : rest ≠ [] := by
      rintro rfl
      apply hplain.last
      rw [h.split, hsplit]
      simp
    obtain ⟨d, ds, hds⟩ := List.exists_cons_of_ne_nil (List.splitOn_ne_nil 47 rest)
    refine ⟨c, handed name (before ++ [c]) (rest.splitOn 47), _, rest, false, ?_, ?_, ?_,
      .inr ⟨hrest, fun current => ⟨before ++ [c], h.next hpc hsplit rfl, rfl⟩⟩⟩
    · rw [hsplit, hds, handed]
    · rw [hpc]
      exact component_inner hb (by omega)
    · exact handed_inner (fun b hmem => (hb b hmem).1) (by omega)
  · have hshort : w.path.length < 255 := hplain.short w.path (by rw [h.split, hsplit]; simp)
    refine ⟨_, [], _, [], true, ?_, component_last hb (by omega), cString_last (by omega) h.holds, .inl ⟨rfl, rfl⟩⟩
    rw [hsplit, handed]

end Names

/-! ### One round -/

section Round

variable {names : List (List UInt8)}

/-- A round that gives a result is where `FAT_Open` returns. -/
lemma openPath_returns {L : Layer} {file : Option Loc} (hw : Walks L fuel (startWalk path name) s w t)
    (h : openStep L fuel w t = (.ok (.inr file), u)) : openPath L fuel path name s = (.ok file, u) := by
  obtain ⟨rounds, hr, heq⟩ := openLoop_walks hw (path.length + 1) (stripSlash_length path)
  obtain _ | rounds := rounds
  · omega
  rw [openPath_eq, heq, openLoop, h]

lemma walks_volume {L : Layer} (hw : Walks L fuel (startWalk path name) s w t) : SameVolume s.fat t.fat :=
  hw.invariant (P := fun _ t => SameVolume s.fat t.fat)
    (fun w t w' t' h ho => by
      have hstep := (SameVolume.stable L s.fat).openStep fuel w h
      rwa [ho] at hstep)
    (.refl s.fat)

/-- **A lookup in a directory at its start** gives the first record with the name. -/
theorem lookup_resolves (hr : Reachable (bootLayer dev part) s)
    (hw : Walks (bootLayer dev part) fuel (startWalk path name) s w t) (hreach : Reachable (bootLayer dev part) t)
    (hcurrent : w.current = some p) (hdelivers : Delivers (readEntry (bootLayer dev part) (some p)) records t)
    (hfuel : records.length < fuel) {name' : NameBuffer} {rest : List UInt8} {isLast : Bool}
    (hc : component w.path w.name = .ok (name', rest, isLast)) :
    ∃ u, lookup (bootLayer dev part) fuel w t =
        (.ok (name', rest, records.find? (hasName (Kernel.shortName (cString (List.ofFn name'))))), u) ∧
      Reachable (bootLayer dev part) u ∧ SameVolume s.fat u.fat ∧ SameSlots s u := by
  obtain ⟨hn, hb⟩ := walks_slots hr hw
  have hvolume := walks_volume hw
  have hfind : (findFile (bootLayer dev part) fuel w.current (List.ofFn name') t).1 =
      .ok (records.find? (hasName (Kernel.shortName (cString (List.ofFn name'))))) := by
    rw [hcurrent, findFile_eq, findLoop_search, search_list hdelivers hfuel, nameMatches_eq, shortName_cString]
  rcases hl : lookup (bootLayer dev part) fuel w t with ⟨e | ⟨n, r, found⟩, u⟩
  · -- the component fits, and the search ends
    rcases lookup_error hn hb (by rw [hcurrent]; simp) (by rw [hl]) with herror | ⟨n, r, last, hc', hfuel'⟩
    · rw [hc] at herror
      cases herror
    · rw [hc] at hc'
      cases hc'
      rw [hfind] at hfuel'
      cases hfuel'
  · obtain ⟨last, v, hc', hf, hclose⟩ := lookup_ok hl
    rw [hc] at hc'
    cases hc'
    have hv : Reachable (bootLayer dev part) v := by
      have hcall := hreach.call fuel (.findFile w.current (List.ofFn name'))
      rwa [call, hf] at hcall
    have hu : Reachable (bootLayer dev part) u := by
      have hcall := hv.call fuel (.close w.current)
      rwa [call, hclose] at hcall
    have hcalls := SameVolume.stable (bootLayer dev part) s.fat
    have hvv : SameVolume s.fat v.fat := by
      have hstep : SameVolume s.fat (findFile (bootLayer dev part) fuel w.current (List.ofFn name') t).2.fat :=
        hcalls.findFile (fun _ _ _ _ => trivial) fuel _ hvolume
      rwa [hf] at hstep
    have hvu : SameVolume s.fat u.fat := by
      have hstep := hcalls.close w.current v hvv
      rwa [hclose] at hstep
    refine ⟨u, ?_, hu, hvu, (lookup_sameSlots hn hb hl).2⟩
    rw [hf] at hfind
    cases hfind
    rfl

end Round

/-! ### The walk along the tree -/

section Along

variable {names : List (List UInt8)} {result : Option DirectoryEntry}

lemma openEntry_opens (hrel : dev.Reliable) (part : Partition) (hfree : ∃ i, (s.fat.openedFiles i).opened = false)
    (hslots : SameSlots s u) (entry : DirectoryEntry) :
    ∃ i, openEntry (bootLayer dev part) entry u = (some (.slot i), (openEntry (bootLayer dev part) entry u).2) ∧
      OneMore s i (openEntry (bootLayer dev part) entry u).2 := by
  cases hslot : u.fat.freeSlot with
  | none =>
    obtain ⟨i, hi⟩ := hfree
    rw [← hslots.flags i] at hi
    have hopen := List.find?_eq_none.mp hslot i (by simp)
    simp [hi] at hopen
  | some i =>
    have hread : (firstSector (bootLayer dev part) entry i u).1 = true := by
      change (dev.readSectors _ _ _ _).1 = true
      rw [Device.readSectors_of_ok (hrel _ _)]
    have hsome : (openEntry (bootLayer dev part) entry u).1 = some (.slot i) := by
      rw [openEntry_ok hslot hread]
    have hbalanced := openEntry_balanced (L := bootLayer dev part) entry hslots
    rw [hsome] at hbalanced
    exact ⟨i, Prod.ext hsome rfl, hbalanced.1⟩

/-- **`FAT_Open` from a place on its way**: the induction is on what the names that are left lead to. -/
theorem openPath_along (hrel : dev.Reliable) {m : ℕ} (hrest : AtRest dev part f m s)
    (hft : f.fatType = 12 ∨ f.fatType = 16) (hplain : PlainPath path) (hfuel : recordBound f ≤ fuel)
    (hlength : records.length < recordBound f) (h : Resolves dev part f records names result) :
    ∀ w t p before, Walks (bootLayer dev part) fuel (startWalk path name) s w t →
      w.path ≠ [] → At path name w before → handed name before (w.path.splitOn 47) = names →
      w.current = some p → Delivers (readEntry (bootLayer dev part) (some p)) records t →
      Reachable (bootLayer dev part) t →
      Opened dev part f s result (openPath (bootLayer dev part) fuel path name s) := by
  induction h with
  | @missing records name₁ names hnone =>
    intro w t p before hw hp hat hnames hcurrent hstart hreach
    obtain ⟨next, names', name', rest, isLast, hhanded, hc, hnext, -⟩ := component_handed hplain hat
    obtain ⟨rfl, rfl⟩ := List.cons.inj (hhanded.symm.trans hnames)
    obtain ⟨u, hl, -, -, hslots⟩ := lookup_resolves hrest.reachable hw hreach hcurrent hstart
      (hlength.trans_le hfuel) hc
    rw [hnext, hnone] at hl
    have hstep : openStep (bootLayer dev part) fuel w t = (.ok (.inr none),
        u.note (.printf (textOf "FAT: %s not found\r\n" [.string (cString (List.ofFn name'))]))) := by
      rw [openStep_eq, if_neg hp, hl]
    rw [openPath_returns hw hstep]
    exact ⟨rfl, hslots.of_openedFiles rfl⟩
  | @found records name₁ entry hsome =>
    intro w t p before hw hp hat hnames hcurrent hstart hreach
    obtain ⟨next, names', name', rest, isLast, hhanded, hc, hnext, hleft⟩ := component_handed hplain hat
    obtain ⟨rfl, rfl⟩ := List.cons.inj (hhanded.symm.trans hnames)
    obtain ⟨u, hl, hu, hvolume, hslots⟩ := lookup_resolves hrest.reachable hw hreach hcurrent hstart
      (hlength.trans_le hfuel) hc
    rw [hnext, hsome] at hl
    have hend : rest = [] := by
      rcases hleft with ⟨-, hend⟩ | ⟨-, hgo⟩
      · exact hend
      · obtain ⟨before', -, hnil⟩ := hgo none
        exact absurd hnil (handed_ne_nil (List.splitOn_ne_nil 47 rest))
    obtain ⟨i, hopen, hone⟩ := openEntry_opens hrel part hrest.free hslots entry
    have hopened := openPath_ends_eq (hw.snoc (openStep_found hp hl)) hend
    rw [hopen] at hopened
    rw [hopened]
    exact ⟨i, u, rfl, hone, hu, hrest.volume.trans hvolume, hopen⟩
  | @inside records name₁ names entry chain result hsome hdir hnames' ih =>
    intro w t p before hw hp hat hnames hcurrent hstart hreach
    obtain ⟨next, names', name', rest, isLast, hhanded, hc, hnext, hleft⟩ := component_handed hplain hat
    obtain ⟨rfl, rfl⟩ := List.cons.inj (hhanded.symm.trans hnames)
    obtain ⟨u, hl, hu, hvolume, hslots⟩ := lookup_resolves hrest.reachable hw hreach hcurrent hstart
      (hlength.trans_le hfuel) hc
    rw [hnext, hsome] at hl
    obtain ⟨hne, hgo⟩ := hleft.resolve_left (by
      rintro ⟨rfl, -⟩
      cases hnames')
    obtain ⟨i, hopen, -⟩ := openEntry_opens hrel part hrest.free hslots entry
    obtain ⟨before', hat', hleft⟩ := hgo (some (.slot i))
    have hwalk := hw.snoc (openStep_found hp hl)
    rw [hopen] at hwalk
    have hstart' := hdir.atStart hu (hrest.volume.trans hvolume) hopen
    have hreach' := hu.call fuel (.openEntry entry)
    have hdelivers := hstart'.delivers hrel (by
      have hsame := (SameVolume.stable (bootLayer dev part) f).openEntry entry (hrest.volume.trans hvolume)
      rw [hsame.fatType]
      exact hft)
    exact ih hdir.length_lt _ _ _ before' hwalk hne hat' hleft rfl hdelivers hreach'

end Along

/-! ### What `FAT_Open` opens, and what is shown of it -/

section Open

variable {result : Option DirectoryEntry}

lemma PlainPath.start (h : PlainPath path) (name : NameBuffer) : (startWalk path name).path ≠ [] := by
  intro hnil
  apply h.last
  rw [components, show stripSlash path = [] from hnil]
  rfl

lemma run_atRest (hrel : dev.Reliable) (hmount : fatInitialize (bootLayer dev part) s = (.ok true, t))
    (hcount : rootCount t.fat ≠ 0) (fuel : ℕ) (history : List Call)
    (hserved : Along (call (bootLayer dev part) fuel) (Served (bootLayer dev part) fuel) history t)
    (hfree : ∃ i, ((final (call (bootLayer dev part) fuel) history t).fat.openedFiles i).opened = false) :
    AtRest dev part t.fat (history.foldl (rootStep (partitionSectors dev part) t.fat) 0)
      (final (call (bootLayer dev part) fuel) history t) where
  reachable := final_inv' (P := Reachable (bootLayer dev part)) (fun _ c h => h.call fuel c) history t (.init hmount)
  volume := final_inv' (P := fun u => SameVolume t.fat u.fat)
    (fun _ c h => (SameVolume.stable (bootLayer dev part) t.fat).call fuel c h) history t (.refl _)
  count := hcount
  root := run_holding (bootLayer_steady hrel part) (fatInitialize_initialised hmount) hcount hserved
  free := hfree

/-- The root handle at its start is a source of the records that it holds. -/
lemma AtRest.delivers {m : ℕ} (hrel : dev.Reliable) (h : AtRest dev part f m s) :
    Delivers (readEntry (bootLayer dev part) (some .root)) (heldEntries (partitionSectors dev part) f m) s :=
  (holding_traverses (bootLayer_steady hrel part) h.count m).delivers h.root

lemma openPath_opened {m : ℕ} (name : NameBuffer) (hrel : dev.Reliable) (hrest : AtRest dev part f m s)
    (hft : f.fatType = 12 ∨ f.fatType = 16) (hplain : PlainPath path)
    (h : Resolves dev part f (heldEntries (partitionSectors dev part) f m) (handed name [] (components path)) result)
    (hfuel : recordBound f ≤ fuel) : Opened dev part f s result (openPath (bootLayer dev part) fuel path name s) := by
  have hlength : (heldEntries (partitionSectors dev part) f m).length < recordBound f := by
    rw [heldEntries_length]
    exact Nat.lt_succ_of_le (le_max_left _ _)
  exact openPath_along hrel hrest hft hplain hfuel hlength h _ s .root [] (.refl _ _) (hplain.start name)
    (.start hplain.nonzero) rfl rfl (hrest.delivers hrel) hrest.reachable

/-- **`FAT_Open` opens what the tree has at a path**, after any run of calls that return and do not read through the
root handle. The records of the root directory are those behind this handle, and the last name is taken as it is
handed over. Where the tree has nothing, `FAT_Open` returns NULL and leaves the slots as they were. -/
theorem openPath_resolves (dev : Device) (hrel : dev.Reliable) (part : Partition) (s₀ t : St)
    (hmount : fatInitialize (bootLayer dev part) s₀ = (.ok true, t)) (hft : t.fat.fatType = 12 ∨ t.fat.fatType = 16)
    (hcount : rootCount t.fat ≠ 0) (rounds : ℕ) (history : List Call)
    (hserved : Along (call (bootLayer dev part) rounds) (Served (bootLayer dev part) rounds) history t)
    (hfree : ∃ i, ((final (call (bootLayer dev part) rounds) history t).fat.openedFiles i).opened = false)
    (path : List UInt8) (hplain : PlainPath path) (name : NameBuffer)
    (h : Resolves dev part t.fat (heldEntries (partitionSectors dev part) t.fat
      (history.foldl (rootStep (partitionSectors dev part) t.fat) 0)) (handed name [] (components path)) result) :
    let s := final (call (bootLayer dev part) rounds) history t
    ∃ n, ∀ fuel, n ≤ fuel → Opened dev part t.fat s result (openPath (bootLayer dev part) fuel path name s) :=
  ⟨recordBound t.fat, fun _ =>
    openPath_opened name hrel (run_atRest hrel hmount hcount rounds history hserved hfree) hft hplain h⟩

/-- **A file is shown** from between two calls. -/
lemma AtRest.showsFile {m : ℕ} (hrel : dev.Reliable) (hft : f.fatType = 16) (hrest : AtRest dev part f m s)
    (hplain : PlainPath path) {entry : DirectoryEntry} {chain : List UInt32}
    (h : Resolves dev part f (heldEntries (partitionSectors dev part) f m) (handed name [] (components path))
      (some entry)) (hraw : IsRawFile dev part f entry chain) (hfuel : recordBound f ≤ fuel)
    (hrounds : entry.size.toNat + 100 ≤ 100 * fuel) :
    let r := readFile (bootLayer dev part) fuel path name s
    r.1 = .ok () ∧ SameSlots s r.2 ∧ Shows s r.2 (crlf (fileContent dev part f entry chain) ++ [10]) := by
  obtain ⟨i, u, hok, -, -, hvolume, hopen⟩ := openPath_opened name hrel hrest (.inr hft) hplain h hfuel
  have heq : openPath (bootLayer dev part) fuel path name s =
      (.ok (some (.slot i)), (openPath (bootLayer dev part) fuel path name s).2) := Prod.ext hok rfl
  have hft' : s.fat.fatType = 16 := by rw [hrest.volume.fatType, hft]
  have hsame : SameVolume f (openPath (bootLayer dev part) fuel path name s).2.fat :=
    (SameVolume.stable (bootLayer dev part) f).openPath fuel path name hrest.volume
  have hshows := readFile_handed hrest.reachable hrel (.inl hft') heq
    ⟨u, _, hopen, hsame.symm.trans hvolume, rfl⟩ (hrest.volume.isRawFile hraw) hrounds
  rwa [hrest.volume.fileContent] at hshows

/-- The small volume, with an entry of the file `B` in the directory `A`. -/
def nestedDisk : UInt32 → Sector := fun lba =>
  if lba = 36 then Bytes.ofList 512 (List.ofFn entryB) else smallDisk lba

/-- The bootloader's layer on that disk. -/
def nestedLayer : Layer := bootLayer (.ofDisk nestedDisk) (hardDiskPartition 0)

lemma nestedLayer_mounts : fatInitialize nestedLayer .start = (.ok true, mounted nestedLayer) :=
  Prod.ext (by decide) rfl

lemma nestedLayer_fat16 : (mounted nestedLayer).fat.fatType = 16 := by rfl

lemma plainPath_ab : PlainPath [65, 47, 66] where
  nonzero := by simp
  short := by rw [components_ab]; simp
  last := by rw [components_ab]; simp

lemma nested_openDirectory :
    OpenDirectory (.ofDisk nestedDisk) (hardDiskPartition 0) (mounted nestedLayer).fat entryA [4] where
  directory := by unfold IsDirectory; decide
  size := by decide
  whole := ⟨by decide, ⟨by simp, by simp⟩, by decide⟩
  nodup := by simp
  unbroken tag := by
    apply unbroken_of_wide
    rw [nestedLayer_fat16]
    decide

lemma nested_resolves : Resolves (.ofDisk nestedDisk) (hardDiskPartition 0) (mounted nestedLayer).fat
    (heldEntries (partitionSectors (.ofDisk nestedDisk) (hardDiskPartition 0)) (mounted nestedLayer).fat 0)
    (handed blankName [] (components [65, 47, 66])) (some entryB) := by
  rw [components_ab, show handed blankName [] [[65], [66]] = [[65], [66]] by decide]
  exact .inside (by decide +kernel) nested_openDirectory (.found (by decide +kernel))

theorem openPath_resolves_nested : ∃ n, ∀ fuel, n ≤ fuel →
    Opened (.ofDisk nestedDisk) (hardDiskPartition 0) (mounted nestedLayer).fat (mounted nestedLayer) (some entryB)
      (openPath nestedLayer fuel [65, 47, 66] blankName (mounted nestedLayer)) :=
  openPath_resolves (.ofDisk nestedDisk) (fun _ _ => rfl) (hardDiskPartition 0) .start (mounted nestedLayer)
    nestedLayer_mounts (.inr nestedLayer_fat16) (by decide) 0 [] trivial ⟨0, by decide⟩ [65, 47, 66]
    plainPath_ab blankName nested_resolves

/-- **What is shown of a path is what the tree has there**, after any such run: of a file its content, of a
directory its first seven records. -/
theorem shows_resolved (dev : Device) (hrel : dev.Reliable) (part : Partition) (s₀ t : St)
    (hmount : fatInitialize (bootLayer dev part) s₀ = (.ok true, t)) (hft : t.fat.fatType = 16)
    (hcount : rootCount t.fat ≠ 0) (rounds : ℕ) (history : List Call)
    (hserved : Along (call (bootLayer dev part) rounds) (Served (bootLayer dev part) rounds) history t)
    (hfree : ∃ i, ((final (call (bootLayer dev part) rounds) history t).fat.openedFiles i).opened = false)
    (path : List UInt8) (hplain : PlainPath path) (name : NameBuffer) (entry : DirectoryEntry)
    (chain : List UInt32)
    (h : Resolves dev part t.fat (heldEntries (partitionSectors dev part) t.fat
      (history.foldl (rootStep (partitionSectors dev part) t.fat) 0)) (handed name [] (components path)) (some entry)) :
    let s := final (call (bootLayer dev part) rounds) history t
    ∃ n, ∀ fuel, n ≤ fuel →
      (IsRawFile dev part t.fat entry chain →
        let r := readFile (bootLayer dev part) fuel path name s
        r.1 = .ok () ∧ SameSlots s r.2 ∧ Shows s r.2 (crlf (fileContent dev part t.fat entry chain) ++ [10])) ∧
      (OpenDirectory dev part t.fat entry chain →
        let r := readDirectory (bootLayer dev part) fuel path name s
        r.1 = .ok () ∧ SameSlots s r.2 ∧ Shows s r.2 (listing (chainEntries dev part t.fat chain))) := by
  intro s
  have hrest := run_atRest hrel hmount hcount rounds history hserved hfree
  refine ⟨max (recordBound t.fat) (entry.size.toNat + 100), fun fuel hfuel => ⟨fun hraw => ?_, fun hdir => ?_⟩⟩
  · have hrounds : entry.size.toNat + 100 ≤ 100 * fuel := by
      have := le_trans (le_max_right (recordBound t.fat) _) hfuel
      omega
    exact hrest.showsFile hrel hft hplain h hraw (le_trans (le_max_left _ _) hfuel) hrounds
  · obtain ⟨i, u, hok, -, hu, hvolume, hopen⟩ :=
      openPath_opened name hrel hrest (.inr hft) hplain h (le_trans (le_max_left _ _) hfuel)
    have heq : openPath (bootLayer dev part) fuel path name s =
        (.ok (some (.slot i)), (openPath (bootLayer dev part) fuel path name s).2) := Prod.ext hok rfl
    have hft' : s.fat.fatType = 16 := by rw [hrest.volume.fatType, hft]
    exact readDirectory_handed hrel hrest.reachable (.inr hft') heq (hdir.atStart hu hvolume hopen)

lemma nested_isRawFile :
    IsRawFile (.ofDisk nestedDisk) (hardDiskPartition 0) (mounted nestedLayer).fat entryB [2, 3] := by
  refine ⟨by decide, fun c hc => by cases hc; decide, fun i hi => ?_, ⟨by simp, fun _ => by simp⟩, fun i hi => ?_,
    by decide +kernel⟩
  all_goals
    obtain rfl : i = 0 := by
      simp at hi
      omega
    decide +kernel

theorem shows_resolved_nested : ∃ n, ∀ fuel, n ≤ fuel →
    Shows (mounted nestedLayer) (readFile nestedLayer fuel [65, 47, 66] blankName (mounted nestedLayer)).2
      (crlf (fileContent (.ofDisk nestedDisk) (hardDiskPartition 0) (mounted nestedLayer).fat entryB [2, 3]) ++
        [10]) := by
  obtain ⟨n, hshows⟩ := shows_resolved (.ofDisk nestedDisk) (fun _ _ => rfl) (hardDiskPartition 0) .start
    (mounted nestedLayer) nestedLayer_mounts nestedLayer_fat16 (by decide) 0 [] trivial ⟨0, by decide⟩
    [65, 47, 66] plainPath_ab blankName entryB [2, 3] nested_resolves
  exact ⟨n, fun fuel hfuel => ((hshows fuel hfuel).1 nested_isRawFile).2.2⟩

end Open

/-! ### One lookup after the other -/

section Lasting

variable {held : Set ℕ} {entry : DirectoryEntry} {i : Fin 10}

/-- However often a path is looked up, it leads to an entry: from any of the sectors `held` in the buffer of the
root handle, whatever the stack holds, and the lookup leaves one of them there. -/
structure Lasts (dev : Device) (part : Partition) (f : FatData) (held : Set ℕ) (path : List UInt8)
    (entry : DirectoryEntry) : Prop where
  resolves : ∀ m ∈ held, ∀ name, Resolves dev part f (heldEntries (partitionSectors dev part) f m)
    (handed name [] (components path)) (some entry)
  stays : ∀ m ∈ held, ∀ name, openLeaves (partitionSectors dev part) f m path name ∈ held

/-- Between two lookups. -/
def Rests (dev : Device) (part : Partition) (f : FatData) (held : Set ℕ) (s : St) : Prop :=
  ∃ m ∈ held, AtRest dev part f m s

/-- A slot is in use, and the root handle is ready for the next lookup. -/
structure InUse (dev : Device) (part : Partition) (f : FatData) (held : Set ℕ) (i : Fin 10) (s : St) : Prop where
  reachable : Reachable (bootLayer dev part) s
  volume : SameVolume f s.fat
  count : rootCount f ≠ 0
  root : ∃ m ∈ held, Holding (partitionSectors dev part) f m 0 s.fat.rootDirectory
  deref : s.fat.deref (some (.slot i)) = .ok (.slot i)

section Extension

variable {base ext : List UInt8} (hbase : ∀ b ∈ base, b ≠ 0 ∧ b ≠ 46) (hext : 3 ≤ ext.length)
include hbase hext

/-- Behind an extension of three bytes a name may go on. -/
lemma getShortName_behind (rest : List UInt8) :
    getShortName (base ++ 46 :: (ext ++ rest)) = getShortName (base ++ 46 :: ext) := by
  have hdot : ∀ l, strchr 46 (base ++ 46 :: l) = some base.length := fun l => by
    rw [strchr_append hbase]
    simp [strchr]
  have hhead : ∀ l : List UInt8, (base ++ 46 :: l).take (min 8 base.length) = base.take (min 8 base.length) :=
    fun l => List.take_append_of_le_length (min_le_right _ _)
  have htail : ∀ l : List UInt8, (base ++ 46 :: l).drop (base.length + 1) = l := fun l => by
    rw [List.drop_length_add_append]
    rfl
  unfold getShortName
  simp only [hdot, Option.getD_some, hhead, htail, List.take_append_of_le_length hext]

/-- The byte that the stack leaves behind such a name does not matter. -/
lemma shortName_behind (b : UInt8) :
    Kernel.shortName (cString ((base ++ 46 :: ext) ++ [b])) = Kernel.shortName (base ++ 46 :: ext) := by
  rw [shortName_cString, List.append_assoc, List.cons_append, Kernel.shortName, getShortName_behind hbase hext]
  rfl

/-- A file of the root directory with such a name, among its first fifteen records: a lookup reads no further, and
leaves the first sector in the buffer. -/
lemma Lasts.of_early (hpath : stripSlash path = base ++ 46 :: ext)
    (hbytes : ∀ b ∈ base ++ 46 :: ext, b ≠ 0 ∧ b ≠ 47) (hlen : (base ++ 46 :: ext).length + 1 < 256)
    (hfind : (heldEntries (partitionSectors dev part) f 0).find?
      (hasName (Kernel.shortName (base ++ 46 :: ext))) = some entry)
    (hearly : (heldEntries (partitionSectors dev part) f 0).findIdx
      (nameMatches (getShortName (base ++ 46 :: ext))) < 15) : Lasts dev part f {0} path entry := by
  have hone : components path = [base ++ 46 :: ext] := by
    rw [components, hpath]
    exact List.splitOn_eq_singleton fun h => (hbytes 47 h).2 rfl
  refine ⟨fun m hm name => ?_, fun m hm name => ?_⟩
  · obtain rfl : m = 0 := hm
    rw [hone, handed]
    refine .found ?_
    rwa [shortName_behind hbase hext]
  · obtain rfl : m = 0 := hm
    obtain ⟨later, hfirst⟩ := ofFn_split (b := (name.write 0 (base ++ 46 :: ext)).write
      ((base ++ 46 :: ext).length + 1) [0]) (show (base ++ 46 :: ext).length < 256 by omega) fun i hi => by
        rw [copied_apply name _ (Nat.le_succ _), if_pos hi, List.getD_eq_getElem _ _ hi]
    have hne : stripSlash path ≠ [] := by
      rw [hpath]
      simp
    rw [openLeaves, if_neg hne, hpath, component_last hbytes hlen]
    dsimp only
    rw [hfirst, List.append_assoc, List.cons_append, getShortName_behind hbase hext]
    exact if_pos (by omega)

end Extension

lemma mounted_rests (hrel : dev.Reliable) (hmount : fatInitialize (bootLayer dev part) s = (.ok true, t))
    (hcount : rootCount t.fat ≠ 0) (h0 : 0 ∈ held) : Rests dev part t.fat held t :=
  ⟨0, h0, run_atRest hrel hmount hcount 0 [] trivial
    ⟨0, (fatInitialize_initialised hmount).closed 0⟩⟩

lemma Rests.sectorsPerCluster (h : Rests dev part f held s) : 0 < f.sectorsPerCluster.toNat := by
  obtain ⟨m, -, hrest⟩ := h
  rw [← hrest.volume.sectorsPerCluster]
  exact hrest.reachable.sectorsPerCluster

theorem Rests.opens (hrel : dev.Reliable) (hft : f.fatType = 12 ∨ f.fatType = 16) (hplain : PlainPath path)
    (hlasts : Lasts dev part f held path entry) (h : Rests dev part f held s) (hfuel : recordBound f ≤ fuel)
    (name : NameBuffer) : ∃ i t, openPath (bootLayer dev part) fuel path name s = (.ok (some (.slot i)), t) ∧
      HandedOut dev part entry i t ∧ InUse dev part f held i t := by
  obtain ⟨m, hm, hrest⟩ := h
  obtain ⟨i, u, hok, hone, -, hvolume, hopen⟩ :=
    openPath_opened name hrel hrest hft hplain (hlasts.resolves m hm name) hfuel
  have heq : openPath (bootLayer dev part) fuel path name s =
      (.ok (some (.slot i)), (openPath (bootLayer dev part) fuel path name s).2) := Prod.ext hok rfl
  have hsame : SameVolume f (openPath (bootLayer dev part) fuel path name s).2.fat :=
    (SameVolume.stable (bootLayer dev part) f).openPath fuel path name hrest.volume
  have hreach : Reachable (bootLayer dev part) (openPath (bootLayer dev part) fuel path name s).2 :=
    hrest.reachable.call fuel (.openPath path name)
  exact ⟨i, _, heq, ⟨u, _, hopen, hsame.symm.trans hvolume, rfl⟩, hreach, hsame, hrest.count,
    ⟨_, hlasts.stays m hm name, openPath_holding (bootLayer_steady hrel part) hrest.count hrest.reachable.named
      hrest.root heq⟩, hreach.named.deref_slot hone.opened⟩

/-- **The root directory is listed**, and the next lookup is served. -/
theorem Rests.listsRoot (hrel : dev.Reliable) (hp : stripSlash path = []) (h : Rests dev part f held s) (fuel : ℕ)
    (name : NameBuffer) : ∃ m ∈ held, (readDirectory (bootLayer dev part) fuel path name s).1 = .ok () ∧
      Shows s (readDirectory (bootLayer dev part) fuel path name s).2
        (listing (heldEntries (partitionSectors dev part) f m)) ∧
      AtRest dev part f m (readDirectory (bootLayer dev part) fuel path name s).2 := by
  obtain ⟨m, hm, hrest⟩ := h
  have hL := bootLayer_steady hrel part
  obtain ⟨hok, hshows, hroot⟩ := readDirectory_root fuel name hL hrest.count hrest.root hp
  have hloop := (listLoop_shows hL.ok (holding_traverses hL hrest.count m) (fun _ _ _ ht => ht) 7 0
    (s.note (.printf "\n")) (Nat.zero_le _) hrest.root).1
  obtain ⟨-, hslots⟩ := listing_sameSlots (L := bootLayer dev part) (s := s) (p := .root)
    (t := s.note (.printf "\n")) ⟨hrest.reachable.named.root, hrest.reachable.named.slot⟩
    ⟨fun _ => rfl, fun _ _ => rfl⟩ 7
  rw [← readDirectory_closes (openPath_root hp) hloop] at hslots
  obtain ⟨i, hi⟩ := hrest.free
  exact ⟨m, hm, hok, hshows, hrest.reachable.call fuel (.readDirectory path name),
    (SameVolume.stable (bootLayer dev part) f).call fuel (.readDirectory path name) hrest.volume, hrest.count, hroot,
    i, (hslots.flags i).trans hi⟩

lemma InUse.read (h : InUse dev part f held i s) (n : UInt32) :
    InUse dev part f held i (read (bootLayer dev part) (some (.slot i)) n s).2 := by
  have hbeside := read_beside (L := bootLayer dev part) h.deref n
  refine ⟨h.reachable.call 0 (.read (some (.slot i)) n), ?_, h.count, ?_, (deref_keeps hbeside.1).trans h.deref⟩
  · exact (SameVolume.stable (bootLayer dev part) f).read n (fun _ _ => trivial) h.volume
  · rw [hbeside.2]
    exact h.root

lemma InUse.close (h : InUse dev part f held i s) :
    (close (some (.slot i)) s).1 = .ok () ∧ Rests dev part f held (close (some (.slot i)) s).2 := by
  obtain ⟨m, hm, hroot⟩ := h.root
  obtain ⟨hok, hbeside⟩ := close_beside h.deref (.refl i s)
  refine ⟨hok, m, hm, h.reachable.call 0 (.close (some (.slot i))), ?_, h.count, ?_, i, ?_⟩
  · exact (SameVolume.stable (bootLayer dev part) f).close (some (.slot i)) s h.volume
  · rw [hbeside]
    exact hroot
  · rw [close_slot h.deref]
    simp [St.setFd, FatData.setFd]

end Lasting

end ArcOS.Fat
