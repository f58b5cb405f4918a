import ArcOS.Fat.Accounting
import ArcOS.Fat.Files
import ArcOS.Fat.NullFile
import ArcOS.Lib.Search

/-!
What `FAT_ReadFile` and `FAT_ReadDirectory` put on the screen.

On a disk whose reads succeed the layer itself is silent (`Quiet`): it prints only when something goes wrong.
So all that comes out between the call and its return is what the loop prints of the directory
(`listLoop_shows`) or of the file (`readFile_shows`).
-/

namespace ArcOS.Fat

open Lib Lib.Search

/-! ### Output -/

/-- The bytes that an entry of the log puts out. -/
def Event.output : Event → List UInt8
  | .putc c => [c]
  | .printf text => text.toList.map fun c => UInt8.ofNat c.toNat
  | _ => []

/-- The output on the way from one state to another. -/
def Shows (s t : St) (out : List UInt8) : Prop :=
  ∃ new, t.log = new ++ s.log ∧ new.reverse.flatMap Event.output = out

/-- An entry of the log that puts nothing out. -/
def Quiet (e : Event) : Prop := e.output = []

variable {L : Layer} {fuel : ℕ} {s t u : St} {out out' : List UInt8}

lemma Shows.refl (s : St) : Shows s s [] := ⟨[], rfl, rfl⟩

lemma Shows.trans (h : Shows s t out) (h' : Shows t u out') : Shows s u (out ++ out') := by
  obtain ⟨new, hlog, rfl⟩ := h
  obtain ⟨new', hlog', rfl⟩ := h'
  refine ⟨new' ++ new, by rw [hlog', hlog, List.append_assoc], ?_⟩
  rw [List.reverse_append, List.flatMap_append]

lemma Shows.note (e : Event) (s : St) : Shows s (s.note e) e.output := ⟨[e], rfl, by simp⟩

lemma Shows.of_quiet (h : Logged Quiet s t) : Shows s t [] := by
  obtain ⟨new, hlog, hquiet⟩ := h
  refine ⟨new, hlog, List.flatMap_eq_nil_iff.mpr fun e he => hquiet e (List.mem_reverse.mp he)⟩

lemma Shows.of_log {t' : St} (h : Shows s t out) (ht : t'.log = t.log) : Shows s t' out := by
  obtain ⟨new, hlog, hout⟩ := h
  exact ⟨new, ht.trans hlog, hout⟩

/-! ### The silence of the layer -/

section Silence

variable (hL : ∀ clock lba n (buf : Bytes n), (L.readSectors clock lba n buf).1 = true) {loc : Loc}

lemma refill_quiet (sector : UInt32) (s : St) : Logged Quiet s (refill L sector s) := by
  unfold refill
  split
  · exact .cons (show Quiet (.diskRead _ _) from rfl) rfl
  · exact .refl s

lemma nextCluster_quiet (cluster : UInt32) (s : St) : Logged Quiet s (nextCluster L cluster s).2 :=
  .trans (.cons (show Quiet (.nextCluster _ _ _) from rfl) rfl) (refill_quiet (L := L) _ (s.note _))

include hL

lemma fillBuffer_quiet (lba : UInt32) (s : St) : Logged Quiet s (fillBuffer L loc lba s).2 := by
  have hread : ∀ clock lba (buf : Bytes 512), (L.readSectors clock lba 512 buf).1 = true :=
    fun clock lba buf => hL clock lba 512 buf
  unfold fillBuffer
  simp only [Layer.read, hread, if_true]
  exact .cons (show Quiet (.diskRead _ _) from rfl) rfl

omit hL in
lemma stepCursor_quiet (s : St) : Logged Quiet s (stepCursor L loc s) := by
  unfold stepCursor
  dsimp only
  split
  · exact nextCluster_quiet (L := L) _ (s.setFd loc _)
  · exact .refl s

lemma lookAhead_quiet (s : St) : Logged Quiet s (lookAhead L loc s).2 := by
  unfold lookAhead
  split
  · exact fillBuffer_quiet hL _ (s.setFd loc _)
  · dsimp only
    split
    · exact stepCursor_quiet s
    · exact (stepCursor_quiet s).trans (fillBuffer_quiet hL _ _)

lemma readRound_quiet (n : UInt32) (s : St) : Logged Quiet s (readRound L loc n s).state := by
  have hcopy : Logged Quiet s (copyChunk loc (takeCount n (s.fat.fd loc).pub.position) s).2 :=
    .cons (show Quiet (.copy _ _) from rfl) rfl
  unfold readRound
  dsimp only
  split
  · exact hcopy.trans (lookAhead_quiet hL _)
  · exact hcopy

lemma readLoop_quiet : ∀ (rounds : ℕ) (n : UInt32) (s : St), Logged Quiet s (readLoop L loc rounds n s).2 := by
  intro rounds
  induction rounds with
  | zero => exact fun _ s => .refl s
  | succ rounds ih =>
    intro n s
    by_cases hn : 0 < n
    · have hround : Logged Quiet s (readRound L loc n s).state := readRound_quiet hL n s
      rw [readLoop_succ hn]
      split
      · exact hround.trans (ih _ _)
      · simpa only using hround
    · rw [readLoop_done hn]
      exact .refl s

lemma read_quiet (file : Option Loc) (n : UInt32) (s : St) : Logged Quiet s (read L file n s).2 := by
  unfold read
  split
  · exact .refl s
  · exact readLoop_quiet hL _ _ s

lemma findLoop_quiet (file : Option Loc) (short : Bytes 12) :
    ∀ (rounds : ℕ) (s : St), Logged Quiet s (findLoop L file short rounds s).2 := by
  intro rounds
  induction rounds with
  | zero => exact fun s => .refl s
  | succ rounds ih =>
    intro s
    have hread : Logged Quiet s (readEntry L file s).2 := read_quiet hL file 32 s
    unfold findLoop
    split
    · next heq => rw [heq] at hread; exact hread
    · next heq => rw [heq] at hread; exact hread
    · next heq =>
      rw [heq] at hread
      split
      · exact hread
      · exact hread.trans (ih _)

lemma lookup_quiet {w : Walk} {name : NameBuffer} {rest : List UInt8} {found : Option DirectoryEntry}
    (h : lookup L fuel w s = (.ok (name, rest, found), t)) : Logged Quiet s t := by
  obtain ⟨isLast, u, -, hfind, hclose⟩ := lookup_ok h
  have hfound : Logged Quiet s u := by
    have hloop := findLoop_quiet hL w.current (getShortName (List.ofFn name)) fuel
      (s.note (.findFile s.fat w.current (List.ofFn name)))
    rw [findFile] at hfind
    rw [hfind] at hloop
    exact (Logged.cons (show Quiet (.findFile _ _ _) from rfl) rfl).trans hloop
  have hlog : t.log = u.log := by
    rw [← close_log w.current u, hclose]
  obtain ⟨new, hnew, hquiet⟩ := hfound
  exact ⟨new, hlog.trans hnew, hquiet⟩

/-- Along the rounds of `FAT_Open` nothing is printed as long as every component opens. -/
lemma openStep_quiet {w w' : Walk} (h : openStep L fuel w s = (.ok (.inl w'), t)) :
    w'.current = none ∨ Logged Quiet s t := by
  rw [openStep_eq] at h
  split at h
  · cases h
  split at h
  · cases h
  · next name rest entry u hl =>
    cases hopen : openEntry L entry u with
    | mk file u' =>
      rw [hopen] at h
      cases h
      cases file with
      | none => exact .inl rfl
      | some p =>
        obtain ⟨i, -, -, -, rfl⟩ := openEntry_some hopen
        exact .inr ((lookup_quiet hL hl).trans (.cons (show Quiet (.diskRead _ _) from rfl) rfl))
  · cases h

/-- What `FAT_Open` comes to along a walk: NULL, the root directory, or what `FAT_OpenEntry` handed out last. -/
def HandedAlong (L : Layer) (s : St) (w : Walk) (t : St) : Prop :=
  match w.current with
  | none => True
  | some .root => Logged Quiet s t
  | some (.slot i) => Logged Quiet s t ∧ ∃ entry u, openEntry L entry u = (some (.slot i), t)

lemma openStep_handed {w w' : Walk} (h : HandedAlong L s w t) (ho : openStep L fuel w t = (.ok (.inl w'), u)) :
    HandedAlong L s w' u := by
  obtain ⟨hp, name, entry, v, hl, hcurrent⟩ := openStep_goesOn ho
  have hbefore : Logged Quiet s t := by
    unfold HandedAlong at h
    cases hw : w.current with
    | none =>
      obtain ⟨e, he⟩ := openStep_null L fuel w t hp hw
      rw [ho] at he
      cases he
    | some p => cases p <;> rw [hw] at h <;> [exact h; exact h.1]
  have hopen : openEntry L entry v = (w'.current, u) := by
    rw [openStep_eq, if_neg hp, hl] at ho
    simp only [Prod.mk.injEq] at ho
    exact Prod.ext hcurrent.symm ho.2
  unfold HandedAlong
  cases hw' : w'.current with
  | none => trivial
  | some p =>
    rw [hw'] at hopen
    have hquiet : Logged Quiet s u :=
      hbefore.trans ((openStep_quiet hL ho).resolve_left (by rw [hw']; exact Option.some_ne_none p))
    obtain ⟨i, rfl, -⟩ := openEntry_some hopen
    exact ⟨hquiet, entry, v, hopen⟩

/-- **A slot that `FAT_Open` returns** was handed out for the entry of its last component, and nothing was
printed on the way. -/
lemma openPath_handed {path : List UInt8} {name : NameBuffer} {i : Fin 10}
    (h : openPath L fuel path name s = (.ok (some (.slot i)), t)) :
    Logged Quiet s t ∧ ∃ entry u, openEntry L entry u = (some (.slot i), t) := by
  obtain ⟨w, u, hw, hend⟩ :=
    openLoop_last L fuel (path.length + 1) (startWalk path name) s (stripSlash_length path)
  have hu : HandedAlong L s w u :=
    hw.invariant (P := HandedAlong L s) (fun _ _ _ _ h ho => openStep_handed hL h ho) (.refl s)
  rw [← openPath_eq, h] at hend
  rcases hend with ⟨file, hlast, heq⟩ | ⟨e, -, heq⟩
  · cases heq
    rw [openStep_eq] at hlast ⊢
    split at hlast
    · next hp =>
      have hcurrent : w.current = some (.slot i) := by
        simpa using hlast
      rw [if_pos hp]
      unfold HandedAlong at hu
      rw [hcurrent] at hu
      exact hu
    · split at hlast <;> simp at hlast
  · cases heq

end Silence

/-! ### The loop of `FAT_ReadDirectory` -/

section Listing

variable {L : Layer} {file : Option Loc} {l : List DirectoryEntry} {I : ℕ → St → Prop} {s t : St}

/-- What `FAT_ReadDirectory` prints of a record. -/
def listLine (e : DirectoryEntry) : List UInt8 := [32, 32] ++ List.ofFn e.name ++ [13, 10]

/-- What it prints of a directory with these records: a newline, and the first seven. -/
def listing (records : List DirectoryEntry) : List UInt8 := 10 :: (records.take 7).flatMap listLine

lemma putcs_shows (cs : List UInt8) (s : St) : Shows s (cs.foldl (fun s c => s.note (.putc c)) s) cs := by
  induction cs generalizing s with
  | nil => exact .refl s
  | cons c cs ih => exact (Shows.note (.putc c) s).trans (ih _)

/-- The state behind the line of a record. -/
def printed (e : DirectoryEntry) (s : St) : St :=
  ((List.ofFn e.name).foldl (fun s c => s.note (.putc c)) (s.note (.printf "  "))).note (.printf "\r\n")

lemma printed_shows (e : DirectoryEntry) (s : St) : Shows s (printed e s) (listLine e) :=
  ((Shows.note (.printf "  ") s).trans (putcs_shows _ _)).trans (.note (.printf "\r\n") _)

lemma printed_keeps {P : St → Prop} (hnote : ∀ s e, P s → P (s.note e)) (e : DirectoryEntry) (hs : P s) :
    P (printed e s) := by
  have hputcs : ∀ (cs : List UInt8) (s : St), P s → P (cs.foldl (fun s c => s.note (.putc c)) s) := by
    intro cs
    induction cs with
    | nil => exact fun _ h => h
    | cons c cs ih => exact fun s h => ih _ (hnote s _ h)
  exact hnote _ _ (hputcs _ _ (hnote _ _ hs))

lemma listLoop_none {left : ℕ} (h : readEntry L file s = (.ok none, t)) :
    listLoop L file left s = (.ok (), t) := by
  rw [listLoop, h]

lemma listLoop_full {e : DirectoryEntry} (h : readEntry L file s = (.ok (some e), t)) :
    listLoop L file 0 s = (.ok (), t) := by
  rw [listLoop, h]

lemma listLoop_some {left : ℕ} {e : DirectoryEntry} (h : readEntry L file s = (.ok (some e), t)) :
    listLoop L file (left + 1) s = listLoop L file left (printed e t) := by
  rw [listLoop, h]
  rfl

/-- **The loop of `FAT_ReadDirectory`** shows the records it may still print, and reads one more. -/
theorem listLoop_shows (hok : ∀ clock lba n (buf : Bytes n), (L.readSectors clock lba n buf).1 = true)
    (hf : Traverses (readEntry L file) l I) (hnote : ∀ k s e, I k s → I k (s.note e)) :
    ∀ (left k : ℕ) (s : St), k ≤ l.length → I k s →
      (listLoop L file left s).1 = .ok () ∧
      I (min (k + left + 1) l.length) (listLoop L file left s).2 ∧
      Shows s (listLoop L file left s).2 (((l.drop k).take left).flatMap listLine) := by
  intro left
  induction left with
  | zero =>
    intro k s hk hI
    obtain ⟨hres, hnext⟩ := hf k s hk hI
    have hquiet : Logged Quiet s (readEntry L file s).2 := read_quiet hok file 32 s
    have hloop : listLoop L file 0 s = (.ok (), (readEntry L file s).2) := by
      cases hr : l[k]? with
      | none => exact listLoop_none (Prod.ext (hres.trans (by rw [hr])) rfl)
      | some e => exact listLoop_full (Prod.ext (hres.trans (by rw [hr])) rfl)
    rw [hloop, List.take_zero]
    exact ⟨rfl, hnext, .of_quiet hquiet⟩
  | succ left ih =>
    intro k s hk hI
    obtain ⟨hres, hnext⟩ := hf k s hk hI
    have hquiet : Logged Quiet s (readEntry L file s).2 := read_quiet hok file 32 s
    rcases Nat.eq_or_lt_of_le hk with rfl | hlt
    · rw [List.getElem?_eq_none le_rfl] at hres
      rw [listLoop_none (Prod.ext hres rfl), List.drop_length]
      rw [Nat.min_eq_right (Nat.le_succ _)] at hnext
      rw [Nat.min_eq_right (by omega)]
      exact ⟨rfl, hnext, .of_quiet hquiet⟩
    · rw [List.getElem?_eq_getElem hlt] at hres
      rw [Nat.min_eq_left hlt] at hnext
      rw [listLoop_some (Prod.ext hres rfl), List.drop_eq_getElem_cons hlt, List.take_succ_cons,
        List.flatMap_cons, show k + (left + 1) + 1 = k + 1 + left + 1 by omega]
      obtain ⟨hok', hI', hshows⟩ := ih (k + 1) (printed l[k] (readEntry L file s).2) hlt
        (printed_keeps (hnote (k + 1)) _ hnext)
      refine ⟨hok', hI', ?_⟩
      exact (Shows.of_quiet hquiet).trans ((printed_shows _ _).trans hshows)

end Listing

/-! ### The loop of `FAT_ReadFile` -/

/-- Text with a carriage return before every newline. -/
def crlf (bytes : List UInt8) : List UInt8 := bytes.flatMap fun c => if c = 10 then [13, 10] else [c]

lemma crlf_append (xs ys : List UInt8) : crlf (xs ++ ys) = crlf xs ++ crlf ys := List.flatMap_append

lemma printChunk_shows (bytes : List UInt8) (s : St) :
    Shows s (printChunk bytes s) (crlf bytes) ∧ (printChunk bytes s).fat = s.fat := by
  induction bytes generalizing s with
  | nil => exact ⟨.refl s, rfl⟩
  | cons c bytes ih =>
    set t := (if c = 10 then s.note (.putc 13) else s).note (.putc c) with ht
    have hfirst : Shows s t (if c = 10 then [13, 10] else [c]) := by
      rw [ht]
      split
      · next hc =>
        rw [hc]
        exact (Shows.note (.putc 13) s).trans (.note (.putc 10) _)
      · exact .note (.putc c) s
    have hfat : t.fat = s.fat := by
      rw [ht]
      split <;> rfl
    obtain ⟨hrest, hfat'⟩ := ih t
    exact ⟨hfirst.trans hrest, hfat'.trans hfat⟩

section Dump

variable {dev : Device} {part : Partition} {f : FatData} {entry : DirectoryEntry} {chain : List UInt32}
  {i : Fin 10} {s₀ : St}

lemma bootLayer_ok (hrel : dev.Reliable) (part : Partition) (clock : ℕ) (lba : UInt32) (n : ℕ) (buf : Bytes n) :
    ((bootLayer dev part).readSectors clock lba n buf).1 = true := by
  change (dev.readSectors clock lba n buf).1 = true
  rw [Device.readSectors_of_ok (hrel _ _)]

lemma Ready.of_fat (h : Ready dev part f entry chain i s) (ht : t.fat = s.fat) :
    Ready dev part f entry chain i t := by
  refine ⟨⟨?_, ⟨?_, ?_, ?_⟩, ?_⟩, ?_⟩
  · rw [ht]; exact h.deref
  · rw [ht]; exact h.onChain.volume
  · have hcache := h.onChain.cache
    unfold Coherent at hcache ⊢
    rwa [ht]
  · rw [ht]; exact h.onChain.cursor
  · rw [ht]; exact h.size
  · rw [ht]; exact h.loaded

/-- The bytes of a file that are left behind a position. -/
def restOf (dev : Device) (part : Partition) (f : FatData) (chain : List UInt32) (size position : ℕ) :
    List UInt8 :=
  stretch (chainByte dev part f chain) position (size - position)

/-- **The loop shows what is left of the file.** -/
lemma dumpLoop_shows (hrel : dev.Reliable) (hspc : 0 < f.sectorsPerCluster.toNat) (hft : f.fatType ≠ 12)
    (hfile : IsFile dev part f entry chain) : ∀ (rounds : ℕ) (s : St), Ready dev part f entry chain i s →
      OneMore s₀ i s → entry.size.toNat - (s.fat.openedFiles i).pub.position.toNat + 100 ≤ 100 * rounds →
      let r := dumpLoop (bootLayer dev part) (some (.slot i)) rounds s
      r.1 = .ok () ∧ Ready dev part f entry chain i r.2 ∧ OneMore s₀ i r.2 ∧
        Shows s r.2 (crlf (restOf dev part f chain entry.size.toNat (s.fat.openedFiles i).pub.position.toNat)) := by
  intro rounds
  induction rounds with
  | zero =>
    intro s _ _ hlt
    omega
  | succ rounds ih =>
    intro s h hone hlt r
    have hquiet : Logged Quiet s (read (bootLayer dev part) (some (.slot i)) 100 s).2 :=
      read_quiet (bootLayer_ok hrel part) _ _ _
    obtain ⟨count, hres, hcount, hpos, hready, -⟩ := read_ready hrel hspc hfile h 100 (h.finds hrel hft 100)
    have hone' : OneMore s₀ i (read (bootLayer dev part) (some (.slot i)) 100 s).2 :=
      (OneMore.stable (bootLayer dev part) s₀ i).read 100 (fun loc hloc => by
        rw [h.deref] at hloc
        cases hloc
        rfl) hone
    have hdump : r = if count = 0 then (.ok (), (read (bootLayer dev part) (some (.slot i)) 100 s).2)
        else dumpLoop (bootLayer dev part) (some (.slot i)) rounds
          (printChunk (stretch (chainByte dev part f chain) (s.fat.openedFiles i).pub.position.toNat count.toNat)
            (read (bootLayer dev part) (some (.slot i)) 100 s).2) := by
      simp only [r, dumpLoop]
      rcases hread : read (bootLayer dev part) (some (.slot i)) 100 s with ⟨res, t⟩
      rw [hread] at hres
      simp only at hres
      rw [hres]
    generalize (read (bootLayer dev part) (some (.slot i)) 100 s).2 = t at hquiet hpos hready hone' hdump
    rw [show (100 : UInt32).toNat = 100 from rfl] at hcount
    rw [hdump]
    split
    · next hzero =>
      have hdone : entry.size.toNat - (s.fat.openedFiles i).pub.position.toNat = 0 := by
        rw [hzero, show (0 : UInt32).toNat = 0 from rfl] at hcount
        omega
      refine ⟨rfl, hready, hone', ?_⟩
      rw [restOf, hdone]
      exact .of_quiet hquiet
    · next hne =>
      have hpositive : 0 < count.toNat := by
        by_contra h0
        exact hne (UInt32.toNat_inj.mp (by rw [show (0 : UInt32).toNat = 0 from rfl]; omega))
      set chunk := stretch (chainByte dev part f chain) (s.fat.openedFiles i).pub.position.toNat count.toNat
        with hchunk
      obtain ⟨hshow, hfat⟩ := printChunk_shows chunk t
      have hone'' : OneMore s₀ i (printChunk chunk t) :=
        (OneMore.stable (bootLayer dev part) s₀ i).printChunk chunk hone'
      have hrest := ih (printChunk chunk t) (hready.of_fat hfat) hone'' (by rw [hfat, hpos]; omega)
      obtain ⟨hok, hready', honeEnd, hshow'⟩ := hrest
      refine ⟨hok, hready', honeEnd, ?_⟩
      have hsplit : restOf dev part f chain entry.size.toNat (s.fat.openedFiles i).pub.position.toNat =
          chunk ++ restOf dev part f chain entry.size.toNat
            ((s.fat.openedFiles i).pub.position.toNat + count.toNat) := by
        rw [restOf, restOf, hchunk, ← stretch_add]
        congr 1
        omega
      rw [hfat, hpos] at hshow'
      rw [hsplit, crlf_append]
      exact (Shows.of_quiet hquiet).trans (hshow.trans hshow')

end Dump

/-! ### `FAT_ReadFile` -/

lemma readFile_handed {dev : Device} {part : Partition} (hr : Reachable (bootLayer dev part) s)
    (hrel : dev.Reliable) (hft : s.fat.fatType = 16 ∨ s.fat.fatType = 32) {path : List UInt8} {name : NameBuffer}
    {i : Fin 10} {s₁ : St} (heq : openPath (bootLayer dev part) fuel path name s = (.ok (some (.slot i)), s₁))
    {entry : DirectoryEntry} {chain : List UInt32} (hhanded : HandedOut dev part entry i s₁)
    (hraw : IsRawFile dev part s.fat entry chain) (hfuel : entry.size.toNat + 100 ≤ 100 * fuel) :
    let r := readFile (bootLayer dev part) fuel path name s
    r.1 = .ok () ∧ SameSlots s r.2 ∧ Shows s r.2 (crlf (fileContent dev part s.fat entry chain) ++ [10]) := by
  have hpos := hr.sectorsPerCluster
  have h12 : s.fat.fatType ≠ 12 := by rcases hft with h | h <;> rw [h] <;> decide
  have hquiet : Logged Quiet s s₁ := (openPath_handed (bootLayer_ok hrel part) heq).1
  have hs₁ : (openPath (bootLayer dev part) fuel path name s).2 = s₁ := by rw [heq]
  have hvolume : SameVolume s.fat s₁.fat :=
    hs₁ ▸ (SameVolume.stable (bootLayer dev part) s.fat).openPath fuel path name (.refl _)
  have hreach : Reachable (bootLayer dev part) s₁ := hs₁ ▸ hr.call fuel (.openPath path name)
  have hfile : IsFile dev part s.fat entry chain := hraw.isFile hft
  obtain ⟨hready, hstart⟩ := hhanded.ready hvolume (hreach.coherent hrel) hfile
  obtain ⟨-, hone, -⟩ : Named s₁ ∧ OneMore s i s₁ ∧ _ := openPath_balanced hr.named heq
  have hrounds : entry.size.toNat - (s₁.fat.openedFiles i).pub.position.toNat + 100 ≤ 100 * fuel := by
    rw [hstart, show (0 : UInt32).toNat = 0 from rfl]
    omega
  have hloop := dumpLoop_shows hrel hpos h12 hfile fuel s₁ hready hone hrounds
  rw [hstart, show (0 : UInt32).toNat = 0 from rfl, restOf, Nat.sub_zero, ← fileContent_eq hpos hfile] at hloop
  intro r
  rcases hdump : dumpLoop (bootLayer dev part) (some (.slot i)) fuel s₁ with ⟨res, t⟩
  rw [hdump] at hloop
  obtain ⟨rfl, hready', honeEnd, hshow⟩ := hloop
  have hderef : (t.note (.printf "\n")).fat.deref (some (.slot i)) = .ok (.slot i) := hready'.deref
  have hfinal : r = (.ok (), (t.note (.printf "\n")).setFd (.slot i)
      { t.fat.openedFiles i with opened := false }) := by
    simp only [r, readFile, heq, hdump, close_slot hderef]
    rfl
  have hclosed : OneMore s i (t.note (.printf "\n")) :=
    ⟨honeEnd.closed, honeEnd.opened, honeEnd.flags, honeEnd.frame⟩
  rw [hfinal]
  refine ⟨rfl, hclosed.close, ?_⟩
  have hnewline : Shows t (t.note (.printf "\n")) [10] := .note (.printf "\n") t
  exact ((Shows.of_quiet hquiet).trans (hshow.trans hnewline)).of_log rfl

/-- **`FAT_ReadFile` shows the file.** On a disk whose reads succeed, for a path that opens: the slot was handed
out for an entry, and where that is a file with a chain on the disk, all that is printed is the file, a carriage
return before every newline, and a newline at the end. The slots are as before. -/
theorem readFile_shows (dev : Device) (part : Partition) (s : St) (hr : Reachable (bootLayer dev part) s)
    (hrel : dev.Reliable) (hft : s.fat.fatType = 16 ∨ s.fat.fatType = 32) {fuel : ℕ} {path : List UInt8}
    {name : NameBuffer} {i : Fin 10}
    (hopen : (openPath (bootLayer dev part) fuel path name s).1 = .ok (some (.slot i))) :
    (∃ entry, HandedOut dev part entry i (openPath (bootLayer dev part) fuel path name s).2) ∧
      ∀ entry chain, HandedOut dev part entry i (openPath (bootLayer dev part) fuel path name s).2 →
        IsRawFile dev part s.fat entry chain → entry.size.toNat + 100 ≤ 100 * fuel →
        let r := readFile (bootLayer dev part) fuel path name s
        r.1 = .ok () ∧ SameSlots s r.2 ∧
          Shows s r.2 (crlf (fileContent dev part s.fat entry chain) ++ [10]) := by
  set s₁ := (openPath (bootLayer dev part) fuel path name s).2 with hs₁
  have heq : openPath (bootLayer dev part) fuel path name s = (.ok (some (.slot i)), s₁) := Prod.ext hopen rfl
  refine ⟨?_, fun entry chain hhanded hraw hfuel => readFile_handed hr hrel hft heq hhanded hraw hfuel⟩
  obtain ⟨-, entry, u, hlast⟩ := openPath_handed (bootLayer_ok hrel part) heq
  have hvolume := (SameVolume.stable (bootLayer dev part) u.fat).openEntry entry (.refl _)
  rw [hlast] at hvolume
  exact ⟨entry, u, s₁, hlast, hvolume.symm, rfl⟩

lemma FileData.eq_of_fields {d d' : FileData} (hbuffer : d.buffer = d'.buffer)
    (hpub : d.pub.handle = d'.pub.handle ∧ d.pub.isDirectory = d'.pub.isDirectory ∧
      d.pub.position = d'.pub.position ∧ d.pub.size = d'.pub.size)
    (hrest : d.opened = d'.opened ∧ d.firstCluster = d'.firstCluster ∧ d.currentCluster = d'.currentCluster ∧
      d.currentSectorInCluster = d'.currentSectorInCluster) : d = d' := by
  obtain ⟨buffer, ⟨handle, isDirectory, position, size⟩, opened, first, current, sector⟩ := d
  obtain ⟨buffer', ⟨handle', isDirectory', position', size'⟩, opened', first', current', sector'⟩ := d'
  simp_all

/-- The file `B` of the small volume. -/
theorem readFile_shows_small :
    Shows (mounted smallLayer) (readFile smallLayer 20 [66] blankName (mounted smallLayer)).2
      (crlf (fileContent (.ofDisk smallDisk) (hardDiskPartition 0) (mounted smallLayer).fat entryB [2, 3]) ++
        [10]) := by
  have hvolume : SameVolume (openPath smallLayer 20 [66] blankName (mounted smallLayer)).2.fat
      (mounted smallLayer).fat :=
    ((SameVolume.stable smallLayer _).openPath 20 [66] blankName (.refl _)).symm
  have hhanded : HandedOut (.ofDisk smallDisk) (hardDiskPartition 0) entryB 0
      (openPath smallLayer 20 [66] blankName (mounted smallLayer)).2 :=
    ⟨mounted smallLayer, openedB, openEntry_entryB, hvolume, FileData.eq_of_fields (funext (by decide +kernel))
      ⟨by decide +kernel, by decide +kernel, by decide +kernel, by decide +kernel⟩
      ⟨by decide +kernel, by decide +kernel, by decide +kernel, by decide +kernel⟩⟩
  have hraw : IsRawFile (.ofDisk smallDisk) (hardDiskPartition 0) (mounted smallLayer).fat entryB [2, 3] := by
    refine ⟨by decide +kernel, fun c hc => by cases hc; decide +kernel, fun i hi => ?_,
      ⟨by simp, fun _ => by simp⟩, fun i hi => ?_, by decide +kernel⟩
    all_goals
      obtain rfl : i = 0 := by
        simp at hi
        omega
      decide +kernel
  have hopen : (openPath smallLayer 20 [66] blankName (mounted smallLayer)).1 = .ok (some (.slot 0)) := by
    decide +kernel
  exact ((readFile_shows (.ofDisk smallDisk) (hardDiskPartition 0) (mounted smallLayer)
    (mounted_reachable smallLayer_mounts) (fun _ _ => rfl) (by decide +kernel) hopen).2 entryB [2, 3] hhanded hraw
      (by decide +kernel)).2.2

end ArcOS.Fat
