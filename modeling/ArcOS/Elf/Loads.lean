import ArcOS.Elf.Overrun
import ArcOS.Fat.Resolve

/-!
`ELF_Read` on a volume whose tree has the file.

What is known of a run of the loader asks that its calls of `FAT_Open` bring the file. Where the lookups of a path
last, on a FAT16 volume whose disk reads succeed, they do: such a run returns `true` for every well-formed file that
has all of its segments in it (`HasFile.loads`).
-/

namespace ArcOS.Elf

open Lib Lib.Memory Fat

/-- A FAT16 volume whose reads succeed, and whose tree has a file at a path however often it is looked up. -/
structure HasFile (dev : Device) (part : Partition) (f : FatData) (held : Set ℕ) (path : List UInt8)
    (entry : DirectoryEntry) (chain : List UInt32) : Prop where
  reliable : dev.Reliable
  fatType : f.fatType = 16
  plain : PlainPath path
  lasts : Lasts dev part f held path entry
  isFile : IsFile dev part f entry chain

/-- A well-formed file of `size` bytes that has its header, its table and all of its segments in it. -/
structure Whole (file : ℕ → UInt8) (size : ℕ) : Prop where
  wellFormed : WellFormed file
  header : headerSize.toNat ≤ size
  table : TableInside file size
  segments : ∀ j < headerCount file, ¬ EndsBehind size (programHeader file j)

lemma Whole.inside {file : ℕ → UInt8} {size : ℕ} (h : Whole file size) : ∀ j < headerCount file,
    ELFProgramHeader.type (programHeader file j) = programTypeLoad →
      (ELFProgramHeader.offset (programHeader file j)).toNat +
        (ELFProgramHeader.fileSize (programHeader file j)).toNat ≤ size :=
  fun j hj ht => not_lt.mp fun hlt => h.segments j hj ⟨ht, hlt⟩

/-- The FAT layer is in a state with `P`, and the events so far are those of a run that finds its file. -/
structure Loader.OnFile (dev : Device) (part : Partition) (entry : DirectoryEntry) (P : St → Prop) (s : Loader) :
    Prop where
  state : P s.fat
  log : ∀ e ∈ s.log, e.OnFile dev part entry

/-- What a part of a run leaves: such events, and where the run goes on, a state with `P`. -/
structure GoesOn (dev : Device) (part : Partition) (entry : DirectoryEntry) (P : St → Prop)
    (r : Except Stop Bool × Loader) : Prop where
  state : r.1 = .ok true → P r.2.fat
  log : ∀ e ∈ r.2.log, e.OnFile dev part entry

variable {dev : Device} {part : Partition} {overlay : Overlay} {f : FatData} {held : Set ℕ} {path : List UInt8}
  {entry : DirectoryEntry} {chain : List UInt32} {i : Fin 10} {k fuel : ℕ} {ph va : UInt32} {s s' t : Loader}
  {P Q : St → Prop} {r : Except Stop Bool × Loader} {name : NameBuffer} {names : ℕ → NameBuffer}

lemma Loader.OnFile.goesOn (h : s.OnFile dev part entry P) (res : Except Stop Bool) :
    GoesOn dev part entry P (res, s) := ⟨fun _ => h.state, h.log⟩

lemma GoesOn.onFile (h : GoesOn dev part entry P (.ok true, s)) : s.OnFile dev part entry P :=
  ⟨h.state rfl, h.log⟩

/-- A run that gives up leaves whatever state. -/
lemma GoesOn.ended (h : GoesOn dev part entry P r) (hr : ∀ t, r ≠ (.ok true, t)) : GoesOn dev part entry Q r :=
  ⟨fun htrue => (hr r.2 (Prod.ext htrue rfl)).elim, h.log⟩

lemma Loader.OnFile.sound (hrel : dev.Reliable) (h : s.OnFile dev part entry P) :
    ∀ e ∈ s.log, Sound dev part entry e := fun e he => (h.log e he).sound hrel

lemma GoesOn.sound (hrel : dev.Reliable) (h : GoesOn dev part entry P r) :
    ∀ e ∈ r.2.log, Sound dev part entry e := fun e he => (h.log e he).sound hrel

/-! ### Reading from the file -/

section Reads

variable (hft : f.fatType = 16)
include hft

lemma Loader.OnFile.fatRead (h : s.OnFile dev part entry (InUse dev part f held i)) (n dataOut : UInt32) :
    (fatRead dev part (some (.slot i)) n dataOut s).2.OnFile dev part entry (InUse dev part f held i) := by
  have hread : (LoadEvent.read (some (.slot i)) n dataOut s.fat).OnFile dev part entry := by
    change s.fat.fat.fatType ≠ 12
    rw [h.state.volume.fatType, hft]
    decide
  refine ⟨?_, ?_⟩
  · have huse := h.state.read n
    unfold Elf.fatRead
    dsimp only
    split <;> exact huse
  · rw [fatRead_log]
    exact List.forall_mem_cons.mpr ⟨hread, h.log⟩

lemma Loader.OnFile.readAll (h : s.OnFile dev part entry (InUse dev part f held i)) (n dataOut : UInt32)
    (text : String) :
    GoesOn dev part entry (InUse dev part f held i) (readAll dev part (some (.slot i)) n dataOut text s) := by
  have hread := h.fatRead hft n dataOut
  unfold Elf.readAll
  split
  · next heq =>
    rw [heq] at hread
    exact hread.goesOn _
  · next heq =>
    rw [heq] at hread
    split
    · exact hread.goesOn _
    · exact ⟨fun hfalse => absurd hfalse (by simp), hread.log⟩

lemma Loader.OnFile.seekLoop (ph : UInt32) : ∀ (rounds : ℕ) {s : Loader},
    s.OnFile dev part entry (InUse dev part f held i) →
    GoesOn dev part entry (InUse dev part f held i) (seekLoop dev part (some (.slot i)) ph rounds s) := by
  intro rounds
  induction rounds with
  | zero => exact fun h => h.goesOn _
  | succ rounds ih =>
    intro s h
    have hread := h.readAll hft (shouldRead (ELFProgramHeader.offset (s.header ph))) loadBuffer "ELF Load error\n"
    rw [Elf.seekLoop]
    split
    · split
      · next t heq =>
        rw [heq] at hread
        exact ih ⟨hread.onFile.state, hread.onFile.log⟩
      · exact hread
    · exact h.goesOn _

/-- **The copy**, as long as the segment is apart from its header and the data of the FAT layer. -/
theorem Loader.OnFile.loadLoop (overlay : Overlay) (hrel : dev.Reliable) (hspc : 0 < f.sectorsPerCluster.toNat)
    (hfile : IsFile dev part f entry chain)
    (hph : ∀ a, offset ph a < 32 → 0x10000 ≤ offset loadBuffer a) :
    ∀ (rounds : ℕ) (va : UInt32) (k : ℕ) {s : Loader}, s.OnFile dev part entry (InUse dev part f held i) →
      At dev part f entry chain i k s.fat →
      (∀ a, offset va a < (ELFProgramHeader.fileSize (s.header ph)).toNat →
        32 ≤ offset ph a ∧ 0x10000 ≤ offset fatData a) →
      GoesOn dev part entry (InUse dev part f held i)
        (loadLoop dev part overlay (some (.slot i)) ph rounds va s) := by
  intro rounds
  induction rounds with
  | zero => exact fun _ _ _ h _ _ => h.goesOn _
  | succ rounds ih =>
    intro va k s h hat hva
    by_cases h0 : 0 < ELFProgramHeader.fileSize (s.header ph)
    · generalize hn : ELFProgramHeader.fileSize (s.header ph) = n at *
      have hread := h.readAll hft (shouldRead n) loadBuffer "ELF Load error\n"
      rw [loadLoop_round hn h0]
      split
      · next t heq =>
        rw [heq] at hread
        obtain ⟨hfat, hat', hfield, hva', -⟩ :=
          copied_at overlay hrel hspc hfile hph hat hn hva heq (hread.sound hrel)
        refine ih _ (k + (shouldRead n).toNat) ⟨by rw [hfat]; exact hread.onFile.state, ?_⟩
          (by rw [hfat]; exact hat') (by rw [hfield]; exact hva')
        exact List.forall_mem_cons.mpr ⟨trivial, hread.log⟩
      · exact hread
    · rw [loadLoop_done h0]
      exact h.goesOn _

end Reads

/-! ### The segments -/

lemma segmentApart_of_fits {b : ℕ → UInt8} (hfits : Fits b) : SegmentApart b := by
  intro ht a ha
  have hsize := hfits.size ht
  rw [UInt32.le_iff_toNat_le] at hsize
  rw [max_eq_right hsize] at ha
  exact ⟨hfits.header a ⟨ht, ha⟩, hfits.fat a ⟨ht, ha⟩⟩

section Segments

variable (hv : HasFile dev part f held path entry chain) (hfuel : recordBound f ≤ fuel)
include hv

lemma HasFile.serving (h : Rests dev part f held s.fat) : Serving dev part f s := by
  obtain ⟨m, -, hrest⟩ := h
  exact ⟨hrest.volume, hrest.reachable.coherent hv.reliable⟩

include hfuel

/-- **The file is opened**, at its start. -/
theorem HasFile.fatOpen (h : s.OnFile dev part entry (Rests dev part f held)) (name : NameBuffer) :
    ∃ i t, fatOpen dev part fuel path name s = (.ok (some (.slot i)), t) ∧
      t.OnFile dev part entry (InUse dev part f held i) ∧ At dev part f entry chain i 0 t.fat ∧
      t.mem = s.mem ∧ t.entryPoint = s.entryPoint := by
  obtain ⟨i, u, hopen, hout, huse⟩ := h.state.opens hv.reliable (.inr hv.fatType) hv.plain hv.lasts hfuel name
  obtain ⟨t, ht⟩ : ∃ t : Loader, t = { s with fat := u, log := .opened (.ok (some (.slot i))) u :: s.log } := ⟨_, rfl⟩
  have heq : Elf.fatOpen dev part fuel path name s = (.ok (some (.slot i)), t) := by
    rw [Elf.fatOpen, show Boot.fatOpen dev part fuel path name s.fat = _ from hopen, ht]
  have hon : t.OnFile dev part entry (InUse dev part f held i) := by
    rw [ht]
    exact ⟨huse, List.forall_mem_cons.mpr ⟨⟨i, rfl, hout⟩, h.log⟩⟩
  obtain ⟨j, hj, hat, hmem, hentry⟩ :=
    fatOpen_at hv.reliable hv.isFile (hv.serving h.state) heq (hon.sound hv.reliable)
  cases hj
  exact ⟨i, t, heq, hon, hat, hmem, hentry⟩

/-- A segment that is opened anew, apart from its header and the data of the FAT layer. -/
theorem HasFile.loadFile (hph : ∀ a, offset ph a < 32 → 0x10000 ≤ offset loadBuffer a)
    (h : s.OnFile dev part entry (Rests dev part f held))
    (hva : ∀ a, offset va a < (ELFProgramHeader.fileSize (s.header ph)).toNat →
      32 ≤ offset ph a ∧ 0x10000 ≤ offset fatData a) (name : NameBuffer) :
    GoesOn dev part entry (Rests dev part f held) (loadFile dev part overlay fuel path name ph va s) := by
  have hspc := h.state.sectorsPerCluster
  obtain ⟨i, t, hopen, hon, hat, hmem, -⟩ := hv.fatOpen hfuel h name
  have hseek := hon.seekLoop hv.fatType ph fuel
  rw [Elf.loadFile, hopen]
  dsimp only
  split
  · next u heq =>
    rw [heq] at hseek
    obtain ⟨-, hat', -, hframe⟩ :=
      seekLoop_at hv.reliable hspc hv.isFile hph _ 0 t hat heq (hseek.sound hv.reliable)
    have hfield : ELFProgramHeader.fileSize (u.header ph) = ELFProgramHeader.fileSize (s.header ph) := by
      rw [show s.header ph = t.header ph by rw [Loader.header, Loader.header, hmem]]
      apply word32_congr
      intro j hj
      have hoff := offset_add ph (k := 16 + j) (by omega)
      exact hframe _ (hph _ (by omega)) (.inr (by omega))
    have hload := hseek.onFile.loadLoop hv.fatType overlay hv.reliable hspc hv.isFile hph fuel va _ hat'
      (by rw [hfield]; exact hva)
    split
    · next v heq =>
      rw [heq] at hload
      exact ⟨fun _ => hload.onFile.state.close.2, hload.log⟩
    · next hne => exact hload.ended hne
  · next hne => exact hseek.ended hne

variable (hrounds : 0x10000 ≤ fuel)
include hrounds

/-- **One program header** whose segment is in the file. -/
theorem HasFile.loadSegment (overlay : Overlay) (h : s.OnFile dev part entry (Rests dev part f held)) {p : ℕ}
    (hp : p + 32 ≤ 0x10000) (hph : ph = headerBuffer + UInt32.ofNat p) {b : ℕ → UInt8}
    (hb : ∀ j < 32, s.header ph j = b j) (hfits : Fits b) (hin : ¬ EndsBehind entry.size.toNat b) (name : NameBuffer) :
    ∃ u, loadSegment dev part overlay fuel path name ph s = (.ok true, u) ∧
      u.OnFile dev part entry (Rests dev part f held) := by
  have hbuffer : ∀ a, offset ph a < 32 → offset headerBuffer a < 0x10000 := fun a ha => by
    have hs := offset_shift headerBuffer a (k := p) (by omega)
    have hlt := offset_lt headerBuffer a
    rw [← hph] at hs
    split at hs <;> omega
  have hgoes : GoesOn dev part entry (Rests dev part f held)
      (Elf.loadSegment dev part overlay fuel path name ph s) := by
    by_cases ht : ELFProgramHeader.type b = programTypeLoad
    · obtain ⟨hkept, hb', -⟩ := hfits.cleared hb hbuffer ht overlay
      have hsize : ELFProgramHeader.fileSize ((s.cleared overlay b).header ph) = ELFProgramHeader.fileSize b :=
        header_field hb' (by omega)
      have hfile := hfits.size ht
      rw [UInt32.le_iff_toNat_le] at hfile
      rw [loadSegment_load hb ht]
      refine hv.loadFile hfuel (fun a ha => buffers_apart (hbuffer a ha)) ⟨by rw [hkept]; exact h.state, ?_⟩
        (fun a ha => (hfits.apart hbuffer ht ?_).2) name
      · exact List.forall_mem_cons.mpr ⟨trivial, h.log⟩
      · rw [hsize] at ha
        exact ha.trans_le hfile
    · have htype : ELFProgramHeader.type (s.header ph) = ELFProgramHeader.type b := header_field hb (by omega)
      rw [loadSegment_other (htype ▸ ht)]
      exact h.goesOn _
  obtain ⟨u, hrun, -⟩ := loadSegment_follow hv.reliable h.state.sectorsPerCluster hv.isFile (hv.serving h.state) hp
    hph hrounds (hgoes.sound hv.reliable) (resolved_of_onFile hgoes.log)
    ((segmentApart_congr hb).mpr (segmentApart_of_fits hfits))
  have hnot : ¬ EndsBehind entry.size.toNat (s.header ph) := fun hend => hin ((endsBehind_congr hb).mp hend)
  rw [decide_eq_true hnot] at hrun
  rw [hrun] at hgoes
  exact ⟨u, hrun, hgoes.onFile⟩

/-- **All program headers**: each is as the file has it when the loop comes to it. -/
theorem HasFile.loadSegments (table : ℕ → ℕ → UInt8) {entrySize : UInt32} (hentry : 32 ≤ entrySize.toNat) :
    ∀ (left i : ℕ) {s : Loader}, s.OnFile dev part entry (Rests dev part f held) →
      (i + left) * entrySize.toNat ≤ 0x10000 →
      (∀ j, i ≤ j → j < i + left → Fits (table j) ∧ ¬ EndsBehind entry.size.toNat (table j) ∧
        ∀ t < 32, s.mem.view (headerBuffer + UInt32.ofNat j * entrySize) t = table j t) →
      ∃ u, loadSegments dev part overlay fuel path names entrySize left i s = (.ok true, u) ∧
        u.OnFile dev part entry (Rests dev part f held) := by
  intro left
  induction left with
  | zero => exact fun i s h _ _ => ⟨s, rfl, h⟩
  | succ left ih =>
    intro i s h hbound htable
    have hnext : (i + 1) * entrySize.toNat ≤ 0x10000 := (Nat.mul_le_mul_right _ (by omega)).trans hbound
    have hmul : (i + 1) * entrySize.toNat = i * entrySize.toNat + entrySize.toNat := Nat.succ_mul _ _
    have hph : headerBuffer + UInt32.ofNat i * entrySize =
        headerBuffer + UInt32.ofNat (i * entrySize.toNat) := by
      rw [UInt32.ofNat_mul, UInt32.ofNat_toNat]
    obtain ⟨hfits, hin, hbytes⟩ := htable i le_rfl (by omega)
    obtain ⟨u, hrun, hu⟩ := hv.loadSegment hfuel hrounds overlay h (by omega) hph hbytes hfits hin
      (names (i + 1))
    obtain ⟨-, -, -, hframe⟩ := loadSegment_at hv.reliable h.state.sectorsPerCluster hv.isFile
      (hv.serving h.state) (fun a => (headerAddress hnext hentry a).1) hbytes hfits hrun (hu.sound hv.reliable)
    obtain ⟨v, hrest, hgoes⟩ := ih (i + 1) hu (by rwa [show i + 1 + left = i + (left + 1) by omega])
      fun j hj hj' => by
        obtain ⟨hfits', hin', hbytes'⟩ := htable j (by omega) (by omega)
        have hbound' : (j + 1) * entrySize.toNat ≤ 0x10000 := (Nat.mul_le_mul_right _ (by omega)).trans hbound
        exact ⟨hfits', hin', fun t ht =>
          (laterHeader_stays hframe hfits hentry hj hbound' ht).trans (hbytes' t ht)⟩
    refine ⟨v, ?_, hgoes⟩
    rw [Elf.loadSegments, hrun]
    exact hrest

/-- **What follows the ELF header**, where the table and all segments are in the file. -/
theorem HasFile.loadImage {file : ℕ → UInt8} (hbytes : fileByte dev part f entry chain = file)
    (hwhole : Whole file entry.size.toNat) (h : s.OnFile dev part entry (InUse dev part f held i))
    (hat : At dev part f entry chain i headerSize.toNat s.fat) :
    ∃ u, loadImage dev part overlay fuel path names (some (.slot i)) (ELFHeader.programHeaderTablePosition file)
        (ELFHeader.programHeaderTableEntrySize file) (ELFHeader.programHeaderTableEntryCount file) s =
        (.ok true, u) ∧ u.OnFile dev part entry (Rests dev part f held) := by
  have hspc : 0 < f.sectorsPerCluster.toNat := by
    rw [← h.state.volume.sectorsPerCluster]
    exact h.state.reachable.sectorsPerCluster
  have hskipped := h.fatRead hv.fatType (ELFHeader.programHeaderTablePosition file - headerSize) headerBuffer
  obtain ⟨gap, hgap, hcount, -, -, hat'⟩ := fatRead_at hv.reliable hspc hv.isFile hat
    (ELFHeader.programHeaderTablePosition file - headerSize) headerBuffer (hskipped.sound hv.reliable)
  generalize hskip : Elf.fatRead dev part (some (.slot i)) (ELFHeader.programHeaderTablePosition file - headerSize)
    headerBuffer s = skip at *
  obtain ⟨res, t⟩ := skip
  cases hgap
  have hread := hskipped.readAll hv.fatType (ELFHeader.programHeaderTableEntrySize file *
    ELFHeader.programHeaderTableEntryCount file) headerBuffer "ELF Load error\n"
  obtain ⟨u, htable, -⟩ := readAll_result hv.reliable hspc hv.isFile hat' _ headerBuffer _ (hread.sound hv.reliable)
  have hroom : (ELFHeader.programHeaderTableEntrySize file * ELFHeader.programHeaderTableEntryCount file).toNat ≤
      entry.size.toNat - (headerSize.toNat + gap.toNat) := by
    have hin := hat.inside
    have hinside := hwhole.table
    unfold TableInside tableStart at hinside
    omega
  rw [decide_eq_true hroom] at htable
  rw [htable] at hread
  obtain ⟨-, -, hmem⟩ := loadTable_at hv.reliable hspc hv.isFile hbytes hwhole.wellFormed hat hskip htable
    (hread.sound hv.reliable)
  obtain ⟨hclosed, hrests⟩ := hread.onFile.state.close
  rw [Elf.loadImage, hskip]
  dsimp only
  rw [htable]
  dsimp only
  unfold fatClose
  dsimp only
  rw [hclosed]
  dsimp only
  have hon : ({ u with fat := (close (some (.slot i)) u.fat).2 } : Loader).OnFile dev part entry
      (Rests dev part f held) := ⟨hrests, hread.log⟩
  rcases Nat.eq_zero_or_pos (headerCount file) with h0 | h0
  · rw [show (ELFHeader.programHeaderTableEntryCount file).toNat = 0 from h0, Elf.loadSegments]
    exact ⟨_, rfl, hon⟩
  · refine hv.loadSegments hfuel hrounds (programHeader file) (hwhole.wellFormed.entrySize h0) _ 0 hon ?_
      fun j _ hj => ?_
    · rw [Nat.zero_add]
      exact hwhole.wellFormed.table
    · rw [Nat.zero_add] at hj
      exact ⟨hwhole.wellFormed.fits j hj, hwhole.segments j hj, hwhole.wellFormed.headers (hmem h0) hj⟩

/-- **`ELF_Read` returns `true`** for a well-formed file that has its table and all of its segments in it, and
leaves the FAT layer ready for the next lookup. -/
theorem HasFile.elfRead (overlay : Overlay) (names : ℕ → NameBuffer) {file : ℕ → UInt8}
    (hbytes : fileByte dev part f entry chain = file)
    (hwhole : Whole file entry.size.toNat) (h : s.OnFile dev part entry (Rests dev part f held)) :
    ∃ u, elfRead dev part overlay fuel path names s = (.ok true, u) ∧
      u.OnFile dev part entry (Rests dev part f held) := by
  have hspc := h.state.sectorsPerCluster
  obtain ⟨i, t, hopen, hon, hat, -⟩ := hv.fatOpen hfuel h (names 0)
  have hread := hon.readAll hv.fatType headerSize headerBuffer "ELF Load error!\n"
  obtain ⟨u, hheader, -, hmem, hat'⟩ :=
    readAll_result hv.reliable hspc hv.isFile hat headerSize headerBuffer _ (hread.sound hv.reliable)
  rw [Nat.sub_zero] at hheader hmem hat'
  rw [decide_eq_true hwhole.header] at hheader
  rw [min_eq_left hwhole.header, hbytes] at hmem
  rw [hheader] at hread
  obtain ⟨hposition, hentry, hcount, -⟩ := header_fields hmem
  rw [Elf.elfRead, hopen]
  dsimp only
  rw [hheader]
  dsimp only
  rw [hposition, hentry, hcount]
  exact hv.loadImage hfuel hrounds hbytes hwhole ⟨hread.onFile.state, hread.log⟩ (by simpa using hat' hwhole.header)

/-- **`ELF_Read` loads such a file**: it returns `true`, what is in the ranges of the segments is what the program
headers make of it, and the FAT layer is ready for the next lookup. -/
theorem HasFile.loads (overlay : Overlay) (names : ℕ → NameBuffer) {file : ℕ → UInt8}
    (hbytes : fileByte dev part f entry chain = file)
    (hwhole : Whole file entry.size.toNat) {u : St} (h : Rests dev part f held u) (m : Memory) (entryPoint : UInt32) :
    ∃ s', Elf.elfRead dev part overlay fuel path names ⟨u, m, entryPoint, []⟩ = (.ok true, s') ∧
      Rests dev part f held s'.fat ∧ s'.entryPoint = ELFHeader.programEntryPosition file ∧
      ∀ j < headerCount file, ∀ a, Covers (programHeader file j) a →
        s'.mem a = loadedByte file (programHeader file j) (skipped file m) a := by
  have hstart : Loader.OnFile dev part entry (Rests dev part f held) ⟨u, m, entryPoint, []⟩ := ⟨h, by simp⟩
  obtain ⟨s', hrun, hon⟩ := hv.elfRead hfuel hrounds overlay names hbytes hwhole hstart
  obtain ⟨-, hpoint, hmem⟩ := elfRead_at hv.reliable h.sectorsPerCluster hv.isFile (hv.serving h) hbytes
    hwhole.wellFormed hrun (hon.sound hv.reliable)
  exact ⟨s', hrun, hon.state, hpoint, hmem⟩

end Segments

end ArcOS.Elf
