import ArcOS.Elf.Segments

/-!
What `ELF_Read` loads.

`elfRead_faithful_iff` says when a run that returns `true` has loaded every segment: exactly when the bytes it
leaves alone, those of the full chunks of 64 KiB and those behind the reach of `memset`, are right before it runs.
-/

namespace ArcOS.Elf

open Lib Lib.Memory Fat

/-! ### Well-formed files and loaded segments -/

section Format

variable (file : ℕ → UInt8)

/-- The number of program headers. -/
def headerCount : ℕ := (ELFHeader.programHeaderTableEntryCount file).toNat

/-- The bytes of program header `j` in the file. -/
def programHeader (j : ℕ) : ℕ → UInt8 := fun t =>
  file ((ELFHeader.programHeaderTablePosition file).toNat +
    j * (ELFHeader.programHeaderTableEntrySize file).toNat + t)

/-- What of a well-formed file matters to the loader: the table is behind the header and fits the header
buffer, and the ranges of the segments fit and are apart. -/
structure WellFormed : Prop where
  behind : headerSize ≤ ELFHeader.programHeaderTablePosition file
  entrySize : 0 < headerCount file → 32 ≤ (ELFHeader.programHeaderTableEntrySize file).toNat
  table : headerCount file * (ELFHeader.programHeaderTableEntrySize file).toNat ≤ 0x10000
  fits : ∀ j < headerCount file, Fits (programHeader file j)
  apart : ∀ j < headerCount file, ∀ k < headerCount file, j ≠ k →
    ∀ a, Covers (programHeader file j) a → ¬ Covers (programHeader file k) a

/-- The address of byte `i` of a segment. -/
def segmentAddress (b : ℕ → UInt8) (i : ℕ) : UInt32 := ELFProgramHeader.virtualAddress b + UInt32.ofNat i

/-- Every segment of a file of `size` bytes is in memory, and the entry point is known. -/
structure Faithful (size : ℕ) (s : Loader) : Prop where
  inside : ∀ j < headerCount file, ELFProgramHeader.type (programHeader file j) = programTypeLoad →
    (ELFProgramHeader.offset (programHeader file j)).toNat +
      (ELFProgramHeader.fileSize (programHeader file j)).toNat ≤ size
  bytes : ∀ j < headerCount file, ELFProgramHeader.type (programHeader file j) = programTypeLoad →
    ∀ i < (ELFProgramHeader.fileSize (programHeader file j)).toNat,
      s.mem (segmentAddress (programHeader file j) i) =
        file ((ELFProgramHeader.offset (programHeader file j)).toNat + i)
  zeros : ∀ j < headerCount file, ELFProgramHeader.type (programHeader file j) = programTypeLoad →
    ∀ i < (ELFProgramHeader.memorySize (programHeader file j)).toNat,
      (ELFProgramHeader.fileSize (programHeader file j)).toNat ≤ i →
        s.mem (segmentAddress (programHeader file j) i) = 0
  entryPoint : s.entryPoint = ELFHeader.programEntryPosition file

/-- The bytes that the loader leaves alone are right: the full chunks of the segments, where `memset` has
not cleared them, and what is behind the file part and behind the reach of `memset`. -/
structure RightBefore (m : Memory) : Prop where
  chunks : ∀ j < headerCount file, ELFProgramHeader.type (programHeader file j) = programTypeLoad →
    ∀ i < 0x10000 * ((ELFProgramHeader.fileSize (programHeader file j)).toNat / 0x10000),
      (if i < (ELFProgramHeader.memorySize (programHeader file j)).toNat % 0x10000 then 0
        else m (segmentAddress (programHeader file j) i)) =
        file ((ELFProgramHeader.offset (programHeader file j)).toNat + i)
  zeros : ∀ j < headerCount file, ELFProgramHeader.type (programHeader file j) = programTypeLoad →
    ∀ i < (ELFProgramHeader.memorySize (programHeader file j)).toNat,
      (ELFProgramHeader.fileSize (programHeader file j)).toNat ≤ i →
      (ELFProgramHeader.memorySize (programHeader file j)).toNat % 0x10000 ≤ i →
        m (segmentAddress (programHeader file j) i) = 0

/-- The memory with what the loader skips to reach the program headers. -/
def skipped (m : Memory) : Memory :=
  m.store headerBuffer (stretch file headerSize.toNat
    (ELFHeader.programHeaderTablePosition file - headerSize).toNat)

end Format

/-! ### A run -/

variable {dev : Device} {part : Partition} {overlay : Overlay} {f : FatData} {entry : DirectoryEntry}
  {chain : List UInt32} {i : Fin 10} {k : ℕ} {s s' : Loader}

lemma loadedByte_congr {file b : ℕ → UInt8} {m m' : Memory} {a : UInt32} (h : m a = m' a) :
    loadedByte file b m a = loadedByte file b m' a := by
  simp only [loadedByte, h]

lemma table_view {file : ℕ → UInt8} {m m' : Memory} {entrySize : UInt32} {n position j t : ℕ}
    (hm : m' = m.store headerBuffer (stretch file position n))
    (hle : j * entrySize.toNat + t < n) (hn : n ≤ 0x10000) :
    m'.view (headerBuffer + UInt32.ofNat j * entrySize) t =
      file (position + j * entrySize.toNat + t) := by
  have haddr : headerBuffer + UInt32.ofNat j * entrySize =
      headerBuffer + UInt32.ofNat (j * entrySize.toNat) := by
    rw [UInt32.ofNat_mul, UInt32.ofNat_toNat]
  rw [haddr, view_shift, hm, view_store _ _ _ (by rw [length_stretch]; exact hle) (by omega),
    List.getD_eq_getElem?_getD, getElem?_stretch, if_pos hle, Option.getD_some, Nat.add_assoc]

lemma WellFormed.tableSize {file : ℕ → UInt8} (h : WellFormed file) :
    (ELFHeader.programHeaderTableEntrySize file * ELFHeader.programHeaderTableEntryCount file).toNat =
      headerCount file * (ELFHeader.programHeaderTableEntrySize file).toNat := by
  have htab := h.table
  rw [UInt32.toNat_mul, Nat.mul_comm]
  exact Nat.mod_eq_of_lt (by unfold headerCount at htab; omega)

/-- The program headers lie in the header buffer, once the table is read. -/
lemma WellFormed.headers {file : ℕ → UInt8} {m m' : Memory} (h : WellFormed file)
    (hm : m' = m.store headerBuffer (stretch file (ELFHeader.programHeaderTablePosition file).toNat
      (headerCount file * (ELFHeader.programHeaderTableEntrySize file).toNat))) {j : ℕ} (hj : j < headerCount file) :
    ∀ t < 32, m'.view (headerBuffer + UInt32.ofNat j * ELFHeader.programHeaderTableEntrySize file) t =
      programHeader file j t := by
  intro t ht
  have hentry := h.entrySize (by omega)
  have hle : (j + 1) * (ELFHeader.programHeaderTableEntrySize file).toNat ≤
      headerCount file * (ELFHeader.programHeaderTableEntrySize file).toNat :=
    Nat.mul_le_mul_right _ hj
  have hmul : (j + 1) * (ELFHeader.programHeaderTableEntrySize file).toNat =
      j * (ELFHeader.programHeaderTableEntrySize file).toNat +
        (ELFHeader.programHeaderTableEntrySize file).toNat := Nat.succ_mul _ _
  exact table_view hm (by omega) h.table

/-- **The table is read**: the bytes before it are skipped, and it lies in the header buffer. -/
theorem loadTable_at (hrel : dev.Reliable) (hspc : 0 < f.sectorsPerCluster.toNat)
    (hfile : IsFile dev part f entry chain) {file : ℕ → UInt8}
    (hbytes : fileByte dev part f entry chain = file) (hwf : WellFormed file)
    (hat : At dev part f entry chain i headerSize.toNat s.fat) {gap : UInt32} {t : Loader} {text : String}
    (hskip : fatRead dev part (some (.slot i)) (ELFHeader.programHeaderTablePosition file - headerSize)
      headerBuffer s = (.ok gap, t))
    (htable : readAll dev part (some (.slot i)) (ELFHeader.programHeaderTableEntrySize file *
      ELFHeader.programHeaderTableEntryCount file) headerBuffer text t = (.ok true, s'))
    (hsound : ∀ e ∈ s'.log, Sound dev part entry e) :
    Extends dev part s s' ∧ s'.entryPoint = s.entryPoint ∧ (0 < headerCount file →
      s'.mem = (skipped file s.mem).store headerBuffer
        (stretch file (ELFHeader.programHeaderTablePosition file).toNat
          (headerCount file * (ELFHeader.programHeaderTableEntrySize file).toNat))) := by
  have ht := fatRead_extends dev part (some (.slot i))
    (ELFHeader.programHeaderTablePosition file - headerSize) headerBuffer s
  have hu := readAll_extends dev part (some (.slot i)) (ELFHeader.programHeaderTableEntrySize file *
    ELFHeader.programHeaderTableEntryCount file) headerBuffer text t
  have hread := fatRead_at hrel hspc hfile hat
    (ELFHeader.programHeaderTablePosition file - headerSize) headerBuffer
  rw [hskip] at ht hread
  rw [htable] at hu
  obtain ⟨gap', hgap, hcount, hmem, hpoint, hat'⟩ := hread fun e he => hsound e (hu.log.subset he)
  cases hgap
  obtain ⟨hroom, hmem', hpoint', -⟩ := readAll_at hrel hspc hfile hat' htable hsound
  refine ⟨ht.trans hu, hpoint'.trans hpoint, fun h0 => ?_⟩
  have hpos : 32 ≤ headerCount file * (ELFHeader.programHeaderTableEntrySize file).toNat :=
    (hwf.entrySize h0).trans (Nat.le_mul_of_pos_left _ h0)
  have hbehind := hwf.behind
  have hsub : (ELFHeader.programHeaderTablePosition file - headerSize).toNat =
      (ELFHeader.programHeaderTablePosition file).toNat - headerSize.toNat :=
    UInt32.toNat_sub_of_le _ _ hbehind
  rw [UInt32.le_iff_toNat_le] at hbehind
  rw [hwf.tableSize] at hroom hmem'
  -- bytes of the table are there, so all that lies before it was skipped
  have hgap : gap.toNat = (ELFHeader.programHeaderTablePosition file - headerSize).toNat := by omega
  rw [hmem', hmem, hbytes, skipped, hgap,
    show headerSize.toNat + (ELFHeader.programHeaderTablePosition file - headerSize).toNat =
      (ELFHeader.programHeaderTablePosition file).toNat by omega]

/-- What follows the ELF header, from behind it: outside the buffers the memory is what the program headers
make of it. -/
theorem loadImage_at (hrel : dev.Reliable) (hspc : 0 < f.sectorsPerCluster.toNat)
    (hfile : IsFile dev part f entry chain) (hs : Serving dev part f s) {file : ℕ → UInt8}
    (hbytes : fileByte dev part f entry chain = file) (hwf : WellFormed file)
    (hat : At dev part f entry chain i headerSize.toNat s.fat)
    {fuel : ℕ} {path : List UInt8} {names : ℕ → NameBuffer}
    (h : loadImage dev part overlay fuel path names (some (.slot i))
      (ELFHeader.programHeaderTablePosition file) (ELFHeader.programHeaderTableEntrySize file)
      (ELFHeader.programHeaderTableEntryCount file) s = (.ok true, s'))
    (hsound : ∀ e ∈ s'.log, Sound dev part entry e) :
    (∀ j < headerCount file, ELFProgramHeader.type (programHeader file j) = programTypeLoad →
      (ELFProgramHeader.offset (programHeader file j)).toNat +
        (ELFProgramHeader.fileSize (programHeader file j)).toNat ≤ entry.size.toNat) ∧
      s'.entryPoint = s.entryPoint ∧
      ∀ j < headerCount file, ∀ a, Covers (programHeader file j) a →
        s'.mem a = loadedByte file (programHeader file j) (skipped file s.mem) a := by
  unfold loadImage at h
  split at h
  · cases h
  next gap t hskip =>
  dsimp only at h
  split at h
  · next u htable =>
    rcases hclose : fatClose (some (.slot i)) u with ⟨e | _, v⟩
    · rw [hclose] at h
      cases h
    rw [hclose] at h
    dsimp only at h
    have hv := fatClose_extends dev part (some (.slot i)) u
    rw [hclose] at hv
    have hlog := loadSegments_log dev part overlay fuel path names
      (ELFHeader.programHeaderTableEntrySize file) (ELFHeader.programHeaderTableEntryCount file).toNat 0 v
    rw [h] at hlog
    obtain ⟨hu, hpoint, hmem⟩ := loadTable_at hrel hspc hfile hbytes hwf hat hskip htable fun e he =>
      hsound e ((hv.log.trans hlog).subset he)
    have hstate : (fatClose (some (.slot i)) u).2 = v := congrArg Prod.snd hclose
    have hmem' : v.mem = u.mem := by rw [← hstate]; rfl
    have hpoint' : v.entryPoint = s.entryPoint := by rw [← hpoint, ← hstate]; rfl
    rcases Nat.eq_zero_or_pos (headerCount file) with h0 | h0
    · rw [show (ELFHeader.programHeaderTableEntryCount file).toNat = 0 from h0, loadSegments] at h
      cases h
      rw [h0]
      exact ⟨fun j hj => absurd hj (by omega), hpoint', fun j hj => absurd hj (by omega)⟩
    have htab := hwf.table
    have hview : ∀ j, 0 ≤ j → j < 0 + headerCount file → Fits (programHeader file j) ∧
        ∀ t < 32, v.mem.view (headerBuffer + UInt32.ofNat j *
          ELFHeader.programHeaderTableEntrySize file) t = programHeader file j t := fun j _ hj =>
      ⟨hwf.fits j (by omega), hwf.headers (hmem'.trans (hmem h0)) (by omega)⟩
    obtain ⟨hroom, hpoint₁, hframe⟩ := loadSegments_at hrel hspc hfile (hwf.entrySize h0)
      (headerCount file) 0 v (hs.extends hrel (hu.trans hv)) (by rw [Nat.zero_add]; exact htab) hview h
      hsound
    rw [hbytes] at hframe
    refine ⟨fun j hj => hroom j (by omega) (by omega), hpoint₁.trans hpoint', fun j hj a hcov => ?_⟩
    have hfits := hwf.fits j hj
    rw [hframe a (hfits.header a hcov) (hfits.load a hcov), imageMemory_of_covers _ 0 (Nat.zero_le _)
      (by omega) hcov fun j' _ hj' => ⟨hwf.fits j' (by omega), fun hne hcov' =>
        hwf.apart j' (by omega) j hj hne a hcov' hcov⟩]
    apply loadedByte_congr
    rw [hmem', hmem h0]
    exact store_of_le (by rw [length_stretch]; exact htab.trans (hfits.header a hcov))
  · next hne => exact absurd h (hne _)

lemma skipped_congr {file : ℕ → UInt8} {m m' : Memory} {a : UInt32} (h : m a = m' a) :
    skipped file m a = skipped file m' a := by
  simp only [skipped, store, h]

lemma header_fields {file : ℕ → UInt8} {m m' : Memory}
    (hm : m' = m.store headerBuffer (stretch file 0 headerSize.toNat)) :
    ELFHeader.programHeaderTablePosition (m'.view headerBuffer) =
        ELFHeader.programHeaderTablePosition file ∧
      ELFHeader.programHeaderTableEntrySize (m'.view headerBuffer) =
        ELFHeader.programHeaderTableEntrySize file ∧
      ELFHeader.programHeaderTableEntryCount (m'.view headerBuffer) =
        ELFHeader.programHeaderTableEntryCount file ∧
      ELFHeader.programEntryPosition (m'.view headerBuffer) = ELFHeader.programEntryPosition file := by
  have hview : ∀ k < 52, m'.view headerBuffer k = file k := fun k hk => by
    have hlen : k < (stretch file 0 headerSize.toNat).length := by rw [length_stretch]; exact hk
    rw [hm, view_store _ _ _ hlen (by omega), List.getD_eq_getElem?_getD, getElem?_stretch,
      if_pos (by rwa [length_stretch] at hlen), Option.getD_some, Nat.zero_add]
  have hword : ∀ k, k + 4 ≤ 52 → word32 (m'.view headerBuffer) k = word32 file k :=
    fun k hk => word32_congr fun j hj => hview (k + j) (by omega)
  have hword' : ∀ k, k + 2 ≤ 52 → word16 (m'.view headerBuffer) k = word16 file k :=
    fun k hk => word16_congr fun j hj => hview (k + j) (by omega)
  exact ⟨hword 28 (by omega), congrArg UInt16.toUInt32 (hword' 42 (by omega)),
    congrArg UInt16.toUInt32 (hword' 44 (by omega)), hword 24 (by omega)⟩

/-- **A run that returns `true`** leaves in the ranges of the segments what the program headers make of them,
and the entry point of the header. -/
theorem elfRead_at (hrel : dev.Reliable) (hspc : 0 < f.sectorsPerCluster.toNat)
    (hfile : IsFile dev part f entry chain) (hs : Serving dev part f s) {file : ℕ → UInt8}
    (hbytes : fileByte dev part f entry chain = file) (hwf : WellFormed file)
    {fuel : ℕ} {path : List UInt8} {names : ℕ → NameBuffer}
    (h : elfRead dev part overlay fuel path names s = (.ok true, s'))
    (hsound : ∀ e ∈ s'.log, Sound dev part entry e) :
    (∀ j < headerCount file, ELFProgramHeader.type (programHeader file j) = programTypeLoad →
      (ELFProgramHeader.offset (programHeader file j)).toNat +
        (ELFProgramHeader.fileSize (programHeader file j)).toNat ≤ entry.size.toNat) ∧
      s'.entryPoint = ELFHeader.programEntryPosition file ∧
      ∀ j < headerCount file, ∀ a, Covers (programHeader file j) a →
        s'.mem a = loadedByte file (programHeader file j) (skipped file s.mem) a := by
  unfold elfRead at h
  rcases hopen : fatOpen dev part fuel path (names 0) s with ⟨e | fd, t⟩
  · rw [hopen] at h
    cases h
  have ht := fatOpen_extends dev part fuel path (names 0) s
  rw [hopen] at h ht
  dsimp only at h ht
  split at h
  · next u hread =>
    cases fd with
    | none => cases hread
    | some p =>
      have hu := readAll_extends dev part (some p) headerSize headerBuffer "ELF Load error!\n" t
      rw [hread] at hu
      have hlog := loadImage_log dev part overlay fuel path names (some p)
        (ELFHeader.programHeaderTablePosition (u.mem.view headerBuffer))
        (ELFHeader.programHeaderTableEntrySize (u.mem.view headerBuffer))
        (ELFHeader.programHeaderTableEntryCount (u.mem.view headerBuffer))
        { u with entryPoint := ELFHeader.programEntryPosition (u.mem.view headerBuffer) }
      rw [h] at hlog
      obtain ⟨i, rfl, hat, hmem, -⟩ := fatOpen_at hrel hfile hs hopen fun e he =>
        hsound e ((hu.log.trans hlog).subset he)
      obtain ⟨-, hmem', -, hat'⟩ := readAll_at hrel hspc hfile hat hread fun e he =>
        hsound e (hlog.subset he)
      rw [hbytes, hmem] at hmem'
      obtain ⟨hposition, hentry, hcount, hstart⟩ := header_fields hmem'
      rw [hposition, hentry, hcount, hstart] at h
      obtain ⟨hroom, hpoint, hframe⟩ := loadImage_at hrel hspc hfile
        (s := { u with entryPoint := ELFHeader.programEntryPosition file })
        (hs.extends hrel (ht.trans (hu.trans .of_entry)))
        hbytes hwf hat' h hsound
      refine ⟨hroom, hpoint, fun j hj a hcov => ?_⟩
      rw [hframe j hj a hcov]
      refine loadedByte_congr (skipped_congr ?_)
      rw [hmem']
      have := (hwf.fits j hj).header a hcov
      exact store_of_le (by
        rw [length_stretch, show headerSize.toNat = 52 from rfl]
        omega)
  · next hne => exact absurd h (hne _)

/-- What a run leaves in the ranges of the segments is faithful if and only if the bytes that are left alone were
right. -/
lemma faithful_iff {file : ℕ → UInt8} {size : ℕ} {m : Memory} (hwf : WellFormed file)
    (h : (∀ j < headerCount file, ELFProgramHeader.type (programHeader file j) = programTypeLoad →
      (ELFProgramHeader.offset (programHeader file j)).toNat +
        (ELFProgramHeader.fileSize (programHeader file j)).toNat ≤ size) ∧
      s'.entryPoint = ELFHeader.programEntryPosition file ∧
      ∀ j < headerCount file, ∀ a, Covers (programHeader file j) a →
        s'.mem a = loadedByte file (programHeader file j) (skipped file m) a) :
    Faithful file size s' ↔ RightBefore file (skipped file m) := by
  obtain ⟨hroom, hpoint, hframe⟩ := h
  -- the byte at a place of a segment, by how far it is into the segment
  have hbyte : ∀ j < headerCount file, ELFProgramHeader.type (programHeader file j) = programTypeLoad →
      ∀ i < (ELFProgramHeader.memorySize (programHeader file j)).toNat,
        s'.mem (segmentAddress (programHeader file j) i) =
          if 0x10000 * ((ELFProgramHeader.fileSize (programHeader file j)).toNat / 0x10000) ≤ i ∧
              i < (ELFProgramHeader.fileSize (programHeader file j)).toNat then
            file ((ELFProgramHeader.offset (programHeader file j)).toNat + i)
          else if i < (ELFProgramHeader.memorySize (programHeader file j)).toNat % 0x10000 then 0
          else skipped file m (segmentAddress (programHeader file j) i) := fun j hj ht i hi => by
    have hlt := (ELFProgramHeader.memorySize (programHeader file j)).toNat_lt
    have hoff := offset_add (ELFProgramHeader.virtualAddress (programHeader file j)) (k := i) (by omega)
    rw [hframe j hj _ ⟨ht, by rw [segmentAddress, hoff]; exact hi⟩, loadedByte, segmentAddress, hoff]
  have hsize : ∀ j < headerCount file, ELFProgramHeader.type (programHeader file j) = programTypeLoad →
      (ELFProgramHeader.fileSize (programHeader file j)).toNat ≤
        (ELFProgramHeader.memorySize (programHeader file j)).toNat := fun j hj ht =>
    UInt32.le_iff_toNat_le.mp ((hwf.fits j hj).size ht)
  constructor
  · intro hf
    refine ⟨fun j hj ht i hi => ?_, fun j hj ht i hi hfs hms => ?_⟩
    · have hfs : i < (ELFProgramHeader.fileSize (programHeader file j)).toNat := by omega
      have hthere := hbyte j hj ht i (hfs.trans_le (hsize j hj ht))
      rw [if_neg (by omega)] at hthere
      rw [← hf.bytes j hj ht i hfs, hthere]
    · rw [← hf.zeros j hj ht i hi hfs, hbyte j hj ht i hi, if_neg (by omega), if_neg (by omega)]
  · intro hb
    refine ⟨hroom, fun j hj ht i hi => ?_, fun j hj ht i hi hfs => ?_, hpoint⟩
    · rw [hbyte j hj ht i (hi.trans_le (hsize j hj ht))]
      split
      · rfl
      · exact hb.chunks j hj ht i (by omega)
    · rw [hbyte j hj ht i hi, if_neg (by omega)]
      split
      · rfl
      · exact hb.zeros j hj ht i hi hfs (by omega)

/-- **`ELF_Read` loads a file faithfully if and only if the bytes it leaves alone are right before.** The
run returns `true`, each of its calls of `FAT_Open` that brings a file brings this one, and its lookups find
their links. -/
theorem elfRead_faithful_iff (dev : Device) (part : Partition) (hrel : dev.Reliable) (s : St)
    (hr : Reachable (bootLayer dev part) s) (entry : DirectoryEntry) (chain : List UInt32)
    (hfile : IsFile dev part s.fat entry chain)
    (hwf : WellFormed (fileByte dev part s.fat entry chain)) (overlay : Overlay) (m : Memory)
    (entryPoint : UInt32) (fuel : ℕ) (path : List UInt8) (names : ℕ → NameBuffer) (s' : Loader)
    (h : elfRead dev part overlay fuel path names ⟨s, m, entryPoint, []⟩ = (.ok true, s'))
    (hsound : ∀ e ∈ s'.log, Sound dev part entry e) :
    Faithful (fileByte dev part s.fat entry chain) entry.size.toNat s' ↔
      RightBefore (fileByte dev part s.fat entry chain)
        (skipped (fileByte dev part s.fat entry chain) m) := by
  have hloaded := elfRead_at hrel hr.sectorsPerCluster hfile ⟨.refl _, hr.coherent hrel⟩ rfl hwf h hsound
  exact faithful_iff hwf hloaded

/-- Where every segment is shorter than 64 KiB, no chunk is full and `memset` reaches to its end. -/
lemma WellFormed.rightBefore {file : ℕ → UInt8} (h : WellFormed file) (hshort : ∀ j < headerCount file,
    (ELFProgramHeader.memorySize (programHeader file j)).toNat < 0x10000) (m : Memory) : RightBefore file m := by
  refine ⟨fun j hj ht i hi => ?_, fun j hj _ i hi _ hle => ?_⟩
  · have hsize := UInt32.le_iff_toNat_le.mp ((h.fits j hj).size ht)
    have := hshort j hj
    omega
  · have := hshort j hj
    omega

/-! ### A small executable -/

/-- A range that starts far enough behind a base, and does not wrap around to it, is apart from the 64 KiB
at the base. -/
lemma range_apart {base start : UInt32} {n : ℕ} (hfar : 0x10000 ≤ offset base start)
    (hend : offset base start + n ≤ 2 ^ 32) {a : UInt32} (ha : offset start a < n) :
    0x10000 ≤ offset base a := by
  have hs := offset_shift base a (k := offset base start) (offset_lt base start)
  rw [add_offset] at hs
  split at hs <;> omega

/-- The range of a segment starts 64 KiB or more behind a base, and does not wrap around to it. -/
def FarBehind (base : UInt32) (b : ℕ → UInt8) : Prop :=
  0x10000 ≤ offset base (ELFProgramHeader.virtualAddress b) ∧
    offset base (ELFProgramHeader.virtualAddress b) + (ELFProgramHeader.memorySize b).toNat ≤ 2 ^ 32

instance (base : UInt32) (b : ℕ → UInt8) : Decidable (FarBehind base b) :=
  inferInstanceAs (Decidable (_ ∧ _))

lemma fits_of_range {b : ℕ → UInt8}
    (hsize : ELFProgramHeader.fileSize b ≤ ELFProgramHeader.memorySize b)
    (hheader : FarBehind headerBuffer b) (hload : FarBehind loadBuffer b) (hfat : FarBehind fatData b) :
    Fits b := by
  refine ⟨fun _ => hsize, fun a ha => ?_, fun a ha => ?_, fun a ha => ?_⟩
  · exact range_apart hheader.1 hheader.2 ha.2
  · exact range_apart hload.1 hload.2 ha.2
  · exact range_apart hfat.1 hfat.2 ha.2

/-- An executable with one segment at 1 MiB, which takes its bytes from behind the program header. -/
def executable (memorySize : UInt32) (bytes : List UInt8) : List UInt8 :=
  [0x7F, 69, 76, 70, 1, 1, 1, 0, 0, 0, 0, 0, 0, 0, 0, 0] ++ bytes16 2 ++ bytes16 3 ++ bytes32 1 ++
    bytes32 0x100000 ++ bytes32 52 ++ bytes32 0 ++ bytes32 0 ++ bytes16 52 ++ bytes16 32 ++ bytes16 1 ++
    bytes16 0 ++ bytes16 0 ++ bytes16 0 ++ bytes32 1 ++ bytes32 84 ++ bytes32 0x100000 ++
    bytes32 0x100000 ++ bytes32 (UInt32.ofNat bytes.length) ++ bytes32 memorySize ++ bytes32 5 ++
    bytes32 4096 ++ bytes

/-- The directory entry `K` of a file in cluster 2. -/
def entryK (size : UInt32) : DirectoryEntry := dirEntry [75] 0 2 size

/-- The small volume with a file `K` of one sector. -/
def executableDisk (content : List UInt8) : UInt32 → Sector :=
  diskOf [(0, smallVolume.bootSector), (1, Bytes.ofList 512 [0xF8, 0xFF, 0xFF, 0xFF, 0xFF, 0xFF]),
    (33, Bytes.ofList 512 (List.ofFn (entryK (UInt32.ofNat content.length)))),
    (34, Bytes.ofList 512 content)]

/-- What `FAT_Open` leaves when it hands out a slot for an entry: the slots before it are open, and
its record is at the start of the file. -/
def OpenedAs (dev : Device) (part : Partition) (entry : DirectoryEntry) (i : Fin 10) (u : St) : Prop :=
  (∀ j < i, (u.fat.openedFiles j).opened = true) ∧
    (u.fat.openedFiles i).pub = { handle := ((i : ℕ) : ℤ)
                                  isDirectory := entry.attributes &&& attributeDirectory ≠ 0
                                  position := 0, size := entry.size } ∧
    (u.fat.openedFiles i).opened = true ∧ (u.fat.openedFiles i).firstCluster = entry.firstCluster ∧
    (u.fat.openedFiles i).currentCluster = entry.firstCluster ∧
    (u.fat.openedFiles i).currentSectorInCluster = 0 ∧
    ∀ k, (u.fat.openedFiles i).buffer k =
      dev.window (u.fat.clusterToLba entry.firstCluster + part.partitionOffset) 512 k

instance (dev : Device) (part : Partition) (entry : DirectoryEntry) (i : Fin 10) (u : St) :
    Decidable (OpenedAs dev part entry i u) := inferInstanceAs (Decidable (_ ∧ _))

lemma OpenedAs.handedOut {dev : Device} {part : Partition} (hrel : dev.Reliable)
    {entry : DirectoryEntry} {i : Fin 10} {u : St} (h : OpenedAs dev part entry i u) :
    HandedOut dev part entry i u := by
  obtain ⟨hbefore, hpub, hopened, hfirst, hcurrent, hsector, hbuffer⟩ := h
  -- the slot was handed out in the state in which it is not open yet
  let s₀ := u.setFd (.slot i) { u.fat.openedFiles i with opened := false }
  have hrec : s₀.fat.openedFiles i = { u.fat.openedFiles i with opened := false } :=
    FatData.fd_setFd u.fat (.slot i) _
  have hfree : s₀.fat.freeSlot = some i := by
    apply freeSlot_of_first (by rw [hrec])
    intro j hj
    rw [← hbefore j hj]
    exact congrArg FileData.opened (Function.update_of_ne hj.ne _ _)
  have hread : firstSector (bootLayer dev part) entry i s₀ = (true, (u.fat.openedFiles i).buffer) := by
    apply (Device.readSectors_of_ok (hrel _ _) _ _).trans
    exact Prod.ext rfl (funext fun k => (hbuffer k).symm)
  refine ⟨s₀, _, openEntry_ok hfree (by rw [hread]), ⟨rfl, rfl, rfl⟩, ?_⟩
  dsimp only [FatData.setFd]
  rw [Function.update_self, openedRecord, hread, hrec]
  exact FileData.ext rfl hpub hopened hfirst hcurrent hsector

/-- A check of an event that makes it sound, on a disk whose reads succeed. -/
def Checked (dev : Device) (part : Partition) (entry : DirectoryEntry) (i : Fin 10) : LoadEvent → Prop
  | .opened r u => r = .ok (some (.slot i)) ∧ OpenedAs dev part entry i u
  | .read _ _ _ u => u.fat.fatType ≠ 12
  | .written _ _ => True

instance (dev : Device) (part : Partition) (entry : DirectoryEntry) (i : Fin 10) :
    DecidablePred (Checked dev part entry i)
  | .opened _ _ => inferInstanceAs (Decidable (_ ∧ _))
  | .read _ _ _ _ => inferInstanceAs (Decidable (¬ _))
  | .written _ _ => inferInstanceAs (Decidable True)

lemma Checked.sound {dev : Device} {part : Partition} (hrel : dev.Reliable) {entry : DirectoryEntry}
    {i : Fin 10} {e : LoadEvent} (h : Checked dev part entry i e) : Sound dev part entry e := by
  have hfile : e.OnFile dev part entry := by
    cases e with
    | opened r u => exact ⟨i, h.1, h.2.handedOut hrel⟩
    | read file n dataOut u => exact h
    | written address count => trivial
  exact hfile.sound hrel

lemma resolved_of_checked {dev : Device} {part : Partition} {entry : DirectoryEntry} {i : Fin 10}
    {log : List LoadEvent} (h : ∀ e ∈ log, Checked dev part entry i e) : Resolved log :=
  fun _ _ hmem => ⟨_, (h _ hmem).1⟩

/-- The content of the small executable, and the small volume that holds it. -/
def smallFile : List UInt8 := executable 8 [1, 2, 3, 4]

def smallDevice : Device := .ofDisk (executableDisk smallFile)

/-- The loader before a run on the volume of a device, with a memory that is all ones. -/
def loaderOn (dev : Device) : Loader where
  fat := mounted (bootLayer dev (hardDiskPartition 0))
  mem := fun _ => 1
  entryPoint := 0
  log := []

/-- A run on a path `K`. No segment of the small executables is near the data of the FAT layer. -/
def runOn (dev : Device) : Except Stop Bool × Loader :=
  elfRead dev (hardDiskPartition 0) (fun _ => id) 17 [75] (fun _ => blankName) (loaderOn dev)

lemma entryK_isFile (content : List UInt8) {f : FatData} (hspc : f.sectorsPerCluster = 1)
    (hlen : (UInt32.ofNat content.length).toNat ≤ 512) : IsFile (.ofDisk (executableDisk content))
      (hardDiskPartition 0) f (entryK (UInt32.ofNat content.length)) [2] := by
  obtain ⟨hattr, hfirst, hsize⟩ := dirEntry_fields [75] 0 2 (UInt32.ofNat content.length)
  refine ⟨by rw [entryK, hattr]; decide, fun c hc => ?_, ⟨by simp, fun i hi => ?_⟩, ?_⟩
  · cases hc
    rw [entryK, hfirst]
  · simp at hi
  · rw [entryK, hsize, hspc]
    exact hlen

lemma wellFormed_of_one {file : ℕ → UInt8} (hcount : headerCount file = 1)
    (hbehind : headerSize ≤ ELFHeader.programHeaderTablePosition file)
    (hsize : (ELFHeader.programHeaderTableEntrySize file).toNat = 32)
    (hfits : Fits (programHeader file 0)) : WellFormed file := by
  refine ⟨hbehind, fun _ => by rw [hsize], by rw [hcount, hsize]; decide, fun j hj => ?_,
    fun j hj k hk hne => ?_⟩
  · obtain rfl : j = 0 := by omega
    exact hfits
  · omega

/-- The file of the small executable as the volume has it. -/
def smallBytes : ℕ → UInt8 :=
  fileByte smallDevice (hardDiskPartition 0) (loaderOn smallDevice).fat.fat (entryK 88) [2]

lemma eq_mk_of_fst {α β : Type} {x : α × β} {a : α} (h : x.1 = a) : x = (a, x.2) := by rw [← h]

lemma small_reachable : Reachable (bootLayer smallDevice (hardDiskPartition 0)) (loaderOn smallDevice).fat :=
  mounted_reachable (by decide +kernel)

lemma small_run : runOn smallDevice = (.ok true, (runOn smallDevice).2) := eq_mk_of_fst (by decide +kernel)

lemma small_checked : ∀ e ∈ (runOn smallDevice).2.log,
    Checked smallDevice (hardDiskPartition 0) (entryK 88) 0 e := by decide +kernel

theorem elfRead_faithful_small : Faithful smallBytes 88 (runOn smallDevice).2 := by
  have hcount : headerCount smallBytes = 1 := by decide +kernel
  have hwf : WellFormed smallBytes := wellFormed_of_one hcount (by decide +kernel) (by decide +kernel)
    (fits_of_range (by decide +kernel) (by decide +kernel) (by decide +kernel) (by decide +kernel))
  have hsize : (entryK 88).size.toNat = 88 := by decide +kernel
  have hiff := elfRead_faithful_iff smallDevice (hardDiskPartition 0) (fun _ _ => rfl)
    (loaderOn smallDevice).fat small_reachable (entryK 88) [2]
    (entryK_isFile smallFile (by decide +kernel) (by decide +kernel)) hwf (fun _ => id) (fun _ => 1) 0 17
    [75] (fun _ => blankName) (runOn smallDevice).2 small_run fun e he => (small_checked e he).sound fun _ _ => rfl
  rw [hsize, show fileByte smallDevice (hardDiskPartition 0) (loaderOn smallDevice).fat.fat (entryK 88)
    [2] = smallBytes from rfl] at hiff
  refine hiff.mpr (hwf.rightBefore (fun j hj => ?_) _)
  obtain rfl : j = 0 := by omega
  decide +kernel

/-- An executable whose segment is 64 KiB of zeros, and the small volume that holds it. -/
def clearedFile : List UInt8 := executable 0x10000 []

def clearedDevice : Device := .ofDisk (executableDisk clearedFile)

def clearedBytes : ℕ → UInt8 :=
  fileByte clearedDevice (hardDiskPartition 0) (loaderOn clearedDevice).fat.fat (entryK 84) [2]

/-- The count of 65536 bytes to clear is 0 as a `uint16_t`: a run that returns `true` clears nothing. -/
theorem elfRead_not_faithful :
    Reachable (bootLayer clearedDevice (hardDiskPartition 0)) (loaderOn clearedDevice).fat ∧
    IsFile clearedDevice (hardDiskPartition 0) (loaderOn clearedDevice).fat.fat (entryK 84) [2] ∧
    WellFormed clearedBytes ∧ (runOn clearedDevice).1 = .ok true ∧
    (∀ e ∈ (runOn clearedDevice).2.log, Sound clearedDevice (hardDiskPartition 0) (entryK 84) e) ∧
    ¬ Faithful clearedBytes 84 (runOn clearedDevice).2 := by
  have hcount : headerCount clearedBytes = 1 := by decide +kernel
  have hlog : ∀ e ∈ (runOn clearedDevice).2.log,
      Checked clearedDevice (hardDiskPartition 0) (entryK 84) 0 e := by decide +kernel
  refine ⟨mounted_reachable (by decide +kernel),
    entryK_isFile clearedFile (by decide +kernel) (by decide +kernel),
    wellFormed_of_one hcount (by decide +kernel) (by decide +kernel)
      (fits_of_range (by decide +kernel) (by decide +kernel) (by decide +kernel) (by decide +kernel)),
    by decide +kernel, fun e he => (hlog e he).sound fun _ _ => rfl, fun h => ?_⟩
  have hzero := h.zeros 0 (by rw [hcount]; decide) (by decide +kernel) 0 (by decide +kernel)
    (by decide +kernel)
  revert hzero
  decide +kernel

end ArcOS.Elf
