import ArcOS.Elf.Faithful

/-!
What `ELF_Read` accepts.

The checks of the header are folded into the flag `ok`, which nothing looks at (`headerOk`). What decides is
whether the table of the program headers is in the file: `elfRead_accepts_iff` says for which files a run
takes only a valid header, and begins no segment of any other file.
-/

namespace ArcOS.Elf

open Lib Lib.Memory Fat

/-! ### The checks -/

/-- `memcmp`: not 0 if a byte differs. The count is a `uint16_t`. -/
def memcmp (ptr1 ptr2 : ℕ → UInt8) (num : UInt16) : ℤ :=
  if (List.range num.toNat).any fun i => ptr1 i != ptr2 i then 1 else 0

/-- `ELF_MAGIC`. -/
def elfMagic : ℕ → UInt8 := fun i => [0x7F, 69, 76, 70].getD i 0

/-- `ELF_BITNESS_32BIT`. -/
def bitness32Bit : UInt8 := 1

/-- `ELF_ENDIANNESS_LITTLE`. -/
def endiannessLittle : UInt8 := 1

/-- `ELF_TYPE_EXECUTABLE`. -/
def typeExecutable : UInt16 := 2

/-- `ELF_INSTRUCTION_SET_X86`. -/
def instructionSetX86 : UInt16 := 3

/-! The fields of an `ELFHeader` that are checked. -/

namespace ELFHeader

def magic (b : ℕ → UInt8) : ℕ → UInt8 := b
def bitness (b : ℕ → UInt8) : UInt8 := b 4
def endianness (b : ℕ → UInt8) : UInt8 := b 5
def elfHeaderVersion (b : ℕ → UInt8) : UInt8 := b 6
def type (b : ℕ → UInt8) : UInt16 := word16 b 16
def instructionSet (b : ℕ → UInt8) : UInt16 := word16 b 18
def elfVersion (b : ℕ → UInt8) : UInt32 := word32 b 20

end ELFHeader

/-- The flag `ok` of `ELF_Read`, which it never looks at. -/
def headerOk (header : ℕ → UInt8) : Bool :=
  let ok := true
  let ok := ok && memcmp (ELFHeader.magic header) elfMagic 4 != 0
  let ok := ok && ELFHeader.bitness header == bitness32Bit
  let ok := ok && ELFHeader.endianness header == endiannessLittle
  let ok := ok && ELFHeader.elfHeaderVersion header == 1
  let ok := ok && ELFHeader.elfVersion header == 1
  let ok := ok && ELFHeader.type header == typeExecutable
  ok && ELFHeader.instructionSet header == instructionSetX86

/-- The header of a 32-bit little-endian executable for x86. -/
structure ValidHeader (b : ℕ → UInt8) : Prop where
  magic : b 0 = 0x7F ∧ b 1 = 69 ∧ b 2 = 76 ∧ b 3 = 70
  bitness : ELFHeader.bitness b = 1
  endianness : ELFHeader.endianness b = 1
  headerVersion : ELFHeader.elfHeaderVersion b = 1
  elfVersion : ELFHeader.elfVersion b = 1
  type : ELFHeader.type b = 2
  machine : ELFHeader.instructionSet b = 3

lemma memcmp_eq_zero {p q : ℕ → UInt8} {num : UInt16} :
    memcmp p q num = 0 ↔ ∀ i < num.toNat, p i = q i := by
  simp [memcmp]

lemma memcmp_elfMagic {b : ℕ → UInt8} :
    memcmp (ELFHeader.magic b) elfMagic 4 = 0 ↔ b 0 = 0x7F ∧ b 1 = 69 ∧ b 2 = 76 ∧ b 3 = 70 := by
  rw [memcmp_eq_zero]
  constructor
  · intro h
    exact ⟨h 0 (by decide), h 1 (by decide), h 2 (by decide), h 3 (by decide)⟩
  · rintro ⟨h0, h1, h2, h3⟩ i hi
    match i, hi with
    | 0, _ => exact h0
    | 1, _ => exact h1
    | 2, _ => exact h2
    | 3, _ => exact h3
    | i + 4, hi => exact absurd hi (by rw [show (4 : UInt16).toNat = 4 from rfl]; omega)

/-- **The flag asks for a wrong magic**: besides being ignored, it is set for no valid header. -/
theorem headerOk_of_valid {b : ℕ → UInt8} (h : ValidHeader b) : headerOk b = false := by
  have hmagic := memcmp_elfMagic.mpr h.magic
  simp [headerOk, hmagic]

/-! ### Segments that are begun -/

/-- How often the file was opened. Each segment opens it anew, behind its `memset`. -/
def openings : List LoadEvent → ℕ
  | [] => 0
  | .opened _ _ :: l => openings l + 1
  | .read _ _ _ _ :: l => openings l
  | .written _ _ :: l => openings l

variable {dev : Device} {part : Partition} {overlay : Overlay}

lemma openings_le_of_suffix {l l' : List LoadEvent} (h : l <:+ l') : openings l ≤ openings l' := by
  obtain ⟨l'', rfl⟩ := h
  induction l'' with
  | nil => exact le_rfl
  | cons e l'' ih =>
    cases e with
    | opened _ _ => exact ih.trans (Nat.le_succ _)
    | read _ _ _ _ => exact ih
    | written _ _ => exact ih

lemma loadFile_begins (fuel : ℕ) (path : List UInt8) (name : NameBuffer) (ph va : UInt32) (s : Loader) :
    openings s.log < openings (loadFile dev part overlay fuel path name ph va s).2.log :=
  openings_le_of_suffix (loadFile_log dev part overlay fuel path name ph va s)

/-- A program header is passed over, or its segment is begun. -/
lemma loadSegment_begins (fuel : ℕ) (path : List UInt8) (name : NameBuffer) (ph : UInt32) (s : Loader) :
    loadSegment dev part overlay fuel path name ph s = (.ok true, s) ∨
      openings s.log < openings (loadSegment dev part overlay fuel path name ph s).2.log := by
  unfold loadSegment
  split
  · right
    exact loadFile_begins fuel path name ph (ELFProgramHeader.virtualAddress (s.header ph))
      (s.written overlay (ELFProgramHeader.virtualAddress (s.header ph))
        (ELFProgramHeader.memorySize (s.header ph)).toUInt16 _)
  · exact .inl rfl

/-- **The loop over the program headers returns `true`, or has begun a segment.** -/
lemma loadSegments_begins (fuel : ℕ) (path : List UInt8) (names : ℕ → NameBuffer) (entrySize : UInt32) :
    ∀ (left i : ℕ) (s : Loader),
      (loadSegments dev part overlay fuel path names entrySize left i s).1 = .ok true ∨
        openings s.log < openings (loadSegments dev part overlay fuel path names entrySize left i s).2.log := by
  intro left
  induction left with
  | zero => exact fun _ _ => .inl rfl
  | succ left ih =>
    intro i s
    rw [loadSegments]
    rcases loadSegment_begins fuel path (names (i + 1)) (headerBuffer + UInt32.ofNat i * entrySize) s with
      hskip | hbegin
    · rw [hskip]
      exact ih (i + 1) s
    · right
      split
      · next t heq =>
        rw [heq] at hbegin
        exact hbegin.trans_le (openings_le_of_suffix
          (loadSegments_log dev part overlay fuel path names entrySize left (i + 1) t))
      · exact hbegin

/-! ### The table -/

/-- Where the table is read from: behind the header and what is skipped. A position in front of the end of
the header wraps around, and everything is skipped. -/
def tableStart (position : UInt32) (size : ℕ) : ℕ :=
  headerSize.toNat + min (position - headerSize).toNat (size - headerSize.toNat)

/-- What the file has at its table is as long as the table. -/
def TableInside (file : ℕ → UInt8) (size : ℕ) : Prop :=
  tableStart (ELFHeader.programHeaderTablePosition file) size +
    (ELFHeader.programHeaderTableEntrySize file * ELFHeader.programHeaderTableEntryCount file).toNat ≤ size

instance (file : ℕ → UInt8) (size : ℕ) : Decidable (TableInside file size) :=
  inferInstanceAs (Decidable (_ ≤ _))

/-- A run has refused the file: it returns `false`, it has begun no segment, and no byte is changed but those
that the file is read to, from the header buffer on. -/
structure Refused (size : ℕ) (m : Memory) (r : Except Stop Bool) (s' : Loader) : Prop where
  result : r = .ok false
  opened : openings s'.log = 1
  mem : ∀ a, size ≤ offset headerBuffer a → s'.mem a = m a

/-- The first 52 bytes of the file are there, and form a valid header. -/
def HasValidHeader (file : ℕ → UInt8) (size : ℕ) : Prop := headerSize.toNat ≤ size ∧ ValidHeader file

/-- A run takes the file only if its header is valid, and otherwise refuses it. -/
structure AcceptsValid (file : ℕ → UInt8) (size : ℕ) (m : Memory) (r : Except Stop Bool)
    (s' : Loader) : Prop where
  accepted : r = .ok true → HasValidHeader file size
  refused : ¬ HasValidHeader file size → Refused size m r s'

/-! ### A run -/

variable {f : FatData} {entry : DirectoryEntry} {chain : List UInt32} {i : Fin 10} {k : ℕ}
  {s s' : Loader}

lemma fatRead_log (dev : Device) (part : Partition) (file : Option Loc) (n dataOut : UInt32) (s : Loader) :
    (fatRead dev part file n dataOut s).2.log = .read file n dataOut s.fat :: s.log := by
  unfold fatRead
  dsimp only
  split <;> rfl

lemma readAll_log (dev : Device) (part : Partition) (file : Option Loc) (n dataOut : UInt32) (text : String)
    (s : Loader) :
    (readAll dev part file n dataOut text s).2.log = .read file n dataOut s.fat :: s.log := by
  have hread := fatRead_log dev part file n dataOut s
  unfold readAll
  split
  · next heq => rwa [heq] at hread
  · next heq =>
    rw [heq] at hread
    split <;> exact hread

/-- A read of the loader, whether all its bytes are there or not. -/
lemma readAll_result (hrel : dev.Reliable) (hspc : 0 < f.sectorsPerCluster.toNat)
    (hfile : IsFile dev part f entry chain) (hat : At dev part f entry chain i k s.fat)
    (n dataOut : UInt32) (text : String)
    (hsound : ∀ e ∈ (readAll dev part (some (.slot i)) n dataOut text s).2.log, Sound dev part entry e) :
    ∃ u, readAll dev part (some (.slot i)) n dataOut text s =
        (.ok (decide (n.toNat ≤ entry.size.toNat - k)), u) ∧
      openings u.log = openings s.log ∧
      u.mem = s.mem.store dataOut
        (stretch (fileByte dev part f entry chain) k (min n.toNat (entry.size.toNat - k))) ∧
      (n.toNat ≤ entry.size.toNat - k → At dev part f entry chain i (k + n.toNat) u.fat) := by
  have hlog := readAll_log dev part (some (.slot i)) n dataOut text s
  have hread := fatRead_at hrel hspc hfile hat n dataOut
  unfold readAll at hsound hlog ⊢
  rcases hr : fatRead dev part (some (.slot i)) n dataOut s with ⟨e | count, t⟩
  · rw [hr] at hread hsound
    obtain ⟨count, hok, -⟩ := hread hsound
    cases hok
  · rw [hr] at hread hsound hlog
    dsimp only at hread hsound hlog ⊢
    by_cases hcount : count = n
    · rw [if_pos hcount] at hsound hlog ⊢
      obtain ⟨count', hok, hmin, hmem, -, hat'⟩ := hread hsound
      cases hok
      subst hcount
      refine ⟨t, ?_, ?_, ?_, fun _ => hat'⟩
      · rw [decide_eq_true (by omega)]
      · rw [hlog]
        rfl
      · rw [hmem, ← hmin]
    · rw [if_neg hcount] at hsound hlog ⊢
      obtain ⟨count', hok, hmin, hmem, -, -⟩ := hread hsound
      cases hok
      have hshort : ¬ n.toNat ≤ entry.size.toNat - k := fun hle =>
        hcount (UInt32.toNat_inj.mp (by omega))
      refine ⟨t.printf text, ?_, ?_, ?_, fun hle => absurd hle hshort⟩
      · rw [decide_eq_false hshort]
      · rw [hlog]
        rfl
      · rw [← hmin]
        exact hmem

lemma loadImage_log_table {fuel : ℕ} {path : List UInt8} {names : ℕ → NameBuffer} {file : Option Loc}
    {position entrySize entryCount gap : UInt32} {t : Loader} {r : Except Stop Bool}
    (hskip : fatRead dev part file (position - headerSize) headerBuffer s = (.ok gap, t))
    (h : loadImage dev part overlay fuel path names file position entrySize entryCount s = (r, s')) :
    (readAll dev part file (entrySize * entryCount) headerBuffer "ELF Load error\n" t).2.log <:+
      s'.log := by
  rw [loadImage, hskip] at h
  dsimp only at h
  split at h
  · next u heq =>
    rw [heq]
    have hc := fatClose_extends dev part file u
    split at h
    · next hclose =>
      rw [hclose] at hc
      cases h
      exact hc.log
    · next v hclose =>
      rw [hclose] at hc
      have hl := loadSegments_log dev part overlay fuel path names entrySize entryCount.toNat 0 v
      rw [h] at hl
      exact hc.log.trans hl
  · exact (congrArg (fun res => res.2.log) h).symm ▸ List.suffix_rfl

/-- The bytes before the table are skipped, and the table is read: all of it, or less when the file has no
more. -/
lemma table_result (hrel : dev.Reliable) (hspc : 0 < f.sectorsPerCluster.toNat)
    (hfile : IsFile dev part f entry chain)
    (hat : At dev part f entry chain i headerSize.toNat s.fat)
    {fuel : ℕ} {path : List UInt8} {names : ℕ → NameBuffer} {position entrySize entryCount : UInt32}
    {r : Except Stop Bool}
    (h : loadImage dev part overlay fuel path names (some (.slot i)) position entrySize entryCount s = (r, s'))
    (hsound : ∀ l, l <:+ s'.log → openings l ≤ openings s.log → ∀ e ∈ l, Sound dev part entry e) :
    ∃ gap t u, fatRead dev part (some (.slot i)) (position - headerSize) headerBuffer s = (.ok gap, t) ∧
      readAll dev part (some (.slot i)) (entrySize * entryCount) headerBuffer "ELF Load error\n" t =
        (.ok (decide (tableStart position entry.size.toNat + (entrySize * entryCount).toNat ≤
          entry.size.toNat)), u) ∧
      openings u.log = openings s.log ∧
      (∀ a, entry.size.toNat ≤ offset headerBuffer a → u.mem a = s.mem a) ∧
      (tableStart position entry.size.toNat + (entrySize * entryCount).toNat ≤ entry.size.toNat →
        At dev part f entry chain i (tableStart position entry.size.toNat + (entrySize * entryCount).toNat)
          u.fat ∧
        u.mem = t.mem.store headerBuffer (stretch (fileByte dev part f entry chain)
          (tableStart position entry.size.toNat) (entrySize * entryCount).toNat)) := by
  have hin := hat.inside
  have hskip_log := fatRead_log dev part (some (.slot i)) (position - headerSize) headerBuffer s
  have hread := fatRead_at hrel hspc hfile hat (position - headerSize) headerBuffer
  rcases hskip : fatRead dev part (some (.slot i)) (position - headerSize) headerBuffer s with
    ⟨e | gap, t⟩
  · rw [hskip] at hread hskip_log
    rw [loadImage, hskip] at h
    cases h
    obtain ⟨gap, hok, -⟩ := hread (hsound _ List.suffix_rfl (by rw [hskip_log]; exact le_rfl))
    cases hok
  rw [hskip] at hread hskip_log
  dsimp only at hread hskip_log
  have htable_log := readAll_log dev part (some (.slot i)) (entrySize * entryCount) headerBuffer
    "ELF Load error\n" t
  have hopen : openings (readAll dev part (some (.slot i)) (entrySize * entryCount) headerBuffer
      "ELF Load error\n" t).2.log = openings s.log := by
    rw [htable_log, hskip_log]
    rfl
  have hearly := hsound _ (loadImage_log_table hskip h) hopen.le
  obtain ⟨gap', hok, hgap, hmem, -, hat'⟩ := hread fun e he =>
    hearly e (by rw [htable_log]; exact List.mem_cons_of_mem _ he)
  cases hok
  obtain ⟨u, htable, -, hmem', hat''⟩ := readAll_result hrel hspc hfile hat' (entrySize * entryCount)
    headerBuffer "ELF Load error\n" hearly
  rw [htable] at hopen
  have hstart : tableStart position entry.size.toNat = headerSize.toNat + gap.toNat := by
    rw [tableStart, hgap]
  refine ⟨gap, t, u, rfl, ?_, hopen, fun a ha => ?_, fun hle => ?_⟩
  · rw [htable, hstart]
    exact congrArg (fun b => (Except.ok b, u)) (decide_eq_decide.mpr (by omega))
  · rw [hmem', store_of_le (by rw [length_stretch]; omega), hmem,
      store_of_le (by rw [length_stretch]; omega)]
  · rw [hstart] at hle ⊢
    rw [min_eq_left (by omega)] at hmem'
    exact ⟨hat'' (by omega), hmem'⟩

/-- **What follows the header**: if the table is not in the file, the file is refused; if it is, the
segments are begun, whatever the header says. -/
theorem loadImage_result (hrel : dev.Reliable) (hspc : 0 < f.sectorsPerCluster.toNat)
    (hfile : IsFile dev part f entry chain)
    (hat : At dev part f entry chain i headerSize.toNat s.fat)
    {fuel : ℕ} {path : List UInt8} {names : ℕ → NameBuffer} {position entrySize entryCount : UInt32}
    {r : Except Stop Bool}
    (h : loadImage dev part overlay fuel path names (some (.slot i)) position entrySize entryCount s = (r, s'))
    (hsound : ∀ l, l <:+ s'.log → openings l ≤ openings s.log → ∀ e ∈ l, Sound dev part entry e) :
    (tableStart position entry.size.toNat + (entrySize * entryCount).toNat ≤ entry.size.toNat →
      r ≠ .ok false ∨ openings s.log < openings s'.log) ∧
    (¬ tableStart position entry.size.toNat + (entrySize * entryCount).toNat ≤ entry.size.toNat →
      r = .ok false ∧ openings s'.log = openings s.log ∧
        ∀ a, entry.size.toNat ≤ offset headerBuffer a → s'.mem a = s.mem a) := by
  obtain ⟨gap, t, u, hskip, htable, hopen, hframe, -⟩ := table_result hrel hspc hfile hat h hsound
  rw [loadImage, hskip] at h
  dsimp only at h
  rw [htable] at h
  constructor
  · intro hle
    rw [decide_eq_true hle] at h
    dsimp only at h
    split at h
    · cases h
      exact .inl (by simp)
    · next v hclose =>
      have hv : openings v.log = openings u.log := by
        rw [← show (fatClose (some (.slot i)) u).2 = v from congrArg Prod.snd hclose]
        rfl
      rcases loadSegments_begins fuel path names entrySize entryCount.toNat 0 v with hdone | hbegin
      · rw [h] at hdone
        left
        dsimp only at hdone
        rw [hdone]
        simp
      · rw [h, hv, hopen] at hbegin
        exact .inr hbegin
  · intro hout
    rw [decide_eq_false hout] at h
    cases h
    exact ⟨rfl, hopen, hframe⟩

lemma elfRead_log {fuel : ℕ} {path : List UInt8} {names : ℕ → NameBuffer} {file : Option Loc} {t : Loader}
    {r : Except Stop Bool} (hopen : fatOpen dev part fuel path (names 0) s = (.ok file, t))
    (h : elfRead dev part overlay fuel path names s = (r, s')) :
    (readAll dev part file headerSize headerBuffer "ELF Load error!\n" t).2.log <:+ s'.log := by
  rw [elfRead, hopen] at h
  dsimp only at h
  split at h
  · next u heq =>
    rw [heq]
    have hl := loadImage_log dev part overlay fuel path names file
      (ELFHeader.programHeaderTablePosition (u.mem.view headerBuffer))
      (ELFHeader.programHeaderTableEntrySize (u.mem.view headerBuffer))
      (ELFHeader.programHeaderTableEntryCount (u.mem.view headerBuffer))
      { u with entryPoint := ELFHeader.programEntryPosition (u.mem.view headerBuffer) }
    rw [h] at hl
    exact hl
  · exact (congrArg (fun res => res.2.log) h).symm ▸ List.suffix_rfl

/-- A run on a file that it opens: the header is read, all of it, or less when the file has no more. -/
lemma header_result (hrel : dev.Reliable) (hspc : 0 < f.sectorsPerCluster.toNat)
    (hfile : IsFile dev part f entry chain) (hs : Serving dev part f s) (hempty : openings s.log = 0)
    {fuel : ℕ} {path : List UInt8} {names : ℕ → NameBuffer} {r : Except Stop Bool} {p : Loc}
    (h : elfRead dev part overlay fuel path names s = (r, s'))
    (hopen : (fatOpen dev part fuel path (names 0) s).1 = .ok (some p))
    (hsound : ∀ l, l <:+ s'.log → openings l ≤ 1 → ∀ e ∈ l, Sound dev part entry e) :
    ∃ i t u, p = .slot i ∧ fatOpen dev part fuel path (names 0) s = (.ok (some (.slot i)), t) ∧
      t.log = .opened (.ok (some (.slot i))) t.fat :: s.log ∧
      readAll dev part (some (.slot i)) headerSize headerBuffer "ELF Load error!\n" t =
        (.ok (decide (headerSize.toNat ≤ entry.size.toNat)), u) ∧
      u.log = .read (some (.slot i)) headerSize headerBuffer t.fat :: t.log ∧ openings u.log = 1 ∧
      u.mem = s.mem.store headerBuffer (stretch (fileByte dev part f entry chain) 0
        (min headerSize.toNat entry.size.toNat)) ∧
      (headerSize.toNat ≤ entry.size.toNat → At dev part f entry chain i headerSize.toNat u.fat) := by
  rcases ho : fatOpen dev part fuel path (names 0) s with ⟨r₀, t⟩
  rw [ho] at hopen
  dsimp only at hopen
  subst hopen
  have hopened : t.log = .opened (.ok (some p)) t.fat :: s.log := by
    have h₀ := congrArg Prod.fst ho
    rw [← show (fatOpen dev part fuel path (names 0) s).2 = t from congrArg Prod.snd ho]
    unfold fatOpen at h₀ ⊢
    dsimp only at h₀ ⊢
    rw [h₀]
  have hlog := elfRead_log ho h
  have hread_log := readAll_log dev part (some p) headerSize headerBuffer "ELF Load error!\n" t
  have hone : openings (readAll dev part (some p) headerSize headerBuffer "ELF Load error!\n" t).2.log =
      1 := by
    rw [hread_log, hopened]
    exact congrArg (· + 1) hempty
  have hearly := hsound _ hlog hone.le
  obtain ⟨i, rfl, hat, hmem, -⟩ := fatOpen_at hrel hfile hs ho fun e he =>
    hearly e (by rw [hread_log]; exact List.mem_cons_of_mem _ he)
  obtain ⟨u, hread, -, hmem', hat'⟩ := readAll_result hrel hspc hfile hat headerSize headerBuffer
    "ELF Load error!\n" hearly
  rw [hread] at hone hread_log
  rw [Nat.sub_zero] at hread hmem' hat'
  refine ⟨i, t, u, rfl, rfl, hopened, hread, hread_log, hone, ?_, fun hle => ?_⟩
  · rw [hmem', hmem]
  · simpa using hat' hle

theorem elfRead_result (hrel : dev.Reliable) (hspc : 0 < f.sectorsPerCluster.toNat)
    (hfile : IsFile dev part f entry chain) (hs : Serving dev part f s) (hempty : openings s.log = 0)
    {fuel : ℕ} {path : List UInt8} {names : ℕ → NameBuffer} {r : Except Stop Bool} {p : Loc}
    (h : elfRead dev part overlay fuel path names s = (r, s'))
    (hopen : (fatOpen dev part fuel path (names 0) s).1 = .ok (some p))
    (hsound : ∀ l, l <:+ s'.log → openings l ≤ 1 → ∀ e ∈ l, Sound dev part entry e) :
    (headerSize.toNat ≤ entry.size.toNat → TableInside (fileByte dev part f entry chain) entry.size.toNat →
      r ≠ .ok false ∨ 1 < openings s'.log) ∧
    (entry.size.toNat < headerSize.toNat ∨
        ¬ TableInside (fileByte dev part f entry chain) entry.size.toNat →
      Refused entry.size.toNat s.mem r s') := by
  obtain ⟨i, t, u, rfl, ho, -, hread, -, hone, hmem, hat⟩ :=
    header_result hrel hspc hfile hs hempty h hopen hsound
  generalize fileByte dev part f entry chain = file at *
  rw [elfRead, ho] at h
  dsimp only at h
  rw [hread] at h
  by_cases hsize : headerSize.toNat ≤ entry.size.toNat
  · rw [decide_eq_true hsize] at h
    rw [min_eq_left hsize] at hmem
    obtain ⟨hposition, hentry, hcount, -⟩ := header_fields hmem
    dsimp only at h
    rw [hposition, hentry, hcount] at h
    obtain ⟨hbegin, hrefuse⟩ := loadImage_result hrel hspc hfile
      (s := { u with entryPoint := ELFHeader.programEntryPosition (u.mem.view headerBuffer) })
      (hat hsize) h fun l hl hle => hsound l hl (hle.trans hone.le)
    refine ⟨fun _ htable => ?_, fun hbad => ?_⟩
    · exact (hbegin htable).imp_right fun hlt => hone.symm.trans_lt hlt
    · obtain ⟨hr, hopenings, hframe⟩ := hrefuse (hbad.resolve_left (by omega))
      refine ⟨hr, hopenings.trans hone, fun a ha => (hframe a ha).trans ?_⟩
      exact (congrFun hmem a).trans (store_of_le (by rw [length_stretch]; omega))
  · rw [decide_eq_false hsize] at h
    cases h
    refine ⟨fun hle => absurd hle hsize, fun _ => ⟨rfl, hone, fun a ha => ?_⟩⟩
    exact (congrFun hmem a).trans (store_of_le (by rw [length_stretch]; omega))

/-- **`ELF_Read` takes only valid headers if and only if the header is valid or the file is cut off** in
its header or in the table that the header names. The file is found, and what is done before a segment
is begun finds this file and its links. -/
theorem elfRead_accepts_iff (dev : Device) (part : Partition) (hrel : dev.Reliable) (s : St)
    (hr : Reachable (bootLayer dev part) s) (entry : DirectoryEntry) (chain : List UInt32)
    (hfile : IsFile dev part s.fat entry chain) (overlay : Overlay) (m : Memory) (entryPoint : UInt32)
    (fuel : ℕ) (path : List UInt8) (names : ℕ → NameBuffer) (p : Loc) (r : Except Stop Bool) (s' : Loader)
    (h : elfRead dev part overlay fuel path names ⟨s, m, entryPoint, []⟩ = (r, s'))
    (hopen : (Boot.fatOpen dev part fuel path (names 0) s).1 = .ok (some p))
    (hsound : ∀ l, l <:+ s'.log → openings l ≤ 1 → ∀ e ∈ l, Sound dev part entry e) :
    AcceptsValid (fileByte dev part s.fat entry chain) entry.size.toNat m r s' ↔
      ValidHeader (fileByte dev part s.fat entry chain) ∨ entry.size.toNat < headerSize.toNat ∨
        ¬ TableInside (fileByte dev part s.fat entry chain) entry.size.toNat := by
  obtain ⟨hbegin, hrefuse⟩ := elfRead_result hrel hr.sectorsPerCluster hfile
    (s := ⟨s, m, entryPoint, []⟩) ⟨.refl _, hr.coherent hrel⟩ rfl h hopen hsound
  generalize fileByte dev part s.fat entry chain = file at *
  constructor
  · intro hacc
    by_contra hbad
    obtain ⟨hvalid, hbad⟩ := not_or.mp hbad
    obtain ⟨hsize, htable⟩ := not_or.mp hbad
    have href := hacc.refused fun hhas => hvalid hhas.2
    rcases hbegin (not_lt.mp hsize) (not_not.mp htable) with hne | hlt
    · exact hne href.result
    · rw [href.opened] at hlt
      exact absurd hlt (lt_irrefl 1)
  · intro hcond
    by_cases hcut : entry.size.toNat < headerSize.toNat ∨ ¬ TableInside file entry.size.toNat
    · have href := hrefuse hcut
      refine ⟨fun htrue => ?_, fun _ => href⟩
      rw [href.result] at htrue
      cases htrue
    · have hhas : HasValidHeader file entry.size.toNat :=
        ⟨not_lt.mp (not_or.mp hcut).1, hcond.resolve_right hcut⟩
      exact ⟨fun _ => hhas, fun hnot => absurd hhas hnot⟩

/-! ### A file that is no executable -/

/-- The small executable with a wrong first byte of its magic, cut off in its table. -/
def cutFile : List UInt8 := 0 :: (smallFile.take 60).tail

def cutDevice : Device := .ofDisk (executableDisk cutFile)

lemma cut_reachable : Reachable (bootLayer cutDevice (hardDiskPartition 0)) (loaderOn cutDevice).fat :=
  mounted_reachable (by decide +kernel)

lemma cut_checked : ∀ e ∈ (runOn cutDevice).2.log,
    Checked cutDevice (hardDiskPartition 0) (entryK 60) 0 e := by decide +kernel

theorem elfRead_accepts_iff_cut : AcceptsValid
    (fileByte cutDevice (hardDiskPartition 0) (loaderOn cutDevice).fat.fat (entryK 60) [2])
    (entryK 60).size.toNat (fun _ => 1) (runOn cutDevice).1 (runOn cutDevice).2 := by
  have hrun : runOn cutDevice = ((runOn cutDevice).1, (runOn cutDevice).2) := eq_mk_of_fst rfl
  refine (elfRead_accepts_iff cutDevice (hardDiskPartition 0) (fun _ _ => rfl) (loaderOn cutDevice).fat
    cut_reachable (entryK 60) [2]
    (entryK_isFile cutFile (by decide +kernel) (by decide +kernel)) (fun _ => id) (fun _ => 1) 0 17 [75]
    (fun _ => blankName) (.slot 0) _ _ hrun (by decide +kernel) fun l hl _ e he =>
      (cut_checked e (hl.subset he)).sound fun _ _ => rfl).mpr ?_
  exact .inr (.inr (by decide +kernel))

/-- The small executable with a wrong first byte of its magic. -/
def forgedFile : List UInt8 := 0 :: smallFile.tail

def forgedDevice : Device := .ofDisk (executableDisk forgedFile)

def forgedBytes : ℕ → UInt8 :=
  fileByte forgedDevice (hardDiskPartition 0) (loaderOn forgedDevice).fat.fat (entryK 88) [2]

/-- A file that starts with no ELF magic is taken: the run returns `true`, with its segment in memory. -/
theorem elfRead_accepts_forged :
    Reachable (bootLayer forgedDevice (hardDiskPartition 0)) (loaderOn forgedDevice).fat ∧
    IsFile forgedDevice (hardDiskPartition 0) (loaderOn forgedDevice).fat.fat (entryK 88) [2] ∧
    (∀ e ∈ (runOn forgedDevice).2.log, Sound forgedDevice (hardDiskPartition 0) (entryK 88) e) ∧
    forgedBytes 0 = 0 ∧ (runOn forgedDevice).1 = .ok true ∧
    (runOn forgedDevice).2.mem 0x100001 = 2 ∧
    ¬ AcceptsValid forgedBytes 88 (fun _ => 1) (runOn forgedDevice).1 (runOn forgedDevice).2 := by
  have hlog : ∀ e ∈ (runOn forgedDevice).2.log,
      Checked forgedDevice (hardDiskPartition 0) (entryK 88) 0 e := by decide +kernel
  have hfirst : forgedBytes 0 = 0 := by decide +kernel
  have htrue : (runOn forgedDevice).1 = .ok true := by decide +kernel
  refine ⟨mounted_reachable (by decide +kernel),
    entryK_isFile forgedFile (by decide +kernel) (by decide +kernel),
    fun e he => (hlog e he).sound fun _ _ => rfl, hfirst, htrue, by decide +kernel, fun h => ?_⟩
  have hmagic := (h.accepted htrue).2.magic.1
  rw [hfirst] at hmagic
  exact absurd hmagic (by decide)

end ArcOS.Elf
