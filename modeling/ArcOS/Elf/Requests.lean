import ArcOS.Elf.Overrun

/-!
What `ELF_Read` asks for, and where it looks.

The reads into the load buffer ask for no more than its size (`addsCapped_respected`). The two reads behind the
header ask for what the header says: `elfRead_inBounds_iff` says for which files they stay in the header
buffer, and for which the loop over the program headers stays in the table that was read.
-/

namespace ArcOS.Elf

open Lib Lib.Memory Fat

/-- `MEMORY_ELF_SIZE`, which nothing uses. -/
def memoryElfSize : UInt32 := 0x10000

/-- The size of an `ELFProgramHeader`. -/
def programHeaderSize : ℕ := 32

variable {dev : Device} {part : Partition} {overlay : Overlay} {s s' : Loader}

/-! ### The reads -/

/-- A read asks for no more than the buffer holds that it goes to. -/
def LoadEvent.Capped : LoadEvent → Prop
  | .opened _ _ => True
  | .read _ n dataOut _ =>
    (dataOut = headerBuffer → n ≤ memoryElfSize) ∧ (dataOut = loadBuffer → n ≤ memoryLoadSize)
  | .written _ _ => True

/-- A step has not logged reads but capped ones. -/
def AddsCapped (s s' : Loader) : Prop := ∃ l, s'.log = l ++ s.log ∧ ∀ e ∈ l, e.Capped

lemma AddsCapped.of_log {e : LoadEvent} (h : s'.log = e :: s.log) (he : e.Capped) : AddsCapped s s' :=
  ⟨[e], h, by simpa using he⟩

/-- **The segments are read in capped pieces.** -/
theorem addsCapped_respected (dev : Device) (part : Partition) (overlay : Overlay) :
    Respected dev part overlay AddsCapped where
  refl _ := ⟨[], rfl, by simp⟩
  trans := by
    rintro s s' s'' ⟨l, hl, hcap⟩ ⟨l', hl', hcap'⟩
    refine ⟨l' ++ l, by rw [hl', hl, List.append_assoc], fun e he => ?_⟩
    exact (List.mem_append.mp he).elim (hcap' e) (hcap e)
  mem _ _ := ⟨[], rfl, by simp⟩
  written _ _ _ _ := .of_log rfl trivial
  printf _ _ := ⟨[], rfl, by simp⟩
  opens _ _ _ _ := .of_log rfl trivial
  reads file n s hn := by
    refine .of_log (fatRead_log dev part file n loadBuffer s) ⟨fun h => ?_, fun _ => hn⟩
    exact absurd h (by decide)
  closes _ _ := ⟨[], rfl, by simp⟩

lemma AddsCapped.all_iff (h : AddsCapped s s') :
    (∀ e ∈ s'.log, e.Capped) ↔ ∀ e ∈ s.log, e.Capped := by
  obtain ⟨l, hl, hcap⟩ := h
  rw [hl]
  constructor
  · exact fun hall e he => hall e (List.mem_append_right _ he)
  · exact fun hall e he => (List.mem_append.mp he).elim (hcap e) (hall e)

lemma loadImage_capped {fuel : ℕ} {path : List UInt8} {names : ℕ → NameBuffer} {file : Option Loc}
    {position entrySize entryCount gap : UInt32} {t u : Loader} {done : Bool}
    (hskip : fatRead dev part file (position - headerSize) headerBuffer s = (.ok gap, t))
    (htable : readAll dev part file (entrySize * entryCount) headerBuffer "ELF Load error\n" t =
      (.ok done, u)) :
    (∀ e ∈ (loadImage dev part overlay fuel path names file position entrySize entryCount s).2.log,
        e.Capped) ↔
      position - headerSize ≤ memoryElfSize ∧ entrySize * entryCount ≤ memoryElfSize ∧
        ∀ e ∈ s.log, e.Capped := by
  have hskip_log := fatRead_log dev part file (position - headerSize) headerBuffer s
  have htable_log := readAll_log dev part file (entrySize * entryCount) headerBuffer "ELF Load error\n" t
  rw [hskip] at hskip_log
  rw [htable] at htable_log
  have hrest : AddsCapped u
      (loadImage dev part overlay fuel path names file position entrySize entryCount s).2 := by
    have hr := addsCapped_respected dev part overlay
    rw [loadImage, hskip]
    dsimp only
    rw [htable]
    cases done with
    | false => exact hr.refl u
    | true =>
      have hc := hr.closes file u
      dsimp only
      split
      · next heq => rw [heq] at hc; exact hc
      · next heq => rw [heq] at hc; exact hr.trans hc (hr.loadSegments fuel path names _ _ _ _)
  have hheader : headerBuffer ≠ loadBuffer := by decide
  rw [hrest.all_iff, htable_log, hskip_log]
  simp only [List.forall_mem_cons, LoadEvent.Capped, hheader, forall_const, IsEmpty.forall_iff, and_true]
  exact and_left_comm

/-! ### The program headers that are looked at -/

/-- The numbers of the program headers that the loop looks at, from number `i` on. -/
def headersInspected (dev : Device) (part : Partition) (overlay : Overlay) (fuel : ℕ) (path : List UInt8)
    (names : ℕ → NameBuffer) (entrySize : UInt32) : ℕ → ℕ → Loader → List ℕ
  | 0, _, _ => []
  | left + 1, i, s =>
    i :: match loadSegment dev part overlay fuel path (names (i + 1))
        (headerBuffer + UInt32.ofNat i * entrySize) s with
      | (.ok true, s) => headersInspected dev part overlay fuel path names entrySize left (i + 1) s
      | _ => []

/-- A program header is looked at if the loop comes through the ones before it. -/
lemma mem_headersInspected {fuel : ℕ} {path : List UInt8} {names : ℕ → NameBuffer} {entrySize : UInt32} :
    ∀ (left i j : ℕ) (s : Loader),
      j ∈ headersInspected dev part overlay fuel path names entrySize left i s ↔
      ∃ k < left, j = i + k ∧ (loadSegments dev part overlay fuel path names entrySize k i s).1 = .ok true := by
  intro left
  induction left with
  | zero => simp [headersInspected]
  | succ left ih =>
    intro i j s
    rw [headersInspected, List.mem_cons]
    have hstep : ∀ k, loadSegments dev part overlay fuel path names entrySize (k + 1) i s =
        match loadSegment dev part overlay fuel path (names (i + 1))
          (headerBuffer + UInt32.ofNat i * entrySize) s with
        | (.ok true, s) => loadSegments dev part overlay fuel path names entrySize k (i + 1) s
        | r => r := fun k => rfl
    constructor
    · rintro (rfl | hj)
      · exact ⟨0, Nat.succ_pos _, rfl, rfl⟩
      · split at hj
        · next t heq =>
          obtain ⟨k, hk, rfl, hrun⟩ := (ih (i + 1) j t).mp hj
          refine ⟨k + 1, by omega, by omega, ?_⟩
          rw [hstep, heq]
          exact hrun
        · cases hj
    · rintro ⟨k, hk, rfl, hrun⟩
      cases k with
      | zero => exact Or.inl rfl
      | succ k =>
        right
        rw [hstep] at hrun
        split at hrun
        · next t heq => exact (ih (i + 1) _ t).mpr ⟨k, by omega, by omega, hrun⟩
        · next hne => exact (hne _ (Prod.ext hrun rfl)).elim

lemma loadSegments_prefix {fuel : ℕ} {path : List UInt8} {names : ℕ → NameBuffer} {entrySize : UInt32} :
    ∀ {k n : ℕ} (i : ℕ) (s : Loader), k ≤ n →
      (loadSegments dev part overlay fuel path names entrySize n i s).1 = .ok true →
      (loadSegments dev part overlay fuel path names entrySize k i s).1 = .ok true := by
  intro k
  induction k with
  | zero => exact fun _ _ _ _ => rfl
  | succ k ih =>
    intro n i s hk hrun
    cases n with
    | zero => exact absurd hk (by omega)
    | succ n =>
      rw [loadSegments] at hrun ⊢
      split at hrun
      · exact ih _ _ (by omega) hrun
      · next hne => exact (hne _ (Prod.ext hrun rfl)).elim

/-- How many of the first program headers lie wholly in the table. -/
def headersInside (entrySize entryCount : ℕ) : ℕ :=
  if entrySize * entryCount < programHeaderSize then 0
  else (entrySize * entryCount - programHeaderSize) / entrySize + 1

lemma lt_headersInside {entrySize entryCount i : ℕ} :
    i < headersInside entrySize entryCount ↔ i * entrySize + programHeaderSize ≤ entrySize * entryCount := by
  have hsize : programHeaderSize = 32 := rfl
  rw [headersInside]
  split_ifs with h
  · exact iff_of_false (Nat.not_lt_zero i) (by omega)
  · have hpos : 0 < entrySize := Nat.pos_of_mul_pos_right (show 0 < entrySize * entryCount by omega)
    rw [Nat.lt_succ_iff, Nat.le_div_iff_mul_le hpos]
    omega

lemma le_headersInside {entrySize entryCount : ℕ} :
    entryCount ≤ headersInside entrySize entryCount ↔ programHeaderSize ≤ entrySize ∨ entryCount = 0 := by
  cases entryCount with
  | zero => simp
  | succ n =>
    rw [Nat.succ_le_iff, lt_headersInside, Nat.mul_succ, Nat.mul_comm n]
    omega

/-- The headers that the loop looks at lie in the table, unless it comes to the first one that does not. -/
lemma headersInspected_inside {fuel : ℕ} {path : List UInt8} {names : ℕ → NameBuffer}
    {entrySize : UInt32} {left size : ℕ} {s : Loader} :
    (∀ j ∈ headersInspected dev part overlay fuel path names entrySize left 0 s,
        j * size + programHeaderSize ≤ size * left) ↔
      programHeaderSize ≤ size ∨ left = 0 ∨
        headersInside size left ∉ headersInspected dev part overlay fuel path names entrySize left 0 s := by
  simp only [← lt_headersInside]
  constructor
  · intro h
    exact Or.inr (Or.inr fun hmem => absurd (h _ hmem) (lt_irrefl _))
  · intro h j hj
    obtain ⟨k, hk, rfl, hrun⟩ := (mem_headersInspected left 0 j s).mp hj
    by_contra hout
    rcases or_assoc.mpr h with hall | hnot
    · exact hout (by have := le_headersInside.mpr hall; omega)
    · refine hnot ((mem_headersInspected left 0 _ s).mpr ⟨_, by omega, (Nat.zero_add _).symm, ?_⟩)
      exact loadSegments_prefix 0 s (by omega) hrun

/-- **The loop comes to a program header if and only if no segment before it ends behind the file.** The headers
before it are in the table, and the segments that are loaded are apart from what the loop works with. -/
theorem mem_headersInspected_of_follow (hrel : dev.Reliable) {f : FatData} {entry : DirectoryEntry}
    {chain : List UInt32} (hspc : 0 < f.sectorsPerCluster.toNat) (hfile : IsFile dev part f entry chain)
    {fuel : ℕ} (hfuel : 0x10000 ≤ fuel) {path : List UInt8} {names : ℕ → NameBuffer} {entrySize : UInt32}
    {table : ℕ → UInt8} {total n : ℕ} (htotal : total ≤ 0x10000)
    (hin : ∀ j < n, j * entrySize.toNat + programHeaderSize ≤ total) :
    ∀ (d i left : ℕ) (s : Loader), i + d = n → d < left → Serving dev part f s →
      (∀ k < total, s.mem.view headerBuffer k = tableSeen table entrySize.toNat i k) →
      (∀ e ∈ (loadSegments dev part overlay fuel path names entrySize left i s).2.log,
        Sound dev part entry e) →
      Resolved (loadSegments dev part overlay fuel path names entrySize left i s).2.log →
      (∀ j, i ≤ j → j < n →
        (∀ k, i ≤ k → k < j → ¬ EndsBehind entry.size.toNat (headerSeen table entrySize.toNat k)) →
          SegmentApart (headerSeen table entrySize.toNat j)) →
      (n ∈ headersInspected dev part overlay fuel path names entrySize left i s ↔
        ∀ j, i ≤ j → j < n → ¬ EndsBehind entry.size.toNat (headerSeen table entrySize.toNat j)) := by
  intro d
  induction d with
  | zero =>
    intro i left s hn hleft _ _ _ _ _
    obtain ⟨left, rfl⟩ := Nat.exists_eq_add_of_lt hleft
    rw [headersInspected, hn.symm]
    exact iff_of_true (List.mem_cons_self ..) fun j hj hj' => absurd hj' (by omega)
  | succ d ih =>
    intro i left s hn hleft hs hbytes hsound hres hapart
    obtain ⟨left, rfl⟩ : ∃ l, left = l + 1 := ⟨left - 1, by omega⟩
    have hheader := hin i (by omega)
    have hsize : programHeaderSize = 32 := rfl
    have hph : headerBuffer + UInt32.ofNat i * entrySize =
        headerBuffer + UInt32.ofNat (i * entrySize.toNat) := by
      rw [UInt32.ofNat_mul, UInt32.ofNat_toNat]
    have hseen : ∀ j < 32, s.header (headerBuffer + UInt32.ofNat i * entrySize) j =
        headerSeen table entrySize.toNat i j := fun j hj => by
      rw [Loader.header, hph, view_shift, hbytes _ (by omega)]
      rfl
    have hlog : (loadSegment dev part overlay fuel path (names (i + 1))
        (headerBuffer + UInt32.ofNat i * entrySize) s).2.log <:+
        (loadSegments dev part overlay fuel path names entrySize (left + 1) i s).2.log := by
      rw [loadSegments]
      split
      · next t heq =>
        rw [heq]
        exact loadSegments_log dev part overlay fuel path names entrySize left (i + 1) t
      · exact List.suffix_rfl
    obtain ⟨u, hrun, hgo⟩ := loadSegment_follow hrel hspc hfile hs (by omega) hph hfuel
      (fun e he => hsound e (hlog.subset he)) (hres.of_suffix hlog)
      ((segmentApart_congr hseen).mpr (hapart i le_rfl (by omega) fun k hk hk' => absurd hk' (by omega)))
    rw [endsBehind_congr hseen] at hgo
    rw [headersInspected, List.mem_cons, or_iff_right (by omega), hrun]
    rw [loadSegments, hrun] at hsound hres
    by_cases hbehind : EndsBehind entry.size.toNat (headerSeen table entrySize.toNat i)
    · rw [decide_eq_false (by rw [endsBehind_congr hseen]; exact not_not.mpr hbehind)]
      exact iff_of_false (by simp) fun h => h i le_rfl (by omega) hbehind
    · rw [decide_eq_true (by rwa [endsBehind_congr hseen])] at hsound hres ⊢
      obtain ⟨hserving, hbuffer⟩ := hgo hbehind
      refine (ih (i + 1) left u (by omega) (by omega) hserving (fun k hk => ?_) hsound hres
        fun j hj hj' h => hapart j (by omega) hj' fun k hk hk' => ?_).trans
        ⟨fun h j hj hj' => ?_, fun h j hj => h j (by omega)⟩
      · exact (hbuffer k (by omega)).trans (headerBehind_congr (by omega) hbytes k hk)
      · rcases Nat.eq_or_lt_of_le hk with rfl | hlt
        · exact hbehind
        · exact h k hlt hk'
      · rcases Nat.eq_or_lt_of_le hj with rfl | hlt
        · exact hbehind
        · exact h j hlt hj'

/-! ### A run -/

/-- The program headers that are looked at behind the ELF header. -/
def imageInspected (dev : Device) (part : Partition) (overlay : Overlay) (fuel : ℕ) (path : List UInt8)
    (names : ℕ → NameBuffer) (file : Option Loc)
    (programHeaderOffset programHeaderTableEntrySize programHeaderTableEntryCount : UInt32)
    (s : Loader) : List ℕ :=
  match fatRead dev part file (programHeaderOffset - headerSize) headerBuffer s with
  | (.error _, _) => []
  | (.ok _, s) =>
    match readAll dev part file (programHeaderTableEntrySize * programHeaderTableEntryCount) headerBuffer
        "ELF Load error\n" s with
    | (.ok true, s) =>
      match fatClose file s with
      | (.error _, _) => []
      | (.ok (), s) => headersInspected dev part overlay fuel path names programHeaderTableEntrySize
          programHeaderTableEntryCount.toNat 0 s
    | _ => []

/-- The ELF header of a run that gets so far. -/
def headerRead (dev : Device) (part : Partition) (fuel : ℕ) (path : List UInt8)
    (names : ℕ → NameBuffer) (s : Loader) : Option (ℕ → UInt8) :=
  match fatOpen dev part fuel path (names 0) s with
  | (.error _, _) => none
  | (.ok fd, s) =>
    match readAll dev part fd headerSize headerBuffer "ELF Load error!\n" s with
    | (.ok true, s) => some (s.mem.view headerBuffer)
    | _ => none

/-- The numbers of the program headers that `ELF_Read` looks at. -/
def inspected (dev : Device) (part : Partition) (overlay : Overlay) (fuel : ℕ) (path : List UInt8)
    (names : ℕ → NameBuffer) (s : Loader) : List ℕ :=
  match fatOpen dev part fuel path (names 0) s with
  | (.error _, _) => []
  | (.ok fd, s) =>
    match readAll dev part fd headerSize headerBuffer "ELF Load error!\n" s with
    | (.ok true, s) =>
      let header := s.mem.view headerBuffer
      imageInspected dev part overlay fuel path names fd (ELFHeader.programHeaderTablePosition header)
        (ELFHeader.programHeaderTableEntrySize header) (ELFHeader.programHeaderTableEntryCount header)
        { s with entryPoint := ELFHeader.programEntryPosition header }
    | _ => []

lemma imageInspected_inside {fuel : ℕ} {path : List UInt8} {names : ℕ → NameBuffer} {file : Option Loc}
    {position entrySize entryCount : UInt32} :
    (∀ j ∈ imageInspected dev part overlay fuel path names file position entrySize entryCount s,
        j * entrySize.toNat + programHeaderSize ≤ entrySize.toNat * entryCount.toNat) ↔
      programHeaderSize ≤ entrySize.toNat ∨ entryCount.toNat = 0 ∨
        headersInside entrySize.toNat entryCount.toNat ∉
          imageInspected dev part overlay fuel path names file position entrySize entryCount s := by
  rw [imageInspected]
  split
  · simp
  · split
    · split
      · simp
      · exact headersInspected_inside
    · simp

/-- A run keeps its requests in bounds: no read asks for more than its buffer holds, the difference of the
offset of the table and the position in the file does not wrap, the product of two `uint16_t`, an `int`, does
not overflow, and the program headers that are looked at lie in the table that was read. -/
structure InBounds (dev : Device) (part : Partition) (overlay : Overlay) (fuel : ℕ) (path : List UInt8)
    (names : ℕ → NameBuffer) (s : Loader) : Prop where
  requests : ∀ e ∈ (elfRead dev part overlay fuel path names s).2.log, e.Capped
  difference : ∀ b, headerRead dev part fuel path names s = some b →
    headerSize ≤ ELFHeader.programHeaderTablePosition b
  product : ∀ b, headerRead dev part fuel path names s = some b →
    (ELFHeader.programHeaderTableEntrySize b).toNat * (ELFHeader.programHeaderTableEntryCount b).toNat < 2 ^ 31
  headers : ∀ b, headerRead dev part fuel path names s = some b →
    ∀ i ∈ inspected dev part overlay fuel path names s,
    i * (ELFHeader.programHeaderTableEntrySize b).toNat + programHeaderSize ≤
      (ELFHeader.programHeaderTableEntrySize b).toNat * (ELFHeader.programHeaderTableEntryCount b).toNat

/-- The header puts the table behind itself, and neither the bytes up to it nor the table are more than the
header buffer holds. -/
structure TableFits (file : ℕ → UInt8) : Prop where
  behind : headerSize ≤ ELFHeader.programHeaderTablePosition file
  gap : ELFHeader.programHeaderTablePosition file - headerSize ≤ memoryElfSize
  table : (ELFHeader.programHeaderTableEntrySize file).toNat *
    (ELFHeader.programHeaderTableEntryCount file).toNat ≤ memoryElfSize.toNat

lemma table_toNat (file : ℕ → UInt8) :
    (ELFHeader.programHeaderTableEntrySize file * ELFHeader.programHeaderTableEntryCount file).toNat =
      (ELFHeader.programHeaderTableEntrySize file).toNat *
        (ELFHeader.programHeaderTableEntryCount file).toNat := by
  have hsize : (ELFHeader.programHeaderTableEntrySize file).toNat ≤ 65535 := by
    rw [ELFHeader.programHeaderTableEntrySize, UInt16.toNat_toUInt32]
    exact Nat.le_of_lt_succ (UInt16.toNat_lt _)
  have hcount : (ELFHeader.programHeaderTableEntryCount file).toNat ≤ 65535 := by
    rw [ELFHeader.programHeaderTableEntryCount, UInt16.toNat_toUInt32]
    exact Nat.le_of_lt_succ (UInt16.toNat_lt _)
  rw [UInt32.toNat_mul, Nat.mod_eq_of_lt (lt_of_le_of_lt (Nat.mul_le_mul hsize hcount) (by decide))]

lemma behind_header {fuel : ℕ} {path : List UInt8} {names : ℕ → NameBuffer} {fd : Option Loc}
    {file : ℕ → UInt8} {t u : Loader} (hopen : fatOpen dev part fuel path (names 0) s = (.ok fd, t))
    (hread : readAll dev part fd headerSize headerBuffer "ELF Load error!\n" t = (.ok true, u))
    (hmem : u.mem = s.mem.store headerBuffer (stretch file 0 headerSize.toNat)) :
    ∃ b v, v.fat = u.fat ∧ v.log = u.log ∧ headerRead dev part fuel path names s = some b ∧
      ELFHeader.programHeaderTablePosition b = ELFHeader.programHeaderTablePosition file ∧
      ELFHeader.programHeaderTableEntrySize b = ELFHeader.programHeaderTableEntrySize file ∧
      ELFHeader.programHeaderTableEntryCount b = ELFHeader.programHeaderTableEntryCount file ∧
      elfRead dev part overlay fuel path names s = loadImage dev part overlay fuel path names fd
        (ELFHeader.programHeaderTablePosition file) (ELFHeader.programHeaderTableEntrySize file)
        (ELFHeader.programHeaderTableEntryCount file) v ∧
      inspected dev part overlay fuel path names s = imageInspected dev part overlay fuel path names fd
        (ELFHeader.programHeaderTablePosition file) (ELFHeader.programHeaderTableEntrySize file)
        (ELFHeader.programHeaderTableEntryCount file) v := by
  obtain ⟨hposition, hentry, hcount, -⟩ := header_fields hmem
  refine ⟨u.mem.view headerBuffer,
    { u with entryPoint := ELFHeader.programEntryPosition (u.mem.view headerBuffer) },
    rfl, rfl, ?_, hposition, hentry, hcount, ?_, ?_⟩
  · rw [headerRead, hopen]
    dsimp only
    rw [hread]
  · rw [elfRead, hopen]
    dsimp only
    rw [hread]
    dsimp only
    rw [hposition, hentry, hcount]
  · rw [inspected, hopen]
    dsimp only
    rw [hread]
    dsimp only
    rw [hposition, hentry, hcount]

lemma inBounds_iff_of_header {fuel : ℕ} {path : List UInt8} {names : ℕ → NameBuffer} {b : ℕ → UInt8}
    (hb : headerRead dev part fuel path names s = some b) : InBounds dev part overlay fuel path names s ↔
      (∀ e ∈ (elfRead dev part overlay fuel path names s).2.log, e.Capped) ∧
      headerSize ≤ ELFHeader.programHeaderTablePosition b ∧
      (ELFHeader.programHeaderTableEntrySize b).toNat *
        (ELFHeader.programHeaderTableEntryCount b).toNat < 2 ^ 31 ∧
      ∀ i ∈ inspected dev part overlay fuel path names s,
        i * (ELFHeader.programHeaderTableEntrySize b).toNat + programHeaderSize ≤
          (ELFHeader.programHeaderTableEntrySize b).toNat *
            (ELFHeader.programHeaderTableEntryCount b).toNat := by
  constructor
  · exact fun h => ⟨h.requests, h.difference b hb, h.product b hb, h.headers b hb⟩
  · rintro ⟨hreq, hdiff, hprod, hhead⟩
    refine ⟨hreq, fun b' hb' => ?_, fun b' hb' => ?_, fun b' hb' => ?_⟩
    all_goals
      obtain rfl : b = b' := Option.some.inj (hb.symm.trans hb')
      assumption

/-! ### The loop, on the file -/

section File

variable (file : ℕ → UInt8)

/-- How many of the first program headers of a file lie wholly in its table. -/
def wholeHeaders : ℕ :=
  headersInside (ELFHeader.programHeaderTableEntrySize file).toNat (headerCount file)

/-- Program header `j` of a file, as the loop finds it. -/
def seenHeader (j : ℕ) : ℕ → UInt8 :=
  headerSeen (fun k => file ((ELFHeader.programHeaderTablePosition file).toNat + k))
    (ELFHeader.programHeaderTableEntrySize file).toNat j

/-- The loop stays in the table: the program headers are not shorter than 32 bytes, or there are none, or the
table is not in the file, or one that lies in it names a segment that ends behind the file. -/
def StaysInside (size : ℕ) : Prop :=
  programHeaderSize ≤ (ELFHeader.programHeaderTableEntrySize file).toNat ∨ headerCount file = 0 ∨
    ¬ TableInside file size ∨ ∃ j < wholeHeaders file, EndsBehind size (seenHeader file j)

/-- A run on a file with shorter program headers is left alone: the loops may run as long as they need to, every
call of `FAT_Open` brings the file, the lookups find their links, and the segments up to the first that ends
behind the file are not written over the headers or the data of the FAT layer. -/
structure LeftAlone (dev : Device) (part : Partition) (entry : DirectoryEntry) (fuel : ℕ)
    (log : List LoadEvent) : Prop where
  rounds : 0x10000 ≤ fuel
  sound : ∀ e ∈ log, Sound dev part entry e
  found : Resolved log
  apart : ∀ j < wholeHeaders file, (∀ k < j, ¬ EndsBehind entry.size.toNat (seenHeader file k)) →
    SegmentApart (seenHeader file j)

end File

/-- Behind the table the loop begins; without it, it does not. -/
lemma imageInspected_reaches (hrel : dev.Reliable) {f : FatData} {entry : DirectoryEntry} {chain : List UInt32}
    {i : Fin 10} (hspc : 0 < f.sectorsPerCluster.toNat) (hfile : IsFile dev part f entry chain)
    {file : ℕ → UInt8} (hbytes : fileByte dev part f entry chain = file)
    (hat : At dev part f entry chain i headerSize.toNat s.fat) {fuel : ℕ} {path : List UInt8}
    {names : ℕ → NameBuffer} (hfits : TableFits file)
    (hearly : ∀ l, l <:+ (loadImage dev part overlay fuel path names (some (.slot i))
      (ELFHeader.programHeaderTablePosition file) (ELFHeader.programHeaderTableEntrySize file)
      (ELFHeader.programHeaderTableEntryCount file) s).2.log →
        openings l ≤ openings s.log → ∀ e ∈ l, Sound dev part entry e)
    (hcount : wholeHeaders file < headerCount file)
    (hrun : LeftAlone file dev part entry fuel (loadImage dev part overlay fuel path names (some (.slot i))
      (ELFHeader.programHeaderTablePosition file) (ELFHeader.programHeaderTableEntrySize file)
      (ELFHeader.programHeaderTableEntryCount file) s).2.log) :
    wholeHeaders file ∈ imageInspected dev part overlay fuel path names (some (.slot i))
        (ELFHeader.programHeaderTablePosition file) (ELFHeader.programHeaderTableEntrySize file)
        (ELFHeader.programHeaderTableEntryCount file) s ↔
      TableInside file entry.size.toNat ∧
        ∀ j < wholeHeaders file, ¬ EndsBehind entry.size.toNat (seenHeader file j) := by
  obtain ⟨gap, t, u, hskip, htable, -, -, hdone⟩ :=
    table_result hrel hspc hfile hat Prod.mk.eta.symm hearly
  have htotal := hfits.table
  rw [← table_toNat] at htotal
  rw [imageInspected, hskip]
  have hsound := hrun.sound
  have hfound := hrun.found
  rw [loadImage, hskip] at hsound hfound
  dsimp only at hsound hfound ⊢
  rw [htable] at hsound hfound ⊢
  by_cases hinside : TableInside file entry.size.toNat
  · have hle := hinside
    unfold TableInside at hle
    rw [decide_eq_true hle] at hsound hfound ⊢
    dsimp only at hsound hfound ⊢
    obtain ⟨hatend, hmem⟩ := hdone hle
    have hclose : fatClose (some (.slot i)) u = (.ok (), (fatClose (some (.slot i)) u).2) := by
      rw [fatClose, close_slot hatend.deref]
    rw [hclose] at hsound hfound ⊢
    dsimp only at hsound hfound ⊢
    have hserving : Serving dev part f u := ⟨hatend.onChain.volume, hatend.onChain.cache⟩
    have hsize : programHeaderSize = 32 := rfl
    have hmax : memoryElfSize.toNat = 0x10000 := rfl
    -- with a header in it, the table is not empty, and starts at its position
    have hstart : ∀ k < (ELFHeader.programHeaderTableEntrySize file *
        ELFHeader.programHeaderTableEntryCount file).toNat,
        tableStart (ELFHeader.programHeaderTablePosition file) entry.size.toNat =
          (ELFHeader.programHeaderTablePosition file).toNat := fun k hk => by
      have hsub := UInt32.toNat_sub_of_le _ _ hfits.behind
      have hbehind := UInt32.le_iff_toNat_le.mp hfits.behind
      rw [tableStart, hsub] at hle ⊢
      omega
    refine (mem_headersInspected_of_follow hrel hspc hfile hrun.rounds htotal
      (fun j hj => by rw [table_toNat]; exact lt_headersInside.mp hj) (wholeHeaders file) 0 _ _
      (Nat.zero_add _) hcount (hserving.extends hrel (fatClose_extends ..)) (fun k hk => ?_) hsound hfound
      fun j _ hj h => hrun.apart j hj fun k hk => h k (Nat.zero_le k) hk).trans ?_
    · refine (congrFun (congrArg (fun m => Memory.view m headerBuffer) hmem) k).trans ?_
      rw [view_store _ _ _ (by rw [length_stretch]; exact hk) (by omega), List.getD_eq_getElem?_getD,
        getElem?_stretch, if_pos hk, Option.getD_some, hbytes, hstart k hk]
      rfl
    · simp only [Nat.zero_le, forall_const]
      exact (and_iff_right hinside).symm
  · have hle := hinside
    unfold TableInside at hle
    rw [decide_eq_false hle]
    exact iff_of_false (by simp) fun h => hinside h.1

/-- The condition on the file says whether the loop comes to the first header that is not wholly in the table. -/
lemma staysInside_iff (hrel : dev.Reliable) {f : FatData} {entry : DirectoryEntry} {chain : List UInt32}
    {i : Fin 10} (hspc : 0 < f.sectorsPerCluster.toNat) (hfile : IsFile dev part f entry chain)
    {file : ℕ → UInt8} (hbytes : fileByte dev part f entry chain = file)
    (hat : At dev part f entry chain i headerSize.toNat s.fat) {fuel : ℕ} {path : List UInt8}
    {names : ℕ → NameBuffer}
    (hearly : ∀ l, l <:+ (loadImage dev part overlay fuel path names (some (.slot i))
      (ELFHeader.programHeaderTablePosition file) (ELFHeader.programHeaderTableEntrySize file)
      (ELFHeader.programHeaderTableEntryCount file) s).2.log →
        openings l ≤ openings s.log → ∀ e ∈ l, Sound dev part entry e)
    (halone : (ELFHeader.programHeaderTableEntrySize file).toNat < programHeaderSize →
      LeftAlone file dev part entry fuel (loadImage dev part overlay fuel path names (some (.slot i))
        (ELFHeader.programHeaderTablePosition file) (ELFHeader.programHeaderTableEntrySize file)
        (ELFHeader.programHeaderTableEntryCount file) s).2.log) (hfits : TableFits file) :
    StaysInside file entry.size.toNat ↔
      programHeaderSize ≤ (ELFHeader.programHeaderTableEntrySize file).toNat ∨
        headerCount file = 0 ∨ wholeHeaders file ∉ imageInspected dev part overlay fuel path names
          (some (.slot i)) (ELFHeader.programHeaderTablePosition file)
          (ELFHeader.programHeaderTableEntrySize file) (ELFHeader.programHeaderTableEntryCount file) s := by
  unfold StaysInside
  by_cases hsize : programHeaderSize ≤ (ELFHeader.programHeaderTableEntrySize file).toNat
  · exact iff_of_true (.inl hsize) (.inl hsize)
  rw [or_iff_right hsize, or_iff_right hsize]
  by_cases hnone : headerCount file = 0
  · exact iff_of_true (.inl hnone) (.inl hnone)
  rw [or_iff_right hnone, or_iff_right hnone]
  have hcount : wholeHeaders file < headerCount file := by
    by_contra hle
    exact (le_headersInside.mp (not_lt.mp hle)).elim hsize hnone
  have hreach := imageInspected_reaches hrel hspc hfile hbytes hat hfits hearly hcount (halone (not_le.mp hsize))
  refine (not_iff_not.mpr hreach).trans ?_ |>.symm
  rw [not_and_or]
  simp only [not_forall, not_not, exists_prop]

/-- **When `ELF_Read` keeps its requests in bounds.** The file is found, and what is done before a segment is
begun finds this file and its links; a file whose program headers are shorter than 32 bytes is left alone. The
requests stay in bounds if and only if the file is cut off in its header, or its header describes a table
that fits and the loop does not come to a program header that is not wholly in the table. -/
theorem elfRead_inBounds_iff (dev : Device) (part : Partition) (hrel : dev.Reliable) (s : St)
    (hr : Reachable (bootLayer dev part) s) (entry : DirectoryEntry) (chain : List UInt32)
    (hfile : IsFile dev part s.fat entry chain) (overlay : Overlay) (m : Memory) (entryPoint : UInt32)
    (fuel : ℕ) (path : List UInt8) (names : ℕ → NameBuffer) (p : Loc)
    (hopen : (Boot.fatOpen dev part fuel path (names 0) s).1 = .ok (some p))
    (hsound : ∀ l, l <:+ (elfRead dev part overlay fuel path names ⟨s, m, entryPoint, []⟩).2.log →
      openings l ≤ 1 → ∀ e ∈ l, Sound dev part entry e)
    (halone : (ELFHeader.programHeaderTableEntrySize (fileByte dev part s.fat entry chain)).toNat <
        programHeaderSize → LeftAlone (fileByte dev part s.fat entry chain) dev part entry fuel
      (elfRead dev part overlay fuel path names ⟨s, m, entryPoint, []⟩).2.log) :
    InBounds dev part overlay fuel path names ⟨s, m, entryPoint, []⟩ ↔
      entry.size.toNat < headerSize.toNat ∨ (TableFits (fileByte dev part s.fat entry chain) ∧
        StaysInside (fileByte dev part s.fat entry chain) entry.size.toNat) := by
  obtain ⟨i, t, u, rfl, ho, htlog, hread, hulog, hone, hmem, hat⟩ := header_result hrel
    hr.sectorsPerCluster hfile (s := ⟨s, m, entryPoint, []⟩) ⟨.refl _, hr.coherent hrel⟩ rfl
    (Prod.mk.eta.symm) hopen hsound
  have hlog : ∀ e ∈ u.log, e.Capped := by
    rw [hulog, htlog]
    simp only [List.forall_mem_cons, LoadEvent.Capped]
    exact ⟨⟨fun _ => by decide, fun h => absurd h (by decide)⟩, trivial, by simp⟩
  by_cases hsize : headerSize.toNat ≤ entry.size.toNat
  · rw [decide_eq_true hsize] at hread
    rw [min_eq_left hsize] at hmem
    obtain ⟨b, v, hvfat, hvlog, hb, hposition, hentry, hcount, hrun, hinspected⟩ :=
      behind_header ho hread hmem
    obtain ⟨gap, t', u', hskip, htable, -⟩ := table_result hrel hr.sectorsPerCluster hfile
      (hvfat.symm ▸ hat hsize) (hrun.symm.trans Prod.mk.eta.symm) fun l hl hle =>
        hsound l hl (hle.trans (by rw [hvlog, hone]))
    rw [inBounds_iff_of_header hb, hrun, loadImage_capped hskip htable, hposition, hentry, hcount, hinspected,
      imageInspected_inside,
      or_iff_right (not_lt.mpr hsize), hvlog, UInt32.le_iff_toNat_le, UInt32.le_iff_toNat_le, table_toNat]
    rw [hrun] at hsound halone
    have hstays := staysInside_iff hrel hr.sectorsPerCluster hfile rfl (hvfat.symm ▸ hat hsize)
      (fun l hl hle => hsound l hl (hle.trans (by rw [hvlog, hone]))) halone
    constructor
    · rintro ⟨⟨hgap, htab, -⟩, hbehind, -, hhead⟩
      have hfits : TableFits _ := ⟨hbehind, hgap, htab⟩
      exact ⟨hfits, (hstays hfits).mpr hhead⟩
    · rintro ⟨hfits, hinside⟩
      exact ⟨⟨hfits.gap, hfits.table, hlog⟩, hfits.behind, lt_of_le_of_lt hfits.table (by decide),
        (hstays hfits).mp hinside⟩
  · rw [decide_eq_false hsize] at hread
    refine iff_of_true ?_ (Or.inl (not_le.mp hsize))
    have hnone : headerRead dev part fuel path names ⟨s, m, entryPoint, []⟩ = none := by
      rw [headerRead, ho]
      dsimp only
      rw [hread]
    refine ⟨?_, fun b hb => ?_, fun b hb => ?_, fun b hb => ?_⟩
    · rw [elfRead, ho]
      dsimp only
      rw [hread]
      exact hlog
    all_goals
      rw [hnone] at hb
      cases hb

lemma segmentApart_of_range {b : ℕ → UInt8}
    (hsize : ELFProgramHeader.fileSize b ≤ ELFProgramHeader.memorySize b)
    (hheader : FarBehind headerBuffer b) (hfat : FarBehind fatData b) : SegmentApart b := by
  intro _ a ha
  rw [UInt32.le_iff_toNat_le] at hsize
  rw [max_eq_right hsize] at ha
  exact ⟨range_apart hheader.1 hheader.2 ha, range_apart hfat.1 hfat.2 ha⟩

/-- The small executable with four program headers of 16 bytes, of which the first names a segment that ends
behind the file. -/
def shortFile : List UInt8 := ((smallFile.set 42 16).set 44 4).set 56 200 ++ List.replicate 34 0

def shortDevice : Device := .ofDisk (executableDisk shortFile)

/-- Its run has all the rounds it needs. -/
def shortRun : Except Stop Bool × Loader :=
  elfRead shortDevice (hardDiskPartition 0) (fun _ => id) 0x10000 [75] (fun _ => blankName)
    (loaderOn shortDevice)

lemma short_checked : ∀ e ∈ shortRun.2.log,
    Checked shortDevice (hardDiskPartition 0) (entryK 122) 0 e := by decide +kernel

/-- The run gives up at the first program header, before it comes to one that is not wholly in the table. -/
theorem elfRead_inBounds_iff_short :
    InBounds shortDevice (hardDiskPartition 0) (fun _ => id) 0x10000 [75] (fun _ => blankName)
      ⟨(loaderOn shortDevice).fat, fun _ => 1, 0, []⟩ := by
  have hrun : elfRead shortDevice (hardDiskPartition 0) (fun _ => id) 0x10000 [75] (fun _ => blankName)
      ⟨(loaderOn shortDevice).fat, fun _ => 1, 0, []⟩ = shortRun := rfl
  have hsound : ∀ e ∈ shortRun.2.log, Sound shortDevice (hardDiskPartition 0) (entryK 122) e :=
    fun e he => (short_checked e he).sound fun _ _ => rfl
  have hbehind : EndsBehind (entryK 122).size.toNat (seenHeader (fileByte shortDevice (hardDiskPartition 0)
      (loaderOn shortDevice).fat.fat (entryK 122) [2]) 0) := by decide +kernel
  have hiff := elfRead_inBounds_iff shortDevice (hardDiskPartition 0) (fun _ _ => rfl)
    (loaderOn shortDevice).fat (mounted_reachable (by decide +kernel)) (entryK 122) [2]
    (entryK_isFile shortFile (by decide +kernel) (by decide +kernel)) (fun _ => id) (fun _ => 1) 0 0x10000 [75]
    (fun _ => blankName) (.slot 0) (by decide +kernel)
  rw [hrun] at hiff
  refine (hiff (fun l hl _ e he => hsound e (hl.subset he)) fun _ =>
    ⟨le_rfl, hsound, resolved_of_checked short_checked, fun j _ hj => ?_⟩).mpr (.inr ⟨?_, ?_⟩)
  · obtain rfl : j = 0 := by
      by_contra hne
      exact hj 0 (Nat.pos_of_ne_zero hne) hbehind
    exact segmentApart_of_range (by decide +kernel) (by decide +kernel) (by decide +kernel)
  · exact ⟨by decide +kernel, by decide +kernel, by decide +kernel⟩
  · exact .inr (.inr (.inr ⟨0, by decide +kernel, hbehind⟩))

/-- The small executable with the table of its program headers at 0, in front of the end of the header. -/
def backwardFile : List UInt8 := smallFile.set 28 0

def backwardDevice : Device := .ofDisk (executableDisk backwardFile)

/-- The bytes up to the table are 2 ^ 32 - 52, and as many are asked for. -/
theorem elfRead_backward :
    Reachable (bootLayer backwardDevice (hardDiskPartition 0)) (loaderOn backwardDevice).fat ∧
    IsFile backwardDevice (hardDiskPartition 0) (loaderOn backwardDevice).fat.fat (entryK 88) [2] ∧
    (∀ e ∈ (runOn backwardDevice).2.log, Sound backwardDevice (hardDiskPartition 0) (entryK 88) e) ∧
    (runOn backwardDevice).2.log.map (fun e => match e with
      | .opened _ _ => none
      | .read _ n dataOut _ => some (n, dataOut)
      | .written _ _ => none) =
        [some (32, headerBuffer), some (4294967244, headerBuffer), some (52, headerBuffer), none] ∧
    ¬ InBounds backwardDevice (hardDiskPartition 0) (fun _ => id) 17 [75] (fun _ => blankName)
      (loaderOn backwardDevice) := by
  have hlog : ∀ e ∈ (runOn backwardDevice).2.log,
      Checked backwardDevice (hardDiskPartition 0) (entryK 88) 0 e := by decide +kernel
  refine ⟨mounted_reachable (by decide +kernel),
    entryK_isFile backwardFile (by decide +kernel) (by decide +kernel),
    fun e he => (hlog e he).sound fun _ _ => rfl, by decide +kernel, fun h => ?_⟩
  have hzero : (headerRead backwardDevice (hardDiskPartition 0) 17 [75] (fun _ => blankName)
      (loaderOn backwardDevice)).map ELFHeader.programHeaderTablePosition = some 0 := by decide +kernel
  obtain ⟨b, hb, hposition⟩ := Option.map_eq_some_iff.mp hzero
  have hbehind := h.difference b hb
  rw [hposition] at hbehind
  exact absurd hbehind (by decide)

end ArcOS.Elf
