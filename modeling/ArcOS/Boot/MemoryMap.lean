import ArcOS.Lib.Loop
import Mathlib.Algebra.Order.Group.Nat
import Mathlib.Data.List.Basic

/-!
The memory map of the boot loader: `mem_Detect`, over `x86_E820GetNextBlock` and INT 15h.

The BIOS is a parameter: what it answers to a continuation value, with a state of its own. The loop
stores a descriptor only after a test of the continuation value that came with it, and nothing but the
BIOS ends it.
-/

namespace ArcOS.Boot

/-! ### `x86.asm` -/

/-- `E820MemoryBlock` -/
structure E820MemoryBlock where
  base : UInt64
  length : UInt64
  type : UInt32
  acpi : UInt32
  deriving DecidableEq

/-- The registers INT 15h/E820h answers with, and what is in the block then. -/
structure E820Regs where
  eax : UInt32
  ebx : UInt32
  ecx : UInt32
  block : E820MemoryBlock

/-- `E820Signature` -/
def e820Signature : UInt32 := 0x534D4150

/-- What a call of `x86_E820GetNextBlock` leaves: its result, the two variables, and the BIOS. -/
structure Fetched (σ : Type*) where
  ret : Int32
  continuation : UInt32
  block : E820MemoryBlock
  bios : σ

/-- The test of the loop. -/
def Fetched.GoesOn {σ : Type*} (f : Fetched σ) : Prop := 0 < f.ret ∧ f.continuation ≠ 0

instance {σ : Type*} : DecidablePred (Fetched.GoesOn (σ := σ)) := fun f =>
  inferInstanceAs (Decidable (0 < f.ret ∧ f.continuation ≠ 0))

/-! ### `bootparams.h` -/

/-- `MemoryRegion` -/
structure MemoryRegion where
  begin : UInt64
  length : UInt64
  type : UInt32
  acpi : UInt32
  deriving DecidableEq

/-- `MemoryInfo`; the regions are all there is from `g_MemRegions` on. -/
structure MemoryInfo where
  regionCount : ℕ
  regions : ℕ → MemoryRegion

/-! ### `memory.c` -/

/-- `MAX_REGIONS`, the size of `g_MemRegions` -/
def maxRegions : ℕ := 256

/-- The region that is stored for a block. -/
def E820MemoryBlock.region (b : E820MemoryBlock) : MemoryRegion where
  begin := b.base
  length := b.length
  type := b.type
  acpi := b.acpi

/-- The variables of `mem_Detect`, with the indices it has written, latest first. The count is an `int`,
which goes past the table long before it goes past its own range. -/
structure Detecting (σ : Type*) where
  last : Fetched σ
  count : ℕ
  regions : ℕ → MemoryRegion
  written : List ℕ

section Routines

variable {σ : Type*} (int15 : UInt32 → σ → E820Regs × σ)

/-- `x86_E820GetNextBlock` -/
def x86E820GetNextBlock (continuation : UInt32) (s : σ) : Fetched σ :=
  let (r, s) := int15 continuation s
  if r.eax = e820Signature then
    { ret := r.ecx.toInt32, continuation := r.ebx, block := r.block, bios := s }
  else { ret := -1, continuation := continuation, block := r.block, bios := s }

/-- The variables in front of the loop. -/
def detectStart (regions : ℕ → MemoryRegion) (s : σ) : Detecting σ where
  last := x86E820GetNextBlock int15 0 s
  count := 0
  regions := regions
  written := []

/-- The body of the loop; the message it prints is left out. -/
def detectRound (d : Detecting σ) : Detecting σ where
  regions := Function.update d.regions d.count d.last.block.region
  written := d.count :: d.written
  count := d.count + 1
  last := x86E820GetNextBlock int15 d.last.continuation d.last.bios

/-- `mem_Detect`, with the tests its loop may make and what is in the table before -/
def memDetect (fuel : ℕ) (regions : ℕ → MemoryRegion) (s : σ) : Option MemoryInfo :=
  (Lib.whileLoop (fun d => d.last.GoesOn) (detectRound int15) fuel (detectStart int15 regions s)).map
    fun d => { regionCount := d.count, regions := d.regions }

end Routines

/-! ### The answers of the BIOS -/

section Run

variable {σ : Type*} (int15 : UInt32 → σ → E820Regs × σ) (regions : ℕ → MemoryRegion) (s : σ)

/-- What the calls fetch one behind the other, each with the continuation value of the one before. -/
def fetched : ℕ → Fetched σ
  | 0 => x86E820GetNextBlock int15 0 s
  | n + 1 => x86E820GetNextBlock int15 (fetched n).continuation (fetched n).bios

/-- The variables after `n` rounds. -/
def afterRounds (n : ℕ) : Detecting σ where
  last := fetched int15 s n
  count := n
  regions i := if i < n then (fetched int15 s i).block.region else regions i
  written := (List.range n).reverse

lemma detectRound_afterRounds (n : ℕ) :
    detectRound int15 (afterRounds int15 regions s n) = afterRounds int15 regions s (n + 1) := by
  have hregions : Function.update (afterRounds int15 regions s n).regions n
      (fetched int15 s n).block.region = (afterRounds int15 regions s (n + 1)).regions := by
    funext i
    rcases eq_or_ne i n with rfl | hi
    · simp [afterRounds]
    · have hlt : i < n ↔ i < n + 1 := by omega
      simp [afterRounds, hi, hlt]
  have hwritten : n :: (List.range n).reverse = (List.range (n + 1)).reverse := by
    simp [List.range_succ]
  simp only [detectRound]
  change Detecting.mk _ _ (Function.update _ n _) (n :: (List.range n).reverse) = _
  rw [hwritten]
  exact congrArg (fun r => Detecting.mk _ _ r _) hregions

lemma iterate_detectRound (n : ℕ) :
    (detectRound int15)^[n] (detectStart int15 regions s) = afterRounds int15 regions s n := by
  induction n with
  | zero => simp [detectStart, afterRounds, fetched]
  | succ n ih => rw [Function.iterate_succ_apply', ih, detectRound_afterRounds]

variable {int15 regions s}

/-- The loop stops in front of the first block whose call does not go on. -/
lemma memDetect_eq {n fuel : ℕ} (hgoes : ∀ i < n, (fetched int15 s i).GoesOn)
    (hends : ¬ (fetched int15 s n).GoesOn) (hfuel : n < fuel) :
    memDetect int15 fuel regions s =
      some { regionCount := n, regions := (afterRounds int15 regions s n).regions } := by
  have hrounds : ∀ i < n, ((detectRound int15)^[i] (detectStart int15 regions s)).last.GoesOn :=
    fun i hi => by
      rw [iterate_detectRound]
      exact hgoes i hi
  have hstop : ¬ ((detectRound int15)^[n] (detectStart int15 regions s)).last.GoesOn := by
    rw [iterate_detectRound]
    exact hends
  have hloop : Lib.whileLoop (fun d : Detecting σ => d.last.GoesOn) (detectRound int15) fuel
      (detectStart int15 regions s) = some ((detectRound int15)^[n] (detectStart int15 regions s)) :=
    Lib.whileLoop_eq_some hrounds hstop hfuel
  rw [memDetect, hloop, iterate_detectRound, Option.map_some]
  rfl

/-! ### A BIOS that keeps to the protocol -/

/-- The BIOS answers a call, and the calls behind it, with the blocks: one block a call, and the
continuation value 0 exactly with the last one. -/
def Reports (int15 : UInt32 → σ → E820Regs × σ) : UInt32 → σ → List E820MemoryBlock → Prop
  | _, _, [] => False
  | continuation, s, b :: rest =>
    (int15 continuation s).1.eax = e820Signature ∧ 0 < (int15 continuation s).1.ecx.toInt32 ∧
      (int15 continuation s).1.block = b ∧ ((int15 continuation s).1.ebx = 0 ↔ rest = []) ∧
      (rest ≠ [] → Reports int15 (int15 continuation s).1.ebx (int15 continuation s).2 rest)

lemma fetch_of_reports {continuation : UInt32} {b : E820MemoryBlock} {rest : List E820MemoryBlock}
    (h : Reports int15 continuation s (b :: rest)) :
    (x86E820GetNextBlock int15 continuation s).block = b ∧
      ((x86E820GetNextBlock int15 continuation s).GoesOn ↔ rest ≠ []) ∧
      (rest ≠ [] → Reports int15 (x86E820GetNextBlock int15 continuation s).continuation
        (x86E820GetNextBlock int15 continuation s).bios rest) := by
  obtain ⟨hsignature, hsize, hblock, hlast, hrest⟩ := h
  have hfetch : x86E820GetNextBlock int15 continuation s =
      { ret := (int15 continuation s).1.ecx.toInt32, continuation := (int15 continuation s).1.ebx
        block := (int15 continuation s).1.block, bios := (int15 continuation s).2 } := by
    simp [x86E820GetNextBlock, hsignature]
  rw [hfetch]
  exact ⟨hblock, by simp [Fetched.GoesOn, hsize, hlast], hrest⟩

/-- What the calls fetch from a BIOS that keeps to the protocol: at each block the rest is still to
come. -/
lemma fetched_of_reports {blocks : List E820MemoryBlock} (h : Reports int15 0 s blocks) (n : ℕ)
    (hn : n < blocks.length) :
    (fetched int15 s n).block = blocks[n] ∧
      ((fetched int15 s n).GoesOn ↔ blocks.drop (n + 1) ≠ []) ∧
      (blocks.drop (n + 1) ≠ [] → Reports int15 (fetched int15 s n).continuation
        (fetched int15 s n).bios (blocks.drop (n + 1))) := by
  induction n with
  | zero =>
    rw [← List.drop_zero (l := blocks), List.drop_eq_getElem_cons hn] at h
    exact fetch_of_reports h
  | succ n ih =>
    obtain ⟨-, -, hrest⟩ := ih (by omega)
    rw [List.drop_eq_getElem_cons hn] at hrest
    exact fetch_of_reports (hrest (List.cons_ne_nil _ _))

/-- `mem_Detect` reports the blocks of the BIOS, all of them and in order. -/
def Complete (int15 : UInt32 → σ → E820Regs × σ) (regions : ℕ → MemoryRegion) (s : σ)
    (blocks : List E820MemoryBlock) : Prop :=
  ∃ fuel info, memDetect int15 fuel regions s = some info ∧ info.regionCount = blocks.length ∧
    ∀ i (h : i < blocks.length), info.regions i = blocks[i].region

lemma memDetect_of_reports {blocks : List E820MemoryBlock} (h : Reports int15 0 s blocks)
    (hblocks : 1 ≤ blocks.length) {fuel : ℕ} (hfuel : blocks.length ≤ fuel) :
    memDetect int15 fuel regions s = some
      { regionCount := blocks.length - 1
        regions := (afterRounds int15 regions s (blocks.length - 1)).regions } := by
  refine memDetect_eq (fun i hi => ?_) ?_ (by omega)
  · obtain ⟨-, hgoes, -⟩ := fetched_of_reports h i (by omega)
    exact hgoes.mpr (by simp; omega)
  · obtain ⟨-, hgoes, -⟩ := fetched_of_reports h (blocks.length - 1) (by omega)
    rw [hgoes]
    simp
    omega

lemma memDetect_unique {n m : ℕ} {a b : MemoryInfo} (ha : memDetect int15 n regions s = some a)
    (hb : memDetect int15 m regions s = some b) : a = b := by
  have key : ∀ {k : ℕ} {info : MemoryInfo}, memDetect int15 k regions s = some info →
      ∃ j, (∀ i < j, (fetched int15 s i).GoesOn) ∧ ¬ (fetched int15 s j).GoesOn ∧
        info = { regionCount := j, regions := (afterRounds int15 regions s j).regions } := by
    intro k info hinfo
    obtain ⟨d, hloop, rfl⟩ := Option.map_eq_some_iff.mp hinfo
    obtain ⟨⟨j, hgoes, rfl⟩, hends⟩ := Lib.whileLoop_ends hloop
    simp only [iterate_detectRound] at hgoes hends ⊢
    exact ⟨j, hgoes, hends, rfl⟩
  obtain ⟨i, hgoes, hends, rfl⟩ := key ha
  obtain ⟨j, hgoes', hends', rfl⟩ := key hb
  rcases lt_trichotomy i j with hlt | rfl | hlt
  · exact absurd (hgoes' i hlt) hends
  · rfl
  · exact absurd (hgoes j hlt) hends'

end Run

/-! ### The map is complete -/

/-- A BIOS with a list of blocks, numbered by the continuation values. -/
def listBios (blocks : List E820MemoryBlock) (continuation : UInt32) (_ : Unit) : E820Regs × Unit :=
  ({ eax := e820Signature
     ebx := if continuation.toNat + 1 < blocks.length then continuation + 1 else 0
     ecx := 24
     block := blocks.getD continuation.toNat { base := 0, length := 0, type := 0, acpi := 0 } }, ())

/-- The memory of a small machine: the low 640 KiB, and 127 MiB above the first one. -/
def smallMachine : List E820MemoryBlock :=
  [{ base := 0, length := 0xA0000, type := 1, acpi := 1 },
    { base := 0x100000, length := 0x7F00000, type := 1, acpi := 1 }]

/-- The table before the first call. -/
def emptyTable : ℕ → MemoryRegion := fun _ => { begin := 0, length := 0, type := 0, acpi := 0 }

lemma smallMachine_reports : Reports (listBios smallMachine) 0 () smallMachine := by
  simp [Reports, listBios, smallMachine]

/-- What `mem_Detect` returns: the blocks but the last one. -/
lemma memDetect_first {σ : Type*} {int15 : UInt32 → σ → E820Regs × σ} {s : σ} {blocks : List E820MemoryBlock}
    (regions : ℕ → MemoryRegion) (h : Reports int15 0 s blocks) (hblocks : 1 ≤ blocks.length) :
    ∃ info, (∀ fuel, blocks.length ≤ fuel → memDetect int15 fuel regions s = some info) ∧
      info.regionCount = blocks.length - 1 ∧
      ∀ i (hi : i < blocks.length - 1), info.regions i = (blocks.get ⟨i, by omega⟩).region := by
  refine ⟨_, fun fuel hfuel => memDetect_of_reports h hblocks hfuel, rfl, fun i hi => ?_⟩
  obtain ⟨hblock, -, -⟩ := fetched_of_reports h i (by omega)
  simp [afterRounds, hi, hblock]

/-- **`mem_Detect` loses the last block.** From a BIOS that reports 1 to 256 blocks and keeps to the
protocol it takes all blocks but the last one, and so its map is never complete. -/
theorem memDetect_never_complete {σ : Type*} {int15 : UInt32 → σ → E820Regs × σ} {s : σ}
    {blocks : List E820MemoryBlock} (regions : ℕ → MemoryRegion) (h : Reports int15 0 s blocks)
    (hblocks : 1 ≤ blocks.length) (_ : blocks.length ≤ maxRegions) :
    ¬ Complete int15 regions s blocks ∧
      ∃ fuel info, memDetect int15 fuel regions s = some info ∧
        info.regionCount = blocks.length - 1 ∧
        ∀ i (hi : i < blocks.length - 1), info.regions i = (blocks.get ⟨i, by omega⟩).region := by
  obtain ⟨first, hrun, hfirst, hregions⟩ := memDetect_first regions h hblocks
  refine ⟨?_, blocks.length, first, hrun _ le_rfl, hfirst, hregions⟩
  rintro ⟨fuel, info, hinfo, hcount, -⟩
  rw [memDetect_unique hinfo (hrun _ le_rfl), hfirst] at hcount
  omega

/-- The small machine keeps its first block only. -/
theorem memDetect_never_complete_small :
    ¬ Complete (listBios smallMachine) emptyTable () smallMachine ∧
      ∃ fuel info, memDetect (listBios smallMachine) fuel emptyTable () = some info ∧
        info.regionCount = smallMachine.length - 1 ∧
        ∀ i (hi : i < smallMachine.length - 1),
          info.regions i = (smallMachine.get ⟨i, by omega⟩).region :=
  memDetect_never_complete emptyTable smallMachine_reports (by decide) (by decide)

/-- A machine that reports the one block of its low memory: the map stays empty. -/
theorem only_region_lost :
    Reports (listBios (smallMachine.take 1)) 0 () (smallMachine.take 1) ∧
      ¬ Complete (listBios (smallMachine.take 1)) emptyTable () (smallMachine.take 1) := by
  refine ⟨by simp [Reports, listBios, smallMachine], ?_⟩
  have hrun : memDetect (listBios (smallMachine.take 1)) 1 emptyTable () =
      some { regionCount := 0, regions := emptyTable } := rfl
  rintro ⟨fuel, info, hinfo, hcount, -⟩
  rw [memDetect_unique hinfo hrun] at hcount
  exact absurd hcount (by decide)

/-! ### The table is not overrun -/

section Overrun

variable {σ : Type*} {int15 : UInt32 → σ → E820Regs × σ} {regions : ℕ → MemoryRegion} {s : σ}

/-- In front of no test has `mem_Detect` written behind the table, and it reports no more regions than
the table holds. -/
def NeverOverrun (int15 : UInt32 → σ → E820Regs × σ) (regions : ℕ → MemoryRegion) (s : σ) : Prop :=
  (∀ d, Lib.AtTest (fun d => d.last.GoesOn) (detectRound int15) (detectStart int15 regions s) d →
    ∀ i ∈ d.written, i < maxRegions) ∧
  ∀ fuel info, memDetect int15 fuel regions s = some info → info.regionCount ≤ maxRegions

/-- The states in front of a test are those after rounds that all went on. -/
lemma atTest_iff {d : Detecting σ} :
    Lib.AtTest (fun d => d.last.GoesOn) (detectRound int15) (detectStart int15 regions s) d ↔
      ∃ n, (∀ i < n, (fetched int15 s i).GoesOn) ∧ afterRounds int15 regions s n = d := by
  simp only [Lib.AtTest, iterate_detectRound]
  rfl

/-- **When the table is not overrun**: one of the first 257 calls fetches nothing, or the last
block. -/
theorem memDetect_inside_iff (int15 : UInt32 → σ → E820Regs × σ) (regions : ℕ → MemoryRegion) (s : σ) :
    NeverOverrun int15 regions s ↔ ∃ n ≤ maxRegions, ¬ (fetched int15 s n).GoesOn := by
  constructor
  · rintro ⟨hinside, -⟩
    by_contra! hgoes
    -- after 257 rounds the last index written is the first one behind the table
    have hwritten := hinside _ (atTest_iff.mpr
      ⟨maxRegions + 1, fun i hi => hgoes i (Nat.le_of_lt_succ hi), rfl⟩) maxRegions (by simp [afterRounds])
    exact lt_irrefl _ hwritten
  · rintro ⟨n, hn, hends⟩
    have hrounds : ∀ m, (∀ i < m, (fetched int15 s i).GoesOn) → m ≤ n := fun m hgoes =>
      not_lt.mp fun hlt => hends (hgoes n hlt)
    refine ⟨fun d hd i hi => ?_, fun fuel info hinfo => ?_⟩
    · obtain ⟨m, hgoes, rfl⟩ := atTest_iff.mp hd
      have him : i < m := by simpa [afterRounds] using hi
      exact him.trans_le ((hrounds m hgoes).trans hn)
    · obtain ⟨d, hloop, rfl⟩ := Option.map_eq_some_iff.mp hinfo
      obtain ⟨m, hgoes, rfl⟩ := atTest_iff.mp (Lib.whileLoop_ends hloop).1
      exact (hrounds m hgoes).trans hn

/-- A BIOS that always has one more block. -/
def endlessBios (continuation : UInt32) (_ : Unit) : E820Regs × Unit :=
  ({ eax := e820Signature, ebx := 1, ecx := 24
     block := { base := continuation.toUInt64, length := 1, type := 2, acpi := 1 } }, ())

/-- The block 256 of such a BIOS is stored behind the table. -/
theorem endless_overruns : ¬ NeverOverrun endlessBios emptyTable () := by
  have hcall : ∀ continuation, (x86E820GetNextBlock endlessBios continuation ()).GoesOn :=
    fun _ => ⟨show (0 : Int32) < (24 : UInt32).toInt32 by decide, show (1 : UInt32) ≠ 0 by decide⟩
  have hgoes : ∀ n, (fetched endlessBios () n).GoesOn := by
    intro n
    cases n with
    | zero => exact hcall 0
    | succ n => exact hcall _
  rintro ⟨hinside, -⟩
  have hwritten := hinside _ (atTest_iff.mpr ⟨maxRegions + 1, fun i _ => hgoes i, rfl⟩) maxRegions
    (by simp [afterRounds])
  exact lt_irrefl _ hwritten

end Overrun

end ArcOS.Boot
