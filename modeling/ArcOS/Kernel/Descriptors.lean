import ArcOS.Lib.Ia32
import ArcOS.Lib.Transducer

/-!
The descriptor tables: `gdt.c`, `idt.c`, and the part of `isr.c` and `isrs.c` that fills them in.

The processor's reading of a descriptor is kept apart from the code that writes it (`Lib.Ia32.Gate.decode`,
`Segment.decode`), and the two are held against each other: a gate leads to its stub after any sequence of
the functions that switch gates on and off (`gates_of_run`).
-/

namespace ArcOS.Kernel

open Lib Lib.Ia32

/-! ### The global descriptor table -/

/-- `GDTEntry` -/
structure GDTEntry where
  limitLow : UInt16
  baseLow : UInt16
  baseMiddle : UInt8
  access : UInt8
  flagsLimitHi : UInt8
  baseHigh : UInt8
  deriving DecidableEq

/-- The entry as it lies in the memory; the structure is packed. -/
def GDTEntry.bytes (e : GDTEntry) : List UInt8 :=
  bytes16 e.limitLow ++ bytes16 e.baseLow ++ [e.baseMiddle, e.access, e.flagsLimitHi, e.baseHigh]

/-- The segment that the processor finds in an entry. -/
def GDTEntry.segment (e : GDTEntry) : Segment := .decode fun k => e.bytes.getD k 0

/-- `GDT_ENTRY` -/
def gdtEntry (base limit : UInt32) (access flags : UInt8) : GDTEntry where
  limitLow := (limit &&& 0xFFFF).toUInt16
  baseLow := (base &&& 0xFFFF).toUInt16
  baseMiddle := (base >>> 16 &&& 0xFF).toUInt8
  access := access
  flagsLimitHi := (limit >>> 16 &&& 0xF).toUInt8 ||| flags &&& 0xF0
  baseHigh := (base >>> 24 &&& 0xFF).toUInt8

lemma GDTEntry.segment_eq (e : GDTEntry) : e.segment = {
    base := le32 (UInt8.ofNat e.baseLow.toNat) (UInt8.ofNat (e.baseLow.toNat / 256)) e.baseMiddle e.baseHigh
    limit := e.limitLow.toNat + 65536 * (e.flagsLimitHi.toNat % 16)
    access := e.access
    big := e.flagsLimitHi.toNat.testBit 6
    pages := e.flagsLimitHi.toNat.testBit 7 } := by
  have hlimit : word16 (fun k => e.bytes.getD k 0) 0 = e.limitLow := le16_bytes e.limitLow
  unfold segment Segment.decode
  rw [hlimit]
  rfl

lemma toNat_toUInt16_mask (v : UInt32) : (v &&& 0xFFFF).toUInt16.toNat = v.toNat % 65536 := by
  rw [UInt32.toNat_toUInt16, UInt32.toNat_and, show (0xFFFF : UInt32).toNat = 2 ^ 16 - 1 from rfl,
    Nat.and_two_pow_sub_one_eq_mod]
  omega

/-- **The processor reads the base and the limit that `GDT_ENTRY` was given**, of the limit the 20 bits that a
descriptor has, and of the flags the upper four. -/
theorem gdt_round_trip (base limit : UInt32) (access flags : UInt8) :
    (gdtEntry base limit access flags).segment =
      ⟨base, limit.toNat % 2 ^ 20, access, flags.toNat.testBit 6, flags.toNat.testBit 7⟩ := by
  have hb := base.toNat_lt
  have hl := limit.toNat_lt
  have hbyte : ∀ v : UInt32, (v &&& 0xFF).toUInt8.toNat = v.toNat % 256 := by
    intro v
    rw [UInt32.toNat_toUInt8, UInt32.toNat_and, show (0xFF : UInt32).toNat = 2 ^ 8 - 1 from rfl,
      Nat.and_two_pow_sub_one_eq_mod]
    omega
  have hbase : le32 (UInt8.ofNat (base &&& 0xFFFF).toUInt16.toNat)
      (UInt8.ofNat ((base &&& 0xFFFF).toUInt16.toNat / 256)) (base >>> 16 &&& 0xFF).toUInt8
      (base >>> 24 &&& 0xFF).toUInt8 = base := by
    apply UInt32.toNat_inj.mp
    simp only [le32, UInt8.toNat_ofNat', UInt32.toNat_ofNat', toNat_toUInt16_mask, hbyte,
      UInt32.toNat_shiftRight]
    rw [show (16 : UInt32).toNat % 32 = 16 from rfl, show (24 : UInt32).toNat % 32 = 24 from rfl,
      Nat.shiftRight_eq_div_pow, Nat.shiftRight_eq_div_pow]
    omega
  have hhigh : ((limit >>> 16 &&& 0xF).toUInt8).toNat = limit.toNat / 65536 % 16 := by
    rw [UInt32.toNat_toUInt8, UInt32.toNat_and, show (0xF : UInt32).toNat = 2 ^ 4 - 1 from rfl,
      Nat.and_two_pow_sub_one_eq_mod, UInt32.toNat_shiftRight, show (16 : UInt32).toNat % 32 = 16 from rfl,
      Nat.shiftRight_eq_div_pow]
    omega
  -- the two halves of the byte do not meet
  have hhalves : ((limit >>> 16 &&& 0xF).toUInt8 ||| flags &&& 0xF0).toNat =
      limit.toNat / 65536 % 16 ||| flags.toNat &&& 0xF0 := by
    rw [UInt8.toNat_or, hhigh, UInt8.toNat_and]
    rfl
  have hlow : (limit.toNat / 65536 % 16 ||| flags.toNat &&& 0xF0) % 16 = limit.toNat / 65536 % 16 := by
    rw [show 16 = 2 ^ 4 from rfl, Nat.or_mod_two_pow, Nat.and_mod_two_pow, show 0xF0 % 2 ^ 4 = 0 from rfl,
      Nat.and_zero, Nat.or_zero, Nat.mod_mod]
  have hbit : ∀ i, 4 ≤ i → Nat.testBit 0xF0 i = true →
      (limit.toNat / 65536 % 16 ||| flags.toNat &&& 0xF0).testBit i = flags.toNat.testBit i := by
    intro i hi hmask
    have hsmall : (limit.toNat / 65536 % 16).testBit i = false := by
      apply Nat.testBit_lt_two_pow
      calc limit.toNat / 65536 % 16 < 2 ^ 4 := Nat.mod_lt _ (by omega)
        _ ≤ 2 ^ i := Nat.pow_le_pow_right (by omega) hi
    rw [Nat.testBit_or, hsmall, Nat.testBit_and, hmask, Bool.false_or, Bool.and_true]
  rw [GDTEntry.segment_eq, gdtEntry, Segment.mk.injEq]
  refine ⟨hbase, ?_, rfl, ?_, ?_⟩
  · rw [hhalves, hlow, toNat_toUInt16_mask]
    omega
  · rw [hhalves, hbit 6 (by omega) rfl]
  · rw [hhalves, hbit 7 (by omega) rfl]

/-! ### The interrupt descriptor table -/

/-- `IDTEntry` -/
structure IDTEntry where
  baseLow : UInt16
  segmentSelector : UInt16
  reserved : UInt8
  flags : UInt8
  baseHigh : UInt16
  deriving DecidableEq

/-- The entry as it lies in the memory; the structure is packed. -/
def IDTEntry.bytes (e : IDTEntry) : List UInt8 :=
  bytes16 e.baseLow ++ bytes16 e.segmentSelector ++ [e.reserved, e.flags] ++ bytes16 e.baseHigh

/-- The gate that the processor finds in an entry. -/
def IDTEntry.gate (e : IDTEntry) : Gate := .decode fun k => e.bytes.getD k 0

/-- `IDT_FLAG_RING0 | IDT_FLAG_GATE_32BIT_INT` -/
def gateFlags : UInt8 := 0 ||| 0xE

/-- `IDT_FLAG_PRESENT` -/
def idtFlagPresent : UInt8 := 0x80

/-- `i686_GDT_CODE_SEGMENT` -/
def gdtCodeSegment : UInt16 := 0x08
/-- `g_IDT` and `g_ISRHandlers`, with handlers of some type. -/
structure Isrs (H : Type*) where
  idt : ℕ → IDTEntry
  isrHandlers : ℕ → Option H

namespace Isrs

variable {H : Type*}

/-- `i686_IDT_SetGate` -/
def idtSetGate (interrupt : ℕ) (base : UInt32) (segmentDescriptor : UInt16) (flags : UInt8) (s : Isrs H) :
    Isrs H :=
  let entry : IDTEntry := {
    baseLow := (base &&& 0xFFFF).toUInt16
    segmentSelector := segmentDescriptor
    reserved := 0
    flags := flags
    baseHigh := (base >>> 16 &&& 0xFFFF).toUInt16 }
  { s with idt := Function.update s.idt interrupt entry }

/-- `i686_IDT_EnableGate` -/
def idtEnableGate (interrupt : ℕ) (s : Isrs H) : Isrs H :=
  let entry := s.idt interrupt
  { s with idt := Function.update s.idt interrupt { entry with flags := entry.flags ||| idtFlagPresent } }

/-- `i686_IDT_DisableGate` -/
def idtDisableGate (interrupt : ℕ) (s : Isrs H) : Isrs H :=
  let entry := s.idt interrupt
  { s with idt := Function.update s.idt interrupt { entry with flags := entry.flags &&& ~~~idtFlagPresent } }

/-- `i686_ISR_InitializeGates`, with the addresses of the stubs -/
def isrInitializeGates (stubs : ℕ → UInt32) (s : Isrs H) : Isrs H :=
  (List.range 256).foldl (fun s i => s.idtSetGate i (stubs i) gdtCodeSegment gateFlags) s

/-- `i686_ISR_Initialize` -/
def isrInitialize (stubs : ℕ → UInt32) (s : Isrs H) : Isrs H :=
  ((List.range 256).foldl (fun s i => s.idtEnableGate i) (s.isrInitializeGates stubs)).idtDisableGate 0x80

/-- `i686_ISR_RegisterHandler` -/
def isrRegisterHandler (interrupt : ℕ) (handler : H) (s : Isrs H) : Isrs H :=
  idtEnableGate interrupt { s with isrHandlers := Function.update s.isrHandlers interrupt (some handler) }

end Isrs

/-! ### Switching gates on and off -/

section Gates

variable {H : Type*}

/-- What is done to the tables behind `i686_ISR_Initialize`. -/
inductive TableCall (H : Type*) where
  | enable (interrupt : ℕ)
  | disable (interrupt : ℕ)
  | register (interrupt : ℕ) (handler : H)

def TableCall.apply : TableCall H → Isrs H → Isrs H
  | .enable n, s => s.idtEnableGate n
  | .disable n, s => s.idtDisableGate n
  | .register n handler, s => s.isrRegisterHandler n handler

/-- Whether a gate is on behind some calls, when it was before. -/
def gateOn (n : ℕ) (calls : List (TableCall H)) (before : Bool) : Bool :=
  calls.foldl (fun on call => match call with
    | .enable i | .register i _ => on || i == n
    | .disable i => on && i != n) before

/-- The handler of an interrupt behind some calls. -/
def handlerOf (n : ℕ) (calls : List (TableCall H)) (before : Option H) : Option H :=
  calls.foldl (fun h call => match call with
    | .register i handler => if i = n then some handler else h
    | .enable _ | .disable _ => h) before

/-- The gate of a stub. -/
def stubGate (base : UInt32) (present : Bool) : Gate := ⟨base, gdtCodeSegment, 0xE, 0, present⟩

def stubFlags (present : Bool) : UInt8 := if present then 0x8E else 0x0E

/-- The entry of a stub, switched on or off. -/
def stubEntry (base : UInt32) (present : Bool) : IDTEntry :=
  ⟨(base &&& 0xFFFF).toUInt16, gdtCodeSegment, 0, stubFlags present, (base >>> 16 &&& 0xFFFF).toUInt16⟩

lemma stubFlags_on : ∀ present, stubFlags present ||| idtFlagPresent = stubFlags true := by decide

lemma stubFlags_off : ∀ present, stubFlags present &&& ~~~idtFlagPresent = stubFlags false := by decide

lemma IDTEntry.gate_eq (e : IDTEntry) : e.gate = {
    offset := le32 (UInt8.ofNat e.baseLow.toNat) (UInt8.ofNat (e.baseLow.toNat / 256))
      (UInt8.ofNat e.baseHigh.toNat) (UInt8.ofNat (e.baseHigh.toNat / 256))
    selector := e.segmentSelector
    kind := e.flags.toNat % 32
    privilege := e.flags.toNat / 32 % 4
    present := decide (128 ≤ e.flags.toNat) } := by
  have hselector : word16 (fun k => e.bytes.getD k 0) 2 = e.segmentSelector := le16_bytes e.segmentSelector
  unfold gate Gate.decode
  rw [hselector]
  rfl

lemma stubEntry_gate (base : UInt32) (present : Bool) : (stubEntry base present).gate = stubGate base present := by
  have hbase : le32 (UInt8.ofNat (base &&& 0xFFFF).toUInt16.toNat)
      (UInt8.ofNat ((base &&& 0xFFFF).toUInt16.toNat / 256))
      (UInt8.ofNat (base >>> 16 &&& 0xFFFF).toUInt16.toNat)
      (UInt8.ofNat ((base >>> 16 &&& 0xFFFF).toUInt16.toNat / 256)) = base := by
    have hlt := base.toNat_lt
    have hlow := toNat_toUInt16_mask base
    have hhigh : (base >>> 16 &&& 0xFFFF).toUInt16.toNat = base.toNat / 65536 := by
      rw [toNat_toUInt16_mask, UInt32.toNat_shiftRight, show (16 : UInt32).toNat % 32 = 16 from rfl,
        Nat.shiftRight_eq_div_pow]
      omega
    rw [hlow, hhigh]
    apply UInt32.toNat_inj.mp
    simp only [le32, UInt8.toNat_ofNat', UInt32.toNat_ofNat']
    omega
  have hflags : ∀ present, (stubFlags present).toNat % 32 = 0xE ∧
      (stubFlags present).toNat / 32 % 4 = 0 ∧ decide (128 ≤ (stubFlags present).toNat) = present := by
    decide
  obtain ⟨hkind, hprivilege, hpresent⟩ := hflags present
  rw [IDTEntry.gate_eq, stubGate, Gate.mk.injEq]
  exact ⟨hbase, rfl, hkind, hprivilege, hpresent⟩

variable {stubs : ℕ → UInt32}

/-- Every entry of the table belongs to its stub, and those of `on` are switched on. -/
def Gated (stubs : ℕ → UInt32) (on : ℕ → Bool) (s : Isrs H) : Prop :=
  ∀ n < 256, s.idt n = stubEntry (stubs n) (on n)

variable {on : ℕ → Bool} {s : Isrs H} {i : ℕ}

lemma Gated.enable (h : Gated stubs on s) (i : ℕ) :
    Gated stubs (fun n => on n || i == n) (s.idtEnableGate i) := by
  intro n hn
  by_cases hni : n = i
  · subst hni
    simp only [Isrs.idtEnableGate, Function.update_self, h n hn, beq_self_eq_true, Bool.or_true, stubEntry,
      stubFlags_on]
  · simp only [Isrs.idtEnableGate, Function.update_of_ne hni, h n hn, beq_eq_false_iff_ne.mpr (Ne.symm hni),
      Bool.or_false]

lemma Gated.disable (h : Gated stubs on s) (i : ℕ) :
    Gated stubs (fun n => on n && i != n) (s.idtDisableGate i) := by
  intro n hn
  by_cases hni : n = i
  · subst hni
    simp only [Isrs.idtDisableGate, Function.update_self, h n hn, bne_self_eq_false, Bool.and_false, stubEntry,
      stubFlags_off]
  · simp only [Isrs.idtDisableGate, Function.update_of_ne hni, h n hn, bne_iff_ne.mpr (Ne.symm hni),
      Bool.and_true]

lemma gated_isrInitializeGates (stubs : ℕ → UInt32) (s : Isrs H) :
    Gated stubs (fun _ => false) (s.isrInitializeGates stubs) := by
  have hbefore : ∀ k ≤ 256, ∀ n < k, ((List.range k).foldl (fun (s : Isrs H) i =>
      s.idtSetGate i (stubs i) gdtCodeSegment gateFlags) s).idt n = stubEntry (stubs n) false := by
    intro k
    induction k with
    | zero =>
      intro _ n hn
      omega
    | succ k ih =>
      intro hk n hn
      rw [List.range_succ, List.foldl_append, List.foldl_cons, List.foldl_nil]
      by_cases hnk : n = k
      · subst hnk
        simp only [Isrs.idtSetGate, Function.update_self]
        rfl
      · simp only [Isrs.idtSetGate, Function.update_of_ne hnk]
        exact ih (by omega) n (by omega)
  exact hbefore 256 le_rfl

lemma gated_isrInitialized (stubs : ℕ → UInt32) (s : Isrs H) :
    Gated stubs (fun n => n != 0x80) (s.isrInitialize stubs) := by
  have hbefore : ∀ k, Gated stubs (fun n => decide (n < k))
      ((List.range k).foldl (fun (s : Isrs H) i => s.idtEnableGate i) (s.isrInitializeGates stubs)) := by
    intro k
    induction k with
    | zero => exact gated_isrInitializeGates stubs s
    | succ k ih =>
      rw [List.range_succ, List.foldl_append, List.foldl_cons, List.foldl_nil]
      intro n hn
      rw [ih.enable k n hn]
      congr 1
      rw [Bool.eq_iff_iff]
      simp only [Bool.or_eq_true, decide_eq_true_eq, beq_iff_eq]
      omega
  intro n hn
  rw [Isrs.isrInitialize, (hbefore 256).disable 0x80 n hn]
  congr 1
  rw [Bool.eq_iff_iff]
  simp only [Bool.and_eq_true, decide_eq_true_eq, bne_iff_ne]
  omega

lemma isrInitialize_handlers (stubs : ℕ → UInt32) (s : Isrs H) :
    (s.isrInitialize stubs).isrHandlers = s.isrHandlers := by
  have hset : ∀ (ns : List ℕ) (s : Isrs H), (ns.foldl (fun (s : Isrs H) i =>
      s.idtSetGate i (stubs i) gdtCodeSegment gateFlags) s).isrHandlers = s.isrHandlers := by
    intro ns
    induction ns with
    | nil => exact fun _ => rfl
    | cons i ns ih => exact fun s => ih _
  have henable : ∀ (ns : List ℕ) (s : Isrs H),
      (ns.foldl (fun (s : Isrs H) i => s.idtEnableGate i) s).isrHandlers = s.isrHandlers := by
    intro ns
    induction ns with
    | nil => exact fun _ => rfl
    | cons i ns ih => exact fun s => ih _
  unfold Isrs.isrInitialize Isrs.isrInitializeGates Isrs.idtDisableGate
  simp only [henable, hset]

lemma Gated.call (h : Gated stubs on s) (call : TableCall H) :
    Gated stubs (fun n => gateOn n [call] (on n)) (call.apply s) := by
  cases call with
  | enable i => exact h.enable i
  | disable i => exact h.disable i
  | register i handler => exact Gated.enable (s := { s with
      isrHandlers := Function.update s.isrHandlers i (some handler) }) h i

lemma gated_calls : ∀ (calls : List (TableCall H)) {on : ℕ → Bool} {s : Isrs H}, Gated stubs on s →
    Gated stubs (fun n => gateOn n calls (on n)) (calls.foldl (fun s call => call.apply s) s)
  | [], _, _, h => h
  | call :: calls, _, _, h => gated_calls calls (h.call call)

lemma handlers_calls (n : ℕ) : ∀ (calls : List (TableCall H)) (s : Isrs H),
    (calls.foldl (fun s call => call.apply s) s).isrHandlers n = handlerOf n calls (s.isrHandlers n)
  | [], _ => rfl
  | call :: calls, s => by
    rw [List.foldl_cons, handlers_calls n calls]
    unfold handlerOf
    rw [List.foldl_cons]
    congr 1
    cases call with
    | enable i => rfl
    | disable i => rfl
    | register i handler =>
      by_cases hi : i = n
      · subst hi
        simp [TableCall.apply, Isrs.isrRegisterHandler, Isrs.idtEnableGate]
      · simp [TableCall.apply, Isrs.isrRegisterHandler, Isrs.idtEnableGate, hi, Ne.symm hi]

/-- **Every gate leads to its stub**, with the code segment of the kernel, at its privilege, and with the
interrupts off; and it is on exactly when the last call for it switched it on or registered a handler. -/
theorem gates_of_run (stubs : ℕ → UInt32) (s : Isrs H) (calls : List (TableCall H)) {n : ℕ} (hn : n < 256) :
    let t := calls.foldl (fun s call => call.apply s) (s.isrInitialize stubs)
    (t.idt n).gate = stubGate (stubs n) (gateOn n calls (n != 0x80)) ∧
      t.isrHandlers n = handlerOf n calls (s.isrHandlers n) := by
  intro t
  have hstart : (s.isrInitialize stubs).isrHandlers = s.isrHandlers := isrInitialize_handlers stubs s
  have hgated : Gated stubs (fun n => gateOn n calls (n != 0x80)) t :=
    gated_calls calls (gated_isrInitialized stubs s)
  refine ⟨?_, ?_⟩
  · rw [hgated n hn, stubEntry_gate]
  · rw [← hstart]
    exact handlers_calls n calls _

/-- The system call gate is off until a handler is registered for it. -/
theorem gates_of_run_syscall :
    let stubs : ℕ → UInt32 := fun n => 0x100000 + 16 * UInt32.ofNat n
    let t := [TableCall.enable 3, .register 0x80 ()].foldl (fun s call => call.apply s)
      ((⟨fun _ => ⟨0, 0, 0, 0, 0⟩, fun _ => none⟩ : Isrs Unit).isrInitialize stubs)
    (t.idt 0x80).gate =
        stubGate (stubs 0x80) (gateOn 0x80 [TableCall.enable 3, .register 0x80 ()] (0x80 != 0x80)) ∧
      t.isrHandlers 0x80 = handlerOf 0x80 [TableCall.enable 3, .register 0x80 ()] none := by
  intro stubs
  exact gates_of_run stubs _ _ (by omega)

end Gates

end ArcOS.Kernel
