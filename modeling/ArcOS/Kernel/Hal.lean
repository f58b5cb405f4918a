import ArcOS.Kernel.Descriptors
import ArcOS.Kernel.Irq
import ArcOS.Kernel.Isr
import ArcOS.Stdio.Printf

/-!
`HAL_Initialize`, the dispatcher `i686_ISR_Handler`, and the whole way of a hardware interrupt: from the
controllers over the descriptor table, the stub and the two dispatchers to the handler, and back to the
code that was interrupted.

`deliver` of the module on hardware interrupts is one step from a line to its handler. The way through the
machine refines it (`hardware_refines_deliver`).
-/

namespace ArcOS.Kernel

open Lib Lib.Ia32 Lib.Transducer Isr

/-! ### The dispatcher -/

/-- An `ISRHandler`; there is only `i686_IRQ_Handler`. -/
inductive ISRHandler where
  | irqHandler
  deriving DecidableEq

/-- The state of the kernel that its interrupts work on: the tables, the state below `i686_IRQ_Handler`, what
the keyboard's data port holds, and whether the processor was stopped, by `i686_Panic` or by an interrupt that
its table leads nowhere. -/
structure Hal where
  tables : Isrs ISRHandler
  irq : Irq
  dataPort : UInt8
  stopped : Bool

/-- `g_Exceptions` -/
def exceptions : List String :=
  ["Divide by zero error", "Debug", "Non-maskable Interrupt", "Breakpoint", "Overflow", "Bound Range Exceeded",
    "Invalid Opcode", "Device Not Available", "Double Fault", "Coprocessor Segment Overrun", "Invalid TSS",
    "Segment Not Present", "Stack-Segment Fault", "General Protection Fault", "Page Fault", "",
    "x87 Floating-Point Exception", "Alignment Check", "Machine Check", "SIMD Floating-Point Exception",
    "Virtualization Exception", "Control Protection Exception ", "", "", "", "", "", "",
    "Hypervisor Injection Exception", "VMM Communication Exception", "Security Exception", ""]

namespace Hal

/-- `printf` -/
def printf (fmt : String) (args : List Stdio.Arg) (k : Hal) : Hal :=
  { k with irq := k.irq.printf fmt args }

/-- `i686_Panic` -/
def panic (k : Hal) : Hal := { k with stopped := true }

/-- `i686_ISR_Handler` -/
def isrHandler (regs : Registers) (k : Hal) : Hal :=
  match k.tables.isrHandlers regs.interrupt.toNat with
  | some .irqHandler => { k with irq := k.irq.irqHandler k.dataPort regs.interrupt.toNat }
  | none =>
    if regs.interrupt ≥ 32 then k.printf "Unhandled interrupt %d\n" [.int regs.interrupt]
    else
      let name := exceptions.getD regs.interrupt.toNat ""
      let k := k.printf "Unhandled exception %d %s\n" [.int regs.interrupt, .string (Stdio.ascii name)]
      let k := k.printf "  eax=%x  ebx=%x  ecx=%x  edx=%x  esi=%x  edi=%x\n"
        [.int regs.eax, .int regs.ebx, .int regs.ecx, .int regs.edx, .int regs.esi, .int regs.edi]
      let k := k.printf "  esp=%x  ebp=%x  eip=%x  eflags=%x  cs=%x  ds=%x  ss=%x\n"
        [.int regs.esp, .int regs.ebp, .int regs.eip, .int regs.eflags, .int regs.cs, .int regs.ds, .int regs.ss]
      let k := k.printf "  interrupt=%x  errorcode=%x\n" [.int regs.interrupt, .int regs.error]
      (k.printf "Kernel Panic\n" []).panic

/-! ### Setting up -/

/-- The tables with the handlers of `i686_IRQ_Initialize`, which registers them when it found a driver -/
def registerLines (tables : Isrs ISRHandler) : Isrs ISRHandler :=
  (List.range 16).foldl (fun t i => t.isrRegisterHandler (Irq.picRemapOffset + i) .irqHandler) tables

/-- `HAL_Initialize`, with the addresses of the stubs -/
def halInitialize (stubs : ℕ → UInt32) (k : Hal) : Hal :=
  let k := { k with tables := k.tables.isrInitialize stubs }
  let k := { k with irq := k.irq.irqInitialize }
  if k.irq.driver then { k with tables := registerLines k.tables } else k

end Hal

/-! ### A hardware interrupt -/

section Hardware

variable (status : Cpu → UInt32) (returnAddress : UInt32) (handler : Cpu → Hal → Cpu × Hal)
  (stubAt : UInt32 → Option ℕ)

/-- An interrupt of a line at some code: the controllers put out the vector, and the processor goes through its
gate to the stub that lies there. -/
def hardware (i : Interrupt) (c : Cpu) (k : Hal) : Cpu × Hal :=
  let k := { k with irq := { k.irq with pic := k.irq.pic.acknowledge i.line }, dataPort := i.ioCode }
  let g := (k.tables.idt (k.irq.pic.vector i.line)).gate
  match if g.present ∧ g.kind = 0xE then stubAt g.offset else none with
  | some n => service status returnAddress handler n g none c k
  | none => (c, { k with stopped := true })

variable {status returnAddress handler stubAt} {stubs : ℕ → UInt32} {room : ℕ} {own : UInt32 → Prop} {low : UInt32}

/-- What `HAL_Initialize` sets up, with no interrupt in service. -/
structure HalReady (stubs : ℕ → UInt32) (k : Hal) : Prop where
  irq : Installed k.irq
  gates : ∀ line < 16, (k.tables.idt (Irq.picRemapOffset + line)).gate =
    stubGate (stubs (Irq.picRemapOffset + line)) true
  handlers : ∀ line < 16, k.tables.isrHandlers (Irq.picRemapOffset + line) = some .irqHandler

/-- The calls that register the lines. -/
def lineCalls : List (TableCall ISRHandler) :=
  (List.range 16).map fun i => .register (Irq.picRemapOffset + i) .irqHandler

lemma registerLines_eq (tables : Isrs ISRHandler) :
    Hal.registerLines tables = lineCalls.foldl (fun t call => call.apply t) tables := by
  rw [lineCalls, List.foldl_map]
  rfl

lemma irqInitialize_driver {pic : Pic} (hpic : pic.Ready) : (Irq.start pic).irqInitialize.driver = true := by
  obtain ⟨hfound, -⟩ := Pic.probe_ready hpic
  unfold Irq.irqInitialize
  simp only [Irq.start, hfound, Bool.or_true, if_true]
  rfl

lemma halInitialize_eq {pic : Pic} (hpic : pic.Ready) (stubs : ℕ → UInt32) {k : Hal} (hk : k.irq = Irq.start pic) :
    k.halInitialize stubs = { k with
      tables := lineCalls.foldl (fun t call => call.apply t) (k.tables.isrInitialize stubs)
      irq := (Irq.start pic).irqInitialize } := by
  unfold Hal.halInitialize
  simp only [hk, irqInitialize_driver hpic, if_true, registerLines_eq]

/-- **`HAL_Initialize` sets the interrupts up**, with two controllers that answer. -/
lemma halInitialize_ready {pic : Pic} (hpic : pic.Ready) (stubs : ℕ → UInt32) {k : Hal}
    (hk : k.irq = Irq.start pic) : HalReady stubs (k.halInitialize stubs) := by
  have hon : ∀ line < 16, gateOn (Irq.picRemapOffset + line) lineCalls
      (Irq.picRemapOffset + line != 0x80) = true := by decide
  have hhandler : ∀ line < 16, ∀ h ∈ [none, some ISRHandler.irqHandler],
      handlerOf (Irq.picRemapOffset + line) lineCalls h = some .irqHandler := by decide
  rw [halInitialize_eq hpic stubs hk]
  refine ⟨irqInitialize_installed hpic, fun line hline => ?_, fun line hline => ?_⟩
  · have hgated := gated_calls lineCalls (gated_isrInitialized stubs k.tables)
    have hvector : Irq.picRemapOffset + line < 256 := by
      unfold Irq.picRemapOffset
      omega
    simp only [hgated _ hvector, stubEntry_gate, hon line hline]
  · rw [handlers_calls]
    apply hhandler line hline
    cases (k.tables.isrInitialize stubs).isrHandlers (Irq.picRemapOffset + line) with
    | none => simp
    | some h => cases h; simp

/-- What an interrupt does to the state, without the machine. -/
def Hal.delivered (i : Interrupt) (k : Hal) : Hal :=
  { k with irq := (deliver i k.irq).2, dataPort := i.ioCode }

lemma hardware_step (hf : Cdecl room own handler) (hb : Computes handler Hal.isrHandler)
    (hroom : room + 80 < 2 ^ 32) (hstubs : ∀ n < 256, stubAt (stubs n) = some n) {i : Interrupt}
    (hline : i.line < 16) {c d : Cpu} {k : Hal} (hready : Ready room own low c) (hd : Agree own low c d)
    (hk : HalReady stubs k) :
    Agree own low c (hardware status returnAddress handler stubAt i d k).1 ∧
      (hardware status returnAddress handler stubAt i d k).2 = k.delivered i ∧ HalReady stubs (k.delivered i) := by
  set n := Irq.picRemapOffset + i.line with hn
  set k' : Hal := { k with
    irq := { k.irq with pic := k.irq.pic.acknowledge i.line }, dataPort := i.ioCode } with hk'
  have hn32 : 32 ≤ n ∧ n < 48 := by
    rw [hn]
    unfold Irq.picRemapOffset
    omega
  have hright : RightStub n none := by
    have hnot : n ∉ errorCodeStubs := by
      intro hmem
      simp only [errorCodeStubs, List.mem_cons, List.not_mem_nil, or_false] at hmem
      omega
    simpa [RightStub] using hnot
  have hthrough : hardware status returnAddress handler stubAt i d k =
      service status returnAddress handler n (stubGate (stubs n) true) none d k' := by
    unfold hardware
    simp only [hk.irq.vector hline, hk.gates i.line hline]
    simp only [stubGate, ← hn, hstubs n (by omega), and_self, if_true, ← hk']
  obtain ⟨hagree, hstate⟩ := service_agree status returnAddress hf hb hroom (stubGate (stubs n) true) hright k'
    hready hd
  have hnumber : (interruptedRegisters n none d).interrupt.toNat = n := by
    simp only [interruptedRegisters, UInt32.toNat_ofNat']
    omega
  have hbody : Hal.isrHandler (interruptedRegisters n none d) k' = k.delivered i := by
    have hreg : k'.tables.isrHandlers n = some .irqHandler := hk.handlers i.line hline
    unfold Hal.isrHandler Hal.delivered
    rw [hnumber, hreg, hk.irq.deliver_eq hline]
  rw [hthrough]
  refine ⟨hagree, hstate.trans hbody, ?_⟩
  exact ⟨(deliver_installed hk.irq hline).2, hk.gates, hk.handlers⟩

/-- **The way through the machine refines the step of the abstract machine.** After `HAL_Initialize`, with
hardware interrupts between any two instructions of some code: the code gets to where it gets without them,
every interrupt is delivered once and in its order, and none of them leads astray. -/
theorem hardware_refines_deliver (hf : Cdecl room own handler) (hb : Computes handler Hal.isrHandler)
    (hroom : room + 80 < 2 ^ 32) (hstubs : ∀ n < 256, stubAt (stubs n) = some n) {instruction : Cpu → Cpu}
    (hcode : ∀ c d, Agree own low c d → Agree own low (instruction c) (instruction d)) {c : Cpu}
    (hready : ∀ n, Ready room own low (instruction^[n] c)) {pic : Pic} (hpic : pic.Ready) {k : Hal}
    (hk : k.irq = Irq.start pic) {es : List (Option Interrupt)} (hlines : ∀ i ∈ es.reduceOption, i.line < 16) :
    let r := interleaved instruction (hardware status returnAddress handler stubAt) es c (k.halInitialize stubs)
    Agree own low (instruction^[ownSteps es] c) r.1 ∧
      r.2.irq = final deliver es.reduceOption (Irq.start pic).irqInitialize ∧ r.2.stopped = k.stopped := by
  intro r
  have hserve : ∀ (i : Interrupt) (c d : Cpu) (k : Hal), i.line < 16 → Ready room own low c → Agree own low c d →
      HalReady stubs k → Agree own low c (hardware status returnAddress handler stubAt i d k).1 ∧
        (hardware status returnAddress handler stubAt i d k).2 = k.delivered i ∧ HalReady stubs (k.delivered i) :=
    fun i c d k hi hc hd hs => hardware_step hf hb hroom hstubs hi hc hd hs
  have hsim := interleaved_sim hcode hserve (Agree.refl c) (halInitialize_ready hpic stubs hk) hready hlines
  have hfold : ∀ (is : List Interrupt) (k : Hal),
      (is.foldl (fun k i => k.delivered i) k).irq = final deliver is k.irq ∧
        (is.foldl (fun k i => k.delivered i) k).stopped = k.stopped := by
    intro is
    induction is with
    | nil => exact fun k => ⟨rfl, rfl⟩
    | cons i is ih => exact fun k => ih (k.delivered i)
  have hstate : r.2 = es.reduceOption.foldl (fun k i => k.delivered i) (k.halInitialize stubs) := hsim.2.1
  obtain ⟨hirq, hstopped⟩ := hfold es.reduceOption (k.halInitialize stubs)
  have hstart := halInitialize_eq hpic stubs hk
  refine ⟨hsim.1, ?_, ?_⟩
  · rw [hstate, hirq, hstart]
  · rw [hstate, hstopped, hstart]

end Hardware

/-- Stubs of 16 bytes. -/
def stubAddress (n : ℕ) : UInt32 := UInt32.ofNat (0x100000 + 16 * n)

def stubOf (a : UInt32) : Option ℕ := some ((a.toNat - 0x100000) / 16)

lemma stubOf_stubAddress : ∀ n < 256, stubOf (stubAddress n) = some n := by
  intro n hn
  simp only [stubOf, stubAddress, UInt32.toNat_ofNat', Option.some.injEq]
  omega

/-- The kernel in front of `HAL_Initialize`. -/
def Hal.start (pic : Pic) : Hal := ⟨⟨fun _ => ⟨0, 0, 0, 0, 0⟩, fun _ => none⟩, Irq.start pic, 0, false⟩

/-- A counter, with the clock and two key presses between its steps. -/
theorem hardware_refines_deliver_keys :
    let k := Hal.start ⟨0, Pic.idle 5, Pic.idle 7⟩
    let es : List (Option Interrupt) := [none, some ⟨0, 0⟩, none, some ⟨1, 0x1E⟩, none, some ⟨1, 0x9E⟩]
    let r := interleaved count (hardware (fun _ => 0) 0 (pureHandler Hal.isrHandler) stubOf) es kernelCode
      (k.halInitialize stubAddress)
    Agree (fun _ => False) 0x8000 (count^[ownSteps es] kernelCode) r.1 ∧
      r.2.irq = final deliver es.reduceOption (Irq.start ⟨0, Pic.idle 5, Pic.idle 7⟩).irqInitialize ∧
      r.2.stopped = k.stopped :=
  hardware_refines_deliver (pureHandler_cdecl _ 0 _) (pureHandler_computes _) (by omega)
    stubOf_stubAddress (fun _ _ => count_agree) count_ready ⟨rfl, rfl⟩ rfl (by decide)

end ArcOS.Kernel
