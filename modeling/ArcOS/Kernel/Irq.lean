import ArcOS.Kernel.Keyboard
import ArcOS.Kernel.Pic
import ArcOS.Stdio.Printf

/-!
Hardware interrupts: `i686_IRQ_Initialize`, the dispatcher `i686_IRQ_Handler` and the handler in its
table.

An interrupt is one step. The processor acknowledges it at the controllers, the vector they put out
picks the handler, and the handler runs to its end before the next interrupt comes. `Installed` holds
between any two of them (`deliver_installed`).
-/

namespace ArcOS.Kernel

open Lib Lib.Transducer

/-- An `IRQHandler`; there is only `i686_IRQ_keyboardHandler`. -/
inductive IRQHandler where
  | keyboardHandler
  deriving DecidableEq

/-- The static variables of `irq.c`, the vectors registered with `i686_IRQ_Handler`, the controllers,
and what was printed. -/
structure Irq where
  irqHandlers : ℕ → Option IRQHandler
  driver : Bool
  ring : KeyRing
  isrHandlers : ℕ → Bool
  pic : Pic
  printed : List UInt8

/-- The variables as the kernel starts. -/
def Irq.start (pic : Pic) : Irq := ⟨fun _ => none, false, .start, fun _ => false, pic, []⟩

namespace Irq

/-- `printf` of arguments that match the format -/
def printf (fmt : String) (args : List Stdio.Arg) (s : Irq) : Irq :=
  { s with printed := s.printed ++ Stdio.printed fmt args }

/-- `g_Driver->Name` -/
def driverName : String := "8259 PIC"

/-- `PIC_REMAP_OFFSET` -/
def picRemapOffset : ℕ := 0x20

/-- `g_Driver->SendEndOfInterrupt` -/
def sendEndOfInterrupt (irq : ℕ) (s : Irq) : Irq := { s with pic := s.pic.sendEndOfInterrupt irq }

/-- `i686_IRQ_keyboardHandler` with the code that the data port holds -/
def irqKeyboardHandler (ioCode : UInt8) (interrupt : ℕ) (s : Irq) : Irq :=
  let (h, ring) := keyboardHandler ioCode s.ring
  let s := { s with ring := ring }
  let s := match h.echoed with
    | some c => s.printf "%c" [.int c.toUInt32]
    | none => s
  s.sendEndOfInterrupt (interrupt - picRemapOffset)

/-- `i686_IRQ_Handler` -/
def irqHandler (ioCode : UInt8) (interrupt : ℕ) (s : Irq) : Irq :=
  let irq := interrupt - picRemapOffset
  let s := match s.irqHandlers irq with
    | some .keyboardHandler => s.irqKeyboardHandler ioCode interrupt
    | none => s.printf "Unhandled IRQ %d\n" [.int (UInt32.ofNat irq)]
  s.sendEndOfInterrupt irq

/-- The loop of `i686_ISR_RegisterHandler` over the first `n` lines -/
def registerHandlers (n : ℕ) (handlers : ℕ → Bool) : ℕ → Bool :=
  (List.range n).foldl (fun h i => Function.update h (picRemapOffset + i) true) handlers

/-- `i686_IRQ_Initialize`; the interrupts of the processor are on from here. -/
def irqInitialize (s : Irq) : Irq :=
  let (found, pic) := s.pic.probe
  let s := { s with pic := pic, driver := s.driver || found }
  if s.driver then
    let s := s.printf "Found %s PIC.\n" [.string (Stdio.ascii driverName)]
    let s := { s with pic := s.pic.configure 0x20 (0x20 + 8) false }
    let s := { s with isrHandlers := registerHandlers 16 s.isrHandlers }
    let s := { s with irqHandlers := Function.update s.irqHandlers 1 (some .keyboardHandler) }
    { s with pic := s.pic.unmask 1 }
  else s.printf "Warning: No PIC found!\n" []

end Irq

/-! ### Delivery -/

namespace Pic

/-- The processor takes the interrupt of a line; a line of the slave arrives through line 2 of the
master. -/
def acknowledge (line : ℕ) (s : Pic) : Pic :=
  if line < 8 then { s with master := s.master.acknowledge line }
  else { s with master := s.master.acknowledge 2, slave := s.slave.acknowledge (line - 8) }

/-- The vector that the controllers put out for a line. -/
def vector (line : ℕ) (s : Pic) : ℕ :=
  if line < 8 then (s.master.base &&& 0xF8).toNat + line
  else (s.slave.base &&& 0xF8).toNat + (line - 8)

end Pic

/-- An interrupt of a line, and the code at the keyboard's data port meanwhile. -/
structure Interrupt where
  line : ℕ
  ioCode : UInt8
  deriving DecidableEq

/-- The interrupt is delivered. `i686_ISR_Handler` calls the handler registered for the vector; the
answer tells whether that is `i686_IRQ_Handler`. -/
def deliver (i : Interrupt) (s : Irq) : Bool × Irq :=
  let s := { s with pic := s.pic.acknowledge i.line }
  let vector := s.pic.vector i.line
  if s.isrHandlers vector then (true, s.irqHandler i.ioCode vector) else (false, s)

/-- **The interrupt is acknowledged once**: `i686_IRQ_Handler` ran, the master got one end of
interrupt, the slave one if the line is its own, and none came while no interrupt was in service. -/
structure AcknowledgedOnce (before : Pic) (line : ℕ) (handled : Bool) (after : Pic) : Prop where
  handled : handled = true
  master : after.master.eois = before.master.eois + 1
  slave : after.slave.eois = before.slave.eois + if line ≥ 8 then 1 else 0
  surplus : after.master.surplus = before.master.surplus ∧ after.slave.surplus = before.slave.surplus

/-! ### Between two interrupts -/

/-- What `i686_IRQ_Initialize` sets up, with no interrupt in service. -/
structure Installed (s : Irq) : Prop where
  table : s.irqHandlers = Function.update (fun _ => none) 1 (some .keyboardHandler)
  registered : ∀ line < 16, s.isrHandlers (Irq.picRemapOffset + line) = true
  bases : s.pic.master.base = 0x20 ∧ s.pic.slave.base = 0x28
  manual : s.pic.master.autoEoi = false ∧ s.pic.slave.autoEoi = false
  idle : s.pic.master.inService = 0 ∧ s.pic.slave.inService = 0

lemma registerHandlers_of_lt (handlers : ℕ → Bool) {n i : ℕ} (hi : i < n) :
    Irq.registerHandlers n handlers (Irq.picRemapOffset + i) = true := by
  unfold Irq.registerHandlers
  induction n with
  | zero => omega
  | succ n ih =>
    rw [List.range_succ, List.foldl_append, List.foldl_cons, List.foldl_nil]
    by_cases h : i = n
    · rw [h, Function.update_self]
    · rw [Function.update_of_ne (by omega)]
      exact ih (by omega)

lemma Pic.probe_ready {s : Pic} (h : s.Ready) : s.probe.1 = true ∧ s.probe.2.Ready := by
  have hoff : (s.setMask 0xFFFF).Ready := h.setMask 0xFFFF
  exact ⟨beq_iff_eq.mpr (hoff.getMask_setMask 0x1337), hoff.setMask 0x1337⟩

theorem irqInitialize_installed {pic : Pic} (h : pic.Ready) :
    Installed (Irq.start pic).irqInitialize := by
  obtain ⟨hfound, hp⟩ := Pic.probe_ready h
  unfold Irq.irqInitialize Pic.unmask
  simp only [Irq.start, hfound, Bool.or_true, if_true, Irq.printf]
  rw [Pic.setMask_eq _ (hp.configure 0x20 (0x20 + 8) false), Pic.configure_eq _ _ _ hp]
  exact ⟨rfl, fun line hl => registerHandlers_of_lt _ hl, ⟨rfl, rfl⟩,
    ⟨Pic.autoEoi_icw4 false, Pic.autoEoi_icw4 false⟩, ⟨rfl, rfl⟩⟩

/-! ### One interrupt -/

namespace Chip

variable {c : Chip}

lemma acknowledge_eoi (hidle : c.inService = 0) (hmanual : c.autoEoi = false) {line : ℕ}
    (hline : line < 8) :
    (c.acknowledge line).command 0x20 = { c with eois := c.eois + 1 } := by
  have hbit : ∀ line < 8, ((0 : UInt8) ||| UInt8.ofNat (1 <<< line)) ≠ 0 ∧
      ((0 : UInt8) ||| UInt8.ofNat (1 <<< line)) &&&
        (((0 : UInt8) ||| UInt8.ofNat (1 <<< line)) - 1) = 0 := by
    decide
  obtain ⟨h1, h2⟩ := hbit line hline
  obtain ⟨await, mask, base, cascade, icw4, inService, eois, surplus⟩ := c
  subst hidle
  rw [Pic.command_eoi, acknowledge, hmanual, if_neg Bool.false_ne_true, if_neg h1, h2]

lemma idle_eoi (hidle : c.inService = 0) :
    c.command 0x20 = { c with eois := c.eois + 1, surplus := c.surplus + 1 } := by
  have hzero : (0 : UInt8) &&& (0 - 1) = 0 := by decide
  obtain ⟨await, mask, base, cascade, icw4, inService, eois, surplus⟩ := c
  subst hidle
  rw [Pic.command_eoi, if_pos rfl, hzero]

end Chip

section Deliver

variable {s : Irq} {i : Interrupt}

lemma Installed.vector (h : Installed s) {line : ℕ} (hline : line < 16) :
    (s.pic.acknowledge line).vector line = Irq.picRemapOffset + line := by
  have hbase : ∀ (c : Chip) (l : ℕ), (c.acknowledge l).base = c.base := by
    intro c l
    unfold Chip.acknowledge
    split <;> rfl
  unfold Pic.vector Pic.acknowledge Irq.picRemapOffset
  by_cases hl : line < 8
  · rw [if_pos hl, if_pos hl, hbase, h.bases.1]
    rfl
  · rw [if_neg hl, if_neg hl, hbase, h.bases.2, show ((0x28 : UInt8) &&& 0xF8).toNat = 0x28 from rfl]
    omega

lemma Installed.deliver_eq (h : Installed s) (hline : i.line < 16) :
    deliver i s = (true, { s with pic := s.pic.acknowledge i.line }.irqHandler i.ioCode
      (Irq.picRemapOffset + i.line)) := by
  unfold deliver
  simp only [h.vector hline, h.registered i.line hline, if_true]

/-- The controllers with one more end of interrupt counted for a line. -/
def Pic.counted (line : ℕ) (s : Pic) : Pic :=
  { s with master := { s.master with eois := s.master.eois + 1 }
           slave := { s.slave with eois := s.slave.eois + if line ≥ 8 then 1 else 0 } }

lemma Installed.retire (h : Installed s) {line : ℕ} (hline : line < 16) :
    (s.pic.acknowledge line).sendEndOfInterrupt line = s.pic.counted line := by
  rw [Pic.sendEndOfInterrupt_eq]
  unfold Pic.acknowledge Pic.counted
  by_cases hl : line < 8
  · rw [if_pos hl, if_neg (by omega), if_neg (by omega),
      Chip.acknowledge_eoi h.idle.1 h.manual.1 hl]
    rfl
  · rw [if_neg hl, if_pos (by omega), if_pos (by omega),
      Chip.acknowledge_eoi h.idle.1 h.manual.1 (by omega),
      Chip.acknowledge_eoi h.idle.2 h.manual.2 (by omega)]

lemma Installed.deliver_other (h : Installed s) (hline : i.line < 16) (hne : i.line ≠ 1) :
    deliver i s = (true, { s with
      pic := s.pic.counted i.line
      printed := s.printed ++ Stdio.printed "Unhandled IRQ %d\n" [.int (UInt32.ofNat i.line)] }) := by
  have hnone : s.irqHandlers i.line = none := by rw [h.table, Function.update_of_ne hne]
  rw [h.deliver_eq hline]
  unfold Irq.irqHandler
  simp only [Nat.add_sub_cancel_left, hnone]
  unfold Irq.printf Irq.sendEndOfInterrupt
  simp only [h.retire hline]

/-- The keyboard's line is acknowledged by its handler, and again by the dispatcher. -/
lemma Installed.deliver_keyboard (h : Installed s) (hline : i.line = 1) :
    ∃ ring printed, deliver i s = (true, { s with
      ring := ring, printed := printed, pic := { s.pic.counted 1 with
        master := (s.pic.counted 1).master.command 0x20 } }) := by
  have hkey : s.irqHandlers 1 = some .keyboardHandler := by rw [h.table, Function.update_self]
  have hretire := h.retire (show 1 < 16 by decide)
  rw [h.deliver_eq (by omega)]
  unfold Irq.irqHandler
  simp only [Nat.add_sub_cancel_left, hline, hkey]
  unfold Irq.irqKeyboardHandler Irq.printf Irq.sendEndOfInterrupt
  simp only [Nat.add_sub_cancel_left]
  cases (keyboardHandler i.ioCode s.ring).1.echoed with
  | none =>
    refine ⟨(keyboardHandler i.ioCode s.ring).2, s.printed, ?_⟩
    simp only [hretire]
    rfl
  | some c =>
    refine ⟨(keyboardHandler i.ioCode s.ring).2, s.printed ++ Stdio.printed "%c" [.int c.toUInt32], ?_⟩
    simp only [hretire]
    rfl

/-- **What one interrupt does.** It leaves everything as it was set up, and it is acknowledged once
unless it is the keyboard's. -/
theorem deliver_installed (h : Installed s) (hline : i.line < 16) :
    (AcknowledgedOnce s.pic i.line (deliver i s).1 (deliver i s).2.pic ↔ i.line ≠ 1) ∧
    Installed (deliver i s).2 := by
  by_cases hkey : i.line = 1
  · obtain ⟨ring, printed, heq⟩ := h.deliver_keyboard hkey
    have hmaster : (s.pic.counted 1).master.inService = 0 := h.idle.1
    rw [heq, Chip.idle_eoi hmaster]
    refine ⟨⟨fun hack => ?_, fun hne => absurd hkey hne⟩, ?_⟩
    · have hcount : s.pic.master.eois + 1 + 1 = s.pic.master.eois + 1 := hack.master
      omega
    · exact ⟨h.table, h.registered, h.bases, h.manual, h.idle⟩
  · rw [h.deliver_other hline hkey]
    exact ⟨iff_of_true ⟨rfl, rfl, rfl, rfl, rfl⟩ hkey,
      h.table, h.registered, h.bases, h.manual, h.idle⟩

end Deliver

/-! ### Runs -/

/-- Every interrupt of the run is acknowledged once. -/
def AllAcknowledged (is : List Interrupt) (s : Irq) : Prop :=
  Always deliver (fun s i handled s' => AcknowledgedOnce s.pic i.line handled s'.pic) is s

/-- **When every interrupt is acknowledged once.** After `i686_IRQ_Initialize`, with interrupts of the
lines 0 to 15 delivered one at a time: exactly when none of them is the keyboard's. -/
theorem allAcknowledged_iff (pic : Pic) (hready : pic.Ready) (is : List Interrupt)
    (hlines : ∀ i ∈ is, i.line < 16) :
    AllAcknowledged is (Irq.start pic).irqInitialize ↔ ∀ i ∈ is, i.line ≠ 1 :=
  always_iff_of_step (P := Installed) (G := fun _ i => i.line < 16)
    (fun _ _ h hline => deliver_installed h hline) is _ (irqInitialize_installed hready)
    (along_of_forall _ fun i hi _ => hlines i hi)

/-- The clock, a line of the slave and the printer are acknowledged once each. -/
theorem allAcknowledged_clock :
    AllAcknowledged [⟨0, 0⟩, ⟨14, 0⟩, ⟨7, 0x1E⟩]
        (Irq.start ⟨0, Pic.idle 5, Pic.idle 7⟩).irqInitialize ↔
      ∀ i ∈ [(⟨0, 0⟩ : Interrupt), ⟨14, 0⟩, ⟨7, 0x1E⟩], i.line ≠ 1 :=
  allAcknowledged_iff ⟨0, Pic.idle 5, Pic.idle 7⟩ ⟨rfl, rfl⟩ _ (by simp)

/-- A key press is acknowledged twice: the second end of interrupt finds nothing in service. -/
theorem key_press_twice :
    let s := (Irq.start ⟨0, Pic.idle 5, Pic.idle 7⟩).irqInitialize
    ¬ AllAcknowledged [⟨1, 0x1E⟩] s ∧
    (deliver ⟨1, 0x1E⟩ s).2.pic.master.eois = 2 ∧ (deliver ⟨1, 0x1E⟩ s).2.pic.master.surplus = 1 := by
  refine ⟨fun h => ?_, by decide, by decide⟩
  have := h.1.master
  revert this
  decide

end ArcOS.Kernel
