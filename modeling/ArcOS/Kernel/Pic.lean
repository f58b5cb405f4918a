import Mathlib.Data.List.Induction
import Mathlib.Data.Nat.Bitwise

/-!
The two cascaded 8259 controllers, and the driver in `i8259.c`.

What a byte on a data port means depends on where the controller stands in its initialisation
sequence. `Synced` says that after some calls no sequence is pending and that mask, vector bases and
end-of-interrupt mode are what the calls ask for; every call keeps it (`call_synced`).
-/

namespace ArcOS.Kernel

/-! ### The controllers -/

/-- What the next byte on the data port of a controller means. -/
inductive Await where
  | mask
  | icw2
  | icw3
  | icw4
  deriving DecidableEq

/-- A controller. The last two numbers observe it: the end-of-interrupt commands it received, and
those of them that found no interrupt in service. -/
structure Chip where
  await : Await
  mask : UInt8
  base : UInt8
  cascade : UInt8
  icw4 : UInt8
  inService : UInt8
  eois : ℕ
  surplus : ℕ

namespace Chip

/-- Automatic end of interrupt, bit 1 of the last initialisation word. -/
def autoEoi (c : Chip) : Bool := c.icw4 &&& 2 ≠ 0

/-- A byte on the command port: a new initialisation, or a non-specific end of interrupt, which
retires the interrupt of the lowest line in service. -/
def command (b : UInt8) (c : Chip) : Chip :=
  if b &&& 0x10 ≠ 0 then { c with await := .icw2, mask := 0, inService := 0 }
  else if b = 0x20 then
    { c with inService := c.inService &&& (c.inService - 1), eois := c.eois + 1
             surplus := if c.inService = 0 then c.surplus + 1 else c.surplus }
  else c

/-- A byte on the data port. -/
def data (b : UInt8) (c : Chip) : Chip :=
  match c.await with
  | .mask => { c with mask := b }
  | .icw2 => { c with await := .icw3, base := b }
  | .icw3 => { c with await := .icw4, cascade := b }
  | .icw4 => { c with await := .mask, icw4 := b }

/-- The processor takes the interrupt of a line; it is in service until it is retired. -/
def acknowledge (line : ℕ) (c : Chip) : Chip :=
  if c.autoEoi then c else { c with inService := c.inService ||| UInt8.ofNat (1 <<< line) }

end Chip

/-- The driver's `g_PicMask` and the two controllers. -/
structure Pic where
  picMask : UInt16
  master : Chip
  slave : Chip

namespace Pic

/-- `PIC1_COMMAND_PORT` -/
def pic1CommandPort : UInt16 := 0x20

/-- `PIC1_DATA_PORT` -/
def pic1DataPort : UInt16 := 0x21

/-- `PIC2_COMMAND_PORT` -/
def pic2CommandPort : UInt16 := 0xA0

/-- `PIC2_DATA_PORT` -/
def pic2DataPort : UInt16 := 0xA1

/-- `UNUSED_PORT` -/
def unusedPort : UInt16 := 0x80

/-- `i686_outb`, as far as the controllers listen. -/
def outb (port : UInt16) (value : UInt8) (s : Pic) : Pic :=
  if port = pic1CommandPort then { s with master := s.master.command value }
  else if port = pic1DataPort then { s with master := s.master.data value }
  else if port = pic2CommandPort then { s with slave := s.slave.command value }
  else if port = pic2DataPort then { s with slave := s.slave.data value }
  else s

/-- `i686_inb` on a data port: the mask register. -/
def inb (port : UInt16) (s : Pic) : UInt8 :=
  if port = pic1DataPort then s.master.mask else if port = pic2DataPort then s.slave.mask else 0xFF

/-- `i686_iowait` -/
def iowait (s : Pic) : Pic := s.outb unusedPort 0

@[simp] lemma outb_master_command (b : UInt8) (s : Pic) :
    s.outb pic1CommandPort b = { s with master := s.master.command b } := rfl

@[simp] lemma outb_master_data (b : UInt8) (s : Pic) :
    s.outb pic1DataPort b = { s with master := s.master.data b } := rfl

@[simp] lemma outb_slave_command (b : UInt8) (s : Pic) :
    s.outb pic2CommandPort b = { s with slave := s.slave.command b } := rfl

@[simp] lemma outb_slave_data (b : UInt8) (s : Pic) :
    s.outb pic2DataPort b = { s with slave := s.slave.data b } := rfl

@[simp] lemma iowait_eq (s : Pic) : s.iowait = s := rfl

/-- No initialisation sequence is pending. -/
def Ready (s : Pic) : Prop := s.master.await = .mask ∧ s.slave.await = .mask

/-! ### The driver -/

/-- `i8259_SetMask` -/
def setMask (newMask : UInt16) (s : Pic) : Pic :=
  let s := { s with picMask := newMask }
  let s := (s.outb pic1DataPort (s.picMask &&& 0xFF).toUInt8).iowait
  (s.outb pic2DataPort (s.picMask >>> 8).toUInt8).iowait

/-- `i8259_GetMask` -/
def getMask (s : Pic) : UInt16 :=
  (s.inb pic1DataPort).toUInt16 ||| ((s.inb pic2DataPort).toUInt16 <<< 8)

/-- The word `icw4` of `i8259_Configure`. -/
def icw4 (autoEoi : Bool) : UInt8 := if autoEoi then 1 ||| 2 else 1

/-- `i8259_Configure` -/
def configure (offsetPic1 offsetPic2 : UInt8) (autoEoi : Bool) (s : Pic) : Pic :=
  let s := s.setMask 0xFFFF
  let s := (s.outb pic1CommandPort (1 ||| 0x10)).iowait
  let s := (s.outb pic2CommandPort (1 ||| 0x10)).iowait
  let s := (s.outb pic1DataPort offsetPic1).iowait
  let s := (s.outb pic2DataPort offsetPic2).iowait
  let s := (s.outb pic1DataPort 4).iowait
  let s := (s.outb pic2DataPort 2).iowait
  let s := (s.outb pic1DataPort (icw4 autoEoi)).iowait
  let s := (s.outb pic2DataPort (icw4 autoEoi)).iowait
  s.setMask 0xFFFF

/-- `i8259_SendEndOfInterrupt` -/
def sendEndOfInterrupt (irq : ℕ) (s : Pic) : Pic :=
  let s := if irq ≥ 8 then s.outb pic2CommandPort 0x20 else s
  s.outb pic1CommandPort 0x20

/-- `i8259_Disable` -/
def disable (s : Pic) : Pic := s.setMask 0xFFFF

/-- `i8259_Mask`; what the shift leaves above bit 15 does not reach `g_PicMask`. -/
def mask (irq : ℕ) (s : Pic) : Pic := s.setMask (s.picMask ||| UInt16.ofNat (1 <<< irq))

/-- `i8259_Unmask` -/
def unmask (irq : ℕ) (s : Pic) : Pic := s.setMask (s.picMask &&& ~~~UInt16.ofNat (1 <<< irq))

/-- `i8259_Probe` -/
def probe (s : Pic) : Bool × Pic :=
  let s := s.disable.setMask 0x1337
  (s.getMask == 0x1337, s)

/-- A call of the driver. -/
inductive Call where
  | configure (offsetPic1 offsetPic2 : UInt8) (autoEoi : Bool)
  | mask (irq : ℕ)
  | unmask (irq : ℕ)
  | disable
  | setMask (newMask : UInt16)
  | sendEndOfInterrupt (irq : ℕ)
  deriving DecidableEq

/-- The call made. -/
def call : Call → Pic → Pic
  | .configure a b e => configure a b e
  | .mask irq => mask irq
  | .unmask irq => unmask irq
  | .disable => disable
  | .setMask m => setMask m
  | .sendEndOfInterrupt irq => sendEndOfInterrupt irq

/-- The calls made one after the other. -/
def calls (cs : List Call) (s : Pic) : Pic := cs.foldl (fun s c => call c s) s

/-! ### What the calls ask for -/

/-- The arguments of `i8259_Configure`. -/
def Call.settings : Call → Option (UInt8 × UInt8 × Bool)
  | .configure a b e => some (a, b, e)
  | _ => none

/-- What the call does to line `i`, if it affects it: whether it clears the line's mask bit. -/
def Call.clears (i : ℕ) : Call → Option Bool
  | .configure .. | .disable => some false
  | .mask irq => if irq = i then some false else none
  | .unmask irq => if irq = i then some true else none
  | .setMask m => some (!m.toNat.testBit i)
  | .sendEndOfInterrupt _ => none

/-- The last answer of `f` on a list. -/
def latest {α β : Type*} (f : α → Option β) (l : List α) : Option β := (l.filterMap f).getLast?

lemma latest_concat {α β : Type*} (f : α → Option β) (l : List α) (a : α) :
    latest f (l ++ [a]) = (f a).or (latest f l) := by
  unfold latest
  rw [List.filterMap_append, List.getLast?_append]
  cases h : f a <;> simp [h]

/-- **Driver and controllers agree** after the calls `cs`. -/
structure Synced (cs : List Call) (s : Pic) : Prop where
  ready : s.Ready
  masks : s.picMask = s.master.mask.toUInt16 ||| (s.slave.mask.toUInt16 <<< 8)
  read : s.getMask = s.picMask
  settings : latest Call.settings cs =
    some (s.master.base, s.slave.base, s.master.autoEoi) ∧ s.slave.autoEoi = s.master.autoEoi
  line : ∀ i < 16, (s.picMask.toNat.testBit i = false ↔ latest (Call.clears i) cs = some true)

/-! ### What the calls do -/

lemma join_toNat (lo hi : UInt8) :
    (lo.toUInt16 ||| (hi.toUInt16 <<< 8)).toNat = hi.toNat * 256 + lo.toNat := by
  have hlo : lo.toNat < 2 ^ 8 := lo.toNat_lt
  have hhi := hi.toNat_lt
  have hor : lo.toNat ||| hi.toNat <<< 8 = hi.toNat <<< 8 + lo.toNat := by
    rw [Nat.or_comm, Nat.shiftLeft_add_eq_or_of_lt hlo]
  rw [UInt16.toNat_or, UInt16.toNat_shiftLeft, UInt8.toNat_toUInt16, UInt8.toNat_toUInt16,
    show (8 : UInt16).toNat % 16 = 8 from rfl,
    Nat.mod_eq_of_lt (by rw [Nat.shiftLeft_eq]; omega), hor, Nat.shiftLeft_eq]

lemma mask_halves (m : UInt16) :
    (m &&& 0xFF).toUInt8.toUInt16 ||| ((m >>> 8).toUInt8.toUInt16 <<< 8) = m := by
  have hm := m.toNat_lt
  apply UInt16.toNat_inj.mp
  rw [join_toNat, UInt16.toNat_toUInt8, UInt16.toNat_toUInt8, UInt16.toNat_and, UInt16.toNat_shiftRight,
    show (0xFF : UInt16).toNat = 2 ^ 8 - 1 from rfl, Nat.and_two_pow_sub_one_eq_mod,
    show (8 : UInt16).toNat % 16 = 8 from rfl, Nat.shiftRight_eq_div_pow]
  omega

lemma testBit_bit (irq : ℕ) {i : ℕ} (hi : i < 16) :
    (UInt16.ofNat (1 <<< irq)).toNat.testBit i = decide (irq = i) := by
  rw [UInt16.toNat_ofNat', Nat.testBit_mod_two_pow, Nat.shiftLeft_eq, one_mul, Nat.testBit_two_pow]
  simp [hi]

lemma testBit_not (m : UInt16) {i : ℕ} (hi : i < 16) :
    (~~~m).toNat.testBit i = !m.toNat.testBit i := by
  rw [← UInt16.toNat_toBitVec, UInt16.toBitVec_not, BitVec.testBit_toNat, BitVec.getLsbD_not]
  simp [hi, BitVec.getElem_eq_testBit_toNat]

lemma testBit_ffff {i : ℕ} (hi : i < 16) : (0xFFFF : UInt16).toNat.testBit i = true := by
  rw [show (0xFFFF : UInt16).toNat = 2 ^ 16 - 1 from rfl, Nat.testBit_two_pow_sub_one]
  exact decide_eq_true hi

section Calls

variable {cs : List Call} {s : Pic}

lemma initialise (c : Chip) (base cascade w : UInt8) :
    (((c.command (1 ||| 0x10)).data base).data cascade).data w =
      { c with await := .mask, mask := 0, base := base, cascade := cascade, icw4 := w, inService := 0 } := by
  have h : c.command (1 ||| 0x10) = { c with await := .icw2, mask := 0, inService := 0 } := if_pos (by decide)
  rw [h]
  rfl

lemma setMask_eq (m : UInt16) (h : s.Ready) :
    s.setMask m = { s with picMask := m, master := { s.master with mask := (m &&& 0xFF).toUInt8 }
                           slave := { s.slave with mask := (m >>> 8).toUInt8 } } := by
  simp [setMask, Chip.data, h.1, h.2]

lemma Ready.setMask (h : s.Ready) (m : UInt16) : (s.setMask m).Ready := by
  rw [setMask_eq m h]
  exact h

lemma Ready.getMask_setMask (h : s.Ready) (m : UInt16) : (s.setMask m).getMask = m := by
  rw [setMask_eq m h]
  exact mask_halves m

lemma configure_eq (a b : UInt8) (e : Bool) (h : s.Ready) :
    s.configure a b e =
      ⟨0xFFFF, { s.master with mask := 0xFF, base := a, cascade := 4, icw4 := icw4 e, inService := 0 },
        { s.slave with mask := 0xFF, base := b, cascade := 2, icw4 := icw4 e, inService := 0 }⟩ := by
  have hoff := setMask_eq 0xFFFF h
  unfold configure
  simp only [hoff, iowait_eq, outb_master_command, outb_slave_command, outb_master_data, outb_slave_data,
    initialise]
  rw [setMask_eq _ ⟨rfl, rfl⟩]
  simp only [h.1, h.2]
  rfl

lemma Ready.configure (h : s.Ready) (a b : UInt8) (e : Bool) : (s.configure a b e).Ready := by
  rw [configure_eq a b e h]
  exact h

lemma command_eoi (c : Chip) : c.command 0x20 =
    { c with inService := c.inService &&& (c.inService - 1), eois := c.eois + 1
             surplus := if c.inService = 0 then c.surplus + 1 else c.surplus } := by
  unfold Chip.command
  rw [if_neg (by decide), if_pos rfl]

lemma sendEndOfInterrupt_eq (irq : ℕ) (s : Pic) : s.sendEndOfInterrupt irq =
    { s with master := s.master.command 0x20
             slave := if irq ≥ 8 then s.slave.command 0x20 else s.slave } := by
  unfold sendEndOfInterrupt
  split <;> rfl

lemma setMask_synced {c : Call} {m : UInt16} (h : Synced cs s) (hset : c.settings = none)
    (hline : ∀ i < 16, m.toNat.testBit i = false ↔
      (c.clears i).or (latest (Call.clears i) cs) = some true) :
    Synced (cs ++ [c]) (s.setMask m) := by
  rw [setMask_eq m h.ready]
  constructor
  · exact h.ready
  · exact (mask_halves m).symm
  · exact mask_halves m
  · rw [latest_concat, hset]
    exact h.settings
  · intro i hi
    rw [latest_concat]
    exact hline i hi

lemma autoEoi_icw4 (e : Bool) : decide (icw4 e &&& 2 ≠ 0) = e := by cases e <;> decide

/-- After `i8259_Configure` it does not matter what was called before. -/
lemma configure_synced (a b : UInt8) (e : Bool) (h : s.Ready) :
    Synced (cs ++ [.configure a b e]) (s.configure a b e) := by
  have hmask : (0xFFFF : UInt16) = (0xFF : UInt8).toUInt16 ||| ((0xFF : UInt8).toUInt16 <<< 8) := by
    decide
  have hready : (s.configure a b e).Ready := h.configure a b e
  rw [configure_eq a b e h] at hready ⊢
  constructor
  · exact hready
  · exact hmask
  · exact hmask.symm
  · rw [latest_concat]
    refine ⟨?_, rfl⟩
    unfold Chip.autoEoi
    rw [autoEoi_icw4]
    rfl
  · intro i hi
    rw [latest_concat]
    rw [testBit_ffff hi]
    simp [Call.clears]

lemma eoi_synced (irq : ℕ) (h : Synced cs s) :
    Synced (cs ++ [.sendEndOfInterrupt irq]) (s.sendEndOfInterrupt irq) := by
  have hset : latest Call.settings (cs ++ [.sendEndOfInterrupt irq]) = latest Call.settings cs := by
    rw [latest_concat]
    rfl
  have hline : ∀ i, latest (Call.clears i) (cs ++ [.sendEndOfInterrupt irq]) =
      latest (Call.clears i) cs := by
    intro i
    rw [latest_concat]
    rfl
  have hframe : ∀ i < 16, s.picMask.toNat.testBit i = false ↔
      latest (Call.clears i) (cs ++ [.sendEndOfInterrupt irq]) = some true := by
    intro i hi
    rw [hline]
    exact h.line i hi
  rw [sendEndOfInterrupt_eq, command_eoi, command_eoi]
  by_cases hirq : irq ≥ 8
  · rw [if_pos hirq]
    exact ⟨h.ready, h.masks, h.read, hset ▸ h.settings, hframe⟩
  · rw [if_neg hirq]
    exact ⟨h.ready, h.masks, h.read, hset ▸ h.settings, hframe⟩

/-- **Every call keeps driver and controllers in agreement.** -/
theorem call_synced (c : Call) (h : Synced cs s) : Synced (cs ++ [c]) (call c s) := by
  cases c with
  | configure a b e => exact configure_synced a b e h.ready
  | mask irq =>
    apply setMask_synced h rfl
    intro i hi
    rw [UInt16.toNat_or, Nat.testBit_or, testBit_bit irq hi, Call.clears]
    by_cases hirq : irq = i
    · simp [hirq]
    · simp [hirq, h.line i hi]
  | unmask irq =>
    apply setMask_synced h rfl
    intro i hi
    rw [UInt16.toNat_and, Nat.testBit_and, testBit_not _ hi, testBit_bit irq hi, Call.clears]
    by_cases hirq : irq = i
    · simp [hirq]
    · simp [hirq, h.line i hi]
  | disable =>
    apply setMask_synced h rfl
    intro i hi
    rw [testBit_ffff hi]
    simp [Call.clears]
  | setMask m =>
    apply setMask_synced h rfl
    intro i _
    simp [Call.clears]
  | sendEndOfInterrupt irq => exact eoi_synced irq h

end Calls

/-! ### Runs -/

lemma calls_concat (cs : List Call) (c : Call) (s : Pic) : calls (cs ++ [c]) s = call c (calls cs s) := by
  simp [calls]

/-- **Driver and controllers agree over every run.** Both controllers are ready, and
`i8259_Configure` is called first; then after every further call no initialisation sequence is
pending, the mask registers make `g_PicMask`, which `i8259_GetMask` reads back, vector bases and
end-of-interrupt mode are those of the last `i8259_Configure`, and the mask bit of a line is clear
exactly if the last call that affects the line cleared it. -/
theorem calls_synced (s : Pic) (h : s.Ready) (a b : UInt8) (e : Bool) (cs : List Call) :
    Synced (.configure a b e :: cs) (calls (.configure a b e :: cs) s) := by
  induction cs using List.reverseRecOn with
  | nil => exact List.nil_append [Call.configure a b e] ▸ configure_synced a b e h
  | append_singleton cs c ih =>
    rw [← List.cons_append, calls_concat]
    exact call_synced c ih

/-- A controller that waits for nothing, with the other registers at one value. -/
def idle (b : UInt8) : Chip := ⟨.mask, b, b, b, b, b, 0, 0⟩

theorem calls_synced_keyboard :
    Synced [.configure 0x20 0x28 false, .unmask 1, .sendEndOfInterrupt 9, .unmask 12, .mask 12]
      (calls [.configure 0x20 0x28 false, .unmask 1, .sendEndOfInterrupt 9, .unmask 12, .mask 12]
        ⟨0, idle 5, idle 7⟩) :=
  calls_synced ⟨0, idle 5, idle 7⟩ ⟨rfl, rfl⟩ 0x20 0x28 false _

end Pic
end ArcOS.Kernel
