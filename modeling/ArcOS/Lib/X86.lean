import ArcOS.Lib.Bytes
import Mathlib.Logic.Function.Basic

/-!
A processor of the x86 family, as far as real-mode stubs use it.

The registers are kept by their halves, so that the 16-bit and the 32-bit names of one register are
views of the same data. What the stack pointer and the frame pointer reach is one memory, and what the
data segments reach is another: code that is given pointers to its own stack is left out. A call of the
BIOS puts new values into the places that it is listed with, and leaves the others alone.

Code is a list of instructions; a jump forward over one of two branches, and a jump back to repeat
some instructions until the zero flag is set, are instructions of their own.
-/

namespace Lib.X86

/-! ### Registers -/

inductive Reg where
  | eax | ebx | ecx | edx | esi | edi | ebp | esp
  deriving DecidableEq

inductive Seg where
  | cs | ds | es | ss
  deriving DecidableEq

inductive Size where
  | byte | word | dword
  deriving DecidableEq

/-- The low byte of a word. -/
def lowByte (w : UInt16) : UInt8 := UInt8.ofNat w.toNat

/-- The high byte of a word. -/
def highByte (w : UInt16) : UInt8 := UInt8.ofNat (w.toNat / 256)

lemma le16_lowByte_highByte (w : UInt16) : le16 (lowByte w) (highByte w) = w := le16_bytes w

lemma lowByte_le16 (l h : UInt8) : lowByte (le16 l h) = l := by
  have hl := l.toNat_lt
  have hh := h.toNat_lt
  apply UInt8.toNat_inj.mp
  rw [lowByte, le16, UInt8.toNat_ofNat', UInt16.toNat_ofNat']
  omega

lemma highByte_le16 (l h : UInt8) : highByte (le16 l h) = h := by
  have hl := l.toNat_lt
  have hh := h.toNat_lt
  apply UInt8.toNat_inj.mp
  rw [highByte, le16, UInt8.toNat_ofNat', UInt16.toNat_ofNat']
  omega

/-- A 32-bit register by its halves. -/
structure Gpr where
  hi : UInt16
  lo : UInt16

namespace Gpr

/-- The number in a register. -/
def value (g : Gpr) : UInt32 := UInt32.ofNat (65536 * g.hi.toNat + g.lo.toNat)

/-- The register with a number. -/
def ofValue (v : UInt32) : Gpr := ⟨UInt16.ofNat (v.toNat / 65536), UInt16.ofNat v.toNat⟩

lemma toNat_value (g : Gpr) : g.value.toNat = 65536 * g.hi.toNat + g.lo.toNat := by
  have hhi := g.hi.toNat_lt
  have hlo := g.lo.toNat_lt
  rw [value, UInt32.toNat_ofNat']
  omega

@[simp] lemma value_ofValue (v : UInt32) : (ofValue v).value = v := by
  have hv := v.toNat_lt
  apply UInt32.toNat_inj.mp
  simp only [toNat_value, ofValue, UInt16.toNat_ofNat']
  omega

@[simp] lemma ofValue_value (g : Gpr) : ofValue g.value = g := by
  have hhi := g.hi.toNat_lt
  have hlo := g.lo.toNat_lt
  obtain ⟨hi, lo⟩ := g
  simp only [ofValue, toNat_value, mk.injEq]
  constructor
  · apply UInt16.toNat_inj.mp
    simp only [UInt16.toNat_ofNat']
    simp only at hhi hlo
    omega
  · apply UInt16.toNat_inj.mp
    simp only [UInt16.toNat_ofNat']
    simp only at hlo
    omega

end Gpr

/-! ### The machine -/

structure Machine where
  reg : Reg → Gpr
  seg : Seg → UInt16
  cr0 : UInt32
  carry : Bool
  zero : Bool
  interrupts : Bool
  /-- what the stack pointer and the frame pointer reach -/
  stack : UInt32 → UInt8
  /-- what the data segments reach, by linear addresses -/
  data : UInt32 → UInt8
  /-- the calls of the BIOS so far -/
  calls : ℕ

/-- What a call of the BIOS leaves: the values for the places it is listed with, the flags, and the
data. -/
structure Answer (Place : Type*) where
  value : Place → UInt32
  carry : Bool
  zero : Bool
  data : UInt32 → UInt8

namespace Machine

/-- Protected mode: bit 0 of CR0. -/
def Protected (m : Machine) : Prop := m.cr0 &&& 1 = 1

instance (m : Machine) : Decidable m.Protected := inferInstanceAs (Decidable (m.cr0 &&& 1 = 1))

def setReg (m : Machine) (r : Reg) (g : Gpr) : Machine := { m with reg := Function.update m.reg r g }

/-- The address of a displacement from a pointer into the stack. In protected mode the segment starts
at 0. -/
def stackAddr (m : Machine) (pointer : Gpr) (d : UInt16) : UInt32 :=
  if m.Protected then pointer.value + d.toUInt32
  else (m.seg .ss).toUInt32 <<< 4 + (pointer.lo + d).toUInt32

/-- The word at a displacement from a pointer into the stack. -/
def stackWord (m : Machine) (pointer : Gpr) (d : UInt16) : UInt16 :=
  le16 (m.stack (m.stackAddr pointer d)) (m.stack (m.stackAddr pointer (d + 1)))

/-- The stack pointer moved; in real mode only its low half moves. -/
def moveStack (m : Machine) (f : UInt16 → UInt16) (g : UInt32 → UInt32) : Machine :=
  m.setReg .esp (if m.Protected then .ofValue (g (m.reg .esp).value)
    else { m.reg .esp with lo := f (m.reg .esp).lo })

/-- A word stored where the stack pointer points. -/
def storeTop (m : Machine) (w : UInt16) : Machine :=
  let low := Function.update m.stack (m.stackAddr (m.reg .esp) 0) (lowByte w)
  { m with stack := Function.update low (m.stackAddr (m.reg .esp) 1) (highByte w) }

def pushWord (m : Machine) (w : UInt16) : Machine := (m.moveStack (· - 2) (· - 2)).storeTop w

/-- The word on top, and the machine without it. -/
def popWord (m : Machine) : UInt16 × Machine :=
  (m.stackWord (m.reg .esp) 0, m.moveStack (· + 2) (· + 2))

/-- The linear address of an offset in a data segment. -/
def dataAddr (m : Machine) (s : Seg) (offset : UInt16) : UInt32 :=
  (m.seg s).toUInt32 <<< 4 + offset.toUInt32

end Machine

/-! ### Operands -/

/-- What an instruction can write to: a register or a part of it, a segment register, the control
register, or data at a displacement from a 16-bit register in a segment. -/
inductive Place where
  | reg (r : Reg)
  | word (r : Reg)
  | low (r : Reg)
  | high (r : Reg)
  | seg (s : Seg)
  | cr0
  | mem (size : Size) (s : Seg) (r : Option Reg) (d : UInt16)
  deriving DecidableEq

/-- What an instruction can read: a place, a number, or the stack at a displacement from BP. -/
inductive Operand where
  | at (p : Place)
  | imm (v : UInt32)
  | bp (size : Size) (d : UInt16)
  deriving DecidableEq

instance : Coe Place Operand := ⟨.at⟩

def Place.size : Place → Size
  | .reg _ | .cr0 => .dword
  | .word _ | .seg _ => .word
  | .low _ | .high _ => .byte
  | .mem size _ _ _ => size

namespace Machine

/-- The offset that a data operand names. -/
def offset (m : Machine) (r : Option Reg) (d : UInt16) : UInt16 :=
  (r.elim 0 fun r => (m.reg r).lo) + d

/-- The bytes of a data operand. -/
def loadData (m : Machine) (size : Size) (s : Seg) (o : UInt16) : UInt32 :=
  let b := fun k : UInt16 => m.data (m.dataAddr s (o + k))
  match size with
  | .byte => (b 0).toUInt32
  | .word => (le16 (b 0) (b 1)).toUInt32
  | .dword => le32 (b 0) (b 1) (b 2) (b 3)

/-- Bytes stored in a data segment, from an offset on. -/
def storeBytes (s : Seg) : List UInt8 → UInt16 → Machine → Machine
  | [], _, m => m
  | b :: bs, o, m =>
    storeBytes s bs (o + 1) { m with data := Function.update m.data (m.dataAddr s o) b }

def readPlace (m : Machine) : Place → UInt32
  | .reg r => (m.reg r).value
  | .word r => (m.reg r).lo.toUInt32
  | .low r => (lowByte (m.reg r).lo).toUInt32
  | .high r => (highByte (m.reg r).lo).toUInt32
  | .seg s => (m.seg s).toUInt32
  | .cr0 => m.cr0
  | .mem size s r d => m.loadData size s (m.offset r d)

def read (m : Machine) : Operand → UInt32
  | .at p => m.readPlace p
  | .imm v => v
  | .bp .byte d => (m.stack (m.stackAddr (m.reg .ebp) d)).toUInt32
  | .bp .word d => (m.stackWord (m.reg .ebp) d).toUInt32
  | .bp .dword d => Gpr.value ⟨m.stackWord (m.reg .ebp) (d + 2), m.stackWord (m.reg .ebp) d⟩

/-- The bytes that a data operand of a size is stored as. -/
def bytesOf (v : UInt32) : Size → List UInt8
  | .byte => [v.toUInt8]
  | .word => bytes16 v.toUInt16
  | .dword => bytes32 v

def write (m : Machine) (v : UInt32) : Place → Machine
  | .reg r => m.setReg r (.ofValue v)
  | .word r => m.setReg r { m.reg r with lo := v.toUInt16 }
  | .low r => m.setReg r { m.reg r with lo := le16 v.toUInt8 (highByte (m.reg r).lo) }
  | .high r => m.setReg r { m.reg r with lo := le16 (lowByte (m.reg r).lo) v.toUInt8 }
  | .seg s => { m with seg := Function.update m.seg s v.toUInt16 }
  | .cr0 => { m with cr0 := v }
  | .mem size s r d => storeBytes s (bytesOf v size) (m.offset r d) m

end Machine

/-! ### Instructions -/

/-- The operations on two operands. `cmp` writes only the flags. -/
inductive Alu where
  | and | or | xor | shl | shr | sbb | cmp
  deriving DecidableEq

def Size.bits : Size → UInt32
  | .byte => 8
  | .word => 16
  | .dword => 32

/-- A number cut to a size. -/
def Size.cut (v : UInt32) : Size → UInt32
  | .byte => v.toUInt8.toUInt32
  | .word => v.toUInt16.toUInt32
  | .dword => v

/-- The result, before it is cut, and the carry flag. Shifts are by at least 1. -/
def Alu.eval (size : Size) (a b : UInt32) (carry : Bool) : Alu → UInt32 × Bool
  | .and => (a &&& b, false)
  | .or => (a ||| b, false)
  | .xor => (a ^^^ b, false)
  | .shl => (a <<< b, (a >>> (size.bits - b)) &&& 1 == 1)
  | .shr => (a >>> b, (a >>> (b - 1)) &&& 1 == 1)
  | .sbb => (a - b - (if carry then 1 else 0), decide (a.toNat < b.toNat + carry.toNat))
  | .cmp => (a - b, decide (a < b))

inductive Op where
  | push (p : Place)
  | pop (p : Place)
  | mov (dst : Place) (src : Operand)
  | alu (f : Alu) (dst : Place) (src : Operand)
  | inc (dst : Place)
  /-- DX:AX by a word -/
  | div (src : Operand)
  | stc
  | cli
  | sti
  | farJmp (selector : UInt16)
  /-- a call of the BIOS, with the places where the function called returns its results -/
  | int (vector : UInt8) (results : List Place)
  | ret

section Exec

variable (bios : ℕ → Answer Place)

/-- The results of a call of the BIOS. -/
def Machine.answered (m : Machine) (a : Answer Place) (results : List Place) : Machine :=
  { results.foldl (fun m p => m.write (a.value p) p) m with
    carry := a.carry, zero := a.zero, data := a.data, calls := m.calls + 1 }

/-- The operands of the other instructions that push; a register is pushed by its halves. -/
def Machine.push (m : Machine) : Place → Machine
  | .reg r => (m.pushWord (m.reg r).hi).pushWord (m.reg r).lo
  | p => m.pushWord (m.readPlace p).toUInt16

def Machine.pop (m : Machine) : Place → Machine
  | .reg r =>
    let (lo, m) := m.popWord
    let (hi, m) := m.popWord
    m.setReg r ⟨hi, lo⟩
  | p => let (w, m) := m.popWord; m.write w.toUInt32 p

/-- One instruction; `none` is the fault of a division. -/
def exec : Op → Machine → Option Machine
  | .push p, m => some (m.push p)
  | .pop p, m => some (m.pop p)
  | .mov dst src, m => some (m.write (m.read src) dst)
  | .alu f dst src, m =>
    let (v, carry) := f.eval dst.size (m.readPlace dst) (m.read src) m.carry
    let m' := if f = .cmp then m else m.write v dst
    some { m' with carry := carry, zero := dst.size.cut v == 0 }
  | .inc dst, m =>
    let v := m.readPlace dst + 1
    some { m.write v dst with zero := dst.size.cut v == 0 }
  | .div src, m =>
    let dividend := (Gpr.mk (m.reg .edx).lo (m.reg .eax).lo).value
    let divisor := m.read src
    if divisor = 0 ∨ 65536 ≤ (dividend / divisor).toNat then none
    else some ((m.write (dividend / divisor) (.word .eax)).write (dividend % divisor) (.word .edx))
  | .stc, m => some { m with carry := true }
  | .cli, m => some { m with interrupts := false }
  | .sti, m => some { m with interrupts := true }
  | .farJmp selector, m => some (m.write selector.toUInt32 (.seg .cs))
  | .int _ results, m => some (m.answered (bios m.calls) results)
  | .ret, m => some (m.moveStack (· + 2) (· + 4))

def execAll : List Op → Machine → Option Machine
  | [], m => some m
  | o :: os, m => (exec bios o m).bind (execAll os)

/-- Instructions with their jumps: `ifZero` is a `jne` over its first branch to its second one, and
`untilZero` ends with a `jne` back to its start. -/
inductive Instr where
  | op (o : Op)
  | ifZero (yes no : List Op)
  | untilZero (body : List Op)

/-- Rounds up to one that leaves the zero flag set, with the rounds left. -/
def rounds (body : List Op) : ℕ → Machine → Option Machine
  | 0, _ => none
  | fuel + 1, m => (execAll bios body m).bind fun m => if m.zero then some m else rounds body fuel m

def Instr.run (fuel : ℕ) : Instr → Machine → Option Machine
  | .op o, m => exec bios o m
  | .ifZero yes no, m => if m.zero then execAll bios yes m else execAll bios no m
  | .untilZero body, m => rounds bios body fuel m

/-- A run of code, with the rounds that its loops may take. -/
def run (fuel : ℕ) : List Instr → Machine → Option Machine
  | [], m => some m
  | i :: is, m => (i.run bios fuel m).bind (run fuel is)

lemma run_append (fuel : ℕ) (is js : List Instr) (m : Machine) :
    run bios fuel (is ++ js) m = (run bios fuel is m).bind (run bios fuel js) := by
  induction is generalizing m with
  | nil => rfl
  | cons i is ih =>
    rw [List.cons_append, run, run]
    cases i.run bios fuel m with
    | none => rfl
    | some m' => exact ih m'

lemma execAll_append (os os' : List Op) (m : Machine) :
    execAll bios (os ++ os') m = (execAll bios os m).bind (execAll bios os') := by
  induction os generalizing m with
  | nil => rfl
  | cons o os ih =>
    rw [List.cons_append, execAll, execAll]
    cases exec bios o m with
    | none => rfl
    | some m' => exact ih m'

end Exec

/-! ### Real mode -/

section Real

variable {m : Machine}

/-- In real mode addresses of different offsets are different. -/
lemma stackAddr_inj (h : ¬ m.Protected) {g : Gpr} {d e : UInt16}
    (heq : m.stackAddr g d = m.stackAddr g e) : d = e := by
  rw [Machine.stackAddr, Machine.stackAddr, if_neg h, if_neg h, UInt32.add_right_inj] at heq
  have hnat : (g.lo + d).toNat = (g.lo + e).toNat := by
    simpa using congrArg UInt32.toNat heq
  exact UInt16.add_right_inj _ |>.mp (UInt16.toNat_inj.mp hnat)

lemma pushWord_real (h : ¬ m.Protected) (w : UInt16) :
    m.pushWord w = { m with
      reg := Function.update m.reg .esp { m.reg .esp with lo := (m.reg .esp).lo - 2 }
      stack := Function.update (Function.update m.stack
        (m.stackAddr { m.reg .esp with lo := (m.reg .esp).lo - 2 } 0) (lowByte w))
        (m.stackAddr { m.reg .esp with lo := (m.reg .esp).lo - 2 } 1) (highByte w) } := by
  have hmove : m.moveStack (· - 2) (· - 2) =
      m.setReg .esp { m.reg .esp with lo := (m.reg .esp).lo - 2 } := by
    rw [Machine.moveStack, if_neg h]
  rw [Machine.pushWord, hmove, Machine.storeTop]
  simp only [Machine.setReg, Function.update_self]
  rfl

lemma pushWord_stackWord (h : ¬ m.Protected) (w : UInt16) :
    (m.pushWord w).stackWord ((m.pushWord w).reg .esp) 0 = w ∧
      (m.pushWord w).stackWord ((m.pushWord w).reg .esp) 2 = m.stackWord (m.reg .esp) 0 := by
  obtain ⟨g, hg⟩ : ∃ g : Gpr, g = { m.reg .esp with lo := (m.reg .esp).lo - 2 } := ⟨_, rfl⟩
  have hne : ∀ d e : UInt16, d ≠ e → m.stackAddr g d ≠ m.stackAddr g e := fun d e hde heq =>
    hde (stackAddr_inj h heq)
  have hback : ∀ d : UInt16, m.stackAddr g (2 + d) = m.stackAddr (m.reg .esp) d := by
    intro d
    have hlo : g.lo + (2 + d) = (m.reg .esp).lo + d := by
      rw [hg]
      grind
    rw [Machine.stackAddr, Machine.stackAddr, if_neg h, if_neg h, hlo]
  have hword : ∀ d : UInt16, (m.pushWord w).stackWord ((m.pushWord w).reg .esp) d =
      le16 ((m.pushWord w).stack (m.stackAddr g d)) ((m.pushWord w).stack (m.stackAddr g (d + 1))) := by
    intro d
    rw [pushWord_real h, ← hg]
    simp only [Machine.stackWord, Function.update_self]
    rfl
  have hstack : (m.pushWord w).stack = Function.update
      (Function.update m.stack (m.stackAddr g 0) (lowByte w)) (m.stackAddr g 1) (highByte w) := by
    rw [pushWord_real h, ← hg]
  constructor
  · rw [hword, hstack, show (0 : UInt16) + 1 = 1 from rfl, Function.update_of_ne (hne 0 1 (by decide)),
      Function.update_self, Function.update_self, le16_lowByte_highByte]
  · rw [hword, hstack, Function.update_of_ne (hne 2 1 (by decide)),
      Function.update_of_ne (hne 2 0 (by decide)), Function.update_of_ne (hne (2 + 1) 1 (by decide)),
      Function.update_of_ne (hne (2 + 1) 0 (by decide)), hback 1, show (2 : UInt16) = 2 + 0 from rfl,
      hback 0]
    rfl

lemma popWord_real (h : ¬ m.Protected) : m.popWord = (m.stackWord (m.reg .esp) 0,
    m.setReg .esp { m.reg .esp with lo := (m.reg .esp).lo + 2 }) := by
  rw [Machine.popWord, Machine.moveStack, if_neg h]

end Real

/-! ### Protected mode -/

section Protected

variable {m : Machine}

lemma pushWord_protected (h : m.Protected) (w : UInt16) :
    m.pushWord w = { m with
      reg := Function.update m.reg .esp (.ofValue ((m.reg .esp).value - 2))
      stack := Function.update (Function.update m.stack ((m.reg .esp).value - 2) (lowByte w))
        ((m.reg .esp).value - 2 + 1) (highByte w) } := by
  have hmove : m.moveStack (· - 2) (· - 2) = m.setReg .esp (.ofValue ((m.reg .esp).value - 2)) := by
    rw [Machine.moveStack, if_pos h]
  have haddr : ∀ d : UInt16, (m.setReg .esp (.ofValue ((m.reg .esp).value - 2))).stackAddr
      (.ofValue ((m.reg .esp).value - 2)) d = (m.reg .esp).value - 2 + d.toUInt32 := by
    intro d
    rw [Machine.stackAddr, if_pos (show (m.setReg _ _).Protected from h), Gpr.value_ofValue]
  rw [Machine.pushWord, hmove, Machine.storeTop]
  simp only [Machine.setReg, Function.update_self] at haddr ⊢
  rw [haddr, haddr, show (0 : UInt16).toUInt32 = 0 from rfl, UInt32.add_zero]
  rfl

lemma popWord_protected (h : m.Protected) : m.popWord =
    (le16 (m.stack (m.reg .esp).value) (m.stack ((m.reg .esp).value + 1)),
      m.setReg .esp (.ofValue ((m.reg .esp).value + 2))) := by
  simp only [Machine.popWord, Machine.stackWord, Machine.stackAddr, Machine.moveStack, if_pos h]
  rw [show (0 : UInt16).toUInt32 = 0 from rfl, UInt32.add_zero]
  rfl

end Protected

lemma value_and_one (g : Gpr) (b : UInt8) :
    Gpr.value { g with lo := le16 b (highByte g.lo) } &&& 1 = b.toUInt32 &&& 1 := by
  have hlo : (le16 b (highByte g.lo)).toNat % 2 = b.toNat % 2 := by
    rw [le16, UInt16.toNat_ofNat']
    omega
  apply UInt32.toNat_inj.mp
  rw [UInt32.toNat_and, UInt32.toNat_and, Gpr.toNat_value]
  simp only [UInt32.reduceToNat, Nat.and_one_is_mod, UInt8.toNat_toUInt32]
  omega

/-- A division of a word by a word, with nothing in DX, does not fault. -/
lemma exec_div (bios : ℕ → Answer Place) {m : Machine} {src : Operand} {d : UInt16}
    (hdx : (m.reg .edx).lo = 0) (hsrc : m.read src = d.toUInt32) (hd : d ≠ 0) :
    exec bios (.div src) m = some
      ((m.setReg .eax { m.reg .eax with lo := (m.reg .eax).lo / d }).setReg .edx
        { m.reg .edx with lo := (m.reg .eax).lo % d }) := by
  have hdividend : Gpr.value ⟨(m.reg .edx).lo, (m.reg .eax).lo⟩ = (m.reg .eax).lo.toUInt32 := by
    apply UInt32.toNat_inj.mp
    rw [Gpr.toNat_value, hdx]
    simp
  have hdivisor : ¬ (d.toUInt32 = 0 ∨
      65536 ≤ ((m.reg .eax).lo.toUInt32 / d.toUInt32).toNat) := by
    have hlt := (m.reg .eax).lo.toNat_lt
    have hle := Nat.div_le_self (m.reg .eax).lo.toNat d.toNat
    rintro (hzero | hlarge)
    · exact hd (UInt16.toNat_inj.mp (by simpa using congrArg UInt32.toNat hzero))
    · rw [UInt32.toNat_div, UInt16.toNat_toUInt32, UInt16.toNat_toUInt32] at hlarge
      omega
  have hquotient : ((m.reg .eax).lo.toUInt32 / d.toUInt32).toUInt16 = (m.reg .eax).lo / d := by
    apply UInt16.toNat_inj.mp
    simp
    exact (Nat.div_le_self _ _).trans_lt (UInt16.toNat_lt _)
  have hremainder : ((m.reg .eax).lo.toUInt32 % d.toUInt32).toUInt16 = (m.reg .eax).lo % d := by
    apply UInt16.toNat_inj.mp
    simp
    exact (Nat.mod_le _ _).trans_lt (UInt16.toNat_lt _)
  rw [exec]
  simp only [hsrc, hdividend, if_neg hdivisor, Machine.write, hquotient, hremainder]
  rfl

/-! ### Names -/

def eax : Place := .reg .eax
def ebx : Place := .reg .ebx
def ecx : Place := .reg .ecx
def edx : Place := .reg .edx
def esi : Place := .reg .esi
def edi : Place := .reg .edi
def ebp : Place := .reg .ebp
def esp : Place := .reg .esp
def ax : Place := .word .eax
def bx : Place := .word .ebx
def cx : Place := .word .ecx
def dx : Place := .word .edx
def si : Place := .word .esi
def di : Place := .word .edi
def al : Place := .low .eax
def ah : Place := .high .eax
def bl : Place := .low .ebx
def bh : Place := .high .ebx
def cl : Place := .low .ecx
def ch : Place := .high .ecx
def dl : Place := .low .edx
def dh : Place := .high .edx
def ds : Place := .seg .ds
def es : Place := .seg .es
def ss : Place := .seg .ss

end Lib.X86
