import ArcOS.Lib.X86Frame

/-!
The BIOS call stubs of `x86.asm`, instruction by instruction.

Each stub sets up a frame, goes to real mode, saves some registers, calls the BIOS, restores what it
saved, goes back to protected mode and drops the frame. What happens between the switches is followed on
symbols; the frame and the switches are the same for all stubs.
-/

namespace ArcOS.Boot.Asm

open Lib Lib.X86

/-! ### The macros -/

/-- `x86_EnterRealMode` -/
def x86EnterRealMode : List Op :=
  [.farJmp 0x18,
   .mov eax Place.cr0, .alu .and al (.imm 0xFE), .mov .cr0 eax,
   .farJmp 0x00,
   .mov ax (.imm 0), .mov ds ax, .mov ss ax,
   .sti]

/-- `x86_EnterProtectedMode` -/
def x86EnterProtectedMode : List Op :=
  [.cli,
   .mov eax Place.cr0, .alu .or al (.imm 1), .mov .cr0 eax,
   .farJmp 0x08,
   .mov ax (.imm 0x10), .mov ds ax, .mov ss ax]

/-- `LinearToSegOffset` of an argument -/
def linearToSegOffset (d : UInt16) (s : Seg) (r : Reg) : List Op :=
  [.mov (.reg r) (.bp .dword d), .alu .shr (.reg r) (.imm 4), .mov (.seg s) (Place.word r),
   .mov (.reg r) (.bp .dword d), .alu .and (.reg r) (.imm 0xF)]

/-- The frame that every stub starts with. -/
def enterFrame : List Op := [.push ebp, .mov ebp esp]

/-- What every stub ends with. -/
def leaveFrame : List Op := [.mov esp ebp, .pop ebp, .ret]

/-- Instructions without jumps, part by part. -/
def ops (parts : List (List Op)) : List Instr := parts.flatten.map .op

/-! ### The stubs -/

/-- `x86_Disk_GetDriveParams`, between the switches -/
def x86DiskGetDriveParams : List Instr :=
  ops [[.push es, .push bx, .push esi, .push di,
    .mov dl (.bp .byte 8), .mov ah (.imm 0x08), .mov di (.imm 0), .mov es di, .stc,
    .int 0x13 [ah, bl, ch, cl, dh, dl, es, di],
    .mov eax (.imm 1), .alu .sbb eax (.imm 0)],
    linearToSegOffset 12 .es .esi, [.mov (.mem .byte .es (some .esi) 0) bl,
    .mov bl ch, .mov bh cl, .alu .shr bh (.imm 6), .inc bx],
    linearToSegOffset 16 .es .esi, [.mov (.mem .word .es (some .esi) 0) bx,
    .alu .xor ch ch, .alu .and cl (.imm 0x3F)],
    linearToSegOffset 20 .es .esi, [.mov (.mem .word .es (some .esi) 0) cx,
    .mov cl dh, .inc cx],
    linearToSegOffset 24 .es .esi, [.mov (.mem .word .es (some .esi) 0) cx,
    .pop di, .pop esi, .pop bx, .pop es,
    .push eax]]

/-- `x86_Disk_Reset`, between the switches -/
def x86DiskReset : List Instr :=
  ops [[.mov ah (.imm 0), .mov dl (.bp .byte 8), .stc,
    .int 0x13 [ah],
    .mov eax (.imm 1), .alu .sbb eax (.imm 0),
    .push eax]]

/-- `x86_Disk_Read`, between the switches -/
def x86DiskRead : List Instr :=
  ops [[.push ebx, .push es,
    .mov dl (.bp .byte 8), .mov ch (.bp .byte 12), .mov cl (.bp .byte 13), .alu .shl cl (.imm 6),
    .mov al (.bp .byte 16), .alu .and al (.imm 0x3F), .alu .or cl al,
    .mov dh (.bp .byte 20), .mov al (.bp .byte 24)],
    linearToSegOffset 28 .es .ebx, [.mov ah (.imm 0x02), .stc,
    .int 0x13 [ah, al],
    .mov eax (.imm 1), .alu .sbb eax (.imm 0),
    .pop es, .pop ebx,
    .push eax]]

/-- The result of a VBE call: AH when AL is 4Fh, and −1 when it is not. -/
def vbeResult : List Instr :=
  [.op (.alu .cmp al (.imm 0x4F)),
    .ifZero [.mov al ah, .alu .and eax (.imm 0xFF)] [.mov eax (.imm 0xFFFFFFFF)]]

/-- `x86_Video_GetVbeInfo`, between the switches -/
def x86VideoGetVbeInfo : List Instr :=
  ops [[.push edi, .push es, .push ebp,
    .mov ax (.imm 0x4F00)], linearToSegOffset 8 .es .edi, [.int 0x10 [ax]]] ++
  (vbeResult ++
  ops [[.pop ebp, .pop es, .pop ebx,
    .push eax]])

/-- `x86_Video_GetModeInfo`, between the switches -/
def x86VideoGetModeInfo : List Instr :=
  ops [[.push edi, .push es, .push ebp, .push ecx,
    .mov ax (.imm 0x4F01), .mov cx (.bp .word 8)], linearToSegOffset 12 .es .edi, [.int 0x10 [ax]]] ++
  (vbeResult ++
  ops [[.pop ecx, .pop ebp, .pop es, .pop ebx,
    .push eax]])

/-- `x86_Video_SetMode`, between the switches -/
def x86VideoSetMode : List Instr :=
  ops [[.push edi, .push es, .push ebp, .push ebx,
    .mov ax (.imm 0), .mov es ax, .mov edi (.imm 0), .mov ax (.imm 0x4F02), .mov bx (.bp .word 8),
    .int 0x10 [ax]]] ++
  (vbeResult ++
  ops [[.pop ebx, .pop ebp, .pop es, .pop ebx,
    .push eax]])

/-- `x86_E820GetNextBlock`, between the switches -/
def x86E820GetNextBlock : List Instr :=
  ops [[.push ebx, .push ecx, .push edx, .push esi, .push edi, .push ds, .push es],
    linearToSegOffset 8 .es .edi, linearToSegOffset 12 .ds .esi,
    [.mov ebx (Place.mem .dword .ds (some .esi) 0),
    .mov eax (.imm 0xE820), .mov edx (.imm 0x534D4150), .mov ecx (.imm 24),
    .int 0x15 [eax, ebx, ecx],
    .alu .cmp eax (.imm 0x534D4150)]] ++
  (.ifZero [.mov eax ecx, .mov (.mem .dword .ds (some .esi) 0) ebx] [.mov eax (.imm 0xFFFFFFFF)] ::
  ops [[.pop es, .pop ds, .pop edi, .pop esi, .pop edx, .pop ecx, .pop ebx,
    .push eax]])

/-- What `x86_WaitForEnter` repeats until the key is Enter. -/
def waitForEnterLoop : List Op := [.alu .xor ah ah, .int 0x16 [ah, al], .alu .cmp al (.imm 0x0D)]

/-- `x86_WaitForEnter`, between the switches -/
def x86WaitForEnter : List Instr :=
  ops [[.push ebx, .push es]] ++
  (.untilZero waitForEnterLoop ::
  ops [[.mov al (.imm 1),
    .pop es, .pop ebx]])

/-- The stubs that call the BIOS. -/
inductive Stub where
  | diskGetDriveParams
  | diskReset
  | diskRead
  | videoGetVbeInfo
  | videoGetModeInfo
  | videoSetMode
  | e820GetNextBlock
  | waitForEnter
  deriving DecidableEq

namespace Stub

/-- The code between the two switches. -/
def body : Stub → List Instr
  | diskGetDriveParams => x86DiskGetDriveParams
  | diskReset => x86DiskReset
  | diskRead => x86DiskRead
  | videoGetVbeInfo => x86VideoGetVbeInfo
  | videoGetModeInfo => x86VideoGetModeInfo
  | videoSetMode => x86VideoSetMode
  | e820GetNextBlock => x86E820GetNextBlock
  | waitForEnter => x86WaitForEnter

/-- The code from the second switch on. All stubs but one have left their result on the stack. -/
def leave : Stub → List Instr
  | waitForEnter => ops [x86EnterProtectedMode, leaveFrame]
  | _ => ops [x86EnterProtectedMode, [.pop eax], leaveFrame]

/-- The whole stub. -/
def code (stub : Stub) : List Instr :=
  ops [enterFrame, x86EnterRealMode] ++ (stub.body ++ stub.leave)

end Stub

/-! ### The frame -/

section Frame

variable (bios : ℕ → Answer Place) {m s t : Machine}

lemma run_ops (fuel : ℕ) (parts : List (List Op)) (m : Machine) :
    run bios fuel (ops parts) m = execAll bios parts.flatten m := by
  rw [ops]
  induction parts.flatten generalizing m with
  | nil => rfl
  | cons o os ih =>
    rw [List.map_cons, run, execAll, Instr.run]
    cases exec bios o m with
    | none => rfl
    | some m' => exact ih m'

lemma and_0xFE (b : UInt8) : (b.toUInt32 &&& 0xFE).toUInt8.toUInt32 &&& 1 = 0 := by
  have hmod : (b.toNat &&& 254) % 2 = 0 := by
    rw [Nat.and_mod_two_pow (n := 1)]
    simp
  apply UInt32.toNat_inj.mp
  rw [UInt32.toNat_and]
  simp
  omega

lemma or_1 (b : UInt8) : (b.toUInt32 ||| 1).toUInt8.toUInt32 &&& 1 = 1 := by
  have hmod : (b.toNat ||| 1) % 2 = 1 := by
    rw [Nat.or_mod_two_pow (n := 1)]
    obtain h | h : b.toNat % 2 ^ 1 = 0 ∨ b.toNat % 2 ^ 1 = 1 := by omega
    all_goals rw [h]
    all_goals rfl
  apply UInt32.toNat_inj.mp
  rw [UInt32.toNat_and]
  simp

lemma enterRealMode_run (m : Machine) : ∃ s, execAll bios x86EnterRealMode m = some s ∧
    ¬ s.Protected ∧ s.seg .ss = 0 ∧ (∀ r, r ≠ .eax → s.reg r = m.reg r) ∧ s.stack = m.stack ∧
    s.calls = m.calls := by
  refine ⟨_, rfl, ?_, rfl, fun r hr => ?_, rfl, rfl⟩
  · have hbit := value_and_one (.ofValue m.cr0)
      ((lowByte (Gpr.ofValue m.cr0).lo).toUInt32 &&& 0xFE).toUInt8
    rw [and_0xFE] at hbit
    intro hprotected
    exact absurd (hbit.symm.trans hprotected) (by decide)
  · cases r <;> first | rfl | exact absurd rfl hr

lemma enterProtectedMode_run (m : Machine) : ∃ s, execAll bios x86EnterProtectedMode m = some s ∧
    s.Protected ∧ (∀ r, r ≠ .eax → s.reg r = m.reg r) ∧ s.stack = m.stack := by
  refine ⟨_, rfl, ?_, fun r hr => ?_, rfl⟩
  · have hbit := value_and_one (.ofValue m.cr0)
      ((lowByte (Gpr.ofValue m.cr0).lo).toUInt32 ||| 1).toUInt8
    rw [or_1] at hbit
    exact hbit
  · cases r <;> first | rfl | exact absurd rfl hr

/-- What a stub has done when it comes to real mode: the frame holds EBP, and nothing but EAX and the
segments has changed otherwise. -/
structure Entered (m s : Machine) : Prop where
  framed : Framed s
  regs : ∀ r, r ≠ .eax → r ≠ .ebp → r ≠ .esp → s.reg r = m.reg r
  frame : (s.reg .ebp).value = (m.reg .esp).value - 4
  lo : le16 (s.stack (s.reg .ebp).value) (s.stack ((s.reg .ebp).value + 1)) = (m.reg .ebp).lo
  hi : le16 (s.stack ((s.reg .ebp).value + 2)) (s.stack ((s.reg .ebp).value + 2 + 1)) = (m.reg .ebp).hi
  kept : ∀ a, a ≠ (s.reg .ebp).value → a ≠ (s.reg .ebp).value + 1 → a ≠ (s.reg .ebp).value + 2 →
    a ≠ (s.reg .ebp).value + 2 + 1 → s.stack a = m.stack a
  calls : s.calls = m.calls

lemma push_ebp (hm : m.Protected) {E : UInt32} (hE : E = (m.reg .esp).value - 4) :
    m.push ebp = { m with
      reg := Function.update m.reg .esp (.ofValue E)
      stack := Function.update (Function.update (Function.update (Function.update m.stack
        (E + 2) (lowByte (m.reg .ebp).hi)) (E + 2 + 1) (highByte (m.reg .ebp).hi))
        E (lowByte (m.reg .ebp).lo)) (E + 1) (highByte (m.reg .ebp).lo) } := by
  have hup : (m.reg .esp).value - 2 = E + 2 := by grind
  have hdown : E + 2 - 2 = E := by grind
  have hpush : m.push ebp = (m.pushWord (m.reg .ebp).hi).pushWord (m.reg .ebp).lo := rfl
  have hfirst := pushWord_protected hm (m.reg .ebp).hi
  have hprotected : (m.pushWord (m.reg .ebp).hi).Protected := by
    rw [hfirst]
    exact hm
  rw [hpush, pushWord_protected hprotected, hfirst]
  simp only [Function.update_self, Gpr.value_ofValue, hup, hdown, Function.update_idem]

lemma enter_run (hm : m.Protected) (fuel : ℕ) :
    ∃ s, run bios fuel (ops [enterFrame, x86EnterRealMode]) m = some s ∧ Entered m s := by
  obtain ⟨E, hE⟩ : ∃ E, E = (m.reg .esp).value - 4 := ⟨_, rfl⟩
  obtain ⟨p, hp⟩ : ∃ p, p = (m.push ebp).setReg .ebp (.ofValue E) := ⟨_, rfl⟩
  have hpush := push_ebp hm hE
  have hframe : execAll bios enterFrame m = some p := by
    have hesp : ((m.push ebp).reg .esp).value = E := by simp [hpush]
    rw [hp, ← hesp]
    rfl
  obtain ⟨s, hswitch, hreal, hss, hregs, hstack, hcalls⟩ := enterRealMode_run bios p
  have hrun : run bios fuel (ops [enterFrame, x86EnterRealMode]) m = some s := by
    have hflat : [enterFrame, x86EnterRealMode].flatten = enterFrame ++ x86EnterRealMode := rfl
    rw [run_ops, hflat, execAll_append, hframe, Option.bind_some, hswitch]
  have hebp : s.reg .ebp = .ofValue E := by
    rw [hregs _ (by decide), hp]
    simp [Machine.setReg]
  have hesp : s.reg .esp = .ofValue E := by
    rw [hregs _ (by decide), hp, hpush]
    simp [Machine.setReg]
  have hmem : s.stack = Function.update (Function.update (Function.update (Function.update m.stack
      (E + 2) (lowByte (m.reg .ebp).hi)) (E + 2 + 1) (highByte (m.reg .ebp).hi))
      E (lowByte (m.reg .ebp).lo)) (E + 1) (highByte (m.reg .ebp).lo) := by
    rw [hstack, hp, hpush]
    rfl
  have h01 : E ≠ E + 1 := by grind
  have h21 : E + 2 ≠ E + 1 := by grind
  have h20 : E + 2 ≠ E := by grind
  have h31 : E + 2 + 1 ≠ E + 1 := by grind
  have h30 : E + 2 + 1 ≠ E := by grind
  have h23 : E + 2 ≠ E + 2 + 1 := by grind
  refine ⟨s, hrun, ?_⟩
  exact
    { framed := ⟨hreal, hss, hebp.trans hesp.symm⟩
      regs := fun r hax hbp hsp => by
        rw [hregs r hax, hp, hpush]
        simp [Machine.setReg, hbp, hsp]
      frame := by rw [hebp, Gpr.value_ofValue, hE]
      lo := by
        rw [hebp, Gpr.value_ofValue, hmem]
        simp only [Function.update_self, Function.update_of_ne h01]
        exact le16_lowByte_highByte _
      hi := by
        rw [hebp, Gpr.value_ofValue, hmem]
        simp only [Function.update_self, Function.update_of_ne h21, Function.update_of_ne h20,
          Function.update_of_ne h23, Function.update_of_ne h31, Function.update_of_ne h30]
        exact le16_lowByte_highByte _
      kept := fun a h₀ h₁ h₂ h₃ => by
        rw [hebp, Gpr.value_ofValue] at h₀ h₁ h₂ h₃
        rw [hmem]
        simp only [Function.update_of_ne h₀, Function.update_of_ne h₁, Function.update_of_ne h₂,
          Function.update_of_ne h₃]
      calls := by rw [hcalls, hp, hpush]; rfl }

/-- The word of the caller's stack at a displacement from the frame, as real-mode code reads it. -/
def callerWord (m : Machine) (d : UInt16) : UInt16 :=
  le16 (m.stack ((m.reg .esp).lo - 4 + d).toUInt32) (m.stack ((m.reg .esp).lo - 4 + (d + 1)).toUInt32)

lemma lo_sub_4 {g g' : Gpr} (h : g'.value = g.value - 4) : g'.lo = g.lo - 4 := by
  have hg := Gpr.toNat_value g
  have hg' := Gpr.toNat_value g'
  have hlt := g.lo.toNat_lt
  have hhi := g.hi.toNat_lt
  have hlt' := g'.lo.toNat_lt
  have hhi' := g'.hi.toNat_lt
  have hnat := congrArg UInt32.toNat h
  rw [UInt32.toNat_sub, hg, hg', show (4 : UInt32).toNat = 4 from rfl] at hnat
  apply UInt16.toNat_inj.mp
  rw [UInt16.toNat_sub, show (4 : UInt16).toNat = 4 from rfl]
  omega

lemma toUInt16_value_add (g : Gpr) (k : ℕ) :
    (g.value + UInt32.ofNat k).toUInt16 = g.lo + UInt16.ofNat k := by
  have hg := Gpr.toNat_value g
  have hlt := g.lo.toNat_lt
  have hhi := g.hi.toNat_lt
  apply UInt16.toNat_inj.mp
  simp only [UInt32.toNat_toUInt16, UInt32.toNat_add, UInt32.toNat_ofNat', hg, UInt16.toNat_add,
    UInt16.toNat_ofNat']
  omega

lemma Entered.stackWord (h : Entered m s) {d : UInt16} (hd : 4 ≤ d.toNat) (hd' : d.toNat < 60000) :
    s.stackWord (s.reg .ebp) d = callerWord m d := by
  have hlo : (s.reg .ebp).lo = (m.reg .esp).lo - 4 := lo_sub_4 h.frame
  have hkept : ∀ e : UInt16, 4 ≤ e.toNat → e.toNat < 60001 →
      s.stack ((s.reg .ebp).lo + e).toUInt32 = m.stack ((s.reg .ebp).lo + e).toUInt32 := by
    intro e he he'
    have hne : ∀ k, k < 4 → ((s.reg .ebp).lo + e).toUInt32 ≠ (s.reg .ebp).value + UInt32.ofNat k := by
      intro k hk heq
      have hhalf := congrArg (fun v => (UInt32.toUInt16 v).toNat) heq
      have hlt := (s.reg .ebp).lo.toNat_lt
      simp only [toUInt16_value_add _ k, UInt16.toUInt16_toUInt32, UInt16.toNat_add,
        UInt16.toNat_ofNat'] at hhalf
      omega
    exact h.kept _ (by simpa using hne 0 (by decide)) (hne 1 (by decide)) (hne 2 (by decide))
      (by simpa [UInt32.add_assoc] using hne 3 (by decide))
  have hsucc : (d + 1).toNat = d.toNat + 1 := by
    rw [UInt16.toNat_add]
    exact Nat.mod_eq_of_lt (by simp; omega)
  rw [Machine.stackWord, stackAddr_real h.framed.real h.framed.ss,
    stackAddr_real h.framed.real h.framed.ss, hkept d hd (by omega), hkept (d + 1) (by omega) (by omega),
    hlo]
  rfl

lemma leaveFrame_run (ht : t.Protected) : ∃ w, execAll bios leaveFrame t = some w ∧
    (∀ r, r ≠ .ebp → r ≠ .esp → w.reg r = t.reg r) ∧
    w.reg .ebp = ⟨le16 (t.stack ((t.reg .ebp).value + 2)) (t.stack ((t.reg .ebp).value + 2 + 1)),
      le16 (t.stack (t.reg .ebp).value) (t.stack ((t.reg .ebp).value + 1))⟩ ∧
    (w.reg .esp).value = (t.reg .ebp).value + 8 := by
  obtain ⟨b, hb⟩ : ∃ b, b = (t.reg .ebp).value := ⟨_, rfl⟩
  obtain ⟨u, hu⟩ : ∃ u, u = t.setReg .esp (.ofValue b) := ⟨_, rfl⟩
  have huProtected : u.Protected := by rw [hu]; exact ht
  have huesp : (u.reg .esp).value = b := by simp [hu, Machine.setReg]
  have hfirst : u.popWord = (le16 (t.stack b) (t.stack (b + 1)), t.setReg .esp (.ofValue (b + 2))) := by
    rw [popWord_protected huProtected, huesp, hu]
    simp [Machine.setReg]
  have hsecond : u.popWord.2.popWord =
      (le16 (t.stack (b + 2)) (t.stack (b + 2 + 1)), t.setReg .esp (.ofValue (b + 2 + 2))) := by
    rw [hfirst, popWord_protected (show (t.setReg _ _).Protected from ht)]
    simp [Machine.setReg]
  have hpop : u.pop ebp = (t.setReg .esp (.ofValue (b + 2 + 2))).setReg .ebp
      ⟨le16 (t.stack (b + 2)) (t.stack (b + 2 + 1)), le16 (t.stack b) (t.stack (b + 1))⟩ := by
    have hunfold : u.pop ebp = u.popWord.2.popWord.2.setReg .ebp
        ⟨u.popWord.2.popWord.1, u.popWord.1⟩ := rfl
    rw [hunfold, hsecond, hfirst]
  have hrun : execAll bios leaveFrame t = some ((u.pop ebp).moveStack (· + 2) (· + 4)) := by
    rw [hu, hb]
    rfl
  have hret : (u.pop ebp).moveStack (· + 2) (· + 4) =
      (u.pop ebp).setReg .esp (.ofValue (((u.pop ebp).reg .esp).value + 4)) := by
    have hprotected : (u.pop ebp).Protected := by
      rw [hpop]
      exact ht
    rw [Machine.moveStack, if_pos hprotected]
  rw [hret, hpop] at hrun
  have hsum : b + 2 + 2 + 4 = b + 8 := by grind
  refine ⟨_, hrun, fun r hbp hsp => ?_, ?_, ?_⟩
  · simp [Machine.setReg, hbp, hsp]
  · rw [← hb]
    simp [Machine.setReg]
  · rw [← hb, ← hsum]
    simp [Machine.setReg]

lemma execAll_pop (p : Place) (os : List Op) (m : Machine) :
    execAll bios (.pop p :: os) m = execAll bios os (m.pop p) := rfl

/-- **From the second switch on.** What the symbols say of the four registers is what the caller gets,
and the stack pointer is behind the return address. -/
lemma leave_run (hs : Framed s) {σ : Abs} (ht : Models s σ t) (hhi : σ.hi .ebp = .hi .ebp)
    (hlo : σ.lo .ebp = .lo .ebp) (stub : Stub) (fuel : ℕ) :
    ∃ w, run bios fuel stub.leave t = some w ∧
      (∀ r, r ≠ .eax → r ≠ .ebp → r ≠ .esp → w.reg r = t.reg r) ∧
      w.reg .ebp = ⟨le16 (s.stack ((s.reg .ebp).value + 2)) (s.stack ((s.reg .ebp).value + 2 + 1)),
        le16 (s.stack (s.reg .ebp).value) (s.stack ((s.reg .ebp).value + 1))⟩ ∧
      (w.reg .esp).value = (s.reg .ebp).value + 8 := by
  have hebp : t.reg .ebp = s.reg .ebp := ht.reg_eq (by decide) hhi hlo
  have hkept : ∀ k, k < 4 → t.stack ((s.reg .ebp).value + UInt32.ofNat k) =
      s.stack ((s.reg .ebp).value + UInt32.ofNat k) := fun k hk =>
    ht.kept _ fun j hj hle => ne_cell_of_above (d := k)
      (by rw [toUInt16_value_add, hs.frame]) (by omega) hj hle
  have h₀ : t.stack (s.reg .ebp).value = s.stack (s.reg .ebp).value := by
    simpa using hkept 0 (by decide)
  have h₁ : t.stack ((s.reg .ebp).value + 1) = s.stack ((s.reg .ebp).value + 1) :=
    hkept 1 (by decide)
  have h₂ : t.stack ((s.reg .ebp).value + 2) = s.stack ((s.reg .ebp).value + 2) :=
    hkept 2 (by decide)
  have h₃ : t.stack ((s.reg .ebp).value + 2 + 1) = s.stack ((s.reg .ebp).value + 2 + 1) := by
    simpa [UInt32.add_assoc] using hkept 3 (by decide)
  obtain ⟨u, hswitch, hprotected, hregs, hstack⟩ := enterProtectedMode_run bios t
  -- the result popped, or not
  have hresult : ∃ v, run bios fuel stub.leave t = execAll bios leaveFrame v ∧ v.Protected ∧
      (∀ r, r ≠ .eax → r ≠ .esp → v.reg r = u.reg r) ∧ v.stack = u.stack := by
    by_cases hwait : stub = .waitForEnter
    · refine ⟨u, ?_, hprotected, fun _ _ _ => rfl, rfl⟩
      have hflat : [x86EnterProtectedMode, leaveFrame].flatten = x86EnterProtectedMode ++ leaveFrame := rfl
      rw [hwait, Stub.leave, run_ops, hflat, execAll_append, hswitch, Option.bind_some]
    · refine ⟨u.pop eax, ?_, hprotected, fun r hax hsp => ?_, rfl⟩
      · have hleave : stub.leave = ops [x86EnterProtectedMode, [.pop eax], leaveFrame] := by
          cases stub <;> first | rfl | exact absurd rfl hwait
        have hflat : [x86EnterProtectedMode, [.pop eax], leaveFrame].flatten =
            x86EnterProtectedMode ++ .pop eax :: leaveFrame := rfl
        rw [hleave, run_ops, hflat, execAll_append, hswitch, Option.bind_some, execAll_pop]
      · simp [eax, Machine.pop, Machine.popWord, Machine.moveStack, Machine.setReg, hax, hsp]
  obtain ⟨v, hrun, hv, hvregs, hvstack⟩ := hresult
  obtain ⟨w, hw, hwregs, hwebp, hwesp⟩ := leaveFrame_run bios hv
  have hvebp : v.reg .ebp = s.reg .ebp := by
    rw [hvregs _ (by decide) (by decide), hregs _ (by decide), hebp]
  refine ⟨w, hrun.trans hw, fun r hax hbp hsp => ?_, ?_, ?_⟩
  · rw [hwregs r hbp hsp, hvregs r hax hsp, hregs r hax]
  · rw [hwebp, hvebp, hvstack, hstack, h₀, h₁, h₂, h₃]
  · rw [hwesp, hvebp]

end Frame

/-! ### The calling convention -/

/-- What a C caller expects: its four registers as they were, and the return address popped. -/
structure Cdecl (before after : Machine) : Prop where
  ebx : after.reg .ebx = before.reg .ebx
  esi : after.reg .esi = before.reg .esi
  edi : after.reg .edi = before.reg .edi
  ebp : after.reg .ebp = before.reg .ebp
  esp : (after.reg .esp).value = (before.reg .esp).value + 4

namespace Stub

/-- Whenever the stub returns, it has respected the calling convention. -/
def Respects (stub : Stub) (bios : ℕ → Answer Place) (m : Machine) : Prop :=
  ∀ fuel w, run bios fuel stub.code m = some w → Cdecl m w

/-- The stub returns. -/
def Returns (stub : Stub) (bios : ℕ → Answer Place) (m : Machine) : Prop :=
  ∃ fuel w, run bios fuel stub.code m = some w

/-- What the three VBE stubs leave in EDI: the offset of their buffer, or 0. -/
def leftInEdi (m : Machine) : Stub → Option Gpr
  | videoGetVbeInfo => some ⟨0, callerWord m 8 &&& 0xF⟩
  | videoGetModeInfo => some ⟨0, callerWord m 12 &&& 0xF⟩
  | videoSetMode => some ⟨0, 0⟩
  | _ => none

/-- What the code between the switches does to the registers of the caller, on symbols. -/
lemma body_run : ∀ stub : Stub, ∃ σ, Abs.run stub.body .start = some σ ∧
    (σ.hi .ebp = .hi .ebp ∧ σ.lo .ebp = .lo .ebp) ∧ (σ.hi .esi = .hi .esi ∧ σ.lo .esi = .lo .esi) ∧
    match stub with
    | videoGetVbeInfo =>
      (σ.hi .ebx = .hi .edi ∧ σ.lo .ebx = .lo .edi) ∧ σ.hi .edi = .zero ∧ σ.lo .edi = .nibble 8
    | videoGetModeInfo =>
      (σ.hi .ebx = .hi .edi ∧ σ.lo .ebx = .lo .edi) ∧ σ.hi .edi = .zero ∧ σ.lo .edi = .nibble 12
    | videoSetMode =>
      (σ.hi .ebx = .hi .edi ∧ σ.lo .ebx = .lo .edi) ∧ σ.hi .edi = .zero ∧ σ.lo .edi = .zero
    | _ => (σ.hi .ebx = .hi .ebx ∧ σ.lo .ebx = .lo .ebx) ∧ σ.hi .edi = .hi .edi ∧ σ.lo .edi = .lo .edi
  | diskGetDriveParams => ⟨_, rfl, ⟨rfl, rfl⟩, ⟨rfl, rfl⟩, ⟨rfl, rfl⟩, rfl, rfl⟩
  | diskReset => ⟨_, rfl, ⟨rfl, rfl⟩, ⟨rfl, rfl⟩, ⟨rfl, rfl⟩, rfl, rfl⟩
  | diskRead => ⟨_, rfl, ⟨rfl, rfl⟩, ⟨rfl, rfl⟩, ⟨rfl, rfl⟩, rfl, rfl⟩
  | videoGetVbeInfo => ⟨_, rfl, ⟨rfl, rfl⟩, ⟨rfl, rfl⟩, ⟨rfl, rfl⟩, rfl, rfl⟩
  | videoGetModeInfo => ⟨_, rfl, ⟨rfl, rfl⟩, ⟨rfl, rfl⟩, ⟨rfl, rfl⟩, rfl, rfl⟩
  | videoSetMode => ⟨_, rfl, ⟨rfl, rfl⟩, ⟨rfl, rfl⟩, ⟨rfl, rfl⟩, rfl, rfl⟩
  | e820GetNextBlock => ⟨_, rfl, ⟨rfl, rfl⟩, ⟨rfl, rfl⟩, ⟨rfl, rfl⟩, rfl, rfl⟩
  | waitForEnter => ⟨_, rfl, ⟨rfl, rfl⟩, ⟨rfl, rfl⟩, ⟨rfl, rfl⟩, rfl, rfl⟩

section Run

variable {bios : ℕ → Answer Place} {m : Machine}

/-- What a stub that returns has done to the registers of its caller. -/
lemma registers (stub : Stub) (hm : m.Protected) {fuel : ℕ} {w : Machine}
    (hrun : run bios fuel stub.code m = some w) :
    w.reg .ebp = m.reg .ebp ∧ (w.reg .esp).value = (m.reg .esp).value + 4 ∧ w.reg .esi = m.reg .esi ∧
      match stub.leftInEdi m with
      | some g => w.reg .ebx = m.reg .edi ∧ w.reg .edi = g
      | none => w.reg .ebx = m.reg .ebx ∧ w.reg .edi = m.reg .edi := by
  obtain ⟨s, henter, hs⟩ := enter_run bios hm fuel
  rw [code, run_append, henter, Option.bind_some, run_append] at hrun
  obtain ⟨t, hbody, hleave⟩ := Option.bind_eq_some_iff.mp hrun
  obtain ⟨σ, hσ, ⟨hhi, hlo⟩, ⟨hesiHi, hesiLo⟩, hregs⟩ := body_run stub
  have ht : Models s σ t := sound_run bios hs.framed hs.framed.models hσ hbody
  obtain ⟨w', hw', hothers, hebp, hesp⟩ := leave_run bios hs.framed ht hhi hlo stub fuel
  rw [hw'] at hleave
  cases hleave
  have hthree : ∀ r ∈ [Reg.ebx, .esi, .edi], r ≠ .eax ∧ r ≠ .ebp ∧ r ≠ .esp := by decide
  -- a register that holds what another one held
  have hcopy : ∀ r r', r ∈ [Reg.ebx, .esi, .edi] → r' ∈ [Reg.ebx, .esi, .edi] →
      σ.hi r = .hi r' → σ.lo r = .lo r' → w.reg r = m.reg r' := by
    intro r r' hr hr' hh hl
    obtain ⟨hax, hbp, hsp⟩ := hthree r hr
    obtain ⟨hax', hbp', hsp'⟩ := hthree r' hr'
    rw [hothers r hax hbp hsp, ← hs.regs r' hax' hbp' hsp']
    exact ht.reg_eq hsp hh hl
  have hothersEdi : w.reg .edi = t.reg .edi := hothers .edi (by decide) (by decide) (by decide)
  have hnibble : ∀ d, 4 ≤ d.toNat → d.toNat < 60000 → σ.hi .edi = .zero → σ.lo .edi = .nibble d →
      w.reg .edi = ⟨0, callerWord m d &&& 0xF⟩ := by
    intro d hd hd' hh hl
    obtain ⟨hzero, hnib⟩ := ht.reg (by decide) hh hl
    rw [hothersEdi, ← hs.stackWord hd hd']
    exact congrArg₂ Gpr.mk hzero hnib
  refine ⟨?_, ?_, ?_, ?_⟩
  · rw [hebp, hs.lo, hs.hi]
  · rw [hesp, hs.frame]
    grind
  · exact hcopy .esi .esi (by decide) (by decide) hesiHi hesiLo
  · cases stub
    case videoGetVbeInfo =>
      obtain ⟨hebx, hedi⟩ := hregs
      exact ⟨hcopy .ebx .edi (by decide) (by decide) hebx.1 hebx.2,
        hnibble 8 (by decide) (by decide) hedi.1 hedi.2⟩
    case videoGetModeInfo =>
      obtain ⟨hebx, hedi⟩ := hregs
      exact ⟨hcopy .ebx .edi (by decide) (by decide) hebx.1 hebx.2,
        hnibble 12 (by decide) (by decide) hedi.1 hedi.2⟩
    case videoSetMode =>
      obtain ⟨hebx, hhi, hlo⟩ := hregs
      obtain ⟨hzero, hzero'⟩ := ht.reg (by decide) hhi hlo
      refine ⟨hcopy .ebx .edi (by decide) (by decide) hebx.1 hebx.2, ?_⟩
      rw [hothersEdi]
      exact congrArg₂ Gpr.mk hzero hzero'
    all_goals
      obtain ⟨hebx, hedi⟩ := hregs
      exact ⟨hcopy .ebx .ebx (by decide) (by decide) hebx.1 hebx.2,
        hcopy .edi .edi (by decide) (by decide) hedi.1 hedi.2⟩

lemma returns_of_straight {stub : Stub} (hm : m.Protected) (hstub : stub ≠ .waitForEnter) :
    stub.Returns bios m := by
  obtain ⟨s, henter, hs⟩ := enter_run bios hm 0
  obtain ⟨σ, hσ, ⟨hhi, hlo⟩, -⟩ := body_run stub
  have hstraight : stub.body.all Instr.straight = true := by
    cases stub <;> first | rfl | exact absurd rfl hstub
  obtain ⟨t, hbody⟩ := run_ends bios hs.framed 0 hs.framed.models hσ hstraight
  have ht : Models s σ t := sound_run bios hs.framed hs.framed.models hσ hbody
  obtain ⟨w, hw, -⟩ := leave_run bios hs.framed ht hhi hlo stub 0
  exact ⟨0, w, by rw [code, run_append, henter, Option.bind_some, run_append, hbody, Option.bind_some, hw]⟩

/-- The key that a call of the BIOS has read. -/
def keyOf (a : Answer Place) : UInt8 := (a.value al).toUInt8

lemma compare_eq_zero (b : UInt8) : (Size.cut (b.toUInt32 - 0x0D) .byte == 0) = true ↔ b = 0x0D := by
  have hb := b.toNat_lt
  rw [beq_iff_eq, ← UInt32.toNat_inj, ← UInt8.toNat_inj, Size.cut]
  simp only [UInt8.toNat_toUInt32, UInt32.toNat_toUInt8, UInt32.toNat_sub, UInt32.reduceToNat,
    UInt8.reduceToNat]
  omega

lemma waitForEnterLoop_run (bios : ℕ → Answer Place) (m : Machine) :
    ∃ t, execAll bios waitForEnterLoop m = some t ∧ t.calls = m.calls + 1 ∧
      (t.zero = true ↔ keyOf (bios m.calls) = 0x0D) := by
  obtain ⟨t, ht⟩ : ∃ t, execAll bios waitForEnterLoop m = some t := ⟨_, rfl⟩
  have hcalls : t.calls = m.calls + 1 := by cases ht; rfl
  have hzero : t.zero = (Size.cut ((lowByte (t.reg .eax).lo).toUInt32 - 0x0D) .byte == 0) := by
    cases ht; rfl
  obtain ⟨h, hlo⟩ : ∃ h, (t.reg .eax).lo = le16 (keyOf (bios m.calls)) h := by
    cases ht
    exact ⟨_, rfl⟩
  exact ⟨t, ht, hcalls, by rw [hzero, hlo, lowByte_le16, compare_eq_zero]⟩

lemma rounds_of_enter {k : ℕ} : ∀ {m : Machine}, keyOf (bios (m.calls + k)) = 0x0D →
    ∃ w, rounds bios waitForEnterLoop (k + 1) m = some w := by
  induction k with
  | zero =>
    intro m hkey
    obtain ⟨t, ht, -, hzero⟩ := waitForEnterLoop_run bios m
    exact ⟨t, by rw [rounds, ht, Option.bind_some, if_pos (hzero.mpr hkey)]⟩
  | succ k ih =>
    intro m hkey
    obtain ⟨t, ht, hcalls, -⟩ := waitForEnterLoop_run bios m
    rw [rounds, ht, Option.bind_some]
    split_ifs
    · exact ⟨t, rfl⟩
    · exact ih (by rwa [hcalls, Nat.add_assoc, Nat.add_comm 1])

/-- `x86_WaitForEnter` returns when a key that the BIOS reads from now on is Enter. -/
lemma returns_of_enter (hm : m.Protected) {k : ℕ} (hkey : keyOf (bios (m.calls + k)) = 0x0D) :
    Stub.waitForEnter.Returns bios m := by
  obtain ⟨s, henter, hs⟩ := enter_run bios hm (k + 1)
  obtain ⟨σ, hσ, ⟨hhi, hlo⟩, -⟩ := body_run .waitForEnter
  have hbody : ∃ t, run bios (k + 1) (body .waitForEnter) s = some t := by
    obtain ⟨p, hp, hcalls⟩ : ∃ p, run bios (k + 1) (ops [[.push ebx, .push es]]) s = some p ∧
        p.calls = s.calls := ⟨_, rfl, rfl⟩
    have hpress : keyOf (bios (p.calls + k)) = 0x0D := by rwa [hcalls, hs.calls]
    obtain ⟨r, hr⟩ := rounds_of_enter hpress
    obtain ⟨t, ht⟩ : ∃ t, run bios (k + 1) (ops [[.mov al (.imm 1), .pop es, .pop ebx]]) r = some t :=
      ⟨_, rfl⟩
    refine ⟨t, ?_⟩
    rw [body, x86WaitForEnter, run_append, hp, Option.bind_some, run, Instr.run, hr, Option.bind_some, ht]
  obtain ⟨t, hbody⟩ := hbody
  have ht : Models s σ t := sound_run bios hs.framed hs.framed.models hσ hbody
  obtain ⟨w, hw, -⟩ := leave_run bios hs.framed ht hhi hlo .waitForEnter (k + 1)
  exact ⟨k + 1, w, by
    rw [code, run_append, henter, Option.bind_some, run_append, hbody, Option.bind_some, hw]⟩

end Run

end Stub

/-- **When the stubs respect the calling convention.** Called in protected mode, whatever the BIOS
answers, each stub returns (`x86_WaitForEnter` when Enter is pressed). It then has respected the
convention, but the three VBE stubs only if EBX and EDI both held on entry what is left in EDI. -/
theorem stubs_cdecl_iff (stub : Stub) (bios : ℕ → Answer Place) {m : Machine} (hm : m.Protected) :
    (stub ≠ .waitForEnter ∨ (∃ n, Stub.keyOf (bios (m.calls + n)) = 0x0D) → stub.Returns bios m) ∧
      (stub.Respects bios m ↔ ∀ g, stub.leftInEdi m = some g → m.reg .ebx = g ∧ m.reg .edi = g) := by
  refine ⟨?_, fun hrespects g hg => ?_, fun hleft fuel w hrun => ?_⟩
  · rintro (hstub | ⟨n, hkey⟩)
    · exact Stub.returns_of_straight hm hstub
    · rcases eq_or_ne stub .waitForEnter with rfl | hstub
      · exact Stub.returns_of_enter hm hkey
      · exact Stub.returns_of_straight hm hstub
  · have hstub : stub ≠ .waitForEnter := by
      rintro rfl
      cases hg
    have hreturns : stub.Returns bios m := Stub.returns_of_straight hm hstub
    obtain ⟨fuel, w, hrun⟩ := hreturns
    obtain ⟨-, -, -, hregs⟩ := Stub.registers stub hm hrun
    rw [hg] at hregs
    obtain ⟨hebx, hedi⟩ := hregs
    have hcdecl := hrespects fuel w hrun
    have hedi' : m.reg .edi = g := hcdecl.edi.symm.trans hedi
    exact ⟨hcdecl.ebx.symm.trans (hebx.trans hedi'), hedi'⟩
  · obtain ⟨hebp, hesp, hesi, hregs⟩ := Stub.registers stub hm hrun
    cases hg : stub.leftInEdi m with
    | none =>
      rw [hg] at hregs
      exact ⟨hregs.1, hesi, hregs.2, hebp, hesp⟩
    | some g =>
      rw [hg] at hregs
      obtain ⟨hebx, hedi⟩ := hleft g hg
      exact ⟨by rw [hregs.1, hedi, hebx], hesi, by rw [hregs.2, hedi], hebp, hesp⟩

/-- A BIOS that reads Enter, and answers every other call with success. -/
def quietBios (_ : ℕ) : Answer Place where
  value p := if p = al then 0x0D else 0
  carry := false
  zero := false
  data _ := 0

/-- A machine in protected mode, with its stack at 7000h and two numbers in EBX and EDI. -/
def callerMachine (b d : UInt16) : Machine where
  reg r := match r with
    | .ebx => ⟨0, b⟩
    | .edi => ⟨0, d⟩
    | .esp => ⟨0, 0x7000⟩
    | _ => ⟨0, 0⟩
  seg _ := 0x10
  cr0 := 1
  carry := false
  zero := false
  interrupts := false
  stack _ := 0
  data _ := 0
  calls := 0

lemma callerMachine_protected (b d : UInt16) : (callerMachine b d).Protected :=
  show (1 : UInt32) &&& 1 = 1 by decide

/-- `x86_Disk_Read` respects the convention; `x86_Video_SetMode` does for a caller with zeros. -/
theorem stubs_cdecl_iff_caller :
    Stub.diskRead.Returns quietBios (callerMachine 1 2) ∧
      Stub.diskRead.Respects quietBios (callerMachine 1 2) ∧
      Stub.videoSetMode.Respects quietBios (callerMachine 0 0) := by
  have hprotected := callerMachine_protected
  refine ⟨(stubs_cdecl_iff .diskRead quietBios (hprotected 1 2)).1 (Or.inl (by decide)),
    (stubs_cdecl_iff .diskRead quietBios (hprotected 1 2)).2.mpr fun g hg => ?_,
    (stubs_cdecl_iff .videoSetMode quietBios (hprotected 0 0)).2.mpr fun g hg => ?_⟩
  · cases hg
  · cases hg
    exact ⟨rfl, rfl⟩

/-- `x86_Video_SetMode` gives its caller the EDI of before in EBX. -/
theorem setMode_swaps : ¬ Stub.videoSetMode.Respects quietBios (callerMachine 1 2) := by
  have hprotected := callerMachine_protected 1 2
  intro hrespects
  have hreturns : Stub.videoSetMode.Returns quietBios (callerMachine 1 2) :=
    Stub.returns_of_straight hprotected (by decide)
  obtain ⟨fuel, w, hrun⟩ := hreturns
  obtain ⟨-, -, -, hebx, -⟩ := Stub.registers .videoSetMode hprotected hrun
  have hkept := (hrespects fuel w hrun).ebx.symm.trans hebx
  exact absurd (congrArg Gpr.lo hkept) (by decide)

end ArcOS.Boot.Asm
