import ArcOS.Disk.Bios
import ArcOS.Lib.X86

/-!
`lba_to_chs` of stage 1 against the same step of stage 2.

Stage 1 divides in 16-bit registers and packs the quotients as it goes; stage 2 divides in C and packs
in the assembly in front of INT 13h. Both hand the same registers over.
-/

namespace ArcOS.Boot

open Lib Lib.X86

/-! ### `boot.asm` -/

/-- `bdb_sectors_per_track`, as a place -/
def bdbSectorsPerTrack : Place := .mem .word .ds none 0x7C18

/-- `bdb_heads`, as a place -/
def bdbHeads : Place := .mem .word .ds none 0x7C1A

/-- `lba_to_chs` -/
def lbaToChs : List Op :=
  [.push ax, .push dx,
   .alu .xor dx dx, .div bdbSectorsPerTrack,
   .inc dx, .mov cx dx,
   .alu .xor dx dx, .div bdbHeads,
   .mov dh dl, .mov ch al, .alu .shl ah (.imm 6), .alu .or cl ah,
   .pop ax, .mov dl al, .pop ax,
   .ret]

/-! ### Its registers -/

/-- The boot sector holds a geometry. -/
structure HoldsGeometry (m : Machine) (sectors heads : UInt16) : Prop where
  sectors : m.readPlace bdbSectorsPerTrack = sectors.toUInt32
  heads : m.readPlace bdbHeads = heads.toUInt32

/-- Two machines differ in the registers, without the stack pointer, and in the flags only. -/
structure Alike (m t : Machine) : Prop where
  stack : t.stack = m.stack
  seg : t.seg = m.seg
  cr0 : t.cr0 = m.cr0
  data : t.data = m.data
  esp : t.reg .esp = m.reg .esp

section Run

variable (bios : ℕ → Answer Place) {m t u : Machine}

lemma Alike.trans (h : Alike m t) (h' : Alike t u) : Alike m u :=
  ⟨h'.stack.trans h.stack, h'.seg.trans h.seg, h'.cr0.trans h.cr0, h'.data.trans h.data,
    h'.esp.trans h.esp⟩

lemma Alike.real (h : Alike m t) (hm : ¬ m.Protected) : ¬ t.Protected := by
  unfold Machine.Protected
  rw [h.cr0]
  exact hm

lemma Alike.readPlace (h : Alike m t) (d : UInt16) :
    t.readPlace (.mem .word .ds none d) = m.readPlace (.mem .word .ds none d) := by
  simp only [Machine.readPlace, Machine.loadData, Machine.dataAddr, Machine.offset, h.data, h.seg,
    Option.elim_none]

lemma Alike.stackWord (h : Alike m t) (d : UInt16) :
    t.stackWord (t.reg .esp) d = m.stackWord (m.reg .esp) d := by
  have haddr : ∀ e, t.stackAddr (t.reg .esp) e = m.stackAddr (m.reg .esp) e := by
    intro e
    have hmode : t.Protected ↔ m.Protected := by
      unfold Machine.Protected
      rw [h.cr0]
    simp only [Machine.stackAddr, hmode, h.seg, h.esp]
  rw [Machine.stackWord, Machine.stackWord, haddr, haddr, h.stack]

lemma save_run (hm : ¬ m.Protected) : ∃ p, execAll bios [.push ax, .push dx] m = some p ∧
    ¬ p.Protected ∧ p.reg .eax = m.reg .eax ∧
    (∀ d, p.readPlace (.mem .word .ds none d) = m.readPlace (.mem .word .ds none d)) ∧
    p.stackWord (p.reg .esp) 0 = (m.reg .edx).lo ∧ p.stackWord (p.reg .esp) 2 = (m.reg .eax).lo := by
  obtain ⟨u, hu⟩ : ∃ u, u = m.pushWord (m.reg .eax).lo := ⟨_, rfl⟩
  have hureal : ¬ u.Protected := by rw [hu, pushWord_real hm]; exact hm
  have hdx : (u.reg .edx).lo = (m.reg .edx).lo := by rw [hu, pushWord_real hm]; rfl
  have hpush : execAll bios [.push ax, .push dx] m = some (u.pushWord (m.reg .edx).lo) := by
    have hax : m.push ax = u := by
      rw [hu]
      exact congrArg m.pushWord (UInt16.toUInt16_toUInt32 _)
    have hsecond : u.push dx = u.pushWord (m.reg .edx).lo := by
      rw [← hdx]
      exact congrArg u.pushWord (UInt16.toUInt16_toUInt32 _)
    rw [← hsecond, ← hax]
    rfl
  obtain ⟨htop, hbelow⟩ := pushWord_stackWord hureal (m.reg .edx).lo
  refine ⟨_, hpush, ?_, ?_, fun d => ?_, htop, ?_⟩
  · rw [pushWord_real hureal]
    exact hureal
  · rw [pushWord_real hureal, hu, pushWord_real hm]
    rfl
  · rw [pushWord_real hureal, hu, pushWord_real hm]
    rfl
  · rw [hbelow, hu, (pushWord_stackWord hm _).1]

lemma divide_run {k d : UInt16} (hd : d ≠ 0) (hread : m.readPlace (.mem .word .ds none k) = d.toUInt32) :
    ∃ t, execAll bios [.alu .xor dx dx, .div (Place.mem .word .ds none k)] m = some t ∧ Alike m t ∧
      (t.reg .eax).lo = (m.reg .eax).lo / d ∧ (t.reg .edx).lo = (m.reg .eax).lo % d ∧
      t.reg .ecx = m.reg .ecx := by
  obtain ⟨u, hu⟩ : ∃ u, exec bios (.alu .xor dx dx) m = some u := ⟨_, rfl⟩
  have hdx : (u.reg .edx).lo = 0 := by
    cases hu
    change ((m.reg .edx).lo.toUInt32 ^^^ (m.reg .edx).lo.toUInt32).toUInt16 = 0
    rw [UInt32.xor_self]
    rfl
  have hax : u.reg .eax = m.reg .eax := by cases hu; rfl
  have hcx : u.reg .ecx = m.reg .ecx := by cases hu; rfl
  have halike : Alike m u := by cases hu; exact ⟨rfl, rfl, rfl, rfl, rfl⟩
  have hsrc : u.read (Place.mem .word .ds none k) = d.toUInt32 := (halike.readPlace k).trans hread
  have hdiv := exec_div bios hdx hsrc hd
  have hrun := congrArg (fun r => Option.bind r (execAll bios [])) hdiv
  refine ⟨_, by rw [execAll, hu]; exact hrun, ?_, ?_, ?_, ?_⟩
  · exact halike.trans ⟨rfl, rfl, rfl, rfl, rfl⟩
  · simp [Machine.setReg, hax]
  · simp [Machine.setReg, hax]
  · simp [Machine.setReg, hcx]

lemma sector_run (m : Machine) : ∃ t, execAll bios [.inc dx, .mov cx dx] m = some t ∧ Alike m t ∧
    (t.reg .ecx).lo = (m.reg .edx).lo + 1 ∧ t.reg .eax = m.reg .eax := by
  obtain ⟨t, ht⟩ : ∃ t, execAll bios [.inc dx, .mov cx dx] m = some t := ⟨_, rfl⟩
  refine ⟨t, ht, ?_, ?_, ?_⟩
  · cases ht; exact ⟨rfl, rfl, rfl, rfl, rfl⟩
  · cases ht
    change (((m.reg .edx).lo.toUInt32 + 1).toUInt16.toUInt32).toUInt16 = _
    rw [UInt16.toUInt16_toUInt32, UInt32.toUInt16_add, UInt16.toUInt16_toUInt32]
    rfl
  · cases ht; rfl

lemma pack_run (m : Machine) : ∃ t,
    execAll bios [.mov dh dl, .mov ch al, .alu .shl ah (.imm 6), .alu .or cl ah] m = some t ∧
      Alike m t ∧ highByte (t.reg .edx).lo = lowByte (m.reg .edx).lo ∧
      highByte (t.reg .ecx).lo = lowByte (m.reg .eax).lo ∧
      lowByte (t.reg .ecx).lo = lowByte (m.reg .ecx).lo ||| highByte (m.reg .eax).lo <<< 6 := by
  obtain ⟨t, ht⟩ : ∃ t,
      execAll bios [.mov dh dl, .mov ch al, .alu .shl ah (.imm 6), .alu .or cl ah] m = some t := ⟨_, rfl⟩
  have hdx : (t.reg .edx).lo =
      le16 (lowByte (m.reg .edx).lo) (lowByte (m.reg .edx).lo).toUInt32.toUInt8 := by cases ht; rfl
  obtain ⟨h, hh⟩ : ∃ h, h = (highByte (m.reg .eax).lo).toUInt32 <<< 6 := ⟨_, rfl⟩
  have hcx : (t.reg .ecx).lo = le16
      ((lowByte (le16 (lowByte (m.reg .ecx).lo) (lowByte (m.reg .eax).lo).toUInt32.toUInt8)).toUInt32 |||
        (highByte (le16 (lowByte (m.reg .eax).lo) h.toUInt8)).toUInt32).toUInt8
      (highByte (le16 (lowByte (m.reg .ecx).lo) (lowByte (m.reg .eax).lo).toUInt32.toUInt8)) := by
    cases ht
    rw [hh]
    rfl
  refine ⟨t, ht, ?_, ?_, ?_, ?_⟩
  · cases ht; exact ⟨rfl, rfl, rfl, rfl, rfl⟩
  · rw [hdx, highByte_le16, UInt8.toUInt8_toUInt32]
  · rw [hcx, highByte_le16, highByte_le16, UInt8.toUInt8_toUInt32]
  · rw [hcx, lowByte_le16, lowByte_le16, highByte_le16, hh]
    apply UInt8.toNat_inj.mp
    simp

lemma pop_ax (hm : ¬ m.Protected) : m.pop ax =
    (m.setReg .esp { m.reg .esp with lo := (m.reg .esp).lo + 2 }).setReg .eax
      { m.reg .eax with lo := m.stackWord (m.reg .esp) 0 } := by
  have hunfold : m.pop ax = m.popWord.2.write m.popWord.1.toUInt32 (.word .eax) := rfl
  rw [hunfold, popWord_real hm, Machine.write, UInt16.toUInt16_toUInt32]
  simp [Machine.setReg]

lemma restore_run (hm : ¬ m.Protected) {a x : UInt16} (hstack : m.stackWord (m.reg .esp) 0 = x)
    (hstack' : m.stackWord (m.reg .esp) 2 = a) : ∃ t,
    execAll bios [.pop ax, .mov dl al, .pop ax, .ret] m = some t ∧ (t.reg .eax).lo = a ∧
      lowByte (t.reg .edx).lo = lowByte x ∧ highByte (t.reg .edx).lo = highByte (m.reg .edx).lo ∧
      t.reg .ecx = m.reg .ecx := by
  obtain ⟨u, hu⟩ : ∃ u, u = (m.pop ax).write ((m.pop ax).readPlace al) dl := ⟨_, rfl⟩
  have hpop := pop_ax hm
  have hureal : ¬ u.Protected := by
    rw [hu, hpop]
    exact hm
  have hdx : (u.reg .edx).lo = le16 (lowByte x) (highByte (m.reg .edx).lo) := by
    have hread : (m.pop ax).readPlace al = (lowByte x).toUInt32 := by
      rw [hpop, hstack]
      simp [al, Machine.readPlace, Machine.setReg]
    rw [hu, hread, hpop]
    simp [dl, Machine.write, Machine.setReg]
  have htop : u.stackWord (u.reg .esp) 0 = a := by
    have hesp : u.reg .esp = { m.reg .esp with lo := (m.reg .esp).lo + 2 } := by
      rw [hu, hpop]
      simp [dl, Machine.write, Machine.setReg]
    have haddr : ∀ d : UInt16, u.stackAddr (u.reg .esp) d = m.stackAddr (m.reg .esp) (2 + d) := by
      intro d
      have hseg : u.seg = m.seg := by rw [hu, hpop]; rfl
      rw [Machine.stackAddr, Machine.stackAddr, if_neg hureal, if_neg hm, hesp, hseg, UInt16.add_assoc]
    have hmem : u.stack = m.stack := by rw [hu, hpop]; rfl
    rw [← hstack', Machine.stackWord, haddr, haddr, hmem]
    rfl
  have hrun : execAll bios [.pop ax, .mov dl al, .pop ax, .ret] m =
      some ((u.pop ax).moveStack (· + 2) (· + 4)) := by
    rw [hu]
    rfl
  refine ⟨_, hrun, ?_, ?_, ?_, ?_⟩
  all_goals rw [pop_ax hureal]
  · simp [Machine.moveStack, Machine.setReg, htop]
  · simp [Machine.moveStack, Machine.setReg, hdx, lowByte_le16]
  · simp [Machine.moveStack, Machine.setReg, hdx, highByte_le16]
  · rw [hu, hpop]
    simp [Machine.moveStack, Machine.setReg, Machine.write, dl]

/-- **`lba_to_chs`** comes to its end without a fault, keeps AX and DL, and leaves the quotients in CH,
CL and DH. -/
lemma lbaToChs_run (hm : ¬ m.Protected) {sectors heads : UInt16} (h : HoldsGeometry m sectors heads)
    (hsectors : sectors ≠ 0) (hheads : heads ≠ 0) : ∃ w, execAll bios lbaToChs m = some w ∧
      (w.reg .eax).lo = (m.reg .eax).lo ∧ lowByte (w.reg .edx).lo = lowByte (m.reg .edx).lo ∧
      highByte (w.reg .edx).lo = lowByte ((m.reg .eax).lo / sectors % heads) ∧
      highByte (w.reg .ecx).lo = lowByte ((m.reg .eax).lo / sectors / heads) ∧
      lowByte (w.reg .ecx).lo = lowByte ((m.reg .eax).lo % sectors + 1) |||
        highByte ((m.reg .eax).lo / sectors / heads) <<< 6 := by
  obtain ⟨p, hpush, hpreal, hpax, hread, htop, hbelow⟩ := save_run bios hm
  -- the divisions
  obtain ⟨t₁, hrun₁, halike₁, hax₁, hdx₁, -⟩ :=
    divide_run bios (m := p) hsectors ((hread _).trans h.sectors)
  obtain ⟨t₂, hrun₂, halike₂, hcx₂, hax₂⟩ := sector_run bios t₁
  obtain ⟨t₃, hrun₃, halike₃, hax₃, hdx₃, hcx₃⟩ := divide_run bios (m := t₂) hheads
    (((halike₁.trans halike₂).readPlace _).trans ((hread _).trans h.heads))
  obtain ⟨t₄, hrun₄, halike₄, hdh, hch, hcl⟩ := pack_run bios t₃
  have halike := ((halike₁.trans halike₂).trans halike₃).trans halike₄
  obtain ⟨w, hrun, hax, hdl, hdh', hcx⟩ := restore_run bios (halike.real hpreal)
    ((halike.stackWord 0).trans htop) ((halike.stackWord 2).trans hbelow)
  refine ⟨w, ?_, hax, hdl, ?_, ?_, ?_⟩
  · have hparts : lbaToChs = [[.push ax, .push dx], [.alu .xor dx dx, .div bdbSectorsPerTrack],
        [.inc dx, .mov cx dx], [.alu .xor dx dx, .div bdbHeads],
        [.mov dh dl, .mov ch al, .alu .shl ah (.imm 6), .alu .or cl ah],
        [.pop ax, .mov dl al, .pop ax, .ret]].flatten := rfl
    simp only [hparts, List.flatten_cons, List.flatten_nil, List.append_nil, bdbSectorsPerTrack,
      bdbHeads]
    rw [execAll_append, hpush, Option.bind_some, execAll_append, hrun₁, Option.bind_some, execAll_append,
      hrun₂, Option.bind_some, execAll_append, hrun₃, Option.bind_some, execAll_append, hrun₄,
      Option.bind_some, hrun]
  · rw [hdh', hdh, hdx₃, hax₂, hax₁, hpax]
  · rw [hcx, hch, hax₃, hax₂, hax₁, hpax]
  · rw [hcx, hcl, hcx₃, hcx₂, hdx₁, hax₃, hax₂, hax₁, hpax]

end Run

/-! ### Stage 2 -/

lemma sector_packed {sectors : UInt16} (h : 1 ≤ sectors.toNat ∧ sectors.toNat ≤ 63) (a : UInt16) :
    lowByte (a % sectors + 1) = (a.toUInt32 % sectors.toUInt32 + 1).toUInt16.toUInt8 &&& 0x3F := by
  have hmod := Nat.mod_lt a.toNat (show sectors.toNat > 0 by omega)
  apply UInt8.toNat_inj.mp
  rw [UInt8.toNat_and, show (0x3F : UInt8).toNat = 2 ^ 6 - 1 from rfl, Nat.and_two_pow_sub_one_eq_mod]
  simp [lowByte]
  omega

lemma cylinder_packed (a sectors heads : UInt16) : highByte (a / sectors / heads) =
    ((a.toUInt32 / sectors.toUInt32 / heads.toUInt32).toUInt16 >>> 8).toUInt8 := by
  have hle := (Nat.div_le_self (a.toNat / sectors.toNat) heads.toNat).trans
    (Nat.div_le_self a.toNat sectors.toNat)
  have hlt := a.toNat_lt
  apply UInt8.toNat_inj.mp
  simp [highByte, Nat.shiftRight_eq_div_pow]
  omega

/-- **Stage 1 and stage 2 address the same sector.** For every 16-bit LBA and every geometry with 1 to
63 sectors and at least one head, `lba_to_chs` does not fault and keeps AX and DL, and `DISK_LBA2CHS` with
the packing of `x86_Disk_Read` hands the same CH, CL and DH to INT 13h. -/
theorem lbaToChs_eq_readRegs (bios : ℕ → Answer Place) {m : Machine} (hm : ¬ m.Protected)
    (disk : Fat.Disk) (h : HoldsGeometry m disk.sectors disk.heads)
    (hsectors : 1 ≤ disk.sectors ∧ disk.sectors ≤ 63) (hheads : 1 ≤ disk.heads) :
    ∃ w, execAll bios lbaToChs m = some w ∧ (w.reg .eax).lo = (m.reg .eax).lo ∧
      lowByte (w.reg .edx).lo = lowByte (m.reg .edx).lo ∧
      ∀ count dataOut, ∃ r, Disk.readRegs disk (m.reg .eax).lo.toUInt32 count dataOut = some r ∧
        r.ch = highByte (w.reg .ecx).lo ∧ r.cl = lowByte (w.reg .ecx).lo ∧
        r.dh = highByte (w.reg .edx).lo := by
  have hsectorsNat : 1 ≤ disk.sectors.toNat ∧ disk.sectors.toNat ≤ 63 :=
    ⟨UInt16.le_iff_toNat_le.mp hsectors.1, UInt16.le_iff_toNat_le.mp hsectors.2⟩
  have hheadsNat : 1 ≤ disk.heads.toNat := UInt16.le_iff_toNat_le.mp hheads
  have hsectors₀ : disk.sectors ≠ 0 := by
    intro hzero
    rw [hzero] at hsectorsNat
    exact absurd hsectorsNat.1 (by decide)
  have hheads₀ : disk.heads ≠ 0 := by
    intro hzero
    rw [hzero] at hheadsNat
    exact absurd hheadsNat (by decide)
  obtain ⟨w, hrun, hax, hdl, hdh, hch, hcl⟩ := lbaToChs_run bios hm h hsectors₀ hheads₀
  refine ⟨w, hrun, hax, hdl, fun count dataOut => ?_⟩
  obtain ⟨a, ha⟩ : ∃ a, a = (m.reg .eax).lo := ⟨_, rfl⟩
  rw [← ha] at hdh hch hcl ⊢
  have hdivisors : ¬ (disk.sectors = 0 ∨ disk.heads = 0) := by simp [hsectors₀, hheads₀]
  refine ⟨_, by rw [Disk.readRegs, Disk.diskLba2Chs, if_neg hdivisors, Option.map_some], ?_, ?_, ?_⟩
  · rw [hch]
    apply UInt8.toNat_inj.mp
    simp [Disk.packRead, lowByte]
  · rw [hcl, sector_packed hsectorsNat, cylinder_packed, UInt8.or_comm]
    rfl
  · rw [hdh]
    apply UInt8.toNat_inj.mp
    simp [Disk.packRead, lowByte]

/-- The boot sector of a 1.44 MB floppy, with an LBA in AX. -/
def floppyMachine (lba : UInt16) : Machine where
  reg r := if r = .eax then ⟨0, lba⟩ else ⟨0, 0x7C00⟩
  seg _ := 0
  cr0 := 0
  carry := false
  zero := false
  interrupts := false
  stack _ := 0
  data a := if a = 0x7C18 then 18 else if a = 0x7C1A then 2 else 0
  calls := 0

/-- A BIOS that answers nothing; `lba_to_chs` does not call it. -/
def silentBios (_ : ℕ) : Answer Place where
  value _ := 0
  carry := false
  zero := false
  data _ := 0

/-- The last sector of the floppy. -/
theorem lbaToChs_eq_readRegs_floppy :
    ∃ w r, execAll silentBios lbaToChs (floppyMachine 2879) = some w ∧
      Disk.readRegs { id := 0, cylinders := 80, sectors := 18, heads := 2 } 2879 1 0x7E00 = some r ∧
      r.ch = highByte (w.reg .ecx).lo ∧ r.cl = lowByte (w.reg .ecx).lo ∧
      r.dh = highByte (w.reg .edx).lo := by
  obtain ⟨w, hrun, -, -, hregs⟩ := lbaToChs_eq_readRegs silentBios (m := floppyMachine 2879)
    (show ¬ (0 : UInt32) &&& 1 = 1 by decide) { id := 0, cylinders := 80, sectors := 18, heads := 2 }
    ⟨by decide, by decide⟩ (by decide) (by decide)
  obtain ⟨r, hr, hpacked⟩ := hregs 1 0x7E00
  exact ⟨w, r, hrun, hr, hpacked⟩

end ArcOS.Boot
