import ArcOS.Lib.X86
import Mathlib.Tactic.Ring

/-!
What real-mode code between two mode switches leaves in the registers.

`Abs` says, half by half, what the registers and the words pushed since the start hold in terms of the
start: a half of a register as it was, a word of the arguments, the low four bits of one, or 0. A run on
these symbols is sound for every run of the machine (`sound_run`), and all that the run changes of the
stack are the few bytes below its start.
-/

namespace Lib.X86

/-! ### Symbols -/

/-- A word, in terms of the machine at the start. -/
inductive Sym where
  | hi (r : Reg)
  | lo (r : Reg)
  /-- the word of the arguments at a displacement -/
  | arg (d : UInt16)
  /-- the low four bits of such a word -/
  | nibble (d : UInt16)
  | zero
  | other
  deriving DecidableEq

/-- The halves of the registers, and the words pushed, the last one first. -/
structure Abs where
  hi : Reg → Sym
  lo : Reg → Sym
  pushed : List Sym

namespace Abs

/-- The start. -/
def start : Abs where
  hi := .hi
  lo := .lo
  pushed := []

def set (σ : Abs) (r : Reg) (x y : Sym) : Abs :=
  { σ with hi := Function.update σ.hi r x, lo := Function.update σ.lo r y }

/-- Two symbolic states say the same. -/
def same (σ τ : Abs) : Bool :=
  σ.pushed == τ.pushed &&
    [Reg.eax, .ebx, .ecx, .edx, .esi, .edi, .ebp].all fun r => σ.hi r == τ.hi r && σ.lo r == τ.lo r

/-- A write of something not known. The stack pointer, the stack segment and the mode are not to be
written. -/
def forget (σ : Abs) : Place → Option Abs
  | .reg r => if r = .esp then none else some (σ.set r .other .other)
  | .word r | .low r | .high r => if r = .esp then none else some (σ.set r (σ.hi r) .other)
  | .seg s => if s = .ss then none else some σ
  | .cr0 => none
  | .mem .. => some σ

/-- The words that are pushed for a place. -/
def words (σ : Abs) : Place → Option (List Sym)
  | .reg r => if r = .esp then none else some [σ.lo r, σ.hi r]
  | .word r => if r = .esp then none else some [σ.lo r]
  | .seg _ => some [.other]
  | _ => none

/-- Words are pushed as long as there are few of them. -/
def push (σ : Abs) (p : Place) : Option Abs :=
  (σ.words p).bind fun xs =>
    if xs.length + σ.pushed.length ≤ 30 then some { σ with pushed := xs ++ σ.pushed } else none

def pop (σ : Abs) (p : Place) : Option Abs :=
  match p, σ.pushed with
  | .reg r, lo :: hi :: rest =>
    if r = .esp then none else some ({ σ with pushed := rest }.set r hi lo)
  | .word r, lo :: rest =>
    if r = .esp then none else some ({ σ with pushed := rest }.set r (σ.hi r) lo)
  | .seg s, _ :: rest => if s = .ss then none else some { σ with pushed := rest }
  | _, _ => none

/-- What a move leaves in a register: two words of the arguments, 0, or something not known. -/
def load (σ : Abs) (r : Reg) : Operand → Option Abs
  | .bp .dword d =>
    if r = .esp ∨ 64 ≤ d ∨ σ.lo .ebp ≠ .lo .ebp then none
    else some (σ.set r (.arg (d + 2)) (.arg d))
  | .imm v => if r = .esp ∨ v ≠ 0 then σ.forget (.reg r) else some (σ.set r .zero .zero)
  | _ => σ.forget (.reg r)

/-- The low four bits of a register. -/
def low4 (σ : Abs) (r : Reg) : Option Abs :=
  match σ.lo r with
  | .arg d => if r = .esp then none else some (σ.set r .zero (.nibble d))
  | _ => σ.forget (.reg r)

/-- What an operation leaves; a comparison leaves all as it is. -/
def compute (σ : Abs) (f : Alu) (dst : Place) (src : Operand) : Option Abs :=
  match f, dst, src with
  | .cmp, _, _ => some σ
  | .and, .reg r, .imm v => if v = 15 then σ.low4 r else σ.forget (.reg r)
  | _, p, _ => σ.forget p

/-- One instruction on symbols; `none` when it is not one for real-mode code between two switches. -/
def step (σ : Abs) : Op → Option Abs
  | .push p => σ.push p
  | .pop p => σ.pop p
  | .mov (.reg r) src => σ.load r src
  | .mov dst _ => σ.forget dst
  | .alu f dst src => σ.compute f dst src
  | .inc dst => σ.forget dst
  | .int _ results => results.foldlM forget σ
  | .stc | .cli | .sti => some σ
  | .div _ | .farJmp _ | .ret => none

def stepAll : List Op → Abs → Option Abs
  | [], σ => some σ
  | o :: os, σ => (σ.step o).bind (stepAll os)

/-- Instructions on symbols: two branches have to agree, and what is repeated has to keep what is
known after its first round. -/
def instr (σ : Abs) : Instr → Option Abs
  | .op o => σ.step o
  | .ifZero yes no =>
    (stepAll yes σ).bind fun τ => (stepAll no σ).bind fun τ' => if τ'.same τ then some τ else none
  | .untilZero body =>
    (stepAll body σ).bind fun τ => (stepAll body τ).bind fun τ' => if τ'.same τ then some τ else none

def run : List Instr → Abs → Option Abs
  | [], σ => some σ
  | i :: is, σ => (σ.instr i).bind (run is)

end Abs

/-! ### Their meaning -/

/-- The word that a symbol stands for is this one. -/
def Sym.Denotes (start : Machine) : Sym → UInt16 → Prop
  | .hi r, w => w = (start.reg r).hi
  | .lo r, w => w = (start.reg r).lo
  | .arg d, w => w = start.stackWord (start.reg .ebp) d
  | .nibble d, w => w = start.stackWord (start.reg .ebp) d &&& 0xF
  | .zero, w => w = 0
  | .other, _ => True

/-- The byte at a distance below the stack pointer of the start. -/
def cell (start : Machine) (k : ℕ) : UInt32 := ((start.reg .esp).lo - UInt16.ofNat k).toUInt32

/-- The words pushed since the start. -/
def Holds (start m : Machine) : List Sym → Prop
  | [] => True
  | x :: xs =>
    x.Denotes start (le16 (m.stack (cell start (2 * xs.length + 2)))
      (m.stack (cell start (2 * xs.length + 1)))) ∧ Holds start m xs

/-- A machine in real mode is in a symbolic state. -/
structure Models (start : Machine) (σ : Abs) (m : Machine) : Prop where
  real : ¬ m.Protected
  ss : m.seg .ss = 0
  hi : ∀ r, r ≠ .esp → (σ.hi r).Denotes start (m.reg r).hi
  lo : ∀ r, r ≠ .esp → (σ.lo r).Denotes start (m.reg r).lo
  espHi : (m.reg .esp).hi = (start.reg .esp).hi
  espLo : (m.reg .esp).lo = (start.reg .esp).lo - UInt16.ofNat (2 * σ.pushed.length)
  few : σ.pushed.length ≤ 30
  pushed : Holds start m σ.pushed
  kept : ∀ a, (∀ k, 1 ≤ k → k ≤ 60 → a ≠ cell start k) → m.stack a = start.stack a

lemma Models.reg {start m : Machine} {σ : Abs} (h : Models start σ m) {r : Reg} (hr : r ≠ .esp)
    {x y : Sym} (hhi : σ.hi r = x) (hlo : σ.lo r = y) :
    x.Denotes start (m.reg r).hi ∧ y.Denotes start (m.reg r).lo := by
  subst hhi hlo
  exact ⟨h.hi r hr, h.lo r hr⟩

/-- A register whose symbols are those of another one holds what that one held at the start. -/
lemma Models.reg_eq {start m : Machine} {σ : Abs} (h : Models start σ m) {r r' : Reg} (hr : r ≠ .esp)
    (hhi : σ.hi r = .hi r') (hlo : σ.lo r = .lo r') : m.reg r = start.reg r' :=
  let halves := h.reg hr hhi hlo
  congrArg₂ Gpr.mk halves.1 halves.2

/-- A start: real mode, the stack in the segment 0, and the frame at its top. -/
structure Framed (start : Machine) : Prop where
  real : ¬ start.Protected
  ss : start.seg .ss = 0
  frame : start.reg .ebp = start.reg .esp

lemma Framed.models {start : Machine} (h : Framed start) : Models start .start start where
  real := h.real
  ss := h.ss
  hi _ _ := rfl
  lo _ _ := rfl
  espHi := rfl
  espLo := by simp [Abs.start]
  few := by simp [Abs.start]
  pushed := trivial
  kept _ _ := rfl

/-! Addresses below the start -/

section Cells

variable {start : Machine}

lemma sub_ofNat_add (s : UInt16) {k b : ℕ} (hb : b ≤ k) :
    s - UInt16.ofNat k + UInt16.ofNat b = s - UInt16.ofNat (k - b) := by
  have hs := s.toNat_lt
  apply UInt16.toNat_inj.mp
  simp only [UInt16.toNat_add, UInt16.toNat_sub, UInt16.toNat_ofNat']
  omega

lemma sub_ofNat_sub (s : UInt16) (k b : ℕ) :
    s - UInt16.ofNat k - UInt16.ofNat b = s - UInt16.ofNat (k + b) := by
  have hs := s.toNat_lt
  apply UInt16.toNat_inj.mp
  simp only [UInt16.toNat_sub, UInt16.toNat_ofNat']
  omega

lemma toUInt32_inj {a b : UInt16} (h : a.toUInt32 = b.toUInt32) : a = b := by
  have hnat := congrArg UInt32.toNat h
  simpa [UInt16.toNat_inj] using hnat

lemma cell_inj {j k : ℕ} (hj : j < 65536) (hk : k < 65536) (h : cell start j = cell start k) : j = k := by
  have hsub := congrArg UInt16.toNat (toUInt32_inj h)
  have hs := (start.reg .esp).lo.toNat_lt
  simp only [UInt16.toNat_sub, UInt16.toNat_ofNat'] at hsub
  omega

lemma ne_cell_of_above {a : UInt32} {d : ℕ}
    (ha : a.toUInt16 = (start.reg .esp).lo + UInt16.ofNat d) (hd : d < 65000) {k : ℕ} (hk : 1 ≤ k)
    (hk' : k ≤ 60) : a ≠ cell start k := by
  rintro rfl
  have hs := (start.reg .esp).lo.toNat_lt
  have hnat := congrArg UInt16.toNat ha
  simp only [cell, UInt16.toUInt16_toUInt32, UInt16.toNat_add, UInt16.toNat_sub,
    UInt16.toNat_ofNat'] at hnat
  omega

lemma Holds.congr {m m' : Machine} : ∀ {xs : List Sym},
    (∀ k, 1 ≤ k → k ≤ 2 * xs.length → m'.stack (cell start k) = m.stack (cell start k)) →
      Holds start m xs → Holds start m' xs
  | [], _, _ => trivial
  | x :: xs, hcells, ⟨hx, hxs⟩ => by
    rw [List.length_cons] at hcells
    refine ⟨?_, hxs.congr fun k hk hle => hcells k hk (by omega)⟩
    rw [hcells _ (by omega) (by omega), hcells _ (by omega) (by omega)]
    exact hx

end Cells

/-! ### One instruction -/

section Step

variable {start m m' : Machine} {σ σ' : Abs}

lemma stackAddr_real (hreal : ¬ m.Protected) (hss : m.seg .ss = 0) (g : Gpr) (d : UInt16) :
    m.stackAddr g d = (g.lo + d).toUInt32 := by
  rw [Machine.stackAddr, if_neg hreal, hss]
  simp

lemma Models.congr (h : Models start σ m) (hreg : m'.reg = m.reg) (hss : m'.seg .ss = m.seg .ss)
    (hcr0 : m'.cr0 = m.cr0) (hstack : m'.stack = m.stack) : Models start σ m' where
  real := by unfold Machine.Protected; rw [hcr0]; exact h.real
  ss := hss.trans h.ss
  hi := by rw [hreg]; exact h.hi
  lo := by rw [hreg]; exact h.lo
  espHi := by rw [hreg]; exact h.espHi
  espLo := by rw [hreg]; exact h.espLo
  few := h.few
  pushed := h.pushed.congr fun k _ _ => by rw [hstack]
  kept := by rw [hstack]; exact h.kept

lemma Models.setReg (h : Models start σ m) {r : Reg} (hr : r ≠ .esp) {x y : Sym} {g : Gpr}
    (hx : x.Denotes start g.hi) (hy : y.Denotes start g.lo) :
    Models start (σ.set r x y) (m.setReg r g) where
  real := h.real
  ss := h.ss
  hi := by
    intro r' hr'
    rcases eq_or_ne r' r with rfl | hne
    · simpa [Abs.set, Machine.setReg] using hx
    · simpa [Abs.set, Machine.setReg, hne] using h.hi r' hr'
  lo := by
    intro r' hr'
    rcases eq_or_ne r' r with rfl | hne
    · simpa [Abs.set, Machine.setReg] using hy
    · simpa [Abs.set, Machine.setReg, hne] using h.lo r' hr'
  espHi := by simpa [Machine.setReg, hr.symm] using h.espHi
  espLo := by simpa [Machine.setReg, Abs.set, hr.symm] using h.espLo
  few := h.few
  pushed := Holds.congr (m := m) (fun _ _ _ => rfl) h.pushed
  kept := h.kept

lemma storeBytes_eq (s : Seg) (bs : List UInt8) (o : UInt16) (m : Machine) :
    ∃ data, Machine.storeBytes s bs o m = { m with data := data } := by
  induction bs generalizing o m with
  | nil => exact ⟨m.data, rfl⟩
  | cons b bs ih =>
    obtain ⟨data, hdata⟩ := ih (o + 1) { m with data := Function.update m.data (m.dataAddr s o) b }
    exact ⟨data, hdata⟩

lemma Models.forget (h : Models start σ m) {p : Place} (hσ : σ.forget p = some σ') (v : UInt32) :
    Models start σ' (m.write v p) := by
  cases p with
  | reg r =>
    rw [Abs.forget] at hσ
    split_ifs at hσ with hr
    cases hσ
    exact h.setReg hr trivial trivial
  | word r =>
    rw [Abs.forget] at hσ
    split_ifs at hσ with hr
    cases hσ
    exact h.setReg hr (h.hi r hr) trivial
  | low r =>
    rw [Abs.forget] at hσ
    split_ifs at hσ with hr
    cases hσ
    exact h.setReg hr (h.hi r hr) trivial
  | high r =>
    rw [Abs.forget] at hσ
    split_ifs at hσ with hr
    cases hσ
    exact h.setReg hr (h.hi r hr) trivial
  | seg s =>
    rw [Abs.forget] at hσ
    split_ifs at hσ with hs
    cases hσ
    exact h.congr rfl (by simp [Machine.write, Ne.symm hs]) rfl rfl
  | cr0 => cases hσ
  | mem size s r d =>
    cases hσ
    obtain ⟨data, hdata⟩ := storeBytes_eq s (Machine.bytesOf v size) (m.offset r d) m
    rw [Machine.write, hdata]
    exact h.congr rfl rfl rfl rfl

/-- A word pushed. -/
lemma Models.pushWord (h : Models start σ m) (hfew : σ.pushed.length < 30) {x : Sym} {w : UInt16}
    (hx : x.Denotes start w) : Models start { σ with pushed := x :: σ.pushed } (m.pushWord w) := by
  obtain ⟨n, hn⟩ : ∃ n, n = σ.pushed.length := ⟨_, rfl⟩
  have hlo : (m.reg .esp).lo - 2 = (start.reg .esp).lo - UInt16.ofNat (2 * n + 2) := by
    rw [h.espLo, ← hn]
    exact sub_ofNat_sub _ (2 * n) 2
  have hhigh : (start.reg .esp).lo - UInt16.ofNat (2 * n + 2) + 1 =
      (start.reg .esp).lo - UInt16.ofNat (2 * n + 1) := sub_ofNat_add _ (b := 1) (by omega)
  have hpush : m.pushWord w =
      { m with
        reg := Function.update m.reg .esp
          ⟨(m.reg .esp).hi, (start.reg .esp).lo - UInt16.ofNat (2 * n + 2)⟩
        stack := Function.update (Function.update m.stack (cell start (2 * n + 2)) (lowByte w))
          (cell start (2 * n + 1)) (highByte w) } := by
    have hmove : m.moveStack (· - 2) (· - 2) = m.setReg .esp
        ⟨(m.reg .esp).hi, (start.reg .esp).lo - UInt16.ofNat (2 * n + 2)⟩ := by
      rw [Machine.moveStack, if_neg h.real, hlo]
    rw [Machine.pushWord, hmove, Machine.storeTop]
    rw [stackAddr_real (m := m.setReg _ _) h.real h.ss, stackAddr_real (m := m.setReg _ _) h.real h.ss]
    simp only [Machine.setReg, Function.update_self, UInt16.add_zero, hhigh]
    rfl
  have hne : cell start (2 * n + 2) ≠ cell start (2 * n + 1) := fun heq =>
    absurd (cell_inj (by omega) (by omega) heq) (by omega)
  rw [hpush]
  exact
    { real := h.real
      ss := h.ss
      hi := fun r hr => by simpa [hr] using h.hi r hr
      lo := fun r hr => by simpa [hr] using h.lo r hr
      espHi := by simpa using h.espHi
      espLo := by simp [← hn, Nat.mul_add]
      few := by simp only [List.length_cons]; omega
      pushed := by
        refine ⟨?_, h.pushed.congr fun k hk hle => ?_⟩
        · simp only [← hn, Function.update_self, Function.update_of_ne hne]
          rwa [le16_lowByte_highByte]
        · have hne₁ : cell start k ≠ cell start (2 * n + 1) := fun heq =>
            absurd (cell_inj (by omega) (by omega) heq) (by omega)
          have hne₂ : cell start k ≠ cell start (2 * n + 2) := fun heq =>
            absurd (cell_inj (by omega) (by omega) heq) (by omega)
          simp only [Function.update_of_ne hne₁, Function.update_of_ne hne₂]
      kept := fun a ha => by
        simp only [Function.update_of_ne (ha (2 * n + 1) (by omega) (by omega)),
          Function.update_of_ne (ha (2 * n + 2) (by omega) (by omega))]
        exact h.kept a ha }

lemma Models.popWord (h : Models start σ m) {x : Sym} {xs : List Sym} (hσ : σ.pushed = x :: xs) :
    x.Denotes start m.popWord.1 ∧ Models start { σ with pushed := xs } m.popWord.2 := by
  have hlength : σ.pushed.length = xs.length + 1 := by rw [hσ, List.length_cons]
  have hfew := h.few
  have hlo : (m.reg .esp).lo = (start.reg .esp).lo - UInt16.ofNat (2 * xs.length + 2) := by
    rw [h.espLo, hlength, Nat.mul_add]
  have hhigh : (start.reg .esp).lo - UInt16.ofNat (2 * xs.length + 2) + 1 =
      (start.reg .esp).lo - UInt16.ofNat (2 * xs.length + 1) := sub_ofNat_add _ (b := 1) (by omega)
  have hup : (start.reg .esp).lo - UInt16.ofNat (2 * xs.length + 2) + 2 =
      (start.reg .esp).lo - UInt16.ofNat (2 * xs.length) := sub_ofNat_add _ (b := 2) (by omega)
  have hholds := h.pushed
  rw [hσ] at hholds
  obtain ⟨htop, hrest⟩ := hholds
  constructor
  · simp only [Machine.popWord, Machine.stackWord]
    rw [stackAddr_real h.real h.ss, stackAddr_real h.real h.ss, hlo, UInt16.add_zero,
      show (0 : UInt16) + 1 = 1 from rfl, hhigh]
    exact htop
  · have hmove : m.popWord.2 = m.setReg .esp
        ⟨(m.reg .esp).hi, (start.reg .esp).lo - UInt16.ofNat (2 * xs.length)⟩ := by
      simp only [Machine.popWord, Machine.moveStack]
      rw [if_neg h.real, hlo, hup]
    rw [hmove]
    exact
      { real := h.real
        ss := h.ss
        hi := fun r hr => by simpa [Machine.setReg, hr] using h.hi r hr
        lo := fun r hr => by simpa [Machine.setReg, hr] using h.lo r hr
        espHi := by simpa [Machine.setReg] using h.espHi
        espLo := by simp [Machine.setReg]
        few := by simp only; omega
        pushed := Holds.congr (m := m) (fun _ _ _ => rfl) hrest
        kept := h.kept }

lemma Models.push (h : Models start σ m) {p : Place} (hσ : σ.push p = some σ') :
    Models start σ' (m.push p) := by
  obtain ⟨xs, hxs, hpush⟩ := Option.bind_eq_some_iff.mp hσ
  split_ifs at hpush with hfew
  cases hpush
  cases p with
  | reg r =>
    rw [Abs.words] at hxs
    split_ifs at hxs with hr
    cases hxs
    simp only [List.length_cons, List.length_nil] at hfew
    have hhi := h.pushWord (by omega) (h.hi r hr)
    exact hhi.pushWord (by simp only [List.length_cons]; omega) (h.lo r hr)
  | word r =>
    rw [Abs.words] at hxs
    split_ifs at hxs with hr
    cases hxs
    simp only [List.length_cons, List.length_nil] at hfew
    have hlo : (m.reg r).lo.toUInt32.toUInt16 = (m.reg r).lo := UInt16.toUInt16_toUInt32 _
    exact h.pushWord (by omega) (hlo.symm ▸ h.lo r hr)
  | seg s =>
    cases hxs
    simp only [List.length_cons, List.length_nil] at hfew
    exact h.pushWord (by omega) trivial
  | low r => cases hxs
  | high r => cases hxs
  | cr0 => cases hxs
  | mem size s r d => cases hxs

lemma Models.pop (h : Models start σ m) {p : Place} (hσ : σ.pop p = some σ') :
    Models start σ' (m.pop p) := by
  unfold Abs.pop at hσ
  split at hσ
  · rename_i r lo hi rest hpushed
    split_ifs at hσ with hr
    cases hσ
    obtain ⟨hlo, hpopped⟩ := h.popWord hpushed
    obtain ⟨hhi, hpopped⟩ := hpopped.popWord rfl
    exact hpopped.setReg hr hhi hlo
  · rename_i r lo rest hpushed
    split_ifs at hσ with hr
    cases hσ
    obtain ⟨hlo, hpopped⟩ := h.popWord hpushed
    have hword : m.popWord.1.toUInt32.toUInt16 = m.popWord.1 := UInt16.toUInt16_toUInt32 _
    exact hpopped.setReg hr (hpopped.hi r hr) (hword.symm ▸ hlo)
  · rename_i s x rest hpushed
    split_ifs at hσ with hs
    cases hσ
    obtain ⟨-, hpopped⟩ := h.popWord hpushed
    exact hpopped.congr rfl (by simp [Machine.pop, Machine.write, Ne.symm hs]) rfl rfl
  · cases hσ

lemma Models.stackWord_arg (h : Models start σ m) (hstart : Framed start)
    (hebp : σ.lo .ebp = .lo .ebp) {d : UInt16} (hd : d.toNat < 66) :
    m.stackWord (m.reg .ebp) d = start.stackWord (start.reg .ebp) d := by
  have hlo : (m.reg .ebp).lo = (start.reg .ebp).lo := by
    have hdenotes := h.lo .ebp (by decide)
    rwa [hebp] at hdenotes
  have hkept : ∀ e : UInt16, e.toNat < 67 →
      m.stack ((start.reg .ebp).lo + e).toUInt32 = start.stack ((start.reg .ebp).lo + e).toUInt32 :=
    fun e he => h.kept _ fun k hk hle => ne_cell_of_above (d := e.toNat)
      (by simp only [hstart.frame, UInt16.toUInt16_toUInt32, UInt16.ofNat_toNat]) (by omega) hk hle
  have hsucc : (d + 1).toNat < 67 := by
    rw [UInt16.toNat_add]
    exact (Nat.mod_le _ _).trans_lt (by simp; omega)
  simp only [Machine.stackWord]
  rw [stackAddr_real h.real h.ss, stackAddr_real h.real h.ss, stackAddr_real hstart.real hstart.ss,
    stackAddr_real hstart.real hstart.ss, hlo, hkept d (by omega), hkept (d + 1) hsucc]

lemma Models.load (h : Models start σ m) (hstart : Framed start) {r : Reg} {src : Operand}
    (hσ : σ.load r src = some σ') : Models start σ' (m.write (m.read src) (.reg r)) := by
  unfold Abs.load at hσ
  split at hσ
  · rename_i d
    split_ifs at hσ with hcond
    cases hσ
    obtain ⟨hr, hd, hebp⟩ : r ≠ .esp ∧ ¬ 64 ≤ d ∧ σ.lo .ebp = .lo .ebp := by
      simpa only [not_or, not_not] using hcond
    have hd' : d.toNat < 64 := by simpa [UInt16.le_iff_toNat_le] using hd
    have hd₂ : (d + 2).toNat < 66 := by
      rw [UInt16.toNat_add]
      exact (Nat.mod_le _ _).trans_lt (by simp; omega)
    have hread : m.read (.bp .dword d) =
        Gpr.value ⟨m.stackWord (m.reg .ebp) (d + 2), m.stackWord (m.reg .ebp) d⟩ := rfl
    rw [hread, Machine.write, Gpr.ofValue_value]
    exact h.setReg hr (h.stackWord_arg hstart hebp hd₂) (h.stackWord_arg hstart hebp (by omega))
  · rename_i v
    split_ifs at hσ with hcond
    · exact h.forget hσ _
    · cases hσ
      obtain ⟨hr, hv⟩ : r ≠ .esp ∧ v = 0 := by simpa only [not_or, not_not] using hcond
      have hzero : Gpr.ofValue 0 = ⟨0, 0⟩ := rfl
      rw [Machine.read, hv, Machine.write, hzero]
      exact h.setReg hr rfl rfl
  · exact h.forget hσ _

lemma ofValue_and (g : Gpr) : Gpr.ofValue (g.value &&& 15) = ⟨0, g.lo &&& 15⟩ := by
  have hvalue : (g.value &&& 15).toNat = g.lo.toNat % 16 := by
    rw [UInt32.toNat_and, Gpr.toNat_value]
    exact (Nat.and_two_pow_sub_one_eq_mod _ 4).trans (by omega)
  have hlo : (g.lo &&& 15).toNat = g.lo.toNat % 16 := by
    rw [UInt16.toNat_and]
    exact Nat.and_two_pow_sub_one_eq_mod _ 4
  rw [Gpr.ofValue, hvalue, Gpr.mk.injEq]
  constructor
  · rw [show g.lo.toNat % 16 / 65536 = 0 by omega]
    rfl
  · apply UInt16.toNat_inj.mp
    rw [hlo, UInt16.toNat_ofNat']
    omega

lemma Models.low4 (h : Models start σ m) {r : Reg} (hσ : σ.low4 r = some σ') :
    Models start σ' (m.write ((m.reg r).value &&& 15) (.reg r)) := by
  unfold Abs.low4 at hσ
  split at hσ
  · rename_i d hd
    split_ifs at hσ with hr
    cases hσ
    have hlo := h.lo r hr
    rw [hd] at hlo
    rw [Machine.write, ofValue_and]
    exact h.setReg hr rfl (show _ = _ from congrArg (· &&& 15) hlo)
  · exact h.forget hσ _

lemma Models.results (value : Place → UInt32) {ps : List Place} (h : Models start σ m)
    (hσ : ps.foldlM Abs.forget σ = some σ') :
    Models start σ' (ps.foldl (fun m p => m.write (value p) p) m) := by
  induction ps generalizing σ m with
  | nil => cases hσ; exact h
  | cons p ps ih =>
    rw [List.foldlM_cons] at hσ
    obtain ⟨τ, hτ, hrest⟩ := Option.bind_eq_some_iff.mp hσ
    exact ih (h.forget hτ _) hrest

variable (bios : ℕ → Answer Place)

/-- **One instruction on symbols is sound**, and the instruction does not fault. -/
lemma sound_step (hstart : Framed start) (h : Models start σ m) {o : Op} (hσ : σ.step o = some σ') :
    ∃ m', exec bios o m = some m' ∧ Models start σ' m' := by
  cases o with
  | push p => exact ⟨_, rfl, h.push hσ⟩
  | pop p => exact ⟨_, rfl, h.pop hσ⟩
  | mov dst src =>
    refine ⟨_, rfl, ?_⟩
    cases dst with
    | reg r => exact h.load hstart hσ
    | word r => exact h.forget (p := .word r) hσ _
    | low r => exact h.forget (p := .low r) hσ _
    | high r => exact h.forget (p := .high r) hσ _
    | seg s => exact h.forget (p := .seg s) hσ _
    | cr0 => exact h.forget (p := .cr0) hσ _
    | mem size s r d => exact h.forget (p := .mem size s r d) hσ _
  | alu f dst src =>
    refine ⟨_, rfl, ?_⟩
    change σ.compute f dst src = some σ' at hσ
    unfold Abs.compute at hσ
    split at hσ
    · cases hσ
      exact h.congr rfl rfl rfl rfl
    · split_ifs at hσ with hv
      · subst hv
        exact (h.low4 hσ).congr rfl rfl rfl rfl
      · exact (h.forget hσ _).congr rfl rfl rfl rfl
    · rename_i hcmp _
      have hf : ¬ f = .cmp := hcmp
      simp only [if_neg hf]
      exact (h.forget hσ _).congr rfl rfl rfl rfl
  | inc dst => exact ⟨_, rfl, (h.forget hσ _).congr rfl rfl rfl rfl⟩
  | div src => cases hσ
  | stc => cases hσ; exact ⟨_, rfl, h.congr rfl rfl rfl rfl⟩
  | cli => cases hσ; exact ⟨_, rfl, h.congr rfl rfl rfl rfl⟩
  | sti => cases hσ; exact ⟨_, rfl, h.congr rfl rfl rfl rfl⟩
  | farJmp selector => cases hσ
  | int vector results => exact ⟨_, rfl, (h.results _ hσ).congr rfl rfl rfl rfl⟩
  | ret => cases hσ

lemma sound_stepAll (hstart : Framed start) : ∀ {os : List Op} {σ : Abs} {m : Machine},
    Models start σ m → Abs.stepAll os σ = some σ' →
      ∃ m', execAll bios os m = some m' ∧ Models start σ' m'
  | [], _, m, h, hσ => by
    cases hσ
    exact ⟨m, rfl, h⟩
  | o :: os, σ, m, h, hσ => by
    obtain ⟨τ, hτ, hrest⟩ := Option.bind_eq_some_iff.mp hσ
    obtain ⟨t, ht, hmodels⟩ := sound_step bios hstart h hτ
    obtain ⟨m', hm', hmodels'⟩ := sound_stepAll hstart hmodels hrest
    exact ⟨m', by rw [execAll, ht, Option.bind_some, hm'], hmodels'⟩

lemma Models.same {τ : Abs} (h : Models start σ m) (hsame : σ.same τ = true) : Models start τ m := by
  simp only [Abs.same, Bool.and_eq_true, List.all_eq_true, beq_iff_eq] at hsame
  obtain ⟨hpushed, hregs⟩ := hsame
  have hall : ∀ r, r ≠ .esp → σ.hi r = τ.hi r ∧ σ.lo r = τ.lo r := by
    intro r hr
    exact hregs r (by cases r <;> simp_all)
  exact
    { real := h.real
      ss := h.ss
      hi := fun r hr => (hall r hr).1 ▸ h.hi r hr
      lo := fun r hr => (hall r hr).2 ▸ h.lo r hr
      espHi := h.espHi
      espLo := hpushed ▸ h.espLo
      few := hpushed ▸ h.few
      pushed := hpushed ▸ h.pushed
      kept := h.kept }

lemma sound_rounds (hstart : Framed start) {body : List Op} {τ τ' : Abs}
    (hbody : Abs.stepAll body τ = some τ') (hsame : τ'.same τ = true) :
    ∀ {fuel : ℕ} {m : Machine}, Models start τ m → rounds bios body fuel m = some m' →
      Models start τ m'
  | 0, _, _, hrun => by cases hrun
  | fuel + 1, m, h, hrun => by
    obtain ⟨t, ht, hmodels⟩ := sound_stepAll bios hstart h hbody
    rw [rounds, ht, Option.bind_some] at hrun
    split_ifs at hrun with hzero
    · cases hrun
      exact hmodels.same hsame
    · exact sound_rounds hstart hbody hsame (hmodels.same hsame) hrun

lemma sound_instr (hstart : Framed start) (h : Models start σ m) {i : Instr}
    (hσ : σ.instr i = some σ') {fuel : ℕ} (hrun : i.run bios fuel m = some m') :
    Models start σ' m' := by
  cases i with
  | op o =>
    obtain ⟨t, ht, hmodels⟩ := sound_step bios hstart h hσ
    rw [Instr.run, ht] at hrun
    cases hrun
    exact hmodels
  | ifZero yes no =>
    obtain ⟨τ, hyes, hσ⟩ := Option.bind_eq_some_iff.mp hσ
    obtain ⟨τ', hno, hσ⟩ := Option.bind_eq_some_iff.mp hσ
    split_ifs at hσ with hsame
    cases hσ
    rw [Instr.run] at hrun
    split_ifs at hrun with hzero
    · obtain ⟨t, ht, hmodels⟩ := sound_stepAll bios hstart h hyes
      rw [ht] at hrun
      cases hrun
      exact hmodels
    · obtain ⟨t, ht, hmodels⟩ := sound_stepAll bios hstart h hno
      rw [ht] at hrun
      cases hrun
      exact hmodels.same hsame
  | untilZero body =>
    obtain ⟨τ, hfirst, hσ⟩ := Option.bind_eq_some_iff.mp hσ
    obtain ⟨τ', hbody, hσ⟩ := Option.bind_eq_some_iff.mp hσ
    split_ifs at hσ with hsame
    cases hσ
    rw [Instr.run] at hrun
    cases fuel with
    | zero => cases hrun
    | succ fuel =>
      -- the first round starts from what is known before, the others from what it leaves
      obtain ⟨t, ht, hmodels⟩ := sound_stepAll bios hstart h hfirst
      rw [rounds, ht, Option.bind_some] at hrun
      split_ifs at hrun with hzero
      · cases hrun
        exact hmodels
      · exact sound_rounds bios hstart hbody hsame hmodels hrun

/-- **A run on symbols is sound.** -/
theorem sound_run (hstart : Framed start) {fuel : ℕ} : ∀ {is : List Instr} {σ : Abs} {m : Machine},
    Models start σ m → Abs.run is σ = some σ' → run bios fuel is m = some m' → Models start σ' m'
  | [], _, _, h, hσ, hrun => by
    cases hσ
    cases hrun
    exact h
  | i :: is, σ, m, h, hσ, hrun => by
    obtain ⟨τ, hτ, hrest⟩ := Option.bind_eq_some_iff.mp hσ
    obtain ⟨t, ht, hrun⟩ := Option.bind_eq_some_iff.mp hrun
    exact sound_run hstart (sound_instr bios hstart h hτ ht) hrest hrun

/-- An instruction that is no loop. -/
def Instr.straight : Instr → Bool
  | .untilZero _ => false
  | _ => true

theorem run_ends (hstart : Framed start) (fuel : ℕ) : ∀ {is : List Instr} {σ : Abs} {m : Machine},
    Models start σ m → Abs.run is σ = some σ' → is.all Instr.straight = true →
      ∃ m', run bios fuel is m = some m'
  | [], _, m, _, _, _ => ⟨m, rfl⟩
  | i :: is, σ, m, h, hσ, hstraight => by
    simp only [List.all_cons, Bool.and_eq_true] at hstraight
    obtain ⟨hi, his⟩ := hstraight
    obtain ⟨τ, hτ, hrest⟩ := Option.bind_eq_some_iff.mp hσ
    have hfirst : ∃ t, i.run bios fuel m = some t := by
      cases i with
      | op o =>
        obtain ⟨t, ht, -⟩ := sound_step bios hstart h hτ
        exact ⟨t, ht⟩
      | ifZero yes no =>
        obtain ⟨τ₁, hyes, hτ⟩ := Option.bind_eq_some_iff.mp hτ
        obtain ⟨τ₂, hno, -⟩ := Option.bind_eq_some_iff.mp hτ
        obtain ⟨t, ht, -⟩ := sound_stepAll bios hstart h hyes
        obtain ⟨t', ht', -⟩ := sound_stepAll bios hstart h hno
        rw [Instr.run]
        split_ifs
        · exact ⟨t, ht⟩
        · exact ⟨t', ht'⟩
      | untilZero body => cases hi
    obtain ⟨t, ht⟩ := hfirst
    obtain ⟨m', hm'⟩ := run_ends hstart fuel (sound_instr bios hstart h hτ ht) hrest his
    exact ⟨m', by rw [run, ht, Option.bind_some, hm']⟩

end Step

end Lib.X86
