import ArcOS.Lib.Memory

/-!
A 32-bit processor with flat segments, as far as interrupts use it: the registers, the stack, how an
interrupt is delivered and how `iret` ends it.

A list of words that lies on the stack from an address on is `Holds`; pushing puts a word in front
(`holds_push`), popping takes the first one off (`Holds.pop`), and whoever leaves the bytes of the list
alone leaves the list (`Holds.congr`). A function of C is known by what it keeps (`Cdecl`).
-/

namespace Lib.Ia32

/-! ### Words in the memory -/

/-- The 32-bit number at an address. -/
def load (m : Memory) (a : UInt32) : UInt32 := word32 (m.view a) 0

/-- The memory with a 32-bit number at an address. -/
def put (m : Memory) (a w : UInt32) : Memory := m.store a (bytes32 w)

lemma load_congr {m m' : Memory} {a : UInt32} (h : ∀ k < 4, m.view a k = m'.view a k) :
    load m a = load m' a := word32_congr fun i hi => by simpa using h i hi

lemma load_put (m : Memory) (a w : UInt32) : load (put m a w) a = w := Memory.word32_store m a w

lemma put_of_le {m : Memory} {a w b : UInt32} (h : 4 ≤ Memory.offset a b) : put m a w b = m b :=
  Memory.store_of_le (by simpa [bytes32] using h)

/-- The words from an address on, the one at the address first. -/
def Holds (m : Memory) : UInt32 → List UInt32 → Prop
  | _, [] => True
  | a, w :: ws => load m a = w ∧ Holds m (a + 4) ws

instance decidableHolds (m : Memory) : ∀ a ws, Decidable (Holds m a ws)
  | _, [] => inferInstanceAs (Decidable True)
  | a, w :: ws =>
    have := decidableHolds m (a + 4) ws
    inferInstanceAs (Decidable (load m a = w ∧ Holds m (a + 4) ws))

lemma Holds.congr {m m' : Memory} : ∀ {ws : List UInt32} {a : UInt32},
    (∀ k < 4 * ws.length, m'.view a k = m.view a k) → Holds m a ws → Holds m' a ws
  | [], _, _, _ => trivial
  | w :: ws, a, h, hm => by
    have hlen : (w :: ws).length = ws.length + 1 := rfl
    constructor
    · rw [← hm.1]
      exact load_congr fun k hk => h k (by omega)
    · apply Holds.congr _ hm.2
      intro k hk
      have hk' := h (4 + k) (by omega)
      rwa [← Memory.view_shift, ← Memory.view_shift] at hk'

lemma Holds.get {m : Memory} : ∀ {ws : List UInt32} {a : UInt32}, Holds m a ws → ∀ i < ws.length,
    load m (a + UInt32.ofNat (4 * i)) = ws.getD i 0
  | [], _, _, i, hi => absurd hi (Nat.not_lt_zero i)
  | w :: ws, a, h, 0, _ => by simpa using h.1
  | w :: ws, a, h, i + 1, hi => by
    have hrest := h.2.get i (Nat.lt_of_succ_lt_succ hi)
    rw [UInt32.add_assoc] at hrest
    have hstep : (4 : UInt32) + UInt32.ofNat (4 * i) = UInt32.ofNat (4 * (i + 1)) := by
      rw [show 4 * (i + 1) = 4 + 4 * i by omega, UInt32.ofNat_add]
      rfl
    rw [hstep] at hrest
    simpa using hrest

lemma Holds.left {m : Memory} {vs : List UInt32} : ∀ {ws : List UInt32} {a : UInt32},
    Holds m a (ws ++ vs) → Holds m a ws
  | [], _, _ => trivial
  | _ :: _, _, h => ⟨h.1, Holds.left h.2⟩

lemma Holds.drop {m : Memory} : ∀ (n : ℕ) {ws : List UInt32} {a : UInt32}, Holds m a ws →
    Holds m (a + UInt32.ofNat (4 * n)) (ws.drop n)
  | 0, ws, a, h => by simpa using h
  | n + 1, [], a, _ => by simp [Holds]
  | n + 1, w :: ws, a, h => by
    have hrest := Holds.drop n h.2
    rw [UInt32.add_assoc] at hrest
    rwa [show (4 : UInt32) + UInt32.ofNat (4 * n) = UInt32.ofNat (4 * (n + 1)) by
      rw [show 4 * (n + 1) = 4 + 4 * n by omega, UInt32.ofNat_add]; rfl] at hrest

/-! ### The processor -/

/-- The general registers but the stack pointer. -/
structure Gprs where
  eax : UInt32
  ecx : UInt32
  edx : UInt32
  ebx : UInt32
  ebp : UInt32
  esi : UInt32
  edi : UInt32
  deriving DecidableEq

structure Segs where
  cs : UInt16
  ds : UInt16
  es : UInt16
  fs : UInt16
  gs : UInt16
  ss : UInt16
  deriving DecidableEq

/-- The four data segment registers loaded with one selector. -/
def Segs.data (s : Segs) (selector : UInt16) : Segs :=
  { s with ds := selector, es := selector, fs := selector, gs := selector }

/-- The data segment registers are the same. -/
def Segs.Flat (s : Segs) : Prop := s.data s.ds = s

@[simp] lemma Segs.data_data (s : Segs) (a b : UInt16) : (s.data a).data b = s.data b := rfl

structure Cpu where
  regs : Gprs
  esp : UInt32
  segs : Segs
  eip : UInt32
  eflags : UInt32
  mem : Memory

namespace Cpu

def push (w : UInt32) (c : Cpu) : Cpu :=
  { c with esp := c.esp - 4, mem := put c.mem (c.esp - 4) w }

/-- The word on top of the stack, and the processor without it. -/
def pop (c : Cpu) : UInt32 × Cpu := (load c.mem c.esp, { c with esp := c.esp + 4 })

/-- The words pushed from the last one of the list to the first one. -/
def pushAll (ws : List UInt32) (c : Cpu) : Cpu := ws.foldr push c

variable {c : Cpu} {w : UInt32} {ws : List UInt32}

@[simp] lemma regs_push : (c.push w).regs = c.regs := rfl
@[simp] lemma segs_push : (c.push w).segs = c.segs := rfl
@[simp] lemma esp_push : (c.push w).esp = c.esp - 4 := rfl
@[simp] lemma eflags_push : (c.push w).eflags = c.eflags := rfl
@[simp] lemma eip_push : (c.push w).eip = c.eip := rfl

lemma holds_push (h : Holds c.mem c.esp ws) (hlen : 4 * (ws.length + 1) ≤ 2 ^ 32) :
    Holds (c.push w).mem (c.push w).esp (w :: ws) := by
  refine ⟨load_put _ _ _, ?_⟩
  have hesp : c.esp - 4 + 4 = c.esp := by grind
  rw [esp_push, hesp]
  refine h.congr fun k hk => put_of_le ?_
  have hoff : c.esp + UInt32.ofNat k = c.esp - 4 + UInt32.ofNat (4 + k) := by
    rw [UInt32.ofNat_add]
    grind
  rw [hoff, Memory.offset_add _ (by omega)]
  omega

lemma pushAll_regs (c : Cpu) (ws : List UInt32) : (pushAll ws c).regs = c.regs ∧
    (pushAll ws c).segs = c.segs ∧ (pushAll ws c).esp = c.esp - UInt32.ofNat (4 * ws.length) := by
  induction ws with
  | nil => simp [pushAll]
  | cons w ws ih =>
    refine ⟨ih.1, ih.2.1, ?_⟩
    have hesp : (pushAll (w :: ws) c).esp = (pushAll ws c).esp - 4 := rfl
    rw [hesp, ih.2.2, List.length_cons, show 4 * (ws.length + 1) = 4 * ws.length + 4 by omega,
      UInt32.ofNat_add, show UInt32.ofNat 4 = 4 from rfl]
    grind

lemma holds_pushAll {vs : List UInt32} (h : Holds c.mem c.esp vs) : ∀ {ws : List UInt32},
    4 * (ws.length + vs.length) ≤ 2 ^ 32 →
      Holds (pushAll ws c).mem (pushAll ws c).esp (ws ++ vs)
  | [], _ => h
  | w :: ws, hlen => by
    rw [List.length_cons] at hlen
    have hsum : (ws ++ vs).length = ws.length + vs.length := List.length_append
    have htail : Holds (pushAll ws c).mem (pushAll ws c).esp (ws ++ vs) := holds_pushAll h (by omega)
    have hroom : 4 * ((ws ++ vs).length + 1) ≤ 2 ^ 32 := by omega
    exact holds_push htail hroom

/-- Below the stack pointer by no more than `n`. -/
def Below (sp : UInt32) (n : ℕ) (a : UInt32) : Prop := Memory.offset (sp - UInt32.ofNat n) a < n

lemma below_mono {sp a : UInt32} {n n' : ℕ} (h : Below sp n a) (hn : n ≤ n') (hn' : n' < 2 ^ 32) :
    Below sp n' a := by
  have hbase : sp - UInt32.ofNat n = sp - UInt32.ofNat n' + UInt32.ofNat (n' - n) := by
    have hsum : UInt32.ofNat n' = UInt32.ofNat n + UInt32.ofNat (n' - n) := by
      rw [← UInt32.ofNat_add, Nat.add_sub_cancel' hn]
    rw [hsum]
    grind
  have hlt := Memory.offset_lt (sp - UInt32.ofNat n') a
  unfold Below at h ⊢
  rw [hbase, Memory.offset_shift _ _ (by omega : n' - n < 2 ^ 32)] at h
  split at h <;> omega

lemma not_below_add (sp : UInt32) {n k : ℕ} (h : n + k < 2 ^ 32) : ¬ Below sp n (sp + UInt32.ofNat k) := by
  have hsum : sp + UInt32.ofNat k = sp - UInt32.ofNat n + UInt32.ofNat (n + k) := by
    rw [UInt32.ofNat_add]
    grind
  unfold Below
  rw [hsum, Memory.offset_add _ h]
  omega

/-- What lies below a stack pointer lies below another one, further down or a little further up. -/
lemma below_sub {sp sp' a : UInt32} {n d : ℕ} (hsp : sp' = sp - UInt32.ofNat d) (h : Below sp' n a) :
    Below sp (n + d) a := by
  have hbase : sp' - UInt32.ofNat n = sp - UInt32.ofNat (n + d) := by
    rw [hsp, UInt32.ofNat_add]
    grind
  unfold Below at h ⊢
  rw [hbase] at h
  omega

/-- Pushing writes below the stack pointer. -/
lemma pushAll_mem (c : Cpu) : ∀ {ws : List UInt32}, 4 * ws.length < 2 ^ 32 →
    ∀ a, ¬ Below c.esp (4 * ws.length) a → (pushAll ws c).mem a = c.mem a
  | [], _, _, _ => rfl
  | w :: ws, h, a, ha => by
    rw [List.length_cons] at h ha
    have hrest : ¬ Below c.esp (4 * ws.length) a := fun hb => ha (below_mono hb (by omega) h)
    rw [← pushAll_mem c (by omega) a hrest]
    have hesp := (pushAll_regs c ws).2.2
    refine put_of_le (Nat.not_lt.mp fun hlt => ha ?_)
    change Memory.offset ((pushAll ws c).esp - 4) a < 4 at hlt
    rw [hesp] at hlt
    have hbase : c.esp - UInt32.ofNat (4 * ws.length) - 4 = c.esp - UInt32.ofNat (4 * (ws.length + 1)) := by
      rw [show 4 * (ws.length + 1) = 4 * ws.length + 4 by omega, UInt32.ofNat_add,
        show UInt32.ofNat 4 = 4 from rfl]
      grind
    rw [hbase] at hlt
    exact Nat.lt_of_lt_of_le hlt (by omega)

/-- `pusha`: the registers, with the stack pointer as it was before. -/
def pusha (c : Cpu) : Cpu :=
  c.pushAll [c.regs.edi, c.regs.esi, c.regs.ebp, c.esp, c.regs.ebx, c.regs.edx, c.regs.ecx, c.regs.eax]

/-- `popa`: the registers from the stack; the stack pointer that lies among them is passed over. -/
def popa (c : Cpu) : Cpu :=
  let w := fun i : ℕ => load c.mem (c.esp + UInt32.ofNat (4 * i))
  { c with
    regs := ⟨w 7, w 6, w 5, w 4, w 2, w 1, w 0⟩
    esp := c.esp + 32 }

lemma popa_of_holds {edi esi ebp x ebx edx ecx eax : UInt32}
    (h : Holds c.mem c.esp (edi :: esi :: ebp :: x :: ebx :: edx :: ecx :: eax :: ws)) :
    c.popa = { c with regs := ⟨eax, ecx, edx, ebx, ebp, esi, edi⟩, esp := c.esp + 32 } := by
  have hget : ∀ i < 8, load c.mem (c.esp + UInt32.ofNat (4 * i)) =
      [edi, esi, ebp, x, ebx, edx, ecx, eax].getD i 0 := by
    intro i hi
    rw [h.get i (by simp only [List.length_cons]; omega)]
    simp only [List.getD_eq_getElem?_getD]
    rw [show edi :: esi :: ebp :: x :: ebx :: edx :: ecx :: eax :: ws =
      [edi, esi, ebp, x, ebx, edx, ecx, eax] ++ ws from rfl, List.getElem?_append_left (by simpa using hi)]
  simp only [popa]
  rw [hget 0 (by omega), hget 1 (by omega), hget 2 (by omega), hget 4 (by omega), hget 5 (by omega),
    hget 6 (by omega), hget 7 (by omega)]
  rfl

/-- `iret` to code of the same privilege. -/
def iret (c : Cpu) : Cpu :=
  { c with
    eip := load c.mem c.esp
    segs := { c.segs with cs := (load c.mem (c.esp + 4)).toUInt16 }
    eflags := load c.mem (c.esp + 8)
    esp := c.esp + 12 }

lemma iret_of_holds {eip cs eflags : UInt32} (h : Holds c.mem c.esp (eip :: cs :: eflags :: ws)) :
    c.iret = { c with
      eip := eip
      segs := { c.segs with cs := cs.toUInt16 }
      eflags := eflags
      esp := c.esp + 12 } := by
  obtain ⟨heip, hcs, hflags, -⟩ := h
  have hstep : c.esp + 4 + 4 = c.esp + 8 := by grind
  rw [hstep] at hflags
  unfold iret
  rw [heip, hcs, hflags]

end Cpu

/-! ### Gates -/

/-- What the processor reads in an entry of the interrupt descriptor table. -/
structure Gate where
  offset : UInt32
  selector : UInt16
  /-- the kind of gate: `0xE` is a 32-bit interrupt gate -/
  kind : ℕ
  privilege : ℕ
  present : Bool
  deriving DecidableEq

/-- The gate in eight bytes of the table. -/
def Gate.decode (entry : ℕ → UInt8) : Gate where
  offset := le32 (entry 0) (entry 1) (entry 6) (entry 7)
  selector := word16 entry 2
  kind := (entry 5).toNat % 32
  privilege := (entry 5).toNat / 32 % 4
  present := decide (128 ≤ (entry 5).toNat)

/-- What the processor reads in an entry of the global descriptor table. -/
structure Segment where
  base : UInt32
  /-- the last offset, in bytes or in pages -/
  limit : ℕ
  access : UInt8
  /-- 32-bit code, and a limit in pages -/
  big : Bool
  pages : Bool
  deriving DecidableEq

/-- The segment in eight bytes of the table. -/
def Segment.decode (entry : ℕ → UInt8) : Segment where
  base := le32 (entry 2) (entry 3) (entry 4) (entry 7)
  limit := (word16 entry 0).toNat + 65536 * ((entry 6).toNat % 16)
  access := entry 5
  big := (entry 6).toNat.testBit 6
  pages := (entry 6).toNat.testBit 7

/-- The flags that an interrupt gate clears: trap, interrupt, nested task, resume and virtual mode. -/
def clearedFlags : UInt32 := 0x34300

/-- An interrupt from code of the same privilege through a 32-bit interrupt gate, with the error code
if the processor has one for it. -/
def Cpu.deliver (g : Gate) (error : Option UInt32) (c : Cpu) : Cpu :=
  let pushed := c.pushAll (error.toList ++ [c.eip, c.segs.cs.toUInt32, c.eflags])
  { pushed with
    eip := g.offset
    segs := { c.segs with cs := g.selector }
    eflags := c.eflags &&& ~~~clearedFlags }

/-! ### Functions of C -/

variable {σ : Type*}

/-- A function of C, from its entry to behind its return, next to the state it works on. It keeps what
the calling convention lets its caller rely on, and it writes to memory of its own, to `room` bytes of
stack and to its one argument. -/
structure Cdecl (room : ℕ) (own : UInt32 → Prop) (f : Cpu → σ → Cpu × σ) : Prop where
  returns : ∀ c s, (f c s).1.eip = load c.mem c.esp
  esp : ∀ c s, (f c s).1.esp = c.esp + 4
  saved : ∀ c s, (f c s).1.regs.ebx = c.regs.ebx ∧ (f c s).1.regs.ebp = c.regs.ebp ∧
    (f c s).1.regs.esi = c.regs.esi ∧ (f c s).1.regs.edi = c.regs.edi
  segs : ∀ c s, (f c s).1.segs = c.segs
  mem : ∀ c s a, ¬ own a → ¬ Cpu.Below (c.esp + 8) (room + 8) a → (f c s).1.mem a = c.mem a

end Lib.Ia32
