import ArcOS.Lib.Ia32
import ArcOS.Lib.Interleave

/-!
From an interrupt to its handler and back: the stubs of `isrs.inc` and `isr_common` of `isr.asm`.

The stubs make the two kinds of interrupts alike, those with an error code from the processor and those
without: a stub of `ISR_NOERRORCODE` pushes a 0 in its place. `isr_common` then builds the rest of
`Registers`, calls the handler with a pointer to it, and takes everything off again.
-/

namespace ArcOS.Kernel.Isr

open Lib Lib.Ia32

/-! ### The code -/

/-- `Registers` -/
structure Registers where
  ds : UInt32
  edi : UInt32
  esi : UInt32
  ebp : UInt32
  useless : UInt32
  ebx : UInt32
  edx : UInt32
  ecx : UInt32
  eax : UInt32
  interrupt : UInt32
  error : UInt32
  eip : UInt32
  cs : UInt32
  eflags : UInt32
  esp : UInt32
  ss : UInt32
  deriving DecidableEq

/-- `*regs` -/
def Registers.ofMemory (m : Memory) (regs : UInt32) : Registers :=
  let w := fun i : ℕ => load m (regs + UInt32.ofNat (4 * i))
  ⟨w 0, w 1, w 2, w 3, w 4, w 5, w 6, w 7, w 8, w 9, w 10, w 11, w 12, w 13, w 14, w 15⟩

/-- The lines `ISR_ERRORCODE` of `isrs.inc`; the others are `ISR_NOERRORCODE`. -/
def errorCodeStubs : List ℕ := [8, 10, 11, 12, 13, 14, 17, 21]

/-- `i686_ISR<n>` up to its jump -/
def stub (n : ℕ) (c : Cpu) : Cpu :=
  if n ∈ errorCodeStubs then c.push (UInt32.ofNat n) else (c.push 0).push (UInt32.ofNat n)

/-- `mov ax, v` -/
def movAx (v : UInt16) (c : Cpu) : Cpu :=
  { c with regs := { c.regs with eax := c.regs.eax &&& 0xFFFF0000 ||| v.toUInt32 } }

section Code

variable {σ : Type*} (status : Cpu → UInt32) (returnAddress : UInt32) (handler : Cpu → σ → Cpu × σ)

/-- `isr_common` up to the entry of the handler. The additions and the `xor` leave some flags. -/
def isrEnter (c : Cpu) : Cpu :=
  let c := c.pusha
  let c := { c with regs := { c.regs with eax := 0 }, eflags := status c }
  let c := movAx c.segs.ds c
  let c := c.push c.regs.eax
  let c := movAx 0x10 c
  let c := { c with segs := c.segs.data c.regs.eax.toUInt16 }
  let c := c.push c.esp
  c.push returnAddress

/-- `isr_common` from the return of the handler on -/
def isrLeave (c : Cpu) : Cpu :=
  let c := { c with esp := c.esp + 4, eflags := status c }
  let (eax, c) := c.pop
  let c := { c with regs := { c.regs with eax := eax }, segs := c.segs.data eax.toUInt16 }
  let c := c.popa
  let c := { c with esp := c.esp + 8, eflags := status c }
  c.iret

/-- `isr_common` -/
def isrCommon (c : Cpu) (s : σ) : Cpu × σ :=
  let (c, s) := handler (isrEnter status returnAddress c) s
  (isrLeave status c, s)

/-- Interrupt `n`, from its delivery through gate `g` to the `iret` of its stub. -/
def service (n : ℕ) (g : Gate) (error : Option UInt32) (c : Cpu) (s : σ) : Cpu × σ :=
  isrCommon status returnAddress handler (stub n (c.deliver g error)) s

end Code

/-! ### On the way in and out -/

section Frame

variable {σ : Type*} {status : Cpu → UInt32} {returnAddress : UInt32} {c : Cpu}

/-- The words from `Registers` on that `isr_common` pushes itself. -/
def savedWords (c : Cpu) : List UInt32 :=
  [c.segs.ds.toUInt32, c.regs.edi, c.regs.esi, c.regs.ebp, c.esp, c.regs.ebx, c.regs.edx, c.regs.ecx,
    c.regs.eax]

lemma isrEnter_mem (status : Cpu → UInt32) (returnAddress : UInt32) (c : Cpu) :
    (isrEnter status returnAddress c).mem =
        (c.pushAll (returnAddress :: (c.esp - 36) :: savedWords c)).mem ∧
      (isrEnter status returnAddress c).esp = c.esp - 44 ∧
      (isrEnter status returnAddress c).segs.cs = c.segs.cs := by
  have hds : (0 : UInt32) &&& 0xFFFF0000 ||| c.segs.ds.toUInt32 = c.segs.ds.toUInt32 := by simp
  have hptr : c.esp - 4 - 4 - 4 - 4 - 4 - 4 - 4 - 4 - 4 = c.esp - 36 := by grind
  have hesp : c.esp - 36 - 4 - 4 = c.esp - 44 := by grind
  refine ⟨?_, ?_, rfl⟩
  · simp only [isrEnter, movAx, Cpu.pusha, Cpu.pushAll, List.foldr_cons, List.foldr_nil, Cpu.push, hds,
      hptr, savedWords]
  · simp only [isrEnter, movAx, Cpu.pusha, Cpu.pushAll, List.foldr_cons, List.foldr_nil, Cpu.push, hptr,
      hesp]

variable (status returnAddress) in
/-- The handler finds its return address, its argument, and behind them what was saved in front of
what lay on the stack. -/
lemma isrEnter_holds {ws : List UInt32} (h : Holds c.mem c.esp ws) (hlen : 4 * (11 + ws.length) ≤ 2 ^ 32) :
    Holds (isrEnter status returnAddress c).mem (isrEnter status returnAddress c).esp
      (returnAddress :: (c.esp - 36) :: (savedWords c ++ ws)) := by
  obtain ⟨hmem, hesp, -⟩ := isrEnter_mem status returnAddress c
  have hpushed : Holds (c.pushAll (returnAddress :: (c.esp - 36) :: savedWords c)).mem
      (c.pushAll (returnAddress :: (c.esp - 36) :: savedWords c)).esp
      (returnAddress :: (c.esp - 36) :: (savedWords c ++ ws)) := Cpu.holds_pushAll h hlen
  rw [(Cpu.pushAll_regs _ _).2.2] at hpushed
  rw [hmem, hesp]
  exact hpushed

variable (status) in
lemma isrLeave_of_holds {ds edi esi ebp x ebx edx ecx eax n error eip cs eflags : UInt32}
    {ws : List UInt32} (h : Holds c.mem (c.esp + 4) (ds :: edi :: esi :: ebp :: x :: ebx :: edx :: ecx ::
      eax :: n :: error :: eip :: cs :: eflags :: ws)) :
    isrLeave status c = { c with
      regs := ⟨eax, ecx, edx, ebx, ebp, esi, edi⟩
      segs := { c.segs.data ds.toUInt16 with cs := cs.toUInt16 }
      eip := eip
      eflags := eflags
      esp := c.esp + 60 } := by
  set saved : List UInt32 := edi :: esi :: ebp :: x :: ebx :: edx :: ecx :: eax :: n :: error :: eip :: cs ::
    eflags :: ws with hsaved
  obtain ⟨hds, hrest⟩ := h
  let taken : Cpu := { c with
    regs := { c.regs with eax := ds }, segs := c.segs.data ds.toUInt16, esp := c.esp + 4 + 4,
    eflags := status c }
  have hpopa : taken.popa =
      { taken with regs := ⟨eax, ecx, edx, ebx, ebp, esi, edi⟩, esp := taken.esp + 32 } :=
    Cpu.popa_of_holds (c := taken) (hsaved ▸ hrest)
  have hiret : Holds c.mem (c.esp + 4 + 4 + 32 + 8) (eip :: cs :: eflags :: ws) := by
    have hdrop := Holds.drop 10 hrest
    rwa [show UInt32.ofNat (4 * 10) = 32 + 8 from rfl, ← UInt32.add_assoc, hsaved] at hdrop
  have hload : (load c.mem (c.esp + 4)) = ds := hds
  let left : Cpu := { taken.popa with esp := taken.popa.esp + 8, eflags := status taken.popa }
  have hleft : isrLeave status c = left.iret := by
    simp only [isrLeave, Cpu.pop, hload, left, taken]
  have hiret' : left.iret = { left with
      eip := eip, segs := { left.segs with cs := cs.toUInt16 }, eflags := eflags, esp := left.esp + 12 } := by
    have hfound : Holds left.mem left.esp (eip :: cs :: eflags :: ws) := by
      simp only [left]
      rw [hpopa]
      exact hiret
    exact Cpu.iret_of_holds hfound
  have hesp : c.esp + 4 + 4 + 32 + 8 + 12 = c.esp + 60 := by grind
  rw [hleft, hiret']
  simp only [left]
  rw [hpopa]
  simp only [taken, Segs.data, hesp]

end Frame

/-! ### One interrupt -/

section Service

variable {σ : Type*} {status : Cpu → UInt32} {returnAddress : UInt32} {handler : Cpu → σ → Cpu × σ}
  {room : ℕ} {own : UInt32 → Prop} {c : Cpu} {s : σ}

/-- What the handler finds, and what comes back, when five words lie on the stack behind a stub: the
number, the error code, and three that are taken for the ones of the processor. -/
lemma isrCommon_eq (hf : Cdecl room own handler) {n error eip cs eflags : UInt32} {ws : List UInt32}
    (h : Holds c.mem c.esp (n :: error :: eip :: cs :: eflags :: ws)) (hroom : room + 64 < 2 ^ 32)
    (hlen : 4 * (16 + ws.length) ≤ 2 ^ 32) (hown : ∀ a, Cpu.Below (c.esp + 20) 56 a → ¬ own a) :
    (isrCommon status returnAddress handler c s).1 = {
      regs := c.regs
      esp := c.esp + 20
      segs := { c.segs.data c.segs.ds with cs := cs.toUInt16 }
      eip := eip
      eflags := eflags
      mem := (handler (isrEnter status returnAddress c) s).1.mem } := by
  set entry := isrEnter status returnAddress c with hentry
  set after := (handler entry s).1 with hafter
  obtain ⟨-, hesp, -⟩ := isrEnter_mem status returnAddress c
  have hfound := isrEnter_holds status returnAddress h
    (by simp only [List.length_cons]; omega)
  rw [← hentry] at hesp hfound
  have hframe : after.esp + 4 = entry.esp + 8 := by
    rw [hafter, hf.esp]
    grind
  have hkept : Holds after.mem (after.esp + 4) (savedWords c ++ [n, error, eip, cs, eflags]) := by
    have hbehind : Holds entry.mem (entry.esp + 8) (savedWords c ++ [n, error, eip, cs, eflags] ++ ws) :=
      Holds.drop 2 hfound
    have hreach : Holds entry.mem (entry.esp + 8) (savedWords c ++ [n, error, eip, cs, eflags]) := hbehind.left
    rw [hframe]
    refine hreach.congr fun k hk => ?_
    have hk56 : k < 56 := hk
    apply hf.mem
    · apply hown
      have htop : c.esp + 20 - UInt32.ofNat 56 = entry.esp + 8 := by
        rw [hesp, show UInt32.ofNat 56 = 56 from rfl]
        grind
      rw [Cpu.Below, htop, Memory.offset_add _ (by omega)]
      exact hk56
    · exact Cpu.not_below_add _ (by omega)
  have hesp' : after.esp + 60 = c.esp + 20 := by
    have hsum : after.esp + 60 = after.esp + 4 + 56 := by grind
    rw [hsum, hframe, hesp]
    grind
  have hsegs : after.segs.data c.segs.ds = c.segs.data c.segs.ds := by
    rw [hafter, hf.segs]
    rfl
  have hleave := isrLeave_of_holds status hkept
  change isrLeave status after = _
  rw [hleave, hesp']
  simp only [UInt16.toUInt16_toUInt32, hsegs]

lemma isrCommon_mem (hf : Cdecl room own handler) (hroom : room + 64 < 2 ^ 32) {a : UInt32}
    (ha : ¬ own a) (hbelow : ¬ Cpu.Below c.esp (room + 44) a) :
    (handler (isrEnter status returnAddress c) s).1.mem a = c.mem a := by
  obtain ⟨hmem, hesp, -⟩ := isrEnter_mem status returnAddress c
  have hlow : ¬ Cpu.Below (c.esp - 44 + 8) (room + 8) a := by
    intro h
    have hsp : c.esp - 44 + 8 = c.esp - UInt32.ofNat 36 := by
      rw [show UInt32.ofNat 36 = 36 from rfl]
      grind
    have hsub : Cpu.Below c.esp (room + 8 + 36) a := Cpu.below_sub hsp h
    exact hbelow hsub
  have hpushed : ¬ Cpu.Below c.esp 44 a := fun h => hbelow (Cpu.below_mono h (by omega) (by omega))
  have hlen : (returnAddress :: (c.esp - 36) :: savedWords c).length = 11 := rfl
  rw [hf.mem _ _ _ ha (by rw [hesp]; exact hlow), hmem]
  exact Cpu.pushAll_mem c (by rw [hlen]; omega) a (by rw [hlen]; exact hpushed)

/-- The words that a stub pushes. -/
def stubWords (n : ℕ) : List UInt32 :=
  if n ∈ errorCodeStubs then [UInt32.ofNat n] else [UInt32.ofNat n, 0]

/-- The stack behind the stub. -/
def arrived (n : ℕ) (error : Option UInt32) (c : Cpu) : List UInt32 :=
  stubWords n ++ (error.toList ++ [c.eip, c.segs.cs.toUInt32, c.eflags])

lemma stub_deliver (n : ℕ) (g : Gate) (error : Option UInt32) (c : Cpu) :
    (stub n (c.deliver g error)).mem = (c.pushAll (arrived n error c)).mem ∧
      (stub n (c.deliver g error)).esp = (c.pushAll (arrived n error c)).esp ∧
      (stub n (c.deliver g error)).regs = c.regs ∧
      (stub n (c.deliver g error)).segs = { c.segs with cs := g.selector } := by
  unfold stub arrived stubWords
  split <;> cases error <;> exact ⟨rfl, rfl, rfl, rfl⟩

/-- The two words on top of the stack of the interrupted code. -/
def topWords (c : Cpu) : List UInt32 := [load c.mem c.esp, load c.mem (c.esp + 4)]

lemma stub_holds (n : ℕ) (g : Gate) (error : Option UInt32) (c : Cpu) :
    Holds (stub n (c.deliver g error)).mem (stub n (c.deliver g error)).esp
      (arrived n error c ++ topWords c) := by
  obtain ⟨hmem, hesp, -⟩ := stub_deliver n g error c
  have htop : Holds c.mem c.esp (topWords c) := ⟨rfl, rfl, trivial⟩
  rw [hmem, hesp]
  refine Cpu.holds_pushAll htop ?_
  unfold arrived stubWords topWords
  split <;> cases error <;> simp

/-- The interrupted code goes on as if nothing had happened, but that the other data segment registers
are what DS is. -/
structure Resumes (own : UInt32 → Prop) (n : ℕ) (c c' : Cpu) : Prop where
  regs : c'.regs = c.regs
  esp : c'.esp = c.esp
  segs : c'.segs = c.segs.data c.segs.ds
  eip : c'.eip = c.eip
  eflags : c'.eflags = c.eflags
  mem : ∀ a, ¬ own a → ¬ Cpu.Below c.esp n a → c'.mem a = c.mem a

variable {n : ℕ} {g : Gate} {error : Option UInt32}

/-- The interrupts that their stub is right for: it leaves out the 0 for those that come with an error
code. -/
def RightStub (n : ℕ) (error : Option UInt32) : Prop := n ∈ errorCodeStubs ↔ error.isSome

instance (n : ℕ) (error : Option UInt32) : Decidable (RightStub n error) :=
  inferInstanceAs (Decidable (_ ↔ _))

lemma arrived_eq (h : RightStub n error) (c : Cpu) : arrived n error c =
    [UInt32.ofNat n, error.getD 0, c.eip, c.segs.cs.toUInt32, c.eflags] := by
  unfold RightStub at h
  unfold arrived stubWords
  cases error with
  | none =>
    rw [if_neg (by simpa using h)]
    rfl
  | some e =>
    rw [if_pos (by simpa using h)]
    rfl

/-- The stub pushes a word too many for an interrupt with an error code that it does not know of, and one
too few for one that comes without. -/
lemma arrived_length (n : ℕ) (error : Option UInt32) (c : Cpu) :
    (arrived n error c).length = 4 + (if n ∈ errorCodeStubs then 0 else 1) + (if error.isSome then 1 else 0) := by
  unfold arrived stubWords
  split <;> cases error <;> rfl

lemma frame_below {sp a : UInt32} {d : ℕ} (hd : d ≤ 8) (h : Cpu.Below (sp - UInt32.ofNat d) 56 a) :
    Cpu.Below sp 64 a :=
  Cpu.below_mono (Cpu.below_sub rfl h) (by omega) (by omega)

variable (status returnAddress s g) in
/-- Where the stack pointer comes back to. -/
lemma service_eq (hf : Cdecl room own handler) (hroom : room + 64 < 2 ^ 32)
    (hown : ∀ a, Cpu.Below (c.esp + 4) 64 a → ¬ own a) {num err eip cs eflags : UInt32} {ws : List UInt32}
    (h : arrived n error c ++ topWords c = num :: err :: eip :: cs :: eflags :: ws) :
    (service status returnAddress handler n g error c s).1 = {
      regs := c.regs
      esp := c.esp + 20 - UInt32.ofNat (4 * (arrived n error c).length)
      segs := { c.segs.data c.segs.ds with cs := cs.toUInt16 }
      eip := eip
      eflags := eflags
      mem := (handler (isrEnter status returnAddress (stub n (c.deliver g error))) s).1.mem } := by
  have hfound := stub_holds n g error c
  obtain ⟨-, hesp, hregs, hsegs⟩ := stub_deliver n g error c
  have hlen := arrived_length n error c
  have htotal := congrArg List.length h
  simp only [List.length_append, List.length_cons, topWords, List.length_nil] at htotal
  rw [(Cpu.pushAll_regs _ _).2.2] at hesp
  rw [h] at hfound
  have hback : (stub n (c.deliver g error)).esp + 20 =
      c.esp + 20 - UInt32.ofNat (4 * (arrived n error c).length) := by
    rw [hesp]
    grind
  have hframe : c.esp + 20 - UInt32.ofNat (4 * (arrived n error c).length) =
      c.esp + 4 - UInt32.ofNat (4 * (arrived n error c).length - 16) := by
    have hsum : UInt32.ofNat (4 * (arrived n error c).length) =
        UInt32.ofNat (4 * (arrived n error c).length - 16) + 16 := by
      have hge : 16 ≤ 4 * (arrived n error c).length := by split at hlen <;> omega
      rw [show (16 : UInt32) = UInt32.ofNat 16 from rfl, ← UInt32.ofNat_add, Nat.sub_add_cancel hge]
    rw [hsum]
    grind
  have hle : (arrived n error c).length ≤ 6 := by split at hlen <;> split at hlen <;> omega
  rw [service, isrCommon_eq hf hfound hroom (by omega), hregs, hsegs, hback]
  · rfl
  · rw [hback, hframe]
    exact fun a ha => hown a (frame_below (by omega) ha)

variable (status returnAddress s g) in
lemma service_resumes (hf : Cdecl room own handler) (hroom : room + 80 < 2 ^ 32)
    (hown : ∀ a, Cpu.Below (c.esp + 4) 64 a → ¬ own a) (h : RightStub n error) :
    Resumes own (room + 64) c (service status returnAddress handler n g error c s).1 := by
  have hlist := arrived_eq h c
  have hlen : (arrived n error c).length = 5 := by rw [hlist]; rfl
  have heq := service_eq status returnAddress s g hf (by omega) hown
    (congrArg (· ++ topWords c) hlist)
  have hesp : c.esp + 20 - UInt32.ofNat (4 * 5) = c.esp := by
    rw [show UInt32.ofNat (4 * 5) = 20 from rfl]
    grind
  rw [hlen, hesp] at heq
  rw [heq]
  refine ⟨rfl, rfl, by simp [Segs.data], rfl, rfl, ?_⟩
  intro a ha hbelow
  obtain ⟨hmem, hesp₁, -, -⟩ := stub_deliver n g error c
  rw [(Cpu.pushAll_regs _ _).2.2, hlen] at hesp₁
  have hpushed : ¬ Cpu.Below c.esp 20 a := fun h => hbelow (Cpu.below_mono h (by omega) (by omega))
  have hcommon : ¬ Cpu.Below (stub n (c.deliver g error)).esp (room + 44) a := by
    intro h
    have hsub : Cpu.Below c.esp (room + 44 + 20) a := Cpu.below_sub hesp₁ h
    exact hbelow hsub
  rw [isrCommon_mem hf (by omega) ha hcommon, hmem]
  exact Cpu.pushAll_mem c (by rw [hlen]; omega) a (by rw [hlen]; exact hpushed)

/-- **An interrupt goes unnoticed** exactly when the stub is of the kind that the interrupt is: with an
error code for the ones that the processor has one for, without for the others. -/
theorem service_resumes_iff (hf : Cdecl room own handler) (hroom : room + 80 < 2 ^ 32)
    (hown : ∀ a, Cpu.Below (c.esp + 4) 64 a → ¬ own a) :
    Resumes own (room + 64) c (service status returnAddress handler n g error c s).1 ↔
      RightStub n error := by
  refine ⟨fun h => ?_, service_resumes _ _ _ _ hf hroom hown⟩
  by_contra hwrong
  have hback := h.esp
  have hfour : ∀ d : UInt32, d ≠ 0 → c.esp + d ≠ c.esp := by
    intro d hd heq
    apply hd
    grind
  cases error with
  | none =>
    -- the words of the processor are read one place too low
    have hn : n ∈ errorCodeStubs := by simpa [RightStub] using hwrong
    have hlist : arrived n none c = [UInt32.ofNat n, c.eip, c.segs.cs.toUInt32, c.eflags] := by
      rw [arrived, stubWords, if_pos hn]
      rfl
    rw [service_eq _ _ _ _ hf (by omega) hown (congrArg (· ++ topWords c) hlist), hlist] at hback
    have hsum : c.esp + 20 - UInt32.ofNat (4 * 4) = c.esp + 4 := by
      rw [show UInt32.ofNat (4 * 4) = 16 from rfl]
      grind
    exact hfour 4 (by decide) (hsum.symm.trans hback)
  | some e =>
    -- the error code is taken for the instruction pointer
    have hn : n ∉ errorCodeStubs := by simpa [RightStub] using hwrong
    have hlist : arrived n (some e) c = [UInt32.ofNat n, 0, e, c.eip, c.segs.cs.toUInt32, c.eflags] := by
      rw [arrived, stubWords, if_neg hn]
      rfl
    rw [service_eq _ _ _ _ hf (by omega) hown (congrArg (· ++ topWords c) hlist), hlist] at hback
    have hsum : c.esp + 20 - UInt32.ofNat (4 * 6) = c.esp + (0 - 4) := by
      rw [show UInt32.ofNat (4 * 6) = 24 from rfl]
      grind
    exact hfour (0 - 4) (by decide) (hsum.symm.trans hback)

/-! ### What the handler is given -/

lemma Registers.ofMemory_of_holds {m : Memory} {p : UInt32}
    {ds edi esi ebp useless ebx edx ecx eax interrupt error eip cs eflags esp ss : UInt32}
    (h : Holds m p [ds, edi, esi, ebp, useless, ebx, edx, ecx, eax, interrupt, error, eip, cs, eflags, esp, ss]) :
    Registers.ofMemory m p = ⟨ds, edi, esi, ebp, useless, ebx, edx, ecx, eax, interrupt, error, eip, cs, eflags,
      esp, ss⟩ := by
  have hget : ∀ i < 16, load m (p + UInt32.ofNat (4 * i)) =
      [ds, edi, esi, ebp, useless, ebx, edx, ecx, eax, interrupt, error, eip, cs, eflags, esp, ss].getD i 0 :=
    fun i hi => h.get i hi
  simp only [Registers.ofMemory]
  rw [hget 0 (by omega), hget 1 (by omega), hget 2 (by omega), hget 3 (by omega), hget 4 (by omega),
    hget 5 (by omega), hget 6 (by omega), hget 7 (by omega), hget 8 (by omega), hget 9 (by omega),
    hget 10 (by omega), hget 11 (by omega), hget 12 (by omega), hget 13 (by omega), hget 14 (by omega),
    hget 15 (by omega)]
  rfl

/-- The registers of the interrupted code as `Registers` has them. The stack pointer among them is the one
that `pusha` finds, and `esp` and `ss` are what lies on the interrupted stack: without a change of privilege
the processor pushes neither. -/
def interruptedRegisters (n : ℕ) (error : Option UInt32) (c : Cpu) : Registers :=
  ⟨c.segs.ds.toUInt32, c.regs.edi, c.regs.esi, c.regs.ebp, c.esp - 20, c.regs.ebx, c.regs.edx, c.regs.ecx,
    c.regs.eax, UInt32.ofNat n, error.getD 0, c.eip, c.segs.cs.toUInt32, c.eflags, load c.mem c.esp,
    load c.mem (c.esp + 4)⟩

/-- The handler does to the state what a function of `*regs` does. -/
def Computes (handler : Cpu → σ → Cpu × σ) (body : Registers → σ → σ) : Prop :=
  ∀ c s, (handler c s).2 = body (Registers.ofMemory c.mem (load c.mem (c.esp + 4))) s

/-- A handler that has an effect on the state and none on the processor. -/
def pureHandler (body : Registers → σ → σ) (c : Cpu) (s : σ) : Cpu × σ :=
  ({ c with eip := load c.mem c.esp, esp := c.esp + 4 },
    body (Registers.ofMemory c.mem (load c.mem (c.esp + 4))) s)

lemma pureHandler_cdecl (body : Registers → σ → σ) (room : ℕ) (own : UInt32 → Prop) :
    Cdecl room own (pureHandler body) :=
  ⟨fun _ _ => rfl, fun _ _ => rfl, fun _ _ => ⟨rfl, rfl, rfl, rfl⟩, fun _ _ => rfl, fun _ _ _ _ _ => rfl⟩

lemma pureHandler_computes (body : Registers → σ → σ) : Computes (pureHandler body) body := fun _ _ => rfl

/-- **The handler is called once**, with the registers of the interrupted code. -/
lemma service_handler {body : Registers → σ → σ} (hb : Computes handler body) (h : RightStub n error) :
    (service status returnAddress handler n g error c s).2 = body (interruptedRegisters n error c) s := by
  have hfound := stub_holds n g error c
  obtain ⟨-, hesp, hregs, hsegs⟩ := stub_deliver n g error c
  rw [arrived_eq h] at hfound hesp
  set c₁ := stub n (c.deliver g error) with hc₁
  have hesp₁ : c₁.esp = c.esp - 20 := by
    rw [hesp, (Cpu.pushAll_regs _ _).2.2]
    rfl
  have henter := isrEnter_holds status returnAddress hfound (by simp [topWords])
  obtain ⟨-, hentry, -⟩ := isrEnter_mem status returnAddress c₁
  have hptr : load (isrEnter status returnAddress c₁).mem ((isrEnter status returnAddress c₁).esp + 4) =
      c₁.esp - 36 := henter.2.1
  have hbehind : (isrEnter status returnAddress c₁).esp + 4 + 4 = c₁.esp - 36 := by
    rw [hentry]
    grind
  have hframe := henter.2.2
  rw [hbehind] at hframe
  have hsaved : savedWords c₁ = [c.segs.ds.toUInt32, c.regs.edi, c.regs.esi, c.regs.ebp, c.esp - 20, c.regs.ebx,
      c.regs.edx, c.regs.ecx, c.regs.eax] := by
    rw [savedWords, hregs, hsegs, hesp₁]
  rw [hsaved] at hframe
  change (handler (isrEnter status returnAddress c₁) s).2 = _
  rw [hb, hptr, Registers.ofMemory_of_holds hframe]
  rfl

end Service

/-- Code of the kernel with flat segments and a stack below 0x9000. -/
def kernelCode : Cpu where
  regs := ⟨1, 2, 3, 4, 5, 6, 7⟩
  esp := 0x9000
  segs := ⟨0x08, 0x10, 0x10, 0x10, 0x10, 0x10⟩
  eip := 0x100000
  eflags := 0x202
  mem := fun _ => 0

/-- A page fault goes unnoticed. -/
theorem service_resumes_iff_pageFault :
    Resumes (fun _ => False) 64 kernelCode (service (fun _ => 0) 0 (pureHandler fun _ (n : ℕ) => n + 1) 14
      ⟨0x1000, 0x08, 0xE, 0, true⟩ (some 2) kernelCode 0).1 ↔ RightStub 14 (some 2) :=
  service_resumes_iff (pureHandler_cdecl _ 0 _) (by omega) fun _ _ h => h

/-! ### Runs -/

section Runs

variable {σ : Type*} {status : Cpu → UInt32} {returnAddress : UInt32} {handler : Cpu → σ → Cpu × σ}
  {room : ℕ} {own : UInt32 → Prop} {low : UInt32}

/-- Between the end of the stack and the stack pointer. -/
def Unused (low sp a : UInt32) : Prop := Memory.offset low a < Memory.offset low sp

/-- The same state, but for the memory that the handlers own and the unused part of the stack. -/
structure Agree (own : UInt32 → Prop) (low : UInt32) (c d : Cpu) : Prop where
  regs : d.regs = c.regs
  esp : d.esp = c.esp
  segs : d.segs = c.segs
  eip : d.eip = c.eip
  eflags : d.eflags = c.eflags
  mem : ∀ a, ¬ own a → ¬ Unused low c.esp a → d.mem a = c.mem a

/-- Code that an interrupt finds ready: the data segment registers are the same, there is room on the stack,
and the handlers own nothing of it. -/
structure Ready (room : ℕ) (own : UInt32 → Prop) (low : UInt32) (c : Cpu) : Prop where
  flat : c.segs.Flat
  room : room + 64 ≤ Memory.offset low c.esp
  stack : ∀ a, Cpu.Below (c.esp + 4) 64 a → ¬ own a

/-- An interrupt: its number, the gate it comes through, and its error code. -/
abbrev Delivery := ℕ × Gate × Option UInt32

lemma Agree.trans {c d e : Cpu} (h : Agree own low c d) (h' : Agree own low d e) : Agree own low c e where
  regs := h'.regs.trans h.regs
  esp := h'.esp.trans h.esp
  segs := h'.segs.trans h.segs
  eip := h'.eip.trans h.eip
  eflags := h'.eflags.trans h.eflags
  mem := by
    intro a ha hfree
    rw [h'.mem a ha (by rw [h.esp]; exact hfree), h.mem a ha hfree]

lemma Agree.refl (c : Cpu) : Agree own low c c := ⟨rfl, rfl, rfl, rfl, rfl, fun _ _ _ => rfl⟩

lemma Ready.of_agree {c d : Cpu} (h : Ready room own low c) (ha : Agree own low c d) : Ready room own low d where
  flat := by rw [ha.segs]; exact h.flat
  room := by rw [ha.esp]; exact h.room
  stack := by rw [ha.esp]; exact h.stack

lemma unused_of_below {sp a : UInt32} {n : ℕ} (h : Cpu.Below sp n a) (hn : n ≤ Memory.offset low sp) :
    Unused low sp a := by
  have hlt := Memory.offset_lt low sp
  have hsp : sp - UInt32.ofNat n = low + UInt32.ofNat (Memory.offset low sp - n) := by
    have hsum := Memory.add_offset low sp
    have hsplit : UInt32.ofNat (Memory.offset low sp) =
        UInt32.ofNat (Memory.offset low sp - n) + UInt32.ofNat n := by
      rw [← UInt32.ofNat_add, Nat.sub_add_cancel hn]
    rw [hsplit] at hsum
    grind
  have ha := Memory.offset_lt low a
  unfold Cpu.Below at h
  rw [hsp, Memory.offset_shift _ _ (by omega)] at h
  unfold Unused
  split at h <;> omega

/-- An interrupt at code that is ready leaves a state that agrees. -/
lemma Resumes.agree {c d : Cpu} {n : ℕ} (h : Resumes own n c d) (hflat : c.segs.Flat)
    (hn : n ≤ Memory.offset low c.esp) : Agree own low c d where
  regs := h.regs
  esp := h.esp
  segs := h.segs.trans hflat
  eip := h.eip
  eflags := h.eflags
  mem a ha hfree := h.mem a ha fun hb => hfree (unused_of_below hb hn)

variable (status returnAddress) in
lemma service_agree (hf : Cdecl room own handler) {body : Registers → σ → σ} (hb : Computes handler body)
    (hroom : room + 80 < 2 ^ 32) {n : ℕ} (g : Gate) {error : Option UInt32} (hright : RightStub n error)
    {c d : Cpu}
    (s : σ) (hready : Ready room own low c) (hd : Agree own low c d) :
    Agree own low c (service status returnAddress handler n g error d s).1 ∧
      (service status returnAddress handler n g error d s).2 = body (interruptedRegisters n error d) s := by
  have hd' : Ready room own low d := hready.of_agree hd
  have hback := (service_resumes status returnAddress s g hf hroom hd'.stack hright).agree hd'.flat hd'.room
  exact ⟨hd.trans hback, service_handler hb hright⟩

/-- **Interrupts between any two instructions go unnoticed**, each is handled once, and they are handled in
their order: the code gets to where it gets without them, and the state of the handlers to where the numbers
and error codes take it. -/
theorem run_transparent {instruction : Cpu → Cpu} (hf : Cdecl room own handler) {body : UInt32 → UInt32 → σ → σ}
    (hb : Computes handler fun r => body r.interrupt r.error) (hroom : room + 80 < 2 ^ 32)
    (hcode : ∀ c d, Agree own low c d → Agree own low (instruction c) (instruction d)) {c : Cpu}
    (hready : ∀ k, Ready room own low (instruction^[k] c)) {es : List (Option Delivery)}
    (hright : ∀ i ∈ es.reduceOption, RightStub i.1 i.2.2) (s : σ) :
    let serve := fun (i : Delivery) => service status returnAddress handler i.1 i.2.1 i.2.2
    Agree own low (instruction^[ownSteps es] c) (interleaved instruction serve es c s).1 ∧
      (interleaved instruction serve es c s).2 =
        es.reduceOption.foldl (fun s i => body (UInt32.ofNat i.1) (i.2.2.getD 0) s) s := by
  intro serve
  have hserve : ∀ (i : Delivery) (c d : Cpu) (s : σ), RightStub i.1 i.2.2 → Ready room own low c →
      Agree own low c d → True → Agree own low c (serve i d s).1 ∧
        (serve i d s).2 = body (UInt32.ofNat i.1) (i.2.2.getD 0) s ∧ True := by
    intro i c d s hi hc hd _
    obtain ⟨hagree, hstate⟩ := service_agree status returnAddress hf hb hroom i.2.1 hi s hc hd
    exact ⟨hagree, hstate, trivial⟩
  have hsim := interleaved_sim (I := fun _ => True) hcode hserve (s := s) (Agree.refl c) trivial hready hright
  exact ⟨hsim.1, hsim.2.1⟩

/-- Code that counts in ECX. -/
def count (c : Cpu) : Cpu := { c with regs := { c.regs with ecx := c.regs.ecx + 1 } }

lemma count_agree {c d : Cpu} (h : Agree own low c d) : Agree own low (count c) (count d) :=
  ⟨by simp only [count, h.regs], h.esp, h.segs, h.eip, h.eflags, h.mem⟩

lemma count_ready (k : ℕ) : Ready 0 (fun _ => False) 0x8000 (count^[k] kernelCode) := by
  have hkept : (count^[k] kernelCode).segs = kernelCode.segs ∧ (count^[k] kernelCode).esp = kernelCode.esp := by
    induction k with
    | zero => exact ⟨rfl, rfl⟩
    | succ k ih =>
      rw [Function.iterate_succ_apply']
      exact ih
  refine ⟨?_, ?_, fun _ _ h => h⟩
  · rw [hkept.1]
    rfl
  · rw [hkept.2]
    decide

/-- A handler that notes what it is called for. -/
def note (n error : UInt32) (log : List (UInt32 × UInt32)) : List (UInt32 × UInt32) := (n, error) :: log

/-- A counter, with a page fault and the clock between its steps. -/
theorem run_transparent_counter :
    let serve := fun (i : Delivery) =>
      service (fun _ => 0) 0 (pureHandler fun r => note r.interrupt r.error) i.1 i.2.1 i.2.2
    let es : List (Option Delivery) := [none, some (14, ⟨0x1000, 0x08, 0xE, 0, true⟩, some 2), none,
      some (0x20, ⟨0x2000, 0x08, 0xE, 0, true⟩, none)]
    Agree (fun _ => False) 0x8000 (count^[ownSteps es] kernelCode) (interleaved count serve es kernelCode []).1 ∧
      (interleaved count serve es kernelCode []).2 =
        es.reduceOption.foldl (fun s i => note (UInt32.ofNat i.1) (i.2.2.getD 0) s) [] := by
  intro serve es
  have hright : ∀ i ∈ es.reduceOption, RightStub i.1 i.2.2 := by decide
  have hnote : Computes (pureHandler fun r => note r.interrupt r.error) fun r => note r.interrupt r.error :=
    pureHandler_computes _
  exact run_transparent (pureHandler_cdecl _ 0 _) hnote (by omega) (fun _ _ => count_agree) count_ready hright []

end Runs

end ArcOS.Kernel.Isr
