import ArcOS.Lib.Ring
import ArcOS.Lib.Transducer
import Mathlib.Data.List.Infix
import Mathlib.Data.Nat.Bitwise

/-!
The keyboard: the ring buffer between the interrupt handler and `i686_IRQ_ReadChar`.

The handler runs as one step that may come at any point; `i686_IRQ_ReadChar` takes three (`wait`,
`fetch`, `advance`), so that an interrupt may stand between any two of them. `Kept` relates the
buffer to all that was enqueued and returned; every step keeps it (`step_kept`).
-/

namespace ArcOS.Kernel

open Lib Lib.Transducer

/-! ### The key map -/

/-- `keymap`; the entries after the last one written are zero. -/
def keymapTable : List UInt8 :=
  [0, 27, 49, 50, 51, 52, 53, 54, 55, 56, -- Esc, 1 to 8
    57, 48, 45, 61, 8, -- 9, 0, -, =, Backspace
    9, -- Tab
    113, 119, 101, 114, -- q w e r
    116, 121, 117, 105, 111, 112, 91, 93, 10, -- t y u i o p [ ], Enter
    0, -- Control
    97, 115, 100, 102, 103, 104, 106, 107, 108, 59, -- a s d f g h j k l ;
    39, 96, 0, -- ' and `, Left shift
    92, 122, 120, 99, 118, 98, 110, -- \ z x c v b n
    109, 44, 46, 47, 0, -- m , . /, Right shift
    42, 0, 32, 0, -- *, Alt, Space bar, Caps lock
    0, 0, 0, 0, 0, 0, 0, 0, 0, 0, -- F1 to F10
    0, 0, 0, 0, 0, -- Num lock, Scroll lock, Home, Up, Page up
    45, 0, 0, 0, 43] -- -, Left, 76, Right, +

/-- `keymap[ioCode]` -/
def keymap (ioCode : UInt8) : UInt8 := keymapTable.getD ioCode.toNat 0

/-! ### The ring buffer -/

/-- `BUFFER_SIZE` -/
def bufferSize : ℤ := 1024

/-- The static variables of `irq.c` that hold typed characters. -/
structure KeyRing where
  keyBuffer : ℤ → UInt8
  bufferHead : ℤ
  bufferTail : ℤ

/-- The static variables as the kernel starts. -/
def KeyRing.start : KeyRing := ⟨fun _ => 0, 0, 0⟩

/-- What the handler did: the character it echoed, and the slot it wrote with the character stored
there. -/
structure Handled where
  echoed : Option UInt8
  stored : Option (ℤ × UInt8)

/-- `i686_IRQ_keyboardHandler` on the scan code read from the data port -/
def keyboardHandler (ioCode : UInt8) (s : KeyRing) : Handled × KeyRing :=
  if ioCode < 128 ∧ ioCode &&& 0x80 = 0 then
    let c := keymap ioCode
    let nextHead := (s.bufferHead + 1).tmod bufferSize
    if nextHead ≠ s.bufferTail then
      (⟨some c, some (s.bufferHead, c)⟩,
        { s with keyBuffer := Function.update s.keyBuffer s.bufferHead c, bufferHead := nextHead })
    else (⟨some c, none⟩, s)
  else (⟨none, none⟩, s)

/-- The statement of `i686_IRQ_ReadChar` to run next; `advance` holds the fetched character. A new
call begins at `wait`. -/
inductive Reader where
  | wait
  | fetch
  | advance (c : UInt8)
  deriving DecidableEq

/-- One statement of `i686_IRQ_ReadChar`; the last one returns the character. -/
def readCharStep : Reader → KeyRing → Option UInt8 × Reader × KeyRing
  | .wait, s => (none, if s.bufferHead = s.bufferTail then .wait else .fetch, s)
  | .fetch, s => (none, .advance (s.keyBuffer s.bufferTail), s)
  | .advance c, s =>
    (some c, .wait, { s with bufferTail := (s.bufferTail + 1).tmod bufferSize })

/-! ### Interleaved runs -/

/-- The next step is a keyboard interrupt, or a statement of `i686_IRQ_ReadChar`. -/
inductive Event where
  | key (ioCode : UInt8)
  | read
  deriving DecidableEq

/-- The keyboard with what was enqueued and what was returned so far. -/
structure Keyboard where
  ring : KeyRing
  reader : Reader
  enqueued : List UInt8
  returned : List UInt8

/-- The keyboard as the kernel starts. -/
def Keyboard.start : Keyboard := ⟨.start, .wait, [], []⟩

/-- One step. The answer tells whether it dropped a character. -/
def step : Event → Keyboard → Bool × Keyboard
  | .key ioCode, k =>
    let (h, ring) := keyboardHandler ioCode k.ring
    (h.echoed.isSome && h.stored.isNone,
      { k with ring := ring, enqueued := k.enqueued ++ (h.stored.map (·.2)).toList })
  | .read, k =>
    let (c, reader, ring) := readCharStep k.reader k.ring
    (false, { k with ring := ring, reader := reader, returned := k.returned ++ c.toList })

/-- The keyboard after the steps. -/
def keyboardAfter (es : List Event) : Keyboard := final step es Keyboard.start

/-! ### What a step keeps -/

/-- The ring holds what was enqueued and not yet returned, and a fetched character is the one at the
tail. -/
structure Kept (k : Keyboard) : Prop where
  rep : ∃ head tail : ℕ, k.ring.bufferHead = head ∧ k.ring.bufferTail = tail ∧
    Ring.Rep 1024 (fun i : ℕ => k.ring.keyBuffer i) head tail k.enqueued k.returned.length
  fifo : k.returned <+: k.enqueued
  stored : k.reader ≠ .wait → k.returned.length < k.enqueued.length
  fetched : ∀ c, k.reader = .advance c → k.ring.keyBuffer k.ring.bufferTail = c

lemma tmod_next (n : ℕ) : ((n : ℤ) + 1).tmod bufferSize = ((n + 1) % 1024 : ℕ) := by
  rw [bufferSize, Int.tmod_eq_emod_of_nonneg (by omega)]
  push_cast
  rfl

theorem start_kept : Kept Keyboard.start where
  rep := ⟨0, 0, rfl, rfl, Ring.Rep.start (by decide)⟩
  fifo := List.prefix_rfl
  stored h := absurd rfl h
  fetched c h := by cases h

section Handler

variable {ioCode : UInt8} {s : KeyRing}

lemma pressed_iff : (ioCode < 128 ∧ ioCode &&& 0x80 = 0) ↔ ioCode < 128 := by
  refine ⟨And.left, fun h => ⟨h, ?_⟩⟩
  apply UInt8.toNat_inj.mp
  rw [UInt8.toNat_and, show (0x80 : UInt8).toNat = 2 ^ 7 from rfl, Nat.and_two_pow,
    Nat.testBit_lt_two_pow (UInt8.lt_iff_toNat_lt.mp h)]
  rfl

lemma keyboardHandler_release (h : ¬ ioCode < 128) :
    keyboardHandler ioCode s = (⟨none, none⟩, s) := by
  unfold keyboardHandler
  rw [if_neg (mt pressed_iff.mp h)]

lemma keyboardHandler_store (h : ioCode < 128)
    (hroom : (s.bufferHead + 1).tmod bufferSize ≠ s.bufferTail) :
    keyboardHandler ioCode s = (⟨some (keymap ioCode), some (s.bufferHead, keymap ioCode)⟩,
      { s with keyBuffer := Function.update s.keyBuffer s.bufferHead (keymap ioCode)
               bufferHead := (s.bufferHead + 1).tmod bufferSize }) := by
  unfold keyboardHandler
  rw [if_pos (pressed_iff.mpr h)]
  exact if_pos hroom

lemma keyboardHandler_drop (h : ioCode < 128)
    (hfull : (s.bufferHead + 1).tmod bufferSize = s.bufferTail) :
    keyboardHandler ioCode s = (⟨some (keymap ioCode), none⟩, s) := by
  unfold keyboardHandler
  rw [if_pos (pressed_iff.mpr h)]
  exact if_neg (not_not_intro hfull)

end Handler

section Step

variable {k : Keyboard}

lemma Kept.bounds (h : Kept k) :
    (0 ≤ k.ring.bufferHead ∧ k.ring.bufferHead < bufferSize) ∧
    0 ≤ k.ring.bufferTail ∧ k.ring.bufferTail < bufferSize := by
  obtain ⟨head, tail, h1, h2, hrep⟩ := h.rep
  have := hrep.head_lt
  have := hrep.tail_lt
  rw [h1, h2, bufferSize]
  omega

/-- The next head is the tail exactly when all slots but one are taken. -/
lemma Kept.full_iff (h : Kept k) :
    (k.ring.bufferHead + 1).tmod bufferSize = k.ring.bufferTail ↔
      k.enqueued.length = k.returned.length + 1023 := by
  obtain ⟨head, tail, h1, h2, hrep⟩ := h.rep
  have := hrep.full_iff
  rw [h1, h2, tmod_next, Nat.cast_inj]
  omega

lemma Kept.empty_iff (h : Kept k) :
    k.ring.bufferHead = k.ring.bufferTail ↔ k.enqueued.length = k.returned.length := by
  obtain ⟨head, tail, h1, h2, hrep⟩ := h.rep
  rw [h1, h2, Nat.cast_inj]
  exact hrep.empty_iff

lemma Kept.front (h : Kept k) (hlt : k.returned.length < k.enqueued.length) :
    k.ring.keyBuffer k.ring.bufferTail = k.enqueued[k.returned.length] := by
  obtain ⟨head, tail, -, h2, hrep⟩ := h.rep
  rw [h2]
  exact hrep.front hlt

theorem Kept.store (h : Kept k) {c : UInt8}
    (hroom : (k.ring.bufferHead + 1).tmod bufferSize ≠ k.ring.bufferTail) :
    Kept { k with
      ring := { k.ring with keyBuffer := Function.update k.ring.keyBuffer k.ring.bufferHead c
                            bufferHead := (k.ring.bufferHead + 1).tmod bufferSize }
      enqueued := k.enqueued ++ [c] } := by
  obtain ⟨head, tail, h1, h2, hrep⟩ := h.rep
  refine ⟨⟨(head + 1) % 1024, tail, ?_, h2, ?_⟩, h.fifo.trans (List.prefix_append _ _),
    fun hr => ?_, fun c' hc' => ?_⟩
  · simp only [h1, tmod_next]
  · have hnext : (head + 1) % 1024 ≠ tail := by
      intro heq
      apply hroom
      rw [h1, h2, tmod_next, heq]
    have heq := Function.update_comp_eq_of_injective k.ring.keyBuffer
      (Nat.cast_injective (R := ℤ)) head c
    rw [h1]
    change Ring.Rep 1024 (Function.update k.ring.keyBuffer (head : ℤ) c ∘ Nat.cast) _ _ _ _
    rw [heq]
    exact hrep.push hnext c
  · simp only [List.length_append]
    exact Nat.lt_add_right _ (h.stored hr)
  · have hne : k.ring.bufferTail ≠ k.ring.bufferHead := by
      intro heq
      have := h.stored (by rw [hc']; simp)
      have := h.empty_iff.mp heq.symm
      omega
    simp only [Function.update_of_ne hne]
    exact h.fetched c' hc'

theorem Kept.key (h : Kept k) (ioCode : UInt8) : Kept (step (.key ioCode) k).2 := by
  by_cases hp : ioCode < 128
  · by_cases hfull : (k.ring.bufferHead + 1).tmod bufferSize = k.ring.bufferTail
    · simp only [step, keyboardHandler_drop hp hfull, Option.map_none, Option.toList_none,
        List.append_nil]
      exact h
    · simp only [step, keyboardHandler_store hp hfull, Option.map_some, Option.toList_some]
      exact h.store hfull
  · simp only [step, keyboardHandler_release hp, Option.map_none, Option.toList_none,
      List.append_nil]
    exact h

theorem Kept.advance (h : Kept k) {c : UInt8} (hk : k.reader = .advance c) :
    Kept { k with
      ring := { k.ring with bufferTail := (k.ring.bufferTail + 1).tmod bufferSize }
      reader := .wait
      returned := k.returned ++ [c] } := by
  have hlt := h.stored (by rw [hk]; simp)
  have hc := (h.fetched c hk).symm.trans (h.front hlt)
  obtain ⟨head, tail, h1, h2, hrep⟩ := h.rep
  refine ⟨⟨head, (tail + 1) % 1024, h1, ?_, ?_⟩, ?_, fun hr => absurd rfl hr, fun _ hr => ?_⟩
  · simp only [h2, tmod_next]
  · simpa using hrep.pop hlt
  · rw [hc]
    exact List.concat_get_prefix h.fifo hlt
  · cases hr

theorem Kept.read (h : Kept k) : Kept (step .read k).2 := by
  cases hk : k.reader with
  | wait =>
    simp only [step, hk, readCharStep, Option.toList_none, List.append_nil]
    refine ⟨h.rep, h.fifo, fun hr => ?_, fun c hr => ?_⟩
    · by_contra hge
      have heq : k.enqueued.length = k.returned.length := by
        have := h.fifo.length_le
        simp only at hge
        omega
      exact hr (if_pos (h.empty_iff.mpr heq))
    · split at hr <;> cases hr
  | fetch =>
    simp only [step, hk, readCharStep, Option.toList_none, List.append_nil]
    refine ⟨h.rep, h.fifo, fun _ => h.stored (by rw [hk]; simp), fun c hr => ?_⟩
    injection hr
  | advance c =>
    simp only [step, hk, readCharStep, Option.toList_some]
    exact h.advance hk

/-- **Every step keeps the ring.** -/
theorem step_kept (h : Kept k) (e : Event) : Kept (step e k).2 := by
  cases e with
  | key ioCode => exact h.key ioCode
  | read => exact h.read

end Step

theorem keyboardAfter_kept (es : List Event) : Kept (keyboardAfter es) :=
  final_inv' (P := Kept) (fun _ e h => step_kept h e) es _ start_kept

/-! ### A lossless queue -/

/-- An interrupt that comes while a fetched character waits to be returned writes another slot. -/
theorem Kept.not_overwritten {k : Keyboard} (h : Kept k) (hr : k.reader ≠ .wait) {ioCode : UInt8}
    {slot : ℤ} {c : UInt8} (hw : (keyboardHandler ioCode k.ring).1.stored = some (slot, c)) :
    slot ≠ k.ring.bufferTail := by
  have hlt := h.stored hr
  intro heq
  by_cases hp : ioCode < 128
  · by_cases hfull : (k.ring.bufferHead + 1).tmod bufferSize = k.ring.bufferTail
    · rw [keyboardHandler_drop hp hfull] at hw
      cases hw
    · rw [keyboardHandler_store hp hfull] at hw
      injection hw with hw
      injection hw with hslot
      have := h.empty_iff.mp (hslot.trans heq)
      omega
  · rw [keyboardHandler_release hp] at hw
    cases hw

/-- A character is dropped only when all slots but one are taken. -/
theorem Kept.dropped {k : Keyboard} (h : Kept k) {e : Event} (hd : (step e k).1 = true) :
    k.enqueued.length = k.returned.length + 1023 := by
  cases e with
  | read => cases hd
  | key ioCode =>
    by_contra hne
    have hroom := mt h.full_iff.mp hne
    by_cases hp : ioCode < 128
    · simp [step, keyboardHandler_store hp hroom] at hd
    · simp [step, keyboardHandler_release hp] at hd

/-- **The keyboard is a lossless queue under any interleaving.** After any steps the head and the tail
are indices of the buffer; the returned characters are the first of the enqueued ones; the slot of a
fetched character holds it until it is returned, and the next interrupt does not write it; and a step
drops a character only when all slots but one hold characters not yet returned. -/
theorem keyboard_queue (es : List Event) :
    let k := keyboardAfter es
    ((0 ≤ k.ring.bufferHead ∧ k.ring.bufferHead < bufferSize) ∧
      0 ≤ k.ring.bufferTail ∧ k.ring.bufferTail < bufferSize) ∧
    k.returned <+: k.enqueued ∧
    (∀ c, k.reader = .advance c → k.ring.keyBuffer k.ring.bufferTail = c ∧
      ∀ ioCode slot c', (keyboardHandler ioCode k.ring).1.stored = some (slot, c') →
        slot ≠ k.ring.bufferTail) ∧
    ∀ e, (step e k).1 = true →
      (k.enqueued.length : ℤ) = k.returned.length + (bufferSize - 1) := by
  have h := keyboardAfter_kept es
  refine ⟨h.bounds, h.fifo, fun c hc => ⟨h.fetched c hc, fun ioCode slot c' hw => ?_⟩,
    fun e hd => ?_⟩
  · exact h.not_overwritten (by rw [hc]; simp) hw
  · have := h.dropped hd
    rw [bufferSize]
    omega

/-! ### Nothing stays behind -/

lemma step_read_wait {k : Keyboard} (hk : k.reader = .wait)
    (hne : k.ring.bufferHead ≠ k.ring.bufferTail) :
    (step .read k).2 = { k with reader := .fetch } := by
  simp [step, hk, readCharStep, hne]

lemma step_read_fetch {k : Keyboard} (hk : k.reader = .fetch) :
    (step .read k).2 = { k with reader := .advance (k.ring.keyBuffer k.ring.bufferTail) } := by
  simp [step, hk, readCharStep]

lemma step_read_advance {k : Keyboard} {c : UInt8} (hk : k.reader = .advance c) :
    (step .read k).2.reader = .wait ∧ (step .read k).2.enqueued = k.enqueued ∧
      (step .read k).2.returned = k.returned ++ [c] := by
  simp [step, hk, readCharStep]

/-- While characters are stored, some statements of `i686_IRQ_ReadChar` return one more. -/
lemma Kept.returns {k : Keyboard} (h : Kept k) (hlt : k.returned.length < k.enqueued.length) :
    ∃ m, (final step (List.replicate m .read) k).enqueued = k.enqueued ∧
      (final step (List.replicate m .read) k).returned.length = k.returned.length + 1 := by
  have hne : k.ring.bufferHead ≠ k.ring.bufferTail := by
    intro heq
    have := h.empty_iff.mp heq
    omega
  have hadvance : ∀ (k : Keyboard) (c : UInt8), k.reader = .advance c →
      (final step [.read] k).enqueued = k.enqueued ∧
        (final step [.read] k).returned.length = k.returned.length + 1 := by
    intro k c hk
    obtain ⟨-, h1, h2⟩ := step_read_advance hk
    exact ⟨h1, by simp [final, h2]⟩
  have hfetch : ∀ k : Keyboard, k.reader = .fetch →
      (final step [.read, .read] k).enqueued = k.enqueued ∧
        (final step [.read, .read] k).returned.length = k.returned.length + 1 := by
    intro k hk
    rw [final, step_read_fetch hk]
    exact hadvance _ _ rfl
  cases hk : k.reader with
  | wait =>
    refine ⟨3, ?_⟩
    rw [List.replicate_succ, final, step_read_wait hk hne]
    exact hfetch _ rfl
  | fetch => exact ⟨2, hfetch k hk⟩
  | advance c => exact ⟨1, hadvance k c hk⟩

/-- **Nothing is lost.** From every state, enough statements of `i686_IRQ_ReadChar` return all that was
enqueued. -/
theorem Kept.drains {k : Keyboard} (h : Kept k) :
    ∃ m, (final step (List.replicate m .read) k).returned = k.enqueued := by
  induction hn : k.enqueued.length - k.returned.length generalizing k with
  | zero =>
    refine ⟨0, h.fifo.eq_of_length_le ?_⟩
    omega
  | succ n ih =>
    obtain ⟨m, h1, h2⟩ := h.returns (by omega)
    have hkept := final_inv' (P := Kept) (fun _ e hk => step_kept hk e)
      (List.replicate m .read) k h
    obtain ⟨m', h3⟩ := ih hkept (by rw [h1, h2]; omega)
    refine ⟨m + m', ?_⟩
    rw [List.replicate_add, final_append, h3, h1]

/-! ### What was enqueued -/

/-- The characters of the key presses among the steps. -/
def pressed : List Event → List UInt8
  | [] => []
  | .key ioCode :: es => if ioCode < 128 then keymap ioCode :: pressed es else pressed es
  | .read :: es => pressed es

/-- No step drops a character. -/
def NoDrop (es : List Event) : Prop :=
  Always step (fun _ _ dropped _ => dropped = false) es Keyboard.start

lemma step_enqueued (e : Event) (k : Keyboard) (h : (step e k).1 = false) :
    (step e k).2.enqueued = k.enqueued ++ pressed [e] := by
  cases e with
  | read => simp [step, pressed]
  | key ioCode =>
    by_cases hp : ioCode < 128
    · by_cases hfull : (k.ring.bufferHead + 1).tmod bufferSize = k.ring.bufferTail
      · simp [step, keyboardHandler_drop hp hfull] at h
      · simp [step, keyboardHandler_store hp hfull, pressed, hp]
    · simp [step, keyboardHandler_release hp, pressed, hp]

lemma pressed_cons (e : Event) (es : List Event) : pressed (e :: es) = pressed [e] ++ pressed es := by
  cases e with
  | read => rfl
  | key ioCode => by_cases hp : ioCode < 128 <;> simp [pressed, hp]

/-- Without a drop, the enqueued characters are those of the key presses. -/
theorem enqueued_pressed {es : List Event} (h : NoDrop es) :
    (keyboardAfter es).enqueued = pressed es := by
  suffices hrun : ∀ (es : List Event) (k : Keyboard),
      Always step (fun _ _ dropped _ => dropped = false) es k →
        (final step es k).enqueued = k.enqueued ++ pressed es from hrun es _ h
  intro es
  induction es with
  | nil => intro k _; simp [final, pressed]
  | cons e es ih =>
    intro k hk
    rw [final, ih _ hk.2, step_enqueued e k hk.1, pressed_cons e es, List.append_assoc]

end ArcOS.Kernel
