import ArcOS.Lib.Poll
import Mathlib.Data.Nat.Notation

/-!
The gate of address line 20: `EnableA20` of `entry.asm`, against the keyboard controller it goes through.

The controller works on its own between any two instructions: it takes what is in its input buffer, and as
long as the keyboard is enabled it puts the codes of keys into its output buffer. `EnableA20` waits for the
input buffer before every byte it sends, so no byte is lost. But it takes the first byte of the output buffer
for the value of the output port, and this may be the code of a key pressed before (`enableA20_exact`).
-/

namespace ArcOS.Boot.A20

open Lib.Poll

/-! ### The keyboard controller -/

/-- `KbdControllerDisableKeyboard` -/
def disableKeyboard : UInt8 := 0xAD

/-- `KbdControllerEnableKeyboard` -/
def enableKeyboard : UInt8 := 0xAE

/-- `KbdControllerReadCtrlOutputPort` -/
def readCtrlOutputPort : UInt8 := 0xD0

/-- `KbdControllerWriteCtrlOutputPort` -/
def writeCtrlOutputPort : UInt8 := 0xD1

/-- The controller. -/
structure Controller where
  /-- The byte in the input buffer, and whether it is a command. -/
  input : Option (Bool × UInt8)
  output : Option UInt8
  outputPort : UInt8
  /-- The next byte of data goes to the output port. -/
  writesPort : Bool
  keyboard : Bool
  /-- The codes of the keys to come. -/
  keys : List UInt8
  /-- A byte was written over one that had not been taken. -/
  lost : Bool

/-- A command is carried out. The value of the output port goes into the output buffer once it is empty. -/
def Controller.obey (command : UInt8) (k : Controller) : Controller :=
  if command = disableKeyboard then { k with input := none, keyboard := false }
  else if command = enableKeyboard then { k with input := none, keyboard := true }
  else if command = readCtrlOutputPort then
    if k.output.isSome then k else { k with input := none, output := some k.outputPort }
  else if command = writeCtrlOutputPort then { k with input := none, writesPort := true }
  else { k with input := none }

/-- The byte in the input buffer is taken. -/
def Controller.serve (k : Controller) : Controller :=
  match k.input with
  | none => k
  | some (true, command) => k.obey command
  | some (false, byte) =>
    if k.writesPort then { k with input := none, writesPort := false, outputPort := byte }
    else { k with input := none }

/-- The code of a key is taken. -/
def Controller.takeKey (k : Controller) : Controller :=
  match k.keys with
  | [] => k
  | code :: keys =>
    if k.keyboard && k.output.isNone then { k with output := some code, keys := keys } else k

/-- What the controller does on its own. -/
inductive Own
  | serve
  | key

def Controller.own : Own → Controller → Controller
  | .serve => Controller.serve
  | .key => Controller.takeKey

/-- A byte for `KbdControllerCommandPort` or, if it is no command, for `KbdControllerDataPort` -/
def Controller.out (command : Bool) (byte : UInt8) (k : Controller) : Controller :=
  { k with input := some (command, byte), lost := k.lost || k.input.isSome }

/-- Bits 0 and 1 of what `KbdControllerCommandPort` reads as -/
def Controller.status (k : Controller) : UInt8 :=
  (if k.output.isSome then 1 else 0) ||| (if k.input.isSome then 2 else 0)

/-! ### `entry.asm` -/

section Code

variable (schedule : ℕ → List Own) (rounds : ℕ)

/-- `A20WaitInput` -/
def a20WaitInput (s : Timed Controller) : Option (Timed Controller) :=
  await Controller.own schedule (fun k => k.status &&& 2 == 0) rounds s

/-- `A20WaitOutput` -/
def a20WaitOutput (s : Timed Controller) : Option (Timed Controller) :=
  await Controller.own schedule (fun k => k.status &&& 1 != 0) rounds s

/-- `out KbdControllerCommandPort, al` -/
def outCommand (al : UInt8) (s : Timed Controller) : Timed Controller :=
  access Controller.own schedule (Controller.out true al) s

/-- `out KbdControllerDataPort, al` -/
def outData (al : UInt8) (s : Timed Controller) : Timed Controller :=
  access Controller.own schedule (Controller.out false al) s

/-- `in al, KbdControllerDataPort` -/
def inData (s : Timed Controller) : UInt8 × Timed Controller :=
  let s := settle Controller.own schedule s
  (s.device.output.getD 0, { s with device := { s.device with output := none } })

/-- `EnableA20` up to where the keyboard is disabled -/
def keyboardDisabled (s : Timed Controller) : Option (Timed Controller) := do
  let s ← a20WaitInput schedule rounds s
  a20WaitInput schedule rounds (outCommand schedule disableKeyboard s)

/-- `EnableA20` -/
def enableA20 (s : Timed Controller) : Option (Timed Controller) := do
  let s ← keyboardDisabled schedule rounds s
  -- read control output port
  let s ← a20WaitOutput schedule rounds (outCommand schedule readCtrlOutputPort s)
  let (al, s) := inData schedule s
  -- write control output port
  let s ← a20WaitInput schedule rounds s
  let s ← a20WaitInput schedule rounds (outCommand schedule writeCtrlOutputPort s)
  let s ← a20WaitInput schedule rounds (outData schedule (al ||| 2) s)
  -- enable keyboard
  a20WaitInput schedule rounds (outCommand schedule enableKeyboard s)

end Code

/-! ### Waiting -/

lemma inputFree_iff (k : Controller) : (k.status &&& 2 == 0) = true ↔ k.input = none := by
  unfold Controller.status
  cases k.output <;> cases k.input <;> simp <;> decide

lemma outputFull_iff (k : Controller) : (k.status &&& 1 != 0) = true ↔ k.output ≠ none := by
  unfold Controller.status
  cases k.output <;> cases k.input <;> simp <;> decide

lemma takeKey_disabled {k : Controller} (h : k.keyboard = false) : k.takeKey = k := by
  unfold Controller.takeKey
  split
  · rfl
  · simp [h]

/-- A key changes the output buffer alone. -/
lemma takeKey_frame (k : Controller) : k.takeKey.input = k.input ∧ k.takeKey.outputPort = k.outputPort ∧
    k.takeKey.writesPort = k.writesPort ∧ k.takeKey.keyboard = k.keyboard ∧ k.takeKey.lost = k.lost := by
  unfold Controller.takeKey
  split
  · exact ⟨rfl, rfl, rfl, rfl, rfl⟩
  · split <;> exact ⟨rfl, rfl, rfl, rfl, rfl⟩

lemma serve_idle {k : Controller} (h : k.input = none) : k.serve = k := by
  rw [Controller.serve, h]

lemma own_input {k : Controller} (h : k.input = none) (i : Own) : (k.own i).input = none := by
  cases i with
  | serve =>
    change k.serve.input = none
    rw [serve_idle h, h]
  | key => exact (takeKey_frame k).1.trans h

lemma serve_command {k : Controller} {command : UInt8} (h : k.input = some (true, command)) :
    k.serve = k.obey command := by
  rw [Controller.serve, h]

lemma serve_data {k : Controller} {byte : UInt8} (h : k.input = some (false, byte)) (hw : k.writesPort = true) :
    k.serve = { k with input := none, writesPort := false, outputPort := byte } := by
  rw [Controller.serve, h]
  exact if_pos hw

lemma kept_of_disabled {I : Controller → Prop} (hoff : ∀ k, I k → k.keyboard = false)
    (hserve : ∀ k, I k → I k.serve) : Kept Controller.own I := by
  intro k i hk
  cases i with
  | serve => exact hserve k hk
  | key =>
    change I k.takeKey
    rw [takeKey_disabled (hoff k hk)]
    exact hk

section Wait

variable {schedule : ℕ → List Own} {rounds : ℕ} {I J : Controller → Prop} {s : Timed Controller}

/-- `A20WaitInput` waits until the byte in the input buffer is taken. -/
lemma a20WaitInput_ends (hfair : Fair schedule Own.serve rounds) (h : Kept Controller.own I)
    (hserve : ∀ k, I k → k.serve.input = none) (hs : I s.device) :
    ∃ s', a20WaitInput schedule rounds s = some s' ∧ I s'.device ∧ s'.device.input = none := by
  have hstay : ∀ k i, I k → (k.status &&& 2 == 0) = true → ((Controller.own i k).status &&& 2 == 0) = true := by
    intro k i _ hready
    rw [inputFree_iff] at hready ⊢
    exact own_input hready i
  have htaken : ∀ k, I k → ((Controller.own .serve k).status &&& 2 == 0) = true := by
    intro k hk
    rw [inputFree_iff]
    exact hserve k hk
  obtain ⟨s', hrun, hI, hready⟩ := await_ends h hstay htaken hfair hs
  exact ⟨s', hrun, hI, (inputFree_iff _).mp hready⟩

lemma send_ends (hfair : Fair schedule Own.serve rounds) (hI : Kept Controller.own I) (hJ : Kept Controller.own J)
    (hserve : ∀ k, J k → k.serve.input = none) (command : Bool) (byte : UInt8)
    (hout : ∀ k, I k → k.input = none → J (k.out command byte)) (hs : I s.device) (hfree : s.device.input = none) :
    ∃ s', a20WaitInput schedule rounds (access Controller.own schedule (Controller.out command byte) s) = some s' ∧
      J s'.device ∧ s'.device.input = none := by
  have hkept : Kept Controller.own fun k => I k ∧ k.input = none := hI.and fun k i _ hk => own_input hk i
  have hsettled := hkept.settle schedule (s := s) ⟨hs, hfree⟩
  exact a20WaitInput_ends hfair hJ hserve (hout _ hsettled.1 hsettled.2)

end Wait

/-! ### The phases -/

/-- The bytes that the output buffer may hold come from `bytes`. -/
def From (bytes : List UInt8) (k : Controller) : Prop := ∀ b ∈ k.output.toList ++ k.keys, b ∈ bytes

lemma From.takeKey {bytes : List UInt8} {k : Controller} (h : From bytes k) : From bytes k.takeKey := by
  unfold Controller.takeKey
  split
  · exact h
  · next code keys hkeys =>
    split
    · intro b hb
      apply h
      rw [hkeys]
      exact List.mem_append_right _ hb
    · exact h

/-- Nothing is on its way to the controller. -/
structure Idle (bytes : List UInt8) (port : UInt8) (k : Controller) : Prop where
  writesPort : k.writesPort = false
  lost : k.lost = false
  outputPort : k.outputPort = port
  typed : From bytes k

lemma Idle.takeKey {bytes : List UInt8} {port : UInt8} {k : Controller} (h : Idle bytes port k) :
    Idle bytes port k.takeKey := by
  obtain ⟨-, hport, hwrites, -, hlost⟩ := takeKey_frame k
  exact ⟨hwrites.trans h.writesPort, hlost.trans h.lost, hport.trans h.outputPort, h.typed.takeKey⟩

section Phases

variable {bytes : List UInt8} {port : UInt8}

/-- The command that disables the keyboard is sent. -/
def Disabling (bytes : List UInt8) (port : UInt8) (k : Controller) : Prop :=
  Idle bytes port k ∧ (k.input = some (true, disableKeyboard) ∨ k.input = none ∧ k.keyboard = false)

lemma idle_kept : Kept Controller.own fun k => Idle bytes port k ∧ k.input = none := by
  intro k i hk
  refine ⟨?_, own_input hk.2 i⟩
  cases i with
  | serve =>
    change Idle bytes port k.serve
    rw [serve_idle hk.2]
    exact hk.1
  | key => exact hk.1.takeKey

lemma disabling_serve {k : Controller} (h : Disabling bytes port k) :
    Disabling bytes port k.serve ∧ k.serve.input = none := by
  obtain ⟨hidle, hinput | ⟨hinput, hoff⟩⟩ := h
  · have hserve : k.serve = { k with input := none, keyboard := false } := serve_command hinput
    rw [hserve]
    exact ⟨⟨⟨hidle.writesPort, hidle.lost, hidle.outputPort, hidle.typed⟩, .inr ⟨rfl, rfl⟩⟩, rfl⟩
  · rw [serve_idle hinput]
    exact ⟨⟨hidle, .inr ⟨hinput, hoff⟩⟩, hinput⟩

lemma disabling_kept : Kept Controller.own (Disabling bytes port) := by
  intro k i hk
  cases i with
  | serve => exact (disabling_serve hk).1
  | key =>
    obtain ⟨hinput, -, -, hkeyboard, -⟩ := takeKey_frame k
    refine ⟨hk.1.takeKey, ?_⟩
    change k.takeKey.input = _ ∨ k.takeKey.input = none ∧ k.takeKey.keyboard = false
    rw [hinput, hkeyboard]
    exact hk.2

/-- The keyboard is disabled. -/
structure Off (port : UInt8) (k : Controller) : Prop where
  keyboard : k.keyboard = false
  lost : k.lost = false
  outputPort : k.outputPort = port

/-- The command that reads the output port is sent, with `waiting` in the output buffer. -/
def Asking (port : UInt8) (waiting : Option UInt8) (k : Controller) : Prop :=
  Off port k ∧ k.writesPort = false ∧ (k.input = some (true, readCtrlOutputPort) ∧ k.output = waiting ∨
    waiting = none ∧ k.input = none ∧ k.output = some port)

/-- The output buffer has been read. -/
def Answered (port : UInt8) (k : Controller) : Prop :=
  Off port k ∧ k.writesPort = false ∧
    (k.input = none ∨ k.input = some (true, readCtrlOutputPort) ∧ k.output = none)

/-- The command that writes the output port is sent. -/
def Announcing (port : UInt8) (k : Controller) : Prop :=
  Off port k ∧ (k.input = some (true, writeCtrlOutputPort) ∧ k.writesPort = false ∨
    k.input = none ∧ k.writesPort = true)

/-- The value for the output port is sent. -/
def Writing (byte : UInt8) (k : Controller) : Prop :=
  k.keyboard = false ∧ k.lost = false ∧ (k.input = some (false, byte) ∧ k.writesPort = true ∨
    k.input = none ∧ k.writesPort = false ∧ k.outputPort = byte)

/-- The command that enables the keyboard is sent. -/
def Enabling (byte : UInt8) (k : Controller) : Prop :=
  k.lost = false ∧ k.writesPort = false ∧ k.outputPort = byte ∧
    (k.input = some (true, enableKeyboard) ∨ k.input = none ∧ k.keyboard = true)

variable {waiting : Option UInt8} {byte : UInt8} {k : Controller}

lemma asking_serve (h : Asking port waiting k) : Asking port waiting k.serve ∧ k.serve.output ≠ none := by
  obtain ⟨hoff, hwrites, ⟨hinput, houtput⟩ | ⟨hnone, hinput, houtput⟩⟩ := h
  · have hserve : k.serve = if k.output.isSome then k else { k with input := none, output := some k.outputPort } :=
      serve_command hinput
    rw [hserve, houtput]
    cases waiting with
    | none =>
      refine ⟨⟨⟨hoff.keyboard, hoff.lost, hoff.outputPort⟩, hwrites, .inr ⟨rfl, rfl, ?_⟩⟩, by simp⟩
      exact congrArg some hoff.outputPort
    | some b => exact ⟨⟨hoff, hwrites, .inl ⟨hinput, houtput⟩⟩, by simp [houtput]⟩
  · rw [serve_idle hinput]
    exact ⟨⟨hoff, hwrites, .inr ⟨hnone, hinput, houtput⟩⟩, by simp [houtput]⟩

lemma answered_serve (h : Answered port k) : Answered port k.serve ∧ k.serve.input = none := by
  obtain ⟨hoff, hwrites, hinput | ⟨hinput, houtput⟩⟩ := h
  · rw [serve_idle hinput]
    exact ⟨⟨hoff, hwrites, .inl hinput⟩, hinput⟩
  · have hserve : k.serve = if k.output.isSome then k else { k with input := none, output := some k.outputPort } :=
      serve_command hinput
    rw [hserve, houtput]
    exact ⟨⟨⟨hoff.keyboard, hoff.lost, hoff.outputPort⟩, hwrites, .inl rfl⟩, rfl⟩

lemma announcing_serve (h : Announcing port k) : Announcing port k.serve ∧ k.serve.input = none := by
  obtain ⟨hoff, ⟨hinput, -⟩ | ⟨hinput, hwrites⟩⟩ := h
  · have hserve : k.serve = { k with input := none, writesPort := true } := serve_command hinput
    rw [hserve]
    exact ⟨⟨⟨hoff.keyboard, hoff.lost, hoff.outputPort⟩, .inr ⟨rfl, rfl⟩⟩, rfl⟩
  · rw [serve_idle hinput]
    exact ⟨⟨hoff, .inr ⟨hinput, hwrites⟩⟩, hinput⟩

lemma writing_serve (h : Writing byte k) : Writing byte k.serve ∧ k.serve.input = none := by
  obtain ⟨hkeyboard, hlost, ⟨hinput, hwrites⟩ | ⟨hinput, hwrites, hport⟩⟩ := h
  · rw [serve_data hinput hwrites]
    exact ⟨⟨hkeyboard, hlost, .inr ⟨rfl, rfl, rfl⟩⟩, rfl⟩
  · rw [serve_idle hinput]
    exact ⟨⟨hkeyboard, hlost, .inr ⟨hinput, hwrites, hport⟩⟩, hinput⟩

lemma enabling_serve (h : Enabling byte k) : Enabling byte k.serve ∧ k.serve.input = none := by
  obtain ⟨hlost, hwrites, hport, hinput | ⟨hinput, hkeyboard⟩⟩ := h
  · have hserve : k.serve = { k with input := none, keyboard := true } := serve_command hinput
    rw [hserve]
    exact ⟨⟨hlost, hwrites, hport, .inr ⟨rfl, rfl⟩⟩, rfl⟩
  · rw [serve_idle hinput]
    exact ⟨⟨hlost, hwrites, hport, .inr ⟨hinput, hkeyboard⟩⟩, hinput⟩

lemma enabling_kept : Kept Controller.own (Enabling byte) := by
  intro k i hk
  cases i with
  | serve => exact (enabling_serve hk).1
  | key =>
    obtain ⟨hinput, hport, hwrites, hkeyboard, hlost⟩ := takeKey_frame k
    change Enabling byte k.takeKey
    rw [Enabling, hinput, hport, hwrites, hkeyboard, hlost]
    exact hk

end Phases

/-! ### The run -/

section Run

variable {schedule : ℕ → List Own} {rounds : ℕ} {s : Timed Controller} {bytes : List UInt8} {port : UInt8}

lemma keyboardDisabled_ends (hfair : Fair schedule Own.serve rounds) (hs : Idle bytes port s.device)
    (hfree : s.device.input = none) : ∃ d, keyboardDisabled schedule rounds s = some d ∧
      Idle bytes port d.device ∧ d.device.input = none ∧ d.device.keyboard = false := by
  have hidleKept : Kept Controller.own fun k => Idle bytes port k ∧ k.input = none := idle_kept
  obtain ⟨t, ht, ⟨hidle, hinput⟩, -⟩ := a20WaitInput_ends hfair hidleKept
    (fun k hk => by rw [serve_idle hk.2, hk.2]) ⟨hs, hfree⟩
  have hout : ∀ k : Controller, Idle bytes port k ∧ k.input = none → k.input = none →
      Disabling bytes port (k.out true disableKeyboard) := fun k hk _ =>
    ⟨⟨hk.1.writesPort, by simp [Controller.out, hk.1.lost, hk.2], hk.1.outputPort, hk.1.typed⟩, .inl rfl⟩
  obtain ⟨d, hd, ⟨hidle', hphase⟩, hfree'⟩ := send_ends hfair hidleKept disabling_kept
    (fun k hk => (disabling_serve hk).2) true disableKeyboard hout ⟨hidle, hinput⟩ hinput
  refine ⟨d, ?_, hidle', hfree', ?_⟩
  · rw [keyboardDisabled, ht]
    exact hd
  · rcases hphase with hinput' | ⟨-, hoff⟩
    · rw [hfree'] at hinput'
      cases hinput'
    · exact hoff

lemma asked_ends (hfair : Fair schedule Own.serve rounds) (hs : Idle bytes port s.device)
    (hfree : s.device.input = none) (hoff : s.device.keyboard = false) :
    ∃ t, a20WaitOutput schedule rounds (outCommand schedule readCtrlOutputPort s) = some t ∧
      (inData schedule t).1 = s.device.output.getD port ∧ Answered port (inData schedule t).2.device := by
  have hsent : settle Controller.own schedule s = ⟨s.device, s.clock + 1⟩ := by
    have hstill : Kept Controller.own fun k => k = s.device := by
      refine kept_of_disabled (fun k hk => by rw [hk]; exact hoff) fun k hk => ?_
      rw [hk]
      exact serve_idle hfree
    have hsame : (settle Controller.own schedule s).device = s.device := hstill.settle schedule rfl
    rw [← hsame]
    rfl
  have hkept : Kept Controller.own (Asking port s.device.output) :=
    kept_of_disabled (fun k hk => hk.1.keyboard) fun k hk => (asking_serve hk).1
  have hstart : Asking port s.device.output (outCommand schedule readCtrlOutputPort s).device := by
    rw [outCommand, access, hsent]
    exact ⟨⟨hoff, by simp [Controller.out, hs.lost, hfree], hs.outputPort⟩, hs.writesPort, .inl ⟨rfl, rfl⟩⟩
  have houtput : ∀ k i, Asking port s.device.output k → k.output ≠ none → (Controller.own i k).output ≠ none := by
    intro k i hk hfull
    cases i with
    | serve => exact (asking_serve hk).2
    | key =>
      change k.takeKey.output ≠ none
      rwa [takeKey_disabled hk.1.keyboard]
  have hstay : ∀ k i, Asking port s.device.output k → (k.status &&& 1 != 0) = true →
      ((Controller.own i k).status &&& 1 != 0) = true := by
    intro k i hk hready
    rw [outputFull_iff] at hready ⊢
    exact houtput k i hk hready
  have hanswer : ∀ k, Asking port s.device.output k → ((Controller.own .serve k).status &&& 1 != 0) = true := by
    intro k hk
    rw [outputFull_iff]
    exact (asking_serve hk).2
  obtain ⟨t, ht, hasking, hready⟩ := await_ends hkept hstay hanswer hfair hstart
  have hboth := hkept.and houtput
  obtain ⟨hasking', hfull⟩ := hboth.settle schedule (s := t) ⟨hasking, (outputFull_iff _).mp hready⟩
  refine ⟨t, ht, ?_, ?_⟩
  · obtain ⟨-, -, ⟨-, hwaiting⟩ | ⟨hnone, -, hport⟩⟩ := hasking'
    · rw [hwaiting] at hfull
      obtain ⟨b, hb⟩ := Option.ne_none_iff_exists'.mp hfull
      rw [inData, hwaiting, hb]
      rfl
    · rw [inData, hport, hnone]
      rfl
  · obtain ⟨hphase, hwrites, ⟨hinput, -⟩ | ⟨-, hinput, -⟩⟩ := hasking'
    · exact ⟨⟨hphase.keyboard, hphase.lost, hphase.outputPort⟩, hwrites, .inr ⟨hinput, rfl⟩⟩
    · exact ⟨⟨hphase.keyboard, hphase.lost, hphase.outputPort⟩, hwrites, .inl hinput⟩

lemma written_ends (hfair : Fair schedule Own.serve rounds) (hs : Answered port s.device) (byte : UInt8) :
    ∃ t u v w, a20WaitInput schedule rounds s = some t ∧
      a20WaitInput schedule rounds (outCommand schedule writeCtrlOutputPort t) = some u ∧
      a20WaitInput schedule rounds (outData schedule byte u) = some v ∧
      a20WaitInput schedule rounds (outCommand schedule enableKeyboard v) = some w ∧
      Enabling byte w.device ∧ w.device.input = none := by
  have hanswered : Kept Controller.own (Answered port) :=
    kept_of_disabled (fun k hk => hk.1.keyboard) fun k hk => (answered_serve hk).1
  have hannouncing : Kept Controller.own (Announcing port) :=
    kept_of_disabled (fun k hk => hk.1.keyboard) fun k hk => (announcing_serve hk).1
  have hwriting : Kept Controller.own (Writing byte) :=
    kept_of_disabled (fun k hk => hk.1) fun k hk => (writing_serve hk).1
  obtain ⟨t, ht, hphase, hfree⟩ := a20WaitInput_ends hfair hanswered (fun k hk => (answered_serve hk).2) hs
  obtain ⟨u, hu, hphase', hfree'⟩ := send_ends hfair hanswered hannouncing (fun k hk => (announcing_serve hk).2)
    true writeCtrlOutputPort
    (fun k hk hin =>
      ⟨⟨hk.1.keyboard, by simp [Controller.out, hk.1.lost, hin], hk.1.outputPort⟩, .inl ⟨rfl, hk.2.1⟩⟩)
    hphase hfree
  have hready : ∀ k, Announcing port k → k.input = none → Writing byte (k.out false byte) := by
    intro k hk hin
    obtain ⟨hoff, ⟨hinput, -⟩ | ⟨-, hwrites⟩⟩ := hk
    · rw [hin] at hinput
      cases hinput
    · exact ⟨hoff.keyboard, by simp [Controller.out, hoff.lost, hin], .inl ⟨rfl, hwrites⟩⟩
  obtain ⟨v, hv, hphase'', hfree''⟩ := send_ends hfair hannouncing hwriting (fun k hk => (writing_serve hk).2)
    false byte hready hphase' hfree'
  have hdone : ∀ k, Writing byte k → k.input = none → Enabling byte (k.out true enableKeyboard) := by
    intro k hk hin
    obtain ⟨-, hlost, ⟨hinput, -⟩ | ⟨-, hwrites, hport⟩⟩ := hk
    · rw [hin] at hinput
      cases hinput
    · exact ⟨by simp [Controller.out, hlost, hin], hwrites, hport, .inl rfl⟩
  obtain ⟨w, hw, hend, hend'⟩ := send_ends hfair hwriting enabling_kept (fun k hk => (enabling_serve hk).2)
    true enableKeyboard hdone hphase'' hfree''
  exact ⟨t, u, v, w, ht, hu, hv, hw, hend, hend'⟩

/-- **`EnableA20`, whatever the controller does between its instructions.** It ends, no byte it sends is lost,
and the keyboard is enabled again. The output port is the byte it read with bit 1 set: its value before, or
the code of a key if one was in the output buffer when the keyboard was disabled. -/
theorem enableA20_exact (hfair : Fair schedule Own.serve rounds) (hfree : s.device.input = none)
    (hwrites : s.device.writesPort = false) (hlost : s.device.lost = false) :
    ∃ d s', keyboardDisabled schedule rounds s = some d ∧ enableA20 schedule rounds s = some s' ∧
      (∀ b, d.device.output = some b → s.device.output = some b ∨ b ∈ s.device.keys) ∧
      s'.device.outputPort = d.device.output.getD s.device.outputPort ||| 2 ∧
      s'.device.keyboard = true ∧ s'.device.lost = false ∧ s'.device.input = none := by
  have hidle : Idle (s.device.output.toList ++ s.device.keys) s.device.outputPort s.device :=
    ⟨hwrites, hlost, rfl, fun b hb => hb⟩
  obtain ⟨d, hd, hidle', hfree', hoff⟩ := keyboardDisabled_ends hfair hidle hfree
  obtain ⟨t, ht, hal, hanswered⟩ := asked_ends hfair hidle' hfree' hoff
  obtain ⟨u, v, w, s', hu, hv, hw, hs', ⟨hlost', -, hport, hphase⟩, hinput⟩ :=
    written_ends hfair hanswered (d.device.output.getD s.device.outputPort ||| 2)
  refine ⟨d, s', hd, ?_, fun b hb => ?_, hport, ?_, hlost', hinput⟩
  · have hpair : inData schedule t = (d.device.output.getD s.device.outputPort, (inData schedule t).2) :=
      Prod.ext hal rfl
    simp only [enableA20, hd, Option.bind_eq_bind, Option.bind_some, ht]
    rw [hpair]
    simp only [hu, Option.bind_some, hv, hw, hs']
  · have hmem := hidle'.typed b (by simp [hb])
    simpa using hmem
  · rcases hphase with hstill | ⟨-, hkeyboard⟩
    · rw [hinput] at hstill
      cases hstill
    · exact hkeyboard

end Run

/-- A key is pressed while the bootloader comes to `EnableA20`. -/
def pressedKey : Timed Controller := ⟨⟨none, none, 0xCF, false, true, [0x1E, 0x9E], false⟩, 0⟩

/-- The controller takes a key, and then what it was sent, in front of every access. -/
theorem enableA20_exact_key : ∃ d s', keyboardDisabled (fun _ => [.key, .serve]) 1 pressedKey = some d ∧
    enableA20 (fun _ => [.key, .serve]) 1 pressedKey = some s' ∧
    (∀ b, d.device.output = some b → pressedKey.device.output = some b ∨ b ∈ pressedKey.device.keys) ∧
    s'.device.outputPort = d.device.output.getD pressedKey.device.outputPort ||| 2 ∧
    s'.device.keyboard = true ∧ s'.device.lost = false ∧ s'.device.input = none :=
  enableA20_exact (fun n => ⟨n, Nat.le_refl n, Nat.lt_succ_self n, by simp⟩) rfl rfl rfl

/-- The code of the key becomes the value of the output port, and its bit 0, the reset line, is cleared. -/
example : (enableA20 (fun _ => [.key, .serve]) 1 pressedKey).map (·.device.outputPort) = some 0x1E := by
  decide

end ArcOS.Boot.A20
