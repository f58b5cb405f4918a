import Mathlib.Algebra.Ring.Int.Defs
import Mathlib.Algebra.Ring.Nat
import Mathlib.Data.List.Induction

/-!
`printf` and the grammar of its directives.

The machine of `printf` looks at one character at a time; `printfStep` is one round of its loop, with
the arguments that are left. The grammar (`Item.text`) says how a format is put together from literal
bytes and directives, with what stands unfinished at its end, and has tables of its own for what a
directive takes (`Length.width`) and prints (`numberConv`). Every format is a text of
the grammar (`exists_text`), and the machine prints what the parts say (`printf_grammar`).
-/

namespace ArcOS.Stdio

/-! ### Numbers -/

/-- `g_HexChars` -/
def hexChars : List UInt8 := [48, 49, 50, 51, 52, 53, 54, 55, 56, 57, 97, 98, 99, 100, 101, 102]

/-- The first loop of `printf_unsigned`, with the places of the buffer that are left: the digits from
the last one on -/
def digitsLoop (radix : UInt64) : ℕ → UInt64 → List UInt8
  | 0, _ => []
  | left + 1, number =>
    if number > 0 then
      hexChars.getD (number % radix).toNat 0 :: digitsLoop radix left (number / radix)
    else []

/-- `printf_unsigned` -/
def printfUnsigned (number radix : UInt64) : List UInt8 := (digitsLoop radix 32 number).reverse

/-- `printf_signed` -/
def printfSigned (number : Int64) (radix : UInt64) : List UInt8 :=
  if number < 0 then 45 :: printfUnsigned (-number).toUInt64 radix -- '-'
  else printfUnsigned number.toUInt64 radix

/-! ### The machine -/

/-- An argument of `printf`, as it is passed: a `char` is passed as an `int`, a string as the bytes
before its terminator. -/
inductive Arg where
  | int (bits : UInt32)
  | long (bits : UInt32)
  | longLong (bits : UInt64)
  | string (str : List UInt8)

/-- `PRINTF_STATE_…` -/
inductive PrintfState where
  | normal
  | length
  | lengthShort
  | lengthLong
  | spec
  deriving DecidableEq

/-- `PRINTF_LENGTH_…` -/
inductive Length where
  | default
  | shortShort
  | short
  | long
  | longLong
  deriving DecidableEq

/-- The local variables of `printf`, with the arguments left and the bytes printed. -/
structure Printf where
  state : PrintfState
  length : Length
  radix : UInt64
  sign : Bool
  number : Bool
  args : List Arg
  out : List UInt8

/-- The variables as `printf` starts. -/
def Printf.start (args : List Arg) : Printf :=
  { state := .normal, length := .default, radix := 10, sign := false, number := false, args := args
    out := [] }

/-- `putc` and `puts` of bytes -/
def Printf.put (p : Printf) (bytes : List UInt8) : Printf := { p with out := p.out ++ bytes }

/-- The first `switch` of `PRINTF_STATE_SPEC`; `none` when `va_arg` finds another type. -/
def convSwitch (c : UInt8) (p : Printf) : Option Printf :=
  if c = 99 then -- 'c'
    match p.args with
    | .int bits :: args => some ({ p with args := args }.put [bits.toUInt8])
    | _ => none
  else if c = 115 then -- 's'
    match p.args with
    | .string str :: args => some ({ p with args := args }.put str)
    | _ => none
  else if c = 37 then some (p.put [37]) -- '%'
  else if c = 100 ∨ c = 105 then some { p with radix := 10, sign := true, number := true } -- 'd' 'i'
  else if c = 117 then some { p with radix := 10, sign := false, number := true } -- 'u'
  else if c = 88 ∨ c = 120 ∨ c = 112 then -- 'X' 'x' 'p'
    some { p with radix := 16, sign := false, number := true }
  else if c = 111 then some { p with radix := 8, sign := false, number := true } -- 'o'
  else some p

/-- The number `va_arg` finds for a length, with and without a sign. -/
def numberArg : Length → List Arg → Option (Int64 × UInt64 × List Arg)
  | .default, .int bits :: args => some (bits.toInt32.toInt64, bits.toUInt64, args)
  | .shortShort, .int bits :: args => some (bits.toInt32.toInt64, bits.toUInt64, args)
  | .short, .int bits :: args => some (bits.toInt32.toInt64, bits.toUInt64, args)
  | .long, .long bits :: args => some (bits.toInt32.toInt64, bits.toUInt64, args)
  | .longLong, .longLong bits :: args => some (bits.toInt64, bits, args)
  | _, _ => none

/-- `if (number)`: a number is printed -/
def printNumber (p : Printf) : Option Printf :=
  if p.number then
    (numberArg p.length p.args).map fun (signed, unsigned, args) =>
      { p with args := args }.put
        (if p.sign then printfSigned signed p.radix else printfUnsigned unsigned p.radix)
  else some p

/-- `PRINTF_STATE_SPEC_`, and the reset -/
def specStep (c : UInt8) (p : Printf) : Option Printf :=
  ((convSwitch c p).bind printNumber).map fun p =>
    { p with state := .normal, length := .default, radix := 10, sign := false, number := false }

/-- One round of the loop of `printf` -/
def printfStep (c : UInt8) (p : Printf) : Option Printf :=
  match p.state with
  | .normal => if c = 37 then some { p with state := .length } else some (p.put [c])
  | .length =>
    if c = 104 then some { p with length := .short, state := .lengthShort } -- 'h'
    else if c = 108 then some { p with length := .long, state := .lengthLong } -- 'l'
    else specStep c p
  | .lengthShort =>
    if c = 104 then some { p with length := .shortShort, state := .spec } else specStep c p
  | .lengthLong =>
    if c = 108 then some { p with length := .longLong, state := .spec } else specStep c p
  | .spec => specStep c p

/-- The loop of `printf` over the format before its terminator -/
def printfLoop : List UInt8 → Printf → Option Printf
  | [], p => some p
  | c :: fmt, p => (printfStep c p).bind (printfLoop fmt)

/-- `printf`: the bytes printed; `none` when the arguments do not match the format. -/
def printf (fmt : List UInt8) (args : List Arg) : Option (List UInt8) :=
  (printfLoop fmt (.start args)).map (·.out)

/-- The bytes of a string literal. -/
def ascii (text : String) : List UInt8 := text.toList.map fun c => UInt8.ofNat c.toNat

/-- `printf` of arguments that match the format -/
def printed (fmt : String) (args : List Arg) : List UInt8 := (printf (ascii fmt) args).getD []

example : printed "Unknown command: %s" [.string [120, 10]] = ascii "Unknown command: x\n" := by decide

example : printed "Unhandled IRQ %d\n" [.int 0] = ascii "Unhandled IRQ \n" := by decide

/-! ### The grammar -/

/-- The text of a length prefix. -/
def Length.text : Length → List UInt8
  | .default => []
  | .shortShort => [104, 104]
  | .short => [104]
  | .long => [108]
  | .longLong => [108, 108]

/-- The byte can be the conversion behind the prefix: it does not make a longer prefix of it. -/
def Length.Before : Length → UInt8 → Prop
  | .default, c => c ≠ 104 ∧ c ≠ 108
  | .short, c => c ≠ 104
  | .long, c => c ≠ 108
  | _, _ => True

/-- A part of a format: a literal byte, or a directive. -/
inductive Item where
  | literal (c : UInt8)
  | directive (length : Length) (conv : UInt8)

/-- The text of a part of a format. -/
def Item.text : Item → List UInt8
  | .literal c => [c]
  | .directive length conv => 37 :: length.text ++ [conv]

/-- A literal byte is not a percent sign, and a conversion goes with its length. -/
def Item.Valid : Item → Prop
  | .literal c => c ≠ 37
  | .directive length conv => length.Before conv

/-- What can stand at the end of a format without making a directive. -/
inductive Unfinished : List UInt8 → Prop where
  | nothing : Unfinished []
  | opened (length : Length) : Unfinished (37 :: length.text)

/-- The format is the text of the parts, with an unfinished directive at its end. -/
structure IsText (items : List Item) (tail fmt : List UInt8) : Prop where
  valid : ∀ i ∈ items, i.Valid
  unfinished : Unfinished tail
  text : fmt = items.flatMap Item.text ++ tail

/-- The radix of the conversions that print a number, and whether it has a sign. -/
def numberConv (conv : UInt8) : Option (UInt64 × Bool) :=
  if conv = 100 ∨ conv = 105 then some (10, true)
  else if conv = 117 then some (10, false)
  else if conv = 88 ∨ conv = 120 ∨ conv = 112 then some (16, false)
  else if conv = 111 then some (8, false)
  else none

/-- The types of the numbers that are printed. -/
inductive Width where
  | int
  | long
  | longLong
  deriving DecidableEq

/-- The type that a length prefix selects. -/
def Length.width : Length → Width
  | .long => .long
  | .longLong => .longLong
  | _ => .int

/-- The bits of a type. -/
def Width.bits : Width → ℕ
  | .int => 32
  | .long => 32
  | .longLong => 64

/-- The type of an argument that is a number, and the number without a sign. -/
def Arg.number : Arg → Option (Width × ℕ)
  | .int bits => some (.int, bits.toNat)
  | .long bits => some (.long, bits.toNat)
  | .longLong bits => some (.longLong, bits.toNat)
  | .string _ => none

/-- The number with a sign that has the same bits. -/
def Width.signed (w : Width) (n : ℕ) : ℤ := if n < 2 ^ (w.bits - 1) then n else n - 2 ^ w.bits

/-- The one argument of a directive that prints a number: the next one, and of the type that the prefix
selects. -/
def Length.take (length : Length) : List Arg → Option (ℕ × List Arg)
  | [] => none
  | arg :: args =>
    match arg.number with
    | some (w, n) => if w = length.width then some (n, args) else none
    | none => none

/-- What a part of a format prints, and the arguments it leaves. -/
def Item.render : Item → List Arg → Option (List UInt8 × List Arg)
  | .literal c, args => some ([c], args)
  | .directive length conv, args =>
    if conv = 99 then
      match args with
      | .int bits :: args => some ([bits.toUInt8], args)
      | _ => none
    else if conv = 115 then
      match args with
      | .string str :: args => some (str, args)
      | _ => none
    else if conv = 37 then some ([37], args)
    else match numberConv conv with
      | some (radix, true) => (length.take args).map fun (n, args) =>
          (printfSigned (Int64.ofInt (length.width.signed n)) radix, args)
      | some (radix, false) => (length.take args).map fun (n, args) =>
          (printfUnsigned (UInt64.ofNat n) radix, args)
      | none => some ([], args)

/-- What the parts of a format print, one after the other. -/
def renderAll : List Item → List Arg → Option (List UInt8)
  | [], _ => some []
  | i :: items, args =>
    (i.render args).bind fun (out, args) => (renderAll items args).map (out ++ ·)

/-! ### Every format is a text -/

lemma IsText.item {items : List Item} {tail fmt : List UInt8} {i : Item} {c : UInt8}
    (h : IsText items tail fmt) (hi : i.Valid) (htext : tail ++ [c] = i.text) :
    IsText (items ++ [i]) [] (fmt ++ [c]) := by
  refine ⟨fun j hj => ?_, .nothing, ?_⟩
  · rcases List.mem_append.mp hj with hj | hj
    · exact h.valid j hj
    · rw [List.mem_singleton.mp hj]
      exact hi
  · rw [h.text, List.append_assoc, htext, List.flatMap_append, List.flatMap_singleton, List.append_nil]

lemma IsText.extend {items : List Item} {fmt : List UInt8} {length : Length} {c : UInt8}
    (h : IsText items (37 :: length.text) fmt) (length' : Length) (htext : length.text ++ [c] = length'.text) :
    IsText items (37 :: length'.text) (fmt ++ [c]) := by
  refine ⟨h.valid, .opened length', ?_⟩
  rw [h.text, List.append_assoc, List.cons_append, htext]

/-- **Every format is a text of the grammar**; the parts are found from left to right. -/
theorem exists_text (fmt : List UInt8) : ∃ items tail, IsText items tail fmt := by
  induction fmt using List.reverseRecOn with
  | nil => exact ⟨[], [], by simp, .nothing, rfl⟩
  | append_singleton fmt c ih =>
    obtain ⟨items, tail, h⟩ := ih
    have hconv : ∀ length : Length, tail = 37 :: length.text → length.Before c →
        ∃ items tail, IsText items tail (fmt ++ [c]) := fun length htail hc =>
      ⟨_, _, h.item (i := .directive length c) hc (by rw [htail]; rfl)⟩
    cases h.unfinished with
    | nothing =>
      by_cases hc : c = 37
      · subst hc
        exact ⟨items, 37 :: Length.text .default, h.valid, .opened .default, by rw [h.text]; simp [Length.text]⟩
      · exact ⟨_, _, h.item (i := .literal c) hc rfl⟩
    | opened length =>
      cases length with
      | default =>
        by_cases hh : c = 104
        · subst hh
          exact ⟨_, _, h.extend .short rfl⟩
        · by_cases hl : c = 108
          · subst hl
            exact ⟨_, _, h.extend .long rfl⟩
          · exact hconv .default rfl ⟨hh, hl⟩
      | short =>
        by_cases hh : c = 104
        · subst hh
          exact ⟨_, _, h.extend .shortShort rfl⟩
        · exact hconv .short rfl hh
      | long =>
        by_cases hl : c = 108
        · subst hl
          exact ⟨_, _, h.extend .longLong rfl⟩
        · exact hconv .long rfl hl
      | shortShort => exact hconv .shortShort rfl trivial
      | longLong => exact hconv .longLong rfl trivial

/-! ### The arguments of the numbers -/

lemma signed_ofUInt32 {w : Width} (hw : w.bits = 32) (bits : UInt32) :
    Int64.ofInt (w.signed bits.toNat) = bits.toInt32.toInt64 := by
  have hsigned : w.signed bits.toNat = bits.toInt32.toInt := by
    rw [← Int32.toInt_toBitVec, UInt32.toBitVec_toInt32, BitVec.toInt_eq_toNat_cond, Width.signed, hw]
    simp only [UInt32.toNat_toBitVec]
    split_ifs <;> omega
  rw [hsigned, Int64.ofInt_int32ToInt]

lemma signed_ofUInt64 (bits : UInt64) :
    Int64.ofInt (Width.longLong.signed bits.toNat) = bits.toInt64 := by
  have hsigned : Width.longLong.signed bits.toNat = bits.toInt64.toInt := by
    rw [← Int64.toInt_toBitVec, UInt64.toBitVec_toInt64, BitVec.toInt_eq_toNat_cond, Width.signed]
    simp only [UInt64.toNat_toBitVec, Width.bits]
    split_ifs <;> omega
  rw [hsigned, Int64.ofInt_toInt]

/-- **`va_arg` takes what the grammar says**: the next argument, when it has the type that the prefix
selects, with its value in 64 bits. -/
lemma numberArg_eq (length : Length) (args : List Arg) :
    numberArg length args = (length.take args).map fun (n, args) =>
      (Int64.ofInt (length.width.signed n), UInt64.ofNat n, args) := by
  cases args with
  | nil => cases length <;> rfl
  | cons arg args =>
    cases arg with
    | int bits =>
      cases length with
      | long => rfl
      | longLong => rfl
      | default | short | shortShort =>
        simp [numberArg, Length.take, Arg.number, Length.width, signed_ofUInt32 (w := .int) rfl]
    | long bits =>
      cases length
      case long =>
        simp [numberArg, Length.take, Arg.number, Length.width, signed_ofUInt32 (w := .long) rfl]
      all_goals rfl
    | longLong bits =>
      cases length
      case longLong => simp [numberArg, Length.take, Arg.number, Length.width, signed_ofUInt64]
      all_goals rfl
    | string str => cases length <;> rfl

/-! ### The machine on a text -/

/-- The machine between two parts of a format. -/
def between (args : List Arg) (out : List UInt8) : Printf := { Printf.start args with out := out }

/-- The machine behind a percent sign and a length prefix. -/
def behind (length : Length) (args : List Arg) (out : List UInt8) : Printf :=
  { between args out with
    length := length
    state := match length with
      | .default => .length
      | .short => .lengthShort
      | .long => .lengthLong
      | .shortShort => .spec
      | .longLong => .spec }

section Machine

variable {length : Length} {conv : UInt8} {args : List Arg} {out : List UInt8}

lemma printfLoop_append (fmt fmt' : List UInt8) (p : Printf) :
    printfLoop (fmt ++ fmt') p = (printfLoop fmt p).bind (printfLoop fmt') := by
  induction fmt generalizing p with
  | nil => rfl
  | cons c fmt ih =>
    rw [List.cons_append, printfLoop, printfLoop, Option.bind_assoc]
    exact congrArg _ (funext ih)

lemma printfLoop_opened (length : Length) (args : List Arg) (out : List UInt8) :
    printfLoop (37 :: length.text) (between args out) = some (behind length args out) := by
  cases length <;> rfl

lemma printfStep_conv (h : length.Before conv) :
    printfStep conv (behind length args out) = specStep conv (behind length args out) := by
  cases length with
  | default =>
    simp only [printfStep, behind]
    rw [if_neg h.1, if_neg h.2]
  | short => exact if_neg h
  | long => exact if_neg h
  | shortShort => rfl
  | longLong => rfl

/-- What a conversion prints; the settings are those between two parts again. -/
lemma specStep_render (length : Length) (conv : UInt8) (args : List Arg) (out : List UInt8) :
    specStep conv (behind length args out) =
      ((Item.directive length conv).render args).map fun (o, args) => between args (out ++ o) := by
  simp only [specStep, convSwitch, Item.render, numberConv, behind, between, Printf.start]
  by_cases hc : conv = 99
  · simp only [if_pos hc]
    split <;> rfl
  by_cases hs : conv = 115
  · simp only [if_neg hc, if_pos hs]
    split <;> rfl
  by_cases hp : conv = 37
  · simp only [if_neg hc, if_neg hs, if_pos hp]
    rfl
  simp only [if_neg hc, if_neg hs, if_neg hp]
  split_ifs
  -- the four kinds of numbers, which differ in the radix and the sign only
  all_goals simp [printNumber, Printf.put, numberArg_eq, Function.comp_def]

theorem printfLoop_item {i : Item} (hi : i.Valid) (args : List Arg) (out : List UInt8) :
    printfLoop i.text (between args out) =
      (i.render args).map fun (o, args) => between args (out ++ o) := by
  cases i with
  | literal c =>
    simp only [Item.text, printfLoop, printfStep, between, Printf.start]
    rw [if_neg hi]
    rfl
  | directive length conv =>
    rw [Item.text, printfLoop_append, printfLoop_opened, Option.bind_some, printfLoop,
      printfStep_conv hi, specStep_render]
    simp [printfLoop]

lemma printfLoop_tail {tail : List UInt8} (h : Unfinished tail) (args : List Arg) (out : List UInt8) :
    (printfLoop tail (between args out)).map (·.out) = some out := by
  cases h with
  | nothing => rfl
  | opened length =>
    rw [printfLoop_opened]
    rfl

/-- **The machine on the parts of a format**, with what is printed already. -/
lemma printfLoop_items_tail {items : List Item} {tail : List UInt8} (hvalid : ∀ i ∈ items, i.Valid)
    (htail : Unfinished tail) (args : List Arg) (out : List UInt8) :
    (printfLoop (items.flatMap Item.text ++ tail) (between args out)).map (·.out) =
      (renderAll items args).map (out ++ ·) := by
  induction items generalizing args out with
  | nil => simp [renderAll, printfLoop_tail htail]
  | cons i items ih =>
    rw [List.flatMap_cons, List.append_assoc, printfLoop_append,
      printfLoop_item (hvalid i List.mem_cons_self), renderAll]
    cases hr : i.render args with
    | none => rfl
    | some r =>
      obtain ⟨o, rest⟩ := r
      simp only [Option.map_some, Option.bind_some]
      rw [ih (fun j hj => hvalid j (List.mem_cons_of_mem _ hj)), Option.map_map]
      simp [Function.comp_def]

end Machine

/-- **`printf` implements the grammar of its directives.** Every format is a text of the grammar, and
however it is read as one, what `printf` prints for any arguments is what its parts print one after
the other, each from the arguments that those before it have left. -/
theorem printf_grammar (fmt : List UInt8) :
    (∃ items tail, IsText items tail fmt) ∧
      ∀ items tail, IsText items tail fmt → ∀ args, printf fmt args = renderAll items args := by
  refine ⟨exists_text fmt, fun items tail h args => ?_⟩
  have hrun := printfLoop_items_tail h.valid h.unfinished args []
  rw [← h.text] at hrun
  simpa [printf, between, Printf.start] using hrun

/-- `"a%hhd%%%lq%s%"` with `-5` and `"hi"` -/
theorem printf_grammar_mixed :
    printf [97, 37, 104, 104, 100, 37, 37, 37, 108, 113, 37, 115, 37]
      [.int 0xFFFFFFFB, .string [104, 105]] = some [97, 45, 53, 37, 104, 105] :=
  ((printf_grammar _).2
    [.literal 97, .directive .shortShort 100, .directive .default 37, .directive .long 113,
      .directive .default 115] [37]
    ⟨by simp [Item.Valid, Length.Before], .opened .default, rfl⟩ _).trans (by decide)

end ArcOS.Stdio
