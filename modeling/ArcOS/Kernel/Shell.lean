import ArcOS.Kernel.Line
import Mathlib.Data.List.TakeWhile

/-!
The parser of the command line, `Command_Parse`, with `strncmp` and `strncpy`.

A string in memory is a function on the offsets from its first byte; `Spells` says which characters
stand before its terminator. A line that begins with `cat` and a blank is a `cat` command whose
parameter is the rest of the line (`commandParse_cat`).
-/

namespace ArcOS.Kernel

/-! ### Strings -/

/-- A string literal. -/
def literal (s : List UInt8) : ℤ → UInt8 := fun k => s.getD k.toNat 0

/-- The memory `off` bytes further. -/
def advance (str : ℤ → UInt8) (off : ℤ) : ℤ → UInt8 := fun k => str (off + k)

/-- `strncmp` -/
def strncmp (str1 str2 : ℤ → UInt8) : ℕ → ℤ
  | 0 => 0
  | n + 1 =>
    if str1 0 ≠ 0 ∧ str1 0 = str2 0 then strncmp (advance str1 1) (advance str2 1) n
    else (str1 0).toNat - (str2 0).toNat

/-- The first loop of `strncpy`, with the rounds left, `i` and `dest` -/
def strncpyCopy (src : ℤ → UInt8) : ℕ → ℤ → (ℤ → UInt8) → ℤ × (ℤ → UInt8)
  | 0, i, dest => (i, dest)
  | left + 1, i, dest =>
    if src i ≠ 0 then strncpyCopy src left (i + 1) (Function.update dest i (src i)) else (i, dest)

/-- The second loop of `strncpy` -/
def strncpyFill : ℕ → ℤ → (ℤ → UInt8) → ℤ → UInt8
  | 0, _, dest => dest
  | left + 1, i, dest => strncpyFill left (i + 1) (Function.update dest i 0)

/-- `strncpy` -/
def strncpy (dest src : ℤ → UInt8) (n : ℕ) : ℤ → UInt8 :=
  let (i, dest) := strncpyCopy src n 0 dest
  strncpyFill (n - i.toNat) i dest

/-- The characters of the string at `str`. -/
structure Spells (str : ℤ → UInt8) (s : List UInt8) : Prop where
  bytes : ∀ k (h : k < s.length), str k = s[k]
  nonzero : ∀ c ∈ s, c ≠ 0
  stop : str s.length = 0

namespace Spells

variable {str dest : ℤ → UInt8} {s t : List UInt8} {c : UInt8}

lemma head (h : Spells str (c :: s)) : str 0 = c := h.bytes 0 (by simp)

lemma tail (h : Spells str (c :: s)) : Spells (advance str 1) s where
  bytes k hk := by
    have := h.bytes (k + 1) (by simpa using hk)
    rw [advance, Int.add_comm]
    exact_mod_cast this
  nonzero d hd := h.nonzero d (List.mem_cons_of_mem _ hd)
  stop := by
    have := h.stop
    rw [List.length_cons] at this
    rw [advance, Int.add_comm]
    exact_mod_cast this

lemma advance_length (h : Spells str (s ++ t)) : Spells (advance str s.length) t := by
  refine ⟨fun k hk => ?_, fun d hd => h.nonzero d (List.mem_append_right _ hd), ?_⟩
  · have := h.bytes (s.length + k) (by simpa using hk)
    rw [List.getElem_append_right (Nat.le_add_right _ _)] at this
    simpa [advance] using this
  · have := h.stop
    simpa [advance] using this

lemma stringAt (h : Spells str s) {n : ℕ} (hn : s.length < n) : stringAt str n = s := by
  have hshows : Shows ⟨str, s.length⟩ s := ⟨rfl, h.bytes⟩
  have hend : Function.update str (s.length : ℤ) 0 = str := by
    rw [← h.stop, Function.update_eq_self]
  have := hshows.stringAt hn
  rw [hend] at this
  rw [this, List.takeWhile_eq_self_iff]
  exact fun c hc => by simpa using h.nonzero c hc

lemma literal (hs : ∀ c ∈ s, c ≠ 0) : Spells (literal s) s where
  bytes k hk := by simp [Kernel.literal, hk]
  nonzero := hs
  stop := by simp [Kernel.literal]

lemma strncmp_same (h : Spells str (s ++ t)) {str' : ℤ → UInt8} (h' : Spells str' s) :
    strncmp str str' s.length = 0 := by
  induction s generalizing str str' with
  | nil => rfl
  | cons c s ih =>
    have hc : str 0 = c := h.head
    have hc' : str' 0 = c := h'.head
    rw [List.length_cons, strncmp,
      if_pos ⟨by rw [hc]; exact h'.nonzero c List.mem_cons_self, hc.trans hc'.symm⟩]
    exact ih h.tail h'.tail

lemma strncmp_head {n : ℕ} {str' : ℤ → UInt8} (hne : str 0 ≠ str' 0) : strncmp str str' (n + 1) ≠ 0 := by
  rw [strncmp, if_neg fun h => hne h.2]
  intro heq
  apply hne
  apply UInt8.toNat_inj.mp
  omega

lemma copy (h : Spells str s) : ∀ (left i : ℕ) (dest : ℤ → UInt8), i ≤ s.length →
    (∀ k (hk : k < s.length), k < i → dest k = s[k]) →
    (strncpyCopy str left i dest).1 = (min s.length (i + left) : ℕ) ∧
      ∀ k (hk : k < s.length), k < i + left → (strncpyCopy str left i dest).2 k = s[k] := by
  intro left
  induction left with
  | zero =>
    intro i dest hi hdest
    rw [Nat.add_zero, Nat.min_eq_right hi]
    exact ⟨rfl, hdest⟩
  | succ left ih =>
    intro i dest hi hdest
    rw [strncpyCopy]
    rcases Nat.lt_or_ge i s.length with hlt | hge
    · rw [if_pos (by rw [h.bytes i hlt]; exact h.nonzero _ (List.getElem_mem hlt))]
      have := ih (i + 1) (Function.update dest i (str i)) hlt ?_
      · rw [Nat.add_right_comm i 1 left] at this
        exact_mod_cast this
      · intro k hk hki
        rcases Nat.lt_succ_iff_lt_or_eq.mp hki with hlt' | rfl
        · rw [Function.update_of_ne (by omega)]
          exact hdest k hk hlt'
        · rw [Function.update_self]
          exact h.bytes k hk
    · have hstop : i = s.length := by omega
      rw [if_neg (by rw [hstop, h.stop]; simp), Nat.min_eq_left (by omega)]
      exact ⟨by rw [hstop], fun k hk _ => hdest k hk (by omega)⟩

end Spells

lemma strncpyFill_at : ∀ (left : ℕ) (i : ℤ) (dest : ℤ → UInt8) (k : ℤ),
    strncpyFill left i dest k = if i ≤ k ∧ k < i + left then 0 else dest k := by
  intro left
  induction left with
  | zero =>
    intro i dest k
    rw [strncpyFill, if_neg (by omega)]
  | succ left ih =>
    intro i dest k
    rw [strncpyFill, ih]
    by_cases hk : k = i
    · subst hk
      rw [if_neg (by omega), Function.update_self, if_pos (by omega)]
    · rw [Function.update_of_ne hk]
      by_cases hin : i ≤ k ∧ k < i + (left + 1 : ℕ)
      · rw [if_pos hin, if_pos (by omega)]
      · rw [if_neg hin, if_neg (by omega)]

theorem Spells.strncpy {src dest : ℤ → UInt8} {s : List UInt8} (h : Spells src s) (n : ℕ) :
    Spells (Function.update (strncpy dest src n) n 0) (s.take n) := by
  obtain ⟨hend, hbytes⟩ := h.copy n 0 dest (Nat.zero_le _) (fun k _ hk => absurd hk (Nat.not_lt_zero k))
  rw [Nat.zero_add] at hend hbytes
  have hat : ∀ k : ℤ, Kernel.strncpy dest src n k =
      if ((min s.length n : ℕ) : ℤ) ≤ k ∧ k < ((min s.length n : ℕ) : ℤ) + (n - min s.length n : ℕ) then 0
      else (strncpyCopy src n 0 dest).2 k := by
    intro k
    have hend' : (strncpyCopy src n 0 dest).1 = ((min s.length n : ℕ) : ℤ) := hend
    simp only [Kernel.strncpy, hend', Int.toNat_natCast]
    exact strncpyFill_at _ _ _ _
  refine ⟨fun k hk => ?_, fun c hc => h.nonzero c (List.mem_of_mem_take hc), ?_⟩
  · rw [List.length_take] at hk
    rw [Function.update_of_ne (by omega), hat, if_neg (by omega), List.getElem_take]
    exact hbytes k (by omega) (by omega)
  · rw [List.length_take]
    rcases Nat.lt_or_ge s.length n with hlt | hge
    · rw [Function.update_of_ne (by omega), hat, if_pos (by omega)]
    · rw [Nat.min_eq_left hge, Function.update_self]

/-! ### `Command_Parse` -/

/-- `CommandType` -/
inductive CommandType where
  | help
  | info
  | ls
  | cat
  | clear
  | exit
  | unknown
  deriving DecidableEq

/-- `Command` -/
structure Command where
  type : CommandType
  parameter : ℤ → UInt8

/-- `while (*param == ' ') param++`, with the rounds the buffer has room for -/
def skipBlanks : ℕ → (ℤ → UInt8) → Option (ℤ → UInt8)
  | 0, _ => none
  | left + 1, param => if param 0 = 32 then skipBlanks left (advance param 1) else some param

/-- `Command_Parse` on the line buffer and what the stack holds where the parameter lies; `none` when
the blanks behind `cat` do not end in the buffer. -/
def commandParse (input stack : ℤ → UInt8) : Option Command :=
  let cmd : Command := ⟨.unknown, Function.update stack 0 0⟩
  if strncmp input (literal [104, 101, 108, 112]) 4 = 0 then some { cmd with type := .help }
  else if strncmp input (literal [105, 110, 102, 111]) 4 = 0 then some { cmd with type := .info }
  else if strncmp input (literal [108, 115]) 2 = 0 then some { cmd with type := .ls }
  else if strncmp input (literal [99, 97, 116]) 3 = 0 then
    (skipBlanks 252 (advance input 4)).map fun param =>
      ⟨.cat, Function.update (strncpy cmd.parameter param 99) 99 0⟩
  else if strncmp input (literal [99, 108, 101, 97, 114]) 5 = 0 then
    some { cmd with type := .clear }
  else if strncmp input (literal [101, 120, 105, 116]) 4 = 0 then some { cmd with type := .exit }
  else some cmd

/-- **The parameter of `cat`** is the rest of the line, line end included. -/
theorem commandParse_cat {input stack : ℤ → UInt8} {c : UInt8} {param : List UInt8}
    (h : Spells input ([99, 97, 116, 32] ++ c :: param)) (hc : c ≠ 32)
    (hlen : (c :: param).length ≤ 99) :
    ∃ cmd, commandParse input stack = some cmd ∧ cmd.type = .cat ∧
      Spells cmd.parameter (c :: param) := by
  have hhead : input 0 = 99 := h.head
  have hparam : Spells (advance input 4) (c :: param) := h.advance_length
  have hcat : strncmp input (literal [99, 97, 116]) 3 = 0 :=
    Spells.strncmp_same (s := [99, 97, 116]) (t := 32 :: c :: param) h (.literal (by simp))
  have hother : ∀ (d : UInt8) (l : List UInt8) (n : ℕ), d ≠ 99 →
      ¬ strncmp input (literal (d :: l)) (n + 1) = 0 := fun d l n hd =>
    Spells.strncmp_head (by rw [hhead]; exact Ne.symm hd)
  unfold commandParse
  rw [if_neg (hother _ _ _ (by decide)), if_neg (hother _ _ _ (by decide)),
    if_neg (hother _ _ _ (by decide)), if_pos hcat, skipBlanks,
    if_neg (by rw [hparam.head]; exact hc), Option.map_some]
  refine ⟨_, rfl, rfl, ?_⟩
  rw [← List.take_of_length_le hlen]
  exact hparam.strncpy 99

end ArcOS.Kernel
