import ArcOS.Kernel.Shell

/-!
Which commands `Command_Parse` recognises, and what of the buffer it depends on.

A command is recognised by its letters at the start of the line, whatever follows (`commandParse_type`),
while `help` lists words: `commandParse_documented_iff` says for which lines that is the same. The
parameter of `cat` is looked for behind the character that follows `cat`; on a line that is just `cat`,
that is behind the terminator (`commandParse_line_iff`).
-/

namespace ArcOS.Kernel

/-! ### Words -/

/-- The commands that `help` lists. -/
def commands : List (List UInt8 × CommandType) :=
  [([104, 101, 108, 112], .help), ([105, 110, 102, 111], .info), ([108, 115], .ls),
    ([99, 97, 116], .cat), ([99, 108, 101, 97, 114], .clear), ([101, 120, 105, 116], .exit)]

/-- The first command whose word has a property. -/
def commandWith (p : List UInt8 → Bool) : CommandType :=
  ((commands.find? fun c => p c.1).map (·.2)).getD .unknown

/-- The command that a line begins with the letters of. -/
def recognised (line : List UInt8) : CommandType := commandWith fun w => w <+: line

/-- The command that a word is. -/
def documented (word : List UInt8) : CommandType := commandWith fun w => w = word

/-- A blank or a line end. -/
def isDelimiter (c : UInt8) : Bool := c == 32 || c == 10 || c == 13

/-- The first word of a line. -/
def firstWord (line : List UInt8) : List UInt8 := line.takeWhile fun c => !isDelimiter c

lemma commandWith_none {p : List UInt8 → Bool} (h : ∀ c ∈ commands, ¬ p c.1) : commandWith p = .unknown := by
  rw [commandWith, List.find?_eq_none.mpr h]
  rfl

lemma commandWith_unique {p : List UInt8 → Bool} {c : List UInt8 × CommandType} (hc : c ∈ commands)
    (hp : p c.1) (h : ∀ d ∈ commands, p d.1 → d = c) : commandWith p = c.2 := by
  have hsome : (commands.find? fun c => p c.1).isSome := List.find?_isSome.mpr ⟨c, hc, hp⟩
  obtain ⟨d, hd⟩ := Option.isSome_iff_exists.mp hsome
  have hpd := List.find?_some hd
  have hdc : d = c := h d (List.mem_of_find?_eq_some hd) hpd
  rw [commandWith, hd, hdc]
  rfl

lemma commands_ne_unknown {c : List UInt8 × CommandType} (hc : c ∈ commands) : c.2 ≠ .unknown := by
  revert c
  simp [commands]

lemma commands_apart {c d : List UInt8 × CommandType} (hc : c ∈ commands) (hd : d ∈ commands)
    (h : c.1 <+: d.1) : c = d := by
  have hall : ∀ c ∈ commands, ∀ d ∈ commands, c.1 <+: d.1 → c = d := by decide
  exact hall c hc d hd h

lemma commands_unique {c d : List UInt8 × CommandType} {line : List UInt8} (hc : c ∈ commands)
    (hd : d ∈ commands) (hcl : c.1 <+: line) (hdl : d.1 <+: line) : d = c := by
  rcases List.prefix_or_prefix_of_prefix hcl hdl with h | h
  · exact (commands_apart hc hd h).symm
  · exact commands_apart hd hc h

/-- The letters of a command are no delimiters: they are in the first word. -/
lemma prefix_firstWord_iff {c : List UInt8 × CommandType} (hc : c ∈ commands) {line : List UInt8} :
    c.1 <+: firstWord line ↔ c.1 <+: line := by
  have hword : ∀ c ∈ commands, ∀ b ∈ c.1, isDelimiter b = false := by
    simp [commands, isDelimiter]
  refine ⟨fun h => h.trans (List.takeWhile_prefix _), fun h => ?_⟩
  obtain ⟨rest, rfl⟩ := h
  rw [firstWord, List.takeWhile_append_of_pos fun b hb => by rw [hword c hc b hb]; rfl]
  exact List.prefix_append _ _

/-- **Letters and words agree on a line** unless its first word is longer than a command it begins with. -/
theorem recognised_iff (line : List UInt8) : recognised line = documented (firstWord line) ↔
    ∀ c ∈ commands, c.1 <+: firstWord line → firstWord line = c.1 := by
  by_cases hex : ∃ c ∈ commands, c.1 <+: line
  · obtain ⟨c, hc, hline⟩ := hex
    have hrec : recognised line = c.2 := commandWith_unique hc (by simpa using hline) fun d hd hp =>
      commands_unique hc hd hline (by simpa using hp)
    have hfirst := (prefix_firstWord_iff hc).mpr hline
    rw [hrec]
    constructor
    · intro heq d hd hpre
      obtain rfl := commands_unique hc hd hline ((prefix_firstWord_iff hd).mp hpre)
      by_contra hne
      refine commands_ne_unknown hc (heq.trans (commandWith_none fun e he hp => hne ?_))
      have hword : e.1 = firstWord line := by simpa using hp
      rw [← hword] at hfirst
      rw [← hword, commands_apart hc he hfirst]
    · intro hall
      have hword := hall c hc hfirst
      refine (commandWith_unique hc (by simpa using hword.symm) fun d hd hp => ?_).symm
      have hpre : c.1 <+: d.1 := by
        rw [show d.1 = firstWord line by simpa using hp]
        exact hfirst
      exact (commands_apart hc hd hpre).symm
  · have hnone : ∀ c ∈ commands, ¬ c.1 <+: line := fun c hc h => hex ⟨c, hc, h⟩
    have hrec : recognised line = .unknown := commandWith_none fun c hc hp =>
      hnone c hc (by simpa using hp)
    refine iff_of_true (hrec.trans (commandWith_none fun c hc hp => ?_).symm) fun c hc hpre =>
      absurd ((prefix_firstWord_iff hc).mp hpre) (hnone c hc)
    have hword : c.1 = firstWord line := by simpa using hp
    exact hnone c hc ((prefix_firstWord_iff hc).mp (hword ▸ List.prefix_rfl))

/-! ### The comparisons -/

namespace Spells

variable {str : ℤ → UInt8} {s : List UInt8}

theorem strncmp_iff (h : Spells str s) {str' : ℤ → UInt8} {k : List UInt8} (h' : Spells str' k) :
    strncmp str str' k.length = 0 ↔ k <+: s := by
  induction k generalizing str str' s with
  | nil => exact iff_of_true rfl (List.nil_prefix)
  | cons c k ih =>
    have hc : str' 0 = c := h'.head
    have hc0 : c ≠ 0 := h'.nonzero c List.mem_cons_self
    cases s with
    | nil =>
      have h0 : str 0 = 0 := h.stop
      exact iff_of_false (strncmp_head (by rw [h0, hc]; exact hc0.symm)) (by simp)
    | cons d s =>
      have hd : str 0 = d := h.head
      rw [List.cons_prefix_cons, List.length_cons]
      by_cases heq : c = d
      · subst heq
        rw [strncmp, if_pos ⟨by rw [hd]; exact hc0, hd.trans hc.symm⟩, ih h.tail h'.tail]
        exact (and_iff_right rfl).symm
      · exact iff_of_false (strncmp_head (by rw [hd, hc]; exact Ne.symm heq)) fun h => heq h.1

theorem skipBlanks (h : Spells str s) {left : ℕ} (hleft : s.length < left) :
    ∃ param, Kernel.skipBlanks left str = some param ∧ Spells param (s.dropWhile (· = 32)) := by
  induction left generalizing str s with
  | zero => exact absurd hleft (Nat.not_lt_zero _)
  | succ left ih =>
    rw [Kernel.skipBlanks]
    cases s with
    | nil =>
      have h0 : str 0 = 0 := h.stop
      exact ⟨str, if_neg (by rw [h0]; decide), h⟩
    | cons c s =>
      have hc : str 0 = c := h.head
      by_cases hblank : c = 32
      · rw [if_pos (hc.trans hblank), List.dropWhile_cons_of_pos (by simpa using hblank)]
        exact ih h.tail (by simpa using hleft)
      · rw [if_neg (by rwa [hc]), List.dropWhile_cons_of_neg (by simpa using hblank)]
        exact ⟨str, rfl, h⟩

end Spells

/-! ### What is recognised -/

section Parse

variable {input stack : ℤ → UInt8} {s : List UInt8}

lemma literal_spells {c : List UInt8 × CommandType} (hc : c ∈ commands) : Spells (literal c.1) c.1 := by
  have hall : ∀ c ∈ commands, ∀ b ∈ c.1, b ≠ 0 := by simp [commands]
  exact .literal (hall c hc)

lemma strncmp_command (h : Spells input s) {c : List UInt8 × CommandType} (hc : c ∈ commands) :
    strncmp input (literal c.1) c.1.length = 0 ↔ c.1 <+: s :=
  h.strncmp_iff (literal_spells hc)

lemma recognised_of_letters {c : List UInt8 × CommandType} (hc : c ∈ commands) (hp : c.1 <+: s) :
    recognised s = c.2 :=
  commandWith_unique hc (by simpa using hp) fun d hd hd' => commands_unique hc hd hp (by simpa using hd')

/-- **What `Command_Parse` makes of a line**, by the command it recognises. -/
theorem commandParse_eq (h : Spells input s) (stack : ℤ → UInt8) : commandParse input stack =
    if recognised s = .cat then (skipBlanks 252 (advance input 4)).map fun param =>
      ⟨.cat, Function.update (strncpy (Function.update stack 0 0) param 99) 99 0⟩
    else some ⟨recognised s, Function.update stack 0 0⟩ := by
  have hhelp := strncmp_command h (c := ([104, 101, 108, 112], .help)) (by decide)
  have hinfo := strncmp_command h (c := ([105, 110, 102, 111], .info)) (by decide)
  have hls := strncmp_command h (c := ([108, 115], .ls)) (by decide)
  have hcat := strncmp_command h (c := ([99, 97, 116], .cat)) (by decide)
  have hclear := strncmp_command h (c := ([99, 108, 101, 97, 114], .clear)) (by decide)
  have hexit := strncmp_command h (c := ([101, 120, 105, 116], .exit)) (by decide)
  unfold commandParse
  dsimp only
  split
  · next h1 =>
    rw [recognised_of_letters (by decide) (hhelp.mp h1)]
    rfl
  split
  · next h2 =>
    rw [recognised_of_letters (by decide) (hinfo.mp h2)]
    rfl
  split
  · next h3 =>
    rw [recognised_of_letters (by decide) (hls.mp h3)]
    rfl
  split
  · next h4 =>
    rw [recognised_of_letters (by decide) (hcat.mp h4)]
    rfl
  split
  · next h5 =>
    rw [recognised_of_letters (by decide) (hclear.mp h5)]
    rfl
  split
  · next h6 =>
    rw [recognised_of_letters (by decide) (hexit.mp h6)]
    rfl
  next h1 h2 h3 h4 h5 h6 =>
  have hnone : recognised s = .unknown := by
    refine commandWith_none fun c hc hp => ?_
    have hzero := (strncmp_command h hc).mpr (by simpa using hp)
    simp only [commands, List.mem_cons, List.not_mem_nil, or_false] at hc
    rcases hc with rfl | rfl | rfl | rfl | rfl | rfl
    · exact h1 hzero
    · exact h2 hzero
    · exact h3 hzero
    · exact h4 hzero
    · exact h5 hzero
    · exact h6 hzero
  rw [hnone]
  rfl

lemma commandParse_type (h : Spells input s) {cmd : Command} (hcmd : commandParse input stack = some cmd) :
    cmd.type = recognised s := by
  rw [commandParse_eq h] at hcmd
  split at hcmd
  · next hcat =>
    obtain ⟨param, -, rfl⟩ := Option.map_eq_some_iff.mp hcmd
    exact hcat.symm
  · cases hcmd
    rfl

lemma prefix_of_recognised {c : List UInt8 × CommandType} (hc : c ∈ commands) (h : recognised s = c.2) :
    c.1 <+: s := by
  have htypes : ∀ c ∈ commands, ∀ d ∈ commands, c.2 = d.2 → c = d := by decide
  by_cases hex : ∃ d ∈ commands, d.1 <+: s
  · obtain ⟨d, hd, hp⟩ := hex
    rw [recognised_of_letters hd hp] at h
    exact htypes d hd c hc h ▸ hp
  · have hnone : recognised s = .unknown := commandWith_none fun d hd hp => hex ⟨d, hd, by simpa using hp⟩
    exact absurd (h.symm.trans hnone) (commands_ne_unknown hc)

/-! ### The parameter -/

/-- What `Command_Parse` leaves where the parameter lies: nothing, or what follows `cat` and one more
character, without the blanks in front, and cut off after 99 characters. -/
def parameterOf (line : List UInt8) : List UInt8 :=
  if recognised line = .cat then ((line.drop 4).dropWhile (· = 32)).take 99 else []

/-- **A line is parsed by its characters alone**, unless it is just `cat`. -/
theorem commandParse_line (h : Spells input s) (hlen : s.length < 256) (hcat : s ≠ [99, 97, 116])
    (stack : ℤ → UInt8) : ∃ cmd, commandParse input stack = some cmd ∧ cmd.type = recognised s ∧
      stringAt cmd.parameter 100 = parameterOf s := by
  rw [commandParse_eq h, parameterOf]
  split
  · next hrec =>
    obtain ⟨rest, rfl⟩ := prefix_of_recognised (c := ([99, 97, 116], .cat)) (by decide) hrec
    cases rest with
    | nil => exact absurd rfl hcat
    | cons c param =>
      have hparam : Spells (advance input 4) param :=
        Spells.advance_length (s := [99, 97, 116, c]) h
      obtain ⟨mem, hskip, hmem⟩ : ∃ mem, skipBlanks 252 (advance input 4) = some mem ∧ _ :=
        hparam.skipBlanks (by simp at hlen; omega)
      rw [hskip, hrec]
      refine ⟨_, rfl, rfl, (hmem.strncpy 99).stringAt ?_⟩
      rw [List.length_take]
      omega
  · refine ⟨_, rfl, rfl, ?_⟩
    have hempty : Spells (Function.update stack 0 0) [] := ⟨by simp, by simp, by simp⟩
    exact hempty.stringAt (by simp)

/-- **When `Command_Parse` recognises the documented commands.** For a line that fits in the buffer: whatever
the memory behind it and the stack hold, the type is the one of its first word, if and only if the first
word is no longer than a command it begins with. -/
theorem commandParse_documented_iff (line : List UInt8) (hline : ∀ c ∈ line, c ≠ 0)
    (hlen : line.length < 256) :
    (∀ input stack cmd, Spells input line → commandParse input stack = some cmd →
        cmd.type = documented (firstWord line)) ↔
      ∀ c ∈ commands, c.1 <+: firstWord line → firstWord line = c.1 := by
  rw [← recognised_iff]
  constructor
  · intro h
    by_cases hcat : line = [99, 97, 116]
    · rw [hcat]
      decide
    · obtain ⟨cmd, hcmd, htype, -⟩ := commandParse_line (.literal hline) hlen hcat fun _ => 0
      exact htype.symm.trans (h _ _ cmd (.literal hline) hcmd)
  · intro heq input stack cmd h hcmd
    exact (commandParse_type h hcmd).trans heq

theorem commandParse_documented_iff_help :
    (∀ input stack cmd, Spells input [104, 101, 108, 112, 10] → commandParse input stack = some cmd →
        cmd.type = documented (firstWord [104, 101, 108, 112, 10])) ↔
      ∀ c ∈ commands, c.1 <+: firstWord [104, 101, 108, 112, 10] →
        firstWord [104, 101, 108, 112, 10] = c.1 :=
  commandParse_documented_iff [104, 101, 108, 112, 10] (by simp) (by decide)

/-- The line `exits` and Enter: its first word is no command, and it is taken for `exit`. -/
theorem commandParse_exits :
    documented (firstWord [101, 120, 105, 116, 115, 10]) = .unknown ∧
    (commandParse (literal [101, 120, 105, 116, 115, 10]) fun _ => 0).map (·.type) = some .exit := by
  exact ⟨by decide, by decide +kernel⟩

end Parse

/-! ### The bytes that are read -/

/-- The offsets in `str1` that `strncmp` reads -/
def strncmpReads (str1 str2 : ℤ → UInt8) : ℕ → List ℤ
  | 0 => []
  | n + 1 =>
    0 :: if str1 0 ≠ 0 ∧ str1 0 = str2 0 then
      (strncmpReads (advance str1 1) (advance str2 1) n).map (· + 1)
    else []

/-- The offsets that `while (*param == ' ') param++` reads, the one it stops at last -/
def skipBlanksReads : ℕ → (ℤ → UInt8) → List ℤ
  | 0, _ => []
  | left + 1, param => 0 :: if param 0 = 32 then (skipBlanksReads left (advance param 1)).map (· + 1) else []

/-- The offsets in `src` that `strncpy` reads, from `i` on -/
def strncpyReads (src : ℤ → UInt8) : ℕ → ℤ → List ℤ
  | 0, _ => []
  | left + 1, i => i :: if src i ≠ 0 then strncpyReads src left (i + 1) else []

/-- The offsets that `Command_Parse` reads in its line when it comes to the words of a list: those of the
comparisons, and those behind `cat`. -/
def wordReads (input : ℤ → UInt8) : List (List UInt8 × CommandType) → List ℤ
  | [] => []
  | c :: cs =>
    strncmpReads input (literal c.1) c.1.length ++
      if strncmp input (literal c.1) c.1.length = 0 then
        if c.2 = .cat then
          let blanks := skipBlanksReads 252 (advance input 4)
          blanks.map (· + 4) ++ match skipBlanks 252 (advance input 4) with
            | none => []
            | some param => (strncpyReads param 99 0).map (· + (3 + blanks.length : ℕ))
        else []
      else wordReads input cs

/-- The offsets that `Command_Parse` reads in its line -/
def commandParseReads (input : ℤ → UInt8) : List ℤ := wordReads input commands

namespace Spells

variable {str : ℤ → UInt8} {s : List UInt8}

lemma strncmpReads_le (h : Spells str s) (str' : ℤ → UInt8) (n : ℕ) :
    ∀ k ∈ strncmpReads str str' n, k ≤ s.length := by
  induction n generalizing str str' s with
  | zero => simp [strncmpReads]
  | succ n ih =>
    rw [strncmpReads, List.forall_mem_cons]
    refine ⟨by omega, ?_⟩
    split
    · next hgo =>
      cases s with
      | nil => exact absurd h.stop hgo.1
      | cons c s =>
        intro k hk
        obtain ⟨j, hj, rfl⟩ := List.mem_map.mp hk
        have := ih h.tail (advance str' 1) j hj
        rw [List.length_cons]
        omega
    · simp

lemma skipBlanksReads (h : Spells str s) {left : ℕ} (hleft : s.length < left) :
    (Kernel.skipBlanksReads left str).length = s.length - (s.dropWhile (· = 32)).length + 1 ∧
      ∀ k ∈ Kernel.skipBlanksReads left str, k ≤ s.length := by
  induction left generalizing str s with
  | zero => exact absurd hleft (Nat.not_lt_zero _)
  | succ left ih =>
    rw [Kernel.skipBlanksReads]
    cases s with
    | nil =>
      have h0 : str 0 = 0 := h.stop
      rw [if_neg (by rw [h0]; decide)]
      exact ⟨rfl, by simp⟩
    | cons c s =>
      have hc : str 0 = c := h.head
      by_cases hblank : c = 32
      · obtain ⟨hcount, hle⟩ := ih h.tail (by simpa using hleft)
        have hdrop : (s.dropWhile (· = 32)).length ≤ s.length :=
          (List.dropWhile_suffix _).length_le
        rw [if_pos (hc.trans hblank), List.dropWhile_cons_of_pos (by simpa using hblank),
          List.length_cons, List.length_map, hcount, List.length_cons]
        refine ⟨by omega, List.forall_mem_cons.mpr ⟨by omega, fun k hk => ?_⟩⟩
        obtain ⟨j, hj, rfl⟩ := List.mem_map.mp hk
        have := hle j hj
        omega
      · rw [if_neg (by rwa [hc]), List.dropWhile_cons_of_neg (by simpa using hblank)]
        exact ⟨by simp, by simp; omega⟩

lemma strncpyReads_le (h : Spells str s) (left : ℕ) :
    ∀ i : ℕ, i ≤ s.length → ∀ k ∈ strncpyReads str left i, k ≤ s.length := by
  induction left with
  | zero => simp [strncpyReads]
  | succ left ih =>
    intro i hi
    rw [strncpyReads, List.forall_mem_cons]
    refine ⟨by omega, ?_⟩
    split
    · next hne =>
      refine ih (i + 1) (Nat.lt_of_le_of_ne hi fun heq => hne ?_)
      rw [heq]
      exact h.stop
    · simp

end Spells

section Reads

variable {input : ℤ → UInt8} {s : List UInt8}

/-- Behind `cat` and one more character, the reads stop at the terminator. -/
lemma catReads_le {c : UInt8} {param : List UInt8} (h : Spells input ([99, 97, 116, c] ++ param))
    (hlen : param.length < 252) {mem : ℤ → UInt8} (hskip : skipBlanks 252 (advance input 4) = some mem) :
    (∀ k ∈ skipBlanksReads 252 (advance input 4), k + 4 ≤ ([99, 97, 116, c] ++ param).length) ∧
      ∀ k ∈ strncpyReads mem 99 0, k + (3 + (skipBlanksReads 252 (advance input 4)).length : ℕ) ≤
        ([99, 97, 116, c] ++ param).length := by
  have hparam : Spells (advance input 4) param := Spells.advance_length (s := [99, 97, 116, c]) h
  obtain ⟨hcount, hblanks⟩ := hparam.skipBlanksReads hlen
  obtain ⟨mem', hskip', hmem⟩ := hparam.skipBlanks hlen
  obtain rfl : mem = mem' := Option.some.inj (hskip.symm.trans hskip')
  have hdrop : (param.dropWhile (· = 32)).length ≤ param.length := (List.dropWhile_suffix _).length_le
  have hcopy := hmem.strncpyReads_le 99 0 (Nat.zero_le _)
  rw [List.length_append, show [99, 97, 116, c].length = 4 from rfl]
  constructor
  · intro k hk
    have := hblanks k hk
    omega
  · intro k hk
    have := hcopy k hk
    rw [hcount]
    omega

/-- **A line that is not just `cat` is read up to its terminator.** -/
theorem commandParseReads_le (h : Spells input s) (hlen : s.length < 256) (hcat : s ≠ [99, 97, 116]) :
    ∀ k ∈ commandParseReads input, k ≤ s.length := by
  suffices hall : ∀ cs : List (List UInt8 × CommandType), (∀ c ∈ cs, c ∈ commands) →
      ∀ k ∈ wordReads input cs, k ≤ s.length from hall commands fun _ hc => hc
  intro cs
  induction cs with
  | nil => simp [wordReads]
  | cons c cs ih =>
    intro hcs
    have hc : c ∈ commands := hcs c List.mem_cons_self
    rw [wordReads, List.forall_mem_append]
    refine ⟨h.strncmpReads_le _ _, ?_⟩
    split
    · next hzero =>
      split
      · next htype =>
        have hprefix := (strncmp_command h hc).mp hzero
        have hword : c.1 = [99, 97, 116] := by
          have hall : ∀ c ∈ commands, c.2 = .cat → c.1 = [99, 97, 116] := by decide
          exact hall c hc htype
        rw [hword] at hprefix
        obtain ⟨rest, rfl⟩ := hprefix
        cases rest with
        | nil => exact absurd rfl hcat
        | cons d param =>
          have hparam : param.length < 252 := by
            simp at hlen
            omega
          obtain ⟨mem, hskip, -⟩ := (Spells.advance_length (s := [99, 97, 116, d]) h).skipBlanks hparam
          obtain ⟨hblanks, hcopy⟩ := catReads_le h hparam hskip
          rw [List.forall_mem_append, show skipBlanks 252 (advance input 4) = some mem from hskip]
          simp only [List.forall_mem_map]
          exact ⟨hblanks, hcopy⟩
      · simp
    · exact ih fun d hd => hcs d (List.mem_cons_of_mem _ hd)

/-- Two runs return the same type and the same parameter string. -/
def SameCommand (x y : Option Command) : Prop :=
  ∃ c d, x = some c ∧ y = some d ∧ c.type = d.type ∧ stringAt c.parameter 100 = stringAt d.parameter 100

/-- **When `Command_Parse` depends only on the line typed.** For a line that fits in the buffer: the command
is the same whatever is behind the line and on the stack, and no byte behind the terminator is read, if
and only if the line is not `cat` without a line end. -/
theorem commandParse_line_iff (line : List UInt8) (hline : ∀ c ∈ line, c ≠ 0) (hlen : line.length < 256) :
    (∀ input, Spells input line → (∀ k ∈ commandParseReads input, k ≤ line.length) ∧
        ∀ input', Spells input' line → ∀ stack stack',
          SameCommand (commandParse input stack) (commandParse input' stack')) ↔
      line ≠ [99, 97, 116] := by
  constructor
  · rintro h rfl
    have hread : (4 : ℤ) ∈ commandParseReads (literal [99, 97, 116]) := by decide
    have := (h _ (.literal hline)).1 4 hread
    simp at this
  · intro hcat input h
    refine ⟨commandParseReads_le h hlen hcat, fun input' h' stack stack' => ?_⟩
    obtain ⟨cmd, hcmd, htype, hparam⟩ := commandParse_line h hlen hcat stack
    obtain ⟨cmd', hcmd', htype', hparam'⟩ := commandParse_line h' hlen hcat stack'
    exact ⟨cmd, cmd', hcmd, hcmd', htype.trans htype'.symm, hparam.trans hparam'.symm⟩

/-- The line `cat` and Enter. -/
def catEnter : List UInt8 := [99, 97, 116, 10]

theorem commandParse_line_iff_cat :
    (∀ input, Spells input catEnter → (∀ k ∈ commandParseReads input, k ≤ catEnter.length) ∧
        ∀ input', Spells input' catEnter → ∀ stack stack',
          SameCommand (commandParse input stack) (commandParse input' stack')) ↔
      catEnter ≠ [99, 97, 116] :=
  commandParse_line_iff catEnter (by simp [catEnter]) (by decide)

/-- A buffer that holds `cat`, ended by a key without a character, over an earlier line. -/
def catOver (rest : List UInt8) : ℤ → UInt8 := literal ([99, 97, 116, 0] ++ rest)

/-- The remains `x` of an earlier line become the parameter. -/
theorem commandParse_remains :
    Spells (catOver []) [99, 97, 116] ∧ Spells (catOver [120]) [99, 97, 116] ∧
    (commandParse (catOver []) fun _ => 0).map (fun cmd => stringAt cmd.parameter 100) = some [] ∧
    (commandParse (catOver [120]) fun _ => 0).map (fun cmd => stringAt cmd.parameter 100) = some [120] ∧
    ¬ SameCommand (commandParse (catOver []) fun _ => 0) (commandParse (catOver [120]) fun _ => 0) := by
  have hspells : ∀ rest, Spells (catOver rest) [99, 97, 116] := by
    intro rest
    refine ⟨fun k hk => ?_, by simp, rfl⟩
    match k, hk with
    | 0, _ => rfl
    | 1, _ => rfl
    | 2, _ => rfl
  have hempty : (commandParse (catOver []) fun _ => 0).map (fun cmd => stringAt cmd.parameter 100) =
      some [] := by decide +kernel
  have hrest : (commandParse (catOver [120]) fun _ => 0).map (fun cmd => stringAt cmd.parameter 100) =
      some [120] := by decide +kernel
  refine ⟨hspells [], hspells [120], hempty, hrest, ?_⟩
  rintro ⟨c, d, hc, hd, -, heq⟩
  rw [hc, Option.map_some] at hempty
  rw [hd, Option.map_some, ← heq, hempty] at hrest
  cases hrest

end Reads

end ArcOS.Kernel
