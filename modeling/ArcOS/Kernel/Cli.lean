import ArcOS.Boot.MemoryMap
import ArcOS.Fat.Layers
import ArcOS.Kernel.Commands
import ArcOS.Stdio.Printf

/-!
The shell of the kernel, `Command_Line_Interface`, from the keys to the commands.

The shell reads a line into one buffer, parses it where it lies, and carries the command out. Against it
stands a session that has no buffer: it is given the lines, and parses each by its characters. While keys
are pressed and the shell reads, in any order, the shell has done what the session does on the complete lines
among the characters read so far (`commandLineInterface_serves`): no line changes what another one does.
-/

namespace ArcOS.Kernel.Cli

open Fat Lib Stdio

/-! ### `cli.c` -/

/-- `BootParams` -/
structure BootParams where
  bootDevice : UInt8
  memory : Boot.MemoryInfo

/-- What the shell does, next to what the FAT layer prints. -/
inductive Act where
  | print (text : List UInt8)
  | readDirectory (path : List UInt8)
  | readFile (path : List UInt8)
  | clrscr
  | outw (port value : UInt16)

/-- What the shell is given, and what the stack holds in each round where `Command_Parse` puts its parameter and
`FAT_Open` its name. -/
structure Shell where
  bootParams : BootParams
  dev : Device
  part : Partition
  fuel : ℕ
  stack : ℕ → ℤ → UInt8
  name : ℕ → NameBuffer

/-- Where the shell stops: in the FAT layer, or when the parser runs out of its buffer. -/
inductive Halt where
  | fat (stop : Fat.Stop)
  | parser
  | rounds

/-- `help` -/
def help : List Act :=
  [.print (printed "Available commands:\n" []),
   .print (printed "  help  - Display this help message\n" []),
   .print (printed "  info  - Display important information\n" []),
   .print (printed "  ls    - Display a directory\n" []),
   .print (printed "  cat <filepath> - Display the contents of the specified file\n" []),
   .print (printed "  clear - Clear the screen\n" []),
   .print (printed "  exit  - Exit the OS\n" [])]

/-- `info` -/
def info (bootParams : BootParams) (part : Partition) : List Act :=
  let memory := (List.range bootParams.memory.regionCount).map fun i =>
    let region := bootParams.memory.regions i
    Act.print (printed "MEM: start=0x%llx length=0x%llx type=%x\n"
      [.longLong region.begin, .longLong region.length, .int region.type])
  [.print (printed "ArcOS v0.1\n" []), .print (printed "This operating system is under construction.\n" [])] ++
    memory ++
    [.print (printed "DISK: id=%u cylinders=%u heads=%u sectors=%u\n"
      [.int part.disk.id.toUInt32, .int part.disk.cylinders.toUInt32, .int part.disk.heads.toUInt32,
        .int part.disk.sectors.toUInt32]),
     .print (printed "MBR: partitionOffset=%u partitionSize=%u\n"
      [.int part.partitionOffset, .int part.partitionSize])]

namespace Shell

variable (sh : Shell)

/-- A call of the FAT layer, as something that is done. -/
def fatCall (act : Act) (call : Fat.St → Except Fat.Stop Unit × Fat.St) (s : Fat.St × List Act) :
    Except Halt (Fat.St × List Act) :=
  match call s.1 with
  | (.ok (), t) => .ok (t, s.2 ++ [act])
  | (.error stop, _) => .error (.fat stop)

/-- The `switch` of `Command_Line_Interface`, in round `n`, on the strings in `cmd.parameter` and `buffer` -/
def execute (n : ℕ) (type : CommandType) (parameter buffer : List UInt8) (s : Fat.St × List Act) :
    Except Halt (Fat.St × List Act) :=
  match type with
  | .help => .ok (s.1, s.2 ++ help)
  | .info => .ok (s.1, s.2 ++ info sh.bootParams sh.part)
  | .ls => fatCall (.readDirectory [47]) (fatReadDirectory sh.dev sh.part sh.fuel [47] (sh.name n)) s
  | .cat => fatCall (.readFile parameter) (fatReadFile sh.dev sh.part sh.fuel parameter (sh.name n)) s
  | .clear => .ok (s.1, s.2 ++ [.clrscr])
  | .exit => .ok (s.1, s.2 ++ [.outw 0x604 0x2000])
  | .unknown => .ok (s.1, s.2 ++ [.print (printed "Unknown command: %s" [.string buffer])])

end Shell

/-- The loop of `fgets` on the characters that `i686_IRQ_ReadChar` returns, with the characters it leaves;
`none` while it waits for one more. -/
def fgetsRest (n : ℤ) : List UInt8 → LineState → Option (LineState × List UInt8)
  | [], s => if s.i < n - 1 then none else some (s, [])
  | c :: cs, s =>
    if s.i < n - 1 then
      if c = 10 ∨ c = 13 then some (s.put c, cs)
      else if c = 8 then fgetsRest n cs (if s.i > 0 then { s with i := s.i - 1 } else s)
      else fgetsRest n cs (s.put c)
    else some (s, c :: cs)

/-- The loop of `Command_Line_Interface` from round `n` on, with the rounds it is given: what it has done when it
waits for a character -/
def shellLoop (sh : Shell) : ℕ → ℕ → List UInt8 → (ℤ → UInt8) → Fat.St × List Act →
    Except Halt (Fat.St × List Act)
  | 0, _, _, _, _ => .error .rounds
  | rounds + 1, n, cs, buffer, s =>
    let s := (s.1, s.2 ++ [.print (printed "> " [])])
    match fgetsRest 256 cs ⟨buffer, 0⟩ with
    | none => .ok s
    | some (line, cs) =>
      let buffer := Function.update line.str line.i 0
      match commandParse buffer (sh.stack n) with
      | none => .error .parser
      | some cmd =>
        match sh.execute n cmd.type (stringAt cmd.parameter 100) (stringAt buffer 256) s with
        | .ok s => shellLoop sh rounds (n + 1) cs buffer s
        | .error halt => .error halt

/-- `Command_Line_Interface` -/
def commandLineInterface (sh : Shell) (rounds : ℕ) (cs : List UInt8) (buffer : ℤ → UInt8) (fat : Fat.St) :
    Except Halt (Fat.St × List Act) :=
  shellLoop sh rounds 0 cs buffer (fat, [.print (printed "Type 'help' for a list of commands.\n" [])])

/-! ### A session without a buffer -/

/-- The session from line `n` on. -/
def sessionFrom (sh : Shell) : ℕ → List (List UInt8) → Fat.St × List Act → Except Halt (Fat.St × List Act)
  | _, [], s => .ok (s.1, s.2 ++ [.print (printed "> " [])])
  | n, line :: lines, s =>
    match sh.execute n (recognised line) (parameterOf line) line (s.1, s.2 ++ [.print (printed "> " [])]) with
    | .ok s => sessionFrom sh (n + 1) lines s
    | .error halt => .error halt

/-- What a list of lines does. -/
def session (sh : Shell) (lines : List (List UInt8)) (fat : Fat.St) : Except Halt (Fat.St × List Act) :=
  sessionFrom sh 0 lines (fat, [.print (printed "Type 'help' for a list of commands.\n" [])])

/-! ### One line -/

lemma fgetsRest_eq (n : ℤ) : ∀ (cs : List UInt8) (s : LineState),
    (fgetsRest n cs s).map Prod.fst = fgetsLoop n cs s := by
  intro cs
  induction cs with
  | nil =>
    intro s
    rw [fgetsRest, fgetsLoop]
    split <;> rfl
  | cons c cs ih =>
    intro s
    rw [fgetsRest, fgetsLoop]
    split
    · split
      · rfl
      · split
        · exact ih _
        · exact ih _
    · rfl

/-- The line counted with the keys without a character has room in the buffer throughout. -/
def Roomy (body : List UInt8) : Prop := ∀ m ≤ body.length, (typedCount (body.take m) : ℤ) < 256 - 1

section Line

variable {body rest line : List UInt8} {s : LineState}

lemma index_lt (h : Shows s line)
    (hroom : ∀ m ≤ body.length, (((body.take m).foldl edit line).length : ℤ) < 256 - 1) : s.i < 256 - 1 := by
  rw [h.length]
  exact hroom 0 (Nat.zero_le _)

lemma fgetsRest_cons {c : UInt8} (hc : ¬ (c = 10 ∨ c = 13)) (h : Shows s line) (hlt : s.i < 256 - 1)
    (cs : List UInt8) : ∃ s', Shows s' (edit line c) ∧ fgetsRest 256 (c :: cs) s = fgetsRest 256 cs s' := by
  rw [fgetsRest, if_pos hlt, if_neg hc, edit]
  by_cases hback : c = 8
  · rw [if_pos hback, if_pos hback]
    exact ⟨_, h.back, rfl⟩
  · rw [if_neg hback, if_neg hback]
    exact ⟨_, h.put c, rfl⟩

variable (rest) in
lemma fgetsRest_body (hbody : ∀ c ∈ body, ¬ (c = 10 ∨ c = 13)) (h : Shows s line)
    (hroom : ∀ m ≤ body.length, (((body.take m).foldl edit line).length : ℤ) < 256 - 1) :
    ∃ s', s'.i < 256 - 1 ∧ fgetsRest 256 (body ++ rest) s = fgetsRest 256 rest s' := by
  induction body generalizing s line with
  | nil => exact ⟨s, index_lt h hroom, rfl⟩
  | cons c body ih =>
    obtain ⟨t, ht, hstep⟩ := fgetsRest_cons (hbody c List.mem_cons_self) h (index_lt h hroom) (body ++ rest)
    obtain ⟨s', hlt, hrun⟩ := ih (fun d hd => hbody d (List.mem_cons_of_mem c hd)) ht
      fun m hm => hroom (m + 1) (by simpa using hm)
    exact ⟨s', hlt, hstep.trans hrun⟩

variable (rest) in
lemma fgetsRest_line (hbody : ∀ c ∈ body, ¬ (c = 10 ∨ c = 13)) (hroom : Roomy body) (buffer : ℤ → UInt8) :
    ∃ s', fgetsRest 256 (body ++ 10 :: rest) ⟨buffer, 0⟩ = some (s', rest) := by
  obtain ⟨t, hlt, hrun⟩ := fgetsRest_body (10 :: rest) hbody (Shows.nil buffer) fun m hm => by
    rw [foldl_edit_length]
    exact hroom m hm
  exact ⟨t.put 10, by rw [hrun, fgetsRest, if_pos hlt, if_pos (.inl rfl)]⟩

lemma fgetsRest_waits (hbody : ∀ c ∈ body, ¬ (c = 10 ∨ c = 13)) (hroom : Roomy body) (buffer : ℤ → UInt8) :
    fgetsRest 256 body ⟨buffer, 0⟩ = none := by
  obtain ⟨t, hlt, hrun⟩ := fgetsRest_body [] hbody (Shows.nil buffer) fun m hm => by
    rw [foldl_edit_length]
    exact hroom m hm
  rw [List.append_nil] at hrun
  rw [hrun, fgetsRest, if_pos hlt]

/-- The line that the buffer holds then. -/
lemma buffer_spells (hbody : ∀ c ∈ body, ¬ (c = 10 ∨ c = 13)) (h : Editable 256 body) {buffer : ℤ → UInt8}
    {s' : LineState} (hrun : fgetsRest 256 (body ++ 10 :: rest) ⟨buffer, 0⟩ = some (s', rest)) :
    Spells (Function.update s'.str s'.i 0) (expectedLine body ++ [10]) ∧
      (expectedLine body ++ [10]).length < 256 := by
  have hlen := length_expectedLine_le body
  have hroom := h.room body.length le_rfl
  rw [List.take_length] at hroom
  have hloop : fgetsLoop 256 (body ++ [10] ++ rest) ⟨buffer, 0⟩ = some s' := by
    rw [← fgetsRest_eq, List.append_assoc, List.singleton_append, hrun]
    rfl
  obtain ⟨t, line', hline, hshows, ⟨-, rfl⟩ | ⟨hfull, -⟩⟩ := fgetsLoop_line (n := 256) (e := 10) (.inl rfl) hbody
    (Shows.nil buffer)
  · have hsame : t = s' := by
      have hall := fgetsLoop_append hline rest
      rw [hloop] at hall
      exact (Option.some.inj hall).symm
    have hedited : body.foldl edit [] = expectedLine body := edited_of_cleared h.cleared
    rw [hsame, hedited] at hshows
    refine ⟨⟨fun k hk => ?_, ?_, ?_⟩, ?_⟩
    · rw [Function.update_of_ne (by rw [hshows.length]; omega)]
      exact hshows.bytes k hk
    · intro c hc hzero
      rcases List.mem_append.mp hc with hc | hc
      · exact zero_notMem_expectedLine body (hzero ▸ hc)
      · rw [List.mem_singleton.mp hc] at hzero
        exact absurd hzero (by decide)
    · rw [← hshows.length, Function.update_self]
    · rw [List.length_append, List.length_singleton]
      omega
  · refine absurd (fun m hm => ?_) hfull
    rw [foldl_edit_length]
    exact h.room m hm

end Line

/-! ### Many lines -/

/-- The shell on the characters of some lines, and on those of one that is not complete. -/
lemma shellLoop_lines (sh : Shell) {last : List UInt8} (hlast : ∀ c ∈ last, ¬ (c = 10 ∨ c = 13))
    (hroom : Roomy last) :
    ∀ {bodies : List (List UInt8)} {rounds n : ℕ} {buffer : ℤ → UInt8} {s : Fat.St × List Act},
      (∀ body ∈ bodies, (∀ c ∈ body, ¬ (c = 10 ∨ c = 13)) ∧ Editable 256 body) → bodies.length < rounds →
      shellLoop sh rounds n (bodies.flatMap (· ++ [10]) ++ last) buffer s =
        sessionFrom sh n (bodies.map fun body => expectedLine body ++ [10]) s := by
  intro bodies
  induction bodies with
  | nil =>
    intro rounds n buffer s _ hrounds
    obtain ⟨rounds, rfl⟩ : ∃ left, rounds = left + 1 := ⟨rounds - 1, by omega⟩
    rw [List.flatMap_nil, List.nil_append, shellLoop, fgetsRest_waits hlast hroom]
    rfl
  | cons body bodies ih =>
    intro rounds n buffer s hbodies hrounds
    obtain ⟨rounds, rfl⟩ : ∃ left, rounds = left + 1 := ⟨rounds - 1, by omega⟩
    obtain ⟨hbody, heditable⟩ := hbodies body List.mem_cons_self
    have hchars : (body :: bodies).flatMap (· ++ [10]) ++ last =
        body ++ 10 :: (bodies.flatMap (· ++ [10]) ++ last) := by
      simp
    obtain ⟨s', hread⟩ := fgetsRest_line (bodies.flatMap (· ++ [10]) ++ last) hbody heditable.room buffer
    obtain ⟨hspells, hlen⟩ := buffer_spells hbody heditable hread
    have hcat : expectedLine body ++ [10] ≠ [99, 97, 116] := by
      intro heq
      have hend := congrArg List.getLast? heq
      simp at hend
    obtain ⟨cmd, hparse, htype, hparameter⟩ := commandParse_line hspells hlen hcat (sh.stack n)
    have hline := hspells.stringAt hlen
    have hrest : ∀ t, shellLoop sh rounds (n + 1) (bodies.flatMap (· ++ [10]) ++ last)
        (Function.update s'.str s'.i 0) t =
          sessionFrom sh (n + 1) (bodies.map fun body => expectedLine body ++ [10]) t :=
      fun t => ih (fun b hb => hbodies b (List.mem_cons_of_mem _ hb)) (by simpa using hrounds)
    rw [hchars, shellLoop, hread, List.map_cons, sessionFrom]
    simp only [hparse, htype, hparameter, hline, hrest]

lemma prefix_lines {last : List UInt8} (hlast : 10 ∉ last) (hroom : Roomy last) :
    ∀ {bodies : List (List UInt8)} {l : List UInt8}, (∀ body ∈ bodies, 10 ∉ body ∧ Roomy body) →
      l <+: bodies.flatMap (· ++ [10]) ++ last →
      ∃ part, l = (bodies.take (l.count 10)).flatMap (· ++ [10]) ++ part ∧ 10 ∉ part ∧ Roomy part := by
  have hpart : ∀ {body l : List UInt8}, 10 ∉ body → Roomy body → l <+: body → 10 ∉ l ∧ Roomy l := by
    intro body l hbody hroom hl
    obtain ⟨rest, rfl⟩ := hl
    refine ⟨fun h => hbody (List.mem_append_left _ h), fun m hm => ?_⟩
    have hle := hroom m (by simp; omega)
    rwa [List.take_append_of_le_length hm] at hle
  intro bodies
  induction bodies with
  | nil =>
    intro l _ hl
    have := hpart hlast hroom (by simpa using hl)
    exact ⟨l, by simp, this.1, this.2⟩
  | cons body bodies ih =>
    intro l hbodies hl
    obtain ⟨hbody, hbodyRoom⟩ := hbodies body List.mem_cons_self
    have hall : (body :: bodies).flatMap (· ++ [10]) ++ last =
        (body ++ [10]) ++ (bodies.flatMap (· ++ [10]) ++ last) := by
      simp
    rw [hall] at hl
    rcases List.prefix_or_prefix_of_prefix hl (List.prefix_append _ _) with hbefore | ⟨l', rfl⟩
    · rcases List.prefix_concat_iff.mp hbefore with rfl | hbefore
      · refine ⟨[], ?_, by simp, fun m hm => ?_⟩
        · have hcount : (body ++ [10]).count 10 = 1 := by
            rw [List.count_append, List.count_eq_zero.mpr hbody]
            rfl
          rw [hcount]
          simp
        · simp [typedCount]
      · obtain ⟨hno, hroom'⟩ := hpart hbody hbodyRoom hbefore
        refine ⟨l, ?_, hno, hroom'⟩
        rw [List.count_eq_zero.mpr hno]
        simp
    · have hl' : l' <+: bodies.flatMap (· ++ [10]) ++ last := (List.prefix_append_right_inj _).mp hl
      obtain ⟨part, heq, hno, hroom'⟩ := ih (fun b hb => hbodies b (List.mem_cons_of_mem _ hb)) hl'
      refine ⟨part, ?_, hno, hroom'⟩
      have hcount : (body ++ [10] ++ l').count 10 = l'.count 10 + 1 := by
        rw [List.count_append, List.count_append, List.count_eq_zero.mpr hbody, Nat.add_comm]
        rfl
      rw [hcount, List.take_succ_cons, List.flatMap_cons, List.append_assoc (body ++ [10]), ← heq]

/-- **The shell serves the complete lines.** At any moment of any run of key interrupts and of reads of the
shell in which the ring drops no key, the shell has done what the session does on the lines whose line end it has
read: one command a line, in their order, whatever the buffer and the stack hold from the lines before. -/
theorem commandLineInterface_serves {es : List Event} (hdrop : NoDrop es) {bodies : List (List UInt8)}
    {last : List UInt8} (htyped : pressed es = bodies.flatMap (· ++ [10]) ++ last)
    (hbodies : ∀ body ∈ bodies, 10 ∉ body ∧ Editable 256 body) (hlast : 10 ∉ last ∧ Roomy last) (sh : Shell)
    {rounds : ℕ} (hrounds : bodies.length < rounds) (buffer : ℤ → UInt8) (fat : Fat.St) :
    let read := (keyboardAfter es).returned
    commandLineInterface sh rounds read buffer fat =
      session sh ((bodies.take (read.count 10)).map fun body => expectedLine body ++ [10]) fat := by
  intro read
  have hread : read <+: pressed es := by
    rw [← enqueued_pressed hdrop]
    exact (keyboardAfter_kept es).fifo
  have hlines : ∀ c ∈ pressed es, ¬ c = 13 := fun c hc => pressed_ne_return hc
  obtain ⟨part, heq, hno, hroom⟩ := prefix_lines hlast.1 hlast.2
    (fun body hb => ⟨(hbodies body hb).1, (hbodies body hb).2.room⟩) (htyped ▸ hread)
  have hpart : ∀ c ∈ part, ¬ (c = 10 ∨ c = 13) := by
    rintro c hc (rfl | rfl)
    · exact hno hc
    · refine hlines 13 (hread.subset ?_) rfl
      rw [heq]
      exact List.mem_append_right _ hc
  have hwhole : ∀ body ∈ bodies.take (read.count 10), (∀ c ∈ body, ¬ (c = 10 ∨ c = 13)) ∧ Editable 256 body := by
    intro body hb
    have hmem := List.mem_of_mem_take hb
    refine ⟨?_, (hbodies body hmem).2⟩
    rintro c hc (rfl | rfl)
    · exact (hbodies body hmem).1 hc
    · refine hlines 13 ?_ rfl
      rw [htyped]
      exact List.mem_append_left _ (List.mem_flatMap.mpr ⟨body, hmem, List.mem_append_left _ hc⟩)
  have hcount : (bodies.take (read.count 10)).length < rounds :=
    (List.length_take_le' _ _).trans_lt hrounds
  rw [commandLineInterface, session]
  conv_lhs => rw [heq]
  exact shellLoop_lines sh hpart hroom hwhole hcount

/-- A shell on an empty disk. -/
def emptyShell : Shell where
  bootParams := ⟨0x80, ⟨0, fun _ => ⟨0, 0, 0, 0⟩⟩⟩
  dev := .ofDisk fun _ _ => 0
  part := ⟨⟨0x80, 4, 63, 16⟩, 2048, 4096⟩
  fuel := 10
  stack _ _ := 0
  name _ _ := 0

/-- L, S, Enter, H: the shell has listed the root directory and waits for the rest of the second line. -/
theorem commandLineInterface_serves_ls :
    let read := (keyboardAfter (typedRun [38, 31, 28, 35])).returned
    commandLineInterface emptyShell 2 read (fun _ => 0) .start =
      session emptyShell (([[108, 115]].take (read.count 10)).map fun body => expectedLine body ++ [10])
        .start := by
  have hdrop : NoDrop (typedRun [38, 31, 28, 35]) := by
    simp only [NoDrop, typedRun]
    exact ⟨rfl, rfl, rfl, rfl, rfl, rfl, rfl, rfl, rfl, rfl, rfl, rfl, rfl, rfl, rfl, rfl, trivial⟩
  have htyped : pressed (typedRun [38, 31, 28, 35]) = [[108, 115]].flatMap (· ++ [10]) ++ [104] := by
    decide +kernel
  have hline : ∀ body ∈ [[108, 115]], 10 ∉ body ∧ Editable 256 body := by
    intro body hbody
    rw [List.mem_singleton.mp hbody]
    exact ⟨by decide, by decide, cleared_of_length (by decide)⟩
  have hlast : 10 ∉ [(104 : UInt8)] ∧ Roomy [104] := ⟨by decide, by unfold Roomy; decide⟩
  exact commandLineInterface_serves hdrop htyped hline hlast emptyShell (by decide) _ _

end ArcOS.Kernel.Cli
