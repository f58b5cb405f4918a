import ArcOS.Kernel.Keyboard

/-!
The line editor `fgets` on the characters the keyboard returns.

What `fgets` keeps in `str[0..i)` is the edited line (`edit`): a Backspace drops the last character,
every other character is appended, the zero of a key without a character included. The delivered
string ends at the first zero, so a key without a character matters unless it is erased again; it is
erased exactly when the line so counted is empty at some later moment (`Cleared`).
-/

namespace ArcOS.Kernel

open Lib Lib.Transducer

/-! ### `fgets` -/

/-- The string buffer and `i`. -/
structure LineState where
  str : ℤ → UInt8
  i : ℤ

/-- `str[i++] = c` -/
def LineState.put (s : LineState) (c : UInt8) : LineState :=
  ⟨Function.update s.str s.i c, s.i + 1⟩

/-- The loop of `fgets` on the characters `i686_IRQ_ReadChar` returns; `none` while it waits for one
more. -/
def fgetsLoop (n : ℤ) : List UInt8 → LineState → Option LineState
  | [], s => if s.i < n - 1 then none else some s
  | c :: cs, s =>
    if s.i < n - 1 then
      if c = 10 ∨ c = 13 then some (s.put c) -- '\n' or '\r'
      else if c = 8 then -- '\b'
        fgetsLoop n cs (if s.i > 0 then { s with i := s.i - 1 } else s)
      else fgetsLoop n cs (s.put c)
    else some s

/-- `fgets`: whether it returns `str` or `NULL`, and the string buffer -/
def fgets (str : ℤ → UInt8) (n : ℤ) (cs : List UInt8) : Option (Bool × (ℤ → UInt8)) :=
  if n ≤ 0 then some (false, str)
  else (fgetsLoop n cs ⟨str, 0⟩).map fun s => (decide (s.i > 0), Function.update s.str s.i 0)

/-- The C string at `str`, in a buffer of `n` bytes. -/
def stringAt (str : ℤ → UInt8) (n : ℕ) : List UInt8 :=
  ((List.range n).map fun k : ℕ => str k).takeWhile (· ≠ 0)

/-! ### The edited line -/

/-- A character typed on a line. -/
def edit (line : List UInt8) (c : UInt8) : List UInt8 :=
  if c = 8 then line.dropLast else line ++ [c]

/-- The line the characters leave. -/
def edited (cs : List UInt8) : List UInt8 := cs.foldl edit []

/-- The buffer holds the line. -/
structure Shows (s : LineState) (text : List UInt8) : Prop where
  length : s.i = text.length
  bytes : ∀ k (h : k < text.length), s.str k = text[k]

section Edit

variable {s : LineState} {line : List UInt8}

lemma Shows.nil (str : ℤ → UInt8) : Shows ⟨str, 0⟩ [] := ⟨rfl, fun _ h => by simp at h⟩

lemma Shows.put (h : Shows s line) (c : UInt8) : Shows (s.put c) (line ++ [c]) := by
  refine ⟨by simp [LineState.put, h.length], fun k hk => ?_⟩
  simp only [LineState.put, h.length]
  rcases Nat.lt_or_ge k line.length with hlt | hge
  · rw [Function.update_of_ne (by omega), List.getElem_append_left hlt]
    exact h.bytes k hlt
  · have hk' : k = line.length := by
      simp only [List.length_append, List.length_singleton] at hk
      omega
    subst hk'
    simp

lemma Shows.back (h : Shows s line) :
    Shows (if s.i > 0 then { s with i := s.i - 1 } else s) line.dropLast := by
  have hlen := h.length
  split
  · rename_i hpos
    refine ⟨?_, fun k hk => ?_⟩
    · simp only [List.length_dropLast]
      omega
    · rw [List.getElem_dropLast]
      exact h.bytes k _
  · have hnil : line = [] := List.length_eq_zero_iff.mp (by omega)
    subst hnil
    exact h

lemma mem_edit {c d : UInt8} (h : d ∈ edit line c) : d ∈ line ∨ d = c := by
  unfold edit at h
  split at h
  · exact Or.inl (List.mem_of_mem_dropLast h)
  · rcases List.mem_append.mp h with h | h
    · exact Or.inl h
    · exact Or.inr (List.mem_singleton.mp h)

lemma prefixes_cons {n : ℤ} (c : UInt8) (body : List UInt8) (hline : (line.length : ℤ) < n - 1) :
    (∀ m ≤ (c :: body).length, ((((c :: body).take m).foldl edit line).length : ℤ) < n - 1) ↔
      ∀ m ≤ body.length, (((body.take m).foldl edit (edit line c)).length : ℤ) < n - 1 := by
  constructor
  · intro hall m hm
    exact hall (m + 1) (by simpa using hm)
  · intro hall m hm
    cases m with
    | zero => simpa using hline
    | succ m => exact hall m (by simpa using hm)

/-- **The loop of `fgets`**, up to the line end: it leaves the edited line with the line end, or it
stopped before, when the buffer was full, and leaves a line of the characters before. -/
theorem fgetsLoop_line {n : ℤ} {e : UInt8} (he : e = 10 ∨ e = 13) {body : List UInt8}
    (hbody : ∀ c ∈ body, ¬ (c = 10 ∨ c = 13)) (h : Shows s line) :
    ∃ s' line', fgetsLoop n (body ++ [e]) s = some s' ∧ Shows s' line' ∧
      ((∀ m ≤ body.length, (((body.take m).foldl edit line).length : ℤ) < n - 1) ∧
          line' = body.foldl edit line ++ [e] ∨
        ¬ (∀ m ≤ body.length, (((body.take m).foldl edit line).length : ℤ) < n - 1) ∧
          ∀ c ∈ line', c ∈ line ∨ c ∈ body) := by
  induction body generalizing s line with
  | nil =>
    rw [List.nil_append, fgetsLoop]
    by_cases hi : s.i < n - 1
    · rw [if_pos hi, if_pos he]
      refine ⟨_, _, rfl, h.put e, Or.inl ⟨fun m _ => ?_, rfl⟩⟩
      have := h.length
      simp only [List.take_nil, List.foldl_nil]
      omega
    · rw [if_neg hi]
      refine ⟨_, _, rfl, h, Or.inr ⟨fun hall => hi ?_, fun c hc => Or.inl hc⟩⟩
      rw [h.length]
      exact hall 0 le_rfl
  | cons c body ih =>
    have hc := hbody c List.mem_cons_self
    have hbody' : ∀ d ∈ body, ¬ (d = 10 ∨ d = 13) := fun d hd =>
      hbody d (List.mem_cons_of_mem _ hd)
    rw [List.cons_append, fgetsLoop]
    by_cases hi : s.i < n - 1
    · obtain ⟨s₁, hs₁, hloop⟩ : ∃ s₁, Shows s₁ (edit line c) ∧
          (if c = 8 then fgetsLoop n (body ++ [e]) (if s.i > 0 then { s with i := s.i - 1 } else s)
            else fgetsLoop n (body ++ [e]) (s.put c)) = fgetsLoop n (body ++ [e]) s₁ := by
        by_cases h8 : c = 8
        · exact ⟨_, by rw [edit, if_pos h8]; exact h.back, if_pos h8⟩
        · exact ⟨_, by rw [edit, if_neg h8]; exact h.put c, if_neg h8⟩
      rw [if_pos hi, if_neg hc, hloop]
      obtain ⟨s', line', h1, h2, h3⟩ := ih hbody' hs₁
      have hsplit := prefixes_cons c body (by rw [← h.length]; exact hi)
      refine ⟨s', line', h1, h2, ?_⟩
      rcases h3 with ⟨hall, hline⟩ | ⟨hnot, hmem⟩
      · exact Or.inl ⟨hsplit.mpr hall, hline⟩
      · refine Or.inr ⟨mt hsplit.mp hnot, fun d hd => ?_⟩
        rcases hmem d hd with hd | hd
        · exact (mem_edit hd).imp_right fun hdc => List.mem_cons.mpr (Or.inl hdc)
        · exact Or.inr (List.mem_cons_of_mem _ hd)
    · rw [if_neg hi]
      refine ⟨_, _, rfl, h, Or.inr ⟨fun hall => hi ?_, fun d hd => Or.inl hd⟩⟩
      rw [h.length]
      exact hall 0 (Nat.zero_le _)

/-- Characters that come later do not matter once the loop has ended. -/
lemma fgetsLoop_append {n : ℤ} {cs : List UInt8} {s' : LineState} (h : fgetsLoop n cs s = some s')
    (later : List UInt8) : fgetsLoop n (cs ++ later) s = some s' := by
  induction cs generalizing s with
  | nil =>
    rw [fgetsLoop] at h
    split at h
    · cases h
    · rename_i hi
      cases later with
      | nil => rw [List.append_nil, fgetsLoop, if_neg hi, h]
      | cons c later => rw [List.nil_append, fgetsLoop, if_neg hi, h]
  | cons c cs ih =>
    rw [fgetsLoop] at h
    rw [List.cons_append, fgetsLoop]
    split at h
    · rename_i hi
      rw [if_pos hi]
      split at h
      · rename_i hc
        rw [if_pos hc, h]
      · rename_i hc
        rw [if_neg hc]
        split at h
        · rename_i h8
          rw [if_pos h8]
          exact ih h
        · rename_i h8
          rw [if_neg h8]
          exact ih h
    · rename_i hi
      rw [if_neg hi, h]

lemma fgets_append {str : ℤ → UInt8} {n : ℤ} {cs : List UInt8} {res : Bool × (ℤ → UInt8)}
    (h : fgets str n cs = some res) (later : List UInt8) :
    fgets str n (cs ++ later) = some res := by
  unfold fgets at h ⊢
  split at h
  · rename_i hn
    rw [if_pos hn, h]
  · rename_i hn
    obtain ⟨s', hs', rfl⟩ := Option.map_eq_some_iff.mp h
    rw [if_neg hn, fgetsLoop_append hs' later, Option.map_some]

lemma fgetsLoop_index {n : ℤ} {cs : List UInt8} {s' : LineState}
    (h : fgetsLoop n cs s = some s') (hi : s.i ≤ n - 1) : s'.i ≤ n - 1 := by
  induction cs generalizing s with
  | nil =>
    rw [fgetsLoop] at h
    split at h
    · cases h
    · cases h
      exact hi
  | cons c cs ih =>
    rw [fgetsLoop] at h
    split at h
    · rename_i hlt
      split at h
      · cases h
        simp only [LineState.put]
        omega
      · split at h
        · apply ih h
          split
          · simp only
            omega
          · exact hi
        · apply ih h
          simp only [LineState.put]
          omega
    · cases h
      exact hi

lemma takeWhile_zero (line rest : List UInt8) :
    (line ++ 0 :: rest).takeWhile (· ≠ 0) = line.takeWhile (· ≠ 0) := by
  induction line with
  | nil => rfl
  | cons c line ih =>
    rw [List.cons_append, List.takeWhile_cons, List.takeWhile_cons, ih]

lemma Shows.stringAt (h : Shows s line) {n : ℕ} (hn : line.length < n) :
    stringAt (Function.update s.str s.i 0) n = line.takeWhile (· ≠ 0) := by
  obtain ⟨m, rfl⟩ : ∃ m, n = line.length + (m + 1) := ⟨n - line.length - 1, by omega⟩
  have hline : (List.range line.length).map
      (fun k : ℕ => Function.update s.str s.i 0 (k : ℤ)) = line := by
    apply List.ext_getElem
    · simp
    · intro k h1 h2
      rw [List.getElem_map, List.getElem_range, Function.update_of_ne (by rw [h.length]; omega)]
      exact h.bytes k h2
  unfold Kernel.stringAt
  rw [List.range_add, List.map_append, hline, List.range_succ_eq_map, List.map_cons, List.map_cons,
    Nat.add_zero, ← h.length, Function.update_self, takeWhile_zero]

end Edit

/-! ### Keys without a character -/

/-- The number of characters of the line: a Backspace takes one off, every other key adds one. -/
def typedCount (cs : List UInt8) : ℕ := cs.foldl (fun k c => if c = 8 then k - 1 else k + 1) 0

/-- After every key without a character the line is empty at some moment. -/
def Cleared (body : List UInt8) : Prop :=
  ∀ k < body.length, body[k]? = some 0 → ∃ m ≤ body.length, k < m ∧ typedCount (body.take m) = 0

/-- The line counted with the keys without a character has room in a buffer of `n` bytes throughout,
and such keys are erased again. -/
structure Editable (n : ℤ) (body : List UInt8) : Prop where
  room : ∀ m ≤ body.length, (typedCount (body.take m) : ℤ) < n - 1
  cleared : Cleared body

/-- The line that the keys with a character leave. -/
def expectedLine (cs : List UInt8) : List UInt8 := edited (cs.filter (· ≠ 0))

section Keyless

variable {body : List UInt8}

lemma edited_snoc (cs : List UInt8) (c : UInt8) : edited (cs ++ [c]) = edit (edited cs) c := by
  simp [edited]

lemma typedCount_snoc (cs : List UInt8) (c : UInt8) :
    typedCount (cs ++ [c]) = if c = 8 then typedCount cs - 1 else typedCount cs + 1 := by
  simp [typedCount]

lemma length_edited (cs : List UInt8) : (edited cs).length = typedCount cs := by
  induction cs using List.reverseRecOn with
  | nil => rfl
  | append_singleton cs c ih =>
    rw [edited_snoc, typedCount_snoc, edit]
    split
    · rw [List.length_dropLast, ih]
    · rw [List.length_append, ih, List.length_singleton]

lemma expectedLine_snoc (cs : List UInt8) (c : UInt8) :
    expectedLine (cs ++ [c]) = if c = 0 then expectedLine cs else edit (expectedLine cs) c := by
  unfold expectedLine
  rw [List.filter_append]
  by_cases hc : c = 0
  · simp [hc]
  · rw [List.filter_cons_of_pos (by simpa using hc), List.filter_nil, edited_snoc, if_neg hc]

lemma zero_notMem_expectedLine (cs : List UInt8) : 0 ∉ expectedLine cs := by
  induction cs using List.reverseRecOn with
  | nil => simp [expectedLine, edited]
  | append_singleton cs c ih =>
    rw [expectedLine_snoc]
    by_cases hc : c = 0
    · rwa [if_pos hc]
    · rw [if_neg hc, edit]
      split
      · exact fun h => ih (List.mem_of_mem_dropLast h)
      · simp [ih, Ne.symm hc]

lemma length_expectedLine_le (cs : List UInt8) : (expectedLine cs).length ≤ typedCount cs := by
  induction cs using List.reverseRecOn with
  | nil => exact le_rfl
  | append_singleton cs c ih =>
    rw [expectedLine_snoc, typedCount_snoc]
    by_cases hc : c = 0
    · rw [if_pos hc, if_neg (by rw [hc]; decide)]
      omega
    · rw [if_neg hc, edit]
      split
      · rw [List.length_dropLast]
        omega
      · rw [List.length_append, List.length_singleton]
        omega

lemma cleared_snoc {c : UInt8} :
    Cleared (body ++ [c]) ↔ typedCount (body ++ [c]) = 0 ∨ c ≠ 0 ∧ Cleared body := by
  have hbefore : ∀ {m}, m ≤ body.length → (body ++ [c]).take m = body.take m :=
    fun hm => List.take_append_of_le_length hm
  constructor
  · intro h
    by_cases h0 : typedCount (body ++ [c]) = 0
    · exact Or.inl h0
    · -- the last moment is not an empty line, so every moment found is an earlier one
      have hlast : ∀ m ≤ (body ++ [c]).length, typedCount ((body ++ [c]).take m) = 0 →
          m ≤ body.length := by
        intro m hm hz
        by_contra hgt
        rw [List.take_of_length_le (by simp; omega)] at hz
        exact h0 hz
      refine Or.inr ⟨fun hc => ?_, fun k hk hzero => ?_⟩
      · obtain ⟨m, hm, hkm, hz⟩ := h body.length (by simp) (by simp [hc])
        have := hlast m hm hz
        omega
      · obtain ⟨m, hm, hkm, hz⟩ := h k (by simp; omega)
          (by rwa [List.getElem?_append_left hk])
        have hm' := hlast m hm hz
        rw [hbefore hm'] at hz
        exact ⟨m, hm', hkm, hz⟩
  · rintro (h0 | ⟨hc, h⟩) k hk hzero
    · exact ⟨_, le_rfl, hk, by rw [List.take_length]; exact h0⟩
    · have hk' : k < body.length := by
        by_contra hge
        have hlast : k = body.length := by
          simp only [List.length_append, List.length_singleton] at hk
          omega
        subst hlast
        simp only [List.getElem?_concat_length, Option.some.injEq] at hzero
        exact hc hzero
      rw [List.getElem?_append_left hk'] at hzero
      obtain ⟨m, hm, hkm, hz⟩ := h k hk' hzero
      exact ⟨m, by simp; omega, hkm, by rwa [hbefore hm]⟩

theorem edited_of_cleared (h : Cleared body) : edited body = expectedLine body := by
  induction body using List.reverseRecOn with
  | nil => rfl
  | append_singleton body c ih =>
    rcases cleared_snoc.mp h with h0 | ⟨hc, h⟩
    · have h1 : edited (body ++ [c]) = [] :=
        List.length_eq_zero_iff.mp ((length_edited _).trans h0)
      have h2 : expectedLine (body ++ [c]) = [] := by
        apply List.length_eq_zero_iff.mp
        have := length_expectedLine_le (body ++ [c])
        omega
      rw [h1, h2]
    · rw [edited_snoc, expectedLine_snoc, if_neg hc, ih h]

theorem cleared_of_length (h : typedCount body = (expectedLine body).length) : Cleared body := by
  induction body using List.reverseRecOn with
  | nil => exact fun k hk => absurd hk (Nat.not_lt_zero k)
  | append_singleton body c ih =>
    rw [cleared_snoc]
    by_contra hnot
    obtain ⟨h0, hc⟩ := not_or.mp hnot
    have hle := length_expectedLine_le body
    rw [typedCount_snoc] at h h0
    rw [expectedLine_snoc] at h
    by_cases hc0 : c = 0
    · rw [if_pos hc0, if_neg (by rw [hc0]; decide)] at h
      omega
    · apply hc
      refine ⟨hc0, ih ?_⟩
      rw [if_neg hc0, edit] at h
      split at h
      · rw [List.length_dropLast] at h
        rw [if_pos ‹_›] at h0
        omega
      · rw [List.length_append, List.length_singleton] at h
        omega

end Keyless

/-! ### The delivered line -/

lemma mem_edited {c : UInt8} {cs : List UInt8} (h : c ∈ edited cs) : c ∈ cs := by
  induction cs using List.reverseRecOn with
  | nil => cases h
  | append_singleton cs d ih =>
    rw [edited_snoc] at h
    rcases mem_edit h with h | rfl
    · exact List.mem_append_left _ (ih h)
    · exact List.mem_append_right _ List.mem_cons_self

lemma takeWhile_nonzero {line : List UInt8} (h : ∀ c ∈ line, c ≠ 0) :
    (line ++ [10]).takeWhile (· ≠ 0) = line ++ [10] := by
  rw [List.takeWhile_append_of_pos (by simpa using h)]
  rfl

lemma foldl_edit_length (body : List UInt8) (m : ℕ) :
    (((body.take m).foldl edit []).length : ℤ) = typedCount (body.take m) :=
  congrArg _ (length_edited (body.take m))

lemma keymap_ne_return (ioCode : UInt8) : keymap ioCode ≠ 13 := by
  have htable : ∀ c ∈ keymapTable, c ≠ 13 := by simp [keymapTable]
  unfold keymap
  rcases Nat.lt_or_ge ioCode.toNat keymapTable.length with hlt | hge
  · rw [List.getD_eq_getElem _ _ hlt]
    exact htable _ (List.getElem_mem hlt)
  · rw [List.getD_eq_default _ _ hge]
    decide

lemma pressed_ne_return {es : List Event} {c : UInt8} (h : c ∈ pressed es) : c ≠ 13 := by
  induction es with
  | nil => cases h
  | cons e es ih =>
    cases e with
    | read => exact ih h
    | key ioCode =>
      rw [pressed] at h
      split at h
      · rcases List.mem_cons.mp h with rfl | h
        · exact keymap_ne_return ioCode
        · exact ih h
      · exact ih h

/-- A line that had room is delivered as expected exactly when the keys without a character are erased
again. -/
lemma delivered_iff {body : List UInt8} (hno : 10 ∉ edited body) :
    (edited body ++ [10]).takeWhile (· ≠ 0) = expectedLine body ++ [10] ↔ Cleared body := by
  constructor
  · intro heq
    -- the line end is delivered, so no zero comes before it
    have h10 : (10 : UInt8) ∈ (edited body ++ [10]).takeWhile (· ≠ 0) := by
      rw [heq]
      simp
    have hzero : ∀ c ∈ edited body, c ≠ 0 := by
      intro c hc h0
      obtain ⟨l, r, hlr⟩ := List.append_of_mem (h0 ▸ hc)
      rw [hlr, List.append_assoc, List.cons_append, takeWhile_zero] at h10
      exact hno (hlr ▸ List.mem_append_left _ (List.takeWhile_subset _ h10))
    rw [takeWhile_nonzero hzero] at heq
    apply cleared_of_length
    rw [← length_edited, List.append_cancel_right heq]
  · intro h
    have heq := edited_of_cleared h
    have hzero : ∀ c ∈ edited body, c ≠ 0 := by
      intro c hc h0
      rw [heq] at hc
      exact zero_notMem_expectedLine body (h0 ▸ hc)
    rw [← heq, takeWhile_nonzero hzero]

/-- **What `fgets` delivers of a typed line**: the string is the expected line exactly when the line,
counted with the keys without a character, always has room and such keys are erased again. -/
theorem fgets_typed {str : ℤ → UInt8} {n : ℤ} {body : List UInt8} {res : Bool × (ℤ → UInt8)}
    (hbody : ∀ c ∈ body, ¬ (c = 10 ∨ c = 13)) (hres : fgets str n (body ++ [10]) = some res) :
    (res.1 = true ∧ stringAt res.2 n.toNat = expectedLine body ++ [10]) ↔ Editable n body := by
  by_cases hn : n ≤ 0
  · rw [fgets, if_pos hn] at hres
    cases hres
    refine ⟨fun h => by simp at h, fun h => ?_⟩
    have := h.room 0 (Nat.zero_le _)
    omega
  · obtain ⟨s', line', hloop, hshows, hline⟩ :=
      fgetsLoop_line (n := n) (Or.inl rfl) hbody (Shows.nil str)
    rw [fgets, if_neg hn, hloop, Option.map_some] at hres
    cases hres
    have hlen : line'.length < n.toNat := by
      have := fgetsLoop_index hloop (by simp only; omega)
      have := hshows.length
      omega
    rw [hshows.stringAt hlen]
    simp only [foldl_edit_length] at hline
    rcases hline with ⟨hroom, rfl⟩ | ⟨hfull, hmem⟩
    · have hno : 10 ∉ edited body := fun h10 => hbody 10 (mem_edited h10) (Or.inl rfl)
      have hpos : s'.i > 0 := by
        have := hshows.length
        simp only [List.length_append, List.length_singleton] at this
        omega
      simp only [hpos, decide_true, true_and]
      change (edited body ++ [10]).takeWhile (· ≠ 0) = expectedLine body ++ [10] ↔ Editable n body
      rw [delivered_iff hno]
      exact ⟨fun h => ⟨hroom, h⟩, Editable.cleared⟩
    · have hno : 10 ∉ line' := fun h10 => by
        rcases hmem 10 h10 with h | h
        · cases h
        · exact hbody 10 h (Or.inl rfl)
      constructor
      · rintro ⟨-, heq⟩
        have h10 : (10 : UInt8) ∈ line'.takeWhile (· ≠ 0) := by
          rw [heq]
          simp
        exact absurd ((List.takeWhile_subset _) h10) hno
      · intro h
        exact absurd h.room hfull

/-- Scan codes, interrupts and reads, end to end. The keys typed are `body` and then Enter, in any
interleaving with the reads and with no character dropped; then `fgets` on the returned characters
delivers the line of the keys that have a character exactly when the line counted with the others has
room and the others are erased again. -/
theorem typed_line_iff {es : List Event} {body : List UInt8} (hdrop : NoDrop es)
    (htyped : pressed es = body ++ [10]) (hbody : 10 ∉ body) {str : ℤ → UInt8} {n : ℤ}
    {res : Bool × (ℤ → UInt8)} (hres : fgets str n (keyboardAfter es).returned = some res) :
    (res.1 = true ∧ stringAt res.2 n.toNat = expectedLine (pressed es)) ↔ Editable n body := by
  have hline : expectedLine (pressed es) = expectedLine body ++ [10] := by
    rw [htyped, expectedLine_snoc, if_neg (by decide), edit, if_neg (by decide)]
  obtain ⟨later, hlater⟩ := (keyboardAfter_kept es).fifo
  rw [enqueued_pressed hdrop, htyped] at hlater
  have hall := fgets_append hres later
  rw [hlater] at hall
  rw [hline]
  refine fgets_typed (fun c hc h => ?_) hall
  rcases h with rfl | rfl
  · exact hbody hc
  · have hpressed : 13 ∈ pressed es := htyped ▸ List.mem_append_left _ hc
    exact pressed_ne_return hpressed rfl

/-- The keys with the given scan codes, and then all of them read. -/
def typedRun (codes : List UInt8) : List Event :=
  codes.map .key ++ List.replicate (3 * codes.length) .read

/-- A, Left shift, S, Enter: the line is cut at the Shift key. -/
theorem shift_cuts_line :
    NoDrop (typedRun [30, 42, 31, 28]) ∧ pressed (typedRun [30, 42, 31, 28]) = [97, 0, 115, 10] ∧
    (fgets (fun _ => 0) 256 (keyboardAfter (typedRun [30, 42, 31, 28])).returned).map
      (fun res => (res.1, stringAt res.2 256)) = some (true, [97]) ∧
    expectedLine (pressed (typedRun [30, 42, 31, 28])) = [97, 115, 10] := by
  refine ⟨?_, by decide +kernel, by decide +kernel, by decide +kernel⟩
  simp only [NoDrop, typedRun]
  exact ⟨rfl, rfl, rfl, rfl, rfl, rfl, rfl, rfl, rfl, rfl, rfl, rfl, rfl, rfl, rfl, rfl, trivial⟩

/-- Left shift and Backspace before A: the Shift key is erased. -/
theorem typed_line_iff_erased :
    ∃ res, fgets (fun _ => 0) 256 (keyboardAfter (typedRun [42, 14, 30, 28])).returned = some res ∧
      ((res.1 = true ∧ stringAt res.2 (256 : ℤ).toNat =
          expectedLine (pressed (typedRun [42, 14, 30, 28]))) ↔ Editable 256 [0, 8, 97]) := by
  have hsome : (fgets (fun _ => 0) 256
      (keyboardAfter (typedRun [42, 14, 30, 28])).returned).isSome := by decide +kernel
  obtain ⟨res, hres⟩ := Option.isSome_iff_exists.mp hsome
  refine ⟨res, hres, typed_line_iff ?_ (by decide +kernel) (by decide) hres⟩
  exact ⟨rfl, rfl, rfl, rfl, rfl, rfl, rfl, rfl, rfl, rfl, rfl, rfl, rfl, rfl, rfl, rfl, trivial⟩

theorem fgets_returns {es : List Event} {body : List UInt8}
    (hbody : ∀ c ∈ body, ¬ (c = 10 ∨ c = 13))
    (hread : (keyboardAfter es).returned = body ++ [10]) (str : ℤ → UInt8) (n : ℤ) :
    (fgets str n (keyboardAfter es).returned).isSome := by
  rw [hread, fgets]
  split
  · rfl
  · obtain ⟨s', line', hloop, -, -⟩ :=
      fgetsLoop_line (n := n) (Or.inl rfl) hbody (Shows.nil str)
    rw [hloop]
    rfl

end ArcOS.Kernel
