import ArcOS.Stdio.Screen
import ArcOS.Lib.Outline
import ArcOS.Lib.Transducer

/-!
`putc` statement by statement, with the echo of the keyboard in between.

The main program executes one statement at a time (`exec`); an interrupt runs a whole `putc`. As long as
echoes come between two calls, the statements do what the calls do (`putc_calls`). In the
middle of `putc` the cursor may stand on column 80 or on line 25, so each statement has its own
assertion on the cursor (`pre`); an echo keeps all of them (`pre_survives`). What an echo accesses is on
the screen exactly when the cursor is, or when it is a line end (`echo_onScreen`).
-/

namespace ArcOS.Stdio

open Lib Lib.Transducer

/-! ### Statements -/

/-- The statements of `putc(c)`, of `scrollback(1)` and of `setcursor`. -/
inductive Stmt where
  | putc (c : UInt8)
  | newlineColumn
  | newlineRow
  | returnColumn
  | tabTest (i : ℤ)
  | put (c : UInt8)
  | advance
  | wrapTest
  | wrapRow
  | wrapColumn
  | scrollTest
  | copyRows (y : ℤ)
  | copyCols (y x : ℤ)
  | copyChar (x y : ℤ)
  | copyColor (x y : ℤ)
  | blankRows (y : ℤ)
  | blankCols (y x : ℤ)
  | blankChar (x y : ℤ)
  | blankColor (x y : ℤ)
  | scrolled
  | setcursor
  | outb (port : UInt16) (value : UInt8)

/-- A statement executed: the statements to run next, and the screen. -/
def exec : Stmt → Screen → List Stmt × Screen
  | .putc c, s => (
      (if c = 10 then [.newlineColumn, .newlineRow]
      else if c = 9 then [.tabTest 0]
      else if c = 13 then [.returnColumn]
      else [.put c, .advance]) ++ [.wrapTest, .scrollTest, .setcursor], s)
  | .newlineColumn, s => ([], { s with screenX := 0 })
  | .newlineRow, s => ([], { s with screenY := s.screenY + 1 })
  | .returnColumn, s => ([], { s with screenX := 0 })
  | .tabTest i, s => (if i < 4 - s.screenX.tmod 4 then [.putc 32, .tabTest (i + 1)] else [], s)
  | .put c, s => ([], Stdio.putchr s.screenX s.screenY c s)
  | .advance, s => ([], { s with screenX := s.screenX + 1 })
  | .wrapTest, s => (if unsigned s.screenX ≥ 80 then [.wrapRow, .wrapColumn] else [], s)
  | .wrapRow, s => ([], { s with screenY := s.screenY + 1 })
  | .wrapColumn, s => ([], { s with screenX := 0 })
  | .scrollTest, s =>
    (if unsigned s.screenY ≥ 25 then [.copyRows 1, .blankRows 24, .scrolled] else [], s)
  | .copyRows y, s => (if unsigned y < 25 then [.copyCols y 0, .copyRows (y + 1)] else [], s)
  | .copyCols y x, s =>
    (if unsigned x < 80 then [.copyChar x y, .copyColor x y, .copyCols y (x + 1)] else [], s)
  | .copyChar x y, s => ([], Stdio.copyChar 1 x y s)
  | .copyColor x y, s => ([], Stdio.copyColor 1 x y s)
  | .blankRows y, s => (if unsigned y < 25 then [.blankCols y 0, .blankRows (y + 1)] else [], s)
  | .blankCols y x, s =>
    (if unsigned x < 80 then [.blankChar x y, .blankColor x y, .blankCols y (x + 1)] else [], s)
  | .blankChar x y, s => ([], putchr x y 0 s)
  | .blankColor x y, s => ([], putcolor x y defaultColor s)
  | .scrolled, s => ([], { s with screenY := s.screenY - 1 })
  | .setcursor, s =>
    let pos := cell s.screenX s.screenY
    ([.outb 0x3D4 0x0F, .outb 0x3D5 (posByte pos 0), .outb 0x3D4 0x0E, .outb 0x3D5 (posByte pos 1)], s)
  | .outb port value, s => ([], Stdio.outb port value s)

/-! ### The statements are `putc` -/

/-- What a statement does, with all that follows from it. -/
def meaning : Stmt → Screen → Screen
  | .putc c, s => putc c s
  | .newlineColumn, s => { s with screenX := 0 }
  | .newlineRow, s => { s with screenY := s.screenY + 1 }
  | .returnColumn, s => { s with screenX := 0 }
  | .tabTest i, s => tabLoop (7 - i).toNat i s
  | .put c, s => putchr s.screenX s.screenY c s
  | .advance, s => { s with screenX := s.screenX + 1 }
  | .wrapTest, s => wrapLine s
  | .wrapRow, s => { s with screenY := s.screenY + 1 }
  | .wrapColumn, s => { s with screenX := 0 }
  | .scrollTest, s => scrollLine s
  | .copyRows y, s => Stdio.copyRows 1 (25 - y).toNat y s
  | .copyCols y x, s =>
    loop (fun x s => Stdio.copyColor 1 x y (Stdio.copyChar 1 x y s)) (80 - x).toNat x s
  | .copyChar x y, s => Stdio.copyChar 1 x y s
  | .copyColor x y, s => Stdio.copyColor 1 x y s
  | .blankRows y, s => Stdio.blankRows (25 - y).toNat y s
  | .blankCols y x, s => loop (fun x => blankCell x y) (80 - x).toNat x s
  | .blankChar x y, s => putchr x y 0 s
  | .blankColor x y, s => putcolor x y defaultColor s
  | .scrolled, s => { s with screenY := s.screenY - 1 }
  | .setcursor, s => setcursor s.screenX s.screenY s
  | .outb port value, s => outb port value s

/-- The counters of a statement are in the range of their loop. -/
def Stmt.Counts : Stmt → Prop
  | .tabTest i => 0 ≤ i ∧ i ≤ 7
  | .copyRows y => 1 ≤ y ∧ y ≤ 25
  | .copyCols y x => (1 ≤ y ∧ y < 25) ∧ 0 ≤ x ∧ x ≤ 80
  | .copyChar x y => (1 ≤ y ∧ y < 25) ∧ 0 ≤ x ∧ x < 80
  | .copyColor x y => (1 ≤ y ∧ y < 25) ∧ 0 ≤ x ∧ x < 80
  | .blankRows y => 0 ≤ y ∧ y ≤ 25
  | .blankCols y x => (0 ≤ y ∧ y < 25) ∧ 0 ≤ x ∧ x ≤ 80
  | .blankChar x y => (0 ≤ y ∧ y < 25) ∧ 0 ≤ x ∧ x < 80
  | .blankColor x y => (0 ≤ y ∧ y < 25) ∧ 0 ≤ x ∧ x < 80
  | _ => True

/-- A bound on the number of executions that follow from a statement. -/
def Stmt.size : Stmt → ℕ
  | .putc c => if c = 9 then 70000 else 7700
  | .tabTest i => 1 + 8000 * (7 - i).toNat
  | .wrapTest => 3
  | .scrollTest => 7600
  | .copyRows y => 1 + 300 * (25 - y).toNat
  | .copyCols _ x => 1 + 3 * (80 - x).toNat
  | .blankRows y => 1 + 300 * (25 - y).toNat
  | .blankCols _ x => 1 + 3 * (80 - x).toNat
  | .setcursor => 5
  | _ => 1

section Meaning

variable {s : Screen}

lemma tmod_four (x : ℤ) : -3 ≤ x.tmod 4 := by
  rcases Int.le_total 0 x with h | h
  · have := Int.tmod_nonneg 4 h
    omega
  · obtain ⟨n, hn⟩ := Int.eq_ofNat_of_zero_le (show 0 ≤ -x by omega)
    have hneg : x = -(n : ℤ) := by omega
    rw [hneg, Int.neg_tmod, Int.tmod_eq_emod_of_nonneg (by omega)]
    omega

lemma tabLoop_next {i : ℤ} (hi : 0 ≤ i ∧ i ≤ 7) : tabLoop (7 - i).toNat i s =
    if i < 4 - s.screenX.tmod 4 then tabLoop (7 - (i + 1)).toNat (i + 1) (putc 32 s) else s := by
  have htmod := tmod_four s.screenX
  by_cases h7 : i = 7
  · rw [show (7 - i).toNat = 0 by omega, tabLoop, if_neg (by omega)]
  · obtain ⟨n, hn⟩ : ∃ n, (7 - i).toNat = n + 1 := ⟨(6 - i).toNat, by omega⟩
    rw [hn, tabLoop, show (7 - (i + 1)).toNat = n by omega]
    rfl

lemma loop_next {body : ℤ → Screen → Screen} {n i : ℤ} (hi : 0 ≤ i ∧ i ≤ n) (hn : n < 2 ^ 32) :
    loop body (n - i).toNat i s =
      if unsigned i < n then loop body (n - (i + 1)).toNat (i + 1) (body i s) else s := by
  rw [unsigned_small hi.1 (by omega)]
  by_cases hlt : i < n
  · obtain ⟨m, hm⟩ : ∃ m, (n - i).toNat = m + 1 := ⟨(n - i - 1).toNat, by omega⟩
    rw [if_pos hlt, hm, loop, show (n - (i + 1)).toNat = m by omega]
  · rw [if_neg hlt, show (n - i).toNat = 0 by omega, loop]

/-- Executing a statement and then what it leads to is what the statement means. -/
theorem exec_meaning (k : Stmt) (s : Screen) (h : k.Counts) :
    Outline.runAll meaning (exec k s).1 (exec k s).2 = meaning k s := by
  cases k with
  | putc c =>
    have hend : ∀ t, finishPutc t = Outline.runAll meaning [.wrapTest, .scrollTest, .setcursor] t :=
      fun _ => rfl
    rw [exec, Outline.runAll_append, ← hend]
    simp only [meaning, putc, putcSwitch]
    by_cases h10 : c = 10
    · rw [if_pos h10, if_neg (by rw [h10]; decide), if_pos h10]
      rfl
    · rw [if_neg h10, if_neg h10]
      by_cases h9 : c = 9
      · rw [if_pos h9, if_pos h9]
        rfl
      · rw [if_neg h9, if_neg h9]
        by_cases h13 : c = 13
        · rw [if_pos h13, if_pos h13]
          rfl
        · rw [if_neg h13, if_neg h13]
          rfl
  | tabTest i =>
    simp only [exec, meaning]
    rw [tabLoop_next h]
    split <;> rfl
  | wrapTest =>
    simp only [exec, meaning, wrapLine]
    split <;> rfl
  | scrollTest =>
    simp only [exec, meaning, scrollLine]
    split <;> rfl
  | copyRows y =>
    simp only [exec, meaning, Stdio.copyRows]
    rw [loop_next ⟨by have := h.1; omega, h.2⟩ (by decide)]
    split <;> rfl
  | copyCols y x =>
    simp only [exec, meaning]
    rw [loop_next h.2 (by decide)]
    split <;> rfl
  | blankRows y =>
    simp only [exec, meaning, Stdio.blankRows]
    rw [loop_next h (by decide)]
    split <;> rfl
  | blankCols y x =>
    simp only [exec, meaning]
    rw [loop_next h.2 (by decide)]
    split <;> rfl
  | _ => rfl

/-- Statements to run in place of one: their counters are in their ranges, and together they are smaller. -/
structure Below (k : Stmt) (js : List Stmt) : Prop where
  counts : ∀ j ∈ js, j.Counts
  size : (js.map Stmt.size).sum < k.size

lemma Stmt.size_pos (k : Stmt) : 0 < k.size := by
  cases k with
  | putc c =>
    rw [Stmt.size]
    split <;> decide
  | _ => simp [Stmt.size]

lemma below_nil (k : Stmt) : Below k [] := ⟨fun _ hj => absurd hj List.not_mem_nil, k.size_pos⟩

lemma below_test {k : Stmt} {js : List Stmt} {i n : ℤ} (hi : 0 ≤ i ∧ i ≤ n) (hn : n < 2 ^ 32)
    (h : i < n → Below k js) : Below k (if unsigned i < n then js else []) := by
  rw [unsigned_small hi.1 (by omega)]
  split
  · next hlt => exact h hlt
  · exact below_nil k

/-- What a statement leads to is smaller, and the counters stay in their ranges. -/
lemma exec_below (k : Stmt) (s : Screen) (h : k.Counts) : Below k (exec k s).1 := by
  have htmod := tmod_four s.screenX
  cases k with
  | putc c =>
    simp only [exec]
    split_ifs <;> constructor <;> simp_all [Stmt.Counts, Stmt.size]
  | tabTest i =>
    obtain ⟨h0, h7⟩ := h
    simp only [exec]
    split
    · refine ⟨by simp [Stmt.Counts]; omega, ?_⟩
      simp [Stmt.size]
      omega
    · exact below_nil _
  | wrapTest =>
    simp only [exec]
    split
    · exact ⟨by simp [Stmt.Counts], by simp [Stmt.size]⟩
    · exact below_nil _
  | scrollTest =>
    simp only [exec]
    split
    · exact ⟨by simp [Stmt.Counts], by simp [Stmt.size]⟩
    · exact below_nil _
  | copyRows y =>
    obtain ⟨h1, h25⟩ := h
    refine below_test ⟨by omega, h25⟩ (by decide) fun hlt => ⟨?_, ?_⟩
    · simp [Stmt.Counts]
      omega
    · simp [Stmt.size]
      omega
  | copyCols y x =>
    obtain ⟨hy, h0, h80⟩ := h
    refine below_test ⟨h0, h80⟩ (by decide) fun hlt => ⟨?_, ?_⟩
    · simp [Stmt.Counts]
      omega
    · simp [Stmt.size]
      omega
  | blankRows y =>
    obtain ⟨h0, h25⟩ := h
    refine below_test ⟨h0, h25⟩ (by decide) fun hlt => ⟨?_, ?_⟩
    · simp [Stmt.Counts]
      omega
    · simp [Stmt.size]
      omega
  | blankCols y x =>
    obtain ⟨hy, h0, h80⟩ := h
    refine below_test ⟨h0, h80⟩ (by decide) fun hlt => ⟨?_, ?_⟩
    · simp [Stmt.Counts]
      omega
    · simp [Stmt.size]
      omega
  | setcursor => exact ⟨by simp [exec, Stmt.Counts], by simp [exec, Stmt.size]⟩
  | _ => exact below_nil _

end Meaning

/-! ### Where the cursor may stand -/

/-- A condition on the cursor. -/
def At (P : ℤ → ℤ → Prop) (s : Screen) : Prop := P s.screenX s.screenY

/-- Before the test of the column: one step beyond the right edge or below the last line. -/
def AtWrap (x y : ℤ) : Prop := (0 ≤ x ∧ 0 ≤ y) ∧ (x < 80 ∧ y ≤ 25 ∨ x = 80 ∧ y < 25)

/-- Before the next row is taken. -/
def AtEdge (x y : ℤ) : Prop := (0 ≤ x ∧ x ≤ 80) ∧ 0 ≤ y ∧ y < 25

/-- Anywhere the cursor may come to. -/
def Near (x y : ℤ) : Prop := (0 ≤ x ∧ x ≤ 80) ∧ 0 ≤ y ∧ y ≤ 25

/-- Before the test of the row. -/
def AtScroll (x y : ℤ) : Prop := (0 ≤ x ∧ x < 80) ∧ 0 ≤ y ∧ y ≤ 25

/-- While the lines are scrolled. -/
def Scrolling (x y : ℤ) : Prop := (0 ≤ x ∧ x < 80) ∧ 24 ≤ y ∧ y ≤ 25

/-- The assertion before a statement. -/
def pre (k : Stmt) (s : Screen) : Prop :=
  k.Counts ∧ match k with
    | .wrapTest => At AtWrap s
    | .wrapRow => At AtEdge s
    | .wrapColumn => At Near s
    | .scrollTest => At AtScroll s
    | .copyRows _ | .copyCols _ _ | .copyChar _ _ | .copyColor _ _ => At Scrolling s
    | .blankRows _ | .blankCols _ _ | .blankChar _ _ | .blankColor _ _ => At Scrolling s
    | .scrolled => At Scrolling s
    | _ => At Inside s

/-- The assertion behind a statement. -/
def post (k : Stmt) (s : Screen) : Prop :=
  match k with
  | .newlineRow => At AtScroll s
  | .advance => At AtWrap s
  | .wrapTest => At AtScroll s
  | .wrapRow => At Near s
  | .wrapColumn => At AtScroll s
  | .copyRows _ | .copyCols _ _ | .copyChar _ _ | .copyColor _ _ => At Scrolling s
  | .blankRows _ | .blankCols _ _ | .blankChar _ _ | .blankColor _ _ => At Scrolling s
  | _ => At Inside s

lemma inside_atWrap {x y : ℤ} (h : Inside x y) : AtWrap x y := by
  obtain ⟨h1, h2⟩ := h
  exact ⟨⟨h1.1, h2.1⟩, Or.inl ⟨h1.2, by omega⟩⟩

lemma atScroll_atWrap {x y : ℤ} (h : AtScroll x y) : AtWrap x y := by
  obtain ⟨h1, h2⟩ := h
  exact ⟨⟨h1.1, h2.1⟩, Or.inl ⟨h1.2, h2.2⟩⟩

lemma leads_finish {P : Screen → Prop} (hP : ∀ s, P s → At AtWrap s) :
    Outline.Leads pre post P [.wrapTest, .scrollTest, .setcursor] (At Inside) :=
  ⟨fun s hs => ⟨trivial, hP s hs⟩, fun _ hs => ⟨trivial, hs⟩, fun _ hs => ⟨trivial, hs⟩, fun _ hs => hs⟩

/-- A statement of the loops that scroll. -/
def Stmt.Scrolls : Stmt → Prop
  | .copyRows _ | .copyCols _ _ | .copyChar _ _ | .copyColor _ _ => True
  | .blankRows _ | .blankCols _ _ | .blankChar _ _ | .blankColor _ _ => True
  | _ => False

lemma ready_scrolling {ks : List Stmt} {s : Screen} (hs : At Scrolling s) (hcounts : ∀ k ∈ ks, k.Counts)
    (hks : ∀ k ∈ ks, k.Scrolls) : Outline.Ready pre post ks (At Scrolling) s := by
  refine .keeping hs fun k hk => ?_
  have hc := hcounts k hk
  have hk := hks k hk
  cases k <;> first | exact hk.elim | exact ⟨fun _ ht => ⟨hc, ht⟩, fun _ ht => ht⟩

/-- **The assertions are an outline of `putc`.** -/
theorem putc_outline : Outline.IsOutline exec pre post := by
  rintro k s ⟨hcounts, h⟩
  have hnext := (exec_below k s hcounts).counts
  cases k with
  | putc c =>
    simp only [exec]
    split_ifs
    · exact ⟨⟨trivial, h⟩, fun _ hs => ⟨trivial, hs⟩, leads_finish fun _ hs => atScroll_atWrap hs⟩
    · exact ⟨⟨by simp [Stmt.Counts], h⟩, leads_finish fun _ hs => inside_atWrap hs⟩
    · exact ⟨⟨trivial, h⟩, leads_finish fun _ hs => inside_atWrap hs⟩
    · exact ⟨⟨trivial, h⟩, fun _ hs => ⟨trivial, hs⟩, leads_finish fun _ hs => hs⟩
  | newlineColumn =>
    obtain ⟨-, h2⟩ := h
    exact ⟨by simp only [exec]; omega, h2⟩
  | newlineRow =>
    obtain ⟨h1, h2⟩ := h
    exact ⟨h1, by simp only [exec]; omega⟩
  | returnColumn =>
    obtain ⟨-, h2⟩ := h
    exact ⟨by simp only [exec]; omega, h2⟩
  | tabTest i =>
    simp only [exec] at hnext ⊢
    split_ifs with hi
    · rw [if_pos hi] at hnext
      exact ⟨⟨trivial, h⟩, fun _ hs => ⟨hnext _ (by simp), hs⟩, fun _ hs => hs⟩
    · exact h
  | put c => exact h
  | advance =>
    obtain ⟨h1, h2⟩ := h
    refine ⟨⟨by simp only [exec]; omega, h2.1⟩, ?_⟩
    simp only [exec]
    omega
  | wrapTest =>
    obtain ⟨⟨h1, h2⟩, h3⟩ := h
    simp only [exec, unsigned_small h1 (show s.screenX < 2 ^ 32 by omega)]
    split_ifs
    · exact ⟨⟨trivial, ⟨h1, by omega⟩, h2, by omega⟩, fun _ hs => ⟨trivial, hs⟩, fun _ hs => hs⟩
    · exact ⟨⟨h1, by omega⟩, h2, by omega⟩
  | wrapRow =>
    obtain ⟨h1, h2⟩ := h
    exact ⟨h1, by simp only [exec]; omega⟩
  | wrapColumn =>
    obtain ⟨-, h2⟩ := h
    exact ⟨by simp only [exec]; omega, h2⟩
  | scrollTest =>
    obtain ⟨h1, h2, h3⟩ := h
    simp only [exec, unsigned_small h2 (show s.screenY < 2 ^ 32 by omega)]
    split_ifs
    · exact ⟨⟨by simp [Stmt.Counts], h1, by omega, h3⟩, fun _ hs => ⟨by simp [Stmt.Counts], hs⟩,
        fun _ hs => ⟨trivial, hs⟩, fun _ hs => hs⟩
    · exact ⟨h1, h2, by omega⟩
  | copyRows y =>
    refine ready_scrolling h hnext ?_
    simp only [exec]
    split_ifs <;> simp [Stmt.Scrolls]
  | copyCols y x =>
    refine ready_scrolling h hnext ?_
    simp only [exec]
    split_ifs <;> simp [Stmt.Scrolls]
  | blankRows y =>
    refine ready_scrolling h hnext ?_
    simp only [exec]
    split_ifs <;> simp [Stmt.Scrolls]
  | blankCols y x =>
    refine ready_scrolling h hnext ?_
    simp only [exec]
    split_ifs <;> simp [Stmt.Scrolls]
  | copyChar x y => exact h
  | copyColor x y => exact h
  | blankChar x y => exact h
  | blankColor x y => exact h
  | scrolled =>
    obtain ⟨h1, h2⟩ := h
    refine ⟨h1, ?_⟩
    simp only [exec]
    omega
  | setcursor =>
    exact ⟨⟨trivial, h⟩, fun _ hs => ⟨trivial, hs⟩, fun _ hs => ⟨trivial, hs⟩, fun _ hs => ⟨trivial, hs⟩,
      fun _ hs => hs⟩
  | outb port value => exact h

/-! ### What an echo does to the cursor -/

/-- Where the end of `putc` puts the cursor. -/
def finishCursor (x y : ℤ) : ℤ × ℤ :=
  let y := if 80 ≤ x then y + 1 else y
  (if 80 ≤ x then 0 else x, if 25 ≤ y then y - 1 else y)

/-- A condition on the cursor that a `putc` keeps from anywhere. -/
structure Survives (P : ℤ → ℤ → Prop) : Prop where
  near : ∀ x y, P x y → Near x y
  finish : ∀ x y, P x y → P (finishCursor x y).1 (finishCursor x y).2
  newline : ∀ x y, P x y → P (finishCursor 0 (y + 1)).1 (finishCursor 0 (y + 1)).2
  put : ∀ x y, P x y → P (finishCursor (x + 1) y).1 (finishCursor (x + 1) y).2
  column : ∀ x y, P x y → P (finishCursor 0 y).1 (finishCursor 0 y).2

section Echo

variable {s : Screen} {P : ℤ → ℤ → Prop}

lemma finishPutc_cursor (hx : 0 ≤ s.screenX ∧ s.screenX ≤ 81) (hy : 0 ≤ s.screenY ∧ s.screenY ≤ 26) :
    (finishPutc s).screenX = (finishCursor s.screenX s.screenY).1 ∧
      (finishPutc s).screenY = (finishCursor s.screenX s.screenY).2 := by
  have hscroll : ∀ t : Screen, 0 ≤ t.screenY → t.screenY ≤ 27 →
      (scrollLine t).screenX = t.screenX ∧
        (scrollLine t).screenY = if 25 ≤ t.screenY then t.screenY - 1 else t.screenY := by
    intro t h0 h27
    by_cases h25 : 25 ≤ t.screenY
    · obtain ⟨-, h1, h2, -⟩ := scrollback_cells 1 (s := t) (by decide) (fun _ _ _ => rfl)
      rw [scrollLine_up h25 (by omega), if_pos h25, h1, h2]
      exact ⟨rfl, rfl⟩
    · rw [scrollLine_keep ⟨h0, by omega⟩, if_neg h25]
      exact ⟨rfl, rfl⟩
  by_cases h80 : 80 ≤ s.screenX
  · obtain ⟨h1, h2⟩ := hscroll { s with screenY := s.screenY + 1, screenX := 0 } (by simp only; omega)
      (by simp only; omega)
    simp only [finishPutc, finishCursor, wrapLine_next h80 (by omega), if_pos h80]
    exact ⟨h1, h2⟩
  · obtain ⟨h1, h2⟩ := hscroll s hy.1 (by omega)
    simp only [finishPutc, finishCursor, wrapLine_keep ⟨hx.1, by omega⟩, if_neg h80]
    exact ⟨h1, h2⟩

lemma Survives.plain (hP : Survives P) (h : At P s) (c : UInt8) :
    At P (finishPutc (putcSwitch c s)) := by
  obtain ⟨⟨h1, h2⟩, h3, h4⟩ := hP.near _ _ h
  unfold putcSwitch
  split_ifs
  · obtain ⟨hx, hy⟩ := finishPutc_cursor (s := { s with screenX := 0, screenY := s.screenY + 1 })
      (by simp) (by simp only; omega)
    rw [At, hx, hy]
    exact hP.newline _ _ h
  · obtain ⟨hx, hy⟩ := finishPutc_cursor (s := { s with screenX := 0 }) (by simp) (by simp only; omega)
    rw [At, hx, hy]
    exact hP.column _ _ h
  · obtain ⟨hx, hy⟩ := finishPutc_cursor
      (s := { putchr s.screenX s.screenY c s with screenX := s.screenX + 1 })
      (by simp only; omega) (by simp only [putchr]; omega)
    simp only [putchr] at hx hy ⊢
    rw [At, hx, hy]
    exact hP.put _ _ h

lemma Survives.tabLoop (hP : Survives P) : ∀ (n : ℕ) (i : ℤ) (s : Screen), At P s →
    At P (tabLoop n i s) := by
  intro n
  induction n with
  | zero => exact fun _ _ h => h
  | succ n ih =>
    intro i s h
    rw [Stdio.tabLoop]
    split_ifs
    · exact ih _ _ (hP.plain h 32)
    · exact h

/-- **A whole `putc` keeps the condition.** -/
theorem Survives.putc (hP : Survives P) (h : At P s) (c : UInt8) : At P (putc c s) := by
  by_cases h9 : c = 9
  · have htab := hP.tabLoop 7 0 s h
    obtain ⟨h1, h2⟩ := hP.near _ _ htab
    obtain ⟨hx, hy⟩ := finishPutc_cursor (s := Stdio.tabLoop 7 0 s) (by omega) (by omega)
    rw [Stdio.putc, if_pos h9, At, hx, hy]
    exact hP.finish _ _ htab
  · rw [Stdio.putc, if_neg h9]
    exact hP.plain h c

/-- It is enough to look at what the end of `putc` makes of the cursor where the `switch` leaves it. -/
lemma Survives.of_near (hnear : ∀ x y, P x y → Near x y)
    (hmove : ∀ x y x' y', P x y →
      (x' = x ∧ y' = y) ∨ (x' = 0 ∧ y' = y + 1) ∨ (x' = x + 1 ∧ y' = y) ∨ (x' = 0 ∧ y' = y) →
      P (finishCursor x' y').1 (finishCursor x' y').2) : Survives P where
  near := hnear
  finish x y h := hmove x y x y h (by simp)
  newline x y h := hmove x y 0 (y + 1) h (by simp)
  put x y h := hmove x y (x + 1) y h (by simp)
  column x y h := hmove x y 0 y h (by simp)

lemma inside_survives : Survives Inside := by
  refine .of_near (fun x y h => ?_) fun x y x' y' h hmove => ?_
  · simp only [Inside, Near] at h ⊢
    omega
  · simp only [Inside, finishCursor] at h ⊢
    split_ifs <;> omega

lemma atWrap_survives : Survives AtWrap := by
  refine .of_near (fun x y h => ?_) fun x y x' y' h hmove => ?_
  · simp only [AtWrap, Near] at h ⊢
    omega
  · simp only [AtWrap, finishCursor] at h ⊢
    split_ifs <;> omega

lemma atEdge_survives : Survives AtEdge := by
  refine .of_near (fun x y h => ?_) fun x y x' y' h hmove => ?_
  · simp only [AtEdge, Near] at h ⊢
    omega
  · simp only [AtEdge, finishCursor] at h ⊢
    split_ifs <;> omega

lemma near_survives : Survives Near := by
  refine .of_near (fun _ _ h => h) fun x y x' y' h hmove => ?_
  simp only [Near, finishCursor] at h ⊢
  split_ifs <;> omega

lemma atScroll_survives : Survives AtScroll := by
  refine .of_near (fun x y h => ?_) fun x y x' y' h hmove => ?_
  · simp only [AtScroll, Near] at h ⊢
    omega
  · simp only [AtScroll, finishCursor] at h ⊢
    split_ifs <;> omega

lemma scrolling_survives : Survives Scrolling := by
  refine .of_near (fun x y h => ?_) fun x y x' y' h hmove => ?_
  · simp only [Scrolling, Near] at h ⊢
    omega
  · simp only [Scrolling, finishCursor] at h ⊢
    split_ifs <;> omega

/-- The condition on the cursor before a statement survives a `putc`. -/
lemma pre_survives (k : Stmt) : ∃ P, Survives P ∧ ∀ s, pre k s ↔ k.Counts ∧ At P s := by
  cases k
  case wrapTest => exact ⟨_, atWrap_survives, fun _ => Iff.rfl⟩
  case wrapRow => exact ⟨_, atEdge_survives, fun _ => Iff.rfl⟩
  case wrapColumn => exact ⟨_, near_survives, fun _ => Iff.rfl⟩
  case scrollTest => exact ⟨_, atScroll_survives, fun _ => Iff.rfl⟩
  case copyRows => exact ⟨_, scrolling_survives, fun _ => Iff.rfl⟩
  case copyCols => exact ⟨_, scrolling_survives, fun _ => Iff.rfl⟩
  case copyChar => exact ⟨_, scrolling_survives, fun _ => Iff.rfl⟩
  case copyColor => exact ⟨_, scrolling_survives, fun _ => Iff.rfl⟩
  case blankRows => exact ⟨_, scrolling_survives, fun _ => Iff.rfl⟩
  case blankCols => exact ⟨_, scrolling_survives, fun _ => Iff.rfl⟩
  case blankChar => exact ⟨_, scrolling_survives, fun _ => Iff.rfl⟩
  case blankColor => exact ⟨_, scrolling_survives, fun _ => Iff.rfl⟩
  case scrolled => exact ⟨_, scrolling_survives, fun _ => Iff.rfl⟩
  all_goals exact ⟨_, inside_survives, fun _ => Iff.rfl⟩

end Echo

/-! ### What is accessed -/

/-- Every call of `putchr` was for a place on the screen. -/
def OnScreen (s : Screen) : Prop := ∀ a ∈ s.log, a.kind = .putchr → Inside a.x a.y

section Accesses

variable {s t : Screen} {c : UInt8}

lemma Within.onScreen_iff (h : Within s t) : OnScreen t ↔ OnScreen s := by
  constructor
  · exact fun ht a ha => ht a (h.old a ha)
  · intro hs a ha hkind
    rcases h.new a ha with ha | hin
    · exact hs a ha hkind
    · exact hin

lemma finishPutc_within (s : Screen) : Within s (finishPutc s) := by
  have hwrap : Within s (wrapLine s) := by
    unfold wrapLine
    split_ifs
    · exact .of_log rfl
    · exact .of_log rfl
  have hscroll : Within (wrapLine s) (scrollLine (wrapLine s)) := by
    unfold scrollLine
    split_ifs
    · exact (scrollback_cells 1 (by decide) (fun _ _ _ => rfl)).2.2.2.2
    · exact .of_log rfl
  exact (hwrap.trans hscroll).trans (.of_log rfl)

lemma putcSwitch_log (c : UInt8) (s : Screen) : (putcSwitch c s).log =
    s.log ++ if c = 10 ∨ c = 13 then [] else [⟨.putchr, s.screenX, s.screenY⟩] := by
  unfold putcSwitch
  by_cases h10 : c = 10
  · rw [if_pos h10, if_pos (Or.inl h10), List.append_nil]
  · rw [if_neg h10]
    by_cases h13 : c = 13
    · rw [if_pos h13, if_pos (Or.inr h13), List.append_nil]
    · rw [if_neg h13, if_neg (by simp [h10, h13])]
      rfl

lemma plain_within (h : At Inside s ∨ c = 10 ∨ c = 13) : Within s (finishPutc (putcSwitch c s)) := by
  refine Within.trans ?_ (finishPutc_within _)
  have hlog := putcSwitch_log c s
  by_cases hc : c = 10 ∨ c = 13
  · rw [if_pos hc, List.append_nil] at hlog
    exact .of_log hlog
  · rw [if_neg hc] at hlog
    exact .of_access (h.resolve_right hc) hlog

lemma tabLoop_within : ∀ (n : ℕ) (i : ℤ) (s : Screen), At Inside s → Within s (tabLoop n i s) := by
  intro n
  induction n with
  | zero => exact fun _ _ _ => .of_log rfl
  | succ n ih =>
    intro i s h
    rw [tabLoop]
    split_ifs
    · exact (plain_within (Or.inl h)).trans (ih _ _ (inside_survives.plain h 32))
    · exact .of_log rfl

/-- From a cursor on the screen, and for a line end, `putc` accesses only the screen. -/
theorem putc_within (h : At Inside s ∨ c = 10 ∨ c = 13) : Within s (putc c s) := by
  by_cases h9 : c = 9
  · rw [putc, if_pos h9]
    have hin : At Inside s := h.resolve_right (by rw [h9]; decide)
    exact (tabLoop_within 7 0 s hin).trans (finishPutc_within _)
  · rw [putc, if_neg h9]
    exact plain_within h

lemma plain_grows (c : UInt8) (s : Screen) : ∀ a ∈ (putcSwitch c s).log,
    a ∈ (finishPutc (putcSwitch c s)).log := (finishPutc_within _).old

lemma tabLoop_grows : ∀ (n : ℕ) (i : ℤ) (s : Screen), ∀ a ∈ s.log, a ∈ (tabLoop n i s).log := by
  intro n
  induction n with
  | zero => exact fun _ _ _ ha => ha
  | succ n ih =>
    intro i s a ha
    rw [tabLoop]
    split_ifs
    · refine ih _ _ a (plain_grows 32 s a ?_)
      rw [putcSwitch_log]
      exact List.mem_append_left _ ha
    · exact ha

/-- Any other character is put where the cursor stands, be that on the screen or not. -/
theorem putc_at_cursor (hx : 0 ≤ s.screenX) (h10 : c ≠ 10) (h13 : c ≠ 13) :
    ⟨.putchr, s.screenX, s.screenY⟩ ∈ (putc c s).log := by
  have hplain : ∀ d : UInt8, d ≠ 10 → d ≠ 13 →
      ⟨.putchr, s.screenX, s.screenY⟩ ∈ (finishPutc (putcSwitch d s)).log := by
    intro d hd10 hd13
    apply plain_grows d s _
    rw [putcSwitch_log, if_neg (by simp [hd10, hd13])]
    exact List.mem_append_right _ List.mem_cons_self
  by_cases h9 : c = 9
  · -- a tab writes at least one blank
    have hfirst : 0 < 4 - s.screenX.tmod 4 := by
      rw [Int.tmod_eq_emod_of_nonneg hx]
      omega
    rw [putc, if_pos h9]
    apply (finishPutc_within _).old _
    rw [tabLoop, if_pos hfirst]
    exact tabLoop_grows 6 _ _ _ (hplain 32 (by decide) (by decide))
  · rw [putc, if_neg h9]
    exact hplain c h10 h13

/-- **An echo accesses only the screen** exactly when the cursor is on it or a line end is echoed. -/
theorem echo_onScreen (hnear : At Near s) (c : UInt8) :
    OnScreen (putc c s) ↔ OnScreen s ∧ (At Inside s ∨ c = 10 ∨ c = 13) := by
  by_cases h : At Inside s ∨ c = 10 ∨ c = 13
  · rw [(putc_within h).onScreen_iff]
    exact (and_iff_left h).symm
  · refine iff_of_false (fun hon => h (Or.inl ?_)) fun hand => h hand.2
    obtain ⟨-, hc⟩ := not_or.mp h
    obtain ⟨h10, h13⟩ := not_or.mp hc
    exact hon _ (putc_at_cursor hnear.1.1 h10 h13) rfl

lemma exec_within {k : Stmt} (h : pre k s) : Within s (exec k s).2 := by
  obtain ⟨hcounts, h⟩ := h
  cases k with
  | put c => exact .of_access h rfl
  | copyChar x y =>
    obtain ⟨hy, hx⟩ := hcounts
    have hfrom : Inside x y := ⟨hx, by omega, hy.2⟩
    have hto : Inside x (y - 1) := ⟨hx, by omega, by omega⟩
    have hread : Within s (getchr x y s).2 := .of_access hfrom rfl
    exact hread.trans (.of_access hto rfl)
  | copyColor x y =>
    obtain ⟨hy, hx⟩ := hcounts
    have hfrom : Inside x y := ⟨hx, by omega, hy.2⟩
    have hto : Inside x (y - 1) := ⟨hx, by omega, by omega⟩
    have hread : Within s (getcolor x y s).2 := .of_access hfrom rfl
    exact hread.trans (.of_access hto rfl)
  | blankChar x y => exact .of_access ⟨hcounts.2, hcounts.1⟩ rfl
  | blankColor x y => exact .of_access ⟨hcounts.2, hcounts.1⟩ rfl
  | _ => exact .of_log rfl

end Accesses

/-! ### Runs with echoes in between -/

/-- The next step is a statement of the main program, or an interrupt that echoes a character. -/
inductive Event where
  | main
  | echo (c : UInt8)

/-- The main program: the characters still to print, the statements of the current `putc`, and the
screen. -/
structure Machine where
  todo : List UInt8
  stack : List Stmt
  screen : Screen

/-- One step. -/
def step : Event → Machine → Unit × Machine
  | .echo c, m => ((), { m with screen := putc c m.screen })
  | .main, m => ((),
    match m.stack with
    | k :: ks => { m with stack := (exec k m.screen).1 ++ ks, screen := (exec k m.screen).2 }
    | [] =>
      match m.todo with
      | c :: cs => { m with todo := cs, stack := [.putc c] }
      | [] => m)

/-! ### Echoes between two calls -/

/-- Echoes come while no `putc` of the main program is under way. -/
def Between (m : Machine) : Event → Prop
  | .main => True
  | .echo _ => m.stack = []

/-- The character whose call of `putc` a step begins, if it does. -/
def begins (m : Machine) : Event → List UInt8
  | .echo c => [c]
  | .main => if m.stack.isEmpty then m.todo.take 1 else []

/-- The calls of `putc` that a run begins, those of the echoes among them. -/
def begun : List Event → Machine → List UInt8
  | [], _ => []
  | e :: es, m => begins m e ++ begun es (step e m).2

/-- The calls of `putc`, one after the other. -/
def putcs (cs : List UInt8) (s : Screen) : Screen := cs.foldl (fun s c => putc c s) s

/-- The statements of the call that is under way lead to the screen `t`. -/
structure LeadsTo (m : Machine) (t : Screen) : Prop where
  counts : ∀ k ∈ m.stack, k.Counts
  screen : Outline.runAll meaning m.stack m.screen = t

section Calls

variable {m : Machine} {t : Screen}

lemma LeadsTo.step (h : LeadsTo m t) {e : Event} (hbetween : Between m e) :
    LeadsTo (step e m).2 (putcs (begins m e) t) := by
  obtain ⟨todo, stack, screen⟩ := m
  obtain ⟨hcounts, rfl⟩ := h
  cases e with
  | echo c =>
    obtain rfl : stack = [] := hbetween
    exact ⟨hcounts, rfl⟩
  | main =>
    cases stack with
    | cons k ks =>
      have hk := hcounts k List.mem_cons_self
      refine ⟨fun j hj => ?_, ?_⟩
      · rcases List.mem_append.mp hj with hj | hj
        · exact (exec_below k screen hk).counts j hj
        · exact hcounts j (List.mem_cons_of_mem _ hj)
      · simp only [Stdio.step]
        rw [Outline.runAll_append, exec_meaning k screen hk]
        rfl
    | nil =>
      cases todo with
      | nil => exact ⟨hcounts, rfl⟩
      | cons c cs => exact ⟨fun j hj => (List.mem_singleton.mp hj) ▸ trivial, rfl⟩

lemma leadsTo_run (es : List Event) : ∀ {m : Machine} {t : Screen}, LeadsTo m t → Along step Between es m →
    LeadsTo (final step es m) (putcs (begun es m) t) := by
  induction es with
  | nil => exact fun h _ => h
  | cons e es ih =>
    intro m t h hbetween
    rw [begun, putcs, List.foldl_append]
    exact ih (h.step hbetween.1) hbetween.2

lemma final_main (todo : List UInt8) : ∀ (n : ℕ) (ks : List Stmt) (s : Screen),
    Outline.alone exec n (ks, s) = ([], t) →
    ∃ i, final step (List.replicate i .main) ⟨todo, ks, s⟩ = ⟨todo, [], t⟩ := by
  intro n
  induction n with
  | zero =>
    intro ks s h
    obtain ⟨rfl, rfl⟩ := Prod.mk.inj h
    exact ⟨0, rfl⟩
  | succ n ih =>
    intro ks s h
    cases ks with
    | nil =>
      obtain ⟨-, rfl⟩ := Prod.mk.inj h
      exact ⟨0, rfl⟩
    | cons k ks =>
      obtain ⟨i, hi⟩ := ih _ _ h
      exact ⟨i + 1, hi⟩

end Calls

/-- **Statement by statement the program is `putc`.** While echoes come between two calls only, enough
statements of the main program finish the call that is under way, and the screen is then the one that the calls
begun so far leave, one after the other. -/
theorem putc_calls (todo : List UInt8) (s : Screen) (es : List Event)
    (hbetween : Along step Between es ⟨todo, [], s⟩) :
    let m := final step es ⟨todo, [], s⟩
    ∃ n, final step (List.replicate n .main) m = ⟨m.todo, [], putcs (begun es ⟨todo, [], s⟩) s⟩ := by
  intro m
  have hstart : LeadsTo ⟨todo, [], s⟩ s := ⟨fun k hk => absurd hk List.not_mem_nil, rfl⟩
  have hm : LeadsTo m (putcs (begun es ⟨todo, [], s⟩) s) := leadsTo_run es hstart hbetween
  have halone := Outline.alone_meaning exec_meaning (fun k s h => (exec_below k s h).counts)
    (fun k s h => (exec_below k s h).size) _ m.stack m.screen hm.counts le_rfl
  rw [hm.screen] at halone
  exact final_main m.todo _ m.stack m.screen halone

/-- The screen before anything is printed. -/
def firstScreen : Screen := ⟨fun _ => 0, 0, 0, [], []⟩

/-- Two characters with an echo in front of the second one, and the second call not finished. -/
theorem putc_calls_cut :
    let es := List.replicate 11 .main ++ [.echo 98] ++ List.replicate 3 .main
    let m := final step es ⟨[97, 13], [], firstScreen⟩
    ∃ n, final step (List.replicate n .main) m =
      ⟨m.todo, [], putcs (begun es ⟨[97, 13], [], firstScreen⟩) firstScreen⟩ :=
  putc_calls [97, 13] firstScreen _ (by simp [Along, Between]; decide)

/-! ### The cursor and the screen -/

/-- The main program stands before a statement with the cursor where the outline has it. -/
def Good (m : Machine) : Prop := Outline.Ready pre post m.stack (At Inside) m.screen

/-- An interrupt that echoes anything but a line end comes while the cursor is on the screen. -/
def EchoInside (m : Machine) : Event → Prop
  | .main => True
  | .echo c => At Inside m.screen ∨ c = 10 ∨ c = 13

section Runs

variable {m : Machine}

lemma Good.near (h : Good m) : At Near m.screen := by
  unfold Good at h
  cases hs : m.stack with
  | nil =>
    rw [hs] at h
    exact inside_survives.near _ _ h
  | cons k ks =>
    rw [hs] at h
    obtain ⟨P, hP, hpre⟩ := pre_survives k
    exact hP.near _ _ ((hpre _).mp h.1).2

theorem Good.step (h : Good m) (e : Event) : Good (step e m).2 := by
  unfold Good at h ⊢
  cases e with
  | echo c =>
    have hpre : ∀ k s, pre k s → pre k (putc c s) := by
      intro k s hk
      obtain ⟨P, hP, hpre⟩ := pre_survives k
      rw [hpre] at hk ⊢
      exact ⟨hk.1, hP.putc hk.2 c⟩
    have hinside : ∀ s, At Inside s → At Inside (putc c s) := fun s hs => inside_survives.putc hs c
    exact h.interfere hpre hinside
  | main =>
    cases hs : m.stack with
    | cons k ks =>
      simp only [Stdio.step, hs]
      rw [hs] at h
      exact h.step putc_outline
    | nil =>
      rw [hs] at h
      cases ht : m.todo with
      | nil =>
        simp only [Stdio.step, hs, ht]
        exact h
      | cons c cs =>
        simp only [Stdio.step, hs, ht]
        exact ⟨⟨trivial, h⟩, fun _ hs => hs⟩

theorem Good.onScreen_iff (h : Good m) (e : Event) :
    OnScreen (Stdio.step e m).2.screen ↔ OnScreen m.screen ∧ EchoInside m e := by
  cases e with
  | echo c => exact echo_onScreen h.near c
  | main =>
    have hwithin : Within m.screen (Stdio.step .main m).2.screen := by
      cases hs : m.stack with
      | cons k ks =>
        unfold Good at h
        rw [hs] at h
        simp only [Stdio.step, hs]
        exact exec_within h.1
      | nil =>
        cases ht : m.todo with
        | nil =>
          simp only [Stdio.step, hs, ht]
          exact .of_log rfl
        | cons c cs =>
          simp only [Stdio.step, hs, ht]
          exact .of_log rfl
    rw [hwithin.onScreen_iff]
    exact (and_iff_left trivial).symm

end Runs

/-- **The echo of the keyboard, in every interleaving.** The main program prints `todo` from a cursor on
the screen, with echoes between any two statements. Every call of `putchr` is for a place on the screen
exactly when every echo of a character other than a line end comes while the cursor is there; and
whenever no `putc` of the main program is under way, the cursor is on the screen. -/
theorem echo_iff (todo : List UInt8) (s : Screen) (hs : Inside s.screenX s.screenY) (hlog : s.log = [])
    (es : List Event) :
    let m := final step es ⟨todo, [], s⟩
    (OnScreen m.screen ↔ Along step EchoInside es ⟨todo, [], s⟩) ∧
      (m.stack = [] → Inside m.screen.screenX m.screen.screenY) := by
  have hstart : Good ⟨todo, [], s⟩ := hs
  have honScreen : ∀ (es : List Event) (m : Machine), Good m →
      (OnScreen (final step es m).screen ↔ OnScreen m.screen ∧ Along step EchoInside es m) := by
    intro es
    induction es with
    | nil => exact fun m _ => (and_iff_left trivial).symm
    | cons e es ih =>
      intro m hm
      rw [final, ih _ (hm.step e), hm.onScreen_iff e, Along, and_assoc]
  refine ⟨?_, fun hstack => ?_⟩
  · rw [honScreen es _ hstart]
    apply and_iff_right
    intro a ha
    rw [hlog] at ha
    cases ha
  · have hgood := final_inv' (P := Good) (fun _ e h => h.step e) es _ hstart
    unfold Good at hgood
    rw [hstack] at hgood
    exact hgood

/-- The run in which 80 characters are printed and a key is echoed when the last one is written and the
cursor has been moved on. -/
def edgeRun : List Event := List.replicate 873 .main ++ [.echo 98]

/-- The echo calls `putchr` for column 80. -/
theorem echo_beyond_edge :
    ¬ OnScreen (final step edgeRun ⟨List.replicate 80 97, [], firstScreen⟩).screen := by
  have hbad : ⟨.putchr, 80, 0⟩ ∈
      (final step edgeRun ⟨List.replicate 80 97, [], firstScreen⟩).screen.log := by decide +kernel
  exact fun h => absurd (h _ hbad rfl).1.2 (by decide)

/-- A key echoed between the two statements of a carriage return. -/
theorem echo_iff_return :
    let m := final step [.main, .main, .echo 98, .main, .main, .main] ⟨[13], [], firstScreen⟩
    (OnScreen m.screen ↔ Along step EchoInside [.main, .main, .echo 98, .main, .main, .main]
      ⟨[13], [], firstScreen⟩) ∧ (m.stack = [] → Inside m.screen.screenX m.screen.screenY) :=
  echo_iff [13] firstScreen ⟨by decide, by decide⟩ rfl _

end ArcOS.Stdio
