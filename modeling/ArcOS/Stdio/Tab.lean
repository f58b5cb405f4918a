import ArcOS.Stdio.Echo
import Mathlib.Logic.Function.Iterate

/-!
The tab.

A tab is to write spaces up to the next multiple of 4 (`SpacedTo` the `tabStop`), which `4 - x % 4`
spaces do (`spaces_to_stop`). The loop of `putc` reads its bound anew after every space and writes
`tabSpaces` of them, which is never that many (`tab_never`).
-/

namespace ArcOS.Stdio

open Lib

/-! ### Spaces up to a column -/

/-- The screens `putc` can meet: whatever was shown at first, with the cursor in the corner, and what
`clrscr` and `putc` make of it. -/
inductive Reachable : Screen → Prop where
  | start {s : Screen} : s.screenX = 0 → s.screenY = 0 → Reachable s
  | clrscr {s : Screen} : Reachable s → Reachable (clrscr s)
  | putc {s : Screen} (c : UInt8) : Reachable s → Reachable (putc c s)

/-- The next multiple of 4. -/
def tabStop (x : ℤ) : ℤ := 4 * (x / 4 + 1)

/-- The cells with spaces written from the cursor up to the column. -/
def spaced (s : Screen) (stop : ℤ) : ℤ → ℤ → UInt8 × UInt8 := fun x y =>
  (if y = s.screenY ∧ s.screenX ≤ x ∧ x < stop then 32 else s.screenBuffer (charByte x y),
    s.screenBuffer (colorByte x y))

/-- The rows moved up by one. -/
def movedUp (f : ℤ → ℤ → UInt8 × UInt8) : ℤ → ℤ → UInt8 × UInt8 := fun x y =>
  if y < 24 then f x (y + 1) else (0, defaultColor)

/-- `t` is `s` with spaces written up to the column, and the cursor put there. Column 80 is the start of
the next line, and behind the last line the rows are moved up. -/
structure SpacedTo (s : Screen) (stop : ℤ) (t : Screen) : Prop where
  x : t.screenX = if stop = 80 then 0 else stop
  y : t.screenY = if stop = 80 ∧ s.screenY < 24 then s.screenY + 1 else s.screenY
  cells : Cells t (if stop = 80 ∧ s.screenY = 24 then movedUp (spaced s stop) else spaced s stop)

/-- The same cursor and the same cells. -/
structure SameScreen (s t : Screen) : Prop where
  x : s.screenX = t.screenX
  y : s.screenY = t.screenY
  cells : Cells s fun x y => (t.screenBuffer (charByte x y), t.screenBuffer (colorByte x y))

/-- The number of spaces the loop of a tab writes. -/
def tabSpaces (x : ℤ) : ℕ := if x % 4 = 2 then 1 else if x % 4 = 3 then 3 else 2

section Tab

variable {s t u : Screen} {f : ℤ → ℤ → UInt8 × UInt8} {a b : ℤ}

lemma Reachable.inside (h : Reachable s) : Inside s.screenX s.screenY := by
  have hcorner : Inside 0 0 := ⟨by decide, by decide⟩
  induction h with
  | start hx hy => rwa [hx, hy]
  | clrscr => exact hcorner
  | putc c _ ih => exact inside_survives.putc ih c

/-! ### One space -/

lemma finishPutc_cells (hx : 0 ≤ s.screenX ∧ s.screenX ≤ 80) (hy : 0 ≤ s.screenY ∧ s.screenY < 25)
    (h : Cells s f) :
    Cells (finishPutc s) (if s.screenX = 80 ∧ s.screenY = 24 then movedUp f else f) := by
  rcases hx.2.lt_or_eq with hlt | heq
  · rw [finishPutc, wrapLine_keep ⟨hx.1, hlt⟩, scrollLine_keep hy, if_neg (by omega)]
    exact h.of_buffer rfl
  · rw [finishPutc, wrapLine_next heq.ge (by omega)]
    by_cases hlast : s.screenY = 24
    · rw [scrollLine_up (by simp only [hlast]; decide) (by simp only [hlast]; decide), if_pos ⟨heq, hlast⟩]
      obtain ⟨hcells, -⟩ := scrollback_cells 1 (by decide)
        (h.of_buffer (t := { s with screenY := s.screenY + 1, screenX := 0 }) rfl)
      exact hcells.of_buffer rfl
    · rw [scrollLine_keep (by simp only; omega), if_neg (fun hc => hlast hc.2)]
      exact h.of_buffer rfl

lemma putc_space (h : Inside s.screenX s.screenY) : SpacedTo s (s.screenX + 1) (putc 32 s) := by
  obtain ⟨⟨h1, h2⟩, h3, h4⟩ := id h
  obtain ⟨v, hv⟩ : ∃ v : Screen,
    v = { putchr s.screenX s.screenY 32 s with screenX := s.screenX + 1 } := ⟨_, rfl⟩
  have hvx : v.screenX = s.screenX + 1 := by rw [hv]
  have hvy : v.screenY = s.screenY := by
    rw [hv]
    rfl
  have hputc : putc 32 s = finishPutc v := by
    rw [hv]
    rfl
  have hcells : Cells v (spaced s (s.screenX + 1)) := by
    rw [hv]
    refine (Cells.of_buffer (Cells.putchr (f := fun x y => (s.screenBuffer (charByte x y),
      s.screenBuffer (colorByte x y))) (fun _ _ _ => rfl) h 32) rfl).congr fun x y hin => ?_
    simp only [changed, spaced]
    by_cases heq : x = s.screenX ∧ y = s.screenY
    · obtain ⟨rfl, rfl⟩ := heq
      rw [if_pos ⟨rfl, rfl⟩, if_pos (by omega)]
    · rw [if_neg heq, if_neg (by omega)]
  obtain ⟨hx, hy⟩ := finishPutc_cursor (s := v) (by omega) (by omega)
  have hend := finishPutc_cells (s := v) (by omega) (by omega) hcells
  rw [hvx, hvy] at hx hy hend
  rw [hputc]
  refine ⟨?_, ?_, hend⟩
  · rw [hx]
    simp only [finishCursor]
    split_ifs <;> omega
  · rw [hy]
    simp only [finishCursor]
    split_ifs <;> omega

/-! ### Spaces one after the other -/

lemma SpacedTo.trans (h : SpacedTo s a t) (ha : s.screenX ≤ a ∧ a < 80) (hab : a ≤ b)
    (h' : SpacedTo t b u) : SpacedTo s b u := by
  obtain ⟨hx, hy, hcells⟩ := h
  rw [if_neg (by omega)] at hx hy hcells
  obtain ⟨hx', hy', hcells'⟩ := h'
  have hspaced : ∀ x y, Inside x y → spaced t b x y = spaced s b x y := by
    intro x y hin
    have hold := hcells x y hin
    simp only [spaced, Prod.mk.injEq] at hold
    simp only [spaced, hx, hy, hold.1, hold.2, Prod.mk.injEq, and_true]
    split_ifs <;> first | rfl | omega
  rw [hy] at hy' hcells'
  refine ⟨hx', hy', hcells'.congr fun x y hin => ?_⟩
  split_ifs
  · obtain ⟨hx, h0, h25⟩ := hin
    simp only [movedUp]
    split_ifs
    · exact hspaced x (y + 1) ⟨hx, by omega, by omega⟩
    · rfl
  · exact hspaced x y hin

lemma spaces_spacedTo (n : ℕ) : ∀ {s : Screen}, Inside s.screenX s.screenY → s.screenX + n + 1 ≤ 80 →
    SpacedTo s (s.screenX + n + 1) ((putc 32)^[n + 1] s) := by
  induction n with
  | zero =>
    intro s h _
    rw [Nat.cast_zero, add_zero]
    exact putc_space h
  | succ n ih =>
    intro s h hn
    push_cast at hn
    have hone := putc_space h
    have hcol : (putc 32 s).screenX = s.screenX + 1 := by
      rw [hone.x, if_neg (by omega)]
    have hrest := ih (inside_survives.putc h 32) (by omega)
    rw [Function.iterate_succ_apply]
    rw [hcol] at hrest
    refine hone.trans ⟨by omega, by omega⟩ (by push_cast; omega) ?_
    rwa [show s.screenX + ((n + 1 : ℕ) : ℤ) + 1 = s.screenX + 1 + n + 1 by push_cast; omega]

/-- **As many spaces as the first bound of the loop says lead to the next multiple of 4.** -/
theorem spaces_to_stop (h : Inside s.screenX s.screenY) :
    SpacedTo s (tabStop s.screenX) ((putc 32)^[(4 - s.screenX.tmod 4).toNat] s) := by
  obtain ⟨⟨h1, h2⟩, -⟩ := id h
  have hmod : s.screenX.tmod 4 = s.screenX % 4 := Int.tmod_eq_emod_of_nonneg h1
  have hcount : (4 - s.screenX.tmod 4).toNat = (3 - s.screenX % 4).toNat + 1 := by omega
  have hstop : tabStop s.screenX = s.screenX + (3 - s.screenX % 4).toNat + 1 := by
    rw [tabStop]
    omega
  rw [hcount, hstop]
  exact spaces_spacedTo _ h (by omega)

/-! ### The loop -/

lemma spaces_column (n : ℕ) : ∀ {s : Screen}, Inside s.screenX s.screenY →
    Inside ((putc 32)^[n] s).screenX ((putc 32)^[n] s).screenY ∧
      ((putc 32)^[n] s).screenX % 4 = (s.screenX + n) % 4 := by
  induction n with
  | zero =>
    intro s h
    rw [Nat.cast_zero, add_zero]
    exact ⟨h, rfl⟩
  | succ n ih =>
    intro s h
    obtain ⟨hin, hcol⟩ := ih (inside_survives.putc h 32)
    have hone := (putc_space h).x
    rw [Function.iterate_succ_apply]
    refine ⟨hin, hcol.trans ?_⟩
    rw [hone]
    push_cast
    split_ifs <;> omega

/-- The loop writes a space for every round whose test, on the column as it is by then, is met. -/
lemma tabLoop_spaces (n : ℕ) : ∀ {s : Screen} {left : ℕ} {i : ℤ}, Inside s.screenX s.screenY → n ≤ left →
    (∀ m : ℕ, m < n → i + m < 4 - (s.screenX + m) % 4) → ¬ i + n < 4 - (s.screenX + n) % 4 →
    tabLoop left i s = (putc 32)^[n] s := by
  induction n with
  | zero =>
    intro s left i h _ _ hstop
    rw [Nat.cast_zero, add_zero, add_zero] at hstop
    cases left with
    | zero => rfl
    | succ left =>
      rw [tabLoop, Int.tmod_eq_emod_of_nonneg h.1.1, if_neg hstop]
      rfl
  | succ n ih =>
    intro s left i h hleft hgo hstop
    obtain ⟨left, rfl⟩ : ∃ k, left = k + 1 := ⟨left - 1, by omega⟩
    have hfirst := hgo 0 n.succ_pos
    rw [Nat.cast_zero, add_zero, add_zero] at hfirst
    have hround : tabLoop (left + 1) i s = tabLoop left (i + 1) (putc 32 s) := by
      rw [tabLoop, Int.tmod_eq_emod_of_nonneg h.1.1, if_pos hfirst]
      rfl
    have hcol := (spaces_column 1 h).2
    rw [Function.iterate_one] at hcol
    rw [hround, Function.iterate_succ_apply]
    refine ih (inside_survives.putc h 32) (by omega) (fun m hm => ?_) ?_
    · have := hgo (m + 1) (by omega)
      push_cast at this hcol
      omega
    · push_cast at hstop hcol
      omega

/-- What a tab does: a number of spaces, and the cursor of the display is set once more. -/
theorem putc_tab (h : Inside s.screenX s.screenY) :
    putc 9 s = finishPutc ((putc 32)^[tabSpaces s.screenX] s) := by
  have hloop : tabLoop 7 0 s = (putc 32)^[tabSpaces s.screenX] s := by
    refine tabLoop_spaces _ h ?_ (fun m hm => ?_) ?_
    · rw [tabSpaces]
      split_ifs <;> omega
    · rw [tabSpaces] at hm
      split_ifs at hm <;> omega
    · rw [tabSpaces]
      split_ifs <;> omega
  rw [putc, if_pos rfl, hloop]

end Tab

/-- **No tab ends at a tab stop.** On every screen that can be reached, a tab shows what `tabSpaces`
spaces show; these are not the spaces up to the next multiple of 4. -/
theorem tab_never {s : Screen} (h : Reachable s) :
    SameScreen (putc 9 s) ((putc 32)^[tabSpaces s.screenX] s) ∧
      ¬ SpacedTo s (tabStop s.screenX) (putc 9 s) := by
  obtain ⟨hin, hcol⟩ := spaces_column (tabSpaces s.screenX) h.inside
  have hsame : SameScreen (putc 9 s) ((putc 32)^[tabSpaces s.screenX] s) := by
    rw [putc_tab h.inside, finishPutc, wrapLine_keep hin.1, scrollLine_keep hin.2]
    exact ⟨rfl, rfl, fun _ _ _ => rfl⟩
  refine ⟨hsame, fun hstop => ?_⟩
  have hx := hstop.x
  rw [hsame.x] at hx
  rw [tabStop] at hx
  rw [tabSpaces] at hcol hx
  split_ifs at hcol hx <;> omega

/-- On a screen that was just cleared, behind the letter `H`. -/
theorem tab_never_cleared :
    SameScreen (putc 9 (putc 72 (clrscr firstScreen)))
        ((putc 32)^[tabSpaces (putc 72 (clrscr firstScreen)).screenX] (putc 72 (clrscr firstScreen))) ∧
      ¬ SpacedTo (putc 72 (clrscr firstScreen)) (tabStop (putc 72 (clrscr firstScreen)).screenX)
        (putc 9 (putc 72 (clrscr firstScreen))) :=
  tab_never (.putc 72 (.clrscr (.start rfl rfl)))

/-- In the first column two spaces are written, and the cursor stops in the middle. -/
theorem tab_halfway : Reachable firstScreen ∧ (putc 9 firstScreen).screenX = 2 ∧
    ¬ SpacedTo firstScreen (tabStop firstScreen.screenX) (putc 9 firstScreen) := by
  have hx : (putc 9 firstScreen).screenX = 2 := by decide
  refine ⟨.start rfl rfl, hx, fun h => ?_⟩
  have hstop := h.x
  rw [hx] at hstop
  exact absurd hstop (by decide)

end ArcOS.Stdio
