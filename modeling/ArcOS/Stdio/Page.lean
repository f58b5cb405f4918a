import ArcOS.Stdio.Screen
import ArcOS.Lib.Transducer

/-!
The screen as a window on an unbounded page.

On the page nothing is forgotten: a character goes to the place of the cursor, and the lines go on
without end. The screen shows the 25 lines that end at the line of the cursor, or the first 25
(`Shows`). `putc` keeps this for every character but the tab (`Refines.putc`).
-/

namespace ArcOS.Stdio

open Lib

/-! ### The page -/

/-- A page without end, and the place of the cursor on it. -/
structure Page where
  cell : ℕ → ℕ → UInt8
  line : ℕ
  col : ℕ

namespace Page

/-- The page before anything is written. -/
def blank : Page := ⟨fun _ _ => 0, 0, 0⟩

/-- The character at the cursor overwritten, and the cursor moved on. -/
def put (p : Page) (c : UInt8) : Page :=
  { cell := fun l k => if l = p.line ∧ k = p.col then c else p.cell l k
    line := if p.col + 1 = 80 then p.line + 1 else p.line
    col := if p.col + 1 = 80 then 0 else p.col + 1 }

/-- A character written to the page. -/
def write (p : Page) (c : UInt8) : Page :=
  if c = 10 then { p with line := p.line + 1, col := 0 }
  else if c = 13 then { p with col := 0 }
  else p.put c

/-- The first line shown. -/
def top (p : Page) : ℕ := p.line - 24

end Page

/-! ### The cursor of the display -/

/-- The display: the register that is selected, and the two registers of the cursor position. -/
structure Crt where
  selected : UInt8
  low : UInt8
  high : UInt8

/-- A byte sent to a port of the display. -/
def Crt.out (d : Crt) (o : UInt16 × UInt8) : Crt :=
  if o.1 = 0x3D4 then { d with selected := o.2 }
  else if o.1 = 0x3D5 ∧ d.selected = 0x0F then { d with low := o.2 }
  else if o.1 = 0x3D5 ∧ d.selected = 0x0E then { d with high := o.2 }
  else d

/-- The cursor position the display has after the bytes sent. -/
def crtPosition (d : Crt) (ports : List (UInt16 × UInt8)) : ℕ :=
  let d := ports.foldl Crt.out d
  256 * d.high.toNat + d.low.toNat

theorem setcursor_position (d : Crt) (s : Screen) {x y : ℤ} (h : Inside x y) :
    (crtPosition d (setcursor x y s).ports : ℤ) = y * 80 + x := by
  obtain ⟨hcell, h1, h2⟩ := cell_inside h
  have hlow : (posByte (cell x y) 0).toNat = (cell x y % 256).toNat := by
    simp only [posByte, pow_zero, Int.ediv_one, UInt8.toNat_ofNat']
    omega
  have hhigh : (posByte (cell x y) 1).toNat = (cell x y / 256).toNat := by
    simp only [posByte, pow_one, UInt8.toNat_ofNat']
    omega
  have hregs : crtPosition d (setcursor x y s).ports =
      256 * (posByte (cell x y) 1).toNat + (posByte (cell x y) 0).toNat := by
    simp [crtPosition, setcursor, outb, Crt.out]
  rw [hregs, hlow, hhigh, ← hcell]
  push_cast
  omega

/-! ### What the screen shows -/

/-- The screen shows the lines of the page from `top` on, in the default colour, with the cursor at its
place; the page is blank behind the line of the cursor. -/
structure Shows (s : Screen) (p : Page) : Prop where
  x : s.screenX = p.col
  y : s.screenY = p.line - p.top
  col_lt : p.col < 80
  cells : Cells s fun x y => (p.cell (p.top + y.toNat) x.toNat, defaultColor)
  fresh : ∀ l k, p.line < l → p.cell l k = 0

lemma Shows.inside {s : Screen} {p : Page} (h : Shows s p) : Inside s.screenX s.screenY := by
  have := h.col_lt
  rw [h.x, h.y, Page.top]
  exact ⟨⟨by omega, by omega⟩, by omega, by omega⟩

/-- The screen shows the page, the cursor of the display is at its place, and no access was outside the
screen. -/
structure Refines (d : Crt) (old : List Access) (s : Screen) (p : Page) : Prop where
  shows : Shows s p
  position : (crtPosition d s.ports : ℤ) = s.screenY * 80 + s.screenX
  log : ∀ a ∈ s.log, a ∈ old ∨ Inside a.x a.y

section Finish

variable {s : Screen} {p : Page} {d : Crt} {old : List Access}

lemma Shows.setcursor (h : Shows s p) (hlog : ∀ a ∈ s.log, a ∈ old ∨ Inside a.x a.y) :
    Refines d old (setcursor s.screenX s.screenY s) p :=
  ⟨⟨h.x, h.y, h.col_lt, h.cells.of_buffer rfl, h.fresh⟩, setcursor_position d s h.inside, hlog⟩

lemma finishPutc_wrap (hx : s.screenX = 80) :
    finishPutc s = finishPutc { s with screenX := 0, screenY := s.screenY + 1 } := by
  unfold finishPutc
  rw [wrapLine_next hx.ge (by omega)]
  rfl

/-- **The end of `putc`**, with the cursor on a column of the screen: when it is on the line below the
screen, the lines are scrolled up. Before that the screen shows the page from line `t` on. -/
theorem finishPutc_shows {t : ℕ} (hx : s.screenX = p.col) (hcol : p.col < 80)
    (hy : s.screenY = (p.line : ℤ) - t)
    (hcells : Cells s fun x y => (p.cell (t + y.toNat) x.toNat, defaultColor))
    (hfresh : ∀ l k, p.line < l → p.cell l k = 0)
    (ht : t = p.top ∨ t + 25 = p.line ∧ ∀ k, p.cell p.line k = 0)
    (hlog : ∀ a ∈ s.log, a ∈ old ∨ Inside a.x a.y) : Refines d old (finishPutc s) p := by
  rcases ht with rfl | ⟨ht, hblank⟩
  · rw [finishPutc, wrapLine_keep (by omega), scrollLine_keep (by rw [hy, Page.top]; omega)]
    exact Shows.setcursor ⟨hx, hy, hcol, hcells, hfresh⟩ hlog
  · obtain ⟨hcells', hx', hy', -, hlog'⟩ := scrollback_cells 1 (by decide) hcells
    have htop : p.top = t + 1 := by
      rw [Page.top]
      omega
    rw [finishPutc, wrapLine_keep (by omega), scrollLine_up (by omega) (by omega)]
    refine Shows.setcursor ⟨hx'.trans hx, ?_, hcol, hcells'.congr fun x y hin => ?_, hfresh⟩ fun a ha => ?_
    · rw [hy', hy, htop]
      push_cast
      omega
    · obtain ⟨-, h3, h4⟩ := hin
      rw [htop]
      by_cases hy24 : y < 24
      · rw [if_pos (by push_cast; omega),
          show t + (y + ((1 : ℕ) : ℤ)).toNat = t + 1 + y.toNat by omega]
      · rw [if_neg (by push_cast; omega), show t + 1 + y.toNat = p.line by omega, hblank]
    · rcases hlog'.new a ha with ha | ha
      · exact hlog a ha
      · exact Or.inr ha

end Finish

/-! ### The run -/

section Run

variable {s : Screen} {p : Page} {d : Crt} {old : List Access}

lemma Refines.newline (h : Refines d old s p) :
    Refines d old (putc 10 s) { p with line := p.line + 1, col := 0 } := by
  have hs := h.shows
  have hy := hs.y
  rw [putc, if_neg (by decide), putcSwitch, if_pos rfl]
  refine finishPutc_shows (t := p.top) rfl (Nat.zero_lt_succ 79) ?_ (hs.cells.of_buffer rfl)
    (fun l k hl => hs.fresh l k (by simp only at hl; omega)) ?_ h.log
  · simp only [hy]
    push_cast
    omega
  · simp only [Page.top]
    rcases Nat.lt_or_ge p.line 24 with hlt | hge
    · exact Or.inl (by omega)
    · exact Or.inr ⟨by omega, fun k => hs.fresh _ k (by omega)⟩

lemma Refines.carriageReturn (h : Refines d old s p) :
    Refines d old (putc 13 s) { p with col := 0 } := by
  have hs := h.shows
  rw [putc, if_neg (by decide), putcSwitch, if_neg (by decide), if_pos rfl]
  exact finishPutc_shows (t := p.top) rfl (Nat.zero_lt_succ 79) hs.y (hs.cells.of_buffer rfl) hs.fresh
    (Or.inl rfl) h.log

lemma Refines.put (h : Refines d old s p) {c : UInt8} (h9 : c ≠ 9) (h10 : c ≠ 10) (h13 : c ≠ 13) :
    Refines d old (putc c s) (p.put c) := by
  have hs := h.shows
  have hin := hs.inside
  have hy := hs.y
  have hcol := hs.col_lt
  obtain ⟨t, ht⟩ : ∃ t, t = putchr s.screenX s.screenY c s := ⟨_, rfl⟩
  have hdraws := putchr_draws hin c s
  rw [← ht] at hdraws
  have hlog : ∀ a ∈ t.log, a ∈ old ∨ Inside a.x a.y := fun a ha => by
    rcases hdraws.log.new a ha with ha | ha
    · exact h.log a ha
    · exact Or.inr ha
  have hcells : Cells t fun x y => ((p.put c).cell (p.top + y.toNat) x.toNat, defaultColor) := by
    rw [ht]
    apply (hs.cells.putchr hin c).congr
    intro x y hxy
    obtain ⟨⟨h1, h2⟩, h3, h4⟩ := hxy
    simp only [changed, Page.put, hs.x, hy, Page.top]
    by_cases heq : x = p.col ∧ y = (p.line : ℤ) - (p.line - 24 : ℕ)
    · rw [if_pos heq, if_pos (by omega)]
    · rw [if_neg heq, if_neg (by omega)]
  have hfresh : ∀ l k, p.line < l → (p.put c).cell l k = 0 := fun l k hl => by
    simp only [Page.put]
    rw [if_neg (by omega)]
    exact hs.fresh l k hl
  rw [putc, if_neg h9, putcSwitch, if_neg h10, if_neg h13, ← ht]
  by_cases hwrap : p.col + 1 = 80
  · -- column 80: the cursor goes to the next line at once
    have hline : (p.put c).line = p.line + 1 := if_pos hwrap
    rw [finishPutc_wrap (by simp only [hdraws.x, hs.x]; omega)]
    refine finishPutc_shows (t := p.top) ?_ ?_ ?_ (hcells.of_buffer rfl)
      (fun l k hl => hfresh l k (by omega)) ?_ hlog
    · simp only [Page.put, if_pos hwrap]
      rfl
    · simp only [Page.put, if_pos hwrap]
      decide
    · simp only [hdraws.y, hy, hline]
      push_cast
      omega
    · simp only [Page.top, hline]
      rcases Nat.lt_or_ge p.line 24 with hlt | hge
      · exact Or.inl (by omega)
      · exact Or.inr ⟨by omega, fun k => hfresh _ k (by omega)⟩
  · have hline : (p.put c).line = p.line := if_neg hwrap
    refine finishPutc_shows (t := p.top) ?_ ?_ ?_ (hcells.of_buffer rfl)
      (fun l k hl => hfresh l k (by omega)) ?_ hlog
    · simp only [Page.put, if_neg hwrap, hdraws.x, hs.x]
      push_cast
      rfl
    · simp only [Page.put, if_neg hwrap]
      omega
    · simp only [hdraws.y, hy, hline]
    · simp only [Page.top, hline]
      exact Or.inl trivial

/-- **`putc` writes to the page**, for every character but the tab. -/
theorem Refines.putc (h : Refines d old s p) {c : UInt8} (hc : c ≠ 9) :
    Refines d old (putc c s) (p.write c) := by
  by_cases h10 : c = 10
  · subst h10
    exact h.newline
  · by_cases h13 : c = 13
    · subst h13
      exact h.carriageReturn
    · rw [Page.write, if_neg h10, if_neg h13]
      exact h.put hc h10 h13

theorem clrscr_refines (d : Crt) (s : Screen) : Refines d s.log (clrscr s) .blank := by
  obtain ⟨hdraws, hcells⟩ := blankRows_cells 25 (s := s) (y := 0) (f := fun x y =>
    (s.screenBuffer (charByte x y), s.screenBuffer (colorByte x y))) le_rfl (by decide)
    (fun _ _ _ => rfl)
  obtain ⟨t, ht⟩ : ∃ t, t = blankRows 25 0 s := ⟨_, rfl⟩
  rw [← ht] at hdraws hcells
  simp only [clrscr, ← ht]
  refine Shows.setcursor (s := { t with screenX := 0, screenY := 0 })
    ⟨rfl, rfl, Nat.zero_lt_succ 79, (hcells.of_buffer rfl).congr fun x y hin => ?_, fun _ _ _ => rfl⟩
    hdraws.log.new
  exact if_pos ⟨hin.2.1, by have := hin.2.2; push_cast; omega⟩

end Run

/-- **The screen refines an unbounded page.** After `clrscr` and any characters other than tabs, the
screen shows the page the characters were written to; the cursor is on the screen, no access was to
anything but the 2000 cells, and the display has its cursor at `y * 80 + x`. -/
theorem screen_refines_page (s₀ : Screen) (d : Crt) (cs : List UInt8) (hcs : ∀ c ∈ cs, c ≠ 9) :
    let s := cs.foldl (fun s c => putc c s) (clrscr s₀)
    let p := cs.foldl Page.write .blank
    Shows s p ∧ ((0 ≤ s.screenX ∧ s.screenX < 80) ∧ 0 ≤ s.screenY ∧ s.screenY < 25) ∧
      (∀ a ∈ s.log, a ∈ s₀.log ∨ 0 ≤ cell a.x a.y ∧ cell a.x a.y < 2000) ∧
      (crtPosition d s.ports : ℤ) = s.screenY * 80 + s.screenX := by
  have hrun : ∀ (cs : List UInt8) (s : Screen) (p : Page), (∀ c ∈ cs, c ≠ 9) → Refines d s₀.log s p →
      Refines d s₀.log (cs.foldl (fun s c => putc c s) s) (cs.foldl Page.write p) := by
    intro cs
    induction cs with
    | nil => exact fun _ _ _ h => h
    | cons c cs ih =>
      exact fun s p hcs h => ih _ _ (fun e he => hcs e (List.mem_cons_of_mem _ he))
        (h.putc (hcs c List.mem_cons_self))
  have h := hrun cs _ _ hcs (clrscr_refines d s₀)
  refine ⟨h.shows, h.shows.inside, fun a ha => ?_, h.position⟩
  rcases h.log a ha with ha | ha
  · exact Or.inl ha
  · exact Or.inr (cell_inside ha).2

/-- Three characters on a screen that held anything. -/
theorem screen_refines_page_word :
    let s := [72, 10, 105].foldl (fun s c => putc c s) (clrscr ⟨fun i => UInt8.ofNat i.toNat, 3, 7, [], []⟩)
    let p := [72, 10, 105].foldl Page.write .blank
    Shows s p ∧ ((0 ≤ s.screenX ∧ s.screenX < 80) ∧ 0 ≤ s.screenY ∧ s.screenY < 25) ∧
      (∀ a ∈ s.log, a ∈ [] ∨ 0 ≤ cell a.x a.y ∧ cell a.x a.y < 2000) ∧
      (crtPosition ⟨0, 0, 0⟩ s.ports : ℤ) = s.screenY * 80 + s.screenX :=
  screen_refines_page ⟨fun i => UInt8.ofNat i.toNat, 3, 7, [], []⟩ ⟨0, 0, 0⟩ [72, 10, 105] (by simp)

end ArcOS.Stdio
