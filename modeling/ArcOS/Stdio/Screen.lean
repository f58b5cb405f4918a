import ArcOS.Lib.Loop
import Mathlib.Logic.Function.Basic

/-!
The text screen: `putchr`, `setcursor`, `clrscr`, `scrollback` and `putc`.

The boot loader and the kernel hold the same code. Coordinates are signed and the arithmetic on them
unsigned, as in the source. Every access to a cell is logged, and so is every byte sent to a port.
-/

namespace ArcOS.Stdio

open Lib

/-! ### The state -/

/-- The functions that access a cell. -/
inductive AccessKind where
  | putchr
  | putcolor
  | getchr
  | getcolor
  deriving DecidableEq

/-- An access to the cell at `(x, y)`. -/
structure Access where
  kind : AccessKind
  x : ℤ
  y : ℤ
  deriving DecidableEq

/-- The screen buffer and the cursor, with the logs of the accesses and of the bytes sent to ports. -/
structure Screen where
  screenBuffer : ℤ → UInt8
  screenX : ℤ
  screenY : ℤ
  ports : List (UInt16 × UInt8)
  log : List Access

/-- `DEFAULT_COLOR` -/
def defaultColor : UInt8 := 7

/-- A signed number converted to unsigned. -/
def unsigned (n : ℤ) : ℤ := n % 2 ^ 32

/-- `y * SCREEN_WIDTH + x` -/
def cell (x y : ℤ) : ℤ := unsigned (y * 80 + x)

/-- The index of the character of a cell. -/
def charByte (x y : ℤ) : ℤ := unsigned (2 * cell x y)

/-- The index of the colour of a cell. -/
def colorByte (x y : ℤ) : ℤ := unsigned (2 * cell x y + 1)

/-! ### Cells -/

/-- `putchr` -/
def putchr (x y : ℤ) (c : UInt8) (s : Screen) : Screen :=
  { s with screenBuffer := Function.update s.screenBuffer (charByte x y) c
           log := s.log ++ [⟨.putchr, x, y⟩] }

/-- `putcolor` -/
def putcolor (x y : ℤ) (color : UInt8) (s : Screen) : Screen :=
  { s with screenBuffer := Function.update s.screenBuffer (colorByte x y) color
           log := s.log ++ [⟨.putcolor, x, y⟩] }

/-- `getchr` -/
def getchr (x y : ℤ) (s : Screen) : UInt8 × Screen :=
  (s.screenBuffer (charByte x y), { s with log := s.log ++ [⟨.getchr, x, y⟩] })

/-- `getcolor` -/
def getcolor (x y : ℤ) (s : Screen) : UInt8 × Screen :=
  (s.screenBuffer (colorByte x y), { s with log := s.log ++ [⟨.getcolor, x, y⟩] })

/-! ### The cursor -/

/-- `i686_outb`, and `x86_outb` of the boot loader -/
def outb (port : UInt16) (value : UInt8) (s : Screen) : Screen :=
  { s with ports := s.ports ++ [(port, value)] }

/-- `(uint8_t)(pos & 0xFF)` of the position, shifted right by `8 * k` -/
def posByte (pos : ℤ) (k : ℕ) : UInt8 := UInt8.ofNat ((pos / 256 ^ k) % 256).toNat

/-- `setcursor` -/
def setcursor (x y : ℤ) (s : Screen) : Screen :=
  let pos := cell x y
  outb 0x3D5 (posByte pos 1) (outb 0x3D4 0x0E (outb 0x3D5 (posByte pos 0) (outb 0x3D4 0x0F s)))

/-! ### Clearing and scrolling -/

/-- `putchr(x, y, '\0'); putcolor(x, y, DEFAULT_COLOR);` -/
def blankCell (x y : ℤ) (s : Screen) : Screen := putcolor x y defaultColor (putchr x y 0 s)

/-- `putchr(x, y - lines, getchr(x, y));` -/
def copyChar (lines x y : ℤ) (s : Screen) : Screen :=
  putchr x (y - lines) (getchr x y s).1 (getchr x y s).2

/-- `putcolor(x, y - lines, getcolor(x, y));` -/
def copyColor (lines x y : ℤ) (s : Screen) : Screen :=
  putcolor x (y - lines) (getcolor x y s).1 (getcolor x y s).2

/-- The rows from `y` on are made blank. -/
def blankRows (rows : ℕ) (y : ℤ) (s : Screen) : Screen :=
  loop (fun y => loop (fun x => blankCell x y) 80 0) rows y s

/-- The rows from `y` on are copied up. -/
def copyRows (lines : ℤ) (rows : ℕ) (y : ℤ) (s : Screen) : Screen :=
  loop (fun y => loop (fun x s => copyColor lines x y (copyChar lines x y s)) 80 0) rows y s

/-- `clrscr` -/
def clrscr (s : Screen) : Screen :=
  let s := { blankRows 25 0 s with screenX := 0, screenY := 0 }
  setcursor s.screenX s.screenY s

/-- `scrollback`, for at most 25 lines -/
def scrollback (lines : ℕ) (s : Screen) : Screen :=
  let s := blankRows lines (25 - lines) (copyRows lines (25 - lines) lines s)
  { s with screenY := s.screenY - lines }

/-! ### `putc` -/

/-- `if (g_ScreenX >= SCREEN_WIDTH)`: the next line -/
def wrapLine (s : Screen) : Screen :=
  if unsigned s.screenX ≥ 80 then { s with screenY := s.screenY + 1, screenX := 0 } else s

/-- `if (g_ScreenY >= SCREEN_HEIGHT)`: the lines go up -/
def scrollLine (s : Screen) : Screen := if unsigned s.screenY ≥ 25 then scrollback 1 s else s

/-- What `putc` does after its `switch`. -/
def finishPutc (s : Screen) : Screen :=
  let s := scrollLine (wrapLine s)
  setcursor s.screenX s.screenY s

/-- The `switch` of `putc` on a character other than a tab. -/
def putcSwitch (c : UInt8) (s : Screen) : Screen :=
  if c = 10 then { s with screenX := 0, screenY := s.screenY + 1 } -- '\n'
  else if c = 13 then { s with screenX := 0 } -- '\r'
  else
    let s := putchr s.screenX s.screenY c s
    { s with screenX := s.screenX + 1 }

/-- The loop of a tab. The bound is read anew in every round; it is at most 7. -/
def tabLoop : ℕ → ℤ → Screen → Screen
  | 0, _, s => s
  | left + 1, i, s =>
    if i < 4 - s.screenX.tmod 4 then tabLoop left (i + 1) (finishPutc (putcSwitch 32 s)) else s

/-- `putc` -/
def putc (c : UInt8) (s : Screen) : Screen :=
  finishPutc (if c = 9 then tabLoop 7 0 s else putcSwitch c s) -- '\t'

/-! ### The cells of the screen -/

/-- The place is on the screen. -/
def Inside (x y : ℤ) : Prop := (0 ≤ x ∧ x < 80) ∧ 0 ≤ y ∧ y < 25

lemma unsigned_small {n : ℤ} (h : 0 ≤ n) (h' : n < 2 ^ 32) : unsigned n = n := Int.emod_eq_of_lt h h'

theorem cell_inside {x y : ℤ} (h : Inside x y) : cell x y = y * 80 + x ∧ 0 ≤ cell x y ∧ cell x y < 2000 := by
  obtain ⟨⟨h1, h2⟩, h3, h4⟩ := h
  have hcell : cell x y = y * 80 + x := unsigned_small (by omega) (by omega)
  refine ⟨hcell, ?_, ?_⟩
  · rw [hcell]
    omega
  · rw [hcell]
    omega

lemma charByte_inside {x y : ℤ} (h : Inside x y) : charByte x y = 2 * (y * 80 + x) := by
  obtain ⟨hcell, h1, h2⟩ := cell_inside h
  rw [charByte, unsigned_small (by omega) (by omega), hcell]

lemma colorByte_inside {x y : ℤ} (h : Inside x y) : colorByte x y = 2 * (y * 80 + x) + 1 := by
  obtain ⟨hcell, h1, h2⟩ := cell_inside h
  rw [colorByte, unsigned_small (by omega) (by omega), hcell]

lemma charByte_inj {x y x' y' : ℤ} (h : Inside x y) (h' : Inside x' y') :
    charByte x y = charByte x' y' ↔ x = x' ∧ y = y' := by
  rw [charByte_inside h, charByte_inside h']
  obtain ⟨⟨h1, h2⟩, h3, h4⟩ := h
  obtain ⟨⟨h5, h6⟩, h7, h8⟩ := h'
  omega

lemma colorByte_inj {x y x' y' : ℤ} (h : Inside x y) (h' : Inside x' y') :
    colorByte x y = colorByte x' y' ↔ x = x' ∧ y = y' := by
  rw [colorByte_inside h, colorByte_inside h']
  obtain ⟨⟨h1, h2⟩, h3, h4⟩ := h
  obtain ⟨⟨h5, h6⟩, h7, h8⟩ := h'
  omega

lemma charByte_ne_colorByte {x y x' y' : ℤ} (h : Inside x y) (h' : Inside x' y') :
    charByte x y ≠ colorByte x' y' := by
  rw [charByte_inside h, colorByte_inside h']
  omega

/-- Each cell of the screen holds the character and the colour given by `f`. -/
def Cells (s : Screen) (f : ℤ → ℤ → UInt8 × UInt8) : Prop :=
  ∀ x y, Inside x y → (s.screenBuffer (charByte x y), s.screenBuffer (colorByte x y)) = f x y

/-- One cell changed. -/
def changed (f : ℤ → ℤ → UInt8 × UInt8) (x y : ℤ) (v : UInt8 × UInt8) : ℤ → ℤ → UInt8 × UInt8 :=
  fun x' y' => if x' = x ∧ y' = y then v else f x' y'

section Cells

variable {s t : Screen} {f : ℤ → ℤ → UInt8 × UInt8} {x y : ℤ}

lemma Cells.congr {g : ℤ → ℤ → UInt8 × UInt8} (h : Cells s f) (hfg : ∀ x y, Inside x y → f x y = g x y) :
    Cells s g := fun x y hxy => (h x y hxy).trans (hfg x y hxy)

lemma Cells.of_buffer (h : Cells s f) (heq : t.screenBuffer = s.screenBuffer) : Cells t f := by
  intro x y hxy
  rw [heq]
  exact h x y hxy

theorem Cells.putchr (h : Cells s f) (hxy : Inside x y) (c : UInt8) :
    Cells (putchr x y c s) (changed f x y (c, (f x y).2)) := by
  intro x' y' hxy'
  have hold := h x' y' hxy'
  simp only [Stdio.putchr, changed, Function.update_apply, charByte_inj hxy' hxy,
    (charByte_ne_colorByte hxy hxy').symm, if_false]
  split
  · rename_i heq
    obtain ⟨rfl, rfl⟩ := heq
    rw [← hold]
  · exact hold

theorem Cells.putcolor (h : Cells s f) (hxy : Inside x y) (color : UInt8) :
    Cells (putcolor x y color s) (changed f x y ((f x y).1, color)) := by
  intro x' y' hxy'
  have hold := h x' y' hxy'
  simp only [Stdio.putcolor, changed, Function.update_apply, colorByte_inj hxy' hxy,
    charByte_ne_colorByte hxy' hxy, if_false]
  split
  · rename_i heq
    obtain ⟨rfl, rfl⟩ := heq
    rw [← hold]
  · exact hold

lemma Cells.blankCell (h : Cells s f) (hxy : Inside x y) :
    Cells (blankCell x y s) (changed f x y (0, defaultColor)) := by
  apply ((h.putchr hxy 0).putcolor hxy defaultColor).congr
  intro x' y' _
  simp only [changed]
  split <;> simp

lemma Cells.copyCell {lines : ℤ} (h : Cells s f) (hxy : Inside x y) (hto : Inside x (y - lines)) :
    Cells (copyColor lines x y (copyChar lines x y s)) (changed f x (y - lines) (f x y)) := by
  have hchar : Cells (copyChar lines x y s)
      (changed f x (y - lines) (s.screenBuffer (charByte x y), (f x (y - lines)).2)) :=
    (h.of_buffer (t := (getchr x y s).2) rfl).putchr hto _
  have hcolor := (hchar.of_buffer (t := (getcolor x y (copyChar lines x y s)).2) rfl).putcolor hto
    (getcolor x y (copyChar lines x y s)).1
  apply hcolor.congr
  intro x' y' _
  have hread : (getcolor x y (copyChar lines x y s)).1 = (f x y).2 := by
    have := congrArg Prod.snd (hchar x y hxy)
    simp only [changed] at this
    rw [getcolor, this]
    split
    · rename_i heq
      rw [← heq.2]
    · rfl
  have hold : s.screenBuffer (charByte x y) = (f x y).1 := congrArg Prod.fst (h x y hxy)
  rw [hread, hold]
  simp only [changed]
  split <;> simp

end Cells

/-! ### The loops -/

/-- Only cells of the screen were accessed in between. -/
structure Within (s t : Screen) : Prop where
  old : ∀ a ∈ s.log, a ∈ t.log
  new : ∀ a ∈ t.log, a ∈ s.log ∨ Inside a.x a.y

/-- Drawing: the cursor and the ports are left alone, and only cells of the screen are accessed. -/
structure Draws (s t : Screen) : Prop where
  x : t.screenX = s.screenX
  y : t.screenY = s.screenY
  ports : t.ports = s.ports
  log : Within s t

section Loops

variable {s t u : Screen} {f : ℤ → ℤ → UInt8 × UInt8} {x y lines : ℤ}

lemma Within.of_log (h : t.log = s.log) : Within s t := by
  refine ⟨fun a ha => ?_, fun a ha => Or.inl ?_⟩
  · rwa [h]
  · rwa [h] at ha

lemma Within.trans (h : Within s t) (h' : Within t u) : Within s u where
  old a ha := h'.old a (h.old a ha)
  new a ha := by
    rcases h'.new a ha with hat | hin
    · exact h.new a hat
    · exact Or.inr hin

lemma Within.of_access {kind : AccessKind} (hxy : Inside x y) (h : t.log = s.log ++ [⟨kind, x, y⟩]) :
    Within s t := by
  refine ⟨fun a ha => ?_, fun a ha => ?_⟩
  · rw [h]
    exact List.mem_append_left _ ha
  · rw [h] at ha
    rcases List.mem_append.mp ha with ha | ha
    · exact Or.inl ha
    · rw [List.mem_singleton.mp ha]
      exact Or.inr hxy

lemma Draws.refl (s : Screen) : Draws s s := ⟨rfl, rfl, rfl, .of_log rfl⟩

lemma Draws.trans (h : Draws s t) (h' : Draws t u) : Draws s u where
  x := h'.x.trans h.x
  y := h'.y.trans h.y
  ports := h'.ports.trans h.ports
  log := h.log.trans h'.log

lemma Draws.of_access {kind : AccessKind} (hxy : Inside x y) (hx : t.screenX = s.screenX)
    (hy : t.screenY = s.screenY) (hports : t.ports = s.ports) (hlog : t.log = s.log ++ [⟨kind, x, y⟩]) :
    Draws s t := ⟨hx, hy, hports, .of_access hxy hlog⟩

lemma putchr_draws (hxy : Inside x y) (c : UInt8) (s : Screen) : Draws s (putchr x y c s) :=
  .of_access hxy rfl rfl rfl rfl

lemma blankCell_draws (hxy : Inside x y) (s : Screen) : Draws s (blankCell x y s) :=
  (putchr_draws hxy 0 s).trans (.of_access hxy rfl rfl rfl rfl)

lemma copyCell_draws (hxy : Inside x y) (hto : Inside x (y - lines)) (s : Screen) :
    Draws s (copyColor lines x y (copyChar lines x y s)) := by
  have hread : Draws s (getchr x y s).2 := .of_access hxy rfl rfl rfl rfl
  have hchar : Draws s (copyChar lines x y s) := hread.trans (putchr_draws hto _ _)
  have hread' : Draws (copyChar lines x y s) (getcolor x y (copyChar lines x y s)).2 :=
    .of_access hxy rfl rfl rfl rfl
  exact (hchar.trans hread').trans (.of_access hto rfl rfl rfl rfl)

lemma loop_row {body : ℤ → Screen → Screen} {g : ℤ → ℤ → ℤ → UInt8 × UInt8}
    (hbody : ∀ x s, Inside x 0 → Cells s (g x) → Draws s (body x s) ∧ Cells (body x s) (g (x + 1)))
    (h : Cells s (g 0)) : Draws s (loop body 80 0 s) ∧ Cells (loop body 80 0 s) (g 80) :=
  loop_inv (P := fun x t => Draws s t ∧ Cells t (g x)) ⟨.refl s, h⟩ fun x t hx hx' ht =>
    have hstep := hbody x t ⟨⟨hx, by simpa using hx'⟩, by decide⟩ ht.2
    ⟨ht.1.trans hstep.1, hstep.2⟩

theorem blankRows_cells (rows : ℕ) (hy : 0 ≤ y) (hrows : y + rows ≤ 25) (h : Cells s f) :
    Draws s (blankRows rows y s) ∧ Cells (blankRows rows y s)
      fun x' y' => if y ≤ y' ∧ y' < y + rows then (0, defaultColor) else f x' y' := by
  refine loop_inv (P := fun z t => Draws s t ∧
    Cells t fun x' y' => if y ≤ y' ∧ y' < z then (0, defaultColor) else f x' y')
    ⟨.refl s, h.congr fun x' y' _ => (if_neg (by omega)).symm⟩ fun z t hz hz' ht => ?_
  have hbody : ∀ x u, Inside x 0 →
      Cells u (fun x' y' => if (y ≤ y' ∧ y' < z) ∨ (y' = z ∧ x' < x) then (0, defaultColor)
        else f x' y') →
      Draws u (blankCell x z u) ∧ Cells (blankCell x z u) (fun x' y' =>
        if (y ≤ y' ∧ y' < z) ∨ (y' = z ∧ x' < x + 1) then (0, defaultColor) else f x' y') := by
    intro x u hx hu
    have hxz : Inside x z := ⟨hx.1, by omega, by omega⟩
    refine ⟨blankCell_draws hxz u, (hu.blankCell hxz).congr fun x' y' hin => ?_⟩
    simp only [changed]
    by_cases heq : x' = x ∧ y' = z
    · rw [if_pos heq, if_pos (by omega)]
    · rw [if_neg heq]
      exact if_congr (by omega) rfl rfl
  obtain ⟨hdraws, hcells⟩ := loop_row hbody (ht.2.congr fun x' y' hin => by
    obtain ⟨⟨h1, h2⟩, h3, h4⟩ := hin
    exact if_congr (by omega) rfl rfl)
  refine ⟨ht.1.trans hdraws, hcells.congr fun x' y' hin => ?_⟩
  obtain ⟨⟨h1, h2⟩, h3, h4⟩ := hin
  exact if_congr (by omega) rfl rfl

theorem copyRows_cells (lines rows : ℕ) (hrows : lines + rows ≤ 25) (h : Cells s f) :
    Draws s (copyRows lines rows lines s) ∧ Cells (copyRows lines rows lines s)
      fun x' y' => if y' < rows then f x' (y' + lines) else f x' y' := by
  have hstep : ∀ (z : ℤ) (t : Screen), lines ≤ z → z < lines + rows →
      (Draws s t ∧ Cells t fun x' y' => if y' + lines < z then f x' (y' + lines) else f x' y') →
      Draws s (loop (fun x s => copyColor lines x z (copyChar lines x z s)) 80 0 t) ∧
        Cells (loop (fun x s => copyColor lines x z (copyChar lines x z s)) 80 0 t) fun x' y' =>
          if y' + lines < z + 1 then f x' (y' + lines) else f x' y' := by
    intro z t hz hz' ht
    have hbody : ∀ x u, Inside x 0 →
        Cells u (fun x' y' => if y' + lines < z ∨ (y' + lines = z ∧ x' < x) then f x' (y' + lines)
          else f x' y') →
        Draws u (copyColor lines x z (copyChar lines x z u)) ∧
          Cells (copyColor lines x z (copyChar lines x z u)) (fun x' y' =>
            if y' + lines < z ∨ (y' + lines = z ∧ x' < x + 1) then f x' (y' + lines)
            else f x' y') := by
      intro x u hx hu
      have hxz : Inside x z := ⟨hx.1, by omega, by omega⟩
      have hto : Inside x (z - lines) := ⟨hx.1, by omega, by omega⟩
      refine ⟨copyCell_draws hxz hto u, (hu.copyCell hxz hto).congr fun x' y' hin => ?_⟩
      simp only [changed]
      by_cases heq : x' = x ∧ y' = z - lines
      · obtain ⟨rfl, rfl⟩ := heq
        -- row `z` itself is read before anything is copied to it
        rw [if_pos ⟨rfl, rfl⟩, if_neg (by omega), if_pos (by omega), Int.sub_add_cancel]
      · rw [if_neg heq]
        exact if_congr (by omega) rfl rfl
    obtain ⟨hdraws, hcells⟩ := loop_row hbody (ht.2.congr fun x' y' hin => by
      obtain ⟨⟨h1, h2⟩, h3, h4⟩ := hin
      exact if_congr (by omega) rfl rfl)
    refine ⟨ht.1.trans hdraws, hcells.congr fun x' y' hin => ?_⟩
    obtain ⟨⟨h1, h2⟩, h3, h4⟩ := hin
    exact if_congr (by omega) rfl rfl
  have hstart : Draws s s ∧
      Cells s fun x' y' => if y' + lines < (lines : ℤ) then f x' (y' + lines) else f x' y' :=
    ⟨.refl s, h.congr fun x' y' hin => (if_neg (by have := hin.2.1; omega)).symm⟩
  obtain ⟨hdraws, hcells⟩ := loop_inv (P := fun z t => Draws s t ∧
    Cells t fun x' y' => if y' + lines < z then f x' (y' + lines) else f x' y') hstart hstep
  exact ⟨hdraws, hcells.congr fun x' y' _ => if_congr (by omega) rfl rfl⟩

theorem scrollback_cells (lines : ℕ) (hlines : lines ≤ 25) (h : Cells s f) :
    (Cells (scrollback lines s) fun x' y' =>
      if y' < 25 - lines then f x' (y' + lines) else (0, defaultColor)) ∧
    (scrollback lines s).screenX = s.screenX ∧
    (scrollback lines s).screenY = s.screenY - lines ∧ (scrollback lines s).ports = s.ports ∧
    Within s (scrollback lines s) := by
  obtain ⟨hdraws, hcells⟩ := copyRows_cells lines (25 - lines) (by omega) h
  obtain ⟨hdraws', hcells'⟩ := blankRows_cells lines (y := 25 - lines) (by omega) (by omega) hcells
  have hall := hdraws.trans hdraws'
  refine ⟨(hcells'.of_buffer rfl).congr fun x' y' hin => ?_, hall.x, ?_, hall.ports,
    hall.log.trans (.of_log rfl)⟩
  · obtain ⟨⟨h1, h2⟩, h3, h4⟩ := hin
    by_cases hy : y' < 25 - lines
    · rw [if_neg (by omega), if_pos (by omega), if_pos hy]
    · rw [if_pos (by omega), if_neg hy]
  · simp only [scrollback, hall.y]

end Loops

/-! ### The end of `putc` -/

section Finish

variable {s : Screen}

lemma wrapLine_keep (h : 0 ≤ s.screenX ∧ s.screenX < 80) : wrapLine s = s := by
  rw [wrapLine, unsigned_small h.1 (by omega), if_neg (by omega)]

lemma wrapLine_next (h : 80 ≤ s.screenX) (h' : s.screenX < 2 ^ 32) :
    wrapLine s = { s with screenY := s.screenY + 1, screenX := 0 } := by
  rw [wrapLine, unsigned_small (by omega) h', if_pos h]

lemma scrollLine_keep (h : 0 ≤ s.screenY ∧ s.screenY < 25) : scrollLine s = s := by
  rw [scrollLine, unsigned_small h.1 (by omega), if_neg (by omega)]

lemma scrollLine_up (h : 25 ≤ s.screenY) (h' : s.screenY < 2 ^ 32) :
    scrollLine s = scrollback 1 s := by
  rw [scrollLine, unsigned_small (by omega) h', if_pos h]

end Finish

end ArcOS.Stdio
