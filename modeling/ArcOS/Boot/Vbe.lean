import ArcOS.Lib.Fill
import Mathlib.Data.Nat.Bitwise
import Mathlib.Tactic.Linarith

/-!
Drawing on the linear frame buffer: `libs/boot/vbe.c`.

Everything is drawn by `VBE_PutPixel`, which stores one word at an index that is computed from the
coordinates. What a function draws is first the set of the indices it fills, for every mode and every
position; that these are exactly the pixels it should draw, and that nothing else is touched, is then a
matter of the mode alone: on the screen the index tells the pixels apart (`pixel_inj`).
-/

namespace ArcOS.Boot

open Lib

/-- The fields of `VbeModeInfo` that say where the pixels are. -/
structure VbeModeInfo where
  pitch : UInt16
  width : UInt16
  height : UInt16

/-- `Point` -/
structure Point where
  X : UInt16
  Y : UInt16

/-- The words of the frame buffer, by their index. -/
abbrev Framebuffer := ℤ → UInt32

/-- `font`: the rows of the glyphs from 0x20 on. What is drawn is said for every table of them. -/
abbrev Font := ℕ → ℕ → UInt8

def fontWidth : ℕ := 8

def fontHeight : ℕ := 16

/-- The index `y * pitch / 4 + x`, in `int`s of 32 bits. -/
def VbeModeInfo.index (modeInfo : VbeModeInfo) (x y : ℤ) : ℤ :=
  ((((y * modeInfo.pitch.toNat).bmod (2 ^ 32)).tdiv 4) + x).bmod (2 ^ 32)

/-- `VBE_PutPixel` -/
def vbePutPixel (modeInfo : VbeModeInfo) (x y : ℤ) (color : UInt32) (fb : Framebuffer) : Framebuffer :=
  Function.update fb (modeInfo.index x y) color

/-- `VBE_DrawChar` -/
def vbeDrawChar (modeInfo : VbeModeInfo) (font : Font) (c : Int8) (x y : ℤ) (color : UInt32)
    (fb : Framebuffer) : Framebuffer :=
  if c.toInt < 0x20 ∨ c.toInt > 0x7F then fb
  else
    let glyph := font (c.toInt - 0x20).toNat
    loop (fun row fb =>
      let bits := glyph row.toNat
      loop (fun col fb =>
        if bits.toNat &&& 1 <<< (7 - col).toNat ≠ 0 then vbePutPixel modeInfo (x + col) (y + row) color fb
        else fb) fontWidth 0 fb) fontHeight 0 fb

/-- `VBE_DrawString`; the loop may make a number of tests. -/
def vbeDrawString (modeInfo : VbeModeInfo) (font : Font) (str : ℕ → Int8) (x y : ℤ) (color : UInt32)
    (fb : Framebuffer) : ℕ → Option Framebuffer
  | 0 => none
  | fuel + 1 =>
    if str 0 ≠ 0 then
      vbeDrawString modeInfo font (fun k => str (k + 1)) (x + fontWidth) y color
        (vbeDrawChar modeInfo font (str 0) x y color fb) fuel
    else some fb

/-- `VBE_DrawRectangle`; the loops may make a number of tests. -/
def vbeDrawRectangle (modeInfo : VbeModeInfo) (topLeft bottomRight : Point) (color : UInt32)
    (fb : Framebuffer) : ℕ → Option Framebuffer :=
  forBelow bottomRight.Y (fun y fb =>
    forBelow bottomRight.X (fun x fb _ => some (vbePutPixel modeInfo x.toNat y.toNat color fb))
      topLeft.X fb) topLeft.Y fb

/-! ### The indices that are filled -/

section Fills

variable {modeInfo : VbeModeInfo} {font : Font} {color : UInt32}

/-- A pixel of the glyph of a character. -/
def Inked (font : Font) (c : Int8) (col row : ℤ) : Prop :=
  0x20 ≤ c.toInt ∧ c.toInt ≤ 0x7F ∧ (0 ≤ col ∧ col < 8) ∧ (0 ≤ row ∧ row < 16) ∧
    (font (c.toInt - 0x20).toNat row.toNat).toNat.testBit (7 - col).toNat = true

/-- The pixels of a rectangle. -/
def InRectangle (topLeft bottomRight : Point) (x y : ℤ) : Prop :=
  (topLeft.X.toNat ≤ x ∧ x < bottomRight.X.toNat) ∧ (topLeft.Y.toNat ≤ y ∧ y < bottomRight.Y.toNat)

/-- The pixels of the glyphs of a string. -/
def InString (font : Font) (str : ℕ → Int8) (n : ℕ) (x y : ℤ) (px py : ℤ) : Prop :=
  ∃ k < n, ∃ col row, Inked font (str k) col row ∧ px = x + 8 * k + col ∧ py = y + row

/-- The indices of a set of pixels. -/
def VbeModeInfo.indices (modeInfo : VbeModeInfo) (pixels : ℤ → ℤ → Prop) : Set ℤ :=
  {i | ∃ x y, pixels x y ∧ i = modeInfo.index x y}

lemma vbePutPixel_fills (x y : ℤ) (fb : Framebuffer) :
    Fills {modeInfo.index x y} color fb (vbePutPixel modeInfo x y color fb) := Fills.cell _ _ _

lemma bit_iff (bits : UInt8) (k : ℕ) : bits.toNat &&& 1 <<< k ≠ 0 ↔ bits.toNat.testBit k = true := by
  rw [Nat.one_shiftLeft, Nat.and_two_pow]
  cases bits.toNat.testBit k <;> simp

theorem vbeDrawChar_fills (c : Int8) (x y : ℤ) (fb : Framebuffer) :
    Fills (modeInfo.indices fun px py => ∃ col row, Inked font c col row ∧ px = x + col ∧ py = y + row)
      color fb (vbeDrawChar modeInfo font c x y color fb) := by
  unfold vbeDrawChar
  split_ifs with hc
  · refine (Fills.none color fb).congr fun i => ⟨fun h => h.elim, ?_⟩
    rintro ⟨px, py, ⟨col, row, ⟨hlow, hhigh, -⟩, -⟩, -⟩
    omega
  · -- a round of the inner loop fills one index, or none
    let cells (row col : ℤ) : Set ℤ :=
      {i | (font (c.toInt - 0x20).toNat row.toNat).toNat.testBit (7 - col).toNat = true ∧
        i = modeInfo.index (x + col) (y + row)}
    refine Fills.congr (fills_loop (s := fun row => inRounds (cells row) 0 (0 + fontWidth))
      (fun row fb => fills_loop (s := cells row) (fun col fb => ?_) fontWidth 0 fb) fontHeight 0 fb)
      fun i => ?_
    · split_ifs with hbit <;> rw [bit_iff] at hbit
      · exact (vbePutPixel_fills _ _ fb).congr fun i => by simp [cells, hbit]
      · exact (Fills.none color fb).congr fun i => by simp [cells, hbit]
    · constructor
      · rintro ⟨row, hrow, hrow', col, hcol, hcol', hbit, hi⟩
        exact ⟨_, _, ⟨col, row, ⟨by omega, by omega, ⟨hcol, hcol'⟩, ⟨hrow, hrow'⟩, hbit⟩, rfl, rfl⟩, hi⟩
      · rintro ⟨px, py, ⟨col, row, ⟨-, -, hcol, hrow, hbit⟩, rfl, rfl⟩, hi⟩
        exact ⟨row, hrow.1, hrow.2, col, hcol.1, hcol.2, hbit, hi⟩

theorem vbeDrawString_fills {n : ℕ} {str : ℕ → Int8} (hstr : ∀ k < n, str k ≠ 0) (hend : str n = 0)
    (x y : ℤ) (fb : Framebuffer) : Ends (vbeDrawString modeInfo font str x y color fb)
      (Fills (modeInfo.indices (InString font str n x y)) color fb) := by
  induction n generalizing str x fb with
  | zero =>
    apply Ends.of_succ
    simp only [vbeDrawString, if_neg (not_not.mpr hend)]
    refine Ends.done ((Fills.none color fb).congr fun i => ⟨fun h => h.elim, ?_⟩)
    rintro ⟨px, py, ⟨k, hk, -⟩, -⟩
    omega
  | succ n ih =>
    apply Ends.of_succ
    simp only [vbeDrawString, if_pos (hstr 0 (Nat.succ_pos n))]
    refine (ih (fun k hk => hstr (k + 1) (by omega)) hend _ _).imp fun g hg => ?_
    refine ((vbeDrawChar_fills (str 0) x y fb).trans hg).congr fun i => ⟨?_, ?_⟩
    · rintro (⟨px, py, ⟨col, row, hink, hx, hy⟩, hi⟩ | ⟨px, py, ⟨k, hk, col, row, hink, hx, hy⟩, hi⟩)
      · exact ⟨px, py, ⟨0, Nat.succ_pos n, col, row, hink, by simpa using hx, hy⟩, hi⟩
      · refine ⟨px, py, ⟨k + 1, by omega, col, row, hink, ?_, hy⟩, hi⟩
        rw [hx]
        simp [fontWidth]
        ring
    · rintro ⟨px, py, ⟨k, hk, col, row, hink, hx, hy⟩, hi⟩
      cases k with
      | zero => exact .inl ⟨px, py, ⟨col, row, hink, by simpa using hx, hy⟩, hi⟩
      | succ k =>
        refine .inr ⟨px, py, ⟨k, by omega, col, row, hink, ?_, hy⟩, hi⟩
        rw [hx]
        simp [fontWidth]
        ring

theorem vbeDrawRectangle_fills (topLeft bottomRight : Point) (fb : Framebuffer) :
    Ends (vbeDrawRectangle modeInfo topLeft bottomRight color fb)
      (Fills (modeInfo.indices (InRectangle topLeft bottomRight)) color fb) := by
  let cell (y x : ℤ) : Set ℤ := {modeInfo.index x y}
  have hrow : ∀ (y : UInt16) (fb : Framebuffer), Ends
      (forBelow bottomRight.X (fun x fb _ => some (vbePutPixel modeInfo x.toNat y.toNat color fb))
        topLeft.X fb)
      (Fills (inRounds (cell y.toNat) topLeft.X.toNat bottomRight.X.toNat) color fb) := fun y fb =>
    forBelow_fills (s := cell y.toNat) (fun x fb => Ends.done (vbePutPixel_fills _ _ fb)) topLeft.X fb
  refine (forBelow_fills
    (s := fun y => inRounds (cell y) topLeft.X.toNat bottomRight.X.toNat) hrow topLeft.Y fb).imp
    fun g hg => hg.congr fun i => ⟨?_, ?_⟩
  · rintro ⟨y, hy, hy', x, hx, hx', hi⟩
    exact ⟨x, y, ⟨⟨hx, hx'⟩, hy, hy'⟩, hi⟩
  · rintro ⟨x, y, ⟨hx, hy⟩, hi⟩
    exact ⟨y, hy.1, hy.2, x, hx.1, hx.2, hi⟩

end Fills

/-! ### The pixels of a linear mode -/

/-- What is assumed of a mode: a row is a whole number of words, and the rows are as long as the screen
is wide. -/
structure VbeModeInfo.Linear (modeInfo : VbeModeInfo) : Prop where
  pitch_mod : modeInfo.pitch.toNat % 4 = 0
  width_le : modeInfo.width.toNat ≤ modeInfo.pitch.toNat / 4
  size_lt : modeInfo.height.toNat * modeInfo.pitch.toNat < 2 ^ 31

/-- The coordinates of the screen. -/
def VbeModeInfo.OnScreen (modeInfo : VbeModeInfo) (x y : ℤ) : Prop :=
  (0 ≤ x ∧ x < modeInfo.width.toNat) ∧ (0 ≤ y ∧ y < modeInfo.height.toNat)

/-- The word of a pixel. -/
def VbeModeInfo.pixel (modeInfo : VbeModeInfo) (x y : ℤ) : ℤ := y * (modeInfo.pitch.toNat / 4 : ℕ) + x

section Pixels

variable {modeInfo : VbeModeInfo} {font : Font} {color : UInt32} {x y x' y' : ℤ} {fb fb' : Framebuffer}

lemma bmod_of_lt {i : ℤ} (h : 0 ≤ i) (hi : i < 2 ^ 31) : i.bmod (2 ^ 32) = i := by
  rw [Int.bmod_eq_emod_of_lt (by omega), Int.emod_eq_of_lt h (by omega)]

lemma index_eq (hm : modeInfo.Linear) (h : modeInfo.OnScreen x y) :
    modeInfo.index x y = modeInfo.pixel x y := by
  obtain ⟨⟨hx, hxw⟩, hy, hyh⟩ := h
  obtain ⟨words, hpitch⟩ := Nat.dvd_of_mod_eq_zero hm.pitch_mod
  have hwidth := hm.width_le
  have hwords : modeInfo.pitch.toNat / 4 = words := by omega
  have hw16 := modeInfo.width.toNat_lt
  have hrow : 0 ≤ y * words := Int.mul_nonneg hy (Int.natCast_nonneg words)
  have hbytes : 4 * (y * words) < 2 ^ 31 := by
    have hsize : (modeInfo.height.toNat : ℤ) * (4 * words) < 2 ^ 31 := by
      have hlt := hm.size_lt
      rw [hpitch] at hlt
      exact_mod_cast hlt
    calc 4 * (y * words) = y * (4 * words) := by ring
      _ ≤ modeInfo.height.toNat * (4 * words) := Int.mul_le_mul_of_nonneg_right (by omega) (by omega)
      _ < 2 ^ 31 := hsize
  have hproduct : y * (modeInfo.pitch.toNat : ℤ) = 4 * (y * words) := by
    rw [hpitch]
    push_cast
    ring
  unfold VbeModeInfo.index VbeModeInfo.pixel
  rw [hproduct, bmod_of_lt (by omega) hbytes, Int.mul_tdiv_cancel_left _ (by decide), hwords,
    bmod_of_lt (by omega) (by omega)]

lemma pixel_inj (hm : modeInfo.Linear) (h : modeInfo.OnScreen x y) (h' : modeInfo.OnScreen x' y')
    (heq : modeInfo.pixel x y = modeInfo.pixel x' y') : x = x' ∧ y = y' := by
  have hwidth := hm.width_le
  obtain ⟨⟨hx, hxw⟩, -⟩ := h
  obtain ⟨⟨hx', hxw'⟩, -⟩ := h'
  exact rowMajor_inj hx (by omega) hx' (by omega) heq

/-- Exactly the pixels of a set are drawn, and no other word is touched. -/
structure Draws (modeInfo : VbeModeInfo) (pixels : ℤ → ℤ → Prop) (color : UInt32)
    (fb fb' : Framebuffer) : Prop where
  drawn : ∀ x y, modeInfo.OnScreen x y → pixels x y → fb' (modeInfo.pixel x y) = color
  kept : ∀ x y, modeInfo.OnScreen x y → ¬ pixels x y →
    fb' (modeInfo.pixel x y) = fb (modeInfo.pixel x y)
  outside : ∀ i, (∀ x y, modeInfo.OnScreen x y → i ≠ modeInfo.pixel x y) → fb' i = fb i

theorem draws_of_fills {pixels : ℤ → ℤ → Prop} (hm : modeInfo.Linear)
    (hin : ∀ x y, pixels x y → modeInfo.OnScreen x y)
    (h : Fills (modeInfo.indices pixels) color fb fb') : Draws modeInfo pixels color fb fb' := by
  refine ⟨fun x y hs hp => ?_, fun x y hs hp => ?_, fun i hi => ?_⟩
  · rw [← index_eq hm hs]
    exact (h _).1 ⟨x, y, hp, rfl⟩
  · refine (h _).2 ?_
    rintro ⟨x', y', hp', heq⟩
    rw [index_eq hm (hin x' y' hp')] at heq
    obtain ⟨rfl, rfl⟩ := pixel_inj hm hs (hin x' y' hp') heq
    exact hp hp'
  · refine (h _).2 ?_
    rintro ⟨x', y', hp', heq⟩
    rw [index_eq hm (hin x' y' hp')] at heq
    exact hi x' y' (hin x' y' hp') heq

/-- The corners of a rectangle: it lies on the screen with all of its points. -/
def RectangleInside (modeInfo : VbeModeInfo) (topLeft bottomRight : Point) : Prop :=
  ∀ x y, InRectangle topLeft bottomRight x y → modeInfo.OnScreen x y

/-- The cells of a string of `n` characters lie on the screen. -/
def CellsInside (modeInfo : VbeModeInfo) (n : ℕ) (x y : ℤ) : Prop :=
  ∀ k < n, ∀ col row : ℤ, 0 ≤ col → col < 8 → 0 ≤ row → row < 16 →
    modeInfo.OnScreen (x + 8 * k + col) (y + row)

lemma inString_onScreen {str : ℕ → Int8} {n : ℕ} {px py : ℤ} (hin : CellsInside modeInfo n x y)
    (h : InString font str n x y px py) : modeInfo.OnScreen px py := by
  obtain ⟨k, hk, col, row, ⟨-, -, hcol, hrow, -⟩, rfl, rfl⟩ := h
  exact hin k hk col row hcol.1 hcol.2 hrow.1 hrow.2

/-- Whatever the corners are, the loops end; a rectangle and a string on the screen are drawn pixel for
pixel, and nothing else is. -/
theorem drawing_exact (modeInfo : VbeModeInfo) (hm : modeInfo.Linear) (font : Font) (color : UInt32)
    (fb : Framebuffer) :
    (∀ topLeft bottomRight,
      Ends (vbeDrawRectangle modeInfo topLeft bottomRight color fb) fun _ => True) ∧
    (∀ topLeft bottomRight, RectangleInside modeInfo topLeft bottomRight →
      Ends (vbeDrawRectangle modeInfo topLeft bottomRight color fb)
        (Draws modeInfo (InRectangle topLeft bottomRight) color fb)) ∧
    ∀ (str : ℕ → Int8) (n : ℕ) (x y : ℤ), (∀ k < n, str k ≠ 0) → str n = 0 →
      CellsInside modeInfo n x y → Ends (vbeDrawString modeInfo font str x y color fb)
        (Draws modeInfo (InString font str n x y) color fb) := by
  refine ⟨fun topLeft bottomRight => ?_, fun topLeft bottomRight hin => ?_,
    fun str n x y hstr hend hin => ?_⟩
  · exact (vbeDrawRectangle_fills topLeft bottomRight fb).imp fun _ _ => trivial
  · exact (vbeDrawRectangle_fills topLeft bottomRight fb).imp fun _ h => draws_of_fills hm hin h
  · exact (vbeDrawString_fills hstr hend x y fb).imp fun _ h =>
      draws_of_fills hm (fun _ _ => inString_onScreen hin) h

/-- The rows of this mode have two words behind the screen. -/
theorem drawing_exact_hi :
    Ends (vbeDrawRectangle ⟨72, 16, 16⟩ ⟨1, 2⟩ ⟨16, 5⟩ 0xFF fun _ => 0)
      (Draws ⟨72, 16, 16⟩ (InRectangle ⟨1, 2⟩ ⟨16, 5⟩) 0xFF fun _ => 0) ∧
    Ends (vbeDrawString ⟨72, 16, 16⟩ (fun _ _ => 0x18) (fun k => [0x48, 0x69].getD k 0) 0 0 0xFF fun _ => 0)
      (Draws ⟨72, 16, 16⟩ (InString (fun _ _ => 0x18) (fun k => [0x48, 0x69].getD k 0) 2 0 0) 0xFF
        fun _ => 0) := by
  have hm : VbeModeInfo.Linear ⟨72, 16, 16⟩ := ⟨by decide, by decide, by decide⟩
  have hexact := drawing_exact _ hm (fun _ _ => 0x18) 0xFF fun _ => 0
  refine ⟨hexact.2.1 _ _ ?_, hexact.2.2 _ 2 0 0 (by decide) rfl ?_⟩
  · rintro x y ⟨⟨hx, hx'⟩, hy, hy'⟩
    simp [VbeModeInfo.OnScreen] at *
    omega
  · intro k hk col row hcol hcol' hrow hrow'
    simp [VbeModeInfo.OnScreen]
    omega

end Pixels

end ArcOS.Boot
