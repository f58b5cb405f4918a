import ArcOS.Boot.Vbe
import ArcOS.Stdio.Printf

/-!
The choice of the video mode and the screens of `libs/boot/vbe.c`.

The BIOS is a parameter, with a state of its own. `VBE_Initialize` asks it for the modes of its list one after
another and takes the first that is good (`modeLoop_ends`); what it draws then covers the whole screen
(`vbeInitialize_splash`). `VBE_DrawOS` paints every pixel in its own colour and a bar over them, whose corners are
computed in 16 bits (`vbeDrawOS_exact`).
-/

namespace ArcOS.Boot

open Lib Stdio

/-! ### The BIOS -/

/-- The fields of `VbeModeInfo` that `VBE_Initialize` looks at, besides those that are drawn with. -/
structure ModeInfo extends VbeModeInfo where
  attributes : UInt16
  bpp : UInt8

/-- INT 10h as `x86.asm` shows it: the status, which is 0 on success, and the block filled by 4F01h, with the
memory that 4F00h points to with its `VideoModePtr`. -/
structure VideoBios (σ : Type*) where
  getVbeInfo : σ → Int32 × σ
  videoModePtr : σ → UInt32
  word : UInt32 → σ → UInt16
  getModeInfo : UInt16 → σ → (Int32 × ModeInfo) × σ
  setMode : UInt16 → σ → Int32 × σ

/-- The state of `vbe.c`, with the BIOS, the frame buffer of the mode in `modeInfo` and what is printed. -/
structure Video (σ : Type*) where
  bios : σ
  modeInfo : ModeInfo
  pickedMode : UInt16
  fb : Framebuffer
  out : List UInt8

/-! ### `vbe.c` -/

def desiredWidth : ℕ := 1024

def desiredHeight : ℕ := 768

def desiredBpp : ℕ := 32

/-- `SEGOFF2LIN` -/
def segOff2Lin (segoff : UInt32) : UInt32 := ((segoff >>> 16) <<< 4) + (segoff &&& 0xFFFF)

/-- The test that `VBE_Initialize` makes of a mode. -/
def ModeInfo.Good (modeInfo : ModeInfo) : Prop :=
  modeInfo.attributes &&& 0x90 = 0x90 ∧ modeInfo.width.toNat = desiredWidth ∧
    modeInfo.height.toNat = desiredHeight ∧ modeInfo.bpp.toNat = desiredBpp

instance : DecidablePred ModeInfo.Good := fun _ => by unfold ModeInfo.Good; infer_instance

/-- What is printed of a mode that the BIOS has no information on. -/
def modeLine (mode : UInt16) : List UInt8 :=
  printed "Can't get mode info %x\n" [.int mode.toUInt32]

/-- `strlen`; the loop may make a number of tests. -/
def strlen (str : ℕ → Int8) (len : UInt32) : ℕ → Option UInt32
  | 0 => none
  | fuel + 1 => if str 0 ≠ 0 then strlen (fun k => str (k + 1)) (len + 1) fuel else some len

/-- `text` -/
def splashText : List UInt8 := ascii "Press Enter to Continue to Kernel"

/-- A string literal in memory. -/
def literal (text : List UInt8) (k : ℕ) : Int8 := (text.getD k 0).toInt8

section

variable {σ : Type*} (bios : VideoBios σ) (font : Font)

/-- The loop of `VBE_Initialize` over the modes from an address on. -/
def modeLoop (modes : UInt32) (i : ℕ) (v : Video σ) : ℕ → Option (Video σ)
  | 0 => none
  | fuel + 1 =>
    let mode (s : σ) := bios.word (modes + 2 * UInt32.ofNat i) s
    if mode v.bios = 0xFFFF then some v
    else
      let r := bios.getModeInfo (mode v.bios) v.bios
      let v := { v with bios := r.2, modeInfo := r.1.2 }
      if r.1.1 ≠ 0 then modeLoop modes (i + 1) { v with out := v.out ++ modeLine (mode v.bios) } fuel
      else if v.modeInfo.Good then some { v with pickedMode := mode v.bios }
      else modeLoop modes (i + 1) v fuel

/-- What is drawn once the mode is set. -/
def drawSplash (modeInfo : VbeModeInfo) (fb : Framebuffer) (fuel : ℕ) : Option Framebuffer :=
  (vbeDrawRectangle modeInfo ⟨0, 0⟩ ⟨desiredWidth.toUInt16, desiredHeight.toUInt16⟩ 0x0000FF fb fuel).bind
    fun fb => (strlen (literal splashText) 0 fuel).bind fun len =>
      vbeDrawString modeInfo font (literal splashText)
        ((UInt32.ofNat desiredWidth - len * UInt32.ofNat fontWidth) / 2).toNat
        ((desiredHeight - fontHeight) / 2 : ℕ) 0xFFFFFFFF fb fuel

/-- `VBE_Initialize` -/
def vbeInitialize (v : Video σ) (fuel : ℕ) : Option (Bool × Video σ) :=
  let r := bios.getVbeInfo v.bios
  if r.1 = 0 then
    (modeLoop bios (segOff2Lin (bios.videoModePtr r.2)) 0 { v with bios := r.2 } fuel).bind fun v =>
      if v.pickedMode ≠ 0xFFFF then
        let r := bios.setMode v.pickedMode v.bios
        let v := { v with bios := r.2 }
        if r.1 = 0 then
          (drawSplash font v.modeInfo.toVbeModeInfo v.fb fuel).map fun fb => (true, { v with fb := fb })
        else some (true, v)
      else some (true, v)
  else some (false, { v with bios := r.2, out := v.out ++ ascii "No VBE extensions\n" })

end

/-! ### The first good mode -/

section Modes

variable {σ : Type*} (bios : VideoBios σ)

/-- The first good mode of a list, when they are asked for in turn: its information, the state of the BIOS then, and
the modes before it on which there is none. -/
def firstGood : List UInt16 → σ → Option (UInt16 × ModeInfo) × σ × List UInt16
  | [], s => (none, s, [])
  | mode :: modes, s =>
    let r := bios.getModeInfo mode s
    if r.1.1 ≠ 0 then
      let rest := firstGood modes r.2
      (rest.1, rest.2.1, mode :: rest.2.2)
    else if r.1.2.Good then (some (mode, r.1.2), r.2, [])
    else firstGood modes r.2

/-- The memory from an address on holds the list of the modes, with 0xFFFF at its end. -/
structure ModesAt (address : UInt32) (modes : List UInt16) (s : σ) : Prop where
  entry : ∀ i (h : i < modes.length), bios.word (address + 2 * UInt32.ofNat i) s = modes[i]
  last : bios.word (address + 2 * UInt32.ofNat modes.length) s = 0xFFFF
  mode : ∀ mode ∈ modes, mode ≠ 0xFFFF

/-- The choice that is made: a mode with its information, or the one before. -/
def Picks (before : UInt16) (v : Video σ) : Option (UInt16 × ModeInfo) → Prop
  | none => v.pickedMode = before
  | some (mode, info) => v.pickedMode = mode ∧ v.modeInfo = info

variable {bios} {address : UInt32} {modes : List UInt16}

lemma firstGood_good {mode : UInt16} {info : ModeInfo} : ∀ {left : List UInt16} {s : σ},
    (firstGood bios left s).1 = some (mode, info) → mode ∈ left ∧ info.Good := by
  intro left
  induction left with
  | nil =>
    intro s h
    cases h
  | cons first left ih =>
    intro s h
    simp only [firstGood] at h
    split_ifs at h with hstatus hgood
    · exact ⟨List.mem_cons_of_mem _ (ih h).1, (ih h).2⟩
    · cases h
      exact ⟨List.mem_cons_self, hgood⟩
    · exact ⟨List.mem_cons_of_mem _ (ih h).1, (ih h).2⟩

/-- **The loop takes the first good mode**, and tells of the modes before it that cannot be asked for. -/
theorem modeLoop_ends (hkeep : ∀ mode s, ModesAt bios address modes s → ModesAt bios address modes
    (bios.getModeInfo mode s).2) : ∀ (left : List UInt16) (i : ℕ) (v : Video σ), modes.drop i = left →
    i ≤ modes.length →
      ModesAt bios address modes v.bios → Ends (modeLoop bios address i v) fun v' =>
        v'.bios = (firstGood bios left v.bios).2.1 ∧ v'.fb = v.fb ∧
        v'.out = v.out ++ (firstGood bios left v.bios).2.2.flatMap modeLine ∧
        Picks v.pickedMode v' (firstGood bios left v.bios).1 := by
  intro left
  induction left with
  | nil =>
    intro i v hdrop hi hat
    have hend : i = modes.length := by
      have := List.drop_eq_nil_iff.mp hdrop
      omega
    apply Ends.of_succ
    simp only [modeLoop, hend, hat.last, if_true]
    exact Ends.done ⟨rfl, rfl, by simp [firstGood], rfl⟩
  | cons mode left ih =>
    intro i v hdrop hi hat
    have hlt : i < modes.length := by
      by_contra hge
      rw [List.drop_of_length_le (by omega)] at hdrop
      cases hdrop
    rw [List.drop_eq_getElem_cons hlt] at hdrop
    obtain ⟨hmode, hleft⟩ := List.cons.inj hdrop
    have hat' := hkeep mode v.bios hat
    have hword : bios.word (address + 2 * UInt32.ofNat i) v.bios = mode := (hat.entry i hlt).trans hmode
    -- the entry is still there once the BIOS has filled its block
    have hword' : bios.word (address + 2 * UInt32.ofNat i) (bios.getModeInfo mode v.bios).2 = mode :=
      (hat'.entry i hlt).trans hmode
    have hne : mode ≠ 0xFFFF := hat.mode mode (hmode ▸ List.getElem_mem hlt)
    apply Ends.of_succ
    simp only [modeLoop, hword, hword', if_neg hne, firstGood]
    split_ifs with hstatus hgood
    · refine (ih (i + 1) _ hleft hlt hat').imp ?_
      rintro v' ⟨hbios, hfb, hout, hpicked⟩
      exact ⟨hbios, hfb, by simp [hout], hpicked⟩
    · exact Ends.done ⟨rfl, rfl, by simp, rfl, rfl⟩
    · exact ih (i + 1) _ hleft hlt hat'

end Modes

/-! ### The picture -/

section Picture

variable {font : Font} {modeInfo : VbeModeInfo} {fb : Framebuffer}

/-- The pixels of the text, in the middle of the screen. -/
def InSplash (font : Font) : ℤ → ℤ → Prop :=
  InString font (literal splashText) splashText.length ((desiredWidth - 8 * splashText.length) / 2 : ℕ)
    ((desiredHeight - fontHeight) / 2 : ℕ)

/-- White text on a blue ground, from corner to corner; no word outside the screen is touched. -/
structure Splash (modeInfo : VbeModeInfo) (font : Font) (fb fb' : Framebuffer) : Prop where
  text : ∀ x y, modeInfo.OnScreen x y → InSplash font x y → fb' (modeInfo.pixel x y) = 0xFFFFFFFF
  ground : ∀ x y, modeInfo.OnScreen x y → ¬ InSplash font x y → fb' (modeInfo.pixel x y) = 0x0000FF
  outside : ∀ i, (∀ x y, modeInfo.OnScreen x y → i ≠ modeInfo.pixel x y) → fb' i = fb i

lemma strlen_ends {n : ℕ} {str : ℕ → Int8} (hstr : ∀ k < n, str k ≠ 0) (hend : str n = 0) (len : UInt32) :
    Ends (strlen str len) (· = len + UInt32.ofNat n) := by
  induction n generalizing str len with
  | zero =>
    apply Ends.of_succ
    simp only [strlen, if_neg (not_not.mpr hend)]
    exact Ends.done (UInt32.add_zero len).symm
  | succ n ih =>
    apply Ends.of_succ
    simp only [strlen, if_pos (hstr 0 (Nat.succ_pos n))]
    refine (ih (fun k hk => hstr (k + 1) (by omega)) hend (len + 1)).imp fun r hr => ?_
    rw [hr, UInt32.add_assoc, UInt32.add_comm 1, ← UInt32.ofNat_one, ← UInt32.ofNat_add]

lemma splashText_length : splashText.length = 33 := by decide

lemma literal_splashText : (∀ k < splashText.length, literal splashText k ≠ 0) ∧
    literal splashText splashText.length = 0 := by decide

lemma inSplash_onScreen (hwidth : modeInfo.width.toNat = desiredWidth)
    (hheight : modeInfo.height.toNat = desiredHeight) {x y : ℤ} (h : InSplash font x y) :
    modeInfo.OnScreen x y := by
  obtain ⟨k, hk, col, row, ⟨-, -, hcol, hrow, -⟩, hx, hy⟩ := h
  rw [splashText_length] at hk hx
  simp only [desiredWidth, desiredHeight, fontHeight] at hwidth hheight hx hy
  constructor <;> omega

/-- **What is drawn on a screen of the desired size.** -/
theorem drawSplash_ends (font : Font) (hwidth : modeInfo.width.toNat = desiredWidth)
    (hheight : modeInfo.height.toNat = desiredHeight) (fb : Framebuffer) :
    Ends (drawSplash font modeInfo fb) fun fb' => modeInfo.Linear → Splash modeInfo font fb fb' := by
  refine (vbeDrawRectangle_fills _ _ fb).bind fun fb₁ hground => ?_
  refine (strlen_ends literal_splashText.1 literal_splashText.2 0).bind fun len hlen => ?_
  have hx : (((UInt32.ofNat desiredWidth - len * UInt32.ofNat fontWidth) / 2).toNat : ℤ) =
      ((desiredWidth - 8 * splashText.length) / 2 : ℕ) := by
    rw [hlen, splashText_length]
    rfl
  rw [hx]
  refine (vbeDrawString_fills literal_splashText.1 literal_splashText.2 _ _ fb₁).imp fun fb₂ htext hm => ?_
  have hrectangle : ∀ x y, InRectangle ⟨0, 0⟩ ⟨desiredWidth.toUInt16, desiredHeight.toUInt16⟩ x y ↔
      modeInfo.OnScreen x y := by
    intro x y
    rw [VbeModeInfo.OnScreen, hwidth, hheight]
    rfl
  have hdrawn := draws_of_fills hm (fun x y => (hrectangle x y).mp) hground
  have hwritten := draws_of_fills hm (fun x y hxy => inSplash_onScreen hwidth hheight hxy) htext
  refine ⟨hwritten.drawn, fun x y hs hxy => ?_, fun i hi => ?_⟩
  · rw [hwritten.kept x y hs hxy]
    exact hdrawn.drawn x y hs ((hrectangle x y).mpr hs)
  · rw [hwritten.outside i hi, hdrawn.outside i hi]

end Picture

/-- `VBE_Initialize` returns `true` where the BIOS has a list of modes that stays as it is. -/
lemma vbeInitialize_returns {σ : Type*} {bios : VideoBios σ} (font : Font) {v : Video σ}
    (hinfo : (bios.getVbeInfo v.bios).1 = 0) (hpicked : v.pickedMode = 0xFFFF) {modes : List UInt16}
    (hmodes : ModesAt bios (segOff2Lin (bios.videoModePtr (bios.getVbeInfo v.bios).2)) modes
      (bios.getVbeInfo v.bios).2)
    (hkeep : ∀ mode s, ModesAt bios (segOff2Lin (bios.videoModePtr (bios.getVbeInfo v.bios).2)) modes s →
      ModesAt bios (segOff2Lin (bios.videoModePtr (bios.getVbeInfo v.bios).2)) modes (bios.getModeInfo mode s).2) :
    Ends (vbeInitialize bios font v) fun r => r.1 = true := by
  change Ends (fun fuel => vbeInitialize bios font v fuel) _
  simp only [vbeInitialize, if_pos hinfo]
  refine (modeLoop_ends hkeep modes 0 { v with bios := (bios.getVbeInfo v.bios).2 } rfl (Nat.zero_le _)
    hmodes).bind fun v' ⟨_, _, _, hchoice⟩ => ?_
  dsimp only at hchoice
  rcases hfound : (firstGood bios modes (bios.getVbeInfo v.bios).2).1 with _ | ⟨mode, info⟩
  · rw [hfound] at hchoice
    simp only [show v'.pickedMode = 0xFFFF from hchoice.trans hpicked, ne_eq, not_true_eq_false, if_false]
    exact Ends.done rfl
  · rw [hfound] at hchoice
    obtain ⟨hmem, -, hwidth, hheight, -⟩ := firstGood_good hfound
    simp only [hchoice.1, hmodes.mode mode hmem, ne_eq, not_false_eq_true, if_true]
    split_ifs
    · rw [hchoice.2]
      exact (drawSplash_ends font hwidth hheight v'.fb).map fun _ _ => rfl
    · exact Ends.done rfl

/-- **`VBE_Initialize`.** Where the BIOS has a list of modes that stays as it is, the first good one is set; when
that succeeds, what is shown is the text on its ground, pixel for pixel. Without a good mode, or when it cannot
be set, nothing is drawn. -/
theorem vbeInitialize_splash {σ : Type*} (bios : VideoBios σ) (font : Font) (v : Video σ)
    (hinfo : (bios.getVbeInfo v.bios).1 = 0) (hpicked : v.pickedMode = 0xFFFF) (address : UInt32)
    (haddress : address = segOff2Lin (bios.videoModePtr (bios.getVbeInfo v.bios).2)) (modes : List UInt16)
    (hmodes : ModesAt bios address modes (bios.getVbeInfo v.bios).2)
    (hkeep : ∀ mode s, ModesAt bios address modes s → ModesAt bios address modes (bios.getModeInfo mode s).2) :
    let found := firstGood bios modes (bios.getVbeInfo v.bios).2
    Ends (vbeInitialize bios font v) fun r =>
      r.1 = true ∧ r.2.out = v.out ++ found.2.2.flatMap modeLine ∧
        match found.1 with
        | none => r.2.pickedMode = 0xFFFF ∧ r.2.bios = found.2.1 ∧ r.2.fb = v.fb
        | some (mode, info) => r.2.pickedMode = mode ∧ r.2.modeInfo = info ∧
            r.2.bios = (bios.setMode mode found.2.1).2 ∧
            if (bios.setMode mode found.2.1).1 = 0 then
              info.Linear → Splash info.toVbeModeInfo font v.fb r.2.fb
            else r.2.fb = v.fb := by
  intro found
  change Ends (fun fuel => vbeInitialize bios font v fuel) _
  simp only [vbeInitialize, if_pos hinfo, ← haddress]
  refine (modeLoop_ends hkeep modes 0 { v with bios := (bios.getVbeInfo v.bios).2 } rfl (Nat.zero_le _)
    hmodes).bind ?_
  rintro v' ⟨hbios, hfb, hout, hchoice⟩
  have hfound : firstGood bios modes (bios.getVbeInfo v.bios).2 = found := rfl
  dsimp only at hbios hfb hout hchoice
  rw [hfound] at hbios hout hchoice
  rcases hf : found.1 with _ | ⟨mode, info⟩
  · rw [hf] at hchoice
    have hnone : v'.pickedMode = 0xFFFF := hchoice.trans hpicked
    simp only [hnone, ne_eq, not_true_eq_false, if_false]
    exact Ends.done ⟨rfl, hout, hnone, hbios, hfb⟩
  · rw [hf] at hchoice
    obtain ⟨hmode, hinfo'⟩ := hchoice
    obtain ⟨hmem, -, hwidth, hheight, -⟩ := firstGood_good (hfound ▸ hf)
    simp only [hmode, hmodes.mode mode hmem, ne_eq, not_false_eq_true, if_true, hbios]
    split_ifs with hset
    · rw [hinfo']
      refine (drawSplash_ends font hwidth hheight v'.fb).map fun fb hsplash => ?_
      exact ⟨rfl, hout, rfl, rfl, rfl, fun hm => hfb ▸ hsplash hm⟩
    · exact Ends.done ⟨rfl, hout, rfl, hinfo', rfl, hfb⟩

/-- The mode 1024×768 with 32 bits a pixel, in rows of 4096 bytes. -/
def goodMode : ModeInfo where
  pitch := 4096
  width := 1024
  height := 768
  attributes := 0x9B
  bpp := 32

/-- A BIOS with the modes 0x101 and 0x118 on its list, that tells of the second only. -/
def twoModes : VideoBios Unit where
  getVbeInfo _ := (0, ())
  videoModePtr _ := 0x40000022
  word address _ := if address = 0x40022 then 0x101 else if address = 0x40024 then 0x118 else 0xFFFF
  getModeInfo mode _ := ((if mode = 0x118 then 0 else 1, goodMode), ())
  setMode _ _ := (0, ())

lemma twoModes_at : ModesAt twoModes 0x40022 [0x101, 0x118] () := by
  refine ⟨fun i hi => ?_, by decide, by simp⟩
  rcases i with _ | _ | i
  · rfl
  · rfl
  · exact absurd hi (by simp)

theorem vbeInitialize_splash_twoModes :
    Ends (vbeInitialize twoModes (fun _ _ => 0x18) ⟨(), goodMode, 0xFFFF, fun _ => 0, []⟩) fun r =>
      r.1 = true ∧ r.2.out = ascii "Can't get mode info 101\n" ∧ r.2.pickedMode = 0x118 ∧
        Splash goodMode.toVbeModeInfo (fun _ _ => 0x18) (fun _ => 0) r.2.fb := by
  have hgood : goodMode.Good := by decide
  have hfound : firstGood twoModes [0x101, 0x118] () = (some (0x118, goodMode), (), [0x101]) := by
    simp [firstGood, twoModes, hgood]
  refine (vbeInitialize_splash twoModes (fun _ _ => 0x18) ⟨(), goodMode, 0xFFFF, fun _ => 0, []⟩ rfl rfl 0x40022
    (by decide) [0x101, 0x118] twoModes_at fun _ _ h => h).imp fun r hr => ?_
  rw [show (twoModes.getVbeInfo ()).2 = () from rfl, hfound] at hr
  obtain ⟨hok, hout, hmode, -, -, hsplash⟩ := hr
  have hline : modeLine 0x101 = ascii "Can't get mode info 101\n" := by decide
  refine ⟨hok, ?_, hmode, ?_⟩
  · rw [hout]
    simpa using hline
  · rw [if_pos (show (twoModes.setMode 0x118 ()).1 = 0 from rfl)] at hsplash
    exact hsplash ⟨by decide, by decide, by decide⟩

/-! ### The desktop -/

/-- `COLOR` -/
def color (r g b : UInt8) : UInt32 := b.toUInt32 ||| (g.toUInt32 <<< 8) ||| (r.toUInt32 <<< 16)

/-- The colour of a pixel of the background, on a screen of a size. -/
def gradient (w h x y : ℤ) : UInt32 :=
  color 255 (UInt8.ofInt ((y * 255).tdiv h)) (UInt8.ofInt (255 - (x * 255).tdiv w))

def taskbarHeight : ℤ := 50

def taskbarPadding : ℤ := 240

def taskbarSpaceBelow : ℤ := 20

/-- The corner `topLeft` of the taskbar. -/
def taskbarTopLeft (modeInfo : VbeModeInfo) : Point where
  X := UInt16.ofInt taskbarPadding
  Y := UInt16.ofInt (modeInfo.height.toNat - taskbarHeight - taskbarSpaceBelow)

/-- The corner `bottomRight` of the taskbar. -/
def taskbarBottomRight (modeInfo : VbeModeInfo) : Point where
  X := UInt16.ofInt (modeInfo.width.toNat - taskbarPadding)
  Y := UInt16.ofInt (modeInfo.height.toNat - taskbarSpaceBelow)

/-- The loops of `VBE_DrawOS`. -/
def drawBackground (modeInfo : VbeModeInfo) (fb : Framebuffer) : Framebuffer :=
  loop (fun y fb => loop (fun x fb =>
    vbePutPixel modeInfo x y (gradient modeInfo.width.toNat modeInfo.height.toNat x y) fb)
      modeInfo.width.toNat 0 fb) modeInfo.height.toNat 0 fb

/-- `VBE_DrawOS` -/
def vbeDrawOS (modeInfo : VbeModeInfo) (fb : Framebuffer) : ℕ → Option Framebuffer :=
  vbeDrawRectangle modeInfo (taskbarTopLeft modeInfo) (taskbarBottomRight modeInfo) (color 0 0 0)
    (drawBackground modeInfo fb)

section Desktop

variable {modeInfo : VbeModeInfo} {fb₀ fb : Framebuffer} {done done' : ℤ → ℤ → Prop}

/-- Some pixels have the colour of the background, the others and all else what was there. -/
structure Painted (modeInfo : VbeModeInfo) (fb₀ : Framebuffer) (done : ℤ → ℤ → Prop) (fb : Framebuffer) :
    Prop where
  painted : ∀ x y, modeInfo.OnScreen x y → done x y →
    fb (modeInfo.pixel x y) = gradient modeInfo.width.toNat modeInfo.height.toNat x y
  kept : ∀ x y, modeInfo.OnScreen x y → ¬ done x y → fb (modeInfo.pixel x y) = fb₀ (modeInfo.pixel x y)
  outside : ∀ i, (∀ x y, modeInfo.OnScreen x y → i ≠ modeInfo.pixel x y) → fb i = fb₀ i

lemma Painted.congr (h : Painted modeInfo fb₀ done fb)
    (hdone : ∀ x y, modeInfo.OnScreen x y → (done x y ↔ done' x y)) : Painted modeInfo fb₀ done' fb where
  painted x y hs hxy := h.painted x y hs ((hdone x y hs).mpr hxy)
  kept x y hs hxy := h.kept x y hs fun hd => hxy ((hdone x y hs).mp hd)
  outside := h.outside

lemma Painted.put (hm : modeInfo.Linear) (h : Painted modeInfo fb₀ done fb) {a b : ℤ}
    (hab : modeInfo.OnScreen a b) : Painted modeInfo fb₀ (fun x y => done x y ∨ (x = a ∧ y = b))
      (vbePutPixel modeInfo a b (gradient modeInfo.width.toNat modeInfo.height.toNat a b) fb) := by
  have hother : ∀ i, i ≠ modeInfo.pixel a b → vbePutPixel modeInfo a b
      (gradient modeInfo.width.toNat modeInfo.height.toNat a b) fb i = fb i := by
    intro i hi
    rw [vbePutPixel, index_eq hm hab]
    exact Function.update_of_ne hi _ _
  refine ⟨fun x y hs hxy => ?_, fun x y hs hxy => ?_, fun i hi => ?_⟩
  · by_cases heq : x = a ∧ y = b
    · obtain ⟨rfl, rfl⟩ := heq
      rw [vbePutPixel, index_eq hm hab]
      exact Function.update_self _ _ _
    · rw [hother _ fun hp => heq (pixel_inj hm hs hab hp)]
      exact h.painted x y hs (hxy.resolve_right heq)
  · rw [not_or] at hxy
    rw [hother _ fun hp => hxy.2 (pixel_inj hm hs hab hp)]
    exact h.kept x y hs hxy.1
  · rw [hother i (hi a b hab)]
    exact h.outside i hi

lemma row_painted (hm : modeInfo.Linear) {fb g : Framebuffer} {r : ℤ} (hr : 0 ≤ r)
    (hrh : r < 0 + (modeInfo.height.toNat : ℤ)) (hg : Painted modeInfo fb (fun _ y => y < r) g) :
    Painted modeInfo fb (fun _ y => y < r + 1) (loop (fun x fb => vbePutPixel modeInfo x r
      (gradient modeInfo.width.toNat modeInfo.height.toNat x r) fb) modeInfo.width.toNat 0 g) := by
  have hrow : Painted modeInfo fb (fun x y => y < r ∨ (y = r ∧ x < 0 + (modeInfo.width.toNat : ℤ)))
      (loop (fun x fb => vbePutPixel modeInfo x r
        (gradient modeInfo.width.toNat modeInfo.height.toNat x r) fb) modeInfo.width.toNat 0 g) := by
    refine loop_inv (P := fun c g => Painted modeInfo fb (fun x y => y < r ∨ (y = r ∧ x < c)) g)
      (hg.congr fun x y hs => ?_) fun c g hc hcw hg => ?_
    · have hx := hs.1.1
      constructor
      · exact .inl
      · rintro (hy | ⟨-, hlt⟩) <;> omega
    · refine (hg.put hm (a := c) (b := r) ⟨⟨hc, by omega⟩, hr, by omega⟩).congr fun x y hs => ?_
      constructor
      · rintro ((hy | ⟨hy, hlt⟩) | ⟨rfl, rfl⟩)
        · exact .inl hy
        · exact .inr ⟨hy, by omega⟩
        · exact .inr ⟨rfl, by omega⟩
      · rintro (hy | ⟨hy, hlt⟩)
        · exact .inl (.inl hy)
        · by_cases heq : x = c
          · exact .inr ⟨heq, hy⟩
          · exact .inl (.inr ⟨hy, by omega⟩)
  refine hrow.congr fun x y hs => ?_
  have hx := hs.1.2
  constructor
  · rintro (hy | ⟨rfl, -⟩) <;> omega
  · intro hy
    by_cases heq : y = r
    · exact .inr ⟨heq, by omega⟩
    · exact .inl (by omega)

/-- **The loops paint every pixel of the screen.** -/
theorem drawBackground_painted (hm : modeInfo.Linear) (fb : Framebuffer) :
    Painted modeInfo fb (fun _ _ => True) (drawBackground modeInfo fb) := by
  have hrows : Painted modeInfo fb (fun _ y => y < 0 + (modeInfo.height.toNat : ℤ))
      (drawBackground modeInfo fb) := by
    refine loop_inv (P := fun r g => Painted modeInfo fb (fun _ y => y < r) g) ?_
      fun r g hr hrh hg => row_painted hm hr hrh hg
    refine ⟨fun x y hs hy => ?_, fun _ _ _ _ => rfl, fun _ _ => rfl⟩
    exact absurd hs.2.1 (by omega)
  refine hrows.congr fun x y hs => ?_
  have hy := hs.2.2
  simp only [iff_true]
  omega

/-- The taskbar over the background; no word outside the screen is touched. -/
structure DesktopShown (modeInfo : VbeModeInfo) (fb fb' : Framebuffer) : Prop where
  taskbar : ∀ x y, modeInfo.OnScreen x y →
    InRectangle (taskbarTopLeft modeInfo) (taskbarBottomRight modeInfo) x y → fb' (modeInfo.pixel x y) = 0
  background : ∀ x y, modeInfo.OnScreen x y →
    ¬ InRectangle (taskbarTopLeft modeInfo) (taskbarBottomRight modeInfo) x y →
    fb' (modeInfo.pixel x y) = gradient modeInfo.width.toNat modeInfo.height.toNat x y
  outside : ∀ i, (∀ x y, modeInfo.OnScreen x y → i ≠ modeInfo.pixel x y) → fb' i = fb i

lemma ofInt_toNat (z : ℤ) : ((UInt16.ofInt z).toNat : ℤ) = z % 65536 := by
  have hz := Int.emod_nonneg z (show (65536 : ℤ) ≠ 0 by decide)
  have hlt := Int.emod_lt_of_pos z (show (0 : ℤ) < 65536 by decide)
  simp only [UInt16.ofInt, UInt16.toNat_ofNat']
  omega

lemma taskbar_inside_iff (modeInfo : VbeModeInfo) :
    RectangleInside modeInfo (taskbarTopLeft modeInfo) (taskbarBottomRight modeInfo) ↔
      (240 ≤ modeInfo.width.toNat ∧ (modeInfo.width.toNat ≤ 480 ∨ 20 ≤ modeInfo.height.toNat)) ∨
        (20 ≤ modeInfo.height.toNat ∧ modeInfo.height.toNat < 70) := by
  have hleft := ofInt_toNat taskbarPadding
  have hright := ofInt_toNat (modeInfo.width.toNat - taskbarPadding)
  have htop := ofInt_toNat (modeInfo.height.toNat - taskbarHeight - taskbarSpaceBelow)
  have hbottom := ofInt_toNat (modeInfo.height.toNat - taskbarSpaceBelow)
  have hw := modeInfo.width.toNat_lt
  have hh := modeInfo.height.toNat_lt
  simp only [taskbarPadding, taskbarHeight, taskbarSpaceBelow] at hleft hright htop hbottom
  simp only [RectangleInside, InRectangle, VbeModeInfo.OnScreen, taskbarTopLeft, taskbarBottomRight,
    taskbarPadding, taskbarHeight, taskbarSpaceBelow]
  rw [hleft, hright, htop, hbottom]
  constructor
  · intro hin
    by_contra hbad
    -- the corner of the rectangle that lies outside
    have hcorner := hin (max 240 ((modeInfo.width.toNat - 240) % 65536 - 1))
      (max ((modeInfo.height.toNat - 50 - 20) % 65536) ((modeInfo.height.toNat - 20) % 65536 - 1))
    omega
  · intro hgood x y hxy
    omega

/-- **`VBE_DrawOS`.** The taskbar stays on the screen exactly if no corner wraps around, or one does and the bar is
empty. Then every pixel of the screen gets its colour, and nothing else is touched. -/
theorem vbeDrawOS_exact (modeInfo : VbeModeInfo) (hm : modeInfo.Linear) (fb : Framebuffer) :
    (RectangleInside modeInfo (taskbarTopLeft modeInfo) (taskbarBottomRight modeInfo) ↔
      (240 ≤ modeInfo.width.toNat ∧ (modeInfo.width.toNat ≤ 480 ∨ 20 ≤ modeInfo.height.toNat)) ∨
        (20 ≤ modeInfo.height.toNat ∧ modeInfo.height.toNat < 70)) ∧
    (RectangleInside modeInfo (taskbarTopLeft modeInfo) (taskbarBottomRight modeInfo) →
      Ends (vbeDrawOS modeInfo fb) (DesktopShown modeInfo fb)) := by
  refine ⟨taskbar_inside_iff modeInfo, fun hin => ?_⟩
  have hpainted := drawBackground_painted hm fb
  refine (vbeDrawRectangle_fills _ _ (drawBackground modeInfo fb)).imp fun fb' hfills => ?_
  have hbar := draws_of_fills hm hin hfills
  refine ⟨fun x y hs hxy => hbar.drawn x y hs hxy, fun x y hs hxy => ?_, fun i hi => ?_⟩
  · rw [hbar.kept x y hs hxy]
    exact hpainted.painted x y hs trivial
  · rw [hbar.outside i hi, hpainted.outside i hi]

theorem vbeDrawOS_exact_goodMode :
    Ends (vbeDrawOS goodMode.toVbeModeInfo fun _ => 0) (DesktopShown goodMode.toVbeModeInfo fun _ => 0) := by
  have hexact := vbeDrawOS_exact goodMode.toVbeModeInfo ⟨by decide, by decide, by decide⟩ fun _ => 0
  exact hexact.2 (hexact.1.mpr (.inl ⟨by decide, .inr (by decide)⟩))

end Desktop

end ArcOS.Boot
