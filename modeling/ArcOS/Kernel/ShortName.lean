import ArcOS.Kernel.CatPath

/-!
Names of the 8.3 format, and the short names that `FAT_GetShortName` makes of them.

The short name is the canonical one (`shortName_name`), and as it is filled up with blanks only behind
each part, two names without blanks have the same one only if they differ in nothing but the case of
their letters (`shortName_canonical_iff`).
-/

namespace ArcOS.Kernel

open Lib Fat

/-! ### Names -/

/-- A name: a base of 1 to 8 bytes, and maybe a dot with an extension of up to 3 bytes behind it. -/
structure DosName where
  base : List UInt8
  ext : Option (List UInt8)
  base_length : 1 ≤ base.length ∧ base.length ≤ 8
  ext_length : (ext.getD []).length ≤ 3
  bytes : ∀ b ∈ base ++ ext.getD [], b ≠ 0 ∧ b ≠ 46

/-- An ASCII letter in upper case. -/
def upper (c : UInt8) : UInt8 := if 97 ≤ c ∧ c ≤ 122 then c - 32 else c

/-- The same character, or the same ASCII letter in the other case. -/
def SameLetter (a b : UInt8) : Prop :=
  a = b ∨ (65 ≤ a ∧ a ≤ 90 ∧ b = a + 32) ∨ (65 ≤ b ∧ b ≤ 90 ∧ a = b + 32)

namespace DosName

/-- The extension; none and an empty one are the same. -/
def extension (n : DosName) : List UInt8 := n.ext.getD []

/-- The name as it is written. -/
def text (n : DosName) : List UInt8 := n.base ++ n.ext.elim [] (46 :: ·)

/-- The short name: both parts in upper case, filled up with blanks, and a terminator. -/
def canonical (n : DosName) : List UInt8 :=
  (n.base.map upper ++ List.replicate (8 - n.base.length) 32) ++
    (n.extension.map upper ++ List.replicate (3 - n.extension.length) 32) ++ [0]

/-- No byte of the name is a blank. -/
def NoBlanks (n : DosName) : Prop := ∀ b ∈ n.base ++ n.extension, b ≠ 32

/-- The names are equal but for the case of ASCII letters. -/
def SameName (n n' : DosName) : Prop :=
  List.Forall₂ SameLetter n.base n'.base ∧ List.Forall₂ SameLetter n.extension n'.extension

end DosName

/-! ### Letters -/

lemma toupper_upper : toupper = upper := by
  funext c
  unfold toupper islower upper
  by_cases h : 97 ≤ c ∧ c ≤ 122
  · have hc := c.toNat_lt
    rw [if_pos (by simpa using h), if_pos h, ← UInt8.toNat_inj]
    simp only [UInt8.toNat_add, UInt8.toNat_sub, UInt8.reduceToNat]
    omega
  · rw [if_neg (by simpa using h), if_neg h]

lemma upper_eq_iff {a b : UInt8} : upper a = upper b ↔ SameLetter a b := by
  unfold upper SameLetter
  simp only [UInt8.le_iff_toNat_le, ← UInt8.toNat_inj]
  have ha := a.toNat_lt
  have hb := b.toNat_lt
  split <;> split <;> simp only [UInt8.toNat_sub, UInt8.toNat_add, UInt8.reduceToNat] at * <;> omega

lemma upper_ne_blank {a : UInt8} (h : a ≠ 32) : upper a ≠ 32 := by
  intro heq
  have hsame : SameLetter a 32 := upper_eq_iff.mp heq
  unfold SameLetter at hsame
  simp only [UInt8.le_iff_toNat_le, ← UInt8.toNat_inj, UInt8.toNat_add, UInt8.reduceToNat] at hsame
  rw [ne_eq, ← UInt8.toNat_inj] at h
  have ha := a.toNat_lt
  simp only [UInt8.reduceToNat] at h
  omega

lemma map_upper_eq_iff {l l' : List UInt8} : l.map upper = l'.map upper ↔ List.Forall₂ SameLetter l l' := by
  rw [← List.forall₂_eq_eq_eq, List.forall₂_map_left_iff, List.forall₂_map_right_iff]
  simp only [upper_eq_iff]

/-! ### The short name -/

section ShortName

variable {base ext : List UInt8}

lemma getShortName_stop (name : List UInt8) : List.ofFn (getShortName name) = shortName name ++ [0] := by
  have hstop : getShortName name 11 = 0 := by
    have hbase : (cString (name.take (min 8 ((strchr 46 name).getD 11)))).length ≤ 8 :=
      ((List.takeWhile_sublist _).length_le).trans (by simp)
    have hext : (cString ((name.drop ((strchr 46 name).getD 11 + 1)).take 3)).length ≤ 3 :=
      ((List.takeWhile_sublist _).length_le).trans (by simp)
    unfold getShortName
    split
    · rw [Bytes.write, if_neg (by simp; omega), Bytes.write, if_neg (by simp; omega), if_pos rfl]
    · rw [Bytes.write, if_neg (by simp; omega), if_pos rfl]
  have hsplit := List.take_append_drop 11 (List.ofFn (getShortName name))
  have hdrop : (List.ofFn (getShortName name)).drop 11 = [getShortName name 11] := by
    simp [List.ofFn_succ]
  rw [← hsplit, hdrop, hstop, shortName]

lemma shortName_base (hbase : ∀ b ∈ base, b ≠ 0 ∧ b ≠ 46) (hlen : base.length ≤ 8) :
    shortName base = padded (base.map toupper) [] := by
  have hno : strchr 46 base = none := by
    have := strchr_append (t := []) hbase
    simpa [strchr] using this
  have hall : cString (base.take (min 8 11)) = base := by
    rw [List.take_of_length_le (by simpa using hlen)]
    exact cString_nonzero fun b hb => (hbase b hb).1
  have hpadded := @take_shortOf _ blank_at (base.map toupper) [] (by simpa using hlen) (by simp)
  rw [shortOf, write_nil] at hpadded
  unfold shortName getShortName
  simp only [hno, Option.getD_none, hall, ne_eq, not_true_eq_false, if_false]
  exact hpadded

/-- **The short name of a name that stands in memory**, whatever lies behind its terminator. -/
theorem shortName_name (n : DosName) (later : List UInt8) : shortName (n.text ++ 0 :: later) =
    padded (n.base.map toupper) (n.extension.map toupper) := by
  have hbase : ∀ b ∈ n.base, b ≠ 0 ∧ b ≠ 46 := fun b hb => n.bytes b (List.mem_append_left _ hb)
  have hext : ∀ b ∈ n.extension, b ≠ 0 := fun b hb => (n.bytes b (List.mem_append_right _ hb)).1
  have htext : ∀ b ∈ n.text, b ≠ 0 := by
    intro b hb
    unfold DosName.text at hb
    rcases List.mem_append.mp hb with hb | hb
    · exact (hbase b hb).1
    · cases hn : n.ext with
      | none => rw [hn] at hb; cases hb
      | some e =>
        rw [hn] at hb
        rcases List.mem_cons.mp hb with rfl | hb
        · decide
        · exact hext b (by rw [DosName.extension, hn]; exact hb)
  have hcut : cString (n.text ++ 0 :: later) = n.text := (cString_append htext 0 later).mpr rfl
  rw [shortName, ← getShortName_cString, hcut, ← shortName, DosName.text]
  cases hn : n.ext with
  | none =>
    rw [DosName.extension, hn]
    simpa using shortName_base hbase n.base_length.2
  | some e =>
    have he : n.extension = e := by rw [DosName.extension, hn]; rfl
    have hlen : n.extension.length ≤ 3 := n.ext_length
    rw [he] at hext hlen ⊢
    rw [Option.elim_some, shortName_dot hbase hext n.base_length.2, List.take_of_length_le hlen]

/-- A component of a path is such a name. -/
def Component.dosName (c : Component) : DosName where
  base := c.base
  ext := if c.ext = [] then none else some c.ext
  base_length := c.base_length
  ext_length := by
    split
    · exact Nat.zero_le 3
    · exact c.ext_length
  bytes b hb := by
    have hmem : b ∈ c.base ++ c.ext := by
      split at hb
      · exact List.mem_append_left _ (by simpa using hb)
      · exact hb
    refine ⟨fun h0 => ?_, (c.bytes b hmem).2.1⟩
    subst h0
    exact absurd (c.bytes 0 hmem).1 (by decide)

/-- **The short name of a component** is its canonical one. -/
theorem shortName_component (c : Component) (later : List UInt8) :
    shortName (c.text ++ 0 :: later) = c.canonical := by
  have htext : c.dosName.text = c.text := by
    unfold DosName.text Component.dosName Component.text
    dsimp only
    split
    · exact List.append_nil _
    · rfl
  have hext : c.dosName.extension = c.ext := by
    unfold DosName.extension Component.dosName
    dsimp only
    split
    · next h => exact h.symm
    · rfl
  rw [← htext, shortName_name, hext]
  simp [Component.canonical, padded, Component.dosName]

/-- Parts without blanks are told apart behind the filling. -/
lemma fill_inj {k : ℕ} {l l' : List UInt8} (hl : ∀ b ∈ l, b ≠ 32) (hl' : ∀ b ∈ l', b ≠ 32)
    (h : l ++ List.replicate (k - l.length) 32 = l' ++ List.replicate (k - l'.length) 32) : l = l' := by
  have hcut : ∀ (l : List UInt8) (m : ℕ), (∀ b ∈ l, b ≠ 32) →
      (l ++ List.replicate m 32).takeWhile (· ≠ 32) = l := by
    intro l m hl
    rw [List.takeWhile_append_of_pos fun b hb => by simpa using hl b hb]
    cases m with
    | zero => simp
    | succ m => simp [List.replicate_succ]
  rw [← hcut l _ hl, h, hcut l' _ hl']

end ShortName

/-- **Short names are canonical, and injective up to case.** -/
theorem shortName_canonical_iff :
    (∀ (n : DosName) (later : List UInt8),
      List.ofFn (getShortName (n.text ++ 0 :: later)) = n.canonical) ∧
    ∀ n n' : DosName, n.NoBlanks → n'.NoBlanks → ∀ later later' : List UInt8,
      ((List.ofFn (getShortName (n.text ++ 0 :: later))).take 11 =
        (List.ofFn (getShortName (n'.text ++ 0 :: later'))).take 11 ↔ n.SameName n') := by
  constructor
  · intro n later
    rw [getShortName_stop, shortName_name, toupper_upper, padded, List.length_map, List.length_map]
    rfl
  · intro n n' hn hn' later later'
    have hblank : ∀ (m : DosName), m.NoBlanks → (∀ b ∈ m.base.map upper, b ≠ 32) ∧
        ∀ b ∈ m.extension.map upper, b ≠ 32 := by
      intro m hm
      constructor
      · intro b hb
        obtain ⟨a, ha, rfl⟩ := List.mem_map.mp hb
        exact upper_ne_blank (hm a (List.mem_append_left _ ha))
      · intro b hb
        obtain ⟨a, ha, rfl⟩ := List.mem_map.mp hb
        exact upper_ne_blank (hm a (List.mem_append_right _ ha))
    have hlen : ∀ m : DosName, (m.base.map upper).length ≤ 8 := fun m => by
      simpa using m.base_length.2
    change shortName (n.text ++ 0 :: later) = shortName (n'.text ++ 0 :: later') ↔ _
    rw [shortName_name, shortName_name, toupper_upper, DosName.SameName, ← map_upper_eq_iff,
      ← map_upper_eq_iff]
    constructor
    · intro h
      obtain ⟨hb, he⟩ := padded_inj (hlen n) (hlen n') h
      exact ⟨fill_inj (hblank n hn).1 (hblank n' hn').1 hb, fill_inj (hblank n hn).2 (hblank n' hn').2 he⟩
    · rintro ⟨hb, he⟩
      rw [hb, he]

/-- The name `a.b`. -/
def lowerName : DosName := ⟨[97], some [98], by decide, by decide, by simp⟩

/-- The name `A.b`. -/
def mixedName : DosName := ⟨[65], some [98], by decide, by decide, by simp⟩

theorem shortName_canonical_iff_ab :
    (List.ofFn (getShortName (lowerName.text ++ 0 :: [46, 99]))).take 11 =
      (List.ofFn (getShortName (mixedName.text ++ 0 :: []))).take 11 ↔ lowerName.SameName mixedName :=
  shortName_canonical_iff.2 lowerName mixedName (by simp [DosName.NoBlanks, lowerName, DosName.extension])
    (by simp [DosName.NoBlanks, mixedName, DosName.extension]) [46, 99] []

end ArcOS.Kernel
