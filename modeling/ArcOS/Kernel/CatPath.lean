import ArcOS.Kernel.Shell
import ArcOS.Fat.Components
import ArcOS.Fat.TwoRun

/-!
The path of a `cat` command, from the line editor to the short names that are searched.

The line end stays in the parameter, so the path that is opened is the typed one with a line end
behind its last component (`cat_parameter`). The short name made of that component is the canonical
one exactly when there is no place left for the line end in it (`shortName_last_iff`).
-/

namespace ArcOS.Kernel

open Lib Fat

/-! ### Valid paths -/

/-- A component of a path: a base of 1 to 8 bytes and an extension of up to 3, none of them a blank, a
control character, a dot or a slash. -/
structure Component where
  base : List UInt8
  ext : List UInt8
  base_length : 1 ≤ base.length ∧ base.length ≤ 8
  ext_length : ext.length ≤ 3
  bytes : ∀ c ∈ base ++ ext, 32 < c ∧ c ≠ 46 ∧ c ≠ 47 ∧ c ≠ 127

namespace Component

/-- The component as it is typed. -/
def text (c : Component) : List UInt8 := if c.ext = [] then c.base else c.base ++ 46 :: c.ext

/-- The canonical short name: both parts in upper case, filled up with blanks. -/
def canonical (c : Component) : List UInt8 :=
  (c.base.map toupper ++ List.replicate (8 - c.base.length) 32) ++
    (c.ext.map toupper ++ List.replicate (3 - c.ext.length) 32)

/-- Nothing is left of the short name for one more byte. -/
def Full (c : Component) : Prop := c.ext.length = 3 ∨ c.ext = [] ∧ c.base.length = 8

lemma base_ne_nil (c : Component) : c.base ≠ [] := by
  intro h
  have := c.base_length.1
  rw [h] at this
  simp at this

lemma byte_base (c : Component) {b : UInt8} (h : b ∈ c.base) : b ≠ 0 ∧ b ≠ 10 ∧ b ≠ 46 ∧ b ≠ 47 := by
  obtain ⟨h1, h2, h3, -⟩ := c.bytes b (List.mem_append_left _ h)
  refine ⟨?_, ?_, h2, h3⟩
  · rintro rfl
    exact absurd h1 (by decide)
  · rintro rfl
    exact absurd h1 (by decide)

lemma byte_text (c : Component) {b : UInt8} (h : b ∈ c.text) : 32 < b ∧ b ≠ 47 := by
  have hpart : ∀ b ∈ c.base ++ c.ext, 32 < b ∧ b ≠ 47 := fun b hb =>
    ⟨(c.bytes b hb).1, (c.bytes b hb).2.2.1⟩
  unfold text at h
  split at h
  · exact hpart b (List.mem_append_left _ h)
  · rcases List.mem_append.mp h with h | h
    · exact hpart b (List.mem_append_left _ h)
    · rcases List.mem_cons.mp h with rfl | h
      · decide
      · exact hpart b (List.mem_append_right _ h)

lemma text_ne_zero (c : Component) : ∀ b ∈ c.text, b ≠ 0 := by
  rintro b hb rfl
  exact absurd (c.byte_text hb).1 (by decide)

end Component

/-- The path of the components, separated by slashes. -/
def pathText : List Component → List UInt8
  | [] => []
  | [c] => c.text
  | c :: cs => c.text ++ 47 :: pathText cs

lemma pathText_cons (c : Component) {cs : List Component} (hcs : cs ≠ []) :
    pathText (c :: cs) = c.text ++ 47 :: pathText cs := by
  cases cs with
  | nil => exact absurd rfl hcs
  | cons d cs => rfl

lemma byte_pathText {cs : List Component} {b : UInt8} (h : b ∈ pathText cs) : 32 < b := by
  induction cs with
  | nil => cases h
  | cons c cs ih =>
    by_cases hcs : cs = []
    · subst hcs
      exact (c.byte_text h).1
    · rw [pathText_cons c hcs] at h
      rcases List.mem_append.mp h with h | h
      · exact (c.byte_text h).1
      · rcases List.mem_cons.mp h with rfl | h
        · decide
        · exact ih h

lemma pathText_head {cs : List Component} (hcs : cs ≠ []) :
    ∃ b rest, pathText cs = b :: rest ∧ b ≠ 47 := by
  obtain ⟨c, cs, rfl⟩ := List.exists_cons_of_ne_nil hcs
  obtain ⟨b, base, hbase⟩ := List.exists_cons_of_ne_nil c.base_ne_nil
  have htext : ∃ rest, c.text = b :: rest := by
    unfold Component.text
    split
    · exact ⟨_, hbase⟩
    · exact ⟨base ++ 46 :: c.ext, by rw [hbase]; rfl⟩
  obtain ⟨rest, htext⟩ := htext
  refine ⟨b, ?_⟩
  have hb := (c.byte_text (b := b) (by rw [htext]; exact List.mem_cons_self)).2
  by_cases hnil : cs = []
  · subst hnil
    exact ⟨rest, htext, hb⟩
  · rw [pathText_cons c hnil, htext]
    exact ⟨_, rfl, hb⟩

/-! ### The short name of the last component -/

/-- The bytes of a short name that are compared with the entries of a directory. -/
def shortName (name : List UInt8) : List UInt8 := (List.ofFn (getShortName name)).take 11

/-- A short name with the given bytes in its two parts. -/
def shortOf (blank : Bytes 12) (base ext : List UInt8) : Bytes 12 := (blank.write 0 base).write 8 ext

lemma write_nil (b : Bytes 12) (off : ℕ) : b.write off [] = b := by
  funext i
  simp only [Bytes.write, List.length_nil, Nat.add_zero]
  exact if_neg (by omega)

lemma blank_at (i : Fin 12) (hi : i.val < 11) : (if i = 11 then (0 : UInt8) else 32) = 32 :=
  if_neg (by rintro rfl; exact absurd hi (by decide))

/-- Both parts filled up with blanks. -/
def padded (base ext : List UInt8) : List UInt8 :=
  (base ++ List.replicate (8 - base.length) 32) ++ (ext ++ List.replicate (3 - ext.length) 32)

lemma take_shortOf {blank : Bytes 12} (hblank : ∀ i : Fin 12, i.val < 11 → blank i = 32)
    {base ext : List UInt8} (hbase : base.length ≤ 8) (hext : ext.length ≤ 3) :
    (List.ofFn (shortOf blank base ext)).take 11 = padded base ext := by
  apply List.ext_getElem
  · simp [padded]
    omega
  · intro i h1 h2
    have hi : i < 11 := by simpa using h1
    rw [List.getElem_take, List.getElem_ofFn]
    simp only [shortOf, Bytes.write, padded, hblank ⟨i, by omega⟩ hi]
    grind

lemma padded_inj {base base' ext ext' : List UInt8} (hbase : base.length ≤ 8)
    (hbase' : base'.length ≤ 8) (h : padded base ext = padded base' ext') :
    base ++ List.replicate (8 - base.length) 32 = base' ++ List.replicate (8 - base'.length) 32 ∧
    ext ++ List.replicate (3 - ext.length) 32 = ext' ++ List.replicate (3 - ext'.length) 32 := by
  apply List.append_inj h
  simp only [List.length_append, List.length_replicate]
  omega

lemma line_end_ne_blank (l x : List UInt8) (m k : ℕ) :
    (l ++ 10 :: x) ++ List.replicate m 32 ≠ l ++ List.replicate k 32 := by
  intro h
  rw [List.append_assoc] at h
  have h := List.append_cancel_left h
  cases k with
  | zero => simp at h
  | succ k => simp [List.replicate_succ] at h

lemma toupper_line_end : toupper 10 = 10 := by decide

lemma shortName_dot {base rest : List UInt8} (hbase : ∀ b ∈ base, b ≠ 0 ∧ b ≠ 46)
    (hrest : ∀ b ∈ rest, b ≠ 0) (hlen : base.length ≤ 8) :
    shortName (base ++ 46 :: rest) = padded (base.map toupper) ((rest.take 3).map toupper) := by
  have hext : strchr 46 (base ++ 46 :: rest) = some base.length := by
    rw [strchr_append hbase]
    simp [strchr]
  have hbase' : cString ((base ++ 46 :: rest).take (min 8 base.length)) = base := by
    rw [Nat.min_eq_right hlen, List.take_left']
    · exact cString_nonzero fun b hb => (hbase b hb).1
    · rfl
  have hrest' : cString (((base ++ 46 :: rest).drop (base.length + 1)).take 3) = rest.take 3 := by
    rw [List.drop_length_add_append, List.drop_succ_cons, List.drop_zero]
    exact cString_nonzero fun b hb => hrest b (List.mem_of_mem_take hb)
  unfold shortName getShortName
  simp only [hext, Option.getD_some, hbase', hrest', if_pos (show base.length ≠ 11 by omega)]
  exact take_shortOf blank_at (by simpa using hlen) (by simp)

/-- A base and a line end with at most one more byte behind it. -/
lemma shortName_plain {base tail : List UInt8} (hbase : ∀ b ∈ base, b ≠ 0 ∧ b ≠ 46)
    (htail : ∀ b ∈ tail, b ≠ 0) (hlen : base.length ≤ 8) (hone : tail.length ≤ 1) :
    ∃ b, shortName (base ++ 10 :: tail) = padded (b.map toupper) [] ∧ b.length ≤ 8 ∧
      (base.length = 8 → b = base) ∧ (base.length < 8 → ∃ x, b = base ++ 10 :: x) := by
  have hnonzero : ∀ b ∈ base ++ 10 :: tail, b ≠ 0 := by
    intro b hb
    rcases List.mem_append.mp hb with hb | hb
    · exact (hbase b hb).1
    · rcases List.mem_cons.mp hb with rfl | hb
      · decide
      · exact htail b hb
  -- a dot can only be the last byte, so there is nothing behind it
  have hext : strchr 46 (base ++ 10 :: tail) = none ∨
      strchr 46 (base ++ 10 :: tail) = some (base.length + 1) := by
    rw [strchr_append hbase]
    match tail, hone with
    | [], _ => exact .inl rfl
    | [d], _ =>
      have hd : d ≠ 0 := htail d List.mem_cons_self
      by_cases hdot : d = 46
      · exact .inr (by simp [strchr, hdot, Nat.add_comm])
      · exact .inl (by simp [strchr, hd, hdot])
  obtain ⟨n, hn, hle, hge, heq⟩ : ∃ n, (base.length = 8 → n = 8) ∧ n ≤ 8 ∧
      (base.length < 8 → base.length + 1 ≤ n) ∧
      shortName (base ++ 10 :: tail) = padded (((base ++ 10 :: tail).take n).map toupper) [] := by
    have hcut : ∀ n, cString ((base ++ 10 :: tail).take n) = (base ++ 10 :: tail).take n := fun n =>
      cString_nonzero fun b hb => hnonzero b (List.mem_of_mem_take hb)
    have hshort : ∀ n ≤ 8, ∀ blank : Bytes 12, (∀ i : Fin 12, i.val < 11 → blank i = 32) →
        (List.ofFn (shortOf blank (((base ++ 10 :: tail).take n).map toupper) [])).take 11 =
          padded (((base ++ 10 :: tail).take n).map toupper) [] := fun n hn blank hblank =>
      take_shortOf hblank (by simp; omega) (by simp)
    rcases hext with hext | hext
    · refine ⟨8, fun _ => rfl, le_rfl, fun h => h, ?_⟩
      unfold shortName getShortName
      simp only [hext, Option.getD_none, hcut, ne_eq, not_true_eq_false, if_false]
      rw [← hshort 8 le_rfl _ blank_at, shortOf, write_nil]
      rfl
    · refine ⟨min 8 (base.length + 1), fun h => by omega, by omega, fun h => by omega, ?_⟩
      have hnil : ((base ++ 10 :: tail).drop (base.length + 1 + 1)).take 3 = [] := by
        rw [List.drop_eq_nil_of_le, List.take_nil]
        simp only [List.length_append, List.length_cons]
        omega
      unfold shortName getShortName
      simp only [hext, Option.getD_some, hcut, hnil,
        if_pos (show base.length + 1 ≠ 11 by omega)]
      exact hshort _ (by omega) _ blank_at
  refine ⟨_, heq, by simp; omega, fun h => ?_, fun h => ?_⟩
  · rw [hn h, List.take_left' h]
  · obtain ⟨m, rfl⟩ := Nat.exists_eq_add_of_le (hge h)
    exact ⟨tail.take m, by rw [Nat.add_assoc, List.take_length_add_append, Nat.add_comm 1 m]; rfl⟩

/-- **The short name of the last component**, with the line end and at most one more byte behind it, is
canonical exactly when the component leaves no place in the short name. -/
theorem shortName_last_iff (c : Component) {tail : List UInt8} (htail : ∀ b ∈ tail, b ≠ 0)
    (hone : tail.length ≤ 1) : shortName (c.text ++ 10 :: tail) = c.canonical ↔ c.Full := by
  have hbase : ∀ b ∈ c.base, b ≠ 0 ∧ b ≠ 46 := fun b hb =>
    ⟨(c.byte_base hb).1, (c.byte_base hb).2.2.1⟩
  have hlen := c.base_length
  have hlen' := c.ext_length
  have hcanonical : c.canonical = padded (c.base.map toupper) (c.ext.map toupper) := by
    simp [Component.canonical, padded]
  rw [hcanonical, Component.text, Component.Full]
  by_cases hext : c.ext = []
  · rw [if_pos hext]
    obtain ⟨b, hb, hle, hfull, hshort⟩ := shortName_plain hbase htail hlen.2 hone
    rw [hb, hext, List.map_nil]
    by_cases h8 : c.base.length = 8
    · rw [hfull h8]
      simp [h8]
    · have hno : ¬ (([] : List UInt8).length = 3 ∨ ([] : List UInt8) = [] ∧ c.base.length = 8) := by
        simp [h8]
      refine iff_of_false (fun heq => ?_) hno
      obtain ⟨x, hx⟩ := hshort (by omega)
      have := (padded_inj (by simpa using hle) (by simpa using hlen.2) heq).1
      rw [hx, List.map_append, List.map_cons, toupper_line_end] at this
      exact line_end_ne_blank _ _ _ _ this
  · rw [if_neg hext, List.append_assoc, List.cons_append]
    have hrest : ∀ b ∈ c.ext ++ 10 :: tail, b ≠ 0 := by
      intro b hb
      rcases List.mem_append.mp hb with hb | hb
      · rintro rfl
        exact absurd (c.bytes 0 (List.mem_append_right _ hb)).1 (by decide)
      · rcases List.mem_cons.mp hb with rfl | hb
        · decide
        · exact htail b hb
    rw [shortName_dot hbase hrest hlen.2]
    by_cases h3 : c.ext.length = 3
    · rw [List.take_left' h3]
      simp [h3]
    · have hno : ¬ (c.ext.length = 3 ∨ c.ext = [] ∧ c.base.length = 8) := by
        simp [h3, hext]
      refine iff_of_false (fun heq => ?_) hno
      obtain ⟨m, hm⟩ : ∃ m, 3 = c.ext.length + (m + 1) := ⟨3 - c.ext.length - 1, by omega⟩
      have := (padded_inj (by simpa using hlen.2) (by simpa using hlen.2) heq).2
      rw [hm, List.take_length_add_append, List.take_succ_cons, List.map_append, List.map_cons,
        toupper_line_end] at this
      exact line_end_ne_blank _ _ _ _ this

/-! ### The walk along the path -/

section Walk

variable {c : Component} {cs : List Component} {name name' : NameBuffer} {rest : List UInt8}
  {isLast : Bool}

lemma strchr_text (c : Component) (t : List UInt8) :
    strchr 47 (c.text ++ t) = (strchr 47 t).map (· + c.text.length) :=
  strchr_append (fun b hb => ⟨c.text_ne_zero b hb, (c.byte_text hb).2⟩) t

lemma component_inner (hcs : cs ≠ [])
    (h : component (pathText (c :: cs) ++ [10]) name = .ok (name', rest, isLast)) :
    rest = pathText cs ++ [10] ∧ isLast = false := by
  have hpath : pathText (c :: cs) ++ [10] = c.text ++ 47 :: (pathText cs ++ [10]) := by
    rw [pathText_cons c hcs, List.append_assoc, List.cons_append]
  have hslash : strchr 47 (c.text ++ 47 :: (pathText cs ++ [10])) = some c.text.length := by
    rw [strchr_text]
    simp [strchr]
  rw [hpath, component, hslash] at h
  simp only [List.drop_length_add_append, List.drop_succ_cons, List.drop_zero] at h
  split at h
  · cases h
    exact ⟨rfl, rfl⟩
  · cases h

/-- A buffer with a string copied to it and ended one byte too far. -/
lemma ofFn_copied {n : ℕ} (buffer : Bytes n) {l : List UInt8} (hroom : l.length + 1 < n) :
    ∃ d later, List.ofFn ((buffer.write 0 l).write (l.length + 1) [0]) = l ++ d :: 0 :: later := by
  obtain ⟨b, hb⟩ : ∃ b, b = (buffer.write 0 l).write (l.length + 1) [0] := ⟨_, rfl⟩
  have hcopied : ∀ i (hi : i < l.length), b ⟨i, by omega⟩ = l[i] := by
    intro i hi
    simp only [hb, Bytes.write, List.length_singleton]
    rw [if_neg (by omega), if_pos (by omega), Nat.sub_zero, List.getD_eq_getElem _ _ hi]
  have hstop : b ⟨l.length + 1, hroom⟩ = 0 := by simp [hb, Bytes.write]
  have hjoin : ∀ i (hi : i < (l ++ [b ⟨l.length, by omega⟩]).length),
      b ⟨i, by rw [List.length_append, List.length_singleton] at hi; omega⟩ =
        (l ++ [b ⟨l.length, by omega⟩])[i] := by
    intro i hi
    rw [List.length_append, List.length_singleton] at hi
    rcases Nat.lt_or_ge i l.length with h | h
    · rw [List.getElem_append_left h]
      exact hcopied i h
    · simp [show i = l.length by omega]
  obtain ⟨later, hlater⟩ := ofFn_split (by simpa using hroom) hjoin
  refine ⟨b ⟨l.length, by omega⟩, later, ?_⟩
  rw [← hb, hlater, List.append_assoc]
  simp [hstop]

/-- The round of the last component: the name is the component, the line end, and the byte the buffer
held behind it. -/
lemma component_last (h : component (c.text ++ [10]) name = .ok (name', rest, isLast)) :
    rest = [] ∧ isLast = true ∧ ∃ tail, cString (List.ofFn name') = c.text ++ 10 :: tail ∧
      tail.length ≤ 1 ∧ ∀ b ∈ tail, b ≠ 0 := by
  have hslash : strchr 47 (c.text ++ [10]) = none := by
    rw [strchr_text]
    simp [strchr]
  rw [component, hslash] at h
  simp only [List.length_append, List.length_singleton] at h
  split at h
  · rename_i hroom
    cases h
    refine ⟨rfl, rfl, ?_⟩
    obtain ⟨d, later, hlist⟩ := ofFn_copied name (l := c.text ++ [10]) (by simpa using hroom)
    rw [List.length_append, List.length_singleton, List.append_assoc] at hlist
    rw [hlist, List.singleton_append]
    have hcut : cString (c.text ++ (10 :: d :: 0 :: later)) =
        c.text ++ 10 :: cString (d :: 0 :: later) := by
      unfold cString
      rw [List.takeWhile_append_of_pos fun b hb => by simpa using c.text_ne_zero b hb]
      rfl
    by_cases hd : d = 0
    · exact ⟨[], by rw [hcut, hd]; rfl, by simp, by simp⟩
    · refine ⟨[d], ?_, by simp, by simpa using hd⟩
      rw [hcut]
      simp [cString, hd]
  · cases h

lemma walks_path {L : Layer} {fuel : ℕ} {w w' : Walk} {s s' : St} (hcs : cs ≠ [])
    (hstart : w.path = pathText cs ++ [10]) (h : Walks L fuel w s w' s') :
    w'.path = [] ∨ ∃ before ds, ds ≠ [] ∧ cs = before ++ ds ∧ w'.path = pathText ds ++ [10] := by
  refine h.invariant (P := fun w _ => w.path = [] ∨
    ∃ before ds, ds ≠ [] ∧ cs = before ++ ds ∧ w.path = pathText ds ++ [10]) ?_
    (.inr ⟨[], cs, hcs, rfl, hstart⟩)
  intro w s w' s' hw ho
  obtain ⟨hp, name, entry, t, hl, -⟩ := openStep_goesOn ho
  obtain ⟨isLast, t, hc, -⟩ := lookup_ok hl
  rcases hw with hnil | ⟨before, ds, hds, hcs, hpath⟩
  · exact absurd hnil hp
  · obtain ⟨d, ds, rfl⟩ := List.exists_cons_of_ne_nil hds
    rw [hpath] at hc
    by_cases hlast : ds = []
    · subst hlast
      exact .inl (component_last hc).1
    · refine .inr ⟨before ++ [d], ds, hlast, by rw [hcs, List.append_assoc]; rfl, ?_⟩
      exact (component_inner hlast hc).1

end Walk

/-! ### The command -/

lemma edited_of_no_backspace {cs : List UInt8} (h : ∀ c ∈ cs, c ≠ 8) : edited cs = cs := by
  induction cs using List.reverseRecOn with
  | nil => rfl
  | append_singleton cs c ih =>
    rw [edited_snoc, ih fun d hd => h d (List.mem_append_left _ hd), edit,
      if_neg (h c (List.mem_append_right _ List.mem_cons_self))]

/-- A short line without control characters is delivered with its line end. -/
theorem fgets_plain {buffer : ℤ → UInt8} {n : ℤ} {line : List UInt8} (hline : ∀ c ∈ line, 31 < c)
    (hlen : (line.length : ℤ) < n - 1) :
    ∃ str, fgets buffer n (line ++ [10]) = some (true, str) ∧ Spells str (line ++ [10]) := by
  have hcontrol : ∀ c ∈ line, c ≠ 0 ∧ c ≠ 8 ∧ ¬ (c = 10 ∨ c = 13) := by
    intro c hc
    have := hline c hc
    refine ⟨?_, ?_, ?_⟩
    · rintro rfl
      exact absurd this (by decide)
    · rintro rfl
      exact absurd this (by decide)
    · rintro (rfl | rfl)
      · exact absurd this (by decide)
      · exact absurd this (by decide)
  obtain ⟨s', line', hloop, hshows, hend⟩ := fgetsLoop_line (n := n) (Or.inl rfl)
    (fun c hc => (hcontrol c hc).2.2) (Shows.nil buffer)
  have hedited : ∀ m, (line.take m).foldl edit [] = line.take m := fun m =>
    edited_of_no_backspace fun c hc => (hcontrol c (List.mem_of_mem_take hc)).2.1
  rcases hend with ⟨-, rfl⟩ | ⟨hfull, -⟩
  · have hall := hedited line.length
    rw [List.take_length] at hall
    rw [hall] at hshows
    have hpos := hshows.length
    rw [List.length_append, List.length_singleton] at hpos
    refine ⟨_, by rw [fgets, if_neg (by omega), hloop, Option.map_some,
      decide_eq_true (show s'.i > 0 by omega)], fun k hk => ?_, fun c hc => ?_, ?_⟩
    · rw [Function.update_of_ne (by rw [hshows.length]; omega)]
      exact hshows.bytes k hk
    · rcases List.mem_append.mp hc with hc | hc
      · exact (hcontrol c hc).1
      · rw [List.mem_singleton.mp hc]
        decide
    · rw [← hshows.length, Function.update_self]
  · refine absurd (fun m hm => ?_) hfull
    rw [hedited m, List.length_take]
    omega

/-- The characters typed for `cat` and a path, with Enter. -/
def catLine (path : List UInt8) : List UInt8 := [99, 97, 116, 32] ++ path ++ [10]

/-- **The shell never passes a path unchanged**: the parameter of `cat` is the typed path with the line
end behind it. When the walk along it comes to the last component, the short name it searches is the
canonical one exactly when the component leaves no place in the short name, whatever the line buffer,
the stack and the name buffer held. -/
theorem cat_parameter (cs : List Component) (hcs : cs ≠ []) (hlen : (pathText cs).length < 99)
    (buffer stack : ℤ → UInt8) :
    ∃ str cmd, fgets buffer 256 (catLine (pathText cs)) = some (true, str) ∧
      commandParse str stack = some cmd ∧ cmd.type = .cat ∧
      stringAt cmd.parameter 100 = pathText cs ++ [10] ∧ stringAt cmd.parameter 100 ≠ pathText cs ∧
      ∀ (L : Layer) (fuel : ℕ) (name : NameBuffer) (s : St) (w : Walk) (s' : St) (name' : NameBuffer)
        (rest : List UInt8), Walks L fuel (startWalk (stringAt cmd.parameter 100) name) s w s' →
        w.path ≠ [] → component w.path w.name = .ok (name', rest, true) →
        (shortName (List.ofFn name') = (cs.getLast hcs).canonical ↔ (cs.getLast hcs).Full) := by
  obtain ⟨b, path, hpath, hslash⟩ := pathText_head hcs
  have hblank : ∀ c ∈ [99, 97, 116, 32] ++ pathText cs, 31 < c := by
    intro c hc
    rcases List.mem_append.mp hc with hc | hc
    · have hword : ∀ c ∈ [99, 97, 116, (32 : UInt8)], 31 < c := by simp
      exact hword c hc
    · exact UInt8.lt_trans (by decide) (byte_pathText hc)
  have hline : (([99, 97, 116, 32] ++ pathText cs).length : ℤ) < 256 - 1 := by
    rw [List.length_append]
    simp
    omega
  obtain ⟨str, hgets, hspells⟩ : ∃ str, fgets buffer 256 (([99, 97, 116, 32] ++ pathText cs) ++ [10]) =
      some (true, str) ∧ Spells str (([99, 97, 116, 32] ++ pathText cs) ++ [10]) :=
    fgets_plain hblank hline
  have hb : b ≠ 32 := by
    rintro rfl
    have hmem : 32 ∈ pathText cs := by
      rw [hpath]
      exact List.mem_cons_self
    exact absurd (byte_pathText hmem) (by decide)
  rw [hpath, List.append_assoc, show (b :: path) ++ [10] = b :: (path ++ [10]) from rfl] at hspells
  have hfits : (b :: (path ++ [10])).length ≤ 99 := by
    rw [hpath] at hlen
    simp only [List.length_cons, List.length_append, List.length_nil] at hlen ⊢
    omega
  obtain ⟨cmd, hparse, htype, hparameter⟩ : ∃ cmd, commandParse str stack = some cmd ∧
      cmd.type = .cat ∧ Spells cmd.parameter (b :: (path ++ [10])) :=
    commandParse_cat hspells hb hfits
  rw [show b :: (path ++ [10]) = (b :: path) ++ [10] from rfl, ← hpath] at hparameter
  have hstring : stringAt cmd.parameter 100 = pathText cs ++ [10] :=
    hparameter.stringAt (by rw [List.length_append, List.length_singleton]; omega)
  refine ⟨str, cmd, hgets, hparse, htype, hstring, ?_, ?_⟩
  · rw [hstring]
    simp
  · intro L fuel name s w s' name' rest hw hp hc
    rw [hstring] at hw
    have hstart : (startWalk (pathText cs ++ [10]) name).path = pathText cs ++ [10] := by
      rw [startWalk, stripSlash, hpath]
      exact if_neg (by simpa using hslash)
    rcases walks_path hcs hstart hw with hnil | ⟨before, ds, hds, rfl, hrest⟩
    · exact absurd hnil hp
    · obtain ⟨d, ds, rfl⟩ := List.exists_cons_of_ne_nil hds
      rw [hrest] at hc
      by_cases hlast : ds = []
      · subst hlast
        obtain ⟨-, -, tail, htail, hone, hnonzero⟩ := component_last hc
        rw [List.getLast_append_singleton, shortName, ← getShortName_cString, htail]
        exact shortName_last_iff d hnonzero hone
      · cases (component_inner hlast hc).2

/-- The file `a`: the parameter has two bytes, and the short name searched holds the line end. -/
theorem cat_parameter_a : ∃ c : Component, c.text = [97] ∧
    ((fgets (fun _ => 0) 256 (catLine (pathText [c]))).bind fun res =>
      commandParse res.2 fun _ => 0).map (fun cmd => stringAt cmd.parameter 100) = some [97, 10] ∧
    (component [97, 10] blankName).toOption.map (fun res => shortName (List.ofFn res.1)) =
      some [65, 10, 32, 32, 32, 32, 32, 32, 32, 32, 32] ∧
    c.canonical = [65, 32, 32, 32, 32, 32, 32, 32, 32, 32, 32] :=
  ⟨⟨[97], [], by decide, by decide, by simp⟩, rfl, by decide +kernel, by decide +kernel,
    by decide +kernel⟩

/-- A file name whose extension has three letters: nothing of the line end gets into the short name. -/
theorem cat_parameter_full : ∃ c : Component, c.text = [97, 46, 116, 120, 116] ∧
    ∃ str cmd, fgets (fun _ => 0) 256 (catLine (pathText [c])) = some (true, str) ∧
      commandParse str (fun _ => 0) = some cmd ∧
      stringAt cmd.parameter 100 = pathText [c] ++ [10] ∧
      ∀ (name' : NameBuffer) (rest : List UInt8), component
        (startWalk (stringAt cmd.parameter 100) blankName).path blankName = .ok (name', rest, true) →
          shortName (List.ofFn name') = c.canonical := by
  refine ⟨⟨[97], [116, 120, 116], by decide, by decide, by simp⟩, rfl, ?_⟩
  obtain ⟨str, cmd, h1, h2, -, h4, -, h⟩ := cat_parameter
    [⟨[97], [116, 120, 116], by decide, by decide, by simp⟩] (by simp) (by decide)
    (fun _ => 0) (fun _ => 0)
  refine ⟨str, cmd, h1, h2, h4, fun name' rest hc => ?_⟩
  exact (h smallLayer 0 blankName (mounted smallLayer) _ _ name' rest (.refl _ _)
    (by rw [h4]; decide) hc).mpr (.inl rfl)

end ArcOS.Kernel
