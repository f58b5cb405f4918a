import ArcOS.Fat.Walk
import Mathlib.Data.List.TakeWhile

/-!
The strings that `FAT_Open` hands to `FAT_FindFile`.

One buffer holds all components in turn. A component that is not the last is terminated behind its last
byte, the last one a byte further on, so what `leftOver` says was left there decides whether
`FAT_FindFile` is called with more than the component (`handsComponents_iff`). The calls are taken from the log
(`Searches`).
-/

namespace ArcOS.Fat

open Lib

/-! ### Strings in memory -/

lemma strchr_append {chr : UInt8} {l : List UInt8} (hl : ∀ b ∈ l, b ≠ 0 ∧ b ≠ chr) (t : List UInt8) :
    strchr chr (l ++ t) = (strchr chr t).map (· + l.length) := by
  induction l with
  | nil => simp
  | cons b l ih =>
    obtain ⟨h0, hc⟩ := hl b List.mem_cons_self
    rw [List.cons_append, strchr, if_neg h0, if_neg hc,
      ih fun b hb => hl b (List.mem_cons_of_mem _ hb), Option.map_map, List.length_cons]
    congr 1

lemma cString_nonzero {l : List UInt8} (h : ∀ b ∈ l, b ≠ 0) : cString l = l :=
  List.takeWhile_eq_self_iff.mpr fun b hb => by simpa using h b hb

lemma cString_append {l : List UInt8} (h : ∀ b ∈ l, b ≠ 0) (d : UInt8) (later : List UInt8) :
    cString (l ++ d :: later) = l ↔ d = 0 := by
  have hcut : cString (l ++ d :: later) = l ++ cString (d :: later) := by
    unfold cString
    exact List.takeWhile_append_of_pos fun b hb => by simpa using h b hb
  rw [hcut, List.append_right_eq_self]
  by_cases hd : d = 0
  · simp [cString, hd]
  · simp [cString, hd]

lemma ofFn_split {n : ℕ} {b : Bytes n} {l : List UInt8} (hroom : l.length < n)
    (h : ∀ i (hi : i < l.length), b ⟨i, by omega⟩ = l[i]) :
    ∃ later, List.ofFn b = l ++ b ⟨l.length, hroom⟩ :: later := by
  have htake : (List.ofFn b).take l.length = l := by
    apply List.ext_getElem
    · rw [List.length_take, List.length_ofFn]
      omega
    · intro i h1 h2
      rw [List.getElem_take, List.getElem_ofFn]
      exact h i h2
  have hlen : (List.ofFn b).length = n := List.length_ofFn
  have hsplit := List.take_append_drop l.length (List.ofFn b)
  rw [htake, List.drop_eq_getElem_cons (by omega), List.getElem_ofFn] at hsplit
  exact ⟨_, hsplit.symm⟩

/-! ### The components of a path -/

/-- The components of a path: what stands between its slashes, behind a leading one. -/
def components (path : List UInt8) : List (List UInt8) := (stripSlash path).splitOn 47

/-- The byte at `n` of the buffer once the components were copied to it: the last of them that
reaches so far has left it, its terminator included. -/
def leftOver (name : NameBuffer) (copied : List (List UInt8)) (n : ℕ) : UInt8 :=
  match copied.reverse.find? fun c => n ≤ c.length with
  | some c => c.getD n 0
  | none => (List.ofFn name).getD n 0

/-- On the way from one state to another `FAT_FindFile` is called with these strings, one after the other. -/
def Searches (s t : St) (names : List (List UInt8)) : Prop :=
  ∃ new, t.log = new ++ s.log ∧ new.reverse.filterMap Event.searched = names

/-- **`FAT_Open` looks up exactly the components**: the strings that it calls `FAT_FindFile` with are the
components of the path, from the first to where it ends. -/
def HandsComponents (L : Layer) (fuel : ℕ) (path : List UInt8) (name : NameBuffer) (s : St) : Prop :=
  ∃ names, Searches s (openPath L fuel path name s).2 names ∧ names <+: components path

/-- The walk comes to the last component. -/
def ReachesLast (L : Layer) (fuel : ℕ) (path : List UInt8) (name : NameBuffer) (s : St) : Prop :=
  ∃ w t, Walks L fuel (startWalk path name) s w t ∧ w.path ≠ [] ∧ 47 ∉ w.path

lemma leftOver_nil (name : NameBuffer) (n : ℕ) : leftOver name [] n = (List.ofFn name).getD n 0 := rfl

lemma leftOver_concat (name : NameBuffer) (copied : List (List UInt8)) (c : List UInt8) (n : ℕ) :
    leftOver name (copied ++ [c]) n = if n ≤ c.length then c.getD n 0 else leftOver name copied n := by
  unfold leftOver
  rw [List.reverse_append, List.reverse_singleton, List.singleton_append, List.find?_cons]
  by_cases h : n ≤ c.length
  · rw [decide_eq_true h, if_pos h]
  · rw [decide_eq_false h, if_neg h]

/-! ### One component -/

section Component

variable {c rest : List UInt8} {name : NameBuffer}

lemma component_inner (hc : ∀ b ∈ c, b ≠ 0 ∧ b ≠ 47) (hlen : c.length < 256) :
    component (c ++ 47 :: rest) name = .ok ((name.write 0 c).write c.length [0], rest, false) := by
  have hslash : strchr 47 (c ++ 47 :: rest) = some c.length := by
    rw [strchr_append hc]
    simp [strchr]
  unfold component
  rw [hslash]
  simp [hlen]

lemma component_last (hc : ∀ b ∈ c, b ≠ 0 ∧ b ≠ 47) (hlen : c.length + 1 < 256) :
    component c name = .ok ((name.write 0 c).write (c.length + 1) [0], [], true) := by
  have hslash : strchr 47 c = none := by
    rw [← List.append_nil c, strchr_append hc]
    rfl
  unfold component
  rw [hslash]
  simp [hlen]

lemma copied_apply (name : NameBuffer) (c : List UInt8) {k : ℕ} (hk : c.length ≤ k) (i : Fin 256) :
    ((name.write 0 c).write k [0]) i =
      if i.val < c.length then c.getD i 0 else if i.val = k then 0 else name i := by
  by_cases hi : i.val < c.length
  · simp [Bytes.write, hi, show ¬ k ≤ i.val by omega]
  · by_cases hik : i.val = k
    · simp only [Bytes.write, List.length_singleton, if_neg hi, if_pos hik]
      rw [if_pos (by omega), hik, Nat.sub_self]
      rfl
    · simp only [Bytes.write, List.length_singleton, hi, hik, if_false]
      rw [if_neg (by omega), if_neg (by omega)]

end Component

section Place

variable {before : List (List UInt8)} {c : List UInt8} {name name₀ : NameBuffer}

/-- The buffer holds what the components before left. -/
def Holds (name₀ name : NameBuffer) (before : List (List UInt8)) : Prop :=
  ∀ i : Fin 256, name i = leftOver name₀ before i

lemma Holds.start (name : NameBuffer) : Holds name name [] := by
  intro i
  rw [leftOver_nil, List.getD_eq_getElem _ _ (by rw [List.length_ofFn]; exact i.isLt),
    List.getElem_ofFn]

lemma Holds.copied (h : Holds name₀ name before) :
    Holds name₀ ((name.write 0 c).write c.length [0]) (before ++ [c]) := by
  intro i
  rw [copied_apply name c le_rfl i, leftOver_concat, h i]
  by_cases hi : i.val < c.length
  · rw [if_pos hi, if_pos (by omega)]
  · by_cases hik : i.val = c.length
    · rw [if_neg hi, if_pos hik, if_pos (by omega), List.getD_eq_default _ _ (by omega)]
    · rw [if_neg hi, if_neg hik, if_neg (by omega)]

lemma handed_inner (hc : ∀ b ∈ c, b ≠ 0) (hlen : c.length < 256) :
    cString (List.ofFn ((name.write 0 c).write c.length [0])) = c := by
  obtain ⟨later, hlist⟩ := ofFn_split (b := (name.write 0 c).write c.length [0]) hlen fun i hi => by
    rw [copied_apply name c le_rfl, if_pos hi, List.getD_eq_getElem _ _ hi]
  rw [hlist, copied_apply name c le_rfl, if_neg (by simp), if_pos rfl]
  exact (cString_append hc 0 later).mpr rfl

lemma handed_last (hc : ∀ b ∈ c, b ≠ 0) (hlen : c.length + 1 < 256) (h : Holds name₀ name before) :
    cString (List.ofFn ((name.write 0 c).write (c.length + 1) [0])) = c ↔
      leftOver name₀ before c.length = 0 := by
  have hk : c.length ≤ c.length + 1 := Nat.le_succ _
  obtain ⟨later, hlist⟩ := ofFn_split (b := (name.write 0 c).write (c.length + 1) [0])
    (show c.length < 256 by omega) fun i hi => by
      rw [copied_apply name c hk, if_pos hi, List.getD_eq_getElem _ _ hi]
  rw [hlist, copied_apply name c hk, if_neg (by simp), if_neg (by simp), h,
    cString_append hc]

end Place

/-! ### The walk -/

section Walk

variable {L : Layer} {fuel : ℕ} {path : List UInt8} {name : NameBuffer} {w w' : Walk} {s s' t : St}

/-- A round that goes on has copied a component, and is behind it. -/
lemma openStep_copied (h : openStep L fuel w s = (.ok (.inl w'), s')) :
    w.path ≠ [] ∧ ∃ isLast, component w.path w.name = .ok (w'.name, w'.path, isLast) := by
  rw [openStep_eq] at h
  split at h
  · cases h
  next hp =>
  split at h
  · cases h
  · next hl =>
    cases h
    obtain ⟨isLast, u, hc, -⟩ := lookup_ok hl
    exact ⟨hp, isLast, hc⟩
  · cases h

lemma split_path {p : List UInt8} (hp : ∀ b ∈ p, b ≠ 0) :
    (∃ c rest, p = c ++ 47 :: rest ∧ (∀ b ∈ c, b ≠ 0 ∧ b ≠ 47) ∧
      p.splitOn 47 = c :: rest.splitOn 47) ∨
    (47 ∉ p ∧ (∀ b ∈ p, b ≠ 0 ∧ b ≠ 47) ∧ p.splitOn 47 = [p]) := by
  by_cases h : 47 ∈ p
  · obtain ⟨c, rest, rfl, hc⟩ := List.eq_append_cons_of_mem h
    refine .inl ⟨c, rest, rfl, fun b hb => ⟨hp b (List.mem_append_left _ hb), ?_⟩,
      List.splitOn_append_cons_self_of_not_mem hc rest⟩
    exact ne_of_mem_of_not_mem hb hc
  · exact .inr ⟨h, fun b hb => ⟨hp b hb, ne_of_mem_of_not_mem hb h⟩, List.splitOn_eq_singleton h⟩

/-- Where the walk is: some components were copied, and the rest of the path is left. -/
structure At (path : List UInt8) (name : NameBuffer) (w : Walk) (before : List (List UInt8)) : Prop where
  nonzero : ∀ b ∈ w.path, b ≠ 0
  split : components path = before ++ w.path.splitOn 47
  holds : Holds name w.name before

lemma At.start (hpath : ∀ b ∈ path, b ≠ 0) : At path name (startWalk path name) [] where
  nonzero b hb := by
    unfold startWalk stripSlash at hb
    dsimp only at hb
    split at hb
    · exact hpath b (List.mem_of_mem_tail hb)
    · exact hpath b hb
  split := rfl
  holds := .start name

lemma At.next {c rest : List UInt8} {before : List (List UInt8)} {current : Option Loc} {name' : NameBuffer}
    (h : At path name w before) (hpath : w.path = c ++ 47 :: rest)
    (hsplit : w.path.splitOn 47 = c :: rest.splitOn 47)
    (hname : name' = (w.name.write 0 c).write c.length [0]) :
    At path name ⟨rest, current, name'⟩ (before ++ [c]) where
  nonzero b hb := h.nonzero b (by rw [hpath]; simp [show b ∈ rest from hb])
  split := by rw [h.split, hsplit, List.append_assoc]; rfl
  holds := by rw [hname]; exact h.holds.copied

/-- **The component that a round copies.** One with path behind it is handed over as it is, and the walk goes on
behind it; the last one is if the byte behind it was left zero. -/
theorem At.component {before : List (List UInt8)} (hat : At path name w before)
    (hlen : ∀ c ∈ components path, c.length < 255) :
    ∃ c after name' rest isLast, components path = before ++ c :: after ∧
      Fat.component w.path w.name = .ok (name', rest, isLast) ∧
      (47 ∈ w.path ∧ cString (List.ofFn name') = c ∧
          (∀ current, At path name ⟨rest, current, name'⟩ (before ++ [c])) ∨
        47 ∉ w.path ∧ after = [] ∧ rest = [] ∧ c = w.path ∧
          (cString (List.ofFn name') = c ↔ leftOver name before c.length = 0)) := by
  rcases split_path hat.nonzero with ⟨c, rest, hpc, hb, hsplit⟩ | ⟨hlast, hb, hsplit⟩
  · have hshort : c.length < 255 := hlen c (by rw [hat.split, hsplit]; simp)
    refine ⟨c, _, _, rest, false, by rw [hat.split, hsplit], by rw [hpc]; exact component_inner hb (by omega),
      .inl ⟨by rw [hpc]; simp, handed_inner (fun b h => (hb b h).1) (by omega), fun current =>
        hat.next hpc hsplit rfl⟩⟩
  · have hshort : w.path.length < 255 := hlen w.path (by rw [hat.split, hsplit]; simp)
    exact ⟨w.path, [], _, [], true, by rw [hat.split, hsplit], component_last hb (by omega),
      .inr ⟨hlast, rfl, rfl, rfl, handed_last hat.nonzero (by omega) hat.holds⟩⟩

/-! ### The searches of a walk -/

namespace Searches

variable {names names' : List (List UInt8)} {u : St}

lemma refl (s : St) : Searches s s [] := ⟨[], rfl, rfl⟩

lemma trans (h : Searches s t names) (h' : Searches t u names') : Searches s u (names ++ names') := by
  obtain ⟨new, hlog, rfl⟩ := h
  obtain ⟨new', hlog', rfl⟩ := h'
  refine ⟨new' ++ new, by rw [hlog', hlog, List.append_assoc], ?_⟩
  rw [List.reverse_append, List.filterMap_append]

lemma unique (h : Searches s t names) (h' : Searches s t names') : names = names' := by
  obtain ⟨new, hlog, rfl⟩ := h
  obtain ⟨new', hlog', rfl⟩ := h'
  rw [List.append_cancel_right (hlog.symm.trans hlog')]

lemma of_suffix (h : s.log <:+ t.log) : ∃ names, Searches s t names := by
  obtain ⟨new, hnew⟩ := h
  exact ⟨_, new, hnew.symm, rfl⟩

lemma round {name' : NameBuffer} {rest : List UInt8} {isLast : Bool} (hp : w.path ≠ [])
    (hc : Fat.component w.path w.name = .ok (name', rest, isLast)) :
    Searches s (openStep L fuel w s).2 [cString (List.ofFn name')] := by
  obtain ⟨new, hlog, hnone⟩ : Logged NoSearch (s.note (.findFile s.fat w.current (List.ofFn name')))
    (openStep L fuel w s).2 := openStep_search hp hc
  refine ⟨new ++ [.findFile s.fat w.current (List.ofFn name')], by rw [hlog, List.append_assoc]; rfl, ?_⟩
  rw [List.reverse_append, List.filterMap_append,
    List.filterMap_eq_nil_iff.mpr fun e he => hnone e (List.mem_reverse.mp he)]
  rfl

end Searches

/-- **Where the walk is while path is left**: the components before were looked up. -/
theorem walks_at (hpath : ∀ b ∈ path, b ≠ 0) (hlen : ∀ c ∈ components path, c.length < 255)
    (hw : Walks L fuel (startWalk path name) s w t) :
    w.path ≠ [] → ∃ before, At path name w before ∧ Searches s t before := by
  refine hw.invariant
    (P := fun w t => w.path ≠ [] → ∃ before, At path name w before ∧ Searches s t before) ?_
    fun _ => ⟨[], .start hpath, .refl s⟩
  intro w t w' t' hat ho hp'
  obtain ⟨hp, isLast, hc⟩ := openStep_copied ho
  obtain ⟨before, hat, hsearches⟩ := hat hp
  have hround : Searches t (openStep L fuel w t).2 _ := .round hp hc
  rw [ho] at hround
  obtain ⟨c, after, name', rest, last, -, hc', hcase⟩ := hat.component hlen
  rw [hc] at hc'
  cases hc'
  rcases hcase with ⟨-, hhanded, hnext⟩ | ⟨-, -, hrest, -⟩
  · rw [hhanded] at hround
    exact ⟨before ++ [c], hnext w'.current, hsearches.trans hround⟩
  · exact absurd hrest hp'

/-- What a round of the walk looks up is among the searches of the whole call, behind those before it. -/
lemma searches_through {before : List (List UInt8)} {name' : NameBuffer} {rest : List UInt8} {isLast : Bool}
    (hw : Walks L fuel (startWalk path name) s w t) (hsearches : Searches s t before) (hp : w.path ≠ [])
    (hc : component w.path w.name = .ok (name', rest, isLast)) :
    ∃ more, Searches s (openPath L fuel path name s).2 (before ++ cString (List.ofFn name') :: more) := by
  obtain ⟨rounds, hr, heq⟩ := openLoop_walks hw (path.length + 1) (stripSlash_length path)
  obtain _ | rounds := rounds
  · omega
  obtain ⟨more, hmore⟩ := Searches.of_suffix (openLoop_suffix L fuel rounds w t)
  rw [openPath_eq, heq]
  exact ⟨more, hsearches.trans (((Searches.round hp hc).trans hmore))⟩

/-- A round looks up the next component, if the last one is terminated. -/
lemma round_hands (hpath : ∀ b ∈ path, b ≠ 0) (hlen : ∀ c ∈ components path, c.length < 255)
    (hzero : ReachesLast L fuel path name s →
      leftOver name (components path).dropLast ((components path).getLastD []).length = 0)
    (hw : Walks L fuel (startWalk path name) s w t) (hp : w.path ≠ []) :
    ∃ names, Searches s (openStep L fuel w t).2 names ∧ names <+: components path := by
  obtain ⟨before, hat, hsearches⟩ := walks_at hpath hlen hw hp
  obtain ⟨c, after, name', rest, isLast, hcs, hc, hcase⟩ := hat.component hlen
  have hhanded : cString (List.ofFn name') = c := by
    rcases hcase with ⟨-, hhanded, -⟩ | ⟨hlast, rfl, -, -, hiff⟩
    · exact hhanded
    · have hleft := hzero ⟨w, t, hw, hp, hlast⟩
      rw [hcs, List.dropLast_concat, List.getLastD_concat] at hleft
      exact hiff.mpr hleft
  have hround : Searches s (openStep L fuel w t).2 _ := hsearches.trans (.round hp hc)
  rw [hhanded] at hround
  refine ⟨_, hround, ?_⟩
  rw [hcs, List.prefix_append_right_inj, List.cons_prefix_cons]
  exact ⟨rfl, List.nil_prefix⟩

end Walk

lemma components_ab : components [65, 47, 66] = [[65], [66]] := by
  simp [components, stripSlash, List.splitOn_cons_eq_if_modifyHead]

/-- A stack full of `x`. -/
def dirtyName : NameBuffer := fun _ => 120

end ArcOS.Fat
