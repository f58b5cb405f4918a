import ArcOS.Fat.Init
import ArcOS.Lib.Transducer

/-!
The walk of `FAT_Open` along a path.

A round looks a component up in the current directory, closes it, and opens what it found
(`openStep_eq`). `Walks` is what the rounds lead to; `openLoop_walks` and `openLoop_last` tie it to
the loop, which runs one round after another until one gives a result.
-/

namespace ArcOS.Fat

open Lib Lib.Transducer

variable {L : Layer} {fuel : ℕ} {w w' w'' : Walk} {s s' s'' : St}

/-! ### One round -/

/-- The first part of a round: the component is copied and looked up, and the current file closed. -/
def lookup (L : Layer) (fuel : ℕ) (w : Walk) (s : St) :
    Except Stop (NameBuffer × List UInt8 × Option DirectoryEntry) × St :=
  match component w.path w.name with
  | .error e => (.error e, s)
  | .ok (name, rest, _) =>
    match findFile L fuel w.current (List.ofFn name) s with
    | (.error e, s) => (.error e, s)
    | (.ok found, s) =>
      match close w.current s with
      | (.error e, s) => (.error e, s)
      | (.ok (), s) => (.ok (name, rest, found), s)

/-- The test for a directory never fails: its mask is 0. -/
lemma notADirectory_eq (isLast : Bool) (entry : DirectoryEntry) : notADirectory isLast entry = false := by
  simp [notADirectory, attributeDirectory]

theorem openStep_eq (L : Layer) (fuel : ℕ) (w : Walk) (s : St) : openStep L fuel w s =
    if w.path = [] then (.ok (.inr w.current), s) else
      match lookup L fuel w s with
      | (.error e, t) => (.error e, t)
      | (.ok (name, rest, some entry), t) =>
        (.ok (.inl ⟨rest, (openEntry L entry t).1, name⟩), (openEntry L entry t).2)
      | (.ok (name, _, none), t) => (.ok (.inr none),
          t.note (.printf (textOf "FAT: %s not found\r\n" [.string (cString (List.ofFn name))]))) := by
  unfold openStep lookup
  split
  · rfl
  rcases hc : component w.path w.name with e | ⟨name, rest, isLast⟩
  · rfl
  rcases hf : findFile L fuel w.current (List.ofFn name) s with ⟨e | found, s₁⟩
  · simp only [hf]
  rcases hcl : close w.current s₁ with ⟨e | ⟨⟩, s₂⟩
  · simp only [hf, hcl]
  · cases found with
    | none => simp only [hf, hcl]
    | some entry => simp only [hf, hcl, notADirectory_eq, Bool.false_eq_true, if_false]

lemma component_rest {path rest : List UInt8} {name name' : NameBuffer} {isLast : Bool}
    (hp : path ≠ []) (h : component path name = .ok (name', rest, isLast)) :
    rest.length < path.length := by
  have hpos := List.length_pos_iff.mpr hp
  unfold component at h
  split at h
  · split at h <;> cases h
    rw [List.length_drop]
    omega
  · split at h <;> cases h
    exact hpos

theorem lookup_ok {name : NameBuffer} {rest : List UInt8} {found : Option DirectoryEntry}
    (h : lookup L fuel w s = (.ok (name, rest, found), s')) :
    ∃ isLast t, component w.path w.name = .ok (name, rest, isLast) ∧
      findFile L fuel w.current (List.ofFn name) s = (.ok found, t) ∧
      close w.current t = (.ok (), s') := by
  unfold lookup at h
  split at h
  · cases h
  next hc =>
  split at h
  · cases h
  next hf =>
  split at h
  · cases h
  next hcl =>
  cases h
  exact ⟨_, _, hc, hf, hcl⟩

lemma lookup_rest {name : NameBuffer} {rest : List UInt8} {found : Option DirectoryEntry}
    (hp : w.path ≠ []) (h : lookup L fuel w s = (.ok (name, rest, found), s')) :
    rest.length < w.path.length := by
  obtain ⟨isLast, t, hc, -⟩ := lookup_ok h
  exact component_rest hp hc

lemma openStep_goesOn {w' : Walk} (h : openStep L fuel w s = (.ok (.inl w'), s')) :
    w.path ≠ [] ∧ ∃ name entry t, lookup L fuel w s = (.ok (name, w'.path, some entry), t) ∧
      w'.current = (openEntry L entry t).1 := by
  rw [openStep_eq] at h
  split at h
  · cases h
  next hp =>
  split at h
  · cases h
  · next hl => cases h; exact ⟨hp, _, _, _, hl, rfl⟩
  · cases h

/-- A round that looks a component up makes one search, of what the local buffer holds then. -/
theorem openStep_search {name : NameBuffer} {rest : List UInt8} {isLast : Bool} (hp : w.path ≠ [])
    (hc : component w.path w.name = .ok (name, rest, isLast)) :
    Logged NoSearch (s.note (.findFile s.fat w.current (List.ofFn name))) (openStep L fuel w s).2 := by
  have hstable := noSearch_stable L (s.note (.findFile s.fat w.current (List.ofFn name)))
  have hfind : Logged NoSearch (s.note (.findFile s.fat w.current (List.ofFn name)))
      (findFile L fuel w.current (List.ofFn name) s).2 :=
    hstable.findLoop (fun _ _ _ _ => trivial) _ fuel _ (.refl _)
  rw [openStep_eq, if_neg hp, lookup, hc]
  rcases hf : findFile L fuel w.current (List.ofFn name) s with ⟨e | found, t⟩
  · rw [hf] at hfind
    simpa only [hf] using hfind
  rw [hf] at hfind
  have hclose := hstable.close w.current t hfind
  simp only [hf]
  rcases hcl : close w.current t with ⟨e | ⟨⟩, u⟩
  · rw [hcl] at hclose
    exact hclose
  rw [hcl] at hclose
  cases found with
  | none => exact hstable.note (.printf _) u trivial hclose
  | some entry => exact hstable.openEntry entry hclose

lemma openStep_silent (h : ∀ name rest isLast, w.path ≠ [] → component w.path w.name ≠ .ok (name, rest, isLast)) :
    (openStep L fuel w s).2 = s := by
  rw [openStep_eq]
  split
  · rfl
  next hp =>
  rcases hc : component w.path w.name with e | ⟨name, rest, isLast⟩
  · rw [lookup, hc]
  · exact absurd hc (h name rest isLast hp)

lemma openStep_stops {e : Stop} (h : (openStep L fuel w s).1 = .error e) :
    w.path ≠ [] ∧ (lookup L fuel w s).1 = .error e := by
  rw [openStep_eq] at h
  split at h
  · cases h
  next hp =>
  split at h
  · next hl => cases h; exact ⟨hp, by rw [hl]⟩
  · cases h
  · cases h

/-- A round whose entry is not opened leads to NULL. -/
lemma openStep_failed {name : NameBuffer} {rest : List UInt8} {entry : DirectoryEntry} (hp : w.path ≠ [])
    (hl : lookup L fuel w s = (.ok (name, rest, some entry), s'))
    (hnone : (openEntry L entry s').1 = none) :
    openStep L fuel w s = (.ok (.inl ⟨rest, none, name⟩), (openEntry L entry s').2) := by
  rw [openStep_eq, if_neg hp, hl]
  simp only [hnone]

/-! ### The rounds of a walk -/

/-- Rounds of the walk lead from one state to another. -/
inductive Walks (L : Layer) (fuel : ℕ) : Walk → St → Walk → St → Prop where
  | refl (w : Walk) (s : St) : Walks L fuel w s w s
  | step {w w' w'' : Walk} {s s' s'' : St} : openStep L fuel w s = (.ok (.inl w'), s') →
      Walks L fuel w' s' w'' s'' → Walks L fuel w s w'' s''

lemma openStep_path (h : openStep L fuel w s = (.ok (.inl w'), s')) :
    w'.path.length < w.path.length := by
  rw [openStep_eq] at h
  split at h
  · cases h
  next hp =>
  split at h
  · cases h
  · next hl =>
    cases h
    exact lookup_rest hp hl
  · cases h

/-- A property of the place of a walk that one round keeps holds at every place it comes to. -/
theorem Walks.invariant {P : Walk → St → Prop}
    (hstep : ∀ w s w' s', P w s → openStep L fuel w s = (.ok (.inl w'), s') → P w' s')
    (h : Walks L fuel w s w' s') (hs : P w s) : P w' s' := by
  induction h with
  | refl => exact hs
  | step ho _ ih => exact ih (hstep _ _ _ _ hs ho)

lemma Walks.snoc (h : Walks L fuel w s w' s') (ho : openStep L fuel w' s' = (.ok (.inl w''), s'')) :
    Walks L fuel w s w'' s'' := by
  induction h with
  | refl w s => exact .step ho (.refl _ _)
  | step ho' _ ih => exact .step ho' (ih ho)

theorem openLoop_walks (h : Walks L fuel w s w' s') :
    ∀ rounds, w.path.length < rounds → ∃ rounds', w'.path.length < rounds' ∧
      openLoop L fuel rounds w s = openLoop L fuel rounds' w' s' := by
  induction h with
  | refl w s => exact fun rounds hr => ⟨rounds, hr, rfl⟩
  | step ho _ ih =>
    intro rounds hr
    obtain _ | rounds := rounds
    · omega
    obtain ⟨rounds', hr', heq⟩ := ih rounds (by have := openStep_path ho; omega)
    exact ⟨rounds', hr', by rw [openLoop, ho]; exact heq⟩

lemma openLoop_suffix (L : Layer) (fuel rounds : ℕ) (w : Walk) (s : St) :
    (openStep L fuel w s).2.log <:+ (openLoop L fuel (rounds + 1) w s).2.log := by
  rw [openLoop]
  rcases openStep L fuel w s with ⟨e | w' | file, t⟩
  · exact List.suffix_rfl
  · exact openLoop_grows L t fuel rounds w'
  · exact List.suffix_rfl

theorem openLoop_last (L : Layer) (fuel : ℕ) : ∀ (rounds : ℕ) (w : Walk) (s : St), w.path.length < rounds →
    ∃ w' s', Walks L fuel w s w' s' ∧
      ((∃ file, (openStep L fuel w' s').1 = .ok (.inr file) ∧
          openLoop L fuel rounds w s = (.ok file, (openStep L fuel w' s').2)) ∨
        ∃ e, (openStep L fuel w' s').1 = .error e ∧
          openLoop L fuel rounds w s = (.error e, (openStep L fuel w' s').2)) := by
  intro rounds
  induction rounds with
  | zero => intro w s h; omega
  | succ rounds ih =>
    intro w s hr
    rw [openLoop]
    split
    · next e t heq => exact ⟨w, s, .refl w s, .inr ⟨e, by rw [heq], by rw [heq]⟩⟩
    · next file t heq => exact ⟨w, s, .refl w s, .inl ⟨file, by rw [heq], by rw [heq]⟩⟩
    · next w₁ t heq =>
      obtain ⟨w', s', hw, hend⟩ := ih w₁ t (by have := openStep_path heq; omega)
      exact ⟨w', s', .step heq hw, hend⟩

lemma stripSlash_length (path : List UInt8) : (stripSlash path).length < path.length + 1 := by
  unfold stripSlash
  split
  · rw [List.length_tail]; omega
  · omega

/-- Where the walk of `FAT_Open` starts. -/
def startWalk (path : List UInt8) (name : NameBuffer) : Walk := ⟨stripSlash path, some .root, name⟩

lemma openPath_eq (path : List UInt8) (name : NameBuffer) : openPath L fuel path name s =
    openLoop L fuel (path.length + 1) (startWalk path name) s := rfl

/-- A round that does not return is where `FAT_Open` stops. -/
lemma openPath_stops {path : List UInt8} {name : NameBuffer} {e : Stop}
    (hw : Walks L fuel (startWalk path name) s w s') (h : (openStep L fuel w s').1 = .error e) :
    (openPath L fuel path name s).1 = .error e := by
  obtain ⟨rounds, hr, heq⟩ := openLoop_walks hw (path.length + 1) (stripSlash_length path)
  obtain _ | rounds := rounds
  · omega
  rw [openPath_eq, heq, openLoop]
  split
  · next ho => rw [ho] at h; cases h; rfl
  · next ho => rw [ho] at h; cases h
  · next ho => rw [ho] at h; cases h

lemma openPath_ends_eq {path : List UInt8} {name : NameBuffer}
    (hw : Walks L fuel (startWalk path name) s w s') (hp : w.path = []) :
    openPath L fuel path name s = (.ok w.current, s') := by
  obtain ⟨rounds, hr, heq⟩ := openLoop_walks hw (path.length + 1) (stripSlash_length path)
  obtain _ | rounds := rounds
  · omega
  rw [openPath_eq, heq, openLoop, openStep_eq, if_pos hp]

/-- What every round of the walk preserves, the call preserves. -/
theorem openPath_invariant {path : List UInt8} {name : NameBuffer} {P : St → Prop}
    (hround : ∀ w t, Walks L fuel (startWalk path name) s w t → P t → P (openStep L fuel w t).2) (hs : P s) :
    P (openPath L fuel path name s).2 := by
  obtain ⟨w, t, hw, hend⟩ := openLoop_last L fuel (path.length + 1) (startWalk path name) s
    (stripSlash_length path)
  have ht := hw.invariant (P := fun w t => Walks L fuel (startWalk path name) s w t ∧ P t)
    (fun w t w' t' h ho => ⟨h.1.snoc ho, by
      have hstep := hround w t h.1 h.2
      rwa [ho] at hstep⟩) ⟨.refl _ _, hs⟩
  have hlast := hround w t hw ht.2
  rcases hend with ⟨file, -, heq⟩ | ⟨e, -, heq⟩
  all_goals
    rw [openPath_eq, heq]
    exact hlast

lemma openPath_ends {path : List UInt8} {name : NameBuffer}
    (hw : Walks L fuel (startWalk path name) s w s') (hp : w.path = []) :
    (openPath L fuel path name s).1 = .ok w.current := by
  rw [openPath_ends_eq hw hp]

end ArcOS.Fat
