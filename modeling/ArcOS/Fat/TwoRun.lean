import ArcOS.Fat.Walk
import ArcOS.Fat.Content

/-!
Two runs side by side.

`Sim` says what a relation between the states of two layers must survive for the two to give the same
answers call by call: the updates of `Stable`, made in both runs, and the three functions that look at
more than a record and the volume (`FAT_NextCluster`, `FAT_OpenEntry`, `FAT_Close`). Lookups are related
only when what is logged of them meets a guard in either run. From that every function of the
layer gives the same result in both runs, and leaves related states.
-/

namespace ArcOS.Fat

open Lib Lib.Transducer

/-- Two results are the same, and the states behind them related. -/
def Same {α : Type} (R : St → St → Prop) (x y : α × St) : Prop := x.1 = y.1 ∧ R x.2 y.2

/-- What a relation between the states of two layers survives. `A` says of a record at a place that
both runs have it. -/
structure Sim (L L' : Layer) (G G' : Event → Prop) (R : St → St → Prop) (A : Loc → FileData → Prop) :
    Prop where
  fd : ∀ {s t loc}, R s t → A loc (s.fat.fd loc) → s.fat.fd loc = t.fat.fd loc
  keep : ∀ {loc d d'}, A loc d → Keeps d d' → A loc d'
  deref : ∀ {s t p loc}, R s t → A p (s.fat.fd p) → s.fat.deref (some p) = .ok loc →
    A loc (s.fat.fd loc)
  volume : ∀ {s t}, R s t → SameVolume s.fat t.fat
  note : ∀ {s t} e e', R s t → R (s.note e) (t.note e')
  setFd : ∀ {s t loc d}, R s t → A loc (s.fat.fd loc) → Keeps (s.fat.fd loc) d →
    R (s.setFd loc d) (t.setFd loc d)
  sector : ∀ {s t} lba (buf : Sector), R s t →
    Same R (L.read (L.sectorLba lba) buf s) (L'.read (L'.sectorLba lba) buf t)
  next : ∀ {s t} cluster, R s t → Logged G s (nextCluster L cluster s).2 →
    Logged G' t (nextCluster L' cluster t).2 → Same R (nextCluster L cluster s) (nextCluster L' cluster t)
  openEntry : ∀ {s t} entry, R s t → Same R (openEntry L entry s) (openEntry L' entry t) ∧
    ∀ p, (openEntry L entry s).1 = some p → A p ((openEntry L entry s).2.fat.fd p)
  close : ∀ {s t p}, R s t → A p (s.fat.fd p) → Same R (close (some p) s) (close (some p) t)

/-- What both runs log meets the guards. -/
structure Guarded (G G' : Event → Prop) (s t s' t' : St) : Prop where
  left : Logged G s s'
  right : Logged G' t t'

lemma Guarded.split {G G' : Event → Prop} {s t s₁ t₁ s₂ t₂ : St} (h : Guarded G G' s t s₂ t₂)
    (hs : s.log <:+ s₁.log) (ht : t.log <:+ t₁.log) (hs' : s₁.log <:+ s₂.log)
    (ht' : t₁.log <:+ t₂.log) : Guarded G G' s t s₁ t₁ ∧ Guarded G G' s₁ t₁ s₂ t₂ :=
  ⟨⟨(h.left.split hs hs').1, (h.right.split ht ht').1⟩,
    ⟨(h.left.split hs hs').2, (h.right.split ht ht').2⟩⟩

variable {L L' : Layer} {G G' : Event → Prop} {R : St → St → Prop} {A : Loc → FileData → Prop}
  {loc : Loc} {s t : St}

/-! ### Reading -/

namespace Sim

theorem fillBuffer (h : Sim L L' G G' R A) (hR : R s t) (hA : A loc (s.fat.fd loc)) (lba : UInt32) :
    Same R (fillBuffer L loc lba s) (fillBuffer L' loc lba t) := by
  obtain ⟨he, hR'⟩ := h.sector lba (t.fat.fd loc).buffer hR
  have hset : R ((L.read (L.sectorLba lba) (t.fat.fd loc).buffer s).2.setFd loc
      { t.fat.fd loc with buffer := (L'.read (L'.sectorLba lba) (t.fat.fd loc).buffer t).1.2 })
      ((L'.read (L'.sectorLba lba) (t.fat.fd loc).buffer t).2.setFd loc
      { t.fat.fd loc with buffer := (L'.read (L'.sectorLba lba) (t.fat.fd loc).buffer t).1.2 }) := by
    apply h.setFd hR' hA
    rw [Layer.read_fat, h.fd hR hA]
    exact ⟨rfl, rfl, rfl, rfl, fun _ => ⟨rfl, rfl⟩⟩
  unfold Fat.fillBuffer
  dsimp only
  rw [h.fd hR hA, he]
  split
  · exact ⟨rfl, hset⟩
  · exact ⟨rfl, h.note _ _ hset⟩

theorem stepCursor (h : Sim L L' G G' R A) (hR : R s t) (hA : A loc (s.fat.fd loc))
    (hh : (s.fat.fd loc).pub.handle ≠ rootDirectoryHandle)
    (hg : Guarded G G' s t (stepCursor L loc s) (stepCursor L' loc t)) :
    R (stepCursor L loc s) (stepCursor L' loc t) := by
  have hfd := h.fd hR hA
  have hspc := (h.volume hR).sectorsPerCluster
  obtain ⟨hl, hr⟩ := hg
  unfold Fat.stepCursor at hl hr ⊢
  dsimp only at hl hr ⊢
  rw [hspc] at hr ⊢
  rw [hfd] at hl hh ⊢
  split
  · next hle =>
    rw [if_pos hle] at hl hr
    have hR₁ : R (s.setFd loc { t.fat.fd loc with currentSectorInCluster := 0 })
        (t.setFd loc { t.fat.fd loc with currentSectorInCluster := 0 }) :=
      h.setFd hR hA (by rw [hfd]; exact ⟨rfl, rfl, rfl, rfl, fun h => absurd h hh⟩)
    obtain ⟨hlink, hR₂⟩ := h.next (t.fat.fd loc).currentCluster hR₁ hl hr
    rw [hlink]
    refine h.setFd hR₂ ?_ ?_
    · rw [nextCluster_fd, St.setFd_fat, FatData.fd_setFd]
      exact h.keep hA (by rw [hfd]; exact ⟨rfl, rfl, rfl, rfl, fun h => absurd h hh⟩)
    · rw [nextCluster_fd, St.setFd_fat, FatData.fd_setFd]
      exact ⟨rfl, rfl, rfl, rfl, fun h => absurd h hh⟩
  · exact h.setFd hR hA (by rw [hfd]; exact ⟨rfl, rfl, rfl, rfl, fun h => absurd h hh⟩)

theorem lookAhead (h : Sim L L' G G' R A) (hR : R s t) (hA : A loc (s.fat.fd loc))
    (hg : Guarded G G' s t (lookAhead L loc s).2 (lookAhead L' loc t).2) :
    Same R (lookAhead L loc s) (lookAhead L' loc t) := by
  have hfd := h.fd hR hA
  unfold Fat.lookAhead at hg ⊢
  rw [← hfd] at hg ⊢
  split
  · have hk : Keeps (s.fat.fd loc) { s.fat.fd loc with
        currentCluster := (s.fat.fd loc).currentCluster + 1 } :=
      ⟨rfl, rfl, rfl, rfl, fun _ => ⟨rfl, rfl⟩⟩
    refine h.fillBuffer (h.setFd hR hA hk) ?_ _
    rw [St.setFd_fat, FatData.fd_setFd]
    exact h.keep hA hk
  · next hh =>
    rw [if_neg hh, if_neg hh] at hg
    have hgs := stepCursor_grows L loc s hh
    have hgt := stepCursor_grows L' loc t (hfd ▸ hh)
    have hA₁ : A loc ((Fat.stepCursor L loc s).fat.fd loc) :=
      h.keep hA ((keeps_stable L loc s).stepCursor trivial hh (.refl _))
    have hh₁ : ((Fat.stepCursor L loc s).fat.fd loc).pub.handle ≠ rootDirectoryHandle := by
      obtain ⟨c, k, hd⟩ := stepCursor_fd L loc s
      rwa [hd]
    generalize hs₁ : Fat.stepCursor L loc s = s₁ at *
    generalize ht₁ : Fat.stepCursor L' loc t = t₁ at *
    dsimp only at hg ⊢
    -- the step of the cursor comes first, whatever is done behind it
    have hsuf : ∀ (L : Layer) (u : St), u.log <:+ (if 0xFFFFFFF8 ≤ (u.fat.fd loc).currentCluster then
        (false, u.setFd loc { u.fat.fd loc with
          pub := { (u.fat.fd loc).pub with size := (u.fat.fd loc).pub.position } })
        else Fat.fillBuffer L loc (u.fat.clusterToLba (u.fat.fd loc).currentCluster +
          (u.fat.fd loc).currentSectorInCluster) u).2.log := by
      intro L u
      split
      · exact List.suffix_rfl
      · exact fillBuffer_grows L loc u _
    have hR₁ : R s₁ t₁ := by
      have := h.stepCursor hR hA hh (by
        rw [hs₁, ht₁]
        exact (hg.split hgs hgt (hsuf L s₁) (hsuf L' t₁)).1)
      rwa [hs₁, ht₁] at this
    have hfd₁ := h.fd hR₁ hA₁
    have hlba := (h.volume hR₁).clusterToLba
    rw [← hfd₁, hlba]
    split
    · exact ⟨rfl, h.setFd hR₁ hA₁ ⟨rfl, rfl, rfl, rfl, fun h => absurd h hh₁⟩⟩
    · exact h.fillBuffer hR₁ hA₁ _

theorem copyChunk (h : Sim L L' G G' R A) (hR : R s t) (hA : A loc (s.fat.fd loc)) (take : UInt32) :
    Same R (copyChunk loc take s) (copyChunk loc take t) := by
  have hfd := h.fd hR hA
  unfold Fat.copyChunk
  rw [← hfd]
  exact ⟨rfl, h.setFd (h.note _ _ hR) hA ⟨rfl, rfl, rfl, rfl, fun _ => ⟨rfl, rfl⟩⟩⟩

theorem readRound (h : Sim L L' G G' R A) (hR : R s t) (hA : A loc (s.fat.fd loc)) (n : UInt32)
    (hg : Guarded G G' s t (readRound L loc n s).state (readRound L' loc n t).state) :
    (readRound L loc n s).take = (readRound L' loc n t).take ∧
      (readRound L loc n s).chunk = (readRound L' loc n t).chunk ∧
      (readRound L loc n s).goesOn = (readRound L' loc n t).goesOn ∧
      R (readRound L loc n s).state (readRound L' loc n t).state := by
  have hfd := h.fd hR hA
  obtain ⟨hchunk, hR₁⟩ := h.copyChunk hR hA (takeCount n (s.fat.fd loc).pub.position)
  have hA₁ : A loc ((Fat.copyChunk loc (takeCount n (s.fat.fd loc).pub.position) s).2.fat.fd loc) :=
    h.keep hA ((keeps_stable L loc s).copyChunk trivial n (.refl _))
  have hgs := copyChunk_grows loc s n
  have hgt := copyChunk_grows loc t n
  rw [← hfd] at hgt
  unfold Fat.readRound at hg ⊢
  rw [← hfd] at hg ⊢
  dsimp only at hg ⊢
  refine ⟨rfl, hchunk, ?_⟩
  generalize Fat.copyChunk loc (takeCount n (s.fat.fd loc).pub.position) s = c at *
  generalize Fat.copyChunk loc (takeCount n (s.fat.fd loc).pub.position) t = c' at *
  split
  · next hfull =>
    rw [if_pos hfull, if_pos hfull] at hg
    exact h.lookAhead hR₁ hA₁ (hg.split hgs hgt (lookAhead_grows L loc c.2)
      (lookAhead_grows L' loc c'.2)).2
  · exact ⟨rfl, hR₁⟩

theorem readLoop (h : Sim L L' G G' R A) : ∀ (rounds : ℕ) (n : UInt32) (s t : St), R s t →
    A loc (s.fat.fd loc) →
    Guarded G G' s t (readLoop L loc rounds n s).2 (readLoop L' loc rounds n t).2 →
    Same R (readLoop L loc rounds n s) (readLoop L' loc rounds n t) := by
  intro rounds
  induction rounds with
  | zero => intro n s t hR _ _; exact ⟨rfl, hR⟩
  | succ rounds ih =>
    intro n s t hR hA hg
    by_cases hn : 0 < n
    · have hgs := readRound_grows L loc s n
      have hgt := readRound_grows L' loc t n
      have hA₁ : A loc ((Fat.readRound L loc n s).state.fat.fd loc) :=
        h.keep hA ((keeps_stable L loc s).readRound trivial n (.refl _))
      have hrec : ∀ (L : Layer) (u : St), (Fat.readRound L loc n u).state.log <:+
          (Fat.readLoop L loc (rounds + 1) n u).2.log := by
        intro L u
        rw [readLoop_succ hn]
        split
        · exact readLoop_grows L loc _ rounds _
        · dsimp only
          exact List.suffix_rfl
      obtain ⟨hg₁, hg₂⟩ := hg.split hgs hgt (hrec L s) (hrec L' t)
      obtain ⟨htake, hchunk, hgo, hR₁⟩ := h.readRound hR hA n hg₁
      rw [readLoop_succ hn, readLoop_succ hn] at hg₂ ⊢
      rw [← htake, ← hchunk, ← hgo] at hg₂ ⊢
      split
      · next hgoes =>
        rw [if_pos hgoes, if_pos hgoes] at hg₂
        obtain ⟨hres, hR₂⟩ := ih _ _ _ hR₁ hA₁ hg₂
        exact ⟨by rw [hres], hR₂⟩
      · refine ⟨rfl, ?_⟩
        dsimp only
        exact hR₁
    · rw [readLoop_done hn, readLoop_done hn]
      exact ⟨rfl, hR⟩

lemma deref_congr {f f' : FatData} {p : Loc} (h : f.fd p = f'.fd p) :
    f.deref (some p) = f'.deref (some p) := by
  simp only [FatData.deref, h]

theorem read (h : Sim L L' G G' R A) (hR : R s t) {file : Option Loc} (n : UInt32)
    (hA : ∀ p, file = some p → A p (s.fat.fd p))
    (hg : Guarded G G' s t (read L file n s).2 (read L' file n t).2) :
    Same R (read L file n s) (read L' file n t) := by
  have hderef : s.fat.deref file = t.fat.deref file := by
    cases file with
    | none => rfl
    | some p => exact deref_congr (h.fd hR (hA p rfl))
  unfold Fat.read at hg ⊢
  rw [← hderef] at hg ⊢
  cases hd : s.fat.deref file with
  | error e => exact ⟨rfl, hR⟩
  | ok loc =>
    have hloc : A loc (s.fat.fd loc) := by
      cases file with
      | none => cases hd
      | some p => exact h.deref hR (hA p rfl) hd
    rw [hd] at hg
    dsimp only at hg ⊢
    rw [← h.fd hR hloc] at hg ⊢
    exact h.readLoop _ _ s t hR hloc hg

theorem readEntry (h : Sim L L' G G' R A) (hR : R s t) {file : Option Loc}
    (hA : ∀ p, file = some p → A p (s.fat.fd p))
    (hg : Guarded G G' s t (readEntry L file s).2 (readEntry L' file t).2) :
    Same R (readEntry L file s) (readEntry L' file t) := by
  obtain ⟨hres, hR'⟩ := h.read hR 32 hA hg
  exact ⟨by simp only [Fat.readEntry, hres], hR'⟩

/-! ### Looking up a name -/

theorem findLoop (h : Sim L L' G G' R A) {file : Option Loc} (short : Bytes 12) :
    ∀ (rounds : ℕ) (s t : St), R s t → (∀ p, file = some p → A p (s.fat.fd p)) →
      Guarded G G' s t (findLoop L file short rounds s).2 (findLoop L' file short rounds t).2 →
      Same R (findLoop L file short rounds s) (findLoop L' file short rounds t) := by
  intro rounds
  induction rounds with
  | zero => intro s t hR _ _; exact ⟨rfl, hR⟩
  | succ rounds ih =>
    intro s t hR hA hg
    have hgs := readEntry_grows L file s
    have hgt := readEntry_grows L' file t
    have hA₁ : ∀ p, file = some p → A p ((Fat.readEntry L file s).2.fat.fd p) := fun p hp =>
      h.keep (hA p hp) ((keeps_stable L p s).readEntry (fun _ _ => trivial) (.refl _))
    have hrec : ∀ (L : Layer) (u : St), (Fat.readEntry L file u).2.log <:+
        (Fat.findLoop L file short (rounds + 1) u).2.log := by
      intro L u
      rw [Fat.findLoop]
      rcases Fat.readEntry L file u with ⟨e | _ | entry, v⟩
      · exact List.suffix_rfl
      · exact List.suffix_rfl
      · dsimp only
        split
        · exact List.suffix_rfl
        · exact findLoop_grows L file _ short rounds
    obtain ⟨hg₁, hg₂⟩ := hg.split hgs hgt (hrec L s) (hrec L' t)
    obtain ⟨hres, hR₁⟩ := h.readEntry hR hA hg₁
    rw [Fat.findLoop, Fat.findLoop] at hg₂ ⊢
    rcases hs : Fat.readEntry L file s with ⟨r, s₁⟩
    rcases ht : Fat.readEntry L' file t with ⟨r', t₁⟩
    rw [hs, ht] at hres hR₁ hg₂
    rw [hs] at hA₁
    obtain rfl : r = r' := hres
    rcases r with e | _ | entry
    · exact ⟨rfl, hR₁⟩
    · exact ⟨rfl, hR₁⟩
    · dsimp only at hg₂ ⊢
      split
      · exact ⟨rfl, hR₁⟩
      · next hm =>
        rw [if_neg hm, if_neg hm] at hg₂
        exact ih _ _ hR₁ hA₁ hg₂

end Sim

/-! ### The names a walk looks up -/

lemma strchr_cString (c : UInt8) (str : List UInt8) : strchr c (cString str) = strchr c str := by
  induction str with
  | nil => rfl
  | cons x str ih =>
    by_cases hx : x = 0
    · simp [cString, hx, strchr]
    · have : cString (x :: str) = x :: cString str := by simp [cString, hx]
      rw [this, strchr, strchr, ih]

lemma cString_take (str : List UInt8) : ∀ n, cString ((cString str).take n) = cString (str.take n) := by
  induction str with
  | nil => intro n; rfl
  | cons x str ih =>
    intro n
    by_cases hx : x = 0
    · cases n <;> simp [cString, hx]
    · have hcons : ∀ l, cString (x :: l) = x :: cString l := fun l => by simp [cString, hx]
      cases n with
      | zero => rfl
      | succ n => rw [hcons, List.take_succ_cons, List.take_succ_cons, hcons, hcons, ih]

lemma cString_drop {c : UInt8} {str : List UInt8} :
    ∀ {k}, strchr c str = some k → (cString str).drop (k + 1) = cString (str.drop (k + 1)) := by
  induction str with
  | nil => intro k h; cases h
  | cons x str ih =>
    intro k h
    rw [strchr] at h
    split at h
    · cases h
    next hx =>
    have hcons : cString (x :: str) = x :: cString str := by simp [cString, hx]
    rw [hcons, List.drop_succ_cons, List.drop_succ_cons]
    split at h
    · cases h
      rfl
    · obtain ⟨k', hk', rfl⟩ := Option.map_eq_some_iff.mp h
      exact ih hk'

theorem getShortName_cString (name : List UInt8) : getShortName (cString name) = getShortName name := by
  unfold getShortName
  rw [strchr_cString]
  cases hext : strchr 46 name with
  | none => simp only [Option.getD_none, cString_take, ne_eq, not_true_eq_false, if_false]
  | some ext =>
    have hdrop : cString (((cString name).drop (ext + 1)).take 3) =
        cString ((name.drop (ext + 1)).take 3) := by
      rw [cString_drop hext, cString_take]
    simp only [Option.getD_some, cString_take, hdrop]

/-- The names that `FAT_Open` looks up, from its local buffer, in up to `k` rounds. -/
def namesOf : ℕ → List UInt8 → NameBuffer → List (List UInt8)
  | 0, _, _ => []
  | k + 1, path, name =>
    if path = [] then [] else
      match component path name with
      | .error _ => []
      | .ok (name, rest, _) => cString (List.ofFn name) :: namesOf k rest name

/-- The names that `FAT_Open` looks up along a path, by what its local buffer holds at first. -/
def pathNames (path : List UInt8) (name : NameBuffer) : List (List UInt8) :=
  namesOf path.length (stripSlash path) name

lemma component_same (path : List UInt8) (name name' : NameBuffer) :
    (∃ e, component path name = .error e ∧ component path name' = .error e) ∨
      ∃ m m' rest isLast, component path name = .ok (m, rest, isLast) ∧
        component path name' = .ok (m', rest, isLast) := by
  unfold component
  split
  · split
    · exact .inr ⟨_, _, _, _, rfl, rfl⟩
    · exact .inl ⟨_, rfl, rfl⟩
  · split
    · exact .inr ⟨_, _, _, _, rfl, rfl⟩
    · exact .inl ⟨_, rfl, rfl⟩

/-- Two walks are at the same place, with the same names ahead in up to `k` rounds. -/
structure SameWalk (k : ℕ) (w w' : Walk) : Prop where
  path : w.path = w'.path
  current : w.current = w'.current
  length : w.path.length ≤ k
  names : namesOf k w.path w.name = namesOf k w'.path w'.name

/-! ### Opening a path -/

namespace Sim

variable {fuel k : ℕ} {w w' : Walk}

lemma lookup_suffix (L : Layer) (fuel : ℕ) (w : Walk) (s : St) {m : NameBuffer} {rest : List UInt8}
    {isLast : Bool} (hc : component w.path w.name = .ok (m, rest, isLast)) :
    (findFile L fuel w.current (List.ofFn m) s).2.log <:+ (Fat.lookup L fuel w s).2.log := by
  unfold Fat.lookup
  rw [hc]
  dsimp only
  rcases findFile L fuel w.current (List.ofFn m) s with ⟨e | found, s₁⟩
  · exact List.suffix_rfl
  · have hlog := close_log w.current s₁
    rcases hcl : Fat.close w.current s₁ with ⟨e | _, s₂⟩
    · rw [hcl] at hlog
      simp only [hcl]
      exact hlog ▸ List.suffix_rfl
    · rw [hcl] at hlog
      simp only [hcl]
      exact hlog ▸ List.suffix_rfl

/-- Two searches of the same short name come to the same. -/
theorem findFile (h : Sim L L' G G' R A) (hR : R s t) {name name' : List UInt8}
    (hshort : getShortName name = getShortName name') {file : Option Loc}
    (hA : ∀ p, file = some p → A p (s.fat.fd p))
    (hg : Guarded G G' s t (Fat.findFile L fuel file name s).2 (Fat.findFile L' fuel file name' t).2) :
    Same R (Fat.findFile L fuel file name s) (Fat.findFile L' fuel file name' t) := by
  obtain ⟨-, hg₁⟩ := hg.split
    (show s.log <:+ (s.note (.findFile s.fat file name)).log from List.suffix_cons _ _)
    (show t.log <:+ (t.note (.findFile t.fat file name')).log from List.suffix_cons _ _)
    (findLoop_grows L file _ _ fuel) (findLoop_grows L' file _ _ fuel)
  unfold Fat.findFile at hg₁ ⊢
  rw [← hshort] at hg₁ ⊢
  exact h.findLoop _ fuel _ _ (h.note _ _ hR) hA hg₁

theorem lookup (h : Sim L L' G G' R A) (hR : R s t) (hw : SameWalk (k + 1) w w') (hp : w.path ≠ [])
    (hA : ∀ p, w.current = some p → A p (s.fat.fd p))
    (hg : Guarded G G' s t (lookup L fuel w s).2 (lookup L' fuel w' t).2) :
    R (lookup L fuel w s).2 (lookup L' fuel w' t).2 ∧
      ((∃ e, (lookup L fuel w s).1 = .error e ∧ (lookup L' fuel w' t).1 = .error e) ∨
        ∃ name name' rest found, (lookup L fuel w s).1 = .ok (name, rest, found) ∧
          (lookup L' fuel w' t).1 = .ok (name', rest, found) ∧ rest.length ≤ k ∧
          namesOf k rest name = namesOf k rest name') := by
  have hp' : w'.path ≠ [] := hw.path ▸ hp
  have hnames := hw.names
  rcases component_same w.path w.name w'.name with ⟨e, hc, hc'⟩ | ⟨m, m', rest, isLast, hc, hc'⟩
  · rw [hw.path] at hc'
    simp only [Fat.lookup, hc, hc']
    exact ⟨hR, .inl ⟨e, rfl, rfl⟩⟩
  rw [hw.path] at hc'
  have hlen := component_rest hp hc
  simp only [namesOf, hp, hp', if_false, hc, hc', List.cons.injEq] at hnames
  have hshort : getShortName (List.ofFn m) = getShortName (List.ofFn m') := by
    rw [← getShortName_cString, hnames.1, getShortName_cString]
  have hgs := findFile_grows L w.current s fuel (List.ofFn m)
  have hgt := findFile_grows L' w'.current t fuel (List.ofFn m')
  obtain ⟨hg₁, -⟩ := hg.split hgs hgt (lookup_suffix L fuel w s hc) (lookup_suffix L' fuel w' t hc')
  have hA₁ : ∀ p, w.current = some p →
      A p ((Fat.findFile L fuel w.current (List.ofFn m) s).2.fat.fd p) := fun p hcur =>
    h.keep (hA p hcur) ((keeps_stable L p s).findFile (fun _ _ _ _ => trivial) fuel _ (.refl _))
  unfold Fat.lookup
  rw [hc, hc']
  dsimp only
  rw [← hw.current] at hg₁ ⊢
  obtain ⟨hres, hR₁⟩ := h.findFile hR hshort hA hg₁
  rcases hs : Fat.findFile L fuel w.current (List.ofFn m) s with ⟨r, s₁⟩
  rcases ht : Fat.findFile L' fuel w.current (List.ofFn m') t with ⟨r', t₁⟩
  rw [hs, ht] at hres hR₁
  rw [hs] at hA₁
  obtain rfl : r = r' := hres
  rcases r with e | found
  · exact ⟨hR₁, .inl ⟨e, rfl, rfl⟩⟩
  · dsimp only
    have hclose : Same R (Fat.close w.current s₁) (Fat.close w.current t₁) := by
      cases hcur : w.current with
      | none => exact ⟨rfl, hR₁⟩
      | some p => exact h.close hR₁ (hA₁ p hcur)
    obtain ⟨hres, hR₂⟩ := hclose
    rcases hcs : Fat.close w.current s₁ with ⟨x, s₂⟩
    rcases hct : Fat.close w.current t₁ with ⟨x', t₂⟩
    rw [hcs, hct] at hres hR₂
    obtain rfl : x = x' := hres
    rcases x with e | _
    · exact ⟨hR₂, .inl ⟨e, rfl, rfl⟩⟩
    · exact ⟨hR₂, .inr ⟨m, m', rest, found, rfl, rfl, by have := hw.length; omega, hnames.2⟩⟩

lemma openStep_suffix (L : Layer) (fuel : ℕ) (w : Walk) (s : St) (hp : w.path ≠ []) :
    (Fat.lookup L fuel w s).2.log <:+ (openStep L fuel w s).2.log := by
  rw [openStep_eq, if_neg hp]
  rcases Fat.lookup L fuel w s with ⟨e | ⟨name, rest, _ | entry⟩, t⟩
  · exact List.suffix_rfl
  · exact List.suffix_cons _ _
  · exact ((logged_stable L t).openEntry entry (.refl t)).suffix

theorem openStep (h : Sim L L' G G' R A) (hR : R s t) (hw : SameWalk (k + 1) w w')
    (hA : ∀ p, w.current = some p → A p (s.fat.fd p))
    (hg : Guarded G G' s t (openStep L fuel w s).2 (openStep L' fuel w' t).2) :
    R (openStep L fuel w s).2 (openStep L' fuel w' t).2 ∧
      ((∃ e, (openStep L fuel w s).1 = .error e ∧ (openStep L' fuel w' t).1 = .error e) ∨
        (∃ file, (openStep L fuel w s).1 = .ok (.inr file) ∧
          (openStep L' fuel w' t).1 = .ok (.inr file) ∧
          ∀ p, file = some p → A p ((openStep L fuel w s).2.fat.fd p)) ∨
        ∃ v v', (openStep L fuel w s).1 = .ok (.inl v) ∧ (openStep L' fuel w' t).1 = .ok (.inl v') ∧
          SameWalk k v v' ∧ ∀ p, v.current = some p → A p ((openStep L fuel w s).2.fat.fd p)) := by
  by_cases hp : w.path = []
  · have hp' : w'.path = [] := hw.path ▸ hp
    rw [openStep_eq, openStep_eq, if_pos hp, if_pos hp']
    exact ⟨hR, .inr (.inl ⟨w.current, rfl, by rw [hw.current], hA⟩)⟩
  have hp' : w'.path ≠ [] := hw.path ▸ hp
  have hgrow : ∀ (L : Layer) (v : Walk) (u : St), u.log <:+ (Fat.lookup L fuel v u).2.log := by
    intro L v u
    unfold Fat.lookup
    rcases component v.path v.name with e | ⟨m, rest, isLast⟩
    · exact List.suffix_rfl
    · dsimp only
      have hf := findFile_grows L v.current u fuel (List.ofFn m)
      rcases hs : Fat.findFile L fuel v.current (List.ofFn m) u with ⟨e | found, u₁⟩
      · rw [hs] at hf
        exact hf
      · rw [hs] at hf
        have hlog := close_log v.current u₁
        rcases hcl : Fat.close v.current u₁ with ⟨e | _, u₂⟩
        · rw [hcl] at hlog
          simp only [hcl]
          exact hlog ▸ hf
        · rw [hcl] at hlog
          simp only [hcl]
          exact hlog ▸ hf
  obtain ⟨hg₁, -⟩ := hg.split (hgrow L w s) (hgrow L' w' t) (openStep_suffix L fuel w s hp)
    (openStep_suffix L' fuel w' t hp')
  obtain ⟨hR₁, hres⟩ := h.lookup hR hw hp hA hg₁
  rw [openStep_eq, openStep_eq, if_neg hp, if_neg hp']
  rcases hs : Fat.lookup L fuel w s with ⟨r, s₁⟩
  rcases ht : Fat.lookup L' fuel w' t with ⟨r', t₁⟩
  rw [hs, ht] at hR₁ hres
  rcases hres with ⟨e, he, he'⟩ | ⟨name, name', rest, found, hok, hok', hlen, hnames⟩
  · dsimp only at he he'
    subst he he'
    exact ⟨hR₁, .inl ⟨e, rfl, rfl⟩⟩
  · dsimp only at hok hok'
    subst hok hok'
    rcases found with _ | entry
    · exact ⟨h.note _ _ hR₁, .inr (.inl ⟨none, rfl, rfl, fun p hp => by cases hp⟩)⟩
    · obtain ⟨⟨hfile, hR₂⟩, hA₂⟩ := h.openEntry entry hR₁
      exact ⟨hR₂, .inr (.inr ⟨_, _, rfl, rfl, ⟨rfl, hfile, hlen, hnames⟩, hA₂⟩)⟩

theorem openLoop (h : Sim L L' G G' R A) : ∀ (rounds k : ℕ) (w w' : Walk) (s t : St), R s t →
    SameWalk k w w' → (∀ p, w.current = some p → A p (s.fat.fd p)) →
    Guarded G G' s t (openLoop L fuel rounds w s).2 (openLoop L' fuel rounds w' t).2 →
    Same R (openLoop L fuel rounds w s) (openLoop L' fuel rounds w' t) ∧
      ∀ p, (openLoop L fuel rounds w s).1 = .ok (some p) →
        A p ((openLoop L fuel rounds w s).2.fat.fd p) := by
  intro rounds
  induction rounds with
  | zero => intro k w w' s t hR _ _ _; exact ⟨⟨rfl, hR⟩, fun p hp => by cases hp⟩
  | succ rounds ih =>
    intro k w w' s t hR hw hA hg
    obtain ⟨k, hw₁⟩ : ∃ k, SameWalk (k + 1) w w' := by
      cases k with
      | zero =>
        have hp : w.path = [] := List.length_eq_zero_iff.mp (Nat.le_zero.mp hw.length)
        have hp' : w'.path = [] := hw.path ▸ hp
        exact ⟨0, hw.path, hw.current, by rw [hp]; exact Nat.zero_le _, by simp [namesOf, hp, hp']⟩
      | succ k => exact ⟨k, hw⟩
    obtain ⟨hg₁, hg₂⟩ := hg.split (openStep_grows L s fuel w) (openStep_grows L' t fuel w')
      (openLoop_suffix L fuel rounds w s) (openLoop_suffix L' fuel rounds w' t)
    obtain ⟨hR₁, hres⟩ := h.openStep hR hw₁ hA hg₁
    rw [Fat.openLoop, Fat.openLoop] at hg₂ ⊢
    rcases hs : Fat.openStep L fuel w s with ⟨r, s₁⟩
    rcases ht : Fat.openStep L' fuel w' t with ⟨r', t₁⟩
    rw [hs, ht] at hR₁ hres hg₂
    rcases hres with ⟨e, he, he'⟩ | ⟨file, hf, hf', hA₁⟩ | ⟨v, v', hv, hv', hsame, hA₁⟩
    · dsimp only at he he'
      subst he he'
      exact ⟨⟨rfl, hR₁⟩, fun p hp => by cases hp⟩
    · dsimp only at hf hf'
      subst hf hf'
      exact ⟨⟨rfl, hR₁⟩, fun p hp => hA₁ p (by cases hp; rfl)⟩
    · dsimp only at hv hv'
      subst hv hv'
      exact ih k v v' s₁ t₁ hR₁ hsame hA₁ hg₂

/-- **Two calls of `FAT_Open` that look up the same names come to the same.** -/
theorem openPath (h : Sim L L' G G' R A) (hR : R s t) (hroot : ∀ d, A .root d) {path : List UInt8}
    {name name' : NameBuffer} (hnames : pathNames path name = pathNames path name')
    (hg : Guarded G G' s t (openPath L fuel path name s).2 (openPath L' fuel path name' t).2) :
    Same R (openPath L fuel path name s) (openPath L' fuel path name' t) ∧
      ∀ p, (openPath L fuel path name s).1 = .ok (some p) →
        A p ((openPath L fuel path name s).2.fat.fd p) :=
  h.openLoop _ path.length _ _ s t hR
    ⟨rfl, rfl, Nat.lt_succ_iff.mp (stripSlash_length path), hnames⟩
    (fun p hp => by cases hp; exact hroot _) hg

end Sim

/-! ### The log -/

/-- The states are the same, but for what is logged. -/
def Common (s t : St) : Prop := s.fat = t.fat ∧ s.clock = t.clock

lemma openEntry_common (entry : DirectoryEntry) (h : Common s t)
    (hread : ∀ i, firstSector L' entry i t = firstSector L entry i s) :
    Same Common (openEntry L entry s) (openEntry L' entry t) := by
  obtain ⟨f, c, l⟩ := s
  obtain ⟨f', c', l'⟩ := t
  obtain ⟨rfl, rfl⟩ := h
  cases hfree : f.freeSlot with
  | none =>
    rw [openEntry_full hfree, openEntry_full hfree]
    exact ⟨rfl, rfl, rfl⟩
  | some i =>
    obtain ⟨h1, hf, hc⟩ := openEntry_free (L := L) entry (s := ⟨f, c, l⟩) hfree
    obtain ⟨h1', hf', hc'⟩ := openEntry_free (L := L') entry (s := ⟨f, c, l'⟩) hfree
    refine ⟨by rw [h1, h1', hread], ?_, by rw [hc, hc']⟩
    rw [hf, hf']
    simp only [openedRecord, hread]

lemma close_common {p : Loc} (h : Common s t) : Same Common (close (some p) s) (close (some p) t) := by
  obtain ⟨f, c, l⟩ := s
  obtain ⟨f', c', l'⟩ := t
  obtain ⟨rfl, rfl⟩ := h
  simp only [close]
  rcases f.deref (some p) with e | _ | i <;> exact ⟨rfl, rfl, rfl⟩

theorem log_sim (L : Layer) : Sim L L (fun _ => True) (fun _ => True) Common fun _ _ => True where
  fd h _ := by rw [h.1]
  keep _ _ := trivial
  deref _ _ _ := trivial
  volume h := h.1 ▸ .refl _
  note _ _ h := h
  setFd {s t loc d} h _ _ := ⟨congrArg (fun f => f.setFd loc d) h.1, h.2⟩
  sector {s t} lba buf h := ⟨by simp only [Layer.read, h.2], h.1, congrArg (· + 1) h.2⟩
  next {s t} cluster h _ _ := by
    obtain ⟨f, c, l⟩ := s
    obtain ⟨f', c', l'⟩ := t
    obtain ⟨rfl, rfl⟩ := h
    unfold nextCluster
    dsimp only [St.note_fat]
    cases hm : f.misses (fatIndex f.fatType cluster / 512) with
    | false => rw [refill_hit hm, refill_hit hm]; exact ⟨rfl, rfl, rfl⟩
    | true => rw [refill_miss hm, refill_miss hm]; exact ⟨rfl, rfl, rfl⟩
  openEntry {s t} entry h :=
    ⟨openEntry_common entry h fun i => by simp only [firstSector, h.1, h.2], fun _ _ => trivial⟩
  close h _ := close_common h

theorem findFile_eq (L : Layer) (fuel : ℕ) (file : Option Loc) (name : List UInt8) (s : St) :
    (findFile L fuel file name s).1 = (findLoop L file (getShortName name) fuel s).1 := by
  have hall : ∀ u, Logged (fun _ => True) u (findLoop L file (getShortName name) fuel u).2 := fun u => by
    obtain ⟨new, hnew⟩ := findLoop_grows L file u (getShortName name) fuel
    exact ⟨new, hnew.symm, fun _ _ => trivial⟩
  exact ((log_sim L).findLoop _ fuel (s.note (.findFile s.fat file name)) s ⟨rfl, rfl⟩ (fun _ _ => trivial)
    ⟨hall _, hall _⟩).1

end ArcOS.Fat
