import Mathlib.Data.List.Basic
import Mathlib.Data.Nat.Find

/-!
Searching through a source that hands out its items one a call.

A call gives an item, no item when there are no more, or an error. What a source hands out is stated
as the sequence of its answers (`Streams`), or as a list (`Delivers`). A search with a bound on its
calls then finds what the sequence says: `search_answer` where it ends, `search_list` on a list, and
`search_ends_iff` when any bound is enough.
-/

namespace Lib.Search

variable {σ ε α : Type*}

/-- The state after a number of calls. -/
def after (next : σ → Except ε (Option α) × σ) : ℕ → σ → σ
  | 0, s => s
  | k + 1, s => after next k (next s).2

/-- The answers of the source, up to the first that is no item. -/
def Streams (next : σ → Except ε (Option α) × σ) (a : ℕ → Option α) (s : σ) : Prop :=
  ∀ k, (∀ j < k, (a j).isSome) → (next (after next k s)).1 = .ok (a k)

/-- The source hands out exactly the items of a list, in their order, and then says that there are
no more. -/
def Delivers (next : σ → Except ε (Option α) × σ) (l : List α) (s : σ) : Prop :=
  Streams next (fun k => l[k]?) s

/-- The first item that is looked for. The search stops with an error when its calls are used up. -/
def search (next : σ → Except ε (Option α) × σ) (p : α → Bool) (stop : ε) :
    ℕ → σ → Except ε (Option α) × σ
  | 0, s => (.error stop, s)
  | calls + 1, s =>
    match next s with
    | (.error e, s) => (.error e, s)
    | (.ok none, s) => (.ok none, s)
    | (.ok (some x), s) => if p x then (.ok (some x), s) else search next p stop calls s

variable {next : σ → Except ε (Option α) × σ} {a b : ℕ → Option α} {s : σ} {p : α → Bool} {stop : ε}
  {calls : ℕ} {l : List α}

lemma after_succ (k : ℕ) (s : σ) : after next (k + 1) s = (next (after next k s)).2 := by
  induction k generalizing s with
  | zero => rfl
  | succ k ih => exact ih _

/-! ### Sequences of answers -/

lemma Streams.head (h : Streams next a s) : (next s).1 = .ok (a 0) := h 0 (by simp)

lemma Streams.tail (h : Streams next a s) (h0 : (a 0).isSome) :
    Streams next (fun k => a (k + 1)) (next s).2 := fun k hk => by
  apply h (k + 1)
  intro j hj
  cases j with
  | zero => exact h0
  | succ j => exact hk j (by omega)

/-- **The invariant rule.** -/
theorem streams_of_inv {I : ℕ → σ → Prop}
    (hstep : ∀ k s, I k s → (next s).1 = .ok (a k) ∧ ((a k).isSome → I (k + 1) (next s).2))
    (h0 : I 0 s) : Streams next a s := by
  have hinv : ∀ k, (∀ j < k, (a j).isSome) → I k (after next k s) := by
    intro k
    induction k with
    | zero => exact fun _ => h0
    | succ k ih =>
      intro hsome
      rw [after_succ]
      exact (hstep k _ (ih fun j hj => hsome j (by omega))).2 (hsome k (by omega))
  exact fun k hk => (hstep k _ (hinv k hk)).1

/-- Two sequences of the same source are the same up to the first answer that is no item. -/
lemma Streams.unique (h : Streams next a s) (h' : Streams next b s) {k : ℕ}
    (hk : ∀ j < k, (a j).isSome) : a k = b k := by
  induction k using Nat.strongRecOn with
  | ind k ih =>
    have hb : ∀ j < k, (b j).isSome := fun j hj => by
      rw [← ih j hj fun i hi => hk i (by omega)]
      exact hk j hj
    have hsame := (h k hk).symm.trans (h' k hb)
    exact Except.ok.inj hsame

lemma Delivers.last (h : Delivers next l s) : (next (after next l.length s)).1 = .ok none := by
  have hlast := h l.length fun j hj => by simp [hj]
  simpa using hlast

/-- A source hands out exactly a list if its answers are those items and then none. -/
theorem Streams.delivers_iff (h : Streams next a s) :
    Delivers next l s ↔ ∀ k ≤ l.length, a k = l[k]? := by
  have hitems : ∀ k ≤ l.length, ∀ j < k, (l[j]?).isSome := fun k hk j hj => by
    rw [List.getElem?_eq_getElem (by omega)]
    rfl
  constructor
  · intro hl k hk
    exact (hl.unique h (hitems k hk)).symm
  · intro hl k hk
    have hlen : k ≤ l.length := by
      by_contra hlt
      have := hk l.length (by omega)
      simp at this
    have hsome : ∀ j < k, (a j).isSome := fun j hj => by
      rw [hl j (by omega)]
      exact hk j hj
    rw [h k hsome, hl k hlen]

/-! ### What a search finds -/

/-- The search goes on after each of the first `k` answers. -/
def Passes (p : α → Bool) (a : ℕ → Option α) (k : ℕ) : Prop := ∀ j < k, ∃ x, a j = some x ∧ p x = false

lemma Passes.tail {k : ℕ} (h : Passes p a (k + 1)) : Passes p (fun k => a (k + 1)) k :=
  fun j hj => h (j + 1) (by omega)

lemma search_passes (h : Streams next a s) {x : α} (h0 : a 0 = some x) (hx : p x = false) :
    search next p stop (calls + 1) s = search next p stop calls (next s).2 := by
  have hnext := h.head
  rw [h0] at hnext
  rw [search]
  rcases hs : next s with ⟨r, s'⟩
  rw [hs] at hnext
  obtain rfl : r = .ok (some x) := hnext
  simp [hx]

/-- **The answer a search ends with**: the first one that is no item, or an item looked for. -/
theorem search_answer {k : ℕ} (h : Streams next a s) (hpass : Passes p a k)
    (hk : ∀ x, a k = some x → p x = true) (hcalls : k < calls) :
    (search next p stop calls s).1 = .ok (a k) := by
  induction k generalizing a s calls with
  | zero =>
    obtain ⟨calls, rfl⟩ := Nat.exists_eq_add_of_lt hcalls
    have hnext := h.head
    rw [Nat.zero_add, search]
    rcases hs : next s with ⟨r, s'⟩
    rw [hs] at hnext
    obtain rfl : r = .ok (a 0) := hnext
    cases h0 : a 0 with
    | none => rfl
    | some x => simp [hk x h0]
  | succ k ih =>
    obtain ⟨x, h0, hx⟩ := hpass 0 (by omega)
    obtain ⟨calls, rfl⟩ := Nat.exists_eq_add_of_lt (Nat.zero_lt_of_lt hcalls)
    rw [Nat.zero_add, search_passes h h0 hx]
    exact ih (h.tail (by rw [h0]; rfl)) hpass.tail hk (by omega)

theorem search_runs (h : Streams next a s) (hpass : Passes p a calls) :
    (search next p stop calls s).1 = .error stop := by
  induction calls generalizing a s with
  | zero => rfl
  | succ calls ih =>
    obtain ⟨x, h0, hx⟩ := hpass 0 (by omega)
    rw [search_passes h h0 hx]
    exact ih (h.tail (by rw [h0]; rfl)) hpass.tail

/-- **A search ends exactly if some answer is no item or an item looked for.** -/
theorem search_ends_iff (h : Streams next a s) :
    (∃ calls, (search next p stop calls s).1 ≠ .error stop) ↔ ∃ k, ∀ x, a k = some x → p x = true := by
  constructor
  · rintro ⟨calls, hends⟩
    by_contra hnone
    push Not at hnone
    refine hends (search_runs h fun j _ => ?_)
    obtain ⟨x, hx, hp⟩ := hnone j
    exact ⟨x, hx, by simpa using hp⟩
  · intro hex
    classical
    refine ⟨Nat.find hex + 1, ?_⟩
    rw [search_answer h (fun j hj => ?_) (Nat.find_spec hex) (Nat.lt_succ_self _)]
    · simp
    · have hj' := Nat.find_min hex hj
      push Not at hj'
      obtain ⟨x, hx, hp⟩ := hj'
      exact ⟨x, hx, by simpa using hp⟩

/-- **On a list a search finds the first item that is looked for.** -/
theorem search_list (h : Delivers next l s) (hcalls : l.length < calls) :
    (search next p stop calls s).1 = .ok (l.find? p) := by
  induction l generalizing s calls with
  | nil => exact search_answer (k := 0) h (fun _ hj => absurd hj (Nat.not_lt_zero _)) (by simp) hcalls
  | cons x l ih =>
    cases hx : p x with
    | true =>
      rw [List.find?_cons_of_pos hx]
      exact search_answer (k := 0) h (fun _ hj => absurd hj (Nat.not_lt_zero _))
        (fun y hy => by cases hy; exact hx) (by omega)
    | false =>
      obtain ⟨calls, rfl⟩ := Nat.exists_eq_add_of_lt (Nat.zero_lt_of_lt hcalls)
      rw [List.find?_cons_of_neg (by simp [hx]), Nat.zero_add, search_passes h rfl hx]
      apply ih (h.tail rfl)
      simp only [List.length_cons] at hcalls
      omega

theorem search_measure {P : σ → Prop} (μ : σ → ℕ) (hstep : ∀ s, P s → ∃ r, (next s).1 = .ok r ∧
      (r.isSome → P (next s).2 ∧ μ (next s).2 < μ s)) (calls : ℕ) (s : σ) (hs : P s) (hμ : μ s < calls) :
    ∃ r, (search next p stop calls s).1 = .ok r := by
  induction calls generalizing s with
  | zero => omega
  | succ calls ih =>
    obtain ⟨r, hr, hsmaller⟩ := hstep s hs
    rw [search]
    rcases hn : next s with ⟨r', s'⟩
    rw [hn] at hr hsmaller
    obtain rfl : r' = .ok r := hr
    cases r with
    | none => exact ⟨none, rfl⟩
    | some x =>
      obtain ⟨hs', hlt⟩ := hsmaller rfl
      dsimp only
      split
      · exact ⟨some x, rfl⟩
      · exact ih s' hs' (by dsimp only at hlt; omega)

/-! ### Sources that stand somewhere in a list -/

/-- `I k` says that the source stands in front of item `k` of a list: a call gives that item, and leads in
front of the next one, up to the end. -/
def Traverses (next : σ → Except ε (Option α) × σ) (l : List α) (I : ℕ → σ → Prop) : Prop :=
  ∀ k s, k ≤ l.length → I k s → (next s).1 = .ok l[k]? ∧ I (min (k + 1) l.length) (next s).2

section Traverses

variable {I : ℕ → σ → Prop}

lemma Traverses.delivers (hc : Traverses next l I) (h : I 0 s) : Delivers next l s := by
  refine streams_of_inv (I := fun k s => k ≤ l.length ∧ I k s) (fun k s hk => ?_) ⟨Nat.zero_le _, h⟩
  obtain ⟨hres, hnext⟩ := hc k s hk.1 hk.2
  refine ⟨hres, fun hsome => ?_⟩
  have hlt : k < l.length := by
    by_contra hge
    rw [List.getElem?_eq_none (by omega)] at hsome
    cases hsome
  rw [Nat.min_eq_left hlt] at hnext
  exact ⟨hlt, hnext⟩

/-- **Where a search leaves the source**: behind the item it found, or at the end. -/
theorem Traverses.search (hc : Traverses next l I) : ∀ (calls k : ℕ) (s : σ) {r : Option α} {t : σ}, k ≤ l.length →
    I k s → search next p stop calls s = (.ok r, t) →
    r = (l.drop k).find? p ∧ I (min (k + (l.drop k).findIdx p + 1) l.length) t := by
  intro calls
  induction calls with
  | zero => intro k s r t _ _ h; cases h
  | succ calls ih =>
    intro k s r t hk hI h
    obtain ⟨hres, hnext⟩ := hc k s hk hI
    rw [Search.search] at h
    rcases hn : next s with ⟨r', s'⟩
    rw [hn] at hres hnext h
    dsimp only at hres hnext
    subst hres
    rcases Nat.eq_or_lt_of_le hk with rfl | hlt
    · rw [List.getElem?_eq_none le_rfl] at h
      cases h
      simpa using hnext
    · rw [List.getElem?_eq_getElem hlt] at h
      rw [Nat.min_eq_left hlt] at hnext
      rw [List.drop_eq_getElem_cons hlt]
      dsimp only at h
      split at h
      · next hp =>
        cases h
        rw [List.find?_cons_of_pos hp, List.findIdx_cons, hp, cond_true, Nat.add_zero,
          Nat.min_eq_left hlt]
        exact ⟨rfl, hnext⟩
      · next hp =>
        obtain ⟨hfound, hat⟩ := ih (k + 1) s' hlt hnext h
        rw [List.find?_cons_of_neg hp, List.findIdx_cons, Bool.eq_false_iff.mpr hp]
        refine ⟨hfound, ?_⟩
        rwa [show k + 1 + (l.drop (k + 1)).findIdx p + 1 = k + ((l.drop (k + 1)).findIdx p + 1) + 1 by omega] at hat

end Traverses

end Lib.Search
