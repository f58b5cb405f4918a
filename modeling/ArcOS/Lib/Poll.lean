import Mathlib.Data.List.Basic

/-!
Polling a device that goes on by itself.

Between two accesses of the processor the device takes any number of steps of its own, as a schedule has
them. A condition that is reached by one kind of step, and that no step undoes, is seen by a loop that waits
for it, as long as the schedule does not put off that kind of step for longer than the loop has rounds
(`await_ends`).
-/

namespace Lib.Poll

variable {σ ι : Type*}

/-- A device, and the number of accesses so far. -/
structure Timed (σ : Type*) where
  device : σ
  clock : ℕ

section Device

variable (own : ι → σ → σ) (schedule : ℕ → List ι)

/-- The device takes the steps it has in front of the next access. -/
def settle (s : Timed σ) : Timed σ :=
  ⟨(schedule s.clock).foldl (fun k i => own i k) s.device, s.clock + 1⟩

/-- An access that changes the device. -/
def access (f : σ → σ) (s : Timed σ) : Timed σ :=
  let s := settle own schedule s
  { s with device := f s.device }

/-- The loop that waits for a condition, with the rounds it is given -/
def await (ready : σ → Bool) : ℕ → Timed σ → Option (Timed σ)
  | 0, _ => none
  | rounds + 1, s =>
    let s := settle own schedule s
    if ready s.device then some s else await ready rounds s

/-- A kind of step is not put off for longer than `bound` accesses. -/
def Fair (i : ι) (bound : ℕ) : Prop := ∀ n, ∃ m, n ≤ m ∧ m < n + bound ∧ i ∈ schedule m

variable {own schedule}

/-- What every step of the device keeps. -/
def Kept (own : ι → σ → σ) (I : σ → Prop) : Prop := ∀ k i, I k → I (own i k)

lemma Kept.foldl {I : σ → Prop} (h : Kept own I) : ∀ (is : List ι) {k : σ}, I k →
    I (is.foldl (fun k i => own i k) k) := by
  intro is
  induction is with
  | nil => exact fun hk => hk
  | cons i is ih => exact fun hk => ih (h _ i hk)

variable (schedule) in
lemma Kept.settle {I : σ → Prop} (h : Kept own I) {s : Timed σ} (hs : I s.device) :
    I (settle own schedule s).device := h.foldl _ hs

lemma Kept.and {I J : σ → Prop} (h : Kept own I) (h' : ∀ k i, I k → J k → J (own i k)) :
    Kept own fun k => I k ∧ J k :=
  fun k i hk => ⟨h k i hk.1, h' k i hk.1 hk.2⟩

/-- The condition holds once its step has been taken. -/
lemma ready_of_mem {I J : σ → Prop} (h : Kept own I) (hstay : ∀ k i, I k → J k → J (own i k)) {serve : ι}
    (hserve : ∀ k, I k → J (own serve k)) : ∀ (is : List ι) {k : σ}, serve ∈ is → I k →
      J (is.foldl (fun k i => own i k) k) := by
  intro is
  induction is with
  | nil => exact fun hmem _ => absurd hmem List.not_mem_nil
  | cons i is ih =>
    intro k hmem hk
    rcases List.mem_cons.mp hmem with rfl | hmem
    · exact ((h.and hstay).foldl is ⟨h _ _ hk, hserve k hk⟩).2
    · exact ih hmem (h _ i hk)

/-- **The rule of polling.** -/
theorem await_ends {I : σ → Prop} (h : Kept own I) {ready : σ → Bool}
    (hstay : ∀ k i, I k → ready k = true → ready (own i k) = true) {serve : ι}
    (hserve : ∀ k, I k → ready (own serve k) = true) {rounds : ℕ} (hfair : Fair schedule serve rounds)
    {s : Timed σ} (hs : I s.device) :
    ∃ s', await own schedule ready rounds s = some s' ∧ I s'.device ∧ ready s'.device = true := by
  obtain ⟨m, hle, hlt, hmem⟩ := hfair s.clock
  clear hfair
  induction rounds generalizing s with
  | zero => omega
  | succ rounds ih =>
    have hnext : I (settle own schedule s).device := h.settle schedule hs
    rw [await]
    by_cases hready : ready (settle own schedule s).device = true
    · exact ⟨_, if_pos hready, hnext, hready⟩
    · have hne : s.clock ≠ m := by
        rintro rfl
        exact hready (ready_of_mem h hstay hserve _ hmem hs)
      have hclock : (settle own schedule s).clock = s.clock + 1 := rfl
      simp only [hready]
      exact ih hnext (by omega) (by omega)

end Device

end Lib.Poll
