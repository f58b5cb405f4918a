import Mathlib.Data.Option.Basic
import Mathlib.Order.Lattice

/-!
Computations with a bound on their steps.

A loop or a recursion that need not come to an end is a function of the number of steps it may make,
with no result when they are used up. `Ends f P` says that it does come to an end, and with what: from
some number of steps on the result is always the same one, and has `P`. The rules follow the shape of
a program: `done`, `bind`, `of_succ` for one more step.
-/

namespace Lib

variable {β γ : Type*} {f : ℕ → Option β} {P Q : β → Prop}

/-- The computation comes to an end, with a result that has `P`. -/
def Ends (f : ℕ → Option β) (P : β → Prop) : Prop :=
  ∃ r, P r ∧ ∃ n, ∀ fuel, n ≤ fuel → f fuel = some r

namespace Ends

theorem done {r : β} (h : P r) : Ends (fun _ => some r) P := ⟨r, h, 0, fun _ _ => rfl⟩

theorem imp (h : Ends f P) (hPQ : ∀ r, P r → Q r) : Ends f Q := by
  obtain ⟨r, hr, hn⟩ := h
  exact ⟨r, hPQ r hr, hn⟩

/-- **The rule of sequences.** -/
theorem bind {g : β → ℕ → Option γ} {R : γ → Prop} (hf : Ends f P) (hg : ∀ r, P r → Ends (g r) R) :
    Ends (fun fuel => (f fuel).bind fun r => g r fuel) R := by
  obtain ⟨r, hr, n, hn⟩ := hf
  obtain ⟨t, ht, m, hm⟩ := hg r hr
  refine ⟨t, ht, max n m, fun fuel hfuel => ?_⟩
  have hf : f fuel = some r := hn fuel (le_trans (le_max_left n m) hfuel)
  simp only [hf, Option.bind_some]
  exact hm fuel (le_trans (le_max_right n m) hfuel)

theorem map {g : β → γ} {R : γ → Prop} (hf : Ends f P) (hg : ∀ r, P r → R (g r)) :
    Ends (fun fuel => (f fuel).map g) R := by
  obtain ⟨r, hr, n, hn⟩ := hf
  refine ⟨g r, hg r hr, n, fun fuel hfuel => ?_⟩
  simp only [hn fuel hfuel, Option.map_some]

theorem of_succ (h : Ends (fun fuel => f (fuel + 1)) P) : Ends f P := by
  obtain ⟨r, hr, n, hn⟩ := h
  refine ⟨r, hr, n + 1, fun fuel hfuel => ?_⟩
  obtain ⟨fuel, rfl⟩ := Nat.exists_eq_add_of_le' (le_trans (Nat.le_add_left 1 n) hfuel)
  exact hn fuel (Nat.le_of_succ_le_succ hfuel)

theorem exists_run (h : Ends f P) : ∃ fuel r, f fuel = some r ∧ P r := by
  obtain ⟨r, hr, n, hn⟩ := h
  exact ⟨n, r, hn n le_rfl, hr⟩

end Ends

end Lib
