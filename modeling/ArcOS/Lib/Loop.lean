import Mathlib.Data.Int.Basic
import Mathlib.Tactic.Ring

/-!
Loops.

`loop body n a` is the loop `for (int i = a; i < a + n; i++) body`. The rule `loop_inv` carries an
invariant, indexed by the counter, through the rounds.

`whileLoop goesOn body fuel` is the loop `while (goesOn) body`, with a number of tests. It ends at the
first round that does not go on, and the rules say where in terms of the iterates of the body.
-/

namespace Lib

variable {σ : Type*}

/-- The loop from `a` on, with the number of rounds left. -/
def loop (body : ℤ → σ → σ) : ℕ → ℤ → σ → σ
  | 0, _, s => s
  | n + 1, a, s => loop body n (a + 1) (body a s)

/-- **The rule of counting loops.** -/
theorem loop_inv {body : ℤ → σ → σ} {P : ℤ → σ → Prop} : ∀ {n : ℕ} {a : ℤ} {s : σ}, P a s →
    (∀ i s, a ≤ i → i < a + n → P i s → P (i + 1) (body i s)) → P (a + n) (loop body n a s)
  | 0, a, s, h, _ => by simpa [loop] using h
  | n + 1, a, s, h, hstep => by
    have hnext : P (a + 1) (body a s) := hstep a s le_rfl (by omega) h
    have hrest : P (a + 1 + n) (loop body n (a + 1) (body a s)) :=
      loop_inv hnext fun i s hai hin hP => hstep i s (by omega) (by push_cast; omega) hP
    rw [loop, show a + ((n + 1 : ℕ) : ℤ) = a + 1 + n by push_cast; ring]
    exact hrest

section While

variable (goesOn : σ → Prop) [DecidablePred goesOn] (body : σ → σ)

/-- The loop `while (goesOn) body`, with the number of tests it may make. -/
def whileLoop : ℕ → σ → Option σ
  | 0, _ => none
  | fuel + 1, s => if goesOn s then whileLoop fuel (body s) else some s

/-- The state in front of the test of a round that the loop comes to. -/
def AtTest (s t : σ) : Prop := ∃ n, (∀ i < n, goesOn (body^[i] s)) ∧ body^[n] s = t

variable {goesOn body}

theorem whileLoop_eq_some {n fuel : ℕ} {s : σ} (hgoes : ∀ i < n, goesOn (body^[i] s))
    (hends : ¬ goesOn (body^[n] s)) (hfuel : n < fuel) :
    whileLoop goesOn body fuel s = some (body^[n] s) := by
  induction n generalizing fuel s with
  | zero =>
    obtain ⟨fuel, rfl⟩ := Nat.exists_eq_add_of_lt hfuel
    rw [show 0 + fuel + 1 = fuel + 1 by omega, whileLoop, if_neg (by simpa using hends)]
    rfl
  | succ n ih =>
    obtain ⟨fuel, rfl⟩ := Nat.exists_eq_add_of_lt hfuel
    have hfirst : goesOn s := by simpa using hgoes 0 (Nat.succ_pos n)
    rw [show n + 1 + fuel + 1 = n + 1 + fuel + 1 from rfl, whileLoop, if_pos hfirst,
      ih (fun i hi => hgoes (i + 1) (Nat.succ_lt_succ hi)) hends (by omega)]
    rfl

theorem whileLoop_ends {fuel : ℕ} {s t : σ} (h : whileLoop goesOn body fuel s = some t) :
    AtTest goesOn body s t ∧ ¬ goesOn t := by
  induction fuel generalizing s with
  | zero => cases h
  | succ fuel ih =>
    rw [whileLoop] at h
    split_ifs at h with hfirst
    · obtain ⟨⟨n, hgoes, hn⟩, hends⟩ := ih h
      refine ⟨⟨n + 1, fun i hi => ?_, hn⟩, hends⟩
      cases i with
      | zero => exact hfirst
      | succ i => exact hgoes i (Nat.lt_of_succ_lt_succ hi)
    · cases h
      exact ⟨⟨0, fun i hi => absurd hi (Nat.not_lt_zero i), rfl⟩, hfirst⟩

end While

end Lib
