import Mathlib.Data.List.ReduceOption
import Mathlib.Logic.Function.Iterate

/-!
A machine whose steps are interleaved with events from outside.

An event changes the machine only where it does not look, and next to it a state that the machine does not
know of. Then the machine gets to where it gets on its own, and the other state to where the events take
it (`interleaved_sim`).
-/

namespace Lib

variable {γ σ ι : Type*}

/-- A run: `none` is a step of the machine, `some i` an event. -/
def interleaved (step : γ → γ) (serve : ι → γ → σ → γ × σ) : List (Option ι) → γ → σ → γ × σ
  | [], c, s => (c, s)
  | none :: es, c, s => interleaved step serve es (step c) s
  | some i :: es, c, s => interleaved step serve es (serve i c s).1 (serve i c s).2

/-- The steps of the machine in a run. -/
def ownSteps (es : List (Option ι)) : ℕ := es.countP Option.isNone

/-- **The rule of interleaving.** `R` relates the machine on its own to the one that is interrupted, `P`
holds of the machine on its own throughout, and `I` of the other state. -/
theorem interleaved_sim {step : γ → γ} {serve : ι → γ → σ → γ × σ} {body : ι → σ → σ} {R : γ → γ → Prop}
    {P : γ → Prop} {I : σ → Prop} {G : ι → Prop} (hstep : ∀ c d, R c d → R (step c) (step d))
    (hserve : ∀ i c d s, G i → P c → R c d → I s →
      R c (serve i d s).1 ∧ (serve i d s).2 = body i s ∧ I (body i s)) :
    ∀ {es : List (Option ι)} {c d : γ} {s : σ}, R c d → I s → (∀ k, P (step^[k] c)) →
      (∀ i ∈ es.reduceOption, G i) →
        R (step^[ownSteps es] c) (interleaved step serve es d s).1 ∧
          (interleaved step serve es d s).2 = es.reduceOption.foldl (fun s i => body i s) s ∧
          I (interleaved step serve es d s).2 := by
  intro es
  induction es with
  | nil =>
    intro c d s hR hI _ _
    exact ⟨hR, rfl, hI⟩
  | cons e es ih =>
    intro c d s hR hI hP hG
    cases e with
    | none =>
      have hsteps : ownSteps (none :: es) = ownSteps es + 1 := List.countP_cons_of_pos rfl
      rw [hsteps, Function.iterate_succ_apply]
      rw [List.reduceOption_cons_of_none] at hG ⊢
      exact ih (hstep c d hR) hI (fun k => hP (k + 1)) hG
    | some i =>
      have hsteps : ownSteps (some i :: es) = ownSteps es := List.countP_cons_of_neg (by simp)
      rw [List.reduceOption_cons_of_some] at hG ⊢
      obtain ⟨hR', hbody, hI'⟩ := hserve i c d s (hG i List.mem_cons_self) (hP 0) hR hI
      rw [hsteps, List.foldl_cons, ← hbody]
      exact ih hR' (hbody ▸ hI') hP fun j hj => hG j (List.mem_cons_of_mem _ hj)

end Lib
