import Mathlib.Data.List.Basic

/-!
Machines that take one input at a time and answer each with an output.

`run` collects the answers. Two rules carry a fact about one step over to every run: the invariant
rule `always_of_step` and the simulation rule `trace_sim`. Both take a guard, a condition on the
input and the state it meets, for facts that hold only while the guard is met (`Along`).
-/

namespace Lib.Transducer

variable {σ τ ι ω : Type*}

/-- The answers and the states after each input. -/
def trace (step : ι → σ → ω × σ) : List ι → σ → List (ω × σ)
  | [], _ => []
  | i :: is, s => step i s :: trace step is (step i s).2

/-- The state after the inputs. -/
def final (step : ι → σ → ω × σ) : List ι → σ → σ
  | [], s => s
  | i :: is, s => final step is (step i s).2

/-- The guard is met at every input of the run. -/
def Along (step : ι → σ → ω × σ) (G : σ → ι → Prop) : List ι → σ → Prop
  | [], _ => True
  | i :: is, s => G s i ∧ Along step G is (step i s).2

/-- Every step of the run is related by `Q`: the state before, the input, the answer, the state
after. -/
def Always (step : ι → σ → ω × σ) (Q : σ → ι → ω → σ → Prop) : List ι → σ → Prop
  | [], _ => True
  | i :: is, s => Q s i (step i s).1 (step i s).2 ∧ Always step Q is (step i s).2

lemma final_append (step : ι → σ → ω × σ) (is js : List ι) (s : σ) :
    final step (is ++ js) s = final step js (final step is s) := by
  induction is generalizing s with
  | nil => rfl
  | cons i is ih => exact ih _

variable {step : ι → σ → ω × σ} {G : σ → ι → Prop} {P : σ → Prop}

/-- **The invariant rule.** A step from a state of the invariant that meets the guard is related by
`Q` and ends in the invariant; then every step of a guarded run is related by `Q`. -/
theorem always_of_step {Q : σ → ι → ω → σ → Prop}
    (hstep : ∀ s i, P s → G s i → Q s i (step i s).1 (step i s).2 ∧ P (step i s).2) :
    ∀ (is : List ι) (s : σ), P s → Along step G is s → Always step Q is s
  | [], _, _, _ => trivial
  | i :: is, s, hs, hg =>
    have h := hstep s i hs hg.1
    ⟨h.1, always_of_step hstep is _ h.2 hg.2⟩

theorem final_inv (hstep : ∀ s i, P s → G s i → P (step i s).2) :
    ∀ (is : List ι) (s : σ), P s → Along step G is s → P (final step is s)
  | [], _, hs, _ => hs
  | i :: is, s, hs, hg => final_inv hstep is _ (hstep s i hs hg.1) hg.2

lemma along_of_forall : ∀ {is : List ι} (s : σ), (∀ i ∈ is, ∀ s, G s i) → Along step G is s
  | [], _, _ => trivial
  | _ :: _, s, h => ⟨h _ (by simp) s, along_of_forall _ fun j hj => h j (List.mem_cons_of_mem _ hj)⟩

theorem along_of_inv (hstep : ∀ s i, P s → G s i ∧ P (step i s).2) :
    ∀ (is : List ι) (s : σ), P s → Along step G is s
  | [], _, _ => trivial
  | i :: is, s, hs => ⟨(hstep s i hs).1, along_of_inv hstep is _ (hstep s i hs).2⟩

lemma along_true (is : List ι) (s : σ) : Along step (fun _ _ => True) is s :=
  along_of_forall s fun _ _ _ => trivial

theorem final_inv' (hstep : ∀ s i, P s → P (step i s).2) (is : List ι) (s : σ) (hs : P s) :
    P (final step is s) :=
  final_inv (G := fun _ _ => True) (fun s i h _ => hstep s i h) is s hs (along_true is s)

/-- Where a step from a state of the invariant is related by `Q` exactly on the inputs in `C`, a run is
related throughout exactly if all its inputs are in `C`. -/
theorem always_iff_of_step {Q : σ → ι → ω → σ → Prop} {C : ι → Prop}
    (hstep : ∀ s i, P s → G s i → (Q s i (step i s).1 (step i s).2 ↔ C i) ∧ P (step i s).2) :
    ∀ (is : List ι) (s : σ), P s → Along step G is s → (Always step Q is s ↔ ∀ i ∈ is, C i)
  | [], _, _, _ => by simp [Always]
  | i :: is, s, hs, hg => by
    have h := hstep s i hs hg.1
    rw [Always, h.1, always_iff_of_step hstep is _ h.2 hg.2, List.forall_mem_cons]

/-- **The simulation rule.** Steps that meet the guards give the same answer and end in related states;
then guarded runs give the same answers, and related states throughout. -/
theorem trace_sim {step' : ι → τ → ω × τ} {H : τ → ι → Prop} {R : σ → τ → Prop}
    (hstep : ∀ s t i, R s t → G s i → H t i →
      (step i s).1 = (step' i t).1 ∧ R (step i s).2 (step' i t).2) :
    ∀ (is : List ι) (s : σ) (t : τ), R s t → Along step G is s → Along step' H is t →
      List.Forall₂ (fun a b => a.1 = b.1 ∧ R a.2 b.2) (trace step is s) (trace step' is t)
  | [], _, _, _, _, _ => .nil
  | i :: is, s, t, hR, hg, hg' =>
    have h := hstep s t i hR hg.1 hg'.1
    .cons h (trace_sim hstep is _ _ h.2 hg.2 hg'.2)

/-- **The refinement rule.** Where every guarded step keeps a state related to the one of an abstract machine,
a guarded run leads to a state related to the one the abstract machine comes to. -/
theorem final_refines {α : Type*} {abstractStep : α → ι → α} {R : α → σ → Prop}
    (hstep : ∀ a s i, R a s → G s i → R (abstractStep a i) (step i s).2) :
    ∀ (is : List ι) (a : α) (s : σ), R a s → Along step G is s → R (is.foldl abstractStep a) (final step is s)
  | [], _, _, hR, _ => hR
  | i :: is, a, s, hR, hg => final_refines hstep is _ _ (hstep a s i hR hg.1) hg.2

end Lib.Transducer
