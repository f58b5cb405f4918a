import Mathlib.Algebra.Ring.Nat
import Mathlib.Data.List.Basic

/-!
Programs as stacks of statements, and proof outlines under interference.

Executing a statement changes the state and puts the statements to run next on the stack (`exec`). An
outline gives every statement an assertion that holds before it and one that holds behind it. It is
carried along a run by `Ready.step`; a step of someone else that respects every assertion of the
outline keeps it as well (`Ready.interfere`).
-/

namespace Lib.Outline

variable {κ σ : Type*} {exec : κ → σ → List κ × σ} {pre post : κ → σ → Prop}

/-- From `P` on, the statements lead to `Q`. -/
def Leads (pre post : κ → σ → Prop) : (σ → Prop) → List κ → (σ → Prop) → Prop
  | P, [], Q => ∀ s, P s → Q s
  | P, k :: ks, Q => (∀ s, P s → pre k s) ∧ Leads pre post (post k) ks Q

/-- From the state on, the statements lead to `Q`. -/
def Ready (pre post : κ → σ → Prop) : List κ → (σ → Prop) → σ → Prop
  | [], Q, s => Q s
  | k :: ks, Q, s => pre k s ∧ Leads pre post (post k) ks Q

/-- Every statement, executed where its first assertion holds, leads to its second one. -/
def IsOutline (exec : κ → σ → List κ × σ) (pre post : κ → σ → Prop) : Prop :=
  ∀ k s, pre k s → Ready pre post (exec k s).1 (post k) (exec k s).2

lemma Leads.append {P Q R : σ → Prop} {ks ks' : List κ} (h : Leads pre post P ks Q)
    (h' : Leads pre post Q ks' R) : Leads pre post P (ks ++ ks') R := by
  induction ks generalizing P with
  | nil =>
    cases ks' with
    | nil => exact fun s hs => h' s (h s hs)
    | cons k ks' => exact ⟨fun s hs => h'.1 s (h s hs), h'.2⟩
  | cons k ks ih => exact ⟨h.1, ih h.2⟩

lemma Ready.append {Q R : σ → Prop} {ks ks' : List κ} {s : σ} (h : Ready pre post ks Q s)
    (h' : Leads pre post Q ks' R) : Ready pre post (ks ++ ks') R s := by
  cases ks with
  | nil =>
    cases ks' with
    | nil => exact h' s h
    | cons k ks' => exact ⟨h'.1 s h, h'.2⟩
  | cons k ks => exact ⟨h.1, h.2.append h'⟩

lemma Leads.keeping {P R : σ → Prop} {ks : List κ} (hR : ∀ s, R s → P s)
    (h : ∀ k ∈ ks, (∀ s, P s → pre k s) ∧ ∀ s, post k s → P s) : Leads pre post R ks P := by
  induction ks generalizing R with
  | nil => exact hR
  | cons k ks ih =>
    obtain ⟨hpre, hpost⟩ := h k List.mem_cons_self
    exact ⟨fun s hs => hpre s (hR s hs), ih hpost fun j hj => h j (List.mem_cons_of_mem _ hj)⟩

lemma Ready.keeping {P : σ → Prop} {ks : List κ} {s : σ} (hs : P s)
    (h : ∀ k ∈ ks, (∀ s, P s → pre k s) ∧ ∀ s, post k s → P s) : Ready pre post ks P s := by
  cases ks with
  | nil => exact hs
  | cons k ks =>
    obtain ⟨hpre, hpost⟩ := h k List.mem_cons_self
    exact ⟨hpre s hs, .keeping hpost fun j hj => h j (List.mem_cons_of_mem _ hj)⟩

/-- **One statement of the program.** -/
theorem Ready.step (hout : IsOutline exec pre post) {Q : σ → Prop} {k : κ} {ks : List κ} {s : σ}
    (h : Ready pre post (k :: ks) Q s) :
    Ready pre post ((exec k s).1 ++ ks) Q (exec k s).2 :=
  (hout k s h.1).append h.2

/-- **A step of someone else** that every assertion survives. -/
theorem Ready.interfere {Q : σ → Prop} {f : σ → σ} (hpre : ∀ k s, pre k s → pre k (f s))
    (hQ : ∀ s, Q s → Q (f s)) {ks : List κ} {s : σ} (h : Ready pre post ks Q s) :
    Ready pre post ks Q (f s) := by
  cases ks with
  | nil => exact hQ s h
  | cons k ks => exact ⟨hpre k s h.1, h.2⟩

/-! ### What the statements mean -/

variable {meaning : κ → σ → σ}

/-- The statements run one after the other. -/
def runAll (meaning : κ → σ → σ) (ks : List κ) (s : σ) : σ := ks.foldl (fun s k => meaning k s) s

lemma runAll_append (ks ks' : List κ) (s : σ) :
    runAll meaning (ks ++ ks') s = runAll meaning ks' (runAll meaning ks s) := List.foldl_append

/-- The statements of the program, executed one by one with nothing in between. -/
def alone (exec : κ → σ → List κ × σ) : ℕ → List κ × σ → List κ × σ
  | 0, c => c
  | _ + 1, ([], s) => ([], s)
  | n + 1, (k :: ks, s) => alone exec n ((exec k s).1 ++ ks, (exec k s).2)

/-- **Executing the statements alone gives their meaning**, when each execution keeps the meaning of
what is left and a measure decreases. -/
theorem alone_meaning {valid : κ → Prop} {size : κ → ℕ}
    (hmeaning : ∀ k s, valid k → runAll meaning (exec k s).1 (exec k s).2 = meaning k s)
    (hvalid : ∀ k s, valid k → ∀ j ∈ (exec k s).1, valid j)
    (hsize : ∀ k s, valid k → ((exec k s).1.map size).sum < size k) :
    ∀ (n : ℕ) (ks : List κ) (s : σ), (∀ k ∈ ks, valid k) → (ks.map size).sum ≤ n →
      alone exec n (ks, s) = ([], runAll meaning ks s) := by
  intro n
  induction n with
  | zero =>
    intro ks s hks hn
    cases ks with
    | nil => rfl
    | cons k ks =>
      have hpos := hsize k s (hks k List.mem_cons_self)
      simp only [List.map_cons, List.sum_cons] at hn
      omega
  | succ n ih =>
    intro ks s hks hn
    cases ks with
    | nil => rfl
    | cons k ks =>
      have hk := hks k List.mem_cons_self
      have hpos := hsize k s hk
      simp only [List.map_cons, List.sum_cons] at hn
      rw [alone, ih, runAll_append, hmeaning k s hk]
      · rfl
      · intro j hj
        rcases List.mem_append.mp hj with hj | hj
        · exact hvalid k s hk j hj
        · exact hks j (List.mem_cons_of_mem _ hj)
      · rw [List.map_append, List.sum_append]
        omega

end Lib.Outline
