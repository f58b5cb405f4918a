import Mathlib.Data.List.Basic
import Mathlib.Data.Nat.ModEq
import Mathlib.Logic.Function.Basic
import Mathlib.Tactic.Linarith

/-!
Ring buffers with a head and a tail.

A ring of `N` slots is related to its history (`Rep`): the elements that were ever put into it, and
the number of them that were taken out. Element `k` of the history has its slot at `k % N`; the head
is the slot of the next element to be put in, the tail the slot of the next one to be taken out. One
slot stays free, so that head and tail are equal exactly when nothing is stored (`empty_iff`) and
the head is just before the tail exactly when `N - 1` elements are (`full_iff`).
-/

namespace Lib.Ring

variable {α : Type*} {N : ℕ} {slots : ℕ → α} {head tail : ℕ} {es : List α} {r : ℕ}

/-- The slots hold the elements of the history `es` from number `r` on. -/
structure Rep (N : ℕ) (slots : ℕ → α) (head tail : ℕ) (es : List α) (r : ℕ) : Prop where
  head_eq : head = es.length % N
  tail_eq : tail = r % N
  taken_le : r ≤ es.length
  room : es.length < r + N
  slot : ∀ k (h : k < es.length), r ≤ k → slots (k % N) = es[k]

lemma slot_inj {a b : ℕ} (hab : a ≤ b) (hlt : b < a + N) (h : a % N = b % N) : a = b :=
  Nat.ModEq.eq_of_abs_lt h (by rw [abs_lt]; constructor <;> omega)

theorem Rep.start (hN : 0 < N) : Rep N slots 0 0 [] 0 where
  head_eq := rfl
  tail_eq := (Nat.zero_mod N).symm
  taken_le := le_rfl
  room := by simpa using hN
  slot k h := absurd h (Nat.not_lt_zero k)

lemma Rep.pos (h : Rep N slots head tail es r) : 0 < N := by
  have := h.taken_le
  have := h.room
  omega

lemma Rep.head_lt (h : Rep N slots head tail es r) : head < N := by
  rw [h.head_eq]
  exact Nat.mod_lt _ h.pos

lemma Rep.tail_lt (h : Rep N slots head tail es r) : tail < N := by
  rw [h.tail_eq]
  exact Nat.mod_lt _ h.pos

theorem Rep.empty_iff (h : Rep N slots head tail es r) : head = tail ↔ es.length = r := by
  rw [h.head_eq, h.tail_eq]
  constructor
  · intro heq
    exact (slot_inj h.taken_le h.room heq.symm).symm
  · intro heq
    rw [heq]

theorem Rep.full_iff (h : Rep N slots head tail es r) :
    (head + 1) % N = tail ↔ es.length + 1 = r + N := by
  have hle := h.taken_le
  have hroom := h.room
  rw [h.head_eq, h.tail_eq, Nat.mod_add_mod]
  constructor
  · intro heq
    by_contra hne
    have := slot_inj (N := N) (by omega : r ≤ es.length + 1) (by omega) heq.symm
    omega
  · intro heq
    rw [heq, Nat.add_mod_right]

theorem Rep.front (h : Rep N slots head tail es r) (hr : r < es.length) : slots tail = es[r] := by
  rw [h.tail_eq]
  exact h.slot r hr le_rfl

theorem Rep.pop (h : Rep N slots head tail es r) (hr : r < es.length) :
    Rep N slots head ((tail + 1) % N) es (r + 1) where
  head_eq := h.head_eq
  tail_eq := by rw [h.tail_eq, Nat.mod_add_mod]
  taken_le := hr
  room := by have := h.room; omega
  slot k hk hrk := h.slot k hk (by omega)

theorem Rep.push (h : Rep N slots head tail es r) (hfull : (head + 1) % N ≠ tail) (a : α) :
    Rep N (Function.update slots head a) ((head + 1) % N) tail (es ++ [a]) r := by
  have hle := h.taken_le
  have hroom : es.length + 1 < r + N := by
    have := h.room
    have := mt h.full_iff.mpr hfull
    omega
  refine ⟨?_, h.tail_eq, ?_, ?_, fun k hk hrk => ?_⟩
  · rw [h.head_eq, Nat.mod_add_mod, List.length_append, List.length_singleton]
  · simp only [List.length_append, List.length_singleton]
    omega
  · simpa using hroom
  · simp only [List.length_append, List.length_singleton] at hk
    rcases Nat.lt_succ_iff_lt_or_eq.mp hk with hlt | rfl
    · have hslot : k % N ≠ head := by
        intro heq
        rw [h.head_eq] at heq
        have := slot_inj (by omega) (by omega) heq
        omega
      rw [Function.update_of_ne hslot, List.getElem_append_left hlt]
      exact h.slot k hlt hrk
    · simp [← h.head_eq]

end Lib.Ring
