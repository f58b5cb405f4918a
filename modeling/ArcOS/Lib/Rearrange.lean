import Mathlib.Logic.Equiv.Basic
import Mathlib.Data.Fin.Basic

/-!
Arrays whose entries are moved about.

`Rearranged S a b`: the entries of `a` at the places in `S` have been permuted among each other, and
that gave `b`. What holds of all entries at the places in `S` then still does (`forall_mem`), and the
other entries are where they were (`apply_of_notMem`).

`SortedOn le l r a`: the entries at the places from `l` up to `r` are in order. `Parted le q l i j r a`
is what partitions are made for: nothing above `q` up to `i`, nothing below `q` from `j` on. The two
sides are then sorted one after the other, and all is sorted (`Parted.sorted`).
-/

namespace Lib

variable {ι α : Type*} {S T : Set ι} {a b c : ι → α}

/-- The entries at the places in `S`, permuted among each other. -/
def Rearranged (S : Set ι) (a b : ι → α) : Prop :=
  ∃ σ : Equiv.Perm ι, (∀ k, k ∉ S → σ k = k) ∧ b = a ∘ σ

namespace Rearranged

theorem refl (S : Set ι) (a : ι → α) : Rearranged S a a := ⟨Equiv.refl ι, fun _ _ => rfl, rfl⟩

theorem trans (hab : Rearranged S a b) (hbc : Rearranged S b c) : Rearranged S a c := by
  obtain ⟨σ, hσ, rfl⟩ := hab
  obtain ⟨τ, hτ, rfl⟩ := hbc
  refine ⟨τ.trans σ, fun k hk => ?_, rfl⟩
  rw [Equiv.trans_apply, hτ k hk, hσ k hk]

theorem mono (hST : S ⊆ T) (h : Rearranged S a b) : Rearranged T a b := by
  obtain ⟨σ, hσ, hb⟩ := h
  exact ⟨σ, fun k hk => hσ k fun hS => hk (hST hS), hb⟩

theorem swap [DecidableEq ι] {i j : ι} (hi : i ∈ S) (hj : j ∈ S) (a : ι → α) :
    Rearranged S a (a ∘ Equiv.swap i j) := by
  refine ⟨Equiv.swap i j, fun k hk => Equiv.swap_apply_of_ne_of_ne ?_ ?_, rfl⟩
  · rintro rfl
    exact hk hi
  · rintro rfl
    exact hk hj

theorem apply_of_notMem (h : Rearranged S a b) {k : ι} (hk : k ∉ S) : b k = a k := by
  obtain ⟨σ, hσ, rfl⟩ := h
  rw [Function.comp_apply, hσ k hk]

theorem forall_mem (h : Rearranged S a b) {P : α → Prop} (ha : ∀ k ∈ S, P (a k)) :
    ∀ k ∈ S, P (b k) := by
  obtain ⟨σ, hσ, rfl⟩ := h
  intro k hk
  refine ha (σ k) ?_
  -- a place that comes from outside stays there
  by_contra hout
  have hfix : σ k = k := σ.injective (hσ (σ k) hout)
  exact hout (hfix.symm ▸ hk)

end Rearranged

section Segments

variable {n : ℕ} {le : α → α → Prop}

/-- The places from `l` up to `r`. -/
def places (n l r : ℕ) : Set (Fin n) := {k | l ≤ k.val ∧ k.val < r}

/-- The entries at the places from `l` up to `r` are in order. -/
def SortedOn (le : α → α → Prop) (l r : ℕ) (a : Fin n → α) : Prop :=
  ∀ i j : Fin n, l ≤ i.val → i ≤ j → j.val < r → le (a i) (a j)

lemma SortedOn.congr {l r : ℕ} {a b : Fin n → α} (h : SortedOn le l r a)
    (hab : ∀ k : Fin n, l ≤ k.val → k.val < r → b k = a k) : SortedOn le l r b := by
  intro i j hi hij hj
  have hij' : i.val ≤ j.val := hij
  rw [hab i hi (by omega), hab j (by omega) hj]
  exact h i j hi hij hj

/-- Nothing above `q` at the places from `l` up to `i`, nothing below `q` from `j` up to `r`. -/
structure Parted (le : α → α → Prop) (q : α) (l i j r : ℕ) (a : Fin n → α) : Prop where
  below : ∀ k : Fin n, l ≤ k.val → k.val < i → le (a k) q
  above : ∀ k : Fin n, j ≤ k.val → k.val < r → le q (a k)

variable {q : α} {l i j r : ℕ} {a b c : Fin n → α}

lemma Parted.grow (h : Parted le q l i j r a) {x y : ℕ}
    (hup : ∀ k : Fin n, i ≤ k.val → k.val < x → le (a k) q)
    (hdown : ∀ k : Fin n, y ≤ k.val → k.val < j → le q (a k)) : Parted le q l x y r a where
  below k hl hx := if hi : k.val < i then h.below k hl hi else hup k (by omega) hx
  above k hy hr := if hj : j ≤ k.val then h.above k hj hr else hdown k hy (by omega)

/-- Two entries on the wrong sides are exchanged. -/
lemma Parted.swap {x y : Fin n} (h : Parted le q l x (y.val + 1) r a) (hxy : x.val < y.val)
    (hx : le q (a x)) (hy : le (a y) q) :
    Parted le q l (x.val + 1) y r (a ∘ Equiv.swap x y) := by
  have hout : ∀ k : Fin n, k ≠ x → k ≠ y → (a ∘ Equiv.swap x y) k = a k := fun k hkx hky =>
    congrArg a (Equiv.swap_apply_of_ne_of_ne hkx hky)
  refine ⟨fun k hl hk => ?_, fun k hk hr => ?_⟩
  · by_cases hkx : k = x
    · subst hkx
      simpa using hy
    · have hlt : k.val < x.val := by
        have := Fin.val_ne_of_ne hkx
        omega
      rw [hout k hkx (Fin.ne_of_val_ne (by omega))]
      exact h.below k hl hlt
  · by_cases hky : k = y
    · subst hky
      simpa using hx
    · have hlt : y.val < k.val := by
        have := Fin.val_ne_of_ne hky
        omega
      rw [hout k (Fin.ne_of_val_ne (by omega)) hky]
      exact h.above k hlt hr

theorem SortedOn.glue {m₁ m₂ : ℕ} (hlow : SortedOn le l m₁ a)
    (htrans : ∀ x y z, le x y → le y z → le x z) (hhigh : SortedOn le m₂ r a)
    (h : Parted le q l m₂ m₁ r a) : SortedOn le l r a := by
  intro i j hi hij hj
  by_cases hjm : j.val < m₁
  · exact hlow i j hi hij hjm
  by_cases him : m₂ ≤ i.val
  · exact hhigh i j him hij hj
  · exact htrans _ _ _ (h.below i hi (by omega)) (h.above j (by omega) hj)

/-- **What is left to do behind a partition.** The places up to `m₁` are sorted, then the places from
`m₂` on, and all of it is sorted. -/
theorem Parted.sorted (htrans : ∀ x y z, le x y → le y z → le x z) {m₁ m₂ : ℕ} (hm : m₁ ≤ m₂)
    (h : Parted le q l m₂ m₁ r a) (hab : Rearranged (places n l m₁) a b) (hb : SortedOn le l m₁ b)
    (hbc : Rearranged (places n m₂ r) b c) (hc : SortedOn le m₂ r c) : SortedOn le l r c := by
  have hkept : ∀ k : Fin n, k.val < m₂ → c k = b k := fun k hk =>
    hbc.apply_of_notMem fun hmem => absurd hmem.1 (by omega)
  have hkept' : ∀ k : Fin n, m₁ ≤ k.val → b k = a k := fun k hk =>
    hab.apply_of_notMem fun hmem => absurd hmem.2 (by omega)
  -- what was sorted stays on its side of `q`
  have hwide : places n l m₁ ⊆ places n l m₂ := fun k hk => ⟨hk.1, lt_of_lt_of_le hk.2 hm⟩
  have hwide' : places n m₂ r ⊆ places n m₁ r := fun k hk => ⟨le_trans hm hk.1, hk.2⟩
  have hbelow : ∀ k ∈ places n l m₂, le (b k) q :=
    (hab.mono hwide).forall_mem (P := fun v => le v q) fun k hk => h.below k hk.1 hk.2
  have habove : ∀ k ∈ places n m₁ r, le q (c k) :=
    (hbc.mono hwide').forall_mem fun k hk => by
      rw [hkept' k hk.1]
      exact h.above k hk.1 hk.2
  have hlow : SortedOn le l m₁ c := hb.congr fun k _ hk => hkept k (by omega)
  refine hlow.glue htrans hc ⟨fun k hl hk => ?_, fun k hk hr => habove k ⟨hk, hr⟩⟩
  rw [hkept k hk]
  exact hbelow k ⟨hl, hk⟩

end Segments

end Lib
