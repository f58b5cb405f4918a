import ArcOS.Lib.Loop
import ArcOS.Lib.Fuel
import Mathlib.Data.Set.Basic
import Mathlib.Logic.Function.Basic

/-!
Cells that are set to one value.

`Fills s v f g` says that `g` is `f` with the cells of `s` set to `v`. What a program sets piece by piece is
the union of the pieces: of two, of the rounds of a loop that counts in integers (`fills_loop`), and of
the rounds of one that counts in 16 bits up to a limit (`forBelow_fills`), which ends whatever its limit
is. The cells of a plane laid out row by row are told apart by their coordinates (`rowMajor_inj`).
-/

namespace Lib

variable {ι α σ : Type*}

/-- The cells of a set hold the value, the others what they held. -/
def Fills (s : Set ι) (v : α) (f g : ι → α) : Prop := ∀ i, (i ∈ s → g i = v) ∧ (i ∉ s → g i = f i)

namespace Fills

variable {s t : Set ι} {v : α} {f g h : ι → α}

theorem none (v : α) (f : ι → α) : Fills ∅ v f f := fun _ => ⟨fun h => h.elim, fun _ => rfl⟩

theorem cell [DecidableEq ι] (i : ι) (v : α) (f : ι → α) : Fills {i} v f (Function.update f i v) := by
  intro j
  refine ⟨fun hj => ?_, fun hj => Function.update_of_ne hj v f⟩
  rw [Set.mem_singleton_iff.mp hj, Function.update_self]

theorem trans (hs : Fills s v f g) (ht : Fills t v g h) : Fills (s ∪ t) v f h := by
  intro i
  constructor
  · intro hi
    by_cases hit : i ∈ t
    · exact (ht i).1 hit
    · -- the second piece leaves what the first one has set
      rw [(ht i).2 hit]
      exact (hs i).1 (hi.resolve_right hit)
  · intro hi
    rw [Set.mem_union, not_or] at hi
    rw [(ht i).2 hi.2, (hs i).2 hi.1]

theorem congr (hs : Fills s v f g) (hst : ∀ i, i ∈ s ↔ i ∈ t) : Fills t v f g := by
  rwa [← Set.ext hst]

end Fills

/-- What the rounds from `a` up to `b` fill. -/
def inRounds (s : ℤ → Set ι) (a b : ℤ) : Set ι := {j | ∃ i, a ≤ i ∧ i < b ∧ j ∈ s i}

section Rounds

variable {s : ℤ → Set ι} {a b : ℤ} {v : α} {f g h : ι → α}

lemma inRounds_empty (h : b ≤ a) : inRounds s a b = ∅ := by
  refine Set.eq_empty_of_forall_notMem ?_
  rintro j ⟨i, hai, hib, -⟩
  omega

lemma inRounds_succ (h : a ≤ b) : inRounds s a (b + 1) = inRounds s a b ∪ s b := by
  ext j
  constructor
  · rintro ⟨i, hai, hib, hj⟩
    rcases eq_or_ne i b with rfl | hne
    · exact .inr hj
    · exact .inl ⟨i, hai, by omega, hj⟩
  · rintro (⟨i, hai, hib, hj⟩ | hj)
    · exact ⟨i, hai, by omega, hj⟩
    · exact ⟨b, h, by omega, hj⟩

theorem fills_loop {body : ℤ → (ι → α) → ι → α} (hbody : ∀ i g, Fills (s i) v g (body i g)) (n : ℕ)
    (a : ℤ) (f : ι → α) : Fills (inRounds s a (a + n)) v f (loop body n a f) := by
  refine loop_inv (P := fun i g => Fills (inRounds s a i) v f g) ?_ fun i g hai _ hg => ?_
  · rw [inRounds_empty le_rfl]
    exact Fills.none v f
  · rw [inRounds_succ hai]
    exact hg.trans (hbody i g)

end Rounds

/-! ### Loops that count in 16 bits -/

/-- The loop `for (uint16_t i = …; i < limit; i++)`, from a value of its counter on. -/
def forBelow (limit : UInt16) (body : UInt16 → σ → ℕ → Option σ) : UInt16 → σ → ℕ → Option σ
  | _, _, 0 => none
  | i, s, fuel + 1 =>
    if i < limit then (body i s fuel).bind fun s => forBelow limit body (i + 1) s fuel else some s

lemma toNat_succ {i limit : UInt16} (h : i < limit) : (i + 1).toNat = i.toNat + 1 := by
  have hi := UInt16.lt_iff_toNat_lt.mp h
  have hlimit := limit.toNat_lt
  rw [UInt16.toNat_add]
  simp
  omega

/-- **The rule of loops that count in 16 bits.** -/
theorem forBelow_ends {limit : UInt16} {body : UInt16 → σ → ℕ → Option σ} {P : ℕ → σ → Prop}
    (hbody : ∀ i s, i < limit → P i.toNat s → Ends (body i s) (P (i.toNat + 1))) {i : UInt16} {s : σ}
    (hs : P i.toNat s) : Ends (forBelow limit body i s) (P (max i.toNat limit.toNat)) := by
  -- by the rounds that are left
  induction hn : limit.toNat - i.toNat generalizing i s with
  | zero =>
    have hi : ¬ i < limit := by rw [UInt16.lt_iff_toNat_lt]; omega
    apply Ends.of_succ
    simp only [forBelow, if_neg hi]
    rw [max_eq_left (by omega)]
    exact Ends.done hs
  | succ n ih =>
    have hi : i < limit := by rw [UInt16.lt_iff_toNat_lt]; omega
    have hnext := toNat_succ hi
    apply Ends.of_succ
    simp only [forBelow, if_pos hi]
    refine (hbody i s hi hs).bind fun t ht => ?_
    have hrest := ih (i := i + 1) (s := t) (by rwa [hnext]) (by omega)
    rwa [hnext, show max (i.toNat + 1) limit.toNat = max i.toNat limit.toNat by omega] at hrest

/-- Such a loop ends, and its rounds have filled their union. -/
theorem forBelow_fills {limit : UInt16} {body : UInt16 → (ι → α) → ℕ → Option (ι → α)}
    {s : ℤ → Set ι} {v : α} (hbody : ∀ i g, Ends (body i g) (Fills (s i.toNat) v g)) (a : UInt16)
    (f : ι → α) : Ends (forBelow limit body a f) (Fills (inRounds s a.toNat limit.toNat) v f) := by
  have hrounds : Ends (forBelow limit body a f) fun g =>
      a.toNat ≤ max a.toNat limit.toNat ∧
        Fills (inRounds s a.toNat (max a.toNat limit.toNat : ℕ)) v f g := by
    refine forBelow_ends (P := fun i g => a.toNat ≤ i ∧ Fills (inRounds s a.toNat i) v f g) ?_ ?_
    · rintro i g _ ⟨hai, hg⟩
      refine (hbody i g).imp fun h hh => ⟨by omega, ?_⟩
      rw [Nat.cast_succ, inRounds_succ (by omega)]
      exact hg.trans hh
    · refine ⟨le_rfl, ?_⟩
      rw [inRounds_empty le_rfl]
      exact Fills.none v f
  refine hrounds.imp fun g hg => hg.2.congr fun j => ?_
  -- with a limit below the first value there is no round
  constructor
  · rintro ⟨i, hai, hib, hj⟩
    exact ⟨i, hai, by omega, hj⟩
  · rintro ⟨i, hai, hib, hj⟩
    exact ⟨i, hai, by omega, hj⟩

/-! ### Planes -/

lemma rowMajor_inj {w x y x' y' : ℤ} (hx : 0 ≤ x) (hxw : x < w) (hx' : 0 ≤ x') (hxw' : x' < w)
    (h : y * w + x = y' * w + x') : x = x' ∧ y = y' := by
  have hw : w ≠ 0 := by omega
  have hrow : ∀ r c : ℤ, 0 ≤ c → c < w → (r * w + c) / w = r := by
    intro r c hc hcw
    rw [Int.add_comm, Int.add_mul_ediv_right _ _ hw, Int.ediv_eq_zero_of_lt hc hcw, Int.zero_add]
  have hy : y = y' := by
    rw [← hrow y x hx hxw, h, hrow y' x' hx' hxw']
  subst hy
  exact ⟨by omega, rfl⟩

end Lib
