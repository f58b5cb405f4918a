import ArcOS.Kernel.Line
import Mathlib.Data.Nat.Find

/-!
`fgets` on an endless stream of characters.

The loop comes to a character with the edited line in the buffer, as long as no character before was a
line end and the line was never full (`fgetsLoop_edited`). So it ends with the first character that is
a line end or fills the line (`fgets_shortest`).
-/

namespace ArcOS.Kernel

/-! ### What a line waits for -/

/-- The characters end the line: one is a line end, or the edited line fills a buffer of `n` bytes but for
its terminator. -/
def Ended (n : ℤ) (cs : List UInt8) : Prop :=
  (∃ c ∈ cs, c = 10 ∨ c = 13) ∨ ((edited cs).length : ℤ) = n - 1

instance (n : ℤ) (cs : List UInt8) : Decidable (Ended n cs) := inferInstanceAs (Decidable (_ ∨ _))

/-- The first characters of a stream. -/
def taken (stream : ℕ → UInt8) (k : ℕ) : List UInt8 := (List.range k).map stream

/-- Only the buffer of `n` bytes may differ. -/
def Within (n : ℤ) (str str' : ℤ → UInt8) : Prop := ∀ j, ¬ (0 ≤ j ∧ j < n) → str' j = str j

lemma Within.update {n : ℤ} {str str' : ℤ → UInt8} (h : Within n str str') {i : ℤ} (hi : 0 ≤ i ∧ i < n)
    (c : UInt8) : Within n str (Function.update str' i c) := by
  intro j hj
  rw [Function.update_of_ne (by rintro rfl; exact hj hi)]
  exact h j hj

section Stream

variable {stream : ℕ → UInt8} {n : ℤ} {str : ℤ → UInt8} {k m : ℕ}

lemma taken_succ : taken stream (k + 1) = taken stream k ++ [stream k] := by
  simp [taken, List.range_succ]

lemma taken_add : taken stream (k + m) = taken stream k ++ taken (fun j => stream (k + j)) m := by
  rw [taken, List.range_add, List.map_append, List.map_map]
  rfl

/-- **The loop keeps the edited line.** As long as no character is a line end and the line is not full, it
has the edited line in the buffer, and goes on with what comes later. -/
theorem fgetsLoop_edited (hn : 2 ≤ n) (h : ∀ j ≤ k, ¬ Ended n (taken stream j)) (str : ℤ → UInt8) :
    ((edited (taken stream k)).length : ℤ) < n - 1 ∧
    ∃ s, Shows s (edited (taken stream k)) ∧ Within n str s.str ∧
      ∀ later, fgetsLoop n (taken stream k ++ later) ⟨str, 0⟩ = fgetsLoop n later s := by
  induction k with
  | zero =>
    refine ⟨?_, ⟨str, 0⟩, Shows.nil str, fun _ _ => rfl, fun _ => rfl⟩
    show (0 : ℤ) < n - 1
    omega
  | succ k ih =>
    obtain ⟨hroom, s, hshows, hwithin, hloop⟩ := ih fun j hj => h j (Nat.le_succ_of_le hj)
    obtain ⟨hend, hfull⟩ := not_or.mp (h (k + 1) le_rfl)
    have hc : ¬ (stream k = 10 ∨ stream k = 13) := fun hc =>
      hend ⟨stream k, by rw [taken_succ]; exact List.mem_append_right _ List.mem_cons_self, hc⟩
    have hi : s.i < n - 1 := by
      rw [hshows.length]
      exact hroom
    rw [taken_succ, edited_snoc] at hfull ⊢
    have hstep : ∀ later, fgetsLoop n ((taken stream k ++ [stream k]) ++ later) ⟨str, 0⟩ =
        fgetsLoop n (stream k :: later) s := by
      intro later
      rw [List.append_assoc, hloop]
      rfl
    by_cases h8 : stream k = 8
    · rw [edit, if_pos h8] at hfull ⊢
      refine ⟨?_, _, hshows.back, ?_, fun later => ?_⟩
      · rw [List.length_dropLast]
        omega
      · split <;> exact hwithin
      · rw [hstep, fgetsLoop, if_pos hi, if_neg hc, if_pos h8]
    · rw [edit, if_neg h8] at hfull ⊢
      have hlen := hshows.length
      refine ⟨?_, _, hshows.put (stream k), ?_, fun later => ?_⟩
      · rw [List.length_append, List.length_singleton] at hfull ⊢
        push_cast at hfull ⊢
        omega
      · exact hwithin.update (by omega) _
      · rw [hstep, fgetsLoop, if_pos hi, if_neg hc, if_neg h8]

lemma fgets_waits (hn : 2 ≤ n) (h : ∀ j ≤ k, ¬ Ended n (taken stream j)) :
    fgets str n (taken stream k) = none := by
  obtain ⟨hroom, s, hshows, -, hloop⟩ := fgetsLoop_edited hn h str
  have hnone := hloop []
  rw [List.append_nil] at hnone
  rw [fgets, if_neg (by omega), hnone, fgetsLoop, if_pos (by rw [hshows.length]; exact hroom),
    Option.map_none]

lemma fgetsLoop_ends (hn : 2 ≤ n) (h : ∀ j ≤ k, ¬ Ended n (taken stream j))
    (hend : Ended n (taken stream (k + 1))) (str : ℤ → UInt8) :
    ∃ s, fgetsLoop n (taken stream (k + 1)) ⟨str, 0⟩ = some s ∧ Shows s (edited (taken stream (k + 1))) ∧
      Within n str s.str ∧ 0 < s.i ∧ s.i ≤ n - 1 := by
  obtain ⟨hroom, s, hshows, hwithin, hloop⟩ := fgetsLoop_edited hn h str
  have hlen := hshows.length
  have hput : Within n str (s.put (stream k)).str := hwithin.update (by omega) _
  have hi : (s.put (stream k)).i = s.i + 1 := rfl
  rw [taken_succ, hloop, fgetsLoop, if_pos (by omega), edited_snoc]
  rw [taken_succ] at hend
  have hbefore := not_or.mp (h k le_rfl)
  by_cases hc : stream k = 10 ∨ stream k = 13
  · have h8 : stream k ≠ 8 := by
      rintro h8
      rw [h8] at hc
      exact absurd hc (by decide)
    rw [if_pos hc, edit, if_neg h8]
    exact ⟨_, rfl, hshows.put _, hput, by omega, by omega⟩
  · have hfull : ((edited (taken stream k ++ [stream k])).length : ℤ) = n - 1 := by
      refine hend.resolve_left ?_
      rintro ⟨c, hmem, hcend⟩
      rcases List.mem_append.mp hmem with hmem | hmem
      · exact hbefore.1 ⟨c, hmem, hcend⟩
      · rw [List.mem_singleton.mp hmem] at hcend
        exact hc hcend
    rw [edited_snoc] at hfull
    by_cases h8 : stream k = 8
    · rw [edit, if_pos h8, List.length_dropLast] at hfull
      omega
    · rw [edit, if_neg h8] at hfull ⊢
      rw [List.length_append, List.length_singleton] at hfull
      push_cast at hfull
      rw [if_neg hc, if_neg h8, fgetsLoop, if_neg (by omega)]
      exact ⟨_, rfl, hshows.put _, hput, by omega, by omega⟩

/-- **`fgets` is a bounded line editor.** On a stream that ends a line at some moment, it takes the shortest
prefix that does: it waits on every shorter one, and returns on this one and any longer one with the edited
line in the buffer, a zero behind it, and nothing written outside of the buffer. With room for the
terminator only, it takes nothing and returns `NULL`. -/
theorem fgets_shortest (n : ℤ) (hn : 2 ≤ n) (stream : ℕ → UInt8)
    (hend : ∃ k, Ended n (taken stream k)) (str : ℤ → UInt8) :
    (∃ k str', Ended n (taken stream k) ∧ (∀ j < k, ¬ Ended n (taken stream j)) ∧
      (∀ j < k, fgets str n (taken stream j) = none) ∧
      (∀ m ≥ k, fgets str n (taken stream m) = some (true, str')) ∧
      (∀ j (hj : j < (edited (taken stream k)).length), str' j = (edited (taken stream k))[j]) ∧
      str' (edited (taken stream k)).length = 0 ∧ Within n str str') ∧
    ∀ cs, fgets str 1 cs = some (false, Function.update str 0 0) := by
  refine ⟨?_, fun cs => ?_⟩
  · obtain ⟨k, hk, hleast⟩ : ∃ k, Ended n (taken stream k) ∧ ∀ j < k, ¬ Ended n (taken stream j) :=
      ⟨Nat.find hend, Nat.find_spec hend, fun j hj => Nat.find_min hend hj⟩
    cases k with
    | zero =>
      rcases hk with ⟨c, hc, -⟩ | hfull
      · cases hc
      · have hnil : ((edited (taken stream 0)).length : ℤ) = 0 := rfl
        omega
    | succ k =>
      have hbefore : ∀ j ≤ k, ¬ Ended n (taken stream j) := fun j hj => hleast j (Nat.lt_succ_of_le hj)
      obtain ⟨s, hloop, hshows, hwithin, hpos, hle⟩ := fgetsLoop_ends hn hbefore hk str
      have hlen := hshows.length
      refine ⟨k + 1, Function.update s.str s.i 0, hk, hleast, fun j hj => ?_, fun m hm => ?_,
        fun j hj => ?_, ?_, hwithin.update (by omega) 0⟩
      · exact fgets_waits hn fun i hi => hleast i (by omega)
      · obtain ⟨d, rfl⟩ := Nat.exists_eq_add_of_le hm
        refine taken_add ▸ fgets_append ?_ _
        rw [fgets, if_neg (by omega), hloop, Option.map_some, decide_eq_true hpos]
      · rw [Function.update_of_ne (by omega)]
        exact hshows.bytes j hj
      · rw [← hlen, Function.update_self]
  · cases cs <;> rfl

end Stream

/-- An `a`, a Backspace, and nothing but `a` from there on. -/
def erasedOnce (j : ℕ) : UInt8 := if j = 1 then 8 else 97

/-- A line of 2 characters is full after the fourth of them. -/
theorem fgets_shortest_small :
    (∃ k str', Ended 3 (taken erasedOnce k) ∧ (∀ j < k, ¬ Ended 3 (taken erasedOnce j)) ∧
      (∀ j < k, fgets (fun _ => 0) 3 (taken erasedOnce j) = none) ∧
      (∀ m ≥ k, fgets (fun _ => 0) 3 (taken erasedOnce m) = some (true, str')) ∧
      (∀ j (hj : j < (edited (taken erasedOnce k)).length), str' j = (edited (taken erasedOnce k))[j]) ∧
      str' (edited (taken erasedOnce k)).length = 0 ∧ Within 3 (fun _ => 0) str') ∧
    ∀ cs, fgets (fun _ => 0) 1 cs = some (false, Function.update (fun _ => 0) 0 0) :=
  fgets_shortest 3 (by decide) erasedOnce ⟨4, by decide⟩ (fun _ => 0)

end ArcOS.Kernel
