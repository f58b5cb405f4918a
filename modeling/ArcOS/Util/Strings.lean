import ArcOS.Kernel.Commands
import ArcOS.Lib.Fuel
import ArcOS.Lib.Memory

/-!
Strings: `strcmp` and `strcpy` of `libs/util/string.c`.

`strcmp` is the lexicographic order of unsigned bytes, and `strncmp` that of the first characters
(`strcmp_orders`). `strcpy` copies forwards while it looks for the end of its source, so it comes to an
end exactly if it does not write into the rest of it (`strcpy_ends_iff`).
-/

namespace ArcOS.Util

open Lib Memory Kernel

/-! ### Comparing -/

/-- `strcmp`; the loop may make a number of tests. -/
def strcmp (str1 str2 : ℤ → UInt8) : ℕ → Option ℤ
  | 0 => none
  | fuel + 1 =>
    if str1 0 ≠ 0 ∧ str1 0 = str2 0 then strcmp (advance str1 1) (advance str2 1) fuel
    else some ((str1 0).toNat - (str2 0).toNat)

/-- The sign of a number says how two strings compare. -/
structure Orders (s t : List UInt8) (r : ℤ) : Prop where
  less : r < 0 ↔ s < t
  equal : r = 0 ↔ s = t
  greater : 0 < r ↔ t < s

section Compare

variable {a b : ℤ → UInt8} {s t : List UInt8} {c d : UInt8} {r : ℤ}

lemma Orders.nil : Orders [] [] 0 := ⟨by simp, by simp, by simp⟩

lemma Orders.cons (h : Orders s t r) (c : UInt8) : Orders (c :: s) (c :: t) r where
  less := by simp [h.less]
  equal := by simp [h.equal]
  greater := by simp [h.greater]

lemma Orders.ends (hd : d ≠ 0) : Orders [] (d :: t) (0 - d.toNat) := by
  have hpos : 0 < d.toNat := Nat.pos_of_ne_zero fun h => hd (UInt8.toNat_inj.mp h)
  exact ⟨by simp; omega, by simp; omega, by simp⟩

lemma Orders.symm (h : Orders s t r) : Orders t s (-r) :=
  ⟨by rw [← h.greater]; omega, by rw [eq_comm (a := t), ← h.equal]; omega, by rw [← h.less]; omega⟩

lemma Orders.head (hne : c ≠ d) : Orders (c :: s) (d :: t) (c.toNat - d.toNat) where
  less := by simp [List.cons_lt_cons_iff, hne, UInt8.lt_iff_toNat_lt]
  equal := by
    refine iff_of_false (fun h => hne (UInt8.toNat_inj.mp (by omega))) fun h => hne (List.cons.inj h).1
  greater := by simp [List.cons_lt_cons_iff, hne.symm, UInt8.lt_iff_toNat_lt]

/-- What both comparisons do where the strings are told apart, or both at their end. -/
lemma orders_apart (ha : Spells a s) (hb : Spells b t) (h : ¬ (a 0 ≠ 0 ∧ a 0 = b 0)) :
    Orders s t ((a 0).toNat - (b 0).toNat) := by
  cases s with
  | nil =>
    have ha0 : a 0 = 0 := ha.stop
    cases t with
    | nil =>
      have hb0 : b 0 = 0 := hb.stop
      rw [ha0, hb0]
      exact .nil
    | cons d t =>
      rw [ha0, show b 0 = d from hb.head]
      exact .ends (hb.nonzero d List.mem_cons_self)
  | cons c s =>
    have ha0 : a 0 = c := ha.head
    have hc : c ≠ 0 := ha.nonzero c List.mem_cons_self
    cases t with
    | nil =>
      rw [ha0, show b 0 = 0 from hb.stop]
      simpa using (Orders.ends (t := s) hc).symm
    | cons d t =>
      rw [ha0, show b 0 = d from hb.head] at h ⊢
      exact .head fun heq => h ⟨hc, heq⟩

lemma same_heads (ha : Spells a s) (hb : Spells b t) (h : a 0 ≠ 0 ∧ a 0 = b 0) :
    ∃ c s' t', s = c :: s' ∧ t = c :: t' := by
  cases s with
  | nil => exact absurd ha.stop h.1
  | cons c s =>
    cases t with
    | nil => exact absurd (h.2.trans hb.stop) h.1
    | cons d t =>
      have hcd : c = d := ha.head.symm.trans (h.2.trans hb.head)
      exact ⟨c, s, t, rfl, by rw [hcd]⟩

lemma strcmp_ends (ha : Spells a s) (hb : Spells b t) : Ends (strcmp a b) (Orders s t) := by
  induction s generalizing a b t with
  | nil =>
    have hstop : ¬ (a 0 ≠ 0 ∧ a 0 = b 0) := fun h => h.1 ha.stop
    apply Ends.of_succ
    simp only [strcmp, if_neg hstop]
    exact Ends.done (orders_apart ha hb hstop)
  | cons c s ih =>
    apply Ends.of_succ
    simp only [strcmp]
    split_ifs with h
    · obtain ⟨c', s', t', hs, rfl⟩ := same_heads ha hb h
      cases hs
      exact (ih ha.tail hb.tail).imp fun r hr => hr.cons c
    · exact Ends.done (orders_apart ha hb h)

lemma strncmp_orders : ∀ (n : ℕ) {a b : ℤ → UInt8} {s t : List UInt8}, Spells a s → Spells b t →
    Orders (s.take n) (t.take n) (strncmp a b n)
  | 0, _, _, _, _, _, _ => .nil
  | n + 1, a, b, s, t, ha, hb => by
    rw [strncmp]
    split_ifs with h
    · obtain ⟨c, s', t', rfl, rfl⟩ := same_heads ha hb h
      exact (strncmp_orders n ha.tail hb.tail).cons c
    · have happart := orders_apart ha hb h
      cases s with
      | nil => cases t with
        | nil => exact happart
        | cons d t =>
          rw [show a 0 = 0 from ha.stop, show b 0 = d from hb.head]
          exact .ends (hb.nonzero d List.mem_cons_self)
      | cons c s => cases t with
        | nil =>
          rw [show a 0 = c from ha.head, show b 0 = 0 from hb.stop]
          simpa using (Orders.ends (t := s.take n) (ha.nonzero c List.mem_cons_self)).symm
        | cons d t =>
          have hc : c ≠ 0 := ha.nonzero c List.mem_cons_self
          rw [show a 0 = c from ha.head, show b 0 = d from hb.head] at h ⊢
          exact .head fun heq => h ⟨hc, heq⟩

/-- **`strcmp` is the lexicographic order of the bytes of two strings, and `strncmp` that of their first
characters.** -/
theorem strcmp_orders (ha : Spells a s) (hb : Spells b t) :
    Ends (strcmp a b) (Orders s t) ∧ ∀ n, Orders (s.take n) (t.take n) (strncmp a b n) :=
  ⟨strcmp_ends ha hb, fun n => strncmp_orders n ha hb⟩

/-- A byte with its high bit set comes after the letters. -/
theorem strcmp_orders_high : Ends (strcmp (literal [97, 98]) (literal [97, 200])) (Orders [97, 98] [97, 200]) ∧
    ∀ n, Orders ([97, 98].take n) ([97, 200].take n) (strncmp (literal [97, 98]) (literal [97, 200]) n) :=
  strcmp_orders (.literal (by simp)) (.literal (by simp))

end Compare

/-! ### Copying -/

/-- The string at an address. -/
def textAt (m : Memory) (a : UInt32) : ℤ → UInt8 := fun k => m.view a k.toNat

/-- The loop of `strcpy`, and the terminator behind it -/
def strcpyLoop : ℕ → UInt32 → UInt32 → Memory → Option Memory
  | 0, _, _, _ => none
  | fuel + 1, dst, src, m =>
    if m src ≠ 0 then strcpyLoop fuel (dst + 1) (src + 1) (Function.update m dst (m src))
    else some (Function.update m dst 0)

/-- `strcpy`, with the pointer that it returns -/
def strcpy (dst src : UInt32) (m : Memory) (fuel : ℕ) : Option (UInt32 × Memory) :=
  if dst = 0 then some (0, m)
  else if src = 0 then some (dst, Function.update m dst 0)
  else (strcpyLoop fuel dst src m).map fun m => (dst, m)

/-- The copy begins behind the first character of the source, and no further than its terminator. -/
def Overtakes (dst src : UInt32) (s : List UInt8) : Prop := 0 < offset src dst ∧ offset src dst ≤ s.length

section Copy

variable {m : Memory} {dst src : UInt32} {s : List UInt8} {k : ℕ}

lemma textAt_eq (m : Memory) (a : UInt32) (k : ℕ) : textAt m a k = m (a + UInt32.ofNat k) := rfl

lemma length_lt (h : Spells (textAt m src) s) : s.length < 2 ^ 32 := by
  by_contra hlong
  have hk : s.length - 2 ^ 32 < s.length := by omega
  have hwrap : UInt32.ofNat s.length = UInt32.ofNat (s.length - 2 ^ 32) := by
    apply UInt32.toNat_inj.mp
    simp only [UInt32.toNat_ofNat']
    omega
  have hbyte := h.bytes _ hk
  have hstop := h.stop
  rw [textAt_eq] at hbyte hstop
  rw [hwrap, hbyte] at hstop
  exact h.nonzero _ (List.getElem_mem hk) hstop

/-- The character to be copied is not one of those that were written. -/
lemma ahead (h : ¬ Overtakes dst src s) (hlen : s.length < 2 ^ 32) (hk : k ≤ s.length) :
    k ≤ offset dst (src + UInt32.ofNat k) := by
  have hself := offset_add src (k := k) (by omega)
  have hshift := offset_shift src (src + UInt32.ofNat k) (offset_lt src dst)
  rw [add_offset, hself] at hshift
  have hlt := offset_lt src dst
  unfold Overtakes at h
  split at hshift <;> omega

lemma store_step (m : Memory) (dst : UInt32) (xs : List UInt8) (c : UInt8) (hlen : xs.length < 2 ^ 32) :
    Function.update (m.store dst xs) (dst + UInt32.ofNat xs.length) c = m.store dst (xs ++ [c]) := by
  rw [← store_store m dst xs [c] (by simp only [List.length_singleton]; omega) hlen]
  funext a
  by_cases ha : a = dst + UInt32.ofNat xs.length
  · rw [ha, Function.update_self, store_of_lt (by simp [offset])]
    simp [offset]
  · have hfar : offset (dst + UInt32.ofNat xs.length) a ≠ 0 := by
      intro h0
      apply ha
      rw [← add_offset (dst + UInt32.ofNat xs.length) a, h0]
      simp
    have hlater : [c].length ≤ offset (dst + UInt32.ofNat xs.length) a := Nat.pos_of_ne_zero hfar
    rw [Function.update_of_ne ha, store_of_le hlater]

lemma strcpyLoop_ends (h : Spells (textAt m src) s) (hfree : ¬ Overtakes dst src s) :
    ∀ j k, k + j = s.length →
      Ends (fun fuel => strcpyLoop fuel (dst + UInt32.ofNat k) (src + UInt32.ofNat k) (m.store dst (s.take k)))
        (· = m.store dst (s ++ [0])) := by
  have hlen := length_lt h
  intro j
  induction j with
  | zero =>
    intro k hk
    obtain rfl : k = s.length := by omega
    apply Ends.of_succ
    have hread : m.store dst s (src + UInt32.ofNat s.length) = 0 := by
      rw [store_of_le (ahead hfree hlen le_rfl)]
      exact h.stop
    simp only [strcpyLoop, List.take_length, hread, ne_eq, not_true_eq_false, if_false]
    exact Ends.done (store_step m dst s 0 hlen)
  | succ j ih =>
    intro k hk
    have hlt : k < s.length := by omega
    have hread : m.store dst (s.take k) (src + UInt32.ofNat k) = s[k] := by
      rw [store_of_le (by simpa using (Nat.min_le_left _ _).trans (ahead hfree hlen hlt.le))]
      exact h.bytes k hlt
    have hwrite := store_step m dst (s.take k) s[k] (by simp; omega)
    rw [List.length_take, Nat.min_eq_left hlt.le, List.take_concat_get' s k hlt] at hwrite
    apply Ends.of_succ
    simp only [strcpyLoop, hread, h.nonzero _ (List.getElem_mem hlt), ne_eq, not_false_eq_true, if_true, hwrite]
    have hnext : ∀ a : UInt32, a + UInt32.ofNat k + 1 = a + UInt32.ofNat (k + 1) := by
      intro a
      rw [UInt32.ofNat_add, UInt32.add_assoc]
      rfl
    rw [hnext, hnext]
    exact ih (k + 1) (by omega)

/-- A copy that has overtaken its source reads what it has written. All bytes are nonzero from the start of
the source to where it writes, and stay so. -/
lemma strcpyLoop_runs (hpos : 0 < offset src dst) : ∀ (fuel k : ℕ) (m : Memory),
    (∀ a, offset src a < offset src dst + k → m a ≠ 0) →
    strcpyLoop fuel (dst + UInt32.ofNat k) (src + UInt32.ofNat k) m = none
  | 0, _, _, _ => rfl
  | fuel + 1, k, m, hm => by
    have hread : m (src + UInt32.ofNat k) ≠ 0 := by
      apply hm
      have : offset src (src + UInt32.ofNat k) ≤ k := by
        have hsub : src + UInt32.ofNat k - src = UInt32.ofNat k := by grind
        rw [offset, hsub, UInt32.toNat_ofNat']
        exact Nat.mod_le _ _
      omega
    have hnext : ∀ a : UInt32, a + UInt32.ofNat k + 1 = a + UInt32.ofNat (k + 1) := by
      intro a
      rw [UInt32.ofNat_add, UInt32.add_assoc]
      rfl
    rw [strcpyLoop, if_pos hread, hnext, hnext]
    refine strcpyLoop_runs hpos fuel (k + 1) _ fun a ha => ?_
    by_cases heq : a = dst + UInt32.ofNat k
    · rw [heq, Function.update_self]
      exact hread
    · rw [Function.update_of_ne heq]
      apply hm
      have hne : offset src a ≠ offset src dst + k := by
        intro hoff
        apply heq
        rw [← add_offset src a, hoff, UInt32.ofNat_add, ← UInt32.add_assoc, add_offset]
      omega

lemma spells_store (m : Memory) (dst : UInt32) (hs : ∀ c ∈ s, c ≠ 0) (hlen : s.length < 2 ^ 32) :
    Spells (textAt (m.store dst (s ++ [0])) dst) s where
  bytes k hk := by
    have hview := view_store m dst (s ++ [0]) (k := k) (by simp; omega) (by omega)
    rw [textAt, Int.toNat_natCast, hview, List.getD_eq_getElem?_getD, List.getElem?_append_left hk]
    simp [hk]
  nonzero := hs
  stop := by
    have hview := view_store m dst (s ++ [0]) (k := s.length) (by simp) hlen
    rw [textAt, Int.toNat_natCast, hview]
    simp

/-- **`strcpy` comes to an end exactly if it does not overtake the rest of its source.** Then the string,
with its terminator, is at the destination, and nothing else has changed; a source that begins behind the
destination, or at it, may overlap with it. -/
theorem strcpy_ends_iff (hdst : dst ≠ 0) (hsrc : src ≠ 0) (h : Spells (textAt m src) s) :
    ((∃ fuel r, strcpy dst src m fuel = some r) ↔ ¬ Overtakes dst src s) ∧
      (¬ Overtakes dst src s → Ends (strcpy dst src m) fun r =>
        r = (dst, m.store dst (s ++ [0])) ∧ Spells (textAt r.2 dst) s) := by
  have hends : ¬ Overtakes dst src s → Ends (strcpy dst src m) fun r =>
      r = (dst, m.store dst (s ++ [0])) ∧ Spells (textAt r.2 dst) s := by
    intro hfree
    have hloop := strcpyLoop_ends h hfree s.length 0 (by omega)
    change Ends (fun fuel => strcpy dst src m fuel) _
    simp only [strcpy, if_neg hdst, if_neg hsrc]
    refine Ends.map (f := fun fuel => strcpyLoop fuel dst src m) (P := (· = m.store dst (s ++ [0]))) ?_ ?_
    · have hnone : m.store dst [] = m := by
        funext a
        exact store_of_le (Nat.zero_le _)
      simpa [hnone] using hloop
    · rintro _ rfl
      exact ⟨rfl, spells_store m dst h.nonzero (length_lt h)⟩
  refine ⟨⟨?_, fun hfree => ?_⟩, hends⟩
  · rintro ⟨fuel, r, hrun⟩ ⟨hpos, hle⟩
    have hruns := strcpyLoop_runs hpos fuel 0 m fun a ha => by
      have hk : offset src a < s.length := by omega
      have hbyte := h.bytes _ hk
      rw [textAt_eq, add_offset] at hbyte
      rw [hbyte]
      exact h.nonzero _ (List.getElem_mem hk)
    simp only [strcpy, if_neg hdst, if_neg hsrc] at hrun
    rw [show strcpyLoop fuel dst src m = none by simpa using hruns] at hrun
    simp at hrun
  · obtain ⟨fuel, r, hrun, -⟩ := (hends hfree).exists_run
    exact ⟨fuel, r, hrun⟩

/-- A copy to the next byte does not end; one to the byte before does. -/
theorem strcpy_ends_iff_neighbours :
    let m : Memory := (store (fun _ => 0) 4096 [104, 105, 0])
    (¬ ∃ fuel r, strcpy 4097 4096 m fuel = some r) ∧ ∃ fuel r, strcpy 4095 4096 m fuel = some r := by
  have hspells : Spells (textAt (store (fun _ => 0) 4096 [104, 105, 0]) 4096) [104, 105] :=
    spells_store (s := [104, 105]) _ _ (by simp) (by simp)
  refine ⟨?_, ?_⟩
  · rw [(strcpy_ends_iff (by decide) (by decide) hspells).1, not_not]
    exact ⟨by decide, by decide⟩
  · rw [(strcpy_ends_iff (by decide) (by decide) hspells).1]
    exact fun h => absurd h.2 (by decide)

end Copy

end ArcOS.Util
