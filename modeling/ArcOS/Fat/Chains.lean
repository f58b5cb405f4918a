import ArcOS.Fat.Directory

/-!
Directories along a chain.

The entries of a chain are those of its sectors (`chainEntries`). `answers_iff` says what it is to hand
them out and then end, in terms of the walk over the disk; `WholeChain.walks` gives the walk along a chain
whose links are on the disk and are all found there.
-/

namespace ArcOS.Fat

open Lib Lib.Search

/-! ### The entries of a chain -/

section Entries

variable (dev : Device) (part : Partition) (f : FatData)

/-- The number of sectors of a chain. -/
def chainLength (chain : List UInt32) : ℕ := f.sectorsPerCluster.toNat * chain.length

/-- The entries of a chain. -/
def chainEntries (chain : List UInt32) : List DirectoryEntry :=
  (List.range (16 * chainLength f chain)).map fun k => entryAt (chainSector dev part f chain (k / 16)) k

/-- The sector with an absolute LBA is one of a cluster of the chain. -/
def SectorOf (chain : List UInt32) (lba : UInt32) : Prop :=
  ∃ c ∈ chain, ∃ j < f.sectorsPerCluster.toNat,
    lba = f.clusterToLba c + UInt32.ofNat j + part.partitionOffset

variable {dev part f} {chain : List UInt32}

@[simp] lemma length_chainEntries :
    (chainEntries dev part f chain).length = 16 * chainLength f chain := by
  simp [chainEntries]

lemma getElem?_chainEntries (k : ℕ) : (chainEntries dev part f chain)[k]? =
    if k < 16 * chainLength f chain then some (entryAt (chainSector dev part f chain (k / 16)) k)
    else none := by
  split
  · next h => simp [chainEntries, h]
  · next h => simp [chainEntries, h]

end Entries

/-! ### Walks along a chain -/

section Walks

variable (dev : Device) (part : Partition) (f : FatData) (first : UInt32) (chain : List UInt32)

/-- Sector for sector the walk shows what the chain holds, and it ends where the chain ends. -/
structure ShowsChain : Prop where
  stays : ∀ n < chainLength f chain, ¬ EndsAt dev part f first n ∧
    dev.disk ((cursorAt dev part f first n).lba + part.partitionOffset) = chainSector dev part f chain n
  ends : EndsAt dev part f first (chainLength f chain)

/-- The walk shows the chain, and all its sectors are sectors of the chain. -/
structure WalksChain : Prop extends ShowsChain dev part f first chain where
  inside : ∀ n < chainLength f chain,
    SectorOf part f chain ((cursorAt dev part f first n).lba + part.partitionOffset)

variable {dev part f first chain}

/-- **When reading a directory hands out the entries of a chain.** -/
theorem answers_iff : (∀ k ≤ (chainEntries dev part f chain).length,
      dirAnswers dev part f first k = (chainEntries dev part f chain)[k]?) ↔
    ShowsChain dev part f first chain := by
  simp only [length_chainEntries, getElem?_chainEntries]
  constructor
  · intro h
    have hstays : ∀ n < chainLength f chain, ¬ EndsAt dev part f first n ∧
        dev.disk ((cursorAt dev part f first n).lba + part.partitionOffset) =
          chainSector dev part f chain n := by
      intro n hn
      have hentry : ∀ j < 16, ¬ Over dev part f first (16 * n + j) ∧
          entryAt (dev.disk ((cursorAt dev part f first n).lba + part.partitionOffset)) (16 * n + j) =
            entryAt (chainSector dev part f chain n) (16 * n + j) := by
        intro j hj
        have hk := h (16 * n + j) (by omega)
        have hdiv : (16 * n + j) / 16 = n := by omega
        rw [dirAnswers, if_pos (by omega : 16 * n + j < 16 * chainLength f chain), hdiv] at hk
        split at hk
        · cases hk
        · next hover =>
          refine ⟨hover, ?_⟩
          rw [walkEntry, hdiv] at hk
          exact Option.some.inj hk
      refine ⟨fun hend => (hentry 0 (by omega)).1 ⟨n, by omega, hend⟩, ?_⟩
      exact entryAt_ext n fun j hj => (hentry j hj).2
    refine ⟨hstays, ?_⟩
    have hlast := h (16 * chainLength f chain) le_rfl
    rw [dirAnswers, if_neg (lt_irrefl _)] at hlast
    split at hlast
    · next hover =>
      obtain ⟨n, hn, hend⟩ := hover
      by_cases hlt : n < chainLength f chain
      · exact absurd hend (hstays n hlt).1
      · obtain rfl : n = chainLength f chain := by omega
        exact hend
    · cases hlast
  · rintro ⟨hstays, hends⟩ k hk
    unfold dirAnswers
    split
    · next hover =>
      obtain ⟨n, hn, hend⟩ := hover
      rw [if_neg]
      intro hlt
      exact (hstays n (by omega)).1 hend
    · next hover =>
      have hlt : k < 16 * chainLength f chain := by
        by_contra hge
        exact hover ⟨chainLength f chain, by omega, hends⟩
      rw [if_pos hlt, walkEntry, (hstays (k / 16) (by omega)).2]

/-- Where a cursor that comes to an end mark stands: the buffer is as it was. -/
lemma next_lba (c : DirCursor) : (c.next dev part f).lba =
    if 0xFFFFFFF8 ≤ (c.next dev part f).cluster then c.lba
    else f.clusterToLba (c.next dev part f).cluster + (c.next dev part f).sector := by
  rw [next_cluster]
  simp only [DirCursor.next]
  split
  · unfold DirCursor.step
    split <;> rfl
  · rfl

/-- **Which sectors the reading of a walk along a chain reads**: all of the walk, from the second
on. -/
theorem walk_reads (h : ShowsChain dev part f first chain) {A : UInt32 → Prop}
    (h0 : A ((cursorAt dev part f first 0).lba + part.partitionOffset)) :
    (∀ n, ¬ Over dev part f first (16 * n) →
        ¬ 0xFFFFFFF8 ≤ (cursorAt dev part f first (n + 1)).cluster →
        A ((cursorAt dev part f first (n + 1)).lba + part.partitionOffset)) ↔
      ∀ n < chainLength f chain, A ((cursorAt dev part f first n).lba + part.partitionOffset) := by
  constructor
  · intro hA n
    induction n with
    | zero => exact fun _ => h0
    | succ n ih =>
      intro hn
      by_cases hmark : 0xFFFFFFF8 ≤ (cursorAt dev part f first (n + 1)).cluster
      · rw [cursorAt_succ] at hmark ⊢
        rw [next_lba, if_pos hmark]
        exact ih (by omega)
      · refine hA n ?_ hmark
        rintro ⟨m, hm, hend⟩
        exact (h.stays m (by omega)).1 hend
  · intro hA n hover hmark
    have hlt : n < chainLength f chain := by
      by_contra hge
      exact hover ⟨chainLength f chain, by omega, h.ends⟩
    refine hA (n + 1) (lt_of_le_of_ne hlt ?_)
    intro heq
    rw [show n + 1 = chainLength f chain from heq] at hmark
    exact hmark h.ends.1

end Walks

/-! ### Chains that are linked on the disk -/

section Linked

variable (dev : Device) (part : Partition) (f : FatData) (first : UInt32) (chain : List UInt32)

/-- The window and the cluster after a lookup. -/
def hop (w : UInt32 × UInt32) : UInt32 × UInt32 :=
  (windowTag f w.1 w.2, windowLink dev part f w.1 w.2)

/-- The window once the links of some clusters are looked up, one after the other. -/
def tagAfter (clusters : List UInt32) : UInt32 := clusters.foldl (windowTag f) f.fatCachePosition

/-- No link of the chain is looked up where its entry lies half behind the window. -/
def Unbroken : Prop := ∀ i < chain.length,
  ¬ Straddles { f with fatCachePosition := tagAfter f (chain.take i) } (chain.getD i 0)

/-- A chain from a cluster on, linked on the disk up to an end mark. -/
structure WholeChain : Prop where
  head : chain.head? = some first
  linked : Linked dev part f chain
  ends : 0xFFFFFFF8 ≤ diskLink dev part f (chain.getLastD 0)

variable {dev part f first chain}

lemma unbroken_of_wide (h : f.fatType ≠ 12) : Unbroken f chain := fun _ _ hs => h hs.2.1

variable (dev part first) in
/-- The walk makes a lookup behind every cluster, and goes through its sectors in between. -/
lemma cursorAt_hop (hspc : 0 < f.sectorsPerCluster.toNat) (n : ℕ) :
    ((cursorAt dev part f first n).tag, (cursorAt dev part f first n).cluster) =
        (hop dev part f)^[n / f.sectorsPerCluster.toNat] (f.fatCachePosition, first) ∧
      (cursorAt dev part f first n).sector.toNat = n % f.sectorsPerCluster.toNat := by
  induction n with
  | zero => simp [cursorAt]
  | succ n ih =>
    obtain ⟨hhop, hsector⟩ := ih
    obtain ⟨hsame, hnext⟩ := succ_div_mod n hspc
    have hsize := f.sectorsPerCluster.toNat_lt
    have hsucc : ((cursorAt dev part f first n).sector + 1).toNat =
        n % f.sectorsPerCluster.toNat + 1 := by
      have := Nat.mod_lt n hspc
      rw [UInt32.toNat_add, hsector, show (1 : UInt32).toNat = 1 from rfl]
      omega
    have hfields : ((cursorAt dev part f first (n + 1)).tag, (cursorAt dev part f first (n + 1)).cluster) =
          (((cursorAt dev part f first n).step dev part f).tag,
            ((cursorAt dev part f first n).step dev part f).cluster) ∧
        (cursorAt dev part f first (n + 1)).sector =
          ((cursorAt dev part f first n).step dev part f).sector := by
      rw [cursorAt_succ]
      simp only [DirCursor.next]
      split <;> exact ⟨rfl, rfl⟩
    rw [hfields.1, hfields.2]
    unfold DirCursor.step
    split
    · next hle =>
      rw [UInt32.le_iff_toNat_le, hsucc] at hle
      obtain ⟨hdiv, hmod⟩ := hnext hle
      rw [hdiv, hmod, Function.iterate_succ_apply', ← hhop]
      exact ⟨rfl, rfl⟩
    · next hle =>
      rw [UInt32.le_iff_toNat_le, hsucc] at hle
      obtain ⟨hdiv, hmod⟩ := hsame (by omega)
      rw [hdiv, hmod]
      exact ⟨hhop, hsucc⟩

lemma cursorAt_lba (n : ℕ) (h : ¬ 0xFFFFFFF8 ≤ (cursorAt dev part f first n).cluster) :
    (cursorAt dev part f first n).lba = f.clusterToLba (cursorAt dev part f first n).cluster +
      (cursorAt dev part f first n).sector := by
  cases n with
  | zero => simp [cursorAt]
  | succ n =>
    rw [cursorAt_succ] at h ⊢
    rw [next_lba, if_neg h]

lemma getD_last (l : List UInt32) {i : ℕ} (h : i + 1 = l.length) : l.getD i 0 = l.getLastD 0 := by
  rw [List.getLastD_eq_getLast?, List.getLast?_eq_getElem?, List.getD_eq_getElem?_getD,
    show l.length - 1 = i by omega]

/-- The lookups behind the clusters of a whole chain lead along it, and then to its end mark. -/
lemma WholeChain.hops (h : WholeChain dev part f first chain) (hu : Unbroken f chain) :
    ∀ i ≤ chain.length, (hop dev part f)^[i] (f.fatCachePosition, first) = (tagAfter f (chain.take i),
      if i < chain.length then chain.getD i 0 else diskLink dev part f (chain.getLastD 0)) := by
  intro i
  induction i with
  | zero =>
    intro _
    obtain ⟨c, cs, rfl⟩ : ∃ c cs, chain = c :: cs := by
      cases chain with
      | nil => cases h.head
      | cons c cs => exact ⟨c, cs, rfl⟩
    have hfirst : c = first := Option.some.inj h.head
    simp [tagAfter, hfirst]
  | succ i ih =>
    intro hi
    rw [Function.iterate_succ_apply', ih (by omega), if_pos (by omega)]
    have htake : chain.take (i + 1) = chain.take i ++ [chain.getD i 0] := by
      rw [List.take_succ_eq_append_getElem (by omega), List.getD_eq_getElem _ _ (by omega)]
    have htag : tagAfter f (chain.take (i + 1)) =
        windowTag f (tagAfter f (chain.take i)) (chain.getD i 0) := by
      rw [htake, tagAfter, List.foldl_append]
      rfl
    have hlink := windowLink_eq dev part f (tagAfter f (chain.take i)) (chain.getD i 0) (hu i (by omega))
    simp only [hop, hlink, htag, Prod.mk.injEq, true_and]
    split
    · next hlt => exact h.linked.link i hlt
    · next hge => rw [getD_last chain (by omega : i + 1 = chain.length)]

/-- **The walk along a whole chain** whose links are all found where they are looked up. -/
theorem WholeChain.walks (h : WholeChain dev part f first chain) (hu : Unbroken f chain)
    (hspc : 0 < f.sectorsPerCluster.toNat) (hsize : chainLength f chain % 2 ^ 23 ≠ 0) :
    WalksChain dev part f first chain := by
  have hplace : ∀ n < chainLength f chain, (cursorAt dev part f first n).cluster =
        chain.getD (n / f.sectorsPerCluster.toNat) 0 ∧
      chain.getD (n / f.sectorsPerCluster.toNat) 0 ∈ chain := by
    intro n hn
    have hi : n / f.sectorsPerCluster.toNat < chain.length := Nat.div_lt_of_lt_mul hn
    have hhop := (cursorAt_hop dev part first hspc n).1
    rw [h.hops hu _ hi.le, if_pos hi] at hhop
    refine ⟨congrArg Prod.snd hhop, ?_⟩
    rw [List.getD_eq_getElem _ _ hi]
    exact List.getElem_mem hi
  have hmark : ∀ n < chainLength f chain, ¬ 0xFFFFFFF8 ≤ (cursorAt dev part f first n).cluster := by
    intro n hn hge
    obtain ⟨hcluster, hmem⟩ := hplace n hn
    have hlt := h.linked.cluster _ hmem
    rw [← hcluster, UInt32.lt_iff_toNat_lt] at hlt
    rw [UInt32.le_iff_toNat_le] at hge
    omega
  have hlba : ∀ n < chainLength f chain, (cursorAt dev part f first n).lba =
      f.clusterToLba (chain.getD (n / f.sectorsPerCluster.toNat) 0) +
        UInt32.ofNat (n % f.sectorsPerCluster.toNat) := by
    intro n hn
    rw [cursorAt_lba n (hmark n hn), (hplace n hn).1,
      ← (cursorAt_hop dev part first hspc n).2, UInt32.ofNat_toNat]
  refine ⟨⟨fun n hn => ⟨fun hend => hmark n hn hend.1, ?_⟩, ?_, hsize⟩, fun n hn => ?_⟩
  · rw [hlba n hn]
    rfl
  · have hhop := (cursorAt_hop dev part first hspc (chainLength f chain)).1
    rw [chainLength, Nat.mul_div_cancel_left _ hspc, h.hops hu _ le_rfl, if_neg (lt_irrefl _)] at hhop
    have hcluster := congrArg Prod.snd hhop
    dsimp only at hcluster
    rw [chainLength, hcluster]
    exact h.ends
  · exact ⟨_, (hplace n hn).2, _, Nat.mod_lt _ hspc, by rw [hlba n hn]⟩

end Linked

end ArcOS.Fat
