import ArcOS.Elf.Reading

/-!
What a segment is made of.

`loadedByte` is the byte that a program header leaves at an address: of the file only the part behind the
full chunks of 64 KiB, zeros as far as the `uint16_t` count of `memset` reaches, and what was there before
elsewhere. The loops of `ELF_Read` are followed by `seekLoop_at` and `loadLoop_at`, one program header by
`loadSegment_at`, and all of them by `loadSegments_at`.
-/

namespace ArcOS.Elf

open Lib Lib.Memory Fat

variable {m : Memory} {dst src ph va : UInt32}

/-! ### Copying -/

theorem memcpy_apart (m : Memory) (dst src : UInt32) (num : UInt16)
    (h : ∀ a, offset dst a < num.toNat → num.toNat ≤ offset src a) :
    memcpy dst src num m = m.store dst (stretch (m.view src) 0 num.toNat) := by
  have hnum := num.toNat_lt
  suffices hn : ∀ n ≤ num.toNat, (List.range n).foldl
      (fun m i => m.store (dst + UInt32.ofNat i) [m (src + UInt32.ofNat i)]) m =
      m.store dst (stretch (m.view src) 0 n) from hn _ le_rfl
  intro n hn
  induction n with
  | zero =>
    funext a
    exact (store_of_le (Nat.zero_le _)).symm
  | succ n ih =>
    have hread : m.store dst (stretch (m.view src) 0 n) (src + UInt32.ofNat n) = m.view src n := by
      apply store_of_le
      rw [length_stretch]
      by_contra hlt
      have := h (src + UInt32.ofNat n) (by omega)
      rw [offset_add src (by omega)] at this
      omega
    have hjoin := store_store m dst (stretch (m.view src) 0 n) [m.view src n]
      (by simp; omega) (by simp; omega)
    rw [length_stretch] at hjoin
    rw [List.range_succ, List.foldl_append, ih (by omega), List.foldl_cons, List.foldl_nil, hread,
      hjoin, stretch_add]
    simp [stretch]

/-! ### The buffers -/

lemma buffers_apart {a : UInt32} (h : offset headerBuffer a < 0x10000) :
    0x10000 ≤ offset loadBuffer a := by
  have hs := offset_shift headerBuffer a (k := 0x10000) (by omega)
  rw [show headerBuffer + UInt32.ofNat 0x10000 = loadBuffer from by decide] at hs
  rw [if_neg (by omega)] at hs
  omega

lemma header_congr {m m' : Memory} (h : ∀ a, offset ph a < 32 → m' a = m a) {j : ℕ} (hj : j < 32) :
    m'.view ph j = m.view ph j :=
  h _ (by rw [offset_add ph (by omega)]; exact hj)

lemma word32_setWord (m : Memory) (ph v : UInt32) (k : ℕ) :
    word32 ((m.store (ph + UInt32.ofNat k) (bytes32 v)).view ph) k = v := by
  refine (word32_congr fun i _ => ?_).trans (word32_store m (ph + UInt32.ofNat k) v)
  rw [view_shift, Nat.zero_add]

lemma setWord_of_ne {a v : UInt32} {k : ℕ} (hk : k + 4 < 2 ^ 32)
    (h : offset ph a < k ∨ k + 4 ≤ offset ph a) :
    m.store (ph + UInt32.ofNat k) (bytes32 v) a = m a := by
  apply store_of_le
  have hs := offset_shift ph a (k := k) (by omega)
  have hlt := offset_lt ph a
  rw [show (bytes32 v).length = 4 from rfl, hs]
  split <;> omega

lemma shouldRead_toNat (n : UInt32) : (shouldRead n).toNat = min n.toNat 0x10000 := by
  unfold shouldRead
  simp only [UInt32.lt_iff_toNat_lt, show memoryLoadSize.toNat = 0x10000 from rfl]
  split
  · omega
  · rw [show memoryLoadSize.toNat = 0x10000 from rfl]
    omega

lemma sub_shouldRead_toNat (n : UInt32) : (n - shouldRead n).toNat = n.toNat - (shouldRead n).toNat :=
  UInt32.toNat_sub_of_le _ _ (by rw [UInt32.le_iff_toNat_le, shouldRead_toNat]; omega)

/-- Behind the chunk an address is as much closer, or around the end of the memory. -/
lemma offset_shouldRead (va n a : UInt32) : offset (va + shouldRead n) a =
    if (shouldRead n).toNat ≤ offset va a then offset va a - (shouldRead n).toNat
    else offset va a + 2 ^ 32 - (shouldRead n).toNat := by
  have h := offset_shift va a (k := (shouldRead n).toNat) (by rw [shouldRead_toNat]; omega)
  rwa [UInt32.ofNat_toNat] at h

lemma toNat_eq_zero {n : UInt32} (h : ¬ 0 < n) : n.toNat = 0 := by
  rw [UInt32.lt_iff_toNat_lt] at h
  simpa using h

/-! ### The loops -/

variable {dev : Device} {part : Partition} {overlay : Overlay} {f : FatData} {entry : DirectoryEntry}
  {chain : List UInt32} {i : Fin 10} {k : ℕ} {s s' : Loader}

lemma not_hitsFatData {address : UInt32} {count : ℕ}
    (h : ∀ a, offset address a < count → 0x10000 ≤ offset fatData a) : ¬ HitsFatData address count := by
  have hself : ∀ a, offset a a = 0 := fun a => by rw [offset, UInt32.sub_self]; rfl
  rintro (hit | ⟨hpos, hit⟩)
  · have := h fatData hit
    rw [hself] at this
    omega
  · have := h address (by rwa [hself])
    omega

lemma written_fat (overlay : Overlay) (address : UInt32) (count : UInt16) (m : Memory) (s : Loader)
    (h : ∀ a, offset address a < count.toNat → 0x10000 ≤ offset fatData a) :
    (s.written overlay address count m).fat = s.fat := if_neg (not_hitsFatData h)

lemma At.inside (h : At dev part f entry chain i k s.fat) : k ≤ entry.size.toNat := by
  have hin := h.onChain.cursor.inside
  rwa [h.size, FatData.fd_slot, h.position] at hin

lemma seekLoop_done {file : Option Loc} (h : ¬ 0 < ELFProgramHeader.offset (s.header ph)) :
    ∀ rounds, seekLoop dev part file ph rounds s = (.ok true, s)
  | 0 => by rw [seekLoop, if_neg h]
  | rounds + 1 => by rw [seekLoop, if_neg h]

lemma loadLoop_done {file : Option Loc} (h : ¬ 0 < ELFProgramHeader.fileSize (s.header ph)) :
    ∀ rounds, loadLoop dev part overlay file ph rounds va s = (.ok true, s)
  | 0 => by rw [loadLoop, if_neg h]
  | rounds + 1 => by rw [loadLoop, if_neg h]

/-- **A chunk is read**: it is in the load buffer, and nothing else is written. -/
theorem chunk_at (hrel : dev.Reliable) (hspc : 0 < f.sectorsPerCluster.toNat)
    (hfile : IsFile dev part f entry chain) (hat : At dev part f entry chain i k s.fat)
    {n : UInt32} {text : String}
    (h : readAll dev part (some (.slot i)) (shouldRead n) loadBuffer text s = (.ok true, s'))
    (hsound : ∀ e ∈ s'.log, Sound dev part entry e) :
    k + (shouldRead n).toNat ≤ entry.size.toNat ∧ s'.entryPoint = s.entryPoint ∧
      At dev part f entry chain i (k + (shouldRead n).toNat) s'.fat ∧
      (∀ a, 0x10000 ≤ offset loadBuffer a → s'.mem a = s.mem a) ∧
      ∀ j < (shouldRead n).toNat, s'.mem.view loadBuffer j = fileByte dev part f entry chain (k + j) := by
  have hn := shouldRead_toNat n
  have hin := hat.inside
  obtain ⟨hle, hmem, hentry, hat'⟩ := readAll_at hrel hspc hfile hat h hsound
  refine ⟨by omega, hentry, hat', fun a ha => ?_, fun j hj => ?_⟩
  · rw [hmem]
    exact store_of_le (by rw [length_stretch]; omega)
  · rw [hmem, view_store _ _ _ (by rw [length_stretch]; exact hj) (by omega),
      List.getD_eq_getElem?_getD, getElem?_stretch, if_pos hj, Option.getD_some]

/-- **The seek**: the position moves by the offset of the segment, and nothing is written but the load buffer
and the field that is counted down. -/
theorem seekLoop_at (hrel : dev.Reliable) (hspc : 0 < f.sectorsPerCluster.toNat)
    (hfile : IsFile dev part f entry chain)
    (hph : ∀ a, offset ph a < 32 → 0x10000 ≤ offset loadBuffer a) :
    ∀ (rounds : ℕ) (k : ℕ) (s : Loader), At dev part f entry chain i k s.fat →
      seekLoop dev part (some (.slot i)) ph rounds s = (.ok true, s') →
      (∀ e ∈ s'.log, Sound dev part entry e) →
      k + (ELFProgramHeader.offset (s.header ph)).toNat ≤ entry.size.toNat ∧
        At dev part f entry chain i (k + (ELFProgramHeader.offset (s.header ph)).toNat) s'.fat ∧
        s'.entryPoint = s.entryPoint ∧
        ∀ a, 0x10000 ≤ offset loadBuffer a → offset ph a < 4 ∨ 8 ≤ offset ph a → s'.mem a = s.mem a := by
  intro rounds
  induction rounds with
  | zero =>
    intro k s hat h _
    by_cases h0 : 0 < ELFProgramHeader.offset (s.header ph)
    · rw [seekLoop, if_pos h0] at h
      cases h
    · rw [seekLoop_done h0] at h
      cases h
      rw [toNat_eq_zero h0]
      exact ⟨hat.inside, hat, rfl, fun _ _ _ => rfl⟩
  | succ rounds ih =>
    intro k s hat h hsound
    by_cases h0 : 0 < ELFProgramHeader.offset (s.header ph)
    · rw [seekLoop, if_pos h0] at h
      split at h
      · next t hread =>
        have hsound' : ∀ e ∈ t.log, Sound dev part entry e := fun e he => hsound e
          ((h ▸ seekLoop_log dev part (some (.slot i)) ph rounds _).subset he)
        obtain ⟨hle, hentry, hat', hkeep, -⟩ := chunk_at hrel hspc hfile hat hread hsound'
        generalize hn : ELFProgramHeader.offset (s.header ph) = n at *
        have hread32 := shouldRead_toNat n
        have hsame : ELFProgramHeader.offset (t.header ph) = n :=
          (word32_congr fun j hj => header_congr (fun a ha => hkeep a (hph a ha)) (by omega)).trans hn
        have hfield : ELFProgramHeader.offset ((t.setWord (ph + 4) (n - shouldRead n)).header ph) =
            n - shouldRead n := word32_setWord t.mem ph _ 4
        rw [hsame] at h
        obtain ⟨hsize, hat'', hentry', hframe⟩ := ih (k + (shouldRead n).toNat) _ (by exact hat') h hsound
        rw [hfield, sub_shouldRead_toNat] at hsize hat''
        rw [show k + (shouldRead n).toNat + (n.toNat - (shouldRead n).toNat) = k + n.toNat by omega]
          at hsize hat''
        refine ⟨hsize, hat'', hentry'.trans hentry, fun a ha hne => ?_⟩
        rw [hframe a ha hne, ← hkeep a ha]
        exact setWord_of_ne (k := 4) (by omega) hne
      · next hne =>
        exact absurd h (hne _)
    · rw [seekLoop_done h0] at h
      cases h
      rw [toNat_eq_zero h0]
      exact ⟨hat.inside, hat, rfl, fun _ _ _ => rfl⟩

/-- The count of `memcpy` after a read: a full chunk counts as nothing. -/
lemma shouldRead_toUInt16 (n : UInt32) :
    (shouldRead n).toUInt16.toNat = if n.toNat < 0x10000 then n.toNat else 0 := by
  rw [UInt32.toNat_toUInt16, shouldRead_toNat]
  split <;> omega

/-- One round of the copy: what is copied is the chunk, if it is not a full one. -/
lemma copyRound_mem {file : ℕ → UInt8} {n : UInt32} {m' : Memory}
    (hva : ∀ a, offset va a < n.toNat → 0x10000 ≤ offset loadBuffer a)
    (hm : ∀ j < n.toNat, j < 0x10000 → m'.view loadBuffer j = file (k + j)) (a : UInt32) :
    memcpy va loadBuffer (shouldRead n).toUInt16 m' a =
      if n.toNat < 0x10000 ∧ offset va a < n.toNat then file (k + offset va a) else m' a := by
  have hcount := shouldRead_toUInt16 n
  have hcopy := memcpy_apart m' va loadBuffer (shouldRead n).toUInt16
    fun a ha => by
      rw [hcount] at ha ⊢
      split at ha
      · next hlt =>
        rw [if_pos hlt]
        have := hva a ha
        omega
      · omega
  rw [hcopy, hcount]
  split
  · next hlt =>
    split
    · next hin =>
      rw [store_of_lt (by simpa using hin.2), List.getD_eq_getElem?_getD, getElem?_stretch,
        if_pos hin.2, Option.getD_some, Nat.zero_add]
      exact hm _ hin.2 (by omega)
    · next hout => exact store_of_le (by simp; omega)
  · next hlt =>
    rw [if_neg (by omega)]
    exact store_of_le (by simp)

/-- One round of the copy, from the chunk in the load buffer: the field is counted down, and of the rest of
the memory only the chunk is written. -/
theorem copyRound_at {file : ℕ → UInt8} {n : UInt32} {m' : Memory}
    (hm : m' = memcpy va loadBuffer (shouldRead n).toUInt16
      (m.store (ph + 16) (bytes32 (n - shouldRead n))))
    (hph : ∀ a, offset ph a < 32 → 0x10000 ≤ offset loadBuffer a)
    (hva : ∀ a, offset va a < n.toNat → 0x10000 ≤ offset loadBuffer a ∧ 32 ≤ offset ph a)
    (hbuf : ∀ j < (shouldRead n).toNat, m.view loadBuffer j = file (k + j)) :
    ELFProgramHeader.fileSize (m'.view ph) = n - shouldRead n ∧
      ∀ a, offset ph a < 16 ∨ 20 ≤ offset ph a → m' a =
        if n.toNat < 0x10000 ∧ offset va a < n.toNat then file (k + offset va a) else m a := by
  -- the memory when the field is counted down, before the copy
  generalize hm₁ : m.store (ph + 16) (bytes32 (n - shouldRead n)) = m₁ at hm
  have hkeep : ∀ a, offset ph a < 16 ∨ 20 ≤ offset ph a → m₁ a = m a := fun a hne => by
    rw [← hm₁]
    exact setWord_of_ne (k := 16) (by omega) hne
  have hfar : ∀ a, offset loadBuffer a < 0x10000 → 32 ≤ offset ph a := fun a ha => by
    by_contra hlt
    have := hph a (by omega)
    omega
  have hcopy : ∀ a, m' a =
      if n.toNat < 0x10000 ∧ offset va a < n.toNat then file (k + offset va a) else m₁ a := fun a => by
    rw [hm]
    refine copyRound_mem (fun a ha => (hva a ha).1) (fun j hj hj' => ?_) a
    have hoff := offset_add loadBuffer (k := j) (by omega)
    rw [view, hkeep _ (.inr (by have := hfar _ (hoff.trans_lt hj'); omega))]
    exact hbuf j (by rw [shouldRead_toNat]; omega)
  refine ⟨?_, fun a hne => by rw [hcopy a, hkeep a hne]⟩
  refine (word32_congr fun j hj => header_congr (m := m₁) (fun a ha => ?_) (by omega)).trans ?_
  · rw [hcopy, if_neg fun hin => by have := (hva a hin.2).2; omega]
  · rw [← hm₁]
    exact word32_setWord m ph _ 16

lemma chunks_join {n off k : ℕ} {file : ℕ → UInt8} {old : UInt8} (hn : n < 2 ^ 32)
    (hoff : off < 2 ^ 32) :
    (if 0x10000 * ((n - min n 0x10000) / 0x10000) ≤ (if min n 0x10000 ≤ off then off - min n 0x10000
          else off + 2 ^ 32 - min n 0x10000) ∧
        (if min n 0x10000 ≤ off then off - min n 0x10000 else off + 2 ^ 32 - min n 0x10000) <
          n - min n 0x10000 then
      file (k + min n 0x10000 +
        (if min n 0x10000 ≤ off then off - min n 0x10000 else off + 2 ^ 32 - min n 0x10000))
    else if n < 0x10000 ∧ off < n then file (k + off) else old) =
      if 0x10000 * (n / 0x10000) ≤ off ∧ off < n then file (k + off) else old := by
  by_cases hbig : n < 0x10000
  · rw [if_neg (by omega), show 0x10000 * (n / 0x10000) = 0 by omega]
    exact if_congr (by omega) rfl rfl
  · rw [show min n 0x10000 = 0x10000 by omega, if_neg (fun h : n < 0x10000 ∧ off < n => hbig h.1)]
    by_cases hfirst : 0x10000 ≤ off
    · rw [if_pos hfirst, show k + 0x10000 + (off - 0x10000) = k + off by omega]
      exact if_congr (by omega) rfl rfl
    · rw [if_neg hfirst, if_neg (by omega), if_neg (by omega)]

/-- **The copy**: of the bytes of the segment those behind its full chunks are brought to memory, and
nothing else is written but the load buffer and the field that is counted down. The segment is apart from the
load buffer, its header and the data of the FAT layer. -/
theorem loadLoop_at (hrel : dev.Reliable) (hspc : 0 < f.sectorsPerCluster.toNat)
    (hfile : IsFile dev part f entry chain)
    (hph : ∀ a, offset ph a < 32 → 0x10000 ≤ offset loadBuffer a) :
    ∀ (rounds : ℕ) (va : UInt32) (k : ℕ) (s : Loader), At dev part f entry chain i k s.fat →
      loadLoop dev part overlay (some (.slot i)) ph rounds va s = (.ok true, s') →
      (∀ e ∈ s'.log, Sound dev part entry e) →
      (∀ a, offset va a < (ELFProgramHeader.fileSize (s.header ph)).toNat →
        0x10000 ≤ offset loadBuffer a ∧ 32 ≤ offset ph a ∧ 0x10000 ≤ offset fatData a) →
      k + (ELFProgramHeader.fileSize (s.header ph)).toNat ≤ entry.size.toNat ∧
        At dev part f entry chain i (k + (ELFProgramHeader.fileSize (s.header ph)).toNat) s'.fat ∧
        s'.entryPoint = s.entryPoint ∧
        ∀ a, 0x10000 ≤ offset loadBuffer a → offset ph a < 16 ∨ 20 ≤ offset ph a → s'.mem a =
          if 0x10000 * ((ELFProgramHeader.fileSize (s.header ph)).toNat / 0x10000) ≤ offset va a ∧
              offset va a < (ELFProgramHeader.fileSize (s.header ph)).toNat then
            fileByte dev part f entry chain (k + offset va a) else s.mem a := by
  intro rounds
  induction rounds with
  | zero =>
    intro va k s hat h _ _
    by_cases h0 : 0 < ELFProgramHeader.fileSize (s.header ph)
    · rw [loadLoop, if_pos h0] at h
      cases h
    · rw [loadLoop_done h0] at h
      cases h
      rw [toNat_eq_zero h0]
      exact ⟨hat.inside, hat, rfl, fun a _ _ => by rw [if_neg (by omega)]⟩
  | succ rounds ih =>
    intro va k s hat h hsound hva
    by_cases h0 : 0 < ELFProgramHeader.fileSize (s.header ph)
    · rw [loadLoop, if_pos h0] at h
      dsimp only at h
      split at h
      · next t hread =>
        have hsound' : ∀ e ∈ t.log, Sound dev part entry e := fun e he => hsound e
          (((List.suffix_cons _ _).trans
            (h ▸ loadLoop_log dev part overlay (some (.slot i)) ph rounds _ _)).subset he)
        obtain ⟨hle, hentry, hat', hkeep, hbuf⟩ := chunk_at hrel hspc hfile hat hread hsound'
        generalize hn : ELFProgramHeader.fileSize (s.header ph) = n at *
        have hread32 := shouldRead_toNat n
        have hsame : ELFProgramHeader.fileSize (t.header ph) = n :=
          (word32_congr fun j hj => header_congr (fun a ha => hkeep a (hph a ha)) (by omega)).trans hn
        simp only [Loader.setWord, hsame] at h
        generalize hm : memcpy va loadBuffer (shouldRead n).toUInt16
          (t.mem.store (ph + 16) (bytes32 (n - shouldRead n))) = m at h
        obtain ⟨hfield, hcopy⟩ := copyRound_at hm.symm hph (fun a ha => ⟨(hva a ha).1, (hva a ha).2.1⟩) hbuf
        have hcount := shouldRead_toUInt16 n
        have hkept := written_fat overlay va (shouldRead n).toUInt16 m
          (t.setWord (ph + 16) (n - shouldRead n)) fun a ha => (hva a (by
            rw [hcount] at ha
            split at ha <;> omega)).2.2
        simp only [Loader.setWord] at hkept
        obtain ⟨hsize, hat'', hentry', hframe⟩ := ih (va + shouldRead n) (k + (shouldRead n).toNat) _
          (by rw [hkept]; exact hat') h hsound fun a ha => hva a (by
            rw [Loader.header, Loader.written, hfield, sub_shouldRead_toNat, offset_shouldRead] at ha
            have := n.toNat_lt
            split at ha <;> omega)
        simp only [Loader.header, Loader.written, hfield, sub_shouldRead_toNat] at hsize hat'' hframe
        rw [show k + (shouldRead n).toNat + (n.toNat - (shouldRead n).toNat) = k + n.toNat by omega] at hat''
        refine ⟨by omega, hat'', hentry'.trans hentry, fun a ha hne => ?_⟩
        rw [hframe a ha hne, hcopy a hne, hkeep a ha, offset_shouldRead, hread32]
        exact chunks_join n.toNat_lt (offset_lt va a)
      · next hne =>
        exact absurd h (hne _)
    · rw [loadLoop_done h0] at h
      cases h
      rw [toNat_eq_zero h0]
      exact ⟨hat.inside, hat, rfl, fun a _ _ => by rw [if_neg (by omega)]⟩

/-! ### Program headers -/

lemma loadFile_null {fuel : ℕ} {path : List UInt8} {name : NameBuffer}
    (h : loadFile dev part overlay fuel path name ph va s = (.ok true, s')) :
    ∃ p t, fatOpen dev part fuel path name s = (.ok (some p), t) := by
  unfold loadFile at h
  split at h
  · cases h
  next fd t hopen =>
  cases fd with
  | some p => exact ⟨p, t, hopen⟩
  | none =>
    split at h
    · split at h
      · cases h
      · next hne => exact absurd h (hne _)
    · next hne => exact absurd h (hne _)

theorem loadFile_at (hrel : dev.Reliable) (hspc : 0 < f.sectorsPerCluster.toNat)
    (hfile : IsFile dev part f entry chain)
    (hph : ∀ a, offset ph a < 32 → 0x10000 ≤ offset loadBuffer a) (hs : Serving dev part f s)
    {fuel : ℕ} {path : List UInt8} {name : NameBuffer}
    (h : loadFile dev part overlay fuel path name ph va s = (.ok true, s'))
    (hsound : ∀ e ∈ s'.log, Sound dev part entry e)
    (hva : ∀ a, offset va a < (ELFProgramHeader.fileSize (s.header ph)).toNat →
      0x10000 ≤ offset loadBuffer a ∧ 32 ≤ offset ph a ∧ 0x10000 ≤ offset fatData a) :
    (ELFProgramHeader.offset (s.header ph)).toNat + (ELFProgramHeader.fileSize (s.header ph)).toNat ≤
        entry.size.toNat ∧
      Serving dev part f s' ∧ s'.entryPoint = s.entryPoint ∧
      ∀ a, 0x10000 ≤ offset loadBuffer a → 32 ≤ offset ph a → s'.mem a =
        if 0x10000 * ((ELFProgramHeader.fileSize (s.header ph)).toNat / 0x10000) ≤ offset va a ∧
            offset va a < (ELFProgramHeader.fileSize (s.header ph)).toNat then
          fileByte dev part f entry chain
            ((ELFProgramHeader.offset (s.header ph)).toNat + offset va a) else s.mem a := by
  obtain ⟨p, t, hopen⟩ := loadFile_null h
  unfold loadFile at h
  rw [hopen] at h
  dsimp only at h
  split at h
  · next u hseek =>
    split at h
    · next v hload =>
      have hstate : (fatClose (some p) v).2 = s' := congrArg Prod.snd h
      have hv : v.log <:+ s'.log := by
        rw [← hstate]
        exact (fatClose_extends dev part (some p) v).log
      have hu := loadLoop_log dev part overlay (some p) ph fuel va u
      have ht := seekLoop_log dev part (some p) ph fuel t
      rw [hload] at hu
      rw [hseek] at ht
      obtain ⟨i, rfl, hat, hmem, hentry⟩ := fatOpen_at hrel hfile hs hopen fun e he =>
        hsound e ((ht.trans (hu.trans hv)).subset he)
      obtain ⟨-, hat', hentry', hframe⟩ := seekLoop_at hrel hspc hfile hph _ 0 t hat hseek fun e he =>
        hsound e ((hu.trans hv).subset he)
      have hheader : t.header ph = s.header ph := by rw [Loader.header, hmem]; rfl
      have hfield : ELFProgramHeader.fileSize (u.header ph) = ELFProgramHeader.fileSize (s.header ph) := by
        rw [← hheader]
        apply word32_congr
        intro j hj
        have hoff := offset_add ph (k := 16 + j) (by omega)
        exact hframe _ (hph _ (by omega)) (.inr (by omega))
      rw [hheader, Nat.zero_add] at hat'
      obtain ⟨hsize, hend, hentry'', hframe'⟩ := loadLoop_at hrel hspc hfile hph _ va _ u hat' hload
        (fun e he => hsound e (hv.subset he)) (by rw [hfield]; exact hva)
      rw [hfield] at hsize hframe'
      have hmem' : s'.mem = v.mem := by rw [← hstate]; rfl
      have hpoint : s'.entryPoint = v.entryPoint := by rw [← hstate]; rfl
      have hclose := fatClose_extends dev part (some (.slot i)) v
      rw [hstate] at hclose
      have hv' : Serving dev part f v := ⟨hend.onChain.volume, hend.onChain.cache⟩
      refine ⟨hsize, hv'.extends hrel hclose, ?_, fun a ha hne => ?_⟩
      · rw [hpoint, hentry'', hentry', hentry]
      · rw [hmem', hframe' a ha (.inr (by omega)), hframe a ha (.inr (by omega)), hmem]
    · next hne => exact absurd h (hne _)
  · next hne => exact absurd h (hne _)

/-- The byte that a program header leaves at an address, on bytes of the file and of the memory before. -/
def loadedByte (file b : ℕ → UInt8) (old : Memory) (a : UInt32) : UInt8 :=
  if 0x10000 * ((ELFProgramHeader.fileSize b).toNat / 0x10000) ≤
        offset (ELFProgramHeader.virtualAddress b) a ∧
      offset (ELFProgramHeader.virtualAddress b) a < (ELFProgramHeader.fileSize b).toNat then
    file ((ELFProgramHeader.offset b).toNat + offset (ELFProgramHeader.virtualAddress b) a)
  else if offset (ELFProgramHeader.virtualAddress b) a < (ELFProgramHeader.memorySize b).toNat % 0x10000
    then 0 else old a

/-- The memory behind a program header. -/
def segmentMemory (file b : ℕ → UInt8) (old : Memory) : Memory :=
  if ELFProgramHeader.type b = programTypeLoad then loadedByte file b old else old

/-- The range of a segment in memory. -/
def Covers (b : ℕ → UInt8) (a : UInt32) : Prop :=
  ELFProgramHeader.type b = programTypeLoad ∧
    offset (ELFProgramHeader.virtualAddress b) a < (ELFProgramHeader.memorySize b).toNat

/-- A program header whose segment fits its range, and whose range is apart from what the loader works
with: its two buffers and the data of the FAT layer. -/
structure Fits (b : ℕ → UInt8) : Prop where
  size : ELFProgramHeader.type b = programTypeLoad →
    ELFProgramHeader.fileSize b ≤ ELFProgramHeader.memorySize b
  header : ∀ a, Covers b a → 0x10000 ≤ offset headerBuffer a
  load : ∀ a, Covers b a → 0x10000 ≤ offset loadBuffer a
  fat : ∀ a, Covers b a → 0x10000 ≤ offset fatData a

lemma segmentMemory_of_not_covers {file b : ℕ → UInt8} {old : Memory} {a : UInt32} (h : Fits b)
    (ha : ¬ Covers b a) : segmentMemory file b old a = old a := by
  unfold segmentMemory
  split
  · next ht =>
    have hsize := h.size ht
    have hout : ¬ offset (ELFProgramHeader.virtualAddress b) a < (ELFProgramHeader.memorySize b).toNat :=
      fun hlt => ha ⟨ht, hlt⟩
    rw [UInt32.le_iff_toNat_le] at hsize
    rw [loadedByte, if_neg (by omega), if_neg (by omega)]
  · rfl

/-! ### A segment that is begun -/

/-- The segment that a program header names is cleared, as far as the count of `memset` reaches. -/
def Loader.cleared (overlay : Overlay) (b : ℕ → UInt8) (s : Loader) : Loader :=
  let memorySize := (ELFProgramHeader.memorySize b).toUInt16
  s.written overlay (ELFProgramHeader.virtualAddress b) memorySize
    (memset (ELFProgramHeader.virtualAddress b) 0 memorySize s.mem)

section Begun

variable {b : ℕ → UInt8} {fuel : ℕ} {path : List UInt8} {name : NameBuffer}

lemma loadSegment_other (h : ELFProgramHeader.type (s.header ph) ≠ programTypeLoad) :
    loadSegment dev part overlay fuel path name ph s = (.ok true, s) := by
  rw [loadSegment, if_neg h]

variable (hb : ∀ j < 32, s.header ph j = b j)
include hb

lemma header_field {k : ℕ} (hk : k + 4 ≤ 32) : word32 (s.header ph) k = word32 b k :=
  word32_congr fun j hj => hb (k + j) (by omega)

lemma loadSegment_load (ht : ELFProgramHeader.type b = programTypeLoad) :
    loadSegment dev part overlay fuel path name ph s = loadFile dev part overlay fuel path name ph
      (ELFProgramHeader.virtualAddress b) (s.cleared overlay b) := by
  have htype : ELFProgramHeader.type (s.header ph) = ELFProgramHeader.type b := header_field hb (by omega)
  have hva : ELFProgramHeader.virtualAddress (s.header ph) = ELFProgramHeader.virtualAddress b :=
    header_field hb (by omega)
  have hmemory : ELFProgramHeader.memorySize (s.header ph) = ELFProgramHeader.memorySize b :=
    header_field hb (by omega)
  rw [loadSegment, if_pos (htype.trans ht), hva, hmemory]
  rfl

variable (hph : ∀ a, offset ph a < 32 → offset headerBuffer a < 0x10000) (hfits : Fits b)
  (ht : ELFProgramHeader.type b = programTypeLoad)

omit hb
include hph hfits ht

/-- The range of a segment is apart from the load buffer, its program header and the data of the FAT layer. -/
lemma Fits.apart {a : UInt32}
    (ha : offset (ELFProgramHeader.virtualAddress b) a < (ELFProgramHeader.memorySize b).toNat) :
    0x10000 ≤ offset loadBuffer a ∧ 32 ≤ offset ph a ∧ 0x10000 ≤ offset fatData a := by
  have hh := hfits.header a ⟨ht, ha⟩
  refine ⟨hfits.load a ⟨ht, ha⟩, ?_, hfits.fat a ⟨ht, ha⟩⟩
  by_contra hlt
  have := hph a (by omega)
  omega

include hb

/-- **The segment is cleared**, and its program header and the FAT layer are as before. -/
lemma Fits.cleared (overlay : Overlay) : (s.cleared overlay b).fat = s.fat ∧
    (∀ j < 32, (s.cleared overlay b).header ph j = b j) ∧
      ∀ a, (s.cleared overlay b).mem a = if offset (ELFProgramHeader.virtualAddress b) a <
        (ELFProgramHeader.memorySize b).toNat % 0x10000 then 0 else s.mem a := by
  have hcount : (ELFProgramHeader.memorySize b).toUInt16.toNat =
      (ELFProgramHeader.memorySize b).toNat % 0x10000 := UInt32.toNat_toUInt16 _
  have hset : ∀ a, (s.cleared overlay b).mem a = if offset (ELFProgramHeader.virtualAddress b) a <
      (ELFProgramHeader.memorySize b).toNat % 0x10000 then 0 else s.mem a := fun a => by
    rw [← hcount]
    rfl
  refine ⟨written_fat overlay _ _ _ s fun a ha => (hfits.apart hph ht ?_).2.2, fun j hj => ?_, hset⟩
  · rw [hcount] at ha
    exact ha.trans_le (Nat.mod_le _ _)
  · refine (header_congr (m := s.mem) (fun a ha => ?_) hj).trans (hb j hj)
    rw [hset, if_neg fun hlt => by have := (hfits.apart hph ht (a := a) (by omega)).2.1; omega]

end Begun

/-- **One program header** does to the memory what `segmentMemory` says, outside the buffers. -/
theorem loadSegment_at (hrel : dev.Reliable) (hspc : 0 < f.sectorsPerCluster.toNat)
    (hfile : IsFile dev part f entry chain) (hs : Serving dev part f s)
    (hph : ∀ a, offset ph a < 32 → offset headerBuffer a < 0x10000) {b : ℕ → UInt8}
    (hb : ∀ j < 32, s.header ph j = b j) (hfits : Fits b)
    {fuel : ℕ} {path : List UInt8} {name : NameBuffer}
    (h : loadSegment dev part overlay fuel path name ph s = (.ok true, s'))
    (hsound : ∀ e ∈ s'.log, Sound dev part entry e) :
    (ELFProgramHeader.type b = programTypeLoad →
      (ELFProgramHeader.offset b).toNat + (ELFProgramHeader.fileSize b).toNat ≤ entry.size.toNat) ∧
      Serving dev part f s' ∧ s'.entryPoint = s.entryPoint ∧
      ∀ a, 0x10000 ≤ offset loadBuffer a → 32 ≤ offset ph a →
        s'.mem a = segmentMemory (fileByte dev part f entry chain) b s.mem a := by
  unfold segmentMemory
  split
  · next ht =>
    have hsize := hfits.size ht
    rw [UInt32.le_iff_toNat_le] at hsize
    obtain ⟨hkept, hb₁, hset⟩ := hfits.cleared hb hph ht overlay
    have hsize₁ : ELFProgramHeader.fileSize ((s.cleared overlay b).header ph) = ELFProgramHeader.fileSize b :=
      header_field hb₁ (by omega)
    have hoffset₁ : ELFProgramHeader.offset ((s.cleared overlay b).header ph) = ELFProgramHeader.offset b :=
      header_field hb₁ (by omega)
    rw [loadSegment_load hb ht] at h
    obtain ⟨hle, hserving, hentry, hframe⟩ := loadFile_at hrel hspc hfile
      (fun a ha => buffers_apart (hph a ha)) ⟨hkept ▸ hs.volume, hkept ▸ hs.cache⟩ h hsound
      fun a ha => hfits.apart hph ht (by
        rw [hsize₁] at ha
        omega)
    rw [hsize₁, hoffset₁] at hle
    refine ⟨fun _ => hle, hserving, hentry, fun a ha hne => ?_⟩
    rw [hframe a ha hne, hsize₁, hoffset₁, hset]
    rfl
  · next ht =>
    have htype : ELFProgramHeader.type (s.header ph) = ELFProgramHeader.type b := header_field hb (by omega)
    rw [loadSegment_other (htype ▸ ht)] at h
    cases h
    exact ⟨fun h => absurd h ht, hs, rfl, fun _ _ _ => rfl⟩

/-! ### The table -/

/-- The memory behind the program headers from number `i` on. -/
def imageMemory (file : ℕ → UInt8) (table : ℕ → ℕ → UInt8) : ℕ → ℕ → Memory → Memory
  | 0, _, m => m
  | left + 1, i, m => imageMemory file table left (i + 1) (segmentMemory file (table i) m)

lemma segmentMemory_congr {file b : ℕ → UInt8} {m m' : Memory} {a : UInt32} (h : m a = m' a) :
    segmentMemory file b m a = segmentMemory file b m' a := by
  unfold segmentMemory
  split
  · simp only [loadedByte, h]
  · exact h

lemma imageMemory_congr {file : ℕ → UInt8} {table : ℕ → ℕ → UInt8} {a : UInt32} :
    ∀ (left i : ℕ) {m m' : Memory}, m a = m' a →
      imageMemory file table left i m a = imageMemory file table left i m' a
  | 0, _, _, _, h => h
  | left + 1, i, _, _, h => imageMemory_congr left (i + 1) (segmentMemory_congr h)

lemma headerAddress {entrySize : UInt32} {i : ℕ} (hbound : (i + 1) * entrySize.toNat ≤ 0x10000)
    (hsize : 32 ≤ entrySize.toNat) (a : UInt32) :
    (offset (headerBuffer + UInt32.ofNat i * entrySize) a < 32 →
      offset headerBuffer a < 0x10000) ∧
    ((i + 1) * entrySize.toNat ≤ offset headerBuffer a →
      32 ≤ offset (headerBuffer + UInt32.ofNat i * entrySize) a) := by
  have haddr : UInt32.ofNat i * entrySize = UInt32.ofNat (i * entrySize.toNat) := by
    rw [UInt32.ofNat_mul, UInt32.ofNat_toNat]
  have hmul : (i + 1) * entrySize.toNat = i * entrySize.toNat + entrySize.toNat := Nat.succ_mul _ _
  have hs := offset_shift headerBuffer a (k := i * entrySize.toNat) (by omega)
  have hlt := offset_lt headerBuffer a
  rw [haddr, hs]
  split <;> constructor <;> intro h <;> omega

lemma headerByte_offset (entrySize : UInt32) (j u : ℕ) (h : j * entrySize.toNat + u < 2 ^ 32) :
    offset headerBuffer (headerBuffer + UInt32.ofNat j * entrySize + UInt32.ofNat u) =
      j * entrySize.toNat + u := by
  rw [show headerBuffer + UInt32.ofNat j * entrySize + UInt32.ofNat u =
    headerBuffer + UInt32.ofNat (j * entrySize.toNat + u) by
      rw [UInt32.ofNat_add, UInt32.ofNat_mul, UInt32.ofNat_toNat, UInt32.add_assoc], offset_add _ h]

/-- The program headers behind one that is loaded stay as they are. -/
lemma laterHeader_stays {file b : ℕ → UInt8} {m m' : Memory} {entrySize : UInt32} {i j u : ℕ}
    (hframe : ∀ a, 0x10000 ≤ offset loadBuffer a →
      32 ≤ offset (headerBuffer + UInt32.ofNat i * entrySize) a → m' a = segmentMemory file b m a)
    (hfits : Fits b) (hentry : 32 ≤ entrySize.toNat) (hj : i + 1 ≤ j)
    (hbound : (j + 1) * entrySize.toNat ≤ 0x10000) (hu : u < 32) :
    m'.view (headerBuffer + UInt32.ofNat j * entrySize) u =
      m.view (headerBuffer + UInt32.ofNat j * entrySize) u := by
  have hle : (i + 1) * entrySize.toNat ≤ j * entrySize.toNat := Nat.mul_le_mul_right _ hj
  have hmul : (j + 1) * entrySize.toNat = j * entrySize.toNat + entrySize.toNat := Nat.succ_mul _ _
  have hoff := headerByte_offset entrySize j u (by omega)
  refine (hframe _ (buffers_apart (by omega))
    ((headerAddress (i := i) (by omega) hentry _).2 (by omega))).trans
    (segmentMemory_of_not_covers hfits fun hcov => ?_)
  have := hfits.header _ hcov
  omega

/-- **All program headers** do to the memory what `imageMemory` says, outside the buffers. -/
theorem loadSegments_at (hrel : dev.Reliable) (hspc : 0 < f.sectorsPerCluster.toNat)
    (hfile : IsFile dev part f entry chain) {fuel : ℕ} {path : List UInt8} {names : ℕ → NameBuffer}
    {entrySize : UInt32} (hentry : 32 ≤ entrySize.toNat) {table : ℕ → ℕ → UInt8} :
    ∀ (left i : ℕ) (s : Loader), Serving dev part f s → (i + left) * entrySize.toNat ≤ 0x10000 →
      (∀ j, i ≤ j → j < i + left → Fits (table j) ∧
        ∀ t < 32, s.mem.view (headerBuffer + UInt32.ofNat j * entrySize) t = table j t) →
      loadSegments dev part overlay fuel path names entrySize left i s = (.ok true, s') →
      (∀ e ∈ s'.log, Sound dev part entry e) →
      (∀ j, i ≤ j → j < i + left → ELFProgramHeader.type (table j) = programTypeLoad →
        (ELFProgramHeader.offset (table j)).toNat + (ELFProgramHeader.fileSize (table j)).toNat ≤
          entry.size.toNat) ∧
      s'.entryPoint = s.entryPoint ∧
      ∀ a, 0x10000 ≤ offset headerBuffer a → 0x10000 ≤ offset loadBuffer a →
        s'.mem a = imageMemory (fileByte dev part f entry chain) table left i s.mem a := by
  intro left
  induction left with
  | zero =>
    intro i s _ _ _ h _
    cases h
    exact ⟨fun j hj hj' => absurd hj' (by omega), rfl, fun _ _ _ => rfl⟩
  | succ left ih =>
    intro i s hs hbound htable h hsound
    rw [loadSegments] at h
    split at h
    · next t hstep =>
      have hlog := loadSegments_log dev part overlay fuel path names entrySize left (i + 1) t
      rw [h] at hlog
      have hnext : (i + 1) * entrySize.toNat ≤ 0x10000 :=
        (Nat.mul_le_mul_right _ (by omega)).trans hbound
      obtain ⟨hfits, hbytes⟩ := htable i le_rfl (by omega)
      obtain ⟨hroom, hnext', hpoint, hframe⟩ := loadSegment_at hrel hspc hfile hs
        (fun a => (headerAddress hnext hentry a).1) hbytes hfits hstep
        fun e he => hsound e (hlog.subset he)
      have hrest : ∀ j, i + 1 ≤ j → j < i + 1 + left → Fits (table j) ∧
          ∀ u < 32, t.mem.view (headerBuffer + UInt32.ofNat j * entrySize) u = table j u := by
        intro j hj hj'
        obtain ⟨hfits', hbytes'⟩ := htable j (by omega) (by omega)
        have hbound' : (j + 1) * entrySize.toNat ≤ 0x10000 :=
          (Nat.mul_le_mul_right _ (by omega)).trans hbound
        exact ⟨hfits', fun u hu =>
          (laterHeader_stays hframe hfits hentry hj hbound' hu).trans (hbytes' u hu)⟩
      obtain ⟨hroom', hpoint', hframe'⟩ := ih (i + 1) t hnext'
        (by rwa [show i + 1 + left = i + (left + 1) by omega]) hrest h hsound
      refine ⟨fun j hj hj' ht => ?_, hpoint'.trans hpoint, fun a hh hl => ?_⟩
      · rcases Nat.eq_or_lt_of_le hj with rfl | hlt
        · exact hroom ht
        · exact hroom' j hlt (by omega) ht
      · rw [hframe' a hh hl, imageMemory]
        exact imageMemory_congr left (i + 1)
          (hframe a hl ((headerAddress hnext hentry a).2 (hnext.trans hh)))
    · next hne => exact absurd h (hne _)

/-- Outside the ranges of the segments the memory stays as it was. -/
lemma imageMemory_of_not_covers {file : ℕ → UInt8} {table : ℕ → ℕ → UInt8} {a : UInt32} :
    ∀ (left i : ℕ) {m : Memory}, (∀ j, i ≤ j → j < i + left → Fits (table j) ∧ ¬ Covers (table j) a) →
      imageMemory file table left i m a = m a
  | 0, _, _, _ => rfl
  | left + 1, i, m, h => by
    rw [imageMemory, imageMemory_of_not_covers left (i + 1) fun j hj hj' => h j (by omega) (by omega)]
    exact segmentMemory_of_not_covers (h i le_rfl (by omega)).1 (h i le_rfl (by omega)).2

/-- **In the range of one segment, apart from the others, the memory is what this segment makes of it.** -/
theorem imageMemory_of_covers {file : ℕ → UInt8} {table : ℕ → ℕ → UInt8} {a : UInt32} :
    ∀ (left i : ℕ) {m : Memory} {k : ℕ}, i ≤ k → k < i + left → Covers (table k) a →
      (∀ j, i ≤ j → j < i + left → Fits (table j) ∧ (j ≠ k → ¬ Covers (table j) a)) →
      imageMemory file table left i m a = loadedByte file (table k) m a
  | 0, i, _, k, hk, hk', _, _ => by omega
  | left + 1, i, m, k, hk, hk', hcov, h => by
    rw [imageMemory]
    rcases Nat.eq_or_lt_of_le hk with rfl | hlt
    · rw [imageMemory_of_not_covers left (i + 1) fun j hj hj' =>
        ⟨(h j (by omega) (by omega)).1, (h j (by omega) (by omega)).2 (by omega)⟩, segmentMemory,
        if_pos hcov.1]
    · rw [imageMemory_of_covers left (i + 1) hlt (by omega) hcov fun j hj hj' =>
        h j (by omega) (by omega)]
      have hi := h i le_rfl (by omega)
      simp only [loadedByte, segmentMemory_of_not_covers hi.1 (hi.2 (by omega))]

end ArcOS.Elf
