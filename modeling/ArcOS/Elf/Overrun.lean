import ArcOS.Elf.Header

/-!
Which program headers the loop comes to.

A run gives up at the first segment that ends behind the file (`loadSegment_follow`), and goes on past every
other. It leaves the fields `Offset` and `FileSize` of a segment counted down to 0: where program headers
overlap, `tableSeen` is the table as the loop finds it.
-/

namespace ArcOS.Elf

open Lib Lib.Memory Fat

variable {m : Memory} {dst src ph va : UInt32} {dev : Device} {part : Partition} {overlay : Overlay}
  {f : FatData} {entry : DirectoryEntry} {chain : List UInt32} {i : Fin 10} {k : ℕ} {s s' : Loader}

/-- `memcpy` writes its range only, also where the two overlap. -/
lemma memcpy_of_le {num : UInt16} {a : UInt32} (h : num.toNat ≤ offset dst a) :
    memcpy dst src num m a = m a := by
  have hnum := num.toNat_lt
  suffices hn : ∀ n ≤ num.toNat, (List.range n).foldl
      (fun m i => m.store (dst + UInt32.ofNat i) [m (src + UInt32.ofNat i)]) m a = m a from hn _ le_rfl
  intro n hn
  induction n with
  | zero => rfl
  | succ n ih =>
    have hs := offset_shift dst a (k := n) (by omega)
    rw [if_pos (by omega)] at hs
    rw [List.range_succ, List.foldl_append, List.foldl_cons, List.foldl_nil,
      store_of_le (by rw [List.length_singleton]; omega), ih (by omega)]

/-! ### The loops -/

lemma eq_zero_of_not_pos {n : UInt32} (h : ¬ 0 < n) : n = 0 :=
  UInt32.toNat_inj.mp (toNat_eq_zero h)

lemma seekLoop_field {file : Option Loc} : ∀ {rounds : ℕ} {s : Loader},
    seekLoop dev part file ph rounds s = (.ok true, s') → ELFProgramHeader.offset (s'.header ph) = 0 := by
  intro rounds
  induction rounds with
  | zero =>
    intro s h
    rw [seekLoop] at h
    split at h
    · cases h
    · next h0 =>
      cases h
      exact eq_zero_of_not_pos h0
  | succ rounds ih =>
    intro s h
    rw [seekLoop] at h
    split at h
    · split at h
      · exact ih h
      · next hne => exact absurd h (hne _)
    · next h0 =>
      cases h
      exact eq_zero_of_not_pos h0

lemma loadLoop_field {file : Option Loc} : ∀ {rounds : ℕ} {va : UInt32} {s : Loader},
    loadLoop dev part overlay file ph rounds va s = (.ok true, s') →
      ELFProgramHeader.fileSize (s'.header ph) = 0 := by
  intro rounds
  induction rounds with
  | zero =>
    intro va s h
    rw [loadLoop] at h
    split at h
    · cases h
    · next h0 =>
      cases h
      exact eq_zero_of_not_pos h0
  | succ rounds ih =>
    intro va s h
    rw [loadLoop] at h
    dsimp only at h
    split at h
    · split at h
      · exact ih h
      · next hne => exact absurd h (hne _)
    · next h0 =>
      cases h
      exact eq_zero_of_not_pos h0

/-- **The seek comes to the start of a segment that is in the file**, and gives up on any other. -/
theorem seekLoop_follow (hrel : dev.Reliable) (hspc : 0 < f.sectorsPerCluster.toNat)
    (hfile : IsFile dev part f entry chain)
    (hph : ∀ a, offset ph a < 32 → 0x10000 ≤ offset loadBuffer a) :
    ∀ (rounds k : ℕ) (s : Loader), At dev part f entry chain i k s.fat →
      (ELFProgramHeader.offset (s.header ph)).toNat ≤ rounds * 0x10000 →
      (∀ e ∈ (seekLoop dev part (some (.slot i)) ph rounds s).2.log, Sound dev part entry e) →
      (seekLoop dev part (some (.slot i)) ph rounds s).1 =
        .ok (decide (k + (ELFProgramHeader.offset (s.header ph)).toNat ≤ entry.size.toNat)) := by
  intro rounds
  induction rounds with
  | zero =>
    intro k s hat hle _
    have h0 : ¬ 0 < ELFProgramHeader.offset (s.header ph) := by
      rw [UInt32.lt_iff_toNat_lt]
      simpa using hle
    have hin := hat.inside
    rw [seekLoop_done h0, decide_eq_true (by omega)]
  | succ rounds ih =>
    intro k s hat hle hsound
    by_cases h0 : 0 < ELFProgramHeader.offset (s.header ph)
    · have hlog : (readAll dev part (some (.slot i)) (shouldRead (ELFProgramHeader.offset (s.header ph)))
          loadBuffer "ELF Load error\n" s).2.log <:+
          (seekLoop dev part (some (.slot i)) ph (rounds + 1) s).2.log := by
        rw [seekLoop, if_pos h0]
        split
        · next t heq =>
          rw [heq]
          exact seekLoop_log dev part (some (.slot i)) ph rounds (t.setWord (ph + 4)
            (ELFProgramHeader.offset (t.header ph) - shouldRead (ELFProgramHeader.offset (s.header ph))))
        · exact List.suffix_rfl
      have hearly := fun e he => hsound e (hlog.subset he)
      obtain ⟨t, hread, -⟩ := readAll_result hrel hspc hfile hat _ loadBuffer _ hearly
      have hin := hat.inside
      have hread32 := shouldRead_toNat (ELFProgramHeader.offset (s.header ph))
      rw [seekLoop, if_pos h0] at hsound ⊢
      rw [hread] at hearly hsound ⊢
      by_cases hcut : (shouldRead (ELFProgramHeader.offset (s.header ph))).toNat ≤ entry.size.toNat - k
      · rw [decide_eq_true hcut] at hread hsound ⊢
        dsimp only at hsound ⊢
        obtain ⟨-, -, hat', hkeep, -⟩ := chunk_at hrel hspc hfile hat hread hearly
        generalize hn : ELFProgramHeader.offset (s.header ph) = n at *
        have hsame : ELFProgramHeader.offset (t.header ph) = n :=
          (word32_congr fun j hj => header_congr (fun a ha => hkeep a (hph a ha)) (by omega)).trans hn
        have hfield : ELFProgramHeader.offset ((t.setWord (ph + 4) (n - shouldRead n)).header ph) =
            n - shouldRead n := word32_setWord t.mem ph _ 4
        have hsub := sub_shouldRead_toNat n
        rw [hsame] at hsound ⊢
        rw [ih (k + (shouldRead n).toNat) _ (by exact hat') (by rw [hfield]; omega) hsound, hfield]
        exact congrArg Except.ok (decide_eq_decide.mpr (by omega))
      · rw [decide_eq_false hcut]
        exact congrArg Except.ok (decide_eq_false (by omega)).symm
    · have hin := hat.inside
      rw [seekLoop_done h0, toNat_eq_zero h0, decide_eq_true (by omega)]

lemma copyRound_frame {n : UInt32} {m' : Memory}
    (hm : m' = memcpy va loadBuffer (shouldRead n).toUInt16
      (m.store (ph + 16) (bytes32 (n - shouldRead n))))
    (hva : ∀ a, offset va a < n.toNat → 32 ≤ offset ph a) :
    ELFProgramHeader.fileSize (m'.view ph) = n - shouldRead n ∧
      ∀ a, offset ph a < 16 ∨ 20 ≤ offset ph a → n.toNat ≤ offset va a → m' a = m a := by
  have hcount : (shouldRead n).toUInt16.toNat ≤ n.toNat := by
    rw [shouldRead_toUInt16]
    split <;> omega
  have hcopy : ∀ a, n.toNat ≤ offset va a → m' a = m.store (ph + 16) (bytes32 (n - shouldRead n)) a :=
    fun a ha => by rw [hm, memcpy_of_le (by omega)]
  refine ⟨?_, fun a hne ha => (hcopy a ha).trans (setWord_of_ne (k := 16) (by omega) hne)⟩
  refine (word32_congr fun j hj => header_congr (fun a ha => hcopy a ?_) (by omega)).trans
    (word32_setWord m ph _ 16)
  by_contra hlt
  have := hva a (by omega)
  omega

/-- What a round of the copy makes of the state behind its read of `n` bytes. -/
def Loader.copied (overlay : Overlay) (ph va n : UInt32) (t : Loader) : Loader :=
  let u := t.setWord (ph + 16) (ELFProgramHeader.fileSize (t.header ph) - n)
  u.written overlay va n.toUInt16 (memcpy va loadBuffer n.toUInt16 u.mem)

lemma loadLoop_round {file : Option Loc} {n : UInt32} (hn : ELFProgramHeader.fileSize (s.header ph) = n)
    (h0 : 0 < n) (rounds : ℕ) (va : UInt32) : loadLoop dev part overlay file ph (rounds + 1) va s =
      match readAll dev part file (shouldRead n) loadBuffer "ELF Load error\n" s with
      | (.ok true, t) =>
        loadLoop dev part overlay file ph rounds (va + shouldRead n) (t.copied overlay ph va (shouldRead n))
      | r => r := by
  subst hn
  rw [loadLoop, if_pos h0]
  rfl

lemma loadLoop_log_read {file : Option Loc} {n : UInt32} (hn : ELFProgramHeader.fileSize (s.header ph) = n)
    (h0 : 0 < n) (rounds : ℕ) (va : UInt32) :
    (readAll dev part file (shouldRead n) loadBuffer "ELF Load error\n" s).2.log <:+
      (loadLoop dev part overlay file ph (rounds + 1) va s).2.log := by
  rw [loadLoop_round hn h0]
  split
  · next t heq =>
    have hcopied : t.log <:+ (t.copied overlay ph va (shouldRead n)).log := List.suffix_cons _ _
    rw [heq]
    exact hcopied.trans (loadLoop_log dev part overlay file ph rounds (va + shouldRead n) _)
  · exact List.suffix_rfl

/-- **A round of the copy** whose bytes are all there. The segment is apart from its header and the data of the FAT
layer; it may be written over the load buffer. -/
theorem copied_at (overlay : Overlay) (hrel : dev.Reliable) (hspc : 0 < f.sectorsPerCluster.toNat)
    (hfile : IsFile dev part f entry chain)
    (hph : ∀ a, offset ph a < 32 → 0x10000 ≤ offset loadBuffer a) (hat : At dev part f entry chain i k s.fat)
    {n : UInt32} (hn : ELFProgramHeader.fileSize (s.header ph) = n)
    (hva : ∀ a, offset va a < n.toNat → 32 ≤ offset ph a ∧ 0x10000 ≤ offset fatData a) {text : String}
    (h : readAll dev part (some (.slot i)) (shouldRead n) loadBuffer text s = (.ok true, s'))
    (hsound : ∀ e ∈ s'.log, Sound dev part entry e) :
    (s'.copied overlay ph va (shouldRead n)).fat = s'.fat ∧
      At dev part f entry chain i (k + (shouldRead n).toNat) s'.fat ∧
      ELFProgramHeader.fileSize ((s'.copied overlay ph va (shouldRead n)).header ph) = n - shouldRead n ∧
      (∀ a, offset (va + shouldRead n) a < (n - shouldRead n).toNat →
        32 ≤ offset ph a ∧ 0x10000 ≤ offset fatData a) ∧
      ∀ a, 0x10000 ≤ offset loadBuffer a → offset ph a < 16 ∨ 20 ≤ offset ph a → n.toNat ≤ offset va a →
        (s'.copied overlay ph va (shouldRead n)).mem a = s.mem a := by
  have hread32 := shouldRead_toNat n
  have hsub := sub_shouldRead_toNat n
  obtain ⟨-, -, hat', hkeep, -⟩ := chunk_at hrel hspc hfile hat h hsound
  have hsame : ELFProgramHeader.fileSize (s'.header ph) = n :=
    (word32_congr fun j hj => header_congr (fun a ha => hkeep a (hph a ha)) (by omega)).trans hn
  simp only [Loader.copied, hsame]
  generalize hm : memcpy va loadBuffer (shouldRead n).toUInt16
    (s'.setWord (ph + 16) (n - shouldRead n)).mem = m
  obtain ⟨hfield, hframe⟩ := copyRound_frame hm.symm fun a ha => (hva a ha).1
  refine ⟨?_, hat', hfield, fun a ha => hva a ?_, fun a ha hne hout => ?_⟩
  · refine written_fat overlay va (shouldRead n).toUInt16 m (s'.setWord (ph + 16) (n - shouldRead n))
      fun a ha => (hva a ?_).2
    rw [shouldRead_toUInt16] at ha
    split at ha <;> omega
  · rw [hsub, offset_shouldRead] at ha
    have := n.toNat_lt
    split at ha <;> omega
  · exact (hframe a hne hout).trans (hkeep a ha)

/-- **The copy comes to the end of a segment that is in the file**, and gives up on any other. -/
theorem loadLoop_follow (hrel : dev.Reliable) (hspc : 0 < f.sectorsPerCluster.toNat)
    (hfile : IsFile dev part f entry chain)
    (hph : ∀ a, offset ph a < 32 → 0x10000 ≤ offset loadBuffer a) :
    ∀ (rounds : ℕ) (va : UInt32) (k : ℕ) (s : Loader), At dev part f entry chain i k s.fat →
      (ELFProgramHeader.fileSize (s.header ph)).toNat ≤ rounds * 0x10000 →
      (∀ e ∈ (loadLoop dev part overlay (some (.slot i)) ph rounds va s).2.log, Sound dev part entry e) →
      (∀ a, offset va a < (ELFProgramHeader.fileSize (s.header ph)).toNat →
        32 ≤ offset ph a ∧ 0x10000 ≤ offset fatData a) →
      ∃ u, loadLoop dev part overlay (some (.slot i)) ph rounds va s = (.ok (decide
          (k + (ELFProgramHeader.fileSize (s.header ph)).toNat ≤ entry.size.toNat)), u) ∧
        (k + (ELFProgramHeader.fileSize (s.header ph)).toNat ≤ entry.size.toNat →
          At dev part f entry chain i (k + (ELFProgramHeader.fileSize (s.header ph)).toNat) u.fat ∧
          ∀ a, 0x10000 ≤ offset loadBuffer a → offset ph a < 16 ∨ 20 ≤ offset ph a →
            (ELFProgramHeader.fileSize (s.header ph)).toNat ≤ offset va a → u.mem a = s.mem a) := by
  intro rounds
  induction rounds with
  | zero =>
    intro va k s hat hle _ _
    have h0 : ¬ 0 < ELFProgramHeader.fileSize (s.header ph) := by
      rw [UInt32.lt_iff_toNat_lt]
      simpa using hle
    have hin := hat.inside
    rw [loadLoop_done h0, toNat_eq_zero h0, Nat.add_zero]
    exact ⟨s, by rw [decide_eq_true hin], fun _ => ⟨hat, fun _ _ _ _ => rfl⟩⟩
  | succ rounds ih =>
    intro va k s hat hle hsound hva
    have hin := hat.inside
    by_cases h0 : 0 < ELFProgramHeader.fileSize (s.header ph)
    · generalize hn : ELFProgramHeader.fileSize (s.header ph) = n at *
      have hearly := fun e he => hsound e ((loadLoop_log_read hn h0 rounds va).subset he)
      obtain ⟨t, hread, -⟩ := readAll_result hrel hspc hfile hat _ loadBuffer _ hearly
      have hread32 := shouldRead_toNat n
      rw [loadLoop_round hn h0] at hsound ⊢
      rw [hread] at hearly hsound ⊢
      by_cases hcut : (shouldRead n).toNat ≤ entry.size.toNat - k
      · rw [decide_eq_true hcut] at hread hsound ⊢
        obtain ⟨hfat, hat', hfield, hva', hframe⟩ :=
          copied_at overlay hrel hspc hfile hph hat hn hva hread hearly
        have hsub := sub_shouldRead_toNat n
        obtain ⟨u, hrun, hend⟩ := ih (va + shouldRead n) (k + (shouldRead n).toNat) _
          (by rw [hfat]; exact hat') (by rw [hfield]; omega) hsound (by rw [hfield]; exact hva')
        rw [hfield, hsub, show k + (shouldRead n).toNat + (n.toNat - (shouldRead n).toNat) = k + n.toNat by omega]
          at hrun hend
        refine ⟨u, hrun, fun hle' => ⟨(hend hle').1, fun a ha hne hout => ?_⟩⟩
        rw [(hend hle').2 a ha hne (by rw [offset_shouldRead, if_pos (by omega)]; omega)]
        exact hframe a ha hne hout
      · rw [decide_eq_false hcut]
        exact ⟨t, by rw [decide_eq_false (by omega)], fun h => absurd h (by omega)⟩
    · rw [loadLoop_done h0, toNat_eq_zero h0, Nat.add_zero]
      exact ⟨s, by rw [decide_eq_true hin], fun _ => ⟨hat, fun _ _ _ _ => rfl⟩⟩

/-! ### Program headers -/

lemma fatOpen_logged {fuel : ℕ} {path : List UInt8} {name : NameBuffer} {r : Except Stop (Option Loc)}
    (h : fatOpen dev part fuel path name s = (r, s')) : .opened r s'.fat ∈ s'.log := by
  cases h
  exact List.mem_cons_self ..

section

variable {fuel : ℕ} {path : List UInt8} {name : NameBuffer} {file : Option Loc} {t u : Loader}
  (hopen : fatOpen dev part fuel path name s = (.ok file, t))
include hopen

lemma loadFile_log_copy (hseek : seekLoop dev part file ph fuel t = (.ok true, u)) :
    (loadLoop dev part overlay file ph fuel va u).2.log <:+
      (loadFile dev part overlay fuel path name ph va s).2.log := by
  rw [loadFile, hopen]
  dsimp only
  rw [hseek]
  dsimp only
  split
  · next heq =>
    rw [heq]
    exact List.suffix_rfl
  · exact List.suffix_rfl

lemma loadFile_log_seek :
    (seekLoop dev part file ph fuel t).2.log <:+
      (loadFile dev part overlay fuel path name ph va s).2.log := by
  rcases hseek : seekLoop dev part file ph fuel t with ⟨_ | _ | _, u⟩
  case ok.true =>
    exact (loadLoop_log dev part overlay file ph fuel va u).trans (loadFile_log_copy hopen hseek)
  all_goals simp only [loadFile, hopen, hseek, List.suffix_rfl]

end

/-- **A segment that is opened anew is read to its end**, or to where the file ends. -/
theorem loadFile_follow (hrel : dev.Reliable) (hspc : 0 < f.sectorsPerCluster.toNat)
    (hfile : IsFile dev part f entry chain)
    (hph : ∀ a, offset ph a < 32 → 0x10000 ≤ offset loadBuffer a) (hs : Serving dev part f s)
    {fuel : ℕ} {path : List UInt8} {name : NameBuffer} (hfuel : 0x10000 ≤ fuel)
    (hsound : ∀ e ∈ (loadFile dev part overlay fuel path name ph va s).2.log, Sound dev part entry e)
    (hres : Resolved (loadFile dev part overlay fuel path name ph va s).2.log)
    (hva : ∀ a, offset va a < (ELFProgramHeader.fileSize (s.header ph)).toNat →
      32 ≤ offset ph a ∧ 0x10000 ≤ offset fatData a) :
    ∃ u, loadFile dev part overlay fuel path name ph va s = (.ok (decide
        ((ELFProgramHeader.offset (s.header ph)).toNat + (ELFProgramHeader.fileSize (s.header ph)).toNat ≤
          entry.size.toNat)), u) ∧
      ((ELFProgramHeader.offset (s.header ph)).toNat + (ELFProgramHeader.fileSize (s.header ph)).toNat ≤
          entry.size.toNat →
        Serving dev part f u ∧ ELFProgramHeader.offset (u.header ph) = 0 ∧
        ELFProgramHeader.fileSize (u.header ph) = 0 ∧
        ∀ a, 0x10000 ≤ offset loadBuffer a → offset ph a < 4 ∨ 8 ≤ offset ph a →
          offset ph a < 16 ∨ 20 ≤ offset ph a →
          (ELFProgramHeader.fileSize (s.header ph)).toNat ≤ offset va a → u.mem a = s.mem a) := by
  have hopened := loadFile_log dev part overlay fuel path name ph va s
  rcases hopen : fatOpen dev part fuel path name s with ⟨r, t⟩
  rw [hopen] at hopened
  obtain ⟨p, rfl⟩ := hres r t.fat (hopened.subset (fatOpen_logged hopen))
  obtain ⟨i, rfl, hat, hmem, -⟩ := fatOpen_at hrel hfile hs hopen fun e he => hsound e (hopened.subset he)
  have hheader : t.header ph = s.header ph := by rw [Loader.header, hmem]; rfl
  have hmax := (ELFProgramHeader.offset (s.header ph)).toNat_lt
  have hmax' := (ELFProgramHeader.fileSize (s.header ph)).toNat_lt
  have hresult := seekLoop_follow hrel hspc hfile hph fuel 0 t hat (by rw [hheader]; omega) fun e he =>
    hsound e ((loadFile_log_seek hopen).subset he)
  rw [hheader, Nat.zero_add] at hresult
  rcases hseek : seekLoop dev part (some (.slot i)) ph fuel t with ⟨r, u⟩
  rw [hseek] at hresult
  dsimp only at hresult
  subst hresult
  by_cases hstart : (ELFProgramHeader.offset (s.header ph)).toNat ≤ entry.size.toNat
  · rw [decide_eq_true hstart] at hseek
    have hcopy : (loadLoop dev part overlay (some (.slot i)) ph fuel va u).2.log <:+
        (loadFile dev part overlay fuel path name ph va s).2.log := loadFile_log_copy hopen hseek
    obtain ⟨-, hat', -, hframe⟩ := seekLoop_at hrel hspc hfile hph _ 0 t hat hseek fun e he =>
      hsound e (((loadLoop_log dev part overlay _ ph fuel va u).trans hcopy).subset he)
    have hzero := seekLoop_field hseek
    rw [hheader, Nat.zero_add] at hat'
    have hfield : ELFProgramHeader.fileSize (u.header ph) = ELFProgramHeader.fileSize (s.header ph) := by
      rw [← hheader]
      apply word32_congr
      intro j hj
      have hoff := offset_add ph (k := 16 + j) (by omega)
      exact hframe _ (hph _ (by omega)) (.inr (by omega))
    obtain ⟨v, hload, hend⟩ := loadLoop_follow hrel hspc hfile hph fuel va _ u hat'
      (by rw [hfield]; omega) (fun e he => hsound e (hcopy.subset he)) (by rw [hfield]; exact hva)
    rw [hfield] at hload hend
    rw [loadFile, hopen]
    dsimp only
    rw [hseek]
    dsimp only
    rw [hload]
    by_cases hle : (ELFProgramHeader.offset (s.header ph)).toNat +
        (ELFProgramHeader.fileSize (s.header ph)).toNat ≤ entry.size.toNat
    · obtain ⟨hatend, hframe'⟩ := hend hle
      rw [decide_eq_true hle] at hload ⊢
      have hclose : close (some (.slot i)) v.fat = (.ok (), (fatClose (some (.slot i)) v).2.fat) := by
        rw [fatClose, close_slot hatend.deref]
      have hv : Serving dev part f v := ⟨hatend.onChain.volume, hatend.onChain.cache⟩
      have hdone : ELFProgramHeader.fileSize (v.header ph) = 0 := loadLoop_field hload
      refine ⟨(fatClose (some (.slot i)) v).2, ?_, fun _ => ⟨hv.extends hrel (fatClose_extends ..), ?_,
        hdone, fun a ha hne hne' hout => ?_⟩⟩
      · dsimp only
        rw [fatClose, hclose]
        rfl
      · refine (word32_congr fun j hj => ?_).trans hzero
        have hoff := offset_add ph (k := 4 + j) (by omega)
        refine hframe' _ (hph _ (by omega)) (.inl (by omega)) ?_
        by_contra hlt
        have := hva _ (not_le.mp hlt)
        omega
      · rw [← hmem, ← hframe a ha hne, ← hframe' a ha hne' hout]
        rfl
    · rw [decide_eq_false hle]
      exact ⟨v, rfl, fun h => absurd h hle⟩
  · rw [decide_eq_false hstart] at hseek
    rw [loadFile, hopen]
    dsimp only
    rw [hseek]
    exact ⟨u, by rw [decide_eq_false (by omega)], fun h => absurd h (by omega)⟩

/-- The bytes of a segment are apart from the header buffer and the data of the FAT layer. -/
def SegmentApart (b : ℕ → UInt8) : Prop :=
  ELFProgramHeader.type b = programTypeLoad → ∀ a, offset (ELFProgramHeader.virtualAddress b) a <
    max (ELFProgramHeader.fileSize b).toNat (ELFProgramHeader.memorySize b).toNat →
      0x10000 ≤ offset headerBuffer a ∧ 0x10000 ≤ offset fatData a

/-- The program header names a segment that ends behind a file of `size` bytes. -/
def EndsBehind (size : ℕ) (b : ℕ → UInt8) : Prop :=
  ELFProgramHeader.type b = programTypeLoad ∧
    size < (ELFProgramHeader.offset b).toNat + (ELFProgramHeader.fileSize b).toNat

instance (size : ℕ) (b : ℕ → UInt8) : Decidable (EndsBehind size b) :=
  inferInstanceAs (Decidable (_ ∧ _))

/-- Bytes with a field of four that is counted down to 0. -/
def clearField (k : ℕ) (b : ℕ → UInt8) : ℕ → UInt8 := fun j => if k ≤ j ∧ j < k + 4 then 0 else b j

/-- The header buffer behind the program header at `p`. -/
def headerBehind (p : ℕ) (b : ℕ → UInt8) : ℕ → UInt8 :=
  if ELFProgramHeader.type (fun j => b (p + j)) = programTypeLoad then clearField (p + 4) (clearField (p + 16) b)
  else b

lemma byte_of_word32 {b : ℕ → UInt8} {k j : ℕ} (h : word32 b k = 0) (hj : j < 4) : b (k + j) = 0 :=
  word32_inj (h.trans (show 0 = word32 (fun _ => 0) 0 from by decide)) j hj

/-- **One program header**: a segment that ends behind the file ends the run, and any other leaves the header
buffer but for the two fields that are counted down. -/
theorem loadSegment_follow (hrel : dev.Reliable) (hspc : 0 < f.sectorsPerCluster.toNat)
    (hfile : IsFile dev part f entry chain) (hs : Serving dev part f s) {p : ℕ} (hp : p + 32 ≤ 0x10000)
    (hph : ph = headerBuffer + UInt32.ofNat p) {fuel : ℕ} {path : List UInt8} {name : NameBuffer}
    (hfuel : 0x10000 ≤ fuel)
    (hsound : ∀ e ∈ (loadSegment dev part overlay fuel path name ph s).2.log, Sound dev part entry e)
    (hres : Resolved (loadSegment dev part overlay fuel path name ph s).2.log)
    (hapart : SegmentApart (s.header ph)) :
    ∃ u, loadSegment dev part overlay fuel path name ph s =
        (.ok (decide (¬ EndsBehind entry.size.toNat (s.header ph))), u) ∧
      (¬ EndsBehind entry.size.toNat (s.header ph) → Serving dev part f u ∧
        ∀ k < 0x10000, u.mem.view headerBuffer k = headerBehind p (s.mem.view headerBuffer) k) := by
  have hshift : ∀ j, s.mem.view headerBuffer (p + j) = s.header ph j := fun j => by
    rw [Loader.header, hph, view_shift]
  have hbuffer : ∀ a, offset ph a < 32 → offset headerBuffer a < 0x10000 := fun a ha => by
    have hs := offset_shift headerBuffer a (k := p) (by omega)
    have hlt := offset_lt headerBuffer a
    rw [← hph] at hs
    split at hs <;> omega
  unfold loadSegment at hsound hres ⊢
  unfold headerBehind
  simp only [hshift]
  by_cases ht : ELFProgramHeader.type (s.header ph) = programTypeLoad
  · rw [if_pos ht] at hsound hres
    rw [if_pos ht, if_pos ht]
    dsimp only at hsound hres ⊢
    have hrange := hapart ht
    have hcount : (ELFProgramHeader.memorySize (s.header ph)).toUInt16.toNat =
        (ELFProgramHeader.memorySize (s.header ph)).toNat % 0x10000 := UInt32.toNat_toUInt16 _
    have hmod := Nat.mod_le (ELFProgramHeader.memorySize (s.header ph)).toNat 0x10000
    generalize ELFProgramHeader.virtualAddress (s.header ph) = va at hsound hres hrange ⊢
    generalize (ELFProgramHeader.memorySize (s.header ph)).toUInt16 = n at hsound hres hcount ⊢
    -- `memset` leaves the header buffer and the data of the FAT layer
    have hset : ∀ a, offset headerBuffer a < 0x10000 → memset va 0 n s.mem a = s.mem a := fun a ha => by
      rw [memset, fill, if_neg fun hlt => by have := (hrange a (by omega)).1; omega]
    have hfat : ∀ a, offset va a < n.toNat → 0x10000 ≤ offset fatData a := fun a ha =>
      (hrange a (by omega)).2
    have hkept := written_fat overlay va n (memset va 0 n s.mem) s hfat
    have hheader : ∀ k, k + 4 ≤ 32 → word32 ((memset va 0 n s.mem).view ph) k = word32 (s.header ph) k :=
      fun k hk => word32_congr fun j hj => header_congr (fun a ha => hset a (hbuffer a ha)) (by omega)
    have hoffset : ELFProgramHeader.offset ((memset va 0 n s.mem).view ph) =
        ELFProgramHeader.offset (s.header ph) := hheader 4 (by omega)
    have hsize : ELFProgramHeader.fileSize ((memset va 0 n s.mem).view ph) =
        ELFProgramHeader.fileSize (s.header ph) := hheader 16 (by omega)
    have hva : ∀ a, offset va a < (ELFProgramHeader.fileSize (s.header ph)).toNat →
        32 ≤ offset ph a ∧ 0x10000 ≤ offset fatData a := fun a ha => by
      obtain ⟨hh, hf⟩ := hrange a (by omega)
      refine ⟨?_, hf⟩
      by_contra hlt
      have := hbuffer a (by omega)
      omega
    obtain ⟨u, hrun, hgo⟩ := loadFile_follow hrel hspc hfile (fun a ha => buffers_apart (hbuffer a ha))
      ⟨hkept ▸ hs.volume, hkept ▸ hs.cache⟩ hfuel hsound hres (by
        rw [Loader.header, Loader.written, hsize]
        exact hva)
    simp only [Loader.header, Loader.written, hsize, hoffset] at hrun hgo
    refine ⟨u, hrun.trans ?_, fun hnot => ?_⟩
    · exact congrArg (fun b => (Except.ok b, u)) (decide_eq_decide.mpr
        ⟨fun hle h => absurd h.2 (not_lt.mpr hle), fun h => not_lt.mp fun hlt => h ⟨ht, hlt⟩⟩)
    obtain ⟨hserving, hzero, hzero', hframe⟩ := hgo (not_lt.mp fun hlt => hnot ⟨ht, hlt⟩)
    refine ⟨hserving, fun k hk => ?_⟩
    have hoff := offset_add headerBuffer (k := k) (by omega)
    have hs' := offset_shift headerBuffer (headerBuffer + UInt32.ofNat k) (k := p) (by omega)
    rw [← hph, hoff] at hs'
    unfold clearField
    split_ifs with h4 h16
    · have hbyte := byte_of_word32 hzero (j := k - (p + 4)) (by omega)
      rw [hph, view_shift] at hbyte
      rw [← hbyte]
      exact congrArg _ (by omega)
    · have hbyte := byte_of_word32 hzero' (j := k - (p + 16)) (by omega)
      rw [hph, view_shift] at hbyte
      rw [← hbyte]
      exact congrArg _ (by omega)
    · have hout : (ELFProgramHeader.fileSize (s.header ph)).toNat ≤
          offset va (headerBuffer + UInt32.ofNat k) := by
        by_contra hlt
        have := (hrange (headerBuffer + UInt32.ofNat k) (by omega)).1
        omega
      refine (hframe _ (buffers_apart (by omega)) ?_ ?_ hout).trans (hset _ (by omega))
      all_goals
        split at hs' <;> omega
  · have hnot : ¬ EndsBehind entry.size.toNat (s.header ph) := fun h => ht h.1
    rw [if_neg ht, if_neg ht, decide_eq_true hnot]
    exact ⟨s, rfl, fun _ => ⟨hs, fun _ _ => rfl⟩⟩

/-! ### The table -/

/-- The table as the loop finds it at program header `i`. Headers that are shorter than 32 bytes overlap: those
before have left their fields at 0. -/
def tableSeen (table : ℕ → UInt8) (entrySize : ℕ) : ℕ → ℕ → UInt8
  | 0 => table
  | i + 1 => headerBehind (i * entrySize) (tableSeen table entrySize i)

/-- Program header `i` as the loop finds it. -/
def headerSeen (table : ℕ → UInt8) (entrySize i : ℕ) : ℕ → UInt8 := fun j =>
  tableSeen table entrySize i (i * entrySize + j)

section Congr

variable {b b' : ℕ → UInt8} (h : ∀ j < 32, b j = b' j)
include h

lemma programHeader_congr {k : ℕ} (hk : k + 4 ≤ 32) : word32 b k = word32 b' k :=
  word32_congr fun _ _ => h _ (by omega)

lemma endsBehind_congr {size : ℕ} : EndsBehind size b ↔ EndsBehind size b' := by
  have htype : ELFProgramHeader.type b = ELFProgramHeader.type b' := programHeader_congr h (by omega)
  have hoffset : ELFProgramHeader.offset b = ELFProgramHeader.offset b' := programHeader_congr h (by omega)
  have hsize : ELFProgramHeader.fileSize b = ELFProgramHeader.fileSize b' := programHeader_congr h (by omega)
  rw [EndsBehind, EndsBehind, htype, hoffset, hsize]

lemma segmentApart_congr : SegmentApart b ↔ SegmentApart b' := by
  have htype : ELFProgramHeader.type b = ELFProgramHeader.type b' := programHeader_congr h (by omega)
  have hva : ELFProgramHeader.virtualAddress b = ELFProgramHeader.virtualAddress b' :=
    programHeader_congr h (by omega)
  have hsize : ELFProgramHeader.fileSize b = ELFProgramHeader.fileSize b' := programHeader_congr h (by omega)
  have hmem : ELFProgramHeader.memorySize b = ELFProgramHeader.memorySize b' :=
    programHeader_congr h (by omega)
  rw [SegmentApart, SegmentApart, htype, hva, hsize, hmem]

end Congr

lemma headerBehind_congr {b b' : ℕ → UInt8} {p n : ℕ} (hp : p + 32 ≤ n) (h : ∀ k < n, b k = b' k) :
    ∀ k < n, headerBehind p b k = headerBehind p b' k := by
  intro k hk
  have htype : ELFProgramHeader.type (fun j => b (p + j)) = ELFProgramHeader.type (fun j => b' (p + j)) :=
    word32_congr fun j hj => h _ (by omega)
  rw [headerBehind, headerBehind, htype]
  split
  · simp only [clearField, h k hk]
  · exact h k hk

end ArcOS.Elf
