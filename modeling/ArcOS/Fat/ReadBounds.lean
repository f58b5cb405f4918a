import ArcOS.Fat.Init
import ArcOS.Lib.Transducer

/-!
`FAT_Read` is bounded, whatever the disk holds and whichever reads fail.

`readRound_spec` says what one round of the loop does to the record it reads through, `readLoop_spec`
what the loop does, by induction on its rounds, and `read_spec` what the function does on a handle
whose request is capped by its size (`Capped`). Runs of `FAT_Read` and `FAT_Close` on such a handle
follow by the invariant rule.
-/

namespace ArcOS.Fat

open Lib Lib.Transducer

variable {L : Layer} {loc : Loc} {s : St}

/-! ### One round -/

lemma fillBuffer_fd (lba : UInt32) : (fillBuffer L loc lba s).2.fat.fd loc =
    { s.fat.fd loc with
      buffer := (L.readSectors s.clock (L.sectorLba lba) 512 (s.fat.fd loc).buffer).2 } := by
  unfold fillBuffer
  dsimp only
  split <;> simp [Layer.read]

/-- Looking ahead keeps the record but for the cursor and the buffer; at the end of the chain it ends
the loop and cuts the size. -/
theorem lookAhead_spec (L : Layer) (loc : Loc) (s : St) :
    ((lookAhead L loc s).2.fat.fd loc).pub.position = (s.fat.fd loc).pub.position ∧
    Keeps (s.fat.fd loc) ((lookAhead L loc s).2.fat.fd loc) ∧
    (((lookAhead L loc s).2.fat.fd loc).pub.size = (s.fat.fd loc).pub.size ∨
      (lookAhead L loc s).1 = false ∧ (s.fat.fd loc).pub.handle ≠ rootDirectoryHandle ∧
        ((lookAhead L loc s).2.fat.fd loc).pub.size = (s.fat.fd loc).pub.position) := by
  unfold lookAhead
  split
  · dsimp only
    rw [fillBuffer_fd]
    rw [St.setFd_fat, FatData.fd_setFd]
    exact ⟨rfl, ⟨rfl, rfl, rfl, rfl, fun _ => ⟨rfl, rfl⟩⟩, .inl rfl⟩
  · next hh =>
    obtain ⟨c, k, hd⟩ := stepCursor_fd L loc s
    dsimp only
    split
    · rw [St.setFd_fat, FatData.fd_setFd, hd]
      exact ⟨rfl, ⟨rfl, rfl, rfl, rfl, fun h => absurd h hh⟩, .inr ⟨rfl, hh, rfl⟩⟩
    · rw [fillBuffer_fd, hd]
      exact ⟨rfl, ⟨rfl, rfl, rfl, rfl, fun h => absurd h hh⟩, .inl rfl⟩

lemma copyChunk_fd (loc : Loc) (s : St) (take : UInt32) : (copyChunk loc take s).2.fat.fd loc =
    { s.fat.fd loc with pub := { (s.fat.fd loc).pub with
      position := (s.fat.fd loc).pub.position + take } } := by
  simp [copyChunk]

lemma readRound_take (n : UInt32) :
    (readRound L loc n s).take = takeCount n (s.fat.fd loc).pub.position := by
  simp only [readRound]

/-- **One round of the loop of `FAT_Read`.** -/
theorem readRound_spec (L : Layer) (loc : Loc) (s : St) (n : UInt32) :
    (readRound L loc n s).take.toNat = min n.toNat (512 - (s.fat.fd loc).pub.position.toNat % 512) ∧
    (readRound L loc n s).chunk.length = (readRound L loc n s).take.toNat ∧
    ((readRound L loc n s).state.fat.fd loc).pub.position =
      (s.fat.fd loc).pub.position + (readRound L loc n s).take ∧
    Keeps (s.fat.fd loc) ((readRound L loc n s).state.fat.fd loc) ∧
    (((readRound L loc n s).state.fat.fd loc).pub.size = (s.fat.fd loc).pub.size ∨
      (readRound L loc n s).goesOn = false ∧ (s.fat.fd loc).pub.handle ≠ rootDirectoryHandle ∧
        ((readRound L loc n s).state.fat.fd loc).pub.size =
          (s.fat.fd loc).pub.position + (readRound L loc n s).take) := by
  obtain ⟨hin, h16, htake⟩ := takeCount_le n (s.fat.fd loc).pub.position
  have hkeep : Keeps (s.fat.fd loc)
      ((copyChunk loc (takeCount n (s.fat.fd loc).pub.position) s).2.fat.fd loc) := by
    rw [copyChunk_fd]
    exact ⟨rfl, rfl, rfl, rfl, fun _ => ⟨rfl, rfl⟩⟩
  refine ⟨by rw [readRound_take, htake], ?_, ?_⟩
  · simpa only [readRound, copyChunk, memcpy, h16] using Bytes.length_slice _ hin
  unfold readRound
  dsimp only
  split
  · obtain ⟨hp, hk, hz⟩ := lookAhead_spec L loc
      (s := (copyChunk loc (takeCount n (s.fat.fd loc).pub.position) s).2)
    rw [copyChunk_fd] at hp hz
    refine ⟨?_, hkeep.trans hk, ?_⟩
    · exact hp
    · exact hz
  · rw [copyChunk_fd]
    exact ⟨rfl, ⟨rfl, rfl, rfl, rfl, fun _ => ⟨rfl, rfl⟩⟩, .inl rfl⟩

/-! ### The loop -/

/-- As many rounds as bytes are enough for the loop to end, whatever the record holds. -/
theorem readLoop_returns (L : Layer) (loc : Loc) : ∀ (rounds : ℕ) (n : UInt32) (s : St), n.toNat ≤ rounds →
    ∃ x, (readLoop L loc rounds n s).1 = .ok x := by
  intro rounds
  induction rounds with
  | zero =>
    intro n s hn
    exact ⟨_, by rw [readLoop_done (by rw [UInt32.lt_iff_toNat_lt]; simp; omega)]⟩
  | succ rounds ih =>
    intro n s hn
    by_cases h0 : 0 < n
    · have h0' : 0 < n.toNat := by simpa [UInt32.lt_iff_toNat_lt] using h0
      have htake := (readRound_spec L loc s n).1
      have hrest : (n - (readRound L loc n s).take).toNat =
          n.toNat - (readRound L loc n s).take.toNat :=
        UInt32.toNat_sub_of_le _ _ (by rw [UInt32.le_iff_toNat_le]; omega)
      obtain ⟨x, hx⟩ := ih (n - (readRound L loc n s).take) (readRound L loc n s).state (by omega)
      rw [readLoop_succ h0]
      split
      · exact ⟨_, by rw [hx]; rfl⟩
      · exact ⟨_, rfl⟩
    · exact ⟨_, by rw [readLoop_done h0]⟩

/-- What a request of `n` bytes at position `p` of a record of size `z` leads to: the outcome, and the
record after it. -/
structure Delivered (d : FileData) (n : UInt32) (r : Except Stop (UInt32 × List UInt8))
    (d' : FileData) : Prop where
  returns : ∃ count stored, r = .ok (count, stored) ∧ stored.length = count.toNat ∧
    count.toNat ≤ n.toNat ∧ d'.pub.position.toNat = d.pub.position.toNat + count.toNat
  inside : d'.pub.position.toNat ≤ d'.pub.size.toNat
  shrinks : d'.pub.size.toNat ≤ d.pub.size.toNat
  keeps : Keeps d d'

lemma delivered_zero {d : FileData} {n : UInt32} (h : d.pub.position.toNat ≤ d.pub.size.toNat) :
    Delivered d n (.ok (0, [])) d :=
  ⟨⟨0, [], rfl, rfl, by simp, by simp⟩, h, le_rfl, ⟨rfl, rfl, rfl, rfl, fun _ => ⟨rfl, rfl⟩⟩⟩

/-- **The loop of `FAT_Read`.** As many rounds as bytes are enough. -/
theorem readLoop_spec : ∀ (rounds : ℕ) (n : UInt32) (s : St), n.toNat ≤ rounds →
    (s.fat.fd loc).pub.position.toNat + n.toNat ≤ (s.fat.fd loc).pub.size.toNat →
    Delivered (s.fat.fd loc) n (readLoop L loc rounds n s).1
      ((readLoop L loc rounds n s).2.fat.fd loc) := by
  intro rounds
  induction rounds with
  | zero =>
    intro n s hn hcap
    rw [readLoop_done (by rw [UInt32.lt_iff_toNat_lt]; simp; omega)]
    exact delivered_zero (by omega)
  | succ rounds ih =>
    intro n s hn hcap
    by_cases h0 : 0 < n
    · obtain ⟨htake, hlen, hpos, hkeep, hsize⟩ := readRound_spec L loc s n
      have h0' : 0 < n.toNat := by simpa [UInt32.lt_iff_toNat_lt] using h0
      have hz := (s.fat.fd loc).pub.size.toNat_lt
      have hle : (readRound L loc n s).take ≤ n := by rw [UInt32.le_iff_toNat_le]; omega
      have hpos' : ((readRound L loc n s).state.fat.fd loc).pub.position.toNat =
          (s.fat.fd loc).pub.position.toNat + (readRound L loc n s).take.toNat := by
        rw [hpos, UInt32.toNat_add, Nat.mod_eq_of_lt (by omega)]
      rw [readLoop_succ h0]
      split
      · next hgo =>
        have hsize' : ((readRound L loc n s).state.fat.fd loc).pub.size =
            (s.fat.fd loc).pub.size := by
          rcases hsize with h | ⟨h, -⟩
          · exact h
          · rw [h] at hgo; cases hgo
        have hrest : (n - (readRound L loc n s).take).toNat =
            n.toNat - (readRound L loc n s).take.toNat := UInt32.toNat_sub_of_le _ _ hle
        obtain ⟨⟨count, stored, hr, hl, hc, hp⟩, hin, hsh, hk⟩ :=
          ih (n - (readRound L loc n s).take) (readRound L loc n s).state (by omega)
            (by rw [hsize']; omega)
        have hsum : ((readRound L loc n s).take + count).toNat =
            (readRound L loc n s).take.toNat + count.toNat := by
          have := n.toNat_lt
          rw [UInt32.toNat_add, Nat.mod_eq_of_lt (by omega)]
        refine ⟨⟨(readRound L loc n s).take + count, (readRound L loc n s).chunk ++ stored, ?_, ?_, ?_, ?_⟩,
          hin, ?_, hkeep.trans hk⟩
        · simp only [hr, Except.map]
        · rw [List.length_append, hlen, hl, hsum]
        · omega
        · rw [hp, hsum]; omega
        · rw [hsize'] at hsh; exact hsh
      · refine ⟨⟨(readRound L loc n s).take, (readRound L loc n s).chunk, rfl, hlen, ?_, ?_⟩,
          ?_, ?_, ?_⟩ <;> try dsimp only
        · rwa [UInt32.le_iff_toNat_le] at hle
        · exact hpos'
        · rcases hsize with h | ⟨-, -, h⟩
          · rw [h]; omega
          · rw [h, ← hpos]
        · rcases hsize with h | ⟨-, -, h⟩
          · rw [h]
          · rw [h, ← hpos]; omega
        · exact hkeep
    · have : n.toNat = 0 := by
        rw [UInt32.lt_iff_toNat_lt] at h0
        simpa using h0
      rw [readLoop_done h0]
      exact delivered_zero (by omega)

/-! ### The function -/

/-- The handle names its own record, requests on it are capped, and it stands inside its size. -/
structure Capped (p : Loc) (s : St) : Prop where
  deref : s.fat.deref (some p) = .ok p
  cap : (s.fat.fd p).pub.isDirectory = false ∨
    (s.fat.fd p).pub.handle = rootDirectoryHandle ∧ (s.fat.fd p).pub.size ≠ 0
  inside : (s.fat.fd p).pub.position.toNat ≤ (s.fat.fd p).pub.size.toNat

lemma deref_keeps {f f' : FatData} {p : Loc} (h : Keeps (f.fd p) (f'.fd p)) :
    f'.deref (some p) = f.deref (some p) := by
  simp only [FatData.deref, h.handle]

lemma cappedCount_eq {p : File} (n : UInt32) (hcap : p.isDirectory = false ∨ p.size ≠ 0)
    (hin : p.position.toNat ≤ p.size.toNat) :
    (cappedCount p n).toNat = min n.toNat (p.size.toNat - p.position.toNat) := by
  have hc : (!p.isDirectory || (p.isDirectory && decide (p.size ≠ 0))) = true := by
    rcases hcap with h | h
    · simp [h]
    · cases p.isDirectory <;> simp [h]
  have hsub : (p.size - p.position).toNat = p.size.toNat - p.position.toNat :=
    UInt32.toNat_sub_of_le _ _ (by rw [UInt32.le_iff_toNat_le]; exact hin)
  unfold cappedCount
  rw [if_pos (by simpa using hc)]
  split
  · next h => rw [UInt32.lt_iff_toNat_lt] at h; omega
  · next h => rw [UInt32.lt_iff_toNat_lt] at h; omega

/-- **`FAT_Read` on a capped handle.** -/
theorem read_spec {p : Loc} (h : Capped p s) (n : UInt32) :
    Delivered (s.fat.fd p) (cappedCount (s.fat.fd p).pub n) (read L (some p) n s).1
        ((read L (some p) n s).2.fat.fd p) ∧
      (cappedCount (s.fat.fd p).pub n).toNat =
        min n.toNat ((s.fat.fd p).pub.size.toNat - (s.fat.fd p).pub.position.toNat) ∧
      Capped p (read L (some p) n s).2 := by
  have hn := cappedCount_eq n (h.cap.imp_right And.right) h.inside
  have hin := h.inside
  have hd : Delivered (s.fat.fd p) (cappedCount (s.fat.fd p).pub n) (read L (some p) n s).1
      ((read L (some p) n s).2.fat.fd p) := by
    simp only [read, h.deref]
    exact readLoop_spec _ _ _ le_rfl (by omega)
  refine ⟨hd, hn, (deref_keeps hd.keeps).trans h.deref, ?_, hd.inside⟩
  rcases h.cap with hc | ⟨hh, hz⟩
  · exact .inl (hd.keeps.isDirectory.trans hc)
  · exact .inr ⟨hd.keeps.handle.trans hh, by rw [(hd.keeps.root hh).1]; exact hz⟩

theorem close_capped {p : Loc} (h : Capped p s) :
    (close (some p) s).1 = .ok () ∧ Capped p (close (some p) s).2 := by
  cases p with
  | root =>
    rw [close_root h.deref]
    refine ⟨rfl, ?_, h.cap, Nat.zero_le _⟩
    rw [← h.deref]
    rfl
  | slot i =>
    have hfd : ((s.setFd (.slot i) { s.fat.openedFiles i with opened := false }).fat.fd (.slot i)) =
        { s.fat.openedFiles i with opened := false } := by simp
    rw [close_slot h.deref]
    refine ⟨rfl, ?_, by rw [hfd]; exact h.cap, by rw [hfd]; exact h.inside⟩
    rw [← h.deref]
    simp only [FatData.deref, hfd]
    rfl

/-! ### Runs on one handle -/

/-- A call on a handle. -/
inductive HandleCall where
  | read (byteCount : UInt32)
  | close

/-- A call on a handle: the count it reports, and the bytes it stores. -/
def handleCall (L : Layer) (p : Loc) : HandleCall → St → Except Stop (UInt32 × List UInt8) × St
  | .read n, s => read L (some p) n s
  | .close, s => ((close (some p) s).1.map fun _ => (0, []), (close (some p) s).2)

/-- The states in which a handle of a regular file, or of a root directory of fixed size, is held:
from where it was handed out, through calls on it and whatever else leaves its record alone. -/
inductive Held (L : Layer) (p : Loc) : St → Prop where
  | opened (entry : DirectoryEntry) {s s' : St} : entry.attributes &&& attributeDirectory = 0 →
      openEntry L entry s = (some p, s') → Held L p s'
  | root {s s' : St} : p = .root → BootSector.dirEntryCount s'.fat.bootSector ≠ 0 →
      (fatInitialize L s = (.ok true, s') ∨ fatInitializeVolume L s = (.ok true, s')) → Held L p s'
  | call {s : St} (c : HandleCall) : Held L p s → Held L p (handleCall L p c s).2
  | other {s s' : St} : s'.fat.fd p = s.fat.fd p → Held L p s → Held L p s'

lemma Initialised.capped (h : Initialised L s)
    (hc : BootSector.dirEntryCount s.fat.bootSector ≠ 0) : Capped .root s := by
  have hsize : (32 * (BootSector.dirEntryCount s.fat.bootSector).toUInt32).toNat =
      32 * (BootSector.dirEntryCount s.fat.bootSector).toNat := by
    have := (BootSector.dirEntryCount s.fat.bootSector).toNat_lt
    rw [UInt32.toNat_mul, UInt16.toNat_toUInt32, show (32 : UInt32).toNat = 32 from rfl]
    omega
  have hpos : 0 < (BootSector.dirEntryCount s.fat.bootSector).toNat := by
    by_contra h0
    exact hc (UInt16.toNat_inj.mp (by simpa using h0))
  refine ⟨h.named.deref_root, .inr ⟨h.named.root, ?_⟩, ?_⟩
  · rw [FatData.fd_root, h.rootPub]
    intro h0
    have := congrArg UInt32.toNat h0
    rw [hsize] at this
    simp at this
    omega
  · rw [FatData.fd_root, h.rootPub]
    exact Nat.zero_le _

lemma openEntry_capped {entry : DirectoryEntry} {p : Loc} {s' : St}
    (hfile : entry.attributes &&& attributeDirectory = 0)
    (h : openEntry L entry s = (some p, s')) : Capped p s' := by
  obtain ⟨i, rfl, -, -, rfl⟩ := openEntry_some h
  have hfd : (s.fat.setFd (.slot i) (openedRecord L entry i s)).openedFiles i =
      openedRecord L entry i s := Function.update_self _ _ _
  refine ⟨deref_of_handle ?_, .inl ?_, ?_⟩
  · rw [hfd]; rfl
  · rw [FatData.fd_slot, hfd]
    simp [openedRecord, entryRecord, hfile]
  · rw [FatData.fd_slot, hfd]
    exact Nat.zero_le _

lemma Capped.of_fd {p : Loc} (h : Capped p s) (hfd : s'.fat.fd p = s.fat.fd p) : Capped p s' := by
  refine ⟨?_, by rw [hfd]; exact h.cap, by rw [hfd]; exact h.inside⟩
  rw [← h.deref]
  simp only [FatData.deref, hfd]

lemma handleCall_capped {p : Loc} (h : Capped p s) (c : HandleCall) :
    Capped p (handleCall L p c s).2 := by
  cases c with
  | read n => exact (read_spec h n).2.2
  | close => exact (close_capped h).2

lemma Held.capped {p : Loc} (h : Held L p s) : Capped p s := by
  induction h with
  | opened _ hfile ho => exact openEntry_capped hfile ho
  | root hp hc hi =>
    subst hp
    rcases hi with hi | hi
    · exact (fatInitialize_initialised hi).capped hc
    · exact (fatInitializeVolume_initialised hi).capped hc
  | call c _ ih => exact handleCall_capped ih c
  | other hfd _ ih => exact ih.of_fd hfd

/-- The bounds of one call on a handle. -/
structure Bounded (p : Loc) (s : St) (c : HandleCall) (r : Except Stop (UInt32 × List UInt8))
    (s' : St) : Prop where
  before : (s.fat.fd p).pub.position ≤ (s.fat.fd p).pub.size
  after : (s'.fat.fd p).pub.position ≤ (s'.fat.fd p).pub.size
  copies : Logged Event.InBuffer s s'
  returns : ∃ count stored, r = .ok (count, stored) ∧ stored.length = count.toNat ∧
    match c with
    | .read n => count ≤ n ∧ count ≤ (s.fat.fd p).pub.size - (s.fat.fd p).pub.position ∧
        (s'.fat.fd p).pub.position.toNat = (s.fat.fd p).pub.position.toNat + count.toNat
    | .close => count = 0

lemma handleCall_bounded {p : Loc} (h : Capped p s) (c : HandleCall) :
    Bounded p s c (handleCall L p c s).1 (handleCall L p c s).2 := by
  have hin := h.inside
  have hafter := (handleCall_capped (L := L) h c).inside
  refine ⟨UInt32.le_iff_toNat_le.mpr hin, UInt32.le_iff_toNat_le.mpr hafter, ?_, ?_⟩
  · cases c with
    | read n => exact (logged_stable L s).read n (fun _ _ => trivial) (.refl s)
    | close => exact (logged_stable L s).close _ _ (.refl s)
  · cases c with
    | read n =>
      obtain ⟨⟨⟨count, stored, hr, hlen, hle, hpos⟩, -⟩, hn, -⟩ := read_spec (L := L) h n
      have hsub : ((s.fat.fd p).pub.size - (s.fat.fd p).pub.position).toNat =
          (s.fat.fd p).pub.size.toNat - (s.fat.fd p).pub.position.toNat :=
        UInt32.toNat_sub_of_le _ _ (UInt32.le_iff_toNat_le.mpr hin)
      refine ⟨count, stored, hr, hlen, ?_, ?_, hpos⟩
      · rw [UInt32.le_iff_toNat_le]; omega
      · rw [UInt32.le_iff_toNat_le, hsub]; omega
    | close => exact ⟨0, [], by rw [handleCall, (close_capped h).1]; rfl, rfl, rfl⟩

/-- **`FAT_Read` is bounded.** -/
theorem reads_bounded (L : Layer) (p : Loc) (calls : List HandleCall) (s : St) (h : Held L p s) :
    Always (handleCall L p) (Bounded p) calls s :=
  always_of_step (P := Capped p) (fun _ c hs _ => ⟨handleCall_bounded hs c, handleCall_capped hs c⟩)
    calls s h.capped (along_true calls s)

/-- A file of 1000 bytes is read past its end, closed and read again. -/
theorem reads_bounded_small : Always (handleCall smallLayer (.slot 0)) (Bounded (.slot 0))
    [.read 600, .read 600, .close, .read 10]
    (openEntry smallLayer (dirEntry [66] 0 3 1000) (mounted smallLayer)).2 :=
  reads_bounded smallLayer (.slot 0) _ _
    (.opened (dirEntry [66] 0 3 1000) (by decide +kernel) (Prod.ext (by decide +kernel) rfl))

end ArcOS.Fat
