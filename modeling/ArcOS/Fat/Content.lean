import ArcOS.Fat.Cache
import ArcOS.Fat.ReadBounds

/-!
What the chain of a file holds, and what reading through it delivers.

The content of a chain is its clusters laid end to end (`chain_content`). A record that reads the chain
keeps its cursor on the sector of its position (`Cursor`) and, unless the last read of a sector
failed, that sector in its buffer (`Loaded`). `readRound_content` says that a round delivers the bytes
of the chain at the position and keeps all this, `readLoop_content` that the loop does.
-/

namespace ArcOS.Fat

open Lib

/-! ### A volume -/

/-- The parts of the state that say where things are on the volume are the same. -/
structure SameVolume (f f' : FatData) : Prop where
  bootSector : f'.bootSector = f.bootSector
  dataSectionLba : f'.dataSectionLba = f.dataSectionLba
  fatType : f'.fatType = f.fatType

namespace SameVolume

variable {f f' : FatData}

lemma refl (f : FatData) : SameVolume f f := ⟨rfl, rfl, rfl⟩

lemma trans {f'' : FatData} (h : SameVolume f f') (h' : SameVolume f' f'') : SameVolume f f'' :=
  ⟨h'.1.trans h.1, h'.2.trans h.2, h'.3.trans h.3⟩

lemma symm (h : SameVolume f f') : SameVolume f' f :=
  ⟨h.bootSector.symm, h.dataSectionLba.symm, h.fatType.symm⟩

lemma sectorsPerCluster (h : SameVolume f f') : f'.sectorsPerCluster = f.sectorsPerCluster := by
  simp only [FatData.sectorsPerCluster, h.bootSector]

lemma clusterToLba (h : SameVolume f f') (cluster : UInt32) :
    f'.clusterToLba cluster = f.clusterToLba cluster := by
  simp only [FatData.clusterToLba, h.dataSectionLba, h.sectorsPerCluster]

lemma diskLink (h : SameVolume f f') (dev : Device) (part : Partition) (cluster : UInt32) :
    diskLink dev part f' cluster = Fat.diskLink dev part f cluster := by
  simp only [Fat.diskLink, tableByte, tableLba, FatData.reservedSectors, h.bootSector, h.fatType]

theorem stable (L : Layer) (f : FatData) : StableCalls L fun s => SameVolume f s.fat where
  note _ _ _ h := h
  disk _ _ _ _ h := h
  refill sector s h := by unfold refill; split <;> exact ⟨h.1, h.2, h.3⟩
  setFd loc _ _ _ _ h := by cases loc <;> exact ⟨h.1, h.2, h.3⟩
  setSlot _ _ _ _ _ h := ⟨h.1, h.2, h.3⟩
  search _ _ _ h := h
  close file s h := by
    unfold close
    split
    · exact h
    next p =>
    split
    · exact h
    · cases p <;> exact ⟨h.1, h.2, h.3⟩
    · exact ⟨h.1, h.2, h.3⟩

end SameVolume

/-! ### The content of a chain -/

variable (dev : Device) (part : Partition)

/-- A sector of a cluster. -/
def clusterSector (f : FatData) (cluster : UInt32) (k : ℕ) : Sector :=
  dev.disk (f.clusterToLba cluster + UInt32.ofNat k + part.partitionOffset)

/-- The bytes of a cluster. -/
def clusterBytes (f : FatData) (cluster : UInt32) : List UInt8 :=
  stretch (fun i => clusterSector dev part f cluster (i / 512) ⟨i % 512, mod_sector_lt i⟩) 0
    (512 * f.sectorsPerCluster.toNat)

/-- Sector `a` of a chain. -/
def chainSector (f : FatData) (chain : List UInt32) (a : ℕ) : Sector :=
  clusterSector dev part f (chain.getD (a / f.sectorsPerCluster.toNat) 0)
    (a % f.sectorsPerCluster.toNat)

/-- Byte `p` of a chain. -/
def chainByte (f : FatData) (chain : List UInt32) (p : ℕ) : UInt8 :=
  chainSector dev part f chain (p / 512) ⟨p % 512, mod_sector_lt p⟩

/-- **The content of a chain is its clusters laid end to end.** -/
theorem chain_content (f : FatData) (hspc : 0 < f.sectorsPerCluster.toNat) (chain : List UInt32) :
    chain.flatMap (clusterBytes dev part f) = stretch (chainByte dev part f chain) 0
      (512 * f.sectorsPerCluster.toNat * chain.length) := by
  unfold clusterBytes
  rw [flatMap_stretch 0 _ (by omega)]
  apply stretch_congr
  intro p _
  simp only [chainByte, chainSector, Nat.zero_add, Nat.div_div_eq_div_mul, Nat.mod_mul_right_div_self,
    Nat.mod_mul_right_mod]

/-- The links of a chain are on the disk, and none of its clusters says that the chain ends. -/
structure Linked (f : FatData) (chain : List UInt32) : Prop where
  cluster : ∀ c ∈ chain, c < 0xFFFFFFF8
  link : ∀ i, i + 1 < chain.length →
    diskLink dev part f (chain.getD i 0) = chain.getD (i + 1) 0

/-- The record of an open file is on its chain: the cursor names the sector of its position. -/
structure Cursor (f : FatData) (chain : List UInt32) (d : FileData) : Prop where
  handle : d.pub.handle ≠ rootDirectoryHandle
  isFile : d.pub.isDirectory = false
  inside : d.pub.position.toNat ≤ d.pub.size.toNat
  room : d.pub.size.toNat ≤ 512 * f.sectorsPerCluster.toNat * chain.length
  place : d.pub.position.toNat < d.pub.size.toNat →
    d.currentCluster = chain.getD (d.pub.position.toNat / 512 / f.sectorsPerCluster.toNat) 0 ∧
    d.currentSectorInCluster.toNat = d.pub.position.toNat / 512 % f.sectorsPerCluster.toNat

/-- The buffer holds the sector that the cursor names, if any bytes are left. -/
def Loaded (f : FatData) (d : FileData) : Prop := d.pub.position.toNat < d.pub.size.toNat →
  d.buffer = dev.disk (f.clusterToLba d.currentCluster + d.currentSectorInCluster +
    part.partitionOffset)

/-- Every lookup that is logged finds what it looks for. -/
def FindsEvent : Event → Prop
  | .nextCluster f clock cluster => Finds dev part f clock cluster
  | _ => True

variable {dev part} {f : FatData} {chain : List UInt32} {loc : Loc} {s : St}

/-! ### Looking ahead -/

lemma succ_div_mod (a : ℕ) {k : ℕ} (hk : 0 < k) :
    (a % k + 1 < k → (a + 1) / k = a / k ∧ (a + 1) % k = a % k + 1) ∧
      (k ≤ a % k + 1 → (a + 1) / k = a / k + 1 ∧ (a + 1) % k = 0) := by
  have hlt := Nat.mod_lt a hk
  have hdm := Nat.div_add_mod a k
  refine ⟨fun h => (Nat.div_mod_unique hk).mpr ⟨by omega, h⟩,
    fun h => (Nat.div_mod_unique hk).mpr ⟨?_, hk⟩⟩
  rw [Nat.mul_add]
  omega

lemma stepCursor_content (hv : SameVolume f s.fat) (hc : Coherent dev part s)
    (hl : Linked dev part f chain) (hspc : 0 < f.sectorsPerCluster.toNat) {a : ℕ}
    (hcluster : (s.fat.fd loc).currentCluster = chain.getD (a / f.sectorsPerCluster.toNat) 0)
    (hsector : (s.fat.fd loc).currentSectorInCluster.toNat = a % f.sectorsPerCluster.toNat)
    (hlog : Logged (FindsEvent dev part) s (stepCursor (bootLayer dev part) loc s)) :
    Coherent dev part (stepCursor (bootLayer dev part) loc s) ∧
    (a + 1 < f.sectorsPerCluster.toNat * chain.length →
      ((stepCursor (bootLayer dev part) loc s).fat.fd loc).currentCluster =
          chain.getD ((a + 1) / f.sectorsPerCluster.toNat) 0 ∧
        ((stepCursor (bootLayer dev part) loc s).fat.fd loc).currentSectorInCluster.toNat =
          (a + 1) % f.sectorsPerCluster.toNat) := by
  have hsize := f.sectorsPerCluster.toNat_lt
  have hsucc : ((s.fat.fd loc).currentSectorInCluster + 1).toNat =
      a % f.sectorsPerCluster.toNat + 1 := by
    have := Nat.mod_lt a hspc
    rw [UInt32.toNat_add, hsector, show (1 : UInt32).toNat = 1 from rfl]
    omega
  obtain ⟨hsame, hnext⟩ := succ_div_mod a hspc
  unfold stepCursor at hlog ⊢
  dsimp only at hlog ⊢
  split
  · next hle =>
    rw [if_pos hle] at hlog
    rw [hv.sectorsPerCluster, UInt32.le_iff_toNat_le, hsucc] at hle
    obtain ⟨hdiv, hmod⟩ := hnext hle
    have hlog' : Logged (FindsEvent dev part) (s.setFd loc { s.fat.fd loc with
        currentSectorInCluster := 0 }) (nextCluster (bootLayer dev part) (s.fat.fd loc).currentCluster
          (s.setFd loc { s.fat.fd loc with currentSectorInCluster := 0 })).2 := hlog
    have hc' : Coherent dev part (s.setFd loc { s.fat.fd loc with currentSectorInCluster := 0 }) := by
      cases loc <;> exact hc
    obtain ⟨hlink, hc''⟩ := nextCluster_found hc' (nextCluster_logged hlog')
    refine ⟨by cases loc <;> exact hc'', fun hlt => ?_⟩
    have hi : a / f.sectorsPerCluster.toNat + 1 < chain.length := by
      rw [← hdiv]
      exact Nat.div_lt_of_lt_mul hlt
    have hv' : SameVolume f (s.setFd loc { s.fat.fd loc with currentSectorInCluster := 0 }).fat := by
      cases loc <;> exact ⟨hv.1, hv.2, hv.3⟩
    rw [St.setFd_fat, FatData.fd_setFd, hdiv, hmod]
    refine ⟨?_, rfl⟩
    have hnext := hl.link _ hi
    rw [← hcluster] at hnext
    rw [hv'.diskLink] at hlink
    exact hlink.trans hnext
  · next hle =>
    rw [hv.sectorsPerCluster, UInt32.le_iff_toNat_le, hsucc] at hle
    obtain ⟨hdiv, hmod⟩ := hsame (by omega)
    refine ⟨by cases loc <;> exact hc, fun _ => ?_⟩
    rw [St.setFd_fat, FatData.fd_setFd, hdiv, hmod]
    exact ⟨hcluster, hsucc⟩

lemma Coherent.setFd {d : FileData} (h : Coherent dev part s) : Coherent dev part (s.setFd loc d) := by
  cases loc <;> exact h

lemma Coherent.fillBuffer {lba : UInt32} (h : Coherent dev part s) :
    Coherent dev part (fillBuffer (bootLayer dev part) loc lba s).2 := by
  unfold Fat.fillBuffer
  dsimp only
  split <;> cases loc <;> exact h

lemma fillBuffer_fst {lba : UInt32} : (fillBuffer (bootLayer dev part) loc lba s).1 =
    (dev.readSectors s.clock (lba + part.partitionOffset) 512 (s.fat.fd loc).buffer).1 := by
  unfold fillBuffer
  dsimp only
  split
  · next h => exact h.symm
  · next h => exact (Bool.eq_false_of_not_eq_true h).symm

lemma readSectors_true (dev : Device) {clock n : ℕ} {lba : UInt32} {buf : Bytes n}
    (h : (dev.readSectors clock lba n buf).1 = true) :
    (dev.readSectors clock lba n buf).2 = dev.window lba n := by
  unfold Device.readSectors at h ⊢
  split at h
  · next hok => rw [if_pos hok]
  · cases h

/-- **Looking ahead** from the end of sector `a` of the chain. -/
theorem lookAhead_content (hv : SameVolume f s.fat) (hc : Coherent dev part s)
    (hl : Linked dev part f chain) (hspc : 0 < f.sectorsPerCluster.toNat)
    (hh : (s.fat.fd loc).pub.handle ≠ rootDirectoryHandle)
    (hin : (s.fat.fd loc).pub.position.toNat ≤ (s.fat.fd loc).pub.size.toNat)
    (hroom : (s.fat.fd loc).pub.size.toNat ≤ 512 * f.sectorsPerCluster.toNat * chain.length)
    {a : ℕ} (hpos : (s.fat.fd loc).pub.position.toNat = 512 * (a + 1))
    (hcluster : (s.fat.fd loc).currentCluster = chain.getD (a / f.sectorsPerCluster.toNat) 0)
    (hsector : (s.fat.fd loc).currentSectorInCluster.toNat = a % f.sectorsPerCluster.toNat)
    (hlog : Logged (FindsEvent dev part) s (lookAhead (bootLayer dev part) loc s).2) :
    Coherent dev part (lookAhead (bootLayer dev part) loc s).2 ∧
    ((lookAhead (bootLayer dev part) loc s).2.fat.fd loc).pub = (s.fat.fd loc).pub ∧
    ((s.fat.fd loc).pub.position.toNat < (s.fat.fd loc).pub.size.toNat →
      ((lookAhead (bootLayer dev part) loc s).2.fat.fd loc).currentCluster =
          chain.getD ((a + 1) / f.sectorsPerCluster.toNat) 0 ∧
        ((lookAhead (bootLayer dev part) loc s).2.fat.fd loc).currentSectorInCluster.toNat =
          (a + 1) % f.sectorsPerCluster.toNat) ∧
    ((lookAhead (bootLayer dev part) loc s).1 = true →
      Loaded dev part f ((lookAhead (bootLayer dev part) loc s).2.fat.fd loc)) ∧
    (dev.Reliable → (lookAhead (bootLayer dev part) loc s).1 = true ∨
      (s.fat.fd loc).pub.position = (s.fat.fd loc).pub.size) := by
  have hgrows := stepCursor_grows (bootLayer dev part) loc s hh
  obtain ⟨c, k, hfd⟩ := stepCursor_fd (bootLayer dev part) loc s
  have hv₁ : SameVolume f (stepCursor (bootLayer dev part) loc s).fat :=
    (SameVolume.stable _ f).stepCursor trivial hh hv
  have hbound : a + 1 < f.sectorsPerCluster.toNat * chain.length →
      chain.getD ((a + 1) / f.sectorsPerCluster.toNat) 0 < 0xFFFFFFF8 := fun h => by
    have hi := Nat.div_lt_of_lt_mul h
    rw [List.getD_eq_getElem _ _ hi]
    exact hl.cluster _ (List.getElem_mem hi)
  have hleft : (s.fat.fd loc).pub.position.toNat < (s.fat.fd loc).pub.size.toNat →
      a + 1 < f.sectorsPerCluster.toNat * chain.length := fun h => by
    rw [Nat.mul_assoc] at hroom
    omega
  unfold lookAhead at hlog ⊢
  rw [if_neg hh] at hlog ⊢
  dsimp only at hlog ⊢
  generalize hs₁ : stepCursor (bootLayer dev part) loc s = s₁ at *
  split
  · next hend =>
    rw [if_pos hend] at hlog
    obtain ⟨hc₁, hplace⟩ := stepCursor_content hv hc hl hspc hcluster hsector (hs₁ ▸ hlog)
    rw [hs₁] at hc₁ hplace
    -- a cluster that says the chain ends is none of the chain, so nothing is left to read
    have hdone : (s.fat.fd loc).pub.position = (s.fat.fd loc).pub.size := by
      by_contra hne
      have hlt : (s.fat.fd loc).pub.position.toNat < (s.fat.fd loc).pub.size.toNat :=
        lt_of_le_of_ne hin fun h => hne (UInt32.toNat_inj.mp h)
      have hb := hbound (hleft hlt)
      rw [← (hplace (hleft hlt)).1, UInt32.lt_iff_toNat_lt] at hb
      rw [UInt32.le_iff_toNat_le] at hend
      omega
    rw [St.setFd_fat, FatData.fd_setFd, hfd]
    refine ⟨hc₁.setFd, ?_, fun hlt => ?_, fun h => absurd h (by simp), fun _ => .inr hdone⟩
    · exact congrArg (fun z => ({ (s.fat.fd loc).pub with size := z } : File)) hdone
    · rw [hdone] at hlt
      omega
  · next hend =>
    rw [if_neg hend] at hlog
    obtain ⟨hlog₁, -⟩ := hlog.split hgrows (fillBuffer_grows (bootLayer dev part) loc s₁ _)
    obtain ⟨hc₁, hplace⟩ := stepCursor_content hv hc hl hspc hcluster hsector (hs₁ ▸ hlog₁)
    rw [hs₁] at hc₁ hplace
    rw [fillBuffer_fd]
    refine ⟨hc₁.fillBuffer, by rw [hfd], fun hlt => hplace (hleft hlt), fun hgo _ => ?_, fun hrel => ?_⟩
    · rw [fillBuffer_fst] at hgo
      have hread := readSectors_true dev hgo
      dsimp only
      rw [← hv₁.clusterToLba, ← Device.window_sector, ← hread]
      rfl
    · exact .inl (by rw [fillBuffer_fst, Device.readSectors_of_ok (hrel _ _)])

/-! ### One round -/

/-- A state in which the record at a place is on its chain, and the cache coherent. -/
structure OnChain (dev : Device) (part : Partition) (f : FatData) (chain : List UInt32) (loc : Loc)
    (s : St) : Prop where
  volume : SameVolume f s.fat
  cache : Coherent dev part s
  cursor : Cursor f chain (s.fat.fd loc)

lemma loaded_slice (h : Cursor f chain (s.fat.fd loc)) (hb : Loaded dev part f (s.fat.fd loc))
    (hlt : (s.fat.fd loc).pub.position.toNat < (s.fat.fd loc).pub.size.toNat) {n : ℕ}
    (hn : (s.fat.fd loc).pub.position.toNat % 512 + n ≤ 512) :
    (s.fat.fd loc).buffer.slice ((s.fat.fd loc).pub.position.toNat % 512) n =
      stretch (chainByte dev part f chain) (s.fat.fd loc).pub.position.toNat n := by
  obtain ⟨hcluster, hsector⟩ := h.place hlt
  apply Bytes.slice_eq_stretch hn
  intro i hi hin
  have hdiv : ((s.fat.fd loc).pub.position.toNat + i) / 512 =
      (s.fat.fd loc).pub.position.toNat / 512 := by omega
  have hmod : ((s.fat.fd loc).pub.position.toNat + i) % 512 =
      (s.fat.fd loc).pub.position.toNat % 512 + i := by omega
  rw [hb hlt]
  simp only [chainByte, chainSector, clusterSector, hdiv, hmod, ← hsector, ← hcluster,
    UInt32.ofNat_toNat]

lemma Cursor.moved {d d' : FileData} {p : UInt32} (h : Cursor f chain d)
    (hpub : d'.pub = { d.pub with position := p }) (hin : p.toNat ≤ d.pub.size.toNat)
    (hplace : p.toNat < d.pub.size.toNat →
      d'.currentCluster = chain.getD (p.toNat / 512 / f.sectorsPerCluster.toNat) 0 ∧
        d'.currentSectorInCluster.toNat = p.toNat / 512 % f.sectorsPerCluster.toNat) :
    Cursor f chain d' := by
  refine ⟨?_, ?_, ?_, ?_, ?_⟩ <;> rw [hpub]
  · exact h.handle
  · exact h.isFile
  · exact hin
  · exact h.room
  · exact hplace

/-- **One round delivers the bytes of the chain at the position.** -/
theorem readRound_content (ho : OnChain dev part f chain loc s) (hb : Loaded dev part f (s.fat.fd loc))
    (hl : Linked dev part f chain) (hspc : 0 < f.sectorsPerCluster.toNat) {n : UInt32} (h0 : 0 < n.toNat)
    (hn : (s.fat.fd loc).pub.position.toNat + n.toNat ≤ (s.fat.fd loc).pub.size.toNat)
    (hlog : Logged (FindsEvent dev part) s (readRound (bootLayer dev part) loc n s).state) :
    (readRound (bootLayer dev part) loc n s).chunk =
        stretch (chainByte dev part f chain) (s.fat.fd loc).pub.position.toNat
          (readRound (bootLayer dev part) loc n s).take.toNat ∧
    OnChain dev part f chain loc (readRound (bootLayer dev part) loc n s).state ∧
    ((readRound (bootLayer dev part) loc n s).state.fat.fd loc).pub =
      { (s.fat.fd loc).pub with
        position := (s.fat.fd loc).pub.position + (readRound (bootLayer dev part) loc n s).take } ∧
    ((readRound (bootLayer dev part) loc n s).goesOn = true →
      Loaded dev part f ((readRound (bootLayer dev part) loc n s).state.fat.fd loc)) ∧
    (dev.Reliable → (readRound (bootLayer dev part) loc n s).goesOn = true ∨
      ((readRound (bootLayer dev part) loc n s).state.fat.fd loc).pub.position =
        ((readRound (bootLayer dev part) loc n s).state.fat.fd loc).pub.size) := by
  obtain ⟨hin, h16, htake⟩ := takeCount_le n (s.fat.fd loc).pub.position
  have hz := (s.fat.fd loc).pub.size.toNat_lt
  have hlt : (s.fat.fd loc).pub.position.toNat < (s.fat.fd loc).pub.size.toNat := by omega
  obtain ⟨hcluster, hsector⟩ := ho.cursor.place hlt
  have hpos : ((s.fat.fd loc).pub.position + takeCount n (s.fat.fd loc).pub.position).toNat =
      (s.fat.fd loc).pub.position.toNat + (takeCount n (s.fat.fd loc).pub.position).toNat := by
    rw [UInt32.toNat_add, Nat.mod_eq_of_lt (by omega)]
  have hleft := leftInBuffer_toNat (s.fat.fd loc).pub.position
  have hmod : ((s.fat.fd loc).pub.position % 512).toNat = (s.fat.fd loc).pub.position.toNat % 512 := by
    rw [UInt32.toNat_mod]
    rfl
  have hfd := copyChunk_fd loc s (takeCount n (s.fat.fd loc).pub.position)
  refine ⟨?_, ?_⟩
  · simp only [readRound, copyChunk, memcpy, h16, hmod]
    exact loaded_slice ho.cursor hb hlt (by omega)
  have hv : SameVolume f (copyChunk loc (takeCount n (s.fat.fd loc).pub.position) s).2.fat :=
    (SameVolume.stable (bootLayer dev part) f).copyChunk trivial n ho.volume
  have hc : Coherent dev part (copyChunk loc (takeCount n (s.fat.fd loc).pub.position) s).2 := by
    exact Coherent.setFd (s := s.note _) ho.cache
  have hcopied : Logged (FindsEvent dev part) s
      (copyChunk loc (takeCount n (s.fat.fd loc).pub.position) s).2 :=
    .cons (show FindsEvent dev part (.copy _ _) from trivial) rfl
  unfold readRound at hlog ⊢
  dsimp only at hlog ⊢
  generalize hs₁ : (copyChunk loc (takeCount n (s.fat.fd loc).pub.position) s).2 = s₁ at *
  split
  · next hfull =>
    rw [if_pos hfull] at hlog
    have hfull' := congrArg UInt32.toNat hfull
    rw [hleft] at hfull'
    have hhandle : (s₁.fat.fd loc).pub.handle ≠ rootDirectoryHandle := by
      rw [hfd]
      exact ho.cursor.handle
    obtain ⟨-, hlog₁⟩ := hlog.split hcopied.suffix (lookAhead_grows (bootLayer dev part) loc s₁)
    obtain ⟨hc', hpub, hplace, hload, hrel⟩ := lookAhead_content
      (a := (s.fat.fd loc).pub.position.toNat / 512) hv hc hl hspc hhandle
      (by rw [hfd]; dsimp only; omega) (by rw [hfd]; exact ho.cursor.room)
      (by rw [hfd]; dsimp only; omega) (by rw [hfd]; exact hcluster) (by rw [hfd]; exact hsector) hlog₁
    rw [hfd] at hpub hplace
    refine ⟨⟨?_, hc', ho.cursor.moved hpub (by omega) fun h => ?_⟩, hpub, hload, fun hr => ?_⟩
    · exact (SameVolume.stable (bootLayer dev part) f).lookAhead trivial hv
    · rw [show ((s.fat.fd loc).pub.position + takeCount n (s.fat.fd loc).pub.position).toNat / 512 =
        (s.fat.fd loc).pub.position.toNat / 512 + 1 by omega]
      exact hplace h
    · rw [hpub]
      rcases hrel hr with h | h
      · exact .inl h
      · rw [hfd] at h
        exact .inr h
  · next hfull =>
    have htake' : (takeCount n (s.fat.fd loc).pub.position).toNat <
        512 - (s.fat.fd loc).pub.position.toNat % 512 := by
      rw [htake]
      have hne : (takeCount n (s.fat.fd loc).pub.position).toNat ≠
          512 - (s.fat.fd loc).pub.position.toNat % 512 := fun h =>
        hfull (UInt32.toNat_inj.mp (hleft.trans h.symm))
      omega
    have hsame : ((s.fat.fd loc).pub.position + takeCount n (s.fat.fd loc).pub.position).toNat / 512 =
        (s.fat.fd loc).pub.position.toNat / 512 := by omega
    rw [hfd]
    refine ⟨⟨hv, hc, ho.cursor.moved (by rw [hfd]) (by omega) fun _ => ?_⟩, rfl,
      fun _ _ => hb hlt, fun _ => .inl rfl⟩
    rw [hfd, hsame]
    exact ⟨hcluster, hsector⟩

/-! ### The loop and the function -/

/-- What a request of `n` bytes through a record on a chain leads to. -/
structure Reads (dev : Device) (part : Partition) (f : FatData) (chain : List UInt32) (loc : Loc)
    (n : UInt32) (s : St) (r : Except Stop (UInt32 × List UInt8)) (s' : St) (count : UInt32) :
    Prop where
  result : r = .ok (count,
    stretch (chainByte dev part f chain) (s.fat.fd loc).pub.position.toNat count.toNat)
  le : count.toNat ≤ n.toNat
  onChain : OnChain dev part f chain loc s'
  pub : (s'.fat.fd loc).pub =
    { (s.fat.fd loc).pub with position := (s.fat.fd loc).pub.position + count }
  reliable : dev.Reliable → Loaded dev part f (s.fat.fd loc) →
    count = n ∧ Loaded dev part f (s'.fat.fd loc)

lemma Reads.zero {n : UInt32} (hn : n.toNat = 0) (ho : OnChain dev part f chain loc s) :
    Reads dev part f chain loc n s (.ok (0, [])) s 0 := by
  refine ⟨rfl, Nat.zero_le _, ho, ?_, fun _ hb => ⟨UInt32.toNat_inj.mp hn.symm, hb⟩⟩
  rw [UInt32.add_zero]

lemma Reads.append {n take count : UInt32} {chunk : List UInt8} {s₁ : St}
    {r : Except Stop (UInt32 × List UInt8)} (htake : take.toNat ≤ n.toNat)
    (hchunk : chunk =
      stretch (chainByte dev part f chain) (s.fat.fd loc).pub.position.toNat take.toNat)
    (hpub : (s₁.fat.fd loc).pub =
      { (s.fat.fd loc).pub with position := (s.fat.fd loc).pub.position + take })
    (hpos : ((s.fat.fd loc).pub.position + take).toNat =
      (s.fat.fd loc).pub.position.toNat + take.toNat)
    (hload : Loaded dev part f (s₁.fat.fd loc))
    (h : Reads dev part f chain loc (n - take) s₁ r s' count) :
    Reads dev part f chain loc n s (r.map fun x => (take + x.1, chunk ++ x.2)) s' (take + count) := by
  obtain ⟨hres, hle, ho, hpub', hrel⟩ := h
  have hrest : (n - take).toNat = n.toNat - take.toNat :=
    UInt32.toNat_sub_of_le _ _ (UInt32.le_iff_toNat_le.mpr htake)
  have hsum : (take + count).toNat = take.toNat + count.toNat := by
    have := n.toNat_lt
    rw [UInt32.toNat_add, Nat.mod_eq_of_lt (by omega)]
  refine ⟨?_, by omega, ho, ?_, fun hr _ => ?_⟩
  · rw [hres, hpub]
    simp only [Except.map, hchunk, hsum, stretch_add, hpos]
  · rw [hpub', hpub]
    simp only [UInt32.add_assoc]
  · obtain ⟨hcount, hload'⟩ := hrel hr hload
    refine ⟨?_, hload'⟩
    rw [hcount]
    grind

/-- **The loop of `FAT_Read` delivers the bytes of the chain from the position on.** -/
theorem readLoop_content (hl : Linked dev part f chain) (hspc : 0 < f.sectorsPerCluster.toNat) :
    ∀ (rounds : ℕ) (n : UInt32) (s : St), n.toNat ≤ rounds → OnChain dev part f chain loc s →
      (0 < n.toNat → Loaded dev part f (s.fat.fd loc)) →
      (s.fat.fd loc).pub.position.toNat + n.toNat ≤ (s.fat.fd loc).pub.size.toNat →
      Logged (FindsEvent dev part) s (readLoop (bootLayer dev part) loc rounds n s).2 →
      ∃ count, Reads dev part f chain loc n s (readLoop (bootLayer dev part) loc rounds n s).1
        (readLoop (bootLayer dev part) loc rounds n s).2 count := by
  intro rounds
  induction rounds with
  | zero =>
    intro n s hr ho _ _ _
    rw [readLoop_done (by rw [UInt32.lt_iff_toNat_lt]; simp; omega)]
    exact ⟨0, .zero (by omega) ho⟩
  | succ rounds ih =>
    intro n s hr ho hb hn hlog
    by_cases h0 : 0 < n
    · have h0' : 0 < n.toNat := by simpa [UInt32.lt_iff_toNat_lt] using h0
      have htake := (readRound_spec (bootLayer dev part) loc s n).1
      have hgrows := readRound_grows (bootLayer dev part) loc s n
      rw [readLoop_succ h0] at hlog ⊢
      generalize readRound_eq : readRound (bootLayer dev part) loc n s = r at *
      have hz := (s.fat.fd loc).pub.size.toNat_lt
      have hpos : ((s.fat.fd loc).pub.position + r.take).toNat =
          (s.fat.fd loc).pub.position.toNat + r.take.toNat := by
        rw [UInt32.toNat_add, Nat.mod_eq_of_lt (by omega)]
      split
      · next hgo =>
        rw [if_pos hgo] at hlog
        obtain ⟨hlog₁, hlog₂⟩ := hlog.split hgrows
          (readLoop_grows (bootLayer dev part) loc r.state rounds (n - r.take))
        obtain ⟨hchunk, ho', hpub, hload, -⟩ := readRound_content ho (hb h0') hl hspc h0' hn
          (readRound_eq ▸ hlog₁)
        rw [readRound_eq] at hchunk ho' hpub hload
        have hrest : (n - r.take).toNat = n.toNat - r.take.toNat :=
          UInt32.toNat_sub_of_le _ _ (by rw [UInt32.le_iff_toNat_le]; omega)
        obtain ⟨count, hreads⟩ := ih (n - r.take) r.state (by omega) ho'
          (fun _ => hload hgo) (by rw [hpub]; dsimp only; omega) hlog₂
        exact ⟨r.take + count, .append (by omega) hchunk hpub hpos (hload hgo) hreads⟩
      · next hgo =>
        rw [if_neg hgo] at hlog
        obtain ⟨hchunk, ho', hpub, -, hrel⟩ := readRound_content ho (hb h0') hl hspc h0' hn
          (readRound_eq ▸ hlog)
        rw [readRound_eq] at hchunk ho' hpub hrel
        refine ⟨r.take, by rw [hchunk], by omega, ho', hpub, fun hr _ => ?_⟩
        -- a reliable disk ends the loop early only where the file ends
        have hend : ((s.fat.fd loc).pub.position + r.take).toNat = (s.fat.fd loc).pub.size.toNat := by
          rcases hrel hr with h | h
          · exact absurd h hgo
          · rw [hpub] at h
            exact congrArg UInt32.toNat h
        refine ⟨UInt32.toNat_inj.mp (by omega), fun h => ?_⟩
        dsimp only at h
        rw [hpub] at h
        dsimp only at h
        omega
    · have h0' : n.toNat = 0 := by
        rw [UInt32.lt_iff_toNat_lt] at h0
        simpa using h0
      rw [readLoop_done h0]
      exact ⟨0, .zero h0' ho⟩

/-- **`FAT_Read` on a file delivers the bytes of its chain from the position on**, as far as the disk
answers. -/
theorem read_content (hl : Linked dev part f chain) (hspc : 0 < f.sectorsPerCluster.toNat)
    (hderef : s.fat.deref (some loc) = .ok loc) (ho : OnChain dev part f chain loc s) {n : UInt32}
    (hb : 0 < n.toNat → Loaded dev part f (s.fat.fd loc))
    (hlog : Logged (FindsEvent dev part) s (read (bootLayer dev part) (some loc) n s).2) :
    (cappedCount (s.fat.fd loc).pub n).toNat =
        min n.toNat ((s.fat.fd loc).pub.size.toNat - (s.fat.fd loc).pub.position.toNat) ∧
      ∃ count, Reads dev part f chain loc (cappedCount (s.fat.fd loc).pub n) s
        (read (bootLayer dev part) (some loc) n s).1 (read (bootLayer dev part) (some loc) n s).2
        count := by
  have hin := ho.cursor.inside
  have hcap := cappedCount_eq n (.inl ho.cursor.isFile) hin
  refine ⟨hcap, ?_⟩
  unfold read at hlog ⊢
  rw [hderef] at hlog ⊢
  exact readLoop_content hl hspc _ _ s le_rfl ho (fun h => hb (by omega)) (by omega) hlog

end ArcOS.Fat
