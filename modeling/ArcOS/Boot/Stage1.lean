import ArcOS.Boot.Chs
import ArcOS.Disk.Mbr

/-!
The way of stage 1 from the MBR to stage 2: `start`, `disk_read` and `disk_reset` of `boot.asm`.

A table in the data of stage 1 lists the blocks of stage 2, each with the LBA of its first sector and a
number of sectors, and ends with the LBA 0. They are read one behind the other to 0x500, over a BIOS whose
every call may fail. What a failed read leaves in its buffer is open.

The addresses are the ones of an image: the table is at 393 of the boot sector, where the scripts that build
the images write it, and the rest of the data lies right in front of it.
-/

namespace ArcOS.Boot

open Lib Lib.X86 Disk

/-! ### The drive -/

/-- The drive in DL, as INT 13h has it. A read goes on over the end of a track. -/
structure Drive where
  /-- The carry flag and BX after 41h. -/
  check : Bool × UInt16
  /-- Whether read or reset number `n` returns without the carry flag. -/
  ok : ℕ → Bool
  image : ℕ → UInt8
  /-- What call `n` leaves in front of its buffer if it is a read that fails. -/
  torn : ℕ → List UInt8
  sectors : ℕ
  heads : ℕ

/-- The memory, and the number of reads and resets so far. -/
structure Stage1 where
  mem : Memory
  calls : ℕ

/-- The bytes of `count` sectors. -/
def Drive.block (d : Drive) (lba count : ℕ) : List UInt8 := stretch d.image (512 * lba) (512 * count)

/-- A read, and whether it succeeded. -/
def Drive.transfer (d : Drive) (lba count : ℕ) (dest : UInt32) (s : Stage1) : Bool × Stage1 :=
  if d.ok s.calls then (true, ⟨s.mem.store dest (d.block lba count), s.calls + 1⟩)
  else (false, ⟨s.mem.store dest ((d.torn s.calls).take (512 * count)), s.calls + 1⟩)

/-- INT 13h/42h with the address packet at `dap`. -/
def Drive.extendedRead (d : Drive) (dap : UInt32) (s : Stage1) : Bool × Stage1 :=
  let packet := s.mem.view dap
  d.transfer ((word32 packet 8).toNat + 2 ^ 32 * (word32 packet 12).toNat) (word16 packet 2).toNat
    (realMode (word16 packet 6) (word16 packet 4)) s

/-- INT 13h/02h -/
def Drive.read (d : Drive) (r : ReadRegs) (s : Stage1) : Bool × Stage1 :=
  d.transfer ((r.cylinder * d.heads + r.head) * d.sectors + (r.sector - 1)) r.al.toNat (realMode r.es r.bx) s

/-! ### `boot.asm` -/

/-- `ebr_drive_number` -/
def ebrDriveNumber : UInt32 := 0x7C24

/-- `have_extensions` -/
def haveExtensions : UInt32 := 0x7D78

/-- `extensions_dap` -/
def extensionsDap : UInt32 := 0x7D79

/-- `stage2_location` -/
def stage2Location : UInt16 := 0x7D89

/-- `STAGE2_LOAD_SEGMENT` -/
def stage2LoadSegment : UInt16 := 0x0

/-- `STAGE2_LOAD_OFFSET` -/
def stage2LoadOffset : UInt16 := 0x500

/-- Where stage 1 ends without stage 2. -/
inductive Stop
  /-- `wait_key_and_reboot`, with what is on the screen -/
  | reboot (shown : String)
  | divideError
  /-- the table did not end within the rounds it was given -/
  | rounds
deriving DecidableEq

/-- `floppy_error` -/
def floppyError : Stop := .reboot "Read failed\r\n"

/-- What `lba_to_chs` makes of AX: CH, CL and DH. -/
def chsOf (sectors heads ax : UInt16) : UInt8 × UInt8 × UInt8 :=
  (lowByte (ax / sectors / heads), lowByte (ax % sectors + 1) ||| highByte (ax / sectors / heads) <<< 6,
    lowByte (ax / sectors % heads))

/-- `disk_reset` -/
def diskReset (d : Drive) (s : Stage1) : Except Stop Stage1 :=
  if d.ok s.calls then .ok { s with calls := s.calls + 1 } else .error floppyError

/-- `.retry` of `disk_read`, with the attempts left in DI -/
def retry (d : Drive) (read : Stage1 → Bool × Stage1) : ℕ → Stage1 → Except Stop Stage1
  | 0, _ => .error floppyError
  | di + 1, s =>
    match read s with
    | (true, s) => .ok s
    | (false, s) =>
      match diskReset d s with
      | .ok s => retry d read di s
      | .error stop => .error stop

/-- The address packet as `disk_read` fills it in. -/
def fillDap (eax : UInt32) (cl : UInt8) (es bx : UInt16) (m : Memory) : Memory :=
  let m := m.store (extensionsDap + 8) (bytes32 eax)
  let m := m.store (extensionsDap + 6) (bytes16 es)
  let m := m.store (extensionsDap + 4) (bytes16 bx)
  m.store (extensionsDap + 2) [cl]

/-- `disk_read` -/
def diskRead (d : Drive) (eax : UInt32) (cl dl : UInt8) (es bx : UInt16) (s : Stage1) : Except Stop Stage1 :=
  if s.mem haveExtensions = 1 then
    retry d (d.extendedRead extensionsDap) 3 { s with mem := fillDap eax cl es bx s.mem }
  else
    let sectors := word16 (s.mem.view 0x7C18) 0
    let heads := word16 (s.mem.view 0x7C1A) 0
    if sectors = 0 ∨ heads = 0 then .error .divideError
    else
      let (ch, clOut, dh) := chsOf sectors heads eax.toUInt16
      retry d (d.read { al := cl, ch := ch, cl := clOut, dh := dh, dl := dl, es := es, bx := bx }) 3 s

/-- `.loop` of `start`, with the rounds it is given -/
def loadLoop (d : Drive) (dl : UInt8) : ℕ → UInt16 → UInt16 → Stage1 → Except Stop Stage1
  | 0, _, _, _ => .error .rounds
  | rounds + 1, si, es, s =>
    let eax := word32 (s.mem.view (realMode 0 si)) 0
    let cl := s.mem (realMode 0 (si + 4))
    if eax = 0 then .ok s
    else
      match diskRead d eax cl dl es stage2LoadOffset s with
      | .ok s => loadLoop d dl rounds (si + 5) (es + cl.toUInt16 <<< 5) s
      | .error stop => .error stop

/-- The registers and the memory at the jump to stage 2. -/
structure Entry where
  dl : UInt8
  si : UInt16
  di : UInt16
  cs : UInt16
  ip : UInt16
  mem : Memory

/-- `start` -/
def start (d : Drive) (rounds : ℕ) (ds si : UInt16) (dl : UInt8) (m : Memory) : Except Stop Entry :=
  let m := repMovsb ds partitionEntrySegment 16 si partitionEntryOffset m
  let m := Function.update m ebrDriveNumber dl
  let extensions := !d.check.1 && d.check.2 == 0xAA55
  let m := Function.update m haveExtensions (if extensions then 1 else 0)
  match loadLoop d dl rounds stage2Location stage2LoadSegment ⟨m, 0⟩ with
  | .ok s => .ok {
      dl := s.mem ebrDriveNumber
      si := partitionEntryOffset
      di := partitionEntrySegment
      cs := stage2LoadSegment
      ip := stage2LoadOffset
      mem := s.mem }
  | .error stop => .error stop

/-! ### The retries -/

/-- Read number `n` or one after it succeeds, as attempt `j`, with a reset behind each one that does not. -/
def ReadBy (ok : ℕ → Bool) (left n j : ℕ) : Prop :=
  j < left ∧ ok (n + 2 * j) = true ∧ ∀ i < j, ok (n + 2 * i) = false ∧ ok (n + 2 * i + 1) = true

lemma readBy_zero {ok : ℕ → Bool} {left n : ℕ} (h : ok n = true) : ReadBy ok (left + 1) n 0 :=
  ⟨by omega, h, fun i hi => absurd hi (Nat.not_lt_zero i)⟩

lemma ReadBy.ok_first {ok : ℕ → Bool} {left n : ℕ} (h : ReadBy ok left n 0) : ok n = true := by
  simpa using h.2.1

lemma ReadBy.failed_first {ok : ℕ → Bool} {left n j : ℕ} (h : ReadBy ok left n (j + 1)) :
    ok n = false ∧ ok (n + 1) = true := by
  simpa using h.2.2 0 (Nat.succ_pos j)

lemma ReadBy.unique {ok : ℕ → Bool} {left n i j : ℕ} (hi : ReadBy ok left n i) (hj : ReadBy ok left n j) :
    i = j := by
  rcases Nat.lt_trichotomy i j with h | h | h
  · exact absurd (hj.2.2 i h).1 (by simp [hi.2.1])
  · exact h
  · exact absurd (hi.2.2 j h).1 (by simp [hj.2.1])

lemma readBy_succ {ok : ℕ → Bool} {left n j : ℕ} (hread : ok n = false) (hreset : ok (n + 1) = true) :
    ReadBy ok (left + 1) n (j + 1) ↔ ReadBy ok left (n + 2) j := by
  have hshift : ∀ i, n + 2 + 2 * i = n + 2 * (i + 1) := fun i => by ring
  unfold ReadBy
  rw [hshift]
  refine ⟨fun ⟨hj, hok, hbefore⟩ => ⟨by omega, hok, fun i hi => ?_⟩,
    fun ⟨hj, hok, hbefore⟩ => ⟨by omega, hok, fun i hi => ?_⟩⟩
  · rw [hshift]
    exact hbefore (i + 1) (by omega)
  · cases i with
    | zero => exact ⟨hread, hreset⟩
    | succ i =>
      rw [← hshift]
      exact hbefore i (by omega)

section Retry

variable {d : Drive} {lba count : ℕ} {dest : UInt32}

variable (d lba) in
lemma transfer_frame (s : Stage1) {a : UInt32} (ha : 512 * count ≤ Memory.offset dest a) :
    (d.transfer lba count dest s).2.mem a = s.mem a := by
  unfold Drive.transfer
  split
  · exact Memory.store_of_le (by simpa [Drive.block] using ha)
  · refine Memory.store_of_le ?_
    rw [List.length_take]
    omega

/-- The buffer holds the sectors, and the rest of the memory is as before. -/
structure Delivered (d : Drive) (lba count : ℕ) (dest : UInt32) (m m' : Memory) : Prop where
  buffer : stretch (m'.view dest) 0 (512 * count) = d.block lba count
  frame : ∀ a, 512 * count ≤ Memory.offset dest a → m' a = m a

variable (lba dest) in
lemma transfer_ok (hcount : 512 * count < 2 ^ 32) {s : Stage1} (h : d.ok s.calls = true) :
    ∃ s', d.transfer lba count dest s = (true, s') ∧ s'.calls = s.calls + 1 ∧
      Delivered d lba count dest s.mem s'.mem := by
  have hrun : d.transfer lba count dest s = (true, ⟨s.mem.store dest (d.block lba count), s.calls + 1⟩) :=
    if_pos h
  refine ⟨_, hrun, rfl, ?_, fun a ha => ?_⟩
  · have hlen : (d.block lba count).length = 512 * count := length_stretch _ _ _
    refine List.ext_getElem (by rw [length_stretch, hlen]) fun k hk hk' => ?_
    rw [getElem_stretch, Nat.zero_add, Memory.view_store _ _ _ hk' (by omega),
      List.getD_eq_getElem _ _ hk']
  · have hframe := transfer_frame d lba s ha
    rwa [hrun] at hframe

/-- **Up to three attempts.** The sectors arrive if one of the reads succeeds before a reset fails, and
otherwise stage 1 gives up. -/
lemma retry_spec (hcount : 512 * count < 2 ^ 32) {read : Stage1 → Bool × Stage1} : ∀ (left : ℕ) (s : Stage1),
    (∀ t : Stage1, (∀ a, 512 * count ≤ Memory.offset dest a → t.mem a = s.mem a) →
      read t = d.transfer lba count dest t) →
    (∀ j, ReadBy d.ok left s.calls j → ∃ s', retry d read left s = .ok s' ∧ s'.calls = s.calls + 2 * j + 1 ∧
      Delivered d lba count dest s.mem s'.mem) ∧
    ((∀ j, ¬ ReadBy d.ok left s.calls j) → retry d read left s = .error floppyError) := by
  intro left
  induction left with
  | zero => exact fun s _ => ⟨fun j h => absurd h.1 (Nat.not_lt_zero j), fun _ => rfl⟩
  | succ left ih =>
    intro s hread
    have hfirst := hread s fun _ _ => rfl
    cases hok : d.ok s.calls with
    | true =>
      obtain ⟨s', hrun, hcalls, hdelivered⟩ := transfer_ok lba dest hcount hok
      have hretry : retry d read (left + 1) s = .ok s' := by
        rw [retry, hfirst, hrun]
      refine ⟨fun j hj => ?_, fun hnone => absurd (readBy_zero hok) (hnone 0)⟩
      cases j with
      | zero => exact ⟨s', hretry, hcalls, hdelivered⟩
      | succ j => exact absurd hj.failed_first.1 (by simp [hok])
    | false =>
      obtain ⟨t, ht⟩ : ∃ t, d.transfer lba count dest s = (false, t) :=
        ⟨_, by rw [Drive.transfer, hok, if_neg (by decide)]⟩
      have hcalls : t.calls = s.calls + 1 := by
        have hsnd := congrArg (fun r => r.2.calls) ht
        rw [Drive.transfer, hok, if_neg (by decide)] at hsnd
        exact hsnd.symm
      have hframe : ∀ a, 512 * count ≤ Memory.offset dest a → t.mem a = s.mem a := by
        intro a ha
        have := transfer_frame d lba s ha
        rwa [ht] at this
      cases hreset : d.ok (s.calls + 1) with
      | false =>
        have hretry : retry d read (left + 1) s = .error floppyError := by
          simp [retry, hfirst, ht, diskReset, hcalls, hreset]
        refine ⟨fun j hj => ?_, fun _ => hretry⟩
        cases j with
        | zero => exact absurd hj.ok_first (by simp [hok])
        | succ j => exact absurd hj.failed_first.2 (by simp [hreset])
      | true =>
        set u : Stage1 := { t with calls := t.calls + 1 } with hu
        have hcallsu : u.calls = s.calls + 2 := by simp [hu, hcalls]
        have hretry : retry d read (left + 1) s = retry d read left u := by
          simp [retry, hfirst, ht, diskReset, hcalls, hreset, hu]
        obtain ⟨hyes, hno⟩ := ih u fun v hv => hread v fun a ha => (hv a ha).trans (hframe a ha)
        rw [hretry]
        refine ⟨fun j hj => ?_, fun hnone => hno fun j hj => ?_⟩
        · cases j with
          | zero => exact absurd hj.ok_first (by simp [hok])
          | succ j =>
            rw [readBy_succ hok hreset, ← hcallsu] at hj
            obtain ⟨s', hrun, hcalls', hdelivered⟩ := hyes j hj
            refine ⟨s', hrun, by omega, hdelivered.buffer, fun a ha => ?_⟩
            exact (hdelivered.frame a ha).trans (hframe a ha)
        · rw [hcallsu, ← readBy_succ hok hreset] at hj
          exact hnone (j + 1) hj

end Retry

/-! ### The parameters of a read -/

/-- The fields of the address packet that `disk_read` fills in. -/
def Filled (a : UInt32) : Prop :=
  Memory.offset extensionsDap a = 2 ∨ (4 ≤ Memory.offset extensionsDap a ∧ Memory.offset extensionsDap a < 12)

/-- The fields that it leaves as they are in the image: the high byte of the count and the high half of the
LBA. -/
structure DapReady (m : Memory) : Prop where
  count : m.view extensionsDap 3 = 0
  lba : word32 (m.view extensionsDap) 12 = 0

section Parameters

variable {eax : UInt32} {cl : UInt8} {es bx : UInt16} {m : Memory}

lemma fillDap_frame {a : UInt32} (ha : ¬ Filled a) : fillDap eax cl es bx m a = m a := by
  unfold Filled at ha
  have hlt := Memory.offset_lt extensionsDap a
  have hshift : ∀ k < 16, ∀ n, k + n ≤ 16 → (Memory.offset extensionsDap a < k ∨
      k + n ≤ Memory.offset extensionsDap a) → n ≤ Memory.offset (extensionsDap + UInt32.ofNat k) a := by
    intro k hk n hn hout
    rw [Memory.offset_shift _ _ (by omega)]
    split <;> omega
  have hcount : [cl].length ≤ Memory.offset (extensionsDap + 2) a := hshift 2 (by omega) 1 (by omega) (by omega)
  have hoffset : (bytes16 bx).length ≤ Memory.offset (extensionsDap + 4) a :=
    hshift 4 (by omega) 2 (by omega) (by omega)
  have hsegment : (bytes16 es).length ≤ Memory.offset (extensionsDap + 6) a :=
    hshift 6 (by omega) 2 (by omega) (by omega)
  have hlba : (bytes32 eax).length ≤ Memory.offset (extensionsDap + 8) a :=
    hshift 8 (by omega) 4 (by omega) (by omega)
  unfold fillDap
  rw [Memory.store_of_le hcount, Memory.store_of_le hoffset, Memory.store_of_le hsegment, Memory.store_of_le hlba]

/-- The packet says what the registers say. -/
lemma extendedRead_eq {d : Drive} (hdap : DapReady m) {s : Stage1}
    (hmem : ∀ k < 16, s.mem.view extensionsDap k = (fillDap eax cl es bx m).view extensionsDap k) :
    d.extendedRead extensionsDap s = d.transfer eax.toNat cl.toNat (realMode es bx) s := by
  have hcount : (word16 (s.mem.view extensionsDap) 2).toNat = cl.toNat := by
    have hhigh : (fillDap eax cl es bx m).view extensionsDap 3 = m.view extensionsDap 3 := rfl
    rw [word16, hmem 2 (by omega), hmem (2 + 1) (by omega), hhigh, hdap.count]
    have hlow : (fillDap eax cl es bx m).view extensionsDap 2 = cl := rfl
    have hlt := cl.toNat_lt
    rw [hlow, le16, UInt16.toNat_ofNat', show (0 : UInt8).toNat = 0 from rfl]
    omega
  have hoffset : word16 (s.mem.view extensionsDap) 4 = bx := by
    rw [word16, hmem 4 (by omega), hmem (4 + 1) (by omega)]
    exact le16_bytes bx
  have hsegment : word16 (s.mem.view extensionsDap) 6 = es := by
    rw [word16, hmem 6 (by omega), hmem (6 + 1) (by omega)]
    exact le16_bytes es
  have hlow : word32 (s.mem.view extensionsDap) 8 = eax := by
    rw [word32, hmem 8 (by omega), hmem (8 + 1) (by omega), hmem (8 + 2) (by omega), hmem (8 + 3) (by omega)]
    exact le32_byteOf eax
  have hhigh : word32 (s.mem.view extensionsDap) 12 = 0 := by
    rw [← hdap.lba]
    refine word32_congr fun i hi => (hmem (12 + i) (by omega)).trans (fillDap_frame ?_)
    rw [Filled, Memory.offset_add _ (by omega)]
    omega
  rw [Drive.extendedRead, hcount, hoffset, hsegment, hlow, hhigh]
  simp

lemma chsOf_addresses {sectors heads ax : UInt16} {r : ReadRegs} (hch : r.ch = (chsOf sectors heads ax).1)
    (hcl : r.cl = (chsOf sectors heads ax).2.1) (hdh : r.dh = (chsOf sectors heads ax).2.2)
    (hsectors : 1 ≤ sectors.toNat ∧ sectors.toNat ≤ 63) (hheads : 1 ≤ heads.toNat ∧ heads.toNat ≤ 256)
    (hcylinder : ax.toNat / sectors.toNat / heads.toNat < 1024) :
    (r.cylinder * heads.toNat + r.head) * sectors.toNat + (r.sector - 1) = ax.toNat := by
  have hmod := Nat.mod_lt ax.toNat (show sectors.toNat > 0 by omega)
  have hhead := Nat.mod_lt (ax.toNat / sectors.toNat) (show heads.toNat > 0 by omega)
  have hclNat : r.cl.toNat = 64 * (ax.toNat / sectors.toNat / heads.toNat / 256 % 4) +
      (ax.toNat % sectors.toNat + 1) % 64 := by
    rw [hcl, chsOf, sector_packed hsectors, UInt8.or_comm, cl_toNat]
    simp [highByte]
  have hchNat : r.ch.toNat = ax.toNat / sectors.toNat / heads.toNat % 256 := by
    rw [hch]
    simp [chsOf, lowByte]
  have hdhNat : r.dh.toNat = ax.toNat / sectors.toNat % heads.toNat := by
    rw [hdh]
    simp [chsOf, lowByte]
    omega
  rw [Nat.mod_eq_of_lt (show ax.toNat / sectors.toNat / heads.toNat / 256 < 4 by omega),
    Nat.mod_eq_of_lt (show ax.toNat % sectors.toNat + 1 < 64 by omega)] at hclNat
  have hsector : r.sector = ax.toNat % sectors.toNat + 1 := by
    unfold ReadRegs.sector
    omega
  have hcyl : r.cylinder = ax.toNat / sectors.toNat / heads.toNat := by
    unfold ReadRegs.cylinder
    omega
  rw [hcyl, hsector, ReadRegs.head, hdhNat, Nat.add_sub_cancel]
  exact chs_lba _ _ _

end Parameters

/-! ### One block -/

/-- An entry of the table. -/
structure Block where
  lba : UInt32
  count : UInt8

/-- The sectors of some blocks. -/
def total (bs : List Block) : ℕ := (bs.map fun b => b.count.toNat).sum

/-- The bytes of some blocks, one behind the other. -/
def Drive.contents (d : Drive) (bs : List Block) : List UInt8 :=
  bs.flatMap fun b => d.block b.lba.toNat b.count.toNat

/-- The boot sector has the geometry of the drive. -/
structure Geometry (d : Drive) (m : Memory) : Prop where
  sectors : (word16 (m.view 0x7C18) 0).toNat = d.sectors
  heads : (word16 (m.view 0x7C1A) 0).toNat = d.heads
  few : 1 ≤ d.sectors ∧ d.sectors ≤ 63 ∧ 1 ≤ d.heads ∧ d.heads ≤ 256

/-- Without the extensions, `lba_to_chs` gets at the block. -/
def InReach (d : Drive) (b : Block) : Prop := b.lba.toNat < 2 ^ 16 ∧ b.lba.toNat / d.sectors / d.heads < 1024

/-- The state of the loop: what is loaded so far is in place, and behind the last sector there is room for,
where the stack of stage 1 begins, nothing has changed but the address packet. -/
structure Progress (m₀ : Memory) (done : List UInt8) (m : Memory) : Prop where
  loaded : stretch (m.view 0x500) 0 done.length = done
  kept : ∀ a, 512 * 59 ≤ Memory.offset 0x500 a → ¬ Filled a → m a = m₀ a

section Load

variable {d : Drive} {m₀ m m' : Memory} {done : List UInt8} {n count lba : ℕ}

/-- The buffer of the next block begins where the last one ends. -/
lemma realMode_load (hn : n ≤ 59) :
    realMode (UInt16.ofNat (32 * n)) stage2LoadOffset = 0x500 + UInt32.ofNat (512 * n) := by
  apply UInt32.toNat_inj.mp
  rw [realMode, UInt32.toNat_add, UInt32.toNat_mul, UInt32.toNat_add]
  simp [stage2LoadOffset]
  omega

lemma clear_of_buffer {a : UInt32} (hroom : n + count ≤ 59) (ha : 512 * 59 ≤ Memory.offset 0x500 a) :
    512 * count ≤ Memory.offset (0x500 + UInt32.ofNat (512 * n)) a := by
  rw [Memory.offset_shift _ _ (by omega)]
  split <;> omega

lemma loaded_clear {k : ℕ} (hk : k < 512 * n) (hroom : n + count ≤ 59) :
    512 * count ≤ Memory.offset (0x500 + UInt32.ofNat (512 * n)) (0x500 + UInt32.ofNat k) := by
  rw [Memory.offset_shift _ _ (by omega), Memory.offset_add _ (by omega)]
  split <;> omega

lemma not_filled {a : UInt32} (ha : Memory.offset 0x500 a < 512 * 59) : ¬ Filled a := by
  have hoff := Memory.offset_shift 0x500 a (show 0x7879 < 2 ^ 32 by omega)
  rw [show (0x500 : UInt32) + UInt32.ofNat 0x7879 = extensionsDap from rfl, if_neg (by omega)] at hoff
  unfold Filled
  omega

lemma Progress.fillDap (h : Progress m₀ done m) (hn : done.length ≤ 512 * 59) {eax : UInt32} {cl : UInt8}
    {es bx : UInt16} : Progress m₀ done (fillDap eax cl es bx m) where
  loaded := by
    have hsame : ∀ k < done.length, (Boot.fillDap eax cl es bx m).view 0x500 (0 + k) = m.view 0x500 (0 + k) := by
      intro k hk
      refine fillDap_frame (not_filled ?_)
      rw [Memory.offset_add _ (by omega)]
      omega
    rw [stretch_congr hsame]
    exact h.loaded
  kept a ha hfilled := (fillDap_frame hfilled).trans (h.kept a ha hfilled)

lemma Progress.deliver (h : Progress m₀ done m) (hlen : done.length = 512 * n) (hroom : n + count ≤ 59)
    (hdelivered : Delivered d lba count (0x500 + UInt32.ofNat (512 * n)) m m') :
    Progress m₀ (done ++ d.block lba count) m' where
  loaded := by
    have hblock : (d.block lba count).length = 512 * count := length_stretch _ _ _
    rw [List.length_append, hlen, hblock, stretch_add]
    congr 1
    · have hsame : ∀ k < 512 * n, m'.view 0x500 (0 + k) = m.view 0x500 (0 + k) := by
        intro k hk
        exact hdelivered.frame _ (loaded_clear (by omega) hroom)
      rw [stretch_congr hsame, ← hlen]
      exact h.loaded
    · rw [← hdelivered.buffer]
      refine stretch_congr fun k _ => ?_
      rw [Memory.view_shift, Nat.zero_add, Nat.zero_add]
  kept a ha hfilled := (hdelivered.frame a (clear_of_buffer hroom ha)).trans (h.kept a ha hfilled)

lemma DapReady.congr (h : DapReady m) (hm : ∀ k < 16, k = 3 ∨ 12 ≤ k → m'.view extensionsDap k =
    m.view extensionsDap k) : DapReady m' where
  count := (hm 3 (by omega) (by omega)).trans h.count
  lba := (word32_congr fun i hi => hm (12 + i) (by omega) (by omega)).trans h.lba

lemma dap_far {k : ℕ} (hk : k < 16) : 512 * 59 ≤ Memory.offset 0x500 (extensionsDap + UInt32.ofNat k) := by
  have hplace : extensionsDap + UInt32.ofNat k = 0x500 + UInt32.ofNat (0x7879 + k) := by
    rw [UInt32.ofNat_add, ← UInt32.add_assoc]
    rfl
  rw [hplace, Memory.offset_add _ (by omega)]
  omega

lemma Progress.dapReady (h : Progress m₀ done m) (hdap : DapReady m₀) : DapReady m := by
  refine hdap.congr fun k hk hfree => h.kept _ (dap_far hk) ?_
  rw [Filled, Memory.offset_add _ (by omega)]
  omega

lemma Progress.bootSector (h : Progress m₀ done m) : m haveExtensions = m₀ haveExtensions ∧
    word16 (m.view 0x7C18) 0 = word16 (m₀.view 0x7C18) 0 ∧
    word16 (m.view 0x7C1A) 0 = word16 (m₀.view 0x7C1A) 0 := by
  have hfar : ∀ a ∈ [haveExtensions, 0x7C18, 0x7C19, 0x7C1A, 0x7C1B],
      512 * 59 ≤ Memory.offset 0x500 a ∧ 12 ≤ Memory.offset extensionsDap a := by
    intro a ha
    simp only [List.mem_cons, List.not_mem_nil, or_false] at ha
    rcases ha with rfl | rfl | rfl | rfl | rfl <;> decide
  have hsame : ∀ a ∈ [haveExtensions, 0x7C18, 0x7C19, 0x7C1A, 0x7C1B], m a = m₀ a := by
    intro a ha
    refine h.kept a (hfar a ha).1 ?_
    have hbehind := (hfar a ha).2
    unfold Filled
    omega
  refine ⟨hsame _ (by simp), ?_, ?_⟩
  · exact congrArg₂ le16 (hsame 0x7C18 (by simp)) (hsame 0x7C19 (by simp))
  · exact congrArg₂ le16 (hsame 0x7C1A (by simp)) (hsame 0x7C1B (by simp))

/-- `disk_read` makes up to three attempts at a read of the block to the end of what is loaded. -/
def Attempts (d : Drive) (m₀ : Memory) (done : List UInt8) (n : ℕ) (b : Block) (s : Stage1)
    (r : Except Stop Stage1) : Prop :=
  ∃ read s₁, r = retry d read 3 s₁ ∧ s₁.calls = s.calls ∧ Progress m₀ done s₁.mem ∧
    ∀ t : Stage1, (∀ a, 512 * b.count.toNat ≤ Memory.offset (0x500 + UInt32.ofNat (512 * n)) a →
      t.mem a = s₁.mem a) →
        read t = d.transfer b.lba.toNat b.count.toNat (0x500 + UInt32.ofNat (512 * n)) t

variable {b : Block} {dl : UInt8} {s : Stage1}

lemma diskRead_extended (h : Progress m₀ done s.mem) (hlen : done.length = 512 * n)
    (hroom : n + b.count.toNat ≤ 59) (hdap : DapReady m₀) (hflag : m₀ haveExtensions = 1) :
    Attempts d m₀ done n b s (diskRead d b.lba b.count dl (UInt16.ofNat (32 * n)) stage2LoadOffset s) := by
  refine ⟨d.extendedRead extensionsDap,
    { s with mem := fillDap b.lba b.count (UInt16.ofNat (32 * n)) stage2LoadOffset s.mem }, ?_, rfl,
    h.fillDap (by omega), fun t ht => ?_⟩
  · simp only [diskRead, h.bootSector.1, hflag, if_true]
  · rw [← realMode_load (by omega)]
    exact extendedRead_eq (h.dapReady hdap) fun k hk => ht _ (clear_of_buffer hroom (dap_far hk))

lemma diskRead_chs (h : Progress m₀ done s.mem) (hroom : n + b.count.toNat ≤ 59) (hflag : m₀ haveExtensions ≠ 1)
    (hgeometry : Geometry d m₀) (hreach : InReach d b) :
    Attempts d m₀ done n b s (diskRead d b.lba b.count dl (UInt16.ofNat (32 * n)) stage2LoadOffset s) := by
  obtain ⟨hext, hsectors, hheads⟩ := h.bootSector
  obtain ⟨hsec, hhead, hfew⟩ := hgeometry
  set sectors := word16 (m₀.view 0x7C18) 0
  set heads := word16 (m₀.view 0x7C1A) 0
  have hzero : ¬ (sectors = 0 ∨ heads = 0) := by
    rintro (hz | hz)
    · rw [hz, show (0 : UInt16).toNat = 0 from rfl] at hsec
      omega
    · rw [hz, show (0 : UInt16).toNat = 0 from rfl] at hhead
      omega
  have hax : b.lba.toUInt16.toNat = b.lba.toNat := by
    rw [UInt32.toNat_toUInt16]
    exact Nat.mod_eq_of_lt hreach.1
  set regs : ReadRegs := ⟨b.count, (chsOf sectors heads b.lba.toUInt16).1,
    (chsOf sectors heads b.lba.toUInt16).2.1, (chsOf sectors heads b.lba.toUInt16).2.2, dl,
    UInt16.ofNat (32 * n), stage2LoadOffset⟩ with hregs
  refine ⟨d.read regs, s, ?_, rfl, h, fun t _ => ?_⟩
  · simp only [diskRead, hext, hflag, hsectors, hheads, hzero, if_false, hregs]
  · have haddr : (regs.cylinder * heads.toNat + regs.head) * sectors.toNat + (regs.sector - 1) =
        b.lba.toUInt16.toNat :=
      chsOf_addresses rfl rfl rfl (by omega) (by omega) (by rw [hax, hsec, hhead]; exact hreach.2)
    rw [hsec, hhead, hax] at haddr
    rw [Drive.read, haddr, ← realMode_load (by omega)]

variable (dl) in
/-- **One block.** -/
lemma diskRead_spec (h : Progress m₀ done s.mem) (hlen : done.length = 512 * n)
    (hroom : n + b.count.toNat ≤ 59) (hdap : DapReady m₀)
    (hway : m₀ haveExtensions = 1 ∨ (Geometry d m₀ ∧ InReach d b)) :
    let r := diskRead d b.lba b.count dl (UInt16.ofNat (32 * n)) stage2LoadOffset s
    (∀ j, ReadBy d.ok 3 s.calls j → ∃ s', r = .ok s' ∧ s'.calls = s.calls + 2 * j + 1 ∧
      Progress m₀ (done ++ d.block b.lba.toNat b.count.toNat) s'.mem) ∧
    ((∀ j, ¬ ReadBy d.ok 3 s.calls j) → r = .error floppyError) := by
  intro r
  have hattempts : Attempts d m₀ done n b s r := by
    by_cases hflag : m₀ haveExtensions = 1
    · exact diskRead_extended h hlen hroom hdap hflag
    · obtain ⟨hgeometry, hreach⟩ := hway.resolve_left hflag
      exact diskRead_chs h hroom hflag hgeometry hreach
  obtain ⟨read, s₁, hr, hcalls, hprogress, hread⟩ := hattempts
  obtain ⟨hyes, hno⟩ := retry_spec (by omega) 3 s₁ hread
  rw [hr, ← hcalls]
  refine ⟨fun j hj => ?_, hno⟩
  obtain ⟨s', hrun, hcalls', hdelivered⟩ := hyes j hj
  exact ⟨s', hrun, hcalls', hprogress.deliver hlen hroom hdelivered⟩

/-! ### The whole table -/

/-- The table from byte `k` on. -/
def HoldsTable (m : Memory) : ℕ → List Block → Prop
  | k, [] => word32 (m.view 0x7D89) k = 0
  | k, b :: bs => word32 (m.view 0x7D89) k = b.lba ∧ m.view 0x7D89 (k + 4) = b.count ∧ b.lba ≠ 0 ∧
      HoldsTable m (k + 5) bs

/-- Every block is read by one of three attempts, the first of them from call `n` on. -/
def AllRead (ok : ℕ → Bool) : List Block → ℕ → Prop
  | [], _ => True
  | _ :: bs, n => ∃ j, ReadBy ok 3 n j ∧ AllRead ok bs (n + 2 * j + 1)

lemma length_contents (d : Drive) (bs : List Block) : (d.contents bs).length = 512 * total bs := by
  induction bs with
  | nil => rfl
  | cons b bs ih =>
    have hblock : (d.block b.lba.toNat b.count.toNat).length = 512 * b.count.toNat := length_stretch _ _ _
    have hcons : d.contents (b :: bs) = d.block b.lba.toNat b.count.toNat ++ d.contents bs := rfl
    have htotal : total (b :: bs) = b.count.toNat + total bs := rfl
    rw [hcons, List.length_append, hblock, ih, htotal, Nat.mul_add]

lemma Progress.table (h : Progress m₀ done m) {k : ℕ} (hk : k < 30) : m.view 0x7D89 k = m₀.view 0x7D89 k := by
  have hplace : (0x7D89 : UInt32) + UInt32.ofNat k = 0x500 + UInt32.ofNat (0x7889 + k) := by
    rw [UInt32.ofNat_add, ← UInt32.add_assoc]
    rfl
  have hbehind : (0x7D89 : UInt32) + UInt32.ofNat k = extensionsDap + UInt32.ofNat (16 + k) := by
    rw [UInt32.ofNat_add, ← UInt32.add_assoc]
    rfl
  refine h.kept _ ?_ ?_
  · rw [hplace, Memory.offset_add _ (by omega)]
    omega
  · rw [Filled, hbehind, Memory.offset_add _ (by omega)]
    omega

lemma realMode_table {k j : ℕ} (hk : k + j < 100) : realMode 0 (stage2Location + UInt16.ofNat k) + UInt32.ofNat j =
    0x7D89 + UInt32.ofNat (k + j) := by
  apply UInt32.toNat_inj.mp
  simp [realMode, stage2Location]
  omega

lemma segment_add (c : UInt8) : UInt16.ofNat (32 * n) + c.toUInt16 <<< 5 = UInt16.ofNat (32 * (n + c.toNat)) := by
  apply UInt16.toNat_inj.mp
  simp [Nat.shiftLeft_eq]
  omega

lemma Progress.entry (h : Progress m₀ done m) {k : ℕ} (hk : k + 4 ≤ 30) :
    word32 (m.view (realMode 0 (stage2Location + UInt16.ofNat k))) 0 = word32 (m₀.view 0x7D89) k ∧
      (k + 4 < 30 → m (realMode 0 (stage2Location + UInt16.ofNat k + 4)) = m₀.view 0x7D89 (k + 4)) := by
  refine ⟨word32_congr fun i hi => ?_, fun hlt => ?_⟩
  · rw [Memory.view, Nat.zero_add, realMode_table (by omega)]
    exact h.table (by omega)
  · have hplace : realMode 0 (stage2Location + UInt16.ofNat k + 4) = 0x7D89 + UInt32.ofNat (k + 4) := by
      have hsum := realMode_table (k := k + 4) (j := 0) (by omega)
      rw [show UInt32.ofNat 0 = 0 from rfl, UInt32.add_zero, UInt16.ofNat_add, ← UInt16.add_assoc] at hsum
      exact hsum
    rw [hplace]
    exact h.table hlt

variable (dl) in
/-- **The loop** over the blocks from byte `k` of the table on, with `n` sectors loaded. -/
lemma loadLoop_spec (hdap : DapReady m₀) : ∀ {bs : List Block} {k n : ℕ} {done : List UInt8} {s : Stage1}
    {rounds : ℕ}, HoldsTable m₀ k bs → k + 5 * bs.length + 4 ≤ 30 → n + total bs ≤ 59 →
    done.length = 512 * n → bs.length < rounds → Progress m₀ done s.mem →
    (∀ b ∈ bs, m₀ haveExtensions = 1 ∨ (Geometry d m₀ ∧ InReach d b)) →
    let r := loadLoop d dl rounds (stage2Location + UInt16.ofNat k) (UInt16.ofNat (32 * n)) s
    (AllRead d.ok bs s.calls → ∃ s', r = .ok s' ∧ Progress m₀ (done ++ d.contents bs) s'.mem) ∧
      (¬ AllRead d.ok bs s.calls → r = .error floppyError) := by
  intro bs
  induction bs with
  | nil =>
    intro k n done s rounds htable hk _ _ hrounds h _ r
    obtain ⟨rounds, rfl⟩ : ∃ left, rounds = left + 1 := ⟨rounds - 1, by omega⟩
    have hend : word32 (s.mem.view (realMode 0 (stage2Location + UInt16.ofNat k))) 0 = 0 :=
      (h.entry (by simpa using hk)).1.trans htable
    have hr : r = .ok s := by simp only [r, loadLoop, hend, if_true]
    refine ⟨fun _ => ⟨s, hr, ?_⟩, fun hnot => absurd trivial hnot⟩
    rw [show d.contents [] = [] from rfl, List.append_nil]
    exact h
  | cons b bs ih =>
    intro k n done s rounds htable hk hroom hlen hrounds h hway r
    obtain ⟨hlba, hcount, hne, hrest⟩ := htable
    rw [List.length_cons] at hk hrounds
    have htotal : total (b :: bs) = b.count.toNat + total bs := rfl
    obtain ⟨rounds, rfl⟩ : ∃ left, rounds = left + 1 := ⟨rounds - 1, by omega⟩
    obtain ⟨heax, hcl⟩ := h.entry (k := k) (by omega)
    rw [hlba] at heax
    rw [hcount] at hcl
    have hr : r = match diskRead d b.lba b.count dl (UInt16.ofNat (32 * n)) stage2LoadOffset s with
        | .ok s => loadLoop d dl rounds (stage2Location + UInt16.ofNat (k + 5))
            (UInt16.ofNat (32 * (n + b.count.toNat))) s
        | .error stop => .error stop := by
      simp only [r, loadLoop, heax, hcl (by omega), hne, if_false, segment_add]
      rw [UInt16.ofNat_add, ← UInt16.add_assoc]
      rfl
    obtain ⟨hyes, hno⟩ := diskRead_spec dl (s := s) h hlen (by omega) hdap (hway b List.mem_cons_self)
    by_cases hread : ∃ j, ReadBy d.ok 3 s.calls j
    · obtain ⟨j, hj⟩ := hread
      obtain ⟨s', hrun, hcalls, hprogress⟩ := hyes j hj
      have hlen' : (done ++ d.block b.lba.toNat b.count.toNat).length = 512 * (n + b.count.toNat) := by
        rw [List.length_append, hlen, Drive.block, length_stretch, Nat.mul_add]
      obtain ⟨hall, hfail⟩ := ih hrest (by omega) (by omega) hlen' (show bs.length < rounds by omega) hprogress
        fun b' hb' => hway b' (List.mem_cons_of_mem _ hb')
      rw [hr, hrun]
      rw [hcalls] at hall hfail
      refine ⟨fun ⟨i, hi, hrest'⟩ => ?_, fun hnot => hfail fun hrest' => hnot ⟨j, hj, hrest'⟩⟩
      rw [hi.unique hj] at hrest'
      obtain ⟨s'', hrun', hprogress'⟩ := hall hrest'
      rw [List.append_assoc] at hprogress'
      exact ⟨s'', hrun', hprogress'⟩
    · rw [hr, hno fun j hj => hread ⟨j, hj⟩]
      exact ⟨fun ⟨j, hj, _⟩ => absurd ⟨j, hj⟩ hread, fun _ => rfl⟩

end Load

/-! ### From the MBR to stage 2 -/

/-- Stage 1 as the MBR has loaded it. -/
structure Installed (m : Memory) (bs : List Block) : Prop where
  dap : DapReady m
  table : HoldsTable m 0 bs

/-- The memory at the loop: the partition entry is put aside, and the number of the drive and whether it has the
extensions are noted. -/
def prepared (d : Drive) (ds si : UInt16) (dl : UInt8) (m : Memory) : Memory :=
  let m := repMovsb ds partitionEntrySegment 16 si partitionEntryOffset m
  let m := Function.update m ebrDriveNumber dl
  Function.update m haveExtensions (if !d.check.1 && d.check.2 == 0xAA55 then 1 else 0)

section Start

variable {d : Drive} {ds si : UInt16} {dl : UInt8} {m : Memory} {bs : List Block}

lemma prepared_of_ne {a : UInt32} (hdrive : a ≠ ebrDriveNumber) (hext : a ≠ haveExtensions) :
    prepared d ds si dl m a = repMovsb ds partitionEntrySegment 16 si partitionEntryOffset m a := by
  rw [prepared, Function.update_of_ne hext, Function.update_of_ne hdrive]

lemma prepared_low {a : UInt32} (ha : a.toNat < 0x20000) (hdrive : a ≠ ebrDriveNumber)
    (hext : a ≠ haveExtensions) :
    prepared d ds si dl m a = m a := by
  have hhigh : ∀ j < 16, 0x20000 ≤
      (realMode partitionEntrySegment (partitionEntryOffset + UInt16.ofNat j)).toNat := by
    decide
  rw [prepared_of_ne hdrive hext]
  refine repMovsb_of_ne fun j hj heq => ?_
  have hj' := hhigh j hj
  rw [← heq] at hj'
  omega

lemma prepared_data {k : ℕ} (hk : k < 46) :
    prepared d ds si dl m (extensionsDap + UInt32.ofNat k) = m (extensionsDap + UInt32.ofNat k) := by
  have haddr : (extensionsDap + UInt32.ofNat k).toNat = 0x7D79 + k := by
    simp [extensionsDap]
    omega
  refine prepared_low (by omega) (fun heq => ?_) fun heq => ?_
  · rw [heq, show ebrDriveNumber.toNat = 0x7C24 from rfl] at haddr
    omega
  · rw [heq, show haveExtensions.toNat = 0x7D78 from rfl] at haddr
    omega

lemma HoldsTable.congr {m' : Memory} : ∀ {bs : List Block} {k : ℕ}, HoldsTable m k bs →
    k + 5 * bs.length + 4 ≤ 30 → (∀ j < 30, m'.view 0x7D89 j = m.view 0x7D89 j) → HoldsTable m' k bs := by
  intro bs
  induction bs with
  | nil =>
    intro k h hk hsame
    exact (word32_congr fun i hi => hsame (k + i) (by simp at hk; omega)).trans h
  | cons b bs ih =>
    intro k h hk hsame
    rw [List.length_cons] at hk
    obtain ⟨hlba, hcount, hne, hrest⟩ := h
    refine ⟨(word32_congr fun i hi => hsame (k + i) (by omega)).trans hlba, ?_, hne, ih hrest (by omega) hsame⟩
    exact (hsame (k + 4) (by omega)).trans hcount

lemma Installed.prepared (h : Installed m bs) (hlen : bs.length ≤ 5) : Installed (prepared d ds si dl m) bs where
  dap := h.dap.congr fun k hk _ => prepared_data (by omega)
  table := by
    refine h.table.congr (by omega) fun j hj => ?_
    have hplace : (0x7D89 : UInt32) + UInt32.ofNat j = extensionsDap + UInt32.ofNat (16 + j) := by
      rw [UInt32.ofNat_add, ← UInt32.add_assoc]
      rfl
    rw [Memory.view, Memory.view, hplace]
    exact prepared_data (by omega)

lemma Geometry.prepared (h : Geometry d m) : Geometry d (prepared d ds si dl m) := by
  have hsame : ∀ a ∈ [(0x7C18 : UInt32), 0x7C19, 0x7C1A, 0x7C1B],
      a.toNat < 0x20000 ∧ a ≠ ebrDriveNumber ∧ a ≠ haveExtensions := by
    intro a ha
    simp only [List.mem_cons, List.not_mem_nil, or_false] at ha
    rcases ha with rfl | rfl | rfl | rfl <;> decide
  have hkept : ∀ a ∈ [(0x7C18 : UInt32), 0x7C19, 0x7C1A, 0x7C1B], Boot.prepared d ds si dl m a = m a :=
    fun a ha => prepared_low (hsame a ha).1 (hsame a ha).2.1 (hsame a ha).2.2
  refine ⟨?_, ?_, h.few⟩
  · rw [← h.sectors]
    exact congrArg UInt16.toNat (congrArg₂ le16 (hkept 0x7C18 (by simp)) (hkept 0x7C19 (by simp)))
  · rw [← h.heads]
    exact congrArg UInt16.toNat (congrArg₂ le16 (hkept 0x7C1A (by simp)) (hkept 0x7C1B (by simp)))

/-- Where stage 2 looks for the partition entry. -/
lemma pushedPartition_place : segoffsetToLinear (pushedPartition partitionEntrySegment partitionEntryOffset) =
    0x20000 := by decide

/-- The partition entry is neither loaded over nor changed. -/
lemma partition_far : ∀ i < 16, 512 * 59 ≤ Memory.offset 0x500 (0x20000 + UInt32.ofNat i) ∧
    12 ≤ Memory.offset extensionsDap (0x20000 + UInt32.ofNat i) ∧
    0x20000 + UInt32.ofNat i ≠ ebrDriveNumber ∧ 0x20000 + UInt32.ofNat i ≠ haveExtensions := by decide

/-- Stage 2 finds the partition entry that the MBR handed over. -/
lemma partition_kept {mbr : Bytes 512} {k : Fin 4} (h : HandedOver mbr k ds si m) {disk : Fat.Disk}
    (hid : 0x80 ≤ disk.id) {done : List UInt8} {m' : Memory} (hm' : Progress (prepared d ds si dl m) done m') :
    detectPartition disk (pushedPartition partitionEntrySegment partitionEntryOffset) m' =
      ⟨disk, word32 (entryByte mbr k) 8, word32 (entryByte mbr k) 12⟩ := by
  rw [← bootPartition_eq h hid, bootPartition]
  refine detectPartition_congr hid fun i hi => ?_
  obtain ⟨hfar, hbehind, hdrive, hext⟩ := partition_far i hi
  rw [pushedPartition_place, Memory.view, Memory.view, ← prepared_of_ne hdrive hext]
  refine hm'.kept _ hfar ?_
  unfold Filled
  omega

/-- How stage 1 ends: it enters stage 2 with its registers set, or has found no way to read a block. -/
lemma start_enters (ds si : UInt16) (dl : UInt8) (h : Installed m bs) (hlen : bs.length ≤ 5)
    (htotal : total bs ≤ 59) (hway : d.check = (false, 0xAA55) ∨ (Geometry d m ∧ ∀ b ∈ bs, InReach d b)) {rounds : ℕ}
    (hrounds : bs.length < rounds) :
    (AllRead d.ok bs 0 → ∃ m', start d rounds ds si dl m = .ok ⟨dl, partitionEntryOffset, partitionEntrySegment,
      stage2LoadSegment, stage2LoadOffset, m'⟩ ∧ Progress (prepared d ds si dl m) (d.contents bs) m') ∧
    (¬ AllRead d.ok bs 0 → start d rounds ds si dl m = .error floppyError) := by
  set m₀ := prepared d ds si dl m with hm₀
  have hready : Installed m₀ bs := h.prepared hlen
  have hbegin : Progress m₀ [] m₀ := ⟨rfl, fun _ _ _ => rfl⟩
  have hway₀ : ∀ b ∈ bs, m₀ haveExtensions = 1 ∨ (Geometry d m₀ ∧ InReach d b) := by
    intro b hb
    rcases hway with hcheck | ⟨hgeometry, hreach⟩
    · refine .inl ?_
      rw [hm₀, prepared, Function.update_self, hcheck]
      rfl
    · exact .inr ⟨hgeometry.prepared, hreach b hb⟩
  have hdrive : m₀ ebrDriveNumber = dl := by
    rw [hm₀, prepared, Function.update_of_ne (by decide), Function.update_self]
  obtain ⟨hyes, hno⟩ := loadLoop_spec dl hready.dap (s := ⟨m₀, 0⟩) (n := 0) hready.table (by omega) (by omega) rfl
    hrounds hbegin hway₀
  have hstart : start d rounds ds si dl m =
      match loadLoop d dl rounds (stage2Location + UInt16.ofNat 0) (UInt16.ofNat (32 * 0)) ⟨m₀, 0⟩ with
      | .ok s => .ok ⟨s.mem ebrDriveNumber, partitionEntryOffset, partitionEntrySegment, stage2LoadSegment,
          stage2LoadOffset, s.mem⟩
      | .error stop => .error stop := rfl
  refine ⟨fun hall => ?_, fun hnot => by rw [hstart, hno hnot]⟩
  obtain ⟨s', hrun, hprogress⟩ := hyes hall
  rw [List.nil_append] at hprogress
  -- the number of the drive is not loaded over
  have hkept : s'.mem ebrDriveNumber = dl := by
    refine (hprogress.kept _ (by decide) ?_).trans hdrive
    have hbehind : 12 ≤ Memory.offset extensionsDap ebrDriveNumber := by decide
    unfold Filled
    omega
  refine ⟨s'.mem, ?_, hprogress⟩
  rw [hstart, hrun]
  dsimp only
  rw [hkept]

/-- A drive whose first read fails. -/
def flakyDrive : Drive where
  check := (false, 0xAA55)
  ok n := n != 0
  image n := UInt8.ofNat n
  torn _ := [0xFF]
  sectors := 63
  heads := 16

/-- Stage 1 with a table of one block, 20 sectors from LBA 1 on, and the MBR in front of it. -/
def installedMemory : Memory :=
  (Memory.store (fun _ => 0) 0x600 (List.ofFn twoPartitions)).store extensionsDap
    [0x10, 0, 0, 0, 0, 0, 0, 0, 0, 0, 0, 0, 0, 0, 0, 0, 1, 0, 0, 0, 20, 0, 0, 0, 0]

lemma installedMemory_handedOver : HandedOver twoPartitions 1 0 0x7CE installedMemory :=
  ⟨by decide +kernel, by decide +kernel⟩

lemma installedMemory_installed : Installed installedMemory [⟨1, 20⟩] where
  dap := ⟨by decide, by decide⟩
  table := ⟨by decide, by decide, by decide, by rw [HoldsTable]; decide⟩

end Start

end ArcOS.Boot
