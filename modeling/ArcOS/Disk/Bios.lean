import ArcOS.Fat.State

/-!
The disk of the boot loader: `DISK_Initialize`, `DISK_LBA2CHS` and `DISK_ReadSectors`, with the
assembly below them that calls INT 13h.

The assembly packs a cylinder, a head and a sector into the registers CH, CL and DH, and takes the
geometry of a drive out of the same fields. The BIOS is a parameter: what it answers to a call, with a
state of its own.
-/

namespace ArcOS.Disk

/-! ### The BIOS -/

/-- The registers of INT 13h/02h. -/
structure ReadRegs where
  al : UInt8
  ch : UInt8
  cl : UInt8
  dh : UInt8
  dl : UInt8
  es : UInt16
  bx : UInt16

/-- The registers INT 13h/08h answers with. -/
structure ParamsRegs where
  carry : Bool
  bl : UInt8
  ch : UInt8
  cl : UInt8
  dh : UInt8

/-- INT 13h. `reset` (00h) and `read` (02h) answer with the carry flag. -/
structure Bios (σ : Type*) where
  reset : UInt8 → σ → Bool × σ
  read : ReadRegs → σ → Bool × σ
  params : UInt8 → σ → ParamsRegs × σ

namespace ReadRegs

/-- The cylinder that CH and the bits 6 and 7 of CL name. -/
def cylinder (r : ReadRegs) : ℕ := r.ch.toNat + 256 * (r.cl.toNat / 64)

/-- The sector that the bits 0 to 5 of CL name. -/
def sector (r : ReadRegs) : ℕ := r.cl.toNat % 64

/-- The head that DH names. -/
def head (r : ReadRegs) : ℕ := r.dh.toNat

/-- The registers name the sector with a number, on a disk of a geometry. -/
def Addresses (r : ReadRegs) (disk : Fat.Disk) (lba : ℕ) : Prop :=
  1 ≤ r.sector ∧
    (r.cylinder * disk.heads.toNat + r.head) * disk.sectors.toNat + (r.sector - 1) = lba

end ReadRegs

/-! ### `x86.asm` -/

/-- What the code behind INT 13h/08h in `x86_Disk_GetDriveParams` stores. -/
structure DriveParams where
  driveType : UInt8
  cylinders : UInt16
  sectors : UInt16
  heads : UInt16

/-- The fields taken out of the registers. -/
def unpackParams (r : ParamsRegs) : DriveParams where
  driveType := r.bl
  cylinders := (r.ch.toUInt16 ||| ((r.cl >>> 6).toUInt16 <<< 8)) + 1
  sectors := (r.cl &&& 0x3F).toUInt16
  heads := r.dh.toUInt16 + 1

/-- The registers that `x86_Disk_Read` loads: a cylinder, a sector, a head, a count and the linear
address of the buffer. -/
def packRead (drive : UInt8) (cylinder sector head : UInt16) (count : UInt8) (dataOut : UInt32) :
    ReadRegs where
  dl := drive
  ch := cylinder.toUInt8
  cl := (cylinder >>> 8).toUInt8 <<< 6 ||| (sector.toUInt8 &&& 0x3F)
  dh := head.toUInt8
  al := count
  es := (dataOut >>> 4).toUInt16
  bx := (dataOut &&& 0xF).toUInt16

section

variable {σ : Type*} (bios : Bios σ)

/-- `x86_Disk_GetDriveParams` -/
def x86DiskGetDriveParams (drive : UInt8) (s : σ) : (Bool × DriveParams) × σ :=
  ((!(bios.params drive s).1.carry, unpackParams (bios.params drive s).1), (bios.params drive s).2)

/-- `x86_Disk_Reset` -/
def x86DiskReset (drive : UInt8) (s : σ) : Bool × σ :=
  (!(bios.reset drive s).1, (bios.reset drive s).2)

/-- `x86_Disk_Read` -/
def x86DiskRead (drive : UInt8) (cylinder sector head : UInt16) (count : UInt8) (dataOut : UInt32)
    (s : σ) : Bool × σ :=
  (!(bios.read (packRead drive cylinder sector head count dataOut) s).1,
    (bios.read (packRead drive cylinder sector head count dataOut) s).2)

/-! ### `disk.c` -/

/-- `DISK_Initialize`: the record it fills, when it returns true. -/
def diskInitialize (driveNumber : UInt8) (s : σ) : Option Fat.Disk × σ :=
  match x86DiskGetDriveParams bios driveNumber s with
  | ((true, p), s) =>
    (some { id := driveNumber, cylinders := p.cylinders, heads := p.heads, sectors := p.sectors }, s)
  | ((false, _), s) => (none, s)

/-- What `DISK_LBA2CHS` stores. -/
structure Chs where
  cylinder : UInt16
  sector : UInt16
  head : UInt16

/-- `DISK_LBA2CHS`; `none` when it divides by zero. -/
def diskLba2Chs (disk : Fat.Disk) (lba : UInt32) : Option Chs :=
  if disk.sectors = 0 ∨ disk.heads = 0 then none
  else some
    { sector := (lba % disk.sectors.toUInt32 + 1).toUInt16
      cylinder := (lba / disk.sectors.toUInt32 / disk.heads.toUInt32).toUInt16
      head := (lba / disk.sectors.toUInt32 % disk.heads.toUInt32).toUInt16 }

/-- The loop of `DISK_ReadSectors`, with the attempts left. -/
def readAttempts (disk : Fat.Disk) (a : Chs) (sectors : UInt8) (dataOut : UInt32) :
    ℕ → σ → Bool × σ
  | 0, s => (false, s)
  | left + 1, s =>
    match x86DiskRead bios disk.id a.cylinder a.sector a.head sectors dataOut s with
    | (true, s) => (true, s)
    | (false, s) => readAttempts disk a sectors dataOut left (x86DiskReset bios disk.id s).2

/-- `DISK_ReadSectors`; `none` when `DISK_LBA2CHS` divides by zero. -/
def diskReadSectors (disk : Fat.Disk) (lba : UInt32) (sectors : UInt8) (dataOut : UInt32) (s : σ) :
    Option (Bool × σ) :=
  (diskLba2Chs disk lba).map fun a => readAttempts bios disk a sectors dataOut 3 s

end

/-! ### Packing -/

lemma cl_toNat (x y : UInt8) : (x <<< 6 ||| (y &&& 0x3F)).toNat = 64 * (x.toNat % 4) + y.toNat % 64 := by
  have hy : y.toNat &&& 63 = y.toNat % 64 := Nat.and_two_pow_sub_one_eq_mod _ 6
  have hx : x.toNat <<< 6 % 256 = (x.toNat % 4) <<< 6 := by
    rw [Nat.shiftLeft_eq, Nat.shiftLeft_eq]
    omega
  have hlt : y.toNat % 64 < 2 ^ 6 := by omega
  simp only [UInt8.toNat_or, UInt8.toNat_and, UInt8.toNat_shiftLeft, UInt8.reduceToNat,
    Nat.reduceMod, Nat.reducePow]
  rw [hy, hx, ← Nat.shiftLeft_add_eq_or_of_lt hlt, Nat.shiftLeft_eq]
  omega

section packRead

variable (drive : UInt8) (cylinder sector head : UInt16) (count : UInt8) (dataOut : UInt32)

@[simp] lemma packRead_cylinder :
    (packRead drive cylinder sector head count dataOut).cylinder = cylinder.toNat % 1024 := by
  have hc := cylinder.toNat_lt
  simp only [ReadRegs.cylinder, packRead, cl_toNat, UInt16.toNat_toUInt8, UInt16.toNat_shiftRight,
    Nat.shiftRight_eq_div_pow]
  simp
  omega

@[simp] lemma packRead_sector :
    (packRead drive cylinder sector head count dataOut).sector = sector.toNat % 64 := by
  simp only [ReadRegs.sector, packRead, cl_toNat, UInt16.toNat_toUInt8]
  omega

@[simp] lemma packRead_head :
    (packRead drive cylinder sector head count dataOut).head = head.toNat % 256 := by
  simp [ReadRegs.head, packRead]

@[simp] lemma packRead_al : (packRead drive cylinder sector head count dataOut).al = count := rfl

end packRead

section unpackParams

variable (r : ParamsRegs)

lemma unpackParams_cylinders :
    (unpackParams r).cylinders.toNat = r.ch.toNat + 256 * (r.cl.toNat / 64) + 1 := by
  have hch := r.ch.toNat_lt
  have hcl := r.cl.toNat_lt
  have hor := Nat.shiftLeft_add_eq_or_of_lt (i := 8) (b := r.ch.toNat) (by omega) (r.cl.toNat / 64)
  have hhigh : (r.cl.toNat / 64) <<< 8 % 65536 = (r.cl.toNat / 64) <<< 8 := by
    rw [Nat.shiftLeft_eq]
    omega
  have hcylinders : (r.ch.toUInt16 ||| ((r.cl >>> 6).toUInt16 <<< 8)).toNat =
      r.ch.toNat + 256 * (r.cl.toNat / 64) := by
    simp only [UInt16.toNat_or, UInt16.toNat_shiftLeft, UInt8.toNat_toUInt16, UInt8.toNat_shiftRight,
      UInt8.reduceToNat, UInt16.reduceToNat, Nat.reduceMod, Nat.reducePow]
    rw [Nat.shiftRight_eq_div_pow, Nat.or_comm, hhigh, ← hor, Nat.shiftLeft_eq]
    omega
  rw [unpackParams, UInt16.toNat_add, hcylinders]
  simp
  omega

lemma unpackParams_sectors : (unpackParams r).sectors.toNat = r.cl.toNat % 64 := by
  have hcl : r.cl.toNat &&& 63 = r.cl.toNat % 64 := Nat.and_two_pow_sub_one_eq_mod _ 6
  simp [unpackParams, hcl]

lemma unpackParams_heads : (unpackParams r).heads.toNat = r.dh.toNat + 1 := by
  have hdh := r.dh.toNat_lt
  simp [unpackParams]
  omega

end unpackParams

/-! ### Addressing -/

section Address

variable {disk : Fat.Disk} {lba : UInt32} {count : UInt8} {dataOut : UInt32}

/-- The registers that `DISK_ReadSectors` hands to INT 13h/02h. -/
def readRegs (disk : Fat.Disk) (lba : UInt32) (count : UInt8) (dataOut : UInt32) : Option ReadRegs :=
  (diskLba2Chs disk lba).map fun a =>
    packRead disk.id a.cylinder a.sector a.head count dataOut

/-- The fields that the registers name: the quotients and remainders, as far as they fit. -/
lemma readRegs_fields (hsectors : disk.sectors ≠ 0) (hheads : disk.heads ≠ 0) (lba : UInt32)
    (count : UInt8) (dataOut : UInt32) :
    ∃ r, readRegs disk lba count dataOut = some r ∧ r.al = count ∧
      r.cylinder = lba.toNat / disk.sectors.toNat / disk.heads.toNat % 1024 ∧
      r.head = lba.toNat / disk.sectors.toNat % disk.heads.toNat % 256 ∧
      r.sector = (lba.toNat % disk.sectors.toNat + 1) % 64 := by
  refine ⟨_, by rw [readRegs, diskLba2Chs, if_neg (by simp [hsectors, hheads]), Option.map_some], rfl,
    ?_, ?_, ?_⟩
  all_goals simp

lemma chs_lba (sectors heads lba : ℕ) :
    (lba / sectors / heads * heads + lba / sectors % heads) * sectors + lba % sectors = lba := by
  rw [Nat.div_add_mod', Nat.div_add_mod']

lemma ReadRegs.Addresses.unique {r r' : ReadRegs} {lba lba' : ℕ} (h : r.Addresses disk lba)
    (h' : r'.Addresses disk lba') (hcylinder : r.cylinder = r'.cylinder) (hhead : r.head = r'.head)
    (hsector : r.sector = r'.sector) : lba = lba' := by
  rw [← h.2, ← h'.2, hcylinder, hhead, hsector]

/-- Where the fields of a geometry fit into their bits, the registers name the sector of an LBA. -/
lemma readRegs_exact (hC : disk.cylinders.toNat ≤ 1024) (hH : disk.heads.toNat ≤ 256)
    (hS : disk.sectors.toNat < 64) (hsectors : disk.sectors ≠ 0) (hheads : disk.heads ≠ 0)
    (hlba : lba.toNat < disk.cylinders.toNat * disk.heads.toNat * disk.sectors.toNat) :
    ∃ r, readRegs disk lba count dataOut = some r ∧ r.cylinder < disk.cylinders.toNat ∧
      r.head < disk.heads.toNat ∧ r.sector ≤ disk.sectors.toNat ∧ r.Addresses disk lba.toNat := by
  have hSpos : 0 < disk.sectors.toNat :=
    Nat.pos_iff_ne_zero.mpr fun h => hsectors (UInt16.toNat_inj.mp h)
  have hHpos : 0 < disk.heads.toNat := Nat.pos_iff_ne_zero.mpr fun h => hheads (UInt16.toNat_inj.mp h)
  obtain ⟨r, hr, -, hcylinder, hhead, hsec⟩ := readRegs_fields hsectors hheads lba count dataOut
  have htrack : lba.toNat / disk.sectors.toNat < disk.cylinders.toNat * disk.heads.toNat :=
    Nat.div_lt_of_lt_mul (by rwa [Nat.mul_comm])
  have hc : lba.toNat / disk.sectors.toNat / disk.heads.toNat < disk.cylinders.toNat :=
    Nat.div_lt_of_lt_mul (by rwa [Nat.mul_comm])
  have hh : lba.toNat / disk.sectors.toNat % disk.heads.toNat < disk.heads.toNat := Nat.mod_lt _ hHpos
  have hs : lba.toNat % disk.sectors.toNat < disk.sectors.toNat := Nat.mod_lt _ hSpos
  rw [Nat.mod_eq_of_lt (by omega)] at hcylinder hhead hsec
  refine ⟨r, hr, by omega, by omega, by omega, by omega, ?_⟩
  rw [hcylinder, hhead, hsec, Nat.add_sub_cancel]
  exact chs_lba _ _ _

lemma diskInitialize_geometry {σ : Type*} {bios : Bios σ} {driveNumber : UInt8} {s s' : σ}
    (h : diskInitialize bios driveNumber s = (some disk, s')) :
    disk.cylinders.toNat ≤ 1024 ∧ disk.heads.toNat ≤ 256 ∧ disk.heads ≠ 0 ∧
      disk.sectors.toNat = (bios.params driveNumber s).1.cl.toNat % 64 := by
  rw [diskInitialize, x86DiskGetDriveParams] at h
  split at h
  case h_2 => cases h
  case h_1 p t heq =>
    simp only [Prod.mk.injEq] at heq
    obtain ⟨⟨-, rfl⟩, rfl⟩ := heq
    cases h
    have hch := (bios.params driveNumber s).1.ch.toNat_lt
    have hcl := (bios.params driveNumber s).1.cl.toNat_lt
    have hdh := (bios.params driveNumber s).1.dh.toNat_lt
    refine ⟨?_, ?_, fun hzero => ?_, unpackParams_sectors _⟩
    · rw [unpackParams_cylinders]
      omega
    · rw [unpackParams_heads]
      omega
    · have hheads := unpackParams_heads (bios.params driveNumber s).1
      have hzero' : (unpackParams (bios.params driveNumber s).1).heads.toNat = 0 :=
        congrArg UInt16.toNat hzero
      omega

end Address

/-- **CHS addressing is exact over the whole geometry.** On the disk that `DISK_Initialize` fills from
any answer of INT 13h/08h with a sector field that is not 0, the registers for every LBA below
`C * H * S` name a cylinder, a head and a sector of the disk, the ones with that number; and the
registers for different LBAs name different sectors. -/
theorem chs_exact {σ : Type*} (bios : Bios σ) (driveNumber : UInt8) (s s' : σ) (disk : Fat.Disk)
    (hinit : diskInitialize bios driveNumber s = (some disk, s'))
    (hsector : (bios.params driveNumber s).1.cl &&& 0x3F ≠ 0) (count : UInt8) (dataOut : UInt32) :
    (∀ lba : UInt32, lba.toNat < disk.cylinders.toNat * disk.heads.toNat * disk.sectors.toNat →
      ∃ r, readRegs disk lba count dataOut = some r ∧ r.cylinder < disk.cylinders.toNat ∧
        r.head < disk.heads.toNat ∧ 1 ≤ r.sector ∧ r.sector ≤ disk.sectors.toNat ∧
        (r.cylinder * disk.heads.toNat + r.head) * disk.sectors.toNat + (r.sector - 1) = lba.toNat) ∧
    ∀ lba lba' : UInt32, ∀ r r',
      lba.toNat < disk.cylinders.toNat * disk.heads.toNat * disk.sectors.toNat →
      lba'.toNat < disk.cylinders.toNat * disk.heads.toNat * disk.sectors.toNat →
      readRegs disk lba count dataOut = some r → readRegs disk lba' count dataOut = some r' →
      r.cylinder = r'.cylinder → r.head = r'.head → r.sector = r'.sector → lba = lba' := by
  obtain ⟨hC, hH, hheads, hS⟩ := diskInitialize_geometry hinit
  have hsector' : (bios.params driveNumber s).1.cl.toNat % 64 ≠ 0 := by
    intro hzero
    have hand : (bios.params driveNumber s).1.cl.toNat &&& 63 = 0 := by
      rw [← hzero]
      exact Nat.and_two_pow_sub_one_eq_mod _ 6
    exact hsector (UInt8.toNat_inj.mp (by simpa using hand))
  have hsectors : disk.sectors ≠ 0 := by
    intro hzero
    rw [hzero] at hS
    exact hsector' hS.symm
  have hS63 : disk.sectors.toNat < 64 := by omega
  have hexact : ∀ lba : UInt32,
      lba.toNat < disk.cylinders.toNat * disk.heads.toNat * disk.sectors.toNat →
      ∃ r, readRegs disk lba count dataOut = some r ∧ r.cylinder < disk.cylinders.toNat ∧
        r.head < disk.heads.toNat ∧ r.sector ≤ disk.sectors.toNat ∧ r.Addresses disk lba.toNat :=
    fun lba hlba => readRegs_exact hC hH hS63 hsectors hheads hlba
  refine ⟨fun lba hlba => ?_, fun lba lba' r r' hlba hlba' hr hr' h1 h2 h3 => ?_⟩
  · obtain ⟨r, hr, hc, hh, hle, hpos, heq⟩ := hexact lba hlba
    exact ⟨r, hr, hc, hh, hpos, hle, heq⟩
  · obtain ⟨t, ht, -, -, -, haddr⟩ := hexact lba hlba
    obtain ⟨t', ht', -, -, -, haddr'⟩ := hexact lba' hlba'
    rw [hr] at ht
    rw [hr'] at ht'
    cases ht
    cases ht'
    exact UInt32.toNat_inj.mp (haddr.unique haddr' h1 h2 h3)

/-- A BIOS with a drive of 40 cylinders, 2 heads and 9 sectors. -/
def floppyBios : Bios Unit where
  reset _ s := (false, s)
  read _ s := (false, s)
  params _ s := ({ carry := false, bl := 1, ch := 39, cl := 9, dh := 1 }, s)

/-- The last sector of that drive. -/
theorem chs_exact_floppy :
    ∃ r, readRegs { id := 0, cylinders := 40, heads := 2, sectors := 9 } 719 1 0x7E00 = some r ∧
      r.cylinder < 40 ∧ r.head < 2 ∧ 1 ≤ r.sector ∧ r.sector ≤ 9 ∧
      (r.cylinder * 2 + r.head) * 9 + (r.sector - 1) = 719 :=
  (chs_exact floppyBios 0 () () { id := 0, cylinders := 40, heads := 2, sectors := 9 } rfl (by decide)
    1 0x7E00).1 719 (by decide)

/-! ### Addresses that wrap -/

/-- A drive that reads from every address it can be given. Its state is what it has read, latest
first. `sectorZero` says what it makes of the sector number 0, which names no sector. -/
def everyAddress (sectorZero : Bool) : Bios (List ReadRegs) where
  reset _ s := (false, s)
  read r s := if r.sector = 0 ∧ sectorZero = false then (true, s) else (false, r :: s)
  params _ s := ({ carry := true, bl := 0, ch := 0, cl := 0, dh := 0 }, s)

/-- `DISK_ReadSectors` makes that drive read exactly the sectors from the LBA on, or returns false. -/
def BiosReads (sectorZero : Bool) (disk : Fat.Disk) (lba : UInt32) (sectors : UInt8)
    (dataOut : UInt32) (before : List ReadRegs) : Prop :=
  ∃ ok after, diskReadSectors (everyAddress sectorZero) disk lba sectors dataOut before =
      some (ok, after) ∧
    (ok = false ∨ ∃ r, after = r :: before ∧ r.Addresses disk lba.toNat ∧ r.al = sectors)

section Wrap

variable {disk : Fat.Disk} {lba : UInt32} {sectors : UInt8} {dataOut : UInt32}

lemma diskReadSectors_everyAddress {r : ReadRegs} (h : readRegs disk lba sectors dataOut = some r)
    (sectorZero : Bool) (before : List ReadRegs) :
    diskReadSectors (everyAddress sectorZero) disk lba sectors dataOut before =
      some (if r.sector = 0 ∧ sectorZero = false then (false, before) else (true, r :: before)) := by
  obtain ⟨a, ha, rfl⟩ := Option.map_eq_some_iff.mp h
  rw [diskReadSectors, ha, Option.map_some]
  by_cases hzero : (packRead disk.id a.cylinder a.sector a.head sectors dataOut).sector = 0 ∧
      sectorZero = false
  · simp [readAttempts, x86DiskRead, x86DiskReset, everyAddress, hzero]
  · simp only [readAttempts, x86DiskRead, everyAddress, if_neg hzero]
    rfl

/-- The fields cut to their bits name the sector if and only if nothing was cut off. -/
lemma cut_fields_iff (lba : ℕ) {sectors heads : ℕ} (hsectors : 0 < sectors) (hheads : 0 < heads) :
    (1 ≤ (lba % sectors + 1) % 64 ∧
      (lba / sectors / heads % 1024 * heads + lba / sectors % heads % 256) * sectors +
        ((lba % sectors + 1) % 64 - 1) = lba) ↔
      lba / sectors / heads < 1024 ∧ lba / sectors % heads < 256 ∧ lba % sectors + 1 < 64 := by
  have hlba := chs_lba sectors heads lba
  generalize lba / sectors / heads = c at *
  generalize lba / sectors % heads = h at *
  generalize lba % sectors = s at *
  constructor
  · rintro ⟨hpos, heq⟩
    have hc : c % 1024 * heads ≤ c * heads := Nat.mul_le_mul_right _ (Nat.mod_le _ _)
    have hh : h % 256 ≤ h := Nat.mod_le _ _
    have hs : (s + 1) % 64 ≤ s + 1 := Nat.mod_le _ _
    have htrack : (c % 1024 * heads + h % 256) * sectors ≤ (c * heads + h) * sectors :=
      Nat.mul_le_mul_right _ (by omega)
    have htrack' : c % 1024 * heads + h % 256 = c * heads + h :=
      Nat.eq_of_mul_eq_mul_right hsectors (by omega)
    have hc' : c % 1024 = c := Nat.eq_of_mul_eq_mul_right hheads (by omega)
    refine ⟨?_, ?_, ?_⟩
    · omega
    · omega
    · omega
  · rintro ⟨hc, hh, hs⟩
    rw [Nat.mod_eq_of_lt hc, Nat.mod_eq_of_lt hh, Nat.mod_eq_of_lt hs]
    exact ⟨by omega, hlba⟩

/-- **The boot loader's reads.** The request is right or refused if and only if the cylinder, the head
and the sector fit into their bits, or the sector is cut to 0 and refused. -/
theorem biosReads_iff (hsectors : disk.sectors ≠ 0) (hheads : disk.heads ≠ 0) (sectorZero : Bool)
    (before : List ReadRegs) :
    BiosReads sectorZero disk lba sectors dataOut before ↔
      (lba.toNat / disk.sectors.toNat / disk.heads.toNat < 1024 ∧
        lba.toNat / disk.sectors.toNat % disk.heads.toNat < 256 ∧
        lba.toNat % disk.sectors.toNat + 1 < 64) ∨
      ((lba.toNat % disk.sectors.toNat + 1) % 64 = 0 ∧ sectorZero = false) := by
  obtain ⟨r, hr, hal, hcylinder, hhead, hsector⟩ :=
    readRegs_fields hsectors hheads lba sectors dataOut
  have hrun := diskReadSectors_everyAddress hr sectorZero before
  have hpos : ∀ v : UInt16, v ≠ 0 → 0 < v.toNat := fun v hv =>
    Nat.pos_of_ne_zero fun h => hv (UInt16.toNat_inj.mp h)
  have haddr := cut_fields_iff lba.toNat (hpos _ hsectors) (hpos _ hheads)
  rw [← hcylinder, ← hhead, ← hsector] at haddr
  rw [← hsector, ← haddr]
  by_cases hzero : r.sector = 0 ∧ sectorZero = false
  · rw [if_pos hzero] at hrun
    exact ⟨fun _ => Or.inr hzero, fun _ => ⟨_, _, hrun, Or.inl rfl⟩⟩
  · rw [if_neg hzero] at hrun
    constructor
    · rintro ⟨ok, after, hok, hreads⟩
      rw [hrun] at hok
      cases hok
      rcases hreads with hfalse | ⟨t, ht, haddr, -⟩
      · cases hfalse
      · cases ht
        exact Or.inl haddr
    · rintro (h | h)
      · exact ⟨_, _, hrun, Or.inr ⟨r, rfl, h, hal⟩⟩
      · exact absurd h hzero

end Wrap

end ArcOS.Disk
