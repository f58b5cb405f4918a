import ArcOS.Disk.Pio

/-!
`Disk_Read` against a drive that is nothing but what its registers answer: one value after the other
from the status register, and one word after the other from the data register.

`i686_ata_wait_bsy` stops at the first value without BSY and `i686_ata_wait_drq` at the first one with
DRQ; neither looks at ERR. So whether `Disk_Read` comes back can be read off the values, and the same
goes for `Hard_DISK_Initialize` above it.
-/

namespace ArcOS.Disk

/-! ### A drive of answers -/

/-- What the reads of the status register and of the data register answer. -/
structure Answers where
  status : ℕ → UInt8
  data : ℕ → UInt16

/-- How many status values and words have been read, and at which status value the last command was
written. -/
structure Cursor where
  polls : ℕ
  words : ℕ
  command : ℕ

/-- The ports of a drive of answers. A read of the alternate status takes no value away. -/
def Answers.io (a : Answers) : Ports Cursor where
  inb port s :=
    match decodePort port with
    | some (_, r) =>
      if r = ataRegStatus then (a.status s.polls, { s with polls := s.polls + 1 })
      else (a.status s.polls, s)
    | none => (0, s)
  inw _ s := (a.data s.words, { s with words := s.words + 1 })
  outb port _ s :=
    match decodePort port with
    | some (_, r) => if r = ataRegCommand then { s with command := s.polls } else s
    | none => s

/-- BSY is clear. -/
def Ready (v : UInt8) : Prop := v &&& ataSrBsy = 0

/-- DRQ is set. -/
def Requests (v : UInt8) : Prop := v &&& ataSrDrq ≠ 0

/-- The drive reports an error: ERR is set, and BSY is clear, without which the other bits say
nothing. -/
def ReportsError (v : UInt8) : Prop := Ready v ∧ v &&& ataSrErr ≠ 0

instance : DecidablePred Ready := fun v => inferInstanceAs (Decidable (v &&& ataSrBsy = 0))
instance : DecidablePred Requests := fun v => inferInstanceAs (Decidable (v &&& ataSrDrq ≠ 0))
instance : DecidablePred ReportsError := fun v =>
  inferInstanceAs (Decidable (Ready v ∧ v &&& ataSrErr ≠ 0))

/-! ### `disk.c` -/

section Routines

variable {σ : Type*} (io : Ports σ)

/-- `Hard_DISK_Initialize`: its result and the record, with what is in its buffer before. The messages
are left out, and the word 0 that only picks one. -/
def hardDiskInitialize (fuel : ℕ) (disk : Fat.Disk) (buffer : ℕ → UInt8) (s : σ) :
    Option (Bool × Fat.Disk × σ) :=
  (diskRead io fuel disk 0 1 buffer true s).map fun (ok, buffer, s) =>
    if ok then
      (true, { disk with
        cylinders := Lib.word16 buffer 2
        heads := Lib.word16 buffer 6
        sectors := Lib.word16 buffer 12 }, s)
    else (false, disk, s)

/-- `Floppy_Initialize` -/
def floppyInitialize (disk : Fat.Disk) : Fat.Disk :=
  { disk with cylinders := 80, heads := 2, sectors := 18 }

/-- `Kernel_DISK_Initialize` -/
def kernelDiskInitialize (fuel : ℕ) (disk : Fat.Disk) (driveNumber : UInt8) (buffer : ℕ → UInt8)
    (s : σ) : Option (Bool × Fat.Disk × σ) :=
  let disk := { disk with id := driveNumber }
  if disk.id < 0x80 then some (true, floppyInitialize disk, s)
  else hardDiskInitialize io fuel disk buffer s

end Routines

/-! ### The loops that wait -/

/-- The first value from a place on that has a property. -/
def FirstFrom (p : UInt8 → Prop) (status : ℕ → UInt8) (n m : ℕ) : Prop :=
  n ≤ m ∧ p (status m) ∧ ∀ i, n ≤ i → i < m → ¬ p (status i)

lemma FirstFrom.unique {p : UInt8 → Prop} {status : ℕ → UInt8} {n m m' : ℕ}
    (h : FirstFrom p status n m) (h' : FirstFrom p status n m') : m = m' := by
  obtain ⟨hle, hp, hfirst⟩ := h
  obtain ⟨hle', hp', hfirst'⟩ := h'
  rcases lt_trichotomy m m' with hlt | heq | hlt
  · exact absurd hp (hfirst' m hle hlt)
  · exact heq
  · exact absurd hp' (hfirst m' hle' hlt)

section Run

variable (a : Answers) (b : Bus) {s s' : Cursor}

@[simp] lemma answers_inb_status (s : Cursor) :
    a.io.inb (b.base + ataRegStatus) s = (a.status s.polls, { s with polls := s.polls + 1 }) := by
  simp only [Answers.io, decodePort_base b (show ataRegStatus ≤ 7 by decide), if_true]

@[simp] lemma answers_inb_altStatus (s : Cursor) :
    a.io.inb (b.base + ataRegAltStatus) s = (a.status s.polls, s) := by
  simp only [Answers.io, decodePort_altStatus]
  rfl

/-- **The rule of loops that poll.** Such a loop stops at the first value with its property. -/
lemma poll_eq_some_iff {p : UInt8 → Prop} [DecidablePred p] {wait : ℕ → Cursor → Option Cursor}
    (hzero : ∀ s, wait 0 s = none)
    (hsucc : ∀ fuel s, wait (fuel + 1) s =
      if p (a.status s.polls) then some { s with polls := s.polls + 1 }
      else wait fuel { s with polls := s.polls + 1 }) {fuel : ℕ} :
    wait fuel s = some s' ↔
      ∃ m, FirstFrom p a.status s.polls m ∧ m < s.polls + fuel ∧ s' = { s with polls := m + 1 } := by
  induction fuel generalizing s with
  | zero =>
    rw [hzero]
    refine iff_of_false (by simp) ?_
    rintro ⟨m, ⟨hle, -⟩, hlt, -⟩
    omega
  | succ fuel ih =>
    rw [hsucc]
    split_ifs with hp
    · rw [Option.some.injEq]
      constructor
      · rintro rfl
        exact ⟨s.polls, ⟨le_rfl, hp, fun i hle hlt => absurd hle (not_le.mpr hlt)⟩, by omega, rfl⟩
      · rintro ⟨m, ⟨hle, -, hfirst⟩, -, rfl⟩
        have hm : m = s.polls := by
          by_contra hne
          exact hfirst s.polls le_rfl (by omega) hp
        rw [hm]
    · rw [ih]
      constructor
      · rintro ⟨m, ⟨hle, hpm, hfirst⟩, hlt, rfl⟩
        simp only at hle hfirst hlt
        refine ⟨m, ⟨by omega, hpm, fun i hi him => ?_⟩, by omega, rfl⟩
        rcases eq_or_lt_of_le hi with rfl | hi
        · exact hp
        · exact hfirst i hi him
      · rintro ⟨m, ⟨hle, hpm, hfirst⟩, hlt, rfl⟩
        have hne : m ≠ s.polls := by
          rintro rfl
          exact hp hpm
        exact ⟨m, ⟨by simp only; omega, hpm, fun i hi him => hfirst i (Nat.le_of_succ_le hi) him⟩,
          by simp only; omega, rfl⟩

lemma ataWaitBsy_eq_some_iff {fuel : ℕ} : ataWaitBsy a.io b.base fuel s = some s' ↔
    ∃ m, FirstFrom Ready a.status s.polls m ∧ m < s.polls + fuel ∧ s' = { s with polls := m + 1 } := by
  refine poll_eq_some_iff a (fun _ => rfl) fun fuel s => ?_
  simp only [ataWaitBsy, answers_inb_status]
  by_cases hready : Ready (a.status s.polls)
  · rw [if_pos hready]
    exact if_neg (not_not.mpr hready)
  · rw [if_neg hready]
    exact if_pos hready

lemma ataWaitDrq_eq_some_iff {fuel : ℕ} : ataWaitDrq a.io b.base fuel s = some s' ↔
    ∃ m, FirstFrom Requests a.status s.polls m ∧ m < s.polls + fuel ∧
      s' = { s with polls := m + 1 } := by
  refine poll_eq_some_iff a (fun _ => rfl) fun fuel s => ?_
  simp only [ataWaitDrq, answers_inb_status]
  by_cases hrequests : Requests (a.status s.polls)
  · rw [if_pos hrequests]
    exact if_neg hrequests
  · rw [if_neg hrequests]
    exact if_pos (not_not.mp hrequests)

lemma afterWords_answers (n : ℕ) : afterWords a.io b.base s n = { s with words := s.words + n } := by
  induction n with
  | zero => rfl
  | succ n ih => rw [afterWords, ih]; rfl

lemma wordAt_answers (n : ℕ) : wordAt a.io b.base s n = a.data (s.words + n) := by
  rw [wordAt, afterWords_answers]
  rfl

/-! ### The sectors -/

/-- The values signal a number of sectors from a place on, up to another place: for each of them BSY is
clear, and behind that value DRQ comes. -/
inductive Signalled (status : ℕ → UInt8) : ℕ → ℕ → ℕ → Prop
  | done (n : ℕ) : Signalled status 0 n n
  | sector {left n m k e : ℕ} (hbsy : FirstFrom Ready status n m)
      (hdrq : FirstFrom Requests status (m + 1) k) (hrest : Signalled status left (k + 1) e) :
      Signalled status (left + 1) n e

/-- The loop over the sectors ends only where the values have signalled them all. -/
lemma signalled_of_readSectors {fuel n sector : ℕ} {buffer buffer' : ℕ → UInt8}
    (h : readSectors a.io fuel b.base n sector (buffer, s) = some (buffer', s')) :
    Signalled a.status n s.polls s'.polls ∧ s'.command = s.command := by
  induction n generalizing sector buffer s with
  | zero =>
    cases h
    exact ⟨Signalled.done _, rfl⟩
  | succ n ih =>
    rw [readSectors, Option.bind_eq_some_iff] at h
    obtain ⟨t, hbsy, h⟩ := h
    obtain ⟨u, hdrq, h⟩ := Option.bind_eq_some_iff.mp h
    obtain ⟨m, hm, -, rfl⟩ := (ataWaitBsy_eq_some_iff a b).mp hbsy
    obtain ⟨k, hk, -, rfl⟩ := (ataWaitDrq_eq_some_iff a b).mp hdrq
    rw [readWords_eq, afterWords_answers] at h
    obtain ⟨hrest, hcommand⟩ := ih h
    exact ⟨Signalled.sector hm hk hrest, hcommand⟩

/-- Where the values signal all the sectors, the loop over them ends. -/
lemma readSectors_of_signalled {n e : ℕ} (h : Signalled a.status n s.polls e) (sector : ℕ)
    (buffer : ℕ → UInt8) :
    ∃ fuel₀ buffer' s', (∀ fuel, fuel₀ ≤ fuel →
        readSectors a.io fuel b.base n sector (buffer, s) = some (buffer', s')) ∧
      s'.polls = e ∧ s'.command = s.command := by
  obtain ⟨n₀, hn₀⟩ : ∃ n₀, n₀ = s.polls := ⟨_, rfl⟩
  rw [← hn₀] at h
  induction h generalizing sector buffer s with
  | done => exact ⟨0, buffer, s, fun _ _ => rfl, hn₀.symm, rfl⟩
  | @sector left n m k e hbsy hdrq _ ih =>
    subst hn₀
    obtain ⟨fuel₀, buffer', s', hrun, hpolls, hcommand⟩ :=
      ih (s := { s with polls := k + 1, words := s.words + 256 }) (sector + 1)
        (readWords a.io b.base 256 (sector * 512) (buffer, { s with polls := k + 1 })).1 rfl
    refine ⟨max fuel₀ (k + 1), buffer', s', fun fuel hfuel => ?_, hpolls, hcommand⟩
    have hwait : ataWaitBsy a.io b.base fuel s = some { s with polls := m + 1 } :=
      (ataWaitBsy_eq_some_iff a b).mpr ⟨m, hbsy, by have := hdrq.1; omega, rfl⟩
    have hwait' : ataWaitDrq a.io b.base fuel { s with polls := m + 1 } =
        some { s with polls := k + 1 } :=
      (ataWaitDrq_eq_some_iff a b).mpr ⟨k, hdrq, by simp only; omega, rfl⟩
    rw [readSectors, hwait, Option.bind_some, hwait', Option.bind_some]
    have hwords : (readWords a.io b.base 256 (sector * 512) (buffer, { s with polls := k + 1 })).2 =
        { s with polls := k + 1, words := s.words + 256 } := by
      rw [readWords_eq, afterWords_answers]
    rw [← hrun fuel (by omega), ← hwords]

lemma diskRead_answers (fuel : ℕ) (disk : Fat.Disk) (lba : UInt32) (sectors : UInt8)
    (buffer : ℕ → UInt8) (isIdentify : Bool) (s : Cursor) :
    diskRead a.io fuel disk lba sectors buffer isIdentify s =
      (ataWaitBsy a.io (busOf disk.id).base fuel s).bind fun s =>
        (readSectors a.io fuel (busOf disk.id).base sectors.toNat 0
          (buffer, { s with command := s.polls })).map fun p =>
            (a.status p.2.polls &&& ataSrErr == 0, p.1, { p.2 with polls := p.2.polls + 1 }) := by
  have houtb : ∀ (r : UInt16) (v : UInt8) (t : Cursor), r ≤ 7 →
      a.io.outb ((busOf disk.id).base + r) v t =
        if r = ataRegCommand then { t with command := t.polls } else t := by
    intro r v t hr
    simp only [Answers.io, decodePort_base _ hr]
  have hissue : ∀ t : Cursor, issueCommand a.io (busOf disk.id).base lba sectors isIdentify t =
      { t with command := t.polls } := by
    intro t
    cases isIdentify
    all_goals
      simp only [issueCommand, Bool.false_eq_true, if_false, if_true]
      rw [houtb _ _ _ (by decide), houtb _ _ _ (by decide), houtb _ _ _ (by decide),
        houtb _ _ _ (by decide), houtb _ _ _ (by decide)]
      rfl
  simp only [diskRead]
  rw [busOf_base, houtb _ _ _ (by decide), if_neg (by decide)]
  simp only [answers_inb_altStatus, answers_inb_status, hissue]

end Run

/-! ### Errors -/

/-- A call comes back, and with false when one of the status values it read behind its command reports
an error. -/
def FailsSafely (a : Answers) (run : ℕ → Option (Bool × Cursor)) : Prop :=
  ∃ fuel₀ ok s', (∀ fuel, fuel₀ ≤ fuel → run fuel = some (ok, s')) ∧
    ∀ i, s'.command ≤ i → i < s'.polls → ReportsError (a.status i) → ok = false

/-- The status values from a place on signal the end of the last command and then every sector by DRQ,
and an error they report on the way is still there in the value behind the last sector. -/
def ErrorsKept (status : ℕ → UInt8) (sectors n : ℕ) : Prop :=
  ∃ m e, FirstFrom Ready status n m ∧ Signalled status sectors (m + 1) e ∧
    ∀ i, m + 1 ≤ i → i ≤ e → ReportsError (status i) → status e &&& ataSrErr ≠ 0

/-- `Disk_Read` as a run with its result and the values it has read. -/
def readRun (a : Answers) (disk : Fat.Disk) (lba : UInt32) (sectors : UInt8) (buffer : ℕ → UInt8)
    (isIdentify : Bool) (s : Cursor) (fuel : ℕ) : Option (Bool × Cursor) :=
  (diskRead a.io fuel disk lba sectors buffer isIdentify s).map fun r => (r.1, r.2.2)

/-- `Hard_DISK_Initialize` as a run with its result and the values it has read. -/
def initializeRun (a : Answers) (disk : Fat.Disk) (buffer : ℕ → UInt8) (s : Cursor) (fuel : ℕ) :
    Option (Bool × Cursor) :=
  (hardDiskInitialize a.io fuel disk buffer s).map fun r => (r.1, r.2.2)

lemma initializeRun_eq (a : Answers) (disk : Fat.Disk) (buffer : ℕ → UInt8) (s : Cursor) :
    initializeRun a disk buffer s = readRun a disk 0 1 buffer true s := by
  funext fuel
  rw [initializeRun, readRun, hardDiskInitialize, Option.map_map]
  refine congrArg (fun f => Option.map f _) (funext fun r => ?_)
  obtain ⟨ok, buffer, s⟩ := r
  cases ok <;> rfl

lemma readRun_iff (a : Answers) (disk : Fat.Disk) (lba : UInt32) (sectors : UInt8)
    (buffer : ℕ → UInt8) (isIdentify : Bool) (s : Cursor) :
    FailsSafely a (readRun a disk lba sectors buffer isIdentify s) ↔
      ErrorsKept a.status sectors.toNat s.polls := by
  constructor
  · rintro ⟨fuel₀, ok, s', hrun, herror⟩
    obtain ⟨⟨ok', buffer', t⟩, hread, hok⟩ := Option.map_eq_some_iff.mp (hrun fuel₀ le_rfl)
    cases hok
    rw [diskRead_answers] at hread
    obtain ⟨u, hwait, hread⟩ := Option.bind_eq_some_iff.mp hread
    obtain ⟨m, hm, -, rfl⟩ := (ataWaitBsy_eq_some_iff a _).mp hwait
    obtain ⟨⟨buffer'', v⟩, hsectors, hok⟩ := Option.map_eq_some_iff.mp hread
    cases hok
    obtain ⟨hsignalled, hcommand⟩ := signalled_of_readSectors a _ hsectors
    refine ⟨m, v.polls, hm, hsignalled, fun i hi hle hreports => ?_⟩
    have hfalse := herror i (hcommand.trans_le hi) (Nat.lt_succ_of_le hle) hreports
    simpa using hfalse
  · rintro ⟨m, e, hm, hsignalled, herror⟩
    obtain ⟨fuel₀, buffer', t, hsectors, rfl, hcommand⟩ := readSectors_of_signalled a
      (busOf disk.id) (s := { s with polls := m + 1, command := m + 1 }) hsignalled 0 buffer
    refine ⟨max fuel₀ (m + 1), a.status t.polls &&& ataSrErr == 0, { t with polls := t.polls + 1 },
      fun fuel hfuel => ?_, fun i hi hlt hreports => ?_⟩
    · have hwait : ataWaitBsy a.io (busOf disk.id).base fuel s = some { s with polls := m + 1 } :=
        (ataWaitBsy_eq_some_iff a _).mpr ⟨m, hm, by omega, rfl⟩
      rw [readRun, diskRead_answers, hwait, Option.bind_some, hsectors fuel (by omega)]
      rfl
    · have hkept := herror i (by simpa [hcommand] using hi) (Nat.le_of_lt_succ hlt) hreports
      simpa using hkept

/-- A drive that reports an error and has no data, at every read of its status. -/
def failingDrive : Answers where
  status _ := 0x51
  data _ := 0

lemma failingDrive_not_kept (n : ℕ) : ¬ ErrorsKept failingDrive.status 1 n := by
  rintro ⟨m, e, -, hsignalled, -⟩
  cases hsignalled with
  | sector _ hdrq _ => exact hdrq.2.1 (show (0x51 : UInt8) &&& ataSrDrq = 0 by decide)

/-- **When a failing drive makes a read return false.** Over all status values, `Disk_Read` comes back,
and with false when an error was reported, if and only if every sector is signalled by DRQ and an error
is still there behind the last one. The same goes for `Hard_DISK_Initialize` and its one sector. -/
theorem errors_answered_iff (a : Answers) (disk : Fat.Disk) (buffer : ℕ → UInt8) (s : Cursor) :
    (∀ (lba : UInt32) (sectors : UInt8) (isIdentify : Bool),
      FailsSafely a (readRun a disk lba sectors buffer isIdentify s) ↔
        ErrorsKept a.status sectors.toNat s.polls) ∧
    (FailsSafely a (initializeRun a disk buffer s) ↔ ErrorsKept a.status 1 s.polls) := by
  refine ⟨fun lba sectors isIdentify => readRun_iff a disk lba sectors buffer isIdentify s, ?_⟩
  rw [initializeRun_eq]
  exact readRun_iff a disk 0 1 buffer true s

/-- A drive that clears BSY and reports an error without DRQ, for ever: neither a read of one sector nor
`Hard_DISK_Initialize` comes back. -/
theorem error_without_drq_hangs :
    (∀ n, Ready (failingDrive.status n) ∧ ReportsError (failingDrive.status n)) ∧
      ¬ FailsSafely failingDrive (readRun failingDrive largeDisk 0 1 (fun _ => 0) false
        { polls := 0, words := 0, command := 0 }) ∧
      ¬ FailsSafely failingDrive (initializeRun failingDrive largeDisk (fun _ => 0)
        { polls := 0, words := 0, command := 0 }) := by
  have hvalue : Ready 0x51 ∧ ReportsError 0x51 := by decide
  refine ⟨fun _ => hvalue, ?_, ?_⟩
  · rw [readRun_iff]
    exact failingDrive_not_kept 0
  · rw [initializeRun_eq, readRun_iff]
    exact failingDrive_not_kept 0

end ArcOS.Disk
