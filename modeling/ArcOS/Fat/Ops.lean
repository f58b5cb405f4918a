import ArcOS.Fat.State
import ArcOS.Stdio.Printf

/-!
The functions of `fat.c`, for either layer.

A function takes the state and gives its result with the state after it. One that can stop gives
`Except Stop`. The loops of `FAT_FindFile` and `FAT_ReadFile` need not end on a corrupted disk: they
take the number of rounds they may run, and stop with `outOfFuel` when these are used up.
-/

namespace ArcOS.Fat

open Lib

/-! ### The allocation table -/

/-- Where the entry of a cluster starts in the table, in bytes. -/
def fatIndex (fatType : UInt8) (cluster : UInt32) : UInt32 :=
  if fatType = 12 then cluster * 3 / 2 else if fatType = 16 then cluster * 2 else cluster * 4

/-- The sector of the table is outside the window that is cached. -/
def FatData.misses (f : FatData) (sector : UInt32) : Bool :=
  decide (sector < f.fatCachePosition) || decide (f.fatCachePosition + 5 ≤ sector)

/-- The byte `i` behind the start of `FatCache`. The field `FatCachePosition` follows the 2560 bytes
of the cache without a gap, and a 16-bit load from its last byte reaches into it. -/
def FatData.cacheByte (f : FatData) (i : ℕ) : UInt8 :=
  if h : i < 2560 then f.fatCache ⟨i, h⟩ else byteOf f.fatCachePosition (i - 2560)

/-- The link of a cluster, read out of the bytes at its entry. -/
def decodeLink (fatType : UInt8) (cluster : UInt32) (b : ℕ → UInt8) : UInt32 :=
  if fatType = 12 then
    let word := (le16 (b 0) (b 1)).toUInt32
    let next := if cluster % 2 = 0 then word &&& 0x0FFF else word >>> 4
    if 0xFF8 ≤ next then next ||| 0xFFFFF000 else next
  else if fatType = 16 then
    let next := (le16 (b 0) (b 1)).toUInt32
    if 0xFFF8 ≤ next then next ||| 0xFFFF0000 else next
  else le32 (b 0) (b 1) (b 2) (b 3)

/-- The cached window is moved to a sector of the table, unless it covers that sector. The result of
the read is not looked at. -/
def refill (L : Layer) (sector : UInt32) (s : St) : St :=
  if s.fat.misses sector then
    let r := L.read (L.fatLba (s.fat.reservedSectors + sector)) s.fat.fatCache s
    { r.2 with fat := { s.fat with fatCache := r.1.2, fatCachePosition := sector } }
  else s

/-- `FAT_NextCluster`. -/
def nextCluster (L : Layer) (cluster : UInt32) (s : St) : UInt32 × St :=
  let index := fatIndex s.fat.fatType cluster
  let s := refill L (index / 512) (s.note (.nextCluster s.fat s.clock cluster))
  let offset := (index - s.fat.fatCachePosition * 512).toNat
  (decodeLink s.fat.fatType cluster fun k => s.fat.cacheByte (offset + k), s)

/-- `FAT_ClusterToLba`. -/
def FatData.clusterToLba (f : FatData) (cluster : UInt32) : UInt32 :=
  f.dataSectionLba + (cluster - 2) * f.sectorsPerCluster

/-! ### Initialisation -/

/-- `FAT_Detect`. -/
def detect (s : St) : Except Stop Unit × St :=
  if s.fat.sectorsPerCluster = 0 then (.error .divideByZero, s) else
    let dataClusters := (s.fat.totalSectors - s.fat.dataSectionLba) / s.fat.sectorsPerCluster
    let fatType : UInt8 := if dataClusters < 0xFF5 then 12
      else if BootSector.sectorsPerFat s.fat.bootSector ≠ 0 then 16 else 32
    (.ok (), { s with fat := { s.fat with fatType := fatType } })

/-- The layout of the volume: the start of the data section and of the root directory. -/
def layout (f : FatData) : Except Stop (UInt32 × UInt32) :=
  let b := f.bootSector
  let fatEnd := f.reservedSectors + f.sectorsPerFat * (BootSector.fatCount b).toUInt32
  if BootSector.sectorsPerFat b = 0 then
    .ok (fatEnd, fatEnd + (BootSector.ebr32RootDirectoryCluster b - 2) * f.sectorsPerCluster)
  else
    let rootDirSize := 32 * (BootSector.dirEntryCount b).toUInt32
    let bytesPerSector := (BootSector.bytesPerSector b).toUInt32
    if bytesPerSector = 0 then .error .divideByZero else
      .ok (fatEnd + (rootDirSize + bytesPerSector - 1) / bytesPerSector, fatEnd)

/-- The root directory record as `FAT_Initialize` sets it up. -/
def rootRecord (f : FatData) (rootDirLba : UInt32) : FileData where
  buffer := f.rootDirectory.buffer
  pub := { handle := rootDirectoryHandle, isDirectory := true, position := 0
           size := 32 * (BootSector.dirEntryCount f.bootSector).toUInt32 }
  opened := true
  firstCluster := rootDirLba
  currentCluster := rootDirLba
  currentSectorInCluster := 0

/-- The cache is emptied, and the sizes of the volume and of a table are taken from the boot
sector. -/
def sized (f : FatData) : FatData :=
  let b := f.bootSector
  { f with
    fatCachePosition := 0xFFFFFFFF
    totalSectors := if BootSector.totalSectors b = 0 then BootSector.largeSectorCount b
      else (BootSector.totalSectors b).toUInt32
    sectorsPerFat := if BootSector.sectorsPerFat b = 0 then BootSector.ebr32SectorsPerFat b
      else (BootSector.sectorsPerFat b).toUInt32 }

/-- The part of `FAT_Initialize` that both layers have, with the boot sector in memory. -/
def fatInitializeVolume (L : Layer) (s : St) : Except Stop Bool × St :=
  let f := sized s.fat
  match layout f with
  | .error e => (.error e, { s with fat := f })
  | .ok (dataSectionLba, rootDirLba) =>
    let f := { f with dataSectionLba := dataSectionLba, rootDirectory := rootRecord f rootDirLba }
    let r := L.read (L.sectorLba rootDirLba) f.rootDirectory.buffer { s with fat := f }
    let s := r.2.setFd .root { f.rootDirectory with buffer := r.1.2 }
    if r.1.1 then
      match detect s with
      | (.error e, s) => (.error e, s)
      | (.ok (), s) =>
        (.ok true, { s with fat := { s.fat with
          openedFiles := fun i => { s.fat.openedFiles i with opened := false }
          lfnCount := 0 } })
    else (.ok false, s.note (.printf "FAT: read root directory failed\r\n"))

/-- `FAT_Initialize`: the boot sector is read first. -/
def fatInitialize (L : Layer) (s : St) : Except Stop Bool × St :=
  let r := L.read (L.sectorLba 0) s.fat.bootSector s
  let s := { r.2 with fat := { s.fat with bootSector := r.1.2 } }
  if r.1.1 then fatInitializeVolume L s
  else (.ok false, s.note (.printf "FAT: read boot sector failed\r\n"))

/-! ### Opening an entry -/

/-- The first slot that is not open. -/
def FatData.freeSlot (f : FatData) : Option (Fin 10) :=
  (List.finRange 10).find? fun i => !(f.openedFiles i).opened

/-- The record of an entry, as it is filled in before the first sector is read. -/
def entryRecord (d : FileData) (i : Fin 10) (entry : DirectoryEntry) : FileData :=
  { d with
    pub := { handle := (i : ℕ), isDirectory := entry.attributes &&& attributeDirectory ≠ 0
             position := 0, size := entry.size }
    firstCluster := entry.firstCluster
    currentCluster := entry.firstCluster
    currentSectorInCluster := 0 }

/-- The text that `printf` prints. -/
def textOf (fmt : String) (args : List Stdio.Arg) : String :=
  String.ofList ((Stdio.printed fmt args).map fun c => Char.ofNat c.toNat)

/-- `FAT_OpenEntry`. -/
def openEntry (L : Layer) (entry : DirectoryEntry) (s : St) : Option Loc × St :=
  match s.fat.freeSlot with
  | none => (none, s.note (.printf "FAT: out of file handles\r\n"))
  | some i =>
    let d := entryRecord (s.fat.openedFiles i) i entry
    let lba := s.fat.clusterToLba d.currentCluster
    let r := L.read (L.sectorLba lba) d.buffer (s.setFd (.slot i) d)
    let d := { d with buffer := r.1.2 }
    if r.1.1 then (some (.slot i), r.2.setFd (.slot i) { d with opened := true })
    else
      let text := textOf "FAT: open entry failed - read error cluster=%u lba=%u\n"
        [.int d.currentCluster, .int lba]
      let s := (r.2.setFd (.slot i) d).note (.printf text)
      (none, ((List.ofFn entry.name).foldl (fun s c => s.note (.putc c)) s).note (.printf "\n"))

/-! ### Reading -/

/-- `memcpy` out of a sector buffer. The count is a `uint16_t`. -/
def memcpy {n : ℕ} (src : Bytes n) (off : ℕ) (num : UInt16) : List UInt8 := src.slice off num.toNat

/-- The sector `lba` of the partition is read into the buffer of an open file. -/
def fillBuffer (L : Layer) (loc : Loc) (lba : UInt32) (s : St) : Bool × St :=
  let d := s.fat.fd loc
  let r := L.read (L.sectorLba lba) d.buffer s
  let s := r.2.setFd loc { d with buffer := r.1.2 }
  if r.1.1 then (true, s) else (false, s.note (.printf "FAT: read error\r\n"))

/-- The cursor of an open file moves to the next sector, into the next cluster when the cluster is
used up. -/
def stepCursor (L : Layer) (loc : Loc) (s : St) : St :=
  let d := s.fat.fd loc
  let d := { d with currentSectorInCluster := d.currentSectorInCluster + 1 }
  if s.fat.sectorsPerCluster ≤ d.currentSectorInCluster then
    let d := { d with currentSectorInCluster := 0 }
    let r := nextCluster L d.currentCluster (s.setFd loc d)
    r.2.setFd loc { d with currentCluster := r.1 }
  else s.setFd loc d

/-- What `FAT_Read` does when the buffered sector is used up; the result tells whether its loop goes
on. -/
def lookAhead (L : Layer) (loc : Loc) (s : St) : Bool × St :=
  if (s.fat.fd loc).pub.handle = rootDirectoryHandle then
    let d := s.fat.fd loc
    let d := { d with currentCluster := d.currentCluster + 1 }
    fillBuffer L loc d.currentCluster (s.setFd loc d)
  else
    let s := stepCursor L loc s
    let d := s.fat.fd loc
    if 0xFFFFFFF8 ≤ d.currentCluster then
      (false, s.setFd loc { d with pub := { d.pub with size := d.pub.position } })
    else fillBuffer L loc (s.fat.clusterToLba d.currentCluster + d.currentSectorInCluster) s

/-- Bytes left in the buffered sector at a position. -/
def leftInBuffer (position : UInt32) : UInt32 := 512 - position % 512

/-- How many bytes one round of the loop of `FAT_Read` takes. -/
def takeCount (byteCount position : UInt32) : UInt32 :=
  if byteCount < leftInBuffer position then byteCount else leftInBuffer position

/-- The copy one round of the loop of `FAT_Read` makes out of the buffer, and the position moved
behind it. -/
def copyChunk (loc : Loc) (take : UInt32) (s : St) : List UInt8 × St :=
  let d := s.fat.fd loc
  let off := (d.pub.position % 512).toNat
  (memcpy d.buffer off take.toUInt16,
    (s.note (.copy off take.toUInt16.toNat)).setFd loc
      { d with pub := { d.pub with position := d.pub.position + take } })

/-- What one round of the loop of `FAT_Read` did: how far the output pointer moved, the bytes stored,
and whether the loop goes on. -/
structure Round where
  take : UInt32
  chunk : List UInt8
  goesOn : Bool
  state : St

/-- One round of the loop of `FAT_Read`. -/
def readRound (L : Layer) (loc : Loc) (byteCount : UInt32) (s : St) : Round :=
  let position := (s.fat.fd loc).pub.position
  let take := takeCount byteCount position
  let c := copyChunk loc take s
  let r := if leftInBuffer position = take then lookAhead L loc c.2 else (true, c.2)
  ⟨take, c.1, r.1, r.2⟩

/-- The loop of `FAT_Read`: how far the output pointer moved, and the bytes stored. -/
def readLoop (L : Layer) (loc : Loc) : ℕ → UInt32 → St → Except Stop (UInt32 × List UInt8) × St
  | 0, byteCount, s => (if 0 < byteCount then .error .outOfFuel else .ok (0, []), s)
  | rounds + 1, byteCount, s =>
    if 0 < byteCount then
      let r := readRound L loc byteCount s
      if r.goesOn then
        let t := readLoop L loc rounds (byteCount - r.take) r.state
        (t.1.map fun x => (r.take + x.1, r.chunk ++ x.2), t.2)
      else (.ok (r.take, r.chunk), r.state)
    else (.ok (0, []), s)

/-- The record a `FAT_File*` stands for: its handle names the root directory or a slot. -/
def FatData.deref (f : FatData) : Option Loc → Except Stop Loc
  | none => .error .nullFile
  | some p =>
    let h := (f.fd p).pub.handle
    if h = rootDirectoryHandle then .ok .root
    else if hb : 0 ≤ h ∧ h < 10 then .ok (.slot ⟨h.toNat, by omega⟩)
    else .error .badHandle

/-- The number of bytes `FAT_Read` sets out to deliver. A directory of size 0 has no bound. -/
def cappedCount (p : File) (byteCount : UInt32) : UInt32 :=
  if !p.isDirectory || (p.isDirectory && p.size ≠ 0) then
    if byteCount < p.size - p.position then byteCount else p.size - p.position
  else byteCount

/-- `FAT_Read`: the number of bytes reported, and the bytes stored. -/
def read (L : Layer) (file : Option Loc) (byteCount : UInt32) (s : St) :
    Except Stop (UInt32 × List UInt8) × St :=
  match s.fat.deref file with
  | .error e => (.error e, s)
  | .ok loc =>
    let n := cappedCount (s.fat.fd loc).pub byteCount
    readLoop L loc n.toNat n s

/-- `FAT_ReadEntry`: the entry, when all its bytes were there. -/
def readEntry (L : Layer) (file : Option Loc) (s : St) : Except Stop (Option DirectoryEntry) × St :=
  let r := read L file 32 s
  (r.1.map fun x => if x.1 = 32 then some (Bytes.ofList 32 x.2) else none, r.2)

/-- `FAT_Close`. -/
def close (file : Option Loc) (s : St) : Except Stop Unit × St :=
  match file with
  | none => (.error .nullFile, s)
  | some p =>
    match s.fat.deref (some p) with
    | .error e => (.error e, s)
    | .ok .root =>
      let d := s.fat.fd p
      let s := s.setFd p { d with pub := { d.pub with position := 0 } }
      let d := s.fat.fd .root
      (.ok (), s.setFd .root { d with currentCluster := d.firstCluster })
    | .ok (.slot i) => (.ok (), s.setFd (.slot i) { s.fat.fd (.slot i) with opened := false })

/-! ### Looking up a name -/

/-- `strchr` on the bytes of a string in memory: the offset of the character, if it comes before the
terminator. -/
def strchr (chr : UInt8) : List UInt8 → Option ℕ
  | [] => none
  | c :: str => if c = 0 then none else if c = chr then some 0 else (strchr chr str).map (· + 1)

/-- `islower`. -/
def islower (c : UInt8) : Bool := decide (97 ≤ c) && decide (c ≤ 122)

/-- `toupper`. -/
def toupper (c : UInt8) : UInt8 := if islower c then c - 97 + 65 else c

/-- The characters of a string in memory before its terminator. -/
def cString (str : List UInt8) : List UInt8 := str.takeWhile (· ≠ 0)

/-- `FAT_GetShortName`, on the memory from the name on. The offset 11 stands both for a dot there
and for no dot at all. -/
def getShortName (name : List UInt8) : Bytes 12 :=
  let ext := (strchr 46 name).getD 11
  let blank : Bytes 12 := fun i => if i = 11 then 0 else 32
  let base := cString (name.take (min 8 ext))
  let short := blank.write 0 (base.map toupper)
  if ext ≠ 11 then short.write 8 ((cString ((name.drop (ext + 1)).take 3)).map toupper) else short

/-- The comparison of a short name with the name of an entry, over 11 bytes. -/
def nameMatches (short : Bytes 12) (entry : DirectoryEntry) : Bool :=
  decide (∀ i : Fin 11, short ⟨i, by omega⟩ = entry.name i)

/-- The loop of `FAT_FindFile`. -/
def findLoop (L : Layer) (file : Option Loc) (short : Bytes 12) :
    ℕ → St → Except Stop (Option DirectoryEntry) × St
  | 0, s => (.error .outOfFuel, s)
  | rounds + 1, s =>
    match readEntry L file s with
    | (.error e, s) => (.error e, s)
    | (.ok none, s) => (.ok none, s)
    | (.ok (some entry), s) =>
      if nameMatches short entry then (.ok (some entry), s) else findLoop L file short rounds s

/-- `FAT_FindFile`, on the memory from the name on. -/
def findFile (L : Layer) (fuel : ℕ) (file : Option Loc) (name : List UInt8) (s : St) :
    Except Stop (Option DirectoryEntry) × St :=
  findLoop L file (getShortName name) fuel (s.note (.findFile s.fat file name))

/-! ### Opening a path -/

/-- The local buffer `name` of `FAT_Open`. -/
abbrev NameBuffer := Bytes 256

/-- The state of the loop of `FAT_Open`: what is left of the path, the open file, and the buffer. -/
structure Walk where
  path : List UInt8
  current : Option Loc
  name : NameBuffer

/-- The first component of a path is copied to the buffer; the rest of the path, and whether the
component is the last. The last component is terminated one byte too far. -/
def component (path : List UInt8) (name : NameBuffer) :
    Except Stop (NameBuffer × List UInt8 × Bool) :=
  match strchr 47 path with
  | some k =>
    if k < 256 then .ok ((name.write 0 (path.take k)).write k [0], path.drop (k + 1), false)
    else .error .nameOverflow
  | none =>
    if path.length + 1 < 256 then
      .ok ((name.write 0 path).write (path.length + 1) [0], [], true)
    else .error .nameOverflow

/-- The test that a component found is no directory though it should be. The comparison binds more
tightly than `&`: the mask is the value of `FAT_ATTRIBUTE_DIRECTORY == 0`. -/
def notADirectory (isLast : Bool) (entry : DirectoryEntry) : Bool :=
  !isLast && decide (entry.attributes &&& (if attributeDirectory = 0 then 1 else 0) ≠ 0)

/-- One round of the loop of `FAT_Open`: it goes on, or gives the result. -/
def openStep (L : Layer) (fuel : ℕ) (w : Walk) (s : St) : Except Stop (Walk ⊕ Option Loc) × St :=
  if w.path = [] then (.ok (.inr w.current), s) else
    match component w.path w.name with
    | .error e => (.error e, s)
    | .ok (name, rest, isLast) =>
      match findFile L fuel w.current (List.ofFn name) s with
      | (.error e, s) => (.error e, s)
      | (.ok found, s) =>
        match close w.current s with
        | (.error e, s) => (.error e, s)
        | (.ok (), s) =>
          match found with
          | some entry =>
            if notADirectory isLast entry then
              (.ok (.inr none),
                s.note (.printf (textOf "FAT: %s not a directory\r\n" [.string (cString (List.ofFn name))])))
            else
              let r := openEntry L entry s
              (.ok (.inl ⟨rest, r.1, name⟩), r.2)
          | none =>
            (.ok (.inr none),
              s.note (.printf (textOf "FAT: %s not found\r\n" [.string (cString (List.ofFn name))])))

/-- The loop of `FAT_Open`. -/
def openLoop (L : Layer) (fuel : ℕ) : ℕ → Walk → St → Except Stop (Option Loc) × St
  | 0, _, s => (.error .outOfFuel, s)
  | rounds + 1, w, s =>
    match openStep L fuel w s with
    | (.error e, s) => (.error e, s)
    | (.ok (.inr file), s) => (.ok file, s)
    | (.ok (.inl w), s) => openLoop L fuel rounds w s

/-- The path behind a leading `/`. -/
def stripSlash (path : List UInt8) : List UInt8 := if path.head? = some 47 then path.tail else path

/-- `FAT_Open`, on the characters of the path before its terminator and what the stack holds where
the local buffer lies. Every round of the loop uses up a character of the path. -/
def openPath (L : Layer) (fuel : ℕ) (path : List UInt8) (name : NameBuffer) (s : St) :
    Except Stop (Option Loc) × St :=
  openLoop L fuel (path.length + 1) ⟨stripSlash path, some .root, name⟩ s

/-! ### Showing a directory or a file -/

/-- The loop of `FAT_ReadDirectory`, with the number of entries it may still print. -/
def listLoop (L : Layer) (file : Option Loc) : ℕ → St → Except Stop Unit × St
  | left, s =>
    match readEntry L file s with
    | (.error e, s) => (.error e, s)
    | (.ok none, s) => (.ok (), s)
    | (.ok (some entry), s) =>
      match left with
      | 0 => (.ok (), s)
      | left + 1 =>
        let s := (List.ofFn entry.name).foldl (fun s c => s.note (.putc c)) (s.note (.printf "  "))
        listLoop L file left (s.note (.printf "\r\n"))

/-- `FAT_ReadDirectory`. The result of `FAT_Open` is not looked at. -/
def readDirectory (L : Layer) (fuel : ℕ) (path : List UInt8) (name : NameBuffer) (s : St) :
    Except Stop Unit × St :=
  match openPath L fuel path name s with
  | (.error e, s) => (.error e, s)
  | (.ok file, s) =>
    match listLoop L file 7 (s.note (.printf "\n")) with
    | (.error e, s) => (.error e, s)
    | (.ok (), s) => close file s

/-- The characters of a chunk are printed, with a carriage return before every newline. -/
def printChunk (bytes : List UInt8) (s : St) : St :=
  bytes.foldl (fun s c => (if c = 10 then s.note (.putc 13) else s).note (.putc c)) s

/-- The loop of `FAT_ReadFile`. -/
def dumpLoop (L : Layer) (file : Option Loc) : ℕ → St → Except Stop Unit × St
  | 0, s => (.error .outOfFuel, s)
  | rounds + 1, s =>
    match read L file 100 s with
    | (.error e, s) => (.error e, s)
    | (.ok (count, bytes), s) =>
      if count = 0 then (.ok (), s) else dumpLoop L file rounds (printChunk bytes s)

/-- `FAT_ReadFile`. The result of `FAT_Open` is not looked at. -/
def readFile (L : Layer) (fuel : ℕ) (path : List UInt8) (name : NameBuffer) (s : St) :
    Except Stop Unit × St :=
  match openPath L fuel path name s with
  | (.error e, s) => (.error e, s)
  | (.ok file, s) =>
    match dumpLoop L file fuel s with
    | (.error e, s) => (.error e, s)
    | (.ok (), s) => close file (s.note (.printf "\n"))

end ArcOS.Fat
