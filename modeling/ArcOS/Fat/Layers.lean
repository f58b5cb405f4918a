import ArcOS.Fat.Ops

/-!
The two FAT layers under the names of their sources, and the calls either takes.
-/

namespace ArcOS

open Fat

/-! ### `libs/boot/fat.c` -/

namespace Boot

variable (dev : Device) (part : Partition) (fuel : ℕ)

abbrev fatInitialize := Fat.fatInitialize (bootLayer dev part)
abbrev fatOpenEntry := openEntry (bootLayer dev part)
abbrev fatNextCluster := nextCluster (bootLayer dev part)
abbrev fatRead := read (bootLayer dev part)
abbrev fatReadEntry := readEntry (bootLayer dev part)
abbrev fatFindFile := findFile (bootLayer dev part) fuel
abbrev fatOpen := openPath (bootLayer dev part) fuel
abbrev fatReadDirectory := readDirectory (bootLayer dev part) fuel
abbrev fatReadFile := readFile (bootLayer dev part) fuel

end Boot

/-! ### `libs/core/fat.c` -/

namespace Kernel

variable (dev : Device) (part : Partition) (fuel : ℕ)

/-- `Kernel_FAT_Initialize` finds the boot sector where the bootloader left it. -/
abbrev fatInitialize := fatInitializeVolume (kernelLayer dev part)
abbrev fatOpenEntry := openEntry (kernelLayer dev part)
abbrev fatNextCluster := nextCluster (kernelLayer dev part)
abbrev fatRead := read (kernelLayer dev part)
abbrev fatReadEntry := readEntry (kernelLayer dev part)
abbrev fatFindFile := findFile (kernelLayer dev part) fuel
abbrev fatOpen := openPath (kernelLayer dev part) fuel
abbrev fatReadDirectory := readDirectory (kernelLayer dev part) fuel
abbrev fatReadFile := readFile (kernelLayer dev part) fuel

end Kernel

namespace Fat

/-! ### Calls -/

/-- A call of a FAT layer. The name of a file is given by the memory it lies in; a path comes with
what the stack holds where `FAT_Open` puts its buffer. -/
inductive Call where
  | openEntry (entry : DirectoryEntry)
  | nextCluster (cluster : UInt32)
  | read (file : Option Loc) (byteCount : UInt32)
  | readEntry (file : Option Loc)
  | close (file : Option Loc)
  | findFile (file : Option Loc) (name : List UInt8)
  | openPath (path : List UInt8) (name : NameBuffer)
  | readDirectory (path : List UInt8) (name : NameBuffer)
  | readFile (path : List UInt8) (name : NameBuffer)

/-- What a call returns, the bytes it stores included. -/
inductive Answer where
  | file (file : Option Loc)
  | link (cluster : UInt32)
  | bytes (count : UInt32) (stored : List UInt8)
  | entry (entry : Option DirectoryEntry)
  | nothing

/-- A call of a layer. -/
def call (L : Layer) (fuel : ℕ) : Call → St → Except Stop Answer × St
  | .openEntry entry, s => let r := openEntry L entry s; (.ok (.file r.1), r.2)
  | .nextCluster cluster, s => let r := nextCluster L cluster s; (.ok (.link r.1), r.2)
  | .read file n, s => let r := read L file n s; (r.1.map fun x => .bytes x.1 x.2, r.2)
  | .readEntry file, s => let r := readEntry L file s; (r.1.map .entry, r.2)
  | .close file, s => let r := close file s; (r.1.map fun _ => .nothing, r.2)
  | .findFile file name, s => let r := findFile L fuel file name s; (r.1.map .entry, r.2)
  | .openPath path name, s => let r := openPath L fuel path name s; (r.1.map .file, r.2)
  | .readDirectory path name, s =>
    let r := readDirectory L fuel path name s; (r.1.map fun _ => .nothing, r.2)
  | .readFile path name, s => let r := readFile L fuel path name s; (r.1.map fun _ => .nothing, r.2)

/-- The states a layer can be in: after a successful initialisation, and after any call from there,
whatever its outcome. -/
inductive Reachable (L : Layer) : St → Prop where
  | init {s s' : St} : fatInitialize L s = (.ok true, s') → Reachable L s'
  | initVolume {s s' : St} : fatInitializeVolume L s = (.ok true, s') → Reachable L s'
  | call {s : St} (fuel : ℕ) (c : Call) : Reachable L s → Reachable L (call L fuel c s).2

end Fat
end ArcOS
