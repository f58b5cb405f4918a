import ArcOS.Lib.Bytes
import ArcOS.Lib.Transducer
import ArcOS.Fat.Image
import ArcOS.Fat.Stable
import ArcOS.Fat.ReadBounds
import ArcOS.Fat.Walk
import ArcOS.Fat.Accounting
import ArcOS.Fat.Cache
import ArcOS.Fat.NullFile
import ArcOS.Fat.Content
import ArcOS.Fat.Files
import ArcOS.Fat.TwoRun
import ArcOS.Fat.History
import ArcOS.Fat.Agreement
import ArcOS.Fat.Inside
import ArcOS.Elf.Header
import ArcOS.Kernel.CatPath
import ArcOS.Stdio.Page
import ArcOS.Stdio.Echo
import ArcOS.Stdio.Printf
import ArcOS.Disk.Ata
import ArcOS.Disk.Mbr
import ArcOS.Kernel.Irq
import ArcOS.Fat.Fat12
import ArcOS.Fat.Components
import ArcOS.Fat.Descend
import ArcOS.Lib.Search
import ArcOS.Fat.Directory
import ArcOS.Fat.Chains
import ArcOS.Fat.FindFile
import ArcOS.Fat.FirstMatch
import ArcOS.Fat.Fat32
import ArcOS.Kernel.ShortName
import ArcOS.Fat.Layout
import ArcOS.Elf.Requests
import ArcOS.Elf.Release
import ArcOS.Kernel.Commands
import ArcOS.Kernel.Editor
import ArcOS.Stdio.Tab
import ArcOS.Stdio.Numeral
import ArcOS.Boot.MemoryMap
import ArcOS.Boot.Stubs
import ArcOS.Boot.Chs
import ArcOS.Disk.Geometry
import ArcOS.Util.Quicksort
import ArcOS.Util.Text
import ArcOS.Boot.Vbe
import ArcOS.Lib.Ia32
import ArcOS.Lib.Interleave
import ArcOS.Kernel.Isr
import ArcOS.Kernel.Descriptors
import ArcOS.Kernel.Hal
import ArcOS.Fat.Show
import ArcOS.Boot.Stage1
import ArcOS.Lib.Poll
import ArcOS.Boot.A20
import ArcOS.Kernel.Cli
import ArcOS.Fat.RootHandle
import ArcOS.Fat.Listing
import ArcOS.Fat.Resolve
import ArcOS.Boot.Splash
import ArcOS.Util.Strings
import ArcOS.Elf.Loads
import ArcOS.Boot.Main
