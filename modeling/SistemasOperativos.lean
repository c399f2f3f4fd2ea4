import SistemasOperativos.Library.Exits
import SistemasOperativos.Library.Chain
import SistemasOperativos.Library.RefCount
import SistemasOperativos.Library.Runs
import SistemasOperativos.Library.PageTables
import SistemasOperativos.Library.Ring
import SistemasOperativos.Library.RoundRobin
import SistemasOperativos.Kern.UserMem
import SistemasOperativos.Kern.TrapRules
import SistemasOperativos.Kern.EnvInv
import SistemasOperativos.Kern.KernelMem
import SistemasOperativos.Kern.CallMem
import SistemasOperativos.Kern.TrapMem
import SistemasOperativos.Kern.BootInv
import SistemasOperativos.Kern.KernelRuns
import SistemasOperativos.Kern.Mappings
import SistemasOperativos.Kern.PageBooks
import SistemasOperativos.Kern.PageMaps
import SistemasOperativos.Kern.Processors
import SistemasOperativos.Kern.Survival
import SistemasOperativos.Kern.Errors
import SistemasOperativos.Kern.Outcomes
import SistemasOperativos.Kern.BootRules
import SistemasOperativos.Kern.Ipc
import SistemasOperativos.Kern.Receivers
import SistemasOperativos.Kern.Transfers
import SistemasOperativos.Kern.Isolation
import SistemasOperativos.Kern.Frames
import SistemasOperativos.Kern.Incarnations
import SistemasOperativos.Kern.Names
import SistemasOperativos.Kern.Scheduling
import SistemasOperativos.Lib.Pipe
import SistemasOperativos.Lib.Ipc
import SistemasOperativos.Lib.Fsipc
import SistemasOperativos.Lib.ForkRuns
import SistemasOperativos.Shell.Pipelines
import SistemasOperativos.Shell.Status
import SistemasOperativos.Library.Processes
import SistemasOperativos.Shell.Exec
import SistemasOperativos.Shell.Redirections
import SistemasOperativos.Shell.Expansion
import SistemasOperativos.Lib.Upcall
import SistemasOperativos.Lib.Spawn
import SistemasOperativos.Lib.Dup
import SistemasOperativos.Library.X86
import SistemasOperativos.Kern.UserImage
import SistemasOperativos.Fs.Cache
import SistemasOperativos.Fs.Files
import SistemasOperativos.Fs.Layout
import SistemasOperativos.Fs.Blocks
import SistemasOperativos.Fs.Wellformed
import SistemasOperativos.Fs.Lookup
import SistemasOperativos.Fs.Changes
import SistemasOperativos.Kern.Release
import SistemasOperativos.Kern.MemCheck
import SistemasOperativos.Kern.MemInit
import SistemasOperativos.Kern.BootMap
import SistemasOperativos.Fs.Growth
import SistemasOperativos.Fs.Resolve
import SistemasOperativos.Fs.Truncation
import SistemasOperativos.Fs.Ranges
import SistemasOperativos.Fs.Transfer
import SistemasOperativos.Fs.Memory
import SistemasOperativos.Fs.ReadBack
import SistemasOperativos.Fs.Sizing
import SistemasOperativos.Fs.Full
import SistemasOperativos.Fs.Create
import SistemasOperativos.Fs.Serve
import SistemasOperativos.Fs.Buffers
import SistemasOperativos.Fs.OpenTable
import SistemasOperativos.Fs.OpenRuns
import SistemasOperativos.Library.Strings
import SistemasOperativos.TPFork.Xargs
import SistemasOperativos.User.Pipes
import SistemasOperativos.Shell.Designators
import SistemasOperativos.Shell.Editor
import SistemasOperativos.Shell.Background
import SistemasOperativos.Fs.Allocation
import SistemasOperativos.TPFork.PrimesRuns
import SistemasOperativos.Fs.Creation
import SistemasOperativos.Fs.FileRuns
import SistemasOperativos.Fs.DirRuns
import SistemasOperativos.Fs.Numbers
import SistemasOperativos.Kern.KernelLock
import SistemasOperativos.Kern.Kdebug
import SistemasOperativos.Fs.Durability
import SistemasOperativos.Fs.FileStore
