import Vminer.Core
import Vminer.Search
import Vminer.Mem
import Vminer.Mmu
import Vminer.KernelSearch
import Vminer.KernelIterator
import Vminer.VirtualRead
import Vminer.Arch
import Vminer.Dump
import Vminer.Packing
import Vminer.PackedMemory
import Vminer.Snapshot
import Vminer.DumpFormat
import Vminer.DumpTable
import Vminer.Os
import Vminer.Windows
import Vminer.WindowsMemory
import Vminer.Unwind
import Vminer.TryRead
import Vminer.MemSearch
import Vminer.Symbols
import Vminer.SymbolsFile
import Vminer.IntervalSearch
import Vminer.WindowsTree
import Vminer.LinkWalk
import Vminer.Linux
import Vminer.ModuleSearch
import Vminer.LinuxModules
import Vminer.WindowsModules
import Vminer.ModuleLookup
import Vminer.OnceMap
import Vminer.WindowsSymbols
import Vminer.RuntimeBackend
import Vminer.Rounds
import Vminer.ReadTermination
import Vminer.WalkTermination
import Vminer.UnwindParents
import Vminer.CallstackFrames
import Vminer.LinuxCallstack
import Vminer.WindowsCallstack
import Vminer.RemappedRead
import Vminer.WindowsFrames
import Vminer.LinuxFrames
import Vminer.StackWalks
import Vminer.LinuxAttribution
import Vminer.FunctionTable
import Vminer.LinuxPaths
import Vminer.SymbolGrammar
import Vminer.CodeviewSearch
import Vminer.Paths
import Vminer.SymbolPaths
import Vminer.X86
import Vminer.Epilogs
import Vminer.Prologs
import Vminer.UnwindRanges
import Vminer.UnwindTermination
import Vminer.TransitionPages
import Vminer.KernelPgd
import Vminer.CurrentThread
import Vminer.SymbolTypes
import Vminer.Dwarf
import Vminer.DwarfResolution
import Vminer.DwarfFlattening
import Vminer.SymbolLocations
import Vminer.VadTraversal
import Vminer.Pdb
import Vminer.CString
import Vminer.RegisterNames
import Vminer.FieldSizes
import Vminer.ArrayCounts
import Vminer.PrologMachine
import Vminer.UnwindInfo
import Vminer.PrologParts
import Vminer.PrologUndoing
import Vminer.ListWalks
import Vminer.UnwindDecoding
import Vminer.DwarfCells
import Vminer.DwarfCalls
import Vminer.DwarfTermination
import Vminer.Transfer
import Vminer.KvmPatch
import Vminer.KvmVcpus
import Vminer.Session
import Vminer.ProcMaps
import Vminer.Tracee
import Vminer.RemoteAttach
import Vminer.BackendDefaults
import Vminer.Kvm
import Vminer.LiveDump
import Vminer.CArray
import Vminer.CErrors
import Vminer.OsBuilder
import Vminer.Processes
import Vminer.RunningProcess
import Vminer.RelocatedReads
import Vminer.PythonOs
