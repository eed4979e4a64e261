import Anarch.ApiTypes
import Anarch.IntervalCover
import Anarch.LongestRun
import Anarch.TransitionRun
import Anarch.FreeList
import Anarch.FreeListCover
import Anarch.FreeListCalls
import Anarch.FreeListRun
import Anarch.FreeListFit
import Anarch.UserCopy
import Anarch.Malloc
import Anarch.AllocatorTrace
import Anarch.AllocatorMapping
import Anarch.AllocatorPages
import Anarch.AllocatorAttempts
import Anarch.SingleRangeMap
import Anarch.AllocatorFailure
import Anarch.AllocatorInverse
import Anarch.TlbShootdown
import Anarch.TlbShootdownCalls
import Anarch.TlbShootdownTraffic
import Anarch.TlbShootdownComplete
import Anarch.RadixTree
import Anarch.RadixTables
import Anarch.RadixCollect
import Anarch.PageTable
import Anarch.PageTableAccess
import Anarch.PageTableTree
import Anarch.PageTablePaths
import Anarch.PageTableCalls
import Anarch.PageTableView
import Anarch.PageTableMap
import Anarch.PageTableMapRun
import Anarch.PageTableOwnership
import Anarch.PageTableOwned
import Anarch.PageTableFree
import Anarch.UserMap
import Anarch.PageTableOwnershipRun
import Anarch.PageTablePages
import Anarch.PageTableUnset
import Anarch.UserMapKernel
import Anarch.FreeFinder
import Anarch.GlobalMap
import Anarch.PageTableBooked
import Anarch.FreeFinderScan
import Anarch.FreeFinderIntervals
import Anarch.FreeFinderEnd
import Anarch.FreeFinderHoles
import Anarch.FreeFinderRegion
import Anarch.GlobalMapBooking
import Anarch.PageTableFractal
import Anarch.PageTableLoaded
import Anarch.KernelHeap
import Anarch.UserMapHeap
import Anarch.PageTableSpaces
import Anarch.MapSetup
import Anarch.AddressSpaces
import Anarch.PageTableSlots
import Anarch.PageTableFrames
import Anarch.PageTableRead
import Anarch.GlobalMapExact
import Anarch.UserMapReserve
import Anarch.CpuMailbox
import Anarch.CpuMailboxRun
import Anarch.SyscallBarrier
import Anarch.LapicTimer
import Anarch.DomainList
import Anarch.TextConsole
import Anarch.TlbInvalidate
import Anarch.ByteMemory
import Anarch.MultibootRegions
import Anarch.ApicTable
import Anarch.CpuCapacity
import Anarch.GlobalMapCalls
import Anarch.GlobalMapRead
import Anarch.PageTableAligned
import Anarch.GlobalMapAligned
import Anarch.KernelRequests
import Anarch.AcpiRoot
import Anarch.MallocTeardown
import Anarch.MapSetupIdentity
import Anarch.MultibootReads
import Anarch.ApicTableReads
import Anarch.ApicTableEntries
import Anarch.StepAllocator
import Anarch.StepAllocatorFit
import Anarch.StepAllocatorLast
import Anarch.Stream
import Anarch.TssDescriptor
import Anarch.IOApic
import Anarch.Pit
import Anarch.TextConsoleSplit
import Anarch.TextConsoleWindow
import Anarch.UserMapFlush
import Anarch.AllocatorContiguous
import Anarch.EasyMap
import Anarch.ReserveSpan
import Anarch.ByteStore
import Anarch.Machine
import Anarch.IdtTable
import Anarch.InterruptEntry
import Anarch.InterruptDispatch
import Anarch.SyscallEntry
import Anarch.StateSwitch
import Anarch.SegmentSwitch
import Anarch.TlbCoherence
import Anarch.BuddyAllocatorRun
import Anarch.LapicDrivers
import Anarch.Panic
import Anarch.AddressSpaceIsolation
import Anarch.Gdt
import Anarch.StartupCode
import Anarch.GlobalMapPages
import Anarch.GlobalMapOrderly
import Anarch.GlobalMapContract
