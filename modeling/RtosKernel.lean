import RtosKernel.Math.IntrusiveChain
import RtosKernel.Math.ThreadedLines
import RtosKernel.Math.Loop
import RtosKernel.Math.Refinement
import RtosKernel.Math.Placement
import RtosKernel.Math.BubbleSort
import RtosKernel.Math.UtilizationBound
import RtosKernel.Math.AccessHistory
import RtosKernel.Math.CarryCounter
import RtosKernel.Math.HighestBit
import RtosKernel.Math.CopyLoop
import RtosKernel.Math.LineEditor
import RtosKernel.Math.Rounds
import RtosKernel.Math.StringMemory
import RtosKernel.Math.Digits
import RtosKernel.Math.LineBuffer
import RtosKernel.Kernel.RunQueue
import RtosKernel.Kernel.State
import RtosKernel.Kernel.Mutex
import RtosKernel.Kernel.Device
import RtosKernel.Kernel.TaskCreate
import RtosKernel.Kernel.TaskPointer
import RtosKernel.Kernel.System
import RtosKernel.Kernel.Execute
import RtosKernel.Kernel.Clock
import RtosKernel.Kernel.Entry
import RtosKernel.Kernel.Memory
import RtosKernel.Kernel.Io
import RtosKernel.Scheduling.NewSet
import RtosKernel.Scheduling.Discipline
import RtosKernel.Scheduling.Dispatch
import RtosKernel.Scheduling.FixedPriority
import RtosKernel.Scheduling.Boot
import RtosKernel.Scheduling.Runs
import RtosKernel.Scheduling.Returns
import RtosKernel.Scheduling.PriorityMap
import RtosKernel.Scheduling.Reachable
import RtosKernel.Scheduling.NullTask
import RtosKernel.Queues.Places
import RtosKernel.Queues.Moves
import RtosKernel.Queues.Blocking
import RtosKernel.Queues.Waking
import RtosKernel.Queues.Simulation
import RtosKernel.Queues.OnePlace
import RtosKernel.Queues.Wakeup
import RtosKernel.Queues.Acyclic
import RtosKernel.Queues.Fifo
import RtosKernel.Mutexes.Holding
import RtosKernel.Mutexes.Exclusion
import RtosKernel.Mutexes.HighestLocker
import RtosKernel.Mutexes.ReturnCodes
import RtosKernel.Mutexes.Ceiling
import RtosKernel.TaskSets.Clean
import RtosKernel.TaskSets.History
import RtosKernel.TaskSets.Alike
import RtosKernel.TaskSets.Isolation
import RtosKernel.TaskSets.Independence
import RtosKernel.TaskSets.Schedule
import RtosKernel.TaskSets.Installation
import RtosKernel.TaskSets.Admission
import RtosKernel.TaskSets.Refusal
import RtosKernel.TaskSets.Touched
import RtosKernel.TaskSets.TaskPointer
import RtosKernel.Clock.Signals
import RtosKernel.Clock.EventRate
import RtosKernel.Clock.MatchAhead
import RtosKernel.Clock.Counters
import RtosKernel.Clock.Sleep
import RtosKernel.Processor.Exceptions
import RtosKernel.Processor.Outline
import RtosKernel.Processor.Returns
import RtosKernel.Processor.BlockTransfer
import RtosKernel.Processor.ContextSwitch
import RtosKernel.Scheduling.SavedContexts
import RtosKernel.Calls.Failure
import RtosKernel.Calls.Accesses
import RtosKernel.Calls.Bounds
import RtosKernel.Io.Bounds
import RtosKernel.Io.LineEditing
import RtosKernel.Routines.Ilog2
import RtosKernel.Routines.Memmove
import RtosKernel.Libc.Strings
import RtosKernel.Libc.Numbers
import RtosKernel.Libc.Doprnt
import RtosKernel.Libc.Doscan
import RtosKernel.Libc.Stdio
import RtosKernel.Strings.Scan
import RtosKernel.Strings.Copies
import RtosKernel.Strings.Order
import RtosKernel.Strings.Search
import RtosKernel.Formats.Parsing
import RtosKernel.Clock.BoundedWait
import RtosKernel.Libc.Rand
import RtosKernel.Routines.Rand
import RtosKernel.Formats.Directive
import RtosKernel.Formats.Printing
import RtosKernel.Formats.Texts
import RtosKernel.Formats.Buffers
import RtosKernel.Formats.ReadBack
import RtosKernel.Formats.Scanning
import RtosKernel.Formats.Console
import RtosKernel.Processor.Banks
import RtosKernel.Processor.Nesting
import RtosKernel.Processor.Interrupts
import RtosKernel.Processor.Traps
import RtosKernel.Scheduling.FirstDispatch
import RtosKernel.Processor.SwitchBanks
import RtosKernel.Processor.Launch
import RtosKernel.Processor.Vectors
