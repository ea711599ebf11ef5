import PhpFastProfile.Output.Agreement
import PhpFastProfile.Symbols
import PhpFastProfile.Zend.FieldReader
import PhpFastProfile.Target.Reference
import PhpFastProfile.Lib.Channel
import PhpFastProfile.Lib.Run
import PhpFastProfile.Sampler
import PhpFastProfile.Sampler.RunMulti
import PhpFastProfile.Sampler.Delivery
import PhpFastProfile.Lib.Ptrace
import PhpFastProfile.Tls.AttachedTask
import PhpFastProfile.Output.PyroscopeSink
import PhpFastProfile.Sampler.Annotation
import PhpFastProfile.Sampler.WorkerTable
import PhpFastProfile.Sampler.Rediscovery
import PhpFastProfile.Lib.Pacing
import PhpFastProfile.Sampler.Pacing
import PhpFastProfile.Sampler.Accounting
import PhpFastProfile.Symbols.VersionScan
import PhpFastProfile.Discover
import PhpFastProfile.Cli
import PhpFastProfile.Cli.ThisContainer
import PhpFastProfile.Tls
import PhpFastProfile.Tls.TaskOrder
import PhpFastProfile.Target.Overflow
import PhpFastProfile.Lib.Sorted
import PhpFastProfile.Sampler.DropLeaf
import PhpFastProfile.Output.Folded
import PhpFastProfile.Output.FoldedReadBack
import PhpFastProfile.Lib.A64
import PhpFastProfile.Target.PhpVersion
import PhpFastProfile.Lib.A64Mov
import PhpFastProfile.Tls.TcbOffset
import PhpFastProfile.Symbols.Resolve
import PhpFastProfile.Symbols.Imports
import PhpFastProfile.Target.Attach
import PhpFastProfile.Target.StackWalk
import PhpFastProfile.HashTable.Encoding
import PhpFastProfile.Target.ServerScan
import PhpFastProfile.Lib.Terminated
import PhpFastProfile.Output.Stacks
import PhpFastProfile.Lib.TopBy
import PhpFastProfile.Tui.TopRows
import PhpFastProfile.Lib.Fields
import PhpFastProfile.Proc
import PhpFastProfile.Output.FailedTake
import PhpFastProfile.Discover.OwnProcess
import PhpFastProfile.Lib.X64
import PhpFastProfile.Target.X86Accessors
import PhpFastProfile.Target.CallStack
import PhpFastProfile.Sampler.Session
import PhpFastProfile.Tui.LiveTable
import PhpFastProfile.Tui.LiveProfile
import PhpFastProfile.Sampler.Interleaving
import PhpFastProfile.Target.RunningPhp
import PhpFastProfile.Cli.Selection
import PhpFastProfile.Sampler.SinkCalls
import PhpFastProfile.Target.RequestInfo
import PhpFastProfile.Lib.Batches
import PhpFastProfile.Output.PushConfig
import PhpFastProfile.Output.PushPacing
import PhpFastProfile.Cli.Overrides
import PhpFastProfile.Sampler.RunningProfile
import PhpFastProfile.Lib.Measure
import PhpFastProfile.Sampler.Teardown
import PhpFastProfile.Sampler.SingleEnd
import PhpFastProfile.Tui.LiveEnd
import PhpFastProfile.Sampler.RequestLog
