import ZkCppClient.Lib.Run
import ZkCppClient.Ops.DeleteRecursive
import ZkCppClient.Ops.DeleteAsync
import ZkCppClient.Registry.Create
import ZkCppClient.Session.Machine
import ZkCppClient.Session.OpenHandles
import ZkCppClient.Session.CurrentHandle
import ZkCppClient.Session.Reconnect
import ZkCppClient.Session.LocalExpiry
import ZkCppClient.Watch.Machine
import ZkCppClient.Watch.Permanent
import ZkCppClient.Watch.Recreated
import ZkCppClient.Watch.Storing
import ZkCppClient.Watch.Ordered
import ZkCppClient.Watch.Deletions
import ZkCppClient.Watch.Once
import ZkCppClient.Watch.Changes
import ZkCppClient.Watch.LastWord
import ZkCppClient.Watch.CurrentHandler
import ZkCppClient.Lib.Heap
import ZkCppClient.Lib.Mutex
import ZkCppClient.Lib.NameTree
import ZkCppClient.Lib.SlashPath
import ZkCppClient.Lifetime.Ended
import ZkCppClient.Ops.CreateAgree
import ZkCppClient.Ops.DeleteAgree
import ZkCppClient.Ops.ReadAgree
import ZkCppClient.Ops.SessionLoss
import ZkCppClient.Registry.Destroy
import ZkCppClient.Session.Stranded
import ZkCppClient.Lib.CString
import ZkCppClient.Lifetime.Rejected
import ZkCppClient.Ops.CompareAndDelete
import ZkCppClient.Registry.FailedInit
import ZkCppClient.Session.Credentials
import ZkCppClient.Session.Retrying
import ZkCppClient.Session.Supervision
import ZkCppClient.Session.Tasks
import ZkCppClient.Session.WatcherContext
import ZkCppClient.Threads.Functors
import ZkCppClient.Threads.Startup
import ZkCppClient.Ops.CreateChain
import ZkCppClient.Ops.CreateDirs
import ZkCppClient.Ops.DeleteSubtree
import ZkCppClient.Ops.ReturnedPath
import ZkCppClient.Ops.StoredValue
import ZkCppClient.Session.Atomic
import ZkCppClient.Session.ClientId
import ZkCppClient.Session.ExpiryHandler
import ZkCppClient.Session.OutageClock
import ZkCppClient.Session.Recovered
import ZkCppClient.Lib.Checked
import ZkCppClient.Lib.OrdSet
import ZkCppClient.Ops.CreateEnds
import ZkCppClient.Session.BackOff
import ZkCppClient.Timers.Armed
import ZkCppClient.Timers.Due
import ZkCppClient.Watch.Cache
import ZkCppClient.Lib.Find
import ZkCppClient.Lib.Ranked
import ZkCppClient.Recipes.LockWaiting
import ZkCppClient.Recipes.SharedOrder
import ZkCppClient.Recipes.SharedWaiting
import ZkCppClient.Recipes.SharedModes
import ZkCppClient.Recipes.ElectionVacancy
import ZkCppClient.Recipes.BarrierWaiting
import ZkCppClient.Recipes.CompareAndSet
import ZkCppClient.Recipes.WatchFeed
import ZkCppClient.Logging.Machine
import ZkCppClient.Logging.Buffers
import ZkCppClient.Logging.Lines
import ZkCppClient.Recipes.SharedForgotten
