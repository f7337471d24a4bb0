import NuvioEngine.Scheduler.DemandPlan
import NuvioEngine.Stream.StreamBody
import NuvioEngine.Api.OutputStruct
import NuvioEngine.Apple.Actor
import NuvioEngine.Bridge.Consistency
import NuvioEngine.Bridge.EffectivePriority
import NuvioEngine.Bridge.Attendance
import NuvioEngine.Bridge.Cancellation
import NuvioEngine.Bridge.SystemCore
import NuvioEngine.Backend.Warm
import NuvioEngine.Backend.Requests
import NuvioEngine.Core.Losses
import NuvioEngine.Cache.LruRefinement
import NuvioEngine.Bridge.Failure
import NuvioEngine.Backend.Exceptions
import NuvioEngine.Backend.Prepares
import NuvioEngine.Backend.Removals
import NuvioEngine.Backend.ResumeFiles
import NuvioEngine.Backend.Ownership
import NuvioEngine.Bridge.Drain
import NuvioEngine.DiskCache.Measurement
import NuvioEngine.Http.RequestHead
import NuvioEngine.Http.Response
import NuvioEngine.Http.Receive
import NuvioEngine.Http.Connection
import NuvioEngine.Http.Server
import NuvioEngine.Http.Stopping
import NuvioEngine.Jvm.PendingCommands
import NuvioEngine.Storage.AtomicFile
import NuvioEngine.Stream.Progress
import NuvioEngine.Stream.ServeProgress
import NuvioEngine.Stream.Handler
import NuvioEngine.Bridge.Leases
import NuvioEngine.Bridge.Ranges
import NuvioEngine.Bridge.Ordering
import NuvioEngine.Bridge.Segmentation
import NuvioEngine.Bridge.Publication
import NuvioEngine.Bridge.Idempotence
import NuvioEngine.Torrent.FileSelection
import NuvioEngine.Service.Delivery
import NuvioEngine.Service.Waits
