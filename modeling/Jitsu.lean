import Jitsu.ReverseEtl.Capacity
import Jitsu.ConfigKeeper.Safety
import Jitsu.ConfigKeeper.Encoding
import Jitsu.Bulker.BatchSafety
import Jitsu.Bulker.HandOff
import Jitsu.Bulker.TopicNames
import Jitsu.Leases.SidecarSafety
import Jitsu.Leases.Runner
import Jitsu.SyncTasks.RefreshSafety
import Jitsu.Warehouse.Stream
import Jitsu.Warehouse.Widening
import Jitsu.Warehouse.DedupSafety
import Jitsu.Warehouse.IdentifierSafety
import Jitsu.WarehouseQuery.Resume
import Jitsu.Failover.LoggerSafety
import Jitsu.Rotor.Stages
import Jitsu.Rotor.PriorityConsumer
import Jitsu.Rotor.WorkerPoolSafety
import Jitsu.ReadSideCar.GlobalState
import Jitsu.ReadSideCar.Status
import Jitsu.Ingest.Secret
import Jitsu.Ingest.Deduplication
import Jitsu.Destination.BulkerUrl
import Jitsu.Destination.SqlHints
import Jitsu.Destination.ClassicRoundTrip
import Jitsu.Destination.SnakeCase
import Jitsu.Functions.Store
import Jitsu.Functions.PrivateIp
import Jitsu.Console.RateLimitCounters
import Jitsu.Juava.SqlPlaceholders
import Jitsu.Browser.Storage
import Jitsu.Reprocessing.Jobs
import Jitsu.JsonOrder.OrderedMap
