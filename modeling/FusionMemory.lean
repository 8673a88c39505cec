import FusionMemory.Lib.Pool
import FusionMemory.Lib.Program
import FusionMemory.Lib.Table
import FusionMemory.Core.Memory
import FusionMemory.Persist.Store
import FusionMemory.Store.Local
import FusionMemory.Store.History
import FusionMemory.Store.Search
import FusionMemory.Core.Codec
import FusionMemory.Engine.Environment
import FusionMemory.Engine.Scoring
import FusionMemory.Engine.Commit
import FusionMemory.Engine.Consolidate
import FusionMemory.Engine.Manage
import FusionMemory.Engine.Retrieve
import FusionMemory.Engine.Execution
import FusionMemory.Engine.ReconcileVectors
import FusionMemory.Engine.RetrieveScope
import FusionMemory.Server.Rpc
import FusionMemory.Server.Http
import FusionMemory.Server.AuthGate
import FusionMemory.Engine.ConsolidatePhases
import FusionMemory.Engine.ConsolidateTenants
import FusionMemory.Engine.Staging
import FusionMemory.Engine.ConsolidateOrder
import FusionMemory.Engine.Calls
import FusionMemory.Engine.DeletedStays
import FusionMemory.Engine.AccessCounts
import FusionMemory.Engine.Unmerging
import FusionMemory.Engine.CommitTurns
import FusionMemory.Engine.Jobs
import FusionMemory.Server.Serving
import FusionMemory.Server.TenantScope
import FusionMemory.Persist.Encryption
import FusionMemory.Engine.HiddenText
import FusionMemory.Engine.SealedEngine
import FusionMemory.Engine.WrongKey
import FusionMemory.Engine.Watermark
import FusionMemory.Cluster.Election
import FusionMemory.Lib.Trace
import FusionMemory.Cluster.ElectionNode
import FusionMemory.Cluster.VotePromise
import FusionMemory.Cluster.ElectionCluster
import FusionMemory.Cluster.ElectionSafety
import FusionMemory.Cluster.Failover
import FusionMemory.Cluster.CommitPayload
import FusionMemory.Cluster.Follower
import FusionMemory.Cluster.ReplicationGap
import FusionMemory.Lib.DecimalText
import FusionMemory.Cluster.Protocol
import FusionMemory.Cluster.Replay
import FusionMemory.Cluster.ReplayTwice
import FusionMemory.Engine.IncrementalScan
import FusionMemory.Engine.ScopedConsolidate
import FusionMemory.Engine.MergeRaces
import FusionMemory.Engine.CommitRaces
import FusionMemory.Cluster.LoggedEntries
import FusionMemory.Cluster.Mirror
import FusionMemory.Cluster.Leader
import FusionMemory.Cluster.LeaderConsolidates
import FusionMemory.Cluster.Convergence
import FusionMemory.Cluster.SyncCursor
import FusionMemory.Cluster.SyncLoop
import FusionMemory.Cluster.Terms
import FusionMemory.Cluster.LeaderConn
import FusionMemory.Server.UdsConn
import FusionMemory.Engine.DeleteAtomic
import FusionMemory.Engine.HalfMerge
import FusionMemory.Engine.RecycleLog
import FusionMemory.Lib.Interference
import FusionMemory.Persist.Migrate
import FusionMemory.Engine.TimeUnits
import FusionMemory.Persist.Columns
import FusionMemory.Engine.FoundTurns
import FusionMemory.Engine.CrowdedSearch
import FusionMemory.Lib.Chunks
import FusionMemory.Server.LineChunks
import FusionMemory.Server.OversizedLine
import FusionMemory.Engine.Redact
import FusionMemory.Engine.RedactNumbers
import FusionMemory.Engine.RedactParts
import FusionMemory.Engine.RedactIdempotent
import FusionMemory.Lib.SqlText
import FusionMemory.Persist.ScopedQueries
import FusionMemory.Store.Compaction
import FusionMemory.Store.FailedInsert
import FusionMemory.Engine.EntityExtract
import FusionMemory.Engine.ImportStudio
import FusionMemory.Engine.ImportVectors
import FusionMemory.Persist.EntityAliases
import FusionMemory.Graph.EntityNames
import FusionMemory.Graph.Align
import FusionMemory.Graph.AlignStable
import FusionMemory.Engine.GraphAffinity
import FusionMemory.Lib.Separators
import FusionMemory.Lib.Split
import FusionMemory.Engine.LongNumbers
import FusionMemory.Lib.Crash
import FusionMemory.Persist.MigrateResume
import FusionMemory.Embed.Cache
import FusionMemory.Engine.Forgetting
import FusionMemory.Engine.ParseExtraction
import FusionMemory.Lib.Permits
import FusionMemory.Server.Locking
import FusionMemory.Server.RowIdentity
import FusionMemory.Embed.Mlx
import FusionMemory.Lib.Evidence
import FusionMemory.Server.Identity
import FusionMemory.Cluster.Exchange
import FusionMemory.Cluster.AppendOnly
import FusionMemory.Cluster.CatchUp
import FusionMemory.Server.Config
import FusionMemory.Server.Startup
import FusionMemory.Lib.FixedWidth
import FusionMemory.Server.OtherDimension
import FusionMemory.Store.Sled
import FusionMemory.Store.SledSession
