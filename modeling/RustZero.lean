import RustZero.Lib.Lts
import RustZero.Lib.Phases
import RustZero.Lib.Executions
import RustZero.Lib.Broadcast
import RustZero.Lib.KeyValueLog
import RustZero.Lib.Circle
import RustZero.Lib.TopRanked
import RustZero.Lib.ChangeLog
import RustZero.Lib.UnstableSort
import RustZero.Lib.EventStream
import RustZero.Lib.Checks
import RustZero.Lib.Lru
import RustZero.Lib.Batching
import RustZero.Lib.Files
import RustZero.Lib.Chunks
import RustZero.Lib.Reports
import RustZero.Lib.TaskPool
import RustZero.Lib.Arrangement
import RustZero.Lib.Rotation
import RustZero.Lib.NestedMaps
import RustZero.Lib.Members
import RustZero.Breaker
import RustZero.BreakerHalfOpen
import RustZero.BreakerLiveness
import RustZero.ServerBreaker
import RustZero.ConfigCenter
import RustZero.Etcd
import RustZero.EtcdDiscovery
import RustZero.EtcdKeys
import RustZero.Discov
import RustZero.DiscovConvergence
import RustZero.DiscovLeases
import RustZero.Kubernetes
import RustZero.SingleFlight
import RustZero.SingleFlightProtocol
import RustZero.SingleFlightDelivery
import RustZero.Cache
import RustZero.CacheLru
import RustZero.CacheHistory
import RustZero.CacheInserts
import RustZero.CachedStore
import RustZero.CachedStoreFreshness
import RustZero.CachedStoreReads
import RustZero.CachedStoreBatches
import RustZero.Staleness
import RustZero.ReadThroughCache
import RustZero.Redis
import RustZero.RedisModelCache
import RustZero.CacheInvalidation
import RustZero.RedisConnection
import RustZero.RedisSubscription
import RustZero.RedisLock
import RustZero.RedisLockOwnership
import RustZero.RedisBlockingPop
import RustZero.RedisLimiter
import RustZero.RedisLimiterRecovery
import RustZero.TokenLimiter
import RustZero.PeriodLimiter
import RustZero.Mcp
import RustZero.McpEvents
import RustZero.McpDelivery
import RustZero.McpTermination
import RustZero.McpRequests
import RustZero.Hash
import RustZero.RpcDiscovery
import RustZero.RpcBalance
import RustZero.RpcConsistentHash
import RustZero.RpcHealth
import RustZero.RpcTimeout
import RustZero.Gateway
import RustZero.GatewayRouting
import RustZero.GatewaySelection
import RustZero.GatewayHealth
import RustZero.GatewayProxy
import RustZero.Transcode
import RustZero.TranscodeCaptures
import RustZero.TranscodeRequest
import RustZero.TranscodeFields
import RustZero.Sse
import RustZero.Auth
import RustZero.RequestSignature
import RustZero.Metric
import RustZero.Http
import RustZero.RpcMetrics
import RustZero.HttpMetrics
import RustZero.RoutePolicies
import RustZero.RestStack
import RustZero.RestStackCoverage
import RustZero.RequestBody
import RustZero.Bookkeeping
import RustZero.Executor
import RustZero.DelayExecutor
import RustZero.Queue
import RustZero.QueueDelivery
import RustZero.BalancedPusher
import RustZero.QueueSupervision
import RustZero.ServiceGroup
import RustZero.Shedder
import RustZero.Log
import RustZero.LogSizeRotation
import RustZero.LogDailyRotation
import RustZero.LogRecovery
import RustZero.LogCounter
import RustZero.LogRetention
import RustZero.LimiterPeriods
import RustZero.RescueLimiter
import RustZero.TokenConformance
import RustZero.SlidingWindows
import RustZero.MapReduce
import RustZero.HttpClient
import RustZero.RedisDurations
import RustZero.RedisNamespace
import RustZero.ContentEncryption
import RustZero.Trace
import RustZero.TraceIds
import RustZero.MetricsRegistry
import RustZero.MetricsExposition
import RustZero.MetricsSeries
import RustZero.MetricsParsing
import RustZero.LogRecords
import RustZero.Openapi
import RustZero.ConfigEnvironment
import RustZero.Multipart
import RustZero.Retry
import RustZero.Bloom
import RustZero.StaticAssets
import RustZero.P2c
import RustZero.P2cAccounts
import RustZero.LogAsync
import RustZero.RpcServerStack
import RustZero.RpcClientStack
import RustZero.GatewayForward
import RustZero.TracePropagation
import RustZero.ContentChannel
import RustZero.SseStream
import RustZero.EtcdRegistration
