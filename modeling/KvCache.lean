import KvCache.Foundation.Run
import KvCache.Foundation.CyclicProbe
import KvCache.Heap.Lifetime
import KvCache.Directory.IndexCorrect
import KvCache.Directory.ResidencyCorrect
import KvCache.Directory.Capacity
import KvCache.Server.Counters
import KvCache.Server.Conversation
import KvCache.Session.Cursor
import KvCache.Host.PoolSeqlock
import KvCache.Lifecycle.ServerSafe
import KvCache.Lifecycle.Quarantine
import KvCache.Lifecycle.ClientSafe
import KvCache.Host.WorkerAgreement
import KvCache.ChunkClient.ShardAgreement
import KvCache.ChunkClient.CoalescedSound
import KvCache.ChunkClient.HostStoreLru
import KvCache.Directory.Eviction
import KvCache.Directory.LifeAccounts
import KvCache.ClientOps.ResidentRuns
import KvCache.Transfer.GetPlacement
import KvCache.Transfer.HostStreamRuns
import KvCache.Lifecycle.WorkerFailureSafe
import KvCache.Gather.ReleaseReturns
import KvCache.Transfer.PushCorrect
import KvCache.Host.StableRead
import KvCache.Host.HostArena
import KvCache.Host.ExternalCalls
import KvCache.Server.PutHostQueue
import KvCache.Directory.CatalogScan
import KvCache.Directory.PrepareRefused
import KvCache.Server.CommitFrontierSafe
import KvCache.Offload.PinProtocolSafe
import KvCache.Lmcache.DescriptorPayloadCorrect
import KvCache.Lmcache.PagedFillCorrect
import KvCache.Lmcache.RawWireFits
import KvCache.Lmcache.WireClientSafe
import KvCache.Lmcache.RawPlannersExact
import KvCache.Lmcache.BlockBindingAgrees
