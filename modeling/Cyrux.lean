import Cyrux.Compute.Backing
import Cyrux.Compute.Benchmark
import Cyrux.Compute.Custody
import Cyrux.Compute.Expiry
import Cyrux.Compute.InvestmentIndex
import Cyrux.Compute.OwnerShares
import Cyrux.Compute.Payout
import Cyrux.Compute.RewardShares
import Cyrux.Compute.Settlements
import Cyrux.Compute.VotingLock
import Cyrux.Compute.WithdrawStats
import Cyrux.Crypto.Certificate
import Cyrux.Deployer.Escrow
import Cyrux.Gatekeeper.Budget
import Cyrux.Gatekeeper.Heartbeats
import Cyrux.Gatekeeper.MasterKey
import Cyrux.HeadersCache.Records
import Cyrux.HeadersCache.Repair
import Cyrux.LocalCache.Isolation
import Cyrux.LocalCache.Quotas
import Cyrux.LogServer.Buffer
import Cyrux.Mq.Delivery
import Cyrux.Mq.Dispatcher
import Cyrux.Mq.NextSequence
import Cyrux.NodeRpc.StorageChanges
import Cyrux.Phat.Clusters
import Cyrux.Phat.Tokenomic
import Cyrux.Pink.Gas
import Cyrux.Poller.Tasks
import Cyrux.Prb.HeaderPartition
import Cyrux.Prb.RecordedCounters
import Cyrux.Prb.Submissions
import Cyrux.Rollup.Consumption
import Cyrux.Rollup.Serializable
import Cyrux.Scheduler.RequestLock
import Cyrux.Scheduler.RequestTags
import Cyrux.Scheduler.TaskOrder
import Cyrux.Sidevm.OcallArgs
import Cyrux.Sidevm.Upload
import Cyrux.Sidevm.WakerSlots
import Cyrux.Sync.LightValidation
import Cyrux.Trie.ReferenceCounts
