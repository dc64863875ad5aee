import Bubble.Lib.Ledger
import Bubble.Lib.Rollback
import Bubble.Lib.Traverse
import Bubble.Lib.Keyed
import Bubble.Lib.Rooted
import Bubble.Lib.Bytes
import Bubble.Lib.Search
import Bubble.Lib.SortedMap
import Bubble.Lib.Layers
import Bubble.Lib.Compare
import Bubble.Lib.QuickSort
import Bubble.Lib.Sweep
import Bubble.Rlp.Encode
import Bubble.Common
import Bubble.Restricting.State
import Bubble.Restricting.Plugin
import Bubble.Restricting.Conservation
import Bubble.Restricting.Schedule
import Bubble.Cbft.BitArray
import Bubble.Cbft.Verify
import Bubble.Cbft.Certificates
import Bubble.Cbft.BlockTree
import Bubble.Cbft.Prune
import Bubble.Cbft.Shape
import Bubble.Cbft.Consensus
import Bubble.Cbft.CommitChain
import Bubble.Cbft.Messages
import Bubble.Cbft.Journal
import Bubble.Slashing.Evidence
import Bubble.Slashing.Slash
import Bubble.Slashing.Deduplication
import Bubble.Slashing.Digest
import Bubble.Slashing.Pool
import Bubble.Staking.Delegation
import Bubble.Reward.DelegateReward
import Bubble.Staking.Withdrew
import Bubble.Staking.Freeze
import Bubble.Staking.Lock
import Bubble.Staking.Validator
import Bubble.Staking.PowerKey
import Bubble.Staking.Election
import Bubble.Staking.ElectionShape
import Bubble.Slashing.ZeroProduce
import Bubble.Slashing.ZeroRun
import Bubble.Snapshotdb.BlockData
import Bubble.Snapshotdb.Db
import Bubble.Snapshotdb.Recover
import Bubble.Snapshotdb.Read
import Bubble.Snapshotdb.Heap
import Bubble.Snapshotdb.Ranking
import Bubble.Vm.Call
import Bubble.Reward.Budget
import Bubble.Gov.State
import Bubble.Gov.Schedule
import Bubble.Gov.Proposals
import Bubble.Gov.Plugin
import Bubble.Gov.Stages
import Bubble.Gov.Ballots
import Bubble.Gov.Submission
import Bubble.Gov.Settlement
import Bubble.Gov.Lifecycle
import Bubble.Gov.Chain
import Bubble.Gov.Timing
