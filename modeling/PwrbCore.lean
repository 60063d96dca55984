import PwrbCore.Betting.ChainExtension
import PwrbCore.Script.MultiSig
import PwrbCore.Validation.TxIndex
import PwrbCore.Validation.Commit
import PwrbCore.Validation.LockTime
import PwrbCore.Mempool.Spendable
import PwrbCore.Mempool.FeeEstimator
import PwrbCore.Coins.Cache
import PwrbCore.Betting.PendingPayouts
import PwrbCore.Masternode.WinnerVotes
import PwrbCore.Node.Bloom
import PwrbCore.Node.CheckQueue
import PwrbCore.Node.TimeData
import PwrbCore.Node.AddrManRuns
import PwrbCore.Staking.Producer
import PwrbCore.Validation.RecalculateSupply
import PwrbCore.Betting.PayoutScripts
import PwrbCore.Chain.Candidates
import PwrbCore.Chain.BlockFiles
import PwrbCore.Chain.SkipList
import PwrbCore.Staking.StakeInputs
import PwrbCore.Masternode.VoteMessages
import PwrbCore.Masternode.Ranks
import PwrbCore.Masternode.RejectedBroadcasts
import PwrbCore.SwiftTX.Votes
import PwrbCore.Masternode.BudgetBlocks
import PwrbCore.Serialize.Compressor
import PwrbCore.Script.GetOp
import PwrbCore.Chain.CompactTargets
