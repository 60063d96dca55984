/-
  Mempool.Tip — THE TIP MOVES UNDER THE POOL (`ConnectTip`, `DisconnectTip` of `main.cpp`).

  `TipState` is the active chain, with the undo records of the blocks connected since the run
  began, the coins of the tip and the pool.
  Connecting a block takes its transactions and their conflicts out of the pool;
  disconnecting offers them to the pool again, one by one, and takes out what depended on
  those that are refused.
-/
import PwrbCore.Coins.Unspent
import PwrbCore.Mempool.Accept
import PwrbCore.Validation.DisconnectBlock

namespace PwrbCore

open Checked

/-! ## §1. The state. -/

structure Frame where
  block : CBlock
  vtxundo : List (List CTxInUndo)

/-- Chain, coins and pool together. -/
structure TipState where
  genesis : CBlock
  /-- the blocks after the first one that were there at the start; the run does not go below them -/
  base : List CBlock
  /-- the blocks connected since then, tip first -/
  above : List Frame
  chainState : ChainState
  pool : CTxMemPool

namespace TipState

def chain (st : TipState) : List CBlock := st.genesis :: (st.base ++ (st.above.map Frame.block).reverse)

def height (st : TipState) : Nat := st.base.length + st.above.length

def env (st : TipState) (ext : NodeEnv) : NodeEnv :=
  { ext with
    chain := st.chain
    coinsTip := st.chainState.view
    loc := { ext.loc with mempool := st.pool.lookup } }

end TipState

/-! ## §2. `ConnectTip`, `DisconnectTip`. -/

def TipState.connectTip (st : TipState) (ext : NodeEnv) (block : CBlock) (fAlreadyChecked : Bool) :
    Validated TipState := do
  let r ← (st.env ext).connectBlock block (st.height + 1 : Nat) st.chainState false fAlreadyChecked
  return { st with
    above := ⟨block, r.vtxundo⟩ :: st.above
    chainState := r.state
    pool := (st.pool.removeForBlock block.vtx).1 }

/-- One transaction of the disconnected block: back into the pool, or out with all that spends it. -/
def NodeEnv.resurrect (env : NodeEnv) (policy : RelayPolicy) (pool : CTxMemPool) (tx : CTransaction) :
    Validated CTxMemPool :=
  if tx.isCoinBase || tx.isCoinStake then .ok (pool.remove tx true).1
  else
    match env.acceptToMemoryPool policy pool tx false false false with
    | .ok pool' => .ok pool'
    | .error .thrown => .error .thrown
    | .error _ => .ok (pool.remove tx true).1

/-- `DisconnectTip`. The pool is updated before the tip moves: acceptance sees the old chain over the new coins. -/
def TipState.disconnectTip (st : TipState) (ext : NodeEnv) (policy : RelayPolicy) : Validated TipState :=
  match st.above with
  | [] => .error .returned
  | frame :: below => do
    let nHeight := st.height
    let d ← (st.env ext).disconnectBlock frame.block nHeight frame.vtxundo st.chainState
    require (d.fClean = true) .returned
    let env := { st.env ext with coinsTip := d.state.view }
    let pool ← frame.block.vtx.foldlM (env.resurrect policy) st.pool
    return { st with
      above := below
      chainState := d.state
      pool := pool.removeCoinbaseSpends ext.params.nCoinbaseMaturity d.state.view nHeight }

/-! ## §3. Events. -/

/-- What happens to the node; each event sees it with other surroundings. -/
inductive TipEvent where
  | accept (ext : NodeEnv) (policy : RelayPolicy) (tx : CTransaction)
      (fLimitFree fRejectInsaneFee ignoreFees : Bool)
  | connect (ext : NodeEnv) (block : CBlock) (fAlreadyChecked : Bool)
  | disconnect (ext : NodeEnv) (policy : RelayPolicy)
  /-- the pool is emptied, as at a restart -/
  | clear

/-- What an event does, or why it fails. -/
def TipState.perform (st : TipState) : TipEvent → Validated TipState
  | .accept ext policy tx fLimitFree fRejectInsaneFee ignoreFees => do
    let pool ← (st.env ext).acceptToMemoryPool policy st.pool tx fLimitFree fRejectInsaneFee ignoreFees
    return { st with pool := pool }
  | .connect ext block fAlreadyChecked => st.connectTip ext block fAlreadyChecked
  | .disconnect ext policy => st.disconnectTip ext policy
  | .clear => .ok { st with pool := st.pool.clear }

/-- The state after an event; one that fails changes nothing. -/
def TipState.step (st : TipState) (event : TipEvent) : TipState :=
  match st.perform event with
  | .ok st' => st'
  | .error _ => st

/-- A block as `AcceptBlock` stores it: it passed `CheckBlock` and `ContextualCheckBlock`, is not the first block and
its height is an `int`. -/
structure StoredBlock (params : ConsensusParams) (block : CBlock) (nHeight : Nat) : Prop where
  not_genesis : block.hash ≠ params.hashGenesisBlock
  checked : ∃ env : NodeEnv, ∃ fCheckMerkleRoot, env.checkBlock block fCheckMerkleRoot = .ok ()
  contextual : ∃ env : NodeEnv, env.contextualCheckBlock block nHeight = .ok ()
  height : (nHeight : Int) ≤ INT_MAX

/-- The transactions of the event are of the catalogue `txOf` and free of zerocoins, and so is
what the transaction index answers; a block comes from the block store. -/
def TipEvent.Fits (txOf : Uint256 → CTransaction) (st : TipState) : TipEvent → Prop
  | .accept ext _ tx _ _ _ =>
    (∀ hash tx hashBlock, ext.txIndex hash = some (tx, hashBlock) → txOf hash = tx) ∧
      txOf tx.hash = tx ∧ tx.containsZerocoins = false
  | .connect ext block _ =>
    StoredBlock ext.params block (st.height + 1) ∧ ∀ tx ∈ block.vtx, txOf tx.hash = tx ∧ tx.containsZerocoins = false
  | .disconnect ext _ => ∀ hash tx hashBlock, ext.txIndex hash = some (tx, hashBlock) → txOf hash = tx
  | .clear => True

/-- **A chain to start from**: blocks from the store, zerocoins or not, with transactions of the catalogue, and the
coins they left. -/
structure TipStart (txOf : Uint256 → CTransaction) (st : TipState) : Prop where
  genesis : ∀ tx ∈ st.genesis.vtx, txOf tx.hash = tx ∧ tx.isCoinBase = true
  stored : ∀ i block, st.base[i]? = some block → ∃ params, StoredBlock params block (i + 1)
  named : ∀ block ∈ st.base, ∀ tx ∈ block.vtx, txOf tx.hash = tx
  coins : Ledger.Sound coinRules (st.base.flatMap CBlock.vtx) st.chainState.view.unspent
  above : st.above = []
  pool : st.pool = CTxMemPool.empty

inductive TipReach (txOf : Uint256 → CTransaction) : TipState → Prop
  | init {st : TipState} (hst : TipStart txOf st) : TipReach txOf st
  | step {st : TipState} {event : TipEvent} (hst : TipReach txOf st) (hevent : event.Fits txOf st) :
      TipReach txOf (st.step event)

end PwrbCore
