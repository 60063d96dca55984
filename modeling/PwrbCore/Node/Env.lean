/-
  Node.Env — WHAT VALIDATION READS BESIDES THE BLOCK AND THE COINS: the chain, its lookups, the
  node's transient state, and the functions that are cryptography or serialisation.
-/
import PwrbCore.Betting.BetPayouts
import PwrbCore.Coins.View
import PwrbCore.Zerocoin.Supply

namespace PwrbCore

open Checked

/-! ## §1. Library functions. -/

/-- The script verification flags blocks are checked with. -/
structure ScriptFlags where
  p2sh : Bool := true
  dersig : Bool := true
  checkLockTimeVerify : Bool := false
  deriving DecidableEq, Repr

/-- Hashing, curve arithmetic and byte sizes.  All nodes compute the same functions. -/
structure Crypto where
  hash160 : List UInt8 → Uint160
  /-- `CheckProofOfWork(hash, nBits)` -/
  checkProofOfWork : Uint256 → Nat → Bool
  /-- `BlockMerkleRoot`, with the `mutated` flag -/
  blockMerkleRoot : List CTransaction → Uint256 × Bool
  /-- `GetSerializeSize` of a transaction -/
  txSize : CTransaction → Nat
  /-- `GetSerializeSize` of a block -/
  blockSize : CBlock → Nat
  /-- `VerifyScript` of input `nIn` of the transaction against a scriptPubKey -/
  verifyScript : ScriptFlags → CTransaction → Nat → CScript → Bool
  /-- the hash of the outputs a zerocoin spend signs -/
  txOutHash : List CTxOut → Uint256
  /-- `TxInToZerocoinSpend`; `none` where it throws -/
  coinSpend : CTxIn → Option CoinSpend
  /-- `ZPWRBModule::parseCoinSpend` of an input of the transaction, given the spent output -/
  parseCoinSpend : CTxIn → CTransaction → CTxOut → Option CoinSpend
  /-- `ZPWRBModule::validateInput` -/
  validateInput : CTxIn → CTxOut → CTransaction → Bool
  /-- `ContextualCheckZerocoinSpendNoSerialCheck`: signature, spend type, serial range -/
  contextualCheckSpend : CTransaction → CoinSpend → Int → Bool
  invalidOut : InvalidOut

/-! ## §2. Transient state. -/

/-- The sporks validation reads. -/
inductive SporkId where
  | swiftTxBlockFiltering
  | masternodePaymentEnforcement
  | masternodeBudgetEnforcement
  | enableSuperblocks
  | zerocoinMaintenanceMode
  | coldStakingEnforcement
  | zerocoinPublicSpendV4
  deriving DecidableEq, Repr

/-- `CMasternodePayee`: a candidate and its votes. -/
structure CMasternodePayee where
  scriptPubKey : CScript
  nVotes : Int
  deriving DecidableEq, Repr

structure CTxBudgetPayment where
  nProposalHash : Uint256
  payee : CScript
  nAmount : Int
  deriving DecidableEq, Repr

/-- `CFinalizedBudget`: one payment for each block from `nBlockStart` on. -/
structure CFinalizedBudget where
  nBlockStart : Int
  vecBudgetPayments : List CTxBudgetPayment
  /-- `mapVotes.size()` -/
  voteCount : Int
  deriving DecidableEq, Repr

/-- Gossip and configuration: two nodes on one chain may differ in all of it. -/
structure LocalState where
  sporkValue : SporkId → Int
  /-- `GetAdjustedTime()` -/
  adjustedTime : Int
  initialBlockDownload : Bool
  verifyingBlocks : Bool
  /-- `masternodeSync.IsSynced()` -/
  synced : Bool
  mapLockedInputs : COutPoint → Option Uint256
  mapMasternodeBlocks : Int → Option (List CMasternodePayee)
  mapFinalizedBudgets : List CFinalizedBudget
  /-- `mnodeman.CountEnabled(ActiveProtocol())` -/
  enabledMasternodes : Nat
  mapPaymentHistory : List (Uint256 × Int)
  /-- the draw results at hand, and after a download -/
  sources : ResultSources
  downloaded : ResultSources
  mempool : Uint256 → Option CTransaction
  /-- `Checkpoints::GetTotalBlocksEstimate()` -/
  totalBlocksEstimate : Int
  /-- `nScriptCheckThreads ≠ 0` -/
  scriptCheckThreads : Bool

def LocalState.isSporkActive (l : LocalState) (id : SporkId) : Bool :=
  decide (l.sporkValue id < l.adjustedTime)

/-! ## §3. The node. -/

/-- What validation reads besides the coins. -/
structure NodeEnv where
  params : ConsensusParams
  crypto : Crypto
  /-- `chainActive`, the block at height `i` at position `i` -/
  chain : List CBlock
  /-- the heights of `mapBlockIndex` -/
  mapBlockIndex : Uint256 → Option Int
  /-- `pcoinsTip` -/
  coinsTip : CCoinsView
  fTxIndex : Bool
  /-- the transaction index: the transaction and the hash of its block -/
  txIndex : Uint256 → Option (CTransaction × Uint256)
  /-- the spent serials of `zerocoinDB` and the transaction that spent each -/
  coinSpends : Nat → Option Uint256
  loc : LocalState

namespace NodeEnv

section

variable (env : NodeEnv)

def chainHeight : Int := env.chain.length - 1

/-- The height `CheckBlock` and `IsBlockValueValid` work out: on top of the tip or a known block, else `0`. -/
def heightOnIndex (tip block : CBlock) : Int :=
  if tip.hash = block.hashPrevBlock then env.chainHeight + 1
  else
    match env.mapBlockIndex block.hashPrevBlock with
    | some nHeight => nHeight + 1
    | none => 0

/-! ## §4. Lookups. -/

/-- The slow path of `GetTransaction`: the coins entry says which block to scan. -/
def slowLookup (hash : Uint256) : Option (CTransaction × Uint256) :=
  match env.coinsTip.accessCoins hash with
  | none => none
  | some coins =>
    if 0 < coins.nHeight then
      match env.chain[coins.nHeight.toNat]? with
      | none => none
      | some block => (block.vtx.find? fun tx => tx.hash == hash).map fun tx => (tx, block.hash)
    else none

/-- `GetTransaction(hash, …, fAllowSlow = true)`: the transaction and `hashBlock`, null for the mempool. -/
def getTransaction (hash : Uint256) : Option (CTransaction × Uint256) :=
  match env.loc.mempool hash with
  | some tx => some (tx, 0)
  | none => if env.fTxIndex then env.txIndex hash else env.slowLookup hash

def heightInChain (hashBlock : Uint256) : Option Nat :=
  if hashBlock = 0 then none else env.chain.findIdx? fun b => b.hash == hashBlock

def isTransactionInChain (txId : Uint256) : Option Nat :=
  match env.getTransaction txId with
  | none => none
  | some (_, hashBlock) => env.heightInChain hashBlock

/-- `GetOutput`.  The bound is tested with `>`: one past the end is read as it is. -/
def getOutput (out : COutPoint) : Validated CTxOut :=
  match env.getTransaction out.hash with
  | none => .error (dos 100)
  | some (txPrev, _) =>
    if txPrev.vout.length < out.n then .error (dos 100)
    else
      match txPrev.vout[out.n]? with
      | none => .error .thrown
      | some txout => .ok txout

def parseZerocoinPublicSpend (txin : CTxIn) (tx : CTransaction) : Validated CoinSpend :=
  match env.getOutput txin.prevout with
  | .error e => .error (e.andDoS 100)
  | .ok prevOut => orStop (env.crypto.parseCoinSpend txin tx prevOut) (dos 0 "bad-txns-invalid-zpwrb")

def isSerialInBlockchain (serial : Nat) : Bool :=
  match env.coinSpends serial with
  | none => false
  | some txHash => (env.isTransactionInChain txHash).isSome

def contextualCheckZerocoinSpend (tx : CTransaction) (spend : CoinSpend) (nHeight : Int) : Bool :=
  env.crypto.contextualCheckSpend tx spend nHeight && !env.isSerialInBlockchain spend.coinSerialNumber

def betEnv : BetEnv where
  params := env.params
  hash160 := env.crypto.hash160
  getTransaction := fun hash => (env.getTransaction hash).map Prod.fst

end

end NodeEnv

end PwrbCore
