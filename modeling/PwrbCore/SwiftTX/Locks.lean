/-
  SwiftTX.Locks — TRANSACTION LOCKS (`swifttx.cpp`): lock requests, consensus votes and the clean-up, as a
  state machine over the five global maps.

  The answers of the rest of the node (memory pool, masternode ranks, signatures, input
  ages, clock) come with each step as a `SwiftEnv`.  `mapUnknownVotes` only limits relaying
  and is left out, as are the wallet's counters and `ReprocessBlocks`, which touch none of
  the maps.
-/
import PwrbCore.Lib.StdMap
import PwrbCore.Params

namespace PwrbCore

/-! ## §1. Votes and locks. -/

def SWIFTTX_SIGNATURES_REQUIRED : Int := 6
def SWIFTTX_SIGNATURES_TOTAL : Int := 10

/-- `CConsensusVote`; its signature is looked at by `checkSignature` below. -/
structure CConsensusVote where
  vinMasternode : COutPoint
  txHash : Uint256
  nBlockHeight : Int
  deriving DecidableEq, Repr

def CConsensusVote.getHash (v : CConsensusVote) : Uint256 :=
  v.vinMasternode.hash + BitVec.ofNat 256 v.vinMasternode.n + v.txHash

structure CTransactionLock where
  nBlockHeight : Int
  txHash : Uint256
  vecConsensusVotes : List CConsensusVote := []
  nExpiration : Int
  deriving DecidableEq, Repr

/-- `CountSignatures`: only votes for the lock's own height count. -/
def CTransactionLock.countSignatures (lock : CTransactionLock) : Int :=
  if lock.nBlockHeight = 0 then -1
  else lock.vecConsensusVotes.countP fun v => v.nBlockHeight == lock.nBlockHeight

def CTransactionLock.addSignature (lock : CTransactionLock) (cv : CConsensusVote) : CTransactionLock :=
  { lock with vecConsensusVotes := lock.vecConsensusVotes ++ [cv] }

def CTransactionLock.isComplete (lock : CTransactionLock) : Bool :=
  decide (SWIFTTX_SIGNATURES_REQUIRED ≤ lock.countSignatures)

/-! ## §2. The maps. -/

/-- The globals of `swifttx.cpp`. -/
structure SwiftState where
  mapTxLockReq : StdMap Uint256 CTransaction := ∅
  mapTxLockReqRejected : StdMap Uint256 CTransaction := ∅
  mapTxLockVote : StdMap Uint256 CConsensusVote := ∅
  mapTxLocks : StdMap Uint256 CTransactionLock := ∅
  mapLockedInputs : StdMap COutPoint Uint256 := ∅

structure SwiftEnv where
  /-- not in lite mode, spork 2 on, chain synced -/
  enabled : Bool
  /-- `GetTransaction` -/
  getTransaction : Uint256 → Option CTransaction
  /-- the value of `SPORK_5_MAX_VALUE` -/
  maxValue : Int
  /-- `GetInputAge` -/
  inputAge : COutPoint → Int
  tipHeight : Int
  /-- `GetTime()` -/
  time : Int
  /-- whether `AcceptToMemoryPool` takes the transaction -/
  acceptToMemoryPool : CTransaction → Bool
  /-- the vote `DoConsensusVote` signs, on a masternode that ranks high enough -/
  ownVote : CTransaction → Int → Option CConsensusVote
  /-- `GetMasternodeRank` at a height -/
  masternodeRank : COutPoint → Int → Int
  /-- `CConsensusVote::CheckSignature` -/
  checkSignature : CConsensusVote → Bool

/-- The loop that locks inputs which no transaction has locked. -/
def lockInputs (locked : StdMap COutPoint Uint256) (vin : List CTxIn) (txHash : Uint256) : StdMap COutPoint Uint256 :=
  vin.foldl (fun locked txin => locked.insertNew txin.prevout txHash) locked

/-! ## §3. `CreateNewLock`, `CheckForConflictingLocks`. -/

/-- The age of `CreateNewLock`: that of the first input, if every input is old enough (the loop runs backwards);
`none` where it returns early. -/
def SwiftEnv.txAge (env : SwiftEnv) (tx : CTransaction) : Option Int :=
  if tx.vin.any fun txin => decide (env.inputAge txin.prevout < 5) then none
  else some ((tx.vin.head?.map fun txin => env.inputAge txin.prevout).getD 0)

section

variable (st : SwiftState) (env : SwiftEnv)

section

variable (tx : CTransaction)

/-- `CreateNewLock`, with the height it returns. -/
def SwiftState.createNewLock : SwiftState × Int :=
  match env.txAge tx with
  | none => (st, 0)
  | some nTxAge =>
    let nBlockHeight := (env.tipHeight - nTxAge) + 4
    let lock :=
      match st.mapTxLocks.get tx.hash with
      | none =>
        { nBlockHeight := nBlockHeight, txHash := tx.hash, nExpiration := (env.time + 60 * 60).bmod (2 ^ 32) }
      | some lock => { lock with nBlockHeight := nBlockHeight }
    ({ st with mapTxLocks := st.mapTxLocks.set tx.hash lock }, nBlockHeight)

/-- The first input of `tx` that another transaction has locked, with its owner. -/
def SwiftState.conflictingLock (st : SwiftState) (tx : CTransaction) : Option Uint256 :=
  tx.vin.findSome? fun txin =>
    match st.mapLockedInputs.get txin.prevout with
    | none => none
    | some owner => if owner ≠ tx.hash then some owner else none

/-- `mapTxLocks[hash].nExpiration = GetTime()`, where there is a lock. -/
def SwiftState.expireLock (st : SwiftState) (time : Int) (hash : Uint256) : SwiftState :=
  match st.mapTxLocks.get hash with
  | none => st
  | some lock => { st with mapTxLocks := st.mapTxLocks.set hash { lock with nExpiration := time.bmod (2 ^ 32) } }

/-- `CheckForConflictingLocks`: two conflicting locks expire at once. -/
def SwiftState.checkForConflictingLocks : SwiftState × Bool :=
  match st.conflictingLock tx with
  | none => (st, false)
  | some owner => ((st.expireLock env.time tx.hash).expireLock env.time owner, true)

/-! ## §4. A lock request. -/

/-- Where a failed `GetOp` leaves the position: behind the opcode and the length. -/
def failedOpRest : List UInt8 → List UInt8
  | [] => []
  | opcode :: pc =>
    if opcode = OP_PUSHDATA1 ∧ 1 ≤ pc.length then pc.drop 1
    else if opcode = OP_PUSHDATA2 ∧ 2 ≤ pc.length then pc.drop 2
    else if opcode = OP_PUSHDATA4 ∧ 4 ≤ pc.length then pc.drop 4
    else pc

/-- The loop of `IsNormalPaymentScript` from instruction `i` on, which ignores what `GetOp`
returns: a failed one gives `OP_INVALIDOPCODE`. -/
def isNormalPaymentAux : Nat → Nat → List UInt8 → Bool
  | 0, _, _ => true
  | fuel + 1, i, pc =>
    if pc = [] then true
    else
      let (opcode, rest) :=
        match CScript.getOp pc with
        | none => (0xff, failedOpRest pc)
        | some (opcode, _, rest) => (opcode, rest)
      if (i == 0 && opcode != OP_DUP) || (i == 1 && opcode != OP_HASH160)
        || (i == 3 && opcode != OP_EQUALVERIFY) || (i == 4 && opcode != OP_CHECKSIG)
        || i == 5 then false
      else isNormalPaymentAux fuel (i + 1) rest

def CScript.isNormalPaymentScript (s : CScript) : Bool :=
  s.length == 25 && isNormalPaymentAux 25 0 s

/-- `IsIXTXValid`; a transaction with inputs that are not found passes. -/
def SwiftEnv.isIXTXValid (env : SwiftEnv) (tx : CTransaction) : Bool :=
  let nValueOut := (tx.vout.map CTxOut.nValue).sum
  let nValueIn := (tx.vin.map fun txin =>
    (((env.getTransaction txin.prevout.hash).bind fun tx2 => tx2.vout[txin.prevout.n]?).map CTxOut.nValue).getD 0).sum
  let missingTx := tx.vin.any fun txin => (env.getTransaction txin.prevout.hash).isNone
  if tx.vout = [] ∨ tx.nLockTime ≠ 0 then false
  else if env.maxValue * COIN < nValueOut then false
  else missingTx || decide (1000000 ≤ nValueIn - nValueOut)

/-- The tests in front of the handler's work. -/
def SwiftState.takesRequest : Bool :=
  env.enabled && (st.mapTxLockReq.get tx.hash).isNone
    && (st.mapTxLockReqRejected.get tx.hash).isNone && env.isIXTXValid tx
    && tx.vout.all fun o => o.scriptPubKey.isNormalPaymentScript || o.scriptPubKey.isUnspendable

def SwiftState.lockComplete (st : SwiftState) (hash : Uint256) : Bool :=
  match st.mapTxLocks.get hash with
  | none => false
  | some lock => lock.isComplete

/-- The branch for a transaction the memory pool took. -/
def SwiftState.acceptRequest (nBlockHeight : Int) : SwiftState :=
  let votes :=
    match env.ownVote tx nBlockHeight with
    | none => st.mapTxLockVote
    | some ctx => st.mapTxLockVote.set ctx.getHash ctx
  { st with mapTxLockVote := votes, mapTxLockReq := st.mapTxLockReq.insertNew tx.hash tx }

/-- The branch for a refused transaction: its inputs are locked all the same. -/
def SwiftState.rejectRequest : SwiftState :=
  let st := { st with
    mapTxLockReqRejected := st.mapTxLockReqRejected.insertNew tx.hash tx
    mapLockedInputs := lockInputs st.mapLockedInputs tx.vin tx.hash }
  if st.lockComplete tx.hash then
    match st.checkForConflictingLocks env tx with
    | (st, false) => { st with mapTxLockReq := st.mapTxLockReq.insertNew tx.hash tx }
    | (st, true) => st
  else st

/-- `ProcessMessageSwiftTX` for a lock request (`NetMsgType::IX`). -/
def SwiftState.processRequest : SwiftState :=
  if st.takesRequest env tx then
    let (st, nBlockHeight) := st.createNewLock env tx
    if env.acceptToMemoryPool tx then st.acceptRequest env tx nBlockHeight
    else st.rejectRequest env tx
  else st

def SwiftState.ownRequest : SwiftState :=
  ({ st with mapTxLockReq := st.mapTxLockReq.insertNew tx.hash tx }.createNewLock env tx).1

end

/-! ## §5. A vote. -/

/-- `ProcessConsensusVote` behind its tests: the vote joins the lock of its transaction, and a complete lock locks the
inputs. `mapTxLockReq[ctx.txHash]` creates a missing request. -/
def SwiftState.addVote (ctx : CConsensusVote) : SwiftState :=
  let lock :=
    ((st.mapTxLocks.get ctx.txHash).getD
      { nBlockHeight := 0, txHash := ctx.txHash, nExpiration := (env.time + 60 * 60).bmod (2 ^ 32) }).addSignature ctx
  let st := { st with mapTxLocks := st.mapTxLocks.set ctx.txHash lock }
  if lock.isComplete then
    let st := { st with
      mapTxLockReq := st.mapTxLockReq.insertNew ctx.txHash { hash := 0, vin := [], vout := [] } }
    let tx := (st.mapTxLockReq.get ctx.txHash).getD { hash := 0, vin := [], vout := [] }
    match st.checkForConflictingLocks env tx with
    | (st, true) => st
    | (st, false) => { st with mapLockedInputs := lockInputs st.mapLockedInputs tx.vin ctx.txHash }
  else st

/-- `ProcessConsensusVote`: the rank and the signature, then the vote. -/
def SwiftState.processConsensusVote (ctx : CConsensusVote) : SwiftState :=
  let n := env.masternodeRank ctx.vinMasternode ctx.nBlockHeight
  if n = -1 ∨ SWIFTTX_SIGNATURES_TOTAL < n ∨ env.checkSignature ctx = false then st
  else st.addVote env ctx

/-- `ProcessMessageSwiftTX` for a vote (`NetMsgType::IXLOCKVOTE`). -/
def SwiftState.processVote (ctx : CConsensusVote) : SwiftState :=
  if env.enabled && (st.mapTxLockVote.get ctx.getHash).isNone then
    { st with mapTxLockVote := st.mapTxLockVote.set ctx.getHash ctx }.processConsensusVote env ctx
  else st

/-! ## §6. The clean-up. -/

/-- Every lock on one of the inputs goes, whoever holds it. -/
def eraseInputs (locked : StdMap COutPoint Uint256) (vin : List CTxIn) : StdMap COutPoint Uint256 :=
  vin.foldl (fun locked (txin : CTxIn) => locked.remove txin.prevout) locked

def eraseVotes (votes : StdMap Uint256 CConsensusVote) (vs : List CConsensusVote) : StdMap Uint256 CConsensusVote :=
  vs.foldl (fun votes (v : CConsensusVote) => votes.remove v.getHash) votes

/-- One turn of `CleanTransactionLocksList`: an expired lock goes and, if its request is known, the request, its votes
and every lock on one of its inputs. -/
def SwiftState.cleanLock (time : Int) (st : SwiftState) (e : Sigma fun _ : Uint256 => CTransactionLock) : SwiftState :=
  if e.2.nExpiration < time then
    let st :=
      match st.mapTxLockReq.get e.2.txHash with
      | none => st
      | some tx =>
        { st with
          mapLockedInputs := eraseInputs st.mapLockedInputs tx.vin
          mapTxLockReq := st.mapTxLockReq.remove e.2.txHash
          mapTxLockReqRejected := st.mapTxLockReqRejected.remove e.2.txHash
          mapTxLockVote := eraseVotes st.mapTxLockVote e.2.vecConsensusVotes }
    { st with mapTxLocks := st.mapTxLocks.remove e.1 }
  else st

def SwiftState.cleanTransactionLocksList (st : SwiftState) (time : Int) : SwiftState :=
  st.mapTxLocks.entries.foldl (SwiftState.cleanLock time) st

/-! ## §7. Steps and runs. -/

inductive SwiftEvent where
  | request (tx : CTransaction)
  | ownRequest (tx : CTransaction)
  | vote (ctx : CConsensusVote)
  | clean

def SwiftState.step : SwiftEvent → SwiftState
  | .request tx => st.processRequest env tx
  | .ownRequest tx => st.ownRequest env tx
  | .vote ctx => st.processVote env ctx
  | .clean => st.cleanTransactionLocksList env.time

end

/-- The states reached from the empty maps by steps that meet `P`; the rest of the node answers freely. -/
inductive SwiftReach (P : SwiftState → SwiftEnv → SwiftEvent → Prop) : SwiftState → Prop where
  | start : SwiftReach P {}
  | step {st : SwiftState} (env : SwiftEnv) (ev : SwiftEvent) :
      SwiftReach P st → P st env ev → SwiftReach P (st.step env ev)

end PwrbCore
