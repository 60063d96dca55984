/-
  Validation.CheckBlock — CHECKS ON A BLOCK BEFORE IT IS CONNECTED (`CheckBlockHeader`, `CheckColdStakeFreeOutput`,
  `CheckBlock` of `main.cpp`).

  `checkBlock` is cut where the source's own sections are.  Two of them read transient
  state: the transaction locks (§3) and the payment checks (§4).
-/
import PwrbCore.Masternode.Payments
import PwrbCore.Validation.CheckTransaction

namespace PwrbCore

open Checked

/-! ## §1. The shape of a block. -/

variable {block : CBlock} {fCheckMerkleRoot : Bool}

def MAX_BLOCK_SIZE_CURRENT : Nat := 2000000
def MAX_BLOCK_SIZE_LEGACY : Nat := 1000000
def MAX_BLOCK_SIGOPS_CURRENT : Nat := MAX_BLOCK_SIZE_CURRENT / 50
def MAX_BLOCK_SIGOPS_LEGACY : Nat := MAX_BLOCK_SIZE_LEGACY / 50

section

variable (params : ConsensusParams) (crypto : Crypto) (block : CBlock)

def checkBlockHeader (fCheckPOW : Bool) : Validated Unit := do
  require (fCheckPOW = true → crypto.checkProofOfWork block.hash block.nBits = true)
    (dos 50 "high-hash")
  require (params.network = .regtest
    ∨ (if params.ZC_TimeStart < block.nTime then 4 ≤ block.nVersion else 0 < block.nVersion))
    (dos 50 "block-version")

/-- The header section of `CheckBlock`: a failure may come from a corrupted copy. -/
def checkHeader : Validated Unit :=
  match checkBlockHeader params crypto block (!block.isProofOfStake) with
  | .error e => .error (e.andDoS 100 "bad-header" true)
  | .ok () => .ok ()

/-- The merkle root section, with the same reservation. -/
def checkMerkleRoot (crypto : Crypto) (block : CBlock) (fCheckMerkleRoot : Bool) : Validated Unit :=
  if fCheckMerkleRoot then do
    require (block.hashMerkleRoot = (crypto.blockMerkleRoot block.vtx).1)
      (.invalid 100 "bad-txnmrklroot" true)
    require ((crypto.blockMerkleRoot block.vtx).2 = false) (.invalid 100 "bad-txns-duplicate" true)
  else .ok ()

/-- A staked block has an empty coinbase output and no coinstake after the second transaction. -/
def checkStakePositions (block : CBlock) : Validated Unit :=
  if block.isProofOfStake then do
    require (∃ tx ∈ block.vtx.head?, ∃ out ∈ tx.vout.head?, tx.vout.length = 1 ∧ out.isEmpty = true)
      (dos 100)
    require (∀ tx ∈ block.vtx.drop 2, tx.isCoinStake = false) (dos 100)
  else .ok ()

/-- The sections of `CheckBlock` that read the block alone. -/
def checkBlockShape (fCheckMerkleRoot : Bool) : Validated Unit := do
  checkHeader params crypto block
  checkMerkleRoot crypto block fCheckMerkleRoot
  require (block.vtx ≠ [] ∧ block.vtx.length ≤ MAX_BLOCK_SIZE_CURRENT
    ∧ crypto.blockSize block ≤ MAX_BLOCK_SIZE_CURRENT) (dos 100 "bad-blk-length")
  require (∃ tx ∈ block.vtx.head?, tx.isCoinBase = true) (dos 100 "bad-cb-missing")
  require (∀ tx ∈ block.vtx.tail, tx.isCoinBase = false) (dos 100 "bad-cb-multiple")
  checkStakePositions block

end

/-! ## §2. The last output of a cold stake. -/

section

variable (env : NodeEnv)

/-- The unsynced branch of `CheckColdStakeFreeOutput`: the outputs between the marker and the last carry the stake and
the block value. -/
def NodeEnv.freeOutputCarriesNoStake (tx : CTransaction) (nHeight : Int) : Option Bool :=
  match tx.vin with
  | [] => none
  | txin :: _ =>
    match env.getTransaction txin.prevout.hash with
    | none => some false
    | some (txPrev, _) =>
      (txPrev.vout[txin.prevout.n]?).map fun out =>
        ((tx.vout.dropLast.drop 1).map CTxOut.nValue).sum == out.nValue + getBlockValue (nHeight - 1)

/-- `CheckColdStakeFreeOutput`; `none` where an exception leaves it, also that of the error message of the
disabled-superblocks branch, whose format has an argument too few. -/
def NodeEnv.checkColdStakeFreeOutput (tx : CTransaction) (nHeight : Int) : Option Bool :=
  if !tx.hasP2CSOutputs then some true
  else
    match tx.vout.reverse with
    | lastOut :: before :: _ :: _ =>
      if lastOut.scriptPubKey ≠ before.scriptPubKey then
        if env.params.network = .regtest then some false
        else if !env.loc.synced then env.freeOutputCarriesNoStake tx nHeight
        else if env.loc.isBudgetPaymentBlock nHeight then
          if !env.loc.isSporkActive .enableSuperblocks then none else some true
        else some false
      else some true
    | _ => some true

/-! ## §3. Transaction locks. -/

/-- Some input of the transaction is locked for another one. -/
def LocalState.lockConflict (l : LocalState) (tx : CTransaction) : Bool :=
  tx.vin.any fun txin =>
    match l.mapLockedInputs txin.prevout with
    | none => false
    | some locked => locked != tx.hash

/-- The lock section of `CheckBlock`. -/
def LocalState.checkLocks (l : LocalState) (block : CBlock) : Validated Unit :=
  require (l.isSporkActive .swiftTxBlockFiltering = true →
    ∀ tx ∈ block.vtx, tx.isCoinBase = false → l.lockConflict tx = false) (dos 0 "conflicting-tx-ix")

/-! ## §4. Payments. -/

/-- The cold-stake part of the payment section. -/
def NodeEnv.checkColdStakePart (block : CBlock) (nHeight : Int) : Validated Unit :=
  if block.isProofOfStake then do
    let coinstake ← orStop block.vtx[1]? .thrown
    let free ← orStop (env.checkColdStakeFreeOutput coinstake nHeight) .thrown
    require (free = true) (dos 0 "bad-p2cs-outs")
  else .ok ()

/-- The payment section of `CheckBlock`; the result is `fColdStakingActive`. -/
def NodeEnv.checkPayments (block : CBlock) : Validated Bool :=
  match env.chain.getLast? with
  | none => .ok true
  | some tip =>
    let nHeight := env.heightOnIndex tip block
    if nHeight ≠ 0 ∧ env.loc.initialBlockDownload = false then do
      env.checkColdStakePart block nHeight
      let payee ← orStop (isBlockPayeeValid env.params env.loc block nHeight) .thrown
      require (payee = true) (dos 0 "bad-cb-payee")
      return env.loc.isSporkActive .coldStakingEnforcement
    else .ok true

/-! ## §5. The transactions, and the whole check. -/

def LocalState.checkPublicCoinSpendVersion (l : LocalState) (version : Nat) : Bool :=
  version == if l.isSporkActive .zerocoinPublicSpendV4 then 4 else 3

/-- The spend of a zerocoin input in `CheckBlock`; a public one needs the current version. -/
def NodeEnv.versionedSpend (tx : CTransaction) (txin : CTxIn) : Validated CoinSpend :=
  if txin.isZerocoinPublicSpend then do
    let spend ← env.parseZerocoinPublicSpend txin tx
    require (env.loc.initialBlockDownload = true
      ∨ env.loc.checkPublicCoinSpendVersion spend.version = true) (dos 0 "bad-zcspend-version")
    return spend
  else orStop (env.crypto.coinSpend txin) .thrown

/-- One zerocoin input in the duplicate-serial loop of `CheckBlock`. -/
def NodeEnv.checkBlockSerial (tx : CTransaction) (vBlockSerials : List Nat) (txin : CTxIn) : Validated (List Nat) :=
  if txin.isZerocoinSpend || txin.isZerocoinPublicSpend then do
    let spend ← env.versionedSpend tx txin
    require (spend.coinSerialNumber ∉ vBlockSerials) (dos 100)
    return vBlockSerials ++ [spend.coinSerialNumber]
  else .ok vBlockSerials

def zerocoinActive (params : ConsensusParams) (block : CBlock) : Bool :=
  decide (params.ZC_TimeStart < block.nTime)

def NodeEnv.checkBlockTx (fZerocoinActive fColdStakingActive : Bool)
    (vBlockSerials : List Nat) (tx : CTransaction) : Validated (List Nat) := do
  env.checkTransaction tx fZerocoinActive fColdStakingActive
  if tx.hasZerocoinSpendInputs then tx.vin.foldlM (env.checkBlockSerial tx) vBlockSerials
  else .ok vBlockSerials

/-- `CheckBlock` of a block without the `fChecked` mark. -/
def NodeEnv.checkBlock (block : CBlock) (fCheckMerkleRoot : Bool) : Validated Unit := do
  checkBlockShape env.params env.crypto block fCheckMerkleRoot
  env.loc.checkLocks block
  let fColdStakingActive ← env.checkPayments block
  let _vBlockSerials ← block.vtx.foldlM
    (env.checkBlockTx (zerocoinActive env.params block) fColdStakingActive) []
  require ((block.vtx.map getLegacySigOpCount).sum
      ≤ if zerocoinActive env.params block then MAX_BLOCK_SIGOPS_CURRENT else MAX_BLOCK_SIGOPS_LEGACY)
    (.invalid 100 "bad-blk-sigops" true)

end

/-- **A block of the right shape starts with its only coinbase.** -/
theorem checkBlockShape_coinBase {params : ConsensusParams} {crypto : Crypto}
    (h : checkBlockShape params crypto block fCheckMerkleRoot = .ok ()) :
    ∃ tx vtx, block.vtx = tx :: vtx ∧ tx.isCoinBase = true ∧ ∀ tx ∈ vtx, tx.isCoinBase = false := by
  unfold checkBlockShape at h
  simp only [bind_eq_ok, require_eq_ok] at h
  obtain ⟨-, -, -, -, -, -, -, hfirst, -, hothers, -⟩ := h
  cases hvtx : block.vtx with
  | nil =>
    rw [hvtx] at hfirst
    obtain ⟨tx, htx, -⟩ := hfirst
    cases htx
  | cons tx vtx => simp_all

theorem NodeEnv.checkBlock_shape {env : NodeEnv} (h : env.checkBlock block fCheckMerkleRoot = .ok ()) :
    checkBlockShape env.params env.crypto block fCheckMerkleRoot = .ok () := by
  unfold NodeEnv.checkBlock at h
  rw [bind_eq_ok] at h
  obtain ⟨⟨⟩, hshape, -⟩ := h
  exact hshape

end PwrbCore
