/-
  Mempool.Accept — WHAT MAY ENTER THE POOL (`AcceptToMemoryPool`, `AcceptableInputs`, `IsStandardTx`,
  `GetMinRelayFee`, `CheckFinalTx` of `main.cpp`).

  `RelayPolicy` is the node's relay configuration with the answers that are floating-point
  priorities, a rate limiter over wall-clock time, or scripts run under the standard flags.
-/
import PwrbCore.Chain.BlockTime
import PwrbCore.Mempool.Pool
import PwrbCore.Validation.ConnectBlock
import PwrbCore.Validation.ContextualCheck

namespace PwrbCore

open Checked

/-! ## §1. Finality. -/

section

variable (env : NodeEnv)

/-- `CheckFinalTx` under `STANDARD_LOCKTIME_VERIFY_FLAGS`. -/
def NodeEnv.checkFinalTx (tx : CTransaction) : Bool :=
  env.isFinalTx tx (env.chainHeight + 1) (medianTimePast env.chain)

/-! ## §2. Standard transactions. -/

/-- The relay policy of a node and the answers it reads off clocks and doubles. -/
structure RelayPolicy where
  /-- `minRelayTxFee`, in satoshis per 1000 bytes -/
  minRelayTxFee : Int := 10000
  fIsBareMultisigStd : Bool := true
  /-- `-datacarrier` -/
  dataCarrier : Bool := true
  nMaxDatacarrierBytes : Nat := 83
  /-- `GetSerializeSize` of an output -/
  txOutSize : CTxOut → Nat
  /-- `AreInputsStandard` -/
  areInputsStandard : CTransaction → CCoinsView → Bool
  /-- the scripts of the inputs pass under `STANDARD_SCRIPT_VERIFY_FLAGS` -/
  standardScripts : CTransaction → CCoinsView → Bool
  /-- `mapDeltas` raises the priority or the fee of the transaction -/
  prioritised : Uint256 → Bool
  /-- `-relaypriority` is off, or `AllowFree(view.GetPriority(tx, chainHeight + 1))` -/
  allowFree : CTransaction → CCoinsView → Bool
  /-- the limiter of free transactions is exhausted -/
  rateLimited : Bool
  /-- `GetTime()` -/
  now : Int

section

variable (policy : RelayPolicy)

def RelayPolicy.getFee (nSize : Nat) : Int :=
  let nFee := policy.minRelayTxFee * nSize / 1000
  if nFee = 0 ∧ 0 < policy.minRelayTxFee then policy.minRelayTxFee else nFee

/-- `IsStandard`, with the type of the script. -/
def RelayPolicy.isStandard (scriptPubKey : CScript) : Option TxnOutType :=
  match solver scriptPubKey with
  | none => none
  | some (.multiSig, vSolutions) =>
    let m := (vSolutions.head?.bind List.head?).getD 0
    let n := (vSolutions.getLast?.bind List.head?).getD 0
    if n < 1 ∨ 3 < n ∨ m < 1 ∨ n < m then none else some .multiSig
  | some (.nullData, _) =>
    if policy.dataCarrier = false ∨ policy.nMaxDatacarrierBytes < scriptPubKey.length then none
    else some .nullData
  | some (.nonStandard, _) => none
  | some (whichType, _) => some whichType

def RelayPolicy.isDust (txout : CTxOut) : Bool :=
  decide (txout.nValue < 3 * policy.getFee (policy.txOutSize txout + 148))

def MAX_STANDARD_TX_SIZE : Nat := 100000

/-- One input in `IsStandardTx`. -/
def standardTxIn (_ : Unit) (txin : CTxIn) : Validated Unit :=
  if txin.isZerocoinSpend || txin.isZerocoinPublicSpend then .ok ()
  else do
    require (txin.scriptSig.length ≤ 1650) (dos 0 "scriptsig-size")
    require (CScript.isPushOnly txin.scriptSig = true) (dos 0 "scriptsig-not-pushonly")

/-- One output in `IsStandardTx`, with the data outputs counted so far. -/
def RelayPolicy.standardTxOut (nDataOut : Nat) (txout : CTxOut) : Validated Nat :=
  match policy.isStandard txout.scriptPubKey with
  | none => .error (dos 0 "scriptpubkey")
  | some .nullData => .ok (nDataOut + 1)
  | some whichType =>
    if whichType = .multiSig ∧ policy.fIsBareMultisigStd = false then .error (dos 0 "bare-multisig")
    else if policy.isDust txout then .error (dos 0 "dust")
    else .ok nDataOut

/-- `IsStandardTx`, as `AcceptToMemoryPool` reports it. -/
def NodeEnv.isStandardTx (tx : CTransaction) : Validated Unit := do
  require (tx.nVersion = 1) (dos 0 "version")
  require (env.isFinalTx tx (env.chainHeight + 1) 0 = true) (dos 0 "non-final")
  require (env.crypto.txSize tx < if tx.containsZerocoins then MAX_ZEROCOIN_TX_SIZE else MAX_STANDARD_TX_SIZE)
    (dos 0 "tx-size")
  tx.vin.foldlM standardTxIn ()
  let nDataOut ← tx.vout.foldlM policy.standardTxOut 0
  require (nDataOut ≤ 1) (dos 0 "multi-op-return")

/-! ## §3. Fees. -/

def DEFAULT_BLOCK_PRIORITY_SIZE : Nat := 50000

/-- `GetMinRelayFee` with `fAllowFree`. -/
def RelayPolicy.getMinRelayFee (params : ConsensusParams) (tx : CTransaction) (nBytes : Nat) : Int :=
  if policy.prioritised tx.hash then 0
  else
    let nMinFee := if nBytes < DEFAULT_BLOCK_PRIORITY_SIZE - 1000 then 0 else policy.getFee nBytes
    if params.moneyRange nMinFee then nMinFee else params.nMaxMoneyOut

/-- The fee section.  A zerocoin spend is only asked for its priority. -/
def NodeEnv.checkRelayFee (tx : CTransaction) (view : CCoinsView)
    (nFees : Int) (fLimitFree : Bool) : Validated Unit := do
  let nSize := env.crypto.txSize tx
  require (¬ (fLimitFree = true ∧ nFees < policy.getMinRelayFee env.params tx nSize
    ∧ tx.hasZerocoinSpendInputs = false)) (dos 0 "insufficient fee")
  require (¬ (nFees < policy.getFee nSize ∧ policy.allowFree tx view = false)) (dos 0 "insufficient priority")
  require (¬ (fLimitFree = true ∧ nFees < policy.getFee nSize ∧ tx.hasZerocoinSpendInputs = false
    ∧ policy.rateLimited = true)) (dos 0 "rate limited free transaction")

/-! ## §4. The sections of `AcceptToMemoryPool`. -/

def NodeEnv.withPool (pool : CTxMemPool) : NodeEnv :=
  { env with loc := { env.loc with mempool := pool.lookup } }

def NodeEnv.checkLooseTx (tx : CTransaction) : Validated Unit :=
  match env.checkTransaction tx (decide (env.params.height_start_ZC ≤ env.chainHeight))
      (env.loc.isSporkActive .coldStakingEnforcement) with
  | .error e => .error (e.andDoS 100 "bad-tx")
  | .ok () => .ok ()

def NodeEnv.acceptLoose (tx : CTransaction) : Validated Unit := do
  require (¬ (env.loc.isSporkActive .zerocoinMaintenanceMode = true ∧ tx.containsZerocoins = true))
    (dos 10 "bad-tx")
  env.checkLooseTx tx
  require (tx.isCoinBase = false) (dos 100 "coinbase")
  require (tx.isCoinStake = false) (dos 100 "coinstake")
  require (env.checkFinalTx tx = true) (dos 0 "non-final")
  checkIf (env.params.network ≠ .regtest) (env.isStandardTx policy tx)

/-- The transaction is new and conflicts with no lock and no pool transaction. -/
def NodeEnv.checkPoolConflicts (pool : CTxMemPool) (tx : CTransaction) : Validated Unit := do
  require (pool.mapTx.get tx.hash = none) .returned
  require (env.loc.lockConflict tx = false) (dos 0 "tx-lock-conflict")
  require (tx.hasZerocoinSpendInputs = false → ∀ txin ∈ tx.vin, pool.mapNextTx.get txin.prevout = none) .returned

/-- `ZPWRBModule::ParseZerocoinPublicSpend`, with the test of `parseCoinSpend` first. -/
def NodeEnv.parsePublicSpend (tx : CTransaction) (txin : CTxIn) : Validated CoinSpend :=
  match env.getOutput txin.prevout with
  | .error e => .error (e.andDoS 100)
  | .ok prevOut => do
    require (txin.isZerocoinPublicSpend = true ∧ prevOut.isZerocoinMint = true)
      (dos 0 "bad-txns-invalid-zpwrb")
    orStop (env.crypto.parseCoinSpend txin tx prevOut) (dos 0 "bad-txns-invalid-zpwrb")

/-- One input of a transaction with zerocoin spends. -/
def NodeEnv.acceptSpend (tx : CTransaction) (_ : Unit) (txin : CTxIn) : Validated Unit := do
  require (txin.isZerocoinPublicSpend = true) (dos 0 "bad-txns-invalid-zpwrb")
  let publicSpend ← env.parsePublicSpend tx txin
  require (env.contextualCheckZerocoinSpend tx publicSpend env.chainHeight = true)
    (dos 0 "bad-txns-invalid-zpwrb")
  require (env.loc.checkPublicCoinSpendVersion publicSpend.version = true) (dos 0 "bad-txns-invalid-zpwrb")

/-- The zerocoin branch: every input is a public spend the chain has not seen. -/
def NodeEnv.acceptSpends (tx : CTransaction) : Validated Unit := do
  require (env.isTransactionInChain tx.hash = none) (dos 0 "bad-txns-inputs-spent")
  tx.vin.foldlM (env.acceptSpend tx) ()

/-- `HaveCoins`: it goes by the length of `vout`. -/
def CCoinsView.haveCoins (view : CCoinsView) (txid : Uint256) : Bool :=
  match view.accessCoins txid with
  | none => false
  | some coins => !coins.vout.isEmpty

/-- One input of the ordinary branch: its transaction has coins, and it is not a fraudulent one. -/
def NodeEnv.acceptInput (view : CCoinsView) (_ : Unit) (txin : CTxIn) : Validated Unit := do
  require (view.haveCoins txin.prevout.hash = true) .returned
  require (validOutPoint env.params env.crypto.invalidOut txin.prevout env.chainHeight = true)
    (dos 0 "bad-txns-invalid-inputs")

/-- The ordinary branch on the coins of tip and pool, up to the test for mints. -/
def NodeEnv.acceptInputs (tx : CTransaction) (view : CCoinsView) : Validated Unit := do
  require (view.haveCoins tx.hash = false) .returned
  tx.vin.foldlM (env.acceptInput view) ()

def MAX_TX_SIGOPS_CURRENT : Nat := MAX_BLOCK_SIGOPS_CURRENT / 5

def NodeEnv.getSpendHeight (view : CCoinsView) : Validated Int := do
  let nHeight ← orStop (env.mapBlockIndex view.bestBlock) .thrown
  return nHeight + 1

/-- `CheckInputs` with the queue of script checks left out: scripts run at once. -/
def NodeEnv.checkInputsNow (tx : CTransaction) (view : CCoinsView) (fScriptChecks : Bool) : Validated Unit := do
  let nSpendHeight ← env.getSpendHeight view
  let _ ← NodeEnv.checkInputs { env with loc := { env.loc with scriptCheckThreads := false } } tx view
    nSpendHeight fScriptChecks
    { dersig := false, checkLockTimeVerify := decide (env.params.height_start_BIP65 ≤ env.chainHeight) }
  return ()

/-! ## §5. The two functions. -/

/-- The inputs of the transaction are there, by either branch. -/
def NodeEnv.acceptBranch (tx : CTransaction) (view : CCoinsView) : Validated Unit :=
  if tx.hasZerocoinSpendInputs then env.acceptSpends tx
  else do
    env.acceptInputs tx view
    require (env.params.network ≠ .regtest → tx.hasZerocoinMintOutputs = false)
      (dos 0 "bad-txns-invalid-outputs")
    require (view.haveInputs tx = true) (dos 0 "bad-txns-inputs-spent")

/-- The tests once the inputs are known: standard inputs, signature operations, fees, scripts. Zerocoin spends pay no
relay fee and have no scripts. -/
def NodeEnv.acceptCosts (tx : CTransaction) (view : CCoinsView)
    (nFees : Int) (fLimitFree fRejectInsaneFee ignoreFees : Bool) : Validated Unit := do
  require (env.params.network ≠ .regtest → policy.areInputsStandard tx view = true) .returned
  require (tx.hasZerocoinSpendInputs = false →
      getLegacySigOpCount tx + getP2SHSigOpCount tx view ≤ MAX_TX_SIGOPS_CURRENT)
    (dos 0 "bad-txns-too-many-sigops")
  checkIf (!ignoreFees && !tx.hasZerocoinSpendInputs)
    (env.checkRelayFee policy tx view nFees fLimitFree)
  require (¬ (fRejectInsaneFee = true ∧ policy.getFee (env.crypto.txSize tx) * 10000 < nFees)) .returned
  require (env.params.network ≠ .regtest → tx.hasZerocoinSpendInputs = false → nFees ≠ 0) .returned
  checkIf (!tx.hasZerocoinSpendInputs) do
    require (policy.standardScripts tx view = true) .returned
    env.checkInputsNow tx view true

/-- The tests of `AcceptToMemoryPool`; the result is the fee. -/
def NodeEnv.checkAcceptable (pool : CTxMemPool) (tx : CTransaction)
    (fLimitFree fRejectInsaneFee ignoreFees : Bool) : Validated Int := do
  env.acceptLoose policy tx
  env.checkPoolConflicts pool tx
  let view := pool.viewOver env.coinsTip
  env.acceptBranch tx view
  let nValueOut ← orStop tx.getValueOut .thrown
  env.acceptCosts policy tx view (view.getValueIn tx - nValueOut) fLimitFree fRejectInsaneFee ignoreFees
  return view.getValueIn tx - nValueOut

/-- `AcceptToMemoryPool`: the pool with the transaction in it. -/
def NodeEnv.acceptToMemoryPool (pool : CTxMemPool) (tx : CTransaction)
    (fLimitFree fRejectInsaneFee ignoreFees : Bool) : Validated CTxMemPool := do
  let nFees ← (env.withPool pool).checkAcceptable policy pool tx fLimitFree fRejectInsaneFee ignoreFees
  return pool.addUnchecked tx.hash
    { tx := tx, nFee := nFees, nTxSize := env.crypto.txSize tx, nTime := policy.now, nHeight := env.chainHeight }

/-- `AcceptableInputs`: `AcceptToMemoryPool` without policy on the transaction itself and without scripts. -/
def NodeEnv.acceptableInputs (pool : CTxMemPool) (tx : CTransaction)
    (fLimitFree fRejectInsaneFee isDSTX : Bool) : Validated Unit := do
  let env := env.withPool pool
  env.checkTransaction tx (decide (env.params.height_start_ZC ≤ env.chainHeight)) false
  require (tx.isCoinBase = false) (dos 100 "coinbase")
  env.checkPoolConflicts pool tx
  let view := pool.viewOver env.coinsTip
  env.acceptInputs tx view
  require (view.haveInputs tx = true) (dos 0 "bad-txns-inputs-spent")
  require (getLegacySigOpCount tx + getP2SHSigOpCount tx view ≤ MAX_TX_SIGOPS_CURRENT)
    (dos 0 "bad-txns-too-many-sigops")
  let nValueOut ← orStop tx.getValueOut .thrown
  let nFees := view.getValueIn tx - nValueOut
  checkIf (!isDSTX) (env.checkRelayFee policy tx view nFees fLimitFree)
  require (¬ (fRejectInsaneFee = true ∧ policy.getFee (env.crypto.txSize tx) * 10000 < nFees)) .returned
  checkIf (!tx.hasZerocoinSpendInputs) (env.checkInputsNow tx view false)

end

end

/-! ## §6. Reading an acceptance backwards. -/

/-- What a transaction that entered the pool passed. -/
structure AcceptedTx (env : NodeEnv) (pool : CTxMemPool) (tx : CTransaction) (pool' : CTxMemPool) : Prop where
  checked : ∃ fZerocoinActive fColdStakingActive,
    (env.withPool pool).checkTransaction tx fZerocoinActive fColdStakingActive = .ok ()
  not_coinBase : tx.isCoinBase = false
  new : pool.mapTx.get tx.hash = none
  free : tx.hasZerocoinSpendInputs = false → ∀ txin ∈ tx.vin, pool.mapNextTx.get txin.prevout = none
  branch : (env.withPool pool).acceptBranch tx (pool.viewOver env.coinsTip) = .ok ()
  result : ∃ entry, entry.tx = tx ∧ pool' = pool.addUnchecked tx.hash entry

/-- **Inversion of `acceptToMemoryPool`.** -/
theorem NodeEnv.acceptToMemoryPool_eq_ok {env : NodeEnv} {policy : RelayPolicy} {pool pool' : CTxMemPool}
    {tx : CTransaction} {fLimitFree fRejectInsaneFee ignoreFees : Bool}
    (h : env.acceptToMemoryPool policy pool tx fLimitFree fRejectInsaneFee ignoreFees = .ok pool') :
    AcceptedTx env pool tx pool' := by
  unfold NodeEnv.acceptToMemoryPool NodeEnv.checkAcceptable at h
  simp only [bind_eq_ok] at h
  obtain ⟨nFees, ⟨⟨⟩, hloose, ⟨⟩, hconflicts, ⟨⟩, hbranch, _, -, _, -, -⟩, hpool⟩ := h
  unfold NodeEnv.acceptLoose at hloose
  unfold NodeEnv.checkPoolConflicts at hconflicts
  simp only [bind_eq_ok, require_eq_ok] at hloose hconflicts
  obtain ⟨_, -, ⟨⟩, hcheck, _, hbase, -⟩ := hloose
  obtain ⟨_, hnew, _, -, hfree⟩ := hconflicts
  have hchecked : ∃ fZerocoinActive fColdStakingActive,
      (env.withPool pool).checkTransaction tx fZerocoinActive fColdStakingActive = .ok () := by
    grind [.checkLooseTx]
  exact ⟨hchecked, hbase, hnew, hfree, hbranch, _, rfl, (Except.ok.inj hpool).symm⟩

end PwrbCore
