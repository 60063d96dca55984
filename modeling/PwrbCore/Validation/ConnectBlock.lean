/-
  Validation.ConnectBlock — CONNECTING A BLOCK (`CheckInputs`, `ConnectBlock` of `main.cpp`).

  `ConnectAcc` is what the loop over the transactions carries; `connectTx` is one turn of
  it, `connectBlock` the whole function.  The disk writes (undo file, transaction index,
  block index) are the returned value: `Connected` holds the new state, the undo records
  and the spends to be entered in `zerocoinDB`.
-/
import PwrbCore.Coins.BlockUndo
import PwrbCore.Validation.CheckBlock

namespace PwrbCore

open Checked NodeEnv

/-! ## §1. `CheckInputs`. -/

variable {tx : CTransaction} {fAlreadyChecked : Bool}

/-- One input in the first loop of `CheckInputs`, with the running total. -/
def checkTxInput (params : ConsensusParams) (inputs : CCoinsView) (nSpendHeight : Int) (nValueIn : Int)
    (txin : CTxIn) : Validated Int := do
  let coins ← orStop (inputs.accessCoins txin.prevout.hash) .thrown
  require ((coins.fCoinBase = true ∨ coins.fCoinStake = true) → params.nCoinbaseMaturity ≤ nSpendHeight - coins.nHeight)
    (dos 0 "bad-txns-premature-spend-of-coinbase")
  let out ← orStop coins.vout[txin.prevout.n]? .thrown
  require (params.moneyRange out.nValue = true ∧ params.moneyRange (nValueIn + out.nValue) = true)
    (dos 100 "bad-txns-inputvalues-outofrange")
  return nValueIn + out.nValue

/-- The amounts of a transaction that is no coinstake: it pays at most what it takes in, with a fee in range. -/
def checkFee (params : ConsensusParams) (tx : CTransaction) (nValueIn : Int) : Validated Unit :=
  if tx.isCoinStake then .ok ()
  else do
    let nValueOut ← orStop tx.getValueOut .thrown
    require (nValueOut ≤ nValueIn) (dos 100 "bad-txns-in-belowout")
    require (params.moneyRange (nValueIn - nValueOut) = true) (dos 100 "bad-txns-fee-outofrange")

/-- The scripts of the inputs, in order: the verdict of each `CScriptCheck`. -/
def scriptChecks (crypto : Crypto) (inputs : CCoinsView) (flags : ScriptFlags) (tx : CTransaction) : List Bool :=
  tx.vin.zipIdx.map fun (txin, nIn) =>
    match inputs.getOutputFor txin.prevout with
    | none => false
    | some out => crypto.verifyScript flags tx nIn out.scriptPubKey

/-- The failure of a script checked at once: no penalty when only a non-mandatory flag fails. -/
def scriptFailure (crypto : Crypto) (inputs : CCoinsView) (flags : ScriptFlags) (tx : CTransaction) : ValidationError :=
  let strict := scriptChecks crypto inputs flags tx
  let lax := scriptChecks crypto inputs { flags with dersig := false } tx
  match (strict.zip lax).find? fun p => !p.1 with
  | some (_, true) => dos 0 "non-mandatory-script-verify-flag"
  | _ => dos 100 "mandatory-script-verify-flag-failed"

section

variable (env : NodeEnv)

section

variable (tx : CTransaction)

/-- `CheckInputs`; the result is the queue of script checks, empty when made at once or skipped. -/
def NodeEnv.checkInputs (inputs : CCoinsView) (nSpendHeight : Int)
    (fScriptChecks : Bool) (flags : ScriptFlags) : Validated (List Bool) := do
  require (inputs.haveInputs tx = true) (dos 0)
  let nValueIn ← tx.vin.foldlM (checkTxInput env.params inputs nSpendHeight) 0
  checkFee env.params tx nValueIn
  if fScriptChecks then
    let checks := scriptChecks env.crypto inputs flags tx
    if env.loc.scriptCheckThreads then return checks
    else
      require (∀ ok ∈ checks, ok = true) (scriptFailure env.crypto inputs flags tx)
      return []
  else return []

/-! ## §2. The inputs of a transaction. -/

/-- What the inputs of one transaction add to the sums and queues of `ConnectBlock`. -/
structure TxInputs where
  nFees : Int := 0
  nValueIn : Int := 0
  nSigOps : Nat := 0
  spends : List CoinSpend := []
  vChecks : List Bool := []

def checkPublicCoinSpendEnforced (params : ConsensusParams) (blockHeight : Int) (isPublicSpend : Bool) : Bool :=
  if params.height_start_ZC_PublicSpends ≤ blockHeight then isPublicSpend else !isPublicSpend

def NodeEnv.parseSpend (txin : CTxIn) : Validated CoinSpend :=
  if txin.isZerocoinPublicSpend then env.parseZerocoinPublicSpend txin tx
  else orStop (env.crypto.coinSpend txin) .thrown

/-- One input of a transaction with zerocoin spends. -/
def NodeEnv.connectSpend (nHeight : Int) (acc : TxInputs) (txin : CTxIn) : Validated TxInputs :=
  if !txin.isZerocoinSpend && !txin.isZerocoinPublicSpend then .ok acc
  else do
    require (checkPublicCoinSpendEnforced env.params nHeight txin.isZerocoinPublicSpend = true) .returned
    let spend ← env.parseSpend tx txin
    require (env.contextualCheckZerocoinSpend tx spend nHeight = true) (dos 100)
    return { acc with
      nValueIn := acc.nValueIn + spend.denominationInt * COIN
      spends := acc.spends ++ [spend] }

/-- The zerocoin branch: the transaction must be new, unless old blocks are verified below it. -/
def NodeEnv.connectSpends (nHeight : Int) : Validated TxInputs := do
  require (∀ nHeightTx ∈ env.isTransactionInChain tx.hash, env.loc.verifyingBlocks = true ∧ nHeight ≤ nHeightTx)
    (dos 100 "bad-txns-inputs-missingorspent")
  tx.vin.foldlM (env.connectSpend tx nHeight) {}

def NodeEnv.fScriptChecks (nHeight : Int) : Bool :=
  decide (env.loc.totalBlocksEstimate ≤ nHeight)

def NodeEnv.blockScriptFlags (nHeight : Int) : ScriptFlags :=
  { checkLockTimeVerify :=
      env.fScriptChecks nHeight && decide (env.params.height_start_BIP65 ≤ nHeight - 1) }

/-- The fee of a transaction; a coinstake pays none. -/
def txFee (view : CCoinsView) : Validated Int :=
  if tx.isCoinStake then .ok 0
  else do
    let nValueOut ← orStop tx.getValueOut .thrown
    return view.getValueIn tx - nValueOut

/-- The ordinary branch.  `nSigOps` counts the block so far. -/
def NodeEnv.connectInputs (view : CCoinsView) (nHeight : Int) (nSigOps : Nat) : Validated TxInputs := do
  require (view.haveInputs tx = true) (dos 100 "bad-txns-inputs-missingorspent")
  require (∀ txin ∈ tx.vin, validOutPoint env.params env.crypto.invalidOut txin.prevout nHeight = true)
    (dos 100 "bad-txns-invalid-inputs")
  require (nSigOps + getP2SHSigOpCount tx view ≤ MAX_BLOCK_SIGOPS_CURRENT) (dos 100 "bad-blk-sigops")
  let nFees ← txFee tx view
  -- the view's best block is the parent, so the spending height is the block's
  let vChecks ← env.checkInputs tx view nHeight (env.fScriptChecks nHeight) (env.blockScriptFlags nHeight)
  return { nFees := nFees, nValueIn := view.getValueIn tx, nSigOps := getP2SHSigOpCount tx view,
           vChecks := vChecks }

/-- The inputs of a transaction: zerocoins, coins, or none. -/
def NodeEnv.txInputs (view : CCoinsView) (nHeight : Int) (nSigOps : Nat) : Validated TxInputs :=
  if tx.hasZerocoinSpendInputs then env.connectSpends tx nHeight
  else if !tx.isCoinBase then env.connectInputs tx view nHeight nSigOps
  else .ok {}

/-! ## §3. One transaction. -/

structure ConnectAcc where
  view : CCoinsView
  vtxundo : List (List CTxInUndo) := []
  nFees : Int := 0
  nValueIn : Int := 0
  nValueOut : Int := 0
  nValueBet : Int := 0
  nSigOps : Nat := 0
  vSpends : List (CoinSpend × Uint256) := []
  vChecks : List Bool := []

/-- What the transaction burns: its outputs whose text starts with `OP_RETURN`. -/
def CTransaction.valueBet : Int :=
  ((tx.vout.filter fun out => isOpReturnAsm out.scriptPubKey).map CTxOut.nValue).sum

end

/-- The mint section: mint outputs need an early height and must be public coins. -/
def checkMints (params : ConsensusParams) (tx : CTransaction) (nHeight : Int) : Validated Unit :=
  if tx.hasZerocoinMintOutputs then do
    require (nHeight < params.height_start_ZC_PublicSpends) (dos 100)
    -- `TxOutToPublicCoin` reports a failure of its own first
    require (∀ out ∈ tx.vout, out.isZerocoinMint = true → txOutToPublicCoin out ≠ none) (dos 200)
  else .ok ()

section

variable (block : CBlock) (nHeight : Int)

/-- One turn of the loop of `ConnectBlock`. -/
def NodeEnv.connectTx (acc : ConnectAcc) (tx : CTransaction) : Validated ConnectAcc := do
  require (acc.view.overwritable tx.hash = true) (dos 100 "bad-txns-BIP30")
  let nSigOps := acc.nSigOps + getLegacySigOpCount tx
  require (nSigOps ≤ MAX_BLOCK_SIGOPS_CURRENT) (dos 100 "bad-blk-sigops")
  require (¬ (env.loc.sporkValue .zerocoinMaintenanceMode < block.nTime
    ∧ env.loc.initialBlockDownload = false ∧ tx.containsZerocoins = true)) (dos 100)
  checkMints env.params tx nHeight
  let ins ← env.txInputs tx acc.view nHeight nSigOps
  let nValueOut ← orStop tx.getValueOut .thrown
  let (view, txundo) ← orStop (acc.view.updateCoins tx nHeight) .thrown
  return {
    view := view
    vtxundo := acc.vtxundo ++ [txundo]
    nFees := acc.nFees + ins.nFees
    nValueIn := acc.nValueIn + ins.nValueIn
    nValueOut := acc.nValueOut + nValueOut
    nValueBet := acc.nValueBet + tx.valueBet
    nSigOps := nSigOps + ins.nSigOps
    vSpends := acc.vSpends ++ ins.spends.map fun spend => (spend, tx.hash)
    vChecks := acc.vChecks ++ ins.vChecks }

/-! ## §4. The block. -/

/-- The state a block is connected to: the coins view and the supply counters. -/
structure ChainState where
  view : CCoinsView
  nMoneySupply : Int
  mapZerocoinSupply : ZerocoinSupply

structure Connected where
  state : ChainState
  /-- `CBlockUndo::vtxundo`: one record list for each transaction but the first -/
  vtxundo : List (List CTxInUndo)
  vSpends : List (CoinSpend × Uint256)

/-- The value created by the block: outputs minus inputs plus fees. -/
def ConnectAcc.nMint (acc : ConnectAcc) : Int := acc.nValueOut - acc.nValueIn + acc.nFees

/-- `GetBlockValue`, and the extra of proof-of-work. -/
def expectedMint : Int :=
  getBlockValue nHeight + if block.isProofOfWork then 100000 else 0

def NodeEnv.getInvalidUTXOValue : Int :=
  (env.crypto.invalidOut.outPoints.map fun out =>
    ((env.coinsTip.getOutputFor out).map CTxOut.nValue).getD 0).sum

/-- What leaves the money supply at `height_ZC_RecalcAccumulators`. -/
def NodeEnv.lockedValue (nHeight : Int) : Int :=
  if env.params.network = .main ∧ nHeight = env.params.height_ZC_RecalcAccumulators then
    env.getInvalidUTXOValue
  else 0

/-- `CheckBlock` as `ConnectBlock` calls it: a possibly corrupted block stops the node. -/
def NodeEnv.recheckBlock (block : CBlock) (fJustCheck fAlreadyChecked : Bool) : Validated Unit :=
  if fAlreadyChecked then .ok ()
  else
    match env.checkBlock block (!fJustCheck) with
    | .error (.invalid _ _ true) =>
      .error (.error "Corrupt block found indicating potential hardware failure; shutting down")
    | r => r

/-- The payout section: the amount the bet payouts add to the expected mint. -/
def NodeEnv.payoutMint : Validated Int :=
  match checkPayouts env.betEnv env.loc.sources env.loc.downloaded env.chain block nHeight with
  | .accepted nPayout => .ok nPayout
  | .rejected => .error (dos 100 "bad-cb-payout")
  | .thrown => .error .thrown

/-- `UpdateZPWRBSupplyConnect` as `ConnectBlock` reports it. -/
def NodeEnv.connectSupply (supply : ZerocoinSupply) : Validated ZerocoinSupply :=
  match updateZPWRBSupplyConnect env.params env.crypto.coinSpend env.crypto.invalidOut block nHeight
    supply with
  | .ok supply => .ok supply
  | .error .negative => .error (dos 100)
  | .error .thrown => .error .thrown

/-- `ConnectBlock` up to the `fJustCheck` line, for any block but the first. -/
def NodeEnv.connectTxs (view : CCoinsView) : Validated ConnectAcc := do
  require (env.params.height_last_PoW < nHeight ∨ block.isProofOfStake = false) (dos 100 "PoS-early")
  require (nHeight ≤ env.params.height_last_PoW ∨ block.isProofOfStake = true) (dos 100 "PoW-ended")
  let acc ← block.vtx.foldlM (env.connectTx block nHeight) { view := view }
  let nPayout ← env.payoutMint block nHeight
  require (env.isBlockValueValid block (expectedMint block nHeight + nPayout) acc.nMint = true)
    (dos 100 "bad-cb-amount")
  require (∀ ok ∈ acc.vChecks, ok = true) (dos 100 "block-validation-failed")
  return acc

/-- `ConnectBlock` at height `nHeight`; the parent's index entry is the one the header names. -/
def NodeEnv.connectBlock (st : ChainState) (fJustCheck fAlreadyChecked : Bool) : Validated Connected := do
  env.recheckBlock block fJustCheck fAlreadyChecked
  require (block.hashPrevBlock = st.view.bestBlock) .thrown
  if block.hash = env.params.hashGenesisBlock then
    return ⟨{ st with view := if fJustCheck then st.view else st.view.setBestBlock block.hash }, [], []⟩
  else
    let acc ← env.connectTxs block nHeight st.view
    if fJustCheck then return ⟨{ st with view := acc.view }, [], []⟩
    else
      let supply ← env.connectSupply block nHeight st.mapZerocoinSupply
      return ⟨{ view := acc.view.setBestBlock block.hash
                nMoneySupply := st.nMoneySupply - env.lockedValue nHeight
                  + (acc.nValueOut - acc.nValueIn - acc.nValueBet)
                mapZerocoinSupply := supply }, acc.vtxundo.tail, acc.vSpends⟩

end

end

/-! ## §5. Reading a successful run backwards. -/

variable {acc' : ConnectAcc} {st : ChainState}

theorem CTransaction.noSpends_of_free {tx : CTransaction} (h : tx.containsZerocoins = false) :
    tx.hasZerocoinSpendInputs = false := by
  unfold containsZerocoins at h
  simp only [Bool.or_eq_false_iff] at h
  exact h.1.1

/-- What a transaction that was connected passed and did. -/
structure ConnectTxOk (env : NodeEnv) (block : CBlock) (nHeight : Int) (acc : ConnectAcc)
    (tx : CTransaction) (acc' : ConnectAcc) where
  ins : TxInputs
  valueOut : Int
  view' : CCoinsView
  txundo : List CTxInUndo
  no_maintenance : ¬ (env.loc.sporkValue .zerocoinMaintenanceMode < block.nTime
    ∧ env.loc.initialBlockDownload = false ∧ tx.containsZerocoins = true)
  mints : checkMints env.params tx nHeight = .ok ()
  inputs : env.txInputs tx acc.view nHeight (acc.nSigOps + getLegacySigOpCount tx) = .ok ins
  valueOut_eq : tx.getValueOut = some valueOut
  coins : connectTxCoins nHeight tx acc.view = some (view', txundo)
  acc_eq : acc' = {
    view := view'
    vtxundo := acc.vtxundo ++ [txundo]
    nFees := acc.nFees + ins.nFees
    nValueIn := acc.nValueIn + ins.nValueIn
    nValueOut := acc.nValueOut + valueOut
    nValueBet := acc.nValueBet + tx.valueBet
    nSigOps := acc.nSigOps + getLegacySigOpCount tx + ins.nSigOps
    vSpends := acc.vSpends ++ ins.spends.map fun spend => (spend, tx.hash)
    vChecks := acc.vChecks ++ ins.vChecks }

variable {acc : ConnectAcc} {block : CBlock} {env : NodeEnv} {nHeight : Int}

/-- **Inversion of `connectTx`.** -/
theorem NodeEnv.connectTx_eq_ok (h : env.connectTx block nHeight acc tx = .ok acc') :
    Nonempty (ConnectTxOk env block nHeight acc tx acc') := by
  unfold connectTx at h
  simp only [bind_eq_ok, require_eq_ok, orStop_eq_ok] at h
  obtain ⟨-, hfree, -, -, -, hmaint, ⟨⟩, hmints, ins, hins, valueOut, hout, ⟨view', txundo⟩, hcoins,
    hacc⟩ := h
  refine ⟨⟨ins, valueOut, view', txundo, hmaint, hmints, hins, hout, ?_, ?_⟩⟩
  · unfold connectTxCoins
    rw [if_pos hfree]
    exact hcoins
  · cases hacc
    rfl

/-- A successful `GetValueOut` is the sum of the outputs, none of which is negative. -/
theorem CTransaction.getValueOut_eq_some {valueOut : Int} (h : tx.getValueOut = some valueOut) :
    valueOut = (tx.vout.map CTxOut.nValue).sum ∧ ∀ o ∈ tx.vout, 0 ≤ o.nValue := by
  have hfold : ∀ (vout : List CTxOut) (acc r : Int), vout.foldlM (fun acc o => if o.nValue < 0 then none
        else if INT64_MAX < acc + o.nValue then none else some (acc + o.nValue)) acc = some r →
      r = acc + (vout.map CTxOut.nValue).sum ∧ ∀ o ∈ vout, 0 ≤ o.nValue := by
    intro vout
    induction vout with
    | nil =>
      intro acc r hr
      cases hr
      simp
    | cons o vout ih =>
      intro acc r hr
      rw [List.foldlM_cons, Option.bind_eq_bind, Option.bind_eq_some_iff] at hr
      obtain ⟨mid, hmid, hrun⟩ := hr
      split_ifs at hmid
      cases hmid
      obtain ⟨hsum, hnonneg⟩ := ih _ r hrun
      rw [List.map_cons, List.sum_cons, List.forall_mem_cons]
      exact ⟨by omega, by omega, hnonneg⟩
  obtain ⟨hsum, hnonneg⟩ := hfold _ _ _ h
  exact ⟨hsum.trans (Int.zero_add _), hnonneg⟩

/-- **The loop as an undo log**: connecting runs the coin operations and keeps one record list each. -/
theorem NodeEnv.foldlM_connectTx_coins
    {vtx : List CTransaction} (h : vtx.foldlM (env.connectTx block nHeight) acc = .ok acc') :
    ∃ undos, acc'.vtxundo = acc.vtxundo ++ undos ∧ undos.length = vtx.length ∧
      connectCoins nHeight vtx acc.view = some (acc'.view, vtx.zip undos) ∧
      ∀ tx ∈ vtx, ∀ o ∈ tx.vout, 0 ≤ o.nValue := by
  induction vtx generalizing acc with
  | nil =>
    rw [foldlM_nil_eq_ok] at h
    subst h
    exact ⟨[], by simp, rfl, rfl, by simp⟩
  | cons tx vtx ih =>
    obtain ⟨mid, htx, hrun⟩ := foldlM_cons_eq_ok.mp h
    obtain ⟨ok⟩ := env.connectTx_eq_ok htx
    obtain ⟨undos, hundos, hlen, hcoins, hvalue⟩ := ih hrun
    rw [ok.acc_eq] at hundos hcoins
    refine ⟨ok.txundo :: undos, ?_, ?_, ?_, ?_⟩
    · rw [hundos, List.append_assoc]
      rfl
    · rw [List.length_cons, List.length_cons, hlen]
    · show UndoLog.run _ (tx :: vtx) acc.view = _
      unfold UndoLog.run
      rw [ok.coins]
      dsimp only
      have hrest : UndoLog.run (connectTxCoins nHeight) vtx ok.view' = some (acc'.view, vtx.zip undos) :=
        hcoins
      rw [hrest]
      rfl
    · grind [CTransaction.getValueOut_eq_some, ok.valueOut_eq]

/-- What a connected block passed and did. -/
structure ConnectBlockOk (env : NodeEnv) (block : CBlock) (nHeight : Int) (st : ChainState)
    (r : Connected) where
  acc : ConnectAcc
  nPayout : Int
  supply : ZerocoinSupply
  parent : block.hashPrevBlock = st.view.bestBlock
  kind : env.params.height_last_PoW < nHeight ↔ block.isProofOfStake = true
  loop : block.vtx.foldlM (env.connectTx block nHeight) { view := st.view } = .ok acc
  payout : env.payoutMint block nHeight = .ok nPayout
  value : env.isBlockValueValid block (expectedMint block nHeight + nPayout) acc.nMint = true
  supply_eq : env.connectSupply block nHeight st.mapZerocoinSupply = .ok supply
  result : r = ⟨{ view := acc.view.setBestBlock block.hash
                  nMoneySupply := st.nMoneySupply - env.lockedValue nHeight
                    + (acc.nValueOut - acc.nValueIn - acc.nValueBet)
                  mapZerocoinSupply := supply }, acc.vtxundo.tail, acc.vSpends⟩

/-- The map of denominations after the block is `UpdateZPWRBSupplyConnect`'s. -/
theorem ConnectBlockOk.counted {r : Connected} (ok : ConnectBlockOk env block nHeight st r) :
    updateZPWRBSupplyConnect env.params env.crypto.coinSpend env.crypto.invalidOut block nHeight st.mapZerocoinSupply
      = .ok ok.supply := by
  have h := ok.supply_eq
  unfold NodeEnv.connectSupply at h
  split at h <;> cases h
  assumption

/-- **Inversion of `connectBlock`**, for every block but the first. -/
theorem NodeEnv.connectBlock_eq_ok {r : Connected} (hgenesis : block.hash ≠ env.params.hashGenesisBlock)
    (h : env.connectBlock block nHeight st false fAlreadyChecked = .ok r) :
    Nonempty (ConnectBlockOk env block nHeight st r) := by
  unfold connectBlock connectTxs at h
  simp only [bind_eq_ok, require_eq_ok, if_neg hgenesis, Bool.false_eq_true, if_false] at h
  obtain ⟨-, -, -, hparent, acc, ⟨-, hearly, -, hended, acc', hloop, nPayout, hpayout, -, hvalue, -, -,
    hacc⟩, supply, hsupply, hr⟩ := h
  cases hacc
  cases hr
  refine ⟨⟨acc, nPayout, supply, hparent, ?_, hloop, hpayout, hvalue, hsupply, rfl⟩⟩
  grind

/-- The converse: a block that passes every section is connected. -/
theorem NodeEnv.exists_connectBlock {nPayout : Int} {supply : ZerocoinSupply}
    (hgenesis : block.hash ≠ env.params.hashGenesisBlock)
    (hrecheck : env.recheckBlock block false fAlreadyChecked = .ok ())
    (hparent : block.hashPrevBlock = st.view.bestBlock)
    (hkind : env.params.height_last_PoW < nHeight ↔ block.isProofOfStake = true)
    (hloop : block.vtx.foldlM (env.connectTx block nHeight) { view := st.view } = .ok acc)
    (hpayout : env.payoutMint block nHeight = .ok nPayout)
    (hvalue : env.isBlockValueValid block (expectedMint block nHeight + nPayout) acc.nMint = true)
    (hchecks : ∀ ok ∈ acc.vChecks, ok = true)
    (hsupply : env.connectSupply block nHeight st.mapZerocoinSupply = .ok supply) :
    ∃ r, env.connectBlock block nHeight st false fAlreadyChecked = .ok r := by
  have htxs : env.connectTxs block nHeight st.view = .ok acc := by
    refine require_bind_eq_ok.mpr ⟨?_, require_bind_eq_ok.mpr ⟨?_, ?_⟩⟩
    · simp_all
    · grind
    · refine bind_eq_ok.mpr ⟨acc, hloop, bind_eq_ok.mpr ⟨nPayout, hpayout, ?_⟩⟩
      exact require_bind_eq_ok.mpr ⟨hvalue, require_bind_eq_ok.mpr ⟨hchecks, rfl⟩⟩
  refine ⟨⟨{ view := acc.view.setBestBlock block.hash
             nMoneySupply := st.nMoneySupply - env.lockedValue nHeight
               + (acc.nValueOut - acc.nValueIn - acc.nValueBet)
             mapZerocoinSupply := supply }, acc.vtxundo.tail, acc.vSpends⟩, ?_⟩
  refine bind_eq_ok.mpr ⟨(), hrecheck, require_bind_eq_ok.mpr ⟨hparent, ?_⟩⟩
  rw [if_neg hgenesis]
  refine bind_eq_ok.mpr ⟨acc, htxs, ?_⟩
  exact bind_eq_ok.mpr ⟨supply, hsupply, rfl⟩

end PwrbCore
