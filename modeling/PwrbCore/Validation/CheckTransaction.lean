/-
  Validation.CheckTransaction — CHECKS ON ONE TRANSACTION: signature operation counts (`CScript::GetSigOpCount`,
  `GetLegacySigOpCount`, `GetP2SHSigOpCount`), `CheckZerocoinSpend` of
  `consensus/zerocoin_verify.cpp` and `CheckTransaction` of `consensus/tx_verify.cpp`.
-/
import PwrbCore.Node.Env

namespace PwrbCore

open Checked

/-! ## §1. Signature operations. -/

/-- `DecodeOP_N` of an opcode between `OP_1` and `OP_16`. -/
def decodeOpN (opcode : Opcode) : Nat := opcode.toNat - (OP_1.toNat - 1)

/-- The loop of `GetSigOpCount(fAccurate)`; every instruction consumes a byte, so the length is enough fuel. -/
def sigOpLoop (fAccurate : Bool) : Nat → CScript → Opcode → Nat → Nat
  | 0, _, _, n => n
  | fuel + 1, pc, lastOpcode, n =>
    match CScript.getOp pc with
    | none => n
    | some (opcode, _, pc) =>
      let ops :=
        if opcode = OP_CHECKSIG ∨ opcode = OP_CHECKSIGVERIFY then 1
        else if opcode = OP_CHECKMULTISIG ∨ opcode = OP_CHECKMULTISIGVERIFY then
          if fAccurate ∧ OP_1 ≤ lastOpcode ∧ lastOpcode ≤ OP_16 then decodeOpN lastOpcode else 20
        else 0
      sigOpLoop fAccurate fuel pc opcode (n + ops)

/-- `CScript::GetSigOpCount(fAccurate)`; the loop starts with `OP_INVALIDOPCODE`. -/
def CScript.getSigOpCount (script : CScript) (fAccurate : Bool) : Nat :=
  sigOpLoop fAccurate script.length script 0xff 0

/-- The last element a scriptSig pushes; `none` if it is not push-only. -/
def lastPush : Nat → CScript → List UInt8 → Option (List UInt8)
  | 0, _, data => some data
  | fuel + 1, pc, data =>
    if pc = [] then some data
    else
      match CScript.getOp pc with
      | none => none
      | some (opcode, data, pc) => if OP_16 < opcode then none else lastPush fuel pc data

/-- `CScript::GetSigOpCount(scriptSig)`. -/
def CScript.getSigOpCountFor (script scriptSig : CScript) : Nat :=
  if !script.isPayToScriptHash then script.getSigOpCount true
  else
    match lastPush scriptSig.length scriptSig [] with
    | none => 0
    | some subscript => CScript.getSigOpCount subscript true

def getLegacySigOpCount (tx : CTransaction) : Nat :=
  (tx.vin.map fun txin => txin.scriptSig.getSigOpCount false).sum
    + (tx.vout.map fun txout => txout.scriptPubKey.getSigOpCount false).sum

/-- `GetP2SHSigOpCount` of a transaction whose inputs are in the view. -/
def getP2SHSigOpCount (tx : CTransaction) (inputs : CCoinsView) : Nat :=
  if tx.isCoinBase || tx.hasZerocoinSpendInputs then 0
  else
    (tx.vin.map fun txin =>
      match inputs.getOutputFor txin.prevout with
      | none => 0
      | some prevout =>
        if prevout.scriptPubKey.isPayToScriptHash then
          prevout.scriptPubKey.getSigOpCountFor txin.scriptSig
        else 0).sum

/-! ## §2. Zerocoin spends. -/

section

variable (env : NodeEnv) (tx : CTransaction)

/-- The spend of an input in `CheckZerocoinSpend`, with the output of a public spend. -/
def NodeEnv.spendOf (txin : CTxIn) : Validated (CoinSpend × Option CTxOut) :=
  if txin.isZerocoinPublicSpend then
    match env.getOutput txin.prevout with
    | .error e => .error (e.andDoS 100)
    | .ok prevOut => do
      let spend ← orStop (env.crypto.parseCoinSpend txin tx prevOut) (dos 100)
      return (spend, some prevOut)
  else do
    let spend ← orStop (env.crypto.coinSpend txin) .thrown
    return (spend, none)

/-- One input in `CheckZerocoinSpend`: serials seen, amount redeemed, `fValidated`. -/
def NodeEnv.checkSpendInput (acc : List Nat × Int × Bool) (txin : CTxIn) : Validated (List Nat × Int × Bool) :=
  if !txin.isZerocoinSpend && !txin.isZerocoinPublicSpend then .ok acc
  else do
    let (newSpend, prevOut) ← env.spendOf tx txin
    require (newSpend.denomination ≠ none) (dos 100)
    require (newSpend.denominationInt = txin.nSequence) (dos 100)
    require (newSpend.txOutHash = env.crypto.txOutHash tx.vout) (dos 100)
    require (∀ out ∈ prevOut, env.crypto.validateInput txin out tx = true) (dos 100)
    require (newSpend.coinSerialNumber ∉ acc.1) (dos 100)
    return (newSpend.coinSerialNumber :: acc.1, acc.2.1 + newSpend.denominationInt * COIN, true)

/-- A transaction that is no coinstake redeems at least what it pays. -/
def checkRedeemed (tx : CTransaction) (nTotalRedeemed : Int) : Validated Unit :=
  if tx.isCoinStake then .ok ()
  else do
    let nValueOut ← orStop tx.getValueOut .thrown
    require (nValueOut ≤ nTotalRedeemed) (dos 100)

def NodeEnv.checkZerocoinSpend : Validated Unit := do
  require (¬ (2 < tx.vout.length ∧ 2 < (tx.vout.filter fun o => !o.isZerocoinMint).length
    ∧ tx.isCoinStake = false)) (dos 100)
  let (_, nTotalRedeemed, fValidated) ← tx.vin.foldlM (env.checkSpendInput tx) ([], 0, false)
  checkRedeemed tx nTotalRedeemed
  require (fValidated = true) .returned

/-! ## §3. `CheckTransaction`. -/

def MAX_ZEROCOIN_TX_SIZE : Nat := 150000
def MIN_COLDSTAKING_AMOUNT : Int := 1 * COIN

/-- One output in `CheckTransaction`, with the running total. -/
def checkTxOut (params : ConsensusParams) (tx : CTransaction) (fColdStakingActive : Bool)
    (nValueOut : Int) (txout : CTxOut) : Validated Int := do
  require (¬ (txout.isEmpty = true ∧ tx.isCoinBase = false ∧ tx.isCoinStake = false)) (dos 100)
  require (0 ≤ txout.nValue) (dos 100 "bad-txns-vout-negative")
  require (txout.nValue ≤ params.nMaxMoneyOut) (dos 100 "bad-txns-vout-toolarge")
  require (params.moneyRange (nValueOut + txout.nValue) = true) (dos 100 "bad-txns-txouttotal-toolarge")
  require (txout.scriptPubKey.isPayToColdStaking = true → fColdStakingActive = true)
    (dos 10 "bad-txns-cold-stake")
  require (txout.scriptPubKey.isPayToColdStaking = true → MIN_COLDSTAKING_AMOUNT ≤ txout.nValue)
    (dos 100 "bad-txns-cold-stake")
  return nValueOut + txout.nValue

/-- One input in `CheckTransaction`: outpoints seen and private spends counted. -/
def checkTxIn (acc : List COutPoint × Nat) (txin : CTxIn) : Validated (List COutPoint × Nat) := do
  require (txin.prevout ∉ acc.1) (dos 100 "bad-txns-inputs-duplicate")
  return if !txin.isZerocoinSpend then (txin.prevout :: acc.1, acc.2)
    else if !txin.isZerocoinPublicSpend then (acc.1, acc.2 + 1)
    else acc

/-- A transaction with zerocoin spends has no other inputs, and its spends are valid. -/
def NodeEnv.checkOnlySpends : Validated Unit :=
  if tx.hasZerocoinSpendInputs then do
    require (∀ txin ∈ tx.vin, txin.isZerocoinSpend = true ∨ txin.isZerocoinPublicSpend = true) (dos 100)
    match env.checkZerocoinSpend tx with
    | .error e => .error (e.andDoS 100)
    | .ok () => .ok ()
  else .ok ()

/-- The zerocoin part of `CheckTransaction`. -/
def NodeEnv.checkZerocoinPart (fZerocoinActive : Bool) (nZCSpendCount : Nat) : Validated Unit :=
  if fZerocoinActive then do
    require (nZCSpendCount ≤ env.params.ZC_MaxSpendsPerTx) (dos 100)
    env.checkOnlySpends tx
  else .ok ()

/-- The shape of the inputs, at the end of `CheckTransaction`. -/
def checkInputShape (params : ConsensusParams) (tx : CTransaction) (fZerocoinActive : Bool) : Validated Unit :=
  if tx.isCoinBase then
    require (∀ txin ∈ tx.vin.head?, 2 ≤ txin.scriptSig.length ∧ txin.scriptSig.length ≤ 150)
      (dos 100 "bad-cb-length")
  else if fZerocoinActive && tx.hasZerocoinSpendInputs then
    require (tx.vin.length ≤ if tx.hasZerocoinPublicSpendInputs then params.ZC_MaxPublicSpendsPerTx
      else params.ZC_MaxSpendsPerTx) (dos 10 "bad-zerocoinspend")
  else
    require (∀ txin ∈ tx.vin, ¬ (txin.prevout.isNull = true ∧ fZerocoinActive = true
      ∧ txin.isZerocoinSpend = false)) (dos 10 "bad-txns-prevout-null")

/-- `CheckTransaction`. -/
def NodeEnv.checkTransaction (fZerocoinActive fColdStakingActive : Bool) : Validated Unit := do
  require (tx.vin ≠ []) (dos 10 "bad-txns-vin-empty")
  require (tx.vout ≠ []) (dos 10 "bad-txns-vout-empty")
  require (env.crypto.txSize tx ≤ MAX_ZEROCOIN_TX_SIZE) (dos 100 "bad-txns-oversize")
  let _nValueOut ← tx.vout.foldlM (checkTxOut env.params tx fColdStakingActive) 0
  let inputs ← tx.vin.foldlM checkTxIn ([], 0)
  env.checkZerocoinPart tx fZerocoinActive inputs.2
  checkInputShape env.params tx fZerocoinActive

end

/-! ## §4. What a checked transaction looks like. -/

/-- **A checked transaction names no outpoint twice.** -/
theorem foldlM_checkTxIn_nodup {vin : List CTxIn} {acc acc' : List COutPoint × Nat}
    (h : vin.foldlM checkTxIn acc = .ok acc') :
    ((vin.filter fun txin => !txin.isZerocoinSpend).map CTxIn.prevout).Nodup ∧ ∀ txin ∈ vin, txin.prevout ∉ acc.1 := by
  induction vin generalizing acc with
  | nil => exact ⟨List.nodup_nil, by simp⟩
  | cons txin vin ih =>
    obtain ⟨mid, hmid, hrun⟩ := foldlM_cons_eq_ok.mp h
    obtain ⟨hnew, hmid⟩ := require_bind_eq_ok.mp hmid
    obtain ⟨hnodup, hrest⟩ := ih hrun
    cases hmid
    cases hzc : txin.isZerocoinSpend with
    | false =>
      simp_all
    | true =>
      grind

end PwrbCore
