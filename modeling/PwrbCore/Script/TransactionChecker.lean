/-
  Script.TransactionChecker — THE CHECKER OF AN INPUT (`TransactionSignatureChecker` of `script/interpreter.cpp`).

  What the interpreter asks about the transaction it runs for: whether a signature signs it,
  whether its lock time has come, whether it is a cold stake.
-/
import PwrbCore.Script.Interpreter
import PwrbCore.Script.SignatureHash

namespace PwrbCore

section

variable (hash : List UInt8 → Uint256) (verify : ValType → Uint256 → ValType → Bool) (txTo : CTransaction) (nIn : Nat)

/-- `TransactionSignatureChecker::CheckSig`; the hash type is the signature's last byte. -/
def CTransaction.checkSig (vchSigIn vchPubKey : ValType) (scriptCode : CScript) : Bool :=
  if pubKeyValid vchPubKey = false then false
  else
    match vchSigIn.getLast? with
    | none => false
    | some nHashType =>
      verify vchPubKey (signatureHash hash scriptCode txTo nIn nHashType.toUInt32) vchSigIn.dropLast

/-- `TransactionSignatureChecker::CheckLockTime`. -/
def CTransaction.checkLockTime (txTo : CTransaction) (nIn : Nat) (nLockTime : Int) : Bool :=
  if ¬ ((txTo.nLockTime < LOCKTIME_THRESHOLD ∧ nLockTime < LOCKTIME_THRESHOLD)
      ∨ (LOCKTIME_THRESHOLD ≤ txTo.nLockTime ∧ LOCKTIME_THRESHOLD ≤ nLockTime)) then false
  else if (txTo.nLockTime : Int) < nLockTime then false
  else
    match txTo.vin[nIn]? with
    | none => false
    | some txin => !txin.isFinal

/-- `TransactionSignatureChecker`; `hash` is that of `SignatureHash`, `verify` is `CPubKey::Verify`. -/
def transactionSignatureChecker : SignatureChecker where
  checkSig := txTo.checkSig hash verify nIn
  checkLockTime := txTo.checkLockTime nIn
  checkColdStake := fun script => txTo.checkColdStake script

end

end PwrbCore
