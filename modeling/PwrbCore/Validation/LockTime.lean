/-
  Validation.LockTime — A LOCKED OUTPUT STAYS UNTIL ITS LOCK EXPIRES.

  `OP_CHECKLOCKTIMEVERIFY` compares its operand with the lock time of the transaction, and
  `IsFinalTx` compares that lock time with the block, unless all inputs are final; the opcode
  refuses a final input.

  Main result: `locked_output_waits`.
-/
import PwrbCore.Validation.ColdStake
import PwrbCore.Validation.ContextualCheck

namespace PwrbCore

open Checked CScriptNum

section

variable (crypto : ScriptCrypto) (flags : UInt32) (checker : SignatureChecker) (scriptSig scriptPubKey : CScript)

/-- The evaluations of `VerifyScript`: scriptSig, scriptPubKey, and under P2SH the script on top of the stack. -/
inductive VerifyEvaluates : List ValType → CScript → Prop
  | sig : VerifyEvaluates [] scriptSig
  | pubKey {stack : List ValType} (hsig : evalScript crypto flags checker [] scriptSig = .ok stack) :
    VerifyEvaluates stack scriptPubKey
  | redeem {top : ValType} {stack : List ValType}
      (hsig : evalScript crypto flags checker [] scriptSig = .ok (top :: stack))
    (hp2sh : (hasFlag flags SCRIPT_VERIFY_P2SH && scriptPubKey.isPayToScriptHash) = true) : VerifyEvaluates stack top

end

section

variable {crypto : ScriptCrypto} {flags : UInt32} {checker : SignatureChecker} {script : CScript} {stack : List ValType}

/-- Each evaluation of an accepted input ends well. -/
theorem VerifyEvaluates.ends {scriptSig scriptPubKey : CScript}
    (heval : VerifyEvaluates crypto flags checker scriptSig scriptPubKey stack script)
    (haccept : verifyScript crypto flags checker scriptSig scriptPubKey = .ok ()) :
    ∃ stack', evalScript crypto flags checker stack script = .ok stack' := by
  unfold verifyScript at haccept
  simp only [bind_eq_ok] at haccept
  obtain ⟨-, -, stackCopy, hcopy, stackEnd, hend, -, -, hrest⟩ := haccept
  cases heval with
  | sig => exact ⟨stackCopy, hcopy⟩
  | pubKey hsig =>
    rw [hsig] at hcopy
    cases hcopy
    exact ⟨stackEnd, hend⟩
  | redeem hsig hp2sh =>
    rw [hsig] at hcopy
    cases hcopy
    have hredeem := checkIf_eq_ok.mp hrest hp2sh
    unfold verifyRedeemScript at hredeem
    simp only [bind_eq_ok, orStop_eq_ok] at hredeem
    obtain ⟨-, -, serialized, htop, stackEnd, hend, -⟩ := hredeem
    cases htop
    exact ⟨stackEnd, hend⟩

/-- **The operand passed.**  The opcode leaves its operand on the stack, after the checker's answer. -/
theorem checkLockTime_of_executes {stack' : List ValType} {st : EvalState}
    (hflag : hasFlag flags SCRIPT_VERIFY_CHECKLOCKTIMEVERIFY = true)
    (hexec : ExecutesIn crypto flags checker stack script 0xb1 st)
    (h : evalScript crypto flags checker stack script = .ok stack') :
    ∃ top rest, st.stack = top :: rest ∧ 0 ≤ setVch top ∧ checker.checkLockTime (setVch top) = true := by
  obtain ⟨pc, st', hinstr⟩ := evalInstr_of_executes hexec (by decide) h
  have hlock : evalCheckLockTime flags checker (st.counted 0xb1) = .ok st' := hinstr
  unfold evalCheckLockTime at hlock
  rw [if_pos hflag, show (st.counted 0xb1).stack = st.stack from rfl] at hlock
  cases hstack : st.stack with
  | nil =>
    rw [hstack] at hlock
    cases hlock
  | cons top rest =>
    rw [hstack] at hlock
    simp only [scriptNumOf, bind_eq_ok, require_eq_ok] at hlock
    obtain ⟨n, ⟨-, -, -, -, hn⟩, -, hnonneg, -, hcheck, -⟩ := hlock
    cases hn
    exact ⟨top, rest, rfl, hnonneg, hcheck⟩

end

/-- What `CheckLockTime` lets pass: a lock of the same kind, not later, on an input that is not final. -/
theorem CTransaction.checkLockTime_spec {tx : CTransaction} {nIn : Nat} {n : Int} (h : tx.checkLockTime nIn n = true) :
    (tx.nLockTime < LOCKTIME_THRESHOLD ↔ n < LOCKTIME_THRESHOLD) ∧ n ≤ tx.nLockTime ∧
        tx.vin.all CTxIn.isFinal = false := by
  unfold checkLockTime at h
  split_ifs at h with hkind hlate
  refine ⟨by omega, by omega, ?_⟩
  cases hin : tx.vin[nIn]? with
  | none =>
    rw [hin] at h
    cases h
  | some txin =>
    rw [hin] at h
    rw [List.all_eq_false]
    exact ⟨txin, List.mem_of_getElem? hin, by simpa using h⟩

/-- **A locked output waits.**  Input `nIn` is accepted with the flag set, and one of its scripts executes
`OP_CHECKLOCKTIMEVERIFY`: the operand, on top of the stack, is below the height or the time where the transaction
is final. -/
theorem locked_output_waits (crypto : ScriptCrypto) (flags : UInt32) (hash : List UInt8 → Uint256)
    (verify : ValType → Uint256 → ValType → Bool) (env : NodeEnv) {tx : CTransaction} {nIn : Nat} {h t : Int}
    {scriptSig scriptPubKey script : CScript} {stack : List ValType} {st : EvalState} (hh : 0 < h) (ht : 0 < t)
    (hfinal : env.isFinalTx tx h t = true) (hflag : hasFlag flags SCRIPT_VERIFY_CHECKLOCKTIMEVERIFY = true)
    (haccept : verifyScript crypto flags (transactionSignatureChecker hash verify tx nIn) scriptSig scriptPubKey
      = .ok ())
    (heval : VerifyEvaluates crypto flags (transactionSignatureChecker hash verify tx nIn) scriptSig scriptPubKey
      stack script)
    (hexec : ExecutesIn crypto flags (transactionSignatureChecker hash verify tx nIn) stack script 0xb1 st) :
    ∃ top rest, st.stack = top :: rest ∧ (setVch top < LOCKTIME_THRESHOLD → setVch top < h) ∧
      (LOCKTIME_THRESHOLD ≤ setVch top → setVch top < t) := by
  obtain ⟨stack', hends⟩ := heval.ends haccept
  obtain ⟨top, rest, hstack, hnonneg, hcheck⟩ := checkLockTime_of_executes hflag hexec hends
  obtain ⟨hkind, hle, hnotFinal⟩ := CTransaction.checkLockTime_spec hcheck
  refine ⟨top, rest, hstack, ?_⟩
  generalize setVch top = n at hnonneg hkind hle
  have hbelow : tx.nLockTime = 0 ∨ (tx.nLockTime : Int) < if tx.nLockTime < LOCKTIME_THRESHOLD then h else t := by
    by_contra hno
    rw [not_or] at hno
    unfold NodeEnv.isFinalTx at hfinal
    simp only [if_neg hno.1, if_neg hh.ne', if_neg ht.ne'] at hfinal
    rw [if_neg hno.2, hnotFinal] at hfinal
    cases hfinal
  -- a lock time of zero is final everywhere, but then the operand is zero
  have hthreshold : 0 < LOCKTIME_THRESHOLD := by decide
  split_ifs at hbelow <;> constructor <;> omega

/-- A transaction with lock time 5 that spends an output locked until height 1. -/
def unlockingTx : CTransaction where
  hash := 3
  vin := [{ prevout := ⟨7, 1⟩, scriptSig := [], nSequence := 0 }]
  vout := []
  nLockTime := 5

/-- In the block at height 6 it is final, and the operand 1 is below 6. -/
theorem unlocked_at_six : ∃ top rest, [[1]] = top :: rest ∧ (setVch top < LOCKTIME_THRESHOLD → setVch top < 6) ∧
    (LOCKTIME_THRESHOLD ≤ setVch top → setVch top < 1600000000) :=
  locked_output_waits stakeCrypto SCRIPT_VERIFY_CHECKLOCKTIMEVERIFY (fun _ => 0) (fun _ _ _ => true) stakeNode
    (show (0 : Int) < 6 by decide) (show (0 : Int) < 1600000000 by decide)
      (show stakeNode.isFinalTx unlockingTx 6 _ = true from rfl)
    rfl (show verifyScript _ _ (transactionSignatureChecker _ _ _ 0) [] [OP_1, 0xb1] = .ok () by decide +kernel)
      (.pubKey rfl)
    ⟨1, [0xb1], [], [], rfl, rfl, rfl⟩

end PwrbCore
