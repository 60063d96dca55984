/-
  Validation.ColdStake — WHERE A COLD STAKE CAN PAY.

  Three checks together confine the holder of the staking key: the interpreter runs
  `OP_CHECKCOLDSTAKEVERIFY` in the staking branch, `CTransaction::CheckColdStake` compares
  outputs with the script spent, and `CheckColdStakeFreeOutput` compares the last two outputs
  with each other.  The loop over the outputs in between is guarded by the number of inputs.

  Main result: `coldStake_pays_script_iff`.
-/
import PwrbCore.Script.Executed
import PwrbCore.Script.TransactionChecker
import PwrbCore.Validation.Reorg

namespace PwrbCore

open Checked

/-! ## §1. The free output. -/

variable {env : NodeEnv} {tx : CTransaction} {nHeight : Int}

/-- On a synced node, off superblocks, the last two of three or more outputs pay one script. -/
theorem last_eq_before_of_freeOutput {first lastOut before : CTxOut}
    {others : List CTxOut} (hsync : env.loc.synced = true) (hsuper : env.loc.isBudgetPaymentBlock nHeight = false)
    (hp2cs : tx.hasP2CSOutputs = true) (hvout : tx.vout.reverse = lastOut :: before :: first :: others)
    (h : env.checkColdStakeFreeOutput tx nHeight = some true) : lastOut.scriptPubKey = before.scriptPubKey := by
  by_contra hne
  simp_all [NodeEnv.checkColdStakeFreeOutput]

/-- The outputs that `CheckColdStake` and `CheckColdStakeFreeOutput` leave open are the inner ones. -/
theorem outputs_pay_iff {script : CScript}
    (hscript : script.isPayToColdStaking = true) (hcold : tx.checkColdStake script = true)
    (hsync : env.loc.synced = true) (hsuper : env.loc.isBudgetPaymentBlock nHeight = false)
    (hfree : env.checkColdStakeFreeOutput tx nHeight = some true) :
    (∀ out ∈ tx.vout.tail, out.scriptPubKey = script) ↔ tx.innerOutputsPay script = true := by
  have hsecond : tx.vout[1]?.map CTxOut.scriptPubKey = some script := by grind [CTransaction.checkColdStake]
  unfold CTransaction.innerOutputsPay
  match hvout : tx.vout with
  | [] | [_] =>
    rw [hvout] at hsecond
    cases hsecond
  | marker :: out1 :: rest =>
    rw [hvout] at hsecond
    have hout1 : out1.scriptPubKey = script := Option.some.inj hsecond
    have hp2cs : tx.hasP2CSOutputs = true := by grind [CTransaction.hasP2CSOutputs]
    have hbetween : (marker :: out1 :: rest).dropLast.drop 2 = rest.dropLast := by
      cases rest <;> rfl
    constructor
    · simp_all [List.mem_of_mem_dropLast]
    intro hinner out hmem
    rcases List.mem_cons.mp hmem with rfl | hrest
    · exact hout1
    -- the last output pays what the one before it pays
    rcases List.eq_nil_or_concat' rest with rfl | ⟨init, lastOut, rfl⟩
    · cases hrest
    have hinit : ∀ o ∈ out1 :: init, o.scriptPubKey = script := by simp_all
    rcases List.mem_append.mp hrest with hin | hlast
    · exact hinit out (List.mem_cons_of_mem _ hin)
    rw [List.mem_singleton.mp hlast]
    obtain ⟨init', before, hbefore⟩ := (List.eq_nil_or_concat' (out1 :: init)).resolve_left (List.cons_ne_nil _ _)
    have hrev : tx.vout.reverse = lastOut :: before :: (marker :: init').reverse := by
      rw [hvout, ← List.cons_append, hbefore]
      simp
    obtain ⟨first, others, hsplit⟩ := List.exists_cons_of_ne_nil
      (List.reverse_ne_nil_iff.mpr (List.cons_ne_nil marker init'))
    rw [last_eq_before_of_freeOutput hsync hsuper hp2cs (hsplit ▸ hrev) hfree]
    exact hinit before (by simp [hbefore])

/-! ## §2. The staking branch. -/

/-- **Where a cold stake pays.**  An input is accepted by way of `OP_CHECKCOLDSTAKEVERIFY` and the free output passes,
on a synced node and off superblocks: then all outputs but the marker pay the script that is spent if and only if
those between `vout[1]` and the last one do. -/
theorem coldStake_pays_script_iff (crypto : ScriptCrypto) (flags : UInt32) (hash : List UInt8 → Uint256)
    (verify : ValType → Uint256 → ValType → Bool) {env : NodeEnv} {T : CTransaction} {nIn : Nat}
    {scriptSig script : CScript}
    {stack : List ValType} {st : EvalState} {nHeight : Int} (hscript : script.isPayToColdStaking = true)
    (haccept : verifyScript crypto flags (transactionSignatureChecker hash verify T nIn) scriptSig script = .ok ())
    (hsig : evalScript crypto flags (transactionSignatureChecker hash verify T nIn) [] scriptSig = .ok stack)
    (hexec : ExecutesIn crypto flags (transactionSignatureChecker hash verify T nIn) stack script
      OP_CHECKCOLDSTAKEVERIFY st)
    (hsync : env.loc.synced = true) (hsuper : env.loc.isBudgetPaymentBlock nHeight = false)
    (hfree : env.checkColdStakeFreeOutput T nHeight = some true) :
    (∀ out ∈ T.vout.tail, out.scriptPubKey = script) ↔ T.innerOutputsPay script = true := by
  unfold verifyScript at haccept
  simp only [bind_eq_ok] at haccept
  obtain ⟨-, -, stack', hsig', stackEnd, heval, -⟩ := haccept
  rw [hsig] at hsig'
  cases hsig'
  have hcold : T.checkColdStake script = true := checkColdStake_of_executes hexec heval
  exact outputs_pay_iff hscript hcold hsync hsuper hfree

/-- A public key, its hash (20 bytes, with the sample hash), and a DER signature. -/
def stakerPubKey : ValType := 2 :: List.replicate 32 7

def stakerKey : Uint160 := ⟨stakerPubKey.take 20, by decide⟩

def stakerSig : ValType := [0x30, 6, 2, 1, 1, 2, 1, 1, 1]

def stakeCrypto : ScriptCrypto where
  ripemd160 := List.take 20
  sha1 := List.take 20
  sha256 := id
  hash160 := List.take 20
  hash256 := id
  checkLowS := fun _ => true

def delegation : CScript := getScriptForStakeDelegation stakerKey (sampleKey 9)

def stakerScriptSig : CScript := CScript.pushData stakerSig ++ [OP_1] ++ CScript.pushData stakerPubKey

/-- A stake of one delegated output that pays the given scripts after the marker. -/
def delegatedStake (scripts : List CScript) : CTransaction where
  hash := 60
  vin := [{ prevout := ⟨7, 1⟩, scriptSig := stakerScriptSig }]
  vout := ⟨0, []⟩ :: scripts.map fun script => ⟨COIN, script⟩

/-- The checker of its input: any signature of a valid key is good. -/
def delegatedChecker (scripts : List CScript) : SignatureChecker :=
  transactionSignatureChecker (fun _ => 0) (fun _ _ _ => true) (delegatedStake scripts) 0

def delegatedStack : List ValType := [stakerPubKey, [1], stakerSig]

/-- The state before the fifth instruction of the delegation. -/
def stakingBranch : EvalState where
  stack := [stakerPubKey.take 20, stakerPubKey, stakerSig]
  vfExec := [true]
  nOpCount := 4
  pbegincodehash := delegation

theorem delegated_executes (scripts : List CScript) :
    ExecutesIn stakeCrypto (SCRIPT_VERIFY_P2SH ||| SCRIPT_VERIFY_DERSIG)
      (delegatedChecker scripts) delegatedStack delegation
      OP_CHECKCOLDSTAKEVERIFY stakingBranch :=
  ⟨4, delegation.drop 4, [], delegation.drop 5, rfl, rfl, rfl⟩

theorem delegated_scriptSig (scripts : List CScript) :
    evalScript stakeCrypto (SCRIPT_VERIFY_P2SH ||| SCRIPT_VERIFY_DERSIG) (delegatedChecker scripts) [] stakerScriptSig
      = .ok delegatedStack := rfl

def stakeNode : NodeEnv := plainNode 300 (oneEntryView stakeEntry)

/-- A stake that pays the delegation twice is accepted, and pays nothing else. -/
theorem delegated_stake_pays_back : (delegatedStake [delegation, delegation]).innerOutputsPay delegation = true ∧
      ∀ out ∈ (delegatedStake [delegation, delegation]).vout.tail, out.scriptPubKey = delegation :=
  ⟨rfl, (coldStake_pays_script_iff stakeCrypto (SCRIPT_VERIFY_P2SH ||| SCRIPT_VERIFY_DERSIG)
    (fun _ => 0) (fun _ _ _ => true)
    (show delegation.isPayToColdStaking = true from rfl)
    (show verifyScript _ _ (delegatedChecker [delegation, delegation]) stakerScriptSig delegation
      = .ok () by decide +kernel)
    (delegated_scriptSig _) (delegated_executes _) (show stakeNode.loc.synced = true from rfl)
    (show stakeNode.loc.isBudgetPaymentBlock 300 = false from rfl) (by decide +kernel)).mpr rfl⟩

/-- **The loop over the inner outputs is skipped.**  With one input and four outputs the staker pays the last two to a
script of their own; every check passes, on a synced node and off superblocks. -/
theorem coldStake_pays_elsewhere : (delegatedStake [delegation, [OP_1], [OP_1]]).vin.length = 1 ∧
      (delegatedStake [delegation, [OP_1], [OP_1]]).isCoinStake = true ∧ delegation.isPayToColdStaking = true ∧
      verifyScript stakeCrypto (SCRIPT_VERIFY_P2SH ||| SCRIPT_VERIFY_DERSIG)
        (delegatedChecker [delegation, [OP_1], [OP_1]])
        stakerScriptSig delegation = .ok () ∧
      ExecutesIn stakeCrypto (SCRIPT_VERIFY_P2SH ||| SCRIPT_VERIFY_DERSIG)
        (delegatedChecker [delegation, [OP_1], [OP_1]])
        delegatedStack delegation OP_CHECKCOLDSTAKEVERIFY stakingBranch ∧
      stakeNode.loc.synced = true ∧ stakeNode.loc.isBudgetPaymentBlock 300 = false ∧
      stakeNode.checkColdStakeFreeOutput (delegatedStake [delegation, [OP_1], [OP_1]]) 300 = some true ∧
      ∃ out ∈ (delegatedStake [delegation, [OP_1], [OP_1]]).vout.tail, out.scriptPubKey ≠ delegation :=
  ⟨rfl, by decide +kernel, rfl, by decide +kernel, delegated_executes _, rfl, rfl, by decide +kernel,
    ⟨COIN, [OP_1]⟩, by simp [delegatedStake], by decide +kernel⟩

end PwrbCore
