/-
  Script.FlagSubset — FEWER FLAGS ACCEPT MORE.

  A flag only ever adds a way to fail, with one exception: `OP_CHECKLOCKTIMEVERIFY` is a check
  where its flag is set and a reserved no-op where it is not, and then it fails under
  `SCRIPT_VERIFY_DISCOURAGE_UPGRADABLE_NOPS`.  `Restricts F G` is the relation of flag sets that
  comes out of this; a run under `F` that ends well is the same run under `G`.

  Main result: `policy_restricts_consensus`.
-/
import PwrbCore.Lib.Stricter
import PwrbCore.Script.Interpreter
import PwrbCore.Validation.ConnectBlock

namespace PwrbCore

open Checked Stricter

/-! ## §1. The flags in use. -/

def MANDATORY_SCRIPT_VERIFY_FLAGS : UInt32 := SCRIPT_VERIFY_P2SH

def STANDARD_SCRIPT_VERIFY_FLAGS : UInt32 :=
  MANDATORY_SCRIPT_VERIFY_FLAGS ||| SCRIPT_VERIFY_DERSIG ||| SCRIPT_VERIFY_STRICTENC ||| SCRIPT_VERIFY_MINIMALDATA
    ||| SCRIPT_VERIFY_NULLDUMMY ||| SCRIPT_VERIFY_DISCOURAGE_UPGRADABLE_NOPS

/-- The flags of the first `CheckInputs` of `AcceptToMemoryPool`, at `chainHeight`. -/
def ConsensusParams.acceptScriptFlags (params : ConsensusParams) (chainHeight : Int) : UInt32 :=
  if params.height_start_BIP65 ≤ chainHeight then STANDARD_SCRIPT_VERIFY_FLAGS ||| SCRIPT_VERIFY_CHECKLOCKTIMEVERIFY
  else STANDARD_SCRIPT_VERIFY_FLAGS

def ScriptFlags.bits (flags : ScriptFlags) : UInt32 :=
  (if flags.p2sh then SCRIPT_VERIFY_P2SH else 0) ||| (if flags.dersig then SCRIPT_VERIFY_DERSIG else 0)
    ||| if flags.checkLockTimeVerify then SCRIPT_VERIFY_CHECKLOCKTIMEVERIFY else 0

/-! ## §2. Sets of flags. -/

/-- **`F` restricts `G`**: `G` asks for nothing that `F` does not ask for, but may check lock times where `F` refuses
the instruction. -/
structure Restricts (F G : UInt32) : Prop where
  others : ∀ bits, bits &&& SCRIPT_VERIFY_CHECKLOCKTIMEVERIFY = 0 → hasFlag G bits = true → hasFlag F bits = true
  lockTime : hasFlag G SCRIPT_VERIFY_CHECKLOCKTIMEVERIFY = true →
    hasFlag F SCRIPT_VERIFY_CHECKLOCKTIMEVERIFY = true ∨ hasFlag F SCRIPT_VERIFY_DISCOURAGE_UPGRADABLE_NOPS = true
  nops : hasFlag G SCRIPT_VERIFY_DISCOURAGE_UPGRADABLE_NOPS = false

theorem hasFlag_or_lockTime (flags : UInt32) {bits : UInt32} (h : bits &&& SCRIPT_VERIFY_CHECKLOCKTIMEVERIFY = 0) :
    hasFlag (flags ||| SCRIPT_VERIFY_CHECKLOCKTIMEVERIFY) bits = hasFlag flags bits := by
  have hdistrib : (flags ||| SCRIPT_VERIFY_CHECKLOCKTIMEVERIFY) &&& bits
      = flags &&& bits ||| SCRIPT_VERIFY_CHECKLOCKTIMEVERIFY &&& bits := by
    apply UInt32.toBitVec_inj.mp
    exact BitVec.and_or_distrib_right
  unfold hasFlag
  rw [hdistrib, UInt32.and_comm SCRIPT_VERIFY_CHECKLOCKTIMEVERIFY, h, UInt32.or_zero]

theorem hasFlag_of_subset {F G bits : UInt32} (h : G &&& F = G) (hG : hasFlag G bits = true) :
    hasFlag F bits = true := by
  unfold hasFlag at hG ⊢
  rw [bne_iff_ne] at hG ⊢
  intro hF
  apply hG
  rw [← h, UInt32.and_assoc, hF, UInt32.and_zero]

theorem restricts_of_subset {F G : UInt32} (h : G &&& F = G)
    (hnops : hasFlag G SCRIPT_VERIFY_DISCOURAGE_UPGRADABLE_NOPS = false) : Restricts F G :=
  ⟨fun _ _ => hasFlag_of_subset h, fun hG => .inl (hasFlag_of_subset h hG), hnops⟩

/-- Blocks are checked with fewer flags than the pool on either side of the activation height: below it the pool
refuses the instruction. -/
theorem acceptScriptFlags_restricts (env : NodeEnv) (chainHeight nHeight : Int) :
    Restricts (env.params.acceptScriptFlags chainHeight) (env.blockScriptFlags nHeight).bits := by
  have hblock : ∀ bits, bits &&& SCRIPT_VERIFY_CHECKLOCKTIMEVERIFY = 0 →
      hasFlag (env.blockScriptFlags nHeight).bits bits
          = hasFlag (SCRIPT_VERIFY_P2SH ||| SCRIPT_VERIFY_DERSIG) bits := by
    intro bits hbits
    unfold ScriptFlags.bits
    cases (env.blockScriptFlags nHeight).checkLockTimeVerify with
    | false =>
      show hasFlag (SCRIPT_VERIFY_P2SH ||| SCRIPT_VERIFY_DERSIG ||| 0) bits = _
      rw [UInt32.or_zero]
    | true => exact hasFlag_or_lockTime (SCRIPT_VERIFY_P2SH ||| SCRIPT_VERIFY_DERSIG) hbits
  have hpool : ∀ bits, bits &&& SCRIPT_VERIFY_CHECKLOCKTIMEVERIFY = 0 →
      hasFlag (env.params.acceptScriptFlags chainHeight) bits = hasFlag STANDARD_SCRIPT_VERIFY_FLAGS bits := by
    grind [ConsensusParams.acceptScriptFlags, hasFlag_or_lockTime]
  refine ⟨?_, ?_, ?_⟩
  · intro bits hbits hG
    rw [hblock bits hbits] at hG
    rw [hpool bits hbits]
    exact hasFlag_of_subset (by decide) hG
  · intro _
    right
    rw [hpool _ (by decide)]
    decide
  · rw [hblock _ (by decide)]
    decide

/-! ## §3. Encodings and numbers. -/

section Parts

variable {F G : UInt32} (h : Restricts F G) (crypto : ScriptCrypto) (checker : SignatureChecker)

include h

theorem stricter_checkSignatureEncoding (vchSig : ValType) :
    Stricter (checkSignatureEncoding crypto F vchSig) (checkSignatureEncoding crypto G vchSig) := by
  unfold checkSignatureEncoding
  split_ifs
  · exact .refl _
  · refine (checkIf (h.others _ (by decide)) (.refl _)).bind fun _ => ?_
    refine (checkIf (h.others _ (by decide)) (.refl _)).bind fun _ => ?_
    exact .checkIf (h.others _ (by decide)) (.refl _)

theorem stricter_checkPubKeyEncoding (vchPubKey : ValType) :
    Stricter (checkPubKeyEncoding F vchPubKey) (checkPubKeyEncoding G vchPubKey) :=
  .checkIf (h.others _ (by decide)) (.refl _)

theorem stricter_scriptNumOf (vch : ValType) (nMaxNumSize : Nat) :
    Stricter (scriptNumOf F vch nMaxNumSize) (scriptNumOf G vch nMaxNumSize) := by
  refine .bind_right fun _ => ?_
  exact (checkIf (h.others _ (by decide)) (.refl _)).bind_left

/-! ## §4. Instructions. -/

/-- The operand stays on the stack, so the check and the no-op leave the same state. -/
theorem stricter_evalCheckLockTime (st : EvalState) :
    Stricter (evalCheckLockTime F checker st) (evalCheckLockTime G checker st) := by
  intro st' hF
  unfold evalCheckLockTime at hF ⊢
  by_cases hlock : hasFlag F SCRIPT_VERIFY_CHECKLOCKTIMEVERIFY = true
  · rw [if_pos hlock] at hF
    cases hstack : st.stack with
    | nil =>
      rw [hstack] at hF
      cases hF
    | cons top stack =>
      rw [hstack] at hF
      by_cases hlock' : hasFlag G SCRIPT_VERIFY_CHECKLOCKTIMEVERIFY = true
      · rw [if_pos hlock']
        exact (stricter_scriptNumOf h top 5).bind_left st' hF
      -- a no-op under `G`
      simp only [bind_eq_ok] at hF
      obtain ⟨nLockTime, -, -, -, -, -, hst⟩ := hF
      rw [if_neg hlock', h.nops]
      exact hst
  · grind [require_bind_eq_ok, h.lockTime, h.nops]

theorem stricter_evalPick (fRoll : Bool) (st : EvalState) : Stricter (evalPick F fRoll st) (evalPick G fRoll st) := by
  unfold evalPick
  split
  · exact (stricter_scriptNumOf h _ 4).bind_left
  · exact .refl _

theorem stricter_evalUnary (op : UnaryOp) (st : EvalState) : Stricter (evalUnary F op st) (evalUnary G op st) := by
  unfold evalUnary
  split
  · exact (stricter_scriptNumOf h _ 4).bind_left
  · exact .refl _

theorem stricter_evalBinary (op : BinaryOp) (st : EvalState) : Stricter (evalBinary F op st) (evalBinary G op st) := by
  unfold evalBinary
  split
  · refine (stricter_scriptNumOf h _ 4).bind fun _ => ?_
    exact (stricter_scriptNumOf h _ 4).bind_left
  · exact .refl _

theorem stricter_evalWithin (st : EvalState) : Stricter (evalWithin F st) (evalWithin G st) := by
  unfold evalWithin
  split
  · refine (stricter_scriptNumOf h _ 4).bind fun _ => ?_
    refine (stricter_scriptNumOf h _ 4).bind fun _ => ?_
    exact (stricter_scriptNumOf h _ 4).bind_left
  · exact .refl _

theorem stricter_evalCheckSig (fVerify : Bool) (st : EvalState) :
    Stricter (evalCheckSig crypto F checker fVerify st) (evalCheckSig crypto G checker fVerify st) := by
  unfold evalCheckSig
  split
  · refine (stricter_checkSignatureEncoding h crypto _).bind fun _ => ?_
    exact (stricter_checkPubKeyEncoding h _).bind_left
  · exact .refl _

theorem stricter_matchSignatures (scriptCode : CScript) (vKeys vSigs : List ValType) :
    Stricter (matchSignatures crypto F checker scriptCode vKeys vSigs)
      (matchSignatures crypto G checker scriptCode vKeys vSigs) := by
  induction vKeys generalizing vSigs with
  | nil =>
    cases vSigs <;> exact .refl _
  | cons vchPubKey vKeys ih =>
    cases vSigs with
    | nil => exact .refl _
    | cons vchSig vSigs =>
      refine (stricter_checkSignatureEncoding h crypto vchSig).bind fun _ => ?_
      refine (stricter_checkPubKeyEncoding h vchPubKey).bind fun _ => ?_
      dsimp only
      split_ifs
      · exact .refl _
      · exact ih _
      · exact .refl _
      · exact ih _

theorem stricter_evalCheckMultiSig (fVerify : Bool) (st : EvalState) :
    Stricter (evalCheckMultiSig crypto F checker fVerify st) (evalCheckMultiSig crypto G checker fVerify st) := by
  refine .bind_right fun top => ?_
  refine (stricter_scriptNumOf h top 4).bind fun bnKeys => ?_
  refine .bind_right fun _ => ?_
  refine .bind_right fun _ => ?_
  refine .bind_right fun sigTop => ?_
  refine (stricter_scriptNumOf h sigTop 4).bind fun bnSigs => ?_
  refine .bind_right fun _ => ?_
  refine .bind_right fun _ => ?_
  refine (stricter_matchSignatures h crypto checker _ _ _).bind fun fSuccess => ?_
  refine .bind_right fun dummy => ?_
  exact (checkIf (h.others _ (by decide)) (.refl _)).bind_left

theorem stricter_evalInstr (script pc : CScript) (instr : Instr) (st : EvalState) :
    Stricter (evalInstr crypto F checker script pc instr st) (evalInstr crypto G checker script pc instr st) := by
  cases instr with
  | checkLockTimeVerify => exact stricter_evalCheckLockTime h checker st
  | upgradableNop => exact (require fun _ => h.nops).bind_left
  | pick fRoll => exact stricter_evalPick h fRoll st
  | unary op => exact stricter_evalUnary h op st
  | binary op => exact stricter_evalBinary h op st
  | within => exact stricter_evalWithin h st
  | checkSig fVerify => exact stricter_evalCheckSig h crypto checker fVerify st
  | checkMultiSig fVerify => exact stricter_evalCheckMultiSig h crypto checker fVerify st
  -- the others do not look at the flags
  | _ => exact .refl _

/-! ## §5. Scripts. -/

theorem stricter_evalStep (script : CScript) (cfg : CScript × EvalState) :
    Stricter (evalStep crypto F checker script cfg) (evalStep crypto G checker script cfg) := by
  refine .bind_right fun fetched => ?_
  refine .bind_right fun _ => ?_
  refine .bind_right fun _ => ?_
  refine .bind_right fun _ => ?_
  refine .bind_left ?_
  unfold evalFetched
  split_ifs
  · exact (checkIf (h.others _ (by decide)) (.refl _)).bind_left
  · exact stricter_evalInstr h crypto checker script _ _ _
  · exact .refl _

theorem stricter_evalLoop (script : CScript) (fuel : Nat) (cfg : CScript × EvalState) :
    Stricter (evalLoop crypto F checker script fuel cfg) (evalLoop crypto G checker script fuel cfg) := by
  induction fuel generalizing cfg with
  | zero => exact .refl _
  | succ fuel ih =>
    unfold evalLoop
    split_ifs
    · exact .refl _
    · exact (stricter_evalStep h crypto checker script cfg).bind fun cfg' => ih cfg'

theorem stricter_evalScript (stack : List ValType) (script : CScript) :
    Stricter (evalScript crypto F checker stack script) (evalScript crypto G checker stack script) := by
  refine .bind_right fun _ => ?_
  exact (stricter_evalLoop h crypto checker script _ _).bind_left

/-- **A run that `F` accepts is accepted by `G`.** -/
theorem stricter_verifyScript (scriptSig scriptPubKey : CScript) :
    Stricter (verifyScript crypto F checker scriptSig scriptPubKey)
        (verifyScript crypto G checker scriptSig scriptPubKey) := by
  refine (checkIf (h.others _ (by decide)) (.refl _)).bind fun _ => ?_
  refine (stricter_evalScript h crypto checker [] scriptSig).bind fun stackCopy => ?_
  refine (stricter_evalScript h crypto checker stackCopy scriptPubKey).bind fun stack => ?_
  refine .bind_right fun _ => ?_
  refine .checkIf ?_ ?_
  · rw [Bool.and_eq_true, Bool.and_eq_true]
    exact .imp_left (h.others _ (by decide))
  · refine .bind_right fun _ => ?_
    refine .bind_right fun pubKeySerialized => ?_
    exact (stricter_evalScript h crypto checker _ _).bind_left

end Parts

/-- **Policy is a restriction of consensus.** A script accepted under `F` is accepted under every subset of `F` that
tolerates the reserved no-ops; in particular what the pool accepts passes the flags of `ConnectBlock`. -/
theorem policy_restricts_consensus (crypto : ScriptCrypto) (checker : SignatureChecker)
    (scriptSig scriptPubKey : CScript) :
    (∀ F G : UInt32, G &&& F = G → hasFlag G SCRIPT_VERIFY_DISCOURAGE_UPGRADABLE_NOPS = false →
      verifyScript crypto F checker scriptSig scriptPubKey = .ok () →
      verifyScript crypto G checker scriptSig scriptPubKey = .ok ()) ∧ ∀ (env : NodeEnv) (chainHeight nHeight : Int),
      verifyScript crypto (env.params.acceptScriptFlags chainHeight) checker scriptSig scriptPubKey = .ok () →
      verifyScript crypto (env.blockScriptFlags nHeight).bits checker scriptSig scriptPubKey = .ok () := by
  constructor
  · intro F G hsub hnops
    exact stricter_verifyScript (restricts_of_subset hsub hnops) crypto checker scriptSig scriptPubKey ()
  · intro env chainHeight nHeight
    exact stricter_verifyScript (acceptScriptFlags_restricts env chainHeight nHeight) crypto checker scriptSig
      scriptPubKey ()

def sampleCrypto : ScriptCrypto where
  ripemd160 := id
  sha1 := id
  sha256 := id
  hash160 := id
  hash256 := id
  checkLowS := fun _ => true

/-- Signatures are the keys, all lock times have passed, nothing is a cold stake. -/
def sampleChecker : SignatureChecker where
  checkSig := fun vchSig vchPubKey _ => vchSig == vchPubKey
  checkLockTime := fun _ => true
  checkColdStake := fun _ => false

/-- A spend after a lock time, with and without the check. -/
theorem lock_time_script_restricts :
    verifyScript sampleCrypto (STANDARD_SCRIPT_VERIFY_FLAGS ||| SCRIPT_VERIFY_CHECKLOCKTIMEVERIFY) sampleChecker
        [0x51] [0x02, 0x10, 0x27, 0xb1, 0x75] = .ok () ∧
      verifyScript sampleCrypto SCRIPT_VERIFY_P2SH sampleChecker [0x51] [0x02, 0x10, 0x27, 0xb1, 0x75] = .ok () :=
  ⟨by decide +kernel, (policy_restricts_consensus sampleCrypto sampleChecker [0x51] [0x02, 0x10, 0x27, 0xb1, 0x75]).1
    (STANDARD_SCRIPT_VERIFY_FLAGS ||| SCRIPT_VERIFY_CHECKLOCKTIMEVERIFY) SCRIPT_VERIFY_P2SH (by decide) (by decide)
    (by decide +kernel)⟩

end PwrbCore
