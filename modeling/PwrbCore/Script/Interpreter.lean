/-
  Script.Interpreter — THE SCRIPT INTERPRETER (`EvalScript`, `VerifyScript` of `script/interpreter.cpp`).

  A stack machine without loops.  The stack is a list with its top first, `vfExec` has the
  innermost condition first, and a position in the script is what is left of it.  Every
  error is an `Except` error; what the source throws (number too long or not minimal, an
  access beyond the stack) is caught by `EvalScript` and becomes `unknownError`.
-/
import PwrbCore.Lib.Checked
import PwrbCore.Script.ScriptNum
import PwrbCore.Script.Standard

namespace PwrbCore

open Checked CScriptNum

/-! ## §1. Errors, flags. -/

/-- `ScriptError`, without `SCRIPT_ERR_OK`. -/
inductive ScriptError where
  | unknownError | evalFalse | opReturn
  | scriptSize | pushSize | opCount | stackSize | sigCount | pubKeyCount
  | verify | equalVerify | checkColdStakeVerify | checkMultiSigVerify | checkSigVerify | numEqualVerify
  | badOpcode | disabledOpcode | invalidStackOperation | invalidAltStackOperation | unbalancedConditional
  | negativeLockTime | unsatisfiedLockTime
  | sigHashType | sigDer | minimalData | sigPushOnly | sigHighS | sigNullDummy | pubKeyType
  | discourageUpgradableNops
  /-- not an error of the source: an assertion fails -/
  | assertion
  deriving DecidableEq, Repr

def SCRIPT_VERIFY_P2SH : UInt32 := 0x1
def SCRIPT_VERIFY_STRICTENC : UInt32 := 0x2
def SCRIPT_VERIFY_DERSIG : UInt32 := 0x4
def SCRIPT_VERIFY_LOW_S : UInt32 := 0x8
def SCRIPT_VERIFY_NULLDUMMY : UInt32 := 0x10
def SCRIPT_VERIFY_SIGPUSHONLY : UInt32 := 0x20
def SCRIPT_VERIFY_MINIMALDATA : UInt32 := 0x40
def SCRIPT_VERIFY_DISCOURAGE_UPGRADABLE_NOPS : UInt32 := 0x80
def SCRIPT_VERIFY_CHECKLOCKTIMEVERIFY : UInt32 := 0x200

/-- `(flags & bits) != 0`. -/
def hasFlag (flags bits : UInt32) : Bool := flags &&& bits != 0

/-! ## §2. Encodings of signatures and keys. -/

abbrev ValType := List UInt8

def isCompressedOrUncompressedPubKey (vchPubKey : ValType) : Bool :=
  if vchPubKey.length < 33 then false
  else
    match vchPubKey.head? with
    | some 0x04 => vchPubKey.length == 65
    | some 0x02 => vchPubKey.length == 33
    | some 0x03 => vchPubKey.length == 33
    | _ => false

def isValidSignatureEncoding (sig : ValType) : Bool :=
  let byte (i : Nat) : Nat := (sig[i]?.getD 0).toNat
  let lenR := byte 3
  let lenS := byte (5 + lenR)
  if sig.length < 9 then false
  else if 73 < sig.length then false
  else if byte 0 ≠ 0x30 then false
  else if byte 1 ≠ sig.length - 3 then false
  else if sig.length ≤ 5 + lenR then false
  else if lenR + lenS + 7 ≠ sig.length then false
  else if byte 2 ≠ 0x02 then false
  else if lenR = 0 then false
  else if 0x80 ≤ byte 4 then false
  else if 1 < lenR ∧ byte 4 = 0x00 ∧ byte 5 < 0x80 then false
  else if byte (lenR + 4) ≠ 0x02 then false
  else if lenS = 0 then false
  else if 0x80 ≤ byte (lenR + 6) then false
  else if 1 < lenS ∧ byte (lenR + 6) = 0x00 ∧ byte (lenR + 7) < 0x80 then false
  else true

/-- `IsDefinedHashtypeSignature`; the type is the last byte without `SIGHASH_ANYONECANPAY`. -/
def isDefinedHashtypeSignature (vchSig : ValType) : Bool :=
  match vchSig.getLast? with
  | none => false
  | some back =>
    let nHashType := back &&& 0x7f
    decide (1 ≤ nHashType ∧ nHashType ≤ 3)

def checkMinimalPush (data : ValType) (opcode : Opcode) : Bool :=
  match data with
  | [] => opcode == OP_0
  | [b] =>
    if 1 ≤ b ∧ b ≤ 16 then opcode == OP_1 + (b - 1)
    else if b = 0x81 then opcode == OP_1NEGATE
    else opcode == 1
  | _ =>
    if data.length ≤ 75 then opcode.toNat == data.length
    else if data.length ≤ 255 then opcode == OP_PUSHDATA1
    else if data.length ≤ 65535 then opcode == OP_PUSHDATA2
    else true

/-- `CastToBool`: negative zero is false too. -/
def castToBool : ValType → Bool
  | [] => false
  | [b] => b != 0 && b != 0x80
  | b :: vch => b != 0 || castToBool vch

/-! ## §3. What the interpreter is given. -/

structure SignatureChecker where
  checkSig : (vchSig vchPubKey : ValType) → (scriptCode : CScript) → Bool
  checkLockTime : (nLockTime : Int) → Bool
  checkColdStake : CScript → Bool

/-- The hash functions, and `CPubKey::CheckLowS`. -/
structure ScriptCrypto where
  ripemd160 : ValType → ValType
  sha1 : ValType → ValType
  sha256 : ValType → ValType
  hash160 : ValType → ValType
  hash256 : ValType → ValType
  checkLowS : ValType → Bool

def isLowDERSignature (crypto : ScriptCrypto) (vchSig : ValType) : Except ScriptError Unit := do
  require (isValidSignatureEncoding vchSig = true) .sigDer
  require (crypto.checkLowS vchSig.dropLast = true) .sigHighS

/-- `CheckSignatureEncoding`; an empty signature passes. -/
def checkSignatureEncoding (crypto : ScriptCrypto) (flags : UInt32) (vchSig : ValType) : Except ScriptError Unit :=
  if vchSig = [] then .ok ()
  else do
    checkIf (hasFlag flags (SCRIPT_VERIFY_DERSIG ||| SCRIPT_VERIFY_LOW_S ||| SCRIPT_VERIFY_STRICTENC))
      (require (isValidSignatureEncoding vchSig = true) .sigDer)
    checkIf (hasFlag flags SCRIPT_VERIFY_LOW_S) (isLowDERSignature crypto vchSig)
    checkIf (hasFlag flags SCRIPT_VERIFY_STRICTENC) (require (isDefinedHashtypeSignature vchSig = true) .sigHashType)

section

variable (flags : UInt32)

def checkPubKeyEncoding (vchPubKey : ValType) : Except ScriptError Unit :=
  checkIf (hasFlag flags SCRIPT_VERIFY_STRICTENC)
    (require (isCompressedOrUncompressedPubKey vchPubKey = true) .pubKeyType)

/-! ## §4. Instructions. -/

/-- Instructions that rearrange the stack. -/
inductive StackOp where
  | drop2 | dup2 | dup3 | over2 | rot2 | swap2 | ifDup | depth | drop | dup | nip | over | rot | swap | tuck | size
  deriving DecidableEq, Repr

inductive UnaryOp where
  | add1 | sub1 | negate | abs | not | notEqual0
  deriving DecidableEq, Repr

inductive BinaryOp where
  | add | sub | boolAnd | boolOr | numEqual | numEqualVerify | numNotEqual | lessThan | greaterThan
  | lessThanOrEqual | greaterThanOrEqual | min | max
  deriving DecidableEq, Repr

inductive HashOp where
  | ripemd160 | sha1 | sha256 | hash160 | hash256
  deriving DecidableEq, Repr

/-- The cases of the `switch` in `EvalScript`. -/
inductive Instr where
  | pushNum (n : Int)
  | nop
  | checkLockTimeVerify
  | upgradableNop
  | opIf (fNot : Bool)
  | opElse
  | endIf
  | verify
  | opReturn
  | toAltStack
  | fromAltStack
  | stackOp (op : StackOp)
  | pick (fRoll : Bool)
  | equal (fVerify : Bool)
  | unary (op : UnaryOp)
  | binary (op : BinaryOp)
  | within
  | hash (op : HashOp)
  | codeSeparator
  | checkSig (fVerify : Bool)
  | checkMultiSig (fVerify : Bool)
  | checkColdStakeVerify
  | invalid
  deriving DecidableEq, Repr

/-- The case of an opcode; what the `switch` does not list is its `default`. -/
def instrOf (opcode : Opcode) : Instr :=
  if opcode = OP_1NEGATE ∨ (OP_1 ≤ opcode ∧ opcode ≤ OP_16) then .pushNum (opcode.toNat - 0x50)
  else if opcode = OP_CHECKCOLDSTAKEVERIFY then .checkColdStakeVerify
  else if opcode = 0xb0 ∨ (0xb2 ≤ opcode ∧ opcode ≤ 0xb9) then .upgradableNop
  else
    match opcode with
    | 0x61 => .nop
    | 0x63 => .opIf false
    | 0x64 => .opIf true
    | 0x67 => .opElse
    | 0x68 => .endIf
    | 0x69 => .verify
    | 0x6a => .opReturn
    | 0x6b => .toAltStack
    | 0x6c => .fromAltStack
    | 0x6d => .stackOp .drop2
    | 0x6e => .stackOp .dup2
    | 0x6f => .stackOp .dup3
    | 0x70 => .stackOp .over2
    | 0x71 => .stackOp .rot2
    | 0x72 => .stackOp .swap2
    | 0x73 => .stackOp .ifDup
    | 0x74 => .stackOp .depth
    | 0x75 => .stackOp .drop
    | 0x76 => .stackOp .dup
    | 0x77 => .stackOp .nip
    | 0x78 => .stackOp .over
    | 0x79 => .pick false
    | 0x7a => .pick true
    | 0x7b => .stackOp .rot
    | 0x7c => .stackOp .swap
    | 0x7d => .stackOp .tuck
    | 0x82 => .stackOp .size
    | 0x87 => .equal false
    | 0x88 => .equal true
    | 0x8b => .unary .add1
    | 0x8c => .unary .sub1
    | 0x8f => .unary .negate
    | 0x90 => .unary .abs
    | 0x91 => .unary .not
    | 0x92 => .unary .notEqual0
    | 0x93 => .binary .add
    | 0x94 => .binary .sub
    | 0x9a => .binary .boolAnd
    | 0x9b => .binary .boolOr
    | 0x9c => .binary .numEqual
    | 0x9d => .binary .numEqualVerify
    | 0x9e => .binary .numNotEqual
    | 0x9f => .binary .lessThan
    | 0xa0 => .binary .greaterThan
    | 0xa1 => .binary .lessThanOrEqual
    | 0xa2 => .binary .greaterThanOrEqual
    | 0xa3 => .binary .min
    | 0xa4 => .binary .max
    | 0xa5 => .within
    | 0xa6 => .hash .ripemd160
    | 0xa7 => .hash .sha1
    | 0xa8 => .hash .sha256
    | 0xa9 => .hash .hash160
    | 0xaa => .hash .hash256
    | 0xab => .codeSeparator
    | 0xac => .checkSig false
    | 0xad => .checkSig true
    | 0xae => .checkMultiSig false
    | 0xaf => .checkMultiSig true
    | 0xb1 => .checkLockTimeVerify
    | _ => .invalid

/-- `OP_CAT` to `OP_RIGHT`, `OP_INVERT` to `OP_XOR`, `OP_2MUL`, `OP_2DIV`, `OP_MUL` to `OP_RSHIFT`. -/
def isDisabledOpcode (opcode : Opcode) : Bool :=
  [0x7e, 0x7f, 0x80, 0x81, 0x83, 0x84, 0x85, 0x86, 0x8d, 0x8e, 0x95, 0x96, 0x97, 0x98, 0x99].contains opcode

/-! ## §5. Numbers. -/

/-- The test of `fRequireMinimal` in the constructor of `CScriptNum`. -/
def isMinimalNum (vch : ValType) : Bool :=
  match vch.reverse with
  | [] => true
  | [back] => back &&& 0x7f != 0
  | back :: before :: _ => back &&& 0x7f != 0 || before &&& 0x80 != 0

/-- `CScriptNum(vch, fRequireMinimal, nMaxNumSize)`; exceptions end in `unknownError`. -/
def scriptNumOf (vch : ValType) (nMaxNumSize : Nat := 4) : Except ScriptError Int := do
  require (vch.length ≤ nMaxNumSize) .unknownError
  checkIf (hasFlag flags SCRIPT_VERIFY_MINIMALDATA) (require (isMinimalNum vch = true) .unknownError)
  return setVch vch

def getInt (bn : Int) : Int :=
  if 2147483647 < bn then 2147483647 else if bn < -2147483648 then -2147483648 else bn

/-- `vchTrue`, `vchFalse`. -/
def boolVch (f : Bool) : ValType := if f then [1] else []

/-! ## §6. What the instructions do. -/

/-- The machine; `pbegincodehash` is the script from the last separator on. -/
structure EvalState where
  stack : List ValType
  altstack : List ValType := []
  vfExec : List Bool := []
  nOpCount : Int := 0
  pbegincodehash : CScript
  deriving DecidableEq, Repr

def EvalState.fExec (st : EvalState) : Bool := st.vfExec.all id

def StackOp.apply : StackOp → List ValType → Option (List ValType)
  | .drop2, _ :: _ :: s => some s
  | .dup2, x2 :: x1 :: s => some (x2 :: x1 :: x2 :: x1 :: s)
  | .dup3, x3 :: x2 :: x1 :: s => some (x3 :: x2 :: x1 :: x3 :: x2 :: x1 :: s)
  | .over2, x4 :: x3 :: x2 :: x1 :: s => some (x2 :: x1 :: x4 :: x3 :: x2 :: x1 :: s)
  | .rot2, x6 :: x5 :: x4 :: x3 :: x2 :: x1 :: s => some (x2 :: x1 :: x6 :: x5 :: x4 :: x3 :: s)
  | .swap2, x4 :: x3 :: x2 :: x1 :: s => some (x2 :: x1 :: x4 :: x3 :: s)
  | .ifDup, x :: s => some (if castToBool x then x :: x :: s else x :: s)
  | .depth, s => some (serialize s.length :: s)
  | .drop, _ :: s => some s
  | .dup, x :: s => some (x :: x :: s)
  | .nip, x2 :: _ :: s => some (x2 :: s)
  | .over, x2 :: x1 :: s => some (x1 :: x2 :: x1 :: s)
  | .rot, x3 :: x2 :: x1 :: s => some (x1 :: x3 :: x2 :: s)
  | .swap, x2 :: x1 :: s => some (x1 :: x2 :: s)
  | .tuck, x2 :: x1 :: s => some (x2 :: x1 :: x2 :: s)
  | .size, x :: s => some (serialize x.length :: x :: s)
  | _, _ => none

def UnaryOp.apply (op : UnaryOp) (bn : Int) : Int :=
  match op with
  | .add1 => bn + 1
  | .sub1 => bn - 1
  | .negate => -bn
  | .abs => if bn < 0 then -bn else bn
  | .not => if bn = 0 then 1 else 0
  | .notEqual0 => if bn ≠ 0 then 1 else 0

def BinaryOp.apply (op : BinaryOp) (bn1 bn2 : Int) : Int :=
  let ofBool (c : Bool) : Int := if c then 1 else 0
  match op with
  | .add => bn1 + bn2
  | .sub => bn1 - bn2
  | .boolAnd => ofBool (bn1 != 0 && bn2 != 0)
  | .boolOr => ofBool (bn1 != 0 || bn2 != 0)
  | .numEqual => ofBool (bn1 == bn2)
  | .numEqualVerify => ofBool (bn1 == bn2)
  | .numNotEqual => ofBool (bn1 != bn2)
  | .lessThan => ofBool (decide (bn1 < bn2))
  | .greaterThan => ofBool (decide (bn2 < bn1))
  | .lessThanOrEqual => ofBool (decide (bn1 ≤ bn2))
  | .greaterThanOrEqual => ofBool (decide (bn2 ≤ bn1))
  | .min => if bn1 < bn2 then bn1 else bn2
  | .max => if bn2 < bn1 then bn1 else bn2

def HashOp.apply (crypto : ScriptCrypto) : HashOp → ValType → ValType
  | .ripemd160 => crypto.ripemd160
  | .sha1 => crypto.sha1
  | .sha256 => crypto.sha256
  | .hash160 => crypto.hash160
  | .hash256 => crypto.hash256

/-- The result of a comparison goes on the stack; the `VERIFY` form takes it off or stops. -/
def pushResult (st : EvalState) (stack : List ValType) (f fVerify : Bool) (err : ScriptError) :
    Except ScriptError EvalState :=
  if fVerify then (do
    require (f = true) err
    return { st with stack := stack })
  else .ok { st with stack := boolVch f :: stack }

/-- `OP_CHECKLOCKTIMEVERIFY`; the operand stays on the stack. -/
def evalCheckLockTime (checker : SignatureChecker) (st : EvalState) : Except ScriptError EvalState :=
  if hasFlag flags SCRIPT_VERIFY_CHECKLOCKTIMEVERIFY then
    match st.stack with
    | [] => .error .invalidStackOperation
    | top :: _ => do
      let nLockTime ← scriptNumOf flags top 5
      require (0 ≤ nLockTime) .negativeLockTime
      require (checker.checkLockTime nLockTime = true) .unsatisfiedLockTime
      return st
  else do
    require (hasFlag flags SCRIPT_VERIFY_DISCOURAGE_UPGRADABLE_NOPS = false) .discourageUpgradableNops
    return st

/-- `OP_IF`, `OP_NOTIF`: also read where they are not executed. -/
def evalIf (fNot : Bool) (st : EvalState) : Except ScriptError EvalState :=
  if st.fExec then
    match st.stack with
    | [] => .error .unbalancedConditional
    | vch :: stack => .ok { st with stack := stack, vfExec := (castToBool vch ^^ fNot) :: st.vfExec }
  else .ok { st with vfExec := false :: st.vfExec }

def evalPick (fRoll : Bool) (st : EvalState) : Except ScriptError EvalState :=
  match st.stack with
  | top :: stack@(_ :: _) => do
    let bn ← scriptNumOf flags top
    let n := getInt bn
    require (0 ≤ n ∧ n < stack.length) .invalidStackOperation
    let vch ← orStop stack[n.toNat]? .unknownError
    return { st with stack := vch :: if fRoll then stack.eraseIdx n.toNat else stack }
  | _ => .error .invalidStackOperation

def evalUnary (op : UnaryOp) (st : EvalState) : Except ScriptError EvalState :=
  match st.stack with
  | top :: stack => do
    let bn ← scriptNumOf flags top
    return { st with stack := serialize (op.apply bn) :: stack }
  | _ => .error .invalidStackOperation

def evalBinary (op : BinaryOp) (st : EvalState) : Except ScriptError EvalState :=
  match st.stack with
  | vch2 :: vch1 :: stack => do
    let bn1 ← scriptNumOf flags vch1
    let bn2 ← scriptNumOf flags vch2
    let result := serialize (op.apply bn1 bn2)
    if op = .numEqualVerify then do
      require (castToBool result = true) .numEqualVerify
      return { st with stack := stack }
    else .ok { st with stack := result :: stack }
  | _ => .error .invalidStackOperation

def evalWithin (st : EvalState) : Except ScriptError EvalState :=
  match st.stack with
  | vch3 :: vch2 :: vch1 :: stack => do
    let bn1 ← scriptNumOf flags vch1
    let bn2 ← scriptNumOf flags vch2
    let bn3 ← scriptNumOf flags vch3
    return { st with stack := boolVch (decide (bn2 ≤ bn1 ∧ bn1 < bn3)) :: stack }
  | _ => .error .invalidStackOperation

end

/-! ## §7. Signature instructions. -/

/-- The inner loop of `FindAndDelete`: copies of `b` at `pc` are skipped. -/
def skipCopies (b : CScript) : Nat → CScript → CScript
  | 0, pc => pc
  | fuel + 1, pc => if b.isPrefixOf pc then skipCopies b fuel (pc.drop b.length) else pc

/-- The outer loop: copies of `b` go only where an instruction begins. Without one the script stays. -/
def findAndDeleteLoop (b : CScript) : Nat → CScript → CScript
  | 0, pc => pc
  | fuel + 1, pc =>
    let pc := skipCopies b pc.length pc
    match CScript.getOp pc with
    | none => pc
    | some (_, _, next) => pc.take (pc.length - next.length) ++ findAndDeleteLoop b fuel next

def CScript.findAndDelete (script b : CScript) : CScript :=
  if b = [] then script else findAndDeleteLoop b (script.length + 1) script

/-- The loop of `OP_CHECKMULTISIG`: signatures and keys from the top down. -/
def matchSignatures (crypto : ScriptCrypto) (flags : UInt32) (checker : SignatureChecker) (scriptCode : CScript) :
    (vKeys vSigs : List ValType) → Except ScriptError Bool
  | _, [] => .ok true
  | [], _ :: _ => .ok false
  | vchPubKey :: vKeys, vchSig :: vSigs => do
    checkSignatureEncoding crypto flags vchSig
    checkPubKeyEncoding flags vchPubKey
    let vSigs := if checker.checkSig vchSig vchPubKey scriptCode then vSigs else vchSig :: vSigs
    -- more signatures left than keys
    if vKeys.length < vSigs.length then .ok false
    else matchSignatures crypto flags checker scriptCode vKeys vSigs

section

variable (crypto : ScriptCrypto) (flags : UInt32) (checker : SignatureChecker)

/-- `OP_CHECKSIG`, `OP_CHECKSIGVERIFY`. -/
def evalCheckSig (fVerify : Bool) (st : EvalState) : Except ScriptError EvalState :=
  match st.stack with
  | vchPubKey :: vchSig :: stack => do
    checkSignatureEncoding crypto flags vchSig
    checkPubKeyEncoding flags vchPubKey
    let scriptCode := CScript.findAndDelete st.pbegincodehash (CScript.pushData vchSig)
    pushResult st stack (checker.checkSig vchSig vchPubKey scriptCode) fVerify .checkSigVerify
  | _ => .error .invalidStackOperation

/-- `OP_CHECKMULTISIG`, `OP_CHECKMULTISIGVERIFY`: number of keys, keys, number of signatures, signatures, one element
more. -/
def evalCheckMultiSig (fVerify : Bool) (st : EvalState) : Except ScriptError EvalState := do
  let top ← orStop st.stack.head? .invalidStackOperation
  let bnKeys ← scriptNumOf flags top
  require (0 ≤ getInt bnKeys ∧ getInt bnKeys ≤ 20) .pubKeyCount
  let nKeysCount := (getInt bnKeys).toNat
  require (st.nOpCount + nKeysCount ≤ 201) .opCount
  let afterKeys := st.stack.drop (1 + nKeysCount)
  let sigTop ← orStop afterKeys.head? .invalidStackOperation
  let bnSigs ← scriptNumOf flags sigTop
  require (0 ≤ getInt bnSigs ∧ getInt bnSigs ≤ nKeysCount) .sigCount
  let nSigsCount := (getInt bnSigs).toNat
  -- the size is compared with one more than what is read so far
  require (nSigsCount + 2 ≤ afterKeys.length) .invalidStackOperation
  let vSigs := afterKeys.tail.take nSigsCount
  let scriptCode := vSigs.foldl (fun code vchSig => CScript.findAndDelete code
    (CScript.pushData vchSig)) st.pbegincodehash
  let fSuccess ← matchSignatures crypto flags checker scriptCode (st.stack.tail.take nKeysCount) vSigs
  let stack := afterKeys.tail.drop nSigsCount
  let dummy ← orStop stack.head? .invalidStackOperation
  checkIf (hasFlag flags SCRIPT_VERIFY_NULLDUMMY) (require (dummy = []) .sigNullDummy)
  pushResult { st with nOpCount := st.nOpCount + nKeysCount } stack.tail fSuccess fVerify .checkMultiSigVerify

/-! ## §8. The loop. -/

/-- One case of the `switch`; `pc` is what follows the instruction. -/
def evalInstr (script pc : CScript) (instr : Instr) (st : EvalState) : Except ScriptError EvalState :=
  match instr with
  | .pushNum n => .ok { st with stack := serialize n :: st.stack }
  | .nop => .ok st
  | .checkLockTimeVerify => evalCheckLockTime flags checker st
  | .upgradableNop => do
    require (hasFlag flags SCRIPT_VERIFY_DISCOURAGE_UPGRADABLE_NOPS = false) .discourageUpgradableNops
    return st
  | .opIf fNot => evalIf fNot st
  | .opElse =>
    match st.vfExec with
    | [] => .error .unbalancedConditional
    | f :: vfExec => .ok { st with vfExec := (!f) :: vfExec }
  | .endIf =>
    match st.vfExec with
    | [] => .error .unbalancedConditional
    | _ :: vfExec => .ok { st with vfExec := vfExec }
  | .verify =>
    match st.stack with
    | [] => .error .invalidStackOperation
    | vch :: stack => if castToBool vch then .ok { st with stack := stack } else .error .verify
  | .opReturn => .error .opReturn
  | .toAltStack =>
    match st.stack with
    | [] => .error .invalidStackOperation
    | vch :: stack => .ok { st with stack := stack, altstack := vch :: st.altstack }
  | .fromAltStack =>
    match st.altstack with
    | [] => .error .invalidAltStackOperation
    | vch :: altstack => .ok { st with stack := vch :: st.stack, altstack := altstack }
  | .stackOp op => do
    let stack ← orStop (op.apply st.stack) .invalidStackOperation
    return { st with stack := stack }
  | .pick fRoll => evalPick flags fRoll st
  | .equal fVerify =>
    match st.stack with
    | vch2 :: vch1 :: stack => pushResult st stack (vch1 == vch2) fVerify .equalVerify
    | _ => .error .invalidStackOperation
  | .unary op => evalUnary flags op st
  | .binary op => evalBinary flags op st
  | .within => evalWithin flags st
  | .hash op =>
    match st.stack with
    | [] => .error .invalidStackOperation
    | vch :: stack => .ok { st with stack := op.apply crypto vch :: stack }
  | .codeSeparator => .ok { st with pbegincodehash := pc }
  | .checkSig fVerify => evalCheckSig crypto flags checker fVerify st
  | .checkMultiSig fVerify => evalCheckMultiSig crypto flags checker fVerify st
  | .checkColdStakeVerify => do
    require (checker.checkColdStake script = true) .checkColdStakeVerify
    return st
  | .invalid => .error .badOpcode

def MAX_SCRIPT_ELEMENT_SIZE : Nat := 520

/-- What an instruction does: a push, a case of the `switch`, or nothing where it is not executed. -/
def evalFetched (script pc : CScript) (opcode : Opcode)
    (vchPushValue : ValType) (st : EvalState) : Except ScriptError EvalState :=
  if st.fExec ∧ opcode ≤ OP_PUSHDATA4 then do
    checkIf (hasFlag flags SCRIPT_VERIFY_MINIMALDATA)
      (require (checkMinimalPush vchPushValue opcode = true) .minimalData)
    return { st with stack := vchPushValue :: st.stack }
  else if st.fExec ∨ (OP_IF ≤ opcode ∧ opcode ≤ OP_ENDIF) then
    evalInstr crypto flags checker script pc (instrOf opcode) st
  else .ok st

/-- An opcode above `OP_16` counts towards the limit. -/
def EvalState.counted (st : EvalState) (opcode : Opcode) : EvalState :=
  if OP_16 < opcode then { st with nOpCount := st.nOpCount + 1 } else st

/-- One turn of the loop, with what is left of the script. -/
def evalStep (script : CScript) (cfg : CScript × EvalState) : Except ScriptError (CScript × EvalState) := do
  let fetched ← orStop (CScript.getOp cfg.1) .badOpcode
  require (fetched.2.1.length ≤ MAX_SCRIPT_ELEMENT_SIZE) .pushSize
  require (OP_16 < fetched.1 → cfg.2.nOpCount + 1 ≤ 201) .opCount
  require (isDisabledOpcode fetched.1 = false) .disabledOpcode
  let st ← evalFetched crypto flags checker script fetched.2.2 fetched.1 fetched.2.1 (cfg.2.counted fetched.1)
  require (st.stack.length + st.altstack.length ≤ 1000) .stackSize
  return (fetched.2.2, st)

/-- The loop, for at most `fuel` turns; each takes a byte or more off the script. -/
def evalLoop (crypto : ScriptCrypto) (flags : UInt32) (checker : SignatureChecker) (script : CScript) :
    (fuel : Nat) → CScript × EvalState → Except ScriptError EvalState
  | 0, cfg => if cfg.1 = [] then .ok cfg.2 else .error .unknownError
  | fuel + 1, cfg =>
    if cfg.1 = [] then .ok cfg.2
    else do
      let cfg ← evalStep crypto flags checker script cfg
      evalLoop crypto flags checker script fuel cfg

/-- `EvalScript`, with the stack it leaves. -/
def evalScript (stack : List ValType) (script : CScript) : Except ScriptError (List ValType) := do
  require (script.length ≤ MAX_SCRIPT_SIZE) .scriptSize
  let st ← evalLoop crypto flags checker script script.length (script, { stack := stack, pbegincodehash := script })
  require (st.vfExec = []) .unbalancedConditional
  return st.stack

/-! ## §9. `VerifyScript`. -/

/-- The end of both evaluations: something true is on top. -/
def requireTrue (stack : List ValType) : Except ScriptError Unit :=
  match stack with
  | [] => .error .evalFalse
  | top :: _ => require (castToBool top = true) .evalFalse

def verifyRedeemScript (scriptSig : CScript) (stackCopy : List ValType) : Except ScriptError Unit := do
  require (scriptSig.isPushOnly = true) .sigPushOnly
  let pubKeySerialized ← orStop stackCopy.head? .assertion
  let stack ← evalScript crypto flags checker stackCopy.tail pubKeySerialized
  requireTrue stack

/-- `VerifyScript`. -/
def verifyScript (scriptSig scriptPubKey : CScript) : Except ScriptError Unit := do
  checkIf (hasFlag flags SCRIPT_VERIFY_SIGPUSHONLY) (require (scriptSig.isPushOnly = true) .sigPushOnly)
  let stackCopy ← evalScript crypto flags checker [] scriptSig
  let stack ← evalScript crypto flags checker stackCopy scriptPubKey
  requireTrue stack
  checkIf (hasFlag flags SCRIPT_VERIFY_P2SH && scriptPubKey.isPayToScriptHash)
    (verifyRedeemScript crypto flags checker scriptSig stackCopy)

end

/-! ## §10. One encoding for each number. -/

open List UInt8

theorem isMinimalNum_concat (vch : List UInt8) (back : UInt8) : isMinimalNum (vch ++ [back]) = true ↔
    back.toNat % 128 ≠ 0 ∨ ∃ before, vch.getLast? = some before ∧ 0x80 ≤ before := by
  have hzero : back &&& 0x7f = 0 ↔ back.toNat % 128 = 0 := by
    rw [← UInt8.toNat_inj, (signBit back).1]
    rfl
  obtain rfl | ⟨vch, before, rfl⟩ := eq_nil_or_concat' vch <;> simp [isMinimalNum, hzero, signBit]

/-- **Minimal encodings** are those of `serialize`. -/
theorem isMinimalNum_iff (vch : List UInt8) : isMinimalNum vch = true ↔ vch = serialize (setVch vch) := by
  constructor
  · intro hmin
    obtain rfl | ⟨pre, last, rfl⟩ := eq_nil_or_concat' vch
    · rfl
    have hbits := signBit last
    have hlt := last.toNat_lt
    have hsigned : ∃ vch back, back.toNat ≠ 0 ∧ signedBytes (decide (0x80 ≤ last)) vch back = pre ++ [last] := by
      unfold signedBytes
      by_cases hlow : last.toNat % 128 = 0
      · -- a byte that is only a sign, after one whose top bit is taken
        obtain ⟨before, hbefore, hhigh⟩ := ((isMinimalNum_concat pre last).mp hmin).resolve_left (not_not.mpr hlow)
        obtain ⟨vch, rfl⟩ := getLast?_eq_some_iff.mp hbefore
        have htop := (signBit before).2.2.2.mp hhigh
        refine ⟨vch, before, by omega, ?_⟩
        rw [if_pos hhigh, append_cancel_left_eq, singleton_inj, ← UInt8.toNat_inj, apply_ite toNat]
        have hsign : (0x80 : UInt8).toNat = 128 ∧ (0 : UInt8).toNat = 0 := by decide
        grind
      · have hrest := signBit (last &&& 0x7f)
        refine ⟨pre, last &&& 0x7f, by omega, ?_⟩
        rw [if_neg (by grind), append_cancel_left_eq, singleton_inj, ← UInt8.toNat_inj]
        grind
    obtain ⟨vch, back, hback, heq⟩ := hsigned
    rw [← heq, setVch_signedBytes, serialize_signed _ vch hback]
  · intro h
    rw [h]
    obtain hzero | ⟨neg, vch', back, hback, hn⟩ := exists_signed (setVch vch)
    · rw [hzero]
      rfl
    · rw [hn, serialize_signed neg vch' hback]
      unfold signedBytes
      have hbits := signBit back
      split_ifs <;> rw [isMinimalNum_concat]
      · exact .inr ⟨back, getLast?_concat, ‹_›⟩
      · exact .inr ⟨back, getLast?_concat, ‹_›⟩
      · grind
      · grind

/-- **Script numbers.** -/
theorem script_numbers_canonical :
    (∀ n : Int, n.natAbs < 2 ^ 39 → setVch (serialize n) = n ∧
      scriptNumOf SCRIPT_VERIFY_MINIMALDATA (serialize n) 5 = .ok n) ∧
    ∀ v : List UInt8, v.length ≤ 5 →
      ((∃ m, scriptNumOf SCRIPT_VERIFY_MINIMALDATA v 5 = .ok m) ↔ v = serialize (setVch v)) := by
  have haccept : ∀ v : List UInt8, v.length ≤ 5 → ∀ m, scriptNumOf SCRIPT_VERIFY_MINIMALDATA v 5 = .ok m ↔
      isMinimalNum v = true ∧ setVch v = m := by
    intro v hv m
    unfold scriptNumOf
    have hflag : hasFlag SCRIPT_VERIFY_MINIMALDATA SCRIPT_VERIFY_MINIMALDATA = true := by decide
    rw [require_bind_eq_ok, bind_eq_ok]
    simp only [checkIf_eq_ok, require_eq_ok]
    simp [hv, hflag, pure, Except.pure]
  refine ⟨fun n hn => ⟨setVch_serialize n, ?_⟩, fun v hv => ?_⟩
  · rw [haccept _ (length_serialize_le hn), isMinimalNum_iff, setVch_serialize]
    exact ⟨rfl, rfl⟩
  · simp only [haccept v hv, exists_and_left, exists_eq', and_true, isMinimalNum_iff]

end PwrbCore
