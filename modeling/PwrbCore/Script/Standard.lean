/-
  Script.Standard — STANDARD SCRIPT TEMPLATES (`script/standard.cpp`): `Solver` recognises the
  templates, `ExtractDestination` reads the destination a script pays, and
  `GetScriptForDestination` / `GetScriptForStakeDelegation` build such scripts.

  Hashing of public keys is a parameter (`hash160`): only its 20-byte result is
  used here.

  Main results: `destinationOf_getScriptForDestination`, `isPayToColdStaking_getScriptForStakeDelegation`.
-/
import PwrbCore.Primitives.Transaction

namespace PwrbCore

open CScript

variable {opcode : Opcode}

/-- `uint160`, the payload of `CKeyID` and `CScriptID`: exactly twenty bytes. -/
abbrev Uint160 := { bytes : List UInt8 // bytes.length = 20 }

/-- `CTxDestination`: nothing, a public-key hash or a script hash. -/
inductive CTxDestination where
  | noDestination
  | keyID (id : Uint160)
  | scriptID (id : Uint160)
  deriving DecidableEq

inductive TxnOutType where
  | nonStandard | pubKey | pubKeyHash | scriptHash | multiSig | nullData | zerocoinMint | coldStake
  deriving DecidableEq, Repr

/-! ## §1. Template matching. -/

/-- The template parameters, encoded as opcodes no real script uses. -/
def OP_SMALLINTEGER : Opcode := 0xfa
def OP_PUBKEYS : Opcode := 0xfb
def OP_PUBKEYHASH : Opcode := 0xfd
def OP_PUBKEY : Opcode := 0xfe
def OP_INVALIDOPCODE : Opcode := 0xff

/-- `mTemplates`, in the order the multimap iterates. -/
def mTemplates : List (TxnOutType × List Opcode) :=
  [(.pubKey, [OP_PUBKEY, OP_CHECKSIG]), (.pubKeyHash, [OP_DUP, OP_HASH160, OP_PUBKEYHASH, OP_EQUALVERIFY, OP_CHECKSIG]),
   (.multiSig, [OP_SMALLINTEGER, OP_PUBKEYS, OP_SMALLINTEGER, OP_CHECKMULTISIG]),
   (.coldStake, [OP_DUP, OP_HASH160, OP_ROT, OP_IF, OP_CHECKCOLDSTAKEVERIFY, OP_PUBKEYHASH,
      OP_ELSE, OP_PUBKEYHASH, OP_ENDIF, OP_EQUALVERIFY, OP_CHECKSIG])]

/-- The inner `while` of `OP_PUBKEYS` collects key-sized operands; at the end of the script `GetOp` has reset opcode
and operand. -/
def collectPubKeys : Nat → Opcode × List UInt8 × List UInt8 → List (List UInt8) →
    (Opcode × List UInt8 × List UInt8) × List (List UInt8)
  | 0, cur, vSolutions => (cur, vSolutions)
  | fuel + 1, cur, vSolutions =>
    if 33 ≤ cur.2.1.length ∧ cur.2.1.length ≤ 65 then
      match CScript.getOp cur.2.2 with
      | none => ((OP_INVALIDOPCODE, [], cur.2.2), vSolutions ++ [cur.2.1])
      | some next => collectPubKeys fuel next (vSolutions ++ [cur.2.1])
    else (cur, vSolutions)

/-- One template opcode against one decoded instruction: the solutions it adds. -/
def matchOpcode (opcode2 : Opcode) (opcode1 : Opcode) (vch1 : List UInt8) : Option (List (List UInt8)) :=
  if opcode2 = OP_PUBKEY then
    if vch1.length < 33 ∨ 65 < vch1.length then none else some [vch1]
  else if opcode2 = OP_PUBKEYHASH then
    if vch1.length = 20 then some [vch1] else none
  else if opcode2 = OP_SMALLINTEGER then
    if opcode1 = OP_0 then some [[0]]
    else if OP_1 ≤ opcode1 ∧ opcode1 ≤ OP_16 then some [[opcode1 - (OP_1 - 1)]]
    else none
  else if opcode1 = opcode2 ∧ vch1 = [] then some []
  else none

/-- The comparison loop of `Solver` against one template. -/
def matchTemplate : List Opcode → List UInt8 → List (List UInt8) → Option (List (List UInt8))
  | [], pc1, vSolutions => if pc1 = [] then some vSolutions else none
  | opcode2 :: template, pc1, vSolutions =>
    match CScript.getOp pc1 with
    | none => none
    | some cur =>
      if opcode2 = OP_PUBKEYS then
        let (cur, vSolutions) := collectPubKeys (pc1.length + 1) cur vSolutions
        match template with
        | [] => none
        | opcode2 :: template =>
          match matchOpcode opcode2 cur.1 cur.2.1 with
          | none => none
          | some sols => matchTemplate template cur.2.2 (vSolutions ++ sols)
      else
        match matchOpcode opcode2 cur.1 cur.2.1 with
        | none => none
        | some sols => matchTemplate template cur.2.2 (vSolutions ++ sols)

/-- The extra test on a matched multisig template. -/
def multiSigOk (vSolutions : List (List UInt8)) : Bool :=
  let m := (vSolutions.head?.bind List.head?).getD 0
  let n := (vSolutions.getLast?.bind List.head?).getD 0
  !(decide (m < 1) || decide (n < 1) || decide (n < m) || vSolutions.length - 2 != n.toNat)

/-- The scan over the templates: the first match decides, also a multisig that fails its extra test. -/
def scanTemplates (s : CScript) : List (TxnOutType × List Opcode) → Option (TxnOutType × List (List UInt8))
  | [] => none
  | (typeRet, template) :: rest =>
    match matchTemplate template s [] with
    | none => scanTemplates s rest
    | some vSolutions =>
      if typeRet = .multiSig ∧ multiSigOk vSolutions = false then none
      else some (typeRet, vSolutions)

/-- `CScript::IsPushOnly`. -/
def isPushOnlyAux : Nat → List UInt8 → Bool
  | 0, pc => pc.isEmpty
  | fuel + 1, pc =>
    if pc.isEmpty then true
    else
      match CScript.getOp pc with
      | none => false
      | some (opcode, _, pc) => if OP_16 < opcode then false else isPushOnlyAux fuel pc

def CScript.isPushOnly (s : CScript) : Bool := isPushOnlyAux s.length s

/-- `Solver`; `none` where it returns false. -/
def solver (s : CScript) : Option (TxnOutType × List (List UInt8)) :=
  if s.isPayToScriptHash then some (.scriptHash, [(s.drop 2).take 20])
  else if s.isZerocoinMint then
    if 150 < s.length then none else some (.zerocoinMint, [s.drop 2])
  else if s.startsWithOpcode OP_RETURN && CScript.isPushOnly s.tail then some (.nullData, [])
  else scanTemplates s mTemplates

/-! ## §2. Destinations. -/

/-- `CPubKey::IsValid` of `CPubKey(vch)`: the header byte announces its length. -/
def pubKeyValid (vch : List UInt8) : Bool :=
  match vch with
  | [] => false
  | header :: _ =>
    if header = 2 ∨ header = 3 then vch.length == 33
    else if header = 4 ∨ header = 6 ∨ header = 7 then vch.length == 65
    else false

/-- The conversion of a template solution to `uint160`. -/
def toUint160 (vch : List UInt8) : Option Uint160 :=
  if h : vch.length = 20 then some ⟨vch, h⟩ else none

/-- `ExtractDestination`; `fColdStake` selects the staker of a cold-stake script, else its owner. -/
def extractDestination (hash160 : List UInt8 → Uint160) (s : CScript)
    (fColdStake : Bool := false) : Option CTxDestination :=
  match solver s with
  | some (.pubKey, vch :: _) => if pubKeyValid vch then some (.keyID (hash160 vch)) else none
  | some (.pubKeyHash, vch :: _) => (toUint160 vch).map .keyID
  | some (.scriptHash, vch :: _) => (toUint160 vch).map .scriptID
  | some (.coldStake, staker :: owner :: _) =>
      (toUint160 (if fColdStake then staker else owner)).map .keyID
  | _ => none

/-- What a caller sees that ignores the return value of `ExtractDestination`: `CNoDestination` on failure. -/
def destinationOf (hash160 : List UInt8 → Uint160) (s : CScript) : CTxDestination :=
  (extractDestination hash160 s).getD .noDestination

def getScriptForDestination : CTxDestination → CScript
  | .noDestination => []
  | .keyID id =>
    [OP_DUP, OP_HASH160] ++ CScript.pushData id.1 ++ [OP_EQUALVERIFY, OP_CHECKSIG]
  | .scriptID id => [OP_HASH160] ++ CScript.pushData id.1 ++ [OP_EQUAL]

def getScriptForStakeDelegation (stakingKey spendingKey : Uint160) : CScript :=
  [OP_DUP, OP_HASH160, OP_ROT, OP_IF, OP_CHECKCOLDSTAKEVERIFY] ++ CScript.pushData stakingKey.1
    ++ [OP_ELSE] ++ CScript.pushData spendingKey.1
    ++ [OP_ENDIF, OP_EQUALVERIFY, OP_CHECKSIG]

/-! ## §3. Scripts built for a destination pay it. -/

theorem pushData_uint160 (id : Uint160) : pushData id.1 = 20 :: id.1 := by
  simp [pushData, id.2, OP_PUSHDATA1]

theorem getOp_push20 (id : Uint160) (rest : List UInt8) : getOp (20 :: (id.1 ++ rest)) = some (20, id.1, rest) := by
  have hlt : (20 : UInt8) < OP_PUSHDATA1 := by decide
  have hnat : (20 : UInt8).toNat = 20 := rfl
  simp only [getOp, if_pos hlt, hnat, takeOperand]
  rw [if_neg (by simp [id.2]), List.take_left' id.2, List.drop_left' id.2]

theorem toUint160_val (id : Uint160) : toUint160 id.1 = some id := by
  simp [toUint160, id.2]

/-- A template opcode that stands for itself: above the pushes, below the parameters. -/
abbrev IsLiteral (opcode : Opcode) : Prop := OP_PUSHDATA4 < opcode ∧ opcode < OP_SMALLINTEGER

theorem matchOpcode_literal (h : IsLiteral opcode) (opcode1 : Opcode) (vch1 : List UInt8) :
    matchOpcode opcode opcode1 vch1 = if opcode1 = opcode ∧ vch1 = [] then some [] else none := by
  have h1 : opcode ≠ OP_PUBKEY := fun e => by subst e; exact absurd h.2 (by decide)
  have h2 : opcode ≠ OP_PUBKEYHASH := fun e => by subst e; exact absurd h.2 (by decide)
  have h3 : opcode ≠ OP_SMALLINTEGER := fun e => by subst e; exact absurd h.2 (by decide)
  simp only [matchOpcode, if_neg h1, if_neg h2, if_neg h3]

/-- A literal template opcode consumes the same opcode of the script. -/
theorem matchTemplate_literal (h : IsLiteral opcode) (template : List Opcode)
    (rest : List UInt8) (sols : List (List UInt8)) :
    matchTemplate (opcode :: template) (opcode :: rest) sols = matchTemplate template rest sols := by
  have hne : opcode ≠ OP_PUBKEYS := fun e => by subst e; exact absurd h.2 (by decide)
  simp [matchTemplate, getOp_plain h.1, if_neg hne, matchOpcode_literal h]

theorem matchTemplate_pubKey_plain {opcode1 : Opcode} (h1 : OP_PUSHDATA4 < opcode1)
    (template : List Opcode) (rest : List UInt8) (sols : List (List UInt8)) :
    matchTemplate (OP_PUBKEY :: template) (opcode1 :: rest) sols = none := by
  have hk : OP_PUBKEY ≠ OP_PUBKEYS := by decide
  simp [matchTemplate, getOp_plain h1, if_neg hk, matchOpcode]

theorem matchTemplate_pubKeyHash (id : Uint160) (template : List Opcode) (rest : List UInt8)
    (sols : List (List UInt8)) : matchTemplate (OP_PUBKEYHASH :: template) (20 :: (id.1 ++ rest)) sols
      = matchTemplate template rest (sols ++ [id.1]) := by
  have hk : OP_PUBKEYHASH ≠ OP_PUBKEYS := by decide
  have hp : OP_PUBKEYHASH ≠ OP_PUBKEY := by decide
  simp [matchTemplate, getOp_push20, if_neg hk, matchOpcode, if_neg hp, id.2]

/-- A key hash is read back from its pay-to-pubkey-hash script. -/
theorem solver_keyID (id : Uint160) : solver (getScriptForDestination (.keyID id)) = some (.pubKeyHash, [id.1]) := by
  have hform : getScriptForDestination (.keyID id)
      = OP_DUP :: OP_HASH160 :: 20 :: (id.1 ++ [OP_EQUALVERIFY, OP_CHECKSIG]) := by
    simp [getScriptForDestination, pushData_uint160]
  have hp2sh : isPayToScriptHash (OP_DUP :: OP_HASH160 :: 20 :: (id.1 ++ [OP_EQUALVERIFY, OP_CHECKSIG])) = false := by
    simp [isPayToScriptHash, id.2]
  have hmint : isZerocoinMint (OP_DUP :: OP_HASH160 :: 20 :: (id.1 ++ [OP_EQUALVERIFY, OP_CHECKSIG])) = false := rfl
  rw [hform, solver, hp2sh, hmint]
  -- the pubkey template refuses the operand-less OP_DUP; the second template matches
  simp only [mTemplates, scanTemplates, matchTemplate_pubKey_plain (by decide : OP_PUSHDATA4 < OP_DUP)]
  rw [matchTemplate_literal (by decide), matchTemplate_literal (by decide), matchTemplate_pubKeyHash,
    matchTemplate_literal (by decide)]
  rfl

theorem solver_scriptID (id : Uint160) :
    solver (getScriptForDestination (.scriptID id)) = some (.scriptHash, [id.1]) := by
  simp [solver, getScriptForDestination, pushData_uint160, isPayToScriptHash, id.2, List.take_left' id.2]

/-- **A destination is read back from the script built for it.** -/
theorem destinationOf_getScriptForDestination (hash160 : List UInt8 → Uint160)
    (d : CTxDestination) : destinationOf hash160 (getScriptForDestination d) = d := by
  cases d with
  | noDestination => rfl
  | keyID id => simp [destinationOf, extractDestination, solver_keyID, toUint160_val]
  | scriptID id => simp [destinationOf, extractDestination, solver_scriptID, toUint160_val]

theorem getScriptForStakeDelegation_eq (stakingKey spendingKey : Uint160) :
    getScriptForStakeDelegation stakingKey spendingKey
      = [OP_DUP, OP_HASH160, OP_ROT, OP_IF, OP_CHECKCOLDSTAKEVERIFY, 20]
          ++ (stakingKey.1 ++ ([OP_ELSE, 20] ++ (spendingKey.1 ++ [OP_ENDIF, OP_EQUALVERIFY, OP_CHECKSIG]))) := by
  simp [getScriptForStakeDelegation, pushData_uint160]

/-- Delegation scripts pass the byte test for pay-to-cold-staking. -/
theorem isPayToColdStaking_getScriptForStakeDelegation (stakingKey spendingKey : Uint160) :
    isPayToColdStaking (getScriptForStakeDelegation stakingKey spendingKey) = true := by
  rw [getScriptForStakeDelegation_eq]
  simp [isPayToColdStaking, stakingKey.2, spendingKey.2]

end PwrbCore
