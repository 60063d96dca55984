/-
  Script.SignatureHash — WHAT A SIGNATURE SIGNS (`CTransactionSignatureSerializer` and `SignatureHash` of
  `script/interpreter.cpp`).

  The transaction is written with the scripts of the inputs blanked, the code of the signed
  input in place of its own, and the hash type at the end.  `fAnyoneCanPay`, `fHashSingle`
  and `fHashNone` leave parts out.

  Main result: `signatureHash_all_binds`.
-/
import Mathlib.Data.UInt
import PwrbCore.Serialize.Fields

namespace PwrbCore

open List

/-! ## §1. The code without separators. -/

variable {i : Nat}

/-- What is left where `GetOp2` fails: it has read the opcode and the size, if they are there. -/
def CScript.getOpStop : List UInt8 → List UInt8
  | [] => []
  | opcode :: pc =>
    if opcode = OP_PUSHDATA1 then pc.drop 1
    else if opcode = OP_PUSHDATA2 then (if pc.length < 2 then pc else pc.drop 2)
    else if opcode = OP_PUSHDATA4 then (if pc.length < 4 then pc else pc.drop 4)
    else pc

/-- The first loop of `SerializeScriptCode`: the number of separators. -/
def countCodeSeparators : Nat → List UInt8 → Nat
  | 0, _ => 0
  | fuel + 1, it =>
    match CScript.getOp it with
    | none => 0
    | some (opcode, _, it) => (if opcode = OP_CODESEPARATOR then 1 else 0) + countCodeSeparators fuel it

/-- The second loop: the stretches between separators, from `itBegin` on. -/
def writeBetweenSeparators : Nat → (itBegin it : List UInt8) → List UInt8
  | 0, _, _ => []
  | fuel + 1, itBegin, it =>
    match CScript.getOp it with
    | none =>
      let it := CScript.getOpStop it
      if itBegin ≠ [] then itBegin.take (itBegin.length - it.length) else []
    | some (opcode, _, it) =>
      if opcode = OP_CODESEPARATOR then
        itBegin.take (itBegin.length - it.length - 1) ++ writeBetweenSeparators fuel it it
      else writeBetweenSeparators fuel itBegin it

/-- `SerializeScriptCode`. Each instruction is a byte or more, so the loops end. -/
def serializeScriptCode (scriptCode : CScript) : List UInt8 :=
  writeCompactSize (scriptCode.length - countCodeSeparators (scriptCode.length + 1) scriptCode)
    ++ writeBetweenSeparators (scriptCode.length + 1) scriptCode scriptCode

/-! ## §2. The serializer. -/

def SIGHASH_ALL : UInt32 := 1
def SIGHASH_NONE : UInt32 := 2
def SIGHASH_SINGLE : UInt32 := 3
def SIGHASH_ANYONECANPAY : UInt32 := 0x80

structure CTransactionSignatureSerializer where
  txTo : CTransaction
  scriptCode : CScript
  nIn : Nat
  fAnyoneCanPay : Bool
  fHashSingle : Bool
  fHashNone : Bool

namespace CTransactionSignatureSerializer

/-- The constructor; `nHashType` is an `int`, here by its bits. -/
def ofHashType (txTo : CTransaction) (scriptCode : CScript) (nIn : Nat) (nHashType : UInt32) :
    CTransactionSignatureSerializer where
  txTo := txTo
  scriptCode := scriptCode
  nIn := nIn
  fAnyoneCanPay := nHashType &&& SIGHASH_ANYONECANPAY != 0
  fHashSingle := nHashType &&& 0x1f == SIGHASH_SINGLE
  fHashNone := nHashType &&& 0x1f == SIGHASH_NONE

section

variable (s : CTransactionSignatureSerializer)

def serializeInput (nInput : Nat) : List UInt8 :=
  let nInput := if s.fAnyoneCanPay then s.nIn else nInput
  match s.txTo.vin[nInput]? with
  | none => []
  | some txin =>
    txin.prevout.serialize ++ (if nInput ≠ s.nIn then CScript.serialize [] else serializeScriptCode s.scriptCode)
      ++ (if nInput ≠ s.nIn ∧ (s.fHashSingle ∨ s.fHashNone) then writeLE 4 0 else writeLE 4 txin.nSequence)

def serializeOutput (nOutput : Nat) : List UInt8 :=
  if s.fHashSingle ∧ nOutput ≠ s.nIn then CTxOut.null.serialize
  else
    match s.txTo.vout[nOutput]? with
    | none => []
    | some txout => txout.serialize

def nInputs : Nat := if s.fAnyoneCanPay then 1 else s.txTo.vin.length % 2 ^ 32

def nOutputs : Nat :=
  if s.fHashNone then 0 else if s.fHashSingle then (s.nIn + 1) % 2 ^ 32 else s.txTo.vout.length % 2 ^ 32

def serialize : List UInt8 :=
  writeInt 4 s.txTo.nVersion ++ (writeCompactSize s.nInputs ++ ((List.range s.nInputs).flatMap s.serializeInput
    ++ (writeCompactSize s.nOutputs
    ++ ((List.range s.nOutputs).flatMap s.serializeOutput
    ++ writeLE 4 s.txTo.nLockTime))))

end

end CTransactionSignatureSerializer

/-- What is hashed: `ss << txTmp << nHashType`. -/
def signatureMessage (scriptCode : CScript) (txTo : CTransaction) (nIn : Nat) (nHashType : UInt32) : List UInt8 :=
  (CTransactionSignatureSerializer.ofHashType txTo scriptCode nIn nHashType).serialize ++ writeLE 4 nHashType.toNat

/-- `SignatureHash`; `hash` is the double SHA256 of `CHashWriter`. -/
def signatureHash (hash : List UInt8 → Uint256) (scriptCode : CScript) (txTo : CTransaction) (nIn : Nat)
    (nHashType : UInt32) : Uint256 :=
  if txTo.vin.length ≤ nIn then 1
  else if nHashType &&& 0x1f = SIGHASH_SINGLE ∧ txTo.vout.length ≤ nIn then 1
  else hash (signatureMessage scriptCode txTo nIn nHashType)

/-! ## §3. Equal messages. -/

open CTransactionSignatureSerializer

/-- The transactions differ in scriptSigs only. -/
structure CTransaction.SameButScriptSigs (A B : CTransaction) : Prop where
  nVersion : A.nVersion = B.nVersion
  vin : A.vin.map (fun i => (i.prevout, i.nSequence)) = B.vin.map fun i => (i.prevout, i.nSequence)
  vout : A.vout = B.vout
  nLockTime : A.nLockTime = B.nLockTime

section All

variable {scriptCode : CScript} {A B : CTransaction} {n : Nat}

theorem ofHashType_all : ofHashType A scriptCode n SIGHASH_ALL = ⟨A, scriptCode, n, false, false, false⟩ := rfl

theorem serializeInput_all {txin : CTxIn} (hi : A.vin[i]? = some txin) :
    (ofHashType A scriptCode n SIGHASH_ALL).serializeInput i
      = txin.prevout.serialize ++ (if i ≠ n then CScript.serialize [] else serializeScriptCode scriptCode)
        ++ writeLE 4 txin.nSequence := by
  simp [ofHashType_all, serializeInput, hi]

/-- Inputs at one index are read back, whatever stands for their scripts. -/
theorem framed_serializeInput {a b : CTxIn} (ha : A.vin[i]? = some a) (hb : B.vin[i]? = some b)
    (hatyped : a.Typed) (hbtyped : b.Typed) : Framed ((ofHashType A scriptCode n SIGHASH_ALL).serializeInput i)
      ((ofHashType B scriptCode n SIGHASH_ALL).serializeInput i)
      (a.prevout = b.prevout ∧ a.nSequence = b.nSequence) := by
  rw [serializeInput_all ha, serializeInput_all hb]
  have hprevout := framed_outPoint hatyped.1 hbtyped.1
  have hscript := hprevout.append fun _ =>
    .refl (if i ≠ n then CScript.serialize [] else serializeScriptCode scriptCode)
  have hall := hscript.append fun _ => framed_writeLE (w := 4) hatyped.2 hbtyped.2
  exact hall.mono fun h => ⟨h.1.1, h.2⟩

theorem framed_serializeOutput {a b : CTxOut} (ha : A.vout[i]? = some a) (hb : B.vout[i]? = some b)
    (hatyped : a.Typed) (hbtyped : b.Typed) : Framed ((ofHashType A scriptCode n SIGHASH_ALL).serializeOutput i)
      ((ofHashType B scriptCode n SIGHASH_ALL).serializeOutput i) (a = b) := by
  have hout : ∀ {tx : CTransaction} {o : CTxOut}, tx.vout[i]? = some o →
      (ofHashType tx scriptCode n SIGHASH_ALL).serializeOutput i = o.serialize := by
    intro tx o ho
    simp [ofHashType_all, serializeOutput, ho]
  rw [hout ha, hout hb]
  exact framed_txOut hatyped hbtyped

/-- Messages for `SIGHASH_ALL` are equal only if the transactions are, up to scriptSigs. -/
theorem sameButScriptSigs_of_message (hA : A.Typed) (hB : B.Typed) (hAin : A.vin.length < 2 ^ 32)
    (hBin : B.vin.length < 2 ^ 32) (hAout : A.vout.length < 2 ^ 32) (hBout : B.vout.length < 2 ^ 32)
    (h : signatureMessage scriptCode A n SIGHASH_ALL = signatureMessage scriptCode B n SIGHASH_ALL) :
    A.SameButScriptSigs B := by
  have hins : ∀ {tx : CTransaction}, tx.vin.length < 2 ^ 32 →
      (ofHashType tx scriptCode n SIGHASH_ALL).nInputs = tx.vin.length :=
    fun hlt => Nat.mod_eq_of_lt hlt
  have houts : ∀ {tx : CTransaction}, tx.vout.length < 2 ^ 32 →
      (ofHashType tx scriptCode n SIGHASH_ALL).nOutputs = tx.vout.length :=
    fun hlt => Nat.mod_eq_of_lt hlt
  have hbody := append_cancel_right h
  unfold serialize at hbody
  rw [hins hAin, hins hBin, houts hAout, houts hBout] at hbody
  -- the stream is read from the front, field by field
  have hversion : Framed (writeInt 4 A.nVersion) (writeInt 4 B.nVersion) (A.nVersion = B.nVersion) := by
    grind [hA.nVersion, hB.nVersion, framed_writeInt]
  obtain ⟨hnVersion, hrest⟩ := hversion _ _ hbody
  obtain ⟨hvinLen, hrest⟩ := framed_writeCompactSize (by omega) (by omega) _ _ hrest
  rw [← hvinLen] at hrest
  obtain ⟨hvin, hrest⟩ := Framed.flatMap_range
    (P := fun i => A.vin[i]?.map (fun i => (i.prevout, i.nSequence)) = B.vin[i]?.map fun i => (i.prevout, i.nSequence))
    (fun i hi => by
      simp_all [framed_serializeInput, hA.vin, hB.vin]) _ _ hrest
  obtain ⟨hvoutLen, hrest⟩ := framed_writeCompactSize (by omega) (by omega) _ _ hrest
  rw [← hvoutLen] at hrest
  obtain ⟨hvout, hrest⟩ := Framed.flatMap_range (P := fun i => A.vout[i]? = B.vout[i]?)
    (fun i hi => by
      simp_all [framed_serializeOutput, hA.vout, hB.vout]) _ _ hrest
  refine ⟨hnVersion, ?_, ?_, writeLE_inj (w := 4) hA.nLockTime hB.nLockTime hrest⟩
  · refine ext_getElem?' fun i hi => ?_
    rw [length_map, length_map] at hi
    rw [getElem?_map, getElem?_map]
    exact hvin i (by omega)
  · exact ext_getElem?' fun i hi => hvout i (by omega)

end All

/-- A hash function without a collision among the messages of two transactions. -/
def NoCollision (hash : List UInt8 → Uint256) (m m' : List UInt8) : Prop := hash m = hash m' → m = m'

/-- **A signature binds its transaction.**  With `SIGHASH_ALL` and a hash without collision, equal
signature hashes come from transactions that differ in scriptSigs only.  `Typed` is what the C++
types hold; `ReadCompactSize` lets no vector of 2^32 inputs or outputs through. -/
theorem signatureHash_all_binds (hash : List UInt8 → Uint256) (scriptCode : CScript) {A B : CTransaction} {n : Nat}
    (hA : A.Typed) (hB : B.Typed) (hAin : A.vin.length < 2 ^ 32) (hBin : B.vin.length < 2 ^ 32)
    (hAout : A.vout.length < 2 ^ 32) (hBout : B.vout.length < 2 ^ 32) (hnA : n < A.vin.length) (hnB : n < B.vin.length)
    (hfree : NoCollision hash (signatureMessage scriptCode A n SIGHASH_ALL)
      (signatureMessage scriptCode B n SIGHASH_ALL))
    (h : signatureHash hash scriptCode A n SIGHASH_ALL = signatureHash hash scriptCode B n SIGHASH_ALL) :
    A.SameButScriptSigs B := by
  have hhash : ∀ {tx : CTransaction}, n < tx.vin.length →
      signatureHash hash scriptCode tx n SIGHASH_ALL = hash (signatureMessage scriptCode tx n SIGHASH_ALL) := by
    intro tx hn
    unfold signatureHash
    rw [if_neg (by omega), if_neg (fun hsingle => absurd hsingle.1 (by decide))]
  rw [hhash hnA, hhash hnB] at h
  exact sameButScriptSigs_of_message hA hB hAin hBin hAout hBout (hfree h)

def sampleSpend (scriptSig : CScript) (nInputs : Nat) : CTransaction where
  hash := 0
  vin := List.replicate nInputs { prevout := ⟨5, 0⟩, scriptSig := scriptSig }
  vout := [⟨7, [OP_1]⟩]

theorem sampleSpend_typed (scriptSig : CScript) (nInputs : Nat) : (sampleSpend scriptSig nInputs).Typed := by
  refine ⟨?_, ?_, ?_, ?_⟩
  · show -(2 ^ 31) ≤ (1 : Int) ∧ (1 : Int) < 2 ^ 31
    decide
  · intro i hi
    rw [(mem_replicate.mp hi).2]
    show 0 < 2 ^ 32 ∧ UINT32_MAX < 2 ^ 32
    decide
  · intro o ho
    rw [mem_singleton.mp ho]
    exact ⟨by decide, by decide⟩
  · show 0 < 2 ^ 32
    decide

/-- The signature of a spend before and after it was put into the scriptSig. -/
theorem sample_signature_binds :
    signatureHash (fun m => BitVec.ofNat 256 m.sum.toNat) [OP_CHECKSIG] (sampleSpend [] 1) 0 SIGHASH_ALL
        = signatureHash (fun m => BitVec.ofNat 256 m.sum.toNat) [OP_CHECKSIG] (sampleSpend [OP_1] 1) 0 SIGHASH_ALL ∧
      (sampleSpend [] 1).SameButScriptSigs (sampleSpend [OP_1] 1) :=
  ⟨rfl, signatureHash_all_binds (n := 0) (fun m => .ofNat 256 m.sum.toNat) [OP_CHECKSIG]
    (sampleSpend_typed [] 1) (sampleSpend_typed [OP_1] 1) (by decide) (by decide) (by decide)
      (by decide) (by decide) (by decide) (fun _ => rfl) rfl⟩

end PwrbCore
