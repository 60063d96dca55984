/-
  Primitives.Transaction — TRANSACTIONS AND BLOCKS (`primitives/transaction.h`, `primitives/transaction.cpp`,
  `primitives/block.h`).

  `CTransaction` and `CBlock` carry their hash as a field, as the source caches it:
  nothing below depends on how the hash is computed.
-/
import PwrbCore.Primitives.Script

namespace PwrbCore

/-- 256-bit hashes: transaction ids, block ids, merkle roots. -/
abbrev Uint256 := BitVec 256

instance : LawfulBEq Uint256 := inferInstance

/-! ## §1. Amounts. -/

/-- Amounts (`CAmount`) are `int64_t`; every path that adds them has bounded them, so they are integers here, with a
bound where the source tests one. -/
def COIN : Int := 100000000

/-- `std::numeric_limits<int64_t>::max()`. -/
def INT64_MAX : Int := 2 ^ 63 - 1

/-! ## §2. Outpoints, inputs, outputs. -/

structure COutPoint where
  hash : Uint256
  n : Nat
  deriving DecidableEq, Repr

/-- `(uint32_t) -1`. -/
def UINT32_MAX : Nat := 4294967295

/-- `COutPoint::IsNull`: the prevout of a coinbase input. -/
def COutPoint.isNull (o : COutPoint) : Bool := o.hash == 0 && o.n == UINT32_MAX

structure CTxIn where
  prevout : COutPoint
  scriptSig : CScript
  nSequence : Nat := UINT32_MAX
  deriving DecidableEq, Repr

namespace CTxIn

/-- `CTxIn(hashPrevTx, nOut)`. -/
abbrev of (hashPrevTx : Uint256) (nOut : Nat) : CTxIn := { prevout := ⟨hashPrevTx, nOut⟩, scriptSig := [] }

/-- A private zerocoin spend names no previous output: its prevout hash is null. -/
def isZerocoinSpend (i : CTxIn) : Bool := i.prevout.hash == 0 && i.scriptSig.isZerocoinSpend

def isZerocoinPublicSpend (i : CTxIn) : Bool := i.scriptSig.isZerocoinPublicSpend

/-- `CTxIn::IsFinal`. -/
def isFinal (txin : CTxIn) : Bool := txin.nSequence == UINT32_MAX

end CTxIn

structure CTxOut where
  nValue : Int
  scriptPubKey : CScript
  deriving DecidableEq, Repr

namespace CTxOut

/-- `CTxOut::SetNull`, also the default constructor: how a spent output is stored. -/
def null : CTxOut := ⟨-1, []⟩

/-- `CTxOut::IsNull` looks at the value only. -/
def isNull (o : CTxOut) : Bool := o.nValue == -1

/-- `CTxOut::IsEmpty`: the coinstake marker. -/
def isEmpty (o : CTxOut) : Bool := o.nValue == 0 && o.scriptPubKey.isEmpty

def isZerocoinMint (o : CTxOut) : Bool := o.scriptPubKey.isZerocoinMint

@[simp] theorem isNull_null : null.isNull = true := rfl

theorem isNull_eq_false_of_nonneg {o : CTxOut} (h : 0 ≤ o.nValue) : o.isNull = false := by
  simp only [isNull, beq_eq_false_iff_ne]
  omega

end CTxOut

/-! ## §3. Transactions. -/

structure CTransaction where
  hash : Uint256
  nVersion : Int := 1
  vin : List CTxIn
  vout : List CTxOut
  nLockTime : Nat := 0
  deriving DecidableEq, Repr

namespace CTransaction

section

variable (tx : CTransaction)

def hasZerocoinSpendInputs : Bool :=
  tx.vin.any fun i => i.isZerocoinSpend || i.isZerocoinPublicSpend

def hasZerocoinPublicSpendInputs : Bool :=
  tx.vin.any CTxIn.isZerocoinPublicSpend

def hasZerocoinMintOutputs : Bool := tx.vout.any CTxOut.isZerocoinMint

def containsZerocoins : Bool :=
  tx.hasZerocoinSpendInputs || tx.hasZerocoinPublicSpendInputs || tx.hasZerocoinMintOutputs

/-- `IsCoinBase`: exactly one input, with a null prevout, and no zerocoins. -/
def isCoinBase : Bool :=
  (match tx.vin with
    | [i] => i.prevout.isNull
    | _ => false)
  && !tx.containsZerocoins

/-- `IsCoinStake`: a real first input (or a zerocoin spend), two outputs or more, the first the empty marker. -/
def isCoinStake : Bool :=
  match tx.vin, tx.vout with
  | i :: _, marker :: _ :: _ => !(i.prevout.isNull && !i.isZerocoinSpend) && marker.isEmpty
  | _, _ => false

/-- `GetValueOut`: the sum of the outputs; `none` where the source throws, on a negative output or a sum outside
`int64_t`. -/
def getValueOut : Option Int :=
  tx.vout.foldlM (fun acc o =>
    if o.nValue < 0 then none
    else if INT64_MAX < acc + o.nValue then none
    else some (acc + o.nValue)) 0

def hasP2CSOutputs : Bool :=
  tx.vout.any fun o => o.scriptPubKey.isPayToColdStaking

def prevouts : List COutPoint := tx.vin.map CTxIn.prevout

end

/-! ## §4. The cold-stake rule. -/

/-- The loop `for (i = 2; i < vout.size() - 1; i++)` of `CheckColdStake`: every output between `vout[1]` and the last
one pays `script`. -/
def innerOutputsPay (script : CScript) (tx : CTransaction) : Bool :=
  (tx.vout.dropLast.drop 2).all fun o => o.scriptPubKey == script

/-- `CTransaction::CheckColdStake`: a coinstake whose inputs share one scriptSig
and whose outputs pay `script`. -/
def checkColdStake (script : CScript) (tx : CTransaction) : Bool :=
  if !tx.isCoinStake then false
  else if !(tx.vin.tail.all fun i => tx.vin.head?.map CTxIn.scriptSig == some i.scriptSig) then
    false
  else if tx.vout[1]?.map CTxOut.scriptPubKey != some script then false
  -- the source guards the loop over the OUTPUTS by the number of INPUTS
  else if decide (3 < tx.vin.length) then tx.innerOutputsPay script
  else true

end CTransaction

/-! ## §5. Blocks. -/

structure CBlock where
  hash : Uint256
  nVersion : Int := 7
  hashPrevBlock : Uint256
  hashMerkleRoot : Uint256 := 0
  nTime : Nat
  nBits : Nat := 0
  nNonce : Nat := 0
  vtx : List CTransaction
  vchBlockSig : List UInt8 := []
  deriving DecidableEq, Repr

namespace CBlock

/-- `IsProofOfStake`: the second transaction is the coinstake. -/
def isProofOfStake (b : CBlock) : Bool :=
  match b.vtx with
  | _ :: tx :: _ => tx.isCoinStake
  | _ => false

def isProofOfWork (b : CBlock) : Bool := !b.isProofOfStake

end CBlock

end PwrbCore
