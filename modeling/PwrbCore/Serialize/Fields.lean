/-
  Serialize.Fields — HOW THE PARTS OF A TRANSACTION ARE WRITTEN (`serialize.h`, `primitives/transaction.h`).

  Integers are little-endian at the width of their C++ type, sizes are compact, a script is
  its size and its bytes.  The model's numbers are unbounded; `Typed` says that a
  transaction has values its C++ types can hold, and for those each writer is `Framed`.  Main result:
  `integer_encodings_exact`.
-/
import Mathlib.Tactic.NormNum
import Mathlib.Tactic.Positivity
import Mathlib.Tactic.Zify
import PwrbCore.Lib.Framing
import PwrbCore.Primitives.Transaction
import PwrbCore.Serialize.VarInt

namespace PwrbCore

/-! ## §1. Little-endian integers. -/

variable {w m n : Nat}

/-- `ser_writedata8/16/32/64`: the low `w` bytes. -/
def writeLE : (w : Nat) → (n : Nat) → List UInt8
  | 0, _ => []
  | w + 1, n => UInt8.ofNat n :: writeLE w (n / 256)

@[simp] theorem length_writeLE (w n : Nat) : (writeLE w n).length = w := by
  induction w generalizing n with
  | zero => rfl
  | succ w ih =>
    show (writeLE w (n / 256)).length + 1 = w + 1
    rw [ih]

/-- `ser_readdata8/16/32/64`; `none` at the end of the stream. -/
def readLE : (w : Nat) → (is : List UInt8) → Option (Nat × List UInt8)
  | 0, is => some (0, is)
  | _ + 1, [] => none
  | w + 1, b :: is => (readLE w is).map fun r => (b.toNat + 256 * r.1, r.2)

/-- **Exactly the written bytes are read**, and nothing else is. -/
theorem readLE_eq_some_iff {is rest : List UInt8} :
    readLE w is = some (n, rest) ↔ n < 256 ^ w ∧ is = writeLE w n ++ rest := by
  induction w generalizing n is with
  | zero => simp [readLE, writeLE, eq_comm]
  | succ w ih =>
    cases is with
    | nil => simp [readLE, writeLE]
    | cons b is =>
      have hb := b.toNat_lt
      simp only [readLE, writeLE, Option.map_eq_some_iff, Prod.mk.injEq, List.cons_append, List.cons.injEq]
      constructor
      · rintro ⟨⟨k, rest'⟩, hk, rfl, rfl⟩
        obtain ⟨hlt, rfl⟩ := ih.mp hk
        refine ⟨by omega, ?_, ?_⟩
        · apply UInt8.toNat_inj.mp
          rw [UInt8.toNat_ofNat']
          omega
        · rw [show (b.toNat + 256 * k) / 256 = k by omega]
      · rintro ⟨hlt, rfl, htail⟩
        refine ⟨(n / 256, rest), ih.mpr ⟨by omega, htail⟩, ?_, rfl⟩
        rw [UInt8.toNat_ofNat']
        omega

theorem writeLE_inj (hm : m < 256 ^ w) (hn : n < 256 ^ w) (h : writeLE w m = writeLE w n) : m = n := by
  have hread : ∀ k < 256 ^ w, readLE w (writeLE w k) = some (k, []) :=
    fun k hk => readLE_eq_some_iff.mpr ⟨hk, (List.append_nil _).symm⟩
  have heq := hread m hm
  rw [h, hread n hn] at heq
  cases heq
  rfl

theorem framed_writeLE (hm : m < 256 ^ w) (hn : n < 256 ^ w) : Framed (writeLE w m) (writeLE w n) (m = n) :=
  .of_length (by simp) (writeLE_inj hm hn)

/-- A signed integer of `w` bytes: two's complement. -/
def writeInt (w : Nat) (n : Int) : List UInt8 := writeLE w (n % 256 ^ w).toNat

theorem framed_writeInt {m n : Int} (hm : -(256 ^ w) ≤ 2 * m ∧ 2 * m < 256 ^ w)
    (hn : -(256 ^ w) ≤ 2 * n ∧ 2 * n < 256 ^ w) : Framed (writeInt w m) (writeInt w n) (m = n) := by
  have hpos : (0 : Int) < 256 ^ w := by positivity
  have hbound : ∀ k : Int, (k % 256 ^ w).toNat < 256 ^ w := by
    simp [Int.emod_lt_of_pos]
  refine (framed_writeLE (hbound m) (hbound n)).mono fun heq => ?_
  have hmod : m % (256 ^ w : Nat) = n % (256 ^ w : Nat) := by
    push_cast
    omega
  -- both are the balanced residue
  have hself : ∀ {k : Int}, -(256 ^ w) ≤ 2 * k ∧ 2 * k < 256 ^ w → (k % (256 ^ w : Nat)).bmod (256 ^ w) = k := fun hk =>
    (Int.emod_bmod _ _).trans (Int.bmod_eq_of_le_mul_two (by push_cast; omega) (by push_cast; omega))
  rw [← hself hm, hmod, hself hn]

/-! ## §2. Compact sizes. -/

def writeCompactSize (nSize : Nat) : List UInt8 :=
  if nSize < 253 then writeLE 1 nSize
  else if nSize ≤ 0xffff then writeLE 1 253 ++ writeLE 2 nSize
  else if nSize ≤ 0xffffffff then writeLE 1 254 ++ writeLE 4 nSize
  else writeLE 1 255 ++ writeLE 8 nSize

/-- The first byte: the size itself or the mark of a longer form. -/
def compactTag (nSize : Nat) : Nat :=
  if nSize < 253 then nSize else if nSize ≤ 0xffff then 253 else if nSize ≤ 0xffffffff then 254 else 255

/-- The number of bytes after it. -/
def compactWidth (tag : Nat) : Nat := if tag < 253 then 0 else if tag = 253 then 2 else if tag = 254 then 4 else 8

theorem writeCompactSize_eq (nSize : Nat) :
    writeCompactSize nSize = writeLE 1 (compactTag nSize) ++ writeLE (compactWidth (compactTag nSize)) nSize := by
  unfold writeCompactSize compactTag
  split_ifs with h1 h2 h3
  · have hwidth : compactWidth nSize = 0 := if_pos h1
    rw [hwidth]
    exact (List.append_nil _).symm
  · rfl
  · rfl
  · rfl

theorem framed_writeCompactSize (hm : m < 2 ^ 64) (hn : n < 2 ^ 64) :
    Framed (writeCompactSize m) (writeCompactSize n) (m = n) := by
  have htag : ∀ k, compactTag k < 256 ^ 1 := by
    intro k
    unfold compactTag
    split_ifs <;> omega
  rw [writeCompactSize_eq, writeCompactSize_eq]
  refine .mono (.append (Q := m = n) (framed_writeLE (htag m) (htag n)) fun heq => ?_) And.right
  rw [← heq]
  refine .of_length (by simp) fun hbytes => ?_
  -- one tag, so one range of sizes
  unfold compactTag compactWidth at hbytes
  unfold compactTag at heq
  split_ifs at heq hbytes <;> first
    | omega
    | exact writeLE_inj (by omega) (by omega) hbytes

def MAX_SIZE : Nat := 0x02000000

/-- `ReadCompactSize`; `none` where it throws. -/
def readCompactSize (is : List UInt8) : Option (Nat × List UInt8) :=
  (readLE 1 is).bind fun (chSize, is) => Option.filter (fun r => r.1 ≤ MAX_SIZE) <|
    if chSize < 253 then some (chSize, is)
    else if chSize = 253 then (readLE 2 is).filter fun r => 253 ≤ r.1
    else if chSize = 254 then (readLE 4 is).filter fun r => 0x10000 ≤ r.1
    else (readLE 8 is).filter fun r => 0x100000000 ≤ r.1

/-- **Only canonical sizes are read.** -/
theorem readCompactSize_eq_some_iff {is rest : List UInt8} :
    readCompactSize is = some (n, rest) ↔ n ≤ MAX_SIZE ∧ is = writeCompactSize n ++ rest := by
  unfold readCompactSize writeCompactSize MAX_SIZE
  simp only [Option.bind_eq_some_iff, Prod.exists, readLE_eq_some_iff, Option.filter_eq_some_iff, decide_eq_true_eq]
  constructor
  · rintro ⟨chSize, tail, ⟨hch, rfl⟩, hsize, hle⟩
    refine ⟨hle, ?_⟩
    split_ifs at hsize with h1 h2 h3
    · cases hsize
      rw [if_pos h1]
    all_goals
      simp only [Option.filter_eq_some_iff, decide_eq_true_eq, readLE_eq_some_iff] at hsize
      obtain ⟨⟨hlt, rfl⟩, hmin⟩ := hsize
    · grind
    · grind
    · omega
  · rintro ⟨hle, rfl⟩
    split_ifs with h1 h2 h3
    · exact ⟨n, rest, ⟨by omega, rfl⟩, if_pos h1, hle⟩
    · refine ⟨253, _, ⟨by omega, List.append_assoc _ _ _⟩, ?_, hle⟩
      simp [Option.filter_eq_some_iff, readLE_eq_some_iff]
      omega
    · refine ⟨254, _, ⟨by omega, List.append_assoc _ _ _⟩, ?_, hle⟩
      simp [Option.filter_eq_some_iff, readLE_eq_some_iff]
      omega
    · omega

/-- **Integers of variable length are read back exactly**, and no varint of 64 bits starts with another's. -/
theorem integer_encodings_exact :
    (∀ n : Int, 0 ≤ n → n < 2 ^ 64 → (∀ rest, readVarInt64 (writeVarInt n ++ rest) = some (n, rest)) ∧
      (∀ m : Int, 0 ≤ m → m < 2 ^ 64 → writeVarInt m <+: writeVarInt n → m = n) ∧
      getSizeOfVarInt n = (writeVarInt n).length) ∧
    (∀ n ≤ MAX_SIZE, ∀ rest, readCompactSize (writeCompactSize n ++ rest) = some (n, rest)) ∧
    ∀ is n rest, readCompactSize is = some (n, rest) → is = writeCompactSize n ++ rest := by
  refine ⟨fun n h0 hn => ⟨fun rest => readVarInt64_writeVarInt rest h0 hn, ?_, (length_writeVarInt n).symm⟩, ?_, ?_⟩
  · rintro m hm0 hm ⟨rest, happ⟩
    have hread := readVarInt64_writeVarInt [] h0 hn
    rw [List.append_nil, ← happ, readVarInt64_writeVarInt rest hm0 hm] at hread
    cases hread
    rfl
  · exact fun n hn rest => readCompactSize_eq_some_iff.mpr ⟨hn, rfl⟩
  · exact fun is n rest h => (readCompactSize_eq_some_iff.mp h).2

/-! ## §3. Outpoints, scripts, outputs. -/

/-- A hash: its 32 bytes. -/
def Uint256.serialize (h : Uint256) : List UInt8 := writeLE 32 h.toNat

def COutPoint.serialize (o : COutPoint) : List UInt8 := o.hash.serialize ++ writeLE 4 o.n

/-- `CScriptBase`: a vector of bytes. -/
def CScript.serialize (s : CScript) : List UInt8 := writeCompactSize s.length ++ s

def CTxOut.serialize (o : CTxOut) : List UInt8 := writeInt 8 o.nValue ++ CScript.serialize o.scriptPubKey

theorem framed_outPoint {o o' : COutPoint} (h : o.n < 2 ^ 32) (h' : o'.n < 2 ^ 32) :
    Framed o.serialize o'.serialize (o = o') := by
  have hhash : Framed o.hash.serialize o'.hash.serialize (o.hash.toNat = o'.hash.toNat) :=
    framed_writeLE o.hash.isLt o'.hash.isLt
  refine (hhash.append fun _ => framed_writeLE (w := 4) h h').mono ?_
  intro heq
  obtain ⟨hash, n⟩ := o
  obtain ⟨hash', n'⟩ := o'
  obtain rfl : hash = hash' := BitVec.eq_of_toNat_eq heq.1
  obtain rfl : n = n' := heq.2
  rfl

theorem framed_script {s s' : CScript} (h : s.length < 2 ^ 64) (h' : s'.length < 2 ^ 64) :
    Framed (CScript.serialize s) (CScript.serialize s') (s = s') :=
  ((framed_writeCompactSize h h').append fun hlen => .of_length hlen id).mono And.right

/-! ## §4. What the types hold. -/

/-- `CAmount` is 64 bits wide, a vector has fewer than 2^64 elements. -/
def CTxOut.Typed (o : CTxOut) : Prop := (-(2 ^ 63) ≤ o.nValue ∧ o.nValue < 2 ^ 63) ∧ o.scriptPubKey.length < 2 ^ 64

/-- The parts of an input are 32 bits wide. -/
def CTxIn.Typed (i : CTxIn) : Prop := i.prevout.n < 2 ^ 32 ∧ i.nSequence < 2 ^ 32

/-- **A transaction as its C++ types hold it.** -/
structure CTransaction.Typed (tx : CTransaction) : Prop where
  nVersion : -(2 ^ 31) ≤ tx.nVersion ∧ tx.nVersion < 2 ^ 31
  vin : ∀ i ∈ tx.vin, i.Typed
  vout : ∀ o ∈ tx.vout, o.Typed
  nLockTime : tx.nLockTime < 2 ^ 32

theorem framed_txOut {o o' : CTxOut} (h : o.Typed) (h' : o'.Typed) : Framed o.serialize o'.serialize (o = o') := by
  have hvalue : Framed (writeInt 8 o.nValue) (writeInt 8 o'.nValue) (o.nValue = o'.nValue) := by
    obtain ⟨hlo, hhi⟩ := h.1
    obtain ⟨hlo', hhi'⟩ := h'.1
    exact framed_writeInt (w := 8) (by omega) (by omega)
  refine (hvalue.append fun _ => framed_script h.2 h'.2).mono ?_
  intro heq
  obtain ⟨nValue, scriptPubKey⟩ := o
  simp_all

end PwrbCore
