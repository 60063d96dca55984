/-
  Primitives.Script — SERIALIZED SCRIPTS: the byte string carried by transaction inputs and outputs
  (`script/script.h`, `script/script.cpp`).

  A script is the byte list itself.  `getOp` is the one decoder every consumer
  goes through (interpreter, sigop counter, assembly printer, push-only test);
  the `is…` predicates are the source's fixed-offset byte tests.
-/
import Mathlib.Algebra.Order.Ring.Int
import Mathlib.Data.List.Basic

namespace PwrbCore

open UInt8

/-- Serialized script: the bytes of `CScriptBase`. -/
abbrev CScript := List UInt8

/-- `opcodetype` is an unscoped enum that any byte is cast into. -/
abbrev Opcode := UInt8

/-! ## §1. Opcode values. -/

def OP_0 : Opcode := 0x00
def OP_PUSHDATA1 : Opcode := 0x4c
def OP_PUSHDATA2 : Opcode := 0x4d
def OP_PUSHDATA4 : Opcode := 0x4e
def OP_1NEGATE : Opcode := 0x4f
def OP_RESERVED : Opcode := 0x50
def OP_1 : Opcode := 0x51
def OP_16 : Opcode := 0x60
def OP_NOP : Opcode := 0x61
def OP_IF : Opcode := 0x63
def OP_NOTIF : Opcode := 0x64
def OP_ELSE : Opcode := 0x67
def OP_ENDIF : Opcode := 0x68
def OP_VERIFY : Opcode := 0x69
def OP_RETURN : Opcode := 0x6a
def OP_DUP : Opcode := 0x76
def OP_ROT : Opcode := 0x7b
def OP_EQUAL : Opcode := 0x87
def OP_EQUALVERIFY : Opcode := 0x88
def OP_HASH160 : Opcode := 0xa9
def OP_CODESEPARATOR : Opcode := 0xab
def OP_CHECKSIG : Opcode := 0xac
def OP_CHECKSIGVERIFY : Opcode := 0xad
def OP_CHECKMULTISIG : Opcode := 0xae
def OP_CHECKMULTISIGVERIFY : Opcode := 0xaf
def OP_ZEROCOINMINT : Opcode := 0xc1
def OP_ZEROCOINSPEND : Opcode := 0xc2
def OP_ZEROCOINPUBLICSPEND : Opcode := 0xc3
def OP_CHECKCOLDSTAKEVERIFY : Opcode := 0xd1

/-- Consensus limit on the serialized size of a script. -/
def MAX_SCRIPT_SIZE : Nat := 10000

/-- Lock times below it are block heights. -/
def LOCKTIME_THRESHOLD : Nat := 500000000

namespace CScript

/-! ## §2. Decoding one instruction. -/

/-- The operand of a push: `n` bytes are taken; a script that ends too early does not decode. -/
def takeOperand (opcode : Opcode) (n : Nat) (pc : List UInt8) : Option (Opcode × List UInt8 × List UInt8) :=
  if pc.length < n then none else some (opcode, pc.take n, pc.drop n)

/-- `CScript::GetOp2`: the opcode at `pc`, its operand and the remaining bytes; `none` for `false`. -/
def getOp : List UInt8 → Option (Opcode × List UInt8 × List UInt8)
  | [] => none
  | opcode :: pc =>
    if opcode < OP_PUSHDATA1 then takeOperand opcode opcode.toNat pc
    else if opcode = OP_PUSHDATA1 then
      match pc with
      | n :: pc => takeOperand opcode n.toNat pc
      | _ => none
    else if opcode = OP_PUSHDATA2 then
      match pc with
      | b0 :: b1 :: pc => takeOperand opcode (b0.toNat + 256 * b1.toNat) pc
      | _ => none
    else if opcode = OP_PUSHDATA4 then
      match pc with
      | b0 :: b1 :: b2 :: b3 :: pc =>
        takeOperand opcode
          (b0.toNat + 256 * (b1.toNat + 256 * (b2.toNat + 256 * b3.toNat))) pc
      | _ => none
    else some (opcode, [], pc)

variable {opcode : Opcode} {pc : List UInt8} {r : Opcode × List UInt8 × List UInt8}

/-- **What `GetOp2` reads**: an opcode, for three opcodes the bytes of the operand's size, and the operand. -/
theorem getOp_inv {vch rest : List UInt8} (h : getOp pc = some (opcode, vch, rest)) :
    ∃ size, pc = opcode :: (size ++ (vch ++ rest)) ∧
      (size = [] ∧ (vch = [] ∨ opcode < OP_PUSHDATA1 ∧ opcode.toNat = vch.length) ∨
        (0 < size.length ∧ size.length ≤ 4) ∧ opcode ∈ [OP_PUSHDATA1, OP_PUSHDATA2, OP_PUSHDATA4]) := by
  have htake : ∀ {op n bytes}, takeOperand op n bytes = some (opcode, vch, rest) →
      op = opcode ∧ bytes = vch ++ rest ∧ n = vch.length := by
    intro op n bytes ht
    unfold takeOperand at ht
    split at ht
    · cases ht
    next hlong =>
      cases ht
      exact ⟨rfl, (List.take_append_drop n bytes).symm, (List.length_take_of_le (Nat.le_of_not_lt hlong)).symm⟩
  cases pc with
  | nil => cases h
  | cons op pc =>
    simp only [getOp] at h
    split at h
    next hdirect =>
      obtain ⟨rfl, rfl, hlength⟩ := htake h
      exact ⟨[], rfl, .inl ⟨rfl, .inr ⟨hdirect, hlength⟩⟩⟩
    -- the other three push forms have one, two or four bytes for the size
    split at h
    · split at h
      · obtain ⟨rfl, rfl, -⟩ := htake h
        exact ⟨[_], rfl, .inr ⟨by simp, by simp [*]⟩⟩
      · cases h
    split at h
    · split at h
      · obtain ⟨rfl, rfl, -⟩ := htake h
        exact ⟨[_, _], rfl, .inr ⟨by simp, by simp [*]⟩⟩
      · cases h
    split at h
    · split at h
      · obtain ⟨rfl, rfl, -⟩ := htake h
        exact ⟨[_, _, _, _], rfl, .inr ⟨by simp, by simp [*]⟩⟩
      · cases h
    · cases h
      exact ⟨[], rfl, .inl ⟨rfl, .inl rfl⟩⟩

/-- Every instruction consumes its opcode byte, so each loop over `getOp` terminates. -/
theorem getOp_rest_length (h : getOp pc = some r) : r.2.2.length < pc.length := by
  obtain ⟨opcode, vch, rest⟩ := r
  obtain ⟨size, rfl, -⟩ := getOp_inv h
  simp only [List.length_cons, List.length_append]
  omega

theorem getOp_plain (h : OP_PUSHDATA4 < opcode) (rest : List UInt8) :
    getOp (opcode :: rest) = some (opcode, [], rest) := by
  have h1 : ¬ opcode < OP_PUSHDATA1 := fun hlt => absurd (UInt8.lt_trans h hlt) (by decide)
  have h2 : opcode ≠ OP_PUSHDATA1 := fun e => by subst e; exact absurd h (by decide)
  have h3 : opcode ≠ OP_PUSHDATA2 := fun e => by subst e; exact absurd h (by decide)
  have h4 : opcode ≠ OP_PUSHDATA4 := fun e => by subst e; exact absurd h (by decide)
  simp only [getOp, if_neg h1, if_neg h2, if_neg h3, if_neg h4]

theorem getOp_opcode (h : getOp (opcode :: pc) = some r) : r.1 = opcode := by
  obtain ⟨size, hpc, -⟩ := getOp_inv h
  exact (List.cons.inj hpc).1.symm

/-! ## §3. The byte-test predicates. -/

def startsWithOpcode (opcode : Opcode) (s : CScript) : Bool := s.head? == some opcode

def isZerocoinMint (s : CScript) : Bool := startsWithOpcode OP_ZEROCOINMINT s
def isZerocoinSpend (s : CScript) : Bool := startsWithOpcode OP_ZEROCOINSPEND s
def isZerocoinPublicSpend (s : CScript) : Bool := startsWithOpcode OP_ZEROCOINPUBLICSPEND s

/-- `IsUnspendable`: sure to fail, so the output never enters the UTXO set. -/
def isUnspendable (s : CScript) : Bool :=
  startsWithOpcode OP_RETURN s || decide (MAX_SCRIPT_SIZE < s.length)

def isPayToScriptHash (s : CScript) : Bool :=
  s.length == 23 && s[0]? == some OP_HASH160 && s[1]? == some 0x14 && s[22]? == some OP_EQUAL

/-- `IsPayToColdStaking`: only seven of the 51 bytes are looked at. -/
def isPayToColdStaking (s : CScript) : Bool :=
  s.length == 51 && s[2]? == some OP_ROT && s[4]? == some OP_CHECKCOLDSTAKEVERIFY
    && s[5]? == some 0x14 && s[27]? == some 0x14
    && s[49]? == some OP_EQUALVERIFY && s[50]? == some OP_CHECKSIG

/-! ## §4. Building scripts. -/

/-- `operator<<(std::vector<unsigned char>)`: the shortest push of `b`. -/
def pushData (b : List UInt8) : CScript :=
  if b.length < OP_PUSHDATA1.toNat then ofNat b.length :: b
  else if b.length ≤ 0xff then OP_PUSHDATA1 :: ofNat b.length :: b
  else if b.length ≤ 0xffff then
    OP_PUSHDATA2 :: ofNat b.length :: ofNat (b.length / 256) :: b
  else
    OP_PUSHDATA4 :: ofNat b.length :: ofNat (b.length / 256)
      :: ofNat (b.length / 65536) :: ofNat (b.length / 16777216) :: b

/-- **A push is read back**, by one of the four push forms. -/
theorem getOp_pushData {b : List UInt8} (h : b.length < 2 ^ 32) (rest : List UInt8) :
    ∃ opcode ≤ OP_PUSHDATA4, getOp (pushData b ++ rest) = some (opcode, b, rest) := by
  have htake : ∀ opcode n, n = b.length → takeOperand opcode n (b ++ rest) = some (opcode, b, rest) := by
    rintro opcode n rfl
    simp [takeOperand]
  have hbyte : ∀ n, (ofNat n).toNat = n % 256 := fun n => toNat_ofNat'
  unfold pushData
  split
  next hdirect =>
    change b.length < 76 at hdirect
    have hnat : (ofNat b.length).toNat = b.length := by
      rw [hbyte]
      omega
    have hlt : ofNat b.length < OP_PUSHDATA1 := by
      rw [lt_iff_toNat_lt, hnat]
      exact hdirect
    refine ⟨ofNat b.length, UInt8.le_of_lt (UInt8.lt_trans hlt (by decide)), ?_⟩
    exact (if_pos hlt).trans (htake _ _ hnat)
  next =>
  split
  · exact ⟨OP_PUSHDATA1, by decide, htake _ _ (by rw [hbyte]; omega)⟩
  split
  · exact ⟨OP_PUSHDATA2, by decide, htake _ _ (by simp only [hbyte]; omega)⟩
  · exact ⟨OP_PUSHDATA4, by decide, htake _ _ (by simp only [hbyte]; omega)⟩

end CScript

end PwrbCore
