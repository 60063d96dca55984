/-
  Serialize.VarInt — VARIABLE-LENGTH INTEGERS (`WriteVarInt` / `ReadVarInt` of `serialize.h`): base 128,
  most significant group first, bit 7 set on every byte but the last, and one
  subtracted from the rest at each group so that no value has two encodings.

  The templates are instantiated at signed types too.  The writer stops at
  `n <= 0x7F`, which a negative number meets at once, so only its low seven bits
  reach the stream: `readVarInt_writeVarInt` is the round trip for `0 ≤ n`, and
  `readVarInt_writeVarInt_neg` says what comes back otherwise.  §2 is the instance at `uint64_t`,
  where the reader wraps.
-/
import Mathlib.Algebra.Order.Ring.Int

namespace PwrbCore

variable {n : Int}

/-! ## §1. Writer and reader. -/

/-- The loop of `WriteVarInt`; `tmp` holds the groups so far, the first of which (`len = 0`) alone has no bit 7. -/
def writeVarIntLoop : Nat → Int → List UInt8 → List UInt8
  | 0, _, tmp => tmp
  | fuel + 1, n, tmp =>
    let ch : UInt8 := UInt8.ofNat ((n % 128).toNat + if tmp = [] then 0 else 128)
    if n ≤ 127 then ch :: tmp else writeVarIntLoop fuel (n / 128 - 1) (ch :: tmp)

/-- `WriteVarInt`.  Each round divides by 128, so `n` rounds are more than enough. -/
def writeVarInt (n : Int) : List UInt8 := writeVarIntLoop (n.toNat + 1) n []

/-- `ReadVarInt`, from the accumulated value `n`; `none` at the end of the stream. -/
def readVarIntLoop (n : Int) : List UInt8 → Option (Int × List UInt8)
  | [] => none
  | chData :: is =>
    let n := n * 128 + (chData.toNat % 128 : Nat)
    if chData.toNat < 128 then some (n, is) else readVarIntLoop (n + 1) is

def readVarInt (is : List UInt8) : Option (Int × List UInt8) := readVarIntLoop 0 is

/-- A group with the continuation bit. -/
theorem readVarIntLoop_group (a n : Int) (rest : List UInt8) :
    readVarIntLoop a (UInt8.ofNat ((n % 128).toNat + 128) :: rest) = readVarIntLoop (a * 128 + n % 128 + 1) rest := by
  have hch : (UInt8.ofNat ((n % 128).toNat + 128)).toNat = (n % 128).toNat + 128 := by
    rw [UInt8.toNat_ofNat']
    omega
  rw [readVarIntLoop, if_neg (by omega)]
  congr 1
  omega

/-- The group that is written first and read last. -/
theorem readVarIntLoop_lastGroup (a n : Int) (rest : List UInt8) :
    readVarIntLoop a (UInt8.ofNat ((n % 128).toNat + 0) :: rest) = some (a * 128 + n % 128, rest) := by
  have hch : (UInt8.ofNat ((n % 128).toNat + 0)).toNat = (n % 128).toNat := by
    rw [UInt8.toNat_ofNat']
    omega
  rw [readVarIntLoop, if_pos (by omega)]
  congr 2
  omega

/-- Reading back the groups of `n` in front of a non-empty `tmp` leaves `n + 1`: the carry that undoes the writer's
subtraction. -/
theorem readVarIntLoop_writeVarIntLoop (fuel : Nat) (n : Int) (tmp rest : List UInt8)
    (hn : 0 ≤ n) (hfuel : n < fuel) (htmp : tmp ≠ []) : readVarIntLoop 0 (writeVarIntLoop fuel n tmp ++ rest)
      = readVarIntLoop (n + 1) (tmp ++ rest) := by
  induction fuel generalizing n tmp with
  | zero => omega
  | succ fuel ih =>
    unfold writeVarIntLoop
    simp only [if_neg htmp]
    split_ifs with h
    · rw [List.cons_append, readVarIntLoop_group]
      congr 1
      omega
    · rw [ih (n / 128 - 1) (_ :: tmp) (by omega) (by omega) (by simp), List.cons_append, readVarIntLoop_group]
      congr 1
      omega

/-- **Round trip** for non-negative values: the value comes back, and exactly its bytes are consumed. -/
theorem readVarInt_writeVarInt (n : Int) (rest : List UInt8) (hn : 0 ≤ n) :
    readVarInt (writeVarInt n ++ rest) = some (n, rest) := by
  unfold readVarInt writeVarInt writeVarIntLoop
  simp only [if_true]
  split_ifs with h
  · rw [List.cons_append, readVarIntLoop_lastGroup]
    grind
  · rw [readVarIntLoop_writeVarIntLoop _ _ _ _ (by omega) (by omega) (by simp), List.cons_append,
      readVarIntLoop_lastGroup]
    grind

theorem readVarInt_writeVarInt_neg (n : Int) (rest : List UInt8) (hn : n < 0) :
    readVarInt (writeVarInt n ++ rest) = some (n % 128, rest) := by
  unfold readVarInt writeVarInt writeVarIntLoop
  simp only [if_true]
  rw [if_pos (by omega), List.cons_append, readVarIntLoop_lastGroup]
  grind

/-! ## §2. At `uint64_t`. -/

def readVarInt64Loop (n : Int) : List UInt8 → Option (Int × List UInt8)
  | [] => none
  | chData :: is =>
    let n := (n * 128 + (chData.toNat % 128 : Nat)) % 2 ^ 64
    if chData.toNat < 128 then some (n, is) else readVarInt64Loop ((n + 1) % 2 ^ 64) is

/-- `ReadVarInt<Stream, uint64_t>`: the shift and the increment wrap. -/
def readVarInt64 (is : List UInt8) : Option (Int × List UInt8) := readVarInt64Loop 0 is

def getSizeOfVarIntLoop : Nat → Int → Nat → Nat
  | 0, _, nRet => nRet
  | fuel + 1, n, nRet => if n ≤ 127 then nRet + 1 else getSizeOfVarIntLoop fuel (n / 128 - 1) (nRet + 1)

def getSizeOfVarInt (n : Int) : Nat := getSizeOfVarIntLoop (n.toNat + 1) n 0

/-- The wrapping reader is the exact one modulo 2^64. -/
theorem readVarInt64Loop_eq (n : Int) (is : List UInt8) :
    readVarInt64Loop (n % 2 ^ 64) is = (readVarIntLoop n is).map fun r => (r.1 % 2 ^ 64, r.2) := by
  induction is generalizing n with
  | nil => rfl
  | cons chData is ih =>
    unfold readVarInt64Loop readVarIntLoop
    split_ifs with h
    · simp only [Option.map_some, Option.some.injEq, Prod.mk.injEq, and_true]
      omega
    · rw [← ih]
      dsimp only
      congr 1
      omega

theorem readVarInt64_writeVarInt (rest : List UInt8) (h0 : 0 ≤ n) (hn : n < 2 ^ 64) :
    readVarInt64 (writeVarInt n ++ rest) = some (n, rest) := by
  have hread := readVarInt64Loop_eq 0 (writeVarInt n ++ rest)
  have hexact : readVarIntLoop 0 (writeVarInt n ++ rest) = some (n, rest) := readVarInt_writeVarInt n rest h0
  rw [hexact, Option.map_some, Int.emod_eq_of_lt h0 hn] at hread
  exact hread

theorem length_writeVarInt (n : Int) : (writeVarInt n).length = getSizeOfVarInt n := by
  have hloop : ∀ (fuel : Nat) (n : Int) (tmp : List UInt8),
      (writeVarIntLoop fuel n tmp).length = getSizeOfVarIntLoop fuel n tmp.length := by
    intro fuel
    induction fuel with
    | zero => exact fun _ _ => rfl
    | succ fuel ih =>
      intro n tmp
      unfold writeVarIntLoop getSizeOfVarIntLoop
      dsimp only
      by_cases h : n ≤ 127
      · rw [if_pos h, if_pos h]
        rfl
      · rw [if_neg h, if_neg h]
        exact ih _ _
  exact hloop _ n []

end PwrbCore
