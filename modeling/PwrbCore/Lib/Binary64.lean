/-
  Lib.Binary64 — DOUBLE-PRECISION PRODUCTS OF INTEGERS.  A finite double is `mant · 2 ^ exp` with a
  significand of at most 53 bits; the bound is a field, so every value built here is
  representable.  Conversion from an integer and multiplication round to nearest,
  ties to even; conversion back truncates toward zero, as a C++ cast does.

  The exponent range is not bounded: the values met are products of 64-bit
  integers with literals, far from overflow and from the subnormals.

  Main result: `toInt_mul_ofInt`.
-/
import Mathlib.Data.Nat.Log
import Mathlib.Tactic.Ring

/-- A finite double `mant · 2 ^ exp`. -/
structure Binary64 where
  mant : Int
  exp : Int
  mant_le : mant.natAbs ≤ 2 ^ 53
  deriving DecidableEq, Repr

namespace Binary64

/-! ## §1. Rounding to nearest, ties to even. -/

/-- How many low bits of `n` do not fit in 53. -/
def excess (n : Nat) : Nat := if n < 2 ^ 53 then 0 else n.log2 - 52

/-- `n / 2 ^ k` rounded to nearest, ties to even. -/
def rneDiv (n k : Nat) : Nat :=
  let q := n / 2 ^ k
  let r := n % 2 ^ k
  if 2 * r < 2 ^ k then q
  else if 2 ^ k < 2 * r then q + 1
  else if q % 2 = 0 then q
  else q + 1

theorem rneDiv_le (n k : Nat) : rneDiv n k ≤ n / 2 ^ k + 1 := by
  unfold rneDiv
  dsimp only
  split_ifs <;> omega

theorem rneDiv_zero (n : Nat) : rneDiv n 0 = n := by
  simp [rneDiv, Nat.mod_one]

/-- After dropping the excess bits at most `2 ^ 53` is left, the carry included. -/
theorem rneDiv_excess_le (n : Nat) : rneDiv n (excess n) ≤ 2 ^ 53 := by
  unfold excess
  split_ifs with h
  · rw [rneDiv_zero]
    omega
  have hlog : 53 ≤ n.log2 := (Nat.le_log2 (by omega)).mpr (by omega)
  have hlt : n < 2 ^ 53 * 2 ^ (n.log2 - 52) := by
    rw [← pow_add]
    calc n < 2 ^ (n.log2 + 1) := Nat.lt_log2_self
      _ = 2 ^ (53 + (n.log2 - 52)) := by congr 1; omega
  have hq : n / 2 ^ (n.log2 - 52) < 2 ^ 53 := Nat.div_lt_of_lt_mul (by rwa [Nat.mul_comm])
  exact (rneDiv_le _ _).trans hq

/-- The double nearest to `m · 2 ^ e`. -/
def round (m e : Int) : Binary64 where
  mant := m.sign * rneDiv m.natAbs (excess m.natAbs)
  exp := e + excess m.natAbs
  mant_le := by
    rw [Int.natAbs_mul]
    calc m.sign.natAbs * rneDiv m.natAbs (excess m.natAbs)
        ≤ 1 * 2 ^ 53 := Nat.mul_le_mul (by rcases Int.sign_trichotomy m with h | h | h <;> simp [h])
          (rneDiv_excess_le _)
      _ = 2 ^ 53 := one_mul _

theorem round_of_lt {m : Int} (e : Int) (h : m.natAbs < 2 ^ 53) : (round m e).mant = m ∧ (round m e).exp = e := by
  have hex : excess m.natAbs = 0 := if_pos h
  constructor
  · simp only [round, hex, rneDiv_zero]
    exact Int.sign_mul_natAbs m
  · simp [round, hex]

/-! ## §2. The operations. -/

/-- Conversion from a 64-bit integer. -/
def ofInt (n : Int) : Binary64 := round n 0

def mul (a b : Binary64) : Binary64 := round (a.mant * b.mant) (a.exp + b.exp)

def toInt (a : Binary64) : Int :=
  if 0 ≤ a.exp then a.mant * 2 ^ a.exp.toNat else a.mant.tdiv (2 ^ (-a.exp).toNat)

/-- **Exactness.** While the product of two integers stays below `2 ^ 53`, the double product is the integer product.
-/
theorem toInt_mul_ofInt {a b : Int} (ha : a.natAbs < 2 ^ 53) (hb : b.natAbs < 2 ^ 53)
    (hab : (a * b).natAbs < 2 ^ 53) : toInt (mul (ofInt a) (ofInt b)) = a * b := by
  simp_all [round_of_lt, toInt, mul, ofInt]

end Binary64
