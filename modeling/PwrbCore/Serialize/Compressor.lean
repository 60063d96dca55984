/-
  Serialize.Compressor — AMOUNTS AS THEY ARE STORED (`compressor.cpp`): up to nine trailing decimal zeros
  are counted, and the last digit left, which is not zero, is written in base nine.

  Both functions divide first and only add and multiply afterwards, so at `uint64_t` they are the
  functions below modulo 2^64.  Main result: `amount_compression_exact`.
-/
import Mathlib.Tactic.Positivity
import PwrbCore.Params

namespace PwrbCore

/-- The first loop: trailing zeros are taken off `n` and counted in `e`, while `e < 9`. -/
def stripZeros : (left n e : Nat) → Nat × Nat
  | 0, n, e => (n, e)
  | left + 1, n, e => if n % 10 = 0 then stripZeros left (n / 10) (e + 1) else (n, e)

/-- `CompressAmount`, over the natural numbers. -/
def compressNat (n : Nat) : Nat :=
  if n = 0 then 0
  else
    let (n, e) := stripZeros 9 n 0
    if e < 9 then
      let d := n % 10
      1 + (n / 10 * 9 + d - 1) * 10 + e
    else 1 + (n - 1) * 10 + 9

/-- `DecompressAmount`, over the natural numbers; the last loop multiplies by 10 `e` times. -/
def decompressNat (x : Nat) : Nat :=
  if x = 0 then 0
  else
    let e := (x - 1) % 10
    let x := (x - 1) / 10
    let n := if e < 9 then x / 9 * 10 + (x % 9 + 1) else x + 1
    n * 10 ^ e

def compressAmount (n : Nat) : Nat := compressNat n % 2 ^ 64

def decompressAmount (x : Nat) : Nat := decompressNat x % 2 ^ 64

variable {left n m e : Nat}

/-- The loop keeps the number and stops at a digit that is not zero, or after all its turns. -/
theorem stripZeros_spec (left e : Nat) (hn : 0 < n) : ∃ m k, stripZeros left n e = (m, e + k) ∧
    n = m * 10 ^ k ∧ 0 < m ∧ k ≤ left ∧
    (k < left → m % 10 ≠ 0) := by
  induction left generalizing n e with
  | zero => exact ⟨n, 0, rfl, by simp, hn, Nat.le_refl 0, by simp⟩
  | succ left ih =>
    unfold stripZeros
    split_ifs with hdigit
    · obtain ⟨m, k, hrun, hnum, hm, hk, hlast⟩ := ih (n := n / 10) (e + 1) (by omega)
      refine ⟨m, k + 1, by rw [hrun, Nat.add_assoc, Nat.add_comm 1 k], ?_, hm, by omega, fun hlt => hlast (by omega)⟩
      rw [Nat.pow_succ, ← Nat.mul_assoc, ← hnum]
      omega
    · exact ⟨n, 0, rfl, by simp, hn, by omega, fun _ => hdigit⟩

/-- A number without such a zero gets back the zeros it is given. -/
theorem stripZeros_mul {k : Nat} (hk : k ≤ left) (hlast : k < left → m % 10 ≠ 0) :
    stripZeros left (m * 10 ^ k) e = (m, e + k) := by
  induction k generalizing left e with
  | zero =>
    cases left with
    | zero => simp [stripZeros]
    | succ left => simp [stripZeros, hlast]
  | succ k ih =>
    obtain ⟨left, rfl⟩ : ∃ l, left = l + 1 := ⟨left - 1, by omega⟩
    unfold stripZeros
    rw [Nat.pow_succ, ← Nat.mul_assoc, if_pos (Nat.mul_mod_left _ _), Nat.mul_div_cancel _ (by decide),
      ih (by omega) (fun hlt => hlast (by omega))]
    congr 1
    omega

/-- An amount comes back; what is stored for it is less than ten times as large. -/
theorem decompressNat_compressNat (n : Nat) : decompressNat (compressNat n) = n ∧ compressNat n ≤ 10 * n := by
  by_cases hn : n = 0
  · simp [hn, compressNat, decompressNat]
  obtain ⟨m, k, hrun, hnum, hm, hk, hlast⟩ := stripZeros_spec 9 0 (Nat.pos_of_ne_zero hn)
  have hle : m ≤ n := by
    rw [hnum]
    exact Nat.le_mul_of_pos_right m (by positivity)
  unfold compressNat
  rw [if_neg hn, hrun, Nat.zero_add]
  dsimp only
  by_cases h9 : k < 9
  · have hdigit := hlast h9
    have he : (1 + (m / 10 * 9 + m % 10 - 1) * 10 + k - 1) % 10 = k := by omega
    have hx : (1 + (m / 10 * 9 + m % 10 - 1) * 10 + k - 1) / 10 = m / 10 * 9 + m % 10 - 1 := by omega
    rw [if_pos h9, decompressNat, if_neg (by omega), he, hx]
    simp only [if_pos h9]
    rw [hnum]
    refine ⟨?_, by omega⟩
    congr 1
    omega
  · obtain rfl : k = 9 := by omega
    have he : (1 + (m - 1) * 10 + 9 - 1) % 10 = 9 := by omega
    have hx : (1 + (m - 1) * 10 + 9 - 1) / 10 = m - 1 := by omega
    rw [if_neg h9, decompressNat, if_neg (by omega), he, hx]
    simp only [if_neg h9, Nat.sub_add_cancel hm]
    exact ⟨hnum.symm, by omega⟩

theorem compressNat_decompressNat (x : Nat) : compressNat (decompressNat x) = x := by
  by_cases hx : x = 0
  · simp [hx, compressNat, decompressNat]
  unfold decompressNat
  rw [if_neg hx]
  dsimp only
  have hpos : ∀ m, 0 < m → m * 10 ^ ((x - 1) % 10) ≠ 0 := by
    intro m hm
    positivity
  unfold compressNat
  split_ifs with h9 h0 h0
  · exact absurd h0 (hpos _ (by omega))
  · rw [stripZeros_mul (by omega) (fun _ => by omega), Nat.zero_add]
    dsimp only
    rw [if_pos h9]
    omega
  · exact absurd h0 (hpos _ (by omega))
  · rw [stripZeros_mul (by omega) (fun hlt => by omega), Nat.zero_add]
    dsimp only
    rw [if_neg h9]
    omega

/-- **Amounts are stored exactly.**  Up to `nMaxMoneyOut` neither direction overflows and the amount comes back; a code
whose amount fits is the code of that amount. -/
theorem amount_compression_exact :
    (∀ n : Nat, (n : Int) ≤ ConsensusParams.mainNet.nMaxMoneyOut → compressNat n < 2 ^ 64 ∧
      decompressNat (compressNat n) < 2 ^ 64 ∧ decompressAmount (compressAmount n) = n) ∧
    ∀ x < 2 ^ 64, decompressNat x < 2 ^ 64 → compressAmount (decompressAmount x) = x := by
  constructor
  · intro n hn
    have hmax : ConsensusParams.mainNet.nMaxMoneyOut = 300000000000000 := rfl
    obtain ⟨hback, hle⟩ := decompressNat_compressNat n
    unfold decompressAmount compressAmount
    rw [hback, Nat.mod_eq_of_lt (a := compressNat n) (by omega), hback]
    omega
  · intro x hx hlt
    unfold compressAmount decompressAmount
    rw [Nat.mod_eq_of_lt hlt, compressNat_decompressNat, Nat.mod_eq_of_lt hx]

end PwrbCore
