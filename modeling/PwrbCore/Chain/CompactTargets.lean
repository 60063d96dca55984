/-
  Chain.CompactTargets — TARGETS AS FLOATING-POINT NUMBERS (`SetCompact`, `GetCompact` of arith_uint256.cpp,
  `GetBlockProof` of pow.cpp).

  A target of `b` bits is stored as its first bytes and the exponent `b / 8 + 1`: the bit of the sign stays free.
  What is cut off leaves `b` and the mantissa as they are.  Main result: `compact_targets_exact`.
-/
import Mathlib.Data.Nat.Bitwise
import PwrbCore.Chain.BlockIndex
import PwrbCore.Masternode.Ranks

namespace PwrbCore

variable {x : Uint256} {n s b : Nat}

/-- The exponent of a number. -/
def compactSize (n : Nat) : Nat := (n.log2 + 1) / 8 + 1

/-- The number without the bytes that the mantissa has no room for. -/
def rounded (n : Nat) : Nat := n / 2 ^ (8 * (compactSize n - 3)) * 2 ^ (8 * (compactSize n - 3))

theorem scaled_eq (n s : Nat) :
    (if s ≤ 3 then n <<< (8 * (3 - s)) else n >>> (8 * (s - 3))) = n * 2 ^ 24 / 2 ^ (8 * s) := by
  split_ifs with h
  · have hsplit : 2 ^ 24 = 2 ^ (8 * (3 - s)) * 2 ^ (8 * s) := by
      rw [← pow_add]
      congr 1
      omega
    rw [Nat.shiftLeft_eq, hsplit, ← mul_assoc, Nat.mul_div_cancel _ (Nat.two_pow_pos _)]
  · have hsplit : 2 ^ (8 * s) = 2 ^ (8 * (s - 3)) * 2 ^ 24 := by
      rw [← pow_add]
      congr 1
      omega
    rw [Nat.shiftRight_eq_div_pow, hsplit, Nat.mul_div_mul_right _ _ (Nat.two_pow_pos _)]

theorem scaled_lt (h : n.log2 + 25 ≤ b + 8 * s) : n * 2 ^ 24 / 2 ^ (8 * s) < 2 ^ b := by
  rw [Nat.div_lt_iff_lt_mul (Nat.two_pow_pos _), ← pow_add]
  calc n * 2 ^ 24 < 2 ^ (n.log2 + 1) * 2 ^ 24 := Nat.mul_lt_mul_of_pos_right Nat.lt_log2_self (Nat.two_pow_pos _)
    _ = 2 ^ (n.log2 + 25) := (pow_add ..).symm
    _ ≤ 2 ^ (b + 8 * s) := Nat.pow_le_pow_right (by decide) h

/-- **`GetCompact`**: the exponent, and a mantissa below the bit of the sign. -/
theorem getCompact_eq (hx : x.toNat ≠ 0) : getCompact x
    = ((compactSize x.toNat * 2 ^ 24 + x.toNat * 2 ^ 24 / 2 ^ (8 * compactSize x.toNat) : Nat) : Int) := by
  unfold getCompact compactSize
  dsimp only
  rw [if_neg hx, scaled_eq, Nat.mod_eq_of_lt (scaled_lt (by omega))]
  generalize hS : (x.toNat.log2 + 1 + 7) / 8 = S
  -- the mantissa of `S` bytes starts with a one exactly if the bits fill them
  have hbit : (x.toNat * 2 ^ 24 / 2 ^ (8 * S) &&& 0x00800000 ≠ 0) ↔ (x.toNat.log2 + 1) % 8 = 0 := by
    rw [show (0x00800000 : Nat) = 2 ^ 23 from rfl, Nat.and_two_pow]
    by_cases hfill : (x.toNat.log2 + 1) % 8 = 0
    · have hle : 2 ^ 23 ≤ x.toNat * 2 ^ 24 / 2 ^ (8 * S) := by
        rw [Nat.le_div_iff_mul_le (Nat.two_pow_pos _), ← pow_add, show 23 + 8 * S = x.toNat.log2 + 24 by omega, pow_add]
        exact Nat.mul_le_mul_right _ (Nat.log2_self_le hx)
      rw [Nat.testBit_of_two_pow_le_and_two_pow_add_one_gt hle (scaled_lt (by omega))]
      exact iff_of_true (by decide) hfill
    · rw [Nat.testBit_lt_two_pow (scaled_lt (by omega))]
      exact iff_of_false (by decide) hfill
  simp only [hbit]
  split_ifs with hfill
  · rw [show (x.toNat.log2 + 1) / 8 + 1 = S + 1 by omega, Nat.shiftRight_eq_div_pow, Nat.div_div_eq_div_mul, ← pow_add,
      show 8 * S + 8 = 8 * (S + 1) from rfl, Nat.or_comm, ← Nat.shiftLeft_add_eq_or_of_lt (scaled_lt (by omega)),
      Nat.shiftLeft_eq]
  · rw [show (x.toNat.log2 + 1) / 8 + 1 = S by omega, Nat.or_comm,
      ← Nat.shiftLeft_add_eq_or_of_lt (scaled_lt (by omega)), Nat.shiftLeft_eq]

theorem word_parts {m : Nat} (s : Nat) (hm : m < 2 ^ 23) : (s * 2 ^ 24 + m) / 2 ^ 24 = s ∧
    (s * 2 ^ 24 + m) % 2 ^ 23 = m ∧ (s * 2 ^ 24 + m) / 2 ^ 23 % 2 = 0 := by
  omega

theorem setCompact_getCompact (hx : x.toNat ≠ 0) :
    setCompact (getCompact x).toNat = (rounded x.toNat, false, false) := by
  have hlog : x.toNat.log2 < 256 := (Nat.log2_lt hx).mpr x.isLt
  have hmant : x.toNat * 2 ^ 24 / 2 ^ (8 * compactSize x.toNat) < 2 ^ 23 := scaled_lt (by unfold compactSize; omega)
  rw [getCompact_eq hx, Int.toNat_natCast]
  unfold rounded setCompact
  generalize hs : compactSize x.toNat = s at hmant
  unfold compactSize at hs
  have hover : 32 < s → x.toNat * 2 ^ 24 / 2 ^ (8 * s) < 2 ^ 16 := fun h => scaled_lt (by omega)
  obtain ⟨hsize, hword, hsign⟩ := word_parts s hmant
  rw [hsize, hword, hsign]
  dsimp only
  rw [← scaled_eq] at hover ⊢
  split_ifs at hover ⊢ with hsmall
  · rw [Nat.shiftLeft_eq, Nat.mul_div_cancel _ (Nat.two_pow_pos _), show s - 3 = 0 by omega]
    simp
    omega
  · rw [Nat.shiftRight_eq_div_pow] at hover ⊢
    rw [Nat.mod_eq_of_lt ((Nat.div_mul_le_self _ _).trans_lt x.isLt)]
    simp
    omega

theorem setCompact_lt (nCompact : Nat) : (setCompact nCompact).1 < 2 ^ 256 := by
  unfold setCompact
  dsimp only
  split_ifs
  · calc nCompact % 2 ^ 23 / _ ≤ nCompact % 2 ^ 23 := Nat.div_le_self _ _
      _ < 2 ^ 256 := (Nat.mod_lt _ (by decide)).trans (by decide)
  · exact Nat.mod_lt _ (Nat.two_pow_pos _)

theorem rounded_le (n : Nat) : rounded n ≤ n := Nat.div_mul_le_self _ _

theorem le_rounded (hn : n ≠ 0) : 2 ^ n.log2 ≤ rounded n := by
  have hlow := Nat.log2_self_le hn
  unfold rounded
  generalize hk : 8 * (compactSize n - 3) = k
  have hle : k ≤ n.log2 := by
    unfold compactSize at hk
    omega
  rw [← Nat.sub_add_cancel hle, pow_add] at hlow ⊢
  exact Nat.mul_le_mul_right _ ((Nat.le_div_iff_mul_le (Nat.two_pow_pos _)).mpr hlow)

/-- **What is cut off** is fifteen bits shorter than the number. -/
theorem lt_rounded (hn : n ≠ 0) : n * (2 ^ 15 - 1) < (rounded n + 1) * 2 ^ 15 := by
  have hsplit := Nat.div_add_mod' n (2 ^ (8 * (compactSize n - 3)))
  have hcut : n % 2 ^ (8 * (compactSize n - 3)) * 2 ^ 15 ≤ n := by
    by_cases hsmall : compactSize n ≤ 3
    · simp [Nat.sub_eq_zero_of_le hsmall, Nat.mod_one]
    calc _ ≤ 2 ^ (8 * (compactSize n - 3)) * 2 ^ 15 := Nat.mul_le_mul_right _ (Nat.mod_lt _ (Nat.two_pow_pos _)).le
      _ = 2 ^ (8 * (compactSize n - 3) + 15) := (pow_add ..).symm
      _ ≤ 2 ^ n.log2 := Nat.pow_le_pow_right (by decide) (by unfold compactSize at *; omega)
      _ ≤ n := Nat.log2_self_le hn
  unfold rounded
  omega

theorem scaled_rounded (n : Nat) :
    rounded n * 2 ^ 24 / 2 ^ (8 * compactSize n) = n * 2 ^ 24 / 2 ^ (8 * compactSize n) := by
  rw [← scaled_eq, ← scaled_eq, rounded]
  split_ifs with h
  · simp [Nat.sub_eq_zero_of_le h]
  · rw [Nat.shiftRight_eq_div_pow, Nat.mul_div_cancel _ (Nat.two_pow_pos _), Nat.shiftRight_eq_div_pow]

/-- **Compact targets** are exact up to a factor below `1 - 2^-15`, and stay what they are; the work of a block is
what it should be. -/
theorem compact_targets_exact :
    (∀ x : Uint256, ∃ t : Uint256, setCompact (getCompact x).toNat = (t.toNat, false, false) ∧ t ≤ x ∧
      x.toNat * (2 ^ 15 - 1) < (t.toNat + 1) * 2 ^ 15 ∧ getCompact t = getCompact x) ∧
    (∀ x y : Uint256, x ≤ y → (setCompact (getCompact x).toNat).1 ≤ (setCompact (getCompact y).toNat).1) ∧
    ∀ nBits T, setCompact nBits = (T, false, false) → T ≠ 0 → getBlockProof nBits = 2 ^ 256 / (T + 1) := by
  refine ⟨fun x => ?_, fun x y hxy => ?_, fun nBits T hT hne => ?_⟩
  · by_cases hx : x.toNat = 0
    · obtain rfl : x = 0 := BitVec.eq_of_toNat_eq hx
      exact ⟨0, by decide⟩
    obtain ⟨t, ht⟩ : ∃ t : Uint256, t.toNat = rounded x.toNat :=
      ⟨.ofNatLT _ ((rounded_le _).trans_lt x.isLt), BitVec.toNat_ofNatLT _ _⟩
    refine ⟨t, ht ▸ setCompact_getCompact hx, BitVec.le_def.mpr (ht ▸ rounded_le _), ht ▸ lt_rounded hx, ?_⟩
    -- it is as long as the number
    have hlow := le_rounded hx
    have ht0 : t.toNat ≠ 0 := by
      have := Nat.two_pow_pos x.toNat.log2
      omega
    have hsize : compactSize t.toNat = compactSize x.toNat := by
      have hlog : t.toNat.log2 = x.toNat.log2 :=
        (Nat.log2_eq_iff ht0).mpr ⟨ht ▸ hlow, ht ▸ (rounded_le _).trans_lt Nat.lt_log2_self⟩
      rw [compactSize, hlog, compactSize]
    rw [getCompact_eq ht0, getCompact_eq hx, hsize, ht, scaled_rounded]
  · by_cases hx : x.toNat = 0
    · obtain rfl : x = 0 := BitVec.eq_of_toNat_eq hx
      exact Nat.zero_le _
    have hle : x.toNat ≤ y.toNat := BitVec.le_def.mp hxy
    have hy : y.toNat ≠ 0 := by omega
    rw [setCompact_getCompact hx, setCompact_getCompact hy]
    have hlog : x.toNat.log2 ≤ y.toNat.log2 := (Nat.le_log2 hy).mpr ((Nat.log2_self_le hx).trans hle)
    rcases hlog.eq_or_lt with heq | hlt
    · dsimp only [rounded, compactSize]
      rw [heq]
      exact Nat.mul_le_mul_right _ (Nat.div_le_div_right hle)
    · calc rounded x.toNat ≤ x.toNat := rounded_le _
        _ ≤ 2 ^ (x.toNat.log2 + 1) := Nat.lt_log2_self.le
        _ ≤ 2 ^ y.toNat.log2 := Nat.pow_le_pow_right (by decide) hlt
        _ ≤ rounded y.toNat := le_rounded hy
  · have hlt := setCompact_lt nBits
    unfold getBlockProof
    rw [hT] at hlt ⊢
    dsimp only at hlt ⊢
    rw [if_neg (by simpa using hne), ← Nat.add_div_right _ (Nat.succ_pos T)]
    congr 1
    omega

end PwrbCore
