/-
  Lib.Limbs — UNSIGNED INTEGERS OF FIXED WIDTH, kept as limbs with the lowest first, over an arbitrary
  base.

  The product is the schoolbook one, row by row with a carry, and what runs over the width
  is dropped.  A row's accumulator is two limbs wide; it never overflows, since
  `(b - 1) + (b - 1) + (b - 1) ^ 2 < b ^ 2`.  The quotient is found by shifting and
  subtracting.

  Main results: `LimbInt.value_mul`, `shiftSubtract_eq`.
-/
import Mathlib.Data.Nat.Digits.Lemmas
import Mathlib.Data.Nat.Size

namespace Limbs

/-! ## §1. Limbs and their value. -/

/-- The lowest `width` limbs of `n`. -/
def ofNat (b : Nat) : Nat → Nat → List Nat
  | 0, _ => []
  | width + 1, n => n % b :: ofNat b width (n / b)

theorem length_ofNat (b width n : Nat) : (ofNat b width n).length = width := by
  induction width generalizing n with
  | zero => rfl
  | succ width ih =>
    show (ofNat b width (n / b)).length + 1 = width + 1
    rw [ih]

theorem lt_of_mem_ofNat {b : Nat} (hb : 0 < b) {width n x : Nat} (hx : x ∈ ofNat b width n) : x < b := by
  induction width generalizing n with
  | zero => cases hx
  | succ width ih =>
    rcases List.mem_cons.mp hx with rfl | hx
    · exact Nat.mod_lt _ hb
    · exact ih hx

theorem ofDigits_ofNat (b width n : Nat) : Nat.ofDigits b (ofNat b width n) = n % b ^ width := by
  induction width generalizing n with
  | zero =>
    show 0 = n % 1
    omega
  | succ width ih =>
    show Nat.ofDigits b (n % b :: ofNat b width (n / b)) = _
    rw [Nat.ofDigits_cons, ih, pow_succ', Nat.mod_mul]

theorem add_mul_mod {b r : Nat} (hr : r < b) (q m : Nat) : (r + b * q) % (b * m) = r + b * (q % m) := by
  rw [Nat.mod_mul, Nat.add_mul_mod_self_left, Nat.mod_eq_of_lt hr, Nat.add_mul_div_left _ _ (by omega),
    Nat.div_eq_of_lt hr, Nat.zero_add]

/-! ## §2. One row. -/

/-- A row of the product: `x` times the limbs `ys` is added into `ps` with a carry, in an accumulator of two limbs. -/
def mulRow (b x : Nat) : Nat → List Nat → List Nat → List Nat
  | _, [], _ => []
  | carry, p :: ps, ys =>
    let n := (carry + p + x * ys.headD 0) % b ^ 2
    n % b :: mulRow b x (n / b) ps ys.tail

theorem length_mulRow (b x carry : Nat) (ps ys : List Nat) : (mulRow b x carry ps ys).length = ps.length := by
  induction ps generalizing carry ys with
  | nil => rfl
  | cons p ps ih =>
    show (mulRow b x _ ps ys.tail).length + 1 = ps.length + 1
    rw [ih]

theorem lt_of_mem_mulRow {b : Nat} (hb : 0 < b) {x carry z : Nat} {ps ys : List Nat}
    (hz : z ∈ mulRow b x carry ps ys) : z < b := by
  induction ps generalizing carry ys with
  | nil => cases hz
  | cons p ps ih =>
    rcases List.mem_cons.mp hz with rfl | hz
    · exact Nat.mod_lt _ hb
    · exact ih hz

/-- The accumulator does not overflow. -/
theorem accumulator_lt {b carry p x y : Nat} (hcarry : carry < b) (hp : p < b) (hx : x < b) (hy : y < b) :
    carry + p + x * y < b ^ 2 := by
  obtain ⟨c, rfl⟩ : ∃ c, b = c + 1 := ⟨b - 1, by omega⟩
  have hprod : x * y ≤ c * c := Nat.mul_le_mul (by omega) (by omega)
  have hsquare : (c + 1) ^ 2 = c * c + 2 * c + 1 := by ring
  omega

theorem ofDigits_headD_tail (b : Nat) (ys : List Nat) :
    Nat.ofDigits b ys = ys.headD 0 + b * Nat.ofDigits b ys.tail := by
  cases ys with
  | nil => rfl
  | cons y ys => exact Nat.ofDigits_cons

theorem headD_lt {b : Nat} (hb : 0 < b) {ys : List Nat} (h : ∀ y ∈ ys, y < b) : ys.headD 0 < b := by
  cases ys with
  | nil => exact hb
  | cons y ys => exact h y List.mem_cons_self

/-- **One row** adds `x` times the number into the limbs, modulo their width. -/
theorem ofDigits_mulRow {b x carry : Nat} {ps ys : List Nat} (hx : x < b) (hcarry : carry < b)
    (hps : ∀ p ∈ ps, p < b) (hys : ∀ y ∈ ys, y < b) : Nat.ofDigits b (mulRow b x carry ps ys)
      = (carry + Nat.ofDigits b ps + x * Nat.ofDigits b ys) % b ^ ps.length := by
  induction ps generalizing carry ys with
  | nil =>
    show 0 = _ % 1
    omega
  | cons p ps ih =>
    have hp : p < b := hps p List.mem_cons_self
    have hb : 0 < b := by omega
    have hlt := accumulator_lt hcarry hp hx (headD_lt hb hys)
    show Nat.ofDigits b (_ % b ^ 2 % b :: mulRow b x (_ % b ^ 2 / b) ps ys.tail) = _
    rw [Nat.mod_eq_of_lt hlt]
    -- the carry into the next limb is a limb again
    have hnext : (carry + p + x * ys.headD 0) / b < b := by
      rw [Nat.div_lt_iff_lt_mul hb, ← pow_two]
      exact hlt
    rw [Nat.ofDigits_cons, ih hnext (fun q hq => hps q (List.mem_cons_of_mem _ hq))
      (fun y hy => hys y (List.mem_of_mem_tail hy)), List.length_cons, pow_succ']
    show (carry + p + x * ys.headD 0) % b + b * _ = _
    rw [← add_mul_mod (Nat.mod_lt _ hb)]
    congr 1
    have hsplit := Nat.mod_add_div (carry + p + x * ys.headD 0) b
    rw [Nat.ofDigits_cons, ofDigits_headD_tail b ys]
    grind

/-! ## §3. The product. -/

/-- The limbs after the rows of the first `j` limbs of `xs`; row `j` works from limb `j` on. -/
def mulRows (b : Nat) (xs ys pn : List Nat) : Nat → List Nat
  | 0 => pn
  | j + 1 => (mulRows b xs ys pn j).take j ++ mulRow b (xs.getD j 0) 0 ((mulRows b xs ys pn j).drop j) ys

end Limbs

/-- An unsigned integer of `width` limbs in base `b`. -/
structure LimbInt (b width : Nat) where
  pn : List Nat
  length_eq : pn.length = width
  limb_lt : ∀ x ∈ pn, x < b

namespace LimbInt

open Limbs List

variable {b width : Nat}

def value (x : LimbInt b width) : Nat := Nat.ofDigits b x.pn

def ofNat (hb : 0 < b) (width n : Nat) : LimbInt b width :=
  ⟨Limbs.ofNat b width n, length_ofNat b width n, fun _ hx => lt_of_mem_ofNat hb hx⟩

theorem value_ofNat (hb : 0 < b) (width n : Nat) : (ofNat hb width n).value = n % b ^ width :=
  ofDigits_ofNat b width n

theorem getD_lt (x : LimbInt b width) (hb : 0 < b) (j : Nat) : x.pn.getD j 0 < b := by
  rw [getD_eq_getElem?_getD]
  cases hj : x.pn[j]? with
  | none => exact hb
  | some y => exact x.limb_lt y (mem_of_getElem? hj)

theorem mulRows_wellFormed (hb : 0 < b) (x y : LimbInt b width) {j : Nat} (hj : j ≤ width) :
    (mulRows b x.pn y.pn (Limbs.ofNat b width 0) j).length = width ∧
      ∀ z ∈ mulRows b x.pn y.pn (Limbs.ofNat b width 0) j, z < b := by
  induction j with
  | zero => exact ⟨length_ofNat b width 0, fun z hz => lt_of_mem_ofNat hb hz⟩
  | succ j ih =>
    obtain ⟨hlength, hlimbs⟩ := ih (by omega)
    constructor
    · show (_ ++ mulRow b _ 0 _ _).length = width
      rw [length_append, length_mulRow, length_take, length_drop]
      omega
    · intro z hz
      rcases mem_append.mp hz with hz | hz
      · exact hlimbs z (mem_of_mem_take hz)
      · exact lt_of_mem_mulRow hb hz

def mul (hb : 0 < b) (x y : LimbInt b width) : LimbInt b width :=
  ⟨mulRows b x.pn y.pn (Limbs.ofNat b width 0) width, (mulRows_wellFormed hb x y le_rfl).1,
    (mulRows_wellFormed hb x y le_rfl).2⟩

theorem ofDigits_take_succ (b : Nat) (xs : List Nat) (j : Nat) :
    Nat.ofDigits b (xs.take (j + 1)) = Nat.ofDigits b (xs.take j) + b ^ j * xs.getD j 0 := by
  by_cases hj : j < xs.length
  · rw [take_succ_eq_append_getElem hj, Nat.ofDigits_append, Nat.ofDigits_singleton, length_take,
      min_eq_left hj.le, getD_eq_getElem?_getD, getElem?_eq_getElem hj, Option.getD_some]
  · grind [take_of_length_le]

/-- After `j` rows the limbs hold the product by the lowest `j` limbs. -/
theorem ofDigits_mulRows (hb : 1 < b) (x y : LimbInt b width) {j : Nat} (hj : j ≤ width) :
    Nat.ofDigits b (mulRows b x.pn y.pn (Limbs.ofNat b width 0) j)
      = Nat.ofDigits b (x.pn.take j) * y.value % b ^ width := by
  induction j with
  | zero =>
    show Nat.ofDigits b (Limbs.ofNat b width 0) = _
    rw [ofDigits_ofNat]
    simp
  | succ j ih =>
    obtain ⟨hlength, hlimbs⟩ := mulRows_wellFormed (by omega) x y (show j ≤ width by omega)
    have hbefore := ih (by omega)
    show Nat.ofDigits b ((mulRows b x.pn y.pn (Limbs.ofNat b width 0) j).take j
      ++ mulRow b (x.pn.getD j 0) 0 ((mulRows b x.pn y.pn (Limbs.ofNat b width 0) j).drop j) y.pn) = _
    generalize mulRows b x.pn y.pn (Limbs.ofNat b width 0) j = pn at hlength hlimbs hbefore ⊢
    have htake : (pn.take j).length = j := by
      rw [length_take]
      omega
    have hlow : .ofDigits b (pn.take j) < b ^ j := by
      have hlt := Nat.ofDigits_lt_base_pow_length hb fun z (hz : z ∈ pn.take j) => hlimbs z (mem_of_mem_take hz)
      rwa [htake] at hlt
    have hpn : .ofDigits b pn = .ofDigits b (pn.take j) + b ^ j * .ofDigits b (pn.drop j) := by
      conv_lhs => rw [← take_append_drop j pn]
      rw [Nat.ofDigits_append, htake]
    have hpow : b ^ width = b ^ j * b ^ (width - j) := by
      rw [← pow_add]
      congr 1
      omega
    rw [Nat.ofDigits_append, htake, ofDigits_mulRow (x.getD_lt (by omega) j) (by omega)
      (fun p hp => hlimbs p (mem_of_mem_drop hp)) y.limb_lt, length_drop, hlength,
      ← add_mul_mod hlow, ← hpow, ofDigits_take_succ]
    show (_ + b ^ j * (0 + _ + _ * y.value)) % b ^ width = _
    calc (.ofDigits b (pn.take j) + b ^ j * (0 + .ofDigits b (pn.drop j) + x.pn.getD j 0 * y.value)) % b ^ width
        = (.ofDigits b pn + b ^ j * (x.pn.getD j 0 * y.value)) % b ^ width := by
          rw [hpn]
          congr 1
          ring
      _ = (.ofDigits b (x.pn.take j) * y.value + b ^ j * (x.pn.getD j 0 * y.value)) % b ^ width := by
          rw [hbefore, Nat.mod_add_mod]
      _ = (.ofDigits b (x.pn.take j) + b ^ j * x.pn.getD j 0) * y.value % b ^ width := by
          congr 1
          ring

/-- **The product** wraps around at the width. -/
theorem value_mul (hb : 1 < b) (x y : LimbInt b width) :
    (mul (by omega) x y).value = x.value * y.value % b ^ width := by
  show Nat.ofDigits b (mulRows b x.pn y.pn (Limbs.ofNat b width 0) width) = _
  rw [ofDigits_mulRows hb x y le_rfl, take_of_length_le (by rw [x.length_eq])]
  rfl

end LimbInt

/-! ## §4. The quotient. -/

namespace Limbs

/-- The loop of the division, `shift + 1` turns to go: where the divisor fits, it is subtracted and the bit set. -/
def shiftSubtractLoop : Nat → Nat → Nat → Nat → Nat
  | 0, _, _, quotient => quotient
  | shift + 1, num, div, quotient =>
    if div ≤ num then shiftSubtractLoop shift (num - div) (div / 2) (quotient ||| 2 ^ shift)
    else shiftSubtractLoop shift num (div / 2) quotient

/-- Division by shifting and subtracting; `none` is a zero divisor. The shifted divisor has as many bits as the
number. -/
def shiftSubtract (num div : Nat) : Option Nat :=
  if div.size = 0 then none
  else if num.size < div.size then some 0
  else some (shiftSubtractLoop (num.size - div.size + 1) num (div * 2 ^ (num.size - div.size)) 0)

/-- What the loop adds to a quotient whose lower bits are still to be found. -/
theorem shiftSubtractLoop_eq {d : Nat} (hd : 0 < d) (shift num k : Nat) (h : num < d * 2 ^ shift) :
    shiftSubtractLoop shift num (d * 2 ^ shift / 2) (2 ^ shift * k) = 2 ^ shift * k + num / d := by
  induction shift generalizing num k with
  | zero =>
    show 2 ^ 0 * k = 2 ^ 0 * k + num / d
    rw [Nat.div_eq_of_lt (by simpa using h), Nat.add_zero]
  | succ shift ih =>
    have hhalf : d * 2 ^ (shift + 1) / 2 = d * 2 ^ shift := by
      rw [pow_succ, ← mul_assoc, Nat.mul_div_cancel _ (by decide)]
    have hdouble : d * 2 ^ (shift + 1) = d * 2 ^ shift + d * 2 ^ shift := by
      ring
    rw [hhalf]
    unfold shiftSubtractLoop
    by_cases hfits : d * 2 ^ shift ≤ num
    · -- the bit is free, so setting it adds it
      have hbit : 2 ^ (shift + 1) * k ||| 2 ^ shift = 2 ^ shift * (2 * k + 1) := by
        rw [← Nat.two_pow_add_eq_or_of_lt (Nat.pow_lt_pow_right (by decide) (Nat.lt_succ_self shift)), pow_succ]
        ring
      have hquot : num / d = (num - d * 2 ^ shift) / d + 2 ^ shift := by
        conv_lhs => rw [← Nat.sub_add_cancel hfits]
        rw [Nat.add_mul_div_left _ _ hd]
      rw [if_pos hfits, hbit, ih _ _ (by omega), hquot]
      ring
    · have heven : 2 ^ (shift + 1) * k = 2 ^ shift * (2 * k) := by
        ring
      rw [if_neg hfits, heven, ih _ _ (by omega)]

/-- **The quotient.** -/
theorem shiftSubtract_eq {d : Nat} (hd : 0 < d) (num : Nat) : shiftSubtract num d = some (num / d) := by
  have hsize : 0 < d.size := Nat.size_pos.mpr hd
  have hlow : 2 ^ (d.size - 1) ≤ d := Nat.lt_size.mp (by omega)
  have hnum : num < 2 ^ num.size := Nat.lt_size_self num
  unfold shiftSubtract
  rw [if_neg (by omega)]
  by_cases hshort : num.size < d.size
  · have hpow : 2 ^ num.size ≤ 2 ^ (d.size - 1) := Nat.pow_le_pow_right (by decide) (by omega)
    rw [if_pos hshort, Nat.div_eq_of_lt (by omega)]
  rw [if_neg hshort]
  -- one position above the top of the number the divisor is larger
  have htop : num < d * 2 ^ (num.size - d.size + 1) := by
    calc num < 2 ^ num.size := hnum
      _ = 2 ^ (d.size - 1) * 2 ^ (num.size - d.size + 1) := by
        rw [← pow_add]
        congr 1
        omega
      _ ≤ d * 2 ^ (num.size - d.size + 1) := Nat.mul_le_mul_right _ hlow
  have hrun := shiftSubtractLoop_eq hd (num.size - d.size + 1) num 0 htop
  rw [pow_succ, ← mul_assoc, Nat.mul_div_cancel _ (by decide), Nat.mul_zero, Nat.zero_add] at hrun
  rw [hrun]

end Limbs
