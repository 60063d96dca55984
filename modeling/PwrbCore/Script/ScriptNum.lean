/-
  Script.ScriptNum — NUMBERS IN SCRIPTS (`CScriptNum`, `CScript::push_int64` of `script/script.h`).

  A number is written little-endian in as few bytes as possible, the sign in the top bit of
  the last byte.

  Main results: `setVch_serialize`, `pushInt_unique`.
-/
import Mathlib.Data.Nat.Digits.Lemmas
import PwrbCore.Primitives.Script

namespace PwrbCore

open List UInt8

variable {n : Nat}

namespace CScriptNum

/-- The bytes of `absvalue`, least significant first. -/
def absBytes (absvalue : Nat) : List UInt8 := (Nat.digits 256 absvalue).map ofNat

/-- `CScriptNum::serialize`. -/
def serialize (value : Int) : List UInt8 :=
  if value = 0 then []
  else
    let neg := decide (value < 0)
    let result := absBytes value.natAbs
    let back := result.getLast?.getD 0
    if 0x80 ≤ back then result ++ [if neg then 0x80 else 0]
    else if neg then result.dropLast ++ [back ||| 0x80]
    else result

/-- The number little-endian bytes stand for. -/
def leValue (vch : List UInt8) : Nat := Nat.ofDigits 256 (vch.map toNat)

/-- `CScriptNum::set_vch`, of at most eight bytes. -/
def setVch (vch : List UInt8) : Int :=
  match vch.getLast? with
  | none => 0
  | some back =>
    if 0x80 ≤ back then -((leValue vch : Int) - 0x80 * 256 ^ (vch.length - 1)) else leValue vch

theorem leValue_absBytes (n : Nat) : leValue (absBytes n) = n := by
  unfold leValue absBytes
  rw [map_map]
  have hid : (Nat.digits 256 n).map (toNat ∘ .ofNat) = Nat.digits 256 n := by
    conv_rhs => rw [← map_id (Nat.digits 256 n)]
    apply map_congr_left
    intro d hd
    have hlt : d < 256 := Nat.digits_lt_base (by decide) hd
    show (ofNat d).toNat = d
    rw [toNat_ofNat']
    omega
  rw [hid, Nat.ofDigits_digits]

theorem leValue_concat (vch : List UInt8) (back : UInt8) :
    leValue (vch ++ [back]) = leValue vch + 256 ^ vch.length * back.toNat := by
  unfold leValue
  rw [map_append, Nat.ofDigits_append, length_map, map_singleton, Nat.ofDigits_singleton]

theorem absBytes_leValue (vch : List UInt8) {back : UInt8} (hback : back.toNat ≠ 0) :
    absBytes (leValue (vch ++ [back])) = vch ++ [back] := by
  unfold absBytes leValue
  rw [Nat.digits_ofDigits 256 (by decide) _ (by grind [toNat_lt]) (by simpa using hback), map_map]
  exact map_id'' (fun b => UInt8.ofNat_toNat) _

/-- The last byte of a number: its sign and the rest. -/
theorem signBit (b : UInt8) : (b &&& 0x7f).toNat = b.toNat % 128 ∧ (b &&& 0x80 = 0 ↔ b.toNat < 128) ∧
    (b ||| 0x80).toNat = b.toNat % 128 + 128 ∧ (0x80 ≤ b ↔ 128 ≤ b.toNat) := by
  have hall : ∀ i < 256, (UInt8.ofNat i &&& 0x7f).toNat = i % 128 ∧ (UInt8.ofNat i &&& 0x80 = 0 ↔ i < 128) ∧
      (UInt8.ofNat i ||| 0x80).toNat = i % 128 + 128 ∧ (0x80 ≤ UInt8.ofNat i ↔ 128 ≤ i) := by decide +kernel
  simpa only [UInt8.ofNat_toNat] using hall b.toNat b.toNat_lt

theorem setVch_concat (vch : List UInt8) (back : UInt8) : setVch (vch ++ [back]) =
    if 0x80 ≤ back then -((leValue vch : Int) + 256 ^ vch.length * (back.toNat - 128)) else leValue
        (vch ++ [back]) := by
  unfold setVch
  rw [getLast?_concat, length_append, length_singleton, Nat.add_sub_cancel, leValue_concat]
  push_cast
  split_ifs <;> ring

/-- A number by its sign and its absolute value. -/
def signed (neg : Bool) (absvalue : Nat) : Int := if neg then -absvalue else absvalue

/-- Its bytes, where those of the absolute value are `vch` and `back`. -/
def signedBytes (neg : Bool) (vch : List UInt8) (back : UInt8) : List UInt8 :=
  if 0x80 ≤ back then vch ++ [back] ++ [if neg then 0x80 else 0] else vch ++ [if neg then back ||| 0x80 else back]

variable (neg : Bool) (vch : List UInt8) {back : UInt8}

theorem setVch_signedBytes : setVch (signedBytes neg vch back) = signed neg (leValue (vch ++ [back])) := by
  unfold signedBytes signed
  by_cases hhigh : 0x80 ≤ back
  · cases neg <;> simp [hhigh, -append_assoc, setVch_concat, leValue_concat _ 0]
  obtain ⟨-, -, htop, hle⟩ := signBit back
  rw [Nat.mod_eq_of_lt (by rw [hle] at hhigh; omega)] at htop
  have hneg : 0x80 ≤ back ||| 0x80 := (signBit _).2.2.2.mpr (by omega)
  cases neg <;> simp [hhigh, setVch_concat, hneg, leValue_concat, -UInt8.toNat_or, htop]

theorem serialize_signed (hback : back.toNat ≠ 0) :
    serialize (signed neg (leValue (vch ++ [back]))) = signedBytes neg vch back := by
  have habs := absBytes_leValue vch hback
  have hpos : leValue (vch ++ [back]) ≠ 0 := by
    intro hzero
    rw [hzero] at habs
    simp [absBytes] at habs
  unfold serialize signedBytes signed
  cases neg <;> simp [hpos, habs] <;> grind

theorem exists_signed (n : Int) : n = 0 ∨ ∃ neg vch back, back.toNat ≠ 0 ∧
    n = signed neg (leValue (vch ++ [back])) := by
  obtain hnil | ⟨vch, back, hbytes⟩ := eq_nil_or_concat' (absBytes n.natAbs)
  · left
    rw [absBytes, map_eq_nil_iff, Nat.digits_eq_nil_iff_eq_zero] at hnil
    omega
  refine .inr ⟨decide (n < 0), vch, back, ?_, ?_⟩
  · -- the last digit of a number is not zero
    have hlast := congrArg getLast? hbytes
    rw [absBytes, getLast?_map, getLast?_concat, Option.map_eq_some_iff] at hlast
    obtain ⟨d, hd, rfl⟩ := hlast
    have hlt := Nat.digits_lt_base (by decide) (mem_of_getLast? hd)
    obtain ⟨hne, rfl⟩ := mem_getLast?_eq_getLast hd
    have := Nat.getLast_digit_ne_zero 256 (Nat.digits_ne_nil_iff_ne_zero.mp hne)
    rwa [toNat_ofNat', Nat.mod_eq_of_lt hlt]
  · rw [← hbytes, leValue_absBytes]
    unfold signed
    grind

theorem setVch_serialize (n : Int) : setVch (serialize n) = n := by
  obtain rfl | ⟨neg, vch, back, hback, rfl⟩ := exists_signed n
  · rfl
  · rw [serialize_signed neg vch hback, setVch_signedBytes]

theorem length_serialize_le {n : Int} (hn : n.natAbs < 2 ^ 39) : (serialize n).length ≤ 5 := by
  obtain rfl | ⟨neg, vch, back, hback, rfl⟩ := exists_signed n
  · decide
  rw [serialize_signed neg vch hback]
  have habs : (signed neg (leValue (vch ++ [back]))).natAbs = leValue vch + 256 ^ vch.length * back.toNat := by
    unfold signed
    grind [leValue_concat]
  have hshort : ∀ k b, b ≤ back.toNat → 2 ^ 39 ≤ 256 ^ k * b → vch.length < k := by
    intro k b hb hk
    by_contra hlong
    have hmul := Nat.mul_le_mul (Nat.pow_le_pow_right (show 0 < 256 by decide) (not_lt.mp hlong)) hb
    omega
  unfold signedBytes
  by_cases hhigh : 0x80 ≤ back
  · have := hshort 4 128 (UInt8.le_iff_toNat_le.mp hhigh) (by decide)
    grind
  · have := hshort 5 1 (Nat.pos_of_ne_zero hback) (by decide)
    grind

end CScriptNum

namespace CScript

/-- `push_int64`. -/
def pushInt (n : Int) : CScript :=
  if n = -1 ∨ (1 ≤ n ∧ n ≤ 16) then [ofNat (n + 0x50).toNat]
  else if n = 0 then [OP_0]
  else pushData (CScriptNum.serialize n)

/-- The push of a number above sixteen: its length, then its bytes. -/
theorem pushInt_of_lt (hbig : 16 < n) (hn : n < 2 ^ 32) :
    pushInt n = ofNat (CScriptNum.serialize n).length :: CScriptNum.serialize n := by
  have hlen := CScriptNum.length_serialize_le (n := n) (by omega)
  unfold pushInt
  rw [if_neg (by omega), if_neg (by omega)]
  unfold pushData
  rw [if_pos]
  show (CScriptNum.serialize n).length < 76
  omega

theorem pushInt_of_le (hpos : 1 ≤ n) (hsmall : n ≤ 16) : pushInt n = [ofNat (n + 80)] := by
  unfold pushInt
  rw [if_pos (.inr (by omega))]
  congr 1

theorem head?_pushInt (hpos : 1 ≤ n) (hn : n < 2 ^ 32) : ∃ b, (pushInt n).head? = some b ∧
      b.toNat = if n ≤ 16 then n + 80 else (CScriptNum.serialize n).length := by
  by_cases hsmall : n ≤ 16
  · refine ⟨.ofNat (n + 80), ?_, ?_⟩
    · rw [pushInt_of_le hpos hsmall]
      rfl
    · rw [if_pos hsmall, toNat_ofNat']
      omega
  · have hlen := CScriptNum.length_serialize_le (n := n) (by omega)
    refine ⟨.ofNat (CScriptNum.serialize n).length, ?_, ?_⟩
    · rw [pushInt_of_lt (by omega) hn]
      rfl
    · rw [if_neg hsmall, toNat_ofNat']
      omega

/-- **A script begins with the push of at most one number.** -/
theorem pushInt_unique {a b : Nat} {s : CScript} (ha : 1 ≤ a) (hb : 1 ≤ b) (ha' : a < 2 ^ 32)
    (hb' : b < 2 ^ 32) (hpa : pushInt a <+: s) (hpb : pushInt b <+: s) : a = b := by
  obtain ⟨x, hx, hxn⟩ := head?_pushInt ha ha'
  obtain ⟨y, hy, hyn⟩ := head?_pushInt hb hb'
  have hfirst : ∀ {l : CScript} {c : UInt8}, l <+: s → l.head? = some c → s.head? = some c := by
    rintro l c ⟨t, rfl⟩ hc
    rw [head?_append, hc]
    rfl
  have hxy := hfirst hpb hy
  rw [hfirst hpa hx] at hxy
  cases hxy
  rw [hxn] at hyn
  have hla := CScriptNum.length_serialize_le (n := a) (by omega)
  have hlb := CScriptNum.length_serialize_le (n := b) (by omega)
  by_cases hsmall : a ≤ 16
  · split_ifs at hyn <;> omega
  rw [if_neg hsmall] at hyn
  by_cases hsmall' : b ≤ 16
  · rw [if_pos hsmall'] at hyn
    omega
  -- two lengths that agree, so the bytes after them do
  rw [if_neg hsmall'] at hyn
  rw [pushInt_of_lt (by omega) ha'] at hpa
  rw [pushInt_of_lt (by omega) hb'] at hpb
  have hsame := prefix_of_prefix_length_le hpa hpb (by
    rw [length_cons, length_cons, hyn])
  have heq := hsame.eq_of_length (by rw [length_cons, length_cons, hyn])
  have hbytes := (cons.inj heq).2
  exact Int.natCast_inj.mp ((CScriptNum.setVch_serialize a).symm.trans (hbytes ▸ CScriptNum.setVch_serialize b))

end CScript

end PwrbCore
