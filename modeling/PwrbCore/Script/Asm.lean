/-
  Script.Asm — SCRIPTS AS TEXT (`ScriptToAsmStr` of `core_write.cpp`, `GetOpName` of `script/script.cpp`)
  and `ParseHex` of `utilstrencodings.cpp`.

  The betting code and the money-supply code do not look at the bytes of an output script:
  they print it and compare the first nine characters with `OP_RETURN`.  Text is a list of
  characters.

  Main result: `isOpReturnAsm_iff`.
-/
import PwrbCore.Primitives.Script

namespace PwrbCore

open List

/-! ## §1. Names and numbers. -/

/-- `GetOpName` from `OP_1NEGATE` (`0x4f`) to `OP_NOP10` (`0xb9`), in opcode order. -/
def opNames : List String :=
  ["-1", "OP_RESERVED", "1", "2", "3", "4", "5", "6", "7", "8", "9", "10", "11", "12", "13", "14", "15", "16",
   -- control
   "OP_NOP", "OP_VER", "OP_IF", "OP_NOTIF", "OP_VERIF", "OP_VERNOTIF", "OP_ELSE", "OP_ENDIF",
   "OP_VERIFY", "OP_RETURN",
   -- stack ops
   "OP_TOALTSTACK", "OP_FROMALTSTACK", "OP_2DROP", "OP_2DUP", "OP_3DUP", "OP_2OVER", "OP_2ROT",
   "OP_2SWAP", "OP_IFDUP", "OP_DEPTH", "OP_DROP", "OP_DUP", "OP_NIP", "OP_OVER", "OP_PICK", "OP_ROLL",
   "OP_ROT", "OP_SWAP", "OP_TUCK",
   -- splice ops
   "OP_CAT", "OP_SUBSTR", "OP_LEFT", "OP_RIGHT", "OP_SIZE",
   -- bit logic
   "OP_INVERT", "OP_AND", "OP_OR", "OP_XOR", "OP_EQUAL", "OP_EQUALVERIFY", "OP_RESERVED1",
   "OP_RESERVED2",
   -- numeric
   "OP_1ADD", "OP_1SUB", "OP_2MUL", "OP_2DIV", "OP_NEGATE", "OP_ABS", "OP_NOT", "OP_0NOTEQUAL",
   "OP_ADD", "OP_SUB", "OP_MUL", "OP_DIV", "OP_MOD", "OP_LSHIFT", "OP_RSHIFT", "OP_BOOLAND",
   "OP_BOOLOR", "OP_NUMEQUAL", "OP_NUMEQUALVERIFY", "OP_NUMNOTEQUAL", "OP_LESSTHAN",
   "OP_GREATERTHAN", "OP_LESSTHANOREQUAL", "OP_GREATERTHANOREQUAL", "OP_MIN", "OP_MAX", "OP_WITHIN",
   -- crypto
   "OP_RIPEMD160", "OP_SHA1", "OP_SHA256", "OP_HASH160", "OP_HASH256", "OP_CODESEPARATOR",
   "OP_CHECKSIG", "OP_CHECKSIGVERIFY", "OP_CHECKMULTISIG", "OP_CHECKMULTISIGVERIFY",
   -- expansion
   "OP_NOP1", "OP_CHECKLOCKTIMEVERIFY", "OP_NOP3", "OP_NOP4", "OP_NOP5", "OP_NOP6", "OP_NOP7",
   "OP_NOP8", "OP_NOP9", "OP_NOP10"]

/-- `GetOpName` of an opcode above the push opcodes. -/
def getOpName (opcode : Opcode) : String :=
  if opcode = OP_ZEROCOINMINT then "OP_ZEROCOINMINT"
  else if opcode = OP_ZEROCOINSPEND then "OP_ZEROCOINSPEND"
  else if opcode = OP_ZEROCOINPUBLICSPEND then "OP_ZEROCOINPUBLICSPEND"
  else if opcode = OP_CHECKCOLDSTAKEVERIFY then "OP_CHECKCOLDSTAKEVERIFY"
  else if opcode = 0xff then "OP_INVALIDOPCODE"
  else (opNames[opcode.toNat - OP_1NEGATE.toNat]?).getD "OP_UNKNOWN"

def natToStr (n : Nat) : List Char := Nat.toDigits 10 n

/-- `std::to_string` of a signed number. -/
def intToStr (n : Int) : List Char :=
  if n < 0 then '-' :: natToStr n.natAbs else natToStr n.natAbs

theorem natToStr_injective : Function.Injective natToStr :=
  Function.LeftInverse.injective (g := fun s => .ofDigitChars 10 s 0) fun _ => Nat.ofDigitChars_ten_toDigits

theorem natToStr_head (n : Nat) : ∃ c rest, natToStr n = c :: rest ∧ c.isDigit = true := by
  obtain ⟨c, rest, hdigits⟩ := exists_cons_of_ne_nil
    (Nat.toDigits_ne_nil : Nat.toDigits 10 n ≠ [])
  refine ⟨c, rest, hdigits, ?_⟩
  apply Nat.isDigit_of_mem_toDigits (by decide : 0 < 10) (by decide)
  rw [hdigits]
  exact mem_cons_self

theorem natToStr_ne_neg (n : Nat) (s : List Char) : natToStr n ≠ '-' :: s := by
  obtain ⟨c, rest, hc, hdigit⟩ := natToStr_head n
  intro h
  rw [hc, cons.injEq] at h
  rw [h.1] at hdigit
  exact absurd hdigit (by decide)

theorem intToStr_injective : Function.Injective intToStr := by
  intro m n h
  unfold intToStr at h
  by_cases hm : m < 0 <;> by_cases hn : n < 0
  · rw [if_pos hm, if_pos hn, cons.injEq] at h
    have := natToStr_injective h.2
    omega
  · rw [if_pos hm, if_neg hn] at h
    exact absurd h.symm (natToStr_ne_neg _ _)
  · rw [if_neg hm, if_pos hn] at h
    exact absurd h (natToStr_ne_neg _ _)
  · rw [if_neg hm, if_neg hn] at h
    have := natToStr_injective h
    omega

/-- Little-endian value of a byte string. -/
def leValue : List UInt8 → Nat
  | [] => 0
  | b :: bytes => b.toNat + 256 * leValue bytes

/-- `CScriptNum::set_vch`: little-endian magnitude with the sign in the top bit. -/
def scriptNum (vch : List UInt8) : Int :=
  match vch.getLast? with
  | none => 0
  | some top =>
    if 0x80 ≤ top then -((leValue vch : Int) - 0x80 * 256 ^ (vch.length - 1)) else leValue vch

def hexDigitChar (n : Nat) : Char :=
  if n < 10 then Char.ofNat ('0'.toNat + n) else Char.ofNat ('a'.toNat + (n - 10))

def hexStr (vch : List UInt8) : List Char :=
  vch.flatMap fun b => [hexDigitChar (b.toNat / 16), hexDigitChar (b.toNat % 16)]

/-! ## §2. The disassembly. -/

/-- The text of one instruction: short pushes as numbers, longer ones as hex, the rest by name. -/
def asmElement (opcode : Opcode) (vch : List UInt8) : List Char :=
  if opcode ≤ OP_PUSHDATA4 then
    if vch.length ≤ 4 then intToStr (scriptNum vch) else hexStr vch
  else (getOpName opcode).toList

/-- The loop of `ScriptToAsmStr`; each turn consumes a byte, so the length is fuel enough. -/
def asmLoop : Nat → List UInt8 → List Char → List Char
  | 0, _, str => str
  | fuel + 1, pc, str =>
    if pc = [] then str
    else
      let str := if str = [] then str else str ++ [' ']
      match CScript.getOp pc with
      | none => str ++ "[error]".toList
      | some (opcode, vch, pc) => asmLoop fuel pc (str ++ asmElement opcode vch)

def scriptToAsmStr (script : CScript) : List Char := asmLoop script.length script []

/-- The test `strncmp(asm, "OP_RETURN", 9) == 0` on the printed script. -/
def isOpReturnAsm (script : CScript) : Bool :=
  (scriptToAsmStr script).take 9 == "OP_RETURN".toList

/-! ## §3. Hex text. -/

def isSpace (c : Char) : Bool :=
  c == ' ' || c == '\t' || c == '\n' || c == '\r' || c.toNat == 11 || c.toNat == 12

def hexDigit (c : Char) : Option Nat :=
  if '0' ≤ c ∧ c ≤ '9' then some (c.toNat - '0'.toNat)
  else if 'a' ≤ c ∧ c ≤ 'f' then some (c.toNat - 'a'.toNat + 10)
  else if 'A' ≤ c ∧ c ≤ 'F' then some (c.toNat - 'A'.toNat + 10)
  else none

/-- `ParseHex`: pairs of digits, blanks allowed between pairs, up to the first other character. -/
def parseHex : List Char → List UInt8
  | [] => []
  | c :: psz =>
    if isSpace c then parseHex psz
    else
      match hexDigit c, psz with
      | some hi, d :: psz =>
        match hexDigit d with
        | some lo => UInt8.ofNat (16 * hi + lo) :: parseHex psz
        | none => []
      | _, _ => []

/-! ## §4. The text test. -/

/-- What follows the text printed so far is set off by a blank. -/
theorem asmLoop_eq_append (fuel : Nat) (pc : List UInt8) {str : List Char} (hstr : str ≠ []) :
    ∃ tail, asmLoop fuel pc str = str ++ tail ∧ (tail = [] ∨ ∃ rest, tail = ' ' :: rest) := by
  induction fuel generalizing pc str with
  | zero => exact ⟨[], by simp [asmLoop], .inl rfl⟩
  | succ fuel ih =>
    unfold asmLoop
    by_cases hpc : pc = []
    · rw [if_pos hpc]
      exact ⟨[], by simp, .inl rfl⟩
    rw [if_neg hpc, if_neg hstr]
    cases CScript.getOp pc with
    | none => exact ⟨' ' :: "[error]".toList, by simp, .inr ⟨_, rfl⟩⟩
    | some op =>
      obtain ⟨opcode, vch, pc'⟩ := op
      obtain ⟨tail, htail, -⟩ := ih pc' (by simp : str ++ [' '] ++ asmElement opcode vch ≠ [])
      refine ⟨' ' :: (asmElement opcode vch ++ tail), ?_, .inr ⟨_, rfl⟩⟩
      dsimp only
      rw [htail]
      simp

theorem hexDigitChar_ne : ∀ n < 16, hexDigitChar n ≠ 'O' := by decide

theorem asmElement_push_head {opcode : Opcode} (vch : List UInt8) (h : opcode ≤ OP_PUSHDATA4) :
    ∃ c rest, asmElement opcode vch = c :: rest ∧ c ≠ 'O' := by
  unfold asmElement
  rw [if_pos h]
  by_cases hlen : vch.length ≤ 4
  · rw [if_pos hlen]
    unfold intToStr
    by_cases hneg : scriptNum vch < 0
    · rw [if_pos hneg]
      exact ⟨'-', _, rfl, by decide⟩
    rw [if_neg hneg]
    obtain ⟨c, rest, hdigits, hdigit⟩ := natToStr_head (scriptNum vch).natAbs
    refine ⟨c, rest, hdigits, ?_⟩
    intro hc
    rw [hc] at hdigit
    exact absurd hdigit (by decide)
  · rw [if_neg hlen]
    cases vch with
    | nil => simp at hlen
    | cons b vch =>
      refine ⟨hexDigitChar (b.toNat / 16), hexDigitChar (b.toNat % 16) :: hexStr vch, rfl, ?_⟩
      have hb := b.toNat_lt
      exact hexDigitChar_ne _ (by omega)

/-- Every opcode has a name, and only that of `OP_RETURN` starts like it. -/
theorem getOpName_take_nine (opcode : Opcode) : (getOpName opcode).toList ≠ [] ∧
    ((getOpName opcode).toList.take 9 = "OP_RETURN".toList ↔ opcode = OP_RETURN) := by
  have hall : ∀ n < 256, (getOpName (.ofNat n)).toList ≠ [] ∧ ((getOpName (.ofNat n)).toList.take 9 = "OP_RETURN".toList
        ↔ .ofNat n = OP_RETURN) := by
    decide +kernel
  have h := hall opcode.toNat opcode.toNat_lt
  rwa [UInt8.ofNat_toNat] at h

/-- A blank-separated continuation does not change the outcome of the test. -/
theorem take_nine_append {name tail : List Char} (htail : tail = [] ∨ ∃ rest, tail = ' ' :: rest) :
    (name ++ tail).take 9 = "OP_RETURN".toList ↔ name.take 9 = "OP_RETURN".toList := by
  rcases htail with rfl | ⟨rest, rfl⟩
  · rw [append_nil]
  by_cases hlen : 9 ≤ name.length
  · rw [take_append_of_le_length hlen]
  refine iff_of_false ?_ ?_
  · -- the blank would be one of the nine characters
    intro h
    have hmem : ' ' ∈ (name ++ ' ' :: rest).take 9 := by
      rw [mem_take_iff_getElem]
      exact ⟨name.length, by simp; omega, by simp⟩
    rw [h] at hmem
    exact absurd hmem (by decide)
  · intro h
    have := congrArg length h
    rw [length_take] at this
    have hnine : "OP_RETURN".toList.length = 9 := by decide
    omega

/-- **The text test is a byte test.** -/
theorem isOpReturnAsm_iff (script : CScript) : isOpReturnAsm script = true ↔ script.head? = some OP_RETURN := by
  unfold isOpReturnAsm scriptToAsmStr
  rw [beq_iff_eq]
  cases script with
  | nil => decide
  | cons opcode pc =>
    rw [length_cons, head?_cons, Option.some.injEq]
    unfold asmLoop
    rw [if_neg (cons_ne_nil _ _), if_pos rfl]
    by_cases hpush : opcode ≤ OP_PUSHDATA4
    · -- a push prints as a number, as hex or as a decoding error
      have hne : opcode ≠ OP_RETURN := by
        intro h
        rw [h] at hpush
        exact absurd hpush (by decide)
      refine iff_of_false ?_ hne
      intro h
      cases hop : CScript.getOp (opcode :: pc) with
      | none =>
        rw [hop] at h
        dsimp only at h
        exact absurd h (by decide)
      | some op =>
        obtain ⟨opcode', vch, pc'⟩ := op
        have hsame : opcode' = opcode := CScript.getOp_opcode hop
        subst hsame
        rw [hop] at h
        dsimp only at h
        obtain ⟨c, rest, helem, hc⟩ := asmElement_push_head vch hpush
        rw [helem, nil_append] at h
        obtain ⟨tail, htail, -⟩ := asmLoop_eq_append pc.length pc' (cons_ne_nil c rest)
        rw [htail] at h
        exact hc (by simpa using congrArg head? h)
    · have hplain : OP_PUSHDATA4 < opcode := by
        rw [UInt8.le_iff_toNat_le] at hpush
        rw [UInt8.lt_iff_toNat_lt]
        omega
      rw [CScript.getOp_plain hplain]
      dsimp only
      unfold asmElement
      rw [if_neg hpush, nil_append]
      obtain ⟨hname, hnine⟩ := getOpName_take_nine opcode
      obtain ⟨tail, htail, hsep⟩ := asmLoop_eq_append pc.length pc hname
      rw [htail, take_nine_append hsep]
      exact hnine

end PwrbCore
