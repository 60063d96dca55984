/-
  Script.GetOp — BUILDING AND PARSING SCRIPTS (`CScript::operator<<`, `CScript::GetOp2` of `script/script.h`).

  A script is a `prevector` whose `size_type` is `uint32_t` and whose `difference_type` is `int32_t`: `end()` is found
  by an `int32_t` position, and every check for the end compares an `int32_t` difference.

  Main result: `scripts_parse_back`.
-/
import PwrbCore.Script.Asm

namespace PwrbCore

open List CScript UInt8

/-! ## §1. `GetOp2`. -/

/-- A number as an `int32_t`. -/
def int32 (n : Int) : Int := (n + 2 ^ 31) % 2 ^ 32 - 2 ^ 31

/-- How far `end()` is from `pc`, which is what is left of a script of `size` bytes. -/
def toEnd (size : Nat) (pc : List UInt8) : Int := int32 size - (size - pc.length)

/-- What `GetOp2` does: `none` if it reads a byte beyond the script, `some none` for `false`. -/
abbrev ReadOp := Option (Option (Opcode × List UInt8 × List UInt8))

/-- The operand of a push. -/
def assignOperand (size : Nat) (opcode : Opcode) (nSize : Nat) (pc : List UInt8) : ReadOp :=
  if int32 (toEnd size pc) < 0 ∨ int32 (toEnd size pc) % 2 ^ 32 < nSize then some none
  else if pc.length < nSize then none
  else some (some (opcode, pc.take nSize, pc.drop nSize))

/-- The bytes that hold the size of a longer push. -/
def sizeBytes (opcode : Opcode) : Nat := if opcode = OP_PUSHDATA1 then 1 else if opcode = OP_PUSHDATA2 then 2 else 4

/-- `GetOp2` at `pc`. -/
def getOp2 (size : Nat) (pc : List UInt8) : ReadOp :=
  if toEnd size pc ≤ 0 ∨ int32 (toEnd size pc) < 1 then some none
  else
    match pc with
    | [] => none
    | opcode :: pc =>
      if OP_PUSHDATA4 < opcode then some (some (opcode, [], pc))
      else if opcode < OP_PUSHDATA1 then assignOperand size opcode opcode.toNat pc
      else if int32 (toEnd size pc) < sizeBytes opcode then some none
      else if pc.length < sizeBytes opcode then none
      else assignOperand size opcode (leValue (pc.take (sizeBytes opcode))) (pc.drop (sizeBytes opcode))

/-- The loop over `GetOp`: what is read, and where it stops. -/
inductive ReadsOps (size : Nat) : List UInt8 → List (Opcode × List UInt8) → List UInt8 → Prop
  | stop {pc} : getOp2 size pc = some none → ReadsOps size pc [] pc
  | read {pc opcode vch rest instrs last} : getOp2 size pc = some (some (opcode, vch, rest)) →
      ReadsOps size rest instrs last → ReadsOps size pc ((opcode, vch) :: instrs) last

/-! ## §2. What is read lies before `end()`. -/

variable {size n : Nat} {pc : List UInt8} {opcode : Opcode}

theorem int32_toEnd (hsize : pc.length ≤ size) (h : 0 ≤ toEnd size pc) :
    int32 (toEnd size pc) = toEnd size pc ∧ toEnd size pc ≤ pc.length ∧ toEnd size pc < 2 ^ 31 := by
  unfold toEnd int32 at h ⊢
  omega

theorem toEnd_drop (size : Nat) (h : n ≤ pc.length) : toEnd size (pc.drop n) = toEnd size pc - n := by
  unfold toEnd
  rw [length_drop]
  omega

theorem filter_takeOperand (hle : toEnd size pc ≤ pc.length) :
    (takeOperand opcode n pc).filter (fun r => 0 ≤ toEnd size r.2.2)
      = if toEnd size pc < n then none else takeOperand opcode n pc := by
  unfold takeOperand
  by_cases hn : pc.length < n
  · rw [if_pos hn, if_pos (by omega)]
    rfl
  · have hdrop := toEnd_drop size (Nat.le_of_not_lt hn)
    rw [if_neg hn, Option.filter_some]
    simp only [decide_eq_true_eq, hdrop]
    split_ifs <;> first | rfl | omega

theorem assignOperand_eq (hsize : pc.length ≤ size) (h : 0 ≤ toEnd size pc) :
    assignOperand size opcode n pc = some ((takeOperand opcode n pc).filter fun r => 0 ≤ toEnd size r.2.2) := by
  obtain ⟨hint, hle, hlt⟩ := int32_toEnd hsize h
  unfold assignOperand
  rw [hint, filter_takeOperand hle]
  unfold takeOperand
  split_ifs <;> first | rfl | omega

theorem getOp_sized (h : ¬ opcode < OP_PUSHDATA1) (h4 : ¬ OP_PUSHDATA4 < opcode) :
    getOp (opcode :: pc) = if pc.length < sizeBytes opcode then none
      else takeOperand opcode (leValue (pc.take (sizeBytes opcode))) (pc.drop (sizeBytes opcode)) := by
  have hcases : opcode = OP_PUSHDATA1 ∨ opcode = OP_PUSHDATA2 ∨ opcode = OP_PUSHDATA4 := by
    simp only [lt_iff_toNat_lt, ← UInt8.toNat_inj] at h h4 ⊢
    change ¬ _ < 76 at h
    change ¬ 78 < _ at h4
    show _ = 76 ∨ _ = 77 ∨ _ = 78
    omega
  rcases hcases with rfl | rfl | rfl
  · rcases pc with _ | ⟨b0, pc⟩ <;> rfl
  · rcases pc with _ | ⟨b0, _ | ⟨b1, pc⟩⟩ <;> rfl
  · rcases pc with _ | ⟨b0, _ | ⟨b1, _ | ⟨b2, _ | ⟨b3, pc⟩⟩⟩⟩ <;> rfl

/-- **`GetOp2` reads what lies before `end()`**, and nothing else. -/
theorem getOp2_eq (hsize : pc.length ≤ size) :
    getOp2 size pc = some ((getOp pc).filter fun r => 0 ≤ toEnd size r.2.2) := by
  unfold getOp2
  by_cases hend : toEnd size pc ≤ 0
  · rw [if_pos (.inl hend), eq_comm, Option.some_inj, Option.filter_eq_none_iff]
    intro r hr
    have hless := getOp_rest_length hr
    unfold toEnd at hend ⊢
    rw [decide_eq_true_iff]
    omega
  obtain ⟨hint, hle, -⟩ := int32_toEnd hsize (by omega)
  rw [if_neg (by omega)]
  cases pc with
  | nil => exact absurd hle (by simpa using hend)
  | cons opcode pc =>
    rw [length_cons] at hsize
    have hnext : 0 ≤ toEnd size pc := by
      unfold toEnd at hend ⊢
      rw [length_cons] at hend
      omega
    obtain ⟨hint, hle, -⟩ := int32_toEnd (by omega) hnext
    dsimp only
    split_ifs with h4 hdirect hfield hlong
    · rw [getOp_plain h4, Option.filter_some, if_pos (decide_eq_true hnext)]
    · rw [assignOperand_eq (by omega) hnext]
      simp only [getOp, if_pos hdirect]
    · rw [getOp_sized hdirect h4]
      split_ifs with hlong
      · rfl
      · have hdrop := toEnd_drop size (Nat.le_of_not_lt hlong)
        rw [filter_takeOperand (by rw [length_drop]; omega), if_pos (by omega)]
    · omega
    · have hdrop := toEnd_drop size (Nat.le_of_not_lt hlong)
      rw [getOp_sized hdirect h4, if_neg hlong]
      exact assignOperand_eq (by rw [length_drop]; omega) (by omega)

theorem getOp2_of_short (hsize : pc.length ≤ size) (hshort : size < 2 ^ 31) : getOp2 size pc = some (getOp pc) := by
  have hall : ∀ r : Opcode × List UInt8 × List UInt8, 0 ≤ toEnd size r.2.2 := by
    intro r
    unfold toEnd int32
    omega
  rw [getOp2_eq hsize]
  simp only [hall, decide_true]
  cases getOp pc <;> rfl

/-- **One call** reads no byte beyond the script, and at least one. -/
theorem getOp2_safe (hsize : pc.length ≤ size) : getOp2 size pc ≠ none ∧
    ∀ r, getOp2 size pc = some (some r) → ∃ read ≠ [], pc = read ++ r.2.2 := by
  rw [getOp2_eq hsize]
  refine ⟨Option.some_ne_none _, fun r hr => ?_⟩
  obtain ⟨hget, -⟩ := Option.filter_eq_some_iff.mp (Option.some_inj.mp hr)
  obtain ⟨field, hpc, -⟩ := getOp_inv hget
  exact ⟨r.1 :: (field ++ r.2.1), cons_ne_nil _ _, by simpa using hpc⟩

/-- **The loop ends.** -/
theorem exists_readsOps (hsize : pc.length ≤ size) : ∃ instrs last, ReadsOps size pc instrs last := by
  induction hlen : pc.length using Nat.strongRecOn generalizing pc with
  | _ n ih =>
    obtain ⟨hsafe, hread⟩ := getOp2_safe hsize
    match hop : getOp2 size pc with
    | none => exact absurd hop hsafe
    | some none => exact ⟨[], pc, .stop hop⟩
    | some (some r) =>
      obtain ⟨read, hne, rfl⟩ := hread r hop
      have hpos := length_pos_of_ne_nil hne
      rw [length_append] at hsize hlen
      obtain ⟨instrs, last, hrest⟩ := ih r.2.2.length (by omega) (by omega) rfl
      exact ⟨_, last, .read hop hrest⟩

/-! ## §3. Scripts are read back. -/

/-- What one `operator<<` appends. -/
def appended : Opcode ⊕ List UInt8 → CScript
  | .inl opcode => [opcode]
  | .inr b => pushData b

def Appendable : Opcode ⊕ List UInt8 → Prop
  | .inl opcode => OP_PUSHDATA4 < opcode
  | .inr b => b.length < 2 ^ 32

/-- What `GetOp` says was appended. -/
def itemOf (instr : Opcode × List UInt8) : Opcode ⊕ List UInt8 :=
  if instr.1 ≤ OP_PUSHDATA4 then .inr instr.2 else .inl instr.1

theorem getOp_appended {item : Opcode ⊕ List UInt8} (h : Appendable item) (rest : List UInt8) :
    ∃ instr, getOp (appended item ++ rest) = some (instr.1, instr.2, rest) ∧ itemOf instr = item := by
  cases item with
  | inl opcode => exact ⟨(opcode, []), getOp_plain h rest, if_neg (UInt8.not_le.mpr h)⟩
  | inr b =>
    obtain ⟨opcode, hle, hget⟩ := getOp_pushData h rest
    exact ⟨(opcode, b), hget, if_pos hle⟩

theorem readsOps_appended {items : List (Opcode ⊕ List UInt8)} (hitems : ∀ item ∈ items, Appendable item)
    (hsize : (items.flatMap appended).length ≤ size) (hshort : size < 2 ^ 31) :
    ∃ instrs, ReadsOps size (items.flatMap appended) instrs [] ∧ instrs.map itemOf = items := by
  induction items with
  | nil => exact ⟨[], .stop (getOp2_of_short hsize hshort), rfl⟩
  | cons item items ih =>
    obtain ⟨instr, hget, hitem⟩ := getOp_appended (hitems item mem_cons_self) (items.flatMap appended)
    rw [flatMap_cons] at hsize ⊢
    have hop := getOp2_of_short hsize hshort
    rw [length_append] at hsize
    rw [hget] at hop
    obtain ⟨instrs, hreads, hmap⟩ := ih (fun item h => hitems item (mem_cons_of_mem _ h)) (by omega)
    exact ⟨instr :: instrs, .read hop hreads, by rw [map_cons, hitem, hmap]⟩

/-- **Building and parsing.**  Opcodes and data appended to a script below 2^31 bytes are read back as they were, to the
end of the script.  On every byte string the loop ends; no call reads beyond the end, and each that
succeeds consumes a byte. -/
theorem scripts_parse_back :
    (∀ items : List (Opcode ⊕ List UInt8), (∀ item ∈ items, Appendable item) →
      (items.flatMap appended).length < 2 ^ 31 →
      ∃ instrs, ReadsOps (items.flatMap appended).length (items.flatMap appended) instrs [] ∧
        instrs.map itemOf = items) ∧
    ∀ script : CScript, (∃ instrs last, ReadsOps script.length script instrs last) ∧
      ∀ pc : List UInt8, pc.length ≤ script.length → getOp2 script.length pc ≠ none ∧
        ∀ r, getOp2 script.length pc = some (some r) → ∃ read ≠ [], pc = read ++ r.2.2 :=
  ⟨fun _ hitems hshort => readsOps_appended hitems (Nat.le_refl _) hshort,
    fun _ => ⟨exists_readsOps (Nat.le_refl _), fun _ hsize => getOp2_safe hsize⟩⟩

/-- A push of 2^31 - 5 bytes makes a script of 2^31 bytes: `end()` lies before `begin()`, and nothing
is read. -/
theorem long_push_not_read : ∃ b, Appendable (.inr b) ∧ (pushData b).length = 2 ^ 31 ∧
    ∀ instrs last, ReadsOps (pushData b).length (pushData b) instrs last → instrs = [] := by
  obtain ⟨b, hb⟩ : ∃ b : List UInt8, b.length = 2 ^ 31 - 5 :=
    ⟨replicate (2 ^ 31 - 5) 0, length_replicate⟩
  have hlen : (pushData b).length = 2 ^ 31 := by simp [pushData, hb, OP_PUSHDATA1]
  refine ⟨b, by show _ < _; omega, hlen, fun instrs last h => ?_⟩
  cases h with
  | stop => rfl
  | read hop => simp [getOp2, toEnd, int32, hlen] at hop

end PwrbCore
