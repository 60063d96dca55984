/-
  Script.Templates — WHAT A MATCHED TEMPLATE SAYS OF THE SCRIPT.

  `Solver` compares a script with its templates instruction by instruction.  Read
  backwards, a match gives the instructions: a literal of the template stands there
  itself, a parameter stands for an operand of the right length.  The operand may have
  been pushed by any push opcode, so the bytes are not determined, but the run is.

  Main results:
    * `matchTemplate_cons_iff` — one opcode of a template against one instruction.
    * `matchTemplate_of_solver` — the class `Solver` reports has a template that matches.
    * `decodes_of_solver_*` — the instructions of a script of each class with one owner.
    * `isPayToColdStaking_iff_solver` — where the byte test for delegations and `Solver` agree.
-/
import PwrbCore.Script.Standard

namespace PwrbCore

open List CScript

/-! ## §1. Instructions and their operands. -/

variable {instrs : List (Opcode × List UInt8)} {i : Nat}

variable {pc : List UInt8} {opcode : Opcode} {template : List Opcode} {sols sols' : List (List UInt8)} {s : CScript}

variable {rest vch : List UInt8} {opcode2 : Opcode} {which : TxnOutType}

section

variable (h : getOp pc = some (opcode, vch, rest))

include h

/-- An instruction is an opcode, at most four bytes for a length, and the operand. -/
theorem length_le_of_getOp : pc.length ≤ 5 + vch.length + rest.length := by
  obtain ⟨size, rfl, ⟨rfl, -⟩ | ⟨hsize, -⟩⟩ := getOp_inv h
  · simp only [length_cons, length_append, length_nil]
    omega
  · simp only [length_cons, length_append]
    omega

theorem opcode_le_of_getOp (hvch : vch ≠ []) : opcode ≤ OP_PUSHDATA4 := by
  obtain ⟨size, -, ⟨-, hnil | ⟨hdirect, -⟩⟩ | ⟨-, hop⟩⟩ := getOp_inv h
  · exact absurd hnil hvch
  · exact UInt8.le_of_lt (UInt8.lt_trans hdirect (by decide))
  · simp only [mem_cons, not_mem_nil, or_false] at hop
    rcases hop with rfl | rfl | rfl <;> decide

/-- An opcode above the pushes is one byte of the script. -/
theorem eq_cons_of_getOp (hplain : OP_PUSHDATA4 < opcode) : pc = opcode :: rest ∧ vch = [] := by
  obtain ⟨size, rfl, -⟩ := getOp_inv h
  have hread := h.symm.trans (getOp_plain hplain _)
  simp only [Option.some.injEq, Prod.mk.injEq, true_and] at hread
  exact ⟨congrArg _ hread.2.symm, hread.1⟩

end

/-- The script consists of the given instructions. -/
def Decodes : CScript → List (Opcode × List UInt8) → Prop
  | pc, [] => pc = []
  | pc, (opcode, vch) :: instrs => ∃ rest, CScript.getOp pc = some (opcode, vch, rest) ∧ Decodes rest instrs

theorem Decodes.opcode_le (h : Decodes s instrs)
    (hmem : (opcode, vch) ∈ instrs) (hvch : vch ≠ []) : opcode ≤ OP_PUSHDATA4 := by
  induction instrs generalizing s with
  | nil => cases hmem
  | cons instr instrs ih =>
    obtain ⟨rest, hop, hrest⟩ := h
    rcases mem_cons.mp hmem with rfl | hmem
    · exact opcode_le_of_getOp hop hvch
    · exact ih hrest hmem

theorem Decodes.length_le (h : Decodes s instrs) : s.length ≤ (instrs.map fun instr => 5 + instr.2.length).sum := by
  induction instrs generalizing s with
  | nil => exact Nat.le_of_eq (congrArg length h)
  | cons instr instrs ih =>
    obtain ⟨rest, hop, hrest⟩ := h
    have hfirst := length_le_of_getOp hop
    have hrest := ih hrest
    rw [map_cons, sum_cons]
    omega

/-! ## §2. One opcode of a template. -/

/-- An opcode of a template other than a list of keys takes one instruction. -/
theorem matchTemplate_cons_iff (hkeys : opcode2 ≠ OP_PUBKEYS) :
    matchTemplate (opcode2 :: template) pc sols = some sols' ↔
      ∃ opcode1 vch1 rest found, getOp pc = some (opcode1, vch1, rest) ∧
        matchOpcode opcode2 opcode1 vch1 = some found ∧ matchTemplate template rest (sols ++ found) = some sols' := by
  rw [matchTemplate]
  cases getOp pc with
  | none => simp
  | some cur =>
    obtain ⟨opcode1, vch1, rest⟩ := cur
    cases hmatch : matchOpcode opcode2 opcode1 vch1 <;> simp [if_neg hkeys, hmatch]

theorem matchTemplate_nil_iff : matchTemplate [] pc sols = some sols' ↔ pc = [] ∧ sols = sols' := by
  unfold matchTemplate
  by_cases hpc : pc = [] <;> simp

def matchInstrs : List Opcode → List (Opcode × List UInt8) → List (List UInt8) → Option (List (List UInt8))
  | [], [], sols => some sols
  | opcode2 :: template, (opcode1, vch1) :: instrs, sols =>
    (matchOpcode opcode2 opcode1 vch1).bind fun found => matchInstrs template instrs (sols ++ found)
  | _, _, _ => none

/-- **A template without key lists compares instructions**, not bytes. -/
theorem matchTemplate_iff (hkeys : OP_PUBKEYS ∉ template) : matchTemplate template pc sols = some sols' ↔
    ∃ instrs, Decodes pc instrs ∧ matchInstrs template instrs sols = some sols' := by
  induction template generalizing pc sols with
  | nil =>
    rw [matchTemplate_nil_iff]
    constructor
    · rintro ⟨hpc, rfl⟩
      exact ⟨[], hpc, rfl⟩
    rintro ⟨instrs, hdec, hmatch⟩
    cases instrs with
    | nil => exact ⟨hdec, Option.some.inj hmatch⟩
    | cons instr instrs => cases hmatch
  | cons opcode2 template ih =>
    rw [mem_cons, not_or] at hkeys
    rw [matchTemplate_cons_iff (.symm hkeys.1)]
    constructor
    · rintro ⟨opcode1, vch1, rest, found, hop, hfound, hrest⟩
      obtain ⟨instrs, hdec, hmatch⟩ := (ih hkeys.2).mp hrest
      exact ⟨(opcode1, vch1) :: instrs, ⟨rest, hop, hdec⟩, by rw [matchInstrs, hfound]; exact hmatch⟩
    rintro ⟨instrs, hdec, hmatch⟩
    cases instrs with
    | nil => cases hmatch
    | cons instr instrs =>
      obtain ⟨rest, hop, hdec⟩ := hdec
      obtain ⟨found, hfound, hmatch⟩ := Option.bind_eq_some_iff.mp hmatch
      exact ⟨_, _, rest, found, hop, hfound, (ih hkeys.2).mpr ⟨instrs, hdec, hmatch⟩⟩

theorem matchInstrs_nil_iff : matchInstrs [] instrs sols = some sols' ↔ instrs = [] ∧ sols = sols' := by
  cases instrs <;> simp [matchInstrs]

theorem matchInstrs_cons_iff : matchInstrs (opcode2 :: template) instrs sols = some sols' ↔
    ∃ opcode1 vch1 rest found, instrs = (opcode1, vch1) :: rest ∧ matchOpcode opcode2 opcode1 vch1 = some found ∧
      matchInstrs template rest (sols ++ found) = some sols' := by
  cases instrs with
  | nil => simp [matchInstrs]
  | cons instr instrs => simp [matchInstrs, Option.bind_eq_some_iff, Prod.ext_iff]

theorem matchInstrs_literal_iff (h : IsLiteral opcode) : matchInstrs (opcode :: template) instrs sols = some sols' ↔
    ∃ rest, instrs = (opcode, []) :: rest ∧ matchInstrs template rest sols = some sols' := by
  simp [matchInstrs_cons_iff, matchOpcode_literal h]

/-- The parameter for a key hash takes any push of twenty bytes. -/
theorem matchInstrs_pubKeyHash_iff : matchInstrs (OP_PUBKEYHASH :: template) instrs sols = some sols' ↔
    ∃ push vch rest, instrs = (push, vch) :: rest ∧ vch.length = 20 ∧
      matchInstrs template rest (sols ++ [vch]) = some sols' := by
  have hne : OP_PUBKEYHASH ≠ OP_PUBKEY := by decide
  simp [matchInstrs_cons_iff, matchOpcode, hne]

theorem matchInstrs_pubKey_iff : matchInstrs (OP_PUBKEY :: template) instrs sols = some sols' ↔
    ∃ push vch rest, instrs = (push, vch) :: rest ∧ (33 ≤ vch.length ∧ vch.length ≤ 65) ∧
      matchInstrs template rest (sols ++ [vch]) = some sols' := by
  simp [matchInstrs_cons_iff, matchOpcode]

/-! ## §3. The template of a class. -/

theorem scanTemplates_eq_some {templates : List (TxnOutType × List Opcode)}
    (h : scanTemplates s templates = some (which, sols)) :
    ∃ template, (which, template) ∈ templates ∧ matchTemplate template s [] = some sols := by
  induction templates with
  | nil => cases h
  | cons first rest ih => grind [scanTemplates]

/-- A class other than those `Solver` tells by single bytes comes from a template. -/
theorem matchTemplate_of_solver (h : solver s = some (which, sols))
    (hwhich : which ≠ .scriptHash ∧ which ≠ .zerocoinMint ∧ which ≠ .nullData) :
    s.isPayToScriptHash = false ∧ ∃ template, (which, template) ∈ mTemplates ∧
        matchTemplate template s [] = some sols := by
  unfold solver at h
  split_ifs at h with hhash hmint hlong hnull
  · cases h
    exact absurd rfl hwhich.1
  · cases h
    exact absurd rfl hwhich.2.1
  · cases h
    exact absurd rfl hwhich.2.2
  · exact ⟨Bool.eq_false_iff.mpr hhash, scanTemplates_eq_some h⟩

/-- A script hash passes the byte test, and its solution is the hash in the middle. -/
theorem isPayToScriptHash_of_solver {vch : CScript}
    (h : solver s = some (.scriptHash, vch :: sols)) : s.isPayToScriptHash = true ∧ vch = (s.drop 2).take 20 := by
  unfold solver at h
  split_ifs at h with hhash
  · cases h
    exact ⟨hhash, rfl⟩
  · cases h
  · cases h
  · -- no template is that of a script hash
    obtain ⟨template, hmem, -⟩ := scanTemplates_eq_some h
    simp [mTemplates] at hmem

/-! ## §4. The instructions of the classes with one owner. -/

/-- A class with one owner: its template compares the instructions of the script. -/
theorem instrs_of_solver (h : solver s = some (which, sols))
    (hwhich : (which ≠ .scriptHash ∧ which ≠ .zerocoinMint ∧ which ≠ .nullData) ∧ which ≠ .multiSig) :
    ∃ template instrs, (which, template) ∈ mTemplates ∧ Decodes s instrs ∧
        matchInstrs template instrs [] = some sols := by
  obtain ⟨-, template, hmem, hmatch⟩ := matchTemplate_of_solver h hwhich.1
  have hkeys : ∀ entry ∈ mTemplates, entry.1 ≠ .multiSig → OP_PUBKEYS ∉ entry.2 := by decide
  obtain ⟨instrs, hdec, hmatch⟩ := (matchTemplate_iff (hkeys _ hmem hwhich.2)).mp hmatch
  exact ⟨template, instrs, hmem, hdec, hmatch⟩

theorem decodes_of_solver_pubKey (h : solver s = some (.pubKey, sols)) :
    ∃ push vch, push ≤ OP_PUSHDATA4 ∧ vch.length ≤ 65 ∧ sols = [vch] ∧ Decodes s [(push, vch), (OP_CHECKSIG, [])] := by
  obtain ⟨template, instrs, hmem, hdec, hmatch⟩ := instrs_of_solver h (by decide)
  obtain rfl : template = [OP_PUBKEY, OP_CHECKSIG] := by simpa [mTemplates] using hmem
  simp (disch := decide) only [matchInstrs_pubKey_iff, matchInstrs_literal_iff, matchInstrs_nil_iff] at hmatch
  obtain ⟨push, vch, _, rfl, hlen, _, rfl, rfl, rfl⟩ := hmatch
  have hne : vch ≠ [] := ne_nil_of_length_pos (by omega)
  exact ⟨push, vch, hdec.opcode_le (by simp) hne, hlen.2, rfl, hdec⟩

theorem decodes_of_solver_pubKeyHash (h : solver s = some (.pubKeyHash, sols)) :
    ∃ push vch, push ≤ OP_PUSHDATA4 ∧ vch.length = 20 ∧ sols = [vch] ∧
      Decodes s [(OP_DUP, []), (OP_HASH160, []), (push, vch), (OP_EQUALVERIFY, []), (OP_CHECKSIG, [])] := by
  obtain ⟨template, instrs, hmem, hdec, hmatch⟩ := instrs_of_solver h (by decide)
  obtain rfl : template = [OP_DUP, OP_HASH160, OP_PUBKEYHASH, OP_EQUALVERIFY, OP_CHECKSIG] := by
    simpa [mTemplates] using hmem
  simp (disch := decide) only [matchInstrs_pubKeyHash_iff, matchInstrs_literal_iff, matchInstrs_nil_iff] at hmatch
  obtain ⟨_, rfl, _, rfl, push, vch, _, rfl, hlen, _, rfl, _, rfl, rfl, rfl⟩ := hmatch
  have hne : vch ≠ [] := ne_nil_of_length_pos (by omega)
  exact ⟨push, vch, hdec.opcode_le (by simp) hne, hlen, rfl, hdec⟩

/-- A delegation: the staker's key hash in the first branch, the owner's in the second. -/
def delegationInstrs (push₁ : Opcode) (staker : List UInt8) (push₂ : Opcode) (owner : List UInt8) :
    List (Opcode × List UInt8) :=
  [(OP_DUP, []), (OP_HASH160, []), (OP_ROT, []), (OP_IF, []), (OP_CHECKCOLDSTAKEVERIFY, []), (push₁, staker),
    (OP_ELSE, []), (push₂, owner), (OP_ENDIF, []), (OP_EQUALVERIFY, []), (OP_CHECKSIG, [])]

def delegationTemplate : List Opcode :=
  [OP_DUP, OP_HASH160, OP_ROT, OP_IF, OP_CHECKCOLDSTAKEVERIFY, OP_PUBKEYHASH, OP_ELSE, OP_PUBKEYHASH, OP_ENDIF,
    OP_EQUALVERIFY, OP_CHECKSIG]

theorem matchInstrs_delegation_iff : matchInstrs delegationTemplate instrs [] = some sols ↔
    ∃ push₁ staker push₂ owner, staker.length = 20 ∧ owner.length = 20 ∧
      instrs = delegationInstrs push₁ staker push₂ owner ∧ sols = [staker, owner] := by
  unfold delegationTemplate
  simp (disch := decide) only [matchInstrs_pubKeyHash_iff, matchInstrs_literal_iff, matchInstrs_nil_iff]
  constructor
  · rintro ⟨_, rfl, _, rfl, _, rfl, _, rfl, _, rfl, push₁, staker, _, rfl, hstaker, _, rfl, push₂,
      owner, _, rfl, howner,
      _, rfl, _, rfl, _, rfl, rfl, rfl⟩
    exact ⟨push₁, staker, push₂, owner, hstaker, howner, rfl, rfl⟩
  · rintro ⟨push₁, staker, push₂, owner, hstaker, howner, rfl, rfl⟩
    exact ⟨_, rfl, _, rfl, _, rfl, _, rfl, _, rfl, push₁, staker, _, rfl, hstaker, _, rfl, push₂, owner, _, rfl, howner,
      _, rfl, _, rfl, _, rfl, rfl, rfl⟩

theorem decodes_of_solver_coldStake (h : solver s = some (.coldStake, sols)) :
    ∃ push₁ staker push₂ owner, push₁ ≤ OP_PUSHDATA4 ∧ staker.length = 20 ∧ push₂ ≤ OP_PUSHDATA4 ∧ owner.length = 20 ∧
      sols = [staker, owner] ∧ Decodes s (delegationInstrs push₁ staker push₂ owner) := by
  obtain ⟨template, instrs, hmem, hdec, hmatch⟩ := instrs_of_solver h (by decide)
  obtain rfl : template = delegationTemplate := by simpa [mTemplates, delegationTemplate] using hmem
  obtain ⟨push₁, staker, push₂, owner, hstaker, howner, rfl, rfl⟩ := matchInstrs_delegation_iff.mp hmatch
  have hne : ∀ {vch : List UInt8}, vch.length = 20 → vch ≠ [] := fun h => ne_nil_of_length_pos (by omega)
  exact ⟨push₁, staker, push₂, owner, hdec.opcode_le (by simp [delegationInstrs]) (hne hstaker), hstaker,
    hdec.opcode_le (by simp [delegationInstrs]) (hne howner), howner, rfl, hdec⟩

/-- The scripts of the classes with one owner are short, and no script hashes. -/
theorem length_le_of_solver (h : solver s = some (which, sols))
    (hwhich : which = .pubKey ∨ which = .pubKeyHash ∨ which = .coldStake) :
    s.isPayToScriptHash = false ∧ s.length ≤ 770 := by
  refine ⟨(matchTemplate_of_solver h (by rcases hwhich with rfl | rfl | rfl <;> decide)).1, ?_⟩
  rcases hwhich with rfl | rfl | rfl
  · obtain ⟨_, _, -, hlen, -, hdec⟩ := decodes_of_solver_pubKey h
    exact Nat.le_trans hdec.length_le (by simp; omega)
  · obtain ⟨_, _, -, hlen, -, hdec⟩ := decodes_of_solver_pubKeyHash h
    exact Nat.le_trans hdec.length_le (by simp [hlen])
  · obtain ⟨_, _, _, _, -, hstaker, -, howner, -, hdec⟩ := decodes_of_solver_coldStake h
    exact Nat.le_trans hdec.length_le (by simp [delegationInstrs, hstaker, howner])

/-! ## §5. The two recognisers of delegations. -/

theorem Decodes.unique {instrs' : List (Opcode × List UInt8)} (h : Decodes s instrs) (h' : Decodes s instrs') :
    instrs = instrs' := by
  induction instrs generalizing s instrs' with
  | nil =>
    cases h
    cases instrs' with
    | nil => rfl
    | cons instr instrs' => obtain ⟨_, hop, -⟩ := h'; cases hop
  | cons instr instrs ih =>
    obtain ⟨rest, hop, hrest⟩ := h
    cases instrs' with
    | nil => cases h'; cases hop
    | cons instr' instrs' =>
      obtain ⟨rest', hop', hrest'⟩ := h'
      have hsame := hop.symm.trans hop'
      simp only [Option.some.injEq, Prod.mk.injEq] at hsame
      obtain ⟨hopcode, hvch, rfl⟩ := hsame
      rw [ih hrest hrest', Prod.ext hopcode hvch]

/-- `Solver` reports a delegation exactly on its instructions, whatever pushes the hashes are in. -/
theorem solver_coldStake_iff : (∃ sols, solver s = some (.coldStake, sols)) ↔
    ∃ push₁ staker push₂ owner, staker.length = 20 ∧ owner.length = 20 ∧
      Decodes s (delegationInstrs push₁ staker push₂ owner) := by
  constructor
  · rintro ⟨sols, h⟩
    obtain ⟨push₁, staker, push₂, owner, -, hstaker, -, howner, -, hdec⟩ := decodes_of_solver_coldStake h
    exact ⟨push₁, staker, push₂, owner, hstaker, howner, hdec⟩
  rintro ⟨push₁, staker, push₂, owner, hstaker, howner, hdec⟩
  have hmatch : matchTemplate delegationTemplate s [] = some [staker, owner] := (matchTemplate_iff (by decide)).mpr
    ⟨_, hdec, matchInstrs_delegation_iff.mpr ⟨push₁, staker, push₂, owner, hstaker, howner, rfl, rfl⟩⟩
  -- the templates before it fail: the first at `OP_DUP`, the second at `OP_ROT`, the third at `OP_DUP`
  have hnone : ∀ template, OP_PUBKEYS ∉ template →
      matchInstrs template (delegationInstrs push₁ staker push₂ owner) [] = none →
          matchTemplate template s [] = none := by
    intro template hkeys hfail
    refine Option.eq_none_iff_forall_ne_some.mpr fun sols hsome => ?_
    obtain ⟨instrs, hdec', hmatch'⟩ := (matchTemplate_iff hkeys).mp hsome
    rw [hdec'.unique hdec, hfail] at hmatch'
    cases hmatch'
  have hkey := hnone [OP_PUBKEY, OP_CHECKSIG] (by decide) rfl
  have hhash := hnone [OP_DUP, OP_HASH160, OP_PUBKEYHASH, OP_EQUALVERIFY, OP_CHECKSIG] (by decide) rfl
  obtain ⟨rest, hop, -⟩ := hdec
  obtain ⟨rfl, -⟩ := eq_cons_of_getOp hop (by decide)
  have hmulti : matchTemplate [OP_SMALLINTEGER, OP_PUBKEYS, OP_SMALLINTEGER, OP_CHECKMULTISIG]
    (OP_DUP :: rest) [] = none := rfl
  have hscriptHash : isPayToScriptHash (OP_DUP :: rest) = false := by
    have hne : OP_DUP ≠ OP_HASH160 := by decide
    simp [isPayToScriptHash, hne]
  have hmint : isZerocoinMint (OP_DUP :: rest) = false := rfl
  have hreturn : startsWithOpcode OP_RETURN (OP_DUP :: rest) = false := rfl
  rw [delegationTemplate] at hmatch
  refine ⟨[staker, owner], ?_⟩
  simp [solver, hscriptHash, hmint, hreturn, mTemplates, scanTemplates, hkey, hhash, hmulti, hmatch]

/-- A script with its instructions and nothing more holds every operand right after its opcode. -/
theorem Decodes.bytes (h : Decodes s instrs) : (instrs.flatMap fun instr => instr.1 :: instr.2).length ≤ s.length ∧
    (s.length = (instrs.flatMap fun instr => instr.1 :: instr.2).length →
      s = instrs.flatMap (fun instr => instr.1 :: instr.2) ∧ ∀ instr ∈ instrs, instr.2 = [] ∨
          instr.1.toNat = instr.2.length) := by
  induction instrs generalizing s with
  | nil =>
    cases h
    simp
  | cons instr instrs ih =>
    obtain ⟨rest, hop, hrest⟩ := h
    obtain ⟨hle, heq⟩ := ih hrest
    obtain ⟨size, rfl, hsize⟩ := getOp_inv hop
    simp only [flatMap_cons, length_append, length_cons] at *
    refine ⟨by omega, fun hlen => ?_⟩
    obtain ⟨hbytes, hpushes⟩ := heq (by omega)
    obtain rfl : size = [] := length_eq_zero_iff.mp (by omega)
    have hpush : instr.2 = [] ∨ instr.1.toNat = instr.2.length := by
      rcases hsize with ⟨-, hnil | ⟨-, hdirect⟩⟩ | ⟨⟨hpos, -⟩, -⟩
      · exact .inl hnil
      · exact .inr hdirect
      · cases hpos
    exact ⟨by rw [← hbytes]; rfl, forall_mem_cons.mpr ⟨hpush, hpushes⟩⟩

/-- A script of 51 bytes with the instructions of a delegation is the one the wallet builds. -/
theorem eq_of_decodes_delegation {push₁ push₂ : Opcode} {staker owner : List UInt8} (hstaker : staker.length = 20)
    (howner : owner.length = 20) (h : Decodes s (delegationInstrs push₁ staker push₂ owner)) (hlen : s.length = 51) :
    s = getScriptForStakeDelegation ⟨staker, hstaker⟩ ⟨owner, howner⟩ := by
  obtain ⟨hbytes, hpushes⟩ := h.bytes.2 (by simp [delegationInstrs, hstaker, howner, hlen])
  have hdirect : ∀ {push : Opcode} {vch : List UInt8}, vch.length = 20 → (vch = [] ∨ push.toNat = vch.length) →
      push = 20 := by
    rintro push vch hlen (rfl | hpush)
    · cases hlen
    · exact UInt8.toNat_inj.mp (hpush.trans hlen)
  simp only [delegationInstrs, mem_cons, forall_eq_or_imp] at hpushes
  obtain ⟨-, -, -, -, -, hpush1, -, hpush2, -⟩ := hpushes
  rw [hbytes, hdirect hstaker hpush1, hdirect howner hpush2, getScriptForStakeDelegation_eq]
  simp [delegationInstrs]

/-- The bytes of a delegation at the places `IsPayToColdStaking` does not look at. -/
def HasDelegationOpcodes (s : CScript) : Prop :=
  s[0]? = some OP_DUP ∧ s[1]? = some OP_HASH160 ∧ s[3]? = some OP_IF ∧ s[26]? = some OP_ELSE ∧ s[48]? = some OP_ENDIF

theorem Decodes.plain (hplain : OP_PUSHDATA4 < opcode) (hi : s[i]? = some opcode)
    (h : Decodes (s.drop (i + 1)) instrs) : Decodes (s.drop i) ((opcode, []) :: instrs) := by
  obtain ⟨hlt, rfl⟩ := List.getElem?_eq_some_iff.mp hi
  rw [drop_eq_getElem_cons hlt]
  exact ⟨_, getOp_plain hplain _, h⟩

theorem Decodes.direct (hi : s[i]? = some 20) (hlen : i + 21 ≤ s.length)
    (h : Decodes (s.drop (i + 21)) instrs) : Decodes (s.drop i) ((20, (s.drop (i + 1)).take 20) :: instrs) := by
  obtain ⟨hlt, hbyte⟩ := List.getElem?_eq_some_iff.mp hi
  have hop := getOp_push20 ⟨(s.drop (i + 1)).take 20, by simp; omega⟩ ((s.drop (i + 1)).drop 20)
  rw [take_append_drop, drop_drop, ← hbyte, ← drop_eq_getElem_cons hlt, hbyte] at hop
  exact ⟨_, hop, h⟩

/-- A script with all its bytes in place has the instructions. -/
theorem decodes_delegation (h : s.isPayToColdStaking = true) (hbytes : HasDelegationOpcodes s) :
    Decodes s (delegationInstrs 20 ((s.drop 6).take 20) 20 ((s.drop 28).take 20)) := by
  unfold isPayToColdStaking at h
  simp only [Bool.and_eq_true, beq_iff_eq] at h
  obtain ⟨⟨⟨⟨⟨⟨hlen, h2⟩, h4⟩, h5⟩, h27⟩, h49⟩, h50⟩ := h
  obtain ⟨h0, h1, h3, h26, h48⟩ := hbytes
  have hend : Decodes (s.drop 51) [] := drop_eq_nil_of_le (by omega)
  have hsecond : Decodes (s.drop 26) _ := .plain (by decide) h26 (.direct h27 (by omega)
    (.plain (by decide) h48 (.plain (by decide) h49 (.plain (by decide) h50 hend))))
  exact .plain (by decide) h0 (.plain (by decide) h1 (.plain (by decide) h2 (.plain (by decide) h3
    (.plain (by decide) h4 (.direct h5 (by omega) hsecond)))))

/-- **The two recognisers agree on the scripts the wallet builds, and only there**: the byte test does not look at five
opcodes, and `Solver` takes a hash from any push opcode. -/
theorem isPayToColdStaking_iff_solver (s : CScript) :
    (s.isPayToColdStaking = true ↔ ∃ sols, solver s = some (.coldStake, sols)) ↔
      (s.isPayToColdStaking = true → HasDelegationOpcodes s) ∧
      ∀ push₁ staker push₂ owner, staker.length = 20 → owner.length = 20 →
        Decodes s (delegationInstrs push₁ staker push₂ owner) → s.length = 51 := by
  rw [solver_coldStake_iff]
  constructor
  · intro hagree
    refine ⟨fun htest => ?_, fun push₁ staker push₂ owner hstaker howner hdec => ?_⟩
    · obtain ⟨push₁, staker, push₂, owner, hstaker, howner, hdec⟩ := hagree.mp htest
      have hlen : s.length = 51 := by simp_all [isPayToColdStaking]
      rw [eq_of_decodes_delegation hstaker howner hdec hlen, getScriptForStakeDelegation_eq]
      simp [HasDelegationOpcodes, hstaker, howner]
    · have htest := hagree.mpr ⟨push₁, staker, push₂, owner, hstaker, howner, hdec⟩
      simp_all [isPayToColdStaking]
  · rintro ⟨hbytes, hlength⟩
    constructor
    · intro htest
      have hlen : s.length = 51 := by simp_all [isPayToColdStaking]
      exact ⟨20, _, 20, _, by simp; omega, by simp; omega, decodes_delegation htest (hbytes htest)⟩
    · rintro ⟨push₁, staker, push₂, owner, hstaker, howner, hdec⟩
      rw [eq_of_decodes_delegation hstaker howner hdec (hlength _ _ _ _ hstaker howner hdec)]
      exact isPayToColdStaking_getScriptForStakeDelegation _ _

/-- With another first opcode only the byte test passes; with a hash pushed by `OP_PUSHDATA1` only `Solver` sees it. -/
theorem delegations_told_apart : (∃ s : CScript, s.isPayToColdStaking = true ∧ solver s = none) ∧
      ∃ s : CScript, s.isPayToColdStaking = false ∧ ∃ sols, solver s = some (.coldStake, sols) := by
  let hash : List UInt8 := replicate 20 0
  let rest : CScript := hash ++ [OP_ELSE, 20] ++ hash ++ [OP_ENDIF, OP_EQUALVERIFY, OP_CHECKSIG]
  refine ⟨⟨[OP_NOP, OP_HASH160, OP_ROT, OP_IF, OP_CHECKCOLDSTAKEVERIFY, 20] ++ rest, ?_, ?_⟩,
    [OP_DUP, OP_HASH160, OP_ROT, OP_IF, OP_CHECKCOLDSTAKEVERIFY, OP_PUSHDATA1, 20] ++ rest, ?_, [hash, hash], ?_⟩
  all_goals decide

end PwrbCore
