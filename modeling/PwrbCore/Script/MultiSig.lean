/-
  Script.MultiSig — THE GREEDY SCAN OF OP_CHECKMULTISIG IS COMPLETE.

  The loop gives each signature the first key that is left and verifies it, and stops early
  when more signatures than keys are left.  A key that verifies a signature may as well be
  taken: an assignment that uses a later one can be moved to it
  (`sublistForall₂_cons_cons_iff`).

  Main result: `checkMultiSig_exact`.
-/
import Mathlib.Data.List.NodupEquivFin
import PwrbCore.Script.FlagSubset

namespace PwrbCore

open List Checked

/-! ## §1. Assignments in order. -/

section Assignment

variable {α β : Type} {R : α → β → Prop} {a : α} {b : β} {as : List α} {bs : List β}

/-- **The exchange**: where the first elements match, nothing is lost by matching them. -/
theorem sublistForall₂_cons_cons_iff [Decidable (R a b)] :
    SublistForall₂ R (a :: as) (b :: bs) ↔ SublistForall₂ R (if R a b then as else a :: as) bs := by
  split_ifs with hR
  · refine ⟨fun h => ?_, .cons hR⟩
    cases h with
    | cons _ h => exact h
    | cons_right h =>
      rw [sublistForall₂_iff] at h ⊢
      obtain ⟨l, hall, hsub⟩ := h
      cases hall with
      | cons _ hall => exact ⟨_, hall, (sublist_cons_self _ _).trans hsub⟩
  · refine ⟨fun h => ?_, .cons_right⟩
    cases h with
    | cons hab _ => exact absurd hab hR
    | cons_right h => exact h

/-- In terms of positions: a strictly increasing map from one list into the other. -/
theorem sublistForall₂_iff_strictMono : SublistForall₂ R as bs ↔
    ∃ f : Fin as.length → Fin bs.length, StrictMono f ∧ ∀ i, R (as.get i) (bs.get (f i)) := by
  rw [sublistForall₂_iff]
  constructor
  · rintro ⟨l, hall, hsub⟩
    obtain ⟨f, hf⟩ := sublist_iff_exists_fin_orderEmbedding_get_eq.mp hsub
    obtain ⟨hlen, hget⟩ := forall₂_iff_get.mp hall
    refine ⟨fun i => f (i.cast hlen), fun i j hij => f.strictMono hij, fun i => ?_⟩
    rw [← hf]
    exact hget i i.2 (hlen ▸ i.2)
  · rintro ⟨f, hmono, hR⟩
    have hlen : (ofFn fun i => bs.get (f i)).length = as.length := length_ofFn
    refine ⟨ofFn fun i => bs.get (f i), forall₂_iff_get.mpr ⟨hlen.symm, fun i h1 _ => ?_⟩, ?_⟩
    · simpa using hR ⟨i, h1⟩
    · refine sublist_iff_exists_fin_orderEmbedding_get_eq.mpr
        ⟨.ofStrictMono (fun i => f (i.cast hlen)) fun i j hij => hmono hij, fun i => ?_⟩
      exact get_ofFn _ i

end Assignment

/-! ## §2. The loop and the opcode. -/

variable {crypto : ScriptCrypto} {flags : UInt32} {checker : SignatureChecker} {vKeys vSigs : List ValType}

/-- **The loop**: with acceptable encodings it finds an assignment if there is one. -/
theorem matchSignatures_exact (scriptCode : CScript)
    (hsigs : ∀ vchSig ∈ vSigs, checkSignatureEncoding crypto flags vchSig = .ok ())
    (hkeys : ∀ vchPubKey ∈ vKeys, checkPubKeyEncoding flags vchPubKey = .ok ()) :
    ∃ fSuccess, matchSignatures crypto flags checker scriptCode vKeys vSigs = .ok fSuccess ∧
      (fSuccess = true ↔ SublistForall₂ (fun vchSig vchPubKey => checker.checkSig vchSig vchPubKey scriptCode
          = true) vSigs vKeys) := by
  induction vKeys generalizing vSigs with
  | nil =>
    cases vSigs with
    | nil => exact ⟨true, rfl, iff_of_true rfl .nil⟩
    | cons vchSig vSigs => exact ⟨false, rfl, iff_of_false nofun nofun⟩
  | cons vchPubKey vKeys ih =>
    cases vSigs with
    | nil => exact ⟨true, rfl, iff_of_true rfl .nil⟩
    | cons vchSig vSigs =>
      obtain ⟨hkey, hkeys⟩ := forall_mem_cons.mp hkeys
      obtain ⟨hsig, hrest⟩ := forall_mem_cons.mp hsigs
      rw [sublistForall₂_cons_cons_iff]
      simp only [matchSignatures, hsig, hkey]
      -- the signatures that are left
      generalize hleft : (if checker.checkSig vchSig vchPubKey scriptCode = true then vSigs else vchSig :: vSigs) = left
      show ∃ fSuccess, (if vKeys.length < left.length then _ else _) = _ ∧ _
      split_ifs with hlt
      · -- too few keys are left for an assignment
        refine ⟨false, rfl, iff_of_false nofun fun h => ?_⟩
        obtain ⟨l, hall, hsub⟩ := sublistForall₂_iff.mp h
        have hle := hsub.length_le
        rw [← hall.length_eq] at hle
        omega
      · refine ih ?_ hkeys
        rw [← hleft]
        split_ifs
        exacts [hrest, hsigs]

/-- **`OP_CHECKMULTISIG` is exact.**  With counts within the limits and acceptable encodings it pushes true exactly if
there is a strictly order-preserving assignment of all signatures to keys that verify them. -/
theorem checkMultiSig_exact {st : EvalState} {nKeys nSigs dummy : ValType} {rest : List ValType} {bnKeys bnSigs : Int}
    (hstack : st.stack = nKeys :: (vKeys ++ nSigs :: (vSigs ++ dummy :: rest)))
    (hnKeys : scriptNumOf flags nKeys = .ok bnKeys)
    (hkeysCount : getInt bnKeys = vKeys.length) (hmax : vKeys.length ≤ 20) (hops : st.nOpCount + vKeys.length ≤ 201)
    (hnSigs : scriptNumOf flags nSigs = .ok bnSigs) (hsigsCount : getInt bnSigs = vSigs.length)
    (hle : vSigs.length ≤ vKeys.length) (hdummy : hasFlag flags SCRIPT_VERIFY_NULLDUMMY = true → dummy = [])
    (hsigs : ∀ vchSig ∈ vSigs, checkSignatureEncoding crypto flags vchSig = .ok ())
    (hkeys : ∀ vchPubKey ∈ vKeys, checkPubKeyEncoding flags vchPubKey = .ok ()) :
    ∃ fSuccess, evalCheckMultiSig crypto flags checker false st
        = .ok { st with nOpCount := st.nOpCount + vKeys.length, stack := boolVch fSuccess :: rest } ∧
      (fSuccess = true ↔ ∃ f : Fin vSigs.length → Fin vKeys.length, StrictMono f ∧ ∀ i,
        checker.checkSig (vSigs.get i) (vKeys.get (f i)) (vSigs.foldl
          (fun code vchSig => .findAndDelete code (.pushData vchSig)) st.pbegincodehash) = true) := by
  obtain ⟨fSuccess, hmatch, hexact⟩ := matchSignatures_exact (vSigs.foldl
    (fun code vchSig => .findAndDelete code (.pushData vchSig)) st.pbegincodehash) hsigs hkeys
  refine ⟨fSuccess, ?_, hexact.trans sublistForall₂_iff_strictMono⟩
  have hcheck : checkIf (hasFlag flags SCRIPT_VERIFY_NULLDUMMY) (require (dummy = []) ScriptError.sigNullDummy)
      = .ok () :=
    checkIf_eq_ok.mpr fun hflag => require_eq_ok.mpr (hdummy hflag)
  have hkeysNat : (getInt bnKeys).toNat = vKeys.length := by omega
  have hsigsNat : (getInt bnSigs).toNat = vSigs.length := by omega
  have hafter : st.stack.drop (1 + (getInt bnKeys).toNat) = nSigs :: (vSigs ++ dummy :: rest) := by
    rw [hstack, hkeysNat, Nat.add_comm, drop_succ_cons, drop_left]
  unfold evalCheckMultiSig
  simp only [bind_eq_ok, require_eq_ok]
  refine ⟨nKeys, by rw [hstack]; rfl, bnKeys, hnKeys, (), by omega, (), by omega, nSigs,
    by rw [hafter]; rfl, bnSigs, hnSigs,
    (), by omega, (), ?_, fSuccess, ?_, dummy, ?_, (), hcheck, ?_⟩
  · rw [hafter]
    simp only [length_cons, length_append]
    omega
  · rw [hafter, hstack, hkeysNat, hsigsNat, tail_cons, tail_cons, take_left, take_left]
    exact hmatch
  · rw [hafter, hsigsNat, tail_cons, drop_left]
    rfl
  · rw [hafter, hkeysNat, hsigsNat, tail_cons, drop_left]
    rfl

/-- Two of three: the signatures of the first and the last key, under the sample checker. -/
theorem two_of_three_exact :
    ∃ fSuccess, evalCheckMultiSig sampleCrypto 0 sampleChecker false
      ⟨[[3], [7], [8], [9], [2], [7], [9], []], [], [], 1, []⟩
        = .ok ⟨[boolVch fSuccess], [], [], 4, []⟩ ∧ (fSuccess = true ↔ ∃ f : Fin 2 → Fin 3, StrictMono f ∧ ∀ i,
        sampleChecker.checkSig (([[7], [9]] : List ValType).get i) (([[7], [8], [9]] : List ValType).get (f i))
            [] = true) :=
  @checkMultiSig_exact sampleCrypto 0 sampleChecker [[7], [8], [9]] [[7], [9]]
    ⟨[[3], [7], [8], [9], [2], [7], [9], []], [], [], 1, []⟩
    [3] [2] [] [] 3 2 rfl rfl rfl (by decide) (by decide) rfl rfl (by decide) (fun _ => rfl) (by decide) (by decide)

end PwrbCore
