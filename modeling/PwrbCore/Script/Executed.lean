/-
  Script.Executed — WHAT A RUN EXECUTES.

  `evalSteps` is the loop of `EvalScript` cut off after some turns.  A script `Executes` an
  opcode if some turn meets it where no condition is false.  In a run that ends well every
  turn ends well (`evalStep_of_evalLoop`), so what is known of the instruction itself holds
  in the run: `checkColdStake_of_executes`.
-/
import PwrbCore.Script.Interpreter

namespace PwrbCore

open Checked

variable {stack stack' : List ValType}

section Run

variable {crypto : ScriptCrypto} {flags : UInt32} {checker : SignatureChecker} {script : CScript}

/-! ## §1. Enough fuel. -/

variable {cfg cfg' : CScript × EvalState} {fuel : Nat} {st : EvalState}

/-- A turn that ends well takes its instruction off the script. -/
theorem evalStep_rest (h : evalStep crypto flags checker script cfg = .ok cfg') :
    ∃ opcode vch, CScript.getOp cfg.1 = some (opcode, vch, cfg'.1) ∧
      evalFetched crypto flags checker script cfg'.1 opcode vch (cfg.2.counted opcode) = .ok cfg'.2 := by
  unfold evalStep at h
  simp only [bind_eq_ok, orStop_eq_ok] at h
  obtain ⟨⟨opcode, vch, pc⟩, hget, -, -, -, -, -, -, st, hst, -, -, hcfg⟩ := h
  cases hcfg
  exact ⟨opcode, vch, hget, hst⟩

theorem evalStep_length (h : evalStep crypto flags checker script cfg = .ok cfg') : cfg'.1.length < cfg.1.length := by
  obtain ⟨opcode, vch, hget, -⟩ := evalStep_rest h
  exact CScript.getOp_rest_length hget

/-- **The fuel is enough**: the loop takes a turn for each byte at most. -/
theorem evalLoop_fuel (hfuel : cfg.1.length ≤ fuel) :
    evalLoop crypto flags checker script fuel cfg = evalLoop crypto flags checker script cfg.1.length cfg := by
  -- more fuel than bytes is never used: by induction on a bound of the bytes
  suffices hstep : ∀ n cfg, cfg.1.length ≤ n →
      evalLoop crypto flags checker script (n + 1) cfg = evalLoop crypto flags checker script n cfg by
    induction fuel, hfuel using Nat.le_induction with
    | base => rfl
    | succ n hn ih => rw [hstep n cfg hn, ih]
  intro n
  induction n with
  | zero =>
    intro cfg hlen
    have hnil : cfg.1 = [] := List.length_eq_zero_iff.mp (Nat.le_zero.mp hlen)
    unfold evalLoop
    rw [if_pos hnil, if_pos hnil]
  | succ n ih =>
    intro cfg hlen
    unfold evalLoop
    by_cases hnil : cfg.1 = []
    · rw [if_pos hnil, if_pos hnil]
    rw [if_neg hnil, if_neg hnil]
    cases hturn : evalStep crypto flags checker script cfg with
    | error e => rfl
    | ok cfg' =>
      have hless := evalStep_length hturn
      exact ih cfg' (by omega)

/-! ## §2. Turns of a run. -/

def evalSteps (crypto : ScriptCrypto) (flags : UInt32) (checker : SignatureChecker) (script : CScript) :
    (n : Nat) → CScript × EvalState → Except ScriptError (CScript × EvalState)
  | 0, cfg => .ok cfg
  | n + 1, cfg => do
    let cfg ← evalStep crypto flags checker script cfg
    evalSteps crypto flags checker script n cfg

theorem evalStep_of_evalLoop (hne : cfg.1 ≠ []) (h : evalLoop crypto flags checker script fuel cfg = .ok st) :
    ∃ fuel' cfg', evalStep crypto flags checker script cfg = .ok cfg' ∧
        evalLoop crypto flags checker script fuel' cfg' = .ok st := by
  cases fuel with
  | zero =>
    unfold evalLoop at h
    rw [if_neg hne] at h
    cases h
  | succ fuel =>
    unfold evalLoop at h
    rw [if_neg hne] at h
    exact ⟨fuel, bind_eq_ok.mp h⟩

theorem evalLoop_of_evalSteps {n : Nat} (h : evalLoop crypto flags checker script fuel cfg = .ok st)
    (hsteps : evalSteps crypto flags checker script n cfg = .ok cfg') :
    ∃ fuel', evalLoop crypto flags checker script fuel' cfg' = .ok st := by
  induction n generalizing fuel cfg with
  | zero =>
    cases hsteps
    exact ⟨fuel, h⟩
  | succ n ih =>
    obtain ⟨cfg1, hturn, hrest⟩ := bind_eq_ok.mp hsteps
    have hne : cfg.1 ≠ [] := List.ne_nil_of_length_pos (Nat.zero_lt_of_lt (evalStep_length hturn))
    obtain ⟨fuel', cfg2, hturn', hloop⟩ := evalStep_of_evalLoop hne h
    cases hturn.symm.trans hturn'
    exact ih hloop hrest

/-! ## §3. Executed instructions. -/

def ExecutesIn (crypto : ScriptCrypto) (flags : UInt32) (checker : SignatureChecker) (stack : List ValType)
    (script : CScript) (opcode : Opcode) (st : EvalState) : Prop :=
  ∃ n pc vch rest, evalSteps crypto flags checker script n
    (script, { stack := stack, pbegincodehash := script }) = .ok (pc, st) ∧
    CScript.getOp pc = some (opcode, vch, rest) ∧ st.fExec = true

/-- **An executed instruction ended well** if the evaluation did. -/
theorem evalInstr_of_executes {opcode : Opcode} (hexec : ExecutesIn crypto flags checker stack script opcode st)
    (hop : OP_PUSHDATA4 < opcode) (h : evalScript crypto flags checker stack script = .ok stack') :
    ∃ pc st', evalInstr crypto flags checker script pc (instrOf opcode) (st.counted opcode) = .ok st' := by
  obtain ⟨n, pc, vch, rest, hsteps, hget, hfExec⟩ := hexec
  unfold evalScript at h
  simp only [bind_eq_ok] at h
  obtain ⟨-, -, stEnd, hloop, -⟩ := h
  obtain ⟨fuel, hrest⟩ := evalLoop_of_evalSteps hloop hsteps
  have hne : pc ≠ [] := by
    intro hnil
    rw [hnil] at hget
    cases hget
  obtain ⟨-, cfg', hturn, -⟩ := evalStep_of_evalLoop hne hrest
  obtain ⟨opcode', vch', hget', hfetched⟩ := evalStep_rest hturn
  rw [hget] at hget'
  cases hget'
  have hcounted : (st.counted opcode).fExec = true := by
    unfold EvalState.counted
    split_ifs <;> exact hfExec
  unfold evalFetched at hfetched
  grind

/-- A script that executes `OP_CHECKCOLDSTAKEVERIFY` ends well only in a cold stake. -/
theorem checkColdStake_of_executes (hexec : ExecutesIn crypto flags checker stack script OP_CHECKCOLDSTAKEVERIFY st)
    (h : evalScript crypto flags checker stack script = .ok stack') : checker.checkColdStake script = true := by
  obtain ⟨pc, st', hinstr⟩ := evalInstr_of_executes hexec (by decide) h
  exact (require_bind_eq_ok.mp hinstr).1

end Run

end PwrbCore
