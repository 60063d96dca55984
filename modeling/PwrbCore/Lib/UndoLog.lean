/-
  Lib.UndoLog — UNDO LOGS, for any state and any operations.  A forward step may fail; when it
  succeeds it leaves a record.  `run` performs a list of operations and keeps the
  records; `rollback` undoes them, last first, from the records alone.

  `rollback_run` is the induction every undo argument goes through: a relation between
  "state after undoing" and "state before doing" that each single undo step re-establishes
  holds after a whole rollback.  The relation may depend on the records undone, so a lossy
  undo can be described exactly (what was lost is a function of the log).
-/
import Mathlib.Data.List.Basic

namespace UndoLog

variable {σ ω ρ : Type}

/-- Perform `ops` from `s`, keeping one record per operation, oldest first. -/
def run (step : ω → σ → Option (σ × ρ)) : List ω → σ → Option (σ × List (ω × ρ))
  | [], s => some (s, [])
  | op :: ops, s =>
    match step op s with
    | none => none
    | some (s', r) => (run step ops s').map fun p => (p.1, (op, r) :: p.2)

def rollback (undo : ω → ρ → σ → σ) : List (ω × ρ) → σ → σ
  | [], s => s
  | (op, r) :: log, s => undo op r (rollback undo log s)

variable {log : List (ω × ρ)} {ops : List ω} {s t : σ} {step : ω → σ → Option (σ × ρ)}

theorem run_cons_eq_some {op : ω} (h : run step (op :: ops) s = some (t, log)) :
    ∃ s' r log', step op s = some (s', r) ∧ run step ops s' = some (t, log') ∧ log = (op, r) :: log' := by
  unfold run at h
  split at h
  next => cases h
  next s' r hs =>
      rw [Option.map_eq_some_iff] at h
      obtain ⟨⟨t', log'⟩, hrun, heq⟩ := h
      cases heq
      exact ⟨s', r, log', hs, hrun, rfl⟩

theorem run_invariant {Inv : σ → Prop} {ok : ω → Prop}
    (hstep : ∀ op s s' r, ok op → Inv s → step op s = some (s', r) → Inv s') (hok : ∀ op ∈ ops, ok op) (hs : Inv s)
    (h : run step ops s = some (t, log)) : Inv t := by
  induction ops generalizing s log with
  | nil =>
    cases h
    exact hs
  | cons op ops ih =>
    obtain ⟨s', r, log', hstep', hrun, rfl⟩ := run_cons_eq_some h
    have hs' : Inv s' := hstep op s s' r (hok op (by simp)) hs hstep'
    exact ih (fun o ho => hok o (by simp [ho])) hs' hrun

/-- **The undo induction.** If undoing one record turns a state related to the one after the step into one related to
the one before, then rolling back a log relates the result to the start of the run. -/
theorem rollback_run {undo : ω → ρ → σ → σ} (Inv : σ → Prop) (ok : ω → Prop) (R : List (ω × ρ) → σ → σ → Prop)
    (hinv : ∀ op s s' r, ok op → Inv s → step op s = some (s', r) → Inv s')
    (hundo : ∀ op s s' r log x, ok op → Inv s → step op s = some (s', r) → R log x s' →
      R ((op, r) :: log) (undo op r x) s) (hok : ∀ op ∈ ops, ok op) (hs : Inv s)
    (h : run step ops s = some (t, log)) {x : σ} (hx : R [] x t) : R log (rollback undo log x) s := by
  induction ops generalizing s log with
  | nil =>
    cases h
    exact hx
  | cons op ops ih =>
    obtain ⟨s', r, log', hstep, hrun, rfl⟩ := run_cons_eq_some h
    grind [rollback]

end UndoLog
