/-
  Lib.Ledger — LEDGERS OF OUTPUTS: transactions consume outputs and create new ones, each output
  belonging to the transaction that created it.

  A ledger maps the outputs that exist now to what they hold.  `Sound done u` says that `u`
  is what is left after the transactions `done`: every output has its creator among them,
  none of them has consumed it, and whatever one of them consumed was created by another.

  `Sound.step` carries the invariant over one transaction, `Sound.run` over many;
  `Sound.not_mem` is what it is for: a transaction that consumes anything can be performed
  only once.
-/
import Mathlib.Data.List.Basic

namespace Ledger

open List

/-! ## §1. Soundness. -/

/-- What a transaction consumes and creates. `owner` of an output is the `id` of its transaction. -/
structure Rules (τ π ω ι : Type) where
  id : τ → ι
  owner : π → ι
  ins : τ → List π
  out : τ → π → Option ω

variable {τ π ω ι : Type} (R : Rules τ π ω ι)

/-- `t` can be performed: what it consumes exists, and none of its own outputs does. -/
structure Enabled (u : π → Option ω) (t : τ) : Prop where
  ins : ∀ p ∈ R.ins t, ∃ o, u p = some o
  new : ∀ p, R.owner p = R.id t → u p = none

/-- `u` is what the transactions `done` left. -/
structure Sound (done : List τ) (u : π → Option ω) : Prop where
  created : ∀ p o, u p = some o → ∃ t ∈ done, R.id t = R.owner p ∧ R.out t p = some o
  unconsumed : ∀ p o, u p = some o → ∀ t ∈ done, p ∉ R.ins t
  causal : ∀ t ∈ done, ∀ p ∈ R.ins t, ∃ t' ∈ done, R.id t' = R.owner p

variable {R} {done done' ts : List τ} {u u' : π → Option ω} {t : τ}

theorem Sound.congr (h : Sound R done u) (hmem : ∀ t, t ∈ done ↔ t ∈ done') : Sound R done' u := by
  constructor <;> simp only [← hmem]
  · exact h.created
  · exact h.unconsumed
  · exact h.causal

/-- **What has been performed cannot be performed again.** -/
theorem Sound.not_mem (h : Sound R done u) (ht : Enabled R u t) (hins : R.ins t ≠ []) : t ∉ done := by
  intro hmem
  obtain ⟨p, hp⟩ := exists_mem_of_ne_nil _ hins
  obtain ⟨o, ho⟩ := ht.ins p hp
  exact h.unconsumed p o ho t hmem hp

/-! ## §2. One transaction. -/

variable (R) [DecidableEq π] [DecidableEq ι]

def step (t : τ) (u : π → Option ω) : π → Option ω := fun p =>
  if R.owner p = R.id t then R.out t p else if p ∈ R.ins t then none else u p

variable {R}

/-- **One more transaction**, whose id is new. -/
theorem Sound.step (h : Sound R done u) (ht : Enabled R u t) (hnew : ∀ t' ∈ done, R.id t' ≠ R.id t) :
    Sound R (t :: done) (step R t u) := by
  -- nothing performed so far, and not `t` itself, consumes an output of `t`
  have hown : ∀ p, R.owner p = R.id t → ∀ t' ∈ t :: done, p ∉ R.ins t' := by
    intro p hp t' ht' hin
    rcases mem_cons.mp ht' with rfl | hdone
    · obtain ⟨o, ho⟩ := ht.ins p hin
      rw [ht.new p hp] at ho
      cases ho
    · obtain ⟨t'', ht'', hid⟩ := h.causal t' hdone p hin
      exact hnew t'' ht'' (hid.trans hp)
  refine ⟨?_, ?_, ?_⟩
  · grind [step, h.created]
  · intro p o hp t' ht'
    unfold Ledger.step at hp
    split_ifs at hp with howner hin
    · exact hown p howner t' ht'
    · rcases mem_cons.mp ht' with rfl | hdone
      · exact hin
      · exact h.unconsumed p o hp t' hdone
  · intro t' ht' p hp
    rcases mem_cons.mp ht' with rfl | hdone
    · obtain ⟨o, ho⟩ := ht.ins p hp
      obtain ⟨t'', ht'', hid, -⟩ := h.created p o ho
      exact ⟨t'', mem_cons_of_mem t' ht'', hid⟩
    · obtain ⟨t'', ht'', hid⟩ := h.causal t' hdone p hp
      exact ⟨t'', mem_cons_of_mem t ht'', hid⟩

variable {o : ω} {p : π}

/-- An output that the transaction does not consume survives it. -/
theorem step_of_not_mem (h : u p = some o) (ht : Enabled R u t) (hp : p ∉ R.ins t) : step R t u p = some o := by
  unfold step
  rw [if_neg, if_neg hp]
  · exact h
  · intro howner
    rw [ht.new p howner] at h
    cases h

/-- An output after the transaction is one of its own or an old one. -/
theorem step_eq_some (h : step R t u p = some o) : (R.owner p = R.id t ∧ R.out t p = some o) ∨ u p = some o := by
  unfold step at h
  split_ifs at h with howner hin
  · exact .inl ⟨howner, h⟩
  · exact .inr h

/-! ## §3. Runs. -/

variable (R)

/-- The transactions `ts`, each enabled in its turn, lead from `u` to `u'`. -/
inductive Run : (π → Option ω) → List τ → (π → Option ω) → Prop
  | nil (u : π → Option ω) : Run u [] u
  | cons {u u' : π → Option ω} {t : τ} {ts : List τ} (ht : Enabled R u t) (hrun : Run (step R t u) ts u') :
      Run u (t :: ts) u'

variable {R}

/-- An output that no transaction of the run consumes survives it. -/
theorem Run.keeps (hrun : Run R u ts u') (h : u p = some o) (hp : ∀ t ∈ ts, p ∉ R.ins t) : u' p = some o := by
  induction hrun with
  | nil u => exact h
  | cons ht _ ih =>
    simp_all [step_of_not_mem]

/-- An output the run creates and does not consume is there at its end. -/
theorem Run.creates (hrun : Run R u ts u') (ht : t ∈ ts) (howner : R.owner p = R.id t)
    (hout : R.out t p = some o) (hp : ∀ t ∈ ts, p ∉ R.ins t) : u' p = some o := by
  induction hrun with
  | nil u => cases ht
  | cons hen hrest ih =>
    rcases mem_cons.mp ht with rfl | ht
    · simp_all [hrest.keeps, step]
    · exact ih ht fun t' ht' => hp t' (mem_cons_of_mem _ ht')

theorem Run.eq_some (hrun : Run R u ts u') (h : u' p = some o) :
    u p = some o ∨ ∃ t ∈ ts, R.owner p = R.id t ∧ R.out t p = some o := by
  induction hrun with
  | nil u => exact .inl h
  | @cons u u' t ts ht hrest ih =>
    grind [step_eq_some, mem_cons_self]

/-- **A run of transactions that all consume something** repeats none, and stays sound. -/
theorem Sound.run (h : Sound R done u) (hrun : Run R u ts u') (hins : ∀ t ∈ ts, R.ins t ≠ [])
    (hid : ∀ t ∈ ts, ∀ t', t' ∈ ts ∨ t' ∈ done → R.id t' = R.id t → t' = t) :
    Sound R (ts.reverse ++ done) u' ∧ ∀ t ∈ ts, t ∉ done := by
  induction hrun generalizing done with
  | nil u => exact ⟨h, by simp⟩
  | @cons u u' t ts ht hrest ih =>
    have hfresh := h.not_mem ht (hins t mem_cons_self)
    have hnew : ∀ t' ∈ done, R.id t' ≠ R.id t := by
      intro t' ht' heq
      rw [hid t mem_cons_self t' (.inr ht') heq] at ht'
      exact hfresh ht'
    have hid' : ∀ t1 ∈ ts, ∀ t2, t2 ∈ ts ∨ t2 ∈ t :: done → R.id t2 = R.id t1 → t2 = t1 := by
      intro t1 ht1 t2 ht2 heq
      refine hid t1 (mem_cons_of_mem t ht1) t2 ?_ heq
      rcases ht2 with ht2 | ht2
      · exact .inl (mem_cons_of_mem t ht2)
      · rcases mem_cons.mp ht2 with rfl | ht2
        · exact .inl mem_cons_self
        · exact .inr ht2
    obtain ⟨hsound, hrestFresh⟩ := ih (h.step ht hnew)
      (fun t' ht' => hins t' (mem_cons_of_mem t ht')) hid'
    refine ⟨?_, ?_⟩
    · rw [reverse_cons, append_assoc]
      exact hsound
    intro t' ht'
    rcases mem_cons.mp ht' with rfl | ht'
    · exact hfresh
    · exact fun hmem => hrestFresh t' ht' (mem_cons_of_mem t hmem)

end Ledger
