/-
  Coins.SameOutputs — VIEWS WITH THE SAME OUTPUTS.

  A rolled-back view differs from the original in metadata only.  What a block does to the
  outputs, and what its inputs are worth, does not look at metadata: views with the same
  outputs stay so under `UpdateCoins` (`SameOutputs.connectTxCoins`) and value every
  transaction alike (`SameOutputs.getValueIn`).
-/
import PwrbCore.Coins.BlockUndo

namespace PwrbCore

open CCoinsView CCoins

variable {view : CCoinsView} {tx : CTransaction} {c : CCoins} {undo undo' : List CTxInUndo}

def SameOutputs (view view' : CCoinsView) : Prop :=
  ∀ t, (view.lookup t).map CCoins.vout = (view'.lookup t).map CCoins.vout

theorem CCoinsView.haveInputs_iff (hspends : spendsCoins tx = true) :
    view.haveInputs tx = true ↔ ∀ txin ∈ tx.vin, ∃ o, view.getOutputFor txin.prevout = some o := by
  unfold haveInputs
  unfold spendsCoins at hspends
  rw [if_pos hspends, List.all_eq_true]
  refine forall₂_congr fun txin _ => ?_
  unfold getOutputFor
  cases view.accessCoins txin.prevout.hash with
  | none => simp
  | some c =>
    dsimp only
    constructor
    · intro havail
      rw [if_pos havail]
      unfold isAvailable at havail
      split at havail
      next o ho => exact ⟨o, ho⟩
      next => cases havail
    · rintro ⟨o, ho⟩
      split_ifs at ho with havail
      exact havail

namespace SameOutputs

variable {view' after after' : CCoinsView}

theorem symm (h : SameOutputs view view') : SameOutputs view' view := fun t => (h t).symm

theorem trans {view'' : CCoinsView} (h : SameOutputs view view') (h' : SameOutputs view' view'') :
    SameOutputs view view'' := fun t => (h t).trans (h' t)

theorem lookup_some (h : SameOutputs view view') {t : Uint256}
    (hc : view.lookup t = some c) : ∃ d, view'.lookup t = some d ∧ d.vout = c.vout := by
  have ht := h t
  rw [hc] at ht
  exact Option.map_eq_some_iff.mp ht.symm

/-! ## Reading. -/

theorem getOutputFor_eq_some (view : CCoinsView) (p : COutPoint) (o : CTxOut) : view.getOutputFor p = some o ↔
      ∃ c, view.lookup p.hash = some c ∧ c.vout[p.n]? = some o ∧ c.isAvailable p.n = true := by
  unfold getOutputFor accessCoins
  simp only [lookup_eq_some_iff]
  cases hc : view.coins p.hash with
  | none => simp
  | some c =>
    constructor
    · intro ho
      dsimp only at ho
      split_ifs at ho with havail
      refine ⟨c, ⟨rfl, ?_⟩, ho, havail⟩
      unfold isAvailable at havail
      rw [ho] at havail
      simp only [Bool.and_eq_true, Bool.not_eq_true'] at havail
      exact not_isPruned_of_getElem? ho havail.1
    simp_all

section

variable (h : SameOutputs view view')

include h

theorem getOutputFor_some {p : COutPoint} {o : CTxOut}
    (ho : view.getOutputFor p = some o) : view'.getOutputFor p = some o := by
  rw [getOutputFor_eq_some] at ho ⊢
  grind [h.lookup_some, isAvailable]

theorem getOutputFor (p : COutPoint) : view.getOutputFor p = view'.getOutputFor p := by
  cases ho : view.getOutputFor p with
  | some o => exact (h.getOutputFor_some ho).symm
  | none =>
    cases ho' : view'.getOutputFor p with
    | none => rfl
    | some o =>
      rw [h.symm.getOutputFor_some ho'] at ho
      cases ho

theorem haveInputs (tx : CTransaction) : view.haveInputs tx = view'.haveInputs tx := by
  cases hspends : spendsCoins tx with
  | false =>
    unfold spendsCoins at hspends
    unfold CCoinsView.haveInputs
    rw [hspends]
    rfl
  | true =>
    rw [Bool.eq_iff_iff, haveInputs_iff hspends, haveInputs_iff hspends]
    simp only [h.getOutputFor]

theorem getValueIn (tx : CTransaction) : view.getValueIn tx = view'.getValueIn tx := by
  unfold CCoinsView.getValueIn
  simp only [h.getOutputFor]

/-! ## Writing. -/

theorem modifyCoins (t : Uint256) {d : CCoins} (hvout : c.vout = d.vout) :
    SameOutputs (view.modifyCoins t fun _ => c) (view'.modifyCoins t fun _ => d) := by
  intro t'
  by_cases ht : t' = t
  · subst ht
    have hclean : c.cleanup.vout = d.cleanup.vout := by
      unfold cleanup
      rw [hvout]
    have hpruned : c.cleanup.isPruned = d.cleanup.isPruned := by
      unfold isPruned
      rw [hclean]
    simp [lookup, Option.filter_some, hpruned, hclean]
  · rw [lookup_modifyCoins_of_ne _ _ ht, lookup_modifyCoins_of_ne _ _ ht]
    exact h t'

theorem spendInputs {vin : List CTxIn} (hrun : spendInputs vin view = some (after, undo))
    (hrun' : spendInputs vin view' = some (after', undo')) : SameOutputs after after' := by
  induction vin generalizing view view' undo undo' with
  | nil =>
    cases hrun
    cases hrun'
    exact h
  | cons txin vin ih =>
    obtain ⟨mid, u, rest, hs, hrest, -⟩ := spendInputs_cons_eq_some hrun
    obtain ⟨mid', u', rest', hs', hrest', -⟩ := spendInputs_cons_eq_some hrun'
    obtain ⟨c, -, hc, -, -, rfl, -⟩ := spendInput_eq_some hs
    obtain ⟨c', -, hc', -, -, rfl, -⟩ := spendInput_eq_some hs'
    obtain ⟨d, hd, hvout⟩ := h.lookup_some hc
    rw [hc'] at hd
    cases hd
    refine ih (h.modifyCoins _ ?_) hrest hrest'
    unfold without
    rw [hvout]
    rfl

/-- **One transaction keeps the views alike.** -/
theorem connectTxCoins {nHeight : Int} (hrun : connectTxCoins nHeight tx view = some (after, undo))
    (hrun' : connectTxCoins nHeight tx view' = some (after', undo')) : SameOutputs after after' := by
  obtain ⟨-, mid, rfl, -, hmid⟩ := connectTxCoins_eq_some hrun
  obtain ⟨-, mid', rfl, -, hmid'⟩ := connectTxCoins_eq_some hrun'
  have hsame : SameOutputs mid mid' := by
    rcases hmid with ⟨hspends, hin⟩ | ⟨hspends, rfl, -⟩
    · rcases hmid' with ⟨-, hin'⟩ | ⟨hnone, -, -⟩
      · exact h.spendInputs hin hin'
      · rw [hspends] at hnone
        cases hnone
    simp_all
  exact hsame.modifyCoins tx.hash rfl

end

end SameOutputs

theorem Restored.sameOutputs {E : Uint256 → Prop} {undone : CCoinsView} (hR : Restored E undone view) :
    SameOutputs undone view := by
  intro t
  by_cases hE : E t
  · rw [(hR t).2 hE, Option.map_map]
    rfl
  · rw [(hR t).1 hE]

end PwrbCore
