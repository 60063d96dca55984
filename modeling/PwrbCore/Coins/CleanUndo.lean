/-
  Coins.CleanUndo — THE CONSISTENCY FLAG OF `DisconnectBlock` (`fClean`): while the transactions are undone,
  each removed entry is compared with the outputs of the block, and each restored output
  with what the view holds at its place.

  Undoing the records of a block that was just connected raises no flag, with one
  exception: an entry of a coinstake that the same block exhausted.  Connected blocks have
  none, since a coinstake matures in later blocks only.
-/
import PwrbCore.Coins.SameOutputs

namespace PwrbCore

open CCoinsView CCoins

/-! ## §1. The flags. -/

variable {vin : List CTxIn} {txundo : List CTxInUndo}

/-- The tests on the entry an input is restored to. -/
def restoreInputClean (undo : CTxInUndo) (n : Nat) (coins : CCoins) : Bool :=
  if undo.nHeight ≠ 0 then coins.isPruned else !coins.isPruned && !coins.isAvailable n

def restoreInputsChecked : List CTxIn → List CTxInUndo → CCoinsView × Bool → CCoinsView × Bool
  | txin :: vin, undo :: vprevout, s =>
    let s := restoreInputsChecked vin vprevout s
    (s.1.modifyCoins txin.prevout.hash (CCoins.restoreInput undo txin.prevout.n),
      s.2 && restoreInputClean undo txin.prevout.n ((s.1.coins txin.prevout.hash).getD {}))
  | _, _, s => s

theorem restoreInputsChecked_fst (vin : List CTxIn) (vprevout : List CTxInUndo) (s : CCoinsView × Bool) :
    (restoreInputsChecked vin vprevout s).1 = restoreInputs vin vprevout s.1 := by
  induction vin generalizing vprevout with
  | nil => rfl
  | cons txin vin ih =>
    cases vprevout with
    | nil => rfl
    | cons undo vprevout =>
      unfold restoreInputsChecked restoreInputs
      dsimp only
      rw [ih]

/-- The entry of `tx` against the outputs of the block. A negative version, which no serialised entry holds, is taken
from the block. -/
def outsMatch (view : CCoinsView) (tx : CTransaction) (nHeight : Int) : Bool :=
  let outs := ((view.coins tx.hash).getD {}).clearUnspendable
  let outsBlock := CCoins.fromTx tx nHeight
  CCoins.eqv
    { outs with nVersion := if outsBlock.nVersion < 0 then outsBlock.nVersion else outs.nVersion }
    outsBlock

/-! ## §2. Reading coins through a restored view. -/

variable {E : Uint256 → Prop} {c : CCoins} {t : Uint256} {undone view view' : CCoinsView}

/-- An entry of the original is in the restored view with its outputs. -/
theorem Restored.lookup_some (hR : Restored E undone view) (hc : view.lookup t = some c) :
    ∃ d, undone.lookup t = some d ∧ d.vout = c.vout ∧ (d = c ∨ (E t ∧ d = c.scrub)) := by
  by_cases hE : E t
  · refine ⟨c.scrub, ?_, rfl, .inr ⟨hE, rfl⟩⟩
    rw [(hR t).2 hE, hc]
    rfl
  · exact ⟨c, by rw [(hR t).1 hE, hc], rfl, .inl rfl⟩

theorem Restored.lookup_none (hR : Restored E undone view) (hnone : view.lookup t = none) : undone.lookup t = none := by
  by_cases hE : E t
  · rw [(hR t).2 hE, hnone]
    rfl
  · rw [(hR t).1 hE, hnone]

theorem CCoinsView.getD_of_lookup_some (h : view.lookup t = some c) : (view.coins t).getD {} = c := by
  rw [((lookup_eq_some_iff _ _ _).mp h).1]
  rfl

/-! ## §3. No flag on the inputs. -/

theorem CCoins.isAvailable_without (c : CCoins) (n : Nat) : (c.without n).isAvailable n = false := by
  rw [Bool.eq_false_iff]
  intro h
  unfold isAvailable at h
  split at h
  next o ho =>
      rw [Bool.and_eq_true, Bool.not_eq_true'] at h
      exact ((c.unspent_without n n).mp ⟨o, ho, h.1⟩).2 rfl
  next => cases h

theorem Restored.restoreInputClean {prevout : COutPoint} {undo undo' : CTxInUndo} (hwf : view.WF)
    (h : view.spendInput prevout = some (view', undo)) (hload : undo.reload = some undo')
    (hR : Restored E undone view') :
    restoreInputClean undo' prevout.n ((undone.coins prevout.hash).getD {}) = true := by
  obtain ⟨c, o, ⟨hc, -⟩, -, hcase⟩ := spendInput_cases hwf h
  unfold PwrbCore.restoreInputClean
  rcases hcase with ⟨-, hview, -, hloaded⟩ | ⟨hview, -, hloaded⟩ <;> cases hload.symm.trans hloaded
  · -- the entry was emptied: its place is free
    rw [if_pos (Int.ne_of_gt hc.height_pos)]
    exact isPruned_of_lookup_none (hR.lookup_none hview)
  · -- the entry is there, without this output
    obtain ⟨d, hd, hvout, -⟩ := hR.lookup_some hview
    have havail : d.isAvailable prevout.n = false := by
      have hsame : d.isAvailable prevout.n = (c.without prevout.n).isAvailable prevout.n := by
        unfold isAvailable
        rw [hvout]
      rw [hsame]
      exact c.isAvailable_without prevout.n
    simp_all [lookup_eq_some_iff]

/-- **Restoring the inputs of a transaction raises no flag.** -/
theorem Restored.restoreInputsChecked (hwf : view.WF)
    (h : CCoinsView.spendInputs vin view = some (view', txundo)) (hR : Restored E undone view') (fClean : Bool) :
    (restoreInputsChecked vin (reloadTxUndo txundo) (undone, fClean)).2 = fClean := by
  induction vin generalizing view txundo with
  | nil => rfl
  | cons txin vin ih =>
    obtain ⟨mid, undo, rest, hs, hrun, rfl⟩ := spendInputs_cons_eq_some h
    obtain ⟨undo', hload⟩ := reload_spendInput hwf hs
    have hmidwf : mid.WF := hwf.spendInput hs
    rw [reloadTxUndo_cons hload]
    unfold PwrbCore.restoreInputsChecked
    dsimp only
    rw [ih hmidwf hrun, restoreInputsChecked_fst]
    rw [(hR.spendInputs hmidwf hrun).restoreInputClean hwf hs hload, Bool.and_true]

theorem length_reloadTxUndo (hwf : view.WF) (h : spendInputs vin view = some (view', txundo)) :
    (reloadTxUndo txundo).length = vin.length := by
  induction vin generalizing view txundo with
  | nil =>
    cases h
    rfl
  | cons txin vin ih =>
    obtain ⟨mid, undo, rest, hs, hrun, rfl⟩ := spendInputs_cons_eq_some h
    grind [reload_spendInput, hwf.spendInput, reloadTxUndo]

/-! ## §4. No flag on the outputs. -/

theorem CCoins.clearUnspendable_fromTx (tx : CTransaction) (nHeight : Int) (c : CCoins)
    (hvout : c.vout = (fromTx tx nHeight).vout) : c.clearUnspendable.vout = c.vout := by
  have hmap : c.vout.map (fun o => if o.scriptPubKey.isUnspendable then .null else o) = c.vout := by
    conv_rhs => rw [← List.map_id c.vout]
    refine List.map_congr_left fun o ho => ?_
    rw [hvout] at ho
    have hmem := (List.rdropWhile_prefix _ _).subset ho
    grind
  show (c.vout.map _).rdropWhile CTxOut.isNull = c.vout
  rw [hmap, hvout]
  exact List.rdropWhile_idempotent _ _

theorem CCoins.isPruned_clearUnspendable (h : c.isPruned = true) : c.clearUnspendable.isPruned = true := by
  rw [isPruned_iff] at h ⊢
  intro o ho
  have hmem := (List.rdropWhile_prefix _ _).subset ho
  obtain ⟨x, hx, rfl⟩ := List.mem_map.mp hmem
  split_ifs
  · rfl
  · exact h x hx

/-- **The removed entry matches the block**, unless a coinstake's came back from a metadata record. -/
theorem Restored.outsMatch {tx : CTransaction}
    {nHeight : Int} (hR : Restored E undone (view.addOutputs tx nHeight)) (hnew : (fromTx tx nHeight).WF)
    (hstake : tx.isCoinStake = true → (fromTx tx nHeight).isPruned = false → ¬ E tx.hash) :
    outsMatch undone tx nHeight = true := by
  have hview : (view.addOutputs tx nHeight).lookup tx.hash
      = if (fromTx tx nHeight).isPruned then none else some (fromTx tx nHeight) :=
    lookup_modifyCoins_self _ _ (cleanup_of_tight hnew.no_trailing_null)
  unfold PwrbCore.outsMatch eqv
  rw [Bool.or_eq_true, Bool.and_eq_true, beq_iff_eq]
  cases hpruned : (fromTx tx nHeight).isPruned with
  | true =>
    -- nothing of it can be spent, so nothing is stored
    rw [hpruned] at hview
    exact .inl ⟨isPruned_clearUnspendable (isPruned_of_lookup_none (hR.lookup_none hview)), rfl⟩
  | false =>
    right
    rw [hpruned] at hview
    obtain ⟨d, hd, hvout, hcase⟩ := hR.lookup_some hview
    rw [getD_of_lookup_some hd]
    have hclear := clearUnspendable_fromTx tx nHeight d hvout
    rcases hcase with rfl | ⟨hE, rfl⟩
    · ext1
      · rfl
      · rfl
      · exact hclear
      · rfl
      · show (if tx.nVersion < 0 then tx.nVersion else tx.nVersion) = tx.nVersion
        rw [ite_self]
    · have hplain : tx.isCoinStake = false := by
        rw [Bool.eq_false_iff]
        exact fun hcs => hstake hcs hpruned hE
      ext1
      · rfl
      · exact hplain.symm
      · exact hclear.trans hvout
      · rfl
      · show (if tx.nVersion < 0 then tx.nVersion
          else if tx.nVersion < 0 then tx.nVersion % 128 else tx.nVersion) = tx.nVersion
        split_ifs <;> rfl

end PwrbCore
