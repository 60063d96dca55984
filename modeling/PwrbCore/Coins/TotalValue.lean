/-
  Coins.TotalValue — THE VALUE HELD BY A COINS VIEW: the sum of all outputs that are present and unspent.

  Txids are 256-bit words, so the sum over all of them is finite; entries that are absent
  or fully spent add nothing.

  Main results: `totalValue_modifyCoins`, `connectTxCoins_totalValue`.
-/
import Mathlib.Data.Fintype.BigOperators
import Mathlib.Data.FinEnum
import PwrbCore.Coins.Unspent

namespace PwrbCore

open List CCoins CTxOut CCoinsView

/-! ## §1. The value of an entry. -/

variable {vout : List CTxOut} {c : CCoins} {n : Nat} {o : CTxOut} {tx : CTransaction} {view view' : CCoinsView}
  {t : Uint256} {undo : CTxInUndo} {undos : List CTxInUndo}

def CTxOut.unspentValue (o : CTxOut) : Int := if o.isNull then 0 else o.nValue

namespace CCoins

def value (c : CCoins) : Int := (c.vout.map CTxOut.unspentValue).sum

theorem sum_unspentValue_of_isNull (h : ∀ o ∈ vout, o.isNull = true) : (vout.map unspentValue).sum = 0 :=
  sum_eq_zero (forall_mem_map.mpr fun o ho => if_pos (h o ho))

theorem value_of_isPruned (h : c.isPruned = true) : c.value = 0 :=
  sum_unspentValue_of_isNull ((isPruned_iff c).mp h)

theorem value_cleanup (c : CCoins) : c.cleanup.value = c.value := by
  have hsplit : c.vout.rdropWhile isNull ++ c.vout.rtakeWhile isNull = c.vout :=
    rdropWhile_append_rtakeWhile
  have hnull : ((c.vout.rtakeWhile isNull).map unspentValue).sum = 0 :=
    sum_unspentValue_of_isNull fun o ho => mem_rtakeWhile_imp ho
  unfold value
  conv_rhs => rw [← hsplit, map_append, sum_append, hnull, Int.add_zero]
  rfl

theorem sum_unspentValue_set (hget : vout[n]? = some o)
    (ho : o.isNull = false) : ((vout.set n null).map unspentValue).sum = (vout.map unspentValue).sum - o.nValue := by
  obtain ⟨hn, hget⟩ := List.getElem?_eq_some_iff.mp hget
  have hval : o.unspentValue = o.nValue := if_neg (by rw [ho]; decide)
  rw [map_set, sum_set', dif_pos (by rwa [length_map]), getElem_map, hget, hval, show null.unspentValue = 0 from rfl]
  omega

theorem value_without (hget : c.vout[n]? = some o)
    (ho : o.isNull = false) : (c.without n).value = c.value - o.nValue := by
  unfold without
  rw [value_cleanup]
  exact sum_unspentValue_set hget ho

end CCoins

/-- What a transaction's outputs are worth to the view: the unspendable ones nothing. -/
def CTransaction.spendableOut (tx : CTransaction) : Int :=
  ((tx.vout.filter fun o => !o.scriptPubKey.isUnspendable).map CTxOut.nValue).sum

theorem CCoins.value_fromTx (nHeight : Int) (hnonneg : ∀ o ∈ tx.vout, 0 ≤ o.nValue) :
    (fromTx tx nHeight).value = tx.spendableOut := by
  unfold fromTx clearUnspendable
  rw [value_cleanup]
  unfold value CTransaction.spendableOut
  generalize tx.vout = vout at hnonneg
  induction vout with
  | nil => rfl
  | cons o vout ih =>
    have hrest := ih fun o' ho' => hnonneg o' (mem_cons_of_mem o ho')
    rw [map_cons, map_cons, sum_cons, filter_cons, hrest]
    cases hu : o.scriptPubKey.isUnspendable with
    | true =>
      exact Int.zero_add _
    | false =>
      have ho : o.isNull = false :=
        isNull_eq_false_of_nonneg (hnonneg o mem_cons_self)
      simp [unspentValue, ho]

/-! ## §2. The value of a view. -/

namespace CCoinsView

def entryValue (view : CCoinsView) (t : Uint256) : Int := ((view.coins t).map CCoins.value).getD 0

@[irreducible] noncomputable def totalValue (view : CCoinsView) : Int := Finset.univ.sum view.entryValue

variable {p : COutPoint}

theorem entryValue_of_lookup_none (h : view.lookup t = none) : view.entryValue t = 0 := by
  rw [lookup_eq_none_iff] at h
  unfold entryValue
  cases hc : view.coins t with
  | none => rfl
  | some c => exact value_of_isPruned (h c hc)

theorem entryValue_of_lookup_some (h : view.lookup t = some c) : view.entryValue t = c.value := by
  unfold entryValue
  rw [((lookup_eq_some_iff _ _ _).mp h).1]
  rfl

@[simp] theorem totalValue_setBestBlock (view : CCoinsView) (hashBlock : Uint256) :
    (view.setBestBlock hashBlock).totalValue = view.totalValue := by
  unfold totalValue
  rfl

/-- **One edited entry** changes the total by the difference of its values. -/
theorem totalValue_modifyCoins (view : CCoinsView) (t : Uint256) (c : CCoins) :
    (view.modifyCoins t fun _ => c).totalValue = view.totalValue - view.entryValue t + c.value := by
  have hself : (view.modifyCoins t fun _ => c).entryValue t = c.value := by
    unfold entryValue
    rw [modifyCoins_coins_self]
    exact value_cleanup c
  have hother : ∀ t' ∈ Finset.univ.erase t,
      (view.modifyCoins t fun _ => c).entryValue t' = view.entryValue t' := by
    intro t' ht'
    unfold entryValue
    rw [modifyCoins_coins_of_ne _ _ (Finset.ne_of_mem_erase ht')]
  have hsplit : ∀ v : CCoinsView,
      v.totalValue = v.entryValue t + (Finset.univ.erase t).sum v.entryValue := by
    intro v
    unfold totalValue
    exact (Finset.add_sum_erase _ _ (Finset.mem_univ t)).symm
  rw [hsplit, hsplit view, Finset.sum_congr rfl hother]
  omega

/-! ## §3. Spending. -/

def HasOutput (view : CCoinsView) (p : COutPoint) (o : CTxOut) : Prop :=
  ∃ c, view.lookup p.hash = some c ∧ c.vout[p.n]? = some o ∧ o.isNull = false

theorem spendInput_totalValue (h : view.spendInput p = some (view', undo)) :
    view.HasOutput p undo.txout ∧ view'.totalValue = view.totalValue - undo.txout.nValue := by
  obtain ⟨c, o, hc, hget, ho, rfl, hundo⟩ := spendInput_eq_some h
  have htxout : undo.txout = o := by
    rw [hundo]
    split_ifs <;> rfl
  rw [htxout, totalValue_modifyCoins, entryValue_of_lookup_some hc, value_without hget ho]
  exact ⟨⟨c, hc, hget, ho⟩, by omega⟩

theorem hasOutput_iff : view.HasOutput p o ↔ view.unspent p = some o := by
  rw [unspent_eq_some]
  refine exists_congr fun c => and_congr_left fun hout => ?_
  rw [lookup_eq_some_iff]
  exact and_iff_left (not_isPruned_of_getElem? hout.1 hout.2)

theorem HasOutput.of_spendInput {q : COutPoint} (h : view.spendInput p = some (view', undo))
    (ho : view'.HasOutput q o) :
    view.HasOutput q o := by
  rw [hasOutput_iff, (unspent_spendInput h).2] at ho
  split_ifs at ho
  exact hasOutput_iff.mpr ho

/-- The spending loop: each record holds the output found in the view at the start; the total drops by their sum. -/
theorem spendInputs_totalValue {vin : List CTxIn} (h : spendInputs vin view = some (view', undos)) :
    List.Forall₂ (fun txin undo => view.HasOutput txin.prevout undo.txout) vin undos ∧
      view'.totalValue = view.totalValue - (undos.map fun u => u.txout.nValue).sum := by
  induction vin generalizing view undos with
  | nil =>
    cases h
    exact ⟨.nil, by simp⟩
  | cons txin vin ih =>
    obtain ⟨mid, undo, rest, hs, hrun, rfl⟩ := spendInputs_cons_eq_some h
    obtain ⟨hhead, hmid⟩ := spendInput_totalValue hs
    obtain ⟨htail, htotal⟩ := ih hrun
    refine ⟨.cons hhead (htail.imp fun _ _ ho => ho.of_spendInput hs), ?_⟩
    rw [htotal, map_cons, sum_cons]
    omega

theorem HasOutput.getOutputFor {o' : CTxOut}
    (h : view.HasOutput p o) (ho' : view.getOutputFor p = some o') : o' = o := by
  obtain ⟨c, hc, hget, -⟩ := h
  obtain ⟨d, hd, hget', -⟩ := (SameOutputs.getOutputFor_eq_some _ _ _).mp ho'
  rw [hc] at hd
  cases hd
  rw [hget] at hget'
  exact (Option.some.inj hget').symm

theorem spendInputs_getValueIn (hspends : spendsCoins tx = true) (hinputs : view.haveInputs tx = true)
    (h : spendInputs tx.vin view = some (view', undos)) : view'.totalValue = view.totalValue - view.getValueIn tx := by
  obtain ⟨houts, htotal⟩ := spendInputs_totalValue h
  have hfound := (haveInputs_iff hspends).mp hinputs
  have hsum : (undos.map fun u => u.txout.nValue).sum
      = (tx.vin.map fun i => ((view.getOutputFor i.prevout).map nValue).getD 0).sum := by
    generalize tx.vin = vin at houts hfound
    clear h htotal
    induction houts with
    | nil => rfl
    | @cons txin undo vin undos hhead _ ih =>
      grind [mem_cons_self, hhead.getOutputFor]
  have hkind : tx.isCoinBase = false ∧ tx.hasZerocoinSpendInputs = false := by
    unfold spendsCoins at hspends
    simpa using hspends
  rw [htotal, hsum]
  unfold getValueIn
  rw [hkind.1, hkind.2]
  rfl

end CCoinsView

/-- **One connected transaction**: the total loses what it spends and gains its spendable outputs. -/
theorem connectTxCoins_totalValue {nHeight : Int} {txundo : List CTxInUndo} (hnonneg : ∀ o ∈ tx.vout, 0 ≤ o.nValue)
    (hinputs : spendsCoins tx = true → view.haveInputs tx = true)
    (h : connectTxCoins nHeight tx view = some (view', txundo)) :
    view'.totalValue = view.totalValue + tx.spendableOut - if spendsCoins tx then view.getValueIn tx else 0 := by
  obtain ⟨-, mid, rfl, hfree, hkind⟩ := connectTxCoins_eq_some h
  unfold addOutputs
  rw [totalValue_modifyCoins, entryValue_of_lookup_none hfree, value_fromTx nHeight hnonneg]
  rcases hkind with ⟨hspends, hrun⟩ | ⟨hspends, rfl, -⟩
  · rw [if_pos hspends, spendInputs_getValueIn hspends (hinputs hspends) hrun]
    omega
  · rw [hspends, if_neg (by decide)]
    omega

end PwrbCore
