/-
  Coins.BlockUndo — APPLYING AND UNDOING THE TRANSACTIONS OF A BLOCK on a coins view: the coin part of
  `ConnectBlock` (`UpdateCoins` behind the BIP30 test) and of `DisconnectBlock` (remove
  the outputs, put the inputs back from the undo data read from disk).
-/
import PwrbCore.Coins.View
import PwrbCore.Lib.UndoLog

namespace PwrbCore

open List CCoinsView CCoins CTxOut

/-! ## §1. The two directions. -/

variable {view' view : CCoinsView} {prevout : COutPoint} {undo : CTxInUndo} {tx : CTransaction} {nHeight : Int}
  {t : Uint256} {c : CCoins}

/-- BIP30: the entry of `txid` may be (over)written, being absent or fully spent. -/
def CCoinsView.overwritable (view : CCoinsView) (txid : Uint256) : Bool :=
  match view.accessCoins txid with
  | none => true
  | some coins => coins.isPruned

def connectTxCoins (nHeight : Int) (tx : CTransaction) (view : CCoinsView) : Option (CCoinsView × List CTxInUndo) :=
  if view.overwritable tx.hash then view.updateCoins tx nHeight else none

/-- The transactions of a block, with one `CTxUndo` each. -/
def connectCoins (nHeight : Int) : List CTransaction → CCoinsView →
    Option (CCoinsView × List (CTransaction × List CTxInUndo)) :=
  UndoLog.run (connectTxCoins nHeight)

/-- `ReadFromDisk` of the undo records `WriteToDisk` wrote for one transaction. -/
def reloadTxUndo (txundo : List CTxInUndo) : List CTxInUndo :=
  txundo.filterMap CTxInUndo.reload

/-- The restoring loop of `DisconnectBlock` over the inputs, last input first. -/
def restoreInputs : List CTxIn → List CTxInUndo → CCoinsView → CCoinsView
  | txin :: vin, undo :: vprevout, view =>
    (restoreInputs vin vprevout view).modifyCoins txin.prevout.hash
      (CCoins.restoreInput undo txin.prevout.n)
  | _, _, view => view

/-- One transaction of `DisconnectBlock` on coins: its outputs are removed, then its inputs put back. -/
def disconnectTxCoins (tx : CTransaction) (txundo : List CTxInUndo) (view : CCoinsView) : CCoinsView :=
  let view := view.modifyCoins tx.hash fun _ => {}
  if CCoinsView.spendsCoins tx then restoreInputs tx.vin (reloadTxUndo txundo) view else view

def disconnectCoins : List (CTransaction × List CTxInUndo) → CCoinsView → CCoinsView :=
  UndoLog.rollback disconnectTxCoins

/-! ## §2. The relation between the undone view and the original one. -/

def CCoinsView.WF (view : CCoinsView) : Prop := ∀ t c, view.lookup t = some c → c.WF

/-- `undone` is `view`, but the entries in `E` lost what an undo record does not bring back. -/
def Restored (E : Uint256 → Prop) (undone view : CCoinsView) : Prop :=
  ∀ t, (¬ E t → undone.lookup t = view.lookup t) ∧ (E t → undone.lookup t = (view.lookup t).map CCoins.scrub)

variable {undone : CCoinsView}
  {vin : List CTxIn} {txundo : List CTxInUndo} {vtx : List CTransaction}

variable {E : Uint256 → Prop} {log : List (CTransaction × List CTxInUndo)}

theorem Restored.congr {E' : Uint256 → Prop}
    (hR : Restored E undone view) (h : ∀ t, E t ↔ E' t) : Restored E' undone view := by
  intro t
  rw [← h t]
  exact hR t

/-- The record of one input carries metadata: it was the last unspent output of transaction `t`. -/
def ExhaustedBy (vin : List CTxIn) (txundo : List CTxInUndo) (t : Uint256) : Prop :=
  ∃ p ∈ vin.zip txundo, p.1.prevout.hash = t ∧ p.2.nHeight ≠ 0

/-- Some transaction of the log exhausted `t`. -/
def Exhausted (log : List (CTransaction × List CTxInUndo)) (t : Uint256) : Prop :=
  ∃ p ∈ log, ExhaustedBy p.1.vin p.2 t

/-! ## §3. Undoing one input, one creation, one transaction. -/

namespace CCoins

theorem WF.scrub (h : c.WF) : c.scrub.WF :=
  ⟨h.null_canonical, h.no_trailing_null, h.height_pos, h.height_lt⟩

theorem WF.without (h : c.WF) (n : Nat) : (c.without n).WF := by
  refine ⟨?_, ?_, h.height_pos, h.height_lt⟩
  · intro o ho hnull
    have hmem : o ∈ c.vout.set n null := ( rdropWhile_prefix _ _).subset ho
    rcases mem_or_eq_of_mem_set hmem with hin | rfl
    · exact h.null_canonical o hin hnull
    · rfl
  · exact rdropWhile_idempotent _ _

/-- An entry made from a transaction with valid amounts has the stored shape. -/
theorem WF.fromTx (hpos : 0 < nHeight)
    (hlt : nHeight < 2 ^ 30) (hvalue : ∀ o ∈ tx.vout, 0 ≤ o.nValue) : (fromTx tx nHeight).WF := by
  refine ⟨?_, ?_, hpos, hlt⟩
  · intro o ho hnull
    have hmem := ( rdropWhile_prefix _ _).subset ho
    obtain ⟨x, hx, rfl⟩ := mem_map.mp hmem
    -- a kept output is non-negative, hence not null: this one was cleared
    split_ifs at hnull ⊢ with hclear
    · rfl
    · rw [isNull_eq_false_of_nonneg (hvalue x hx)] at hnull
      cases hnull
  · exact rdropWhile_idempotent _ _

theorem not_isPruned_of_getElem? {n : Nat} {o : CTxOut} (hget : c.vout[n]? = some o)
    (ho : o.isNull = false) : c.isPruned = false := by
  rw [Bool.eq_false_iff]
  intro h
  have := (isPruned_iff c).mp h o (mem_of_getElem? hget)
  rw [ho] at this
  cases this

end CCoins

namespace CCoinsView

/-- **Inversion of `spendInput`.** -/
theorem spendInput_eq_some
    (h : view.spendInput prevout = some (view', undo)) :
    ∃ c o, view.lookup prevout.hash = some c ∧ c.vout[prevout.n]? = some o ∧ o.isNull = false ∧
      view' = view.modifyCoins prevout.hash (fun _ => c.without prevout.n) ∧
      undo = if (c.without prevout.n).vout = [] then
          { txout := o, fCoinBase := c.fCoinBase, fCoinStake := c.fCoinStake,
            nHeight := c.nHeight, nVersion := c.nVersion }
        else { txout := o } := by
  unfold spendInput at h
  split at h
  next => cases h
  next coins undo' hspend =>
      cases h
      obtain ⟨o, hget, ho, rfl, hundo⟩ := (spend_eq_some_iff _ _ _ _).mp hspend
      cases hc : view.coins prevout.hash with
      | none => simp [hc] at hget
      | some c =>
        rw [hc] at hget hundo
        refine ⟨c, o, ?_, hget, ho, rfl, hundo⟩
        exact (lookup_eq_some_iff _ _ _).mpr ⟨hc, not_isPruned_of_getElem? hget ho⟩

theorem lookup_modifyCoins_self (view : CCoinsView) (t : Uint256) (hc : c.cleanup = c) :
    (view.modifyCoins t fun _ => c).lookup t = if c.isPruned then none else some c := by
  unfold lookup
  rw [modifyCoins_coins_self, hc]
  cases hp : c.isPruned <;> simp [hp]

theorem lookup_modifyCoins_of_ne (view : CCoinsView) {t' : Uint256} (f : CCoins → CCoins)
    (h : t' ≠ t) : (view.modifyCoins t f).lookup t' = view.lookup t' := by
  unfold lookup
  rw [modifyCoins_coins_of_ne view f h]

/-- A free place of the view holds nothing unspent, in the map as well. -/
theorem isPruned_of_lookup_none (h : view.lookup t = none) : ((view.coins t).getD {}).isPruned = true := by
  rw [lookup_eq_none_iff] at h
  cases hc : view.coins t with
  | none => rfl
  | some c => exact h c hc

theorem overwritable_iff (view : CCoinsView) (txid : Uint256) :
    view.overwritable txid = true ↔ view.lookup txid = none := by
  rw [lookup_eq_none_iff]
  unfold overwritable accessCoins
  cases view.coins txid <;> simp

end CCoinsView

/-- **What one spend leaves behind**, and what is read back of its record: the entry is emptied and the record has its
metadata, or outputs are left. -/
theorem CCoinsView.spendInput_cases (hwf : view.WF) (h : view.spendInput prevout = some (view', undo)) :
    ∃ c o, (c.WF ∧ view.lookup prevout.hash = some c ∧ c.vout[prevout.n]? = some o ∧ o.isNull = false) ∧
      (∀ t ≠ prevout.hash, view'.lookup t = view.lookup t) ∧
      ((c.without prevout.n).vout = [] ∧ view'.lookup prevout.hash = none ∧ undo.nHeight ≠ 0 ∧
          undo.reload = some { txout := o, fCoinBase := c.fCoinBase, fCoinStake := c.fCoinStake, nHeight := c.nHeight,
                               nVersion := if c.nVersion < 0 then c.nVersion % 128 else c.nVersion } ∨
        view'.lookup prevout.hash = some (c.without prevout.n) ∧ undo.nHeight = 0 ∧
            undo.reload = some { txout := o }) := by
  obtain ⟨c, o, hlook, hget, ho, rfl, hundo⟩ := spendInput_eq_some h
  have hc : c.WF := hwf _ _ hlook
  have hview := lookup_modifyCoins_self view prevout.hash
    (cleanup_of_tight (hc.without prevout.n).no_trailing_null)
  have hpruned : (c.without prevout.n).isPruned = true ↔ (c.without prevout.n).vout = [] := isPruned_cleanup _
  refine ⟨c, o, ⟨hc, hlook, hget, ho⟩, fun t ht => lookup_modifyCoins_of_ne _ _ ht, ?_⟩
  by_cases hempty : (c.without prevout.n).vout = []
  · rw [if_pos hempty] at hundo
    rw [if_pos (hpruned.mpr hempty)] at hview
    subst hundo
    exact .inl ⟨hempty, hview, Int.ne_of_gt hc.height_pos, CTxInUndo.reload_meta _ hc.height_pos hc.height_lt⟩
  · rw [if_neg hempty] at hundo
    rw [if_neg (mt hpruned.mp hempty)] at hview
    subst hundo
    exact .inr ⟨hview, rfl, CTxInUndo.reload_plain o⟩

theorem CCoinsView.WF.spendInput (hwf : view.WF) (h : view.spendInput prevout = some (view', undo)) : view'.WF := by
  obtain ⟨c, o, ⟨hc, -⟩, hother, hcase⟩ := spendInput_cases hwf h
  intro t c' hc'
  by_cases ht : t = prevout.hash
  · grind [hc.without prevout.n]
  · rw [hother t ht] at hc'
    exact hwf _ _ hc'

/-- **Undoing one input.** The record brings the entry back unchanged or, when the spend emptied it, scrubbed. -/
theorem Restored.spendInput {undo' : CTxInUndo} (hwf : view.WF)
    (h : view.spendInput prevout = some (view', undo)) (hload : undo.reload = some undo')
    (hR : Restored E undone view') : Restored (fun t => E t ∨ (t = prevout.hash ∧ undo.nHeight ≠ 0))
      (undone.modifyCoins prevout.hash (restoreInput undo' prevout.n)) view := by
  obtain ⟨c, o, ⟨hc, hlook, hget, ho⟩, hother, hcase⟩ := spendInput_cases hwf h
  intro t
  by_cases ht : t = prevout.hash
  swap
  · -- another transaction: neither view changed there
    rw [lookup_modifyCoins_of_ne _ _ ht, ← hother t ht]
    simpa [ht] using hR t
  subst ht
  rw [hlook]
  rcases hcase with ⟨hempty, -, hne, hloaded⟩ | ⟨hview, hzero, hloaded⟩ <;> cases hload.symm.trans hloaded
  · refine ⟨fun hE => absurd (.inr ⟨rfl, hne⟩) hE, fun _ => ?_⟩
    rw [Option.map_some, lookup_eq_some_iff, modifyCoins_coins_self, restoreInput_scrub hc hget ho hempty,
      cleanup_of_tight hc.scrub.no_trailing_null]
    exact ⟨rfl, not_isPruned_of_getElem? hget ho⟩
  · have hRt := hR prevout.hash
    rw [hview] at hRt
    -- restoring the same output into the kept entry, scrubbed or not
    have hback : ∀ d : CCoins, d.WF → d.vout = c.vout → undone.lookup prevout.hash = some (d.without prevout.n) →
        (undone.modifyCoins prevout.hash (restoreInput { txout := o } prevout.n)).lookup prevout.hash = some d := by
      intro d hd hvout hin
      rw [← hvout] at hget
      rw [lookup_eq_some_iff] at hin
      rw [lookup_eq_some_iff, modifyCoins_coins_self, hin.1, Option.getD_some, restoreInput_without hd hget ho,
        cleanup_of_tight hd.no_trailing_null]
      exact ⟨rfl, not_isPruned_of_getElem? hget ho⟩
    refine ⟨fun hE => ?_, ?_⟩
    · exact hback c hc rfl (hRt.1 fun h => hE (.inl h))
    · rintro (hE | hE)
      · exact hback c.scrub hc.scrub rfl (hRt.2 hE)
      · exact absurd hzero hE.2

/-- **Undoing a creation.**  The removed entry was free before the transaction. -/
theorem Restored.addOutputs (hfree : view.lookup tx.hash = none) (hR : Restored E undone (view.addOutputs tx nHeight)) :
    Restored E (undone.modifyCoins tx.hash fun _ => {}) view := by
  intro t
  by_cases ht : t = tx.hash
  · subst ht
    have hgone : (undone.modifyCoins tx.hash fun _ => {}).lookup tx.hash = none := by
      rw [lookup_modifyCoins_self _ _ rfl]
      rfl
    rw [hgone, hfree]
    exact ⟨fun _ => rfl, fun _ => rfl⟩
  · rw [lookup_modifyCoins_of_ne _ _ ht]
    have hview : (view.addOutputs tx nHeight).lookup t = view.lookup t :=
      lookup_modifyCoins_of_ne _ _ ht
    have hRt := hR t
    rw [hview] at hRt
    exact hRt

theorem CCoinsView.spendInputs_cons_eq_some {txin : CTxIn} (h : spendInputs (txin :: vin) view = some (view', txundo)) :
    ∃ mid undo rest, view.spendInput txin.prevout = some (mid, undo) ∧
      spendInputs vin mid = some (view', rest) ∧ txundo = undo :: rest := by
  unfold spendInputs at h
  split at h
  next => cases h
  next mid undo hs =>
      rw [Option.map_eq_some_iff] at h
      obtain ⟨⟨v, rest⟩, hrun, heq⟩ := h
      cases heq
      exact ⟨mid, undo, rest, hs, hrun, rfl⟩

theorem CCoinsView.WF.spendInputs (hwf : view.WF) (h : spendInputs vin view = some (view', txundo)) : view'.WF := by
  induction vin generalizing view txundo with
  | nil =>
    cases h
    exact hwf
  | cons txin vin ih => grind [spendInputs_cons_eq_some, hwf.spendInput]

theorem CCoinsView.reload_spendInput (hwf : view.WF) (h : view.spendInput prevout = some (view', undo)) :
    ∃ undo', undo.reload = some undo' := by
  obtain ⟨c, o, -, -, ⟨-, -, -, hload⟩ | ⟨-, -, hload⟩⟩ := spendInput_cases hwf h
  · exact ⟨_, hload⟩
  · exact ⟨_, hload⟩

theorem reloadTxUndo_cons {undo' : CTxInUndo} (h : undo.reload = some undo') :
    reloadTxUndo (undo :: txundo) = undo' :: reloadTxUndo txundo := filterMap_cons_some h

/-- **Undoing all inputs of a transaction**, last one first. -/
theorem Restored.spendInputs (hwf : view.WF)
    (h : spendInputs vin view = some (view', txundo)) (hR : Restored E undone view') :
    Restored (fun t => E t ∨ ExhaustedBy vin txundo t) (restoreInputs vin (reloadTxUndo txundo) undone) view := by
  induction vin generalizing view txundo with
  | nil =>
    cases h
    exact hR.congr fun t => by simp [ExhaustedBy]
  | cons txin vin ih =>
    obtain ⟨mid, undo, rest, hs, hrun, rfl⟩ := spendInputs_cons_eq_some h
    obtain ⟨undo', hload⟩ := reload_spendInput hwf hs
    have hrest := ih (hwf.spendInput hs) hrun
    have hstep := Restored.spendInput hwf hs hload hrest
    rw [reloadTxUndo_cons hload]
    show Restored _ ((restoreInputs vin (reloadTxUndo rest) undone).modifyCoins _ _) view
    -- the record of this input adds its transaction to the exhausted ones
    have hset : ∀ t, (E t ∨ ExhaustedBy (txin :: vin) (undo :: rest) t)
        ↔ ((E t ∨ ExhaustedBy vin rest t) ∨ (t = txin.prevout.hash ∧ undo.nHeight ≠ 0)) := by
      intro t
      simp only [ExhaustedBy, zip_cons_cons, mem_cons, exists_eq_or_imp]
      rw [or_assoc, eq_comm (a := t)]
      exact or_congr_right or_comm
    exact hstep.congr fun t => (hset t).symm

/-- Spending never touches a free entry. -/
theorem CCoinsView.lookup_spendInputs_of_none (ht : view.lookup t = none)
    (h : spendInputs vin view = some (view', txundo)) : view'.lookup t = none := by
  induction vin generalizing view txundo with
  | nil =>
    cases h
    exact ht
  | cons txin vin ih =>
    obtain ⟨mid, undo, rest, hs, hrun, rfl⟩ := spendInputs_cons_eq_some h
    obtain ⟨c, o, hlook, -, -, rfl, -⟩ := spendInput_eq_some hs
    have hne : t ≠ txin.prevout.hash := by
      rintro rfl
      rw [ht] at hlook
      cases hlook
    exact ih (by rw [lookup_modifyCoins_of_ne _ _ hne]; exact ht) hrun

/-- **Inversion of one connected transaction.** -/
theorem connectTxCoins_eq_some (h : connectTxCoins nHeight tx view = some (view', txundo)) :
    view.lookup tx.hash = none ∧ ∃ mid, view' = mid.addOutputs tx nHeight ∧ mid.lookup tx.hash = none ∧
        ((spendsCoins tx = true ∧ spendInputs tx.vin view = some (mid, txundo)) ∨
          (spendsCoins tx = false ∧ mid = view ∧ txundo = [])) := by
  unfold connectTxCoins at h
  split_ifs at h with hfree
  rw [overwritable_iff] at hfree
  refine ⟨hfree, ?_⟩
  unfold updateCoins at h
  split_ifs at h with hspends
  · grind [Option.map_eq_some_iff, lookup_spendInputs_of_none]
  · cases h
    exact ⟨view, rfl, hfree, .inr ⟨by simpa using hspends, rfl, rfl⟩⟩

theorem CCoinsView.WF.connectTxCoins (hpos : 0 < nHeight) (hlt : nHeight < 2 ^ 30)
    (hvalue : ∀ o ∈ tx.vout, 0 ≤ o.nValue) (hwf : view.WF)
    (h : connectTxCoins nHeight tx view = some (view', txundo)) : view'.WF := by
  obtain ⟨-, mid, rfl, -, hmid⟩ := connectTxCoins_eq_some h
  have hmidwf : mid.WF := by grind [hwf.spendInputs]
  have hnew : (fromTx tx nHeight).WF := .fromTx hpos hlt hvalue
  intro t c hc
  by_cases ht : t = tx.hash
  · simp_all [addOutputs, lookup_modifyCoins_self, cleanup_of_tight, hnew.no_trailing_null]
  · unfold addOutputs at hc
    rw [lookup_modifyCoins_of_ne _ _ ht] at hc
    exact hmidwf _ _ hc

/-- **Undoing one transaction.** -/
theorem Restored.connectTxCoins (hwf : view.WF)
    (h : connectTxCoins nHeight tx view = some (view', txundo)) (hR : Restored E undone view') :
    Restored (fun t => E t ∨ ExhaustedBy tx.vin txundo t) (disconnectTxCoins tx txundo undone) view := by
  obtain ⟨hfree, mid, rfl, hmidfree, hmid⟩ := connectTxCoins_eq_some h
  have hcleared := hR.addOutputs hmidfree
  unfold disconnectTxCoins
  rcases hmid with ⟨hspends, hrun⟩ | ⟨hspends, rfl, rfl⟩
  · rw [if_pos hspends]
    exact hcleared.spendInputs hwf hrun
  · rw [if_neg (by simp [hspends])]
    exact hcleared.congr fun t => by simp [ExhaustedBy]

/-! ## §4. The whole block. -/

section

variable (hpos : 0 < nHeight) (hlt : nHeight < 2 ^ 30) (hvalue : ∀ tx ∈ vtx, ∀ o ∈ tx.vout, 0 ≤ o.nValue)
  (hwf : view.WF) (h : connectCoins nHeight vtx view = some (view', log))

include hpos hlt hvalue hwf h

/-- Connecting the transactions of a block keeps the view well formed. -/
theorem CCoinsView.WF.connectCoins : view'.WF :=
  UndoLog.run_invariant (fun _ _ _ _ hok hs hstep => hs.connectTxCoins hpos hlt hok hstep)
    hvalue hwf h

end

/-! ## §5. Which entries a block exhausts. -/

def CCoins.Unspent (c : CCoins) (n : Nat) : Prop :=
  ∃ o, c.vout[n]? = some o ∧ o.isNull = false

def CCoins.unspentAt (c : CCoins) (n : Nat) : Option CTxOut := (c.vout[n]?).filter fun o => !o.isNull

namespace CCoins

theorem unspentAt_eq_some {n : Nat} {o : CTxOut} : c.unspentAt n = some o ↔ c.vout[n]? = some o ∧ o.isNull = false := by
  unfold unspentAt
  rw [Option.filter_eq_some_iff]
  simp

theorem unspentAt_cleanup (c : CCoins) (n : Nat) : c.cleanup.unspentAt n = c.unspentAt n := by
  have hsplit : c.cleanup.vout ++ c.vout.rtakeWhile CTxOut.isNull = c.vout :=
    rdropWhile_append_rtakeWhile
  unfold unspentAt
  by_cases hn : n < c.cleanup.vout.length
  · rw [← getElem?_append_left hn, hsplit]
  -- past the end, what was dropped is null
  have hle : c.cleanup.vout.length ≤ n := Nat.le_of_not_lt hn
  rw [getElem?_eq_none hle]
  cases ho : c.vout[n]? with
  | none => rfl
  | some o =>
    rw [← hsplit, getElem?_append_right hle] at ho
    have hnull : o.isNull = true := mem_rtakeWhile_imp (mem_of_getElem? ho)
    rw [Option.filter_some, hnull]
    rfl

theorem unspentAt_without (c : CCoins) (m n : Nat) :
    (c.without m).unspentAt n = if n = m then none else c.unspentAt n := by
  unfold without
  rw [unspentAt_cleanup]
  unfold unspentAt
  split_ifs with h
  · subst h
    show ((c.vout.set n .null)[n]?).filter _ = none
    rw [getElem?_set_self']
    cases c.vout[n]? <;> rfl
  · show ((c.vout.set m .null)[n]?).filter _ = _
    rw [getElem?_set_ne (fun e => h e.symm)]

theorem exists_unspent (hlive : c.isPruned = false) : ∃ n, c.Unspent n := by
  by_contra hnone
  apply Bool.eq_false_iff.mp hlive
  rw [isPruned_iff]
  intro o ho
  obtain ⟨n, hn⟩ := getElem?_of_mem ho
  by_contra hnull
  exact hnone ⟨n, o, hn, by simpa using hnull⟩

theorem unspent_without (c : CCoins) (m n : Nat) : (c.without m).Unspent n ↔ c.Unspent n ∧ n ≠ m := by
  have hiff : ∀ c : CCoins, c.Unspent n ↔ ∃ o, c.unspentAt n = some o :=
    fun c => exists_congr fun o => unspentAt_eq_some.symm
  rw [hiff, hiff, unspentAt_without]
  split_ifs with h <;> simp [h]

end CCoins

/-- The outpoints a list of transactions takes from the view. -/
def spentOutPoints (vtx : List CTransaction) : List COutPoint :=
  (vtx.filter CCoinsView.spendsCoins).flatMap CTransaction.prevouts

/-- **Tracking one entry through the inputs of a transaction.** A record says that it was exhausted, and then every
unspent output of it was among the inputs; or it is still there, without exactly those outputs. -/
theorem spendInputs_exhaustedBy (hwf : view.WF) (hc : view.lookup t = some c)
    (h : spendInputs vin view = some (view', txundo)) :
    (ExhaustedBy vin txundo t ∧ ∀ n, c.Unspent n → ⟨t, n⟩ ∈ vin.map CTxIn.prevout) ∨
      (¬ ExhaustedBy vin txundo t ∧ ∃ c', view'.lookup t = some c' ∧
        ∀ n, c'.Unspent n ↔ c.Unspent n ∧ ⟨t, n⟩ ∉ vin.map CTxIn.prevout) := by
  induction vin generalizing view txundo c with
  | nil =>
    cases h
    exact .inr ⟨by simp [ExhaustedBy], c, hc, by simp⟩
  | cons txin vin ih =>
    obtain ⟨mid, undo, rest, hs, hrun, rfl⟩ := spendInputs_cons_eq_some h
    obtain ⟨d, o, ⟨-, hlook, -⟩, hother, hcase⟩ := spendInput_cases hwf hs
    have hexh : ExhaustedBy (txin :: vin) (undo :: rest) t
        ↔ (txin.prevout.hash = t ∧ undo.nHeight ≠ 0) ∨ ExhaustedBy vin rest t := by
      simp only [ExhaustedBy, zip_cons_cons, mem_cons, exists_eq_or_imp]
    by_cases ht : txin.prevout.hash = t
    · subst ht
      cases hc.symm.trans hlook
      have houtpoint : ∀ n, (⟨txin.prevout.hash, n⟩ : COutPoint) = txin.prevout ↔ n = txin.prevout.n :=
        fun n => ⟨fun e => congrArg COutPoint.n e, fun e => by rw [e]⟩
      rcases hcase with ⟨hempty, -, hne, -⟩ | ⟨hmidlook, hzero, -⟩
      · -- this spend exhausts the entry
        left
        refine ⟨hexh.mpr (.inl ⟨rfl, hne⟩), fun n hn => ?_⟩
        by_cases hn' : n = txin.prevout.n
        · rw [map_cons, mem_cons]
          exact .inl ((houtpoint n).mpr hn')
        · obtain ⟨x, hx, -⟩ := (c.unspent_without txin.prevout.n n).mpr ⟨hn, hn'⟩
          rw [hempty] at hx
          cases hx
      · -- the entry survives without this output
        rcases ih (hwf.spendInput hs) hmidlook hrun with ⟨hE, hcov⟩ | ⟨hE, c', hc', hkeep⟩
        · left
          refine ⟨hexh.mpr (.inr hE), fun n hn => ?_⟩
          rw [map_cons, mem_cons, houtpoint]
          by_cases hn' : n = txin.prevout.n
          · exact .inl hn'
          · exact .inr (hcov n ((c.unspent_without _ _).mpr ⟨hn, hn'⟩))
        simp [c.unspent_without, and_assoc, hc', hexh, hzero, hE, hkeep, houtpoint]
    · -- the input belongs to another transaction
      have hmidlook := (hother t fun heq => ht heq.symm).trans hc
      grind [hwf.spendInput hs]

/-- **Exhaustion read off the block.** A live entry is exhausted exactly when the block's inputs name every unspent
output of it. -/
theorem exhausted_iff
    (hpos : 0 < nHeight) (hlt : nHeight < 2 ^ 30) (hvalue : ∀ tx ∈ vtx, ∀ o ∈ tx.vout, 0 ≤ o.nValue) (hwf : view.WF)
    (hc : view.lookup t = some c) (h : connectCoins nHeight vtx view = some (view', log)) :
    Exhausted log t ↔ ∀ n, c.Unspent n → ⟨t, n⟩ ∈ spentOutPoints vtx := by
  induction vtx generalizing view log c with
  | nil =>
    cases h
    -- nothing was spent, and a live entry has an unspent output
    have hlive := ((lookup_eq_some_iff _ _ _).mp hc).2
    obtain ⟨n, hn⟩ := exists_unspent hlive
    refine iff_of_false (by simp [Exhausted]) fun hall => ?_
    have := hall n hn
    simp [spentOutPoints] at this
  | cons tx vtx ih =>
    obtain ⟨mid, txundo, log', htx, hrun, rfl⟩ := UndoLog.run_cons_eq_some h
    have hmidwf : mid.WF := hwf.connectTxCoins hpos hlt (hvalue tx (by simp)) htx
    have hexh : Exhausted ((tx, txundo) :: log') t
        ↔ ExhaustedBy tx.vin txundo t ∨ Exhausted log' t := by
      simp only [Exhausted, mem_cons, exists_eq_or_imp]
    obtain ⟨hfree, before, rfl, -, hspend⟩ := connectTxCoins_eq_some htx
    have hne : t ≠ tx.hash := by
      rintro rfl
      rw [hfree] at hc
      cases hc
    have hadd : (before.addOutputs tx nHeight).lookup t = before.lookup t :=
      lookup_modifyCoins_of_ne _ _ hne
    have hrest : ∀ tx' ∈ vtx, ∀ o ∈ tx'.vout, 0 ≤ o.nValue :=
      fun tx' htx' => hvalue tx' (by simp [htx'])
    rcases hspend with ⟨hspends, hin⟩ | ⟨hspends, rfl, rfl⟩
    · have hout : ∀ p, p ∈ spentOutPoints (tx :: vtx)
          ↔ p ∈ tx.vin.map CTxIn.prevout ∨ p ∈ spentOutPoints vtx := by
        intro p
        simp [spentOutPoints, hspends, CTransaction.prevouts]
      rcases spendInputs_exhaustedBy hwf hc hin with ⟨hE, hcov⟩ | ⟨hE, c', hc', hkeep⟩
      · exact iff_of_true (hexh.mpr (.inl hE)) fun n hn => (hout _).mpr (.inl (hcov n hn))
      rw [hexh, ih hrest hmidwf (by rw [hadd]; exact hc') hrun]
      constructor
      · grind
      · grind
    · have hout : spentOutPoints (tx :: vtx) = spentOutPoints vtx := by
        simp [spentOutPoints, hspends]
      rw [hexh, hout, ih hrest hmidwf (by rw [hadd]; exact hc) hrun]
      simp [ExhaustedBy]

end PwrbCore
