/-
  Coins.Unspent — THE COINS VIEW AS A LEDGER OF OUTPUTS.

  `unspent` forgets everything of a view but which outputs are there.  Through it,
  connecting a transaction is one step of a ledger (`connectTxCoins_ledger`), and
  disconnecting takes the step back whatever the metadata of the entries
  (`disconnectTxCoins_unspent`, `disconnectCoins_unspent`).
-/
import PwrbCore.Coins.SameOutputs
import PwrbCore.Lib.Ledger

namespace PwrbCore

open List CCoinsView CCoins

/-! ## §1. Unspent outputs. -/

variable {c : CCoins} {o : CTxOut} {view' view : CCoinsView} {prevout : COutPoint} {undo : CTxInUndo} {vin : List CTxIn}
  {txundo : List CTxInUndo} {vtx : List CTransaction} {log : List (CTransaction × List CTxInUndo)}

/-- The output an outpoint refers to, if it is unspent. -/
def CCoinsView.unspent (view : CCoinsView) (p : COutPoint) : Option CTxOut :=
  ((view.coins p.hash).getD {}).unspentAt p.n

/-- Output `n` of a transaction, if it is one that can be spent. -/
def CTransaction.coinAt (tx : CTransaction) (n : Nat) : Option CTxOut :=
  (tx.vout[n]?).filter fun o => !o.isNull && !o.scriptPubKey.isUnspendable

namespace CCoins

theorem unspentAt_of_isPruned (h : c.isPruned = true) (n : Nat) : c.unspentAt n = none := by
  cases ho : c.unspentAt n with
  | none => rfl
  | some o =>
    obtain ⟨hget, hnull⟩ := unspentAt_eq_some.mp ho
    rw [not_isPruned_of_getElem? hget hnull] at h
    cases h

theorem unspentAt_fromTx (tx : CTransaction) (nHeight : Int) (n : Nat) :
    (fromTx tx nHeight).unspentAt n = tx.coinAt n := by
  unfold fromTx clearUnspendable
  rw [unspentAt_cleanup]
  unfold unspentAt CTransaction.coinAt
  rw [getElem?_map]
  cases tx.vout[n]? with
  | none => rfl
  | some o =>
    rw [Option.map_some, Option.filter_some, Option.filter_some]
    cases o.scriptPubKey.isUnspendable <;> simp

/-- A restored output stands at its place; the others stay unless the record carried metadata. -/
theorem unspentAt_restoreInput (undo : CTxInUndo) (c : CCoins) (m n : Nat) (ho : undo.txout.isNull = false) :
    (restoreInput undo m c).unspentAt n =
      if n = m then some undo.txout else if undo.nHeight ≠ 0 then none else c.unspentAt n := by
  have hset : ∀ vout : List CTxOut,
      (((vout ++ replicate (m + 1 - vout.length) CTxOut.null).set m undo.txout)[n]?).filter
          (fun o => !o.isNull)
        = if n = m then some undo.txout else (vout[n]?).filter fun o => !o.isNull := by
    intro vout
    split_ifs with h
    · grind
    rw [getElem?_set_ne (fun e => h e.symm)]
    by_cases hn : n < vout.length
    · rw [getElem?_append_left hn]
    rw [getElem?_append_right (Nat.le_of_not_lt hn), getElem?_eq_none (Nat.le_of_not_lt hn)]
    cases hpad : (replicate (m + 1 - vout.length) CTxOut.null)[n - vout.length]? with
    | none => rfl
    | some o =>
      rw [eq_of_mem_replicate (mem_of_getElem? hpad)]
      rfl
  unfold restoreInput
  rw [unspentAt_cleanup]
  unfold unspentAt
  rw [hset]
  split_ifs <;> rfl

end CCoins

namespace CCoinsView

theorem unspent_modifyCoins (view : CCoinsView) (t : Uint256) (f : CCoins → CCoins) (p : COutPoint) :
    (view.modifyCoins t f).unspent p =
      if p.hash = t then (f ((view.coins t).getD {})).unspentAt p.n else view.unspent p := by
  unfold unspent
  split_ifs with h
  · rw [h, modifyCoins_coins_self, Option.getD_some, unspentAt_cleanup]
  · rw [modifyCoins_coins_of_ne view f h]

variable {p : COutPoint}

theorem unspent_of_lookup_none (h : view.lookup p.hash = none) : view.unspent p = none :=
  unspentAt_of_isPruned (isPruned_of_lookup_none h) p.n

theorem unspent_eq_some : view.unspent p = some o ↔
      ∃ c, view.coins p.hash = some c ∧ c.vout[p.n]? = some o ∧ o.isNull = false := by
  unfold unspent
  cases hc : view.coins p.hash with
  | none => simp [unspentAt]
  | some c => simp [unspentAt_eq_some]

theorem getOutputFor_eq_some_iff :
    view.getOutputFor p = some o ↔ view.unspent p = some o ∧ o.isZerocoinMint = false := by
  rw [unspent_eq_some]
  unfold getOutputFor accessCoins
  cases hc : view.coins p.hash with
  | none => simp
  | some c =>
    dsimp only
    constructor
    · intro hget
      split_ifs at hget with havail
      unfold isAvailable at havail
      simp_all
    · grind [isAvailable]

/-! ## §2. Spending, adding, restoring. -/

/-- **One input.** -/
theorem unspent_spendInput (h : view.spendInput prevout = some (view', undo)) : view.unspent prevout = some undo.txout ∧
      ∀ p, view'.unspent p = if p = prevout then none else view.unspent p := by
  obtain ⟨c, o, hlook, hget, ho, rfl, hundo⟩ := spendInput_eq_some h
  obtain ⟨hc, -⟩ := (lookup_eq_some_iff _ _ _).mp hlook
  have htxout : undo.txout = o := by
    rw [hundo]
    split_ifs <;> rfl
  refine ⟨?_, ?_⟩
  · rw [htxout]
    exact unspent_eq_some.mpr ⟨c, hc, hget, ho⟩
  intro p
  rw [unspent_modifyCoins]
  by_cases hhash : p.hash = prevout.hash
  · rw [if_pos hhash, unspentAt_without]
    by_cases hn : p.n = prevout.n
    · have hp : p = prevout := by
        cases p
        simp_all
      rw [if_pos hn, if_pos hp]
    · grind [unspent]
  · rw [if_neg hhash, if_neg (fun e => hhash (by rw [e]))]

/-- A record read back keeps its output, and has a height only if nothing was left. -/
theorem unspent_of_reload {undo' : CTxInUndo}
    (h : view.spendInput prevout = some (view', undo)) (hreload : undo.reload = some undo') :
    undo'.txout = undo.txout ∧ (undo'.nHeight ≠ 0 → ∀ n, view'.unspent ⟨prevout.hash, n⟩ = none) := by
  have htxout : ∀ (u u' : CTxInUndo) (txout : CTxOut) (s : List UInt8),
      CTxInUndo.readMeta txout s = some u' → u'.txout = txout := by
    grind [CTxInUndo.readMeta]
  refine ⟨htxout undo undo' undo.txout _ hreload, ?_⟩
  intro hheight n
  obtain ⟨c, o, -, -, -, rfl, hundo⟩ := spendInput_eq_some h
  split_ifs at hundo with hempty
  · -- the entry is empty
    rw [unspent_modifyCoins, if_pos rfl]
    unfold unspentAt
    rw [hempty]
    rfl
  · -- a record without metadata reads back without a height
    rw [hundo, CTxInUndo.reload_plain] at hreload
    cases hreload
    exact absurd rfl hheight

/-- **The inputs of a transaction.** -/
theorem unspent_spendInputs
    (h : spendInputs vin view = some (view', txundo)) : (∀ txin ∈ vin, ∃ o, view.unspent txin.prevout = some o) ∧
      ∀ p, view'.unspent p = if p ∈ vin.map CTxIn.prevout then none else view.unspent p := by
  induction vin generalizing view txundo with
  | nil =>
    cases h
    exact ⟨by simp, fun p => by simp⟩
  | cons txin vin ih =>
    obtain ⟨mid, undo, rest, hs, hrun, -⟩ := spendInputs_cons_eq_some h
    obtain ⟨hsome, hmid⟩ := unspent_spendInput hs
    obtain ⟨hins, hview⟩ := ih hrun
    refine ⟨?_, ?_⟩
    · simp_all
    · grind

theorem length_spendInputs (h : spendInputs vin view = some (view', txundo)) : txundo.length = vin.length := by
  induction vin generalizing view txundo with
  | nil =>
    cases h
    rfl
  | cons txin vin ih => grind [spendInputs_cons_eq_some]

theorem unspent_addOutputs (view : CCoinsView) (tx : CTransaction) (nHeight : Int) (p : COutPoint) :
    (view.addOutputs tx nHeight).unspent p = if p.hash = tx.hash then tx.coinAt p.n else view.unspent p := by
  unfold addOutputs
  rw [unspent_modifyCoins, unspentAt_fromTx]

end CCoinsView

/-! ## §3. A connected transaction is a step of the ledger. -/

def coinRules : Ledger.Rules CTransaction COutPoint CTxOut Uint256 where
  id := CTransaction.hash
  owner := COutPoint.hash
  ins := fun tx => if CCoinsView.spendsCoins tx then tx.prevouts else []
  out := fun tx p => tx.coinAt p.n

variable {tx : CTransaction} {nHeight : Int} {x : CCoinsView}

theorem coinRules_ins_of_spends (h : spendsCoins tx = true) : coinRules.ins tx = tx.prevouts := if_pos h

theorem coinRules_ins_of_not_spends (h : spendsCoins tx = false) :
    coinRules.ins tx = [] := if_neg (by rw [h]; decide)

/-- **Connecting refines the ledger.** -/
theorem connectTxCoins_ledger (h : connectTxCoins nHeight tx view = some (view', txundo)) :
    Ledger.Enabled coinRules view.unspent tx ∧ view'.unspent = Ledger.step coinRules tx view.unspent := by
  obtain ⟨hfree, mid, rfl, -, hmid⟩ := connectTxCoins_eq_some h
  have hnew : ∀ p : COutPoint, p.hash = tx.hash → view.unspent p = none := by
    intro p hp
    apply unspent_of_lookup_none
    rw [hp]
    exact hfree
  have hins : (∀ p ∈ coinRules.ins tx, ∃ o, view.unspent p = some o) ∧
      ∀ p, mid.unspent p = if p ∈ coinRules.ins tx then none else view.unspent p := by
    rcases hmid with ⟨hspends, hrun⟩ | ⟨hspends, rfl, -⟩
    · obtain ⟨hsome, hview⟩ := unspent_spendInputs hrun
      rw [coinRules_ins_of_spends hspends]
      refine ⟨?_, hview⟩
      intro p hp
      obtain ⟨txin, htxin, rfl⟩ := mem_map.mp hp
      exact hsome txin htxin
    · rw [coinRules_ins_of_not_spends hspends]
      simp
  refine ⟨⟨hins.1, hnew⟩, ?_⟩
  funext p
  rw [unspent_addOutputs, hins.2]
  rfl

/-- **A connected block is a run of the ledger.** -/
theorem connectCoins_ledger (h : connectCoins nHeight vtx view = some (view', log)) :
    Ledger.Run coinRules view.unspent vtx view'.unspent := by
  induction vtx generalizing view log with
  | nil =>
    cases h
    exact .nil _
  | cons tx vtx ih =>
    obtain ⟨mid, undo, rest, htx, hrun, -⟩ := UndoLog.run_cons_eq_some h
    obtain ⟨henabled, hmid⟩ := connectTxCoins_ledger htx
    have hrest := ih hrun
    rw [hmid] at hrest
    exact .cons henabled hrest

/-! ## §4. Disconnecting takes it back. -/

/-- **Putting the inputs back.** -/
theorem unspent_restoreInputs {mid : CCoinsView} (hrun : spendInputs vin view = some (mid, txundo))
    (hread : (reloadTxUndo txundo).length = vin.length) (hx : x.unspent = mid.unspent) :
    (restoreInputs vin (reloadTxUndo txundo) x).unspent = view.unspent := by
  induction vin generalizing view txundo with
  | nil =>
    cases hrun
    exact hx
  | cons txin vin ih =>
    obtain ⟨next, undo, rest, hs, hrest, rfl⟩ := spendInputs_cons_eq_some hrun
    have hlen := length_spendInputs hrest
    cases hreload : undo.reload with
    | none =>
      grind [reloadTxUndo]
    | some undo' =>
      rw [reloadTxUndo_cons hreload, length_cons, length_cons] at hread
      have hback := ih hrest (by omega)
      obtain ⟨hsome, hnext⟩ := unspent_spendInput hs
      obtain ⟨htxout, hheight⟩ := unspent_of_reload hs hreload
      have hnull : undo'.txout.isNull = false := by grind [unspent_eq_some]
      rw [reloadTxUndo_cons hreload]
      unfold restoreInputs
      funext p
      rw [unspent_modifyCoins, unspentAt_restoreInput _ _ _ _ hnull]
      by_cases hhash : p.hash = txin.prevout.hash
      · rw [if_pos hhash]
        by_cases hn : p.n = txin.prevout.n
        · have hp : p = txin.prevout := by
            cases p
            simp_all
          rw [if_pos hn, hp, hsome, htxout]
        have hne : p ≠ txin.prevout := fun e => hn (by rw [e])
        have hview : view.unspent p = next.unspent p := by rw [hnext, if_neg hne]
        rw [hview]
        split_ifs with hzero
        · have hp : p = ⟨txin.prevout.hash, p.n⟩ := by
            cases p
            cases hhash
            rfl
          rw [hp]
          exact (hheight hzero p.n).symm
        · rw [← congrFun hback p]
          unfold unspent
          rw [hhash]
      · have hne : p ≠ txin.prevout := fun e => hhash (by rw [e])
        rw [if_neg hhash, congrFun hback p, hnext, if_neg hne]

/-- **One transaction back.** -/
theorem disconnectTxCoins_unspent (h : connectTxCoins nHeight tx view = some (view', txundo))
    (hread : spendsCoins tx = true → (reloadTxUndo txundo).length = tx.vin.length)
    (hx : x.unspent = view'.unspent) : (disconnectTxCoins tx txundo x).unspent = view.unspent := by
  obtain ⟨-, mid, rfl, hfree, hmid⟩ := connectTxCoins_eq_some h
  -- without its outputs the view is the one after spending
  have hcleared : (x.modifyCoins tx.hash fun _ => {}).unspent = mid.unspent := by
    funext p
    rw [unspent_modifyCoins]
    split_ifs with hhash
    · have hnone : mid.unspent p = none := by
        apply unspent_of_lookup_none
        rw [hhash]
        exact hfree
      rw [hnone]
      rfl
    · rw [congrFun hx p, unspent_addOutputs, if_neg hhash]
  unfold disconnectTxCoins
  rcases hmid with ⟨hspends, hrun⟩ | ⟨hspends, rfl, -⟩
  · rw [if_pos hspends]
    exact unspent_restoreInputs hrun (hread hspends) hcleared
  · rw [hspends]
    exact hcleared

/-- **A block back.** -/
theorem disconnectCoins_unspent (h : connectCoins nHeight vtx view = some (view', log))
    (hread : ∀ e ∈ log, spendsCoins e.1 = true → (reloadTxUndo e.2).length = e.1.vin.length)
    (hx : x.unspent = view'.unspent) : (disconnectCoins log x).unspent = view.unspent := by
  -- each record undone: if the rest of the log was readable, the views agree so far
  let Agree : List (CTransaction × List CTxInUndo) → CCoinsView → CCoinsView → Prop := fun log y s =>
    (∀ e ∈ log, spendsCoins e.1 = true → (reloadTxUndo e.2).length = e.1.vin.length) → y.unspent = s.unspent
  have hstep : ∀ tx s s' r log y, True → True → connectTxCoins nHeight tx s = some (s', r) →
      Agree log y s' → Agree ((tx, r) :: log) (disconnectTxCoins tx r y) s := by
    grind [disconnectTxCoins_unspent, mem_cons_self]
  have hback : Agree log (disconnectCoins log x) view :=
    UndoLog.rollback_run (fun _ => True) (fun _ => True) Agree (fun _ _ _ _ _ _ _ => trivial) hstep
      (fun _ _ => trivial) trivial h (fun _ => hx)
  exact hback hread

end PwrbCore
