/-
  Validation.DisconnectBlock — DISCONNECTING A BLOCK (`DisconnectBlock` of `main.cpp`).
-/
import PwrbCore.Coins.CleanUndo
import PwrbCore.Validation.ConnectBlock

namespace PwrbCore

open Checked List CCoinsView NodeEnv ConnectAcc

/-! ## §1. Zerocoin bookkeeping. -/

variable {tx : CTransaction} {nHeight : Int} {env : NodeEnv} {txin : CTxIn} {spend : CoinSpend}
    {params : ConsensusParams}
  {acc acc' : ConnectAcc} {block : CBlock} {vin : List CTxIn} {view : CCoinsView} {t : Uint256}
  {vtx : List CTransaction}
  {spent : Int × List Nat} {E : Uint256 → Prop}

section

variable (env : NodeEnv) (tx : CTransaction)

/-- The parsed spend of an input; a public one fails into a local state. -/
def NodeEnv.parseUndoneSpend (txin : CTxIn) : Validated CoinSpend :=
  match env.parseSpend tx txin with
  | .ok spend => .ok spend
  | .error .thrown => .error .thrown
  | .error _ => .error .returned

/-- One input of a transaction with zerocoin spends: value redeemed so far and serials to erase. The test is on the
scriptSig alone; `connectSpend` also asks a private spend for a null prevout. -/
def NodeEnv.disconnectSpend (acc : Int × List Nat) (txin : CTxIn) : Validated (Int × List Nat) :=
  if txin.scriptSig.isZerocoinSpend || txin.isZerocoinPublicSpend then do
    let spend ← env.parseUndoneSpend tx txin
    return (acc.1 + spend.denominationInt * COIN, acc.2 ++ [spend.coinSerialNumber])
  else .ok acc

/-- The value and the serials of the zerocoin spends of a transaction. -/
def NodeEnv.disconnectSpends : Validated (Int × List Nat) :=
  if tx.hasZerocoinSpendInputs then tx.vin.foldlM (env.disconnectSpend tx) (0, []) else .ok (0, [])

/-- The zerocoin section: the spends, and the test on the mints. -/
def NodeEnv.disconnectZerocoin : Validated (Int × List Nat) := do
  let spent ← env.disconnectSpends tx
  require (∀ out ∈ tx.vout, out.isZerocoinMint = true → txOutToPublicCoin out ≠ none) (dos 100)
  return spent

/-! ## §2. The loop and the block. -/

/-- The state of the loop over the transactions, last one first. -/
structure DisconnectAcc where
  view : CCoinsView
  nValueIn : Int := 0
  nValueOut : Int := 0
  fClean : Bool := true
  serials : List Nat := []

/-- The coins of one transaction: remove its outputs, put its inputs back. -/
def disconnectCoinsChecked (tx : CTransaction) (nHeight : Int) (txundo : Option (List CTxInUndo))
    (view : CCoinsView) (fClean : Bool) : Validated (CCoinsView × Bool) :=
  let s := (view.modifyCoins tx.hash fun _ => {}, fClean && outsMatch view tx nHeight)
  if CCoinsView.spendsCoins tx then do
    let txundo ← orStop txundo .thrown
    let vprevout := reloadTxUndo txundo
    require (vprevout.length = tx.vin.length) .returned
    return restoreInputsChecked tx.vin vprevout s
  else .ok s

/-- What the inputs of a transaction are worth on the view they were put back to. -/
def CCoinsView.restoredValueIn (view : CCoinsView) (tx : CTransaction) : Int :=
  if spendsCoins tx && view.haveInputs tx then view.getValueIn tx else 0

/-- One turn of the loop of `DisconnectBlock`. -/
def NodeEnv.disconnectTx (env : NodeEnv) (nHeight : Int) (tx : CTransaction)
    (txundo : Option (List CTxInUndo)) (acc : DisconnectAcc) : Validated DisconnectAcc := do
  let (nSpent, serials) ← env.disconnectZerocoin tx
  let nValueOut ← orStop tx.getValueOut .thrown
  let (view, fClean) ← disconnectCoinsChecked tx nHeight txundo acc.view acc.fClean
  return {
    view := view
    nValueIn := acc.nValueIn + nSpent + view.restoredValueIn tx
    nValueOut := acc.nValueOut + nValueOut
    fClean := fClean
    serials := acc.serials ++ serials }

/-- The loop over the transactions and their records, last one first. -/
def NodeEnv.disconnectTxs (env : NodeEnv) (nHeight : Int) :
    List (CTransaction × Option (List CTxInUndo)) → DisconnectAcc → Validated DisconnectAcc
  | [], acc => .ok acc
  | (tx, txundo) :: rest, acc => do
    let acc ← env.disconnectTxs nHeight rest acc
    env.disconnectTx nHeight tx txundo acc

structure Disconnected where
  state : ChainState
  fClean : Bool
  /-- the serials erased from `zerocoinDB` -/
  serials : List Nat

/-- `UpdateZPWRBSupplyDisconnect` as `DisconnectBlock` reports it. -/
def NodeEnv.disconnectSupply (env : NodeEnv) (block : CBlock) (nHeight : Int) (supply : ZerocoinSupply) :
    Validated ZerocoinSupply :=
  match updateZPWRBSupplyDisconnect env.params env.crypto.coinSpend env.crypto.invalidOut block nHeight
    supply with
  | .ok supply => .ok supply
  | .error .negative => .error .returned
  | .error .thrown => .error .thrown

/-- `DisconnectBlock`, given the undo records. The first transaction has none. -/
def NodeEnv.disconnectBlock (env : NodeEnv) (block : CBlock) (nHeight : Int)
    (vtxundo : List (List CTxInUndo)) (st : ChainState) : Validated Disconnected := do
  require (block.hash = st.view.bestBlock) .thrown
  require (vtxundo.length + 1 = block.vtx.length) .returned
  let supply ← env.disconnectSupply block nHeight st.mapZerocoinSupply
  let acc ← env.disconnectTxs nHeight (block.vtx.zip (none :: vtxundo.map some)) { view := st.view }
  return ⟨{ view := acc.view.setBestBlock block.hashPrevBlock
            nMoneySupply := st.nMoneySupply - (acc.nValueOut - acc.nValueIn)
            mapZerocoinSupply := supply }, acc.fClean, acc.serials⟩

/-- The zerocoin spends of a transaction can be read. -/
def NodeEnv.SpendsReadable : Prop :=
  tx.hasZerocoinSpendInputs = true → ∀ txin ∈ tx.vin,
    (txin.scriptSig.isZerocoinSpend || txin.isZerocoinPublicSpend) = true →
    ∃ spend, env.parseSpend tx txin = .ok spend

end

theorem NodeEnv.parseUndoneSpend_eq_ok : env.parseUndoneSpend tx txin = .ok spend ↔
    env.parseSpend tx txin = .ok spend := by
  unfold parseUndoneSpend
  grind

theorem NodeEnv.disconnectSpends_isOk_iff : (∃ spent, env.disconnectSpends tx = .ok spent) ↔ env.SpendsReadable tx := by
  unfold disconnectSpends NodeEnv.SpendsReadable
  cases tx.hasZerocoinSpendInputs with
  | false => exact iff_of_true ⟨_, rfl⟩ nofun
  | true =>
    constructor
    · rintro ⟨spent, hrun⟩ - txin htxin hspend
      obtain ⟨acc, acc', hturn⟩ := foldlM_forall_mem hrun txin htxin
      unfold disconnectSpend at hturn
      rw [if_pos hspend, bind_eq_ok] at hturn
      obtain ⟨spend, hparse, -⟩ := hturn
      exact ⟨spend, parseUndoneSpend_eq_ok.mp hparse⟩
    · intro hread
      refine foldlM_isOk (fun txin htxin acc => ?_) _
      unfold disconnectSpend
      split
      next hspend =>
          obtain ⟨spend, hparse⟩ := hread rfl txin htxin hspend
          exact ⟨_, bind_eq_ok.mpr ⟨spend, parseUndoneSpend_eq_ok.mpr hparse, rfl⟩⟩
      next => exact ⟨acc, rfl⟩

theorem NodeEnv.disconnectZerocoin_isOk_iff (hmints : checkMints params tx nHeight = .ok ()) :
    (∃ spent, env.disconnectZerocoin tx = .ok spent) ↔ env.SpendsReadable tx := by
  rw [← disconnectSpends_isOk_iff]
  unfold disconnectZerocoin
  simp only [bind_eq_ok, require_eq_ok]
  constructor
  · rintro ⟨spent, spent', hspent, -⟩
    exact ⟨spent', hspent⟩
  rintro ⟨spent, hspent⟩
  refine ⟨spent, spent, hspent, (), ?_, rfl⟩
  unfold checkMints at hmints
  split at hmints
  next =>
      rw [require_bind_eq_ok, require_eq_ok] at hmints
      exact hmints.2
  next hnone =>
      intro out hout hmint
      refine absurd ?_ hnone
      exact any_eq_true.mpr ⟨out, hout, hmint⟩

theorem NodeEnv.disconnectTxs_zerocoin
    {records : List (CTransaction × Option (List CTxInUndo))} {acc acc' : DisconnectAcc}
    (h : env.disconnectTxs nHeight records acc = .ok acc') :
    ∀ p ∈ records, ∃ spent, env.disconnectZerocoin p.1 = .ok spent := by
  induction records generalizing acc' with
  | nil => intro p hp; cases hp
  | cons q rest ih => grind [disconnectTxs, bind_eq_ok, disconnectTx]

/-- A block that was disconnected had readable zerocoin spends. -/
theorem NodeEnv.disconnectBlock_zerocoin {vtxundo : List (List CTxInUndo)} {st : ChainState} {d : Disconnected}
    (h : env.disconnectBlock block nHeight vtxundo st = .ok d) :
    ∀ tx ∈ block.vtx, ∃ spent, env.disconnectZerocoin tx = .ok spent := by
  unfold disconnectBlock at h
  simp only [bind_eq_ok, require_eq_ok] at h
  obtain ⟨-, -, -, hlen, -, -, acc, hrun, -⟩ := h
  intro tx htx
  obtain ⟨i, hi, rfl⟩ := mem_iff_getElem.mp htx
  have hi' : i < (none :: vtxundo.map some).length := by
    rw [length_cons, length_map]
    omega
  refine disconnectTxs_zerocoin hrun (block.vtx[i], (none :: vtxundo.map some)[i]) ?_
  rw [mem_iff_getElem]
  exact ⟨i, by rw [length_zip]; omega, by rw [getElem_zip]⟩

/-! ## §3. Coins of the block itself are not mature. -/

section Immature

/-- A checked loop over the inputs passed the maturity test at every input. -/
theorem foldlM_checkTxInput_mature {inputs : CCoinsView} {nSpendHeight : Int} {nValueIn r : Int}
    (h : vin.foldlM (checkTxInput params inputs nSpendHeight) nValueIn = .ok r) :
    ∀ txin ∈ vin, ∃ coins, inputs.accessCoins txin.prevout.hash = some coins ∧
      ((coins.fCoinBase = true ∨ coins.fCoinStake = true) →
        params.nCoinbaseMaturity ≤ nSpendHeight - coins.nHeight) := by
  intro txin htxin
  obtain ⟨_, _, hturn⟩ := foldlM_forall_mem h txin htxin
  unfold checkTxInput at hturn
  simp only [bind_eq_ok, require_eq_ok, orStop_eq_ok] at hturn
  grind

theorem NodeEnv.connectInputs_eq_ok {nSigOps : Nat}
    {ins : TxInputs} (h : env.connectInputs tx view nHeight nSigOps = .ok ins) :
    view.haveInputs tx = true ∧ ins.nValueIn = view.getValueIn tx ∧ ins.spends = [] ∧
      (tx.isCoinStake = true → ins.nFees = 0) ∧
      (tx.isCoinStake = false → ∃ out, tx.getValueOut = some out ∧ ins.nFees = view.getValueIn tx - out) ∧
      ∃ r, tx.vin.foldlM (checkTxInput env.params view nHeight) 0 = .ok r := by
  unfold connectInputs at h
  simp only [bind_eq_ok, require_eq_ok] at h
  obtain ⟨-, hhave, -, -, -, -, nFees, hfees, vChecks, hchecks, hins⟩ := h
  cases hins
  refine ⟨hhave, rfl, rfl, ?_, ?_, ?_⟩
  · intro hcs
    unfold txFee at hfees
    rw [if_pos hcs] at hfees
    cases hfees
    rfl
  · intro hcs
    unfold txFee at hfees
    rw [if_neg (by rw [hcs]; decide)] at hfees
    simp only [bind_eq_ok, orStop_eq_ok] at hfees
    obtain ⟨out, hout, hfees⟩ := hfees
    cases hfees
    exact ⟨out, hout, rfl⟩
  · grind [checkInputs, bind_eq_ok]

/-- A transaction that spends coins of the view takes the ordinary branch. -/
theorem NodeEnv.txInputs_of_spendsCoins (hspends : spendsCoins tx = true) (view : CCoinsView) (nSigOps : Nat) :
    env.txInputs tx view nHeight nSigOps = env.connectInputs tx view nHeight nSigOps := by
  unfold spendsCoins at hspends
  simp_all [txInputs]

theorem CCoinsView.lookup_spendInputs_of_not_mem {view' : CCoinsView}
    {txundo : List CTxInUndo} (hother : ∀ txin ∈ vin, txin.prevout.hash ≠ t)
    (h : spendInputs vin view = some (view', txundo)) : view'.lookup t = view.lookup t := by
  induction vin generalizing view txundo with
  | nil =>
    cases h
    rfl
  | cons txin vin ih =>
    obtain ⟨mid, undo, rest, hs, hrun, rfl⟩ := spendInputs_cons_eq_some h
    obtain ⟨c, o, -, -, -, rfl, -⟩ := spendInput_eq_some hs
    rw [ih (fun i hi => hother i (mem_cons_of_mem _ hi)) hrun]
    exact lookup_modifyCoins_of_ne _ _ fun e => hother txin mem_cons_self e.symm

/-- **Immature coins stay**: no transaction of the block spends a coinbase or coinstake entry of the block's own
height. -/
theorem NodeEnv.immature_not_spent (hmaturity : 0 < env.params.nCoinbaseMaturity) {c : CCoins}
    (hc : acc.view.lookup t = some c) (hkind : c.fCoinBase = true ∨ c.fCoinStake = true)
    (hheight : c.nHeight = nHeight) (h : vtx.foldlM (env.connectTx block nHeight) acc = .ok acc') :
    ∀ n, (⟨t, n⟩ : COutPoint) ∉ spentOutPoints vtx := by
  induction vtx generalizing acc with
  | nil =>
    intro n hn
    simp [spentOutPoints] at hn
  | cons tx vtx ih =>
    obtain ⟨mid, htx, hrun⟩ := foldlM_cons_eq_ok.mp h
    obtain ⟨ok⟩ := env.connectTx_eq_ok htx
    -- the inputs of this transaction do not name the entry
    have hother : spendsCoins tx = true → ∀ txin ∈ tx.vin, txin.prevout.hash ≠ t := by
      intro hspends txin htxin ht
      have hins := ok.inputs
      rw [txInputs_of_spendsCoins hspends] at hins
      obtain ⟨-, -, -, -, -, r, hr⟩ := env.connectInputs_eq_ok hins
      obtain ⟨coins, hcoins, hmature⟩ := foldlM_checkTxInput_mature hr txin htxin
      have hsame : coins = c := by
        rw [ht] at hcoins
        have hin := ((lookup_eq_some_iff _ _ _).mp hc).1
        exact Option.some.inj (hcoins.symm.trans hin)
      subst hsame
      have := hmature hkind
      omega
    -- so it is still there for the next one
    obtain ⟨hfree, before, hafter, -, hspend⟩ := connectTxCoins_eq_some ok.coins
    have hne : t ≠ tx.hash := by
      rintro rfl
      rw [hfree] at hc
      cases hc
    have hbefore : before.lookup t = some c := by grind [lookup_spendInputs_of_not_mem]
    have hmid : mid.view.lookup t = some c := by
      rw [ok.acc_eq]
      show ok.view'.lookup t = some c
      rw [hafter]
      exact (lookup_modifyCoins_of_ne _ _ hne).trans hbefore
    intro n hn
    unfold spentOutPoints at hn
    rw [mem_flatMap] at hn
    obtain ⟨tx', htx', hn⟩ := hn
    rw [mem_filter] at htx'
    rcases mem_cons.mp htx'.1 with rfl | hmem
    · obtain ⟨txin, htxin, heq⟩ := mem_map.mp hn
      exact hother htx'.2 txin htxin (by rw [heq])
    · grind [spentOutPoints]

end Immature

/-! ## §4. Undoing the transactions of a connected block. -/

def NodeEnv.spendValue (env : NodeEnv) (tx : CTransaction) (txin : CTxIn) : Int :=
  match env.parseSpend tx txin with
  | .ok spend => spend.denominationInt * COIN
  | .error _ => 0

/-- The zerocoin value `DisconnectBlock` counts for a transaction: by the scriptSig. -/
def NodeEnv.undoneSpent (env : NodeEnv) (tx : CTransaction) : Int :=
  if tx.hasZerocoinSpendInputs then
    (tx.vin.map fun txin =>
      if txin.scriptSig.isZerocoinSpend || txin.isZerocoinPublicSpend then env.spendValue tx txin
      else 0).sum
  else 0

/-- The zerocoin value `ConnectBlock` counts for a transaction: by scriptSig and prevout. -/
def NodeEnv.connectedSpent (env : NodeEnv) (tx : CTransaction) : Int :=
  if tx.hasZerocoinSpendInputs then
    (tx.vin.map fun txin =>
      if txin.isZerocoinSpend || txin.isZerocoinPublicSpend then env.spendValue tx txin else 0).sum
  else 0

theorem NodeEnv.spendValue_eq
    (h : env.parseSpend tx txin = .ok spend) : env.spendValue tx txin = spend.denominationInt * COIN := by
  unfold spendValue
  rw [h]

theorem NodeEnv.disconnectSpend_value (txin : CTxIn)
    (acc acc' : Int × List Nat) (h : env.disconnectSpend tx acc txin = .ok acc') :
    acc'.1 = acc.1 + if txin.scriptSig.isZerocoinSpend || txin.isZerocoinPublicSpend then
      env.spendValue tx txin else 0 := by
  unfold disconnectSpend at h
  split_ifs at h ⊢ with hspend
  · rw [bind_eq_ok] at h
    obtain ⟨spend, hparse, hacc⟩ := h
    rw [← Except.ok.inj hacc, spendValue_eq (parseUndoneSpend_eq_ok.mp hparse)]
  · rw [← Except.ok.inj h, Int.add_zero]

theorem NodeEnv.connectSpend_value
    (txin : CTxIn) (acc acc' : TxInputs) (h : env.connectSpend tx nHeight acc txin = .ok acc') :
    acc'.nValueIn = acc.nValueIn + if txin.isZerocoinSpend || txin.isZerocoinPublicSpend then
      env.spendValue tx txin else 0 := by
  unfold connectSpend at h
  rw [← Bool.not_or] at h
  cases hspend : (txin.isZerocoinSpend || txin.isZerocoinPublicSpend) with
  | false =>
    rw [hspend] at h
    rw [← Except.ok.inj h, if_neg (by decide), Int.add_zero]
  | true =>
    rw [hspend, if_neg (by decide)] at h
    simp only [bind_eq_ok] at h
    obtain ⟨-, -, spend, hparse, -, -, hacc⟩ := h
    rw [← Except.ok.inj hacc, if_pos rfl, spendValue_eq hparse]

theorem NodeEnv.disconnectZerocoin_eq_ok
    (h : env.disconnectZerocoin tx = .ok spent) : env.undoneSpent tx = spent.1 := by
  unfold disconnectZerocoin at h
  simp only [bind_eq_ok] at h
  obtain ⟨spent', hspent, -, -, heq⟩ := h
  cases heq
  unfold disconnectSpends at hspent
  unfold undoneSpent
  split at hspent
  next hzc =>
      rw [if_pos hzc, foldlM_measure Prod.fst _ (fun txin _ => disconnectSpend_value txin) hspent, Int.zero_add]
  next hzc =>
      rw [if_neg hzc, ← Except.ok.inj hspent]

section Undo

variable {env' : NodeEnv}

section

variable (ok : ConnectTxOk env block nHeight acc tx acc')

include ok

theorem ConnectTxOk.nValueIn :
    ok.ins.nValueIn = env.connectedSpent tx + if spendsCoins tx then acc.view.getValueIn tx else 0 := by
  have hins := ok.inputs
  unfold connectedSpent
  unfold txInputs at hins
  unfold spendsCoins
  cases hzc : tx.hasZerocoinSpendInputs with
  | true =>
    rw [hzc, if_pos rfl] at hins
    unfold connectSpends at hins
    rw [require_bind_eq_ok] at hins
    rw [foldlM_measure TxInputs.nValueIn _ (fun txin _ => connectSpend_value txin) hins.2]
    simp
  | false =>
    rw [hzc] at hins
    cases hcb : tx.isCoinBase with
    | true =>
      rw [hcb] at hins
      rw [← Except.ok.inj hins]
      simp
    | false =>
      rw [hcb] at hins
      rw [(env.connectInputs_eq_ok hins).2.1]
      simp

theorem ConnectTxOk.haveInputs (hspends : spendsCoins tx = true) : acc.view.haveInputs tx = true := by
  have hins := ok.inputs
  rw [txInputs_of_spendsCoins hspends] at hins
  exact (env.connectInputs_eq_ok hins).1

/-- **Undoing one connected transaction** succeeds, brings the view back up to what the records lose, and finds the
values of the inputs; only the comparison of the removed entry with the block can raise the flag. -/
theorem ConnectTxOk.disconnectTx (hwf : acc.view.WF) {d : DisconnectAcc} (hR : Restored E d.view acc'.view)
    {record : Option (List CTxInUndo)} (hrecord : spendsCoins tx = true → record = some ok.txundo)
    (hspent : env'.disconnectZerocoin tx = .ok spent) :
    ∃ d', env'.disconnectTx nHeight tx record d = .ok d' ∧
      Restored (fun t => E t ∨ ExhaustedBy tx.vin ok.txundo t) d'.view acc.view ∧
      d'.fClean = (d.fClean && outsMatch d.view tx nHeight) ∧ d'.nValueOut = d.nValueOut + ok.valueOut ∧
      d'.nValueIn = d.nValueIn + ok.ins.nValueIn + (env'.undoneSpent tx - env.connectedSpent tx) := by
  have hview : acc'.view = ok.view' := congrArg ConnectAcc.view ok.acc_eq
  rw [hview] at hR
  have hback := hR.connectTxCoins hwf ok.coins
  obtain ⟨-, before, hafter, hfree, hspend⟩ := connectTxCoins_eq_some ok.coins
  -- the coins of the transaction, with the flag
  have hcoins : disconnectCoinsChecked tx nHeight record d.view d.fClean
      = .ok (disconnectTxCoins tx ok.txundo d.view, d.fClean && outsMatch d.view tx nHeight) := by
    unfold disconnectCoinsChecked disconnectTxCoins
    rcases hspend with ⟨hspends, hrun⟩ | ⟨hspends, rfl, -⟩
    · rw [if_pos hspends, if_pos hspends, hrecord hspends]
      have hcleared : Restored E (d.view.modifyCoins tx.hash fun _ => {}) before := by
        rw [hafter] at hR
        exact hR.addOutputs hfree
      show (do require _ _; return _ : Validated _) = _
      rw [require_bind_eq_ok]
      refine ⟨length_reloadTxUndo hwf hrun, ?_⟩
      congr 1
      exact Prod.ext (restoreInputsChecked_fst _ _ _) (hcleared.restoreInputsChecked hwf hrun _)
    · rw [if_neg (by rw [hspends]; decide), if_neg (by rw [hspends]; decide)]
  -- what the inputs are worth afterwards
  have hworth : (disconnectTxCoins tx ok.txundo d.view).restoredValueIn tx
      = if spendsCoins tx then acc.view.getValueIn tx else 0 := by
    grind [restoredValueIn, ok.haveInputs, hback.sameOutputs.haveInputs, hback.sameOutputs.getValueIn]
  refine ⟨{ view := disconnectTxCoins tx ok.txundo d.view
            nValueIn := d.nValueIn + spent.1 + (disconnectTxCoins tx ok.txundo d.view).restoredValueIn tx
            nValueOut := d.nValueOut + ok.valueOut
            fClean := d.fClean && outsMatch d.view tx nHeight
            serials := d.serials ++ spent.2 }, ?_, hback, rfl, rfl, ?_⟩
  · unfold NodeEnv.disconnectTx
    rw [bind_eq_ok]
    refine ⟨spent, hspent, ?_⟩
    rw [bind_eq_ok]
    refine ⟨ok.valueOut, orStop_eq_ok.mpr ok.valueOut_eq, ?_⟩
    rw [bind_eq_ok]
    exact ⟨_, hcoins, rfl⟩
  · show d.nValueIn + spent.1 + _ = _
    rw [ok.nValueIn, env'.disconnectZerocoin_eq_ok hspent]
    omega

end

/-- The entry of a coinstake of the block is not exhausted by the rest of the block. -/
theorem NodeEnv.not_exhausted_coinStake (hmaturity : 0 < env.params.nCoinbaseMaturity)
    (hpos : 0 < nHeight) (hlt : nHeight < 2 ^ 30) {mid : ConnectAcc}
    {log : List (CTransaction × List CTxInUndo)} (hwf : mid.view.WF)
    (hlook : mid.view.lookup tx.hash = some (CCoins.fromTx tx nHeight))
    (hlive : (CCoins.fromTx tx nHeight).isPruned = false) (hstake : tx.isCoinStake = true)
    (hvalue : ∀ tx ∈ vtx, ∀ o ∈ tx.vout, 0 ≤ o.nValue) (hrun : vtx.foldlM (env.connectTx block nHeight) mid = .ok acc')
    (hcoins : connectCoins nHeight vtx mid.view = some (acc'.view, log)) : ¬ Exhausted log tx.hash := by
  rw [exhausted_iff hpos hlt hvalue hwf hlook hcoins]
  intro hall
  -- a live entry has an unspent output, which the block would have to spend
  obtain ⟨n, hn⟩ := CCoins.exists_unspent hlive
  exact env.immature_not_spent hmaturity hlook (.inr hstake) rfl hrun n (hall n hn)

/-- **Undoing the transactions of a connected block**, from the view after the block except for entries in `E` that
earlier rollbacks scrubbed. No flag is raised unless such an entry belongs to a coinstake of the block. -/
theorem NodeEnv.disconnectTxs_connected (hmaturity : 0 < env.params.nCoinbaseMaturity)
    (hpos : 0 < nHeight) (hlt : nHeight < 2 ^ 30)
    {undos : List (List CTxInUndo)} {records : List (Option (List CTxInUndo))} (hwf : acc.view.WF)
    (h : vtx.foldlM (env.connectTx block nHeight) acc = .ok acc') (hundos : acc'.vtxundo = acc.vtxundo ++ undos)
    (hrecords : List.Forall₂ (fun p record => spendsCoins p.1 = true → record = some p.2)
      (vtx.zip undos) records) (hspent : ∀ tx ∈ vtx, ∃ spent, env'.disconnectZerocoin tx = .ok spent)
    (d : DisconnectAcc) (hd : Restored E d.view acc'.view) :
    ∃ d', env'.disconnectTxs nHeight (vtx.zip records) d = .ok d' ∧
      Restored (fun t => E t ∨ Exhausted (vtx.zip undos) t) d'.view acc.view ∧
      ((∀ tx ∈ vtx, tx.isCoinStake = true → ¬ E tx.hash) → d'.fClean = d.fClean) ∧
      d'.nValueOut = d.nValueOut + (acc'.nValueOut - acc.nValueOut) ∧
      d'.nValueIn = d.nValueIn + (acc'.nValueIn - acc.nValueIn)
        + (vtx.map fun tx => env'.undoneSpent tx - env.connectedSpent tx).sum := by
  induction vtx generalizing acc undos records with
  | nil =>
    rw [foldlM_nil_eq_ok] at h
    subst h
    refine ⟨d, rfl, ?_, fun _ => rfl, by omega, by simp⟩
    exact hd.congr fun t => by simp [Exhausted]
  | cons tx vtx ih =>
    obtain ⟨mid, htx, hrun⟩ := foldlM_cons_eq_ok.mp h
    obtain ⟨ok⟩ := env.connectTx_eq_ok htx
    obtain ⟨undos', hundos', -, hcoins, hvalue⟩ := env.foldlM_connectTx_coins hrun
    have hmidundo : mid.vtxundo = acc.vtxundo ++ [ok.txundo] :=
      congrArg vtxundo ok.acc_eq
    have hmidview : mid.view = ok.view' := congrArg ConnectAcc.view ok.acc_eq
    have hcons : undos = ok.txundo :: undos' := by
      rw [hundos', hmidundo, append_assoc] at hundos
      exact (append_cancel_left hundos).symm
    subst hcons
    obtain ⟨record, records', hrecord, hrest, rfl⟩ := forall₂_cons_left_iff.mp hrecords
    have hnonneg := (CTransaction.getValueOut_eq_some ok.valueOut_eq).2
    have hmidwf : mid.view.WF := by
      rw [hmidview]
      exact hwf.connectTxCoins hpos hlt hnonneg ok.coins
    obtain ⟨d1, hd1, hR1, hclean1, hout1, hin1⟩ :=
      ih hmidwf hrun hundos' hrest fun tx' htx' => hspent tx' (mem_cons_of_mem _ htx')
    obtain ⟨spent, hspent'⟩ := hspent tx mem_cons_self
    obtain ⟨d2, hd2, hR2, hclean2, hout2, hin2⟩ := ok.disconnectTx hwf hR1 hrecord hspent'
    refine ⟨d2, ?_, ?_, ?_, ?_, ?_⟩
    · grind [disconnectTxs, bind_eq_ok]
    · refine hR2.congr fun t => ?_
      simp only [Exhausted, zip_cons_cons, mem_cons, exists_eq_or_imp]
      rw [or_assoc]
      exact or_congr_right or_comm
    · -- the removed entry is the one of the block
      intro hkept
      obtain ⟨-, before, hafter, -, -⟩ := connectTxCoins_eq_some ok.coins
      have hnew : (CCoins.fromTx tx nHeight).WF := .fromTx hpos hlt hnonneg
      rw [hmidview, hafter] at hR1
      have hmatch : outsMatch d1.view tx nHeight = true := by
        refine hR1.outsMatch hnew fun hcs hlive => ?_
        have hlook : mid.view.lookup tx.hash = some (.fromTx tx nHeight) := by
          have := lookup_modifyCoins_self before tx.hash
            (CCoins.cleanup_of_tight hnew.no_trailing_null)
          rw [hlive] at this
          rw [hmidview, hafter]
          exact this
        rintro (hE | hE)
        · exact hkept tx mem_cons_self hcs hE
        · exact env.not_exhausted_coinStake hmaturity hpos hlt hmidwf hlook hlive hcs hvalue hrun
            hcoins hE
      rw [hclean2, hmatch, Bool.and_true]
      exact hclean1 fun tx' htx' => hkept tx' (mem_cons_of_mem _ htx')
    · have hmidout : mid.nValueOut = acc.nValueOut + ok.valueOut :=
        congrArg nValueOut ok.acc_eq
      omega
    · have hmidin : mid.nValueIn = acc.nValueIn + ok.ins.nValueIn :=
        congrArg nValueIn ok.acc_eq
      rw [map_cons, sum_cons]
      omega

end Undo

end PwrbCore
