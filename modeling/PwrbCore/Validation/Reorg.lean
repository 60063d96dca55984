/-
  Validation.Reorg — CONNECTING A BLOCK AND DISCONNECTING IT AGAIN.

  What comes back and what does not:
    • the zerocoin supply map, and the best block (`ConnectBlockOk.disconnectBlock`);
    • the coins, except that an entry the block exhausts comes back from a metadata record,
      without its coinstake flag and with a negative version cut (`disconnectBlock_restores_iff`).
-/
import PwrbCore.Validation.DisconnectBlock

namespace PwrbCore

open Checked

/-! ## §1. Accepted blocks. -/

variable {block : CBlock} {env : NodeEnv} {nHeight : Int} {st : ChainState} {r : Connected}

/-- `ConnectBlock` accepts the block. `fAlreadyChecked` says that an earlier `CheckBlock` passed. -/
def NodeEnv.Accepts (env : NodeEnv) (block : CBlock) (nHeight : Int) (st : ChainState) (r : Connected) : Prop :=
  block.hash ≠ env.params.hashGenesisBlock ∧ ∃ fAlreadyChecked,
      (fAlreadyChecked = true → checkBlockShape env.params env.crypto block true = .ok ()) ∧
      env.connectBlock block nHeight st false fAlreadyChecked = .ok r

variable {c : CCoins}

theorem NodeEnv.recheckBlock_shape {fAlreadyChecked : Bool}
    (hchecked : fAlreadyChecked = true → checkBlockShape env.params env.crypto block true = .ok ())
    (h : env.recheckBlock block false fAlreadyChecked = .ok ()) :
    checkBlockShape env.params env.crypto block true = .ok () := by
  cases fAlreadyChecked with
  | true => exact hchecked rfl
  | false => grind [.recheckBlock, env.checkBlock_shape]

/-- An accepted block starts with its only coinbase. -/
theorem NodeEnv.Accepts.coinBase (h : env.Accepts block nHeight st r) :
    ∃ tx vtx, block.vtx = tx :: vtx ∧ tx.isCoinBase = true := by
  obtain ⟨-, fAlreadyChecked, hchecked, hconnect⟩ := h
  grind [.connectBlock, bind_eq_ok, checkBlockShape_coinBase, env.recheckBlock_shape]

theorem NodeEnv.Accepts.ok (h : env.Accepts block nHeight st r) : Nonempty (ConnectBlockOk env block nHeight st r) := by
  obtain ⟨hgenesis, fAlreadyChecked, -, hconnect⟩ := h
  exact env.connectBlock_eq_ok hgenesis hconnect

/-! ## §2. Disconnecting an accepted block. -/

section Disconnect

variable {env' : NodeEnv}

/-- The records on disk are those of all transactions but the coinbase. -/
theorem forall₂_records {tx : CTransaction} {vtx rest : List CTransaction} {undos : List (List CTxInUndo)}
    (hvtx : vtx = tx :: rest) (hcb : tx.isCoinBase = true) (hlen : undos.length = vtx.length) :
    List.Forall₂ (fun p record => CCoinsView.spendsCoins p.1 = true → record = some p.2)
      (vtx.zip undos) (none :: undos.tail.map some) := by
  subst hvtx
  obtain ⟨undo, undos, rfl⟩ := List.exists_cons_of_length_eq_add_one hlen
  refine .cons (fun hspends => ?_) ?_
  · unfold CCoinsView.spendsCoins at hspends
    rw [hcb] at hspends
    cases hspends
  · rw [List.tail_cons]
    induction rest generalizing undos with
    | nil =>
      rw [List.length_eq_zero_iff.mp (Nat.succ.inj hlen)]
      exact .nil
    | cons tx' rest ih =>
      cases undos with
      | nil => cases hlen
      | cons undo' undos => simp_all

/-- The zerocoin value the two directions count differently. -/
def spentDifference (env env' : NodeEnv) (block : CBlock) : Int :=
  (block.vtx.map fun tx => env'.undoneSpent tx - env.connectedSpent tx).sum

/-- **Disconnecting an accepted block**, from the state after it except for entries in `E` that earlier rollbacks
scrubbed. -/
theorem ConnectBlockOk.disconnectBlock (ok : ConnectBlockOk env block nHeight st r)
    (hfirst : ∃ tx vtx, block.vtx = tx :: vtx ∧ tx.isCoinBase = true)
    (hmaturity : 0 < env.params.nCoinbaseMaturity) (hpos : 0 < nHeight) (hlt : nHeight < 2 ^ 30)
    (hwf : st.view.WF) (hsupply : st.mapZerocoinSupply.Nonneg)
    (hparams : env'.params = env.params) (hcrypto : env'.crypto = env.crypto)
    (hspent : ∀ tx ∈ block.vtx, ∃ spent, env'.disconnectZerocoin tx = .ok spent)
    (cur : ChainState) {E : Uint256 → Prop} (hview : Restored E cur.view r.state.view)
    (hbest : cur.view.bestBlock = block.hash) (hmap : cur.mapZerocoinSupply = r.state.mapZerocoinSupply) :
    ∃ d log, env'.disconnectBlock block nHeight r.vtxundo cur = .ok d ∧
      connectCoins nHeight block.vtx st.view = some (ok.acc.view, log) ∧
      (∀ tx ∈ block.vtx, ∀ o ∈ tx.vout, 0 ≤ o.nValue) ∧
      Restored (fun t => E t ∨ Exhausted log t) d.state.view st.view ∧ d.state.view.bestBlock = st.view.bestBlock ∧
      d.state.mapZerocoinSupply = st.mapZerocoinSupply ∧
      ((∀ tx ∈ block.vtx, tx.isCoinStake = true → ¬ E tx.hash) → d.fClean = true) ∧
      d.state.nMoneySupply = cur.nMoneySupply - (ok.acc.nValueOut - ok.acc.nValueIn)
        + spentDifference env env' block := by
  obtain ⟨tx, vtx, hvtx, hcb⟩ := hfirst
  obtain ⟨undos, hundos, hlen, hcoins, hvalue⟩ := env.foldlM_connectTx_coins ok.loop
  rw [List.nil_append] at hundos
  have hr : r.vtxundo = undos.tail := by
    rw [← hundos]
    exact congrArg Connected.vtxundo ok.result
  have hcur : Restored E cur.view ok.acc.view := by
    rw [ok.result] at hview
    exact hview
  obtain ⟨d, hd, hR, hclean, hout, hin⟩ := NodeEnv.disconnectTxs_connected hmaturity hpos hlt
    hwf ok.loop (by rw [hundos]; rfl) (forall₂_records hvtx hcb hlen) hspent { view := cur.view } hcur
  -- the supply map
  have hsup : env'.disconnectSupply block nHeight cur.mapZerocoinSupply = .ok st.mapZerocoinSupply := by
    have hcursup : cur.mapZerocoinSupply = ok.supply := by
      rw [hmap]
      exact congrArg (fun r => r.state.mapZerocoinSupply) ok.result
    unfold NodeEnv.disconnectSupply
    rw [hcursup, hparams, hcrypto, updateZPWRBSupplyDisconnect_connect hsupply ok.counted]
  refine ⟨⟨{ view := d.view.setBestBlock block.hashPrevBlock
             nMoneySupply := cur.nMoneySupply - (d.nValueOut - d.nValueIn)
             mapZerocoinSupply := st.mapZerocoinSupply }, d.fClean, d.serials⟩,
    block.vtx.zip undos, ?_, hcoins, hvalue, hR, ok.parent, rfl, ?_, ?_⟩
  · unfold NodeEnv.disconnectBlock
    rw [require_bind_eq_ok]
    refine ⟨hbest.symm, ?_⟩
    rw [require_bind_eq_ok]
    refine ⟨by rw [hr, List.length_tail, hlen, hvtx]; rfl, ?_⟩
    rw [bind_eq_ok]
    refine ⟨_, hsup, ?_⟩
    rw [bind_eq_ok, hr]
    exact ⟨d, hd, rfl⟩
  · intro hkept
    exact hclean hkept
  · show cur.nMoneySupply - (d.nValueOut - d.nValueIn) = _
    dsimp only at hout hin
    unfold spentDifference
    omega

theorem ConnectBlockOk.spendsReadable_iff (ok : ConnectBlockOk env block nHeight st r) :
    (∀ tx ∈ block.vtx, ∃ spent, env'.disconnectZerocoin tx = .ok spent) ↔ ∀ tx ∈ block.vtx, env'.SpendsReadable tx := by
  have hmints : ∀ tx ∈ block.vtx, checkMints env.params tx nHeight = .ok () := by
    intro tx htx
    obtain ⟨acc, acc', hturn⟩ := foldlM_forall_mem ok.loop tx htx
    obtain ⟨oktx⟩ := env.connectTx_eq_ok hturn
    exact oktx.mints
  grind [NodeEnv.disconnectZerocoin_isOk_iff]

end Disconnect

/-! ## §3. The coins. -/

theorem Restored.refl (view : CCoinsView) : Restored (fun _ => False) view view :=
  fun _ => ⟨fun _ => rfl, fun h => h.elim⟩

/-- The entries the block exhausts and an undo record does not bring back. -/
def LosesCoins (view : CCoinsView) (block : CBlock) : Prop :=
  ∃ t c, view.lookup t = some c ∧ (∀ n, c.Unspent n → (⟨t, n⟩ : COutPoint) ∈ spentOutPoints block.vtx) ∧
    (c.fCoinStake = true ∨ c.nVersion < 0)

/-- An undone view is the old one unless a scrubbed entry shows. -/
theorem Restored.lookup_eq_iff {view view' undone : CCoinsView}
    {log : List (CTransaction × List CTxInUndo)} (hpos : 0 < nHeight) (hlt : nHeight < 2 ^ 30)
    (hwf : view.WF) (hvalue : ∀ tx ∈ block.vtx, ∀ o ∈ tx.vout, 0 ≤ o.nValue)
    (hcoins : connectCoins nHeight block.vtx view = some (view', log))
    (hR : Restored (fun t => False ∨ Exhausted log t) undone view) :
    (∀ t, undone.lookup t = view.lookup t) ↔ ¬ LosesCoins view block := by
  constructor
  · rintro hall ⟨t, c, hc, hcov, hbad⟩
    -- the entry is exhausted, so what came back is scrubbed
    have hE : Exhausted log t := (exhausted_iff hpos hlt hvalue hwf hc hcoins).mpr hcov
    have hback := (hR t).2 (.inr hE)
    rw [hall t, hc] at hback
    exact (CCoins.scrub_eq_self_iff c).mp (Option.some.inj hback).symm hbad
  · intro hkeep t
    by_cases hE : Exhausted log t
    · rw [(hR t).2 (.inr hE)]
      cases hc : view.lookup t with
      | none => rfl
      | some c =>
        have hcov := (exhausted_iff hpos hlt hvalue hwf hc hcoins).mp hE
        rw [Option.map_some, (CCoins.scrub_eq_self_iff c).mpr fun hbad => hkeep ⟨t, c, hc, hcov, hbad⟩]
    · exact (hR t).1 fun h => h.elim (fun h => h) hE

/-- **What disconnecting brings back.**  For every state and every accepted block,
`DisconnectBlock` with the undo data `ConnectBlock` wrote gives back the coins before the
block and the parent as best block, with no consistency flag, exactly when the block's zerocoin
spends can be read again and no live entry all of whose unspent outputs the block spends
belongs to a coinstake or has a negative version. -/
theorem disconnectBlock_restores_iff {env env' : NodeEnv} {block : CBlock} {nHeight : Int}
    {st : ChainState} {r : Connected} (hmaturity : 0 < env.params.nCoinbaseMaturity)
    (hpos : 0 < nHeight) (hlt : nHeight < 2 ^ 30) (hwf : st.view.WF)
    (hsupply : st.mapZerocoinSupply.Nonneg) (haccepts : env.Accepts block nHeight st r)
    (hparams : env'.params = env.params) (hcrypto : env'.crypto = env.crypto) :
    (∃ d, env'.disconnectBlock block nHeight r.vtxundo r.state = .ok d ∧ d.fClean = true ∧
      d.state.view.bestBlock = block.hashPrevBlock ∧ ∀ t, d.state.view.lookup t = st.view.lookup t) ↔
    (∀ tx ∈ block.vtx, env'.SpendsReadable tx) ∧ ¬ LosesCoins st.view block := by
  obtain ⟨ok⟩ := haccepts.ok
  -- readable spends make `DisconnectBlock` succeed
  have hrun : (∀ tx ∈ block.vtx, ∃ spent, env'.disconnectZerocoin tx = .ok spent) →
      ∃ d, env'.disconnectBlock block nHeight r.vtxundo r.state = .ok d ∧ d.fClean = true ∧
        d.state.view.bestBlock = block.hashPrevBlock ∧
        ((∀ t, d.state.view.lookup t = st.view.lookup t) ↔ ¬ LosesCoins st.view block) := by
    intro hspent
    obtain ⟨d, log, hd, hcoins, hvalue, hR, hbest, -, hclean, -⟩ :=
      ok.disconnectBlock haccepts.coinBase hmaturity hpos hlt hwf hsupply hparams hcrypto
        hspent r.state (.refl _) (by rw [ok.result]; rfl) rfl
    exact ⟨d, hd, hclean fun _ _ _ h => h, hbest.trans ok.parent.symm, hR.lookup_eq_iff hpos hlt hwf hvalue hcoins⟩
  constructor
  · grind [env'.disconnectBlock_zerocoin, ok.spendsReadable_iff.mp]
  · rintro ⟨hread, hkeep⟩
    simp_all [ok.spendsReadable_iff.mpr]

/-- Library functions for the samples: every signature is good, there are no zerocoins. -/
def plainCrypto : Crypto where
  hash160 := fun _ => sampleKey 0
  checkProofOfWork := fun _ _ => true
  blockMerkleRoot := fun _ => (0, false)
  txSize := fun _ => 200
  blockSize := fun _ => 1000
  verifyScript := fun _ _ _ _ => true
  txOutHash := fun _ => 0
  coinSpend := fun _ => none
  parseCoinSpend := fun _ _ _ => none
  validateInput := fun _ _ _ => false
  contextualCheckSpend := fun _ _ _ => false
  invalidOut := ⟨[], []⟩

/-- A synced node with the default sporks, no locks, no votes and no budgets. -/
def plainLocal : LocalState where
  sporkValue := fun id =>
    match id with
    | .swiftTxBlockFiltering => 0
    | .zerocoinMaintenanceMode => 1584552673
    | _ => 4070908800
  adjustedTime := 1602000000
  initialBlockDownload := false
  verifyingBlocks := false
  synced := true
  mapLockedInputs := fun _ => none
  mapMasternodeBlocks := fun _ => none
  mapFinalizedBudgets := []
  enabledMasternodes := 0
  mapPaymentHistory := []
  sources := { spork19 := 201901010102030405 }
  downloaded := { spork19 := 201901010102030405 }
  mempool := fun _ => none
  totalBlocksEstimate := 0
  scriptCheckThreads := false

def plainTip : CBlock := { hash := 900, hashPrevBlock := 899, nTime := 1602000000, vtx := [] }

def plainNode (height : Nat) (coinsTip : CCoinsView) : NodeEnv where
  params := .mainNet
  crypto := plainCrypto
  chain := List.replicate height plainTip
  mapBlockIndex := fun _ => none
  coinsTip := coinsTip
  fTxIndex := false
  txIndex := fun _ => none
  coinSpends := fun _ => none
  loc := plainLocal

def oneEntryView (c : CCoins) : CCoinsView := ⟨fun t => if t = 7 then some c else none, 900⟩

/-- A coinstake of height 201: the marker, and six coins. -/
def stakeEntry : CCoins :=
  { fCoinStake := true
    vout := [⟨0, []⟩, ⟨6 * COIN, payTo 9⟩]
    nHeight := 201
    nVersion := 1 }

def oneEntryState (c : CCoins) : ChainState := ⟨oneEntryView c, 0, fun _ => 0⟩

/-- A block of height 400 that stakes coins of transaction 7. -/
def stakedBlock (vin : List CTxIn) (rest : List CTransaction) : CBlock :=
  { hash := 901
    hashPrevBlock := 900
    nTime := 1602000015
    vtx := { hash := 40, vin := [coinbaseIn], vout := [⟨0, []⟩] }
      :: { hash := 41, vin := vin, vout := [⟨0, []⟩, ⟨7 * COIN, payTo 9⟩] } :: rest }

/-- Both outputs are staked; the marker's script is empty, so any push satisfies it. -/
def restakeBlock : CBlock := stakedBlock [.of 7 1, { prevout := ⟨7, 0⟩, scriptSig := [OP_1] }] []

abbrev entryNode (c : CCoins) : NodeEnv := plainNode 400 (oneEntryView c)

/-- Connecting and disconnecting a block at height 400 on a view with the entry `c`. -/
def roundTrip (block : CBlock) (c : CCoins) : Validated Disconnected := do
  let r ← (entryNode c).connectBlock block 400 (oneEntryState c) false false
  (entryNode c).disconnectBlock block 400 r.vtxundo r.state

theorem roundTrip_eq_ok {α : Type} {f : Disconnected → α} {a : α}
    (hgenesis : block.hash ≠ ConsensusParams.mainNet.hashGenesisBlock) (h : (roundTrip block c).map f = .ok a) :
    ∃ r d, (entryNode c).Accepts block 400 (oneEntryState c) r ∧
      (entryNode c).disconnectBlock block 400 r.vtxundo r.state = .ok d ∧ f d = a := by
  obtain ⟨d, hrun, hf⟩ := exists_ok_of_map h
  unfold roundTrip at hrun
  rw [bind_eq_ok] at hrun
  obtain ⟨r, hr, hd⟩ := hrun
  exact ⟨r, d, ⟨hgenesis, false, fun h => Bool.noConfusion h, hr⟩, hd, hf⟩

def paymentEntry : CCoins := { stakeEntry with fCoinStake := false }

theorem oneEntryView_lookup {c' : CCoins} {t : Uint256} (h : (oneEntryView c).lookup t = some c') : t = 7 ∧ c' = c := by
  unfold CCoinsView.lookup oneEntryView at h
  simp_all

theorem wf_oneEntryView (hc : c.WF) : (oneEntryView c).WF := by
  intro t c' h
  obtain ⟨-, rfl⟩ := oneEntryView_lookup h
  exact hc

theorem wf_paymentEntry : paymentEntry.WF where
  null_canonical := by decide
  no_trailing_null := by decide
  height_pos := by decide
  height_lt := by decide

/-- A staked payment output comes back. -/
theorem restaked_payment_restored : ∃ r, (entryNode paymentEntry).Accepts restakeBlock 400
        (oneEntryState paymentEntry) r ∧
      ∃ d, (entryNode paymentEntry).disconnectBlock restakeBlock 400 r.vtxundo
          r.state = .ok d ∧ d.fClean = true ∧ d.state.view.bestBlock = 900 ∧
        ∀ t, d.state.view.lookup t = (oneEntryView paymentEntry).lookup t := by
  have hrun : (roundTrip restakeBlock paymentEntry).map (fun _ => ()) = .ok () := by decide +kernel
  obtain ⟨r, -, hr, -, -⟩ := roundTrip_eq_ok (by decide) hrun
  refine ⟨r, hr, ?_⟩
  have hkeep : ¬ LosesCoins (oneEntryView paymentEntry) restakeBlock := by
    intro hloses
    obtain ⟨t, c, hc, -, hbad⟩ := hloses
    obtain ⟨-, rfl⟩ := oneEntryView_lookup hc
    revert hbad
    decide
  have hread : ∀ tx ∈ restakeBlock.vtx,
      (entryNode paymentEntry).SpendsReadable tx := by
    have hnone : ∀ tx ∈ restakeBlock.vtx, tx.hasZerocoinSpendInputs = false := by decide
    intro tx htx hspends
    rw [hnone tx htx] at hspends
    cases hspends
  exact (disconnectBlock_restores_iff (by decide) (by decide) (by decide)
    (wf_oneEntryView wf_paymentEntry) (fun _ => le_refl _) hr rfl rfl).mpr ⟨hread, hkeep⟩

/-- A staked coinstake, marker included, comes back as an ordinary transaction. -/
theorem restaked_coinstake_loses_flag : ∃ r d, (entryNode stakeEntry).Accepts restakeBlock 400
        (oneEntryState stakeEntry) r ∧
      (entryNode stakeEntry).disconnectBlock restakeBlock 400 r.vtxundo r.state = .ok d ∧
      (oneEntryView stakeEntry).lookup 7 = some stakeEntry ∧
      d.state.view.lookup 7 = some { stakeEntry with fCoinStake := false } ∧
      d.state.view.lookup 7 ≠ (oneEntryView stakeEntry).lookup 7 := by
  have hrun : (roundTrip restakeBlock stakeEntry).map (fun d => d.state.view.lookup 7)
      = .ok (some { stakeEntry with fCoinStake := false }) := by
    decide +kernel
  obtain ⟨r, d, hr, hd, hback⟩ := roundTrip_eq_ok (by decide) hrun
  refine ⟨r, d, hr, hd, rfl, hback, ?_⟩
  rw [hback]
  decide

end PwrbCore
