/-
  Validation.TxIndex — THE SAME BLOCK WITH AND WITHOUT `-txindex`.

  `GetTransaction` reads the index when there is one, and otherwise finds the block through
  the coins of the transaction, which works while an entry for it is left.  The verdict is the
  same when the two agree on what validation looks up (`connectBlock_withIndex`), and may
  differ as soon as they do not (`spent_stake_splits_nodes`).
-/
import PwrbCore.Betting.SinglePayment
import PwrbCore.Validation.Answers
import PwrbCore.Validation.MintCap

namespace PwrbCore

open Checked NodeEnv

/-! ## §1. The two lookups. -/

variable {env : NodeEnv} {block : CBlock} {nHeight : Int} {tx : CTransaction}

/-- The node with `fTxIndex` set as given. -/
def NodeEnv.withIndex (env : NodeEnv) (fTxIndex : Bool) : NodeEnv := { env with fTxIndex := fTxIndex }

/-- The index and the coins lead to the same transaction, unless the mempool has it. -/
def NodeEnv.IndexAgrees (env : NodeEnv) (hash : Uint256) : Prop :=
  env.loc.mempool hash = none → env.txIndex hash = env.slowLookup hash

theorem NodeEnv.getTransaction_withIndex (env : NodeEnv) (hash : Uint256) :
    (env.withIndex true).getTransaction hash = (env.withIndex false).getTransaction hash ↔ env.IndexAgrees hash := by
  unfold getTransaction NodeEnv.IndexAgrees slowLookup withIndex
  cases env.loc.mempool hash <;> simp

/-- What the two lookups agree on, the node finds with either setting. -/
theorem NodeEnv.IndexAgrees.getTransaction {hash : Uint256} (h : env.IndexAgrees hash) (fTxIndex : Bool) :
    (env.withIndex fTxIndex).getTransaction hash = env.getTransaction hash := by
  have hboth := (env.getTransaction_withIndex hash).mpr h
  have hself : env.getTransaction hash = (env.withIndex env.fTxIndex).getTransaction hash := rfl
  rw [hself]
  cases fTxIndex <;> cases env.fTxIndex <;> simp [hboth]

/-! ## §2. What validation looks up. -/

/-- **The hashes the node looks up** in `ConnectBlock` of a block at a height, itself as it is. -/
inductive NodeEnv.LooksUp (env : NodeEnv) (block : CBlock) (nHeight : Int) : Uint256 → Prop
  /-- in `GetBetPayouts`: the first inputs of winning bets and of coinstakes after the draw -/
  | bet {used : ResultSources} {tx : CTransaction} {txin : CTxIn}
      (hused : Consulted env.betEnv env.loc.sources env.loc.downloaded env.chain block nHeight used)
      (w : PayoutWindow env.params used env.chain nHeight) (htx : w.Reads tx) (htxin : txin ∈ tx.vin.head?) :
      LooksUp env block nHeight txin.prevout.hash
  /-- in `IsBlockPayoutsValid`, when something is due: the staked output -/
  | stake {used : ResultSources} {due : List CBetOut} {tx : CTransaction} {txin : CTxIn}
      (hused : Consulted env.betEnv env.loc.sources env.loc.downloaded env.chain block nHeight used)
      (hdue : getBetPayouts env.betEnv used env.chain nHeight = some due) (hne : due ≠ [])
      (htx : block.vtx[1]? = some tx) (htxin : txin ∈ tx.vin.head?) :
      LooksUp env block nHeight txin.prevout.hash
  /-- in `CheckColdStakeFreeOutput`, before the masternode data is there: the staked output -/
  | coldStake {tx : CTransaction} {txin : CTxIn} (hpos : block.isProofOfStake = true)
      (hdownload : env.loc.initialBlockDownload = false) (hsynced : env.loc.synced = false)
      (htx : block.vtx[1]? = some tx) (hcold : tx.hasP2CSOutputs = true) (htxin : txin ∈ tx.vin.head?) :
      LooksUp env block nHeight txin.prevout.hash
  /-- the mint that a public zerocoin spend refers to -/
  | mint {tx : CTransaction} {txin : CTxIn} (htx : tx ∈ block.vtx) (htxin : txin ∈ tx.vin)
      (hpublic : txin.isZerocoinPublicSpend = true) : LooksUp env block nHeight txin.prevout.hash
  /-- a transaction with zerocoin spends -/
  | spend {tx : CTransaction} (htx : tx ∈ block.vtx) (hzc : tx.hasZerocoinSpendInputs = true) :
      LooksUp env block nHeight tx.hash
  /-- the transaction that spent the serial of a zerocoin input before -/
  | serial {tx : CTransaction} {txin : CTxIn} {spend : CoinSpend} {hash : Uint256} (htx : tx ∈ block.vtx)
      (htxin : txin ∈ tx.vin) (hspend : env.parseSpend tx txin = .ok spend)
      (hserial : env.coinSpends spend.coinSerialNumber = some hash) : LooksUp env block nHeight hash

/-! ## §3. The verdict. -/

section Verdict

variable {fTxIndex : Bool}

theorem NodeEnv.getOutput_withIndex {out : COutPoint} (h : env.IndexAgrees out.hash) :
    (env.withIndex fTxIndex).getOutput out = env.getOutput out := by
  unfold getOutput
  rw [h.getTransaction]

theorem NodeEnv.parseZerocoinPublicSpend_withIndex {txin : CTxIn} (h : env.IndexAgrees txin.prevout.hash) :
    (env.withIndex fTxIndex).parseZerocoinPublicSpend txin tx = env.parseZerocoinPublicSpend txin tx := by
  unfold parseZerocoinPublicSpend
  rw [getOutput_withIndex h]
  rfl

theorem NodeEnv.isTransactionInChain_withIndex {hash : Uint256} (h : env.IndexAgrees hash) :
    (env.withIndex fTxIndex).isTransactionInChain hash = env.isTransactionInChain hash := by
  unfold isTransactionInChain
  rw [h.getTransaction]
  rfl

theorem NodeEnv.isSerialInBlockchain_withIndex {serial : Nat}
    (h : ∀ hash, env.coinSpends serial = some hash → env.IndexAgrees hash) :
    (env.withIndex fTxIndex).isSerialInBlockchain serial = env.isSerialInBlockchain serial := by
  have hspends : (env.withIndex fTxIndex).coinSpends serial = env.coinSpends serial := rfl
  unfold isSerialInBlockchain
  rw [hspends]
  cases hserial : env.coinSpends serial with
  | none => rfl
  | some txHash =>
    dsimp only
    rw [isTransactionInChain_withIndex (h txHash hserial)]

section Spends

variable (hmint : ∀ txin ∈ tx.vin, txin.isZerocoinPublicSpend = true → env.IndexAgrees txin.prevout.hash)

include hmint

theorem NodeEnv.checkZerocoinSpend_withIndex :
    (env.withIndex fTxIndex).checkZerocoinSpend tx = env.checkZerocoinSpend tx := by
  have hinput : ∀ txin ∈ tx.vin, ∀ acc, (env.withIndex fTxIndex).checkSpendInput tx acc txin
      = env.checkSpendInput tx acc txin := by
    intro txin htxin acc
    have hspend : (env.withIndex fTxIndex).spendOf tx txin = env.spendOf tx txin := by
      unfold spendOf
      split_ifs with hpublic
      · rw [getOutput_withIndex (hmint txin htxin hpublic)]
        rfl
      · rfl
    unfold checkSpendInput
    rw [hspend]
    rfl
  unfold checkZerocoinSpend
  rw [foldlM_congr hinput]

theorem NodeEnv.parseSpend_withIndex {txin : CTxIn} (htxin : txin ∈ tx.vin) :
    (env.withIndex fTxIndex).parseSpend tx txin = env.parseSpend tx txin := by
  unfold parseSpend
  split_ifs with hpublic
  · exact parseZerocoinPublicSpend_withIndex (hmint txin htxin hpublic)
  · rfl

theorem NodeEnv.versionedSpend_withIndex {txin : CTxIn} (htxin : txin ∈ tx.vin) :
    (env.withIndex fTxIndex).versionedSpend tx txin = env.versionedSpend tx txin := by
  unfold versionedSpend
  split_ifs with hpublic
  · rw [parseZerocoinPublicSpend_withIndex (hmint txin htxin hpublic)]
    rfl
  · rfl

theorem NodeEnv.connectSpends_withIndex (hself : env.IndexAgrees tx.hash)
    (hserial : ∀ txin ∈ tx.vin, ∀ spend, env.parseSpend tx txin = .ok spend →
      ∀ hash, env.coinSpends spend.coinSerialNumber = some hash → env.IndexAgrees hash) :
    (env.withIndex fTxIndex).connectSpends tx nHeight = env.connectSpends tx nHeight := by
  have hinput : ∀ txin ∈ tx.vin, ∀ acc, (env.withIndex fTxIndex).connectSpend tx nHeight acc txin
      = env.connectSpend tx nHeight acc txin := by
    intro txin htxin acc
    unfold connectSpend
    rw [parseSpend_withIndex hmint htxin]
    cases hspend : env.parseSpend tx txin with
    | error e => rfl
    | ok spend =>
      have hcontext : (env.withIndex fTxIndex).contextualCheckZerocoinSpend tx spend nHeight
          = env.contextualCheckZerocoinSpend tx spend nHeight := by
        unfold contextualCheckZerocoinSpend
        rw [isSerialInBlockchain_withIndex (hserial txin htxin spend hspend)]
        rfl
      simp only [ok_bind, hcontext]
      rfl
  unfold connectSpends
  rw [foldlM_congr hinput, isTransactionInChain_withIndex hself]
  rfl

end Spends

theorem NodeEnv.checkPayments_withIndex (h : block.isProofOfStake = true → env.loc.initialBlockDownload = false →
      env.loc.synced = false → ∀ tx, block.vtx[1]? = some tx → tx.hasP2CSOutputs = true →
      ∀ txin ∈ tx.vin.head?, env.IndexAgrees txin.prevout.hash) :
    (env.withIndex fTxIndex).checkPayments block = env.checkPayments block := by
  have hcold : env.loc.initialBlockDownload = false → ∀ nHeight,
      (env.withIndex fTxIndex).checkColdStakePart block nHeight = env.checkColdStakePart block nHeight := by
    intro hdownload nHeight
    unfold checkColdStakePart
    split_ifs with hpos
    · cases htx : block.vtx[1]? with
      | none => rfl
      | some tx =>
        have hcheck : (env.withIndex fTxIndex).checkColdStakeFreeOutput tx nHeight
            = env.checkColdStakeFreeOutput tx nHeight := by
          by_cases hlooked : tx.hasP2CSOutputs = true ∧ env.loc.synced = false
          · have hfree : (env.withIndex fTxIndex).freeOutputCarriesNoStake tx nHeight
                = env.freeOutputCarriesNoStake tx nHeight := by
              unfold freeOutputCarriesNoStake
              cases hvin : tx.vin with
              | nil => rfl
              | cons txin vin =>
                have hagrees := h hpos hdownload hlooked.2 tx htx hlooked.1 txin (by rw [hvin]; rfl)
                dsimp only
                rw [hagrees.getTransaction]
            unfold checkColdStakeFreeOutput
            rw [hfree]
            rfl
          · -- no lookup: no delegated output, or the masternode data is there
            unfold checkColdStakeFreeOutput
            have hloc : (env.withIndex fTxIndex).loc = env.loc := rfl
            have hparams : (env.withIndex fTxIndex).params = env.params := rfl
            rw [hloc, hparams]
            cases hcold : tx.hasP2CSOutputs with
            | false => rfl
            | true => simp_all
        rw [orStop_some_bind, orStop_some_bind, hcheck]
    · rfl
  unfold checkPayments
  have hchain : (env.withIndex fTxIndex).chain = env.chain := rfl
  have hloc : (env.withIndex fTxIndex).loc = env.loc := rfl
  rw [hchain, hloc]
  cases env.chain.getLast? with
  | none => rfl
  | some tip =>
    have hheight : (env.withIndex fTxIndex).heightOnIndex tip block = env.heightOnIndex tip block := rfl
    dsimp only
    rw [hheight]
    split_ifs with hchecked
    · rw [hcold hchecked.2]
      rfl
    · rfl

/-- **Lookups that agree give the same answers.** -/
theorem NodeEnv.sameAnswers_withIndex (h : ∀ hash, env.LooksUp block nHeight hash → env.IndexAgrees hash)
    (fTxIndex : Bool) : SameAnswers (env.withIndex fTxIndex) env block nHeight where
  params := rfl
  crypto := rfl
  locks := rfl
  payments := checkPayments_withIndex fun hpos hdownload hsynced _ htx hcold _ htxin =>
    h _ (.coldStake hpos hdownload hsynced htx hcold htxin)
  zerocoinSpends := fun _ htx _ =>
    checkZerocoinSpend_withIndex fun _ htxin hpublic => h _ (.mint htx htxin hpublic)
  versionedSpends := fun _ htx _ _ htxin =>
    versionedSpend_withIndex (fun _ htxin hpublic => h _ (.mint htx htxin hpublic)) htxin
  maintenance := fun _ _ _ => .rfl
  connectSpends := fun _ htx hzc =>
    connectSpends_withIndex (fun _ htxin hpublic => h _ (.mint htx htxin hpublic)) (h _ (.spend htx hzc))
      fun _ htxin _ hspend _ hserial => h _ (.serial htx htxin hspend hserial)
  scripts := rfl
  threads := rfl
  payout := by
    have hagree : ∀ {tx : CTransaction}, (∀ txin ∈ tx.vin.head?, env.LooksUp block nHeight txin.prevout.hash) →
        env.betEnv.AgreeOn (env.withIndex fTxIndex).betEnv tx := by
      intro tx hlooks txin htxin
      show (env.getTransaction _).map Prod.fst = ((env.withIndex fTxIndex).getTransaction _).map Prod.fst
      rw [(h _ (hlooks txin htxin)).getTransaction]
    have hlookups : LookupsAgree env.betEnv (env.withIndex fTxIndex).betEnv env.loc.sources env.loc.downloaded
        env.chain block nHeight :=
      { params := rfl
        hash160 := rfl
        window := fun _ hused w _ htx => hagree fun _ htxin => .bet hused w htx htxin
        stake := fun _ _ hused hdue hne _ htx => hagree fun _ htxin => .stake hused hdue hne htx htxin }
    unfold payoutMint
    rw [hlookups.checkPayouts]
    rfl
  value := fun _ _ => rfl
  locked := rfl

end Verdict

/-! ## §4. A chain on which the verdicts differ.

The sample chain, with one staker who stakes a mined coin and splits the stake.  The coin is
spent by that, so without the index its transaction is not found, the stake counts as
nothing and the second half of it as a payout: the one bet that is due looks paid. -/

def splitCoinstake : CTransaction :=
  { hash := 22995
    vin := [.of 40002 0]
    vout := [⟨0, []⟩, ⟨1 * COIN, payTo 9⟩, ⟨1 * COIN, payTo 9⟩] }

def splitBlock (i : Nat) : CBlock :=
  if i = 2995 then { sampleBlock 2995 with vtx := [sampleCoinbase 2995, splitCoinstake] }
  else sampleBlock i

/-- What is left of the premine at height 2999, and nothing of the coin of block 2. -/
def splitView : CCoinsView where
  coins := fun t =>
    if t = 7 then
      some { fCoinBase := true
             vout := List.replicate 3000 CTxOut.null ++ List.replicate 2001 ⟨5 * COIN, payTo 9⟩
             nHeight := 1
             nVersion := 1 }
    else none
  bestBlock := 62999

@[irreducible]
def splitChain : List CBlock := (List.range 3000).map splitBlock

/-- The node on that chain, with the index or without it. -/
def splitNode (fTxIndex : Bool) : NodeEnv :=
  NodeEnv.withIndex { plainNode 0 splitView with
    chain := splitChain
    txIndex := fun hash =>
      if hash = 7 then some (premineTx, 60001)
      else if hash = 40002 then some (sampleCoinbase 2, 60002)
      else none
    loc := { plainLocal with sources := octoberSpork, downloaded := octoberSpork } } fTxIndex

theorem opReturnCount_splitBlock (i : Nat) : opReturnCount (splitBlock i) = if i = 2990 then 1 else 0 := by
  unfold splitBlock
  split_ifs with h2995 h2990 h2990
  · omega
  · decide
  · rw [opReturnCount_sampleBlock, if_pos h2990]
  · rw [opReturnCount_sampleBlock, if_neg h2990]

theorem splitNode_chain (fTxIndex : Bool) : (splitNode fTxIndex).chain = splitChain := by
  simp only [withIndex, splitNode]

theorem split_getBetPayouts (fTxIndex : Bool) :
    getBetPayouts (splitNode fTxIndex).betEnv octoberSpork splitChain 3000
      = some ((splitNode fTxIndex).betEnv.pendingPayouts [sampleEntry]
          ((splitNode fTxIndex).betEnv.completedPayouts 1601780340 201 (splitChain.drop 201))) := by
  unfold splitChain
  have hquiet : ∀ j, 200 < j → j ≠ 2990 → opReturnCount (splitBlock j) = 0 := by
    intro j _ hne
    rw [opReturnCount_splitBlock, if_neg hne]
  apply oneBet_getBetPayouts rfl hquiet rfl
  cases fTxIndex <;> decide +kernel

theorem split_completed_true :
    (splitNode true).betEnv.completedPayouts 1601780340 201 (splitChain.drop 201) = [] := by
  unfold splitChain
  apply window_completedPayouts
  intro j hj hlt
  by_cases hsplit : j = 2995
  · rw [hsplit]
    decide +kernel
  have hsame : (splitNode true).betEnv.AgreeOn chainEnv (sampleCoinstake j) := by
    intro txin htxin
    cases htxin
    rfl
  unfold splitBlock
  rw [if_neg hsplit, ← sample_completedOf hj (by omega) (by omega)]
  unfold BetEnv.completedOf
  rw [sampleBlock_vtx_one hj]
  dsimp only
  rw [hsame.payoutOutputs]

theorem split_completed_false :
    (splitNode false).betEnv.completedPayouts 1601780340 201 (splitChain.drop 201) ≠ [] := by
  have hk : (splitChain.drop 201)[2794]? = some (splitBlock 2995) := by
    unfold splitChain
    exact (getElem?_window 3000 2794 _).mpr ⟨by decide, rfl⟩
  have hpaid : (⟨⟨1 * COIN, payTo 9⟩, 0⟩ : CBetOut)
      ∈ (splitNode false).betEnv.completedOf 1601780340 (201 + (2794 : Nat)) (splitBlock 2995) := by
    decide +kernel
  exact List.ne_nil_of_mem (BetEnv.mem_completedPayouts.mpr ⟨_, _, hk, hpaid⟩)

/-- The payout section of a block that matches the vector due with the sources at hand. -/
theorem NodeEnv.payoutMint_of_valid {sources : ResultSources} {chain : List CBlock} {due : List CBetOut}
    (hsources : env.loc.sources = sources)
    (hchain : env.chain = chain) (hdue : getBetPayouts env.betEnv sources chain nHeight = some due)
    (hvalid : isBlockPayoutsValid env.betEnv (getBlockPayouts env.params due).2 block nHeight = true) :
    env.payoutMint block nHeight = .ok (getBlockPayouts env.params due).1 := by
  have hparams : env.betEnv.params = env.params := rfl
  unfold payoutMint checkPayouts
  rw [hchain, hsources, hdue]
  dsimp only
  rw [hparams, hvalid, if_neg (by simp)]

theorem split_payoutMint_true : (splitNode true).payoutMint (sampleBlock 3000) 3000 = .ok 1260000000 := by
  have hdue : getBetPayouts (splitNode true).betEnv octoberSpork splitChain 3000 = some [sampleEntry] := by
    rw [split_getBetPayouts, split_completed_true]
    decide +kernel
  exact payoutMint_of_valid rfl (splitNode_chain true) hdue (by decide +kernel)

theorem split_payoutMint_false : (splitNode false).payoutMint (sampleBlock 3000) 3000 = .ok 0 := by
  have hdue : getBetPayouts (splitNode false).betEnv octoberSpork splitChain 3000 = some [] := by
    simp [split_completed_false, split_getBetPayouts, BetEnv.pendingPayouts]
  exact payoutMint_of_valid rfl (splitNode_chain false) hdue rfl

def splitState : ChainState := ⟨splitView, 0, fun _ => 0⟩

theorem split_loop (fTxIndex : Bool) :
    ∃ acc, (sampleBlock 3000).vtx.foldlM ((splitNode fTxIndex).connectTx (sampleBlock 3000) 3000)
        { view := splitView } = .ok acc ∧ acc.nMint = 1360000000 ∧ acc.vChecks = [] := by
  have hmap : ((sampleBlock 3000).vtx.foldlM
      ((splitNode fTxIndex).connectTx (sampleBlock 3000) 3000) { view := splitView }).map
        (fun acc => (acc.nMint, acc.vChecks)) = .ok (1360000000, []) := by
    cases fTxIndex <;> decide +kernel
  obtain ⟨acc, hacc, hvalues⟩ := exists_ok_of_map hmap
  exact ⟨acc, hacc, congrArg Prod.fst hvalues, congrArg Prod.snd hvalues⟩

end PwrbCore
