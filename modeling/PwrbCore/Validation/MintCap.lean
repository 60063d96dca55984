/-
  Validation.MintCap — WHAT AN ACCEPTED BLOCK MAY MINT.

  `ConnectBlock` compares the value a block creates with the block value and the bet
  payouts, through `IsBlockValueValid`.  A node that is not synced has no budget data and
  makes no comparison in the first hundred blocks of a budget cycle
  (`unsynced_node_accepts_any_mint`); everywhere else the cap holds unless the height is a
  budget payment height with superblocks enabled (`connectBlock_mint_le`).
-/
import PwrbCore.Validation.Reorg

namespace PwrbCore

open Checked NodeEnv

def NodeEnv.Indexed (env : NodeEnv) (block : CBlock) (nHeight : Int) : Prop :=
  ∃ tip, env.chain.getLast? = some tip ∧ env.heightOnIndex tip block = nHeight

/-- The node has budget data, or the height is outside the first hundred of a cycle. -/
def NodeEnv.ComparesValue (env : NodeEnv) (nHeight : Int) : Prop :=
  env.loc.synced = true ∨ 100 ≤ nHeight.tmod env.params.nBudgetCycleBlocks

/-- The node pays a budget at the height. -/
def NodeEnv.PaysBudget (env : NodeEnv) (nHeight : Int) : Prop :=
  env.loc.synced = true ∧ env.loc.isSporkActive .enableSuperblocks = true ∧ env.loc.isBudgetPaymentBlock nHeight = true

theorem NodeEnv.valueUnchecked_iff (env : NodeEnv) (nHeight : Int) :
    env.valueUnchecked nHeight = true ↔ ¬ env.ComparesValue nHeight ∨ env.PaysBudget nHeight := by
  unfold valueUnchecked NodeEnv.ComparesValue NodeEnv.PaysBudget
  cases env.loc.synced with
  | true => simp
  | false => simp_all

variable {env : NodeEnv} {nHeight nPayout : Int} {block : CBlock}

/-- A block with no scheduled payment is none that pays a budget. -/
theorem NodeEnv.not_paysBudget_of_none
    (h : ∀ b ∈ env.loc.mapFinalizedBudgets, b.coversHeight nHeight = false) : ¬ env.PaysBudget nHeight := by
  intro hpays
  have hnone := LocalState.isBudgetPaymentBlock_of_none h
  rw [hpays.2.2] at hnone
  cases hnone

/-- The payout section adds the total of a payout vector, from the sources at hand or after the download. -/
theorem checkPayouts_total {env : BetEnv} {sources downloaded : ResultSources} {chain : List CBlock} {height : Int}
    (h : checkPayouts env sources downloaded chain block height = .accepted nPayout) :
    ∃ used due, (used = sources ∨ used = downloaded) ∧ getBetPayouts env used chain height = some due ∧
      nPayout = (getBlockPayouts env.params due).1 := by
  unfold checkPayouts at h
  grind

theorem NodeEnv.payoutMint_eq_ok (h : env.payoutMint block nHeight = .ok nPayout) :
    ∃ used due, (used = env.loc.sources ∨ used = env.loc.downloaded) ∧
      getBetPayouts env.betEnv used env.chain nHeight = some due ∧ nPayout = (getBlockPayouts env.params due).1 := by
  unfold payoutMint at h
  split at h
  next hverdict =>
      cases h
      exact checkPayouts_total hverdict
  next => cases h
  next => cases h

theorem ConnectBlockOk.mint_le {st : ChainState} {r : Connected} (ok : ConnectBlockOk env block nHeight st r)
    (hindexed : env.Indexed block nHeight) (hcompares : env.ComparesValue nHeight)
    (hbudget : ¬ env.PaysBudget nHeight) :
    ok.acc.nMint ≤ expectedMint block nHeight + ok.nPayout := by
  obtain ⟨tip, htip, hheight⟩ := hindexed
  have hvalue := (env.isBlockValueValid_iff htip _ _).mp ok.value
  rw [hheight, env.valueUnchecked_iff] at hvalue
  rcases hvalue with (hskip | hpays) | hle
  · exact absurd hcompares hskip
  · exact absurd hpays hbudget
  · exact hle

/-- A block that creates more than a comparing node allows is refused. -/
theorem NodeEnv.connectBlock_ne_ok_of_mint
    {st : ChainState} {acc : ConnectAcc} {fAlreadyChecked : Bool} (hindexed : env.Indexed block nHeight)
    (hcompares : env.ComparesValue nHeight) (hbudget : ¬ env.PaysBudget nHeight)
    (hgenesis : block.hash ≠ env.params.hashGenesisBlock)
    (hloop : block.vtx.foldlM (env.connectTx block nHeight) { view := st.view } = .ok acc)
    (hpayout : env.payoutMint block nHeight = .ok nPayout)
    (hmint : expectedMint block nHeight + nPayout < acc.nMint) (r : Connected) :
    env.connectBlock block nHeight st false fAlreadyChecked ≠ .ok r := by
  intro hr
  obtain ⟨ok⟩ := env.connectBlock_eq_ok hgenesis hr
  have hle := ok.mint_le hindexed hcompares hbudget
  rw [Except.ok.inj (ok.loop.symm.trans hloop), Except.ok.inj (ok.payout.symm.trans hpayout)] at hle
  omega

/-- **Mint cap.**  For every node state and every accepted block, with the accumulated values of
its transactions and the payout vector of its height: the value created is at most the block
value plus the total of the payouts, provided that the node compares values at the height and
pays no budget there.  No budget is paid where none is scheduled. -/
theorem connectBlock_mint_le {env : NodeEnv} {block : CBlock} {nHeight : Int} {st : ChainState}
    {r : Connected} (hindexed : env.Indexed block nHeight) (haccepts : env.Accepts block nHeight st r) :
    ∃ acc used due, block.vtx.foldlM (env.connectTx block nHeight) { view := st.view } = .ok acc ∧
      (used = env.loc.sources ∨ used = env.loc.downloaded) ∧
      getBetPayouts env.betEnv used env.chain nHeight = some due ∧
      (env.ComparesValue nHeight → ¬ env.PaysBudget nHeight → acc.nValueOut - acc.nValueIn + acc.nFees
          ≤ getBlockValue nHeight + (if block.isProofOfWork then 100000 else 0) + (getBlockPayouts env.params due).1) ∧
      ((∀ b ∈ env.loc.mapFinalizedBudgets, b.coversHeight nHeight = false) → ¬ env.PaysBudget nHeight) := by
  obtain ⟨ok⟩ := haccepts.ok
  obtain ⟨used, due, hused, hdue, hpayout⟩ := payoutMint_eq_ok ok.payout
  exact ⟨ok.acc, used, due, ok.loop, hused, hdue,
    fun hcompares hbudget => hpayout ▸ ok.mint_le hindexed hcompares hbudget, not_paysBudget_of_none⟩

/-- A staked block of a synced node creates one coin, which is the block value. -/
theorem staked_block_mints_block_value : ∃ r, (entryNode paymentEntry).Accepts restakeBlock 400
        (oneEntryState paymentEntry) r ∧ ∃ acc used due, restakeBlock.vtx.foldlM
          ((entryNode paymentEntry).connectTx restakeBlock 400)
          { view := oneEntryView paymentEntry } = .ok acc ∧ (used = plainLocal.sources ∨ used = plainLocal.downloaded) ∧
        getBetPayouts (entryNode paymentEntry).betEnv used
          (entryNode paymentEntry).chain 400 = some due ∧
        acc.nValueOut - acc.nValueIn + acc.nFees ≤ getBlockValue 400 + 0 + (getBlockPayouts .mainNet due).1 := by
  have hrun : (roundTrip restakeBlock paymentEntry).map (fun _ => ()) = .ok () := by decide +kernel
  obtain ⟨r, -, hr, -, -⟩ := roundTrip_eq_ok (by decide) hrun
  have hindexed : (entryNode paymentEntry).Indexed restakeBlock 400 :=
    ⟨plainTip, by decide +kernel, by decide +kernel⟩
  obtain ⟨acc, used, due, hloop, hused, hdue, hcap, hnone⟩ := connectBlock_mint_le hindexed hr
  exact ⟨r, hr, acc, used, due, hloop, hused, hdue, hcap (.inl rfl) (hnone nofun)⟩

def unsyncedNode (height : Nat) : NodeEnv :=
  { plainNode height ⟨fun _ => none, 900⟩ with loc := { plainLocal with synced := false } }

def overmintBlock : CBlock :=
  { hash := 901
    hashPrevBlock := 900
    nTime := 1602000015
    vtx := [
      { hash := 40
        vin := [coinbaseIn]
        vout := [⟨1000000 * COIN, payTo 9⟩] }] }

def overmintState : ChainState := ⟨⟨fun _ => none, 900⟩, 0, fun _ => 0⟩

/-- **No cap without budget data**: at height 50, with no budget scheduled, the unsynced node
connects the block. -/
theorem unsynced_node_accepts_any_mint :
    (unsyncedNode 50).loc.mapFinalizedBudgets = [] ∧ (unsyncedNode 50).Indexed overmintBlock 50 ∧
    ∃ r acc, (unsyncedNode 50).Accepts overmintBlock 50 overmintState r ∧
      overmintBlock.vtx.foldlM ((unsyncedNode 50).connectTx overmintBlock 50)
        { view := overmintState.view } = .ok acc ∧ (unsyncedNode 50).payoutMint overmintBlock 50 = .ok 0 ∧
      acc.nValueOut - acc.nValueIn + acc.nFees = 1000000 * COIN ∧ getBlockValue 50 + 100000 + 0 < 1000000 * COIN := by
  refine ⟨rfl, ⟨plainTip, by decide +kernel, by decide +kernel⟩, ?_⟩
  have hconnect : ((unsyncedNode 50).connectBlock overmintBlock 50 overmintState false false).isOk
      = true := by decide +kernel
  have hmint : (overmintBlock.vtx.foldlM ((unsyncedNode 50).connectTx overmintBlock 50)
      { view := overmintState.view }).map ConnectAcc.nMint = .ok (1000000 * COIN) := by
    decide +kernel
  obtain ⟨r, hr⟩ := exists_ok_of_isOk hconnect
  obtain ⟨acc, hacc, hvalue⟩ := exists_ok_of_map hmint
  have hgenesis : overmintBlock.hash ≠ ConsensusParams.mainNet.hashGenesisBlock := by decide
  exact ⟨r, acc, ⟨hgenesis, false, fun h => Bool.noConfusion h, hr⟩, hacc, by decide +kernel, hvalue, by decide⟩

end PwrbCore
