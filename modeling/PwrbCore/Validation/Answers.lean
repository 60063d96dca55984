/-
  Validation.Answers — THE ANSWERS A VERDICT DEPENDS ON.

  `ConnectBlock` reads the node in a few places only: lookups of old transactions, locks, votes
  and budgets, sporks, draw results.  Two nodes of one network that answer alike in those
  places treat the block alike, whatever else differs (`SameAnswers.connectBlock`).
-/
import PwrbCore.Validation.ConnectBlock

namespace PwrbCore

open Checked NodeEnv

/-! ## §1. The places. -/

variable {tx : CTransaction}

/-- The two nodes give the same answers for the block at the height. -/
structure SameAnswers (env env' : NodeEnv) (block : CBlock) (nHeight : Int) : Prop where
  params : env.params = env'.params
  crypto : env.crypto = env'.crypto
  /-- transaction locks -/
  locks : env.loc.checkLocks block = env'.loc.checkLocks block
  /-- cold stakes, masternode and budget payees -/
  payments : env.checkPayments block = env'.checkPayments block
  /-- zerocoin spends in `CheckTransaction` -/
  zerocoinSpends : ∀ tx ∈ block.vtx, tx.hasZerocoinSpendInputs = true →
    env.checkZerocoinSpend tx = env'.checkZerocoinSpend tx
  /-- zerocoin spends in `CheckBlock` -/
  versionedSpends : ∀ tx ∈ block.vtx, tx.hasZerocoinSpendInputs = true → ∀ txin ∈ tx.vin,
    env.versionedSpend tx txin = env'.versionedSpend tx txin
  /-- the maintenance spork -/
  maintenance : ∀ tx ∈ block.vtx, tx.containsZerocoins = true →
    (env.loc.sporkValue .zerocoinMaintenanceMode < block.nTime ∧ env.loc.initialBlockDownload = false ↔
      env'.loc.sporkValue .zerocoinMaintenanceMode < block.nTime ∧ env'.loc.initialBlockDownload = false)
  /-- zerocoin spends in `ConnectBlock` -/
  connectSpends : ∀ tx ∈ block.vtx, tx.hasZerocoinSpendInputs = true →
    env.connectSpends tx nHeight = env'.connectSpends tx nHeight
  /-- whether scripts are run, and on which thread -/
  scripts : env.fScriptChecks nHeight = env'.fScriptChecks nHeight
  threads : env.loc.scriptCheckThreads = env'.loc.scriptCheckThreads
  /-- bet payouts -/
  payout : env.payoutMint block nHeight = env'.payoutMint block nHeight
  /-- the budget schedule -/
  value : ∀ nExpectedValue nMinted, env.isBlockValueValid block nExpectedValue nMinted
    = env'.isBlockValueValid block nExpectedValue nMinted
  /-- the value locked at the height -/
  locked : env.lockedValue nHeight = env'.lockedValue nHeight

namespace SameAnswers

variable {env env' : NodeEnv} {block : CBlock} {nHeight : Int}

/-! ## §2. `CheckBlock`. -/

section

variable (h : SameAnswers env env' block nHeight)

include h

theorem checkTransaction (htx : tx ∈ block.vtx) (fZerocoinActive fColdStakingActive : Bool) :
    env.checkTransaction tx fZerocoinActive fColdStakingActive
      = env'.checkTransaction tx fZerocoinActive fColdStakingActive := by
  have hspends : env.checkOnlySpends tx = env'.checkOnlySpends tx := by
    unfold checkOnlySpends
    split_ifs with hzc
    · rw [h.zerocoinSpends tx htx hzc]
    · rfl
  have hpart : ∀ n, env.checkZerocoinPart tx fZerocoinActive n
      = env'.checkZerocoinPart tx fZerocoinActive n := by
    intro n
    unfold checkZerocoinPart
    rw [hspends, h.params]
  unfold NodeEnv.checkTransaction
  simp only [hpart, h.params, h.crypto]

theorem checkBlock (fCheckMerkleRoot : Bool) :
    env.checkBlock block fCheckMerkleRoot = env'.checkBlock block fCheckMerkleRoot := by
  have hloop : ∀ fZerocoinActive fColdStakingActive,
      block.vtx.foldlM (env.checkBlockTx fZerocoinActive fColdStakingActive) []
        = block.vtx.foldlM (env'.checkBlockTx fZerocoinActive fColdStakingActive) [] := by
    intro fZerocoinActive fColdStakingActive
    refine foldlM_congr (fun tx htx serials => ?_) []
    unfold checkBlockTx
    rw [h.checkTransaction htx]
    congr 1
    funext _
    split_ifs with hzc
    · refine foldlM_congr (fun txin htxin s => ?_) serials
      unfold checkBlockSerial
      rw [h.versionedSpends tx htx hzc txin htxin]
    · rfl
  unfold NodeEnv.checkBlock
  simp only [hloop, h.params, h.crypto, h.locks, h.payments]

/-! ## §3. `ConnectBlock`. -/

theorem connectTx (htx : tx ∈ block.vtx)
    (acc : ConnectAcc) : env.connectTx block nHeight acc tx = env'.connectTx block nHeight acc tx := by
  have hinputs : ∀ view nSigOps, env.txInputs tx view nHeight nSigOps
      = env'.txInputs tx view nHeight nSigOps := by
    intro view nSigOps
    have hflags : env.blockScriptFlags nHeight = env'.blockScriptFlags nHeight := by
      unfold blockScriptFlags
      rw [h.scripts, h.params]
    unfold txInputs
    split_ifs with hzc
    · exact h.connectSpends tx htx hzc
    · unfold connectInputs checkInputs
      rw [h.params, h.crypto, h.scripts, h.threads, hflags]
    · rfl
  have hmaintenance : (env.loc.sporkValue .zerocoinMaintenanceMode < block.nTime
        ∧ env.loc.initialBlockDownload = false ∧ tx.containsZerocoins = true)
      ↔ (env'.loc.sporkValue .zerocoinMaintenanceMode < block.nTime
        ∧ env'.loc.initialBlockDownload = false ∧ tx.containsZerocoins = true) := by
    rw [← and_assoc, ← and_assoc]
    exact and_congr_left (h.maintenance tx htx)
  unfold NodeEnv.connectTx
  simp only [hinputs, hmaintenance, h.params]

/-- **The same answers, the same result.** -/
theorem connectBlock (st : ChainState) (fJustCheck fAlreadyChecked : Bool) :
    env.connectBlock block nHeight st fJustCheck fAlreadyChecked
      = env'.connectBlock block nHeight st fJustCheck fAlreadyChecked := by
  have hloop : ∀ acc, block.vtx.foldlM (env.connectTx block nHeight) acc
      = block.vtx.foldlM (env'.connectTx block nHeight) acc :=
    fun acc => foldlM_congr (fun tx htx acc => h.connectTx htx acc) acc
  have hrecheck : env.recheckBlock block fJustCheck fAlreadyChecked
      = env'.recheckBlock block fJustCheck fAlreadyChecked := by
    unfold recheckBlock
    rw [h.checkBlock]
  have htxs : env.connectTxs block nHeight st.view = env'.connectTxs block nHeight st.view := by
    unfold connectTxs
    simp only [hloop, h.params, h.payout, h.value]
  have hsupply : env.connectSupply block nHeight st.mapZerocoinSupply
      = env'.connectSupply block nHeight st.mapZerocoinSupply := by
    unfold connectSupply
    rw [h.params, h.crypto]
  unfold NodeEnv.connectBlock
  simp only [hrecheck, htxs, hsupply, h.params, h.locked]

end

end SameAnswers

end PwrbCore
