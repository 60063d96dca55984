/-
  Staking.StakeInputs — THE INPUTS OF A COINSTAKE, BEFORE ITS BLOCK IS STORED (`AcceptBlock` of `main.cpp`).

  A proof-of-stake block off the tip is looked at block by block down to the active chain: none of
  those blocks may spend what the coinstake spends.  The coins of the tip are asked as well, but
  their answer counts only for a block on top of the tip.  So a stored coinstake can spend what a
  shared ancestor has spent (`stored_stake_unspent_iff`, `shared_ancestor_spends`).
-/
import PwrbCore.Chain.Selection
import PwrbCore.Coins.Unspent
import PwrbCore.Staking.Kernel

namespace PwrbCore

open Checked ParentTree List NodeEnv CTransaction

variable {σ : Type}

/-! ## §1. The inputs and the block's own transactions. -/

/-- `pwrbInputs`: the inputs that spend an output. -/
def CTransaction.pwrbInputs (stake : CTransaction) : List CTxIn := stake.vin.filter fun txin => !txin.isZerocoinSpend

/-- `zPWRBInputs`: the inputs that spend a serial number. -/
def CTransaction.zPWRBInputs (stake : CTransaction) : List CTxIn := stake.vin.filter CTxIn.isZerocoinSpend

/-- The coinstake has an input with the same `prevout`. -/
def CTransaction.stakes (stake : CTransaction) (prevout : COutPoint) : Bool :=
  stake.pwrbInputs.any fun pwrbIn => decide (pwrbIn.prevout = prevout)

section

variable (env : NodeEnv)

/-- The serials of the block so far, with that of a zerocoin spend, which must be new. -/
def NodeEnv.noteSerial (nHeight : Int) (tx : CTransaction) (inBlockSerials : List Nat) (txin : CTxIn) :
    Validated (List Nat) :=
  if env.params.height_start_ZC ≤ nHeight ∧ (txin.isZerocoinSpend || txin.isZerocoinPublicSpend) = true then do
    require (checkPublicCoinSpendEnforced env.params nHeight txin.isZerocoinPublicSpend = true) .returned
    let spend ← env.parseSpend tx txin
    require (spend.coinSerialNumber ∉ inBlockSerials) (dos 100)
    return inBlockSerials ++ [spend.coinSerialNumber]
  else .ok inBlockSerials

/-- One input of the block at `nHeight`: no serial twice, no input of the coinstake twice. -/
def NodeEnv.checkInBlock (nHeight : Int) (stake tx : CTransaction) (inBlockSerials : List Nat)
    (txin : CTxIn) : Validated (List Nat) := do
  let serials ← env.noteSerial nHeight tx inBlockSerials txin
  require (tx.isCoinStake = true ∨ stake.stakes txin.prevout = false) .returned
  return serials

/-! ## §2. Down to the active chain. -/

/-- The serials of the fork so far, noted for a coinstake with zerocoin inputs only. -/
def NodeEnv.noteForkSerial (stake : CTransaction) (vBlockSerials : List Nat) (txin : CTxIn) : Validated (List Nat) :=
  if !stake.zPWRBInputs.isEmpty && txin.isZerocoinSpend then do
    let spend ← orStop (env.crypto.coinSpend txin) .thrown
    return vBlockSerials ++ [spend.coinSerialNumber]
  else .ok vBlockSerials

/-- One input of a block of the fork. -/
def NodeEnv.checkForkInput (stake : CTransaction) (vBlockSerials : List Nat) (txin : CTxIn) :
    Validated (List Nat) := do
  let serials ← env.noteForkSerial stake vBlockSerials txin
  require (stake.stakes txin.prevout = false) (dos 100)
  return serials

/-- The loop over the fork, from the parent on; `readBlock` blocks were read. It returns the first active block and
the serials spent above it. -/
def NodeEnv.walkFork (env : NodeEnv) (maxReorg : Int) (st : ChainGlobals σ) (stake : CTransaction) :
    List Uint256 → Nat → List Nat → Validated (Uint256 × List Nat)
  -- the genesis block is active, so that the loop does not get past it
  | [], _, _ => .error .thrown
  | prev :: rest, readBlock, vBlockSerials => do
    let bl ← orStop (st.readBlockFromDisk prev) .returned
    if st.contains prev then return (prev, vBlockSerials)
    else
      require ((readBlock + 1 : Int) ≠ maxReorg) .returned
      let serials ← (bl.vtx.flatMap CTransaction.vin).foldlM (env.checkForkInput stake) vBlockSerials
      env.walkFork maxReorg st stake rest (readBlock + 1) serials

/-- A zerocoin input of a coinstake on a fork that leaves the active chain at `splitHeight`. -/
def NodeEnv.checkForkSerial (stake : CTransaction) (nHeight : Int) (splitHeight : Nat)
    (vBlockSerials : List Nat) (zPwrbInput : CTxIn) : Validated Unit := do
  let spend ← orStop (env.crypto.coinSpend zPwrbInput) .thrown
  require (spend.coinSerialNumber ∉ vBlockSerials) (dos 100)
  require (∀ nHeightTx ∈ (env.coinSpends spend.coinSerialNumber).bind env.isTransactionInChain, splitHeight < nHeightTx)
    (dos 100)
  require (env.crypto.contextualCheckSpend stake spend nHeight = true) (dos 100 "bad-txns-invalid-zpwrb")

/-- The checks of a block that is not on top of the tip. -/
def NodeEnv.checkFork (maxReorg : Int) (st : ChainGlobals σ) (block : CBlock) (stake : CTransaction) :
    Validated Unit := do
  let split ← env.walkFork maxReorg st stake (st.path block.hashPrevBlock) 0 []
  stake.zPWRBInputs.foldlM (fun _ => env.checkForkSerial stake (st.height block.hash) (st.height split.1) split.2) ()

/-! ## §3. The coins of the tip. -/

/-- `isBlockFromFork`: the block has a parent, and it is not the tip. -/
def NodeEnv.isBlockFromFork (st : ChainGlobals σ) (block : CBlock) : Bool :=
  decide (block.hash ≠ env.params.hashGenesisBlock) && decide (st.tip ≠ some block.hashPrevBlock)

/-- The coin of an input; on a fork every answer is good. -/
def NodeEnv.checkStakeCoin (isBlockFromFork : Bool) (txin : CTxIn) : Validated Unit :=
  match env.coinsTip.accessCoins txin.prevout.hash with
  | none => require (isBlockFromFork = true) .returned
  | some coin => require (coin.isAvailable txin.prevout.n = true ∨ isBlockFromFork = true) .returned

/-- A zerocoin input of a coinstake on top of the tip. -/
def NodeEnv.checkTipSerial (stake : CTransaction) (nHeight : Int) (zPwrbInput : CTxIn) : Validated Unit := do
  let spend ← orStop (env.crypto.coinSpend zPwrbInput) .thrown
  require (env.contextualCheckZerocoinSpend stake spend nHeight = true) (dos 100 "bad-txns-invalid-zpwrb")

/-- The last check: coins, or serials for a coinstake with zerocoin spends. -/
def NodeEnv.checkStakeCoins (isBlockFromFork : Bool) (stake : CTransaction) (nHeight : Int) : Validated Unit :=
  if !stake.hasZerocoinSpendInputs then stake.vin.foldlM (fun _ => env.checkStakeCoin isBlockFromFork) ()
  else checkIf (!isBlockFromFork) (stake.zPWRBInputs.foldlM (fun _ => env.checkTipSerial stake nHeight) ())

/-- **What `AcceptBlock` asks of the inputs of a coinstake**, the header being known. -/
def NodeEnv.checkStakeInputs (maxReorg : Int) (st : ChainGlobals σ) (block : CBlock) : Validated Unit := do
  let stake ← orStop (block.vtx[1]?) .thrown
  let nHeight : Int := st.height block.hash
  let _ ← (block.vtx.flatMap fun tx => tx.vin.map fun txin => (tx, txin)).foldlM
    (fun inBlockSerials input => env.checkInBlock nHeight stake input.1 inBlockSerials input.2) []
  checkIf (env.isBlockFromFork st block) (env.checkFork maxReorg st block stake)
  env.checkStakeCoins (env.isBlockFromFork st block) stake nHeight

/-- What `CheckProofOfStake` reads of an index entry. -/
def ChainGlobals.stakeIndex (st : ChainGlobals σ) (h : Uint256) : Option StakeIndex :=
  (st.index h).map fun e => ⟨h, e.nHeight, e.header.nTime⟩

/-- The rules of a node that checks stakes itself; the other checks are given. -/
def NodeEnv.acceptRules (staking : StakingParams) (stakeRules : StakeRules) (rules : AcceptRules σ) : AcceptRules σ :=
  { rules with
    params := env.params
    checkProofOfStake := fun st block =>
      (st.stakeIndex block.hashPrevBlock).any fun pindexPrev =>
        decide (env.checkProofOfStake staking stakeRules block pindexPrev = .accepted)
    checkStakeInputs := env.checkStakeInputs rules.maxReorg }

end

/-! ## §4. What a stored block has passed. -/

variable {stake : CTransaction} {env : NodeEnv}

theorem CTransaction.stakes_eq_false {p : COutPoint} :
    stake.stakes p = false ↔ ∀ txin ∈ stake.vin, txin.isZerocoinSpend = false → txin.prevout ≠ p := by
  unfold stakes pwrbInputs
  simp

/-- **The fork.** The blocks of the walk are on disk and spend nothing that the coinstake spends. -/
theorem NodeEnv.walkFork_eq_ok {maxReorg : Int} {st : ChainGlobals σ}
    {l : List Uint256} {n : Nat} {serials : List Nat} {r : Uint256 × List Nat}
    (h : env.walkFork maxReorg st stake l n serials = .ok r) :
    ∀ a ∈ l.takeWhile fun a => !st.contains a, ∃ bl, st.readBlockFromDisk a = some bl ∧
      ∀ tx ∈ bl.vtx, ∀ txin ∈ tx.vin, stake.stakes txin.prevout = false := by
  induction l generalizing n serials with
  | nil => cases h
  | cons prev rest ih =>
    obtain ⟨bl, hbl, h⟩ := bind_eq_ok.mp h
    have hread : st.readBlockFromDisk prev = some bl := orStop_eq_ok.mp hbl
    by_cases hactive : st.contains prev = true
    · -- the walk ends here
      intro a ha
      rw [takeWhile_cons_of_neg (by simp [hactive])] at ha
      cases ha
    rw [if_neg hactive] at h
    obtain ⟨-, -, h⟩ := bind_eq_ok.mp h
    obtain ⟨serials', hscan, h⟩ := bind_eq_ok.mp h
    intro a ha
    rw [takeWhile_cons_of_pos (by simp [hactive])] at ha
    rcases mem_cons.mp ha with rfl | ha
    · refine ⟨bl, hread, fun tx htx txin htxin => ?_⟩
      obtain ⟨s1, s2, hstep⟩ := foldlM_forall_mem hscan txin (mem_flatMap.mpr ⟨tx, htx, htxin⟩)
      obtain ⟨_, -, hstep⟩ := bind_eq_ok.mp hstep
      obtain ⟨_, hnew, -⟩ := bind_eq_ok.mp hstep
      exact require_eq_ok.mp hnew
    · exact ih h a ha

/-- On top of the tip, a coinstake without zerocoin spends spends unspent coins. -/
theorem NodeEnv.checkStakeCoins_tip {nHeight : Int}
    (hzero : stake.hasZerocoinSpendInputs = false) (h : env.checkStakeCoins false stake nHeight = .ok ()) :
    ∀ txin ∈ stake.vin, ∃ o, env.coinsTip.unspent txin.prevout = some o := by
  intro txin htxin
  unfold checkStakeCoins at h
  rw [hzero, Bool.not_false] at h
  obtain ⟨-, u, hcoin⟩ := foldlM_forall_mem h txin htxin
  unfold checkStakeCoin at hcoin
  cases hc : env.coinsTip.accessCoins txin.prevout.hash with
  | none =>
    rw [hc] at hcoin
    exact absurd (require_eq_ok.mp hcoin) Bool.false_ne_true
  | some coin =>
    rw [hc] at hcoin
    have havail : coin.isAvailable txin.prevout.n = true := (require_eq_ok.mp hcoin).resolve_right Bool.false_ne_true
    unfold CCoins.isAvailable at havail
    cases ho : coin.vout[txin.prevout.n]? with
    | none =>
      rw [ho] at havail
      cases havail
    | some o =>
      have hnull : o.isNull = false := by simp_all
      exact ⟨o, CCoinsView.unspent_eq_some.mpr ⟨coin, hc, ho, hnull⟩⟩

/-- What the inputs of a coinstake have passed, by the place of its block. -/
theorem NodeEnv.checkStakeInputs_eq_ok {maxReorg : Int} {st : ChainGlobals σ} {block : CBlock}
    (hstake : block.vtx[1]? = some stake) (h : env.checkStakeInputs maxReorg st block = .ok ()) :
    (env.isBlockFromFork st block = true →
        ∃ r, env.walkFork maxReorg st stake (st.path block.hashPrevBlock) 0 [] = .ok r) ∧
      env.checkStakeCoins (env.isBlockFromFork st block) stake (st.height block.hash) = .ok () := by
  unfold checkStakeInputs at h
  rw [hstake, orStop_some_bind] at h
  obtain ⟨-, -, h⟩ := bind_eq_ok.mp h
  obtain ⟨_, hfork, hcoins⟩ := bind_eq_ok.mp h
  refine ⟨fun hf => ?_, hcoins⟩
  have hchecked := checkIf_eq_ok.mp hfork hf
  obtain ⟨r, hwalk, -⟩ := bind_eq_ok.mp hchecked
  exact ⟨r, hwalk⟩

namespace AcceptRules

open ChainGlobals

variable {rules : AcceptRules σ} {genesis : Uint256} {st st' st1 : ChainGlobals σ} {block : CBlock} {prev : CBlockIndex}

/-- A header changes nothing on the way to the first block, and brings no body. -/
theorem acceptBlockHeader_frame (b : st.Basic genesis) (hprev : st.index block.hashPrevBlock = some prev)
    (hrun : rules.acceptBlockHeader st block = .ok st1) :
    st1.chainActive = st.chainActive ∧ st1.path block.hashPrevBlock = st.path block.hashPrevBlock ∧
      (∀ a ∈ st.path block.hashPrevBlock, st1.index a = st.index a) ∧
      st1.haveData block.hash = st.haveData block.hash := by
  rcases acceptBlockHeader_cases hrun with ⟨rfl, -⟩ | ⟨hnew, prev', hprev', -, -, hadd⟩
  · exact ⟨rfl, rfl, fun _ _ => rfl, rfl⟩
  have hactive : st1.chainActive = st.chainActive := by rw [addToBlockIndex_eq hadd]
  refine ⟨hactive, b.wired.path_add hnew hadd hprev, fun a ha => ?_, ?_⟩
  · obtain ⟨e, he⟩ := b.wired.known_above ((mem_path b.ranked).mp ha) hprev
    rw [he, index_add_of_known hnew hadd he]
  have hentry : st1.index block.hash = some (st.newEntry block prev') := by
    rw [index_addToBlockIndex hadd, if_pos rfl]
  rw [haveData_of_index hentry]
  unfold haveData
  rw [hnew]
  rfl

/-- The body of a block is on disk only after its inputs were checked. -/
theorem storeBlock_stored {f : Bool} {r : Validated Unit} (hrun : rules.storeBlock st block f = (st', r))
    (hnew : st.haveData block.hash = false) (hstored : st'.haveData block.hash = true) :
    checkIf block.isProofOfStake (rules.checkStakeInputs st block) = .ok () := by
  have hsame : ∀ {s : ChainGlobals σ}, s.haveData block.hash = st.haveData block.hash → st' = s → False := by grind
  unfold storeBlock at hrun
  rw [if_neg (by rw [hnew]; exact Bool.false_ne_true)] at hrun
  split at hrun
  · exact (hsame (by rw [(Kept.markFailedValid st block.hash).haveData]) (Prod.mk.inj hrun).1.symm).elim
  · exact (hsame rfl (Prod.mk.inj hrun).1.symm).elim
  · split at hrun
    · exact (hsame rfl (Prod.mk.inj hrun).1.symm).elim
    · assumption

/-- **A newly stored block**: its parent is known, its header was accepted, then its inputs checked. -/
theorem acceptBlock_stored {f : Bool} {r : Validated Unit} (b : st.Basic genesis)
    (hg : rules.params.hashGenesisBlock = genesis)
    (hrun : rules.acceptBlock st block f = .ok (st', r)) (hnew : st.haveData block.hash = false)
    (hstored : st'.haveData block.hash = true) :
    block.hash ≠ genesis ∧ ∃ prev st1, st.index block.hashPrevBlock = some prev ∧
      rules.acceptBlockHeader st block = .ok st1 ∧
      checkIf block.isProofOfStake (rules.checkStakeInputs st1 block) = .ok () := by
  have hne : block.hash ≠ genesis := by
    grind [b.exists_tip, b.wired.data_of_linked, b.wired.linked_above, b.above_genesis]
  refine ⟨hne, ?_⟩
  rcases acceptBlock_inv hrun with rfl | ⟨_, _, -, -, hactivate⟩ | ⟨hvalid, st1, hheader, hstore⟩
  · rw [hnew] at hstored
    cases hstored
  · -- a reconsidered parent: chain selection stores nothing
    have hmoves : rules.Moves (fun _ => True) (st.reconsiderBlock block.hashPrevBlock) st' :=
      (ChainRules.activateBestChain_moves (b.reconsidered _) (fun _ _ => trivial) hactivate).1
    rw [((reconsiderBlock_spec st block.hashPrevBlock).1.trans hmoves.kept).haveData, hnew] at hstored
    cases hstored
  · obtain ⟨prev, hprev, -⟩ := hvalid (hg ▸ hne)
    obtain ⟨-, -, -, hdata⟩ := acceptBlockHeader_frame b hprev hheader
    exact ⟨prev, st1, hprev, hheader, storeBlock_stored hstore (hdata.trans hnew) hstored⟩

end AcceptRules

/-! ## §5. The ancestors of the block. -/

namespace ChainGlobals

variable {genesis : Uint256} {st : ChainGlobals σ} {a h : Uint256} {p : COutPoint}

def Spends (st : ChainGlobals σ) (a : Uint256) (p : COutPoint) : Prop :=
  ∃ bl, st.readBlockFromDisk a = some bl ∧ ∃ tx ∈ bl.vtx, p ∈ coinRules.ins tx

def activeTxs (st : ChainGlobals σ) : List CTransaction :=
  st.chainActive.flatMap fun a => ((st.readBlockFromDisk a).map CBlock.vtx).getD []

theorem not_spends_of_unspent {view : CCoinsView} {o : CTxOut}
    (hcoins : Ledger.Sound coinRules st.activeTxs view.unspent)
    (ho : view.unspent p = some o) (ha : a ∈ st.chainActive) : ¬ st.Spends a p := by
  rintro ⟨bl, hbl, tx, htx, hp⟩
  have hmem : tx ∈ st.activeTxs := by
    refine mem_flatMap.mpr ⟨a, ha, ?_⟩
    rw [hbl]
    exact htx
  exact hcoins.unconsumed p o ho tx hmem hp

theorem Basic.active_of_above (b : st.Basic genesis) (hh : h ∈ st.chainActive) (ha : Above st.pprev a h) :
    a ∈ st.chainActive := by
  obtain ⟨t, ht, -, -⟩ := b.exists_tip
  rw [b.mem_active ht] at hh ⊢
  exact ha.trans hh

theorem Basic.mem_inactive (b : st.Basic genesis) (ha : a ∈ st.path h) (hoff : a ∉ st.chainActive) :
    a ∈ st.inactivePath h := by
  unfold inactivePath
  induction h using b.ranked.induction with
  | step k ih =>
    have hk : k ∉ st.chainActive := fun hk => hoff (b.active_of_above hk ((mem_path b.ranked).mp ha))
    have htake : ∀ l, (k :: l).takeWhile (fun a => !st.contains a) = k :: l.takeWhile fun a => !st.contains a := by
      intro l
      apply takeWhile_cons_of_pos
      simpa [contains] using hk
    cases hp : st.pprev k with
    | none =>
      have hpath : st.path k = [k] := path_of_root hp
      rw [hpath] at ha ⊢
      rw [htake]
      exact ha
    | some p =>
      have hpath : st.path k = k :: st.path p := path_of_parent b.ranked hp
      grind

end ChainGlobals

/-- A block without such an input does not spend what the coinstake spends. -/
theorem not_mem_ins_of_not_stakes {tx : CTransaction} {txin : CTxIn} (htxin : txin ∈ stake.vin)
    (hplain : txin.isZerocoinSpend = false) (hfree : ∀ i ∈ tx.vin, stake.stakes i.prevout = false) :
    txin.prevout ∉ coinRules.ins tx := by
  intro hp
  cases hspends : CCoinsView.spendsCoins tx with
  | false =>
    rw [coinRules_ins_of_not_spends hspends] at hp
    cases hp
  | true =>
    rw [coinRules_ins_of_spends hspends] at hp
    obtain ⟨i, hi, heq⟩ := mem_map.mp hp
    exact stakes_eq_false.mp (hfree i hi) txin htxin hplain heq.symm

/-! ## §6. Main result. -/

section

variable {rules : AcceptRules σ} {staking : StakingParams} {stakeRules : StakeRules} {env : NodeEnv}
    {st st' : ChainGlobals σ} {block : CBlock} {f : Bool} {r : Validated Unit}
  {stake : CTransaction}

/-- **What a stored staked block has passed**: its inactive ancestors spend nothing that its coinstake spends,
and on top of the tip a coinstake without zerocoin spends spends coins of the tip. -/
theorem stored_stake_checked (b : st.Basic env.params.hashGenesisBlock) (hpos : block.isProofOfStake = true)
    (hstake : block.vtx[1]? = some stake) (hrun :
      (env.acceptRules staking stakeRules rules).acceptBlock st block f = .ok (st', r))
    (hnew : st.haveData block.hash = false) (hstored : st'.haveData block.hash = true) :
    (∀ txin ∈ stake.vin, txin.isZerocoinSpend = false → ∀ a ∈ st.path block.hashPrevBlock, a ∉ st.chainActive →
      ¬ st.Spends a txin.prevout) ∧
    (st.tip = some block.hashPrevBlock → stake.hasZerocoinSpendInputs = false →
      ∀ txin ∈ stake.vin, ∃ o, env.coinsTip.unspent txin.prevout = some o) := by
  obtain ⟨hne, prev, st1, hprev, hheader, hchecked⟩ := AcceptRules.acceptBlock_stored b rfl hrun hnew hstored
  obtain ⟨hactive, hpath, hindex, -⟩ := AcceptRules.acceptBlockHeader_frame b hprev hheader
  have hinputs : env.checkStakeInputs rules.maxReorg st1 block = .ok () := checkIf_eq_ok.mp hchecked hpos
  have htip1 : st1.tip = st.tip := congrArg head? hactive
  refine ⟨fun txin htxin hplain a ha hoff => ?_, fun htip hzero => ?_⟩
  · -- an inactive ancestor: the block is not on top of the tip
    have hfork : env.isBlockFromFork st1 block = true := by
      unfold isBlockFromFork
      rw [Bool.and_eq_true, decide_eq_true_iff, decide_eq_true_iff, htip1]
      refine ⟨hne, fun htip => hoff ?_⟩
      rw [b.chainActive_eq htip]
      exact ha
    obtain ⟨split, hwalk⟩ := (checkStakeInputs_eq_ok hstake hinputs).1 hfork
    have hmem : a ∈ (st1.path block.hashPrevBlock).takeWhile fun a => !st1.contains a := by
      have hcontains : st1.contains = st.contains := by
        unfold ChainGlobals.contains
        rw [hactive]
      rw [hpath, hcontains]
      exact b.mem_inactive ha hoff
    obtain ⟨bl, hbl, hfree⟩ := walkFork_eq_ok hwalk a hmem
    rintro ⟨bl', hbl', tx, htx, hp⟩
    have hsame : bl' = bl := by grind [ChainGlobals.readBlockFromDisk]
    subst hsame
    exact not_mem_ins_of_not_stakes htxin hplain (hfree tx htx) hp
  · have hfork : env.isBlockFromFork st1 block = false := by
      unfold isBlockFromFork
      simp [htip1, htip]
    have hpassed := (checkStakeInputs_eq_ok hstake hinputs).2
    rw [hfork] at hpassed
    exact checkStakeCoins_tip hzero hpassed

/-- **Staking spent outputs.**  Take any globals as they are between calls, with the coins of the active chain, and any
proof-of-stake block that `AcceptBlock` newly stores.  No ancestor of the block spends an output that its coinstake
spends exactly if the block extends the tip with a coinstake without zerocoin spends, or no *active* ancestor does. -/
theorem stored_stake_unspent_iff (b : st.Basic env.params.hashGenesisBlock)
    (hcoins : Ledger.Sound coinRules st.activeTxs env.coinsTip.unspent) (hpos : block.isProofOfStake = true)
    (hstake : block.vtx[1]? = some stake) (hrun :
      (env.acceptRules staking stakeRules rules).acceptBlock st block f = .ok (st', r))
    (hnew : st.haveData block.hash = false) (hstored : st'.haveData block.hash = true) :
    (∀ txin ∈ stake.vin, txin.isZerocoinSpend = false → ∀ a ∈ st.path block.hashPrevBlock, ¬ st.Spends a txin.prevout) ↔
      (st.tip = some block.hashPrevBlock ∧ stake.hasZerocoinSpendInputs = false) ∨
        ∀ txin ∈ stake.vin, txin.isZerocoinSpend = false → ∀ a ∈ st.path block.hashPrevBlock, a ∈ st.chainActive →
          ¬ st.Spends a txin.prevout := by
  obtain ⟨hoff, hcoin⟩ := stored_stake_checked b hpos hstake hrun hnew hstored
  constructor
  · intro hall
    exact .inr fun txin htxin hplain a ha _ => hall txin htxin hplain a ha
  intro hcond txin htxin hplain a ha
  by_cases hon : a ∈ st.chainActive
  · rcases hcond with ⟨htip, hzero⟩ | hnone
    · obtain ⟨o, ho⟩ := hcoin htip hzero txin htxin
      exact ChainGlobals.not_spends_of_unspent hcoins ho hon
    · exact hnone txin htxin hplain a ha hon
  · exact hoff txin htxin hplain a ha hon

end

def idleCoinbase (n : Nat) : CTransaction :=
  { hash := BitVec.ofNat 256 n, vin := [coinbaseIn], vout := [] }

/-- A coinbase that pays a hundred coins, and the transaction that moves them on. -/
def fundingTx : CTransaction := { idleCoinbase 21 with vout := [⟨100 * COIN, []⟩] }

def movingTx : CTransaction :=
  { hash := 31, vin := [.of 21 0], vout := [⟨99 * COIN, []⟩] }

def chainBlock (n : Nat) (vtx : List CTransaction) : CBlock where
  hash := BitVec.ofNat 256 n
  hashPrevBlock := BitVec.ofNat 256 (n - 1)
  nTime := 1602000000 + n
  nBits := 0x1e0ffff0
  vtx := vtx

def movedChain : List CBlock :=
  [chainBlock 1 [idleCoinbase 11], chainBlock 2 [fundingTx], chainBlock 3 [idleCoinbase 32, movingTx],
   chainBlock 4 [idleCoinbase 41]]

def movedNode : NodeEnv :=
  { plainNode 0 ⟨fun t => if t = 31 then some { vout := movingTx.vout, nHeight := 2, nVersion := 1 } else none, 4⟩ with
    params := { ConsensusParams.mainNet with hashGenesisBlock := 1 }
    chain := movedChain
    fTxIndex := true
    txIndex := fun t => if t = 21 then some (fundingTx, 2) else if t = 31 then some (movingTx, 3) else none }

def movedRules : AcceptRules Unit := movedNode.acceptRules .mainNet sampleRules (verdictRules fun _ => true)

def movedEvents : List (IndexEvent Unit) :=
  movedChain.tail.map (.block movedRules) ++ [.activate movedRules.toChainRules none false]

/-- Block `5` on top of block `n`, with a coinstake on the first output of `t`. -/
def stakingBlock (n : Nat) (t : Uint256) : CBlock :=
  { chainBlock 5 [idleCoinbase 51, { hash := 52, vin := [.of t 0], vout := [⟨0, []⟩, ⟨100 * COIN, []⟩] }] with
    hashPrevBlock := BitVec.ofNat 256 n }

theorem movedNode_sound :
    Ledger.Sound coinRules (movedChain.reverse.flatMap CBlock.vtx) movedNode.coinsTip.unspent := by
  have hcoin : ∀ p o, movedNode.coinsTip.unspent p = some o → p = ⟨31, 0⟩ ∧ o = ⟨99 * COIN, []⟩ := by
    intro p o ho
    obtain ⟨c, hc, hget, -⟩ := CCoinsView.unspent_eq_some.mp ho
    replace hc : (if p.hash = 31 then some { vout := movingTx.vout, nHeight := 2, nVersion := 1 } else none)
      = some c := hc
    split_ifs at hc with hhash
    cases hc
    obtain ⟨hash, n⟩ := p
    cases n with
    | zero => exact ⟨congrArg (COutPoint.mk · 0) hhash, (Option.some.inj hget).symm⟩
    | succ n => cases hget
  refine ⟨fun p o ho => ?_, fun p o ho t ht => ?_, fun t ht p hp => ?_⟩
  · obtain ⟨rfl, rfl⟩ := hcoin p o ho
    exact ⟨movingTx, by decide +kernel, rfl, by decide +kernel⟩
  · obtain ⟨rfl, -⟩ := hcoin p o ho
    revert t
    decide +kernel
  · have hfunded : ∀ t ∈ movedChain.reverse.flatMap CBlock.vtx,
        ((coinRules.ins t).all fun p => decide (p.hash = 21)) = true := by
      decide +kernel
    have hhash : p.hash = 21 := of_decide_eq_true (all_eq_true.mp (hfunded t ht) p hp)
    exact ⟨fundingTx, by decide +kernel, hhash.symm⟩

abbrev movedRun : Except Halt (ChainGlobals Unit) :=
  (ChainGlobals.init (chainBlock 1 [idleCoinbase 11]) ()).run movedEvents

/-- **The globals of the samples**: the chain is active and its blocks are on disk. -/
theorem exists_moved : ∃ st, movedRun = .ok st ∧
      st.Basic movedNode.params.hashGenesisBlock ∧ st.tip = some 4 ∧ 3 ∈ st.path 3 ∧
      st.readBlockFromDisk 3 = some (chainBlock 3 [idleCoinbase 32, movingTx]) ∧
      Ledger.Sound coinRules st.activeTxs movedNode.coinsTip.unspent := by
  have hend : (movedRun.map fun st =>
      (st.tip, st.readBlockFromDisk 3, st.activeTxs))
        = .ok (some 4, some (chainBlock 3 [idleCoinbase 32, movingTx]), movedChain.reverse.flatMap CBlock.vtx) := by
    decide +kernel
  obtain ⟨st, hrun, hfacts⟩ := exists_ok_of_map hend
  obtain ⟨htip, hread, htxs⟩ : st.tip = some 4 ∧
    st.readBlockFromDisk 3 = some (chainBlock 3 [idleCoinbase 32, movingTx]) ∧
      st.activeTxs = movedChain.reverse.flatMap CBlock.vtx := by
    simpa only [Prod.mk.injEq] using hfacts
  have hproper : ∀ ev ∈ movedEvents, ev.Proper movedNode.params.hashGenesisBlock fun h => h - 1 := by
    simp only [movedEvents, movedChain, tail_cons, map_cons, map_nil, cons_append, nil_append, forall_mem_cons]
    exact ⟨⟨rfl, by decide⟩, ⟨rfl, by decide⟩, ⟨rfl, by decide⟩, trivial, forall_mem_nil _⟩
  have hcoherent := ChainGlobals.coherent_run (by decide) hproper hrun
  refine ⟨st, hrun, hcoherent.toBasic, htip, mem_path_self _ _ 3, hread, ?_⟩
  rw [htxs]
  exact movedNode_sound

theorem acceptBlock_moved {st : ChainGlobals Unit} (block : CBlock)
    (hrun : movedRun = .ok st)
    (hend : ((movedRun >>= fun st =>
        (movedRules.acceptBlock st block true).map fun r => (st, r)).map fun o =>
          (o.1.haveData block.hash, o.2.1.haveData block.hash)) = .ok (false, true)) :
    ∃ st' r, movedRules.acceptBlock st block true = .ok (st', r) ∧ st.haveData block.hash = false ∧
      st'.haveData block.hash = true := by
  obtain ⟨o, hboth, hpair⟩ := exists_ok_of_map hend
  rw [hrun] at hboth
  obtain ⟨r, hr, rfl⟩ := exists_ok_of_map (x := movedRules.acceptBlock st block true) hboth
  exact ⟨r.1, r.2, hr, (Prod.mk.inj hpair).1, (Prod.mk.inj hpair).2⟩

/-- On top of the tip, a block that stakes the moved coins is stored. -/
theorem moved_coins_staked :
    ∃ st st' : ChainGlobals Unit, ∃ r, movedRun
      = .ok st ∧
      movedRules.acceptBlock st (stakingBlock 4 31) true = .ok (st', r) ∧ st'.haveData 5 = true ∧
      ∀ a ∈ st.path 4, ¬ st.Spends a ⟨31, 0⟩ := by
  obtain ⟨st, hrun, b, htip, -, -, hcoins⟩ := exists_moved
  obtain ⟨st', r, haccept, hnew, hstored⟩ := acceptBlock_moved (stakingBlock 4 31) hrun (by decide +kernel)
  have hunspent := (stored_stake_unspent_iff b hcoins (by decide) rfl haccept hnew hstored).mpr (.inl ⟨htip, by decide⟩)
  exact ⟨st, st', r, hrun, haccept, hstored, hunspent _ mem_cons_self (by decide)⟩

/-- **A spent output staked again.**  Block `3`, an ancestor, has spent the output that block `5` stakes; next
to the tip nothing looks at it. -/
theorem shared_ancestor_spends :
    ∃ st st' : ChainGlobals Unit, ∃ r, movedRun
      = .ok st ∧
      st.Basic movedNode.params.hashGenesisBlock ∧ Ledger.Sound coinRules st.activeTxs movedNode.coinsTip.unspent ∧
      (stakingBlock 3 21).isProofOfStake = true ∧ movedRules.acceptBlock st (stakingBlock 3 21) true = .ok (st', r) ∧
      st.haveData 5 = false ∧ st'.haveData 5 = true ∧
      ((stakingBlock 3 21).vtx[1]?).map CTransaction.prevouts = some [⟨21, 0⟩] ∧
        3 ∈ st.path (stakingBlock 3 21).hashPrevBlock ∧
      st.Spends 3 ⟨21, 0⟩ := by
  obtain ⟨st, hrun, b, -, hpath, hread, hcoins⟩ := exists_moved
  obtain ⟨st', r, haccept, hnew, hstored⟩ := acceptBlock_moved (stakingBlock 3 21) hrun (by decide +kernel)
  refine ⟨st, st', r, hrun, b, hcoins, by decide, haccept, hnew, hstored, by decide, hpath, ?_⟩
  exact ⟨_, hread, movingTx, by decide, by decide⟩

end PwrbCore
