/-
  Staking.Producer — THE PRODUCER OF A STAKED BLOCK AGAINST ITS VALIDATOR.

  `CreateCoinStake` and `FillBlockPayee` lay out the coinstake of the next block; three
  checks of validation take it apart again.  `IsBlockPayoutsValid` finds the end of the
  staking outputs by a running sum, `CheckColdStakeFreeOutput` looks at the last two
  outputs, and `IsBlockPayeeValid` looks for a masternode the vote tally names.

  Main results: `created_coinstake_payouts_valid`, `created_coldStake_free_output_iff`, `created_payee_valid_iff`.
-/
import PwrbCore.Betting.WinningBets
import PwrbCore.Staking.CoinStake
import PwrbCore.Validation.ColdStake

namespace PwrbCore

open List Option NodeEnv BetEnv CScript CTxOut

/-! ## §1. What a created coinstake looks like. -/

variable {wallet : StakeWallet} {env : NodeEnv} {tx : CTransaction} {payees : Option (List CTxOut)}
  {staking : StakingParams} {rules : StakeRules} {nBits k : Nat} {scriptPubKey s : CScript}
  {staked before lastOut : CTxOut}
  {nHeight : Int} {init : List CTxOut}

def NodeEnv.stakedOutput (env : NodeEnv) (tx : CTransaction) : Option CTxOut :=
  tx.vin.head?.bind fun txin =>
    (env.getTransaction txin.prevout.hash).bind fun found => found.1.vout[txin.prevout.n]?

/-- The transactions of the wallet are the ones the node has under their hashes. -/
def NodeEnv.NamesCoins (env : NodeEnv) (attempts : List StakeAttempt) : Prop :=
  ∀ attempt ∈ attempts, ∀ found, env.getTransaction attempt.coin.tx.hash = some found → found.1 = attempt.coin.tx

/-- The outputs a credit is split into: `k` equal shares, and the rest. -/
def stakingOutputs (nCredit : Int) (k : Nat) (scriptPubKey : CScript) : List CTxOut :=
  List.replicate k ⟨nCredit.tdiv (k + 1 : Nat), scriptPubKey⟩ ++
    [⟨nCredit - k * nCredit.tdiv (k + 1 : Nat), scriptPubKey⟩]

/-- **A created coinstake**: the output it stakes, the script the stake goes back to, and the payees. -/
structure CreatedCoinStake (env : NodeEnv) (wallet : StakeWallet) (tx : CTransaction) where
  tip : CBlock
  staked : CTxOut
  scriptPubKey : CScript
  k : Nat
  payees : List CTxOut
  tip_eq : env.chain.getLast? = some tip
  staked_eq : env.stakedOutput tx = some staked
  script_eq : wallet.stakeScript staked.scriptPubKey = some scriptPubKey
  payees_eq : env.fillBlockPayee = some payees
  vout_eq : tx.vout = coinStakeMarker
    :: (stakingOutputs (staked.nValue + getBlockValue (env.chainHeight + 1)) k scriptPubKey ++ payees)

theorem StakeTurn.kernelFound_of_completes {turn : StakeTurn}
    (h : turn.outcome wallet payees = .completes) : turn.kernelFound = true := by
  unfold outcome at h
  split_ifs at h with hstop hmiss
  simpa using hmiss

/-- A search over inputs that can all be created keeps the marker, so one turn built what it ends with. -/
theorem kernelSearch_completes {nReward : Int} {turns : List StakeTurn}
    (hin : ∀ t ∈ turns, t.createsTxIn = true) {fKernelFound : Bool} {txNew : CoinStakeDraft}
    (h : kernelSearch wallet nReward payees turns fKernelFound (draftStart true) = .ended true txNew)
    (hvin : txNew.vin ≠ []) :
    ∃ turn ∈ turns, turn.kernelFound = true ∧ ∃ scriptPubKey outs,
      wallet.stakeScript turn.coin.txout.scriptPubKey = some scriptPubKey ∧ payees = some outs ∧
      txNew = ⟨[turn.coin.txin], setAmounts (turn.coin.txout.nValue + nReward) (coinStakeMarker
        :: replicate (wallet.splitCount (turn.coin.txout.nValue + nReward)) ⟨0, scriptPubKey⟩) ++ outs⟩ := by
  induction turns generalizing fKernelFound with
  | nil =>
    cases h
    exact absurd rfl hvin
  | cons turn turns ih =>
    have hstep := kernelSearch_cons wallet nReward payees turn turns fKernelFound true
    rw [h] at hstep
    generalize hout : turn.outcome wallet payees = outcome at hstep
    generalize hres : SearchResult.ended true txNew = result at hstep
    cases hstep with
    | stopped | thrown => cases hres
    | misses | noOutputs =>
      obtain ⟨turn', hmem, hbuilt⟩ := ih (fun t ht => hin t (mem_cons_of_mem _ ht)) hres.symm
      exact ⟨turn', mem_cons_of_mem _ hmem, hbuilt⟩
    | noInput =>
      -- not with inputs that can be created
      unfold StakeTurn.outcome at hout
      rw [if_pos (hin turn mem_cons_self)] at hout
      split_ifs at hout
    | completes scriptPubKey outs hscript houts =>
      cases hres
      exact ⟨turn, mem_cons_self, StakeTurn.kernelFound_of_completes hout, scriptPubKey, outs, hscript, houts, rfl⟩

/-- A kernel is only found for a transaction that is. -/
theorem NodeEnv.found_of_stake {pindexPrev : StakeIndex} {attempt : StakeAttempt}
    (h : env.stake staking rules pindexPrev nBits attempt = true) :
    ∃ found, env.getTransaction attempt.coin.tx.hash = some found := by
  unfold stake at h
  cases hfound : env.getTransaction attempt.coin.tx.hash with
  | none =>
    rw [hfound] at h
    cases h
  | some found => exact ⟨found, rfl⟩

/-- **Every created coinstake has this form**, and stakes an output that was tried. -/
theorem NodeEnv.createCoinStake_created {attempts : List StakeAttempt} (hnames : env.NamesCoins attempts)
    (h : env.createCoinStake staking rules wallet nBits attempts = .created tx) :
    ∃ created : CreatedCoinStake env wallet tx, ∃ attempt ∈ attempts, attempt.coin.txout = created.staked := by
  unfold createCoinStake at h
  split at h
  next => cases h
  next tip htip =>
    split_ifs at h
    split at h
    next => cases h
    next => cases h
    next => cases h
    next txNew hsearch =>
      split_ifs at h with hvin
      split at h
      next => cases h
      next tx' hsign =>
        cases h
        obtain ⟨hvout, hprevouts⟩ := wallet.signs _ _ hsign
        have hin : ∀ t ∈ env.stakeTurns staking rules tip nBits attempts, t.createsTxIn = true := by
          intro t ht
          obtain ⟨attempt, -, rfl⟩ := mem_map.mp ht
          rfl
        obtain ⟨turn, hmem, hkernel, scriptPubKey, outs, hscript, houts, rfl⟩ := kernelSearch_completes hin hsearch hvin
        obtain ⟨attempt, hattempt, rfl⟩ := mem_map.mp hmem
        obtain ⟨found, hfound⟩ := env.found_of_stake hkernel
        have hcoin := hnames attempt hattempt found hfound
        -- the signed transaction still spends the coin
        have hstaked : env.stakedOutput tx = some attempt.coin.txout := by
          unfold stakedOutput
          unfold CTransaction.prevouts at hprevouts
          match hvins : tx.vin with
          | [] =>
            rw [hvins] at hprevouts
            cases hprevouts
          | txin :: rest =>
            rw [hvins, map_cons, map_cons, cons.injEq] at hprevouts
            rw [head?_cons, bind_some, hprevouts.1]
            show (env.getTransaction attempt.coin.tx.hash).bind _ = _
            rw [hfound, bind_some, hcoin]
            exact getElem?_eq_getElem attempt.coin.lt
        obtain ⟨k, hk⟩ : ∃ k, wallet.splitCount
            (attempt.coin.txout.nValue + getBlockValue (env.chainHeight + 1)) = k + 1 :=
          ⟨_, (Nat.sub_add_cancel (wallet.splitCount_bounds _).1).symm⟩
        refine ⟨⟨tip, attempt.coin.txout, scriptPubKey, k, outs, htip, hstaked, hscript, houts, ?_⟩,
          attempt, hattempt, rfl⟩
        rw [hvout, hk, setAmounts_marker]
        rfl

/-! ## §2. The payout check. -/

/-- The counting loop runs over equal outputs while their sum is below the target. -/
theorem countStaking_replicate {target nShare : Int} (rest : List CTxOut) (n : Nat)
    {acc : Int} (h : ∀ j : Nat, j < k → acc + j * nShare < target) :
    countStaking target (replicate k ⟨nShare, scriptPubKey⟩ ++ rest) n acc
      = countStaking target rest (n + k) (acc + k * nShare) := by
  induction k generalizing n acc with
  | zero => simp
  | succ k ih =>
    rw [replicate_succ, cons_append, countStaking, ih]
    · grind
    · grind

/-- Any number of shares but all is less than the credit. -/
theorem shares_lt {nCredit : Int} (hpos : 0 < nCredit) {j : Nat} (hj : j ≤ k) : j * nCredit.tdiv
    (k + 1 : Nat) < nCredit := by
  rw [Int.tdiv_eq_ediv_of_nonneg (le_of_lt hpos)]
  have hshare : 0 ≤ nCredit / (k + 1 : Nat) := Int.ediv_nonneg (le_of_lt hpos) (Int.natCast_nonneg _)
  have hall : nCredit / (k + 1 : Nat) * (k + 1 : Nat) ≤ nCredit := Int.ediv_mul_le _ (by omega)
  generalize nCredit / (k + 1 : Nat) = share at hshare hall ⊢
  have hle : (j : Int) * share ≤ k * share := Int.mul_le_mul_of_nonneg_right (by omega) hshare
  rw [Int.natCast_succ, Int.mul_add, Int.mul_comm _ (k : Int)] at hall
  -- a share of zero leaves the whole credit
  rcases hshare.eq_or_lt with rfl | hpos <;> omega

/-- **The running sum finds the end of the staking outputs**: it reaches the credit at the last of them. -/
theorem countStaking_stakingOutputs {nCredit : Int} (hpos : 0 < nCredit) (k : Nat) (scriptPubKey : CScript)
    (payees : List CTxOut) :
    countStaking nCredit (coinStakeMarker :: (stakingOutputs nCredit k scriptPubKey ++ payees)) 0 0
        = (k + 2, nCredit) := by
  unfold stakingOutputs
  have hmarker : (0 : Int) + coinStakeMarker.nValue = 0 := rfl
  rw [countStaking, if_pos hpos, hmarker, append_assoc, countStaking_replicate]
  · have hlast : (0 : Int) + k * nCredit.tdiv (k + 1 : Nat) < nCredit := by
      rw [Int.zero_add]
      exact shares_lt hpos (Nat.le_refl k)
    rw [singleton_append, countStaking, if_pos hlast]
    have hsum : (0 : Int) + k * nCredit.tdiv (k + 1 : Nat) + (nCredit - k * nCredit.tdiv (k + 1 : Nat)) = nCredit := by
      omega
    rw [hsum, show 0 + 1 + k + 1 = k + 2 by omega]
    cases payees with
    | nil => rfl
    | cons out payees => rw [countStaking, if_neg (lt_irrefl _)]
  · intro j hj
    rw [Int.zero_add]
    exact shares_lt hpos (le_of_lt hj)

theorem length_stakingOutputs (nCredit : Int) (k : Nat) (scriptPubKey : CScript) :
    (stakingOutputs nCredit k scriptPubKey).length = k + 1 := by
  unfold stakingOutputs
  rw [length_append, length_replicate, length_singleton]

theorem map_scriptPubKey_stakingOutputs (nCredit : Int) (k : Nat) (scriptPubKey : CScript) :
    (stakingOutputs nCredit k scriptPubKey).map CTxOut.scriptPubKey = replicate (k + 1) scriptPubKey := by
  unfold stakingOutputs
  rw [map_append, map_replicate, map_singleton, replicate_succ']

theorem sum_map_stakingOutputs (nCredit : Int) (k : Nat) (scriptPubKey : CScript) :
    ((stakingOutputs nCredit k scriptPubKey).map nValue).sum = nCredit := sum_stakingOutputs nCredit _ k scriptPubKey

/-- What the validator takes for the stake is the value of the staked output. -/
theorem NodeEnv.stakeAmount_eq (h : env.stakedOutput tx = some staked) : env.betEnv.stakeAmount tx = staked.nValue := by
  unfold stakedOutput at h
  unfold stakeAmount betEnv
  match hvin : tx.vin with
  | [] =>
    rw [hvin] at h
    cases h
  | txin :: _ => grind [bind_eq_some_iff]

theorem getBlockPayouts_sum (params : ConsensusParams) (due : List CBetOut) :
    ((getBlockPayouts params due).2.map fun b => b.nValue).sum = (getBlockPayouts params due).1 := by
  unfold getBlockPayouts
  split_ifs with hnil
  · rw [hnil]
  · rw [map_append, sum_append, map_singleton, sum_singleton]

/-- Outside budget payment blocks the payees are the bet payouts. -/
theorem NodeEnv.fillBlockPayee_payouts {tip : CBlock} {payees : List CTxOut} (htip : env.chain.getLast? = some tip)
    (hbudget : env.budgetDue = false)
    (h : env.fillBlockPayee = some payees) :
    ∃ due, getBetPayouts env.betEnv env.loc.sources env.chain (env.chainHeight + 1) = some due ∧
      payees = (getBlockPayouts env.params due).2.map CBetOut.toCTxOut := by
  have hchain : env.chain ≠ [] := by
    intro hnil
    rw [hnil] at htip
    cases htip
  unfold fillBlockPayee at h
  rw [if_neg hchain, hbudget, if_neg Bool.false_ne_true, map_eq_some_iff] at h
  obtain ⟨due, hdue, rfl⟩ := h
  exact ⟨due, hdue, rfl⟩

namespace CreatedCoinStake

def nCredit {env : NodeEnv} {wallet : StakeWallet} {tx : CTransaction}
    (created : CreatedCoinStake env wallet tx) : Int :=
  created.staked.nValue + getBlockValue (env.chainHeight + 1)

section

variable (created : CreatedCoinStake env wallet tx)

include created

theorem stakingTarget_eq : env.betEnv.stakingTarget tx (env.chainHeight + 1) = created.nCredit := by
  unfold stakingTarget nCredit
  rw [env.stakeAmount_eq created.staked_eq]
  show _ - (0 : Int) = _
  omega

theorem countStaking_eq (hpos : 0 < created.staked.nValue) :
    countStaking (env.betEnv.stakingTarget tx (env.chainHeight + 1)) tx.vout 0 0
        = (created.k + 2, created.nCredit) := by
  have hreward := getBlockValue_pos (env.chainHeight + 1)
  have hcredit : 0 < created.nCredit := by
    unfold nCredit
    omega
  rw [created.stakingTarget_eq, created.vout_eq]
  exact countStaking_stakingOutputs hcredit created.k created.scriptPubKey created.payees

/-- **Behind the staking outputs the validator finds the payees.** -/
theorem payoutOutputs_eq (hpos : 0 < created.staked.nValue) :
    env.betEnv.numStakingTx tx (env.chainHeight + 1) = created.k + 2 ∧
      env.betEnv.payoutOutputs tx (env.chainHeight + 1) = created.payees := by
  have hnum : env.betEnv.numStakingTx tx (env.chainHeight + 1) = created.k + 2 := by
    unfold numStakingTx
    rw [created.countStaking_eq hpos]
  simp [payoutOutputs, created.vout_eq, length_stakingOutputs, hnum]

/-- **The value a coinstake creates**: the reward and what it pays. -/
theorem sum_vout : (tx.vout.map nValue).sum - created.staked.nValue
      = getBlockValue (env.chainHeight + 1) + (created.payees.map nValue).sum := by
  rw [created.vout_eq, map_cons, sum_cons, map_append, sum_append, sum_map_stakingOutputs]
  show (0 : Int) + _ - _ = _
  omega

end

end CreatedCoinStake

/-- **Producer and validator agree on bet payouts.**  On any chain, with any sources, wallet and split threshold: if
superblocks are not active and a coinstake on an output of positive value is created, the payouts due at the next
height are those its outputs are checked against, the check accepts them in any block, and the value it creates is
the reward and the payouts, which the value check accepts. -/
theorem created_coinstake_payouts_valid (env : NodeEnv) (staking : StakingParams) (rules : StakeRules)
    (wallet : StakeWallet)
    (nBits : Nat) (attempts : List StakeAttempt) (tx : CTransaction) (hnames : env.NamesCoins attempts)
    (hpositive : ∀ attempt ∈ attempts, 0 < attempt.coin.txout.nValue)
    (hsuper : env.loc.isSporkActive .enableSuperblocks = false)
    (h : env.createCoinStake staking rules wallet nBits attempts = .created tx) :
    ∃ due staked, getBetPayouts env.betEnv env.loc.sources env.chain (env.chainHeight + 1) = some due ∧
      env.stakedOutput tx = some staked ∧ (tx.vout.map CTxOut.nValue).sum - staked.nValue
        = getBlockValue (env.chainHeight + 1) + (getBlockPayouts env.params due).1 ∧
      ∀ block : CBlock, block.vtx[1]? = some tx →
        isBlockPayoutsValid env.betEnv (getBlockPayouts env.params due).2 block (env.chainHeight + 1) = true ∧
        env.isBlockValueValid block (getBlockValue (env.chainHeight + 1) + (getBlockPayouts env.params due).1)
          ((tx.vout.map CTxOut.nValue).sum - staked.nValue) = true := by
  obtain ⟨created, attempt, hattempt, hcoin⟩ := env.createCoinStake_created hnames h
  have hpos : 0 < created.staked.nValue := by
    rw [← hcoin]
    exact hpositive attempt hattempt
  have hbudget : env.budgetDue = false := by
    unfold budgetDue
    rw [hsuper, Bool.false_and]
  obtain ⟨due, hdue, hpayees⟩ := env.fillBlockPayee_payouts created.tip_eq hbudget created.payees_eq
  have hsum : (created.payees.map CTxOut.nValue).sum = (getBlockPayouts env.params due).1 := by
    rw [hpayees, List.map_map]
    exact getBlockPayouts_sum env.params due
  have hvalue := created.sum_vout
  rw [hsum] at hvalue
  refine ⟨due, created.staked, hdue, created.staked_eq, hvalue, ?_⟩
  intro block hblock
  constructor
  · by_cases hnil : (getBlockPayouts env.params due).2 = []
    · rw [hnil]
      rfl
    · obtain ⟨hnum, hout⟩ := created.payoutOutputs_eq hpos
      rw [isBlockPayoutsValid_eq_true_iff _ _ hnil hblock]
      refine .inr ⟨⟨?_, ?_⟩, ?_⟩
      · rw [created.vout_eq, hpayees, length_cons, length_append, length_stakingOutputs, length_map]
        omega
      · rw [hout, hsum]
        exact getBlockPayouts_sum env.params due
      · simp_all
  · rw [env.isBlockValueValid_iff created.tip_eq]
    exact .inr (le_of_eq hvalue)

/-! ### A payout height.

The sample chain up to height 2999, with five coins of the premine delegated in block 250.  At height 3000 the
bet of the sample chain is due. -/

def delegationTx : CTransaction :=
  { hash := 30250
    vin := [.of 7 1]
    vout := [⟨5 * COIN, getScriptForStakeDelegation (sampleKey 9) (sampleKey 4)⟩] }

def delegationBlock (i : Nat) : CBlock :=
  if i = 250 then { sampleBlock 250 with vtx :=
    [sampleCoinbase 250, sampleCoinstake 250, delegationTx] } else sampleBlock i

@[irreducible]
def delegationChain : List CBlock := (List.range 3000).map delegationBlock

def delegationNode (synced : Bool) : NodeEnv :=
  { plainNode 0 ⟨fun _ => none, 62999⟩ with
    chain := delegationChain
    fTxIndex := true
    txIndex := fun hash =>
      if hash = 7 then some (premineTx, 60001) else if hash = 30250 then some (delegationTx, 60250) else none
    loc := { plainLocal with
      synced := synced
      sources := octoberSpork
      downloaded := octoberSpork } }

/-- The wallet tries the delegated coins in the slot after the tip. -/
def delegationAttempt : StakeAttempt where
  coin := ⟨delegationTx, 0, Nat.one_pos⟩
  interrupted := false
  nTxNewTime := sampleTime 2999 + 15
  currentTimeSlot := sampleTime 2999 + 15

/-- The coinstake: six coins go back, the bet and the development fund are paid. -/
def delegationCoinstake : CTransaction :=
  { hash := 78
    vin := [.of 30250 0]
    vout := [⟨0, []⟩, ⟨6 * COIN, getScriptForStakeDelegation (sampleKey 9) (sampleKey 4)⟩,
      ⟨12 * COIN, payTo 1⟩,
      ⟨60000000, getScriptForDestination ConsensusParams.mainNet.devPayout⟩] }

theorem delegationNode_height (synced : Bool) : (delegationNode synced).chainHeight + 1 = 3000 := by
  unfold chainHeight delegationNode delegationChain
  rw [length_map, length_range]
  rfl

theorem getLast?_delegationChain : delegationChain.getLast? = some (sampleBlock 2999) := by
  unfold delegationChain
  exact getLast?_chain (by decide)

theorem delegationBlock_vtx_one {i : Nat} (h : 200 < i) : (delegationBlock i).vtx[1]? = some (sampleCoinstake i) := by
  unfold delegationBlock
  split_ifs with h250
  · rw [h250]
    rfl
  · exact sampleBlock_vtx_one h

theorem delegationBlock_nTime (i : Nat) : (delegationBlock i).nTime = (sampleBlock i).nTime := by
  unfold delegationBlock
  split_ifs with h250
  · rw [h250]
  · rfl

theorem delegation_getBetPayouts (synced : Bool) :
    getBetPayouts (delegationNode synced).betEnv (delegationNode synced).loc.sources (delegationNode synced).chain
      ((delegationNode synced).chainHeight + 1) = some [sampleEntry] := by
  have hquiet : ∀ j, 200 < j → j ≠ 2990 → opReturnCount (delegationBlock j) = 0 := by
    intro j _ hne
    unfold delegationBlock
    split_ifs
    · decide
    · rw [opReturnCount_sampleBlock, if_neg hne]
  have hbet : (delegationNode synced).betEnv.expectedPayouts sampleResult 1601780340 [delegationBlock 2990]
      = some [sampleEntry] := by
    cases synced <;> decide +kernel
  -- the coinstakes are those of the sample chain, and their stakes are found
  have hcompleted : (delegationNode synced).betEnv.completedPayouts 1601780340 201
      (((range 3000).map delegationBlock).drop 201) = [] := by
    apply window_completedPayouts
    intro j hj hlt
    have hagree : (delegationNode synced).betEnv.AgreeOn chainEnv (sampleCoinstake j) := by
      intro txin htxin
      cases htxin
      rfl
    rw [← sample_completedOf hj (by omega) (by omega)]
    unfold completedOf
    rw [delegationBlock_vtx_one hj, sampleBlock_vtx_one hj, delegationBlock_nTime]
    dsimp only
    rw [hagree.payoutOutputs]
  rw [delegationNode_height]
  show getBetPayouts _ octoberSpork delegationChain 3000 = _
  unfold delegationChain
  rw [oneBet_getBetPayouts rfl hquiet rfl hbet, hcompleted]
  cases synced <;> decide +kernel

theorem delegation_created (synced : Bool) :
    (delegationNode synced).createCoinStake .mainNet sampleRules sampleStakeWallet 0x1d00ffff [delegationAttempt]
      = .created delegationCoinstake := by
  have htip : (delegationNode synced).chain.getLast? = some (sampleBlock 2999) := getLast?_delegationChain
  have hfill : (delegationNode synced).fillBlockPayee = some [⟨12 * COIN, payTo 1⟩,
      ⟨60000000, getScriptForDestination ConsensusParams.mainNet.devPayout⟩] := by
    have hchain : (delegationNode synced).chain ≠ [] := by grind
    unfold fillBlockPayee
    rw [if_neg hchain, delegation_getBetPayouts]
    show (some [sampleEntry]).map (fun due => (getBlockPayouts .mainNet due).2.map CBetOut.toCTxOut) = _
    decide +kernel
  have hstake : (delegationNode synced).stake .mainNet sampleRules
    ((delegationNode synced).tipIndex (sampleBlock 2999)) 0x1d00ffff
      delegationAttempt = true := by
    cases synced <;> decide +kernel
  unfold createCoinStake stakeTurns
  rw [htip]
  dsimp only
  rw [hfill, delegationNode_height, map_singleton, hstake]
  decide +kernel

theorem NodeEnv.namesCoins_singleton {attempt : StakeAttempt} (found : CTransaction × Uint256)
    (hindex : env.getTransaction attempt.coin.tx.hash = some found) (htx : found.1 = attempt.coin.tx) :
        env.NamesCoins [attempt] := by
  intro attempt' hattempt found' hfound
  rw [mem_singleton.mp hattempt, hindex, some.injEq] at hfound
  rw [mem_singleton.mp hattempt, ← hfound]
  exact htx

theorem delegation_namesCoins (synced : Bool) : (delegationNode synced).NamesCoins [delegationAttempt] :=
  namesCoins_singleton (delegationTx, 60250) (by cases synced <;> decide +kernel) rfl

/-- The coinstake of the sample pays the bet as the validator expects it. -/
theorem delegation_payouts_valid :
    ∃ due staked, getBetPayouts (delegationNode true).betEnv (delegationNode true).loc.sources
      (delegationNode true).chain
        ((delegationNode true).chainHeight + 1) = some due ∧
      (delegationNode true).stakedOutput delegationCoinstake = some staked ∧
      (delegationCoinstake.vout.map CTxOut.nValue).sum - staked.nValue
        = getBlockValue ((delegationNode true).chainHeight + 1) + (getBlockPayouts (delegationNode true).params due).1 ∧
      ∀ block : CBlock, block.vtx[1]? = some delegationCoinstake →
        isBlockPayoutsValid (delegationNode true).betEnv (getBlockPayouts (delegationNode true).params due).2 block
            ((delegationNode true).chainHeight + 1) = true ∧ (delegationNode true).isBlockValueValid block
          (getBlockValue ((delegationNode true).chainHeight + 1) + (getBlockPayouts (delegationNode true).params due).1)
          ((delegationCoinstake.vout.map CTxOut.nValue).sum - staked.nValue) = true :=
  created_coinstake_payouts_valid (delegationNode true) .mainNet sampleRules sampleStakeWallet 0x1d00ffff
    [delegationAttempt]
    delegationCoinstake (delegation_namesCoins true) (by decide) (by decide) (delegation_created true)

/-! ## §3. The free output of a cold stake. -/

theorem solver_coldStaking_ne (hcold : s.isPayToColdStaking = true) (sols : List (List UInt8)) :
    solver s ≠ some (.pubKeyHash, sols) := by
  intro hsolver
  obtain ⟨push, vch, -, hlen, -, pc1, hop1, pc2, hop2, pc3, hop3, -⟩ := decodes_of_solver_pubKeyHash hsolver
  obtain ⟨rfl, -⟩ := eq_cons_of_getOp hop1 (by decide)
  obtain ⟨rfl, -⟩ := eq_cons_of_getOp hop2 (by decide)
  unfold isPayToColdStaking at hcold
  simp only [Bool.and_eq_true, beq_iff_eq] at hcold
  obtain ⟨⟨⟨⟨⟨⟨-, hrot⟩, -⟩, -⟩, -⟩, -⟩, -⟩ := hcold
  -- the third instruction is no push
  obtain ⟨size, rfl, -⟩ := getOp_inv hop3
  cases hrot
  rw [(eq_cons_of_getOp hop3 (by decide)).2] at hlen
  cases hlen

theorem StakeWallet.stakeScript_coldStaking (hcold : s.isPayToColdStaking = true)
    (h : wallet.stakeScript s = some scriptPubKey) : scriptPubKey = s := by
  unfold stakeScript at h
  grind [solver_coldStaking_ne, map_eq_some_iff]

theorem NodeEnv.checkColdStakeFreeOutput_eq {front : List CTxOut} (hnet : env.params.network ≠ .regtest)
    (hp2cs : tx.hasP2CSOutputs = true)
    (hvout : tx.vout = front ++ [before, lastOut]) (hfront : front ≠ []) : env.checkColdStakeFreeOutput tx nHeight =
      if lastOut.scriptPubKey = before.scriptPubKey then some true
      else if env.loc.synced = false then env.freeOutputCarriesNoStake tx nHeight
      else if env.loc.isBudgetPaymentBlock nHeight then
        if env.loc.isSporkActive .enableSuperblocks then some true else none else some false := by
  obtain ⟨first, others, hreverse⟩ := exists_cons_of_ne_nil (mt reverse_eq_nil_iff.mp hfront)
  unfold checkColdStakeFreeOutput
  grind

/-- What an unsynced node compares: the inner outputs with the stake and the tip's reward. -/
theorem NodeEnv.freeOutputCarriesNoStake_eq (nHeight : Int)
    (h : env.stakedOutput tx = some staked) : env.freeOutputCarriesNoStake tx nHeight
      = some (((tx.vout.dropLast.drop 1).map nValue).sum == staked.nValue + getBlockValue (nHeight - 1)) := by
  unfold stakedOutput at h
  unfold freeOutputCarriesNoStake
  grind

theorem BetSlip.pos_of_wins {slip : BetSlip} {params : ConsensusParams} {result : DrawResult}
    {latestDrawStartTime payout : Int}
    (h : slip.wins params result latestDrawStartTime = some payout) : 0 < payout := by
  unfold wins at h
  rw [join_eq_some_iff] at h
  obtain ⟨-, hnone⟩ | ⟨lb, -, hwon⟩ := slip.betWinnings_cases params result latestDrawStartTime
  · rw [hnone] at h
    cases h
  simp_all [eq_comm]

/-- **Payouts that are due**: the height is a multiple of 1500, and all are positive. -/
theorem getBetPayouts_due {env : BetEnv} {sources : ResultSources} {chain : List CBlock}
    {height : Int} {due : List CBetOut}
    (h : getBetPayouts env sources chain height = some due) (hdue : due ≠ []) :
    height % 1500 = 0 ∧ ∀ payout ∈ due, 0 < payout.nValue := by
  obtain ⟨scan, rfl⟩ := getBetPayouts_eq_some h hdue
  refine ⟨payoutGate_mod scan.gate, ?_⟩
  intro payout hmem
  have hexpected := (env.pendingPayouts_sublist _ _).subset hmem
  rw [expectedPayouts_eq_some scan.expected_eq, mem_filterMap] at hexpected
  obtain ⟨slip, -, hslip⟩ := hexpected
  rw [map_eq_some_iff] at hslip
  obtain ⟨won, hwins, rfl⟩ := hslip
  exact BetSlip.pos_of_wins hwins

theorem LocalState.budgetPayee_cases (l : LocalState) (nBlockHeight : Int) :
    l.budgetPayee nBlockHeight = [] ∨ ∃ out, l.budgetPayee nBlockHeight = [out] := by
  rcases l.budgetPayee_spec nBlockHeight with ⟨-, hnone⟩ | ⟨-, -, -, -, out, -, hout⟩
  · exact .inl hnone
  · exact .inr ⟨out, hout⟩

theorem getBlockValue_of_gt (h : 1 < nHeight) : getBlockValue nHeight = 1 * COIN := if_neg (by omega)

namespace CreatedCoinStake

section

variable (created : CreatedCoinStake env wallet tx)

include created

theorem chainHeight_pos : 0 < env.chainHeight + 1 := by
  have hmem := mem_of_getLast? created.tip_eq
  have hlength := length_pos_of_mem hmem
  unfold chainHeight
  omega

/-- The scripts a coinstake pays: the empty one, that of the stake, and those of the payees. -/
theorem exists_pays_iff (script : CScript) : (∃ out ∈ tx.vout, out.scriptPubKey = script) ↔
      script = [] ∨ script = created.scriptPubKey ∨ ∃ out ∈ created.payees, out.scriptPubKey = script := by
  have hmap : (∃ out ∈ tx.vout, out.scriptPubKey = script) ↔ script ∈ tx.vout.map CTxOut.scriptPubKey := by
    rw [List.mem_map]
  simp_all [created.vout_eq, map_scriptPubKey_stakingOutputs, coinStakeMarker]

theorem hasP2CSOutputs (hcold : created.scriptPubKey.isPayToColdStaking = true) : tx.hasP2CSOutputs = true := by
  obtain ⟨out, hmem, hout⟩ := (created.exists_pays_iff created.scriptPubKey).mpr (.inr (.inl rfl))
  unfold CTransaction.hasP2CSOutputs
  rw [List.any_eq_true]
  exact ⟨out, hmem, by rw [hout]; exact hcold⟩

/-- The outputs between the marker and the last carry the credit and all payees but the last. -/
theorem sum_inner (hpayees : created.payees = init ++ [lastOut]) :
    ((tx.vout.dropLast.drop 1).map nValue).sum = created.nCredit + (init.map nValue).sum := by
  have hvout : tx.vout = (coinStakeMarker :: (stakingOutputs created.nCredit created.k created.scriptPubKey ++
      init)) ++ [lastOut] := by
    rw [created.vout_eq, hpayees, cons_append, append_assoc]
    rfl
  rw [hvout, dropLast_concat, drop_one, tail_cons, map_append, sum_append, sum_map_stakingOutputs]

section

variable (hnet : env.params.network ≠ .regtest)

include hnet

section

variable (hcold : created.scriptPubKey.isPayToColdStaking = true)

include hcold

/-- Without payees the last two outputs, if there are three, are both of the stake. -/
theorem freeOutput_of_no_payees (hpayees : created.payees = []) (nHeight : Int) :
    env.checkColdStakeFreeOutput tx nHeight = some true := by
  have hp2cs := created.hasP2CSOutputs hcold
  have hvout := created.vout_eq
  rw [hpayees, append_nil] at hvout
  unfold stakingOutputs at hvout
  cases hk : created.k with
  | zero =>
    rw [hk] at hvout
    unfold checkColdStakeFreeOutput
    rw [hp2cs, hvout]
    rfl
  | succ k =>
    rw [hk, replicate_succ', append_assoc] at hvout
    rw [env.checkColdStakeFreeOutput_eq hnet hp2cs hvout (cons_ne_nil _ _), if_pos rfl]

theorem freeOutput_of_payee {out : CTxOut} (hpayees : created.payees = [out])
    (hreward : getBlockValue (env.chainHeight + 1 - 1) = getBlockValue (env.chainHeight + 1))
    (hbudget : env.budgetDue = true) :
    env.checkColdStakeFreeOutput tx (env.chainHeight + 1) = some true := by
  have hp2cs := created.hasP2CSOutputs hcold
  have hinner := created.sum_inner (show created.payees = [] ++ [out] from hpayees)
  have hvout := created.vout_eq
  rw [hpayees] at hvout
  unfold stakingOutputs at hvout
  rw [append_assoc] at hvout
  rw [Bool.and_eq_true] at hbudget
  rw [env.checkColdStakeFreeOutput_eq hnet hp2cs hvout (cons_ne_nil _ _),
    env.freeOutputCarriesNoStake_eq _ created.staked_eq, hinner, hreward, hbudget.1, hbudget.2]
  unfold nCredit
  simp

/-- The bet payouts end with the development reward, and an unsynced node misses the amounts it expects. -/
theorem freeOutput_of_payouts_iff (hpayees : created.payees = init ++ [before] ++ [lastOut])
    (hreward : getBlockValue (env.chainHeight + 1 - 1) = getBlockValue (env.chainHeight + 1))
    (hpositive : 0 < ((init ++ [before]).map nValue).sum)
    (hbudget : env.budgetDue = false) :
    env.checkColdStakeFreeOutput tx (env.chainHeight + 1) = some true ↔ before.scriptPubKey = lastOut.scriptPubKey := by
  have hp2cs := created.hasP2CSOutputs hcold
  have hinner := created.sum_inner hpayees
  have hvout := created.vout_eq
  rw [hpayees, append_assoc, ← append_assoc] at hvout
  rw [env.checkColdStakeFreeOutput_eq hnet hp2cs hvout (cons_ne_nil _ _),
    env.freeOutputCarriesNoStake_eq _ created.staked_eq, hinner, hreward]
  by_cases hsame : lastOut.scriptPubKey = before.scriptPubKey
  · rw [if_pos hsame]
    exact iff_of_true rfl hsame.symm
  rw [if_neg hsame]
  refine iff_of_false ?_ fun heq => hsame heq.symm
  cases env.loc.synced with
  | false =>
    -- the payouts are on top of what the staker may keep
    have hmore : (created.nCredit + ((init ++ [before]).map nValue).sum
        == created.staked.nValue + getBlockValue (env.chainHeight + 1)) = false := by
      rw [beq_eq_false_iff_ne]
      unfold nCredit
      omega
    rw [if_pos rfl, hmore]
    decide
  | true =>
    rw [if_neg (by decide)]
    rw [Bool.and_eq_false_iff] at hbudget
    rcases hbudget with hspork | hblock
    · split_ifs <;> simp_all
    · rw [hblock]
      simp

end

end

end

end CreatedCoinStake

/-- **A cold stake at a payout height.**  Off regtest, with payouts due and a pay-to-cold-staking output staked: the
coinstake that is created passes the check of its free output, on a synced node or not, exactly if a budget payment
is made instead of the payouts, or the winner paid last is paid at the development script. -/
theorem created_coldStake_free_output_iff (env : NodeEnv) (staking : StakingParams) (rules : StakeRules)
    (wallet : StakeWallet)
    (nBits : Nat) (attempts : List StakeAttempt) (tx : CTransaction) (due : List CBetOut)
    (hnames : env.NamesCoins attempts)
    (hnet : env.params.network ≠ .regtest)
    (hdue : getBetPayouts env.betEnv env.loc.sources env.chain (env.chainHeight + 1) = some due) (hne : due ≠ [])
    (hcold : ∀ attempt ∈ attempts, attempt.coin.txout.scriptPubKey.isPayToColdStaking = true)
    (h : env.createCoinStake staking rules wallet nBits attempts = .created tx) :
    env.checkColdStakeFreeOutput tx (env.chainHeight + 1) = some true ↔
      env.budgetDue = true ∨
        due.getLast?.map (fun payout => payout.scriptPubKey) = some (getScriptForDestination env.params.devPayout) := by
  obtain ⟨created, attempt, hattempt, hcoin⟩ := env.createCoinStake_created hnames h
  have hscript : created.scriptPubKey.isPayToColdStaking = true := by
    grind [StakeWallet.stakeScript_coldStaking, created.script_eq]
  obtain ⟨hmod, hpositive⟩ := getBetPayouts_due hdue hne
  -- a payout height is past the first blocks, so the reward is that of the tip
  have hreward : getBlockValue (env.chainHeight + 1 - 1) = getBlockValue (env.chainHeight + 1) := by
    grind [created.chainHeight_pos, getBlockValue_of_gt]
  cases hbudget : env.budgetDue with
  | true =>
    have hpayees : created.payees = env.loc.budgetPayee (env.chainHeight + 1) := by
      have hfill := created.payees_eq
      have hchain : env.chain ≠ [] := by grind [created.tip_eq]
      unfold fillBlockPayee at hfill
      rw [if_neg hchain, if_pos hbudget] at hfill
      exact (some.inj hfill).symm
    refine iff_of_true ?_ (.inl rfl)
    rcases env.loc.budgetPayee_cases (env.chainHeight + 1) with hnone | ⟨out, hout⟩
    · exact created.freeOutput_of_no_payees hnet hscript (hpayees.trans hnone) _
    · exact created.freeOutput_of_payee hnet hscript (hpayees.trans hout) hreward hbudget
  | false =>
    obtain ⟨due', hdue', hpayees⟩ := env.fillBlockPayee_payouts created.tip_eq hbudget created.payees_eq
    rw [hdue, some.injEq] at hdue'
    subst hdue'
    obtain ⟨init, lastDue, rfl⟩ := (eq_nil_or_concat' due).resolve_left hne
    unfold getBlockPayouts at hpayees
    rw [if_neg hne, map_append, map_append, map_singleton] at hpayees
    have hsum : 0 < ((init.map CBetOut.toCTxOut ++ [lastDue.toCTxOut]).map nValue).sum := by
      apply sum_pos
      · grind
      · simp
    rw [created.freeOutput_of_payouts_iff hnet hscript hpayees hreward hsum hbudget]
    simp

/-- The sample coinstake fails the check of its own node, synced or not: its last output pays the development fund,
the one before it the winner. -/
theorem delegation_free_output_refused :
    getBetPayouts (delegationNode true).betEnv (delegationNode true).loc.sources (delegationNode true).chain
        ((delegationNode true).chainHeight + 1) = some [sampleEntry] ∧
      delegationAttempt.coin.txout.scriptPubKey.isPayToColdStaking = true ∧
      (delegationNode true).createCoinStake .mainNet sampleRules sampleStakeWallet 0x1d00ffff [delegationAttempt]
        = .created delegationCoinstake ∧
      (delegationNode false).createCoinStake .mainNet sampleRules sampleStakeWallet 0x1d00ffff [delegationAttempt]
        = .created delegationCoinstake ∧
      (delegationNode true).checkColdStakeFreeOutput delegationCoinstake ((delegationNode true).chainHeight + 1)
        = some false ∧
      (delegationNode false).checkColdStakeFreeOutput delegationCoinstake ((delegationNode false).chainHeight + 1)
        = some false := by
  refine ⟨delegation_getBetPayouts true, by decide +kernel, delegation_created true, delegation_created false, ?_, ?_⟩
  · rw [delegationNode_height]
    decide +kernel
  · rw [delegationNode_height]
    decide +kernel

/-- The equivalence on the sample node, where both sides fail. -/
theorem delegation_free_output_iff :
    (delegationNode true).checkColdStakeFreeOutput delegationCoinstake ((delegationNode true).chainHeight + 1)
      = some true ↔
      (delegationNode true).budgetDue = true ∨
        [sampleEntry].getLast?.map (fun payout => payout.scriptPubKey)
          = some (getScriptForDestination (delegationNode true).params.devPayout) :=
  created_coldStake_free_output_iff (delegationNode true) .mainNet sampleRules sampleStakeWallet 0x1d00ffff
    [delegationAttempt]
    delegationCoinstake [sampleEntry] (delegation_namesCoins true) (by decide) (delegation_getBetPayouts true)
      (by decide)
    (by decide +kernel) (delegation_created true)

/-! ## §4. The payee check. -/

/-- **What a vote tally asks of a transaction**: no payee has the votes, or one that has them is paid. -/
theorem payeesIsTransactionValid_iff (vecPayments : List CMasternodePayee) (tx : CTransaction) :
    payeesIsTransactionValid vecPayments tx = true ↔
      (∀ payee ∈ vecPayments, payee.nVotes < MNPAYMENTS_SIGNATURES_REQUIRED) ∨
        ∃ payee ∈ vecPayments, MNPAYMENTS_SIGNATURES_REQUIRED ≤ payee.nVotes ∧
          ∃ out ∈ tx.vout, out.scriptPubKey = payee.scriptPubKey := by
  unfold payeesIsTransactionValid
  rw [Bool.or_eq_true, List.isEmpty_iff, filter_eq_nil_iff, List.any_eq_true]
  apply or_congr
  · simp only [decide_eq_true_iff, not_le]
  constructor
  · grind
  · rintro ⟨payee, hmem, hvotes, out, hout, hsame⟩
    refine ⟨payee, mem_filter.mpr ⟨hmem, decide_eq_true hvotes⟩, any_eq_true.mpr ⟨out, hout, ?_⟩⟩
    exact beq_iff_eq.mpr hsame.symm

/-- **A staked block and its own payee check.**  On a synced node and outside budget payment blocks, a block with the
coinstake that was created passes the payee check exactly if payments are not enforced, or the tally of the height
has no payee with six votes, or a payee with six votes has the empty script, the script of the stake, or one of a bet
payout. -/
theorem created_payee_valid_iff (env : NodeEnv) (staking : StakingParams) (rules : StakeRules) (wallet : StakeWallet)
    (nBits : Nat) (attempts : List StakeAttempt) (tx : CTransaction) (staked : CTxOut)
    (due : List CBetOut) (block : CBlock)
    (hnames : env.NamesCoins attempts) (hsync : env.loc.synced = true)
    (hheight : env.params.height_last_PoW < env.chainHeight + 1)
    (hbudget : env.budgetDue = false)
    (h : env.createCoinStake staking rules wallet nBits attempts = .created tx)
    (hstaked : env.stakedOutput tx = some staked)
    (hdue : getBetPayouts env.betEnv env.loc.sources env.chain (env.chainHeight + 1) = some due)
    (hblock : block.vtx[1]? = some tx) : isBlockPayeeValid env.params env.loc block (env.chainHeight + 1) = some true ↔
      env.loc.isSporkActive .masternodePaymentEnforcement = false ∨
        ∀ vecPayments, env.loc.mapMasternodeBlocks (env.chainHeight + 1) = some vecPayments →
          (∀ payee ∈ vecPayments, payee.nVotes < MNPAYMENTS_SIGNATURES_REQUIRED) ∨
            ∃ payee ∈ vecPayments, MNPAYMENTS_SIGNATURES_REQUIRED ≤ payee.nVotes ∧
              (payee.scriptPubKey = [] ∨ wallet.stakeScript staked.scriptPubKey = some payee.scriptPubKey ∨
                ∃ payout ∈ (getBlockPayouts env.params due).2, payout.scriptPubKey = payee.scriptPubKey) := by
  obtain ⟨created, -⟩ := env.createCoinStake_created hnames h
  obtain ⟨due', hdue', hpayees⟩ := env.fillBlockPayee_payouts created.tip_eq hbudget created.payees_eq
  rw [hdue, some.injEq] at hdue'
  subst hdue'
  have hsame : created.staked = staked := some.inj (created.staked_eq.symm.trans hstaked)
  -- the scripts the coinstake pays, by what the node knew before it
  have hpays : ∀ script, (∃ out ∈ tx.vout, out.scriptPubKey = script) ↔
      script = [] ∨ wallet.stakeScript staked.scriptPubKey = some script ∨
        ∃ payout ∈ (getBlockPayouts env.params due).2, payout.scriptPubKey = script := by
    intro script
    rw [created.exists_pays_iff, hpayees, ← hsame, created.script_eq, some.injEq,
      eq_comm (a := created.scriptPubKey)]
    simp only [List.mem_map, exists_exists_and_eq_and]
  unfold budgetDue at hbudget
  unfold isBlockPayeeValid
  rw [hsync, if_neg (by decide), if_pos hheight, hblock, hbudget]
  dsimp only
  rw [if_neg Bool.false_ne_true, some.injEq]
  unfold LocalState.masternodePayeeValid LocalState.masternodeIsTransactionValid
  rw [Bool.or_eq_true, Bool.not_eq_true', or_comm]
  apply or_congr .rfl
  cases hvotes : env.loc.mapMasternodeBlocks (env.chainHeight + 1) with
  | none => exact iff_of_true rfl nofun
  | some vecPayments =>
    rw [payeesIsTransactionValid_iff]
    simp only [hpays, some.injEq, forall_eq']

/-- A synced node at height 299 of the sample chain that enforces payments; the tally of height 300 has six votes for
one payee. -/
def votedNode : NodeEnv :=
  { indexedNode with
    loc := { plainLocal with
      sporkValue := fun id => if id = .masternodePaymentEnforcement then 0 else plainLocal.sporkValue id
      mapMasternodeBlocks := fun nHeight =>
        if nHeight = 300 then some [⟨payTo 6, 6⟩] else none } }

/-- The wallet tries the six coins of the coinstake of height 250. -/
def votedAttempt : StakeAttempt where
  coin := ⟨sampleCoinstake 250, 1, by decide⟩
  interrupted := false
  nTxNewTime := sampleTime 299 + 15
  currentTimeSlot := sampleTime 299 + 15

def votedCoinstake : CTransaction :=
  { hash := 78
    vin := [.of 20250 1]
    vout := [⟨0, []⟩, ⟨7 * COIN, CScript.pushData (List.replicate 33 2) ++ [OP_CHECKSIG]⟩] }

def votedBlock : CBlock :=
  { hash := 60300, hashPrevBlock := 60299, nTime := sampleTime 299 + 15, vtx := [sampleCoinbase 300, votedCoinstake] }

/-- The producer does not ask the tally, and the node refuses its own block. -/
theorem voted_payee_not_paid :
    votedNode.createCoinStake .mainNet sampleRules sampleStakeWallet 0x1d00ffff [votedAttempt]
      = .created votedCoinstake ∧
      votedBlock.vtx[1]? = some votedCoinstake ∧ votedNode.loc.synced = true ∧
      votedNode.loc.isBudgetPaymentBlock (votedNode.chainHeight + 1) = false ∧
      isBlockPayeeValid votedNode.params votedNode.loc votedBlock (votedNode.chainHeight + 1) = some false := by
  decide +kernel

/-- The equivalence on the sample node, where both sides fail. -/
theorem voted_payee_iff :
    isBlockPayeeValid votedNode.params votedNode.loc votedBlock (votedNode.chainHeight + 1) = some true ↔
      votedNode.loc.isSporkActive .masternodePaymentEnforcement = false ∨
        ∀ vecPayments, votedNode.loc.mapMasternodeBlocks (votedNode.chainHeight + 1) = some vecPayments →
          (∀ payee ∈ vecPayments, payee.nVotes < MNPAYMENTS_SIGNATURES_REQUIRED) ∨
            ∃ payee ∈ vecPayments, MNPAYMENTS_SIGNATURES_REQUIRED ≤ payee.nVotes ∧ (payee.scriptPubKey = [] ∨
                sampleStakeWallet.stakeScript (payTo 9) = some payee.scriptPubKey ∨
                ∃ payout ∈ (getBlockPayouts votedNode.params []).2, payout.scriptPubKey = payee.scriptPubKey) := by
  have hnames : votedNode.NamesCoins [votedAttempt] :=
    namesCoins_singleton (sampleCoinstake 250, 60250) (by decide +kernel) rfl
  exact created_payee_valid_iff votedNode .mainNet sampleRules sampleStakeWallet 0x1d00ffff
    [votedAttempt] votedCoinstake
    ⟨6 * COIN, payTo 9⟩ [] votedBlock hnames rfl (by decide +kernel) (by decide +kernel)
    (by decide +kernel) (by decide +kernel) (by decide +kernel) rfl

end PwrbCore
