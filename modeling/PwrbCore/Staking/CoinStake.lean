/-
  Staking.CoinStake — MAKING A COINSTAKE (`CWallet::CreateCoinStake` of `wallet/wallet.cpp`,
  `CPwrbStake::CreateTxOuts` of `stakeinput.cpp`, `FillBlockPayee` of
  `masternode-payments.cpp` and `masternode-budget.cpp`).

  The wallet tries its outputs one after the other.  The flag `fKernelFound` is what the
  last attempt at a kernel said; the transaction is built afterwards, and an attempt that
  fails in between leaves the flag set.

  Main result: `kernelSearch_sound_iff`.
-/
import PwrbCore.Script.Templates
import PwrbCore.Staking.Kernel

namespace PwrbCore

open List

/-! ## §1. The outputs of a stake. -/

variable {scriptPubKey : CScript} {o : CTxOut} {vout : List CTxOut} {nCredit : Int}

/-- `COutput`: an output of a wallet transaction. `StakeableCoins` lists existing ones. -/
structure COutput where
  tx : CTransaction
  i : Nat
  lt : i < tx.vout.length

def COutput.txout (coin : COutput) : CTxOut := coin.tx.vout.get ⟨coin.i, coin.lt⟩

def COutput.txin (coin : COutput) : CTxIn := .of coin.tx.hash coin.i

/-- A `CMutableTransaction`, as far as it is filled in. -/
structure CoinStakeDraft where
  vin : List CTxIn
  vout : List CTxOut
  deriving DecidableEq, Repr

structure StakeWallet where
  /-- `GetKey`, as its public key -/
  getKey : Uint160 → Option { vch : List UInt8 // vch.length ≤ 65 }
  nStakeSplitThreshold : Int
  /-- `SignSignature` of the inputs -/
  signInputs : CoinStakeDraft → Option CTransaction
  /-- a signature changes the `scriptSig`s only -/
  signs : ∀ txNew tx, signInputs txNew = some tx → tx.vout = txNew.vout ∧ tx.prevouts = txNew.vin.map CTxIn.prevout

section

variable (wallet : StakeWallet)

/-- The script the stake goes back to: a public-key hash becomes its public key. -/
def StakeWallet.stakeScript (scriptPubKeyKernel : CScript) : Option CScript :=
  match solver scriptPubKeyKernel with
  | some (.pubKeyHash, keyHash :: _) =>
      ((toUint160 keyHash).bind wallet.getKey).map fun key => CScript.pushData key.1 ++ [OP_CHECKSIG]
  | some (.coldStake, staker :: _) =>
      ((toUint160 staker).bind wallet.getKey).map fun _ => scriptPubKeyKernel
  | some (.pubKey, _) => some scriptPubKeyKernel
  | _ => none

def maxStakeSplit : Int := 100000 / 2 ^ 11

/-- How many outputs the stake is split into; the quotient is cast to `int`. -/
def StakeWallet.splitCount (nTotal : Int) : Nat :=
  if 0 < wallet.nStakeSplitThreshold then
    let nSplit := Int.bmod (nTotal.tdiv wallet.nStakeSplitThreshold) (2 ^ 32)
    if 1 < nSplit then (min nSplit maxStakeSplit).toNat else 1
  else 1

/-- `CPwrbStake::CreateTxOuts`. -/
def StakeWallet.createTxOuts (coin : COutput) (nTotal : Int) : Option (List CTxOut) :=
  (wallet.stakeScript coin.txout.scriptPubKey).map fun scriptPubKey =>
    List.replicate (wallet.splitCount nTotal) ⟨0, scriptPubKey⟩

/-- The amounts of the outputs after the first: equal shares, the rest for the last. -/
def shareOut (nShare : Int) : List CTxOut → Int → List CTxOut
  | [], _ => []
  | [last], nRemaining => [{ last with nValue := last.nValue + nRemaining }]
  | out :: next :: rest, nRemaining => { out with nValue := nShare } :: shareOut nShare (next :: rest)
    (nRemaining - nShare)

/-- "Set output amount": the first output is left as it is, unless it is the only one. -/
def setAmounts (nCredit : Int) : List CTxOut → List CTxOut
  | [] => []
  | [only] => [{ only with nValue := only.nValue + nCredit }]
  | first :: rest => first :: shareOut (nCredit.tdiv rest.length) rest nCredit

/-! ## §2. The payees of a block. -/

def CFinalizedBudget.getPayeeAndAmount (b : CFinalizedBudget) (nBlockHeight : Int) : Option CTxOut :=
  if nBlockHeight - b.nBlockStart < 0 then none
  else (b.vecBudgetPayments[(nBlockHeight - b.nBlockStart).toNat]?).map fun p => ⟨p.nAmount, p.payee⟩

/-- `CBudgetManager::FillBlockPayee` of a staked block: the payment of the budget with the most votes. -/
def LocalState.budgetPayee (l : LocalState) (nBlockHeight : Int) : List CTxOut :=
  (l.mapFinalizedBudgets.foldl (fun (best : Int × List CTxOut) b =>
      if best.1 < b.voteCount ∧ b.coversHeight nBlockHeight then
        match b.getPayeeAndAmount nBlockHeight with
        | some out => (b.voteCount, [out])
        | none => best
      else best) (0, [])).2

theorem CFinalizedBudget.exists_scheduled {b : CFinalizedBudget} {nBlockHeight : Int}
    (hcovers : b.coversHeight nBlockHeight = true) : ∃ payment, b.scheduled nBlockHeight = some payment ∧
      b.getPayeeAndAmount nBlockHeight = some ⟨payment.nAmount, payment.payee⟩ := by
  unfold coversHeight blockEnd at hcovers
  rw [Bool.and_eq_true, decide_eq_true_iff, decide_eq_true_iff] at hcovers
  have hlt : (nBlockHeight - b.nBlockStart).toNat < b.vecBudgetPayments.length := by omega
  unfold scheduled getPayeeAndAmount
  rw [if_neg (by omega), if_neg (by omega), getElem?_eq_getElem hlt]
  exact ⟨_, rfl, rfl⟩

/-- **`FillBlockPayee`** pays a budget with the most votes, if any has votes. -/
theorem LocalState.budgetPayee_spec (l : LocalState) (nBlockHeight : Int) :
    l.highestCount nBlockHeight 0 = 0 ∧ l.budgetPayee nBlockHeight = [] ∨
      ∃ b ∈ l.mapFinalizedBudgets, b.coversHeight nBlockHeight = true ∧ b.voteCount = l.highestCount nBlockHeight 0 ∧
        ∃ out, b.getPayeeAndAmount nBlockHeight = some out ∧ l.budgetPayee nBlockHeight = [out] := by
  let R (best : Int × List CTxOut) (highest : Int) : Prop := best.1 = highest ∧ (highest = 0 ∧ best.2 = [] ∨
    ∃ b ∈ l.mapFinalizedBudgets, b.coversHeight nBlockHeight = true ∧ b.voteCount = highest ∧
      ∃ out, b.getPayeeAndAmount nBlockHeight = some out ∧ best.2 = [out])
  refine (foldl_rel (r := R) (a := (0, [])) (b := 0) ⟨rfl, .inl ⟨rfl, rfl⟩⟩ ?_).2
  rintro b hb best highest ⟨rfl, hbest⟩
  split_ifs with hmore
  · obtain ⟨payment, -, hout⟩ := CFinalizedBudget.exists_scheduled hmore.2
    rw [hout]
    exact ⟨rfl, .inr ⟨b, hb, hmore.2, rfl, _, hout, rfl⟩⟩
  · exact ⟨rfl, hbest⟩

/-- A budget payment is due in the next block. -/
abbrev NodeEnv.budgetDue (env : NodeEnv) : Bool :=
  env.loc.isSporkActive .enableSuperblocks && env.loc.isBudgetPaymentBlock (env.chainHeight + 1)

/-- `FillBlockPayee` of a staked block: the outputs appended to the coinstake, the bet payouts outside budget payment
blocks. `none` is an exception of `GetBetPayouts`. -/
def NodeEnv.fillBlockPayee (env : NodeEnv) : Option (List CTxOut) :=
  if env.chain = [] then some []
  else if env.budgetDue then
    some (env.loc.budgetPayee (env.chainHeight + 1))
  else
    (getBetPayouts env.betEnv env.loc.sources env.chain (env.chainHeight + 1)).map fun vLottoPayouts =>
      (getBlockPayouts env.params vLottoPayouts).2.map CBetOut.toCTxOut

/-! ## §3. The search. -/

/-- One turn of the search, with the answers it gets. -/
structure StakeTurn where
  coin : COutput
  /-- a new block came in, the wallet is locked or the node shuts down -/
  interrupted : Bool
  /-- what `Stake` says -/
  kernelFound : Bool
  /-- whether `CreateTxIn` succeeds -/
  createsTxIn : Bool

def CoinStakeDraft.serializeSize (txNew : CoinStakeDraft) : Nat :=
  4 + ((writeCompactSize txNew.vin.length).length +
    (txNew.vin.map fun i => 40 + (CScript.serialize i.scriptSig).length).sum)
    + ((writeCompactSize txNew.vout.length).length + (txNew.vout.map fun o => o.serialize.length).sum) + 4

def maxCoinStakeSize : Nat := 675000

inductive SearchResult where
  /-- the loop is left, with the flag and the transaction as they stand -/
  | ended (fKernelFound : Bool) (txNew : CoinStakeDraft)
  /-- `return false` -/
  | stopped
  /-- an exception leaves `FillBlockPayee` -/
  | thrown
  deriving DecidableEq, Repr

/-- The kernel search of `CreateCoinStake`. -/
def kernelSearch (wallet : StakeWallet) (nReward : Int) (payees : Option (List CTxOut)) :
    List StakeTurn → Bool → CoinStakeDraft → SearchResult
  | [], fKernelFound, txNew => .ended fKernelFound txNew
  | turn :: turns, _, txNew =>
    if turn.interrupted then .stopped
    else if !turn.kernelFound then kernelSearch wallet nReward payees turns false txNew
    else
      let nCredit := turn.coin.txout.nValue + nReward
      match wallet.createTxOuts turn.coin nCredit with
      -- the flag stays set
      | none => kernelSearch wallet nReward payees turns true txNew
      | some vout =>
        let vout := setAmounts nCredit (txNew.vout ++ vout)
        if maxCoinStakeSize ≤ (CoinStakeDraft.mk txNew.vin vout).serializeSize then .stopped
        else
          match payees with
          | none => .thrown
          | some payees =>
            if turn.createsTxIn then .ended true ⟨txNew.vin ++ [turn.coin.txin], vout ++ payees⟩
            -- everything is cleared, the marker too
            else kernelSearch wallet nReward (some payees) turns true ⟨[], []⟩

def coinStakeMarker : CTxOut := ⟨0, []⟩

/-! ## §4. The size limit is never met. -/

theorem StakeWallet.stakeScript_spec {wallet : StakeWallet} {kernel : CScript}
    (h : wallet.stakeScript kernel = some scriptPubKey) : scriptPubKey ≠ [] ∧ scriptPubKey.length ≤ 770 := by
  -- the kernel itself, when it is kept, matched a template
  have hkernel : ∀ {which sols}, solver kernel = some (which, sols) → which = .pubKey ∨ which = .coldStake →
      kernel ≠ [] ∧ kernel.length ≤ 770 := by
    intro which sols hsolver hwhich
    constructor
    · rintro rfl
      cases hsolver
    · exact (length_le_of_solver hsolver (hwhich.imp_right .inr)).2
  unfold stakeScript at h
  split at h
  next keyHash _ hsolver =>
    rw [Option.map_eq_some_iff] at h
    obtain ⟨key, -, rfl⟩ := h
    refine ⟨append_ne_nil_of_right_ne_nil _ (cons_ne_nil _ _), ?_⟩
    grind [CScript.pushData]
  next staker _ hsolver =>
    rw [Option.map_eq_some_iff] at h
    obtain ⟨-, -, rfl⟩ := h
    exact hkernel hsolver (.inr rfl)
  next hsolver =>
    cases h
    exact hkernel hsolver (.inl rfl)
  next => cases h

theorem StakeWallet.splitCount_bounds (nTotal : Int) :
    1 ≤ wallet.splitCount nTotal ∧ wallet.splitCount nTotal ≤ 48 := by
  have hmax : maxStakeSplit = 48 := by decide
  unfold splitCount
  split_ifs with hthreshold
  · dsimp only
    split_ifs with hsplit
    · omega
    · omega
  · omega

theorem length_writeCompactSize_le (n : Nat) : (writeCompactSize n).length ≤ 9 := by
  unfold writeCompactSize
  split_ifs <;> simp

theorem length_serialize_le (h : o.scriptPubKey.length ≤ 770) : o.serialize.length ≤ 787 := by
  unfold CTxOut.serialize CScript.serialize writeInt
  rw [length_append, length_append, length_writeLE]
  have hsize := length_writeCompactSize_le o.scriptPubKey.length
  omega

theorem map_shareOut (nShare : Int) (vout : List CTxOut) (nRemaining : Int) :
    (shareOut nShare vout nRemaining).map CTxOut.scriptPubKey = vout.map CTxOut.scriptPubKey := by
  fun_induction shareOut nShare vout nRemaining with
  | case1 | case2 => rfl
  | case3 out next rest nRemaining ih =>
    rw [map_cons, ih]
    rfl

/-- The amounts are set, the scripts stay. -/
theorem map_setAmounts (nCredit : Int) (vout : List CTxOut) :
    (setAmounts nCredit vout).map CTxOut.scriptPubKey = vout.map CTxOut.scriptPubKey := by
  unfold setAmounts
  split
  next => rfl
  next => rfl
  next first rest _ => rw [map_cons, map_shareOut, map_cons]

/-- A coinstake of at most one output before those of the stake is far below the limit. -/
theorem StakeWallet.serializeSize_lt {wallet : StakeWallet} {coin : COutput} {before : List CTxOut}
    (hvout : wallet.createTxOuts coin nCredit = some vout) (hbefore : before = [coinStakeMarker] ∨ before = []) :
    (CoinStakeDraft.mk [] (setAmounts nCredit (before ++ vout))).serializeSize < maxCoinStakeSize := by
  unfold createTxOuts at hvout
  rw [Option.map_eq_some_iff] at hvout
  obtain ⟨scriptPubKey, hscript, rfl⟩ := hvout
  have hcount := wallet.splitCount_bounds nCredit
  have hlength : (before ++ replicate (wallet.splitCount nCredit) (⟨0, scriptPubKey⟩ : CTxOut)).length ≤ 49 := by
    grind
  have hscripts : ∀ s ∈ map CTxOut.scriptPubKey (before ++ replicate (wallet.splitCount nCredit) ⟨0, scriptPubKey⟩),
      s.length ≤ 770 := by
    refine forall_mem_map.mpr fun o ho => ?_
    rcases mem_append.mp ho with hmem | hmem
    · rcases hbefore with rfl | rfl
      · rw [mem_singleton.mp hmem]
        exact Nat.zero_le _
      · cases hmem
    · rw [eq_of_mem_replicate hmem]
      exact (stakeScript_spec hscript).2
  have hmap := map_setAmounts nCredit (before ++ replicate (wallet.splitCount nCredit) ⟨0, scriptPubKey⟩)
  -- both facts are about the scripts, which the amounts leave
  rw [← length_map CTxOut.scriptPubKey, ← hmap, length_map] at hlength
  rw [← hmap, forall_mem_map] at hscripts
  generalize setAmounts nCredit _ = outs at hlength hscripts
  have hsum : (outs.map fun o => o.serialize.length).sum ≤ outs.length * 787 := by
    have hle : ∀ x ∈ outs.map fun o => o.serialize.length, x ≤ 787 := by grind [length_serialize_le]
    have hsum := sum_le_card_nsmul _ _ hle
    rw [length_map] at hsum
    exact hsum
  have hin := length_writeCompactSize_le 0
  have hout := length_writeCompactSize_le outs.length
  unfold CoinStakeDraft.serializeSize maxCoinStakeSize
  simp only [length_nil, map_nil, sum_nil]
  omega

/-! ## §5. What one turn does. -/

theorem shareOut_replicate (nShare nRemaining : Int) (k : Nat) (scriptPubKey : CScript) :
    shareOut nShare (replicate (k + 1) ⟨0, scriptPubKey⟩) nRemaining
      = replicate k ⟨nShare, scriptPubKey⟩ ++ [⟨nRemaining - k * nShare, scriptPubKey⟩] := by
  induction k generalizing nRemaining with
  | zero =>
    show [(⟨0 + nRemaining, scriptPubKey⟩ : CTxOut)] = [⟨nRemaining - 0 * nShare, scriptPubKey⟩]
    rw [Int.zero_add, Int.zero_mul, Int.sub_zero]
  | succ k ih =>
    grind [shareOut]

/-- **The staking outputs** behind the marker: equal shares, and the rest. -/
theorem setAmounts_marker (nCredit : Int) (k : Nat) (scriptPubKey : CScript) :
    setAmounts nCredit (coinStakeMarker :: replicate (k + 1) ⟨0, scriptPubKey⟩)
      = coinStakeMarker :: (replicate k ⟨nCredit.tdiv (k + 1 : Nat), scriptPubKey⟩
          ++ [⟨nCredit - k * nCredit.tdiv (k + 1 : Nat), scriptPubKey⟩]) := by
  show coinStakeMarker :: shareOut (nCredit.tdiv (replicate (k + 1) (⟨0, scriptPubKey⟩ : CTxOut)).length)
    (replicate (k + 1) ⟨0, scriptPubKey⟩) nCredit = _
  rw [length_replicate, shareOut_replicate]

theorem setAmounts_replicate (nCredit : Int) (k : Nat) (scriptPubKey : CScript) :
    ∃ first rest, setAmounts nCredit (replicate (k + 1) ⟨0, scriptPubKey⟩) = first :: rest ∧
      first.scriptPubKey = scriptPubKey := by
  cases k <;> exact ⟨_, _, rfl, rfl⟩

inductive TurnOutcome where
  /-- the search is given up -/
  | stops
  /-- no kernel -/
  | misses
  /-- a kernel, but `CreateTxOuts` fails -/
  | noOutputs
  /-- a kernel and outputs, but `CreateTxIn` fails -/
  | noInput
  | completes
  deriving DecidableEq, Repr

/-- The checks of a turn, in their order. -/
def StakeTurn.outcome (payees : Option (List CTxOut)) (turn : StakeTurn) : TurnOutcome :=
  if turn.interrupted then .stops
  else if !turn.kernelFound then .misses
  else if (wallet.stakeScript turn.coin.txout.scriptPubKey).isNone then .noOutputs
  else if payees.isNone then .stops
  else if turn.createsTxIn then .completes
  else .noInput

/-- The transaction at the start of a turn: nothing, or the marker. -/
def draftStart (marker : Bool) : CoinStakeDraft := ⟨[], if marker then [coinStakeMarker] else []⟩

/-- What the search does after a turn, by the outcome of the turn. -/
inductive SearchTurn (wallet : StakeWallet) (nReward : Int) (payees : Option (List CTxOut))
    (marker : Bool) (turn : StakeTurn)
    (turns : List StakeTurn) : TurnOutcome → SearchResult → Prop where
  | stopped : SearchTurn wallet nReward payees marker turn turns .stops .stopped
  | thrown : SearchTurn wallet nReward payees marker turn turns .stops .thrown
  | misses : SearchTurn wallet nReward payees marker turn turns .misses
      (kernelSearch wallet nReward payees turns false (draftStart marker))
  | noOutputs : SearchTurn wallet nReward payees marker turn turns .noOutputs
      (kernelSearch wallet nReward payees turns true (draftStart marker))
  | noInput : SearchTurn wallet nReward payees marker turn turns .noInput
      (kernelSearch wallet nReward payees turns true (draftStart false))
  | completes (scriptPubKey : CScript) (outs : List CTxOut)
      (hscript : wallet.stakeScript turn.coin.txout.scriptPubKey = some scriptPubKey)
      (houts : payees = some outs) : SearchTurn wallet nReward payees marker turn turns .completes
      (.ended true ⟨[turn.coin.txin], setAmounts (turn.coin.txout.nValue + nReward) ((draftStart marker).vout
        ++ List.replicate (wallet.splitCount (turn.coin.txout.nValue + nReward)) ⟨0, scriptPubKey⟩) ++ outs⟩)

/-- **One turn of the search.** -/
theorem kernelSearch_cons (nReward : Int) (payees : Option (List CTxOut)) (turn : StakeTurn)
    (turns : List StakeTurn) (fKernelFound marker : Bool) :
    SearchTurn wallet nReward payees marker turn turns (turn.outcome wallet payees)
      (kernelSearch wallet nReward payees (turn :: turns) fKernelFound (draftStart marker)) := by
  unfold StakeTurn.outcome kernelSearch
  by_cases hstop : turn.interrupted = true
  · rw [if_pos hstop, if_pos hstop]
    exact .stopped
  rw [if_neg hstop, if_neg hstop]
  by_cases hmiss : (!turn.kernelFound) = true
  · rw [if_pos hmiss, if_pos hmiss]
    exact .misses
  rw [if_neg hmiss, if_neg hmiss]
  dsimp only
  cases hscript : wallet.stakeScript turn.coin.txout.scriptPubKey with
  | none =>
    have hnone : wallet.createTxOuts turn.coin (turn.coin.txout.nValue + nReward) = none := by
      simp [StakeWallet.createTxOuts, hscript]
    rw [hnone]
    exact .noOutputs
  | some scriptPubKey =>
    have hsome : wallet.createTxOuts turn.coin (turn.coin.txout.nValue + nReward)
        = some (replicate (wallet.splitCount (turn.coin.txout.nValue + nReward)) ⟨0, scriptPubKey⟩) := by
      simp [StakeWallet.createTxOuts, hscript]
    have hstart : (draftStart marker).vout = [coinStakeMarker] ∨ (draftStart marker).vout = [] := by
      cases marker <;> simp [draftStart]
    have hsize := StakeWallet.serializeSize_lt hsome hstart
    have hvin : (draftStart marker).vin = [] := rfl
    rw [hsome]
    dsimp only
    rw [hvin, if_neg (not_le.mpr hsize)]
    cases payees with
    | none => exact .thrown
    | some outs =>
      dsimp only [Option.isNone_some]
      by_cases hin : turn.createsTxIn = true
      · rw [if_pos hin, if_pos hin]
        exact .completes scriptPubKey outs hscript rfl
      · rw [if_neg hin, if_neg hin]
        exact .noInput

/-! ## §6. When the search is sound. -/

/-- **The coinstake**: one input, the empty marker, staking outputs that add up to stake and reward, and the payees.
-/
def CoinStakeDraft.Built (txNew : CoinStakeDraft) (nReward : Int) (payees : Option (List CTxOut))
    (turns : List StakeTurn) :
    Prop :=
  ∃ turn ∈ turns, txNew.vin = [turn.coin.txin] ∧ ∃ staking outs, payees = some outs ∧
    txNew.vout = coinStakeMarker :: (staking ++ outs) ∧
    (staking.map CTxOut.nValue).sum = turn.coin.txout.nValue + nReward

/-- If the search ended with the flag set, the coinstake is there. -/
def SearchResult.Sound (result : SearchResult) (nReward : Int) (payees : Option (List CTxOut))
    (turns : List StakeTurn) : Prop :=
  ∀ txNew, result = .ended true txNew → txNew.Built nReward payees turns

def TurnOutcome.Fails (outcome : TurnOutcome) : Prop := outcome = .noOutputs ∨ outcome = .noInput

def TurnOutcome.Passes (outcome : TurnOutcome) : Prop := outcome = .misses ∨ outcome.Fails

/-- **An unsound search**, from a state with or without the marker and with the flag: the turns run out on one that
found a kernel and failed, or a turn completes after the marker was lost. -/
def Unsound (outcome : StakeTurn → TurnOutcome) (marker fKernelFound : Bool) (turns : List StakeTurn) : Prop :=
  (turns = [] ∧ fKernelFound = true) ∨
    ∃ before turn after, turns = before ++ turn :: after ∧ (∀ t ∈ before, (outcome t).Passes) ∧
      ((after = [] ∧ (outcome turn).Fails) ∨
        (outcome turn = .completes ∧ (marker = false ∨ ∃ t ∈ before, outcome t = .noInput)))

/-- **One turn**: it completes without the marker, or the search goes on and is unsound. -/
theorem unsound_cons_iff {outcome : StakeTurn → TurnOutcome} {turn : StakeTurn} {marker fKernelFound : Bool}
    {turns : List StakeTurn} : Unsound outcome marker fKernelFound (turn :: turns) ↔
      (outcome turn = .completes ∧ marker = false) ∨ ((outcome turn).Passes ∧
        Unsound outcome (marker && decide (outcome turn ≠ .noInput)) (decide (outcome turn ≠ .misses)) turns) := by
  constructor
  · rintro (⟨hnil, -⟩ | ⟨before, t, after, hturns, hbefore, hbad⟩)
    · cases hnil
    · cases before with
      | nil =>
        cases hturns
        rcases hbad with ⟨hafter, hfails⟩ | ⟨hc, hmarker | ⟨_, hmem, -⟩⟩
        · refine .inr ⟨.inr hfails, .inl ⟨hafter, decide_eq_true ?_⟩⟩
          rcases hfails with hf | hf <;> simp [hf]
        · exact .inl ⟨hc, hmarker⟩
        · cases hmem
      | cons first before =>
        cases hturns
        refine .inr ⟨hbefore turn mem_cons_self,
          .inr ⟨before, t, after, rfl, fun u hu => hbefore u (mem_cons_of_mem _ hu), hbad.imp_right ?_⟩⟩
        grind
  · rintro (⟨hc, hmarker⟩ | ⟨hpass, ⟨rfl, hflag⟩ | ⟨before, t, after, rfl, hbefore, hbad⟩⟩)
    · exact .inr ⟨[], turn, turns, rfl, by simp, .inr ⟨hc, .inl hmarker⟩⟩
    · exact .inr ⟨[], turn, [], rfl, by simp, .inl ⟨rfl, hpass.resolve_left (of_decide_eq_true hflag)⟩⟩
    · refine .inr ⟨turn :: before, t, after, rfl, forall_mem_cons.mpr ⟨hpass, hbefore⟩, hbad.imp_right ?_⟩
      grind

theorem unsound_nil (outcome : StakeTurn → TurnOutcome) (marker fKernelFound : Bool) :
    Unsound outcome marker fKernelFound [] ↔ fKernelFound = true := by
  constructor
  · rintro (⟨-, hflag⟩ | ⟨before, t, after, hturns, -⟩)
    · exact hflag
    · exact absurd hturns.symm (append_ne_nil_of_right_ne_nil _ (cons_ne_nil _ _))
  · intro hflag
    exact .inl ⟨rfl, hflag⟩

/-- The staking outputs behind the marker add up to the credit. -/
theorem sum_stakingOutputs (nCredit nShare : Int) (k : Nat) (scriptPubKey : CScript) :
    (map CTxOut.nValue (replicate k ⟨nShare, scriptPubKey⟩ ++ [⟨nCredit - k * nShare, scriptPubKey⟩])).sum
      = nCredit := by
  rw [map_append, sum_append, map_replicate, sum_replicate]
  show (k : Int) * nShare + ((nCredit - k * nShare) + 0) = nCredit
  omega

/-- A turn that completes leaves the coinstake exactly if the marker was there. -/
theorem built_completes_iff {wallet : StakeWallet} {nReward : Int} {payees : Option (List CTxOut)}
    {turns : List StakeTurn}
    {turn : StakeTurn} (hturn : turn ∈ turns) {outs : List CTxOut}
    (hscript : wallet.stakeScript turn.coin.txout.scriptPubKey = some scriptPubKey) (houts : payees = some outs)
    (marker : Bool) :
    (CoinStakeDraft.mk [turn.coin.txin] (setAmounts (turn.coin.txout.nValue + nReward) ((draftStart marker).vout
        ++ replicate (wallet.splitCount (turn.coin.txout.nValue + nReward)) ⟨0, scriptPubKey⟩) ++ outs)).Built
      nReward payees turns ↔ marker = true := by
  obtain ⟨k, hk⟩ : ∃ k, wallet.splitCount (turn.coin.txout.nValue + nReward) = k + 1 :=
    ⟨_, (Nat.sub_add_cancel (wallet.splitCount_bounds _).1).symm⟩
  rw [hk]
  cases marker with
  | true =>
    have hvout := setAmounts_marker (turn.coin.txout.nValue + nReward) k scriptPubKey
    refine iff_of_true ⟨turn, hturn, rfl, _, outs, houts, ?_, sum_stakingOutputs _
      ((turn.coin.txout.nValue + nReward).tdiv (k + 1 : Nat)) k scriptPubKey⟩ rfl
    show setAmounts _ (coinStakeMarker :: replicate (k + 1) ⟨0, scriptPubKey⟩) ++ outs = _
    rw [hvout, cons_append]
  | false =>
    refine iff_of_false ?_ Bool.false_ne_true
    rintro ⟨_, -, -, staking, outs', -, hvout, -⟩
    obtain ⟨first, rest, hamounts, hfirst⟩ := setAmounts_replicate (turn.coin.txout.nValue + nReward) k scriptPubKey
    change setAmounts _ (replicate (k + 1) ⟨0, scriptPubKey⟩) ++ outs = _ at hvout
    rw [hamounts, cons_append, cons.injEq] at hvout
    -- the first output has the script of the stake, which is not empty
    rw [hvout.1] at hfirst
    exact (StakeWallet.stakeScript_spec hscript).1 hfirst.symm

/-- The search from any state, by induction over the turns still to come. -/
theorem sound_iff_not_unsound (nReward : Int) (payees : Option (List CTxOut)) (all : List StakeTurn)
    (turns : List StakeTurn) (hall : ∀ t ∈ turns, t ∈ all) (fKernelFound marker : Bool) :
    (kernelSearch wallet nReward payees turns fKernelFound (draftStart marker)).Sound nReward payees all ↔
      ¬ Unsound (fun t => t.outcome wallet payees) marker fKernelFound turns := by
  induction turns generalizing fKernelFound marker with
  | nil =>
    rw [unsound_nil]
    cases fKernelFound with
    | false => exact iff_of_true (nofun) Bool.false_ne_true
    | true =>
      refine iff_of_false ?_ (not_not_intro rfl)
      intro hsound
      obtain ⟨_, -, hvin, -⟩ := hsound _ rfl
      cases hvin
  | cons turn turns ih =>
    have hrest := ih fun t ht => hall t (mem_cons_of_mem _ ht)
    have hturn := hall turn mem_cons_self
    have hstep := kernelSearch_cons wallet nReward payees turn turns fKernelFound marker
    generalize hres : kernelSearch wallet nReward payees (turn :: turns) fKernelFound (draftStart marker)
      = result at hstep ⊢
    generalize hout : turn.outcome wallet payees = outcome at hstep
    cases hstep with
    | stopped | thrown =>
      exact iff_of_true nofun (by simp [unsound_cons_iff, hout, TurnOutcome.Passes, TurnOutcome.Fails])
    | misses | noOutputs | noInput => simp [hrest, unsound_cons_iff, hout, TurnOutcome.Passes, TurnOutcome.Fails]
    | completes scriptPubKey outs hscript houts =>
      simp only [unsound_cons_iff, hout, TurnOutcome.Passes, TurnOutcome.Fails, true_and,
        reduceCtorEq, false_and, or_false, Bool.not_eq_false]
      rw [← built_completes_iff hturn hscript houts marker]
      constructor
      · intro hsound
        exact hsound _ rfl
      · rintro hbuilt txNew ⟨⟩
        exact hbuilt

end

/-- **The kernel search.** If it ends with the flag set, the transaction has exactly one input, the empty marker
first, and staking outputs that add up to the staked value and the reward — exactly unless, after turns that were all
passed over, the last turn of all found a kernel and failed, or a turn completed after one whose input failed. -/
theorem kernelSearch_sound_iff (wallet : StakeWallet) (nReward : Int) (payees : Option (List CTxOut))
    (turns : List StakeTurn) :
    (kernelSearch wallet nReward payees turns false ⟨[], [coinStakeMarker]⟩).Sound nReward payees turns ↔
      ¬ ∃ before turn after, turns = before ++ turn :: after ∧ (∀ t ∈ before, (t.outcome wallet payees).Passes) ∧
        ((after = [] ∧ (turn.outcome wallet payees).Fails) ∨
          (turn.outcome wallet payees = .completes ∧ ∃ t ∈ before, t.outcome wallet payees = .noInput)) := by
  have h := sound_iff_not_unsound wallet nReward payees turns turns (fun _ ht => ht) false true
  unfold Unsound at h
  simp only [Bool.false_eq_true, and_false, false_or, Bool.true_eq_false] at h
  exact h

/-- A wallet with the key of the sample staker and no split threshold. Its signature keeps the transaction. -/
def sampleStakeWallet : StakeWallet where
  getKey := fun id => if id = sampleKey 9 then some ⟨List.replicate 33 2, by simp⟩ else none
  nStakeSplitThreshold := 0
  signInputs := fun txNew => some { hash := 78, vin := txNew.vin, vout := txNew.vout }
  signs := by
    intro txNew tx h
    cases h
    exact ⟨rfl, rfl⟩

def scriptHashCoin : COutput where
  tx := { hash := 20251, vin := [], vout := [⟨5 * COIN, getScriptForDestination (.scriptID (sampleKey 3))⟩] }
  i := 0
  lt := Nat.one_pos

/-- The only stakeable output is at a script hash and hits a kernel: the search ends with the flag set and no input,
and the code reads `vin[0]`. -/
theorem kernel_without_input :
    kernelSearch sampleStakeWallet (getBlockValue 300) (some []) [⟨scriptHashCoin, false, true, true⟩] false
        ⟨[], [coinStakeMarker]⟩ = .ended true ⟨[], [coinStakeMarker]⟩ ∧
      ¬ (kernelSearch sampleStakeWallet (getBlockValue 300) (some []) [⟨scriptHashCoin, false, true, true⟩] false
        ⟨[], [coinStakeMarker]⟩).Sound (getBlockValue 300) (some []) [⟨scriptHashCoin, false, true, true⟩] := by
  have hrun : kernelSearch sampleStakeWallet (getBlockValue 300) (some []) [⟨scriptHashCoin, false, true, true⟩] false
      ⟨[], [coinStakeMarker]⟩ = .ended true ⟨[], [coinStakeMarker]⟩ := by decide +kernel
  refine ⟨hrun, ?_⟩
  intro hsound
  obtain ⟨_, -, hvin, -⟩ := hsound _ hrun
  cases hvin

/-! ## §7. `CreateCoinStake` on a node. -/

def NodeEnv.tipIndex (env : NodeEnv) (tip : CBlock) : StakeIndex := ⟨tip.hash, env.chainHeight, tip.nTime⟩

/-- One attempt at an output, with what changes in between: an interruption, the block time and the time slot. -/
structure StakeAttempt where
  coin : COutput
  interrupted : Bool
  nTxNewTime : Nat
  currentTimeSlot : Nat

section

variable (env : NodeEnv) (staking : StakingParams) (rules : StakeRules)

def NodeEnv.stake (pindexPrev : StakeIndex) (nBits : Nat) (attempt : StakeAttempt) : Bool :=
  match (env.getTransaction attempt.coin.tx.hash).bind fun found => env.indexInChain found.2 with
  | none => false
  | some pindexFrom =>
    let stakeInput : CPwrbStake := ⟨attempt.coin.tx, attempt.coin.i, pindexFrom⟩
    if !stakeInput.contextCheck env.params staking (pindexPrev.nHeight + 1) attempt.nTxNewTime then false
    else if attempt.currentTimeSlot ≤ pindexPrev.nTime ∧ env.params.network ≠ .regtest then false
    else
      match stakeKernel staking rules pindexPrev (.pwrb stakeInput) nBits attempt.currentTimeSlot with
      | none => false
      | some kernel => kernel.checkKernelHash rules.hash

inductive CoinStakeResult where
  | created (tx : CTransaction)
  | failed
  /-- an exception leaves `FillBlockPayee` -/
  | thrown
  /-- `vin[0]` of a transaction without inputs -/
  | undefinedAccess
  deriving DecidableEq, Repr

/-- The turns of the search on a node; `CPwrbStake::CreateTxIn` always succeeds. -/
def NodeEnv.stakeTurns (tip : CBlock) (nBits : Nat) (attempts : List StakeAttempt) : List StakeTurn :=
  attempts.map fun attempt =>
    ⟨attempt.coin, attempt.interrupted, env.stake staking rules (env.tipIndex tip) nBits attempt, true⟩

/-- `CreateCoinStake`. -/
def NodeEnv.createCoinStake (wallet : StakeWallet) (nBits : Nat) (attempts : List StakeAttempt) : CoinStakeResult :=
  match env.chain.getLast? with
  | none => .failed
  | some tip =>
    if attempts = [] then .failed
    else
      match kernelSearch wallet (getBlockValue (env.chainHeight + 1)) env.fillBlockPayee
        (env.stakeTurns staking rules tip nBits attempts) false ⟨[], [coinStakeMarker]⟩ with
      | .stopped => .failed
      | .thrown => .thrown
      | .ended false _ => .failed
      | .ended true txNew =>
        if txNew.vin = [] then .undefinedAccess
        else
          match wallet.signInputs txNew with
          | none => .failed
          | some tx => .created tx

end

end PwrbCore
