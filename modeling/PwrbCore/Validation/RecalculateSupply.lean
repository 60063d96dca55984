/-
  Validation.RecalculateSupply — THE MONEY SUPPLY, COUNTED A SECOND TIME (`RecalculatePWRBSupply` of
  `consensus/zerocoin_verify.cpp`).

  `ConnectBlock` keeps the counter up to date block by block, from the coins view it spends
  from.  The recalculation walks the active chain, reads every previous output through
  `GetTransaction`, and adds the sum to whatever the counter holds.  A failed assertion, an
  exception and a read beyond the end of the outputs are `none` here.

  Main result: `recalculated_supply_iff`.
-/
import PwrbCore.Validation.SupplyTracksCoins

namespace PwrbCore

open Checked List Option CCoinsView NodeEnv ChainStep ZerocoinSupply

/-! ## §1. The second count. -/

variable {env env' : NodeEnv} {tx : CTransaction} {value : Int} {block : CBlock} {acc acc' : ConnectAcc} {s : ChainStep}
  {steps : List ChainStep} {created : List Int}

section

variable (env : NodeEnv)

/-- What `RecalculatePWRBSupply` takes an input for: a denomination, or the output it finds. -/
def NodeEnv.inputValue (txin : CTxIn) : Option Int :=
  if txin.isZerocoinSpend then some (txin.nSequence * COIN)
  else (env.getTransaction txin.prevout.hash).bind fun found => (found.1.vout[txin.prevout.n]?).map CTxOut.nValue

/-- `nValueIn` of a transaction. -/
def NodeEnv.foundValueIn (tx : CTransaction) : Option Int :=
  if tx.isCoinBase then some 0 else (tx.vin.mapM env.inputValue).map List.sum

/-- `nValueOut` of a transaction: the marker of a coinstake is passed over. -/
def CTransaction.countedOut (tx : CTransaction) : Int :=
  ((if tx.isCoinStake then tx.vout.drop 1 else tx.vout).map CTxOut.nValue).sum

def NodeEnv.createdValue (block : CBlock) : Option Int :=
  (block.vtx.mapM fun tx => (env.foundValueIn tx).map fun nValueIn => tx.countedOut - nValueIn).map List.sum

/-- The spends of `UpdateZPWRBSupplyConnect` when nobody looks at the answer: a count below zero ends the loop. -/
def ZerocoinSupply.spend : List (Option CoinDenomination) → ZerocoinSupply → Option ZerocoinSupply
  | [], supply => some supply
  | none :: _, _ => none
  | some denom :: denoms, supply =>
    if supply.add denom (-1) denom < 0 then some (supply.add denom (-1)) else spend denoms (supply.add denom (-1))

/-- `UpdateZPWRBSupplyConnect(block, pindex, true)`, its answer ignored. -/
def NodeEnv.recountZerocoins (block : CBlock) (nHeight : Int) (supply : ZerocoinSupply) : Option ZerocoinSupply :=
  if nHeight < env.params.height_start_ZC then some supply
  else
    (zerocoinSpendListFromBlock env.crypto.coinSpend env.crypto.invalidOut block.vtx).bind fun spends =>
      ZerocoinSupply.spend spends
        ((supplyMints env.params env.crypto.invalidOut block nHeight).foldl (fun s d => s.add d 1) supply)

/-- "Rewrite zpwrb supply too". -/
def NodeEnv.rewriteZerocoins (fSkipZpwrb : Bool) (block : CBlock) (nHeight : Int) (supply : ZerocoinSupply) :
    Option ZerocoinSupply :=
  if fSkipZpwrb then some supply else env.recountZerocoins block nHeight supply

/-- "Removing locked from supply", here on every network. -/
def NodeEnv.recountedLocked (nHeight : Int) : Int :=
  if nHeight = env.params.height_ZC_RecalcAccumulators then env.getInvalidUTXOValue else 0

/-- The two global counters. -/
structure SupplyGlobals where
  nMoneySupply : Int
  mapZerocoinSupply : ZerocoinSupply

/-- The loop of `RecalculatePWRBSupply`, from a height on. `shutdown` says after which heights one was requested. -/
def NodeEnv.recalculateFrom (env : NodeEnv) (fSkipZpwrb : Bool) (shutdown : Int → Bool) :
    Int → List CBlock → SupplyGlobals → Option (Bool × SupplyGlobals)
  | _, [], globals => some (true, globals)
  | nHeight, block :: blocks, globals => do
    let created ← env.createdValue block
    let zerocoins ← env.rewriteZerocoins fSkipZpwrb block nHeight globals.mapZerocoinSupply
    let globals := ⟨globals.nMoneySupply + created - env.recountedLocked nHeight, zerocoins⟩
    if shutdown nHeight then some (false, globals)
    else env.recalculateFrom fSkipZpwrb shutdown (nHeight + 1) blocks globals

/-- `RecalculatePWRBSupply`.  The zerocoin counts start at zero, the money supply where it stands. -/
def NodeEnv.recalculatePWRBSupply (nHeightStart : Nat) (fSkipZpwrb : Bool) (shutdown : Int → Bool)
    (globals : SupplyGlobals) : Option (Bool × SupplyGlobals) :=
  if env.chainHeight < nHeightStart then some (false, globals)
  else
    env.recalculateFrom fSkipZpwrb shutdown nHeightStart (env.chain.drop nHeightStart)
      { globals with mapZerocoinSupply := if fSkipZpwrb then globals.mapZerocoinSupply else fun _ => 0 }

end

/-! ## §2. One transaction, counted both ways. -/

/-- The marker of a coinstake is worth nothing, so passing it over changes nothing. -/
theorem CTransaction.countedOut_eq (tx : CTransaction) : tx.countedOut = (tx.vout.map CTxOut.nValue).sum := by
  unfold countedOut
  split_ifs with hstake
  · unfold isCoinStake at hstake
    split at hstake
    next marker second rest _ hvout =>
      rw [Bool.and_eq_true] at hstake
      have hmarker := hstake.2
      unfold CTxOut.isEmpty at hmarker
      simp_all
    next => cases hstake
  · rfl

/-- Every unspent output of the view is one of a transaction with the property. -/
def CCoinsView.ComesFrom (view : CCoinsView) (onChain : CTransaction → Prop) : Prop :=
  ∀ p o, view.unspent p = some o → ∃ tx, onChain tx ∧ tx.hash = p.hash ∧ tx.vout[p.n]? = some o

variable {nHeight : Int} {onChain : CTransaction → Prop} {view : CCoinsView}

/-- Connecting a transaction adds outputs of its own only. -/
theorem CCoinsView.ComesFrom.connectTxCoins
    {view' : CCoinsView} {txundo : List CTxInUndo} (h : view.ComesFrom onChain) (htx : onChain tx)
    (hconnect : connectTxCoins nHeight tx view = some (view', txundo)) : view'.ComesFrom onChain := by
  intro p o hp
  rw [(connectTxCoins_ledger hconnect).2] at hp
  rcases Ledger.step_eq_some hp with ⟨howner, hout⟩ | hold
  · refine ⟨tx, htx, howner.symm, ?_⟩
    have hcoin : (tx.vout[p.n]?).filter (fun o => !o.isNull && !o.scriptPubKey.isUnspendable) = some o := hout
    exact (filter_eq_some_iff.mp hcoin).1
  · exact h p o hold

/-- What `GetTransaction` finds under the hash of a chain transaction is that one. -/
def NodeEnv.NamesChain (env : NodeEnv) (onChain : CTransaction → Prop) : Prop :=
  ∀ hash found, env.getTransaction hash = some found → ∀ tx, onChain tx → tx.hash = hash → found.1 = tx

/-- **A previous output that is found has the value it has in the view.** -/
theorem NodeEnv.inputValue_of_unspent {txin : CTxIn}
    {o : CTxOut} (hnames : env.NamesChain onChain) (hview : view.ComesFrom onChain)
    (hplain : txin.isZerocoinSpend = false) (ho : view.getOutputFor txin.prevout = some o)
    (h : env.inputValue txin = some value) : value = o.nValue := by
  obtain ⟨tx, htx, hhash, hout⟩ := hview _ _ (getOutputFor_eq_some_iff.mp ho).1
  unfold inputValue at h
  rw [hplain, if_neg Bool.false_ne_true, bind_eq_some_iff] at h
  obtain ⟨found, hfound, hvalue⟩ := h
  rw [hnames _ found hfound tx htx hhash, hout] at hvalue
  exact (some.inj hvalue).symm

/-- The inputs of a transaction that spends coins, input by input. -/
theorem NodeEnv.sum_inputValue (hnames : env.NamesChain onChain)
    (hview : view.ComesFrom onChain) {vin : List CTxIn} (hplain : ∀ txin ∈ vin, txin.isZerocoinSpend = false)
    (havail : ∀ txin ∈ vin, ∃ o, view.getOutputFor txin.prevout = some o) {values : List Int}
    (h : vin.mapM env.inputValue = some values) :
    values.sum = (vin.map fun i => ((view.getOutputFor i.prevout).map CTxOut.nValue).getD 0).sum := by
  induction vin generalizing values with
  | nil =>
    cases h
    rfl
  | cons txin vin ih =>
    rw [mapM_cons] at h
    simp only [bind_eq_bind, bind_eq_some_iff] at h
    grind [mem_cons_self, env.inputValue_of_unspent]

/-- The zerocoin spends of a transaction, counted by `nSequence` and previous output here, by denomination there. -/
def spendDifference (env env' : NodeEnv) (tx : CTransaction) : Int :=
  if tx.hasZerocoinSpendInputs then (env.foundValueIn tx).getD 0 - env'.connectedSpent tx else 0

/-- **One transaction.** The second count takes in what `ConnectBlock` took in, zerocoin spends apart. -/
theorem ConnectTxOk.foundValueIn (ok : ConnectTxOk env' block nHeight acc tx acc') (hnames : env.NamesChain onChain)
    (hview : acc.view.ComesFrom onChain) (h : env.foundValueIn tx = some value) :
    value = ok.ins.nValueIn + spendDifference env env' tx := by
  rw [ok.nValueIn]
  unfold spendDifference
  rw [h]
  cases hzc : tx.hasZerocoinSpendInputs with
  | true =>
    have hspends : spendsCoins tx = false := by simp [spendsCoins, hzc]
    rw [hspends, if_pos rfl, if_neg Bool.false_ne_true, getD_some]
    omega
  | false =>
    have hspent : env'.connectedSpent tx = 0 := by
      unfold connectedSpent
      rw [hzc, if_neg Bool.false_ne_true]
    rw [hspent, if_neg Bool.false_ne_true, Int.zero_add, Int.add_zero]
    cases hcb : tx.isCoinBase with
    | true =>
      have hspends : spendsCoins tx = false := by simp [spendsCoins, hcb]
      unfold NodeEnv.foundValueIn at h
      rw [hcb] at h
      rw [hspends]
      exact (some.inj h).symm
    | false =>
      have hspends : spendsCoins tx = true := by simp [spendsCoins, hcb, hzc]
      have hplain : ∀ txin ∈ tx.vin, txin.isZerocoinSpend = false := by
        intro txin htxin
        have hany := any_eq_false.mp hzc txin htxin
        rw [Bool.or_eq_true, not_or] at hany
        exact Bool.eq_false_iff.mpr hany.1
      unfold NodeEnv.foundValueIn at h
      rw [hcb, if_neg Bool.false_ne_true, map_eq_some_iff] at h
      obtain ⟨values, hvalues, rfl⟩ := h
      rw [hspends, env.sum_inputValue hnames hview hplain ((haveInputs_iff hspends).mp (ok.haveInputs hspends)) hvalues]
      unfold getValueIn
      rw [hcb, hzc]
      rfl

/-! ## §3. One block. -/

/-- **The loop over the transactions**, from any of its states. -/
theorem NodeEnv.foldlM_connectTx_created
    (hnames : env.NamesChain onChain) {vtx : List CTransaction} (hvtx : ∀ tx ∈ vtx, onChain tx)
    (h : vtx.foldlM (env'.connectTx block nHeight) acc = .ok acc') (hview : acc.view.ComesFrom onChain) :
    acc'.view.ComesFrom onChain ∧ ∀ created,
      (vtx.mapM fun tx => (env.foundValueIn tx).map fun nValueIn => tx.countedOut - nValueIn) = some created →
        acc'.nValueOut - acc'.nValueIn - (acc.nValueOut - acc.nValueIn)
          = created.sum + (vtx.map (spendDifference env env')).sum := by
  induction vtx generalizing acc with
  | nil =>
    rw [foldlM_nil_eq_ok] at h
    subst h
    refine ⟨hview, ?_⟩
    intro created hcreated
    cases hcreated
    show _ = (0 : Int) + 0
    omega
  | cons tx vtx ih =>
    obtain ⟨mid, htx, hrun⟩ := foldlM_cons_eq_ok.mp h
    obtain ⟨ok⟩ := env'.connectTx_eq_ok htx
    have hmid : mid.view.ComesFrom onChain := by
      rw [ok.acc_eq]
      exact hview.connectTxCoins (hvtx tx mem_cons_self) ok.coins
    obtain ⟨hview', hrest⟩ := ih (fun t ht => hvtx t (mem_cons_of_mem _ ht)) hrun hmid
    refine ⟨hview', ?_⟩
    intro created hcreated
    rw [mapM_cons] at hcreated
    simp only [bind_eq_bind, bind_eq_some_iff, Option.pure_def, some.injEq, map_eq_some_iff] at hcreated
    obtain ⟨_, ⟨value, hvalue, rfl⟩, rest, hmap, rfl⟩ := hcreated
    have hin := ok.foundValueIn hnames hview hvalue
    have hout := (CTransaction.getValueOut_eq_some ok.valueOut_eq).1
    rw [← tx.countedOut_eq] at hout
    have hmidOut : mid.nValueOut = acc.nValueOut + ok.valueOut := congrArg ConnectAcc.nValueOut ok.acc_eq
    have hmidIn : mid.nValueIn = acc.nValueIn + ok.ins.nValueIn := congrArg ConnectAcc.nValueIn ok.acc_eq
    have hlater := hrest rest hmap
    rw [sum_cons, map_cons, sum_cons]
    omega

/-- What a block makes the counters differ by: what it burns and locks, and how its zerocoin spends are counted. -/
def ChainStep.uncounted (env : NodeEnv) (s : ChainStep) : Int :=
  s.block.burnedValue + s.env.lockedValue s.nHeight - (s.block.vtx.map (spendDifference env s.env)).sum

/-- **One block.**  The supply grows by what the second count finds created, less what it does not count. -/
theorem ChainStep.growth_eq (h : s.Connects)
    (hother : s.block.hash ≠ s.env.params.hashGenesisBlock) (hnames : env.NamesChain onChain)
    (hvtx : ∀ tx ∈ s.block.vtx, onChain tx) (hview : s.before.view.ComesFrom onChain) :
    s.after.view.ComesFrom onChain ∧ ∀ created, env.createdValue s.block = some created →
      s.after.nMoneySupply = s.before.nMoneySupply + (created - s.uncounted env) := by
  obtain ⟨fAlreadyChecked, r, hconnect, hafter⟩ := h
  obtain ⟨ok⟩ := s.env.connectBlock_eq_ok hother hconnect
  obtain ⟨hview', hloop⟩ := foldlM_connectTx_created hnames hvtx ok.loop hview
  rw [← hafter]
  constructor
  · intro p o hp
    rw [ok.result] at hp
    exact hview' p o hp
  intro created hcreated
  unfold createdValue at hcreated
  rw [map_eq_some_iff] at hcreated
  obtain ⟨values, hvalues, rfl⟩ := hcreated
  have hsum := hloop values hvalues
  dsimp only at hsum
  rw [ok.nMoneySupply]
  unfold uncounted
  omega

/-- Spends that all have a denomination are taken out one by one, whatever the counts. -/
theorem ZerocoinSupply.spend_isSome (denoms : List CoinDenomination) (supply : ZerocoinSupply) :
    (spend (denoms.map some) supply).isSome = true := by
  induction denoms generalizing supply with
  | nil => rfl
  | cons denom denoms ih =>
    rw [map_cons, spend]
    split_ifs
    · rfl
    · exact ih _

theorem ChainStep.recountZerocoins_isSome (h : s.Connects)
    (hother : s.block.hash ≠ s.env.params.hashGenesisBlock) (hparams : s.env.params = env.params)
    (hcrypto : s.env.crypto = env.crypto) (supply : ZerocoinSupply) :
    (env.recountZerocoins s.block s.nHeight supply).isSome = true := by
  obtain ⟨fAlreadyChecked, r, hconnect, -⟩ := h
  obtain ⟨ok⟩ := s.env.connectBlock_eq_ok hother hconnect
  have hcounted := ok.counted
  rw [hparams, hcrypto] at hcounted
  unfold updateZPWRBSupplyConnect at hcounted
  unfold recountZerocoins
  split_ifs at hcounted ⊢ with hearly
  · rfl
  simp only [bind_eq_ok, orStop_eq_ok] at hcounted
  obtain ⟨spends, hspends, hrun⟩ := hcounted
  obtain ⟨denoms, rfl, -⟩ := foldlM_orStop_eq_ok.mp hrun
  rw [hspends]
  exact spend_isSome denoms _

/-! ## §4. The whole chain. -/

/-- What the second count takes for locked, over `n` heights from `nHeight` on. -/
def NodeEnv.recountedLockedFrom (env : NodeEnv) (nHeight : Int) : Nat → Int
  | 0 => 0
  | n + 1 => env.recountedLocked nHeight + env.recountedLockedFrom (nHeight + 1) n

/-- **The loop**, if the zerocoins can be counted: it returns exactly if every previous output is found, and
adds up what the blocks create. -/
theorem NodeEnv.recalculateFrom_money (fSkipZpwrb : Bool) {blocks : List CBlock}
    (hzerocoins : ∀ (i : Nat) (block : CBlock), blocks[i]? = some block →
      ∀ supply, (env.recountZerocoins block (nHeight + i) supply).isSome = true) (globals : SupplyGlobals) :
    (env.recalculateFrom fSkipZpwrb (fun _ => false) nHeight blocks globals).map (fun r => r.2.nMoneySupply)
      = (blocks.mapM env.createdValue).map fun created =>
          globals.nMoneySupply + (created.sum - env.recountedLockedFrom nHeight blocks.length) := by
  induction blocks generalizing nHeight globals with
  | nil =>
    show some globals.nMoneySupply = some (globals.nMoneySupply + (0 - 0))
    rw [Int.sub_zero, Int.add_zero]
  | cons block blocks ih =>
    have hfirst : ∀ supply, (env.recountZerocoins block nHeight supply).isSome = true := by
      intro supply
      have hzero := hzerocoins 0 block rfl supply
      rwa [Nat.cast_zero, Int.add_zero] at hzero
    have hrest : ∀ (i : Nat) (b : CBlock), blocks[i]? = some b →
        ∀ supply, (env.recountZerocoins b (nHeight + 1 + i) supply).isSome = true := by
      intro i b hb supply
      have hnext := hzerocoins (i + 1) b hb supply
      rwa [Nat.cast_succ, add_comm (i : Int), ← add_assoc] at hnext
    obtain ⟨zerocoins, hcounted⟩ : ∃ zerocoins,
        env.rewriteZerocoins fSkipZpwrb block nHeight globals.mapZerocoinSupply = some zerocoins := by
      cases fSkipZpwrb with
      | true => exact ⟨_, rfl⟩
      | false => exact isSome_iff_exists.mp (hfirst _)
    rw [recalculateFrom, mapM_cons]
    simp only [hcounted]
    cases hcreated : env.createdValue block with
    | none => rfl
    | some created =>
      show (env.recalculateFrom fSkipZpwrb (fun _ => false) (nHeight + 1) blocks
        ⟨globals.nMoneySupply + created - env.recountedLocked nHeight, zerocoins⟩).map _ = _
      rw [ih hrest]
      cases blocks.mapM env.createdValue with
      | none => rfl
      | some values =>
        show some (globals.nMoneySupply + created - env.recountedLocked nHeight
            + (values.sum - env.recountedLockedFrom (nHeight + 1) blocks.length))
          = some (globals.nMoneySupply + ((created :: values).sum
            - (env.recountedLocked nHeight + env.recountedLockedFrom (nHeight + 1) blocks.length)))
        rw [sum_cons, some.injEq]
        omega

/-- **A node on a chain connected from nothing.** The steps after the first block are those of the active chain, one
for each height; a hash names one transaction. -/
structure CountedChain (env : NodeEnv) (genesis : ChainStep) (steps : List ChainStep) : Prop where
  chain : env.chain = genesis.block :: steps.map ChainStep.block
  connected : ConnectedChain (genesis :: steps)
  first : genesis.block.hash = genesis.env.params.hashGenesisBlock
  others : ∀ s ∈ steps, s.block.hash ≠ s.env.params.hashGenesisBlock
  heights : ∀ (i : Nat) (s : ChainStep), steps[i]? = some s → s.nHeight = 1 + i
  rules : ∀ s ∈ steps, s.env.params = env.params ∧ s.env.crypto = env.crypto
  empty : ∀ p, genesis.before.view.unspent p = none
  zero : genesis.before.nMoneySupply = 0
  names : env.NamesChain fun tx => ∃ s ∈ steps, tx ∈ s.block.vtx

/-- `nMoneySupply` at the tip, as `ConnectBlock` counted it. -/
def connectedSupply (genesis : ChainStep) (steps : List ChainStep) : Int :=
  (steps.getLast?.getD genesis).after.nMoneySupply

/-- **The first count.**  From any step on, the supply grows by what the later blocks create, less what the second
count does not see. -/
theorem supply_of_steps (hnames : env.NamesChain onChain)
    {s0 : ChainStep} (hlinked : (s0 :: steps).IsChain fun s s' => s.after = s'.before)
    (hview : s0.after.view.ComesFrom onChain)
    (hsteps : ∀ s ∈ steps, s.Connects ∧ s.block.hash ≠ s.env.params.hashGenesisBlock ∧ ∀ tx ∈ s.block.vtx,
      onChain tx) (hcreated : (steps.map ChainStep.block).mapM env.createdValue = some created) :
    connectedSupply s0 steps = s0.after.nMoneySupply + (created.sum - (steps.map (ChainStep.uncounted env)).sum) := by
  induction steps generalizing s0 created with
  | nil =>
    cases hcreated
    show s0.after.nMoneySupply = s0.after.nMoneySupply + (0 - 0)
    omega
  | cons s steps ih =>
    rw [isChain_cons_cons] at hlinked
    obtain ⟨hbefore, hlinked⟩ := hlinked
    obtain ⟨hconnects, hother, hvtx⟩ := hsteps s mem_cons_self
    rw [map_cons, mapM_cons] at hcreated
    simp only [bind_eq_bind, bind_eq_some_iff, Option.pure_def, some.injEq] at hcreated
    obtain ⟨value, hvalue, rest, hrest, rfl⟩ := hcreated
    rw [hbefore] at hview
    obtain ⟨hafter, hgrowth⟩ := ChainStep.growth_eq hconnects hother hnames hvtx hview
    have hlater := ih hlinked hafter (fun t ht => hsteps t (mem_cons_of_mem _ ht)) hrest
    have hlast : connectedSupply s0 (s :: steps) = connectedSupply s steps := by
      unfold connectedSupply
      rw [getLast?_cons]
      rfl
    rw [hlast, hlater, hgrowth value hvalue, hbefore, sum_cons, map_cons, sum_cons]
    omega

namespace CountedChain

variable {genesis : ChainStep}

theorem genesis_after (h : CountedChain env genesis steps) :
    (∀ p, genesis.after.view.unspent p = none) ∧ genesis.after.nMoneySupply = 0 := by
  obtain ⟨fAlreadyChecked, r, hconnect, hafter⟩ := h.connected.connects genesis mem_cons_self
  unfold connectBlock at hconnect
  simp only [bind_eq_ok, if_pos h.first] at hconnect
  obtain ⟨-, -, -, -, hr⟩ := hconnect
  rw [← hafter, ← Except.ok.inj hr]
  exact ⟨h.empty, h.zero⟩

/-- **The first count**, over the whole chain. -/
theorem connectedSupply_eq (h : CountedChain env genesis steps)
    (hcreated : (env.chain.drop 1).mapM env.createdValue = some created) :
    connectedSupply genesis steps = created.sum - (steps.map (uncounted env)).sum := by
  obtain ⟨hempty, hzero⟩ := h.genesis_after
  rw [h.chain] at hcreated
  rw [supply_of_steps h.names h.connected.linked ?_ ?_ hcreated, hzero, Int.zero_add]
  · intro p o hp
    rw [hempty] at hp
    cases hp
  · grind [h.connected.connects, h.others]

/-- **The second count**, over the whole chain. -/
theorem recalculated_money (h : CountedChain env genesis steps) (fSkipZpwrb : Bool) (globals : SupplyGlobals) :
    (env.recalculatePWRBSupply 1 fSkipZpwrb (fun _ => false) globals).map (fun r => r.2.nMoneySupply)
      = ((env.chain.drop 1).mapM env.createdValue).map fun created =>
          globals.nMoneySupply + (created.sum - env.recountedLockedFrom 1 steps.length) := by
  have hzerocoins : ∀ (i : Nat) (block : CBlock), (env.chain.drop 1)[i]? = some block →
      ∀ supply, (env.recountZerocoins block (1 + i) supply).isSome = true := by
    intro i block hblock supply
    rw [h.chain, drop_one, tail_cons, getElem?_map, map_eq_some_iff] at hblock
    obtain ⟨s, hs, rfl⟩ := hblock
    have hmem := mem_of_getElem? hs
    obtain ⟨hparams, hcrypto⟩ := h.rules s hmem
    rw [← h.heights i s hs]
    exact recountZerocoins_isSome (h.connected.connects s (mem_cons_of_mem _ hmem)) (h.others s hmem) hparams
      hcrypto supply
  have hlength : (env.chain.drop 1).length = steps.length := by
    rw [h.chain, drop_one, tail_cons, length_map]
  unfold recalculatePWRBSupply
  by_cases hshort : env.chainHeight < (1 : Nat)
  · -- only the first block: nothing to count
    have hnil : steps = [] := by
      simp_all [chainHeight, h.chain]
    rw [if_pos hshort, h.chain, hnil]
    show some globals.nMoneySupply = some (globals.nMoneySupply + (0 - 0))
    rw [Int.sub_zero, Int.add_zero]
  · rw [if_neg hshort, ← hlength]
    exact recalculateFrom_money fSkipZpwrb hzerocoins _

end CountedChain

/-! ## §5. The main result. -/

/-- **The two counts.** On every node on a connected chain, from every value of the counter: the recalculation returns
what connecting the blocks left, and a second one the same again, exactly if every previous output is found, the
blocks create nothing on balance (locked value aside), and the counter started at minus what the recalculation does
not see — the burned bets, the value locked, and the zerocoin spends it counts differently. -/
theorem recalculated_supply_iff (env : NodeEnv) (genesis : ChainStep) (steps : List ChainStep)
    (h : CountedChain env genesis steps) (fSkipZpwrb : Bool) (globals : SupplyGlobals) : (∃ fOnce once fTwice twice,
        env.recalculatePWRBSupply 1 fSkipZpwrb (fun _ => false) globals = some (fOnce, once) ∧
        env.recalculatePWRBSupply 1 fSkipZpwrb (fun _ => false) once = some (fTwice, twice) ∧
        once.nMoneySupply = connectedSupply genesis steps ∧ twice.nMoneySupply = once.nMoneySupply)
      ↔ ∃ created, (env.chain.drop 1).mapM env.createdValue = some created ∧
          created.sum = env.recountedLockedFrom 1 steps.length ∧
          globals.nMoneySupply + (steps.map (ChainStep.uncounted env)).sum
              = env.recountedLockedFrom 1 steps.length := by
  have hmoney := h.recalculated_money fSkipZpwrb
  constructor
  · rintro ⟨fOnce, once, fTwice, twice, honce, htwice, hequal, hstable⟩
    have hfirst := hmoney globals
    have hsecond := hmoney once
    rw [honce, map_some, eq_comm, map_eq_some_iff] at hfirst
    obtain ⟨created, hcreated, hfirst⟩ := hfirst
    rw [htwice, hcreated, map_some, map_some, some.injEq] at hsecond
    dsimp only at hfirst hsecond
    have hconnected := h.connectedSupply_eq hcreated
    refine ⟨created, hcreated, ?_, ?_⟩
    · omega
    · omega
  · rintro ⟨created, hcreated, hbalance, hstart⟩
    have hconnected := h.connectedSupply_eq hcreated
    have hreturns : ∀ g : SupplyGlobals, ∃ f g', env.recalculatePWRBSupply 1 fSkipZpwrb (fun _ => false) g
      = some (f, g') ∧
        g'.nMoneySupply = g.nMoneySupply := by
      intro g
      have hvalue := hmoney g
      rw [hcreated, map_some, map_eq_some_iff] at hvalue
      obtain ⟨⟨f, g'⟩, hrun, hsame⟩ := hvalue
      refine ⟨f, g', hrun, ?_⟩
      dsimp only at hsame
      omega
    obtain ⟨fOnce, once, honce, hsame⟩ := hreturns globals
    obtain ⟨fTwice, twice, htwice, hsame'⟩ := hreturns once
    refine ⟨fOnce, once, fTwice, twice, honce, htwice, ?_, hsame'⟩
    omega

/-! ### A chain of two blocks. -/

/-- A mined coin of which a quarter is burned. -/
def burningTx : CTransaction :=
  { hash := 41
    vin := [coinbaseIn]
    vout := [⟨75000000, payTo 1⟩, ⟨25000000, [OP_RETURN]⟩] }

def burningBlock : CBlock :=
  { hash := 902, hashPrevBlock := ConsensusParams.mainNet.hashGenesisBlock, nTime := 1602000015, vtx := [burningTx] }

def burningRun : Validated (Connected × Connected) := do
  let r ← (minedNode []).connectBlock firstBlock 0 ⟨emptyView, 0, fun _ => 0⟩ false true
  let r' ← (minedNode [firstBlock]).connectBlock burningBlock 1 r.state false false
  return (r, r')

def burningNode (view : CCoinsView) : NodeEnv :=
  { plainNode 0 view with
    chain := [firstBlock, burningBlock]
    fTxIndex := true
    txIndex := fun hash => if hash = 41 then some (burningTx, 902) else none }

theorem burningRun_connects : ∃ r r', burningRun = .ok (r, r') ∧ r'.state.nMoneySupply = 75000000 := by
  have hmoney : burningRun.map (fun p => p.2.state.nMoneySupply) = .ok 75000000 := by decide +kernel
  obtain ⟨⟨r, r'⟩, hrun, hvalue⟩ := exists_ok_of_map hmoney
  exact ⟨r, r', hrun, hvalue⟩

theorem burning_recalculated (view : CCoinsView) (nMoneySupply : Int) :
    (burningNode view).recalculatePWRBSupply 1 true (fun _ => false) ⟨nMoneySupply, fun _ => 0⟩
      = some (true, ⟨nMoneySupply + 100000000 - 0, fun _ => 0⟩) := rfl

/-- **Two counts, three answers.** Connecting leaves 0.75 coins, the recalculation from zero says one coin, a second
one two. -/
theorem burned_quarter_recounted : ∃ r r', burningRun = .ok (r, r') ∧ r'.state.nMoneySupply = 75000000 ∧ ∃ once twice,
        (burningNode r'.state.view).recalculatePWRBSupply 1 true (fun _ => false) ⟨0, fun _ => 0⟩ = some (true, once) ∧
        (burningNode r'.state.view).recalculatePWRBSupply 1 true (fun _ => false) once = some (true, twice) ∧
        once.nMoneySupply = 100000000 ∧ twice.nMoneySupply = 200000000 := by
  obtain ⟨r, r', hrun, hmoney⟩ := burningRun_connects
  exact ⟨r, r', hrun, hmoney, _, _, burning_recalculated _ _, burning_recalculated _ _, rfl, rfl⟩

theorem burning_countedChain {r r' : Connected} (h : burningRun = .ok (r, r')) :
    CountedChain (burningNode r'.state.view) ⟨minedNode [], firstBlock, 0, ⟨emptyView, 0, fun _ => 0⟩, r.state⟩
      [⟨minedNode [firstBlock], burningBlock, 1, r.state, r'.state⟩] := by
  unfold burningRun at h
  simp only [bind_eq_ok] at h
  obtain ⟨r0, hr, r1, hr', hpair⟩ := h
  cases hpair
  constructor
  · rfl
  · exact ⟨forall_mem_cons.mpr ⟨⟨true, r, hr, rfl⟩, forall_mem_singleton.mpr ⟨false, r', hr', rfl⟩⟩, by simp⟩
  · rfl
  · exact forall_mem_singleton.mpr (show burningBlock.hash ≠ ConsensusParams.mainNet.hashGenesisBlock by decide)
  · intro i s hs
    cases i with
    | zero =>
      cases hs
      rfl
    | succ i => cases hs
  · exact forall_mem_singleton.mpr ⟨rfl, rfl⟩
  · intro p
    rfl
  · rfl
  · rintro hash found hfound tx ⟨s, hs, htx⟩ hhash
    rw [mem_singleton.mp hs] at htx
    have hburning : tx = burningTx := mem_singleton.mp htx
    subst hburning
    subst hhash
    cases hfound
    rfl

/-- The equivalence for the two blocks and a counter at zero. -/
theorem burned_quarter_iff : ∃ r r', burningRun = .ok (r, r') ∧ ((∃ fOnce once fTwice twice,
          (burningNode r'.state.view).recalculatePWRBSupply 1 true (fun _ => false) ⟨0, fun _ => 0⟩
            = some (fOnce, once) ∧
          (burningNode r'.state.view).recalculatePWRBSupply 1 true (fun _ => false) once = some (fTwice, twice) ∧
          once.nMoneySupply = connectedSupply ⟨minedNode [], firstBlock, 0, ⟨emptyView, 0, fun _ => 0⟩, r.state⟩
            [⟨minedNode [firstBlock], burningBlock, 1, r.state, r'.state⟩] ∧ twice.nMoneySupply = once.nMoneySupply)
        ↔ ∃ created, ((burningNode r'.state.view).chain.drop 1).mapM (burningNode r'.state.view).createdValue
          = some created ∧
            created.sum = (burningNode r'.state.view).recountedLockedFrom 1 1 ∧
            0 + ([(⟨minedNode [firstBlock], burningBlock, 1, r.state, r'.state⟩ : ChainStep)].map
                (ChainStep.uncounted (burningNode r'.state.view))).sum
              = (burningNode r'.state.view).recountedLockedFrom 1 1) := by
  obtain ⟨r, r', hrun, -⟩ := burningRun_connects
  exact ⟨r, r', hrun, recalculated_supply_iff (burningNode r'.state.view)
    ⟨minedNode [], firstBlock, 0, ⟨emptyView, 0, fun _ => 0⟩, r.state⟩
    [⟨minedNode [firstBlock], burningBlock, 1, r.state, r'.state⟩] (burning_countedChain hrun) true ⟨0, fun _ => 0⟩⟩

end PwrbCore
