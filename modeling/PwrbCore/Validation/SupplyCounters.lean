/-
  Validation.SupplyCounters — THE SUPPLY COUNTERS OVER RUNS of connects and disconnects.

  `ConnectBlock` takes burned and locked value off `nMoneySupply`; `DisconnectBlock` adds
  neither back.  So one round trip leaves the money supply alone exactly when the two cancel
  against a difference in the zerocoin values (`ConnectBlockOk.moneySupply_iff`), and in runs
  whose blocks burn and lock nothing the counters follow the active chain
  (`Linked.counters`).
-/
import Mathlib.Algebra.BigOperators.Group.List.Basic
import PwrbCore.Validation.Reorg

namespace PwrbCore

open Checked List ConnectAcc

/-! ## §1. One block. -/

variable {env env' : NodeEnv} {block : CBlock} {nHeight : Int} {st st' : ChainState} {r : Connected}
    {E : Uint256 → Prop}
  {stack : List (CBlock × List (List CTxInUndo))} {acc acc1 acc' acc1' : ConnectAcc}

def CBlock.burnedValue (block : CBlock) : Int := (block.vtx.map CTransaction.valueBet).sum

theorem NodeEnv.connectTx_nValueBet
    (tx : CTransaction) (acc acc' : ConnectAcc) (h : env.connectTx block nHeight acc tx = .ok acc') :
    acc'.nValueBet = acc.nValueBet + tx.valueBet := by
  obtain ⟨ok⟩ := env.connectTx_eq_ok h
  exact congrArg ConnectAcc.nValueBet ok.acc_eq

section OneBlock

section

variable (ok : ConnectBlockOk env block nHeight st r)

include ok

theorem ConnectBlockOk.nValueBet : ok.acc.nValueBet = block.burnedValue := by
  have h := foldlM_measure ConnectAcc.nValueBet CTransaction.valueBet
    (fun tx _ => env.connectTx_nValueBet tx) ok.loop
  exact h.trans (Int.zero_add _)

theorem ConnectBlockOk.nMoneySupply : r.state.nMoneySupply = st.nMoneySupply - env.lockedValue nHeight
      + (ok.acc.nValueOut - ok.acc.nValueIn - block.burnedValue) := by
  rw [← ok.nValueBet]
  exact congrArg (fun r => r.state.nMoneySupply) ok.result

theorem ConnectBlockOk.nonneg_supply (hsupply : st.mapZerocoinSupply.Nonneg) : ok.supply.Nonneg :=
  hsupply.connect ok.counted

/-- The counters after one round trip: the map is back, and the money supply is off by what was
burned and locked, less the difference in the zerocoin values. -/
theorem ConnectBlockOk.roundTrip (hfirst : ∃ tx vtx, block.vtx = tx :: vtx ∧ tx.isCoinBase = true)
    (hmaturity : 0 < env.params.nCoinbaseMaturity) (hpos : 0 < nHeight) (hlt : nHeight < 2 ^ 30)
    (hwf : st.view.WF) (hsupply : st.mapZerocoinSupply.Nonneg)
    (hparams : env'.params = env.params) (hcrypto : env'.crypto = env.crypto)
    (hspent : ∀ tx ∈ block.vtx, ∃ spent, env'.disconnectZerocoin tx = .ok spent) :
    ∃ d, env'.disconnectBlock block nHeight r.vtxundo r.state = .ok d ∧
      d.state.mapZerocoinSupply = st.mapZerocoinSupply ∧ d.state.nMoneySupply = st.nMoneySupply
        - (block.burnedValue + env.lockedValue nHeight - spentDifference env env' block) := by
  obtain ⟨d, -, hd, -, -, -, -, hmap, -, hmoney⟩ :=
    ok.disconnectBlock hfirst hmaturity hpos hlt hwf hsupply hparams hcrypto hspent r.state
      (.refl _) (by rw [ok.result]; rfl) rfl
  refine ⟨d, hd, hmap, ?_⟩
  rw [hmoney, ok.nMoneySupply]
  omega

end

end OneBlock

/-! ## §2. States that match up to scrubbed metadata. -/

/-- The state is `st'`, except for metadata that rollbacks lost. -/
structure ChainState.Matches (st st' : ChainState) : Prop where
  view : ∃ E, Restored E st.view st'.view
  bestBlock : st.view.bestBlock = st'.view.bestBlock
  nMoneySupply : st.nMoneySupply = st'.nMoneySupply
  mapZerocoinSupply : st.mapZerocoinSupply = st'.mapZerocoinSupply

theorem CCoins.scrub_scrub (c : CCoins) : c.scrub.scrub = c.scrub := by
  rw [CCoins.scrub_eq_self_iff]
  simp only [CCoins.scrub, Bool.false_eq_true, false_or]
  split_ifs <;> omega

/-- Two rollbacks lose no more than one: scrubbing twice is scrubbing once. -/
theorem Restored.trans {E' : Uint256 → Prop} {view1 view2 view3 : CCoinsView}
    (h : Restored E view1 view2) (h' : Restored E' view2 view3) : Restored (fun t => E t ∨ E' t) view1 view3 := by
  intro t
  constructor
  · intro hE
    rw [(h t).1 fun he => hE (.inl he), (h' t).1 fun he => hE (.inr he)]
  intro hE
  by_cases h1 : E t <;> by_cases h2 : E' t
  · rw [(h t).2 h1, (h' t).2 h2, Option.map_map]
    congr 1
    funext c
    exact c.scrub_scrub
  · rw [(h t).2 h1, (h' t).1 h2]
  · rw [(h t).1 h1, (h' t).2 h2]
  · exact absurd hE (not_or.mpr ⟨h1, h2⟩)

theorem Restored.wf {undone view : CCoinsView} (h : Restored E undone view) (hwf : view.WF) : undone.WF := by
  intro t c hc
  by_cases hE : E t
  · rw [(h t).2 hE, Option.map_eq_some_iff] at hc
    obtain ⟨c', hc', rfl⟩ := hc
    exact (hwf t c' hc').scrub
  · rw [(h t).1 hE] at hc
    exact hwf t c hc

theorem ChainState.Matches.refl (st : ChainState) : st.Matches st :=
  ⟨⟨_, .refl _⟩, rfl, rfl, rfl⟩

theorem ChainState.Matches.trans {st'' : ChainState} (h : st.Matches st') (h' : st'.Matches st'') :
    st.Matches st'' := by
  obtain ⟨E, hE⟩ := h.view
  obtain ⟨E', hE'⟩ := h'.view
  exact ⟨⟨_, hE.trans hE'⟩, h.bestBlock.trans h'.bestBlock, h.nMoneySupply.trans h'.nMoneySupply,
    h.mapZerocoinSupply.trans h'.mapZerocoinSupply⟩

/-! ## §3. Runs, and how they are linked to the chain. -/

/-- What is fixed in a run: network, library, starting state with its height, and the zerocoin value of every
transaction. -/
structure RunSetup where
  params : ConsensusParams
  crypto : Crypto
  start : ChainState
  height : Nat
  spent : CTransaction → Int

/-- The node's state and the connected blocks with their undo data, the tip first. -/
structure Config where
  state : ChainState
  stack : List (CBlock × List (List CTxInUndo))

def Config.blocks (c : Config) : List CBlock := c.stack.map Prod.fst

namespace RunSetup

variable (S : RunSetup)

def init : Config := ⟨S.start, []⟩

/-- The start is a possible state. -/
structure Valid : Prop where
  maturity : 0 < S.params.nCoinbaseMaturity
  wf : S.start.view.WF
  supply : S.start.mapZerocoinSupply.Nonneg

def heightAbove (n : Nat) : Int := S.height + n + 1

/-- Connecting a block that burns and locks nothing; the node's other state is arbitrary. -/
structure Connects (block : CBlock) (nHeight : Int) (st : ChainState) (r : Connected) (env : NodeEnv) :
    Prop where
  params : env.params = S.params
  crypto : env.crypto = S.crypto
  height_lt : nHeight < 2 ^ 30
  accepts : env.Accepts block nHeight st r
  burned : block.burnedValue = 0
  locked : env.lockedValue nHeight = 0
  spent : ∀ tx ∈ block.vtx, env.connectedSpent tx = S.spent tx

structure Disconnects (block : CBlock) (nHeight : Int) (vtxundo : List (List CTxInUndo))
    (st : ChainState) (d : Disconnected) (env : NodeEnv) : Prop where
  params : env.params = S.params
  crypto : env.crypto = S.crypto
  disconnects : env.disconnectBlock block nHeight vtxundo st = .ok d
  spent : ∀ tx ∈ block.vtx, env.undoneSpent tx = S.spent tx

/-- Runs: connects and disconnects in any order. `VerifyDB` runs on a copy of the view and ends with the same blocks;
only its counters stay. -/
inductive Run : Config → Config → Prop
  | refl (c : Config) : Run c c
  | connect {c c' : Config} {env : NodeEnv} {block : CBlock} {r : Connected} (run : Run c c')
      (step : S.Connects block (S.heightAbove c'.stack.length) c'.state r env) :
      Run c ⟨r.state, (block, r.vtxundo) :: c'.stack⟩
  | disconnect {c : Config} {st : ChainState} {env : NodeEnv} {block : CBlock}
      {vtxundo : List (List CTxInUndo)} {rest : List (CBlock × List (List CTxInUndo))}
      {d : Disconnected} (run : Run c ⟨st, (block, vtxundo) :: rest⟩)
      (step : S.Disconnects block (S.heightAbove rest.length) vtxundo st d env) :
      Run c ⟨d.state, rest⟩
  | verifyDB {c c' c'' : Config} (run : Run c c') (pass : Run c' c'') (hblocks : c''.blocks = c'.blocks) :
      Run c ⟨{ c''.state with view := c'.state.view }, c'.stack⟩

/-- The state is what connecting the blocks of the stack gives, up to scrubbed metadata. -/
def Linked : ChainState → List (CBlock × List (List CTxInUndo)) → Prop
  | st, [] => st.Matches S.start
  | st, (block, vtxundo) :: rest =>
    ∃ before r env, Linked before rest ∧
      S.Connects block (S.heightAbove rest.length) before r env ∧ r.vtxundo = vtxundo ∧
      st.Matches r.state

theorem heightAbove_pos (n : Nat) : 0 < S.heightAbove n := by
  unfold heightAbove
  omega

variable {S}

theorem Connects.valid (h : S.Connects block nHeight st r env) (hpos : 0 < nHeight) (hwf : st.view.WF)
    (hsupply : st.mapZerocoinSupply.Nonneg) : r.state.view.WF ∧ r.state.mapZerocoinSupply.Nonneg := by
  obtain ⟨ok⟩ := h.accepts.ok
  obtain ⟨undos, -, -, hcoins, hvalue⟩ := env.foldlM_connectTx_coins ok.loop
  have hafter : ok.acc.view.WF := hwf.connectCoins hpos h.height_lt hvalue hcoins
  have hsup : ok.supply.Nonneg := ok.nonneg_supply hsupply
  rw [ok.result]
  exact ⟨hafter, hsup⟩

theorem Linked.of_matches (h : S.Linked st' stack) (hmatch : st.Matches st') : S.Linked st stack := by
  cases stack with
  | nil => exact hmatch.trans h
  | cons top rest =>
    obtain ⟨before, r, env, hbefore, hconnects, hundo, hr⟩ := h
    exact ⟨before, r, env, hbefore, hconnects, hundo, hmatch.trans hr⟩

/-- **Every linked state is a possible state.** -/
theorem Linked.valid (hS : S.Valid) (h : S.Linked st stack) : st.view.WF ∧ st.mapZerocoinSupply.Nonneg := by
  induction stack generalizing st with
  | nil =>
    obtain ⟨E, hE⟩ := ChainState.Matches.view h
    refine ⟨hE.wf hS.wf, ?_⟩
    rw [ChainState.Matches.mapZerocoinSupply h]
    exact hS.supply
  | cons top rest ih =>
    obtain ⟨before, r, env, hbefore, hconnects, -, hr⟩ := h
    obtain ⟨hwf, hsupply⟩ := ih hbefore
    obtain ⟨hwf', hsupply'⟩ := hconnects.valid (S.heightAbove_pos _) hwf hsupply
    obtain ⟨E, hE⟩ := hr.view
    refine ⟨hE.wf hwf', ?_⟩
    rw [hr.mapZerocoinSupply]
    exact hsupply'

/-- **Disconnecting goes one link back.** -/
theorem Linked.disconnect (hS : S.Valid)
    {vtxundo : List (List CTxInUndo)} {rest : List (CBlock × List (List CTxInUndo))}
    {d : Disconnected} (h : S.Linked st ((block, vtxundo) :: rest))
    (hstep : S.Disconnects block (S.heightAbove rest.length) vtxundo st d env) : S.Linked d.state rest := by
  obtain ⟨before, r, env0, hbefore, hconnects, rfl, hr⟩ := h
  obtain ⟨hwf, hsupply⟩ := hbefore.valid hS
  obtain ⟨ok⟩ := hconnects.accepts.ok
  obtain ⟨E, hE⟩ := hr.view
  obtain ⟨d', log, hd', -, -, hR, hbest, hmap, -, hmoney⟩ :=
    ok.disconnectBlock hconnects.accepts.coinBase (by rw [hconnects.params]; exact hS.maturity)
      (S.heightAbove_pos _) hconnects.height_lt hwf hsupply (hstep.params.trans hconnects.params.symm)
      (hstep.crypto.trans hconnects.crypto.symm) (env.disconnectBlock_zerocoin hstep.disconnects)
      st hE (by rw [hr.bestBlock, ok.result]; rfl) hr.mapZerocoinSupply
  rw [hstep.disconnects] at hd'
  cases hd'
  -- the two directions count the same zerocoin value
  have hdiff : spentDifference env0 env block = 0 := by
    refine sum_eq_zero ?_
    intro x hx
    obtain ⟨tx, htx, rfl⟩ := mem_map.mp hx
    rw [hstep.spent tx htx, hconnects.spent tx htx, Int.sub_self]
  refine hbefore.of_matches ⟨⟨_, hR⟩, hbest, ?_, hmap⟩
  have hafter := ok.nMoneySupply
  rw [hconnects.burned, hconnects.locked] at hafter
  rw [hmoney, hr.nMoneySupply, hdiff]
  omega

end RunSetup

/-! ## §4. The chain decides the counters. -/

section Agree

/-- The transactions of a block on two views with the same outputs. -/
theorem foldlM_connectTx_agree {vtx : List CTransaction} (h : vtx.foldlM (env.connectTx block nHeight) acc = .ok acc1)
    (h' : vtx.foldlM (env'.connectTx block nHeight) acc' = .ok acc1')
    (hsame : SameOutputs acc.view acc'.view ∧ acc.nValueOut = acc'.nValueOut ∧ acc.nValueIn = acc'.nValueIn)
    (hspent : ∀ tx ∈ vtx, env.connectedSpent tx = env'.connectedSpent tx) :
    SameOutputs acc1.view acc1'.view ∧ acc1.nValueOut = acc1'.nValueOut ∧ acc1.nValueIn = acc1'.nValueIn := by
  induction vtx generalizing acc acc' with
  | nil =>
    rw [foldlM_nil_eq_ok] at h h'
    subst h
    subst h'
    exact hsame
  | cons tx vtx ih =>
    obtain ⟨mid, htx, hrun⟩ := foldlM_cons_eq_ok.mp h
    obtain ⟨mid', htx', hrun'⟩ := foldlM_cons_eq_ok.mp h'
    obtain ⟨ok⟩ := env.connectTx_eq_ok htx
    obtain ⟨ok'⟩ := env'.connectTx_eq_ok htx'
    obtain ⟨hview, hout, hin⟩ := hsame
    refine ih hrun hrun' ?_ fun tx' htx' => hspent tx' (mem_cons_of_mem _ htx')
    rw [ok.acc_eq, ok'.acc_eq]
    refine ⟨hview.connectTxCoins ok.coins ok'.coins, ?_, ?_⟩
    · show acc.nValueOut + ok.valueOut = acc'.nValueOut + ok'.valueOut
      rw [hout, Option.some.inj (ok.valueOut_eq.symm.trans ok'.valueOut_eq)]
    · show acc.nValueIn + ok.ins.nValueIn = acc'.nValueIn + ok'.ins.nValueIn
      rw [hin, ok.nValueIn, ok'.nValueIn, hspent tx mem_cons_self, hview.getValueIn]

end Agree

namespace RunSetup

variable {S : RunSetup}

/-- The same block on two states with the same outputs and counters. -/
theorem Connects.agree {r' : Connected} (h : S.Connects block nHeight st r env)
    (h' : S.Connects block nHeight st' r' env')
    (hsame : SameOutputs st.view st'.view) (hmoney : st.nMoneySupply = st'.nMoneySupply)
    (hmap : st.mapZerocoinSupply = st'.mapZerocoinSupply) :
    SameOutputs r.state.view r'.state.view ∧ r.state.nMoneySupply = r'.state.nMoneySupply ∧
      r.state.mapZerocoinSupply = r'.state.mapZerocoinSupply := by
  obtain ⟨ok⟩ := h.accepts.ok
  obtain ⟨ok'⟩ := h'.accepts.ok
  have hspent : ∀ tx ∈ block.vtx, env.connectedSpent tx = env'.connectedSpent tx := fun tx htx =>
    (h.spent tx htx).trans (h'.spent tx htx).symm
  obtain ⟨hview, hout, hin⟩ := foldlM_connectTx_agree ok.loop ok'.loop ⟨hsame, rfl, rfl⟩ hspent
  have hsupply : ok.supply = ok'.supply := by
    have h1 := ok.counted
    have h2 := ok'.counted
    rw [h.params, h.crypto, hmap] at h1
    rw [h'.params, h'.crypto, h1] at h2
    exact Except.ok.inj h2
  refine ⟨?_, ?_, ?_⟩
  · rw [ok.result, ok'.result]
    exact hview
  · rw [ok.nMoneySupply, ok'.nMoneySupply, h.locked, h'.locked, hmoney, hout, hin]
  · rw [ok.result, ok'.result]
    exact hsupply

/-- **Linked states over the same blocks have the same outputs and counters.** -/
theorem Linked.counters {stack' : List (CBlock × List (List CTxInUndo))}
    (h : S.Linked st stack) (h' : S.Linked st' stack') (hblocks : stack.map Prod.fst = stack'.map Prod.fst) :
    SameOutputs st.view st'.view ∧ st.nMoneySupply = st'.nMoneySupply ∧
      st.mapZerocoinSupply = st'.mapZerocoinSupply := by
  induction stack generalizing st st' stack' with
  | nil =>
    cases stack' with
    | cons _ _ => cases hblocks
    | nil =>
      obtain ⟨E, hE⟩ := ChainState.Matches.view h
      obtain ⟨E', hE'⟩ := ChainState.Matches.view h'
      exact ⟨hE.sameOutputs.trans hE'.sameOutputs.symm,
        (ChainState.Matches.nMoneySupply h).trans (ChainState.Matches.nMoneySupply h').symm,
        (ChainState.Matches.mapZerocoinSupply h).trans (ChainState.Matches.mapZerocoinSupply h').symm⟩
  | cons top rest ih =>
    cases stack' with
    | nil => cases hblocks
    | cons top' rest' =>
      obtain ⟨block, vtxundo⟩ := top
      obtain ⟨block', vtxundo'⟩ := top'
      rw [map_cons, map_cons, cons.injEq] at hblocks
      obtain ⟨hblock, hrest⟩ := hblocks
      obtain rfl : block = block' := hblock
      have hlen : rest.length = rest'.length := by
        have := congrArg length hrest
        rwa [length_map, length_map] at this
      obtain ⟨before, r, env, hbefore, hconnects, -, hr⟩ := h
      obtain ⟨before', r', env', hbefore', hconnects', -, hr'⟩ := h'
      rw [← hlen] at hconnects'
      obtain ⟨hsame, hmoney, hmap⟩ := ih hbefore hbefore' hrest
      obtain ⟨hsame', hmoney', hmap'⟩ := hconnects.agree hconnects' hsame hmoney hmap
      obtain ⟨E, hE⟩ := hr.view
      obtain ⟨E', hE'⟩ := hr'.view
      exact ⟨(hE.sameOutputs.trans hsame').trans hE'.sameOutputs.symm,
        (hr.nMoneySupply.trans hmoney').trans hr'.nMoneySupply.symm,
        (hr.mapZerocoinSupply.trans hmap').trans hr'.mapZerocoinSupply.symm⟩

/-- **A run keeps the state linked to the chain.** -/
theorem Run.linked (hS : S.Valid) {c c' : Config} (hrun : S.Run c c') (h : S.Linked c.state c.stack) :
    S.Linked c'.state c'.stack := by
  induction hrun with
  | refl c => exact h
  | connect _ step ih => exact ⟨_, _, _, ih h, step, rfl, .refl _⟩
  | disconnect _ step ih => exact (ih h).disconnect hS step
  | @verifyDB c c' c'' _ _ hblocks ih1 ih2 =>
    -- the pass ends with the counters it started with
    have hlinked := ih1 h
    obtain ⟨-, hmoney, hmap⟩ := (ih2 hlinked).counters hlinked hblocks
    simp_all

end RunSetup

/-! ## §5. The main result. -/

/-- **One round trip and whole runs.** For every state and accepted block the counters come back exactly when the
block's zerocoin spends can be read again and what it burns and locks equals the difference between the zerocoin
values of the two directions. In every run, with reorganisations and `VerifyDB` passes, whose blocks burn and lock
nothing and whose zerocoin values are the same every time, the counters are a function of the active chain. -/
theorem supply_counters_of_chain {params : ConsensusParams} (hmaturity : 0 < params.nCoinbaseMaturity) :
    (∀ (env env' : NodeEnv) (block : CBlock) (nHeight : Int) (st : ChainState) (r : Connected),
      env.params = params → env'.params = params → env'.crypto = env.crypto →
      0 < nHeight → nHeight < 2 ^ 30 → st.view.WF → st.mapZerocoinSupply.Nonneg → env.Accepts block nHeight st r →
      ((∃ d, env'.disconnectBlock block nHeight r.vtxundo r.state = .ok d ∧ d.state.nMoneySupply = st.nMoneySupply ∧
          d.state.mapZerocoinSupply = st.mapZerocoinSupply) ↔ (∀ tx ∈ block.vtx, env'.SpendsReadable tx) ∧
          block.burnedValue + env.lockedValue nHeight = spentDifference env env' block)) ∧
    (∀ (S : RunSetup), S.params = params → S.start.view.WF → S.start.mapZerocoinSupply.Nonneg →
      ∀ c c' : Config, S.Run S.init c → S.Run S.init c' → c.blocks = c'.blocks →
        c.state.nMoneySupply = c'.state.nMoneySupply ∧ c.state.mapZerocoinSupply = c'.state.mapZerocoinSupply) := by
  constructor
  · intro env env' block nHeight st r hparams hparams' hcrypto hpos hlt hwf hsupply haccepts
    obtain ⟨ok⟩ := haccepts.ok
    have hrun : (∀ tx ∈ block.vtx, ∃ spent, env'.disconnectZerocoin tx = .ok spent) → _ :=
      ok.roundTrip haccepts.coinBase (by rw [hparams]; exact hmaturity) hpos hlt hwf hsupply
        (hparams'.trans hparams.symm) hcrypto
    constructor
    · grind [env'.disconnectBlock_zerocoin, ok.spendsReadable_iff.mp]
    · rintro ⟨hread, heq⟩
      obtain ⟨d, hd, hmap, hmoney⟩ := hrun (ok.spendsReadable_iff.mpr hread)
      exact ⟨d, hd, by omega, hmap⟩
  · intro S hparams hwf hsupply c c' hc hc' hblocks
    have hS : S.Valid := ⟨by rw [hparams]; exact hmaturity, hwf, hsupply⟩
    have hinit : S.Linked S.init.state S.init.stack := .refl _
    exact ((hc.linked hS hinit).counters (hc'.linked hS hinit) hblocks).2

def twoCoinEntry : CCoins :=
  { vout := [⟨6 * COIN, payTo 9⟩, ⟨6 * COIN, payTo 1⟩]
    nHeight := 201
    nVersion := 1 }

/-- A block with a payment: the first output is staked, the second goes to `outs`. -/
def paymentBlock (outs : List CTxOut) : CBlock := stakedBlock [.of 7 0] [{ hash := 42, vin := [.of 7 1], vout := outs }]

def betBlock : CBlock :=
  paymentBlock [⟨1 * COIN, OP_RETURN :: CScript.pushData [0x42, 1, 1, 0x2b, 0x3e, 0x34, 0x01, 5]⟩,
    ⟨5 * COIN, payTo 1⟩]

def transferBlock : CBlock := paymentBlock [⟨6 * COIN, payTo 2⟩]

theorem wf_twoCoinEntry : twoCoinEntry.WF where
  null_canonical := by decide
  no_trailing_null := by decide
  height_pos := by decide
  height_lt := by decide

def transferSetup : RunSetup where
  params := .mainNet
  crypto := plainCrypto
  start := oneEntryState twoCoinEntry
  height := 399
  spent := fun _ => 0

theorem transferBlock_no_spends : ∀ tx ∈ transferBlock.vtx, tx.hasZerocoinSpendInputs = false := by
  decide

theorem transferBlock_spent (env : NodeEnv) :
    ∀ tx ∈ transferBlock.vtx, env.connectedSpent tx = 0 ∧ env.undoneSpent tx = 0 := by
  intro tx htx
  unfold NodeEnv.connectedSpent NodeEnv.undoneSpent
  rw [transferBlock_no_spends tx htx]
  exact ⟨rfl, rfl⟩

def transferTwice : Validated Connected := do
  let d ← roundTrip transferBlock twoCoinEntry
  (plainNode 400 d.state.view).connectBlock transferBlock 400 d.state false false

/-- **A reorganised transfer**: the counters come back, and the second connection gives those of the first. -/
theorem transfer_keeps_counters : ∃ (r : Connected) (d : Disconnected) (r' : Connected),
      (entryNode twoCoinEntry).Accepts transferBlock 400 (oneEntryState twoCoinEntry) r ∧
      (entryNode twoCoinEntry).disconnectBlock transferBlock 400 r.vtxundo r.state = .ok d ∧
      d.state.nMoneySupply = 0 ∧ (plainNode 400 d.state.view).Accepts transferBlock 400 d.state r' ∧
      r'.state.nMoneySupply = r.state.nMoneySupply ∧ r'.state.mapZerocoinSupply = r.state.mapZerocoinSupply := by
  have hok : transferTwice.isOk = true := by decide +kernel
  obtain ⟨r', hr'⟩ := exists_ok_of_isOk hok
  unfold transferTwice roundTrip at hr'
  simp only [bind_eq_ok] at hr'
  obtain ⟨d, ⟨r, hr, hd⟩, hr'⟩ := hr'
  have hgenesis : transferBlock.hash ≠ ConsensusParams.mainNet.hashGenesisBlock := by decide
  have hfirst : (entryNode twoCoinEntry).Accepts transferBlock 400
      (oneEntryState twoCoinEntry) r := ⟨hgenesis, false, fun h => Bool.noConfusion h, hr⟩
  have hagain : (plainNode 400 d.state.view).Accepts transferBlock 400 d.state r' :=
    ⟨hgenesis, false, fun h => Bool.noConfusion h, hr'⟩
  have hconnect : ∀ view st r, (plainNode 400 view).Accepts transferBlock 400 st r →
      transferSetup.Connects transferBlock 400 st r (plainNode 400 view) := fun view st r h =>
    { params := rfl, crypto := rfl, height_lt := by decide, accepts := h, burned := by decide
      locked := rfl, spent := fun tx htx => (transferBlock_spent _ tx htx).1 }
  have hdisconnect : transferSetup.Disconnects transferBlock 400 r.vtxundo r.state d
      (entryNode twoCoinEntry) :=
    { params := rfl, crypto := rfl, disconnects := hd
      spent := fun tx htx => (transferBlock_spent _ tx htx).2 }
  have hmaturity : 0 < ConsensusParams.mainNet.nCoinbaseMaturity := by decide
  obtain ⟨hone, hruns⟩ := supply_counters_of_chain hmaturity
  have hwf : (oneEntryState twoCoinEntry).view.WF := wf_oneEntryView wf_twoCoinEntry
  have hsupply : (oneEntryState twoCoinEntry).mapZerocoinSupply.Nonneg := fun _ => le_refl _
  refine ⟨r, d, r', hfirst, hd, ?_, hagain, ?_⟩
  · have hread : ∀ tx ∈ transferBlock.vtx,
        (entryNode twoCoinEntry).SpendsReadable tx := by
      intro tx htx hspends
      rw [transferBlock_no_spends tx htx] at hspends
      cases hspends
    have hzero : spentDifference (entryNode twoCoinEntry)
        (entryNode twoCoinEntry) transferBlock = 0 := by
      refine sum_eq_zero fun x hx => ?_
      obtain ⟨tx, htx, rfl⟩ := mem_map.mp hx
      rw [(transferBlock_spent _ tx htx).1, (transferBlock_spent _ tx htx).2, Int.sub_self]
    obtain ⟨d', hd', hmoney, -⟩ := (hone _ _ _ _ _ _ rfl rfl rfl (by decide) (by decide) hwf hsupply
      hfirst).mpr ⟨hread, hzero ▸ rfl⟩
    rw [hd] at hd'
    cases hd'
    exact hmoney
  · have run1 := RunSetup.Run.connect (.refl transferSetup.init) (hconnect _ _ _ hfirst)
    have run2 := RunSetup.Run.disconnect run1 hdisconnect
    have run3 := RunSetup.Run.connect run2 (hconnect _ _ _ hagain)
    exact hruns transferSetup rfl hwf hsupply _ _ run3 run1 rfl

/-- A bet is taken off the money supply and not put back. -/
theorem burned_bet_not_restored :
    ∃ r d, (entryNode twoCoinEntry).Accepts betBlock 400 (oneEntryState twoCoinEntry) r ∧
      (entryNode twoCoinEntry).disconnectBlock betBlock 400 r.vtxundo r.state = .ok d ∧
      (oneEntryState twoCoinEntry).nMoneySupply = 0 ∧ d.state.nMoneySupply = -(1 * COIN) := by
  have hrun : (roundTrip betBlock twoCoinEntry).map (fun d => d.state.nMoneySupply)
      = .ok (-(1 * COIN)) := by
    decide +kernel
  obtain ⟨r, d, hr, hd, hmoney⟩ := roundTrip_eq_ok (by decide) hrun
  exact ⟨r, d, hr, hd, rfl, hmoney⟩

end PwrbCore
