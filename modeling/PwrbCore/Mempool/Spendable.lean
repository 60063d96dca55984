/-
  Mempool.Spendable — THE POOL STAYS SPENDABLE WHILE THE TIP MOVES.

  `ChainCoins` says that the coins of the tip are what the connected blocks left of the
  empty ledger, and that each block's undo records are those of its connection.  From it:
  coins that exist were not spent by the chain, and no transaction is in the chain twice.
  `TipInv` adds that every input of the pool is a coin of the pool or of the tip.
-/
import PwrbCore.Mempool.Removal
import PwrbCore.Mempool.Tip

namespace PwrbCore

open Checked List NodeEnv CTransaction CCoinsView CTxMemPool

/-! ## §1. Stored blocks. -/

variable {nHeight : Int} {tx : CTransaction} {pool pool' : CTxMemPool} {env : NodeEnv} {above : List Frame}
  {txOf : Uint256 → CTransaction} {before : CCoinsView} {p : COutPoint} {Ok : COutPoint → Prop}
  {chain vtx : List CTransaction} {st' : TipState}

/-- A stored block of catalogued transactions without zerocoins. -/
structure GoodBlock (txOf : Uint256 → CTransaction) (nHeight : Nat) (block : CBlock) : Prop where
  stored : ∃ params, StoredBlock params block nHeight
  txs : ∀ tx ∈ block.vtx, txOf tx.hash = tx ∧ tx.containsZerocoins = false

variable {params : ConsensusParams} {block : CBlock} {nHeight : Nat} {cur : CCoinsView}
  {below : List Frame} {o : CTxOut} {st : TipState} {ext : NodeEnv} {policy : RelayPolicy}

section

variable (h : StoredBlock params block nHeight)

include h

theorem StoredBlock.coinBase : ∃ coinBase rest, block.vtx = coinBase :: rest ∧ coinBase.isCoinBase = true ∧
      ∀ tx ∈ rest, tx.isCoinBase = false := by
  obtain ⟨env, fCheckMerkleRoot, hchecked⟩ := h.checked
  exact checkBlockShape_coinBase (env.checkBlock_shape hchecked)

theorem StoredBlock.coinBaseScript (htx : tx ∈ block.vtx)
    (hbase : tx.isCoinBase = true) : block.coinBaseScript = tx.vin.head?.map CTxIn.scriptSig := by
  obtain ⟨coinBase, rest, hvtx, -, hrest⟩ := h.coinBase
  rw [hvtx] at htx
  rcases mem_cons.mp htx with rfl | htx
  · unfold CBlock.coinBaseScript
    rw [hvtx]
  · rw [hrest tx htx] at hbase
    cases hbase

/-- **A coinbase carries the height of its block**: it is in no other. -/
theorem StoredBlock.height_eq {params' : ConsensusParams} {block' : CBlock}
    {nHeight' : Nat} (h' : StoredBlock params' block' nHeight')
    (hpos : 0 < nHeight) (hpos' : 0 < nHeight') (htx : tx ∈ block.vtx)
    (htx' : tx ∈ block'.vtx) (hbase : tx.isCoinBase = true) : nHeight = nHeight' := by
  obtain ⟨env, hcontext⟩ := h.contextual
  obtain ⟨env', hcontext'⟩ := h'.contextual
  have hint := h.height
  have hint' := h'.height
  have hmax : INT_MAX = 2147483647 := rfl
  exact contextualCheckBlock_height hcontext hcontext' hpos hpos' (by omega) (by omega)
    ((h.coinBaseScript htx hbase).trans (h'.coinBaseScript htx' hbase).symm)

end

theorem CTransaction.noMint_of_free (h : tx.containsZerocoins = false) : ∀ o ∈ tx.vout, o.isZerocoinMint = false := by
  unfold containsZerocoins hasZerocoinMintOutputs at h
  simp only [Bool.or_eq_false_iff, any_eq_false, Bool.not_eq_true] at h
  exact h.2

theorem NodeEnv.vin_ne_nil_of_checked {fZerocoinActive fColdStakingActive : Bool}
    (h : env.checkTransaction tx fZerocoinActive fColdStakingActive = .ok ()) : tx.vin ≠ [] := by
  exact (require_bind_eq_ok.mp h).1

/-- **The shape of a stored block**: a coinbase, then transactions that take coins. -/
theorem GoodBlock.shape (h : GoodBlock txOf nHeight block) :
    ∃ coinBase rest, block.vtx = coinBase :: rest ∧ coinBase.isCoinBase = true ∧
      ∀ tx ∈ rest, spendsCoins tx = true ∧ tx.prevouts ≠ [] := by
  obtain ⟨params, hstored⟩ := h.stored
  obtain ⟨env, fCheckMerkleRoot, hchecked⟩ := hstored.checked
  obtain ⟨coinBase, rest, hvtx, hbase, hothers⟩ := hstored.coinBase
  refine ⟨coinBase, rest, hvtx, hbase, ?_⟩
  intro tx htx
  have hmem : tx ∈ block.vtx := by
    rw [hvtx]
    exact mem_cons_of_mem coinBase htx
  refine ⟨?_, ?_⟩
  · unfold spendsCoins
    rw [hothers tx htx, noSpends_of_free (h.txs tx hmem).2]
    rfl
  unfold checkBlock at hchecked
  simp only [bind_eq_ok] at hchecked
  obtain ⟨_, -, _, -, _, -, serials, hloop, -⟩ := hchecked
  obtain ⟨s, s', hturn⟩ := foldlM_forall_mem hloop tx hmem
  unfold checkBlockTx at hturn
  rw [bind_eq_ok] at hturn
  obtain ⟨⟨⟩, hcheck, -⟩ := hturn
  unfold prevouts
  rw [ne_eq, map_eq_nil_iff]
  exact vin_ne_nil_of_checked hcheck

/-! ## §2. The coins of the chain. -/

structure BaseBlocks (txOf : Uint256 → CTransaction) (base : List CBlock) : Prop where
  stored : ∀ i block, base[i]? = some block → ∃ params, StoredBlock params block (i + 1)
  named : ∀ block ∈ base, ∀ tx ∈ block.vtx, txOf tx.hash = tx

/-- The coins `cur` are what the blocks `base` and `above` left; those of `above` carry their undo records. -/
inductive ChainCoins (txOf : Uint256 → CTransaction) (base : List CBlock) : List Frame → CCoinsView → Prop
  | nil {cur : CCoinsView} (hbase : BaseBlocks txOf base)
      (hcur : Ledger.Sound coinRules (base.flatMap CBlock.vtx) cur.unspent) : ChainCoins txOf base [] cur
  | cons {below : List Frame} {before after cur : CCoinsView} {frame : Frame}
      {undos : List (List CTxInUndo)} (hbelow : ChainCoins txOf base below before)
      (hgood : GoodBlock txOf (base.length + below.length + 1) frame.block)
      (hrun : connectCoins (base.length + below.length + 1 : Nat) frame.block.vtx before
        = some (after, frame.block.vtx.zip undos))
      (hlen : undos.length = frame.block.vtx.length) (hundos : frame.vtxundo = undos.tail)
      (hcur : cur.unspent = after.unspent) : ChainCoins txOf base (frame :: below) cur

def chainTxs (base : List CBlock) (above : List Frame) : List CTransaction :=
  above.flatMap (fun frame => frame.block.vtx) ++ base.flatMap CBlock.vtx

theorem chainTxs_cons (base : List CBlock) (frame : Frame) (below : List Frame) :
    chainTxs base (frame :: below) = frame.block.vtx ++ chainTxs base below := by
  unfold chainTxs
  rw [flatMap_cons, append_assoc]

variable {base : List CBlock}

theorem ChainCoins.congr {cur' : CCoinsView} (h : ChainCoins txOf base above cur)
    (hcur : cur'.unspent = cur.unspent) : ChainCoins txOf base above cur' := by
  cases h with
  | nil hbase hsound => exact .nil hbase (by rw [hcur]; exact hsound)
  | cons hbelow hgood hrun hlen hundos hcur' => exact .cons hbelow hgood hrun hlen hundos (hcur.trans hcur')

/-- **Where a transaction of the chain comes from**: a stored block below the tip. -/
theorem ChainCoins.stored (h : ChainCoins txOf base above cur) : ∀ tx ∈ chainTxs base above, txOf tx.hash = tx ∧
      ∃ params block nHeight, StoredBlock params block nHeight ∧ 0 < nHeight ∧
        nHeight ≤ base.length + above.length ∧ tx ∈ block.vtx := by
  induction h with
  | nil hbase hcur =>
    intro tx htx
    obtain ⟨block, hblock, htx⟩ := mem_flatMap.mp htx
    grind [getElem?_of_mem, hbase.stored, hbase.named]
  | @cons below before after cur frame undos hbelow hgood hrun hlen hundos hcur ih =>
    intro tx htx
    rw [chainTxs_cons] at htx
    rw [length_cons]
    rcases mem_append.mp htx with htop | hrest
    · obtain ⟨params, hstored⟩ := hgood.stored
      exact ⟨(hgood.txs tx htop).1, params, frame.block, _, hstored, by omega, by omega, htop⟩
    · grind

/-- **A coinbase is new.** -/
theorem ChainCoins.coinBase_new (h : ChainCoins txOf base below before)
    (hgood : GoodBlock txOf (base.length + below.length + 1) block) (htx : tx ∈ block.vtx)
    (hbase : tx.isCoinBase = true) : tx ∉ chainTxs base below := by
  intro hmem
  obtain ⟨-, params', block', nHeight, hstored', hpos, hle, htx'⟩ := h.stored tx hmem
  obtain ⟨params, hstored⟩ := hgood.stored
  have heq := hstored.height_eq hstored' (by omega) hpos htx htx' hbase
  omega

/-- **The coins of the chain are a sound ledger, and a new block repeats nothing.** -/
theorem ChainCoins.sound_cons {after : CCoinsView}
    {log : List (CTransaction × List CTxInUndo)} (h : ChainCoins txOf base below before)
    (hsound : Ledger.Sound coinRules (chainTxs base below) before.unspent)
    (hgood : GoodBlock txOf (base.length + below.length + 1) block)
    (hrun : connectCoins nHeight block.vtx before = some (after, log)) :
    Ledger.Sound coinRules (block.vtx ++ chainTxs base below) after.unspent ∧
      ∀ tx ∈ block.vtx, tx ∉ chainTxs base below := by
  obtain ⟨coinBase, rest, hvtx, hbase, hrest⟩ := hgood.shape
  have hnamed : ∀ tx, tx ∈ block.vtx ∨ tx ∈ chainTxs base below → txOf tx.hash = tx := by grind [hgood.txs, h.stored]
  have hnew := h.coinBase_new hgood (by rw [hvtx]; exact mem_cons_self) hbase
  have hledger := connectCoins_ledger hrun
  rw [hvtx] at hledger hnamed ⊢
  -- the coinbase by its height, the others because they take coins
  cases hledger with
  | cons henabled hothers =>
    have hid : ∀ tx' ∈ chainTxs base below, tx'.hash ≠ coinBase.hash := by grind
    have hstep := hsound.step henabled hid
    obtain ⟨hsound', hfresh⟩ := hstep.run hothers
      (by
        intro tx htx
        rw [coinRules_ins_of_spends (hrest tx htx).1]
        exact (hrest tx htx).2)
      (by
        intro tx htx tx' htx' heq
        have hin : tx' ∈ coinBase :: rest ∨ tx' ∈ chainTxs base below := by grind
        rw [← hnamed tx' hin, ← hnamed tx (.inl (mem_cons_of_mem _ htx))]
        exact congrArg txOf heq)
    refine ⟨hsound'.congr fun tx => ?_, ?_⟩
    · grind
    · simp_all

theorem ChainCoins.sound (h : ChainCoins txOf base above cur) :
    Ledger.Sound coinRules (chainTxs base above) cur.unspent := by
  induction h with
  | nil hbase hcur => exact hcur
  | cons hbelow hgood hrun hlen hundos hcur ih =>
    rw [hcur, chainTxs_cons]
    exact (hbelow.sound_cons ih hgood hrun).1

theorem ChainCoins.coin (h : ChainCoins txOf base above cur) (hp : cur.unspent p = some o) :
    (txOf p.hash).vout[p.n]? = some o := by
  obtain ⟨tx, htx, hid, hout⟩ := h.sound.created p o hp
  have hhash : tx.hash = p.hash := hid
  have hcoin : tx.coinAt p.n = some o := hout
  rw [← hhash, (h.stored tx htx).1]
  exact (Option.filter_eq_some_iff.mp hcoin).1

theorem CTransaction.noMint_of_coinAt {n : Nat}
    (hfree : tx.containsZerocoins = false) (h : tx.coinAt n = some o) : o.isZerocoinMint = false := by
  exact noMint_of_free hfree o (mem_of_getElem? (Option.filter_eq_some_iff.mp h).1)

/-! ## §3. Acceptance. -/

/-- An input that tip and pool provide is a coin of one of them. -/
theorem CTxMemPool.coin_of_viewOver {base : CCoinsView}
    (h : (pool.viewOver base).getOutputFor p = some o) : (∃ o, base.getOutputFor p = some o) ∨ pool.HasCoin p := by
  obtain ⟨hp, hmint⟩ := getOutputFor_eq_some_iff.mp h
  obtain ⟨coins, hcoins, hget, hnull⟩ := unspent_eq_some.mp hp
  unfold viewOver at hcoins
  dsimp only at hcoins
  split at hcoins
  next tx htx =>
      right
      refine ⟨tx, o, htx, ?_⟩
      rw [← CCoins.unspentAt_fromTx tx MEMPOOL_HEIGHT, Option.some.inj hcoins]
      exact CCoins.unspentAt_eq_some.mpr ⟨hget, hnull⟩
  next =>
      left
      obtain ⟨hbase, -⟩ := (lookup_eq_some_iff _ _ _).mp hcoins
      have hcoin := unspent_eq_some.mpr ⟨coins, hbase, hget, hnull⟩
      exact ⟨o, getOutputFor_eq_some_iff.mpr ⟨hcoin, hmint⟩⟩

/-- **The inputs of an accepted transaction** are coins of tip or pool, not its own. -/
theorem AcceptedTx.inputs (h : AcceptedTx env pool tx pool') (hz : tx.hasZerocoinSpendInputs = false) :
    ∀ txin ∈ tx.vin, txin.prevout.hash ≠ tx.hash ∧
      ((∃ o, env.coinsTip.getOutputFor txin.prevout = some o) ∨ pool.HasCoin txin.prevout) := by
  intro txin htxin
  have hbranch := h.branch
  unfold acceptBranch acceptInputs at hbranch
  rw [hz, if_neg Bool.false_ne_true] at hbranch
  simp only [bind_eq_ok, require_eq_ok] at hbranch
  obtain ⟨⟨⟩, ⟨_, hown, hloop⟩, _, -, hinputs⟩ := hbranch
  obtain ⟨_, _, hinput⟩ := foldlM_forall_mem hloop txin htxin
  have hcoins := (require_bind_eq_ok.mp hinput).1
  refine ⟨fun heq => ?_, ?_⟩
  · rw [heq, hown] at hcoins
    cases hcoins
  · grind [spendsCoins, h.not_coinBase, haveInputs_iff, coin_of_viewOver]

/-- What is kept about the pool, over coins `Ok` and the transactions `chain`. -/
structure PoolInv (txOf : Uint256 → CTransaction) (Ok : COutPoint → Prop) (chain : List CTransaction)
    (pool : CTxMemPool) : Prop where
  plain : pool.Plain txOf
  ordinary : ∀ hash entry, pool.mapTx.get hash = some entry →
    entry.tx.isCoinBase = false ∧ ∀ txin ∈ entry.tx.vin, txin.prevout.hash ≠ hash
  apart : ∀ hash entry, pool.mapTx.get hash = some entry → entry.tx ∉ chain
  supported : pool.Supported Ok []

section steps

variable {Ok' : COutPoint → Prop}

theorem PoolInv.empty : PoolInv txOf Ok chain empty := by
  refine ⟨⟨.empty txOf, ?_⟩, ?_, ?_, ?_⟩
  all_goals
    intro hash entry hget
    cases hget

theorem PoolInv.mono (h : PoolInv txOf Ok chain pool) (hok : ∀ p, Ok p → Ok' p) : PoolInv txOf Ok' chain pool :=
  ⟨h.plain, h.ordinary, h.apart, h.supported.mono hok⟩

theorem PoolInv.shrink (h : PoolInv txOf Ok chain pool) (hshrinks : CTxMemPool.Shrinks txOf pool pool') :
    PoolInv txOf Ok chain pool' :=
  ⟨hshrinks.plain, fun hash entry hget => h.ordinary hash entry (hshrinks.sub hash entry hget),
    fun hash entry hget => h.apart hash entry (hshrinks.sub hash entry hget), hshrinks.supported Ok h.supported⟩

/-- A refused transaction goes with what spends it; its coins are no longer needed. -/
theorem PoolInv.remove (h : PoolInv txOf (fun p => Ok p ∨ CTxMemPool.OwnCoin tx p) chain pool)
    (htx : txOf tx.hash = tx) : PoolInv txOf Ok chain (pool.remove tx true).1 :=
  ⟨h.plain.remove tx true, fun hash entry hget => h.ordinary hash entry (remove_sub hget),
    fun hash entry hget => h.apart hash entry (remove_sub hget),
    h.plain.remove_supported htx h.supported⟩

/-- **An accepted transaction** brings its coins into the pool. -/
theorem PoolInv.accept
    (h : PoolInv txOf (fun p => Ok p ∨ CTxMemPool.OwnCoin tx p) chain pool) (henv : env.Catalogued txOf)
    (htip : ∀ p o, env.coinsTip.getOutputFor p = some o → Ok p) (htx : txOf tx.hash = tx)
    (hz : tx.hasZerocoinSpendInputs = false) (hnew : tx ∉ chain) (hacc : AcceptedTx env pool tx pool') :
    PoolInv txOf Ok chain pool' := by
  have hcat := h.plain.catalogued.accept henv htx hacc
  have hinputs := hacc.inputs hz
  have hbase := hacc.not_coinBase
  have hfresh := hacc.new
  obtain ⟨entry, rfl, rfl⟩ := hacc.result
  -- an entry of the new pool is the new one or an old one
  have hget : ∀ hash entry', (pool.addUnchecked entry.tx.hash entry).mapTx.get hash = some entry' →
      (hash = entry.tx.hash ∧ entry' = entry) ∨ pool.mapTx.get hash = some entry' := by
    grind [addUnchecked, StdMap.get_set]
  -- and the coins of the pool stay
  have hcoin : ∀ p, pool.HasCoin p → (pool.addUnchecked entry.tx.hash entry).HasCoin p := by
    rintro p ⟨tx', o, hlook, hout⟩
    refine ⟨tx', o, ?_, hout⟩
    rw [lookup_addUnchecked, if_neg (ne_of_lookup hfresh hlook)]
    exact hlook
  refine ⟨⟨hcat, ?_⟩, ?_, ?_, ?_⟩
  · grind [h.plain.noSpends]
  · grind [h.ordinary]
  · grind [h.apart]
  · intro hash entry' hget'
    right
    rcases hget hash entry' hget' with ⟨-, rfl⟩ | hold
    · grind
    rcases h.supported hash entry' hold with hq | hin
    · cases hq
    intro txin htxin
    rcases hin txin htxin with (hok | ⟨hhash, o, hout⟩) | hpool
    · exact .inl hok
    · refine .inr ⟨entry.tx, o, ?_, hout⟩
      rw [lookup_addUnchecked, if_pos hhash]
    · exact .inr (hcoin _ hpool)

/-- What the chain spends is no coin, and its transaction is not in the pool. -/
theorem PoolInv.spent {view : CCoinsView} {p : COutPoint} (hcoins : ChainCoins txOf base above view)
    (h : PoolInv txOf Ok (chainTxs base above) pool) (hmem : tx ∈ chainTxs base above)
    (hp : p ∈ coinRules.ins tx) : (∀ o, view.getOutputFor p ≠ some o) ∧ pool.lookup p.hash = none := by
  refine ⟨fun o ho => hcoins.sound.unconsumed p o (getOutputFor_eq_some_iff.mp ho).1 tx hmem hp, ?_⟩
  refine Option.eq_none_iff_forall_ne_some.mpr fun parent hlook => ?_
  obtain ⟨entry, hget, rfl⟩ := lookup_eq_some.mp hlook
  obtain ⟨t, ht, hid⟩ := hcoins.sound.causal tx hmem _ hp
  have hhash : t.hash = p.hash := hid
  refine h.apart _ entry hget ?_
  rw [← h.plain.catalogued.named _ _ hget, ← hhash, (hcoins.stored t ht).1]
  exact ht

/-- **A transaction of the chain is not accepted again**: its inputs are spent. -/
theorem PoolInv.not_in_chain (hcoins : ChainCoins txOf base above env.coinsTip)
    (h : PoolInv txOf Ok (chainTxs base above) pool) (hz : tx.hasZerocoinSpendInputs = false)
    (hacc : AcceptedTx env pool tx pool') : tx ∉ chainTxs base above := by
  intro hmem
  have hspends : spendsCoins tx = true := by
    unfold spendsCoins
    rw [hacc.not_coinBase, hz]
    rfl
  obtain ⟨fZerocoinActive, fColdStakingActive, hchecked⟩ := hacc.checked
  obtain ⟨txin, htxin⟩ := exists_mem_of_ne_nil _ (vin_ne_nil_of_checked hchecked)
  have hins : txin.prevout ∈ coinRules.ins tx := by
    rw [coinRules_ins_of_spends hspends]
    exact mem_map_of_mem htxin
  obtain ⟨hspent, hnone⟩ := h.spent hcoins hmem hins
  rcases (hacc.inputs hz txin htxin).2 with ⟨o, ho⟩ | ⟨parent, o, hlook, -⟩
  · exact hspent o ho
  · rw [hnone] at hlook
    cases hlook

end steps

/-! ## §4. Connecting. -/

structure TipInv (txOf : Uint256 → CTransaction) (st : TipState) : Prop where
  genesis : ∀ tx ∈ st.genesis.vtx, txOf tx.hash = tx ∧ tx.isCoinBase = true
  coins : ChainCoins txOf st.base st.above st.chainState.view
  pool : PoolInv txOf (fun p => ∃ o, st.chainState.view.getOutputFor p = some o)
    (chainTxs st.base st.above) st.pool

theorem mem_chainTxs
    (hblock : block ∈ base ++ (above.map Frame.block).reverse) (htx : tx ∈ block.vtx) : tx ∈ chainTxs base above := by
  unfold chainTxs
  grind

section

variable (h : TipInv txOf st) (hindex : ∀ hash tx hashBlock, ext.txIndex hash = some (tx, hashBlock) → txOf hash = tx)

include h hindex

/-- What acceptance reads fits the catalogue, also during a disconnection. -/
theorem TipInv.catalogued
    {view : CCoinsView} (hview : ChainCoins txOf st.base above view) :
    ({ st.env ext with coinsTip := view } : NodeEnv).Catalogued txOf where
  txIndex := hindex
  chain := by
    intro block hblock tx htx
    rcases mem_cons.mp hblock with rfl | hblock
    · exact (h.genesis tx htx).1
    · exact (h.coins.stored tx (mem_chainTxs hblock htx)).1
  coins := by
    intro hash coins hlook n o hget hnull
    obtain ⟨hin, -⟩ := (lookup_eq_some_iff _ _ _).mp hlook
    have hcoin : view.unspent ⟨hash, n⟩ = some o :=
      unspent_eq_some.mpr ⟨coins, hin, hget, hnull⟩
    exact hview.coin hcoin

theorem TipInv.accept (htx : txOf tx.hash = tx) (hfree : tx.containsZerocoins = false)
    (hacc : AcceptedTx (st.env ext) st.pool tx pool') : TipInv txOf { st with pool := pool' } := by
  have hz := noSpends_of_free hfree
  refine ⟨h.genesis, h.coins, ?_⟩
  apply (h.pool.mono fun p hp => .inl hp).accept (h.catalogued hindex h.coins) (fun p o hp => ⟨o, hp⟩) htx hz
    ?_ hacc
  exact h.pool.not_in_chain h.coins hz hacc

end

/-- **A block is connected**: what the pool spends of it or of the old coins is still there,
for the pool gave up what the block spends. -/
theorem TipInv.connectTip (h : TipInv txOf st)
    {fAlreadyChecked : Bool} (hstored : StoredBlock ext.params block (st.height + 1))
    (htxs : ∀ tx ∈ block.vtx, txOf tx.hash = tx ∧ tx.containsZerocoins = false)
    (hst : st.connectTip ext block fAlreadyChecked = .ok st') : TipInv txOf st' := by
  unfold TipState.connectTip at hst
  rw [bind_eq_ok] at hst
  obtain ⟨r, hr, hst⟩ := hst
  cases hst
  have hgenesis : block.hash ≠ (st.env ext).params.hashGenesisBlock := hstored.not_genesis
  obtain ⟨ok⟩ := connectBlock_eq_ok hgenesis hr
  obtain ⟨undos, hundos, hlen, hcoins, -⟩ := foldlM_connectTx_coins ok.loop
  rw [nil_append] at hundos
  have hgood : GoodBlock txOf (st.base.length + st.above.length + 1) block := ⟨⟨_, hstored⟩, htxs⟩
  have hview : r.state.view.unspent = ok.acc.view.unspent :=
    congrArg (fun r : Connected => r.state.view.unspent) ok.result
  have hrecords : r.vtxundo = undos.tail := by
    rw [← hundos]
    exact congrArg Connected.vtxundo ok.result
  have hrun := connectCoins_ledger hcoins
  have hremoved := h.pool.plain.removeForBlock (fun tx htx => (htxs tx htx).1) h.pool.supported
  have hsub := removeForBlock_sub st.pool block.vtx
  refine ⟨h.genesis, .cons h.coins hgood hcoins hlen hrecords hview, hremoved.plain, ?_, ?_, ?_⟩
  · intro hash entry hget
    exact h.pool.ordinary hash entry (hsub hash entry hget)
  · intro hash entry hget hmem
    rw [chainTxs_cons] at hmem
    rcases mem_append.mp hmem with hblock | hbelow
    · have hkey := hremoved.plain.catalogued.indexed.key hash entry hget
      rw [← hkey, hremoved.gone entry.tx hblock] at hget
      cases hget
    · exact h.pool.apart hash entry (hsub hash entry hget) hbelow
  · intro hash entry hget
    rcases hremoved.supported hash entry hget with hq | hin
    · cases hq
    right
    intro txin htxin
    have hunspent : ∀ tx ∈ block.vtx, txin.prevout ∉ coinRules.ins tx := by
      intro tx htx hp
      cases hspends : spendsCoins tx with
      | true =>
        rw [coinRules_ins_of_spends hspends] at hp
        exact hremoved.free tx htx _ hp hash entry hget (mem_map_of_mem htxin)
      | false =>
        rw [coinRules_ins_of_not_spends hspends] at hp
        cases hp
    rcases hin txin htxin with (⟨o, ho⟩ | ⟨tx, htx, hhash, o, ho⟩) | hpool
    · obtain ⟨hcoin, hmint⟩ := getOutputFor_eq_some_iff.mp ho
      refine .inl ⟨o, getOutputFor_eq_some_iff.mpr ⟨?_, hmint⟩⟩
      rw [hview]
      exact hrun.keeps hcoin hunspent
    · refine .inl ⟨o, getOutputFor_eq_some_iff.mpr ⟨?_, ?_⟩⟩
      · rw [hview]
        exact hrun.creates htx hhash ho hunspent
      · exact noMint_of_coinAt (htxs tx htx).2 ho
    · exact .inr hpool

/-! ## §5. Disconnecting. -/

/-- The coins that `disconnectTxs` leaves, when the records are those of the log. -/
theorem NodeEnv.disconnectTxs_coins
    {undos : List (List CTxInUndo)} {records : List (Option (List CTxInUndo))} {acc acc' : DisconnectAcc}
    (hlen : undos.length = vtx.length)
    (hrecords : List.Forall₂ (fun p record => spendsCoins p.1 = true → record = some p.2) (vtx.zip undos) records)
    (h : env.disconnectTxs nHeight (vtx.zip records) acc = .ok acc') :
    acc'.view = disconnectCoins (vtx.zip undos) acc.view ∧
      ∀ e ∈ vtx.zip undos, spendsCoins e.1 = true → (reloadTxUndo e.2).length = e.1.vin.length := by
  induction vtx generalizing undos records acc' with
  | nil =>
    cases h
    exact ⟨rfl, by simp⟩
  | cons tx vtx ih =>
    obtain ⟨undo, undos, rfl⟩ := exists_cons_of_length_eq_add_one hlen
    obtain ⟨record, records', hrecord, hrest, rfl⟩ := forall₂_cons_left_iff.mp hrecords
    rw [zip_cons_cons] at h
    unfold disconnectTxs at h
    rw [bind_eq_ok] at h
    obtain ⟨mid, hmid, hturn⟩ := h
    obtain ⟨hview, hread⟩ := ih (Nat.succ.inj hlen) hrest hmid
    unfold disconnectTx at hturn
    simp only [bind_eq_ok] at hturn
    obtain ⟨spent, -, nValueOut, -, s, hs, hacc⟩ := hturn
    cases hacc
    have hstep : s.1 = disconnectTxCoins tx undo mid.view ∧
        (spendsCoins tx = true → (reloadTxUndo undo).length = tx.vin.length) := by
      unfold disconnectCoinsChecked at hs
      unfold disconnectTxCoins
      cases hspends : spendsCoins tx with
      | false => grind
      | true =>
        rw [hspends, if_pos rfl, hrecord hspends] at hs
        simp only [bind_eq_ok, require_eq_ok] at hs
        obtain ⟨_, hundo, _, hcount, hres⟩ := hs
        cases hundo
        cases hres
        exact ⟨restoreInputsChecked_fst _ _ _, fun _ => hcount⟩
    refine ⟨?_, ?_⟩
    · show s.1 = disconnectTxCoins tx undo (disconnectCoins (vtx.zip undos) acc.view)
      rw [← hview]
      exact hstep.1
    · grind

/-- **The coins after `disconnectBlock`** are those before the block. -/
theorem ChainCoins.disconnect {frame : Frame}
    {st : ChainState} {d : Disconnected} (h : ChainCoins txOf base (frame :: below) st.view)
    (hd : env.disconnectBlock frame.block nHeight frame.vtxundo st = .ok d) :
    ChainCoins txOf base below d.state.view ∧ GoodBlock txOf (base.length + below.length + 1) frame.block ∧
      Ledger.Run coinRules d.state.view.unspent frame.block.vtx st.view.unspent ∧
      ∀ tx ∈ frame.block.vtx, tx ∉ chainTxs base below := by
  cases h with
  | @cons _ before after _ _ undos hbelow hgood hrun hlen hundos hcur =>
    obtain ⟨coinBase, rest, hvtx, hbase, -⟩ := hgood.shape
    unfold disconnectBlock at hd
    simp only [bind_eq_ok] at hd
    obtain ⟨-, -, -, -, supply, -, acc, hloop, hres⟩ := hd
    cases hres
    rw [hundos] at hloop
    obtain ⟨hview, hread⟩ := disconnectTxs_coins hlen (forall₂_records hvtx hbase hlen) hloop
    have hback : (acc.view.setBestBlock frame.block.hashPrevBlock).unspent = before.unspent := by
      rw [hview]
      exact disconnectCoins_unspent hrun hread hcur
    refine ⟨hbelow.congr hback, hgood, ?_, (hbelow.sound_cons hbelow.sound hgood hrun).2⟩
    rw [hback, hcur]
    exact connectCoins_ledger hrun

/-- **All transactions of the disconnected block**, accepted or removed one by one: the coins of those to come count. -/
theorem PoolInv.resurrectAll (h : PoolInv txOf (fun p => Ok p ∨ ∃ tx ∈ vtx, CTxMemPool.OwnCoin tx p) chain pool)
    (henv : env.Catalogued txOf) (htip : ∀ p o, env.coinsTip.getOutputFor p = some o → Ok p)
    (hvtx : ∀ tx ∈ vtx, txOf tx.hash = tx ∧ tx.hasZerocoinSpendInputs = false ∧ tx ∉ chain)
    (hrun : vtx.foldlM (env.resurrect policy) pool = .ok pool') : PoolInv txOf Ok chain pool' := by
  induction vtx generalizing pool with
  | nil => grind [foldlM_nil_eq_ok, h.mono]
  | cons tx rest ih =>
    obtain ⟨mid, hmid, hrest⟩ := foldlM_cons_eq_ok.mp hrun
    have hstart : PoolInv txOf
        (fun p => (Ok p ∨ ∃ tx ∈ rest, CTxMemPool.OwnCoin tx p) ∨ CTxMemPool.OwnCoin tx p) chain pool := by grind
    have hnext : PoolInv txOf (fun p => Ok p ∨ ∃ tx ∈ rest, CTxMemPool.OwnCoin tx p) chain mid := by
      unfold NodeEnv.resurrect at hmid
      grind [hstart.remove, hstart.accept, NodeEnv.acceptToMemoryPool_eq_ok]
    grind

/-- **The tip is disconnected.** -/
theorem TipInv.disconnectTip (h : TipInv txOf st)
    (hindex : ∀ hash tx hashBlock, ext.txIndex hash = some (tx, hashBlock) → txOf hash = tx)
    (hst : st.disconnectTip ext policy = .ok st') : TipInv txOf st' := by
  unfold TipState.disconnectTip at hst
  split at hst
  next => cases hst
  next frame below habove =>
      simp only [bind_eq_ok] at hst
      obtain ⟨d, hd, _, -, pool, hpool, hst⟩ := hst
      cases hst
      have hcoins := h.coins
      rw [habove] at hcoins
      obtain ⟨hbelow, hgood, hrun, hfresh⟩ := hcoins.disconnect hd
      -- a coin of the old tip is one of the new tip or of the block
      have hstart : PoolInv txOf
          (fun p => (∃ o, d.state.view.getOutputFor p = some o) ∨
            ∃ tx ∈ frame.block.vtx, CTxMemPool.OwnCoin tx p) (chainTxs st.base below) st.pool := by
        refine ⟨h.pool.plain, h.pool.ordinary, ?_, h.pool.supported.mono ?_⟩
        · intro hash entry hget hmem
          refine h.pool.apart hash entry hget ?_
          rw [habove, chainTxs_cons]
          exact mem_append_right _ hmem
        · rintro p ⟨o, ho⟩
          obtain ⟨hcoin, hmint⟩ := getOutputFor_eq_some_iff.mp ho
          rcases hrun.eq_some hcoin with hold | ⟨tx, htx, hhash, hout⟩
          · exact .inl ⟨o, getOutputFor_eq_some_iff.mpr ⟨hold, hmint⟩⟩
          · exact .inr ⟨tx, htx, hhash, o, hout⟩
      have hall := hstart.resurrectAll (h.catalogued hindex hbelow) (fun p o hp => ⟨o, hp⟩)
        (fun tx htx => ⟨(hgood.txs tx htx).1, noSpends_of_free (hgood.txs tx htx).2, hfresh tx htx⟩)
        hpool
      exact ⟨h.genesis, hbelow, hall.shrink (hall.plain.removeCoinbaseSpends _ _ _)⟩

/-! ## §6. Every run. -/

theorem TipInv.step {event : TipEvent} (h : TipInv txOf st) (hevent : event.Fits txOf st) :
    TipInv txOf (st.step event) := by
  unfold TipState.step
  split
  next st' hst =>
      cases event with
      | accept ext policy tx fLimitFree fRejectInsaneFee ignoreFees =>
        obtain ⟨hindex, htx, hfree⟩ := hevent
        unfold TipState.perform at hst
        rw [bind_eq_ok] at hst
        obtain ⟨pool, hacc, hres⟩ := hst
        cases hres
        exact h.accept hindex htx hfree (acceptToMemoryPool_eq_ok hacc)
      | connect ext block fAlreadyChecked => exact h.connectTip hevent.1 hevent.2 hst
      | disconnect ext policy => exact h.disconnectTip hevent hst
      | clear =>
        cases hst
        exact ⟨h.genesis, h.coins, .empty⟩
  next => exact h

theorem TipReach.inv (h : TipReach txOf st) : TipInv txOf st := by
  induction h with
  | init hst =>
    refine ⟨hst.genesis, ?_, ?_⟩
    · rw [hst.above]
      exact .nil ⟨hst.stored, hst.named⟩ hst.coins
    · rw [hst.pool]
      exact .empty
  | step _ hevent ih => exact ih.step hevent

/-- **The pool stays spendable.**  In every state reached by accepting, connecting and
disconnecting, each input of a pool transaction is an output of another pool transaction or
available in the coins of the tip, and no pool transaction is in the active chain. -/
theorem pool_spendable (txOf : Uint256 → CTransaction) (st : TipState) (h : TipReach txOf st) :
    (∀ hash tx, st.pool.lookup hash = some tx → ∀ txin ∈ tx.vin,
      (txin.prevout.hash ≠ hash ∧ ∃ parent o, st.pool.lookup txin.prevout.hash = some parent ∧
        parent.vout[txin.prevout.n]? = some o ∧ o.isNull = false) ∨
      ∃ o, st.chainState.view.getOutputFor txin.prevout = some o) ∧
    ∀ hash tx, st.pool.lookup hash = some tx → ∀ block ∈ st.chain, tx ∉ block.vtx := by
  have hinv := h.inv
  refine ⟨?_, ?_⟩
  · intro hash tx hlook txin htxin
    obtain ⟨entry, hget, rfl⟩ := lookup_eq_some.mp hlook
    rcases hinv.pool.supported hash entry hget with hq | hin
    · cases hq
    · rcases hin txin htxin with hcoin | ⟨parent, o, hparent, hout⟩
      · exact .inr hcoin
      simp_all [coinAt, hinv.pool.ordinary]
  · intro hash tx hlook block hblock htx
    obtain ⟨entry, hget, rfl⟩ := lookup_eq_some.mp hlook
    rcases mem_cons.mp hblock with rfl | hblock
    · have hbase := (hinv.genesis entry.tx htx).2
      rw [(hinv.pool.ordinary hash entry hget).1] at hbase
      cases hbase
    · exact hinv.pool.apart hash entry hget (mem_chainTxs hblock htx)

/-- **Nothing is spent twice**: what the chain spends is no coin of the tip, and no pool transaction spends it. -/
theorem spent_once_of_run (txOf : Uint256 → CTransaction) (st : TipState) (h : TipReach txOf st) :
    ∀ block ∈ st.chain, ∀ tx ∈ block.vtx, spendsCoins tx = true → ∀ p ∈ tx.prevouts,
      st.chainState.view.getOutputFor p = none ∧ ∀ hash tx', st.pool.lookup hash = some tx' → p ∉ tx'.prevouts := by
  intro block hblock tx htx hspends p hp
  have hinv := h.inv
  have hmem : tx ∈ chainTxs st.base st.above := by
    rcases mem_cons.mp hblock with rfl | hblock
    · rw [spendsCoins, (hinv.genesis tx htx).2] at hspends
      cases hspends
    · exact mem_chainTxs hblock htx
  rw [← coinRules_ins_of_spends hspends] at hp
  obtain ⟨hspent, hnone⟩ := hinv.pool.spent hinv.coins hmem hp
  refine ⟨Option.eq_none_iff_forall_ne_some.mpr hspent, fun hash tx' hlook hp' => ?_⟩
  obtain ⟨entry, hget, rfl⟩ := lookup_eq_some.mp hlook
  obtain ⟨txin, htxin, rfl⟩ := mem_map.mp hp'
  rcases (hinv.pool.supported hash entry hget).resolve_left nofun txin htxin with ⟨o, ho⟩ | ⟨_, -, hparent, -⟩
  · exact hspent o ho
  · rw [hnone] at hparent
    cases hparent

/-- A coinbase of six coins at height 1, one at height 2, and a payment of five of the six coins. -/
def tipTxs : List CTransaction :=
  [{ hash := 7
     vin := [{ prevout := ⟨0, UINT32_MAX⟩, scriptSig := CScript.pushInt 1 ++ [1, 1] }]
     vout := [⟨6 * COIN, payTo 9⟩] },
   { hash := 40
     vin := [{ prevout := ⟨0, UINT32_MAX⟩, scriptSig := CScript.pushInt 2 ++ [1, 1] }]
     vout := [⟨1 * COIN, payTo 1⟩] },
   { hash := 50
     vin := [.of 7 0]
     vout := [⟨5 * COIN, payTo 2⟩] }]

def tipTxOf (hash : Uint256) : CTransaction :=
  (tipTxs.find? fun tx => tx.hash == hash).getD { hash := hash, vin := [], vout := [] }

/-- The surroundings of the sample node: a coinbase matures after one block. -/
def tipNode : NodeEnv :=
  { plainNode 2 ⟨fun _ => none, 0⟩ with
    params := { ConsensusParams.mainNet with nCoinbaseMaturity := 1 }
    mapBlockIndex := fun _ => some 1 }

def tipBlock (hash hashPrevBlock : Uint256) (txs : List Uint256) : CBlock :=
  { hash := hash, hashPrevBlock := hashPrevBlock, nTime := 1602000000, vtx := txs.map tipTxOf }

def tipStart : TipState where
  genesis := plainTip
  base := [tipBlock 901 900 [7]]
  above := []
  chainState := ⟨⟨fun t => if t = 7 then some (CCoins.fromTx (tipTxOf 7) 1) else none, 901⟩, 0, fun _ => 0⟩
  pool := CTxMemPool.empty

theorem tipStart_coins (p : COutPoint) :
    tipStart.chainState.view.unspent p = if p.hash = 7 then (tipTxOf 7).coinAt p.n else none := by
  unfold unspent tipStart
  dsimp only
  split_ifs with h
  · exact CCoins.unspentAt_fromTx (tipTxOf 7) 1 p.n
  · rfl

theorem tipStart_start : TipStart tipTxOf tipStart where
  genesis := by
    intro tx htx
    cases htx
  stored := by
    intro i block hblock
    obtain ⟨hi, hblock⟩ := List.getElem?_eq_some_iff.mp hblock
    have hzero : i = 0 := Nat.lt_one_iff.mp hi
    subst hzero
    have hfirst : block = tipBlock 901 900 [7] := hblock.symm
    rw [hfirst]
    exact ⟨tipNode.params, by decide +kernel, ⟨tipNode, false, by decide +kernel⟩,
      ⟨tipNode, by decide +kernel⟩, by decide⟩
  named := by
    intro block hblock tx htx
    rw [List.mem_singleton.mp hblock] at htx
    rw [List.mem_singleton.mp htx]
    rfl
  coins := by
    have hins : ∀ tx ∈ tipStart.base.flatMap CBlock.vtx, coinRules.ins tx = [] := by
      intro tx htx
      rw [List.mem_singleton.mp htx]
      exact coinRules_ins_of_not_spends (by decide +kernel)
    refine ⟨?_, ?_, ?_⟩
    · intro p o hp
      rw [tipStart_coins] at hp
      split_ifs at hp with h
      exact ⟨tipTxOf 7, List.mem_singleton_self _, h.symm, hp⟩
    · intro p o _ tx htx hp
      rw [hins tx htx] at hp
      cases hp
    · intro tx htx p hp
      rw [hins tx htx] at hp
      cases hp
  above := rfl
  pool := rfl

/-- The node accepts the payment, connects a block with it and disconnects it. -/
def tipEnd : TipState :=
  ((tipStart.step (.accept tipNode plainPolicy (tipTxOf 50) true false false)).step
    (.connect tipNode (tipBlock 902 901 [40, 50]) false)).step (.disconnect tipNode plainPolicy)

theorem tipEnd_reach : TipReach tipTxOf tipEnd := by
  have hindex : ∀ hash tx hashBlock, tipNode.txIndex hash = some (tx, hashBlock) → tipTxOf hash = tx := by
    intro hash tx hashBlock h
    cases h
  refine .step (.step (.step (.init tipStart_start) ⟨hindex, by decide +kernel, by decide +kernel⟩) ⟨?_, ?_⟩) hindex
  · exact ⟨by decide +kernel, ⟨tipNode, false, by decide +kernel⟩, ⟨tipNode, by decide +kernel⟩, by decide +kernel⟩
  · decide +kernel

/-- The payment is back in the pool, and its input is a coin of the tip. -/
theorem tipEnd_spendable : tipEnd.pool.lookup 50 = some (tipTxOf 50) ∧
    ∃ o, tipEnd.chainState.view.getOutputFor ⟨7, 0⟩ = some o := by
  have hlook : tipEnd.pool.lookup 50 = some (tipTxOf 50) := by decide +kernel
  have hparent : tipEnd.pool.lookup 7 = none := by decide +kernel
  refine ⟨hlook, ?_⟩
  rcases (pool_spendable tipTxOf tipEnd tipEnd_reach).1 50 _ hlook
    (.of 7 0) (by decide +kernel) with ⟨-, parent, o, hfound, -⟩ | hcoin
  · rw [hparent] at hfound
    cases hfound
  · exact hcoin

theorem tipBlock_spends :
    (tipStart.step (.connect tipNode (tipBlock 902 901 [40, 50]) false)).chainState.view.getOutputFor ⟨7, 0⟩
        = none := by
  have hfits : (TipEvent.connect tipNode (tipBlock 902 901 [40, 50]) false).Fits tipTxOf tipStart :=
    ⟨⟨by decide, ⟨tipNode, false, by decide +kernel⟩, ⟨tipNode, by decide +kernel⟩, by decide⟩, by decide +kernel⟩
  exact (spent_once_of_run tipTxOf _ (.step (.init tipStart_start) hfits) (tipBlock 902 901 [40, 50])
    (by decide +kernel)
    (tipTxOf 50) (by decide) rfl _ (by decide)).1

end PwrbCore
