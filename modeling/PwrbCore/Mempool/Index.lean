/-
  Mempool.Index — THE SPEND INDEX OF THE POOL IS EXACT.

  `mapNextTx` is cleared by outpoint whenever any transaction leaves, and zerocoin spends
  leave without ever having been entered.  This does no harm because the two kinds of
  transactions spend different outputs: a public spend is accepted only for a mint, and a
  mint is never an available coin.  `Catalogued` carries that fact along.
-/
import PwrbCore.Mempool.Accept
import PwrbCore.Validation.Reorg

namespace PwrbCore

open Checked List Option StdMap CCoinsView NodeEnv CTxMemPool

/-! ## §1. The invariant. -/

variable {tx : CTransaction} {p : COutPoint} {pool pool' : CTxMemPool} {hash hash' : Uint256}
  {txOf : Uint256 → CTransaction} {o : CTxOut} {env : NodeEnv}

/-- `mapNextTx` indexes the inputs of the pool transactions without zerocoin spends; `totalTxSize` is the sum of the
sizes. -/
structure CTxMemPool.Indexed (pool : CTxMemPool) : Prop where
  key : ∀ hash entry, pool.mapTx.get hash = some entry → entry.tx.hash = hash
  index : ∀ prevout inPoint, pool.mapNextTx.get prevout = some inPoint ↔
    pool.lookup inPoint.ptx.hash = some inPoint.ptx ∧ inPoint.ptx.hasZerocoinSpendInputs = false ∧
      (inPoint.ptx.vin[inPoint.n]?).map CTxIn.prevout = some prevout
  total : pool.totalTxSize = pool.mapTx.sumBy fun entry => (entry.nTxSize : Int)

namespace CTxMemPool

theorem lookup_eq_some : pool.lookup hash = some tx ↔ ∃ entry, pool.mapTx.get hash = some entry ∧ entry.tx = tx :=
  map_eq_some_iff

theorem mem_prevouts_iff : p ∈ tx.prevouts ↔ ∃ n : Nat, (tx.vin[n]?).map CTxIn.prevout = some p := by
  unfold CTransaction.prevouts
  rw [mem_iff_getElem?]
  simp only [getElem?_map]

theorem mem_inPoints_iff {inPoint : CInPoint} : (p, inPoint) ∈ inPoints tx ↔
      inPoint.ptx = tx ∧ (tx.vin[inPoint.n]?).map CTxIn.prevout = some p := by
  unfold inPoints
  rw [List.mem_map]
  constructor
  · grind
  rintro ⟨htx, hp⟩
  obtain ⟨txin, hget, rfl⟩ := map_eq_some_iff.mp hp
  refine ⟨(txin, inPoint.n), mk_mem_zipIdx_iff_getElem?.mpr hget, ?_⟩
  rw [← htx]

theorem map_fst_inPoints (tx : CTransaction) : (inPoints tx).map Prod.fst = tx.prevouts := by
  unfold inPoints CTransaction.prevouts
  rw [List.map_map]
  show tx.vin.zipIdx.map (CTxIn.prevout ∘ Prod.fst) = _
  rw [← List.map_map, zipIdx_map_fst]

theorem Indexed.eq_of_mem_prevouts (h : pool.Indexed) {tx' : CTransaction} (htx : pool.lookup tx.hash = some tx)
    (htx' : pool.lookup tx'.hash = some tx')
    (hz : tx.hasZerocoinSpendInputs = false) (hz' : tx'.hasZerocoinSpendInputs = false)
    (hp : p ∈ tx.prevouts) (hp' : p ∈ tx'.prevouts) : tx = tx' := by
  obtain ⟨n, hn⟩ := mem_prevouts_iff.mp hp
  obtain ⟨n', hn'⟩ := mem_prevouts_iff.mp hp'
  have hidx := (h.index p ⟨tx, n⟩).mpr ⟨htx, hz, hn⟩
  rw [(h.index p ⟨tx', n'⟩).mpr ⟨htx', hz', hn'⟩] at hidx
  exact (congrArg CInPoint.ptx (some.inj hidx)).symm

/-! ## §2. Transactions are known by their hash. -/

/-- `pool` is indexed, from the catalogue `txOf`, and each input names an output there: a mint for zerocoin spends,
else an ordinary one. -/
structure Catalogued (txOf : Uint256 → CTransaction) (pool : CTxMemPool) : Prop where
  indexed : pool.Indexed
  named : ∀ hash entry, pool.mapTx.get hash = some entry → txOf hash = entry.tx
  kind : ∀ hash entry, pool.mapTx.get hash = some entry → ∀ txin ∈ entry.tx.vin,
    ∃ o, (txOf txin.prevout.hash).vout[txin.prevout.n]? = some o ∧ o.isZerocoinMint = entry.tx.hasZerocoinSpendInputs

end CTxMemPool

/-- The chain fits the catalogue: a hash names one transaction, and the coins under it are outputs of that. -/
structure NodeEnv.Catalogued (txOf : Uint256 → CTransaction) (env : NodeEnv) : Prop where
  txIndex : ∀ hash tx hashBlock, env.txIndex hash = some (tx, hashBlock) → txOf hash = tx
  chain : ∀ block ∈ env.chain, ∀ tx ∈ block.vtx, txOf tx.hash = tx
  coins : ∀ hash coins, env.coinsTip.lookup hash = some coins →
    ∀ (n : Nat) (o : CTxOut), coins.vout[n]? = some o → o.isNull = false → (txOf hash).vout[n]? = some o

theorem CCoins.getElem?_fromTx {nHeight : Int} {n : Nat}
    (h : (CCoins.fromTx tx nHeight).vout[n]? = some o) (ho : o.isNull = false) : tx.vout[n]? = some o := by
  have hin := List.getElem?_eq_some_iff.mp h
  obtain ⟨hlt, hget⟩ := hin
  have hpre := rdropWhile_prefix CTxOut.isNull
    (tx.vout.map fun o => if o.scriptPubKey.isUnspendable then .null else o)
  have hmapped := (List.IsPrefix.getElem hpre hlt).symm.trans hget
  rw [getElem_map] at hmapped
  split_ifs at hmapped
  · rw [← hmapped] at ho
    cases ho
  · rw [← hmapped]
    exact getElem?_eq_getElem _

section lookups

variable (henv : env.Catalogued txOf) (hpool : pool.Catalogued txOf)

include henv hpool

theorem NodeEnv.Catalogued.getTransaction {hashBlock : Uint256}
    (h : (env.withPool pool).getTransaction hash = some (tx, hashBlock)) : txOf hash = tx := by
  unfold NodeEnv.getTransaction at h
  cases hlook : (env.withPool pool).loc.mempool hash with
  | some tx' =>
    rw [hlook] at h
    cases h
    obtain ⟨entry, hentry, rfl⟩ := lookup_eq_some.mp hlook
    exact hpool.named hash entry hentry
  | none =>
    rw [hlook] at h
    dsimp only at h
    split_ifs at h with hindex
    · exact henv.txIndex hash tx hashBlock h
    -- the slow path scans a block of the chain for the hash
    unfold slowLookup at h
    split at h
    next => cases h
    next coins _ =>
        split_ifs at h
        split at h
        next => cases h
        next block hblock =>
            obtain ⟨tx', hfind, heq⟩ := map_eq_some_iff.mp h
            cases heq
            have hhash : tx.hash = hash := by simpa using find?_some hfind
            rw [← hhash]
            exact henv.chain block (mem_of_getElem? hblock) tx (mem_of_find?_eq_some hfind)

theorem NodeEnv.Catalogued.viewOver (h : (pool.viewOver env.coinsTip).getOutputFor p = some o) :
    (txOf p.hash).vout[p.n]? = some o ∧ o.isZerocoinMint = false := by
  unfold getOutputFor at h
  split at h
  next => cases h
  next coins hcoins =>
      split_ifs at h with havail
      have hkind : o.isNull = false ∧ o.isZerocoinMint = false := by grind [CCoins.isAvailable]
      refine ⟨?_, hkind.2⟩
      unfold accessCoins CTxMemPool.viewOver at hcoins
      dsimp only at hcoins
      split at hcoins
      next tx hlook =>
          cases hcoins
          obtain ⟨entry, hentry, rfl⟩ := lookup_eq_some.mp hlook
          rw [hpool.named _ _ hentry]
          exact CCoins.getElem?_fromTx h hkind.1
      next => exact henv.coins _ _ hcoins _ _ h hkind.1

theorem NodeEnv.Catalogued.acceptSpend {txin : CTxIn} (h : (env.withPool pool).acceptSpend tx () txin = .ok ()) :
    ∃ o, (txOf txin.prevout.hash).vout[txin.prevout.n]? = some o ∧ o.isZerocoinMint = true := by
  unfold NodeEnv.acceptSpend at h
  simp only [bind_eq_ok] at h
  obtain ⟨⟨⟩, -, spend, hparse, -⟩ := h
  unfold parsePublicSpend getOutput at hparse
  split at hparse
  next => cases hparse
  next prevOut hout =>
      obtain ⟨⟨-, hmint⟩, -⟩ := require_bind_eq_ok.mp hparse
      split at hout
      next => cases hout
      next txPrev hashBlock hget =>
          split_ifs at hout
          split at hout
          next => cases hout
          next txout htxout =>
              cases hout
              rw [NodeEnv.Catalogued.getTransaction henv hpool hget]
              exact ⟨prevOut, htxout, hmint⟩

/-- **What an accepted transaction spends**: mints if a zerocoin spend, else ordinary outputs. -/
theorem NodeEnv.Catalogued.kind (hacc : AcceptedTx env pool tx pool') : ∀ txin ∈ tx.vin,
      ∃ o, (txOf txin.prevout.hash).vout[txin.prevout.n]? = some o ∧ o.isZerocoinMint = tx.hasZerocoinSpendInputs := by
  intro txin htxin
  have hbranch := hacc.branch
  unfold acceptBranch at hbranch
  cases hzc : tx.hasZerocoinSpendInputs with
  | true =>
    rw [hzc] at hbranch
    obtain ⟨-, hloop⟩ := require_bind_eq_ok.mp hbranch
    obtain ⟨⟨⟩, ⟨⟩, hturn⟩ := foldlM_forall_mem hloop txin htxin
    exact NodeEnv.Catalogued.acceptSpend henv hpool hturn
  | false =>
    rw [hzc, if_neg (by decide)] at hbranch
    simp only [bind_eq_ok, require_eq_ok] at hbranch
    obtain ⟨⟨⟩, -, ⟨⟩, -, hhave⟩ := hbranch
    have hspends : spendsCoins tx = true := by
      unfold spendsCoins
      rw [hacc.not_coinBase, hzc]
      rfl
    obtain ⟨o, ho⟩ := (haveInputs_iff hspends).mp hhave txin htxin
    exact ⟨o, NodeEnv.Catalogued.viewOver henv hpool ho⟩

end lookups

/-! ## §3. One transaction in, one transaction out. -/

namespace CTxMemPool

@[simp] theorem lookup_eraseEntry (pool : CTxMemPool) (hash hash' : Uint256) (entry : CTxMemPoolEntry) :
    (pool.eraseEntry hash entry).lookup hash' = if hash' = hash then none else pool.lookup hash' := by
  unfold lookup eraseEntry
  rw [get_remove]
  split_ifs <;> rfl

@[simp] theorem lookup_addUnchecked (pool : CTxMemPool) (hash hash' : Uint256) (entry : CTxMemPoolEntry) :
    (pool.addUnchecked hash entry).lookup hash' = if hash' = hash then some entry.tx else pool.lookup hash' := by
  unfold lookup addUnchecked
  rw [get_set]
  split_ifs <;> rfl

variable {entry : CTxMemPoolEntry}

/-- The outpoints of a transaction that leaves are those of no indexed one that stays. -/
theorem Catalogued.prevout_apart (h : pool.Catalogued txOf)
    (hentry : pool.mapTx.get hash = some entry) (htx : pool.lookup tx.hash = some tx)
    (hz : tx.hasZerocoinSpendInputs = false) (hne : tx.hash ≠ hash) (hp : p ∈ tx.prevouts) : p ∉ entry.tx.prevouts := by
  intro hp'
  have hkey := h.indexed.key hash entry hentry
  have hlook : pool.lookup entry.tx.hash = some entry.tx := by
    rw [hkey]
    exact lookup_eq_some.mpr ⟨entry, hentry, rfl⟩
  cases hz' : entry.tx.hasZerocoinSpendInputs with
  | false =>
    -- both are indexed, and the index has one entry for the outpoint
    have heq := h.indexed.eq_of_mem_prevouts htx hlook hz hz' hp hp'
    exact hne (by rw [heq, hkey])
  | true =>
    -- one spends a mint, the other an output that is none
    obtain ⟨txin, htxin, rfl⟩ := mem_map.mp hp
    obtain ⟨txin', htxin', heq⟩ := mem_map.mp hp'
    obtain ⟨stay, hstay, rfl⟩ := lookup_eq_some.mp htx
    grind [h.kind]

theorem get_eraseEntry {entry' : CTxMemPoolEntry} : (pool.eraseEntry hash entry).mapTx.get hash' = some entry' ↔
      hash' ≠ hash ∧ pool.mapTx.get hash' = some entry' := by
  unfold eraseEntry
  rw [get_remove]
  split_ifs with h
  · simp [h]
  · simp [h]

/-- **One transaction out**, if its outpoints are those of no indexed one that stays. -/
theorem Indexed.eraseEntry (h : pool.Indexed) (hentry : pool.mapTx.get hash = some entry)
    (hapart : ∀ tx : CTransaction, pool.lookup tx.hash = some tx → tx.hasZerocoinSpendInputs = false → tx.hash ≠ hash →
      ∀ p ∈ tx.prevouts, p ∉ entry.tx.prevouts) : (pool.eraseEntry hash entry).Indexed := by
  refine ⟨?_, ?_, ?_⟩
  · intro hash' entry' hget
    exact h.key hash' entry' (get_eraseEntry.mp hget).2
  · intro p inPoint
    rw [lookup_eraseEntry]
    show (pool.mapNextTx.removeAll entry.tx.prevouts).get p = some inPoint ↔ _
    rw [get_removeAll]
    constructor
    · intro hget
      split_ifs at hget with hp
      obtain ⟨hlook, hz, hn⟩ := (h.index p inPoint).mp hget
      refine ⟨?_, hz, hn⟩
      rw [if_neg]
      · exact hlook
      intro heq
      rw [heq, lookup_eq_some] at hlook
      obtain ⟨entry', hentry', htx⟩ := hlook
      rw [hentry] at hentry'
      cases hentry'
      exact hp (mem_prevouts_iff.mpr ⟨inPoint.n, by rw [htx]; exact hn⟩)
    · rintro ⟨hlook, hz, hn⟩
      split_ifs at hlook with hne
      rw [if_neg]
      · exact (h.index p inPoint).mpr ⟨hlook, hz, hn⟩
      · exact hapart inPoint.ptx hlook hz hne p (mem_prevouts_iff.mpr ⟨inPoint.n, hn⟩)
  · show pool.totalTxSize - entry.nTxSize = (pool.mapTx.remove hash).sumBy _
    have hsum := sumBy_remove (fun entry : CTxMemPoolEntry => (entry.nTxSize : Int)) hentry
    rw [h.total]
    omega

theorem Catalogued.eraseEntry (h : pool.Catalogued txOf)
    (hentry : pool.mapTx.get hash = some entry) : (pool.eraseEntry hash entry).Catalogued txOf := by
  refine ⟨h.indexed.eraseEntry hentry fun tx htx hz hne p hp => h.prevout_apart hentry htx hz hne hp, ?_, ?_⟩
  · intro hash' entry' hget
    exact h.named hash' entry' (get_eraseEntry.mp hget).2
  · intro hash' entry' hget
    exact h.kind hash' entry' (get_eraseEntry.mp hget).2

theorem ne_of_lookup (hnew : pool.mapTx.get hash = none) (hlook : pool.lookup hash' = some tx) : hash' ≠ hash := by
  rintro rfl
  unfold lookup at hlook
  rw [hnew] at hlook
  cases hlook

/-- **One transaction in**: indexed under outpoints that were free, a zerocoin spend under none. -/
theorem Indexed.addUnchecked (h : pool.Indexed) (hnew : pool.mapTx.get entry.tx.hash = none)
    (hfree : entry.tx.hasZerocoinSpendInputs = false → ∀ txin ∈ entry.tx.vin, pool.mapNextTx.get txin.prevout = none)
    (hnodup : entry.tx.hasZerocoinSpendInputs = false → entry.tx.prevouts.Nodup) :
    (pool.addUnchecked entry.tx.hash entry).Indexed := by
  refine ⟨?_, fun p inPoint => ?_, ?_⟩
  · grind [CTxMemPool.addUnchecked, get_set, h.key]
  · rw [lookup_addUnchecked]
    by_cases hset : entry.tx.hasZerocoinSpendInputs = false ∧ p ∈ entry.tx.prevouts
    · -- an outpoint of the new transaction, which no other one has
      obtain ⟨hz, hp⟩ := hset
      obtain ⟨n, hn⟩ := mem_prevouts_iff.mp hp
      have hget : ∀ inPoint : CInPoint, inPoint.ptx = entry.tx → (entry.tx.vin[inPoint.n]?).map CTxIn.prevout = some p →
          (pool.addUnchecked entry.tx.hash entry).mapNextTx.get p = some inPoint := by
        intro inPoint hptx hn
        unfold CTxMemPool.addUnchecked
        rw [hz]
        refine get_setAll_of_mem ?_ (mem_inPoints_iff.mpr ⟨hptx, hn⟩)
        rw [map_fst_inPoints]
        exact hnodup hz
      constructor
      · intro hin
        rw [hget ⟨entry.tx, n⟩ rfl hn] at hin
        cases hin
        exact ⟨if_pos rfl, hz, hn⟩
      · grind [h.index]
    · have hkept : (pool.addUnchecked entry.tx.hash entry).mapNextTx.get p = pool.mapNextTx.get p := by
        grind [CTxMemPool.addUnchecked, get_setAll_of_not_mem, map_fst_inPoints]
      rw [hkept, h.index]
      constructor
      · grind [ne_of_lookup]
      rintro ⟨hlook, hz, hn⟩
      split_ifs at hlook with heq
      · rw [← some.inj hlook] at hz hn
        exact absurd ⟨hz, mem_prevouts_iff.mpr ⟨_, hn⟩⟩ hset
      · exact ⟨hlook, hz, hn⟩
  · show pool.totalTxSize + entry.nTxSize = (pool.mapTx.set entry.tx.hash entry).sumBy _
    rw [sumBy_set (fun entry : CTxMemPoolEntry => (entry.nTxSize : Int)) entry hnew, h.total]
    omega

theorem Catalogued.addUnchecked (h : pool.Catalogued txOf)
    (hindexed : (pool.addUnchecked entry.tx.hash entry).Indexed) (hnamed : txOf entry.tx.hash = entry.tx)
    (hkind : ∀ txin ∈ entry.tx.vin, ∃ o, (txOf txin.prevout.hash).vout[txin.prevout.n]? = some o ∧
      o.isZerocoinMint = entry.tx.hasZerocoinSpendInputs) :
    (pool.addUnchecked entry.tx.hash entry).Catalogued txOf := by
  have hget : ∀ hash' entry', (pool.addUnchecked entry.tx.hash entry).mapTx.get hash' = some entry' →
      (hash' = entry.tx.hash ∧ entry' = entry) ∨ pool.mapTx.get hash' = some entry' := by
    grind [addUnchecked, get_set]
  refine ⟨hindexed, ?_, ?_⟩
  · grind [h.named]
  · grind [h.kind]

theorem Catalogued.empty (txOf : Uint256 → CTransaction) : empty.Catalogued txOf := by
  refine ⟨⟨nofun, fun p inPoint => iff_of_false nofun ?_, rfl⟩, nofun, nofun⟩
  rintro ⟨hlook, -, -⟩
  cases hlook

end CTxMemPool

/-- An ordinary transaction that was checked names no outpoint twice. -/
theorem NodeEnv.nodup_prevouts_of_checked {fZerocoinActive fColdStakingActive : Bool}
    (h : env.checkTransaction tx fZerocoinActive fColdStakingActive = .ok ())
    (hz : tx.hasZerocoinSpendInputs = false) : tx.prevouts.Nodup := by
  unfold checkTransaction at h
  simp only [bind_eq_ok] at h
  obtain ⟨_, -, _, -, _, -, _, -, inputs, hinputs, -⟩ := h
  have hall : (tx.vin.filter fun txin => !txin.isZerocoinSpend) = tx.vin := by
    grind [filter_eq_self, CTransaction.hasZerocoinSpendInputs]
  have hnodup := (foldlM_checkTxIn_nodup hinputs).1
  rw [hall] at hnodup
  exact hnodup

/-- **An acceptance keeps the pool catalogued.** -/
theorem CTxMemPool.Catalogued.accept (henv : env.Catalogued txOf)
    (hpool : pool.Catalogued txOf) (htx : txOf tx.hash = tx) (hacc : AcceptedTx env pool tx pool') :
    pool'.Catalogued txOf := by
  obtain ⟨entry, rfl, rfl⟩ := hacc.result
  obtain ⟨fZerocoinActive, fColdStakingActive, hchecked⟩ := hacc.checked
  exact hpool.addUnchecked (hpool.indexed.addUnchecked hacc.new hacc.free (nodup_prevouts_of_checked hchecked)) htx
    (NodeEnv.Catalogued.kind henv hpool hacc)

/-! ## §4. Every sequence of operations. -/

/-- The operations on the pool. An acceptance sees the node of that moment. -/
inductive PoolOp where
  | accept (env : NodeEnv) (policy : RelayPolicy) (tx : CTransaction)
      (fLimitFree fRejectInsaneFee ignoreFees : Bool)
  | remove (tx : CTransaction) (fRecursive : Bool)
  | removeConflicts (tx : CTransaction)
  | removeForBlock (vtx : List CTransaction)
  | removeCoinbaseSpends (maturity : Int) (pcoins : CCoinsView) (nMemPoolHeight : Int)
  | clear

def CTxMemPool.apply (pool : CTxMemPool) : PoolOp → CTxMemPool
  | .accept env policy tx fLimitFree fRejectInsaneFee ignoreFees =>
    match env.acceptToMemoryPool policy pool tx fLimitFree fRejectInsaneFee ignoreFees with
    | .ok pool' => pool'
    | .error _ => pool
  | .remove tx fRecursive => (pool.remove tx fRecursive).1
  | .removeConflicts tx => (pool.removeConflicts tx).1
  | .removeForBlock vtx => (pool.removeForBlock vtx).1
  | .removeCoinbaseSpends maturity pcoins nMemPoolHeight =>
    pool.removeCoinbaseSpends maturity pcoins nMemPoolHeight
  | .clear => pool.clear

def poolRun (ops : List PoolOp) : CTxMemPool := ops.foldl CTxMemPool.apply CTxMemPool.empty

def PoolOp.Catalogued (txOf : Uint256 → CTransaction) : PoolOp → Prop
  | .accept env _ tx _ _ _ => env.Catalogued txOf ∧ txOf tx.hash = tx
  | _ => True

/-- **Each operation keeps the pool catalogued.** -/
theorem CTxMemPool.Catalogued.apply {op : PoolOp}
    (hpool : pool.Catalogued txOf) (hop : op.Catalogued txOf) : (pool.apply op).Catalogued txOf := by
  have hout : ∀ (pool : CTxMemPool) hash entry, pool.Catalogued txOf → pool.mapTx.get hash = some entry →
      (pool.eraseEntry hash entry).Catalogued txOf := fun pool hash entry h hget => h.eraseEntry hget
  cases op with
  | accept env policy tx fLimitFree fRejectInsaneFee ignoreFees =>
    simp only [CTxMemPool.apply]
    split
    next pool' hacc => exact hpool.accept hop.1 hop.2 (acceptToMemoryPool_eq_ok hacc)
    next => exact hpool
  | remove tx fRecursive => exact remove_invariant hout tx fRecursive hpool
  | removeConflicts tx => exact removeConflicts_invariant hout tx hpool
  | removeForBlock vtx => exact removeForBlock_invariant hout vtx hpool
  | removeCoinbaseSpends maturity pcoins nMemPoolHeight =>
    exact removeCoinbaseSpends_invariant hout maturity pcoins nMemPoolHeight hpool
  | clear => exact .empty txOf

theorem poolRun_catalogued {ops : List PoolOp}
    (h : ∀ op ∈ ops, op.Catalogued txOf) : (poolRun ops).Catalogued txOf := by
  exact foldlRecOn ops _ (.empty txOf) fun _ hpool op hop => hpool.apply (h op hop)

/-- **The index is exact after every sequence of operations**: it maps an outpoint to the pool transaction without
zerocoin spends, and its input, that spends it; no two such transactions spend one outpoint; the size counter is the
sum of the sizes. -/
theorem poolRun_indexed (txOf : Uint256 → CTransaction) (ops : List PoolOp) (h : ∀ op ∈ ops, op.Catalogued txOf) :
    (∀ prevout inPoint, (poolRun ops).mapNextTx.get prevout = some inPoint ↔
      (poolRun ops).lookup inPoint.ptx.hash = some inPoint.ptx ∧ inPoint.ptx.hasZerocoinSpendInputs = false ∧
        (inPoint.ptx.vin[inPoint.n]?).map CTxIn.prevout = some prevout) ∧
    (∀ hash hash' tx tx' prevout, (poolRun ops).lookup hash = some tx → (poolRun ops).lookup hash' = some tx' →
      tx.hasZerocoinSpendInputs = false → tx'.hasZerocoinSpendInputs = false →
      prevout ∈ tx.prevouts → prevout ∈ tx'.prevouts → hash = hash') ∧
    (poolRun ops).totalTxSize = (poolRun ops).mapTx.sumBy fun entry => (entry.nTxSize : Int) := by
  have hpool := (poolRun_catalogued h).indexed
  refine ⟨hpool.index, ?_, hpool.total⟩
  intro hash hash' tx tx' p hlook hlook' hz hz' hp hp'
  obtain ⟨entry, hentry, rfl⟩ := lookup_eq_some.mp hlook
  obtain ⟨entry', hentry', rfl⟩ := lookup_eq_some.mp hlook'
  have hkey := hpool.key hash entry hentry
  have hkey' := hpool.key hash' entry' hentry'
  rw [← hkey] at hlook
  rw [← hkey'] at hlook'
  rw [← hkey, ← hkey', hpool.eq_of_mem_prevouts hlook hlook' hz hz' hp hp']

/-- A policy with the default settings under which every script is standard. -/
def plainPolicy : RelayPolicy where
  txOutSize := fun _ => 34
  areInputsStandard := fun _ _ => true
  standardScripts := fun _ _ => true
  prioritised := fun _ => false
  allowFree := fun _ _ => true
  rateLimited := false
  now := 1602000000

def poolNode : NodeEnv :=
  { entryNode paymentEntry with mapBlockIndex := fun _ => some 399 }

def poolTx (hash : Uint256) (prevout : COutPoint) (nValue : Int) : CTransaction :=
  { hash := hash, vin := [{ prevout := prevout, scriptSig := [] }], vout := [⟨nValue, payTo 9⟩] }

def poolPayment : CTransaction := poolTx 50 ⟨7, 1⟩ (5 * COIN)

/-- The payment, one that spends it, and one that spends the same coin. -/
def poolTxOf (hash : Uint256) : CTransaction :=
  if hash = 50 then poolPayment
  else if hash = 51 then poolTx 51 ⟨50, 0⟩ (4 * COIN)
  else if hash = 52 then poolTx 52 ⟨7, 1⟩ (5 * COIN)
  else { hash := hash, vin := [], vout := paymentEntry.vout }

theorem poolNode_catalogued : poolNode.Catalogued poolTxOf where
  txIndex := by
    intro hash tx hashBlock h
    cases h
  chain := by
    intro block hblock tx htx
    rw [eq_of_mem_replicate hblock] at htx
    cases htx
  coins := by
    intro hash coins h n o ho _
    obtain ⟨rfl, rfl⟩ := oneEntryView_lookup h
    exact ho

theorem poolPayment_catalogued :
    ∀ op ∈ [PoolOp.accept poolNode plainPolicy poolPayment true false false], op.Catalogued poolTxOf :=
  forall_mem_singleton.mpr ⟨poolNode_catalogued, rfl⟩

def acceptOp (hash : Uint256) : PoolOp := .accept poolNode plainPolicy (poolTxOf hash) true false false

/-- The rival of the payment is refused, until the payment is removed with its child. -/
def rivalOps : List PoolOp := [acceptOp 50, acceptOp 51, acceptOp 52, .remove (poolTxOf 50) true, acceptOp 52]

theorem payment_indexed :
    (poolRun (rivalOps.take 3)).lookup 51 = some (poolTxOf 51) ∧ (poolRun (rivalOps.take 3)).lookup 52 = none ∧
      (poolRun rivalOps).lookup 51 = none ∧ (poolRun rivalOps).mapNextTx.get ⟨7, 1⟩ = some ⟨poolTxOf 52, 0⟩ := by
  have hops : ∀ op ∈ rivalOps, op.Catalogued poolTxOf := by
    have haccept : ∀ hash, (poolTxOf hash).hash = hash → (acceptOp hash).Catalogued poolTxOf := fun hash h =>
      ⟨poolNode_catalogued, congrArg poolTxOf h⟩
    simp only [rivalOps, forall_mem_cons]
    exact ⟨haccept 50 rfl, haccept 51 rfl, haccept 52 rfl, trivial, haccept 52 rfl, forall_mem_nil _⟩
  have hlook : (poolRun rivalOps).lookup 52 = some (poolTxOf 52) := by decide +kernel
  refine ⟨by decide +kernel, by decide +kernel, by decide +kernel, ?_⟩
  exact ((poolRun_indexed poolTxOf _ hops).1 ⟨7, 1⟩ ⟨poolTxOf 52, 0⟩).mpr ⟨hlook, rfl, rfl⟩

end PwrbCore
