/-
  Mempool.Pool — THE MEMORY POOL (`CTxMemPool` of `txmempool.h`, `txmempool.cpp`).

  `mapTx` holds the transactions by hash, `mapNextTx` says which input of which of them
  spends an outpoint.  `remove` works through a queue of hashes; each turn takes a hash off
  the queue, and a transaction that is taken out of the pool puts at most one child for each
  of its outputs on it, so the loop ends.
-/
import PwrbCore.Coins.View
import PwrbCore.Lib.StdMap

namespace PwrbCore

/-! ## §1. The pool. -/

/-- `MEMPOOL_HEIGHT`: the height of a coin that is only in the pool. -/
def MEMPOOL_HEIGHT : Int := 0x7FFFFFFF

structure CTxMemPoolEntry where
  tx : CTransaction
  nFee : Int
  nTxSize : Nat
  nTime : Int
  nHeight : Int
  deriving DecidableEq, Repr

/-- `CInPoint`: a transaction and the number of one of its inputs. -/
structure CInPoint where
  ptx : CTransaction
  n : Nat
  deriving DecidableEq, Repr

structure CTxMemPool where
  mapTx : StdMap Uint256 CTxMemPoolEntry
  mapNextTx : StdMap COutPoint CInPoint
  totalTxSize : Int
  deriving DecidableEq

variable {P : CTxMemPool → Prop}

namespace CTxMemPool

def empty : CTxMemPool := ⟨∅, ∅, 0⟩

section

variable (pool : CTxMemPool)

def lookup (hash : Uint256) : Option CTransaction :=
  (pool.mapTx.get hash).map CTxMemPoolEntry.tx

/-! ## §2. Adding and removing. -/

def inPoints (tx : CTransaction) : List (COutPoint × CInPoint) :=
  tx.vin.zipIdx.map fun (txin, i) => (txin.prevout, ⟨tx, i⟩)

/-- `addUnchecked`.  The inputs of a zerocoin spend are not indexed. -/
def addUnchecked (hash : Uint256) (entry : CTxMemPoolEntry) : CTxMemPool where
  mapTx := pool.mapTx.set hash entry
  mapNextTx :=
    if !entry.tx.hasZerocoinSpendInputs then pool.mapNextTx.setAll (inPoints entry.tx)
    else pool.mapNextTx
  totalTxSize := pool.totalTxSize + entry.nTxSize

/-- The pool transactions that spend one of the first `nOut` outputs of `hash`, in their order. -/
def children (hash : Uint256) (nOut : Nat) : List Uint256 :=
  (List.range nOut).filterMap fun i => (pool.mapNextTx.get ⟨hash, i⟩).map fun inPoint => inPoint.ptx.hash

/-- One transaction leaves the pool. The index is cleared by outpoint for all spends. -/
def eraseEntry (hash : Uint256) (entry : CTxMemPoolEntry) : CTxMemPool where
  mapTx := pool.mapTx.remove hash
  mapNextTx := pool.mapNextTx.removeAll entry.tx.prevouts
  totalTxSize := pool.totalTxSize - entry.nTxSize

/-- What the removal loop still may do: a turn for each transaction and each output. -/
def weight : Nat := pool.mapTx.sumBy fun entry => entry.tx.vout.length + 1

theorem length_children_le (hash : Uint256) (nOut : Nat) : (pool.children hash nOut).length ≤ nOut := by
  exact (List.length_filterMap_le _ _).trans (le_of_eq List.length_range)

theorem weight_eraseEntry {pool : CTxMemPool} {hash : Uint256} {entry : CTxMemPoolEntry}
    (h : pool.mapTx.get hash = some entry) :
    entry.tx.vout.length + 1 + (pool.eraseEntry hash entry).weight = pool.weight :=
  StdMap.sumBy_remove (fun entry : CTxMemPoolEntry => entry.tx.vout.length + 1) h

/-- The loop of `remove` over the queue `txToRemove`. -/
def removeLoop (fRecursive : Bool) (txToRemove : List Uint256) (pool : CTxMemPool)
    (removed : List CTransaction) : CTxMemPool × List CTransaction :=
  match txToRemove with
  | [] => (pool, removed)
  | hash :: rest =>
    match _hget : pool.mapTx.get hash with
    | none => removeLoop fRecursive rest pool removed
    | some entry =>
      removeLoop fRecursive
        (rest ++ if fRecursive then pool.children hash entry.tx.vout.length else [])
        (pool.eraseEntry hash entry) (removed ++ [entry.tx])
termination_by txToRemove.length + pool.weight
decreasing_by
  · simp only [List.length_cons]
    omega
  · have hweight := weight_eraseEntry _hget
    have hchildren := pool.length_children_le hash entry.tx.vout.length
    simp only [List.length_append, List.length_cons]
    split_ifs
    · omega
    · simp only [List.length_nil]
      omega

/-- `remove`, with what was removed. Children of a transaction not in the pool go too. -/
def remove (origTx : CTransaction) (fRecursive : Bool) : CTxMemPool × List CTransaction :=
  pool.removeLoop fRecursive
    (origTx.hash ::
      if fRecursive && (pool.mapTx.get origTx.hash).isNone then
        pool.children origTx.hash origTx.vout.length
      else []) []

def removeConflict (tx : CTransaction) (acc : CTxMemPool × List CTransaction) (txin : CTxIn) :
    CTxMemPool × List CTransaction :=
  match acc.1.mapNextTx.get txin.prevout with
  | none => acc
  | some inPoint =>
    if inPoint.ptx.hash ≠ tx.hash then
      let (pool, removed) := acc.1.remove inPoint.ptx true
      (pool, acc.2 ++ removed)
    else acc

def removeConflicts (tx : CTransaction) : CTxMemPool × List CTransaction :=
  tx.vin.foldl (removeConflict tx) (pool, [])

def removeForTx (acc : CTxMemPool × List CTransaction) (tx : CTransaction) : CTxMemPool × List CTransaction :=
  let (pool, conflicts) := (acc.1.remove tx false).1.removeConflicts tx
  (pool, acc.2 ++ conflicts)

/-- `removeForBlock`, without the fee estimator. -/
def removeForBlock (vtx : List CTransaction) : CTxMemPool × List CTransaction :=
  vtx.foldl removeForTx (pool, [])

def clear (_pool : CTxMemPool) : CTxMemPool := empty

/-! ## §3. Coins. -/

/-- The test of `removeCoinbaseSpends`: an input whose coins are missing, or generated and no longer mature. -/
def spendsImmature (maturity : Int) (pcoins : CCoinsView) (nMemPoolHeight : Int) (tx : CTransaction) : Bool :=
  tx.vin.any fun txin =>
    (pool.mapTx.get txin.prevout.hash).isNone &&
      match pcoins.accessCoins txin.prevout.hash with
      | none => true
      | some coins =>
        -- the difference is taken in `unsigned int`
        (coins.fCoinBase || coins.fCoinStake)
          && decide ((nMemPoolHeight - coins.nHeight) % 2 ^ 32 < maturity)

def removeCoinbaseSpends (maturity : Int) (pcoins : CCoinsView) (nMemPoolHeight : Int) : CTxMemPool :=
  ((pool.mapTx.entries.map fun e => e.2.tx).filter (pool.spendsImmature maturity pcoins nMemPoolHeight)).foldl
      (fun pool tx => (pool.remove tx true).1) pool

/-- `CCoinsViewMemPool`: the coins of the pool transactions over those of the tip. -/
def viewOver (base : CCoinsView) : CCoinsView where
  coins := fun txid =>
    match pool.lookup txid with
    | some tx => some (CCoins.fromTx tx MEMPOOL_HEIGHT)
    | none => base.lookup txid
  bestBlock := base.bestBlock

end

/-! ## §4. Induction over the removal loop. -/

/-- **Whatever survives taking one transaction out survives `removeLoop`.** -/
theorem removeLoop_invariant
    (hstep : ∀ pool hash entry, P pool → pool.mapTx.get hash = some entry → P (pool.eraseEntry hash entry))
    (fRecursive : Bool) (txToRemove : List Uint256) {pool : CTxMemPool} (removed : List CTransaction)
    (h : P pool) : P (removeLoop fRecursive txToRemove pool removed).1 := by
  fun_induction removeLoop fRecursive txToRemove pool removed with
  | case1 pool removed => exact h
  | case2 pool removed hash rest hget ih => exact ih h
  | case3 pool removed hash rest entry hget ih => exact ih (hstep _ hash entry h hget)

variable (hstep : ∀ pool hash entry, P pool → pool.mapTx.get hash = some entry → P (pool.eraseEntry hash entry))
  {pool : CTxMemPool}

include hstep

theorem remove_invariant (tx : CTransaction) (fRecursive : Bool) (h : P pool) : P (pool.remove tx fRecursive).1 :=
  removeLoop_invariant hstep fRecursive _ _ h

theorem removeConflicts_invariant (tx : CTransaction) (h : P pool) : P (pool.removeConflicts tx).1 := by
  refine List.foldlRecOn (motive := fun acc : CTxMemPool × List CTransaction => P acc.1) tx.vin _ h
    fun acc hacc txin _ => ?_
  unfold removeConflict
  cases acc.1.mapNextTx.get txin.prevout with
  | none => exact hacc
  | some inPoint =>
    dsimp only
    split_ifs
    · exact remove_invariant hstep inPoint.ptx true hacc
    · exact hacc

theorem removeForBlock_invariant (vtx : List CTransaction) (h : P pool) : P (pool.removeForBlock vtx).1 :=
  List.foldlRecOn (motive := fun acc : CTxMemPool × List CTransaction => P acc.1) vtx _ h fun _ hacc tx _ =>
    removeConflicts_invariant hstep tx (remove_invariant hstep tx false hacc)

theorem removeCoinbaseSpends_invariant (maturity : Int) (pcoins : CCoinsView) (nMemPoolHeight : Int)
    (h : P pool) : P (pool.removeCoinbaseSpends maturity pcoins nMemPoolHeight) :=
  List.foldlRecOn _ _ h fun _ hpool tx _ => remove_invariant hstep tx true hpool

end CTxMemPool

end PwrbCore
