/-
  Mempool.Removal — WHAT REMOVING LEAVES SUPPORTED.

  `Supported Ok queue` says that every pool transaction outside the queue has each of its
  inputs either among the outpoints `Ok` or among the coins of the pool.  A recursive removal
  works its queue off and so ends with everything supported (`removeLoop_supported`); taking
  a block's transactions out moves their coins from the pool to `Ok`
  (`removeForBlock_supported`).  What goes is exactly what descends from the
  transaction (`recursive_removal_exact`).
-/
import PwrbCore.Coins.Unspent
import PwrbCore.Mempool.Index

namespace PwrbCore

open List CTxMemPool

variable {p : COutPoint} {txin : CTxIn} {nOut : Nat} {tx : CTransaction} {fRecursive : Bool} {pool' : CTxMemPool}
  {acc : CTxMemPool × List CTransaction}

namespace CTxMemPool

/-! ## §1. Support. -/

/-- The index is exact, and no transaction is a zerocoin spend. -/
structure SpendFree (pool : CTxMemPool) : Prop where
  indexed : pool.Indexed
  noSpends : ∀ hash entry, pool.mapTx.get hash = some entry → entry.tx.hasZerocoinSpendInputs = false

structure Plain (txOf : Uint256 → CTransaction) (pool : CTxMemPool) : Prop where
  catalogued : pool.Catalogued txOf
  noSpends : ∀ hash entry, pool.mapTx.get hash = some entry → entry.tx.hasZerocoinSpendInputs = false

def HasCoin (pool : CTxMemPool) (p : COutPoint) : Prop :=
  ∃ tx o, pool.lookup p.hash = some tx ∧ tx.coinAt p.n = some o

/-- Each input of each transaction outside the queue is fine or a coin of the pool. -/
def Supported (Ok : COutPoint → Prop) (queue : List Uint256) (pool : CTxMemPool) : Prop :=
  ∀ hash entry, pool.mapTx.get hash = some entry →
    hash ∈ queue ∨ ∀ txin ∈ entry.tx.vin, Ok txin.prevout ∨ pool.HasCoin txin.prevout

variable {txOf : Uint256 → CTransaction} {pool : CTxMemPool} {Ok Ok' : COutPoint → Prop}
  {queue : List Uint256} {hash : Uint256} {entry : CTxMemPoolEntry}

theorem Supported.mono (h : pool.Supported Ok queue) (hok : ∀ p, Ok p → Ok' p) : pool.Supported Ok' queue := by
  intro hash entry hget
  rcases h hash entry hget with hq | hin
  · exact .inl hq
  · exact .inr fun txin htxin => (hin txin htxin).imp_left (hok _)

theorem Plain.eraseEntry (h : pool.Plain txOf) (hget : pool.mapTx.get hash = some entry) :
    (pool.eraseEntry hash entry).Plain txOf :=
  ⟨h.catalogued.eraseEntry hget, fun hash' entry' hget' => h.noSpends hash' entry' (get_eraseEntry.mp hget').2⟩

theorem Plain.spendFree (h : pool.Plain txOf) : pool.SpendFree := ⟨h.catalogued.indexed, h.noSpends⟩

theorem SpendFree.index (h : pool.SpendFree) (hget : pool.mapTx.get hash = some entry)
    (hp : p ∈ entry.tx.prevouts) : ∃ n, pool.mapNextTx.get p = some ⟨entry.tx, n⟩ ∧ entry.tx.hash = hash := by
  have hkey := h.indexed.key hash entry hget
  obtain ⟨n, hn⟩ := mem_prevouts_iff.mp hp
  refine ⟨n, ?_, hkey⟩
  rw [h.indexed.index]
  refine ⟨?_, h.noSpends hash entry hget, hn⟩
  rw [hkey]
  exact lookup_eq_some.mpr ⟨entry, hget, rfl⟩

/-- A spender of one of the first `nOut` outputs is among the children. -/
theorem SpendFree.mem_children (h : pool.SpendFree) (hget : pool.mapTx.get hash = some entry)
    (htxin : txin ∈ entry.tx.vin) (hn : txin.prevout.n < nOut) : hash ∈ pool.children txin.prevout.hash nOut := by
  obtain ⟨n, hindex, hkey⟩ := h.index hget (mem_map_of_mem htxin)
  unfold children
  rw [mem_filterMap]
  refine ⟨txin.prevout.n, mem_range.mpr hn, ?_⟩
  show (pool.mapNextTx.get txin.prevout).map _ = _
  rw [hindex, Option.map_some, hkey]

/-- The children are pool transactions that spend such an output. -/
theorem SpendFree.spends_of_mem_children (h : pool.SpendFree) {hash' : Uint256}
    (hchild : hash' ∈ pool.children hash nOut) :
    ∃ entry, pool.mapTx.get hash' = some entry ∧ ∃ txin ∈ entry.tx.vin, txin.prevout.hash = hash ∧
        txin.prevout.n < nOut := by
  obtain ⟨i, hi, hnext⟩ := mem_filterMap.mp hchild
  obtain ⟨inPoint, hget, rfl⟩ := Option.map_eq_some_iff.mp hnext
  obtain ⟨hlook, -, hn⟩ := (h.indexed.index _ _).mp hget
  obtain ⟨entry, hentry, htx⟩ := lookup_eq_some.mp hlook
  obtain ⟨txin, htxin, hp⟩ := Option.map_eq_some_iff.mp hn
  refine ⟨entry, hentry, txin, ?_, ?_⟩
  · rw [htx]
    exact mem_of_getElem? htxin
  · rw [hp]
    exact ⟨rfl, mem_range.mp hi⟩

theorem SpendFree.eraseEntry (h : pool.SpendFree) (hget : pool.mapTx.get hash = some entry) :
    (pool.eraseEntry hash entry).SpendFree := by
  refine ⟨h.indexed.eraseEntry hget fun tx htx hz hne p hp hp' => ?_, fun hash' entry' hget' =>
    h.noSpends hash' entry' (get_eraseEntry.mp hget').2⟩
  have hkey := h.indexed.key hash entry hget
  have hown : pool.lookup entry.tx.hash = some entry.tx := lookup_eq_some.mpr ⟨entry, hkey ▸ hget, rfl⟩
  rw [h.indexed.eq_of_mem_prevouts htx hown hz (h.noSpends hash entry hget) hp hp'] at hne
  exact hne hkey

theorem lt_of_coinAt {n : Nat} {o : CTxOut} (h : tx.coinAt n = some o) : n < tx.vout.length := by
  unfold CTransaction.coinAt at h
  rw [Option.filter_eq_some_iff] at h
  exact (List.getElem?_eq_some_iff.mp h.1).1

/-! ## §2. The removal loop. -/

theorem removeLoop_sub {removed : List CTransaction}
    (h : (removeLoop fRecursive queue pool removed).1.mapTx.get hash = some entry) :
    pool.mapTx.get hash = some entry := by
  have hinv := removeLoop_invariant
    (P := fun q : CTxMemPool => ∀ hash entry, q.mapTx.get hash = some entry → pool.mapTx.get hash = some entry)
    (fun q h0 e0 hq _ hash entry hget => hq hash entry (get_eraseEntry.mp hget).2)
    fRecursive queue removed (fun _ _ hget => hget)
  exact hinv hash entry h

theorem removeLoop_removes (removed : List CTransaction) (h : hash ∈ queue) :
    (removeLoop fRecursive queue pool removed).1.mapTx.get hash = none := by
  have hgone : ∀ {q : CTxMemPool} {qs : List Uint256} {rs : List CTransaction}, q.mapTx.get hash = none →
      (removeLoop fRecursive qs q rs).1.mapTx.get hash = none := by
    intro q qs rs hnone
    refine Option.eq_none_iff_forall_ne_some.mpr fun entry hget => ?_
    rw [removeLoop_sub hget] at hnone
    cases hnone
  fun_induction removeLoop fRecursive queue pool removed with
  | case1 pool removed => cases h
  | case2 pool removed hash' rest hget ih => grind
  | case3 pool removed hash' rest entry hget ih =>
    grind [eraseEntry, StdMap.get_remove]

/-- **What stays keeps its parents**: none leaves while one that stays spends an output of it. -/
theorem SpendFree.removeLoop_parents (hpool : pool.SpendFree) (removed : List CTransaction)
    (h : (removeLoop true queue pool removed).1.mapTx.get hash = some entry) (htxin : txin ∈ entry.tx.vin)
    {parent : CTxMemPoolEntry} (hparent : pool.mapTx.get txin.prevout.hash = some parent)
    (hn : txin.prevout.n < parent.tx.vout.length) :
    (removeLoop true queue pool removed).1.mapTx.get txin.prevout.hash = some parent := by
  fun_induction removeLoop true queue pool removed with
  | case1 pool removed => exact hparent
  | case2 pool removed hash' rest hget ih => exact ih hpool h hparent
  | case3 pool removed hash' rest entry' hget ih =>
    apply ih (hpool.eraseEntry hget) h
    refine get_eraseEntry.mpr ⟨fun heq => ?_, hparent⟩
    -- a child of the transaction that leaves is queued
    have hchild := hpool.mem_children (get_eraseEntry.mp (removeLoop_sub h)).2 htxin hn
    rw [heq, hget] at hparent
    cases hparent
    rw [heq] at hchild
    cases (removeLoop_removes _ (mem_append_right rest hchild)).symm.trans h

/-- **A recursive removal ends with everything supported.** -/
theorem removeLoop_supported (hpool : pool.Plain txOf) (removed : List CTransaction)
    (h : pool.Supported Ok queue) : (removeLoop true queue pool removed).1.Supported Ok [] := by
  intro hash entry hget
  refine .inr fun txin htxin => ?_
  rcases h hash entry (removeLoop_sub hget) with hq | hin
  · rw [removeLoop_removes removed hq] at hget
    cases hget
  rcases hin txin htxin with hok | ⟨tx, o, hlook, ho⟩
  · exact .inl hok
  · obtain ⟨parent, hparent, rfl⟩ := lookup_eq_some.mp hlook
    have hstays := hpool.spendFree.removeLoop_parents removed hget htxin hparent (lt_of_coinAt ho)
    exact .inr ⟨parent.tx, o, lookup_eq_some.mpr ⟨parent, hstays, rfl⟩, ho⟩

def SpendsOutput (child parent : CTransaction) : Prop :=
  ∃ txin ∈ child.vin, txin.prevout.hash = parent.hash ∧ txin.prevout.n < parent.vout.length

/-- **What is not reached stays**: the queue grows only by spenders of what was queued. -/
theorem SpendFree.removeLoop_spares (hpool : pool.SpendFree) (removed : List CTransaction) {S : Uint256 → Prop}
    (hqueue : ∀ h ∈ queue, S h) (hclosed : ∀ hash entry hash' entry', S hash → pool.mapTx.get hash = some entry →
      pool.mapTx.get hash' = some entry' → SpendsOutput entry'.tx entry.tx → S hash')
    (hget : pool.mapTx.get hash = some entry) (hout : ¬ S hash) :
    (removeLoop true queue pool removed).1.mapTx.get hash = some entry := by
  fun_induction removeLoop true queue pool removed with
  | case1 pool removed => exact hget
  | case2 pool removed hash' rest _ ih => exact ih hpool (fun h hh => hqueue h (mem_cons_of_mem _ hh)) hclosed hget
  | case3 pool removed hash' rest entry' hget' ih =>
    have hS := hqueue hash' mem_cons_self
    apply ih (hpool.eraseEntry hget')
    · intro h hh
      rcases mem_append.mp hh with hrest | hchild
      · exact hqueue h (mem_cons_of_mem _ hrest)
      · obtain ⟨child, hchild, txin, htxin, hhash, hn⟩ := hpool.spends_of_mem_children hchild
        exact hclosed hash' entry' h child hS hget' hchild
          ⟨txin, htxin, hhash.trans (hpool.indexed.key _ _ hget').symm, hn⟩
    · intro _ _ _ _ hh h1 h2
      exact hclosed _ _ _ _ hh (get_eraseEntry.mp h1).2 (get_eraseEntry.mp h2).2
    · exact get_eraseEntry.mpr ⟨fun heq => hout (heq ▸ hS), hget⟩

/-! ## §3. `remove`. -/

/-- The outpoint is a spendable output of `tx`. -/
def OwnCoin (tx : CTransaction) (p : COutPoint) : Prop := p.hash = tx.hash ∧ ∃ o, tx.coinAt p.n = some o

theorem remove_sub (h : (pool.remove tx fRecursive).1.mapTx.get hash = some entry) : pool.mapTx.get hash = some entry :=
  removeLoop_sub h

theorem remove_removes (pool : CTxMemPool) (tx : CTransaction) (fRecursive : Bool) :
    (pool.remove tx fRecursive).1.mapTx.get tx.hash = none :=
  removeLoop_removes [] mem_cons_self

theorem Plain.remove (h : pool.Plain txOf) (tx : CTransaction) (fRecursive : Bool) :
    (pool.remove tx fRecursive).1.Plain txOf :=
  remove_invariant (fun _ _ _ hpool hget => hpool.eraseEntry hget) tx fRecursive h

/-- A pool transaction spends an output of `tx`, directly or through others. -/
inductive Descends (pool : CTxMemPool) (tx : CTransaction) : Uint256 → Prop where
  | child {hash : Uint256} {entry : CTxMemPoolEntry} (hget : pool.mapTx.get hash = some entry)
      (hspends : SpendsOutput entry.tx tx) : Descends pool tx hash
  | step {hash hash' : Uint256} {entry entry' : CTxMemPoolEntry} (hdesc : Descends pool tx hash)
      (hget : pool.mapTx.get hash = some entry) (hget' : pool.mapTx.get hash' = some entry')
      (hspends : SpendsOutput entry'.tx entry.tx) : Descends pool tx hash'

theorem SpendFree.descends_gone (hpool : pool.SpendFree)
    (htx : ∀ entry, pool.mapTx.get tx.hash = some entry → entry.tx = tx)
    (hdesc : pool.Descends tx hash) : (pool.remove tx true).1.mapTx.get hash ≠ some entry := by
  induction hdesc generalizing entry with
  | child hget hspends =>
    intro h
    cases hget.symm.trans (remove_sub h)
    obtain ⟨txin, htxin, hhash, hn⟩ := hspends
    cases hin : pool.mapTx.get tx.hash with
    | some own =>
      rw [← hhash] at hin
      have hstays := hpool.removeLoop_parents [] h htxin hin (by rw [htx own (hhash ▸ hin)]; exact hn)
      rw [hhash] at hstays
      exact absurd ((remove_removes pool tx true).symm.trans hstays) nofun
    | none =>
      -- its children are queued from the start
      have hchild := hpool.mem_children hget htxin hn
      unfold CTxMemPool.remove at h
      rw [hin, ← hhash] at h
      exact absurd ((removeLoop_removes [] (mem_cons_of_mem _ hchild)).symm.trans h) nofun
  | step _ hget hget' hspends ih =>
    intro h
    cases hget'.symm.trans (remove_sub h)
    obtain ⟨txin, htxin, hhash, hn⟩ := hspends
    rw [hpool.indexed.key _ _ hget] at hhash
    rw [← hhash] at hget ih
    exact ih (hpool.removeLoop_parents [] h htxin hget hn)

/-- **Recursive removal is exact.** In a pool without zerocoin spends whose index is exact, `remove` takes out the
transaction and what descends from it, and leaves the rest as it was, in pool and index; also for a transaction that
is not in the pool. -/
theorem recursive_removal_exact {pool : CTxMemPool} {tx : CTransaction} (hpool : pool.SpendFree)
    (htx : ∀ entry, pool.mapTx.get tx.hash = some entry → entry.tx = tx) :
    (pool.remove tx true).1.SpendFree ∧ ∀ hash entry, (pool.remove tx true).1.mapTx.get hash = some entry ↔
      pool.mapTx.get hash = some entry ∧ hash ≠ tx.hash ∧ ¬ pool.Descends tx hash := by
  refine ⟨remove_invariant (fun _ _ _ h hget => h.eraseEntry hget) tx true hpool, fun hash entry => ⟨fun h => ?_, ?_⟩⟩
  · refine ⟨remove_sub h, ?_, fun hdesc => hpool.descends_gone htx hdesc h⟩
    rintro rfl
    rw [remove_removes] at h
    cases h
  rintro ⟨hget, hne, hnot⟩
  refine hpool.removeLoop_spares [] (S := fun h => h = tx.hash ∨ pool.Descends tx h) ?_ ?_ hget (not_or.mpr ⟨hne, hnot⟩)
  · intro h hh
    rcases mem_cons.mp hh with rfl | hh
    · exact .inl rfl
    split_ifs at hh
    · obtain ⟨child, hchild, hspends⟩ := hpool.spends_of_mem_children hh
      exact .inr (.child hchild hspends)
    · cases hh
  · rintro h parent h' child (rfl | hdesc) hparent hchild hspends
    · rw [htx parent hparent] at hspends
      exact .inr (.child hchild hspends)
    · exact .inr (.step hdesc hparent hchild hspends)

/-- The payment goes with the transaction it spends from, which is not in the pool. -/
theorem payment_removed : ((poolRun [.accept poolNode plainPolicy poolPayment true false false]).remove
    (poolTxOf 7) true).1.mapTx.get 50 = none := by
  have hcat := poolRun_catalogued poolPayment_catalogued
  have hfree : SpendFree _ := ⟨hcat.indexed, fun hash entry hget => by
    rw [← hcat.named hash entry hget]
    unfold poolTxOf
    split_ifs <;> rfl⟩
  refine Option.eq_none_iff_forall_ne_some.mpr fun entry h => ?_
  obtain ⟨hget, -, hnot⟩ := ((recursive_removal_exact hfree fun entry h => (hcat.named _ _ h).symm).2 50 entry).mp h
  refine hnot (.child hget ⟨⟨⟨7, 1⟩, [], 4294967295⟩, ?_, rfl, by decide⟩)
  rw [← hcat.named _ _ hget]
  decide

/-- **Removing a transaction with its descendants**, in the pool or not. -/
theorem Plain.remove_supported (hpool : pool.Plain txOf) (htx : txOf tx.hash = tx)
    (h : pool.Supported (fun p => Ok p ∨ OwnCoin tx p) []) : (pool.remove tx true).1.Supported Ok [] := by
  apply removeLoop_supported hpool
  intro hash entry hget
  by_cases hqueue : pool.mapTx.get tx.hash = none ∧ hash ∈ pool.children tx.hash tx.vout.length
  · exact .inl (by simp [hqueue])
  refine .inr fun txin htxin => ?_
  rcases (h hash entry hget).resolve_left (by simp) txin htxin with (hok | ⟨hhash, o, ho⟩) | hcoin
  · exact .inl hok
  · cases hin : pool.mapTx.get tx.hash with
    | some entry' =>
      -- the coins of `tx` are coins of the pool
      refine .inr ⟨tx, o, ?_, ho⟩
      grind [lookup_eq_some, hpool.catalogued.named]
    | none => grind [hpool.spendFree.mem_children, lt_of_coinAt]
  · exact .inr hcoin

theorem remove_false (pool : CTxMemPool) (tx : CTransaction) :
    (pool.remove tx false).1 =
      match pool.mapTx.get tx.hash with
      | none => pool
      | some entry => pool.eraseEntry tx.hash entry := by
  unfold remove
  rw [Bool.false_and, if_neg (by decide), removeLoop]
  split
  next hget => rw [hget, removeLoop]
  next entry hget =>
      rw [hget, if_neg (by decide), append_nil, removeLoop]

/-- **Taking one transaction out alone** leaves its coins to be found elsewhere. -/
theorem Plain.remove_false_supported (hpool : pool.Plain txOf) (htx : txOf tx.hash = tx)
    (h : pool.Supported Ok []) : (pool.remove tx false).1.Supported (fun p => Ok p ∨ OwnCoin tx p) [] := by
  rw [remove_false]
  split
  next => exact h.mono fun p hok => .inl hok
  next entry hentry =>
      intro hash' entry' hget'
      obtain ⟨-, hold⟩ := get_eraseEntry.mp hget'
      refine .inr fun txin htxin => ?_
      rcases (h hash' entry' hold).resolve_left (by simp) txin htxin with hok | ⟨tx', o, hlook, ho⟩
      · exact .inl (.inl hok)
      by_cases hhash : txin.prevout.hash = tx.hash
      · -- the coin was one of `tx`
        refine .inl (.inr ⟨hhash, o, ?_⟩)
        rw [hhash, lookup_eq_some] at hlook
        obtain ⟨entry'', hentry'', rfl⟩ := hlook
        rw [← hpool.catalogued.named _ _ hentry'', htx] at ho
        exact ho
      · refine .inr ⟨tx', o, ?_, ho⟩
        rw [lookup_eraseEntry, if_neg hhash]
        exact hlook

/-! ## §4. Conflicts and blocks. -/

def Clear (tx : CTransaction) (p : COutPoint) (pool : CTxMemPool) : Prop :=
  ∀ hash entry, pool.mapTx.get hash = some entry → hash ≠ tx.hash → p ∉ entry.tx.prevouts

/-- What a removal by `tx` does: nothing enters, everything stays supported. -/
structure Shrinks (txOf : Uint256 → CTransaction) (pool pool' : CTxMemPool) : Prop where
  plain : pool'.Plain txOf
  sub : ∀ hash entry, pool'.mapTx.get hash = some entry → pool.mapTx.get hash = some entry
  supported : ∀ Ok, pool.Supported Ok [] → pool'.Supported Ok []

theorem Shrinks.refl (h : pool.Plain txOf) : Shrinks txOf pool pool := ⟨h, fun _ _ hget => hget, fun _ hs => hs⟩

theorem Shrinks.trans {pool'' : CTxMemPool} (h : Shrinks txOf pool pool')
    (h' : Shrinks txOf pool' pool'') : Shrinks txOf pool pool'' :=
  ⟨h'.plain, fun hash entry hget => h.sub hash entry (h'.sub hash entry hget),
    fun Ok hs => h'.supported Ok (h.supported Ok hs)⟩

theorem Shrinks.clear (h : Shrinks txOf pool pool') (hclear : pool.Clear tx p) : pool'.Clear tx p :=
  fun hash entry hget => hclear hash entry (h.sub hash entry hget)

theorem Plain.remove_shrinks (hpool : pool.Plain txOf) (htx : txOf tx.hash = tx) :
    Shrinks txOf pool (pool.remove tx true).1 :=
  ⟨hpool.remove tx true, fun _ _ => remove_sub, fun _ hs => hpool.remove_supported htx (hs.mono fun _ hok => .inl hok)⟩

/-- **One input of `removeConflicts`** clears its outpoint. -/
theorem Plain.removeConflict (hpool : acc.1.Plain txOf)
    (tx : CTransaction) (txin : CTxIn) : Shrinks txOf acc.1 (removeConflict tx acc txin).1 ∧
      (removeConflict tx acc txin).1.Clear tx txin.prevout := by
  unfold CTxMemPool.removeConflict
  cases hindex : acc.1.mapNextTx.get txin.prevout with
  | none =>
    refine ⟨.refl hpool, ?_⟩
    intro hash entry hget _ hp
    obtain ⟨n, hn, -⟩ := hpool.spendFree.index hget hp
    rw [hindex] at hn
    cases hn
  | some inPoint =>
    -- the index names the only spender
    have honly : ∀ hash entry, acc.1.mapTx.get hash = some entry → txin.prevout ∈ entry.tx.prevouts →
        hash = inPoint.ptx.hash := by
      intro hash entry hget hp
      obtain ⟨n, hn, hkey⟩ := hpool.spendFree.index hget hp
      rw [hindex] at hn
      cases hn
      exact hkey.symm
    dsimp only
    split_ifs with hne
    · obtain ⟨hlook, -, -⟩ := (hpool.catalogued.indexed.index _ _).mp hindex
      obtain ⟨entry', hentry', htx'⟩ := lookup_eq_some.mp hlook
      have hnamed : txOf inPoint.ptx.hash = inPoint.ptx := by
        rw [hpool.catalogued.named _ _ hentry', htx']
      refine ⟨hpool.remove_shrinks hnamed, ?_⟩
      intro hash entry hget _ hp
      have hgone := remove_removes acc.1 inPoint.ptx true
      rw [← honly hash entry (remove_sub hget) hp] at hgone
      rw [hgone] at hget
      cases hget
    · refine ⟨.refl hpool, ?_⟩
      intro hash entry hget hhash hp
      exact hhash ((honly hash entry hget hp).trans (not_not.mp hne))

/-- **`removeConflicts`** clears every outpoint the transaction spends. -/
theorem Plain.removeConflicts (hpool : pool.Plain txOf) (tx : CTransaction) :
    Shrinks txOf pool (pool.removeConflicts tx).1 ∧ ∀ p ∈ tx.prevouts, (pool.removeConflicts tx).1.Clear tx p := by
  suffices hfold : ∀ (vin : List CTxIn) (acc : CTxMemPool × List CTransaction), acc.1.Plain txOf →
      Shrinks txOf acc.1 (vin.foldl (CTxMemPool.removeConflict tx) acc).1 ∧
        ∀ p ∈ vin.map CTxIn.prevout, (vin.foldl (CTxMemPool.removeConflict tx) acc).1.Clear tx p from
    hfold tx.vin (pool, []) hpool
  intro vin
  induction vin with
  | nil =>
    intro acc hacc
    exact ⟨.refl hacc, by simp⟩
  | cons txin vin ih =>
    intro acc hacc
    obtain ⟨hshrinks, hclear⟩ := hacc.removeConflict tx txin
    obtain ⟨hrest, hclears⟩ := ih (CTxMemPool.removeConflict tx acc txin) hshrinks.plain
    refine ⟨hshrinks.trans hrest, ?_⟩
    intro p hp
    rcases mem_cons.mp hp with rfl | hp
    · exact hrest.clear hclear
    · exact hclears p hp

/-- What `removeForBlock` has done for the transactions `done`. -/
structure BlockRemoved (txOf : Uint256 → CTransaction) (Ok : COutPoint → Prop) (done : List CTransaction)
    (pool : CTxMemPool) : Prop where
  plain : pool.Plain txOf
  gone : ∀ tx ∈ done, pool.mapTx.get tx.hash = none
  free : ∀ tx ∈ done, ∀ p ∈ tx.prevouts, ∀ hash entry, pool.mapTx.get hash = some entry → p ∉ entry.tx.prevouts
  supported : pool.Supported (fun p => Ok p ∨ ∃ tx ∈ done, OwnCoin tx p) []

/-- **One transaction of the block.** -/
theorem BlockRemoved.step {done : List CTransaction} (h : BlockRemoved txOf Ok done acc.1) (htx : txOf tx.hash = tx) :
    BlockRemoved txOf Ok (done ++ [tx]) (removeForTx acc tx).1 := by
  have hplain := h.plain.remove tx false
  obtain ⟨hshrinks, hclear⟩ := hplain.removeConflicts tx
  have hsub : ∀ hash entry, (removeForTx acc tx).1.mapTx.get hash = some entry →
      acc.1.mapTx.get hash = some entry := fun hash entry hget => remove_sub (hshrinks.sub hash entry hget)
  have hgone : (removeForTx acc tx).1.mapTx.get tx.hash = none := by
    refine Option.eq_none_iff_forall_ne_some.mpr fun entry hget => ?_
    have hbefore := hshrinks.sub _ _ hget
    rw [remove_removes] at hbefore
    cases hbefore
  refine ⟨hshrinks.plain, ?_, ?_, ?_⟩
  · intro tx' htx'
    rcases mem_append.mp htx' with hdone | hnew
    · refine Option.eq_none_iff_forall_ne_some.mpr fun entry hget => ?_
      grind [h.gone]
    · rw [mem_singleton.mp hnew]
      exact hgone
  · intro tx' htx' p hp hash entry hget
    rcases mem_append.mp htx' with hdone | hnew
    · exact h.free tx' hdone p hp hash entry (hsub hash entry hget)
    rw [mem_singleton.mp hnew] at hp
    refine hclear p hp hash entry hget ?_
    rintro rfl
    rw [hgone] at hget
    cases hget
  · have hsupported := hshrinks.supported _ (h.plain.remove_false_supported htx h.supported)
    refine hsupported.mono fun p hok => ?_
    rcases hok with (hok | ⟨tx', htx', hown⟩) | hown
    · exact .inl hok
    · exact .inr ⟨tx', mem_append_left _ htx', hown⟩
    · exact .inr ⟨tx, by simp, hown⟩

theorem removeForBlock_sub (pool : CTxMemPool) (vtx : List CTransaction) :
    ∀ hash entry, (pool.removeForBlock vtx).1.mapTx.get hash = some entry → pool.mapTx.get hash = some entry :=
  removeForBlock_invariant
    (P := fun q : CTxMemPool => ∀ hash entry, q.mapTx.get hash = some entry → pool.mapTx.get hash = some entry)
    (fun _ _ _ hq _ hash entry hget => hq hash entry (get_eraseEntry.mp hget).2) vtx fun _ _ hget => hget

/-- **`removeForBlock`**: the block's transactions and their conflicts are gone, and its coins count as found. -/
theorem Plain.removeForBlock {vtx : List CTransaction} (hpool : pool.Plain txOf)
    (hvtx : ∀ tx ∈ vtx, txOf tx.hash = tx) (h : pool.Supported Ok []) :
    BlockRemoved txOf Ok vtx (pool.removeForBlock vtx).1 := by
  suffices hfold : ∀ done rest acc, (∀ tx ∈ rest, txOf tx.hash = tx) → BlockRemoved txOf Ok done acc.1 →
      BlockRemoved txOf Ok (done ++ rest) (rest.foldl removeForTx acc).1 by
    refine hfold [] vtx (pool, []) hvtx ⟨hpool, by simp, by simp, ?_⟩
    exact h.mono fun p hok => .inl hok
  intro done rest
  induction rest generalizing done with
  | nil =>
    intro acc _ hacc
    rw [append_nil]
    exact hacc
  | cons tx rest ih =>
    intro acc hrest hacc
    have hnext := ih (done ++ [tx]) (removeForTx acc tx)
      (fun tx' htx' => hrest tx' (mem_cons_of_mem tx htx')) (hacc.step (hrest tx mem_cons_self))
    rw [append_assoc] at hnext
    exact hnext

/-- **`removeCoinbaseSpends`** keeps everything supported. -/
theorem Plain.removeCoinbaseSpends (hpool : pool.Plain txOf) (maturity : Int) (pcoins : CCoinsView)
    (nMemPoolHeight : Int) : Shrinks txOf pool (pool.removeCoinbaseSpends maturity pcoins nMemPoolHeight) := by
  unfold CTxMemPool.removeCoinbaseSpends
  have hnamed : ∀ tx ∈ (pool.mapTx.entries.map fun e => e.2.tx).filter
      (pool.spendsImmature maturity pcoins nMemPoolHeight), txOf tx.hash = tx := by
    intro tx htx
    obtain ⟨e, he, rfl⟩ := mem_map.mp (mem_of_mem_filter htx)
    have hget : pool.mapTx.get e.1 = some e.2 := StdMap.mem_entries_iff.mp he
    rw [hpool.catalogued.indexed.key _ _ hget]
    exact hpool.catalogued.named _ _ hget
  revert hnamed
  generalize (pool.mapTx.entries.map fun e => e.2.tx).filter
    (pool.spendsImmature maturity pcoins nMemPoolHeight) = txs
  intro hnamed
  induction txs generalizing pool with
  | nil => exact .refl hpool
  | cons tx txs ih =>
    have hone := hpool.remove_shrinks (hnamed tx mem_cons_self)
    exact hone.trans (ih hone.plain fun tx' htx' => hnamed tx' (mem_cons_of_mem tx htx'))

end CTxMemPool

end PwrbCore
