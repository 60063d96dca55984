/-
  Chain.Events — WHAT HEADERS AND BLOCKS DO TO THE BLOCK INDEX.

  A header adds an entry, a body links blocks, a refused body leaves a mark (`Arrival`).  That
  is all `AcceptBlockHeader` and `AcceptBlock` do, unless the failed parent of a block is a
  checkpoint: then it is reconsidered and a chain is selected.

  Main results: `Arrival.basic`, `acceptBlock_cases`.
-/
import PwrbCore.Chain.Moves

namespace PwrbCore

open ParentTree OrderedSet Checked Option ChainGlobals CBlockIndex

variable {genesis : Uint256} {block : CBlock} {e : CBlockIndex} {parentOf : Uint256 → Uint256}
    {fAlreadyCheckedBlock : Bool}
  {r : Validated Unit}

variable {σ : Type}

/-! ## §1. Arrivals. -/

variable {st st' : ChainGlobals σ}

namespace ChainGlobals

/-- What comes from the network changes the globals in three ways. -/
inductive Arrival (parentOf : Uint256 → Uint256) : ChainGlobals σ → ChainGlobals σ → Prop where
  /-- a header on top of a known block that is not failed; its hash names the parent -/
  | header {st st' : ChainGlobals σ} {n : Int} {block : CBlock} {prev : CBlockIndex}
      (hnew : st.index block.hash = none) (hprev : st.index block.hashPrevBlock = some prev)
      (hvalid : prev.failed = false) (hname : block.hashPrevBlock = parentOf block.hash)
      (hadd : st.addToBlockIndex n block prev = some st') : Arrival parentOf st st'
  /-- a body that is refused -/
  | refuse {st : ChainGlobals σ} {h : Uint256} {e : CBlockIndex} (he : st.index h = some e) (hnone : e.data = none) :
      Arrival parentOf st (st.markFailedValid h)
  /-- a body that is stored; neither the block nor its parent is failed -/
  | body {st : ChainGlobals σ} {block : CBlock} {e : CBlockIndex} (he : st.index block.hash = some e)
      (hnone : e.data = none) (hfailed : e.failed = false) (hbody : block.vtx ≠ [])
      (hparent : ∀ p, e.pprev = some p → st.failed p = false) :
      Arrival parentOf st (st.receivedBlockTransactions block)

variable {h k : Uint256}

section

variable {n : Int} {prev : CBlockIndex} {a : Uint256}

theorem index_add_of_known (hnew : st.index block.hash = none) (hadd : st.addToBlockIndex n block prev = some st')
    (he : st.index h = some e) : st'.index h = some e := by
  have hne : h ≠ block.hash := by
    rintro rfl
    rw [hnew] at he
    cases he
  rw [index_addToBlockIndex hadd, if_neg hne, he]

theorem worse_add (hnew : st.index block.hash = none) (hadd : st.addToBlockIndex n block prev = some st')
    (hh : st.chainTx h ≠ 0) (hk : st.chainTx k ≠ 0) : st'.worse h k = st.worse h k := by
  have hsame : ∀ {x}, st.chainTx x ≠ 0 → st'.work x = st.work x ∧ st'.sequenceId x = st.sequenceId x := by
    grind [known_of_chainTx, index_add_of_known, work, sequenceId]
  exact worse_congr (hsame hh).1 (hsame hk).1 (hsame hh).2 (hsame hk).2

section

variable (w : Wired genesis st) (hnew : st.index block.hash = none)
  (hadd : st.addToBlockIndex n block prev = some st') (he : st.index h = some e)

include w hnew hadd he

/-- The parents of a known block and of its ancestors are where they were. -/
theorem Wired.pprev_add (ha : Above st.pprev a h) : st.pprev a = st'.pprev a := by
  obtain ⟨ea, hea⟩ := w.known_above ha he
  rw [pprev_of_index hea, pprev_of_index (index_add_of_known hnew hadd hea)]

theorem Wired.above_add : Above st'.pprev a h ↔ Above st.pprev a h := by
  constructor
  · intro ha
    refine ha.holds (P := fun x => Above st.pprev x h) (.refl _ h) ?_
    intro x p hx hp
    rw [← w.pprev_add hnew hadd he hx] at hp
    exact hx.up hp
  · intro ha
    exact ha.congr fun x hx => w.pprev_add hnew hadd he hx

theorem Wired.path_add : st'.path h = st.path h := by
  unfold path ParentTree.path
  rw [height_of_index he, height_of_index (index_add_of_known hnew hadd he)]
  exact (walk_congr fun x hx => w.pprev_add hnew hadd he hx).symm

end

end

/-- **What a stored body changes**: its entry has it, and blocks got linked and became candidates if worth trying. -/
abbrev Grown (st : ChainGlobals σ) (block : CBlock) (st' : ChainGlobals σ) : Prop :=
  LinksMore (fun k => if k = block.hash then (st.index k).map (receivedEntry block) else st.index k) st st'

theorem Wired.received (w : Wired genesis st) (he : st.index block.hash = some e)
    (hnone : e.data = none) (hbody : block.vtx ≠ []) (htip : ∀ t, st.tip = some t → st.chainTx t ≠ 0)
    (hvalid : ∀ p, e.pprev = some p → st.isValid p BLOCK_VALID_TREE = true) :
    Wired genesis (st.receivedBlockTransactions block) ∧ Grown st block (st.receivedBlockTransactions block) := by
  have h0 : st.chainTx block.hash = 0 := by
    by_contra hne
    have hdata := w.data_of_linked hne
    rw [haveData_of_index he, hnone] at hdata
    cases hdata
  have hindex : ∀ k, (st.stored block).index k = if k
      = block.hash then (st.index k).map (receivedEntry block) else st.index k :=
    fun k => index_update st block.hash k (receivedEntry block)
  obtain ⟨-, hchainTx, -, -⟩ := w.stored he hnone hbody
  obtain ⟨hactive, hcands, -, -, hcoins⟩ := st.update_fields block.hash (receivedEntry block)
  obtain ⟨hwired, hmore⟩ := w.receive he hnone hbody htip (fun p hp _ => by
    -- the parent is another block: its entry was not touched
    have hne : p ≠ block.hash := by
      rintro rfl
      have hheight := w.ranked block.hash block.hash ((pprev_of_index he).trans hp)
      omega
    unfold isValid
    rw [hindex, if_neg hne]
    exact hvalid p hp)
  refine ⟨hwired, fun k => ?_, fun k hk => ?_, hmore.active.trans hactive, hmore.coins.trans hcoins, fun k => ?_⟩
  · rw [hmore.entries k, hindex k]
  · have hne : k ≠ block.hash := by
      rintro rfl
      exact hk h0
    rw [hmore.fixed k (by rw [hchainTx]; exact hk), hindex, if_neg hne]
  · rw [hmore.candidates k, hchainTx, show (st.stored block).setBlockIndexCandidates = _ from hcands]

namespace Grown

section

variable (g : Grown st block st')

include g

theorem map_eq {α : Type} {f : CBlockIndex → α} (hl : ∀ e, f (linkedEntry 0 0 e) = f e)
    (hr : ∀ e, f (receivedEntry block e) = f e) (k : Uint256) : (st'.index k).map f = (st.index k).map f := by
  have hmap : ∀ o : Option CBlockIndex, o.map f = (o.map (linkedEntry 0 0)).map f := by
    intro o
    cases o with
    | none => rfl
    | some e => rw [map_some, map_some, map_some, hl e]
  rw [hmap, g.entries k, ← hmap]
  split_ifs
  · rw [map_map]
    congr 1
    funext e
    exact hr e
  · rfl

theorem pprev : st'.pprev = st.pprev := by
  funext k
  exact pprev_eq_of_map (g.map_eq (fun _ => rfl) (fun e => (receivedEntry_fields block e).1) k)

theorem height : st'.height = st.height := by
  funext k
  unfold ChainGlobals.height
  rw [g.map_eq (f := nHeight) (fun _ => rfl) (fun e => (receivedEntry_fields block e).2.1)]

theorem path : st'.path = st.path := by
  funext k
  unfold ChainGlobals.path
  rw [g.pprev, g.height]

theorem flags (k : Uint256) : (st'.index k).map (fun e => (e.failedValid, e.failedChild))
      = (st.index k).map fun e => (e.failedValid, e.failedChild) := by
  refine g.map_eq (fun _ => rfl) (fun e => ?_) k
  unfold receivedEntry raiseValidity
  split_ifs <;> rfl

theorem readBlockFromDisk (he : st.index block.hash = some e) (k : Uint256) :
    st'.readBlockFromDisk k = if k = block.hash then some block else st.readBlockFromDisk k := by
  have hjoin : ∀ o : Option CBlockIndex, o.bind data = ((o.map (linkedEntry 0 0)).map data).join := by
    intro o
    cases o <;> rfl
  unfold ChainGlobals.readBlockFromDisk
  rw [hjoin, g.entries k, ← hjoin]
  split_ifs with hk
  · rw [hk, he]
    exact (receivedEntry_fields block e).2.2.1
  · rfl

end

end Grown

theorem isValid_tree (b : st.Basic genesis) {p : Uint256} (he : st.index p = some e)
    (hfailed : e.failed = false) : st.isValid p BLOCK_VALID_TREE = true := by
  unfold isValid CBlockIndex.isValid
  rw [he]
  simp [hfailed, b.statuses p e he]

theorem Basic.received (b : st.Basic genesis) (he : st.index block.hash = some e)
    (hnone : e.data = none) (hbody : block.vtx ≠ []) (hparent : ∀ p, e.pprev = some p → st.failed p = false) :
    Wired genesis (st.receivedBlockTransactions block) ∧ Grown st block (st.receivedBlockTransactions block) := by
  refine b.wired.received he hnone hbody (fun t ht => b.tip_linked ht) (fun p hp => ?_)
  obtain ⟨ep, hep, -⟩ := b.wired.parent _ e p he hp
  exact isValid_tree b hep ((failed_of_index hep).symm.trans (hparent p hp))

theorem le_nValid_receivedEntry (block : CBlock) (e : CBlockIndex) : e.nValid ≤ (receivedEntry block e).nValid :=
  le_nValid_raiseValidity { e with data := some block, nChainTx := 0 } BLOCK_VALID_TRANSACTIONS

/-- **Arrivals keep what holds between calls.** -/
theorem Arrival.basic (m : Arrival parentOf st st') (b : st.Basic genesis) : st'.Basic genesis := by
  cases m with
  | header hnew hprev hvalid hname hadd =>
    rename_i n block prev
    have hindex := index_addToBlockIndex hadd
    have htx : ∀ {k}, st.chainTx k ≠ 0 → st'.chainTx k ≠ 0 := by
      intro k hk
      obtain ⟨e, he⟩ := known_of_chainTx hk
      rw [chainTx_of_index (index_add_of_known hnew hadd he), ← chainTx_of_index he]
      exact hk
    refine ⟨b.wired.add hnew hprev hadd, ?_, fun c hc => ?_, fun k e he => ?_, fun k body hbody => ?_⟩
    · obtain ⟨t, hactive, hlinked⟩ := b.active
      obtain ⟨e, he⟩ := known_of_chainTx hlinked
      refine ⟨t, ?_, htx hlinked⟩
      rw [show st'.chainActive = st.chainActive by rw [addToBlockIndex_eq hadd], hactive]
      exact (b.wired.path_add hnew hadd he).symm
    · rw [addToBlockIndex_eq hadd] at hc
      exact htx (b.candidates c hc)
    · rw [hindex] at he
      split_ifs at he
      · cases he
        exact le_rfl
      · exact b.statuses k e he
    · unfold readBlockFromDisk at hbody
      rw [hindex] at hbody
      split_ifs at hbody
      · cases hbody
      · exact b.stored k body hbody
  | refuse he hnone =>
    rename_i h e
    obtain ⟨hactive, hcands, -⟩ := st.update_fields h fun e => { e with failedValid := true }
    refine b.of_kept (.markFailedValid st h) hactive (fun c hc => .inl (hcands ▸ hc)) fun k e' => ?_
    exact nValid_le_of_map (f := fun e => { e with failedValid := true })
      (fun k => index_update st h k _) fun _ => le_rfl
  | body he hnone hfailed hbody hparent =>
    rename_i block e
    obtain ⟨hwired, g⟩ := b.received he hnone hbody hparent
    refine ⟨hwired, ?_, fun c hc => ?_, fun k e' he' => ?_, fun k body hread => ?_⟩
    · obtain ⟨t, hactive, hlinked⟩ := b.active
      exact ⟨t, by rw [g.active, g.path, hactive], by rw [g.chainTx hlinked]; exact hlinked⟩
    · grind [g.candidates, g.chainTx, b.candidates]
    · have hread := g.entries k
      rw [he'] at hread
      have hread' := hread.symm
      obtain ⟨e1, he1, heq⟩ := map_eq_some_iff.mp hread'
      have hvalid1 : e1.nValid = e'.nValid := by grind [linkedEntry]
      split_ifs at he1
      · obtain ⟨e0, he0, rfl⟩ := map_eq_some_iff.mp he1
        have hle := le_nValid_receivedEntry block e0
        have h₀ := b.statuses k e0 he0
        omega
      · have h₀ := b.statuses k e1 he1
        omega
    · rw [g.readBlockFromDisk he] at hread
      split_ifs at hread with hk
      · rw [hk]
        exact congrArg CBlock.hash (some.inj hread).symm
      · exact b.stored k body hread

end ChainGlobals

/-! ## §2. `AcceptBlockHeader`, `AcceptBlock`. -/

namespace ChainGlobals

/-- A hash names one header: the parent of every entry is the one its hash names. -/
def Named (parentOf : Uint256 → Uint256) (st : ChainGlobals σ) : Prop :=
  ∀ h p, st.pprev h = some p → p = parentOf h

theorem Named.kept (hn : st.Named parentOf) (hkept : Kept st st') : st'.Named parentOf := by
  intro h p hp
  rw [hkept.pprev] at hp
  exact hn h p hp

end ChainGlobals

namespace AcceptRules

variable {rules : AcceptRules σ}

/-- **What `AcceptBlockHeader` does**: the entry is there and not failed, or is added on top of such a block. -/
theorem acceptBlockHeader_cases (hrun : rules.acceptBlockHeader st block = .ok st') :
    (st' = st ∧ ∃ e, st.index block.hash = some e ∧ e.failed = false) ∨
      (st.index block.hash = none ∧ ∃ prev, st.index block.hashPrevBlock = some prev ∧ prev.failed = false ∧
        rules.contextualCheckBlockHeader st block prev = .ok () ∧
        st.addToBlockIndex rules.height_start_StakeModifierV2 block prev = some st') := by
  unfold acceptBlockHeader at hrun
  cases he : st.index block.hash with
  | some e =>
    grind
  | none =>
    rw [he] at hrun
    simp only [bind_eq_ok, require_eq_ok, orStop_eq_ok] at hrun
    obtain ⟨_, -, prev, hprev, _, hvalid, _, hcontext, hadd⟩ := hrun
    exact .inr ⟨rfl, prev, hprev, hvalid, hcontext, hadd⟩

/-- After `AcceptBlockHeader` the entry is there, not failed, with the parent of its hash. -/
theorem acceptBlockHeader_entry (hn : st.Named parentOf) (hblock : block.hashPrevBlock = parentOf block.hash)
    (hrun : rules.acceptBlockHeader st block = .ok st') :
    st'.Named parentOf ∧ (∃ e, st'.index block.hash = some e ∧ e.failed = false) ∧
      ∀ k e, st.index k = some e → st'.index k = some e := by
  rcases acceptBlockHeader_cases hrun with ⟨rfl, hentry⟩ | ⟨hnew, prev, hprev, -, -, hadd⟩
  · exact ⟨hn, hentry, fun _ _ he => he⟩
  have hindex := index_addToBlockIndex hadd
  refine ⟨fun k p hp => ?_, ?_, fun k e he => index_add_of_known hnew hadd he⟩
  · unfold ChainGlobals.pprev at hp
    rw [hindex] at hp
    split_ifs at hp with hk
    · have hparent : some block.hashPrevBlock = some p := hp
      rw [← some.inj hparent, hk]
      exact hblock
    · exact hn k p hp
  · exact ⟨st.newEntry block prev, by rw [hindex, if_pos rfl], rfl⟩

theorem acceptBlockHeader_arrival (hblock : block.hashPrevBlock = parentOf block.hash)
    (hrun : rules.acceptBlockHeader st block = .ok st') :
    Relation.ReflTransGen (ChainGlobals.Arrival parentOf) st st' := by
  rcases acceptBlockHeader_cases hrun with ⟨rfl, -⟩ | ⟨hnew, prev, hprev, hvalid, -, hadd⟩
  · exact .refl
  · exact .single (.header hnew hprev hvalid hblock hadd)

/-- **A body is stored, refused or left alone.** -/
theorem storeBlock_arrival (he : st.index block.hash = some e) (hfailed : e.failed = false)
    (hparent : ∀ p, e.pprev = some p → e.data = none → st.failed p = false)
    (hbody : fAlreadyCheckedBlock = true → block.vtx ≠ [])
    (hrun : rules.storeBlock st block fAlreadyCheckedBlock = (st', r)) :
    Relation.ReflTransGen (ChainGlobals.Arrival parentOf) st st' := by
  unfold storeBlock at hrun
  split_ifs at hrun with hdata
  · cases hrun
    exact .refl
  have hnone : e.data = none := by
    rw [haveData_of_index he] at hdata
    simpa using hdata
  cases hcheck : rules.checkBody st block fAlreadyCheckedBlock with
  | error err =>
    rw [hcheck] at hrun
    -- a mark, unless the block may have been corrupted on the way
    match err with
    | .invalid _ _ false =>
      cases hrun
      exact .single (.refuse he hnone)
    | .invalid _ _ true | .error _ | .thrown | .returned => grind
  | ok u =>
    have hne : block.vtx ≠ [] := by
      cases hf : fAlreadyCheckedBlock with
      | true => exact hbody hf
      | false =>
        unfold checkBody at hcheck
        rw [hf] at hcheck
        simp only [bind_eq_ok] at hcheck
        obtain ⟨_, hown, -⟩ := hcheck
        exact rules.checkBlock_ne_nil st block hown
    rw [hcheck] at hrun
    dsimp only at hrun
    split at hrun
    · cases hrun
      exact .refl
    · cases hrun
      exact .single (.body he hnone hfailed hne fun p hp => hparent p hp hnone)

/-- **One call of `AcceptBlock`** changes nothing, selects a chain after its failed parent, a checkpoint, was
reconsidered, or accepts a header whose parent is not failed and then looks at the body. -/
theorem acceptBlock_inv (hrun : rules.acceptBlock st block fAlreadyCheckedBlock = .ok (st', r)) : st' = st ∨
    (∃ e r', st.index block.hashPrevBlock = some e ∧ e.failed = true ∧
      rules.activateBestChain (st.reconsiderBlock block.hashPrevBlock) none false = .ok (st', r')) ∨
    (block.hash ≠ rules.params.hashGenesisBlock → ∃ e, st.index block.hashPrevBlock = some e ∧ e.failed = false) ∧
      ∃ st1, rules.acceptBlockHeader st block = .ok st1 ∧
          rules.storeBlock st1 block fAlreadyCheckedBlock = (st', r) := by
  have honParent : rules.acceptOnParent st block fAlreadyCheckedBlock = (st', r) → st' = st ∨
      ∃ st1, rules.acceptBlockHeader st block = .ok st1 ∧
          rules.storeBlock st1 block fAlreadyCheckedBlock = (st', r) := by
    intro hstore
    unfold acceptOnParent at hstore
    grind
  unfold acceptBlock at hrun
  grind

/-- **What `AcceptBlock` does**: arrivals, or chain selection. -/
theorem acceptBlock_cases (b : st.Basic genesis) (hn : st.Named parentOf) (hg : rules.params.hashGenesisBlock = genesis)
    (hblock : block.hashPrevBlock = parentOf block.hash) (hbody : fAlreadyCheckedBlock = true → block.vtx ≠ [])
    (hrun : rules.acceptBlock st block fAlreadyCheckedBlock = .ok (st', r)) :
    Relation.ReflTransGen (ChainGlobals.Arrival parentOf) st st' ∨
      ∃ e r', st.index block.hashPrevBlock = some e ∧ e.failed = true ∧
        rules.activateBestChain (st.reconsiderBlock block.hashPrevBlock) none false = .ok (st', r') := by
  rcases acceptBlock_inv hrun with rfl | hselected | ⟨hvalid, st1, hheader, hstore⟩
  · exact .inl .refl
  · exact .inr hselected
  have harrival := acceptBlockHeader_arrival hblock hheader
  obtain ⟨hn1, ⟨e, he, hfailed⟩, hold⟩ := acceptBlockHeader_entry hn hblock hheader
  have b1 : st1.Basic genesis := by
    refine harrival.rec b ?_
    intro s s' _ hs hb
    exact hs.basic hb
  refine .inl (harrival.trans (storeBlock_arrival he hfailed (fun p hp hnone => ?_) hbody hstore))
  -- the parent of the entry is the block's parent, which `AcceptBlock` looked at
  have hpp : st1.pprev block.hash = some p := (pprev_of_index he).trans hp
  have hparent : p = block.hashPrevBlock := (hn1 _ _ hpp).trans hblock.symm
  have hne : block.hash ≠ genesis := by
    intro hgen
    rw [hgen, b1.wired.pprev_genesis] at hpp
    cases hpp
  obtain ⟨ep, hep, hfailedp⟩ := hvalid (hg ▸ hne)
  rw [hparent, failed_of_index (hold _ _ hep)]
  exact hfailedp

end AcceptRules

end PwrbCore
