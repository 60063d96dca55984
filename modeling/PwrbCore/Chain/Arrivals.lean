/-
  Chain.Arrivals — HEADERS AND BODIES THAT ARRIVE KEEP THE BLOCK INDEX WIRED (`AddToBlockIndex`,
  `ReceivedBlockTransactions`).

  Main results: `Wired.add` — a header on top of a known block; `Wired.receive` — a body,
  and the blocks that waited for it.
-/
import PwrbCore.Chain.Links

namespace PwrbCore

open ParentTree OrderedSet List Option ChainGlobals

variable {n : Int} {k : Uint256} {queue : List Uint256} {e : CBlockIndex}

variable {σ : Type}

namespace ChainGlobals

/-! ## §1. New headers. -/

variable {genesis : Uint256} {st st' : ChainGlobals σ} {block : CBlock} {prev : CBlockIndex}

theorem addToBlockIndex_eq (hadd : st.addToBlockIndex n block prev = some st') :
    st' = { st with mapBlockIndex := st.mapBlockIndex.set block.hash (st.newEntry block prev) } := by
  unfold addToBlockIndex at hadd
  dsimp only at hadd
  split_ifs at hadd
  exact (some.inj hadd).symm

theorem index_addToBlockIndex (hadd : st.addToBlockIndex n block prev = some st') (k : Uint256) :
    st'.index k = if k = block.hash then some (st.newEntry block prev) else st.index k := by
  rw [addToBlockIndex_eq hadd]
  exact StdMap.get_set _ _ _ _

theorem newEntry_eq (st : ChainGlobals σ) (block : CBlock) (prev : CBlockIndex) :
    st.newEntry block prev =
      { header := { block with vtx := [] }, pprev := some block.hashPrevBlock,
        pskip := st.getAncestor block.hashPrevBlock (getSkipHeight (prev.nHeight + 1)),
        nHeight := prev.nHeight + 1, nChainWork := (prev.nChainWork + getBlockProof block.nBits) % 2 ^ 256,
        nValid := BLOCK_VALID_TREE } := rfl

theorem Wired.add (w : Wired genesis st) (hnew : st.index block.hash = none)
    (hprev : st.index block.hashPrevBlock = some prev) (hadd : st.addToBlockIndex n block prev = some st') :
    Wired genesis st' := by
  have hindex := index_addToBlockIndex hadd
  have hold : ∀ {k e}, st.index k = some e → st'.index k = some e := by grind
  -- the new block has no children yet
  have hchild : ∀ {k e}, st.index k = some e → e.pprev ≠ some block.hash := by grind [w.parent]
  have htx : ∀ p, p ≠ block.hash → st'.chainTx p = st.chainTx p := by
    intro p hp
    unfold chainTx
    rw [hindex, if_neg hp]
  have hunlinked : st'.mapBlocksUnlinked = st.mapBlocksUnlinked := by rw [addToBlockIndex_eq hadd]
  have hcases : ∀ {k e}, st'.index k = some e →
      (k = block.hash ∧ e = st.newEntry block prev) ∨ (k ≠ block.hash ∧ st.index k = some e) := by grind
  refine { first := ?_, root := ?_, parent := ?_, bodies := ?_, sequence := ?_, settled := ?_, ready := ?_,
           waiting := ?_, once := ?_, queued := nodup_nil }
  · obtain ⟨e, he, hp, hh⟩ := w.first
    exact ⟨e, hold he, hp, hh⟩
  · intro k e he hp
    rcases hcases he with ⟨-, rfl⟩ | ⟨-, he⟩
    · cases hp
    · exact w.root k e he hp
  · intro k e p he hp
    rcases hcases he with ⟨-, rfl⟩ | ⟨-, he⟩
    · cases hp
      exact ⟨prev, hold hprev, rfl⟩
    · obtain ⟨e', he', hh⟩ := w.parent k e p he hp
      exact ⟨e', hold he', hh⟩
  · intro k e b he hd
    rcases hcases he with ⟨-, rfl⟩ | ⟨-, he⟩
    · cases hd
    · exact w.bodies k e b he hd
  · intro k e he h0
    rcases hcases he with ⟨-, rfl⟩ | ⟨-, he⟩
    · rfl
    · exact w.sequence k e he h0
  · intro k e he _
    rcases hcases he with ⟨-, rfl⟩ | ⟨-, he⟩
    · rw [newEntry_eq]
      simp
    · rw [w.linked he]
      grind
  · intro k hk
    cases hk
  · intro p k
    rw [hunlinked, w.waiting p k]
    refine and_congr_left fun _ => ?_
    constructor
    · rintro ⟨e, ⟨he, hd, h0⟩, hp⟩
      exact ⟨e, ⟨hold he, hd, h0⟩, hp⟩
    rintro ⟨e, ⟨he, hd, h0⟩, hp⟩
    rcases hcases he with ⟨-, rfl⟩ | ⟨-, he⟩
    · cases hd
    · exact ⟨e, ⟨he, hd, h0⟩, hp⟩
  · rw [hunlinked]
    exact w.once

/-! ## §2. The queue of `ReceivedBlockTransactions`. -/

/-- The entry of a block linked under `n` transactions with sequence id `s`. -/
def linkedEntry (n s : Nat) (e : CBlockIndex) : CBlockIndex := { e with nChainTx := n + e.nTx, nSequenceId := s }

theorem index_linkBlock (st : ChainGlobals σ) (h k : Uint256) : (st.linkBlock h).index k
      = if k = h then (st.index k).map (linkedEntry (st.parentChainTx h) st.nBlockSequenceId) else st.index k := by
  have hindex : (st.linkBlock h).index k = (st.update h fun e =>
          { e with nChainTx := st.parentChainTx h + e.nTx, nSequenceId := st.nBlockSequenceId }).index k := by
    unfold linkBlock
    dsimp only
    split_ifs <;> rfl
  rw [hindex, index_update]
  rfl

theorem linkBlock_fields (st : ChainGlobals σ) (h : Uint256) :
    (st.linkBlock h).chainActive = st.chainActive ∧ (st.linkBlock h).coins = st.coins ∧
      (st.linkBlock h).mapBlocksUnlinked = st.mapBlocksUnlinked.filter (fun pair => decide (pair.1 ≠ h)) ∧
      ∀ k, k ∈ (st.linkBlock h).setBlockIndexCandidates ↔
        k ∈ st.setBlockIndexCandidates ∨ (k = h ∧ (st.linkBlock h).worthTrying h = true) := by
  obtain ⟨hactive, hcands, -, -, hcoins⟩ := st.update_fields h fun e =>
    { e with nChainTx := st.parentChainTx h + e.nTx, nSequenceId := st.nBlockSequenceId }
  unfold linkBlock
  dsimp only
  split_ifs with hworth
  · refine ⟨hactive, hcoins, rfl, fun k => ?_⟩
    show k ∈ List.insert h _ ↔ _
    rw [mem_insert_iff, hcands]
    constructor
    · rintro (rfl | hk)
      · exact .inr ⟨rfl, hworth⟩
      · exact .inl hk
    · rintro (hk | ⟨rfl, -⟩)
      · exact .inr hk
      · exact .inl rfl
  · refine ⟨hactive, hcoins, rfl, fun k => ?_⟩
    show k ∈ _ ↔ _
    constructor
    · intro hk
      exact .inl (hcands ▸ hk)
    · rintro (hk | ⟨rfl, hw⟩)
      · exact hcands.symm ▸ hk
      · exact absurd hw hworth

theorem mem_unlinkedChildren {h : Uint256} : k ∈ st.unlinkedChildren h ↔ (h, k) ∈ st.mapBlocksUnlinked := by
  unfold unlinkedChildren
  simp

theorem nodup_unlinkedChildren (h : Uint256) (hnodup : st.mapBlocksUnlinked.Nodup) : (st.unlinkedChildren h).Nodup := by
  refine (hnodup.filter _).map_on ?_
  simp_all

theorem chainTx_linkBlock (h k : Uint256) (hk : k ≠ h) : (st.linkBlock h).chainTx k = st.chainTx k := by
  unfold chainTx
  rw [index_linkBlock, if_neg hk]

/-- **One turn of the queue**: the first block is linked, and its waiting children join the queue. -/
theorem Linking.turn {h : Uint256} (w : Linking genesis (h :: queue) st) :
    Linking genesis (queue ++ st.unlinkedChildren h) (st.linkBlock h) ∧ (st.linkBlock h).chainTx h ≠ 0 := by
  obtain ⟨e0, ⟨he0, hdata0, h00⟩, hparent0⟩ := w.ready h mem_cons_self
  obtain ⟨hhead, hqueue⟩ := nodup_cons.mp w.queued
  have hindex := index_linkBlock st h
  have hown : (st.linkBlock h).index h
      = some (linkedEntry (st.parentChainTx h) st.nBlockSequenceId e0) := by
    rw [hindex, if_pos rfl, he0]
    rfl
  have hlinked : (st.linkBlock h).chainTx h ≠ 0 := by
    -- the body is not empty
    obtain ⟨block, hblock⟩ := isSome_iff_exists.mp hdata0
    have hbody := w.bodies h e0 block he0 hblock
    rw [chainTx_of_index hown]
    show st.parentChainTx h + e0.nTx ≠ 0
    have hnTx : e0.nTx = block.vtx.length := by
      unfold CBlockIndex.nTx
      rw [hblock]
    have hpos := length_pos_of_ne_nil hbody
    omega
  have htx : ∀ k, k ≠ h → (st.linkBlock h).chainTx k = st.chainTx k := chainTx_linkBlock h
  have hstays : ∀ k, st.chainTx k ≠ 0 → (st.linkBlock h).chainTx k ≠ 0 := by grind
  have hcases : ∀ {k e}, (st.linkBlock h).index k = some e →
      (k = h ∧ e = linkedEntry (st.parentChainTx h) st.nBlockSequenceId e0) ∨ (k ≠ h ∧ st.index k = some e) := by
    grind
  have hold : ∀ {k e}, k ≠ h → st.index k = some e → (st.linkBlock h).index k = some e := by
    intro k e hkh he
    rw [hindex, if_neg hkh, he]
  have hchild : ∀ k, k ∈ st.unlinkedChildren h → k ≠ h ∧ k ∉ queue ∧ ∃ e, st.Waits k e ∧ e.pprev = some h := by
    grind [mem_unlinkedChildren, w.waiting]
  refine ⟨?_, hlinked⟩
  refine { toRooted := w.toRooted.of_places fun k => ?_, bodies := ?_, sequence := ?_, settled := ?_, ready := ?_,
           waiting := ?_, once := ?_, queued := ?_ }
  · rw [hindex]
    split_ifs
    · rw [Option.map_map]
      rfl
    · rfl
  · intro k e block he hd
    rcases hcases he with ⟨rfl, rfl⟩ | ⟨-, he⟩
    · exact w.bodies k e0 block he0 hd
    · exact w.bodies k e block he hd
  · grind [chainTx_of_index, w.sequence]
  · intro k e he hkq
    rw [mem_append, not_or] at hkq
    rcases hcases he with ⟨rfl, rfl⟩ | ⟨hkh, hek⟩
    · rw [chainTx_of_index hown] at hlinked
      refine ⟨fun _ => ⟨hdata0, fun p hp => hstays p (hparent0 p hp)⟩, fun _ => hlinked⟩
    have hbefore := w.settled k e hek fun hmem => by
      rcases mem_cons.mp hmem with hk | hk
      · exact hkh hk
      · exact hkq.1 hk
    rw [hbefore]
    constructor
    · rintro ⟨hd, hp⟩
      exact ⟨hd, fun p hpp => hstays p (hp p hpp)⟩
    rintro ⟨hd, hp⟩
    refine ⟨hd, fun p hpp => ?_⟩
    by_cases hph : p = h
    · -- a child of the block with a body would have waited in `mapBlocksUnlinked`
      subst hph
      by_cases h0 : e.nChainTx = 0
      · have hmem : (p, k) ∈ st.mapBlocksUnlinked := by
          rw [w.waiting p k]
          refine ⟨⟨e, ⟨hek, hd, h0⟩, hpp⟩, fun hmem => ?_⟩
          rcases mem_cons.mp hmem with hk | hk
          · exact hkh hk
          · exact hkq.1 hk
        exact absurd (mem_unlinkedChildren.mpr hmem) hkq.2
      · exact (hbefore.mp h0).2 p hpp
    · rw [← htx p hph]
      exact hp p hpp
  · intro k hk
    rcases mem_append.mp hk with hkq | hkc
    · obtain ⟨e, ⟨he, hd, h0⟩, hp⟩ := w.ready k (mem_cons_of_mem _ hkq)
      have hkh : k ≠ h := by
        rintro rfl
        exact hhead hkq
      exact ⟨e, ⟨hold hkh he, hd, h0⟩, fun p hpp => hstays p (hp p hpp)⟩
    · obtain ⟨hkh, -, e, ⟨he, hd, h0⟩, hp⟩ := hchild k hkc
      refine ⟨e, ⟨hold hkh he, hd, h0⟩, fun p hpp => ?_⟩
      rw [hp] at hpp
      cases hpp
      exact hlinked
  · intro p k
    rw [(st.linkBlock_fields h).2.2.1, mem_filter, w.waiting p k, mem_append, mem_unlinkedChildren, w.waiting h k]
    by_cases hkh : k = h
    · -- a linked block does not wait
      grind [Waits, chainTx_of_index]
    · have hsame : (∃ e, (st.linkBlock h).Waits k e ∧ e.pprev = some p) ↔ ∃ e, st.Waits k e ∧ e.pprev = some p := by
        unfold Waits
        rw [hindex, if_neg hkh]
      rw [hsame, waits_iff, waits_iff, mem_cons]
      grind
  · exact w.once.filter _
  · grind [nodup_unlinkedChildren, w.once]

/-- **Blocks got linked**, and candidates if worth trying; else the entries are those of `index`. -/
structure LinksMore (index : Uint256 → Option CBlockIndex) (st st' : ChainGlobals σ) : Prop where
  entries : ∀ k, (st'.index k).map (linkedEntry 0 0) = (index k).map (linkedEntry 0 0)
  fixed : ∀ k, st.chainTx k ≠ 0 → st'.index k = st.index k
  active : st'.chainActive = st.chainActive
  coins : st'.coins = st.coins
  candidates : ∀ k, k ∈ st'.setBlockIndexCandidates ↔
    k ∈ st.setBlockIndexCandidates ∨ (st.chainTx k = 0 ∧ st'.chainTx k ≠ 0 ∧ st'.worthTrying k = true)

namespace LinksMore

variable {index : Uint256 → Option CBlockIndex} {st'' : ChainGlobals σ}

theorem refl (st : ChainGlobals σ) : LinksMore st.index st st :=
  ⟨fun _ => rfl, fun _ _ => rfl, rfl, rfl, fun _ => ⟨.inl, fun h => h.elim id fun ⟨h0, hne, _⟩ => absurd h0 hne⟩⟩

section

variable (h : LinksMore index st st')

include h

theorem worse {a b : Uint256} (ha : st.chainTx a ≠ 0) (hb : st.chainTx b ≠ 0) : st'.worse a b = st.worse a b := by
  have hread : ∀ {k}, st.chainTx k ≠ 0 → st'.work k = st.work k ∧ st'.sequenceId k = st.sequenceId k := by
    grind [work, sequenceId, h.fixed]
  exact worse_congr (hread ha).1 (hread hb).1 (hread ha).2 (hread hb).2

theorem chainTx (hk : st.chainTx k ≠ 0) : st'.chainTx k = st.chainTx k := by
  unfold ChainGlobals.chainTx
  rw [h.fixed k hk]

theorem tip : st'.tip = st.tip := congrArg head? h.active

theorem worthTrying (htip : ∀ t, st.tip = some t → st.chainTx t ≠ 0)
    (hk : st.chainTx k ≠ 0) : st'.worthTrying k = st.worthTrying k := by
  unfold ChainGlobals.worthTrying
  rw [h.tip]
  cases ht : st.tip with
  | none => rfl
  | some t =>
    dsimp only
    rw [h.worse hk (htip t ht)]

theorem trans (h' : LinksMore st'.index st' st'') (htip : ∀ t, st.tip = some t → st.chainTx t ≠ 0) :
    LinksMore index st st'' := by
  have htip' : ∀ t, st'.tip = some t → st'.chainTx t ≠ 0 := by grind [h.tip, h.chainTx]
  refine ⟨fun k => (h'.entries k).trans (h.entries k), fun k hk => ?_, h'.active.trans h.active,
    h'.coins.trans h.coins, fun k => ?_⟩
  · rw [h'.fixed k (by rw [h.chainTx hk]; exact hk), h.fixed k hk]
  rw [h'.candidates k, h.candidates k]
  constructor
  · grind [h'.chainTx, h'.worthTrying, h.chainTx]
  rintro (hk | ⟨h0, hne, hw⟩)
  · exact .inl (.inl hk)
  · by_cases hk' : st'.chainTx k = 0
    · exact .inr ⟨hk', hne, hw⟩
    · grind [h'.worthTrying]

end

theorem linkBlock {h : Uint256} (h0 : st.chainTx h = 0) (hlinked : (st.linkBlock h).chainTx h ≠ 0) :
    LinksMore st.index st (st.linkBlock h) := by
  obtain ⟨hactive, hcoins, -, hcands⟩ := st.linkBlock_fields h
  refine ⟨fun k => ?_, fun k hk => ?_, hactive, hcoins, fun k => ?_⟩
  · rw [index_linkBlock]
    split_ifs
    · rw [Option.map_map]
      rfl
    · rfl
  · have hkh : k ≠ h := by
      rintro rfl
      exact hk h0
    rw [index_linkBlock, if_neg hkh]
  · grind [chainTx_linkBlock]

end LinksMore

/-- **The queue loop** ends with everything wired. -/
theorem Linking.linkQueue {n : Nat} (w : Linking genesis queue st)
    (htip : ∀ t, st.tip = some t → st.chainTx t ≠ 0) (hn : queue.length + st.mapBlocksUnlinked.length ≤ n) :
    Wired genesis (linkQueue n queue st) ∧ LinksMore st.index st (linkQueue n queue st) := by
  induction n generalizing queue st with
  | zero =>
    have hnil : queue = [] := length_eq_zero_iff.mp (by omega)
    subst hnil
    exact ⟨w, .refl st⟩
  | succ n ih =>
    cases queue with
    | nil => exact ⟨w, .refl st⟩
    | cons h queue =>
      obtain ⟨w', hlinked⟩ := w.turn
      obtain ⟨e, ⟨he, -, h0⟩, -⟩ := w.ready h mem_cons_self
      have hfirst := LinksMore.linkBlock ((chainTx_of_index he).trans h0) hlinked
      -- what leaves `mapBlocksUnlinked` joins the queue
      have hlength : (st.unlinkedChildren h).length + (st.linkBlock h).mapBlocksUnlinked.length
          = st.mapBlocksUnlinked.length := by
        unfold unlinkedChildren
        rw [length_map, length_eq_length_filter_add (l := st.mapBlocksUnlinked)
          (fun pair => decide (pair.1 = h))]
        congr 2
        refine filter_congr fun pair _ => ?_
        rw [decide_not]
      have htip' : ∀ t, (st.linkBlock h).tip = some t → (st.linkBlock h).chainTx t ≠ 0 := by
        grind [hfirst.tip, hfirst.chainTx]
      obtain ⟨hwired, hmore⟩ := ih w' htip' (by
        rw [length_append]
        rw [length_cons] at hn
        omega)
      exact ⟨hwired, hfirst.trans hmore htip⟩

/-! ## §3. Received bodies. -/

def stored (st : ChainGlobals σ) (block : CBlock) : ChainGlobals σ := st.update block.hash (receivedEntry block)

theorem receivedEntry_fields (block : CBlock) (e : CBlockIndex) :
    (receivedEntry block e).pprev = e.pprev ∧ (receivedEntry block e).nHeight = e.nHeight ∧
      (receivedEntry block e).data = some block ∧ (receivedEntry block e).nChainTx = 0 ∧
      (receivedEntry block e).nSequenceId = e.nSequenceId := by
  unfold receivedEntry CBlockIndex.raiseValidity
  split_ifs <;> exact ⟨rfl, rfl, rfl, rfl, rfl⟩

theorem index_stored (he : st.index block.hash = some e) :
    (st.stored block).index block.hash = some (receivedEntry block e) := by
  refine (index_update st block.hash block.hash (receivedEntry block)).trans ?_
  rw [if_pos rfl, he]
  rfl

/-- The body of a block that had none: it is ready, or its parent is not linked. -/
theorem Wired.stored (w : Wired genesis st) (he : st.index block.hash = some e) (hnone : e.data = none)
    (hbody : block.vtx ≠ []) : Rooted genesis (st.stored block) ∧ (st.stored block).chainTx = st.chainTx ∧
      ((∀ p, e.pprev = some p → st.chainTx p ≠ 0) → Linking genesis [block.hash] (st.stored block)) ∧
      (∀ p, e.pprev = some p → st.chainTx p = 0 → Wired genesis { st.stored block with
          mapBlocksUnlinked := (st.stored block).mapBlocksUnlinked ++ [(p, block.hash)] }) := by
  obtain ⟨hpprev, hheight, hdata, htx, hseq⟩ := receivedEntry_fields block e
  obtain ⟨hactive, hcands, hunlinked, hsequence, hcoins⟩ := st.update_fields block.hash (receivedEntry block)
  have h0 : e.nChainTx = 0 := by grind [w.linked]
  have hindex : ∀ k, (st.stored block).index k = if k
      = block.hash then (st.index k).map (receivedEntry block) else st.index k :=
    fun k => index_update st block.hash k (receivedEntry block)
  have hown := index_stored he
  have hchainTx : (st.stored block).chainTx = st.chainTx := by
    funext k
    by_cases hk : k = block.hash
    · rw [hk, chainTx_of_index hown, chainTx_of_index he, htx, h0]
    · unfold chainTx
      rw [hindex, if_neg hk]
  have hrooted : Rooted genesis (st.stored block) := by
    refine w.toRooted.of_places fun k => ?_
    rw [hindex]
    split_ifs with hk
    · rw [hk, he, map_some, map_some, map_some, hpprev, hheight]
    · rfl
  have hbodies : ∀ k e' b, (st.stored block).index k = some e' → e'.data = some b → b.vtx ≠ [] := by grind [w.bodies]
  have hsequences : ∀ k e', (st.stored block).index k = some e' → e'.nChainTx = 0 → e'.nSequenceId = 0 := by
    grind [w.sequence]
  have hothers : ∀ k e', (st.stored block).index k = some e' → k ≠ block.hash →
      (e'.nChainTx ≠ 0 ↔ e'.data.isSome = true ∧ ∀ p, e'.pprev = some p → (st.stored block).chainTx p ≠ 0) := by
    intro k e' he' hk
    rw [hindex, if_neg hk] at he'
    rw [hchainTx]
    exact w.linked he'
  -- the block itself was not in `mapBlocksUnlinked`
  have hwaiting : ∀ p k, (p, k) ∈ (st.stored block).mapBlocksUnlinked ↔
      (∃ e', (st.stored block).Waits k e' ∧ e'.pprev = some p) ∧ k ≠ block.hash := by
    intro p k
    rw [show (st.stored block).mapBlocksUnlinked = st.mapBlocksUnlinked from hunlinked, w.waiting p k]
    unfold Waits
    rw [hindex]
    grind
  have honce : (st.stored block).mapBlocksUnlinked.Nodup := by
    rw [show (st.stored block).mapBlocksUnlinked = st.mapBlocksUnlinked from hunlinked]
    exact w.once
  refine ⟨hrooted, hchainTx, fun hparents => ?_, fun p hp hp0 => ?_⟩
  · refine { toRooted := hrooted, bodies := hbodies, sequence := hsequences, settled := ?_, ready := ?_,
             waiting := ?_, once := honce, queued := nodup_singleton _ }
    · intro k e' he' hk
      exact hothers k e' he' fun hk' => hk (mem_singleton.mpr hk')
    · intro k hk
      rw [mem_singleton.mp hk]
      refine ⟨_, ⟨hown, by rw [hdata]; rfl, htx⟩, fun p hp => ?_⟩
      rw [hchainTx]
      exact hparents p (hpprev.symm.trans hp)
    · intro q k
      rw [hwaiting, mem_singleton]
  · refine { first := hrooted.first, root := hrooted.root, parent := hrooted.parent, bodies := hbodies,
             sequence := hsequences, settled := ?_, ready := ?_, waiting := ?_, once := ?_, queued := nodup_nil }
    · intro k e' he' _
      by_cases hk : k = block.hash
      · subst hk
        have heq : e' = receivedEntry block e := some.inj (he'.symm.trans hown)
        rw [heq, htx, hpprev]
        refine ⟨fun h => absurd rfl h, fun h => absurd hp0 ?_⟩
        have hparent := h.2 p hp
        rw [show chainTx { st.stored block with
          mapBlocksUnlinked := (st.stored block).mapBlocksUnlinked ++ [(p, block.hash)] }
            = st.chainTx from hchainTx] at hparent
        exact hparent
      · exact hothers k e' he' hk
    · intro k hk
      cases hk
    · intro q k
      show (q, k) ∈ (st.stored block).mapBlocksUnlinked ++ [(p, block.hash)] ↔ _
      rw [mem_append, hwaiting, mem_singleton, Prod.mk.injEq]
      constructor
      · rintro (⟨hw, -⟩ | ⟨rfl, rfl⟩)
        · exact ⟨hw, not_mem_nil⟩
        · exact ⟨⟨_, ⟨hown, by rw [hdata]; rfl, htx⟩, hpprev.trans hp⟩, not_mem_nil⟩
      rintro ⟨⟨e', ⟨he', hd, h0'⟩, hq⟩, -⟩
      by_cases hk : k = block.hash
      · subst hk
        have heq : e' = receivedEntry block e := some.inj (he'.symm.trans hown)
        rw [heq, hpprev, hp] at hq
        exact .inr ⟨(some.inj hq).symm, rfl⟩
      · exact .inl ⟨⟨e', ⟨he', hd, h0'⟩, hq⟩, hk⟩
    · show ((st.stored block).mapBlocksUnlinked ++ [(p, block.hash)]).Nodup
      rw [nodup_append]
      refine ⟨honce, nodup_singleton _, ?_⟩
      rintro ⟨q, k⟩ hqk pair hpair rfl
      rw [mem_singleton, Prod.mk.injEq] at hpair
      exact ((hwaiting q k).mp hqk).2 hpair.2

/-- **A received body** keeps the wiring, and links what it can. The parent of a waiting block was accepted as valid.
-/
theorem Wired.receive (w : Wired genesis st) (he : st.index block.hash = some e) (hnone : e.data = none)
    (hbody : block.vtx ≠ []) (htip : ∀ t, st.tip = some t → st.chainTx t ≠ 0)
    (hvalid : ∀ p, e.pprev = some p → st.chainTx p = 0 → (st.stored block).isValid p BLOCK_VALID_TREE = true) :
    Wired genesis (st.receivedBlockTransactions block) ∧
      LinksMore (st.stored block).index (st.stored block) (st.receivedBlockTransactions block) := by
  obtain ⟨-, hchainTx, hready, hwaits⟩ := w.stored he hnone hbody
  obtain ⟨hactive, -, -, -, -⟩ := st.update_fields block.hash (receivedEntry block)
  have htip' : ∀ t, (st.stored block).tip = some t → (st.stored block).chainTx t ≠ 0 := by
    intro t ht
    rw [hchainTx]
    refine htip t ?_
    rw [← ht]
    exact congrArg head? hactive.symm
  have hpprev : (st.stored block).pprev block.hash = e.pprev :=
    (pprev_of_index (index_stored he)).trans (receivedEntry_fields block e).1
  unfold receivedBlockTransactions
  dsimp only
  rw [show st.update block.hash (receivedEntry block) = st.stored block from rfl, hpprev]
  cases hp : e.pprev with
  | none =>
    refine (hready fun p hp' => ?_).linkQueue htip' (by rw [length_singleton]; omega)
    rw [hp] at hp'
    cases hp'
  | some p =>
    dsimp only
    by_cases hp0 : st.chainTx p = 0
    · rw [if_neg (by rw [hchainTx]; exact fun h => h hp0), if_pos (hvalid p hp hp0)]
      refine ⟨hwaits p hp hp0, fun _ => rfl, fun _ _ => rfl, rfl, rfl, fun k => ?_⟩
      refine ⟨.inl, fun h => h.elim id fun hlinked => ?_⟩
      exact absurd hlinked.1 hlinked.2.1
    · rw [if_pos (by rw [hchainTx]; exact hp0)]
      refine (hready fun q hq => ?_).linkQueue htip' (by rw [length_singleton]; omega)
      rw [hp] at hq
      cases hq
      exact hp0

end ChainGlobals

end PwrbCore
