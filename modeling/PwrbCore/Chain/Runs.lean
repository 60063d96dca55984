/-
  Chain.Runs — RUNS OF THE BLOCK INDEX, WITH THE OPERATOR'S COMMANDS.

  An event is an arrival, a call of `ActivateBestChain`, `InvalidateBlock` or
  `ReconsiderBlock`; a run is any sequence of events.  `Coherent` is what holds between any
  two events: the index is wired, the active chain is a path of linked blocks and every entry
  hangs under the block its hash names.

  Main results: `disconnectMarked_spec`, `step_cases`, `run_holds`.
-/
import PwrbCore.Chain.Events

namespace PwrbCore

open ParentTree OrderedSet Checked Option ChainGlobals List

variable {genesis h : Uint256} {parentOf : Uint256 → Uint256}

variable {σ : Type}

/-! ## §1. `InvalidateBlock`, `ReconsiderBlock`. -/

variable {st st' : ChainGlobals σ} {rules : ChainRules σ} {ev : IndexEvent σ} {P : ChainGlobals σ → Prop}

namespace ChainGlobals

variable {k : Uint256}

theorem Basic.shorter (b : st.Basic genesis) {t p : Uint256} {below : List Uint256} {coins : σ}
    (hchain : st.chainActive = t :: p :: below) :
    ({ st with chainActive := p :: below, coins := coins } : ChainGlobals σ).Basic genesis := by
  obtain ⟨-, -, hpath, hlinked⟩ := b.parent_path hchain
  exact ⟨b.wired.kept (.of_index rfl rfl rfl), ⟨p, hpath.symm, hlinked⟩, b.candidates, b.statuses, b.stored⟩

/-- `pindex` is not valid, and it is the block or descends from it. -/
def reconsidered (st : ChainGlobals σ) (h k : Uint256) : Bool :=
  !st.isValid k BLOCK_VALID_TRANSACTIONS && decide (st.getAncestor k (st.height h) = some h)

/-- **What `ReconsiderBlock` does**: the flags of the block, its ancestors and descendants are cleared, and
descendants better than the tip are candidates again. -/
theorem reconsiderBlock_spec (st : ChainGlobals σ) (h : Uint256) :
    Kept st (st.reconsiderBlock h) ∧ (st.reconsiderBlock h).chainActive = st.chainActive ∧
      (st.reconsiderBlock h).coins = st.coins ∧ (∀ k, (st.reconsiderBlock h).index k = (st.index k).map fun e =>
        if st.reconsidered h k = true ∨ k ∈ st.path h then e.clearFailed else e) ∧
      ∀ k, k ∈ (st.reconsiderBlock h).setBlockIndexCandidates ↔ k ∈ st.setBlockIndexCandidates ∨
        (st.reconsidered h k = true ∧ st.chainTx k ≠ 0 ∧ st.beatsTip k = true ∧
          ∃ e, st.index k = some e ∧ BLOCK_VALID_TRANSACTIONS ≤ e.nValid) := by
  -- the three steps of the function
  obtain ⟨cleared, hcleared⟩ : ∃ s, s = st.updateAll fun k e =>
    if st.reconsidered h k then e.clearFailed else e := ⟨_, rfl⟩
  have hkept : Kept st cleared := by
    rw [hcleared]
    refine .updateAll st fun k e => ?_
    split_ifs <;> rfl
  have hindex : ∀ k, cleared.index k = (st.index k).map fun e => if st.reconsidered h k then e.clearFailed else e := by
    intro k
    rw [hcleared]
    exact index_updateAll st k _
  have heq : st.reconsiderBlock h = (cleared.insertCandidates fun k => st.reconsidered h k
      && cleared.isValid k BLOCK_VALID_TRANSACTIONS && decide (cleared.chainTx k ≠ 0) && cleared.beatsTip k).updateAll
        fun k e => if k ∈ st.path h then e.clearFailed else e := by
    rw [hcleared]
    rfl
  rw [heq]
  refine ⟨?_, ?_, ?_, fun k => ?_, fun k => ?_⟩
  · have hinsert : ∀ p, Kept cleared (cleared.insertCandidates p) := fun p => .of_index rfl rfl rfl
    refine (hkept.trans (hinsert _)).trans (.updateAll _ fun k e => ?_)
    split_ifs <;> rfl
  · rw [hcleared]
    rfl
  · rw [hcleared]
    rfl
  · rw [index_updateAll]
    show (cleared.index k).map _ = _
    rw [hindex k, Option.map_map]
    congr 1
    funext e
    by_cases hk : st.reconsidered h k = true
    · by_cases hpath : k ∈ st.path h
      · simp [hk, CBlockIndex.clearFailed]
      · simp [hpath]
    · simp [hk]
  · show k ∈ (cleared.insertCandidates _).setBlockIndexCandidates ↔ _
    rw [mem_insertCandidates]
    have hcands : cleared.setBlockIndexCandidates = st.setBlockIndexCandidates := by
      rw [hcleared]
      rfl
    have hbeats : cleared.beatsTip k = st.beatsTip k := by
      unfold beatsTip
      rw [hkept.worse, show cleared.tip = st.tip by rw [hcleared]; rfl]
    rw [hcands, hkept.chainTx]
    refine or_congr_right ?_
    cases he : st.index k with
    | none =>
      rw [hindex k, he]
      simp
    | some e =>
      by_cases hk : st.reconsidered h k = true
      · have hisValid : cleared.isValid k BLOCK_VALID_TRANSACTIONS = decide (BLOCK_VALID_TRANSACTIONS ≤ e.nValid) := by
          unfold isValid
          rw [hindex k, he]
          simp [hk, CBlockIndex.isValid, CBlockIndex.failed, CBlockIndex.clearFailed]
        grind
      · simp [hk]

theorem Basic.reconsidered (b : st.Basic genesis) (h : Uint256) : (st.reconsiderBlock h).Basic genesis := by
  obtain ⟨hkept, hactive, -, hindex, hcands⟩ := reconsiderBlock_spec st h
  refine b.of_kept hkept hactive (fun c hc => ?_) (fun k e' he' => ?_)
  · exact ((hcands c).mp hc).imp id fun hnew => hnew.2.1
  rw [hindex k] at he'
  obtain ⟨e, he, rfl⟩ := map_eq_some_iff.mp he'
  refine ⟨e, he, ?_⟩
  split_ifs <;> exact le_rfl

end ChainGlobals

namespace ChainRules

/-- **The loop of `InvalidateBlock`**: blocks are marked as failed children, leave the candidates and are
disconnected. If no disconnection fails, these are all blocks from the block upwards. -/
theorem disconnectMarked_spec {n : Nat} {r : Bool} (b : st.Basic genesis)
    (hrun : rules.disconnectMarked h n st = (st', r)) :
    st'.Basic genesis ∧ ∃ gone marked, SetAside (fun e => { e with failedChild := true }) marked st st' ∧
      st.chainActive = gone ++ st'.chainActive ∧ (∀ k ∈ marked, ParentTree.Above st.pprev h k) ∧
      (r = true → marked = gone ∧ (st.chainActive.length ≤ n → st'.contains h = false)) := by
  induction n generalizing st with
  | zero =>
    cases hrun
    refine ⟨b, [], [], .refl st', rfl, nofun, fun _ => ⟨rfl, fun hn => ?_⟩⟩
    unfold ChainGlobals.contains
    rw [List.length_eq_zero_iff.mp (Nat.le_zero.mp hn)]
    rfl
  | succ n ih =>
    unfold disconnectMarked at hrun
    obtain ⟨t, ht, -, -⟩ := b.exists_tip
    by_cases hcontains : st.contains h = true
    · rw [if_pos hcontains, ht] at hrun
      dsimp only at hrun
      have hht : Above st.pprev h t := (b.contains_iff ht).mp hcontains
      -- the tip is marked and leaves the candidates
      obtain ⟨s, hs⟩ : ∃ s, (st.markFailedChild t).eraseCandidate t = s := ⟨_, rfl⟩
      obtain ⟨hset, hchain, -⟩ := foldl_setAside _ [t] hs
      have bs := hset.basic b hchain fun _ => rfl
      rw [hs] at hrun
      cases hdisc : rules.disconnectTip s with
      | mk s1 ok =>
        rw [hdisc] at hrun
        cases ok with
        | false =>
          cases hrun
          rw [ChainGlobals.eq_of_disconnectTip_false hdisc]
          refine ⟨bs, [], [t], hset, hchain.symm, fun k hk => ?_, nofun⟩
          rw [List.mem_singleton.mp hk]
          exact hht
        | true =>
          obtain ⟨t', p, below, coins, hlong, rfl, -⟩ := ChainGlobals.disconnectTip_eq hdisc
          obtain ⟨ht', -, -, -⟩ := bs.parent_path hlong
          have htt : t' = t := by
            unfold ChainGlobals.tip at ht ht'
            rw [hchain, ht] at ht'
            exact (Option.some.inj ht').symm
          subst htt
          obtain ⟨b', gone, marked, hset', hgone, habove, hend⟩ := ih (bs.shorter hlong) hrun
          have hpprev : ChainGlobals.pprev { s with chainActive := p :: below, coins := coins } = st.pprev :=
            hset.kept.pprev
          have hshort : SetAside (fun e => { e with failedChild := true }) [t'] st
              { s with chainActive := p :: below, coins := coins } :=
            ⟨hset.kept.trans (.of_index rfl rfl rfl), hset.index, hset.candidates⟩
          refine ⟨b', t' :: gone, t' :: marked, hshort.comp hset' fun _ => rfl, ?_, fun k hk => ?_, fun hr => ?_⟩
          · rw [← hchain, hlong, List.cons_append, ← hgone]
          · grind
          · obtain ⟨hsame, hout⟩ := hend hr
            refine ⟨by rw [hsame], fun hn => hout ?_⟩
            rw [← hchain, hlong] at hn
            exact Nat.le_of_succ_le_succ hn
    · rw [if_neg hcontains] at hrun
      cases hrun
      exact ⟨b, [], [], .refl st', rfl, nofun, fun _ => ⟨rfl, fun _ => by simpa using hcontains⟩⟩

/-- The block is marked and leaves the candidates, before the loop. -/
theorem invalidate_marked (b : st.Basic genesis) (h : Uint256) :
    ((st.markFailedValid h).eraseCandidate h).Basic genesis ∧
      SetAside (fun e => { e with failedValid := true }) [h] st ((st.markFailedValid h).eraseCandidate h) ∧
      ((st.markFailedValid h).eraseCandidate h).chainActive = st.chainActive := by
  have hset := SetAside.one (.markFailedValid st h)
  have hchain := (st.update_fields h fun e => { e with failedValid := true }).1
  exact ⟨hset.basic b hchain fun _ => rfl, hset, hchain⟩

/-- **`InvalidateBlock` keeps what holds between calls**, also when a disconnection fails. -/
theorem invalidateBlock_basic (rules : ChainRules σ) (b : st.Basic genesis) (h : Uint256) :
    (rules.invalidateBlock st h).1.Basic genesis ∧ st.Kept (rules.invalidateBlock st h).1 := by
  obtain ⟨bm, hsetm, -⟩ := invalidate_marked b h
  unfold invalidateBlock
  dsimp only
  cases hloop : rules.disconnectMarked h st.chainActive.length ((st.markFailedValid h).eraseCandidate h) with
  | mk s r =>
    obtain ⟨bs, -, marked, hset, -⟩ := disconnectMarked_spec bm hloop
    have hkept := hsetm.kept.trans hset.kept
    cases r with
    | false => exact ⟨bs, hkept⟩
    | true =>
      refine ⟨?_, hkept.trans (.of_index rfl rfl rfl)⟩
      refine bs.of_kept (.of_index rfl rfl rfl) rfl (fun c hc => ?_) (fun k e he => ⟨e, he, le_rfl⟩)
      rcases mem_insertCandidates.mp hc with hc | ⟨-, htest⟩
      · exact .inl hc
      · rw [Bool.and_eq_true, Bool.and_eq_true, decide_eq_true_iff] at htest
        exact .inr htest.1.2

end ChainRules

/-! ## §2. Runs. -/

def IndexEvent.chainRules : IndexEvent σ → Option (ChainRules σ)
  | .header rules _ => some rules.toChainRules
  | .block rules _ => some rules.toChainRules
  | .accept rules _ => some rules.toChainRules
  | .activate rules _ _ => some rules
  | .invalidate rules _ => some rules
  | .reconsider _ => none

/-- The block an event hands to `AcceptBlock`. -/
def IndexEvent.accepted : IndexEvent σ → Option (AcceptRules σ × CBlock)
  | .block rules new => some (rules, new)
  | .accept rules new => some (rules, new)
  | _ => none

/-- The blocks of the event are of this chain: the first block is `genesis`, and a hash names its parent. -/
def IndexEvent.Proper (genesis : Uint256) (parentOf : Uint256 → Uint256) : IndexEvent σ → Prop
  | .header rules new => rules.params.hashGenesisBlock = genesis ∧ new.hashPrevBlock = parentOf new.hash
  | .block rules new => rules.params.hashGenesisBlock = genesis ∧ new.hashPrevBlock = parentOf new.hash
  | .accept rules new => rules.params.hashGenesisBlock = genesis ∧ new.hashPrevBlock = parentOf new.hash
  | _ => True

namespace ChainGlobals

def run (st : ChainGlobals σ) (evs : List (IndexEvent σ)) : Except Halt (ChainGlobals σ) :=
  evs.foldlM (fun st ev => st.step ev) st

/-- **Where chain selection starts** in an event: from the globals as they are, or after `AcceptBlock` reconsidered a
failed parent. -/
inductive CallsFrom (st : ChainGlobals σ) (rules : ChainRules σ) : IndexEvent σ → ChainGlobals σ → Prop where
  | activate {pblock : Option CBlock} {f : Bool} : CallsFrom st rules (.activate rules pblock f) st
  | reconsidered {arules : AcceptRules σ} {ev : IndexEvent σ} {block : CBlock} {e : CBlockIndex}
      (hrules : arules.toChainRules = rules)
      (hev : ev.accepted = some (arules, block)) (he : st.index block.hashPrevBlock = some e)
      (hfailed : e.failed = true) :
      CallsFrom st rules ev (st.reconsiderBlock block.hashPrevBlock)

theorem CallsFrom.chainRules_eq {st0 : ChainGlobals σ}
    (hcall : st.CallsFrom rules ev st0) : ev.chainRules = some rules := by
  cases hcall with
  | activate => rfl
  | reconsidered hrules hev he hfailed =>
    subst hrules
    cases ev with
    | block _ _ | accept _ _ =>
      cases hev
      rfl
    | header _ _ | activate _ _ _ | invalidate _ _ | reconsider _ => cases hev

/-- **What an event does**: arrivals; chain selection, with a block reconsidered first; an operator's command. -/
theorem step_cases (b : st.Basic genesis) (hn : st.Named parentOf) (hproper : ev.Proper genesis parentOf)
    (hstep : st.step ev = .ok st') : Relation.ReflTransGen (Arrival parentOf) st st' ∨
      (∃ rules st0 pblock f r, st.CallsFrom rules ev st0 ∧ rules.activateBestChain st0 pblock f = .ok (st', r)) ∨
      (∃ rules h, ev = .invalidate rules h ∧ st' = (rules.invalidateBlock st h).1) ∨
      ∃ h, ev = .reconsider h ∧ st' = st.reconsiderBlock h := by
  -- `AcceptBlock`, as both ways of receiving a block call it
  have haccept : ∀ {rules : AcceptRules σ} {block : CBlock} {f : Bool} {r : Validated Unit},
      rules.params.hashGenesisBlock = genesis → block.hashPrevBlock = parentOf block.hash →
        (f = true → block.vtx ≠ []) →
      rules.acceptBlock st block f = .ok (st', r) →
      ev.accepted = some (rules, block) →
      Relation.ReflTransGen (Arrival parentOf) st st' ∨ ∃ rules' st0 pblock f r, st.CallsFrom rules' ev st0 ∧
        rules'.activateBestChain st0 pblock f = .ok (st', r) := by
    intro rules block f r hg hblock hbody hrun hev
    rcases AcceptRules.acceptBlock_cases b hn hg hblock hbody hrun with harrival | ⟨e, r', he, hfailed, hactivate⟩
    · exact .inl harrival
    · exact .inr ⟨_, _, _, _, _, .reconsidered rfl hev he hfailed, hactivate⟩
  unfold step at hstep
  cases ev with
  | header rules block =>
    dsimp only at hstep
    split at hstep
    · rename_i s hrun
      cases hstep
      exact .inl (AcceptRules.acceptBlockHeader_arrival hproper.2 hrun)
    · cases hstep
      exact .inl .refl
  | block rules block =>
    obtain ⟨hg, hblock⟩ := hproper
    obtain ⟨⟨s, r⟩, hrun, rfl⟩ := exists_ok_of_map hstep
    unfold AcceptRules.receiveBlock at hrun
    cases hcheck : rules.checkBlock st block with
    | error err =>
      rw [hcheck] at hrun
      cases hrun
      exact .inl .refl
    | ok u =>
      rw [hcheck] at hrun
      split_ifs at hrun
      · cases hrun
        exact .inl .refl
      · exact (haccept hg hblock (fun _ => rules.checkBlock_ne_nil st block hcheck) hrun rfl).imp_right .inl
  | accept rules block =>
    obtain ⟨hg, hblock⟩ := hproper
    obtain ⟨⟨s, r⟩, hrun, rfl⟩ := exists_ok_of_map hstep
    exact (haccept hg hblock (fun h => by cases h) hrun rfl).imp_right .inl
  | activate rules pblock f =>
    obtain ⟨⟨s, r⟩, hrun, rfl⟩ := exists_ok_of_map hstep
    exact .inr (.inl ⟨rules, st, pblock, f, r, .activate, hrun⟩)
  | invalidate rules h =>
    grind
  | reconsider h =>
    grind

theorem Arrival.named (m : Arrival parentOf st st') (b : st.Basic genesis) (hn : st.Named parentOf) :
    st'.Named parentOf := by
  cases m with
  | header hnew hprev hvalid hname hadd =>
    intro k p hp
    unfold pprev at hp
    rw [index_addToBlockIndex hadd] at hp
    split_ifs at hp with hk
    · rw [hk, ← hname]
      exact (some.inj hp).symm
    · exact hn k p hp
  | refuse => exact hn.kept (.markFailedValid st _)
  | body he hnone hfailed hbody hparent =>
    intro k p hp
    rw [(b.received he hnone hbody hparent).2.pprev] at hp
    exact hn k p hp

structure Coherent (genesis : Uint256) (parentOf : Uint256 → Uint256) (st : ChainGlobals σ) :
    Prop extends Basic genesis st where
  named : st.Named parentOf

theorem Arrival.coherent (m : Arrival parentOf st st') (c : st.Coherent genesis parentOf) :
    st'.Coherent genesis parentOf :=
  ⟨m.basic c.toBasic, m.named c.toBasic c.named⟩

/-- What every arrival keeps in coherent globals, a sequence of arrivals keeps. -/
theorem Arrival.all (ms : Relation.ReflTransGen (Arrival parentOf) st st')
    (c : st.Coherent genesis parentOf) (hst : P st)
    (hkeep : ∀ s s', s.Coherent genesis parentOf → P s → Arrival parentOf s s' → P s') :
    st'.Coherent genesis parentOf ∧ P st' := by
  induction ms with
  | refl => exact ⟨c, hst⟩
  | tail _ hmove ih => exact ⟨hmove.coherent ih.1, hkeep _ _ ih.1 ih.2 hmove⟩

theorem Coherent.reconsidered (c : st.Coherent genesis parentOf) (h : Uint256) :
    (st.reconsiderBlock h).Coherent genesis parentOf :=
  ⟨c.toBasic.reconsidered h, c.named.kept (reconsiderBlock_spec st h).1⟩

/-- **What arrivals, moves and the operator's commands keep, an event keeps.** -/
theorem step_holds (c : st.Coherent genesis parentOf) (hst : P st)
    (hproper : ev.Proper genesis parentOf) (hstep : st.step ev = .ok st')
    (harrival : ∀ s s', s.Coherent genesis parentOf → P s → Arrival parentOf s s' → P s')
    (hmoves : ∀ rules s, ev.chainRules = some rules → s.Basic genesis → P s → rules.Moves (fun _ => True) s st' → P st')
    (hinvalidate : ∀ rules h, ev = .invalidate rules h → P (rules.invalidateBlock st h).1)
    (hreconsider : ∀ h, P (st.reconsiderBlock h)) : P st' := by
  rcases step_cases c.toBasic c.named hproper hstep with
    harrivals | ⟨rules, st0, pblock, f, r, hcall, hrun⟩ | ⟨rules, h, hev, rfl⟩ | ⟨h, -, rfl⟩
  · exact (Arrival.all harrivals c hst harrival).2
  · have hfrom : st0.Basic genesis ∧ P st0 := by
      cases hcall with
      | activate => exact ⟨c.toBasic, hst⟩
      | reconsidered _ _ _ _ => exact ⟨c.toBasic.reconsidered _, hreconsider _⟩
    exact hmoves rules st0 hcall.chainRules_eq hfrom.1 hfrom.2
      (ChainRules.activateBestChain_moves hfrom.1 (fun _ _ => trivial) hrun).1
  · exact hinvalidate rules h hev
  · exact hreconsider h

/-- **What holds between events, one event keeps.** -/
theorem Coherent.step (c : st.Coherent genesis parentOf) (hproper : ev.Proper genesis parentOf)
    (hstep : st.step ev = .ok st') : st'.Coherent genesis parentOf := by
  refine step_holds c c hproper hstep (fun _ _ _ cs m => m.coherent cs) (fun _ _ _ b0 c0 ms => ?_)
    (fun rules h _ => ?_) c.reconsidered
  · exact ⟨ms.basic b0, c0.named.kept ms.kept⟩
  · obtain ⟨b', hkept⟩ := rules.invalidateBlock_basic c.toBasic h
    exact ⟨b', c.named.kept hkept⟩

end ChainGlobals

theorem ChainGlobals.index_init (genesis : CBlock) (coins : σ) (k : Uint256) :
    (init genesis coins).index k = if k = genesis.hash then some (genesisEntry genesis) else none := by
  show ((∅ : StdMap Uint256 CBlockIndex).set genesis.hash _).get k = _
  rw [StdMap.get_set]
  split_ifs
  · rfl
  · rfl

/-- **At the start** the first block is all there is. -/
theorem ChainGlobals.coherent_init {genesis : CBlock} (hne : genesis.vtx ≠ []) (coins : σ)
    (parentOf : Uint256 → Uint256) :
    (init genesis coins).Coherent genesis.hash parentOf := by
  have hindex := index_init genesis coins
  have hlength : genesis.vtx.length ≠ 0 := fun h => hne (length_eq_zero_iff.mp h)
  have hentry : ∀ {k e}, (init genesis coins).index k = some e → k = genesis.hash ∧ e.pprev = none ∧
      e.data = some genesis ∧ e.nChainTx = genesis.vtx.length ∧ e.nValid = BLOCK_VALID_TRANSACTIONS := by simp_all
  have hown := hindex genesis.hash
  rw [if_pos rfl] at hown
  have hlinked : (init genesis coins).chainTx genesis.hash ≠ 0 := by
    rw [chainTx_of_index hown]
    exact hlength
  have hwired : Wired genesis.hash (init genesis coins) := by
    refine { first := ⟨_, hown, rfl, rfl⟩, root := ?_, parent := ?_, bodies := ?_, sequence := ?_,
             settled := ?_, ready := ?_, waiting := ?_, once := nodup_nil, queued := nodup_nil }
    · intro k e he _
      exact (hentry he).1
    · intro k e p he hp
      rw [(hentry he).2.1] at hp
      cases hp
    · intro k e block he hdata
      rw [(hentry he).2.2.1] at hdata
      cases hdata
      exact hne
    · intro k e he h0
      rw [(hentry he).2.2.2.1] at h0
      exact absurd h0 hlength
    · simp_all
    · intro k hk
      cases hk
    · intro p k
      constructor
      · intro hmem
        cases hmem
      · rintro ⟨⟨e, ⟨he, -, -⟩, hp⟩, -⟩
        rw [(hentry he).2.1] at hp
        cases hp
  refine ⟨⟨hwired, ⟨genesis.hash, ?_, hlinked⟩, ?_, ?_, ?_⟩, ?_⟩
  · have hroot : (init genesis coins).path genesis.hash = [genesis.hash] := path_of_root hwired.pprev_genesis
    rw [hroot]
    rfl
  · intro c hc
    rw [mem_singleton.mp hc]
    exact hlinked
  · intro k e he
    rw [(hentry he).2.2.2.2]
    decide
  · grind [readBlockFromDisk]
  · intro k p hp
    obtain ⟨e, he, hep⟩ := known_of_pprev hp
    rw [(hentry he).2.1] at hep
    cases hep

/-- **What a run keeps**: what holds at the start and every event keeps, in coherent globals, holds in every state. -/
theorem ChainGlobals.run_holds {evs : List (IndexEvent σ)} (c : st.Coherent genesis parentOf) (hst : P st)
    (hproper : ∀ ev ∈ evs, ev.Proper genesis parentOf)
    (hkeep : ∀ ev ∈ evs, ∀ s s', s.Coherent genesis parentOf → P s → s.step ev = .ok s' → P s')
    (hrun : st.run evs = .ok st') : st'.Coherent genesis parentOf ∧ P st' := by
  refine foldlM_invariant (fun s => s.Coherent genesis parentOf ∧ P s) (fun ev hev s s' hs hstep => ?_) ⟨c, hst⟩ hrun
  exact ⟨hs.1.step (hproper ev hev) hstep, hkeep ev hev s s' hs.1 hs.2 hstep⟩

theorem ChainGlobals.coherent_run {genesis : CBlock} {coins : σ} {evs : List (IndexEvent σ)} (hne : genesis.vtx ≠ [])
    (hproper : ∀ ev ∈ evs, ev.Proper genesis.hash parentOf) (hrun : (init genesis coins).run evs = .ok st) :
    st.Coherent genesis.hash parentOf :=
  foldlM_invariant _ (fun ev hev _ _ hs hstep => hs.step (hproper ev hev) hstep) (coherent_init hne coins parentOf) hrun

end PwrbCore
