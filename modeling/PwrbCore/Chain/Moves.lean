/-
  Chain.Moves — WHAT CHAIN SELECTION CAN DO TO THE GLOBALS.

  A run of `ActivateBestChain` is a sequence of moves: a block is connected on top of the tip and
  the candidates are pruned, a block turns out invalid, the tip is disconnected, a candidate
  with a failed ancestor is discarded.  Everything said about chain selection is said about
  these moves.

  Main results: `activateBestChain_moves` — every run is such a sequence, and when it returns
  true the tip was the best candidate or no candidate was left; `Move.basic` — a move
  keeps the index wired and the active chain a path of linked blocks;
  `findMostWorkChain_terminates`.
-/
import PwrbCore.Chain.Arrivals

namespace PwrbCore

open ParentTree OrderedSet List Option ChainGlobals CBlockIndex

variable {genesis h t k bad : Uint256} {f : CBlockIndex → CBlockIndex} {e' : CBlockIndex} {n nHeight : Nat}
  {pindexOldTip : Option Uint256} {hs : List Uint256} {fAlreadyChecked : Bool}

variable {σ : Type} {st st' : ChainGlobals σ} {M : Uint256} {rules : ChainRules σ}
  {C : Uint256 → Prop} {coins : σ}

/-! ## §1. States and moves. -/

namespace ChainGlobals

/-- **What holds between any two calls**: the index is wired, the active chain is the path of a linked block,
candidates are linked, headers are valid and bodies those of their blocks. -/
structure Basic (genesis : Uint256) (st : ChainGlobals σ) : Prop where
  wired : Wired genesis st
  active : ∃ t, st.chainActive = st.path t ∧ st.chainTx t ≠ 0
  candidates : ∀ c ∈ st.setBlockIndexCandidates, st.chainTx c ≠ 0
  statuses : ∀ h e, st.index h = some e → BLOCK_VALID_TREE ≤ e.nValid
  stored : ∀ h block, st.readBlockFromDisk h = some block → block.hash = h

variable {a : Uint256}

theorem Kept.readBlockFromDisk (hkept : Kept st st') : st'.readBlockFromDisk = st.readBlockFromDisk := by
  have hjoin : ∀ o : Option CBlockIndex, o.bind data = (o.map data).join := by
    intro o
    cases o <;> rfl
  funext k
  unfold ChainGlobals.readBlockFromDisk
  rw [hjoin, hjoin, hkept.map_eq (g := data) (fun _ => rfl)]

theorem Kept.stored (hkept : Kept st st') (hs : ∀ h block, st.readBlockFromDisk h = some block → block.hash = h) :
    ∀ h block, st'.readBlockFromDisk h = some block → block.hash = h := by
  rw [hkept.readBlockFromDisk]
  exact hs

theorem tip_of_active (hactive : st.chainActive = st.path t) : st.tip = some t := congrArg head? hactive

namespace Basic

section

variable (b : Basic genesis st)

include b

theorem ranked : Ranked st.pprev st.height := b.wired.ranked

theorem exists_tip : ∃ t, st.tip = some t ∧ st.chainActive = st.path t ∧ st.chainTx t ≠ 0 := by
  obtain ⟨t, hactive, hlinked⟩ := b.active
  exact ⟨t, tip_of_active hactive, hactive, hlinked⟩

theorem chainActive_eq (ht : st.tip = some t) : st.chainActive = st.path t := by
  obtain ⟨t', ht', hactive, -⟩ := b.exists_tip
  rw [ht'] at ht
  cases ht
  exact hactive

theorem tip_linked (ht : st.tip = some t) : st.chainTx t ≠ 0 := by
  obtain ⟨t', ht', -, hlinked⟩ := b.exists_tip
  rw [ht'] at ht
  cases ht
  exact hlinked

theorem mem_active (ht : st.tip = some t) : h ∈ st.chainActive ↔ Above st.pprev h t := by
  rw [b.chainActive_eq ht]
  exact mem_path b.ranked

theorem contains_iff (ht : st.tip = some t) : st.contains h = true ↔ Above st.pprev h t := by
  unfold contains
  rw [decide_eq_true_iff, b.mem_active ht]

theorem above_genesis (hlinked : st.chainTx h ≠ 0) : Above st.pprev genesis h := by
  obtain ⟨e, he⟩ := known_of_chainTx hlinked
  exact b.wired.above_genesis he

end

end Basic

/-- Other flags, other linked candidates: what holds between calls stays. -/
theorem Basic.of_kept (b : st.Basic genesis) (hkept : Kept st st') (hactive : st'.chainActive = st.chainActive)
    (hcands : ∀ c ∈ st'.setBlockIndexCandidates, c ∈ st.setBlockIndexCandidates ∨ st.chainTx c ≠ 0)
    (hvalid : ∀ k e', st'.index k = some e' → ∃ e, st.index k = some e ∧ e.nValid ≤ e'.nValid) : st'.Basic genesis := by
  refine ⟨b.wired.kept hkept, ?_, fun c hc => ?_, fun k e' he' => ?_, hkept.stored b.stored⟩
  · rw [hkept.path, hkept.chainTx, hactive]
    exact b.active
  · rw [hkept.chainTx]
    exact (hcands c hc).elim (b.candidates c) id
  · obtain ⟨e, he, hle⟩ := hvalid k e' he'
    exact le_trans (b.statuses k e he) hle

end ChainGlobals

/-- **The moves of chain selection** towards candidates of `C`. -/
inductive ChainRules.Move (rules : ChainRules σ) (C : Uint256 → Prop) : ChainGlobals σ → ChainGlobals σ → Prop where
  /-- a block is connected, and the candidates are pruned -/
  | connect {st st' : ChainGlobals σ} {h M : Uint256} {block : CBlock} {fAlreadyChecked : Bool} {coins : σ}
      (hM : C M) (hway : Above st.pprev h M) (hnext : st.pprev h = st.tip) (hlinked : st.chainTx h ≠ 0)
      (husable : st.failed h = false) (hblock : block.hash = h)
      (hrun : rules.connectBlock st h block fAlreadyChecked = .ok coins)
      (hprune : (st.connected h coins).pruneBlockIndexCandidates = some st') : Move rules C st st'
  /-- a block on top of the tip is invalid -/
  | invalid {st : ChainGlobals σ} {h : Uint256} {block : CBlock} {fAlreadyChecked : Bool} {nDoS : Nat} {reason : String}
      (hnext : st.pprev h = st.tip) (hlinked : st.chainTx h ≠ 0) (husable : st.failed h = false)
      (hblock : block.hash = h)
      (hrun : rules.connectBlock st h block fAlreadyChecked = .error (.invalid nDoS reason false)) :
      Move rules C st ((st.markFailedValid h).eraseCandidate h)
  /-- the tip is disconnected, away from it lies a better block -/
  | disconnect {st st' : ChainGlobals σ} {t M : Uint256} (hM : C M) (ht : st.tip = some t)
      (haway : ¬ Above st.pprev t M) (hrun : rules.disconnectTip st = (st', true)) : Move rules C st st'
  /-- the best candidate has a failed ancestor -/
  | discard {st : ChainGlobals σ} {M bad : Uint256} (hM : st.bestCandidate = some M) (hbad : bad ∈ st.inactivePath M)
      (hfailed : st.failed bad = true) : Move rules C st (st.discardCandidate M bad)

abbrev ChainRules.Moves (rules : ChainRules σ) (C : Uint256 → Prop) : ChainGlobals σ → ChainGlobals σ → Prop :=
  Relation.ReflTransGen (rules.Move C)

/-! ## §2. What a move does. -/

namespace ChainGlobals

theorem pruneBlockIndexCandidates_eq (hprune : st.pruneBlockIndexCandidates = some st') :
    ∃ t, st.tip = some t ∧ st' = { st with
      setBlockIndexCandidates := st.setBlockIndexCandidates.filter fun c => !st.worse c t } := by
  unfold pruneBlockIndexCandidates at hprune
  grind

/-- **After a connection** the block is the tip, its validity raised, and worse candidates are gone. -/
theorem connected_pruned (hprune : (st.connected h coins).pruneBlockIndexCandidates = some st') :
    Kept st st' ∧ st'.chainActive = h :: st.chainActive ∧ st'.coins = coins ∧
      (∀ k, st'.index k = if k = h then (st.index k).map fun e => e.raiseValidity BLOCK_VALID_SCRIPTS else st.index k) ∧
      ∀ k, k ∈ st'.setBlockIndexCandidates ↔ k ∈ st.setBlockIndexCandidates ∧ st.worse k h = false := by
  obtain ⟨-, hcands, hunlinked, hsequence, -⟩ := st.update_fields h fun e => e.raiseValidity BLOCK_VALID_SCRIPTS
  have hkept : Kept st (st.connected h coins) :=
    (Kept.update st h fun e => e.link_raiseValidity BLOCK_VALID_SCRIPTS).trans (.of_index rfl rfl rfl)
  obtain ⟨t, ht, rfl⟩ := pruneBlockIndexCandidates_eq hprune
  have hth : h = t := some.inj ht
  subst hth
  refine ⟨hkept.trans (.of_index rfl rfl rfl), rfl, rfl, fun k => ?_, fun k => ?_⟩
  · exact index_update st h k fun e => e.raiseValidity BLOCK_VALID_SCRIPTS
  rw [hkept.worse]
  have hsame : (st.connected h coins).setBlockIndexCandidates = st.setBlockIndexCandidates := hcands
  rw [hsame]
  simp

/-- **After a disconnection** the parent is the tip. -/
theorem disconnectTip_eq (hrun : rules.disconnectTip st = (st', true)) :
    ∃ t p below coins, st.chainActive = t :: p :: below ∧ st' = { st with chainActive := p :: below, coins := coins } ∧
      ∃ block, st.readBlockFromDisk t = some block ∧ rules.disconnectBlock st block = .ok coins := by
  unfold ChainRules.disconnectTip at hrun
  grind

theorem eq_of_disconnectTip_false (hrun : rules.disconnectTip st = (st', false)) : st' = st := by
  unfold ChainRules.disconnectTip at hrun
  split at hrun
  · grind
  · exact (Prod.mk.inj hrun).1.symm

/-- Entries of the blocks of `c` are changed to ones that are as valid. -/
theorem nValid_le_of_map {c : Uint256 → Prop} [DecidablePred c]
    (hindex : ∀ k, st'.index k = if c k then (st.index k).map f else st.index k) (hf : ∀ e, e.nValid ≤ (f e).nValid)
    (he' : st'.index k = some e') : ∃ e, st.index k = some e ∧ e.nValid ≤ e'.nValid := by
  rw [hindex] at he'
  split_ifs at he'
  · obtain ⟨e, he, rfl⟩ := map_eq_some_iff.mp he'
    exact ⟨e, he, hf e⟩
  · exact ⟨e', he', le_rfl⟩

/-- **Blocks set aside**: the status of the blocks of `l` is changed, and they leave the candidates. -/
structure SetAside (f : CBlockIndex → CBlockIndex) (l : List Uint256) (st st' : ChainGlobals σ) : Prop where
  kept : Kept st st'
  index : ∀ k, st'.index k = if k ∈ l then (st.index k).map f else st.index k
  candidates : ∀ k, k ∈ st'.setBlockIndexCandidates ↔ k ∈ st.setBlockIndexCandidates ∧ k ∉ l

namespace SetAside

variable {l l' : List Uint256} {st'' : ChainGlobals σ}

theorem refl (st : ChainGlobals σ) : SetAside f [] st st := ⟨.refl st, fun _ => rfl, by simp⟩

theorem one (hkept : Kept st (st.update h f)) : SetAside f [h] st ((st.update h f).eraseCandidate h) := by
  refine ⟨hkept.trans (.of_index rfl rfl rfl), fun k => ?_, fun k => ?_⟩
  · simp only [mem_singleton]
    exact index_update st h k f
  · rw [mem_eraseCandidate, (st.update_fields h f).2.1, mem_singleton]

theorem comp (h1 : SetAside f l st st') (h2 : SetAside f l' st' st'') (hidem : ∀ e, f (f e) = f e) :
    SetAside f (l ++ l') st st'' := by
  refine ⟨h1.kept.trans h2.kept, fun k => ?_, fun k => ?_⟩
  · rw [h2.index k, h1.index k]
    cases st.index k <;> grind
  · rw [h2.candidates k, h1.candidates k]
    grind

theorem basic (hset : SetAside f l st st') (b : st.Basic genesis) (hactive : st'.chainActive = st.chainActive)
    (hf : ∀ e, (f e).nValid = e.nValid) : st'.Basic genesis :=
  b.of_kept hset.kept hactive (fun c hc => .inl ((hset.candidates c).mp hc).1) fun _ _ =>
    nValid_le_of_map hset.index fun e => (hf e).ge

end SetAside

theorem foldl_setAside (st : ChainGlobals σ) (l : List Uint256) {st' : ChainGlobals σ}
    (hfold : l.foldl (fun st' h => st'.setAside true h) st = st') :
    SetAside (fun e => { e with failedChild := true }) l st st' ∧ st'.chainActive = st.chainActive ∧
        st'.coins = st.coins := by
  induction l generalizing st with
  | nil =>
    cases hfold
    exact ⟨.refl st, rfl, rfl⟩
  | cons h l ih =>
    obtain ⟨hset, hactive, hcoins⟩ := ih _ hfold
    obtain ⟨hactive1, -, -, -, hcoins1⟩ := st.update_fields h fun e => { e with failedChild := true }
    exact ⟨(SetAside.one (.markFailedChild st h)).comp hset fun _ => rfl, hactive.trans hactive1, hcoins.trans hcoins1⟩

/-- **A discarded candidate**: what lies between it and the failed block is marked, and no candidate. -/
theorem discardCandidate_spec (hfailed : st.failed bad = true) :
    Kept st (st.discardCandidate M bad) ∧ (st.discardCandidate M bad).chainActive = st.chainActive ∧
      (st.discardCandidate M bad).coins = st.coins ∧ (∀ k, (st.discardCandidate M bad).index k
        = if k ∈ (st.path M).takeWhile (fun a => decide (a ≠ bad)) then
            (st.index k).map fun e => { e with failedChild := true } else st.index k) ∧
      ∀ k, k ∈ (st.discardCandidate M bad).setBlockIndexCandidates ↔
        k ∈ st.setBlockIndexCandidates ∧ k ∉ (st.path M).takeWhile (fun a => decide (a ≠ bad)) ∧ k ≠ bad := by
  unfold discardCandidate
  rw [hfailed]
  obtain ⟨hset, hactive, hcoins⟩ := foldl_setAside st ((st.path M).takeWhile fun a => decide (a ≠ bad)) rfl
  refine ⟨hset.kept.trans (.of_index rfl rfl rfl), hactive, hcoins, hset.index, fun k => ?_⟩
  rw [mem_eraseCandidate, hset.candidates k, and_assoc]

theorem Basic.discarded (b : st.Basic genesis) (hfailed : st.failed bad = true) :
    (st.discardCandidate M bad).Basic genesis := by
  obtain ⟨hkept, hactive, -, hindex, hcands⟩ := discardCandidate_spec (M := M) hfailed
  exact b.of_kept hkept hactive (fun c hc => .inl ((hcands c).mp hc).1) fun _ _ =>
    nValid_le_of_map hindex fun _ => le_rfl

end ChainGlobals

theorem CBlockIndex.le_nValid_raiseValidity (e : CBlockIndex) (n : Nat) : e.nValid ≤ (e.raiseValidity n).nValid := by
  unfold raiseValidity
  split_ifs with hfailed hlt
  · exact le_rfl
  · exact le_of_lt hlt
  · exact le_rfl

namespace ChainRules

namespace Move

section

variable (m : rules.Move C st st')

include m

/-- A move changes the status of entries only. -/
theorem kept : st.Kept st' := by
  cases m with
  | connect _ _ _ _ _ _ _ hprune => exact (connected_pruned hprune).1
  | invalid => exact (ChainGlobals.Kept.markFailedValid st _).trans (.of_index rfl rfl rfl)
  | disconnect _ _ _ hrun => grind [disconnectTip_eq, ChainGlobals.Kept.of_index]
  | discard _ _ hfailed => exact (discardCandidate_spec hfailed).1

theorem candidates_sub (hk : k ∈ st'.setBlockIndexCandidates) : k ∈ st.setBlockIndexCandidates := by
  cases m with
  | connect _ _ _ _ _ _ _ hprune => exact ((connected_pruned hprune).2.2.2.2 k |>.mp hk).1
  | invalid =>
    rw [mem_eraseCandidate] at hk
    exact (st.update_fields _ _).2.1 ▸ hk.1
  | disconnect _ _ _ hrun => grind [disconnectTip_eq]
  | discard _ _ hfailed => exact ((discardCandidate_spec hfailed).2.2.2.2 k |>.mp hk).1

/-- Entries are never less valid after a move. -/
theorem nValid_le (he' : st'.index k = some e') : ∃ e, st.index k = some e ∧ e.nValid ≤ e'.nValid := by
  cases m with
  | connect _ _ _ _ _ _ _ hprune =>
    exact nValid_le_of_map (connected_pruned hprune).2.2.2.1 (fun e => e.le_nValid_raiseValidity _) he'
  | invalid =>
    exact nValid_le_of_map (f := fun e => { e with failedValid := true }) (fun k => index_update st _ k _)
      (fun _ => le_rfl) he'
  | disconnect _ _ _ hrun =>
    obtain ⟨t, p, below, coins, -, rfl, -⟩ := disconnectTip_eq hrun
    exact ⟨e', he', le_rfl⟩
  | discard _ _ hfailed => exact nValid_le_of_map (discardCandidate_spec hfailed).2.2.2.1 (fun _ => le_rfl) he'

/-- **How the active chain changes**: one block more, one block less, or not at all. -/
theorem chainActive : (∃ h, st.pprev h = st.tip ∧ st.chainTx h ≠ 0 ∧ st'.chainActive = h :: st.chainActive) ∨
      (∃ t p below, st.chainActive = t :: p :: below ∧ st'.chainActive = p :: below) ∨
      st'.chainActive = st.chainActive := by
  cases m with
  | connect _ _ hnext hlinked _ _ _ hprune =>
    exact .inl ⟨_, hnext, hlinked, (connected_pruned hprune).2.1⟩
  | invalid => exact .inr (.inr (st.update_fields _ _).1)
  | disconnect _ _ _ hrun =>
    obtain ⟨t, p, below, coins, hchain, rfl, -⟩ := disconnectTip_eq hrun
    exact .inr (.inl ⟨t, p, below, hchain, rfl⟩)
  | discard _ _ hfailed => exact .inr (.inr (discardCandidate_spec hfailed).2.1)

end

end Move

end ChainRules

/-- The body of a linked block is on disk. -/
theorem ChainGlobals.Basic.exists_block (b : st.Basic genesis) (hlinked : st.chainTx h ≠ 0) :
    ∃ block, st.readBlockFromDisk h = some block ∧ block.hash = h := by
  have hdata := b.wired.data_of_linked hlinked
  obtain ⟨e, he⟩ := known_of_chainTx hlinked
  rw [haveData_of_index he] at hdata
  obtain ⟨block, hblock⟩ := isSome_iff_exists.mp hdata
  have hread : st.readBlockFromDisk h = some block := by
    unfold readBlockFromDisk
    rw [he, bind_some, hblock]
  exact ⟨block, hread, b.stored h block hread⟩

/-- The path of the tip, without the tip, is the path of its parent. -/
theorem ChainGlobals.Basic.parent_path (b : st.Basic genesis) {p : Uint256}
    {below : List Uint256} (hchain : st.chainActive = t :: p :: below) :
    st.tip = some t ∧ st.pprev t = some p ∧ st.path p = p :: below ∧ st.chainTx p ≠ 0 := by
  have ht : st.tip = some t := congrArg head? hchain
  have hpath := b.chainActive_eq ht
  rw [hchain] at hpath
  cases hp : st.pprev t with
  | none =>
    have hroot : st.path t = [t] := path_of_root hp
    rw [hroot] at hpath
    cases hpath
  | some q =>
    have hcons : st.path t = t :: st.path q := path_of_parent b.ranked hp
    rw [hcons] at hpath
    have hq : p :: below = st.path q := (cons.inj hpath).2
    have hpq : p = q := some.inj (congrArg head? hq)
    subst hpq
    exact ⟨ht, rfl, hq.symm, b.wired.linked_parent (b.tip_linked ht) hp⟩

namespace ChainRules

/-- **A move keeps what holds between calls.** -/
theorem Move.basic (m : rules.Move C st st') (b : st.Basic genesis) : st'.Basic genesis := by
  have hkept := m.kept
  refine ⟨b.wired.kept hkept, ?_, fun c hc => ?_, fun k e' he' => ?_, hkept.stored b.stored⟩
  · rw [hkept.path, hkept.chainTx]
    rcases m.chainActive with ⟨h, hnext, hlinked, hchain⟩ | ⟨t, p, below, hchain, hchain'⟩ | hchain
    · obtain ⟨t, ht, hactive, -⟩ := b.exists_tip
      refine ⟨h, ?_, hlinked⟩
      rw [hchain, hactive]
      exact (path_of_parent b.ranked (hnext.trans ht)).symm
    · obtain ⟨-, -, hpath, hlinked⟩ := b.parent_path hchain
      exact ⟨p, hchain'.trans hpath.symm, hlinked⟩
    · obtain ⟨t, hactive, hlinked⟩ := b.active
      exact ⟨t, hchain.trans hactive, hlinked⟩
  · rw [hkept.chainTx]
    exact b.candidates c (m.candidates_sub hc)
  · obtain ⟨e, he, hle⟩ := m.nValid_le he'
    exact le_trans (b.statuses k e he) hle

section

variable (ms : rules.Moves C st st')

include ms

theorem Moves.holds {P : ChainGlobals σ → Prop} (hst : P st)
    (hstep : ∀ s s', P s → rules.Move C s s' → P s') : P st' := by
  induction ms with
  | refl => exact hst
  | tail _ hmove ih => exact hstep _ _ ih hmove

theorem Moves.basic (b : st.Basic genesis) : st'.Basic genesis :=
  ms.holds (P := fun s => s.Basic genesis) b fun _ _ hs m => m.basic hs

theorem Moves.kept : st.Kept st' :=
  ms.holds (P := fun s => st.Kept s) (.refl st) fun _ _ hs m => hs.trans m.kept

theorem Moves.candidates_sub (hk : k ∈ st'.setBlockIndexCandidates) : k ∈ st.setBlockIndexCandidates := by
  have hall : ∀ k ∈ st'.setBlockIndexCandidates, k ∈ st.setBlockIndexCandidates :=
    ms.holds (P := fun s => ∀ k ∈ s.setBlockIndexCandidates, k ∈ st.setBlockIndexCandidates) (fun _ h => h)
      fun _ _ hs m k hk => hs k (m.candidates_sub hk)
  exact hall k hk

end

end ChainRules

/-! ## §3. `FindMostWorkChain`. -/

namespace ChainGlobals

theorem bestCandidate_spec (hM : st.bestCandidate = some M) :
    M ∈ st.setBlockIndexCandidates ∧ ∀ c ∈ st.setBlockIndexCandidates, st.worse M c = false :=
  last_spec st.worse_strictTotal hM

theorem bestCandidate_eq_none (hnone : st.bestCandidate = none) : st.setBlockIndexCandidates = [] := last_eq_none hnone

theorem foldl_setAside_candidates (f : Bool) (l : List Uint256) (st : ChainGlobals σ) :
    (l.foldl (fun st' h => st'.setAside f h) st).setBlockIndexCandidates
      = st.setBlockIndexCandidates.filter fun k => decide (k ∉ l) := by
  have hone : ∀ (st : ChainGlobals σ) (h : Uint256), (st.setAside f h).setBlockIndexCandidates
      = st.setBlockIndexCandidates.filter fun k => decide (k ≠ h) := by
    intro st h
    unfold setAside
    split_ifs
    · show filter _ (st.markFailedChild h).setBlockIndexCandidates = _
      rw [show (st.markFailedChild h).setBlockIndexCandidates = _ from (st.update_fields h _).2.1]
    · split <;> rfl
  induction l generalizing st with
  | nil => simp
  | cons h l ih =>
    rw [foldl_cons, ih, hone, List.filter_filter]
    grind

/-- Discarding the best candidate takes at least it out of the set. -/
theorem length_discardCandidate (hM : M ∈ st.setBlockIndexCandidates) :
    (st.discardCandidate M bad).setBlockIndexCandidates.length < st.setBlockIndexCandidates.length := by
  have hcands : (st.discardCandidate M bad).setBlockIndexCandidates = (st.setBlockIndexCandidates.filter fun k =>
          decide (k ∉ (st.path M).takeWhile fun a => decide (a ≠ bad))).filter fun c => decide (c ≠ bad) := by
    rw [← foldl_setAside_candidates (st.failed bad)]
    rfl
  rw [hcands, List.filter_filter]
  refine length_filter_lt_length_iff_exists.mpr ⟨M, hM, ?_⟩
  -- the candidate is the failed block itself or lies below it
  by_cases hbad : M = bad
  · simp [hbad]
  have hmem : M ∈ (st.path M).takeWhile fun a => decide (a ≠ bad) := by
    show M ∈ takeWhile _ (M :: _)
    rw [takeWhile_cons_of_pos (by simpa using hbad)]
    exact mem_cons_self
  intro hkept
  rw [Bool.and_eq_true, decide_eq_true_iff, decide_eq_true_iff] at hkept
  exact hkept.2 hmem

/-- **`FindMostWorkChain` terminates** on every finite set of candidates. -/
theorem findMostWorkChain_terminates (st : ChainGlobals σ) : st.findMostWorkChain ≠ .error .running := by
  have hloop : ∀ n (st : ChainGlobals σ), st.setBlockIndexCandidates.length < n →
      findMostWorkLoop n st ≠ .error .running := by
    intro n
    induction n with
    | zero =>
      omega
    | succ n ih =>
      intro st hn
      unfold findMostWorkLoop
      split
      · intro h
        cases h
      rename_i M hM
      split
      · intro h
        cases h
      rename_i bad _
      split_ifs
      · have hshorter : (st.discardCandidate M bad).setBlockIndexCandidates.length
            < st.setBlockIndexCandidates.length := length_discardCandidate (bestCandidate_spec hM).1
        exact ih _ (by omega)
      · intro h
        cases h
  exact hloop _ st (Nat.lt_succ_self _)

end ChainGlobals

namespace ChainRules

/-- **A round of `FindMostWorkChain`** returns the best candidate, with nothing failed on its way, or discards it: all
bodies below a candidate are there. -/
theorem findMostWorkLoop_succ (b : st.Basic genesis) (n : Nat) :
    (findMostWorkLoop (n + 1) st = .ok (st, st.bestCandidate) ∧
      ∀ M, st.bestCandidate = some M → ∀ a ∈ st.inactivePath M, st.failed a = false) ∨
    ∃ M bad, st.bestCandidate = some M ∧ bad ∈ st.inactivePath M ∧ st.failed bad = true ∧
      findMostWorkLoop (n + 1) st = findMostWorkLoop n (st.discardCandidate M bad) := by
  rw [findMostWorkLoop]
  cases hM : st.bestCandidate with
  | none => exact .inl ⟨rfl, by simp⟩
  | some M =>
    dsimp only
    cases hfind : (st.inactivePath M).find? fun a => !st.linkedOrFirst a || st.unusable a with
    | none =>
      refine .inl ⟨rfl, fun M' h a ha => ?_⟩
      cases h
      have hnot := find?_eq_none.mp hfind a ha
      simp_all [unusable]
    | some bad =>
      have hbad := mem_of_find?_eq_some hfind
      have hpred := find?_some hfind
      have hchainTx : st.chainTx bad ≠ 0 := by
        refine b.wired.linked_above (b.candidates M (bestCandidate_spec hM).1) ?_
        rw [← mem_path b.ranked]
        exact (takeWhile_sublist _).subset hbad
      have hlinked : st.linkedOrFirst bad = true := by
        unfold linkedOrFirst
        rw [decide_eq_true hchainTx, Bool.true_or]
      refine .inr ⟨M, bad, rfl, hbad, ?_, if_pos hlinked⟩
      simp_all [unusable, b.wired.data_of_linked]

/-- **`FindMostWorkChain` discards**: what it returns is the best candidate left, with nothing failed on its way. -/
theorem findMostWorkLoop_moves {r : Option Uint256} (b : st.Basic genesis)
    (hrun : findMostWorkLoop n st = .ok (st', r)) :
    rules.Moves C st st' ∧ st'.chainActive = st.chainActive ∧ st'.bestCandidate = r ∧
      ∀ M, r = some M → ∀ a ∈ st'.inactivePath M, st'.failed a = false := by
  induction n generalizing st with
  | zero => cases hrun
  | succ n ih =>
    rcases findMostWorkLoop_succ b n with ⟨heq, husable⟩ | ⟨M, bad, hM, hbad, hfailed, heq⟩
    · rw [heq] at hrun
      cases hrun
      exact ⟨.refl, rfl, rfl, husable⟩
    · rw [heq] at hrun
      have hmove : rules.Move C st (st.discardCandidate M bad) := .discard hM hbad hfailed
      obtain ⟨hmoves, hactive, hrest⟩ := ih (hmove.basic b) hrun
      exact ⟨.head hmove hmoves, hactive.trans (discardCandidate_spec hfailed).2.1, hrest⟩

/-- **`FindMostWorkChain` returns**: it ends, and its assertion does not fire. -/
theorem findMostWorkChain_returns (b : st.Basic genesis) : ∃ st' r, st.findMostWorkChain = .ok (st', r) := by
  have hloop : ∀ n (s : ChainGlobals σ), s.Basic genesis → findMostWorkLoop n s ≠ .error .assertion := by
    intro n
    induction n with
    | zero =>
      intro s _ hrun
      cases hrun
    | succ n ih =>
      intro s bs hrun
      rcases findMostWorkLoop_succ bs n with ⟨heq, -⟩ | ⟨M, bad, -, -, hfailed, heq⟩
      · rw [heq] at hrun
        cases hrun
      · rw [heq] at hrun
        exact ih _ (bs.discarded hfailed) hrun
  cases hrun : st.findMostWorkChain with
  | ok result => exact ⟨result.1, result.2, rfl⟩
  | error halt =>
    cases halt with
    | assertion => exact absurd hrun (hloop _ st b)
    | running => exact absurd hrun st.findMostWorkChain_terminates

end ChainRules

/-! ## §4. `ActivateBestChainStep`. -/

namespace ChainGlobals

/-- **The fork**: the first active block on the way down from `M`. -/
theorem Basic.findFork (b : st.Basic genesis) (ht : st.tip = some t) (hM : st.chainTx M ≠ 0) :
    ∃ f, st.findFork M = some f ∧ Above st.pprev f M ∧ Above st.pprev f t ∧
      (∀ c, Above st.pprev c M → Above st.pprev c t → Above st.pprev c f) ∧
      st.inactivePath M = (st.path M).takeWhile fun a => decide (a ≠ f) := by
  have hcontains : st.contains = fun x => decide (x ∈ st.path t) := by
    funext x
    unfold contains
    rw [b.chainActive_eq ht]
  have hfork := exists_fork b.ranked (b.above_genesis hM) (b.above_genesis (b.tip_linked ht))
  obtain ⟨f, hfind, hfM, hft, hmax, htake⟩ := hfork
  refine ⟨f, ?_, hfM, hft, hmax, ?_⟩
  · unfold ChainGlobals.findFork
    rw [hcontains]
    exact hfind
  · unfold inactivePath
    rw [hcontains]
    exact htake

theorem Basic.mem_inactivePath (b : st.Basic genesis) {f : Uint256}
    (hpath : st.inactivePath M = (st.path M).takeWhile fun a => decide (a ≠ f)) (hfM : Above st.pprev f M)
    (hh : Above st.pprev h M) (hheight : st.height f < st.height h) : h ∈ st.inactivePath M := by
  have hmem : h ∈ st.path M := (mem_path b.ranked).mpr hh
  have hsplit : st.path M = (st.path M).takeWhile (fun a => decide (a ≠ f)) ++ st.path f := path_eq_append b.ranked hfM
  rw [hsplit, mem_append] at hmem
  rcases hmem with hmem | hmem
  · rw [hpath]
    exact hmem
  · have hle := ((mem_path b.ranked).mp hmem).height_le b.ranked
    omega

/-- The blocks of a batch lie on the way to `M`, above `nHeight`. -/
theorem Basic.mem_toConnect (b : st.Basic genesis) {nTargetHeight : Int}
    (hle : (nHeight : Int) ≤ nTargetHeight) (hh : h ∈ st.toConnect M nHeight nTargetHeight) :
    Above st.pprev h M ∧ nHeight < st.height h := by
  unfold toConnect at hh
  cases hanc : st.getAncestor M nTargetHeight.toNat with
  | none =>
    rw [hanc] at hh
    cases hh
  | some a =>
    rw [hanc] at hh
    rw [mem_reverse] at hh
    have haM : Above st.pprev a M := (mem_path b.ranked).mp (mem_of_find?_eq_some hanc)
    have haheight : st.height a = nTargetHeight.toNat := by simpa using find?_some hanc
    have hha : Above st.pprev h a := (mem_path b.ranked).mp ((takeWhile_sublist _).subset hh)
    refine ⟨hha.trans haM, ?_⟩
    have hlevel : (fun x => decide ((st.height x : Int) ≠ (nHeight : Int))) = fun x =>
        decide (st.height x ≠ nHeight) := by
      funext x
      exact decide_eq_decide.mpr (by omega)
    rw [hlevel] at hh
    exact lt_height_of_mem_takeWhile b.ranked (by omega) hh

/-- `GetAncestor` finds a block on every level below a known one. -/
theorem Wired.exists_getAncestor (w : Wired genesis st) {e : CBlockIndex} (he : st.index M = some e)
    (hn : n ≤ st.height M) : ∃ a, st.getAncestor M n = some a ∧ Above st.pprev a M ∧ st.height a = n := by
  have hlevel := (w.above_genesis he).exists_height w.ranked (n := n) (by rw [w.height_genesis]; omega) hn
  obtain ⟨x, hx, hxn⟩ := hlevel
  obtain ⟨a, ha⟩ : ∃ a, st.getAncestor M n = some a := by
    have hsome : (st.getAncestor M n).isSome = true := by
      unfold getAncestor
      rw [find?_isSome]
      exact ⟨x, (mem_path w.ranked).mpr hx, decide_eq_true hxn⟩
    exact isSome_iff_exists.mp hsome
  have haM : Above st.pprev a M := (mem_path w.ranked).mp (mem_of_find?_eq_some ha)
  have hahigh : st.height a = n := by simpa using find?_some ha
  exact ⟨a, ha, haM, hahigh⟩

/-- The last block of a batch is the ancestor of `M` at the target height. -/
theorem Basic.getLast?_toConnect (b : st.Basic genesis) (hM : st.chainTx M ≠ 0) (hlow : nHeight < n)
    (hhigh : n ≤ st.height M) :
    ∃ a, (st.toConnect M nHeight n).getLast? = some a ∧ Above st.pprev a M ∧ st.height a = n := by
  obtain ⟨e, he⟩ := known_of_chainTx hM
  obtain ⟨a, ha, haM, hahigh⟩ := b.wired.exists_getAncestor he hhigh
  refine ⟨a, ?_, haM, hahigh⟩
  unfold toConnect
  rw [Int.toNat_natCast, ha]
  show (reverse (takeWhile _ (a :: _))).getLast? = some a
  rw [takeWhile_cons_of_pos (by simp; omega), getLast?_reverse]
  rfl

theorem failed_connected (hprune : (st.connected h coins).pruneBlockIndexCandidates = some st') :
    st'.failed = st.failed := by
  funext k
  have hflags : ∀ e : CBlockIndex, (e.raiseValidity BLOCK_VALID_SCRIPTS).failed = e.failed := by
    intro e
    unfold raiseValidity
    split_ifs <;> rfl
  unfold failed
  rw [(connected_pruned hprune).2.2.2.1 k]
  split_ifs
  · rw [Option.map_map]
    congr 2
    funext e
    exact hflags e
  · rfl

end ChainGlobals

namespace ChainRules

variable {f : Uint256}

/-- **Chain selection is disturbed**: `ConnectBlock` of the next block gives neither coins nor a verdict, or the tip
cannot be disconnected. -/
def Disturbed (rules : ChainRules σ) (st : ChainGlobals σ) : Prop :=
  (∃ block f e, st.pprev block.hash = st.tip ∧ rules.connectBlock st block.hash block f = .error e ∧
    ∀ nDoS reason, e ≠ .invalid nDoS reason false) ∨
  ∃ block p below e, st.chainActive = block.hash :: p :: below ∧ rules.disconnectBlock st block = .error e

/-- Moves lead to a disturbance. -/
def GetsDisturbed (rules : ChainRules σ) (C : Uint256 → Prop) (st : ChainGlobals σ) : Prop :=
  ∃ s, rules.Moves C st s ∧ rules.Disturbed s

theorem GetsDisturbed.after {st₁ : ChainGlobals σ} (hmoves : rules.Moves C st st₁) :
    rules.GetsDisturbed C st₁ → rules.GetsDisturbed C st
  | ⟨s, hs, hd⟩ => ⟨s, hmoves.trans hs, hd⟩

/-- Why a tip with an active block above it was not disconnected. -/
theorem disconnectTip_eq_false (b : st.Basic genesis) (ht : st.tip = some t) (hft : Above st.pprev f t)
    (hne : f ≠ t) (hrun : rules.disconnectTip st = (st', false)) :
    ∃ block p below e, st.chainActive = block.hash :: p :: below ∧ rules.disconnectBlock st block = .error e := by
  obtain ⟨p, hp⟩ : ∃ p, st.pprev t = some p := by grind [hft.cases]
  have hchain : st.chainActive = t :: st.path p := (b.chainActive_eq ht).trans (path_of_parent b.ranked hp)
  obtain ⟨block, hread, hhash⟩ := b.exists_block (b.tip_linked ht)
  have hcons : st.path p = p :: (st.path p).tail := rfl
  unfold disconnectTip at hrun
  rw [hchain, hcons] at hrun
  dsimp only at hrun
  rw [hread] at hrun
  cases hundo : rules.disconnectBlock st block with
  | error e =>
    refine ⟨block, p, (st.path p).tail, e, ?_, hundo⟩
    rw [hchain, hhash]
    rfl
  | ok coins =>
    dsimp only at hrun
    rw [hundo] at hrun
    cases hrun

variable {r : Bool} {st₁ : ChainGlobals σ} {pblock : Option CBlock}

/-- **Going down to the fork.** -/
theorem disconnectTo_moves (b : st.Basic genesis) (hM : C M) (hfork : ∀ t, st.tip = some t → Above st.pprev f t)
    (hmax : ∀ c t, st.tip = some t → Above st.pprev c M → Above st.pprev c t → Above st.pprev c f)
    (hn : st.chainActive.length ≤ n) (hrun : rules.disconnectTo (some f) n st = (st', r)) :
    rules.Moves C st st' ∧ st'.failed = st.failed ∧ (r = true → st'.tip = some f) ∧
        (r = false → rules.Disturbed st') := by
  induction n generalizing st with
  | zero =>
    obtain ⟨t, ht, -, -⟩ := b.exists_tip
    rw [tip, length_eq_zero_iff.mp (Nat.le_zero.mp hn)] at ht
    cases ht
  | succ n ih =>
    unfold disconnectTo at hrun
    obtain ⟨t, ht, -, -⟩ := b.exists_tip
    by_cases hstop : st.tip = none ∨ st.tip = some f
    · grind
    rw [if_neg hstop] at hrun
    have htf : f ≠ t := fun htf => hstop (.inr (htf ▸ ht))
    -- the tip is above the fork, so it is not on the way to `M`
    have haway : ¬ Above st.pprev t M := fun htM =>
      htf ((hfork t ht).antisymm b.ranked (hmax t t ht htM (.refl st.pprev t)))
    cases hdisc : rules.disconnectTip st with
    | mk st₁ ok =>
      rw [hdisc] at hrun
      cases ok with
      | false =>
        cases hrun
        rw [eq_of_disconnectTip_false hdisc]
        refine ⟨.refl, rfl, fun h => ?_, fun _ => ?_⟩
        · cases h
        · exact .inr (disconnectTip_eq_false b ht (hfork t ht) htf hdisc)
      | true =>
        have hmove : rules.Move C st st₁ := .disconnect hM ht haway hdisc
        obtain ⟨t', p, below, coins, hchain, rfl, -⟩ := disconnectTip_eq hdisc
        obtain ⟨ht', hp, -, -⟩ := b.parent_path hchain
        rw [ht] at ht'
        cases ht'
        have hdown : Above st.pprev f p := by
          rcases (hfork t ht).cases with htf' | ⟨q, hq, hfq⟩
          · exact absurd htf' htf
          · rw [hp] at hq
            cases hq
            exact hfq
        rw [hchain] at hn
        obtain ⟨hmoves, hrest⟩ := ih (hmove.basic b)
          (fun q hq => by cases hq; exact hdown)
          (fun c q hq hcM hcq => by cases hq; exact hmax c t ht hcM (hcq.of_parent hp))
          (Nat.le_of_succ_le_succ hn) hrun
        exact ⟨.head hmove hmoves, hrest⟩

/-- A linked block got a mark. -/
def Marks (st st' : ChainGlobals σ) : Prop := ∃ h, st.chainTx h ≠ 0 ∧ st.failed h = false ∧ st'.failed h = true

theorem Marks.after (hkept : Kept st st₁) (hfailed : st₁.failed = st.failed) : Marks st₁ st' → Marks st st' := by
  unfold Marks
  rw [hkept.chainTx, hfailed]
  exact id

def Gains (pindexOldTip : Option Uint256) (st : ChainGlobals σ) : Prop :=
  ∀ old, pindexOldTip = some old → ∃ t, st.tip = some t ∧ st.work old < st.work t

def BatchResult (rules : ChainRules σ) (C : Uint256 → Prop) (pindexOldTip : Option Uint256) (hs : List Uint256)
    (st st' : ChainGlobals σ) : BatchEnd → Prop
  | .complete => st'.failed = st.failed ∧ st'.tip = hs.getLast?.or st.tip
  | .stopped => Marks st st' ∨ Gains pindexOldTip st' ∨ rules.GetsDisturbed C st
  | .failed => rules.GetsDisturbed C st

theorem BatchResult.cons {r : BatchEnd}
    (hmove : rules.Move C st st₁) (hfailed : st₁.failed = st.failed) (htip : st₁.tip = some h)
    (hres : BatchResult rules C pindexOldTip hs st₁ st' r) : BatchResult rules C pindexOldTip (h :: hs) st st' r := by
  cases r with
  | complete =>
    refine ⟨hres.1.trans hfailed, hres.2.trans ?_⟩
    rw [htip]
    cases hs with
    | nil => rfl
    | cons k hs => grind
  | stopped =>
    rcases hres with hmarks | hgains | hd
    · exact .inl (hmarks.after hmove.kept hfailed)
    · exact .inr (.inl hgains)
    · exact .inr (.inr (hd.after (.single hmove)))
  | failed => exact hres.after (.single hmove)

/-- **Connecting a batch** on the way to `M`: the only halt is an assertion. -/
theorem connectBatch_ends (rules : ChainRules σ) (pindexOldTip : Option Uint256) (fAlreadyChecked : Bool)
    (b : st.Basic genesis) (hM : C M)
    (hhs : ∀ h ∈ hs, Above st.pprev h M ∧ st.chainTx h ≠ 0 ∧ st.failed h = false)
    (hpblock : ∀ block, pblock = some block → block.hash = M) :
    rules.connectBatch M pindexOldTip pblock fAlreadyChecked hs st = .error .assertion ∨
      ∃ st' r, rules.connectBatch M pindexOldTip pblock fAlreadyChecked hs st = .ok (st', r) ∧
        rules.Moves C st st' ∧ BatchResult rules C pindexOldTip hs st st' r := by
  induction hs generalizing st with
  | nil => exact .inr ⟨st, .complete, rfl, .refl, rfl, rfl⟩
  | cons h hs ih =>
    obtain ⟨hway, hlinked, husable⟩ := hhs h mem_cons_self
    unfold connectBatch connectTip
    by_cases hnext : st.pprev h = st.tip
    · rw [if_neg (not_not.mpr hnext)]
      cases hread : (if h = M then pblock else none).or (st.readBlockFromDisk h) with
      | none =>
        obtain ⟨block, hdisk, -⟩ := b.exists_block hlinked
        rw [(or_eq_none_iff.mp hread).2] at hdisk
        cases hdisk
      | some block =>
        have hblock : block.hash = h := by
          rcases or_eq_some_iff.mp hread with hown | ⟨-, hdisk⟩
          · split_ifs at hown with hhM
            rw [hhM]
            exact hpblock block hown
          · exact b.stored h block hdisk
        subst hblock
        dsimp only
        cases hconnect : rules.connectBlock st block.hash block
            ((if block.hash = M then pblock else none).isSome && fAlreadyChecked) with
        | error e =>
          by_cases hverdict : ∃ nDoS reason, e = .invalid nDoS reason false
          · -- the block is invalid and gets its mark
            obtain ⟨nDoS, reason, rfl⟩ := hverdict
            refine .inr ⟨_, .stopped, rfl, .single (.invalid hnext hlinked husable rfl hconnect), .inl ?_⟩
            obtain ⟨entry, hentry⟩ := known_of_chainTx hlinked
            have hmarked : ((st.markFailedValid block.hash).eraseCandidate block.hash).index block.hash
                = some { entry with failedValid := true } := by
              refine (index_update st block.hash block.hash fun e => { e with failedValid := true }).trans ?_
              rw [if_pos rfl, hentry]
              rfl
            refine ⟨block.hash, hlinked, husable, ?_⟩
            show ((st.markFailedValid block.hash).eraseCandidate block.hash).failed block.hash = true
            rw [failed_of_index hmarked]
            rfl
          · -- no verdict: the globals stay as they are
            have hdisturbed : rules.Disturbed st :=
              .inl ⟨block, _, e, hnext, hconnect, fun nDoS reason he => hverdict ⟨nDoS, reason, he⟩⟩
            have hsame : st.invalidBlockFound block.hash e = st := by
              unfold invalidBlockFound
              split
              · exact absurd ⟨_, _, rfl⟩ hverdict
              · rfl
            dsimp only
            rw [hsame]
            refine .inr ⟨st, _, rfl, .refl, ?_⟩
            split_ifs
            · exact .inr (.inr ⟨st, .refl, hdisturbed⟩)
            · exact ⟨st, .refl, hdisturbed⟩
        | ok coins =>
          dsimp only
          cases hprune : (st.connected block.hash coins).pruneBlockIndexCandidates with
          | none => exact .inl rfl
          | some st₁ =>
            have hmove : rules.Move C st st₁ := .connect hM hway hnext hlinked husable rfl hconnect hprune
            have hfailed1 := failed_connected hprune
            have htip1 : st₁.tip = some block.hash := congrArg head? (connected_pruned hprune).2.1
            dsimp only
            split_ifs with hbetter
            · refine .inr ⟨st₁, .stopped, rfl, .single hmove, .inr (.inl ?_)⟩
              intro old hold
              unfold betterThan at hbetter
              rw [hold, htip1] at hbetter
              exact ⟨block.hash, htip1, by simpa using hbetter⟩
            · have hrest := ih (hmove.basic b) (fun k hk => by
                rw [hmove.kept.pprev, hmove.kept.chainTx, hfailed1]
                exact hhs k (mem_cons_of_mem _ hk))
              rcases hrest with hhalt | ⟨st₂, r, hrun, hmoves, hres⟩
              · exact .inl hhalt
              · grind [Relation.ReflTransGen.head, hres.cons]
    · rw [if_pos hnext]
      exact .inl rfl

/-- The end of a step towards `M`: the block is the tip, or there is a reason why not. -/
def StepResult (rules : ChainRules σ) (C : Uint256 → Prop) (M : Uint256) (pindexOldTip : Option Uint256)
    (st st' : ChainGlobals σ) (r : Bool) : Prop :=
  rules.GetsDisturbed C st ∨ (r = true ∧ (st'.tip = some M ∨ Marks st st' ∨ Gains pindexOldTip st'))

theorem StepResult.after (hmoves : rules.Moves C st st₁)
    (hfailed : st₁.failed = st.failed) (hres : StepResult rules C M pindexOldTip st₁ st' r) :
    StepResult rules C M pindexOldTip st st' r := by
  rcases hres with hd | ⟨hr, htip | hmarks | hgains⟩
  · exact .inl (hd.after hmoves)
  · exact .inr ⟨hr, .inl htip⟩
  · exact .inr ⟨hr, .inr (.inl (hmarks.after hmoves.kept hfailed))⟩
  · exact .inr ⟨hr, .inr (.inr hgains)⟩

/-- **All batches**: each goes at least one block higher, so the turns are enough. -/
theorem connectBatches_ends (rules : ChainRules σ) (pindexOldTip : Option Uint256) (fAlreadyChecked : Bool)
    (b : st.Basic genesis) (hM : C M) (hlinked : st.chainTx M ≠ 0)
    (hwhere : ∃ t, st.tip = some t ∧ Above st.pprev t M ∧ st.height t = nHeight)
    (hway : ∀ h, Above st.pprev h M → nHeight < st.height h → st.failed h = false)
    (hpblock : ∀ block, pblock = some block → block.hash = M) (hn : st.height M < nHeight + n) :
    rules.connectBatches M pindexOldTip pblock fAlreadyChecked n nHeight st = .error .assertion ∨
      ∃ st' r, rules.connectBatches M pindexOldTip pblock fAlreadyChecked n nHeight st = .ok (st', r) ∧
        rules.Moves C st st' ∧ StepResult rules C M pindexOldTip st st' r := by
  induction n generalizing st nHeight with
  | zero =>
    obtain ⟨t, -, htM, hheight⟩ := hwhere
    have hle := htM.height_le b.ranked
    omega
  | succ n ih =>
    obtain ⟨t, ht, htM, hheight⟩ := hwhere
    have hle : nHeight ≤ st.height M := by
      rw [← hheight]
      exact htM.height_le b.ranked
    unfold connectBatches
    by_cases hdone : (nHeight : Int) = st.height M
    · -- the tip is as high as `M`, so it is `M`
      rw [if_pos hdone]
      refine .inr ⟨st, true, rfl, .refl, .inr ⟨rfl, .inl ?_⟩⟩
      rw [ht, htM.eq_of_height b.ranked (by omega)]
    rw [if_neg hdone]
    dsimp only
    have htarget : (nHeight : Int) ≤ min ((nHeight : Int) + 32) (st.height M) := by omega
    have hbatch := connectBatch_ends rules pindexOldTip fAlreadyChecked b hM (fun h hh => by
      obtain ⟨hhM, habove⟩ := b.mem_toConnect htarget hh
      exact ⟨hhM, b.wired.linked_above hlinked hhM, hway h hhM habove⟩) hpblock
    rcases hbatch with hhalt | ⟨st₁, ending, hrun, hmoves, hres⟩
    · rw [hhalt]
      exact .inl rfl
    rw [hrun]
    cases ending with
    | stopped =>
      refine .inr ⟨st₁, true, rfl, hmoves, ?_⟩
      rcases hres with hmarks | hgains | hdisturbed
      · exact .inr ⟨rfl, .inr (.inl hmarks)⟩
      · exact .inr ⟨rfl, .inr (.inr hgains)⟩
      · exact .inl hdisturbed
    | failed => exact .inr ⟨st₁, false, rfl, hmoves, .inl hres⟩
    | complete =>
      obtain ⟨hfailed, htip⟩ := hres
      have hkept := hmoves.kept
      have hnat : min ((nHeight : Int) + 32) (st.height M) = ((min (nHeight + 32) (st.height M) : Nat) : Int) := by
        omega
      have hlow : nHeight < min (nHeight + 32) (st.height M) := by omega
      obtain ⟨a, hlast, haM, hahigh⟩ := b.getLast?_toConnect hlinked hlow (by omega)
      rw [hnat] at htip ⊢
      rw [hlast] at htip
      have hwhere' : ∃ t, st₁.tip = some t ∧ Above st₁.pprev t M ∧ st₁.height t = min (nHeight + 32) (st.height M) := by
        simp [hkept.pprev, hkept.height, htip, haM, hahigh]
      have hway' : ∀ h, Above st₁.pprev h M → min (nHeight + 32) (st.height M) < st₁.height h →
          st₁.failed h = false := by
        intro h hhM hhigh
        rw [hkept.pprev] at hhM
        rw [hkept.height] at hhigh
        rw [hfailed]
        exact hway h hhM (by omega)
      have hrest := ih (hmoves.basic b) (by rw [hkept.chainTx]; exact hlinked) hwhere' hway' (by
        rw [hkept.height]
        omega)
      rcases hrest with hhalt | ⟨st₂, r, hrun2, hmoves2, hres2⟩
      · exact .inl hhalt
      · exact .inr ⟨st₂, r, hrun2, hmoves.trans hmoves2, hres2.after hmoves hfailed⟩

/-- **A step of `ActivateBestChain`** towards a candidate with nothing failed on its way. -/
theorem activateBestChainStep_ends (rules : ChainRules σ) (fAlreadyChecked : Bool)
    (b : st.Basic genesis) (hM : C M) (hlinked : st.chainTx M ≠ 0)
    (husable : ∀ a ∈ st.inactivePath M, st.failed a = false)
    (hpblock : ∀ block, pblock = some block → block.hash = M) :
    rules.activateBestChainStep st M pblock fAlreadyChecked = .error .assertion ∨
      ∃ st' r, rules.activateBestChainStep st M pblock fAlreadyChecked = .ok (st', r) ∧ rules.Moves C st st' ∧
        StepResult rules C M st.tip st st' r := by
  obtain ⟨t, ht, -, -⟩ := b.exists_tip
  obtain ⟨f, hfind, hfM, hft, hmax, hpath⟩ := b.findFork ht hlinked
  unfold activateBestChainStep
  dsimp only
  rw [hfind]
  cases hdown : rules.disconnectTo (some f) st.chainActive.length st with
  | mk st₁ ok =>
    obtain ⟨hmoves, hfailed, hreached, hdisturbed⟩ := disconnectTo_moves (C := C) (M := M) b hM
      (fun t' ht' => by rw [ht] at ht'; cases ht'; exact hft)
      (fun c t' ht' hcM hct => by rw [ht] at ht'; cases ht'; exact hmax c hcM hct) (le_rfl) hdown
    cases ok with
    | false => exact .inr ⟨st₁, false, rfl, hmoves, .inl ⟨st₁, hmoves, hdisturbed rfl⟩⟩
    | true =>
      have hkept := hmoves.kept
      have hwhere : ∃ t, st₁.tip = some t ∧ Above st₁.pprev t M ∧ st₁.height t = st₁.height f := by
        refine ⟨f, hreached rfl, ?_, rfl⟩
        rw [hkept.pprev]
        exact hfM
      have hway : ∀ h, Above st₁.pprev h M → st₁.height f < st₁.height h → st₁.failed h = false := by
        intro h hhM hheight
        rw [hkept.pprev] at hhM
        rw [hkept.height] at hheight
        rw [hfailed]
        exact husable h (b.mem_inactivePath hpath hfM hhM hheight)
      have hrest := connectBatches_ends rules st.tip fAlreadyChecked (n := st₁.height M + 2) (hmoves.basic b) hM
        (by rw [hkept.chainTx]; exact hlinked) hwhere hway hpblock (by omega)
      rcases hrest with hhalt | ⟨st₂, r, hrun, hmoves2, hres⟩
      · exact .inl hhalt
      · exact .inr ⟨st₂, r, hrun, hmoves.trans hmoves2, hres.after hmoves hfailed⟩

/-! ## §5. `ActivateBestChain`. -/

theorem Moves.mono {C' : Uint256 → Prop} (hC : ∀ k, C k → C' k) (ms : rules.Moves C st st') :
    rules.Moves C' st st' := by
  refine Relation.ReflTransGen.mono (fun s s' m => ?_) _ _ ms
  cases m with
  | connect hM hway hnext hlinked husable hblock hrun hprune =>
    exact .connect (hC _ hM) hway hnext hlinked husable hblock hrun hprune
  | invalid hnext hlinked husable hblock hrun => exact .invalid hnext hlinked husable hblock hrun
  | disconnect hM ht haway hrun => exact .disconnect (hC _ hM) ht haway hrun
  | discard hM hbad hfailed => exact .discard hM hbad hfailed

/-- **What a run of `ActivateBestChain` ended with.** True: no candidate was left, or the tip was the best candidate
and all moves since were towards it. False: chain selection was disturbed. -/
def LoopResult (rules : ChainRules σ) (C : Uint256 → Prop) (st st' : ChainGlobals σ) : Bool → Prop
  | true => ∃ s, rules.Moves C st s ∧ ((s.bestCandidate = none ∧ s = st') ∨
        ∃ M, s.bestCandidate = some M ∧ rules.Moves (fun k => k = M) s st' ∧ st'.tip = some M)
  | false => rules.GetsDisturbed C st

theorem LoopResult.after (hmoves : rules.Moves C st st₁)
    (hres : LoopResult rules C st₁ st' r) : LoopResult rules C st st' r := by
  cases r with
  | true =>
    obtain ⟨s, hs, hend⟩ := hres
    exact ⟨s, hmoves.trans hs, hend⟩
  | false => exact hres.after hmoves

/-- **How a turn of the loop went on** from the globals after `FindMostWorkChain`. -/
inductive TurnResult (rules : ChainRules σ) (C : Uint256 → Prop) (pblock : Option CBlock)
    (fAlreadyChecked : Bool) (n : Nat)
    (st₁ : ChainGlobals σ) : Except Halt (ChainGlobals σ × Bool) → Prop where
  /-- no candidate is left -/
  | none (hnone : st₁.bestCandidate = none) : TurnResult rules C pblock fAlreadyChecked n st₁ (.ok (st₁, true))
  /-- the best candidate is the tip -/
  | tip {M : Uint256} (hM : st₁.bestCandidate = some M) (htip : st₁.tip = some M) :
      TurnResult rules C pblock fAlreadyChecked n st₁ (.ok (st₁, true))
  | assertion : TurnResult rules C pblock fAlreadyChecked n st₁ (.error .assertion)
  /-- the step failed -/
  | failed {st₂ : ChainGlobals σ} (hmoves : rules.Moves C st₁ st₂) (hd : rules.GetsDisturbed C st₁) :
      TurnResult rules C pblock fAlreadyChecked n st₁ (.ok (st₂, false))
  /-- the step reached the best candidate -/
  | reached {M : Uint256} {st₂ : ChainGlobals σ} (hM : st₁.bestCandidate = some M)
      (hmoves : rules.Moves (fun k => k = M) st₁ st₂) (htip : st₂.tip = some M) :
      TurnResult rules C pblock fAlreadyChecked n st₁ (.ok (st₂, true))
  /-- the step did not, and the loop goes on -/
  | goOn {M : Uint256} {st₂ : ChainGlobals σ} (hM : st₁.bestCandidate = some M)
      (hmoves : rules.Moves (fun k => k = M) st₁ st₂)
      (hwhy : rules.GetsDisturbed C st₁ ∨ Marks st₁ st₂ ∨ Gains st₁.tip st₂) :
      TurnResult rules C pblock fAlreadyChecked n st₁ (rules.activateLoop pblock fAlreadyChecked n st₂)

/-- **A turn of the loop**: candidates are discarded, then the best is the tip, or a step goes towards it. -/
theorem activateLoop_turn (rules : ChainRules σ) (pblock : Option CBlock) (fAlreadyChecked : Bool) (n : Nat)
    (b : st.Basic genesis) (hC : ∀ c ∈ st.setBlockIndexCandidates, C c) :
    ∃ st₁, rules.Moves C st st₁ ∧ st₁.chainActive = st.chainActive ∧
      TurnResult rules C pblock fAlreadyChecked n st₁ (rules.activateLoop pblock fAlreadyChecked (n + 1) st) := by
  obtain ⟨st₁, best, hfind⟩ := findMostWorkChain_returns b
  have hfound : rules.Moves C st st₁ ∧ st₁.chainActive = st.chainActive ∧ st₁.bestCandidate = best ∧
      ∀ M, best = some M → ∀ a ∈ st₁.inactivePath M, st₁.failed a = false := findMostWorkLoop_moves b hfind
  obtain ⟨hmoves, hactive, hbest, husable⟩ := hfound
  have b1 := hmoves.basic b
  refine ⟨st₁, hmoves, hactive, ?_⟩
  unfold activateLoop
  rw [hfind]
  cases best with
  | none => exact .none hbest
  | some M =>
    have hMmem := (bestCandidate_spec hbest).1
    have hMC : ∀ k, k = M → C k := fun k hk => hk ▸ hC M (hmoves.candidates_sub hMmem)
    dsimp only
    by_cases htip : st₁.tip = some M
    · rw [if_pos htip]
      exact .tip hbest htip
    rw [if_neg htip]
    have hpblock : ∀ block, pblock.filter (fun block => decide (block.hash = M)) = some block → block.hash = M :=
      fun block hblock => by simpa using (filter_eq_some_iff.mp hblock).2
    have hends := activateBestChainStep_ends (C := fun k => k = M) rules fAlreadyChecked b1 rfl (b1.candidates M hMmem)
      (husable M rfl) hpblock
    rcases hends with hhalt | ⟨st₂, r, hstep, hmoves2, hres⟩
    · rw [hhalt]
      exact .assertion
    rw [hstep]
    have hdisturbed : rules.GetsDisturbed (fun k => k = M) st₁ → rules.GetsDisturbed C st₁ :=
      fun ⟨s, hs, hd⟩ => ⟨s, .mono hMC hs, hd⟩
    cases r with
    | false =>
      rcases hres with hd | ⟨hr, -⟩
      · exact .failed (.mono hMC hmoves2) (hdisturbed hd)
      · cases hr
    | true =>
      dsimp only
      split_ifs with hreached
      · exact .reached hbest hmoves2 hreached
      refine .goOn hbest hmoves2 ?_
      rcases hres with hd | ⟨-, ht | hmarks | hgains⟩
      · exact .inl (hdisturbed hd)
      · exact absurd ht hreached
      · exact .inr (.inl hmarks)
      · exact .inr (.inr hgains)

/-- **A run of `ActivateBestChain`** is a sequence of moves towards candidates. -/
theorem activateLoop_moves (b : st.Basic genesis) (hC : ∀ c ∈ st.setBlockIndexCandidates, C c)
    (hrun : rules.activateLoop pblock fAlreadyChecked n st = .ok (st', r)) :
    rules.Moves C st st' ∧ LoopResult rules C st st' r := by
  induction n generalizing st with
  | zero => cases hrun
  | succ n ih =>
    obtain ⟨st₁, hmoves, -, hturn⟩ := activateLoop_turn rules pblock fAlreadyChecked n b hC
    have hMC : ∀ {M}, st₁.bestCandidate = some M → ∀ k, k = M → C k := fun hM k hk =>
      hk ▸ hC _ (hmoves.candidates_sub (bestCandidate_spec hM).1)
    rw [hrun] at hturn
    generalize hres : (.ok (st', r) : Except Halt (ChainGlobals σ × Bool)) = res at hturn
    cases hturn with
    | none hnone =>
      cases hres
      exact ⟨hmoves, st', hmoves, .inl ⟨hnone, rfl⟩⟩
    | tip hM htip =>
      cases hres
      exact ⟨hmoves, st', hmoves, .inr ⟨_, hM, .refl, htip⟩⟩
    | assertion => cases hres
    | failed hmoves2 hd =>
      cases hres
      exact ⟨hmoves.trans hmoves2, hd.after hmoves⟩
    | reached hM hmoves2 htip =>
      cases hres
      exact ⟨hmoves.trans (Moves.mono (hMC hM) hmoves2), st₁, hmoves, .inr ⟨_, hM, hmoves2, htip⟩⟩
    | goOn hM hmoves2 hwhy =>
      rename_i M st₂
      have hall : rules.Moves C st st₂ := hmoves.trans (Moves.mono (hMC hM) hmoves2)
      obtain ⟨hmoves3, hres3⟩ := ih (hall.basic b) (fun c hc => hC c (hall.candidates_sub hc)) hres.symm
      exact ⟨hall.trans hmoves3, hres3.after hall⟩

theorem activateBestChain_moves (b : st.Basic genesis) (hC : ∀ c ∈ st.setBlockIndexCandidates, C c)
    (hrun : rules.activateBestChain st pblock fAlreadyChecked = .ok (st', r)) :
    rules.Moves C st st' ∧ LoopResult rules C st st' r :=
  activateLoop_moves b hC hrun

end ChainRules

end PwrbCore
