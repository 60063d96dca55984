/-
  Chain.Candidates — NO CANDIDATE IS FORGOTTEN (`setBlockIndexCandidates` in `ActivateBestChain`,
  `InvalidateBlock` and `ReconsiderBlock` of `main.cpp`).

  A candidate leaves the set when it is worse than the tip, or when it is failed.  While chain selection runs
  the tip may get worse again, so what the set is complete for is the best block `θ` that was connected so far.
  `ReconsiderBlock` clears the marks of a block, of its descendants and of its ancestors; where an
  ancestor was marked, the descendants of that one keep their marks.

  Main results: `check_block_index_passes`, `reconsidered_sibling_forgotten`.
-/
import PwrbCore.Chain.CheckBlockIndex

namespace PwrbCore

open ParentTree OrderedSet Checked List Option CBlockIndex ChainRules

variable {k θ : Uint256} {N : Uint256 → Prop} {e : CBlockIndex} {block : CBlock} {f : Bool}

variable {σ : Type} {genesis : Uint256} {parentOf : Uint256 → Uint256} {valid : Uint256 → Bool}
  {Fits : List Uint256 → σ → Prop} {st st' : ChainGlobals σ} {h : Uint256}

/-! ## §1. Marks. -/

variable {rules : ChainRules σ}

theorem CBlockIndex.failedValid_raiseValidity (e : CBlockIndex) (n : Nat) :
    (e.raiseValidity n).failedValid = e.failedValid := by
  unfold raiseValidity
  split_ifs <;> rfl

namespace ChainGlobals

theorem known_of_failed (hk : st.failed k = true) : ∃ e, st.index k = some e := by
  unfold failed at hk
  cases hek : st.index k with
  | some e => exact ⟨e, rfl⟩
  | none =>
    rw [hek] at hk
    cases hk

/-- **The blocks of `N` are marked**, each below an invalid one, and the candidates that go are failed. -/
structure Marked (N : Uint256 → Prop) (st st' : ChainGlobals σ) : Prop where
  kept : Kept st st'
  failed : ∀ k, st'.failed k = true ↔ st.failed k = true ∨ N k
  invalid : ∀ a e, st.index a = some e → e.failedValid = true → ∃ e', st'.index a = some e' ∧ e'.failedValid = true
  blamed : ∀ k, N k → ∃ a e', Above st.pprev a k ∧ st'.index a = some e' ∧ e'.failedValid = true
  candidates : ∀ k ∈ st.setBlockIndexCandidates, k ∈ st'.setBlockIndexCandidates ∨ st'.failed k = true
  fewer : ∀ k ∈ st'.setBlockIndexCandidates, k ∈ st.setBlockIndexCandidates

theorem marked_invalid (he : st.index h = some e) (hkept : Kept st st')
    (hindex : ∀ k, st'.index k = if k = h then (st.index k).map fun e => { e with failedValid := true } else st.index k)
    (hout : ∀ k ∈ st.setBlockIndexCandidates, k ≠ h → k ∈ st'.setBlockIndexCandidates)
    (hin : ∀ k ∈ st'.setBlockIndexCandidates, k ∈ st.setBlockIndexCandidates) : Marked (fun k => k = h) st st' := by
  have hown : st'.index h = some { e with failedValid := true } := by
    rw [hindex, if_pos rfl, he]
    rfl
  have hfailed : ∀ k, st'.failed k = true ↔ st.failed k = true ∨ k = h := by
    intro k
    by_cases hk : k = h
    · subst hk
      refine iff_of_true ?_ (.inr rfl)
      rw [failed_of_index hown]
      rfl
    · rw [or_iff_left hk]
      unfold failed
      rw [hindex, if_neg hk]
  refine ⟨hkept, hfailed, fun a ea hea hinvalid => ?_, fun k hk => ⟨h, _, ?_, hown, rfl⟩, fun k hk => ?_, hin⟩
  · rw [hindex, hea]
    split_ifs
    · exact ⟨_, rfl, rfl⟩
    · exact ⟨ea, rfl, hinvalid⟩
  · rw [hk]
    exact .refl _ _
  · grind

theorem marked_children {l : List Uint256} (hkept : Kept st st')
    (hindex : ∀ k, st'.index k = if k ∈ l then (st.index k).map fun e => { e with failedChild := true } else st.index k)
    (hknown : ∀ k ∈ l, ∃ e, st.index k = some e)
    (hblame : ∀ k ∈ l, ∃ a e, Above st.pprev a k ∧ st.index a = some e ∧ e.failedValid = true)
    (hout : ∀ k ∈ st.setBlockIndexCandidates, k ∉ l → k ∈ st'.setBlockIndexCandidates ∨ st.failed k = true)
    (hin : ∀ k ∈ st'.setBlockIndexCandidates, k ∈ st.setBlockIndexCandidates) : Marked (fun k => k ∈ l) st st' := by
  have hfailed : ∀ k, st'.failed k = true ↔ st.failed k = true ∨ k ∈ l := by
    intro k
    by_cases hk : k ∈ l
    · obtain ⟨e, he⟩ := hknown k hk
      refine iff_of_true ?_ (.inr hk)
      have hown : st'.index k = some { e with failedChild := true } := by
        rw [hindex, if_pos hk, he]
        rfl
      rw [failed_of_index hown]
      exact Bool.or_true _
    · rw [or_iff_left hk]
      unfold failed
      rw [hindex, if_neg hk]
  have hinvalid : ∀ a e, st.index a = some e → e.failedValid = true → ∃ e', st'.index a = some e' ∧
      e'.failedValid = true := by
    grind
  refine ⟨hkept, hfailed, hinvalid, fun k hk => ?_, fun k hk => ?_, hin⟩
  · grind
  · grind

namespace Marked

theorem not_failed (m : Marked N st st') (hclean : st.failed k = false) (hN : ¬ N k) : st'.failed k = false := by
  rw [Bool.eq_false_iff, ne_eq, m.failed k, hclean]
  intro hor
  rcases hor with hfalse | hk
  · cases hfalse
  · exact hN hk

theorem blames (m : Marked N st st') (hblamed : st.Blamed) : st'.Blamed := by
  intro k hk
  rw [m.kept.pprev]
  rcases (m.failed k).mp hk with hold | hnew
  · obtain ⟨a, e, ha, he, hv⟩ := hblamed k hold
    obtain ⟨e', he', hv'⟩ := m.invalid a e he hv
    exact ⟨a, e', ha, he', hv'⟩
  · exact m.blamed k hnew

theorem covers (m : Marked N st st') (hcovers : st.Covers θ) : st'.Covers θ := by
  intro k hlinked hclean hworse
  rw [m.kept.chainTx] at hlinked
  rw [m.kept.worse] at hworse
  have hclean0 : st.failed k = false := by
    rw [Bool.eq_false_iff]
    intro hfailed
    rw [(m.failed k).mpr (.inl hfailed)] at hclean
    cases hclean
  rcases m.candidates k (hcovers k hlinked hclean0 hworse) with hmem | hfailed
  · exact hmem
  · rw [hclean] at hfailed
    cases hfailed

theorem tracked (m : Marked N st st') (tr : st.Tracked) (hchain : st'.chainActive = st.chainActive)
    (hN : ∀ a ∈ st.chainActive, ¬ N a) (p : st'.Pruned) : st'.Tracked := by
  have htip : st'.tip = st.tip := congrArg head? hchain
  refine ⟨m.blames tr.blamed, fun a ha => ?_, p, fun t ht => m.covers (tr.covered t (htip ▸ ht))⟩
  rw [hchain] at ha
  exact m.not_failed (tr.clean a ha) (hN a ha)

end Marked

end ChainGlobals

/-! ## §2. Chain selection. -/

namespace ChainRules

/-- The tip can always be disconnected. -/
def Reverts (rules : ChainRules σ) (Fits : List Uint256 → σ → Prop) : Prop :=
  ∀ st block p below, Fits st.chainActive st.coins → st.chainActive = block.hash :: p :: below →
    ∃ coins, rules.disconnectBlock st block = .ok coins

/-- **Nothing changes its mind**: `ConnectBlock` decides every block, finds the active ones valid, and the tip can
always be disconnected. -/
def Steady (rules : ChainRules σ) (genesis : Uint256) (st : ChainGlobals σ) : Prop :=
  ∃ valid Fits, rules.Decides valid Fits ∧ rules.Reverts Fits ∧ Fits st.chainActive st.coins ∧
    ∀ a ∈ st.chainActive, a ≠ genesis → valid a = true

end ChainRules

namespace ChainGlobals

variable {C : Uint256 → Prop} {t : Uint256}

def Spotless (genesis : Uint256) (valid : Uint256 → Bool) (st : ChainGlobals σ) (k : Uint256) : Prop :=
  ∀ a, Above st.pprev a k → st.failed a = false ∧ (a ≠ genesis → valid a = true)

/-- **While chain selection runs**: `θ` is the best block that has been the tip. -/
structure Pursuit (genesis : Uint256) (valid : Uint256 → Bool) (Fits : List Uint256 → σ → Prop) (θ : Uint256)
    (st : ChainGlobals σ) : Prop where
  fits : Fits st.chainActive st.coins
  tip : ∀ t, st.tip = some t → st.Spotless genesis valid t
  best : st.Spotless genesis valid θ
  linked : st.chainTx θ ≠ 0
  blamed : st.Blamed
  covered : st.Covers θ

namespace Pursuit

section

variable (p : st.Pursuit genesis valid Fits θ)

include p

/-- The best tip so far is a candidate. -/
theorem best_mem : θ ∈ st.setBlockIndexCandidates :=
  p.covered θ p.linked (p.best θ (.refl _ _)).1 (st.worse_strictTotal.irrefl θ)

theorem marked (m : Marked N st st') (hchain : st'.chainActive = st.chainActive)
    (hcoins : st'.coins = st.coins) (hN : ∀ k a, st.Spotless genesis valid k → Above st.pprev a k → ¬ N a) :
    st'.Pursuit genesis valid Fits θ := by
  have htip : st'.tip = st.tip := congrArg head? hchain
  have hspotless : ∀ {k}, st.Spotless genesis valid k → st'.Spotless genesis valid k := by
    intro k hk a ha
    rw [m.kept.pprev] at ha
    exact ⟨m.not_failed (hk a ha).1 (hN k a hk ha), (hk a ha).2⟩
  refine ⟨?_, fun t ht => hspotless (p.tip t (htip ▸ ht)), hspotless p.best, ?_, m.blames p.blamed, m.covers p.covered⟩
  · rw [hchain, hcoins]
    exact p.fits
  · rw [m.kept.chainTx]
    exact p.linked

/-- **A connected block** is spotless; it is the best tip so far, or worse. -/
theorem connected (b : st.Basic genesis) (hrules : rules.Decides valid Fits) {coins : σ}
    (hnext : st.pprev block.hash = st.tip) (hlinked : st.chainTx block.hash ≠ 0)
    (husable : st.failed block.hash = false) (hrun : rules.connectBlock st block.hash block f = .ok coins)
    (hprune : (st.connected block.hash coins).pruneBlockIndexCandidates = some st') :
    st'.Pursuit genesis valid Fits block.hash ∨ st'.Pursuit genesis valid Fits θ := by
  obtain ⟨hkept, hchain, hcoins, hindex, hcands⟩ := connected_pruned hprune
  have hfailed := failed_connected hprune
  have htip : st'.tip = some block.hash := congrArg head? hchain
  have hspotless : ∀ {k}, st.Spotless genesis valid k → st'.Spotless genesis valid k := by
    intro k hk a ha
    rw [hkept.pprev] at ha
    rw [hfailed]
    exact hk a ha
  obtain ⟨t, ht, -, -⟩ := b.exists_tip
  have hown : st.Spotless genesis valid block.hash := by
    intro a ha
    rcases ha.cases with rfl | ⟨q, hq, haq⟩
    · exact ⟨husable, fun _ => hrules.valid_of_connected p.fits hnext hrun⟩
    · rw [hnext, ht] at hq
      cases hq
      exact p.tip t ht a haq
  have hblamed : st'.Blamed := by
    intro k hk
    rw [hfailed] at hk
    obtain ⟨a, e, ha, he, hv⟩ := p.blamed k hk
    have hread := hindex a
    rw [he] at hread
    rw [hkept.pprev]
    split_ifs at hread
    · exact ⟨a, e.raiseValidity BLOCK_VALID_SCRIPTS, ha, hread, (e.failedValid_raiseValidity _).trans hv⟩
    · exact ⟨a, e, ha, hread, hv⟩
  -- complete for whatever is at least as good as both
  have hcovers : ∀ {θ'}, st.worse θ' θ = false → st.worse θ' block.hash = false → st'.Covers θ' := by
    intro θ' hθ hh k hk hclean hworse
    rw [hkept.chainTx] at hk
    rw [hfailed] at hclean
    rw [hkept.worse] at hworse
    rw [hcands]
    exact ⟨p.covered k hk hclean (st.worse_strictTotal.not_lt_trans hworse hθ),
      st.worse_strictTotal.not_lt_trans hworse hh⟩
  have hmake : ∀ {θ'}, st.Spotless genesis valid θ' → st.chainTx θ' ≠ 0 → st.worse θ' θ = false →
      st.worse θ' block.hash = false → st'.Pursuit genesis valid Fits θ' := by
    intro θ' hθs hθl hθ hh
    refine ⟨?_, fun t' ht' => ?_, hspotless hθs, ?_, hblamed, hcovers hθ hh⟩
    · rw [hchain, hcoins]
      exact hrules.fits_connected p.fits hnext hrun
    · rw [htip] at ht'
      cases ht'
      exact hspotless hown
    · rw [hkept.chainTx]
      exact hθl
  cases hw : st.worse θ block.hash with
  | true => exact .inl (hmake hown hlinked (st.worse_strictTotal.asymm hw) (st.worse_strictTotal.irrefl _))
  | false => exact .inr (hmake p.best p.linked (st.worse_strictTotal.irrefl _) hw)

section

variable (b : st.Basic genesis) (hrules : rules.Decides valid Fits)

include b hrules

/-- **A disconnected tip** leaves its parent. -/
theorem disconnected (hrun : rules.disconnectTip st = (st', true)) : st'.Pursuit genesis valid Fits θ := by
  obtain ⟨t, q, below, coins, hchain, rfl, block, hread, hundo⟩ := disconnectTip_eq hrun
  obtain ⟨ht, hq, -, -⟩ := b.parent_path hchain
  have hhash : block.hash = t := b.stored t block hread
  refine ⟨?_, fun t' ht' => ?_, p.best, p.linked, p.blamed, p.covered⟩
  · refine hrules.undoes st block (q :: below) coins p.fits ?_ hundo
    rw [hhash, hchain]
  · cases ht'
    intro a ha
    exact p.tip t ht a (ha.of_parent hq)

/-- **One move**: `θ` stays, or the move was towards a block above the new one. -/
theorem move (m : rules.Move C st st') :
    ∃ θ', st'.Pursuit genesis valid Fits θ' ∧ (θ' = θ ∨ ∃ M, C M ∧ Above st.pprev θ' M) := by
  have hkept := m.kept
  cases m with
  | connect hM hway hnext hlinked husable hblock hrun hprune =>
    rename_i h M block f coins
    subst hblock
    rcases p.connected b hrules hnext hlinked husable hrun hprune with p' | p'
    · exact ⟨block.hash, p', .inr ⟨M, hM, hway⟩⟩
    · exact ⟨θ, p', .inl rfl⟩
  | invalid hnext hlinked husable hblock hrun =>
    rename_i h block f nDoS reason
    subst hblock
    obtain ⟨t, ht, -, -⟩ := b.exists_tip
    have hinvalid := hrules.invalid_of_refused p.fits hnext hrun
    have hne : block.hash ≠ genesis := by grind [b.wired.pprev_genesis]
    obtain ⟨-, ⟨-, hindex, hcands⟩, hchain⟩ := invalidate_marked b block.hash
    simp only [mem_singleton] at hindex hcands
    obtain ⟨e, he⟩ := known_of_chainTx hlinked
    have hmarked := marked_invalid he hkept hindex (fun k hk hkb => (hcands k).mpr ⟨hk, hkb⟩) fun k hk =>
      ((hcands k).mp hk).1
    refine ⟨θ, p.marked hmarked hchain (st.update_fields _ _).2.2.2.2 (fun k a hk ha hab => ?_), .inl rfl⟩
    have hvalid := (hk a ha).2 (by rw [hab]; exact hne)
    rw [hab, hinvalid] at hvalid
    cases hvalid
  | disconnect hM ht haway hrun => exact ⟨θ, p.disconnected b hrules hrun, .inl rfl⟩
  | discard hM hbad hfailed =>
    rename_i M bad
    obtain ⟨-, hchain, hcoins, hindex, hcands⟩ := discardCandidate_spec (M := M) hfailed
    have hMlinked := b.candidates M (bestCandidate_spec hM).1
    have hbadM : Above st.pprev bad M := (mem_path b.ranked).mp ((takeWhile_sublist _).subset hbad)
    have hbelow : ∀ k ∈ (st.path M).takeWhile (fun x => decide (x ≠ bad)), Above st.pprev bad k := fun k hk =>
      above_of_mem_takeWhile b.ranked hbadM hk
    have hmarked := marked_children hkept hindex (fun k hk => by
      have hkM : Above st.pprev k M := (mem_path b.ranked).mp ((takeWhile_sublist _).subset hk)
      exact known_of_chainTx (b.wired.linked_above hMlinked hkM)) (fun k hk => by
      obtain ⟨a, e, ha, he, hv⟩ := p.blamed bad hfailed
      exact ⟨a, e, ha.trans (hbelow k hk), he, hv⟩) (by grind) fun k hk => ((hcands k).mp hk).1
    refine ⟨θ, p.marked hmarked hchain hcoins (fun k a hk ha hmem => ?_), .inl rfl⟩
    -- the failed block would be above a spotless one
    have hclean := (hk bad ((hbelow a hmem).trans ha)).1
    rw [hfailed] at hclean
    cases hclean

/-- **Many moves**: `θ` has what it had and the blocks above those moved towards. -/
theorem moves (ms : rules.Moves C st st') {Q : Uint256 → Prop} (hθ : Q θ)
    (hQ : ∀ M k, C M → Above st.pprev k M → Q k) : ∃ θ', st'.Pursuit genesis valid Fits θ' ∧ Q θ' := by
  have hall : st'.Basic genesis ∧ Kept st st' ∧ ∃ θ', st'.Pursuit genesis valid Fits θ' ∧ Q θ' := by
    refine ms.holds (P := fun s => s.Basic genesis ∧ Kept st s ∧ ∃ θ', s.Pursuit genesis valid Fits θ' ∧ Q θ')
      ⟨b, .refl st, θ, p, hθ⟩ ?_
    intro s s' ⟨bs, hkept, θs, ps, hθs⟩ m
    obtain ⟨θ', p', hwhere⟩ := ps.move bs hrules m
    refine ⟨m.basic bs, hkept.trans m.kept, θ', p', ?_⟩
    rcases hwhere with rfl | ⟨M, hM, hway⟩
    · exact hθs
    · rw [hkept.pprev] at hway
      exact hQ M θ' hM hway
  exact hall.2.2

end

theorem not_disturbed (hrules : rules.Decides valid Fits) (hreverts : rules.Reverts Fits) : ¬ rules.Disturbed st := by
  intro hd
  rcases hd with ⟨block, f, e, hnext, hrun, hverdict⟩ | ⟨block, q, below, e, hchain, hundo⟩
  · have hinvalid := hrules.invalid_of_refused p.fits hnext hrun
    obtain ⟨nDoS, reason, hrefused⟩ := hrules.rejects st block f p.fits hnext hinvalid
    rw [hrun] at hrefused
    exact hverdict nDoS reason (Except.error.inj hrefused)
  · obtain ⟨coins, hok⟩ := hreverts st block q below p.fits hchain
    rw [hundo] at hok
    cases hok

end

end Pursuit

/-- **At the start of a call** the tip is the best one so far. -/
theorem Tracked.pursuit (tr : st.Tracked) (b : st.Basic genesis) (hfits : Fits st.chainActive st.coins)
    (hactive : ∀ a ∈ st.chainActive, a ≠ genesis → valid a = true) (ht : st.tip = some t) :
    st.Pursuit genesis valid Fits t := by
  have hspotless : st.Spotless genesis valid t := by
    intro a ha
    have hmem := (b.mem_active ht).mpr ha
    exact ⟨tr.clean a hmem, hactive a hmem⟩
  refine ⟨hfits, fun t' ht' => ?_, hspotless, b.tip_linked ht, tr.blamed, tr.covered t ht⟩
  rw [ht] at ht'
  cases ht'
  exact hspotless

/-- **At its end** the tip is at least as good as the best one so far. -/
theorem Pursuit.tracked (p : st.Pursuit genesis valid Fits θ) (b : st.Basic genesis) (hpruned : st.Pruned)
    (ht : st.tip = some t) (hbest : st.worse t θ = false) : st.Tracked := by
  refine ⟨p.blamed, fun a ha => ?_, hpruned, fun t' ht' k hlinked hclean hworse => ?_⟩
  · exact (p.tip t ht a ((b.mem_active ht).mp ha)).1
  · rw [ht] at ht'
    cases ht'
    exact p.covered k hlinked hclean (st.worse_strictTotal.not_lt_trans hworse hbest)

/-- **A call of `ActivateBestChain`** forgets no candidate. -/
theorem Tracked.activated {pblock : Option CBlock} {r : Bool} (tr : st.Tracked) (b : st.Basic genesis)
    (hgrows : st.WorkGrows)
    (hsteady : rules.Steady genesis st) (hrun : rules.activateBestChain st pblock f = .ok (st', r)) : st'.Tracked := by
  obtain ⟨valid, Fits, hrules, hreverts, hfits, hactive⟩ := hsteady
  obtain ⟨t, ht, -, -⟩ := b.exists_tip
  have p := tr.pursuit b hfits hactive ht
  have hsteps := activateBestChain_moves (C := fun _ => True) b (fun _ _ => trivial) hrun
  obtain ⟨hmoves, hres⟩ := hsteps
  have hfollow : ∀ {s}, rules.Moves (fun _ => True) st s → ∃ θ, s.Pursuit genesis valid Fits θ := by
    intro s hs
    obtain ⟨θ, ps, -⟩ := p.moves b hrules hs (Q := fun _ => True) trivial fun _ _ _ _ => trivial
    exact ⟨θ, ps⟩
  cases r with
  | false =>
    obtain ⟨s, hs, hd⟩ := hres
    obtain ⟨θ, ps⟩ := hfollow hs
    exact absurd hd (ps.not_disturbed hrules hreverts)
  | true =>
    obtain ⟨s, hs, hlast⟩ := hres
    obtain ⟨θ, ps⟩ := hfollow hs
    have hmem := ps.best_mem
    rcases hlast with ⟨hnone, rfl⟩ | ⟨M, hM, hs', htip⟩
    · -- the best tip so far is a candidate
      rw [bestCandidate_eq_none hnone] at hmem
      cases hmem
    -- the best candidate is at least as good as that, and then everything on its way is above it
    have bs := hs.basic b
    have hgrows' : s.WorkGrows := hgrows.kept hs.kept
    have hend := ps.moves bs hrules hs' (Q := fun k => s.worse M k = false) ((bestCandidate_spec hM).2 θ hmem)
      (fun M' k hM' hway => by rw [hM'] at hway; exact hgrows'.not_worse hway)
    obtain ⟨θ', p', hbest⟩ := hend
    refine p'.tracked (hs'.basic bs) (tr.pruned.moves b hgrows hmoves) htip ?_
    rw [hs'.kept.worse]
    exact hbest

end ChainGlobals

/-! ## §3. Arrivals. -/

namespace ChainGlobals

/-- **An arrival adds no candidate worse than the tip.** -/
theorem Pruned.arrival (p : st.Pruned) (b : st.Basic genesis) (m : Arrival parentOf st st') : st'.Pruned := by
  cases m with
  | header hnew hprev hvalid hname hadd =>
    have hglobals := addToBlockIndex_eq hadd
    intro t c ht hc
    have ht' : st.tip = some t := by
      rw [hglobals] at ht
      exact ht
    have hc' : c ∈ st.setBlockIndexCandidates := by
      rw [hglobals] at hc
      exact hc
    rw [worse_add hnew hadd (b.candidates c hc') (b.tip_linked ht')]
    exact p t c ht' hc'
  | refuse he hnone =>
    rename_i h e
    obtain ⟨hchain, hcands, -⟩ := st.update_fields h fun e => { e with failedValid := true }
    intro t c ht hc
    rw [(Kept.markFailedValid st h).worse]
    exact p t c ((congrArg head? hchain).symm.trans ht) (hcands ▸ hc)
  | body he hnone hfailed hbody hparent =>
    have g := (b.received he hnone hbody hparent).2
    intro t c ht hc
    rw [g.tip] at ht
    rcases (g.candidates c).mp hc with hold | ⟨-, -, hworth⟩
    · rw [g.worse (b.candidates c hold) (b.tip_linked ht)]
      exact p t c ht hold
    · unfold worthTrying at hworth
      rw [g.tip, ht] at hworth
      simpa using hworth

/-- **A new header** is neither linked nor failed. -/
theorem Tracked.header (tr : st.Tracked) (b : st.Basic genesis) {n : Int} {prev : CBlockIndex}
    (hnew : st.index block.hash = none) (hadd : st.addToBlockIndex n block prev = some st') (p : st'.Pruned) :
    st'.Tracked := by
  have hindex := index_addToBlockIndex hadd
  have hglobals := addToBlockIndex_eq hadd
  have hread : ∀ {k e}, st.index k = some e → st'.index k = some e := fun he => index_add_of_known hnew hadd he
  have hsame : ∀ k, st'.failed k = st.failed k ∧ st'.chainTx k = st.chainTx k := by
    intro k
    unfold failed chainTx
    rw [hindex]
    split_ifs with hk
    · rw [hk, hnew]
      exact ⟨rfl, rfl⟩
    · exact ⟨rfl, rfl⟩
  have hchain : st'.chainActive = st.chainActive := by rw [hglobals]
  have hcands : st'.setBlockIndexCandidates = st.setBlockIndexCandidates := by rw [hglobals]
  have htip : st'.tip = st.tip := congrArg head? hchain
  refine ⟨fun k hk => ?_, fun a ha => ?_, p, fun t ht k hlinked hclean hw => ?_⟩
  · rw [(hsame k).1] at hk
    obtain ⟨a, e, ha, he, hv⟩ := tr.blamed k hk
    obtain ⟨ek, hek⟩ := known_of_failed hk
    exact ⟨a, e, (b.wired.above_add hnew hadd hek).mpr ha, hread he, hv⟩
  · rw [hchain] at ha
    rw [(hsame a).1]
    exact tr.clean a ha
  · rw [htip] at ht
    rw [(hsame k).2] at hlinked
    rw [(hsame k).1] at hclean
    rw [worse_add hnew hadd hlinked (b.tip_linked ht)] at hw
    rw [hcands]
    exact tr.covered t ht k hlinked hclean hw

/-- **A stored body** links blocks; those not worse than the tip become candidates. -/
theorem Tracked.body (tr : st.Tracked) (b : st.Basic genesis) (g : Grown st block st')
    (p : st'.Pruned) : st'.Tracked := by
  have hfailed : st'.failed = st.failed := by
    funext k
    have hflags := g.map_eq (f := CBlockIndex.failed) (fun _ => rfl) (fun e => by
      unfold receivedEntry raiseValidity
      split_ifs <;> rfl) k
    unfold failed
    rw [hflags]
  refine ⟨fun k hk => ?_, fun a ha => ?_, p, fun t ht k hlinked hclean hw => ?_⟩
  · rw [hfailed] at hk
    obtain ⟨a, e, ha, he, hv⟩ := tr.blamed k hk
    have hflag := g.flags a
    rw [he] at hflag
    obtain ⟨e', he', hpair⟩ := map_eq_some_iff.mp hflag
    rw [g.pprev]
    exact ⟨a, e', ha, he', (Prod.mk.inj hpair).1.trans hv⟩
  · rw [g.active] at ha
    rw [hfailed]
    exact tr.clean a ha
  · rw [g.tip] at ht
    rw [hfailed] at hclean
    refine (g.candidates k).mpr ?_
    by_cases hold : st.chainTx k = 0
    · refine .inr ⟨hold, hlinked, ?_⟩
      unfold worthTrying
      rw [g.tip, ht]
      show (!st'.worse k t) = true
      rw [hw]
      rfl
    · rw [g.worse hold (b.tip_linked ht)] at hw
      exact .inl (tr.covered t ht k hold hclean hw)

/-- **Arrivals forget no candidate.** -/
theorem Tracked.arrival (tr : st.Tracked) (b : st.Basic genesis) (m : Arrival parentOf st st') : st'.Tracked := by
  have p := tr.pruned.arrival b m
  cases m with
  | header hnew hprev hvalid hname hadd => exact tr.header b hnew hadd p
  | refuse he hnone =>
    rename_i h e
    obtain ⟨hchain, hcands, -, -, -⟩ := st.update_fields h fun e => { e with failedValid := true }
    replace hcands : (st.markFailedValid h).setBlockIndexCandidates = st.setBlockIndexCandidates := hcands
    have hmarked := marked_invalid he (.markFailedValid st h) (fun k => index_update st h k _)
      (fun k hk _ => by rw [hcands]; exact hk) fun k hk => by rw [hcands] at hk; exact hk
    refine hmarked.tracked tr hchain (fun a ha hah => ?_) p
    -- an active block has its body
    obtain ⟨t, ht, -, hlinked⟩ := b.exists_tip
    have hdata := b.wired.data_of_linked (b.wired.linked_above hlinked ((b.mem_active ht).mp ha))
    rw [hah, haveData_of_index he, hnone] at hdata
    cases hdata
  | body he hnone hfailed hbody hparent => exact tr.body b (b.received he hnone hbody hparent).2 p

end ChainGlobals

/-! ## §4. Operators. -/

namespace ChainGlobals

/-- No ancestor of the block is failed. -/
def Topmost (st : ChainGlobals σ) (h : Uint256) : Prop := ∀ a ∈ st.path h, a ≠ h → st.failed a = false

instance (st : ChainGlobals σ) (h : Uint256) : Decidable (st.Topmost h) :=
  decidable_of_iff (((st.path h).all fun a => decide (a = h) || !st.failed a) = true) (by
    unfold Topmost
    simp [or_iff_not_imp_left])

/-- The failed blocks that are reconsidered are those below `h`. -/
theorem reconsidered_iff (b : st.Basic genesis) (hk : st.failed k = true) : st.reconsidered h k = true ↔
    Above st.pprev h k := by
  obtain ⟨e, he⟩ := known_of_failed hk
  have hinvalid : st.isValid k BLOCK_VALID_TRANSACTIONS = false := by
    rw [failed_of_index he] at hk
    unfold isValid CBlockIndex.isValid
    rw [he]
    simp [hk]
  unfold reconsidered
  rw [hinvalid, Bool.not_false, Bool.true_and, decide_eq_true_eq]
  constructor
  · intro hanc
    exact (mem_path b.ranked).mp (mem_of_find?_eq_some hanc)
  intro ha
  obtain ⟨a, hanc, hak, hheight⟩ := b.wired.exists_getAncestor he (ha.height_le b.ranked)
  have hah : a = h := (hak.of_height_le b.ranked ha (Nat.le_of_eq hheight)).eq_of_height b.ranked
    (Nat.le_of_eq hheight.symm)
  rw [hanc, hah]

/-- **What `ReconsiderBlock` clears** where no ancestor is failed: the marks of the block and below it. -/
theorem reconsiderBlock_marks (b : st.Basic genesis) (htop : st.Topmost h) :
    (∀ k, (st.reconsiderBlock h).failed k = true ↔ st.failed k = true ∧ ¬ Above st.pprev h k) ∧
      ∀ k, st.failed k = true → ¬ Above st.pprev h k → (st.reconsiderBlock h).index k = st.index k := by
  obtain ⟨-, -, -, hindex, -⟩ := reconsiderBlock_spec st h
  have hcleared : ∀ {k}, st.failed k = true → ((st.reconsidered h k = true ∨ k ∈ st.path h) ↔ Above st.pprev h k) := by
    intro k hk
    rw [reconsidered_iff b hk]
    constructor
    · intro hor
      rcases hor with ha | hpath
      · exact ha
      by_cases hkh : k = h
      · rw [hkh]
        exact .refl _ _
      · have hclean := htop k hpath hkh
        rw [hk] at hclean
        cases hclean
    · exact .inl
  have huntouched : ∀ k, st.failed k = true → ¬ Above st.pprev h k → (st.reconsiderBlock h).index k = st.index k := by
    simp_all
  refine ⟨fun k => ?_, huntouched⟩
  constructor
  · intro hk
    obtain ⟨e', he'⟩ := known_of_failed hk
    rw [failed_of_index he'] at hk
    rw [hindex] at he'
    obtain ⟨e, he, rfl⟩ := map_eq_some_iff.mp he'
    split_ifs at hk with hclear
    · cases hk
    · have hfailed : st.failed k = true := (failed_of_index he).trans hk
      exact ⟨hfailed, fun ha => hclear ((hcleared hfailed).mpr ha)⟩
  · intro ⟨hk, ha⟩
    unfold failed
    rw [huntouched k hk ha]
    exact hk

/-- What `ReconsiderBlock` adds is better than the tip. -/
theorem Pruned.reconsidered (p : st.Pruned) (h : Uint256) : (st.reconsiderBlock h).Pruned := by
  obtain ⟨hkept, hchain, -, -, hcands⟩ := reconsiderBlock_spec st h
  intro t c ht hc
  have ht' : st.tip = some t := (congrArg head? hchain).symm.trans ht
  rw [hkept.worse]
  rcases (hcands c).mp hc with hold | ⟨-, -, hbeats, -⟩
  · exact p t c ht' hold
  · unfold beatsTip at hbeats
    rw [ht'] at hbeats
    exact st.worse_strictTotal.asymm hbeats

/-- **`ReconsiderBlock`** of a block without failed ancestors: every mark left is below an invalid block, and what
lost its mark is a candidate again. -/
theorem Tracked.reconsidered (tr : st.Tracked) (b : st.Basic genesis) (s : st.Statuses genesis) (htop : st.Topmost h) :
    (st.reconsiderBlock h).Tracked := by
  obtain ⟨hkept, hchain, -, -, hcands⟩ := reconsiderBlock_spec st h
  obtain ⟨hfailed, huntouched⟩ := reconsiderBlock_marks b htop
  have htip : (st.reconsiderBlock h).tip = st.tip := congrArg head? hchain
  refine ⟨fun k hk => ?_, fun a ha => ?_, tr.pruned.reconsidered h, fun t ht k hlinked hclean hworse => ?_⟩
  · obtain ⟨hk, hnot⟩ := (hfailed k).mp hk
    obtain ⟨a, e, ha, he, hv⟩ := tr.blamed k hk
    have hafailed : st.failed a = true := by
      rw [failed_of_index he]
      unfold CBlockIndex.failed
      rw [hv]
      rfl
    rw [hkept.pprev]
    refine ⟨a, e, ha, ?_, hv⟩
    rw [huntouched a hafailed fun hha => hnot (hha.trans ha)]
    exact he
  · rw [hchain] at ha
    exact Bool.eq_false_iff.mpr fun hf => absurd ((hfailed a).mp hf).1 (by rw [tr.clean a ha]; decide)
  · rw [htip] at ht
    rw [hkept.chainTx] at hlinked
    rw [hkept.worse] at hworse
    refine (hcands k).mpr ?_
    cases hk : st.failed k with
    | false => exact .inl (tr.covered t ht k hlinked hk hworse)
    | true =>
      -- its mark is gone, so it is below the block
      have hbelow : Above st.pprev h k := by grind
      have hkt : k ≠ t := by
        intro hkt
        simp_all [tr.clean, b.mem_active, Above.refl]
      obtain ⟨e, he⟩ := known_of_failed hk
      have hdata := b.wired.data_of_linked hlinked
      rw [haveData_of_index he] at hdata
      refine .inr ⟨(reconsidered_iff b hk).mpr hbelow, hlinked, ?_, e, he, (s.bodies k e he).mpr hdata⟩
      unfold beatsTip
      rw [ht]
      exact st.worse_strictTotal.lt_of_ne hworse hkt

end ChainGlobals

namespace ChainRules

/-- **`InvalidateBlock` gets through** where the tip can always be disconnected. -/
theorem disconnectMarked_completes (b : st.Basic genesis) (hrules : rules.Decides valid Fits)
    (hreverts : rules.Reverts Fits)
    (hfits : Fits st.chainActive st.coins) (hg : h ≠ genesis) (n : Nat) :
        ∃ st', rules.disconnectMarked h n st = (st', true) := by
  induction n generalizing st with
  | zero => exact ⟨st, rfl⟩
  | succ n ih =>
    unfold disconnectMarked
    obtain ⟨t, ht, -, hlinked⟩ := b.exists_tip
    by_cases hcontains : st.contains h = true
    · rw [if_pos hcontains, ht]
      dsimp only
      obtain ⟨s, hs⟩ : ∃ s, (st.markFailedChild t).eraseCandidate t = s := ⟨_, rfl⟩
      obtain ⟨hset, hchain, hcoins⟩ := ChainGlobals.foldl_setAside _ [t] hs
      have bs := hset.basic b hchain fun _ => rfl
      rw [hs]
      have hts : s.tip = some t := (congrArg head? hchain).trans ht
      have hfits' : Fits s.chainActive s.coins := by
        rw [hchain, hcoins]
        exact hfits
      -- the tip is below the block, so it is not the first one
      have hne : genesis ≠ t := by
        intro hgt
        have hht : Above st.pprev h t := (b.contains_iff ht).mp hcontains
        rcases hht.cases with heq | ⟨p, hp, -⟩
        · exact hg (heq.trans hgt.symm)
        · rw [← hgt, b.wired.pprev_genesis] at hp
          cases hp
      cases hdisc : rules.disconnectTip s with
      | mk s1 ok =>
        cases ok with
        | false =>
          have hfalse := disconnectTip_eq_false bs hts (bs.above_genesis (bs.tip_linked hts)) hne hdisc
          obtain ⟨block, p, below, e, hactive, hundo⟩ := hfalse
          obtain ⟨coins, hok⟩ := hreverts s block p below hfits' hactive
          rw [hundo] at hok
          cases hok
        | true =>
          obtain ⟨t', p, below, coins, hactive, rfl, block, hread, hundo⟩ := ChainGlobals.disconnectTip_eq hdisc
          have hhash : block.hash = t' := bs.stored t' block hread
          refine ih (bs.shorter hactive) ?_
          exact hrules.undoes s block (p :: below) coins hfits' (by rw [hhash, hactive]) hundo
    · rw [if_neg hcontains]
      exact ⟨st, rfl⟩

end ChainRules

namespace ChainGlobals

/-- **`InvalidateBlock`** leaves a tip above the old one; what is linked, unmarked and not worse becomes a candidate.
-/
theorem Tracked.invalidated (tr : st.Tracked) (b : st.Basic genesis) (s : st.Statuses genesis)
    (hgrows : st.WorkGrows) (he : st.index h = some e) (hg : h ≠ genesis) (hsteady : rules.Steady genesis st) :
    (rules.invalidateBlock st h).1.Tracked := by
  obtain ⟨valid, Fits, hrules, hreverts, hfits, -⟩ := hsteady
  obtain ⟨t, ht, -, -⟩ := b.exists_tip
  -- the block is marked
  obtain ⟨bm, ⟨hkeptm, hindexm, hcandsm⟩, hchainm⟩ := ChainRules.invalidate_marked b h
  simp only [mem_singleton] at hindexm hcandsm
  have hmarkedm := marked_invalid he hkeptm hindexm (fun k hk hkh => (hcandsm k).mpr ⟨hk, hkh⟩) fun k hk =>
    ((hcandsm k).mp hk).1
  have hcompletes := ChainRules.disconnectMarked_completes bm hrules hreverts (by
    rw [hchainm, show ((st.markFailedValid h).eraseCandidate h).coins = st.coins from (st.update_fields h _).2.2.2.2]
    exact hfits) hg st.chainActive.length
  obtain ⟨s1, hloop⟩ := hcompletes
  have hvalid := s.invalidated b rules h
  unfold invalidateBlock at hvalid ⊢
  dsimp only at hvalid ⊢
  rw [hloop] at hvalid ⊢
  -- and so are the blocks that are disconnected
  obtain ⟨b1, gone, marked, ⟨hkept1, hindex1, hcands1⟩, hgone, habove, hend⟩ := disconnectMarked_spec bm hloop
  obtain ⟨hsame, hout⟩ := hend rfl
  have hgone' : st.chainActive = gone ++ s1.chainActive := hchainm.symm.trans hgone
  have hnot : h ∉ s1.chainActive := of_decide_eq_false (hout (by rw [hchainm]))
  have hown : ((st.markFailedValid h).eraseCandidate h).index h = some { e with failedValid := true } := by
    rw [hindexm, if_pos rfl, he]
    rfl
  have hmarked1 := marked_children hkept1 hindex1 (fun k hk => by
    rw [hsame] at hk
    have hmem : k ∈ st.chainActive := hgone' ▸ mem_append_left _ hk
    rw [← hchainm, bm.mem_active ((congrArg head? hchainm).trans ht)] at hmem
    exact known_of_chainTx (bm.wired.linked_above (by rw [hkeptm.chainTx]; exact b.tip_linked ht) hmem))
    (fun k hk => ⟨h, _, habove k hk, hown, rfl⟩) (fun k hk hkm => .inl ((hcands1 k).mpr ⟨hk, hkm⟩)) fun k hk =>
      ((hcands1 k).mp hk).1
  have hkept := hkeptm.trans hkept1
  obtain ⟨t1, ht1, -, -⟩ := b1.exists_tip
  -- the new tip is above the old one, and nothing active is marked
  have hstill : ∀ {a}, a ∈ s1.chainActive → a ∈ st.chainActive := fun ha => hgone' ▸ mem_append_right _ ha
  have hunmarked : ∀ {a}, a ∈ s1.chainActive → a ≠ h ∧ a ∉ marked := by
    intro a ha
    refine ⟨fun hah => hnot (hah ▸ ha), fun hmem => hnot ?_⟩
    have hha := habove a hmem
    rw [← hkept1.pprev] at hha
    exact (b1.mem_active ht1).mpr (hha.trans ((b1.mem_active ht1).mp ha))
  have hup : st.worse t t1 = false := by
    refine hgrows.not_worse ((b.mem_active ht).mp (hstill ?_))
    exact (b1.mem_active ht1).mpr (.refl _ _)
  refine ⟨hmarked1.blames (hmarkedm.blames tr.blamed), fun a ha => ?_, fun t' c ht' hc => ?_,
    fun t' ht' k hlinked hclean hworse => ?_⟩
  · exact hmarked1.not_failed (hmarkedm.not_failed (tr.clean a (hstill ha)) (hunmarked ha).1) (hunmarked ha).2
  · have htt : t1 = t' := some.inj (ht1.symm.trans ht')
    subst htt
    show s1.worse c t1 = false
    rcases mem_insertCandidates.mp hc with hold | ⟨-, htest⟩
    · have hct : st.worse c t = false := tr.pruned t c ht (hmarkedm.fewer c (hmarked1.fewer c hold))
      rw [hkept.worse]
      exact st.worse_strictTotal.not_lt_trans hct hup
    simp_all [worthTrying]
  · have htt : t1 = t' := some.inj (ht1.symm.trans ht')
    subst htt
    obtain ⟨ek, hek⟩ := known_of_chainTx hlinked
    have hdata : ek.data.isSome = true := by
      rw [← haveData_of_index hek]
      exact b1.wired.data_of_linked hlinked
    refine mem_insertCandidates.mpr (.inr ⟨⟨ek, hek⟩, ?_⟩)
    have hisValid : s1.isValid k BLOCK_VALID_TRANSACTIONS = true := by
      replace hclean : s1.failed k = false := hclean
      replace hek : s1.index k = some ek := hek
      rw [failed_of_index hek] at hclean
      unfold isValid CBlockIndex.isValid
      rw [hek]
      simp [hclean, (hvalid.bodies k ek hek).mpr hdata]
    have hworth : s1.worthTrying k = true := by
      unfold worthTrying
      rw [ht1]
      show (!s1.worse k t1) = true
      rw [show s1.worse k t1 = false from hworse]
      rfl
    rw [hisValid, hworth, decide_eq_true (show s1.chainTx k ≠ 0 from hlinked)]
    rfl

end ChainGlobals

/-! ## §5. Work. -/

def CBlockIndex.place (e : CBlockIndex) : Option Uint256 × Nat := (e.pprev, e.nChainWork)

namespace ChainGlobals

def AddsWork (st : ChainGlobals σ) (block : CBlock) : Prop :=
  ∀ prev, st.index block.hashPrevBlock = some prev → prev.nChainWork < (st.newEntry block prev).nChainWork

instance (st : ChainGlobals σ) (block : CBlock) : Decidable (st.AddsWork block) :=
  decidable_of_iff (((st.index block.hashPrevBlock).all fun prev =>
    decide (prev.nChainWork < (st.newEntry block prev).nChainWork)) = true) (by
    unfold AddsWork
    cases st.index block.hashPrevBlock with
    | none => simp
    | some prev => simp)

/-- **The entries stand where they stood**, but for a new one, that of `block`. -/
def Extends (block : CBlock) (st st' : ChainGlobals σ) : Prop :=
  ∀ k, (st'.index k).map CBlockIndex.place = (st.index k).map CBlockIndex.place ∨
    (st.index k = none ∧ ∃ prev, st.index block.hashPrevBlock = some prev ∧
      (st'.index k).map CBlockIndex.place = some (st.newEntry block prev).place)

theorem place_fields (hplace : (st'.index k).map place = (st.index k).map place) :
    st'.pprev k = st.pprev k ∧ st'.work k = st.work k := by
  have hpprev : (st'.index k).map CBlockIndex.pprev = (st.index k).map CBlockIndex.pprev := by
    have hfst := congrArg (Option.map Prod.fst) hplace
    rw [Option.map_map, Option.map_map] at hfst
    exact hfst
  have hwork : (st'.index k).map nChainWork = (st.index k).map nChainWork := by
    have hsnd := congrArg (Option.map Prod.snd) hplace
    rw [Option.map_map, Option.map_map] at hsnd
    exact hsnd
  refine ⟨pprev_eq_of_map hpprev, ?_⟩
  unfold work
  rw [hwork]

/-- **A header that adds work** keeps the work growing. -/
theorem WorkGrows.extended (hgrows : st.WorkGrows) (b : st.Basic genesis) (hadds : st.AddsWork block)
    (hext : Extends block st st') : st'.WorkGrows := by
  -- known blocks stand where they stood
  have hknown : ∀ {k e}, st.index k = some e → st'.pprev k = st.pprev k ∧ st'.work k = st.work k := by
    intro k e he
    rcases hext k with hplace | ⟨hnone, -⟩
    · exact place_fields hplace
    · rw [he] at hnone
      cases hnone
  intro h p hp
  rcases hext h with hplace | ⟨-, prev, hprev, hplace⟩
  · obtain ⟨hpprev, hwork⟩ := place_fields hplace
    rw [hpprev] at hp
    obtain ⟨ep, hep⟩ := b.wired.known_parent hp
    rw [hwork, (hknown hep).2]
    exact hgrows h p hp
  · obtain ⟨e', he', heq⟩ := map_eq_some_iff.mp hplace
    obtain ⟨hpprev, hwork⟩ := Prod.mk.inj heq
    have hparent : p = block.hashPrevBlock := by
      rw [pprev_of_index he', hpprev] at hp
      exact (some.inj hp).symm
    rw [work_of_index he', hwork, hparent, (hknown hprev).2, work_of_index hprev]
    exact hadds prev hprev

theorem Extends.of_place (hplace : ∀ k, (st'.index k).map place = (st.index k).map place) :
    Extends block st st' := fun k => .inl (hplace k)

theorem Extends.of_kept (hkept : Kept st st') : Extends block st st' :=
  .of_place fun k => hkept.map_eq (g := place) (fun _ => rfl) k

theorem linkQueue_place (n : Nat) (queue : List Uint256) (st : ChainGlobals σ) (k : Uint256) :
    ((linkQueue n queue st).index k).map place = (st.index k).map place := by
  induction n generalizing queue st with
  | zero => rfl
  | succ n ih =>
    cases queue with
    | nil => rfl
    | cons h queue =>
      unfold linkQueue
      rw [ih, index_linkBlock]
      split_ifs
      · rw [Option.map_map]
        rfl
      · rfl

theorem receivedBlockTransactions_place (st : ChainGlobals σ) (block : CBlock) (k : Uint256) :
    ((st.receivedBlockTransactions block).index k).map place = (st.index k).map place := by
  have hstored : ((st.update block.hash (receivedEntry block)).index k).map place
      = (st.index k).map place := by
    rw [index_update]
    split_ifs
    · rw [Option.map_map]
      congr 1
      funext e
      show (receivedEntry block e).place = e.place
      unfold receivedEntry raiseValidity
      split_ifs <;> rfl
    · rfl
  unfold receivedBlockTransactions
  dsimp only
  split
  · rw [linkQueue_place, hstored]
  split_ifs
  · rw [linkQueue_place, hstored]
  · exact hstored
  · exact hstored

end ChainGlobals

namespace AcceptRules

open ChainGlobals

variable {rules : AcceptRules σ}

variable {r : Validated Unit}

theorem storeBlock_place (hrun : rules.storeBlock st block f = (st', r)) (k : Uint256) :
    (st'.index k).map place = (st.index k).map place := by
  unfold storeBlock at hrun
  split_ifs at hrun
  · cases hrun
    rfl
  split at hrun
  · cases hrun
    exact (Kept.markFailedValid st block.hash).map_eq (g := place) (fun _ => rfl) k
  · cases hrun
    rfl
  · grind [receivedBlockTransactions_place]

theorem acceptBlockHeader_extends (hrun : rules.acceptBlockHeader st block = .ok st') : Extends block st st' := by
  rcases acceptBlockHeader_cases hrun with ⟨rfl, -⟩ | ⟨hnew, prev, hprev, -, -, hadd⟩
  · exact .of_place fun _ => rfl
  intro k
  rw [index_addToBlockIndex hadd]
  split_ifs with hk
  · exact .inr ⟨by rw [hk]; exact hnew, prev, hprev, rfl⟩
  · exact .inl rfl

theorem acceptBlock_extends (b : st.Basic genesis) (hrun : rules.acceptBlock st block f = .ok (st', r)) :
    Extends block st st' := by
  rcases acceptBlock_inv hrun with rfl | ⟨_, _, -, -, hactivate⟩ | ⟨-, st1, hheader, hstore⟩
  · exact .of_place fun _ => rfl
  · have hmoves : rules.Moves (fun _ => True) (st.reconsiderBlock block.hashPrevBlock) st' :=
      (activateBestChain_moves (b.reconsidered _) (fun _ _ => trivial) hactivate).1
    exact .of_kept ((reconsiderBlock_spec st _).1.trans hmoves.kept)
  · intro k
    rw [storeBlock_place hstore k]
    exact acceptBlockHeader_extends hheader k

end AcceptRules

/-! ## §6. Runs. -/

/-- `AcceptBlock` reconsiders a failed parent only without failed ancestors, and then nothing changes its mind. -/
def ChainGlobals.ReopensWell (st : ChainGlobals σ) (genesis : Uint256) (rules : ChainRules σ) (block : CBlock) : Prop :=
  st.failed block.hashPrevBlock = true →
    st.Topmost block.hashPrevBlock ∧ rules.Steady genesis (st.reconsiderBlock block.hashPrevBlock)

/-- **An orderly event**: a new header adds work; while chain selection runs or a block other than the first is
invalidated, nothing changes its mind; only a block without failed ancestors is reconsidered. -/
def IndexEvent.Orderly (genesis : Uint256) (st : ChainGlobals σ) : IndexEvent σ → Prop
  | .header _ new => st.AddsWork new
  | .block rules new => st.AddsWork new ∧ st.ReopensWell genesis rules.toChainRules new
  | .accept rules new => st.AddsWork new ∧ st.ReopensWell genesis rules.toChainRules new
  | .activate rules _ _ => rules.Steady genesis st
  | .invalidate rules h => h ≠ genesis ∧ rules.Steady genesis st
  | .reconsider h => st.Topmost h

namespace ChainGlobals

def OrderlyRun (genesis : Uint256) : ChainGlobals σ → List (IndexEvent σ) → Prop
  | _, [] => True
  | st, ev :: evs => ev.Orderly genesis st ∧ ∀ st', st.step ev = .ok st' → OrderlyRun genesis st' evs

variable {ev : IndexEvent σ}

theorem WorkGrows.step (hgrows : st.WorkGrows) (b : st.Basic genesis) (hord : ev.Orderly genesis st)
    (hstep : st.step ev = .ok st') : st'.WorkGrows := by
  unfold ChainGlobals.step at hstep
  cases ev with
  | header rules block =>
    dsimp only at hstep
    split at hstep
    · rename_i s hrun
      cases hstep
      exact hgrows.extended b hord (AcceptRules.acceptBlockHeader_extends hrun)
    · cases hstep
      exact hgrows
  | block rules block =>
    obtain ⟨⟨s, r⟩, hrun, rfl⟩ := exists_ok_of_map hstep
    unfold AcceptRules.receiveBlock at hrun
    split at hrun
    · cases hrun
      exact hgrows
    split_ifs at hrun
    · cases hrun
      exact hgrows
    · exact hgrows.extended b hord.1 (AcceptRules.acceptBlock_extends b hrun)
  | accept rules block =>
    obtain ⟨⟨s, r⟩, hrun, rfl⟩ := exists_ok_of_map hstep
    exact hgrows.extended b hord.1 (AcceptRules.acceptBlock_extends b hrun)
  | activate rules pblock f =>
    obtain ⟨⟨s, r⟩, hrun, rfl⟩ := exists_ok_of_map hstep
    have hmoves : rules.Moves (fun _ => True) st s :=
      (activateBestChain_moves b (fun _ _ => trivial) hrun).1
    exact hgrows.kept hmoves.kept
  | invalidate rules h =>
    dsimp only at hstep
    split at hstep
    · cases hstep
      exact hgrows.kept (rules.invalidateBlock_basic b h).2
    · cases hstep
      exact hgrows
  | reconsider h => grind [hgrows.kept, reconsiderBlock_spec]

/-- **An orderly event forgets no candidate.** -/
theorem Tracked.step (tr : st.Tracked) (c : st.Coherent genesis parentOf) (s : st.Statuses genesis)
    (hgrows : st.WorkGrows)
    (hproper : ev.Proper genesis parentOf) (hord : ev.Orderly genesis st) (hstep : st.step ev = .ok st') :
        st'.Tracked := by
  rcases step_cases c.toBasic c.named hproper hstep with
    harrival | ⟨rules, st0, pblock, f, r, hcall, hrun⟩ | ⟨rules, h, rfl, -⟩ | ⟨h, rfl, rfl⟩
  · exact (Arrival.all (P := fun s => s.Tracked) harrival c tr fun _ _ cs trs m => trs.arrival cs.toBasic m).2
  · cases hcall with
    | activate => exact tr.activated c.toBasic hgrows hord hrun
    | reconsidered hrules hev he hfailed =>
      rename_i arules block e
      subst hrules
      have hreopens : st.ReopensWell genesis arules.toChainRules block := by
        cases ev with
        | block _ _ | accept _ _ =>
          cases hev
          exact hord.2
        | header _ _ | activate _ _ _ | invalidate _ _ | reconsider _ => cases hev
      obtain ⟨htop, hsteady⟩ := hreopens ((failed_of_index he).trans hfailed)
      exact (tr.reconsidered c.toBasic s htop).activated (c.toBasic.reconsidered _)
        (hgrows.kept (reconsiderBlock_spec st _).1) hsteady hrun
  · unfold step at hstep
    cases he : st.index h with
    | none =>
      dsimp only at hstep
      rw [he] at hstep
      cases hstep
      exact tr
    | some e =>
      dsimp only at hstep
      rw [he] at hstep
      cases hstep
      exact tr.invalidated c.toBasic s hgrows he hord.1 hord.2
  · exact tr.reconsidered c.toBasic s hord

/-- **At the start** the first block is the only candidate. -/
theorem tracked_init (genesis : CBlock) (coins : σ) :
    (init genesis coins).Tracked ∧ (init genesis coins).WorkGrows := by
  have hfailed : ∀ k, (init genesis coins).failed k = false := by
    intro k
    unfold failed
    rw [index_init]
    split_ifs <;> rfl
  refine ⟨⟨fun k hk => ?_, fun a _ => hfailed a, fun t c ht hc => ?_, fun t ht k hlinked _ _ => ?_⟩, fun h p hp => ?_⟩
  · rw [hfailed] at hk
    cases hk
  · cases ht
    rw [mem_singleton.mp hc]
    exact (init genesis coins).worse_strictTotal.irrefl _
  · obtain ⟨e, he⟩ := known_of_chainTx hlinked
    rw [index_init] at he
    split_ifs at he with hk
    exact mem_singleton.mpr hk
  · grind [known_of_pprev, index_init]

/-- **What an orderly run keeps.** -/
theorem OrderlyRun.holds {evs : List (IndexEvent σ)} (hord : OrderlyRun genesis st evs)
    (c : st.Coherent genesis parentOf)
    (s : st.Statuses genesis) (hgrows : st.WorkGrows) (tr : st.Tracked)
    (hproper : ∀ ev ∈ evs, ev.Proper genesis parentOf)
    (hrun : st.run evs = .ok st') : st'.Statuses genesis ∧ st'.WorkGrows ∧ st'.Tracked := by
  induction evs generalizing st with
  | nil =>
    cases hrun
    exact ⟨s, hgrows, tr⟩
  | cons ev evs ih =>
    obtain ⟨st1, hstep, hrest⟩ := bind_eq_ok.mp hrun
    have hown := hproper ev mem_cons_self
    exact ih (hord.2 st1 hstep) (c.step hown hstep) (s.step c hown hstep) (hgrows.step c.toBasic hord.1 hstep)
      (tr.step c s hgrows hown hord.1 hstep) (fun ev' hev => hproper ev' (mem_cons_of_mem _ hev)) hrest

end ChainGlobals

open ChainGlobals in
/-- **The block index is consistent.** After every sequence of headers, blocks, activations, invalidated and
reconsidered blocks, `nChainTx` is set for the blocks whose bodies are there down to the first block, and
`mapBlocksUnlinked` holds the blocks with a body and a missing one above. If every event was orderly, the candidates
are all the linked blocks without an invalid one above that are not worse than the tip, and no assertion of
`CheckBlockIndex` fires. -/
theorem check_block_index_passes {genesis : CBlock} {coins : σ} {parentOf : Uint256 → Uint256}
    {evs : List (IndexEvent σ)}
    {st : ChainGlobals σ} (hne : genesis.vtx ≠ []) (hproper : ∀ ev ∈ evs, ev.Proper genesis.hash parentOf)
    (hrun : (init genesis coins).run evs = .ok st) :
    (∀ h e, st.index h = some e → (e.nChainTx ≠ 0 ↔ ∀ a ∈ st.path h, st.haveData a = true)) ∧
    (∀ p h, (p, h) ∈ st.mapBlocksUnlinked ↔
      st.pprev h = some p ∧ st.haveData h = true ∧ ∃ a ∈ st.path h, st.haveData a = false) ∧
    (OrderlyRun genesis.hash (init genesis coins) evs → (∀ t, st.tip = some t →
        (∀ k, st.chainTx k ≠ 0 → st.firstInvalid k = false → st.worse k t = false → k ∈ st.setBlockIndexCandidates) ∧
        ∀ c ∈ st.setBlockIndexCandidates, st.worse c t = false) ∧ st.checkBlockIndex genesis.hash = true) := by
  have b : st.Basic genesis.hash := (coherent_run hne hproper hrun).toBasic
  have hlinked : ∀ {h e}, st.index h = some e → (e.nChainTx ≠ 0 ↔ ∀ a ∈ st.path h, st.haveData a = true) := by
    intro h e he
    rw [← chainTx_of_index he, b.wired.chainTx_iff he]
    exact forall_congr' fun a => imp_congr_left (mem_path b.ranked).symm
  refine ⟨fun h e he => hlinked he, fun p h => ?_, fun hord => ?_⟩
  · rw [b.wired.mem_unlinked]
    refine and_congr_right fun hp => and_congr_right fun _ => ?_
    obtain ⟨e, he, -⟩ := known_of_pprev hp
    rw [chainTx_of_index he, ← not_iff_not, ← ne_eq e.nChainTx, hlinked he]
    simp
  · obtain ⟨tr0, hgrows0⟩ := tracked_init genesis coins
    obtain ⟨s, hgrows, tr⟩ := hord.holds (coherent_init hne coins parentOf)
      (statuses_init genesis coins) hgrows0 tr0 hproper hrun
    refine ⟨fun t ht => ⟨fun k hk hvalid hworse => ?_, fun c hc => tr.pruned t c ht hc⟩,
      checkBlockIndex_eq_true b s hgrows tr⟩
    exact tr.covered t ht k hk (tr.blamed.clean b hvalid) hworse

def agreeing : AcceptRules Unit := verdictRules fun _ => true

theorem agreeing_steady (st : ChainGlobals Unit) (genesis : Uint256) : agreeing.Steady genesis st :=
  ⟨fun _ => true, fun _ _ => True, verdictRules_decides _, fun _ _ _ _ _ _ => ⟨(), rfl⟩, trivial, fun _ _ _ => rfl⟩

def secondThoughts : List (IndexEvent Unit) :=
  [.block agreeing (treeBlock 2), .activate agreeing.toChainRules none false,
    .invalidate agreeing.toChainRules (treeBlock 2).hash,
   .activate agreeing.toChainRules none false, .reconsider (treeBlock 2).hash,
     .activate agreeing.toChainRules none false]

theorem orderly_secondThoughts : ChainGlobals.OrderlyRun (treeBlock 1).hash
    (ChainGlobals.init (treeBlock 1) ()) secondThoughts := by
  have hend : ((ChainGlobals.init (treeBlock 1) ()).run (secondThoughts.take 4)).map (fun st =>
      decide (st.Topmost (treeBlock 2).hash)) = .ok true := by
    decide +kernel
  obtain ⟨s, hs, htop⟩ := exists_ok_of_map hend
  refine ⟨⟨by decide +kernel, fun hfailed => ?_⟩,
    fun s1 h1 => ⟨agreeing_steady _ _, fun s2 h2 => ⟨⟨by decide, agreeing_steady _ _⟩,
    fun s3 h3 => ⟨agreeing_steady _ _, fun s4 h4 => ⟨?_, fun s5 h5 => ⟨agreeing_steady _ _, fun _ _ => trivial⟩⟩⟩⟩⟩⟩
  · exact absurd hfailed (by decide +kernel)
  -- the globals before it is reconsidered
  have hrun : (ChainGlobals.init (treeBlock 1) ()).run (secondThoughts.take 4) = .ok s4 :=
    bind_eq_ok.mpr ⟨s1, h1, bind_eq_ok.mpr ⟨s2, h2, bind_eq_ok.mpr ⟨s3, h3, bind_eq_ok.mpr ⟨s4, h4, rfl⟩⟩⟩⟩
  rw [hs] at hrun
  cases hrun
  show s.Topmost (treeBlock 2).hash
  exact of_decide_eq_true htop

/-- It is the tip again, and everything is as it should be. -/
theorem second_thoughts_consistent :
    ∃ st : ChainGlobals Unit, (ChainGlobals.init (treeBlock 1) ()).run secondThoughts = .ok st ∧
      st.tip = some (treeBlock 2).hash ∧ st.checkBlockIndex (treeBlock 1).hash = true := by
  have hend : ((ChainGlobals.init (treeBlock 1) ()).run secondThoughts).map (fun st => st.tip)
      = .ok (some (treeBlock 2).hash) := by
    decide +kernel
  obtain ⟨st, hrun, htip⟩ := exists_ok_of_map hend
  have hproper : ∀ ev ∈ secondThoughts, ev.Proper (treeBlock 1).hash treeParent := by
    simp only [secondThoughts, forall_mem_cons]
    exact ⟨⟨rfl, by decide⟩, trivial, trivial, trivial, trivial, trivial, forall_mem_nil _⟩
  exact ⟨st, hrun, htip, ((check_block_index_passes (by decide) hproper hrun).2.2 orderly_secondThoughts).2⟩

/-- Block `2` with its children `4` and `5` is invalidated, then block `5` reconsidered. -/
def siblings : List (IndexEvent Unit) :=
  [.block agreeing (treeBlock 2), .block agreeing (treeBlock 4), .block agreeing (treeBlock 5),
   .activate agreeing.toChainRules none false, .invalidate agreeing.toChainRules (treeBlock 2).hash,
   .activate agreeing.toChainRules none false, .reconsider (treeBlock 5).hash,
     .activate agreeing.toChainRules none false]

/-- **A sibling is forgotten.** Reconsidering block `5` clears the mark of block `2` but not that of block `4`, which
is then failed below no invalid block. It is as good as the tip and no candidate: two assertions fire. -/
theorem reconsidered_sibling_forgotten : (∀ ev ∈ siblings, ev.Proper (treeBlock 1).hash treeParent) ∧
      ∃ st : ChainGlobals Unit, (ChainGlobals.init (treeBlock 1) ()).run siblings = .ok st ∧
        st.tip = some (treeBlock 5).hash ∧ st.chainTx (treeBlock 4).hash ≠ 0 ∧
          st.firstInvalid (treeBlock 4).hash = false ∧
        st.worse (treeBlock 4).hash (treeBlock 5).hash = false ∧ (treeBlock 4).hash ∉ st.setBlockIndexCandidates ∧
        st.checkBlockIndex (treeBlock 1).hash = false := by
  constructor
  · simp only [siblings, forall_mem_cons]
    exact ⟨⟨rfl, by decide⟩, ⟨rfl, by decide⟩, ⟨rfl, by decide⟩, trivial, trivial, trivial,
      trivial, trivial, forall_mem_nil _⟩
  · have hend : ((ChainGlobals.init (treeBlock 1) ()).run siblings).map (fun st =>
        decide (st.tip = some (treeBlock 5).hash ∧ st.chainTx (treeBlock 4).hash ≠ 0 ∧
          st.firstInvalid (treeBlock 4).hash = false ∧
          st.worse (treeBlock 4).hash (treeBlock 5).hash = false ∧ (treeBlock 4).hash ∉ st.setBlockIndexCandidates ∧
          st.checkBlockIndex (treeBlock 1).hash = false)) = .ok true := by
      decide +kernel
    obtain ⟨st, hrun, hfacts⟩ := exists_ok_of_map hend
    exact ⟨st, hrun, of_decide_eq_true hfacts⟩

end PwrbCore
