/-
  Chain.Selection — THE ACTIVE CHAIN IS THE BEST VALID ONE (`FindMostWorkChain`, `ActivateBestChain` of `main.cpp`).

  `ConnectBlock` says of every block whether it is valid.  Headers and bodies arrive in any
  order, and chain selection runs at any time; nothing is invalidated by hand.  Then every
  valid path of bodies is matched by a candidate that is at least as good, through every
  move of chain selection: the candidate that is connected last is the best of all.

  Main result: `activated_chain_has_most_work`.
-/
import PwrbCore.Chain.Runs

namespace PwrbCore

open ParentTree OrderedSet Checked

variable {block : CBlock} {f : Bool} {n : Nat} {b : Uint256} {C : Uint256 → Prop}

variable {σ : Type} {genesis : Uint256} {parentOf : Uint256 → Uint256} {valid : Uint256 → Bool}
  {Fits : List Uint256 → σ → Prop} {st st' : ChainGlobals σ} {rules : ChainRules σ}

/-! ## §1. Verdicts. -/

variable {coins : σ}

/-- **`ConnectBlock` is deterministic**: on coins that fit the active chain it connects the valid blocks and refuses
the others for good. `Fits` relates coins and chain. -/
structure ChainRules.Decides (rules : ChainRules σ) (valid : Uint256 → Bool) (Fits : List Uint256 → σ → Prop) :
    Prop where
  accepts : ∀ st block f, Fits st.chainActive st.coins → st.pprev block.hash = st.tip → valid block.hash = true →
    ∃ coins, rules.connectBlock st block.hash block f = .ok coins ∧ Fits (block.hash :: st.chainActive) coins
  rejects : ∀ st block f, Fits st.chainActive st.coins → st.pprev block.hash = st.tip → valid block.hash = false →
    ∃ nDoS reason, rules.connectBlock st block.hash block f = .error (.invalid nDoS reason false)
  undoes : ∀ st block below coins, Fits st.chainActive st.coins → st.chainActive = block.hash :: below →
    rules.disconnectBlock st block = .ok coins → Fits below coins

namespace ChainRules.Decides

variable {e : ValidationError}

section

variable (d : rules.Decides valid Fits) (hfits : Fits st.chainActive st.coins) (hnext : st.pprev block.hash = st.tip)

include d hfits hnext

theorem valid_of_connected (hrun : rules.connectBlock st block.hash block f = .ok coins) : valid block.hash = true := by
  cases hv : valid block.hash with
  | true => rfl
  | false =>
    obtain ⟨nDoS, reason, hrefused⟩ := d.rejects st block f hfits hnext hv
    rw [hrun] at hrefused
    cases hrefused

theorem fits_connected (hrun : rules.connectBlock st block.hash block f = .ok coins) :
    Fits (block.hash :: st.chainActive) coins := by
  obtain ⟨coins', hrun', hfits'⟩ := d.accepts st block f hfits hnext (d.valid_of_connected hfits hnext hrun)
  rw [hrun] at hrun'
  cases hrun'
  exact hfits'

theorem invalid_of_refused (hrun : rules.connectBlock st block.hash block f = .error e) : valid block.hash = false := by
  cases hv : valid block.hash with
  | false => rfl
  | true =>
    obtain ⟨coins, hok, -⟩ := d.accepts st block f hfits hnext hv
    rw [hrun] at hok
    cases hok

end

end ChainRules.Decides

/-- A block that is not failed is as valid as it was found to be. -/
theorem CBlockIndex.nValid_raiseValidity (e : CBlockIndex) (hfailed : e.failed = false) :
    n ≤ (e.raiseValidity n).nValid := by
  unfold CBlockIndex.raiseValidity
  rw [hfailed, if_neg Bool.false_ne_true]
  split_ifs with hlow
  · exact le_rfl
  · omega

namespace ChainGlobals

/-- The bodies down to the first block are there, and no block on the way is invalid. -/
def Good (genesis : Uint256) (valid : Uint256 → Bool) (st : ChainGlobals σ) (b : Uint256) : Prop :=
  st.chainTx b ≠ 0 ∧ ∀ a, Above st.pprev a b → a ≠ genesis → valid a = true

/-- **What is known of the verdicts**: active blocks are valid; a flag on a block with a body means an invalid block
there or above; every good block is matched by a good candidate. -/
structure Judged (genesis : Uint256) (valid : Uint256 → Bool) (Fits : List Uint256 → σ → Prop) (st : ChainGlobals σ) :
    Prop where
  fits : Fits st.chainActive st.coins
  active : ∀ a ∈ st.chainActive, a ≠ genesis → valid a = true ∧ ∃ e, st.index a = some e ∧
    BLOCK_VALID_SCRIPTS ≤ e.nValid
  flagged : ∀ h e, st.index h = some e → e.failed = true → e.data.isSome = true →
    ∃ a, Above st.pprev a h ∧ a ≠ genesis ∧ valid a = false
  covered : ∀ b, st.Good genesis valid b → ∃ c ∈ st.setBlockIndexCandidates, st.Good genesis valid c ∧
    st.worse c b = false

variable {h t : Uint256}

theorem Good.kept (hkept : Kept st st') : st'.Good genesis valid b ↔ st.Good genesis valid b := by
  unfold Good
  rw [hkept.chainTx, hkept.pprev]

theorem Good.not_of_invalid {a : Uint256} (ha : Above st.pprev a b) (hg : a ≠ genesis) (hinvalid : valid a = false) :
    ¬ st.Good genesis valid b := by
  intro hgood
  have hvalid := hgood.2 a ha hg
  rw [hinvalid] at hvalid
  cases hvalid

namespace Judged

theorem tip_good (j : st.Judged genesis valid Fits) (c : st.Basic genesis) (ht : st.tip = some t) :
    st.Good genesis valid t := by
  refine ⟨c.tip_linked ht, fun a ha hg => ?_⟩
  exact (j.active a ((c.mem_active ht).mpr ha) hg).1

theorem genesis_good (c : st.Basic genesis) : st.Good genesis valid genesis := by
  obtain ⟨t, ht, -, hlinked⟩ := c.exists_tip
  refine ⟨c.wired.linked_above hlinked (c.above_genesis hlinked), fun a ha hg => ?_⟩
  -- nothing is above the first block
  rcases ha.cases with rfl | ⟨p, hp, -⟩
  · exact absurd rfl hg
  · rw [c.wired.pprev_genesis] at hp
    cases hp

end Judged

end ChainGlobals

/-! ## §2. What chain selection keeps. -/

namespace ChainGlobals

theorem Judged.covered_of (j : st.Judged genesis valid Fits) (hkept : Kept st st')
    (hstays : ∀ c ∈ st.setBlockIndexCandidates, st.Good genesis valid c → c ∈ st'.setBlockIndexCandidates)
    (hb : st'.Good genesis valid b) :
    ∃ c ∈ st'.setBlockIndexCandidates, st'.Good genesis valid c ∧ st'.worse c b = false := by
  obtain ⟨c, hc, hgood, hworse⟩ := j.covered b ((Good.kept hkept).mp hb)
  refine ⟨c, hstays c hc hgood, (Good.kept hkept).mpr hgood, ?_⟩
  rw [hkept.worse]
  exact hworse

/-- **New flags below invalid blocks**: on the same chain, where no good candidate is lost and every new flag on a
block with a body has an invalid block above, the verdicts are known as before. -/
theorem Judged.of_flags (j : st.Judged genesis valid Fits) (hkept : Kept st st')
    (hchain : st'.chainActive = st.chainActive)
    (hcoins : st'.coins = st.coins)
    (hentries : ∀ k e', st'.index k = some e' → ∃ e, st.index k = some e ∧ e.nValid ≤ e'.nValid ∧
      (e'.failed = true → e'.data.isSome = true → e.failed = true ∨ ∃ a, Above st.pprev a k ∧
        a ≠ genesis ∧ valid a = false))
    (hstays : ∀ c ∈ st.setBlockIndexCandidates, st.Good genesis valid c → c ∈ st'.setBlockIndexCandidates) :
    st'.Judged genesis valid Fits := by
  refine ⟨?_, fun a ha hg => ?_, fun k e' he' hfailed hdata => ?_, fun b hb => j.covered_of hkept hstays hb⟩
  · rw [hchain, hcoins]
    exact j.fits
  · grind [j.active, hkept.known]
  obtain ⟨e, he, -, hflag⟩ := hentries k e' he'
  rw [hkept.pprev]
  rcases hflag hfailed hdata with hfailed0 | habove
  · refine j.flagged k e he hfailed0 ?_
    rw [← haveData_of_index he, ← hkept.haveData, haveData_of_index he']
    exact hdata
  · exact habove

/-- **A move of chain selection keeps what is known of the verdicts.** -/
theorem Judged.move (j : st.Judged genesis valid Fits) (c : st.Basic genesis) (hrules : rules.Decides valid Fits)
    (m : rules.Move C st st') : st'.Judged genesis valid Fits := by
  have hkept := m.kept
  cases m with
  | connect hM hway hnext hlinked husable hblock hrun hprune =>
    rename_i h M block f coins
    subst hblock
    obtain ⟨-, hchain, hcoins, hindex, hcands⟩ := connected_pruned hprune
    obtain ⟨t, ht, -, -⟩ := c.exists_tip
    have hvalid : valid block.hash = true := hrules.valid_of_connected j.fits hnext hrun
    have hgood : st.Good genesis valid block.hash := by
      refine ⟨hlinked, fun a ha hg => ?_⟩
      rcases ha.cases with rfl | ⟨p, hp, hap⟩
      · exact hvalid
      · rw [hnext, ht] at hp
        cases hp
        exact (j.tip_good c ht).2 a hap hg
    refine ⟨?_, fun a ha hg => ?_, fun k e' he' hfailed hdata => ?_, fun b hb => ?_⟩
    · rw [hchain, hcoins]
      exact hrules.fits_connected j.fits hnext hrun
    · rw [hchain, List.mem_cons] at ha
      rcases ha with rfl | ha
      · obtain ⟨e, he⟩ := known_of_chainTx hlinked
        refine ⟨hvalid, e.raiseValidity BLOCK_VALID_SCRIPTS, by rw [hindex, if_pos rfl, he]; rfl, ?_⟩
        exact e.nValid_raiseValidity ((failed_of_index he).symm.trans husable)
      obtain ⟨hva, e, he, hscripts⟩ := j.active a ha hg
      refine ⟨hva, ?_⟩
      rw [hindex]
      split_ifs
      · exact ⟨_, by rw [he]; rfl, le_trans hscripts (e.le_nValid_raiseValidity _)⟩
      · exact ⟨e, he, hscripts⟩
    · obtain ⟨e, he, -⟩ := hkept.symm.known he'
      rw [hkept.pprev]
      refine j.flagged k e he ?_ ?_
      · rw [← failed_of_index he, ← failed_connected hprune, failed_of_index he']
        exact hfailed
      · rw [← haveData_of_index he, ← hkept.haveData, haveData_of_index he']
        exact hdata
    · -- what was pruned is worse than the new tip, and a candidate matches that
      obtain ⟨k, hk, hkgood, hkb⟩ := j.covered b ((Good.kept hkept).mp hb)
      have hworse := hkept.worse
      cases hkh : st.worse k block.hash with
      | false => exact ⟨k, (hcands k).mpr ⟨hk, hkh⟩, (Good.kept hkept).mpr hkgood, by rw [hworse]; exact hkb⟩
      | true =>
        obtain ⟨k', hk', hkgood', hkh'⟩ := j.covered block.hash hgood
        refine ⟨k', (hcands k').mpr ⟨hk', hkh'⟩, (Good.kept hkept).mpr hkgood', ?_⟩
        have hhk : st.worse block.hash k = false := st.worse_strictTotal.asymm hkh
        rw [hworse]
        exact st.worse_strictTotal.not_lt_trans (st.worse_strictTotal.not_lt_trans hkh' hhk) hkb
  | invalid hnext hlinked husable hblock hrun =>
    rename_i h block f nDoS reason
    subst hblock
    obtain ⟨hchain, hcands, -, -, hcoins⟩ := st.update_fields block.hash fun e => { e with failedValid := true }
    obtain ⟨t, ht, -, -⟩ := c.exists_tip
    have hvalid : valid block.hash = false := hrules.invalid_of_refused j.fits hnext hrun
    have hne : block.hash ≠ genesis := by grind [c.wired.pprev_genesis]
    have hindex : ∀ k, ((st.markFailedValid block.hash).eraseCandidate block.hash).index k
        = if k = block.hash then (st.index k).map fun e => { e with failedValid := true } else st.index k :=
      fun k => index_update st block.hash k _
    refine j.of_flags hkept hchain hcoins (fun k e' he' => ?_) (fun k hk hkgood => ?_)
    · rw [hindex] at he'
      split_ifs at he' with hk
      · obtain ⟨e, he, rfl⟩ := Option.map_eq_some_iff.mp he'
        refine ⟨e, he, le_rfl, fun _ _ => .inr ⟨block.hash, ?_, hne, hvalid⟩⟩
        rw [hk]
        exact .refl _ _
      · exact ⟨e', he', le_rfl, fun hfailed _ => .inl hfailed⟩
    · rw [mem_eraseCandidate, show (st.markFailedValid block.hash).setBlockIndexCandidates = _ from hcands]
      refine ⟨hk, fun hkh => ?_⟩
      rw [hkh] at hkgood
      exact Good.not_of_invalid (.refl _ _) hne hvalid hkgood
  | disconnect hM ht haway hrun =>
    obtain ⟨t', p, below, coins, hchain, rfl, block, hread, hundo⟩ := disconnectTip_eq hrun
    have hhash : block.hash = t' := c.stored t' block hread
    refine ⟨?_, fun a ha hg => ?_, j.flagged, j.covered⟩
    · refine hrules.undoes st block (p :: below) coins j.fits ?_ hundo
      rw [hhash, hchain]
    · refine j.active a ?_ hg
      rw [hchain]
      exact List.mem_cons_of_mem _ ha
  | discard hM hbad hfailed =>
    rename_i M bad
    obtain ⟨-, hchain, hcoins, hindex, hcands⟩ := discardCandidate_spec (M := M) hfailed
    have hMlinked := c.candidates M (bestCandidate_spec hM).1
    have hbadM : Above st.pprev bad M := (mem_path c.ranked).mp ((List.takeWhile_sublist _).subset hbad)
    -- the failed block has its body, so it or a block above it is invalid
    obtain ⟨e, he⟩ := known_of_chainTx (c.wired.linked_above hMlinked hbadM)
    obtain ⟨a, ha, hag, hinvalid⟩ := j.flagged bad e he ((failed_of_index he).symm.trans hfailed) (by
      rw [← haveData_of_index he]
      exact c.wired.data_of_linked (c.wired.linked_above hMlinked hbadM))
    have hbelow : ∀ k ∈ (st.path M).takeWhile (fun x => decide (x ≠ bad)), Above st.pprev a k := fun k hk =>
      ha.trans (above_of_mem_takeWhile c.ranked hbadM hk)
    refine j.of_flags hkept hchain hcoins (fun k e' he' => ?_) (fun k hk hkgood => ?_)
    · rw [hindex] at he'
      split_ifs at he' with hk
      · obtain ⟨e0, he0, rfl⟩ := Option.map_eq_some_iff.mp he'
        exact ⟨e0, he0, le_rfl, fun _ _ => .inr ⟨a, hbelow k hk, hag, hinvalid⟩⟩
      · exact ⟨e', he', le_rfl, fun hflag _ => .inl hflag⟩
    · grind [Good.not_of_invalid]

end ChainGlobals

/-! ## §3. What arrivals keep. -/

namespace ChainGlobals

section

variable (j : st.Judged genesis valid Fits)

include j

/-- **A new header** is not linked: nothing that was good changes. -/
theorem Judged.header (c : st.Basic genesis) {n : Int} {prev : CBlockIndex}
    (hnew : st.index block.hash = none) (hadd : st.addToBlockIndex n block prev = some st') :
    st'.Judged genesis valid Fits := by
  have hindex := index_addToBlockIndex hadd
  have hglobals := addToBlockIndex_eq hadd
  have hchain : st'.chainActive = st.chainActive := by rw [hglobals]
  have hcoins : st'.coins = st.coins := by rw [hglobals]
  have hcands : st'.setBlockIndexCandidates = st.setBlockIndexCandidates := by rw [hglobals]
  -- the entries that were there
  have hcases : ∀ {k e'}, st'.index k = some e' → (k = block.hash ∧ e' = st.newEntry block prev) ∨
      st.index k = some e' := by
    grind
  have hread : ∀ {k e}, st.index k = some e → st'.index k = some e := fun he => index_add_of_known hnew hadd he
  have hgood : ∀ {b}, st'.Good genesis valid b → ∃ e, st.index b = some e ∧ st.Good genesis valid b := by
    intro b hb
    obtain ⟨e', he'⟩ := known_of_chainTx hb.1
    have hlinked := hb.1
    rw [chainTx_of_index he'] at hlinked
    rcases hcases he' with ⟨-, rfl⟩ | he
    · exact absurd rfl hlinked
    · refine ⟨e', he, by rw [chainTx_of_index he]; exact hlinked, fun a ha hg => ?_⟩
      exact hb.2 a ((c.wired.above_add hnew hadd he).mpr ha) hg
  refine ⟨?_, fun a ha hg => ?_, fun k e' he' hfailed hdata => ?_, fun b hb => ?_⟩
  · rw [hchain, hcoins]
    exact j.fits
  · grind [j.active]
  · rcases hcases he' with ⟨-, rfl⟩ | he
    · cases hdata
    · grind [j.flagged, c.wired.above_add]
  · obtain ⟨e, he, hb0⟩ := hgood hb
    obtain ⟨k, hk, hkgood, hworse⟩ := j.covered b hb0
    obtain ⟨ek, hek⟩ := known_of_chainTx hkgood.1
    refine ⟨k, by rw [hcands]; exact hk, ⟨?_, fun a ha hg => ?_⟩, ?_⟩
    · rw [chainTx_of_index (hread hek), ← chainTx_of_index hek]
      exact hkgood.1
    · exact hkgood.2 a ((c.wired.above_add hnew hadd hek).mp ha) hg
    rw [← hworse]
    exact worse_add hnew hadd hkgood.1 hb0.1

/-- **A stored body** links blocks: each a candidate, or worse than the tip. -/
theorem Judged.body (c : st.Basic genesis) {e : CBlockIndex}
    (he : st.index block.hash = some e) (hfailed : e.failed = false) (g : Grown st block st') :
        st'.Judged genesis valid Fits := by
  have hflags : ∀ {k e'}, st'.index k = some e' → ∃ e0, st.index k = some e0 ∧ e0.failed = e'.failed := by
    intro k e' he'
    have hread := g.flags k
    rw [he'] at hread
    obtain ⟨e0, he0, hpair⟩ := Option.map_eq_some_iff.mp hread.symm
    refine ⟨e0, he0, ?_⟩
    unfold CBlockIndex.failed
    rw [(Prod.mk.inj hpair).1, (Prod.mk.inj hpair).2]
  have hactive : ∀ {a}, a ∈ st.chainActive → st'.index a = st.index a := by
    grind [c.exists_tip, g.fixed, c.wired.linked_above, c.mem_active]
  have hgood : ∀ {k}, st.Good genesis valid k → st'.Good genesis valid k := by
    intro k hk
    refine ⟨by rw [g.chainTx hk.1]; exact hk.1, fun a ha hg => hk.2 a ?_ hg⟩
    rw [← g.pprev]
    exact ha
  refine ⟨?_, fun a ha hg => ?_, fun k e' he' hfailed' hdata => ?_, fun b hb => ?_⟩
  · rw [g.active, g.coins]
    exact j.fits
  · rw [g.active] at ha
    rw [hactive ha]
    exact j.active a ha hg
  · obtain ⟨e0, he0, hsame⟩ := hflags he'
    rw [g.pprev]
    refine j.flagged k e0 he0 (hsame.trans hfailed') ?_
    -- the block whose body this is carries no flag
    have hk : k ≠ block.hash := by grind
    have hdisk := g.readBlockFromDisk he k
    rw [if_neg hk] at hdisk
    unfold readBlockFromDisk at hdisk
    rw [he', he0] at hdisk
    have hsameData : e'.data = e0.data := hdisk
    rw [← hsameData]
    exact hdata
  · obtain ⟨t, ht, -, hlinked⟩ := c.exists_tip
    by_cases hold : st.chainTx b = 0
    · -- newly linked
      cases hworth : st'.worthTrying b with
      | true => exact ⟨b, (g.candidates b).mpr (.inr ⟨hold, hb.1, hworth⟩), hb, st'.worse_strictTotal.irrefl b⟩
      | false =>
        -- worse than the tip, and a candidate matches the tip
        obtain ⟨k, hk, hkgood, hkt⟩ := j.covered t (j.tip_good c ht)
        refine ⟨k, (g.candidates k).mpr (.inl hk), hgood hkgood, ?_⟩
        unfold worthTrying at hworth
        rw [g.tip, ht] at hworth
        have hbt : st'.worse b t = true := by simpa using hworth
        rw [← g.worse hkgood.1 hlinked] at hkt
        exact st'.worse_strictTotal.not_lt_trans hkt (st'.worse_strictTotal.asymm hbt)
    · have hb0 : st.Good genesis valid b := by
        refine ⟨hold, fun a ha hg => hb.2 a ?_ hg⟩
        rw [g.pprev]
        exact ha
      obtain ⟨k, hk, hkgood, hkb⟩ := j.covered b hb0
      refine ⟨k, (g.candidates k).mpr (.inl hk), hgood hkgood, ?_⟩
      rw [g.worse hkgood.1 hold]
      exact hkb

/-- **Arrivals keep what is known of the verdicts.** -/
theorem Judged.arrival (c : st.Basic genesis) (m : Arrival parentOf st st') : st'.Judged genesis valid Fits := by
  cases m with
  | header hnew hprev hvalid hname hadd => exact j.header c hnew hadd
  | refuse he hnone =>
    rename_i h e
    have hkept := Kept.markFailedValid st h
    obtain ⟨hchain, hcands, -, -, hcoins⟩ := st.update_fields h fun e => { e with failedValid := true }
    have hindex : ∀ k, (st.markFailedValid h).index k
        = if k = h then (st.index k).map fun e => { e with failedValid := true } else st.index k :=
      fun k => index_update st h k _
    refine j.of_flags hkept hchain hcoins (fun k e' he' => ?_) (fun k hk _ => ?_)
    · grind
    · rw [show (st.markFailedValid h).setBlockIndexCandidates = _ from hcands]
      exact hk
  | body he hnone hfailed hbody hparent => exact j.body c he hfailed (c.received he hnone hbody hparent).2

/-- **`ReconsiderBlock`** clears flags and adds candidates. -/
theorem Judged.reconsidered (h : Uint256) : (st.reconsiderBlock h).Judged genesis valid Fits := by
  obtain ⟨hkept, hchain, hcoins, hindex, hcands⟩ := reconsiderBlock_spec st h
  refine j.of_flags hkept hchain hcoins (fun k e' he' => ?_) (fun k hk _ => (hcands k).mpr (.inl hk))
  rw [hindex] at he'
  obtain ⟨e, he, rfl⟩ := Option.map_eq_some_iff.mp he'
  refine ⟨e, he, ?_, fun hfailed _ => .inl ?_⟩
  · split_ifs <;> exact le_rfl
  · split_ifs at hfailed
    · cases hfailed
    · exact hfailed

end

end ChainGlobals

/-! ## §4. Runs. -/

namespace ChainGlobals

/-- **The best valid chain is active**: a path of connected, valid blocks from the first block to the tip, and no
known block whose whole path has bodies and is valid has more work. -/
def HasMostWork (genesis : Uint256) (valid : Uint256 → Bool) (st : ChainGlobals σ) : Prop :=
  ∃ t, st.tip = some t ∧ st.chainActive = st.path t ∧ genesis ∈ st.chainActive ∧
    (∀ a ∈ st.chainActive, a ≠ genesis → valid a = true ∧ ∃ e, st.index a = some e ∧ BLOCK_VALID_SCRIPTS ≤ e.nValid) ∧
    ∀ b e, st.index b = some e → (∀ a ∈ st.path b, st.haveData a = true ∧ (a ≠ genesis → valid a = true)) →
      st.work b ≤ st.work t

theorem Judged.moves (j : st.Judged genesis valid Fits) (c : st.Basic genesis)
    (hrules : rules.Decides valid Fits) (ms : rules.Moves C st st') : st'.Judged genesis valid Fits := by
  have hboth : st'.Basic genesis ∧ st'.Judged genesis valid Fits :=
    ms.holds (P := fun s => s.Basic genesis ∧ s.Judged genesis valid Fits) ⟨c, j⟩ fun s s' hs m =>
      ⟨m.basic hs.1, hs.2.move hs.1 hrules m⟩
  exact hboth.2

/-- **What a call of `ActivateBestChain` ends with.** -/
theorem Judged.activated {pblock : Option CBlock} (j : st.Judged genesis valid Fits)
    (c : st.Basic genesis) (hrules : rules.Decides valid Fits)
    (hrun : rules.activateLoop pblock f n st = .ok (st', true)) : st'.HasMostWork genesis valid := by
  have hsteps := ChainRules.activateLoop_moves (C := fun _ => True) c (fun _ _ => trivial) hrun
  obtain ⟨hmoves, hend⟩ := hsteps
  have c' := hmoves.basic c
  have j' := j.moves c hrules hmoves
  obtain ⟨t, ht, hactive, hlinked⟩ := c'.exists_tip
  refine ⟨t, ht, hactive, (c'.mem_active ht).mpr (c'.above_genesis hlinked), j'.active, fun b e he hway => ?_⟩
  have hb : st'.Good genesis valid b := by
    refine ⟨(c'.wired.chainTx_iff he).mpr fun a ha => ?_, fun a ha hg => ?_⟩
    · exact (hway a ((mem_path c'.ranked).mpr ha)).1
    · exact (hway a ((mem_path c'.ranked).mpr ha)).2 hg
  obtain ⟨s, hs, hlast⟩ := hend
  have js := j.moves c hrules hs
  have cs := hs.basic c
  rcases hlast with ⟨hnone, -⟩ | ⟨M, hM, hs', htip⟩
  · -- a candidate matches the first block, so there is one
    obtain ⟨k, hk, -, -⟩ := js.covered genesis (genesis_good cs)
    rw [bestCandidate_eq_none hnone] at hk
    cases hk
  · -- the tip was the best candidate, and a candidate matches the block
    rw [ht] at htip
    cases htip
    obtain ⟨k, hk, -, hkb⟩ := js.covered b ((Good.kept hs'.kept).mp hb)
    have hMk : s.worse t k = false := (bestCandidate_spec hM).2 k hk
    rw [hs'.kept.work]
    exact work_le_of_not_worse (s.worse_strictTotal.not_lt_trans hMk hkb)

/-- **At the start** the first block matches itself. -/
theorem judged_init {genesis : CBlock} (hfits : Fits [genesis.hash] coins) :
    (init genesis coins).Judged genesis.hash valid Fits := by
  refine ⟨hfits, fun a ha hg => ?_, fun h e he hfailed _ => ?_, fun b hb => ?_⟩
  · exact absurd (List.mem_singleton.mp ha) hg
  · rw [index_init] at he
    split_ifs at he
    cases he
    cases hfailed
  · -- every known block is the first block
    obtain ⟨e, he⟩ := known_of_chainTx hb.1
    rw [index_init] at he
    split_ifs at he with hbg
    subst hbg
    exact ⟨genesis.hash, List.mem_singleton.mpr rfl, hb, (init genesis coins).worse_strictTotal.irrefl _⟩

/-- **Every event but `InvalidateBlock` keeps what is known of the verdicts.** -/
theorem Judged.step {ev : IndexEvent σ} (j : st.Judged genesis valid Fits) (c : st.Coherent genesis parentOf)
    (hproper : ev.Proper genesis parentOf) (hauto : ∀ rules h, ev ≠ .invalidate rules h)
    (hdecides : ∀ rules, ev.chainRules = some rules → rules.Decides valid Fits) (hstep : st.step ev = .ok st') :
    st'.Judged genesis valid Fits :=
  step_holds c j hproper hstep (fun _ _ cs js m => js.arrival cs.toBasic m)
    (fun rules _ hrules b0 j0 ms => j0.moves b0 (hdecides rules hrules) ms)
      (fun rules h hev => absurd hev (hauto rules h)) j.reconsidered

end ChainGlobals

open ChainGlobals in
/-- **Chain selection.** For every sequence of headers, blocks, activations and reconsidered blocks (`AcceptBlock`
reconsiders a failed checkpoint by itself) and every assignment of verdicts: `FindMostWorkChain` returns, and whenever
`ActivateBestChain` returns true, after any number of turns, the best valid chain is active. -/
theorem activated_chain_has_most_work {genesis : CBlock} {coins : σ} {parentOf : Uint256 → Uint256}
    {valid : Uint256 → Bool}
    {Fits : List Uint256 → σ → Prop} {evs : List (IndexEvent σ)} {st : ChainGlobals σ} (hne : genesis.vtx ≠ [])
    (hfits : Fits [genesis.hash] coins) (hproper : ∀ ev ∈ evs, ev.Proper genesis.hash parentOf)
    (hauto : ∀ ev ∈ evs, ∀ rules h, ev ≠ .invalidate rules h)
    (hdecides : ∀ ev ∈ evs, ∀ rules, ev.chainRules = some rules → rules.Decides valid Fits)
    (hrun : (init genesis coins).run evs = .ok st) :
    (∀ (rules : ChainRules σ) pblock f n st', rules.Decides valid Fits →
      rules.activateLoop pblock f n st = .ok (st', true) → st'.HasMostWork genesis.hash valid) ∧
    (∃ st' r, st.findMostWorkChain = .ok (st', r)) ∧ ∀ any :
        ChainGlobals σ, any.findMostWorkChain ≠ .error .running := by
  have hstate := run_holds (P := fun s => s.Judged genesis.hash valid Fits) (coherent_init hne coins parentOf)
    (judged_init hfits) hproper
    (fun ev hev s s' c j hstep => j.step c (hproper ev hev) (hauto ev hev) (hdecides ev hev) hstep) hrun
  obtain ⟨c, j⟩ := hstate
  exact ⟨fun rules pblock f n st' hrules hact => j.activated c.toBasic hrules hact,
    ChainRules.findMostWorkChain_returns c.toBasic, findMostWorkChain_terminates⟩

/-! ### A tree of blocks. -/

/-- Block `n` of a binary tree; block `1` is the first, `n / 2` the parent of `n`. -/
def treeBlock (n : Nat) : CBlock where
  hash := BitVec.ofNat 256 n
  hashPrevBlock := BitVec.ofNat 256 (n / 2)
  nTime := n
  nBits := 0x207fffff
  vtx := [{ hash := BitVec.ofNat 256 n, vin := [], vout := [] }]

def treeParent (h : Uint256) : Uint256 := BitVec.ofNat 256 (h.toNat / 2)

def verdictRules (valid : Uint256 → Bool) : AcceptRules Unit where
  connectBlock _ h _ _ := if valid h then .ok () else .error (dos 100 "bad-block")
  disconnectBlock _ _ := .ok ()
  params := { ConsensusParams.mainNet with hashGenesisBlock := (treeBlock 1).hash }
  height_start_StakeModifierV2 := 100
  maxReorg := 100
  mapCheckpoints := none
  checkBlockHeader _ := .ok ()
  checkBlockTime _ _ := .ok ()
  checkWork _ _ := true
  checkProofOfStake _ _ := true
  checkBlock _ block := require (block.vtx ≠ []) (dos 100 "bad-blk-length")
  checkBlockSignature _ := true
  contextualCheckBlock _ _ _ := .ok ()
  checkStakeInputs _ _ := .ok ()
  checkBlock_ne_nil _ _ h := require_eq_ok.mp h

theorem verdictRules_decides (valid : Uint256 → Bool) :
    (verdictRules valid).Decides valid fun _ _ => True where
  accepts st block f _ _ hvalid := ⟨(), if_pos hvalid, trivial⟩
  rejects st block f _ _ hvalid := ⟨100, "bad-block", if_neg (by rw [hvalid]; exact Bool.false_ne_true)⟩
  undoes _ _ _ _ _ _ _ := trivial

def notFive (h : Uint256) : Bool := decide (h ≠ 5)

def twoChildren : List (IndexEvent Unit) :=
  [.header (verdictRules notFive) (treeBlock 2), .block (verdictRules notFive) (treeBlock 2),
   .block (verdictRules notFive) (treeBlock 5), .block (verdictRules notFive) (treeBlock 4)]

/-- The invalid child is tried and given up, then its sibling is connected. -/
theorem sibling_of_invalid_selected :
    ∃ st st' : ChainGlobals Unit, (ChainGlobals.init (treeBlock 1) ()).run twoChildren = .ok st ∧
      (verdictRules notFive).activateBestChain st none false = .ok (st', true) ∧ st'.tip = some (treeBlock 4).hash ∧
      st'.HasMostWork (treeBlock 1).hash notFive := by
  have hend : (((ChainGlobals.init (treeBlock 1) ()).run twoChildren >>= fun st =>
      (verdictRules notFive).activateBestChain st none false).map fun r => (r.1.tip, r.2))
        = .ok (some (treeBlock 4).hash, true) := by
    decide +kernel
  obtain ⟨⟨st', r⟩, hboth, hpair⟩ := exists_ok_of_map hend
  obtain ⟨st, hrun, hact⟩ := bind_eq_ok.mp hboth
  have htip : st'.tip = some (treeBlock 4).hash := (Prod.mk.inj hpair).1
  have hr : r = true := (Prod.mk.inj hpair).2
  subst hr
  have hproper : ∀ ev ∈ twoChildren, ev.Proper (treeBlock 1).hash treeParent := by
    simp only [twoChildren, List.forall_mem_cons]
    exact ⟨⟨rfl, by decide⟩, ⟨rfl, by decide⟩, ⟨rfl, by decide⟩, ⟨rfl, by decide⟩, List.forall_mem_nil _⟩
  have hauto : ∀ ev ∈ twoChildren, ∀ rules h, ev ≠ .invalidate rules h := by simp [twoChildren]
  have hdecides : ∀ ev ∈ twoChildren, ∀ rules, ev.chainRules = some rules → rules.Decides notFive fun _ _ => True := by
    simp [twoChildren, IndexEvent.chainRules, verdictRules_decides]
  have hbest := (activated_chain_has_most_work (by decide) (by exact trivial) hproper hauto hdecides hrun).1
  exact ⟨st, st', hrun, hact, htip, hbest _ none false _ st' (verdictRules_decides notFive) hact⟩

end PwrbCore
