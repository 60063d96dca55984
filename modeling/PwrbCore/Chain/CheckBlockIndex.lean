/-
  Chain.CheckBlockIndex — THE CONSISTENCY CHECK OF THE BLOCK INDEX (`CheckBlockIndex` of `main.cpp`).

  The check goes through the tree of blocks from the first one down and asserts, of every entry, how its
  status, its place in the tree, the candidates and `mapBlocksUnlinked` belong together.  Most of what it
  asserts holds in every run: how far a block has been validated says whether its body is there, and a block
  was never connected before its parent (`Statuses`).  What it asserts of failed blocks and candidates does not
  (`Tracked`).

  Main results: `checkBlockIndex_eq_true`, `Statuses.step`.
-/
import PwrbCore.Chain.Selection

namespace PwrbCore

open ParentTree OrderedSet Checked List Option CBlockIndex Bool

variable {genesis h k : Uint256} {e : CBlockIndex} {C : Uint256 → Prop} {block : CBlock}

variable {σ : Type}

/-! ## §1. The check. -/

variable {st st' : ChainGlobals σ}

def BLOCK_VALID_CHAIN : Nat := 4

namespace ChainGlobals

section

variable (st : ChainGlobals σ)

/-- A `pindexFirst...` is set at `h`: the search came down from the first block and met an entry with the property. -/
def met (p : CBlockIndex → Bool) (h : Uint256) : Bool := (st.path h).any fun a => (st.index a).any p

def firstInvalid (h : Uint256) : Bool := st.met CBlockIndex.failedValid h

def firstMissing (h : Uint256) : Bool := st.met (fun e => e.data.isNone) h

/-- `pindexFirstNotTreeValid`, `pindexFirstNotChainValid` or `pindexFirstNotScriptsValid`, not `NULL`. -/
def firstNotValid (nUpTo : Nat) (h : Uint256) : Bool :=
  st.met (fun e => e.pprev.isSome && decide (e.nValid < nUpTo)) h

def checkGenesis (hashGenesisBlock h : Uint256) (e : CBlockIndex) : Bool :=
  e.pprev.isSome || (decide (h = hashGenesisBlock) && decide (st.chainActive.getLast? = some h))

/-- Body, `nTx`, `nChainTx` and `nSequenceId` agree. -/
def checkData (h : Uint256) (e : CBlockIndex) : Bool :=
  (e.data.isNone == decide (e.nTx = 0))
    && (decide (BLOCK_VALID_TRANSACTIONS ≤ e.nValid) == decide (0 < e.nTx))
    && (decide (e.nChainTx ≠ 0) || decide (e.nSequenceId = 0))
    && (st.firstMissing h == decide (e.nChainTx = 0))

/-- The assertions about the place of a block: reached from the first block, as deep as `nHeight` says. -/
def checkPlace (hashGenesisBlock h : Uint256) (e : CBlockIndex) : Bool :=
  decide ((st.path h).getLast? = some hashGenesisBlock)
    && decide ((st.path h).length = e.nHeight + 1)
    && (e.pprev.all fun p => decide (st.work p ≤ e.nChainWork))
    && (decide (e.nHeight < 2) || e.pskip.any fun s => decide (st.height s < e.nHeight))

def checkValidity (h : Uint256) (e : CBlockIndex) : Bool :=
  !st.firstNotValid BLOCK_VALID_TREE h
    && (decide (e.nValid < BLOCK_VALID_CHAIN) || !st.firstNotValid BLOCK_VALID_CHAIN h)
    && (decide (e.nValid < BLOCK_VALID_SCRIPTS) || !st.firstNotValid BLOCK_VALID_SCRIPTS h)
    && (st.firstInvalid h || !e.failed)

/-- The candidates are the blocks as good as the tip with every body there. -/
def checkCandidate (t h : Uint256) : Bool :=
  if !st.worse h t && !st.firstMissing h then st.firstInvalid h || decide (h ∈ st.setBlockIndexCandidates)
  else decide (h ∉ st.setBlockIndexCandidates)

def checkUnlinked (h : Uint256) (e : CBlockIndex) : Bool :=
  let foundInUnlinked := st.mapBlocksUnlinked.any fun pair => decide (some pair.1 = e.pprev) && decide (pair.2 = h)
  if e.pprev.isSome && e.data.isSome && st.firstMissing h then st.firstInvalid h || foundInUnlinked
  else !foundInUnlinked

/-- `CheckBlockIndex`: whether every assertion holds. -/
def checkBlockIndex (hashGenesisBlock : Uint256) : Bool :=
  match st.tip with
  | none => decide (st.mapBlockIndex.keys.length ≤ 1)
  | some t =>
    decide ((st.mapBlockIndex.keys.filter fun h => (st.pprev h).isNone).length = 1)
      && st.mapBlockIndex.keys.all fun h => (st.index h).all fun e =>
        st.checkGenesis hashGenesisBlock h e && st.checkData h e && st.checkPlace hashGenesisBlock h e
          && st.checkValidity h e && st.checkCandidate t h && st.checkUnlinked h e

end

/-! ## §2. Work and candidates. -/

section

variable {a : Uint256} {rules : ChainRules σ}

/-- Every block has more chain work than its parent. -/
def WorkGrows (st : ChainGlobals σ) : Prop := ∀ h p, st.pprev h = some p → st.work p < st.work h

theorem WorkGrows.work_lt (hgrows : st.WorkGrows) (ha : Above st.pprev a h) (hne : a ≠ h) : st.work a < st.work h := by
  have hle : ∀ {x : Uint256}, Above st.pprev a x → st.work a ≤ st.work x := by
    intro x hx
    exact hx.holds (P := fun y => st.work y ≤ st.work x) (le_rfl) fun y p hy hp =>
      le_trans (le_of_lt (hgrows y p hp)) hy
  rcases ha.cases with rfl | ⟨p, hp, hap⟩
  · exact absurd rfl hne
  · exact lt_of_le_of_lt (hle hap) (hgrows h p hp)

theorem WorkGrows.kept (hgrows : st.WorkGrows) (hkept : Kept st st') : st'.WorkGrows := by
  intro k p hp
  rw [hkept.pprev] at hp
  rw [hkept.work]
  exact hgrows k p hp

/-- A block above another has less work, so it is not better. -/
theorem WorkGrows.not_worse (hgrows : st.WorkGrows) {a M : Uint256} (ha : Above st.pprev a M) :
    st.worse M a = false := by
  by_cases hne : a = M
  · rw [hne]
    exact st.worse_strictTotal.irrefl M
  · exact st.worse_strictTotal.asymm (worse_of_work_lt (hgrows.work_lt ha hne))

/-- No candidate is worse than the tip. -/
def Pruned (st : ChainGlobals σ) : Prop :=
  ∀ t c, st.tip = some t → c ∈ st.setBlockIndexCandidates → st.worse c t = false

/-- **A move leaves no candidate behind**: a connected block prunes them, and below a disconnected one the work is
less. -/
theorem Pruned.move (p : st.Pruned) (b : st.Basic genesis) (hgrows : st.WorkGrows) (m : rules.Move C st st') :
    st'.Pruned := by
  have hsame : st'.chainActive = st.chainActive → st'.Pruned := by
    intro hchain t c ht hc
    rw [m.kept.worse]
    exact p t c ((congrArg head? hchain).symm.trans ht) (m.candidates_sub hc)
  have hkept := m.kept
  cases m with
  | connect hM hway hnext hlinked husable hblock hrun hprune =>
    obtain ⟨-, hchain, -, -, hcands⟩ := connected_pruned hprune
    have htip : st'.tip = some _ := congrArg head? hchain
    intro t c ht hc
    rw [htip] at ht
    cases ht
    rw [hkept.worse]
    exact ((hcands c).mp hc).2
  | invalid hnext hlinked husable hblock hrun => exact hsame (st.update_fields _ _).1
  | disconnect hM ht haway hrun =>
    obtain ⟨t, p', below, coins, hchain, rfl, -⟩ := disconnectTip_eq hrun
    obtain ⟨htip, hp, -, -⟩ := b.parent_path hchain
    intro q c hq hc
    cases hq
    have hless : st.worse t p' = false := hgrows.not_worse (.up (.refl _ _) hp)
    rw [hkept.worse]
    exact st.worse_strictTotal.not_lt_trans (p t c htip hc) hless
  | discard hM hbad hfailed => exact hsame (discardCandidate_spec hfailed).2.1

theorem Pruned.moves (p : st.Pruned) (b : st.Basic genesis) (hgrows : st.WorkGrows) (ms : rules.Moves C st st') :
    st'.Pruned := by
  have hall : st'.Basic genesis ∧ st'.WorkGrows ∧ st'.Pruned :=
    ms.holds (P := fun s => s.Basic genesis ∧ s.WorkGrows ∧ s.Pruned) ⟨b, hgrows, p⟩
      fun s s' hs m => ⟨m.basic hs.1, hs.2.1.kept m.kept, hs.2.2.move hs.1 hs.2.1 m⟩
  exact hall.2.2

end

/-! ## §3. What is enough for it. -/

variable {t : Uint256}

section

variable (b : st.Basic genesis)

include b

theorem met_iff {p : CBlockIndex → Bool} :
    st.met p h = true ↔ ∃ a e, Above st.pprev a h ∧ st.index a = some e ∧ p e = true := by
  unfold met
  rw [List.any_eq_true]
  constructor
  · intro ⟨a, ha, hany⟩
    obtain ⟨e, he, hp⟩ := (any_eq_true p _).mp hany
    exact ⟨a, e, (mem_path b.ranked).mp ha, he, hp⟩
  · intro ⟨a, e, ha, he, hp⟩
    exact ⟨a, (mem_path b.ranked).mpr ha, by rw [he]; exact hp⟩

theorem firstMissing_iff (he : st.index h = some e) : st.firstMissing h = true ↔ e.nChainTx = 0 := by
  have hlinked := b.wired.chainTx_iff he
  rw [chainTx_of_index he] at hlinked
  unfold firstMissing
  rw [met_iff b]
  refine not_iff_not.mp ?_
  rw [← ne_eq (e.nChainTx)]
  constructor
  · grind [b.wired.known_above, haveData_of_index, not_isSome]
  · grind [haveData_of_index, not_isNone]

/-- **How far blocks have been validated**: to `BLOCK_VALID_TRANSACTIONS` with a body; further where connected, after
their parents. `pskip` points back. -/
structure Statuses (genesis : Uint256) (st : ChainGlobals σ) : Prop where
  bodies : ∀ h e, st.index h = some e → (BLOCK_VALID_TRANSACTIONS ≤ e.nValid ↔ e.data.isSome = true)
  levels : ∀ h e, st.index h = some e → BLOCK_VALID_CHAIN ≤ e.nValid → BLOCK_VALID_SCRIPTS ≤ e.nValid
  skips : ∀ h e, st.index h = some e → 2 ≤ e.nHeight → ∃ s es, e.pskip = some s ∧ st.index s = some es ∧
    es.nHeight < e.nHeight
  parents : ∀ h e p, st.index h = some e → BLOCK_VALID_SCRIPTS ≤ e.nValid → e.pprev = some p → p ≠ genesis →
    ∃ e', st.index p = some e' ∧ BLOCK_VALID_SCRIPTS ≤ e'.nValid
  active : ∀ a ∈ st.chainActive, a ≠ genesis → ∃ e, st.index a = some e ∧ BLOCK_VALID_SCRIPTS ≤ e.nValid

/-- Every block that is linked, not failed and not worse than `θ` is a candidate. -/
def Covers (st : ChainGlobals σ) (θ : Uint256) : Prop :=
  ∀ k, st.chainTx k ≠ 0 → st.failed k = false → st.worse k θ = false → k ∈ st.setBlockIndexCandidates

/-- A failed block has a block above it, or is one, that was found invalid. -/
def Blamed (st : ChainGlobals σ) : Prop :=
  ∀ h, st.failed h = true → ∃ a e, Above st.pprev a h ∧ st.index a = some e ∧ e.failedValid = true

/-- **Failed blocks and candidates are kept track of.** -/
structure Tracked (st : ChainGlobals σ) : Prop where
  blamed : st.Blamed
  clean : ∀ a ∈ st.chainActive, st.failed a = false
  pruned : st.Pruned
  covered : ∀ t, st.tip = some t → st.Covers t

theorem checkGenesis_eq_true (he : st.index h = some e) : st.checkGenesis genesis h e = true := by
  unfold checkGenesis
  cases hp : e.pprev with
  | some p => rfl
  | none =>
    have hh : h = genesis := b.wired.root h e he hp
    obtain ⟨t, ht, hactive, hlinked⟩ := b.exists_tip
    have hlast : (st.path t).getLast? = some genesis :=
      getLast?_path b.ranked (b.above_genesis hlinked) b.wired.pprev_genesis
    rw [hactive, hlast, hh]
    simp

theorem checkData_eq_true (s : st.Statuses genesis) (he : st.index h = some e) : st.checkData h e = true := by
  -- the number of transactions says whether the body is there
  have htx : e.nTx = 0 ↔ e.data = none := by
    unfold nTx
    cases hdata : e.data with
    | none => simp
    | some block => simp [b.wired.bodies h e block he hdata]
  have hmissing := firstMissing_iff b he
  have hsequence := b.wired.sequence h e he
  have hbodies := s.bodies h e he
  unfold checkData
  simp only [and_eq_true, beq_iff_eq, or_eq_true, decide_eq_true_eq]
  refine ⟨⟨⟨?_, ?_⟩, ?_⟩, ?_⟩
  · rw [Bool.eq_iff_iff, decide_eq_true_eq, htx]
    exact isNone_iff_eq_none
  · rw [decide_eq_decide, hbodies, Nat.pos_iff_ne_zero, ne_eq, htx, isSome_iff_ne_none]
  · by_cases h0 : e.nChainTx = 0
    · exact .inr (hsequence h0)
    · exact .inl h0
  · rw [Bool.eq_iff_iff, decide_eq_true_eq]
    exact hmissing

theorem checkPlace_eq_true (s : st.Statuses genesis) (hgrows : st.WorkGrows) (he : st.index h = some e) :
    st.checkPlace genesis h e = true := by
  have hlast : (st.path h).getLast? = some genesis :=
    getLast?_path b.ranked (b.wired.above_genesis he) b.wired.pprev_genesis
  have hlength : (st.path h).length = st.height h + 1 := by
    refine length_path b.ranked fun k hk => ?_
    cases hek : st.index k with
    | none =>
      unfold height
      rw [hek]
      rfl
    | some ek =>
      rw [b.wired.root k ek hek ((pprev_of_index hek).symm.trans hk)]
      exact b.wired.height_genesis
  unfold checkPlace
  simp only [and_eq_true, decide_eq_true_eq, or_eq_true]
  refine ⟨⟨⟨hlast, ?_⟩, ?_⟩, ?_⟩
  · rw [hlength, height_of_index he]
  · cases hp : e.pprev with
    | none => rfl
    | some p =>
      have hwork := hgrows h p ((pprev_of_index he).trans hp)
      rw [work_of_index he] at hwork
      rw [all_some, decide_eq_true_eq]
      exact le_of_lt hwork
  · by_cases hlow : e.nHeight < 2
    · exact .inl hlow
    · obtain ⟨skip, es, hskip, hes, hback⟩ := s.skips h e he (by omega)
      rw [hskip, any_some, decide_eq_true_eq, height_of_index hes]
      exact .inr hback

end

theorem Statuses.above (s : st.Statuses genesis) (b : st.Basic genesis) (he : st.index h = some e)
    (hscripts : BLOCK_VALID_SCRIPTS ≤ e.nValid) {a : Uint256} (ha : Above st.pprev a h) :
    a = genesis ∨ ∃ ea, st.index a = some ea ∧ BLOCK_VALID_SCRIPTS ≤ ea.nValid := by
  refine ha.holds (P := fun x => x = genesis ∨ ∃ ex, st.index x = some ex ∧ BLOCK_VALID_SCRIPTS ≤ ex.nValid)
    (.inr ⟨e, he, hscripts⟩) ?_
  intro x p hx hp
  rcases hx with rfl | ⟨ex, hex, hvalid⟩
  · rw [b.wired.pprev_genesis] at hp
    cases hp
  · grind [s.parents, pprev_of_index]

theorem checkValidity_eq_true (b : st.Basic genesis) (s : st.Statuses genesis) (hblamed : st.Blamed)
    (he : st.index h = some e) :
    st.checkValidity h e = true := by
  have htree : st.firstNotValid BLOCK_VALID_TREE h = false := by
    rw [eq_false_iff]
    unfold firstNotValid
    rw [ne_eq, met_iff b]
    intro ⟨a, ea, _, hea, hlow⟩
    have hle := b.statuses a ea hea
    rw [and_eq_true, decide_eq_true_eq] at hlow
    omega
  -- what is below the mark of a connected block was connected as well
  have habove : ∀ {n}, n ≤ BLOCK_VALID_SCRIPTS → BLOCK_VALID_SCRIPTS ≤ e.nValid → st.firstNotValid n h = false := by
    intro n hn hscripts
    rw [eq_false_iff]
    unfold firstNotValid
    rw [ne_eq, met_iff b]
    intro ⟨a, ea, ha, hea, hlow⟩
    rw [and_eq_true, decide_eq_true_eq] at hlow
    rcases s.above b he hscripts ha with rfl | ⟨ea', hea', hvalid⟩
    · grind [b.wired.pprev_genesis, pprev_of_index]
    · rw [hea] at hea'
      cases hea'
      omega
  unfold checkValidity
  simp only [and_eq_true, or_eq_true, decide_eq_true_eq, not_eq_true']
  refine ⟨⟨⟨htree, ?_⟩, ?_⟩, ?_⟩
  · by_cases hchain : e.nValid < BLOCK_VALID_CHAIN
    · exact .inl hchain
    · exact .inr (habove (by decide) (s.levels h e he (by omega)))
  · grind
  cases hfailed : e.failed with
  | false => exact .inr rfl
  | true =>
    refine .inl ((met_iff b).mpr (hblamed h ?_))
    rw [failed_of_index he]
    exact hfailed

theorem Blamed.clean (hblamed : st.Blamed) (b : st.Basic genesis) (hvalid : st.firstInvalid h = false) :
    st.failed h = false := by
  cases hfailed : st.failed h with
  | false => rfl
  | true =>
    have hinvalid : st.firstInvalid h = true := (met_iff b).mpr (hblamed h hfailed)
    rw [hvalid] at hinvalid
    cases hinvalid

theorem checkCandidate_eq_true (b : st.Basic genesis) (tr : st.Tracked) (ht : st.tip = some t)
    (he : st.index h = some e) :
    st.checkCandidate t h = true := by
  have hmissing := firstMissing_iff b he
  unfold checkCandidate
  by_cases hworth : (!st.worse h t && !st.firstMissing h) = true
  · rw [if_pos hworth]
    rw [and_eq_true, not_eq_true', not_eq_true'] at hworth
    cases hinvalid : st.firstInvalid h with
    | true => rfl
    | false =>
      have hlinked : st.chainTx h ≠ 0 := by
        rw [chainTx_of_index he, ne_eq, ← hmissing, hworth.2]
        exact false_ne_true
      rw [Bool.false_or, decide_eq_true_eq]
      exact tr.covered t ht h hlinked (tr.blamed.clean b hinvalid) hworth.1
  · rw [if_neg hworth, decide_eq_true_eq]
    intro hmem
    -- a candidate is linked and not worse than the tip
    apply hworth
    have hlinked := b.candidates h hmem
    have hnot := tr.pruned t h ht hmem
    simp_all [chainTx_of_index]

theorem checkUnlinked_eq_true (b : st.Basic genesis) (he : st.index h = some e) : st.checkUnlinked h e = true := by
  have hmissing := firstMissing_iff b he
  have hfound : (st.mapBlocksUnlinked.any fun pair => decide (some pair.1 = e.pprev) && decide (pair.2 = h)) = true ↔
      ∃ p, e.pprev = some p ∧ e.data.isSome = true ∧ e.nChainTx = 0 := by
    have hwaits : ∀ p, (p, h) ∈ st.mapBlocksUnlinked ↔ e.pprev = some p ∧ e.data.isSome = true ∧ e.nChainTx = 0 := by
      intro p
      rw [b.wired.mem_unlinked, pprev_of_index he, haveData_of_index he, chainTx_of_index he]
    grind
  unfold checkUnlinked
  by_cases hwaits : (e.pprev.isSome && e.data.isSome && st.firstMissing h) = true
  · rw [if_pos hwaits]
    rw [and_eq_true, and_eq_true, hmissing] at hwaits
    obtain ⟨p, hp⟩ := isSome_iff_exists.mp hwaits.1.1
    rw [hfound.mpr ⟨p, hp, hwaits.1.2, hwaits.2⟩, Bool.or_true]
  · rw [if_neg hwaits, not_eq_true', eq_false_iff, ne_eq, hfound]
    intro ⟨p, hp, hdata, h0⟩
    apply hwaits
    rw [hp, hdata, hmissing.mpr h0]
    rfl

/-- **What is enough for every assertion.** -/
theorem checkBlockIndex_eq_true (b : st.Basic genesis) (s : st.Statuses genesis) (hgrows : st.WorkGrows)
    (tr : st.Tracked) :
    st.checkBlockIndex genesis = true := by
  obtain ⟨t, ht, -, -⟩ := b.exists_tip
  unfold checkBlockIndex
  rw [ht]
  rw [and_eq_true, decide_eq_true_eq, List.all_eq_true]
  refine ⟨?_, fun h hh => ?_⟩
  · -- the first block is the only root
    obtain ⟨e, he, -, -⟩ := b.wired.first
    have hmem : ∀ k, k ∈ (st.mapBlockIndex.keys.filter fun h => (st.pprev h).isNone) ↔ k ∈ [genesis] := by
      intro k
      rw [mem_filter, mem_singleton, isNone_iff_eq_none]
      constructor
      · intro ⟨hk, hroot⟩
        obtain ⟨ek, hek⟩ : ∃ ek, st.index k = some ek := StdMap.mem_keys_iff.mp hk
        exact b.wired.root k ek hek ((pprev_of_index hek).symm.trans hroot)
      · intro hk
        rw [hk]
        exact ⟨StdMap.mem_keys_iff.mpr ⟨e, he⟩, b.wired.pprev_genesis⟩
    have hnodup : (st.mapBlockIndex.keys.filter fun h => (st.pprev h).isNone).Nodup :=
      (AList.keys_nodup st.mapBlockIndex).filter _
    exact ((perm_ext_iff_of_nodup hnodup (nodup_singleton genesis)).mpr hmem).length_eq
  · obtain ⟨e, he⟩ : ∃ e, st.index h = some e := StdMap.mem_keys_iff.mp hh
    rw [he, all_some]
    simp only [and_eq_true]
    exact ⟨⟨⟨⟨⟨checkGenesis_eq_true b he, checkData_eq_true b s he⟩, checkPlace_eq_true b s hgrows he⟩,
      checkValidity_eq_true b s tr.blamed he⟩, checkCandidate_eq_true b tr ht he⟩, checkUnlinked_eq_true b he⟩

end ChainGlobals

/-! ## §4. Statuses. -/

namespace ChainGlobals

variable {parentOf : Uint256 → Uint256} {rules : ChainRules σ}

/-- **Entries that stay in place**: those of `R` have a body and are validated further, to
`BLOCK_VALID_SCRIPTS` only with an active parent; the others are as valid as before. -/
theorem Statuses.of_entries (s : st.Statuses genesis) {R : Uint256 → Prop}
    (hplace : ∀ k, (st'.index k).map (fun e => (e.pprev, e.pskip, e.nHeight))
      = (st.index k).map fun e => (e.pprev, e.pskip, e.nHeight))
    (hsame : ∀ k e e', st.index k = some e → st'.index k = some e' → ¬ R k → e'.nValid = e.nValid ∧ e'.data = e.data)
    (hraised : ∀ k e e', st.index k = some e → st'.index k = some e' → R k → e.nValid ≤ e'.nValid ∧
      BLOCK_VALID_TRANSACTIONS ≤ e'.nValid ∧ e'.data.isSome = true ∧
      (BLOCK_VALID_CHAIN ≤ e'.nValid → BLOCK_VALID_SCRIPTS ≤ e'.nValid ∧ ∀ p, e'.pprev = some p → p ∈ st.chainActive))
    (hactive : ∀ a ∈ st'.chainActive, a ∈ st.chainActive ∨ ∃ e', st'.index a = some e' ∧
      BLOCK_VALID_SCRIPTS ≤ e'.nValid) :
    st'.Statuses genesis := by
  have hback : ∀ {k e'}, st'.index k = some e' → ∃ e, st.index k = some e ∧ e'.pprev = e.pprev ∧ e'.pskip = e.pskip ∧
      e'.nHeight = e.nHeight := by
    intro k e' he'
    have hread := hplace k
    rw [he'] at hread
    obtain ⟨e, he, heq⟩ := map_eq_some_iff.mp hread.symm
    cases e
    cases heq
    exact ⟨_, he, rfl, rfl, rfl⟩
  have hforth : ∀ {k e}, st.index k = some e → ∃ e', st'.index k = some e' ∧ e'.nHeight = e.nHeight := by
    grind [map_eq_some_iff.mp]
  -- what was connected stays so
  have hscripts : ∀ {k e}, st.index k = some e → BLOCK_VALID_SCRIPTS ≤ e.nValid →
      ∃ e', st'.index k = some e' ∧ BLOCK_VALID_SCRIPTS ≤ e'.nValid := by
    intro k e he hvalid
    obtain ⟨e', he', -⟩ := hforth he
    refine ⟨e', he', ?_⟩
    by_cases hR : R k
    · exact le_trans hvalid (hraised k e e' he he' hR).1
    · rw [(hsame k e e' he he' hR).1]
      exact hvalid
  refine ⟨fun k e' he' => ?_, fun k e' he' hchain => ?_, fun k e' he' hheight => ?_, fun k e' p he' hvalid hp hg => ?_,
    fun a ha hg => ?_⟩
  · obtain ⟨e, he, -⟩ := hback he'
    by_cases hR : R k
    · obtain ⟨-, hvalid, hdata, -⟩ := hraised k e e' he he' hR
      exact iff_of_true hvalid hdata
    · rw [(hsame k e e' he he' hR).1, (hsame k e e' he he' hR).2]
      exact s.bodies k e he
  · obtain ⟨e, he, -⟩ := hback he'
    by_cases hR : R k
    · exact ((hraised k e e' he he' hR).2.2.2 hchain).1
    · rw [(hsame k e e' he he' hR).1] at hchain ⊢
      exact s.levels k e he hchain
  · obtain ⟨e, he, -, hskip, hhigh⟩ := hback he'
    rw [hhigh] at hheight ⊢
    obtain ⟨skip, es, hes, hknown, hlower⟩ := s.skips k e he hheight
    obtain ⟨es', hes', hlevel⟩ := hforth hknown
    exact ⟨skip, es', hskip.trans hes, hes', by rw [hlevel]; exact hlower⟩
  · obtain ⟨e, he, hpprev, -⟩ := hback he'
    by_cases hR : R k
    · obtain ⟨ep, hep, hvalidp⟩ := s.active p
        (((hraised k e e' he he' hR).2.2.2 (le_trans (by decide) hvalid)).2 p hp) hg
      exact hscripts hep hvalidp
    · rw [(hsame k e e' he he' hR).1] at hvalid
      obtain ⟨ep, hep, hvalidp⟩ := s.parents k e p he hvalid (hpprev.symm.trans hp) hg
      exact hscripts hep hvalidp
  · rcases hactive a ha with hold | hnew
    · obtain ⟨e, he, hvalid⟩ := s.active a hold hg
      exact hscripts he hvalid
    · exact hnew

theorem Statuses.of_marks (s : st.Statuses genesis) (hkept : Kept st st')
    (hsame : ∀ k e e', st.index k = some e → st'.index k = some e' → e'.nValid = e.nValid)
    (hactive : ∀ a ∈ st'.chainActive, a ∈ st.chainActive) : st'.Statuses genesis := by
  refine s.of_entries (R := fun _ => False) (hkept.map_eq fun _ => rfl)
    (fun k e e' he he' _ => ⟨hsame k e e' he he', ?_⟩)
    (fun _ _ _ _ _ hR => hR.elim) fun a ha => .inl (hactive a ha)
  obtain ⟨e'', he'', hlink⟩ := hkept.known he
  rw [he'] at he''
  cases he''
  exact link_data hlink

/-- Entries are mapped or left alone, by a map that keeps `nValid`. -/
theorem Statuses.of_map (s : st.Statuses genesis) (hkept : Kept st st') {f : CBlockIndex → CBlockIndex}
    {c : Uint256 → Prop}
    [DecidablePred c] (hindex : ∀ k, st'.index k = if c k then (st.index k).map f else st.index k)
    (hf : ∀ e, (f e).nValid = e.nValid) (hactive : ∀ a ∈ st'.chainActive, a ∈ st.chainActive) :
        st'.Statuses genesis := by
  refine s.of_marks hkept (fun k e e' he he' => ?_) hactive
  rw [hindex, he] at he'
  split_ifs at he'
  · cases he'
    exact hf e
  · cases he'
    rfl

/-- **A move keeps the statuses.** -/
theorem Statuses.move (s : st.Statuses genesis) (b : st.Basic genesis) (m : rules.Move C st st') :
    st'.Statuses genesis := by
  have hkept := m.kept
  cases m with
  | connect hM hway hnext hlinked husable hblock hrun hprune =>
    rename_i h M block f coins
    obtain ⟨-, hchain, -, hindex, -⟩ := connected_pruned hprune
    have hvalid : ∀ {e}, st.index h = some e → BLOCK_VALID_SCRIPTS ≤ (e.raiseValidity BLOCK_VALID_SCRIPTS).nValid :=
      fun he => nValid_raiseValidity _ ((failed_of_index he).symm.trans husable)
    refine s.of_entries (R := fun k => k = h) (hkept.map_eq fun _ => rfl) (fun k e e' he he' hk => ?_)
      (fun k e e' he he' hk => ?_) (fun a ha => ?_)
    · rw [hindex, if_neg hk, he] at he'
      cases he'
      exact ⟨rfl, rfl⟩
    · subst hk
      rw [hindex, if_pos rfl, he] at he'
      cases he'
      have hlink := e.link_raiseValidity BLOCK_VALID_SCRIPTS
      refine ⟨e.le_nValid_raiseValidity _, le_trans (by decide) (hvalid he), ?_, fun _ => ⟨hvalid he, fun p hp => ?_⟩⟩
      · rw [link_data hlink, ← haveData_of_index he]
        exact b.wired.data_of_linked hlinked
      · rw [link_pprev hlink, ← pprev_of_index he, hnext] at hp
        exact mem_of_head? hp
    · rw [hchain, mem_cons] at ha
      rcases ha with rfl | ha
      · obtain ⟨e, he⟩ := known_of_chainTx hlinked
        exact .inr ⟨_, by rw [hindex, if_pos rfl, he]; rfl, hvalid he⟩
      · exact .inl ha
  | invalid hnext hlinked husable hblock hrun =>
    rename_i h block f nDoS reason
    refine s.of_map hkept (fun k => index_update st h k _) (fun _ => rfl) ?_
    rw [show ((st.markFailedValid h).eraseCandidate h).chainActive = st.chainActive from (st.update_fields h _).1]
    exact fun a => id
  | disconnect hM ht haway hrun =>
    obtain ⟨t, p, below, coins, hchain, rfl, -⟩ := disconnectTip_eq hrun
    refine s.of_marks hkept (fun k e e' he he' => ?_) fun a ha => ?_
    · exact congrArg nValid (some.inj (he'.symm.trans he))
    · rw [hchain]
      exact mem_cons_of_mem _ ha
  | discard hM hbad hfailed =>
    obtain ⟨-, hchain, -, hindex, -⟩ := discardCandidate_spec hfailed
    refine s.of_map hkept hindex (fun _ => rfl) ?_
    rw [hchain]
    exact fun a => id

theorem Statuses.moves (s : st.Statuses genesis) (b : st.Basic genesis) (ms : rules.Moves C st st') :
    st'.Statuses genesis := by
  have hboth : st'.Basic genesis ∧ st'.Statuses genesis :=
    ms.holds (P := fun s => s.Basic genesis ∧ s.Statuses genesis) ⟨b, s⟩ fun _ _ hs m =>
      ⟨m.basic hs.1, hs.2.move hs.1 m⟩
  exact hboth.2

/-- **A new header** is valid as a header, and its `pskip` is above its parent. -/
theorem Statuses.header (s : st.Statuses genesis) (b : st.Basic genesis) {n : Int} {prev : CBlockIndex}
    (hnew : st.index block.hash = none) (hprev : st.index block.hashPrevBlock = some prev)
    (hadd : st.addToBlockIndex n block prev = some st') : st'.Statuses genesis := by
  have hindex := index_addToBlockIndex hadd
  have hcases : ∀ {k e'}, st'.index k = some e' → (k = block.hash ∧ e' = st.newEntry block prev) ∨
      st.index k = some e' := by
    grind
  have hread : ∀ {k e}, st.index k = some e → st'.index k = some e := fun he => index_add_of_known hnew hadd he
  have hfew : ¬ BLOCK_VALID_TRANSACTIONS ≤ (st.newEntry block prev).nValid := by
    show ¬ BLOCK_VALID_TRANSACTIONS ≤ BLOCK_VALID_TREE
    decide
  refine ⟨fun k e' he' => ?_, fun k e' he' hchain => ?_, fun k e' he' hheight => ?_, fun k e' p he' hvalid hp hg => ?_,
    fun a ha hg => ?_⟩
  · rcases hcases he' with ⟨-, rfl⟩ | he
    · refine iff_of_false hfew ?_
      exact false_ne_true
    · exact s.bodies k e' he
  · rcases hcases he' with ⟨-, rfl⟩ | he
    · exact absurd (le_trans (by decide) hchain) hfew
    · exact s.levels k e' he hchain
  · rcases hcases he' with ⟨-, rfl⟩ | he
    · -- the ancestor on the level of `GetSkipHeight`
      have hhigh : (st.newEntry block prev).nHeight = prev.nHeight + 1 := by rw [newEntry_eq]
      rw [hhigh] at hheight
      have hlow := getSkipHeight_lt (Nat.lt_of_lt_of_le Nat.zero_lt_two hheight)
      obtain ⟨a, ha, hway, hlevel⟩ := b.wired.exists_getAncestor hprev (n := getSkipHeight (prev.nHeight + 1)) (by
        rw [height_of_index hprev]
        omega)
      grind [b.wired.known_above, newEntry_eq, height_of_index]
    · grind [s.skips]
  · rcases hcases he' with ⟨-, rfl⟩ | he
    · exact absurd (le_trans (by decide) hvalid) hfew
    · grind [s.parents]
  · rw [addToBlockIndex_eq hadd] at ha
    obtain ⟨e, he, hvalid⟩ := s.active a ha hg
    exact ⟨e, hread he, hvalid⟩

/-- The entry of a block after a body was stored: its own is received, all may have been linked. -/
theorem Grown.entry (g : Grown st block st') {e' : CBlockIndex} (he' : st'.index k = some e') :
    ∃ e, st.index k = some e ∧
      linkedEntry 0 0 e' = linkedEntry 0 0 (if k = block.hash then receivedEntry block e else e) := by
  have hread := g.entries k
  rw [he'] at hread
  split_ifs at hread ⊢ with hk
  · rw [Option.map_map] at hread
    obtain ⟨e, he, hlink⟩ := map_eq_some_iff.mp hread.symm
    exact ⟨e, he, hlink.symm⟩
  · obtain ⟨e, he, hlink⟩ := map_eq_some_iff.mp hread.symm
    exact ⟨e, he, hlink.symm⟩

section

variable (s : st.Statuses genesis)

include s

/-- **A stored body** is what `BLOCK_VALID_TRANSACTIONS` says. -/
theorem Statuses.body
    (he : st.index block.hash = some e) (hnone : e.data = none) (hfailed : e.failed = false) (g : Grown st block st') :
    st'.Statuses genesis := by
  have hlow : e.nValid < BLOCK_VALID_TRANSACTIONS := by grind [s.bodies]
  have hreceived : (receivedEntry block e).nValid = BLOCK_VALID_TRANSACTIONS := by
    unfold receivedEntry raiseValidity
    have hflag : CBlockIndex.failed { e with data := some block, nChainTx := 0 } = false := hfailed
    rw [if_neg (by rw [hflag]; exact false_ne_true),
      if_pos hlow]
  refine s.of_entries (R := fun k => k = block.hash) (g.map_eq (fun _ => rfl) fun e => ?_)
    (fun k e0 e' he0 he' hk => ?_)
    (fun k e0 e' he0 he' hk => ?_) (fun a ha => .inl (g.active ▸ ha))
  · unfold receivedEntry raiseValidity
    split_ifs <;> rfl
  · obtain ⟨e1, he1, hentry⟩ := g.entry he'
    rw [he0] at he1
    cases he1
    rw [if_neg hk] at hentry
    exact ⟨(congrArg nValid hentry :), (congrArg data hentry :)⟩
  · obtain ⟨e1, he1, hentry⟩ := g.entry he'
    rw [hk, he] at he0 he1
    cases he0
    cases he1
    rw [if_pos hk] at hentry
    have hvalid : e'.nValid = BLOCK_VALID_TRANSACTIONS := (congrArg nValid hentry).trans hreceived
    have hdata : e'.data = some block := (congrArg data hentry).trans (receivedEntry_fields block e).2.2.1
    rw [hvalid, hdata]
    -- it has not been connected
    exact ⟨le_of_lt hlow, le_rfl, rfl, fun hchain => absurd hchain (by decide)⟩

/-- **Arrivals keep the statuses.** -/
theorem Statuses.arrival (b : st.Basic genesis) (m : Arrival parentOf st st') : st'.Statuses genesis := by
  cases m with
  | header hnew hprev hvalid hname hadd => exact s.header b hnew hprev hadd
  | refuse he hnone =>
    rename_i h e
    refine s.of_map (.markFailedValid st h) (fun k => index_update st h k _) (fun _ => rfl) ?_
    rw [show (st.markFailedValid h).chainActive = st.chainActive from (st.update_fields h _).1]
    exact fun a => id
  | body he hnone hfailed hbody hparent => exact s.body he hnone hfailed (b.received he hnone hbody hparent).2

theorem Statuses.reconsidered (h : Uint256) : (st.reconsiderBlock h).Statuses genesis := by
  obtain ⟨hkept, hchain, -, hindex, -⟩ := reconsiderBlock_spec st h
  refine s.of_marks hkept (fun k e e' he he' => ?_) fun a ha => ?_
  · rw [hindex, he] at he'
    cases he'
    split_ifs <;> rfl
  · exact ha

theorem Statuses.invalidated (b : st.Basic genesis) (rules : ChainRules σ) (h : Uint256) :
    (rules.invalidateBlock st h).1.Statuses genesis := by
  obtain ⟨bm, hsetm, hchainm⟩ := ChainRules.invalidate_marked b h
  have sm : ((st.markFailedValid h).eraseCandidate h).Statuses genesis := by
    refine s.of_map hsetm.kept hsetm.index (fun _ => rfl) ?_
    rw [hchainm]
    exact fun a => id
  unfold ChainRules.invalidateBlock
  dsimp only
  cases hloop : rules.disconnectMarked h st.chainActive.length ((st.markFailedValid h).eraseCandidate h) with
  | mk s1 r =>
    obtain ⟨bs, gone, marked, hset, hgone, -⟩ := ChainRules.disconnectMarked_spec bm hloop
    have s₁s : s1.Statuses genesis := by
      refine sm.of_map hset.kept hset.index (fun _ => rfl) fun a ha => ?_
      rw [hgone]
      exact mem_append_right _ ha
    cases r with
    | false => exact s₁s
    | true =>
      refine s₁s.of_marks (.of_index rfl rfl rfl) (fun k e e' he he' => ?_) fun a ha => ha
      exact congrArg nValid (some.inj (he'.symm.trans he))

/-- **Every event keeps the statuses.** -/
theorem Statuses.step {ev : IndexEvent σ} (c : st.Coherent genesis parentOf)
    (hproper : ev.Proper genesis parentOf) (hstep : st.step ev = .ok st') : st'.Statuses genesis :=
  step_holds c s hproper hstep (fun _ _ cs ss m => ss.arrival cs.toBasic m) (fun _ _ _ b0 s0 ms => s0.moves b0 ms)
    (fun rules h _ => s.invalidated c.toBasic rules h) s.reconsidered

end

theorem statuses_init (genesis : CBlock) (coins : σ) : (init genesis coins).Statuses genesis.hash := by
  have hentry : ∀ {k e}, (init genesis coins).index k = some e →
      e.data = some genesis ∧ e.pprev = none ∧ e.nHeight = 0 ∧ e.nValid = BLOCK_VALID_TRANSACTIONS := by
    grind [index_init]
  refine ⟨fun k e he => ?_, fun k e he hchain => ?_, fun k e he hheight => ?_, fun k e p he _ hp _ => ?_,
    fun a ha hg => ?_⟩
  · grind
  · rw [(hentry he).2.2.2] at hchain
    exact absurd hchain (by decide)
  · rw [(hentry he).2.2.1] at hheight
    exact absurd hheight (by decide)
  · rw [(hentry he).2.1] at hp
    cases hp
  · exact absurd (mem_singleton.mp ha) hg

end ChainGlobals

end PwrbCore
