/-
  Masternode.Ranks — BLOCK HASHES, SCORES AND RANKS (`masternode.cpp`, `masternodeman.cpp`).

  A masternode's score for a height is taken from the hash of the block below that height, its
  rank from the compact forms of the scores.  `GetBlockHash` keeps what it found in a map by height,
  which nothing ever clears.

  Main results: `block_hashes_follow_chain_iff`, `ranks_ignore_order_iff`.
-/
import Mathlib.Data.BitVec
import PwrbCore.Lib.KeySort
import PwrbCore.Masternode.Collateral

namespace PwrbCore

open List

/-! ## §1. `GetBlockHash`. -/

/-- The hashes of `chainActive`, genesis first, and `mapCacheBlockHashes`. -/
structure BlockHashes where
  chain : List Uint256 := []
  mapCacheBlockHashes : StdMap Int Uint256 := ∅

namespace BlockHashes

/-- The loop of `GetBlockHash`, at the block of the height; `n` blocks are passed. -/
def readBack (chain : List Uint256) (nBlocksAgo : Int) : Nat → Int → Option Uint256
  | 0, _ => none
  | nHeight + 1, n => if n ≥ nBlocksAgo then chain[nHeight + 1]? else readBack chain nBlocksAgo nHeight (n + 1)

/-- `GetBlockHash`; `none` stands for `false`. -/
def getBlockHash (st : BlockHashes) (nBlockHeight : Int) : BlockHashes × Option Uint256 :=
  if st.chain = [] then (st, none)
  else
    let tip : Int := st.chain.length - 1
    let nBlockHeight := if nBlockHeight = 0 then tip else nBlockHeight
    match st.mapCacheBlockHashes.get nBlockHeight with
    | some hash => (st, some hash)
    | none =>
      if tip = 0 ∨ tip + 1 < nBlockHeight then (st, none)
      else
        let nBlocksAgo := if nBlockHeight > 0 then tip + 1 - nBlockHeight else 0
        match readBack st.chain nBlocksAgo (st.chain.length - 1) 0 with
        | some hash => ({ st with mapCacheBlockHashes := st.mapCacheBlockHashes.set nBlockHeight hash }, some hash)
        | none => (st, none)

inductive Event where
  | connect (hash : Uint256)
  | disconnect
  | lookup (nBlockHeight : Int)

def step (st : BlockHashes) : Event → BlockHashes
  | .connect hash => { st with chain := st.chain ++ [hash] }
  | .disconnect => { st with chain := st.chain.dropLast }
  | .lookup nBlockHeight => (st.getBlockHash nBlockHeight).1

/-- A run from the start of the program. -/
def run (events : List Event) : BlockHashes := events.foldl step {}

/-- Whatever is found for a height is the hash of the block below it. -/
def Right (st : BlockHashes) : Prop :=
  ∀ h : Int, 1 ≤ h → ∀ hash, (st.getBlockHash h).2 = some hash → st.chain[(h - 1).toNat]? = some hash

/-- So is what is kept. -/
def Agrees (st : BlockHashes) : Prop :=
  ∀ h : Int, 1 ≤ h → ∀ hash, st.mapCacheBlockHashes.get h = some hash → st.chain[(h - 1).toNat]? = some hash

variable {st : BlockHashes} {hash : Uint256}

/-- The loop ends `nBlocksAgo` below the first block, if above the genesis block. -/
theorem readBack_eq {chain : List Uint256} {nBlocksAgo : Int} (nHeight : Nat) (n : Int) (hn : n ≤ nBlocksAgo) :
    readBack chain nBlocksAgo nHeight n
      = if nBlocksAgo - n < nHeight then chain[nHeight - (nBlocksAgo - n).toNat]? else none := by
  induction nHeight generalizing n with
  | zero =>
    rw [if_neg (by omega)]
    rfl
  | succ nHeight ih =>
    unfold readBack
    by_cases hstop : n ≥ nBlocksAgo
    · have hzero : (nBlocksAgo - n).toNat = 0 := by omega
      rw [if_pos hstop, if_pos (by omega), hzero]
      rfl
    · have hback : nHeight + 1 - (nBlocksAgo - n).toNat = nHeight - (nBlocksAgo - (n + 1)).toNat := by omega
      rw [if_neg hstop, ih (n + 1) (by omega), hback]
      apply if_congr _ rfl rfl
      omega

/-- **Lookups.** A lookup finds nothing, answers from the cache, or reads the block below the height (above the
genesis block) and keeps it. -/
theorem getBlockHash_cases (st : BlockHashes) (h : Int) :
    ∃ k, (h ≠ 0 → k = h) ∧ ((∃ found, st.getBlockHash h = (st, found) ∧
      ∀ hash ∈ found, st.mapCacheBlockHashes.get k = some hash) ∨
      ∃ hash, (k < 0 ∨ 2 ≤ k ∧ st.chain[(k - 1).toNat]? = some hash) ∧
        st.getBlockHash h = ({ st with mapCacheBlockHashes := st.mapCacheBlockHashes.set k hash }, some hash)) := by
  unfold getBlockHash
  by_cases hnil : st.chain = []
  · exact ⟨h, fun _ => rfl, .inl ⟨none, if_pos hnil, nofun⟩⟩
  rw [if_neg hnil]
  refine ⟨if h = 0 then (st.chain.length : Int) - 1 else h, fun hne => if_neg hne, ?_⟩
  dsimp only
  have hzero : (if h = 0 then (st.chain.length : Int) - 1 else h) = 0 → (st.chain.length : Int) - 1 = 0 := by
    split_ifs with hh
    · exact id
    · exact fun h0 => absurd h0 hh
  generalize (if h = 0 then (st.chain.length : Int) - 1 else h) = k at hzero ⊢
  cases hcached : st.mapCacheBlockHashes.get k with
  | some hash => exact .inl ⟨_, rfl, fun _ hfound => hfound⟩
  | none =>
    split_ifs with hout hpos
    · exact .inl ⟨none, rfl, nofun⟩
    · rw [readBack_eq _ 0 (by omega)]
      split_ifs with hread
      · have hat : st.chain.length - 1 - ((st.chain.length : Int) - 1 + 1 - k - 0).toNat = (k - 1).toNat := by omega
        rw [hat]
        cases hblock : st.chain[(k - 1).toNat]? with
        | none => exact .inl ⟨none, rfl, nofun⟩
        | some hash => exact .inr ⟨hash, .inr ⟨by omega, rfl⟩, rfl⟩
      · exact .inl ⟨none, rfl, nofun⟩
    · -- height 0 was replaced by that of the tip, which is not 0 either
      cases readBack st.chain 0 (st.chain.length - 1) 0 with
      | none => exact .inl ⟨none, rfl, nofun⟩
      | some hash => exact .inr ⟨hash, .inl (by omega), rfl⟩

theorem Agrees.right (h : st.Agrees) : st.Right := by
  intro height hpos hash hfound
  obtain ⟨k, hk, ⟨found, hsame, hcached⟩ | ⟨found, hblock, hstored⟩⟩ := st.getBlockHash_cases height
  · rw [hsame] at hfound
    exact h height hpos hash (hk (by omega) ▸ hcached hash hfound)
  rw [hstored] at hfound
  cases hfound
  rw [hk (by omega)] at hblock
  exact (hblock.resolve_left (by omega)).2

theorem run_low (events : List Event) (k : Int) (h0 : 0 ≤ k) (h1 : k ≤ 1) :
    (run events).mapCacheBlockHashes.get k = none := by
  induction events using reverseRecOn with
  | nil => rfl
  | append_singleton events e ih =>
    rw [run, foldl_append]
    cases e with
    | connect hash | disconnect => exact ih
    | lookup h =>
      show ((run events).getBlockHash h).1.mapCacheBlockHashes.get k = none
      obtain ⟨k', -, ⟨found, hsame, -⟩ | ⟨found, hblock, hstored⟩⟩ := (run events).getBlockHash_cases h
      · rw [hsame]
        exact ih
      · rw [hstored]
        exact (StdMap.get_set_of_ne _ _ (by omega)).trans ih

/-- One event keeps the agreement; a block that goes must not have been asked for. -/
theorem Agrees.step (h : st.Agrees) (e : Event)
    (hgone : e = .disconnect → st.mapCacheBlockHashes.get st.chain.length = none) :
    (st.step e).Agrees := by
  intro k hk x hx
  cases e with
  | connect hash => exact List.getElem?_append_left (List.getElem?_eq_some_iff.mp (h k hk x hx)).1 ▸ h k hk x hx
  | disconnect =>
    have hold := h k hk x hx
    have hlt := (List.getElem?_eq_some_iff.mp hold).1
    have hne : k ≠ st.chain.length := by
      intro heq
      rw [heq] at hx
      exact absurd (hx.symm.trans (hgone rfl)) (by simp)
    show st.chain.dropLast[(k - 1).toNat]? = some x
    rw [List.getElem?_dropLast, if_pos (by omega)]
    exact hold
  | lookup height =>
    replace hx : (st.getBlockHash height).1.mapCacheBlockHashes.get k = some x := hx
    show (st.getBlockHash height).1.chain[(k - 1).toNat]? = some x
    obtain ⟨k', -, ⟨found, hsame, -⟩ | ⟨found, hblock, hstored⟩⟩ := st.getBlockHash_cases height
    · rw [hsame] at hx ⊢
      exact h k hk x hx
    rw [hstored] at hx ⊢
    rw [StdMap.get_set] at hx
    split_ifs at hx with heq
    · cases hx
      rw [heq]
      exact (hblock.resolve_left (by omega)).2
    · exact h k hk x hx

end BlockHashes

open BlockHashes in
/-- **Block hashes.**  Along a run of connected and disconnected blocks and lookups, every lookup tells the hash of the
active chain's block below the height, exactly if no block is disconnected whose hash was
asked for. -/
theorem block_hashes_follow_chain_iff (events : List Event) :
    (∀ before after, events = before ++ after → (run before).Right) ↔
      ∀ before after, events = before ++ .disconnect :: after →
        (run before).mapCacheBlockHashes.get (run before).chain.length = none := by
  constructor
  · intro hall before after heq
    cases hkept : (run before).mapCacheBlockHashes.get (run before).chain.length with
    | none => rfl
    | some hash =>
      have hlen : 2 ≤ (run before).chain.length := by
        by_contra hshort
        rw [run_low before _ (by omega) (by omega)] at hkept
        cases hkept
      -- after the block is gone the cache still answers
      have hright := hall (before ++ [.disconnect]) after (by rw [heq, List.append_assoc]; rfl)
      rw [run, List.foldl_append] at hright
      have hne : (run before).chain.dropLast ≠ [] := ne_nil_of_length_pos (by rw [length_dropLast]; omega)
      have hstale : (((run before).step .disconnect).getBlockHash (run before).chain.length).2 = some hash := by
        unfold getBlockHash
        rw [if_neg (show ((run before).step .disconnect).chain ≠ [] from hne)]
        dsimp only
        rw [if_neg (by omega), show ((run before).step .disconnect).mapCacheBlockHashes.get _ = _ from hkept]
      have hblock := (List.getElem?_eq_some_iff.mp (hright _ (by omega) hash hstale)).1
      replace hblock : (((run before).chain.length : Int) - 1).toNat < (run before).chain.dropLast.length := hblock
      rw [List.length_dropLast] at hblock
      omega
  · intro hgone before after heq
    apply Agrees.right
    induction before using List.reverseRecOn generalizing after with
    | nil => exact fun k _ x hx => by cases hx
    | append_singleton before e ih =>
      rw [List.append_assoc] at heq
      rw [run, List.foldl_append]
      exact (ih (e :: after) heq).step e fun hdisc => hgone before after (hdisc ▸ heq)

open BlockHashes in
/-- The hash of block 1 is asked for, the block is replaced, the old hash is still told. -/
theorem replaced_block_hash_told :
    let st := run [.connect 10, .connect 11, .lookup 2, .disconnect, .connect 12]
    (st.getBlockHash 2).2 = some 11 ∧ st.chain[1]? = some 12 := by
  decide +kernel

/-! ## §2. Scores and ranks. -/

structure RankEnv where
  env : MasternodeEnv
  hashes : BlockHashes
  /-- `CHashWriter` over one hash and over two -/
  hashOne : Uint256 → Uint256
  hashTwo : Uint256 → Uint256 → Uint256
  /-- `std::sort` from behind with `CompareScoreTxIn` -/
  order : KeySort Int CTxIn

/-- `arith_uint256::GetCompact(false)`. -/
def getCompact (value : Uint256) : Int :=
  let n := value.toNat
  let nSize := ((if n = 0 then 0 else n.log2 + 1) + 7) / 8
  let nCompact := (if nSize ≤ 3 then n <<< (8 * (3 - nSize)) else n >>> (8 * (nSize - 3))) % 2 ^ 32
  -- the bit of the sign is set: one byte less
  if nCompact &&& 0x00800000 ≠ 0 then ((nCompact >>> 8 ||| (nSize + 1) <<< 24 : Nat) : Int)
  else ((nCompact ||| nSize <<< 24 : Nat) : Int)

def MN_WINNER_MINIMUM_AGE : Int := 8000

namespace RankEnv

/-- `CMasternode::CalculateScore`. -/
def calculateScore (r : RankEnv) (vin : CTxIn) (nBlockHeight : Int) : Uint256 :=
  match (r.hashes.getBlockHash nBlockHeight).2 with
  | none => 0
  | some hash =>
    let aux := vin.prevout.hash + BitVec.ofNat 256 vin.prevout.n
    let hash2 := r.hashOne hash
    let hash3 := r.hashTwo hash aux
    if hash3 > hash2 then hash3 - hash2 else hash2 - hash3

def scoreOf (r : RankEnv) (nBlockHeight : Int) (vin : CTxIn) : Int × CTxIn :=
  (getCompact (r.calculateScore vin nBlockHeight), vin)

/-- One scan of the list: some are skipped, the others checked if only active ones count. -/
structure Scan where
  nBlockHeight : Int
  fOnlyActive : Bool
  skip : CMasternode → Bool

section Scan

variable (r : RankEnv) (q : Scan)

/-- The masternode gets a score. -/
def counts (mn : CMasternode) : Bool := !q.skip mn && (!q.fOnlyActive || (mn.check r.env false).1.isEnabled)

/-- The masternode as the scan leaves it. -/
def visited (mn : CMasternode) : CMasternode := if !q.skip mn && q.fOnlyActive then (mn.check r.env false).1 else mn

/-- An exception of `Check` ends the scan. -/
def throws (vMasternodes : List CMasternode) : Bool :=
  vMasternodes.any fun mn => !q.skip mn && q.fOnlyActive && (mn.check r.env false).2

def scores (vMasternodes : List CMasternode) : List (Int × CTxIn) :=
  (vMasternodes.filter (r.counts q)).map fun mn => r.scoreOf q.nBlockHeight mn.vin

/-- The same after sorting; `none` for an exception. -/
def ranking (vMasternodes : List CMasternode) : Option (List (Int × CTxIn)) :=
  if r.throws q vMasternodes then none
  else some (r.order.sort (r.scores q vMasternodes))

end Scan

/-- The scan of `GetMasternodeByRank` skips old versions. -/
def byRankScan (nBlockHeight minProtocol : Int) (fOnlyActive : Bool) : Scan :=
  ⟨nBlockHeight, fOnlyActive, fun mn => decide (mn.protocolVersion < minProtocol)⟩

/-- `GetMasternodeRank` also skips young masternodes while payments are enforced. -/
def rankScan (r : RankEnv) (nBlockHeight minProtocol : Int) (fOnlyActive : Bool) : Scan :=
  ⟨nBlockHeight, fOnlyActive, fun mn => decide (mn.protocolVersion < minProtocol) ||
    r.env.node.loc.isSporkActive .masternodePaymentEnforcement &&
      decide (r.env.adjustedTime - mn.sigTime < MN_WINNER_MINIMUM_AGE)⟩

def rankIn (sorted : List (Int × CTxIn)) (vin : CTxIn) : Int :=
  match sorted.findIdx? fun s => s.2.prevout == vin.prevout with
  | some i => i + 1
  | none => -1

/-- `GetMasternodeRank`; `none` for an exception. -/
def getMasternodeRank (r : RankEnv) (vMasternodes : List CMasternode) (vin : CTxIn) (nBlockHeight minProtocol : Int)
    (fOnlyActive : Bool) : Option Int :=
  match (r.hashes.getBlockHash nBlockHeight).2 with
  | none => some (-1)
  | some _ => (r.ranking (r.rankScan nBlockHeight minProtocol fOnlyActive) vMasternodes).map (rankIn · vin)

/-- The masternode of a rank: `Find` of the input in that place. -/
def foundIn (r : RankEnv) (q : Scan) (vMasternodes : List CMasternode) (sorted : List (Int × CTxIn)) (nRank : Int) :
    Option CMasternode :=
  if 1 ≤ nRank then
    sorted[(nRank - 1).toNat]?.bind fun s => (vMasternodes.map (r.visited q)).find? fun mn =>
      mn.vin.prevout == s.2.prevout
  else none

/-- `GetMasternodeByRank`; the inner `none` is `NULL`. -/
def getMasternodeByRank (r : RankEnv) (vMasternodes : List CMasternode) (nRank nBlockHeight minProtocol : Int)
    (fOnlyActive : Bool) : Option (Option CMasternode) :=
  let q := byRankScan nBlockHeight minProtocol fOnlyActive
  (r.ranking q vMasternodes).map (r.foundIn q vMasternodes · nRank)

variable {r : RankEnv} {q : Scan} {L L' : List CMasternode} {sorted : List (Int × CTxIn)} {x : Int × CTxIn}

theorem vin_visited (mn : CMasternode) : (r.visited q mn).vin = mn.vin := by
  unfold visited
  split_ifs
  · exact congrArg Prod.fst (mn.holding_check r.env false)
  · rfl

theorem scores_perm (h : L'.Perm L) : (r.scores q L').Perm (r.scores q L) :=
  (h.filter _).map _

theorem throws_perm (h : L'.Perm L) : r.throws q L' = r.throws q L := by
  unfold throws
  rw [Bool.eq_iff_iff, any_eq_true, any_eq_true]
  simp only [h.mem_iff]

theorem ranking_perm (h : L'.Perm L) :
    r.ranking q L' = if r.throws q L then none else some (r.order.sort (r.scores q L')) := by
  rw [ranking, throws_perm h]

theorem mem_scores (h : x ∈ r.scores q L) : ∃ mn ∈ L, x = r.scoreOf q.nBlockHeight mn.vin := by
  obtain ⟨mn, hmn, rfl⟩ := mem_map.mp h
  exact ⟨mn, mem_of_mem_filter hmn, rfl⟩

theorem mem_ranking (h : r.ranking q L = some sorted) (hx : x ∈ sorted) :
    ∃ mn ∈ L, x = r.scoreOf q.nBlockHeight mn.vin := by
  unfold ranking at h
  split_ifs at h
  cases h
  exact mem_scores ((r.order.perm _).mem_iff.mp hx)

/-- Every order of the scores comes from an order of the masternodes. -/
theorem exists_scores {l : List (Int × CTxIn)} (h : l.Perm (r.scores q L)) : ∃ L', L'.Perm L ∧ r.scores q L' = l := by
  have hrel : List.Forall₂ (fun x (mn : CMasternode) => x = r.scoreOf q.nBlockHeight mn.vin)
      (r.scores q L) (L.filter (r.counts q)) :=
    forall₂_map_left_iff.mpr (forall₂_same.mpr fun _ _ => rfl)
  obtain ⟨M, hl, hM⟩ := perm_comp_forall₂ h hrel
  have hcounts : ∀ mn ∈ M, r.counts q mn = true := fun mn hmn =>
    (mem_filter.mp (hM.mem_iff.mp hmn)).2
  refine ⟨M ++ L.filter (fun mn => !r.counts q mn), (hM.append_right _).trans (filter_append_perm _ L), ?_⟩
  have hfilter : (M ++ L.filter fun mn => !r.counts q mn).filter (r.counts q) = M := by
    rw [filter_append, filter_eq_self.mpr hcounts]
    simp
  unfold scores
  rw [hfilter]
  exact (forall₂_eq_eq_eq ▸ forall₂_map_right_iff.mpr hl : l = _).symm

section Distinct

variable (hdistinct : (L.map fun mn => mn.vin.prevout).Nodup)
include hdistinct

theorem scores_nodup : ((r.scores q L).map fun s => s.2.prevout).Nodup := by
  unfold scores
  rw [map_map]
  exact hdistinct.sublist (filter_sublist.map _)

/-- **The sorted scores** ignore the order exactly if an exception ends the scan or they differ. -/
theorem ranking_ignores_order_iff : (∀ L', L'.Perm L → r.ranking q L' = r.ranking q L) ↔
      r.throws q L = true ∨ ((r.scores q L).map Prod.fst).Nodup := by
  have hvals : ((r.scores q L).map Prod.snd).Nodup := by
    refine .of_map (fun v : CTxIn => v.prevout) ?_
    rw [map_map]
    exact scores_nodup hdistinct
  cases hthrow : r.throws q L with
  | true =>
    refine ⟨fun _ => .inl rfl, fun _ L' h => ?_⟩
    rw [ranking_perm h, ranking, hthrow, if_pos rfl, if_pos rfl]
  | false =>
    have hrank : ∀ L', L'.Perm L → r.ranking q L' = some (r.order.sort (r.scores q L')) := by
      intro L' h
      rw [ranking_perm h, hthrow, if_neg (by decide)]
    constructor
    · intro hall
      refine .inr ((r.order.order_ignored_iff hvals).mp fun l hl => ?_)
      obtain ⟨L', hL', rfl⟩ := exists_scores hl
      have hsame := hall L' hL'
      rw [hrank L' hL', hrank L (.refl L)] at hsame
      exact Option.some.inj hsame
    · intro hnodup L' h
      rw [hrank L' h, hrank L (.refl L), r.order.sort_eq_of_perm (hnodup.resolve_left (by simp)) (scores_perm h)]

theorem find_visited {mn : CMasternode} (h : mn ∈ L) :
    ((L.map (r.visited q)).find? fun x => x.vin.prevout == mn.vin.prevout) = some (r.visited q mn) := by
  have hsome : ((L.map (r.visited q)).find? fun x => x.vin.prevout == mn.vin.prevout).isSome = true := by
    rw [find?_isSome]
    exact ⟨_, mem_map_of_mem h, by rw [vin_visited]; exact beq_self_eq_true _⟩
  obtain ⟨found, hfound⟩ := Option.isSome_iff_exists.mp hsome
  obtain ⟨x, hx, rfl⟩ := mem_map.mp (mem_of_find?_eq_some hfound)
  have hprev : (r.visited q x).vin.prevout = mn.vin.prevout := by simpa using find?_some hfound
  rw [vin_visited] at hprev
  rw [hfound, inj_on_of_nodup_map hdistinct hx h hprev]

/-- Two sorted scans agree if each place of the first agrees with the second. -/
theorem ranking_eq_of_places (h : L'.Perm L)
    (hplaces : ∀ (sorted sorted' : List (Int × CTxIn)) (i : Nat) (x : Int × CTxIn),
      r.ranking q L = some sorted → r.ranking q L' = some sorted' →
      sorted[i]? = some x → ∃ y, sorted'[i]? = some y ∧ y.2.prevout = x.2.prevout) :
    r.ranking q L' = r.ranking q L := by
  rw [ranking_perm h, ranking] at hplaces ⊢
  split_ifs at hplaces ⊢
  · rfl
  have hperm : (r.order.sort (r.scores q L')).Perm
      (r.order.sort (r.scores q L)) :=
    (r.order.perm _).trans ((scores_perm h).trans (r.order.perm _).symm)
  refine congrArg some (ext_getElem hperm.length_eq fun i hi' hi => ?_)
  have hx := getElem?_eq_getElem hi
  obtain ⟨y, hy, hprev⟩ := hplaces _ _ i _ rfl rfl hx
  obtain ⟨mn, hmn, hxeq⟩ := mem_scores ((r.order.perm _).mem_iff.mp (mem_of_getElem? hx))
  obtain ⟨mn', hmn', hyeq⟩ := mem_scores ((r.order.perm _).mem_iff.mp (hperm.mem_iff.mp (mem_of_getElem? hy)))
  rw [getElem?_eq_getElem hi'] at hy
  rw [Option.some.inj hy, hxeq, hyeq]
  rw [hxeq, hyeq] at hprev
  rw [inj_on_of_nodup_map hdistinct hmn' hmn hprev]

theorem ranking_eq_of_ranks (h : L'.Perm L) (hranks : ∀ vin, (r.ranking q L').map (rankIn · vin)
      = (r.ranking q L).map (rankIn · vin)) : r.ranking q L' = r.ranking q L := by
  refine ranking_eq_of_places hdistinct h fun sorted sorted' i x hs hs' hx => ?_
  obtain ⟨hi, hat⟩ := List.getElem?_eq_some_iff.mp hx
  have hnodup : (sorted.map fun s => s.2.prevout).Nodup := by
    unfold ranking at hs
    split_ifs at hs
    cases hs
    exact (((r.order.perm _).map _).nodup_iff).mpr (scores_nodup hdistinct)
  -- nothing before place `i` has the same outpoint
  have hfirst : sorted.findIdx? (fun s => s.2.prevout == x.2.prevout) = some i := by
    rw [List.findIdx?_eq_some_iff_getElem]
    refine ⟨hi, by rw [hat]; exact beq_self_eq_true _, fun j hj heq => ?_⟩
    have hsame : (sorted.map fun s => s.2.prevout)[j]? = (sorted.map fun s => s.2.prevout)[i]? := by
      rw [List.getElem?_map, List.getElem?_map, List.getElem?_eq_getElem (by omega), List.getElem?_eq_getElem hi, hat]
      exact congrArg some (eq_of_beq heq)
    have hji := (List.getElem?_inj (by rw [List.length_map]; omega) hnodup).mp hsame
    omega
  have hrank := hranks x.2
  rw [hs, hs'] at hrank
  replace hrank : rankIn sorted' x.2 = rankIn sorted x.2 := Option.some.inj hrank
  unfold rankIn at hrank
  rw [hfirst] at hrank
  cases hidx : sorted'.findIdx? fun s => s.2.prevout == x.2.prevout with
  | none =>
    rw [hidx] at hrank
    dsimp only at hrank
    omega
  | some j =>
    rw [hidx] at hrank
    have hij : j = i := by
      dsimp only at hrank
      omega
    obtain ⟨hlt, hhas, -⟩ := List.findIdx?_eq_some_iff_getElem.mp hidx
    subst hij
    exact ⟨_, List.getElem?_eq_getElem hlt, eq_of_beq hhas⟩

theorem ranking_eq_of_found (h : L'.Perm L)
    (hfound : ∀ nRank, (r.ranking q L').map (r.foundIn q L' · nRank) = (r.ranking q L).map (r.foundIn q L · nRank)) :
    r.ranking q L' = r.ranking q L := by
  refine ranking_eq_of_places hdistinct h fun sorted sorted' i x hs hs' hx => ?_
  obtain ⟨mn, hmn, rfl⟩ := mem_ranking hs (mem_of_getElem? hx)
  have hrank := hfound (i + 1)
  rw [hs, hs'] at hrank
  replace hrank : r.foundIn q L' sorted' (i + 1) = r.foundIn q L sorted (i + 1) := Option.some.inj hrank
  unfold foundIn at hrank
  rw [if_pos (by omega), if_pos (by omega), show ((i : Int) + 1 - 1).toNat = i by omega, hx] at hrank
  replace hrank := hrank.trans (find_visited hdistinct hmn)
  obtain ⟨y, hy, hfind⟩ := Option.bind_eq_some_iff.mp hrank
  have hprev : (r.visited q mn).vin.prevout = y.2.prevout := by simpa using find?_some hfind
  rw [vin_visited] at hprev
  exact ⟨y, hy, hprev.symm⟩

/-- What stands in one place is the same masternode in every order. -/
theorem foundIn_perm (h : L'.Perm L) (hs : r.ranking q L = some sorted) (nRank : Int) :
    r.foundIn q L' sorted nRank = r.foundIn q L sorted nRank := by
  apply if_congr .rfl _ rfl
  cases hx : sorted[(nRank - 1).toNat]? with
  | none => rfl
  | some x =>
    obtain ⟨mn, hmn, rfl⟩ := mem_ranking hs (mem_of_getElem? hx)
    have hdistinct' := ((h.map fun mn : CMasternode => mn.vin.prevout).nodup_iff).mpr hdistinct
    exact (find_visited hdistinct' (h.mem_iff.mpr hmn)).trans (find_visited hdistinct hmn).symm

end Distinct

end RankEnv

open RankEnv in
/-- **Ranks and the order of the list.**  Take any list of masternodes with distinct outpoints.  No order of it
changes the rank of any input or the masternode of any rank exactly if, for each of the two scans, the compact scores of
the masternodes that count differ, or an exception ends the scan, or (for `GetMasternodeRank`) the
block is not known. -/
theorem ranks_ignore_order_iff (r : RankEnv) (vMasternodes : List CMasternode) (nBlockHeight minProtocol : Int)
    (fOnlyActive : Bool) (hdistinct : (vMasternodes.map fun mn => mn.vin.prevout).Nodup) :
    (∀ order : List CMasternode, order.Perm vMasternodes →
        (∀ vin, r.getMasternodeRank order vin nBlockHeight minProtocol fOnlyActive
          = r.getMasternodeRank vMasternodes vin nBlockHeight minProtocol fOnlyActive) ∧
        ∀ nRank, r.getMasternodeByRank order nRank nBlockHeight minProtocol fOnlyActive
          = r.getMasternodeByRank vMasternodes nRank nBlockHeight minProtocol fOnlyActive) ↔
      ((r.hashes.getBlockHash nBlockHeight).2 = none ∨
        r.throws (r.rankScan nBlockHeight minProtocol fOnlyActive) vMasternodes = true ∨
        ((r.scores (r.rankScan nBlockHeight minProtocol fOnlyActive) vMasternodes).map Prod.fst).Nodup) ∧
      (r.throws (byRankScan nBlockHeight minProtocol fOnlyActive) vMasternodes = true ∨
        ((r.scores (byRankScan nBlockHeight minProtocol fOnlyActive) vMasternodes).map Prod.fst).Nodup) := by
  rw [← ranking_ignores_order_iff hdistinct, ← ranking_ignores_order_iff hdistinct]
  unfold getMasternodeRank getMasternodeByRank
  constructor
  · intro hall
    refine ⟨?_, fun order h => ranking_eq_of_found hdistinct h (hall order h).2⟩
    cases hhash : (r.hashes.getBlockHash nBlockHeight).2 with
    | none => exact .inl rfl
    | some hash =>
      rw [hhash] at hall
      exact .inr fun order h => ranking_eq_of_ranks hdistinct h (hall order h).1
  · rintro ⟨hranks, hfound⟩ order h
    constructor
    · intro vin
      cases hhash : (r.hashes.getBlockHash nBlockHeight).2 with
      | none => rfl
      | some hash => rw [(hranks.resolve_left (by rw [hhash]; simp)) order h]
    · intro nRank
      dsimp only
      rw [hfound order h]
      cases hs : r.ranking (byRankScan nBlockHeight minProtocol fOnlyActive) vMasternodes with
      | none => rfl
      | some sorted => exact congrArg some (foundIn_perm hdistinct h hs nRank)

def rankedPair : List CMasternode := [0, 1].map fun n => (collateralBroadcast n 1601990000).toMasternode

/-- Scores are `scale` times what the outpoint adds up to, beyond `2 ^ 200`. -/
def rankEnv (scale : Uint256) : RankEnv :=
  ⟨masternodeEnv ⟨0, []⟩, BlockHashes.run [.connect 10, .connect 11], fun _ => 0,
    fun _ aux => 2 ^ 200 + scale * aux, KeySort.insertion⟩

/-- Scores that are far apart give the same ranks in every order. -/
theorem far_scores_ignore_order : (rankedPair.map fun mn => mn.vin.prevout).Nodup ∧
    ∀ order : List CMasternode, order.Perm rankedPair →
      (∀ vin, (rankEnv (2 ^ 190)).getMasternodeRank order vin 2 80002 false
        = (rankEnv (2 ^ 190)).getMasternodeRank rankedPair vin 2 80002 false) ∧
      ∀ nRank, (rankEnv (2 ^ 190)).getMasternodeByRank order nRank 2 80002 false
        = (rankEnv (2 ^ 190)).getMasternodeByRank rankedPair nRank 2 80002 false :=
  ⟨by decide +kernel, (ranks_ignore_order_iff (rankEnv (2 ^ 190)) rankedPair 2 80002 false (by decide +kernel)).mpr
    (by decide +kernel)⟩

/-- Scores that differ by one have one compact form; the ranks follow the list. -/
theorem close_scores_follow_order :
    let r := rankEnv 1
    let vin : CTxIn := .of 7 0
    (rankedPair.map fun mn => (r.calculateScore mn.vin 2).toNat) = [2 ^ 200 + 7, 2 ^ 200 + 8] ∧
      r.getMasternodeRank rankedPair vin 2 80002 false ≠ r.getMasternodeRank rankedPair.reverse vin 2 80002 false ∧
      r.getMasternodeByRank rankedPair 1 2 80002 false ≠ r.getMasternodeByRank rankedPair.reverse 1 2 80002 false := by
  decide +kernel

end PwrbCore
