/-
  Masternode.VoteMessages — VOTES ON PROPOSALS AND ON FINALIZED BUDGETS, as messages (`CBudgetManager` of
  `masternode-budget.cpp`).

  Both kinds of votes are handled alike: a message is entered as seen, its signature is checked,
  and the vote goes to the proposal or budget it is for.  A vote for something unknown waits in a
  map of orphans, which has one place for each proposal or budget.

  Main results: `early_votes_counted_iff`, `forged_vote_harmless_iff`.
-/
import PwrbCore.Masternode.BudgetVotes
import Mathlib.Data.List.Induction

namespace PwrbCore

open Prod

/-! ## §1. The two kinds of votes. -/

variable {V : Type} {early : List (Bool × V)}

structure CFinalizedBudgetVote where
  vin : CTxIn
  nBudgetHash : Uint256
  nTime : Int
  vchSig : List UInt8 := []
  fValid : Bool := true
  fSynced : Bool := false
  deriving DecidableEq, Repr

/-- What the two kinds of votes have in common. -/
structure VoteKind (V : Type) where
  vin : V → CTxIn
  /-- the proposal or budget it is for -/
  target : V → Uint256
  nTime : V → Int
  /-- `GetHash`, which leaves the signature out -/
  getHash : V → Uint256
  /-- `COutPoint::GetHash` -/
  outHash : COutPoint → Uint256

/-- Votes on proposals; the hash covers input, proposal, vote and time. -/
def proposalVotes (hash : CTxIn → Uint256 → Int → Int → Uint256) (outHash : COutPoint → Uint256) :
    VoteKind CBudgetVote :=
  ⟨CBudgetVote.vin, CBudgetVote.nProposalHash, CBudgetVote.nTime,
    fun v => hash v.vin v.nProposalHash v.nVote v.nTime, outHash⟩

/-- Votes on finalized budgets; the hash is of the input, the budget and the time. -/
def finalizedVotes (hash : CTxIn → Uint256 → Int → Uint256) (outHash : COutPoint → Uint256) :
    VoteKind CFinalizedBudgetVote :=
  ⟨CFinalizedBudgetVote.vin, CFinalizedBudgetVote.nBudgetHash, CFinalizedBudgetVote.nTime,
    fun v => hash v.vin v.nBudgetHash v.nTime, outHash⟩

/-- The three maps of `CBudgetManager` for one kind of votes. -/
structure VoteBook (V : Type) where
  /-- the `mapVotes` of each proposal or finalized budget -/
  targets : StdMap Uint256 (StdMap Uint256 V) := ∅
  /-- `mapOrphanMasternodeBudgetVotes`, `mapOrphanFinalizedBudgetVotes` -/
  orphans : StdMap Uint256 V := ∅
  /-- `mapSeenMasternodeBudgetVotes`, `mapSeenFinalizedBudgetVotes` -/
  seen : StdMap Uint256 V := ∅

namespace VoteKind

variable (kind : VoteKind V)

def key (vote : V) : Uint256 := kind.outHash (kind.vin vote).prevout

/-- `AddOrUpdateVote` of a proposal or of a finalized budget. -/
def addOrUpdateVote : Int → StdMap Uint256 V → V → Except VoteError (StdMap Uint256 V) :=
    addOrUpdate kind.key kind.nTime

/-- `UpdateProposal`, `UpdateFinalizedBudget`; asking peers for missing items is left out. -/
def update (now : Int) (synced fromPeer : Bool) (book : VoteBook V) (vote : V) : VoteBook V × Except VoteError Unit :=
  match book.targets.get (kind.target vote) with
  | none =>
    if fromPeer then
      if synced = false then (book, .error .notSynced)
      else ({ book with orphans := book.orphans.set (kind.target vote) vote }, .error .proposalNotFound)
    else (book, .error .proposalNotFound)
  | some mapVotes =>
    match kind.addOrUpdateVote now mapVotes vote with
    | .error e => (book, .error e)
    | .ok mapVotes' => ({ book with targets := book.targets.set (kind.target vote) mapVotes' }, .ok ())

def checkOrphan (now : Int) (synced : Bool) (book : VoteBook V) (parked : Uint256) (vote : V) : VoteBook V :=
  match kind.update now synced false book vote with
  | (book', .ok ()) => { book' with orphans := book'.orphans.remove parked }
  | (book', .error _) => book'

/-- `CheckOrphanVotes`, for this kind of votes. -/
def checkOrphanVotes (now : Int) (synced : Bool) (book : VoteBook V) : VoteBook V :=
  book.orphans.entries.foldl (fun book e => kind.checkOrphan now synced book e.1 e.2) book

structure VoteEnv (V : Type) where
  /-- `mnodeman.Find(vote.vin) != NULL` -/
  find : CTxIn → Bool
  checkSignature : V → Bool
  now : Int
  synced : Bool

/-- `ProcessMessage` of a `BUDGETVOTE` or `FINALBUDGETVOTE`, and whether the vote went on. That it returns at once in
lite mode and before the sync is left out. -/
def processVote (env : VoteEnv V) (book : VoteBook V) (vote : V) : VoteBook V × Bool :=
  if (book.seen.get (kind.getHash vote)).isSome then (book, false)
  else if env.find (kind.vin vote) = false then (book, false)
  else
    let book := { book with seen := book.seen.insertNew (kind.getHash vote) vote }
    if env.checkSignature vote = false then (book, false)
    else ((kind.update env.now env.synced true book vote).1, true)

end VoteKind

/-! ## §2. Forged messages. -/

namespace VoteKind

variable (kind : VoteKind V)

/-- **Forged votes.** Take any state and any vote whose signature does not verify. Every correctly signed vote with
the same hash goes on to its proposal or budget, with the same votes there as if the forged one had not come, exactly
if that hash was seen before or the masternode is not known. -/
theorem forged_vote_harmless_iff (env : VoteEnv V) (book : VoteBook V) (forged : V)
    (hforged : env.checkSignature forged = false) :
    (∀ env' vote, kind.getHash vote = kind.getHash forged → env'.checkSignature vote = true →
        (kind.processVote env' (kind.processVote env book forged).1 vote).2 = (kind.processVote env' book vote).2 ∧
        (kind.processVote env' (kind.processVote env book forged).1 vote).1.targets
          = (kind.processVote env' book vote).1.targets)
      ↔ (book.seen.get (kind.getHash forged)).isSome = true ∨ env.find (kind.vin forged) = false := by
  constructor
  · intro hall
    by_contra hnew
    rw [not_or, Bool.not_eq_false] at hnew
    -- the same vote, signed, on a node that takes it
    have hsame := (hall ⟨fun _ => true, fun _ => true, 0, true⟩ forged rfl rfl).1
    have hseen : ((book.seen.insertNew (kind.getHash forged) forged).get (kind.getHash forged)).isSome = true := by
      rw [StdMap.get_insertNew, if_pos rfl]
      rfl
    simp_all [processVote]
  · intro hcond env' vote _ _
    have hsame : (kind.processVote env book forged).1 = book := by
      unfold processVote
      rcases hcond with hseen | hunknown
      · rw [if_pos hseen]
      · split_ifs <;> rfl
    rw [hsame]
    exact ⟨rfl, rfl⟩

end VoteKind

open VoteKind List StdMap

def sampleVotes : VoteKind CBudgetVote :=
  proposalVotes (fun vin _ _ _ => BitVec.ofNat 256 vin.prevout.n) fun o => BitVec.ofNat 256 o.n

def sampleVoteEnv (known : Bool) : VoteEnv CBudgetVote := ⟨fun _ => known, fun v => v.vchSig == [1], 5000, true⟩

/-- A node that knows the proposal 9. -/
def sampleBook : VoteBook CBudgetVote := { targets := (∅ : StdMap Uint256 (StdMap Uint256 CBudgetVote)).set 9 ∅ }

def genuineVote : CBudgetVote := { sampleVote 0 1 1000 with vchSig := [1] }

/-- The forged vote is of a masternode not known yet; the genuine one is counted afterwards. -/
theorem unknown_forger_harmless : (sampleVoteEnv false).find (sampleVote 0 1 1000).vin = false ∧
    ((sampleVotes.processVote (sampleVoteEnv true) (sampleVotes.processVote (sampleVoteEnv false) sampleBook
      (sampleVote 0 1 1000)).1 genuineVote).1.targets.get 9).bind (·.get 0) = some genuineVote := by
  have hcounted : ((sampleVotes.processVote (sampleVoteEnv true) sampleBook genuineVote).1.targets.get 9).bind
      (·.get 0) = some genuineVote := by decide +kernel
  have hharmless := (sampleVotes.forged_vote_harmless_iff (sampleVoteEnv false) sampleBook (sampleVote 0 1 1000)
    (by decide)).mpr (.inr rfl) (sampleVoteEnv true) genuineVote rfl rfl
  refine ⟨rfl, ?_⟩
  rw [hharmless.2]
  exact hcounted

/-- The vote with a bad signature is entered as seen; the genuine one is passed over. -/
theorem forged_vote_blocks_genuine :
    let blocked := sampleVotes.processVote (sampleVoteEnv true)
      (sampleVotes.processVote (sampleVoteEnv true) sampleBook (sampleVote 0 1 1000)).1 genuineVote
    (sampleVoteEnv true).checkSignature (sampleVote 0 1 1000) = false ∧
      (sampleVoteEnv true).checkSignature genuineVote = true ∧
      sampleVotes.getHash genuineVote = sampleVotes.getHash (sampleVote 0 1 1000) ∧
      ((sampleVotes.processVote (sampleVoteEnv true) sampleBook genuineVote).1.targets.get 9).bind (·.get 0)
        = some genuineVote ∧
      blocked.2 = false ∧ (blocked.1.targets.get 9).bind (·.get 0) = none := by
  decide +kernel

/-! ## §3. Early votes. -/

namespace VoteKind

variable (kind : VoteKind V)

/-- `AddProposal`, `AddFinalizedBudget` of a valid one, without votes. -/
def addTarget (target : Uint256) (book : VoteBook V) : VoteBook V :=
  { book with targets := book.targets.insertNew target ∅ }

def receiveEarly (book : VoteBook V) (d : Bool × V) : VoteBook V := (kind.update 0 d.1 true book d.2).1

def receiveLate (book : VoteBook V) (d : Int × V) : VoteBook V := (kind.update d.1 true true book d.2).1

/-- Votes come, the target comes and `CheckOrphanVotes` runs, and more votes come. -/
def delivered (now : Int) (target : Uint256) (book : VoteBook V) (early : List (Bool × V))
    (late : List (Int × V)) : VoteBook V :=
  late.foldl kind.receiveLate (kind.checkOrphanVotes now true (addTarget target (early.foldl kind.receiveEarly book)))

/-- Orphans wait under what they are for. -/
def Keyed (book : VoteBook V) : Prop := ∀ k v, book.orphans.get k = some v → kind.target v = k

def Exact (mapVotes : StdMap Uint256 V) (votes : List V) : Prop :=
  ∀ k, mapVotes.get k = votes.find? fun v => decide (kind.key v = k)

variable {kind} {now : Int} {target : Uint256} {book : VoteBook V} {vote : V} {mapVotes : StdMap Uint256 V}
    {votes : List V}

theorem addOrUpdateVote_new (hnew : mapVotes.get (kind.key vote) = none) (htime : kind.nTime vote ≤ now + 60 * 60) :
    kind.addOrUpdateVote now mapVotes vote = .ok (mapVotes.set (kind.key vote) vote) := by
  unfold addOrUpdateVote addOrUpdate
  rw [hnew]
  exact if_neg (by omega)

theorem Exact.add (h : kind.Exact mapVotes votes) (vote : V) :
    kind.Exact (mapVotes.set (kind.key vote) vote) (vote :: votes) := by
  intro k
  rw [get_set, find?_cons]
  by_cases hk : k = kind.key vote
  · rw [if_pos hk, decide_eq_true hk.symm]
  · rw [if_neg hk, decide_eq_false fun heq => hk heq.symm]
    exact h k

theorem Exact.get_none (h : kind.Exact mapVotes votes) (hnew : kind.key vote ∉ votes.map kind.key) :
    mapVotes.get (kind.key vote) = none := by
  rw [h, find?_eq_none]
  intro v hv heq
  exact hnew (mem_map.mpr ⟨v, hv, of_decide_eq_true heq⟩)

theorem Exact.get_iff (h : kind.Exact mapVotes votes) (hkeys : ∀ v ∈ votes, kind.key v = kind.key vote → v = vote) :
    mapVotes.get (kind.key vote) = some vote ↔ vote ∈ votes := by
  rw [h]
  constructor
  · exact mem_of_find?_eq_some
  intro hmem
  cases hfind : votes.find? fun v => decide (kind.key v = kind.key vote) with
  | none => exact absurd (decide_eq_true rfl) (find?_eq_none.mp hfind vote hmem)
  | some v =>
    grind

/-- The vote that waits: the last one that came to a synchronised node. -/
def parked (early : List (Bool × V)) : Option V := ((early.filter fst).getLast?).map snd

/-- **Early votes** for an unknown target change only the orphan that waits for it. -/
theorem foldl_receiveEarly (early : List (Bool × V)) (hunknown : book.targets.get target = none)
    (htarget : ∀ d ∈ early, kind.target d.2 = target) : (early.foldl kind.receiveEarly book).targets = book.targets ∧
      ∀ k, (early.foldl kind.receiveEarly book).orphans.get k
        = if k = target then (parked early).or (book.orphans.get target) else book.orphans.get k := by
  induction early using reverseRecOn with
  | nil =>
    refine ⟨rfl, fun k => ?_⟩
    show book.orphans.get k = if k = target then book.orphans.get target else book.orphans.get k
    split_ifs with hk
    · rw [hk]
    · rfl
  | append_singleton early d ih =>
    obtain ⟨htargets, horphans⟩ := ih fun e he => htarget e (mem_append_left _ he)
    rw [foldl_append, foldl_cons, foldl_nil]
    generalize early.foldl kind.receiveEarly book = after at htargets horphans
    have hd : kind.target d.2 = target := htarget d (mem_append_right _ mem_cons_self)
    unfold receiveEarly update
    rw [hd, htargets, hunknown]
    rw [if_pos rfl]
    split_ifs with hsynced
    · simp [parked, htargets, hsynced, horphans]
    refine ⟨rfl, fun k => ?_⟩
    have hparked : parked (early ++ [d]) = some d.2 := by simp [parked, hsynced]
    show (after.orphans.set target d.2).get k = _
    rw [get_set, horphans, hparked]
    split_ifs <;> rfl

/-- **One orphan**: what it is for takes it if it can. -/
theorem targets_checkOrphan (now : Int) (synced : Bool) (book : VoteBook V) (k : Uint256) (vote : V) (t : Uint256) :
    (kind.checkOrphan now synced book k vote).targets.get t
      = if t = kind.target vote then (book.targets.get t).map fun m => (kind.addOrUpdateVote now m vote).toOption.getD m
        else book.targets.get t := by
  unfold checkOrphan update
  by_cases ht : t = kind.target vote
  · subst ht
    rw [if_pos rfl]
    cases hget : book.targets.get (kind.target vote) with
    | none => exact hget
    | some mapVotes =>
      cases hadd : kind.addOrUpdateVote now mapVotes vote with
      | error e => simpa [hadd, Except.toOption] using hget
      | ok mapVotes' => simp [hadd, Except.toOption, get_set_self]
  · rw [if_neg ht]
    cases hget : book.targets.get (kind.target vote) with
    | none => rfl
    | some mapVotes =>
      cases hadd : kind.addOrUpdateVote now mapVotes vote with
      | error e => simp [hadd]
      | ok mapVotes' => simp [hadd, get_set_of_ne _ _ ht]

/-- **`CheckOrphanVotes`** gives a target without votes its orphan. -/
theorem checkOrphanVotes_exact (hkeyed : kind.Keyed book) (hknown : book.targets.get target = some ∅) (synced : Bool)
    (htime : ∀ v, book.orphans.get target = some v → kind.nTime v ≤ now + 60 * 60) :
    ∃ m, (kind.checkOrphanVotes now synced book).targets.get target = some m ∧
      kind.Exact m (book.orphans.get target).toList := by
  have hloop : ∀ (es : List (Sigma fun _ : Uint256 => V)) (book : VoteBook V), es.NodupKeys →
    (∀ e ∈ es, kind.target e.2 = e.1) →
      (es.foldl (fun book e => kind.checkOrphan now synced book e.1 e.2) book).targets.get target
        = (es.dlookup target).elim (book.targets.get target) fun v =>
          (book.targets.get target).map fun m => (kind.addOrUpdateVote now m v).toOption.getD m := by
    intro es
    induction es with
    | nil => exact fun book _ _ => rfl
    | cons e es ih =>
      intro book hnodup htargets
      obtain ⟨hnew, hrest⟩ := nodupKeys_cons.mp hnodup
      rw [foldl_cons, ih _ hrest fun e' he' => htargets e' (mem_cons_of_mem e he'), targets_checkOrphan,
        htargets e mem_cons_self]
      by_cases he : target = e.1
      · subst he
        rw [dlookup_eq_none.mpr hnew, dlookup_cons_eq, if_pos rfl]
        rfl
      · rw [if_neg he, dlookup_cons_ne _ _ he]
  have hend := hloop book.orphans.entries book book.orphans.nodupKeys fun e he =>
    hkeyed e.1 e.2 (mem_entries_iff.mp he)
  replace hend : (kind.checkOrphanVotes now synced book).targets.get target
      = (book.orphans.get target).elim (book.targets.get target) fun v =>
        (book.targets.get target).map fun m => (kind.addOrUpdateVote now m v).toOption.getD m := hend
  have hempty : kind.Exact ∅ [] := fun _ => rfl
  cases horphan : book.orphans.get target with
  | none =>
    rw [horphan] at hend
    exact ⟨∅, hend.trans hknown, hempty⟩
  | some v =>
    rw [horphan, hknown] at hend
    have hadd : kind.addOrUpdateVote now ∅ v = .ok _ := addOrUpdateVote_new rfl (htime v horphan)
    refine ⟨_, hend, ?_⟩
    dsimp only
    rw [hadd]
    exact hempty.add v

/-- **Late votes** are counted one by one. -/
theorem foldl_receiveLate_exact (late : List (Int × V))
    (hexact : ∃ m, book.targets.get target = some m ∧ kind.Exact m votes)
    (htarget : ∀ d ∈ late, kind.target d.2 = target) (htime : ∀ d ∈ late, kind.nTime d.2 ≤ d.1 + 60 * 60)
    (hnodup : (votes.map kind.key ++ late.map fun d => kind.key d.2).Nodup) :
    ∃ m, (late.foldl kind.receiveLate book).targets.get target = some m ∧
      kind.Exact m ((late.map snd).reverse ++ votes) := by
  induction late generalizing book votes with
  | nil => exact hexact
  | cons d late ih =>
    obtain ⟨m, hm, hexact⟩ := hexact
    have hd := htarget d mem_cons_self
    have hswap : ((d.2 :: votes).map kind.key ++ late.map fun d => kind.key d.2).Nodup :=
      (perm_middle.nodup_iff).mp hnodup
    have hnew : kind.key d.2 ∉ votes.map kind.key := fun hmem =>
      (nodup_cons.mp hswap).1 (mem_append_left _ hmem)
    have hstep : (kind.receiveLate book d).targets.get target = some (m.set (kind.key d.2) d.2) := by
      unfold receiveLate update
      rw [hd, hm]
      dsimp only
      rw [addOrUpdateVote_new (hexact.get_none hnew) (htime d mem_cons_self)]
      exact get_set_self _ _ _
    have hrest := ih ⟨_, hstep, hexact.add d.2⟩ (fun e he => htarget e (mem_cons_of_mem d he))
      (fun e he => htime e (mem_cons_of_mem d he)) hswap
    rw [map_cons, reverse_cons, append_assoc]
    exact hrest

theorem mem_of_parked (h : parked early = some vote) : vote ∈ early.map snd := by
  obtain ⟨d, hd, rfl⟩ := Option.map_eq_some_iff.mp h
  exact mem_map.mpr ⟨d, (mem_filter.mp (mem_of_getLast? hd)).1, rfl⟩

/-- **What is counted in the end**: the late votes and the early one that waited. -/
theorem delivered_exact {late : List (Int × V)} (hkeyed : kind.Keyed book)
    (hunknown : book.targets.get target = none) (hfree : book.orphans.get target = none)
    (htarget : ∀ v ∈ early.map snd ++ late.map snd, kind.target v = target)
    (hnodup : ((early.map snd ++ late.map snd).map kind.key).Nodup)
    (hearly : ∀ d ∈ early, kind.nTime d.2 ≤ now + 60 * 60) (hlate : ∀ d ∈ late, kind.nTime d.2 ≤ d.1 + 60 * 60) :
    ∃ m, (kind.delivered now target book early late).targets.get target = some m ∧
      kind.Exact m ((late.map snd).reverse ++ (parked early).toList) := by
  obtain ⟨htargets, horphans⟩ := foldl_receiveEarly early hunknown fun d hd =>
    htarget d.2 (mem_append_left _ (mem_map_of_mem hd))
  unfold delivered
  generalize early.foldl kind.receiveEarly book = after at htargets horphans
  rw [hfree, Option.or_none] at horphans
  have hwaits : (addTarget target after).orphans.get target = parked early := (horphans target).trans (if_pos rfl)
  have hknown : (addTarget target after).targets.get target = some ∅ := by
    show (after.targets.insertNew target ∅).get target = some ∅
    rw [get_insertNew, if_pos rfl, htargets, hunknown]
    rfl
  have hkeyed' : kind.Keyed (addTarget target after) := by
    intro k v hv
    replace hv : after.orphans.get k = some v := hv
    rw [horphans] at hv
    split_ifs at hv with hk
    · rw [hk, htarget v (mem_append_left _ (mem_of_parked hv))]
    · exact hkeyed k v hv
  have htime : ∀ v, (addTarget target after).orphans.get target = some v → kind.nTime v ≤ now + 60 * 60 := by
    intro v hv
    obtain ⟨d, hd, rfl⟩ := mem_map.mp (mem_of_parked (hwaits.symm.trans hv))
    exact hearly d hd
  have hfirst := checkOrphanVotes_exact hkeyed' hknown true htime
  rw [hwaits] at hfirst
  refine foldl_receiveLate_exact late hfirst (fun d hd => htarget d.2 (mem_append_right _ (mem_map_of_mem hd))) hlate ?_
  -- the waiting vote is one of the early ones
  have hsub : (parked early).toList.Sublist (early.map snd) := by
    cases hp : parked early with
    | none => exact nil_sublist _
    | some v => exact singleton_sublist.mpr (mem_of_parked hp)
  rw [map_append, map_map (l := late)] at hnodup
  exact ((hsub.map kind.key).append_right _).nodup hnodup

end VoteKind

/-- **Early votes.** Take votes of masternodes that the hash tells apart, all for one unknown proposal (or finalized
budget), none ahead of its time. Some come early, each to a synchronised node or not; the proposal comes and the
orphans are looked at; the others come late. Every vote is counted exactly if one came early at most, and the node was
synchronised then. -/
theorem early_votes_counted_iff {V : Type} (kind : VoteKind V) (now : Int) (target : Uint256) (book : VoteBook V)
    (early : List (Bool × V)) (late : List (Int × V)) (hkeyed : kind.Keyed book)
    (hunknown : book.targets.get target = none) (hfree : book.orphans.get target = none)
    (htarget : ∀ v ∈ early.map snd ++ late.map snd, kind.target v = target)
    (hnodup : ((early.map snd ++ late.map snd).map kind.key).Nodup)
    (hearly : ∀ d ∈ early, kind.nTime d.2 ≤ now + 60 * 60) (hlate : ∀ d ∈ late, kind.nTime d.2 ≤ d.1 + 60 * 60) :
    (∀ v ∈ early.map snd ++ late.map snd,
        ((kind.delivered now target book early late).targets.get target).bind (·.get (kind.key v)) = some v)
      ↔ early.length ≤ 1 ∧ ∀ d ∈ early, d.1 = true := by
  obtain ⟨m, hm, hexact⟩ := delivered_exact hkeyed hunknown hfree htarget hnodup hearly hlate
  have hinj := inj_on_of_nodup_map hnodup
  have hcounted : ∀ v ∈ early.map snd ++ late.map snd,
      m.get (kind.key v) = some v ↔ v ∈ late.map snd ∨ parked early = some v := by
    intro v hv
    have hall : ∀ w ∈ (late.map snd).reverse ++ (parked early).toList, w ∈ early.map snd ++ late.map snd := by
      intro w hw
      rcases mem_append.mp hw with hw | hw
      · exact mem_append_right _ (mem_reverse.mp hw)
      · exact mem_append_left _ (mem_of_parked (Option.mem_toList.mp hw))
    rw [hexact.get_iff fun w hw hkey => hinj (hall w hw) hv hkey, mem_append, mem_reverse, Option.mem_toList]
  rw [hm]
  constructor
  · intro hall
    have hparked : ∀ d ∈ early, parked early = some d.2 := by
      intro d hd
      have hmem := mem_map_of_mem (f := snd) hd
      refine ((hcounted d.2 (mem_append_left _ hmem)).mp (hall d.2 (mem_append_left _ hmem))).resolve_left ?_
      intro hlater
      exact (nodup_append.mp (.of_map _ hnodup)).2.2 _ hmem _ hlater rfl
    cases early with
    | nil => exact ⟨Nat.zero_le 1, nofun⟩
    | cons d rest =>
      have hrest : rest = [] := by
        rw [eq_nil_iff_forall_not_mem]
        intro e he
        -- two early votes would both be the one that waits
        have hsame : d.2 = e.2 := Option.some.inj
          ((hparked d mem_cons_self).symm.trans (hparked e (mem_cons_of_mem d he)))
        have hdist := List.Nodup.of_map _ hnodup
        exact (nodup_cons.mp hdist).1 (mem_append_left _ (hsame ▸ mem_map_of_mem he))
      subst hrest
      refine ⟨Nat.le_refl 1, fun e he => ?_⟩
      rw [mem_singleton] at he
      subst he
      by_contra hnot
      have hnone := hparked e mem_cons_self
      simp [parked, hnot] at hnone
  · rintro ⟨hlen, hsynced⟩ v hv
    refine (hcounted v hv).mpr ((mem_append.mp hv).symm.imp id fun hmem => ?_)
    obtain ⟨d, hd, rfl⟩ := mem_map.mp hmem
    have hone : early = [d] := by
      cases early with
      | nil => cases hd
      | cons e rest =>
        have hnil : rest = [] := length_eq_zero_iff.mp (by simpa using hlen)
        subst hnil
        rw [mem_singleton.mp hd]
    subst hone
    simp [parked, hsynced d hd]

theorem one_early_vote_counted : sampleVotes.Keyed {} ∧ ∀ v ∈ [sampleVote 0 1 1000] ++ [sampleVote 1 1 2000],
      ((sampleVotes.delivered 1500 9 {} [(true, sampleVote 0 1 1000)] [(2500, sampleVote 1 1 2000)]).targets.get 9).bind
        (·.get (sampleVotes.key v)) = some v :=
  ⟨nofun, (early_votes_counted_iff sampleVotes 1500 9 {} [(true, sampleVote 0 1 1000)] [(2500, sampleVote 1 1 2000)]
    nofun rfl rfl (by decide) (by decide) (by decide) (by decide)).mpr (by decide)⟩

/-- Of two votes that come before the proposal the first is lost. -/
theorem two_early_votes_one_lost :
    let book := sampleVotes.delivered 3000 9 {} [(true, sampleVote 0 1 1000), (true, sampleVote 1 1 2000)] []
    (book.targets.get 9).bind (·.get (sampleVotes.key (sampleVote 0 1 1000))) = none ∧
      (book.targets.get 9).bind (·.get (sampleVotes.key (sampleVote 1 1 2000))) = some (sampleVote 1 1 2000) := by
  decide +kernel

end PwrbCore
