/-
  Masternode.WinnerVotes — VOTES FOR THE PAYEE OF A BLOCK (`CMasternodePaymentWinner`, `CMasternodePayments` of
  `masternode-payments.h` and `masternode-payments.cpp`).

  A masternode votes for the payee of a height.  The guard against voting twice remembers the
  last height each masternode voted for, and is asked before the signature is checked.

  Main results: `tally_eq_stored`, `one_vote_per_height`, `payment_list_consistent`, `rejected_winner_harmless_iff`.
-/
import PwrbCore.Node.Env
import PwrbCore.Node.Sporks

namespace PwrbCore

/-! ## §1. Messages. -/

structure CMasternodePaymentWinner where
  vinMasternode : CTxIn
  nBlockHeight : Int
  payee : CScript
  vchSig : List UInt8 := []
  nMessVersion : MessageVersion := .hash
  deriving DecidableEq, Repr

variable {winner : CMasternodePaymentWinner}

def MNPAYMENTS_SIGNATURES_TOTAL : Int := 10

structure WinnerEnv where
  /-- the protocol version of the peer, and `ActiveProtocol()` -/
  peerVersion : Int
  activeProtocol : Int
  /-- `chainActive.Tip()->nHeight`; `none` if the lock is not free or there is no tip -/
  tipHeight : Option Int
  /-- `mnodeman.CountEnabled()` -/
  countEnabled : Nat
  height_start_MessSignaturesV2 : Int := 2100
  /-- the protocol version of a listed masternode -/
  find : CTxIn → Option Int
  getMasternodeRank : CTxIn → Int → Int → Int
  checkSignature : CMasternodePaymentWinner → Bool
  /-- `GetBlockHash` of a height -/
  getBlockHash : Int → Option Uint256

variable {env : WinnerEnv}

namespace WinnerEnv

/-- `CMasternodePaymentWinner::IsValid`. -/
def isValid (env : WinnerEnv) (winner : CMasternodePaymentWinner) : Bool :=
  match env.find winner.vinMasternode with
  | none => false
  | some protocolVersion =>
    decide (env.activeProtocol ≤ protocolVersion)
      && decide (env.getMasternodeRank winner.vinMasternode (winner.nBlockHeight - 100) env.activeProtocol
        ≤ MNPAYMENTS_SIGNATURES_TOTAL)

/-- `nFirstBlock`: the height less 1.25 times the enabled masternodes, as `int`. -/
def firstBlock (env : WinnerEnv) (nHeight : Int) : Int := (4 * nHeight - 5 * env.countEnabled).tdiv 4

/-- The message is in range, not in an old form, and from a masternode that may vote. -/
def eligible (env : WinnerEnv) (winner : CMasternodePaymentWinner) (nHeight : Int) : Bool :=
  decide (env.firstBlock nHeight ≤ winner.nBlockHeight) && decide (winner.nBlockHeight ≤ nHeight + 20)
    && (decide (winner.nMessVersion = .hash)
      || !decide (env.height_start_MessSignaturesV2 ≤ winner.nBlockHeight - 6000))
    && env.isValid winner

end WinnerEnv

/-! ## §2. The tallies. -/

/-- `CMasternodeBlockPayees::AddPayee(payee, nIncrement)`. -/
def addPayee (payeeIn : CScript) (nIncrement : Int) : List CMasternodePayee → List CMasternodePayee
  | [] => [⟨payeeIn, nIncrement⟩]
  | payee :: vecPayments =>
    if payee.scriptPubKey = payeeIn then { payee with nVotes := payee.nVotes + nIncrement } :: vecPayments
    else payee :: addPayee payeeIn nIncrement vecPayments

def votesFor (payee : CScript) (vecPayments : List CMasternodePayee) : Int :=
  (vecPayments.map fun p => if p.scriptPubKey = payee then p.nVotes else 0).sum

theorem votesFor_addPayee (payee payeeIn : CScript) (nIncrement : Int) (vecPayments : List CMasternodePayee) :
    votesFor payee (addPayee payeeIn nIncrement vecPayments)
      = votesFor payee vecPayments + if payeeIn = payee then nIncrement else 0 := by
  induction vecPayments with
  | nil =>
    show ([if payeeIn = payee then nIncrement else 0] : List Int).sum = 0 + _
    rw [List.sum_singleton, zero_add]
  | cons p vecPayments ih =>
    unfold votesFor at ih ⊢
    unfold addPayee
    grind

/-! ## §3. `ProcessMessageMasternodePayments`. -/

structure CMasternodePayments where
  mapMasternodePayeeVotes : StdMap Uint256 CMasternodePaymentWinner := ∅
  /-- the `vecPayments` of each height -/
  mapMasternodeBlocks : StdMap Int (List CMasternodePayee) := ∅
  mapMasternodesLastVote : StdMap COutPoint Int := ∅

variable {st : CMasternodePayments}

namespace CMasternodePayments

/-- `CanVote`: refuses a vote for the height of the last vote, else remembers it. -/
def canVote (st : CMasternodePayments) (outMasternode : COutPoint) (nBlockHeight : Int) : Bool × CMasternodePayments :=
  if st.mapMasternodesLastVote.get outMasternode = some nBlockHeight then (false, st)
  else (true, { st with mapMasternodesLastVote := st.mapMasternodesLastVote.set outMasternode nBlockHeight })

variable (getHash : CMasternodePaymentWinner → Uint256)

section

variable (env : WinnerEnv) (st : CMasternodePayments)

/-- `AddWinningMasternode`: a new vote is stored and counted for its payee. -/
def addWinningMasternode (winnerIn : CMasternodePaymentWinner) : CMasternodePayments :=
  match env.getBlockHash (winnerIn.nBlockHeight - 100) with
  | none => st
  | some _ =>
    match st.mapMasternodePayeeVotes.get (getHash winnerIn) with
    | some _ => st
    | none =>
      { st with
        mapMasternodePayeeVotes := st.mapMasternodePayeeVotes.set (getHash winnerIn) winnerIn
        mapMasternodeBlocks := st.mapMasternodeBlocks.set winnerIn.nBlockHeight
          (addPayee winnerIn.payee 1 ((st.mapMasternodeBlocks.get winnerIn.nBlockHeight).getD [])) }

/-- The message gets as far as the guard against voting twice. -/
def reachesGuard (winner : CMasternodePaymentWinner) : Bool :=
  !decide (env.peerVersion < env.activeProtocol) && (env.tipHeight.any fun nHeight =>
    (st.mapMasternodePayeeVotes.get (getHash winner)).isNone && env.eligible winner nHeight)

/-- `ProcessMessageMasternodePayments` of `MNWINNER`; `getHash` is `CMasternodePaymentWinner::GetHash`. -/
def processWinner (winner : CMasternodePaymentWinner) : CMasternodePayments :=
  if st.reachesGuard getHash env winner = false then st
  else
    match st.canVote winner.vinMasternode.prevout winner.nBlockHeight with
    | (false, st') => st'
    | (true, st') =>
      if env.checkSignature winner = false then st' else st'.addWinningMasternode getHash env winner

end

/-! ## §4. What one message does. -/

variable {getHash}

/-- The state in which a vote of the masternode for the height is remembered. -/
def remember (st : CMasternodePayments) (winner : CMasternodePaymentWinner) : CMasternodePayments :=
  { st with
    mapMasternodesLastVote := st.mapMasternodesLastVote.set winner.vinMasternode.prevout winner.nBlockHeight }

/-- **What a message can do**: nothing, be remembered by the guard, or also be stored and counted. -/
theorem processWinner_cases (getHash : CMasternodePaymentWinner → Uint256) (env : WinnerEnv)
    (st : CMasternodePayments) (winner : CMasternodePaymentWinner) :
    st.processWinner getHash env winner = st ∨ (st.reachesGuard getHash env winner = true ∧
        st.mapMasternodesLastVote.get winner.vinMasternode.prevout ≠ some winner.nBlockHeight ∧
        (st.processWinner getHash env winner = st.remember winner ∨
          st.mapMasternodePayeeVotes.get (getHash winner) = none ∧ st.processWinner getHash env winner
              = { st.remember winner with
                  mapMasternodePayeeVotes := st.mapMasternodePayeeVotes.set (getHash winner) winner
                  mapMasternodeBlocks := st.mapMasternodeBlocks.set winner.nBlockHeight
                    (addPayee winner.payee 1 ((st.mapMasternodeBlocks.get winner.nBlockHeight).getD [])) })) := by
  unfold processWinner canVote
  by_cases hreach : st.reachesGuard getHash env winner = false
  · left
    rw [if_pos hreach]
  rw [if_neg hreach]
  by_cases hlast : st.mapMasternodesLastVote.get winner.vinMasternode.prevout = some winner.nBlockHeight
  · left
    rw [if_pos hlast]
  right
  refine ⟨by simpa using hreach, hlast, ?_⟩
  rw [if_neg hlast]
  dsimp only
  by_cases hsig : env.checkSignature winner = false
  · left
    rw [if_pos hsig]
    rfl
  rw [if_neg hsig]
  unfold addWinningMasternode
  cases env.getBlockHash (winner.nBlockHeight - 100) with
  | none =>
    left
    rfl
  | some hash =>
    cases hget : st.mapMasternodePayeeVotes.get (getHash winner) with
    | some w =>
      left
      rfl
    | none =>
      right
      exact ⟨rfl, rfl⟩

def storedVotes (st : CMasternodePayments) (nBlockHeight : Int) (payee : CScript) : Int :=
  st.mapMasternodePayeeVotes.sumBy fun w => if w.nBlockHeight = nBlockHeight ∧ w.payee = payee then 1 else 0

def Tallied (st : CMasternodePayments) : Prop :=
  ∀ nBlockHeight payee,
    votesFor payee ((st.mapMasternodeBlocks.get nBlockHeight).getD []) = st.storedVotes nBlockHeight payee

def OneVote (st : CMasternodePayments) : Prop :=
  ∀ k₁ k₂ w₁ w₂, st.mapMasternodePayeeVotes.get k₁ = some w₁ → st.mapMasternodePayeeVotes.get k₂ = some w₂ →
    w₁.vinMasternode.prevout = w₂.vinMasternode.prevout → w₁.nBlockHeight = w₂.nBlockHeight → k₁ = k₂

/-- Every stored vote is for the remembered height of its masternode or a lower one. -/
def Behind (st : CMasternodePayments) : Prop :=
  ∀ k w, st.mapMasternodePayeeVotes.get k = some w →
    ∃ last, st.mapMasternodesLastVote.get w.vinMasternode.prevout = some last ∧ w.nBlockHeight ≤ last

/-- **The condition on a message**: where it gets to the guard, its height is not below the one remembered. -/
def InOrder (getHash : CMasternodePaymentWinner → Uint256) (env : WinnerEnv) (st : CMasternodePayments)
    (winner : CMasternodePaymentWinner) : Prop :=
  st.reachesGuard getHash env winner = true →
    ∀ last, st.mapMasternodesLastVote.get winner.vinMasternode.prevout = some last → last ≤ winner.nBlockHeight

theorem Tallied.store (h : st.Tallied) (hnew : st.mapMasternodePayeeVotes.get (getHash winner) = none) :
    ({ st with
        mapMasternodePayeeVotes := st.mapMasternodePayeeVotes.set (getHash winner) winner
        mapMasternodeBlocks := st.mapMasternodeBlocks.set winner.nBlockHeight
          (addPayee winner.payee 1 ((st.mapMasternodeBlocks.get winner.nBlockHeight).getD [])) } :
              CMasternodePayments).Tallied := by
  intro nBlockHeight payee
  have hold := h nBlockHeight payee
  unfold storedVotes at hold ⊢
  rw [StdMap.sumBy_set _ _ hnew, StdMap.get_set]
  by_cases hheight : nBlockHeight = winner.nBlockHeight
  · subst hheight
    rw [if_pos rfl, Option.getD_some, votesFor_addPayee]
    simp only [true_and]
    omega
  grind

theorem Tallied.processWinner (h : st.Tallied) : (st.processWinner getHash env winner).Tallied := by
  rcases processWinner_cases getHash env st winner with heq | ⟨-, -, heq | ⟨hnew, heq⟩⟩
  · rw [heq]
    exact h
  · rw [heq]
    exact h
  · rw [heq]
    exact h.store hnew

/-- Messages in order leave every stored vote behind the remembered height. -/
theorem Behind.processWinner (h : st.Behind) (hord : InOrder getHash env st winner) :
    (st.processWinner getHash env winner).Behind := by
  -- remembering a height raises it
  have hraise : ∀ outMasternode last, st.reachesGuard getHash env winner = true →
      st.mapMasternodesLastVote.get outMasternode = some last →
      ∃ last', (st.remember winner).mapMasternodesLastVote.get outMasternode = some last' ∧ last ≤ last' := by
    intro outMasternode last hreach hlast
    show ∃ last', (st.mapMasternodesLastVote.set _ _).get outMasternode = some last' ∧ last ≤ last'
    rw [StdMap.get_set]
    split_ifs with hsame
    · subst hsame
      exact ⟨_, rfl, hord hreach last hlast⟩
    · exact ⟨last, hlast, Int.le_refl last⟩
  have hkept : st.reachesGuard getHash env winner = true → ∀ k w, st.mapMasternodePayeeVotes.get k = some w →
      ∃ last', (st.remember winner).mapMasternodesLastVote.get w.vinMasternode.prevout = some last' ∧
        w.nBlockHeight ≤ last' := by
    intro hreach k w hw
    obtain ⟨last, hlast, hle⟩ := h k w hw
    obtain ⟨last', hlast', hle'⟩ := hraise _ last hreach hlast
    exact ⟨last', hlast', by omega⟩
  rcases processWinner_cases getHash env st winner with heq | ⟨hreach, -, heq | ⟨-, heq⟩⟩
  · rw [heq]
    exact h
  · rw [heq]
    exact hkept hreach
  rw [heq]
  intro k w hw
  rw [StdMap.get_set] at hw
  split_ifs at hw
  · -- the new vote is for the remembered height itself
    cases hw
    exact ⟨_, StdMap.get_set_self _ _ _, le_rfl⟩
  · exact hkept hreach k w hw

/-- Messages in order keep one vote for each masternode and height. -/
theorem OneVote.processWinner (h : st.OneVote) (hbehind : st.Behind) (hord : InOrder getHash env st winner) :
    (st.processWinner getHash env winner).OneVote := by
  rcases processWinner_cases getHash env st winner with heq | ⟨hreach, hlast, heq | ⟨-, heq⟩⟩
  · rw [heq]
    exact h
  · rw [heq]
    exact h
  -- a stored vote of the masternode is for a height below that of the message
  have hbelow : ∀ k w, st.mapMasternodePayeeVotes.get k = some w →
      w.vinMasternode.prevout = winner.vinMasternode.prevout → w.nBlockHeight < winner.nBlockHeight := by
    intro k w hw hsame
    obtain ⟨last, hget, hle⟩ := hbehind k w hw
    rw [hsame] at hget
    have hle' := hord hreach last hget
    have hne : last ≠ winner.nBlockHeight := by simp_all
    omega
  rw [heq]
  intro k₁ k₂ w₁ w₂ hw1 hw2 hsame hheight
  rw [StdMap.get_set] at hw1 hw2
  split_ifs at hw1 hw2 with hk1 hk2 hk2
  · rw [hk1, hk2]
  · cases hw1
    have hlt := hbelow k₂ w₂ hw2 hsame.symm
    omega
  · cases hw2
    have hlt := hbelow k₁ w₁ hw1 hsame
    omega
  · exact h k₁ k₂ w₁ w₂ hw1 hw2 hsame hheight

/-! ## §5. Runs. -/

def processWinners (getHash : CMasternodePaymentWinner → Uint256) (st : CMasternodePayments)
    (messages : List (WinnerEnv × CMasternodePaymentWinner)) : CMasternodePayments :=
  messages.foldl (fun st m => st.processWinner getHash m.1 m.2) st

def RunInOrder (getHash : CMasternodePaymentWinner → Uint256) :
    CMasternodePayments → List (WinnerEnv × CMasternodePaymentWinner) → Prop
  | _, [] => True
  | st, m :: messages =>
    InOrder getHash m.1 st m.2 ∧ RunInOrder getHash (st.processWinner getHash m.1 m.2) messages

/-- **The tally of a payee** is the number of stored votes for it. -/
theorem tally_eq_stored (getHash : CMasternodePaymentWinner → Uint256)
    (messages : List (WinnerEnv × CMasternodePaymentWinner)) : (processWinners getHash {} messages).Tallied := by
  have hrun : ∀ st : CMasternodePayments, st.Tallied → (processWinners getHash st messages).Tallied := by
    induction messages with
    | nil => exact fun st h => h
    | cons m messages ih => exact fun st h => ih _ h.processWinner
  exact hrun {} fun nBlockHeight payee => rfl

theorem oneVote_of_run {messages : List (WinnerEnv × CMasternodePaymentWinner)} (h : st.OneVote) (hbehind : st.Behind)
    (hord : RunInOrder getHash st messages) : (processWinners getHash st messages).OneVote := by
  induction messages generalizing st with
  | nil => exact h
  | cons m messages ih =>
    exact ih (h.processWinner hbehind hord.1) (hbehind.processWinner hord.1) hord.2

end CMasternodePayments

open CMasternodePayments StdMap

/-- **One vote for each masternode and height.** In every run from the empty state in which the messages of each
masternode that get to the guard come in order of height, at most one stored vote has a given masternode and height;
and the tallies count the stored votes. -/
theorem one_vote_per_height (getHash : CMasternodePaymentWinner → Uint256)
    (messages : List (WinnerEnv × CMasternodePaymentWinner)) (hord : RunInOrder getHash {} messages) :
    (processWinners getHash {} messages).OneVote ∧ (processWinners getHash {} messages).Tallied := by
  refine ⟨oneVote_of_run ?_ ?_ hord, tally_eq_stored getHash messages⟩
  · intro k₁ k₂ w₁ w₂ hw1
    cases hw1
  · intro k w hw
    cases hw

def sampleWinnerEnv : WinnerEnv where
  peerVersion := 70920
  activeProtocol := 70920
  tipHeight := some 5000
  countEnabled := 100
  find _ := some 70920
  getMasternodeRank _ _ _ := 1
  checkSignature _ := true
  getBlockHash _ := some 1

def sampleWinner (nBlockHeight : Int) (n : UInt8) : WinnerEnv × CMasternodePaymentWinner :=
  (sampleWinnerEnv,
    { vinMasternode := .of 1 0, nBlockHeight := nBlockHeight, payee := [n] })

def sampleWinnerHash (winner : CMasternodePaymentWinner) : Uint256 :=
  BitVec.ofInt 256 (1000 * winner.nBlockHeight + (winner.payee.headD 0).toNat)

/-- Votes for two heights in order. -/
theorem ordered_votes_counted_once :
    (processWinners sampleWinnerHash {} [sampleWinner 5001 1, sampleWinner 5002 2]).OneVote ∧
      (processWinners sampleWinnerHash {} [sampleWinner 5001 1, sampleWinner 5002 2]).Tallied := by
  apply one_vote_per_height
  refine ⟨?_, ?_, trivial⟩
  · intro _ last hlast
    cases hlast
  intro _ last hlast
  have hget : some (5001 : Int) = some last := hlast
  rw [Option.some.injEq] at hget
  show last ≤ 5002
  omega

/-- Votes for 5001, 5002, and again 5001: both votes for 5001 are stored and counted. -/
theorem interleaved_votes_counted_twice :
    let st := processWinners sampleWinnerHash {} [sampleWinner 5001 1, sampleWinner 5002 2, sampleWinner 5001 3]
    st.mapMasternodePayeeVotes.get 5001001 = some (sampleWinner 5001 1).2 ∧
      st.mapMasternodePayeeVotes.get 5001003 = some (sampleWinner 5001 3).2 ∧
      st.mapMasternodeBlocks.get 5001 = some [⟨[1], 1⟩, ⟨[3], 1⟩] := by
  decide +kernel

/-! ## §6. Messages that are not stored. -/

/-- **A message that leaves no trace.** In any state, a message changes nothing, and every later vote of its
masternode for its height is handled as if it had not come, exactly if it does not get to the guard, or the guard
refuses it. -/
theorem rejected_winner_harmless_iff (getHash : CMasternodePaymentWinner → Uint256) (env : WinnerEnv)
    (st : CMasternodePayments) (winner : CMasternodePaymentWinner) :
    (st.processWinner getHash env winner = st ∧ ∀ env' later,
        later.vinMasternode.prevout = winner.vinMasternode.prevout → later.nBlockHeight = winner.nBlockHeight →
        (st.processWinner getHash env winner).processWinner getHash env' later = st.processWinner getHash env' later)
      ↔ st.reachesGuard getHash env winner = false ∨
          st.mapMasternodesLastVote.get winner.vinMasternode.prevout = some winner.nBlockHeight := by
  constructor
  · rintro ⟨hsame, -⟩
    by_contra hguard
    rw [not_or] at hguard
    -- past the guard the height is remembered, whatever becomes of the message
    have hlast : (st.processWinner getHash env winner).mapMasternodesLastVote.get winner.vinMasternode.prevout
        = some winner.nBlockHeight := by
      unfold processWinner canVote
      rw [if_neg hguard.2]
      grind [get_set_self, addWinningMasternode]
    rw [hsame] at hlast
    exact hguard.2 hlast
  grind [processWinner_cases]

/-- The guard remembers the forged vote, and the genuine one is turned away. -/
theorem forged_winner_blocks_genuine :
    let env : WinnerEnv := { sampleWinnerEnv with checkSignature := fun w => decide (w.vchSig = [1]) }
    let forged : CMasternodePaymentWinner := { (sampleWinner 5001 1).2 with vchSig := [0] }
    let genuine : CMasternodePaymentWinner := { (sampleWinner 5001 1).2 with vchSig := [1] }
    let st := processWinner sampleWinnerHash env {} forged
    env.checkSignature forged = false ∧ st.mapMasternodePayeeVotes.get 5001001 = none ∧
      (processWinner sampleWinnerHash env {} genuine).mapMasternodePayeeVotes.get 5001001 = some genuine ∧
      (st.processWinner sampleWinnerHash env genuine).mapMasternodePayeeVotes.get 5001001 = none := by
  decide +kernel

/-! ## §7. `CleanPaymentList`. -/

namespace CMasternodePayments

variable {getHash : CMasternodePaymentWinner → Uint256}

/-- `CleanPaymentList`: old votes go, each with the whole tally of its height. `tipHeight` is as for messages, `size`
is `mnodeman.size()`. -/
def cleanPaymentList (tipHeight : Option Int) (size : Nat) (st : CMasternodePayments) : CMasternodePayments :=
  match tipHeight with
  | none => st
  | some nHeight =>
    let nLimit : Int := max (5 * size / 4 : Nat) 1000
    let old := st.mapMasternodePayeeVotes.entries.filter fun e => decide (nLimit < nHeight - e.2.nBlockHeight)
    { st with
      mapMasternodePayeeVotes := st.mapMasternodePayeeVotes.removeAll (old.map fun e => e.1)
      mapMasternodeBlocks := st.mapMasternodeBlocks.removeAll (old.map fun e => e.2.nBlockHeight) }

/-- There is a tally for exactly the heights with stored votes. -/
def Held (st : CMasternodePayments) : Prop :=
  ∀ nBlockHeight, (st.mapMasternodeBlocks.get nBlockHeight).isSome = true ↔
    ∃ k w, st.mapMasternodePayeeVotes.get k = some w ∧ w.nBlockHeight = nBlockHeight

theorem addWinningMasternode_keeps (ht : st.Tallied) (hh : st.Held) :
    (st.addWinningMasternode getHash env winner).Tallied ∧ (st.addWinningMasternode getHash env winner).Held := by
  unfold addWinningMasternode
  cases env.getBlockHash (winner.nBlockHeight - 100) with
  | none => exact ⟨ht, hh⟩
  | some hash =>
    cases hget : st.mapMasternodePayeeVotes.get (getHash winner) with
    | some w => exact ⟨ht, hh⟩
    | none =>
      refine ⟨ht.store hget, fun nBlockHeight => ?_⟩
      have hold := hh nBlockHeight
      show ((st.mapMasternodeBlocks.set _ _).get nBlockHeight).isSome = true ↔
        ∃ k w, (st.mapMasternodePayeeVotes.set _ _).get k = some w ∧ w.nBlockHeight = nBlockHeight
      rw [get_set]
      by_cases hsame : nBlockHeight = winner.nBlockHeight
      · rw [if_pos hsame]
        exact iff_of_true rfl ⟨_, winner, get_set_self _ _ _, hsame.symm⟩
      rw [if_neg hsame, hold]
      constructor
      · rintro ⟨k, w, hw, hheight⟩
        have hk : k ≠ getHash winner := by
          rintro rfl
          rw [hget] at hw
          cases hw
        exact ⟨k, w, (get_set_of_ne _ _ hk).trans hw, hheight⟩
      grind [get_set]

/-- **Cleaning up** takes the votes of a height away together, so the tally that goes with the first is that of all.
-/
theorem cleanPaymentList_keeps (tipHeight : Option Int) (size : Nat) (ht : st.Tallied) (hh : st.Held) :
    (st.cleanPaymentList tipHeight size).Tallied ∧ (st.cleanPaymentList tipHeight size).Held := by
  unfold cleanPaymentList
  cases tipHeight with
  | none => exact ⟨ht, hh⟩
  | some nHeight =>
    dsimp only
    generalize hlimit : (max (5 * size / 4 : Nat) 1000 : Int) = nLimit
    generalize hkeys : (st.mapMasternodePayeeVotes.entries.filter fun e =>
      decide (nLimit < nHeight - e.2.nBlockHeight)) = old
    have hold : ∀ k w, (⟨k, w⟩ : Sigma fun _ : Uint256 => CMasternodePaymentWinner) ∈ old ↔
        st.mapMasternodePayeeVotes.get k = some w ∧ nLimit < nHeight - w.nBlockHeight := by
      intro k w
      rw [← hkeys, List.mem_filter, mem_entries_iff, decide_eq_true_iff]
    have hkey : ∀ k, k ∈ old.map (fun e => e.1) ↔
        ∃ w, st.mapMasternodePayeeVotes.get k = some w ∧ nLimit < nHeight - w.nBlockHeight := by
      simp_all
    have hheight : ∀ h, h ∈ old.map (fun e => e.2.nBlockHeight) ↔ nLimit < nHeight - h ∧
        ∃ k w, st.mapMasternodePayeeVotes.get k = some w ∧ w.nBlockHeight = h := by
      intro h
      rw [List.mem_map]
      constructor
      · rintro ⟨⟨k, w⟩, hmem, rfl⟩
        obtain ⟨hget, hlt⟩ := (hold k w).mp hmem
        exact ⟨hlt, k, w, hget, rfl⟩
      · rintro ⟨hlt, k, w, hget, rfl⟩
        exact ⟨⟨k, w⟩, (hold k w).mpr ⟨hget, hlt⟩, rfl⟩
    have hvote : ∀ k w, (st.mapMasternodePayeeVotes.removeAll (old.map fun e => e.1)).get k = some w ↔
        st.mapMasternodePayeeVotes.get k = some w ∧ ¬ nLimit < nHeight - w.nBlockHeight := by
      intro k w
      rw [get_removeAll]
      grind
    have hblock : ∀ h, (st.mapMasternodeBlocks.removeAll (old.map fun e => e.2.nBlockHeight)).get h
        = if nLimit < nHeight - h then none else st.mapMasternodeBlocks.get h := by
      intro h
      rw [get_removeAll]
      by_cases hmem : h ∈ old.map fun e => e.2.nBlockHeight
      · rw [if_pos hmem, if_pos ((hheight h).mp hmem).1]
      split_ifs with hgone
      · rw [← Option.not_isSome_iff_eq_none, hh h]
        exact fun hvotes => hmem ((hheight h).mpr ⟨hgone, hvotes⟩)
      · rfl
    refine ⟨fun h payee => ?_, fun h => ?_⟩
    · show votesFor payee (((st.mapMasternodeBlocks.removeAll _).get h).getD [])
        = (st.mapMasternodePayeeVotes.removeAll _).sumBy fun w => if w.nBlockHeight = h ∧ w.payee = payee then 1 else 0
      rw [hblock]
      split_ifs with hgone
      · -- nothing of this height is left
        rw [sumBy_eq_zero]
        · rfl
        · intro k w hw
          exact if_neg fun hboth : w.nBlockHeight = h ∧ _ => ((hvote k w).mp hw).2 (hboth.1 ▸ hgone)
      · -- what goes is of other heights
        rw [ht h payee, storedVotes, sumBy_removeAll]
        grind
    · show ((st.mapMasternodeBlocks.removeAll _).get h).isSome = true ↔
        ∃ k w, (st.mapMasternodePayeeVotes.removeAll _).get k = some w ∧ w.nBlockHeight = h
      rw [hblock]
      split_ifs with hgone
      · refine iff_of_false Bool.false_ne_true ?_
        rintro ⟨k, w, hw, rfl⟩
        exact ((hvote k w).mp hw).2 hgone
      rw [hh h]
      constructor
      · rintro ⟨k, w, hw, rfl⟩
        exact ⟨k, w, (hvote k w).mpr ⟨hw, hgone⟩, rfl⟩
      · rintro ⟨k, w, hw, hheight'⟩
        exact ⟨k, w, ((hvote k w).mp hw).1, hheight'⟩

inductive PaymentCall where
  | add (env : WinnerEnv) (winner : CMasternodePaymentWinner)
  | clean (tipHeight : Option Int) (size : Nat)

def call (getHash : CMasternodePaymentWinner → Uint256) (st : CMasternodePayments) : PaymentCall → CMasternodePayments
  | .add env winner => st.addWinningMasternode getHash env winner
  | .clean tipHeight size => st.cleanPaymentList tipHeight size

end CMasternodePayments

/-- **Tallies and votes stay together.**  After any sequence of `AddWinningMasternode` and `CleanPaymentList` the
tally of a payee at a height is the number of stored votes for it, and there is a tally for exactly
the heights with stored votes. -/
theorem payment_list_consistent (getHash : CMasternodePaymentWinner → Uint256) (calls : List PaymentCall) :
    (calls.foldl (call getHash) {}).Tallied ∧ (calls.foldl (call getHash) {}).Held := by
  refine List.foldlRecOn (motive := fun st : CMasternodePayments => st.Tallied ∧ st.Held) calls _
    ⟨fun _ _ => rfl, fun nBlockHeight => ?_⟩ fun st h c _ => ?_
  · show (none : Option (List CMasternodePayee)).isSome = true ↔ _
    simp
  · cases c with
    | add env winner => exact addWinningMasternode_keeps h.1 h.2
    | clean tipHeight size => exact cleanPaymentList_keeps tipHeight size h.1 h.2

end PwrbCore
