/-
  SwiftTX.Votes — WHAT THE MAPS OF `swifttx.cpp` SAY ABOUT VOTES, REQUESTS AND OWNERS.

  A vote is entered in `mapTxLockVote` before it is verified, under a sum of the outpoint and the
  transaction.  No two votes in the locks ever have the same sum, so the votes of a lock are from different
  masternodes.

  Main results: `complete_lock_votes`, `rejected_vote_harmless_iff`, `requests_keyed_of_run`,
  `clean_spares_others_iff`.
-/
import Mathlib.Data.List.Induction
import PwrbCore.SwiftTX.CompleteLocks

namespace PwrbCore

open List Option StdMap SwiftState CConsensusVote CTransactionLock

variable {st : SwiftState} {env : SwiftEnv} {tx : CTransaction} {h : Uint256}

namespace SwiftState

/-! ## §1. The votes of a lock. -/

def votesAt (st : SwiftState) (h : Uint256) : List CConsensusVote :=
  ((st.mapTxLocks.get h).map vecConsensusVotes).getD []

variable {st' : SwiftState} {v : CConsensusVote}

/-- The locks have the same votes, and every vote that was seen still is. -/
structure Kept (st st' : SwiftState) : Prop where
  votes : ∀ h, st'.votesAt h = st.votesAt h
  seen : ∀ k, (st.mapTxLockVote.get k).isSome = true → (st'.mapTxLockVote.get k).isSome = true

theorem Kept.trans {st'' : SwiftState} (h1 : Kept st st') (h2 : Kept st' st'') : Kept st st'' :=
  ⟨fun h => (h2.votes h).trans (h1.votes h), fun k hk => h2.seen k (h1.seen k hk)⟩

theorem Kept.of_set {k : Uint256} {lock : CTransactionLock} (hvotes : lock.vecConsensusVotes = st.votesAt k)
    (hlocks : st'.mapTxLocks = st.mapTxLocks.set k lock) (hseen : st'.mapTxLockVote = st.mapTxLockVote) :
        Kept st st' := by
  refine ⟨fun h => ?_, fun k hk => hseen ▸ hk⟩
  show ((st'.mapTxLocks.get h).map vecConsensusVotes).getD [] = st.votesAt h
  rw [hlocks, get_set]
  split_ifs with heq
  · rw [heq]
    exact hvotes
  · rfl

section

variable (st : SwiftState) (env : SwiftEnv)

theorem Kept.createNewLock (tx : CTransaction) : Kept st (st.createNewLock env tx).1 := by
  unfold SwiftState.createNewLock
  cases env.txAge tx with
  | none => exact ⟨fun _ => rfl, fun _ hk => hk⟩
  | some nTxAge =>
    refine .of_set ?_ rfl rfl
    unfold votesAt
    cases st.mapTxLocks.get tx.hash <;> rfl

theorem Kept.expireLock (st : SwiftState) (time : Int) (hash : Uint256) : Kept st (st.expireLock time hash) := by
  unfold SwiftState.expireLock
  cases hlock : st.mapTxLocks.get hash with
  | none => exact ⟨fun _ => rfl, fun _ hk => hk⟩
  | some lock =>
    refine .of_set ?_ rfl rfl
    unfold votesAt
    rw [hlock]
    rfl

theorem Kept.checkForConflictingLocks (tx : CTransaction) : Kept st (st.checkForConflictingLocks env tx).1 := by
  unfold SwiftState.checkForConflictingLocks
  cases st.conflictingLock tx with
  | none => exact ⟨fun _ => rfl, fun _ hk => hk⟩
  | some owner => exact (Kept.expireLock st env.time tx.hash).trans (.expireLock _ env.time owner)

theorem mapTxLockReq_checkForConflictingLocks (tx : CTransaction) :
    (st.checkForConflictingLocks env tx).1.mapTxLockReq = st.mapTxLockReq := by
  unfold checkForConflictingLocks
  split
  · rfl
  · exact (expireLock_frame _ _ _).1.trans (expireLock_frame _ _ _).1

def marked (st : SwiftState) (v : CConsensusVote) : SwiftState :=
  { st with mapTxLockVote := st.mapTxLockVote.set v.getHash v }

theorem Kept.marked (st : SwiftState) (v : CConsensusVote) : Kept st (st.marked v) := by
  refine ⟨fun _ => rfl, fun k hk => ?_⟩
  show ((st.mapTxLockVote.set v.getHash v).get k).isSome = true
  rw [get_set]
  split_ifs
  · rfl
  · exact hk

/-- A request message leaves the votes, and enters at most its own transaction. -/
theorem processRequest_frame (tx : CTransaction) :
    Kept st (st.processRequest env tx) ∧ ((st.processRequest env tx).mapTxLockReq = st.mapTxLockReq ∨
      (st.processRequest env tx).mapTxLockReq = st.mapTxLockReq.insertNew tx.hash tx) := by
  unfold processRequest
  by_cases htakes : st.takesRequest env tx = true
  swap
  · rw [if_neg htakes]
    exact ⟨⟨fun _ => rfl, fun _ hk => hk⟩, .inl rfl⟩
  rw [← (createNewLock_frame st env tx).1]
  have hcreated := Kept.createNewLock st env tx
  generalize st.createNewLock env tx = created at hcreated
  obtain ⟨st1, nBlockHeight⟩ := created
  refine .imp_left hcreated.trans ?_
  dsimp only
  split_ifs
  · unfold acceptRequest
    refine ⟨⟨fun _ => rfl, fun k hk => ?_⟩, .inr rfl⟩
    cases env.ownVote tx nBlockHeight with
    | none => exact hk
    | some ctx => exact (Kept.marked st1 ctx).seen k hk
  · unfold rejectRequest
    dsimp only
    generalize hst2 : mk _ _ _ _ _ = st2
    have hsame : Kept st1 st2 ∧ st2.mapTxLockReq = st1.mapTxLockReq := by
      rw [← hst2]
      exact ⟨⟨fun _ => rfl, fun _ hk => hk⟩, rfl⟩
    have hchecked := Kept.checkForConflictingLocks st2 env tx
    have hreq := mapTxLockReq_checkForConflictingLocks st2 env tx
    split_ifs
    · split
      · next heq =>
        rw [heq] at hchecked hreq
        rw [← hsame.2, ← hreq]
        exact ⟨hsame.1.trans ⟨hchecked.votes, hchecked.seen⟩, .inr rfl⟩
      · next heq =>
        rw [heq] at hchecked hreq
        rw [← hsame.2, ← hreq]
        exact ⟨hsame.1.trans hchecked, .inl rfl⟩
    · exact ⟨hsame.1, .inl hsame.2⟩

theorem Kept.ownRequest (tx : CTransaction) : Kept st (st.ownRequest env tx) := by
  have hcreated := Kept.createNewLock { st with mapTxLockReq := st.mapTxLockReq.insertNew tx.hash tx } env tx
  exact ⟨hcreated.votes, hcreated.seen⟩

def joined (v : CConsensusVote) : SwiftState :=
  { st with mapTxLocks := st.mapTxLocks.set v.txHash (((st.mapTxLocks.get v.txHash).getD
      { nBlockHeight := 0, txHash := v.txHash, nExpiration := (env.time + 60 * 60).bmod (2 ^ 32) }).addSignature v) }

theorem votesAt_joined (v : CConsensusVote) (h : Uint256) :
    (st.joined env v).votesAt h = if h = v.txHash then st.votesAt h ++ [v] else st.votesAt h := by
  unfold votesAt joined
  rw [get_set]
  split_ifs with heq
  · rw [heq]
    cases st.mapTxLocks.get v.txHash <;> rfl
  · rfl

theorem Kept.addVote (v : CConsensusVote) : Kept (st.joined env v) (st.addVote env v) := by
  have hset : ∀ req locked, Kept (st.joined env v)
      { st.joined env v with mapTxLockReq := req, mapLockedInputs := locked } :=
    fun _ _ => ⟨fun _ => rfl, fun _ hk => hk⟩
  unfold SwiftState.addVote
  dsimp only
  split_ifs
  · split
    all_goals
      next st' heq =>
      have hchecked := congrArg Prod.fst heq ▸ (hset _ _).trans (.checkForConflictingLocks _ env _)
      exact ⟨hchecked.votes, hchecked.seen⟩
  · exact hset _ _

/-- The vote is new and verified. -/
def takesVote (v : CConsensusVote) : Bool :=
  env.enabled && (st.mapTxLockVote.get v.getHash).isNone
    && !decide (env.masternodeRank v.vinMasternode v.nBlockHeight = -1 ∨
      SWIFTTX_SIGNATURES_TOTAL < env.masternodeRank v.vinMasternode v.nBlockHeight ∨ env.checkSignature v = false)

theorem processVote_eq (v : CConsensusVote) :
    st.processVote env v = if env.enabled && (st.mapTxLockVote.get v.getHash).isNone then
      if st.takesVote env v then (st.marked v).addVote env v else st.marked v else st := by
  unfold processVote processConsensusVote takesVote
  by_cases hnew : (env.enabled && (st.mapTxLockVote.get v.getHash).isNone) = true
  · dsimp only
    split_ifs <;> simp_all [marked]
  · rw [if_neg hnew, if_neg hnew]

end

theorem takesVote_new (htakes : st.takesVote env v = true) :
    env.enabled = true ∧ st.mapTxLockVote.get v.getHash = none := by
  unfold takesVote at htakes
  rw [Bool.and_eq_true, Bool.and_eq_true, isNone_iff_eq_none] at htakes
  exact htakes.1

/-! ## §2. Votes over runs. -/

/-- No two votes in the locks have one sum, and each was received for the transaction of its lock. -/
structure VotesFrom (received : CConsensusVote → Prop) (st : SwiftState) : Prop where
  seen : ∀ h, ∀ v ∈ st.votesAt h, (st.mapTxLockVote.get v.getHash).isSome = true
  own : ∀ h, ∀ v ∈ st.votesAt h, v.txHash = h ∧ received v
  distinct : ∀ h, ((st.votesAt h).map getHash).Nodup
  apart : ∀ h h', ∀ v ∈ st.votesAt h, ∀ v' ∈ st.votesAt h', v.getHash = v'.getHash → h = h'

variable {received received' : CConsensusVote → Prop}

theorem VotesFrom.mono (hst : VotesFrom received st) (himp : ∀ v, received v → received' v) : VotesFrom received' st :=
  ⟨hst.seen, fun h v hv => ⟨(hst.own h v hv).1, himp v (hst.own h v hv).2⟩, hst.distinct, hst.apart⟩

theorem VotesFrom.kept (hst : VotesFrom received st) (hkept : Kept st st') : VotesFrom received st' := by
  have hvotes : st'.votesAt = st.votesAt := funext hkept.votes
  refine ⟨fun h v hv => hkept.seen _ (hst.seen h v ?_), hvotes ▸ hst.own, hvotes ▸ hst.distinct, hvotes ▸ hst.apart⟩
  rw [← hvotes]
  exact hv

theorem VotesFrom.addVote (hst : VotesFrom received st) (env : SwiftEnv) (hreceived : received v)
    (hnew : st.mapTxLockVote.get v.getHash = none) : VotesFrom received ((st.marked v).addVote env v) := by
  refine .kept ?_ (.addVote _ env v)
  have hvotes := votesAt_joined (st.marked v) env v
  generalize hjoined : joined _ env v = st1 at hvotes
  have hmem : ∀ {h v'}, v' ∈ st1.votesAt h → v' ∈ st.votesAt h ∨ v' = v ∧ h = v.txHash := by
    intro h v' hv'
    rw [hvotes] at hv'
    split_ifs at hv' with heq
    · exact (mem_append.mp hv').imp id fun hlast => ⟨mem_singleton.mp hlast, heq⟩
    · exact .inl hv'
  have hother : ∀ {h v'}, v' ∈ st.votesAt h → v'.getHash ≠ v.getHash := by
    intro h v' hv' heq
    have hseen := hst.seen h v' hv'
    rw [heq, hnew] at hseen
    cases hseen
  refine ⟨?_, ?_, ?_, ?_⟩
  · intro h v' hv'
    show (st1.mapTxLockVote.get v'.getHash).isSome = true
    rw [← hjoined]
    show ((st.mapTxLockVote.set v.getHash v).get v'.getHash).isSome = true
    rw [get_set]
    split_ifs with heq
    · rfl
    · exact hst.seen h v' ((hmem hv').resolve_right fun hlast => heq (by rw [hlast.1]))
  · intro h v' hv'
    rcases hmem hv' with hold | ⟨rfl, rfl⟩
    · exact hst.own h v' hold
    · exact ⟨rfl, hreceived⟩
  · intro h
    rw [hvotes]
    split_ifs
    · rw [map_append]
      refine nodup_append.mpr ⟨hst.distinct h, nodup_singleton _, ?_⟩
      intro k hk k' hk' heq
      obtain ⟨v', hv', rfl⟩ := mem_map.mp hk
      exact hother hv' (heq.trans (mem_singleton.mp hk'))
    · exact hst.distinct h
  · intro h h' v1 hv1 v2 hv2 heq
    rcases hmem hv1 with hold1 | ⟨rfl, rfl⟩ <;> rcases hmem hv2 with hold2 | ⟨rfl, rfl⟩
    · exact hst.apart h h' v1 hold1 v2 hold2 heq
    · exact absurd heq (hother hold1)
    · exact absurd heq.symm (hother hold2)
    · rfl

/-- An expired lock goes, and with it at most the sums of its own votes. -/
theorem cleanLock_cases (st : SwiftState) (time : Int) (e : Sigma fun _ : Uint256 => CTransactionLock) :
    st.cleanLock time e = st ∨ (∀ h, (st.cleanLock time e).votesAt h = if h = e.1 then [] else st.votesAt h) ∧
        ∀ k, k ∉ e.2.vecConsensusVotes.map getHash →
          (st.cleanLock time e).mapTxLockVote.get k = st.mapTxLockVote.get k := by
  have hvotes : ∀ h, (((st.mapTxLocks.remove e.1).get h).map vecConsensusVotes).getD [] =
      if h = e.1 then [] else st.votesAt h := by
    intro h
    rw [get_remove]
    split_ifs
    · rfl
    · rfl
  unfold cleanLock
  by_cases hexpired : e.2.nExpiration < time
  swap
  · exact .inl (if_neg hexpired)
  rw [if_pos hexpired]
  cases st.mapTxLockReq.get e.2.txHash with
  | none => exact .inr ⟨hvotes, fun _ _ => rfl⟩
  | some tx =>
    refine .inr ⟨hvotes, fun k hk => ?_⟩
    have herased : eraseVotes st.mapTxLockVote e.2.vecConsensusVotes
        = st.mapTxLockVote.removeAll (e.2.vecConsensusVotes.map getHash) := by
      unfold eraseVotes StdMap.removeAll
      rw [foldl_map]
    show (eraseVotes st.mapTxLockVote e.2.vecConsensusVotes).get k = _
    rw [herased, get_removeAll, if_neg hk]

/-- One turn of the clean-up, on a lock whose votes share no sum with others. -/
theorem VotesFrom.cleanLock {e : Sigma fun _ : Uint256 => CTransactionLock} (hst : VotesFrom received st) (time : Int)
    (hfar : ∀ h, h ≠ e.1 → ∀ v ∈ st.votesAt h, v.getHash ∉ e.2.vecConsensusVotes.map getHash) :
    VotesFrom received (st.cleanLock time e) ∧ ∀ h, ∀ v ∈ (st.cleanLock time e).votesAt h, v ∈ st.votesAt h := by
  rcases cleanLock_cases st time e with heq | ⟨hvotes, hseen⟩
  · rw [heq]
    exact ⟨hst, fun _ _ hv => hv⟩
  have hmem : ∀ {h v}, v ∈ (st.cleanLock time e).votesAt h → h ≠ e.1 ∧ v ∈ st.votesAt h := by
    intro h v hv
    rw [hvotes] at hv
    split_ifs at hv with heq
    · cases hv
    · exact ⟨heq, hv⟩
  refine ⟨⟨?_, fun h v hv => hst.own h v (hmem hv).2, ?_,
    fun h h' v hv v' hv' => hst.apart h h' v (hmem hv).2 v' (hmem hv').2⟩,
    fun h v hv => (hmem hv).2⟩
  · intro h v hv
    rw [hseen _ (hfar h (hmem hv).1 v (hmem hv).2)]
    exact hst.seen h v (hmem hv).2
  · intro h
    rw [hvotes]
    split_ifs
    · exact nodup_nil
    · exact hst.distinct h

theorem VotesFrom.clean (hst : VotesFrom received st) (time : Int) :
    VotesFrom received (st.cleanTransactionLocksList time) := by
  -- along the loop the remaining entries stay apart from the votes that are left
  refine (foldlRecOn (motive := fun s => VotesFrom received s ∧ ∀ e ∈ st.mapTxLocks.entries, ∀ h, h ≠ e.1 →
      ∀ v ∈ s.votesAt h, v.getHash ∉ e.2.vecConsensusVotes.map getHash) _ _ ⟨hst, ?_⟩ fun s hs e he => ?_).1
  case refine_2 =>
    obtain ⟨hnext, hless⟩ := hs.1.cleanLock time (hs.2 e he)
    exact ⟨hnext, fun e' he' h hne v hv => hs.2 e' he' h hne v (hless h v hv)⟩
  intro e he h hne v hv hmem
  have hentry : st.votesAt e.1 = e.2.vecConsensusVotes := by
    unfold votesAt
    rw [mem_entries_iff.mp he]
    rfl
  obtain ⟨v', hv', heq⟩ := mem_map.mp hmem
  exact hne (hst.apart h e.1 v hv v' (hentry ▸ hv') heq.symm)

def Received (steps : List (SwiftEnv × SwiftEvent)) (v : CConsensusVote) : Prop :=
  ∃ env, (env, SwiftEvent.vote v) ∈ steps ∧ env.checkSignature v = true ∧
    env.masternodeRank v.vinMasternode v.nBlockHeight ≠ -1 ∧
    env.masternodeRank v.vinMasternode v.nBlockHeight ≤ SWIFTTX_SIGNATURES_TOTAL

/-- **One step.** -/
theorem VotesFrom.step {steps : List (SwiftEnv × SwiftEvent)} (hst : VotesFrom (Received steps) st) (env : SwiftEnv)
    (ev : SwiftEvent) : VotesFrom (Received (steps ++ [(env, ev)])) (st.step env ev) := by
  replace hst : VotesFrom (Received (steps ++ [(env, ev)])) st :=
    hst.mono fun v ⟨env', hmem, hverified⟩ => ⟨env', mem_append_left _ hmem, hverified⟩
  cases ev with
  | request tx => exact hst.kept (processRequest_frame st env tx).1
  | ownRequest tx => exact hst.kept (.ownRequest st env tx)
  | clean => exact hst.clean env.time
  | vote v =>
    show VotesFrom _ (st.processVote env v)
    rw [processVote_eq]
    split_ifs with hnew htakes
    · have hverified := htakes
      unfold takesVote at hverified
      rw [Bool.and_eq_true, Bool.not_eq_true', decide_eq_false_iff_not, not_or, not_or, Int.not_lt,
        Bool.not_eq_false] at hverified
      obtain ⟨-, hrank, hlow, hsigned⟩ := hverified
      exact hst.addVote env ⟨env, mem_append_right _ mem_cons_self, hsigned, hrank, hlow⟩ (takesVote_new htakes).2
    · exact hst.kept (.marked st v)
    · exact hst

def run (st : SwiftState) (steps : List (SwiftEnv × SwiftEvent)) : SwiftState :=
  steps.foldl (fun st s => st.step s.1 s.2) st

theorem votesFrom_run (steps : List (SwiftEnv × SwiftEvent)) : VotesFrom (Received steps) (run {} steps) := by
  induction steps using reverseRecOn with
  | nil => exact ⟨nofun, nofun, fun _ => nodup_nil, nofun⟩
  | append_singleton steps s ih =>
    unfold run
    rw [foldl_append]
    exact ih.step s.1 s.2

end SwiftState

/-- **The votes of a complete lock.** After any run, a lock that counts enough signatures holds as many votes for its
height, of different masternodes, each verified when it was received. -/
theorem complete_lock_votes (steps : List (SwiftEnv × SwiftEvent)) (h : Uint256) (lock : CTransactionLock)
    (hlock : (SwiftState.run {} steps).mapTxLocks.get h = some lock)
    (hcount : SWIFTTX_SIGNATURES_REQUIRED ≤ lock.countSignatures) :
    let counted := lock.vecConsensusVotes.filter fun v => v.nBlockHeight == lock.nBlockHeight
    (counted.length : Int) = lock.countSignatures ∧ (counted.map vinMasternode).Nodup ∧
      ∀ v ∈ counted, v.txHash = h ∧ v.nBlockHeight = lock.nBlockHeight ∧ SwiftState.Received steps v := by
  have hrun := votesFrom_run steps
  have hvotes : (run {} steps).votesAt h = lock.vecConsensusVotes := by
    unfold votesAt
    rw [hlock]
    rfl
  have hown := hvotes ▸ hrun.own h
  refine ⟨?_, ?_, ?_⟩
  · unfold countSignatures at hcount ⊢
    split_ifs at hcount ⊢ with hzero
    · exact absurd hcount (by decide)
    · rw [← countP_eq_length_filter]
  · -- two votes of one masternode in one lock would have the same sum
    refine .sublist (filter_sublist.map _) ?_
    have hdistinct : (lock.vecConsensusVotes.map getHash).Nodup := hvotes ▸ hrun.distinct h
    have hsum : lock.vecConsensusVotes.map getHash =
        (lock.vecConsensusVotes.map vinMasternode).map fun o => o.hash + .ofNat 256 o.n + h := by
      rw [List.map_map]
      refine map_congr_left fun v hv => ?_
      show v.vinMasternode.hash + .ofNat 256 v.vinMasternode.n + v.txHash = _
      rw [(hown v hv).1]
      rfl
    rw [hsum] at hdistinct
    exact .of_map _ hdistinct
  · intro v hv
    obtain ⟨hmem, hheight⟩ := mem_filter.mp hv
    exact ⟨(hown v hmem).1, beq_iff_eq.mp hheight, (hown v hmem).2⟩

def votedSteps : List (SwiftEnv × SwiftEvent) :=
  (lockEnv true, .request lockTx) :: (List.range 6).map fun i => (lockEnv true, .vote (lockVote i))

theorem six_votes_of_six : ∃ lock, (SwiftState.run {} votedSteps).mapTxLocks.get 50 = some lock ∧
    (lock.vecConsensusVotes.filter fun v => v.nBlockHeight == lock.nBlockHeight).length = 6 ∧
      ((lock.vecConsensusVotes.filter fun v => v.nBlockHeight == lock.nBlockHeight).map vinMasternode).Nodup := by
  have hlock : (run {} votedSteps).mapTxLocks.get 50 =
      some ⟨904, 50, (range 6).map lockVote, 1602003600⟩ := by decide +kernel
  have hvotes := complete_lock_votes votedSteps 50 _ hlock (by decide)
  exact ⟨_, hlock, by decide, hvotes.2.1⟩

/-! ## §3. A bad vote. -/

namespace SwiftState

/-- The vote would join its lock. -/
def Counts (st : SwiftState) (env : SwiftEnv) (v : CConsensusVote) : Prop :=
  (st.processVote env v).votesAt v.txHash = st.votesAt v.txHash ++ [v]

end SwiftState

/-- **A bad vote takes the place of a good one.**  A vote that fails its checks costs no later vote its place
exactly if it is not looked at: the handler is off, or a vote with its sum was seen before. -/
theorem rejected_vote_harmless_iff (st : SwiftState) (env : SwiftEnv) (bad : CConsensusVote)
    (hbad : env.masternodeRank bad.vinMasternode bad.nBlockHeight = -1 ∨
      SWIFTTX_SIGNATURES_TOTAL < env.masternodeRank bad.vinMasternode bad.nBlockHeight ∨
        env.checkSignature bad = false) :
    (∀ steps env' v, (st.run steps).Counts env' v → ((st.processVote env bad).run steps).Counts env' v) ↔
      env.enabled = false ∨ (st.mapTxLockVote.get bad.getHash).isSome = true := by
  have hrefused : st.takesVote env bad = false := by
    unfold takesVote
    rw [decide_eq_true hbad, Bool.not_true, Bool.and_false]
  have hrun : st.processVote env bad = _ := processVote_eq st env bad
  rw [hrefused] at hrun
  constructor
  · intro hharmless
    by_contra hlooked
    rw [not_or, Bool.not_eq_false, Bool.not_eq_true, isSome_eq_false_iff] at hlooked
    obtain ⟨hon, hnew⟩ := hlooked
    -- the masternode's own vote with the same sum, on a node that verifies it
    have htakes : st.takesVote { env with masternodeRank := fun _ _ => 1, checkSignature := fun _ => true } bad
        = true := by
      unfold takesVote
      rw [hnew]
      simp [hon, SWIFTTX_SIGNATURES_TOTAL]
    have hlost := hharmless [] { env with masternodeRank := fun _ _ => 1, checkSignature := fun _ => true } bad ?_
    · unfold SwiftState.Counts run at hlost
      rw [hrun, hnew, hon, processVote_eq, if_neg ?_] at hlost
      · exact absurd (congrArg length hlost) (by simp)
      · simp [marked, get_set_self]
    · show (st.processVote _ bad).votesAt bad.txHash = _
      rw [processVote_eq, htakes, hnew, if_pos (by simpa using hon), if_pos rfl,
        (SwiftState.Kept.addVote _ _ bad).votes, votesAt_joined, if_pos rfl]
      rfl
  · intro hignored
    have hsame : st.processVote env bad = st := by
      rw [hrun]
      rcases hignored with hoff | hseen
      · simp [hoff]
      · simp [isSome_iff_ne_none.mp hseen]
    rw [hsame]
    exact fun _ _ _ hcounts => hcounts

def forgedEnv : SwiftEnv := { lockEnv true with checkSignature := fun _ => false }

/-- A forged copy of a vote that is there already does no harm. -/
theorem late_forgery_harmless : forgedEnv.checkSignature (lockVote 0) = false ∧
    ∀ steps env' v, ((SwiftState.run {} votedSteps).run steps).Counts env' v →
      (((SwiftState.run {} votedSteps).processVote forgedEnv (lockVote 0)).run steps).Counts env' v :=
  ⟨rfl, (rejected_vote_harmless_iff (run {} votedSteps) forgedEnv (lockVote 0) (.inr (.inr rfl))).mpr
    (.inr (by decide +kernel))⟩

/-- **A forged vote silences a masternode**: its own vote, which would count, is dropped. -/
theorem forged_vote_silences : forgedEnv.checkSignature (lockVote 0) = false ∧
      (SwiftState.processVote {} (lockEnv true) (lockVote 0)).votesAt 50 = [lockVote 0] ∧
      ((SwiftState.processVote {} forgedEnv (lockVote 0)).processVote (lockEnv true) (lockVote 0)).votesAt 50 = [] := by
  decide +kernel

/-! ## §4. Requests. -/

namespace SwiftState

/-- The vote completes a lock without a request. -/
def emptyRequest (st : SwiftState) (env : SwiftEnv) : SwiftEvent → Bool
  | .vote v => st.takesVote env v && ((st.marked v).joined env v).lockComplete v.txHash
      && (st.mapTxLockReq.get v.txHash).isNone
  | _ => false

/-- A verified vote that completes its lock reads the request with `[]`, which creates it. -/
theorem mapTxLockReq_addVote (st : SwiftState) (env : SwiftEnv) (v : CConsensusVote) :
    (st.addVote env v).mapTxLockReq = if (st.joined env v).lockComplete v.txHash then
      st.mapTxLockReq.insertNew v.txHash { hash := 0, vin := [], vout := [] } else st.mapTxLockReq := by
  have hcomplete : (st.joined env v).lockComplete v.txHash = (((st.mapTxLocks.get v.txHash).getD
      { nBlockHeight := 0, txHash := v.txHash
        nExpiration := (env.time + 60 * 60).bmod (2 ^ 32) }).addSignature v).isComplete := by
    unfold lockComplete joined
    rw [get_set_self]
  rw [hcomplete]
  unfold addVote
  dsimp only
  split_ifs
  · split
    all_goals
      next heq =>
      exact (congrArg (fun p : SwiftState × Bool => p.1.mapTxLockReq) heq).symm.trans
        (mapTxLockReq_checkForConflictingLocks _ env _)
  · rfl

theorem mapTxLockReq_clean (time : Int) (hreq : (st.cleanTransactionLocksList time).mapTxLockReq.get h = some tx) :
    st.mapTxLockReq.get h = some tx := by
  refine foldlRecOn (motive := fun s : SwiftState => s.mapTxLockReq.get h = some tx → st.mapTxLockReq.get h = some tx)
    st.mapTxLocks.entries _ id (fun s ih e _ hnext => ih ?_) hreq
  unfold cleanLock at hnext
  split_ifs at hnext
  · split at hnext
    · exact hnext
    · rw [get_remove] at hnext
      split_ifs at hnext
      exact hnext
  · exact hnext

theorem get_step (ev : SwiftEvent) (hreq : (st.step env ev).mapTxLockReq.get h = some tx) :
    st.mapTxLockReq.get h = some tx ∨ tx.hash = h ∧ (ev = .request tx ∨ ev = .ownRequest tx) ∨
      st.emptyRequest env ev = true := by
  have hinsert : ∀ {k new}, (st.mapTxLockReq.insertNew k new).get h = some tx →
      st.mapTxLockReq.get h = some tx ∨ st.mapTxLockReq.get k = none ∧ k = h ∧ new = tx := by
    intro k new hnew
    rw [get_insertNew] at hnew
    split_ifs at hnew with heq
    · subst heq
      cases hold : st.mapTxLockReq.get h with
      | none =>
        rw [hold] at hnew
        exact .inr ⟨rfl, rfl, some.inj hnew⟩
      | some old =>
        rw [hold] at hnew
        exact .inl hnew
    · exact .inl hnew
  cases ev with
  | request tx' =>
    rcases (processRequest_frame st env tx').2 with heq | heq
    · exact .inl (heq ▸ hreq)
    · refine (hinsert (heq ▸ hreq)).imp id ?_
      rintro ⟨-, hkey, rfl⟩
      exact .inl ⟨hkey, .inl rfl⟩
  | ownRequest tx' =>
    have heq := (createNewLock_frame { st with mapTxLockReq := st.mapTxLockReq.insertNew tx'.hash tx' } env tx').1
    refine (hinsert (heq ▸ hreq)).imp id ?_
    rintro ⟨-, hkey, rfl⟩
    exact .inl ⟨hkey, .inr rfl⟩
  | clean => exact .inl (mapTxLockReq_clean env.time hreq)
  | vote v =>
    replace hreq : (st.processVote env v).mapTxLockReq.get h = some tx := hreq
    rw [processVote_eq] at hreq
    split_ifs at hreq with hnew htakes
    · rw [mapTxLockReq_addVote] at hreq
      split_ifs at hreq with hcomplete
      · refine (hinsert hreq).imp id fun hnew => .inr ?_
        show (_ && _ && (st.mapTxLockReq.get v.txHash).isNone) = true
        rw [htakes, hcomplete, hnew.1]
        rfl
      · exact .inl hreq
    · exact .inl hreq
    · exact .inl hreq

def RequestsFirst : SwiftState → List (SwiftEnv × SwiftEvent) → Prop
  | _, [] => True
  | st, s :: steps => st.emptyRequest s.1 s.2 = false ∧ RequestsFirst (st.step s.1 s.2) steps

/-- An entry at the end of a run was there, or is a request of the run. -/
theorem get_run (steps : List (SwiftEnv × SwiftEvent)) (hfirst : RequestsFirst st steps)
    (hreq : (st.run steps).mapTxLockReq.get h = some tx) : st.mapTxLockReq.get h = some tx ∨
      tx.hash = h ∧ ∃ env, (env, SwiftEvent.request tx) ∈ steps ∨ (env, SwiftEvent.ownRequest tx) ∈ steps := by
  induction steps generalizing st with
  | nil => exact .inl hreq
  | cons s steps ih =>
    rcases ih hfirst.2 hreq with hstep | ⟨hkey, env, hmem⟩
    · rcases get_step s.2 hstep with hold | ⟨hkey, hev⟩ | hempty
      · exact .inl hold
      · refine .inr ⟨hkey, s.1, ?_⟩
        rcases hev with heq | heq <;> simp [← heq]
      · rw [hfirst.1] at hempty
        cases hempty
    · exact .inr ⟨hkey, env, hmem.imp (mem_cons_of_mem _) (mem_cons_of_mem _)⟩

end SwiftState

/-- **Requests stand under their hash** and were received, in every run in which no vote completes a lock whose request
is not known; such a vote enters the empty transaction under the hash. -/
theorem requests_keyed_of_run (steps : List (SwiftEnv × SwiftEvent)) :
    (SwiftState.RequestsFirst {} steps → ∀ h tx, (SwiftState.run {} steps).mapTxLockReq.get h = some tx →
        tx.hash = h ∧ ∃ env, (env, SwiftEvent.request tx) ∈ steps ∨ (env, SwiftEvent.ownRequest tx) ∈ steps) ∧
      ∀ (st : SwiftState) env v, st.emptyRequest env (.vote v) = true →
        (st.step env (.vote v)).mapTxLockReq.get v.txHash = some { hash := 0, vin := [], vout := [] } := by
  refine ⟨?_, ?_⟩
  · intro hfirst h tx hreq
    exact (get_run steps hfirst hreq).resolve_left nofun
  intro st env v hempty
  replace hempty : (_ && _ && (st.mapTxLockReq.get v.txHash).isNone) = true := hempty
  rw [Bool.and_eq_true, Bool.and_eq_true, isNone_iff_eq_none] at hempty
  obtain ⟨⟨htakes, hcomplete⟩, hnone⟩ := hempty
  obtain ⟨hon, hnew⟩ := takesVote_new htakes
  show (st.processVote env v).mapTxLockReq.get v.txHash = _
  rw [processVote_eq, hnew, if_pos (by simpa using hon), if_pos htakes, mapTxLockReq_addVote,
    if_pos hcomplete, get_insertNew, if_pos rfl]
  show some ((st.mapTxLockReq.get v.txHash).getD _) = _
  rw [hnone]
  rfl

theorem voted_request_keyed : (SwiftState.run {} votedSteps).mapTxLockReq.get 50 = some lockTx ∧
    ∃ env, (env, SwiftEvent.request lockTx) ∈ votedSteps ∨ (env, SwiftEvent.ownRequest lockTx) ∈ votedSteps := by
  have hreq : (run {} votedSteps).mapTxLockReq.get 50 = some lockTx := by decide +kernel
  refine ⟨hreq, ((requests_keyed_of_run votedSteps).1 ?_ 50 lockTx hreq).2⟩
  refine ⟨?_, ?_, ?_, ?_, ?_, ?_, ?_, trivial⟩ <;> decide +kernel

/-- The pool refuses the request, whose input is old enough; then the votes come. -/
def refusedSteps : List (SwiftEnv × SwiftEvent) :=
  ({ lockEnv true with acceptToMemoryPool := fun _ => false }, .request lockTx) :: votedSteps.drop 1

/-- **An empty request**: six votes for a refused request enter a transaction without inputs under its hash. -/
theorem refused_request_empty : (SwiftState.run {} refusedSteps).mapTxLockReq.get 50
    = some { hash := 0, vin := [], vout := [] } ∧
    (50 : Uint256) ≠ 0 := by
  decide +kernel

/-! ## §5. Whose inputs a clean-up frees. -/

namespace SwiftState

section

variable (st : SwiftState) (time : Int) (o : COutPoint) (e : Sigma fun _ : Uint256 => CTransactionLock)

/-- The request of an entry whose lock has expired spends the output. -/
def Frees : Prop :=
  e.2.nExpiration < time ∧ ∃ tx, st.mapTxLockReq.get e.2.txHash = some tx ∧ o ∈ tx.vin.map CTxIn.prevout

/-- One turn: an input is free if the entry frees it; another entry frees it before exactly if this one does or it
does so afterwards. -/
theorem cleanLock_locked : (st.Frees time o e → (st.cleanLock time e).mapLockedInputs.get o = none) ∧
      (¬ st.Frees time o e → (st.cleanLock time e).mapLockedInputs.get o = st.mapLockedInputs.get o ∧
        ∀ e', (st.cleanLock time e).Frees time o e' ↔ st.Frees time o e') := by
  unfold cleanLock
  by_cases hexpired : e.2.nExpiration < time
  swap
  · rw [if_neg hexpired]
    exact ⟨fun hfrees => absurd hfrees.1 hexpired, fun _ => ⟨rfl, fun _ => .rfl⟩⟩
  rw [if_pos hexpired]
  cases hreq : st.mapTxLockReq.get e.2.txHash with
  | none =>
    refine ⟨fun ⟨_, tx, htx, _⟩ => ?_, fun _ => ⟨rfl, fun _ => .rfl⟩⟩
    rw [hreq] at htx
    cases htx
  | some tx =>
    show (_ → (eraseInputs st.mapLockedInputs tx.vin).get o = none) ∧
      (_ → (eraseInputs st.mapLockedInputs tx.vin).get o = _ ∧ _)
    rw [get_eraseInputs]
    refine ⟨fun ⟨_, tx', htx', hmem⟩ => ?_, fun hkeeps => ?_⟩
    · rw [hreq] at htx'
      cases htx'
      exact if_pos hmem
    have hspared : o ∉ tx.vin.map CTxIn.prevout := fun hmem => hkeeps ⟨hexpired, tx, hreq, hmem⟩
    refine ⟨if_neg hspared, fun e' => and_congr_right fun _ => exists_congr fun tx' => and_congr_left fun hmem' => ?_⟩
    -- the request that goes spends another output
    show (st.mapTxLockReq.remove e.2.txHash).get e'.2.txHash = some tx' ↔ _
    rw [get_remove]
    split_ifs with hsame
    · rw [hsame, hreq]
      exact ⟨fun h => (by cases h), fun h => absurd (some.inj h ▸ hmem') hspared⟩
    · rfl

end

/-- **The clean-up frees inputs by outpoint**, whoever holds them. -/
theorem clean_locked (st : SwiftState) (time : Int) (o : COutPoint) :
    ((∃ e ∈ st.mapTxLocks.entries, st.Frees time o e) →
      (st.cleanTransactionLocksList time).mapLockedInputs.get o = none) ∧
      (¬ (∃ e ∈ st.mapTxLocks.entries, st.Frees time o e) →
        (st.cleanTransactionLocksList time).mapLockedInputs.get o = st.mapLockedInputs.get o) := by
  unfold cleanTransactionLocksList
  generalize st.mapTxLocks.entries = es
  -- an input that is free stays free
  have hfree : ∀ (es : List (Sigma fun _ : Uint256 => CTransactionLock))
    (st : SwiftState), st.mapLockedInputs.get o = none →
      (es.foldl (cleanLock time) st).mapLockedInputs.get o = none := by
    intro es st hnone
    refine foldlRecOn (motive := fun st : SwiftState => st.mapLockedInputs.get o
      = none) es _ hnone fun st hnone e _ => ?_
    by_cases hfrees : st.Frees time o e
    · exact (cleanLock_locked st time o e).1 hfrees
    · rw [((cleanLock_locked st time o e).2 hfrees).1]
      exact hnone
  induction es generalizing st with
  | nil => exact ⟨fun ⟨e, he, _⟩ => absurd he not_mem_nil, fun _ => rfl⟩
  | cons e es ih =>
    by_cases hfrees : st.Frees time o e
    · exact ⟨fun _ => hfree es _ ((cleanLock_locked st time o e).1 hfrees),
        fun hnone => absurd ⟨e, mem_cons_self, hfrees⟩ hnone⟩
    obtain ⟨hsame, hothers⟩ := (cleanLock_locked st time o e).2 hfrees
    have hexists : (∃ e' ∈ es, (st.cleanLock time e).Frees time o e') ↔ ∃ e' ∈ e :: es, st.Frees time o e' := by
      simp [hothers, hfrees]
    rw [← hexists, ← hsame]
    exact ih _

end SwiftState

/-- **The expiry frame.**  A clean-up leaves the locked inputs of transactions whose locks run on exactly if no request
of an expired lock spends one of them. -/
theorem clean_spares_others_iff (st : SwiftState) (time : Int) :
    (∀ o owner lock, st.mapLockedInputs.get o = some owner → st.mapTxLocks.get owner = some lock →
      ¬ lock.nExpiration < time →
        (st.cleanTransactionLocksList time).mapLockedInputs.get o = some owner) ↔
      ∀ h expired tx, st.mapTxLocks.get h = some expired → expired.nExpiration < time →
        st.mapTxLockReq.get expired.txHash = some tx → ∀ o ∈ tx.vin.map CTxIn.prevout, ∀ owner lock,
          st.mapLockedInputs.get o = some owner → st.mapTxLocks.get owner = some lock → lock.nExpiration < time := by
  constructor
  · intro hspared h expired tx hlock hexpired hreq o hmem owner lock howner hlive
    by_contra hrunning
    have hkept := hspared o owner lock howner hlive hrunning
    rw [(clean_locked st time o).1 ⟨⟨h, expired⟩, mem_entries_iff.mpr hlock, hexpired, tx, hreq, hmem⟩] at hkept
    cases hkept
  · intro hother o owner lock howner hlive hrunning
    rw [(clean_locked st time o).2, howner]
    rintro ⟨⟨h, expired⟩, he, hexpired, tx, hreq, hmem⟩
    exact hrunning (hother h expired tx (mem_entries_iff.mp he) hexpired hreq o hmem owner lock howner hlive)

/-- Half an hour later, the pool refuses another transaction with the same input, and locks it. -/
def conflictState : SwiftState :=
  SwiftState.run {} [(lockEnv true, .request lockTx),
    ({ lockEnv true with acceptToMemoryPool := fun _ => false, time := 1602001800 },
      .request { lockTx with hash := 51 })]

/-- **A running lock loses its input**: the first lock expires and takes the input of the second. -/
theorem running_lock_loses_input : conflictState.mapLockedInputs.get ⟨7, 0⟩ = some 51 ∧
    (conflictState.mapTxLocks.get 51).map nExpiration = some 1602005400 ∧
      (conflictState.cleanTransactionLocksList 1602003700).mapLockedInputs.get ⟨7, 0⟩ = none := by
  decide +kernel

end PwrbCore
