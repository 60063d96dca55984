/-
  SwiftTX.CompleteLocks — LOCKED INPUTS BELONG TO COMPLETE LOCKS, as long as refused requests do.

  A vote locks inputs once it has made a lock complete.  The rejection path of a lock
  request locks them without looking: that is the one way to an entry of `mapLockedInputs`
  whose transaction no masternode voted for.

  Main results: `SwiftState.Inv.step`, `lockedInputs_complete_of_run`.
-/
import PwrbCore.SwiftTX.Locks

namespace PwrbCore

open StdMap SwiftState CTransactionLock

/-! ## §1. Reading the maps. -/

variable {o : COutPoint} {lock : CTransactionLock} {h hash : Uint256} {st : SwiftState} {env : SwiftEnv}

/-- An input is locked after the loop by whoever held it, else by the new transaction. -/
theorem get_lockInputs (locked : StdMap COutPoint Uint256) (vin : List CTxIn) (txHash : Uint256) (o : COutPoint) :
    (lockInputs locked vin txHash).get o
      = (locked.get o).or (if o ∈ vin.map CTxIn.prevout then some txHash else none) := by
  unfold lockInputs
  induction vin generalizing locked with
  | nil => simp
  | cons txin vin ih =>
    rw [List.foldl_cons, ih, get_insertNew]
    grind

theorem get_lockInputs_eq_some {locked : StdMap COutPoint Uint256} {vin : List CTxIn}
    {txHash owner : Uint256} (h : (lockInputs locked vin txHash).get o = some owner) :
    locked.get o = some owner ∨ locked.get o = none ∧ o ∈ vin.map CTxIn.prevout ∧ owner = txHash := by
  rw [get_lockInputs] at h
  cases hold : locked.get o with
  | some owner' =>
    rw [hold] at h
    exact .inl h
  | none =>
    simp_all

theorem get_eraseInputs (locked : StdMap COutPoint Uint256) (vin : List CTxIn) (o : COutPoint) :
    (eraseInputs locked vin).get o = if o ∈ vin.map CTxIn.prevout then none else locked.get o := by
  rw [← get_removeAll, StdMap.removeAll, List.foldl_map]
  rfl

/-- More votes never make a lock incomplete. -/
theorem CTransactionLock.isComplete_addSignature (cv : CConsensusVote)
    (h : lock.isComplete = true) : (lock.addSignature cv).isComplete = true := by
  unfold isComplete countSignatures addSignature at *
  grind

/-! ## §2. One lemma for each handler. -/

namespace SwiftState

/-- What ties the maps together: a locked input belongs to a complete lock whose request is known and spends it; a
lock stands under its transaction. -/
structure Inv (st : SwiftState) : Prop where
  owned : ∀ o h, st.mapLockedInputs.get o = some h →
    st.lockComplete h = true ∧ ∃ tx, st.mapTxLockReq.get h = some tx ∧ o ∈ tx.vin.map CTxIn.prevout
  keyed : ∀ h lock, st.mapTxLocks.get h = some lock → lock.txHash = h

theorem lockComplete_eq_true :
    st.lockComplete h = true ↔ ∃ lock, st.mapTxLocks.get h = some lock ∧ lock.isComplete = true := by
  unfold lockComplete
  cases st.mapTxLocks.get h <;> simp

theorem lockComplete_congr {st' : SwiftState}
    (heq : st'.mapTxLocks.get h = st.mapTxLocks.get h) : st'.lockComplete h = st.lockComplete h := by
  unfold lockComplete
  rw [heq]

theorem Inv.ne_of_request_none (hinv : st.Inv) (hnone : st.mapTxLockReq.get hash = none)
    (ho : st.mapLockedInputs.get o = some h) : h ≠ hash := by
  rintro rfl
  obtain ⟨-, tx, htx, -⟩ := hinv.owned o h ho
  rw [hnone] at htx
  cases htx

section Handlers

variable {tx : CTransaction}

theorem createNewLock_frame (st : SwiftState) (env : SwiftEnv) (tx : CTransaction) :
    (st.createNewLock env tx).1.mapTxLockReq = st.mapTxLockReq ∧
      (st.createNewLock env tx).1.mapTxLockReqRejected = st.mapTxLockReqRejected ∧
      (st.createNewLock env tx).1.mapLockedInputs = st.mapLockedInputs := by
  unfold createNewLock
  split <;> exact ⟨rfl, rfl, rfl⟩

theorem createNewLock_get_of_ne (hne : h ≠ tx.hash) :
    (st.createNewLock env tx).1.mapTxLocks.get h = st.mapTxLocks.get h := by
  unfold createNewLock
  split
  · rfl
  · exact get_set_of_ne _ _ hne

theorem createNewLock_keyed (hkeyed : ∀ h lock, st.mapTxLocks.get h = some lock → lock.txHash = h) :
    ∀ h lock, (st.createNewLock env tx).1.mapTxLocks.get h = some lock → lock.txHash = h := by
  intro h lock hlock
  by_cases hne : h = tx.hash
  · subst hne
    unfold createNewLock at hlock
    split at hlock
    · exact hkeyed _ _ hlock
    · rw [get_set_self] at hlock
      grind
  · rw [createNewLock_get_of_ne hne] at hlock
    exact hkeyed h lock hlock

/-- A new lock for a transaction that holds no inputs leaves the invariant. -/
theorem Inv.createNewLock (hinv : st.Inv) (env : SwiftEnv) (hnone : st.mapTxLockReq.get tx.hash = none) :
    (st.createNewLock env tx).1.Inv := by
  obtain ⟨hreq, -, hlocked⟩ := createNewLock_frame st env tx
  refine ⟨?_, createNewLock_keyed hinv.keyed⟩
  intro o h ho
  rw [hlocked] at ho
  obtain ⟨hcomplete, htx⟩ := hinv.owned o h ho
  rw [hreq, lockComplete_congr (createNewLock_get_of_ne (hinv.ne_of_request_none hnone ho))]
  exact ⟨hcomplete, htx⟩

theorem expireLock_frame (st : SwiftState) (time : Int) (hash : Uint256) :
    (st.expireLock time hash).mapTxLockReq = st.mapTxLockReq ∧
      (st.expireLock time hash).mapLockedInputs = st.mapLockedInputs := by
  unfold expireLock
  split <;> exact ⟨rfl, rfl⟩

theorem expireLock_lockComplete (st : SwiftState) (time : Int) (hash h : Uint256) :
    (st.expireLock time hash).lockComplete h = st.lockComplete h := by
  unfold expireLock
  cases hlock : st.mapTxLocks.get hash with
  | none => rfl
  | some lock =>
    unfold lockComplete
    rw [get_set]
    split_ifs with hh
    · rw [hh, hlock]
      rfl
    · rfl

theorem Inv.expireLock (hinv : st.Inv) (time : Int) (hash : Uint256) : (st.expireLock time hash).Inv := by
  obtain ⟨hreq, hlocked⟩ := expireLock_frame st time hash
  refine ⟨?_, ?_⟩
  · intro o h ho
    rw [hlocked] at ho
    rw [hreq, expireLock_lockComplete]
    exact hinv.owned o h ho
  · intro h lock hlock
    unfold SwiftState.expireLock at hlock
    cases hold : st.mapTxLocks.get hash with
    | none =>
      rw [hold] at hlock
      exact hinv.keyed h lock hlock
    | some old => grind [get_set, hinv.keyed]

theorem Inv.checkForConflictingLocks (hinv : st.Inv) (env : SwiftEnv) (tx : CTransaction) :
    (st.checkForConflictingLocks env tx).1.Inv := by
  unfold SwiftState.checkForConflictingLocks
  split
  · exact hinv
  · exact (hinv.expireLock _ _).expireLock _ _

theorem checkForConflictingLocks_of_none (h : st.conflictingLock tx = none) :
    st.checkForConflictingLocks env tx = (st, false) := by
  unfold checkForConflictingLocks
  rw [h]

theorem conflictingLock_eq_none : st.conflictingLock tx = none ↔
    ∀ o ∈ tx.vin.map CTxIn.prevout, ∀ owner, st.mapLockedInputs.get o = some owner → owner = tx.hash := by
  unfold conflictingLock
  constructor
  · grind
  · grind

section

variable (hinv : st.Inv)

include hinv

theorem Inv.insertRequest (hash : Uint256) (tx : CTransaction) :
    Inv { st with mapTxLockReq := st.mapTxLockReq.insertNew hash tx } := by
  refine ⟨?_, hinv.keyed⟩
  intro o h ho
  obtain ⟨hcomplete, tx', htx', hmem⟩ := hinv.owned o h ho
  refine ⟨hcomplete, tx', ?_, hmem⟩
  show (st.mapTxLockReq.insertNew hash tx).get h = _
  rw [get_insertNew]
  split_ifs with hh
  · rw [← hh, htx']
    rfl
  · exact htx'

/-- Inputs may be locked for a transaction with a complete lock and a known request. -/
theorem Inv.lockInputs (hcomplete : st.lockComplete hash = true) (hreq : st.mapTxLockReq.get hash = some tx) :
    Inv { st with mapLockedInputs := lockInputs st.mapLockedInputs tx.vin hash } := by
  refine ⟨?_, hinv.keyed⟩
  intro o h ho
  rcases get_lockInputs_eq_some ho with hold | ⟨-, hmem, rfl⟩
  · exact hinv.owned o h hold
  · exact ⟨hcomplete, tx, hreq, hmem⟩

/-- A refused request is harmless when it adds no lock, or when its lock is complete already and conflicts with no
other. -/
def RefusalSound (st : SwiftState) (env : SwiftEnv) (tx : CTransaction) : Prop :=
  (∀ o ∈ tx.vin.map CTxIn.prevout, ∃ owner, st.mapLockedInputs.get o = some owner) ∨
    ((st.createNewLock env tx).1.lockComplete tx.hash = true ∧ st.conflictingLock tx = none)

theorem Inv.rejectRequest (hsound : (∀ o ∈ tx.vin.map CTxIn.prevout, ∃ owner, st.mapLockedInputs.get o = some owner) ∨
      (st.lockComplete tx.hash = true ∧ st.conflictingLock tx = none))
    (hnone : st.mapTxLockReq.get tx.hash = none) : (st.rejectRequest env tx).Inv := by
  unfold SwiftState.rejectRequest
  set entered : SwiftState := { st with
    mapTxLockReqRejected := st.mapTxLockReqRejected.insertNew tx.hash tx
    mapLockedInputs := PwrbCore.lockInputs st.mapLockedInputs tx.vin tx.hash }
  rcases hsound with hall | ⟨hcomplete, hfree⟩
  · -- nothing is locked that was not locked before
    have hlocked : entered.Inv := by
      refine ⟨?_, hinv.keyed⟩
      intro o h ho
      rcases get_lockInputs_eq_some ho with hold | ⟨hfree, hmem, -⟩
      · exact hinv.owned o h hold
      · obtain ⟨owner, howner⟩ := hall o hmem
        rw [hfree] at howner
        cases howner
    dsimp only
    split_ifs
    · have hchecked := hlocked.checkForConflictingLocks env tx
      split
      next st' heq =>
          rw [heq] at hchecked
          exact hchecked.insertRequest tx.hash tx
      next st' heq =>
          rw [heq] at hchecked
          exact hchecked
    · exact hlocked
  · -- the request is entered, and the lock is complete
    have hconf : entered.conflictingLock tx = none := by
      grind [conflictingLock_eq_none, get_lockInputs_eq_some]
    have hreq : (st.mapTxLockReq.insertNew tx.hash tx).get tx.hash = some tx := by
      rw [get_insertNew, if_pos rfl, hnone]
      rfl
    have hcomplete' : entered.lockComplete tx.hash = true := hcomplete
    rw [if_pos hcomplete', checkForConflictingLocks_of_none hconf]
    have := (hinv.insertRequest tx.hash tx).lockInputs hcomplete hreq
    exact ⟨this.owned, this.keyed⟩

theorem Inv.processRequest (hsound : st.takesRequest env tx = true → env.acceptToMemoryPool tx = false →
      st.RefusalSound env tx) : (st.processRequest env tx).Inv := by
  have hrun : st.processRequest env tx = if st.takesRequest env tx then
      if env.acceptToMemoryPool tx then
        (st.createNewLock env tx).1.acceptRequest env tx (st.createNewLock env tx).2
      else (st.createNewLock env tx).1.rejectRequest env tx
    else st := rfl
  have hnone : st.takesRequest env tx = true → st.mapTxLockReq.get tx.hash = none := by
    simp_all [takesRequest]
  rw [hrun]
  by_cases htakes : st.takesRequest env tx = true
  · rw [if_pos htakes]
    -- the new lock holds no inputs
    have hlock := hinv.createNewLock env (hnone htakes)
    by_cases haccept : env.acceptToMemoryPool tx = true
    · rw [if_pos haccept]
      have := hlock.insertRequest tx.hash tx
      exact ⟨this.owned, this.keyed⟩
    rw [if_neg haccept]
    obtain ⟨hreq, -, hlocked⟩ := createNewLock_frame st env tx
    refine hlock.rejectRequest ?_ (by rw [hreq]; exact hnone htakes)
    rcases hsound htakes (Bool.not_eq_true _ ▸ haccept) with hall | ⟨hcomplete, hfree⟩
    · left
      rw [hlocked]
      exact hall
    · grind [conflictingLock_eq_none]
  · rw [if_neg htakes]
    exact hinv

/-- An own request is harmless when it does not move a complete lock to another height. -/
def OwnRequestSound (st : SwiftState) (env : SwiftEnv) (tx : CTransaction) : Prop :=
  ∀ nTxAge lock, env.txAge tx = some nTxAge → st.mapTxLocks.get tx.hash = some lock →
    lock.isComplete = true → (env.tipHeight - nTxAge) + 4 = lock.nBlockHeight

theorem Inv.ownRequest (hsound : st.OwnRequestSound env tx) : (st.ownRequest env tx).Inv := by
  have hentered := hinv.insertRequest tx.hash tx
  unfold SwiftState.ownRequest
  obtain ⟨hreq, -, hlocked⟩ := createNewLock_frame
    { st with mapTxLockReq := st.mapTxLockReq.insertNew tx.hash tx } env tx
  refine ⟨?_, createNewLock_keyed hentered.keyed⟩
  intro o h ho
  rw [hlocked] at ho
  obtain ⟨hcomplete, htx⟩ := hentered.owned o h ho
  rw [hreq]
  refine ⟨?_, htx⟩
  by_cases hne : h = tx.hash
  · -- the lock keeps its height, so its votes go on counting
    subst hne
    obtain ⟨lock, hlock, hvotes⟩ := lockComplete_eq_true.mp hcomplete
    rw [lockComplete_eq_true]
    unfold SwiftState.createNewLock
    cases hage : env.txAge tx with
    | none => exact ⟨lock, hlock, hvotes⟩
    | some nTxAge =>
      have hheight := hsound nTxAge lock hage hlock hvotes
      simp [get_set_self, hvotes, hlock, hheight]
  · rw [lockComplete_congr (createNewLock_get_of_ne hne)]
    exact hcomplete

/-- A vote: the lock it joins stays complete or becomes so before inputs are locked. -/
theorem Inv.addVote (env : SwiftEnv) (ctx : CConsensusVote) : (st.addVote env ctx).Inv := by
  -- the state with the vote in its lock
  have hjoined : ∀ lock : CTransactionLock, lock = ((st.mapTxLocks.get ctx.txHash).getD
        { nBlockHeight := 0, txHash := ctx.txHash,
          nExpiration := (env.time + 60 * 60).bmod (2 ^ 32) }).addSignature ctx →
      Inv { st with mapTxLocks := st.mapTxLocks.set ctx.txHash lock } := by
    intro lock hlock
    refine ⟨?_, ?_⟩
    · intro o h ho
      obtain ⟨hcomplete, htx⟩ := hinv.owned o h ho
      refine ⟨?_, htx⟩
      obtain ⟨old, hold, hvotes⟩ := lockComplete_eq_true.mp hcomplete
      rw [lockComplete_eq_true]
      show ∃ l, (st.mapTxLocks.set ctx.txHash lock).get h = some l ∧ _
      rw [get_set]
      split_ifs with hh
      · grind [isComplete_addSignature]
      · exact ⟨old, hold, hvotes⟩
    · intro h l hl
      have hl' : (st.mapTxLocks.set ctx.txHash lock).get h = some l := hl
      rw [get_set] at hl'
      split_ifs at hl' with hh
      · rw [← Option.some.inj hl', hlock, hh]
        cases hold : st.mapTxLocks.get ctx.txHash with
        | none => rfl
        | some old => exact hinv.keyed _ old hold
      · exact hinv.keyed h l hl'
  unfold SwiftState.addVote
  dsimp only
  have hst := hjoined _ rfl
  split_ifs with hcomplete
  · have hentered := hst.insertRequest ctx.txHash { hash := 0, vin := [], vout := [] }
    split
    next st' heq =>
        have hst' := congrArg Prod.fst heq
        dsimp only at hst'
        rw [← hst']
        exact hentered.checkForConflictingLocks env _
    next st' heq =>
        unfold SwiftState.checkForConflictingLocks at heq
        split at heq
        · cases heq
          refine hentered.lockInputs ?_ ?_
          · rw [lockComplete_eq_true]
            exact ⟨_, get_set_self _ _ _, hcomplete⟩
          · show (st.mapTxLockReq.insertNew ctx.txHash _).get ctx.txHash = _
            rw [get_insertNew, if_pos rfl]
            rfl
        · cases heq
  · exact hst

theorem Inv.processVote (env : SwiftEnv) (ctx : CConsensusVote) : (st.processVote env ctx).Inv := by
  have hentered : Inv { st with mapTxLockVote := st.mapTxLockVote.set ctx.getHash ctx } :=
    ⟨hinv.owned, hinv.keyed⟩
  unfold SwiftState.processVote
  split_ifs
  · grind [processConsensusVote, hentered.addVote]
  · exact hinv

/-- One turn of the clean-up: what an expired lock held goes with it. -/
theorem Inv.cleanLock (time : Int) (hkey : lock.txHash = h) : (st.cleanLock time ⟨h, lock⟩).Inv := by
  unfold SwiftState.cleanLock
  split_ifs
  · have hother : ∀ h', h' ≠ lock.txHash → (st.mapTxLocks.remove h).get h' = st.mapTxLocks.get h' := by
      intro h' hne
      rw [get_remove, if_neg (hkey ▸ hne)]
    refine ⟨?_, ?_⟩
    · intro o h' ho
      cases hreq : st.mapTxLockReq.get lock.txHash with
      | none =>
        rw [hreq] at ho
        have hne := hinv.ne_of_request_none hreq ho
        obtain ⟨hcomplete, htx⟩ := hinv.owned o h' ho
        exact ⟨(lockComplete_congr (hother h' hne)).trans hcomplete, htx⟩
      | some tx =>
        rw [hreq] at ho
        have ho' : (eraseInputs st.mapLockedInputs tx.vin).get o = some h' := ho
        rw [get_eraseInputs] at ho'
        split_ifs at ho' with hmem
        obtain ⟨hcomplete, tx', htx', hmem'⟩ := hinv.owned o h' ho'
        -- the owner is another transaction: this one's inputs are all free
        have hne : h' ≠ lock.txHash := by grind
        refine ⟨(lockComplete_congr (hother h' hne)).trans hcomplete, tx', ?_, hmem'⟩
        show (st.mapTxLockReq.remove lock.txHash).get h' = _
        rw [get_remove, if_neg hne]
        exact htx'
    · intro h' lock' hlock'
      have hkept : (st.mapTxLocks.remove h).get h' = some lock' := by grind
      rw [get_remove] at hkept
      split_ifs at hkept
      exact hinv.keyed h' lock' hkept
  · exact hinv

theorem Inv.clean (time : Int) : (st.cleanTransactionLocksList time).Inv := by
  refine List.foldlRecOn _ _ hinv fun s hs e he => ?_
  exact hs.cleanLock time (hinv.keyed e.1 e.2 (mem_entries_iff.mp he))

end

end Handlers

/-! ## §3. Runs. -/

/-- The steps that keep the invariant: votes, clean-ups, requests the memory pool takes, and refused ones whose lock
is complete. -/
def SoundStep (st : SwiftState) (env : SwiftEnv) : SwiftEvent → Prop
  | .request tx => st.takesRequest env tx = true → env.acceptToMemoryPool tx = false → st.RefusalSound env tx
  | .ownRequest tx => st.OwnRequestSound env tx
  | .vote _ => True
  | .clean => True

theorem inv_start : Inv {} := ⟨nofun, nofun⟩

/-- **One step.** -/
theorem Inv.step {ev : SwiftEvent} (hinv : st.Inv) (hsound : st.SoundStep env ev) : (st.step env ev).Inv := by
  cases ev with
  | request tx => exact hinv.processRequest hsound
  | ownRequest tx => exact hinv.ownRequest hsound
  | vote ctx => exact hinv.processVote env ctx
  | clean => exact hinv.clean env.time

theorem inv_of_run (hrun : SwiftReach SoundStep st) : st.Inv := by
  induction hrun with
  | start => exact inv_start
  | step env ev _ hsound ih => exact ih.step hsound

end SwiftState

/-- **Locked inputs are backed by complete locks.**  In every run in which the refused requests
are harmless, each entry of `mapLockedInputs` belongs to a lock with enough votes; and a refused
request whose lock lacks votes, with an input nobody has locked, breaks this at once. -/
theorem lockedInputs_complete_of_run (st : SwiftState) :
    (SwiftReach SwiftState.SoundStep st → ∀ o h, st.mapLockedInputs.get o = some h →
        ∃ lock, st.mapTxLocks.get h = some lock ∧ SWIFTTX_SIGNATURES_REQUIRED ≤ lock.countSignatures) ∧
      ∀ (env : SwiftEnv) (tx : CTransaction) (o : COutPoint),
        st.takesRequest env tx = true → env.acceptToMemoryPool tx = false →
        (st.createNewLock env tx).1.lockComplete tx.hash = false →
        o ∈ tx.vin.map CTxIn.prevout → st.mapLockedInputs.get o = none →
        (st.step env (.request tx)).mapLockedInputs.get o = some tx.hash ∧
          (st.step env (.request tx)).lockComplete tx.hash = false := by
  refine ⟨?_, ?_⟩
  · intro hrun o h ho
    obtain ⟨hcomplete, -⟩ := (inv_of_run hrun).owned o h ho
    obtain ⟨lock, hlock, hvotes⟩ := lockComplete_eq_true.mp hcomplete
    exact ⟨lock, hlock, of_decide_eq_true hvotes⟩
  intro env tx o htakes hrefused hincomplete ho hfree
  have hrun : st.step env (.request tx) = { (st.createNewLock env tx).1 with
      mapTxLockReqRejected := (st.createNewLock env tx).1.mapTxLockReqRejected.insertNew tx.hash tx
      mapLockedInputs := lockInputs (st.createNewLock env tx).1.mapLockedInputs tx.vin tx.hash } := by
    show st.processRequest env tx = _
    unfold processRequest rejectRequest
    rw [if_pos htakes]
    rw [hrefused]
    exact if_neg fun hcomplete => Bool.noConfusion (hincomplete.symm.trans hcomplete)
  rw [hrun]
  refine ⟨?_, hincomplete⟩
  rw [get_lockInputs, (createNewLock_frame st env tx).2.2, hfree, if_pos ho]
  rfl

def lockTx : CTransaction :=
  { hash := 50, vin := [.of 7 0],
    vout := [⟨1 * COIN, getScriptForDestination (.keyID ⟨List.replicate 20 9, rfl⟩)⟩] }

/-- A synced node at height 1000 with an input 100 blocks old; all masternodes rank first and sign well. -/
def lockEnv (accepts : Bool) : SwiftEnv where
  enabled := true
  getTransaction := fun _ => none
  maxValue := 1000
  inputAge := fun _ => if accepts then 100 else -1
  tipHeight := 1000
  time := 1602000000
  acceptToMemoryPool := fun _ => accepts
  ownVote := fun _ _ => none
  masternodeRank := fun _ _ => 1
  checkSignature := fun _ => true

def lockVote (i : Nat) : CConsensusVote := ⟨⟨BitVec.ofNat 256 (1000 + i), 0⟩, 50, 904⟩

def votedState : SwiftState :=
  (List.range 6).foldl (fun st i => st.step (lockEnv true) (.vote (lockVote i)))
    (SwiftState.step {} (lockEnv true) (.request lockTx))

theorem voted_input_locked : votedState.mapLockedInputs.get ⟨7, 0⟩ = some 50 ∧
    ∃ lock, votedState.mapTxLocks.get 50 = some lock ∧ SWIFTTX_SIGNATURES_REQUIRED ≤ lock.countSignatures := by
  have hlocked : votedState.mapLockedInputs.get ⟨7, 0⟩ = some 50 := by decide +kernel
  refine ⟨hlocked, (lockedInputs_complete_of_run votedState).1 ?_ _ _ hlocked⟩
  have hrequest : SwiftReach SwiftState.SoundStep (step {} (lockEnv true) (.request lockTx)) :=
    .step _ _ .start nofun
  exact List.foldlRecOn _ _ hrequest fun _ hst _ _ => .step _ _ hst trivial

/-- **One unauthenticated message locks an input**: the request of a transaction whose input nobody knows is refused,
and its input is locked without a vote. -/
theorem refused_request_locks_input :
    SwiftReach (fun _ _ _ => True) (SwiftState.step {} (lockEnv false) (.request lockTx)) ∧
      (SwiftState.step {} (lockEnv false) (.request lockTx)).mapLockedInputs.get ⟨7, 0⟩ = some 50 ∧
      (SwiftState.step {} (lockEnv false) (.request lockTx)).mapTxLocks.get 50 = none :=
  ⟨.step _ _ .start trivial, by decide +kernel, by decide +kernel⟩

end PwrbCore
