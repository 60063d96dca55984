/-
  Betting.Lookups — WHAT THE PAYOUT CODE LOOKS UP.

  `GetTransaction` is called for the first input of a transaction only: of the winning bets
  and the coinstakes after the draw in the window of the scan, and of the coinstake under
  test.  Environments that find the same there compute the same payouts
  (`LookupsAgree.checkPayouts`).
-/
import PwrbCore.Betting.BetPayouts

namespace PwrbCore

open BetEnv Option

variable {env env' : BetEnv} {tx : CTransaction} {block : CBlock} {blocks : List CBlock}

/-- The environments differ in lookups only, and not for the first input of `tx`. -/
def BetEnv.AgreeOn (env env' : BetEnv) (tx : CTransaction) : Prop :=
  ∀ txin ∈ tx.vin.head?, env.getTransaction txin.prevout.hash = env'.getTransaction txin.prevout.hash

/-- **What `GetBetPayouts` looks up**: the first inputs of these transactions of its window. -/
inductive PayoutWindow.Reads {params : ConsensusParams} {sources : ResultSources} {chain : List CBlock}
    {height : Int} (w : PayoutWindow params sources chain height) : CTransaction → Prop
  /-- a bet that wins -/
  | bet {slip : BetSlip} {payout : Int} (hslip : slip ∈ betSlips (chain.drop w.start.toNat))
      (hwins : slip.wins params w.result (lastdrawtime w.tip.nTime) = some payout) : Reads w slip.tx
  /-- a coinstake of at least two outputs that is not older than the draw -/
  | coinstake {b : CBlock} {tx : CTransaction} (hb : b ∈ chain.drop w.start.toNat) (htx : b.vtx[1]? = some tx)
      (hsize : 1 < tx.vout.length) (hyoung : lastdrawtime w.tip.nTime ≤ b.nTime) : Reads w tx

/-- **The sources the payout section goes by**: those at hand and, off testnet, those after a download if something
is due and the block does not pay it. -/
inductive Consulted (env : BetEnv) (sources downloaded : ResultSources) (chain : List CBlock) (block : CBlock)
    (height : Int) : ResultSources → Prop
  | atHand : Consulted env sources downloaded chain block height sources
  | downloaded {due : List CBetOut} (hnet : env.params.network ≠ .testnet)
      (hdue : getBetPayouts env sources chain height = some due)
      (hpays : isBlockPayoutsValid env (getBlockPayouts env.params due).2 block height = false) :
      Consulted env sources downloaded chain block height downloaded

/-- The environments differ in lookups only, and not in those `env` makes for the payouts of a block at `height`:
the ones of `GetBetPayouts`, and the stake of the block where something is due. -/
structure LookupsAgree (env env' : BetEnv) (sources downloaded : ResultSources) (chain : List CBlock)
    (block : CBlock) (height : Int) : Prop where
  params : env.params = env'.params
  hash160 : env.hash160 = env'.hash160
  window : ∀ used, Consulted env sources downloaded chain block height used →
    ∀ (w : PayoutWindow env.params used chain height) (tx : CTransaction), w.Reads tx → env.AgreeOn env' tx
  stake : ∀ used due, Consulted env sources downloaded chain block height used →
    getBetPayouts env used chain height = some due → due ≠ [] →
    ∀ tx, block.vtx[1]? = some tx → env.AgreeOn env' tx

section Congr

theorem BetEnv.AgreeOn.stakeAmount (h : env.AgreeOn env' tx) : env.stakeAmount tx = env'.stakeAmount tx := by
  unfold BetEnv.stakeAmount
  cases hvin : tx.vin with
  | nil => rfl
  | cons txin vin =>
    dsimp only
    rw [h txin (by rw [hvin]; rfl)]

theorem BetEnv.AgreeOn.payoutOutputs (h : env.AgreeOn env' tx) (height : Int) :
    env.payoutOutputs tx height = env'.payoutOutputs tx height := by
  unfold BetEnv.payoutOutputs numStakingTx stakingTarget
  rw [h.stakeAmount]

theorem BetEnv.AgreeOn.payoutAddress (h : env.AgreeOn env' tx)
    (hhash : env.hash160 = env'.hash160) : env.payoutAddress tx = env'.payoutAddress tx := by
  unfold BetEnv.payoutAddress
  cases hvin : tx.vin with
  | nil => rfl
  | cons txin vin =>
    dsimp only
    rw [h txin (by rw [hvin]; rfl), hhash]

/-- The stake is looked up only when there is a vector to compare with. -/
theorem BetEnv.AgreeOn.isBlockPayoutsValid {vExpectedPayouts : List CBetOut} (hstake : vExpectedPayouts ≠ [] →
      ∀ tx, block.vtx[1]? = some tx → env.AgreeOn env' tx) (hhash : env.hash160 = env'.hash160)
    (height : Int) : isBlockPayoutsValid env vExpectedPayouts block height
      = isBlockPayoutsValid env' vExpectedPayouts block height := by
  have hposition : env.positionOk = env'.positionOk := by
    funext expected txout
    unfold positionOk dest
    rw [hhash]
  unfold PwrbCore.isBlockPayoutsValid
  split_ifs with hnone
  · rfl
  cases htx : block.vtx[1]? with
  | none => rfl
  | some tx =>
    have h := hstake hnone tx htx
    delta BetEnv.payoutOutputs numStakingTx totalStakeAcc stakingTarget
    dsimp only
    rw [h.stakeAmount, hposition]

theorem mapM_congr_mem {α β : Type} {f g : α → Option β} {l : List α} (h : ∀ a ∈ l, f a = g a) :
    l.mapM f = l.mapM g := by
  induction l with
  | nil => rfl
  | cons a l ih =>
    simp_all

/-- The payee of an output matters only if it wins. -/
theorem BetEnv.expectedPayouts_congr {result : DrawResult} {latestDrawStartTime : Int}
    (hparams : env.params = env'.params) (hhash : env.hash160 = env'.hash160)
    (h : ∀ slip ∈ betSlips blocks, ∀ payout, slip.wins env.params result latestDrawStartTime = some payout →
      env.AgreeOn env' slip.tx) : env.expectedPayouts result latestDrawStartTime blocks
      = env'.expectedPayouts result latestDrawStartTime blocks := by
  have hslips : ∀ slip ∈ betSlips blocks, env.expectedPayout result latestDrawStartTime slip
      = env'.expectedPayout result latestDrawStartTime slip := by
    intro slip hslip
    have hwins := h slip hslip
    unfold BetSlip.wins at hwins
    unfold expectedPayout
    rw [← hparams]
    cases hwon : betWinnings env.params result latestDrawStartTime slip.time slip.txout with
    | none => rfl
    | some won =>
      cases won with
      | none => rfl
      | some payout =>
        rw [hwon] at hwins
        rw [(hwins payout rfl).payoutAddress hhash]
  unfold expectedPayouts
  rw [mapM_congr_mem hslips]

/-- The stake of a block matters only if it is not older than the draw. -/
theorem BetEnv.completedPayouts_congr {latestDrawStartTime : Int} (h : ∀ b ∈ blocks, ∀ tx, b.vtx[1]? = some tx →
      1 < tx.vout.length → latestDrawStartTime ≤ b.nTime → env.AgreeOn env' tx) (nTraverseHeight : Int) :
    env.completedPayouts latestDrawStartTime nTraverseHeight blocks
      = env'.completedPayouts latestDrawStartTime nTraverseHeight blocks := by
  induction blocks generalizing nTraverseHeight with
  | nil => rfl
  | cons b blocks ih =>
    have hone : env.completedOf latestDrawStartTime nTraverseHeight b
        = env'.completedOf latestDrawStartTime nTraverseHeight b := by
      unfold completedOf
      cases htx : b.vtx[1]? with
      | none => rfl
      | some tx =>
        dsimp only
        split_ifs with hyoung
        · rw [(h b List.mem_cons_self tx htx hyoung.1 hyoung.2).payoutOutputs]
        · rfl
    unfold completedPayouts
    rw [hone, ih fun b' hb' => h b' (List.mem_cons_of_mem b hb')]

theorem BetEnv.pendingPayouts_congr (hhash : env.hash160 = env'.hash160)
    (vExpectedPayouts vCompletedPayouts : List CBetOut) : env.pendingPayouts vExpectedPayouts vCompletedPayouts
      = env'.pendingPayouts vExpectedPayouts vCompletedPayouts := by
  unfold pendingPayouts betPaid dest
  rw [hhash]

/-- **Lookups that agree give the same vector.** -/
theorem getBetPayouts_congr {sources : ResultSources} {chain : List CBlock} {height : Int}
    (hparams : env.params = env'.params) (hhash : env.hash160 = env'.hash160)
    (h : ∀ (w : PayoutWindow env.params sources chain height) (tx : CTransaction), w.Reads tx →
      env.AgreeOn env' tx) :
    getBetPayouts env sources chain height = getBetPayouts env' sources chain height := by
  by_cases hscans : Scans env.params chain height
  · have hscans' : Scans env'.params chain height := by
      rw [← hparams]
      exact hscans
    by_cases hw : Nonempty (PayoutWindow env.params sources chain height)
    · obtain ⟨w⟩ := hw
      -- the window is one of the other environment as well
      have hstart : traverseStart env'.params height = some w.start := by rw [← hparams, w.start_eq]
      let w' : PayoutWindow env'.params sources chain height :=
        ⟨w.tip, w.start, w.date, w.result, w.tip_eq, w.gate, hstart, w.date_eq, w.result_eq⟩
      rw [w.getBetPayouts_eq, w'.getBetPayouts_eq,
        expectedPayouts_congr hparams hhash fun slip hslip payout hwins => h w slip.tx (.bet hslip hwins),
        completedPayouts_congr (fun b hb tx htx hsize hyoung => h w tx (.coinstake hb htx hsize hyoung)) w.start]
      simp only [env.pendingPayouts_congr hhash]
      rfl
    · rw [(hscans.window sources).resolve_right hw,
        (hscans'.window sources).resolve_right (by rw [← hparams]; exact hw)]
  · rw [getBetPayouts_of_not_scans hscans, getBetPayouts_of_not_scans (by rw [← hparams]; exact hscans)]

end Congr

namespace LookupsAgree

variable {sources downloaded used : ResultSources} {chain : List CBlock} {height : Int}

theorem getBetPayouts (h : LookupsAgree env env' sources downloaded chain block height)
    (hused : Consulted env sources downloaded chain block height used) :
    getBetPayouts env used chain height = getBetPayouts env' used chain height :=
  getBetPayouts_congr h.params h.hash160 (h.window used hused)

theorem isBlockPayoutsValid (h : LookupsAgree env env' sources downloaded chain block height)
    (hused : Consulted env sources downloaded chain block height used) {due : List CBetOut}
    (hdue : PwrbCore.getBetPayouts env used chain height = some due) :
    isBlockPayoutsValid env (getBlockPayouts env.params due).2 block height
      = isBlockPayoutsValid env' (getBlockPayouts env.params due).2 block height := by
  refine BetEnv.AgreeOn.isBlockPayoutsValid (fun hne => h.stake used due hused hdue ?_) h.hash160 height
  rintro rfl
  exact hne rfl

/-- **The payout section of a block.** -/
theorem checkPayouts (h : LookupsAgree env env' sources downloaded chain block height) :
    checkPayouts env sources downloaded chain block height
      = checkPayouts env' sources downloaded chain block height := by
  unfold PwrbCore.checkPayouts
  rw [← h.getBetPayouts .atHand, ← h.params]
  cases hdue : PwrbCore.getBetPayouts env sources chain height with
  | none => rfl
  | some due =>
    dsimp only
    rw [← h.isBlockPayoutsValid .atHand hdue]
    split_ifs with hrefused hnet
    · rfl
    · have hused : Consulted env sources downloaded chain block height downloaded :=
        .downloaded hnet hdue hrefused.1
      rw [← h.getBetPayouts hused]
      cases hdue' : PwrbCore.getBetPayouts env downloaded chain height with
      | none => rfl
      | some due' =>
        dsimp only
        rw [← h.isBlockPayoutsValid hused hdue']
    · rfl

end LookupsAgree

end PwrbCore
