/-
  Betting.SinglePayment — HOW OFTEN A WINNING BET IS PAID over a whole chain.

  Nothing records that a bet was paid; every payout height derives it again from block
  times and outputs.  A run is a chain built block by block, each block accepted by the
  payout section of `ConnectBlock` with whatever result sources and transaction lookups the
  node had at that moment.
-/
import Mathlib.Algebra.Order.BigOperators.Group.List
import Mathlib.Data.List.Flatten
import PwrbCore.Betting.Lookups
import PwrbCore.Chain.BlockTime

namespace PwrbCore

open ConsensusParams List BetEnv

/-! ## §1. Runs. -/

variable {chain : List CBlock} {latestDrawStartTime height amount : Int} {tx : CTransaction}
    {i j n : Nat} {slip : BetSlip}
  {date : List Char} {l : List Nat} {f : Nat → CBlock}

/-- One block of the main chain with what the node had when it connected it: transaction lookups, result sources
before and after the download, clock. -/
structure PayoutStep where
  getTransaction : Uint256 → Option CTransaction
  sources : ResultSources
  downloaded : ResultSources
  now : Int
  block : CBlock

variable {s t : PayoutStep}

section Run

variable (hash160 : List UInt8 → Uint160)

def PayoutStep.env (s : PayoutStep) : BetEnv := ⟨.mainNet, hash160, s.getTransaction⟩

section

variable (s : PayoutStep) (chain : List CBlock)

/-- The block passes the time check and the payout section of `ConnectBlock`. -/
def PayoutStep.Accepted : Prop :=
  checkBlockTime .mainNet s.now chain s.block = true ∧
    ∃ nPayout, checkPayouts (s.env hash160) s.sources s.downloaded chain s.block chain.length = .accepted nPayout

def chainOf (steps : List PayoutStep) : List CBlock := steps.map PayoutStep.block

/-- Every block was accepted on top of the blocks before it. -/
def PayoutRun (steps : List PayoutStep) : Prop :=
  ∀ (i : Nat) (s : PayoutStep), steps[i]? = some s → s.Accepted hash160 ((chainOf steps).take i)

def PayoutStep.used : ResultSources :=
  usedSources (s.env hash160) s.sources s.downloaded chain s.block chain.length

def PayoutStep.result : Option DrawResult :=
  chain.getLast?.bind fun tip => (latestDrawDate tip.nTime).bind (drawResult (s.used hash160 chain))

def PayoutStep.due : List CBetOut :=
  (getBetPayouts (s.env hash160) (s.used hash160 chain) chain chain.length).getD []

/-- The bet payouts a block mints: its coinstake beyond the staking outputs, without the development reward (the last
output). -/
def PayoutStep.paid : List CTxOut :=
  if s.due hash160 chain = [] then []
  else
    match s.block.vtx[1]? with
    | none => []
    | some tx =>
      if (s.env hash160).NoBetPayout tx chain.length then []
      else ((s.env hash160).payoutOutputs tx chain.length).dropLast

/-- How many outputs of the step pay `amount` to `payee` for the draw dated `date`. -/
def PayoutStep.paidCount (date : List Char) (payee : CTxDestination) (amount : Int) : Nat :=
  if (s.result hash160 chain).map DrawResult.date = some date then
    (s.paid hash160 chain).countP fun o =>
      decide (o.nValue = amount ∧ destinationOf hash160 o.scriptPubKey = payee)
  else 0

/-- How many payouts of `amount` to `payee` are minted for the draw dated `date`. -/
def paidCount (steps : List PayoutStep) (date : List Char) (payee : CTxDestination) (amount : Int) : Nat :=
  (steps.mapIdx fun i s => s.paidCount hash160 ((chainOf steps).take i) date payee amount).sum

/-- The bet is for the draw dated `date` and wins `amount` under the result of a step. -/
def PayoutStep.winsAt (date : List Char) (amount : Int) (slip : BetSlip) : Bool :=
  match chain.getLast?, s.result hash160 chain with
  | some tip, some result =>
    decide (result.date = date ∧ slip.wins .mainNet result (lastdrawtime tip.nTime) = some amount)
  | _, _ => false

end

/-- How many bet outputs of the chain win `amount` for `payee` in the draw dated `date`; `txOf` maps ids to
transactions. -/
def winningCount (txOf : Uint256 → Option CTransaction) (steps : List PayoutStep) (date : List Char)
    (payee : CTxDestination) (amount : Int) : Nat :=
  (betSlips (chainOf steps)).countP fun slip =>
    decide (BetEnv.payoutAddress ⟨.mainNet, hash160, txOf⟩ slip.tx = payee) &&
      (steps.mapIdx fun i s => s.winsAt hash160 ((chainOf steps).take i) date amount slip).any id

/-! ## §2. The condition on a step. -/

/-- What a step needs so that no bet is paid twice. -/
structure PayoutStep.Sound (txOf : Uint256 → Option CTransaction) (s : PayoutStep)
    (chain : List CBlock) : Prop where
  /-- the lookups find the transactions that first inputs refer to -/
  lookups : ∀ tx ∈ (chain ++ [s.block]).flatMap CBlock.vtx, ∀ txin ∈ tx.vin.head?,
    s.getTransaction txin.prevout.hash = txOf txin.prevout.hash
  /-- at a payout height the result is that of the last draw -/
  dated : ∀ tip result, chain.getLast? = some tip → 1500 < chain.length →
    payoutGate chain.length tip.nTime → s.result hash160 chain = some result →
      result.date = drawDateStr (lastDrawDay tip.nTime)
  /-- the block does not exploit the one-sided comparison of the payout check -/
  exact : ∀ tx, s.block.vtx[1]? = some tx → ¬ (s.env hash160).OneSidedMismatch
    (getBlockPayouts .mainNet (s.due hash160 chain)).2 tx chain.length

/-! ## §3. One step. -/

/-- A scan behind the payouts due at a step. -/
abbrev PayoutStep.Scan (s : PayoutStep) (chain : List CBlock) : Type :=
  PayoutScan (s.env hash160) (s.used hash160 chain) chain chain.length

variable {hash160} {txOf : Uint256 → Option CTransaction}

theorem PayoutStep.Accepted.due_eq (hacc : s.Accepted hash160 chain) :
    getBetPayouts (s.env hash160) (s.used hash160 chain) chain chain.length = some (s.due hash160 chain) ∧
      isBlockPayoutsValid (s.env hash160) (getBlockPayouts .mainNet
          (s.due hash160 chain)).2 s.block chain.length = true := by
  obtain ⟨-, nPayout, hcheck⟩ := hacc
  obtain ⟨v, hv, hvalid, -⟩ := checkPayouts_accepted (by simp [env, mainNet]) hcheck
  have hsame : s.due hash160 chain = v := by
    unfold due used
    rw [hv]
    rfl
  rw [hsame]
  exact ⟨hv, hvalid⟩

/-- **Inversion of an accepted step** that has payouts due: the scan behind them. -/
theorem PayoutStep.Accepted.scan (hacc : s.Accepted hash160 chain) (hdue : s.due hash160 chain ≠ []) :
    ∃ scan : s.Scan hash160 chain, s.due hash160 chain = (s.env hash160).pendingPayouts scan.expected scan.completed ∧
      s.result hash160 chain = some scan.result := by
  obtain ⟨scan, hscan⟩ := getBetPayouts_eq_some hacc.due_eq.1 hdue
  refine ⟨scan, hscan, ?_⟩
  show chain.getLast?.bind _ = _
  rw [scan.tip_eq, Option.bind_some, scan.date_eq]
  exact scan.result_eq

/-- **What an accepted step pays** is what was due, or nothing. -/
theorem PayoutStep.Accepted.paid_eq (hacc : s.Accepted hash160 chain)
    (hsound : s.Sound hash160 txOf chain) (hpaid : s.paid hash160 chain ≠ []) :
    s.due hash160 chain ≠ [] ∧ ∃ tx, s.block.vtx[1]? = some tx ∧
      s.paid hash160 chain = ((s.env hash160).payoutOutputs tx chain.length).dropLast ∧
      List.Forall₂ (fun e o => o.nValue = e.nValue ∧ (s.env hash160).dest o = (s.env hash160).dest e.toCTxOut)
        (s.due hash160 chain) (s.paid hash160 chain) := by
  have hvalid := hacc.due_eq.2
  have hdue : s.due hash160 chain ≠ [] := by grind [paid]
  refine ⟨hdue, ?_⟩
  have hvec : (getBlockPayouts (s.env hash160).params (s.due hash160 chain)).2 ≠ [] := by
    unfold getBlockPayouts
    rw [if_neg hdue]
    simp
  cases htx : s.block.vtx[1]? with
  | none =>
    apply absurd _ hpaid
    unfold paid
    rw [if_neg hdue, htx]
  | some tx =>
    have hno : ¬ (s.env hash160).NoBetPayout tx chain.length := by grind [paid]
    have heq : s.paid hash160 chain = ((s.env hash160).payoutOutputs tx chain.length).dropLast := by grind [paid]
    refine ⟨tx, rfl, heq, ?_⟩
    have hpays := ((s.env hash160).pays_expected_of_valid hvec htx (hsound.exact tx htx) hvalid).resolve_left hno
    -- the vector is the due payouts and the development reward
    unfold BetEnv.PaysExpected getBlockPayouts at hpays
    rw [if_neg hdue] at hpays
    have hlen := hpays.length_eq
    rw [length_append] at hlen
    have htake := forall₂_take (s.due hash160 chain).length hpays
    rw [take_left] at htake
    rw [heq, dropLast_eq_take, ← hlen]
    exact htake

theorem countP_eq_of_forall₂ {α β : Type} {R : α → β → Prop} {p : α → Bool} {q : β → Bool}
    {xs : List α} {ys : List β} (h : List.Forall₂ R xs ys) (hpq : ∀ x y, R x y → p x = q y) :
    xs.countP p = ys.countP q := by
  induction h with
  | nil => rfl
  | cons hxy _ ih => rw [countP_cons, countP_cons, ih, hpq _ _ hxy]

def isPayout (hash160 : List UInt8 → Uint160) (payee : CTxDestination) (amount : Int) (e : CBetOut) : Bool :=
  decide (e.nValue = amount ∧ destinationOf hash160 e.scriptPubKey = payee)

theorem PayoutStep.Accepted.countP_paid_le (hacc : s.Accepted hash160 chain)
    (hsound : s.Sound hash160 txOf chain) (payee : CTxDestination) (amount : Int) :
    (s.paid hash160 chain).countP (fun o => decide (o.nValue = amount ∧ destinationOf hash160 o.scriptPubKey = payee))
      ≤ (s.due hash160 chain).countP (isPayout hash160 payee amount) := by
  by_cases hpaid : s.paid hash160 chain = []
  · rw [hpaid]
    exact Nat.zero_le _
  obtain ⟨-, tx, -, -, hall⟩ := hacc.paid_eq hsound hpaid
  refine le_of_eq (countP_eq_of_forall₂ hall ?_).symm
  intro e o hpay
  obtain ⟨hvalue, hdest⟩ := hpay
  have hdest' : destinationOf hash160 o.scriptPubKey = destinationOf hash160 e.scriptPubKey := hdest
  unfold isPayout
  rw [hvalue, hdest']

theorem BetEnv.pendingPayouts_sublist (env : BetEnv) (vExpectedPayouts vCompletedPayouts : List CBetOut) :
    (env.pendingPayouts vExpectedPayouts vCompletedPayouts).Sublist vExpectedPayouts := by
  unfold pendingPayouts
  split_ifs
  · exact filter_sublist
  · exact nil_sublist _

/-- Expected payouts of `amount` to `payee`, counted at the bets. -/
theorem countP_expectedPayouts {env : BetEnv} {result : DrawResult}
    {blocks : List CBlock} {vExpectedPayouts : List CBetOut}
    (h : env.expectedPayouts result latestDrawStartTime blocks = some vExpectedPayouts)
    (payee : CTxDestination) (amount : Int) : vExpectedPayouts.countP (isPayout env.hash160 payee amount)
      = (betSlips blocks).countP fun slip => decide (env.payoutAddress slip.tx = payee) &&
            decide (slip.wins env.params result latestDrawStartTime = some amount) := by
  rw [expectedPayouts_eq_some h, countP_filterMap]
  refine countP_congr fun slip _ => ?_
  cases hwin : slip.wins env.params result latestDrawStartTime with
  | none => simp
  | some payout =>
    simp only [Option.map_some, Option.getD_some, isPayout, decide_eq_true_eq, Bool.and_eq_true,
      Option.some.injEq, destinationOf_getScriptForDestination]
    exact and_comm

theorem PayoutStep.Sound.agreeOn (hsound : s.Sound hash160 txOf chain)
    (htx : tx ∈ (chain ++ [s.block]).flatMap CBlock.vtx) : (s.env hash160).AgreeOn ⟨.mainNet, hash160, txOf⟩ tx :=
  hsound.lookups tx htx

/-! ## §4. Two steps. -/

variable {steps : List PayoutStep}

theorem getElem?_chainOf (h : steps[i]? = some s) : (chainOf steps)[i]? = some s.block := by
  unfold chainOf
  rw [getElem?_map, h]
  rfl

theorem length_take_chainOf (h : steps[i]? = some s) : ((chainOf steps).take i).length = i := by
  have hlt := (List.getElem?_eq_some_iff.mp (getElem?_chainOf h)).1
  rw [List.length_take, min_eq_left (by omega)]

theorem PayoutRun.timed (hrun : PayoutRun hash160 steps) : Timed .mainNet (chainOf steps) := by
  intro i block hi
  unfold chainOf at hi
  rw [getElem?_map, Option.map_eq_some_iff] at hi
  obtain ⟨s, hs, rfl⟩ := hi
  exact ⟨s.now, (hrun i s hs).1⟩

theorem payoutGate_mod {tipTime : Int} (h : payoutGate height tipTime) : height % 1500 = 0 := by
  rcases h with h | h
  · exact h.2.1
  · exact h.2.1

theorem PayoutWindow.bounds {params : ConsensusParams} (w : PayoutWindow params sources chain height)
    (hparams : params = .mainNet) : 3000 ≤ height ∧ 0 ≤ w.start ∧ w.start ≤ height := by
  subst hparams
  have hmod := payoutGate_mod w.gate
  have h := w.start_eq
  unfold traverseStart at h
  have hpow : mainNet.height_last_PoW = 200 := rfl
  have hspan : mainNet.nBetBlocksIndexTimespan = 10080 := rfl
  split_ifs at h with h1 h2
  · injection h with hstart
    omega
  · injection h with hstart
    omega

/-- Where the tip and the window of a scan lie on the chain of the run. -/
theorem scan_height (hi : steps[i]? = some s) (scan : s.Scan hash160 ((chainOf steps).take i)) :
    3000 ≤ i ∧ (chainOf steps)[i - 1]? = some scan.tip ∧ 0 ≤ scan.start := by
  have hlen := length_take_chainOf hi
  obtain ⟨hheight, hstart, -⟩ := scan.bounds rfl
  have hlast : ((chainOf steps).take i).getLast? = (chainOf steps)[i - 1]? := by grind
  exact ⟨by omega, hlast ▸ scan.tip_eq, hstart⟩

/-- A step that pays for a draw goes by the official date of the tip's last draw. -/
theorem PayoutStep.Sound.draw_eq (hsound : s.Sound hash160 txOf chain)
    (scan : s.Scan hash160 chain) (hresult : s.result hash160 chain = some scan.result)
    (hdate : scan.result.date = date) :
    drawDateStr (lastDrawDay scan.tip.nTime) = date := by
  have hheight := (scan.bounds rfl).1
  rw [← hdate]
  exact (hsound.dated scan.tip scan.result scan.tip_eq (by omega) scan.gate hresult).symm

/-! ## §5. The whole run. -/

/-- A positive count comes from a scan, a paid output and a due payout. -/
theorem PayoutRun.of_paidCount_pos (hrun : PayoutRun hash160 steps)
    (hi : steps[i]? = some s) (hsound : s.Sound hash160 txOf ((chainOf steps).take i)) {payee : CTxDestination}
    (hpos : s.paidCount hash160 ((chainOf steps).take i) date payee amount ≠ 0) :
    ∃ scan : s.Scan hash160 ((chainOf steps).take i), drawDateStr (lastDrawDay scan.tip.nTime) = date ∧
      (∃ o ∈ s.paid hash160 ((chainOf steps).take i),
        o.nValue = amount ∧ destinationOf hash160 o.scriptPubKey = payee) ∧
      ∃ e ∈ scan.expected, (s.env hash160).betPaid scan.completed e = false ∧
        e.nValue = amount ∧ destinationOf hash160 e.scriptPubKey = payee := by
  have hdate : (s.result hash160 ((chainOf steps).take i)).map DrawResult.date = some date := by
    grind [PayoutStep.paidCount]
  unfold PayoutStep.paidCount at hpos
  rw [if_pos hdate] at hpos
  obtain ⟨o, ho, hpays⟩ := countP_pos_iff.mp (Nat.pos_of_ne_zero hpos)
  rw [decide_eq_true_iff] at hpays
  have hacc := hrun i s hi
  have hdue := (hacc.paid_eq hsound (ne_nil_of_mem ho)).1
  obtain ⟨scan, hpending, hresult⟩ := hacc.scan hdue
  rw [hresult, Option.map_some, Option.some.injEq] at hdate
  refine ⟨scan, hsound.draw_eq scan hresult hdate, ⟨o, ho, hpays⟩, ?_⟩
  -- the paid output corresponds to a due payout, which was expected and not completed
  have hcount := lt_of_lt_of_le (Nat.pos_of_ne_zero hpos) (hacc.countP_paid_le hsound payee amount)
  obtain ⟨e, he, hpay⟩ := countP_pos_iff.mp hcount
  unfold isPayout at hpay
  rw [decide_eq_true_iff] at hpay
  rw [hpending] at he
  refine ⟨e, (pendingPayouts_sublist _ _ _).subset he, ?_, hpay⟩
  unfold pendingPayouts at he
  split_ifs at he
  · rw [mem_filter] at he
    simpa using he.2
  · cases he

section

variable (hrun : PayoutRun hash160 steps)
  (hsound : ∀ (i : Nat) (s : PayoutStep), steps[i]? = some s → s.Sound hash160 txOf ((chainOf steps).take i))
  (hij : i < j) (hi : steps[i]? = some s) (hj : steps[j]? = some t)

include hrun hsound hij hi hj

/-- **What one step paid, a later step of the same draw finds completed.** -/
theorem PayoutRun.completed_of_paid
    (scani : s.Scan hash160 ((chainOf steps).take i)) (scanj : t.Scan hash160 ((chainOf steps).take j))
    (hdraw : lastdrawtime scani.tip.nTime = lastdrawtime scanj.tip.nTime)
    (hslip : slip ∈ betSlips (((chainOf steps).take j).drop scanj.start.toNat))
    (hwins : slip.wins .mainNet scanj.result (lastdrawtime scanj.tip.nTime) = some amount)
    {o : CTxOut} (ho : o ∈ s.paid hash160 ((chainOf steps).take i)) : (⟨o, 0⟩ : CBetOut) ∈ scanj.completed := by
  obtain ⟨hi3000, htipi, -⟩ := scan_height hi scani
  obtain ⟨-, -, hstartj⟩ := scan_height hj scanj
  have hlast := lastdrawtime_le scani.tip.nTime
  have hnet : mainNet.network ≠ .regtest := by decide
  have hv2 : mainNet.height_start_TimeProtoV2 = 2100 := rfl
  -- the bet stands before block `i`, because it was placed before the draw
  obtain ⟨k, block, hk, htime, -⟩ := mem_betSlips hslip
  have hbefore : scanj.start.toNat + k < i := by
    by_contra hge
    rw [getElem?_drop, getElem?_take] at hk
    split_ifs at hk with hlt
    have hlater := hrun.timed.lt_of_lt hnet (by omega) (by omega : i - 1 < _) htipi hk
    obtain ⟨-, -, -, hcut, -⟩ := BetSlip.wins_eq_some hwins
    have htimeout : mainNet.nBetPlaceTimeoutBlocks = 6600 := rfl
    omega
  -- so block `i` is in the window, and it is younger than the draw
  have hwindow : (((chainOf steps).take j).drop scanj.start.toNat)[i - scanj.start.toNat]?
      = some s.block := by
    rw [getElem?_drop, getElem?_take_of_lt (by omega), show scanj.start.toNat + (i - scanj.start.toNat) = i by omega]
    exact getElem?_chainOf hi
  have hyounger := hrun.timed.lt_of_lt hnet (by omega) (by omega : i - 1 < i) htipi
    (getElem?_chainOf hi)
  obtain ⟨-, tx, htx, hpaid, -⟩ := (hrun i s hi).paid_eq (hsound i s hi) (ne_nil_of_mem ho)
  rw [hpaid, length_take_chainOf hi] at ho
  -- both steps see the same staking prefix in the coinstake
  have hmem : tx ∈ s.block.vtx := mem_of_getElem? htx
  have hmemj : s.block ∈ (chainOf steps).take j := by grind
  have hsame : (s.env hash160).payoutOutputs tx i = (t.env hash160).payoutOutputs tx i := by
    rw [((hsound i s hi).agreeOn ?_).payoutOutputs, ((hsound j t hj).agreeOn ?_).payoutOutputs]
    · exact mem_flatMap.mpr ⟨s.block, mem_append_left _ hmemj, hmem⟩
    · exact mem_flatMap.mpr ⟨s.block, by simp, hmem⟩
  have hheight : scanj.start + ((i - scanj.start.toNat : Nat) : Int) = i := by omega
  rw [hsame, ← hheight] at ho
  exact mem_completedPayouts.mpr ⟨_, _, hwindow, mem_completedOf htx (by omega) ho⟩

/-- **No two steps pay the same amount to the same payee for the same draw.** -/
theorem PayoutRun.exclusive
    (date : List Char) (payee : CTxDestination) (amount : Int) :
    s.paidCount hash160 ((chainOf steps).take i) date payee amount = 0 ∨
      t.paidCount hash160 ((chainOf steps).take j) date payee amount = 0 := by
  by_contra hboth
  rw [not_or] at hboth
  obtain ⟨scani, hdatei, ⟨o, ho, hovalue, hodest⟩, -⟩ :=
    hrun.of_paidCount_pos hi (hsound i s hi) hboth.1
  obtain ⟨scanj, hdatej, -, e, he, hunpaid, hevalue, hedest⟩ :=
    hrun.of_paidCount_pos hj (hsound j t hj) hboth.2
  have hday : lastDrawDay scani.tip.nTime = lastDrawDay scanj.tip.nTime :=
    drawDateStr_injective (hdatei.trans hdatej.symm)
  -- the expected payout comes from a winning bet in the window of `j`
  rw [expectedPayouts_eq_some scanj.expected_eq, mem_filterMap] at he
  obtain ⟨slip, hslip, hentry⟩ := he
  rw [Option.map_eq_some_iff] at hentry
  obtain ⟨won, hwins, -⟩ := hentry
  have hcompleted := hrun.completed_of_paid hsound hij hi hj scani scanj (lastdrawtime_inj.mpr hday)
    hslip hwins ho
  have hpaid : (t.env hash160).betPaid scanj.completed e = true := by
    unfold betPaid
    rw [any_eq_true]
    refine ⟨⟨o, 0⟩, hcompleted, ?_⟩
    rw [Bool.and_eq_true, beq_iff_eq, beq_iff_eq]
    exact ⟨hovalue.trans hevalue.symm, hodest.trans hedest.symm⟩
  rw [hunpaid] at hpaid
  cases hpaid

end

/-- The payouts of one step are bounded by the winning bets on the chain. -/
theorem PayoutRun.paidCount_le (hrun : PayoutRun hash160 steps) (hi : steps[i]? = some s)
    (hsound : s.Sound hash160 txOf ((chainOf steps).take i)) (date : List Char)
    (payee : CTxDestination) (amount : Int) : s.paidCount hash160 ((chainOf steps).take i) date payee amount
      ≤ winningCount hash160 txOf steps date payee amount := by
  by_cases hdate : (s.result hash160 ((chainOf steps).take i)).map DrawResult.date = some date
  · have hacc := hrun i s hi
    unfold PayoutStep.paidCount
    rw [if_pos hdate]
    refine le_trans (hacc.countP_paid_le hsound payee amount) ?_
    by_cases hdue : s.due hash160 ((chainOf steps).take i) = []
    · rw [hdue]
      exact Nat.zero_le _
    obtain ⟨scan, hpending, hresult⟩ := hacc.scan hdue
    rw [hresult, Option.map_some, Option.some.injEq] at hdate
    have hwindow : (((chainOf steps).take i).drop scan.start.toNat).Sublist (chainOf steps) :=
      (List.drop_sublist _ _).trans (List.take_sublist _ _)
    calc (s.due hash160 ((chainOf steps).take i)).countP (isPayout hash160 payee amount)
        ≤ scan.expected.countP (isPayout hash160 payee amount) := by
          rw [hpending]
          exact (BetEnv.pendingPayouts_sublist _ _ _).countP_le
      _ = (betSlips (((chainOf steps).take i).drop scan.start.toNat)).countP (fun slip =>
            decide ((s.env hash160).payoutAddress slip.tx = payee) &&
              decide (slip.wins .mainNet scan.result (lastdrawtime scan.tip.nTime) = some amount)) :=
          countP_expectedPayouts scan.expected_eq payee amount
      _ ≤ (betSlips (((chainOf steps).take i).drop scan.start.toNat)).countP (fun slip =>
            decide (BetEnv.payoutAddress ⟨.mainNet, hash160, txOf⟩ slip.tx = payee) &&
              (steps.mapIdx fun k u =>
                u.winsAt hash160 ((chainOf steps).take k) date amount slip).any id) := by
          refine List.countP_mono_left fun slip hslip hboth => ?_
          rw [Bool.and_eq_true, decide_eq_true_iff, decide_eq_true_iff] at hboth
          obtain ⟨k, block, hk, -, htx⟩ := mem_betSlips hslip
          have hin : slip.tx ∈ ((chainOf steps).take i ++ [s.block]).flatMap CBlock.vtx :=
            mem_flatMap.mpr ⟨block, mem_append_left _ (mem_of_mem_drop (mem_of_getElem? hk)), htx⟩
          rw [Bool.and_eq_true, decide_eq_true_iff, ← (hsound.agreeOn hin).payoutAddress rfl, List.any_eq_true]
          refine ⟨hboth.1, true, ?_, rfl⟩
          rw [List.mem_mapIdx]
          obtain ⟨hlt, hget⟩ := List.getElem?_eq_some_iff.mp hi
          refine ⟨i, hlt, ?_⟩
          rw [hget]
          unfold PayoutStep.winsAt
          rw [scan.tip_eq, hresult]
          exact decide_eq_true ⟨hdate, hboth.2⟩
      _ ≤ winningCount hash160 txOf steps date payee amount :=
          (hwindow.flatMap _).countP_le
  · unfold PayoutStep.paidCount
    rw [if_neg hdate]
    exact Nat.zero_le _

/-- A sum in which no two terms are positive is bounded by what bounds each term. -/
theorem sum_le_of_exclusive {bound : Nat}
    (hexcl : l.Pairwise fun x y => x = 0 ∨ y = 0) (hbound : ∀ x ∈ l, x ≤ bound) : l.sum ≤ bound := by
  induction l with
  | nil => exact Nat.zero_le _
  | cons x l ih =>
    rw [pairwise_cons] at hexcl
    rw [sum_cons]
    by_cases hx : x = 0
    · rw [hx, Nat.zero_add]
      exact ih hexcl.2 fun y hy => hbound y (mem_cons_of_mem _ hy)
    have hrest : l.sum = 0 :=
      sum_eq_zero fun y hy => (hexcl.1 y hy).resolve_left hx
    rw [hrest]
    exact hbound x mem_cons_self

/-- **Each winning bet is paid at most once.** In a run of sound steps, for every draw date, payee and amount, the
payouts minted do not exceed the winning bets of that draw. -/
theorem payouts_le_winning_bets (hash160 : List UInt8 → Uint160)
    (txOf : Uint256 → Option CTransaction) (steps : List PayoutStep) (hrun : PayoutRun hash160 steps)
    (hsound : ∀ (i : Nat) (s : PayoutStep), steps[i]? = some s → s.Sound hash160 txOf ((chainOf steps).take i))
    (date : List Char) (payee : CTxDestination) (amount : Int) :
    paidCount hash160 steps date payee amount ≤ winningCount hash160 txOf steps date payee amount := by
  apply sum_le_of_exclusive
  · rw [pairwise_iff_getElem]
    intro i j hi hj hij
    rw [length_mapIdx] at hi hj
    rw [getElem_mapIdx, getElem_mapIdx]
    exact hrun.exclusive hsound hij (getElem?_eq_getElem hi) (getElem?_eq_getElem hj)
      date payee amount
  · intro x hx
    rw [mem_mapIdx] at hx
    obtain ⟨i, hi, rfl⟩ := hx
    have hget := getElem?_eq_getElem hi
    exact hrun.paidCount_le hget (hsound i _ hget) date payee amount

end Run

/-! ### A bet paid for two draws.

A chain of one bet.  The node never gets a results file and SPORK_19 stays at the result of
3 October 2020.  The payout height 3000 pays the bet; at height 4500 the next draw has
taken place, so the payout at height 3000 is older than the last draw and not counted as
completed, while the bet still carries the date of the spork. -/

/-- The premine: the bettor's output and five coins to stake per height. -/
def premineTx : CTransaction :=
  { hash := 7
    vin := [coinbaseIn]
    vout := ⟨10 * COIN, payTo 1⟩
      :: List.replicate 5000 ⟨5 * COIN, payTo 9⟩ }

def premineLookup (hash : Uint256) : Option CTransaction := if hash = 7 then some premineTx else none

/-- One coin on the number 5 in the draw of 3 October 2020. -/
def betTx : CTransaction :=
  { hash := 12
    vin := [.of 7 0]
    vout := [⟨1 * COIN, OP_RETURN :: CScript.pushData
      [0x42, 1, 1, 0x2b, 0x3e, 0x34, 0x01, 5, 0, 0, 0, 0, 0]⟩] }

/-- Increasing slot times: the bet (height 2990) before the draw of 3 October, heights 2999 and 4499 more than sixteen
hours after that draw and the next. -/
def sampleTime (i : Nat) : Nat :=
  if i ≤ 2990 then 1601728650 + 15 * i
  else if i ≤ 3000 then 1601793015 + 15 * i
  else 1602116070 + 15 * i

/-- The staker's outputs at height `i`, and the payouts at the two payout heights. -/
def sampleCoinstake (i : Nat) : CTransaction :=
  { hash := BitVec.ofNat 256 (20000 + i)
    vin := [.of 7 i]
    vout := [⟨0, []⟩, ⟨6 * COIN, payTo 9⟩]
      ++ if i = 3000 ∨ i = 4500 then
          [⟨12 * COIN, payTo 1⟩,
            ⟨60000000, getScriptForDestination ConsensusParams.mainNet.devPayout⟩]
        else [] }

def sampleCoinbase (i : Nat) : CTransaction :=
  { hash := BitVec.ofNat 256 (40000 + i)
    vin := [coinbaseIn]
    vout := [⟨if i ≤ 200 then COIN else 0, []⟩] }

/-- Proof-of-work blocks up to height 200 (premine at height 1), then staked ones. -/
def sampleBlock (i : Nat) : CBlock :=
  { hash := BitVec.ofNat 256 (60000 + i)
    hashPrevBlock := BitVec.ofNat 256 (60000 + i - 1)
    nTime := sampleTime i
    vtx :=
      if i = 1 then [premineTx]
      else if i ≤ 200 then [sampleCoinbase i]
      else if i = 2990 then [sampleCoinbase i, sampleCoinstake i, betTx]
      else [sampleCoinbase i, sampleCoinstake i] }

/-- No results file; the spork says 5, 11, 22, 33, 44 for 3 October 2020. -/
abbrev octoberSpork : ResultSources := { spork19 := 202010030511223344 }

def sampleStep (i : Nat) : PayoutStep where
  getTransaction := premineLookup
  sources := octoberSpork
  downloaded := octoberSpork
  now := sampleTime i
  block := sampleBlock i

def sampleRun (n : Nat) : List PayoutStep := (List.range n).map sampleStep

def sampleHash160 : List UInt8 → Uint160 := fun _ => sampleKey 0

theorem sampleTime_lt (h : i < j) : sampleTime i < sampleTime j := by
  unfold sampleTime
  split_ifs <;> omega

theorem sampleTime_slot (i : Nat) : sampleTime i % 15 = 0 := by
  unfold sampleTime
  split_ifs <;> omega

theorem getElem?_sampleRun (h : i < n) : (sampleRun n)[i]? = some (sampleStep i) := by
  unfold sampleRun
  rw [getElem?_map, getElem?_range h]
  rfl

theorem take_chainOf_sampleRun (h : i ≤ n) : (chainOf (sampleRun n)).take i = (range i).map sampleBlock := by
  unfold chainOf sampleRun
  rw [map_map, ← map_take, take_range, min_eq_left h]
  rfl

theorem opReturnCount_sampleBlock (i : Nat) : opReturnCount (sampleBlock i) = if i = 2990 then 1 else 0 := by
  have hpremine : premineTx.vout.countP (fun o => isOpReturnAsm o.scriptPubKey) = 0 := by
    unfold premineTx
    rw [countP_cons, countP_replicate]
    rfl
  have hcoinbase : (sampleCoinbase i).vout.countP (fun o => isOpReturnAsm o.scriptPubKey) = 0 := by
    rfl
  have hcoinstake : (sampleCoinstake i).vout.countP (fun o => isOpReturnAsm o.scriptPubKey) = 0 := by
    unfold sampleCoinstake
    split_ifs <;> rfl
  have hbet : betTx.vout.countP (fun o => isOpReturnAsm o.scriptPubKey) = 1 := by
    rfl
  unfold opReturnCount sampleBlock
  split_ifs with h1 h2 h3 h4 h5 <;>
    simp only [flatMap_cons, flatMap_nil, append_nil, countP_append] <;> omega

section Sample

def chainEnv : BetEnv := ⟨.mainNet, sampleHash160, premineLookup⟩

theorem sample_numStakingTx {height : Int} (h1 : 1 < height) (h2 : 0 < i) (h3 : i ≤ 5000) :
    chainEnv.numStakingTx (sampleCoinstake i) height = 2 := by
  have hstake : chainEnv.stakeAmount (sampleCoinstake i) = 5 * COIN := by
    have hget : premineTx.vout[i]?
        = some ⟨5 * COIN, payTo 9⟩ := by grind [premineTx]
    show ((premineTx.vout[i]?).map CTxOut.nValue).getD 0 = _
    rw [hget]
    rfl
  have hvalue : getBlockValue height = 1 * COIN := by
    unfold getBlockValue
    rw [if_neg (by omega)]
  unfold numStakingTx stakingTarget
  rw [hstake, hvalue]
  unfold sampleCoinstake
  dsimp only
  split_ifs <;> decide

theorem sample_payoutOutputs {height : Int} (h1 : 1 < height) (h2 : 0 < i) (h3 : i ≤ 5000) :
    chainEnv.payoutOutputs (sampleCoinstake i) height
      = if i = 3000 ∨ i = 4500 then [⟨12 * COIN, payTo 1⟩,
            ⟨60000000, getScriptForDestination mainNet.devPayout⟩] else [] := by
  unfold payoutOutputs
  rw [sample_numStakingTx h1 h2 h3]
  rfl

theorem sampleBlock_vtx_one (h : 200 < i) : (sampleBlock i).vtx[1]? = some (sampleCoinstake i) := by
  unfold sampleBlock
  rw [if_neg (by omega), if_neg (by omega)]
  split_ifs <;> rfl

/-- Only the two payout blocks complete anything, and only when not older than the draw. -/
theorem sample_completedOf (h1 : 200 < i) (h2 : i < 4500)
    (hold : i = 3000 → (sampleTime 3000 : Int) < latestDrawStartTime) :
    chainEnv.completedOf latestDrawStartTime i (sampleBlock i) = [] := by
  unfold completedOf
  rw [sampleBlock_vtx_one h1]
  dsimp only
  split_ifs with hyoung
  · have hne : ¬ (i = 3000 ∨ i = 4500) := by
      intro hi
      have hi3000 : i = 3000 := by omega
      have htime : ((sampleBlock i).nTime : Int) = sampleTime 3000 := by rw [hi3000]; rfl
      omega
    rw [sample_payoutOutputs (by omega) (by omega) (by omega), if_neg hne]
    rfl
  · rfl

def sampleEntry : CBetOut :=
  { nValue := 12 * COIN
    scriptPubKey := payTo 1
    nBetValue := 1 * COIN }

def sampleResult : DrawResult :=
  ⟨"20201003".toList, ["5".toList, "11".toList, "22".toList, "33".toList, "44".toList]⟩

section Window

variable {env : BetEnv}

theorem getLast?_chain (h : 0 < i) : ((range i).map f).getLast? = some (f (i - 1)) := by
  rw [getLast?_eq_getElem?, getElem?_map, length_map, length_range, getElem?_range (by omega)]
  rfl

theorem getElem?_window (i k : Nat) (b : CBlock) :
    (((range i).map f).drop 201)[k]? = some b ↔ 201 + k < i ∧ f (201 + k) = b := by
  rw [getElem?_drop, getElem?_map]
  by_cases h : 201 + k < i
  · rw [getElem?_range h]
    simp [h]
  · rw [getElem?_eq_none (by rw [length_range]; omega)]
    simp [h]

/-- A chain with bets in block 2990 only. -/
theorem window_expectedPayouts (result : DrawResult) (latestDrawStartTime : Int) (hi : 2990 < i)
    (hquiet : ∀ j, 200 < j → j ≠ 2990 → opReturnCount (f j) = 0) :
    env.expectedPayouts result latestDrawStartTime (((range i).map f).drop 201)
      = env.expectedPayouts result latestDrawStartTime [f 2990] := by
  refine env.expectedPayouts_single result latestDrawStartTime
    ((getElem?_window i 2789 _).mpr ⟨by omega, rfl⟩) fun j b hj hne => ?_
  obtain ⟨-, rfl⟩ := (getElem?_window i j b).mp hj
  exact hquiet _ (by omega) (by omega)

theorem window_completedPayouts (h : ∀ j : Nat, 200 < j → j < i → env.completedOf latestDrawStartTime j (f j) = []) :
    env.completedPayouts latestDrawStartTime 201 (((range i).map f).drop 201) = [] := by
  refine env.completedPayouts_eq_nil fun k block hk => ?_
  obtain ⟨hlt, rfl⟩ := (getElem?_window i k block).mp hk
  exact h (201 + k) (by omega) hlt

end Window

/-- For either draw the scan of a long enough chain finds the bet. -/
theorem sample_expectedPayouts (hi : 2990 < i)
    (hdraw : latestDrawStartTime = 1601780340 ∨ latestDrawStartTime = 1602125940) :
    chainEnv.expectedPayouts sampleResult latestDrawStartTime
        (((range i).map sampleBlock).drop 201) = some [sampleEntry] := by
  rw [window_expectedPayouts _ _ hi fun j _ hj => by rw [opReturnCount_sampleBlock, if_neg hj]]
  rcases hdraw with rfl | rfl <;> decide

/-- What `GetBetPayouts` does at height 3000 on top of block 2999 of the sample chain. -/
theorem getBetPayouts_after_draw {env : BetEnv} (hparams : env.params = .mainNet)
    (htip : chain.getLast? = some (sampleBlock 2999)) (sources : ResultSources) :
    getBetPayouts env sources chain 3000 = (drawResult sources "2020-10-03".toList).bind fun result =>
        (env.expectedPayouts result 1601780340 (chain.drop 201)).bind fun expected =>
          some (env.pendingPayouts expected (env.completedPayouts 1601780340 201 (chain.drop 201))) := by
  have hgate : payoutGate 3000 (sampleBlock 2999).nTime := by decide
  unfold getBetPayouts
  rw [htip]
  dsimp only
  rw [if_pos hgate, hparams]
  rfl

/-- With the spork of 3 October 2020, on a chain with bets in block 2990 only. -/
theorem oneBet_getBetPayouts {env : BetEnv} {entry : CBetOut} (hparams : env.params = .mainNet)
    (hquiet : ∀ j, 200 < j → j ≠ 2990 → opReturnCount (f j) = 0) (htip : f 2999 = sampleBlock 2999)
    (hbet : env.expectedPayouts sampleResult 1601780340 [f 2990] = some [entry]) :
    getBetPayouts env octoberSpork ((range 3000).map f) 3000 = some (env.pendingPayouts [entry]
      (env.completedPayouts 1601780340 201 (((range 3000).map f).drop 201))) := by
  have hresult : drawResult octoberSpork "2020-10-03".toList = some sampleResult := by decide
  rw [getBetPayouts_after_draw hparams ((getLast?_chain (by decide)).trans (congrArg some htip)),
    hresult, Option.bind_some,
    window_expectedPayouts _ _ (by decide) hquiet, hbet, Option.bind_some]

/-- The payouts due along the sample chain: the bet at both payout heights. -/
theorem sample_getBetPayouts (hi : i ≤ 4500) :
    getBetPayouts chainEnv octoberSpork ((range i).map sampleBlock) i
      = some (if i = 3000 ∨ i = 4500 then [sampleEntry] else []) := by
  unfold getBetPayouts
  by_cases hzero : i = 0
  · subst hzero
    rfl
  rw [getLast?_chain (by omega)]
  dsimp only
  by_cases hgate : payoutGate i (sampleBlock (i - 1)).nTime
  · have hmod := payoutGate_mod hgate
    have hthree : i = 1500 ∨ (i = 3000 ∨ i = 4500) := by omega
    have hcompleted : ∀ {T : Int}, (i = 4500 → (sampleTime 3000 : Int) < T) →
        chainEnv.completedPayouts T 201 (((range i).map sampleBlock).drop 201) = [] := by
      intro T hold
      exact window_completedPayouts fun j hj hlt => sample_completedOf hj (by omega) fun h3000 => hold (by omega)
    rcases hthree with rfl | hpaying
    · rfl
    -- the tip tells the draw; the spork stays at the first one
    have hstart : traverseStart chainEnv.params (i : Int) = some 201 := by rcases hpaying with rfl | rfl <;> decide
    obtain ⟨date, T, hdate, hlast, hresult, hT, hold⟩ :
      ∃ date T, latestDrawDate (sampleBlock (i - 1)).nTime = some date ∧
        lastdrawtime (sampleBlock (i - 1)).nTime = T ∧
        drawResult octoberSpork date = some sampleResult ∧ (T = 1601780340 ∨ T = 1602125940) ∧
        (i = 4500 → (sampleTime 3000 : Int) < T) := by
      rcases hpaying with rfl | rfl
      · exact ⟨"2020-10-03".toList, 1601780340, by decide, by decide, by decide, .inl rfl, by omega⟩
      · exact ⟨"2020-10-07".toList, 1602125940, by decide, by decide, by decide, .inr rfl, by intro; decide⟩
    rw [if_pos hgate, hstart]
    dsimp only
    rw [hdate, hlast, Option.bind_eq_bind, Option.bind_some, hresult, Option.bind_eq_bind, Option.bind_some,
      show (201 : Int).toNat = 201 from rfl, sample_expectedPayouts (by omega) hT, hcompleted hold, if_pos hpaying]
    decide
  · rw [if_neg hgate, if_neg]
    rintro (rfl | rfl)
    · exact hgate (by decide)
    · exact hgate (by decide)

/-- The payout blocks pay the entry and the development reward. -/
theorem sample_paysExpected (hi : i = 3000 ∨ i = 4500) :
    chainEnv.PaysExpected (getBlockPayouts .mainNet [sampleEntry]).2 (sampleCoinstake i) i := by
  unfold BetEnv.PaysExpected
  rw [sample_payoutOutputs (by omega) (by omega) (by omega), if_pos hi]
  decide

theorem sample_valid (hi : i ≤ 4500) : isBlockPayoutsValid chainEnv
      (getBlockPayouts .mainNet (if i = 3000 ∨ i = 4500 then [sampleEntry] else [])).2 (sampleBlock i) i = true := by
  by_cases hpay : i = 3000 ∨ i = 4500
  · rw [if_pos hpay]
    have hnonempty : (getBlockPayouts .mainNet [sampleEntry]).2 ≠ [] := by decide
    rw [isBlockPayoutsValid_eq_true_iff chainEnv i hnonempty (sampleBlock_vtx_one (by omega))]
    right
    refine ⟨⟨?_, ?_⟩, (sample_paysExpected hpay).imp fun _ _ h => .inl h.1⟩
    · rw [sample_numStakingTx (by omega) (by omega) (by omega)]
      unfold sampleCoinstake
      rw [if_pos hpay]
      rfl
    · rw [sample_payoutOutputs (by omega) (by omega) (by omega), if_pos hpay]
      decide
  · rw [if_neg hpay]
    rfl

theorem checkBlockTime_sample {block : CBlock} (h : block.nTime = sampleTime i) :
    checkBlockTime .mainNet block.nTime ((range i).map sampleBlock) block = true := by
  apply checkBlockTime_of_later
  · rw [h]
    unfold sampleTime
    split_ifs <;> omega
  · rw [h]
    exact sampleTime_slot i
  · intro b hb
    obtain ⟨j, hj, rfl⟩ := mem_map.mp hb
    rw [h]
    exact sampleTime_lt (mem_range.mp hj)

theorem sampleStep_accepted (hi : i ≤ 4500) : (sampleStep i).Accepted sampleHash160 ((range i).map sampleBlock) := by
  constructor
  · exact checkBlockTime_sample rfl
  · refine ⟨(getBlockPayouts .mainNet (if i = 3000 ∨ i = 4500 then [sampleEntry] else [])).1, ?_⟩
    rw [length_map, length_range]
    show checkPayouts chainEnv octoberSpork octoberSpork _
      (sampleBlock i) _ = _
    unfold checkPayouts
    rw [sample_getBetPayouts hi]
    dsimp only
    rw [if_neg]
    · rfl
    intro hbad
    have hvalid := sample_valid hi
    rw [show chainEnv.params = .mainNet from rfl, hvalid] at hbad
    exact absurd hbad.1 (by decide)

theorem sampleRun_accepted (hn : n ≤ 4501) : PayoutRun sampleHash160 (sampleRun n) := by
  intro i s hs
  have hlt : i < n := by grind [sampleRun]
  rw [getElem?_sampleRun hlt, Option.some.injEq] at hs
  subst hs
  rw [take_chainOf_sampleRun (by omega)]
  exact sampleStep_accepted (by omega)

theorem sample_used (i : Nat) (chain : List CBlock) :
    (sampleStep i).used sampleHash160 chain = octoberSpork := by
  unfold PayoutStep.used usedSources
  split
  · rfl
  · dsimp only
    split_ifs <;> rfl

theorem sample_due (hi : i ≤ 4500) : (sampleStep i).due sampleHash160 ((range i).map sampleBlock)
      = if i = 3000 ∨ i = 4500 then [sampleEntry] else [] := by
  unfold PayoutStep.due
  rw [sample_used, length_map, length_range,
    show (sampleStep i).env sampleHash160 = chainEnv from rfl, sample_getBetPayouts hi]
  rfl

theorem sample_result (hi : i = 3000 ∨ i = 4500) :
    (sampleStep i).result sampleHash160 ((range i).map sampleBlock) = some sampleResult := by
  unfold PayoutStep.result
  rw [getLast?_chain (by omega), sample_used]
  rcases hi with rfl | rfl <;> decide

/-- Both payout heights pay twelve coins to the bettor for 3 October 2020. -/
theorem sample_paidCount (hi : i = 3000 ∨ i = 4500) :
    (sampleStep i).paidCount sampleHash160 ((range i).map sampleBlock) "20201003".toList
      (.keyID (sampleKey 1)) (12 * COIN) = 1 := by
  have hno : ¬ chainEnv.NoBetPayout (sampleCoinstake i) i := by
    intro h
    have hcount := h.1
    rw [sample_numStakingTx (by omega) (by omega) (by omega)] at hcount
    unfold sampleCoinstake at hcount
    rw [if_pos hi] at hcount
    dsimp only at hcount
    exact absurd hcount (by decide)
  have hpaid : (sampleStep i).paid sampleHash160 ((range i).map sampleBlock)
      = [⟨12 * COIN, payTo 1⟩] := by
    unfold PayoutStep.paid
    rw [sample_due (by omega), if_pos hi, length_map, length_range]
    show (match (sampleBlock i).vtx[1]? with
      | none => []
      | some tx => if chainEnv.NoBetPayout tx i then [] else (chainEnv.payoutOutputs tx i).dropLast) = _
    rw [sampleBlock_vtx_one (by omega)]
    dsimp only
    rw [if_neg hno, sample_payoutOutputs (by omega) (by omega) (by omega), if_pos hi]
    rfl
  unfold PayoutStep.paidCount
  rw [sample_result hi, hpaid]
  decide

/-- The first payout height goes by the result of the draw that just took place. -/
theorem sampleStep_sound (hi : i ≤ 3000) :
    (sampleStep i).Sound sampleHash160 premineLookup ((range i).map sampleBlock) := by
  refine ⟨fun _ _ _ _ => rfl, ?_, ?_⟩
  · intro tip result htip hlong hgate hresult
    rw [length_map, length_range] at hlong hgate
    have hmod := payoutGate_mod hgate
    have hheight : i = 3000 := by omega
    rw [sample_result (.inl hheight), Option.some.injEq] at hresult
    rw [getLast?_chain (by omega), Option.some.injEq] at htip
    subst hresult htip hheight
    decide
  · intro tx htx hbad
    rw [sample_due (by omega), length_map, length_range] at hbad
    obtain ⟨-, -, hor, hnot⟩ := hbad
    by_cases hpay : i = 3000 ∨ i = 4500
    · rw [if_pos hpay] at hnot
      have htx' : some (sampleCoinstake i) = some tx := by
        rw [← sampleBlock_vtx_one (by omega : 200 < i)]
        exact htx
      cases htx'
      exact hnot (sample_paysExpected hpay)
    · rw [if_neg hpay] at hor hnot
      exact hnot (forall₂_nil_left_iff.mpr (forall₂_nil_left_iff.mp hor))

theorem PayoutStep.opReturn_of_winsAt {hash160 : List UInt8 → Uint160}
    (h : s.winsAt hash160 chain date amount slip = true) : isOpReturnAsm slip.txout.scriptPubKey = true := by
  unfold winsAt at h
  split at h
  · rw [decide_eq_true_iff] at h
    by_contra hplain
    rw [Bool.not_eq_true] at hplain
    have hwins := h.2
    unfold BetSlip.wins at hwins
    rw [betWinnings_of_not_opReturn hplain] at hwins
    cases hwins
  · cases h

/-- Up to the first payout height the sample chain is a sound run and pays the bet. -/
theorem sampleRun_pays_once :
    (sampleStep 3000).paidCount sampleHash160 ((chainOf (sampleRun 3001)).take 3000) "20201003".toList
        (.keyID (sampleKey 1)) (12 * COIN) = 1 ∧
      paidCount sampleHash160 (sampleRun 3001) "20201003".toList (.keyID (sampleKey 1)) (12 * COIN)
        ≤ winningCount sampleHash160 premineLookup (sampleRun 3001) "20201003".toList
          (.keyID (sampleKey 1)) (12 * COIN) := by
  constructor
  · rw [take_chainOf_sampleRun (by omega)]
    exact sample_paidCount (.inl rfl)
  refine payouts_le_winning_bets sampleHash160 premineLookup (sampleRun 3001)
    (sampleRun_accepted (by omega)) ?_ _ _ _
  intro i s hs
  have hlt : i < 3001 := by grind [sampleRun, length_map, length_range]
  rw [getElem?_sampleRun hlt, Option.some.injEq] at hs
  subst hs
  rw [take_chainOf_sampleRun (by omega)]
  exact sampleStep_sound (by omega)

theorem two_le_sum (hij : i < j) (hi : l[i]? = some 1) (hj : l[j]? = some 1) : 2 ≤ l.sum := by
  have hfirst : 1 ∈ l.take j := mem_of_getElem? (by rw [getElem?_take_of_lt hij]; exact hi)
  have hsecond : 1 ∈ l.drop j := by
    have hzero : (l.drop j)[0]? = some 1 := by
      rw [getElem?_drop]
      exact hj
    exact mem_of_getElem? hzero
  have h1 := le_sum_of_mem hfirst
  have h2 := le_sum_of_mem hsecond
  calc 2 ≤ (l.take j).sum + (l.drop j).sum := by omega
    _ = l.sum := sum_take_add_sum_drop l j

/-- The whole sample chain is accepted and pays its one winning bet twice. -/
theorem stale_spork_pays_twice : PayoutRun sampleHash160 (sampleRun 4501) ∧
      winningCount sampleHash160 premineLookup (sampleRun 4501) "20201003".toList (.keyID (sampleKey 1)) (12 * COIN)
        < paidCount sampleHash160 (sampleRun 4501) "20201003".toList (.keyID (sampleKey 1)) (12 * COIN) := by
  refine ⟨sampleRun_accepted le_rfl, ?_⟩
  -- only one output of the chain prints as `OP_RETURN`, so at most one bet wins
  have hwinning : winningCount sampleHash160 premineLookup (sampleRun 4501) "20201003".toList
      (.keyID (sampleKey 1)) (12 * COIN) ≤ 1 := by
    calc _ ≤ (betSlips (chainOf (sampleRun 4501))).countP
            (fun slip => isOpReturnAsm slip.txout.scriptPubKey) := by
          refine countP_mono_left fun slip _ h => ?_
          rw [Bool.and_eq_true, any_eq_true] at h
          obtain ⟨-, wins, hmem, hwins⟩ := h
          rw [mem_mapIdx] at hmem
          obtain ⟨k, hk, hwinsAt⟩ := hmem
          rw [show wins = true from hwins] at hwinsAt
          exact PayoutStep.opReturn_of_winsAt hwinsAt
      _ = ((chainOf (sampleRun 4501)).map opReturnCount).sum := countP_betSlips_opReturn _
      _ ≤ 1 := by
          have hcounts : (chainOf (sampleRun 4501)).map opReturnCount
              = (range 4501).map fun i => if i = 2990 then 1 else 0 := by
            unfold chainOf sampleRun
            rw [map_map, map_map]
            exact map_congr_left fun i _ => opReturnCount_sampleBlock i
          apply sum_le_of_exclusive
          · grind [pairwise_lt_range.imp]
          · grind
  have hpaid : 2 ≤ paidCount sampleHash160 (sampleRun 4501) "20201003".toList (.keyID (sampleKey 1))
      (12 * COIN) := by
    have hterm : ∀ i, i = 3000 ∨ i = 4500 → ((sampleRun 4501).mapIdx fun i s => s.paidCount sampleHash160
          ((chainOf (sampleRun 4501)).take i) "20201003".toList (.keyID (sampleKey 1)) (12 * COIN))[i]?
          = some 1 := by
      intro i hi
      rw [getElem?_mapIdx, getElem?_sampleRun (by omega), Option.map_some,
        take_chainOf_sampleRun (by omega), sample_paidCount hi]
    exact two_le_sum (by omega : 3000 < 4500) (hterm 3000 (.inl rfl)) (hterm 4500 (.inr rfl))
  omega

end Sample

end PwrbCore
