/-
  Masternode.BudgetBlocks — FINALIZED BUDGETS AND THE BLOCKS THAT PAY THEM (`CFinalizedBudget::IsValid`, and
  `FillBlockPayee` against `IsTransactionValid` of `CBudgetManager`, in `masternode-budget.cpp`).

  The payments of a budget come from the network and only their sum is bounded.  A block
  pays the budget with the most votes; the check wants more votes than a threshold that is
  a tenth of the network below that.

  Main results: `accepted_payments_bounded_iff`, `completed_coinstake_valid_iff`.
-/
import PwrbCore.Staking.CoinStake

namespace PwrbCore

open List CTxBudgetPayment

/-! ## §1. `IsValid`. -/

variable {b : CFinalizedBudget} {nBlockHeight : Int} {own : List CTxOut}

structure BudgetChecks where
  nBudgetCycleBlocks : Int
  /-- `chainActive.Height()`, if there is a tip -/
  nHeight : Option Int
  /-- `GetProposals` -/
  strProposals : String
  /-- what `IsBudgetCollateralValid` finds wrong -/
  collateralError : Option String

/-- `GetTotalBudget`: the subsidy it starts from is zero, on both branches. -/
def getTotalBudget (env : BudgetChecks) (nHeight : Int) : Int :=
  if env.nHeight.isNone then 0 else if nHeight ≤ 172800 then 0 else 0

namespace CFinalizedBudget

def getTotalPayout (b : CFinalizedBudget) : Int :=
  b.vecBudgetPayments.foldl (fun ret p => (ret + p.nAmount).bmod (2 ^ 64)) 0

/-- `CFinalizedBudget::IsValid`, with the text of its error. -/
def isValid (env : BudgetChecks) (b : CFinalizedBudget) (strBudgetName : String) (nFeeTXHash : Uint256)
    (fCheckCollateral : Bool) : Except String Unit :=
  let named := "Budget " ++ strBudgetName ++ " (" ++ env.strProposals ++ ")"
  if b.nBlockStart.tmod env.nBudgetCycleBlocks ≠ 0 then .error "Invalid BlockStart"
  else if 100 < b.blockEnd - b.nBlockStart then .error "Invalid BlockEnd"
  else if 100 < b.vecBudgetPayments.length then .error "Invalid budget payments count (too many)"
  else if strBudgetName = "" then .error "Invalid Budget Name"
  else if b.nBlockStart = 0 then .error (named ++ " Invalid BlockStart == 0")
  else if nFeeTXHash = 0 then .error (named ++ " Invalid FeeTx == 0")
  else if getTotalBudget env b.nBlockStart < b.getTotalPayout then .error (named ++ " Invalid Payout (more than max)")
  else
    match if fCheckCollateral then env.collateralError else none with
    | some strError2 => .error (named ++ " Invalid Collateral : " ++ strError2)
    | none =>
      match env.nHeight with
      | none => .ok ()
      | some nCurrentHeight =>
        let nBlockStart := nCurrentHeight - nCurrentHeight.tmod env.nBudgetCycleBlocks + env.nBudgetCycleBlocks
        if b.blockEnd < nBlockStart - 2 * env.nBudgetCycleBlocks then
          .error (named ++ " (ends at block " ++ toString b.blockEnd ++ ") too old and obsolete")
        else .ok ()

def amounts (b : CFinalizedBudget) : List Int := b.vecBudgetPayments.map nAmount

theorem getTotalPayout_le_of_isValid {env : BudgetChecks} {strBudgetName : String}
    {nFeeTXHash : Uint256} {fCheckCollateral : Bool}
    (h : b.isValid env strBudgetName nFeeTXHash fCheckCollateral = .ok ()) :
    b.getTotalPayout ≤ getTotalBudget env b.nBlockStart := by
  by_contra hmore
  rw [not_le] at hmore
  unfold isValid at h
  split_ifs at h

/-- Without negative amounts and below 63 bits the sum is the true one. -/
theorem getTotalPayout_eq_sum (hneg : ∀ a ∈ b.amounts, 0 ≤ a) (hsum : b.amounts.sum < 2 ^ 63) :
    b.getTotalPayout = b.amounts.sum := by
  have hfold : ∀ (ps : List CTxBudgetPayment) (ret : Int),
      ps.foldl (fun ret p => (ret + p.nAmount).bmod (2 ^ 64)) (ret.bmod (2 ^ 64))
        = (ret + (ps.map nAmount).sum).bmod (2 ^ 64) := by
    intro ps
    induction ps with
    | nil => simp
    | cons p ps ih =>
      intro ret
      rw [foldl_cons, Int.bmod_add_bmod, ih, map_cons, sum_cons, Int.add_assoc]
  have hnonneg := sum_nonneg hneg
  rw [← Int.bmod_eq_of_le (n := b.amounts.sum) (m := 2 ^ 64) (by omega) (by omega), ← Int.zero_add b.amounts.sum]
  exact hfold b.vecBudgetPayments 0

/-- Each payment is between zero and the total budget, and so are the positive ones together. -/
def Within (b : CFinalizedBudget) (total : Int) : Prop :=
  (∀ a ∈ b.amounts, 0 ≤ a ∧ a ≤ total) ∧ (b.amounts.filter fun a => decide (0 < a)).sum ≤ total

/-- **The payments of an accepted budget** are within the total budget if and only if none is negative and their
sum fits into 63 bits. -/
theorem accepted_payments_bounded_iff {env : BudgetChecks} {b : CFinalizedBudget} {strBudgetName : String}
    {nFeeTXHash : Uint256} {fCheckCollateral : Bool}
    (h : b.isValid env strBudgetName nFeeTXHash fCheckCollateral = .ok ()) :
    b.Within (getTotalBudget env b.nBlockStart) ↔ (∀ a ∈ b.amounts, 0 ≤ a) ∧ b.amounts.sum < 2 ^ 63 := by
  have htotal : getTotalBudget env b.nBlockStart = 0 := by
    unfold getTotalBudget
    split_ifs <;> rfl
  have hpayout := getTotalPayout_le_of_isValid h
  rw [htotal] at hpayout ⊢
  constructor
  · rintro ⟨hbounds, -⟩
    have hzero : b.amounts.sum = 0 := sum_eq_zero fun a ha => Int.le_antisymm (hbounds a ha).2 (hbounds a ha).1
    exact ⟨fun a ha => (hbounds a ha).1, by rw [hzero]; decide⟩
  rintro ⟨hneg, hsum⟩
  -- the sum is not positive, so every amount is zero
  rw [getTotalPayout_eq_sum hneg hsum] at hpayout
  have hle : ∀ a ∈ b.amounts, a ≤ 0 := fun a ha => (single_le_sum hneg a ha).trans hpayout
  refine ⟨fun a ha => ⟨hneg a ha, hle a ha⟩, ?_⟩
  rw [filter_eq_nil_iff.mpr fun a ha => by simpa using hle a ha]
  exact le_rfl

def cycleChecks : BudgetChecks := ⟨43200, some 43000, "ads,site", none⟩

def twoPayments (first second : Int) : CFinalizedBudget := ⟨43200, [⟨1, [], first⟩, ⟨2, [], second⟩], 0⟩

theorem empty_payments_bounded : (twoPayments 0 0).isValid cycleChecks "main" 1 true = .ok () ∧
      ((twoPayments 0 0).Within 0 ↔ (∀ a ∈ (twoPayments 0 0).amounts, 0 ≤ a) ∧
          (twoPayments 0 0).amounts.sum < 2 ^ 63) :=
  ⟨by decide, accepted_payments_bounded_iff
    (show (twoPayments 0 0).isValid cycleChecks "main" 1 true = .ok () by decide)⟩

/-- **A negative payment makes room for a positive one.** -/
theorem negative_payment_offsets :
    (twoPayments (-50) 50).isValid cycleChecks "main" 1 true = .ok () ∧ getTotalBudget cycleChecks 43200 = 0 ∧
      (twoPayments (-50) 50).amounts = [-50, 50] :=
  ⟨by decide, by decide, by decide⟩

end CFinalizedBudget

/-! ## §2. The block that pays. -/

open CFinalizedBudget

namespace CFinalizedBudget

variable {payment : CTxBudgetPayment}

theorem payoutStatus_append (hown : ¬ pays payment own) (rest : List CTxOut) (status : TrxValidationStatus)
    (history : List (Uint256 × Int)) : b.payoutStatus payment nBlockHeight (own ++ rest) status history
      = b.payoutStatus payment nBlockHeight rest status history := by
  induction own with
  | nil => rfl
  | cons out own ih =>
    have hnot : ¬ (payment.payee = out.scriptPubKey ∧ payment.nAmount = out.nValue) := fun hmade =>
      hown ⟨out, mem_cons_self, hmade⟩
    rw [cons_append, payoutStatus, if_neg hnot]
    exact ih fun ⟨out', hmem, hmade⟩ => hown ⟨out', mem_cons_of_mem _ hmem, hmade⟩

end CFinalizedBudget

namespace LocalState

variable {l : LocalState}

theorem le_highestCount (l : LocalState) (nBlockHeight nHighestCount : Int) :
    nHighestCount ≤ l.highestCount nBlockHeight nHighestCount ∧
      ∀ b ∈ l.mapFinalizedBudgets, b.coversHeight nBlockHeight = true →
        b.voteCount ≤ l.highestCount nBlockHeight nHighestCount := by
  unfold highestCount
  generalize l.mapFinalizedBudgets = budgets
  induction budgets generalizing nHighestCount with
  | nil => simp
  | cons x budgets ih =>
    obtain ⟨hle, hall⟩ := ih (if nHighestCount < x.voteCount ∧
      x.coversHeight nBlockHeight then x.voteCount else nHighestCount)
    rw [foldl_cons]
    split_ifs at hle hall ⊢ with hmore
    · refine ⟨by omega, forall_mem_cons.mpr ⟨fun _ => hle, hall⟩⟩
    · refine ⟨hle, forall_mem_cons.mpr ⟨fun hcovers => ?_, hall⟩⟩
      have hnot : ¬ nHighestCount < x.voteCount := fun hlt => hmore ⟨hlt, hcovers⟩
      omega

/-- **The loop over the budgets**, where only the last output makes scheduled payments: it ends with a budget above
the threshold that schedules this one. -/
theorem budgetStatus_valid_iff {txNew : CTransaction} {out : CTxOut} (hvout : txNew.vout = own ++ [out])
    (nCountThreshold : Int) (budgets : List CFinalizedBudget) (fThreshold : Bool)
    (hown : ∀ b ∈ budgets, ∀ payment, b.scheduled nBlockHeight = some payment → ¬ pays payment own) :
    budgetStatus txNew nBlockHeight nCountThreshold budgets .inValid fThreshold [] = .valid ↔
      ∃ b ∈ budgets, nCountThreshold < b.voteCount ∧ b.coversHeight nBlockHeight = true ∧
        b.getPayeeAndAmount nBlockHeight = some out := by
  induction budgets generalizing fThreshold with
  | nil => cases fThreshold <;> simp [budgetStatus]
  | cons x budgets ih =>
    have hrest := fun f => ih f fun b hb => hown b (mem_cons_of_mem _ hb)
    unfold budgetStatus
    rw [exists_mem_cons_iff]
    by_cases hvotes : nCountThreshold < x.voteCount
    · rw [if_pos hvotes]
      by_cases hcovers : x.coversHeight nBlockHeight = true
      · obtain ⟨payment, hpayment, hout⟩ := exists_scheduled hcovers
        rw [if_pos hcovers, isTransactionValid_eq, hpayment, hvout]
        dsimp only
        rw [payoutStatus_append (hown x mem_cons_self payment hpayment), payoutStatus, hout, Option.some.injEq]
        by_cases hmade : payment.payee = out.scriptPubKey ∧ payment.nAmount = out.nValue
        · rw [if_pos hmade]
          refine iff_of_true rfl (.inl ⟨hvotes, hcovers, ?_⟩)
          rw [hmade.1, hmade.2]
        · rw [if_neg hmade]
          refine (hrest true).trans (or_iff_right fun h => hmade ?_).symm
          rw [← h.2.2]
          exact ⟨rfl, rfl⟩
      · rw [if_neg hcovers, hrest, or_iff_right fun h => hcovers h.2.1]
    · rw [if_neg hvotes, hrest, or_iff_right fun h => hvotes h.1]

end LocalState

/-- **Producer and validator agree in networks of ten.** With no payment made before, by an earlier block or the
coinstake's own outputs, a coinstake completed at a budget payment height is valid if and only if ten masternodes are
enabled. -/
theorem completed_coinstake_valid_iff {l : LocalState} {nBlockHeight : Int} {coinstake : CTransaction}
    (hblock : l.isBudgetPaymentBlock nBlockHeight = true) (hhistory : l.mapPaymentHistory = [])
    (hown : ∀ b ∈ l.mapFinalizedBudgets, ∀ payment, b.scheduled nBlockHeight = some payment →
      ¬ pays payment coinstake.vout) :
    l.budgetIsTransactionValid { coinstake with vout := coinstake.vout ++ l.budgetPayee nBlockHeight } nBlockHeight
      = .valid ↔ 10 ≤ l.enabledMasternodes := by
  obtain ⟨-, hmost⟩ := l.le_highestCount nBlockHeight 0
  have hstart : l.highestCount nBlockHeight (-1) ≤ l.highestCount nBlockHeight 0 := by
    refine foldl_rel (r := fun c c' : Int => c ≤ c') (by decide) fun b _ c c' hle => ?_
    cases b.coversHeight nBlockHeight with
    | false => simpa using hle
    | true =>
      simp only [and_true]
      split_ifs <;> omega
  have hvoted := of_decide_eq_true hblock
  rcases l.budgetPayee_spec nBlockHeight with ⟨hnone, -⟩ | ⟨best, hbest, hcovers, hvotes, out, hout, hpayee⟩
  · omega
  unfold LocalState.budgetIsTransactionValid
  rw [if_neg (by omega), hhistory, hpayee, LocalState.budgetStatus_valid_iff rfl _ _ _ hown]
  constructor
  · rintro ⟨b, hb, hmore, hb', -⟩
    have hle := hmost b hb hb'
    omega
  · intro hten
    exact ⟨best, hbest, by omega, hcovers, hout⟩

def oneBudget (enabledMasternodes : Nat) : LocalState :=
  { plainLocal with mapFinalizedBudgets := [⟨43200, [⟨1, [81], 50⟩], enabledMasternodes⟩], enabledMasternodes }

/-- A coinstake with the marker and an output of its own. -/
def ownCoinstake : CTransaction := { hash := 1, vin := [], vout := [⟨0, []⟩, ⟨6 * COIN, [82]⟩] }

theorem ten_masternodes_agree : (oneBudget 10).budgetIsTransactionValid
    { ownCoinstake with vout := ownCoinstake.vout ++ (oneBudget 10).budgetPayee 43200 } 43200 = .valid := by
  refine (completed_coinstake_valid_iff (by decide) rfl ?_).mpr (by decide)
  rintro b hb payment hpayment ⟨out, hout, hscript, -⟩
  rw [mem_singleton.mp hb] at hpayment
  cases hpayment
  rcases mem_pair.mp hout with rfl | rfl <;> cases hscript

/-- **Nine masternodes disagree with themselves**: the threshold is as high as the votes, which must be above it. -/
theorem nine_masternodes_refuse :
    (oneBudget 9).isBudgetPaymentBlock 43200 = true ∧ (oneBudget 9).budgetPayee 43200 = [⟨50, [81]⟩] ∧
      (oneBudget 9).budgetIsTransactionValid { hash := 1, vin := [], vout := [⟨50, [81]⟩] } 43200 = .voteThreshold :=
  ⟨by decide, by decide, by decide⟩

end PwrbCore
