/-
  Masternode.Payments — WHO A BLOCK HAS TO PAY AND HOW MUCH IT MAY MINT (`masternode-payments.cpp`,
  `masternode-budget.cpp`).
-/
import PwrbCore.Node.Env

namespace PwrbCore

open List

/-! ## §1. The budget schedule. -/

variable {l : LocalState} {nBlockHeight : Int}

namespace CFinalizedBudget

def blockEnd (b : CFinalizedBudget) : Int := b.nBlockStart + (b.vecBudgetPayments.length - 1)

def coversHeight (b : CFinalizedBudget) (nBlockHeight : Int) : Bool :=
  decide (b.nBlockStart ≤ nBlockHeight) && decide (nBlockHeight ≤ b.blockEnd)

end CFinalizedBudget

namespace LocalState

/-- The loop of both budget functions: the most votes among the budgets that cover the height, from `nHighestCount`
on. -/
def highestCount (l : LocalState) (nBlockHeight nHighestCount : Int) : Int :=
  l.mapFinalizedBudgets.foldl
    (fun highest b => if highest < b.voteCount ∧ b.coversHeight nBlockHeight then b.voteCount else highest)
    nHighestCount

def isBudgetPaymentBlock (l : LocalState) (nBlockHeight : Int) : Bool :=
  decide ((l.enabledMasternodes / 20 : Nat) < l.highestCount nBlockHeight (-1))

theorem highestCount_of_none
    (h : ∀ b ∈ l.mapFinalizedBudgets, b.coversHeight nBlockHeight = false) (nHighestCount : Int) :
    l.highestCount nBlockHeight nHighestCount = nHighestCount := by
  unfold highestCount
  revert h
  generalize l.mapFinalizedBudgets = budgets
  intro h
  induction budgets with
  | nil => rfl
  | cons b budgets ih => simp_all

theorem isBudgetPaymentBlock_of_none (h : ∀ b ∈ l.mapFinalizedBudgets, b.coversHeight nBlockHeight = false) :
    l.isBudgetPaymentBlock nBlockHeight = false := by
  unfold isBudgetPaymentBlock
  rw [highestCount_of_none h, decide_eq_false_iff_not]
  omega

end LocalState

/-! ## §2. Budget payments. -/

inductive TrxValidationStatus where
  | inValid | valid | doublePayment | voteThreshold
  deriving DecidableEq, Repr

namespace CFinalizedBudget

/-- `IsPaidAlready`: drops the payments of other cycles and enters this one if it is new. -/
def isPaidAlready (b : CFinalizedBudget) (nProposalHash : Uint256) (nBlockHeight : Int)
    (history : List (Uint256 × Int)) : Bool × List (Uint256 × Int) :=
  let history := history.filter fun p => b.coversHeight p.2
  if history.any fun p => p.1 == nProposalHash then (true, history)
  else (false, (nProposalHash, nBlockHeight) :: history)

/-- The loop over the outputs in `CFinalizedBudget::IsTransactionValid`. -/
def payoutStatus (b : CFinalizedBudget) (payment : CTxBudgetPayment) (nBlockHeight : Int) :
    List CTxOut → TrxValidationStatus → List (Uint256 × Int) → TrxValidationStatus × List (Uint256 × Int)
  | [], status, history => (status, history)
  | out :: vout, status, history =>
    if payment.payee = out.scriptPubKey ∧ payment.nAmount = out.nValue then
      match b.isPaidAlready payment.nProposalHash nBlockHeight history with
      | (true, history) => (.doublePayment, history)
      | (false, history) => payoutStatus b payment nBlockHeight vout .valid history
    else payoutStatus b payment nBlockHeight vout status history

/-- `CFinalizedBudget::IsTransactionValid`. -/
def isTransactionValid (b : CFinalizedBudget) (txNew : CTransaction) (nBlockHeight : Int)
    (history : List (Uint256 × Int)) : TrxValidationStatus × List (Uint256 × Int) :=
  if nBlockHeight - b.nBlockStart < 0 then (.inValid, history)
  else
    match b.vecBudgetPayments[(nBlockHeight - b.nBlockStart).toNat]? with
    | none => (.inValid, history)
    | some payment => b.payoutStatus payment nBlockHeight txNew.vout .inValid history

end CFinalizedBudget

namespace LocalState

/-- The loop of `CBudgetManager::IsTransactionValid`: budgets above the vote threshold that cover the height, until
one is paid. -/
def budgetStatus (txNew : CTransaction) (nBlockHeight nCountThreshold : Int) :
    List CFinalizedBudget → TrxValidationStatus → Bool → List (Uint256 × Int) → TrxValidationStatus
  | [], status, fThreshold, _ => if fThreshold then status else .voteThreshold
  | b :: budgets, status, fThreshold, history =>
    if nCountThreshold < b.voteCount then
      if b.coversHeight nBlockHeight then
        match b.isTransactionValid txNew nBlockHeight history with
        | (.valid, _) => .valid
        | (status, history) => budgetStatus txNew nBlockHeight nCountThreshold budgets status true history
      else budgetStatus txNew nBlockHeight nCountThreshold budgets status true history
    else budgetStatus txNew nBlockHeight nCountThreshold budgets status fThreshold history

/-- `CBudgetManager::IsTransactionValid`. -/
def budgetIsTransactionValid (l : LocalState) (txNew : CTransaction) (nBlockHeight : Int) : TrxValidationStatus :=
  let nHighestCount := l.highestCount nBlockHeight 0
  if nHighestCount < (l.enabledMasternodes / 20 : Nat) then .inValid
  else budgetStatus txNew nBlockHeight (nHighestCount - (l.enabledMasternodes / 10 : Nat))
    l.mapFinalizedBudgets .inValid false l.mapPaymentHistory

/-! ## §3. Masternode winners. -/

end LocalState

def MNPAYMENTS_SIGNATURES_REQUIRED : Int := 6

/-- `CMasternodeBlockPayees::IsTransactionValid`: with enough votes for some payee, an output goes to one of those.
The amount is compared and both outcomes count. -/
def payeesIsTransactionValid (vecPayments : List CMasternodePayee) (txNew : CTransaction) : Bool :=
  let voted := vecPayments.filter fun p => decide (MNPAYMENTS_SIGNATURES_REQUIRED ≤ p.nVotes)
  voted.isEmpty || voted.any fun p => txNew.vout.any fun out => p.scriptPubKey == out.scriptPubKey

/-- `CMasternodePayments::IsTransactionValid`. -/
def LocalState.masternodeIsTransactionValid (l : LocalState) (txNew : CTransaction) (nBlockHeight : Int) : Bool :=
  match l.mapMasternodeBlocks nBlockHeight with
  | some vecPayments => payeesIsTransactionValid vecPayments txNew
  | none => true

/-! ## §4. The payee. -/

/-- The check behind the budget one in `IsBlockPayeeValid`. -/
def LocalState.masternodePayeeValid (l : LocalState) (txNew : CTransaction) (nBlockHeight : Int) : Bool :=
  l.masternodeIsTransactionValid txNew nBlockHeight || !l.isSporkActive .masternodePaymentEnforcement

/-- `IsBlockPayeeValid`; `none` where the source indexes past the transactions. -/
def isBlockPayeeValid (params : ConsensusParams) (l : LocalState) (block : CBlock) (nBlockHeight : Int) : Option Bool :=
  if !l.synced then some true
  else
    match block.vtx[if params.height_last_PoW < nBlockHeight then 1 else 0]? with
    | none => none
    | some txNew =>
      if l.isSporkActive .enableSuperblocks && l.isBudgetPaymentBlock nBlockHeight then
        match l.budgetIsTransactionValid txNew nBlockHeight with
        | .valid => some true
        | .inValid =>
          if l.isSporkActive .masternodeBudgetEnforcement then some false
          else some (l.masternodePayeeValid txNew nBlockHeight)
        | _ => some (l.masternodePayeeValid txNew nBlockHeight)
      else some (l.masternodePayeeValid txNew nBlockHeight)

/-! ## §5. The value. -/

/-- `IsBlockValueValid`: the amount minted, against superblocks and budgets. -/
def NodeEnv.isBlockValueValid (env : NodeEnv) (block : CBlock) (nExpectedValue nMinted : Int) : Bool :=
  match env.chain.getLast? with
  | none => true
  | some tip =>
    let nHeight := env.heightOnIndex tip block
    if !env.loc.synced then
      -- no budget data: superblocks lie in the first hundred blocks of a cycle
      decide (nHeight.tmod env.params.nBudgetCycleBlocks < 100) || decide (nMinted ≤ nExpectedValue)
    else if !env.loc.isSporkActive .enableSuperblocks then decide (nMinted ≤ nExpectedValue)
    else env.loc.isBudgetPaymentBlock nHeight || decide (nMinted ≤ nExpectedValue)

/-- The states and heights at which the minted amount is not compared. -/
def NodeEnv.valueUnchecked (env : NodeEnv) (nHeight : Int) : Bool :=
  if env.loc.synced then
    env.loc.isSporkActive .enableSuperblocks && env.loc.isBudgetPaymentBlock nHeight
  else decide (nHeight.tmod env.params.nBudgetCycleBlocks < 100)

/-- **What the value check says.** -/
theorem NodeEnv.isBlockValueValid_iff (env : NodeEnv) {tip block : CBlock}
    (htip : env.chain.getLast? = some tip) (nExpectedValue nMinted : Int) :
    env.isBlockValueValid block nExpectedValue nMinted = true ↔
      env.valueUnchecked (env.heightOnIndex tip block) = true ∨ nMinted ≤ nExpectedValue := by
  unfold NodeEnv.isBlockValueValid NodeEnv.valueUnchecked
  rw [htip]
  grind

/-! ## §6. Checking twice. -/

namespace CFinalizedBudget

def pays (payment : CTxBudgetPayment) (vout : List CTxOut) : Prop :=
  ∃ out ∈ vout, payment.payee = out.scriptPubKey ∧ payment.nAmount = out.nValue

def scheduled (b : CFinalizedBudget) (nBlockHeight : Int) : Option CTxBudgetPayment :=
  if nBlockHeight - b.nBlockStart < 0 then none else b.vecBudgetPayments[(nBlockHeight - b.nBlockStart).toNat]?

/-- The history has payments of this budget's cycle only, and one for the proposal. -/
def Settled (b : CFinalizedBudget) (nProposalHash : Uint256) (history : List (Uint256 × Int)) : Prop :=
  (∀ p ∈ history, b.coversHeight p.2 = true) ∧ ∃ p ∈ history, p.1 = nProposalHash

variable {b : CFinalizedBudget} {payment : CTxBudgetPayment} {nProposalHash : Uint256}
  {history : List (Uint256 × Int)}

theorem coversHeight_of_scheduled (h : b.scheduled nBlockHeight = some payment) :
    b.coversHeight nBlockHeight = true := by
  unfold scheduled at h
  split_ifs at h with hneg
  have hlt := (List.getElem?_eq_some_iff.mp h).1
  unfold coversHeight blockEnd
  rw [Bool.and_eq_true, decide_eq_true_iff, decide_eq_true_iff]
  omega

theorem isTransactionValid_eq (b : CFinalizedBudget) (txNew : CTransaction) (nBlockHeight : Int)
    (history : List (Uint256 × Int)) :
    b.isTransactionValid txNew nBlockHeight history = match b.scheduled nBlockHeight with
      | none => (.inValid, history)
      | some payment => b.payoutStatus payment nBlockHeight txNew.vout .inValid history := by
  unfold isTransactionValid scheduled
  grind

theorem isPaidAlready_of_settled (h : b.Settled nProposalHash history) :
    b.isPaidAlready nProposalHash nBlockHeight history = (true, history) := by
  unfold isPaidAlready
  have hany : (history.any fun p => p.1 == nProposalHash) = true := by
    obtain ⟨p, hp, heq⟩ := h.2
    exact any_eq_true.mpr ⟨p, hp, by simpa using heq⟩
  rw [filter_eq_self.mpr h.1]
  rw [if_pos hany]

theorem settled_isPaidAlready (hn : b.coversHeight nBlockHeight = true) :
    b.Settled nProposalHash (b.isPaidAlready nProposalHash nBlockHeight history).2 := by
  unfold isPaidAlready
  dsimp only
  have hall : ∀ p ∈ history.filter fun p => b.coversHeight p.2, b.coversHeight p.2 = true :=
    fun p hp => (mem_filter.mp hp).2
  split_ifs with hpaid
  · obtain ⟨p, hp, heq⟩ := any_eq_true.mp hpaid
    exact ⟨hall, p, hp, by simpa using heq⟩
  refine ⟨fun p hp => ?_, _, mem_cons_self, rfl⟩
  rcases mem_cons.mp hp with rfl | hp
  · exact hn
  · exact hall p hp

theorem payoutStatus_of_settled (h : b.Settled payment.nProposalHash history) (vout : List CTxOut)
    (status : TrxValidationStatus) :
    (b.payoutStatus payment nBlockHeight vout status history).2 = history := by
  induction vout generalizing status with
  | nil => rfl
  | cons out vout ih =>
    unfold payoutStatus
    split_ifs
    · rw [isPaidAlready_of_settled h]
    · exact ih status

/-- **What a check leaves behind**: the history after the first output that makes the payment. -/
theorem payoutStatus_history (hn : b.coversHeight nBlockHeight = true) (vout : List CTxOut)
    (status : TrxValidationStatus) :
    (pays payment vout → (b.payoutStatus payment nBlockHeight vout status history).2
        = (b.isPaidAlready payment.nProposalHash nBlockHeight history).2) ∧
      (¬ pays payment vout → b.payoutStatus payment nBlockHeight vout status history = (status, history)) := by
  induction vout with
  | nil =>
    refine ⟨?_, fun _ => rfl⟩
    rintro ⟨out, hout, -⟩
    cases hout
  | cons out vout ih =>
    have hcons : pays payment (out :: vout) ↔
        (payment.payee = out.scriptPubKey ∧ payment.nAmount = out.nValue) ∨ pays payment vout := by
      unfold pays
      simp
    unfold payoutStatus
    split_ifs with hout
    · have hsettled : b.Settled payment.nProposalHash (b.isPaidAlready payment.nProposalHash nBlockHeight history).2 :=
        settled_isPaidAlready hn
      refine ⟨fun _ => ?_, fun hnot => absurd (hcons.mpr (.inl hout)) hnot⟩
      cases hpaid : b.isPaidAlready payment.nProposalHash nBlockHeight history with
      | mk paid after =>
        rw [hpaid] at hsettled
        cases paid with
        | true => rfl
        | false => exact payoutStatus_of_settled hsettled vout .valid
    · rw [hcons, or_iff_right hout]
      exact ih

def onlyPays (payment : CTxBudgetPayment) : CTransaction :=
  { hash := 0, vin := [], vout := [⟨payment.nAmount, payment.payee⟩] }

/-- Such a transaction is valid exactly if the history does not know the proposal. -/
theorem isTransactionValid_onlyPays (h : b.scheduled nBlockHeight = some payment) (history : List (Uint256 × Int)) :
    (b.isTransactionValid (onlyPays payment) nBlockHeight history).1
      = if (b.isPaidAlready payment.nProposalHash nBlockHeight history).1 then .doublePayment else .valid := by
  rw [isTransactionValid_eq, h]
  show (b.payoutStatus payment nBlockHeight [⟨payment.nAmount, payment.payee⟩] .inValid history).1 = _
  unfold payoutStatus
  rw [if_pos ⟨rfl, rfl⟩]
  cases b.isPaidAlready payment.nProposalHash nBlockHeight history with
  | mk paid after => cases paid <;> rfl

end CFinalizedBudget

open CFinalizedBudget

/-- **Checking a payment twice.** For every budget, transaction, height and history: the second check gives the answer
of the first, and no later check is answered differently, exactly if the transaction does not make the payment
scheduled at the height, or the history has payments of the budget's cycle only and one for the proposal already. -/
theorem payment_check_repeatable_iff (b : CFinalizedBudget) (txNew : CTransaction) (nBlockHeight : Int)
    (history : List (Uint256 × Int)) :
    ((b.isTransactionValid txNew nBlockHeight (b.isTransactionValid txNew nBlockHeight history).2).1
          = (b.isTransactionValid txNew nBlockHeight history).1 ∧ ∀ b' : CFinalizedBudget, ∀ tx' height',
          (b'.isTransactionValid tx' height' (b.isTransactionValid txNew nBlockHeight history).2).1
            = (b'.isTransactionValid tx' height' history).1)
      ↔ ∀ payment, b.scheduled nBlockHeight = some payment → pays payment txNew.vout →
          b.Settled payment.nProposalHash history := by
  have hafter : ∀ payment, b.scheduled nBlockHeight = some payment → pays payment txNew.vout →
      (b.isTransactionValid txNew nBlockHeight history).2
          = (b.isPaidAlready payment.nProposalHash nBlockHeight history).2 := by
    intro payment hpayment hpays
    rw [isTransactionValid_eq, hpayment]
    exact (payoutStatus_history (coversHeight_of_scheduled hpayment) txNew.vout .inValid).1 hpays
  constructor
  · rintro ⟨-, hlater⟩ payment hpayment hpays
    rw [hafter payment hpayment hpays] at hlater
    have hsettled : b.Settled payment.nProposalHash (b.isPaidAlready payment.nProposalHash nBlockHeight history).2 :=
      settled_isPaidAlready (coversHeight_of_scheduled hpayment)
    -- asked again for this payment alone, the history must have known the proposal before
    have hknown : (b.isPaidAlready payment.nProposalHash nBlockHeight history).1 = true := by
      have hsame := hlater b (onlyPays payment) nBlockHeight
      rw [isTransactionValid_onlyPays hpayment, isTransactionValid_onlyPays hpayment,
        isPaidAlready_of_settled hsettled] at hsame
      by_contra hnew
      rw [if_neg hnew] at hsame
      cases hsame
    have hfiltered : (b.isPaidAlready payment.nProposalHash nBlockHeight history).2
        = history.filter fun p => b.coversHeight p.2 := by
      unfold isPaidAlready at hknown ⊢
      dsimp only at hknown ⊢
      split_ifs at hknown ⊢
      rfl
    rw [hfiltered] at hlater hsettled
    obtain ⟨p, hp, heq⟩ := hsettled.2
    refine ⟨fun q hq => ?_, p, (mem_filter.mp hp).1, heq⟩
    by_contra hdropped
    -- a budget with one payment at the height of the dropped entry
    have hother : (⟨q.2, [⟨q.1, [], 0⟩], 0⟩ : CFinalizedBudget).scheduled q.2 = some ⟨q.1, [], 0⟩ := by
      unfold scheduled
      simp
    have hcovers : ∀ h, (⟨q.2, [⟨q.1, [], 0⟩], 0⟩ : CFinalizedBudget).coversHeight h = true ↔ h = q.2 := by
      intro h
      unfold coversHeight blockEnd
      rw [Bool.and_eq_true, decide_eq_true_iff, decide_eq_true_iff]
      simp only [length_singleton]
      omega
    have hsame := hlater ⟨q.2, [⟨q.1, [], 0⟩], 0⟩ (onlyPays ⟨q.1, [], 0⟩) q.2
    rw [isTransactionValid_onlyPays hother, isTransactionValid_onlyPays hother] at hsame
    have hbefore : (isPaidAlready ⟨q.2, [⟨q.1, [], 0⟩], 0⟩ q.1 q.2 history).1 = true := by
      unfold isPaidAlready
      simp_all
    have hgone : (isPaidAlready ⟨q.2, [⟨q.1, [], 0⟩], 0⟩ q.1 q.2 (history.filter fun p => b.coversHeight p.2)).1
        = false := by
      simp [isPaidAlready, hcovers, hdropped]
    rw [hbefore, hgone] at hsame
    cases hsame
  · intro hcond
    have hsame : (b.isTransactionValid txNew nBlockHeight history).2 = history := by
      cases hpayment : b.scheduled nBlockHeight with
      | none => rw [isTransactionValid_eq, hpayment]
      | some payment =>
        by_cases hpays : pays payment txNew.vout
        · rw [hafter payment hpayment hpays, isPaidAlready_of_settled (hcond payment hpayment hpays)]
        · rw [isTransactionValid_eq, hpayment]
          exact congrArg Prod.snd
            ((payoutStatus_history (coversHeight_of_scheduled hpayment) txNew.vout .inValid).2 hpays)
    rw [hsame]
    exact ⟨rfl, fun _ _ _ => rfl⟩

/-- The block that pays a proposal is valid at first and a double payment then. -/
theorem second_check_sees_double_payment :
    let b : CFinalizedBudget := ⟨144, [⟨7, [1], 50⟩], 1⟩
    let first := b.isTransactionValid (onlyPays ⟨7, [1], 50⟩) 144 []
    first.1 = .valid ∧ (b.isTransactionValid (onlyPays ⟨7, [1], 50⟩) 144 first.2).1 = .doublePayment := by
  decide

end PwrbCore
