/-
  Betting.BlockPayouts — THE PAYOUT CHECK OF A BLOCK (`GetBlockPayouts`, `IsBlockPayoutsValid` of
  `betting/bet.cpp`).

  A payout block's coinstake carries, after its own staking outputs, one output per
  winning bet and one for the development fund.  Where the staking outputs end is not
  recorded: the check counts outputs until their running sum reaches the stake plus the
  block reward.
-/
import Mathlib.Data.List.Forall2
import PwrbCore.Lib.Binary64
import PwrbCore.Params

namespace PwrbCore

/-! ## §1. The expected vector. -/

variable {block : CBlock}

/-- `CBetOut`: an output that remembers the stake of the bet it pays. -/
structure CBetOut extends CTxOut where
  nBetValue : Int := 0
  deriving DecidableEq, Repr

def devRewardRate : Binary64 := ⟨3602879701896397, -56, by decide⟩

def devReward (nPayout : Int) : Int := ((Binary64.ofInt nPayout).mul devRewardRate).toInt

/-- `GetBlockPayouts`: the total to mint, and the vector with the development reward appended when anything is due. -/
def getBlockPayouts (params : ConsensusParams) (vExpectedPayouts : List CBetOut) : Int × List CBetOut :=
  let nPayout := (vExpectedPayouts.map fun b => b.nValue).sum
  if vExpectedPayouts = [] then (nPayout, [])
  else
    (nPayout + devReward nPayout,
      vExpectedPayouts ++ [{ nValue := devReward nPayout,
                             scriptPubKey := getScriptForDestination params.devPayout }])

/-! ## §2. The staking prefix of a coinstake. -/

/-- What the betting code reads besides its arguments: parameters, public-key hashing and `GetTransaction(hash, …,
fAllowSlow = true)`. -/
structure BetEnv where
  params : ConsensusParams
  hash160 : List UInt8 → Uint160
  getTransaction : Uint256 → Option CTransaction

/-- The value of the output staked by `tx`; it stays `0` when the lookup fails. -/
def BetEnv.stakeAmount (env : BetEnv) (tx : CTransaction) : Int :=
  match tx.vin with
  | [] => 0
  | txin :: _ =>
    match env.getTransaction txin.prevout.hash with
    | some txPrev => ((txPrev.vout[txin.prevout.n]?).map CTxOut.nValue).getD 0
    | none => 0

section

variable (env : BetEnv) (tx : CTransaction) (height : Int)

/-- What the staking outputs of `tx` at `height` have to add up to. -/
def BetEnv.stakingTarget : Int :=
  env.stakeAmount tx + getBlockValue height - getMasternodePayment

/-- The counting loop: outputs belong to the staker while the running sum is below the target. `numStakingTx` and
`totalStakeAcc`. -/
def countStaking (target : Int) : List CTxOut → Nat → Int → Nat × Int
  | [], numStakingTx, totalStakeAcc => (numStakingTx, totalStakeAcc)
  | txout :: vout, numStakingTx, totalStakeAcc =>
    if totalStakeAcc < target then
      countStaking target vout (numStakingTx + 1) (totalStakeAcc + txout.nValue)
    else (numStakingTx, totalStakeAcc)

theorem countStaking_le (target : Int) (vout : List CTxOut) (n : Nat) (acc : Int) :
    n ≤ (countStaking target vout n acc).1 ∧ (countStaking target vout n acc).1 ≤ n + vout.length := by
  induction vout generalizing n acc with
  | nil => simp [countStaking]
  | cons txout vout ih =>
    unfold countStaking
    split_ifs
    · have := ih (n + 1) (acc + txout.nValue)
      simp only [List.length_cons]
      omega
    · simp

def BetEnv.numStakingTx : Nat :=
  (countStaking (env.stakingTarget tx height) tx.vout 0 0).1

def BetEnv.totalStakeAcc : Int :=
  (countStaking (env.stakingTarget tx height) tx.vout 0 0).2

theorem BetEnv.numStakingTx_le : env.numStakingTx tx height ≤ tx.vout.length := by
  simpa [numStakingTx] using (countStaking_le (env.stakingTarget tx height) tx.vout 0 0).2

/-- The outputs of `tx` after the staking prefix. -/
def BetEnv.payoutOutputs : List CTxOut :=
  tx.vout.drop (env.numStakingTx tx height)

theorem BetEnv.length_payoutOutputs :
    (env.payoutOutputs tx height).length + env.numStakingTx tx height = tx.vout.length := by
  have := env.numStakingTx_le tx height
  simp only [payoutOutputs, List.length_drop]
  omega

/-! ## §3. The check. -/

/-- `CBitcoinAddress(ExtractDestination(script)).ToString()` encodes the destination, so comparing texts is comparing
destinations. -/
def BetEnv.dest (env : BetEnv) (o : CTxOut) : CTxDestination :=
  destinationOf env.hash160 o.scriptPubKey

/-- One step of the comparison loop: refused only when BOTH the amount and the address differ. -/
def BetEnv.positionOk (env : BetEnv) (expected : CBetOut) (txout : CTxOut) : Bool :=
  !(expected.nValue != txout.nValue && env.dest txout != env.dest expected.toCTxOut)

/-- `IsBlockPayoutsValid`. A block without a second transaction, undefined in the source, is refused. -/
def isBlockPayoutsValid (env : BetEnv) (vExpectedPayouts : List CBetOut) (block : CBlock) (height : Int) : Bool :=
  if vExpectedPayouts = [] then true
  else
    match block.vtx[1]? with
    | none => false
    | some tx =>
      -- "NO BET PAYOUT": the coinstake holds nothing but its staking outputs
      if env.numStakingTx tx height = tx.vout.length ∧
          env.totalStakeAcc tx height = env.stakingTarget tx height then true
      else if vExpectedPayouts.length + env.numStakingTx tx height ≠ tx.vout.length then false
      else if (vExpectedPayouts.map fun b => b.nValue).sum
          ≠ ((env.payoutOutputs tx height).map CTxOut.nValue).sum then false
      else
        (vExpectedPayouts.zip (env.payoutOutputs tx height)).all
          fun p => env.positionOk p.1 p.2

/-- The "no bet payout" case: every output is a staking output, and they add up to stake and reward. -/
def BetEnv.NoBetPayout : Prop :=
  env.numStakingTx tx height = tx.vout.length ∧ env.totalStakeAcc tx height = env.stakingTarget tx height

end

section

variable (env : BetEnv) (vExpectedPayouts : List CBetOut) (tx : CTransaction) (height : Int)

/-- The count and the total of the payout outputs are the expected ones. -/
def BetEnv.CountAndTotalMatch : Prop :=
  vExpectedPayouts.length + env.numStakingTx tx height = tx.vout.length ∧ (vExpectedPayouts.map fun b => b.nValue).sum
      = ((env.payoutOutputs tx height).map CTxOut.nValue).sum

theorem BetEnv.positionOk_iff (env : BetEnv) (expected : CBetOut) (txout : CTxOut) :
    env.positionOk expected txout = true
      ↔ txout.nValue = expected.nValue ∨ env.dest txout = env.dest expected.toCTxOut := by
  by_cases hv : expected.nValue = txout.nValue
  · simp [positionOk, hv]
  · have hv' : txout.nValue ≠ expected.nValue := fun e => hv e.symm
    simp [positionOk, hv, hv']

/-- **Inversion of the check.** A non-empty vector is accepted exactly when there is no bet payout, or count and total
match and every position agrees in the amount OR the address. -/
theorem isBlockPayoutsValid_eq_true_iff (env : BetEnv) {vExpectedPayouts : List CBetOut}
    {tx : CTransaction} (height : Int) (hv : vExpectedPayouts ≠ []) (htx : block.vtx[1]? = some tx) :
    isBlockPayoutsValid env vExpectedPayouts block height = true ↔ env.NoBetPayout tx height ∨
        (env.CountAndTotalMatch vExpectedPayouts tx height ∧
          List.Forall₂ (fun e o => o.nValue = e.nValue ∨ env.dest o = env.dest e.toCTxOut)
            vExpectedPayouts (env.payoutOutputs tx height)) := by
  unfold isBlockPayoutsValid
  rw [if_neg hv, htx]
  dsimp only
  split_ifs with hnone hcount hsum
  · exact iff_of_true rfl (.inl hnone)
  · refine iff_of_false (by simp) ?_
    rintro (h | h)
    · exact hnone h
    · exact hcount h.1.1
  · refine iff_of_false (by simp) ?_
    rintro (h | h)
    · exact hnone h
    · exact hsum h.1.2
  · have hlen : vExpectedPayouts.length = (env.payoutOutputs tx height).length := by
      have := env.length_payoutOutputs tx height
      omega
    simp only [List.all_eq_true, List.forall₂_iff_zip, BetEnv.positionOk_iff]
    constructor
    · exact fun h => .inr ⟨⟨not_not.mp hcount, not_not.mp hsum⟩, hlen, h _⟩
    · rintro (h | h)
      · exact absurd h hnone
      · exact fun _ => h.2.2

/-! ## §4. When an accepted payout block pays what was expected. -/

/-- Position by position, the payout outputs have the expected amount AND destination. -/
def BetEnv.PaysExpected : Prop :=
  List.Forall₂ (fun e o => o.nValue = e.nValue ∧ env.dest o = env.dest e.toCTxOut)
    vExpectedPayouts (env.payoutOutputs tx height)

/-- Count and total are as expected and no output differs in both amount and address, but some output differs in one
of them. -/
def BetEnv.OneSidedMismatch : Prop :=
  ¬ env.NoBetPayout tx height ∧ env.CountAndTotalMatch vExpectedPayouts tx height ∧
    List.Forall₂ (fun e o => o.nValue = e.nValue ∨ env.dest o = env.dest e.toCTxOut)
      vExpectedPayouts (env.payoutOutputs tx height) ∧
    ¬ env.PaysExpected vExpectedPayouts tx height

/-- At every payout position the amount is the expected one exactly when the address is. -/
def BetEnv.AmountsFollowAddresses : Prop :=
  ∀ p ∈ vExpectedPayouts.zip (env.payoutOutputs tx height),
    (p.2.nValue = p.1.nValue ↔ env.dest p.2 = env.dest p.1.toCTxOut)

end

/-- An accepted block that is no one-sided mismatch pays what was expected, or no bet. -/
theorem BetEnv.pays_expected_of_valid (env : BetEnv) {vExpectedPayouts : List CBetOut}
    {tx : CTransaction} {height : Int} (hv : vExpectedPayouts ≠ []) (htx : block.vtx[1]? = some tx)
    (hgood : ¬ env.OneSidedMismatch vExpectedPayouts tx height)
    (h : isBlockPayoutsValid env vExpectedPayouts block height = true) :
    env.NoBetPayout tx height ∨ env.PaysExpected vExpectedPayouts tx height := by
  rcases (isBlockPayoutsValid_eq_true_iff env height hv htx).mp h with hno | ⟨hmatch, hor⟩
  · exact .inl hno
  · by_cases hno : env.NoBetPayout tx height
    · exact .inl hno
    · exact .inr (not_not.mp fun hand => hgood ⟨hno, hmatch, hor, hand⟩)

/-- **Exactness of the payout check.** An accepted block that is no "no bet payout" has as many
payout outputs as expected, with the expected total.  It pays the expected amounts to the expected
destinations exactly when, position by position, the amount matches iff the address does: the
check refuses only what is wrong in both. -/
theorem isBlockPayoutsValid_pays_expected_iff (env : BetEnv) (vExpectedPayouts : List CBetOut)
    (block : CBlock) (tx : CTransaction) (height : Int) (hv : vExpectedPayouts ≠ [])
    (htx : block.vtx[1]? = some tx)
    (hvalid : isBlockPayoutsValid env vExpectedPayouts block height = true)
    (hbets : ¬ env.NoBetPayout tx height) :
    env.CountAndTotalMatch vExpectedPayouts tx height ∧
      (env.PaysExpected vExpectedPayouts tx height
        ↔ env.AmountsFollowAddresses vExpectedPayouts tx height) := by
  rcases (isBlockPayoutsValid_eq_true_iff env height hv htx).mp hvalid with hno | ⟨hmatch, hor⟩
  · exact absurd hno hbets
  obtain ⟨hlength, hor⟩ := List.forall₂_iff_zip.mp hor
  refine ⟨hmatch, ?_, ?_⟩
  · intro hpays p hp
    obtain ⟨hamount, haddress⟩ := (List.forall₂_iff_zip.mp hpays).2 hp
    exact iff_of_true hamount haddress
  · intro hfollow
    refine List.forall₂_iff_zip.mpr ⟨hlength, fun {e o} hp => ?_⟩
    have hboth := hfollow (e, o) hp
    -- the check lets pass what is right in one of the two
    rcases hor hp with hamount | haddress
    · exact ⟨hamount, hboth.mp hamount⟩
    · exact ⟨hboth.mpr haddress, haddress⟩

/-! ### A redirected payout. -/

def sampleKey (b : UInt8) : Uint160 := ⟨List.replicate 20 b, by simp⟩

/-- The script that pays a sample key. -/
abbrev payTo (b : UInt8) : CScript := getScriptForDestination (.keyID (sampleKey b))

abbrev coinbaseIn : CTxIn := { prevout := ⟨0, UINT32_MAX⟩, scriptSig := [1, 1] }

/-- A single winning bet: 1200 expected at key 1, and the development reward. -/
def samplePayouts : List CBetOut :=
  (getBlockPayouts .mainNet
    [{ nValue := 1200, scriptPubKey := payTo 1,
       nBetValue := 100 }]).2

def sampleStakeTx : CTransaction :=
  { hash := 7, vin := [], vout := [⟨5 * COIN, payTo 9⟩] }

def sampleEnv : BetEnv where
  params := .mainNet
  hash160 := fun _ => sampleKey 0
  getTransaction := fun h => if h = 7 then some sampleStakeTx else none

/-- A payout coinstake that pays the winnings to `winner`. -/
def samplePayoutTx (winner : Uint160) : CTransaction :=
  { hash := 8
    vin := [.of 7 0]
    vout := [⟨0, []⟩, ⟨6 * COIN, payTo 9⟩,
      ⟨1200, getScriptForDestination (.keyID winner)⟩,
      ⟨60, getScriptForDestination ConsensusParams.mainNet.devPayout⟩] }

def samplePayoutBlock (winner : Uint160) : CBlock :=
  { hash := 3, hashPrevBlock := 2, nTime := 0,
    vtx := [{ hash := 6, vin := [], vout := [] }, samplePayoutTx winner] }

instance (env : BetEnv) (tx : CTransaction) (height : Int) : Decidable (env.NoBetPayout tx height) :=
  inferInstanceAs (Decidable (_ ∧ _))

/-- A block that pays the winner's amount to a stranger's key is accepted: count and total match, and the address
alone refuses nothing. -/
theorem redirected_payout_accepted :
    isBlockPayoutsValid sampleEnv samplePayouts (samplePayoutBlock (sampleKey 2)) 3000 = true ∧
      ¬ (sampleEnv.NoBetPayout (samplePayoutTx (sampleKey 2)) 3000 ∨
        sampleEnv.PaysExpected samplePayouts (samplePayoutTx (sampleKey 2)) 3000) := by
  refine ⟨by decide, ?_⟩
  rintro (h | h)
  · exact absurd h (by decide)
  · unfold BetEnv.PaysExpected at h
    exact absurd h (by decide)

/-- The block that pays the winner: amounts and addresses match together, so it pays what was
expected. -/
theorem honest_payout_pays_expected :
    sampleEnv.AmountsFollowAddresses samplePayouts (samplePayoutTx (sampleKey 1)) 3000 ∧
      sampleEnv.PaysExpected samplePayouts (samplePayoutTx (sampleKey 1)) 3000 := by
  have hfollow : sampleEnv.AmountsFollowAddresses samplePayouts (samplePayoutTx (sampleKey 1)) 3000 := by
    unfold BetEnv.AmountsFollowAddresses
    decide
  exact ⟨hfollow, (isBlockPayoutsValid_pays_expected_iff sampleEnv samplePayouts
    (samplePayoutBlock (sampleKey 1)) (samplePayoutTx (sampleKey 1)) 3000 (by decide) rfl (by decide)
    (by decide)).2.mpr hfollow⟩

end PwrbCore
