/-
  Mempool.FeeEstimator — FEE ESTIMATES (`CBlockAverage`, `CMinerPolicyEstimator` of `txmempool.cpp`).

  The samples of the last blocks are kept by how long a transaction waited, a hundred for each number
  of blocks; an estimate is one of all samples in descending order, and the order is kept until the next
  block.  `random_shuffle` is any function, and whether a priority is sufficient is a part of the entry.

  Main result: `fee_estimates_antitone`.
-/
import Mathlib.Data.List.GetD
import Mathlib.Data.List.Sort
import PwrbCore.Mempool.Pool

namespace PwrbCore

open List

/-! ## §1. The estimator. -/

/-- `CFeeRate`: satoshis per thousand bytes. -/
abbrev CFeeRate := Int64

/-- `CFeeRate(nFeePaid, nSize)`; the division is unsigned. -/
def CFeeRate.ofPaid (nFeePaid : Int64) (nSize : UInt64) : CFeeRate :=
  if 0 < nSize then ((nFeePaid * 1000).toUInt64 / nSize).toInt64 else 0

def CFeeRate.getFee (feeRate : CFeeRate) (nSize : UInt64) : Int64 :=
  let nFee := (feeRate.toUInt64 * nSize / 1000).toInt64
  if nFee = 0 ∧ 0 < feeRate then feeRate else nFee

def CFeeRate.areSane (fee minRelayFee : CFeeRate) : Bool :=
  0 ≤ fee && getFee fee 1000 ≤ getFee minRelayFee 1000 * 10000

/-- The fee samples of one bucket: `push_back` on a `circular_buffer` of a hundred. -/
def recordFee (feeSamples : List CFeeRate) (feeRate : CFeeRate) : List CFeeRate :=
  (if feeSamples.length < 100 then feeSamples else feeSamples.tail) ++ [feeRate]

structure CMinerPolicyEstimator where
  history : List (List CFeeRate)
  sortedFeeSamples : List CFeeRate := []
  nBestSeenHeight : Int := 0

/-- An entry, and whether its priority allows it to be free. -/
structure ConfirmedEntry where
  entry : CTxMemPoolEntry
  sufficientPriority : Bool

namespace CMinerPolicyEstimator

section

variable (minRelayFee : CFeeRate)

def seenTxConfirm (history : List (List CFeeRate)) (e : ConfirmedEntry) (nBlocksAgo : Nat) : List (List CFeeRate) :=
  let feeRate := CFeeRate.ofPaid (.ofInt e.entry.nFee) (.ofNat e.entry.nTxSize)
  if minRelayFee < feeRate ∧ e.sufficientPriority = false ∧ feeRate.areSane minRelayFee then
    history.modify (min nBlocksAgo (history.length - 1)) (recordFee · feeRate)
  else history

/-- The entries of a block that waited `i + 1` blocks; those that waited longer are in the last bucket. -/
def entriesByConfirmations (size : Nat) (entries : List ConfirmedEntry) (nBlockHeight : Int)
    (i : Nat) : List ConfirmedEntry :=
  entries.filter fun e => 0 < nBlockHeight - e.entry.nHeight ∧ min (nBlockHeight - e.entry.nHeight - 1) (size - 1) = i

def seenBlock (est : CMinerPolicyEstimator) (entries : List ConfirmedEntry) (nBlockHeight : Int)
    (randomShuffle : List ConfirmedEntry → List ConfirmedEntry) : CMinerPolicyEstimator :=
  if nBlockHeight ≤ est.nBestSeenHeight then est
  else
    { history := (range est.history.length).foldl (fun history i =>
        let e := entriesByConfirmations est.history.length entries nBlockHeight i
        (if 10 < e.length then (randomShuffle e).take 10 else e).foldl
          (fun history e => seenTxConfirm minRelayFee history e i) history) est.history
      nBestSeenHeight := nBlockHeight }

end

/-- The samples of a history, largest first. -/
def sortedSamples (history : List (List CFeeRate)) : List CFeeRate := history.flatten.insertionSort (· ≥ ·)

/-- `estimateFee`, and the estimator with the samples sorted. -/
def estimateFee (est : CMinerPolicyEstimator) (nBlocksToConfirm : Int) : CFeeRate × CMinerPolicyEstimator :=
  let nBlocksToConfirm := nBlocksToConfirm - 1
  if nBlocksToConfirm < 0 ∨ est.history.length ≤ nBlocksToConfirm then (0, est)
  else
    let sorted := if est.sortedFeeSamples = [] then sortedSamples est.history else est.sortedFeeSamples
    let est' := { est with sortedFeeSamples := sorted }
    if sorted.length < 11 then (0, est')
    else
      let nBucketSize := (est.history.getD nBlocksToConfirm.toNat []).length
      let nPrevSize := ((est.history.take nBlocksToConfirm.toNat).map length).sum
      (sorted.getD (min (nPrevSize + nBucketSize / 2) (sorted.length - 1)) 0, est')

end CMinerPolicyEstimator

/-! ## §2. Runs. -/

inductive EstimatorCall where
  | seenBlock (minRelayFee : CFeeRate) (entries : List ConfirmedEntry) (nBlockHeight : Int)
      (randomShuffle : List ConfirmedEntry → List ConfirmedEntry)
  | estimateFee (nBlocksToConfirm : Int)

namespace CMinerPolicyEstimator

def step (est : CMinerPolicyEstimator) : EstimatorCall → CMinerPolicyEstimator
  | .seenBlock minRelayFee entries nBlockHeight randomShuffle =>
    est.seenBlock minRelayFee entries nBlockHeight randomShuffle
  | .estimateFee nBlocksToConfirm => (est.estimateFee nBlocksToConfirm).2

/-- An estimator of `nEntries` targets after some calls. -/
def run (nEntries : Nat) (calls : List EstimatorCall) : CMinerPolicyEstimator :=
  calls.foldl step { history := replicate nEntries [] }

variable {est : CMinerPolicyEstimator}

/-- The sorted samples, where they are kept, are those of the history. -/
def Coherent (est : CMinerPolicyEstimator) : Prop :=
  est.sortedFeeSamples = [] ∨ est.sortedFeeSamples = sortedSamples est.history

theorem Coherent.sorted (h : est.Coherent) :
    (if est.sortedFeeSamples = [] then sortedSamples est.history else est.sortedFeeSamples)
        = sortedSamples est.history := by
  rcases h with h | h
  · rw [if_pos h]
  · rw [h, ite_self]

theorem Coherent.step (h : est.Coherent) (call : EstimatorCall) : (est.step call).Coherent := by
  cases call with
  | seenBlock minRelayFee entries nBlockHeight randomShuffle =>
    show (est.seenBlock _ _ _ _).Coherent
    unfold seenBlock
    split_ifs
    · exact h
    · exact .inl rfl
  | estimateFee nBlocksToConfirm =>
    show (est.estimateFee _).2.Coherent
    unfold estimateFee
    dsimp only
    rw [h.sorted]
    split_ifs
    · exact h
    · exact .inr rfl
    · exact .inr rfl

/-! ## §3. Estimates. -/

theorem getD_sortedSamples_le (history : List (List CFeeRate)) {i j : Nat} (hij : i ≤ j)
    (hj : j < (sortedSamples history).length) :
        (sortedSamples history).getD j 0 ≤ (sortedSamples history).getD i 0 := by
  have : IsTrans CFeeRate (· ≥ ·) := ⟨fun _ _ _ h h' => Int64.le_trans h' h⟩
  have : Std.Total (α := CFeeRate) (· ≥ ·) := ⟨fun a b => Int64.le_total b a⟩
  rw [getD_eq_getElem _ _ hj, getD_eq_getElem _ _ (by omega)]
  rcases Nat.eq_or_lt_of_le hij with rfl | hlt
  · exact Int64.le_refl _
  · exact pairwise_iff_getElem.mp (pairwise_insertionSort (· ≥ ·) history.flatten) i j _ hj hlt

theorem Coherent.estimateFee_eq (h : est.Coherent) {n : Nat} (hn : n < est.history.length) : (est.estimateFee (n + 1)).1
    = if (sortedSamples est.history).length < 11 then 0 else (sortedSamples est.history).getD
        (min (((est.history.map length).take n).sum + (est.history.getD n []).length / 2)
          ((sortedSamples est.history).length - 1)) 0 := by
  unfold estimateFee
  dsimp only
  rw [h.sorted, if_neg (by omega), show ((n : Int) + 1 - 1).toNat = n by omega, map_take]
  split_ifs <;> rfl

/-- **Fee estimates never rise with patience**, after any blocks and in whatever order they are asked for: the sorted
samples are those of the history. -/
theorem fee_estimates_antitone (nEntries : Nat) (calls : List EstimatorCall) : (run nEntries calls).Coherent ∧
    ∀ n : Nat, n + 1 < (run nEntries calls).history.length →
      ((run nEntries calls).estimateFee ((n + 1 : Nat) + 1)).1 ≤ ((run nEntries calls).estimateFee (n + 1)).1 := by
  have hcoherent : (run nEntries calls).Coherent := foldlRecOn calls step (.inl rfl) fun _ h call _ => h.step call
  refine ⟨hcoherent, fun n hn => ?_⟩
  generalize run nEntries calls = est at hcoherent hn ⊢
  rw [hcoherent.estimateFee_eq hn, hcoherent.estimateFee_eq (by omega)]
  split_ifs
  · exact Int64.le_refl _
  -- the bucket that is skipped counts in full
  have hsum : ((est.history.map length).take (n + 1)).sum
      = ((est.history.map length).take n).sum + (est.history.getD n []).length := by
    rw [take_succ_eq_append_getElem (by simpa using by omega), sum_append, getElem_map, getD_eq_getElem _ _ (by omega)]
    simp
  exact getD_sortedSamples_le _ (by omega) (by omega)

end CMinerPolicyEstimator

end PwrbCore
