/-
  Chain.BlockTime — BLOCK TIMES (`CheckBlockTime` of `main.cpp`, `MinPastBlockTime`, `MaxFutureBlockTime` of
  `chain.cpp`).

  A chain is the list of its blocks, the block at height `i` at position `i`.

  Main result: `Timed.lt_of_lt`.
-/
import Mathlib.Data.List.Sort
import PwrbCore.Params

namespace PwrbCore

open List ConsensusParams

/-! ## §1. The check. -/

variable {block : CBlock} {params : ConsensusParams}

/-- `GetMedianTimePast` of the last block of `chain`, over at most eleven blocks. -/
def medianTimePast (chain : List CBlock) : Int :=
  let times := ((chain.reverse.take 11).map fun b => (b.nTime : Int)).insertionSort (· ≤ ·)
  (times[times.length / 2]?).getD 0

def minPastBlockTime (params : ConsensusParams) (chain : List CBlock) (tip : CBlock) : Int :=
  let nHeight : Int := chain.length - 1
  if !params.isTimeProtocolV2 (nHeight + 1) then medianTimePast chain
  else if nHeight + 1 = params.height_start_TimeProtoV2 then
    tip.nTime - params.futureBlockTimeDrift nHeight + params.futureBlockTimeDrift (nHeight + 1)
  else tip.nTime

/-- `CheckBlockTime` on top of `chain` at adjusted time `now`. The genesis block is not checked. -/
def checkBlockTime (params : ConsensusParams) (now : Int) (chain : List CBlock) (block : CBlock) : Bool :=
  match chain.getLast? with
  | none => true
  | some tip =>
    if params.network = .regtest then true
    else if now + params.futureBlockTimeDrift chain.length < block.nTime then false
    else if (block.nTime : Int) ≤ minPastBlockTime params chain tip then false
    else params.isValidBlockTimeStamp block.nTime chain.length

variable {chain : List CBlock}

theorem medianTimePast_lt {bound : Int} (hpos : 0 < bound)
    (h : ∀ b ∈ chain, (b.nTime : Int) < bound) : medianTimePast chain < bound := by
  unfold medianTimePast
  dsimp only
  cases hmid : (((chain.reverse.take 11).map fun b => (b.nTime : Int)).insertionSort (· ≤ ·))[
      (((chain.reverse.take 11).map fun b => (b.nTime : Int)).insertionSort (· ≤ ·)).length / 2]? with
  | none => exact hpos
  | some t =>
    -- the median is one of the times
    have hmem := mem_of_getElem? hmid
    rw [mem_insertionSort, mem_map] at hmem
    obtain ⟨b, hb, rfl⟩ := hmem
    exact h b (mem_reverse.mp (mem_of_mem_take hb))

/-- A block in its slot that is younger than the chain passes at its own time. -/
theorem checkBlockTime_of_later
    (hpos : 0 < block.nTime) (hslot : block.nTime % 15 = 0) (h : ∀ b ∈ chain, b.nTime < block.nTime) :
    checkBlockTime .mainNet block.nTime chain block = true := by
  have hdrift : ∀ n, 0 ≤ mainNet.futureBlockTimeDrift n := by
    intro n
    unfold futureBlockTimeDrift
    split_ifs <;> decide
  unfold checkBlockTime
  cases htip : chain.getLast? with
  | none => rfl
  | some tip =>
    have htipTime := h tip (mem_of_getLast? htip)
    dsimp only
    rw [if_neg (by decide), if_neg (by have := hdrift chain.length; omega), if_neg]
    · unfold isValidBlockTimeStamp
      split_ifs
      · rfl
      · have hlength : mainNet.nTimeSlotLength = 15 := rfl
        rw [hlength, decide_eq_true_iff]
        omega
    · unfold minPastBlockTime
      dsimp only
      split_ifs with hv1 htransition
      · have hmedian := medianTimePast_lt (by omega : (0 : Int) < block.nTime) fun b hb => by
          have := h b hb
          omega
        omega
      · -- on the transition the drift of the new protocol is the smaller one
        have hold : mainNet.futureBlockTimeDrift ((chain.length : Int) - 1) = 180 := by
          have hheight : (chain.length : Int) - 1 = 2099 := by
            have : mainNet.height_start_TimeProtoV2 = 2100 := rfl
            omega
          rw [hheight]
          decide
        have hnew : mainNet.futureBlockTimeDrift ((chain.length : Int) - 1 + 1) = 14 := by
          rw [htransition]
          decide
        omega
      · omega

/-! ## §2. Later blocks have later times. -/

/-- Every block of the chain passed the check when it was added, at some clock. -/
def Timed (params : ConsensusParams) (chain : List CBlock) : Prop :=
  ∀ (i : Nat) (block : CBlock), chain[i]? = some block → ∃ now, checkBlockTime params now (chain.take i) block = true

theorem checkBlockTime_lt {now : Int}
    {tip : CBlock} (hnet : params.network ≠ .regtest) (htip : chain.getLast? = some tip)
    (hheight : params.height_start_TimeProtoV2 < chain.length)
    (h : checkBlockTime params now chain block = true) : tip.nTime < block.nTime := by
  unfold checkBlockTime at h
  rw [htip] at h
  dsimp only at h
  rw [if_neg hnet] at h
  split_ifs at h with hfuture hpast
  unfold minPastBlockTime at hpast
  have hv2 : params.isTimeProtocolV2 ((chain.length : Int) - 1 + 1) = true := by
    unfold isTimeProtocolV2
    rw [decide_eq_true_iff]
    omega
  dsimp only at hpast
  rw [hv2, if_neg (by simp)] at hpast
  omega

/-- **Later blocks have later times**, above the start of time protocol v2. -/
theorem Timed.lt_of_lt (htimed : Timed params chain) (hnet : params.network ≠ .regtest) {i j : Nat} {a b : CBlock}
    (hi : params.height_start_TimeProtoV2 ≤ i) (hij : i < j) (ha : chain[i]? = some a)
    (hb : chain[j]? = some b) : a.nTime < b.nTime := by
  -- induction on the distance: one checked block, or the block before and one more
  induction j generalizing b with
  | zero => omega
  | succ j ih =>
    obtain ⟨now, hok⟩ := htimed (j + 1) b hb
    have hlen : j + 1 < chain.length := (List.getElem?_eq_some_iff.mp hb).1
    obtain ⟨p, hp⟩ : ∃ p, chain[j]? = some p := ⟨_, getElem?_eq_getElem (by omega)⟩
    have htip : (chain.take (j + 1)).getLast? = some p := by
      rw [getLast?_eq_getElem?, length_take, min_eq_left (by omega), getElem?_take_of_lt (by omega)]
      exact hp
    have hstep : p.nTime < b.nTime := by
      apply checkBlockTime_lt hnet htip _ hok
      rw [length_take]
      omega
    by_cases heq : i = j
    · subst heq
      rw [ha] at hp
      cases hp
      exact hstep
    · have := ih (by omega) hp
      omega

end PwrbCore
