/-
  Node.TimeData — THE CLOCK OFFSET TAKEN FROM PEERS (`AddTimeData` of `timedata.cpp`, `CMedianFilter` of `timedata.h`).

  A peer gives one sample.  The offset becomes their median, kept within a limit by `abs64`.
  The least number of 64 bits is its own negative, so that `abs64` finds it within every limit.

  Main result: `time_offset_bounded_iff`.
-/
import PwrbCore.Node.NetAddress
import Mathlib.Data.List.Sort
import Mathlib.Data.Finset.Card
import Mathlib.Algebra.Order.Group.Abs
import Mathlib.Algebra.Order.Group.Int

namespace PwrbCore

open List Int64

variable {n : Int64}

/-- `CMedianFilter<int64_t>`; `vSorted` is `sorted`. -/
structure CMedianFilter where
  vValues : List Int64
  nSize : Nat

namespace CMedianFilter

def input (f : CMedianFilter) (value : Int64) : CMedianFilter :=
  { f with vValues := (if f.vValues.length = f.nSize then f.vValues.tail else f.vValues) ++ [value] }

def sorted (f : CMedianFilter) : List Int64 := f.vValues.insertionSort (· ≤ ·)

def median (f : CMedianFilter) : Int64 :=
  let size := f.sorted.length
  if size % 2 = 1 then f.sorted.getD (size / 2) 0
  else (f.sorted.getD (size / 2 - 1) 0 + f.sorted.getD (size / 2) 0) / 2

end CMedianFilter

def abs64 (n : Int64) : Int64 := if 0 ≤ n then n else -n

/-- The variables of `AddTimeData`. -/
structure TimeData where
  setKnown : Finset CNetAddr := ∅
  vTimeOffsets : CMedianFilter := ⟨[0], 200⟩
  nTimeOffset : Int64 := 0

/-- "Only let other nodes change our time by so much". -/
def limitedOffset (nMedian : Int64) (nOffsetLimit : Int32) : Int64 :=
  if abs64 nMedian < nOffsetLimit.toInt64 then nMedian else ((if 0 < nMedian then 1 else -1) * nOffsetLimit).toInt64

namespace TimeData

/-- At least five samples, and an odd number. -/
def Odd (st : TimeData) : Prop := 5 ≤ st.vTimeOffsets.vValues.length ∧ st.vTimeOffsets.vValues.length % 2 = 1

instance (st : TimeData) : Decidable st.Odd := inferInstanceAs (Decidable (_ ∧ _))

/-- `AddTimeData`; on the regression test net a peer may come again. -/
def addTimeData (isRegTestNet : Bool) (nOffsetLimit : Int32) (st : TimeData) (sample : CNetAddr × Int64) : TimeData :=
  if st.setKnown.card = 200 then st
  else if isRegTestNet = false ∧ sample.1 ∈ st.setKnown then st
  else
    let st1 := { st with
      setKnown := if isRegTestNet then st.setKnown else insert sample.1 st.setKnown
      vTimeOffsets := st.vTimeOffsets.input sample.2 }
    if st1.Odd then { st1 with nTimeOffset := limitedOffset st1.vTimeOffsets.median nOffsetLimit } else st1

/-- The calls one after the other. -/
def run (isRegTestNet : Bool) (nOffsetLimit : Int32) (samples : List (CNetAddr × Int64)) : TimeData :=
  samples.foldl (addTimeData isRegTestNet nOffsetLimit) {}

/-- **The offset is bounded**, and with an odd number of samples it is their median, clamped. -/
def Bounded (nOffsetLimit : Int32) (st : TimeData) : Prop :=
  |st.nTimeOffset.toInt| ≤ nOffsetLimit.toInt ∧
    (st.Odd → st.nTimeOffset.toInt = max (-nOffsetLimit.toInt) (min nOffsetLimit.toInt st.vTimeOffsets.median.toInt))

variable {L : Int32} {net : Bool} {samples : List (CNetAddr × Int64)}

/-- The least number passes for a small one. -/
theorem limitedOffset_minValue (hL : 0 < L) : limitedOffset minValue L = minValue := by
  have habs : abs64 minValue = minValue := by decide
  refine if_pos (lt_iff_toInt_lt.mpr ?_)
  rw [habs, toInt_minValue, Int32.toInt_toInt64]
  exact lt_trans (by decide) (Int32.lt_iff_toInt_lt.mp hL)

theorem toInt_abs64 (hmin : n ≠ minValue) : (abs64 n).toInt = |n.toInt| := by
  have hlow := n.le_toInt
  have hhigh := n.toInt_lt
  have hne : n.toInt ≠ -2 ^ 63 := fun heq => hmin (toInt_inj.mp (heq.trans toInt_minValue.symm))
  unfold abs64
  split_ifs with hsign
  · exact (abs_of_nonneg (le_iff_toInt_le.mp hsign)).symm
  · rw [le_iff_toInt_le, toInt_zero] at hsign
    rw [toInt_neg, abs_of_neg (by omega), Int.bmod_eq_of_le (by omega) (by omega)]

/-- **Any other median is clamped.** -/
theorem toInt_limitedOffset (hL : 0 < L) (hmin : n ≠ minValue) :
    (limitedOffset n L).toInt = max (-L.toInt) (min L.toInt n.toInt) := by
  have hpos : 0 < L.toInt := Int32.lt_iff_toInt_lt.mp hL
  have hint := L.toInt_lt
  have habs := toInt_abs64 hmin
  unfold limitedOffset
  split_ifs with hsmall hsign
  · rw [lt_iff_toInt_lt, habs, Int32.toInt_toInt64, abs_lt] at hsmall
    omega
  all_goals
    rw [lt_iff_toInt_lt, habs, Int32.toInt_toInt64, abs_lt] at hsmall
    rw [lt_iff_toInt_lt, toInt_zero] at hsign
    rw [Int32.toInt_toInt64, Int32.toInt_mul]
  · rw [show Int32.toInt 1 = 1 from rfl, Int.bmod_eq_of_le (by omega) (by omega)]
    omega
  · rw [show Int32.toInt (-1) = -1 from rfl, Int.bmod_eq_of_le (by omega) (by omega)]
    omega

/-- **One call** changes nothing, or it takes the sample and then looks at the offset. -/
theorem addTimeData_cases (net : Bool) (L : Int32) (st : TimeData) (sample : CNetAddr × Int64) :
    addTimeData net L st sample = st ∨ ∃ st1 : TimeData, st1.nTimeOffset = st.nTimeOffset ∧ addTimeData net L st sample
      = if st1.Odd then { st1 with nTimeOffset := limitedOffset st1.vTimeOffsets.median L } else st1 := by
  unfold addTimeData
  by_cases hfull : st.setKnown.card = 200
  · exact .inl (if_pos hfull)
  rw [if_neg hfull]
  by_cases hknown : net = false ∧ sample.1 ∈ st.setKnown
  · exact .inl (if_pos hknown)
  rw [if_neg hknown]
  refine .inr ⟨_, ?_, rfl⟩
  rfl

/-- An odd number of samples decides the offset. -/
theorem nTimeOffset_of_odd (hodd : (run net L samples).Odd) :
    (run net L samples).nTimeOffset = limitedOffset (run net L samples).vTimeOffsets.median L := by
  induction samples using List.reverseRecOn with
  | nil => exact absurd hodd.1 (by show ¬ 5 ≤ 1; decide)
  | append_singleton samples sample ih =>
    rw [run, foldl_concat] at hodd ⊢
    rcases addTimeData_cases net L (run net L samples) sample with heq | ⟨st1, -, heq⟩
    · rw [← run, heq] at hodd ⊢
      exact ih hodd
    rw [← run, heq] at hodd ⊢
    split_ifs at hodd ⊢ with hst1
    · rfl
    · exact absurd hodd hst1

theorem abs_nTimeOffset_le (hL : 0 < L)
    (hmin : ∀ given, given <+: samples → (run net L given).Odd → (run net L given).vTimeOffsets.median ≠ minValue) :
    |(run net L samples).nTimeOffset.toInt| ≤ L.toInt := by
  have hpos : 0 < L.toInt := Int32.lt_iff_toInt_lt.mp hL
  induction samples using List.reverseRecOn with
  | nil => exact le_of_lt hpos
  | append_singleton samples sample ih =>
    have hbefore := ih fun given hgiven => hmin given (hgiven.trans (prefix_append samples [sample]))
    by_cases hodd : (run net L (samples ++ [sample])).Odd
    · rw [nTimeOffset_of_odd hodd, toInt_limitedOffset hL (hmin _ prefix_rfl hodd), abs_le]
      constructor <;> omega
    rw [run, foldl_concat, ← run] at hodd ⊢
    rcases addTimeData_cases net L (run net L samples) sample with heq | ⟨st1, hsame, heq⟩
    · rwa [heq]
    rw [heq] at hodd ⊢
    split_ifs at hodd ⊢ with hst1
    · exact absurd hst1 hodd
    · rwa [hsame]

/-- **The offset is bounded and is the clamped median after every call, exactly while no median it is set from is the
least number of 64 bits.** -/
theorem time_offset_bounded_iff (net : Bool) {L : Int32} (hL : 0 < L) (samples : List (CNetAddr × Int64)) :
    (∀ given, given <+: samples → (run net L given).Bounded L) ↔
      ∀ given, given <+: samples → (run net L given).Odd → (run net L given).vTimeOffsets.median ≠ minValue := by
  constructor
  · intro hall given hgiven hodd hmin
    have hbound := (hall given hgiven).1
    have hint := L.toInt_lt
    rw [nTimeOffset_of_odd hodd, hmin, limitedOffset_minValue hL, toInt_minValue, abs_of_neg (by decide)] at hbound
    omega
  · intro hall given hgiven
    refine ⟨abs_nTimeOffset_le hL fun before hbefore => hall before (hbefore.trans hgiven), fun hodd => ?_⟩
    rw [nTimeOffset_of_odd hodd, toInt_limitedOffset hL (hall given hgiven hodd)]

def leastSamples : List (CNetAddr × Int64) := (List.range 4).map fun i => (⟨[UInt8.ofNat i]⟩, minValue)

theorem least_median_unbounded : ¬ (run false 4200 leastSamples).Bounded 4200 := by
  intro hbounded
  have hbound := hbounded.1
  rw [show (run false 4200 leastSamples).nTimeOffset = minValue by decide] at hbound
  exact absurd hbound (by decide)

theorem least_samples_bounded_iff : (∀ given, given <+: leastSamples → (run false 4200 given).Bounded 4200) ↔
    ∀ given, given <+: leastSamples → (run false 4200 given).Odd →
      (run false 4200 given).vTimeOffsets.median ≠ minValue :=
  time_offset_bounded_iff false (by decide) leastSamples

end TimeData

end PwrbCore
