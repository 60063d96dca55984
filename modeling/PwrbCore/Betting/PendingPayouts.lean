/-
  Betting.PendingPayouts — WHAT IS STILL DUE: the comparison of expected and completed payouts at the end of
  `GetBetPayouts` (`betting/bet.cpp`).

  The two lists are compared by amount and address.  A completed payout is not used up by the
  expected payout it is matched with, and nothing is due once the completed list is as
  long as the expected one.

  Main result: `pendingPayouts_eq_difference_iff`.
-/
import Mathlib.Data.Multiset.Filter
import PwrbCore.Betting.BetPayouts

namespace PwrbCore

open Multiset

/-! ## §1. Counting payouts by amount and address. -/

variable {key : Int × CTxDestination} {payouts : List CBetOut}

def BetEnv.payoutKey (env : BetEnv) (o : CBetOut) : Int × CTxDestination := (o.nValue, env.dest o.toCTxOut)

def BetEnv.payoutKeys (env : BetEnv) (payouts : List CBetOut) : Multiset (Int × CTxDestination) :=
  Multiset.ofList (payouts.map env.payoutKey)

/-- How many payouts of a list have the amount and the address of the given one. -/
def BetEnv.timesIn (env : BetEnv) (o : CBetOut) (payouts : List CBetOut) : Nat :=
  (env.payoutKeys payouts).count (env.payoutKey o)

/-- The completed payouts that meet some expected one. -/
def BetEnv.relevant (env : BetEnv) (vExpectedPayouts vCompletedPayouts : List CBetOut) : List CBetOut :=
  vCompletedPayouts.filter fun c => decide (env.payoutKey c ∈ env.payoutKeys vExpectedPayouts)

namespace BetEnv

variable {env : BetEnv} {vExpectedPayouts vCompletedPayouts : List CBetOut}

theorem mem_payoutKeys : key ∈ env.payoutKeys payouts ↔ ∃ o ∈ payouts, env.payoutKey o = key := by
  unfold payoutKeys
  rw [mem_coe, List.mem_map]

theorem payoutKey_mem {o : CBetOut} (h : o ∈ payouts) :
    env.payoutKey o ∈ env.payoutKeys payouts := mem_payoutKeys.mpr ⟨o, h, rfl⟩

theorem card_payoutKeys (payouts : List CBetOut) : card (env.payoutKeys payouts) = payouts.length := by
  show (payouts.map env.payoutKey).length = payouts.length
  rw [List.length_map]

theorem betPaid_iff (e : CBetOut) :
    env.betPaid vCompletedPayouts e = true ↔ env.payoutKey e ∈ env.payoutKeys vCompletedPayouts := by
  unfold betPaid
  rw [List.any_eq_true, mem_payoutKeys]
  constructor
  · rintro ⟨c, hc, hsame⟩
    rw [Bool.and_eq_true, beq_iff_eq, beq_iff_eq] at hsame
    exact ⟨c, hc, Prod.ext hsame.1 hsame.2⟩
  · rintro ⟨c, hc, hkey⟩
    refine ⟨c, hc, ?_⟩
    rw [Bool.and_eq_true, beq_iff_eq, beq_iff_eq]
    exact ⟨congrArg Prod.fst hkey, congrArg Prod.snd hkey⟩

theorem count_payoutKeys_filter (env : BetEnv) {p : CBetOut → Bool} {q : Int × CTxDestination → Prop} [DecidablePred q]
    (hpq : ∀ o, p o = decide (q (env.payoutKey o))) (payouts : List CBetOut) (key : Int × CTxDestination) :
    (env.payoutKeys (payouts.filter p)).count key = if q key then (env.payoutKeys payouts).count key else 0 := by
  have hkeys : env.payoutKeys (payouts.filter p) = (env.payoutKeys payouts).filter q := by
    unfold payoutKeys
    rw [filter_coe, List.filter_map]
    congr 2
    exact List.filter_congr fun o _ => hpq o
  rw [hkeys]
  split_ifs with hq
  · exact count_filter_of_pos hq
  · exact count_filter_of_neg hq

/-- How often a key is pending: never, or as often as it is expected. -/
theorem count_pendingPayouts (key : Int × CTxDestination) :
    (env.payoutKeys (env.pendingPayouts vExpectedPayouts vCompletedPayouts)).count key
      = if vExpectedPayouts.length ≤ vCompletedPayouts.length ∨ key ∈ env.payoutKeys vCompletedPayouts then 0
        else (env.payoutKeys vExpectedPayouts).count key := by
  unfold pendingPayouts
  by_cases hshort : vCompletedPayouts.length < vExpectedPayouts.length
  · rw [if_pos hshort]
    have hfilter : ∀ o, (!env.betPaid vCompletedPayouts o)
        = decide (env.payoutKey o ∉ env.payoutKeys vCompletedPayouts) := by
      intro o
      rw [Bool.eq_iff_iff, Bool.not_eq_true', ← Bool.not_eq_true, betPaid_iff, decide_eq_true_iff]
    rw [count_payoutKeys_filter env (q := fun key => key ∉ env.payoutKeys vCompletedPayouts) hfilter]
    have hnot : ¬ vExpectedPayouts.length ≤ vCompletedPayouts.length := by omega
    simp only [hnot, false_or, ite_not]
  · rw [if_neg hshort, if_pos (.inl (by omega))]
    rfl

/-! ## §2. When the pending payouts are the difference. -/

/-- **The condition**: an expected payout that is met has been completed as often as it is expected, and so has every
expected payout once the completed list is as long. -/
def MetInFull (env : BetEnv) (vExpectedPayouts vCompletedPayouts : List CBetOut) : Prop :=
  ∀ e ∈ vExpectedPayouts, vExpectedPayouts.length ≤ vCompletedPayouts.length ∨ env.betPaid vCompletedPayouts e = true →
      env.timesIn e vExpectedPayouts ≤ env.timesIn e vCompletedPayouts

instance (env : BetEnv) (vExpectedPayouts vCompletedPayouts : List CBetOut) :
    Decidable (env.MetInFull vExpectedPayouts vCompletedPayouts) :=
  inferInstanceAs (Decidable (∀ e ∈ vExpectedPayouts, _ → _))

theorem MetInFull.count_le (h : env.MetInFull vExpectedPayouts vCompletedPayouts)
    (hkey : vExpectedPayouts.length ≤ vCompletedPayouts.length ∨ key ∈ env.payoutKeys vCompletedPayouts) :
    (env.payoutKeys vExpectedPayouts).count key ≤ (env.payoutKeys vCompletedPayouts).count key := by
  by_cases hexpected : key ∈ env.payoutKeys vExpectedPayouts
  · obtain ⟨e, he, rfl⟩ := mem_payoutKeys.mp hexpected
    rw [← betPaid_iff] at hkey
    exact h e he hkey
  · rw [count_eq_zero.mpr hexpected]
    omega

/-- Completed payouts that meet no expected one can then be left out. -/
theorem MetInFull.pendingPayouts_relevant (h : env.MetInFull vExpectedPayouts vCompletedPayouts) :
    env.pendingPayouts vExpectedPayouts vCompletedPayouts
      = env.pendingPayouts vExpectedPayouts (env.relevant vExpectedPayouts vCompletedPayouts) := by
  have hle : (env.relevant vExpectedPayouts vCompletedPayouts).length ≤ vCompletedPayouts.length :=
    List.length_filter_le _ _
  have hcount := count_payoutKeys_filter env (q := fun key => key ∈ env.payoutKeys vExpectedPayouts)
    (fun _ => rfl) vCompletedPayouts
  unfold pendingPayouts
  by_cases hshort : vCompletedPayouts.length < vExpectedPayouts.length
  · rw [if_pos hshort, if_pos (by omega)]
    -- an expected payout is met by a completed one or by no relevant one
    refine List.filter_congr fun e he => ?_
    have hsame : env.betPaid vCompletedPayouts e
        = env.betPaid (env.relevant vExpectedPayouts vCompletedPayouts) e := by
      rw [Bool.eq_iff_iff, betPaid_iff, betPaid_iff, ← count_pos, ← count_pos]
      show _ ↔ 0 < (env.payoutKeys (vCompletedPayouts.filter _)).count (env.payoutKey e)
      rw [hcount, if_pos (payoutKey_mem he)]
    rw [hsame]
  · rw [if_neg hshort, if_neg]
    -- the relevant completed payouts are as many as the expected ones
    have hsub : env.payoutKeys vExpectedPayouts
        ≤ env.payoutKeys (env.relevant vExpectedPayouts vCompletedPayouts) := by
      rw [le_iff_count]
      intro key
      show _ ≤ (env.payoutKeys (vCompletedPayouts.filter _)).count key
      rw [hcount]
      split_ifs with hkey
      · exact h.count_le (.inl (by omega))
      · rw [count_eq_zero.mpr hkey]
    have hcard := card_le_card hsub
    rw [card_payoutKeys, card_payoutKeys] at hcard
    omega

end BetEnv

/-- **Pending payouts** are the expected ones less the completed ones, with no influence of completed ones that meet
none, exactly where every expected payout that is met at all is met as often as it is expected. -/
theorem pendingPayouts_eq_difference_iff (env : BetEnv) (vExpectedPayouts vCompletedPayouts : List CBetOut) :
    (env.payoutKeys (env.pendingPayouts vExpectedPayouts vCompletedPayouts)
        = env.payoutKeys vExpectedPayouts - env.payoutKeys vCompletedPayouts ∧
      env.pendingPayouts vExpectedPayouts vCompletedPayouts
        = env.pendingPayouts vExpectedPayouts (env.relevant vExpectedPayouts vCompletedPayouts))
      ↔ env.MetInFull vExpectedPayouts vCompletedPayouts := by
  constructor
  · rintro ⟨hdiff, -⟩ e he hmet
    have hcount := congrArg (count (env.payoutKey e)) hdiff
    rw [BetEnv.betPaid_iff] at hmet
    rw [BetEnv.count_pendingPayouts, if_pos hmet, count_sub] at hcount
    unfold BetEnv.timesIn
    omega
  · intro hmet
    refine ⟨?_, hmet.pendingPayouts_relevant⟩
    rw [ext]
    intro key
    rw [BetEnv.count_pendingPayouts, count_sub]
    split_ifs with hkey
    · have hle := hmet.count_le hkey
      omega
    · rw [not_or] at hkey
      rw [count_eq_zero.mpr hkey.2]
      omega

/-- Two identical tickets of one address, one of them paid: nothing is pending. -/
theorem twin_ticket_left_unpaid :
    let ticket : CBetOut := ⟨⟨12 * COIN, payTo 1⟩, COIN⟩
    let paid : CBetOut := ⟨⟨12 * COIN, payTo 1⟩, 0⟩
    sampleEnv.pendingPayouts [ticket, ticket] [paid] = [] ∧
      sampleEnv.payoutKeys [ticket, ticket] - sampleEnv.payoutKeys [paid] = sampleEnv.payoutKeys [ticket] ∧
      ¬ sampleEnv.MetInFull [ticket, ticket] [paid] := by
  decide +kernel

end PwrbCore
