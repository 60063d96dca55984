/-
  Betting.WinningBets — WHICH BETS THE SCAN COLLECTS, AND WHEN IT THROWS (`GetBetPayouts` of `betting/bet.cpp`).

  A bet is compared with the drawn numbers as texts that `stoi` reads, pick by pick and
  from left to right; the reading stops at a hit.  So one notion decides both what is
  collected and what is thrown: where the reading of a pick ends.

  Main results: `collected_payouts_sound_iff`, `getBetPayouts_returns_iff`.
-/
import Mathlib.Data.List.Infix
import PwrbCore.Betting.PlaceBet
import PwrbCore.Betting.SinglePayment

namespace PwrbCore

open List Option Calendar

/-! ## §1. The collected payouts. -/

variable {lb : CLottoBet} {slip : BetSlip} {params : ConsensusParams} {latestDrawStartTime spork19 : Int}
  {paid : CBetOut} {s : List Char} {result : DrawResult} {α β : Type}

/-- The bet parameters of the networks. The lower limit `0.05` is kept in an `int64_t`. -/
structure ConsensusParams.BetLimits (params : ConsensusParams) : Prop where
  nMinBetPayoutRange : params.nMinBetPayoutRange = 0
  nMaxBetPayoutRange : params.nMaxBetPayoutRange = 833 ∨ params.nMaxBetPayoutRange = 101
  nMaxWinnerPayout : params.nMaxWinnerPayout = 10001
  nBetPlaceTimeoutBlocks : params.nBetPlaceTimeoutBlocks = 110 * 60

theorem betLimits_mainNet : ConsensusParams.mainNet.BetLimits := ⟨rfl, .inl rfl, rfl, rfl⟩

/-- **A payout for a winning bet**: an `OP_RETURN` with a bet that wins, mined at least 110 minutes before the draw, a
stake of at most 833 coins, and the payout it wins, at most 10001 coins. -/
structure WinningBet (result : DrawResult) (latestDrawStartTime : Int) (slip : BetSlip) (paid : CBetOut) : Prop where
  opReturn : slip.txout.scriptPubKey.head? = some OP_RETURN
  bet : ∃ lb, CLottoBet.fromOpCode (betOpCode slip.txout.scriptPubKey) = some lb ∧ lb.Wins result ∧
    paid.nValue = lb.winnings slip.txout.nValue
  placed : slip.time ≤ latestDrawStartTime - 110 * 60
  stake : paid.nBetValue = slip.txout.nValue ∧ 0 ≤ slip.txout.nValue ∧ slip.txout.nValue ≤ 833 * COIN
  amount : 0 < paid.nValue ∧ paid.nValue ≤ 10001 * COIN

/-- The stake from which on a bet is to be paid, 0.05 coin. -/
def documentedMinStake : Int := COIN / 20

theorem BetSlip.winningBet_of_wins (hlimits : params.BetLimits)
    (h : slip.wins params result latestDrawStartTime = some paid.nValue) (hstake : paid.nBetValue = slip.txout.nValue) :
    WinningBet result latestDrawStartTime slip paid := by
  obtain ⟨lb, ⟨hreturn, hrange, hread⟩, hwins, htime, hpay, hpaid⟩ := wins_eq_some h
  rw [hlimits.nBetPlaceTimeoutBlocks] at htime
  rw [hlimits.nMinBetPayoutRange] at hrange
  rw [hlimits.nMaxWinnerPayout] at hpaid
  have hmax := hlimits.nMaxBetPayoutRange
  refine ⟨hreturn, ⟨lb, hread, hwins, hpay.symm⟩, htime, ⟨hstake, by omega, ?_⟩, hpaid⟩
  rcases hmax with hmax | hmax <;> rw [hmax] at hrange <;> omega

/-- A winning bet of at most 101 coins is collected, unless its reading throws. -/
theorem BetSlip.wins_of_winningBet (hlimits : params.BetLimits)
    (h : WinningBet result latestDrawStartTime slip paid) (hsmall : slip.txout.nValue ≤ 101 * COIN)
    (hreturns : (betWinnings params result latestDrawStartTime slip.time slip.txout).isSome = true) :
    slip.wins params result latestDrawStartTime = some paid.nValue := by
  obtain ⟨lb, hread, hwins, hpay⟩ := h.bet
  have hbets : slip.Bets params lb := by
    have hstake := h.stake.2.1
    refine ⟨h.opReturn, ⟨by rw [hlimits.nMinBetPayoutRange]; omega, ?_⟩, hread⟩
    rcases hlimits.nMaxBetPayoutRange with hmax | hmax <;> rw [hmax] <;> omega
  obtain ⟨hno, -⟩ | ⟨lb', ⟨-, -, hread'⟩, hwon⟩ := slip.betWinnings_cases params result latestDrawStartTime
  · exact absurd hbets (hno lb)
  rw [hread, some.injEq] at hread'
  subst hread'
  rw [hwon, isSome_map] at hreturns
  obtain ⟨winner, hwinner⟩ := isSome_iff_exists.mp hreturns
  have htime : slip.time ≤ latestDrawStartTime - params.nBetPlaceTimeoutBlocks := by
    rw [hlimits.nBetPlaceTimeoutBlocks]
    exact h.placed
  have hwin := (CLottoBet.isWinner_eq_some hwinner).mpr ⟨hwins, htime⟩
  unfold wins
  rw [hwon, hwinner, map_some, if_pos, hpay]
  · rfl
  · rw [hlimits.nMaxWinnerPayout, ← hpay]
    exact ⟨hwin, h.amount⟩

/-- The entries a `filterMap` keeps stand over a sublist, in order. -/
theorem exists_sublist_of_filterMap (f : α → Option β) (xs : List α) :
    ∃ zs, zs.Sublist xs ∧ List.Forall₂ (fun z y => f z = some y) zs (xs.filterMap f) := by
  induction xs with
  | nil => exact ⟨[], .refl _, .nil⟩
  | cons x xs ih =>
    obtain ⟨zs, hsub, hall⟩ := ih
    cases hx : f x with
    | none =>
      rw [filterMap_cons_none hx]
      exact ⟨zs, hsub.cons x, hall⟩
    | some y =>
      rw [filterMap_cons_some hx]
      exact ⟨x :: zs, hsub.cons_cons x, .cons hx hall⟩

theorem exists_left_of_forall₂ {R : α → β → Prop} {xs : List α} {ys : List β}
    (h : List.Forall₂ R xs ys) {y : β} (hy : y ∈ ys) : ∃ x ∈ xs, R x y := by
  induction h with
  | nil => cases hy
  | cons hxy _ ih => grind

theorem mapM_isSome_iff (f : α → Option β) (xs : List α) :
    (xs.mapM f).isSome = true ↔ ∀ x ∈ xs, (f x).isSome = true := by
  induction xs with
  | nil => simp
  | cons x xs ih =>
    rw [mapM_cons, forall_mem_cons, ← ih]
    cases f x with
    | none => simp
    | some y => cases xs.mapM f <;> simp

/-- **Payout soundness.**  Every expected payout comes from a winning bet of its own with a stake of 0.05
to 833 coins exactly if no winning bet in the blocks scanned stakes less than 0.05 coin. -/
theorem collected_payouts_sound_iff (env : BetEnv) (hlimits : env.params.BetLimits) (result : DrawResult)
    (latestDrawStartTime : Int) (blocks : List CBlock) (vExpectedPayouts : List CBetOut)
    (h : env.expectedPayouts result latestDrawStartTime blocks = some vExpectedPayouts) :
    (∃ slips, slips.Sublist (betSlips blocks) ∧ List.Forall₂ (fun slip paid =>
        WinningBet result latestDrawStartTime slip paid ∧
          documentedMinStake ≤ slip.txout.nValue) slips vExpectedPayouts)
      ↔ ∀ slip ∈ betSlips blocks, ∀ paid, WinningBet result latestDrawStartTime slip paid →
          documentedMinStake ≤ slip.txout.nValue := by
  have heq := BetEnv.expectedPayouts_eq_some h
  constructor
  · rintro ⟨slips, -, hall⟩ slip hslip paid hwin
    by_contra hlow
    -- a smaller stake is within the limits of every network, so the bet is collected
    have hsmall : slip.txout.nValue ≤ 101 * COIN := by grind [COIN, documentedMinStake]
    have hreturns : (betWinnings env.params result latestDrawStartTime slip.time slip.txout).isSome = true := by
      have hfound : ((betSlips blocks).mapM (env.expectedPayout result latestDrawStartTime)).isSome = true := by
        grind [BetEnv.expectedPayouts, isSome_map]
      simp_all [mapM_isSome_iff, BetEnv.expectedPayout]
    have hcollected := BetSlip.wins_of_winningBet hlimits hwin hsmall hreturns
    have hmem : (⟨⟨paid.nValue, getScriptForDestination (env.payoutAddress slip.tx)⟩, slip.txout.nValue⟩ : CBetOut)
        ∈ vExpectedPayouts := by grind
    -- the payout names its stake, and so does the bet it is said to come from
    obtain ⟨slip', -, hwin', hstake⟩ := exists_left_of_forall₂ hall hmem
    rw [← hwin'.stake.1] at hstake
    exact hlow hstake
  · intro hstakes
    obtain ⟨slips, hsub, hall⟩ := exists_sublist_of_filterMap (fun slip : BetSlip =>
      (slip.wins env.params result latestDrawStartTime).map fun payout =>
        ({ nValue := payout
           scriptPubKey := getScriptForDestination (env.payoutAddress slip.tx)
           nBetValue := slip.txout.nValue } : CBetOut)) (betSlips blocks)
    rw [← heq] at hall
    have hin : ∀ slip ∈ slips, slip ∈ betSlips blocks := fun slip hslip => hsub.subset hslip
    refine ⟨slips, hsub, ((forall₂_and_left _ _).mpr ⟨hin, hall⟩).imp ?_⟩
    rintro slip paid ⟨hslip, hpaid⟩
    rw [map_eq_some_iff] at hpaid
    obtain ⟨payout, hwins, rfl⟩ := hpaid
    have hwin : WinningBet result latestDrawStartTime slip
        ⟨⟨payout, getScriptForDestination (env.payoutAddress slip.tx)⟩, slip.txout.nValue⟩ :=
      BetSlip.winningBet_of_wins hlimits hwins rfl
    exact ⟨hwin, hstakes slip hslip _ hwin⟩

def centBetBlock : CBlock where
  hash := 61
  hashPrevBlock := 60
  nTime := 1601899260
  vtx := [{ hash := 50, vin := [.of 7 0],
            vout := [⟨COIN / 100, OP_RETURN :: CScript.pushData (betBytes ⟨20201007, 7, 0, 0⟩)⟩] }]

theorem centBet_collected : sampleEnv.expectedPayouts samplePlacedResult 1602125940 [centBetBlock]
    = some [⟨⟨12000000, payTo 9⟩, 1000000⟩] := by
  decide +kernel

theorem cent_bet_paid : ∃ v, sampleEnv.expectedPayouts samplePlacedResult 1602125940 [centBetBlock] = some v ∧
      ¬ ∃ slips, slips.Sublist (betSlips [centBetBlock]) ∧ List.Forall₂ (fun slip paid =>
        WinningBet samplePlacedResult 1602125940 slip paid ∧ documentedMinStake ≤ slip.txout.nValue) slips v := by
  refine ⟨_, centBet_collected, ?_⟩
  rintro ⟨slips, -, hall⟩
  obtain ⟨slip, -, hwin, hstake⟩ := exists_left_of_forall₂ hall (mem_singleton.mpr rfl)
  rw [← hwin.stake.1] at hstake
  exact absurd hstake (by decide)

def coinBetBlock : CBlock := { hash := 61, hashPrevBlock := 60, nTime := 1601899260, vtx := [samplePlacedTx 7 12 0 1] }

/-- The equivalence on a block that is paid within the rules. -/
theorem coin_bet_within_rules : (∃ slips, slips.Sublist (betSlips [coinBetBlock]) ∧ List.Forall₂ (fun slip paid =>
        WinningBet samplePlacedResult 1602125940 slip paid ∧ documentedMinStake ≤ slip.txout.nValue) slips
          [⟨⟨20000000000, payTo 9⟩, 100000000⟩])
      ↔ ∀ slip ∈ betSlips [coinBetBlock], ∀ paid, WinningBet samplePlacedResult 1602125940 slip paid →
          documentedMinStake ≤ slip.txout.nValue :=
  collected_payouts_sound_iff sampleEnv betLimits_mainNet samplePlacedResult 1602125940 [coinBetBlock] _
    (by decide +kernel)

/-! ## §2. The result of the draw. -/

/-- The date the results are looked up under is a text of ten characters. -/
theorem latestDrawDate_returns {blockTime : Nat} (h : blockTime < 2 ^ 32) :
    ∃ date, latestDrawDate blockTime = some date ∧ date.length = 10 := by
  have htime : (UInt32.ofNat blockTime).toNat = blockTime := UInt32.toNat_ofNat_of_lt' h
  have hyear := year_of_blockTime (.ofNat blockTime)
  rw [htime] at hyear
  have hbounds := civilFromDays_bounds (lastDrawDay blockTime)
  have hbefore : 1000 ≤ (civilFromDays (lastDrawDay blockTime - 1)).year ∧
      (civilFromDays (lastDrawDay blockTime - 1)).year ≤ 9999 := by
    apply civilFromDays_year
    unfold lastDrawDay weekday
    dsimp only
    split_ifs <;> omega
  rw [civilFromDays_sub_one] at hbefore
  unfold latestDrawDate lastdrawdate
  generalize civilFromDays (lastDrawDay blockTime) = c at hyear hbounds hbefore ⊢
  rw [previousDay_isoDate hyear (by omega) (by omega)]
  refine ⟨_, rfl, ?_⟩
  -- the edited date has the year of the day before
  have hedited : (editedDate c).year = c.previous.year := by
    unfold editedDate Calendar.Civil.previous
    split_ifs <;> first | rfl | omega
  rw [← hedited] at hbefore
  obtain ⟨y1, y2, y3, y4, htext, -, -⟩ := intToStr_four hbefore
  unfold isoDate
  rw [htext]
  rfl

/-- The numbers are set only with a date that contains the one searched for. -/
theorem scanResults_cases (date : List Char) (entries : List ResultsEntry) (acc : List Char × List Char) :
    (scanResults date entries acc).2 = acc.2 ∨ contains date (scanResults date entries acc).1 = true := by
  fun_induction scanResults date entries acc with
  | case1 | case2 | case4 | case5 | case6 => exact .inl rfl
  | case3 _ _ _ _ hfound => exact .inr hfound
  | case7 _ _ _ _ _ _ _ _ _ ih | case8 _ _ _ _ _ ih => exact ih

theorem length_le_of_contains {sub : List Char} (h : contains sub s = true) : sub.length ≤ s.length := by
  unfold contains at h
  grind [mem_tails]

/-- Numbers that an entry gave stand under a date of ten characters. -/
theorem length_date_of_found {date : List Char} {entries : List ResultsEntry} {acc : List Char × List Char}
    (hdate : date.length = 10)
    (hacc : ¬ 17 ≤ acc.2.length) (h : 17 ≤ (scanResults date entries acc).2.length) :
        10 ≤ (scanResults date entries acc).1.length := by
  rcases scanResults_cases date entries acc with heq | hfound
  · rw [heq] at h
    exact absurd h hacc
  · have hle := length_le_of_contains hfound
    omega

section

variable (sources : ResultSources) (date : List Char)

/-- The entry found in the first file, then that found in the second. -/
def firstFound : List Char × List Char :=
  scanResults date sources.officialResults ([], [])

def secondFound : List Char × List Char :=
  scanResults date sources.secondResults (firstFound sources date)

/-- **A result is at hand**: a file entry for the date with winning numbers of at least 17 characters, or a spork
value of at least 16 digits. -/
def ResultAtHand : Prop :=
  17 ≤ (firstFound sources date).2.length ∨ 17 ≤ (secondFound sources date).2.length ∨
    16 ≤ (intToStr sources.spork19).length

def numberTexts : List (List Char) :=
  let first := (firstFound sources date).2
  let second := (secondFound sources date).2
  if 17 ≤ first.length then [0, 3, 6, 9, 12].map fun pos => stripZero ((first.drop pos).take 2)
  else if 17 ≤ second.length then [0, 3, 6, 9, 12].map fun pos => stripZero ((second.drop pos).take 2)
  else [8, 10, 12, 14, 16].map fun pos => stripZero (((intToStr sources.spork19).drop pos).take 2)

theorem substr_eq {pos : Nat} (h : pos ≤ s.length) (n : Nat) : substr s pos n = some ((s.drop pos).take n) := by
  unfold substr
  rw [if_neg (by omega)]

/-- An entry that was found and is long enough is cut up without an exception. -/
theorem officialResult_eq {date numbers : List Char} (hdate : 10 ≤ date.length) (hnumbers : 17 ≤ numbers.length) :
    ∃ result, officialResult date numbers = some result ∧
      result.nums = [0, 3, 6, 9, 12].map fun pos => stripZero ((numbers.drop pos).take 2) := by
  unfold officialResult
  simp only [mapM_cons]
  repeat rw [substr_eq (by omega)]
  exact ⟨_, rfl, rfl⟩

theorem sporkResult_eq (h : 16 ≤ (intToStr spork19).length) : ∃ result, sporkResult spork19 = some result ∧
      result.nums = [8, 10, 12, 14, 16].map fun pos => stripZero (((intToStr spork19).drop pos).take 2) := by
  unfold sporkResult
  simp only [mapM_cons]
  repeat rw [substr_eq (by omega)]
  exact ⟨_, rfl, rfl⟩

theorem sporkResult_eq_none (h : (intToStr spork19).length < 16) : sporkResult spork19 = none := by
  cases hres : sporkResult spork19 with
  | none => rfl
  | some result =>
    unfold sporkResult at hres
    simp only [mapM_cons, bind_eq_bind, bind_eq_some_iff] at hres
    obtain ⟨-, -, -, ⟨-, -, -, ⟨-, -, -, ⟨-, -, -, ⟨-, -, -, ⟨last, hlast, -⟩, -⟩, -⟩, -⟩, -⟩, -⟩ := hres
    unfold substr at hlast
    rw [if_pos h] at hlast
    cases hlast

theorem drawResult_eq : drawResult sources date = if 17 ≤ (firstFound sources date).2.length then
      officialResult (firstFound sources date).1 (firstFound sources date).2
    else if 17 ≤ (secondFound sources date).2.length then
      officialResult (secondFound sources date).1 (secondFound sources date).2
    else sporkResult sources.spork19 := rfl

end

/-- **The result** is read without an exception exactly if one is at hand. -/
theorem drawResult_spec (sources : ResultSources) {date : List Char} (hdate : date.length = 10) :
    (ResultAtHand sources date ∧ ∃ result, drawResult sources date = some result ∧
        result.nums = numberTexts sources date) ∨ (¬ ResultAtHand sources date ∧ drawResult sources date = none) := by
  unfold ResultAtHand numberTexts
  rw [drawResult_eq]
  by_cases h1 : 17 ≤ (firstFound sources date).2.length
  · rw [if_pos h1, if_pos h1]
    exact .inl ⟨.inl h1, officialResult_eq (length_date_of_found hdate (by decide) h1) h1⟩
  · rw [if_neg h1, if_neg h1]
    by_cases h2 : 17 ≤ (secondFound sources date).2.length
    · -- the numbers of the first file are too short, so these are the second file's
      rw [if_pos h2, if_pos h2]
      exact .inl ⟨.inr (.inl h2), officialResult_eq (length_date_of_found hdate h1 h2) h2⟩
    · rw [if_neg h2, if_neg h2]
      by_cases h3 : 16 ≤ (intToStr sources.spork19).length
      · left
        exact ⟨.inr (.inr h3), sporkResult_eq h3⟩
      · grind [sporkResult_eq_none]

/-! ## §3. Exceptions. -/

/-- **Nothing to throw at**: at a payout height a result is at hand, and the numbers that picks are compared with can
be read. -/
def ResultsReadable (params : ConsensusParams) (sources : ResultSources) (chain : List CBlock) (height : Int) : Prop :=
  ∀ tip start date, chain.getLast? = some tip → payoutGate height tip.nTime →
    traverseStart params height = some start → latestDrawDate tip.nTime = some date →
    ResultAtHand sources date ∧ ∀ slip ∈ betSlips (chain.drop start.toNat), ∀ lb, slip.Bets params lb →
      ∀ n ∈ lb.picked, PickReadable n (numberTexts sources date)

/-- The scan throws exactly at a bet with a pick that cannot be compared. -/
theorem BetEnv.expectedPayouts_isSome_iff (env : BetEnv) (result : DrawResult) (latestDrawStartTime : Int)
    (blocks : List CBlock) : (env.expectedPayouts result latestDrawStartTime blocks).isSome = true
      ↔ ∀ slip ∈ betSlips blocks, ∀ lb, slip.Bets env.params lb → ∀ n ∈ lb.picked, PickReadable n result.nums := by
  unfold expectedPayouts
  rw [isSome_map, mapM_isSome_iff]
  refine forall₂_congr fun slip _ => ?_
  unfold expectedPayout
  rw [isSome_map]
  obtain ⟨hno, hnone⟩ | ⟨lb, hbets, hwon⟩ := slip.betWinnings_cases env.params result latestDrawStartTime
  · rw [hnone]
    exact iff_of_true rfl fun lb hbets => absurd hbets (hno lb)
  rw [hwon, isSome_map, lb.isWinner_isSome_iff]
  constructor
  · rintro h lb' ⟨-, -, hread⟩
    have hsame : lb' = lb := some.inj (hread.symm.trans hbets.2.2)
    rw [hsame]
    exact h
  · intro h
    exact h lb hbets

/-- **Exceptions.** `GetBetPayouts` returns a payout vector exactly if the results are readable, else an exception
leaves it. Block times are 32-bit. -/
theorem getBetPayouts_returns_iff (env : BetEnv) (sources : ResultSources) (chain : List CBlock) (height : Int)
    (htime : ∀ block ∈ chain, block.nTime < 2 ^ 32) :
    (∃ due, getBetPayouts env sources chain height = some due) ↔ ResultsReadable env.params sources chain height := by
  rw [← isSome_iff_exists]
  unfold getBetPayouts ResultsReadable
  cases htip : chain.getLast? with
  | none => exact iff_of_true rfl fun tip _ _ h => by cases h
  | some tip =>
    have hmem : tip ∈ chain := mem_of_getLast? htip
    obtain ⟨date, hdate, hlength⟩ := latestDrawDate_returns (htime tip hmem)
    dsimp only
    by_cases hgate : payoutGate height tip.nTime
    · rw [if_pos hgate]
      cases hstart : traverseStart env.params height with
      | none => exact iff_of_true rfl fun _ _ _ _ _ h => by cases h
      | some start =>
        -- what is left of the function, at the only tip, start and date there are
        have hrest : (∀ tip' start' date', some tip = some tip' → payoutGate height tip'.nTime →
            some start = some start' → latestDrawDate tip'.nTime = some date' →
            ResultAtHand sources date' ∧ ∀ slip ∈ betSlips (chain.drop start'.toNat), ∀ lb,
              slip.Bets env.params lb → ∀ n ∈ lb.picked, PickReadable n (numberTexts sources date')) ↔
            ResultAtHand sources date ∧ ∀ slip ∈ betSlips (chain.drop start.toNat), ∀ lb,
              slip.Bets env.params lb → ∀ n ∈ lb.picked, PickReadable n (numberTexts sources date) := by grind
        rw [hrest]
        dsimp only
        rw [hdate, bind_eq_bind, bind_some]
        obtain ⟨hhand, result, hresult, hnums⟩ | ⟨hnone, hresult⟩ := drawResult_spec sources hlength
        · rw [hresult, bind_eq_bind, bind_some, ← hnums, ← env.expectedPayouts_isSome_iff]
          cases env.expectedPayouts result (lastdrawtime tip.nTime) (chain.drop start.toNat) with
          | none => simp
          | some expected => simp [hhand]
        · rw [hresult]
          exact iff_of_false (by simp) fun h => hnone h.1
    · grind

abbrev sampleChain : List CBlock := (range 3000).map sampleBlock

theorem sampleChain_time {i : Nat} (hi : i ≤ 5000) : ∀ block ∈ (range i).map sampleBlock, block.nTime < 2 ^ 32 := by
  intro block hblock
  obtain ⟨j, hj, rfl⟩ := mem_map.mp hblock
  have hlt := mem_range.mp hj
  show sampleTime j < 2 ^ 32
  unfold sampleTime
  split_ifs <;> omega

/-- On the sample chain, at height 3000 and with the spork of 3 October 2020, all is readable. -/
theorem sample_results_readable :
    ResultsReadable .mainNet octoberSpork sampleChain 3000 :=
  (getBetPayouts_returns_iff chainEnv _ _ 3000 (sampleChain_time (by decide))).mp ⟨_, sample_getBetPayouts (by decide)⟩

/-- A results file with an entry for the draw whose first number is no number. -/
def garbledResults : ResultSources where
  officialResults := [.object (some "2020-10-03T00:00:00.000".toList) (some "xx 11 22 33 44 10 2".toList)]

/-- At height 3000 `GetBetPayouts` throws when the node has no results file and SPORK_19 is a short value, and when
the results file has a garbled number and the chain has a bet. -/
theorem short_spork_and_garbled_file_throw :
    getBetPayouts chainEnv { spork19 := 20201003 } sampleChain 3000 = none ∧
      getBetPayouts chainEnv garbledResults sampleChain 3000 = none := by
  constructor
  · rw [getBetPayouts_after_draw rfl (getLast?_chain (by decide))]
    rfl
  have hresult : drawResult garbledResults "2020-10-03".toList
      = some ⟨"20201003".toList, ["xx", "11", "22", "33", "44"].map String.toList⟩ := by decide
  have hexpected : chainEnv.expectedPayouts ⟨"20201003".toList, ["xx", "11", "22", "33", "44"].map String.toList⟩
      1601780340 (sampleChain.drop 201) = none := by
    rw [window_expectedPayouts _ _ (by decide) fun j _ hj => by rw [opReturnCount_sampleBlock, if_neg hj]]
    decide +kernel
  rw [getBetPayouts_after_draw rfl (getLast?_chain (by decide)), hresult, bind_some, hexpected]
  rfl

end PwrbCore
