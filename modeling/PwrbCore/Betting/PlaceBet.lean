/-
  Betting.PlaceBet — PLACING A BET (`placebet` of `wallet/rpcwallet.cpp`, `CLottoBet::ToOpCode` of
  `betting/bet.cpp`) and what becomes of it when it wins.

  The wallet writes the bet into an `OP_RETURN` output, as text that is read back from hex.
  Coin selection, signing and broadcast are the wallet's (`BetWallet`): it may refuse, and a
  transaction it makes contains the output it was asked for.

  Main results: `placed_bet_paid_iff`, `bets_correspond_to_payloads`, `listed_as_placed_iff`.
-/
import Mathlib.Data.List.Nodup
import PwrbCore.Betting.BetPayouts
import PwrbCore.Betting.DrawDates

namespace PwrbCore

open List CScript CLottoBet Option UInt8 Nat

/-! ## §1. The text of a bet. -/

variable {length value : Nat} {result : DrawResult} {nAmount : Int}

def swapEndianness16 (x : Nat) : Nat := x / 2 ^ 8 + x % 2 ^ 8 * 2 ^ 8

def swapEndianness32 (x : Nat) : Nat :=
  x / 2 ^ 24 + x / 2 ^ 16 % 2 ^ 8 * 2 ^ 8 + x / 2 ^ 8 % 2 ^ 8 * 2 ^ 16 + x % 2 ^ 8 * 2 ^ 24

/-- `std::hex << std::setw(length) << std::setfill('0')`. -/
def hexText (length value : Nat) : List Char := List.leftpad length '0' (toDigits 16 value)

/-- `ToHex`: the bytes of the number, the lowest first. -/
def toHex (value length : Nat) : List Char :=
  if length = 2 then hexText 2 value
  else if length = 4 then hexText 4 (swapEndianness16 (value % 2 ^ 16))
  else if length = 8 then hexText 8 (swapEndianness32 value)
  else []

/-- `CLottoBet::ToOpCode`; its caller does not look at what it returns. -/
def CLottoBet.toOpCode (lb : CLottoBet) : List Char :=
  "42".toList ++ "0101".toList ++ toHex lb.nDate 8 ++ toHex lb.nNumber1 4 ++ toHex lb.nNumber2 4 ++ toHex lb.nNumber3 4

/-- `boost::algorithm::unhex`; `none` where it throws. -/
def unhex : List Char → Option (List UInt8)
  | [] => some []
  | [_] => none
  | c :: d :: s => do
    let hi ← hexDigit c
    let lo ← hexDigit d
    return ofNat (16 * hi + lo) :: (← unhex s)

/-! ## §2. `placebet`. -/

/-- What the wallet does to pay an output: `EnsureWalletIsUnlocked`, `EnsureEnoughPWRB` and `SendMoney`. -/
structure BetWallet where
  sendMoney : CTxOut → Except String CTransaction
  /-- `CreateTransaction` puts the output into the transaction -/
  pays : ∀ txout tx, sendMoney txout = .ok tx → txout ∈ tx.vout

/-- A signed number as `uint32_t`. -/
def toUnsigned (n : Int) : Nat := (n % 2 ^ 32).toNat

/-- The bet of an accepted call: `CLottoBet(nDate, nNumber1, nNumber2, nNumber3)`. -/
def lottoBet (nDate nNumber1 nNumber2 nNumber3 : Int) : CLottoBet :=
  ⟨toUnsigned nDate, toUnsigned nNumber1, toUnsigned nNumber2, toUnsigned nNumber3⟩

/-- The output that carries a bet; `none` where `unhex` throws. -/
def betOutput (lb : CLottoBet) (nAmount : Int) : Option CTxOut :=
  (unhex lb.toOpCode).map fun data => ⟨nAmount, OP_RETURN :: CScript.pushData data⟩

/-- The texts of the errors `placebet` throws itself. -/
def incorrectBetAmount : String :=
  "Error: Incorrect bet amount. Please ensure your bet is between 0.05 and 833 PWR inclusive."

def notSynchronized : String := "Error: Please do not bet until the blockchain has syncronized."

def bettingClosed : String := "Error: Betting is closed for the next draw."

def incorrectNumberSelection : String :=
  "Error: Incorrect number selection. Please select numbers between 1 and 69."

/-- `placebet` with the tip at `blockTime` and the clock at `now`. -/
def placebet (params : ConsensusParams) (wallet : BetWallet) (now blockTime nNumber1 nNumber2 nNumber3 nAmount : Int) :
    Except String CTransaction :=
  if nAmount ≤ params.nMinBetPayoutRange * COIN ∨ params.nMaxBetPayoutRange * COIN ≤ nAmount then
    .error incorrectBetAmount
  else if 60 * 60 * 6 < now - blockTime then
    .error notSynchronized
  else if nextdrawtime blockTime - blockTime < 60 * 60 * 2 then
    .error bettingClosed
  else
    match stoi (nextdrawdate (blockTime + 60 * 60 * 2)) with
    | none => .error "stoi"
    | some nDate =>
      if (nNumber1 < 0 ∨ 69 < nNumber1) ∨ (nNumber2 < 0 ∨ 69 < nNumber2) ∨ (nNumber3 < 0 ∨ 69 < nNumber3) then
        .error incorrectNumberSelection
      else
        match betOutput (lottoBet nDate nNumber1 nNumber2 nNumber3) nAmount with
        | none => .error "unhex"
        | some txout => wallet.sendMoney txout

/-! ## §3. The bet is read back. -/

theorem hexText_succ (hlength : 1 ≤ length) (value : Nat) :
    hexText (length + 1) value = hexText length (value / 16) ++ [digitChar (value % 16)] := by
  unfold hexText leftpad
  by_cases hsmall : value < 16
  · rw [toDigits_of_lt_base hsmall, div_eq_of_lt hsmall, mod_eq_of_lt hsmall]
    show replicate (length + 1 - 1) '0' ++ _ = replicate (length - 1) '0' ++ ['0'] ++ _
    obtain ⟨n, rfl⟩ : ∃ n, length = n + 1 := ⟨length - 1, by omega⟩
    rw [← replicate_succ']
    rfl
  simp_all [toDigits_of_base_le]

def byteText (b : Nat) : List Char := [digitChar (b / 16), digitChar (b % 16)]

theorem hexText_byte {b : Nat} (hlength : 1 ≤ length) (hb : b < 2 ^ 8) (value : Nat) :
    hexText (length + 2) (b + value * 2 ^ 8) = hexText length value ++ byteText b := by
  have hdiv : (b + value * 2 ^ 8) / 16 / 16 = value := by omega
  have hhigh : (b + value * 2 ^ 8) / 16 % 16 = b / 16 := by omega
  have hlow : (b + value * 2 ^ 8) % 16 = b % 16 := by omega
  rw [hexText_succ (by omega), hexText_succ hlength, hdiv, hhigh, hlow, append_assoc]
  rfl

theorem hexText_two (h : value < 2 ^ 8) : hexText 2 value = byteText value := by
  rw [hexText_succ (le_refl 1)]
  unfold hexText
  rw [toDigits_of_lt_base (by omega)]
  rfl

theorem hexDigit_digitChar : ∀ n < 16, hexDigit (digitChar n) = some n := by decide

variable {s : List Char} {data : List UInt8} {lb : CLottoBet} {drawn : List Int} {n₁ n₂ n₃ : Int}

theorem unhex_byteText {b : Nat} (hb : b < 2 ^ 8) (hs : unhex s = some data) :
    unhex (byteText b ++ s) = some (ofNat b :: data) := by
  show unhex (digitChar (b / 16) :: digitChar (b % 16) :: s) = _
  grind [unhex, hexDigit_digitChar]

theorem unhex_toHex_four (h : value < 2 ^ 16) (hs : unhex s = some data) :
    unhex (toHex value 4 ++ s) = some (ofNat (value % 2 ^ 8) :: ofNat (value / 2 ^ 8) :: data) := by
  show unhex (hexText 4 (swapEndianness16 (value % 2 ^ 16)) ++ s) = _
  unfold swapEndianness16
  rw [mod_eq_of_lt h, hexText_byte (by omega) (by omega), hexText_two (by omega)]
  exact unhex_byteText (by omega) (unhex_byteText (by omega) hs)

theorem unhex_toHex_eight (h : value < 2 ^ 32) (hs : unhex s = some data) :
    unhex (toHex value 8 ++ s) = some (ofNat (value % 2 ^ 8) :: ofNat (value / 2 ^ 8 % 2 ^ 8)
      :: ofNat (value / 2 ^ 16 % 2 ^ 8) :: ofNat (value / 2 ^ 24) :: data) := by
  have hswap : swapEndianness32 value = value / 2 ^ 24 +
      (value / 2 ^ 16 % 2 ^ 8 + (value / 2 ^ 8 % 2 ^ 8 + value % 2 ^ 8 * 2 ^ 8) * 2 ^ 8) * 2 ^ 8 := by
    unfold swapEndianness32
    omega
  show unhex (hexText 8 (swapEndianness32 value) ++ s) = _
  rw [hswap, hexText_byte (by omega) (by omega), hexText_byte (by omega) (by omega),
    hexText_byte (by omega) (by omega), hexText_two (by omega)]
  exact unhex_byteText (by omega)
    (unhex_byteText (by omega) (unhex_byteText (by omega) (unhex_byteText (by omega) hs)))

def betBytes (lb : CLottoBet) : List UInt8 :=
  [0x42, 1, 1, ofNat (lb.nDate % 2 ^ 8), ofNat (lb.nDate / 2 ^ 8 % 2 ^ 8),
    ofNat (lb.nDate / 2 ^ 16 % 2 ^ 8), ofNat (lb.nDate / 2 ^ 24),
    ofNat (lb.nNumber1 % 2 ^ 8), ofNat (lb.nNumber1 / 2 ^ 8),
    ofNat (lb.nNumber2 % 2 ^ 8), ofNat (lb.nNumber2 / 2 ^ 8),
    ofNat (lb.nNumber3 % 2 ^ 8), ofNat (lb.nNumber3 / 2 ^ 8)]

/-- The fields of a bet fit their bytes. -/
structure CLottoBet.Fits (lb : CLottoBet) : Prop where
  nDate : lb.nDate < 2 ^ 32
  nNumber1 : lb.nNumber1 < 2 ^ 16
  nNumber2 : lb.nNumber2 < 2 ^ 16
  nNumber3 : lb.nNumber3 < 2 ^ 16

theorem unhex_toOpCode (h : lb.Fits) : unhex lb.toOpCode = some (betBytes lb) := by
  have h3 := unhex_toHex_four h.nNumber3 (show unhex [] = some [] from rfl)
  have h2 := unhex_toHex_four h.nNumber2 h3
  have h1 := unhex_toHex_four h.nNumber1 h2
  have h0 := unhex_toHex_eight h.nDate h1
  rw [append_nil] at h0
  have hversion : "42".toList = byteText 0x42 := by decide
  have htype : "0101".toList = byteText 1 ++ byteText 1 := by decide
  unfold toOpCode
  rw [hversion, htype]
  simp only [append_assoc]
  exact unhex_byteText (by omega) (unhex_byteText (by omega) (unhex_byteText (by omega) h0))

/-- **A bet is read back as it was placed.** -/
theorem fromOpCode_betBytes (h : lb.Fits) : fromOpCode (betBytes lb) = some lb := by
  obtain ⟨nDate, nNumber1, nNumber2, nNumber3⟩ := lb
  obtain ⟨h0, h1, h2, h3⟩ := h
  dsimp only at h0 h1 h2 h3
  have hbyte : ∀ n, (ofNat n).toNat = n % 256 := fun n => toNat_ofNat'
  unfold betBytes fromOpCode
  dsimp only
  rw [if_neg (by decide), if_neg (by decide), some.injEq, mk.injEq]
  unfold fromChars
  simp only [hbyte]
  omega

theorem hexDigit_hexDigitChar : ∀ n < 16, hexDigit (hexDigitChar n) = some n ∧ isSpace (hexDigitChar n) = false := by
  decide

theorem parseHex_hexStr (data : List UInt8) : parseHex (hexStr data) = data := by
  induction data with
  | nil => rfl
  | cons b data ih =>
    have hb := b.toNat_lt
    obtain ⟨hhi, hblank⟩ := hexDigit_hexDigitChar (b.toNat / 16) (by omega)
    obtain ⟨hlo, -⟩ := hexDigit_hexDigitChar (b.toNat % 16) (by omega)
    show parseHex (hexDigitChar (b.toNat / 16) :: hexDigitChar (b.toNat % 16) :: hexStr data) = _
    simp [parseHex, div_add_mod, hblank, hhi, hlo, ih]

/-- An `OP_RETURN` script with thirteen bytes prints them in hex. -/
theorem scriptToAsmStr_opReturn (h : data.length = 13) :
    scriptToAsmStr (OP_RETURN :: pushData data) = "OP_RETURN".toList ++ ' ' :: hexStr data := by
  have hpush : pushData data = 13 :: data := by
    unfold pushData
    rw [h]
    rfl
  have hget : getOp (13 :: data) = some (13, data, []) := by
    have hlt : (13 : UInt8) < OP_PUSHDATA1 := by decide
    simp_all [getOp, takeOperand, take_of_length_le]
  have hplain : getOp (OP_RETURN :: 13 :: data) = some (OP_RETURN, [], 13 :: data) :=
    getOp_plain (by decide) _
  have hhex : asmElement 13 data = hexStr data := by
    unfold asmElement
    rw [if_pos (by decide), if_neg (by omega)]
  unfold scriptToAsmStr
  rw [hpush, length_cons, length_cons, h]
  unfold asmLoop
  rw [hplain]
  dsimp only
  unfold asmLoop
  rw [hget]
  dsimp only
  rw [hhex]
  rfl

/-- **The scan finds the bet** in the output the wallet made. -/
theorem betOutput_read (h : lb.Fits) (nAmount : Int) :
    ∃ txout, betOutput lb nAmount = some txout ∧ txout.nValue = nAmount ∧
      isOpReturnAsm txout.scriptPubKey = true ∧ fromOpCode (betOpCode txout.scriptPubKey) = some lb := by
  have htext := scriptToAsmStr_opReturn (show (betBytes lb).length = 13 from rfl)
  refine ⟨⟨nAmount, OP_RETURN :: pushData (betBytes lb)⟩, ?_, rfl, ?_, ?_⟩
  · unfold betOutput
    rw [unhex_toOpCode h]
    rfl
  · unfold isOpReturnAsm
    rw [htext]
    rfl
  · unfold betOpCode
    rw [htext]
    show fromOpCode (parseHex (' ' :: hexStr (betBytes lb))) = some lb
    have hblank : parseHex (' ' :: hexStr (betBytes lb)) = parseHex (hexStr (betBytes lb)) := rfl
    rw [hblank, parseHex_hexStr, fromOpCode_betBytes h]

/-! ## §4. What a winning bet gets. -/

def picks (nNumber1 nNumber2 nNumber3 : Int) : List Int := [nNumber1, nNumber2, nNumber3].filter fun n => decide (n ≠ 0)

/-- The odds of a winning bet: `nOneNumberOdds`, `nTwoNumberOdds`, `nThreeNumberOdds`. -/
def oddsOf : Nat → Int
  | 1 => 12
  | 2 => 200
  | 3 => 3500
  | _ => 0

theorem lottoBet_eq {nDate : Int} (h1 : 0 ≤ n₁ ∧ n₁ ≤ 69) (h2 : 0 ≤ n₂ ∧ n₂ ≤ 69) (h3 : 0 ≤ n₃ ∧ n₃ ≤ 69) :
    lottoBet nDate n₁ n₂ n₃ = ⟨toUnsigned nDate, n₁.toNat, n₂.toNat, n₃.toNat⟩ := by
  have hsmall : ∀ n : Int, 0 ≤ n ∧ n ≤ 69 → toUnsigned n = n.toNat := by
    intro n hn
    unfold toUnsigned
    omega
  unfold lottoBet
  rw [hsmall n₁ h1, hsmall n₂ h2, hsmall n₃ h3]

/-- A bet whose picks are drawn, in time and for the date of the result, wins exactly if it has a pick and no pick
twice. -/
theorem isWinner_of_hits (lb : CLottoBet) {time cutoff : Int}
    (hlb : lb.nNumber1 = n₁.toNat ∧ lb.nNumber2 = n₂.toNat ∧ lb.nNumber3 = n₃.toNat)
    (h1 : 0 ≤ n₁ ∧ n₁ ≤ 69) (h2 : 0 ≤ n₂ ∧ n₂ ≤ 69) (h3 : 0 ≤ n₃ ∧ n₃ ≤ 69)
    (hnums : result.nums.map stoi = drawn.map some) (hhits : ∀ n ∈ picks n₁ n₂ n₃, n ∈ drawn)
    (htime : time ≤ cutoff) (hdate : result.date = natToStr lb.nDate) :
    lb.isWinner result time cutoff = some (decide (picks n₁ n₂ n₃ ≠ [] ∧ (picks n₁ n₂ n₃).Nodup)) := by
  have hpicks : picks n₁ n₂ n₃ = lb.picked.map Nat.cast := by
    have hcast : [n₁, n₂, n₃] = lb.numbers.map Nat.cast := by simp [numbers, hlb, h1.1, h2.1, h3.1]
    simp [picks, picked, hcast, List.filter_map, Function.comp_def]
  have hread : ∀ n ∈ lb.picked, PickReadable n result.nums := by
    intro n _ before num after heq _
    have hnum : stoi num ∈ drawn.map some := hnums ▸ mem_map_of_mem (by simp [heq])
    obtain ⟨d, -, hd⟩ := List.mem_map.mp hnum
    exact hd ▸ rfl
  obtain ⟨winner, hwinner⟩ := isSome_iff_exists.mp ((lb.isWinner_isSome_iff result time cutoff).mpr hread)
  rw [hwinner, Option.some.injEq, Bool.eq_iff_iff, isWinner_eq_some hwinner, decide_eq_true_iff]
  rw [hpicks] at hhits ⊢
  rw [List.nodup_map_iff Nat.cast_injective, Ne, List.map_eq_nil_iff]
  refine ⟨fun h => ⟨ne_nil_of_length_pos h.1.count.1, h.1.distinct⟩, fun h => ⟨⟨⟨length_pos_of_ne_nil h.1,
    length_filter_le _ _⟩, h.2, fun n hn => ?_, hdate⟩, htime⟩⟩
  obtain ⟨hin, hzero⟩ := mem_picked.mp hn
  have hdrawn : some (n : Int) ∈ result.nums.map stoi := hnums ▸ mem_map_of_mem (hhits n (mem_map_of_mem hn))
  refine ⟨Nat.pos_of_ne_zero hzero, ?_, List.mem_map.mp hdrawn⟩
  simp only [numbers, hlb, mem_cons, not_mem_nil, or_false] at hin
  omega

/-- **The winnings**: stake times odds, an exact product. -/
theorem winnings_eq (lb : CLottoBet) (hlb : lb.nNumber1 = n₁.toNat ∧ lb.nNumber2 = n₂.toNat ∧ lb.nNumber3 = n₃.toNat)
    (h1 : 0 ≤ n₁) (h2 : 0 ≤ n₂) (h3 : 0 ≤ n₃) (hamount : 0 ≤ nAmount ∧ nAmount ≤ 833 * COIN) :
    lb.winnings nAmount = oddsOf (picks n₁ n₂ n₃).length * nAmount := by
  have hexact : ∀ odds : Int, 0 ≤ odds ∧ odds ≤ 3500 → timesOdds nAmount odds = odds * nAmount := by
    intro odds hodds
    unfold COIN at hamount
    have hbound : 0 ≤ nAmount * odds ∧ nAmount * odds ≤ 833 * 100000000 * 3500 :=
      ⟨mul_nonneg hamount.1 hodds.1, mul_le_mul hamount.2 hodds.2 hodds.1 (by omega)⟩
    unfold timesOdds
    rw [Binary64.toInt_mul_ofInt (by omega) (by omega) (by omega), mul_comm]
  unfold winnings picks
  rw [hlb.2.1, hlb.2.2, hexact 3500 (by omega), hexact 200 (by omega), hexact 12 (by omega)]
  by_cases hz1 : n₁ = 0 <;> by_cases hz2 : n₂ = 0 <;> by_cases hz3 : n₃ = 0 <;>
    simp [hz1, hz2, hz3, oddsOf] <;> omega

/-- **Inversion of `placebet`**: what was checked, and what the bet's output says to the scan. -/
theorem placebet_eq_ok {params : ConsensusParams} {wallet : BetWallet} {now blockTime : Int} {tx : CTransaction}
    (h : placebet params wallet now blockTime n₁ n₂ n₃ nAmount = .ok tx) :
    (params.nMinBetPayoutRange * COIN < nAmount ∧ nAmount < params.nMaxBetPayoutRange * COIN) ∧
      ((0 ≤ n₁ ∧ n₁ ≤ 69) ∧ (0 ≤ n₂ ∧ n₂ ≤ 69) ∧ 0 ≤ n₃ ∧ n₃ ≤ 69) ∧
      ∃ nDate, stoi (nextdrawdate (blockTime + 60 * 60 * 2)) = some nDate ∧
        ∃ txout ∈ tx.vout, betOutput (lottoBet nDate n₁ n₂ n₃) nAmount = some txout ∧ txout.nValue = nAmount ∧
          isOpReturnAsm txout.scriptPubKey = true ∧
          fromOpCode (betOpCode txout.scriptPubKey) = some ⟨toUnsigned nDate, n₁.toNat, n₂.toNat, n₃.toNat⟩ := by
  unfold placebet at h
  by_cases hamount : nAmount ≤ params.nMinBetPayoutRange * COIN ∨ params.nMaxBetPayoutRange * COIN ≤ nAmount
  · rw [if_pos hamount] at h
    cases h
  rw [if_neg hamount] at h
  split at h
  · cases h
  split at h
  · cases h
  cases hdate : stoi (nextdrawdate (blockTime + 60 * 60 * 2)) with
  | none =>
    rw [hdate] at h
    cases h
  | some nDate =>
    rw [hdate] at h
    dsimp only at h
    split at h
    · cases h
    have hfits : CLottoBet.Fits ⟨toUnsigned nDate, n₁.toNat, n₂.toNat, n₃.toNat⟩ := by
      refine ⟨?_, ?_, ?_, ?_⟩ <;> dsimp only [toUnsigned] <;> omega
    obtain ⟨txout, hout, hread⟩ := betOutput_read hfits nAmount
    rw [← lottoBet_eq (by omega) (by omega) (by omega)] at hout
    rw [hout] at h
    exact ⟨by omega, by omega, nDate, rfl, txout, wallet.pays txout tx h, hout, hread⟩

/-- A bet is paid: a pick, no pick twice, and winnings within the limit. -/
def Payable (params : ConsensusParams) (n₁ n₂ n₃ nAmount : Int) : Prop :=
  (picks n₁ n₂ n₃ ≠ [] ∧ (picks n₁ n₂ n₃).Nodup) ∧
    oddsOf (picks n₁ n₂ n₃).length * nAmount ≤ params.nMaxWinnerPayout * COIN

instance (params : ConsensusParams) (n₁ n₂ n₃ nAmount : Int) : Decidable (Payable params n₁ n₂ n₃ nAmount) :=
  inferInstanceAs (Decidable (_ ∧ _))

theorem oddsOf_pos (h : picks n₁ n₂ n₃ ≠ []) : 0 < oddsOf (picks n₁ n₂ n₃).length := by
  have hpos := length_pos_of_ne_nil h
  have hle : (picks n₁ n₂ n₃).length ≤ 3 := length_filter_le _ _
  have hcases : (picks n₁ n₂ n₃).length = 1 ∨ (picks n₁ n₂ n₃).length = 2 ∨ (picks n₁ n₂ n₃).length = 3 := by omega
  rcases hcases with hlen | hlen | hlen <;> rw [hlen] <;> decide

/-- **Winning bets.** Take a bet the wallet accepted whose picks are all drawn, mined before the cut-off and with the
date of the result. The scan adds a payout of stake times odds exactly if it is payable. The stake limits are those of
every network. -/
theorem placed_bet_paid_iff (env : BetEnv) (wallet : BetWallet) (now blockTime n₁ n₂ n₃ nAmount : Int)
    (tx : CTransaction) (result : DrawResult) (drawn : List Int) (latestDrawStartTime time : Int)
    (hlimits : 0 ≤ env.params.nMinBetPayoutRange ∧ env.params.nMaxBetPayoutRange ≤ 833)
    (hplaced : placebet env.params wallet now blockTime n₁ n₂ n₃ nAmount = .ok tx)
    (hnums : result.nums.map stoi = drawn.map some) (hhits : ∀ n ∈ picks n₁ n₂ n₃, n ∈ drawn)
    (hmined : time ≤ latestDrawStartTime - env.params.nBetPlaceTimeoutBlocks)
    (hdate : (stoi (nextdrawdate (blockTime + 60 * 60 * 2))).map (fun nDate => natToStr (toUnsigned nDate))
      = some result.date) :
    ∃ txout ∈ tx.vout, txout.nValue = nAmount ∧
      (CLottoBet.fromOpCode (betOpCode txout.scriptPubKey)).map
        (fun lb => ([lb.nNumber1, lb.nNumber2, lb.nNumber3] : List Int))
        = some [n₁, n₂, n₃] ∧
      (env.expectedPayout result latestDrawStartTime ⟨time, tx, txout⟩
          = some (some { nValue := oddsOf (picks n₁ n₂ n₃).length * nAmount
                         scriptPubKey := getScriptForDestination (env.payoutAddress tx)
                         nBetValue := nAmount })
        ↔ Payable env.params n₁ n₂ n₃ nAmount) := by
  obtain ⟨hamount, ⟨h1, h2, h3⟩, nDate, hstoi, txout, hmem, -, hvalue, hasm, hread⟩ := placebet_eq_ok hplaced
  rw [hstoi, map_some, some.injEq] at hdate
  have hpositive : 0 < nAmount ∧ nAmount ≤ 833 * COIN := by
    unfold COIN at hamount ⊢
    omega
  have hwinner := isWinner_of_hits ⟨toUnsigned nDate, n₁.toNat, n₂.toNat, n₃.toNat⟩ ⟨rfl, rfl, rfl⟩
    h1 h2 h3 hnums hhits hmined hdate.symm
  have hwinnings := winnings_eq ⟨toUnsigned nDate, n₁.toNat, n₂.toNat, n₃.toNat⟩ ⟨rfl, rfl, rfl⟩
    h1.1 h2.1 h3.1 ⟨hpositive.1.le, hpositive.2⟩
  refine ⟨txout, hmem, hvalue, ?_, ?_⟩
  · simp_all
  unfold BetEnv.expectedPayout betWinnings
  rw [hvalue, hasm, if_neg (by decide), if_pos ⟨hamount.1.le, hamount.2.le⟩, hread]
  dsimp only
  rw [hwinner, hwinnings]
  simp only [map_some, decide_eq_true_eq]
  by_cases hpay : Payable env.params n₁ n₂ n₃ nAmount
  · have hgain : 0 < oddsOf (picks n₁ n₂ n₃).length * nAmount := mul_pos (oddsOf_pos hpay.1.1) hpositive.1
    rw [if_pos ⟨hpay.1, hgain, hpay.2⟩]
    simp only [map_some, hpay]
  · rw [if_neg (fun hall => hpay ⟨hall.1, hall.2.2⟩)]
    simp only [map_none, hpay, some.injEq, reduceCtorEq]

def sampleWallet : BetWallet where
  sendMoney txout := .ok { hash := 50, vin := [.of 7 0], vout := [txout] }
  pays txout tx h := by
    cases h
    exact List.mem_singleton.mpr rfl

def samplePlacedResult : DrawResult where
  date := "20201007".toList
  nums := ["7", "12", "23", "45", "60"].map String.toList

/-- The transaction of a bet of `coins` coins on the given numbers for that draw. -/
def samplePlacedTx (n₁ n₂ n₃ : Nat) (coins : Int) : CTransaction :=
  { hash := 50, vin := [.of 7 0],
    vout := [⟨coins * COIN, OP_RETURN :: CScript.pushData (betBytes ⟨20201007, n₁, n₂, n₃⟩)⟩] }

theorem two_numbers_paid : ∃ txout ∈ (samplePlacedTx 7 12 0 1).vout, txout.nValue = COIN ∧
      (CLottoBet.fromOpCode (betOpCode txout.scriptPubKey)).map
        (fun lb => ([lb.nNumber1, lb.nNumber2, lb.nNumber3] : List Int))
        = some [7, 12, 0] ∧
      (sampleEnv.expectedPayout samplePlacedResult 1602125940 ⟨1601899260, samplePlacedTx 7 12 0 1, txout⟩
          = some (some { nValue := oddsOf (picks 7 12 0).length * COIN
                         scriptPubKey := getScriptForDestination (sampleEnv.payoutAddress (samplePlacedTx 7 12 0 1))
                         nBetValue := COIN })
        ↔ Payable sampleEnv.params 7 12 0 COIN) :=
  placed_bet_paid_iff sampleEnv sampleWallet 1601899200 1601899200 7 12 0 COIN
    (samplePlacedTx 7 12 0 1) samplePlacedResult
    [7, 12, 23, 45, 60] 1602125940 1601899260 (by decide) (by rfl) (by decide) (by decide) (by decide) (by decide)

/-- Three numbers drawn, three coins staked: the wallet accepts the bet, and it wins without a payout. -/
theorem three_coins_unpaid :
    placebet .mainNet sampleWallet 1601899200 1601899200 7 12 23 (3 * COIN) = .ok (samplePlacedTx 7 12 23 3) ∧
      (samplePlacedTx 7 12 23 3).vout.map (fun txout =>
        sampleEnv.expectedPayout samplePlacedResult 1602125940 ⟨1601899260, samplePlacedTx 7 12 23 3, txout⟩)
            = [some none] := by
  exact ⟨by rfl, by decide +kernel⟩

/-! ## §5. Payloads and bets correspond. -/

theorem betBytes_of_fromOpCode {opCode : List UInt8} {lb : CLottoBet} (h : fromOpCode opCode = some lb) :
    lb.Fits ∧ opCode = betBytes lb := by
  have hbyte : ∀ (b : UInt8) (n : Nat), n % 256 = b.toNat → b = ofNat n := by
    intro b n hn
    rw [← UInt8.toNat_inj, toNat_ofNat', ← hn]
  unfold fromOpCode at h
  split at h
  · next b0 b1 b2 b3 b4 b5 b6 b7 b8 b9 b10 b11 b12 =>
    split_ifs at h with htype hversion
    cases h
    -- the first three bytes are fixed
    have hfirst : b0 = 0x42 ∧ b1 = 1 := by
      have hone := not_not.mp hversion
      have h1 := b1.toNat_lt
      unfold readBTXFormatVersion BTX_FORMAT_VERSION at hone
      split_ifs at hone with h0 hrange <;> dsimp only at hone <;> split_ifs at hone
      · exact ⟨not_not.mp h0, hbyte b1 1 (by omega)⟩
      · omega
    have hb : ∀ b : UInt8, b.toNat < 256 := fun b => b.toNat_lt
    refine ⟨⟨?_, ?_, ?_, ?_⟩, ?_⟩
    iterate 4
      unfold fromChars
      grind
    unfold betBytes fromChars
    rw [hfirst.1, hfirst.2, not_not.mp htype]
    simp only [cons.injEq, true_and, and_true]
    refine ⟨rfl, ?_, ?_, ?_, ?_, ?_, ?_, ?_, ?_, ?_, ?_⟩ <;> exact hbyte _ _ (by grind)
  · cases h

/-- **Bets and payloads.** -/
theorem bets_correspond_to_payloads :
    (∀ lb : CLottoBet, lb.Fits → ∀ nAmount, ∃ txout, betOutput lb nAmount = some txout ∧
      isOpReturnAsm txout.scriptPubKey = true ∧ fromOpCode (betOpCode txout.scriptPubKey) = some lb) ∧
    ∀ opCode lb, fromOpCode opCode = some lb → lb.Fits ∧ unhex lb.toOpCode = some opCode := by
  refine ⟨fun lb hfits nAmount => ?_, fun opCode lb h => ?_⟩
  · obtain ⟨txout, hout, -, hasm, hread⟩ := betOutput_read hfits nAmount
    exact ⟨txout, hout, hasm, hread⟩
  · obtain ⟨hfits, rfl⟩ := betBytes_of_fromOpCode h
    exact ⟨hfits, unhex_toOpCode hfits⟩

/-! ## §6. `listbets`. -/

/-- An entry of the answer of `listbets`. -/
structure BetEntry where
  txId : Uint256
  eventId : Nat
  number1 : Nat
  number2 : Nat
  number3 : Nat
  amount : Int
  deriving DecidableEq

def betEntry (tx : CTransaction) (txout : CTxOut) : Option BetEntry :=
  if isOpReturnAsm txout.scriptPubKey then
    (fromOpCode (betOpCode txout.scriptPubKey)).map fun lottoBet =>
      { txId := tx.hash, eventId := lottoBet.nDate, number1 := lottoBet.nNumber3, number2 := lottoBet.nNumber2,
        number3 := lottoBet.nNumber1, amount := txout.nValue }
  else none

/-- The entries of one item of `wtxOrdered`; an accounting entry has no transaction. -/
def betEntries (pwtx : Option CTransaction) : List BetEntry := pwtx.elim [] fun tx => tx.vout.filterMap (betEntry tx)

/-- The loop over `wtxOrdered`, the newest item first. -/
def listbetsLoop (nCount : Int) : List (Option CTransaction) → List BetEntry → List BetEntry
  | [], ret => ret
  | pwtx :: txOrdered, ret =>
    let ret := ret ++ betEntries pwtx
    if nCount ≤ ret.length then ret else listbetsLoop nCount txOrdered ret

/-- `listbets` with a count; a third parameter is refused, so `nFrom` is zero. -/
def listbets (nCount : Int) (txOrdered : List (Option CTransaction)) : Except String (List BetEntry) :=
  if nCount < 0 then .error "Negative count" else .ok ((listbetsLoop nCount txOrdered []).take nCount.toNat).reverse

theorem take_listbetsLoop (n : Nat) (txOrdered : List (Option CTransaction)) (ret : List BetEntry) :
    (listbetsLoop n txOrdered ret).take n = (ret ++ txOrdered.flatMap betEntries).take n := by
  induction txOrdered generalizing ret with
  | nil => simp [listbetsLoop]
  | cons pwtx txOrdered ih =>
    unfold listbetsLoop
    dsimp only
    rw [flatMap_cons, ← append_assoc]
    split_ifs with henough
    · exact (take_append_of_le_length (by omega)).symm
    · exact ih _

/-- **Listing a bet.**  A bet the wallet accepted is listed as long as newer entries leave room for it, with its date
and its amount.  It is listed with the picks it was placed with exactly if the first and the third are the same. -/
theorem listed_as_placed_iff (params : ConsensusParams) (wallet : BetWallet) (now blockTime n₁ n₂ n₃ nAmount : Int)
    (tx : CTransaction) (hplaced : placebet params wallet now blockTime n₁ n₂ n₃ nAmount = .ok tx)
    (newer older : List (Option CTransaction)) (nCount : Nat)
    (hroom : ((newer ++ [some tx]).flatMap betEntries).length ≤ nCount) :
    ∃ nDate, stoi (nextdrawdate (blockTime + 60 * 60 * 2)) = some nDate ∧
      ∃ txout ∈ tx.vout, betOutput (lottoBet nDate n₁ n₂ n₃) nAmount = some txout ∧
        ∃ ret, listbets nCount (newer ++ some tx :: older) = .ok ret ∧ ∃ e ∈ ret, betEntry tx txout = some e ∧
          (e.txId = tx.hash ∧ e.eventId = toUnsigned nDate ∧ e.amount = nAmount) ∧
          (((e.number1 : Int) = n₁ ∧ (e.number2 : Int) = n₂ ∧ (e.number3 : Int) = n₃) ↔ n₁ = n₃) := by
  obtain ⟨-, ⟨h1, h2, h3⟩, nDate, hdate, txout, hmem, hout, hvalue, hasm, hread⟩ := placebet_eq_ok hplaced
  have hentry : betEntry tx txout = some ⟨tx.hash, toUnsigned nDate, n₃.toNat, n₂.toNat, n₁.toNat, nAmount⟩ := by
    unfold betEntry
    rw [if_pos hasm, hread, map_some, hvalue]
  refine ⟨nDate, hdate, txout, hmem, hout, (((newer ++ some tx :: older).flatMap betEntries).take nCount).reverse, ?_,
    _, ?_, hentry, ⟨rfl, rfl, rfl⟩, ?_⟩
  · unfold listbets
    rw [if_neg (by omega), Int.toNat_natCast, take_listbetsLoop, nil_append]
  · -- the entries up to those of the transaction are among the first `nCount`
    rw [mem_reverse, append_cons, flatMap_append, take_append, mem_append, take_of_length_le hroom]
    refine .inl (mem_flatMap.mpr ⟨some tx, by simp, ?_⟩)
    exact mem_filterMap.mpr ⟨txout, hmem, hentry⟩
  · dsimp only
    omega

theorem listed_two_numbers : ∃ nDate, stoi (nextdrawdate (1601899200 + 60 * 60 * 2)) = some nDate ∧
      ∃ txout ∈ (samplePlacedTx 7 12 0 1).vout, betOutput (lottoBet nDate 7 12 0) COIN = some txout ∧
        ∃ ret, listbets 10 [some (samplePlacedTx 7 12 0 1)] = .ok ret ∧
          ∃ e ∈ ret, betEntry (samplePlacedTx 7 12 0 1) txout = some e ∧
          (e.txId = 50 ∧ e.eventId = toUnsigned nDate ∧ e.amount = COIN) ∧
          (((e.number1 : Int) = 7 ∧ (e.number2 : Int) = 12 ∧ (e.number3 : Int) = 0) ↔ (7 : Int) = 0) :=
  listed_as_placed_iff .mainNet sampleWallet 1601899200 1601899200 7 12 0 COIN (samplePlacedTx 7 12 0 1)
    (by rfl) [] [] 10
    (by decide +kernel)

/-- A bet on 7, 12 and 23 is listed as one on 23, 12 and 7. -/
theorem picks_listed_reversed :
    placebet .mainNet sampleWallet 1601899200 1601899200 7 12 23 (3 * COIN) = .ok (samplePlacedTx 7 12 23 3) ∧
      listbets 10 [some (samplePlacedTx 7 12 23 3)] = .ok [⟨50, 20201007, 23, 12, 7, 3 * COIN⟩] := by
  exact ⟨by rfl, by decide +kernel⟩

end PwrbCore
