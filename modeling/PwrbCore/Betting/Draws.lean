/-
  Betting.Draws — THE LAST DRAW AND ITS RESULT (`lastdrawtime`, `lastdrawdate` and the first half of
  `GetBetPayouts` in `betting/bet.cpp`).

  Draws are on Sundays and Thursdays at 02:59 UTC.  `gmtime`, `timegm` and `strftime` are
  the library functions: day and time of day come from the Unix time, and a day of the
  month that was moved out of its month is carried over.

  The result of a draw comes from one of three sources: two downloaded files, searched for
  the date of the last draw, and failing both the value of SPORK_19, which is taken as it
  is.
-/
import PwrbCore.Lib.Calendar
import PwrbCore.Script.Asm

namespace PwrbCore

open Calendar

/-! ## §1. The last draw. -/

/-- Seconds from midnight to the draw, 02:59:00. -/
def drawTimeOfDay : Int := 2 * 3600 + 59 * 60

section

variable (blockTime : Int)

def beforeDrawTime : Prop :=
  let hour := blockTime % 86400 / 3600
  let min := blockTime % 3600 / 60
  hour < 2 ∨ (hour = 2 ∧ min < 59)

instance (blockTime : Int) : Decidable (beforeDrawTime blockTime) :=
  inferInstanceAs (Decidable (_ ∨ _))

/-- Day number of the last draw: the branches on `tm_wday` of `lastdrawtime` and `lastdrawdate`. -/
def lastDrawDay : Int :=
  let days := blockTime / 86400
  let wday := Calendar.weekday days
  if wday = 0 ∧ beforeDrawTime blockTime then days - 3
  else if wday = 4 ∧ beforeDrawTime blockTime then days - 4
  else if 0 ≤ wday ∧ wday ≤ 3 then days - wday
  else if 4 ≤ wday ∧ wday ≤ 6 then days - (wday - 4)
  else days

def lastdrawtime : Int := lastDrawDay blockTime * 86400 + drawTimeOfDay

def pad2 (n : Int) : List Char := [Nat.digitChar (n.toNat / 10), Nat.digitChar (n.toNat % 10)]

def isoDate (c : Calendar.Civil) : List Char :=
  intToStr c.year ++ '-' :: pad2 c.month ++ '-' :: pad2 c.day

def lastdrawdate : List Char :=
  isoDate (Calendar.civilFromDays (lastDrawDay blockTime))

theorem lastdrawtime_le : lastdrawtime blockTime ≤ blockTime := by
  unfold lastdrawtime lastDrawDay beforeDrawTime drawTimeOfDay weekday
  dsimp only
  split_ifs <;> omega

/-- Block times with the same last draw time have the same draw day. -/
theorem lastdrawtime_inj {t t' : Int} : lastdrawtime t = lastdrawtime t' ↔ lastDrawDay t = lastDrawDay t' := by
  unfold lastdrawtime
  omega

/-! ## §2. C++ string operations.  `none` is a thrown exception. -/

def substr (s : List Char) (pos n : Nat) : Option (List Char) :=
  if s.length < pos then none else some ((s.drop pos).take n)

def replaceAt (s : List Char) (pos n : Nat) (by_ : List Char) : Option (List Char) :=
  if s.length < pos then none else some (s.take pos ++ by_ ++ s.drop (pos + n))

/-- `std::stoi`: blanks, an optional sign, digits; whatever follows is ignored. -/
def stoi (s : List Char) : Option Int :=
  let s := s.dropWhile isSpace
  let negative := s.head? == some '-'
  let s := if s.head? == some '-' || s.head? == some '+' then s.tail else s
  let digits := s.takeWhile Char.isDigit
  if digits = [] then none
  else
    let value : Int := Nat.ofDigitChars 10 digits 0
    let value := if negative then -value else value
    if value < -2 ^ 31 ∨ 2 ^ 31 ≤ value then none else some value

/-! ## §3. The date the results are looked up under. -/

/-- The "previous day" code: the draw is dated by the evening before, so the text of the UTC date is edited. -/
def previousDay (date : List Char) : Option (List Char) := do
  let year ← stoi (← substr date 0 4)
  let month ← stoi (← substr date 5 2)
  let day ← stoi (← substr date 8 2)
  if 10 < day then replaceAt date 8 2 (intToStr (day - 1))
  -- the tenth is edited in its second digit only, like a one-digit day
  else if 1 < day ∧ day ≤ 10 then replaceAt date 9 1 (intToStr (day - 1))
  else if month = 1 then
    let date ← replaceAt date 5 2 (intToStr 12)
    let date ← replaceAt date 8 2 (intToStr 31)
    replaceAt date 0 4 (intToStr (year - 1))
  else if month = 2 then
    let date ← replaceAt date 6 1 (intToStr (month - 1))
    replaceAt date 8 2 (intToStr 31)
  else if month = 3 then
    let date ← replaceAt date 6 1 (intToStr (month - 1))
    replaceAt date 8 2 (intToStr (if year.tmod 4 = 0 then 29 else 28))
  else if month = 5 ∨ month = 7 ∨ month = 10 then
    let date ← replaceAt date 6 1 (intToStr (month - 1))
    replaceAt date 8 2 (intToStr 30)
  else if month = 11 then
    let date ← replaceAt date 5 2 (intToStr (month - 1))
    replaceAt date 8 2 (intToStr 31)
  else if month = 12 then
    let date ← replaceAt date 5 2 (intToStr (month - 1))
    replaceAt date 8 2 (intToStr 30)
  else
    let date ← replaceAt date 6 1 (intToStr (month - 1))
    replaceAt date 8 2 (intToStr 31)

def latestDrawDate : Option (List Char) := previousDay (lastdrawdate blockTime)

end

example : lastdrawdate 1601900000 = "2020-10-04".toList ∧
    latestDrawDate 1601900000 = some "2020-10-03".toList := by decide

/-! ## §4. The result. -/

/-- One element of a results file, as the JSON reader gives it: `draw_date` and `winning_numbers` (in the second file
with `field_` in front), absent when missing or not a string. -/
inductive ResultsEntry where
  | notObject
  | object (drawDate winningNumbers : Option (List Char))
  deriving DecidableEq

/-- What the node learns a result from. A file that is missing, unreadable or not an array is empty. -/
structure ResultSources where
  officialResults : List ResultsEntry := []
  secondResults : List ResultsEntry := []
  /-- `GetSporkValue(SPORK_19_DRAW_RESULT)` -/
  spork19 : Int := 201901010102030405

def contains (sub s : List Char) : Bool := s.tails.any fun t => sub.isPrefixOf t

/-- The search loop over one file; it carries `sOfficialDate` and `sOfficialResults`. An exception ends the search. -/
def scanResults (latestDrawDate : List Char) :
    List ResultsEntry → List Char × List Char → List Char × List Char
  | [], acc => acc
  -- `get_obj` throws
  | .notObject :: _, acc => acc
  | .object (some sOfficialDate) (some winningNumbers) :: rest, acc =>
    if contains latestDrawDate sOfficialDate then (sOfficialDate, winningNumbers)
    else if sOfficialDate.length < 10 then (sOfficialDate, acc.2)
    else
      match stoi (sOfficialDate.take 4) with
      | none => (sOfficialDate, acc.2)
      | some year =>
        if year < 2020 then (sOfficialDate, acc.2)
        else scanResults latestDrawDate rest (sOfficialDate, acc.2)
  | .object _ _ :: rest, acc => scanResults latestDrawDate rest acc

/-- `resultDate` and `resultNum1` … `resultNum5`. -/
structure DrawResult where
  date : List Char
  nums : List (List Char)
  deriving DecidableEq

def stripZero (num : List Char) : List Char := if num.take 1 = ['0'] then (num.drop 1).take 1 else num

def officialResult (sOfficialDate sOfficialResults : List Char) : Option DrawResult := do
  let year ← substr sOfficialDate 0 4
  let month ← substr sOfficialDate 5 2
  let day ← substr sOfficialDate 8 2
  let nums ← [0, 3, 6, 9, 12].mapM fun pos => substr sOfficialResults pos 2
  return ⟨year ++ month ++ day, nums.map stripZero⟩

def sporkResult (spork19 : Int) : Option DrawResult := do
  let result := intToStr spork19
  let date ← substr result 0 8
  let nums ← [8, 10, 12, 14, 16].mapM fun pos => substr result pos 2
  return ⟨date, nums.map stripZero⟩

/-- The result `GetBetPayouts` goes by: first file, second file or spork. `none` is an exception that leaves it. -/
def drawResult (sources : ResultSources) (latestDrawDate : List Char) : Option DrawResult :=
  let official := scanResults latestDrawDate sources.officialResults ([], [])
  if 17 ≤ official.2.length then officialResult official.1 official.2
  else
    let second := scanResults latestDrawDate sources.secondResults official
    if 17 ≤ second.2.length then officialResult second.1 second.2
    else sporkResult sources.spork19

/-! ## §5. Official dates. -/

/-- The official date of the draw of UTC day `day`: the day before, as the eight digits of results and bets. -/
def drawDateStr (day : Int) : List Char :=
  let c := Calendar.civilFromDays (day - 1)
  intToStr c.year ++ pad2 c.month ++ pad2 c.day

theorem pad2_inj {m n : Int} (hm : 0 ≤ m ∧ m < 100) (hn : 0 ≤ n ∧ n < 100) (h : pad2 m = pad2 n) : m = n := by
  unfold pad2 at h
  simp only [List.cons.injEq, and_true] at h
  have htens := congrArg Char.toNat h.1
  have hunits := congrArg Char.toNat h.2
  rw [Nat.toNat_digitChar_of_lt_ten (by omega), Nat.toNat_digitChar_of_lt_ten (by omega)] at htens
  rw [Nat.toNat_digitChar_of_lt_ten (by omega), Nat.toNat_digitChar_of_lt_ten (by omega)] at hunits
  omega

theorem drawDateStr_injective : Function.Injective drawDateStr := by
  intro day day' h
  have hb := civilFromDays_bounds (day - 1)
  have hb' := civilFromDays_bounds (day' - 1)
  -- month and day take two characters each, so the three parts agree
  obtain ⟨hrest, hday⟩ := List.append_inj' h rfl
  obtain ⟨hyear, hmonth⟩ := List.append_inj' hrest rfl
  have hcivil : civilFromDays (day - 1) = civilFromDays (day' - 1) := by
    rw [Calendar.Civil.mk.injEq]
    exact ⟨intToStr_injective hyear, pad2_inj (by omega) (by omega) hmonth, pad2_inj (by omega) (by omega) hday⟩
  have := civilFromDays_injective hcivil
  omega

end PwrbCore
