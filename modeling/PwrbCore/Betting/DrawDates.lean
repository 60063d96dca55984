/-
  Betting.DrawDates — THE DATE OF A DRAW, AS A BET CARRIES IT AND AS THE RESULTS ARE LOOKED UP
  (`nextdrawtime`, `nextdrawdate` and the edited `latestDrawDate` of `betting/bet.cpp`).

  A draw at 02:59 UTC is dated by the evening before.  The wallet counts back from the next
  draw with the calendar; `GetBetPayouts` edits the text of the UTC date.

  Main results: `draw_dates_agree_iff`, `draw_times_bracket`.
-/
import Mathlib.Data.List.TakeWhile
import PwrbCore.Betting.Draws

namespace PwrbCore

open Calendar (Civil weekday civilFromDays)

/-! ## §1. The next draw. -/

variable {s : List Char}

section

variable (blockTime : Int)

/-- Day number of the next draw: four days after one on Sunday, three after one on Thursday. -/
def nextDrawDay : Int :=
  let day := lastdrawtime blockTime / 86400
  if weekday day = 0 then day + 4 else if weekday day = 4 then day + 3 else day

def nextdrawtime : Int := nextDrawDay blockTime * 86400 + drawTimeOfDay

/-- Day number of the evening before the next draw. -/
def nextDrawEve : Int :=
  let day := lastdrawtime blockTime / 86400
  if weekday day = 0 then day + 3 else if weekday day = 4 then day + 2 else day

def compactDate (c : Civil) : List Char := intToStr c.year ++ pad2 c.month ++ pad2 c.day

def nextdrawdate : List Char := compactDate (civilFromDays (nextDrawEve blockTime))

theorem weekday_lastDrawDay : weekday (lastDrawDay blockTime) = 0 ∨ weekday (lastDrawDay blockTime) = 4 := by
  unfold lastDrawDay weekday
  dsimp only
  split_ifs <;> omega

theorem lastdrawtime_div : lastdrawtime blockTime / 86400 = lastDrawDay blockTime := by
  unfold lastdrawtime drawTimeOfDay
  omega

theorem nextDrawEve_eq : nextDrawEve blockTime = nextDrawDay blockTime - 1 := by
  unfold nextDrawEve nextDrawDay
  dsimp only
  rw [lastdrawtime_div]
  have hday := weekday_lastDrawDay blockTime
  split_ifs <;> omega

end

/-! ## §2. Decimal text. -/

theorem natToStr_of_lt_ten {n : Nat} (h : n < 10) : natToStr n = [Nat.digitChar n] := Nat.toDigits_of_lt_base h

variable {n : Int} {c : Civil}

theorem intToStr_digit (h : 0 ≤ n ∧ n ≤ 9) : intToStr n = [Nat.digitChar (n.toNat % 10)] := by
  unfold intToStr
  rw [if_neg (by omega), show n.natAbs = n.toNat by omega, natToStr_of_lt_ten (by omega), Nat.mod_eq_of_lt (by omega)]

theorem intToStr_pad2 (h : 10 ≤ n ∧ n ≤ 99) : intToStr n = pad2 n := by
  unfold intToStr pad2
  rw [if_neg (by omega), show n.natAbs = n.toNat by omega]
  unfold natToStr
  rw [Nat.toDigits_of_base_le (by omega) (by omega), Nat.toDigits_of_lt_base (by omega)]
  rfl

theorem intToStr_four (h : 1000 ≤ n ∧ n ≤ 9999) :
    ∃ a b c d, intToStr n = [a, b, c, d] ∧ (∀ x ∈ [a, b, c, d], x.isDigit = true) ∧
      (Nat.ofDigitChars 10 [a, b, c, d] 0 : Int) = n := by
  have htext : intToStr n = Nat.toDigits 10 n.toNat := by
    unfold intToStr natToStr
    rw [if_neg (by omega), show n.natAbs = n.toNat by omega]
  have hle : (Nat.toDigits 10 n.toNat).length ≤ 4 := by
    rw [Nat.length_toDigits_le_iff (by omega) (by omega)]
    omega
  have hgt : ¬ (Nat.toDigits 10 n.toNat).length ≤ 3 := by
    rw [Nat.length_toDigits_le_iff (by omega) (by omega)]
    omega
  obtain ⟨a, b, c, d, hdigits⟩ := List.length_eq_four.mp (show (Nat.toDigits 10 n.toNat).length = 4 by omega)
  refine ⟨a, b, c, d, htext.trans hdigits, ?_, ?_⟩
  · intro x hx
    rw [← hdigits] at hx
    exact Nat.isDigit_of_mem_toDigits (by omega) (by omega) hx
  · rw [← hdigits, Nat.ofDigitChars_ten_toDigits]
    omega

theorem isDigit_pad2 (h : 0 ≤ n ∧ n ≤ 99) : ∀ x ∈ pad2 n, x.isDigit = true := by
  intro x hx
  unfold pad2 at hx
  rw [List.mem_cons, List.mem_singleton] at hx
  rcases hx with hx | hx
  · rw [hx, Nat.isDigit_digitChar, decide_eq_true_iff]
    omega
  · rw [hx, Nat.isDigit_digitChar, decide_eq_true_iff]
    omega

theorem ofDigitChars_pad2 (h : 0 ≤ n ∧ n ≤ 99) : (Nat.ofDigitChars 10 (pad2 n) 0 : Int) = n := by
  unfold pad2
  rw [Nat.ofDigitChars_cons, Nat.ofDigitChars_cons,
    Nat.toNat_digitChar_of_lt_ten (by omega), Nat.toNat_digitChar_of_lt_ten (by omega)]
  show ((10 * (10 * 0 + (48 + n.toNat / 10 - 48)) + (48 + n.toNat % 10 - 48) : Nat) : Int) = n
  omega

theorem isDigit_not_special {c : Char} (h : c.isDigit = true) : isSpace c = false ∧ c ≠ '-' ∧ c ≠ '+' := by
  have hrange : 48 ≤ c.toNat ∧ c.toNat ≤ 57 := Char.isDigit_iff_toNat.mp h
  have hne : ∀ x : Char, x.toNat < 48 → c ≠ x := by
    intro x hx hcx
    rw [hcx] at hrange
    omega
  refine ⟨?_, hne '-' (by decide), hne '+' (by decide)⟩
  unfold isSpace
  simp only [Bool.or_eq_false_iff, beq_eq_false_iff_ne]
  refine ⟨⟨⟨⟨⟨hne ' ' (by decide), hne '\t' (by decide)⟩, hne '\n' (by decide)⟩, hne '\r' (by decide)⟩, ?_⟩, ?_⟩ <;>
    omega

theorem stoi_of_digits (hne : s ≠ []) (hdigits : ∀ c ∈ s, c.isDigit = true)
    (hvalue : (Nat.ofDigitChars 10 s 0 : Int) = n) (hn : n < 2 ^ 31) : stoi s = some n := by
  obtain ⟨c, rest, rfl⟩ := List.exists_cons_of_ne_nil hne
  obtain ⟨hspace, hminus, hplus⟩ := isDigit_not_special (hdigits c List.mem_cons_self)
  have hdrop : (c :: rest).dropWhile isSpace = c :: rest := by simp_all
  have htake : (c :: rest).takeWhile Char.isDigit = c :: rest := by
    rw [List.takeWhile_eq_self_iff]
    exact hdigits
  have hm : ((c :: rest).head? == some '-') = false := by simp [hminus]
  have hp : ((c :: rest).head? == some '+') = false := by simp [hplus]
  unfold stoi
  simp only [hdrop, hm, hp, Bool.or_self, Bool.false_eq_true, if_false, htake, hvalue]
  rw [if_neg (List.cons_ne_nil c rest), if_neg]
  omega

/-! ## §3. What the edited date says. -/

/-- The date in the text after the "previous day" code: on the tenth and on 1 October one old digit is left. -/
def editedDate (c : Civil) : Civil :=
  if c.day = 10 then { c with day := 19 }
  else if 1 < c.day then { c with day := c.day - 1 }
  else if c.month = 1 then ⟨c.year - 1, 12, 31⟩
  else if c.month = 3 then ⟨c.year, 2, if c.year % 4 = 0 then 29 else 28⟩
  else if c.month = 10 then ⟨c.year, 19, 30⟩
  else ⟨c.year, c.month - 1, Calendar.daysInMonth c.year (c.month - 1)⟩

/-- **The "previous day" code** on a date with a year of four digits. -/
theorem previousDay_isoDate (hy : 1000 ≤ c.year ∧ c.year ≤ 9999) (hm : 1 ≤ c.month ∧ c.month ≤ 12)
    (hd : 1 ≤ c.day ∧ c.day ≤ 31) : previousDay (isoDate c) = some (isoDate (editedDate c)) := by
  obtain ⟨y1, y2, y3, y4, hyear, hydigits, hyvalue⟩ := intToStr_four hy
  have hdate : isoDate c = [y1, y2, y3, y4] ++ '-' :: pad2 c.month ++ '-' :: pad2 c.day := by
    unfold isoDate
    rw [hyear]
  have hstoi : stoi [y1, y2, y3, y4] = some c.year :=
    stoi_of_digits (List.cons_ne_nil _ _) hydigits hyvalue (by omega)
  have hstoim : stoi (pad2 c.month) = some c.month :=
    stoi_of_digits (List.cons_ne_nil _ _) (isDigit_pad2 (by omega)) (ofDigitChars_pad2 (by omega)) (by omega)
  have hstoid : stoi (pad2 c.day) = some c.day :=
    stoi_of_digits (List.cons_ne_nil _ _) (isDigit_pad2 (by omega)) (ofDigitChars_pad2 (by omega)) (by omega)
  unfold previousDay
  rw [hdate]
  have hsy : substr ([y1, y2, y3, y4] ++ '-' :: pad2 c.month ++ '-' :: pad2 c.day) 0 4 = some [y1, y2, y3, y4] := rfl
  have hsm : substr ([y1, y2, y3, y4] ++ '-' :: pad2 c.month ++ '-' :: pad2 c.day) 5 2 = some (pad2 c.month) := rfl
  have hsd : substr ([y1, y2, y3, y4] ++ '-' :: pad2 c.month ++ '-' :: pad2 c.day) 8 2 = some (pad2 c.day) := rfl
  simp only [hsy, hsm, hsd, hstoi, hstoim, hstoid, Option.bind_eq_bind, Option.bind_some]
  have hfinal : ∀ m d, isoDate ⟨c.year, m, d⟩ = [y1, y2, y3, y4] ++ '-' :: pad2 m ++ '-' :: pad2 d := by
    intro m d
    unfold isoDate
    rw [hyear]
  unfold editedDate
  by_cases hten : c.day = 10
  · rw [if_neg (by omega), if_pos hten, hfinal, hten]
    rfl
  rw [if_neg hten]
  by_cases hone : 1 < c.day
  · rw [if_pos hone, hfinal]
    by_cases hlate : 10 < c.day
    · rw [if_pos hlate, intToStr_pad2 (by omega)]
      rfl
    -- the tens digit is and stays a zero
    rw [if_neg hlate, if_pos (by omega), intToStr_digit (by omega)]
    have htens : c.day.toNat / 10 = (c.day - 1).toNat / 10 := by omega
    unfold pad2
    rw [htens]
    rfl
  rw [if_neg (by omega), if_neg (by omega), if_neg hone]
  by_cases hjan : c.month = 1
  · rw [if_pos hjan, hjan]
    show some (intToStr (c.year - 1) ++ ('-' :: pad2 12 ++ '-' :: pad2 31)) = some (isoDate ⟨c.year - 1, 12, 31⟩)
    unfold isoDate
    rw [List.append_assoc]
  by_cases hmar : c.month = 3
  · rw [if_neg hjan, if_neg (by omega), if_pos hmar, if_neg hjan, if_pos hmar, hfinal, hmar]
    rw [Int.tmod_eq_emod_of_nonneg (by omega)]
    split_ifs <;> rfl
  -- each of the remaining months is one text
  have hmonths : c.month = 2 ∨ c.month = 4 ∨ c.month = 5 ∨ c.month = 6 ∨ c.month = 7 ∨ c.month = 8 ∨ c.month = 9 ∨
      c.month = 10 ∨ c.month = 11 ∨ c.month = 12 := by omega
  have hsome := fun m d => congrArg some (hfinal m d).symm
  rcases hmonths with h | h | h | h | h | h | h | h | h | h
  all_goals rw [h]
  exacts [hsome 1 31, hsome 3 31, hsome 4 30, hsome 5 31, hsome 6 30, hsome 7 31, hsome 8 31, hsome 19 30, hsome 10 31,
    hsome 11 30]

/-- The date is edited rightly: not the tenth, not 1 October, not 1 March of a century without leap day. -/
def EditedRightly (c : Civil) : Prop :=
  c.day ≠ 10 ∧ ¬ (c.month = 10 ∧ c.day = 1) ∧ ¬ (c.month = 3 ∧ c.day = 1 ∧ c.year % 100 = 0 ∧ c.year % 400 ≠ 0)

instance (c : Civil) : Decidable (EditedRightly c) := inferInstanceAs (Decidable (_ ∧ _))

theorem editedDate_eq_previous_iff (hm : 1 ≤ c.month ∧ c.month ≤ 12) (hd : 1 ≤ c.day ∧ c.day ≤ 31) :
    editedDate c = c.previous ↔ EditedRightly c := by
  obtain ⟨year, month, day⟩ := c
  dsimp only at hm hd
  unfold editedDate Civil.previous EditedRightly
  dsimp only
  by_cases hten : day = 10
  · rw [if_pos hten, if_pos (by omega), Civil.mk.injEq]
    omega
  rw [if_neg hten]
  by_cases hone : 1 < day
  · rw [if_pos hone, if_pos hone]
    simp only [true_iff]
    omega
  rw [if_neg hone, if_neg hone]
  by_cases hjan : month = 1
  · rw [if_pos hjan, if_pos hjan]
    simp only [true_iff]
    omega
  rw [if_neg hjan, if_neg hjan]
  by_cases hmar : month = 3
  · -- the last of February by the rule for four years, or by all three rules
    rw [if_pos hmar, hmar, Civil.mk.injEq]
    show _ ∧ _ ∧ _ = Calendar.daysInMonth year 2 ↔ _
    unfold Calendar.daysInMonth
    split_ifs <;> omega
  grind

/-! ## §4. The two dates of a draw. -/

def hyphensRemoved (date : List Char) : List Char := date.filter fun c => decide (c ≠ '-')

theorem hyphensRemoved_of_digits (h : ∀ c ∈ s, c.isDigit = true) : hyphensRemoved s = s := by
  unfold hyphensRemoved
  rw [List.filter_eq_self]
  intro c hc
  exact decide_eq_true (isDigit_not_special (h c hc)).2.1

theorem isDigit_intToStr (h : 0 ≤ n) : ∀ c ∈ intToStr n, c.isDigit = true := by
  unfold intToStr
  rw [if_neg (by omega)]
  intro c hc
  exact Nat.isDigit_of_mem_toDigits (by omega) (by omega) hc

theorem hyphensRemoved_isoDate (hy : 0 ≤ c.year) (hm : 0 ≤ c.month ∧ c.month ≤ 99)
    (hd : 0 ≤ c.day ∧ c.day ≤ 99) : hyphensRemoved (isoDate c) = compactDate c := by
  have hyear := hyphensRemoved_of_digits (isDigit_intToStr hy)
  have hmonth := hyphensRemoved_of_digits (isDigit_pad2 hm)
  have hday := hyphensRemoved_of_digits (isDigit_pad2 hd)
  grind [hyphensRemoved, isoDate, compactDate]

theorem compactDate_inj {c' : Civil} (hm : 0 ≤ c.month ∧ c.month < 100) (hd : 0 ≤ c.day ∧ c.day < 100)
    (hm' : 0 ≤ c'.month ∧ c'.month < 100) (hd' : 0 ≤ c'.day ∧ c'.day < 100) (h : compactDate c = compactDate c') :
    c = c' := by
  obtain ⟨hrest, hday⟩ := List.append_inj' h rfl
  obtain ⟨hyear, hmonth⟩ := List.append_inj' hrest rfl
  show Civil.mk c.year c.month c.day = .mk c'.year c'.month c'.day
  rw [Civil.mk.injEq]
  exact ⟨intToStr_injective hyear, pad2_inj hm hm' hmonth, pad2_inj hd hd' hday⟩

theorem editedDate_bounds (hm : 1 ≤ c.month ∧ c.month ≤ 12) (hd : 1 ≤ c.day ∧ c.day ≤ 31) :
    c.year - 1 ≤ (editedDate c).year ∧ 1 ≤ (editedDate c).month ∧ (editedDate c).month < 100 ∧
      1 ≤ (editedDate c).day ∧ (editedDate c).day < 100 := by
  unfold editedDate Calendar.daysInMonth
  split_ifs <;> dsimp only <;> omega

theorem year_of_blockTime (t : UInt32) :
    1000 ≤ (civilFromDays (lastDrawDay t.toNat)).year ∧ (civilFromDays (lastDrawDay t.toNat)).year ≤ 9999 := by
  apply Calendar.civilFromDays_year
  have hlt := t.toNat_lt
  unfold lastDrawDay weekday
  dsimp only
  split_ifs <;> omega

/-- **The dates of a draw.** For a tip time whose last draw is the next draw of a bet placed at `t`, the date
`GetBetPayouts` looks up is the date in the bet exactly if the UTC date of the draw is one that is edited rightly. -/
theorem draw_dates_agree_iff (t t' : UInt32) (hdraw : lastdrawtime t'.toNat = nextdrawtime (t.toNat + 60 * 60 * 2)) :
    (latestDrawDate t'.toNat).map hyphensRemoved = some (nextdrawdate (t.toNat + 60 * 60 * 2))
      ↔ EditedRightly (civilFromDays (nextDrawDay (t.toNat + 60 * 60 * 2))) := by
  have hday : nextDrawDay (t.toNat + 60 * 60 * 2) = lastDrawDay t'.toNat := by
    unfold lastdrawtime nextdrawtime at hdraw
    omega
  have hyear := year_of_blockTime t'
  unfold latestDrawDate nextdrawdate lastdrawdate
  rw [nextDrawEve_eq, hday, Calendar.civilFromDays_sub_one]
  have hbounds := Calendar.civilFromDays_bounds (lastDrawDay t'.toNat)
  have hbefore := Calendar.civilFromDays_bounds (lastDrawDay t'.toNat - 1)
  rw [Calendar.civilFromDays_sub_one] at hbefore
  generalize civilFromDays (lastDrawDay t'.toNat) = c at hyear hbounds hbefore ⊢
  have hedited := editedDate_bounds (c := c) (by omega) (by omega)
  rw [previousDay_isoDate hyear (by omega) (by omega), Option.map_some, Option.some.injEq,
    hyphensRemoved_isoDate (by omega) (by omega) (by omega), ← editedDate_eq_previous_iff (by omega) (by omega)]
  constructor
  · intro h
    exact compactDate_inj (by omega) (by omega) (by omega) (by omega) h
  · intro h
    rw [h]

/-- The draw of Thursday 8 October 2020, for a bet of the Monday before. -/
theorem october_draw_agrees : (latestDrawDate (1602158400 : UInt32).toNat).map hyphensRemoved
        = some (nextdrawdate ((1601899200 : UInt32).toNat + 60 * 60 * 2))
      ↔ EditedRightly (civilFromDays (nextDrawDay ((1601899200 : UInt32).toNat + 60 * 60 * 2))) :=
  draw_dates_agree_iff 1601899200 1602158400 (by decide)

/-- Sunday 10 January 2021: a bet of the Friday before carries 9 January, and the results are looked up under 19
January. -/
theorem tenth_of_month_misdated : 60 * 60 * 2 ≤ nextdrawtime (1610107200 : UInt32).toNat - (1610107200 : UInt32).toNat ∧
      lastdrawtime (1610280000 : UInt32).toNat = nextdrawtime ((1610107200 : UInt32).toNat + 60 * 60 * 2) ∧
      latestDrawDate (1610280000 : UInt32).toNat = some "2021-01-19".toList ∧
      nextdrawdate ((1610107200 : UInt32).toNat + 60 * 60 * 2) = "20210109".toList ∧
      (latestDrawDate (1610280000 : UInt32).toNat).map hyphensRemoved
        ≠ some (nextdrawdate ((1610107200 : UInt32).toNat + 60 * 60 * 2)) := by
  decide +kernel

/-! ## §5. Every instant lies between two draws. -/

section

variable (t : Int)

/-- A draw: 02:59:00 UTC on a Sunday or a Thursday. -/
def IsDraw : Prop := t % 86400 = drawTimeOfDay ∧ (weekday (t / 86400) = 0 ∨ weekday (t / 86400) = 4)

theorem isDraw_lastdrawtime : IsDraw (lastdrawtime t) := by
  refine ⟨?_, ?_⟩
  · unfold lastdrawtime drawTimeOfDay
    omega
  · rw [lastdrawtime_div]
    exact weekday_lastDrawDay t

theorem nextdrawtime_div : nextdrawtime t / 86400 = nextDrawDay t := by
  unfold nextdrawtime drawTimeOfDay
  omega

theorem isDraw_nextdrawtime : IsDraw (nextdrawtime t) := by
  have hday := weekday_lastDrawDay t
  refine ⟨?_, ?_⟩
  · unfold nextdrawtime drawTimeOfDay
    omega
  · rw [nextdrawtime_div]
    unfold nextDrawDay
    rw [lastdrawtime_div]
    unfold weekday at hday ⊢
    dsimp only
    split_ifs <;> omega

theorem lt_nextdrawtime : t < nextdrawtime t := by
  unfold nextdrawtime nextDrawDay
  rw [lastdrawtime_div]
  unfold lastDrawDay beforeDrawTime drawTimeOfDay weekday
  dsimp only
  split_ifs <;> omega

/-- Between a Sunday and the Thursday after it, and a Thursday and its Sunday, there is no draw. -/
theorem not_isDraw_between {d : Int} (hlast : lastdrawtime t < d) (hnext : d < nextdrawtime t) : ¬ IsDraw d := by
  have hday := weekday_lastDrawDay t
  rintro ⟨htime, hd⟩
  unfold nextdrawtime nextDrawDay at hnext
  rw [lastdrawtime_div] at hnext
  unfold lastdrawtime at hlast
  unfold weekday drawTimeOfDay at *
  dsimp only at hnext
  split_ifs at hnext <;> omega

/-- **Draw times bracket every instant.** -/
theorem draw_times_bracket :
    (lastdrawtime t ≤ t ∧ t < nextdrawtime t) ∧ (IsDraw (lastdrawtime t) ∧ IsDraw (nextdrawtime t)) ∧
      (∀ d, lastdrawtime t < d → d < nextdrawtime t → ¬ IsDraw d) ∧
      lastdrawtime (lastdrawtime t) = lastdrawtime t ∧ (∀ t', t ≤ t' → lastdrawtime t ≤ lastdrawtime t') ∧
      lastdrawdate t = isoDate (civilFromDays (lastdrawtime t / 86400)) ∧
      nextdrawdate t = compactDate (civilFromDays (nextdrawtime t / 86400 - 1)) := by
  -- the last draw is the latest one up to now
  have hmono : ∀ {t t'}, IsDraw t → t ≤ t' → t ≤ lastdrawtime t' := by
    intro d t' hd hle
    by_contra hlt
    exact not_isDraw_between t' (not_le.mp hlt) (hle.trans_lt (lt_nextdrawtime t')) hd
  refine ⟨⟨lastdrawtime_le t, lt_nextdrawtime t⟩, ⟨isDraw_lastdrawtime t, isDraw_nextdrawtime t⟩,
    fun d => not_isDraw_between t, ?_, fun t' hle => ?_, ?_, ?_⟩
  · exact le_antisymm (lastdrawtime_le _) (hmono (isDraw_lastdrawtime t) le_rfl)
  · exact hmono (isDraw_lastdrawtime t) ((lastdrawtime_le t).trans hle)
  · rw [lastdrawtime_div]
    rfl
  · rw [nextdrawtime_div, ← nextDrawEve_eq]
    rfl

end

end PwrbCore
