import Hookemon.Js.Date

/-! # `toISOString`

The text of a time from 1970 on. The year is found from the number of the day, the month by
counting off the months of that year. The text is one that `isISOString` accepts.
-/

namespace Hookemon.Js

open Hookemon.Core

/-! ## The day of a date -/

/-- The days from the first day of year 0 to the first day of a year. -/
def yearStart (year : Nat) : Nat :=
  365 * year + (year + 3) / 4 - (year + 99) / 100 + (year + 399) / 400

/-- The year of a day. The average length of a year gives it up to one. -/
def yearOfDay (day : Nat) : Nat :=
  let year := day * 400 / 146097
  if day < yearStart year then year - 1
  else if yearStart (year + 1) ≤ day then year + 1
  else year

/-- The month and the day of the month, from the month `month` with these lengths on. -/
def countMonths (month : Nat) (day : Nat) : List Nat → Nat × Nat
  | [] => (month, day + 1)
  | length :: lengths =>
    if day < length then (month, day + 1) else countMonths (month + 1) (day - length) lengths

def monthLengths (year : Nat) : List Nat := (List.range 12).map fun m => daysInMonth year (m + 1)

def monthOfDay (year day : Nat) : Nat × Nat := countMonths 1 (day - yearStart year) (monthLengths year)

/-- The number of 1970-01-01 among the days from year 0 on. -/
def epochDay : Nat := 719528

/-! ## The text -/

/-- `String(n).padStart(width, '0')`, where the number fits. -/
def padded (width n : Nat) : Text := (digitsBE 10 width n).map digitUnit

def yearText (year : Nat) : Text := if year ≤ 9999 then padded 4 year else 43 :: padded 6 year

/-- `new Date(time).toISOString()` of a time that is not negative. It throws where there is no
such date. -/
def toISOString (time : Nat) : Option Text :=
  if time ≤ 8640000000000000 then
    let day := time / 86400000 + epochDay
    let year := yearOfDay day
    let month := monthOfDay year day
    some (yearText year ++ 45 :: padded 2 month.1 ++ 45 :: padded 2 month.2 ++
      84 :: padded 2 (time / 3600000 % 24) ++ 58 :: padded 2 (time / 60000 % 60) ++
      58 :: padded 2 (time / 1000 % 60) ++ 46 :: padded 3 (time % 1000) ++ [90])
  else none

example : toISOString 1709251199999 = some (text "2024-02-29T23:59:59.999Z") := by decide

/-! ## The date exists -/

theorem yearOfDay_spec (day : Nat) :
    yearStart (yearOfDay day) ≤ day ∧ day < yearStart (yearOfDay day + 1) := by
  have hlow : 146097 * (day * 400 / 146097) ≤ day * 400 := Nat.mul_div_le _ _
  have hhigh : day * 400 < 146097 * (day * 400 / 146097 + 1) := Nat.lt_mul_div_succ _ (by decide)
  simp only [yearOfDay]
  generalize day * 400 / 146097 = year at hlow hhigh
  by_cases hbefore : day < yearStart year
  · rw [if_pos hbefore]
    have hnext : year - 1 + 1 = year := by
      rcases Nat.eq_zero_or_pos year with rfl | h
      · exact absurd hbefore (Nat.not_lt_zero _)
      · exact Nat.sub_add_cancel h
    rw [hnext]
    refine ⟨?_, hbefore⟩
    simp only [yearStart]
    omega
  · rw [if_neg hbefore]
    by_cases hafter : yearStart (year + 1) ≤ day
    · rw [if_pos hafter]
      refine ⟨hafter, ?_⟩
      simp only [yearStart]
      omega
    · rw [if_neg hafter]
      exact ⟨Nat.not_lt.mp hbefore, Nat.not_le.mp hafter⟩

theorem monthLengths_sum (year : Nat) :
    (monthLengths year).sum = if isLeapYear year then 366 else 365 := by
  cases h : isLeapYear year <;> simp [monthLengths, daysInMonth, h, List.range_succ]

theorem yearStart_succ (year : Nat) :
    yearStart (year + 1) = yearStart year + (monthLengths year).sum := by
  have hfour : (year + 1 + 3) / 4 = (year + 3) / 4 + if year % 4 = 0 then 1 else 0 := by
    split <;> omega
  have hhundred : (year + 1 + 99) / 100
      = (year + 99) / 100 + if year % 100 = 0 then 1 else 0 := by
    split <;> omega
  have hfourHundred : (year + 1 + 399) / 400
      = (year + 399) / 400 + if year % 400 = 0 then 1 else 0 := by
    split <;> omega
  have hleap : isLeapYear year = true ↔ year % 4 = 0 ∧ (year % 100 ≠ 0 ∨ year % 400 = 0) := by
    simp only [isLeapYear, Bool.and_eq_true, Bool.or_eq_true, decide_eq_true_eq]
    omega
  have hle : (year + 99) / 100 ≤ (year + 3) / 4 := by omega
  simp only [monthLengths_sum, yearStart, hfour, hhundred, hfourHundred, hleap]
  by_cases h4 : year % 4 = 0 <;> by_cases h100 : year % 100 = 0 <;>
    by_cases h400 : year % 400 = 0 <;> simp only [h4, h100, h400, if_true, if_false] <;> grind

theorem countMonths_spec (month day : Nat) (lengths : List Nat) (h : day < lengths.sum) :
    ∃ m, m < lengths.length ∧ (countMonths month day lengths).1 = month + m ∧
      1 ≤ (countMonths month day lengths).2 ∧
      (countMonths month day lengths).2 ≤ lengths.getD m 0 := by
  induction lengths generalizing month day with
  | nil => simp at h
  | cons length lengths ih =>
    rw [countMonths]
    split
    · exact ⟨0, Nat.succ_pos _, rfl, Nat.succ_pos _, by simpa using ‹day < length›⟩
    · have hrest : day - length < lengths.sum := by
        rw [List.sum_cons] at h
        omega
      obtain ⟨m, hm, hmonth, hlow, hhigh⟩ := ih (month + 1) (day - length) hrest
      refine ⟨m + 1, Nat.succ_lt_succ hm, ?_, hlow, by simpa using hhigh⟩
      rw [hmonth]
      omega

/-- The day of the month exists in that month. -/
theorem monthOfDay_spec (day : Nat) :
    let month := monthOfDay (yearOfDay day) day
    (1 ≤ month.1 ∧ month.1 ≤ 12) ∧ 1 ≤ month.2 ∧
      month.2 ≤ daysInMonth (yearOfDay day) month.1 := by
  obtain ⟨hlow, hhigh⟩ := yearOfDay_spec day
  rw [yearStart_succ] at hhigh
  obtain ⟨m, hm, hmonth, hfirst, hlast⟩ := countMonths_spec 1
    (day - yearStart (yearOfDay day)) (monthLengths (yearOfDay day)) (by omega)
  have hm : m < 12 := by simpa [monthLengths] using hm
  show (1 ≤ (monthOfDay (yearOfDay day) day).1 ∧ _) ∧ _
  rw [monthOfDay, hmonth]
  refine ⟨by omega, hfirst, ?_⟩
  have hlength : (monthLengths (yearOfDay day)).getD m 0 = daysInMonth (yearOfDay day) (1 + m) := by
    simp [monthLengths, List.getD, hm, Nat.add_comm]
  rwa [← hlength]

/-- The last day that there is is the thirteenth of September in the year 275760. -/
theorem monthOfDay_last : ∀ day < 257,
    (countMonths 1 day (monthLengths 275760)).1 < 9 ∨
      ((countMonths 1 day (monthLengths 275760)).1 = 9 ∧
        ((countMonths 1 day (monthLengths 275760)).2 < 13 ∨
          ((countMonths 1 day (monthLengths 275760)).2 = 13 ∧ day = 256))) := by
  decide +kernel

/-! ## The text is read back -/

theorem takeDigits_padded (width : Nat) {n : Nat} (h : n < 10 ^ width) (rest : Text) :
    takeDigits width (padded width n ++ rest) = some (n, rest) := by
  have hlength : (padded width n).length = width := by
    rw [padded, List.length_map, digitsBE_length]
  have htake : (padded width n ++ rest).take width = padded width n := List.take_left' hlength
  have hdrop : (padded width n ++ rest).drop width = rest := List.drop_left' hlength
  have hdigits : (padded width n).all isDigit := by
    rw [padded, List.all_map, List.all_eq_true]
    exact fun d hd => isDigit_digitUnit (digitsBE_lt (by decide) hd)
  have hvalue : textNat (padded width n) = n := by
    rw [textNat, padded, List.map_map, List.map_congr_left (g := id), List.map_id,
      ofDigitsBE_digitsBE_of_lt h]
    exact fun d hd => unitDigit_digitUnit (digitsBE_lt (by decide) hd)
  rw [takeDigits, htake, hdrop, hvalue, if_pos]
  refine ⟨?_, hdigits⟩
  rw [List.length_append, hlength]
  exact Nat.le_add_right _ _

theorem takeUnit_cons (c : UInt16) (rest : Text) : takeUnit c (c :: rest) = some rest := by
  simp [takeUnit]

theorem takeYear_yearText {year : Nat} (h : year < 10 ^ 6) (rest : Text) :
    takeYear (yearText year ++ rest) = some ((year : Int), rest) := by
  rw [yearText]
  split
  · rename_i hsmall
    have hread := takeDigits_padded 4 (Nat.lt_succ_of_le hsmall) rest
    obtain ⟨d, ds, hds⟩ : ∃ d ds, digitsBE 10 4 year = d :: ds :=
      List.exists_cons_of_length_eq_add_one (digitsBE_length 10 4 year)
    have hd : d < 10 := digitsBE_lt (k := 4) (n := year) (by decide) (by rw [hds]; simp)
    have hhead : padded 4 year ++ rest = digitUnit d :: (ds.map digitUnit ++ rest) := by
      rw [padded, hds]
      rfl
    have hnot : digitUnit d ≠ 43 ∧ digitUnit d ≠ 45 := by
      have hvalue := digitUnit_toNat hd
      constructor <;> intro heq <;> rw [heq] at hvalue
      · have : 43 = 48 + d := hvalue
        omega
      · have : 45 = 48 + d := hvalue
        omega
    rw [hhead] at hread ⊢
    rw [takeYear]
    · rw [hread]
      rfl
    · exact fun _ heq => hnot.1 (List.cons.inj heq).1
    · exact fun _ heq => hnot.2 (List.cons.inj heq).1
  · rename_i hlarge
    rw [List.cons_append, takeYear, takeDigits_padded 6 h]
    show (if 9999 < year then some ((year : Int), rest) else none) = _
    rw [if_pos (Nat.not_le.mp hlarge)]

theorem takeDayAndTime_padded {month day hours minutes seconds milliseconds : Nat}
    (hmonth : month < 100) (hday : day < 100) (hhours : hours < 24) (hminutes : minutes < 60)
    (hseconds : seconds < 60) (hmilliseconds : milliseconds < 1000) :
    takeDayAndTime (45 :: padded 2 month ++ 45 :: padded 2 day ++ 84 :: padded 2 hours ++
        58 :: padded 2 minutes ++ 58 :: padded 2 seconds ++ 46 :: padded 3 milliseconds ++ [90])
      = some (month, day,
        ((hours * 60 + minutes) * 60 + seconds) * 1000 + milliseconds) := by
  simp only [takeDayAndTime, List.cons_append, List.append_assoc, takeUnit_cons,
    Option.bind_eq_bind, Option.bind_some, takeDigits_padded 2 hmonth,
    takeDigits_padded 2 hday,
    takeDigits_padded 2 (Nat.lt_trans hhours (by decide)),
    takeDigits_padded 2 (Nat.lt_trans hminutes (by decide)),
    takeDigits_padded 2 (Nat.lt_trans hseconds (by decide)),
    takeDigits_padded 3 hmilliseconds]
  simp [hhours, hminutes, hseconds]

/-! ## Dates that exist -/

theorem yearStart_mono : Monotone yearStart :=
  monotone_nat_of_le_succ fun year => by
    rw [yearStart_succ]
    exact Nat.le_add_right _ _

/-- The number of the last day that there is. -/
def lastDay : Nat := 100000000 + epochDay

theorem lastDay_eq : lastDay = 100719528 := by norm_num [lastDay, epochDay]

theorem yearOfDay_le {day : Nat} (h : day ≤ lastDay) : yearOfDay day ≤ 275760 := by
  by_contra hnot
  have hstart : yearStart 275761 ≤ day :=
    (yearStart_mono (Nat.not_le.mp hnot)).trans (yearOfDay_spec day).1
  have hfirst : yearStart 275761 = 100719638 := by norm_num [yearStart]
  have hlast := lastDay_eq
  omega

theorem daysInMonth_le (year : Int) (month : Nat) : daysInMonth year month ≤ 31 := by
  rw [daysInMonth]
  split
  · split <;> decide
  · split <;> decide

/-- On the last of all days there is no time but its beginning. -/
theorem monthOfDay_before {day : Nat} (h : day ≤ lastDay) (hyear : yearOfDay day = 275760) :
    (monthOfDay 275760 day).1 < 9 ∨ ((monthOfDay 275760 day).1 = 9 ∧
      ((monthOfDay 275760 day).2 < 13 ∨
        ((monthOfDay 275760 day).2 = 13 ∧ day = lastDay))) := by
  have hstart : yearStart 275760 = 100719272 := by norm_num [yearStart]
  have hlast := lastDay_eq
  have hlow := (yearOfDay_spec day).1
  rw [hyear] at hlow
  have hdays := monthOfDay_last (day - yearStart 275760) (by omega)
  rw [monthOfDay]
  have hend : day - yearStart 275760 = 256 → day = lastDay := by omega
  exact hdays.imp_right (And.imp_right (Or.imp_right (And.imp_right hend)))

/-- A date and a time that exist have an accepted text. -/
theorem isISOString_of_date {year month day hours minutes seconds milliseconds : Nat}
    (hyear : year ≤ 275760) (hmonth : 1 ≤ month ∧ month ≤ 12) (hday : 1 ≤ day)
    (hdays : day ≤ daysInMonth year month) (hhours : hours < 24) (hminutes : minutes < 60)
    (hseconds : seconds < 60) (hmilliseconds : milliseconds < 1000)
    (hlast : year = 275760 → month < 9 ∨ (month = 9 ∧ (day < 13 ∨ (day = 13 ∧
      ((hours * 60 + minutes) * 60 + seconds) * 1000 + milliseconds = 0)))) :
    isISOString (yearText year ++ 45 :: padded 2 month ++ 45 :: padded 2 day ++
      84 :: padded 2 hours ++ 58 :: padded 2 minutes ++ 58 :: padded 2 seconds ++
      46 :: padded 3 milliseconds ++ [90]) := by
  have hmonths : month < 100 := by omega
  have hdays' : day < 100 := Nat.lt_of_le_of_lt (hdays.trans (daysInMonth_le year month)) (by decide)
  have htime := takeDayAndTime_padded hmonths hdays' hhours hminutes hseconds
    hmilliseconds
  rw [isISOString]
  simp only [List.append_assoc, List.cons_append] at htime ⊢
  rw [takeYear_yearText (by omega)]
  simp only [htime]
  generalize ((hours * 60 + minutes) * 60 + seconds) * 1000 + milliseconds = time at *
  simp only [Bool.and_eq_true, Bool.or_eq_true, decide_eq_true_eq]
  have hfirst : -271821 < (year : Int) := by omega
  have hbound : (year : Int) < 275760 ∨ ((year : Int) = 275760 ∧
      (month < 9 ∨ (month = 9 ∧ (day < 13 ∨ (day = 13 ∧ time = 0))))) := by
    rcases Nat.lt_or_eq_of_le hyear with hlt | heq
    · exact .inl (by omega)
    · exact .inr ⟨by omega, hlast heq⟩
  exact ⟨⟨⟨⟨⟨hmonth.1, hmonth.2⟩, hday⟩, hdays⟩, .inl hfirst⟩, hbound⟩

/-- `new Date(time).toISOString()` is a timestamp, as `isISOString` reads it. -/
theorem isISOString_toISOString {time : Nat} {s : Text} (h : toISOString time = some s) :
    isISOString s := by
  rw [toISOString] at h
  split at h
  · rename_i hlimit
    have hs := (Option.some.inj h).symm
    have hday : time / 86400000 + epochDay ≤ lastDay := by
      rw [lastDay]
      exact Nat.add_le_add_right (Nat.div_le_of_le_mul hlimit) _
    have hmidnight : time / 86400000 + epochDay = lastDay →
        ((time / 3600000 % 24 * 60 + time / 60000 % 60) * 60 + time / 1000 % 60) * 1000
          + time % 1000 = 0 := by
      rw [lastDay, Nat.add_left_inj]
      omega
    generalize time / 86400000 + epochDay = day at hs hday hmidnight
    obtain ⟨hmonth, hfirst, hlast⟩ := monthOfDay_spec day
    rw [hs]
    refine isISOString_of_date (yearOfDay_le hday) hmonth hfirst hlast
      (Nat.mod_lt _ (by decide)) (Nat.mod_lt _ (by decide)) (Nat.mod_lt _ (by decide))
      (Nat.mod_lt _ (by decide)) fun hyear => ?_
    rw [hyear]
    exact (monthOfDay_before hday hyear).imp_right
      (And.imp_right (Or.imp_right (And.imp_right hmidnight)))
  · cases h

end Hookemon.Js
