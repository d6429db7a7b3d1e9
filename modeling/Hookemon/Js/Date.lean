import Hookemon.Js.Text

/-! # Timestamps

The texts that `new Date(text).toISOString()` gives back unchanged: an existing day of
the proleptic Gregorian calendar and a time of that day in UTC. Years outside 0 to 9999
have a sign and six digits, and a date is at most `8.64e15` milliseconds away from 1970.
-/

namespace Hookemon.Js

def isLeapYear (year : Int) : Bool := year % 4 = 0 && (year % 100 ≠ 0 || year % 400 = 0)

def daysInMonth (year : Int) (month : Nat) : Nat :=
  if month = 2 then (if isLeapYear year then 29 else 28)
  else if month ∈ [4, 6, 9, 11] then 30
  else 31

/-- A fixed number of digits and what follows them. -/
def takeDigits (n : Nat) (s : Text) : Option (Nat × Text) :=
  if n ≤ s.length ∧ (s.take n).all isDigit then some (textNat (s.take n), s.drop n) else none

/-- One unit and what follows it. -/
def takeUnit (c : UInt16) (s : Text) : Option Text :=
  if s.head? = some c then some s.tail else none

/-- The year as `toISOString` prints it. -/
def takeYear (s : Text) : Option (Int × Text) :=
  match s with
  | 43 :: rest => do
    let (year, rest) ← takeDigits 6 rest
    if 9999 < year then some (year, rest) else none
  | 45 :: rest => do
    let (year, rest) ← takeDigits 6 rest
    if 0 < year then some (-year, rest) else none
  | _ => do
    let (year, rest) ← takeDigits 4 s
    some (year, rest)

/-- `-MM-DDTHH:mm:ss.sssZ`: the month, the day and the milliseconds of the day. -/
def takeDayAndTime (s : Text) : Option (Nat × Nat × Nat) := do
  let (month, s) ← takeDigits 2 (← takeUnit 45 s)
  let (day, s) ← takeDigits 2 (← takeUnit 45 s)
  let (hours, s) ← takeDigits 2 (← takeUnit 84 s)
  let (minutes, s) ← takeDigits 2 (← takeUnit 58 s)
  let (seconds, s) ← takeDigits 2 (← takeUnit 58 s)
  let (milliseconds, s) ← takeDigits 3 (← takeUnit 46 s)
  if s = [90] ∧ hours < 24 ∧ minutes < 60 ∧ seconds < 60 then
    some (month, day, ((hours * 60 + minutes) * 60 + seconds) * 1000 + milliseconds)
  else none

/-- `new Date(s).toISOString() === s`. -/
def isISOString (s : Text) : Bool :=
  match takeYear s with
  | none => false
  | some (year, rest) =>
    match takeDayAndTime rest with
    | none => false
    | some (month, day, time) =>
      -- the first and the last date that exist
      let first : Bool := -271821 < year || (year = -271821 && (4 < month || (month = 4 && 20 ≤ day)))
      let last : Bool := year < 275760 ||
        (year = 275760 && (month < 9 || (month = 9 && (day < 13 || (day = 13 && time = 0)))))
      1 ≤ month && month ≤ 12 && 1 ≤ day && day ≤ daysInMonth year month && first && last

example : isISOString (text "2024-02-29T23:59:59.999Z") = true := by decide

example : isISOString (text "2023-02-29T00:00:00.000Z") = false := by decide

end Hookemon.Js
