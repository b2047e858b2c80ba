import CiPipeline.Text.Search

/-
Points in time on the calendar, to the second, as reports show them. A moment is made from numbers,
which are looked at from the year on; the first that is out of its range is reported.
-/

namespace CiPipeline

/-- A point in time, to the second. -/
structure Moment where
  year : Nat
  month : Nat
  day : Nat
  hour : Nat := 0
  minute : Nat := 0
  second : Nat := 0
  deriving DecidableEq, Repr

/-- Which number makes no moment. -/
inductive MomentError
  | year (given : Int)
  | month
  | day
  | clock (unit : String) (greatest : Nat)
  deriving DecidableEq, Repr

/-- The wording of an error. -/
def MomentError.message : MomentError → String
  | .year given => "year " ++ toString given ++ " is out of range"
  | .month => "month must be in 1..12"
  | .day => "day is out of range for month"
  | .clock unit greatest => unit ++ " must be in 0.." ++ toString greatest

namespace Moment

/-- Date and time with a `T` between them. -/
def text (m : Moment) : String :=
  Text.padded 4 m.year ++ "-" ++ Text.padded 2 m.month ++ "-" ++ Text.padded 2 m.day ++ "T" ++
    Text.padded 2 m.hour ++ ":" ++ Text.padded 2 m.minute ++ ":" ++ Text.padded 2 m.second

/-- Whether a year has a day more: every fourth year, of the full centuries only every fourth. -/
def isLeap (year : Nat) : Bool := year % 4 == 0 && (year % 100 != 0 || year % 400 == 0)

/-- The number of days of a month. -/
def daysIn (year month : Nat) : Nat :=
  if month = 2 then (if isLeap year then 29 else 28)
  else if [4, 6, 9, 11].contains month then 30
  else 31

/-- A number that lies between two bounds. -/
def within (least greatest : Nat) (n : Int) (e : MomentError) : Except MomentError Nat :=
  if least ≤ n ∧ n ≤ greatest then .ok n.toNat else .error e

/-- A number of the time of day, which is nought if it is not given. -/
def ofClock (unit : String) (greatest : Nat) (n : Option Int) : Except MomentError Nat :=
  within 0 greatest (n.getD 0) (.clock unit greatest)

/-- The moment of a year, a month, a day, and up to four numbers of the time of day, of which the last
counts millionths of a second and is not kept. -/
def ofNumbers (year month day : Int) (time : List Int) : Except MomentError Moment := do
  let y ← within 1 9999 year (.year year)
  let m ← within 1 12 month .month
  let d ← within 1 (daysIn y m) day .day
  let hour ← ofClock "hour" 23 time[0]?
  let minute ← ofClock "minute" 59 time[1]?
  let second ← ofClock "second" 59 time[2]?
  let _ ← ofClock "microsecond" 999999 time[3]?
  return ⟨y, m, d, hour, minute, second⟩

end Moment

end CiPipeline
