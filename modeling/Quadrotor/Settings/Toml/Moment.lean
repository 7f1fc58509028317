import Quadrotor.Settings.Toml.Scan

/-!
# Moments

Dates and times of day as a settings text writes them: a date, a time, or a date and a time with or
without an offset from universal time. The day has to exist in its month; a minute may have a leap
second.
-/

namespace Quadrotor.Settings.Toml

/-- So many digits, as a number. -/
def digits (count : Nat) : Scan Nat := fun cs =>
  let ds := cs.take count
  if ds.length = count ∧ ds.all Char.isDigit then
    some (ds.foldl (fun n c => 10 * n + (c.toNat - '0'.toNat)) 0, cs.drop count)
  else none

/-- Two digits that make a number between bounds. -/
def twoDigits (low high : Nat) : Scan Nat := do
  let n ← digits 2
  if low ≤ n ∧ n ≤ high then return n else failure

/-- The year has a twenty-ninth of February. -/
def isLeap (year : Nat) : Bool := year % 4 == 0 && (year % 100 != 0 || year % 400 == 0)

/-- The number of days of a month. -/
def daysOf (year month : Nat) : Nat :=
  match month with
  | 2 => if isLeap year then 29 else 28
  | 4 | 6 | 9 | 11 => 30
  | _ => 31

/-- Takes a date. -/
def date : Scan Unit := do
  let year ← digits 4
  expect '-'
  let month ← twoDigits 1 12
  expect '-'
  let day ← twoDigits 1 31
  if daysOf year month < day then failure

/-- Takes an hour and a minute. -/
def hourAndMinute : Scan Unit := do
  let _ ← twoDigits 0 23
  expect ':'
  let _ ← twoDigits 0 59

/-- Takes a time of day, with any number of places of a second. -/
def time : Scan Unit := do
  hourAndMinute
  expect ':'
  let _ ← twoDigits 0 60
  if ← eat '.' then
    let places ← run Char.isDigit
    if places.isEmpty then failure

/-- Takes an offset from universal time, if one is next. -/
def offset : Scan Unit := do
  match ← peek with
  | some 'Z' | some 'z' => modify (·.drop 1)
  | some '+' | some '-' =>
    modify (·.drop 1)
    hourAndMinute
  | _ => return ()

/-- So many digits and then a mark are next. -/
def isAhead (count : Nat) (mark : Char) (cs : List Char) : Bool :=
  let ds := cs.take count
  ds.length == count && ds.all Char.isDigit && (cs.drop count).head? == some mark

/-- Between a date and the time that follows it. -/
def isDelimiter (c : Char) : Bool := c == 'T' || c == 't' || c == ' '

/-- The characters go on with a time after a date. -/
def timeFollows : List Char → Bool
  | c :: cs => isDelimiter c && isAhead 2 ':' cs
  | [] => false

/-- Takes a date, and the time of that day if one follows. -/
def dateAndTime : Scan Unit := do
  date
  if timeFollows (← get) then
    modify (·.drop 1)
    time
    offset

/-- What a step takes, as a text. -/
def taken (s : Scan Unit) : Scan String := do
  let before ← get
  s
  let after ← get
  return String.ofList (before.take (before.length - after.length))

/-- A moment, if one is next. -/
def moment? : Scan (Option String) := do
  let ahead ← get
  if isAhead 4 '-' ahead then return some (← taken dateAndTime)
  else if isAhead 2 ':' ahead then return some (← taken time)
  else return none

end Quadrotor.Settings.Toml
