import ConfigDaemon.Toml.Text

/-! # Dates and times

A moment is a date, a time of day, or both with or without the offset of a time zone. Seconds and
their fraction may be left out.
-/

namespace ConfigDaemon.Toml

open Reader Text

/-- A number of exactly `width` digits. -/
def fixedNumber (width : Nat) : Reader Nat := do
  return digitsIn 10 (← takeExactly width isDigit)

/-- A number of two digits up to a greatest one. -/
def pairUpTo (greatest : Nat) : Reader Nat := do
  let n ← fixedNumber 2
  if n ≤ greatest then return n else failure

def isLeapYear (year : Nat) : Bool :=
  year % 4 == 0 && (year % 100 != 0 || year % 400 == 0)

def daysInMonth (year month : Nat) : Nat :=
  if month = 2 then if isLeapYear year then 29 else 28
  else if month = 4 ∨ month = 6 ∨ month = 9 ∨ month = 11 then 30
  else 31

def date : Reader Unit := do
  let year ← fixedNumber 4
  skip ['-']
  let month ← pairUpTo 12
  skip ['-']
  let day ← pairUpTo (daysInMonth year month)
  if month = 0 ∨ day = 0 then failure

/-- A time of day; a sixtieth second is allowed for leap seconds. -/
def time : Reader Unit := do
  let _ ← pairUpTo 23
  skip [':']
  let _ ← pairUpTo 59
  if ← skipIf [':'] then
    let _ ← pairUpTo 60
    if ← skipIf ['.'] then
      let fraction ← takeWhile isDigit
      if fraction.isEmpty then failure

def zoneOffset : Reader Unit := do
  match ← next with
  | 'Z' | 'z' => return
  | '+' | '-' =>
    let _ ← pairUpTo 23
    skip [':']
    let _ ← pairUpTo 59
  | _ => failure

def dateTime : Reader Unit := do
  date
  match ← peek with
  | none => return
  | some 'T' | some 't' | some ' ' =>
    let _ ← next
    time
    match ← peek with
    | none => return
    | some _ => zoneOffset
  | some _ => failure

def isDate (w : List Char) : Bool :=
  (whole? date w).isSome

def isMoment (w : List Char) : Bool :=
  (whole? dateTime w).isSome || (whole? time w).isSome

end ConfigDaemon.Toml
