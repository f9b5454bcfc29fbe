import ConfigDaemon.Text.Decimal

/-! # Durations

A duration in milliseconds is shown in seconds from one second on, with as many decimals as it
needs, and in milliseconds below. How long a daemon runs is told in its two greatest units.
-/

namespace ConfigDaemon.Text

/-- The decimals of a fraction of a thousand, without zeros at the end. -/
def thousandths (n : Nat) : List Char :=
  if n = 0 then []
  else if n % 100 = 0 then '.' :: decimal (n / 100)
  else
    let digits := decimal (1000 + n)
    if n % 10 = 0 then '.' :: (digits.drop 1).take 2 else '.' :: digits.drop 1

def duration (ms : Nat) : String :=
  if ms = 0 then "0ns"
  else if ms < 1000 then .ofList (decimal ms ++ "ms".toList)
  else .ofList (decimal (ms / 1000) ++ thousandths (ms % 1000) ++ ['s'])

/-- Two numbers with their units. -/
def twoUnits (n : Nat) (unit : String) (rest : Nat) (lesser : String) : String :=
  .ofList (decimal n ++ unit.toList ++ ' ' :: decimal rest ++ lesser.toList)

def uptime (seconds : Nat) : String :=
  if seconds < 60 then .ofList (decimal seconds ++ ['s'])
  else if seconds < 3600 then twoUnits (seconds / 60) "m" (seconds % 60) "s"
  else if seconds < 86400 then twoUnits (seconds / 3600) "h" (seconds % 3600 / 60) "m"
  else twoUnits (seconds / 86400) "d" (seconds % 86400 / 3600) "h"

end ConfigDaemon.Text
