import ConfigDaemon.Text.Decimal
import ConfigDaemon.Text.Lines

/-! # Records of the address file

The address file of a lock directory holds one line, a process identifier and an address with a
colon between them. The address `none` is written by an owner that cannot be called.
-/

namespace ConfigDaemon

open Text

/-- What an address file says about its owner. -/
inductive Holder
  | daemon (pid : UInt32) (address : String)
  | placeholder (pid : Option UInt32)
  | absent
  deriving DecidableEq, Repr

namespace Holder

def describe : Holder → String
  | .daemon pid address => "daemon pid " ++ numeral pid.toNat ++ " at " ++ address
  | .placeholder (some pid) => "non-daemon process " ++ numeral pid.toNat
  | .placeholder none => "non-daemon process"
  | .absent => "no current holder"

/-- The address that stands for none. -/
def noAddress : String := "none"

/-- The line that an owner publishes. -/
def record (pid : UInt32) (address : Option String) : List Char :=
  decimal pid.toNat ++ ':' :: (address.getD noAddress).toList

def dropColon : List Char → List Char
  | [] => []
  | c :: s => if c = ':' then s else c :: s

/-- The owner that the first line of a file names: digits, perhaps a colon, and an address. -/
def ofContents (contents : List Char) : Holder :=
  let line := firstLine contents
  let pid := readUInt32 (line.takeWhile isDigit)
  let rest := dropColon (line.dropWhile isDigit)
  if rest = [] ∨ trimEnd rest = noAddress.toList then .placeholder pid
  else
    match pid with
    | some pid => .daemon pid (.ofList rest)
    | none => .placeholder none

end Holder

end ConfigDaemon
