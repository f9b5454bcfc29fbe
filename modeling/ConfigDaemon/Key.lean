import ConfigDaemon.Text.Blank

/-! # Keys

A key is an absolute path of components between slashes; the slash alone is the root. A key
lies below another when that one's components begin its own.
-/

namespace ConfigDaemon.Key

open Text

/-- What keeps a text from being a key, in the order in which it is looked for. -/
inductive Fault
  | noLeadingSlash
  | trailingSlash
  | adjacentSlashes
  | controlCharacter
  deriving DecidableEq, Repr

def Fault.reason : Fault → String
  | .noLeadingSlash => "must begin with a slash"
  | .trailingSlash => "can't end with a slash"
  | .adjacentSlashes => "can't contain two adjacent slashes"
  | .controlCharacter => "can't contain control characters"

def hasAdjacentSlashes : List Char → Bool
  | [] => false
  | [_] => false
  | c :: d :: s => (c == '/' && d == '/') || hasAdjacentSlashes (d :: s)

def faultOf (key : List Char) : Option Fault :=
  if key.head? ≠ some '/' then some .noLeadingSlash
  else if key = ['/'] then none
  else if key.getLast? = some '/' then some .trailingSlash
  else if hasAdjacentSlashes key then some .adjacentSlashes
  else if key.any isControl then some .controlCharacter
  else none

/-- The fault of a text as a key, if it has one. -/
def fault? (key : String) : Option Fault :=
  faultOf key.toList

/-- The text after a given beginning. -/
def rest? : List Char → List Char → Option (List Char)
  | [], s => some s
  | _ :: _, [] => none
  | c :: p, d :: s => if c = d then rest? p s else none

def covers (location key : List Char) : Bool :=
  if location = ['/'] then key.head? = some '/'
  else
    match rest? location key with
    | none => false
    | some [] => true
    | some (c :: _) => c = '/'

/-- Whether `key` is `location` or lies below it. -/
def isBelow (location key : String) : Bool :=
  covers location.toList key.toList

/-- The components between the slashes of a key; the root has none. -/
def components (key : String) : List (List Char) :=
  if key = "/" then [] else (key.toList.splitOn '/').drop 1

theorem rest?_eq_some_iff {p s r : List Char} : rest? p s = some r ↔ s = p ++ r := by
  induction p generalizing s with
  | nil => simp [rest?, eq_comm]
  | cons c p ih =>
    cases s with
    | nil => simp [rest?]
    | cons d s => by_cases h : c = d <;> simp [rest?, h, ih, eq_comm]

end ConfigDaemon.Key
