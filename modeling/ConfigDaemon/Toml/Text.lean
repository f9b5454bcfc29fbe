import ConfigDaemon.Toml.Reader

/-! # Texts and keys

A text stands between quotation marks, with escapes, or between apostrophes, without; three of
either allow it to run over lines. A key is bare or a text on one line, and dots join keys to a
path.
-/

namespace ConfigDaemon.Toml

open Reader

def hexDigit? (c : Char) : Option Nat :=
  if '0' ≤ c ∧ c ≤ '9' then some (c.toNat - '0'.toNat)
  else if 'a' ≤ c ∧ c ≤ 'f' then some (c.toNat - 'a'.toNat + 10)
  else if 'A' ≤ c ∧ c ≤ 'F' then some (c.toNat - 'A'.toNat + 10)
  else none

def isHexDigit (c : Char) : Bool :=
  (hexDigit? c).isSome

/-- The number that digits spell in a base. -/
def digitsIn (base : Nat) (ds : List Char) : Nat :=
  ds.foldl (fun n d => base * n + (hexDigit? d).getD 0) 0

/-- The character whose code point is given by hexadecimal digits. -/
def codePoint (width : Nat) : Reader Char := do
  let n := digitsIn 16 (← takeExactly width isHexDigit)
  if n.isValidChar then return Char.ofNat n else failure

/-- The character that stands after a backslash for another. -/
def escaped : Reader Char := do
  match ← next with
  | 'b' => return '\x08'
  | 't' => return '\t'
  | 'n' => return '\n'
  | 'f' => return '\x0c'
  | 'r' => return '\r'
  | 'e' => return '\x1b'
  | '"' => return '"'
  | '\\' => return '\\'
  | 'x' => codePoint 2
  | 'u' => codePoint 4
  | 'U' => codePoint 8
  | _ => failure

/-- A text up to its closing quotation mark. -/
def quotedRest : (fuel : Nat) → Reader (List Char)
  | 0 => failure
  | fuel + 1 => do
    match ← next with
    | '"' => return []
    | '\\' => return (← escaped) :: (← quotedRest fuel)
    | c => if isPlain c then return c :: (← quotedRest fuel) else failure

/-- Up to two marks that come before the three at the end of a text. -/
def closingMarks (mark : Char) : Reader (List Char) := do
  if ← skipIf [mark, mark] then return [mark, mark]
  if ← skipIf [mark] then return [mark]
  return []

/-- Skips the end of a line after a backslash, with all blanks and empty lines that follow. -/
def joinedLines : Reader Unit := do
  spacing
  newline
  emptyLines

/-- A character of a text over lines. -/
def lineCharacter (c : Char) : Reader Char := do
  if c = '\n' ∨ isPlain c then return c
  if c = '\r' then
    skip ['\n']
    return '\n'
  failure

/-- A text over lines up to its three closing quotation marks. -/
def quotedLinesRest : (fuel : Nat) → Reader (List Char)
  | 0 => failure
  | fuel + 1 => do
    if ← skipIf ['"', '"', '"'] then closingMarks '"'
    else
      match ← next with
      | '\\' =>
        match ← peek with
        | some ' ' | some '\t' | some '\n' | some '\r' => do
          joinedLines
          quotedLinesRest fuel
        | _ => return (← escaped) :: (← quotedLinesRest fuel)
      | c => return (← lineCharacter c) :: (← quotedLinesRest fuel)

/-- A text over lines up to its three closing apostrophes. -/
def literalLinesRest : (fuel : Nat) → Reader (List Char)
  | 0 => failure
  | fuel + 1 => do
    if ← skipIf ['\'', '\'', '\''] then closingMarks '\''
    else return (← lineCharacter (← next)) :: (← literalLinesRest fuel)

/-- A text on one line, in quotation marks. -/
def quotedText : Reader (List Char) := do
  skip ['"']
  quotedRest (← left)

/-- A text on one line, in apostrophes. -/
def literalText : Reader (List Char) := do
  skip ['\'']
  let s ← takeWhile fun c => isPlain c && c != '\''
  skip ['\'']
  return s

/-- Skips the end of the line on which a text over lines opens. -/
def openingLine : Reader Unit := do
  if ← skipIf ['\n'] then return
  let _ ← skipIf ['\r', '\n']

def text : Reader (List Char) := do
  if ← skipIf ['"', '"', '"'] then
    openingLine
    quotedLinesRest (← left)
  else if ← skipIf ['\'', '\'', '\''] then
    openingLine
    literalLinesRest (← left)
  else
    match ← peek with
    | some '"' => quotedText
    | _ => literalText

def isBare (c : Char) : Bool :=
  c.isAlphanum || c == '_' || c == '-'

def key : Reader String := do
  match ← peek with
  | some '"' => return .ofList (← quotedText)
  | some '\'' => return .ofList (← literalText)
  | _ =>
    let s ← takeWhile isBare
    if s.isEmpty then failure else return .ofList s

/-- What follows the first key of a path. -/
def pathRest : (fuel : Nat) → Reader (List String)
  | 0 => failure
  | fuel + 1 => do
    spacing
    if ← skipIf ['.'] then
      spacing
      return (← key) :: (← pathRest fuel)
    else return []

/-- A path of keys as those before the last and the last. -/
def path : Reader (List String × String) := do
  let first ← key
  let others ← pathRest ((← left) + 1)
  if depthLimit ≤ others.length then failure
  return ((first :: others).dropLast, (first :: others).getLast (by simp))

end ConfigDaemon.Toml
