import ConfigDaemon.Toml.Moment
import ConfigDaemon.Toml.Number
import ConfigDaemon.Toml.Value

/-! # Documents

A document is a sequence of lines, each a key with its value or the header of a table. Arrays and
tables in braces nest up to a limit and may run over lines: blanks, comments and ends of lines stand
around their brackets, commas, equals signs and items.
-/

namespace ConfigDaemon.Toml

open Reader

/-- The characters that end a bare word. -/
def endsWord (c : Char) : Bool :=
  isSpacing c || c == '\n' || c == '\r' || c == '#' || c == ',' || c == '=' || c == '"' ||
    c == '\'' || c == '[' || c == ']' || c == '{' || c == '}'

/-- A bare word; a date goes on after one space when a digit follows. -/
def word : Reader (List Char)
  | s =>
    let w := s.takeWhile (!endsWord ·)
    match s.dropWhile (!endsWord ·) with
    | ' ' :: c :: rest =>
      if isDate w && Text.isDigit c then
        some (w ++ ' ' :: (c :: rest).takeWhile (!endsWord ·),
          (c :: rest).dropWhile (!endsWord ·))
      else some (w, ' ' :: c :: rest)
    | rest => some (w, rest)

/-- What a bare word means. -/
def Scalar.ofWord? (w : List Char) : Option Scalar :=
  if w = "true".toList then some (.boolean true)
  else if w = "false".toList then some (.boolean false)
  else if isFloat w then some (.float w)
  else if isMoment w then some (.moment w)
  else (integer? w).map .integer

def scalar : Reader Scalar := do
  match ← peek with
  | some '"' | some '\'' => return .text (← text)
  | _ => Scalar.ofWord? (← word)

mutual

/-- A value in which arrays and tables nest up to `depth` deep. -/
def value (depth : Nat) : (fuel : Nat) → Reader Value
  | 0 => failure
  | fuel + 1 => do
    match ← peek with
    | some '[' =>
      let _ ← next
      if depth = 0 then failure
      return .array (← items (depth - 1) fuel)
    | some '{' =>
      let _ ← next
      if depth = 0 then failure
      return .table .complete (← pairs (depth - 1) fuel .empty)
    | _ => return .scalar (← scalar)

/-- The items of an array up to its closing bracket. -/
def items (depth : Nat) : (fuel : Nat) → Reader (List Value)
  | 0 => failure
  | fuel + 1 => do
    gap
    if ← skipIf [']'] then return []
    let v ← value depth fuel
    gap
    if ← skipIf [','] then return v :: (← items depth fuel)
    skip [']']
    return [v]

/-- The rows of a table up to its closing brace, added to those before. -/
def pairs (depth : Nat) : (fuel : Nat) → Rows → Reader Rows
  | 0, _ => failure
  | fuel + 1, rows => do
    gap
    if ← skipIf ['\x7d'] then return rows
    let (front, last) ← path
    gap
    skip ['=']
    gap
    let v ← value depth fuel
    let rows ← rows.addAt front last v
    gap
    if ← skipIf [','] then pairs depth fuel rows
    else
      skip ['\x7d']
      return rows

end

/-- A document that is read so far: its rows and the path of the last header. -/
structure Draft where
  rows : Rows
  header : List String

def header (d : Draft) : Reader Draft := do
  skip ['[']
  let many ← skipIf ['[']
  spacing
  let (front, last) ← path
  skip (if many then [']', ']'] else [']'])
  let rows ← if many then d.rows.extend front last else d.rows.define front last
  return ⟨rows, front ++ [last]⟩

def pair (d : Draft) : Reader Draft := do
  let (front, last) ← path
  spacing
  skip ['=']
  spacing
  let v ← value depthLimit (2 * (← left) + 2)
  return { d with rows := ← d.rows.addUnder d.header front last v }

def expressions : (fuel : Nat) → Draft → Reader Rows
  | 0, _ => failure
  | fuel + 1, d => do
    match ← peek with
    | none => return d.rows
    | some '[' =>
      let d ← header d
      lineEnd
      expressions fuel d
    | some _ =>
      let d ← pair d
      lineEnd
      expressions fuel d

/-- A document; a byte order mark may come first. -/
def document : Reader Rows := do
  let _ ← skipIf ['\ufeff']
  gap
  expressions ((← left) + 1) ⟨.empty, []⟩

/-- The table that a text describes, when it is a document. -/
def parse? (s : List Char) : Option Rows :=
  whole? document s

end ConfigDaemon.Toml
