import ConfigDaemon.Text.Blank

/-! # Readers of settings text

A reader takes what it reads off the front of a text, or fails. Blanks are spaces and tabs, lines
end with a line feed that a carriage return may precede, and a comment runs from a number sign to
the end of its line.
-/

namespace ConfigDaemon.Toml

abbrev Reader := StateT (List Char) Option

/-- How many arrays and tables nest, and how many keys a path has, at most. -/
def depthLimit : Nat := 80

namespace Reader

def next : Reader Char
  | [] => none
  | c :: s => some (c, s)

def peek : Reader (Option Char)
  | s => some (s.head?, s)

/-- The number of characters that are left. -/
def left : Reader Nat
  | s => some (s.length, s)

/-- Skips a text that must come next. -/
def skip (expected : List Char) : Reader Unit
  | s => if expected.isPrefixOf s then some ((), s.drop expected.length) else none

/-- Skips a text if it comes next, and tells whether it did. -/
def skipIf (expected : List Char) : Reader Bool
  | s => some (if expected.isPrefixOf s then (true, s.drop expected.length) else (false, s))

def takeWhile (p : Char → Bool) : Reader (List Char)
  | s => some (s.takeWhile p, s.dropWhile p)

/-- Exactly `n` characters, all of one class. -/
def takeExactly (n : Nat) (p : Char → Bool) : Reader (List Char)
  | s =>
    if (s.take n).length = n ∧ (s.take n).all p then some (s.take n, s.drop n) else none

/-- The value that a reader makes of a whole text. -/
def whole? {α : Type} (r : Reader α) (s : List Char) : Option α :=
  match r.run s with
  | some (a, []) => some a
  | _ => none

end Reader

def isSpacing (c : Char) : Bool :=
  c == ' ' || c == '\t'

/-- The characters of comments and of texts on one line: the tab and all that are no ASCII control
character. -/
def isPlain (c : Char) : Bool :=
  c == '\t' || (0x20 ≤ c.toNat && c.toNat ≠ 0x7F)

def spacing : Reader Unit := do
  let _ ← Reader.takeWhile isSpacing

def newline : Reader Unit := do
  if ← Reader.skipIf ['\n'] then return
  Reader.skip ['\r', '\n']

/-- What is left of a text after blanks, ends of lines and comments, begun inside a comment or
outside. -/
def afterGap (inComment : Bool) : List Char → Option (List Char)
  | [] => some []
  | '\n' :: s => afterGap false s
  | '\r' :: '\n' :: s => afterGap false s
  | c :: s =>
    if inComment then if isPlain c then afterGap true s else none
    else if c = '#' then afterGap true s
    else if isSpacing c then afterGap false s
    else some (c :: s)

/-- Skips blanks, ends of lines and comments. -/
def gap : Reader Unit
  | s => (afterGap false s).map ((), ·)

/-- What is left of a text after blanks and ends of lines. -/
def afterEmptyLines : List Char → List Char
  | [] => []
  | '\n' :: s => afterEmptyLines s
  | '\r' :: '\n' :: s => afterEmptyLines s
  | c :: s => if isSpacing c then afterEmptyLines s else c :: s

/-- Skips blanks and ends of lines. -/
def emptyLines : Reader Unit
  | s => some ((), afterEmptyLines s)

/-- Skips the rest of a line that must hold nothing more, and the empty lines after it. -/
def lineEnd : Reader Unit := do
  spacing
  match ← Reader.peek with
  | none | some '\n' | some '\r' | some '#' => gap
  | _ => failure

end ConfigDaemon.Toml
