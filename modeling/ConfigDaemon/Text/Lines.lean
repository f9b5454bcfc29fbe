/-! # Lines of a text

A line ends at a line feed, and a carriage return just before that line feed belongs to the
ending. Text after the last line feed is one more line, kept as it stands.
-/

namespace ConfigDaemon.Text

/-- The pieces that a line feed ends, and what follows the last of them. -/
def segments : List Char → List (List Char) × List Char
  | [] => ([], [])
  | c :: s =>
    if c = '\n' then ([] :: (segments s).1, (segments s).2)
    else
      match segments s with
      | ([], tail) => ([], c :: tail)
      | (first :: others, tail) => ((c :: first) :: others, tail)

/-- A line without the carriage return at its end. -/
def dropReturn : List Char → List Char
  | [] => []
  | ['\r'] => []
  | c :: s => c :: dropReturn s

def lines (s : List Char) : List (List Char) :=
  let (whole, tail) := segments s
  whole.map dropReturn ++ if tail.isEmpty then [] else [tail]

/-- The first line, empty when there is none. -/
def firstLine (s : List Char) : List Char :=
  (lines s).headD []

end ConfigDaemon.Text
