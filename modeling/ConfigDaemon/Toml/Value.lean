/-! # Values and their places

A document is a table of values. A table is written in braces and is then complete, or comes about
by a header, by the path of another header, or by a key with dots. Each table is defined once, and
each key of it is given once.
-/

namespace ConfigDaemon.Toml

inductive Scalar
  | text (s : List Char)
  | integer (n : Int)
  | float (written : List Char)
  | boolean (b : Bool)
  | moment (written : List Char)
  deriving DecidableEq, Repr

/-- How a table came about. -/
inductive Form
  | complete
  | byHeader
  | byPath
  | byDots
  deriving DecidableEq, Repr

inductive Value
  | scalar (s : Scalar)
  | array (items : List Value)
  | table (form : Form) (rows : List (String × Value))
  /-- The tables of one header in double brackets. -/
  | tables (earlier : List (List (String × Value))) (last : List (String × Value))

abbrev Rows := List (String × Value)

namespace Rows

def empty : Rows := []

/-- Gives a key a value, in the place of one it may have. -/
def put (rows : Rows) (key : String) (v : Value) : Rows :=
  if (rows.lookup key).isSome then rows.map fun row => if row.1 = key then (key, v) else row
  else rows ++ [(key, v)]

/-- Changes the table that a path leads to, and makes those tables of the path that are missing.
Dotted keys do not lead into a table that a header defines. -/
def within (dotted : Bool) (change : Form → Rows → Option Rows) :
    List String → Form → Rows → Option Rows
  | [], form, rows => change form rows
  | key :: path, _, rows =>
    match rows.lookup key with
    | none =>
      let form := if dotted then Form.byDots else .byPath
      (within dotted change path form []).map fun inner => rows.put key (.table form inner)
    | some (.table form inner) =>
      if form = .complete ∨ (dotted ∧ form = .byHeader) then none
      else (within dotted change path form inner).map fun inner => rows.put key (.table form inner)
    | some (.tables earlier last) =>
      (within dotted change path .byHeader last).map fun last => rows.put key (.tables earlier last)
    | some _ => none

/-- Gives a new key its value. -/
def add (rows : Rows) (key : String) (v : Value) : Option Rows :=
  if (rows.lookup key).isSome then none else some (rows.put key v)

/-- Gives the key at the end of a path its value. A path with dots ends in a table that dotted
keys define. -/
def addAt (rows : Rows) (path : List String) (key : String) (v : Value) : Option Rows :=
  within true (fun form rows => if path ≠ [] ∧ form ≠ .byDots then none else rows.add key v)
    path .byHeader rows

/-- Defines the table of a header; one that other headers lead through is taken over. -/
def define (rows : Rows) (path : List String) (key : String) : Option Rows :=
  within false (fun _ rows =>
    match rows.lookup key with
    | none => some (rows.put key (.table .byHeader []))
    | some (.table .byPath inner) => some (rows.put key (.table .byHeader inner))
    | some _ => none) path .byHeader rows

/-- Adds a table under a header in double brackets. -/
def extend (rows : Rows) (path : List String) (key : String) : Option Rows :=
  within false (fun _ rows =>
    match rows.lookup key with
    | none => some (rows.put key (.tables [] []))
    | some (.tables earlier last) => some (rows.put key (.tables (earlier ++ [last]) []))
    | some _ => none) path .byHeader rows

/-- Gives a key its value in the table of a header. -/
def addUnder (rows : Rows) (header path : List String) (key : String) (v : Value) : Option Rows :=
  within false (fun _ rows => rows.addAt path key v) header .byHeader rows

end Rows

end ConfigDaemon.Toml
