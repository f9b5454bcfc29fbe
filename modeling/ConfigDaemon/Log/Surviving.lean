import ConfigDaemon.Log.Entry
import ConfigDaemon.Text.Lines
import ConfigDaemon.Text.Utf8

/-! # What survives of a log

Later entries cancel earlier ones. The clients and listeners that remain are listed in the order
in which their present membership began.
-/

namespace ConfigDaemon.Log

open Text

structure Surviving where
  clients : List String
  listeners : List Record
  deriving DecidableEq, Repr

namespace Surviving

def empty : Surviving := ⟨[], []⟩

/-- Adds a member at the end, unless it is one already. -/
def join {α : Type} [DecidableEq α] (xs : List α) (x : α) : List α :=
  if x ∈ xs then xs else xs ++ [x]

def apply (s : Surviving) : Entry → Surviving
  | .addClient c => { s with clients := join s.clients c }
  | .removeClient c => { s with clients := s.clients.erase c }
  | .addListener r => { s with listeners := join s.listeners r }
  | .removeListener r => { s with listeners := s.listeners.erase r }

def ofEntries (entries : List Entry) : Surviving :=
  entries.foldl apply empty

/-- The entries that establish what survives, clients before listeners. -/
def entries (s : Surviving) : List Entry :=
  s.clients.map .addClient ++ s.listeners.map .addListener

end Surviving

/-- The entries of a text; lines that are no entries are skipped. -/
def entriesOfText (text : List Char) : List Entry :=
  (lines text).filterMap fun l => (Entry.ofLine l).toOption

def entriesOfBytes (bytes : Bytes) : List Entry :=
  entriesOfText (Utf8.decodeLenient bytes)

/-- The text of a log that holds these entries. -/
def textOfEntries (entries : List Entry) : List Char :=
  entries.flatMap fun e => e.line ++ ['\n']

@[simp] theorem Surviving.ofEntries_nil : Surviving.ofEntries [] = .empty := rfl

end ConfigDaemon.Log
