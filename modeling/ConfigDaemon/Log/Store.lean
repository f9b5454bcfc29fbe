import ConfigDaemon.Disk
import ConfigDaemon.Failure
import ConfigDaemon.Log.Surviving
import ConfigDaemon.Path

/-! # The stored log

The log is a file with a handle that is opened for the first entry and closed when it is idle,
before the log is read and before it is compacted.
-/

namespace ConfigDaemon.Log

open Text

/-- Where the log lies: the path of its folder and its name there. -/
structure Place where
  folder : String
  name : String
  deriving DecidableEq, Repr

namespace Place

def path (p : Place) (name : String) : String :=
  Path.join p.folder name

/-- The name under which a new log is prepared. -/
def staged (p : Place) : String :=
  p.name ++ ".tmp"

/-- The name that an old log has while it is being replaced. -/
def aside (p : Place) : String :=
  p.name ++ ".orig"

end Place

def failure (action path : String) (fault : Fault) : Failure :=
  .failed ("could not " ++ action ++ " saved state file '" ++ path ++ "': " ++ fault.message)

def appendFailure (path : String) (fault : Fault) : Failure :=
  .failed ("failed to open saved state file '" ++ path ++
    "'; listeners can't be restored after shutdown (" ++ fault.message ++ ")")

structure Store where
  place : Place
  handle : Option Nat
  deriving DecidableEq, Repr

namespace Store

/-- The bytes of an entry in the file. -/
def entryBytes (e : Entry) : Bytes :=
  Utf8.encode (e.line ++ ['\n'])

def close (s : Store) : Store :=
  { s with handle := none }

def isOpen (s : Store) : Bool :=
  s.handle.isSome

/-- Closes a handle that was last used at least `limit` ago; the answer tells whether it did. -/
def closeIfIdle (s : Store) (elapsed limit : Nat) : Bool × Store :=
  if s.isOpen ∧ limit ≤ elapsed then (true, s.close) else (false, s)

/-- The handle for appending, opened now if need be; its folder is made on the way. -/
def openHandle (s : Store) (d : Disk) : Except Failure Nat × Disk :=
  match s.handle with
  | some n => (.ok n, d)
  | none =>
    match d.makeFolder with
    | .error f => (.error (failure "create directory" s.place.folder f), d)
    | .ok d =>
      match d.openFile s.place.name with
      | .error f => (.error (appendFailure (s.place.path s.place.name) f), d)
      | .ok (n, d) => (.ok n, d)

def append (s : Store) (d : Disk) (e : Entry) : Except Failure Unit × Store × Disk :=
  match s.openHandle d with
  | (.error f, d) => (.error f, s, d)
  | (.ok n, d) => (.ok (), { s with handle := some n }, d.append n (entryBytes e))

/-- What survives of the log; there is nothing in a log that is not there. -/
def read (s : Store) (d : Disk) : Except Failure Surviving × Store :=
  match d.read s.place.name with
  | .ok bytes => (.ok (.ofEntries (entriesOfBytes bytes)), s.close)
  | .error .notFound => (.ok .empty, s.close)
  | .error f => (.error (failure "open" (s.place.path s.place.name) f), s.close)

end Store

end ConfigDaemon.Log
