import ConfigDaemon.Log.Store

/-! # Compaction

A compaction writes the new log beside the old one, moves the old one aside, moves the new one
into place and removes the old one. It is a script of calls on the disk, so that it can also be
stopped between any two of them.
-/

namespace ConfigDaemon.Log

open Text

/-- The calls of a compaction that change a disk. -/
inductive Call
  | makeFolder
  | stage (name : String)
  | fill (name : String) (bytes : Bytes)
  | rename (old new : String)
  | unlink (name : String)
  deriving DecidableEq, Repr

/-- Opens an empty file under a name. -/
def stageFile (d : Disk) (name : String) : Except Fault Disk :=
  match d.openFile name with
  | .error f => .error f
  | .ok (n, d) => .ok (d.fill n [])

def fillFile (d : Disk) (name : String) (bytes : Bytes) : Except Fault Disk :=
  match d.find name with
  | .ok (.file n) => .ok (d.fill n bytes)
  | .ok (.folder _) => .error .isFolder
  | .error f => .error f

def Call.perform (d : Disk) : Call → Except Fault Disk
  | .makeFolder => d.makeFolder
  | .stage name => stageFile d name
  | .fill name bytes => fillFile d name bytes
  | .rename old new => d.rename old new
  | .unlink name => d.unlink name

/-- Calls whose choice depends on how the earlier ones went. -/
inductive Script (α : Type)
  | finish (a : α)
  | look (name : String) (next : Bool → Script α)
  | call (c : Call) (next : Option Fault → Script α)

namespace Script

variable {α : Type}

/-- The fault of a call, if any, and the disk after it. -/
def after (d : Disk) (c : Call) : Option Fault × Disk :=
  match c.perform d with
  | .ok d => (none, d)
  | .error f => (some f, d)

def run (d : Disk) : Script α → α × Disk
  | .finish a => (a, d)
  | .look name next => (next (d.has name)).run d
  | .call c next => (next (after d c).1).run (after d c).2

/-- The disk when only the first `count` calls happen. -/
def stop (d : Disk) : (count : Nat) → Script α → Disk
  | _, .finish _ => d
  | count, .look name next => (next (d.has name)).stop d count
  | 0, .call _ _ => d
  | count + 1, .call c next => (next (after d c).1).stop (after d c).2 count

/-- Takes back the staged file and ends with a failure. -/
def abandon (p : Place) (f : Failure) : Script (Except Failure Unit) :=
  .call (.unlink p.staged) fun _ => .finish (.error f)

end Script

/-- Moves the staged log into place, with the old one moved aside or not. -/
def installScript (p : Place) (movedAside : Bool) : Script (Except Failure Unit) :=
  .call (.rename p.staged p.name) fun
    | some fault =>
      let f := failure "move into place" (p.path p.staged) fault
      if movedAside then .call (.rename p.aside p.name) fun _ => .abandon p f
      else .abandon p f
    | none =>
      if movedAside then .call (.unlink p.aside) fun _ => .finish (.ok ())
      else .finish (.ok ())

/-- Replaces the log by one with these bytes. -/
def compactionScript (p : Place) (bytes : Bytes) : Script (Except Failure Unit) :=
  .call .makeFolder fun
    | some fault => .finish (.error (failure "create directory" p.folder fault))
    | none => .call (.stage p.staged) fun
      | some fault => .abandon p (failure "open" (p.path p.staged) fault)
      | none => .call (.fill p.staged bytes) fun
        | some fault => .abandon p (failure "write" (p.path p.staged) fault)
        | none => .look p.name fun
          | false => installScript p false
          | true => .call (.rename p.name p.aside) fun
            | some fault => .abandon p (failure "move aside" (p.path p.name) fault)
            | none => installScript p true

/-- The file that holds just these entries. -/
def logBytes (entries : List Entry) : Bytes :=
  Utf8.encode (textOfEntries entries)

def Store.compact (s : Store) (d : Disk) (entries : List Entry) :
    Except Failure Unit × Store × Disk :=
  let (r, d) := (compactionScript s.place (logBytes entries)).run d
  (r, s.close, d)

end ConfigDaemon.Log
