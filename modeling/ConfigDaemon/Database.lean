import ConfigDaemon.Registry

/-! # Databases

A database holds values by key and the listeners for their changes. The default database has no
address; the recovery log calls it `def`.
-/

namespace ConfigDaemon

structure Database where
  listeners : Registry
  values : Table String String
  deriving DecidableEq

namespace Database

def empty : Database := ⟨.empty, .empty⟩

instance : Inhabited Database := ⟨empty⟩

def defaultName : String := "def"

/-- The name of a database in the recovery log. -/
def logName (address : Option String) : String :=
  address.getD defaultName

/-- The database that a name in the recovery log stands for. -/
def ofLogName (name : String) : Option String :=
  if name = defaultName then none else some name

def lookup (d : Database) (key : String) : Except Key.Fault (Option String) :=
  match Key.fault? key with
  | some fault => .error fault
  | none => .ok (d.values.find? key)

/-- Stores a value; the answer tells whether the key held another one or none. -/
def set (d : Database) (key value : String) : Except Key.Fault (Bool × Database) :=
  match Key.fault? key with
  | some fault => .error fault
  | none =>
    .ok (d.values.find? key ≠ some value, { d with values := d.values.insert key value })

/-- Removes a value; the answer is the value that was there. -/
def unset (d : Database) (key : String) : Except Key.Fault (Option String × Database) :=
  match Key.fault? key with
  | some fault => .error fault
  | none => .ok (d.values.find? key, { d with values := d.values.erase key })

end Database

end ConfigDaemon
