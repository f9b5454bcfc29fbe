import ConfigDaemon.Bytes
import ConfigDaemon.Table
import ConfigDaemon.Text.Utf8

/-! # One folder of a disk

The state of a folder path: nothing may be there, something may be in the way, or a folder with
named entries. A name refers to a file by number, so an open file keeps its contents when
its name goes or comes to mean another file.
-/

namespace ConfigDaemon

/-- Why files and folders cannot be used as asked. -/
inductive Fault
  | notPermitted
  | notFound
  | exists
  | notFolder
  | isFolder
  | invalid
  | nameTooLong
  | notEmpty
  | addressInUse
  | interiorNul
  | notText
  deriving DecidableEq, Repr

def Fault.message : Fault → String
  | .notPermitted => "Operation not permitted (os error 1)"
  | .notFound => "No such file or directory (os error 2)"
  | .exists => "File exists (os error 17)"
  | .notFolder => "Not a directory (os error 20)"
  | .isFolder => "Is a directory (os error 21)"
  | .invalid => "Invalid argument (os error 22)"
  | .nameTooLong => "File name too long (os error 36)"
  | .notEmpty => "Directory not empty (os error 39)"
  | .addressInUse => "Address already in use (os error 98)"
  | .interiorNul => "file name contained an unexpected NUL byte"
  | .notText => "stream did not contain valid UTF-8"

inductive Node
  | file (number : Nat)
  | folder
  deriving DecidableEq, Repr

/-- The nodes below a folder, each with the names on the way to it. -/
abbrev Nodes := List (List String × Node)

/-- A name leads to a file, or to a folder with all that is below it. -/
inductive Entry
  | file (number : Nat)
  | folder (inside : Nodes)
  deriving DecidableEq, Repr

/-- What stands at the path of the folder. Where the way is blocked, looking below the path fails
with one fault and making the folder with another. -/
inductive Site
  | missing
  | blocked (look make : Fault)
  | folder (entries : Table String Entry)
  deriving DecidableEq

structure Disk where
  site : Site
  files : List Bytes
  /-- The path ends by staying where it is or going up, which keeps the folder. -/
  pinned : Bool
  deriving DecidableEq

namespace Disk

def empty : Disk := ⟨.missing, [], false⟩

instance : Inhabited Disk := ⟨empty⟩

/-- The entries of the folder, when it is one. -/
def entries (d : Disk) : Except Fault (Table String Entry) :=
  match d.site with
  | .missing => .error .notFound
  | .blocked look _ => .error look
  | .folder es => .ok es

def find (d : Disk) (name : String) : Except Fault Entry :=
  match d.entries with
  | .error f => .error f
  | .ok es =>
    match es.find? name with
    | none => .error .notFound
    | some e => .ok e

def has (d : Disk) (name : String) : Bool :=
  (d.find name).toBool

def contents (d : Disk) (file : Nat) : Bytes :=
  d.files.getD file []

def withEntries (d : Disk) (es : Table String Entry) : Disk :=
  { d with site := .folder es }

def fill (d : Disk) (file : Nat) (bytes : Bytes) : Disk :=
  { d with files := d.files.set file bytes }

def append (d : Disk) (file : Nat) (bytes : Bytes) : Disk :=
  d.fill file (d.contents file ++ bytes)

/-- Makes the folder, unless it is there. -/
def makeFolder (d : Disk) : Except Fault Disk :=
  match d.site with
  | .missing => .ok (d.withEntries .empty)
  | .blocked _ make => .error make
  | .folder _ => .ok d

/-- The contents of the file that a name refers to. -/
def read (d : Disk) (name : String) : Except Fault Bytes :=
  match d.find name with
  | .error f => .error f
  | .ok (.folder _) => .error .isFolder
  | .ok (.file n) => .ok (d.contents n)

/-- The text of a file with these contents. -/
def textOf (bytes : Bytes) : Except Fault (List Char) :=
  match Text.Utf8.decode bytes with
  | none => .error .notText
  | some s => .ok s

/-- The text of the file that a name refers to. -/
def readText (d : Disk) (name : String) : Except Fault (List Char) :=
  match d.read name with
  | .error f => .error f
  | .ok bytes => textOf bytes

/-- Adds an empty file under a name that is free. -/
def addFile (d : Disk) (es : Table String Entry) (name : String) : Nat × Disk :=
  (d.files.length,
    { d.withEntries (es.insert name (.file d.files.length)) with files := d.files ++ [[]] })

/-- The file that a name refers to, a new and empty one if the name is free. -/
def openFile (d : Disk) (name : String) : Except Fault (Nat × Disk) :=
  match d.entries with
  | .error f => .error f
  | .ok es =>
    match es.find? name with
    | none => .ok (d.addFile es name)
    | some (.file n) => .ok (n, d)
    | some (.folder _) => .error .isFolder

/-- A new file under a name that must be free. -/
def createFile (d : Disk) (name : String) : Except Fault (Nat × Disk) :=
  match d.entries with
  | .error f => .error f
  | .ok es => if es.contains name then .error .exists else .ok (d.addFile es name)

/-- Takes the name off a file. -/
def unlink (d : Disk) (name : String) : Except Fault Disk :=
  match d.entries with
  | .error f => .error f
  | .ok es =>
    match es.find? name with
    | none => .error .notFound
    | some (.folder _) => .error .isFolder
    | some (.file _) => .ok (d.withEntries (es.erase name))

/-- Gives a file a second name. -/
def link (d : Disk) (old new : String) : Except Fault Disk :=
  match d.entries with
  | .error f => .error f
  | .ok es =>
    match es.find? old with
    | none => .error .notFound
    | some e =>
      if es.contains new then .error .exists
      else
        match e with
        | .folder _ => .error .notPermitted
        | .file n => .ok (d.withEntries (es.insert new (.file n)))

/-- Whether an entry may be put in the place of another one. -/
def replaceFault : (moved replaced : Entry) → Option Fault
  | .file _, .file _ => none
  | .file _, .folder _ => some .isFolder
  | .folder _, .file _ => some .notFolder
  | .folder _, .folder inside => if inside.isEmpty then none else some .notEmpty

/-- Gives an entry another name, over what had that name. -/
def rename (d : Disk) (old new : String) : Except Fault Disk :=
  match d.entries with
  | .error f => .error f
  | .ok es =>
    match es.find? old with
    | none => .error .notFound
    | some e =>
      match (es.find? new).bind (replaceFault e) with
      | some f => .error f
      | none => .ok (d.withEntries ((es.erase old).insert new e))

/-- Removes the folder itself, when nothing is in it. -/
def removeFolder (d : Disk) : Except Fault Disk :=
  match d.entries with
  | .error f => .error f
  | .ok es =>
    if d.pinned then .error .invalid
    else if es.isEmpty then .ok { d with site := .missing }
    else .error .notEmpty

/-- The names of the folder with what can be read under them. -/
def listing (d : Disk) : Option (List (String × Option Bytes)) :=
  match d.entries with
  | .error _ => none
  | .ok es =>
    some (es.rows.map fun (name, _) => (name, (d.read name).toOption))

end Disk

end ConfigDaemon
