import ConfigDaemon.Disk
import ConfigDaemon.Path

/-! # Volumes

A volume is a tree of folders with files, listed by the ways from its root. Paths are walked name
by name, and each step needs a folder to start from, also one that goes back up or stays. What
lies at one path can be taken out as a disk of its own and put back.
-/

namespace ConfigDaemon

structure Volume where
  nodes : Nodes
  files : List Bytes
  deriving DecidableEq

namespace Volume

def empty : Volume := ⟨[], []⟩

instance : Inhabited Volume := ⟨empty⟩

/-- The room for a name and for a path, in bytes. -/
def nameRoom : Nat := 255

def pathRoom : Nat := 4096

/-! ## Looking -/

/-- The node that a way leads to. The root is always there. -/
def node? (v : Volume) (way : List String) : Option Node :=
  if way = [] then some .folder else v.nodes.lookup way

def step (v : Volume) (way : List String) (name : String) : Except Fault (List String) :=
  match v.node? way with
  | none => .error .notFound
  | some (.file _) => .error .notFolder
  | some .folder =>
    if Path.stays name then .ok way
    else if name = ".." then .ok way.dropLast
    else if nameRoom < name.utf8ByteSize then .error .nameTooLong
    else .ok (way ++ [name])

/-- The way that names lead. There need be nothing at its end. -/
def walk (v : Volume) (names : List String) : Except Fault (List String) :=
  names.foldlM v.step []

/-- Why a path cannot even be tried. -/
def pathFault? (path : String) : Option Fault :=
  if path.isEmpty then some .notFound
  else if path.toList.contains '\x00' then some .interiorNul
  else if pathRoom ≤ path.utf8ByteSize then some .nameTooLong
  else none

def locate (v : Volume) (path : String) : Except Fault (List String) :=
  match pathFault? path with
  | some f => .error f
  | none => v.walk (Path.names path)

def look (v : Volume) (path : String) : Except Fault Node :=
  match v.locate path with
  | .error f => .error f
  | .ok way =>
    match v.node? way with
    | none => .error .notFound
    | some n => .ok n

def has (v : Volume) (path : String) : Bool :=
  (v.look path).toBool

/-- The contents of the file at a path. -/
def read (v : Volume) (path : String) : Except Fault Bytes :=
  match v.look path with
  | .error f => .error f
  | .ok .folder => .error .isFolder
  | .ok (.file n) => .ok (v.files.getD n [])

/-! ## Making folders -/

/-- Makes one folder, whose place must be free. -/
def makeOne (v : Volume) (names : List String) : Except Fault Volume :=
  match v.walk (Path.dropEnd (· = "") names) with
  | .error f => .error f
  | .ok way =>
    if (v.node? way).isSome then .error .exists
    else .ok { v with nodes := v.nodes ++ [(way, .folder)] }

def isFolder (v : Volume) (names : List String) : Bool :=
  ((v.walk names).toOption.bind v.node?) = some .folder

/-- Makes one folder, unless it is there. -/
def ensureOne (v : Volume) (names : List String) : Except Fault Unit × Volume :=
  match v.makeOne names with
  | .ok v => (.ok (), v)
  | .error f => (if v.isFolder names then .ok () else .error f, v)

/-- Makes a folder and, as far as they are missing, the `depth` folders that it lies in. -/
def ensureWay (v : Volume) : (depth : Nat) → List String → Except Fault Unit × Volume
  | 0, names => v.ensureOne names
  | depth + 1, names =>
    match v.ensureOne names with
    | (.error .notFound, v) =>
      match v.ensureWay depth (Path.parentNames names) with
      | (.error f, v) => (.error f, v)
      | (.ok (), v) => v.ensureOne names
    | answer => answer

/-- Makes the folder at a path with all that it lies in. What was made stays after a fault. -/
def makeFolders (v : Volume) (path : String) : Except Fault Unit × Volume :=
  match pathFault? path with
  | some f => (.error f, v)
  | none =>
    let names := Path.names path
    v.ensureWay names.length names

/-! ## Files -/

def addFile (v : Volume) (way : List String) (bytes : Bytes) : Nat × Volume :=
  (v.files.length, ⟨v.nodes ++ [(way, .file v.files.length)], v.files ++ [bytes]⟩)

/-- Writes a file, in place if there is one. -/
def write (v : Volume) (path : String) (bytes : Bytes) : Except Fault Volume :=
  match v.locate path with
  | .error f => .error f
  | .ok way =>
    match v.node? way with
    | some .folder => .error .isFolder
    | some (.file n) => .ok { v with files := v.files.set n bytes }
    | none => .ok (v.addFile way bytes).2

/-- Puts a socket, which is a file without contents, at a path that must be free. -/
def bind (v : Volume) (path : String) : Except Fault (Nat × Volume) :=
  match v.locate path with
  | .error f => .error f
  | .ok way => if (v.node? way).isSome then .error .addressInUse else .ok (v.addFile way [])

/-- Takes the name off a file. -/
def unlink (v : Volume) (path : String) : Except Fault Volume :=
  match v.locate path with
  | .error f => .error f
  | .ok way =>
    match v.node? way with
    | none => .error .notFound
    | some .folder => .error .isFolder
    | some (.file _) => .ok { v with nodes := v.nodes.filter (·.1 ≠ way) }

/-- Removes what is at a path with all that is below it. A path that ends in dots keeps its
folder. -/
def remove (v : Volume) (path : String) : Volume :=
  match v.locate path with
  | .error _ => v
  | .ok way =>
    { v with nodes := v.nodes.filter fun (w, _) =>
        !way.isPrefixOf w || (Path.endsInDots path && w = way) }

/-! ## Disks -/

/-- The nodes below a way, each with the rest of its way. -/
def below (nodes : Nodes) (way : List String) : Nodes :=
  nodes.filterMap fun (w, n) =>
    match way.isPrefixOf? w with
    | none | some [] => none
    | some rest => some (rest, n)

/-- The entries of a folder that has these nodes below it. -/
def entriesOf (nodes : Nodes) : Table String Entry :=
  .ofList (nodes.filterMap fun
    | ([name], .file n) => some (name, .file n)
    | ([name], .folder) => some (name, .folder (below nodes [name]))
    | _ => none)

/-- The nodes below a folder with these entries. -/
def nodesOf (entries : Table String Entry) : Nodes :=
  entries.rows.flatMap fun
    | (name, .file n) => [([name], .file n)]
    | (name, .folder inside) => ([name], .folder) :: inside.map fun (w, n) => (name :: w, n)

/-- The site at a path below which looking fails. -/
def siteWithout (v : Volume) (path : String) (look : Fault) : Site :=
  match (v.makeFolders path).1 with
  | .ok () => .missing
  | .error make => .blocked look make

def site (v : Volume) (path : String) : Site :=
  match v.locate path with
  | .error f => v.siteWithout path f
  | .ok way =>
    match v.node? way with
    | none => v.siteWithout path .notFound
    | some (.file _) => v.siteWithout path .notFolder
    | some .folder => .folder (entriesOf (below v.nodes way))

/-- The disk that lies at a path. -/
def folder (v : Volume) (path : String) : Disk :=
  ⟨v.site path, v.files, Path.endsInDots path⟩

/-- Puts nodes in the place of those below a way. -/
def graft (v : Volume) (way : List String) (nodes : Nodes) : Volume :=
  { v with nodes := (v.nodes.filter fun (w, _) => !way.isPrefixOf w || w = way) ++
      nodes.map fun (w, n) => (way ++ w, n) }

/-- Puts a disk back at the path where it lay. -/
def withFolder (v : Volume) (path : String) (d : Disk) : Volume :=
  let v := { v with files := d.files }
  match d.site with
  | .missing => v.remove path
  | .blocked .. => v
  | .folder entries =>
    let v := (v.makeFolders path).2
    match v.locate path with
    | .error _ => v
    | .ok way => v.graft way (nodesOf entries)

/-! ## Changes from outside -/

/-- What other programs do in a folder. Names may be paths. -/
inductive Change
  | put (name : String) (bytes : Bytes)
  | makeFolder (name : String)
  | remove (name : String)
  /-- A plain file takes the place of the folder. -/
  | block
  deriving DecidableEq, Repr

/-- Writes a file, if that is possible. -/
def put (v : Volume) (path : String) (bytes : Bytes) : Volume :=
  (v.write path bytes).toOption.getD v

/-- Makes a change in the folder at a path, which is made for a file. -/
def change (v : Volume) (path : String) : Change → Volume
  | .put name bytes => (v.makeFolders path).2.put (Path.join path name) bytes
  | .makeFolder name => (v.makeFolders (Path.join path name)).2
  | .remove name => v.remove (Path.join path name)
  | .block => ((v.remove path).makeFolders (Path.parent path)).2.put path []

end Volume

end ConfigDaemon
