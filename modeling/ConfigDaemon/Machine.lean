import ConfigDaemon.Lock.Election
import ConfigDaemon.Remote.Exchange
import ConfigDaemon.Volume
import ConfigDaemon.Wire.Archive

/-! # Machines

What processes share: the volume with their files and sockets, and the locks on files. A path
that is not absolute starts from the folder in which the processes run.
-/

namespace ConfigDaemon

structure Machine where
  base : String
  volume : Volume
  locks : List Lock.Opening
  nextOpening : Nat
  deriving DecidableEq

namespace Machine

def start (base : String) (volume : Volume) : Machine := ⟨base, volume, [], 0⟩

def path (m : Machine) (p : String) : String :=
  Path.join m.base p

def withVolume (m : Machine) (v : Volume) : Machine :=
  { m with volume := v }

/-- The disk that lies at a path. -/
def folder (m : Machine) (p : String) : Disk :=
  m.volume.folder (m.path p)

/-- Puts a disk back where it lay. -/
def withFolder (m : Machine) (p : String) (d : Disk) : Machine :=
  m.withVolume (m.volume.withFolder (m.path p) d)

def makeFolders (m : Machine) (p : String) : Except Fault Unit × Machine :=
  let (r, v) := m.volume.makeFolders (m.path p)
  (r, m.withVolume v)

def has (m : Machine) (p : String) : Bool :=
  m.volume.has (m.path p)

def read (m : Machine) (p : String) : Except Fault Bytes :=
  m.volume.read (m.path p)

/-- Takes the name off a file, if that is possible. -/
def unlink (m : Machine) (p : String) : Machine :=
  m.withVolume ((m.volume.unlink (m.path p)).toOption.getD m.volume)

/-- Another program changes the folder at a path. -/
def change (m : Machine) (p : String) (c : Volume.Change) : Machine :=
  m.withVolume (m.volume.change (m.path p) c)

/-- A file with these contents is at a path. -/
def withFile (m : Machine) (p : String) (bytes : Bytes) : Machine :=
  m.change (Path.parent p) (.put (m.path p) bytes)

/-! ## Locks -/

/-- A lock folder with the locks of the machine. -/
def lockWorld (m : Machine) (p : String) : Lock.World :=
  ⟨m.folder p, m.locks, m.nextOpening⟩

def withLockWorld (m : Machine) (p : String) (w : Lock.World) : Machine :=
  { m.withFolder p w.disk with locks := w.locks, nextOpening := w.nextOpening }

def acquire (m : Machine) (p : Lock.Place) (address : Option String) :
    Except Failure Lock.Opening × Machine :=
  let (_, m) := m.makeFolders p.folder
  let w := m.lockWorld p.folder
  let (r, w) := Lock.acquire p w.stamp w.stamp.next w address
  (r, m.withLockWorld p.folder w)

def release (m : Machine) (p : Lock.Place) (o : Lock.Opening) : Except Failure Unit × Machine :=
  let w := m.lockWorld p.folder
  let (r, w) := Lock.release p w.stamp w o
  (r, m.withLockWorld p.folder w)

def close (m : Machine) (o : Lock.Opening) : Machine :=
  { m with locks := m.locks.filter (· ≠ o) }

def holder (m : Machine) (p : Lock.Place) : Except Failure Holder :=
  Lock.currentHolder p (m.folder p.folder)

/-! ## Sockets -/

/-- Binds a new socket to an address; the answer is its file. -/
def bind (m : Machine) (address : String) : Except String (Nat × Machine) :=
  match Exchange.addressFault? (Wire.utf8 address) with
  | some text => .error text
  | none =>
    match m.volume.bind (m.path address) with
    | .error f => .error f.message
    | .ok (socket, v) => .ok (socket, m.withVolume v)

/-- The file that a caller of an address reaches, or what becomes of the call instead. Nobody
listens at an address that is no path. -/
def reach (m : Machine) (address : String) : Except Exchange Nat :=
  let bytes := Wire.utf8 address
  match Exchange.addressFault? bytes with
  | some text => .error (.broken text)
  | none =>
    if bytes.head? = some 0 then .error .absent
    else
      match m.volume.look (m.path address) with
      | .ok (.file socket) => .ok socket
      | .ok .folder | .error .notFound => .error .absent
      | .error f => .error (.broken f.message)

/-- Binds a daemon's socket, in place of what may be left there, in a folder made for it. -/
def listen (m : Machine) (address : String) : Except Failure Nat × Machine :=
  let place := Path.parent address
  match m.makeFolders place with
  | (.error _, m) => (.error (.failed ("Failed to create " ++ place)), m)
  | (.ok (), m) =>
    let m := m.unlink address
    match m.bind address with
    | .error _ => (.error (.failed ("Failed to bind " ++ address)), m)
    | .ok (socket, m) => (.ok socket, m)

end Machine

end ConfigDaemon
