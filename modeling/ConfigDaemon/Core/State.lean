import ConfigDaemon.Client
import ConfigDaemon.Database
import ConfigDaemon.Log.Compaction

/-! # The state of the daemon

The known clients, the open databases with their listeners, the recovery log on its disk, and the
notifications on their way. The named databases have no order of their own. A part that visits them
all is given an order, if that can make a difference, and each time it may be given another one.
-/

namespace ConfigDaemon

/-- Names in a given order; those that the order leaves out come last. -/
def arrange : (order names : List String) → List String
  | [], names => names
  | n :: order, names =>
    if n ∈ names then n :: arrange order (names.erase n) else arrange order names

/-- The notifications that wait for one client. A courier whose call never ends is stuck. -/
structure Courier where
  pending : List Notification
  stuck : Bool
  deriving DecidableEq, Repr

structure Core where
  clients : Table String Unit
  main : Database
  others : Table String Database
  log : Log.Store
  disk : Disk
  /-- Disuse, in seconds, after which the log's handle is closed. -/
  idleLimit : Nat
  needsCompaction : Bool
  couriers : Table String Courier
  inShutdown : Bool
  deriving DecidableEq

namespace Core

/-- A daemon that has just started on what is on the disk. -/
def start (place : Log.Place) (idleLimit : Nat) (disk : Disk) : Core where
  clients := .empty
  main := .empty
  others := .empty
  log := ⟨place, none⟩
  disk := disk
  idleLimit := idleLimit
  needsCompaction := false
  couriers := .empty
  inShutdown := false

def database? (c : Core) : Option String → Option Database
  | none => some c.main
  | some address => c.others.find? address

/-- The database at an address, a new one if none is open there. -/
def database (c : Core) (address : Option String) : Database :=
  (c.database? address).getD .empty

def setDatabase (c : Core) (address : Option String) (d : Database) : Core :=
  match address with
  | none => { c with main := d }
  | some a => { c with others := c.others.insert a d }

/-- Opens a database, unless it is open. -/
def openDatabase (c : Core) (address : Option String) : Core :=
  c.setDatabase address (c.database address)

/-- The open databases with their addresses, the default one first. -/
def databases (c : Core) (order : List String) : List (Option String × Database) :=
  (none, c.main) ::
    (arrange order c.others.keys).map fun a => (some a, c.database (some a))

def mapDatabases (c : Core) (f : Database → Database) : Core :=
  { c with main := f c.main, others := c.others.mapValues fun _ d => f d }

def recordOf (address : Option String) (l : Listener) : Log.Record :=
  ⟨l.id, Database.logName address, l.location, l.client⟩

/-- The listeners of all databases as the log records them. -/
def recordsIn (c : Core) (order : List String) : List Log.Record :=
  (c.databases order).flatMap fun (address, d) => d.listeners.toList.map (recordOf address)

/-- The same records where their order is of no account. -/
def records (c : Core) : List Log.Record :=
  c.recordsIn []

def listenerCount (c : Core) : Nat :=
  c.records.length

/-- Neither clients nor listeners are left. -/
def isIdle (c : Core) : Bool :=
  c.clients.isEmpty && c.listenerCount = 0

/-- The entries that a compacted log holds. -/
def snapshotIn (c : Core) (order : List String) : List Log.Entry :=
  c.clients.keys.map .addClient ++ (c.recordsIn order).map .addListener

/-- Logs a change. The change stands even if the log cannot be written. -/
def logChange (c : Core) (e : Log.Entry) : Core :=
  let (_, log, disk) := c.log.append c.disk e
  { c with log, disk, needsCompaction := true }

def logChanges (c : Core) (es : List Log.Entry) : Core :=
  es.foldl logChange c

/-- What survives of the log as it is now. -/
def readLog (c : Core) : Except Failure Log.Surviving :=
  (c.log.read c.disk).1

end Core

end ConfigDaemon
