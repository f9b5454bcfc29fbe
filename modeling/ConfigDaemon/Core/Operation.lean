import ConfigDaemon.Core.State

/-! # Operations of the daemon

What callers ask of the daemon. Each operation first checks that the daemon is not shutting down.
A value that is set or unset under a bad key leaves the database open; otherwise an operation that
fails leaves everything as it was.
-/

namespace ConfigDaemon.Core

variable [Transport]

/-- Queues a notification for each listener whose location the key is at or below. -/
def queueChange (c : Core) (address : Option String) (key : String) (value : Option String) :
    Core :=
  let listeners := (c.database address).listeners.matching key
  let couriers := listeners.foldl
    (fun t (l : Listener) =>
      let courier := (t.find? l.client).getD ⟨[], false⟩
      let pending := courier.pending ++ [⟨address, l.id, key, value⟩]
      t.insert l.client { courier with pending })
    c.couriers
  { c with couriers }

def check (c : Core) : Except Failure Unit :=
  if c.inShutdown then .error .inShutdown else .ok ()

def beginShutdown (c : Core) : Core :=
  { c with inShutdown := true }

/-- Runs an operation unless the daemon is shutting down. -/
def guarded {α : Type} (c : Core) (op : Except Failure α × Core) : Except Failure α × Core :=
  if c.inShutdown then (.error .inShutdown, c) else op

def resolveClient (address : String) : Except Failure String :=
  match Transport.resolve address with
  | .ok client => .ok client
  | .error f =>
    .error (.failed ("can't resolve client '" ++ address ++ "': " ++ f.message))

def obtainDatabase (c : Core) (address : Option String) :
    Except Failure (Option String) × Core :=
  c.guarded <|
    if address = some "" then (.error (.failed "empty database address"), c)
    else (.ok address, c.openDatabase address)

/-- Makes a client known, with a line in the log if it was not known before. -/
def welcome (c : Core) (client : String) : Core :=
  if c.clients.contains client then c
  else { c with clients := c.clients.insert client () }.logChange (.addClient client)

def addClient (c : Core) (address : String) : Except Failure Unit × Core :=
  c.guarded <|
    match resolveClient address with
    | .error f => (.error f, c)
    | .ok client => (.ok (), c.welcome client)

/-- Makes a client unknown, with a line in the log if it was known. -/
def dismiss (c : Core) (client : String) : Core :=
  if c.clients.contains client then
    { c with clients := c.clients.erase client }.logChange (.removeClient client)
  else c

def removeClient (c : Core) (client : String) : Except Failure Unit × Core :=
  c.guarded (.ok (), c.dismiss client)

/-- The failure of a subscription to a database whose identifiers are all in use. -/
def noFreeId : Failure :=
  .failed "no connection id is free"

def subscribe (c : Core) (address : Option String) (location clientAddress : String) :
    Except Failure UInt32 × Core :=
  c.guarded <|
    match Key.fault? location, resolveClient clientAddress with
    | some fault, _ => (.error (.ofKeyFault location fault), c)
    | none, .error f => (.error f, c)
    | none, .ok client =>
      let d := c.database address
      match d.listeners.subscribe location client with
      | none => (.error noFreeId, c)
      | some (id, listeners) =>
        (.ok id, (c.setDatabase address { d with listeners }).logChange
          (.addListener (recordOf address ⟨id, location, client⟩)))

/-- Ends a subscription; one that does not exist is passed over. -/
def unsubscribe (c : Core) (address : Option String) (id : UInt32) :
    Except Failure Unit × Core :=
  c.guarded <|
    match c.database? address with
    | none => (.ok (), c)
    | some d =>
      match d.listeners.unsubscribe id with
      | (none, _) => (.ok (), c)
      | (some l, listeners) =>
        (.ok (), (c.setDatabase address { d with listeners }).logChange
          (.removeListener (recordOf address { l with id })))

/-- Stores a value and queues notifications if that changed anything. -/
def set (c : Core) (address : Option String) (key value : String) :
    Except Failure Unit × Core :=
  c.guarded <|
    match (c.database address).set key value with
    | .error fault => (.error (.ofKeyFault key fault), c.openDatabase address)
    | .ok (changed, d) =>
      let c := c.setDatabase address d
      (.ok (), if changed then c.queueChange address key (some value) else c)

def unset (c : Core) (address : Option String) (key : String) : Except Failure Unit × Core :=
  c.guarded <|
    match (c.database address).unset key with
    | .error fault => (.error (.ofKeyFault key fault), c.openDatabase address)
    | .ok (old, d) =>
      let c := c.setDatabase address d
      (.ok (), if old.isSome then c.queueChange address key none else c)

/-- The value of a key; in a database that is not open there is none. -/
def lookup (c : Core) (address : Option String) (key : String) :
    Except Failure (Option String) :=
  if c.inShutdown then .error .inShutdown
  else
    match c.database? address with
    | some d =>
      match d.lookup key with
      | .error fault => .error (.ofKeyFault key fault)
      | .ok value => .ok value
    | none =>
      match Key.fault? key with
      | some fault => .error (.ofKeyFault key fault)
      | none => .ok none

/-- Replaces the log by one that holds just the present state. -/
def compact (c : Core) (order : List String) : Except Failure Unit × Core :=
  match c.log.compact c.disk (c.snapshotIn order) with
  | (.error f, log, disk) => (.error f, { c with log, disk })
  | (.ok (), log, disk) => (.ok (), { c with log, disk, needsCompaction := false })

/-- Compacts the log if something changed since that was last done; the answer tells whether. -/
def compactIfNeeded (c : Core) (order : List String) : Except Failure Bool × Core :=
  if c.needsCompaction then
    match c.compact order with
    | (.error f, c) => (.error f, c)
    | (.ok (), c) => (.ok true, c)
  else (.ok false, c)

/-- Closes the log's handle if it was last used `elapsed` seconds ago and that is long enough. -/
def closeIdleLog (c : Core) (elapsed : Nat) : Bool × Core :=
  let (b, log) := c.log.closeIfIdle elapsed c.idleLimit
  (b, { c with log })

end ConfigDaemon.Core
