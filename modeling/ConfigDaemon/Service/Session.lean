import ConfigDaemon.Core.Delivery
import ConfigDaemon.Core.Replay
import ConfigDaemon.Housekeeping
import ConfigDaemon.Machine
import ConfigDaemon.Remote.Endpoint
import ConfigDaemon.Service.Answer

/-! # Histories of a whole daemon

A daemon is elected through its lock directory, takes up its log, answers connections and calls
the endpoints of its subscribers, until it is stopped or vanishes. After it has been asked to
shut down it takes no further connection; the next one is reset. All of them share a machine, on
which whoever is reached at an address is known by the file of the socket.
-/

namespace ConfigDaemon.Service

/-- Where a daemon has its lock, its log and its socket, and how it keeps house. -/
structure Setup where
  lock : Lock.Place
  log : Log.Place
  socket : String
  idleLimit : Nat
  upkeep : Upkeep
  /-- The order in which it visits the named databases. -/
  order : List String
  deriving DecidableEq, Repr

structure Running where
  setup : Setup
  core : Core
  opening : Lock.Opening
  /-- The file of the socket. -/
  socket : Nat
  deriving DecidableEq

/-- The daemon's state, with the disk of its log as it is on the machine. -/
def Running.on (r : Running) (m : Machine) : Core :=
  { r.core with disk := m.folder r.setup.log.folder }

/-- A subscriber that listens on a socket. -/
structure Bound where
  subscriber : Subscriber
  /-- The file of the socket. -/
  socket : Nat
  deriving DecidableEq, Repr

structure Session where
  machine : Machine
  running : Option Running
  subscribers : Table String Bound
  deriving DecidableEq

namespace Session

def start (machine : Machine) : Session := ⟨machine, none, .empty⟩

/-- Whether a subscriber is the one that is reached at an address. -/
def isAt (s : Session) (address : String) (b : Bound) : Bool :=
  match s.machine.reach address with
  | .ok socket => socket = b.socket
  | .error _ => false

/-- Endpoints answer while they are there. -/
def peers (s : Session) : Peers where
  ping address := s.subscribers.values.any (s.isAt address)
  rekey address _ := s.subscribers.values.any (s.isAt address)
  notify address _ := if s.subscribers.values.any (s.isAt address) then .taken else .lost

/-- An endpoint takes a callback. -/
def takeCallback (s : Session) (address : String) (c : Callback) : Session :=
  { s with subscribers := s.subscribers.mapValues fun _ b =>
      if s.isAt address b then { b with subscriber := (b.subscriber.handle c).2 } else b }

/-- Keeps what a daemon has become, with its disk on the machine. -/
def keep (s : Session) (r : Running) (c : Core) : Session :=
  { s with
    machine := s.machine.withFolder r.setup.log.folder c.disk
    running := some { r with core := c } }

/-- Delivers the notifications that are on their way. -/
def deliver (s : Session) : Session :=
  match s.running with
  | none => s
  | some r =>
    let s' := (r.core.deliveries s.peers).foldl
      (fun s (address, ns) => ns.foldl (fun s n => s.takeCallback address (.notify n)) s) s
    { s' with running := some { r with core := r.core.deliver s.peers } }

/-- Ends the daemon in good order: the log is compacted and the lock given up. -/
def finish (s : Session) : Session :=
  match s.running with
  | none => s
  | some r =>
    let s := s.keep r ((r.on s.machine).beginShutdown.compact r.setup.order).2
    let (_, machine) := s.machine.release r.setup.lock r.opening
    { s with machine := machine.unlink r.setup.socket, running := none }

/-- The daemon vanishes. Its lock goes with it, its record stays. -/
def crash (s : Session) : Session :=
  match s.running with
  | none => s
  | some r =>
    { s with machine := (s.machine.close r.opening).unlink r.setup.socket, running := none }

/-- Takes up what survives of the log and keeps house for the first time. -/
def restore (s : Session) (r : Running) : Session :=
  let (result, core) := (r.on s.machine).restore s.peers
  let notices : List Core.Notice :=
    match result with
    | .ok (_, notices) => notices.filter (·.accepted)
    | .error _ => []
  let s := notices.foldl (fun (s : Session) n => s.takeCallback n.client (.rekey n.rekeying)) s
  let (_, core) := core.compact r.setup.order
  let (verdict, _, core) :=
    (Housekeeper.start r.setup.upkeep 0).tick (.alone 0 0 r.setup.order s.peers.ping core)
  let s := s.keep r core
  if verdict = .exit then s.finish else s

/-- Starts a daemon. One that finds the lock held fails. -/
def launch (setup : Setup) (s : Session) : Except Failure Unit × Session :=
  match s.machine.listen setup.socket with
  | (.error f, machine) => (.error f, { s with machine })
  | (.ok socket, machine) =>
    match machine.acquire setup.lock (some setup.socket) with
    | (.error f, machine) => (.error f, { s with machine := machine.unlink setup.socket })
    | (.ok opening, machine) =>
      let core := Core.start setup.log setup.idleLimit .empty
      (.ok (), { s with machine }.restore ⟨setup, core, opening, socket⟩)

/-- What becomes of a connection to an address with these bytes. -/
def connect (self : Identity) (address : String) (s : Session) (bytes : Bytes) :
    Exchange × Session :=
  match s.machine.reach address, s.running with
  | .error x, _ => (x, s)
  | .ok _, none => (.absent, s)
  | .ok socket, some r =>
    if socket ≠ r.socket then (.absent, s)
    else if r.core.inShutdown then
      (.broken "Connection reset by peer (os error 104)", s.finish)
    else
      let (out, core) := answer self (r.on s.machine) bytes
      (.stream (out.getD []), (s.keep r core).deliver)

/-- The result of a call to the daemon. -/
def call (self : Identity) (t : Target) (s : Session) (c : Call) :
    Except Failure Call.Result × Session :=
  let (x, s) := s.connect self t.address (Wire.frame c.request.encode)
  (c.result t x, s)

/-- Asks the daemon to stop and waits for its end. -/
def stop (self : Identity) (t : Target) (s : Session) :
    Except Failure Call.Result × Session :=
  let (r, s) := s.call self t .shutdown
  (r, s.finish)

def unbind (s : Session) (name : String) : Session :=
  match s.subscribers.find? name with
  | none => s
  | some b =>
    { s with
      machine := s.machine.unlink b.subscriber.endpoint.address
      subscribers := s.subscribers.erase name }

/-- Binds an endpoint and keeps it under a name, where one that had the name ends. -/
def bind (s : Session) (name address : String) : Except Failure String × Session :=
  match s.machine.bind address with
  | .error text => (.error (.io text), s)
  | .ok (socket, machine) =>
    let s := { s with machine }.unbind name
    (.ok address, { s with subscribers := s.subscribers.insert name ⟨.start address, socket⟩ })

def withEndpoint (s : Session) (name : String) (f : Endpoint → Endpoint) : Session :=
  match s.subscribers.find? name with
  | none => s
  | some b =>
    let subscriber := { b.subscriber with endpoint := f b.subscriber.endpoint }
    { s with subscribers := s.subscribers.insert name { b with subscriber } }

/-- Subscribes an endpoint through the daemon. -/
def subscribe (self : Identity) (t : Target) (s : Session) (name : String)
    (e : Endpoint) (database : Option String) (location : String) :
    Except Failure (Except Failure Call.Result) × Session :=
  match Call.onDatabase (call self t) s database (e.subscribeCall · location) with
  | (.error f, s) => (.error f, s)
  | (.ok r, s) => (.ok r, s.withEndpoint name (·.subscribed database r))

/-- Ends a subscription of an endpoint through the daemon. -/
def unsubscribe (self : Identity) (t : Target) (s : Session) (name : String)
    (e : Endpoint) (database : Option String) (id : UInt32) :
    Except Failure (Except Failure Call.Result) × Session :=
  match Call.onDatabase (call self t) s database (e.unsubscribeCall · id) with
  | (.error f, s) => (.error f, s)
  | (.ok r, s) => (.ok r, s.withEndpoint name (·.unsubscribed database id r))

/-- Takes the first events of an endpoint. -/
def receive (s : Session) (name : String) (count : Nat) : List Event × Session :=
  match s.subscribers.find? name with
  | none => ([], s)
  | some b =>
    let (events, subscriber) := b.subscriber.receive count
    (events, { s with subscribers := s.subscribers.insert name { b with subscriber } })

end Session

end ConfigDaemon.Service
