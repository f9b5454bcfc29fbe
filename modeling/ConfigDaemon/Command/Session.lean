import ConfigDaemon.Command.Execution
import ConfigDaemon.Remote.Scripted
import ConfigDaemon.Service.Session

/-! # Histories of command lines

Command lines run one after the other on a machine. A scripted daemon may listen there, the
program that is started as a daemon is known by what it does, and the daemons that were elected
run on between the command lines.
-/

namespace ConfigDaemon.Command

/-- What the program does that is started as a daemon. -/
inductive Program
  | missing
  /-- It ends without a sign. -/
  | ends
  /-- It signals that it is ready, and ends. -/
  | signals
  /-- It is a daemon. -/
  | serves
  deriving DecidableEq, Repr

def setup (order : List String) (v : Serving) : Service.Setup where
  lock := ⟨v.lockFolder, v.pid⟩
  log := ⟨v.stateFolder, "saved_state"⟩
  socket := v.socket
  idleLimit := v.settings.appendIdle
  upkeep := v.settings.upkeep
  order := order

/-- The scripted daemon, where it listens and the file of its socket. -/
structure Peer where
  script : Scripted Request
  address : String
  socket : Nat
  deriving DecidableEq

structure Session where
  machine : Machine
  environment : Environment
  peer : Option Peer
  program : Program
  /-- What the program writes to the address file of its lock folder, if it writes there. -/
  publication : Option Bytes
  daemons : List Service.Running
  nextPid : UInt32
  /-- The order in which the daemons visit their databases. -/
  order : List String

namespace Session

def loadedSettings (s : Session) : Except Settings.Fault Settings :=
  Settings.load (s.machine.read s.environment.settingsFile)

/-- Puts text into the address file of a lock folder. -/
def publish (s : Session) (lockFolder : String) (bytes : Bytes) : Session :=
  { s with machine := s.machine.change lockFolder (.put Lock.addressFile bytes) }

def holder (lockFolder : String) (s : Session) : Except Failure Holder :=
  s.machine.holder ⟨lockFolder, s.nextPid⟩

/-- Lets a daemon act on the machine; it is no longer there if it ends. -/
def act {α : Type} (s : Session) (r : Service.Running)
    (f : Service.Session → α × Service.Session) : α × Session :=
  let (a, t) := f ⟨s.machine, some r, .empty⟩
  (a, { s with
    machine := t.machine
    daemons := s.daemons.filter (·.socket ≠ r.socket) ++ t.running.toList })

/-- Calls the scripted daemon, which may remove its socket. -/
def callPeer (s : Session) (p : Peer) (t : Target) (c : Call) :
    Except Failure Call.Result × Session :=
  let (r, script) := p.script.call t c
  (r, { s with
    peer := some { p with script }
    machine := if script.listening then s.machine else s.machine.unlink p.address })

def call (t : Target) (c : Call) (s : Session) : Except Failure Call.Result × Session :=
  match s.machine.reach t.address with
  | .error x => (c.result t x, s)
  | .ok socket =>
    match s.peer.filter (·.socket = socket), s.daemons.find? (·.socket = socket) with
    | some p, _ => s.callPeer p t c
    | none, some r => s.act r (·.call ⟨r.setup.lock.pid, 0, Service.version⟩ t c)
    | none, none => (c.result t .absent, s)

/-- Starts a daemon at a lock folder. -/
def elect (v : Serving) (s : Session) : Except Failure Service.Session × Session :=
  let (r, t) := (Service.Session.start s.machine).launch (setup s.order v)
  (r.map fun () => t, { s with machine := t.machine })

/-- Starts a daemon that stays when the command is done. -/
def leave (v : Serving) (s : Session) : Except Failure Unit × Session :=
  match s.elect v with
  | (.error f, s) => (.error f, s)
  | (.ok t, s) => (.ok (), { s with daemons := s.daemons ++ t.running.toList })

/-- Serves in the foreground until the daemon has been idle for long enough or is told to end. -/
def serve (v : Serving) (s : Session) : Except Failure Unit × Session :=
  match s.elect v with
  | (.error f, s) => (.error f, s)
  | (.ok t, s) => (.ok (), { s with machine := t.finish.machine })

/-- The arguments with which a daemon is started. -/
def daemonArguments (lockFolder : String) : List String :=
  ["run", "--ready-fd", "3", "--lock-dir", lockFolder]

/-- Starts the program on a lock folder. -/
def launch (lockFolder : String) (s : Session) : Launch × Session :=
  let published := s.publication.elim s (s.publish lockFolder)
  match s.program with
  | .missing => (.failed (.io Fault.notFound.message), s)
  | .ends => (.exited, published)
  | .signals => (.ready, published)
  | .serves =>
    match s.loadedSettings, Arguments.parse (daemonArguments lockFolder) with
    | .ok settings, .ok _ =>
      let pid := s.nextPid + 1
      let socket := s.environment.daemonSocket pid.toNat
      let (r, s) :=
        { s with nextPid := pid }.leave
          ⟨lockFolder, s.environment.stateFolder, socket, pid, settings⟩
      (if r.toBool then .ready else .exited, s)
    | _, _ => (.exited, s)

/-- Nothing happens on the machine while a command waits. -/
def wait (_ : Nat) (s : Session) : Session := s

/-- Lets the daemons end that are shutting down. -/
def settle (s : Session) : Session :=
  (s.daemons.filter (·.core.inShutdown)).foldl
    (fun s r => (s.act r fun t => ((), t.finish)).2) s

def vanishes (address : String) (s : Session) : Bool × Session :=
  let s := s.settle
  (!s.machine.has address, s)

def premises : Premises Session where
  holder := holder
  call := call
  launch := launch
  wait := wait
  vanishes := vanishes
  serve := serve

/-- Carries out a command line in a process of its own. -/
def runLine (usage : String) (s : Session) (arguments : List String) : Output × Session :=
  let s := { s with nextPid := s.nextPid + 1 }
  Execution.executeLine premises ⟨s.environment, s.nextPid, s.loadedSettings⟩ usage arguments s

end Session

end ConfigDaemon.Command
