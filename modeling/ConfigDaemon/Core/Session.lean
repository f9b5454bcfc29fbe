import ConfigDaemon.Core.Delivery
import ConfigDaemon.Core.Replay
import ConfigDaemon.Housekeeping
import ConfigDaemon.Volume

/-! # Histories of the daemon

A session runs a daemon among clients of which some are alive, some hung and some refuse to be
told about new identifiers. After each step every notification that can be delivered is.
-/

namespace ConfigDaemon.Core

/-- How the clients behave for the time being. -/
structure Behaviour where
  alive : List String
  hung : List String
  refusing : List String
  deriving DecidableEq, Repr

namespace Behaviour

def silent : Behaviour := ⟨[], [], []⟩

def peers (b : Behaviour) : Peers where
  ping client := client ∈ b.alive
  rekey client _ := client ∈ b.alive ∧ client ∉ b.refusing
  notify client _ :=
    if client ∉ b.alive then .lost else if client ∈ b.hung then .never else .taken

end Behaviour

/-- An operation that callers, the housekeeping or a start of the daemon may ask for. -/
inductive Operation
  | ping
  | shutdown
  | check
  | obtain (address : Option String)
  | addClient (client : String)
  | removeClient (client : String)
  | subscribe (address : Option String) (location client : String)
  | unsubscribe (address : Option String) (id : UInt32)
  | set (address : Option String) (key value : String)
  | unset (address : Option String) (key : String)
  | lookup (address : Option String) (key : String)
  /-- The named databases are visited in the order that is given, here and in a sweep. -/
  | compact (order : List String)
  | compactIfNeeded (order : List String)
  | restore
  | sweep (order : List String)
  /-- The log was last used `elapsed` seconds ago. -/
  | closeIdleLog (elapsed : Nat)
  /-- The first tick of a housekeeper, `elapsed` milliseconds after its start. -/
  | housekeep (upkeep : Upkeep) (elapsed unused : Nat) (order : List String)
  deriving DecidableEq, Repr

/-- What an operation gives when it succeeds. -/
inductive Value
  | nothing
  | flag (b : Bool)
  | text (t : Option String)
  | id (n : UInt32)
  | count (n : Nat)
  | report (r : Report)
  | verdict (v : Verdict)
  deriving DecidableEq, Repr

/-- Runs an operation; besides its result there are the notices that it sent. -/
def perform (peers : Peers) (c : Core) :
    Operation → (Except Failure Value × List Notice) × Core
  | .ping => ((c.check.map fun _ => .nothing, []), c)
  | .shutdown => ((.ok .nothing, []), c.beginShutdown)
  | .check => ((c.check.map fun _ => .nothing, []), c)
  | .obtain address =>
    let (r, c) := c.obtainDatabase address
    ((r.map .text, []), c)
  | .addClient client =>
    let (r, c) := c.addClient client
    ((r.map fun _ => .nothing, []), c)
  | .removeClient client =>
    let (r, c) := c.removeClient client
    ((r.map fun _ => .nothing, []), c)
  | .subscribe address location client =>
    let (r, c) := c.subscribe address location client
    ((r.map .id, []), c)
  | .unsubscribe address id =>
    let (r, c) := c.unsubscribe address id
    ((r.map fun _ => .nothing, []), c)
  | .set address key value =>
    let (r, c) := c.set address key value
    ((r.map fun _ => .nothing, []), c)
  | .unset address key =>
    let (r, c) := c.unset address key
    ((r.map fun _ => .nothing, []), c)
  | .lookup address key => (((c.lookup address key).map .text, []), c)
  | .compact order =>
    let (r, c) := c.compact order
    ((r.map fun _ => .nothing, []), c)
  | .compactIfNeeded order =>
    let (r, c) := c.compactIfNeeded order
    ((r.map .flag, []), c)
  | .restore =>
    match c.restore peers with
    | (.error f, c) => ((.error f, []), c)
    | (.ok (report, notices), c) => ((.ok (.report report), notices), c)
  | .sweep order =>
    let (n, c) := c.sweep order peers.ping
    ((.ok (.count n), []), c)
  | .closeIdleLog elapsed =>
    let (b, c) := c.closeIdleLog elapsed
    ((.ok (.flag b), []), c)
  | .housekeep upkeep elapsed unused order =>
    let (v, _, c) :=
      (Housekeeper.start upkeep 0).tick (.alone elapsed unused order peers.ping c)
    ((.ok (.verdict v), []), c)

/-- A daemon among its clients. -/
structure Session where
  core : Core
  behaviour : Behaviour
  /-- What lies around the folder of the log. -/
  outer : Volume
  deriving DecidableEq

inductive Step
  | alive (clients : List String)
  | kill (clients : List String)
  | hang (clients : List String)
  | unhang (clients : List String)
  | refuse (clients : List String)
  | accept (clients : List String)
  | restart
  | change (c : Volume.Change)
  | operation (op : Operation)
  deriving DecidableEq, Repr

/-- What a step shows: the result of an operation, the notices that clients accepted and the
notifications that they took. -/
structure Outcome where
  result : Option (Except Failure Value)
  notices : List Notice
  taken : List (String × List Notification)

namespace Session

/-- A daemon with its log on a volume. -/
def start (place : Log.Place) (idleLimit : Nat) (outer : Volume) : Session :=
  ⟨.start place idleLimit (outer.folder place.folder), .silent, outer⟩

/-- Another program changes the folder of the log. -/
def change (s : Session) (c : Volume.Change) : Session :=
  let folder := s.core.log.place.folder
  let outer := (s.outer.withFolder folder s.core.disk).change folder c
  { s with outer, core.disk := outer.folder folder }

/-- A new daemon on the same disk. -/
def restarted (c : Core) : Core :=
  .start c.log.place c.idleLimit c.disk

/-- A step without its deliveries. -/
def act (s : Session) : Step → (Option (Except Failure Value) × List Notice) × Session
  | .alive cs => ((none, []), { s with behaviour.alive := s.behaviour.alive ++ cs })
  | .kill cs =>
    ((none, []), { s with behaviour.alive := s.behaviour.alive.filter (· ∉ cs) })
  | .hang cs => ((none, []), { s with behaviour.hung := s.behaviour.hung ++ cs })
  | .unhang cs => ((none, []), { s with behaviour.hung := s.behaviour.hung.filter (· ∉ cs) })
  | .refuse cs => ((none, []), { s with behaviour.refusing := s.behaviour.refusing ++ cs })
  | .accept cs =>
    ((none, []), { s with behaviour.refusing := s.behaviour.refusing.filter (· ∉ cs) })
  | .restart => ((none, []), { s with core := restarted s.core })
  | .change c => ((none, []), s.change c)
  | .operation op =>
    let ((r, notices), core) := s.core.perform s.behaviour.peers op
    ((some r, notices), { s with core })

def step (s : Session) (x : Step) : Outcome × Session :=
  let ((result, notices), s) := s.act x
  let peers := s.behaviour.peers
  (⟨result, notices.filter (·.accepted),
      (s.core.deliveries peers).filter fun (_, ns) => !ns.isEmpty⟩,
    { s with core := s.core.deliver peers })

def run (s : Session) (steps : List Step) : Session :=
  steps.foldl (fun s x => (s.step x).2) s

end Session

end ConfigDaemon.Core
