import ConfigDaemon.Remote.Call
import ConfigDaemon.Remote.Callback

/-! # Endpoints of subscribers

An endpoint takes callbacks. When the daemon gives a subscription a new identifier, the endpoint
goes on reporting it under the one that its owner knows.
-/

namespace ConfigDaemon

/-- The owner knows the connection `current` as `stable`. -/
structure Alias where
  database : Option String
  current : UInt32
  stable : UInt32
  deriving DecidableEq, Repr

/-- What an endpoint reports to its owner. -/
inductive Event
  | notify (n : Notification)
  | rekeyed (database : Option String) (id : UInt32) (location : String) (newId : UInt32)
  deriving DecidableEq, Repr

structure Endpoint where
  address : String
  aliases : List Alias
  deriving DecidableEq, Repr

namespace Endpoint

def start (address : String) : Endpoint := ⟨address, []⟩

/-- The owner's identifier for a connection. -/
def stableId (e : Endpoint) (database : Option String) (current : UInt32) : UInt32 :=
  ((e.aliases.find? fun a => a.database = database ∧ a.current = current).map (·.stable)).getD
    current

/-- The connection that the daemon now uses for an identifier of the owner. -/
def currentId (e : Endpoint) (database : Option String) (stable : UInt32) : UInt32 :=
  ((e.aliases.find? fun a => a.database = database ∧ a.stable = stable).map (·.current)).getD
    stable

/-- Forgets every alias from or to an identifier. -/
def forget (e : Endpoint) (database : Option String) (id : UInt32) : Endpoint :=
  { e with aliases := e.aliases.filter fun a =>
      a.database ≠ database ∨ (a.current ≠ id ∧ a.stable ≠ id) }

/-- Takes note that a subscription goes on under a new identifier. -/
def rekey (e : Endpoint) (k : Rekeying) : Endpoint :=
  let stable := e.stableId k.database k.oldId
  let others := e.aliases.filter fun a =>
    a.database ≠ k.database ∨ (a.current ≠ k.oldId ∧ a.current ≠ k.newId)
  { e with aliases := others ++ [⟨k.database, k.newId, stable⟩] }

/-- The reply to a callback, with what is reported and the endpoint after it. -/
def handle (e : Endpoint) : Callback → (Reply × Option Event) × Endpoint
  | .ping => ((.pong, none), e)
  | .notify n => ((.ok, some (.notify { n with id := e.stableId n.database n.id })), e)
  | .rekey k =>
    ((.ok, some (.rekeyed k.database (e.stableId k.database k.oldId) k.location k.newId)),
      e.rekey k)

/-- What comes back for the bytes of a connection; nothing if they hold no callback. -/
def answer (e : Endpoint) (bytes : Bytes) : (Option Bytes × Option Event) × Endpoint :=
  match Wire.readFrame bytes with
  | .error _ => ((none, none), e)
  | .ok (payload, _) =>
    match Callback.decode? payload with
    | none => ((none, none), e)
    | some c =>
      let ((reply, event), e) := e.handle c
      ((some (Wire.frame reply.encode), event), e)

def subscribeCall (e : Endpoint) (database : Option String) (location : String) : Call :=
  .subscribe database location e.address

/-- A new identifier means itself, whatever it meant before. -/
def subscribed (e : Endpoint) (database : Option String) :
    Except Failure Call.Result → Endpoint
  | .ok (.id id) => e.forget database id
  | _ => e

def unsubscribeCall (e : Endpoint) (database : Option String) (id : UInt32) : Call :=
  .unsubscribe database (e.currentId database id)

def unsubscribed (e : Endpoint) (database : Option String) (id : UInt32) :
    Except Failure Call.Result → Endpoint
  | .ok _ => e.forget database id
  | .error _ => e

end Endpoint

/-- An endpoint with the events that its owner has not taken. -/
structure Subscriber where
  endpoint : Endpoint
  events : List Event
  deriving DecidableEq, Repr

namespace Subscriber

def start (address : String) : Subscriber := ⟨.start address, []⟩

def handle (s : Subscriber) (c : Callback) : Reply × Subscriber :=
  let ((reply, event), endpoint) := s.endpoint.handle c
  (reply, ⟨endpoint, s.events ++ event.toList⟩)

def answer (s : Subscriber) (bytes : Bytes) : Option Bytes × Subscriber :=
  let ((bytes, event), endpoint) := s.endpoint.answer bytes
  (bytes, ⟨endpoint, s.events ++ event.toList⟩)

/-- Takes the first events. -/
def receive (s : Subscriber) (count : Nat) : List Event × Subscriber :=
  (s.events.take count, { s with events := s.events.drop count })

end Subscriber

end ConfigDaemon
