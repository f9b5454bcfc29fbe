import ConfigDaemon.Core.Operation
import ConfigDaemon.Wire.Codec
import ConfigDaemon.Wire.Frame

/-! # Answers to requests

The daemon takes one request from a connection, carries it out and sends one response. A failed
operation is answered by its kind and text. A connection that holds no request gets no answer.
-/

namespace ConfigDaemon.Service

/-- What a daemon tells about itself. -/
structure Identity where
  pid : UInt32
  uptime : UInt64
  version : String
  deriving DecidableEq, Repr

def version : String := "0.3.0"

def failureResponse (f : Failure) : Response :=
  .error f.kind f.message

/-- The response for the result of an operation. -/
def respond {α : Type} (f : α → Response) : Except Failure α → Response
  | .ok a => f a
  | .error e => failureResponse e

def done (_ : Unit) : Response := .ok

/-- Carries out a request. -/
def handle (self : Identity) (c : Core) : Request → Response × Core
  | .ping => (respond (fun _ => .pong self.pid self.uptime self.version) c.check, c)
  | .shutdown =>
    match c.check with
    | .error f => (failureResponse f, c)
    | .ok () => (.ok, c.beginShutdown)
  | .getDefaultDatabase =>
    let (r, c) := c.obtainDatabase none
    (respond .database r, c)
  | .getDatabase address =>
    let (r, c) := c.obtainDatabase (some address)
    (respond .database r, c)
  | .addClient client =>
    let (r, c) := c.addClient client
    (respond done r, c)
  | .removeClient client =>
    let (r, c) := c.removeClient client
    (respond done r, c)
  | .subscribe database location client =>
    let (r, c) := c.subscribe database location client
    (respond .subscribed r, c)
  | .unsubscribe database id =>
    let (r, c) := c.unsubscribe database id
    (respond done r, c)
  | .set database key value =>
    let (r, c) := c.set database key value
    (respond done r, c)
  | .unset database key =>
    let (r, c) := c.unset database key
    (respond done r, c)
  | .lookup database key => (respond .value (c.lookup database key), c)

/-- What comes back for the bytes of a connection; nothing if they hold no request. -/
def answer (self : Identity) (c : Core) (bytes : Bytes) : Option Bytes × Core :=
  match Wire.readFrame bytes with
  | .error _ => (none, c)
  | .ok (payload, _) =>
    match Request.decode? payload with
    | none => (none, c)
    | some r =>
      let (response, c) := handle self c r
      (some (Wire.frame response.encode), c)

end ConfigDaemon.Service
