import ConfigDaemon.Remote.Exchange
import ConfigDaemon.Text.Duration
import ConfigDaemon.Wire.Codec
import ConfigDaemon.Wire.Describe

/-! # Calls to the daemon

Each call has a request, and takes the response of one kind as its result; an error response
becomes the failure it stands for.
-/

namespace ConfigDaemon

/-- Where a daemon answers and how long, in milliseconds, a caller waits for it. -/
structure Target where
  address : String
  timeout : Nat
  deriving DecidableEq, Repr

inductive Call
  | ping
  | shutdown
  | openDefault
  | openNamed (address : String)
  | addClient (client : String)
  | removeClient (client : String)
  | subscribe (database : Option String) (location client : String)
  | unsubscribe (database : Option String) (id : UInt32)
  | set (database : Option String) (key value : String)
  | unset (database : Option String) (key : String)
  | lookup (database : Option String) (key : String)
  deriving DecidableEq, Repr

namespace Call

/-- What a call gives when it succeeds. -/
inductive Result
  | info (pid : UInt32) (uptime : UInt64) (version : String)
  | nothing
  | address (a : Option String)
  | id (n : UInt32)
  | value (v : Option String)
  deriving DecidableEq, Repr

def request : Call → Request
  | .ping => .ping
  | .shutdown => .shutdown
  | .openDefault => .getDefaultDatabase
  | .openNamed address => .getDatabase address
  | .addClient client => .addClient client
  | .removeClient client => .removeClient client
  | .subscribe database location client => .subscribe database location client
  | .unsubscribe database id => .unsubscribe database id
  | .set database key value => .set database key value
  | .unset database key => .unset database key
  | .lookup database key => .lookup database key

/-- The call that opens a database. -/
def openDatabase : Option String → Call
  | none => .openDefault
  | some address => .openNamed address

def unexpected (r : Response) : Failure :=
  .protocol ("unexpected response: " ++ r.describe)

/-- The result that a response means for a call. -/
def accept (c : Call) (r : Response) : Except Failure Result :=
  match c, r with
  | _, .error kind message => .error (.ofWire kind message)
  | .ping, .pong pid uptime version => .ok (.info pid uptime version)
  | .openDefault, .database address => .ok (.address address)
  | .openNamed _, .database address => .ok (.address address)
  | .subscribe .., .subscribed id => .ok (.id id)
  | .lookup .., .value v => .ok (.value v)
  | .shutdown, .ok | .addClient _, .ok | .removeClient _, .ok => .ok .nothing
  | .unsubscribe .., .ok | .set .., .ok | .unset .., .ok => .ok .nothing
  | _, r => .error (unexpected r)

/-- What a caller makes of an exchange without an answer. -/
def exchangeFailure (t : Target) : ExchangeFault → Failure
  | .absent => .noServer ("nothing listening at " ++ t.address)
  | .broken text => .io text
  | .undecodable => .protocol "failed to decode response"
  | .timeout =>
    .failed ("daemon at " ++ t.address ++ " did not answer within " ++ Text.duration t.timeout)

/-- The result of a call, given what the daemon does with the connection. -/
def result (t : Target) (c : Call) (x : Exchange) : Except Failure Result :=
  match x.receive Response.decode? with
  | .error f => .error (exchangeFailure t f)
  | .ok r => c.accept r

/-- The result of a call on a database that is opened first, or the failure of opening it. Calls
go through `ask`. -/
def onDatabase {σ : Type} (ask : σ → Call → Except Failure Result × σ) (s : σ)
    (database : Option String) (c : Option String → Call) :
    Except Failure (Except Failure Result) × σ :=
  match ask s (openDatabase database) with
  | (.error f, s) => (.error f, s)
  | (.ok (.address a), s) =>
    let (r, s) := ask s (c a)
    (.ok r, s)
  | (.ok r, s) => (.ok (.ok r), s)

end Call

end ConfigDaemon
