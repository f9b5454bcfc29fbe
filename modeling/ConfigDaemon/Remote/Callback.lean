import ConfigDaemon.Client
import ConfigDaemon.Remote.Exchange
import ConfigDaemon.Wire.Codec
import ConfigDaemon.Wire.Describe

/-! # Callbacks to clients

The daemon pings a client, notifies it of a change, or tells it about a new identifier.
-/

namespace ConfigDaemon.Callback

/-- Whether a reply is the one that a callback asks for. -/
def accept (c : Callback) (r : Reply) : Except CallFault Unit :=
  match c, r with
  | _, .error message => .error (.rejected message)
  | .ping, .pong => .ok ()
  | .ping, r => .error (.protocol ("unexpected response to ping: " ++ r.describe))
  | _, .ok => .ok ()
  | _, r => .error (.protocol ("unexpected response: " ++ r.describe))

/-- What the daemon makes of an exchange without a reply. -/
def exchangeFault (address : String) : ExchangeFault → CallFault
  | .absent => .noObject address
  | .broken text => .io address text
  | .undecodable => .protocol "undecodable"
  | .timeout => .timeout address

/-- The result of a callback, given what the client does with the connection. -/
def result (address : String) (c : Callback) (x : Exchange) : Except CallFault Unit :=
  match x.receive Reply.decode? with
  | .error f => .error (exchangeFault address f)
  | .ok r => c.accept r

end ConfigDaemon.Callback
