import ConfigDaemon.Wire.Message

/-! # Clients

A client is known by the address on which it takes callbacks, for the daemon that of a socket. How
the clients behave is given by their answers to the three callbacks.
-/

namespace ConfigDaemon

/-- Why a callback fails. -/
inductive CallFault
  | noObject (address : String)
  | io (address text : String)
  | timeout (address : String)
  | protocol (reason : String)
  | rejected (text : String)
  deriving DecidableEq, Repr

def CallFault.message : CallFault → String
  | .noObject address => "no object at '" ++ address ++ "'"
  | .io address text => "I/O error talking to '" ++ address ++ "': " ++ text
  | .timeout address => "call to '" ++ address ++ "' timed out"
  | .protocol reason => "protocol error: " ++ reason
  | .rejected text => "client refused the call: " ++ text

/-- Makes out the client that an address stands for, without calling it. -/
class Transport where
  resolve : String → Except CallFault String

namespace Client

/-- The address of a socket is an absolute path. -/
def isAddress (address : String) : Bool :=
  address.toList.head? = some '/'

def resolve (address : String) : Except CallFault String :=
  if isAddress address then .ok address
  else .error (.protocol ("'" ++ address ++ "' is not a socket path"))

instance sockets : Transport := ⟨resolve⟩

end Client

/-- What becomes of a notification: the client takes it, it is lost, or the call never ends. -/
inductive Delivery
  | taken
  | lost
  | never
  deriving DecidableEq, Repr

/-- How the clients answer callbacks. -/
structure Peers where
  ping : String → Bool
  rekey : String → Rekeying → Bool
  notify : String → Notification → Delivery

end ConfigDaemon
