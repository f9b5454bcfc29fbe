import ConfigDaemon.Bytes
import ConfigDaemon.Wire.Frame

/-! # Exchanges over a socket

A caller connects, writes one frame and reads one frame. What becomes of that is known by what
the other side does.
-/

namespace ConfigDaemon

/-- What the other side does with a connection. -/
inductive Exchange
  /-- Nobody listens at the address. -/
  | absent
  /-- Connecting, writing or reading fails with this text. -/
  | broken (text : String)
  /-- These bytes come back and then the end. -/
  | stream (bytes : Bytes)
  /-- Nothing comes back in time. -/
  | silent
  deriving DecidableEq, Repr

/-- Why an exchange gives no answer. -/
inductive ExchangeFault
  | absent
  | broken (text : String)
  | undecodable
  | timeout
  deriving DecidableEq, Repr

namespace Exchange

/-- The answer that comes back. -/
def receive {α : Type} (decode? : Bytes → Option α) : Exchange → Except ExchangeFault α
  | .absent => .error .absent
  | .broken text => .error (.broken text)
  | .silent => .error .timeout
  | .stream bytes =>
    match Wire.readFrame bytes with
    | .error f => .error (.broken f.message)
    | .ok (payload, _) =>
      match decode? payload with
      | none => .error .undecodable
      | some a => .ok a

/-- The room for the address of a socket, in bytes. -/
def addressRoom : Nat := 108

/-- Why an address cannot even be tried. An address that starts with a zero byte is a name outside
the file system, which fills the room to its last byte; any other one is a path that needs a zero
byte behind it. -/
def addressFault? : Bytes → Option String
  | 0 :: name =>
    if addressRoom < name.length + 1 then some "abstract socket name must be shorter than SUN_LEN"
    else none
  | path =>
    if path.contains 0 then some "paths must not contain interior null bytes"
    else if addressRoom ≤ path.length then some "path must be shorter than SUN_LEN"
    else none

end Exchange

end ConfigDaemon
