import ConfigDaemon.Text.Decimal
import ConfigDaemon.Text.Literal
import ConfigDaemon.Wire.Message

/-! # Messages in diagnostics

The text that shows an answer nobody expected.
-/

namespace ConfigDaemon

open Text

/-- A name with its fields between braces. -/
def fieldsText (name : String) (fields : List (String × String)) : String :=
  name ++ " \x7b " ++ ", ".intercalate (fields.map fun (n, v) => n ++ ": " ++ v) ++ " \x7d"

def Failure.Kind.describe : Failure.Kind → String
  | .lockFailed => "LockFailed"
  | .noServer => "NoServer"
  | .failed => "Failed"
  | .inShutdown => "InShutdown"
  | .badKey => "BadKey"

def Response.describe : Response → String
  | .pong pid uptime version =>
    fieldsText "Pong"
      [("pid", numeral pid.toNat), ("uptime_secs", numeral uptime.toNat),
        ("version", literal version)]
  | .ok => "Ok"
  | .database address => fieldsText "Database" [("address", optionalLiteral address)]
  | .subscribed id => fieldsText "Subscribed" [("connection_id", numeral id.toNat)]
  | .value v => fieldsText "Value" [("value", optionalLiteral v)]
  | .error kind message =>
    fieldsText "Error" [("kind", kind.describe), ("message", literal message)]

def Reply.describe : Reply → String
  | .pong => "Pong"
  | .ok => "Ok"
  | .error message => fieldsText "Error" [("message", literal message)]

end ConfigDaemon
