import ConfigDaemon.Key
import ConfigDaemon.Lock.Holder

/-! # Failures

Why an operation of the daemon, of its lock or of a caller does not succeed, with the text shown
for it and the coarser kind that travels between processes.
-/

namespace ConfigDaemon

inductive Failure
  | lockFailed (path reason : String) (cause : Option String)
  | lockHeld (path : String) (holder : Holder)
  | lockNotHeld (path : String)
  | noServer (reason : String)
  | inShutdown
  | badKey (key reason : String)
  | protocol (reason : String)
  | failed (text : String)
  | io (text : String)
  deriving DecidableEq, Repr

namespace Failure

def message : Failure → String
  | .lockFailed path reason _ => "lock failed on '" ++ path ++ "': " ++ reason
  | .lockHeld path holder =>
    "lock '" ++ path ++ "' is held by another process (" ++ holder.describe ++ ")"
  | .lockNotHeld path => "we didn't have the lock on '" ++ path ++ "', but we should have"
  | .noServer reason => "no configuration server: " ++ reason
  | .inShutdown => "configuration server is shutting down"
  | .badKey key reason => "bad key '" ++ key ++ "': " ++ reason
  | .protocol reason => "protocol error: " ++ reason
  | .failed text => text
  | .io text => text

/-- The text of what lies behind a failure, where it is kept apart from the failure's own text. -/
def cause? : Failure → Option String
  | .lockFailed _ _ cause => cause
  | _ => none

/-- What a caller in another process learns about the cause. -/
inductive Kind
  | lockFailed
  | noServer
  | failed
  | inShutdown
  | badKey
  deriving DecidableEq, Repr

def kind : Failure → Kind
  | .lockFailed .. | .lockHeld .. | .lockNotHeld .. => .lockFailed
  | .noServer _ => .noServer
  | .inShutdown => .inShutdown
  | .badKey .. => .badKey
  | .protocol _ | .failed _ | .io _ => .failed

/-- The failure that a caller makes of an answer with this kind and text. -/
def ofWire (kind : Kind) (message : String) : Failure :=
  match kind with
  | .inShutdown => .inShutdown
  | .noServer => .noServer message
  | .badKey => .badKey "" message
  | .lockFailed | .failed => .failed message

def ofKeyFault (key : String) (fault : Key.Fault) : Failure :=
  .badKey key fault.reason

def isInShutdown (f : Failure) : Bool :=
  f = .inShutdown

end Failure

end ConfigDaemon
