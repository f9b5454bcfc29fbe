import ConfigDaemon.Failure

/-! # Messages

A caller sends the daemon a request and gets a response; the daemon calls a subscriber back with
a callback and gets a reply. No database address means the default database.
-/

namespace ConfigDaemon

inductive Request
  | ping
  | shutdown
  | getDefaultDatabase
  | getDatabase (address : String)
  | addClient (client : String)
  | removeClient (client : String)
  | subscribe (database : Option String) (location client : String)
  | unsubscribe (database : Option String) (id : UInt32)
  | set (database : Option String) (key value : String)
  | unset (database : Option String) (key : String)
  | lookup (database : Option String) (key : String)
  deriving DecidableEq, Repr

inductive Response
  | pong (pid : UInt32) (uptime : UInt64) (version : String)
  | ok
  | database (address : Option String)
  | subscribed (id : UInt32)
  | value (value : Option String)
  | error (kind : Failure.Kind) (message : String)
  deriving DecidableEq, Repr

/-- A change of a value below a subscribed location; no value means that the key was unset. -/
structure Notification where
  database : Option String
  id : UInt32
  key : String
  value : Option String
  deriving DecidableEq, Repr

/-- A subscription goes on under a new identifier. -/
structure Rekeying where
  database : Option String
  oldId : UInt32
  location : String
  newId : UInt32
  deriving DecidableEq, Repr

inductive Callback
  | ping
  | notify (notification : Notification)
  | rekey (rekeying : Rekeying)
  deriving DecidableEq, Repr

inductive Reply
  | pong
  | ok
  | error (message : String)
  deriving DecidableEq, Repr

end ConfigDaemon
