import ConfigDaemon.Disk
import ConfigDaemon.Housekeeping
import ConfigDaemon.Toml.Document

/-! # Settings

The settings of the daemon and of its callers are numbers in the outermost table of a document.
What a document does not mention keeps its default, and what is no setting is passed over.
-/

namespace ConfigDaemon

/-- Times are in seconds, but for the one that says so. -/
structure Settings where
  appendIdle : Nat
  sweepInterval : Nat
  compactInterval : Nat
  idleExit : Option Nat
  /-- How long to wait for an answer, in milliseconds. -/
  callTimeout : Nat
  activationRetries : Nat
  deriving DecidableEq, Repr

namespace Settings

def standard : Settings where
  appendIdle := 30
  sweepInterval := 60
  compactInterval := 60 * 60
  idleExit := none
  callTimeout := 2000
  activationRetries := 1

instance : Inhabited Settings := ⟨standard⟩

/-- Why settings cannot be had. -/
inductive Fault
  | unreadable (cause : ConfigDaemon.Fault)
  | malformed
  deriving DecidableEq, Repr

def Fault.message (path : String) : Fault → String
  | .unreadable _ => "Failed to read config from " ++ path
  | .malformed => "Failed to parse config from " ++ path

/-- A setting below `bound`, if the document gives it. -/
def number? (rows : Toml.Rows) (key : String) (bound : Nat) : Option (Option Nat) :=
  match rows.lookup key with
  | none => some none
  | some (.scalar (.integer n)) => if 0 ≤ n ∧ n < bound then some (some n.toNat) else none
  | some _ => none

/-- The settings of a document, when it gives none of them a wrong value. -/
def ofRows? (rows : Toml.Rows) : Option Settings := do
  let appendIdle ← number? rows "append_idle_secs" UInt64.size
  let sweepInterval ← number? rows "sweep_interval_secs" UInt64.size
  let compactInterval ← number? rows "compact_interval_secs" UInt64.size
  let idleExit ← number? rows "idle_exit_secs" UInt64.size
  let callTimeout ← number? rows "call_timeout_ms" UInt64.size
  let activationRetries ← number? rows "activation_retries" UInt32.size
  return {
    appendIdle := appendIdle.getD standard.appendIdle
    sweepInterval := sweepInterval.getD standard.sweepInterval
    compactInterval := compactInterval.getD standard.compactInterval
    idleExit := idleExit <|> standard.idleExit
    callTimeout := callTimeout.getD standard.callTimeout
    activationRetries := activationRetries.getD standard.activationRetries }

/-- The settings of a file's contents. -/
def ofBytes (bytes : Bytes) : Except Fault Settings :=
  match Disk.textOf bytes with
  | .error f => .error (.unreadable f)
  | .ok s =>
    match (Toml.parse? s).bind ofRows? with
    | none => .error .malformed
    | some settings => .ok settings

/-- The settings of what reading their file gives, the standard ones when nothing is there. -/
def load : Except ConfigDaemon.Fault Bytes → Except Fault Settings
  | .ok bytes => ofBytes bytes
  | .error .isFolder => .error (.unreadable .isFolder)
  | .error _ => .ok standard

def upkeep (s : Settings) : Upkeep where
  sweepInterval := 1000 * s.sweepInterval
  compactInterval := 1000 * s.compactInterval
  idleExit := s.idleExit.map (1000 * ·)

end Settings

end ConfigDaemon
