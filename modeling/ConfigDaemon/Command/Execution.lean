import ConfigDaemon.Activation
import ConfigDaemon.Command.Arguments
import ConfigDaemon.Environment
import ConfigDaemon.Service.Answer
import ConfigDaemon.Settings

/-! # Carrying out commands

A command reads the settings, finds or serves the daemon of a lock folder, and prints what it
comes to. A failure goes to the other output, with its cause below it when the command adds words
of its own.
-/

namespace ConfigDaemon

structure Output where
  exit : Nat
  out : String
  err : String
  deriving DecidableEq, Repr

namespace Output

def done (out : String) : Output := ⟨0, out, ""⟩

def failed (out text : String) : Output := ⟨1, out, "Error: " ++ text ++ "\n"⟩

/-- A text with the text of its cause, whose lines are indented. -/
def withCause (text cause : String) : String :=
  text ++ "\n\nCaused by:\n    " ++ cause.replace "\n" "\n    "

def ofFailure (out : String) (f : Failure) : Output :=
  failed out (f.cause?.elim f.message (withCause f.message))

end Output

/-- A daemon to be served in the foreground. -/
structure Serving where
  lockFolder : String
  stateFolder : String
  socket : String
  pid : UInt32
  settings : Settings
  deriving DecidableEq, Repr

/-- What commands can do besides in a world with state `σ`. -/
structure Premises (σ : Type) extends Surroundings σ where
  /-- Whether a socket is gone within some seconds. -/
  vanishes : String → σ → Bool × σ
  /-- Serves until the daemon ends. -/
  serve : Serving → σ → Except Failure Unit × σ

/-- The process that carries out a command, with the settings that it reads. -/
structure Invoker where
  environment : Environment
  pid : UInt32
  settings : Except Settings.Fault Settings

def Settings.Fault.cause : Settings.Fault → String
  | .unreadable f => f.message
  | .malformed => "TOML parse error"

namespace Execution

variable {σ : Type}

def activation (settings : Settings) (lockFolder : String) (starts : Bool) : Activation :=
  ⟨lockFolder, settings.activationRetries, settings.callTimeout, starts⟩

/-- Asks a daemon what it has to tell about itself. -/
def inquire (w : Premises σ) (settings : Settings) (address : String) (out : String)
    (describe : UInt32 → UInt64 → String → String) (s : σ) : Output × σ :=
  match w.call ⟨address, settings.callTimeout⟩ .ping s with
  | (.ok (.info pid uptime version), s) => (.done (out ++ describe pid uptime version), s)
  | (.ok _, s) => (.done out, s)
  | (.error f, s) => (.ofFailure out f, s)

def start (w : Premises σ) (settings : Settings) (lockFolder : String) (s : σ) : Output × σ :=
  match (activation settings lockFolder true).resolve w.toSurroundings s with
  | (.error f, s) => (.failed "" (Output.withCause "Failed to start daemon" f.message), s)
  | (.ok address, s) =>
    inquire w settings address "" (fun pid uptime version =>
      "Daemon running (v" ++ version ++ ", pid " ++ Text.numeral pid.toNat ++ ", uptime: " ++
        Text.uptime uptime.toNat ++ ")\n  Address: " ++ address ++ "\n") s

def stop (w : Premises σ) (settings : Settings) (lockFolder : String) (s : σ) : Output × σ :=
  match (activation settings lockFolder false).resolve w.toSurroundings s with
  | (.error _, s) => (.done "Daemon is not running\n", s)
  | (.ok address, s) =>
    let out := "Stopping daemon gracefully...\n"
    match w.call ⟨address, settings.callTimeout⟩ .shutdown s with
    | (.error f, s) => (.ofFailure out f, s)
    | (.ok _, s) =>
      match w.vanishes address s with
      | (true, s) => (.done (out ++ "Daemon stopped\n"), s)
      | (false, s) =>
        (.done (out ++ "Daemon may still be stopping (check with \x60confd status\x60)\n"), s)

def status (w : Premises σ) (settings : Settings) (lockFolder : String) (s : σ) : Output × σ :=
  match (activation settings lockFolder false).resolve w.toSurroundings s with
  | (.error f, s) =>
    (.done ("Daemon Status\n  Status: not running\n  Lock:   " ++ lockFolder ++ "\n  Reason: " ++
      f.message ++ "\n"), s)
  | (.ok address, s) =>
    inquire w settings address "" (fun pid uptime version =>
      "Daemon Status\n  Status:  running\n  Version: " ++ version ++ "\n  PID:     " ++
        Text.numeral pid.toNat ++ "\n  Uptime:  " ++ Text.uptime uptime.toNat ++ "\n  Address: " ++
        address ++ "\n") s

def banner (v : Serving) : String :=
  "Running confd in foreground (Ctrl+C to stop)\n  Lock:   " ++ v.lockFolder ++
    "\n  Socket: " ++ v.socket ++ "\n  State:  " ++ Environment.savedState v.stateFolder ++ "\n\n"

/-- The byte by which a daemon tells that it is ready. -/
def readySign : String := "g"

/-- Serves in the foreground. Only a daemon that nobody waits for prints where it is. -/
def run (w : Premises σ) (v : Serving) (readyDescriptor : Option Int) (s : σ) : Output × σ :=
  let out := if readyDescriptor.isNone then banner v else ""
  match w.serve v s with
  | (.error f, s) => (.ofFailure out f, s)
  | (.ok (), s) =>
    (⟨0, if readyDescriptor = some 1 then readySign else out,
      if readyDescriptor = some 2 then readySign else ""⟩, s)

def execute (w : Premises σ) (i : Invoker) (invocation : Invocation) (s : σ) : Output × σ :=
  match i.settings with
  | .error fault =>
    (.failed "" (Output.withCause (fault.message i.environment.settingsFile) fault.cause), s)
  | .ok settings =>
    let lockFolder := invocation.lockFolder.getD i.environment.lockFolder
    match invocation.command with
    | .start => start w settings lockFolder s
    | .stop => stop w settings lockFolder s
    | .status => status w settings lockFolder s
    | .run readyDescriptor stateFolder =>
      run w ⟨lockFolder, stateFolder.getD i.environment.stateFolder,
        i.environment.daemonSocket i.pid.toNat, i.pid, settings⟩ readyDescriptor s

/-- What a refused command line prints, given the text that explains the use of commands. -/
def refuse (usage : String) : Refusal → Output
  | .usage => ⟨2, "", usage⟩
  | .help => .done usage
  | .version => .done ("confd " ++ Service.version ++ "\n")

/-- Carries out the command of a command line. -/
def executeLine (w : Premises σ) (i : Invoker) (usage : String) (arguments : List String)
    (s : σ) : Output × σ :=
  match Arguments.parse arguments with
  | .error r => (refuse usage r, s)
  | .ok invocation => execute w i invocation s

end Execution

end ConfigDaemon
