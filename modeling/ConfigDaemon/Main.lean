import ConfigDaemon.Command.Session

/-! # The program

One command line is carried out among the files and variables of this process. Nothing listens on
sockets here, so no daemon answers and none can be served.
-/

open ConfigDaemon

namespace ConfigDaemon.Command

def usageText : String :=
  "Per-user configuration daemon\n\nUsage: confd [OPTIONS] <COMMAND>\n\nCommands:\n" ++
  "  run     Run the daemon in the foreground\n" ++
  "  start   Find the daemon, starting it if nobody is serving\n" ++
  "  stop    Ask the running daemon to shut down\n" ++
  "  status  Show whether a daemon is serving and what it reports\n" ++
  "  help    Print this message or the help of the given subcommand(s)\n\nOptions:\n" ++
  "      --lock-dir <LOCK_DIR>  Lock directory of the configuration root\n" ++
  "  -h, --help                 Print help\n" ++
  "  -V, --version              Print version\n"

/-- The variables that say where files are. -/
def placeVariables : List String :=
  ["CONFD_CONFIG_DIR", "CONFD_STATE_DIR", "CONFD_RUNTIME_DIR", "CONFD_DAEMON_EXE", "HOME",
    "XDG_CONFIG_HOME", "XDG_RUNTIME_DIR", "XDG_DATA_HOME"]

def readEnvironment : IO Environment := do
  let values ← placeVariables.filterMapM fun name => do
    return (← IO.getEnv name).map ((name, ·))
  return ⟨fun name => values.lookup name, (← IO.appPath).toString⟩

/-- The contents of a file, if there is one that can be read. -/
def readContents (path : String) : IO (Option Bytes) := do
  try
    return some (← IO.FS.readBinFile path).data.toList
  catch _ =>
    return none

def withoutSockets : Premises Session :=
  { Session.premises with
    serve := fun v s => (.error (.failed ("Failed to bind " ++ v.socket)), s) }

end ConfigDaemon.Command

open ConfigDaemon.Command in
def main (arguments : List String) : IO UInt32 := do
  let environment ← readEnvironment
  let folder := (← IO.currentDir).toString
  let settings ← readContents environment.settingsFile
  let chosen := (Arguments.parse arguments).toOption.bind (·.lockFolder)
  let lockFolder := chosen.getD environment.lockFolder
  let record ← readContents (Path.join lockFolder Lock.addressFile)
  let machine := settings.elim (Machine.start folder .empty)
    ((Machine.start folder .empty).withFile environment.settingsFile)
  let session : Session :=
    { machine, environment, peer := none, program := .missing, publication := none, daemons := [],
      nextPid := 0, order := [] }
  let session := record.elim session (session.publish lockFolder)
  let invoker : Invoker := ⟨environment, session.nextPid, session.loadedSettings⟩
  let (output, _) := Execution.executeLine withoutSockets invoker usageText arguments session
  IO.print output.out
  IO.eprint output.err
  return UInt32.ofNat output.exit
