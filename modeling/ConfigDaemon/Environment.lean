import ConfigDaemon.Path
import ConfigDaemon.Text.Decimal

/-! # The environment

Where the daemon and its callers keep their files. Each place has a variable of its own, which
counts unless it is empty; otherwise the place lies in a folder of the user.
-/

namespace ConfigDaemon

/-- The variables of a process and the path of its own program. -/
structure Environment where
  value : String → Option String
  program : String

namespace Environment

/-- The value of a variable, when it is not empty. -/
def chosen (e : Environment) (name : String) : Option String :=
  (e.value name).filter (!·.isEmpty)

/-- The value of a variable, when it is an absolute path. -/
def absolute (e : Environment) (name : String) : Option String :=
  (e.value name).filter Path.isAbsolute

def home (e : Environment) : Option String :=
  e.chosen "HOME"

/-- A folder of the user, by a variable or below the home folder. -/
def userFolder (e : Environment) (name place : String) : String :=
  (e.absolute name <|> e.home.map (Path.join · place)).getD (Path.join "~" place)

def subfolder : String := "confd"

/-- The root of the configuration. -/
def configFolder (e : Environment) : String :=
  (e.chosen "CONFD_CONFIG_DIR").getD
    (Path.join (e.userFolder "XDG_CONFIG_HOME" ".config") subfolder)

def settingsFile (e : Environment) : String :=
  Path.join e.configFolder "confd.toml"

def lockFolder (e : Environment) : String :=
  Path.join e.configFolder ".lock"

def stateFolder (e : Environment) : String :=
  (e.chosen "CONFD_STATE_DIR").getD (Path.join (e.home.getD "~") ".daemon-dbus")

/-- The log of a state folder. -/
def savedState (stateFolder : String) : String :=
  Path.join stateFolder "saved_state"

/-- The folder of the sockets. -/
def runtimeFolder (e : Environment) : String :=
  (e.chosen "CONFD_RUNTIME_DIR" <|> (e.absolute "XDG_RUNTIME_DIR").map (Path.join · subfolder)).getD
    (Path.join (Path.join (e.userFolder "XDG_DATA_HOME" ".local/share") subfolder) "run")

/-- The socket of the daemon with a process number. -/
def daemonSocket (e : Environment) (pid : Nat) : String :=
  Path.join e.runtimeFolder ("daemon-" ++ Text.numeral pid ++ ".sock")

/-- The socket of an endpoint of a client process, by the number of the endpoint. -/
def clientSocket (e : Environment) (pid sequence : Nat) : String :=
  Path.join e.runtimeFolder
    ("client-" ++ Text.numeral pid ++ "-" ++ Text.numeral sequence ++ ".sock")

/-- The program that is started as a daemon. -/
def daemonProgram (e : Environment) : String :=
  (e.chosen "CONFD_DAEMON_EXE").getD e.program

end Environment

end ConfigDaemon
