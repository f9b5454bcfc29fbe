import ConfigDaemon.Text.Decimal

/-! # Arguments

A command line names a command, with options before it and after it. An option is given at most
once on a side; the lock folder may be given on both, and then the value after the command counts.
Arguments are taken from left to right, and the first that is wrong or asks for a text decides. A
value is looked at when the next option comes, or at the end of its side.
-/

namespace ConfigDaemon

inductive Command
  /-- Serve in the foreground; a byte is written to the descriptor once the daemon is ready. -/
  | run (readyDescriptor : Option Int) (stateFolder : Option String)
  | start
  | stop
  | status
  deriving DecidableEq, Repr

structure Invocation where
  lockFolder : Option String
  command : Command
  deriving DecidableEq, Repr

/-- Why a command line leads to no command. -/
inductive Refusal
  | usage
  | help
  | version
  deriving DecidableEq, Repr

namespace Arguments

inductive Name
  | run
  | start
  | stop
  | status
  deriving DecidableEq, Repr

def Name.ofString? : String → Option Name
  | "run" => some .run
  | "start" => some .start
  | "stop" => some .stop
  | "status" => some .status
  | _ => none

/-- An option with a value. -/
inductive Flag
  | lockFolder
  | readyDescriptor
  | stateFolder
  deriving DecidableEq, Repr

def Flag.name : Flag → List Char
  | .lockFolder => "lock-dir".toList
  | .readyDescriptor => "ready-fd".toList
  | .stateFolder => "state-dir".toList

/-- The options that may come after a command. -/
def Name.flags : Name → List Flag
  | .run => [.lockFolder, .readyDescriptor, .stateFolder]
  | .start | .stop | .status => [.lockFolder]

def magnitude? (digits : List Char) : Option Nat :=
  Text.readBelow 0x80000001 digits

/-- A number with an optional sign that fits in a word of 32 bits. -/
def descriptor? (v : String) : Option Int :=
  match v.toList with
  | '-' :: digits => (magnitude? digits).map fun n => -(n : Int)
  | '+' :: digits | digits => ((magnitude? digits).filter (· < 0x80000000)).map fun n => (n : Int)

def Flag.accepts (flag : Flag) (v : String) : Bool :=
  match flag with
  | .lockFolder | .stateFolder => !v.isEmpty
  | .readyDescriptor => (descriptor? v).isSome

/-- The options on one side of the command, the last of them not yet looked at. -/
structure Side where
  values : List (Flag × String)
  pending : Option (Flag × Option String)
  deriving DecidableEq, Repr

namespace Side

def empty : Side := ⟨[], none⟩

/-- Looks at the option that came last. -/
def settle (s : Side) : Except Refusal Side :=
  match s.pending with
  | none => .ok s
  | some (_, none) => .error .usage
  | some (flag, some v) =>
    if flag.accepts v ∧ (s.values.lookup flag).isNone then .ok ⟨s.values ++ [(flag, v)], none⟩
    else .error .usage

/-- Ends with a text that was asked for, unless the option before is wrong. -/
def ask (s : Side) (r : Refusal) : Except Refusal Side := do
  let _ ← s.settle
  .error r

/-- Takes an option that begins with two dashes, by its name and the value after an equals sign. -/
def long (s : Side) (flags : List Flag) (versioned : Bool) (name : List Char)
    (v : Option String) : Except Refusal Side :=
  if name = "help".toList ∧ v = none then s.ask .help
  else if name = "version".toList ∧ v = none ∧ versioned then s.ask .version
  else
    match flags.find? (·.name = name) with
    | none => .error .usage
    | some flag => do
      let s ← s.settle
      let s : Side := { s with pending := some (flag, v) }
      if v.isSome then s.settle else return s

/-- Takes an argument that begins with a dash. -/
def dashed (s : Side) (flags : List Flag) (versioned : Bool) : List Char → Except Refusal Side
  | '-' :: '-' :: body =>
    match body.dropWhile (· ≠ '=') with
    | [] => s.long flags versioned body none
    | _ :: v => s.long flags versioned (body.takeWhile (· ≠ '=')) (some (.ofList v))
  | '-' :: 'h' :: _ => s.ask .help
  | '-' :: 'V' :: _ => if versioned then s.ask .version else .error .usage
  | _ => .error .usage

end Side

def isDashed (argument : String) : Bool :=
  argument.startsWith "-" && argument ≠ "-"

/-- Takes the options of a side, up to the first other word. -/
def scan (flags : List Flag) (versioned : Bool) :
    Side → List String → Except Refusal (Side × List String)
  | s, [] => .ok (s, [])
  | s, argument :: rest =>
    if argument = "--" then if rest = [] then .ok (s, []) else .error .usage
    else
      match s.pending, isDashed argument with
      | some (_, none), true => .error .usage
      | some (flag, none), false =>
        scan flags versioned { s with pending := some (flag, some argument) } rest
      | _, true =>
        match s.dashed flags versioned argument.toList with
        | .error r => .error r
        | .ok s => scan flags versioned s rest
      | _, false => .ok (s, argument :: rest)

def helpWord : String := "help"

/-- What a request for help about commands leads to. -/
def helpFor : List String → Refusal
  | [] => .help
  | [word] => if (Name.ofString? word).isSome ∨ word = helpWord then .help else .usage
  | _ => .usage

def Side.text? (s : Side) (flag : Flag) : Option String :=
  s.values.lookup flag

def command (name : Name) (s : Side) : Command :=
  match name with
  | .run => .run ((s.text? .readyDescriptor).bind descriptor?) (s.text? .stateFolder)
  | .start => .start
  | .stop => .stop
  | .status => .status

def parse (arguments : List String) : Except Refusal Invocation := do
  let (before, rest) ← scan [.lockFolder] true .empty arguments
  match rest with
  | [] => .error .usage
  | word :: rest =>
    if word = helpWord then .error (helpFor rest)
    else
      match Name.ofString? word with
      | none => .error .usage
      | some name =>
        let (after, rest) ← scan name.flags false .empty rest
        if rest ≠ [] then .error .usage
        else
          let after ← after.settle
          let before ← before.settle
          return ⟨after.text? .lockFolder <|> before.text? .lockFolder, command name after⟩

end Arguments

end ConfigDaemon
