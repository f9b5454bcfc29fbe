import ConfigDaemon.Lock.Holder
import ConfigDaemon.Remote.Call

/-! # Activation

A caller finds the daemon through the address file and asks it whether it is alive. When nobody
answers, the caller may start a daemon and look again. It goes on for a limited number of rounds
with waits between them, and a search in vain tells the reasons of everything that failed.
-/

namespace ConfigDaemon

/-- What a look at the address file and at the daemon that it names shows. -/
inductive Sighting
  | live (address : String)
  /-- A daemon answers that it is shutting down. -/
  | closing (reason : String)
  | missing (reason : String)
  deriving DecidableEq, Repr

namespace Sighting

def live? : Sighting → Option String
  | .live address => some address
  | _ => none

def reason? : Sighting → Option String
  | .live _ => none
  | .closing reason | .missing reason => some reason

end Sighting

/-- What becomes of an attempt to start a daemon. -/
inductive Launch
  | ready
  /-- The program ended before it was ready, as one does that loses the election. -/
  | exited
  | failed (f : Failure)
  deriving DecidableEq, Repr

def Launch.reason? : Launch → Option String
  | .ready => none
  | .exited => some "spawned daemon exited before it was ready"
  | .failed f => some ("failed to launch daemon: " ++ f.message)

/-- What a caller can do in a world with state `σ`. -/
structure Surroundings (σ : Type) where
  /-- The owner that the address file of a lock folder names. -/
  holder : String → σ → Except Failure Holder
  call : Target → Call → σ → Except Failure Call.Result × σ
  /-- Starts a daemon on a lock folder and waits until it is ready or gone. -/
  launch : String → σ → Launch × σ
  /-- Lets so many milliseconds pass. -/
  wait : Nat → σ → σ

/-- A search for the daemon of a lock folder. -/
structure Activation where
  lockFolder : String
  /-- The rounds after the first. -/
  retries : Nat
  /-- How long to wait for an answer, in milliseconds. -/
  timeout : Nat
  /-- Whether a daemon is started when there is none. -/
  starts : Bool
  deriving DecidableEq, Repr

/-- A round: a look, and perhaps a launch and a second look after it. -/
structure Round where
  first : Sighting
  launch : Option Launch
  second : Option Sighting
  deriving DecidableEq, Repr

namespace Round

/-- The address that the last look of a round shows. -/
def found? (r : Round) : Option String :=
  (r.second.getD r.first).live?

/-- Why the looks and the launch of a round failed, in order. -/
def reasons (r : Round) : List String :=
  r.first.reason?.toList ++ (r.launch.bind (·.reason?)).toList ++ (r.second.bind (·.reason?)).toList

/-- A round is followed by another one unless it finds a daemon, or finds none and may not start
one. -/
def goesOn (starts : Bool) (r : Round) : Bool :=
  match r.first with
  | .live _ => false
  | .closing _ => true
  | .missing _ => starts && r.found?.isNone

end Round

namespace Activation

variable {σ : Type}

def look (a : Activation) (w : Surroundings σ) (s : σ) : Sighting × σ :=
  match w.holder a.lockFolder s with
  | .error f => (.missing f.message, s)
  | .ok .absent => (.missing ("no daemon address in " ++ a.lockFolder), s)
  | .ok (.placeholder pid) =>
    (.missing ("address file is held by a " ++ (Holder.placeholder pid).describe), s)
  | .ok (.daemon pid address) =>
    let name := "daemon " ++ Text.numeral pid.toNat ++ " at " ++ address
    match w.call ⟨address, a.timeout⟩ .ping s with
    | (.ok _, s) => (.live address, s)
    | (.error f, s) =>
      (if f.isInShutdown then .closing (name ++ " is shutting down")
        else .missing (name ++ " did not answer: " ++ f.message), s)

/-- Starts a daemon and looks again, unless starting fails. -/
def launch (a : Activation) (w : Surroundings σ) (first : Sighting) (s : σ) : Round × σ :=
  match w.launch a.lockFolder s with
  | (.failed f, s) => (⟨first, some (.failed f), none⟩, s)
  | (l, s) =>
    let (second, s) := a.look w s
    (⟨first, some l, some second⟩, s)

def round (a : Activation) (w : Surroundings σ) (s : σ) : Round × σ :=
  match a.look w s with
  | (.missing reason, s) =>
    if a.starts then a.launch w (.missing reason) s else (⟨.missing reason, none, none⟩, s)
  | (first, s) => (⟨first, none, none⟩, s)

/-- The wait before a round, in milliseconds, grows by as much from each round to the next. -/
def backoff : Nat := 100

/-- A round that comes after `before` others, and at most `more` after it. -/
def rounds (a : Activation) (w : Surroundings σ) : (more before : Nat) → σ → List Round × σ
  | 0, _, s =>
    let (r, s) := a.round w s
    ([r], s)
  | more + 1, before, s =>
    let (r, s) := a.round w s
    if r.goesOn a.starts then
      let (rs, s) := a.rounds w more (before + 1) (w.wait (backoff * (before + 1)) s)
      (r :: rs, s)
    else ([r], s)

/-- What a search comes to. -/
def conclude (rs : List Round) : Except Failure String :=
  match rs.getLast?.bind (·.found?) with
  | some address => .ok address
  | none => .error (.noServer ("; ".intercalate (rs.flatMap (·.reasons))))

/-- The address of a live daemon. -/
def resolve (a : Activation) (w : Surroundings σ) (s : σ) : Except Failure String × σ :=
  let (rs, s) := a.rounds w a.retries 0 s
  (conclude rs, s)

end Activation

end ConfigDaemon
