import ConfigDaemon.Lock.Election
import ConfigDaemon.Volume

/-! # Histories of a lock directory

A session holds the locks that were acquired, by name, among everything else that happens to the
directory: other programs write, remove and lock its files.
-/

namespace ConfigDaemon.Lock

structure Session where
  place : Place
  world : World
  /-- What lies around the directory. -/
  outer : Volume
  owned : Table String Opening
  outside : List Opening
  deriving DecidableEq

inductive Step
  | acquire (name : String) (first second : Stamp) (address : Option String)
  | release (name : String) (t : Stamp)
  | discard (name : String)
  | holder
  | change (c : Volume.Change)
  | lockOutside
  | unlockOutside
  | breakLocks

/-- What a step answers. -/
inductive Answer
  | nothing
  | acquired (r : Except Failure Unit)
  | released (r : Option (Except Failure Unit))
  | holder (r : Except Failure Holder)
  | flag (b : Bool)

namespace Session

def start (place : Place) (outer : Volume) : Session :=
  ⟨place, .ofDisk (outer.folder place.folder), outer, .empty, []⟩

/-- The step that takes the directory now. -/
def acquisition (s : Session) (name : String) (address : Option String) : Step :=
  .acquire name s.world.stamp s.world.stamp.next address

/-- Another program changes the directory. -/
def change (s : Session) (c : Volume.Change) : Session :=
  let outer := (s.outer.withFolder s.place.folder s.world.disk).change s.place.folder c
  { s with outer, world := s.world.withDisk (outer.folder s.place.folder) }

/-- Forgets a lock that was acquired under a name, closing its opening. -/
def letGo (s : Session) (name : String) : Session :=
  match s.owned.find? name with
  | none => s
  | some o => { s with world := s.world.close o, owned := s.owned.erase name }

/-- Opens and tries to lock the address file, as another program would. -/
def lockOutside (s : Session) : Bool × Session :=
  match s.world.disk.find addressFile with
  | .ok (.file file) =>
    let (o, world) := s.world.openNew file
    match world.tryLock o with
    | none => (false, { s with world })
    | some world => (true, { s with world, outside := s.outside ++ [o] })
  | _ => (false, s)

def step (s : Session) : Step → Answer × Session
  | .acquire name first second address =>
    match Lock.acquire s.place first second s.world address with
    | (.error f, world) => (.acquired (.error f), { s with world })
    | (.ok o, world) =>
      let s := { s with world }.letGo name
      (.acquired (.ok ()), { s with owned := s.owned.insert name o })
  | .release name t =>
    match s.owned.find? name with
    | none => (.released none, s)
    | some o =>
      let (r, world) := Lock.release s.place t s.world o
      (.released (some r), { s with world, owned := s.owned.erase name })
  | .discard name => (.flag (s.owned.contains name), s.letGo name)
  | .holder => (.holder (currentHolder s.place s.world.disk), s)
  | .change c => (.nothing, s.change c)
  | .lockOutside =>
    let (b, s) := s.lockOutside
    (.flag b, s)
  | .unlockOutside =>
    (.nothing, { s with world := s.outside.foldl (·.close ·) s.world, outside := [] })
  | .breakLocks =>
    match s.world.disk.find addressFile with
    | .ok (.file file) =>
      (.nothing, { s with
        world := { s.world with locks := s.world.locks.filter (·.file ≠ file) } })
    | _ => (.nothing, s)

end Session

end ConfigDaemon.Lock
