import ConfigDaemon.Log.Compaction
import ConfigDaemon.Volume

/-! # Histories of a stored log

A session pairs a log with the disk that it lies on. Its steps are the log's operations and what
other programs may do to the folder.
-/

namespace ConfigDaemon.Log

structure Session where
  store : Store
  disk : Disk
  /-- What lies around the folder. -/
  outer : Volume
  deriving DecidableEq

inductive Step
  | append (e : Entry)
  | read
  | compact (entries : List Entry)
  | close
  | closeIfIdle (elapsed limit : Nat)
  | reopen
  | change (c : Volume.Change)

/-- What a step answers. -/
inductive Answer
  | nothing
  | done (r : Except Failure Unit)
  | surviving (r : Except Failure Surviving)
  | closed (b : Bool)

namespace Session

def start (place : Place) (outer : Volume) : Session :=
  ⟨⟨place, none⟩, outer.folder place.folder, outer⟩

/-- Another program changes the folder. -/
def change (s : Session) (c : Volume.Change) : Session :=
  let folder := s.store.place.folder
  let outer := (s.outer.withFolder folder s.disk).change folder c
  { s with outer, disk := outer.folder folder }

def step (s : Session) : Step → Answer × Session
  | .append e =>
    let (r, store, disk) := s.store.append s.disk e
    (.done r, { s with store, disk })
  | .read =>
    let (r, store) := s.store.read s.disk
    (.surviving r, { s with store })
  | .compact entries =>
    let (r, store, disk) := s.store.compact s.disk entries
    (.done r, { s with store, disk })
  | .close | .reopen => (.nothing, { s with store := s.store.close })
  | .closeIfIdle elapsed limit =>
    let (b, store) := s.store.closeIfIdle elapsed limit
    (.closed b, { s with store })
  | .change c => (.nothing, s.change c)

def run (s : Session) (steps : List Step) : Session :=
  steps.foldl (fun s x => (s.step x).2) s

end Session

end ConfigDaemon.Log
