import ConfigDaemon.Key
import ConfigDaemon.Table

/-! # Listener registries

A registry holds the subscriptions to one database under identifiers that start at one and
grow; zero is never given out, nor an identifier that is in use.
-/

namespace ConfigDaemon

/-- A subscription: changes at or below `location` go to `client`. -/
structure Listener where
  id : UInt32
  location : String
  client : String
  deriving DecidableEq, Repr

/-- The listeners under the identifiers that they carry, and the next identifier to try. -/
structure Registry where
  byId : Table UInt32 Listener
  next : UInt32
  keyed : ∀ row ∈ byId.rows, row.2.id = row.1
  deriving DecidableEq

namespace Registry

def empty : Registry := ⟨.empty, 1, nofun⟩

instance : Inhabited Registry := ⟨empty⟩

/-- The first usable identifier among `tries` many from `candidate` on, wrapping around. -/
def firstFree (used : Table UInt32 Listener) : Nat → UInt32 → Option UInt32
  | 0, _ => none
  | tries + 1, candidate =>
    if candidate ≠ 0 ∧ used.find? candidate = none then some candidate
    else firstFree used tries (candidate + 1)

/-- The identifier that the next subscription gets; there is none when all are in use. -/
def freshId (r : Registry) : Option UInt32 :=
  firstFree r.byId (r.byId.size + 2) r.next

/-- Stores a listener; the next identifier to try is the one after its own. -/
def store (r : Registry) (l : Listener) : Registry where
  byId := r.byId.insert l.id l
  next := l.id + 1
  keyed _ h := (Table.mem_insertRow h).elim (fun he => he ▸ rfl) (r.keyed _)

def subscribe (r : Registry) (location client : String) : Option (UInt32 × Registry) :=
  r.freshId.map fun id => (id, r.store ⟨id, location, client⟩)

def get? (r : Registry) (id : UInt32) : Option Listener :=
  r.byId.find? id

def erase (r : Registry) (id : UInt32) : Registry where
  byId := r.byId.erase id
  next := r.next
  keyed _ h := r.keyed _ (List.mem_filter.mp h).1

/-- Takes out a listener; the answer is what was there. -/
def unsubscribe (r : Registry) (id : UInt32) : Option Listener × Registry :=
  (r.get? id, r.erase id)

/-- The listeners in ascending order of their identifiers. -/
def toList (r : Registry) : List Listener :=
  r.byId.values

/-- The listeners that a change of `key` concerns. -/
def matching (r : Registry) (key : String) : List Listener :=
  r.toList.filter fun l => Key.isBelow l.location key

/-- Takes out listeners one after the other; the answer is those that were there. -/
def unsubscribeAll (r : Registry) : List UInt32 → List Listener × Registry
  | [] => ([], r)
  | id :: ids =>
    let (found, r) := r.unsubscribe id
    let (rest, r) := r.unsubscribeAll ids
    (found.toList ++ rest, r)

/-- Takes out the listeners of a client by the identifiers that they carry. -/
def removeClient (r : Registry) (client : String) : List Listener × Registry :=
  r.unsubscribeAll ((r.toList.filter (·.client = client)).map (·.id))

/-- The owners of the listeners, each once. -/
def clients (r : Registry) : Table String Unit :=
  r.toList.foldl (fun t l => t.insert l.client ()) .empty

def size (r : Registry) : Nat :=
  r.byId.size

end Registry

end ConfigDaemon
