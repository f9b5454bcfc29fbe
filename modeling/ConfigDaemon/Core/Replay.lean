import ConfigDaemon.Core.Operation

/-! # Replay

A daemon that starts takes up what survives of the log. Clients that answer are known again.
Each listener is cancelled in the log, gets a new identifier, and stays if its client accepts
to be told so. All of this is one step here, before any call is served. The daemon lets go of its
state while it waits for a client.
-/

namespace ConfigDaemon.Core

variable [Transport]

structure Report where
  clientsRestored : Nat
  clientsDropped : Nat
  listenersRestored : Nat
  listenersDropped : Nat
  deriving DecidableEq, Repr

/-- How many came back, and how many did not. -/
structure Tally where
  restored : Nat
  dropped : Nat
  deriving DecidableEq, Repr

namespace Tally

def none : Tally := ⟨0, 0⟩

def count (t : Tally) (cameBack : Bool) : Tally :=
  if cameBack then { t with restored := t.restored + 1 } else { t with dropped := t.dropped + 1 }

end Tally

/-- A message to a client about a new identifier, and whether the client accepted it. -/
structure Notice where
  client : String
  rekeying : Rekeying
  accepted : Bool
  deriving DecidableEq, Repr

/-- Takes up a client, if it answers. -/
def revive (ping : String → Bool) (c : Core) (address : String) : Bool × Core :=
  match resolveClient address with
  | .error _ => (false, c)
  | .ok client => if ping client then (true, c.welcome client) else (false, c)

/-- Takes up a listener under a new identifier. There is no notice if its location or its client
is not valid; such a record is not cancelled either. -/
def restoreListener (accepts : String → Rekeying → Bool) (c : Core) (r : Log.Record) :
    Option Notice × Core :=
  match Key.fault? r.location, resolveClient r.client with
  | none, .ok client =>
    let c := c.logChange (.removeListener r)
    let address := Database.ofLogName r.database
    let d := c.database address
    match d.listeners.subscribe r.location client with
    | none => (none, c)
    | some (id, listeners) =>
      let c := c.setDatabase address { d with listeners }
      let rekeying := ⟨address, r.id, r.location, id⟩
      if accepts client rekeying then
        (some ⟨client, rekeying, true⟩, c.logChange (.addListener { r with id }))
      else
        (some ⟨client, rekeying, false⟩,
          c.setDatabase address { d with listeners := (listeners.unsubscribe id).2 })
  | _, _ => (none, c)

/-- Takes up clients in turn, and counts those that come back and those that do not. -/
def reviveAll (ping : String → Bool) (c : Core) : List String → Tally × Core
  | [] => (.none, c)
  | address :: rest =>
    let (alive, c) := c.revive ping address
    let (tally, c) := reviveAll ping c rest
    (tally.count alive, c)

/-- Takes up listeners in turn, and counts them in the same way; with the notices that were sent. -/
def restoreAll (accepts : String → Rekeying → Bool) (c : Core) :
    List Log.Record → (Tally × List Notice) × Core
  | [] => ((.none, []), c)
  | r :: rest =>
    let (notice, c) := c.restoreListener accepts r
    let ((tally, notices), c) := restoreAll accepts c rest
    ((tally.count (notice.any (·.accepted)), notice.toList ++ notices), c)

/-- Takes up all that survives. -/
def replay (peers : Peers) (c : Core) (s : Log.Surviving) : (Report × List Notice) × Core :=
  let (clients, c) := c.reviveAll peers.ping s.clients
  let ((listeners, notices), c) := c.restoreAll peers.rekey s.listeners
  ((⟨clients.restored, clients.dropped, listeners.restored, listeners.dropped⟩, notices), c)

/-- Reads the log and takes up all that survives; only a log that cannot be read is a failure. -/
def restore (peers : Peers) (c : Core) : Except Failure (Report × List Notice) × Core :=
  match c.log.read c.disk with
  | (.error f, log) => (.error f, { c with log })
  | (.ok s, log) =>
    let (r, c) := replay peers { c with log } s
    (.ok r, c)

end ConfigDaemon.Core
