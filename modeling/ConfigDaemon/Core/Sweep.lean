import ConfigDaemon.Core.Operation

/-! # Sweeping

A sweep pings every client that is known or owns a listener, and forgets those that do not
answer together with their listeners and the notifications on their way to them. It is one step
here. The daemon serves calls while it pings, so there a client may come or go between the look at
the candidates and the forgetting.
-/

namespace ConfigDaemon.Core

/-- The known clients and the owners of listeners, each once. -/
def sweepCandidates (c : Core) : Table String Unit :=
  c.records.foldl (fun t r => t.insert r.client ()) c.clients

/-- Takes a client's listeners out of the databases, and logs what came out. -/
def dropListeners (c : Core) (order : List String) (client : String) : Core :=
  let removed := (c.databases order).flatMap fun (address, d) =>
    (d.listeners.removeClient client).1.map (recordOf address)
  (c.mapDatabases fun d => { d with listeners := (d.listeners.removeClient client).2 }).logChanges
    (removed.map .removeListener)

/-- Forgets a client that does not answer. -/
def forget (order : List String) (c : Core) (client : String) : Core :=
  ({ c with couriers := c.couriers.erase client }.dismiss client).dropListeners order client

/-- Forgets the clients that do not answer; the answer is their number. -/
def sweep (c : Core) (order : List String) (ping : String → Bool) : Nat × Core :=
  let dead := c.sweepCandidates.keys.filter (!ping ·)
  (dead.length, dead.foldl (forget order) c)

end ConfigDaemon.Core
