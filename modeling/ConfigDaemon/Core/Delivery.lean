import ConfigDaemon.Core.State

/-! # Delivery of notifications

Each client has a courier of its own that hands over its notifications in the order in which they
were queued. A call that never ends holds up that courier alone, and for good.
-/

namespace ConfigDaemon

namespace Courier

/-- Hands over pending notifications until none is left or a call never ends. -/
def handOver (notify : Notification → Delivery) :
    List Notification → List Notification × Courier
  | [] => ([], ⟨[], false⟩)
  | n :: pending =>
    match notify n with
    | .never => ([], ⟨pending, true⟩)
    | .lost => handOver notify pending
    | .taken =>
      let (taken, courier) := handOver notify pending
      (n :: taken, courier)

/-- The notifications that a client takes now, and what remains. -/
def deliver (notify : Notification → Delivery) (courier : Courier) :
    List Notification × Courier :=
  if courier.stuck then ([], courier) else handOver notify courier.pending

end Courier

namespace Core

/-- The notifications that each client takes now. -/
def deliveries (peers : Peers) (c : Core) : List (String × List Notification) :=
  c.couriers.rows.map fun (client, courier) =>
    (client, (courier.deliver (peers.notify client)).1)

/-- The daemon after all couriers have done what they can. -/
def deliver (peers : Peers) (c : Core) : Core :=
  { c with couriers := c.couriers.mapValues fun client courier =>
      (courier.deliver (peers.notify client)).2 }

end Core

end ConfigDaemon
