import ConfigDaemon.Core.Sweep

/-! # Housekeeping

At each tick the daemon closes an idle log, and at its intervals sweeps and compacts. It asks to
be shut down once it has been idle, without a break, for as long as its limit says. Calls are served
while a tick waits for the log and for the clients that it pings, so it may find any state when it
looks whether the daemon is idle, and another one when it looks again.
-/

namespace ConfigDaemon

/-- Intervals and the limit of idleness, in milliseconds. -/
structure Upkeep where
  sweepInterval : Nat
  compactInterval : Nat
  idleExit : Option Nat
  deriving DecidableEq, Repr

structure Housekeeper where
  upkeep : Upkeep
  lastSweep : Nat
  lastCompact : Nat
  idleSince : Option Nat
  deriving DecidableEq, Repr

/-- What a tick decides. -/
inductive Verdict
  | goOn
  /-- The daemon is shutting down already. -/
  | over
  /-- The daemon has been idle for long enough. -/
  | exit
  deriving DecidableEq, Repr

/-- A tick among the calls that are served while it waits. -/
structure Tick where
  now : Nat
  /-- For how long the log has not been used, in seconds. -/
  unused : Nat
  /-- The order in which the named databases are visited. -/
  order : List String
  /-- Who answers the pings of a sweep. -/
  ping : String → Bool
  /-- The state at the beginning. -/
  core : Core
  /-- What calls make of the state until the tick looks whether the daemon is idle. -/
  before : Core → Core
  /-- What calls make of the swept state until the tick looks again. -/
  between : Core → Core

/-- A tick during which no call is served. -/
def Tick.alone (now unused : Nat) (order : List String) (ping : String → Bool) (core : Core) :
    Tick :=
  ⟨now, unused, order, ping, core, id, id⟩

namespace Housekeeper

def start (upkeep : Upkeep) (now : Nat) : Housekeeper :=
  ⟨upkeep, now, now, none⟩

/-- The upkeep that a tick does before it looks whether the daemon is idle. -/
def tidy (h : Housekeeper) (t : Tick) : Housekeeper × Core :=
  let (_, c) := t.core.closeIdleLog t.unused
  let (h, c) :=
    if h.upkeep.sweepInterval ≤ t.now - h.lastSweep then
      ({ h with lastSweep := t.now }, (c.sweep t.order t.ping).2)
    else (h, c)
  if h.upkeep.compactInterval ≤ t.now - h.lastCompact then
    ({ h with lastCompact := t.now }, (c.compactIfNeeded t.order).2)
  else (h, c)

/-- Whether to exit, given the idleness seen first and that after a sweep, which is made only if the
limit has passed. -/
def checkIdle (h : Housekeeper) (t : Tick) (limit : Nat) (c : Core) : Bool × Housekeeper × Core :=
  if c.isIdle then
    let since := h.idleSince.getD t.now
    let h := { h with idleSince := some since }
    if t.now - since < limit then (false, h, c)
    else
      let c := t.between (c.sweep t.order t.ping).2
      if c.isIdle then (true, h, c) else (false, { h with idleSince := none }, c)
  else (false, { h with idleSince := none }, c)

def tick (h : Housekeeper) (t : Tick) : Verdict × Housekeeper × Core :=
  if t.core.inShutdown then (.over, h, t.core)
  else
    let (h, c) := h.tidy t
    let c := t.before c
    match h.upkeep.idleExit with
    | none => (.goOn, h, c)
    | some limit =>
      let (exit, h, c) := h.checkIdle t limit c
      (if exit then .exit else .goOn, h, c)

end Housekeeper

end ConfigDaemon
