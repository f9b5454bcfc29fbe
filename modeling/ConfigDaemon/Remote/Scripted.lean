import ConfigDaemon.Remote.Call
import ConfigDaemon.Remote.Callback

/-! # Scripted peers

A peer that answers its connections one after the other as a script says; the last item serves
for all later ones. It keeps the requests it received.
-/

namespace ConfigDaemon

/-- What a scripted peer does with one connection. -/
structure ScriptItem where
  exchange : Exchange
  /-- The socket is removed before the answer. -/
  unlinks : Bool
  deriving DecidableEq, Repr

/-- A peer with requests of type `α`. -/
structure Scripted (α : Type) where
  items : List ScriptItem
  listening : Bool
  seen : List α
  deriving DecidableEq, Repr

namespace Scripted

variable {α : Type}

/-- Nothing listens when there is no script. -/
def ofItems (items : List ScriptItem) : Scripted α :=
  ⟨items, !items.isEmpty, []⟩

/-- What the peer does with a request, and the peer after it. -/
def connect (p : Scripted α) (request : α) : Exchange × Scripted α :=
  if p.listening then
    match p.items with
    | [] => (.absent, p)
    | item :: rest =>
      (item.exchange,
        { items := if rest.isEmpty then [item] else rest
          listening := !item.unlinks
          seen := p.seen ++ [request] })
  else (.absent, p)

/-- The result of a call to a scripted daemon. -/
def call (p : Scripted Request) (t : Target) (c : Call) :
    Except Failure Call.Result × Scripted Request :=
  let (x, p) := p.connect c.request
  (c.result t x, p)

/-- The result of a callback to a scripted client. -/
def callback (p : Scripted Callback) (address : String) (c : Callback) :
    Except CallFault Unit × Scripted Callback :=
  let (x, p) := p.connect c
  (c.result address x, p)

end Scripted

end ConfigDaemon
