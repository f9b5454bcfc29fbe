import ConfigDaemon.Core.Operation
import ConfigDaemon.Proofs.Core.Records

/-! # What clients are told of changes

A change of a value queues one notification for each listener that it concerns, under the
listener's identifier and at the end of its client's queue.
-/

namespace ConfigDaemon

def Core.queued (c : Core) (client : String) : List Notification :=
  ((c.couriers.find? client).map (·.pending)).getD []

/-- A change of the key that the notification names makes the daemon send it to the client. -/
def Core.Notifies (c : Core) (client : String) (n : Notification) : Prop :=
  ∃ l ∈ (c.database n.database).listeners.matching n.key, l.client = client ∧ l.id = n.id

namespace Key

theorem covers_self {location : List Char} : covers location location = true := by
  unfold covers
  split
  · rename_i h
    rw [h]
    rfl
  · have hrest : rest? location location = some [] :=
      rest?_eq_some_iff.mpr (List.append_nil _).symm
    rw [hrest]

theorem isBelow_self (location : String) : isBelow location location = true :=
  covers_self

end Key

namespace Core

variable {c : Core} {client : String} {address : Option String}

theorem queued_foldl (f : Listener → Notification) (ls : List Listener)
    (t : Table String Courier) (client : String) :
    (((ls.foldl (fun t (l : Listener) => t.insert l.client
        { (t.find? l.client).getD ⟨[], false⟩ with
          pending := ((t.find? l.client).getD ⟨[], false⟩).pending ++ [f l] }) t).find?
        client).map (·.pending)).getD [] =
      ((t.find? client).map (·.pending)).getD [] ++ (ls.filter (·.client = client)).map f := by
  induction ls generalizing t with
  | nil => rw [List.filter_nil, List.map_nil, List.append_nil]; rfl
  | cons l ls ih =>
    rw [List.foldl_cons, ih, Table.find?_insert]
    by_cases hl : client = l.client
    · subst hl
      rw [if_pos rfl, List.filter_cons_of_pos (by simp), List.map_cons, Option.map_some,
        Option.getD_some, List.append_assoc, List.singleton_append]
      congr 1
      cases t.find? l.client <;> rfl
    · rw [if_neg hl, List.filter_cons_of_neg (by simpa using Ne.symm hl)]

/-- A change queues one notification for each listener that it concerns. -/
theorem queued_queueChange (c : Core) (address : Option String) (key : String)
    (value : Option String) (client : String) :
    (c.queueChange address key value).queued client = c.queued client ++
      (((c.database address).listeners.matching key).filter (·.client = client)).map
        fun l => ⟨address, l.id, key, value⟩ :=
  queued_foldl (fun l => ⟨address, l.id, key, value⟩) _ _ _

theorem Notifies.exists_listener? {n : Notification} (h : c.Notifies client n) :
    ∃ s, c.listener? n.database n.id = some s ∧ s.client = client := by
  obtain ⟨l, hl, hclient, hid⟩ := h
  refine ⟨⟨l.location, l.client⟩, ?_, hclient⟩
  rw [← hid]
  exact Registry.mem_toList.mp (List.mem_filter.mp hl).1

theorem notifies_location {id : UInt32} {s : Subscription}
    (h : c.listener? address id = some s) (value : Option String) :
    c.Notifies s.client ⟨address, id, s.location, value⟩ :=
  ⟨⟨id, s.location, s.client⟩,
    List.mem_filter.mpr ⟨Registry.mem_toList.mpr h, Key.isBelow_self _⟩, rfl, rfl⟩

end Core

end ConfigDaemon
