import Mathlib.Data.List.Induction
import ConfigDaemon.Proofs.Core.Commits

/-! # What reaches a client

Operations, deliveries and what others do to the disk follow each other in any order. A client
that answers gets what is queued for it, in order; what is queued are the notifications of the
changes that operations commit.
-/

namespace ConfigDaemon

namespace Courier

variable {notify : Notification → Delivery}

theorem handOver_of_taken (h : ∀ n, notify n = .taken) (pending : List Notification) :
    handOver notify pending = (pending, ⟨[], false⟩) := by
  induction pending with
  | nil => rfl
  | cons n pending ih => rw [handOver, h, ih]

/-- Nothing is lost on the way to a client that takes everything. -/
theorem taken_append_pending (h : ∀ n, notify n = .taken) (courier : Courier) :
    (courier.deliver notify).1 ++ (courier.deliver notify).2.pending = courier.pending := by
  unfold deliver
  split
  · rfl
  · rw [handOver_of_taken h, List.append_nil]

theorem pending_handOver_suffix (pending : List Notification) :
    (handOver notify pending).2.pending <:+ pending := by
  induction pending with
  | nil => exact List.suffix_refl _
  | cons n pending ih =>
    unfold handOver
    split
    · exact List.suffix_cons n pending
    · exact ih.trans (List.suffix_cons n pending)
    · exact ih.trans (List.suffix_cons n pending)

theorem pending_deliver_suffix (courier : Courier) :
    (courier.deliver notify).2.pending <:+ courier.pending := by
  unfold deliver
  split
  · exact List.suffix_refl _
  · exact pending_handOver_suffix _

end Courier

namespace Core

inductive Event
  /-- An operation, among clients that answer as they do just then. -/
  | ask (peers : Peers) (op : Operation)
  /-- All couriers hand over what they can. -/
  | deliver (peers : Peers)
  /-- Another program changes the disk. -/
  | disturb (disk : Disk)

/-- The client answers, and takes what it is given. -/
def Event.Awake (client : String) : Event → Prop
  | .ask peers _ => peers.ping client = true
  | .deliver peers => ∀ n, peers.notify client n = .taken
  | .disturb _ => True

def meet (c : Core) : Event → Core
  | .ask peers op => (c.perform peers op).2
  | .deliver peers => Core.deliver peers c
  | .disturb disk => { c with disk }

def through (c : Core) (es : List Event) : Core :=
  es.foldl meet c

def taken (client : String) (c : Core) : Event → List Notification
  | .deliver peers => ((deliveries peers c).filter (·.1 = client)).flatMap (·.2)
  | .ask _ _ | .disturb _ => []

/-- What an event gives notice of to a client. -/
def announced (client : String) (c : Core) : Event → List Notification
  | .ask peers op => (c.committed peers op).elim [] (c.told client)
  | .deliver _ | .disturb _ => []

def received (client : String) : Core → List Event → List Notification
  | _, [] => []
  | c, e :: es => c.taken client e ++ received client (c.meet e) es

def noticed (client : String) : Core → List Event → List Notification
  | _, [] => []
  | c, e :: es => c.announced client e ++ noticed client (c.meet e) es

variable {c : Core} {client : String} {e : Event} {es : List Event}

theorem through_append (c : Core) (es fs : List Event) :
    c.through (es ++ fs) = (c.through es).through fs :=
  List.foldl_append

theorem taken_deliver (peers : Peers) (c : Core) (client : String) :
    c.taken client (.deliver peers) =
      ((c.couriers.find? client).map fun courier =>
        (courier.deliver (peers.notify client)).1).getD [] := by
  have hrow : (deliveries peers c).filter (·.1 = client) =
      (c.couriers.rows.filter (·.1 = client)).map fun row =>
        (row.1, (row.2.deliver (peers.notify row.1)).1) := by
    rw [deliveries, List.filter_map]
    rfl
  rw [taken, hrow, Table.filter_rows c.couriers.ascending, ← Table.find?]
  cases c.couriers.find? client
  · rfl
  · exact List.append_nil _

theorem queued_deliver (peers : Peers) (c : Core) (client : String) :
    (Core.deliver peers c).queued client =
      ((c.couriers.find? client).map fun courier =>
        (courier.deliver (peers.notify client)).2.pending).getD [] := by
  rw [queued, deliver, Table.find?_mapValues, Option.map_map]
  rfl

theorem taken_append_queued (h : e.Awake client) :
    c.taken client e ++ (c.meet e).queued client = c.queued client ++ c.announced client e := by
  cases e with
  | ask peers op =>
    have hspec := perform_spec peers c op
    rw [announced, taken, meet, List.nil_append]
    cases hcommitted : c.committed peers op with
    | none =>
      rw [hcommitted] at hspec
      rw [Option.elim_none, List.append_nil]
      exact (hspec.queued client).resolve_right fun hlost => absurd (h.symm.trans hlost.1) nofun
    | some ch =>
      rw [hcommitted] at hspec
      exact hspec.queued client
  | deliver peers =>
    rw [announced, List.append_nil, taken_deliver, meet, queued_deliver, queued]
    cases c.couriers.find? client with
    | none => rfl
    | some courier => exact Courier.taken_append_pending h courier
  | disturb disk => exact (List.append_nil _).symm

theorem received_append_queued (h : ∀ e ∈ es, e.Awake client) :
    received client c es ++ (c.through es).queued client =
      c.queued client ++ noticed client c es := by
  induction es generalizing c with
  | nil => exact (List.append_nil _).symm
  | cons e es ih =>
    obtain ⟨he, hes⟩ := List.forall_mem_cons.mp h
    calc received client c (e :: es) ++ (c.through (e :: es)).queued client
        = c.taken client e ++ (received client (c.meet e) es ++
            ((c.meet e).through es).queued client) := List.append_assoc _ _ _
      _ = (c.taken client e ++ (c.meet e).queued client) ++ noticed client (c.meet e) es := by
          rw [ih hes, List.append_assoc]
      _ = c.queued client ++ noticed client c (e :: es) := by
          rw [taken_append_queued he, List.append_assoc]
          rfl

/-! ## Where notifications come from -/

theorem mem_queued_meet {n : Notification} (h : n ∈ (c.meet e).queued client) :
    n ∈ c.queued client ∨ n ∈ c.announced client e := by
  cases e with
  | ask peers op =>
    have hspec := perform_spec peers c op
    rw [meet] at h
    rw [announced]
    cases hcommitted : c.committed peers op with
    | none =>
      rw [hcommitted] at hspec
      rcases hspec.queued client with hq | ⟨-, hq⟩
      · exact .inl (hq ▸ h)
      · rw [hq] at h; cases h
    | some ch =>
      rw [hcommitted] at hspec
      rw [hspec.queued client] at h
      exact List.mem_append.mp h
  | deliver peers =>
    refine .inl ?_
    rw [meet, queued_deliver] at h
    rw [queued]
    cases hfind : c.couriers.find? client with
    | none => rw [hfind] at h; exact h
    | some courier =>
      rw [hfind] at h
      exact (Courier.pending_deliver_suffix courier).subset h
  | disturb disk => exact .inl h

/-- Notice is given only to those who listen. -/
theorem exists_listener?_of_announced {n : Notification} (h : n ∈ c.announced client e) :
    ∃ s, c.listener? n.database n.id = some s ∧ s.client = client := by
  cases e with
  | ask peers op =>
    rw [announced] at h
    cases hcommitted : c.committed peers op with
    | none => rw [hcommitted] at h; cases h
    | some ch =>
      rw [hcommitted] at h
      obtain ⟨l, hl, rfl⟩ := List.mem_map.mp h
      obtain ⟨hm, hclient⟩ := List.mem_filter.mp hl
      exact ⟨⟨l.location, l.client⟩, Registry.mem_toList.mp (List.mem_filter.mp hm).1,
        of_decide_eq_true hclient⟩
  | deliver peers => cases h
  | disturb disk => cases h

/-- What waits for a client in the end is for a listener that it has had earlier. -/
theorem exists_listener?_of_queued (hstart : c.queued client = []) {n : Notification}
    (h : n ∈ (c.through es).queued client) :
    ∃ seen, seen <+: es ∧ seen ≠ es ∧
      ∃ s, (c.through seen).listener? n.database n.id = some s ∧ s.client = client := by
  induction es using List.reverseRecOn with
  | nil => rw [through, List.foldl_nil, hstart] at h; cases h
  | append_singleton es e ih =>
    have hlonger : ∀ {seen : List Event}, seen <+: es → seen <+: es ++ [e] ∧ seen ≠ es ++ [e] := by
      intro seen hseen
      refine ⟨hseen.trans (List.prefix_append _ _), fun he => ?_⟩
      have hle := hseen.length_le
      rw [he, List.length_append, List.length_singleton] at hle
      omega
    rw [through_append] at h
    rcases mem_queued_meet (c := c.through es) (e := e) h with h | h
    · obtain ⟨seen, hseen, -, hlistener⟩ := ih h
      exact ⟨seen, (hlonger hseen).1, (hlonger hseen).2, hlistener⟩
    · have hself := hlonger (List.prefix_refl es)
      exact ⟨es, hself.1, hself.2, exists_listener?_of_announced h⟩

end Core

end ConfigDaemon
