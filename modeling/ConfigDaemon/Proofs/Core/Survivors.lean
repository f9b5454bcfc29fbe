import Mathlib.Data.List.ReduceOption
import ConfigDaemon.Proofs.Core.Notices

/-! # What a replay brings back

Each record that survives is tried once and in its turn. However the clients answer, a daemon that
has taken up a log knows those of them that answered, and has a listener for each record whose
client accepted it.
-/

namespace ConfigDaemon.Core

open Log

variable {c c' : Core} {accepts : String → Rekeying → Bool} {r s : Log.Record}
  {rs : List Log.Record} {notice : Option Notice} {notices : List Notice}

/-! ## Counting -/

theorem Tally.count_spec (t : Tally) (cameBack : Bool) :
    (t.count cameBack).restored = t.restored + cond cameBack 1 0 ∧
      (t.count cameBack).restored + (t.count cameBack).dropped = t.restored + t.dropped + 1 := by
  cases cameBack
  · exact ⟨rfl, rfl⟩
  · exact ⟨rfl, Nat.succ_add _ _⟩

theorem reviveAll_tally (ping : String → Bool) (c : Core) (addresses : List String) :
    let t := (c.reviveAll ping addresses).1
    t.restored = (addresses.filter fun a => Client.isAddress a = true ∧ ping a = true).length ∧
      t.restored + t.dropped = addresses.length := by
  induction addresses generalizing c with
  | nil => exact ⟨rfl, rfl⟩
  | cons a as ih =>
    obtain ⟨hrestored, htotal⟩ := ih (c.revive ping a).2
    obtain ⟨hone, hsum⟩ := Tally.count_spec ((c.revive ping a).2.reviveAll ping as).1
      (c.revive ping a).1
    refine ⟨hone.trans ?_, hsum.trans (congrArg (· + 1) htotal)⟩
    rw [hrestored, List.filter_cons, revive_eq]
    by_cases h : Client.isAddress a = true ∧ ping a = true
    · rw [if_pos h, if_pos (decide_eq_true h)]
      rfl
    · rw [if_neg h, if_neg (mt of_decide_eq_true h)]
      rfl

/-- The listeners that are counted as restored are those whose client accepted the notice. -/
theorem restoreAll_tally (accepts : String → Rekeying → Bool) (c : Core) (rs : List Log.Record) :
    let t := (c.restoreAll accepts rs).1.1
    t.restored = ((c.restoreAll accepts rs).1.2.filter (·.accepted)).length ∧
      t.restored + t.dropped = rs.length := by
  induction rs generalizing c with
  | nil => exact ⟨rfl, rfl⟩
  | cons r rs ih =>
    obtain ⟨hrestored, htotal⟩ := ih (c.restoreListener accepts r).2
    obtain ⟨hone, hsum⟩ :=
      Tally.count_spec ((c.restoreListener accepts r).2.restoreAll accepts rs).1.1
        ((c.restoreListener accepts r).1.any (·.accepted))
    refine ⟨hone.trans ?_, hsum.trans (congrArg (· + 1) htotal)⟩
    have hcons : (c.restoreAll accepts (r :: rs)).1.2 = (c.restoreListener accepts r).1.toList ++
        ((c.restoreListener accepts r).2.restoreAll accepts rs).1.2 := rfl
    rw [hrestored, hcons, List.filter_append, List.length_append, Nat.add_comm]
    rcases (c.restoreListener accepts r).1 with _ | n
    · rfl
    · cases ha : n.accepted <;> simp [ha]

theorem Revives.size_clients {ping : String → Bool} {addresses : List String}
    (h : Revives ping c addresses c') (hempty : c.clients = .empty) (hnodup : addresses.Nodup) :
    c'.clients.size =
      (addresses.filter fun a => Client.isAddress a = true ∧ ping a = true).length := by
  have hperm : c'.clients.keys.Perm
      (addresses.filter fun a => Client.isAddress a = true ∧ ping a = true) := by
    refine (List.perm_ext_iff_of_nodup (Table.nodup_keys _) (hnodup.filter _)).mpr fun a => ?_
    rw [h.clients, hempty, List.mem_filter, decide_eq_true_eq]
    exact or_iff_right List.not_mem_nil
  rw [← Table.length_keys]
  exact hperm.length_eq

theorem Restores.toList_renewed (h : Restores accepts c r notice c') :
    (renewed r notice).toList = (notice.toList.filter (·.accepted)).map Notice.record := by
  cases notice with
  | none => rfl
  | some n =>
    rw [renewed, Option.bind_some, Option.toList_some, List.filter_cons]
    split
    · rw [List.filter_nil, List.map_singleton, (h.concerns rfl).record_eq, Option.toList_some]
    · rfl

theorem RestoresAll.records_perm (h : RestoresAll accepts c rs notices c') (hu : c.Unambiguous) :
    c'.records.Perm (c.records ++ (notices.filter (·.accepted)).map Notice.record) := by
  induction h with
  | nil => rw [List.filter_nil, List.map_nil, List.append_nil]
  | cons h _ ih =>
    have hfirst := h.records_perm hu
    rw [h.toList_renewed] at hfirst
    rw [List.filter_append, List.map_append, ← List.append_assoc]
    exact (ih h.unambiguous).trans (hfirst.append_right _)

/-! ## Trying the records -/

theorem RestoresAll.clients (h : RestoresAll accepts c rs notices c') :
    c'.clients = c.clients := by
  induction h with
  | nil => rfl
  | cons h _ ih => exact ih.trans h.clients

theorem RestoresAll.listener?_eq_some (h : RestoresAll accepts c rs notices c')
    (hu : c.Unambiguous) {address : Option String} {id : UInt32} {t : Subscription}
    (ht : c.listener? address id = some t) : c'.listener? address id = some t := by
  have hne := hu.ne_defaultName ht
  have hold : recordOf address ⟨id, t.location, t.client⟩ ∈ c.records :=
    (hu.recordOf_mem_records hne).mpr ht
  exact ((h.unambiguous hu).recordOf_mem_records hne).mp (h.mem_records_iff.mpr (.inl hold))

/-- What has come of a record for the daemon `c'`: a notice of a new identifier for it, which it is
live under if its client accepts that, or none. A valid record gets none only if there is no
identifier in its database that is not in use. -/
structure Tried (accepts : String → Rekeying → Bool) (c' : Core) (r : Log.Record)
    (notice : Option Notice) : Prop where
  told : ∀ n ∈ notice, n.Concerns r ∧ n.rekeying.newId ≠ 0 ∧
    n.accepted = accepts r.client n.rekeying
  live : ∀ n ∈ notice, n.accepted = true →
    c'.listener? (Database.ofLogName r.database) n.rekeying.newId = some ⟨r.location, r.client⟩
  sent : r.Valid → notice = none →
    ∀ id ≠ 0, ∃ t, c'.listener? (Database.ofLogName r.database) id = some t

theorem Restores.tried {c₁ : Core} (h : Restores accepts c r notice c₁) (hu : c.Unambiguous)
    (hall : RestoresAll accepts c₁ rs notices c') : Tried accepts c' r notice where
  told n hn := ⟨h.concerns hn, (h.unused n hn).1, (h.noticed n hn).2⟩
  live n hn ha := by
    have hnew := (h.records _).mpr (.inl (h.mem_renewed_iff.mpr ⟨n, hn, ha, rfl⟩))
    rw [(h.concerns hn).record_eq, h.unambiguous.mem_records] at hnew
    exact hall.listener?_eq_some h.unambiguous hnew
  sent hr hnone id hid := by
    have hused := Registry.mem_keys_of_freshId (h.full hr hnone) hid
    obtain ⟨t, ht⟩ := Option.isSome_iff_exists.mp (Table.mem_keys.mp hused)
    -- what was in use when the record was tried is in use in the end
    have hone : RestoresAll accepts c (r :: rs) (notice.toList ++ notices) c' := .cons h hall
    exact ⟨t, hone.listener?_eq_some hu ht⟩

theorem RestoresAll.exists_trials (h : RestoresAll accepts c rs notices c') (hu : c.Unambiguous) :
    ∃ trials, notices = trials.reduceOption ∧ List.Forall₂ (Tried accepts c') rs trials := by
  induction h with
  | nil => exact ⟨[], rfl, .nil⟩
  | @cons _ _ _ _ _ notice _ h hall ih =>
    obtain ⟨trials, rfl, htrials⟩ := ih h.unambiguous
    refine ⟨notice :: trials, ?_, .cons (h.tried hu hall) htrials⟩
    cases notice <;> rfl

theorem RestoresAll.nodup (h : RestoresAll accepts c rs notices c') (hrs : rs.Nodup) :
    (notices.map fun n => (n.client, n.rekeying)).Nodup := by
  refine List.pairwise_map.mpr (h.pairwise hrs fun r s n m hne hn hm he => hne ?_)
  -- a notice that says the same is about the same record
  obtain ⟨hclient, hrekeying⟩ := Prod.mk.inj he
  rw [hn.eq, hm.eq, Notice.record, Notice.record, hclient, hrekeying]

/-! ## The whole replay -/

/-- What a replay leaves: the clients that answered, and the records of the listeners that were
accepted, no two of them under one identifier. No client was asked the same thing twice. -/
structure BringsBack (peers : Peers) (s : Surviving) (report : Report) (notices : List Notice)
    (c' : Core) : Prop where
  clients : ∀ a, a ∈ c'.clients.keys ↔
    a ∈ s.clients ∧ Client.isAddress a = true ∧ peers.ping a = true
  tried : ∃ trials, notices = trials.reduceOption ∧
    List.Forall₂ (Tried peers.rekey c') s.listeners trials
  apart : notices.Pairwise fun n m => n.accepted = true →
    n.rekeying.database = m.rekeying.database → n.rekeying.newId ≠ m.rekeying.newId
  listeners : c'.records.Perm ((notices.filter (·.accepted)).map Notice.record)
  once : s.clients.Nodup ∧ (notices.map fun n => (n.client, n.rekeying)).Nodup
  countedClients : report.clientsRestored = c'.clients.size ∧
    report.clientsRestored + report.clientsDropped = s.clients.length
  countedListeners : report.listenersRestored = c'.listenerCount ∧
    report.listenersRestored + report.listenersDropped = s.listeners.length

theorem RestoresAll.bringsBack {peers : Peers} {t : Surviving} {c₁ : Core}
    {clients listeners : Tally}
    (h : RestoresAll peers.rekey c₁ t.listeners notices c')
    (hrevives : Revives peers.ping c t.clients c₁) (hempty : c.clients = .empty)
    (hu : c₁.Unambiguous) (hnone : c₁.records = []) (hdistinct : t.Distinct)
    (hclients : clients.restored =
      (t.clients.filter fun a => Client.isAddress a = true ∧ peers.ping a = true).length ∧
        clients.restored + clients.dropped = t.clients.length)
    (hlisteners : listeners.restored = (notices.filter (·.accepted)).length ∧
      listeners.restored + listeners.dropped = t.listeners.length) :
    BringsBack peers t ⟨clients.restored, clients.dropped, listeners.restored, listeners.dropped⟩
      notices c' := by
  have hperm := h.records_perm hu
  rw [hnone, List.nil_append] at hperm
  exact {
    clients := fun a => by
      rw [h.clients, hrevives.clients, hempty]
      exact or_iff_right List.not_mem_nil
    tried := h.exists_trials hu
    apart := h.new_apart hu
    listeners := hperm
    once := ⟨hdistinct.clients, h.nodup hdistinct.listeners⟩
    countedClients := by
      refine ⟨?_, hclients.2⟩
      rw [h.clients, hrevives.size_clients hempty hdistinct.clients, hclients.1]
    countedListeners := by
      refine ⟨?_, hlisteners.2⟩
      rw [listenerCount, hperm.length_eq, List.length_map, hlisteners.1] }

/-- However the clients answer, a daemon that knows nobody yet and can read its log brings back just
what survives of it and can be reached. -/
theorem Blank.restore_brings_back (h : c.Blank) {s : Surviving} (hs : c.readLog = .ok s)
    (peers : Peers) :
    ∃ report notices c', c.restore peers = (.ok (report, notices), c') ∧
      BringsBack peers s report notices c' := by
  obtain rfl := surviving_of_readLog hs
  have hrevives := revives_revived c peers
  exact ⟨_, _, _, restore_of_readLog hs peers,
    (restoresAll_revived h.unambiguous peers).bringsBack hrevives h.clients
      (hrevives.unambiguous h.unambiguous) (hrevives.records_eq.trans h.records)
      (distinct_surviving c) (reviveAll_tally peers.ping _ _) (restoreAll_tally peers.rekey _ _)⟩

/-- Of five listeners one is at no valid location, one client is gone and one refuses. The other two
come back, although there was nothing to tell them apart but their identifiers. -/
theorem restore_two_of_five :
    let place : Place := ⟨"/state", "log"⟩
    let peers : Peers := ⟨(· ≠ "/gone"), fun client k => client ≠ "/gone" ∧ k.location ≠ "/no",
      fun _ _ => .taken⟩
    let c := start place 60 (diskOf place (logBytes [.addClient "/a", .addClient "/gone",
      .addListener ⟨4, "def", "/k", "/a"⟩, .addListener ⟨2, "def", "/k", "/gone"⟩,
      .addListener ⟨2, "more", "k", "/a"⟩, .addListener ⟨7, "def", "/k", "/a"⟩,
      .addListener ⟨7, "more", "/no", "/a"⟩]))
    ∃ s report notices c', c.readLog = .ok s ∧
      c.restore peers = (.ok (report, notices), c') ∧ BringsBack peers s report notices c' ∧
      c'.clients.keys = ["/a"] ∧
      c'.records = [⟨1, "def", "/k", "/a"⟩, ⟨3, "def", "/k", "/a"⟩] := by
  intro place peers c
  have hread : c.readLog = .ok ⟨["/a", "/gone"], [⟨4, "def", "/k", "/a"⟩,
      ⟨2, "def", "/k", "/gone"⟩, ⟨2, "more", "k", "/a"⟩, ⟨7, "def", "/k", "/a"⟩,
      ⟨7, "more", "/no", "/a"⟩]⟩ := by decide +kernel
  obtain ⟨report, notices, c', hrestore, hbrings⟩ :=
    (blank_start place 60 _).restore_brings_back hread peers
  have hclients : (c.restore peers).2.clients.keys = ["/a"] := by decide +kernel
  have hrecords : (c.restore peers).2.records =
      [⟨1, "def", "/k", "/a"⟩, ⟨3, "def", "/k", "/a"⟩] := by decide +kernel
  have hc' : (c.restore peers).2 = c' := congrArg Prod.snd hrestore
  rw [hc'] at hclients hrecords
  exact ⟨_, report, notices, c', hread, hrestore, hbrings, hclients, hrecords⟩

end ConfigDaemon.Core
