import ConfigDaemon.Core.Replay
import ConfigDaemon.Proofs.Core.Acts

/-! # What a replay does

A replay makes the clients known that answer, and takes up each valid record in turn: the record is
cancelled in the log and, if there is an identifier left and the client accepts it, told again
under that identifier.
-/

namespace ConfigDaemon.Core

open Log

variable {c c' c'' : Core}

/-! ## Clients -/

/-- The clients that answer are known, and the log was given those that were not known. -/
structure Revives (ping : String → Bool) (c : Core) (addresses : List String) (c' : Core) :
    Prop where
  entered : ∃ es, (∀ e ∈ es, ∃ a ∈ addresses, e = Log.Entry.addClient a) ∧
    (∀ e, e ∈ es ↔ Tells c c' e) ∧ Entered c es c'
  main : c'.main = c.main
  others : c'.others = c.others
  clients : ∀ a, a ∈ c'.clients.keys ↔
    a ∈ c.clients.keys ∨ a ∈ addresses ∧ Client.isAddress a = true ∧ ping a = true

theorem Revives.trans {ping : String → Bool} {as bs : List String} (h : Revives ping c as c')
    (h' : Revives ping c' bs c'') : Revives ping c (as ++ bs) c'' where
  entered := by
    obtain ⟨es, hes, htells, hentered⟩ := h.entered
    obtain ⟨fs, hfs, htells', hentered'⟩ := h'.entered
    refine ⟨es ++ fs, List.forall_mem_append.mpr ⟨fun e he => ?_, fun e he => ?_⟩,
      tells_append htells htells' fun e he hf => ?_, hentered.trans hentered'⟩
    · obtain ⟨a, ha, h⟩ := hes e he
      exact ⟨a, List.mem_append_left bs ha, h⟩
    · obtain ⟨a, ha, h⟩ := hfs e he
      exact ⟨a, List.mem_append_right as ha, h⟩
    · obtain ⟨a, -, rfl⟩ := hes e he
      obtain ⟨b, -, hb⟩ := hfs _ hf
      cases hb
  main := h'.main.trans h.main
  others := h'.others.trans h.others
  clients a := by
    rw [h'.clients, h.clients, List.mem_append]
    tauto

theorem Revives.unambiguous {ping : String → Bool} {addresses : List String}
    (h : Revives ping c addresses c') (hu : c.Unambiguous) : c'.Unambiguous := by
  rw [Unambiguous, h.others]
  exact hu

theorem Revives.records_eq {ping : String → Bool} {addresses : List String}
    (h : Revives ping c addresses c') : c'.records = c.records :=
  records_eq_of_same h.main h.others

theorem exists_entered_nil (c : Core) (addresses : List String) :
    ∃ es, (∀ e ∈ es, ∃ a ∈ addresses, e = Log.Entry.addClient a) ∧
      (∀ e, e ∈ es ↔ Tells c c e) ∧ Entered c es c :=
  ⟨[], List.forall_mem_nil _, fun _ => iff_of_false List.not_mem_nil fun h => h.1 h.2,
    entered_refl c⟩

theorem revives_welcome (ping : String → Bool) {a : String}
    (ha : Client.isAddress a = true) (hping : ping a = true) :
    Revives ping c [a] (c.welcome a) := by
  unfold welcome
  split
  · rename_i hold
    rw [Table.contains_iff_mem_keys] at hold
    refine ⟨exists_entered_nil c _, rfl, rfl, fun b => ?_⟩
    rw [List.mem_singleton]
    constructor
    · exact .inl
    · rintro (hb | ⟨rfl, -, -⟩)
      · exact hb
      · exact hold
  · rename_i hnew
    rw [Table.contains_iff_mem_keys] at hnew
    have hentered : Entered c [] { c with clients := c.clients.insert a () } :=
      entered_nil rfl rfl rfl
    have htells : ∀ e, e = .addClient a ↔
        Tells c ({ c with clients := c.clients.insert a () }.logChange (.addClient a)) e :=
      tells_addClient hnew (fun _ => Table.mem_keys_insert) fun _ => Iff.rfl
    refine ⟨⟨[.addClient a], List.forall_mem_singleton.mpr ⟨a, .head _, rfl⟩,
      fun e => List.mem_singleton.trans (htells e),
      hentered.trans (entered_logChange _ _)⟩, rfl, rfl, fun b => ?_⟩
    rw [List.mem_singleton]
    refine Table.mem_keys_insert.trans ?_
    constructor
    · rintro (rfl | hb)
      · exact .inr ⟨rfl, ha, hping⟩
      · exact .inl hb
    · rintro (hb | ⟨rfl, -, -⟩)
      · exact .inr hb
      · exact .inl rfl

theorem revive_eq (ping : String → Bool) (c : Core) (a : String) :
    c.revive ping a =
      if Client.isAddress a = true ∧ ping a = true then (true, c.welcome a) else (false, c) := by
  by_cases ha : Client.isAddress a = true
  · simp only [revive, resolveClient_of_isAddress ha, ha, true_and]
  · rw [if_neg fun h => ha h.1, revive, resolveClient_eq, if_neg ha]

theorem revives_revive (ping : String → Bool) (c : Core) (a : String) :
    Revives ping c [a] (c.revive ping a).2 := by
  rw [revive_eq]
  split
  · rename_i h
    exact revives_welcome ping h.1 h.2
  · rename_i hno
    refine ⟨exists_entered_nil c _, rfl, rfl, fun b => ?_⟩
    rw [List.mem_singleton]
    constructor
    · exact .inl
    · rintro (hb | ⟨rfl, h⟩)
      · exact hb
      · exact (hno h).elim

theorem revives_reviveAll (ping : String → Bool) (c : Core) (addresses : List String) :
    Revives ping c addresses (c.reviveAll ping addresses).2 := by
  induction addresses generalizing c with
  | nil =>
    refine ⟨exists_entered_nil c _, rfl, rfl, fun b => ?_⟩
    simp only [List.not_mem_nil, false_and, or_false]
    rfl
  | cons a as ih => exact (revives_revive ping c a).trans (ih _)

/-! ## Listeners -/

def renewed (r : Log.Record) (notice : Option Notice) : Option Log.Record :=
  notice.bind fun n => if n.accepted then some { r with id := n.rekeying.newId } else none

def retold (r : Log.Record) (notice : Option Notice) : List Log.Entry :=
  if r.Valid then .removeListener r :: (renewed r notice).toList.map .addListener else []

structure Notice.Concerns (n : Notice) (r : Log.Record) : Prop where
  valid : r.Valid
  client : n.client = r.client
  rekeying : n.rekeying = ⟨Database.ofLogName r.database, r.id, r.location, n.rekeying.newId⟩

/-- One record has been taken up, or tried. -/
structure Restores (accepts : String → Rekeying → Bool) (c : Core) (r : Log.Record)
    (notice : Option Notice) (c' : Core) : Prop where
  entered : Entered c (retold r notice) c'
  unambiguous : c'.Unambiguous
  clients : c'.clients = c.clients
  records : ∀ s, s ∈ c'.records ↔ s ∈ renewed r notice ∨ s ∈ c.records
  unused : ∀ n ∈ notice, n.rekeying.newId ≠ 0 ∧
    c.listener? (Database.ofLogName r.database) n.rekeying.newId = none
  noticed : ∀ n ∈ notice, n.Concerns r ∧ n.accepted = accepts r.client n.rekeying
  full : r.Valid → notice = none →
    (c.database (Database.ofLogName r.database)).listeners.freshId = none

theorem restoreListener_of_not_valid {r : Log.Record} (hr : ¬ r.Valid)
    (accepts : String → Rekeying → Bool) : c.restoreListener accepts r = (none, c) := by
  unfold restoreListener
  split
  · rename_i client hf hres
    obtain ⟨rfl, ha⟩ := eq_of_resolveClient hres
    exact (hr ⟨hf, ha⟩).elim
  · rfl

/-- A valid record is cancelled before an identifier is sought for it. -/
theorem restoreListener_of_valid {r : Log.Record} (hr : r.Valid)
    (accepts : String → Rekeying → Bool) :
    c.restoreListener accepts r =
      match (c.database (Database.ofLogName r.database)).listeners.subscribe r.location
          r.client with
      | none => (none, c.logChange (.removeListener r))
      | some (id, listeners) =>
        let address := Database.ofLogName r.database
        let opened := (c.logChange (.removeListener r)).setDatabase address
          { c.database address with listeners }
        let rekeying := ⟨address, r.id, r.location, id⟩
        if accepts r.client rekeying then
          (some ⟨r.client, rekeying, true⟩, opened.logChange (.addListener { r with id }))
        else
          (some ⟨r.client, rekeying, false⟩, opened.setDatabase address
            { c.database address with listeners := listeners.erase id }) := by
  simp only [restoreListener, hr.1, resolveClient_of_isAddress hr.2]
  rfl

theorem restores_of_not_valid {r : Log.Record} (hr : ¬ r.Valid) (hu : c.Unambiguous)
    (accepts : String → Rekeying → Bool) : Restores accepts c r none c where
  entered := by
    rw [retold, if_neg hr]
    exact entered_refl c
  unambiguous := hu
  clients := rfl
  records s := by simp [renewed]
  unused := nofun
  noticed := nofun
  full h := (hr h).elim

theorem restores_of_full {r : Log.Record} (hr : r.Valid) (hu : c.Unambiguous)
    (accepts : String → Rekeying → Bool)
    (hfull : (c.database (Database.ofLogName r.database)).listeners.freshId = none) :
    Restores accepts c r none (c.logChange (.removeListener r)) where
  entered := by
    rw [retold, if_pos hr]
    exact entered_logChange c _
  unambiguous := hu
  clients := rfl
  records s := by simp only [renewed, Option.bind_none, Option.not_mem_none, false_or]; rfl
  unused := nofun
  noticed := nofun
  full _ _ := hfull

section Subscribed

variable {r : Log.Record} {id : UInt32} {listeners : Registry}
  (hs : (c.database (Database.ofLogName r.database)).listeners.subscribe r.location r.client =
    some (id, listeners))

include hs

theorem mem_records_opened (hu : c.Unambiguous) (s : Log.Record) :
    s ∈ ((c.logChange (.removeListener r)).setDatabase (Database.ofLogName r.database)
      { c.database (Database.ofLogName r.database) with listeners }).records ↔
        s = { r with id } ∨ s ∈ c.records := by
  have hne := Database.ofLogName_ne_defaultName r.database
  have hu' : (c.logChange (.removeListener r)).Unambiguous := hu
  have hnone := (Registry.freshId_spec (Registry.subscribe_eq_some hs).1).2
  have htells := tells_addListener (l := ⟨id, r.location, r.client⟩) hu'
    (hu'.setDatabase hne { c.database (Database.ofLogName r.database) with listeners })
    (clients_setDatabase _ _ _) hne hnone (listener?_subscribed hs)
  have hrecord : recordOf (Database.ofLogName r.database) ⟨id, r.location, r.client⟩ =
      { r with id } := by
    rw [recordOf, Database.logName_ofLogName]
  rw [hrecord] at htells
  have hadd := htells (.addListener s)
  have hkeep := htells (.removeListener s)
  simp only [Log.Entry.addListener.injEq, reduceCtorEq, Tells, Holds, false_iff, not_and,
    not_not] at hadd hkeep
  constructor
  · intro h
    by_cases hold : s ∈ c.records
    · exact .inr hold
    · exact .inl (hadd.mpr ⟨hold, h⟩)
  · rintro (rfl | hold)
    · exact (hadd.mp rfl).2
    · exact hkeep hold

theorem restores_of_accepted (hr : r.Valid) (hu : c.Unambiguous)
    {accepts : String → Rekeying → Bool}
    (ha : accepts r.client ⟨Database.ofLogName r.database, r.id, r.location, id⟩ = true) :
    Restores accepts c r
      (some ⟨r.client, ⟨Database.ofLogName r.database, r.id, r.location, id⟩, true⟩)
      (((c.logChange (.removeListener r)).setDatabase (Database.ofLogName r.database)
        { c.database (Database.ofLogName r.database) with listeners }).logChange
          (.addListener { r with id })) where
  entered := by
    rw [retold, if_pos hr]
    exact ((entered_logChange c _).trans (entered_setDatabase _ _ _)).trans
      (entered_logChange _ (.addListener { r with id }))
  unambiguous := Unambiguous.setDatabase (c := c.logChange (.removeListener r)) hu
    (Database.ofLogName_ne_defaultName _) _
  clients := clients_setDatabase _ _ _
  records s := (mem_records_opened hs hu s).trans (by
    rw [renewed, Option.bind_some, if_pos rfl, Option.mem_some, eq_comm])
  unused := by
    rintro n ⟨⟩
    exact Registry.freshId_spec (Registry.subscribe_eq_some hs).1
  noticed := by
    rintro n ⟨⟩
    exact ⟨⟨hr, rfl, rfl⟩, ha.symm⟩
  full _ := nofun

theorem listener?_refused (a : Option String) (i : UInt32) :
    (((c.logChange (.removeListener r)).setDatabase (Database.ofLogName r.database)
      { c.database (Database.ofLogName r.database) with listeners }).setDatabase
        (Database.ofLogName r.database)
        { c.database (Database.ofLogName r.database) with
          listeners := listeners.erase id }).listener? a i = c.listener? a i := by
  obtain ⟨hfresh, rfl⟩ := Registry.subscribe_eq_some hs
  have hnone := (Registry.freshId_spec hfresh).2
  rw [listener?_setDatabase]
  split
  · rename_i ha
    rw [ha, Registry.subscriptions_erase, Table.find?_erase, Registry.subscriptions_store,
      Table.find?_insert]
    split
    · rename_i hi; rw [hi]; exact hnone.symm
    · rfl
  · rename_i ha
    rw [listener?_setDatabase, if_neg ha]
    rfl

theorem restores_of_refused (hr : r.Valid) (hu : c.Unambiguous)
    {accepts : String → Rekeying → Bool}
    (ha : ¬ accepts r.client ⟨Database.ofLogName r.database, r.id, r.location, id⟩ = true) :
    Restores accepts c r
      (some ⟨r.client, ⟨Database.ofLogName r.database, r.id, r.location, id⟩, false⟩)
      (((c.logChange (.removeListener r)).setDatabase (Database.ofLogName r.database)
        { c.database (Database.ofLogName r.database) with listeners }).setDatabase
          (Database.ofLogName r.database)
          { c.database (Database.ofLogName r.database) with
            listeners := listeners.erase id }) := by
  have hne := Database.ofLogName_ne_defaultName r.database
  have hu' : (c.logChange (.removeListener r)).Unambiguous := hu
  have hunambiguous := (hu'.setDatabase hne
    { c.database (Database.ofLogName r.database) with listeners }).setDatabase hne
      { c.database (Database.ofLogName r.database) with listeners := listeners.erase id }
  refine ⟨?_, hunambiguous, ?_, fun s => ?_, ?_, ?_, fun _ => nofun⟩
  · rw [retold, if_pos hr]
    exact ((entered_logChange c _).trans (entered_setDatabase _ _ _)).trans
      (entered_setDatabase _ _ _)
  · rw [clients_setDatabase, clients_setDatabase]
    rfl
  · rw [records_congr hu hunambiguous (listener?_refused hs)]
    simp [renewed]
  · rintro n ⟨⟩
    exact Registry.freshId_spec (Registry.subscribe_eq_some hs).1
  · rintro n ⟨⟩
    exact ⟨⟨hr, rfl, rfl⟩, (Bool.eq_false_iff.mpr ha).symm⟩

end Subscribed

theorem restores_restoreListener (hu : c.Unambiguous)
    (accepts : String → Rekeying → Bool) (r : Log.Record) :
    Restores accepts c r (c.restoreListener accepts r).1 (c.restoreListener accepts r).2 := by
  by_cases hr : r.Valid
  · rw [restoreListener_of_valid hr]
    split
    · rename_i hs
      exact restores_of_full hr hu accepts (Option.map_eq_none_iff.mp hs)
    · rename_i id listeners hs
      simp only
      split
      · rename_i ha
        exact restores_of_accepted hs hr hu ha
      · rename_i ha
        exact restores_of_refused hs hr hu ha
  · rw [restoreListener_of_not_valid hr]
    exact restores_of_not_valid hr hu accepts

/-- Records have been taken up in turn, with these notices. -/
inductive RestoresAll (accepts : String → Rekeying → Bool) :
    Core → List Log.Record → List Notice → Core → Prop
  | nil (c : Core) : RestoresAll accepts c [] [] c
  | cons {c c' c'' : Core} {r : Log.Record} {rs : List Log.Record} {notice : Option Notice}
      {notices : List Notice} : Restores accepts c r notice c' →
      RestoresAll accepts c' rs notices c'' →
      RestoresAll accepts c (r :: rs) (notice.toList ++ notices) c''

theorem restoresAll_restoreAll (hu : c.Unambiguous)
    (accepts : String → Rekeying → Bool) (rs : List Log.Record) :
    RestoresAll accepts c rs (c.restoreAll accepts rs).1.2 (c.restoreAll accepts rs).2 := by
  induction rs generalizing c with
  | nil => exact .nil c
  | cons r rs ih =>
    have h := restores_restoreListener hu accepts r
    exact .cons h (ih h.unambiguous)

section All

variable {accepts : String → Rekeying → Bool} {r s : Log.Record} {rs : List Log.Record}
  {notice : Option Notice} {notices : List Notice}

theorem Restores.grown (h : Restores accepts c r notice c') (hc : c.Ready) :
    Grown c c' (logBytes (retold r notice)) :=
  h.entered.grown hc

theorem Restores.valid_of_mem_renewed (h : Restores accepts c r notice c')
    (hs : s ∈ renewed r notice) : r.Valid ∧ s = { r with id := s.id } := by
  obtain ⟨n, hn, he⟩ := Option.bind_eq_some_iff.mp hs
  split at he
  · cases he
    exact ⟨(h.noticed n hn).1.valid, rfl⟩
  · cases he

theorem Restores.fresh (h : Restores accepts c r notice c') (hs : s ∈ renewed r notice) :
    s.id ≠ 0 ∧ c.listener? (Database.ofLogName s.database) s.id = none := by
  obtain ⟨n, hn, he⟩ := Option.bind_eq_some_iff.mp hs
  split at he
  · cases he
    exact h.unused n hn
  · cases he

theorem Restores.ne_of_mem_renewed (h : Restores accepts c r notice c') (hu : c.Unambiguous)
    (hs : s ∈ renewed r notice) {t : Log.Record} (ht : t ∈ c.records) : t ≠ s := by
  rintro rfl
  have hfresh := (h.fresh hs).2
  rw [hu.mem_records.mp ht] at hfresh
  cases hfresh

theorem RestoresAll.frame (h : RestoresAll accepts c rs notices c') (hc : c.Ready)
    (hu : c.Unambiguous) :
    c'.Ready ∧ c'.Unambiguous ∧ (c.Compactable → c'.Compactable) ∧ c'.clients = c.clients := by
  induction h with
  | nil => exact ⟨hc, hu, id, rfl⟩
  | cons h _ ih =>
    have hgrown := h.grown hc
    obtain ⟨hready, hu', hcompactable, hclients⟩ := ih hgrown.ready h.unambiguous
    exact ⟨hready, hu', fun hc => hcompactable (hgrown.compactable hc), hclients.trans h.clients⟩

theorem RestoresAll.forall_records (h : RestoresAll accepts c rs notices c')
    {P : Log.Record → Prop} (hc : ∀ s ∈ c.records, P s)
    (hrs : ∀ r ∈ rs, r.Valid → ∀ id, id ≠ 0 → P { r with id }) : ∀ s ∈ c'.records, P s := by
  induction h with
  | nil => exact hc
  | cons h _ ih =>
    refine ih (fun s hs => ?_) fun r hr => hrs r (List.mem_cons_of_mem _ hr)
    rcases (h.records s).mp hs with hs | hs
    · obtain ⟨hv, he⟩ := h.valid_of_mem_renewed hs
      rw [he]
      exact hrs _ List.mem_cons_self hv _ (h.fresh hs).1
    · exact hc s hs

end All

/-! ## The whole replay -/

def surviving (c : Core) : Surviving :=
  .ofEntries (entriesOfBytes c.logContents)

theorem surviving_of_readLog {s : Surviving} (hs : c.readLog = .ok s) : c.surviving = s := by
  rw [readLog, Store.read] at hs
  rw [surviving, logContents, contents]
  split at hs
  · rename_i bytes hd
    rw [hd]
    exact Except.ok.inj hs
  · rename_i hd
    rw [hd]
    exact Except.ok.inj hs
  · cases hs

theorem distinct_surviving (c : Core) : c.surviving.Distinct :=
  Surviving.distinct_ofEntries _

theorem recordable_of_holds_ofEntries {bytes : Bytes} {e : Log.Entry} (hadd : ¬ e.IsRemoval)
    (h : (Surviving.ofEntries (entriesOfBytes bytes)).Holds e) : e.Recordable :=
  (recordable_of_mem (Surviving.mem_of_holds hadd h)).1

theorem recordable_of_mem_surviving {r : Log.Record} (h : r ∈ c.surviving.listeners) :
    (Log.Entry.addListener r).Recordable :=
  recordable_of_holds_ofEntries (e := .addListener r) not_false h

theorem recordable_client_of_mem_surviving {a : String} (h : a ∈ c.surviving.clients) :
    (Log.Entry.addClient a).Recordable :=
  recordable_of_holds_ofEntries (e := .addClient a) not_false h

def revived (peers : Peers) (c : Core) : Core :=
  ({ c with log := c.log.close }.reviveAll peers.ping c.surviving.clients).2

theorem read_eq (c : Core) : c.log.read c.disk = (c.readLog, c.log.close) := by
  rw [readLog, Store.read]
  split <;> rfl

/-- A log that can be read is taken up whole, the clients first and then the listeners. -/
theorem restore_of_readLog {s : Surviving} (hs : c.readLog = .ok s) (peers : Peers) :
    let clients := ({ c with log := c.log.close }.reviveAll peers.ping s.clients).1
    let restored := (c.revived peers).restoreAll peers.rekey s.listeners
    c.restore peers =
      (.ok (⟨clients.restored, clients.dropped, restored.1.1.restored, restored.1.1.dropped⟩,
        restored.1.2), restored.2) := by
  obtain rfl := surviving_of_readLog hs
  rw [restore, read_eq, hs]
  rfl

theorem restore_eq (hc : c.Ready) (peers : Peers) :
    ∃ report, c.restore peers =
      (.ok (report, (c.revived peers).restoreAll peers.rekey c.surviving.listeners |>.1.2),
        (c.revived peers).restoreAll peers.rekey c.surviving.listeners |>.2) :=
  ⟨_, restore_of_readLog hc.readLog peers⟩

theorem Ready.closed (hc : c.Ready) : { c with log := c.log.close }.Ready :=
  ⟨hc.writable, nofun⟩

theorem revives_revived (c : Core) (peers : Peers) :
    Revives peers.ping { c with log := c.log.close } c.surviving.clients (c.revived peers) :=
  revives_reviveAll _ _ _

theorem Ready.revived (hc : c.Ready) (peers : Peers) :
    ∃ es, (∀ e ∈ es, ∃ a ∈ c.surviving.clients, e = Log.Entry.addClient a) ∧
      Grown { c with log := c.log.close } (c.revived peers) (logBytes es) := by
  obtain ⟨es, hes, -, hentered⟩ := (revives_revived c peers).entered
  exact ⟨es, hes, hentered.grown hc.closed⟩

theorem restoresAll_revived (hu : c.Unambiguous) (peers : Peers) :
    RestoresAll peers.rekey (c.revived peers) c.surviving.listeners
      ((c.revived peers).restoreAll peers.rekey c.surviving.listeners).1.2
      ((c.revived peers).restoreAll peers.rekey c.surviving.listeners).2 :=
  restoresAll_restoreAll ((revives_revived c peers).unambiguous hu) _ _

/-- The daemon knows nobody yet and has no values. -/
structure Blank (c : Core) : Prop where
  clients : c.clients = .empty
  main : c.main = .empty
  others : c.others = .empty

theorem blank_start (place : Place) (idleLimit : Nat) (disk : Disk) :
    (start place idleLimit disk).Blank :=
  ⟨rfl, rfl, rfl⟩

theorem Blank.unambiguous (h : c.Blank) : c.Unambiguous := by
  rw [Unambiguous, h.others]
  rfl

theorem Blank.records (h : c.Blank) : c.records = [] := by
  rw [Core.records, recordsIn, databases, h.main, h.others]
  rfl

end ConfigDaemon.Core
