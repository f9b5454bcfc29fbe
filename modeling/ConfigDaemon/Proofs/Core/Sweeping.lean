import ConfigDaemon.Core.Session
import ConfigDaemon.Proofs.Core.Changes
import ConfigDaemon.Proofs.Core.Telling

/-! # What a sweep removes

Forgetting some clients takes them, their listeners and what is on the way to them out of the state,
and the log is given an entry for each client and each listener that went. A sweep does this to the
clients that do not answer, as far as they are known or own a listener. To others it is blind, so
that what is on the way to a client that gave up all its listeners stays when the client dies.
-/

namespace ConfigDaemon

def Database.without (d : Database) (gone : List String) : Database :=
  { d with listeners := d.listeners.only (·.client ∉ gone) }

namespace Core

/-- The daemon without some clients, their listeners and what is on the way to them. -/
def without (c : Core) (gone : List String) : Core :=
  { c.mapDatabases (·.without gone) with
    clients := c.clients.filter fun client _ => client ∉ gone
    couriers := c.couriers.filter fun client _ => client ∉ gone }

def partings (order : List String) (c : Core) (client : String) : List Log.Entry :=
  (c.clients.keys.filter (· = client)).map .removeClient ++
    (c.recordsOf order client).map .removeListener

variable {c : Core} {order : List String} {ping : String → Bool} {client : String}
  {dead gone more : List String}

/-! ## Forgetting -/

theorem without_without (c : Core) (gone more : List String) :
    (c.without gone).without more = c.without (gone ++ more) := by
  simp [without, mapDatabases, Table.mapValues_mapValues, Database.without, Table.filter_filter,
    Registry.only_only]

theorem without_nil (c : Core) : c.without [] = c := by
  have hall : ∀ d : Database, d.without [] = d := fun d =>
    congrArg (Database.mk · d.values) (Registry.only_eq_self fun _ _ => rfl)
  simp [without, mapDatabases, hall, Table.filter, Table.mapValues]

@[simp] theorem without_logChanges (c : Core) (es : List Log.Entry) (gone : List String) :
    (c.logChanges es).without gone = (c.without gone).logChanges es := by
  induction es generalizing c with
  | nil => rfl
  | cons e es ih => exact ih (c.logChange e)

theorem logChanges_append (c : Core) (es fs : List Log.Entry) :
    c.logChanges (es ++ fs) = (c.logChanges es).logChanges fs :=
  List.foldl_append

theorem apply_logChanges {β : Type} {f : Core → β} (hf : ∀ c e, f (c.logChange e) = f c) (c : Core)
    (es : List Log.Entry) : f (c.logChanges es) = f c := by
  induction es generalizing c with
  | nil => rfl
  | cons e es ih => exact (ih (c.logChange e)).trans (hf c e)

theorem partings_logChanges (c : Core) (es : List Log.Entry) (order : List String)
    (client : String) : (c.logChanges es).partings order client = c.partings order client :=
  apply_logChanges (f := (partings order · client)) (fun _ _ => rfl) c es

theorem recordsIn_without (c : Core) (order gone : List String) :
    (c.without gone).recordsIn order = (c.recordsIn order).filter (·.client ∉ gone) := by
  have hrecords : (c.without gone).recordsIn order =
      (c.mapDatabases (·.without gone)).recordsIn order := rfl
  rw [hrecords, recordsIn, databases_mapDatabases c rfl, recordsIn, List.flatMap_map,
    List.filter_flatMap]
  refine congrArg (List.flatMap · _) (funext ?_)
  rintro ⟨address, d⟩
  simp only [Database.without, Registry.toList_only, List.filter_map]
  rfl

theorem records_without (c : Core) (gone : List String) :
    (c.without gone).records = c.records.filter (·.client ∉ gone) :=
  recordsIn_without c [] gone

theorem clients_without (c : Core) (gone : List String) :
    (c.without gone).clients = c.clients.filter fun client _ => client ∉ gone :=
  rfl

theorem keys_without (c : Core) (gone : List String) :
    (c.without gone).clients.keys = c.clients.keys.filter (· ∉ gone) := by
  rw [clients_without, Table.keys, Table.filter, Table.keys, List.filter_map]
  rfl

theorem partings_without (h : client ∉ gone) :
    (c.without gone).partings order client = c.partings order client := by
  have hkept : ∀ {α : Type} (owner : α → String) (xs : List α),
      (xs.filter (owner · ∉ gone)).filter (owner · = client) = xs.filter (owner · = client) := by
    intro α owner xs
    rw [List.filter_filter]
    apply List.filter_congr
    intro x _
    by_cases hx : owner x = client <;> simp [hx, h]
  have hkeys : (c.without gone).clients.keys.filter (· = client) =
      c.clients.keys.filter (· = client) := by
    rw [keys_without]
    exact hkept id _
  have hrecords : (c.without gone).recordsOf order client = c.recordsOf order client := by
    rw [recordsOf, recordsIn_without]
    exact hkept _ _
  rw [partings, hkeys, hrecords, partings]

theorem keys_filter_eq (c : Core) (client : String) :
    c.clients.keys.filter (· = client) = if c.clients.contains client then [client] else [] := by
  rw [List.filter_eq, c.clients.nodup_keys.count]
  simp only [Table.contains_iff_mem_keys]
  split <;> rfl

theorem forget_eq (c : Core) (order : List String) (client : String) :
    c.forget order client = (c.without [client]).logChanges (c.partings order client) := by
  have hwithout : ({ c with
      clients := c.clients.erase client
      couriers := c.couriers.erase client }.mapDatabases fun d =>
        { d with listeners := (d.listeners.removeClient client).2 }) = c.without [client] := by
    simp [without, mapDatabases, Database.without, Registry.snd_removeClient, Table.erase]
  rw [forget, dropListeners_eq, dismiss, partings, keys_filter_eq, ← hwithout]
  split
  · rfl
  · rename_i hstranger
    have hsame : c.clients.erase client = c.clients := by
      apply Table.erase_eq_self
      simpa [Table.contains] using hstranger
    rw [hsame]
    rfl

theorem foldl_forget (c : Core) (order : List String) (h : dead.Nodup) :
    dead.foldl (forget order) c =
      (c.without dead).logChanges (dead.flatMap (c.partings order)) := by
  induction dead generalizing c with
  | nil => exact (without_nil c).symm
  | cons client dead ih =>
    obtain ⟨hclient, hdead⟩ := List.nodup_cons.mp h
    -- The clients are distinct, so that the entries for the others do not change with this one.
    have hpartings : ∀ other ∈ dead,
        (c.forget order client).partings order other = c.partings order other := by
      intro other hother
      rw [forget_eq, partings_logChanges, partings_without]
      rintro hmem
      exact hclient (List.mem_singleton.mp hmem ▸ hother)
    rw [List.foldl_cons, ih _ hdead, List.flatMap_congr hpartings, List.flatMap_cons,
      logChanges_append, forget_eq, without_logChanges, without_without]
    rfl

/-! ## Sweeping -/

/-- A client can be found by a sweep if it is known or owns a listener in any database. -/
def Traceable (c : Core) (client : String) : Prop :=
  client ∈ c.clients.keys ∨
    ∃ address id location, c.listener? address id = some ⟨location, client⟩

theorem mem_sweepCandidates : client ∈ c.sweepCandidates.keys ↔ c.Traceable client := by
  rw [sweepCandidates, Table.mem_keys_foldl_insert, Traceable]
  apply or_congr_right
  constructor
  · rintro ⟨r, hr, rfl⟩
    obtain ⟨address, -, hl⟩ := mem_records.mp hr
    exact ⟨address, r.id, r.location, hl⟩
  · rintro ⟨address, id, location, hl⟩
    exact ⟨recordOf address ⟨id, location, client⟩, mem_records.mpr ⟨address, rfl, hl⟩, rfl⟩

def found (c : Core) (ping : String → Bool) : List String :=
  c.sweepCandidates.keys.filter (!ping ·)

theorem mem_found : client ∈ c.found ping ↔ c.Traceable client ∧ ping client = false := by
  simp [found, mem_sweepCandidates]

theorem nodup_found (c : Core) (ping : String → Bool) : (c.found ping).Nodup :=
  c.sweepCandidates.nodup_keys.filter _

theorem sweep_eq (c : Core) (order : List String) (ping : String → Bool) :
    c.sweep order ping = ((c.found ping).length,
      (c.without (c.found ping)).logChanges ((c.found ping).flatMap (c.partings order))) :=
  Prod.ext rfl (foldl_forget c order (nodup_found c ping))

/-- But for the log, a sweep does no more than to take out those that it finds. -/
theorem apply_sweep {β : Type} {f : Core → β} (hf : ∀ c e, f (c.logChange e) = f c) (c : Core)
    (order : List String) (ping : String → Bool) :
    f (c.sweep order ping).2 = f (c.without (c.found ping)) := by
  rw [sweep_eq]
  exact apply_logChanges hf _ _

theorem sweep_of_all_alive (h : ∀ client, c.Traceable client → ping client = true) :
    c.sweep order ping = (0, c) := by
  have hfound : c.found ping = [] := by
    rw [List.eq_nil_iff_forall_not_mem]
    intro client hclient
    obtain ⟨htraceable, hdead⟩ := mem_found.mp hclient
    simp [h client htraceable] at hdead
  simp [sweep_eq, hfound, without_nil, logChanges]

theorem perm_flatMap_filter {α : Type} (owner : α → String) (xs : List α) (h : dead.Nodup) :
    (dead.flatMap fun client => xs.filter (owner · = client)).Perm
      (xs.filter (owner · ∈ dead)) := by
  induction dead with
  | nil => simp
  | cons client dead ih =>
    obtain ⟨hclient, hdead⟩ := List.nodup_cons.mp h
    have hfirst : xs.filter (owner · = client) =
        (xs.filter (owner · ∈ client :: dead)).filter (owner · = client) := by
      rw [List.filter_filter]
      apply List.filter_congr
      intro x _
      by_cases hx : owner x = client <;> simp [hx]
    have hrest : xs.filter (owner · ∈ dead) =
        (xs.filter (owner · ∈ client :: dead)).filter (! owner · = client) := by
      rw [List.filter_filter]
      apply List.filter_congr
      intro x _
      by_cases hx : owner x = client <;> simp [hx, hclient]
    rw [List.flatMap_cons, hfirst]
    exact ((ih hdead).append_left _).trans (hrest ▸ List.filter_append_perm _ _)

theorem perm_partings (c : Core) (order : List String) (h : dead.Nodup) :
    (dead.flatMap (c.partings order)).Perm
      ((c.clients.keys.filter (· ∈ dead)).map .removeClient ++
        (c.records.filter (·.client ∈ dead)).map .removeListener) := by
  refine (List.flatMap_append_perm dead _ _).symm.trans (List.Perm.append ?_ ?_)
  · rw [← List.map_flatMap]
    exact (perm_flatMap_filter id c.clients.keys h).map _
  · rw [← List.map_flatMap]
    exact ((perm_flatMap_filter Log.Record.client (c.recordsIn order) h).trans
      ((c.perm_recordsIn order).filter _)).map _

theorem database?_without (c : Core) (gone : List String) (address : Option String) :
    (c.without gone).database? address = (c.database? address).map (·.without gone) := by
  cases address with
  | none => rfl
  | some a => simp [without, mapDatabases, database?, Table.find?_mapValues]

theorem traceable_iff :
    c.Traceable client ↔ client ∈ c.clients.keys ∨ ∃ r ∈ c.records, r.client = client := by
  rw [← mem_sweepCandidates, sweepCandidates, Table.mem_keys_foldl_insert]

theorem traceable_without :
    (c.without gone).Traceable client ↔ c.Traceable client ∧ client ∉ gone := by
  simp only [traceable_iff, keys_without, records_without, List.mem_filter, decide_eq_true_eq]
  constructor
  · rintro (⟨hkey, hkept⟩ | ⟨r, ⟨hr, hkept⟩, rfl⟩)
    · exact ⟨.inl hkey, hkept⟩
    · exact ⟨.inr ⟨r, hr, rfl⟩, hkept⟩
  · rintro ⟨hkey | ⟨r, hr, rfl⟩, hkept⟩
    · exact .inl ⟨hkey, hkept⟩
    · exact .inr ⟨r, ⟨hr, hkept⟩, rfl⟩

/-- Of those that a sweep can find, it finds the ones that do not answer. -/
theorem not_mem_found (h : c.Traceable client) : decide (client ∉ c.found ping) = ping client := by
  cases hping : ping client <;> simp [mem_found, h, hping]

theorem clients_sweep (c : Core) (order : List String) (ping : String → Bool) :
    (c.sweep order ping).2.clients = c.clients.filter fun client _ => ping client := by
  rw [apply_sweep (f := Core.clients) fun _ _ => rfl, clients_without]
  apply Table.filter_congr
  intro client u hclient
  exact not_mem_found (.inl (Table.mem_keys.mpr (by simp [hclient])))

theorem database?_sweep (c : Core) (order : List String) (ping : String → Bool)
    (address : Option String) :
    (c.sweep order ping).2.database? address = (c.database? address).map fun d =>
      { d with listeners := d.listeners.only (ping ·.client) } := by
  rw [apply_sweep (f := (database? · address)) fun _ _ => rfl, database?_without]
  apply Option.map_congr
  intro d hd
  have hkept : d.listeners.only (·.client ∉ c.found ping) =
      d.listeners.only (ping ·.client) := by
    apply Registry.only_congr
    intro l hl
    exact not_mem_found (.inr ⟨address, l.id, l.location,
      (listener?_of_database? hd l.id).trans (Registry.mem_toList.mp hl)⟩)
  rw [Database.without, hkept]

theorem couriers_sweep (c : Core) (order : List String) (ping : String → Bool)
    (client : String) :
    (c.sweep order ping).2.couriers.find? client =
      if client ∈ c.found ping then none else c.couriers.find? client := by
  rw [apply_sweep (f := Core.couriers) fun _ _ => rfl, without, Table.find?_filter_keys]
  simp [ite_not]

theorem entered_sweep (c : Core) (order : List String) (ping : String → Bool) :
    Entered c ((c.found ping).flatMap (c.partings order)) (c.sweep order ping).2 := by
  have hwithout : Entered c [] (c.without (c.found ping)) := entered_nil rfl rfl rfl
  rw [sweep_eq]
  exact hwithout.trans (entered_logChanges _ _)

theorem perm_partings_found (c : Core) (order : List String) (ping : String → Bool) :
    ((c.found ping).flatMap (c.partings order)).Perm
      ((c.clients.keys.filter (!ping ·)).map .removeClient ++
        (c.records.filter (!ping ·.client)).map .removeListener) := by
  have hfound : ∀ client, c.Traceable client → decide (client ∈ c.found ping) = !ping client := by
    intro client h
    simp [mem_found, h]
  have hclients : c.clients.keys.filter (· ∈ c.found ping) = c.clients.keys.filter (!ping ·) :=
    List.filter_congr fun client h => hfound client (.inl h)
  have hrecords : c.records.filter (·.client ∈ c.found ping) = c.records.filter (!ping ·.client) :=
    List.filter_congr fun r h => hfound r.client (traceable_iff.mpr (.inr ⟨r, h, rfl⟩))
  rw [← hclients, ← hrecords]
  exact perm_partings c order (nodup_found c ping)

theorem sweep_sweep (c : Core) (order order' : List String) (ping : String → Bool) :
    (c.sweep order ping).2.sweep order' ping = (0, (c.sweep order ping).2) := by
  apply sweep_of_all_alive
  intro client h
  have hsame : (c.sweep order ping).2.Traceable client =
      (c.without (c.found ping)).Traceable client :=
    apply_sweep (f := (Traceable · client)) (fun _ _ => rfl) c order ping
  rw [hsame, traceable_without] at h
  exact (not_mem_found h.1).symm.trans (decide_eq_true h.2)

/-- Whoever fails to answer is forgotten, if it is known or owns a listener: the clients that
remain are those that answer, the listeners those of clients that answer, and just what is on the
way to the forgotten ones is gone. The log is given an entry for each client and for each listener
that went, and another sweep of the same clients has nothing to do. -/
theorem sweep_removes_the_dead (c : Core) (order : List String) (ping : String → Bool) :
    let c' := (c.sweep order ping).2
    c'.clients = c.clients.filter (fun client _ => ping client) ∧
    (∀ address, c'.database? address = (c.database? address).map fun d =>
      { d with listeners := d.listeners.only (ping ·.client) }) ∧
    (∃ dead : List String, dead.Nodup ∧
      (∀ client, client ∈ dead ↔ c.Traceable client ∧ ping client = false) ∧
      (c.sweep order ping).1 = dead.length ∧
      ∀ client, c'.couriers.find? client =
        if client ∈ dead then none else c.couriers.find? client) ∧
    (∃ es : List Log.Entry,
      es.Perm ((c.clients.keys.filter (!ping ·)).map .removeClient ++
        (c.records.filter (!ping ·.client)).map .removeListener) ∧
      c.log.Writes c.disk es c'.log c'.disk ∧
      (c.Ready → c'.logContents = c.logContents ++ Log.logBytes es)) ∧
    ∀ order', c'.sweep order' ping = (0, c') := by
  intro c'
  have hentered := entered_sweep c order ping
  refine ⟨clients_sweep c order ping, database?_sweep c order ping, ?_, ?_,
    fun order' => sweep_sweep c order order' ping⟩
  · exact ⟨c.found ping, nodup_found c ping, fun _ => mem_found, rfl, couriers_sweep c order ping⟩
  · exact ⟨(c.found ping).flatMap (c.partings order), perm_partings_found c order ping,
      hentered.written, fun hready => (hentered.grown hready).contents⟩

theorem ready_of_diskOf {p : Log.Place} {bytes : Bytes} (hlog : c.log = ⟨p, some 0⟩)
    (hdisk : c.disk = Log.diskOf p bytes) : c.Ready := by
  constructor <;> rw [hlog, hdisk]
  · exact Log.clear_diskOf _ _ _
  · rintro n ⟨⟩
    exact Disk.find_folder_eq_ok.mpr (Table.find?_insert_self _ _ _)

/-- Of two clients and a third one that just listens, only the first is alive. -/
theorem sweep_removes_client_and_listener :
    let s := (Session.start ⟨"/c", "saved"⟩ 60 .empty).run
      [.alive ["/a"], .operation (.addClient "/a"), .operation (.addClient "/b"),
        .operation (.subscribe (some "db") "/k" "/d")]
    let c := s.core
    let c' := (c.sweep ["db"] s.behaviour.peers.ping).2
    c.Ready ∧ c'.clients.keys = ["/a"] ∧
      (∃ es : List Log.Entry,
        es.Perm [.removeClient "/b", .removeListener ⟨1, "db", "/k", "/d"⟩] ∧
        c'.logContents = c.logContents ++ Log.logBytes es) ∧
      c'.sweep [] s.behaviour.peers.ping = (0, c') := by
  intro s c c'
  have hlog : c.log = ⟨⟨"/c", "saved"⟩, some 0⟩ := by decide +kernel
  have hdisk : c.disk = Log.diskOf ⟨"/c", "saved"⟩ c.logContents := by decide +kernel
  have hready := ready_of_diskOf hlog hdisk
  obtain ⟨hclients, -, -, ⟨es, hperm, -, hcontents⟩, hagain⟩ :=
    sweep_removes_the_dead c ["db"] s.behaviour.peers.ping
  refine ⟨hready, ?_, ⟨es, ?_, hcontents hready⟩, hagain []⟩
  · rw [hclients]
    decide +kernel
  · have hentries :
        (c.clients.keys.filter (!s.behaviour.peers.ping ·)).map Log.Entry.removeClient ++
        (c.records.filter (!s.behaviour.peers.ping ·.client)).map .removeListener =
        [.removeClient "/b", .removeListener ⟨1, "db", "/k", "/d"⟩] := by decide +kernel
    rwa [hentries] at hperm

/-- A sweep does not look for a client that gave up its only listener. What is on the way to it
stays there when it has died. -/
theorem not_forall_queued_swept :
    ¬ ∀ (steps : List Step) (client : String),
      let s := (Session.start ⟨"/c", "saved"⟩ 60 .empty).run steps
      s.core.Ready → s.behaviour.peers.ping client = false →
        (s.core.sweep [] s.behaviour.peers.ping).2.queued client = [] := by
  let p : Log.Place := ⟨"/c", "saved"⟩
  let steps : List Step :=
    [.alive ["/b"], .hang ["/b"], .operation (.subscribe none "/a" "/b"),
      .operation (.set none "/a/k" "1"), .operation (.set none "/a/k" "2"),
      .operation (.unsubscribe none 1), .kill ["/b"]]
  let s := (Session.start p 60 .empty).run steps
  intro h
  have hlog : s.core.log = ⟨p, some 0⟩ := by decide +kernel
  have hdisk : s.core.disk = Log.diskOf p s.core.logContents := by decide +kernel
  have hready := ready_of_diskOf hlog hdisk
  have hqueued : (s.core.sweep [] s.behaviour.peers.ping).2.queued "/b" =
      [⟨none, 1, "/a/k", some "2"⟩] := by decide +kernel
  have hlost := h steps "/b" hready (by decide +kernel)
  exact absurd (hqueued.symm.trans hlost) (List.cons_ne_nil _ _)

end Core

end ConfigDaemon
