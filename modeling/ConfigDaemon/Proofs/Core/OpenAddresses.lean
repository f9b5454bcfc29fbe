import ConfigDaemon.Proofs.Core.Delivered
import ConfigDaemon.Proofs.Core.Noting
import ConfigDaemon.Service.Answer

/-! # Which databases are open

A database stays open once it is. The main statement says when one is open at the empty address:
obtaining it is refused, and no log names it, but a value that is set or unset there opens it, and
so does a subscription, whose line in the log is then no entry.
-/

namespace ConfigDaemon

def Request.operation : Request → Core.Operation
  | .ping => .ping
  | .shutdown => .shutdown
  | .getDefaultDatabase => .obtain none
  | .getDatabase address => .obtain (some address)
  | .addClient client => .addClient client
  | .removeClient client => .removeClient client
  | .subscribe database location client => .subscribe database location client
  | .unsubscribe database id => .unsubscribe database id
  | .set database key value => .set database key value
  | .unset database key => .unset database key
  | .lookup database key => .lookup database key

namespace Core

open Log

def IsOpen (c : Core) (a : String) : Prop :=
  (c.others.find? a).isSome = true

/-- An event calls for a database at an address. One that is to be obtained must have an address
that is not empty; what comes from a log is taken as it is. -/
def Opens (c : Core) (a : String) : Event → Prop
  | .ask _ (.obtain address) => c.inShutdown = false ∧ address = some a ∧ a ≠ ""
  | .ask _ (.subscribe address location client) => c.inShutdown = false ∧ address = some a ∧
    Key.fault? location = none ∧ Client.isAddress client = true
  | .ask _ (.set address _ _) | .ask _ (.unset address _) => c.inShutdown = false ∧ address = some a
  | .ask _ .restore => ∃ s, c.readLog = .ok s ∧
    ∃ r ∈ s.listeners, r.Valid ∧ Database.ofLogName r.database = some a
  | _ => False

def Event.NamesEmpty : Event → Prop
  | .ask _ (.subscribe address location client) => address = some "" ∧
    Key.fault? location = none ∧ Client.isAddress client = true
  | .ask _ (.set address _ _) | .ask _ (.unset address _) => address = some ""
  | _ => False

variable {c c' : Core} {a : String} {address : Option String} {d : Database}
  {location client : String} {ping : String → Bool} {e : Event}

/-! ## Housekeeping -/

theorem isOpen_setDatabase :
    (c.setDatabase address d).IsOpen a ↔ c.IsOpen a ∨ address = some a := by
  cases address with
  | none => exact (or_iff_left nofun).symm
  | some b =>
    simp only [IsOpen, setDatabase, Table.find?_insert, Option.some.injEq]
    split
    · rename_i hab; simp [hab]
    · rename_i hab; simp [Ne.symm hab]

theorem isOpen_mapDatabases (f : Database → Database) :
    (c.mapDatabases f).IsOpen a ↔ c.IsOpen a := by
  rw [IsOpen, mapDatabases, Table.find?_mapValues, Option.isSome_map, IsOpen]

theorem isOpen_logChanges (es : List Log.Entry) : (c.logChanges es).IsOpen a ↔ c.IsOpen a := by
  induction es generalizing c with
  | nil => rfl
  | cons e es ih => exact ih

theorem isOpen_welcome (client : String) : (c.welcome client).IsOpen a ↔ c.IsOpen a := by
  unfold welcome
  split <;> rfl

theorem isOpen_dismiss (client : String) : (c.dismiss client).IsOpen a ↔ c.IsOpen a := by
  unfold dismiss
  split <;> rfl

theorem isOpen_forget (order : List String) (client : String) :
    (forget order c client).IsOpen a ↔ c.IsOpen a :=
  (isOpen_logChanges _).trans ((isOpen_mapDatabases _).trans (isOpen_dismiss client))

theorem isOpen_sweep (order : List String) : (c.sweep order ping).2.IsOpen a ↔ c.IsOpen a := by
  have hall : ∀ (dead : List String) {c : Core},
      (dead.foldl (forget order) c).IsOpen a ↔ c.IsOpen a := by
    intro dead
    induction dead with
    | nil => exact Iff.rfl
    | cons client dead ih => exact ih.trans (isOpen_forget order client)
  exact hall _

theorem isOpen_compact (order : List String) : (c.compact order).2.IsOpen a ↔ c.IsOpen a := by
  unfold compact
  split <;> rfl

theorem isOpen_compactIfNeeded (order : List String) :
    (c.compactIfNeeded order).2.IsOpen a ↔ c.IsOpen a := by
  cases h : c.needsCompaction with
  | true => rw [compactIfNeeded_of_needed h]; exact isOpen_compact order
  | false => rw [compactIfNeeded_of_not_needed h]

theorem isOpen_tick (h : Housekeeper) (now unused : Nat) (order : List String) :
    (h.tick (.alone now unused order ping c)).2.2.IsOpen a ↔ c.IsOpen a :=
  Housekeeper.tick_induction (P := fun c' => c'.IsOpen a ↔ c.IsOpen a)
    (t := .alone now unused order ping c) (fun _ _ hc => hc)
    (fun _ hc => (isOpen_sweep order).trans hc)
    (fun _ hc => (isOpen_compactIfNeeded order).trans hc) (fun _ => id) (fun _ => id) h Iff.rfl

/-! ## Replays -/

/-- Only a database that is open can have no identifier left. -/
theorem isOpen_of_subscribe_eq_none
    (h : (c.database (some a)).listeners.subscribe location client = none) : c.IsOpen a := by
  rw [IsOpen, Option.isSome_iff_ne_none]
  intro hnone
  rw [database, database?, hnone] at h
  cases h

theorem isOpen_reviveAll (addresses : List String) :
    (c.reviveAll ping addresses).2.IsOpen a ↔ c.IsOpen a := by
  induction addresses generalizing c with
  | nil => rfl
  | cons address rest ih =>
    have hrevive : (c.revive ping address).2.IsOpen a ↔ c.IsOpen a := by
      unfold revive
      split
      · rfl
      · split
        · exact isOpen_welcome _
        · rfl
    exact ih.trans hrevive

theorem isOpen_restoreListener (accepts : String → Rekeying → Bool) (r : Record) :
    (c.restoreListener accepts r).2.IsOpen a ↔
      c.IsOpen a ∨ r.Valid ∧ Database.ofLogName r.database = some a := by
  by_cases hr : r.Valid
  · rw [restoreListener_of_valid hr, and_iff_right hr]
    split
    · rename_i hnone
      refine (or_iff_left_of_imp fun ha => ?_).symm
      rw [ha] at hnone
      exact isOpen_of_subscribe_eq_none hnone
    · dsimp only
      split
      · exact isOpen_setDatabase
      · rw [isOpen_setDatabase, isOpen_setDatabase, or_assoc, or_self]
        rfl
  · rw [restoreListener_of_not_valid hr]
    exact (or_iff_left fun h => hr h.1).symm

theorem isOpen_restoreAll (accepts : String → Rekeying → Bool) (rs : List Record) :
    (c.restoreAll accepts rs).2.IsOpen a ↔
      c.IsOpen a ∨ ∃ r ∈ rs, r.Valid ∧ Database.ofLogName r.database = some a := by
  induction rs generalizing c with
  | nil => simp [restoreAll]
  | cons r rest ih =>
    have hrest := ih (c := (c.restoreListener accepts r).2)
    rw [isOpen_restoreListener, or_assoc] at hrest
    rw [List.exists_mem_cons_iff]
    exact hrest

theorem isOpen_restore (peers : Peers) :
    (c.restore peers).2.IsOpen a ↔ c.IsOpen a ∨ c.Opens a (.ask peers .restore) := by
  rw [restore_eq_of_readLog, Opens]
  split
  · rename_i f hf
    rw [hf]
    exact (or_iff_left nofun).symm
  · rename_i s hs
    rw [isOpen_restoreAll, isOpen_reviveAll, hs]
    simp only [Except.ok.injEq, exists_eq_left']
    rfl

/-- No field of an entry is empty, so no record names the database at the empty address. -/
theorem not_opens_empty_restore (peers : Peers) : ¬ c.Opens "" (.ask peers .restore) := by
  rintro ⟨s, hread, r, hr, -, hname⟩
  obtain rfl := surviving_of_readLog hread
  have hne : r.database ≠ "" := (recordable_of_mem_surviving hr).complete.1 _ List.mem_cons_self
  unfold Database.ofLogName at hname
  split at hname
  · cases hname
  · exact hne (Option.some.inj hname)

/-! ## Operations -/

theorem isOpen_guarded {α : Type} {op : Except Failure α × Core} {p : Prop}
    (h : op.2.IsOpen a ↔ c.IsOpen a ∨ p) :
    (c.guarded op).2.IsOpen a ↔ c.IsOpen a ∨ c.inShutdown = false ∧ p := by
  unfold guarded
  cases c.inShutdown with
  | true => simp
  | false => simpa using h

theorem isOpen_guarded_of_same {α : Type} {op : Except Failure α × Core}
    (h : op.2.IsOpen a ↔ c.IsOpen a) : (c.guarded op).2.IsOpen a ↔ c.IsOpen a := by
  unfold guarded
  split
  · rfl
  · exact h

theorem isOpen_obtain : (c.obtainDatabase address).2.IsOpen a ↔
    c.IsOpen a ∨ c.inShutdown = false ∧ address = some a ∧ a ≠ "" := by
  refine isOpen_guarded ?_
  split
  · rename_i ha
    refine (or_iff_left ?_).symm
    rintro ⟨rfl, hne⟩
    exact hne (Option.some.inj ha)
  · rename_i ha
    refine isOpen_setDatabase.trans (or_congr_right ⟨fun h => ⟨h, ?_⟩, And.left⟩)
    rintro rfl
    exact ha h

theorem isOpen_subscribe : (c.subscribe address location client).2.IsOpen a ↔
    c.IsOpen a ∨ c.inShutdown = false ∧ address = some a ∧
      Key.fault? location = none ∧ Client.isAddress client = true := by
  refine isOpen_guarded ?_
  split
  · rename_i hfault
    refine (or_iff_left fun h => ?_).symm
    rw [h.2.1] at hfault
    cases hfault
  · rename_i hr
    refine (or_iff_left fun h => ?_).symm
    rw [resolveClient_of_isAddress h.2.2] at hr
    cases hr
  · rename_i hlocation hr
    obtain ⟨rfl, hclient⟩ := eq_of_resolveClient hr
    rw [and_iff_left ⟨hlocation, hclient⟩]
    dsimp only
    split
    · rename_i hnone
      refine (or_iff_left_of_imp ?_).symm
      rintro rfl
      exact isOpen_of_subscribe_eq_none hnone
    · exact isOpen_setDatabase

theorem isOpen_unsubscribe (id : UInt32) :
    (c.unsubscribe address id).2.IsOpen a ↔ c.IsOpen a := by
  refine isOpen_guarded_of_same ?_
  split
  · rfl
  · rename_i d hd
    split
    · rfl
    · refine isOpen_setDatabase.trans (or_iff_left_of_imp ?_)
      rintro rfl
      exact Option.isSome_of_mem hd

theorem isOpen_addClient : (c.addClient client).2.IsOpen a ↔ c.IsOpen a := by
  refine isOpen_guarded_of_same ?_
  split
  · rfl
  · exact isOpen_welcome _

theorem isOpen_set (key value : String) : (c.set address key value).2.IsOpen a ↔
    c.IsOpen a ∨ c.inShutdown = false ∧ address = some a := by
  refine isOpen_guarded ?_
  split
  · exact isOpen_setDatabase
  · dsimp only
    split <;> exact isOpen_setDatabase

theorem isOpen_unset (key : String) : (c.unset address key).2.IsOpen a ↔
    c.IsOpen a ∨ c.inShutdown = false ∧ address = some a := by
  refine isOpen_guarded ?_
  split
  · exact isOpen_setDatabase
  · dsimp only
    split <;> exact isOpen_setDatabase

/-! ## Events -/

theorem isOpen_meet (e : Event) : (c.meet e).IsOpen a ↔ c.IsOpen a ∨ c.Opens a e := by
  have hsame : ∀ {p : Prop}, (p ↔ c.IsOpen a) → (p ↔ c.IsOpen a ∨ False) := fun h =>
    h.trans (or_iff_left id).symm
  cases e with
  | ask peers op =>
    cases op with
    | obtain address => exact isOpen_obtain
    | subscribe address location client => exact isOpen_subscribe
    | set address key value => exact isOpen_set key value
    | unset address key => exact isOpen_unset key
    | restore =>
      rw [← isOpen_restore, meet, perform]
      rcases c.restore peers with ⟨_ | _, _⟩ <;> rfl
    | addClient client => exact hsame isOpen_addClient
    | removeClient client => exact hsame (isOpen_guarded_of_same (isOpen_dismiss client))
    | unsubscribe address id => exact hsame (isOpen_unsubscribe id)
    | compact order => exact hsame (isOpen_compact order)
    | compactIfNeeded order => exact hsame (isOpen_compactIfNeeded order)
    | sweep order => exact hsame (isOpen_sweep order)
    | housekeep upkeep elapsed unused order => exact hsame (isOpen_tick _ elapsed unused order)
    | ping | shutdown | check | lookup | closeIdleLog => exact hsame Iff.rfl
  | deliver peers => exact hsame Iff.rfl
  | disturb disk => exact hsame Iff.rfl

/-- What is open after some events was open before, or one of them called for it. -/
theorem isOpen_through (es : List Event) :
    (c.through es).IsOpen a ↔ c.IsOpen a ∨
      ∃ earlier e later, es = earlier ++ e :: later ∧ (c.through earlier).Opens a e := by
  induction es generalizing c with
  | nil => exact (or_iff_left (by rintro ⟨_ | _, _, _, ⟨⟩, -⟩)).symm
  | cons e es ih =>
    have hrest := ih (c := c.meet e)
    rw [isOpen_meet, or_assoc] at hrest
    refine hrest.trans (or_congr_right ⟨?_, ?_⟩)
    · rintro (he | ⟨earlier, f, later, rfl, hf⟩)
      · exact ⟨[], e, es, rfl, he⟩
      · exact ⟨e :: earlier, f, later, rfl, hf⟩
    · rintro ⟨_ | ⟨e', earlier⟩, f, later, he, hf⟩ <;> cases he
      · exact .inl hf
      · exact .inr ⟨earlier, f, later, rfl, hf⟩

theorem opens_empty_iff : c.Opens "" e ↔ c.inShutdown = false ∧ e.NamesEmpty := by
  cases e with
  | ask peers op =>
    cases op with
    | obtain address => exact iff_of_false (fun h => h.2.2 rfl) And.right
    | restore => exact iff_of_false (not_opens_empty_restore peers) And.right
    | subscribe | set | unset => rfl
    | _ => exact iff_of_false id And.right
  | _ => exact iff_of_false id And.right

/-! ## Requests -/

theorem snd_handle (self : Service.Identity) (peers : Peers) (r : Request) :
    (Service.handle self c r).2 = c.meet (.ask peers r.operation) := by
  cases r with
  | shutdown =>
    cases hs : c.inShutdown with
    | false => simp only [Service.handle, check, hs]; rfl
    | true =>
      have hdown : c.beginShutdown = c := by rw [beginShutdown, ← hs]
      simp only [Service.handle, check, hs, if_true]
      exact hdown.symm
  | _ => rfl

/-- The line of a listener that was let in is an entry, unless its database has no name. -/
theorem ofLine_recordOf_iff {id : UInt32} (hid : id ≠ 0) (hlocation : Key.fault? location = none)
    (hclient : Client.isAddress client = true) :
    Entry.ofLine (Entry.addListener (recordOf address ⟨id, location, client⟩)).line =
      .error .missingField ↔ address = some "" := by
  constructor
  · intro hmissing
    by_contra hne
    have hname : Database.logName address ≠ "" := by
      cases address with
      | none => decide
      | some a => exact fun ha => hne (congrArg some ha)
    have hcomplete : (Entry.addListener (recordOf address ⟨id, location, client⟩)).Complete := by
      have hl := (plain_of_fault?_eq_none hlocation).1
      have hc := ne_empty_of_isAddress hclient
      constructor
      · simp [Entry.texts, recordOf, hname, hl, hc]
      · simp [Entry.id?, recordOf, hid]
    have hline := Entry.ofLine_line hcomplete (List.forall_mem_nil _)
    rw [List.nil_append, hmissing] at hline
    cases hline
  · rintro rfl
    exact Entry.ofLine_line_of_unnamed hid rfl

/-- A subscription that is acknowledged has a line in the log. -/
theorem logged_of_subscribe {id : UInt32}
    (h : c.subscribe address location client = (.ok id, c')) :
    ∃ d e, c' = (c.setDatabase address d).logChange e ∧
      e = .addListener (recordOf address ⟨id, location, client⟩) ∧
      (Entry.ofLine e.line = .error .missingField ↔ address = some "") := by
  unfold subscribe guarded at h
  split at h
  · cases h
  split at h
  · cases h
  · cases h
  · rename_i client' hlocation hr
    obtain ⟨rfl, hclient⟩ := eq_of_resolveClient hr
    dsimp only at h
    split at h
    · cases h
    · rename_i id' listeners hs
      cases h
      obtain ⟨hfresh, -⟩ := Registry.subscribe_eq_some hs
      exact ⟨_, _, rfl, rfl,
        ofLine_recordOf_iff (Registry.freshId_spec hfresh).1 hlocation hclient⟩

/-- Whatever happened to a daemon, a database is open at the empty address if and only if, while the
daemon was not shutting down, a value was set or unset there or a valid subscription was made; all
that requests do are such events. The line of an acknowledged subscription is refused for a field
that is missing if and only if it is one of these. -/
theorem empty_address_open_iff (self : Service.Identity) (peers : Peers) (place : Place)
    (idleLimit : Nat) (disk : Disk) (es : List Event) :
    let born := start place idleLimit disk
    let c := born.through es
    (c.IsOpen "" ↔ ∃ earlier e later, es = earlier ++ e :: later ∧
        (born.through earlier).inShutdown = false ∧ e.NamesEmpty) ∧
      (∀ r : Request, (Service.handle self c r).2 = c.meet (.ask peers r.operation)) ∧
      ∀ {address location client id c'}, c.subscribe address location client = (.ok id, c') →
        ∃ d e, c' = (c.setDatabase address d).logChange e ∧
          e = .addListener (recordOf address ⟨id, location, client⟩) ∧
          (Entry.ofLine e.line = .error .missingField ↔ address = some "") := by
  intro born c
  refine ⟨?_, snd_handle self peers, logged_of_subscribe⟩
  have hclosed : ¬ born.IsOpen "" := nofun
  refine (isOpen_through es).trans ((or_iff_right hclosed).trans ?_)
  simp only [opens_empty_iff]

/-- The empty address is refused to one caller, and another one subscribes there. -/
theorem empty_address_open_by_subscription :
    let self : Service.Identity := ⟨7, 65, Service.version⟩
    let c := start ⟨"/var/confd", "saved"⟩ 60 .empty
    let c' := (Service.handle self c (.getDatabase "")).2
    let c'' := (Service.handle self c' (.subscribe (some "") "/a" "/c")).2
    ¬ c'.IsOpen "" ∧ c''.IsOpen "" ∧ c''.readLog = .ok .empty ∧
      ∃ d e, c'' = (c'.setDatabase (some "") d).logChange e ∧
        e = .addListener (recordOf (some "") ⟨1, "/a", "/c"⟩) ∧
        Entry.ofLine e.line = .error .missingField := by
  intro self c c' c''
  let peers : Peers := ⟨fun _ => true, fun _ _ => true, fun _ _ => .taken⟩
  obtain ⟨hrefused, -, hlogged⟩ := empty_address_open_iff self peers ⟨"/var/confd", "saved"⟩
    60 .empty [.ask peers (.obtain (some ""))]
  obtain ⟨hopened, -, -⟩ := empty_address_open_iff self peers ⟨"/var/confd", "saved"⟩ 60 .empty
    [.ask peers (.obtain (some "")), .ask peers (.subscribe (some "") "/a" "/c")]
  refine ⟨?_, ?_, by decide +kernel, ?_⟩
  · intro h
    obtain ⟨earlier, e, later, hes, -, hnames⟩ := hrefused.mp h
    rcases earlier with _ | ⟨_, _ | _⟩ <;> cases hes
    exact hnames
  · exact hopened.mpr ⟨[_], _, [], rfl, by decide +kernel, rfl, by decide, by decide⟩
  · obtain ⟨d, e, hc, he, hmissing⟩ := @hlogged (some "") "/a" "/c" 1 c'' (by decide +kernel)
    exact ⟨d, e, hc, he, hmissing.mpr rfl⟩

end Core

end ConfigDaemon
