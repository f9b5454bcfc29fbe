import ConfigDaemon.Core.Session
import ConfigDaemon.Proofs.Core.Changes
import ConfigDaemon.Proofs.Housekeeping

/-! # What operations do to values and queues

An operation commits a change of one value, which is queued for every listener that it concerns,
or it is quiet: all values stay, and so do the queues, but for those of clients that a sweep finds
dead.
-/

namespace ConfigDaemon

namespace Table

def written (t : Table String String) (key : String) : Option String → Table String String
  | some value => t.insert key value
  | none => t.erase key

theorem find?_written (t : Table String String) (key : String) (value : Option String)
    (k : String) : (t.written key value).find? k = if k = key then value else t.find? k := by
  cases value
  · exact find?_erase t key k
  · exact find?_insert t key k _

theorem written_eq_self_iff {t : Table String String} {key : String} {value : Option String} :
    t.written key value = t ↔ t.find? key = value := by
  constructor
  · intro h
    rw [← h, find?_written, if_pos rfl]
  · intro h
    refine ext_find? fun k => ?_
    rw [find?_written]
    split
    · rename_i hk; rw [hk, h]
    · rfl

theorem filter_written (t : Table String String) (key : String) (value : Option String)
    (keep : String → Bool) :
    (t.written key value).filter (fun k _ => keep k) =
      if keep key then (t.filter fun k _ => keep k).written key value
      else t.filter fun k _ => keep k := by
  refine ext_find? fun k => ?_
  by_cases hk : k = key
  · subst hk
    split <;> rename_i hkeep <;> simp only [find?_filter_keys, find?_written, hkeep] <;> rfl
  · split <;> simp only [find?_filter_keys, find?_written, if_neg hk]

end Table

namespace Core

structure Change where
  database : Option String
  key : String
  value : Option String
  deriving DecidableEq, Repr

/-- The notifications of a change for one client, in the order of their identifiers. -/
def told (c : Core) (client : String) (ch : Change) : List Notification :=
  (((c.database ch.database).listeners.matching ch.key).filter (·.client = client)).map
    fun l => ⟨ch.database, l.id, ch.key, ch.value⟩

/-- All values stay, and so do the queues of the clients that answer; another one may be lost. -/
structure Quiet (ping : String → Bool) (c c' : Core) : Prop where
  values : ∀ a, (c'.database a).values = (c.database a).values
  queued : ∀ client, c'.queued client = c.queued client ∨
    ping client = false ∧ c'.queued client = []

/-- A value changes, and all the listeners that it concerns are to be told. -/
structure Commits (ch : Change) (c c' : Core) : Prop where
  differs : (c.database ch.database).values.find? ch.key ≠ ch.value
  values : ∀ a, (c'.database a).values =
    if a = ch.database then (c.database a).values.written ch.key ch.value
    else (c.database a).values
  queued : ∀ client, c'.queued client = c.queued client ++ c.told client ch

variable {ping : String → Bool} {c c' c'' : Core} {address : Option String} {d : Database}

theorem quiet_refl (ping : String → Bool) (c : Core) : Quiet ping c c :=
  ⟨fun _ => rfl, fun _ => .inl rfl⟩

theorem Quiet.trans (h : Quiet ping c c') (h' : Quiet ping c' c'') : Quiet ping c c'' where
  values a := (h'.values a).trans (h.values a)
  queued client := by
    rcases h'.queued client with he' | hlost
    · rw [he']; exact h.queued client
    · exact .inr hlost

theorem quiet_of_couriers (hvalues : ∀ a, (c'.database a).values = (c.database a).values)
    (hcouriers : c'.couriers = c.couriers) : Quiet ping c c' :=
  ⟨hvalues, fun client => .inl (by rw [Core.queued, Core.queued, hcouriers])⟩

theorem couriers_setDatabase (c : Core) (address : Option String) (d : Database) :
    (c.setDatabase address d).couriers = c.couriers := by
  cases address <;> rfl

theorem quiet_setDatabase (h : d.values = (c.database address).values) :
    Quiet ping c (c.setDatabase address d) := by
  refine quiet_of_couriers (fun a => ?_) (couriers_setDatabase c address d)
  rw [database_setDatabase]
  split
  · rename_i ha; rw [ha, h]
  · rfl

theorem quiet_openDatabase : Quiet ping c (c.openDatabase address) :=
  quiet_setDatabase rfl

/-! ## The log and the clients -/

theorem quiet_logChange (e : Log.Entry) : Quiet ping c (c.logChange e) :=
  quiet_of_couriers (fun _ => rfl) rfl

theorem quiet_logChanges (es : List Log.Entry) : Quiet ping c (c.logChanges es) := by
  induction es generalizing c with
  | nil => exact quiet_refl ping c
  | cons e es ih => exact (quiet_logChange e).trans ih

theorem quiet_welcome (client : String) : Quiet ping c (c.welcome client) := by
  unfold welcome
  split
  · exact quiet_refl ping c
  · exact quiet_of_couriers (fun _ => rfl) rfl

theorem quiet_dismiss (client : String) : Quiet ping c (c.dismiss client) := by
  unfold dismiss
  split
  · exact quiet_of_couriers (fun _ => rfl) rfl
  · exact quiet_refl ping c

theorem quiet_compact (order : List String) : Quiet ping c (c.compact order).2 := by
  unfold compact
  split <;> exact quiet_of_couriers (fun _ => rfl) rfl

theorem quiet_compactIfNeeded (order : List String) :
    Quiet ping c (c.compactIfNeeded order).2 := by
  have h : Quiet ping c (c.compact order).2 := quiet_compact order
  unfold compactIfNeeded
  split
  · split
    · rename_i he; rw [he] at h; exact h
    · rename_i he; rw [he] at h; exact h
  · exact quiet_refl ping c

theorem quiet_closeIdleLog (elapsed : Nat) : Quiet ping c (c.closeIdleLog elapsed).2 :=
  quiet_of_couriers (fun _ => rfl) rfl

/-! ## Sweeps -/

theorem quiet_dropListeners (order : List String) (client : String) :
    Quiet ping c (c.dropListeners order client) := by
  have hdrop : Quiet ping c
      (c.mapDatabases fun d => { d with listeners := (d.listeners.removeClient client).2 }) :=
    quiet_of_couriers (fun a => by rw [database_mapDatabases c rfl]) rfl
  exact hdrop.trans (quiet_logChanges _)

theorem quiet_forget (order : List String) {client : String} (h : ping client = false) :
    Quiet ping c (forget order c client) := by
  refine Quiet.trans ?_ ((quiet_dismiss client).trans (quiet_dropListeners order client))
  refine ⟨fun _ => rfl, fun other => ?_⟩
  by_cases ho : other = client
  · subst ho
    refine .inr ⟨h, ?_⟩
    rw [Core.queued, Table.find?_erase, if_pos rfl]
    rfl
  · refine .inl ?_
    rw [Core.queued, Table.find?_erase, if_neg ho, ← Core.queued]

theorem quiet_forgetAll (order : List String) {dead : List String}
    (h : ∀ client ∈ dead, ping client = false) : Quiet ping c (dead.foldl (forget order) c) := by
  induction dead generalizing c with
  | nil => exact quiet_refl ping c
  | cons client dead ih =>
    obtain ⟨hclient, hdead⟩ := List.forall_mem_cons.mp h
    exact (quiet_forget order hclient).trans (ih hdead)

theorem quiet_sweep (order : List String) : Quiet ping c (c.sweep order ping).2 := by
  refine quiet_forgetAll order fun client h => ?_
  have hdead := (List.mem_filter.mp h).2
  rwa [Bool.not_eq_true'] at hdead

theorem quiet_tick (h : Housekeeper) (now unused : Nat) (order : List String) :
    Quiet ping c (h.tick (.alone now unused order ping c)).2.2 :=
  Housekeeper.tick_induction (fun _ elapsed hc => hc.trans (quiet_closeIdleLog elapsed))
    (fun _ hc => hc.trans (quiet_sweep order))
    (fun _ hc => hc.trans (quiet_compactIfNeeded order)) (fun _ => id) (fun _ => id) h
    (quiet_refl ping c)

/-! ## Replays -/

theorem quiet_revive (address : String) : Quiet ping c (c.revive ping address).2 := by
  unfold revive
  split
  · exact quiet_refl ping c
  · split
    · exact quiet_welcome _
    · exact quiet_refl ping c

theorem quiet_reviveAll (addresses : List String) :
    Quiet ping c (c.reviveAll ping addresses).2 := by
  induction addresses generalizing c with
  | nil => exact quiet_refl ping c
  | cons address rest ih => exact (quiet_revive address).trans ih

theorem quiet_restoreListener (accepts : String → Rekeying → Bool) (r : Log.Record) :
    Quiet ping c (c.restoreListener accepts r).2 := by
  unfold restoreListener
  split
  · dsimp only
    split
    · exact quiet_logChange _
    · have hopen : ∀ listeners, Quiet ping c ((c.logChange (.removeListener r)).setDatabase
          (Database.ofLogName r.database) { (c.logChange (.removeListener r)).database
            (Database.ofLogName r.database) with listeners }) := fun listeners =>
        (quiet_logChange _).trans (quiet_setDatabase rfl)
      split
      · exact (hopen _).trans (quiet_logChange _)
      · refine (hopen _).trans (quiet_setDatabase ?_)
        rw [database_setDatabase, if_pos rfl]
  · exact quiet_refl ping c

theorem quiet_restoreAll (accepts : String → Rekeying → Bool) (rs : List Log.Record) :
    Quiet ping c (c.restoreAll accepts rs).2 := by
  induction rs generalizing c with
  | nil => exact quiet_refl ping c
  | cons r rest ih => exact (quiet_restoreListener accepts r).trans ih

theorem quiet_restore (peers : Peers) : Quiet peers.ping c (c.restore peers).2 := by
  unfold restore
  split
  · exact quiet_of_couriers (fun _ => rfl) rfl
  · rename_i s log he
    have hclosed : Quiet peers.ping c { c with log } := quiet_of_couriers (fun _ => rfl) rfl
    exact hclosed.trans ((quiet_reviveAll _).trans (quiet_restoreAll _ _))

/-! ## All operations -/

theorem quiet_guarded {α : Type} {op : Except Failure α × Core} (h : Quiet ping c op.2) :
    Quiet ping c (c.guarded op).2 := by
  unfold guarded
  split
  · exact quiet_refl ping c
  · exact h

theorem quiet_subscribe (location client : String) :
    Quiet ping c (c.subscribe address location client).2 := by
  refine quiet_guarded ?_
  split
  · exact quiet_refl ping c
  · exact quiet_refl ping c
  · dsimp only
    split
    · exact quiet_refl ping c
    · have hopen : ∀ listeners, Quiet ping c
          (c.setDatabase address { c.database address with listeners }) := fun listeners =>
        quiet_setDatabase rfl
      exact (hopen _).trans (quiet_logChange _)

theorem quiet_unsubscribe (id : UInt32) : Quiet ping c (c.unsubscribe address id).2 := by
  rw [unsubscribe_eq]
  refine quiet_guarded ?_
  split
  · exact quiet_refl ping c
  · refine Quiet.trans (quiet_setDatabase ?_) (quiet_logChange _)
    rfl

/-- What a write to a database does: a value that is there already is no change. -/
theorem quiet_or_commits_write (ping : String → Bool) {key : String} {value : Option String}
    (hlisteners : d.listeners = (c.database address).listeners)
    (hvalues : d.values = (c.database address).values.written key value) :
    ((c.database address).values.find? key = value → Quiet ping c (c.setDatabase address d)) ∧
    ((c.database address).values.find? key ≠ value →
      Commits ⟨address, key, value⟩ c
        ((c.setDatabase address d).queueChange address key value)) := by
  constructor
  · intro h
    exact quiet_setDatabase (hvalues.trans (Table.written_eq_self_iff.mpr h))
  · intro h
    refine ⟨h, fun a => ?_, fun client => ?_⟩
    · rw [show ((c.setDatabase address d).queueChange address key value).database a =
        (c.setDatabase address d).database a from rfl, database_setDatabase]
      split
      · rename_i ha; rw [ha, hvalues]
      · rfl
    · rw [queued_queueChange, told, database_setDatabase, if_pos rfl, hlisteners, Core.queued,
        couriers_setDatabase, ← Core.queued]

theorem set_spec (key value : String) :
    Quiet ping c (c.set address key value).2 ∨
      Commits ⟨address, key, some value⟩ c (c.set address key value).2 := by
  unfold set guarded
  split
  · exact .inl (quiet_refl ping c)
  · cases hf : Key.fault? key with
    | some fault =>
      simp only [Database.set, hf]
      exact .inl quiet_openDatabase
    | none =>
      have hvalues : (c.database address).values.insert key value =
          (c.database address).values.written key (some value) := rfl
      obtain ⟨hsame, hchanged⟩ := quiet_or_commits_write ping
        (d := { c.database address with values := (c.database address).values.insert key value })
        rfl hvalues
      simp only [Database.set, hf, decide_eq_true_eq]
      split
      · exact .inr (hchanged ‹_›)
      · exact .inl (hsame (not_not.mp ‹_›))

theorem unset_spec (key : String) :
    Quiet ping c (c.unset address key).2 ∨
      Commits ⟨address, key, none⟩ c (c.unset address key).2 := by
  unfold unset guarded
  split
  · exact .inl (quiet_refl ping c)
  · cases hf : Key.fault? key with
    | some fault =>
      simp only [Database.unset, hf]
      exact .inl quiet_openDatabase
    | none =>
      have hvalues : (c.database address).values.erase key =
          (c.database address).values.written key none := rfl
      obtain ⟨hsame, hchanged⟩ := quiet_or_commits_write ping
        (d := { c.database address with values := (c.database address).values.erase key })
        rfl hvalues
      simp only [Database.unset, hf]
      split
      · exact .inr (hchanged (Option.isSome_iff_ne_none.mp ‹_›))
      · exact .inl (hsame (Option.not_isSome_iff_eq_none.mp ‹_›))

def Operation.change? : Operation → Option Change
  | .set address key value => some ⟨address, key, some value⟩
  | .unset address key => some ⟨address, key, none⟩
  | _ => none

theorem quiet_or_commits (peers : Peers) (c : Core) (op : Operation) :
    Quiet peers.ping c (c.perform peers op).2 ∨
      ∃ ch, op.change? = some ch ∧ Commits ch c (c.perform peers op).2 := by
  cases op with
  | set address key value => exact (set_spec key value).imp_right fun h => ⟨_, rfl, h⟩
  | unset address key => exact (unset_spec key).imp_right fun h => ⟨_, rfl, h⟩
  | ping => exact .inl (quiet_refl _ c)
  | shutdown => exact .inl (quiet_of_couriers (fun _ => rfl) rfl)
  | check => exact .inl (quiet_refl _ c)
  | obtain address =>
    refine .inl (quiet_guarded ?_)
    split
    · exact quiet_refl _ c
    · exact quiet_openDatabase
  | addClient client =>
    refine .inl (quiet_guarded ?_)
    split
    · exact quiet_refl _ c
    · exact quiet_welcome _
  | removeClient client => exact .inl (quiet_guarded (quiet_dismiss client))
  | subscribe address location client => exact .inl (quiet_subscribe location client)
  | unsubscribe address id => exact .inl (quiet_unsubscribe id)
  | lookup address key => exact .inl (quiet_refl _ c)
  | compact order => exact .inl (quiet_compact order)
  | compactIfNeeded order => exact .inl (quiet_compactIfNeeded order)
  | restore =>
    have h := quiet_restore (c := c) peers
    refine .inl ?_
    simp only [perform]
    split <;> rename_i he <;> rw [he] at h <;> exact h
  | sweep order => exact .inl (quiet_sweep order)
  | closeIdleLog elapsed => exact .inl (quiet_closeIdleLog elapsed)
  | housekeep upkeep elapsed unused order => exact .inl (quiet_tick _ elapsed unused order)

/-- The change that an operation on a value really makes. -/
def committed (peers : Peers) (c : Core) (op : Operation) : Option Change :=
  match op with
  | .set address key _ | .unset address key =>
    let value := ((c.perform peers op).2.database address).values.find? key
    if value = (c.database address).values.find? key then none else some ⟨address, key, value⟩
  | _ => none

/-- An operation does to values and queues what the change that it commits calls for. -/
theorem perform_spec (peers : Peers) (c : Core) (op : Operation) :
    match c.committed peers op with
    | none => Quiet peers.ping c (c.perform peers op).2
    | some ch => Commits ch c (c.perform peers op).2 := by
  rcases quiet_or_commits peers c op with hquiet | ⟨ch, hch, hcommits⟩
  · have hnone : c.committed peers op = none := by
      cases op with
      | set address key _ | unset address key =>
        exact if_pos (congrArg (Table.find? · key) (hquiet.values address))
      | _ => rfl
    rw [hnone]
    exact hquiet
  · have hfound :
        ((c.perform peers op).2.database ch.database).values.find? ch.key = ch.value := by
      rw [hcommits.values, if_pos rfl, Table.find?_written, if_pos rfl]
    have hsome : c.committed peers op = some ch := by
      cases op with
      | set | unset =>
        cases hch
        simp only [committed, hfound]
        exact if_neg fun h => hcommits.differs h.symm
      | _ => cases hch
    rw [hsome]
    exact hcommits

end Core

end ConfigDaemon
