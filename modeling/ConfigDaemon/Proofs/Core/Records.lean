import Mathlib.Data.List.Sort
import ConfigDaemon.Core.Sweep
import ConfigDaemon.Proofs.Registry

/-! # The records of the listeners

Each listener of the daemon has one record, provided that no database goes by the name that the
log has for the default one. What becomes of the listeners is described by looking them up.
-/

namespace ConfigDaemon

namespace Database

@[simp] theorem logName_ofLogName (name : String) : logName (ofLogName name) = name := by
  unfold ofLogName
  split
  · rename_i h; exact h.symm
  · rfl

theorem ofLogName_inj {a b : String} (h : ofLogName a = ofLogName b) : a = b := by
  rw [← logName_ofLogName a, h, logName_ofLogName]

theorem ofLogName_logName {address : Option String} (h : address ≠ some defaultName) :
    ofLogName (logName address) = address := by
  cases address with
  | none => rfl
  | some a => exact if_neg fun he => h (congrArg some he)

theorem ofLogName_ne_defaultName (name : String) : ofLogName name ≠ some defaultName := by
  unfold ofLogName
  split
  · nofun
  · intro h; cases h; contradiction

theorem listeners_of_set {d d' : Database} {key value : String} {changed : Bool}
    (h : d.set key value = .ok (changed, d')) : d'.listeners = d.listeners := by
  unfold set at h
  split at h <;> cases h
  rfl

theorem listeners_of_unset {d d' : Database} {key : String} {old : Option String}
    (h : d.unset key = .ok (old, d')) : d'.listeners = d.listeners := by
  unfold unset at h
  split at h <;> cases h
  rfl

/-- The order of the names that the log has for databases: that of the default one is first. -/
def Precedes (a b : String) : Prop :=
  b ≠ defaultName ∧ (a = defaultName ∨ a < b)

instance : Std.Asymm Precedes where
  asymm a b hab hba := by
    have hlt : a < b := hab.2.resolve_left hba.1
    exact Std.lt_irrefl (Std.lt_trans hlt (hba.2.resolve_left hab.1))

end Database

/-- The order of records: by their databases, and in each by their identifiers. -/
def Log.Record.Precedes (r s : Log.Record) : Prop :=
  Database.Precedes r.database s.database ∨ r.database = s.database ∧ r.id < s.id

instance : Std.Asymm Log.Record.Precedes where
  asymm r s hrs hsr := by
    rcases hrs with hrs | ⟨hname, hrs⟩ <;> rcases hsr with hsr | ⟨hname', hsr⟩
    · exact Std.Asymm.asymm _ _ hrs hsr
    · rw [hname'] at hrs
      exact Std.Irrefl.irrefl _ hrs
    · rw [hname] at hsr
      exact Std.Irrefl.irrefl _ hsr
    · exact UInt32.lt_asymm hrs hsr

/-! ## The order of visits -/

theorem perm_arrange (order names : List String) : (arrange order names).Perm names := by
  induction order generalizing names with
  | nil => exact .refl _
  | cons n order ih =>
    rw [arrange]
    split
    · rename_i hn
      exact ((ih (names.erase n)).cons n).trans (List.perm_cons_erase hn).symm
    · exact ih names

theorem arrange_of_perm {order names : List String} (h : order.Perm names) :
    arrange order names = order := by
  induction order generalizing names with
  | nil => exact (List.nil_perm.mp h)
  | cons n order ih =>
    obtain ⟨hn, hrest⟩ := List.cons_perm_iff_perm_erase.mp h
    rw [arrange, if_pos hn, ih hrest]

theorem filter_arrange (p : String → Bool) (order names : List String) :
    (arrange order names).filter p = arrange order (names.filter p) := by
  induction order generalizing names with
  | nil => rfl
  | cons n order ih =>
    simp only [arrange, List.mem_filter]
    by_cases hn : n ∈ names
    · by_cases hp : p n = true
      · rw [if_pos hn, if_pos ⟨hn, hp⟩, List.filter_cons_of_pos hp, ih, List.erase_filter]
      · have hnot : n ∉ names.filter p := fun h => hp (List.mem_filter.mp h).2
        rw [if_pos hn, if_neg (hp ·.2), List.filter_cons_of_neg hp, ih, ← List.erase_filter,
          List.erase_of_not_mem hnot]
    · rw [if_neg hn, if_neg (hn ·.1), ih]

namespace Core

variable {c : Core}

def listener? (c : Core) (address : Option String) (id : UInt32) : Option Subscription :=
  (c.database address).listeners.subscriptions.find? id

/-- No database is known by the name that the log has for the default one. -/
def Unambiguous (c : Core) : Prop :=
  c.others.find? Database.defaultName = none

theorem listener?_of_database? {address : Option String} {d : Database}
    (h : c.database? address = some d) (id : UInt32) :
    c.listener? address id = d.listeners.subscriptions.find? id := by
  rw [listener?, database, h]
  rfl

theorem exists_database?_of_listener? {address : Option String} {id : UInt32} {s : Subscription}
    (h : c.listener? address id = some s) :
    ∃ d, c.database? address = some d ∧ d.listeners.subscriptions.find? id = some s := by
  rw [listener?, database] at h
  cases hd : c.database? address with
  | none => rw [hd] at h; cases h
  | some d => rw [hd] at h; exact ⟨d, rfl, h⟩

theorem database_eq {address : Option String} {d : Database} (h : c.database? address = some d) :
    c.database address = d := by
  rw [database, h]
  rfl

theorem mem_databases {order : List String} {address : Option String} {d : Database} :
    (address, d) ∈ c.databases order ↔ c.database? address = some d := by
  simp only [databases, List.mem_cons, Prod.mk.injEq, List.mem_map,
    (perm_arrange order c.others.keys).mem_iff]
  constructor
  · rintro (⟨rfl, rfl⟩ | ⟨a, ha, rfl, rfl⟩)
    · rfl
    · obtain ⟨d, hd⟩ : ∃ d, c.database? (some a) = some d :=
        Option.isSome_iff_exists.mp (Table.mem_keys.mp ha)
      rw [database_eq hd]
      exact hd
  · intro h
    cases address with
    | none => exact .inl ⟨rfl, (Option.some.inj h).symm⟩
    | some a =>
      have hkey : a ∈ c.others.keys := Table.mem_keys.mpr (Option.isSome_iff_exists.mpr ⟨d, h⟩)
      exact .inr ⟨a, hkey, rfl, database_eq h⟩

section Congr

variable {c' : Core}

theorem mem_keys_of_toList_ne_nil {a : String}
    (h : (c.database (some a)).listeners.toList ≠ []) : a ∈ c.others.keys := by
  by_contra hno
  rw [Table.mem_keys, Option.not_isSome_iff_eq_none] at hno
  exact h (by rw [database, database?, hno]; rfl)

/-- Databases without listeners are of no account, be they open or not. -/
theorem recordsIn_eq (c : Core) (order : List String) :
    c.recordsIn order = c.main.listeners.toList.map (recordOf none) ++
      (arrange order (c.others.keys.filter fun a =>
        (c.database (some a)).listeners.toList ≠ [])).flatMap fun a =>
          (c.database (some a)).listeners.toList.map (recordOf (some a)) := by
  rw [← filter_arrange, recordsIn, databases, List.flatMap_cons, List.flatMap_map]
  congr 1
  induction arrange order c.others.keys with
  | nil => rfl
  | cons a names ih =>
    rw [List.flatMap_cons, ih]
    dsimp only
    by_cases h : (c.database (some a)).listeners.toList = []
    · rw [List.filter_cons_of_neg (by simpa using h), h]
      rfl
    · rw [List.filter_cons_of_pos (by simpa using h), List.flatMap_cons]

theorem recordsIn_congr
    (h : ∀ a, (c'.database a).listeners.toList = (c.database a).listeners.toList)
    (order : List String) : c'.recordsIn order = c.recordsIn order := by
  have hkeys : (c'.others.keys.filter fun a => (c'.database (some a)).listeners.toList ≠ []) =
      c.others.keys.filter fun a => (c.database (some a)).listeners.toList ≠ [] := by
    refine (c'.others.keys_ascending.filter _).eq_of_mem_iff (c.others.keys_ascending.filter _)
      fun a => ?_
    simp only [List.mem_filter, decide_eq_true_eq]
    constructor
    · rintro ⟨-, ha⟩
      rw [h] at ha
      exact ⟨mem_keys_of_toList_ne_nil ha, ha⟩
    · rintro ⟨-, ha⟩
      rw [← h] at ha
      exact ⟨mem_keys_of_toList_ne_nil ha, ha⟩
  have hmain : c'.main.listeners.toList = c.main.listeners.toList := h none
  rw [recordsIn_eq, recordsIn_eq, hkeys, hmain]
  simp only [h]

theorem recordsIn_congr_listener? (h : ∀ a id, c'.listener? a id = c.listener? a id)
    (order : List String) : c'.recordsIn order = c.recordsIn order := by
  refine recordsIn_congr (fun a => ?_) order
  have hsame : (c'.database a).listeners.subscriptions = (c.database a).listeners.subscriptions :=
    Table.ext_find? (h a)
  rw [Registry.toList_eq, hsame, Registry.toList_eq]

end Congr

theorem records_eq_of_same {c' : Core} (hmain : c'.main = c.main) (hothers : c'.others = c.others) :
    c'.records = c.records := by
  have hsame : ∀ a, c'.database a = c.database a := by
    intro a
    cases a
    · exact hmain
    · rw [database, database?, hothers, database, database?]
  simp only [records, recordsIn, databases, hmain, hothers, hsame]

/-- Whatever the order, the records are the same. -/
theorem perm_recordsIn (c : Core) (order : List String) : (c.recordsIn order).Perm c.records :=
  (((perm_arrange order c.others.keys).map _).cons _).flatMap_right _

theorem mem_records {r : Log.Record} :
    r ∈ c.records ↔ ∃ address, r.database = Database.logName address ∧
      c.listener? address r.id = some ⟨r.location, r.client⟩ := by
  rw [records, recordsIn, List.mem_flatMap]
  constructor
  · rintro ⟨⟨address, d⟩, hd, hr⟩
    obtain ⟨l, hl, rfl⟩ := List.mem_map.mp hr
    refine ⟨address, rfl, ?_⟩
    rw [listener?_of_database? (mem_databases.mp hd)]
    exact Registry.mem_toList.mp hl
  · rintro ⟨address, hn, hl⟩
    obtain ⟨d, hd, hfind⟩ := exists_database?_of_listener? hl
    refine ⟨(address, d), mem_databases.mpr hd, List.mem_map.mpr ?_⟩
    refine ⟨⟨r.id, r.location, r.client⟩, Registry.mem_toList.mpr hfind, ?_⟩
    rw [recordOf, ← hn]

theorem Unambiguous.ne_defaultName (h : c.Unambiguous) {address : Option String} {id : UInt32}
    {s : Subscription} (hl : c.listener? address id = some s) :
    address ≠ some Database.defaultName := by
  rintro rfl
  obtain ⟨d, hd, -⟩ := exists_database?_of_listener? hl
  rw [database?, h] at hd
  cases hd

/-- A record is that of a listener in the database that its name stands for. -/
theorem Unambiguous.mem_records (h : c.Unambiguous) {r : Log.Record} :
    r ∈ c.records ↔
      c.listener? (Database.ofLogName r.database) r.id = some ⟨r.location, r.client⟩ := by
  rw [Core.mem_records]
  constructor
  · rintro ⟨address, hn, hl⟩
    rwa [hn, Database.ofLogName_logName (h.ne_defaultName hl)]
  · intro hl
    exact ⟨_, (Database.logName_ofLogName _).symm, hl⟩

theorem Unambiguous.recordOf_mem_records (h : c.Unambiguous) {address : Option String}
    (ha : address ≠ some Database.defaultName) {l : Listener} :
    recordOf address l ∈ c.records ↔ c.listener? address l.id = some ⟨l.location, l.client⟩ := by
  rw [h.mem_records, recordOf, Database.ofLogName_logName ha]

theorem Unambiguous.pairwise_databases (h : c.Unambiguous) :
    (c.databases []).Pairwise fun a b =>
      Database.Precedes (Database.logName a.1) (Database.logName b.1) := by
  have hne : ∀ a ∈ c.others.keys, a ≠ Database.defaultName := by
    rintro a ha rfl
    rw [Table.mem_keys, h] at ha
    cases ha
  rw [databases, arrange, List.pairwise_cons, List.forall_mem_map, List.pairwise_map]
  refine ⟨fun a ha => ⟨hne a ha, .inl rfl⟩, ?_⟩
  exact c.others.keys_ascending.imp_of_mem fun {a b} _ hb hlt => ⟨hne b hb, .inr hlt⟩

theorem Unambiguous.pairwise_records (h : c.Unambiguous) :
    c.records.Pairwise Log.Record.Precedes := by
  rw [records, recordsIn, List.pairwise_flatMap]
  constructor
  · rintro ⟨address, d⟩ -
    rw [List.pairwise_map]
    exact d.listeners.ascending_toList.imp fun hlt => .inr ⟨rfl, hlt⟩
  · refine h.pairwise_databases.imp fun {row row'} hlt r hr s hs => ?_
    obtain ⟨l, -, rfl⟩ := List.mem_map.mp hr
    obtain ⟨l', -, rfl⟩ := List.mem_map.mp hs
    exact .inl hlt

theorem Unambiguous.nodup_records (h : c.Unambiguous) : c.records.Nodup :=
  h.pairwise_records.nodup

theorem Unambiguous.recordsIn_eq {c' : Core} (h : c.Unambiguous) (h' : c'.Unambiguous)
    (hmem : ∀ r, r ∈ c'.records ↔ r ∈ c.records) (order : List String) :
    c'.recordsIn order = c.recordsIn order := by
  have hsub : ∀ {c c' : Core}, c.Unambiguous → c'.Unambiguous →
      (∀ r, r ∈ c.records → r ∈ c'.records) → ∀ {a id s}, c.listener? a id = some s →
        c'.listener? a id = some s := by
    intro c c' h h' hmem a id s hs
    have hr := hmem (recordOf a ⟨id, s.location, s.client⟩) (Core.mem_records.mpr ⟨a, rfl, hs⟩)
    rwa [h'.recordOf_mem_records (h.ne_defaultName hs)] at hr
  refine recordsIn_congr_listener? (fun a id => Option.ext fun s => ?_) order
  exact ⟨hsub h' h fun r => (hmem r).mp, hsub h h' fun r => (hmem r).mpr⟩

/-! ## Databases that are not open -/

/-- A database that is not open is looked up as an open one with nothing in it. -/
theorem lookup_eq (c : Core) (address : Option String) (key : String) :
    c.lookup address key =
      if c.inShutdown then .error .inShutdown
      else
        match (c.database address).lookup key with
        | .error fault => .error (.ofKeyFault key fault)
        | .ok value => .ok value := by
  unfold lookup database
  cases c.database? address with
  | some d => rfl
  | none =>
    simp only [Option.getD_none, Database.lookup]
    cases Key.fault? key <;> rfl

theorem unsubscribe_eq (c : Core) (address : Option String) (id : UInt32) :
    c.unsubscribe address id = c.guarded (
      match (c.database address).listeners.get? id with
      | none => (.ok (), c)
      | some l => (.ok (), (c.setDatabase address { c.database address with
          listeners := (c.database address).listeners.erase id }).logChange
            (.removeListener (recordOf address l)))) := by
  unfold unsubscribe database
  cases c.database? address with
  | none => rfl
  | some d =>
    simp only [Registry.unsubscribe, Option.getD_some]
    cases h : d.listeners.get? id with
    | none => rfl
    | some l => rw [← Registry.id_of_find? h]

/-! ## What operations do to the listeners -/

theorem database_setDatabase (c : Core) (address : Option String) (d : Database)
    (a : Option String) :
    (c.setDatabase address d).database a = if a = address then d else c.database a := by
  cases address <;> cases a <;> simp only [setDatabase, database, database?, Table.find?_insert]
  · rfl
  · rw [if_neg (Option.some_ne_none _)]
  · rw [if_neg (Option.some_ne_none _).symm]
  · simp only [Option.some.injEq]
    split <;> rfl

theorem listener?_setDatabase (c : Core) (address : Option String) (d : Database)
    (a : Option String) (id : UInt32) :
    (c.setDatabase address d).listener? a id =
      if a = address then d.listeners.subscriptions.find? id else c.listener? a id := by
  rw [listener?, database_setDatabase]
  split <;> rfl

theorem listener?_setDatabase_same {address : Option String} {d : Database}
    (h : d.listeners = (c.database address).listeners) (a : Option String) (id : UInt32) :
    (c.setDatabase address d).listener? a id = c.listener? a id := by
  rw [listener?_setDatabase]
  split
  · rename_i ha; rw [ha, listener?, h]
  · rfl

theorem log_setDatabase (c : Core) (address : Option String) (d : Database) :
    (c.setDatabase address d).log = c.log ∧ (c.setDatabase address d).disk = c.disk := by
  cases address <;> exact ⟨rfl, rfl⟩

theorem clients_setDatabase (c : Core) (address : Option String) (d : Database) :
    (c.setDatabase address d).clients = c.clients := by
  cases address <;> rfl

theorem Unambiguous.setDatabase (h : c.Unambiguous) {address : Option String}
    (ha : address ≠ some Database.defaultName) (d : Database) :
    (c.setDatabase address d).Unambiguous := by
  cases address with
  | none => exact h
  | some a =>
    rw [Unambiguous, Core.setDatabase, Table.find?_insert, if_neg]
    · exact h
    · rintro rfl; exact ha rfl

theorem records_congr {c c' : Core} (h : c.Unambiguous) (h' : c'.Unambiguous)
    (heq : ∀ a id, c'.listener? a id = c.listener? a id) (r : Log.Record) :
    r ∈ c'.records ↔ r ∈ c.records := by
  rw [h.mem_records, h'.mem_records, heq]

theorem database_mapDatabases (c : Core) {f : Database → Database} (hf : f .empty = .empty)
    (address : Option String) : (c.mapDatabases f).database address = f (c.database address) := by
  cases address with
  | none => rfl
  | some a =>
    simp only [mapDatabases, database, database?, Table.find?_mapValues]
    cases c.others.find? a
    · exact hf.symm
    · rfl

theorem databases_mapDatabases (c : Core) {f : Database → Database} (hf : f .empty = .empty)
    (order : List String) :
    (c.mapDatabases f).databases order = (c.databases order).map fun (a, d) => (a, f d) := by
  have hkeys : (c.mapDatabases f).others.keys = c.others.keys := Table.keys_mapValues _ _
  simp only [databases, hkeys, database_mapDatabases c hf, List.map_cons, List.map_map]
  rfl

theorem recordsIn_removeClient (c : Core) (order : List String) (client : String) :
    (c.mapDatabases fun d =>
      { d with listeners := (d.listeners.removeClient client).2 }).recordsIn order =
        (c.recordsIn order).filter (·.client ≠ client) := by
  rw [recordsIn, databases_mapDatabases c rfl, recordsIn, List.flatMap_map, List.filter_flatMap]
  refine congrArg (List.flatMap · _) (funext ?_)
  rintro ⟨address, d⟩
  simp only [Registry.toList_removeClient, List.filter_map]
  rfl

def recordsOf (c : Core) (order : List String) (client : String) : List Log.Record :=
  (c.recordsIn order).filter (·.client = client)

theorem dropListeners_eq (c : Core) (order : List String) (client : String) :
    c.dropListeners order client =
      (c.mapDatabases fun d =>
        { d with listeners := (d.listeners.removeClient client).2 }).logChanges
          ((c.recordsOf order client).map .removeListener) := by
  rw [dropListeners, recordsOf, recordsIn, List.filter_flatMap]
  simp only [Registry.fst_removeClient, List.filter_map]
  rfl

theorem Unambiguous.mapDatabases (h : c.Unambiguous) (f : Database → Database) :
    (c.mapDatabases f).Unambiguous := by
  rw [Unambiguous, Core.mapDatabases, Table.find?_mapValues, h]
  rfl

end Core

end ConfigDaemon
