import ConfigDaemon.Proofs.Core.Telling

/-! # What a daemon is told between two starts

Each act other than a compaction tells the log just what it changed: a client that came or went, a
listener that came or went, or nothing. A sweep tells of everything that it forgets.
-/

namespace ConfigDaemon.Core

open Log

/-- What may be asked of a daemon between two starts, by callers and by the housekeeping. -/
inductive Act
  | addClient (client : String)
  | removeClient (client : String)
  | obtain (address : Option String)
  | subscribe (address : Option String) (location client : String)
  | unsubscribe (address : Option String) (id : UInt32)
  | set (address : Option String) (key value : String)
  | unset (address : Option String) (key : String)
  | lookup (address : Option String) (key : String)
  /-- A sweep that finds the clients alive which pass the test. -/
  | sweep (order : List String) (ping : String → Bool)
  | compact (order : List String)
  | compactIfNeeded (order : List String)
  /-- The log's handle was last used `elapsed` seconds ago. -/
  | closeIdleLog (elapsed : Nat)

def act (c : Core) : Act → Core
  | .addClient client => (c.addClient client).2
  | .removeClient client => (c.removeClient client).2
  | .obtain address => (c.obtainDatabase address).2
  | .subscribe address location client => (c.subscribe address location client).2
  | .unsubscribe address id => (c.unsubscribe address id).2
  | .set address key value => (c.set address key value).2
  | .unset address key => (c.unset address key).2
  | .lookup _ _ => c
  | .sweep order ping => (c.sweep order ping).2
  | .compact order => (c.compact order).2
  | .compactIfNeeded order => (c.compactIfNeeded order).2
  | .closeIdleLog elapsed => (c.closeIdleLog elapsed).2

def live (c : Core) (acts : List Act) : Core :=
  acts.foldl act c

/-- What every one of some acts keeps is so after all of them. -/
theorem live_induction {P : Core → Prop} {allowed : Act → Prop}
    (hact : ∀ c a, P c → allowed a → P (c.act a)) {c : Core} (hc : P c) {acts : List Act}
    (hacts : ∀ a ∈ acts, allowed a) : P (c.live acts) := by
  induction acts generalizing c with
  | nil => exact hc
  | cons a acts ih =>
    exact ih (hact c a hc (hacts a List.mem_cons_self)) fun b hb =>
      hacts b (List.mem_cons_of_mem _ hb)

/-- An address that the log can hold and that is not its name for the default database. -/
def PlainAddress (address : Option String) : Prop :=
  ∀ a ∈ address, a ≠ "" ∧ '\n' ∉ a.toList ∧ a ≠ Database.defaultName

/-- The names that an act brings in can stand in the log. -/
def Act.Plain : Act → Prop
  | .addClient client => '\n' ∉ client.toList
  | .subscribe address _ client => PlainAddress address ∧ '\n' ∉ client.toList
  | .obtain address | .set address _ _ | .unset address _ => PlainAddress address
  | _ => True

def Compacts (c : Core) : Act → Prop
  | .compact _ => True
  | .compactIfNeeded _ => c.needsCompaction = true
  | _ => False

def Act.Brings : Act → Log.Entry → Prop
  | .addClient client, .addClient a => a = client ∧ Client.isAddress a = true
  | .subscribe address location client, .addListener r =>
    r.database = Database.logName address ∧ r.location = location ∧ r.client = client ∧ r.Valid
  | _, _ => False

theorem Act.Brings.valid {a : Act} {e : Log.Entry} (h : a.Brings e) : e.Valid := by
  cases a <;> cases e <;> first | exact h.elim | exact h.2 | exact h.2.2.2

/-- The log has been told what changed, and of the kind of `came` is what came. -/
def Logged (came : Log.Entry → Prop) (c c' : Core) : Prop :=
  ∃ es, (∀ e ∈ es, ¬ e.IsRemoval → came e) ∧ Told c es c'

/-- The log was given what changed, whether it could take it or not, and of the kind of `came` is
what came. -/
def Reports (came : Log.Entry → Prop) (c c' : Core) : Prop :=
  ∃ es, (∀ e ∈ es, ¬ e.IsRemoval → came e) ∧ Reported c es c'

def Withdrawn (c c' : Core) : Prop :=
  ∃ es, (∀ e ∈ es, e.IsRemoval) ∧ Reported c es c'

variable {came : Log.Entry → Prop} {c c' c'' : Core}

theorem Withdrawn.reports : Withdrawn c c' → Reports came c c' := by
  rintro ⟨es, hes, h⟩
  exact ⟨es, fun e he hadd => (hadd (hes e he)).elim, h⟩

theorem reports_of_reported_nil (h : Reported c [] c') : Reports came c c' :=
  ⟨[], List.forall_mem_nil _, h⟩

theorem reports_refl (hu : c.Unambiguous) : Reports came c c :=
  reports_of_reported_nil (reported_refl hu)

theorem Reports.logged (hc : c.Sound) : Reports came c c' → Logged came c c' := by
  rintro ⟨es, hes, h⟩
  exact ⟨es, hes, h.told hc⟩

theorem Logged.valid : Logged came c c' → c.Valid → (∀ e, came e → e.Valid) → c'.Valid := by
  rintro ⟨es, hes, h⟩ hc hcame
  exact h.valid hc fun e he hadd => hcame e (hes e he hadd)

theorem Withdrawn.unambiguous : Withdrawn c c' → c'.Unambiguous := by
  rintro ⟨es, -, h⟩; exact h.unambiguous

theorem withdrawn_refl (hu : c.Unambiguous) : Withdrawn c c :=
  ⟨[], List.forall_mem_nil _, reported_refl hu⟩

theorem Withdrawn.trans : Withdrawn c c' → Withdrawn c' c'' → Withdrawn c c'' := by
  rintro ⟨es, hes, h⟩ ⟨fs, hfs, h'⟩
  exact ⟨es ++ fs, List.forall_mem_append.mpr ⟨hes, hfs⟩,
    h.trans h' fun e he hf => (hes e he).opposite (hfs _ hf)⟩

theorem PlainAddress.ne_defaultName {address : Option String} (h : PlainAddress address) :
    address ≠ some Database.defaultName := by
  rintro rfl
  exact (h _ rfl).2.2 rfl

theorem reports_guarded {α : Type} {op : Except Failure α × Core} (hu : c.Unambiguous)
    (h : Reports came c op.2) : Reports came c (c.guarded op).2 := by
  unfold guarded
  split
  · exact reports_refl hu
  · exact h

theorem holds_congr (hu : c.Unambiguous) (hu' : c'.Unambiguous) (hclients : c'.clients = c.clients)
    (hlisteners : ∀ a id, c'.listener? a id = c.listener? a id) (e : Log.Entry) :
    c'.Holds e ↔ c.Holds e := by
  have hr := records_congr hu hu' hlisteners
  cases e <;> simp only [Holds, hclients, hr]

theorem entered_setDatabase (c : Core) (address : Option String) (d : Database) :
    Entered c [] (c.setDatabase address d) := by
  cases address <;> exact entered_nil rfl rfl rfl

theorem reports_setDatabase (hu : c.Unambiguous) {address : Option String}
    (ha : address ≠ some Database.defaultName) {d : Database}
    (hd : d.listeners = (c.database address).listeners) :
    Reports came c (c.setDatabase address d) := by
  have hu' := hu.setDatabase ha d
  exact reports_of_reported_nil (reported_nil (entered_setDatabase c address d) hu'
    (holds_congr hu hu' (clients_setDatabase c address d) (listener?_setDatabase_same hd)))

/-! ## Clients -/

theorem resolveClient_eq (address : String) :
    resolveClient address =
      if Client.isAddress address then .ok address
      else .error (.failed ("can't resolve client '" ++ address ++ "': " ++
        (CallFault.protocol ("'" ++ address ++ "' is not a socket path")).message)) := by
  have hsockets : Transport.resolve address = Client.resolve address := rfl
  rw [resolveClient, hsockets, Client.resolve]
  by_cases h : Client.isAddress address = true
  · simp only [if_pos h]
  · simp only [if_neg h]

theorem eq_of_resolveClient {address client : String} (h : resolveClient address = .ok client) :
    client = address ∧ Client.isAddress address = true := by
  by_cases ha : Client.isAddress address = true
  · rw [resolveClient_eq, if_pos ha, Except.ok.injEq] at h
    exact ⟨h.symm, ha⟩
  · rw [resolveClient_eq, if_neg ha] at h
    cases h

theorem resolveClient_of_isAddress {address : String} (h : Client.isAddress address = true) :
    resolveClient address = .ok address := by
  rw [resolveClient_eq, if_pos h]

theorem ne_empty_of_isAddress {address : String} (h : Client.isAddress address = true) :
    address ≠ "" := by
  rintro rfl
  exact absurd h (by decide)

theorem tells_addClient {client : String} (hnew : client ∉ c.clients.keys)
    (hkeys : ∀ a, a ∈ c'.clients.keys ↔ a = client ∨ a ∈ c.clients.keys)
    (hrecords : ∀ r, r ∈ c'.records ↔ r ∈ c.records) (f : Log.Entry) :
    f = .addClient client ↔ Tells c c' f := by
  cases f with
  | addClient a =>
    simp only [Tells, Holds, hkeys, Log.Entry.addClient.injEq]
    constructor
    · rintro rfl; exact ⟨hnew, .inl rfl⟩
    · rintro ⟨ha, rfl | h⟩
      · rfl
      · exact absurd h ha
  | removeClient a =>
    simp only [Tells, Holds, hkeys, reduceCtorEq, false_iff]
    rintro ⟨ha, h⟩
    exact ha fun hm => h (.inr hm)
  | addListener r => exact iff_of_false (by rintro ⟨⟩) fun h => h.1 ((hrecords r).mp h.2)
  | removeListener r =>
    exact iff_of_false (by rintro ⟨⟩) fun h => h.1 fun hr => h.2 ((hrecords r).mpr hr)

theorem tells_removeClient {client : String} (hold : client ∈ c.clients.keys)
    (hkeys : ∀ a, a ∈ c'.clients.keys ↔ a ≠ client ∧ a ∈ c.clients.keys)
    (hrecords : ∀ r, r ∈ c'.records ↔ r ∈ c.records) (f : Log.Entry) :
    f = .removeClient client ↔ Tells c c' f := by
  have hgone : client ∉ c'.clients.keys := fun h => ((hkeys client).mp h).1 rfl
  have hback : ∀ a, a ∈ c.clients.keys ↔ a = client ∨ a ∈ c'.clients.keys := by
    intro a
    rw [hkeys]
    by_cases ha : a = client
    · simp [ha, hold]
    · simp [ha]
  rw [← tells_opposite, ← tells_addClient hgone hback (fun r => (hrecords r).symm)]
  exact (Log.Entry.opposite_eq_iff (f := .addClient client)).symm

theorem reports_welcome (hu : c.Unambiguous) {client : String}
    (ha : Client.isAddress client = true) (hline : '\n' ∉ client.toList) :
    Reports (Act.addClient client).Brings c (c.welcome client) := by
  unfold welcome
  split
  · exact reports_refl hu
  · rename_i hnew
    rw [Table.contains_iff_mem_keys] at hnew
    refine ⟨[.addClient client], List.forall_mem_singleton.mpr fun _ => ⟨rfl, ha⟩,
      reported_logChange (entered_nil rfl rfl rfl) hu ?_
        (tells_addClient hnew (fun _ => Table.mem_keys_insert) fun _ => Iff.rfl)⟩
    intro _
    exact ⟨⟨List.forall_mem_singleton.mpr (ne_empty_of_isAddress ha), by rintro _ ⟨⟩⟩,
      List.forall_mem_singleton.mpr hline⟩

theorem withdrawn_dismiss (hu : c.Unambiguous) (client : String) :
    Withdrawn c (c.dismiss client) := by
  unfold dismiss
  split
  · rename_i hold
    rw [Table.contains_iff_mem_keys] at hold
    exact ⟨[.removeClient client], List.forall_mem_singleton.mpr trivial,
      reported_logChange (entered_nil rfl rfl rfl) hu (fun h => (h trivial).elim)
        (tells_removeClient hold (fun _ => Table.mem_keys_erase) fun _ => Iff.rfl)⟩
  · exact withdrawn_refl hu

theorem reports_addClient (hu : c.Unambiguous) {address : String}
    (hline : '\n' ∉ address.toList) :
    Reports (Act.addClient address).Brings c (c.addClient address).2 := by
  refine reports_guarded hu ?_
  split
  · exact reports_refl hu
  · rename_i client hr
    obtain ⟨rfl, ha⟩ := eq_of_resolveClient hr
    exact reports_welcome hu ha hline

theorem reports_removeClient (hu : c.Unambiguous) (client : String) :
    Reports came c (c.removeClient client).2 :=
  reports_guarded hu (withdrawn_dismiss hu client).reports

/-! ## Listeners -/

theorem eq_recordOf_iff {address : Option String} (ha : address ≠ some Database.defaultName)
    {l : Listener} {r : Log.Record} :
    r = recordOf address l ↔ Database.ofLogName r.database = address ∧ r.id = l.id ∧
      (⟨r.location, r.client⟩ : Subscription) = ⟨l.location, l.client⟩ := by
  constructor
  · rintro rfl
    exact ⟨Database.ofLogName_logName ha, rfl, rfl⟩
  · rintro ⟨hd, hi, hs⟩
    obtain ⟨id, database, location, client⟩ := r
    cases hs
    obtain rfl : id = l.id := hi
    obtain rfl : database = Database.logName address := by
      rw [← hd]; exact (Database.logName_ofLogName database).symm
    rfl

theorem tells_addListener (hu : c.Unambiguous) (hu' : c'.Unambiguous)
    (hclients : c'.clients = c.clients) {address : Option String}
    (ha : address ≠ some Database.defaultName) {l : Listener}
    (hnew : c.listener? address l.id = none)
    (hl : ∀ a id, c'.listener? a id =
      if a = address ∧ id = l.id then some ⟨l.location, l.client⟩ else c.listener? a id)
    (f : Log.Entry) : f = .addListener (recordOf address l) ↔ Tells c c' f := by
  cases f with
  | addClient a =>
    exact iff_of_false (by rintro ⟨⟩) fun h => h.1 (show a ∈ _ by rw [← hclients]; exact h.2)
  | removeClient a =>
    exact iff_of_false (by rintro ⟨⟩) fun h => h.1 (show a ∉ _ by rw [← hclients]; exact h.2)
  | addListener r =>
    rw [Log.Entry.addListener.injEq, eq_recordOf_iff ha, Tells, Holds, Holds, hu.mem_records,
      hu'.mem_records, hl]
    constructor
    · rintro ⟨hd, hi, hs⟩
      rw [if_pos ⟨hd, hi⟩, hd, hi, hnew, hs]
      exact ⟨(Option.some_ne_none _).symm, rfl⟩
    · rintro ⟨hn, hs⟩
      split at hs
      · rename_i h; exact ⟨h.1, h.2, (Option.some.inj hs).symm⟩
      · exact absurd hs hn
  | removeListener r =>
    rw [Tells, Holds, Holds, hu.mem_records, hu'.mem_records, hl]
    refine iff_of_false (by rintro ⟨⟩) ?_
    rintro ⟨hn, hs⟩
    rw [if_neg] at hs
    · exact hn hs
    · rintro ⟨hd, hi⟩
      rw [hd, hi, hnew] at hn
      exact hn (Option.some_ne_none _).symm

theorem tells_removeListener (hu : c.Unambiguous) (hu' : c'.Unambiguous)
    (hclients : c'.clients = c.clients) {address : Option String}
    (ha : address ≠ some Database.defaultName) {l : Listener}
    (hold : c.listener? address l.id = some ⟨l.location, l.client⟩)
    (hl : ∀ a id, c'.listener? a id =
      if a = address ∧ id = l.id then none else c.listener? a id)
    (f : Log.Entry) : f = .removeListener (recordOf address l) ↔ Tells c c' f := by
  have hgone : c'.listener? address l.id = none := (hl _ _).trans (if_pos ⟨rfl, rfl⟩)
  have hback : ∀ a id, c.listener? a id =
      if a = address ∧ id = l.id then some ⟨l.location, l.client⟩ else c'.listener? a id := by
    intro a id
    rw [hl]
    split
    · rename_i h
      rw [h.1, h.2, hold]
    · rfl
  rw [← tells_opposite, ← tells_addListener hu' hu hclients.symm ha hgone hback]
  exact (Log.Entry.opposite_eq_iff (f := .addListener (recordOf address l))).symm

theorem plain_of_fault?_eq_none {location : String} (h : Key.fault? location = none) :
    location ≠ "" ∧ '\n' ∉ location.toList := by
  rw [Key.fault?, Key.faultOf] at h
  split_ifs at h with hhead hroot hlast hadj hcontrol
  · refine ⟨?_, by rw [hroot]; decide⟩
    rintro rfl
    exact absurd hroot (by decide)
  · refine ⟨?_, fun hn => hcontrol (List.any_eq_true.mpr ⟨_, hn, by decide⟩)⟩
    rintro rfl
    exact hhead (by decide)

theorem recordable_recordOf {address : Option String} {id : UInt32} {location client : String}
    (ha : PlainAddress address) (hid : id ≠ 0) (hlocation : Key.fault? location = none)
    (hclient : Client.isAddress client = true) (hline : '\n' ∉ client.toList) :
    (Log.Entry.addListener (recordOf address ⟨id, location, client⟩)).Recordable := by
  obtain ⟨hlne, hlline⟩ := plain_of_fault?_eq_none hlocation
  have hname : Database.logName address ≠ "" ∧ '\n' ∉ (Database.logName address).toList := by
    cases address with
    | none => exact ⟨by decide, by decide⟩
    | some a => exact ⟨(ha a rfl).1, (ha a rfl).2.1⟩
  have hcne := ne_empty_of_isAddress hclient
  constructor
  · constructor
    · simp [Log.Entry.texts, recordOf, hname.1, hlne, hcne]
    · simp [Log.Entry.id?, recordOf, hid]
  · simp [Log.Entry.OneLine, Log.Entry.texts, recordOf, hname.2, hlline, hline]

theorem listener?_subscribed {address : Option String} {location client : String} {id : UInt32}
    {listeners : Registry}
    (h : (c.database address).listeners.subscribe location client = some (id, listeners))
    (a : Option String) (i : UInt32) :
    (c.setDatabase address { c.database address with listeners }).listener? a i =
      if a = address ∧ i = id then some ⟨location, client⟩ else c.listener? a i := by
  obtain ⟨-, rfl⟩ := Registry.subscribe_eq_some h
  rw [listener?_setDatabase]
  dsimp only
  rw [Registry.subscriptions_store, Table.find?_insert]
  by_cases ha : a = address
  · subst ha
    simp only [true_and, if_true]
    rfl
  · simp only [ha, false_and, if_false]

theorem reports_subscribe (hu : c.Unambiguous) {address : Option String}
    {location client : String} (ha : PlainAddress address) (hline : '\n' ∉ client.toList) :
    Reports (Act.subscribe address location client).Brings c
      (c.subscribe address location client).2 := by
  refine reports_guarded hu ?_
  split
  · exact reports_refl hu
  · exact reports_refl hu
  · rename_i client' hlocation hr
    obtain ⟨rfl, haddress⟩ := eq_of_resolveClient hr
    simp only
    split
    · exact reports_refl hu
    · rename_i id listeners hs
      have hne := ha.ne_defaultName
      have hu' := hu.setDatabase hne { c.database address with listeners }
      obtain ⟨hfresh, -⟩ := Registry.subscribe_eq_some hs
      obtain ⟨hid, hnone⟩ := Registry.freshId_spec hfresh
      refine ⟨[.addListener (recordOf address ⟨id, location, _⟩)],
        List.forall_mem_singleton.mpr fun _ => ⟨rfl, rfl, rfl, hlocation, haddress⟩,
        reported_logChange (entered_setDatabase c _ _) hu' ?_
          (tells_addListener hu hu' (clients_setDatabase c _ _) hne hnone
            (listener?_subscribed hs))⟩
      intro _
      exact recordable_recordOf ha hid hlocation haddress hline

/-- A subscription gets an identifier that is not in use, or changes nothing. -/
theorem subscribe_spec (c : Core) (address : Option String) (location client : String) :
    (∃ f, c.subscribe address location client = (.error f, c)) ∨
      ∃ id c', c.subscribe address location client = (.ok id, c') ∧
        c.listener? address id = none ∧ ∀ a i, c'.listener? a i =
          if a = address ∧ i = id then some ⟨location, client⟩ else c.listener? a i := by
  rw [subscribe, guarded]
  split
  · exact .inl ⟨_, rfl⟩
  split
  · exact .inl ⟨_, rfl⟩
  · exact .inl ⟨_, rfl⟩
  · rename_i client' _ hr
    obtain ⟨rfl, -⟩ := eq_of_resolveClient hr
    simp only
    split
    · exact .inl ⟨_, rfl⟩
    · rename_i id listeners hs
      obtain ⟨hfresh, -⟩ := Registry.subscribe_eq_some hs
      exact .inr ⟨id, _, rfl, (Registry.freshId_spec hfresh).2, listener?_subscribed hs⟩

theorem listener?_unsubscribed (c : Core) (address : Option String) (id : UInt32)
    (a : Option String) (i : UInt32) :
    (c.setDatabase address { c.database address with
        listeners := (c.database address).listeners.erase id }).listener? a i =
      if a = address ∧ i = id then none else c.listener? a i := by
  rw [listener?_setDatabase, Registry.subscriptions_erase, Table.find?_erase]
  by_cases ha : a = address
  · subst ha
    simp only [true_and, if_true]
    rfl
  · simp only [ha, false_and, if_false]

theorem reports_unsubscribe (hu : c.Unambiguous) (address : Option String) (id : UInt32) :
    Reports came c (c.unsubscribe address id).2 := by
  rw [unsubscribe_eq]
  refine reports_guarded hu ?_
  split
  · exact reports_refl hu
  · rename_i l hl
    rw [Registry.get?_eq] at hl
    obtain ⟨s, hs, rfl⟩ := Option.map_eq_some_iff.mp hl
    have hs : c.listener? address id = some s := hs
    have hne := hu.ne_defaultName hs
    have hu' := hu.setDatabase hne { c.database address with
      listeners := (c.database address).listeners.erase id }
    exact ⟨[.removeListener (recordOf address ⟨id, s.location, s.client⟩)],
      List.forall_mem_singleton.mpr fun h => (h trivial).elim,
      reported_logChange (entered_setDatabase c _ _) hu' (fun h => (h trivial).elim)
        (tells_removeListener hu hu' (clients_setDatabase c _ _) hne hs
          (listener?_unsubscribed c address id))⟩

/-! ## Sweeping -/

theorem withdrawn_dropListeners (hu : c.Unambiguous) (order : List String) (client : String) :
    Withdrawn c (c.dropListeners order client) := by
  have hu' := hu.mapDatabases fun d => { d with listeners := (d.listeners.removeClient client).2 }
  have hrecords := recordsIn_removeClient c [] client
  rw [dropListeners_eq]
  refine ⟨(c.recordsOf order client).map .removeListener, ?_,
    reported_logChanges (entered_nil rfl rfl rfl) hu' ?_ ?_ ?_⟩
  · intro e he
    obtain ⟨r, -, rfl⟩ := List.mem_map.mp he
    trivial
  · have hnodup := (c.perm_recordsIn order).nodup_iff.mpr hu.nodup_records
    exact (hnodup.filter _).map fun r r' h => Log.Entry.removeListener.inj h
  · intro e he hr
    obtain ⟨r, -, rfl⟩ := List.mem_map.mp he
    exact (hr trivial).elim
  · intro f
    cases f with
    | addClient a => exact iff_of_false (by simp) fun h => h.1 h.2
    | removeClient a => exact iff_of_false (by simp) fun h => h.1 h.2
    | addListener r =>
      refine iff_of_false (by simp) ?_
      simp only [Tells, Holds, records, hrecords, List.mem_filter]
      rintro ⟨hn, h, -⟩
      exact hn h
    | removeListener r =>
      have hmem := (c.perm_recordsIn order).mem_iff (a := r)
      simp only [records] at hmem
      simp only [Tells, Holds, records, hrecords, recordsOf, List.mem_filter, List.mem_map,
        Log.Entry.removeListener.injEq, exists_eq_right, decide_eq_true_eq, ne_eq, hmem]
      tauto

theorem withdrawn_forget (hu : c.Unambiguous) (order : List String) (client : String) :
    Withdrawn c (c.forget order client) := by
  have hu' : { c with couriers := c.couriers.erase client }.Unambiguous := hu
  have hdismiss : Withdrawn c ({ c with couriers := c.couriers.erase client }.dismiss client) := by
    obtain ⟨es, hes, h⟩ := withdrawn_dismiss hu' client
    exact ⟨es, hes, ⟨h.entered.written, h.entered.needs⟩, h.unambiguous, h.nodup, h.recordable,
      h.tells⟩
  exact hdismiss.trans (withdrawn_dropListeners hdismiss.unambiguous order client)

theorem withdrawn_sweep (hu : c.Unambiguous) (order : List String) (ping : String → Bool) :
    Withdrawn c (c.sweep order ping).2 := by
  have hall : ∀ (dead : List String) {c : Core}, c.Unambiguous →
      Withdrawn c (dead.foldl (forget order) c) := by
    intro dead
    induction dead with
    | nil => exact fun hu => withdrawn_refl hu
    | cons client dead ih =>
      intro c hu
      have h := withdrawn_forget hu order client
      exact h.trans (ih h.unambiguous)
  exact hall _ hu

/-! ## Values and the handle of the log -/

theorem reports_openDatabase (hu : c.Unambiguous) {address : Option String}
    (ha : PlainAddress address) : Reports came c (c.openDatabase address) :=
  reports_setDatabase hu ha.ne_defaultName rfl

theorem Reports.queueChange (h : Reports came c c') (address : Option String) (key : String)
    (value : Option String) : Reports came c (c'.queueChange address key value) := by
  obtain ⟨es, hes, h⟩ := h
  exact ⟨es, hes, ⟨h.entered.written, h.entered.needs⟩, h.unambiguous, h.nodup, h.recordable,
    h.tells⟩

theorem reports_obtain (hu : c.Unambiguous) {address : Option String} (ha : PlainAddress address) :
    Reports came c (c.obtainDatabase address).2 := by
  refine reports_guarded hu ?_
  split
  · exact reports_refl hu
  · exact reports_openDatabase hu ha

theorem reports_set (hu : c.Unambiguous) {address : Option String} (ha : PlainAddress address)
    (key value : String) : Reports came c (c.set address key value).2 := by
  refine reports_guarded hu ?_
  split
  · exact reports_openDatabase hu ha
  · rename_i changed d hd
    have h : Reports came c (c.setDatabase address d) :=
      reports_setDatabase hu ha.ne_defaultName (Database.listeners_of_set hd)
    simp only
    split
    · exact h.queueChange _ _ _
    · exact h

theorem reports_unset (hu : c.Unambiguous) {address : Option String} (ha : PlainAddress address)
    (key : String) : Reports came c (c.unset address key).2 := by
  refine reports_guarded hu ?_
  split
  · exact reports_openDatabase hu ha
  · rename_i old d hd
    have h : Reports came c (c.setDatabase address d) :=
      reports_setDatabase hu ha.ne_defaultName (Database.listeners_of_unset hd)
    simp only
    split
    · exact h.queueChange _ _ _
    · exact h

theorem reports_closeIdleLog (hu : c.Unambiguous) (elapsed : Nat) :
    Reports came c (c.closeIdleLog elapsed).2 := by
  rw [closeIdleLog, Store.closeIfIdle]
  by_cases h : c.log.isOpen ∧ c.idleLimit ≤ elapsed
  · rw [if_pos h]
    have hclosed : Entered c [] { c with log := c.log.close } :=
      ⟨.close .refl, (Bool.or_false _).symm⟩
    refine reports_of_reported_nil (reported_nil hclosed hu fun e => ?_)
    cases e <;> rfl
  · rw [if_neg h]
    exact reports_refl hu

/-! ## Acts -/

theorem compactIfNeeded_of_needed (h : c.needsCompaction = true) (order : List String) :
    c.compactIfNeeded order = ((c.compact order).1.map fun _ => true, (c.compact order).2) := by
  rw [compactIfNeeded, if_pos h]
  rcases c.compact order with ⟨_ | _, c'⟩ <;> rfl

theorem compactIfNeeded_of_not_needed (h : c.needsCompaction = false) (order : List String) :
    c.compactIfNeeded order = (.ok false, c) := by
  rw [compactIfNeeded, h]
  rfl

/-- An act that does not replace the log gives it what it changes. -/
theorem reports_act (hu : c.Unambiguous) {a : Act} (ha : a.Plain) (hcompact : ¬ c.Compacts a) :
    Reports a.Brings c (c.act a) := by
  cases a with
  | addClient client => exact reports_addClient hu ha
  | removeClient client => exact reports_removeClient hu client
  | obtain address => exact reports_obtain hu ha
  | subscribe address location client => exact reports_subscribe hu ha.1 ha.2
  | unsubscribe address id => exact reports_unsubscribe hu address id
  | set address key value => exact reports_set hu ha key value
  | unset address key => exact reports_unset hu ha key
  | lookup address key => exact reports_refl hu
  | sweep order ping => exact (withdrawn_sweep hu order ping).reports
  | compact order => exact (hcompact trivial).elim
  | compactIfNeeded order =>
    rw [act, compactIfNeeded_of_not_needed (Bool.eq_false_iff.mpr hcompact)]
    exact reports_refl hu
  | closeIdleLog elapsed => exact reports_closeIdleLog hu elapsed

theorem logged_act (hc : c.Sound) {a : Act} (ha : a.Plain) (hcompact : ¬ c.Compacts a) :
    Logged a.Brings c (c.act a) :=
  (reports_act hc.unambiguous ha hcompact).logged hc

theorem act_of_compacts {a : Act} (h : c.Compacts a) :
    ∃ order, c.act a = (c.compact order).2 := by
  cases a with
  | compact order => exact ⟨order, rfl⟩
  | compactIfNeeded order => exact ⟨order, by rw [act, compactIfNeeded_of_needed h]⟩
  | _ => exact h.elim

end ConfigDaemon.Core
