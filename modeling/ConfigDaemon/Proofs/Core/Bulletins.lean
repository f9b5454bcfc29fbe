import ConfigDaemon.Proofs.Core.Moves
import ConfigDaemon.Proofs.Key

/-! # Change by change

A client that is awake gets, for one change after the other, one notification for each of its
subscriptions at the key or at an ancestor of it. Nothing else reaches it, and nothing is left out.
-/

namespace ConfigDaemon.Core

def Event.wanted : Event → Option Change
  | .ask _ (.set address key value) => some ⟨address, key, some value⟩
  | .ask _ (.unset address key) => some ⟨address, key, none⟩
  | _ => none

def stored (c : Core) (ch : Change) : Option String :=
  (c.database ch.database).values.find? ch.key

/-- The change that an event makes. One that leaves the stored value as it was is none. -/
def commit? (c : Core) (e : Event) : Option Change :=
  match e.wanted with
  | none => none
  | some ch => if (c.meet e).stored ch = c.stored ch then none else some ch

def commits : Core → List Event → List (Core × Change)
  | _, [] => []
  | c, e :: es => ((c.commit? e).map (c, ·)).toList ++ commits (c.meet e) es

/-- The notifications are those of a change for one client: one for each of its subscriptions to the
database whose location is the key or an ancestor of it, in ascending order of identifiers. -/
structure IsBulletin (c : Core) (client : String) (ch : Change) (ns : List Notification) :
    Prop where
  ascending : ns.Pairwise (·.id < ·.id)
  mem_iff : ∀ n, n ∈ ns ↔ n.database = ch.database ∧ n.key = ch.key ∧ n.value = ch.value ∧
    ∃ s, c.listener? ch.database n.id = some s ∧ s.client = client ∧
      Key.components s.location <+: Key.components ch.key

variable {c c' : Core} {client : String} {ch : Change} {e : Event} {es : List Event}

/-! ## Changes -/

theorem stored_of_commits (h : Commits ch c c') : c'.stored ch = ch.value := by
  rw [stored, h.values, if_pos rfl, Table.find?_written, if_pos rfl]

theorem stored_of_ne (ping : String → Bool) (h : Quiet ping c c' ∨ Commits ch c c')
    (hne : c'.stored ch ≠ c.stored ch) : c'.stored ch = ch.value := by
  rcases h with h | h
  · exact absurd (congrArg (Table.find? · ch.key) (h.values ch.database)) hne
  · exact stored_of_commits h

theorem commit?_ask (c : Core) (peers : Peers) (op : Operation) :
    c.commit? (.ask peers op) = c.committed peers op := by
  cases op with
  | set address key value =>
    refine ite_congr rfl (fun _ => rfl) fun hne => ?_
    exact congrArg (fun v => some (Change.mk address key v))
      (stored_of_ne peers.ping (set_spec key value) hne).symm
  | unset address key =>
    refine ite_congr rfl (fun _ => rfl) fun hne => ?_
    exact congrArg (fun v => some (Change.mk address key v))
      (stored_of_ne peers.ping (unset_spec key) hne).symm
  | _ => rfl

theorem announced_eq (client : String) (c : Core) (e : Event) :
    c.announced client e = (c.commit? e).elim [] (c.told client) := by
  cases e with
  | ask peers op => rw [commit?_ask, announced]
  | deliver | disturb => rfl

theorem noticed_eq_flatMap (client : String) (c : Core) (es : List Event) :
    noticed client c es = (c.commits es).flatMap fun row => row.1.told client row.2 := by
  induction es generalizing c with
  | nil => rfl
  | cons e es ih =>
    rw [noticed, commits, List.flatMap_append, ih, announced_eq]
    cases c.commit? e with
    | none => rfl
    | some ch => rw [Option.map_some, Option.toList_some, List.flatMap_singleton, Option.elim_some]

theorem stored_openDatabase (c : Core) (address : Option String) (ch : Change) :
    (c.openDatabase address).stored ch = c.stored ch := by
  rw [stored, openDatabase, database_setDatabase]
  split
  · rename_i ha; rw [stored, ha]
  · rfl

theorem stored_of_fault {fault : Key.Fault} (hfault : Key.fault? ch.key = some fault)
    (hwanted : e.wanted = some ch) : (c.meet e).stored ch = c.stored ch := by
  unfold Event.wanted at hwanted
  split at hwanted
  · cases hwanted
    simp only [meet, perform, set, guarded, Database.set, hfault]
    split
    · rfl
    · exact stored_openDatabase c _ _
  · cases hwanted
    simp only [meet, perform, unset, guarded, Database.unset, hfault]
    split
    · rfl
    · exact stored_openDatabase c _ _
  · cases hwanted

theorem fault?_of_commit? (h : c.commit? e = some ch) : Key.fault? ch.key = none := by
  unfold commit? at h
  split at h
  · cases h
  · rename_i hwanted
    split at h
    · cases h
    · rename_i hne
      cases h
      cases hfault : Key.fault? ch.key with
      | none => rfl
      | some fault => exact absurd (stored_of_fault hfault hwanted) hne

/-- Before a change that is made, the daemon has met the events up to it. -/
theorem exists_of_mem_commits {row : Core × Change} (h : row ∈ c.commits es) :
    ∃ seen e, seen ++ [e] <+: es ∧ row.1 = c.through seen ∧ row.1.commit? e = some row.2 := by
  induction es generalizing c with
  | nil => cases h
  | cons e es ih =>
    rcases List.mem_append.mp h with h | h
    · obtain ⟨ch, hch, rfl⟩ := Option.map_eq_some_iff.mp (Option.mem_toList.mp h)
      exact ⟨[], e, by simp, rfl, hch⟩
    · obtain ⟨seen, e', hseen, hrow, hcommit⟩ := ih h
      exact ⟨e :: seen, e', (List.prefix_cons_inj e).mpr hseen, hrow, hcommit⟩

/-! ## Bulletins -/

/-- The listeners that a change concerns are those at the key or at an ancestor of it. -/
theorem isBulletin_told (hlocations : ∀ l ∈ (c.database ch.database).listeners.toList,
      Key.fault? l.location = none) (hkey : Key.fault? ch.key = none) (client : String) :
    IsBulletin c client ch (c.told client ch) where
  ascending := List.pairwise_map.mpr
    ((Registry.ascending_toList _).sublist (List.filter_sublist.trans List.filter_sublist))
  mem_iff n := by
    rw [told, List.mem_map]
    constructor
    · rintro ⟨l, hl, rfl⟩
      obtain ⟨hmatching, hclient⟩ := List.mem_filter.mp hl
      obtain ⟨hlistener, hbelow⟩ := List.mem_filter.mp hmatching
      have hs := Registry.mem_toList.mp hlistener
      exact ⟨rfl, rfl, rfl, _, hs, of_decide_eq_true hclient,
        (Key.isBelow_iff_components (hlocations l hlistener) hkey).mp hbelow⟩
    · obtain ⟨database, id, key, value⟩ := n
      rintro ⟨rfl, rfl, rfl, s, hs, hclient, hprefix⟩
      have hlistener : ⟨id, s.location, s.client⟩ ∈ (c.database ch.database).listeners.toList :=
        Registry.mem_toList.mpr hs
      have hbelow := (Key.isBelow_iff_components (hlocations _ hlistener) hkey).mpr hprefix
      exact ⟨⟨id, s.location, s.client⟩, List.mem_filter.mpr
        ⟨List.mem_filter.mpr ⟨hlistener, hbelow⟩, decide_eq_true hclient⟩, rfl⟩

theorem IsBulletin.unique {ns ms : List Notification} (h : IsBulletin c client ch ns)
    (h' : IsBulletin c client ch ms) : ns = ms := by
  have hnodup : ∀ {ns : List Notification}, ns.Pairwise (·.id < ·.id) → ns.Nodup := fun h =>
    h.imp fun hlt he => absurd (he ▸ hlt) (UInt32.lt_irrefl _)
  have hperm : ns.Perm ms :=
    (List.perm_ext_iff_of_nodup (hnodup h.ascending) (hnodup h'.ascending)).mpr fun n =>
      (h.mem_iff n).trans (h'.mem_iff n).symm
  exact hperm.eq_of_pairwise (fun a b _ _ hab hba => absurd (UInt32.lt_trans hab hba)
    (UInt32.lt_irrefl _)) h.ascending h'.ascending

/-! ## Couriers of clients that are awake -/

/-- No call to the client goes on for ever. -/
def Free (client : String) (c : Core) : Prop :=
  ∀ courier, c.couriers.find? client = some courier → courier.stuck = false

theorem Free.queueChange (h : Free client c) (address : Option String) (key : String)
    (value : Option String) : Free client (c.queueChange address key value) := by
  unfold Free at h ⊢
  unfold Core.queueChange
  dsimp only
  generalize c.couriers = t at h
  induction (c.database address).listeners.matching key generalizing t with
  | nil => exact h
  | cons l ls ih =>
    rw [List.foldl_cons]
    refine ih _ fun courier hc => ?_
    rw [Table.find?_insert] at hc
    split at hc
    · rename_i hl
      cases hc
      cases hfind : t.find? l.client with
      | none => rfl
      | some courier => exact h courier (hl ▸ hfind)
    · exact h courier hc

theorem Move.free {ping : String → Bool} (h : Move ping c c') (hc : Free client c) :
    Free client c' := by
  cases h with
  | aside _ _ couriers _ => rwa [Free, couriers]
  | store address _ | unsubscribe address _ => rwa [Free, couriers_setDatabase]
  | subscribe address _ _ _ => rwa [Free, couriers_setDatabase]
  | removeClient _ => exact hc
  | queue address value _ => exact hc.queueChange address _ value
  | @drop other _ =>
    intro courier hfind
    rw [Table.find?_erase] at hfind
    split at hfind
    · cases hfind
    · exact hc courier hfind

theorem Moves.free {ping : String → Bool} (h : Moves ping c c') (hc : Free client c) :
    Free client c' := by
  induction h with
  | refl => exact hc
  | tail _ h ih => exact h.free ih

theorem Free.meet (h : Free client c) (he : e.Awake client) : Free client (c.meet e) := by
  cases e with
  | ask peers op => exact (moves_perform peers c op).free h
  | deliver peers =>
    intro courier hfind
    rw [Core.meet, Core.deliver, Table.find?_mapValues] at hfind
    obtain ⟨old, hold, rfl⟩ := Option.map_eq_some_iff.mp hfind
    rw [Courier.deliver, h old hold, if_neg (by decide), Courier.handOver_of_taken he]
  | disturb disk => exact h

theorem Free.through (h : Free client c) (hes : ∀ e ∈ es, e.Awake client) :
    Free client (c.through es) := by
  induction es generalizing c with
  | nil => exact h
  | cons e es ih =>
    obtain ⟨he, hes⟩ := List.forall_mem_cons.mp hes
    exact ih (h.meet he) hes

/-- A client that is awake takes all that waits for it. -/
theorem Free.taken_deliver (h : Free client c) {peers : Peers}
    (hpeers : ∀ n, peers.notify client n = .taken) :
    c.taken client (.deliver peers) = c.queued client := by
  rw [Core.taken_deliver, queued]
  cases hfind : c.couriers.find? client with
  | none => rfl
  | some courier =>
    rw [Option.map_some, Option.map_some, Courier.deliver, h courier hfind, if_neg (by decide),
      Courier.handOver_of_taken hpeers]

theorem received_append (client : String) (c : Core) (es fs : List Event) :
    received client c (es ++ fs) = received client c es ++ received client (c.through es) fs := by
  induction es generalizing c with
  | nil => rfl
  | cons e es ih =>
    rw [List.cons_append, received, received, ih, List.append_assoc]
    rfl

theorem kept_locations : Registry.Kept fun r => ∀ l ∈ r.toList, Key.fault? l.location = none where
  empty := nofun
  subscribe hr hlocation _ hsome l hl := by
    rcases Registry.mem_toList_subscribe hsome hl with rfl | hl
    · exact hlocation
    · exact hr l hl
  unsubscribe _ hr l hl := hr l (Registry.mem_toList_of_erase hl)
  removeClient client hr l hl := by
    rw [Registry.toList_removeClient] at hl
    exact hr l (List.mem_filter.mp hl).1

/-- A client that is awake all along is handed over, or still waits for, the notifications of one
change after the other in the order in which they are made, and once it is given the chance it has
them all. For each change that is one notification for each of its subscriptions concerned. -/
theorem delivered_change_by_change (place : Log.Place) (idleLimit : Nat) (disk : Disk)
    {client : String} {es : List Event} (hawake : ∀ e ∈ es, e.Awake client) :
    let c := start place idleLimit disk
    let all := (c.commits es).flatMap fun row => row.1.told client row.2
    received client c es ++ (c.through es).queued client = all ∧
      (∀ peers : Peers, (∀ n, peers.notify client n = .taken) →
        received client c (es ++ [.deliver peers]) = all) ∧
      ∀ before ch, (before, ch) ∈ c.commits es → ∀ ns,
        IsBulletin before client ch ns ↔ ns = before.told client ch := by
  intro c all
  have hall : received client c es ++ (c.through es).queued client = all := by
    rw [received_append_queued hawake, noticed_eq_flatMap]
    rfl
  have hfree : Free client (c.through es) := Free.through nofun hawake
  refine ⟨hall, fun peers hpeers => ?_, fun before ch hrow ns => ?_⟩
  · rw [received_append, received, hfree.taken_deliver hpeers, received, List.append_nil, hall]
  · obtain ⟨seen, e, -, rfl, hcommit⟩ := exists_of_mem_commits hrow
    have hbulletin := isBulletin_told (registries_through kept_locations place idleLimit disk seen
      ch.database) (fault?_of_commit? hcommit) client
    constructor
    · exact fun h => h.unique hbulletin
    · rintro rfl
      exact hbulletin

/-- Two subscriptions of one client, one of another that vanishes, and changes at, below and beside
their locations, of which one is none. -/
theorem delivered_in_two_databases :
    let peers : Peers := ⟨fun _ => true, fun _ _ => true, fun _ _ => .taken⟩
    let later : Peers := { peers with ping := (· ≠ "/run/b") }
    let es : List Event :=
      [.ask peers (.subscribe none "/a" "/run/b"), .ask peers (.subscribe none "/a" "/run/c"),
        .ask peers (.subscribe (some "db") "/" "/run/c"), .ask peers (.subscribe none "/" "/run/c"),
        .ask peers (.set none "/a/k" "1"), .ask peers (.set (some "db") "/ab" "2"),
        .ask peers (.set none "/a/k" "1"), .deliver peers, .ask later (.sweep []),
        .ask later (.set none "/ab" "3"), .ask later (.unset none "/a/k")]
    let c := start ⟨"/var/confd", "saved"⟩ 60 .empty
    let all : List Notification :=
      [⟨none, 2, "/a/k", some "1"⟩, ⟨none, 3, "/a/k", some "1"⟩, ⟨some "db", 1, "/ab", some "2"⟩,
        ⟨none, 3, "/ab", some "3"⟩, ⟨none, 2, "/a/k", none⟩, ⟨none, 3, "/a/k", none⟩]
    (∀ e ∈ es, e.Awake "/run/c") ∧
      ((c.commits es).map (·.2) = [⟨none, "/a/k", some "1"⟩, ⟨some "db", "/ab", some "2"⟩,
        ⟨none, "/ab", some "3"⟩, ⟨none, "/a/k", none⟩]) ∧
      received "/run/c" c es ++ (c.through es).queued "/run/c" = all ∧
      received "/run/c" c (es ++ [.deliver later]) = all := by
  intro peers later es c all
  have hawake : ∀ e ∈ es, e.Awake "/run/c" := by
    have hlater : later.ping "/run/c" = true := by decide
    simp only [es, List.forall_mem_cons]
    exact ⟨rfl, rfl, rfl, rfl, rfl, rfl, rfl, fun _ => rfl, hlater, hlater, hlater, nofun⟩
  have hall : (c.commits es).flatMap (fun row => row.1.told "/run/c" row.2) = all := by
    decide +kernel
  obtain ⟨hwaiting, hdelivered, -⟩ :=
    delivered_change_by_change ⟨"/var/confd", "saved"⟩ 60 .empty hawake
  exact ⟨hawake, by decide +kernel, hwaiting.trans hall,
    (hdelivered later fun _ => rfl).trans hall⟩

end ConfigDaemon.Core
