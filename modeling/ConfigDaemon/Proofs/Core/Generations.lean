import ConfigDaemon.Core.Session
import ConfigDaemon.Proofs.Core.Mirror
import ConfigDaemon.Proofs.Core.Replay

/-! # Generations of the daemon

A daemon that starts takes up its log and compacts it. From then on the log mirrors its state until
it vanishes, so that the next one has the same clients and, under new identifiers, the same
listeners.
-/

namespace ConfigDaemon

theorem Table.ext_keys {t u : Table String Unit} (h : ∀ a, a ∈ t.keys ↔ a ∈ u.keys) : t = u := by
  refine Table.ext_find? fun a => Option.ext ?_
  rintro ⟨⟩
  have ha := h a
  rw [Table.mem_keys, Table.mem_keys, Option.isSome_iff_exists, Option.isSome_iff_exists] at ha
  constructor
  · intro ht
    obtain ⟨_, hu⟩ := ha.mp ⟨_, ht⟩
    exact hu
  · intro hu
    obtain ⟨_, ht⟩ := ha.mpr ⟨_, hu⟩
    exact ht

namespace Core

open Log

variable {c c' : Core}

/-- The listeners without their identifiers. -/
def interests (c : Core) : List (String × String × String) :=
  c.records.map fun r => (r.database, r.location, r.client)

/-! ## Room for identifiers -/

def countAt (address : Option String) (rs : List Log.Record) : Nat :=
  (rs.filter (Database.ofLogName ·.database = address)).length

theorem size_listeners (hu : c.Unambiguous) {address : Option String}
    (ha : address ≠ some Database.defaultName) :
    (c.database address).listeners.size = countAt address c.records := by
  have hperm : ((c.database address).listeners.toList.map (recordOf address)).Perm
      (c.records.filter (Database.ofLogName ·.database = address)) := by
    refine (List.perm_ext_iff_of_nodup ?_ (hu.nodup_records.filter _)).mpr fun r => ?_
    · refine List.Nodup.map (fun l l' he => ?_) (Registry.nodup_toList _)
      obtain ⟨-, hid, hs⟩ := (eq_recordOf_iff ha).mp he
      cases l
      cases l'
      cases hs
      exact congrArg (Listener.mk · _ _) hid
    · rw [List.mem_filter, decide_eq_true_eq, hu.mem_records, List.mem_map]
      constructor
      · rintro ⟨l, hl, he⟩
        obtain ⟨hd, hid, hs⟩ := (eq_recordOf_iff ha).mp he.symm
        rw [hd, hid, hs]
        exact ⟨Registry.mem_toList.mp hl, rfl⟩
      · rintro ⟨hl, hd⟩
        refine ⟨⟨r.id, r.location, r.client⟩, Registry.mem_toList.mpr ?_, ?_⟩
        · rw [hd] at hl
          exact hl
        · exact ((eq_recordOf_iff ha).mpr ⟨hd, rfl, rfl⟩).symm
  have hlength := hperm.length_eq
  rw [List.length_map, Registry.length_toList] at hlength
  exact hlength

/-- Identifiers that can be read back are fewer than there are numbers. -/
theorem countAt_records_lt (hc : c.Sound) {address : Option String}
    (ha : address ≠ some Database.defaultName) :
    countAt address c.records < UInt32.size := by
  have hzero : (0 : UInt32) ∉ (c.database address).listeners.subscriptions.keys := by
    intro h
    obtain ⟨s, hs⟩ := Option.isSome_iff_exists.mp (Table.mem_keys.mp h)
    have hmem : recordOf address ⟨0, s.location, s.client⟩ ∈ c.records :=
      (hc.unambiguous.recordOf_mem_records ha).mpr hs
    have hrec := hc.recordable (.addListener _) (mem_snapshot.mpr ⟨not_false, hmem⟩)
    exact hrec.complete.2 0 rfl rfl
  have hnodup : ((0 :: (c.database address).listeners.subscriptions.keys).map UInt32.toNat).Nodup :=
    (List.nodup_cons.mpr ⟨hzero, Table.nodup_keys _⟩).map fun _ _ h => UInt32.toNat_inj.mp h
  have hsub : (0 :: (c.database address).listeners.subscriptions.keys).map UInt32.toNat ⊆
      List.range UInt32.size := by
    intro n hn
    obtain ⟨id, -, rfl⟩ := List.mem_map.mp hn
    exact List.mem_range.mpr id.toNat_lt_size
  have hlength := (hnodup.subperm hsub).length_le
  rw [List.length_map, List.length_cons, List.length_range, Registry.length_keys] at hlength
  rw [← size_listeners hc.unambiguous ha]
  exact hlength

theorem countAt_append (address : Option String) (rs ss : List Log.Record) :
    countAt address (rs ++ ss) = countAt address rs + countAt address ss := by
  rw [countAt, countAt, countAt, List.filter_append, List.length_append]

theorem countAt_perm {rs ss : List Log.Record} (h : rs.Perm ss) (address : Option String) :
    countAt address rs = countAt address ss :=
  (h.filter _).length_eq

theorem countAt_pos (r : Log.Record) (rs : List Log.Record) :
    0 < countAt (Database.ofLogName r.database) (r :: rs) := by
  rw [countAt, List.filter_cons_of_pos (by simp)]
  exact Nat.succ_pos _

section Taken

variable {accepts : String → Rekeying → Bool} {r : Log.Record} {notice : Option Notice}
  (h : Restores accepts c r notice c') (hu : c.Unambiguous)

include h hu

theorem Restores.records_perm : c'.records.Perm (c.records ++ (renewed r notice).toList) := by
  have hdisjoint : c.records.Disjoint (renewed r notice).toList := by
    intro s hs hmem
    exact h.ne_of_mem_renewed hu (Option.mem_toList.mp hmem) hs rfl
  have hone : (renewed r notice).toList.Nodup := by
    cases renewed r notice with
    | none => exact .nil
    | some s => exact List.nodup_singleton s
  refine (List.perm_ext_iff_of_nodup h.unambiguous.nodup_records
    (hu.nodup_records.append hone hdisjoint)).mpr fun s => ?_
  rw [h.records, List.mem_append, Option.mem_toList]
  exact or_comm

theorem Restores.exists_renewed (hv : r.Valid) (haccepts : ∀ k, accepts r.client k = true)
    (hroom : countAt (Database.ofLogName r.database) c.records + 1 < UInt32.size) :
    ∃ id, renewed r notice = some { r with id } := by
  cases notice with
  | none =>
    have hhas : (c.database (Database.ofLogName r.database)).listeners.HasRoom := by
      rwa [Registry.HasRoom, size_listeners hu (Database.ofLogName_ne_defaultName _)]
    obtain ⟨id, hid⟩ := Registry.exists_freshId hhas
    rw [h.full hv rfl] at hid
    cases hid
  | some n =>
    obtain ⟨-, ha⟩ := h.noticed n rfl
    refine ⟨n.rekeying.newId, ?_⟩
    rw [renewed, Option.bind_some, ha, haccepts, if_pos rfl]

end Taken

/-- Every record is taken up when its client accepts it and there are identifiers for all. -/
theorem RestoresAll.interests_perm {accepts : String → Rekeying → Bool} {rs : List Log.Record}
    {notices : List Notice} (h : RestoresAll accepts c rs notices c') (hu : c.Unambiguous)
    (hrs : ∀ r ∈ rs, r.Valid ∧ ∀ k, accepts r.client k = true)
    (hroom : ∀ address, address ≠ some Database.defaultName →
      countAt address c.records + countAt address rs < UInt32.size) :
    c'.interests.Perm (c.interests ++ rs.map fun r => (r.database, r.location, r.client)) := by
  induction h with
  | nil => rw [List.map_nil, List.append_nil]
  | @cons c c' c'' r rs notice notices h _ ih =>
    obtain ⟨hv, haccepts⟩ := hrs r List.mem_cons_self
    -- the record that is tried counts, so that there is an identifier for it
    have hone := hroom _ (Database.ofLogName_ne_defaultName r.database)
    have hpos := countAt_pos r rs
    obtain ⟨id, hid⟩ := h.exists_renewed hu hv haccepts (by omega)
    have hperm := h.records_perm hu
    rw [hid, Option.toList_some] at hperm
    have hroom' : ∀ address, address ≠ some Database.defaultName →
        countAt address c'.records + countAt address rs < UInt32.size := by
      intro address ha
      have hcons : countAt address (r :: rs) = countAt address [r] + countAt address rs :=
        countAt_append address [r] rs
      have hsame : countAt address [{ r with id }] = countAt address [r] := by
        simp only [countAt, List.filter_cons]
        split <;> rfl
      rw [countAt_perm hperm, countAt_append, hsame, Nat.add_assoc, ← hcons]
      exact hroom address ha
    have hinterests : c'.interests.Perm (c.interests ++ [(r.database, r.location, r.client)]) := by
      have hmap := hperm.map fun r => (r.database, r.location, r.client)
      rwa [List.map_append] at hmap
    refine (ih h.unambiguous (fun s hs => hrs s (List.mem_cons_of_mem _ hs)) hroom').trans ?_
    rw [List.map_cons, ← List.singleton_append, ← List.append_assoc]
    exact hinterests.append_right _

/-! ## Starting -/

/-- A daemon that starts takes up what survives and compacts the log. -/
def boot (peers : Peers) (order : List String) (c : Core) : Core :=
  ((c.restore peers).2.compact order).2

/-- A daemon between two of its acts: its state is one that it let in itself, and the log tells of
just that state. -/
structure Settled (c : Core) : Prop where
  sound : c.Sound
  valid : c.Valid
  mirrored : c.Mirrored
  finished : Finished c.logContents

theorem Settled.act (h : c.Settled) {a : Act} (ha : a.Plain) : (c.act a).Settled := by
  obtain ⟨hm, hf⟩ := mirrored_act h.sound h.mirrored h.finished ha
  refine ⟨h.sound.act ha, ?_, hm, hf⟩
  by_cases hcompact : c.Compacts a
  · obtain ⟨order, hact⟩ := act_of_compacts hcompact
    obtain ⟨c', hrun, -, -, hholds, -⟩ := h.sound.compact order
    rw [hact, hrun]
    intro e he
    obtain ⟨hadd, hholds'⟩ := mem_snapshot.mp he
    exact h.valid e (mem_snapshot.mpr ⟨hadd, (hholds e).mp hholds'⟩)
  · exact (logged_act h.sound ha hcompact).valid h.valid fun e => Act.Brings.valid

/-- The daemon knows nobody yet and can use its log. -/
structure Fresh (c : Core) : Prop where
  ready : c.Ready
  compactable : c.Compactable
  clients : c.clients = .empty
  main : c.main = .empty
  others : c.others = .empty

theorem fresh_start {place : Place} {disk : Disk} (hd : Usable place disk) (idleLimit : Nat) :
    (start place idleLimit disk).Fresh :=
  ⟨⟨hd.writable, nofun⟩, hd, rfl, rfl, rfl⟩

theorem Fresh.blank (h : c.Fresh) : c.Blank :=
  ⟨h.clients, h.main, h.others⟩

theorem Fresh.unambiguous (h : c.Fresh) : c.Unambiguous :=
  h.blank.unambiguous

theorem Fresh.records (h : c.Fresh) : c.records = [] :=
  h.blank.records

structure TakesUp (peers : Peers) (c : Core) (notices : List Notice) (c' : Core) : Prop where
  sound : c'.Sound
  valid : c'.Valid
  clients : ∀ a, a ∈ c'.clients.keys ↔
    a ∈ c.surviving.clients ∧ Client.isAddress a = true ∧ peers.ping a = true
  restores : ∃ c₀ : Core, c₀.Unambiguous ∧ c₀.records = [] ∧
    RestoresAll peers.rekey c₀ c.surviving.listeners notices c'

theorem exists_takesUp (h : c.Fresh) (peers : Peers) :
    ∃ report notices c', c.restore peers = (.ok (report, notices), c') ∧
      TakesUp peers c notices c' := by
  obtain ⟨report, hrestore⟩ := restore_eq h.ready peers
  refine ⟨report, _, _, hrestore, ?_⟩
  have hrevives := revives_revived c peers
  obtain ⟨es, -, hgrown⟩ := h.ready.revived peers
  have hu := hrevives.unambiguous h.unambiguous
  have hrecords : (c.revived peers).records = [] := hrevives.records_eq.trans h.records
  have hcompactable : (c.revived peers).Compactable := hgrown.compactable h.compactable
  have hall := restoresAll_revived h.unambiguous peers
  obtain ⟨hready, hu', hcompactable', hclients⟩ := hall.frame hgrown.ready hu
  have hkeys : ∀ a, a ∈ ((c.revived peers).restoreAll peers.rekey
      c.surviving.listeners).2.clients.keys ↔
        a ∈ c.surviving.clients ∧ Client.isAddress a = true ∧ peers.ping a = true := by
    intro a
    rw [hclients, hrevives.clients, h.clients]
    exact or_iff_right List.not_mem_nil
  have hlisteners := hall.forall_records
    (P := fun r => (Log.Entry.addListener r).Recordable ∧ r.Valid)
    (by rw [hrecords]; exact List.forall_mem_nil _)
    fun r hr hv id hid => ⟨(recordable_of_mem_surviving hr).withId hid, hv⟩
  have heach : ∀ e ∈ ((c.revived peers).restoreAll peers.rekey
      c.surviving.listeners).2.snapshot, e.Recordable ∧ e.Valid := by
    intro e he
    obtain ⟨hadd, hholds⟩ := mem_snapshot.mp he
    cases e with
    | addClient a =>
      obtain ⟨ha, hv, -⟩ := (hkeys a).mp hholds
      exact ⟨recordable_client_of_mem_surviving ha, hv⟩
    | addListener r => exact hlisteners r hholds
    | removeClient a => exact (hadd trivial).elim
    | removeListener r => exact (hadd trivial).elim
  exact ⟨⟨hready, hcompactable' hcompactable, hu', fun e he => (heach e he).1⟩,
    fun e he => (heach e he).2, hkeys, _, hu, hrecords, hall⟩

theorem compact_frame (c : Core) (order : List String) :
    (c.compact order).2.clients = c.clients ∧ (c.compact order).2.main = c.main ∧
      (c.compact order).2.others = c.others := by
  unfold compact
  split <;> exact ⟨rfl, rfl, rfl⟩

theorem records_compact (c : Core) (order : List String) :
    (c.compact order).2.records = c.records := by
  obtain ⟨-, hmain, hothers⟩ := compact_frame c order
  exact records_eq_of_same hmain hothers

/-- A listener that was not there before is one that the act brought in. -/
theorem mem_records_act (hc : c.Sound) {a : Act} (ha : a.Plain) {r : Log.Record}
    (hr : r ∈ (c.act a).records) : r ∈ c.records ∨ a.Brings (.addListener r) := by
  by_cases hcompact : c.Compacts a
  · obtain ⟨order, hact⟩ := act_of_compacts hcompact
    rw [hact, records_compact] at hr
    exact .inl hr
  · obtain ⟨es, hes, htold⟩ := logged_act hc ha hcompact
    refine or_iff_not_imp_left.mpr fun hno => ?_
    exact hes _ ((htold.tells (.addListener r)).mpr ⟨hno, hr⟩) not_false

theorem settled_boot (h : c.Fresh) (peers : Peers) (order : List String) :
    (c.boot peers order).Settled := by
  obtain ⟨report, notices, c₁, hrestore, htakes⟩ := exists_takesUp h peers
  obtain ⟨c', hrun, hsound, -, hholds, hbytes⟩ := htakes.sound.compact order
  rw [boot, hrestore, hrun]
  obtain ⟨hm, hf⟩ := hsound.mirrored_of_snapshot hholds (c₁.perm_snapshotIn order) hbytes
  refine ⟨hsound, fun e he => ?_, hm, hf⟩
  obtain ⟨hadd, hholds'⟩ := mem_snapshot.mp he
  exact htakes.valid e (mem_snapshot.mpr ⟨hadd, (hholds e).mp hholds'⟩)

/-! ## Generations -/

/-- What one daemon meets: the clients and the order of its visits when it starts, and then acts. -/
structure Generation where
  peers : Peers
  order : List String
  acts : List Act

def generation (c : Core) (g : Generation) : Core :=
  ((Session.restarted c).boot g.peers g.order).live g.acts

/-- The last of some daemons, each of which starts when the one before has vanished. -/
def generations (c : Core) (gs : List Generation) : Core :=
  gs.foldl generation c

theorem fresh_restarted (hc : c.Sound) : (Session.restarted c).Fresh :=
  fresh_start hc.compactable _

/-- What a start brings about and every act keeps is so of the last of some daemons. -/
theorem generations_induction {P : Core → Prop} {allowed : Act → Prop}
    (hsound : ∀ c, P c → c.Sound) (hboot : ∀ c peers order, Fresh c → P (c.boot peers order))
    (hact : ∀ c a, P c → allowed a → P (c.act a)) (h : (Session.restarted c).Fresh)
    {gs : List Generation} (hne : gs ≠ []) (hgs : ∀ g ∈ gs, ∀ a ∈ g.acts, allowed a) :
    P (c.generations gs) := by
  induction gs generalizing c with
  | nil => exact (hne rfl).elim
  | cons g gs ih =>
    have hone : P (c.generation g) :=
      live_induction hact (hboot _ g.peers g.order h) (hgs g List.mem_cons_self)
    rw [generations, List.foldl_cons]
    rcases gs with _ | ⟨g', gs⟩
    · exact hone
    · exact ih (fresh_restarted (hsound _ hone)) (List.cons_ne_nil _ _)
        fun g hg => hgs g (List.mem_cons_of_mem _ hg)

theorem settled_generations (h : (Session.restarted c).Fresh) {gs : List Generation}
    (hne : gs ≠ []) (hgs : ∀ g ∈ gs, ∀ a ∈ g.acts, a.Plain) : (c.generations gs).Settled :=
  generations_induction (fun _ h => h.sound) (fun _ peers order h => settled_boot h peers order)
    (fun _ _ h ha => h.act ha) h hne hgs

/-- All that a daemon has is reached by the next one. -/
structure Reaches (peers : Peers) (c : Core) : Prop where
  ping : ∀ a, a ∈ c.clients.keys → peers.ping a = true
  rekey : ∀ r ∈ c.records, ∀ k, peers.rekey r.client k = true

/-- A daemon that starts on what another has left has its clients and its listeners. -/
theorem boot_restarted (h : c.Settled) {peers : Peers} (hp : Reaches peers c)
    (order : List String) :
    ((Session.restarted c).boot peers order).clients = c.clients ∧
      ((Session.restarted c).boot peers order).interests.Perm c.interests := by
  obtain ⟨report, notices, c₁, hrestore, htakes⟩ :=
    exists_takesUp (fresh_restarted h.sound) peers
  rw [boot, hrestore, interests, (compact_frame c₁ order).1, records_compact]
  obtain ⟨s, hs, -, hsclients, hslisteners⟩ := h.mirrored
  rw [h.sound.ready.readLog] at hs
  cases hs
  have hsame : (Session.restarted c).surviving = c.surviving := rfl
  constructor
  · refine Table.ext_keys fun a => ?_
    rw [htakes.clients, hsame, surviving, hsclients.mem_iff]
    constructor
    · exact And.left
    · intro ha
      exact ⟨ha, h.valid (.addClient a) (mem_snapshot.mpr ⟨not_false, ha⟩), hp.ping a ha⟩
  · obtain ⟨c₀, hu, hempty, hall⟩ := htakes.restores
    rw [hsame, surviving] at hall
    have hperm := hall.interests_perm hu (fun r hr => ?_) fun address ha => ?_
    · have hnone : c₀.interests = [] := by rw [interests, hempty, List.map_nil]
      rw [hnone, List.nil_append] at hperm
      exact hperm.trans (hslisteners.map _)
    · have hr := hslisteners.mem_iff.mp hr
      exact ⟨h.valid (.addListener r) (mem_snapshot.mpr ⟨not_false, hr⟩), hp.rekey r hr⟩
    · have hcount := countAt_records_lt h.sound ha
      rw [hempty, countAt, countAt, (hslisteners.filter _).length_eq]
      simpa [countAt] using hcount

/-- Whatever a file held at first and whatever its daemons were asked: each of them starts with the
clients and the listeners that the one before had when it vanished, if all of those are reached. -/
theorem boot_after_generations {place : Place} {disk : Disk} (hd : Usable place disk)
    (idleLimit : Nat) {gs : List Generation} (hne : gs ≠ [])
    (hgs : ∀ g ∈ gs, ∀ a ∈ g.acts, a.Plain) {peers : Peers}
    (hp : Reaches peers ((start place idleLimit disk).generations gs)) (order : List String) :
    ((Session.restarted ((start place idleLimit disk).generations gs)).boot peers
        order).clients = ((start place idleLimit disk).generations gs).clients ∧
      ((Session.restarted ((start place idleLimit disk).generations gs)).boot peers
        order).interests.Perm ((start place idleLimit disk).generations gs).interests :=
  boot_restarted (settled_generations (c := start place idleLimit disk)
    (fresh_start hd idleLimit) hne hgs) hp order

/-- Of two daemons the second gives out identifiers that the first had given out as well. The third
has what the second had. -/
theorem boot_after_two_generations :
    let peers : Peers := ⟨fun _ => true, fun _ _ => true, fun _ _ => .taken⟩
    let gs : List Generation :=
      [⟨peers, [], [.addClient "/c", .subscribe none "/k" "/c", .subscribe none "/" "/c",
          .unsubscribe none 1]⟩,
        ⟨peers, [], [.subscribe none "/k" "/c", .subscribe (some "more") "/" "/d"]⟩]
    let c := (start ⟨"/state", "log"⟩ 60 .empty).generations gs
    c.clients.keys = ["/c"] ∧
      c.interests = [("def", "/", "/c"), ("def", "/k", "/c"), ("more", "/", "/d")] ∧
      ((Session.restarted c).boot peers ["more"]).clients = c.clients ∧
      ((Session.restarted c).boot peers ["more"]).interests.Perm c.interests := by
  intro peers gs c
  have hgs : ∀ g ∈ gs, ∀ a ∈ g.acts, a.Plain := by
    have hmain : PlainAddress none := nofun
    have hmore : PlainAddress (some "more") := by
      rintro _ ⟨⟩
      decide
    simp [gs, Act.Plain, hmain, hmore]
  have hd : Usable ⟨"/state", "log"⟩ .empty := trivial
  have hp : Reaches peers c := ⟨fun _ _ => rfl, fun _ _ _ => rfl⟩
  exact ⟨by decide +kernel, by decide +kernel,
    boot_after_generations hd 60 (List.cons_ne_nil _ _) hgs hp ["more"]⟩

end Core

end ConfigDaemon
