import ConfigDaemon.Proofs.Core.Notices
import ConfigDaemon.Proofs.Remote.Aliases

/-! # Endpoints and their daemons

An endpoint subscribes with a daemon that starts anew any number of times. Which of its
subscriptions are live, and under which identifier the daemon knows them, follows from what each
daemon says when it starts. It does not depend on what the endpoint makes of that.
-/

namespace ConfigDaemon

open ConfigDaemon.Core

def Core.serves (c : Core) (client : String) (database : Option String) (id : UInt32) : Bool :=
  (c.listener? database id).any (·.client = client)

def Alias.follow (ks : List Rekeying) (h : Alias) : Option Alias :=
  (ks.find? fun k => k.database = h.database ∧ k.oldId = h.current).map fun k =>
    { h with current := k.newId }

/-- An endpoint, its daemon, and the subscriptions of the endpoint that are still live: `stable` is
what the owner got for it and `current` what the daemon calls it. -/
structure Watch where
  core : Core
  endpoint : Endpoint
  held : List Alias

namespace Watch

inductive Move
  /-- The endpoint subscribes. -/
  | subscribe (database : Option String) (location : String)
  /-- Somebody else asks something of the daemon. -/
  | act (a : Act)
  /-- The daemon vanishes and the next one starts. -/
  | restart (peers : Peers) (order : List String)

def start (c : Core) (address : String) : Watch :=
  ⟨c, .start address, []⟩

def told (peers : Peers) (w : Watch) : List Rekeying :=
  (((Session.restarted w.core).bootNotices peers).filter fun n =>
    n.accepted ∧ n.client = w.endpoint.address).map (·.rekeying)

def step (w : Watch) : Move → Watch
  | .subscribe database location =>
    match w.core.subscribe database location w.endpoint.address with
    | (.error _, core) => { w with core }
    | (.ok id, core) =>
      ⟨core, w.endpoint.subscribed database (.ok (.id id)), w.held ++ [⟨database, id, id⟩]⟩
  | .act a =>
    { w with
      core := w.core.act a
      held := w.held.filter fun h =>
        (w.core.act a).serves w.endpoint.address h.database h.current }
  | .restart peers order =>
    { core := (Session.restarted w.core).boot peers order
      endpoint := (w.told peers).foldl (fun e k => (e.handle (.rekey k)).2) w.endpoint
      held := w.held.filterMap (·.follow (w.told peers)) }

def run (w : Watch) (moves : List Move) : Watch :=
  moves.foldl step w

/-- The names in a move can stand in the log, and only the endpoint subscribes for itself. -/
def Move.Plain (address : String) : Move → Prop
  | .subscribe database _ => PlainAddress database
  | .act a => a.Plain ∧ ∀ database location, a ≠ .subscribe database location address
  | .restart _ _ => True

def Tracks (w : Watch) : Prop :=
  ∀ database id, (∃ h ∈ w.held, h.database = database ∧ h.current = id) ↔
    w.core.serves w.endpoint.address database id = true

structure Matches (w : Watch) : Prop where
  settled : w.core.Settled
  line : '\n' ∉ w.endpoint.address.toList
  live : w.Tracks
  apart : w.held.Pairwise fun h h' => h.database = h'.database → h.current ≠ h'.current

variable {w : Watch} {c c' : Core} {client : String} {database : Option String} {id : UInt32}
  {k : Rekeying} {ks : List Rekeying} {h h' : Alias}

theorem serves_iff : c.serves client database id = true ↔
    ∃ s, c.listener? database id = some s ∧ s.client = client := by
  rw [Core.serves, Option.any_eq_true]
  simp only [decide_eq_true_eq]

theorem serves_iff_mem_records (hu : c.Unambiguous) : c.serves client database id = true ↔
    ∃ r ∈ c.records, Database.ofLogName r.database = database ∧ r.id = id ∧ r.client = client := by
  rw [serves_iff]
  constructor
  · rintro ⟨s, hs, rfl⟩
    have hname := Database.ofLogName_logName (hu.ne_defaultName hs)
    refine ⟨recordOf database ⟨id, s.location, s.client⟩, ?_, hname, rfl, rfl⟩
    rw [hu.mem_records, recordOf, hname]
    exact hs
  · rintro ⟨r, hr, rfl, rfl, rfl⟩
    exact ⟨_, hu.mem_records.mp hr, rfl⟩

/-! ## Following -/

theorem follow_of_mem (hks : Endpoint.Apart ks) (hk : k ∈ ks) (hd : k.database = h.database)
    (ho : k.oldId = h.current) : h.follow ks = some { h with current := k.newId } := by
  have hsome : (ks.find? fun k => k.database = h.database ∧ k.oldId = h.current) = some k := by
    cases hl : ks.find? fun k => k.database = h.database ∧ k.oldId = h.current with
    | none => exact absurd (decide_eq_true ⟨hd, ho⟩) (List.find?_eq_none.mp hl k hk)
    | some l =>
      obtain ⟨hld, hlo⟩ := of_decide_eq_true (List.find?_some hl :)
      exact congrArg some (Endpoint.eq_of_pairwise_ne hks.old (List.mem_of_find?_eq_some hl) hk
        (hld.trans hd.symm) (hlo.trans ho.symm))
  rw [Alias.follow, hsome, Option.map_some]

theorem follow_eq_some (hf : h.follow ks = some h') :
    ∃ k ∈ ks, k.database = h.database ∧ k.oldId = h.current ∧
      h' = { h with current := k.newId } := by
  obtain ⟨k, hk, rfl⟩ := Option.map_eq_some_iff.mp hf
  obtain ⟨hd, ho⟩ := of_decide_eq_true (List.find?_some hk :)
  exact ⟨k, List.mem_of_find?_eq_some hk, hd, ho, rfl⟩

theorem mem_told {peers : Peers} : k ∈ w.told peers ↔
    ∃ n ∈ (Session.restarted w.core).bootNotices peers,
      n.accepted = true ∧ n.client = w.endpoint.address ∧ n.rekeying = k := by
  rw [told, List.mem_map]
  simp only [List.mem_filter, decide_eq_true_eq, and_assoc]

theorem apart_told (hw : w.Matches) (peers : Peers) : Endpoint.Apart (w.told peers) where
  old := List.pairwise_map.mpr ((old_apart_restarted hw.settled peers).filter _)
  new := by
    refine List.pairwise_map.mpr (List.Pairwise.imp_of_mem ?_
      ((new_apart_boot (fresh_restarted hw.settled.sound) peers).filter _))
    intro n m hn _ hapart
    exact hapart (of_decide_eq_true (List.mem_filter.mp hn).2).1

theorem exists_held_of_told (hw : w.Matches) {peers : Peers} (hk : k ∈ w.told peers) :
    ∃ h ∈ w.held, h.database = k.database ∧ h.current = k.oldId := by
  obtain ⟨n, hn, -, hclient, rfl⟩ := mem_told.mp hk
  obtain ⟨s, hs, hsclient⟩ := exists_listener?_of_notice hw.settled peers hn
  exact (hw.live _ _).mpr (serves_iff.mpr ⟨s, hs, hsclient.trans hclient⟩)

theorem serves_boot_iff (hw : w.Matches) (peers : Peers) (order : List String) :
    ((Session.restarted w.core).boot peers order).serves w.endpoint.address database id = true ↔
      ∃ k ∈ w.told peers, k.database = database ∧ k.newId = id := by
  have hfresh := fresh_restarted hw.settled.sound
  rw [serves_iff_mem_records (settled_boot hfresh peers order).sound.unambiguous]
  constructor
  · rintro ⟨r, hr, hd, hi, hc⟩
    obtain ⟨n, hn, ha, rfl⟩ := (mem_records_boot hfresh peers order).mp hr
    refine ⟨n.rekeying, mem_told.mpr ⟨n, hn, ha, hc, rfl⟩, ?_, hi⟩
    obtain ⟨s, hs, -⟩ := exists_listener?_of_notice hw.settled peers hn
    rw [← hd, Notice.record, Database.ofLogName_logName
      (hw.settled.sound.unambiguous.ne_defaultName hs)]
  · rintro ⟨k, hk, rfl, rfl⟩
    obtain ⟨n, hn, ha, hc, rfl⟩ := mem_told.mp hk
    refine ⟨n.record, (mem_records_boot hfresh peers order).mpr ⟨n, hn, ha, rfl⟩, ?_, rfl, hc⟩
    obtain ⟨s, hs, -⟩ := exists_listener?_of_notice hw.settled peers hn
    exact Database.ofLogName_logName (hw.settled.sound.unambiguous.ne_defaultName hs)

/-! ## One move -/

theorem matches_start (hc : c.Settled) {address : String} (hline : '\n' ∉ address.toList)
    (hnone : ∀ r ∈ c.records, r.client ≠ address) : (start c address).Matches where
  settled := hc
  line := hline
  live database id := by
    constructor
    · rintro ⟨h, hh, -⟩
      cases hh
    · intro hserves
      obtain ⟨r, hr, -, -, hclient⟩ :=
        (serves_iff_mem_records hc.sound.unambiguous).mp hserves
      exact (hnone r hr hclient).elim
  apart := .nil

theorem matches_subscribe (hw : w.Matches) (hd : PlainAddress database) (location : String) :
    (w.step (.subscribe database location)).Matches := by
  have hsettled : (w.core.subscribe database location w.endpoint.address).2.Settled :=
    hw.settled.act (a := .subscribe database location w.endpoint.address) ⟨hd, hw.line⟩
  rcases subscribe_spec w.core database location w.endpoint.address with
    ⟨f, he⟩ | ⟨id, c', he, hnone, hl⟩
  · rw [step, he]
    exact hw
  · rw [he] at hsettled
    rw [step, he]
    refine ⟨hsettled, hw.line, fun a i => ?_, List.pairwise_append.mpr
      ⟨hw.apart, List.pairwise_singleton _ _, fun h hh h' hh' hd' hc => ?_⟩⟩
    · have hold := (hw.live a i).trans serves_iff
      rw [serves_iff, hl]
      simp only [List.mem_append, List.mem_singleton, or_and_right, exists_or, exists_eq_left, hold]
      constructor
      · rintro (hold | ⟨rfl, rfl⟩)
        · split
          · exact ⟨_, rfl, rfl⟩
          · exact hold
        · exact ⟨_, if_pos ⟨rfl, rfl⟩, rfl⟩
      · intro hnew
        split at hnew
        · rename_i heq
          exact .inr ⟨heq.1.symm, heq.2.symm⟩
        · exact .inl hnew
    · obtain rfl := List.mem_singleton.mp hh'
      obtain ⟨s, hs, -⟩ := serves_iff.mp ((hw.live _ _).mp ⟨h, hh, hd', hc⟩)
      rw [hnone] at hs
      cases hs

theorem matches_act (hw : w.Matches) {a : Act} (ha : (Move.act a).Plain w.endpoint.address) :
    (w.step (.act a)).Matches where
  settled := hw.settled.act ha.1
  line := hw.line
  live database id := by
    constructor
    · rintro ⟨h, hh, rfl, rfl⟩
      exact (List.mem_filter.mp hh).2
    · intro hserves
      have hsound := hw.settled.sound
      obtain ⟨r, hr, hd, hi, hclient⟩ :=
        (serves_iff_mem_records (hw.settled.act ha.1).sound.unambiguous).mp hserves
      rcases mem_records_act hsound ha.1 hr with hold | hnew
      · obtain ⟨h, hh, rfl, rfl⟩ := (hw.live database id).mpr
          ((serves_iff_mem_records hsound.unambiguous).mpr ⟨r, hold, hd, hi, hclient⟩)
        exact ⟨h, List.mem_filter.mpr ⟨hh, hserves⟩, rfl, rfl⟩
      · cases a with
        | subscribe database location client =>
          obtain ⟨-, -, hc, -⟩ := hnew
          exact (ha.2 database location (congrArg _ (hc.symm.trans hclient))).elim
        | _ => exact hnew.elim
  apart := hw.apart.filter _

theorem matches_restart (hw : w.Matches) (peers : Peers) (order : List String) :
    (w.step (.restart peers order)).Matches := by
  have haddress : (w.step (.restart peers order)).endpoint.address = w.endpoint.address :=
    Endpoint.address_rekeyAll _ _
  have hapart := apart_told hw peers
  refine ⟨settled_boot (fresh_restarted hw.settled.sound) peers order, haddress ▸ hw.line,
    fun a i => ?_, List.Pairwise.filterMap _ (fun h h' hne g hg g' hg' hd hc => ?_) hw.apart⟩
  · rw [haddress, step, serves_boot_iff hw]
    constructor
    · rintro ⟨h', hh', rfl, rfl⟩
      obtain ⟨h, -, hf⟩ := List.mem_filterMap.mp hh'
      obtain ⟨k, hk, hd, -, rfl⟩ := follow_eq_some hf
      exact ⟨k, hk, hd, rfl⟩
    · rintro ⟨k, hk, rfl, rfl⟩
      obtain ⟨h, hh, hd, ho⟩ := exists_held_of_told hw hk
      exact ⟨_, List.mem_filterMap.mpr ⟨h, hh, follow_of_mem hapart hk hd.symm ho.symm⟩, hd, rfl⟩
  · obtain ⟨k, hk, hkd, hko, rfl⟩ := follow_eq_some hg
    obtain ⟨l, hl, hld, hlo, rfl⟩ := follow_eq_some hg'
    have hsame : k.database = l.database := hkd.trans (Eq.trans hd hld.symm)
    obtain rfl := Endpoint.eq_of_pairwise_ne hapart.new hk hl hsame hc
    exact hne hd (hko.symm.trans hlo)

/-- Whatever happens, the endpoint is served just what it holds. -/
theorem matches_step (hw : w.Matches) {m : Move} (hm : m.Plain w.endpoint.address) :
    (w.step m).Matches := by
  cases m with
  | subscribe database location => exact matches_subscribe hw hm location
  | act a => exact matches_act hw hm
  | restart peers order => exact matches_restart hw peers order

theorem address_step (w : Watch) (m : Move) : (w.step m).endpoint.address = w.endpoint.address := by
  cases m with
  | subscribe database location =>
    rw [step]
    split <;> rfl
  | act a => rfl
  | restart peers order => exact Endpoint.address_rekeyAll _ _

theorem matches_run (hw : w.Matches) {moves : List Move}
    (hmoves : ∀ m ∈ moves, m.Plain w.endpoint.address) : (w.run moves).Matches := by
  induction moves generalizing w with
  | nil => exact hw
  | cons m moves ih =>
    refine ih (matches_step hw (hmoves m List.mem_cons_self)) fun n hn => ?_
    rw [address_step]
    exact hmoves n (List.mem_cons_of_mem _ hn)

end Watch

end ConfigDaemon
