import ConfigDaemon.Proofs.Core.Ascending
import ConfigDaemon.Proofs.Core.Survivors
import ConfigDaemon.Proofs.Remote.Unsubscribing

/-! # Endpoints after a replay in order

An endpoint is told of new identifiers one at a time while the old ones are still in use. If the
records of each database come in the order of their identifiers, no new identifier is that of a
subscription that is still to be dealt with. Then every subscription goes on under the identifier
that its owner knows.
-/

namespace ConfigDaemon

namespace Endpoint

variable {e : Endpoint} {held : List Alias} {a : Alias} {k : Rekeying} {ks : List Rekeying}
  {id : UInt32}

/-- The rekeying takes the connection of the subscription away, or gives it to another one. -/
def Touches (k : Rekeying) (a : Alias) : Prop :=
  a.database = k.database ∧ (a.current = k.oldId ∨ a.current = k.newId)

instance (k : Rekeying) (a : Alias) : Decidable (Touches k a) :=
  inferInstanceAs (Decidable (_ ∧ _))

def moved (held : List Alias) (k : Rekeying) (stable : UInt32) : List Alias :=
  held.filter (¬ Touches k ·) ++ [⟨k.database, k.newId, stable⟩]

theorem aliases_rekey (e : Endpoint) (k : Rekeying) :
    (e.rekey k).aliases = moved e.aliases k (e.stableId k.database k.oldId) := by
  refine congrArg (· ++ _) (List.filter_congr fun a _ => decide_eq_decide.mpr ?_)
  rw [Touches, not_and_or, not_or]

theorem mem_moved :
    a ∈ moved held k id ↔ a ∈ held ∧ ¬ Touches k a ∨ a = ⟨k.database, k.newId, id⟩ := by
  rw [moved, List.mem_append, List.mem_filter, List.mem_singleton, decide_eq_true_eq]

theorem pairwise_moved {R : Alias → Alias → Prop} (h : held.Pairwise R)
    (hnew : ∀ a ∈ held, ¬ Touches k a → R a ⟨k.database, k.newId, id⟩) :
    (moved held k id).Pairwise R := by
  refine List.pairwise_append.mpr ⟨h.filter _, List.pairwise_singleton _ _, fun a ha b hb => ?_⟩
  obtain ⟨hold, hne⟩ := List.mem_filter.mp ha
  rw [List.mem_singleton.mp hb]
  exact hnew a hold (of_decide_eq_true hne)

theorem Knows.rekey (hk : e.Knows held)
    (hold : ∃ h ∈ held, h.database = k.database ∧ h.current = k.oldId) :
    (e.rekey k).Knows (moved held k (e.stableId k.database k.oldId)) where
  keyed := by
    rw [aliases_rekey]
    exact pairwise_moved hk.keyed fun a _ hne hd he => hne ⟨hd, .inr he⟩
  entries := by
    rw [aliases_rekey]
    intro a ha
    rcases mem_moved.mp ha with ⟨hmem, hne⟩ | rfl
    · obtain ⟨h, hh, hd, hc⟩ := hk.entries a hmem
      refine ⟨h, mem_moved.mpr (.inl ⟨hh, ?_⟩), hd, hc⟩
      rwa [Touches, hd, hc]
    · exact ⟨_, mem_moved.mpr (.inr rfl), rfl, rfl⟩
  known h hh := by
    rcases mem_moved.mp hh with ⟨hmem, hne⟩ | rfl
    · refine (stableId_rekey_of_ne fun hd => ?_).trans (hk.known h hmem)
      exact not_or.mp fun hc => hne ⟨hd, hc⟩
    · exact stableId_rekey_new e k
  apart := by
    obtain ⟨h, hh, hd, hc⟩ := hold
    rw [← hd, ← hc, hk.known h hh]
    refine pairwise_moved hk.apart fun h' hh' hne hd' hs => hne ?_
    -- only the subscription itself is known under its identifier
    rw [hk.eq_of_stable hh' hh (hd'.trans hd.symm) hs]
    exact ⟨hd, .inl hc⟩

/-- After new identifiers in order each of them is known, and so is all that they do not touch. -/
theorem Knows.rekeyAll (hk : e.Knows held) (ha : Apart ks) (ho : InOrder ks)
    (hold : ∀ k ∈ ks, ∃ h ∈ held, h.database = k.database ∧ h.current = k.oldId) :
    ∃ held', (e.rekeyAll ks).Knows held' ∧
      (∀ h ∈ held, (∀ k ∈ ks, ¬ Touches k h) → h ∈ held') ∧
      ∀ k ∈ ks, ⟨k.database, k.newId, e.stableId k.database k.oldId⟩ ∈ held' := by
  induction ks generalizing e held with
  | nil => exact ⟨held, hk, fun h hh _ => hh, nofun⟩
  | cons k ks ih =>
    obtain ⟨hnew, -⟩ := List.pairwise_cons.mp ha.new
    obtain ⟨horder, ho'⟩ := List.pairwise_cons.mp ho
    -- what is still to be dealt with is not touched now
    have hlater : ∀ l ∈ ks, l.database = k.database → l.oldId ≠ k.oldId ∧ l.oldId ≠ k.newId :=
      fun l hl hd => ⟨((List.pairwise_cons.mp ha.old).1 l hl hd.symm).symm,
        (horder l hl hd.symm).symm⟩
    have hkept : ∀ l ∈ ks, ∃ h ∈ moved held k (e.stableId k.database k.oldId),
        h.database = l.database ∧ h.current = l.oldId := by
      intro l hl
      obtain ⟨h, hh, hd, hc⟩ := hold l (List.mem_cons_of_mem _ hl)
      refine ⟨h, mem_moved.mpr (.inl ⟨hh, ?_⟩), hd, hc⟩
      rw [Touches, hd, hc, not_and, not_or]
      exact hlater l hl
    obtain ⟨held', hk', hkeep, hmoved⟩ :=
      ih (hk.rekey (hold k List.mem_cons_self)) ha.tail ho' hkept
    refine ⟨held', hk', fun h hh hne => ?_, List.forall_mem_cons.mpr ⟨?_, fun l hl => ?_⟩⟩
    · obtain ⟨hnek, hnes⟩ := List.forall_mem_cons.mp hne
      exact hkeep h (mem_moved.mpr (.inl ⟨hh, hnek⟩)) hnes
    · refine hkeep _ (mem_moved.mpr (.inr rfl)) fun l hl => ?_
      rw [Touches, not_and, not_or]
      exact fun hd => ⟨horder l hl hd, hnew l hl hd⟩
    · rw [← stableId_rekey_of_ne (e := e) (hlater l hl)]
      exact hmoved l hl

theorem Knows.rekeyed (hk : e.Knows held) (ha : Apart ks) (ho : InOrder ks)
    (hold : ∀ k ∈ ks, ∃ h ∈ held, h.database = k.database ∧ h.current = k.oldId) {k : Rekeying}
    (hmem : k ∈ ks) :
    (e.rekeyAll ks).stableId k.database k.newId = e.stableId k.database k.oldId ∧
      (e.rekeyAll ks).currentId k.database (e.stableId k.database k.oldId) = k.newId := by
  obtain ⟨held', hk', -, hmoved⟩ := hk.rekeyAll ha ho hold
  exact ⟨hk'.known _ (hmoved k hmem), hk'.currentId_of_mem (hmoved k hmem)⟩

/-! ## The replay -/

open ConfigDaemon.Core ConfigDaemon.Log

/-- The subscriptions that a client has by some records, with the identifiers that it shows. -/
def holdings (address : String) (visible : Log.Record → UInt32) (rs : List Log.Record) :
    List Alias :=
  (rs.filter (·.client = address)).map fun r => ⟨Database.ofLogName r.database, r.id, visible r⟩

def told (address : String) (notices : List Notice) : List Rekeying :=
  (notices.filter (·.client = address)).map (·.rekeying)

def take (e : Endpoint) (notices : List Notice) : Endpoint :=
  (told e.address notices).foldl (fun e k => (e.handle (.rekey k)).2) e

/-- A daemon that has taken up records has told the endpoint of each valid one that is its own. Its
listeners are just those that it was told of, and it knows them as before, on both sides. -/
structure Follows (e : Endpoint) (visible : Log.Record → UInt32) (rs : List Log.Record)
    (notices : List Notice) (c' : Core) : Prop where
  told : ∀ r ∈ rs, r.client = e.address → r.Valid → ∃ n ∈ notices, n.Concerns r
  live : ∀ database id location, c'.listener? database id = some ⟨location, e.address⟩ ↔
    ∃ n ∈ notices, n.client = e.address ∧ n.rekeying = ⟨database, n.rekeying.oldId, location, id⟩
  known : ∀ r ∈ rs, r.client = e.address → ∀ n ∈ notices, n.Concerns r →
    (e.take notices).stableId n.rekeying.database n.rekeying.newId = visible r ∧
      (e.take notices).currentId n.rekeying.database (visible r) = n.rekeying.newId

section Told

variable {c c' : Core} {accepts : String → Rekeying → Bool} {rs : List Log.Record}
  {notices : List Notice} {visible : Log.Record → UInt32} {address : String}

theorem mem_told :
    k ∈ told address notices ↔ ∃ n ∈ notices, n.client = address ∧ n.rekeying = k := by
  simp only [told, List.mem_map, List.mem_filter, decide_eq_true_eq, and_assoc]

theorem pairwise_told {R : Rekeying → Rekeying → Prop}
    (h : notices.Pairwise fun n m => R n.rekeying m.rekeying) :
    (told address notices).Pairwise R :=
  List.pairwise_map.mpr (h.filter _)

theorem mem_holdings {r : Log.Record} (hr : r ∈ rs) (hclient : r.client = address) :
    ⟨Database.ofLogName r.database, r.id, visible r⟩ ∈ holdings address visible rs :=
  List.mem_map.mpr ⟨r, List.mem_filter.mpr ⟨hr, decide_eq_true hclient⟩, rfl⟩

theorem exists_held_of_told (visible : Log.Record → UInt32)
    (h : RestoresAll accepts c rs notices c') (hk : k ∈ told address notices) :
    ∃ a ∈ holdings address visible rs, a.database = k.database ∧ a.current = k.oldId := by
  obtain ⟨n, hn, hclient, rfl⟩ := mem_told.mp hk
  obtain ⟨r, hr, hconcerns⟩ := h.exists_record hn
  refine ⟨_, mem_holdings hr (hconcerns.client.symm.trans hclient), ?_⟩
  rw [hconcerns.rekeying]
  exact ⟨rfl, rfl⟩

section Accepted

variable (h : RestoresAll accepts c rs notices c') (hp : ∀ k, accepts address k = true)

include h hp

theorem accepted_of_told {n : Notice} (hn : n ∈ notices) (hclient : n.client = address) :
    n.accepted = true := by
  rw [h.accepted_eq hn, hclient]
  exact hp _

theorem apart_told (hu : c.Unambiguous) (hids : IdsApart rs) : Apart (told address notices) where
  old := pairwise_told (h.old_apart hids)
  new := by
    refine List.pairwise_map.mpr (((h.new_apart hu).filter _).imp_of_mem fun {n m} hn _ hne => ?_)
    obtain ⟨hn, hclient⟩ := List.mem_filter.mp hn
    exact hne (accepted_of_told h hp hn (of_decide_eq_true hclient))

end Accepted

end Told

/-- An endpoint that knows its subscriptions follows a replay in order, if it accepts what it is
told: the daemon goes on with them, and their owner finds each under the identifier that it had,
although old identifiers are given out again. -/
theorem follows_replay_in_order {c : Core} (h : c.Blank) {s : Surviving}
    (hs : c.readLog = .ok s) (hasc : Ascending s.listeners) {visible : Log.Record → UInt32}
    (hk : e.Knows (holdings e.address visible s.listeners)) {peers : Peers}
    (hp : ∀ k, peers.rekey e.address k = true) :
    ∃ report notices c', c.restore peers = (.ok (report, notices), c') ∧
      e.Follows visible s.listeners notices c' := by
  obtain rfl := surviving_of_readLog hs
  refine ⟨_, _, _, restore_of_readLog hs peers, ?_⟩
  have hrevives := revives_revived c peers
  have hu := hrevives.unambiguous h.unambiguous
  have hall := restoresAll_revived h.unambiguous peers
  have hapart := apart_told hall hp hu hasc.idsApart
  have horder : InOrder (told e.address _) :=
    pairwise_told ((h.ahead peers).newId_ne_oldId hasc hu peers.rekey)
  refine ⟨fun r hr _ => ((h.ahead peers).notices hasc peers.rekey).1 r hr,
    fun database id location => ?_, fun r hr hclient n hn hconcerns => ?_⟩
  · rw [hall.listener?_eq_some_iff hu (hrevives.records_eq.trans h.records)]
    constructor
    · rintro ⟨n, hn, -, hclient, hrekeying⟩
      exact ⟨n, hn, hclient, hrekeying⟩
    · rintro ⟨n, hn, hclient, hrekeying⟩
      exact ⟨n, hn, accepted_of_told hall hp hn hclient, hclient, hrekeying⟩
  · have hvisible : e.stableId n.rekeying.database n.rekeying.oldId = visible r := by
      rw [hconcerns.rekeying]
      exact hk.known _ (mem_holdings hr hclient)
    have htold : n.rekeying ∈ told e.address _ :=
      mem_told.mpr ⟨n, hn, hconcerns.client.trans hclient, rfl⟩
    rw [← hvisible]
    exact hk.rekeyed hapart horder (fun k => exists_held_of_told visible hall) htold

/-- Three subscriptions move down past that of a client that refuses. The third gets the identifier
that was the second's. -/
theorem follows_past_refusal :
    let place : Place := ⟨"/state", "log"⟩
    let peers : Peers := ⟨fun _ => true, fun client _ => client = "/e", fun _ _ => .taken⟩
    let records : List Log.Record := [⟨2, "def", "/a", "/e"⟩, ⟨3, "def", "/x", "/other"⟩,
      ⟨4, "def", "/b", "/e"⟩, ⟨5, "def", "/c", "/e"⟩]
    let c := Core.start place 60 (diskOf place (logBytes (records.map .addListener)))
    let e : Endpoint := ⟨"/e", [⟨none, 2, 1⟩, ⟨none, 5, 2⟩]⟩
    let visible := fun r : Log.Record => e.stableId (Database.ofLogName r.database) r.id
    ∃ report notices c', c.readLog = .ok ⟨[], records⟩ ∧ Ascending records ∧
      e.Knows (holdings e.address visible records) ∧
      c.restore peers = (.ok (report, notices), c') ∧ e.Follows visible records notices c' ∧
      (e.take notices).aliases = [⟨none, 1, 1⟩, ⟨none, 3, 4⟩, ⟨none, 4, 2⟩] := by
  intro place peers records c e visible
  have hread : c.readLog = .ok ⟨[], records⟩ := by decide +kernel
  have hasc : Ascending records := by decide
  have hk : e.Knows (holdings e.address visible records) :=
    ⟨by decide, by decide, by decide, by decide⟩
  have hp : ∀ k, peers.rekey e.address k = true := fun _ => rfl
  obtain ⟨report, notices, c', hrestore, hfollows⟩ :=
    follows_replay_in_order (blank_start place 60 _) hread hasc hk hp
  have haliases : (e.take (c.bootNotices peers)).aliases =
      [⟨none, 1, 1⟩, ⟨none, 3, 4⟩, ⟨none, 4, 2⟩] := by decide +kernel
  have hnotices : c.bootNotices peers = notices := by rw [bootNotices, hrestore]
  rw [hnotices] at haliases
  exact ⟨report, notices, c', hread, hasc, hk, hrestore, hfollows, haliases⟩

end Endpoint

end ConfigDaemon
