import ConfigDaemon.Proofs.Core.Generations

/-! # What clients are told by a replay

The accepted notices of a replay list the listeners that are live after it. No two notices concern
one listener, neither by its old identifier nor by its new one.
-/

namespace ConfigDaemon.Core

open Log

variable {c c' : Core} {accepts : String → Rekeying → Bool} {r s : Log.Record}
  {rs : List Log.Record} {notice : Option Notice} {notices : List Notice}

/-- The listener that a notice is about, as the log records it afterwards. -/
def Notice.record (n : Notice) : Log.Record :=
  ⟨n.rekeying.newId, Database.logName n.rekeying.database, n.rekeying.location, n.client⟩

theorem Notice.Concerns.record_eq {n : Notice} (h : n.Concerns r) :
    n.record = { r with id := n.rekeying.newId } := by
  rw [record, h.client, h.rekeying, Database.logName_ofLogName]

theorem Notice.Concerns.ofLogName_record {n : Notice} (h : n.Concerns r) :
    Database.ofLogName n.record.database = n.rekeying.database := by
  rw [record, h.rekeying, Database.logName_ofLogName]

theorem Notice.Concerns.eq {n : Notice} (h : n.Concerns r) :
    r = { n.record with id := n.rekeying.oldId } := by
  rw [h.record_eq, h.rekeying]

theorem Restores.concerns (h : Restores accepts c r notice c') {n : Notice} (hn : n ∈ notice) :
    n.Concerns r :=
  (h.noticed n hn).1

theorem Unambiguous.eq_of_id (hu : c.Unambiguous) (hr : r ∈ c.records) (hs : s ∈ c.records)
    (hd : Database.ofLogName r.database = Database.ofLogName s.database) (hid : r.id = s.id) :
    r = s := by
  rw [hu.mem_records] at hr hs
  have hsub := Option.some.inj (hr.symm.trans (by rw [hd, hid]; exact hs))
  have hname : r.database = s.database := Database.ofLogName_inj hd
  obtain ⟨id, database, location, client⟩ := r
  obtain ⟨id', database', location', client'⟩ := s
  cases hid
  cases hname
  cases hsub
  rfl

def IdsApart (rs : List Log.Record) : Prop :=
  rs.Pairwise fun r s => Database.ofLogName r.database = Database.ofLogName s.database → r.id ≠ s.id

theorem Unambiguous.idsApart (hu : c.Unambiguous) (hnodup : rs.Nodup)
    (hrs : ∀ r ∈ rs, r ∈ c.records) : IdsApart rs := by
  refine List.Pairwise.imp_of_mem ?_ hnodup
  intro r s hr hs hne hd hid
  exact hne (hu.eq_of_id (hrs r hr) (hrs s hs) hd hid)

theorem Restores.mem_renewed_iff (h : Restores accepts c r notice c') :
    s ∈ renewed r notice ↔ ∃ n ∈ notice, n.accepted = true ∧ n.record = s := by
  unfold renewed
  cases hn : notice with
  | none => simp
  | some n =>
    rw [Option.bind_some]
    split
    · rename_i ha
      simp [ha, (h.concerns hn).record_eq]
    · rename_i ha
      simp [ha]

theorem RestoresAll.mem_records_iff (h : RestoresAll accepts c rs notices c') :
    s ∈ c'.records ↔ s ∈ c.records ∨ ∃ n ∈ notices, n.accepted = true ∧ n.record = s := by
  induction h with
  | nil => simp
  | cons h _ ih =>
    rw [ih, h.records, h.mem_renewed_iff]
    simp only [List.mem_append, Option.mem_toList, Option.mem_def, or_and_right, exists_or]
    rw [or_assoc, or_left_comm]

theorem RestoresAll.exists_record (h : RestoresAll accepts c rs notices c') {n : Notice}
    (hn : n ∈ notices) : ∃ r ∈ rs, n.Concerns r := by
  induction h with
  | nil => cases hn
  | cons h _ ih =>
    rcases List.mem_append.mp hn with hn | hn
    · exact ⟨_, List.mem_cons_self, h.concerns (Option.mem_toList.mp hn)⟩
    · obtain ⟨r, hr, hconcerns⟩ := ih hn
      exact ⟨r, List.mem_cons_of_mem _ hr, hconcerns⟩

theorem RestoresAll.accepted_eq (h : RestoresAll accepts c rs notices c') {n : Notice}
    (hn : n ∈ notices) : n.accepted = accepts n.client n.rekeying := by
  induction h with
  | nil => cases hn
  | cons h _ ih =>
    rcases List.mem_append.mp hn with hn | hn
    · have hn := Option.mem_toList.mp hn
      rw [(h.concerns hn).client]
      exact (h.noticed n hn).2
    · exact ih hn

theorem RestoresAll.unambiguous (h : RestoresAll accepts c rs notices c') (hu : c.Unambiguous) :
    c'.Unambiguous := by
  induction h with
  | nil => exact hu
  | cons h _ ih => exact ih h.unambiguous

/-- If there were no listeners, those that are there are those of the accepted notices. -/
theorem RestoresAll.listener?_eq_some_iff (h : RestoresAll accepts c rs notices c')
    (hu : c.Unambiguous) (hnone : c.records = []) {database : Option String} {id : UInt32}
    {location client : String} :
    c'.listener? database id = some ⟨location, client⟩ ↔
      ∃ n ∈ notices, n.accepted = true ∧ n.client = client ∧
        n.rekeying = ⟨database, n.rekeying.oldId, location, id⟩ := by
  have hu' := h.unambiguous hu
  constructor
  · intro hl
    have hne := hu'.ne_defaultName hl
    have hmem : recordOf database ⟨id, location, client⟩ ∈ c'.records :=
      (hu'.recordOf_mem_records hne).mpr hl
    rw [h.mem_records_iff, hnone] at hmem
    obtain ⟨n, hn, ha, he⟩ := hmem.resolve_left List.not_mem_nil
    obtain ⟨r, -, hconcerns⟩ := h.exists_record hn
    obtain ⟨hd, hid, hs⟩ := (eq_recordOf_iff hne).mp he
    rw [hconcerns.ofLogName_record] at hd
    obtain ⟨_, ⟨_, _, _, _⟩, _⟩ := n
    cases hd
    cases hid
    cases hs
    exact ⟨_, hn, ha, rfl, rfl⟩
  · rintro ⟨n, hn, ha, rfl, he⟩
    obtain ⟨r, -, hconcerns⟩ := h.exists_record hn
    have hmem : n.record ∈ c'.records := h.mem_records_iff.mpr (.inr ⟨n, hn, ha, rfl⟩)
    rw [hu'.mem_records, hconcerns.ofLogName_record, Notice.record, he] at hmem
    exact hmem

theorem pairwise_toList {α : Type} {R : α → α → Prop} (o : Option α) : o.toList.Pairwise R := by
  cases o with
  | none => exact .nil
  | some a => exact List.pairwise_singleton R a

theorem RestoresAll.pairwise {R : Log.Record → Log.Record → Prop} {Q : Notice → Notice → Prop}
    (h : RestoresAll accepts c rs notices c') (hrs : rs.Pairwise R)
    (hq : ∀ r s n m, R r s → n.Concerns r → m.Concerns s → Q n m) : notices.Pairwise Q := by
  induction h with
  | nil => exact .nil
  | @cons _ _ _ _ _ notice _ h hall ih =>
    obtain ⟨hr, hrs'⟩ := List.pairwise_cons.mp hrs
    refine List.pairwise_append.mpr ⟨pairwise_toList notice, ih hrs', fun n hn m hm => ?_⟩
    obtain ⟨s, hs, hconcerns⟩ := hall.exists_record hm
    exact hq _ s n m (hr s hs) (h.concerns (Option.mem_toList.mp hn)) hconcerns

theorem RestoresAll.old_apart (h : RestoresAll accepts c rs notices c') (hrs : IdsApart rs) :
    notices.Pairwise fun n m => n.rekeying.database = m.rekeying.database →
      n.rekeying.oldId ≠ m.rekeying.oldId := by
  refine h.pairwise hrs fun r s n m hne hn hm hd => ?_
  rw [hn.rekeying, hm.rekeying] at hd ⊢
  exact hne hd

theorem RestoresAll.unused (h : RestoresAll accepts c rs notices c') (hu : c.Unambiguous)
    {n : Notice} (hn : n ∈ notices) :
    n.rekeying.newId ≠ 0 ∧ c.listener? n.rekeying.database n.rekeying.newId = none := by
  induction h with
  | nil => cases hn
  | @cons c c' c'' r rs notice notices h _ ih =>
    rcases List.mem_append.mp hn with hn | hn
    · have hn := Option.mem_toList.mp hn
      rw [(h.concerns hn).rekeying]
      exact h.unused n hn
    · obtain ⟨hne, hnone⟩ := ih h.unambiguous hn
      refine ⟨hne, ?_⟩
      by_contra hsome
      obtain ⟨s, hs⟩ := Option.ne_none_iff_exists'.mp hsome
      have hne := hu.ne_defaultName hs
      have hmem : recordOf n.rekeying.database ⟨n.rekeying.newId, s.location, s.client⟩ ∈
          c'.records := (h.records _).mpr (.inr ((hu.recordOf_mem_records hne).mpr hs))
      rw [h.unambiguous.recordOf_mem_records hne, hnone] at hmem
      cases hmem

/-- An identifier that stays in use is not given out again. -/
theorem RestoresAll.new_apart (h : RestoresAll accepts c rs notices c') (hu : c.Unambiguous) :
    notices.Pairwise fun n m => n.accepted = true →
      n.rekeying.database = m.rekeying.database → n.rekeying.newId ≠ m.rekeying.newId := by
  induction h with
  | nil => exact .nil
  | @cons c c' c'' r rs notice notices h hall ih =>
    refine List.pairwise_append.mpr
      ⟨pairwise_toList notice, ih h.unambiguous, fun n hn m hm ha hd he => ?_⟩
    have hn := Option.mem_toList.mp hn
    have hmem := (h.records n.record).mpr (.inl (h.mem_renewed_iff.mpr ⟨n, hn, ha, rfl⟩))
    have hfresh := (hall.unused h.unambiguous hm).2
    rw [h.unambiguous.mem_records, (h.concerns hn).ofLogName_record, hd] at hmem
    rw [← he] at hfresh
    exact absurd (hmem.symm.trans hfresh) nofun

/-! ## Starting -/

def bootNotices (peers : Peers) (c : Core) : List Notice :=
  match c.restore peers with
  | (.ok (_, notices), _) => notices
  | (.error _, _) => []

/-- The daemon that starts takes up listeners as its notices say. -/
theorem exists_restoresAll_boot (h : c.Fresh) (peers : Peers) :
    ∃ c₀ c₁ : Core, c₀.Unambiguous ∧ c₀.records = [] ∧
      (∀ order, (c.boot peers order).records = c₁.records) ∧
      RestoresAll peers.rekey c₀ c.surviving.listeners (c.bootNotices peers) c₁ := by
  obtain ⟨report, notices, c₁, hrestore, htakes⟩ := exists_takesUp h peers
  obtain ⟨c₀, hu, hempty, hall⟩ := htakes.restores
  refine ⟨c₀, c₁, hu, hempty, fun order => ?_, ?_⟩
  · rw [boot, hrestore, records_compact]
  · rwa [bootNotices, hrestore]

theorem mem_records_boot (h : c.Fresh) (peers : Peers) (order : List String) :
    s ∈ (c.boot peers order).records ↔
      ∃ n ∈ c.bootNotices peers, n.accepted = true ∧ n.record = s := by
  obtain ⟨c₀, c₁, -, hempty, hboot, hall⟩ := exists_restoresAll_boot h peers
  rw [hboot, hall.mem_records_iff, hempty]
  exact or_iff_right List.not_mem_nil

theorem new_apart_boot (h : c.Fresh) (peers : Peers) :
    (c.bootNotices peers).Pairwise fun n m => n.accepted = true →
      n.rekeying.database = m.rekeying.database → n.rekeying.newId ≠ m.rekeying.newId := by
  obtain ⟨c₀, c₁, hu, -, -, hall⟩ := exists_restoresAll_boot h peers
  exact hall.new_apart hu

section Restarted

variable (h : c.Settled) (peers : Peers)

include h

theorem mem_surviving_restarted :
    r ∈ (Session.restarted c).surviving.listeners ↔ r ∈ c.records := by
  obtain ⟨s, hs, -, -, hlisteners⟩ := h.mirrored
  rw [h.sound.ready.readLog] at hs
  cases hs
  exact hlisteners.mem_iff

theorem old_apart_restarted :
    ((Session.restarted c).bootNotices peers).Pairwise fun n m =>
      n.rekeying.database = m.rekeying.database → n.rekeying.oldId ≠ m.rekeying.oldId := by
  obtain ⟨c₀, c₁, -, -, -, hall⟩ := exists_restoresAll_boot (fresh_restarted h.sound) peers
  exact hall.old_apart (h.sound.unambiguous.idsApart (distinct_surviving _).listeners
    fun r hr => (mem_surviving_restarted h).mp hr)

/-- The next daemon writes to clients about listeners that they had. -/
theorem exists_listener?_of_notice {n : Notice}
    (hn : n ∈ (Session.restarted c).bootNotices peers) :
    ∃ s, c.listener? n.rekeying.database n.rekeying.oldId = some s ∧ s.client = n.client := by
  obtain ⟨c₀, c₁, -, -, -, hall⟩ := exists_restoresAll_boot (fresh_restarted h.sound) peers
  obtain ⟨r, hr, hconcerns⟩ := hall.exists_record hn
  have hrecord := h.sound.unambiguous.mem_records.mp ((mem_surviving_restarted h).mp hr)
  rw [hconcerns.rekeying]
  exact ⟨_, hrecord, hconcerns.client.symm⟩

end Restarted

end ConfigDaemon.Core
