import ConfigDaemon.Proofs.Core.Records
import ConfigDaemon.Proofs.Log.Compaction
import ConfigDaemon.Proofs.Log.Surviving

/-! # Telling the log

What an entry tells can be asked of the state of the daemon as it is asked of what survives. The
log has been told of a change when just the entries were added that hold after it and not before.
-/

namespace ConfigDaemon

open Log

namespace Log

theorem Entry.Recordable.opposite {e : Entry} (h : e.Recordable) : e.opposite.Recordable := by
  obtain ⟨⟨htexts, hid⟩, hlines⟩ := h
  cases e <;> exact ⟨⟨htexts, hid⟩, hlines⟩

theorem Entry.Recordable.withId {r : Record} {id : UInt32} (h : (Entry.addListener r).Recordable)
    (hid : id ≠ 0) : (Entry.addListener { r with id }).Recordable := by
  obtain ⟨⟨htexts, -⟩, hlines⟩ := h
  refine ⟨⟨htexts, ?_⟩, hlines⟩
  rintro _ ⟨⟩
  exact hid

end Log

def Log.Record.Valid (r : Log.Record) : Prop :=
  Key.fault? r.location = none ∧ Client.isAddress r.client = true

instance (r : Log.Record) : Decidable r.Valid :=
  inferInstanceAs (Decidable (_ ∧ _))

def Log.Entry.Valid : Log.Entry → Prop
  | .addClient a | .removeClient a => Client.isAddress a = true
  | .addListener r | .removeListener r => r.Valid

namespace Core

variable {c c' c'' : Core} {e f : Log.Entry} {es fs : List Log.Entry}

def Holds (c : Core) : Log.Entry → Prop
  | .addClient a => a ∈ c.clients.keys
  | .removeClient a => a ∉ c.clients.keys
  | .addListener r => r ∈ c.records
  | .removeListener r => r ∉ c.records

theorem holds_opposite : c.Holds e.opposite ↔ ¬ c.Holds e := by
  cases e <;> simp [Holds, Log.Entry.opposite]

/-- What a compacted log holds, where its order is of no account. -/
def snapshot (c : Core) : List Log.Entry :=
  c.clients.keys.map .addClient ++ c.records.map .addListener

theorem perm_snapshotIn (c : Core) (order : List String) :
    (c.snapshotIn order).Perm c.snapshot :=
  ((c.perm_recordsIn order).map _).append_left _

theorem mem_snapshot : e ∈ c.snapshot ↔ ¬ e.IsRemoval ∧ c.Holds e := by
  cases e <;> simp [snapshot, Holds, Log.Entry.IsRemoval]

/-- The entry tells of something that came or went between two states. -/
def Tells (c c' : Core) (e : Log.Entry) : Prop :=
  ¬ c.Holds e ∧ c'.Holds e

theorem tells_opposite : Tells c' c e.opposite ↔ Tells c c' e := by
  unfold Tells
  rw [holds_opposite, holds_opposite, not_not, and_comm]

theorem opposite_not_mem_of_tells (htells : ∀ e, e ∈ es ↔ Tells c c' e) :
    ∀ e ∈ es, e.opposite ∉ es :=
  fun e he ho => holds_opposite.mp ((htells _).mp ho).2 ((htells e).mp he).2

theorem holds_iff_of_tells (htells : ∀ e, e ∈ es ↔ Tells c c' e) (e : Log.Entry) :
    c'.Holds e ↔ e ∈ es ∨ e.opposite ∉ es ∧ c.Holds e := by
  rw [htells, htells, Tells, Tells, holds_opposite, holds_opposite]
  tauto

/-- Two changes of which the second takes back nothing of the first. -/
theorem tells_append (h : ∀ e, e ∈ es ↔ Tells c c' e) (h' : ∀ e, e ∈ fs ↔ Tells c' c'' e)
    (hes : ∀ e ∈ es, e.opposite ∉ fs) (e : Log.Entry) : e ∈ es ++ fs ↔ Tells c c'' e := by
  have hfs : e ∈ fs → e.opposite ∉ es := fun hf he =>
    hes _ he (by rwa [Log.Entry.opposite_opposite])
  rw [List.mem_append, Tells, holds_iff_of_tells h', holds_iff_of_tells h]
  have htells := h e
  have htells' := h' e
  have hno := hes e
  have hfirst := holds_iff_of_tells h e
  unfold Tells at htells htells'
  tauto

theorem holds_iff_of_tells_nil (htells : ∀ e, e ∈ ([] : List Log.Entry) ↔ Tells c c' e)
    (e : Log.Entry) : c'.Holds e ↔ c.Holds e :=
  (holds_iff_of_tells htells e).trans (by simp)

theorem eq_nil_of_tells (htells : ∀ e, e ∈ es ↔ Tells c c' e)
    (hholds : ∀ e, c'.Holds e ↔ c.Holds e) : es = [] := by
  refine List.eq_nil_iff_forall_not_mem.mpr fun e he => ?_
  obtain ⟨hnot, hyes⟩ := (htells e).mp he
  exact hnot ((hholds e).mp hyes)

theorem snapshotIn_eq (hu : c.Unambiguous) (hu' : c'.Unambiguous)
    (hholds : ∀ e, c'.Holds e ↔ c.Holds e) (order : List String) :
    c'.snapshotIn order = c.snapshotIn order := by
  have hkeys : c'.clients.keys = c.clients.keys :=
    c'.clients.keys_ascending.eq_of_mem_iff c.clients.keys_ascending
      fun a => hholds (.addClient a)
  rw [snapshotIn, snapshotIn, hkeys, hu.recordsIn_eq hu' (fun r => hholds (.addListener r)) order]

def logContents (c : Core) : Bytes :=
  Log.contents c.log.place c.disk

structure Ready (c : Core) : Prop where
  writable : Log.Writable c.log.place c.disk
  attached : c.log.Attached c.disk

def Compactable (c : Core) : Prop :=
  Log.Usable c.log.place c.disk

def Recordable (c : Core) : Prop :=
  ∀ e ∈ c.snapshot, e.Recordable

theorem recordable_iff : c.Recordable ↔
    (∀ a ∈ c.clients.keys, (Log.Entry.addClient a).Recordable) ∧
      ∀ r ∈ c.records, (Log.Entry.addListener r).Recordable := by
  rw [Recordable, snapshot, List.forall_mem_append, List.forall_mem_map, List.forall_mem_map]

def Valid (c : Core) : Prop :=
  ∀ e ∈ c.snapshot, e.Valid

structure Sound (c : Core) : Prop where
  ready : c.Ready
  compactable : c.Compactable
  unambiguous : c.Unambiguous
  recordable : c.Recordable

theorem Ready.congr (h : c.Ready) (hlog : c'.log = c.log) (hdisk : c'.disk = c.disk) :
    c'.Ready := by
  constructor
  · rw [hlog, hdisk]; exact h.writable
  · rw [hlog, hdisk]; exact h.attached

theorem Ready.readLog (h : c.Ready) :
    c.readLog = .ok (.ofEntries (entriesOfBytes c.logContents)) := by
  rw [Core.readLog, Store.read_spec h.writable]
  rfl

/-- The log mirrors the state: reading it gives the clients and the listeners, each once. -/
def Mirrored (c : Core) : Prop :=
  ∃ s, c.readLog = .ok s ∧ s.Distinct ∧ s.clients.Perm c.clients.keys ∧ s.listeners.Perm c.records

theorem mirrored_iff_of_readLog (hu : c.Unambiguous) (hread : c.readLog = .ok (.ofEntries es)) :
    c.Mirrored ↔ ∀ e, (Surviving.ofEntries es).Holds e ↔ c.Holds e := by
  have hd := Surviving.distinct_ofEntries es
  rw [Mirrored, hread]
  constructor
  · rintro ⟨_, ⟨⟩, -, hclients, hrecords⟩ e
    cases e with
    | addClient a => exact hclients.mem_iff
    | removeClient a => exact not_congr hclients.mem_iff
    | addListener r => exact hrecords.mem_iff
    | removeListener r => exact not_congr hrecords.mem_iff
  · intro hholds
    refine ⟨_, rfl, hd, ?_, ?_⟩
    · rw [List.perm_ext_iff_of_nodup hd.clients c.clients.nodup_keys]
      exact fun a => hholds (.addClient a)
    · rw [List.perm_ext_iff_of_nodup hd.listeners hu.nodup_records]
      exact fun r => hholds (.addListener r)

theorem Sound.mirrored_iff (h : c.Sound) :
    c.Mirrored ↔ ∀ e, (Surviving.ofEntries (entriesOfBytes c.logContents)).Holds e ↔ c.Holds e :=
  mirrored_iff_of_readLog h.unambiguous h.ready.readLog

theorem mem_entriesOfBytes_of_mirrored (h : c.Ready) (hm : c.Mirrored) {e : Log.Entry}
    (he : e ∈ c.snapshot) : e ∈ entriesOfBytes c.logContents := by
  obtain ⟨s, hs, -, hclients, hrecords⟩ := hm
  rw [h.readLog] at hs
  cases hs
  obtain ⟨hadd, hholds⟩ := mem_snapshot.mp he
  refine Surviving.mem_of_holds hadd ?_
  cases e with
  | addClient a => exact hclients.mem_iff.mpr hholds
  | removeClient a => exact (hadd trivial).elim
  | addListener r => exact hrecords.mem_iff.mpr hholds
  | removeListener r => exact (hadd trivial).elim

theorem recordable_of_mirrored (h : c.Ready) (hm : c.Mirrored) : c.Recordable :=
  fun _ he => (recordable_of_mem (mem_entriesOfBytes_of_mirrored h hm he)).1

/-- From one state to the next the log has been told what changed, once each, and nothing else. -/
structure Told (c : Core) (es : List Log.Entry) (c' : Core) : Prop where
  sound : c'.Sound
  place : c'.log.place = c.log.place
  nodup : es.Nodup
  tells : ∀ e, e ∈ es ↔ Tells c c' e
  contents : c'.logContents = c.logContents ++ logBytes es

/-- What goes was there and could be written; what comes can be written from then on. -/
theorem Told.recordable (h : Told c es c') (hc : c.Recordable) : ∀ e ∈ es, e.Recordable := by
  intro e he
  obtain ⟨hnot, hholds⟩ := (h.tells e).mp he
  by_cases hr : e.IsRemoval
  · have hopp : c.Holds e.opposite := holds_opposite.mpr hnot
    have := hc _ (mem_snapshot.mpr ⟨hr.opposite, hopp⟩)
    rw [← e.opposite_opposite]
    exact this.opposite
  · exact h.sound.recordable e (mem_snapshot.mpr ⟨hr, hholds⟩)

theorem Told.valid (h : Told c es c') (hc : c.Valid) (hes : ∀ e ∈ es, ¬ e.IsRemoval → e.Valid) :
    c'.Valid := by
  intro e he
  obtain ⟨hadd, hholds⟩ := mem_snapshot.mp he
  by_cases hbefore : c.Holds e
  · exact hc e (mem_snapshot.mpr ⟨hadd, hbefore⟩)
  · exact hes e ((h.tells e).mpr ⟨hbefore, hholds⟩) hadd

/-- A log that was told what changed goes on mirroring the state, if it was finished. -/
theorem Told.mirrored (h : Told c es c') (hc : c.Sound) (hm : c.Mirrored)
    (hf : Finished c.logContents) : c'.Mirrored ∧ Finished c'.logContents := by
  have hes := h.recordable hc.recordable
  rw [hc.mirrored_iff] at hm
  rw [h.sound.mirrored_iff, h.contents, entriesOfBytes_append hes hf]
  refine ⟨fun e => ?_, finished_append (fun e he => (hes e he).oneLine) hf⟩
  rw [Surviving.ofEntries_append,
    Surviving.holds_foldl (opposite_not_mem_of_tells h.tells) (Surviving.distinct_ofEntries _), hm,
    holds_iff_of_tells h.tells]

/-! ## Logging a change -/

/-- What has been added to the log, on a disk with no more folders in the way than before. -/
structure Grown (c c' : Core) (bytes : Bytes) : Prop where
  ready : c'.Ready
  place : c'.log.place = c.log.place
  clear : ∀ names, Log.Clear names c.disk → Log.Clear names c'.disk
  contents : c'.logContents = c.logContents ++ bytes

theorem Grown.compactable {bytes : Bytes} (h : Grown c c' bytes) (hc : c.Compactable) :
    c'.Compactable := by
  rw [Compactable, h.place]
  exact h.clear _ hc

theorem Ready.logChange (h : c.Ready) (e : Log.Entry) :
    Grown c (c.logChange e) (Store.entryBytes e) := by
  obtain ⟨s', d', happend, hb⟩ := Store.append_spec h.writable h.attached e
  have hlog : c.logChange e = { c with log := s', disk := d', needsCompaction := true } := by
    rw [Core.logChange, happend]
  rw [hlog]
  refine ⟨⟨?_, hb.attached⟩, hb.place, hb.clear, ?_⟩
  · exact hb.place ▸ hb.clear _ h.writable
  · exact (congrArg (Log.contents · d') hb.place).trans hb.contents

/-- From one state to the next the log was given these entries, whether it could take them or not.
If there were any, it needs a compaction. -/
structure Entered (c : Core) (es : List Log.Entry) (c' : Core) : Prop where
  written : c.log.Writes c.disk es c'.log c'.disk
  needs : c'.needsCompaction = (c.needsCompaction || !es.isEmpty)

theorem entered_nil (hlog : c'.log = c.log) (hdisk : c'.disk = c.disk)
    (hneeds : c'.needsCompaction = c.needsCompaction) : Entered c [] c' :=
  ⟨by rw [hlog, hdisk]; exact .refl, by rw [hneeds]; exact (Bool.or_false _).symm⟩

theorem entered_refl (c : Core) : Entered c [] c :=
  entered_nil rfl rfl rfl

theorem Entered.trans (h : Entered c es c') (h' : Entered c' fs c'') :
    Entered c (es ++ fs) c'' where
  written := h.written.trans h'.written
  needs := by
    rw [h'.needs, h.needs, Bool.or_assoc]
    cases es <;> cases fs <;> simp

theorem entered_logChange (c : Core) (e : Log.Entry) : Entered c [e] (c.logChange e) :=
  ⟨.append .refl e, (Bool.or_true _).symm⟩

theorem entered_logChanges (c : Core) (es : List Log.Entry) : Entered c es (c.logChanges es) := by
  induction es generalizing c with
  | nil => exact entered_refl c
  | cons e es ih => exact (entered_logChange c e).trans (ih _)

theorem Entered.grown (h : Entered c es c') (hc : c.Ready) : Grown c c' (logBytes es) := by
  have hb := h.written.becomes hc.writable hc.attached
  refine ⟨⟨?_, hb.attached⟩, hb.place, hb.clear, ?_⟩
  · exact hb.place ▸ hb.clear _ hc.writable
  · exact (congrArg (Log.contents · c'.disk) hb.place).trans hb.contents

@[simp] theorem holds_logChange : (c.logChange e).Holds f ↔ c.Holds f := by
  cases f <;> rfl

@[simp] theorem holds_logChanges : (c.logChanges es).Holds f ↔ c.Holds f := by
  induction es generalizing c with
  | nil => rfl
  | cons e es ih => exact (ih (c := c.logChange e)).trans holds_logChange

theorem Unambiguous.logChanges (h : c.Unambiguous) (es : List Log.Entry) :
    (c.logChanges es).Unambiguous := by
  induction es generalizing c with
  | nil => exact h
  | cons e es ih => exact ih (c := c.logChange e) h

theorem recordable_congr (h : ∀ e, c'.Holds e ↔ c.Holds e) : c'.Recordable ↔ c.Recordable := by
  simp only [Recordable, mem_snapshot, h]

/-- From one state to the next the log was given just what changed, once each, whether it could
take it or not; and what came can be written. -/
structure Reported (c : Core) (es : List Log.Entry) (c' : Core) : Prop where
  entered : Entered c es c'
  unambiguous : c'.Unambiguous
  nodup : es.Nodup
  recordable : ∀ e ∈ es, ¬ e.IsRemoval → e.Recordable
  tells : ∀ e, e ∈ es ↔ Tells c c' e

theorem Reported.recordable_state (h : Reported c es c') (hc : c.Recordable) : c'.Recordable := by
  intro e he
  obtain ⟨hadd, hholds⟩ := mem_snapshot.mp he
  by_cases hbefore : c.Holds e
  · exact hc e (mem_snapshot.mpr ⟨hadd, hbefore⟩)
  · exact h.recordable e ((h.tells e).mpr ⟨hbefore, hholds⟩) hadd

theorem Reported.told (h : Reported c es c') (hc : c.Sound) : Told c es c' := by
  have hgrown := h.entered.grown hc.ready
  exact ⟨⟨hgrown.ready, hgrown.compactable hc.compactable, h.unambiguous,
    h.recordable_state hc.recordable⟩, hgrown.place, h.nodup, h.tells, hgrown.contents⟩

theorem reported_logChanges (h : Entered c [] c') (hu : c'.Unambiguous) (hnodup : es.Nodup)
    (hes : ∀ e ∈ es, ¬ e.IsRemoval → e.Recordable) (htells : ∀ f, f ∈ es ↔ Tells c c' f) :
    Reported c es (c'.logChanges es) where
  entered := h.trans (entered_logChanges c' es)
  unambiguous := hu.logChanges es
  nodup := hnodup
  recordable := hes
  tells f := by rw [htells, Tells, Tells, holds_logChanges]

theorem reported_logChange (h : Entered c [] c') (hu : c'.Unambiguous)
    (he : ¬ e.IsRemoval → e.Recordable) (htells : ∀ f, f = e ↔ Tells c c' f) :
    Reported c [e] (c'.logChange e) := by
  refine reported_logChanges h hu (List.nodup_singleton e) ?_ ?_
  · rwa [List.forall_mem_singleton]
  · intro f; rw [List.mem_singleton, htells]

theorem reported_nil (h : Entered c [] c') (hu : c'.Unambiguous)
    (hholds : ∀ e, c'.Holds e ↔ c.Holds e) : Reported c [] c' := by
  refine ⟨h, hu, .nil, List.forall_mem_nil _, fun e => ?_⟩
  rw [Tells, hholds]
  simp

theorem reported_refl (hu : c.Unambiguous) : Reported c [] c :=
  reported_nil (entered_refl c) hu fun _ => Iff.rfl

theorem Reported.trans (h : Reported c es c') (h' : Reported c' fs c'')
    (hes : ∀ e ∈ es, e.opposite ∉ fs) : Reported c (es ++ fs) c'' where
  entered := h.entered.trans h'.entered
  unambiguous := h'.unambiguous
  nodup := h.nodup.append h'.nodup fun e he hf =>
    ((h'.tells e).mp hf).1 ((h.tells e).mp he).2
  recordable := List.forall_mem_append.mpr ⟨h.recordable, h'.recordable⟩
  tells := tells_append h.tells h'.tells hes

/-! ## Compaction -/

theorem Sound.compact (hc : c.Sound) (order : List String) :
    ∃ c', c.compact order = (.ok (), c') ∧ c'.Sound ∧ c'.log.place = c.log.place ∧
      (∀ e, c'.Holds e ↔ c.Holds e) ∧ c'.logContents = logBytes (c.snapshotIn order) := by
  obtain ⟨d', hrun, hb⟩ := Store.compact_spec hc.compactable (c.snapshotIn order)
  have hholds : ∀ e, { c with log := c.log.close, disk := d', needsCompaction := false }.Holds e ↔
      c.Holds e := by
    intro e
    cases e <;> rfl
  refine ⟨{ c with log := c.log.close, disk := d', needsCompaction := false }, ?_,
    ⟨⟨hb.usable.writable, nofun⟩, hb.usable, hc.unambiguous, ?_⟩, rfl, hholds, hb.contents⟩
  · rw [Core.compact, hrun]
  · exact (recordable_congr hholds).mpr hc.recordable

theorem holds_ofEntries_snapshot (hes : es.Perm c.snapshot) (e : Log.Entry) :
    (Surviving.ofEntries es).Holds e ↔ c.Holds e := by
  have hmem : ∀ e, e ∈ es ↔ ¬ e.IsRemoval ∧ c.Holds e := fun e => hes.mem_iff.trans mem_snapshot
  have hopp : ∀ e ∈ es, e.opposite ∉ es := by
    intro e he ho
    exact holds_opposite.mp ((hmem _).mp ho).2 ((hmem e).mp he).2
  rw [Surviving.ofEntries, Surviving.holds_foldl hopp Surviving.distinct_empty, hmem, hmem,
    holds_opposite]
  cases e <;> simp [Log.Entry.IsRemoval, Log.Entry.opposite, Surviving.Holds, Surviving.empty]

theorem Sound.mirrored_of_snapshot (hc : c.Sound) {s : Core} (hs : ∀ e, c.Holds e ↔ s.Holds e)
    (hes : es.Perm s.snapshot) (hbytes : c.logContents = logBytes es) :
    c.Mirrored ∧ Finished c.logContents := by
  have hrec : ∀ e ∈ es, e.Recordable := fun e he =>
    (recordable_congr hs).mp hc.recordable e (hes.mem_iff.mp he)
  rw [hc.mirrored_iff, hbytes, entriesOfBytes_logBytes hrec]
  refine ⟨fun e => ?_, finished_logBytes fun e he => (hrec e he).oneLine⟩
  rw [holds_ofEntries_snapshot hes, hs]

end Core

end ConfigDaemon
