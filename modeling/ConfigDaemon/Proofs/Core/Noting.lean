import ConfigDaemon.Proofs.Core.Replay
import ConfigDaemon.Proofs.Log.Attempts

/-! # What needs a compaction

Whatever is asked of a daemon, it needs a compaction if a client or a listener came or went, also
when the log could not be written. A replay that takes up nothing needs none.
-/

namespace ConfigDaemon.Core

open Log

variable {c c' c'' : Core}

/-- From one state to the next the log was given entries if anything changed, and all that is there
can be written. -/
structure Heeds (c c' : Core) : Prop where
  unambiguous : c'.Unambiguous
  recordable : c'.Recordable
  entered : ∃ es, Entered c es c' ∧ (es = [] → ∀ e, c'.Holds e ↔ c.Holds e)

theorem Heeds.trans (h : Heeds c c') (h' : Heeds c' c'') : Heeds c c'' where
  unambiguous := h'.unambiguous
  recordable := h'.recordable
  entered := by
    obtain ⟨es, hes, hkept⟩ := h.entered
    obtain ⟨fs, hfs, hkept'⟩ := h'.entered
    refine ⟨es ++ fs, hes.trans hfs, fun hnil e => ?_⟩
    obtain ⟨he, hf⟩ := List.append_eq_nil_iff.mp hnil
    exact (hkept' hf e).trans (hkept he e)

theorem heeds_of_entered_nil (h : Entered c [] c') (hu : c'.Unambiguous) (hr : c.Recordable)
    (hholds : ∀ e, c'.Holds e ↔ c.Holds e) : Heeds c c' :=
  ⟨hu, (recordable_congr hholds).mpr hr, [], h, fun _ => hholds⟩

theorem Reported.heeds {es : List Log.Entry} (h : Reported c es c') (hr : c.Recordable) :
    Heeds c c' := by
  refine ⟨h.unambiguous, h.recordable_state hr, es, h.entered, ?_⟩
  rintro rfl
  exact holds_iff_of_tells_nil h.tells

theorem Entered.needsCompaction_eq (h : Entered c [] c') :
    c'.needsCompaction = c.needsCompaction :=
  h.needs.trans (Bool.or_false _)

theorem Reported.needsCompaction_eq {es : List Log.Entry} (h : Reported c es c')
    (hholds : ∀ e, c'.Holds e ↔ c.Holds e) : c'.needsCompaction = c.needsCompaction := by
  obtain rfl := eq_nil_of_tells h.tells hholds
  exact h.entered.needsCompaction_eq

/-! ## Replays -/

theorem Revives.heeds {ping : String → Bool} {addresses : List String}
    (h : Revives ping c addresses c') (hu : c.Unambiguous) (hr : c.Recordable)
    (ha : ∀ a ∈ addresses, (Log.Entry.addClient a).Recordable) : Heeds c c' where
  unambiguous := h.unambiguous hu
  recordable := by
    rw [recordable_iff] at hr ⊢
    refine ⟨fun a hmem => ?_, h.records_eq ▸ hr.2⟩
    rcases (h.clients a).mp hmem with hold | ⟨hnew, -⟩
    · exact hr.1 a hold
    · exact ha a hnew
  entered := by
    obtain ⟨es, -, htells, hentered⟩ := h.entered
    refine ⟨es, hentered, ?_⟩
    rintro rfl
    exact holds_iff_of_tells_nil htells

theorem Restores.heeds {accepts : String → Rekeying → Bool} {r : Log.Record}
    {notice : Option Notice} (h : Restores accepts c r notice c') (hr : c.Recordable)
    (hrec : (Log.Entry.addListener r).Recordable) : Heeds c c' where
  unambiguous := h.unambiguous
  recordable := by
    rw [recordable_iff] at hr ⊢
    refine ⟨h.clients ▸ hr.1, fun s hmem => ?_⟩
    rcases (h.records s).mp hmem with hnew | hold
    · rw [(h.valid_of_mem_renewed hnew).2]
      exact hrec.withId (h.fresh hnew).1
    · exact hr.2 s hold
  entered := by
    refine ⟨_, h.entered, fun hnil e => ?_⟩
    have hinvalid : ¬ r.Valid := by
      intro hvalid
      rw [retold, if_pos hvalid] at hnil
      cases hnil
    have hrecords : ∀ s, s ∈ c'.records ↔ s ∈ c.records := fun s =>
      (h.records s).trans (or_iff_right fun hnew => hinvalid (h.valid_of_mem_renewed hnew).1)
    cases e <;> simp only [Holds, h.clients, hrecords]

theorem RestoresAll.heeds {accepts : String → Rekeying → Bool} {rs : List Log.Record}
    {notices : List Notice} (h : RestoresAll accepts c rs notices c') (hu : c.Unambiguous)
    (hr : c.Recordable) (hrs : ∀ r ∈ rs, (Log.Entry.addListener r).Recordable) : Heeds c c' := by
  induction h with
  | nil => exact heeds_of_entered_nil (entered_refl _) hu hr fun _ => Iff.rfl
  | cons h _ ih =>
    obtain ⟨hrec, hrecs⟩ := List.forall_mem_cons.mp hrs
    have hfirst := h.heeds hr hrec
    exact hfirst.trans (ih hfirst.unambiguous hfirst.recordable hrecs)

theorem restoreAll_of_not_valid {accepts : String → Rekeying → Bool} {rs : List Log.Record}
    (h : ∀ r ∈ rs, ¬ r.Valid) : (c.restoreAll accepts rs).2 = c := by
  induction rs with
  | nil => rfl
  | cons r rs ih =>
    obtain ⟨hr, hrs⟩ := List.forall_mem_cons.mp h
    rw [restoreAll, restoreListener_of_not_valid hr]
    exact ih hrs

/-- A log that cannot be read is closed, and one that can be is taken up after that. -/
theorem restore_eq_of_readLog (c : Core) (peers : Peers) :
    (c.restore peers).2 =
      match c.readLog with
      | .error _ => { c with log := c.log.close }
      | .ok s => (({ c with log := c.log.close }.reviveAll peers.ping s.clients).2.restoreAll
          peers.rekey s.listeners).2 := by
  rw [restore, read_eq]
  cases c.readLog <;> rfl

theorem entered_closed (c : Core) : Entered c [] { c with log := c.log.close } :=
  ⟨.close .refl, (Bool.or_false _).symm⟩

theorem heeds_closed (hu : c.Unambiguous) (hr : c.Recordable) :
    Heeds c { c with log := c.log.close } :=
  heeds_of_entered_nil (entered_closed c) hu hr fun e => by cases e <;> rfl

theorem heeds_restore (hu : c.Unambiguous) (hr : c.Recordable) (peers : Peers) :
    Heeds c (c.restore peers).2 := by
  have hclosed := heeds_closed hu hr
  rw [restore_eq_of_readLog]
  split
  · exact hclosed
  · rename_i s hs
    obtain rfl := surviving_of_readLog hs
    have hrevived := (revives_revived c peers).heeds hclosed.unambiguous hclosed.recordable
      fun _ => recordable_client_of_mem_surviving
    have hrestored := (restoresAll_revived hu peers).heeds hrevived.unambiguous
      hrevived.recordable fun _ => recordable_of_mem_surviving
    exact hclosed.trans (hrevived.trans hrestored)

/-! ## Demands -/

/-- What may be asked of a daemon at any time: an act, a replay, or to shut down. -/
inductive Demand
  | act (a : Act)
  | restore (peers : Peers)
  | shutdown

def comply (c : Core) : Demand → Core
  | .act a => c.act a
  | .restore peers => (c.restore peers).2
  | .shutdown => c.beginShutdown

def Demand.Plain : Demand → Prop
  | .act a => a.Plain
  | .restore _ | .shutdown => True

def CompactsOn (c : Core) : Demand → Prop
  | .act a => c.Compacts a
  | .restore _ | .shutdown => False

def Readmits (c : Core) : Demand → Prop
  | .restore _ => ∃ s, c.readLog = .ok s ∧ ∃ r ∈ s.listeners, r.Valid
  | .act _ | .shutdown => False

theorem heeds_comply (hu : c.Unambiguous) (hr : c.Recordable) {d : Demand} (hd : d.Plain)
    (hcompact : ¬ c.CompactsOn d) : Heeds c (c.comply d) := by
  cases d with
  | act a =>
    obtain ⟨es, -, h⟩ := reports_act hu hd hcompact
    exact h.heeds hr
  | restore peers => exact heeds_restore hu hr peers
  | shutdown =>
    exact heeds_of_entered_nil (entered_nil rfl rfl rfl) hu hr fun e => by cases e <;> rfl

theorem needsCompaction_comply (hu : c.Unambiguous) {d : Demand} (hd : d.Plain)
    (hcompact : ¬ c.CompactsOn d) (hquiet : ¬ c.Readmits d)
    (hholds : ∀ e, (c.comply d).Holds e ↔ c.Holds e) :
    (c.comply d).needsCompaction = c.needsCompaction := by
  cases d with
  | act a =>
    obtain ⟨es, -, h⟩ := reports_act hu hd hcompact
    exact h.needsCompaction_eq hholds
  | shutdown => rfl
  | restore peers =>
    rw [comply, restore_eq_of_readLog] at hholds ⊢
    split at hholds
    · rfl
    · rename_i s hs
      have hinvalid : ∀ r ∈ s.listeners, ¬ r.Valid := fun r hr hv => hquiet ⟨s, hs, r, hr, hv⟩
      simp only [restoreAll_of_not_valid hinvalid] at hholds ⊢
      obtain ⟨es, -, htells, hentered⟩ :=
        (revives_reviveAll peers.ping { c with log := c.log.close } s.clients).entered
      have hclosed : ∀ e, { c with log := c.log.close }.Holds e ↔ c.Holds e := by
        intro e
        cases e <;> rfl
      obtain rfl := eq_nil_of_tells htells fun e => (hholds e).trans (hclosed e).symm
      exact hentered.needsCompaction_eq

end ConfigDaemon.Core
