import ConfigDaemon.Proofs.Core.Replay

/-! # The log after a replay

A replay leaves a log that tells of what is live and of the records that it passed over, unless it
takes up a record under the identifier that a record still to come has. That one cancels it.
-/

namespace ConfigDaemon.Core

open Log

variable {c c' : Core} {accepts : String → Rekeying → Bool} {r s : Log.Record}
  {rs : List Log.Record}

/-- No record is taken up as one that is still to come. -/
def Undisturbed (accepts : String → Rekeying → Bool) : Core → List Log.Record → Prop
  | _, [] => True
  | c, r :: rs =>
    (∀ s ∈ renewed r (c.restoreListener accepts r).1, s ∉ rs) ∧
      Undisturbed accepts (c.restoreListener accepts r).2 rs

instance decidableUndisturbed (accepts : String → Rekeying → Bool) :
    (c : Core) → (rs : List Log.Record) → Decidable (Undisturbed accepts c rs)
  | _, [] => inferInstanceAs (Decidable True)
  | c, r :: rs =>
    have := decidableUndisturbed accepts (c.restoreListener accepts r).2 rs
    inferInstanceAs (Decidable (_ ∧ _))

theorem restoreAll_cons_snd (accepts : String → Rekeying → Bool) (c : Core) (r : Log.Record)
    (rs : List Log.Record) :
    (c.restoreAll accepts (r :: rs)).2 =
      ((c.restoreListener accepts r).2.restoreAll accepts rs).2 :=
  rfl

/-- Records can be read back, and nothing runs on from an earlier line. -/
structure Readable (c : Core) (rs : List Log.Record) : Prop where
  ready : c.Ready
  unambiguous : c.Unambiguous
  finished : Finished c.logContents
  recordable : ∀ r ∈ rs, (Log.Entry.addListener r).Recordable

section Step

variable {notice : Option Notice} (h : Restores accepts c r notice c')

include h

theorem Restores.recordable_retold (hr : (Log.Entry.addListener r).Recordable) :
    ∀ e ∈ retold r notice, e.Recordable := by
  intro e he
  unfold retold at he
  split at he
  · rcases List.mem_cons.mp he with rfl | he
    · exact hr.opposite
    · obtain ⟨s, hs, rfl⟩ := List.mem_map.mp he
      have hs := Option.mem_toList.mp hs
      rw [(h.valid_of_mem_renewed hs).2]
      exact hr.withId (h.fresh hs).1
  · cases he

theorem Restores.readable (hc : c.Readable (r :: rs)) : c'.Readable rs where
  ready := (h.grown hc.ready).ready
  unambiguous := h.unambiguous
  finished := by
    have hes := h.recordable_retold (hc.recordable r List.mem_cons_self)
    rw [(h.grown hc.ready).contents]
    exact finished_append (fun e he => (hes e he).oneLine) hc.finished
  recordable r hr := hc.recordable r (List.mem_cons_of_mem _ hr)

theorem Restores.surviving_eq (hc : c.Readable (r :: rs)) :
    c'.surviving = (retold r notice).foldl Surviving.apply c.surviving := by
  have hes := h.recordable_retold (hc.recordable r List.mem_cons_self)
  rw [surviving, (h.grown hc.ready).contents, entriesOfBytes_append hes hc.finished,
    Surviving.ofEntries_append]
  rfl

theorem Restores.surviving_of_not_valid (hc : c.Readable (r :: rs)) (hr : ¬ r.Valid) :
    c'.surviving = c.surviving := by
  rw [h.surviving_eq hc, retold, if_neg hr]
  rfl

theorem Restores.mem_surviving (hc : c.Readable (r :: rs)) (hr : r.Valid) :
    s ∈ c'.surviving.listeners ↔ s ∈ renewed r notice ∨ s ≠ r ∧ s ∈ c.surviving.listeners := by
  have hd := distinct_surviving c
  have herase : ∀ x, x ∈ (c.surviving.apply (.removeListener r)).listeners ↔
      x ≠ r ∧ x ∈ c.surviving.listeners := fun x => hd.listeners.mem_erase_iff
  rw [h.surviving_eq hc, retold, if_pos hr, List.foldl_cons]
  cases renewed r notice with
  | none =>
    simp only [Option.toList_none, List.map_nil, List.foldl_nil, Option.not_mem_none, false_or]
    exact herase s
  | some t =>
    simp only [Option.toList_some, List.map_cons, List.map_nil, List.foldl_cons, List.foldl_nil,
      Option.mem_some]
    rw [eq_comm (a := t), ← herase s]
    exact Surviving.mem_join

end Step

theorem Readable.restores (hc : c.Readable (r :: rs)) (accepts : String → Rekeying → Bool) :
    Restores accepts c r (c.restoreListener accepts r).1 (c.restoreListener accepts r).2 :=
  restores_restoreListener hc.unambiguous accepts r

/-- The log tells of what is live, of what was passed over, and of what is still to come. -/
structure Foretells (passed : Log.Record → Prop) (c : Core) (rs : List Log.Record) : Prop where
  readable : c.Readable rs
  nodup : rs.Nodup
  invalid : ∀ r, passed r → ¬ r.Valid
  told : ∀ r, r ∈ c.surviving.listeners ↔ r ∈ c.records ∨ passed r ∨ r ∈ rs
  live : ∀ r ∈ c.records, r ∉ rs

section Foretells

variable {passed : Log.Record → Prop} (h : Foretells passed c (r :: rs))

include h

theorem Foretells.taken (hr : r.Valid)
    (hne : ∀ s ∈ renewed r (c.restoreListener accepts r).1, s ∉ rs) :
    Foretells passed (c.restoreListener accepts r).2 rs := by
  have hstep := h.readable.restores accepts
  obtain ⟨hnew, hnodup⟩ := List.nodup_cons.mp h.nodup
  refine ⟨hstep.readable h.readable, hnodup, h.invalid, fun s => ?_, fun s hs => ?_⟩
  · rw [hstep.mem_surviving h.readable hr, h.told, hstep.records, List.mem_cons, or_assoc]
    refine or_congr_right ?_
    constructor
    · rintro ⟨hs, hold | hold | rfl | hold⟩
      · exact .inl hold
      · exact .inr (.inl hold)
      · exact (hs rfl).elim
      · exact .inr (.inr hold)
    · rintro (hs | hs | hs)
      · exact ⟨fun he => h.live s hs (he ▸ List.mem_cons_self), .inl hs⟩
      · exact ⟨fun he => h.invalid s hs (he ▸ hr), .inr (.inl hs)⟩
      · exact ⟨fun he => hnew (he ▸ hs), .inr (.inr (.inr hs))⟩
  · rcases (hstep.records s).mp hs with hs | hs
    · exact hne s hs
    · exact fun hmem => h.live s hs (List.mem_cons_of_mem _ hmem)

theorem Foretells.skipped (hr : ¬ r.Valid) : Foretells (fun s => passed s ∨ s = r) c rs := by
  refine ⟨⟨h.readable.ready, h.readable.unambiguous, h.readable.finished, fun s hs => ?_⟩,
    (List.nodup_cons.mp h.nodup).2, ?_, fun s => ?_, fun s hs hmem => ?_⟩
  · exact h.readable.recordable s (List.mem_cons_of_mem _ hs)
  · rintro s (hs | rfl)
    · exact h.invalid s hs
    · exact hr
  · rw [h.told, List.mem_cons, or_assoc]
  · exact h.live s hs (List.mem_cons_of_mem _ hmem)

end Foretells

theorem mem_surviving_of_undisturbed {passed : Log.Record → Prop} (h : Foretells passed c rs)
    (hu : Undisturbed accepts c rs) (r : Log.Record) :
    r ∈ (c.restoreAll accepts rs).2.surviving.listeners ↔
      r ∈ (c.restoreAll accepts rs).2.records ∨ passed r ∨ r ∈ rs ∧ ¬ r.Valid := by
  induction rs generalizing c passed with
  | nil =>
    rw [restoreAll, h.told]
    simp
  | cons s rs ih =>
    obtain ⟨hne, hrest⟩ := hu
    rw [restoreAll_cons_snd]
    by_cases hs : s.Valid
    · have hinvalid : r ∈ s :: rs ∧ ¬ r.Valid ↔ r ∈ rs ∧ ¬ r.Valid := by
        refine and_congr_left fun hr => ?_
        rw [List.mem_cons]
        exact or_iff_right fun he => hr (he ▸ hs)
      rw [ih (h.taken hs hne) hrest, hinvalid]
    · have hinvalid : r ∈ s :: rs ∧ ¬ r.Valid ↔ r = s ∨ r ∈ rs ∧ ¬ r.Valid := by
        rw [List.mem_cons, or_and_right]
        refine or_congr_left (and_iff_left_of_imp ?_)
        rintro rfl
        exact hs
      rw [restoreListener_of_not_valid hs] at hrest ⊢
      rw [ih (h.skipped hs) hrest, hinvalid, or_assoc]

theorem lost_of_not_mem (hc : c.Readable rs) (hs : s ∈ c.records)
    (hlost : s ∉ c.surviving.listeners) :
    s ∈ (c.restoreAll accepts rs).2.records ∧
      s ∉ (c.restoreAll accepts rs).2.surviving.listeners := by
  induction rs generalizing c with
  | nil => exact ⟨hs, hlost⟩
  | cons r rs ih =>
    have hstep := hc.restores accepts
    rw [restoreAll_cons_snd]
    refine ih (hstep.readable hc) ((hstep.records s).mpr (.inr hs)) ?_
    by_cases hr : r.Valid
    · rw [hstep.mem_surviving hc hr]
      rintro (h | ⟨-, h⟩)
      · exact hstep.ne_of_mem_renewed hc.unambiguous h hs rfl
      · exact hlost h
    · rwa [hstep.surviving_of_not_valid hc hr]

/-- A live listener is lost when its record comes up later. -/
theorem lost_of_mem (hc : c.Readable rs) (hs : s ∈ c.records) (hv : s.Valid) (hmem : s ∈ rs) :
    s ∈ (c.restoreAll accepts rs).2.records ∧
      s ∉ (c.restoreAll accepts rs).2.surviving.listeners := by
  induction rs generalizing c with
  | nil => cases hmem
  | cons r rs ih =>
    have hstep := hc.restores accepts
    have hs' := (hstep.records s).mpr (.inr hs)
    rw [restoreAll_cons_snd]
    rcases List.mem_cons.mp hmem with rfl | hmem
    · refine lost_of_not_mem (hstep.readable hc) hs' ?_
      rw [hstep.mem_surviving hc hv]
      rintro (h | ⟨h, -⟩)
      · exact hstep.ne_of_mem_renewed hc.unambiguous h hs rfl
      · exact h rfl
    · exact ih (hstep.readable hc) hs' hmem

theorem undisturbed_of_kept (hc : c.Readable rs)
    (h : ∀ s ∈ (c.restoreAll accepts rs).2.records,
      s ∈ (c.restoreAll accepts rs).2.surviving.listeners) : Undisturbed accepts c rs := by
  induction rs generalizing c with
  | nil => trivial
  -- else the record comes up later and is cancelled while its listener lives on
  | cons r rs ih =>
    have hstep := hc.restores accepts
    refine ⟨fun s hs hmem => ?_, ih (hstep.readable hc) h⟩
    obtain ⟨hv, he⟩ := hstep.valid_of_mem_renewed hs
    have hvs : s.Valid := by
      rw [he]
      exact hv
    obtain ⟨hlive, hlost⟩ := lost_of_mem (hstep.readable hc)
      ((hstep.records s).mpr (.inl hs)) hvs hmem
    exact hlost (h s hlive)

theorem readable_revived (hc : c.Ready) (hu : c.Unambiguous) (hf : Finished c.logContents)
    (hnone : c.records = []) (peers : Peers) :
    (c.revived peers).Readable c.surviving.listeners ∧
      (c.revived peers).surviving.listeners = c.surviving.listeners ∧
      (c.revived peers).records = [] := by
  have hrevives := revives_revived c peers
  obtain ⟨es, hes, hgrown⟩ := hc.revived peers
  have hrecordable : ∀ e ∈ es, e.Recordable := by
    intro e he
    obtain ⟨a, ha, rfl⟩ := hes e he
    exact recordable_client_of_mem_surviving ha
  have hcontents : (c.revived peers).logContents = c.logContents ++ logBytes es := hgrown.contents
  refine ⟨⟨hgrown.ready, hrevives.unambiguous hu, ?_, fun r => recordable_of_mem_surviving⟩, ?_,
    hrevives.records_eq.trans hnone⟩
  · rw [hcontents]
    exact finished_append (fun e he => (hrecordable e he).oneLine) hf
  · rw [surviving, hcontents, entriesOfBytes_append hrecordable hf, Surviving.ofEntries_append]
    refine Surviving.listeners_foldl_addClient (fun e he => ?_) _
    obtain ⟨a, -, h⟩ := hes e he
    exact ⟨a, h⟩

/-- An undisturbed replay leaves a log that tells of what is live and of what was passed over. -/
theorem mem_surviving_restored (hc : c.Ready) (hu : c.Unambiguous) (hf : Finished c.logContents)
    (hnone : c.records = []) {peers : Peers}
    (h : Undisturbed peers.rekey (c.revived peers) c.surviving.listeners) (r : Log.Record) :
    r ∈ ((c.revived peers).restoreAll peers.rekey c.surviving.listeners).2.surviving.listeners ↔
      r ∈ ((c.revived peers).restoreAll peers.rekey c.surviving.listeners).2.records ∨
        r ∈ c.surviving.listeners ∧ ¬ r.Valid := by
  obtain ⟨hreadable, hlisteners, hempty⟩ := readable_revived hc hu hf hnone peers
  have hforetells : Foretells (fun _ => False) (c.revived peers) c.surviving.listeners := by
    refine ⟨hreadable, (distinct_surviving c).listeners, fun _ => False.elim, fun r => ?_, ?_⟩
    · rw [hlisteners, hempty, false_or]
      exact (or_iff_right List.not_mem_nil).symm
    · rw [hempty]
      exact List.forall_mem_nil _
  rw [mem_surviving_of_undisturbed hforetells h, false_or]

/-- A replay on a finished log succeeds. The log then tells of just what is live and of what was
passed over, or at least of all that is live, if and only if no record was taken up as one that was
still to come. -/
theorem restore_tells_iff_undisturbed {place : Place} {disk : Disk} (hd : Writable place disk)
    (hf : Finished (Log.contents place disk)) (idleLimit : Nat) (peers : Peers) :
    ∃ s report c' s', (start place idleLimit disk).readLog = .ok s ∧
      (start place idleLimit disk).restore peers = (.ok report, c') ∧
      c'.readLog = .ok s' ∧ s'.listeners.Nodup ∧
      ((∀ r, r ∈ s'.listeners ↔ r ∈ c'.records ∨ r ∈ s.listeners ∧ ¬ r.Valid) ↔
        Undisturbed peers.rekey ((start place idleLimit disk).revived peers) s.listeners) ∧
      ((∀ r ∈ c'.records, r ∈ s'.listeners) ↔
        Undisturbed peers.rekey ((start place idleLimit disk).revived peers) s.listeners) := by
  have hc : (start place idleLimit disk).Ready := ⟨hd, nofun⟩
  generalize hstart : start place idleLimit disk = c at hc
  have hu : c.Unambiguous := by rw [← hstart]; rfl
  have hnone : c.records = [] := by rw [← hstart]; rfl
  have hf : Finished c.logContents := by rw [← hstart]; exact hf
  obtain ⟨report, hrestore⟩ := restore_eq hc peers
  obtain ⟨hreadable, hlisteners, hempty⟩ := readable_revived hc hu hf hnone peers
  have hready : ((c.revived peers).restoreAll peers.rekey c.surviving.listeners).2.Ready :=
    ((restoresAll_revived hu peers).frame hreadable.ready hreadable.unambiguous).1
  have hkept : Undisturbed peers.rekey (c.revived peers) c.surviving.listeners → _ :=
    mem_surviving_restored hc hu hf hnone
  refine ⟨_, _, _, _, hc.readLog, hrestore, hready.readLog, (distinct_surviving _).listeners,
    ⟨fun h => undisturbed_of_kept hreadable fun s hs => (h s).mpr (.inl hs), hkept⟩,
    ⟨undisturbed_of_kept hreadable, fun h r hr => (hkept h r).mpr (.inl hr)⟩⟩

/-- Of two listeners of one client at one location, the one that is taken up first is lost if it
gets the identifier of the other. In the order of their identifiers both are kept. -/
theorem restore_loses_one_of_two :
    let place : Log.Place := ⟨"/state", "log"⟩
    let peers : Peers := ⟨fun _ => true, fun _ _ => true, fun _ _ => .taken⟩
    let first : Log.Entry := .addListener ⟨1, "def", "/a", "/c"⟩
    let second : Log.Entry := .addListener ⟨2, "def", "/a", "/c"⟩
    (∃ report c' s', (start place 60 (diskOf place (logBytes [second, first]))).restore peers =
        (.ok report, c') ∧ c'.readLog = .ok s' ∧ ¬ ∀ r ∈ c'.records, r ∈ s'.listeners) ∧
      ∃ report c' s', (start place 60 (diskOf place (logBytes [first, second]))).restore peers =
        (.ok report, c') ∧ c'.readLog = .ok s' ∧ ∀ r ∈ c'.records, r ∈ s'.listeners := by
  intro place peers first second
  constructor
  · have hd : Writable place (diskOf place (logBytes [second, first])) := clear_diskOf _ _ _
    have hf : Finished (Log.contents place (diskOf place (logBytes [second, first]))) := by
      decide +kernel
    obtain ⟨s, report, c', s', hs, hrestore, hs', -, -, hiff⟩ :=
      restore_tells_iff_undisturbed hd hf 60 peers
    refine ⟨report, c', s', hrestore, hs', fun hall => ?_⟩
    have hsurvive : (start place 60 (diskOf place (logBytes [second, first]))).readLog =
        .ok ⟨[], [⟨2, "def", "/a", "/c"⟩, ⟨1, "def", "/a", "/c"⟩]⟩ := by decide +kernel
    rw [hsurvive] at hs
    cases hs
    exact absurd (hiff.mp hall) (by decide +kernel)
  · have hd : Writable place (diskOf place (logBytes [first, second])) := clear_diskOf _ _ _
    have hf : Finished (Log.contents place (diskOf place (logBytes [first, second]))) := by
      decide +kernel
    obtain ⟨s, report, c', s', hs, hrestore, hs', -, -, hiff⟩ :=
      restore_tells_iff_undisturbed hd hf 60 peers
    have hsurvive : (start place 60 (diskOf place (logBytes [first, second]))).readLog =
        .ok ⟨[], [⟨1, "def", "/a", "/c"⟩, ⟨2, "def", "/a", "/c"⟩]⟩ := by decide +kernel
    rw [hsurvive] at hs
    cases hs
    exact ⟨report, c', s', hrestore, hs', hiff.mpr (by decide +kernel)⟩

end ConfigDaemon.Core
