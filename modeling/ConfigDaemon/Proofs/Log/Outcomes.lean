import ConfigDaemon.Log.Session
import ConfigDaemon.Proofs.Log.Obstacles

/-! # What compactions leave behind

A compaction is done as a whole or not at all, and the log that is then there can be added to. The
next one can be done as well, but for a folder that was in the place of the log or of the old log:
such a folder ends up under the name for the old log, where no log can be moved any more.
-/

namespace ConfigDaemon.Log

open Disk Text

variable {p : Place} {d d' : Disk}

/-! ## Closed logs -/

/-- Nothing can be added to a closed log that a folder, or something on the way to it, displaces. -/
theorem append_of_not_writable {s : Store} (hd : d.Stored) (hw : ¬ Writable s.place d)
    (hs : s.handle = none) (e : Entry) : ∃ f, s.append d e = (.error f, s, d) := by
  obtain ⟨site, files, pinned⟩ := d
  cases site with
  | missing => exact absurd trivial hw
  | blocked look make =>
    refine ⟨failure "create directory" s.place.folder make, ?_⟩
    simp only [Store.append, Store.openHandle, hs, makeFolder]
  | folder es =>
    obtain ⟨inside, hinside⟩ : ∃ inside, es.find? s.place.name = some (.folder inside) := by
      by_contra hfree
      refine hw ⟨?_, ?_⟩
      · simpa using hfree
      · intro name n hn
        exact hd.lt (find_folder_eq_ok.mpr hn)
    have hopen := openFile_of_folder (d := ⟨.folder es, files, pinned⟩)
      (find_folder_eq_ok.mpr hinside)
    refine ⟨appendFailure (s.place.path s.place.name) .isFolder, ?_⟩
    simp only [Store.append, Store.openHandle, hs, makeFolder, hopen]

namespace Store.Writes

variable {s s' : Store} {es : List Entry}

theorem of_not_writable (h : s.Writes d es s' d') (hd : d.Stored) (hw : ¬ Writable s.place d)
    (hs : s.handle = none) : s' = s ∧ d' = d := by
  induction h with
  | refl => exact ⟨rfl, rfl⟩
  | close _ ih =>
    obtain ⟨rfl, rfl⟩ := ih
    exact ⟨congrArg (Store.mk _) hs.symm, rfl⟩
  | append _ e ih =>
    obtain ⟨rfl, rfl⟩ := ih
    obtain ⟨f, hf⟩ := append_of_not_writable hd hw hs e
    simp [hf]

theorem of_closed (h : s.Writes d es s' d') (hd : d.Stored) (hs : s.handle = none) :
    (Writable s.place d ∧ (∀ e, (s'.append d' e).1 = .ok ()) ∧
        contents s.place d' = contents s.place d ++ logBytes es) ∨
      (¬ Writable s.place d ∧ (∀ e, ∃ f, (s'.append d' e).1 = .error f) ∧ d' = d) := by
  by_cases hw : Writable s.place d
  · have hb := h.becomes hw (by simp [Attached, hs])
    refine .inl ⟨hw, fun e => ?_, hb.contents⟩
    obtain ⟨s'', d'', happend, -⟩ :=
      append_spec (hb.place ▸ hb.clear _ hw : Writable s'.place d') hb.attached e
    rw [happend]
  · obtain ⟨rfl, rfl⟩ := h.of_not_writable hd hw hs
    refine .inr ⟨hw, fun e => ?_, rfl⟩
    obtain ⟨f, hf⟩ := append_of_not_writable hd hw hs e
    exact ⟨f, by rw [hf]⟩

end Store.Writes

/-! ## One compaction -/

theorem Separate.compact {s : Store} (h : Separate s.place d) (es : List Entry) :
    match obstacle? s.place d with
    | some f => ∃ d', s.compact d es = (.error f, s.close, d') ∧ Abandoned s.place d d'
    | none => ∃ d', s.compact d es = (.ok (), s.close, d') ∧
        Installed s.place d d' (logBytes es) := by
  have hrun := h.run_compactionScript (logBytes es)
  cases ho : obstacle? s.place d with
  | some f =>
    rw [ho] at hrun
    obtain ⟨d', hrun, hd'⟩ := hrun
    exact ⟨d', by rw [Store.compact, hrun], hd'⟩
  | none =>
    rw [ho] at hrun
    obtain ⟨d', hrun, hd'⟩ := hrun
    exact ⟨d', by rw [Store.compact, hrun], hd'⟩

/-- A compaction puts a log of just the given entries in place and leaves nothing staged, unless
something is in its way: then the log and what is aside are as they were, and no staged file is
left. The log is closed, so what is appended later goes to the log that is there then, if one can be
written there. -/
theorem compact_all_or_nothing {s : Store} (h : Separate s.place d) (es : List Entry) :
    ∃ r d', s.compact d es = (r, s.close, d') ∧
      (match obstacle? s.place d with
      | none => r = .ok () ∧ d'.item? s.place.name = some (.file (logBytes es)) ∧
          d'.item? s.place.staged = none
      | some f => r = .error f ∧ d'.item? s.place.name = d.item? s.place.name ∧
          d'.item? s.place.aside = d.item? s.place.aside ∧
          ∀ bytes, d'.item? s.place.staged ≠ some (.file bytes)) ∧
      ∀ later s' d'', s.close.Writes d' later s' d'' →
        (Writable s.place d' ∧ (∀ e, (s'.append d'' e).1 = .ok ()) ∧
          contents s.place d'' = contents s.place d' ++ logBytes later) ∨
        (¬ Writable s.place d' ∧ (∀ e, ∃ f, (s'.append d'' e).1 = .error f) ∧ d'' = d') := by
  have hcompact := h.compact es
  cases ho : obstacle? s.place d with
  | none =>
    rw [ho] at hcompact
    obtain ⟨d', hrun, hd'⟩ := hcompact
    refine ⟨.ok (), d', hrun, ⟨rfl, hd'.log, hd'.staged⟩, ?_⟩
    exact fun later s' d'' hlater => hlater.of_closed hd'.separate.stored rfl
  | some f =>
    rw [ho] at hcompact
    obtain ⟨d', hrun, hd'⟩ := hcompact
    refine ⟨.error f, d', hrun, ⟨rfl, ?_, ?_, ?_⟩, ?_⟩
    · exact hd'.others _ s.place.staged_ne_name.symm
    · exact hd'.others _ s.place.aside_ne_staged
    · intro bytes hfile
      obtain ⟨-, inside, hinside⟩ := hd'.staged _ hfile
      cases hinside
    · exact fun later s' d'' hlater => hlater.of_closed hd'.separate.stored rfl

/-- A folder in the place of the old log: the new log is not installed, and what an earlier
compaction had staged is gone. -/
theorem compact_behind_folder :
    let p : Place := ⟨"/c", "saved"⟩
    let log := Utf8.encode "CLIENTADD \"/a\"\n".toList
    let d : Disk := ⟨.folder (.ofList
      [("saved", .file 0), ("saved.orig", .folder []), ("saved.tmp", .file 1)]),
      [log, [67, 76]], false⟩
    ∃ d', (⟨p, some 0⟩ : Store).compact d [.addClient "/b"] =
        (.error (failure "move aside" "/c/saved" .isFolder), ⟨p, none⟩, d') ∧
      d'.item? "saved" = some (.file log) ∧ d'.item? "saved.orig" = some (.folder []) ∧
      ∀ bytes, d'.item? "saved.tmp" ≠ some (.file bytes) := by
  intro p log d
  have hseparate : Separate p d := separate_folder (by decide +kernel) (by decide +kernel)
  obtain ⟨r, d', hcompact, hd', -⟩ :=
    compact_all_or_nothing (s := ⟨p, some 0⟩) hseparate [.addClient "/b"]
  have hobstacle : obstacle? p d = some (failure "move aside" "/c/saved" .isFolder) := by
    decide +kernel
  simp only [hobstacle] at hd'
  obtain ⟨rfl, hlog, haside, hstaged⟩ := hd'
  refine ⟨d', hcompact, hlog.trans ?_, haside.trans ?_, hstaged⟩
  · decide +kernel
  · decide +kernel

/-! ## Compaction after compaction -/

/-- As after a compaction, the log is a file with these bytes and nothing is staged. -/
structure Settled (p : Place) (d : Disk) (bytes : Bytes) : Prop where
  separate : Separate p d
  log : d.item? p.name = some (.file bytes)
  staged : d.item? p.staged = none

theorem Installed.settled {bytes : Bytes} (h : Installed p d d' bytes) : Settled p d' bytes :=
  ⟨h.separate, h.log, h.staged⟩

theorem moveFault?_of_file {n : Nat} (hn : d.find p.name = .ok (.file n)) :
    (d.HasFolder p.aside → moveFault? p d = some .isFolder) ∧
    (¬ d.HasFolder p.aside → moveFault? p d = none) := by
  simp only [moveFault?, hn, hasFolder_iff]
  cases haside : d.find p.aside with
  | error f => simp [Except.toOption]
  | ok e => cases e <;> simp [Except.toOption, replaceFault]

theorem moveFault?_of_obstacle? {e : ConfigDaemon.Entry} (he : d.find p.name = .ok e)
    (h : obstacle? p d = none) : moveFault? p d = none := by
  by_cases hfree : ∀ inside, d.find p.staged ≠ .ok (.folder inside)
  · rw [obstacle?_of_free (makeFolder_of_find he) hfree] at h
    exact Option.map_eq_none_iff.mp h
  · simp only [not_forall, not_not] at hfree
    obtain ⟨inside, hfolder⟩ := hfree
    rw [obstacle?_of_folder (makeFolder_of_find he) hfolder] at h
    cases h

theorem Settled.obstacle?_eq {bytes : Bytes} (h : Settled p d bytes) :
    (d.HasFolder p.aside →
      obstacle? p d = some (failure "move aside" (p.path p.name) .isFolder)) ∧
    (¬ d.HasFolder p.aside → obstacle? p d = none) := by
  obtain ⟨n, hn, -⟩ := find_of_item?_eq_file h.log
  obtain ⟨f, hf⟩ := find_of_item?_eq_none h.staged
  have hobstacle := obstacle?_of_free (p := p) (makeFolder_of_find hn) (by simp [hf])
  obtain ⟨hfolder, hfree⟩ := moveFault?_of_file hn
  constructor
  · intro h
    rw [hobstacle, hfolder h]
    rfl
  · intro h
    rw [hobstacle, hfree h]
    rfl

theorem Settled.compact {s : Store} {bytes : Bytes} (h : Settled s.place d bytes)
    (es : List Entry) :
    (d.HasFolder s.place.aside → ∃ d',
      s.compact d es = (.error (failure "move aside" (s.place.path s.place.name) .isFolder),
        s.close, d') ∧ Settled s.place d' bytes ∧ d'.HasFolder s.place.aside) ∧
    (¬ d.HasFolder s.place.aside → ∃ d', s.compact d es = (.ok (), s.close, d') ∧
      Settled s.place d' (logBytes es) ∧ ¬ d'.HasFolder s.place.aside) := by
  have hcompact := h.separate.compact es
  constructor
  · intro hfolder
    rw [h.obstacle?_eq.1 hfolder] at hcompact
    obtain ⟨d', hrun, hd'⟩ := hcompact
    have hlog := hd'.others _ s.place.staged_ne_name.symm
    have haside := hd'.others _ s.place.aside_ne_staged
    refine ⟨d', hrun, ⟨hd'.separate, hlog.trans h.log, ?_⟩, ?_⟩
    · rw [Option.eq_none_iff_forall_not_mem]
      intro item hitem
      have hold := (hd'.staged item hitem).1
      simp [h.staged] at hold
    · simpa only [HasFolder, haside] using hfolder
  · intro hfree
    rw [h.obstacle?_eq.2 hfree] at hcompact
    obtain ⟨d', hrun, hd'⟩ := hcompact
    refine ⟨d', hrun, hd'.settled, ?_⟩
    simp [HasFolder, hd'.aside, h.log, leftAside]

/-- Only a folder in the place of the log or of the old log stays aside. -/
theorem Installed.hasFolder_aside_iff {bytes : Bytes} (h : Installed p d d' bytes)
    (hobstacle : obstacle? p d = none) :
    d'.HasFolder p.aside ↔ d.HasFolder p.name ∨ d.HasFolder p.aside := by
  have hleft := h.aside
  cases hlog : d.find p.name with
  | error f =>
    rw [item?_of_find_error hlog, leftAside] at hleft
    simp [HasFolder, hleft, item?_of_find_error hlog]
  | ok e =>
    rw [item?_of_find hlog] at hleft
    cases e with
    | file n =>
      rw [itemOf, leftAside] at hleft
      have hfree : ¬ d.HasFolder p.aside := by
        intro hfolder
        have hfault := (moveFault?_of_file hlog).1 hfolder
        cases hfault.symm.trans (moveFault?_of_obstacle? hlog hobstacle)
      have hfile : ¬ d.HasFolder p.name := by simp [hasFolder_iff, hlog]
      have hgone : ¬ d'.HasFolder p.aside := by simp [HasFolder, hleft]
      exact iff_of_false hgone (not_or.mpr ⟨hfile, hfree⟩)
    | folder inside =>
      rw [itemOf, leftAside] at hleft
      exact iff_of_true ⟨_, hleft⟩ (.inl (hasFolder_iff.mpr ⟨inside, hlog⟩))

namespace Session

variable {s : Session} {bytes : Bytes} {es : List Entry}

/-- The log has these bytes, and there is a folder where it would have to be moved. -/
structure Stuck (p : Place) (bytes : Bytes) (s : Session) : Prop where
  place : s.store.place = p
  settled : Settled p s.disk bytes
  folder : s.disk.HasFolder p.aside

structure Movable (p : Place) (s : Session) : Prop where
  place : s.store.place = p
  settled : ∃ bytes, Settled p s.disk bytes
  free : ¬ s.disk.HasFolder p.aside

theorem Stuck.step (h : Stuck p bytes s) (es : List Entry) : ∃ t, s.step (.compact es) =
    (.done (.error (failure "move aside" (p.path p.name) .isFolder)), t) ∧ Stuck p bytes t := by
  obtain ⟨rfl, hsettled, hfolder⟩ := h
  obtain ⟨d', hcompact, hd', hfolder'⟩ := (hsettled.compact es).1 hfolder
  refine ⟨{ s with store := s.store.close, disk := d' }, ?_, rfl, hd', hfolder'⟩
  simp only [Session.step, hcompact]

theorem Movable.step (h : Movable p s) (es : List Entry) :
    ∃ t, s.step (.compact es) = (.done (.ok ()), t) ∧ Movable p t ∧
      t.disk.item? p.name = some (.file (logBytes es)) := by
  obtain ⟨rfl, ⟨bytes, hsettled⟩, hfree⟩ := h
  obtain ⟨d', hcompact, hd', hfree'⟩ := (hsettled.compact es).2 hfree
  refine ⟨{ s with store := s.store.close, disk := d' }, ?_, ⟨rfl, ⟨_, hd'⟩, hfree'⟩, hd'.log⟩
  simp only [Session.step, hcompact]

theorem run_compactions {P : Session → Prop}
    (hstep : ∀ s es t a, P s → s.step (.compact es) = (a, t) → P t) (h : P s)
    (batches : List (List Entry)) : P (s.run (batches.map .compact)) := by
  induction batches generalizing s with
  | nil => exact h
  | cons es batches ih => exact ih (hstep s es _ _ h rfl)

theorem Stuck.run (h : Stuck p bytes s) (batches : List (List Entry)) :
    Stuck p bytes (s.run (batches.map .compact)) := by
  refine run_compactions (fun s es t a hs ht => ?_) h batches
  obtain ⟨u, hu, hu'⟩ := hs.step es
  cases ht.symm.trans hu
  exact hu'

theorem Movable.run (h : Movable p s) (batches : List (List Entry)) :
    Movable p (s.run (batches.map .compact)) := by
  refine run_compactions (fun s es t a hs ht => ?_) h batches
  obtain ⟨u, hu, hu', -⟩ := hs.step es
  cases ht.symm.trans hu
  exact hu'

/-- A compaction that succeeds leaves a log that can be moved, or one that is stuck. -/
theorem step_compact_ok (h : Separate s.store.place s.disk) {t : Session}
    (hfirst : s.step (.compact es) = (.done (.ok ()), t)) :
    t.store.place = s.store.place ∧ Settled s.store.place t.disk (logBytes es) ∧
      (t.disk.HasFolder s.store.place.aside ↔
        s.disk.HasFolder s.store.place.name ∨ s.disk.HasFolder s.store.place.aside) := by
  have hcompact := h.compact es
  split at hcompact
  · obtain ⟨d', hrun, -⟩ := hcompact
    simp only [Session.step, hrun] at hfirst
    cases hfirst
  · rename_i hobstacle
    obtain ⟨d', hrun, hd'⟩ := hcompact
    simp only [Session.step, hrun] at hfirst
    cases hfirst
    exact ⟨rfl, hd'.settled, hd'.hasFolder_aside_iff hobstacle⟩

/-- After a compaction the next one succeeds, and so does any later one, if and only if neither the
log nor the old log was a folder before. Otherwise each fails, and the log stays as the first
compaction left it. -/
theorem compacts_again_unless_folder (h : Separate s.store.place s.disk) {t : Session}
    (hfirst : s.step (.compact es) = (.done (.ok ()), t)) (batches : List (List Entry))
    (es' : List Entry) :
    let p := s.store.place
    let next := (t.run (batches.map .compact)).step (.compact es')
    (¬ s.disk.HasFolder p.name ∧ ¬ s.disk.HasFolder p.aside →
      next.1 = .done (.ok ()) ∧ next.2.disk.item? p.name = some (.file (logBytes es'))) ∧
    (s.disk.HasFolder p.name ∨ s.disk.HasFolder p.aside →
      next.1 = .done (.error (failure "move aside" (p.path p.name) .isFolder)) ∧
        next.2.disk.item? p.name = some (.file (logBytes es))) := by
  intro p next
  obtain ⟨hplace, hsettled, haside⟩ := step_compact_ok h hfirst
  constructor
  · intro hfree
    have hmovable : Movable p t := ⟨hplace, ⟨_, hsettled⟩, haside.not.mpr (not_or.mpr hfree)⟩
    obtain ⟨u, hu, -, hlog⟩ := (hmovable.run batches).step es'
    have hnext : next = (.done (.ok ()), u) := hu
    rw [hnext]
    exact ⟨rfl, hlog⟩
  · intro hfolder
    have hstuck : Stuck p (logBytes es) t := ⟨hplace, hsettled, haside.mpr hfolder⟩
    obtain ⟨u, hu, hu'⟩ := (hstuck.run batches).step es'
    have hnext : next = (.done (.error (failure "move aside" (p.path p.name) .isFolder)), u) := hu
    rw [hnext]
    exact ⟨rfl, hu'.settled.log⟩

/-- A log in the place of a folder is compacted just once. -/
theorem compacts_once_in_place_of_folder :
    let p : Place := ⟨"/c", "saved"⟩
    let s : Session := ⟨⟨p, none⟩, ⟨.folder (.ofList [("saved", .folder [])]), [], false⟩, .empty⟩
    let first := s.step (.compact [.addClient "/a"])
    let second := first.2.step (.compact [.addClient "/b"])
    first.1 = .done (.ok ()) ∧
      second.1 = .done (.error (failure "move aside" "/c/saved" .isFolder)) ∧
      second.2.disk.item? "saved" = some (.file (Utf8.encode "CLIENTADD \"/a\"\n".toList)) := by
  intro p s first second
  have hseparate : Separate p s.disk := separate_folder (by decide +kernel) (by decide +kernel)
  have hcompact := hseparate.compact (s := s.store) [.addClient "/a"]
  have hobstacle : obstacle? s.store.place s.disk = none := by decide +kernel
  rw [hobstacle] at hcompact
  obtain ⟨d', hrun, -⟩ := hcompact
  have hfirst : first = (.done (.ok ()), first.2) := by simp only [first, Session.step, hrun]
  have hfolder : s.disk.HasFolder p.name := ⟨[], rfl⟩
  obtain ⟨-, hstuck⟩ :=
    compacts_again_unless_folder hseparate hfirst [] [.addClient "/b"]
  obtain ⟨hsecond, hlog⟩ := hstuck (.inl hfolder)
  have hpath : s.store.place.path s.store.place.name = "/c/saved" := by decide +kernel
  rw [hpath] at hsecond
  refine ⟨congrArg Prod.fst hfirst, hsecond, hlog.trans ?_⟩
  decide +kernel

end Session

end ConfigDaemon.Log
