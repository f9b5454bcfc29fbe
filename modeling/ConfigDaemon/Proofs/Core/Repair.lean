import ConfigDaemon.Core.Delivery
import ConfigDaemon.Proofs.Core.Noting

/-! # Compactions repair the log

Appends and compactions may fail, since other programs block the way to the log or put folders
where it needs files. From the first compaction that succeeds on, the log holds just what there is
whenever no compaction is needed, and what needs none stays as it is.
-/

namespace ConfigDaemon.Core

open Log

/-! ## Runs -/

def barred (c : Core) (bar : Bar) : Core :=
  { c with disk := c.disk.barred bar }

def freed (c : Core) (site : Site) (bar : Bar) : Core :=
  { c with disk := c.disk.freed site bar }

def behind {α : Type} (bar : Bar) (f : Core → α × Core) (c : Core) : α × Core :=
  ((f (c.barred bar)).1, (f (c.barred bar)).2.freed c.disk.site bar)

inductive Turn
  | ask (bar : Bar) (d : Demand)
  /-- All couriers hand over what they can. -/
  | deliver (peers : Peers)
  /-- Another program changes the disk. -/
  | disturb (disk : Disk)

def play (c : Core) : Turn → Core
  | .ask bar d => ((c.barred bar).comply d).freed c.disk.site bar
  | .deliver peers => Core.deliver peers c
  | .disturb disk => { c with disk }

def course (c : Core) (ts : List Turn) : Core :=
  ts.foldl play c

def Along (P : Core → Turn → Prop) : Core → List Turn → Prop
  | _, [] => True
  | c, t :: ts => P c t ∧ Along P (c.play t) ts

/-- The names that come in can stand in the log, and other programs leave the log as it is. -/
def Orderly (c : Core) : Turn → Prop
  | .ask _ d => d.Plain
  | .deliver _ => True
  | .disturb disk => Log.Spares c.log.place c.disk disk

def Succeeds (c : Core) : Turn → Prop
  | .ask bar (.act (.compact order)) => (behind bar (compact · order) c).1 = .ok ()
  | .ask bar (.act (.compactIfNeeded order)) =>
    (behind bar (compactIfNeeded · order) c).1 = .ok true
  | _ => False

def Compacted : Core → List Turn → Prop
  | _, [] => False
  | c, t :: ts => c.Succeeds t ∨ Compacted (c.play t) ts

/-- The turn is a replay that takes up a listener, if only for a time. -/
def Stirs (c : Core) : Turn → Prop
  | .ask bar d => (c.barred bar).Readmits d
  | .deliver _ | .disturb _ => False

structure Rests (c : Core) (t : Turn) : Prop where
  clients : (c.play t).clients = c.clients
  listeners : ∀ a id, (c.play t).listener? a id = c.listener? a id
  unstirred : ¬ c.Stirs t

variable {c c' : Core} {t : Turn} {ts : List Turn} {bar : Bar}

theorem course_concat (c : Core) (ts : List Turn) (t : Turn) :
    c.course (ts ++ [t]) = (c.course ts).play t :=
  List.foldl_concat ..

theorem along_induction {P : Core → Turn → Prop} {I : Core → Prop}
    (hplay : ∀ c t, I c → P c t → I (c.play t)) (hc : I c) (h : Along P c ts) :
    I (c.course ts) := by
  induction ts generalizing c with
  | nil => exact hc
  | cons t ts ih => exact ih (hplay c t hc h.1) h.2

theorem along_append {P : Core → Turn → Prop} {us vs : List Turn} :
    Along P c (us ++ vs) ↔ Along P c us ∧ Along P (c.course us) vs := by
  induction us generalizing c with
  | nil => exact (and_iff_right trivial).symm
  | cons u us ih => exact (and_congr_right fun _ => ih).trans and_assoc.symm

theorem compacted_of_succeeds (us vs : List Turn) (h : (c.course us).Succeeds t) :
    Compacted c (us ++ t :: vs) := by
  induction us generalizing c with
  | nil => exact .inl h
  | cons u us ih => exact .inr (ih h)

theorem rests_of_eq (hclients : (c.play t).clients = c.clients)
    (hmain : (c.play t).main.listeners = c.main.listeners)
    (hothers : (c.play t).others = c.others) (hunstirred : ¬ c.Stirs t) : c.Rests t where
  clients := hclients
  listeners a id := by
    cases a with
    | none => exact congrArg (·.subscriptions.find? id) hmain
    | some a => rw [listener?, listener?, database, database, database?, database?, hothers]
  unstirred := hunstirred

/-! ## One turn -/

/-- The log is apart from what a compaction stages, and all that is there can be written. -/
structure Tended (c : Core) : Prop where
  apart : Log.Apart c.log.place c.disk
  unambiguous : c.Unambiguous
  recordable : c.Recordable

/-- The log holds just what there is, as it is written down in an order. -/
def TrimIn (order : List String) (c : Core) : Prop :=
  c.disk.read c.log.place.name = .ok (logBytes (c.snapshotIn order))

def Trim (c : Core) : Prop :=
  ∃ order, c.TrimIn order

/-- If no compaction is needed, the log holds just what there is. -/
def Repaired (c : Core) : Prop :=
  c.needsCompaction = false → c.Trim

/-- The turn is no compaction that is forced in another order. -/
def Turn.KeepsTo (order : List String) : Turn → Prop
  | .ask _ (.act (.compact o)) => o = order
  | _ => True

structure Tends (c c' : Core) : Prop where
  place : c'.log.place = c.log.place
  tended : c'.Tended
  repaired : c.Repaired → c'.Repaired

theorem Tended.mirrored (hc : c.Tended) (h : c.Trim) : c.Mirrored := by
  obtain ⟨order, h⟩ := h
  have hperm := c.perm_snapshotIn order
  have hread : c.readLog = .ok (.ofEntries (entriesOfBytes (logBytes (c.snapshotIn order)))) := by
    rw [readLog, Store.read, h]
  rw [entriesOfBytes_logBytes fun e he => hc.recordable e (hperm.mem_iff.mp he)] at hread
  exact (mirrored_iff_of_readLog hc.unambiguous hread).mpr (holds_ofEntries_snapshot hperm)

/-- If no compaction is needed afterwards, none was before and the log is as it was. -/
theorem Heeds.trimIn (h : Heeds (c.barred bar) c') (hc : c.Tended)
    (hflag : c'.needsCompaction = false) :
    c.needsCompaction = false ∧
      ∀ order, c.TrimIn order → (c'.freed c.disk.site bar).TrimIn order := by
  obtain ⟨es, hes, hkept⟩ := h.entered
  have hneeds : (c.needsCompaction || !es.isEmpty) = false := hes.needs.symm.trans hflag
  obtain ⟨hbefore, hnil⟩ := Bool.or_eq_false_iff.mp hneeds
  obtain rfl : es = [] := by simpa using hnil
  refine ⟨hbefore, fun order htrim => ?_⟩
  have hplace : c'.log.place = c.log.place := hes.written.place
  have hsnapshot : c'.snapshotIn order = c.snapshotIn order :=
    snapshotIn_eq (c := c.barred bar) hc.unambiguous h.unambiguous (hkept rfl) order
  change (c'.disk.freed c.disk.site bar).read c'.log.place.name =
    .ok (logBytes (c'.snapshotIn order))
  rw [(hes.written.freed hc.apart).2 rfl, hplace, hsnapshot]
  exact htrim

/-- Either a compaction is needed afterwards, or nothing happened. -/
theorem Heeds.tends (h : Heeds (c.barred bar) c') (hc : c.Tended) :
    Tends c (c'.freed c.disk.site bar) := by
  obtain ⟨es, hes, -⟩ := h.entered
  have hplace : c'.log.place = c.log.place := hes.written.place
  refine ⟨hplace, ⟨?_, h.unambiguous, h.recordable⟩, fun hrepaired hflag => ?_⟩
  · change Log.Apart c'.log.place (c'.disk.freed c.disk.site bar)
    rw [hplace]
    exact (hes.written.freed hc.apart).1
  · obtain ⟨hbefore, htrim⟩ := h.trimIn hc hflag
    obtain ⟨order, hin⟩ := hrepaired hbefore
    exact ⟨order, htrim order hin⟩

theorem behind_compact (c : Core) (bar : Bar) (order : List String) :
    behind bar (compact · order) c =
      match c.log.compact (c.disk.barred bar) (c.snapshotIn order) with
      | (.error f, log, disk) => (.error f, { c with log, disk := disk.freed c.disk.site bar })
      | (.ok (), log, disk) =>
        (.ok (), { c with log, disk := disk.freed c.disk.site bar, needsCompaction := false }) := by
  have hbarred : (c.barred bar).log.compact (c.barred bar).disk ((c.barred bar).snapshotIn order) =
      c.log.compact (c.disk.barred bar) (c.snapshotIn order) := rfl
  rw [behind, compact, hbarred]
  rcases c.log.compact (c.disk.barred bar) (c.snapshotIn order) with ⟨_ | _, log, disk⟩ <;> rfl

/-- A compaction makes the log hold what there is, or fails and leaves it as it is. -/
theorem Tended.compact_cases (hc : c.Tended) (bar : Bar) (order : List String) :
    (∃ disk, behind bar (compact · order) c =
        (.ok (), { c with log := c.log.close, disk, needsCompaction := false }) ∧
      Log.Apart c.log.place disk ∧
      disk.read c.log.place.name = .ok (logBytes (c.snapshotIn order))) ∨
      ∃ f disk, behind bar (compact · order) c = (.error f, { c with log := c.log.close, disk }) ∧
        Log.Spares c.log.place c.disk disk := by
  rw [behind_compact]
  rcases hc.apart.compact bar (c.snapshotIn order) with ⟨d', hrun, hd'⟩ | ⟨f, d', hrun, hd'⟩
  · rw [hrun]
    exact .inl ⟨_, rfl, hd'⟩
  · rw [hrun]
    exact .inr ⟨f, _, rfl, hd'⟩

theorem Tended.tends_compact (hc : c.Tended) (bar : Bar) (order : List String) :
    Tends c (behind bar (compact · order) c).2 := by
  rcases hc.compact_cases bar order with ⟨disk, hrun, happart, hread⟩ | ⟨f, disk, hrun, hspares⟩
  · rw [hrun]
    exact ⟨rfl, ⟨happart, hc.unambiguous, hc.recordable⟩, fun _ _ => ⟨order, hread⟩⟩
  · rw [hrun]
    refine ⟨rfl, ⟨hspares.apart, hc.unambiguous, hc.recordable⟩, fun hrepaired hflag => ?_⟩
    obtain ⟨order', htrim⟩ := hrepaired hflag
    exact ⟨order', hspares.read.trans htrim⟩

theorem Tended.trim_of_compact (hc : c.Tended) {order : List String}
    (h : behind bar (compact · order) c = (.ok (), c')) :
    c'.TrimIn order ∧ c'.needsCompaction = false := by
  rcases hc.compact_cases bar order with ⟨disk, hrun, -, hread⟩ | ⟨f, disk, hrun, -⟩
  · rw [hrun] at h
    obtain rfl := (Prod.mk.inj h).2
    exact ⟨hread, rfl⟩
  · rw [hrun] at h
    cases h

theorem freed_barred (c : Core) (bar : Bar) : (c.barred bar).freed c.disk.site bar = c := by
  cases bar <;> rfl

theorem behind_compactIfNeeded_of_not_needed (h : c.needsCompaction = false) (bar : Bar)
    (order : List String) : behind bar (compactIfNeeded · order) c = (.ok false, c) := by
  have hnot : (c.barred bar).needsCompaction = false := h
  rw [behind, compactIfNeeded_of_not_needed hnot, freed_barred]

theorem behind_compactIfNeeded_of_needed (h : c.needsCompaction = true) (bar : Bar)
    (order : List String) : behind bar (compactIfNeeded · order) c =
      ((behind bar (compact · order) c).1.map fun _ => true,
        (behind bar (compact · order) c).2) := by
  have hneeded : (c.barred bar).needsCompaction = true := h
  rw [behind, compactIfNeeded_of_needed hneeded]
  rfl

section IfNeeded

variable {order : List String}

theorem not_needed_of_compactIfNeeded
    (h : behind bar (compactIfNeeded · order) c = (.ok false, c')) :
    c.needsCompaction = false ∧ c' = c := by
  cases hflag : c.needsCompaction with
  | false =>
    rw [behind_compactIfNeeded_of_not_needed hflag] at h
    exact ⟨rfl, (Prod.mk.inj h).2.symm⟩
  | true =>
    rw [behind_compactIfNeeded_of_needed hflag] at h
    have hresult := (Prod.mk.inj h).1
    cases hcompact : (behind bar (compact · order) c).1 <;> rw [hcompact] at hresult <;>
      cases hresult

theorem compact_of_compactIfNeeded {r : Except Failure Bool}
    (h : behind bar (compactIfNeeded · order) c = (r, c')) (hr : r ≠ .ok false) :
    behind bar (compact · order) c = (r.map fun _ => (), c') := by
  cases hflag : c.needsCompaction with
  | false =>
    rw [behind_compactIfNeeded_of_not_needed hflag] at h
    exact absurd (Prod.mk.inj h).1.symm hr
  | true =>
    rw [behind_compactIfNeeded_of_needed hflag] at h
    obtain ⟨rfl, rfl⟩ := Prod.mk.inj h
    cases hcompact : behind bar (compact · order) c with
    | mk result c₁ => cases result <;> rfl

end IfNeeded

theorem play_compactIfNeeded (c : Core) (bar : Bar) (order : List String) :
    c.play (.ask bar (.act (.compactIfNeeded order))) =
      (behind bar (compactIfNeeded · order) c).2 :=
  rfl

theorem play_of_compactsOn {d : Demand} (h : (c.barred bar).CompactsOn d) :
    ∃ order, c.play (.ask bar d) = (behind bar (compact · order) c).2 := by
  cases d with
  | act a =>
    obtain ⟨order, hact⟩ := act_of_compacts h
    exact ⟨order, by rw [play, comply, hact, behind]⟩
  | restore peers => exact h.elim
  | shutdown => exact h.elim

theorem Tended.tends_play (hc : c.Tended) (ht : c.Orderly t) : Tends c (c.play t) := by
  cases t with
  | ask bar d =>
    by_cases hcompact : (c.barred bar).CompactsOn d
    · obtain ⟨order, hplay⟩ := play_of_compactsOn hcompact
      rw [hplay]
      exact hc.tends_compact bar order
    · exact (heeds_comply (c := c.barred bar) hc.unambiguous hc.recordable ht hcompact).tends hc
  | deliver peers => exact ⟨rfl, ⟨hc.apart, hc.unambiguous, hc.recordable⟩, id⟩
  | disturb disk =>
    refine ⟨rfl, ⟨ht.apart, hc.unambiguous, hc.recordable⟩, fun hrepaired hflag => ?_⟩
    obtain ⟨order, htrim⟩ := hrepaired hflag
    exact ⟨order, ht.read.trans htrim⟩

theorem Succeeds.trim (h : c.Succeeds t) (hc : c.Tended) : (c.play t).Trim := by
  unfold Succeeds at h
  split at h
  · exact ⟨_, (hc.trim_of_compact (Prod.ext h rfl)).1⟩
  · exact ⟨_, (hc.trim_of_compact (compact_of_compactIfNeeded (Prod.ext h rfl) nofun)).1⟩
  · exact h.elim

theorem Rests.needsCompaction (h : c.Rests t) (hc : c.Tended) (ht : c.Orderly t)
    (hflag : c.needsCompaction = false) : (c.play t).needsCompaction = false := by
  cases t with
  | deliver peers => exact hflag
  | disturb disk => exact hflag
  | ask bar d =>
    by_cases hcompact : (c.barred bar).CompactsOn d
    · obtain ⟨order, hplay⟩ := play_of_compactsOn hcompact
      rw [hplay]
      rcases hc.compact_cases bar order with ⟨disk, hrun, -⟩ | ⟨f, disk, hrun, -⟩
      · rw [hrun]
      · rw [hrun]
        exact hflag
    · have hheeds := heeds_comply (c := c.barred bar) hc.unambiguous hc.recordable ht hcompact
      have hholds := holds_congr (c := c.barred bar) hc.unambiguous hheeds.unambiguous h.clients
        h.listeners
      exact (needsCompaction_comply (c := c.barred bar) hc.unambiguous ht hcompact
        h.unstirred hholds).trans hflag

/-- Where a daemon rests its log stays as it is, if no compaction is forced in another order. -/
theorem Rests.trimIn (h : c.Rests t) (hc : c.Tended) (ht : c.Orderly t)
    (hflag : c.needsCompaction = false) {order : List String} (hkeeps : t.KeepsTo order)
    (htrim : c.TrimIn order) : (c.play t).TrimIn order := by
  have hflag' := h.needsCompaction hc ht hflag
  cases t with
  | deliver peers => exact htrim
  | disturb disk => exact ht.read.trans htrim
  | ask bar d =>
    by_cases hcompact : (c.barred bar).CompactsOn d
    -- a compaction that is made if needed finds nothing to do, so this one is forced, in the same
    -- order
    · obtain rfl : d = .act (.compact order) := by
        cases d with
        | act a =>
          cases a with
          | compact o => rw [show o = order from hkeeps]
          | compactIfNeeded o =>
            have hneeded : c.needsCompaction = true := hcompact
            rw [hflag] at hneeded
            cases hneeded
          | _ => exact hcompact.elim
        | restore peers => exact hcompact.elim
        | shutdown => exact hcompact.elim
      change (behind bar (compact · order) c).2.TrimIn order
      rcases hc.compact_cases bar order with ⟨disk, hrun, -, hread⟩ | ⟨f, disk, hrun, hspares⟩
      · rw [hrun]
        exact hread
      · rw [hrun]
        exact hspares.read.trans htrim
    · have hheeds := heeds_comply (c := c.barred bar) hc.unambiguous hc.recordable ht hcompact
      exact (hheeds.trimIn hc hflag').2 order htrim

/-! ## Whole runs -/

theorem Tended.tends_refl (hc : c.Tended) : Tends c c :=
  ⟨rfl, hc, id⟩

theorem Tends.trans {c'' : Core} (h : Tends c c') (h' : Tends c' c'') : Tends c c'' :=
  ⟨h'.place.trans h.place, h'.tended, h'.repaired ∘ h.repaired⟩

theorem Tended.tends_course (hc : c.Tended) (h : Along Orderly c ts) : Tends c (c.course ts) :=
  along_induction (fun _ _ hc ht => hc.trans (hc.tended.tends_play ht)) hc.tends_refl h

theorem repaired_course (hc : c.Tended) (h : Along Orderly c ts) (hcompacted : Compacted c ts) :
    (c.course ts).Repaired := by
  induction ts generalizing c with
  | nil => exact hcompacted.elim
  | cons t ts ih =>
    have hplay := hc.tends_play h.1
    -- after the compaction each turn keeps what it has brought about
    rcases hcompacted with hnow | hlater
    · exact (hplay.tended.tends_course h.2).repaired fun _ => hnow.trim hc
    · exact ih hplay.tended h.2 hlater

/-- A daemon that rests and needs no compaction goes on to need none. Its log goes on to hold what
there is, and in the same order unless a compaction is forced in another one. -/
structure Restful (c : Core) (ts : List Turn) : Prop where
  tends : Tends c (c.course ts)
  unneeded : (c.course ts).needsCompaction = false
  snapshotIn : ∀ order, (c.course ts).snapshotIn order = c.snapshotIn order
  trimIn : ∀ order, (∀ t ∈ ts, t.KeepsTo order) → c.TrimIn order → (c.course ts).TrimIn order

theorem restful_of_rests (hc : c.Tended) (hflag : c.needsCompaction = false)
    (h : Along (fun c t => c.Orderly t ∧ c.Rests t) c ts) : c.Restful ts := by
  induction ts generalizing c with
  | nil => exact ⟨hc.tends_refl, hflag, fun _ => rfl, fun _ _ => id⟩
  | cons t ts ih =>
    obtain ⟨⟨ht, hrest⟩, hrests⟩ := h
    have hplay := hc.tends_play ht
    have hlater := ih hplay.tended (hrest.needsCompaction hc ht hflag) hrests
    refine ⟨hplay.trans hlater.tends, hlater.unneeded, fun order => ?_,
      fun order hkeeps htrim => ?_⟩
    · refine (hlater.snapshotIn order).trans (snapshotIn_eq hc.unambiguous hplay.tended.unambiguous
        (holds_congr hc.unambiguous hplay.tended.unambiguous hrest.clients hrest.listeners) order)
    · obtain ⟨hnow, hafter⟩ := List.forall_mem_cons.mp hkeeps
      exact hlater.trimIn order hafter (hrest.trimIn hc ht hflag hnow htrim)

theorem tended_start {place : Log.Place} {disk : Disk} (hd : Log.Apart place disk)
    (idleLimit : Nat) : (start place idleLimit disk).Tended :=
  ⟨hd, rfl, nofun⟩

/-- Appends and compactions may fail at any time. Once a compaction has succeeded, the log mirrors
the state whenever no compaction is needed; so it does whenever one that is made if needed finds
nothing to do. A compaction that fails closes the log's handle and leaves everything else as it
is. After one that was needed and succeeds, no further one is needed and the log stays as it is
until a client or a listener comes or goes; only its order changes if a compaction is forced that
visits the databases in another one. -/
theorem repaired_by_compaction {place : Log.Place} {disk : Disk} (hd : Log.Apart place disk)
    (idleLimit : Nat) {ts : List Turn} (hts : Along Orderly (start place idleLimit disk) ts) :
    let c := (start place idleLimit disk).course ts
    (Compacted (start place idleLimit disk) ts →
      (c.needsCompaction = false → c.Mirrored) ∧
      ∀ bar order c', behind bar (compactIfNeeded · order) c = (.ok false, c') →
        c' = c ∧ c.Mirrored) ∧
    (∀ bar order f c', behind bar (compact · order) c = (.error f, c') ∨
        behind bar (compactIfNeeded · order) c = (.error f, c') →
      c' = { c with log := c.log.close, disk := c'.disk } ∧
        c'.disk.read place.name = c.disk.read place.name) ∧
    ∀ bar order c', behind bar (compactIfNeeded · order) c = (.ok true, c') →
      ∀ us, Along (fun c t => c.Orderly t ∧ c.Rests t) c' us →
        ((∀ t ∈ us, t.KeepsTo order) →
          (c'.course us).disk.read place.name = c'.disk.read place.name) ∧
        (∃ es : List Log.Entry, es.Perm (c'.snapshotIn order) ∧
          c'.disk.read place.name = .ok (logBytes (c'.snapshotIn order)) ∧
          (c'.course us).disk.read place.name = .ok (logBytes es)) ∧
        ∀ bar' order', behind bar' (compactIfNeeded · order') (c'.course us) =
          (.ok false, c'.course us) := by
  intro c
  have hcourse : Tends (start place idleLimit disk) c :=
    (tended_start hd idleLimit).tends_course hts
  have hc := hcourse.tended
  have hplace : c.log.place = place := hcourse.place
  refine ⟨fun hcompacted => ?_, fun bar order f c' h => ?_, fun bar order c' h us hus => ?_⟩
  · have hrepaired : c.needsCompaction = false → c.Mirrored := fun hflag =>
      hc.mirrored (repaired_course (tended_start hd idleLimit) hts hcompacted hflag)
    refine ⟨hrepaired, fun bar order c' h => ?_⟩
    obtain ⟨hflag, hsame⟩ := not_needed_of_compactIfNeeded h
    exact ⟨hsame, hrepaired hflag⟩
  · have hfailed : behind bar (compact · order) c = (.error f, c') :=
      h.elim id fun h => compact_of_compactIfNeeded h nofun
    rcases hc.compact_cases bar order with ⟨disk, hrun, -⟩ | ⟨f', disk, hrun, hspares⟩
    · rw [hrun] at hfailed
      cases hfailed
    · rw [hrun] at hfailed
      cases hfailed
      rw [← hplace]
      exact ⟨rfl, hspares.read⟩
  · have hcompact : behind bar (compact · order) c = (.ok (), c') :=
      compact_of_compactIfNeeded h nofun
    obtain ⟨htrim, hflag⟩ := hc.trim_of_compact hcompact
    have htends := hc.tends_compact bar order
    rw [hcompact] at htends
    have hrestful := restful_of_rests htends.tended hflag hus
    obtain ⟨order', hafter⟩ := hrestful.tends.repaired (fun _ => ⟨order, htrim⟩) hrestful.unneeded
    have hread : ∀ o, (c'.course us).TrimIn o →
        (c'.course us).disk.read place.name = .ok (logBytes (c'.snapshotIn o)) := by
      intro o ho
      rwa [TrimIn, hrestful.tends.place, htends.place, hplace, hrestful.snapshotIn] at ho
    have hbefore : c'.disk.read place.name = .ok (logBytes (c'.snapshotIn order)) := by
      rwa [TrimIn, htends.place, hplace] at htrim
    refine ⟨fun hkeeps => ?_, ⟨c'.snapshotIn order', ?_, hbefore, hread order' hafter⟩,
      behind_compactIfNeeded_of_not_needed hrestful.unneeded⟩
    · exact (hread order (hrestful.trimIn order hkeeps htrim)).trans hbefore.symm
    · exact (c'.perm_snapshotIn order').trans (c'.perm_snapshotIn order).symm

/-- A client and a listener come while the way to the log is blocked, and a compaction fails. The
next one that is made if needed repairs the log, and after a change of a value none is needed. -/
theorem repaired_after_failures :
    let place : Log.Place := ⟨"/state", "log"⟩
    let bar : Bar := some (.notFolder, .exists)
    let failing : List Turn := [.ask bar (.act (.addClient "/c")), .ask bar (.act (.compact [])),
      .ask bar (.act (.subscribe none "/a" "/c"))]
    let c₀ := start place 60 (diskOf place (logBytes [.addClient "/x"]))
    let c := c₀.course failing
    let c' := (behind none (compactIfNeeded · []) c).2
    let set : Turn := .ask none (.act (.set none "/a" "v"))
    (¬ c.Mirrored ∧
      (behind bar (compact · []) c).2.disk.read place.name = c.disk.read place.name) ∧
      c'.Mirrored ∧
      behind bar (compactIfNeeded · ["a"]) (c'.course [set]) = (.ok false, c'.course [set]) := by
  intro place bar failing c₀ c c' set
  have happart : Apart place (diskOf place (logBytes [.addClient "/x"])) := by
    refine ⟨fun name n hn => ?_, fun n _ hs => ?_⟩
    · exact (clear_diskOf [] place _).stored name n (Disk.find_folder_eq_ok.mp hn)
    · have hfree : (diskOf place (logBytes [.addClient "/x"])).find place.staged =
          .error .notFound := by decide +kernel
      rw [hfree] at hs
      cases hs
  have hclient : '\n' ∉ "/c".toList := by decide
  have hplain : (Act.subscribe none "/a" "/c").Plain := ⟨nofun, hclient⟩
  have hset : PlainAddress none := nofun
  have horderly : Along Orderly c₀ failing := ⟨hclient, trivial, hplain, trivial⟩
  have hfailing := repaired_by_compaction happart 60 horderly
  have hall : Along Orderly c₀ (failing ++ [.ask none (.act (.compactIfNeeded []))]) :=
    along_append.mpr ⟨horderly, trivial, trivial⟩
  have hrepaired := repaired_by_compaction happart 60 hall
  have hok : behind none (compactIfNeeded · []) c = (.ok true, c') :=
    Prod.ext (by decide +kernel) rfl
  have hread : c.readLog = .ok ⟨["/x"], []⟩ := by decide +kernel
  have hclients : "/x" ∉ c.clients.keys := by decide +kernel
  have hrests : c'.Rests set :=
    rests_of_eq (by decide +kernel) (by decide +kernel) (by decide +kernel) not_false
  refine ⟨⟨?_, ?_⟩, ?_, ?_⟩
  · rintro ⟨s, hs, -, hperm, -⟩
    rw [hread] at hs
    cases hs
    exact hclients (hperm.mem_iff.mp (.head _))
  · exact (hfailing.2.1 bar [] _ _ (.inl rfl)).2
  · have hcompacted := compacted_of_succeeds (t := .ask none (.act (.compactIfNeeded []))) failing
      [] (congrArg Prod.fst hok)
    have hmirrored := (hrepaired.1 hcompacted).1 (by decide +kernel)
    rw [course_concat, play_compactIfNeeded] at hmirrored
    exact hmirrored
  · exact (hfailing.2.2 none [] c' hok [set] ⟨⟨hset, hrests⟩, trivial⟩).2.2 bar ["a"]

end ConfigDaemon.Core
