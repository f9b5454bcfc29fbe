import ConfigDaemon.Proofs.Items
import ConfigDaemon.Proofs.Log.Compaction

/-! # What stands in the way of a compaction

A compaction fails where the folder of the log cannot be made, where a folder has the name for
staging, and where the old log cannot be moved aside; all is then as it was, but for a staged file,
which is gone. In every other case the new log is put in place.
-/

namespace ConfigDaemon.Log

open Disk

/-- Every file is stored, and the one under the name for staging has no other name. -/
structure Separate (p : Place) (d : Disk) : Prop where
  stored : d.Stored
  apart : ∀ n, d.find p.staged = .ok (.file n) →
    ∀ name ≠ p.staged, ∀ e, d.find name = .ok e → n ∉ e.files

def moveFault? (p : Place) (d : Disk) : Option Fault :=
  match d.find p.name with
  | .error _ => none
  | .ok e => (d.find p.aside).toOption.bind (replaceFault e)

def obstacle? (p : Place) (d : Disk) : Option Failure :=
  match d.makeFolder with
  | .error f => some (failure "create directory" p.folder f)
  | .ok _ =>
    match d.find p.staged with
    | .ok (.folder _) => some (failure "open" (p.path p.staged) .isFolder)
    | _ => (moveFault? p d).map (failure "move aside" (p.path p.name))

/-- What is left under the name for the old log: a file is removed from there, a folder stays. -/
def leftAside (log aside : Option Item) : Option Item :=
  match log with
  | none => aside
  | some (.file _) => none
  | some (.folder inside) => some (.folder inside)

/-- The new log has these bytes, and only the names that a compaction uses mean something else. -/
structure Installed (p : Place) (d d' : Disk) (bytes : Bytes) : Prop where
  separate : Separate p d'
  log : d'.item? p.name = some (.file bytes)
  staged : d'.item? p.staged = none
  aside : d'.item? p.aside = leftAside (d.item? p.name) (d.item? p.aside)
  others : ∀ name, name ≠ p.name → name ≠ p.staged → name ≠ p.aside →
    d'.item? name = d.item? name

/-- Nothing has become of the compaction. Under the name for staging only a folder can be left. -/
structure Abandoned (p : Place) (d d' : Disk) : Prop where
  separate : Separate p d'
  staged : ∀ item ∈ d'.item? p.staged,
    d.item? p.staged = some item ∧ ∃ inside, item = .folder inside
  others : ∀ name ≠ p.staged, d'.item? name = d.item? name

structure Staged (p : Place) (d d' : Disk) (n : Nat) (bytes : Bytes) : Prop where
  stored : d'.Stored
  found : d'.find p.staged = .ok (.file n)
  written : d'.contents n = bytes
  find_eq : ∀ name ≠ p.staged, d'.find name = d.find name
  item?_eq : ∀ name ≠ p.staged, d'.item? name = d.item? name

variable {p : Place} {d d' d'' : Disk} {n : Nat} {bytes : Bytes} {e : ConfigDaemon.Entry}

/-- Without a file under the name for staging it is enough that all files are stored. -/
theorem separate_of_stored (h : d.Stored) (hfile : ∀ n, d.find p.staged ≠ .ok (.file n)) :
    Separate p d :=
  ⟨h, fun n hn => absurd hn (hfile n)⟩

theorem separate_folder {es : Table String ConfigDaemon.Entry} {files : List Bytes} {pinned : Bool}
    (hstored : ∀ row ∈ es.rows, ∀ n ∈ row.2.files, n < files.length)
    (happart : ∀ row ∈ es.rows, row.1 = p.staged → ∀ n ∈ row.2.files,
      ∀ other ∈ es.rows, other.1 ≠ p.staged → n ∉ other.2.files) :
    Separate p ⟨.folder es, files, pinned⟩ where
  stored := stored_folder hstored
  apart n hn _ hname _ he :=
    happart _ (Table.mem_rows.mpr (find_folder_eq_ok.mp hn)) rfl n List.mem_cons_self _
      (Table.mem_rows.mpr (find_folder_eq_ok.mp he)) hname

theorem obstacle?_of_error {f : Fault} (hmake : d.makeFolder = .error f) :
    obstacle? p d = some (failure "create directory" p.folder f) := by
  simp only [obstacle?, hmake]

theorem obstacle?_of_folder (hmake : d.makeFolder = .ok d') {inside : Nodes}
    (h : d.find p.staged = .ok (.folder inside)) :
    obstacle? p d = some (failure "open" (p.path p.staged) .isFolder) := by
  simp only [obstacle?, hmake, h]

theorem obstacle?_of_free (hmake : d.makeFolder = .ok d')
    (h : ∀ inside, d.find p.staged ≠ .ok (.folder inside)) :
    obstacle? p d = (moveFault? p d).map (failure "move aside" (p.path p.name)) := by
  simp only [obstacle?, hmake]

/-! ## Calls -/

theorem Separate.makeFolder (h : Separate p d) (hmake : d.makeFolder = .ok d') :
    Separate p d' ∧ ∀ name, d'.item? name = d.item? name := by
  have hfind := find_of_makeFolder hmake
  have hfiles := files_of_makeFolder hmake
  refine ⟨⟨h.stored.congr (by rw [hfiles]) fun name e he => ⟨name, by rw [← hfind, he]⟩, ?_⟩,
    fun name => item?_moved hfiles (hfind name)⟩
  simpa only [hfind] using h.apart

def unlinked : Except Fault ConfigDaemon.Entry → Except Fault ConfigDaemon.Entry
  | .ok (.file _) => .error .notFound
  | r => r

theorem find_after_unlink (d : Disk) (old name : String) :
    (Script.after d (.unlink old)).2.find name =
      if name = old then unlinked (d.find old) else d.find name := by
  unfold Script.after
  cases hunlink : (Call.unlink old).perform d with
  | ok d' =>
    obtain ⟨n, hn⟩ := find_of_unlink_ok hunlink
    simp [find_unlink hunlink, hn, unlinked]
  | error f =>
    by_cases hname : name = old
    · subst hname
      cases he : d.find name with
      | error f => simp [unlinked]
      | ok e =>
        cases e with
        | file n =>
          obtain ⟨d', hd'⟩ := unlink_of_find he
          cases hunlink.symm.trans hd'
        | folder inside => simp [unlinked]
    · simp [hname]

theorem files_after_unlink (d : Disk) (old : String) :
    (Script.after d (.unlink old)).2.files = d.files := by
  unfold Script.after
  split
  · rename_i hunlink
    exact files_unlink hunlink
  · rfl

theorem Separate.openFile (h : Separate p d) (hopen : d.openFile p.staged = .ok (n, d')) :
    d'.find p.staged = .ok (.file n) ∧ n < d'.files.length ∧ d.files.length ≤ d'.files.length ∧
      (∀ name ≠ p.staged, d'.find name = d.find name) ∧
      (∀ m < d.files.length, d'.contents m = d.contents m) ∧
      ∀ name ≠ p.staged, ∀ e, d.find name = .ok e → n ∉ e.files := by
  obtain ⟨es, files, pinned, rfl, ⟨hn, rfl⟩ | ⟨rfl, rfl⟩⟩ := exists_of_openFile_ok hopen
  · have hfound : Disk.find ⟨.folder es, files, pinned⟩ p.staged = .ok (.file n) :=
      find_folder_eq_ok.mpr hn
    exact ⟨hfound, h.stored.lt hfound, le_rfl, fun _ _ => rfl,
      fun _ _ => rfl, h.apart n hfound⟩
  · refine ⟨find_folder_eq_ok.mpr (Table.find?_insert_self _ _ _), by simp, by simp,
      fun name hne => ?_, fun m hm => getD_append hm _, fun name hne e he hmem => ?_⟩
    · simp [find_folder, Table.find?_insert, hne]
    · exact Nat.lt_irrefl _ (h.stored name e he _ hmem)

theorem Separate.stage (h : Separate p d) {es : Table String ConfigDaemon.Entry}
    (hsite : d.site = .folder es) (hfree : ∀ inside, d.find p.staged ≠ .ok (.folder inside))
    (bytes : Bytes) :
    ∃ d₁ n, (Call.stage p.staged).perform d = .ok d₁ ∧
      (Call.fill p.staged bytes).perform d₁ = .ok (d₁.fill n bytes) ∧
      Staged p d (d₁.fill n bytes) n bytes := by
  obtain ⟨n, d₀, hopen⟩ := exists_openFile_ok hsite hfree
  obtain ⟨hfound, hlt, hlength, hfind, hcontents, hapart⟩ := h.openFile hopen
  have hlengths : ((d₀.fill n []).fill n bytes).files.length = d₀.files.length := by simp [fill]
  refine ⟨d₀.fill n [], n, by simp only [Call.perform, stageFile, hopen], ?_, ?_⟩
  · have hsame : (d₀.fill n []).find p.staged = .ok (.file n) := hfound
    simp only [Call.perform, fillFile, hsame]
  constructor
  · intro name e he m hm
    rw [hlengths]
    by_cases hname : name = p.staged
    · subst hname
      cases hfound.symm.trans he
      obtain rfl := List.mem_singleton.mp hm
      exact hlt
    · exact Nat.lt_of_lt_of_le (h.stored name e ((hfind name hname).symm.trans he) m hm) hlength
  · exact hfound
  · exact contents_fill_self (by simpa [fill] using hlt) bytes
  · exact hfind
  · intro name hname
    have hsame : ((d₀.fill n []).fill n bytes).find name = d.find name := hfind name hname
    apply item?_congr hsame
    intro e he m hm
    -- No other entry has the staged file, so that writing to it cannot be seen elsewhere.
    have hne : m ≠ n := fun hmn => hapart name hname e he (hmn ▸ hm)
    rw [contents_fill_of_ne hne, contents_fill_of_ne hne, hcontents m (h.stored name e he m hm)]

/-! ## How a compaction ends -/

theorem abandoned (hstored : d'.Stored) (hothers : ∀ name ≠ p.staged, d'.item? name = d.item? name)
    (hstaged : ∀ inside, d'.find p.staged = .ok (.folder inside) →
      d'.item? p.staged = d.item? p.staged) :
    Abandoned p d (Script.after d' (.unlink p.staged)).2 := by
  have hfiles := files_after_unlink d' p.staged
  have hfind := find_after_unlink d' p.staged
  have hleft : ∀ e, (Script.after d' (.unlink p.staged)).2.find p.staged = .ok e →
      d'.find p.staged = .ok e ∧ ∃ inside, e = .folder inside := by
    intro e he
    rw [hfind, if_pos rfl] at he
    cases hold : d'.find p.staged with
    | error f =>
      rw [hold] at he
      cases he
    | ok old =>
      rw [hold] at he
      cases old with
      | file m => cases he
      | folder inside =>
        cases he
        exact ⟨rfl, inside, rfl⟩
  constructor
  · refine separate_of_stored (hstored.congr (by rw [hfiles]) fun name e he => ⟨name, ?_⟩) ?_
    · by_cases hname : name = p.staged
      · subst hname
        exact (hleft e he).1
      · simpa [hfind, hname] using he
    · intro n hn
      obtain ⟨-, inside, hinside⟩ := hleft _ hn
      cases hinside
  · intro item hitem
    cases he : (Script.after d' (.unlink p.staged)).2.find p.staged with
    | error f => simp [item?_of_find_error he] at hitem
    | ok e =>
      obtain ⟨hold, inside, rfl⟩ := hleft e he
      rw [item?_moved hfiles (he.trans hold.symm), hstaged inside hold] at hitem
      refine ⟨hitem, ?_⟩
      rw [← hstaged inside hold, item?_of_find hold] at hitem
      exact ⟨_, (Option.some.inj hitem).symm⟩
  · intro name hname
    rw [item?_moved hfiles ((hfind name).trans (if_neg hname)), hothers name hname]

theorem rename_to_free {old new : String} (hold : d.find old = .ok (.file n)) {f : Fault}
    (hnew : d.find new = .error f) : ∃ d', (Call.rename old new).perform d = .ok d' := by
  have h : ∃ d', d.rename old new = .ok d' := by
    simpa [hnew, Except.toOption] using rename_of_find hold new
  exact h

/-- The staged file gets the name of the log, which is free; what was moved aside is removed if it
is a file. -/
theorem run_installScript {d : Disk} (hstaged : d.find p.staged = .ok (.file n)) {f : Fault}
    (hfree : d.find p.name = .error f) (movedAside : Bool) :
    ∃ d', (installScript p movedAside).run d = (.ok (), d') ∧ d'.files = d.files ∧
      d'.find p.name = .ok (.file n) ∧ d'.find p.staged = .error .notFound ∧
      d'.find p.aside = (if movedAside then unlinked (d.find p.aside) else d.find p.aside) ∧
      ∀ name, name ≠ p.name → name ≠ p.staged → name ≠ p.aside → d'.find name = d.find name := by
  obtain ⟨d₁, hrename⟩ := rename_to_free hstaged hfree
  have hfind := find_rename hrename
  have hfiles := files_rename hrename
  rw [installScript, Script.run_call hrename]
  cases movedAside with
  | false =>
    refine ⟨d₁, rfl, hfiles, ?_, ?_, ?_, ?_⟩
    · simp [hfind, hstaged]
    · simp [hfind, p.staged_ne_name]
    · simp [hfind, p.aside_ne_name, p.aside_ne_staged]
    · intro name hname hstaged _
      simp [hfind, hname, hstaged]
  | true =>
    have hunlink := find_after_unlink d₁ p.aside
    refine ⟨_, rfl, (files_after_unlink d₁ p.aside).trans hfiles, ?_, ?_, ?_, ?_⟩
    · simp [hunlink, hfind, hstaged, p.aside_ne_name.symm]
    · simp [hunlink, hfind, p.staged_ne_name, p.aside_ne_staged.symm]
    · simp [hunlink, hfind, p.aside_ne_name, p.aside_ne_staged]
    · intro name hname hstaged haside
      simp [hunlink, hfind, hname, hstaged, haside]

theorem Staged.installed (h : Staged p d d' n bytes) (hfiles : d''.files = d'.files)
    (hlog : d''.find p.name = .ok (.file n)) (hstaged : d''.find p.staged = .error .notFound)
    (hkept : ∀ e, d''.find p.aside = .ok e → ∃ other, d'.find other = .ok e)
    (haside : d''.item? p.aside = leftAside (d.item? p.name) (d.item? p.aside))
    (hothers : ∀ name, name ≠ p.name → name ≠ p.staged → name ≠ p.aside →
      d''.find name = d'.find name) : Installed p d d'' bytes := by
  constructor
  · apply separate_of_stored _ (by simp [hstaged])
    refine h.stored.congr (by rw [hfiles]) fun name e he => ?_
    by_cases hname : name = p.name
    · subst hname
      exact ⟨p.staged, h.found.trans (hlog.symm.trans he)⟩
    by_cases hname' : name = p.staged
    · subst hname'
      cases hstaged.symm.trans he
    by_cases hname'' : name = p.aside
    · subst hname''
      exact hkept e he
    · exact ⟨name, (hothers name hname hname' hname'').symm.trans he⟩
  · rw [item?_moved hfiles (hlog.trans h.found.symm), item?_of_find h.found, itemOf, h.written]
  · exact item?_of_find_error hstaged
  · exact haside
  · intro name hname hname' hname''
    rw [item?_moved hfiles (hothers name hname hname' hname''), h.item?_eq name hname']

theorem Staged.install (h : Staged p d d' n bytes) {f : Fault} (hfree : d.find p.name = .error f) :
    ∃ d'', (installScript p false).run d' = (.ok (), d'') ∧ Installed p d d'' bytes := by
  have hname := (h.find_eq p.name p.staged_ne_name.symm).trans hfree
  obtain ⟨d'', hrun, hfiles, hlog, hstaged, haside, hothers⟩ :=
    run_installScript h.found hname false
  replace haside : d''.find p.aside = d'.find p.aside := haside
  refine ⟨d'', hrun, h.installed hfiles hlog hstaged ?_ ?_ hothers⟩
  · exact fun e he => ⟨p.aside, haside.symm.trans he⟩
  · rw [item?_moved hfiles haside, h.item?_eq p.aside p.aside_ne_staged, item?_of_find_error hfree,
      leftAside]

theorem Staged.replace (h : Staged p d d' n bytes) (he : d.find p.name = .ok e)
    (hmove : (d.find p.aside).toOption.bind (replaceFault e) = none) :
    ∃ d₁, (Call.rename p.name p.aside).perform d' = .ok d₁ ∧
      ∃ d'', (installScript p true).run d₁ = (.ok (), d'') ∧ Installed p d d'' bytes := by
  have hname := (h.find_eq p.name p.staged_ne_name.symm).trans he
  obtain ⟨d₁, hrename⟩ : ∃ d₁, d'.rename p.name p.aside = .ok d₁ := by
    have hrename := rename_of_find hname p.aside
    rwa [h.find_eq p.aside p.aside_ne_staged, hmove] at hrename
  have hfind := find_rename hrename
  have hmoved : d₁.find p.aside = .ok e := by simp [hfind, hname]
  have hfree : d₁.find p.name = .error .notFound := by simp [hfind, p.aside_ne_name.symm]
  have hkept : d₁.find p.staged = .ok (.file n) := by
    simp [hfind, p.aside_ne_staged.symm, p.staged_ne_name, h.found]
  obtain ⟨d'', hrun, hfiles, hlog, hstaged, haside, hothers⟩ := run_installScript hkept hfree true
  replace haside : d''.find p.aside = unlinked (.ok e) := by rw [haside, if_pos rfl, hmoved]
  have hfiles' := hfiles.trans (files_rename hrename)
  refine ⟨d₁, hrename, d'', hrun, h.installed hfiles' hlog hstaged ?_ ?_ ?_⟩
  · intro e' he'
    rw [haside] at he'
    cases e with
    | file m => cases he'
    | folder inside => exact ⟨p.name, hname.trans he'⟩
  · rw [← h.item?_eq p.name p.staged_ne_name.symm, item?_of_find hname]
    cases e with
    | file m => exact item?_of_find_error haside
    | folder inside =>
      rw [item?_moved hfiles' (haside.trans hname.symm), item?_of_find hname]
      rfl
  · intro name hname hname' hname''
    simp [hothers name hname hname' hname'', hfind, hname, hname'']

def finishScript (p : Place) : Script (Except Failure Unit) :=
  .look p.name fun
    | false => installScript p false
    | true => .call (.rename p.name p.aside) fun
      | some fault => .abandon p (failure "move aside" (p.path p.name) fault)
      | none => installScript p true

theorem Staged.run_finishScript (h : Staged p d d' n bytes) :
    match moveFault? p d with
    | some fault => ∃ d'', (finishScript p).run d' =
        (.error (failure "move aside" (p.path p.name) fault), d'') ∧ Abandoned p d d''
    | none => ∃ d'', (finishScript p).run d' = (.ok (), d'') ∧ Installed p d d'' bytes := by
  have hname := h.find_eq p.name p.staged_ne_name.symm
  rw [finishScript, Script.run]
  cases he : d.find p.name with
  | error f =>
    have hhas : d'.has p.name = false := by simp [has, hname, he, Except.toBool]
    simp only [moveFault?, he, hhas]
    exact h.install he
  | ok e =>
    have hhas : d'.has p.name = true := by simp [has, hname, he, Except.toBool]
    simp only [moveFault?, he, hhas]
    cases hmove : (d.find p.aside).toOption.bind (replaceFault e) with
    | none =>
      obtain ⟨d₁, hrename, d'', hrun, hd''⟩ := h.replace he hmove
      exact ⟨d'', (Script.run_call hrename).trans hrun, hd''⟩
    | some fault =>
      have hrename : (Call.rename p.name p.aside).perform d' = .error fault := by
        have hrename := rename_of_find (hname.trans he) p.aside
        rwa [h.find_eq p.aside p.aside_ne_staged, hmove] at hrename
      have hfile : ∀ inside, d'.find p.staged ≠ .ok (.folder inside) := by simp [h.found]
      exact ⟨_, Script.run_call_error hrename,
        abandoned h.stored h.item?_eq fun inside hinside => absurd hinside (hfile inside)⟩

theorem Abandoned.congr (h : Abandoned p d' d'') (hitem : ∀ name, d'.item? name = d.item? name) :
    Abandoned p d d'' :=
  ⟨h.separate, by simpa only [hitem] using h.staged,
    fun name hname => (h.others name hname).trans (hitem name)⟩

theorem Installed.congr (h : Installed p d' d'' bytes)
    (hitem : ∀ name, d'.item? name = d.item? name) : Installed p d d'' bytes := by
  refine ⟨h.separate, h.log, h.staged, ?_, fun name hname hname' hname'' => ?_⟩
  · rw [h.aside, hitem, hitem]
  · rw [h.others name hname hname' hname'', hitem]

theorem item?_of_makeFolder_error {f : Fault} (h : d.makeFolder = .error f) (name : String) :
    d.item? name = none := by
  obtain ⟨site, files, pinned⟩ := d
  cases site with
  | missing => cases h
  | blocked look make => rfl
  | folder es => cases h

/-- A compaction puts the new log in place unless something is in its way. -/
theorem Separate.run_compactionScript (h : Separate p d) (bytes : Bytes) :
    match obstacle? p d with
    | some f => ∃ d', (compactionScript p bytes).run d = (.error f, d') ∧ Abandoned p d d'
    | none => ∃ d', (compactionScript p bytes).run d = (.ok (), d') ∧ Installed p d d' bytes := by
  cases hmake : d.makeFolder with
  | error f =>
    rw [obstacle?_of_error hmake]
    refine ⟨d, Script.run_call_error (c := .makeFolder) hmake, h, ?_, fun _ _ => rfl⟩
    simp [item?_of_makeFolder_error hmake]
  | ok d₁ =>
    obtain ⟨h₁, hitem⟩ := h.makeFolder hmake
    have hfind := find_of_makeFolder hmake
    rw [compactionScript, Script.run_call (c := .makeFolder) hmake]
    by_cases hfree : ∀ inside, d.find p.staged ≠ .ok (.folder inside)
    · obtain ⟨es, hsite⟩ := exists_makeFolder_eq hmake
      obtain ⟨d₂, n, hstage, hfill, hstaged⟩ := h₁.stage hsite (by simpa only [hfind]) bytes
      have hmove : moveFault? p d = moveFault? p d₁ := by simp only [moveFault?, hfind]
      have hfinish := hstaged.run_finishScript
      rw [obstacle?_of_free hmake hfree, hmove, Script.run_call hstage, Script.run_call hfill]
      cases hfault : moveFault? p d₁ with
      | none =>
        rw [hfault] at hfinish
        obtain ⟨d', hrun, hd'⟩ := hfinish
        exact ⟨d', hrun, hd'.congr hitem⟩
      | some fault =>
        rw [hfault] at hfinish
        obtain ⟨d', hrun, hd'⟩ := hfinish
        exact ⟨d', hrun, hd'.congr hitem⟩
    · simp only [not_forall, not_not] at hfree
      obtain ⟨inside, hfolder⟩ := hfree
      have hopen := openFile_of_folder ((hfind _).trans hfolder)
      have hstage : (Call.stage p.staged).perform d₁ = .error .isFolder := by
        simp only [Call.perform, stageFile, hopen]
      rw [obstacle?_of_folder hmake hfolder, Script.run_call_error hstage]
      exact ⟨_, rfl, (abandoned h₁.stored (fun _ _ => rfl) fun _ _ => rfl).congr hitem⟩

end ConfigDaemon.Log
