import ConfigDaemon.Proofs.Log.Compaction

/-! # Appends and compactions on any disk

Where the way is blocked, or folders have the names that the log needs, appends and compactions
fail. A compaction that fails leaves the log as it is, unless the name for staging is a second name
of the log, which is then emptied.
-/

namespace ConfigDaemon

/-- What blocks the way to a folder for a time, if anything does: the faults of looking there and
of making the folder. -/
abbrev Bar := Option (Fault × Fault)

namespace Disk

def barred (d : Disk) : Bar → Disk
  | none => d
  | some (look, make) => { d with site := .blocked look make }

/-- The bar is gone, and what was behind it is there again. -/
def freed (d : Disk) (site : Site) : Bar → Disk
  | none => d
  | some _ => { d with site }

end Disk

namespace Log

open Disk (find_folder find_folder_eq_ok has_folder read_file rename_file)

/-- Every file that has a name is stored, and the name for staging is not a second name of the
log. -/
structure Apart (p : Place) (d : Disk) : Prop where
  stored : ∀ name n, d.find name = .ok (.file n) → n < d.files.length
  apart : ∀ n, d.find p.name = .ok (.file n) → d.find p.staged ≠ .ok (.file n)

structure Spares (p : Place) (d d' : Disk) : Prop where
  apart : Apart p d'
  read : d'.read p.name = d.read p.name

variable {p : Place} {d d' d'' : Disk} {n : Nat} {name : String}

theorem Apart.spares_refl (h : Apart p d) : Spares p d d :=
  ⟨h, rfl⟩

theorem Spares.trans (h : Spares p d d') (h' : Spares p d' d'') : Spares p d d'' :=
  ⟨h'.apart, h'.read.trans h.read⟩

theorem Apart.congr (h : Apart p d) (hfind : ∀ name, d'.find name = d.find name)
    (hlength : d.files.length ≤ d'.files.length) : Apart p d' where
  stored name n hn := (h.stored name n ((hfind name).symm.trans hn)).trans_le hlength
  apart n hn hs := h.apart n ((hfind _).symm.trans hn) ((hfind _).symm.trans hs)

theorem Apart.stored_folder {es : Table String ConfigDaemon.Entry} {files : List Bytes}
    {pinned : Bool} (h : Apart p ⟨.folder es, files, pinned⟩) (name : String) (n : Nat)
    (hn : es.find? name = some (.file n)) : n < files.length :=
  h.stored name n (find_folder_eq_ok.mpr hn)

/-! ## Calls -/

theorem Apart.makeFolder (h : Apart p d) (hmake : d.makeFolder = .ok d') : Spares p d d' := by
  have hfind := Disk.find_of_makeFolder hmake
  have hfiles := Disk.files_of_makeFolder hmake
  refine ⟨h.congr hfind (by rw [hfiles]), Disk.read_congr (hfind _) fun n _ => ?_⟩
  rw [Disk.contents, Disk.contents, hfiles]

theorem Apart.fill_apart (h : Apart p d) (n : Nat) (bytes : Bytes) : Apart p (d.fill n bytes) :=
  h.congr (fun _ => rfl) (List.length_set ..).ge

theorem Apart.addFile {es : Table String ConfigDaemon.Entry} {files : List Bytes} {pinned : Bool}
    (h : Apart p ⟨.folder es, files, pinned⟩) (name : String) :
    Apart p ⟨.folder (es.insert name (.file files.length)), files ++ [[]], pinned⟩ := by
  have hstored := h.stored_folder
  constructor
  · intro name' n hn
    rw [find_folder_eq_ok, Table.find?_insert] at hn
    simp only [List.length_append, List.length_singleton]
    split at hn
    · cases hn; exact Nat.lt_succ_self _
    · exact Nat.lt_succ_of_lt (hstored name' n hn)
  · intro n hn hs
    rw [find_folder_eq_ok, Table.find?_insert] at hn hs
    split at hn
    · rename_i hname
      rw [if_neg fun he => p.staged_ne_name (he.trans hname.symm)] at hs
      cases hn
      exact Nat.lt_irrefl _ (hstored _ _ hs)
    · split at hs
      · cases hs
        exact Nat.lt_irrefl _ (hstored _ _ hn)
      · exact h.apart n (find_folder_eq_ok.mpr hn) (find_folder_eq_ok.mpr hs)

theorem Apart.openFile (h : Apart p d) (hopen : d.openFile name = .ok (n, d')) :
    Apart p d' ∧ d'.find name = .ok (.file n) ∧
      (∀ other, other ≠ name → d'.find other = d.find other) ∧
      ∀ m < d.files.length, d'.contents m = d.contents m := by
  obtain ⟨es, files, pinned, rfl, ⟨hn, rfl⟩ | ⟨rfl, rfl⟩⟩ := Disk.exists_of_openFile_ok hopen
  · exact ⟨h, find_folder_eq_ok.mpr hn, fun _ _ => rfl, fun _ _ => rfl⟩
  · refine ⟨h.addFile name, find_folder_eq_ok.mpr (Table.find?_insert_self _ _ _),
      fun other hne => ?_, fun m hm => Disk.getD_append hm _⟩
    rw [find_folder, find_folder, Table.find?_insert, if_neg hne]

theorem Apart.fill (h : Apart p d) (hn : d.find p.name ≠ .ok (.file n)) (bytes : Bytes) :
    Spares p d (d.fill n bytes) := by
  refine ⟨h.fill_apart n bytes, Disk.read_congr rfl fun m hm => ?_⟩
  have hne : n ≠ m := fun he => hn (he ▸ hm)
  simp only [Disk.contents, Disk.fill, List.getD_eq_getElem?_getD, List.getElem?_set_ne hne]

theorem Apart.stage (h : Apart p d) (hstage : stageFile d p.staged = .ok d') :
    Spares p d d' ∧ ∃ n, d'.find p.staged = .ok (.file n) := by
  unfold stageFile at hstage
  split at hstage
  · cases hstage
  · rename_i n d₁ hopen
    cases hstage
    obtain ⟨happart, hn, hothers, hcontents⟩ := h.openFile hopen
    have hopened : Spares p d d₁ :=
      ⟨happart, Disk.read_congr (hothers _ p.staged_ne_name.symm) fun m hm =>
        hcontents m (h.stored _ m hm)⟩
    exact ⟨hopened.trans (happart.fill (fun hlog => happart.apart n hlog hn) []), n, hn⟩

theorem Apart.unlink (h : Apart p d) (hne : name ≠ p.name) :
    Spares p d (Script.after d (.unlink name)).2 := by
  unfold Script.after
  split
  · rename_i d' hunlink
    obtain ⟨es, files, pinned, rfl, rfl⟩ := Disk.exists_of_unlink_ok hunlink
    refine ⟨⟨fun other n hn => h.stored other n (Disk.find_of_erase hn), fun n hn hs =>
      h.apart n (Disk.find_of_erase hn) (Disk.find_of_erase hs)⟩, ?_⟩
    rw [Disk.read, Disk.read, find_folder, find_folder, Table.find?_erase, if_neg hne.symm]
    rfl
  · exact h.spares_refl

/-! ## Appending -/

theorem Apart.append {s : Store} (h : Apart s.place d) (e : Entry) :
    Apart s.place (s.append d e).2.2 := by
  unfold Store.append Store.openHandle
  cases s.handle with
  | some n => exact h.fill_apart n _
  | none =>
    cases hmake : d.makeFolder with
    | error f => exact h
    | ok d₁ =>
      have h₁ := (h.makeFolder hmake).apart
      cases hopen : d₁.openFile s.place.name with
      | error f => simpa only [hopen] using h₁
      | ok opened =>
        simp only [hopen]
        exact (h₁.openFile hopen).1.fill_apart _ _

theorem append_of_blocked {s : Store} {look make : Fault} (h : d.site = .blocked look make)
    (e : Entry) : ∃ files, files.length = d.files.length ∧
      (s.append d e).2.2 = { d with files } := by
  unfold Store.append Store.openHandle
  cases s.handle with
  | some n => exact ⟨_, List.length_set .., rfl⟩
  | none =>
    have hmake : d.makeFolder = .error make := by rw [Disk.makeFolder, h]
    rw [hmake]
    exact ⟨d.files, rfl, rfl⟩

namespace Store.Writes

variable {s s' : Store} {es : List Entry}

theorem apart (h : s.Writes d es s' d') (ha : Apart s.place d) : Apart s.place d' := by
  induction h with
  | refl => exact ha
  | close _ ih => exact ih
  | append h e ih =>
    rw [← h.place] at ih ⊢
    exact ih.append e

theorem of_blocked (h : s.Writes d es s' d') {look make : Fault}
    (hsite : d.site = .blocked look make) :
    ∃ files, files.length = d.files.length ∧ d' = { d with files } := by
  induction h with
  | refl => exact ⟨d.files, rfl, rfl⟩
  | close _ ih => exact ih
  | append _ e ih =>
    obtain ⟨files, hlength, rfl⟩ := ih
    obtain ⟨files', hlength', happend⟩ := append_of_blocked (d := { d with files }) hsite e
    exact ⟨files', hlength'.trans hlength, happend⟩

theorem freed {bar : Bar} (h : s.Writes (d.barred bar) es s' d') (ha : Apart s.place d) :
    Apart s.place (d'.freed d.site bar) ∧ (es = [] → d'.freed d.site bar = d) := by
  cases bar with
  | none =>
    refine ⟨h.apart ha, ?_⟩
    rintro rfl
    exact h.disk_eq
  | some faults =>
    obtain ⟨files, hlength, hd'⟩ := h.of_blocked rfl
    refine ⟨?_, ?_⟩
    · rw [hd']
      exact ha.congr (fun _ => rfl) hlength.ge
    · rintro rfl
      rw [h.disk_eq]
      rfl

end Store.Writes

/-! ## Compaction -/

theorem Spares.abandon (h : Spares p d d') (f : Failure) :
    ∃ d'', (Script.abandon p f).run d' = (.error f, d'') ∧ Spares p d d'' :=
  ⟨_, rfl, h.trans (h.apart.unlink p.staged_ne_name)⟩

theorem stored_renamed {es : Table String ConfigDaemon.Entry} {stored : Nat} {old new : String}
    {e : ConfigDaemon.Entry} (h : ∀ name n, es.find? name = some (.file n) → n < stored)
    (he : es.find? old = some e)
    (hn : ((es.erase old).insert new e).find? name = some (.file n)) : n < stored := by
  rw [Table.find?_insert] at hn
  split at hn
  · cases hn
    exact h old n he
  · rw [Table.find?_erase] at hn
    split at hn
    · cases hn
    · exact h name n hn

theorem run_install_free {es : Table String ConfigDaemon.Entry} {files : List Bytes}
    (pinned : Bool) (hstored : ∀ name n, es.find? name = some (.file n) → n < files.length)
    (hn : es.find? p.staged = some (.file n)) (hfree : es.find? p.name = none)
    (movedAside : Bool) :
    ∃ d', (installScript p movedAside).run ⟨.folder es, files, pinned⟩ = (.ok (), d') ∧
      Apart p d' ∧ d'.read p.name = .ok (files.getD n []) := by
  have hrename : (Call.rename p.staged p.name).perform ⟨.folder es, files, pinned⟩ = _ :=
    rename_file hn (by rw [hfree]; exact nofun)
  have hread : Disk.read ⟨.folder ((es.erase p.staged).insert p.name (.file n)), files, pinned⟩
      p.name = .ok (files.getD n []) :=
    read_file (Table.find?_insert_self _ _ _)
  have happart : Apart p
      ⟨.folder ((es.erase p.staged).insert p.name (.file n)), files, pinned⟩ := by
    constructor
    · intro name m hm
      exact stored_renamed hstored hn (find_folder_eq_ok.mp hm)
    · intro m _ hs
      rw [find_folder_eq_ok, Table.find?_insert, if_neg p.staged_ne_name, Table.find?_erase,
        if_pos rfl] at hs
      cases hs
  rw [installScript, Script.run_call hrename]
  cases movedAside with
  | false => exact ⟨_, rfl, happart, hread⟩
  | true =>
    have hspares := happart.unlink p.aside_ne_name
    exact ⟨_, rfl, hspares.apart, hspares.read.trans hread⟩

/-- A staged file becomes the log, or the log cannot be moved out of its way. -/
theorem run_replace {next : Option Fault → Script (Except Failure Unit)}
    {r : Except Failure Unit × Disk}
    (hr : (Script.call (.rename p.name p.aside) next).run d = r) (h : Apart p d)
    (hn : d.find p.staged = .ok (.file n))
    (hfailed : ∀ fault, ∃ f, next (some fault) = .abandon p f)
    (hmoved : next none = installScript p true) :
    (∃ d', r = (.ok (), d') ∧ Apart p d' ∧ d'.read p.name = .ok (d.contents n)) ∨
      ∃ f d', r = (.error f, d') ∧ Spares p d d' := by
  rw [← hr]
  cases hrename : (Call.rename p.name p.aside).perform d with
  | error fault =>
    obtain ⟨f, hf⟩ := hfailed fault
    rw [Script.run_call_error hrename, hf]
    exact .inr ⟨f, h.spares_refl.abandon f⟩
  | ok d' =>
    rw [Script.run_call hrename, hmoved]
    obtain ⟨es, files, pinned, e, rfl, he, rfl⟩ := Disk.exists_of_rename_ok hrename
    refine .inl (run_install_free pinned (fun _ _ => stored_renamed h.stored_folder he) ?_ ?_ true)
    · rw [Table.find?_insert, if_neg p.aside_ne_staged.symm, Table.find?_erase,
        if_neg p.staged_ne_name]
      exact find_folder_eq_ok.mp hn
    · rw [Table.find?_insert, if_neg p.aside_ne_name.symm, Table.find?_erase, if_pos rfl]

/-- A compaction puts the new log in place, or fails and leaves the log as it is. -/
theorem Apart.run_compactionScript (h : Apart p d) (bytes : Bytes) :
    (∃ d', (compactionScript p bytes).run d = (.ok (), d') ∧ Apart p d' ∧
      d'.read p.name = .ok bytes) ∨
      ∃ f d', (compactionScript p bytes).run d = (.error f, d') ∧ Spares p d d' := by
  -- call by call; whatever fails before the file is put in place spares the log
  cases hmake : Call.makeFolder.perform d with
  | error fault =>
    refine .inr ⟨_, d, Script.run_call_error hmake, h.spares_refl⟩
  | ok d₁ =>
  have h₁ := h.makeFolder hmake
  rw [compactionScript, Script.run_call hmake]
  cases hstage : (Call.stage p.staged).perform d₁ with
  | error fault =>
    rw [Script.run_call_error hstage]
    exact .inr ⟨_, h₁.abandon _⟩
  | ok d₂ =>
  obtain ⟨h₂, n, hn⟩ := h₁.apart.stage hstage
  have hfill : (Call.fill p.staged bytes).perform d₂ = .ok (d₂.fill n bytes) := by
    simp only [Call.perform, fillFile, hn]
  rw [Script.run_call hstage, Script.run_call hfill]
  have h₃ := h₁.trans (h₂.trans (h₂.apart.fill (fun hlog => h₂.apart.apart n hlog hn) bytes))
  have hn₃ : (d₂.fill n bytes).find p.staged = .ok (.file n) := hn
  have hbytes : (d₂.fill n bytes).contents n = bytes := by
    simp [Disk.contents, Disk.fill, h₂.apart.stored _ n hn]
  generalize d₂.fill n bytes = d₃ at h₃ hn₃ hbytes
  rw [Script.run]
  cases hhas : d₃.has p.name with
  | false =>
    obtain ⟨es, files, pinned, rfl, hstaged⟩ := Disk.exists_of_find_ok hn₃
    rw [has_folder, Option.isSome_eq_false_iff, Option.isNone_iff_eq_none] at hhas
    have hinstall := run_install_free pinned h₃.apart.stored_folder hstaged hhas false
    rw [← hbytes]
    exact .inl hinstall
  | true =>
    generalize hr : Script.run d₃ _ = r
    rw [← hbytes]
    refine (run_replace hr h₃.apart hn₃ (fun _ => ⟨_, rfl⟩) rfl).imp_right ?_
    rintro ⟨f, d', hrun, hd'⟩
    exact ⟨f, d', hrun, h₃.trans hd'⟩

theorem Apart.compact {s : Store} (h : Apart s.place d) (bar : Bar) (es : List Entry) :
    (∃ d', s.compact (d.barred bar) es = (.ok (), s.close, d') ∧
      Apart s.place (d'.freed d.site bar) ∧
      (d'.freed d.site bar).read s.place.name = .ok (logBytes es)) ∨
      ∃ f d', s.compact (d.barred bar) es = (.error f, s.close, d') ∧
        Spares s.place d (d'.freed d.site bar) := by
  cases bar with
  | none =>
    rcases h.run_compactionScript (logBytes es) with ⟨d', hrun, hd'⟩ | ⟨f, d', hrun, hd'⟩
    · exact .inl ⟨d', congrArg (fun r => (r.1, s.close, r.2)) hrun, hd'⟩
    · exact .inr ⟨f, d', congrArg (fun r => (r.1, s.close, r.2)) hrun, hd'⟩
  | some faults =>
    have hmake : Call.makeFolder.perform (d.barred (some faults)) = .error faults.2 := rfl
    refine .inr ⟨failure "create directory" s.place.folder faults.2, d.barred (some faults), ?_,
      h.spares_refl⟩
    rw [Store.compact, compactionScript, Script.run_call_error hmake]
    rfl

end Log

end ConfigDaemon
