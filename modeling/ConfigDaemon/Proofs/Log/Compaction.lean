import ConfigDaemon.Proofs.Log.Store

/-! # Compaction puts the new log in place

On a disk that lets the log be used every call of a compaction succeeds, and at the end the name
of the log leads to the file that was prepared.
-/

namespace ConfigDaemon.Log

open Disk (find_folder_eq_ok has_folder rename_file unlink_file)

namespace Place

variable (p : Place)

theorem staged_ne_name : p.staged ≠ p.name := by
  intro h
  have := congrArg String.length h
  simp only [staged, String.length_append] at this
  exact absurd this (by simp)

theorem aside_ne_name : p.aside ≠ p.name := by
  intro h
  have := congrArg String.length h
  simp only [aside, String.length_append] at this
  exact absurd this (by simp)

theorem aside_ne_staged : p.aside ≠ p.staged := by
  intro h
  have := congrArg String.length h
  simp only [aside, staged, String.length_append] at this
  exact absurd (Nat.add_left_cancel this) (by decide)

end Place

namespace Script

variable {α : Type} {d d' : Disk} {c : Call} {next : Option Fault → Script α}

theorem run_call (h : c.perform d = .ok d') :
    (Script.call c next).run d = (next none).run d' := by
  rw [run, after, h]

theorem run_call_error {f : Fault} (h : c.perform d = .error f) :
    (Script.call c next).run d = (next (some f)).run d := by
  rw [run, after, h]

end Script

section Folder

variable {p : Place} {es : Table String ConfigDaemon.Entry} {files : List Bytes} {pinned : Bool}
  {n : Nat}

theorem fillFile_file {name : String} (h : es.find? name = some (.file n)) (bytes : Bytes) :
    fillFile ⟨.folder es, files, pinned⟩ name bytes =
      .ok ⟨.folder es, files.set n bytes, pinned⟩ := by
  rw [fillFile, find_folder_eq_ok.mpr h]
  rfl

structure Keeps (p : Place) (d : Disk) (bytes : Bytes) : Prop where
  usable : Usable p d
  contents : contents p d = bytes

theorem keeps_of_file {bytes : Bytes} (h : Clear.In [p.name, p.staged, p.aside] es files.length)
    (hn : es.find? p.name = some (.file n)) (hb : files.getD n [] = bytes) :
    Keeps p ⟨.folder es, files, pinned⟩ bytes :=
  ⟨h, (contents_of_file hn).trans hb⟩

theorem run_install {bytes : Bytes} (h : Clear.In [p.name, p.staged, p.aside] es files.length)
    (hn : es.find? p.staged = some (.file n)) (hlt : n < files.length)
    (hb : files.getD n [] = bytes) :
    ∃ d, (installScript p false).run ⟨.folder es, files, pinned⟩ = (.ok (), d) ∧
      Keeps p d bytes := by
  have hrename : (Call.rename p.staged p.name).perform ⟨.folder es, files, pinned⟩ = _ :=
    rename_file hn (h.free p.name (by simp))
  refine ⟨_, Script.run_call hrename, ?_⟩
  exact keeps_of_file ((h.erase _).insert _ hlt) (Table.find?_insert_self _ _ _) hb

theorem run_install_aside (pinned : Bool) {bytes : Bytes} {m : Nat}
    (h : Clear.In [p.name, p.staged, p.aside] es files.length)
    (hn : es.find? p.staged = some (.file n)) (hlt : n < files.length)
    (hb : files.getD n [] = bytes) (hm : es.find? p.aside = some (.file m)) :
    ∃ d, (installScript p true).run ⟨.folder es, files, pinned⟩ = (.ok (), d) ∧
      Keeps p d bytes := by
  have hrename : (Call.rename p.staged p.name).perform ⟨.folder es, files, pinned⟩ = _ :=
    rename_file hn (h.free p.name (by simp))
  have haside : ((es.erase p.staged).insert p.name (.file n)).find? p.aside = some (.file m) := by
    rw [Table.find?_insert, if_neg p.aside_ne_name, Table.find?_erase, if_neg p.aside_ne_staged, hm]
  have hunlink : (Call.unlink p.aside).perform ⟨.folder _, files, pinned⟩ = _ :=
    unlink_file haside
  refine ⟨_, (Script.run_call hrename).trans (Script.run_call hunlink), ?_⟩
  refine keeps_of_file (((h.erase _).insert _ hlt).erase _) (n := n) ?_ hb
  rw [Table.find?_erase, if_neg p.aside_ne_name.symm, Table.find?_insert_self]

end Folder

theorem run_compactionScript {p : Place} {d : Disk} (h : Usable p d) (bytes : Bytes) :
    ∃ d', (compactionScript p bytes).run d = (.ok (), d') ∧ Keeps p d' bytes := by
  obtain ⟨es₀, hmake, hclear, -⟩ := exists_makeFolder h
  obtain ⟨n, es, files, hopen, hn, hlt, hkeep, -⟩ :=
    exists_openFile d.pinned (hclear _ h) (by simp : p.staged ∈ _)
  have hin := hkeep _ (hclear _ h)
  have hstage : (Call.stage p.staged).perform ⟨.folder es₀, d.files, d.pinned⟩ =
      .ok ⟨.folder es, files.set n [], d.pinned⟩ := by
    simp only [Call.perform, stageFile, hopen]
    rfl
  have hfill : (Call.fill p.staged bytes).perform ⟨.folder es, files.set n [], d.pinned⟩ = _ :=
    fillFile_file hn bytes
  have hbytes : ((files.set n []).set n bytes).getD n [] = bytes := by
    simp [List.getD_eq_getElem?_getD, hlt]
  have hlt' : n < ((files.set n []).set n bytes).length := by simpa using hlt
  have hin' : Clear.In [p.name, p.staged, p.aside] es ((files.set n []).set n bytes).length := by
    simpa using hin
  generalize (files.set n []).set n bytes = files' at hfill hbytes hlt' hin'
  have hmake' : Call.makeFolder.perform d = _ := hmake
  -- an old log is moved aside first
  rcases hin'.file_or_none (List.mem_cons_self : p.name ∈ _) with hold | ⟨m, hold, hm⟩
  · obtain ⟨d', hrun, hd'⟩ := run_install hin' hn hlt' hbytes
    refine ⟨d', ?_, hd'⟩
    refine (Script.run_call hmake').trans
      ((Script.run_call hstage).trans ((Script.run_call hfill).trans ?_))
    rw [Script.run, has_folder, hold]
    exact hrun
  · have hrename : (Call.rename p.name p.aside).perform ⟨.folder es, files', d.pinned⟩ = _ :=
      rename_file hold (hin'.free p.aside (by simp))
    have hstaged : ((es.erase p.name).insert p.aside (.file m)).find? p.staged =
        some (.file n) := by
      rw [Table.find?_insert, if_neg p.aside_ne_staged.symm, Table.find?_erase,
        if_neg p.staged_ne_name, hn]
    obtain ⟨d', hrun, hd'⟩ := run_install_aside d.pinned
      ((hin'.erase p.name).insert p.aside hm) hstaged hlt' hbytes (Table.find?_insert_self _ _ _)
    refine ⟨d', ?_, hd'⟩
    refine (Script.run_call hmake').trans
      ((Script.run_call hstage).trans ((Script.run_call hfill).trans ?_))
    rw [Script.run, has_folder, hold]
    exact (Script.run_call hrename).trans hrun

namespace Store

theorem compact_spec {s : Store} {d : Disk} (h : Usable s.place d) (es : List Entry) :
    ∃ d', s.compact d es = (.ok (), s.close, d') ∧ Keeps s.place d' (logBytes es) := by
  obtain ⟨d', hrun, hd'⟩ := run_compactionScript h (logBytes es)
  exact ⟨d', by rw [compact, hrun], hd'⟩

end Store

end ConfigDaemon.Log
