import ConfigDaemon.Proofs.Log.Compaction
import ConfigDaemon.Proofs.Log.Surviving

/-! # Compactions that are cut short

A compaction may stop after any of its calls. What can be read of the log then is what the old log
tells, but for the time when the old log is aside and the new one is not in place yet.
-/

namespace ConfigDaemon.Log

open Disk (find_folder find_folder_eq_ok has_folder rename_file unlink_file)

/-! ## What is read of a rewritten log -/

theorem agrees_logBytes {es : List Entry} (hes : ∀ e ∈ es, e.OneLine) {bytes : Bytes}
    (h : (Surviving.ofEntries es).Agrees (.ofEntries (entriesOfBytes bytes))) :
    (Surviving.ofEntries (entriesOfBytes (logBytes es))).Agrees
      (.ofEntries (entriesOfBytes bytes)) := by
  have hread : entriesOfBytes (logBytes es) = es.filter (·.Complete) :=
    (entriesOfBytes_append_oneLine hes finished_nil :)
  have hopposite : ∀ e : Entry, decide e.opposite.Complete = decide e.Complete := by
    intro e
    cases e <;> rfl
  rw [Surviving.agrees_iff_holds] at h ⊢
  intro e he
  by_cases hcomplete : e.Complete
  · rw [hread, ← h e he]
    exact Surviving.holds_foldl_filter hopposite (decide_eq_true hcomplete) es
      Surviving.distinct_empty Surviving.distinct_empty Iff.rfl
  · have hnot : ∀ bytes, ¬ (Surviving.ofEntries (entriesOfBytes bytes)).Holds e :=
      fun bytes hholds =>
        hcomplete (recordable_of_mem (Surviving.mem_of_holds he hholds)).1.complete
    exact iff_of_false (hnot _) (hnot _)

/-- A new store on the disk reads these clients and listeners. -/
def Recovers (p : Place) (d : Disk) (s : Surviving) : Prop :=
  ∃ s', ((⟨p, none⟩ : Store).read d).1 = .ok s' ∧ s'.Agrees s

theorem recovers_iff {p : Place} {d : Disk} {s s' : Surviving}
    (h : ((⟨p, none⟩ : Store).read d).1 = .ok s') : Recovers p d s ↔ s'.Agrees s := by
  constructor
  · rintro ⟨t, hread, hagrees⟩
    rwa [← Except.ok.inj (h.symm.trans hread)] at hagrees
  · exact fun hagrees => ⟨s', h, hagrees⟩

/-- The log at a place can be read and written, and holds these bytes. -/
structure Bears (p : Place) (d : Disk) (bytes : Bytes) : Prop where
  writable : Writable p d
  contents : contents p d = bytes

theorem Bears.recovers {p : Place} {d : Disk} {bytes : Bytes} {s : Surviving}
    (h : Bears p d bytes) (hs : (Surviving.ofEntries (entriesOfBytes bytes)).Agrees s) :
    Recovers p d s := by
  have hread := congrArg Prod.fst (Store.read_spec (s := ⟨p, none⟩) h.writable)
  rw [h.contents] at hread
  exact (recovers_iff hread).mpr hs

/-! ## Where a script stops -/

namespace Script

variable {α : Type} {d d' : Disk} {c : Call} {next : Option Fault → Script α}

theorem stop_call (h : c.perform d = .ok d') (k : Nat) :
    (Script.call c next).stop d (k + 1) = (next none).stop d' k := by
  rw [stop, after, h]

theorem stop_call_error {f : Fault} (h : c.perform d = .error f) (k : Nat) :
    (Script.call c next).stop d (k + 1) = (next (some f)).stop d k := by
  rw [stop, after, h]

theorem stop_finish (a : α) (d : Disk) (k : Nat) : (Script.finish a).stop d k = d := by
  cases k <;> rfl

theorem stop_look (name : String) (next : Bool → Script α) (d : Disk) (k : Nat) :
    (Script.look name next).stop d k = (next (d.has name)).stop d k := by
  cases k <;> rfl

end Script

section Folder

variable {p : Place} {es es' : Table String ConfigDaemon.Entry} {files : List Bytes}
  {pinned : Bool} {n m : Nat} {old new : Bytes}

theorem bears_file (hstored : ∀ name n, es.find? name = some (.file n) → n < files.length)
    (h : es.find? p.name = some (.file n)) :
    Bears p ⟨.folder es, files, pinned⟩ (files.getD n []) := by
  refine ⟨⟨?_, hstored⟩, contents_of_file h⟩
  rw [List.forall_mem_singleton]
  rintro inside hfolder
  rw [h] at hfolder
  cases hfolder

theorem Bears.unlink {d : Disk} (h : Bears p d old) {name : String} (hne : name ≠ p.name) :
    Bears p (Script.after d (.unlink name)).2 old := by
  unfold Script.after
  split
  · rename_i d' hunlink
    obtain ⟨es, files, pinned, rfl, rfl⟩ := Disk.exists_of_unlink_ok hunlink
    refine ⟨Clear.In.erase h.writable name, ?_⟩
    rw [← h.contents]
    refine contents_congr ?_
    rw [Table.find?_erase, if_neg hne.symm]
  · exact h

theorem Bears.abandon {d : Disk} (h : Bears p d old) (f : Failure) (k : Nat) :
    Bears p ((Script.abandon p f).stop d k) old := by
  cases k with
  | zero => exact h
  | succ k =>
    rw [Script.abandon, Script.stop, Script.stop_finish]
    exact h.unlink p.staged_ne_name

structure Prepared (p : Place) (d : Disk) (n : Nat) (old new : Bytes) : Prop where
  bears : Bears p d old
  staged : d.find p.staged = .ok (.file n)
  apart : d.find p.name ≠ .ok (.file n)
  written : d.contents n = new

/-- The old log is aside and the new one is not in place yet; both are complete. -/
structure Between (p : Place) (d : Disk) (old new : Bytes) : Prop where
  free : d.find p.name = .error .notFound
  aside : Bears { p with name := p.aside } d old
  staged : Bears { p with name := p.staged } d new

theorem Prepared.fill {bytes : Bytes} (h : Prepared p ⟨.folder es, files, pinned⟩ n old new) :
    Prepared p (Disk.fill ⟨.folder es, files, pinned⟩ n bytes) n old bytes := by
  have hin := h.bears.writable
  have hlt := hin.stored _ _ (find_folder_eq_ok.mp h.staged)
  have hbears : Bears p (Disk.fill ⟨.folder es, files, pinned⟩ n bytes) old := by
    refine ⟨?_, ?_⟩
    · change Clear.In [p.name] es (files.set n bytes).length
      rw [List.length_set]
      exact hin
    · rw [← h.bears.contents, Disk.fill]
      rcases hin.file_or_none List.mem_cons_self with hnone | ⟨m, hm, -⟩
      · rw [contents_of_none hnone, contents_of_none hnone]
      · have hne : n ≠ m := fun he => h.apart (find_folder_eq_ok.mpr (he ▸ hm))
        rw [contents_of_file hm, contents_of_file hm, List.getD_eq_getElem?_getD,
          List.getElem?_set_ne hne, ← List.getD_eq_getElem?_getD]
  exact ⟨hbears, h.staged, h.apart, by simp [Disk.contents, Disk.fill, hlt]⟩

theorem perform_stage (h : Bears p ⟨.folder es, files, pinned⟩ old)
    (hapart : ∀ n, es.find? p.staged = some (.file n) → es.find? p.name ≠ some (.file n)) :
    (∃ f, (Call.stage p.staged).perform ⟨.folder es, files, pinned⟩ = .error f) ∨
      ∃ n es' files', (Call.stage p.staged).perform ⟨.folder es, files, pinned⟩ =
          .ok ⟨.folder es', files', pinned⟩ ∧
        Prepared p ⟨.folder es', files', pinned⟩ n old [] := by
  by_cases hfolder : ∃ inside, es.find? p.staged = some (.folder inside)
  · obtain ⟨inside, hinside⟩ := hfolder
    refine .inl ⟨.isFolder, ?_⟩
    simp only [Call.perform, stageFile, Disk.openFile, Disk.entries, hinside]
  · have hin : Clear.In [p.name, p.staged] es files.length := by
      refine ⟨?_, h.writable.stored⟩
      rw [List.forall_mem_cons, List.forall_mem_singleton]
      exact ⟨h.writable.free p.name List.mem_cons_self, fun inside he => hfolder ⟨inside, he⟩⟩
    obtain ⟨n, es', files', hopen, hn, -, hkeep, hsame, hwhich, hothers⟩ :=
      exists_openFile pinned hin (by simp : p.staged ∈ _)
    refine .inr ⟨n, es', files'.set n [], by simp only [Call.perform, stageFile, hopen]; rfl, ?_⟩
    have hopened : Prepared p ⟨.folder es', files', pinned⟩ n old (files'.getD n []) := by
      refine ⟨⟨hkeep _ h.writable, (hsame p).trans h.contents⟩, find_folder_eq_ok.mpr hn, ?_, rfl⟩
      rw [ne_eq, find_folder_eq_ok, hothers _ p.staged_ne_name.symm]
      rcases hwhich with hold | rfl
      · exact hapart n hold
      · exact fun he => Nat.lt_irrefl _ (hin.stored _ _ he)
    exact hopened.fill

theorem stop_install (h : Prepared p ⟨.folder es, files, pinned⟩ n old new) (movedAside : Bool)
    (k : Nat) :
    Bears p ((installScript p movedAside).stop ⟨.folder es, files, pinned⟩ (k + 1)) new := by
  have hin := h.bears.writable
  have hstaged := find_folder_eq_ok.mp h.staged
  have hrename : (Call.rename p.staged p.name).perform ⟨.folder es, files, pinned⟩ = _ :=
    rename_file hstaged (hin.free p.name List.mem_cons_self)
  have hdone : Bears p ⟨.folder ((es.erase p.staged).insert p.name (.file n)), files, pinned⟩ new :=
    h.written ▸ bears_file ((hin.erase _).insert _ (hin.stored _ _ hstaged)).stored
      (Table.find?_insert_self _ _ _)
  rw [installScript, Script.stop_call hrename]
  cases movedAside with
  | false => exact (Script.stop_finish _ _ k).symm ▸ hdone
  | true =>
    cases k with
    | zero => exact hdone
    | succ k =>
      simp only [if_true]
      rw [Script.stop, Script.stop_finish]
      exact hdone.unlink p.aside_ne_name

theorem stop_replace {d : Disk} {next : Option Fault → Script (Except Failure Unit)} {k : Nat}
    (hd : d = (Script.call (.rename p.name p.aside) next).stop ⟨.folder es, files, pinned⟩ k)
    (hfailed : ∀ fault, ∃ f, next (some fault) = .abandon p f)
    (hmoved : next none = installScript p true)
    (h : Prepared p ⟨.folder es, files, pinned⟩ n old new) (hm : es.find? p.name = some (.file m)) :
    Bears p d old ∨ Bears p d new ∨ k = 1 ∧ Between p d old new := by
  have hin := h.bears.writable
  have hstaged := find_folder_eq_ok.mp h.staged
  -- before the old log moves it is there; once it has moved, the first call that follows ends the
  -- window
  cases k with
  | zero => exact .inl (hd ▸ h.bears)
  | succ k =>
    by_cases hfolder : ∃ inside, es.find? p.aside = some (.folder inside)
    · obtain ⟨inside, hinside⟩ := hfolder
      have hfail : (Call.rename p.name p.aside).perform ⟨.folder es, files, pinned⟩ =
          .error .isFolder := by
        simp only [Call.perform, Disk.rename, Disk.entries, hm, hinside]
        rfl
      obtain ⟨f, hf⟩ := hfailed .isFolder
      rw [hd, Script.stop_call_error hfail, hf]
      exact .inl (h.bears.abandon f k)
    · have hrename : (Call.rename p.name p.aside).perform ⟨.folder es, files, pinned⟩ = _ :=
        rename_file hm fun inside he => hfolder ⟨inside, he⟩
      have hlt := hin.stored _ _ hm
      have hclear := (hin.erase p.name).insert p.aside hlt
      have hfree : ((es.erase p.name).insert p.aside (.file m)).find? p.name = none := by
        rw [Table.find?_insert, if_neg p.aside_ne_name.symm, Table.find?_erase, if_pos rfl]
      have hkept : ((es.erase p.name).insert p.aside (.file m)).find? p.staged =
          some (.file n) := by
        rw [Table.find?_insert, if_neg p.aside_ne_staged.symm, Table.find?_erase,
          if_neg p.staged_ne_name, hstaged]
      cases k with
      | zero =>
        have hwindow :
            d = ⟨.folder ((es.erase p.name).insert p.aside (.file m)), files, pinned⟩ := by
          rw [hd, Script.stop_call hrename, hmoved]
          rfl
        rw [hwindow]
        refine .inr (.inr ⟨rfl, ?_, ?_, ?_⟩)
        · rw [find_folder, hfree]
        · rw [← h.bears.contents, contents_of_file hm]
          exact bears_file hclear.stored (Table.find?_insert_self _ _ _)
        · rw [← h.written]
          exact bears_file hclear.stored hkept
      | succ k =>
        have hprepared : Prepared p
            ⟨.folder ((es.erase p.name).insert p.aside (.file m)), files, pinned⟩ n [] new := by
          refine ⟨⟨hclear, contents_of_none hfree⟩, find_folder_eq_ok.mpr hkept, ?_, h.written⟩
          rw [ne_eq, find_folder_eq_ok, hfree]
          exact (Option.some_ne_none _).symm
        rw [hd, Script.stop_call hrename, hmoved]
        exact .inr (.inl (stop_install hprepared true k))

theorem bears_made {d : Disk} (h : Writable p d) :
    ∃ es, d.makeFolder = .ok ⟨.folder es, d.files, d.pinned⟩ ∧
      Bears p ⟨.folder es, d.files, d.pinned⟩ (contents p d) ∧
      ∀ name, (⟨.folder es, d.files, d.pinned⟩ : Disk).find name = d.find name := by
  obtain ⟨site, files, pinned⟩ := d
  cases site with
  | missing => exact ⟨.empty, rfl, ⟨.empty _ _, rfl⟩, fun _ => rfl⟩
  | blocked look make => exact h.elim
  | folder es => exact ⟨es, rfl, ⟨h, rfl⟩, fun _ => rfl⟩

/-- Wherever a compaction stops, the log holds the old bytes or the new ones, or it is between
the two. -/
theorem stop_compactionScript {d : Disk} (h : Writable p d)
    (hapart : ∀ n, d.find p.staged = .ok (.file n) → d.find p.name ≠ .ok (.file n))
    (bytes : Bytes) (k : Nat) :
    let d' := (compactionScript p bytes).stop d k
    Bears p d' (contents p d) ∨ Bears p d' bytes ∨ k = 4 ∧ Between p d' (contents p d) bytes := by
  intro d'
  obtain ⟨es₁, hmake, h₁, hfind⟩ := bears_made h
  have hapart₁ : ∀ n, es₁.find? p.staged = some (.file n) → es₁.find? p.name ≠ some (.file n) := by
    intro n hs hn
    rw [← find_folder_eq_ok, hfind] at hs hn
    exact hapart n hs hn
  -- up to the writing of the staged file, the log is what it was after each call
  rcases k with _ | k
  · exact .inl ⟨h, rfl⟩
  have hd₁ : d' = _ := Script.stop_call (c := .makeFolder) hmake k
  rcases k with _ | k
  · rw [hd₁]; exact .inl h₁
  rcases perform_stage h₁ hapart₁ with ⟨f, hstage⟩ | ⟨n, es₂, files, hstage, h₂⟩
  · rw [hd₁, Script.stop_call_error hstage]
    exact .inl (h₁.abandon _ k)
  have hd₂ : d' = _ := hd₁.trans (Script.stop_call hstage k)
  rcases k with _ | k
  · rw [hd₂]; exact .inl h₂.bears
  have hfill : (Call.fill p.staged bytes).perform ⟨.folder es₂, files, d.pinned⟩ = _ :=
    fillFile_file (find_folder_eq_ok.mp h₂.staged) bytes
  have h₃ : Prepared p ⟨.folder es₂, files.set n bytes, d.pinned⟩ n (contents p d) bytes := h₂.fill
  have hd₃ : d' = _ := (hd₂.trans (Script.stop_call hfill k)).trans (Script.stop_look _ _ _ k)
  rw [has_folder] at hd₃
  rcases h₃.bears.writable.file_or_none List.mem_cons_self with hnone | ⟨m, hm, -⟩
  · rw [hnone] at hd₃
    rw [hd₃]
    rcases k with _ | k
    · exact .inl h₃.bears
    · exact .inr (.inl (stop_install h₃ false k))
  · rw [hm] at hd₃
    rcases stop_replace hd₃ (fun _ => ⟨_, rfl⟩) rfl h₃ hm with hold | hnew | ⟨rfl, hbetween⟩
    · exact .inl hold
    · exact .inr (.inl hnew)
    · exact .inr (.inr ⟨rfl, hbetween⟩)

end Folder

/-- A compaction to entries that tell what the log tells may stop after any of its calls, and what
the log told can be read again. Just after the call that moves the old log aside there is no log,
but the old one and the new one can both be read in full under their other names. -/
theorem stopped_compaction_recovers {p : Place} {d : Disk} (h : Writable p d)
    (hapart : ∀ n, d.find p.staged = .ok (.file n) → d.find p.name ≠ .ok (.file n))
    {es : List Entry} (hes : ∀ e ∈ es, e.OneLine)
    (hsame : (Surviving.ofEntries es).Agrees (.ofEntries (entriesOfBytes (contents p d))))
    (k : Nat) :
    let d' := (compactionScript p (logBytes es)).stop d k
    let told := Surviving.ofEntries (entriesOfBytes (contents p d))
    Recovers p d' told ∨ k = 4 ∧ d'.find p.name = .error .notFound ∧
      Recovers { p with name := p.aside } d' told ∧
      Recovers { p with name := p.staged } d' told := by
  intro d' told
  have hold : (Surviving.ofEntries (entriesOfBytes (contents p d))).Agrees told := .refl told
  have hnew : (Surviving.ofEntries (entriesOfBytes (logBytes es))).Agrees told :=
    agrees_logBytes hes hsame
  rcases stop_compactionScript h hapart (logBytes es) k with hd | hd | ⟨hk, hd⟩
  · exact .inl (hd.recovers hold)
  · exact .inl (hd.recovers hnew)
  · exact .inr ⟨hk, hd.free, hd.aside.recovers hold, hd.staged.recovers hnew⟩

/-- The new log is staged in full, over an old one of three lines. -/
theorem staged_compaction_recovers :
    let p : Place := ⟨"state", "saved_state"⟩
    let log := logBytes [.addClient "/c", .addClient "/d", .removeClient "/d"]
    Recovers p ((compactionScript p (logBytes [.addClient "/c"])).stop (diskOf p log) 3)
      ⟨["/c"], []⟩ := by
  intro p log
  have htold : Surviving.ofEntries (entriesOfBytes (contents p (diskOf p log))) =
      ⟨["/c"], []⟩ := by decide +kernel
  have hsame : (Surviving.ofEntries [.addClient "/c"]).Agrees
      (.ofEntries (entriesOfBytes (contents p (diskOf p log)))) := by
    rw [htold]
    exact .refl _
  have hline : ∀ e ∈ [Entry.addClient "/c"], e.OneLine :=
    List.forall_mem_singleton.mpr (List.forall_mem_singleton.mpr (by decide))
  have hapart : ∀ n, (diskOf p log).find p.staged = .ok (.file n) →
      (diskOf p log).find p.name ≠ .ok (.file n) := by
    have hnone : (diskOf p log).find p.staged = .error .notFound := by decide +kernel
    rw [hnone]
    exact nofun
  have h := stopped_compaction_recovers (clear_diskOf _ _ _) hapart hline hsame 3
  rw [htold] at h
  exact h.resolve_right fun hbetween => absurd hbetween.1 (by decide)

/-- Between the two renamings nothing is read. Nor is the same read when the name for staging is a
second name of the log, which is then emptied, or when a line feed in the name of a database breaks
the line of an entry. -/
theorem stopped_compaction_not_recovered :
    let p : Place := ⟨"state", "saved_state"⟩
    let told (bytes : Bytes) := Surviving.ofEntries (entriesOfBytes bytes)
    let log := logBytes [.addClient "/c"]
    let twice : Disk :=
      ⟨.folder ((Table.empty.insert p.name (.file 0)).insert p.staged (.file 0)), [log], false⟩
    let r : Record := ⟨1, "x\nCLIENTADD ", "/a", "/c"⟩
    ((Surviving.ofEntries [.addClient "/c"]).Agrees (told log) ∧
      ¬ Recovers p ((compactionScript p log).stop (diskOf p log) 4) (told log) ∧
      ¬ Recovers p ((compactionScript p log).stop twice 2) (told log)) ∧
    (Surviving.ofEntries [.addListener r, .removeListener r]).Agrees (told []) ∧
      ¬ Recovers p ((⟨p, none⟩ : Store).compact .empty [.addListener r, .removeListener r]).2.2
        (told []) := by
  intro p told log twice r
  have htold : told log = ⟨["/c"], []⟩ := by decide +kernel
  have haside : ((⟨p, none⟩ : Store).read ((compactionScript p log).stop (diskOf p log) 4)).1 =
      .ok ⟨[], []⟩ := by decide +kernel
  have hemptied : ((⟨p, none⟩ : Store).read ((compactionScript p log).stop twice 2)).1 =
      .ok ⟨[], []⟩ := by decide +kernel
  have hlost : ¬ (⟨[], []⟩ : Surviving).Agrees (told log) := by
    rw [htold]
    exact fun hagrees => List.not_mem_nil ((hagrees.clients "/c").mpr List.mem_cons_self)
  have hcancelled : Surviving.ofEntries [.addListener r, .removeListener r] = told [] := by
    decide +kernel
  have hbroken : ((⟨p, none⟩ : Store).read ((⟨p, none⟩ : Store).compact .empty
      [.addListener r, .removeListener r]).2.2).1 = .ok ⟨[" "], []⟩ := by decide +kernel
  refine ⟨⟨?_, ?_, ?_⟩, ?_, ?_⟩
  · rw [htold]
    exact .refl _
  · rwa [recovers_iff haside]
  · rwa [recovers_iff hemptied]
  · rw [hcancelled]
    exact .refl _
  · rw [recovers_iff hbroken]
    exact fun hagrees => List.not_mem_nil ((hagrees.clients " ").mp List.mem_cons_self)

end ConfigDaemon.Log
