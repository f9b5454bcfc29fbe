import ConfigDaemon.Proofs.Disk
import ConfigDaemon.Proofs.Log.Text

/-! # The log on a disk

On a disk that lets the log be written an entry is added to its bytes, and the log can be written
again. Reading a log that can be written gives what survives of its bytes.
-/

namespace ConfigDaemon.Log

open Disk (find_folder find_folder_eq_ok getD_append read_file)

/-- None of the names is that of a folder, and every file that has a name is stored. -/
structure Clear.In (names : List String) (es : Table String ConfigDaemon.Entry) (stored : Nat) :
    Prop where
  free : ∀ name ∈ names, ∀ inside, es.find? name ≠ some (.folder inside)
  stored : ∀ name n, es.find? name = some (.file n) → n < stored

/-- The way to the folder is not blocked, and the names can be used for files there. -/
def Clear (names : List String) (d : Disk) : Prop :=
  match d.site with
  | .missing => True
  | .blocked _ _ => False
  | .folder es => Clear.In names es d.files.length

def Writable (p : Place) : Disk → Prop :=
  Clear [p.name]

def Usable (p : Place) : Disk → Prop :=
  Clear [p.name, p.staged, p.aside]

def contents (p : Place) (d : Disk) : Bytes :=
  (d.read p.name).toOption.getD []

def Store.Attached (s : Store) (d : Disk) : Prop :=
  ∀ n ∈ s.handle, d.find s.place.name = .ok (.file n)

section Clear

variable {names : List String} {es : Table String ConfigDaemon.Entry} {stored : Nat}

namespace Clear.In

theorem empty (names : List String) (stored : Nat) : In names .empty stored := by
  constructor
  · rintro name - inside ⟨⟩
  · rintro name n ⟨⟩

theorem mono (h : In names es stored) {more : Nat} (hm : stored ≤ more) : In names es more :=
  ⟨h.free, fun name n hn => (h.stored name n hn).trans_le hm⟩

theorem insert (h : In names es stored) (name : String) {n : Nat} (hn : n < stored) :
    In names (es.insert name (.file n)) stored := by
  constructor
  · intro name' hname inside
    rw [Table.find?_insert]
    split
    · intro he; cases he
    · exact h.free name' hname inside
  · intro name' m hm
    rw [Table.find?_insert] at hm
    split at hm
    · cases hm; exact hn
    · exact h.stored name' m hm

theorem erase (h : In names es stored) (name : String) : In names (es.erase name) stored := by
  constructor
  · intro name' hname inside
    rw [Table.find?_erase]
    split
    · exact (Option.some_ne_none _).symm
    · exact h.free name' hname inside
  · intro name' m hm
    rw [Table.find?_erase] at hm
    split at hm
    · cases hm
    · exact h.stored name' m hm

theorem file_or_none (h : In names es stored) {name : String} (hname : name ∈ names) :
    es.find? name = none ∨ ∃ n, es.find? name = some (.file n) ∧ n < stored := by
  rcases he : es.find? name with _ | ⟨n⟩ | ⟨inside⟩
  · exact .inl rfl
  · exact .inr ⟨n, rfl, h.stored name n he⟩
  · exact absurd he (h.free name hname inside)

end Clear.In

theorem Usable.writable {p : Place} {d : Disk} (h : Usable p d) : Writable p d := by
  obtain ⟨site, files, pinned⟩ := d
  cases site with
  | missing => trivial
  | blocked look make => exact h.elim
  | folder es =>
    refine ⟨?_, h.stored⟩
    rw [List.forall_mem_singleton]
    exact h.free p.name List.mem_cons_self

end Clear

section Folder

variable {p : Place} {names : List String} {es : Table String ConfigDaemon.Entry}
  {files : List Bytes} {pinned : Bool}

theorem contents_of_file {n : Nat} (h : es.find? p.name = some (.file n)) :
    contents p ⟨.folder es, files, pinned⟩ = files.getD n [] := by
  rw [contents, read_file h]
  rfl

theorem contents_of_none (h : es.find? p.name = none) :
    contents p ⟨.folder es, files, pinned⟩ = [] := by
  rw [contents, Disk.read, find_folder, h]
  rfl

theorem contents_congr {es' : Table String ConfigDaemon.Entry}
    (h : es'.find? p.name = es.find? p.name) :
    contents p ⟨.folder es', files, pinned⟩ = contents p ⟨.folder es, files, pinned⟩ := by
  rw [contents, contents, Disk.read, Disk.read, find_folder, find_folder, h]
  rfl

def diskOf (p : Place) (bytes : Bytes) : Disk :=
  ⟨.folder (Table.empty.insert p.name (.file 0)), [bytes], false⟩

theorem clear_diskOf (names : List String) (p : Place) (bytes : Bytes) :
    Clear names (diskOf p bytes) :=
  (Clear.In.empty names 1).insert p.name Nat.one_pos

theorem read_diskOf (p : Place) (bytes : Bytes) : (diskOf p bytes).read p.name = .ok bytes :=
  read_file (Table.find?_insert_self _ _ _)

theorem exists_makeFolder {d : Disk} (h : Clear names d) :
    ∃ es, d.makeFolder = .ok ⟨.folder es, d.files, d.pinned⟩ ∧
      (∀ names, Clear names d → Clear.In names es d.files.length) ∧
      ∀ p, contents p ⟨.folder es, d.files, d.pinned⟩ = contents p d := by
  obtain ⟨site, files, pinned⟩ := d
  cases site with
  | missing => exact ⟨.empty, rfl, fun names _ => .empty names _, fun _ => rfl⟩
  | blocked look make => exact h.elim
  | folder es => exact ⟨es, rfl, fun _ h => h, fun _ => rfl⟩

theorem exists_openFile (pinned : Bool) (h : Clear.In names es files.length) {name : String}
    (hname : name ∈ names) :
    ∃ n es' files', (⟨.folder es, files, pinned⟩ : Disk).openFile name =
        .ok (n, ⟨.folder es', files', pinned⟩) ∧
      es'.find? name = some (.file n) ∧ n < files'.length ∧
      (∀ names, Clear.In names es files.length → Clear.In names es' files'.length) ∧
      (∀ p, contents p ⟨.folder es', files', pinned⟩ = contents p ⟨.folder es, files, pinned⟩) ∧
      (es.find? name = some (.file n) ∨ n = files.length) ∧
      ∀ other, other ≠ name → es'.find? other = es.find? other := by
  rcases h.file_or_none hname with hn | ⟨n, hn, hlt⟩
  · have hothers : ∀ other, other ≠ name →
        (es.insert name (.file files.length)).find? other = es.find? other := fun other hne => by
      rw [Table.find?_insert, if_neg hne]
    refine ⟨files.length, es.insert name (.file files.length), files ++ [[]], ?_,
      Table.find?_insert_self _ _ _, by simp, fun names h => ?_, fun p => ?_, .inr rfl, hothers⟩
    · simp only [Disk.openFile, Disk.entries, hn]
      rfl
    · have hgrown : Clear.In names es (files ++ [[]]).length := h.mono (by simp)
      exact hgrown.insert name (by simp)
    · by_cases hlog : p.name = name
      · subst hlog
        rw [contents_of_file (Table.find?_insert_self _ _ _), contents_of_none hn]
        simp
      · rw [contents_congr (hothers p.name hlog)]
        rcases hp : es.find? p.name with _ | ⟨m⟩ | ⟨inside⟩
        · rw [contents_of_none hp, contents_of_none hp]
        · rw [contents_of_file hp, contents_of_file hp, getD_append (h.stored _ _ hp)]
        · rw [contents, contents, Disk.read, Disk.read, find_folder, find_folder, hp]
  · exact ⟨n, es, files, by simp only [Disk.openFile, Disk.entries, hn], hn, hlt,
      fun _ h => h, fun _ => rfl, .inl hn, fun _ _ => rfl⟩

end Folder

namespace Store

/-- The log has come to hold `bytes`, on a disk with no more folders in the way than before. -/
structure Becomes (s : Store) (d : Disk) (s' : Store) (d' : Disk) (bytes : Bytes) : Prop where
  place : s'.place = s.place
  clear : ∀ names, Clear names d → Clear names d'
  attached : s'.Attached d'
  contents : Log.contents s.place d' = bytes

/-! ## Appending -/

theorem becomes_append {s : Store} {es : Table String ConfigDaemon.Entry} {files : List Bytes}
    (pinned : Bool) {n : Nat} (hn : es.find? s.place.name = some (.file n))
    (hlt : n < files.length) (bytes : Bytes) :
    Becomes s ⟨.folder es, files, pinned⟩ { s with handle := some n }
      (Disk.append ⟨.folder es, files, pinned⟩ n bytes)
      (Log.contents s.place ⟨.folder es, files, pinned⟩ ++ bytes) where
  place := rfl
  clear := by
    intro names h
    change Clear.In names es (files.set n _).length
    rwa [List.length_set]
  attached := by
    rintro _ ⟨⟩
    exact find_folder_eq_ok.mpr hn
  contents := by
    rw [contents_of_file hn, Disk.append, Disk.fill, contents_of_file hn]
    simp [List.getD_eq_getElem?_getD, hlt, Disk.contents]

/-- An entry can be added to the log, and its bytes follow those that were there. -/
theorem append_spec {s : Store} {d : Disk} (h : Writable s.place d) (ha : s.Attached d)
    (e : Entry) :
    ∃ s' d', s.append d e = (.ok (), s', d') ∧
      Becomes s d s' d' (Log.contents s.place d ++ entryBytes e) := by
  obtain ⟨p, handle⟩ := s
  cases handle with
  | some n =>
    have hfind := ha n rfl
    refine ⟨_, _, rfl, ?_⟩
    obtain ⟨site, files, pinned⟩ := d
    cases site with
    | missing => cases hfind
    | blocked look make => exact h.elim
    | folder es =>
      have hn := find_folder_eq_ok.mp hfind
      exact becomes_append (s := ⟨p, some n⟩) _ hn (h.stored _ _ hn) _
  | none =>
    obtain ⟨es, hmake, hclear, hsame⟩ := exists_makeFolder h
    obtain ⟨n, es', files', hopen, hn, hlt, hkeep, hsame', -⟩ :=
      exists_openFile d.pinned (hclear _ h) (List.mem_cons_self : p.name ∈ _)
    have hb := becomes_append (s := ⟨p, none⟩) d.pinned hn hlt (entryBytes e)
    refine ⟨⟨p, some n⟩, Disk.append ⟨.folder es', files', d.pinned⟩ n (entryBytes e), ?_,
      rfl, fun names h => hb.clear names (hkeep names (hclear names h)), hb.attached, ?_⟩
    · simp only [append, openHandle, hmake, hopen]
    · rw [hb.contents, hsame', hsame]

theorem place_append (s : Store) (d : Disk) (e : Entry) : (s.append d e).2.1.place = s.place := by
  unfold append
  split <;> rfl

/-- What becomes of a store and its disk while it is given some entries to append, whether it can
or not. The handle may be closed in between. -/
inductive Writes (s : Store) (d : Disk) : List Entry → Store → Disk → Prop
  | refl : Writes s d [] s d
  | close {es : List Entry} {s' : Store} {d' : Disk} (h : Writes s d es s' d') :
      Writes s d es s'.close d'
  | append {es : List Entry} {s' : Store} {d' : Disk} (h : Writes s d es s' d') (e : Entry) :
      Writes s d (es ++ [e]) (s'.append d' e).2.1 (s'.append d' e).2.2

namespace Writes

variable {s s' s'' : Store} {d d' d'' : Disk} {es fs : List Entry}

theorem trans (h : Writes s d es s' d') (h' : Writes s' d' fs s'' d'') :
    Writes s d (es ++ fs) s'' d'' := by
  induction h' with
  | refl => rwa [List.append_nil]
  | close _ ih => exact ih.close
  | append _ e ih =>
    rw [← List.append_assoc]
    exact ih.append e

theorem place (h : Writes s d es s' d') : s'.place = s.place := by
  induction h with
  | refl => rfl
  | close _ ih => exact ih
  | append _ e ih => exact (place_append _ _ e).trans ih

theorem disk_eq (h : Writes s d [] s' d') : d' = d := by
  generalize hes : [] = es at h
  induction h with
  | refl => rfl
  | close _ ih => exact ih hes
  | append _ e _ => exact absurd hes.symm (List.append_ne_nil_of_right_ne_nil _ (by simp))

theorem becomes (h : Writes s d es s' d') (hw : Writable s.place d) (ha : s.Attached d) :
    Becomes s d s' d' (Log.contents s.place d ++ logBytes es) := by
  induction h with
  | refl => exact ⟨rfl, fun _ h => h, ha, (List.append_nil _).symm⟩
  | close _ ih => exact ⟨ih.place, ih.clear, nofun, ih.contents⟩
  | @append es s₁ d₁ _ e ih =>
    obtain ⟨s₂, d₂, happend, hb⟩ :=
      append_spec (s := s₁) (ih.place ▸ ih.clear _ hw) ih.attached e
    rw [happend]
    refine ⟨hb.place.trans ih.place, fun names h => hb.clear names (ih.clear names h),
      hb.attached, ?_⟩
    have hcontents := hb.contents
    rw [ih.place] at hcontents
    rw [hcontents, ih.contents, logBytes_append, logBytes_cons, List.append_assoc]
    exact congrArg _ (congrArg _ (List.append_nil _).symm)

end Writes

/-! ## Reading -/

theorem read_spec {s : Store} {d : Disk} (h : Writable s.place d) :
    s.read d = (.ok (.ofEntries (entriesOfBytes (Log.contents s.place d))), s.close) := by
  obtain ⟨site, files, pinned⟩ := d
  cases site with
  | missing => rfl
  | blocked look make => exact h.elim
  | folder es =>
    rcases h.file_or_none (List.mem_cons_self : s.place.name ∈ _) with hn | ⟨n, hn, -⟩
    · rw [contents_of_none hn, read, Disk.read, find_folder, hn]
      rfl
    · rw [contents_of_file hn, read, Disk.read, find_folder, hn]
      rfl

end Store

end ConfigDaemon.Log
