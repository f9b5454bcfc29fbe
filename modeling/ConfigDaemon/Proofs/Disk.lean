import ConfigDaemon.Disk
import ConfigDaemon.Proofs.Table

/-! # Calls on a folder

What each call on a disk does when its folder is there and the names in question lead to files, or
are free.
-/

namespace ConfigDaemon.Disk

variable {es : Table String Entry} {files : List Bytes} {pinned : Bool} {name old new : String}
  {n : Nat}

theorem find_folder (name : String) :
    (⟨.folder es, files, pinned⟩ : Disk).find name =
      match es.find? name with
      | none => .error .notFound
      | some e => .ok e := rfl

theorem find_folder_eq_ok {e : Entry} :
    (⟨.folder es, files, pinned⟩ : Disk).find name = .ok e ↔ es.find? name = some e := by
  rw [find_folder]
  cases es.find? name <;> simp

theorem exists_of_find_ok {d : Disk} {e : Entry} (h : d.find name = .ok e) :
    ∃ es files pinned, d = ⟨.folder es, files, pinned⟩ ∧ es.find? name = some e := by
  obtain ⟨site, files, pinned⟩ := d
  cases site with
  | missing => cases h
  | blocked look make => cases h
  | folder es => exact ⟨es, files, pinned, rfl, find_folder_eq_ok.mp h⟩

theorem find_of_makeFolder {d d' : Disk} (h : d.makeFolder = .ok d') (name : String) :
    d'.find name = d.find name := by
  obtain ⟨site, files, pinned⟩ := d
  cases site <;> cases h <;> rfl

theorem files_of_makeFolder {d d' : Disk} (h : d.makeFolder = .ok d') : d'.files = d.files := by
  obtain ⟨site, files, pinned⟩ := d
  cases site <;> cases h <;> rfl

theorem exists_of_openFile_ok {d d' : Disk} (h : d.openFile name = .ok (n, d')) :
    ∃ es files pinned, d = ⟨.folder es, files, pinned⟩ ∧
      (es.find? name = some (.file n) ∧ d' = d ∨ n = files.length ∧
        d' = ⟨.folder (es.insert name (.file files.length)), files ++ [[]], pinned⟩) := by
  obtain ⟨site, files, pinned⟩ := d
  cases site with
  | missing => cases h
  | blocked look make => cases h
  | folder es =>
    refine ⟨es, files, pinned, rfl, ?_⟩
    simp only [openFile, entries] at h
    split at h
    · cases h
      exact .inr ⟨rfl, rfl⟩
    · rename_i m hm
      cases h
      exact .inl ⟨hm, rfl⟩
    · cases h

theorem find_of_erase {e : Entry}
    (h : (⟨.folder (es.erase old), files, pinned⟩ : Disk).find name = .ok e) :
    (⟨.folder es, files, pinned⟩ : Disk).find name = .ok e := by
  rw [find_folder_eq_ok, Table.find?_erase] at h
  split at h
  · cases h
  · exact find_folder_eq_ok.mpr h

theorem has_folder (name : String) :
    (⟨.folder es, files, pinned⟩ : Disk).has name = (es.find? name).isSome := by
  rw [has, find_folder]
  cases es.find? name <;> rfl

theorem read_file (h : es.find? name = some (.file n)) :
    (⟨.folder es, files, pinned⟩ : Disk).read name = .ok (files.getD n []) := by
  rw [read, find_folder, h]
  rfl

/-- A name that means the same file is read the same while that file holds the same. -/
theorem read_congr {d d' : Disk} (hfind : d'.find name = d.find name)
    (hcontents : ∀ n, d.find name = .ok (.file n) → d'.contents n = d.contents n) :
    d'.read name = d.read name := by
  rw [read, read, hfind]
  split
  · rfl
  · rfl
  · rename_i n hn
    rw [hcontents n hn]

theorem getD_append (hn : n < files.length) (more : List Bytes) :
    (files ++ more).getD n [] = files.getD n [] := by
  rw [List.getD_eq_getElem?_getD, List.getElem?_append_left hn, ← List.getD_eq_getElem?_getD]

theorem listing_append (h : ∀ name n, es.find? name = some (.file n) → n < files.length)
    (more : List Bytes) :
    (⟨.folder es, files ++ more, pinned⟩ : Disk).listing =
      (⟨.folder es, files, pinned⟩ : Disk).listing := by
  have hread : ∀ name, (⟨.folder es, files ++ more, pinned⟩ : Disk).read name =
      (⟨.folder es, files, pinned⟩ : Disk).read name := by
    intro name
    rcases he : es.find? name with _ | ⟨n⟩ | ⟨inside⟩
    · rw [read, read, find_folder, find_folder, he]
    · rw [read_file he, read_file he, getD_append (h name n he)]
    · rw [read, read, find_folder, find_folder, he]
  simp only [listing, entries, hread]

theorem rename_file (ho : es.find? old = some (.file n))
    (hn : ∀ inside, es.find? new ≠ some (.folder inside)) :
    (⟨.folder es, files, pinned⟩ : Disk).rename old new =
      .ok ⟨.folder ((es.erase old).insert new (.file n)), files, pinned⟩ := by
  have hfault : (es.find? new).bind (replaceFault (.file n)) = none := by
    rcases he : es.find? new with _ | ⟨m⟩ | ⟨inside⟩
    · rfl
    · rfl
    · exact absurd he (hn inside)
  simp only [rename, entries, ho, hfault]
  rfl

theorem unlink_file (h : es.find? name = some (.file n)) :
    (⟨.folder es, files, pinned⟩ : Disk).unlink name =
      .ok ⟨.folder (es.erase name), files, pinned⟩ := by
  simp only [unlink, entries, h]
  rfl

theorem exists_of_unlink_ok {d d' : Disk} (h : d.unlink name = .ok d') :
    ∃ es files pinned, d = ⟨.folder es, files, pinned⟩ ∧
      d' = ⟨.folder (es.erase name), files, pinned⟩ := by
  obtain ⟨site, files, pinned⟩ := d
  cases site with
  | missing => cases h
  | blocked look make => cases h
  | folder es =>
    simp only [unlink, entries] at h
    split at h
    · cases h
    · cases h
    · exact ⟨es, files, pinned, rfl, (Except.ok.inj h).symm⟩

theorem exists_of_rename_ok {d d' : Disk} (h : d.rename old new = .ok d') :
    ∃ es files pinned e, d = ⟨.folder es, files, pinned⟩ ∧ es.find? old = some e ∧
      d' = ⟨.folder ((es.erase old).insert new e), files, pinned⟩ := by
  obtain ⟨site, files, pinned⟩ := d
  cases site with
  | missing => cases h
  | blocked look make => cases h
  | folder es =>
    simp only [rename, entries] at h
    split at h
    · cases h
    · rename_i e he
      split at h
      · cases h
      · exact ⟨es, files, pinned, e, rfl, he, (Except.ok.inj h).symm⟩

theorem link_file (ho : es.find? old = some (.file n)) (hn : es.find? new = none) :
    (⟨.folder es, files, pinned⟩ : Disk).link old new =
      .ok ⟨.folder (es.insert new (.file n)), files, pinned⟩ := by
  have hfree : es.contains new = false := by rw [Table.contains, hn]; rfl
  simp only [link, entries, ho, hfree]
  rfl

theorem link_of_taken {e e' : Entry} (ho : es.find? old = some e) (hn : es.find? new = some e') :
    (⟨.folder es, files, pinned⟩ : Disk).link old new = .error .exists := by
  have htaken : es.contains new = true := by rw [Table.contains, hn]; rfl
  simp only [link, entries, ho, htaken]
  rfl

theorem createFile_free (h : es.find? name = none) :
    (⟨.folder es, files, pinned⟩ : Disk).createFile name =
      .ok (files.length,
        ⟨.folder (es.insert name (.file files.length)), files ++ [[]], pinned⟩) := by
  have hfree : es.contains name = false := by rw [Table.contains, h]; rfl
  simp only [createFile, entries, hfree]
  rfl

theorem createFile_taken {e : Entry} (h : es.find? name = some e) :
    (⟨.folder es, files, pinned⟩ : Disk).createFile name = .error .exists := by
  have htaken : es.contains name = true := by rw [Table.contains, h]; rfl
  simp only [createFile, entries, htaken]
  rfl

theorem append_newest (bytes : Bytes) :
    (⟨.folder es, files ++ [[]], pinned⟩ : Disk).append files.length bytes =
      ⟨.folder es, files ++ [bytes], pinned⟩ := by
  simp [append, fill, contents]

theorem removeFolder_ok {d : Disk}
    (h : (⟨.folder es, files, pinned⟩ : Disk).removeFolder = .ok d) :
    d = ⟨.missing, files, pinned⟩ := by
  simp only [removeFolder, entries] at h
  split at h
  · cases h
  · split at h
    · exact (Except.ok.inj h).symm
    · cases h

end ConfigDaemon.Disk
