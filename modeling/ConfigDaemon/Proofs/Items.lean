import ConfigDaemon.Proofs.Disk

/-! # What stands under a name

Under a name of a folder stands nothing, a file with its contents, or a folder with the contents of
all files in it. A call on the folder is described by what it makes of its own names; under every
other name stands what stood there.
-/

namespace ConfigDaemon

def Node.file? : Node → Option Nat
  | .file n => some n
  | .folder => none

def Entry.files : Entry → List Nat
  | .file n => [n]
  | .folder inside => inside.filterMap (·.2.file?)

/-- What can be seen of an entry. -/
inductive Item
  | file (bytes : Bytes)
  | folder (inside : List (List String × Option Bytes))
  deriving DecidableEq, Repr

namespace Disk

variable {d d' : Disk} {name old new : String} {e : Entry}

def itemOf (d : Disk) : Entry → Item
  | .file n => .file (d.contents n)
  | .folder inside => .folder (inside.map fun (way, node) => (way, node.file?.map d.contents))

def item? (d : Disk) (name : String) : Option Item :=
  (d.find name).toOption.map d.itemOf

def Stored (d : Disk) : Prop :=
  ∀ name e, d.find name = .ok e → ∀ n ∈ e.files, n < d.files.length

theorem item?_of_find (h : d.find name = .ok e) : d.item? name = some (d.itemOf e) := by
  simp [item?, h, Except.toOption]

theorem item?_of_find_error {f : Fault} (h : d.find name = .error f) : d.item? name = none := by
  simp [item?, h, Except.toOption]

theorem itemOf_congr (h : ∀ n ∈ e.files, d'.contents n = d.contents n) :
    d'.itemOf e = d.itemOf e := by
  cases e with
  | file n => simp [itemOf, h n List.mem_cons_self]
  | folder inside =>
    simp only [itemOf, Item.folder.injEq]
    apply List.map_congr_left
    rintro ⟨way, node⟩ hmem
    cases node with
    | file n => simp [Node.file?, h n (List.mem_filterMap.mpr ⟨_, hmem, rfl⟩)]
    | folder => rfl

theorem item?_congr (hfind : d'.find name = d.find name)
    (h : ∀ e, d.find name = .ok e → ∀ n ∈ e.files, d'.contents n = d.contents n) :
    d'.item? name = d.item? name := by
  cases he : d.find name with
  | error f => rw [item?_of_find_error he, item?_of_find_error (hfind.trans he)]
  | ok e => rw [item?_of_find he, item?_of_find (hfind.trans he), itemOf_congr (h e he)]

def HasFolder (d : Disk) (name : String) : Prop :=
  ∃ inside, d.item? name = some (.folder inside)

theorem hasFolder_iff : d.HasFolder name ↔ ∃ inside, d.find name = .ok (.folder inside) := by
  constructor
  · rintro ⟨inside, h⟩
    cases he : d.find name with
    | error f => simp [item?_of_find_error he] at h
    | ok e =>
      cases e with
      | file n => simp [item?_of_find he, itemOf] at h
      | folder inside => exact ⟨inside, rfl⟩
  · rintro ⟨inside, h⟩
    exact ⟨_, item?_of_find h⟩

theorem find_of_item?_eq_file {bytes : Bytes} (h : d.item? name = some (.file bytes)) :
    ∃ n, d.find name = .ok (.file n) ∧ d.contents n = bytes := by
  cases he : d.find name with
  | error f => simp [item?_of_find_error he] at h
  | ok e =>
    cases e with
    | file n => exact ⟨n, rfl, by simpa [item?_of_find he, itemOf] using h⟩
    | folder inside => simp [item?_of_find he, itemOf] at h

theorem find_of_item?_eq_none (h : d.item? name = none) : ∃ f, d.find name = .error f := by
  cases he : d.find name with
  | error f => exact ⟨f, rfl⟩
  | ok e => simp [item?_of_find he] at h

/-- An entry that goes by another name, or by the same one, while all files keep their contents. -/
theorem item?_moved (hfiles : d'.files = d.files) (hfind : d'.find new = d.find old) :
    d'.item? new = d.item? old := by
  have hitem : d'.itemOf = d.itemOf :=
    funext fun e => itemOf_congr fun n _ => by rw [contents, contents, hfiles]
  rw [item?, item?, hfind, hitem]

theorem Stored.congr (h : d.Stored) (hlength : d.files.length ≤ d'.files.length)
    (hfind : ∀ name e, d'.find name = .ok e → ∃ other, d.find other = .ok e) : d'.Stored := by
  intro name e he n hn
  obtain ⟨other, hother⟩ := hfind name e he
  exact Nat.lt_of_lt_of_le (h other e hother n hn) hlength

theorem stored_folder {es : Table String Entry} {files : List Bytes} {pinned : Bool}
    (h : ∀ row ∈ es.rows, ∀ n ∈ row.2.files, n < files.length) :
    Stored ⟨.folder es, files, pinned⟩ :=
  fun name e he => h (name, e) (Table.mem_rows.mpr (find_folder_eq_ok.mp he))

theorem Stored.lt (h : d.Stored) {n : Nat} (hn : d.find name = .ok (.file n)) :
    n < d.files.length :=
  h name _ hn n List.mem_cons_self

/-! ## Calls -/

theorem exists_makeFolder_eq (h : d.makeFolder = .ok d') : ∃ es, d'.site = .folder es := by
  obtain ⟨site, files, pinned⟩ := d
  cases site <;> cases h <;> exact ⟨_, rfl⟩

theorem makeFolder_of_find (h : d.find name = .ok e) : d.makeFolder = .ok d := by
  obtain ⟨es, files, pinned, rfl, -⟩ := exists_of_find_ok h
  rfl

theorem openFile_of_folder {inside : Nodes} (h : d.find name = .ok (.folder inside)) :
    d.openFile name = .error .isFolder := by
  obtain ⟨es, files, pinned, rfl, he⟩ := exists_of_find_ok h
  simp only [openFile, entries, he]

theorem exists_openFile_ok {es : Table String Entry} (hsite : d.site = .folder es)
    (h : ∀ inside, d.find name ≠ .ok (.folder inside)) : ∃ n d', d.openFile name = .ok (n, d') := by
  obtain ⟨site, files, pinned⟩ := d
  cases hsite
  rcases he : es.find? name with _ | ⟨n⟩ | ⟨inside⟩
  · exact ⟨_, _, by simp only [openFile, entries, he]; rfl⟩
  · exact ⟨_, _, by simp only [openFile, entries, he]; rfl⟩
  · exact absurd (find_folder_eq_ok.mpr he) (h inside)

theorem contents_fill_self {n : Nat} (hn : n < d.files.length) (bytes : Bytes) :
    (d.fill n bytes).contents n = bytes := by
  simp [contents, fill, hn]

theorem contents_fill_of_ne {n m : Nat} (h : m ≠ n) (bytes : Bytes) :
    (d.fill n bytes).contents m = d.contents m := by
  simp [contents, fill, List.getD_eq_getElem?_getD, List.getElem?_set_ne h.symm]

theorem find_rename (h : d.rename old new = .ok d') (name : String) :
    d'.find name =
      if name = new then d.find old else if name = old then .error .notFound else d.find name := by
  obtain ⟨es, files, pinned, e, rfl, he, rfl⟩ := exists_of_rename_ok h
  by_cases hnew : name = new
  · simp [find_folder, hnew, he]
  · by_cases hold : name = old
    · subst hold
      simp [find_folder, Table.find?_insert, Table.find?_erase, hnew]
    · simp [find_folder, Table.find?_insert, Table.find?_erase, hnew, hold]

theorem files_rename (h : d.rename old new = .ok d') : d'.files = d.files := by
  obtain ⟨es, files, pinned, e, rfl, he, rfl⟩ := exists_of_rename_ok h
  rfl

theorem rename_of_find (h : d.find old = .ok e) (new : String) :
    match (d.find new).toOption.bind (replaceFault e) with
    | some f => d.rename old new = .error f
    | none => ∃ d', d.rename old new = .ok d' := by
  obtain ⟨es, files, pinned, rfl, he⟩ := exists_of_find_ok h
  have hnew : ((⟨.folder es, files, pinned⟩ : Disk).find new).toOption = es.find? new := by
    rw [find_folder]
    cases es.find? new <;> rfl
  simp only [hnew, rename, entries, he]
  split <;> rename_i hf <;> simp [hf]

theorem find_unlink (h : d.unlink old = .ok d') (name : String) :
    d'.find name = if name = old then .error .notFound else d.find name := by
  obtain ⟨es, files, pinned, rfl, rfl⟩ := exists_of_unlink_ok h
  by_cases hold : name = old <;> simp [find_folder, Table.find?_erase, hold]

theorem files_unlink (h : d.unlink old = .ok d') : d'.files = d.files := by
  obtain ⟨es, files, pinned, rfl, rfl⟩ := exists_of_unlink_ok h
  rfl

theorem find_of_unlink_ok (h : d.unlink old = .ok d') : ∃ n, d.find old = .ok (.file n) := by
  simp only [unlink] at h
  split at h
  · cases h
  · rename_i es hes
    split at h
    · cases h
    · cases h
    · rename_i n hn
      exact ⟨n, by simp only [find, hes, hn]⟩

theorem unlink_of_find (h : d.find old = .ok e) :
    match e with
    | .file _ => ∃ d', d.unlink old = .ok d'
    | .folder _ => d.unlink old = .error .isFolder := by
  obtain ⟨es, files, pinned, rfl, he⟩ := exists_of_find_ok h
  cases e with
  | file n => exact ⟨_, unlink_file he⟩
  | folder inside => simp only [unlink, entries, he]

end Disk

end ConfigDaemon
