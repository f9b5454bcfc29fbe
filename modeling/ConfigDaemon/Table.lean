/-! # Tables in key order

A table maps keys of a linear order to values and lists its rows in ascending key order, so two
tables with the same rows are equal. The view of a table is its look-up `find?`; each operation
has one lemma about it.
-/

set_option linter.unusedSectionVars false

namespace ConfigDaemon

/-- Rows in strictly ascending key order. -/
structure Table (κ α : Type) [LT κ] where
  rows : List (κ × α)
  ascending : rows.Pairwise fun a b => a.1 < b.1
  deriving DecidableEq

namespace Table

variable {κ α β : Type} [LT κ] [LE κ] [DecidableLT κ] [DecidableEq κ]
  [Std.IsLinearOrder κ] [Std.LawfulOrderLT κ]

def empty : Table κ α := ⟨[], .nil⟩

instance : Inhabited (Table κ α) := ⟨empty⟩

instance : EmptyCollection (Table κ α) := ⟨empty⟩

/-- Puts one row in its place, over the row of the same key. -/
def insertRow (k : κ) (v : α) : List (κ × α) → List (κ × α)
  | [] => [(k, v)]
  | (l, w) :: rest =>
    if k < l then (k, v) :: (l, w) :: rest
    else if k = l then (k, v) :: rest
    else (l, w) :: insertRow k v rest

def findRow (k : κ) : List (κ × α) → Option α
  | [] => none
  | (l, w) :: rest => if k = l then some w else findRow k rest

theorem mem_insertRow {k : κ} {v : α} {rows : List (κ × α)} {r : κ × α}
    (h : r ∈ insertRow k v rows) : r = (k, v) ∨ r ∈ rows := by
  induction rows with
  | nil => simpa [insertRow] using h
  | cons row rest ih =>
    obtain ⟨l, w⟩ := row
    unfold insertRow at h
    split at h
    · simpa using h
    · split at h
      · rcases List.mem_cons.mp h with h | h
        · exact .inl h
        · exact .inr (List.mem_cons_of_mem _ h)
      · rcases List.mem_cons.mp h with h | h
        · exact .inr (h ▸ List.mem_cons_self)
        · exact (ih h).imp id (List.mem_cons_of_mem _)

theorem insertRow_ascending {k : κ} {v : α} {rows : List (κ × α)}
    (h : rows.Pairwise fun a b => a.1 < b.1) :
    (insertRow k v rows).Pairwise fun a b => a.1 < b.1 := by
  induction rows with
  | nil => simp [insertRow]
  | cons row rest ih =>
    obtain ⟨l, w⟩ := row
    obtain ⟨hl, hr⟩ := List.pairwise_cons.mp h
    unfold insertRow
    split
    · refine List.pairwise_cons.mpr ⟨fun r hr' => ?_, h⟩
      rcases List.mem_cons.mp hr' with rfl | hr'
      · assumption
      · have := hl r hr'
        grind
    · split
      · subst l
        exact List.pairwise_cons.mpr ⟨hl, hr⟩
      · refine List.pairwise_cons.mpr ⟨fun r hr' => ?_, ih hr⟩
        rcases mem_insertRow hr' with rfl | hr'
        · grind
        · exact hl r hr'

def insert (t : Table κ α) (k : κ) (v : α) : Table κ α :=
  ⟨insertRow k v t.rows, insertRow_ascending t.ascending⟩

def find? (t : Table κ α) (k : κ) : Option α :=
  findRow k t.rows

def contains (t : Table κ α) (k : κ) : Bool :=
  (t.find? k).isSome

/-- The rows that pass a test. -/
def filter (t : Table κ α) (keep : κ → α → Bool) : Table κ α :=
  ⟨t.rows.filter fun (k, v) => keep k v, t.ascending.filter _⟩

def erase (t : Table κ α) (k : κ) : Table κ α :=
  t.filter fun l _ => l ≠ k

/-- The same keys with new values. -/
def mapValues (t : Table κ α) (f : κ → α → β) : Table κ β :=
  ⟨t.rows.map fun (k, v) => (k, f k v), List.pairwise_map.mpr t.ascending⟩

def keys (t : Table κ α) : List κ :=
  t.rows.map (·.1)

def values (t : Table κ α) : List α :=
  t.rows.map (·.2)

def size (t : Table κ α) : Nat :=
  t.rows.length

def isEmpty (t : Table κ α) : Bool :=
  t.rows.isEmpty

def ofList (rows : List (κ × α)) : Table κ α :=
  rows.foldl (fun t (k, v) => t.insert k v) empty

section Lemmas

theorem ext_rows {t u : Table κ α} (h : t.rows = u.rows) : t = u := by
  cases t; cases u; cases h; rfl

theorem findRow_insertRow (k l : κ) (v : α) (rows : List (κ × α)) :
    findRow l (insertRow k v rows) = if l = k then some v else findRow l rows := by
  induction rows with
  | nil => simp [insertRow, findRow]
  | cons row rest ih =>
    obtain ⟨m, w⟩ := row
    unfold insertRow
    split
    · simp [findRow]
    · split <;> grind [findRow]

theorem find?_insert (t : Table κ α) (k l : κ) (v : α) :
    (t.insert k v).find? l = if l = k then some v else t.find? l :=
  findRow_insertRow k l v t.rows

@[simp] theorem find?_insert_self (t : Table κ α) (k : κ) (v : α) :
    (t.insert k v).find? k = some v := by
  simp [find?_insert]

theorem findRow_filter_ne (k l : κ) (rows : List (κ × α)) :
    findRow l (rows.filter fun r => r.1 ≠ k) = if l = k then none else findRow l rows := by
  induction rows with
  | nil => simp [findRow]
  | cons row rest ih => grind [findRow]

theorem find?_erase (t : Table κ α) (k l : κ) :
    (t.erase k).find? l = if l = k then none else t.find? l :=
  findRow_filter_ne k l t.rows

@[simp] theorem find?_empty (k : κ) : (empty : Table κ α).find? k = none := rfl

end Lemmas

end Table

end ConfigDaemon
