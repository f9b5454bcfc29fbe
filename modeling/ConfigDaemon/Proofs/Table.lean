import Mathlib.Data.List.Nodup
import Mathlib.Data.List.Perm.Basic
import ConfigDaemon.Table

/-! # Looking up rows

A table is known by its look-up: its rows, its keys and the tables that are made from it are
described by what they find.
-/

set_option linter.unusedSectionVars false

namespace ConfigDaemon.Table

variable {κ α β : Type} [LT κ] [LE κ] [DecidableLT κ] [DecidableEq κ]
  [Std.IsLinearOrder κ] [Std.LawfulOrderLT κ]

theorem findRow_eq_some_iff {k : κ} {v : α} {rows : List (κ × α)}
    (h : rows.Pairwise fun a b => a.1 < b.1) : findRow k rows = some v ↔ (k, v) ∈ rows := by
  induction rows with
  | nil => simp [findRow]
  | cons row rest ih =>
    obtain ⟨l, w⟩ := row
    obtain ⟨hl, hr⟩ := List.pairwise_cons.mp h
    rw [findRow, List.mem_cons]
    split
    · subst l
      constructor
      · rintro ⟨⟩; exact .inl rfl
      · rintro (he | hm)
        · cases he; rfl
        · exact absurd (hl _ hm) (Std.lt_irrefl)
    · rw [ih hr]
      constructor
      · exact .inr
      · rintro (he | hm)
        · cases he; contradiction
        · exact hm

theorem filter_rows {k : κ} {rows : List (κ × α)} (h : rows.Pairwise fun a b => a.1 < b.1) :
    rows.filter (·.1 = k) = ((findRow k rows).map (k, ·)).toList := by
  induction rows with
  | nil => rfl
  | cons row rest ih =>
    obtain ⟨l, w⟩ := row
    obtain ⟨hl, hr⟩ := List.pairwise_cons.mp h
    rw [findRow]
    split
    · rename_i hk
      subst hk
      have hnone : rest.filter (·.1 = k) = [] :=
        List.filter_eq_nil_iff.mpr fun r hr' he =>
          absurd (of_decide_eq_true he ▸ hl r hr') Std.lt_irrefl
      simp only [List.filter_cons, decide_true, if_true, hnone]
      rfl
    · rename_i hk
      rw [List.filter_cons_of_neg (fun he => hk (of_decide_eq_true he).symm), ih hr]

theorem mem_rows {t : Table κ α} {k : κ} {v : α} : (k, v) ∈ t.rows ↔ t.find? k = some v :=
  (findRow_eq_some_iff t.ascending).symm

theorem mem_keys {t : Table κ α} {k : κ} : k ∈ t.keys ↔ (t.find? k).isSome = true := by
  rw [Option.isSome_iff_exists, keys, List.mem_map]
  constructor
  · rintro ⟨⟨l, v⟩, h, rfl⟩; exact ⟨v, mem_rows.mp h⟩
  · rintro ⟨v, h⟩; exact ⟨(k, v), mem_rows.mpr h, rfl⟩

theorem contains_iff_mem_keys {t : Table κ α} {k : κ} : t.contains k = true ↔ k ∈ t.keys :=
  mem_keys.symm

theorem keys_ascending (t : Table κ α) : t.keys.Pairwise (· < ·) :=
  List.pairwise_map.mpr t.ascending

theorem nodup_keys (t : Table κ α) : t.keys.Nodup :=
  t.keys_ascending.imp fun h he => absurd (he ▸ h) Std.lt_irrefl

theorem length_keys (t : Table κ α) : t.keys.length = t.size :=
  List.length_map _

theorem find?_filter (t : Table κ α) (keep : κ → α → Bool) (k : κ) :
    (t.filter keep).find? k = (t.find? k).filter (keep k) := by
  refine Option.ext fun v => ?_
  rw [← mem_rows, Option.filter_eq_some_iff, ← mem_rows]
  exact List.mem_filter

theorem find?_filter_keys (t : Table κ α) (keep : κ → Bool) (k : κ) :
    (t.filter fun k _ => keep k).find? k = if keep k then t.find? k else none := by
  rw [find?_filter]
  cases t.find? k <;> simp [Option.filter]

theorem filter_congr {t : Table κ α} {keep keep' : κ → α → Bool}
    (h : ∀ k v, t.find? k = some v → keep k v = keep' k v) : t.filter keep = t.filter keep' :=
  ext_rows (List.filter_congr fun _ hrow => h _ _ (mem_rows.mp hrow))

theorem filter_filter (t : Table κ α) (keep keep' : κ → α → Bool) :
    (t.filter keep).filter keep' = t.filter fun k v => keep k v && keep' k v := by
  refine ext_rows (List.filter_filter.trans ?_)
  simp only [Bool.and_comm]
  rfl

theorem find?_mapValues (t : Table κ α) (f : κ → α → β) (k : κ) :
    (t.mapValues f).find? k = (t.find? k).map (f k) := by
  refine Option.ext fun v => ?_
  rw [← mem_rows, Option.map_eq_some_iff, mapValues, List.mem_map]
  constructor
  · rintro ⟨⟨l, w⟩, h, he⟩
    cases he
    exact ⟨w, mem_rows.mp h, rfl⟩
  · rintro ⟨w, h, rfl⟩
    exact ⟨(k, w), mem_rows.mpr h, rfl⟩

theorem keys_mapValues (t : Table κ α) (f : κ → α → β) : (t.mapValues f).keys = t.keys := by
  rw [keys, mapValues, List.map_map]
  rfl

theorem mapValues_mapValues (t : Table κ α) (f g : κ → α → α) :
    (t.mapValues f).mapValues g = t.mapValues fun k v => g k (f k v) :=
  ext_rows (by simp [mapValues])

theorem ext_find? {t u : Table κ α} (h : ∀ k, t.find? k = u.find? k) : t = u := by
  have hrows : ∀ r, r ∈ t.rows ↔ r ∈ u.rows := by
    rintro ⟨k, v⟩
    rw [mem_rows, mem_rows, h]
  have hnodup : ∀ t : Table κ α, t.rows.Nodup := fun t =>
    t.ascending.imp fun hlt he => absurd (he ▸ hlt) Std.lt_irrefl
  refine ext_rows (((List.perm_ext_iff_of_nodup (hnodup t) (hnodup u)).mpr hrows).eq_of_pairwise
    ?_ t.ascending u.ascending)
  exact fun a b _ _ hab hba => absurd (Std.lt_trans hab hba) Std.lt_irrefl

theorem mapValues_insert (t : Table κ α) (f : α → β) (k : κ) (v : α) :
    (t.insert k v).mapValues (fun _ => f) = (t.mapValues fun _ => f).insert k (f v) := by
  refine ext_find? fun l => ?_
  rw [find?_mapValues, find?_insert, find?_insert, find?_mapValues]
  split <;> rfl

theorem mapValues_filter (t : Table κ α) (f : α → β) (keep : κ → Bool) :
    (t.filter fun k _ => keep k).mapValues (fun _ => f) =
      (t.mapValues fun _ => f).filter fun k _ => keep k := by
  refine ext_find? fun l => ?_
  rw [find?_mapValues, find?_filter_keys, find?_filter_keys, find?_mapValues]
  split <;> rfl

theorem mem_keys_insert {t : Table κ α} {k l : κ} {v : α} :
    l ∈ (t.insert k v).keys ↔ l = k ∨ l ∈ t.keys := by
  rw [mem_keys, mem_keys, find?_insert]
  split <;> simp_all

theorem mem_keys_erase {t : Table κ α} {k l : κ} :
    l ∈ (t.erase k).keys ↔ l ≠ k ∧ l ∈ t.keys := by
  rw [mem_keys, mem_keys, find?_erase]
  split <;> simp_all

theorem mem_keys_foldl_insert {ι : Type} {key : ι → κ} {value : ι → α} {xs : List ι}
    {t : Table κ α} {k : κ} :
    k ∈ (xs.foldl (fun t x => t.insert (key x) (value x)) t).keys ↔
      k ∈ t.keys ∨ ∃ x ∈ xs, key x = k := by
  induction xs generalizing t with
  | nil => simp
  | cons x xs ih =>
    rw [List.foldl_cons, ih, mem_keys_insert, List.exists_mem_cons_iff, eq_comm, or_assoc,
      or_left_comm]

theorem erase_eq_self {t : Table κ α} {k : κ} (h : t.find? k = none) : t.erase k = t := by
  refine ext_find? fun l => ?_
  rw [find?_erase]
  split
  · rename_i hl; rw [hl, h]
  · rfl

theorem erase_insert_self {t : Table κ α} {k : κ} (v : α) (h : t.find? k = none) :
    (t.insert k v).erase k = t := by
  refine ext_find? fun l => ?_
  rw [find?_erase, find?_insert]
  split
  · rename_i hl; rw [hl, h]
  · rfl

theorem erase_insert_of_ne (t : Table κ α) {k l : κ} (v : α) (h : k ≠ l) :
    (t.insert k v).erase l = (t.erase l).insert k v := by
  refine ext_find? fun m => ?_
  simp only [find?_erase, find?_insert]
  grind

theorem erase_comm (t : Table κ α) (k l : κ) : (t.erase k).erase l = (t.erase l).erase k := by
  refine ext_find? fun m => ?_
  simp only [find?_erase]
  grind

end ConfigDaemon.Table
