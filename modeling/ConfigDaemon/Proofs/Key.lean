import Mathlib.Data.List.Basic
import ConfigDaemon.Key

/-! # Keys and their components

Which keys a location covers is decided on the text. It comes to the same as whether the
components of the location begin those of the key. A key is made up of its components, so this is a
partial order, and the locations above one key are a chain.
-/

namespace ConfigDaemon.Key

theorem exists_cons_of_fault?_eq_none {key : String} (h : fault? key = none) :
    ∃ s, key.toList = '/' :: s := by
  unfold fault? faultOf at h
  split at h
  · cases h
  · rename_i hhead
    obtain ⟨s, hs⟩ := List.head?_eq_some_iff.mp (not_not.mp hhead)
    exact ⟨s, hs⟩

theorem covers_of_ne_root {location : List Char} (h : location ≠ ['/']) (key : List Char) :
    covers location key = true ↔ ∃ r, key = location ++ r ∧ (r = [] ∨ r.head? = some '/') := by
  rw [covers, if_neg h]
  cases hrest : rest? location key with
  | none =>
    refine iff_of_false nofun ?_
    rintro ⟨r, hr, -⟩
    rw [rest?_eq_some_iff.mpr hr] at hrest
    cases hrest
  | some r =>
    have hkey := rest?_eq_some_iff.mp hrest
    constructor
    · intro hr
      refine ⟨r, hkey, ?_⟩
      cases r with
      | nil => exact .inl rfl
      | cons c r => exact .inr (congrArg some (of_decide_eq_true hr))
    · rintro ⟨r', hr', hr⟩
      obtain rfl : r = r' := List.append_cancel_left (hkey.symm.trans hr')
      cases r with
      | nil => rfl
      | cons c r => exact decide_eq_true (Option.some.inj (hr.resolve_left nofun))

theorem intercalate_append_cons (sep : List Char) {ps : List (List Char)} (hps : ps ≠ [])
    (q : List Char) (qs : List (List Char)) :
    sep.intercalate (ps ++ q :: qs) = sep.intercalate ps ++ (sep ++ sep.intercalate (q :: qs)) := by
  induction ps with
  | nil => exact absurd rfl hps
  | cons p ps ih =>
    cases ps with
    | nil =>
      rw [List.singleton_append, List.intercalate_cons_cons, List.intercalate_singleton,
        List.append_assoc]
    | cons p' ps =>
      rw [List.cons_append, List.intercalate_cons_of_ne_nil (by simp), ih (by simp),
        List.intercalate_cons_cons]
      simp only [List.append_assoc]

/-- One text goes on from another at a slash just when the parts between slashes do so. -/
theorem splitOn_prefix_iff {p s : List Char} :
    p.splitOn '/' <+: s.splitOn '/' ↔ ∃ r, s = p ++ r ∧ (r = [] ∨ r.head? = some '/') := by
  constructor
  · rintro ⟨qs, hqs⟩
    have hs : ['/'].intercalate (s.splitOn '/') = s := List.intercalate_splitOn '/'
    have hp : ['/'].intercalate (p.splitOn '/') = p := List.intercalate_splitOn '/'
    rw [← hqs] at hs
    cases qs with
    | nil =>
      rw [List.append_nil, hp] at hs
      exact ⟨[], by rw [hs, List.append_nil], .inl rfl⟩
    | cons q qs =>
      rw [intercalate_append_cons _ (List.splitOn_ne_nil _ _), hp] at hs
      exact ⟨_, hs.symm, .inr rfl⟩
  · rintro ⟨r, rfl, hr⟩
    cases r with
    | nil => exact (List.append_nil p).symm ▸ List.prefix_rfl
    | cons c r =>
      obtain rfl : c = '/' := Option.some.inj (hr.resolve_left nofun)
      rw [List.splitOn_append_cons_self]
      exact List.prefix_append _ _

theorem splitOn_eq_cons_components {key : String} (h : fault? key = none) (hroot : key ≠ "/") :
    key.toList.splitOn '/' = [] :: components key := by
  obtain ⟨s, hs⟩ := exists_cons_of_fault?_eq_none h
  have hsplit : ('/' :: s).splitOn '/' = [] :: s.splitOn '/' := List.splitOn_append_cons_self [] s
  rw [components, if_neg hroot, hs, hsplit]
  rfl

@[simp] theorem components_root : components "/" = [] := rfl

theorem components_ne_nil {key : String} (h : fault? key = none) (hroot : key ≠ "/") :
    components key ≠ [] := by
  obtain ⟨s, hs⟩ := exists_cons_of_fault?_eq_none h
  have hsplit := splitOn_eq_cons_components h hroot
  rw [hs, show ('/' :: s).splitOn '/' = [] :: s.splitOn '/' from
    List.splitOn_append_cons_self [] s, List.cons.injEq] at hsplit
  rw [← hsplit.2]
  exact List.splitOn_ne_nil _ _

theorem not_covers_root {location : List Char} (hl : location.head? = some '/')
    (hne : location ≠ ['/']) : ¬ covers location ['/'] = true := by
  rw [covers_of_ne_root hne]
  obtain ⟨s, rfl⟩ := List.head?_eq_some_iff.mp hl
  rintro ⟨r, hr, -⟩
  obtain ⟨rfl, -⟩ := List.append_eq_nil_iff.mp (List.cons.inj hr).2.symm
  exact hne rfl

/-- A location covers the keys whose components it begins. -/
theorem isBelow_iff_components {location key : String} (hl : fault? location = none)
    (hk : fault? key = none) :
    isBelow location key = true ↔ components location <+: components key := by
  by_cases hroot : location = "/"
  · subst hroot
    obtain ⟨s, hs⟩ := exists_cons_of_fault?_eq_none hk
    refine iff_of_true ?_ List.nil_prefix
    rw [isBelow, hs]
    rfl
  · have hne : location.toList ≠ ['/'] := fun he => hroot (String.toList_inj.mp he)
    by_cases hkroot : key = "/"
    · subst hkroot
      obtain ⟨s, hs⟩ := exists_cons_of_fault?_eq_none hl
      refine iff_of_false (not_covers_root (by rw [hs]; rfl) hne) ?_
      rw [components_root, List.prefix_nil]
      exact components_ne_nil hl hroot
    · rw [isBelow, covers_of_ne_root hne, ← splitOn_prefix_iff,
        splitOn_eq_cons_components hl hroot, splitOn_eq_cons_components hk hkroot,
        List.prefix_cons_inj]

/-! ## Keys from their components -/

/-- The key that components make up, with a slash before each of them. -/
def ofComponents (cs : List (List Char)) : String :=
  if cs = [] then "/" else .ofList (cs.flatMap ('/' :: ·))

theorem intercalate_cons_eq (p : List Char) (ps : List (List Char)) :
    ['/'].intercalate (p :: ps) = p ++ ps.flatMap ('/' :: ·) := by
  induction ps generalizing p with
  | nil => simp
  | cons q ps ih =>
    rw [List.intercalate_cons_cons, ih, List.flatMap_cons, List.append_assoc]
    rfl

theorem flatMap_components {key : String} (h : fault? key = none) (hroot : key ≠ "/") :
    (components key).flatMap ('/' :: ·) = key.toList := by
  have hjoined : ['/'].intercalate (key.toList.splitOn '/') = key.toList :=
    List.intercalate_splitOn '/'
  rwa [splitOn_eq_cons_components h hroot, intercalate_cons_eq, List.nil_append] at hjoined

theorem ofComponents_components {key : String} (h : fault? key = none) :
    ofComponents (components key) = key := by
  by_cases hroot : key = "/"
  · rw [hroot]
    rfl
  · rw [ofComponents, if_neg (components_ne_nil h hroot), flatMap_components h hroot,
      String.ofList_toList]

theorem components_inj {k l : String} (hk : fault? k = none) (hl : fault? l = none)
    (h : components k = components l) : k = l := by
  rw [← ofComponents_components hk, h, ofComponents_components hl]

theorem hasAdjacentSlashes_append (before after : List Char) :
    hasAdjacentSlashes (before ++ '/' :: '/' :: after) = true := by
  induction before with
  | nil => rfl
  | cons c before ih => cases before <;> simp_all [hasAdjacentSlashes]

theorem slashes_of_ne_root {key : String} (h : fault? key = none) (hroot : key ≠ "/") :
    key.toList.getLast? ≠ some '/' ∧ ¬ hasAdjacentSlashes key.toList = true := by
  have hne : key.toList ≠ ['/'] := fun he => hroot (String.toList_inj.mp he)
  unfold fault? faultOf at h
  split_ifs at h with hhead hlast hadjacent hcontrol
  exact ⟨hlast, hadjacent⟩

theorem not_mem_of_mem_splitOn (s : List Char) : ∀ part ∈ s.splitOn '/', '/' ∉ part := by
  induction s with
  | nil => simp
  | cons c s ih =>
    obtain ⟨first, others, hs⟩ := List.exists_cons_of_ne_nil (List.splitOn_ne_nil '/' s)
    rw [hs, List.forall_mem_cons] at ih
    rw [List.splitOn_cons_eq_if_modifyHead, hs]
    split
    · simpa using ih
    · rename_i hc
      rw [List.modifyHead_cons, List.forall_mem_cons]
      exact ⟨List.not_mem_cons_of_ne_of_not_mem (fun he => hc (beq_iff_eq.mpr he.symm)) ih.1, ih.2⟩

theorem of_mem_components {key : String} (h : fault? key = none) {c : List Char}
    (hc : c ∈ components key) : c ≠ [] ∧ '/' ∉ c := by
  have hroot : key ≠ "/" := by
    rintro rfl
    cases hc
  constructor
  · rintro rfl
    obtain ⟨hlast, hadjacent⟩ := slashes_of_ne_root h hroot
    obtain ⟨before, after, hcs⟩ := List.append_of_mem hc
    have hkey := flatMap_components h hroot
    rw [hcs, List.flatMap_append, List.flatMap_cons] at hkey
    cases after with
    | nil =>
      rw [List.flatMap_nil, List.append_nil] at hkey
      exact hlast (by rw [← hkey, List.getLast?_concat])
    | cons d after => exact hadjacent (hkey ▸ hasAdjacentSlashes_append _ _)
  · have hpart : c ∈ key.toList.splitOn '/' := by
      rw [splitOn_eq_cons_components h hroot]
      exact List.mem_cons_of_mem _ hc
    exact not_mem_of_mem_splitOn _ c hpart

/-! ## The order of keys -/

section Order

variable {p q k : String}

theorem isBelow_refl (hk : fault? k = none) : isBelow k k = true :=
  (isBelow_iff_components hk hk).mpr List.prefix_rfl

theorem isBelow_trans (hp : fault? p = none) (hq : fault? q = none) (hk : fault? k = none)
    (hpq : isBelow p q = true) (hqk : isBelow q k = true) : isBelow p k = true := by
  rw [isBelow_iff_components hp hq] at hpq
  rw [isBelow_iff_components hq hk] at hqk
  exact (isBelow_iff_components hp hk).mpr (hpq.trans hqk)

theorem isBelow_antisymm (hp : fault? p = none) (hq : fault? q = none)
    (hpq : isBelow p q = true) (hqp : isBelow q p = true) : p = q := by
  rw [isBelow_iff_components hp hq] at hpq
  rw [isBelow_iff_components hq hp] at hqp
  exact components_inj hp hq (hpq.eq_of_length_le hqp.length_le)

/-- Of two locations with one key below both, one is below the other. -/
theorem isBelow_or_isBelow (hp : fault? p = none) (hq : fault? q = none) (hk : fault? k = none)
    (hpk : isBelow p k = true) (hqk : isBelow q k = true) :
    isBelow p q = true ∨ isBelow q p = true := by
  rw [isBelow_iff_components hp hk] at hpk
  rw [isBelow_iff_components hq hk] at hqk
  rw [isBelow_iff_components hp hq, isBelow_iff_components hq hp]
  exact List.prefix_or_prefix_of_prefix hpk hqk

end Order

end ConfigDaemon.Key
