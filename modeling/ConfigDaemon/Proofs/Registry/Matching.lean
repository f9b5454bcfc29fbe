import ConfigDaemon.Proofs.Key
import ConfigDaemon.Proofs.Registry

/-! # Who is told of a change

A change of a key concerns the listeners whose location it is at or below. Among valid keys that is
the order in which the components of one key begin those of another.
-/

namespace ConfigDaemon.Registry

open Key

/-- A key is at or below another when the components of that one begin its own. This is a partial
order in which all that is above one key is comparable, and a change of a key concerns just the
listeners with a location above it, each once and in the order of their identifiers. -/
theorem matched_by_components {p q k : String} (hp : fault? p = none) (hq : fault? q = none)
    (hk : fault? k = none) {r : Registry} (hr : ∀ l ∈ r.toList, fault? l.location = none) :
    (ofComponents (components k) = k ∧ ∀ c ∈ components k, c ≠ [] ∧ '/' ∉ c) ∧
      (isBelow p k = true ↔ components p <+: components k) ∧
      isBelow k k = true ∧
      (isBelow p q = true → isBelow q k = true → isBelow p k = true) ∧
      (isBelow p q = true → isBelow q p = true → p = q) ∧
      (isBelow p k = true → isBelow q k = true → isBelow p q = true ∨ isBelow q p = true) ∧
      (∀ l, l ∈ r.matching k ↔ r.get? l.id = some l ∧ components l.location <+: components k) ∧
      (r.matching k).Pairwise (·.id < ·.id) := by
  refine ⟨⟨ofComponents_components hk, fun c => of_mem_components hk⟩, isBelow_iff_components hp hk,
    isBelow_refl hk, isBelow_trans hp hq hk, isBelow_antisymm hp hq, isBelow_or_isBelow hp hq hk,
    fun l => ?_, r.ascending_toList.filter _⟩
  rw [matching, List.mem_filter, ← mem_toList_iff_get?]
  exact and_congr_right fun hl => isBelow_iff_components (hr l hl) hk

/-- Listeners at the root, at a key above and at one that only begins with the same letters. -/
theorem matched_by_components_of_three :
    let r : Registry :=
      ⟨.ofList [(1, ⟨1, "/a/bc", "/c1"⟩), (2, ⟨2, "/a/b", "/c2"⟩), (3, ⟨3, "/", "/c3"⟩)], 4,
        by decide⟩
    fault? "/" = none ∧ fault? "/a/b" = none ∧ fault? "/a/b/c" = none ∧
      (∀ l ∈ r.toList, fault? l.location = none) ∧
      components "/a/b/c" = [['a'], ['b'], ['c']] ∧
      isBelow "/" "/a/b/c" = true ∧
      ⟨2, "/a/b", "/c2"⟩ ∈ r.matching "/a/b/c" ∧ ⟨1, "/a/bc", "/c1"⟩ ∉ r.matching "/a/b/c" := by
  intro r
  have hp : fault? "/" = none := by decide
  have hq : fault? "/a/b" = none := by decide
  have hk : fault? "/a/b/c" = none := by decide
  have hr : ∀ l ∈ r.toList, fault? l.location = none := by decide
  have hcomponents : components "/a/b/c" = [['a'], ['b'], ['c']] := by decide
  obtain ⟨-, hroot, -, -, -, -, hmatching, -⟩ := matched_by_components hp hq hk hr
  refine ⟨hp, hq, hk, hr, hcomponents, hroot.mpr List.nil_prefix, ?_, ?_⟩
  · exact (hmatching _).mpr ⟨by decide, by decide⟩
  · exact fun h => absurd ((hmatching _).mp h).2 (by decide)

end ConfigDaemon.Registry
