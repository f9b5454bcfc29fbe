import Mathlib.Data.List.Induction
import Mathlib.Data.List.Nodup
import ConfigDaemon.Log.Surviving
import ConfigDaemon.Proofs.Log.Entry

/-! # What entries tell

An entry holds of what survives when it tells something true about it. After some entries, those
entries hold, and of the others the same ones as before.
-/

namespace ConfigDaemon.Log

namespace Entry

def opposite : Entry → Entry
  | .addClient c => .removeClient c
  | .removeClient c => .addClient c
  | .addListener r => .removeListener r
  | .removeListener r => .addListener r

@[simp] theorem opposite_opposite (e : Entry) : e.opposite.opposite = e := by
  cases e <;> rfl

def IsRemoval : Entry → Prop
  | .addClient _ | .addListener _ => False
  | .removeClient _ | .removeListener _ => True

theorem opposite_eq_iff {e f : Entry} : e.opposite = f ↔ e = f.opposite := by
  constructor
  · rintro rfl; exact e.opposite_opposite.symm
  · rintro rfl; exact f.opposite_opposite

theorem IsRemoval.opposite {e : Entry} (h : e.IsRemoval) : ¬ e.opposite.IsRemoval := by
  cases e <;> simp_all [IsRemoval, Entry.opposite]

end Entry

namespace Surviving

section Join

variable {α : Type} [DecidableEq α] {xs : List α} {x y : α}

theorem mem_join : y ∈ join xs x ↔ y = x ∨ y ∈ xs := by
  unfold join
  split
  · constructor
    · exact .inr
    · rintro (rfl | h)
      · assumption
      · exact h
  · rw [List.mem_append, List.mem_singleton, or_comm]

theorem nodup_join (h : xs.Nodup) : (join xs x).Nodup := by
  unfold join
  split
  · exact h
  · rw [← List.concat_eq_append]
    exact h.concat (by assumption)

theorem foldl_join {xs ys : List α} (h : (xs ++ ys).Nodup) :
    ys.foldl join xs = xs ++ ys := by
  induction ys generalizing xs with
  | nil => simp
  | cons y ys ih =>
    have hnew : y ∉ xs := fun hmem =>
      (List.nodup_append.mp h).2.2 y hmem y List.mem_cons_self rfl
    have hjoin : join xs y = xs ++ [y] := if_neg hnew
    rw [List.append_cons] at h
    rw [List.foldl_cons, hjoin, ih h, ← List.append_cons]

end Join

structure Distinct (s : Surviving) : Prop where
  clients : s.clients.Nodup
  listeners : s.listeners.Nodup

theorem distinct_empty : empty.Distinct :=
  ⟨.nil, .nil⟩

theorem Distinct.apply {s : Surviving} (h : s.Distinct) (e : Entry) : (s.apply e).Distinct := by
  cases e with
  | addClient c => exact ⟨nodup_join h.clients, h.listeners⟩
  | removeClient c => exact ⟨h.clients.erase c, h.listeners⟩
  | addListener r => exact ⟨h.clients, nodup_join h.listeners⟩
  | removeListener r => exact ⟨h.clients, h.listeners.erase r⟩

theorem Distinct.foldl {s : Surviving} (h : s.Distinct) (es : List Entry) :
    (es.foldl Surviving.apply s).Distinct := by
  induction es generalizing s with
  | nil => exact h
  | cons e es ih => exact ih (h.apply e)

theorem distinct_ofEntries (es : List Entry) : (ofEntries es).Distinct :=
  distinct_empty.foldl es

theorem ofEntries_append (es fs : List Entry) :
    ofEntries (es ++ fs) = fs.foldl apply (ofEntries es) :=
  List.foldl_append

def Holds (s : Surviving) : Entry → Prop
  | .addClient c => c ∈ s.clients
  | .removeClient c => c ∉ s.clients
  | .addListener r => r ∈ s.listeners
  | .removeListener r => r ∉ s.listeners

/-- An entry holds afterwards, its opposite does not, and nothing else changes. -/
theorem holds_apply {s : Surviving} (hs : s.Distinct) (e f : Entry) :
    (s.apply e).Holds f ↔ f = e ∨ f ≠ e.opposite ∧ s.Holds f := by
  cases e <;> cases f <;>
    simp [apply, Holds, Entry.opposite, mem_join, hs.clients.mem_erase_iff,
      hs.listeners.mem_erase_iff, ← or_iff_not_imp_left]

theorem mem_of_holds {es : List Entry} {e : Entry} (he : ¬ e.IsRemoval)
    (h : (ofEntries es).Holds e) : e ∈ es := by
  induction es using List.reverseRecOn with
  | nil => cases e <;> simp_all [Entry.IsRemoval, Holds, ofEntries_nil, empty]
  | append_singleton es f ih =>
    rw [ofEntries_append, List.foldl_cons, List.foldl_nil, holds_apply (distinct_ofEntries es)] at h
    rw [List.mem_append, List.mem_singleton]
    rcases h with rfl | ⟨-, h⟩
    · exact .inr rfl
    · exact .inl (ih h)

/-- Entries that are left out do not matter to the others, if their opposites are left out too. -/
theorem holds_foldl_filter {keep : Entry → Bool} (hkeep : ∀ e, keep e.opposite = keep e)
    {f : Entry} (hf : keep f = true) (es : List Entry) {s t : Surviving} (hs : s.Distinct)
    (ht : t.Distinct) (hst : s.Holds f ↔ t.Holds f) :
    ((es.filter keep).foldl apply s).Holds f ↔ (es.foldl apply t).Holds f := by
  induction es generalizing s t with
  | nil => exact hst
  | cons e es ih =>
    by_cases he : keep e = true
    · rw [List.filter_cons_of_pos he]
      refine ih (hs.apply e) (ht.apply e) ?_
      rw [holds_apply hs, holds_apply ht, hst]
    · rw [List.filter_cons_of_neg he]
      refine ih hs (ht.apply e) ?_
      have hne : f ≠ e := fun h => he (h ▸ hf)
      have hopposite : f ≠ e.opposite := fun h => he (by rw [← hkeep, ← h]; exact hf)
      rw [holds_apply ht, hst]
      simp [hne, hopposite]

/-- The same clients and the same listeners, in whatever order. -/
structure Agrees (s t : Surviving) : Prop where
  clients : ∀ c, c ∈ s.clients ↔ c ∈ t.clients
  listeners : ∀ r, r ∈ s.listeners ↔ r ∈ t.listeners

theorem Agrees.refl (s : Surviving) : s.Agrees s :=
  ⟨fun _ => Iff.rfl, fun _ => Iff.rfl⟩

theorem agrees_iff_holds {s t : Surviving} :
    s.Agrees t ↔ ∀ e : Entry, ¬ e.IsRemoval → (s.Holds e ↔ t.Holds e) := by
  constructor
  · rintro ⟨hclients, hlisteners⟩ e he
    cases e with
    | addClient c => exact hclients c
    | removeClient c => exact absurd trivial he
    | addListener r => exact hlisteners r
    | removeListener r => exact absurd trivial he
  · intro h
    exact ⟨fun c => h (.addClient c) not_false, fun r => h (.addListener r) not_false⟩

theorem holds_foldl {es : List Entry} (hes : ∀ e ∈ es, e.opposite ∉ es) {s : Surviving}
    (hs : s.Distinct) (f : Entry) :
    (es.foldl apply s).Holds f ↔ f ∈ es ∨ f.opposite ∉ es ∧ s.Holds f := by
  induction es generalizing s with
  | nil => simp
  | cons e es ih =>
    have hrest : ∀ e' ∈ es, e'.opposite ∉ es :=
      fun e' he' h => hes e' (List.mem_cons_of_mem _ he') (List.mem_cons_of_mem _ h)
    have hhead : e.opposite ∉ es := fun h => hes e List.mem_cons_self (List.mem_cons_of_mem _ h)
    rw [List.foldl_cons, ih hrest (hs.apply e), holds_apply hs, List.mem_cons, List.mem_cons,
      ne_eq, ← Entry.opposite_eq_iff]
    constructor
    · rintro (h | ⟨h, rfl | ⟨hne, hf⟩⟩)
      · exact .inl (.inr h)
      · exact .inl (.inl rfl)
      · exact .inr ⟨not_or.mpr ⟨hne, h⟩, hf⟩
    · rintro ((rfl | h) | ⟨h, hf⟩)
      · exact .inr ⟨hhead, .inl rfl⟩
      · exact .inl h
      · obtain ⟨hne, h⟩ := not_or.mp h
        exact .inr ⟨h, .inr ⟨hne, hf⟩⟩

theorem listeners_foldl_addClient {es : List Entry} (hes : ∀ e ∈ es, ∃ a, e = .addClient a)
    (s : Surviving) : (es.foldl apply s).listeners = s.listeners := by
  induction es generalizing s with
  | nil => rfl
  | cons e es ih =>
    obtain ⟨a, rfl⟩ := hes e List.mem_cons_self
    exact ih (fun f hf => hes f (List.mem_cons_of_mem _ hf)) _

/-! ## The entries that establish what survives -/

theorem foldl_addClient (cs : List String) (s : Surviving) :
    (cs.map .addClient).foldl apply s = { s with clients := cs.foldl join s.clients } := by
  induction cs generalizing s with
  | nil => rfl
  | cons c cs ih => exact ih _

theorem foldl_addListener (rs : List Record) (s : Surviving) :
    (rs.map .addListener).foldl apply s = { s with listeners := rs.foldl join s.listeners } := by
  induction rs generalizing s with
  | nil => rfl
  | cons r rs ih => exact ih _

theorem ofEntries_entries {s : Surviving} (h : s.Distinct) : ofEntries s.entries = s := by
  rw [entries, ofEntries_append, ofEntries, foldl_addClient, foldl_addListener]
  have hclients : s.clients.foldl join empty.clients = s.clients := foldl_join h.clients
  have hlisteners : s.listeners.foldl join empty.listeners = s.listeners := foldl_join h.listeners
  rw [hclients]
  exact congrArg (Surviving.mk s.clients) hlisteners

end Surviving

end ConfigDaemon.Log
