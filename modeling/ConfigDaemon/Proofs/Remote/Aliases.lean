import Mathlib.Data.List.Pairwise
import Mathlib.Logic.Basic
import Mathlib.Tactic.ByContra
import ConfigDaemon.Remote.Endpoint

/-! # Aliases of an endpoint

New identifiers that come one after the other keep every subscription under the identifier that its
owner knows, unless one of them is an identifier that is still to be replaced. Then the subscription
that comes up later is taken for the one that came first.
-/

namespace ConfigDaemon.Endpoint

variable {e : Endpoint} {database : Option String} {current id : UInt32} {k : Rekeying}
  {ks : List Rekeying}

theorem find?_filter_of_forall {α : Type} {p q : α → Bool} {xs : List α}
    (h : ∀ a ∈ xs.find? q, p a = true) : (xs.filter p).find? q = xs.find? q := by
  induction xs with
  | nil => rfl
  | cons x xs ih =>
    by_cases hq : q x = true
    · have hp : p x = true := h x (List.find?_cons_of_pos hq)
      rw [List.filter_cons_of_pos hp, List.find?_cons_of_pos hq, List.find?_cons_of_pos hq]
    · rw [List.find?_cons_of_neg hq] at h ⊢
      by_cases hp : p x = true
      · rw [List.filter_cons_of_pos hp, List.find?_cons_of_neg hq, ih h]
      · rw [List.filter_cons_of_neg hp, ih h]

theorem eq_of_pairwise_ne {α : Type} {place : α → Option String} {id : α → UInt32} {xs : List α}
    (h : xs.Pairwise fun a b => place a = place b → id a ≠ id b) {a b : α} (ha : a ∈ xs)
    (hb : b ∈ xs) (hp : place a = place b) (hid : id a = id b) : a = b := by
  have : Std.Symm fun a b => place a = place b → id a ≠ id b :=
    ⟨fun _ _ h hp he => h hp.symm he.symm⟩
  by_contra hne
  exact h.forall ha hb hne hp hid

theorem alias_of_find? {a : Alias} {aliases : List Alias}
    (h : aliases.find? (fun a => a.database = database ∧ a.current = current) = some a) :
    a.database = database ∧ a.current = current :=
  of_decide_eq_true (List.find?_some h :)

/-! ## Forgetting -/

theorem stableId_forget_self (e : Endpoint) (database : Option String) (id : UInt32) :
    (e.forget database id).stableId database id = id := by
  have hnone : (e.forget database id).aliases.find?
      (fun a => a.database = database ∧ a.current = id) = none := by
    rw [List.find?_eq_none]
    intro a ha hq
    obtain ⟨-, hp⟩ := List.mem_filter.mp ha
    obtain ⟨hd, hc⟩ := of_decide_eq_true hq
    rcases of_decide_eq_true hp with h | ⟨h, -⟩
    · exact h hd
    · exact h hc
  rw [stableId, hnone]
  rfl

theorem stableId_forget_of_ne {other : Option String}
    (h : other = database → current ≠ id ∧ e.stableId other current ≠ id) :
    (e.forget database id).stableId other current = e.stableId other current := by
  rw [stableId, stableId, forget, find?_filter_of_forall]
  intro a ha
  obtain ⟨hd, hc⟩ := alias_of_find? ha
  refine decide_eq_true ?_
  by_cases hdatabase : a.database = database
  · right
    obtain ⟨hne, hstable⟩ := h (hd ▸ hdatabase)
    rw [stableId, ha] at hstable
    exact ⟨hc ▸ hne, hstable⟩
  · exact .inl hdatabase

/-! ## New identifiers -/

theorem stableId_rekey_new (e : Endpoint) (k : Rekeying) :
    (e.rekey k).stableId k.database k.newId = e.stableId k.database k.oldId := by
  have hnone : (e.aliases.filter fun a =>
      a.database ≠ k.database ∨ (a.current ≠ k.oldId ∧ a.current ≠ k.newId)).find?
        (fun a => a.database = k.database ∧ a.current = k.newId) = none := by
    rw [List.find?_eq_none]
    intro a ha hq
    obtain ⟨-, hp⟩ := List.mem_filter.mp ha
    obtain ⟨hd, hc⟩ := of_decide_eq_true hq
    rcases of_decide_eq_true hp with h | ⟨-, h⟩
    · exact h hd
    · exact h hc
  rw [stableId, rekey, List.find?_append, hnone, Option.none_or,
    List.find?_cons_of_pos (by simp)]
  rfl

theorem stableId_rekey_of_ne
    (h : database = k.database → current ≠ k.oldId ∧ current ≠ k.newId) :
    (e.rekey k).stableId database current = e.stableId database current := by
  have hlast : ¬ (k.database = database ∧ k.newId = current) :=
    fun ⟨hd, hc⟩ => (h hd.symm).2 hc.symm
  rw [stableId, stableId, rekey, List.find?_append, find?_filter_of_forall,
    List.find?_cons_of_neg (by simpa using hlast), List.find?_nil, Option.or_none]
  intro a ha
  obtain ⟨hd, hc⟩ := alias_of_find? ha
  refine decide_eq_true ?_
  by_cases hdatabase : a.database = k.database
  · right
    rw [hc]
    exact h (hd ▸ hdatabase)
  · exact .inl hdatabase

def rekeyAll (e : Endpoint) (ks : List Rekeying) : Endpoint :=
  ks.foldl rekey e

theorem address_rekeyAll (e : Endpoint) (ks : List Rekeying) :
    (e.rekeyAll ks).address = e.address := by
  induction ks generalizing e with
  | nil => rfl
  | cons k ks ih => exact ih (e.rekey k)

theorem stableId_rekeyAll_of_ne
    (h : ∀ k ∈ ks, database = k.database → current ≠ k.oldId ∧ current ≠ k.newId) :
    (e.rekeyAll ks).stableId database current = e.stableId database current := by
  induction ks generalizing e with
  | nil => rfl
  | cons k ks ih =>
    exact (ih fun l hl => h l (List.mem_cons_of_mem _ hl)).trans
      (stableId_rekey_of_ne (h k List.mem_cons_self))

/-- No two of them concern one subscription, before or after. -/
structure Apart (ks : List Rekeying) : Prop where
  old : ks.Pairwise fun k l => k.database = l.database → k.oldId ≠ l.oldId
  new : ks.Pairwise fun k l => k.database = l.database → k.newId ≠ l.newId

/-- No new identifier is one that is still to be replaced. -/
def InOrder (ks : List Rekeying) : Prop :=
  ks.Pairwise fun k l => k.database = l.database → k.newId ≠ l.oldId

theorem Apart.tail (h : Apart (k :: ks)) : Apart ks :=
  ⟨(List.pairwise_cons.mp h.old).2, (List.pairwise_cons.mp h.new).2⟩

theorem stableId_rekeyAll_cons (h : Apart (k :: ks))
    (hk : ∀ l ∈ ks, k.database = l.database → k.newId ≠ l.oldId) :
    (e.rekeyAll (k :: ks)).stableId k.database k.newId = e.stableId k.database k.oldId := by
  have hnew := (List.pairwise_cons.mp h.new).1
  exact (stableId_rekeyAll_of_ne fun l hl hd => ⟨hk l hl hd, hnew l hl hd⟩).trans
    (stableId_rekey_new e k)

theorem stableId_rekey_later (h : Apart (k :: ks)) {l : Rekeying} (hl : l ∈ ks) :
    (e.rekey k).stableId l.database l.oldId =
      if k.database = l.database ∧ k.newId = l.oldId then e.stableId k.database k.oldId
      else e.stableId l.database l.oldId := by
  split
  · rename_i heq
    rw [← heq.1, ← heq.2]
    exact stableId_rekey_new e k
  · rename_i hne
    have hold := (List.pairwise_cons.mp h.old).1 l hl
    exact stableId_rekey_of_ne fun hd =>
      ⟨(hold hd.symm).symm, fun hc => hne ⟨hd.symm, hc.symm⟩⟩

/-- New identifiers in order keep every subscription under the identifier that its owner knows. -/
theorem stableId_rekeyAll (h : Apart ks) (ho : InOrder ks) :
    ∀ k ∈ ks, (e.rekeyAll ks).stableId k.database k.newId = e.stableId k.database k.oldId := by
  induction ks generalizing e with
  | nil => nofun
  | cons k ks ih =>
    obtain ⟨hk, ho'⟩ := List.pairwise_cons.mp ho
    intro l hl
    rcases List.mem_cons.mp hl with rfl | hl
    · exact stableId_rekeyAll_cons h hk
    · refine (ih h.tail ho' l hl).trans ?_
      rw [stableId_rekey_later h hl, if_neg fun heq => hk l hl heq.1 heq.2]

/-- Once an identifier that is still to be replaced means a subscription that has been dealt with,
some subscription is mistaken for another in the end. What the identifiers should mean is given by
`own`, and `met` are the meanings of those that have been dealt with. -/
theorem exists_mistaken {own : Rekeying → UInt32} (met : Option String → UInt32 → Prop)
    (h : Apart ks) (hown : ks.Pairwise fun k l => k.database = l.database → own k ≠ own l)
    (hmet : ∀ k ∈ ks, ¬ met k.database (own k))
    (hmeans : ∀ k ∈ ks, e.stableId k.database k.oldId = own k ∨
      met k.database (e.stableId k.database k.oldId))
    (hbad : (∃ k ∈ ks, met k.database (e.stableId k.database k.oldId)) ∨ ¬ InOrder ks) :
    ∃ k ∈ ks, (e.rekeyAll ks).stableId k.database k.newId ≠ own k := by
  induction ks generalizing e met with
  | nil =>
    rcases hbad with ⟨k, hk, -⟩ | ho
    · cases hk
    · exact (ho .nil).elim
  | cons k ks ih =>
    obtain ⟨hkown, hown'⟩ := List.pairwise_cons.mp hown
    let met' := fun d i => met d i ∨ d = k.database ∧ i = own k
    -- what `k` hands on is its own meaning or one that was met before
    have hpassed : met' k.database (e.stableId k.database k.oldId) :=
      (hmeans k List.mem_cons_self).symm.imp id fun he => ⟨rfl, he⟩
    have hmeans' : ∀ l ∈ ks, (e.rekey k).stableId l.database l.oldId = own l ∨
        met' l.database ((e.rekey k).stableId l.database l.oldId) := by
      intro l hl
      rw [stableId_rekey_later h hl]
      split
      · rename_i heq
        rw [← heq.1]
        exact .inr hpassed
      · exact (hmeans l (List.mem_cons_of_mem _ hl)).imp id .inl
    have hmet' : ∀ l ∈ ks, ¬ met' l.database (own l) := by
      rintro l hl (hm | ⟨hd, ho⟩)
      · exact hmet l (List.mem_cons_of_mem _ hl) hm
      · exact hkown l hl hd.symm ho.symm
    have hlater : ((∃ l ∈ ks, met' l.database ((e.rekey k).stableId l.database l.oldId)) ∨
        ¬ InOrder ks) →
          ∃ l ∈ k :: ks, (e.rekeyAll (k :: ks)).stableId l.database l.newId ≠ own l := by
      intro hbad'
      obtain ⟨l, hl, hne⟩ := ih met' h.tail hown' hmet' hmeans' hbad'
      exact ⟨l, List.mem_cons_of_mem _ hl, hne⟩
    -- the mistake is handed on through `l` if `k` takes its identifier; else it is there already,
    -- or among the rest
    by_cases hclash : ∃ l ∈ ks, k.database = l.database ∧ k.newId = l.oldId
    · obtain ⟨l, hl, hd, he⟩ := hclash
      refine hlater (.inl ⟨l, hl, ?_⟩)
      rw [stableId_rekey_later h hl, if_pos ⟨hd, he⟩, ← hd]
      exact hpassed
    · have hk : ∀ l ∈ ks, k.database = l.database → k.newId ≠ l.oldId :=
        fun l hl hd he => hclash ⟨l, hl, hd, he⟩
      have hkeep : ∀ l ∈ ks, (e.rekey k).stableId l.database l.oldId =
          e.stableId l.database l.oldId := by
        intro l hl
        rw [stableId_rekey_later h hl, if_neg fun heq => hk l hl heq.1 heq.2]
      rcases hbad with ⟨l, hl, hm⟩ | ho
      · rcases List.mem_cons.mp hl with rfl | hl
        · refine ⟨l, List.mem_cons_self, ?_⟩
          rw [stableId_rekeyAll_cons h hk]
          intro he
          exact hmet l List.mem_cons_self (he ▸ hm)
        · refine hlater (.inl ⟨l, hl, .inl ?_⟩)
          rwa [hkeep l hl]
      · refine hlater (.inr fun ho' => ho ?_)
        exact List.pairwise_cons.mpr ⟨hk, ho'⟩

theorem exists_mistaken_of_not_inOrder (h : Apart ks)
    (hown : ks.Pairwise fun k l => k.database = l.database →
      e.stableId k.database k.oldId ≠ e.stableId l.database l.oldId) (ho : ¬ InOrder ks) :
    ∃ k ∈ ks, (e.rekeyAll ks).stableId k.database k.newId ≠ e.stableId k.database k.oldId :=
  exists_mistaken (fun _ _ => False) h hown (fun _ _ => id) (fun _ _ => .inl rfl) (.inr ho)

end ConfigDaemon.Endpoint
