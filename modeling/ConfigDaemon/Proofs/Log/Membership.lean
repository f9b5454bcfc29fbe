import Mathlib.Data.List.DropRight
import ConfigDaemon.Proofs.Log.Surviving

/-! # The last word decides

A client or a listener survives some entries if the last of them that is about it says that it
came, and it is listed where its present membership began. A log can therefore be replaced by the
entries that establish what survives of it, whatever is written afterwards.
-/

namespace ConfigDaemon.Log

theorem Entry.ne_opposite (e : Entry) : e ≠ e.opposite := by
  cases e <;> simp [opposite]

section LastWord

variable {es : List Entry} {e f : Entry}

def lastWord (es : List Entry) (f : Entry) : Option Entry :=
  (es.filter fun e => e = f ∨ e = f.opposite).getLast?

/-- The entries after the last one that takes `f` back. -/
def standing (es : List Entry) (f : Entry) : List Entry :=
  es.rtakeWhile (· ≠ f.opposite)

/-- The position of the first `f` after the last entry that takes it back. -/
def joinedAt (es : List Entry) (f : Entry) : Nat :=
  es.length - (standing es f).length + (standing es f).idxOf f

theorem lastWord_concat (es : List Entry) (e f : Entry) :
    lastWord (es ++ [e]) f = if e = f ∨ e = f.opposite then some e else lastWord es f := by
  unfold lastWord
  by_cases h : e = f ∨ e = f.opposite <;> simp [h]

theorem standing_concat (es : List Entry) (e f : Entry) :
    standing (es ++ [e]) f = if e = f.opposite then [] else standing es f ++ [e] := by
  unfold standing
  by_cases h : e = f.opposite <;> simp [h]

theorem standing_suffix (es : List Entry) (f : Entry) : standing es f <:+ es :=
  List.rtakeWhile_suffix _ _

theorem lastWord_eq_some_iff : lastWord es f = some f ↔ f ∈ standing es f := by
  induction es using List.reverseRecOn with
  | nil => simp [lastWord, standing]
  | append_singleton es e ih =>
    rw [lastWord_concat, standing_concat]
    by_cases hopposite : e = f.opposite
    · simp [hopposite, f.ne_opposite.symm]
    · by_cases hf : e = f
      · simp [hf, f.ne_opposite]
      · simp [hopposite, hf, Ne.symm hf, ih]

theorem joinedAt_concat_of_mem (he : e ≠ f.opposite) (hf : f ∈ standing es f) :
    joinedAt (es ++ [e]) f = joinedAt es f := by
  simp [joinedAt, standing_concat, he, List.idxOf_append, hf]

theorem joinedAt_concat_self (hf : f ∉ standing es f) : joinedAt (es ++ [f]) f = es.length := by
  have hle := (standing_suffix es f).length_le
  simp [joinedAt, standing_concat, f.ne_opposite, List.idxOf_append, hf]
  omega

theorem getElem?_joinedAt (hf : f ∈ standing es f) : es[joinedAt es f]? = some f := by
  obtain ⟨before, hbefore⟩ := standing_suffix es f
  have hlength : es.length - (standing es f).length = before.length := by
    have h := congrArg List.length hbefore
    rw [List.length_append] at h
    omega
  rw [joinedAt, hlength]
  nth_rewrite 1 [← hbefore]
  rw [List.getElem?_append_right (Nat.le_add_right _ _), Nat.add_sub_cancel_left]
  exact List.getElem?_idxOf hf

theorem joinedAt_lt (hf : f ∈ standing es f) : joinedAt es f < es.length :=
  (List.getElem?_eq_some_iff.mp (getElem?_joinedAt hf)).1

end LastWord

namespace Surviving

structure Registers {α : Type} (add : α → Entry) : Prop where
  injective : ∀ {x y}, add x = add y → x = y
  ne_opposite : ∀ x y, add x ≠ (add y).opposite

theorem registers_addClient : Registers Entry.addClient :=
  ⟨Entry.addClient.inj, nofun⟩

theorem registers_addListener : Registers Entry.addListener :=
  ⟨Entry.addListener.inj, nofun⟩

/-- The members that stand after some entries, in the order in which they joined. -/
structure Lists {α : Type} (add : α → Entry) (es : List Entry) (xs : List α) : Prop where
  mem_iff : ∀ x, x ∈ xs ↔ add x ∈ standing es (add x)
  ascending : xs.Pairwise fun x y => joinedAt es (add x) < joinedAt es (add y)

section Lists

variable {α : Type} {add : α → Entry} {es : List Entry} {xs : List α} {e : Entry}

theorem lists_nil : Lists add [] [] :=
  ⟨fun x => by simp [standing], .nil⟩

theorem Lists.nodup (h : Lists add es xs) : xs.Nodup := by
  apply h.ascending.imp
  rintro x _ hlt rfl
  exact Nat.lt_irrefl _ hlt

theorem Lists.ascending_concat (h : Lists add es xs) {ys : List α} (hys : ys.Sublist xs)
    (he : ∀ y ∈ ys, e ≠ (add y).opposite) :
    ys.Pairwise fun x y => joinedAt (es ++ [e]) (add x) < joinedAt (es ++ [e]) (add y) := by
  apply (h.ascending.sublist hys).imp_of_mem
  intro x y hx hy hlt
  have hstands : ∀ z ∈ ys, add z ∈ standing es (add z) := fun z hz =>
    (h.mem_iff z).mp (hys.subset hz)
  rwa [joinedAt_concat_of_mem (he x hx) (hstands x hx),
    joinedAt_concat_of_mem (he y hy) (hstands y hy)]

theorem Lists.other (h : Lists add es xs) (hadd : ∀ x, e ≠ add x)
    (hopposite : ∀ x, e ≠ (add x).opposite) : Lists add (es ++ [e]) xs := by
  constructor
  · intro x
    simp [standing_concat, hopposite x, (hadd x).symm, h.mem_iff]
  · exact h.ascending_concat (.refl xs) fun x _ => hopposite x

variable [DecidableEq α]

theorem Lists.join (h : Lists add es xs) (hadd : Registers add) (x : α) :
    Lists add (es ++ [add x]) (join xs x) := by
  have hkept : ∀ y ∈ xs, add x ≠ (add y).opposite := fun y _ => hadd.ne_opposite x y
  constructor
  · intro y
    have hinj : add y = add x ↔ y = x := ⟨hadd.injective, congrArg add⟩
    simp [standing_concat, hadd.ne_opposite, mem_join, h.mem_iff, hinj, or_comm]
  · unfold Surviving.join
    split
    · exact h.ascending_concat (.refl xs) hkept
    · rename_i hnew
      rw [List.pairwise_append]
      refine ⟨h.ascending_concat (.refl xs) hkept, List.pairwise_singleton _ _, ?_⟩
      intro y hy z hz
      -- the new member joins behind the last position
      rw [List.mem_singleton.mp hz, joinedAt_concat_self ((h.mem_iff x).not.mp hnew),
        joinedAt_concat_of_mem (hkept y hy) ((h.mem_iff y).mp hy)]
      exact joinedAt_lt ((h.mem_iff y).mp hy)

theorem Lists.erase (h : Lists add es xs) (hadd : Registers add) (x : α) :
    Lists add (es ++ [(add x).opposite]) (xs.erase x) := by
  have hinj : ∀ y, (add x).opposite = (add y).opposite ↔ x = y := by
    intro y
    constructor
    · intro he
      rw [Entry.opposite_eq_iff, Entry.opposite_opposite] at he
      exact hadd.injective he
    · rintro rfl
      rfl
  constructor
  · intro y
    simp only [h.nodup.mem_erase_iff, standing_concat, hinj, h.mem_iff]
    by_cases hy : x = y
    · simp [hy]
    · simp [hy, Ne.symm hy, hadd.ne_opposite y x]
  · apply h.ascending_concat List.erase_sublist
    intro y hy he
    rw [(hinj y).mp he] at hy
    exact h.nodup.not_mem_erase hy

end Lists

/-- What survives is what stands, in the order in which it joined. -/
theorem lists_ofEntries (es : List Entry) :
    Lists .addClient es (ofEntries es).clients ∧
      Lists .addListener es (ofEntries es).listeners := by
  -- by the last entry, since positions are counted from the front
  induction es using List.reverseRecOn with
  | nil => exact ⟨lists_nil, lists_nil⟩
  | append_singleton es e ih =>
    obtain ⟨hclients, hlisteners⟩ := ih
    rw [ofEntries_append]
    cases e with
    | addClient c => exact ⟨hclients.join registers_addClient c, hlisteners.other nofun nofun⟩
    | removeClient c => exact ⟨hclients.erase registers_addClient c, hlisteners.other nofun nofun⟩
    | addListener r => exact ⟨hclients.other nofun nofun, hlisteners.join registers_addListener r⟩
    | removeListener r =>
      exact ⟨hclients.other nofun nofun, hlisteners.erase registers_addListener r⟩

/-- A client or a listener survives exactly when the last word on it is that it came. Survivors are
listed once, by the positions where they joined. To go on from the entries that establish them is to
go on from all that was written. -/
theorem decided_by_last_word (es more : List Entry) :
    let s := ofEntries es
    ((∀ c, c ∈ s.clients ↔ lastWord es (.addClient c) = some (.addClient c)) ∧
      ∀ r, r ∈ s.listeners ↔ lastWord es (.addListener r) = some (.addListener r)) ∧
    (s.clients.Nodup ∧ s.listeners.Nodup) ∧
    ((∀ e ∈ s.entries, es[joinedAt es e]? = some e) ∧
      (s.clients.Pairwise fun a b => joinedAt es (.addClient a) < joinedAt es (.addClient b)) ∧
      s.listeners.Pairwise fun a b => joinedAt es (.addListener a) < joinedAt es (.addListener b)) ∧
    ofEntries (es ++ more) = ofEntries (s.entries ++ more) := by
  intro s
  obtain ⟨hclients, hlisteners⟩ := lists_ofEntries es
  have hstands : ∀ e ∈ s.entries, e ∈ standing es e := by
    intro e he
    simp only [entries, List.mem_append, List.mem_map] at he
    rcases he with ⟨c, hc, rfl⟩ | ⟨r, hr, rfl⟩
    · exact (hclients.mem_iff c).mp hc
    · exact (hlisteners.mem_iff r).mp hr
  refine ⟨⟨fun c => ?_, fun r => ?_⟩, ⟨hclients.nodup, hlisteners.nodup⟩,
    ⟨fun e he => getElem?_joinedAt (hstands e he), hclients.ascending, hlisteners.ascending⟩, ?_⟩
  · rw [lastWord_eq_some_iff]
    exact hclients.mem_iff c
  · rw [lastWord_eq_some_iff]
    exact hlisteners.mem_iff r
  · rw [ofEntries_append, ofEntries_append, ofEntries_entries (distinct_ofEntries es)]

/-- A client that comes again is listed after those that stayed. -/
example : (ofEntries [.addClient "/a", .addClient "/b", .addClient "/a", .removeClient "/a",
    .addClient "/a"]).clients = ["/b", "/a"] := by
  decide

end Surviving

end ConfigDaemon.Log
