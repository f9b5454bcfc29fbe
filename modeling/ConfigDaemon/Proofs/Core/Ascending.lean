import ConfigDaemon.Proofs.Core.Notices

/-! # Records in ascending order

A daemon that starts gives out identifiers from one on. If the records of each database come in the
order of their identifiers, no record gets an identifier above its own, so none gets that of a
record that is still to come.
-/

namespace ConfigDaemon

namespace Core

open Log

variable {c c' : Core} {r : Log.Record} {rs : List Log.Record}

def Ascending (rs : List Log.Record) : Prop :=
  rs.Pairwise fun r s => r.database = s.database → r.id < s.id

instance (rs : List Log.Record) : Decidable (Ascending rs) :=
  inferInstanceAs (Decidable (List.Pairwise _ rs))

/-- No identifier that is given out from now on is above that of a record. -/
def Ahead (c : Core) (rs : List Log.Record) : Prop :=
  ∀ r ∈ rs, (c.database (Database.ofLogName r.database)).listeners.Leading ∧
    (c.database (Database.ofLogName r.database)).listeners.next ≤ r.id

theorem Ascending.idsApart (h : Ascending rs) : IdsApart rs :=
  h.imp fun hlt hd => UInt32.ne_of_lt (hlt (Database.ofLogName_inj hd))

theorem Ahead.next (h : c.Ahead (r :: rs)) (ha : Ascending (r :: rs))
    {listeners : Registry}
    (hnext : listeners.next = (c.database (Database.ofLogName r.database)).listeners.next + 1)
    (hused : ∀ i ∈ listeners.subscriptions.keys,
      i = (c.database (Database.ofLogName r.database)).listeners.next ∨
        i ∈ (c.database (Database.ofLogName r.database)).listeners.subscriptions.keys)
    (hc' : ∀ a, (c'.database a).listeners =
      if a = Database.ofLogName r.database then listeners else (c.database a).listeners) :
    c'.Ahead rs := by
  obtain ⟨hlead, hle⟩ := h r List.mem_cons_self
  intro s hs
  rw [hc']
  split
  · rename_i hsame
    have hlt : r.id < s.id := (List.pairwise_cons.mp ha).1 s hs (Database.ofLogName_inj hsame.symm)
    have hbelow := UInt32.lt_of_le_of_lt hle hlt
    refine ⟨hlead.next hbelow hnext hused, ?_⟩
    rw [hnext]
    exact (succ_of_lt hbelow).2.2
  · exact h s (List.mem_cons_of_mem _ hs)

theorem listeners_setDatabase (c : Core) (address : Option String) (d : Database)
    (a : Option String) :
    ((c.setDatabase address d).database a).listeners =
      if a = address then d.listeners else (c.database a).listeners := by
  rw [database_setDatabase]
  split <;> rfl

theorem listeners_setDatabase_again (c : Core) (address : Option String) (d d' : Database)
    (a : Option String) :
    (((c.setDatabase address d).setDatabase address d').database a).listeners =
      if a = address then d'.listeners else (c.database a).listeners := by
  rw [listeners_setDatabase, listeners_setDatabase]
  split <;> rfl

theorem Ahead.restoreListener (h : c.Ahead (r :: rs)) (ha : Ascending (r :: rs))
    (accepts : String → Rekeying → Bool) : (c.restoreListener accepts r).2.Ahead rs := by
  by_cases hr : r.Valid
  · rw [restoreListener_of_valid hr, (h r List.mem_cons_self).1.subscribe_eq]
    simp only
    split
    · refine h.next ha rfl (fun i hi => ?_) (listeners_setDatabase _ _ _)
      rw [Registry.subscriptions_store] at hi
      exact Table.mem_keys_insert.mp hi
    · refine h.next ha rfl (fun i hi => ?_) (listeners_setDatabase_again _ _ _ _)
      rw [Registry.subscriptions_erase, Registry.subscriptions_store] at hi
      exact Table.mem_keys_insert.mp (Table.mem_keys_erase.mp hi).2
  · rw [restoreListener_of_not_valid hr]
    exact fun s hs => h s (List.mem_cons_of_mem _ hs)

theorem Blank.ahead (h : c.Blank) (peers : Peers) :
    (c.revived peers).Ahead c.surviving.listeners := by
  have hrevives := revives_revived c peers
  have hempty : ∀ a, (c.revived peers).database a = .empty := by
    intro a
    cases a with
    | none => exact hrevives.main.trans h.main
    | some a =>
      rw [database, database?, hrevives.others, h.others]
      rfl
  intro r hr
  rw [hempty]
  refine ⟨Registry.leading_empty, UInt32.le_iff_toNat_le.mpr ?_⟩
  have hid : r.id ≠ 0 := (recordable_of_mem_surviving hr).complete.2 r.id rfl
  exact Nat.one_le_iff_ne_zero.mpr fun hzero => hid (UInt32.toNat_inj.mp hzero)

/-! ## Notices in order -/

/-- A valid record is told of an identifier that is not above its own. -/
theorem Ahead.exists_notice (h : c.Ahead (r :: rs)) (hr : r.Valid)
    (accepts : String → Rekeying → Bool) :
    ∃ n, (c.restoreListener accepts r).1 = some n ∧ n.Concerns r ∧
      n.rekeying.newId ≤ n.rekeying.oldId := by
  obtain ⟨hlead, hle⟩ := h r List.mem_cons_self
  rw [restoreListener_of_valid hr, hlead.subscribe_eq]
  simp only
  split <;> exact ⟨_, rfl, ⟨hr, rfl, rfl⟩, hle⟩

theorem Ahead.notices (h : c.Ahead rs) (ha : Ascending rs) (accepts : String → Rekeying → Bool) :
    (∀ r ∈ rs, r.Valid → ∃ n ∈ (c.restoreAll accepts rs).1.2, n.Concerns r) ∧
      ∀ n ∈ (c.restoreAll accepts rs).1.2, n.rekeying.newId ≤ n.rekeying.oldId := by
  induction rs generalizing c with
  | nil => exact ⟨nofun, nofun⟩
  | cons r rs ih =>
    obtain ⟨htold, hle⟩ := ih (h.restoreListener ha accepts) (List.pairwise_cons.mp ha).2
    have hcons : (c.restoreAll accepts (r :: rs)).1.2 = (c.restoreListener accepts r).1.toList ++
        ((c.restoreListener accepts r).2.restoreAll accepts rs).1.2 := rfl
    rw [hcons]
    refine ⟨fun s hs hv => ?_, fun n hn => ?_⟩
    · rcases List.mem_cons.mp hs with rfl | hs
      · obtain ⟨n, hn, hconcerns, -⟩ := h.exists_notice hv accepts
        exact ⟨n, List.mem_append_left _ (Option.mem_toList.mpr hn), hconcerns⟩
      · obtain ⟨n, hn, hconcerns⟩ := htold s hs hv
        exact ⟨n, List.mem_append_right _ hn, hconcerns⟩
    · rcases List.mem_append.mp hn with hn | hn
      · have hn := Option.mem_toList.mp hn
        by_cases hr : r.Valid
        · obtain ⟨m, hm, -, hle⟩ := h.exists_notice hr accepts
          cases hn.symm.trans hm
          exact hle
        · rw [restoreListener_of_not_valid hr] at hn
          cases hn
      · exact hle n hn

/-- No notice is of an identifier that a later one says is old. -/
theorem Ahead.newId_ne_oldId (h : c.Ahead rs) (ha : Ascending rs) (hu : c.Unambiguous)
    (accepts : String → Rekeying → Bool) :
    (c.restoreAll accepts rs).1.2.Pairwise fun n m =>
      n.rekeying.database = m.rekeying.database → n.rekeying.newId ≠ m.rekeying.oldId := by
  have hold : (c.restoreAll accepts rs).1.2.Pairwise fun n m =>
      n.rekeying.database = m.rekeying.database → n.rekeying.oldId < m.rekeying.oldId := by
    refine (restoresAll_restoreAll hu accepts rs).pairwise ha fun r s n m hlt hn hm hd => ?_
    rw [hn.rekeying, hm.rekeying] at hd ⊢
    exact hlt (Database.ofLogName_inj hd)
  -- a new identifier is at most the old one, and later old ones are larger
  refine hold.imp_of_mem fun {n m} hn _ hlt hd => ?_
  exact UInt32.ne_of_lt (UInt32.lt_of_le_of_lt ((h.notices ha accepts).2 n hn) (hlt hd))

end Core

end ConfigDaemon
