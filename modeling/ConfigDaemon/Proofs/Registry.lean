import Mathlib.Data.List.Nodup
import Mathlib.Data.List.Perm.Subperm
import ConfigDaemon.Proofs.Table
import ConfigDaemon.Registry

/-! # Identifiers of listeners

A registry gives out identifiers that are neither zero nor in use, and has one to give as long as
not all are in use. Since listeners are stored under their identifiers, a registry is told by the
subscriptions that it has under them.
-/

namespace ConfigDaemon

theorem succ_of_lt {a b : UInt32} (h : a < b) : a + 1 ≠ 0 ∧ a < a + 1 ∧ a + 1 ≤ b := by
  have hlt := UInt32.lt_iff_toNat_lt.mp h
  have hsucc : (a + 1).toNat = a.toNat + 1 := by
    have hsize := b.toNat_lt_size
    rw [UInt32.toNat_add]
    exact Nat.mod_eq_of_lt (by simp only [UInt32.size, UInt32.toNat_one] at hsize ⊢; omega)
  refine ⟨fun hzero => ?_, ?_, ?_⟩
  · rw [hzero] at hsucc
    exact absurd hsucc (Nat.succ_ne_zero _).symm
  · rw [UInt32.lt_iff_toNat_lt, hsucc]
    exact Nat.lt_succ_self _
  · rw [UInt32.le_iff_toNat_le, hsucc]
    exact hlt

structure Subscription where
  location : String
  client : String
  deriving DecidableEq, Repr

namespace Registry

/-! ## Subscriptions by identifier -/

def subscriptions (r : Registry) : Table UInt32 Subscription :=
  r.byId.mapValues fun _ l => ⟨l.location, l.client⟩

theorem id_of_find? {r : Registry} {id : UInt32} {l : Listener} (h : r.byId.find? id = some l) :
    l.id = id :=
  r.keyed (id, l) (Table.mem_rows.mpr h)

theorem get?_eq (r : Registry) (id : UInt32) :
    r.get? id = (r.subscriptions.find? id).map fun s => ⟨id, s.location, s.client⟩ := by
  rw [get?, subscriptions, Table.find?_mapValues, Option.map_map]
  cases h : r.byId.find? id with
  | none => rfl
  | some l => rw [← id_of_find? h]; rfl

theorem find?_byId_eq_none {r : Registry} {id : UInt32} :
    r.byId.find? id = none ↔ r.subscriptions.find? id = none := by
  rw [subscriptions, Table.find?_mapValues, Option.map_eq_none_iff]

theorem keys_subscriptions (r : Registry) : r.subscriptions.keys = r.byId.keys :=
  Table.keys_mapValues _ _

theorem length_keys (r : Registry) : r.subscriptions.keys.length = r.size := by
  rw [keys_subscriptions, Table.length_keys]
  rfl

theorem length_toList (r : Registry) : r.toList.length = r.size :=
  List.length_map _

theorem toList_eq (r : Registry) :
    r.toList = r.subscriptions.rows.map fun (id, s) => ⟨id, s.location, s.client⟩ := by
  rw [toList, subscriptions, Table.mapValues, Table.values, List.map_map]
  refine List.map_congr_left fun row hrow => ?_
  change row.2 = ⟨row.1, row.2.location, row.2.client⟩
  rw [← r.keyed row hrow]

theorem subscriptions_store (r : Registry) (l : Listener) :
    (r.store l).subscriptions = r.subscriptions.insert l.id ⟨l.location, l.client⟩ :=
  Table.mapValues_insert _ _ _ _

theorem subscriptions_erase (r : Registry) (id : UInt32) :
    (r.erase id).subscriptions = r.subscriptions.erase id :=
  Table.mapValues_filter r.byId _ fun i => decide (i ≠ id)

/-! ## Fresh identifiers -/

theorem firstFree_spec {used : Table UInt32 Listener} {tries : Nat} {candidate id : UInt32}
    (h : firstFree used tries candidate = some id) : id ≠ 0 ∧ used.find? id = none := by
  induction tries generalizing candidate with
  | zero => cases h
  | succ tries ih =>
    unfold firstFree at h
    split at h
    · cases h; assumption
    · exact ih h

theorem freshId_spec {r : Registry} {id : UInt32} (h : r.freshId = some id) :
    id ≠ 0 ∧ r.subscriptions.find? id = none :=
  (firstFree_spec h).imp_right find?_byId_eq_none.mp

theorem firstFree_eq_none {used : Table UInt32 Listener} {tries : Nat} {candidate : UInt32}
    (h : firstFree used tries candidate = none) :
    ∀ i < tries, candidate + .ofNat i = 0 ∨ candidate + .ofNat i ∈ used.keys := by
  induction tries generalizing candidate with
  | zero => nofun
  | succ tries ih =>
    unfold firstFree at h
    split at h
    · cases h
    · rename_i hc
      rintro (_ | i) hi
      · have hzero : candidate + UInt32.ofNat 0 = candidate := by simp
        rw [hzero, Table.mem_keys]
        rcases Decidable.not_and_iff_or_not.mp hc with hc | hc
        · exact .inl (not_not.mp hc)
        · exact .inr (Option.isSome_iff_ne_none.mpr hc)
      · have hnext : candidate + 1 + UInt32.ofNat i = candidate + UInt32.ofNat (i + 1) := by
          rw [UInt32.add_assoc, UInt32.add_comm 1, UInt32.ofNat_add]
          rfl
        rw [← hnext]
        exact ih h i (by omega)

theorem nodup_candidates {tries : Nat} (h : tries ≤ UInt32.size) (candidate : UInt32) :
    ((List.range tries).map (candidate + .ofNat ·)).Nodup := by
  refine List.Nodup.map_on ?_ List.nodup_range
  intro i hi j hj he
  have hi := Nat.lt_of_lt_of_le (List.mem_range.mp hi) h
  have hj := Nat.lt_of_lt_of_le (List.mem_range.mp hj) h
  have := congrArg UInt32.toNat ((UInt32.add_right_inj candidate).mp he)
  rwa [UInt32.toNat_ofNat_of_lt' hi, UInt32.toNat_ofNat_of_lt' hj] at this

/-- The identifiers other than zero are more than the listeners. -/
def HasRoom (r : Registry) : Prop :=
  r.size + 1 < UInt32.size

/-- As many candidates as are tried cannot all be zero or in use. -/
theorem exists_freshId {r : Registry} (h : r.HasRoom) : ∃ id, r.freshId = some id := by
  rw [← Option.isSome_iff_exists, Option.isSome_iff_ne_none]
  intro hnone
  have hused := firstFree_eq_none hnone
  change r.byId.size + 1 < UInt32.size at h
  have hsub : (List.range (r.byId.size + 2)).map (r.next + .ofNat ·) ⊆ 0 :: r.byId.keys := by
    intro id hid
    obtain ⟨i, hi, rfl⟩ := List.mem_map.mp hid
    exact List.mem_cons.mpr (hused i (List.mem_range.mp hi))
  have hlen := ((nodup_candidates (Nat.succ_le_of_lt h) r.next).subperm hsub).length_le
  rw [List.length_map, List.length_range, List.length_cons, Table.length_keys] at hlen
  omega

theorem mem_keys_of_freshId {r : Registry} (h : r.freshId = none) {id : UInt32} (hid : id ≠ 0) :
    id ∈ r.subscriptions.keys := by
  have hfull : ¬ r.HasRoom := by
    intro hroom
    obtain ⟨i, hi⟩ := exists_freshId hroom
    rw [h] at hi
    cases hi
  have hsize : UInt32.size ≤ r.byId.size + 1 := Nat.le_of_not_lt hfull
  have htried := firstFree_eq_none h (id - r.next).toNat
    (Nat.lt_succ_of_lt (Nat.lt_of_lt_of_le (UInt32.toNat_lt_size _) hsize))
  rw [UInt32.ofNat_toNat, UInt32.add_comm, UInt32.sub_add_cancel] at htried
  rw [keys_subscriptions]
  exact htried.resolve_left hid

theorem mem_toList_iff_get? {r : Registry} {l : Listener} :
    l ∈ r.toList ↔ r.get? l.id = some l := by
  rw [toList, Table.values, List.mem_map, get?, ← Table.mem_rows]
  constructor
  · rintro ⟨row, hrow, rfl⟩
    rwa [r.keyed row hrow]
  · intro h
    exact ⟨_, h, rfl⟩

theorem mem_toList {r : Registry} {l : Listener} :
    l ∈ r.toList ↔ r.subscriptions.find? l.id = some ⟨l.location, l.client⟩ := by
  rw [mem_toList_iff_get?, get?_eq, Option.map_eq_some_iff]
  constructor
  · rintro ⟨s, hs, he⟩
    rw [← he]
    exact hs
  · intro h
    exact ⟨_, h, rfl⟩

theorem filter_toList (r : Registry) (id : UInt32) :
    r.toList.filter (·.id = id) = (r.get? id).toList := by
  have hrows : r.toList.filter (·.id = id) =
      (r.subscriptions.rows.filter (·.1 = id)).map fun row =>
        ⟨row.1, row.2.location, row.2.client⟩ := by
    rw [toList_eq, List.filter_map]
    rfl
  rw [hrows, Table.filter_rows r.subscriptions.ascending, ← Table.find?, get?_eq]
  cases r.subscriptions.find? id <;> rfl

theorem ascending_toList (r : Registry) : r.toList.Pairwise fun l l' => l.id < l'.id := by
  rw [toList_eq]
  exact List.pairwise_map.mpr r.subscriptions.ascending

theorem nodup_ids (r : Registry) : (r.toList.map (·.id)).Nodup :=
  List.pairwise_map.mpr <| r.ascending_toList.imp fun hlt he =>
    absurd (he ▸ hlt) (UInt32.lt_irrefl _)

theorem nodup_toList (r : Registry) : r.toList.Nodup :=
  r.nodup_ids.of_map

/-! ## Taking listeners out -/

def only (r : Registry) (keep : Listener → Bool) : Registry where
  byId := r.byId.filter fun _ l => keep l
  next := r.next
  keyed _ h := r.keyed _ (List.mem_filter.mp h).1

theorem toList_only (r : Registry) (keep : Listener → Bool) :
    (r.only keep).toList = r.toList.filter keep := by
  rw [toList, toList, Table.values, Table.values, List.filter_map]
  rfl

theorem erase_eq_only (r : Registry) (id : UInt32) : r.erase id = r.only (·.id ≠ id) := by
  have hbyId : r.byId.erase id = r.byId.filter fun _ l => l.id ≠ id :=
    Table.filter_congr fun i l hl => by rw [id_of_find? hl]
  simp only [erase, only, hbyId]

theorem only_only (r : Registry) (keep keep' : Listener → Bool) :
    (r.only keep).only keep' = r.only fun l => keep l && keep' l := by
  simp only [only, Table.filter_filter]

theorem only_congr {r : Registry} {keep keep' : Listener → Bool}
    (h : ∀ l ∈ r.toList, keep l = keep' l) : r.only keep = r.only keep' := by
  have hbyId : r.byId.filter (fun _ l => keep l) = r.byId.filter fun _ l => keep' l :=
    Table.filter_congr fun i l hl =>
      h l (mem_toList_iff_get?.mpr (by rw [id_of_find? hl]; exact hl))
  simp only [only, hbyId]

theorem only_eq_self {r : Registry} {keep : Listener → Bool} (h : ∀ l ∈ r.toList, keep l = true) :
    r.only keep = r := by
  have hbyId : r.byId.filter (fun _ l => keep l) = r.byId :=
    Table.ext_rows <| List.filter_eq_self.mpr fun row hrow =>
      h row.2 (List.mem_map.mpr ⟨row, hrow, rfl⟩)
  simp only [only, hbyId]

theorem get?_erase (r : Registry) (id i : UInt32) :
    (r.erase id).get? i = if i = id then none else r.get? i :=
  Table.find?_erase r.byId id i

theorem snd_unsubscribeAll (r : Registry) (ids : List UInt32) :
    (r.unsubscribeAll ids).2 = r.only (·.id ∉ ids) := by
  induction ids generalizing r with
  | nil => exact (only_eq_self fun _ _ => rfl).symm
  | cons id ids ih =>
    change ((r.erase id).unsubscribeAll ids).2 = _
    rw [ih, erase_eq_only, only_only]
    simp [List.mem_cons]

theorem fst_unsubscribeAll (r : Registry) {ids : List UInt32} (h : ids.Nodup) :
    (r.unsubscribeAll ids).1 = ids.filterMap r.get? := by
  induction ids generalizing r with
  | nil => rfl
  | cons id ids ih =>
    obtain ⟨hid, hids⟩ := List.nodup_cons.mp h
    change (r.get? id).toList ++ ((r.erase id).unsubscribeAll ids).1 = _
    have hlater : ids.filterMap (r.erase id).get? = ids.filterMap r.get? :=
      List.filterMap_congr fun i hi => by
        rw [get?_erase, if_neg fun he : i = id => hid (he ▸ hi)]
    rw [ih _ hids, hlater, List.filterMap_cons]
    cases r.get? id <;> rfl

theorem snd_removeClient (r : Registry) (client : String) :
    (r.removeClient client).2 = r.only (·.client ≠ client) := by
  rw [removeClient, snd_unsubscribeAll]
  refine only_congr fun l hl => decide_eq_decide.mpr (not_congr ?_)
  simp only [List.mem_map, List.mem_filter, decide_eq_true_eq]
  constructor
  · rintro ⟨l', ⟨hl', hclient⟩, hid⟩
    rwa [← List.inj_on_of_nodup_map r.nodup_ids hl' hl hid]
  · intro hclient
    exact ⟨l, ⟨hl, hclient⟩, rfl⟩

theorem fst_removeClient (r : Registry) (client : String) :
    (r.removeClient client).1 = r.toList.filter (·.client = client) := by
  have hids : ((r.toList.filter (·.client = client)).map (·.id)).Nodup :=
    r.nodup_ids.sublist (List.filter_sublist.map _)
  rw [removeClient, fst_unsubscribeAll r hids, List.filterMap_map]
  refine (List.filterMap_congr fun l hl => ?_).trans List.filterMap_some
  exact mem_toList_iff_get?.mp (List.mem_filter.mp hl).1

theorem toList_removeClient (r : Registry) (client : String) :
    (r.removeClient client).2.toList = r.toList.filter (·.client ≠ client) := by
  rw [snd_removeClient, toList_only]

theorem subscribe_eq_some {r r' : Registry} {location client : String} {id : UInt32}
    (h : r.subscribe location client = some (id, r')) :
    r.freshId = some id ∧ r' = r.store ⟨id, location, client⟩ := by
  obtain ⟨i, hi, he⟩ := Option.map_eq_some_iff.mp h
  cases he
  exact ⟨hi, rfl⟩

variable {r r' : Registry} {l : Listener} {id : UInt32}

theorem mem_toList_of_get? (h : r.get? id = some l) : l ∈ r.toList := by
  rw [mem_toList_iff_get?, id_of_find? h]
  exact h

theorem mem_toList_subscribe {location client : String}
    (h : r.subscribe location client = some (id, r')) (hl : l ∈ r'.toList) :
    l = ⟨id, location, client⟩ ∨ l ∈ r.toList := by
  obtain ⟨-, rfl⟩ := subscribe_eq_some h
  rw [mem_toList, subscriptions_store, Table.find?_insert] at hl
  split at hl
  · rename_i hid
    subst hid
    cases hl
    exact .inl rfl
  · exact .inr (mem_toList.mpr hl)

theorem mem_toList_of_erase (h : l ∈ (r.erase id).toList) : l ∈ r.toList := by
  rw [erase_eq_only, toList_only] at h
  exact (List.mem_filter.mp h).1

/-- The identifiers in use are below the next one, which is not zero. -/
structure Leading (r : Registry) : Prop where
  next_ne : r.next ≠ 0
  lt_next : ∀ id ∈ r.subscriptions.keys, id < r.next

theorem leading_empty : empty.Leading :=
  ⟨by decide, nofun⟩

theorem Leading.subscribe_eq (h : r.Leading) (location client : String) :
    r.subscribe location client =
      some (r.next, r.store ⟨r.next, location, client⟩) := by
  have hunused : r.byId.find? r.next = none := by
    rw [← Option.not_isSome_iff_eq_none, ← Table.mem_keys, ← keys_subscriptions]
    intro hmem
    exact absurd (h.lt_next _ hmem) (UInt32.lt_irrefl _)
  rw [subscribe, freshId, firstFree, if_pos ⟨h.next_ne, hunused⟩]
  rfl

theorem Leading.next {id : UInt32} (h : r.Leading) (hid : r.next < id)
    (hnext : r'.next = r.next + 1)
    (hused : ∀ i ∈ r'.subscriptions.keys, i = r.next ∨ i ∈ r.subscriptions.keys) :
    r'.Leading := by
  obtain ⟨hne, hlt, -⟩ := succ_of_lt hid
  rw [← hnext] at hne hlt
  refine ⟨hne, fun i hi => ?_⟩
  rcases hused i hi with rfl | hi
  · exact hlt
  · exact UInt32.lt_trans (h.lt_next i hi) hlt

end Registry

end ConfigDaemon
