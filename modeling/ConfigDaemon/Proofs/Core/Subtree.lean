import Mathlib.Data.List.Infix
import ConfigDaemon.Proofs.Core.Delivered

/-! # Keeping a copy of a subtree

A subscriber who starts from the values at or below its location, and applies the notifications of
its subscription as they come, has these values again whenever nothing waits for it.
-/

namespace ConfigDaemon

namespace Notification

def isUnder (n : Notification) (address : Option String) (id : UInt32) : Bool :=
  n.database = address ∧ n.id = id

def apply (t : Table String String) (n : Notification) : Table String String :=
  t.written n.key n.value

end Notification

namespace Core

def subtree (c : Core) (address : Option String) (location : String) : Table String String :=
  (c.database address).values.filter fun key _ => Key.isBelow location key

def mirror (t : Table String String) (ns : List Notification) : Table String String :=
  ns.foldl Notification.apply t

/-- Each of the notifications, applied in turn, changes the copy. -/
def Effective : Table String String → List Notification → Prop
  | _, [] => True
  | t, n :: ns => n.apply t ≠ t ∧ Effective (n.apply t) ns

theorem effective_append {t : Table String String} {ns ms : List Notification} :
    Effective t (ns ++ ms) ↔ Effective t ns ∧ Effective (mirror t ns) ms := by
  induction ns generalizing t with
  | nil => exact (iff_of_eq (true_and _)).symm
  | cons n ns ih => rw [List.cons_append, Effective, Effective, ih, and_assoc]; rfl

variable {c : Core} {e : Event} {es : List Event} {address : Option String} {id : UInt32}
  {location owner : String}

theorem listener?_eq_get? (c : Core) (address : Option String) (id : UInt32) :
    (c.database address).listeners.get? id =
      (c.listener? address id).map fun s => ⟨id, s.location, s.client⟩ :=
  Registry.get?_eq _ _

theorem filter_told (h : c.listener? address id = some ⟨location, owner⟩) (ch : Change) :
    (c.told owner ch).filter (·.isUnder address id) =
      if ch.database = address ∧ Key.isBelow location ch.key then
        [⟨address, id, ch.key, ch.value⟩] else [] := by
  obtain ⟨database, key, value⟩ := ch
  by_cases hd : database = address
  · subst hd
    have hfilter : (c.told owner ⟨database, key, value⟩).filter (·.isUnder database id) =
        ((((c.database database).listeners.toList.filter (·.id = id)).filter
          fun l => Key.isBelow l.location key).filter (·.client = owner)).map
            fun l => ⟨database, l.id, key, value⟩ := by
      rw [told, List.filter_map, Registry.matching]
      simp only [List.filter_filter]
      refine congrArg _ (List.filter_congr fun l _ => ?_)
      simp [Notification.isUnder, Bool.and_comm, Bool.and_left_comm]
    rw [hfilter, Registry.filter_toList, listener?_eq_get?, h]
    by_cases hbelow : Key.isBelow location key = true <;> simp [hbelow]
  · rw [if_neg fun hboth => hd hboth.1, List.filter_eq_nil_iff]
    intro n hn hunder
    obtain ⟨l, -, rfl⟩ := List.mem_map.mp hn
    exact hd (of_decide_eq_true hunder).1

theorem subtree_of_values {c' : Core}
    (h : (c'.database address).values = (c.database address).values) (location : String) :
    c'.subtree address location = c.subtree address location := by
  rw [subtree, subtree, h]

/-- A change below the location changes the subtree, another one does not. -/
theorem subtree_of_commits {c' : Core} {ch : Change} (h : Commits ch c c')
    (address : Option String) (location : String) :
    c'.subtree address location =
      if ch.database = address ∧ Key.isBelow location ch.key then
        (c.subtree address location).written ch.key ch.value
      else c.subtree address location := by
  by_cases hd : ch.database = address
  · subst hd
    rw [subtree, h.values, if_pos rfl, Table.filter_written]
    simp only [true_and]
    rfl
  · rw [if_neg fun hboth => hd hboth.1]
    exact subtree_of_values ((h.values address).trans (if_neg fun he => hd he.symm)) location

/-- What an event does to a subtree is what its notifications do to a copy of it. -/
theorem subtree_meet (h : c.listener? address id = some ⟨location, owner⟩) (e : Event) :
    let ns := (c.announced owner e).filter (·.isUnder address id)
    (c.meet e).subtree address location = mirror (c.subtree address location) ns ∧
      Effective (c.subtree address location) ns := by
  intro ns
  cases e with
  | ask peers op =>
    have hspec := perform_spec peers c op
    cases hcommitted : c.committed peers op with
    | none =>
      have hns : ns = [] := by simp only [ns, announced, hcommitted]; rfl
      rw [hcommitted] at hspec
      rw [hns]
      exact ⟨subtree_of_values (hspec.values address) location, trivial⟩
    -- the change concerns the subscription or not, and so does its only notification
    | some ch =>
      have hns : ns = if ch.database = address ∧ Key.isBelow location ch.key then
          [⟨address, id, ch.key, ch.value⟩] else [] := by
        simp only [ns, announced, hcommitted]
        exact filter_told h ch
      rw [hcommitted] at hspec
      have hsubtree := subtree_of_commits hspec address location
      rw [hns]
      split at hsubtree <;> rename_i hconcerned
      · rw [if_pos hconcerned]
        refine ⟨hsubtree, ?_, trivial⟩
        obtain ⟨rfl, hbelow⟩ := hconcerned
        rw [Notification.apply, ne_eq, Table.written_eq_self_iff, subtree,
          Table.find?_filter_keys, if_pos hbelow]
        exact hspec.differs
      · rw [if_neg hconcerned]
        exact ⟨hsubtree, trivial⟩
  | deliver peers => exact ⟨rfl, trivial⟩
  | disturb disk => exact ⟨rfl, trivial⟩

theorem subtree_through (h : ∀ seen, seen <+: es →
      (c.through seen).listener? address id = some ⟨location, owner⟩) :
    let ns := (noticed owner c es).filter (·.isUnder address id)
    (c.through es).subtree address location = mirror (c.subtree address location) ns ∧
      Effective (c.subtree address location) ns := by
  induction es generalizing c with
  | nil => exact ⟨rfl, trivial⟩
  | cons e es ih =>
    have hnow : c.listener? address id = some ⟨location, owner⟩ := h [] List.nil_prefix
    obtain ⟨hmeet, heffective⟩ := subtree_meet hnow e
    obtain ⟨hthrough, hrest⟩ := ih (c := c.meet e) fun seen hseen =>
      h (e :: seen) ((List.prefix_cons_inj e).mpr hseen)
    simp only [noticed, List.filter_append]
    rw [effective_append, mirror, List.foldl_append]
    rw [hmeet] at hthrough hrest
    exact ⟨hthrough, heffective, hrest⟩

/-- While a subscription goes on and its owner is awake, the notifications under its identifier
make of a copy of the subtree what the subtree is by the time that nothing waits for the owner, and
none of them is redundant. They are all that the owner is handed under the identifier if it has
not had that earlier, as when the copy is made at the time of the subscription; else those come
first that are for the earlier subscription. -/
theorem mirrors_subtree (place : Log.Place) (idleLimit : Nat) (disk : Disk)
    {before after : List Event}
    (hlive : ∀ seen, seen <+: after →
      ((start place idleLimit disk).through (before ++ seen)).listener? address id =
        some ⟨location, owner⟩)
    (hawake : ∀ e ∈ after, e.Awake owner)
    (hempty : ((start place idleLimit disk).through (before ++ after)).queued owner = []) :
    let c := (start place idleLimit disk).through before
    let copy := c.subtree address location
    let waiting := (c.queued owner).filter (·.isUnder address id)
    ∃ ns, (received owner c after).filter (·.isUnder address id) = waiting ++ ns ∧
      mirror copy ns = (c.through after).subtree address location ∧ Effective copy ns ∧
      ((∀ seen s, seen <+: before → seen ≠ before →
        ((start place idleLimit disk).through seen).listener? address id = some s →
          s.client ≠ owner) → waiting = []) := by
  intro c copy waiting
  simp only [through_append] at hlive hempty
  obtain ⟨hmirror, heffective⟩ := subtree_through hlive
  have hall := received_append_queued (c := c) hawake
  rw [hempty, List.append_nil] at hall
  refine ⟨_, ?_, hmirror.symm, heffective, fun hnew => ?_⟩
  · rw [hall, List.filter_append]
  · rw [List.filter_eq_nil_iff]
    intro n hn hunder
    obtain ⟨seen, hseen, hne, s, hs, hclient⟩ := exists_listener?_of_queued rfl hn
    obtain ⟨hdatabase, hid⟩ := of_decide_eq_true hunder
    rw [hdatabase, hid] at hs
    exact hnew seen s hseen hne hs hclient

/-- Three changes below the location of a subscription and one beside it. -/
theorem mirrors_three_changes :
    let peers : Peers := ⟨fun _ => true, fun _ _ => true, fun _ _ => .taken⟩
    let before : List Event :=
      [.ask peers (.set none "/a/k" "1"), .ask peers (.subscribe none "/a" "/run/c")]
    let after : List Event :=
      [.ask peers (.set none "/a/k" "2"), .ask peers (.set none "/b" "3"),
        .ask peers (.unset none "/a/k"), .ask peers (.set none "/a" "4"), .deliver peers]
    let c := (start ⟨"/var/confd", "saved"⟩ 60 .empty).through before
    let ns : List Notification :=
      [⟨none, 1, "/a/k", some "2"⟩, ⟨none, 1, "/a/k", none⟩, ⟨none, 1, "/a", some "4"⟩]
    received "/run/c" c after = ns ∧
      mirror (c.subtree none "/a") ns = (c.through after).subtree none "/a" ∧
      Effective (c.subtree none "/a") ns := by
  intro peers before after c ns
  have hlive : ∀ seen, seen <+: after →
      ((start ⟨"/var/confd", "saved"⟩ 60 .empty).through (before ++ seen)).listener? none 1 =
        some ⟨"/a", "/run/c"⟩ := by
    have hinits : ∀ seen ∈ after.inits,
        ((start ⟨"/var/confd", "saved"⟩ 60 .empty).through (before ++ seen)).listener? none 1 =
          some ⟨"/a", "/run/c"⟩ := by decide +kernel
    exact fun seen hseen => hinits seen ((List.mem_inits _ _).mpr hseen)
  have hawake : ∀ e ∈ after, e.Awake "/run/c" := by
    simp only [after, List.forall_mem_cons]
    exact ⟨rfl, rfl, rfl, rfl, fun _ => rfl, nofun⟩
  have hempty : ((start ⟨"/var/confd", "saved"⟩ 60 .empty).through (before ++ after)).queued
      "/run/c" = [] := by decide +kernel
  have hfresh : ∀ seen ∈ [before.take 0, before.take 1],
      ((start ⟨"/var/confd", "saved"⟩ 60 .empty).through seen).listener? none 1 = none := by
    decide +kernel
  have hreceived : received "/run/c" c after = ns := by decide +kernel
  have hunder : ns.filter (·.isUnder none 1) = ns := by decide
  obtain ⟨ms, hms, hmirror, heffective, hnew⟩ := mirrors_subtree _ _ _ hlive hawake hempty
  rw [hnew, List.nil_append] at hms
  · obtain rfl : ns = ms := by rw [← hms, ← hunder, ← hreceived]
    exact ⟨hreceived, hmirror, heffective⟩
  · intro seen s hseen hne hs
    have hinits : before.inits = [before.take 0, before.take 1] ++ [before] := rfl
    have hmem := (List.mem_inits _ _).mpr hseen
    rw [hinits, List.mem_append, List.mem_singleton, or_iff_left hne] at hmem
    exact absurd ((hfresh seen hmem).symm.trans hs) nofun

end Core

end ConfigDaemon
