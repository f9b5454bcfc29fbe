import ConfigDaemon.Proofs.Core.Changes
import ConfigDaemon.Proofs.Remote.Watch

/-! # Identity of subscriptions

An endpoint goes on reporting every subscription under the identifier that its owner got for it,
until a new subscription gets an identifier that its owner has in use for another one, or a daemon
that starts gives out an identifier that it has still to replace. Then it is mistaken for good
about one of the two.
-/

namespace ConfigDaemon.Watch

open ConfigDaemon.Core

/-- Whatever the daemon sends to the endpoint is reported under the identifier that the owner got
for the subscription, and no two subscriptions are reported under one. -/
structure Faithful (w : Watch) : Prop where
  reported : ∀ n, w.core.Notifies w.endpoint.address n →
    ∃ h ∈ w.held, h.database = n.database ∧ h.current = n.id ∧
      (w.endpoint.handle (.notify n)).1.2 = some (.notify { n with id := h.stable })
  distinct : w.held.Pairwise fun h h' => h.database = h'.database →
    w.endpoint.stableId h.database h.current ≠ w.endpoint.stableId h'.database h'.current

/-- The move makes an identifier mean two subscriptions. -/
def Clash (w : Watch) : Move → Prop
  | .subscribe database location =>
    ∃ id, (w.core.subscribe database location w.endpoint.address).1 = .ok id ∧
      ∃ h ∈ w.held, h.database = database ∧ h.stable = id
  | .act _ => False
  | .restart peers _ => ¬ Endpoint.InOrder (w.told peers)

/-- The endpoint knows each subscription by the identifier that the owner got for it. -/
structure Recalls (w : Watch) : Prop where
  known : ∀ h ∈ w.held, w.endpoint.stableId h.database h.current = h.stable
  apart : w.held.Pairwise fun h h' => h.database = h'.database → h.stable ≠ h'.stable

variable {w : Watch} {database : Option String} {location : String} {h h' : Alias}

theorem pairwise_stable_iff (hknown : ∀ h ∈ w.held, w.endpoint.stableId h.database h.current =
    h.stable) :
    (w.held.Pairwise fun h h' => h.database = h'.database →
      w.endpoint.stableId h.database h.current ≠ w.endpoint.stableId h'.database h'.current) ↔
    w.held.Pairwise fun h h' => h.database = h'.database → h.stable ≠ h'.stable := by
  refine List.Pairwise.iff_of_mem fun hh hh' => ?_
  rw [hknown _ hh, hknown _ hh']

theorem faithful_iff (hw : w.Matches) : w.Faithful ↔ w.Recalls := by
  constructor
  · intro hf
    have hknown : ∀ h ∈ w.held, w.endpoint.stableId h.database h.current = h.stable := by
      intro h hh
      obtain ⟨s, hs, hclient⟩ := serves_iff.mp ((hw.live _ _).mp ⟨h, hh, rfl, rfl⟩)
      have hn := notifies_location hs none
      rw [hclient] at hn
      obtain ⟨h', hh', hd, hc, he⟩ := hf.reported _ hn
      obtain rfl := Endpoint.eq_of_pairwise_ne hw.apart hh' hh hd hc
      exact congrArg Notification.id (Event.notify.inj (Option.some.inj he))
    exact ⟨hknown, (pairwise_stable_iff hknown).mp hf.distinct⟩
  · intro hr
    refine ⟨fun n hn => ?_, (pairwise_stable_iff hr.known).mpr hr.apart⟩
    obtain ⟨h, hh, hd, hc⟩ := (hw.live _ _).mpr (serves_iff.mpr hn.exists_listener?)
    refine ⟨h, hh, hd, hc, ?_⟩
    rw [← hr.known h hh, hd, hc]
    rfl

/-- A new subscription is known as itself; the others keep their identifiers if it is none of
them. -/
theorem recalls_subscribe_iff (hw : w.Matches) (hr : w.Recalls) :
    (w.step (.subscribe database location)).Recalls ↔
      ¬ w.Clash (.subscribe database location) := by
  rcases subscribe_spec w.core database location w.endpoint.address with
    ⟨f, he⟩ | ⟨id, c', he, hnone, -⟩
  · rw [step, Clash, he]
    exact iff_of_true ⟨hr.known, hr.apart⟩ (by rintro ⟨id, hid, -⟩; cases hid)
  · have hcurrent : ∀ h ∈ w.held, h.database = database → h.current ≠ id := by
      intro h hh hd hc
      obtain ⟨s, hs, -⟩ := serves_iff.mp ((hw.live _ _).mp ⟨h, hh, hd, hc⟩)
      rw [hnone] at hs
      cases hs
    have hclash : w.Clash (.subscribe database location) ↔
        ∃ h ∈ w.held, h.database = database ∧ h.stable = id := by
      rw [Clash, he]
      constructor
      · rintro ⟨_, ⟨⟩, hh⟩; exact hh
      · exact fun hh => ⟨id, rfl, hh⟩
    rw [hclash, step, he]
    constructor
    · rintro hr' ⟨h, hh, hd, hs⟩
      exact (List.pairwise_append.mp hr'.apart).2.2 h hh ⟨database, id, id⟩
        (List.mem_singleton_self _) hd hs
    · intro hno
      refine ⟨List.forall_mem_append.mpr ⟨fun h hh => ?_, List.forall_mem_singleton.mpr ?_⟩,
        List.pairwise_append.mpr
          ⟨hr.apart, List.pairwise_singleton _ _, fun h hh h' hh' hd hs => ?_⟩⟩
      · refine (Endpoint.stableId_forget_of_ne fun hd => ⟨hcurrent h hh hd, ?_⟩).trans
          (hr.known h hh)
        rw [hr.known h hh]
        exact fun hs => hno ⟨h, hh, hd, hs⟩
      · exact Endpoint.stableId_forget_self _ _ _
      · obtain rfl := List.mem_singleton.mp hh'
        exact hno ⟨h, hh, hd, hs⟩

theorem recalls_restart_iff (hw : w.Matches) (hr : w.Recalls) (peers : Peers)
    (order : List String) :
    (w.step (.restart peers order)).Recalls ↔ ¬ w.Clash (.restart peers order) := by
  have hapart := apart_told hw peers
  have hstable : ∀ k ∈ w.told peers, ∃ h ∈ w.held, h.database = k.database ∧
      h.current = k.oldId ∧ w.endpoint.stableId k.database k.oldId = h.stable := by
    intro k hk
    obtain ⟨h, hh, hd, hc⟩ := exists_held_of_told hw hk
    refine ⟨h, hh, hd, hc, ?_⟩
    rw [← hr.known h hh, hd, hc]
  have hends : (w.step (.restart peers order)).endpoint = w.endpoint.rekeyAll (w.told peers) := rfl
  rw [Clash, not_not]
  constructor
  -- out of order some subscription is mistaken in the end, and that one is held
  · intro hr'
    by_contra ho
    have hown : (w.told peers).Pairwise fun k l => k.database = l.database →
        w.endpoint.stableId k.database k.oldId ≠ w.endpoint.stableId l.database l.oldId := by
      refine List.Pairwise.imp_of_mem ?_ hapart.old
      intro k l hk hl hold hd he
      obtain ⟨h, hh, hhd, hhc, hs⟩ := hstable k hk
      obtain ⟨h', hh', hhd', hhc', hs'⟩ := hstable l hl
      obtain rfl := Endpoint.eq_of_pairwise_ne hr.apart hh hh' (hhd.trans (hd.trans hhd'.symm))
        (hs.symm.trans (he.trans hs'))
      exact hold hd (hhc.symm.trans hhc')
    obtain ⟨k, hk, hne⟩ := Endpoint.exists_mistaken_of_not_inOrder hapart hown ho
    obtain ⟨h, hh, hd, hc, hs⟩ := hstable k hk
    have hheld : { h with current := k.newId } ∈ (w.step (.restart peers order)).held :=
      List.mem_filterMap.mpr ⟨h, hh, follow_of_mem hapart hk hd.symm hc.symm⟩
    have hknown := hr'.known _ hheld
    rw [hends] at hknown
    exact hne ((hd ▸ hknown).trans hs.symm)
  · intro ho
    constructor
    · intro h' hh'
      obtain ⟨h, hh, hf⟩ := List.mem_filterMap.mp hh'
      obtain ⟨k, hk, hd, hc, rfl⟩ := follow_eq_some hf
      rw [hends, ← hr.known h hh, ← hd, ← hc]
      exact Endpoint.stableId_rekeyAll hapart ho k hk
    · refine List.Pairwise.filterMap _ (fun h h' hne g hg g' hg' hd hs => ?_) hr.apart
      obtain ⟨k, -, -, -, rfl⟩ := follow_eq_some hg
      obtain ⟨l, -, -, -, rfl⟩ := follow_eq_some hg'
      exact hne hd hs

theorem faithful_step_iff (hw : w.Matches) (hf : w.Faithful) {m : Move}
    (hm : m.Plain w.endpoint.address) : (w.step m).Faithful ↔ ¬ w.Clash m := by
  have hr := (faithful_iff hw).mp hf
  rw [faithful_iff (matches_step hw hm)]
  cases m with
  | subscribe database location => exact recalls_subscribe_iff hw hr
  | act a =>
    refine iff_of_true ⟨fun h hh => ?_, hr.apart.filter _⟩ id
    exact hr.known h (List.mem_filter.mp hh).1
  | restart peers order => exact recalls_restart_iff hw hr peers order

/-! ## Runs -/

theorem forall_prefix_cons_iff {α : Type} {P : List α → Prop} {a : α} {xs : List α} :
    (∀ pre, pre <+: a :: xs → P pre) ↔ P [] ∧ ∀ pre, pre <+: xs → P (a :: pre) := by
  constructor
  · intro h
    exact ⟨h [] List.nil_prefix, fun pre hpre => h _ (List.cons_prefix_cons.mpr ⟨rfl, hpre⟩)⟩
  · rintro ⟨hnil, hcons⟩ pre hpre
    rcases List.prefix_cons_iff.mp hpre with rfl | ⟨pre', rfl, hpre'⟩
    · exact hnil
    · exact hcons pre' hpre'

theorem forall_prefix_append_cons_iff {α : Type} {Q : List α → α → Prop} {a : α} {xs : List α} :
    (∀ pre b, pre ++ [b] <+: a :: xs → Q pre b) ↔
      Q [] a ∧ ∀ pre b, pre ++ [b] <+: xs → Q (a :: pre) b := by
  constructor
  · intro h
    refine ⟨h [] a (List.cons_prefix_cons.mpr ⟨rfl, List.nil_prefix⟩), fun pre b hpre => ?_⟩
    exact h (a :: pre) b (List.cons_prefix_cons.mpr ⟨rfl, hpre⟩)
  · rintro ⟨hnil, hcons⟩ pre b hpre
    cases pre with
    | nil =>
      obtain ⟨rfl, -⟩ := List.cons_prefix_cons.mp hpre
      exact hnil
    | cons c pre =>
      obtain ⟨rfl, hpre'⟩ := List.cons_prefix_cons.mp hpre
      exact hcons pre b hpre'

/-- The first move that clashes is the first after which the endpoint is mistaken. -/
theorem faithful_run_iff (hw : w.Matches) (hf : w.Faithful) {moves : List Move}
    (hmoves : ∀ m ∈ moves, m.Plain w.endpoint.address) :
    (∀ pre, pre <+: moves → (w.run pre).Faithful) ↔
      ∀ pre m, pre ++ [m] <+: moves → ¬ (w.run pre).Clash m := by
  induction moves generalizing w with
  | nil =>
    constructor
    · intro _ pre m hpre
      have hnil := List.prefix_nil.mp hpre
      exact absurd hnil (List.append_ne_nil_of_right_ne_nil _ (List.cons_ne_nil _ _))
    · intro _ pre hpre
      obtain rfl := List.prefix_nil.mp hpre
      exact hf
  | cons m moves ih =>
    obtain ⟨hm, hrest⟩ := List.forall_mem_cons.mp hmoves
    rw [← address_step w m] at hrest
    have hstep := faithful_step_iff hw hf hm
    have hw' := matches_step hw hm
    rw [forall_prefix_cons_iff, forall_prefix_append_cons_iff]
    constructor
    · rintro ⟨-, hall⟩
      have hf' : (w.step m).Faithful := hall [] List.nil_prefix
      exact ⟨hstep.mp hf', (ih hw' hf' hrest).mp hall⟩
    · rintro ⟨hno, hall⟩
      exact ⟨hf, (ih hw' (hstep.mpr hno) hrest).mpr hall⟩

theorem faithful_start (c : Core) {address : String} (hnone : ∀ r ∈ c.records, r.client ≠ address)
    (hu : c.Unambiguous) : (start c address).Faithful := by
  refine ⟨fun n hn => ?_, .nil⟩
  obtain ⟨r, hr, -, -, hclient⟩ :=
    (serves_iff_mem_records hu).mp (serves_iff.mpr hn.exists_listener?)
  exact (hnone r hr hclient).elim

/-- From any point in the history of daemons on a disk: the subscriptions of a new endpoint stay
what it is served, and it is faithful all along if and only if no move clashes. -/
theorem faithful_iff_no_clash {place : Log.Place} {disk : Disk} (hd : Log.Usable place disk)
    (idleLimit : Nat) {gs : List Generation} (hne : gs ≠ [])
    (hgs : ∀ g ∈ gs, ∀ a ∈ g.acts, a.Plain) {address : String} (hline : '\n' ∉ address.toList)
    (hnone : ∀ r ∈ ((Core.start place idleLimit disk).generations gs).records, r.client ≠ address)
    {moves : List Move} (hmoves : ∀ m ∈ moves, m.Plain address) :
    let w := start ((Core.start place idleLimit disk).generations gs) address
    (∀ pre, pre <+: moves → (w.run pre).Tracks) ∧
      ((∀ pre, pre <+: moves → (w.run pre).Faithful) ↔
        ∀ pre m, pre ++ [m] <+: moves → ¬ (w.run pre).Clash m) := by
  intro w
  have hc : ((Core.start place idleLimit disk).generations gs).Settled :=
    settled_generations (c := Core.start place idleLimit disk) (fresh_start hd idleLimit) hne hgs
  have hw : w.Matches := matches_start hc hline hnone
  refine ⟨fun pre hpre => ?_,
    faithful_run_iff hw (faithful_start _ hnone hc.sound.unambiguous) hmoves⟩
  exact (matches_run hw fun m hm => hmoves m (hpre.subset hm)).live

/-- An endpoint that is told a smaller identifier and then gets its old one for a new subscription
no longer knows the first. -/
theorem mistaken_after_subscribe :
    let peers : Peers := ⟨fun _ => true, fun _ _ => true, fun _ _ => .taken⟩
    let gs : List Generation := [⟨peers, [], [.subscribe none "/x" "/o"]⟩]
    let moves : List Move := [.subscribe none "/a", .act (.unsubscribe none 1), .restart peers [],
      .subscribe none "/b"]
    let w := start ((Core.start ⟨"/state", "log"⟩ 60 .empty).generations gs) "/e"
    (∀ pre, pre <+: moves → (w.run pre).Tracks) ∧
      ¬ ∀ pre, pre <+: moves → (w.run pre).Faithful := by
  intro peers gs moves w
  have hd : Log.Usable ⟨"/state", "log"⟩ .empty := trivial
  have hmain : PlainAddress none := nofun
  have hgs : ∀ g ∈ gs, ∀ a ∈ g.acts, a.Plain := by simp [gs, Act.Plain, hmain]
  have hmoves : ∀ m ∈ moves, m.Plain "/e" := by simp [moves, Move.Plain, Act.Plain, hmain]
  have hnone : ∀ r ∈ ((Core.start ⟨"/state", "log"⟩ 60 .empty).generations gs).records,
      r.client ≠ "/e" := by decide +kernel
  obtain ⟨htracks, hiff⟩ :=
    faithful_iff_no_clash hd 60 (List.cons_ne_nil _ _) hgs (by decide) hnone hmoves
  refine ⟨htracks, fun hall => ?_⟩
  refine hiff.mp hall (moves.take 3) (.subscribe none "/b") (List.prefix_refl _) ?_
  exact ⟨2, by decide +kernel, ⟨none, 1, 2⟩, by decide +kernel, rfl, rfl⟩

end ConfigDaemon.Watch
