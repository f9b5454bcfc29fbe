import ConfigDaemon.Proofs.Remote.Aliases

/-! # Unsubscribing

An endpoint that knows its subscriptions cancels the connection that one of them has now. The
others stay as they were, unless one has a connection whose identifier is the one under which the
owner knew the subscription that was cancelled.
-/

namespace ConfigDaemon.Endpoint

/-- The aliases are entries for live subscriptions, one for each identifier of the daemon, and
every subscription is known under an identifier of its own. -/
structure Knows (e : Endpoint) (held : List Alias) : Prop where
  keyed : e.aliases.Pairwise fun a b => a.database = b.database → a.current ≠ b.current
  entries : ∀ a ∈ e.aliases, ∃ h ∈ held, h.database = a.database ∧ h.current = a.current
  known : ∀ h ∈ held, e.stableId h.database h.current = h.stable
  apart : held.Pairwise fun h h' => h.database = h'.database → h.stable ≠ h'.stable

/-- The subscription has the same identifiers on both sides as before. -/
def Keeps (e e' : Endpoint) (h : Alias) : Prop :=
  e'.stableId h.database h.current = e.stableId h.database h.current ∧
    e'.currentId h.database h.stable = e.currentId h.database h.stable

variable {e : Endpoint} {held : List Alias} {a h h' : Alias} {database : Option String}
  {stable id : UInt32}

theorem alias_of_find?_stable {aliases : List Alias}
    (h : aliases.find? (fun a => a.database = database ∧ a.stable = stable) = some a) :
    a.database = database ∧ a.stable = stable :=
  of_decide_eq_true (List.find?_some h :)

theorem currentId_forget_of_ne {other : Option String}
    (h : other = database → stable ≠ id ∧ e.currentId other stable ≠ id) :
    (e.forget database id).currentId other stable = e.currentId other stable := by
  rw [currentId, currentId, forget, find?_filter_of_forall]
  intro a ha
  obtain ⟨hd, hs⟩ := alias_of_find?_stable ha
  refine decide_eq_true ?_
  by_cases hdatabase : a.database = database
  · right
    obtain ⟨hne, hcurrent⟩ := h (hd ▸ hdatabase)
    rw [currentId, ha] at hcurrent
    exact ⟨hcurrent, hs ▸ hne⟩
  · exact .inl hdatabase

namespace Knows

theorem stableId_of_mem (hk : e.Knows held) (ha : a ∈ e.aliases) :
    e.stableId a.database a.current = a.stable := by
  cases hfind : e.aliases.find? fun b => b.database = a.database ∧ b.current = a.current with
  | none => exact absurd (decide_eq_true ⟨rfl, rfl⟩) (List.find?_eq_none.mp hfind a ha)
  | some b =>
    obtain ⟨hd, hc⟩ := alias_of_find? hfind
    obtain rfl := eq_of_pairwise_ne hk.keyed (List.mem_of_find?_eq_some hfind) ha hd hc
    rw [stableId, hfind]
    rfl

theorem mem_held (hk : e.Knows held) (ha : a ∈ e.aliases) : a ∈ held := by
  obtain ⟨h, hh, hd, hc⟩ := hk.entries a ha
  have hs : h.stable = a.stable := by
    rw [← hk.known h hh, hd, hc, hk.stableId_of_mem ha]
  obtain ⟨database, current, stable⟩ := h
  cases hd; cases hc; cases hs
  exact hh

theorem eq_of_stable (hk : e.Knows held) (hh : h ∈ held) (hh' : h' ∈ held)
    (hd : h.database = h'.database) (hs : h.stable = h'.stable) : h = h' :=
  eq_of_pairwise_ne hk.apart hh hh' hd hs

theorem currentId_of_mem (hk : e.Knows held) (hh : h ∈ held) :
    e.currentId h.database h.stable = h.current := by
  cases hfind : e.aliases.find? fun a => a.database = h.database ∧ a.stable = h.stable with
  | some a =>
    obtain ⟨hd, hs⟩ := alias_of_find?_stable hfind
    obtain rfl := hk.eq_of_stable (hk.mem_held (List.mem_of_find?_eq_some hfind)) hh hd hs
    rw [currentId, hfind]
    rfl
  | none =>
    -- without an entry under either identifier the two are the same
    have hnone : e.aliases.find? (fun a => a.database = h.database ∧ a.current = h.current) =
        none := by
      refine List.find?_eq_none.mpr fun a ha hq => ?_
      obtain ⟨hd, hc⟩ := of_decide_eq_true hq
      refine List.find?_eq_none.mp hfind a ha (decide_eq_true ⟨hd, ?_⟩)
      rw [← hk.stableId_of_mem ha, hd, hc, hk.known h hh]
    have hsame := hk.known h hh
    rw [stableId, hnone] at hsame
    rw [currentId, hfind]
    exact hsame.symm

/-- Forgetting a subscription keeps another one if its connection goes by another identifier. -/
theorem keeps_forget_iff (hk : e.Knows held) (hh : h ∈ held) (hh' : h' ∈ held) (hne : h' ≠ h) :
    e.Keeps (e.forget h.database h.stable) h' ↔
      (h'.database = h.database → h'.current ≠ h.stable) := by
  have hstable : h'.database = h.database → h'.stable ≠ h.stable :=
    fun hd hs => hne (hk.eq_of_stable hh' hh hd hs)
  constructor
  · rintro ⟨hkept, -⟩ hd hc
    rw [hk.known h' hh', hd, hc, stableId_forget_self] at hkept
    exact hstable hd hkept.symm
  · intro hcurrent
    constructor
    · refine stableId_forget_of_ne fun hd => ⟨hcurrent hd, ?_⟩
      rw [hk.known h' hh']
      exact hstable hd
    · refine currentId_forget_of_ne fun hd => ⟨hstable hd, ?_⟩
      rw [hk.currentId_of_mem hh']
      exact hcurrent hd

end Knows

/-- The daemon is asked to cancel the connection that the subscription has now. Whatever it answers,
the other subscriptions are not affected, with one exception: the cancellation succeeds and one of
them has the connection whose identifier is the owner's for the cancelled one. -/
theorem unsubscribe_keeps_others_iff (hk : e.Knows held) (hh : h ∈ held) :
    (e.unsubscribeCall h.database h.stable).request = .unsubscribe h.database h.current ∧
      ∀ r, (∀ h' ∈ held, h' ≠ h → e.Keeps (e.unsubscribed h.database h.stable r) h') ↔
        ((∃ x, r = .ok x) →
          ∀ h' ∈ held, h' ≠ h → h'.database = h.database → h'.current ≠ h.stable) := by
  constructor
  · rw [unsubscribeCall, hk.currentId_of_mem hh]
    rfl
  · intro r
    cases r with
    | error f => exact iff_of_true (fun _ _ _ => ⟨rfl, rfl⟩) (by rintro ⟨x, ⟨⟩⟩)
    | ok x =>
      constructor
      · intro hkeeps _ h' hh' hne
        exact (hk.keeps_forget_iff hh hh' hne).mp (hkeeps h' hh' hne)
      · intro hcurrent h' hh' hne
        exact (hk.keeps_forget_iff hh hh' hne).mpr (hcurrent ⟨x, rfl⟩ h' hh' hne)

/-- Two subscriptions whose connections have moved down by one: the end of the first makes the
endpoint mistake the second, the end of the second leaves the first alone. -/
theorem unsubscribe_first_not_second :
    let e := (start "/e").rekeyAll [⟨none, 2, "/a", 1⟩, ⟨none, 3, "/b", 2⟩]
    let held : List Alias := [⟨none, 1, 2⟩, ⟨none, 2, 3⟩]
    e.Knows held ∧
      (e.unsubscribeCall none 2).request = .unsubscribe none 1 ∧
      ¬ (∀ h' ∈ held, h' ≠ ⟨none, 1, 2⟩ → e.Keeps (e.unsubscribed none 2 (.ok .nothing)) h') ∧
      (e.unsubscribeCall none 3).request = .unsubscribe none 2 ∧
      ∀ h' ∈ held, h' ≠ ⟨none, 2, 3⟩ → e.Keeps (e.unsubscribed none 3 (.ok .nothing)) h' := by
  intro e held
  have hk : e.Knows held :=
    ⟨by decide, by decide, by decide, by decide⟩
  have hfirst := unsubscribe_keeps_others_iff hk (List.mem_cons_self : ⟨none, 1, 2⟩ ∈ held)
  have hsecond := unsubscribe_keeps_others_iff hk
    (List.mem_cons_of_mem _ List.mem_cons_self : ⟨none, 2, 3⟩ ∈ held)
  refine ⟨hk, hfirst.1, fun hall => ?_, hsecond.1, (hsecond.2 _).mpr fun _ => by decide⟩
  exact (hfirst.2 _).mp hall ⟨_, rfl⟩ ⟨none, 2, 3⟩ (by decide) (by decide) rfl rfl

end ConfigDaemon.Endpoint
