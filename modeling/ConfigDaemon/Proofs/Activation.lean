import Mathlib.Data.List.Forall2
import ConfigDaemon.Activation

/-! # What a search comes to

In each of its rounds a search looks for the daemon, and may start one and look again. What was
found out that way settles whether another round follows and what the search comes to.
-/

namespace ConfigDaemon

/-- A look or a launch, with what it found out. -/
inductive Inquiry
  | unreadable (f : Failure)
  | absent
  | placeholder (pid : Option UInt32)
  /-- The address file names a daemon, which was pinged. -/
  | pinged (pid : UInt32) (address : String) (answer : Except Failure Call.Result)
  | launched (l : Launch)

namespace Inquiry

def isLook : Inquiry → Bool
  | .launched _ => false
  | _ => true

def found? : Inquiry → Option String
  | .pinged _ address (.ok _) => some address
  | _ => none

def isClosing : Inquiry → Bool
  | .pinged _ _ (.error f) => f.isInShutdown
  | _ => false

def reason? (lockFolder : String) : Inquiry → Option String
  | .unreadable f => some f.message
  | .absent => some ("no daemon address in " ++ lockFolder)
  | .placeholder pid => some ("address file is held by a " ++ (Holder.placeholder pid).describe)
  | .pinged _ _ (.ok _) => none
  | .pinged pid address (.error f) =>
    some ("daemon " ++ Text.numeral pid.toNat ++ " at " ++ address ++
      if f.isInShutdown then " is shutting down" else " did not answer: " ++ f.message)
  | .launched l => l.reason?

@[simp] theorem isLook_launched (l : Launch) : (launched l).isLook = false := rfl

@[simp] theorem found?_launched (l : Launch) : (launched l).found? = none := rfl

@[simp] theorem reason?_launched (lockFolder : String) (l : Launch) :
    (launched l).reason? lockFolder = l.reason? := rfl

def looks (qs : List Inquiry) : List Inquiry :=
  qs.filter (·.isLook)

def launches (qs : List Inquiry) : List Inquiry :=
  qs.filter (!·.isLook)

theorem looks_append (qs qs' : List Inquiry) : looks (qs ++ qs') = looks qs ++ looks qs' :=
  List.filter_append ..

end Inquiry

namespace Activation

open Inquiry

variable {σ : Type}

inductive Happens (a : Activation) (w : Surroundings σ) : σ → Inquiry → σ → Prop
  | unreadable {s : σ} {f : Failure} : w.holder a.lockFolder s = .error f →
      Happens a w s (.unreadable f) s
  | absent {s : σ} : w.holder a.lockFolder s = .ok .absent → Happens a w s .absent s
  | placeholder {s : σ} {pid : Option UInt32} :
      w.holder a.lockFolder s = .ok (.placeholder pid) → Happens a w s (.placeholder pid) s
  | pinged {s s' : σ} {pid : UInt32} {address : String} {answer : Except Failure Call.Result} :
      w.holder a.lockFolder s = .ok (.daemon pid address) →
      w.call ⟨address, a.timeout⟩ .ping s = (answer, s') →
      Happens a w s (.pinged pid address answer) s'
  | launched {s s' : σ} {l : Launch} : w.launch a.lockFolder s = (l, s') →
      Happens a w s (.launched l) s'

inductive Passes (a : Activation) (w : Surroundings σ) : σ → List Inquiry → σ → Prop
  | nil (s : σ) : Passes a w s [] s
  | cons {s s' s'' : σ} {q : Inquiry} {qs : List Inquiry} : Happens a w s q s' →
      Passes a w s' qs s'' → Passes a w s (q :: qs) s''

/-- The inquiries of rounds with waits between them, the first of which comes after `before`
others. -/
inductive Runs (a : Activation) (w : Surroundings σ) :
    (before : Nat) → σ → List (List Inquiry) → σ → Prop
  | last {before : Nat} {s s' : σ} {qs : List Inquiry} : Passes a w s qs s' →
      Runs a w before s [qs] s'
  | next {before : Nat} {s s' s'' : σ} {qs : List Inquiry} {qss : List (List Inquiry)} :
      Passes a w s qs s' → Runs a w (before + 1) (w.wait (backoff * (before + 1)) s') qss s'' →
      Runs a w before s (qs :: qss) s''

/-- The inquiries of one round. A daemon is started only if none was found, and a second look
follows unless that failed. -/
inductive IsRound (starts : Bool) : List Inquiry → Prop
  | look {q : Inquiry} (look : q.isLook = true)
      (settled : q.found? ≠ none ∨ q.isClosing = true ∨ starts = false) : IsRound starts [q]
  | failed {q : Inquiry} (f : Failure) (look : q.isLook = true) (found : q.found? = none)
      (closing : q.isClosing = false) (starts_eq : starts = true) :
      IsRound starts [q, .launched (.failed f)]
  | again {q q' : Inquiry} {l : Launch} (look : q.isLook = true) (found : q.found? = none)
      (closing : q.isClosing = false) (starts_eq : starts = true) (launch : ∀ f, l ≠ .failed f)
      (look' : q'.isLook = true) : IsRound starts [q, .launched l, q']

/-- Whether these inquiries of a round call for another one. -/
def CallsForMore (starts : Bool) (qs : List Inquiry) : Prop :=
  (∀ q ∈ qs, q.found? = none) ∧ (starts = true ∨ ∀ q ∈ qs.head?, q.isClosing = true)

variable {a : Activation} {w : Surroundings σ} {s s' : σ} {q : Inquiry} {qs : List Inquiry}
  {qss : List (List Inquiry)} {starts : Bool} {r : Round} {rs : List Round}

/-! ## Rounds -/

theorem IsRound.bounds (h : IsRound starts qs) :
    1 ≤ (looks qs).length ∧ (looks qs).length ≤ 2 ∧ (launches qs).length ≤ 1 := by
  cases h <;> simp_all [looks, launches]

theorem IsRound.head?_looks (h : IsRound starts qs) : (looks qs).head? = qs.head? := by
  cases h <;> simp_all [looks]

/-- A daemon is started only where that is allowed and no look found one, not even one that is
shutting down. -/
theorem IsRound.of_launches (h : IsRound starts qs) (hl : launches qs ≠ []) :
    starts = true ∧ ∀ q ∈ qs.head?, q.isClosing = false := by
  cases h <;> simp_all [launches]

/-- A look is reported as what it found out. -/
structure Shows (a : Activation) (q : Inquiry) (x : Sighting) : Prop where
  look : q.isLook = true
  found : q.found? = x.live?
  closing : q.isClosing = true ↔ ∃ reason, x = .closing reason
  reason : q.reason? a.lockFolder = x.reason?

theorem look_spec (a : Activation) (w : Surroundings σ) (s : σ) :
    ∃ q, Happens a w s q (a.look w s).2 ∧ Shows a q (a.look w s).1 := by
  unfold look
  split
  · rename_i f hf
    exact ⟨.unreadable f, .unreadable hf, rfl, rfl, by simp [isClosing], rfl⟩
  · rename_i habsent
    exact ⟨.absent, .absent habsent, rfl, rfl, by simp [isClosing], rfl⟩
  · rename_i pid hplaceholder
    exact ⟨.placeholder pid, .placeholder hplaceholder, rfl, rfl, by simp [isClosing], rfl⟩
  · rename_i pid address hdaemon
    dsimp only
    split
    · rename_i result s' hcall
      exact ⟨.pinged pid address (.ok result), .pinged hdaemon hcall, rfl, rfl,
        by simp [isClosing], rfl⟩
    · rename_i f s' hcall
      refine ⟨.pinged pid address (.error f), .pinged hdaemon hcall, ?_⟩
      dsimp only
      cases hf : f.isInShutdown <;>
        exact ⟨rfl, by simp [found?, Sighting.live?], by simp [isClosing, hf],
          by simp [reason?, hf, Sighting.reason?, String.append_assoc]⟩

/-- A round is reported as what its inquiries found out. -/
structure Recounts (a : Activation) (qs : List Inquiry) (r : Round) : Prop where
  found : (looks qs).getLast?.bind (·.found?) = r.found?
  reasons : qs.filterMap (·.reason? a.lockFolder) = r.reasons
  goesOn : r.goesOn a.starts = true ↔ CallsForMore a.starts qs

theorem recounts_of_shows {x : Sighting} (h : Shows a q x)
    (hgoes : (⟨x, none, none⟩ : Round).goesOn a.starts = true ↔ CallsForMore a.starts [q]) :
    Recounts a [q] ⟨x, none, none⟩ where
  found := by simp [looks, h.look, h.found, Round.found?]
  reasons := by simp [List.filterMap_eq_flatMap_toList, h.reason, Round.reasons]
  goesOn := hgoes

theorem launch_spec (w : Surroundings σ) {s₁ : σ} {reason : String}
    (hq : Happens a w s q s₁) (hshows : Shows a q (.missing reason)) (hstarts : a.starts = true) :
    ∃ qs, Passes a w s qs (a.launch w (.missing reason) s₁).2 ∧ IsRound a.starts qs ∧
      Recounts a qs (a.launch w (.missing reason) s₁).1 := by
  have hfound : q.found? = none := hshows.found
  have hclosing : q.isClosing = false :=
    Bool.eq_false_iff.mpr fun h => by simpa using hshows.closing.mp h
  unfold launch
  split
  · rename_i f s₂ hl
    refine ⟨[q, .launched (.failed f)], .cons hq (.cons (.launched hl) (.nil _)),
      .failed f hshows.look hfound hclosing hstarts, ?_, ?_, ?_⟩
    · simp [looks, hshows.look, hshows.found, Round.found?]
    · simp [List.filterMap_eq_flatMap_toList, hshows.reason, Round.reasons]
    · simp [CallsForMore, Round.goesOn, Round.found?, Sighting.live?, hstarts, hfound]
  · rename_i l s₂ hne hl
    obtain ⟨q', hq', hshows'⟩ := look_spec a w s₂
    refine ⟨[q, .launched l, q'], .cons hq (.cons (.launched hl) (.cons hq' (.nil _))),
      .again hshows.look hfound hclosing hstarts hne hshows'.look, ?_, ?_, ?_⟩
    · simp [looks, hshows.look, hshows'.look, hshows'.found, Round.found?]
    · simp [List.filterMap_eq_flatMap_toList, hshows.reason, hshows'.reason, Round.reasons]
    · simp [CallsForMore, Round.goesOn, Round.found?, hstarts, hfound, hshows'.found]

theorem round_spec (a : Activation) (w : Surroundings σ) (s : σ) :
    ∃ qs, Passes a w s qs (a.round w s).2 ∧ IsRound a.starts qs ∧
      Recounts a qs (a.round w s).1 := by
  obtain ⟨q, hq, hshows⟩ := look_spec a w s
  unfold round
  split
  · rename_i reason s₁ hl
    rw [hl] at hq hshows
    split
    · rename_i hstarts
      exact launch_spec w hq hshows hstarts
    · rename_i hstarts
      have hclosing : q.isClosing = false :=
        Bool.eq_false_iff.mpr fun h => by simpa using hshows.closing.mp h
      refine ⟨[q], .cons hq (.nil _), .look hshows.look (.inr (.inr (by simpa using hstarts))),
        recounts_of_shows hshows ?_⟩
      simp [CallsForMore, Round.goesOn, hstarts, hclosing]
  · rename_i x s₁ hmissing hl
    rw [hl] at hq hshows
    refine ⟨[q], .cons hq (.nil _), .look hshows.look ?_, recounts_of_shows hshows ?_⟩
    · cases x with
      | live address => exact .inl (by simp [hshows.found, Sighting.live?])
      | closing reason => exact .inr (.inl (hshows.closing.mpr ⟨reason, rfl⟩))
      | missing reason => exact (hmissing reason rfl).elim
    · cases x with
      | live address => simp [CallsForMore, Round.goesOn, hshows.found, Sighting.live?]
      | closing reason =>
        simp [CallsForMore, Round.goesOn, hshows.found, Sighting.live?, hshows.closing]
      | missing reason => exact (hmissing reason rfl).elim

/-! ## The whole search -/

structure Searches (a : Activation) (w : Surroundings σ) (more before : Nat) (s : σ)
    (qss : List (List Inquiry)) (rs : List Round) (s' : σ) : Prop where
  runs : Runs a w before s qss s'
  rounds : ∀ qs ∈ qss, IsRound a.starts qs
  recounts : List.Forall₂ (Recounts a) qss rs
  /-- A round is followed by another one just if it calls for that and there may be one. -/
  goesOn : ∀ earlier qs later, qss = earlier ++ qs :: later →
    (later ≠ [] ↔ earlier.length < more ∧ CallsForMore a.starts qs)
  length_le : qss.length ≤ more + 1

theorem searches_last {more before : Nat} (hpasses : Passes a w s qs s')
    (hround : IsRound a.starts qs) (hrecounts : Recounts a qs r)
    (hstops : more = 0 ∨ ¬ CallsForMore a.starts qs) :
    Searches a w more before s [qs] [r] s' where
  runs := .last hpasses
  rounds := List.forall_mem_singleton.mpr hround
  recounts := .cons hrecounts .nil
  goesOn := by
    intro earlier qs' later he
    obtain ⟨rfl, rfl, rfl⟩ : earlier = [] ∧ qs' = qs ∧ later = [] := by
      rcases earlier with _ | ⟨_, _ | _⟩ <;> cases he
      exact ⟨rfl, rfl, rfl⟩
    refine iff_of_false (fun h => h rfl) ?_
    rintro ⟨hlt, hmore⟩
    exact hstops.elim (fun h => absurd hlt (h ▸ Nat.not_lt_zero _)) fun h => h hmore
  length_le := Nat.succ_le_succ (Nat.zero_le _)

theorem Searches.cons {more before : Nat} {s₁ : σ}
    (h : Searches a w more (before + 1) (w.wait (backoff * (before + 1)) s₁) qss rs s')
    (hpasses : Passes a w s qs s₁) (hround : IsRound a.starts qs) (hrecounts : Recounts a qs r)
    (hmore : CallsForMore a.starts qs) :
    Searches a w (more + 1) before s (qs :: qss) (r :: rs) s' where
  runs := .next hpasses h.runs
  rounds := List.forall_mem_cons.mpr ⟨hround, h.rounds⟩
  recounts := .cons hrecounts h.recounts
  goesOn := by
    rintro (_ | ⟨qs', earlier⟩) qs'' later he
    · cases he
      refine iff_of_true ?_ ⟨Nat.succ_pos _, hmore⟩
      rintro rfl
      cases h.runs
    · cases he
      rw [h.goesOn earlier qs'' later rfl, List.length_cons, Nat.succ_lt_succ_iff]
  length_le := Nat.succ_le_succ h.length_le

theorem rounds_spec (a : Activation) (w : Surroundings σ) (more before : Nat) (s : σ) :
    ∃ qss, Searches a w more before s qss (a.rounds w more before s).1
      (a.rounds w more before s).2 := by
  induction more generalizing before s with
  | zero =>
    obtain ⟨qs, hpasses, hround, hrecounts⟩ := round_spec a w s
    exact ⟨[qs], searches_last hpasses hround hrecounts (.inl rfl)⟩
  | succ more ih =>
    obtain ⟨qs, hpasses, hround, hrecounts⟩ := round_spec a w s
    rcases hr : a.round w s with ⟨r, s₁⟩
    rw [hr] at hpasses hrecounts
    simp only [rounds, hr]
    split
    · rename_i hgoes
      obtain ⟨qss, hsearches⟩ := ih (before + 1) (w.wait (backoff * (before + 1)) s₁)
      exact ⟨qs :: qss, hsearches.cons hpasses hround hrecounts (hrecounts.goesOn.mp hgoes)⟩
    · rename_i hgoes
      exact ⟨[qs], searches_last hpasses hround hrecounts
        (.inr fun hmore => hgoes (hrecounts.goesOn.mpr hmore))⟩

theorem found_eq_of_recounts (hrounds : ∀ qs ∈ qss, IsRound a.starts qs)
    (h : List.Forall₂ (Recounts a) qss rs) :
    (looks qss.flatten).getLast?.bind (·.found?) = rs.getLast?.bind (·.found?) := by
  induction h with
  | nil => rfl
  | @cons qs r qss rs hone hrest ih =>
    obtain ⟨-, hrounds⟩ := List.forall_mem_cons.mp hrounds
    rw [List.flatten_cons, looks_append, List.getLast?_append]
    cases hrest with
    | nil => exact hone.found
    | @cons qs' r' qss rs =>
      -- the later rounds have a look of their own
      have hsome : (looks (qs' :: qss).flatten).getLast?.isSome = true := by
        obtain ⟨hlook, -⟩ := (hrounds qs' List.mem_cons_self).bounds
        rw [List.getLast?_isSome, ← List.length_pos_iff, List.flatten_cons, looks_append,
          List.length_append]
        exact Nat.lt_of_lt_of_le hlook (Nat.le_add_right _ _)
      obtain ⟨q, hq⟩ := Option.isSome_iff_exists.mp hsome
      rw [List.getLast?_cons_cons, ← ih hrounds, hq, Option.some_or]

theorem reasons_eq_of_recounts (h : List.Forall₂ (Recounts a) qss rs) :
    qss.flatten.filterMap (·.reason? a.lockFolder) = rs.flatMap (·.reasons) := by
  induction h with
  | nil => rfl
  | cons hone _ ih =>
    rw [List.flatten_cons, List.filterMap_append, hone.reasons, ih, List.flatMap_cons]

theorem bind_found?_eq_some_iff {last : Option Inquiry} {address : String} :
    last.bind (·.found?) = some address ↔
      ∃ pid result, last = some (.pinged pid address (.ok result)) := by
  constructor
  · intro h
    obtain ⟨q, rfl, hq⟩ := Option.bind_eq_some_iff.mp h
    unfold found? at hq
    split at hq
    · cases hq
      exact ⟨_, _, rfl⟩
    · cases hq
  · rintro ⟨pid, result, rfl⟩
    rfl

/-- A search has at most one round more than there may be retries, each with at most two looks and
one launch. It succeeds just if the last look found a daemon that answered, with that daemon's
address, and otherwise it fails with the reasons of everything that failed. A daemon is started only
if that is allowed, and not in a round that found one shutting down. A round is followed by another
one just if there may be one, nothing was found, and daemons may be started or one was found that is
shutting down. -/
theorem search_accounted_for (a : Activation) (w : Surroundings σ) (s : σ) :
    ∃ qss : List (List Inquiry), Runs a w 0 s qss (a.resolve w s).2 ∧
      qss.length ≤ a.retries + 1 ∧
      (∀ qs ∈ qss, 1 ≤ (looks qs).length ∧ (looks qs).length ≤ 2 ∧ (launches qs).length ≤ 1) ∧
      (∀ address, (a.resolve w s).1 = .ok address ↔ ∃ pid result,
        (looks qss.flatten).getLast? = some (.pinged pid address (.ok result))) ∧
      (∀ qs ∈ qss, launches qs ≠ [] →
        a.starts = true ∧ ∀ q ∈ (looks qs).head?, q.isClosing = false) ∧
      (∀ earlier qs later, qss = earlier ++ qs :: later →
        (later ≠ [] ↔ earlier.length < a.retries ∧ (∀ q ∈ qs, q.found? = none) ∧
          (a.starts = true ∨ ∀ q ∈ (looks qs).head?, q.isClosing = true))) ∧
      ∀ f, (a.resolve w s).1 = .error f →
        f = .noServer ("; ".intercalate (qss.flatten.filterMap (·.reason? a.lockFolder))) := by
  obtain ⟨qss, h⟩ := rounds_spec a w a.retries 0 s
  have hfound := found_eq_of_recounts h.rounds h.recounts
  have hresolve : (a.resolve w s).1 = conclude (a.rounds w a.retries 0 s).1 := rfl
  rw [hresolve, conclude, ← hfound]
  refine ⟨qss, h.runs, h.length_le, fun qs hqs => (h.rounds qs hqs).bounds, fun address => ?_,
    fun qs hqs hl => ?_, fun earlier qs later he => ?_, fun f hf => ?_⟩
  · rw [← bind_found?_eq_some_iff]
    cases (looks qss.flatten).getLast?.bind (·.found?) with
    | none => exact iff_of_false nofun nofun
    | some found => rw [Except.ok.injEq, Option.some.injEq]
  · rw [(h.rounds qs hqs).head?_looks]
    exact (h.rounds qs hqs).of_launches hl
  · have hqs : qs ∈ qss := by simp [he]
    rw [(h.rounds qs hqs).head?_looks]
    exact h.goesOn earlier qs later he
  · split at hf
    · cases hf
    · cases hf
      rw [reasons_eq_of_recounts h.recounts]

/-- Two retries against a daemon that does not come out of its shutdown; the state counts the waits
in milliseconds. -/
example :
    Activation.resolve ⟨"/run", 2, 1000, true⟩
      ⟨fun _ _ => .ok (.daemon 7 "/d"), fun _ _ s => (.error .inShutdown, s),
        fun _ s => (.ready, s), fun n s => n + s⟩ 0 =
      (.error (.noServer ("daemon 7 at /d is shutting down; daemon 7 at /d is shutting down; " ++
        "daemon 7 at /d is shutting down")), 300) := by
  decide +kernel

end Activation

end ConfigDaemon
