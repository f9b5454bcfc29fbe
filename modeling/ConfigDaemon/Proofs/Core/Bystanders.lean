import Mathlib.Data.List.Forall2
import ConfigDaemon.Proofs.Core.Congruence
import ConfigDaemon.Proofs.Core.Delivered

/-! # What others notice of a client

A client that is dead, or that never ends a call, holds up its own notifications only. Two runs of
the same operations among clients of which only one is known to behave alike give the same
results and the same state, and hand over the same notifications to that one.
-/

namespace ConfigDaemon.Core

/-- The operations during which no client is asked for anything. -/
def Operation.Unasking : Operation → Prop
  | .restore | .sweep _ | .housekeep _ _ _ _ => False
  | _ => True

/-- Two events that differ at most in how the clients other than one behave. -/
inductive Event.Alike (client : String) : Event → Event → Prop
  | ask (peers peers' : Peers) {op : Operation} (h : op.Unasking) :
      Alike client (.ask peers op) (.ask peers' op)
  | deliver {peers peers' : Peers} (h : ∀ n, peers'.notify client n = peers.notify client n) :
      Alike client (.deliver peers) (.deliver peers')
  | disturb (disk : Disk) : Alike client (.disturb disk) (.disturb disk)

def answer (c : Core) : Event → Option (Except Failure Value)
  | .ask peers op => some (c.perform peers op).1.1
  | .deliver _ | .disturb _ => none

def answers : Core → List Event → List (Option (Except Failure Value))
  | _, [] => []
  | c, e :: es => c.answer e :: answers (c.meet e) es

/-- Two daemons that differ at most in the notifications that wait for clients other than one. -/
structure Alike (client : String) (c c' : Core) : Prop where
  rest : c' = { c with couriers := c'.couriers }
  courier : c'.couriers.find? client = c.couriers.find? client

def Agree {α : Type} (client : String) (r r' : α × Core) : Prop :=
  r'.1 = r.1 ∧ Alike client r.2 r'.2

variable {client : String} {c c' : Core} {address : Option String}

theorem alike_refl (client : String) (c : Core) : Alike client c c :=
  ⟨rfl, rfl⟩

namespace Alike

/-! ## Operations -/

theorem of_withCouriers {f : Core → Core} (h : Alike client c c')
    (hf : ∀ t, f { c with couriers := t } = { f c with couriers := t })
    (hcouriers : (f c).couriers = c.couriers) : Alike client (f c) (f c') := by
  have he := hf c'.couriers
  rw [← h.rest] at he
  exact ⟨by rw [he], by rw [he, hcouriers]; exact h.courier⟩

theorem database (h : Alike client c c') (address : Option String) :
    c'.database address = c.database address := by
  rw [h.rest]
  cases address <;> rfl

/-- Each queue gets its own notifications, whatever waits in the others. -/
theorem queueChange (h : Alike client c c') (address : Option String) (key : String)
    (value : Option String) :
    Alike client (c.queueChange address key value) (c'.queueChange address key value) := by
  refine ⟨by rw [h.rest]; rfl, ?_⟩
  simp only [Core.queueChange, h.database address]
  have hcourier := h.courier
  generalize c.couriers = t at hcourier ⊢
  generalize c'.couriers = t' at hcourier ⊢
  induction (c.database address).listeners.matching key generalizing t t' with
  | nil => exact hcourier
  | cons l ls ih =>
    rw [List.foldl_cons, List.foldl_cons]
    refine ih _ _ ?_
    rw [Table.find?_insert, Table.find?_insert, hcourier]
    split
    · rename_i hl; rw [← hl, hcourier]
    · rfl

theorem sharesLog (client : String) : SharesLog (Alike client) where
  rest h := by rw [h.rest]; rfl
  database h := h.database
  recordsIn h order := by
    rw [h.rest]
    rfl
  withState h _ := ⟨by rw [h.rest]; rfl, h.courier⟩
  setDatabase h address d := by
    refine h.of_withCouriers (f := (Core.setDatabase · address d)) (fun _ => ?_)
      (couriers_setDatabase _ address d)
    cases address <;> rfl
  mapDatabases h f _ := h.of_withCouriers (f := (Core.mapDatabases · f)) (fun _ => rfl) rfl
  queueChange h := h.queueChange
  dropCourier h other := by
    refine ⟨by rw [h.rest], ?_⟩
    rw [Table.find?_erase, Table.find?_erase, h.courier]

theorem perform (h : Alike client c c') (peers peers' : Peers) {op : Operation}
    (hop : op.Unasking) : Agree client (c.perform peers op) (c'.perform peers' op) := by
  have hpeers : c'.perform peers' op = c'.perform peers op := by
    cases op with
    | restore | sweep | housekeep => exact hop.elim
    | _ => rfl
  rw [hpeers]
  exact (sharesLog client).perform h peers op

/-! ## Events -/

variable {e e' : Event}

theorem answer (h : Alike client c c') (he : e.Alike client e') : c'.answer e' = c.answer e := by
  cases he with
  | ask peers peers' hop => exact congrArg (fun r => some r.1) (h.perform peers peers' hop).1
  | deliver _ => rfl
  | disturb _ => rfl

theorem taken (h : Alike client c c') (he : e.Alike client e') :
    c'.taken client e' = c.taken client e := by
  cases he with
  | ask _ _ _ => rfl
  | @deliver peers peers' hnotify =>
    rw [taken_deliver, taken_deliver, h.courier, funext hnotify]
  | disturb _ => rfl

theorem meet (h : Alike client c c') (he : e.Alike client e') :
    Alike client (c.meet e) (c'.meet e') := by
  cases he with
  | ask peers peers' hop => exact (h.perform peers peers' hop).2
  | @deliver peers peers' hnotify =>
    refine ⟨by rw [h.rest]; rfl, ?_⟩
    rw [Core.meet, Core.meet, Core.deliver, Core.deliver, Table.find?_mapValues,
      Table.find?_mapValues, h.courier, funext hnotify]
  | disturb disk => exact h.of_withCouriers (f := fun c => { c with disk }) (fun _ => rfl) rfl

end Alike

/-- Two runs in which the same operations are asked for, and in which one client behaves alike,
give the same results, leave the same state but for what waits for others, and hand over the same
notifications to that client. -/
theorem undisturbed_by_others {es es' : List Event}
    (hes : List.Forall₂ (Event.Alike client) es es') (c : Core) :
    c.answers es' = c.answers es ∧ Alike client (c.through es) (c.through es') ∧
      received client c es' = received client c es := by
  suffices h : ∀ {c c' : Core}, Alike client c c' →
      c'.answers es' = c.answers es ∧ Alike client (c.through es) (c'.through es') ∧
        received client c' es' = received client c es from h (alike_refl client c)
  induction hes with
  | nil => exact fun h => ⟨rfl, h, rfl⟩
  | cons he _ ih =>
    intro c c' h
    obtain ⟨hanswers, hthrough, hreceived⟩ := ih (h.meet he)
    exact ⟨by rw [answers, answers, h.answer he, hanswers], hthrough,
      by rw [received, received, h.taken he, hreceived]⟩

/-- One of two listeners is hung in one run and dead in the other. -/
theorem undisturbed_by_a_hung_listener :
    let alive : Peers := ⟨fun _ => true, fun _ _ => true, fun _ _ => .taken⟩
    let hung : Peers :=
      { alive with notify := fun client _ => if client = "/run/b" then .never else .taken }
    let dead : Peers :=
      ⟨(· ≠ "/run/b"), fun _ _ => false,
        fun client _ => if client = "/run/b" then .lost else .taken⟩
    let run (peers : Peers) : List Event :=
      [.ask alive (.addClient "/run/b"), .ask peers (.subscribe none "/" "/run/b"),
        .ask peers (.subscribe (some "db") "/a" "/run/c"), .ask peers (.set none "/a/k" "1"),
        .ask peers (.set (some "db") "/a/k" "2"), .deliver peers,
        .ask peers (.set (some "db") "/a/k" "3"), .ask peers (.unset none "/a/k"),
        .deliver peers, .ask peers (.compact ["db"])]
    let c := start ⟨"/var/confd", "saved"⟩ 60 .empty
    List.Forall₂ (Event.Alike "/run/c") (run hung) (run dead) ∧
      (c.through (run hung)).couriers ≠ (c.through (run dead)).couriers ∧
      received "/run/c" c (run hung) =
        [⟨some "db", 1, "/a/k", some "2"⟩, ⟨some "db", 1, "/a/k", some "3"⟩] ∧
      c.answers (run dead) = c.answers (run hung) ∧
      Alike "/run/c" (c.through (run hung)) (c.through (run dead)) ∧
      received "/run/c" c (run dead) = received "/run/c" c (run hung) := by
  intro alive hung dead run c
  have hrun : List.Forall₂ (Event.Alike "/run/c") (run hung) (run dead) :=
    .cons (.ask _ _ trivial) <| .cons (.ask _ _ trivial) <| .cons (.ask _ _ trivial) <|
      .cons (.ask _ _ trivial) <| .cons (.ask _ _ trivial) <| .cons (.deliver fun _ => rfl) <|
      .cons (.ask _ _ trivial) <| .cons (.ask _ _ trivial) <| .cons (.deliver fun _ => rfl) <|
      .cons (.ask _ _ trivial) .nil
  exact ⟨hrun, by decide +kernel, by decide +kernel, undisturbed_by_others hrun c⟩

end ConfigDaemon.Core
