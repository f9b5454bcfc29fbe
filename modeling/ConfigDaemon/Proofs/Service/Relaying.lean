import Mathlib.Logic.Function.Iterate
import ConfigDaemon.Proofs.Service.Calls
import ConfigDaemon.Proofs.Text.Quoted

/-! # Failures that are passed on

A caller makes a failure of the kind and the text of an answer, and may answer a call of its own
with it. The kind stays the same from one to the next, and so does the text, unless a key was
refused: the text that tells this is taken for the reason alone, and gets a new beginning each time.
-/

namespace ConfigDaemon

inductive Failure.OfRequest : Failure → Prop
  | inShutdown : OfRequest .inShutdown
  | badKey (key reason : String) : OfRequest (.badKey key reason)
  | failed (text : String) : OfRequest (.failed text)

namespace Call

open Service

variable {self : Identity} {c : Core} {call : Call} {f : Failure}

/-! ## The failures of requests -/

theorem ofRequest_of_guarded {α : Type} {op : Except Failure α × Core}
    (hop : op.1 = .error f → f.OfRequest) (h : (c.guarded op).1 = .error f) : f.OfRequest := by
  unfold Core.guarded at h
  split at h
  · cases h
    exact .inShutdown
  · exact hop h

theorem ofRequest_of_resolveClient {address : String}
    (h : Core.resolveClient address = .error f) : f.OfRequest := by
  unfold Core.resolveClient at h
  split at h
  · cases h
  · cases h
    exact .failed _

/-- The daemon fails a call because it shuts down, for a bad key, or for a reason told by a text. -/
theorem ofRequest_of_direct (h : (call.direct self c).1 = .error f) : f.OfRequest := by
  cases call with
  | ping =>
    have hcheck : c.check = .error f := map_eq_error.mp h
    unfold Core.check at hcheck
    split at hcheck <;> cases hcheck
    exact .inShutdown
  | shutdown => exact ofRequest_of_guarded (fun hop => by cases hop) h
  | openDefault => exact ofRequest_of_guarded (fun hop => by cases hop) (map_eq_error.mp h)
  | openNamed address =>
    refine ofRequest_of_guarded (fun hop => ?_) (map_eq_error.mp h)
    split at hop <;> cases hop
    exact .failed _
  | addClient client =>
    refine ofRequest_of_guarded (fun hop => ?_) (map_eq_error.mp h)
    split at hop <;> rename_i hclient <;> cases hop
    exact ofRequest_of_resolveClient hclient
  | removeClient client => exact ofRequest_of_guarded (fun hop => by cases hop) (map_eq_error.mp h)
  | subscribe database location client =>
    refine ofRequest_of_guarded (fun hop => ?_) (map_eq_error.mp h)
    split at hop
    · cases hop
      exact .badKey _ _
    · rename_i hclient
      cases hop
      exact ofRequest_of_resolveClient hclient
    · dsimp only at hop
      split at hop <;> cases hop
      exact .failed _
  | unsubscribe database id =>
    refine ofRequest_of_guarded (fun hop => ?_) (map_eq_error.mp h)
    split at hop
    · cases hop
    · split at hop <;> cases hop
  | set database key value =>
    refine ofRequest_of_guarded (fun hop => ?_) (map_eq_error.mp h)
    split at hop <;> cases hop
    exact .badKey _ _
  | unset database key =>
    refine ofRequest_of_guarded (fun hop => ?_) (map_eq_error.mp h)
    split at hop <;> cases hop
    exact .badKey _ _
  | lookup database key =>
    have hlookup : c.lookup database key = .error f := map_eq_error.mp h
    unfold Core.lookup at hlookup
    split at hlookup
    · cases hlookup
      exact .inShutdown
    · split at hlookup
      · split at hlookup <;> cases hlookup
        exact .badKey _ _
      · split at hlookup <;> cases hlookup
        exact .badKey _ _

/-- What a caller has instead of a failure is this failure passed on once. -/
theorem accept_handle (h : (call.direct self c).1 = .error f) :
    call.accept (handle self c call.request).1 = .error (relayed f) := by
  rw [handle_request, accept_response, h]
  rfl

/-! ## Hop after hop -/

/-- The text of a refused key, when it is the reason for which a key without a name is refused. -/
def wrapped (text : String) : String :=
  "bad key '': " ++ text

theorem length_iterate_wrapped (hops : ℕ) (text : String) :
    (wrapped^[hops] text).length = 12 * hops + text.length := by
  induction hops with
  | zero => simp
  | succ n ih =>
    have hbegin : "bad key '': ".length = 12 := by decide
    rw [Function.iterate_succ_apply', wrapped, String.length_append, ih, hbegin]
    omega

theorem iterate_wrapped_eq_iff {hops : ℕ} {text : String} :
    wrapped^[hops] text = text ↔ hops = 0 := by
  constructor
  · intro h
    have hlength := length_iterate_wrapped hops text
    rw [h] at hlength
    omega
  · rintro rfl
    rfl

theorem ofRequest_relayed (h : f.OfRequest) : (relayed f).OfRequest := by
  cases h with
  | inShutdown => exact .inShutdown
  | badKey key reason => exact .badKey _ _
  | failed text => exact .failed _

theorem kind_relayed (h : f.OfRequest) : (relayed f).kind = f.kind := by
  cases h <;> rfl

theorem message_relayed (h : f.OfRequest) :
    (relayed f).message = if f.kind = .badKey then wrapped f.message else f.message := by
  cases h <;> rfl

theorem iterate_relayed (h : f.OfRequest) (hops : ℕ) :
    (relayed^[hops] f).OfRequest ∧ (relayed^[hops] f).kind = f.kind ∧
      (relayed^[hops] f).message =
        if f.kind = .badKey then wrapped^[hops] f.message else f.message := by
  induction hops with
  | zero => exact ⟨h, rfl, (ite_self _).symm⟩
  | succ n ih =>
    obtain ⟨hrequest, hkind, hmessage⟩ := ih
    simp only [Function.iterate_succ_apply']
    refine ⟨ofRequest_relayed hrequest, (kind_relayed hrequest).trans hkind, ?_⟩
    rw [message_relayed hrequest, hkind, hmessage]
    split <;> rfl

/-- The failure of a request keeps its kind from one caller to the next, however often it is passed
on. It keeps its text exactly if that does not refuse a key; one that does is wrapped once more at
each hop. -/
theorem relayed_alike_iff (h : f.OfRequest) (hops : ℕ) :
    (relayed^[hops] f).kind = f.kind ∧
      (relayed^[hops] f).message =
        (if f.kind = .badKey then wrapped^[hops] f.message else f.message) ∧
      ((relayed^[hops] f).message = f.message ↔ hops = 0 ∨ f.kind ≠ .badKey) ∧
      ∀ (self : Identity) (c : Core) (call : Call), (call.direct self c).1 = .error f →
        call.accept (handle self c call.request).1 = .error (relayed f) := by
  obtain ⟨-, hkind, hmessage⟩ := iterate_relayed h hops
  refine ⟨hkind, hmessage, ?_, fun _ _ _ => accept_handle⟩
  rw [hmessage]
  split
  · rename_i hkey
    rw [iterate_wrapped_eq_iff, or_iff_left (not_not_intro hkey)]
  · rename_i hkey
    exact iff_of_true rfl (.inr hkey)

/-- The refusal of a key without a slash no longer names the key first once it has been passed on;
that of an empty database address goes unchanged through three hops. -/
theorem relayed_alike_not_key :
    let self : Identity := ⟨7, 65, version⟩
    let c := Core.start ⟨"/var/confd", "saved"⟩ 60 .empty
    let refused : Failure := .badKey "a" "must begin with a slash"
    let empty : Failure := .failed "empty database address"
    ((Call.lookup none "a").direct self c).1 = .error refused ∧
      (Call.lookup none "a").accept (handle self c (.lookup none "a")).1 =
        .error (.badKey "" "bad key 'a': must begin with a slash") ∧
      (relayed refused).message ≠ refused.message ∧
      ((Call.openNamed "").direct self c).1 = .error empty ∧
      (relayed^[3] empty).message = empty.message := by
  intro self c refused empty
  have hrefused : ((Call.lookup none "a").direct self c).1 = .error refused := by decide +kernel
  have hempty : ((Call.openNamed "").direct self c).1 = .error empty := by decide +kernel
  have hkey := relayed_alike_iff (ofRequest_of_direct hrefused) 1
  have haddress := relayed_alike_iff (ofRequest_of_direct hempty) 3
  refine ⟨hrefused, hkey.2.2.2 self c _ hrefused, fun hsame => ?_, hempty,
    haddress.2.2.1.mpr (.inr nofun)⟩
  exact (hkey.2.2.1.mp hsame).elim nofun (· rfl)

end Call

end ConfigDaemon
