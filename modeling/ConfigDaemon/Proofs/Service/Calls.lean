import ConfigDaemon.Proofs.Wire.Frame
import ConfigDaemon.Remote.Call
import ConfigDaemon.Service.Answer

/-! # Calls over a connection

A call that is sent to the daemon does what the operation does that it stands for, and its result
comes back. Of a failure the kind and the text come back.
-/

namespace ConfigDaemon.Call

open Service Wire

/-- What a call does to the daemon, and its result, when it is made on the daemon's state. -/
def direct (self : Identity) (c : Core) : Call → Except Failure Result × Core
  | .ping => (c.check.map fun () => .info self.pid self.uptime self.version, c)
  | .shutdown => c.guarded (.ok .nothing, c.beginShutdown)
  | .openDefault => (c.obtainDatabase none).map (·.map .address) id
  | .openNamed address => (c.obtainDatabase (some address)).map (·.map .address) id
  | .addClient client => (c.addClient client).map (·.map fun () => .nothing) id
  | .removeClient client => (c.removeClient client).map (·.map fun () => .nothing) id
  | .subscribe database location client =>
    (c.subscribe database location client).map (·.map .id) id
  | .unsubscribe database n => (c.unsubscribe database n).map (·.map fun () => .nothing) id
  | .set database key value => (c.set database key value).map (·.map fun () => .nothing) id
  | .unset database key => (c.unset database key).map (·.map fun () => .nothing) id
  | .lookup database key => ((c.lookup database key).map .value, c)

/-- The bytes that come back for a call, and what the daemon has become by then. -/
def sent (self : Identity) (c : Core) (call : Call) : Option Bytes × Core :=
  answer self c (frame call.request.encode)

def received (self : Identity) (t : Target) (c : Core) (call : Call) : Except Failure Result :=
  call.result t (.stream ((call.sent self c).1.getD []))

/-- A failure as it is known at the other end. -/
def relayed (f : Failure) : Failure :=
  .ofWire f.kind f.message

def response : Except Failure Result → Response
  | .error f => failureResponse f
  | .ok (.info pid uptime version) => .pong pid uptime version
  | .ok .nothing => .ok
  | .ok (.address a) => .database a
  | .ok (.id n) => .subscribed n
  | .ok (.value v) => .value v

variable (self : Identity) (t : Target) (c : Core) (call : Call)

theorem handle_request :
    handle self c call.request = (response (call.direct self c).1, (call.direct self c).2) := by
  have hrespond : ∀ {α : Type} (f : α → Response) (g : α → Result) (r : Except Failure α),
      (∀ a, f a = response (.ok (g a))) → respond f r = response (r.map g) := by
    rintro α f g (e | a) h
    · rfl
    · exact h a
  cases call with
  | shutdown =>
    simp only [request, handle, direct, Core.check, Core.guarded]
    split <;> rename_i h <;> split at h <;> simp_all [response]
  | _ => exact congrArg (·, _) (hrespond _ _ _ fun _ => rfl)

theorem accept_response :
    call.accept (response (call.direct self c).1) = (call.direct self c).1.mapError relayed := by
  have haccept : ∀ {α : Type} (g : α → Result) (r : Except Failure α),
      (∀ a, call.accept (response (.ok (g a))) = .ok (g a)) →
        call.accept (response (r.map g)) = (r.map g).mapError relayed := by
    rintro α g (e | a) h
    · cases call <;> rfl
    · exact h a
  cases call with
  | shutdown =>
    simp only [direct, Core.guarded]
    split <;> rfl
  | _ => exact haccept _ _ fun _ => rfl

theorem relayed_ne_protocol (f : Failure) (reason : String) : relayed f ≠ .protocol reason := by
  rw [relayed]
  cases f.kind <;> exact nofun

theorem sent_of_fits (h : call.request.encode.length ≤ frameLimit) :
    call.sent self c =
      (some (frame (response (call.direct self c).1).encode), (call.direct self c).2) := by
  have hdecode : Request.decode? call.request.encode = some call.request :=
    (Request.sound_layout.travels (Request.ofRoot_toRoot call.request) h).understood
  simp only [sent, answer, readFrame_frame h, hdecode, handle_request]

theorem result_of_fits {r : Response} (h : r.encode.length ≤ frameLimit) :
    call.result t (.stream (frame r.encode)) = call.accept r := by
  have hdecode : Response.decode? r.encode = some r :=
    (Response.sound_layout.travels (Response.ofRoot_toRoot r) h).understood
  simp only [result, Exchange.receive, readFrame_frame h, hdecode]

/-- A call whose request fits into a frame leaves the daemon as the operation itself does. If the
response fits too, the caller has the operation's result, or what the kind and the text of its
failure stand for; in no case is the response an unexpected one. -/
theorem sent_as_direct (hrequest : call.request.encode.length ≤ frameLimit) :
    (call.sent self c).2 = (call.direct self c).2 ∧
      ((∀ out ∈ (call.sent self c).1, out.length ≤ 4 + frameLimit) →
        call.received self t c = (call.direct self c).1.mapError relayed ∧
          ∀ r, call.received self t c ≠ .error (unexpected r)) := by
  have hsent := sent_of_fits self c call hrequest
  refine ⟨congrArg Prod.snd hsent, fun hfits => ?_⟩
  have hresponse : (response (call.direct self c).1).encode.length ≤ frameLimit := by
    have hframe := hfits _ (congrArg Prod.fst hsent)
    rw [length_frame] at hframe
    omega
  have hreceived : call.received self t c = (call.direct self c).1.mapError relayed := by
    rw [received, hsent, Option.getD_some, result_of_fits t call hresponse, accept_response]
  refine ⟨hreceived, fun r hr => ?_⟩
  rw [hreceived] at hr
  cases hdirect : (call.direct self c).1 with
  | error f =>
    rw [hdirect] at hr
    exact relayed_ne_protocol f _ (Except.error.inj hr)
  | ok value =>
    rw [hdirect] at hr
    cases hr

/-- A long value is looked up in a database, a key without a slash is refused, and so is everything
once the daemon shuts down. -/
theorem sent_as_direct_lookups :
    let self : Identity := ⟨7, 65, version⟩
    let t : Target := ⟨"/run/confd/daemon-7", 2000⟩
    let long := "a value of more than sixty-four bytes, which lies outside the root of its archive"
    let c := ((Core.start ⟨"/var/confd", "saved"⟩ 60 .empty).set (some "xml:a") "/a/k" long).2
    (Call.lookup (some "xml:a") "/a/k").received self t c = .ok (.value (some long)) ∧
      (Call.lookup none "a/k").received self t c =
        .error (.badKey "" "bad key 'a/k': must begin with a slash") ∧
      (Call.subscribe none "/a" "/run/c").received self t (Call.shutdown.sent self c).2 =
        .error .inShutdown := by
  intro self t long c
  have hlookup := sent_as_direct self t c (.lookup (some "xml:a") "/a/k") (by decide +kernel)
  have hrefused := sent_as_direct self t c (.lookup none "a/k") (by decide +kernel)
  have hdown := sent_as_direct self t c .shutdown (by decide +kernel)
  have hlate := sent_as_direct self t (Call.shutdown.sent self c).2 (.subscribe none "/a" "/run/c")
    (by decide +kernel)
  refine ⟨?_, ?_, ?_⟩
  · exact (hlookup.2 (by decide +kernel)).1
  · exact (hrefused.2 (by decide +kernel)).1
  · refine (hlate.2 (by decide +kernel)).1.trans ?_
    rw [hdown.1]
    rfl

end ConfigDaemon.Call
