import ConfigDaemon.Proofs.Core.Moves
import ConfigDaemon.Proofs.Service.Calls

/-! # Shutting down

A daemon that has begun to shut down never comes back from it. It refuses every request for just
that reason, whatever else is wrong with the request, and the request leaves no trace.
-/

namespace ConfigDaemon.Service

open Wire

variable {c : Core}

def handleAll (self : Identity) (c : Core) : List Request → List Response × Core
  | [] => ([], c)
  | r :: rs =>
    let (response, c) := handle self c r
    let (responses, c) := handleAll self c rs
    (response :: responses, c)

/-- Each operation looks at the shutdown before it looks at what it is given. -/
theorem handle_of_inShutdown (self : Identity) (hdown : c.inShutdown = true) (r : Request) :
    handle self c r = (failureResponse .inShutdown, c) := by
  cases r <;>
    simp only [handle, Core.check, Core.obtainDatabase, Core.addClient, Core.removeClient,
      Core.subscribe, Core.unsubscribe, Core.set, Core.unset, Core.lookup, Core.guarded, hdown,
      if_true] <;> rfl

theorem handleAll_of_inShutdown (self : Identity) (hdown : c.inShutdown = true)
    (rs : List Request) :
    handleAll self c rs = (rs.map fun _ => failureResponse .inShutdown, c) := by
  induction rs with
  | nil => rfl
  | cons r rs ih => simp only [handleAll, handle_of_inShutdown self hdown, ih, List.map_cons]

theorem handle_shutdown (self : Identity) (c : Core) :
    (handle self c .shutdown).2 = c.beginShutdown := by
  cases hdown : c.inShutdown with
  | false => simp only [handle, Core.check, hdown]; rfl
  | true =>
    rw [handle_of_inShutdown self hdown, Core.beginShutdown, ← hdown]

theorem received_of_inShutdown (self : Identity) (t : Target) (hdown : c.inShutdown = true)
    {call : Call} (hfits : call.request.encode.length ≤ frameLimit) :
    (call.sent self c).2 = c ∧ call.received self t c = .error .inShutdown := by
  have hhandle := call.handle_request self c
  rw [handle_of_inShutdown self hdown] at hhandle
  obtain ⟨hresponse, hstate⟩ := Prod.mk.inj hhandle
  have hsent := Call.sent_of_fits self c call hfits
  rw [← hresponse, ← hstate] at hsent
  have haccept : call.accept (failureResponse .inShutdown) = .error .inShutdown := by
    cases call <;> rfl
  have hshort : (failureResponse .inShutdown).encode.length ≤ frameLimit := by decide +kernel
  refine ⟨congrArg Prod.snd hsent, ?_⟩
  rw [Call.received, hsent, Option.getD_some, Call.result_of_fits t call hshort, haccept]

/-- Whatever happens to a daemon that shuts down, be it asked to or made to, it answers all requests
from then on with the one failure that says so, and none of them changes anything. A caller takes
the answer for that failure. -/
theorem refused_after_shutdown (self : Identity) (t : Target) (c : Core) (es : List Core.Event)
    (rs : List Request) :
    let closing := c.beginShutdown.through es
    (handle self c .shutdown).2 = c.beginShutdown ∧
      closing.inShutdown = true ∧
      handleAll self closing rs =
        (rs.map fun _ => .error .inShutdown Failure.inShutdown.message, closing) ∧
      ∀ call : Call, call.request.encode.length ≤ frameLimit →
        (call.sent self closing).2 = closing ∧
          ∃ f, call.received self t closing = .error f ∧ f.isInShutdown = true := by
  intro closing
  have hdown : closing.inShutdown = true := Core.inShutdown_through es rfl
  refine ⟨handle_shutdown self c, hdown, handleAll_of_inShutdown self hdown rs,
    fun call hfits => ?_⟩
  obtain ⟨hkept, hreceived⟩ := received_of_inShutdown self t hdown hfits
  exact ⟨hkept, _, hreceived, rfl⟩

end ConfigDaemon.Service
