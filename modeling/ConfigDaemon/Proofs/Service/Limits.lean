import ConfigDaemon.Proofs.Core.OpenAddresses
import ConfigDaemon.Proofs.Service.Shutdown
import ConfigDaemon.Proofs.Wire.Size

/-! # Answers and the limit of frames

Only a reader refuses a frame, so what the daemon sends for a request that it could read may be more
than its reader takes. The main statement says when. A response is too long when it repeats an
overlong key or client address to refuse it, or carries an overlong value, and the caller then
learns of the length and not of the failure. A notification is refused when it is sent for a request
that comes within eight bytes of the limit.
-/

namespace ConfigDaemon

open Wire

/-- The longest text that a response can carry in a frame, in bytes. -/
def textLimit : Nat := frameLimit - 24

/-! ## Texts of refusals -/

def Key.refusalLength? (key : String) : Option Nat :=
  (Key.fault? key).map fun fault => 12 + (utf8 key).length + (utf8 fault.reason).length

/-- How long the message is that refuses a text as a client address, which it has twice. -/
def Client.refusalLength? (client : String) : Option Nat :=
  if Client.isAddress client then none else some (64 + 2 * (utf8 client).length)

def Request.refusalLength? : Request → Option Nat
  | .addClient client => Client.refusalLength? client
  | .subscribe _ location client =>
    (Key.refusalLength? location).or (Client.refusalLength? client)
  | .set _ key _ | .unset _ key | .lookup _ key => Key.refusalLength? key
  | _ => none

theorem length_message_ofKeyFault (key : String) (fault : Key.Fault) :
    (utf8 (Failure.ofKeyFault key fault).message).length =
      12 + (utf8 key).length + (utf8 fault.reason).length := by
  have hopen : (utf8 "bad key '").length = 9 := by decide
  have hclose : (utf8 "': ").length = 3 := by decide
  rw [show (Failure.ofKeyFault key fault).message = "bad key '" ++ key ++ "': " ++ fault.reason
    from rfl]
  simp only [length_utf8_append, hopen, hclose]
  omega

def notAddress (client : String) : Failure :=
  .failed ("can't resolve client '" ++ client ++ "': " ++
    ("protocol error: " ++ ("'" ++ client ++ "' is not a socket path")))

theorem resolveClient_of_not_isAddress {client : String} (h : Client.isAddress client = false) :
    Core.resolveClient client = .error (notAddress client) := by
  rw [Core.resolveClient_eq, if_neg (Bool.not_eq_true _ ▸ h)]
  rfl

theorem length_message_notAddress (client : String) :
    (utf8 (notAddress client).message).length = 64 + 2 * (utf8 client).length := by
  have hopen : (utf8 "can't resolve client '").length = 22 := by decide
  have hclose : (utf8 "': ").length = 3 := by decide
  have hprotocol : (utf8 "protocol error: ").length = 16 := by decide
  have hquote : (utf8 "'").length = 1 := by decide
  have hnoPath : (utf8 "' is not a socket path").length = 22 := by decide
  rw [show (notAddress client).message = "can't resolve client '" ++ client ++ "': " ++
    ("protocol error: " ++ ("'" ++ client ++ "' is not a socket path")) from rfl]
  simp only [length_utf8_append, hopen, hclose, hprotocol, hquote, hnoPath]
  omega

/-! ## Responses -/

namespace Service

variable (pid : UInt32) (uptime : UInt64) {c : Core} {r : Request} {key client : String} {n : Nat}

def sought (c : Core) : Request → Option String
  | .lookup database key => (c.database database).values.find? key
  | _ => none

def Overlong (c : Core) (r : Request) : Prop :=
  c.inShutdown = false ∧
    match r.refusalLength? with
    | some n => textLimit < n
    | none => ∃ v, sought c r = some v ∧ textLimit < (utf8 v).length

theorem guarded_of_open {α : Type} (hopen : c.inShutdown = false)
    (op : Except Failure α × Core) : c.guarded op = op := by
  rw [Core.guarded, hopen]
  rfl

theorem fault?_of_refused (h : Key.refusalLength? key = some n) :
    ∃ fault, Key.fault? key = some fault ∧
      (utf8 (Failure.ofKeyFault key fault).message).length = n := by
  obtain ⟨fault, hfault, rfl⟩ := Option.map_eq_some_iff.mp h
  exact ⟨fault, hfault, length_message_ofKeyFault key fault⟩

theorem fault?_of_not_refused (h : Key.refusalLength? key = none) : Key.fault? key = none :=
  Option.map_eq_none_iff.mp h

theorem resolveClient_of_refused (h : Client.refusalLength? client = some n) :
    ∃ f, Core.resolveClient client = .error f ∧ (utf8 f.message).length = n := by
  unfold Client.refusalLength? at h
  split at h
  · cases h
  · rename_i hclient
    cases h
    exact ⟨_, resolveClient_of_not_isAddress (Bool.not_eq_true _ ▸ hclient),
      length_message_notAddress client⟩

theorem resolveClient_of_not_refused (h : Client.refusalLength? client = none) :
    Core.resolveClient client = .ok client := by
  unfold Client.refusalLength? at h
  split at h
  · exact Core.resolveClient_of_isAddress ‹_›
  · cases h

theorem handle_of_refused (self : Identity) (hopen : c.inShutdown = false)
    (h : r.refusalLength? = some n) :
    ∃ f, (handle self c r).1 = failureResponse f ∧ (utf8 f.message).length = n := by
  cases r with
  | addClient client =>
    obtain ⟨f, hf, hlength⟩ := resolveClient_of_refused h
    refine ⟨f, ?_, hlength⟩
    simp only [handle, Core.addClient, guarded_of_open hopen, hf]
    rfl
  | subscribe database location client =>
    cases hlocation : Key.refusalLength? location with
    | some m =>
      obtain ⟨fault, hfault, hlength⟩ := fault?_of_refused hlocation
      rw [Request.refusalLength?, hlocation] at h
      cases h
      refine ⟨_, ?_, hlength⟩
      simp only [handle, Core.subscribe, guarded_of_open hopen, hfault]
      rfl
    | none =>
      rw [Request.refusalLength?, hlocation] at h
      obtain ⟨f, hf, hlength⟩ := resolveClient_of_refused h
      refine ⟨f, ?_, hlength⟩
      simp only [handle, Core.subscribe, guarded_of_open hopen, fault?_of_not_refused hlocation, hf]
      rfl
  | set database key value =>
    obtain ⟨fault, hfault, hlength⟩ := fault?_of_refused h
    refine ⟨_, ?_, hlength⟩
    simp only [handle, Core.set, guarded_of_open hopen, Database.set, hfault]
    rfl
  | unset database key =>
    obtain ⟨fault, hfault, hlength⟩ := fault?_of_refused h
    refine ⟨_, ?_, hlength⟩
    simp only [handle, Core.unset, guarded_of_open hopen, Database.unset, hfault]
    rfl
  | lookup database key =>
    obtain ⟨fault, hfault, hlength⟩ := fault?_of_refused h
    refine ⟨_, ?_, hlength⟩
    simp only [handle, Core.lookup_eq, hopen, Database.lookup, hfault]
    rfl
  | _ => cases h

theorem length_le_textLimit {s : String} (h : (utf8 s).length ≤ 40) :
    (utf8 s).length ≤ textLimit :=
  h.trans (by decide)

theorem length_le_of_mem_texts {s : String} (hr : r.encode.length ≤ frameLimit)
    (hs : s ∈ r.texts) : (utf8 s).length ≤ textLimit := by
  have houtside := Request.length_text_le hs
  have hmax := length_utf8_le_max s
  rw [textLimit]
  rw [inlineSize] at hmax
  rw [frameLimit] at *
  omega

/-- A message that refuses a request is about twice as long as the request at most. -/
theorem refusalLength?_le (hr : r.encode.length ≤ frameLimit) (h : r.refusalLength? = some n) :
    n ≤ 2 * textLimit + 64 := by
  have hkey : ∀ {key}, key ∈ r.texts → ∀ m ∈ Key.refusalLength? key, m ≤ 2 * textLimit + 64 := by
    intro key hmem m hm
    obtain ⟨fault, -, rfl⟩ := Option.map_eq_some_iff.mp hm
    have hlength := length_le_of_mem_texts hr hmem
    have hreason : (utf8 fault.reason).length ≤ 40 := by cases fault <;> decide
    omega
  have hclient : ∀ {client}, client ∈ r.texts →
      ∀ m ∈ Client.refusalLength? client, m ≤ 2 * textLimit + 64 := by
    intro client hmem m hm
    have hlength := length_le_of_mem_texts hr hmem
    rw [Client.refusalLength?, Option.mem_def] at hm
    split at hm
    · cases hm
    · cases hm
      omega
  cases r with
  | addClient client => exact hclient List.mem_cons_self n h
  | subscribe database location client =>
    rcases Option.or_eq_some_iff.mp h with hn | ⟨-, hn⟩
    · exact hkey (by simp [Request.texts]) n hn
    · exact hclient (by simp [Request.texts]) n hn
  | set | unset | lookup => exact hkey (by simp [Request.texts]) n h
  | _ => cases h

theorem text_of_not_refused (hopen : c.inShutdown = false) (hr : r.encode.length ≤ frameLimit)
    (h : r.refusalLength? = none) :
    (handle ⟨pid, uptime, version⟩ c r).1.text = (sought c r).getD "" ∨
      sought c r = none ∧ (utf8 (handle ⟨pid, uptime, version⟩ c r).1.text).length ≤ textLimit := by
  cases r with
  | ping =>
    refine .inr ⟨rfl, ?_⟩
    simp only [handle, Core.check, hopen]
    exact length_le_textLimit (s := version) (by decide)
  | shutdown =>
    refine .inl ?_
    simp only [handle, Core.check, hopen]
    rfl
  | getDefaultDatabase =>
    refine .inl ?_
    simp only [handle, Core.obtainDatabase, guarded_of_open hopen]
    rfl
  | getDatabase address =>
    refine .inr ⟨rfl, ?_⟩
    simp only [handle, Core.obtainDatabase, guarded_of_open hopen]
    split
    · exact length_le_textLimit (s := "empty database address") (by decide)
    · exact length_le_of_mem_texts (s := address) hr List.mem_cons_self
  | addClient client =>
    refine .inl ?_
    simp only [handle, Core.addClient, guarded_of_open hopen, resolveClient_of_not_refused h]
    rfl
  | removeClient client =>
    refine .inl ?_
    simp only [handle, Core.removeClient, guarded_of_open hopen]
    rfl
  | subscribe database location client =>
    refine .inr ⟨rfl, ?_⟩
    obtain ⟨hlocation, hclient⟩ := Option.or_eq_none_iff.mp h
    simp only [handle, Core.subscribe, guarded_of_open hopen, fault?_of_not_refused hlocation,
      resolveClient_of_not_refused hclient]
    split
    · exact length_le_textLimit (s := "no connection id is free") (by decide)
    · exact length_le_textLimit (s := "") (by decide)
  | unsubscribe database id =>
    refine .inl ?_
    simp only [handle, Core.unsubscribe, guarded_of_open hopen]
    split
    · rfl
    · split <;> rfl
  | set database key value =>
    refine .inl ?_
    simp only [handle, Core.set, guarded_of_open hopen, Database.set, fault?_of_not_refused h]
    rfl
  | unset database key =>
    refine .inl ?_
    simp only [handle, Core.unset, guarded_of_open hopen, Database.unset, fault?_of_not_refused h]
    rfl
  | lookup database key =>
    refine .inl ?_
    simp only [handle, Core.lookup_eq, hopen, Database.lookup, fault?_of_not_refused h]
    rfl

theorem overlong_iff (hr : r.encode.length ≤ frameLimit) :
    textLimit < (utf8 (handle ⟨pid, uptime, version⟩ c r).1.text).length ↔ Overlong c r := by
  unfold Overlong
  cases hopen : c.inShutdown with
  | true =>
    have hshort := length_le_textLimit (s := Failure.inShutdown.message) (by decide)
    rw [handle_of_inShutdown _ hopen]
    exact iff_of_false (Nat.not_lt.mpr hshort) nofun
  | false =>
    rw [and_iff_right rfl]
    cases hrefusal : r.refusalLength? with
    | some n =>
      obtain ⟨f, hf, hlength⟩ := handle_of_refused ⟨pid, uptime, version⟩ hopen hrefusal
      rw [hf, ← hlength]
      rfl
    | none =>
      have hempty := length_le_textLimit (s := "") (by decide)
      rcases text_of_not_refused pid uptime hopen hr hrefusal with
        htext | ⟨hsought, hshort⟩
      · rw [htext]
        cases hsought : sought c r with
        | none => exact iff_of_false (Nat.not_lt.mpr hempty) nofun
        | some v => simp
      · rw [hsought]
        exact iff_of_false (Nat.not_lt.mpr hshort) nofun

end Service

/-! ## Values and notifications -/

namespace Core

variable {c : Core} {e : Event} {n : Nat}

def ValuesWithin (c : Core) (n : Nat) : Prop :=
  ∀ a key v, (c.database a).values.find? key = some v → (utf8 v).length ≤ n

def Event.SetsWithin (n : Nat) : Event → Prop
  | .ask _ (.set _ _ value) => (utf8 value).length ≤ n
  | _ => True

theorem valuesWithin_meet (h : c.ValuesWithin n) (he : e.SetsWithin n) :
    (c.meet e).ValuesWithin n := by
  cases e with
  | ask peers op =>
    intro a key v hv
    rcases quiet_or_commits peers c op with hquiet | ⟨ch, hch, hcommits⟩
    · rw [meet, hquiet.values] at hv
      exact h a key v hv
    · rw [meet, hcommits.values] at hv
      split at hv
      · rw [Table.find?_written] at hv
        split at hv
        · cases op with
          | set address key value => cases hch; cases hv; exact he
          | unset address key => cases hch; cases hv
          | _ => cases hch
        · exact h a key v hv
      · exact h a key v hv
  | deliver | disturb => exact h

theorem queued_handle (self : Service.Identity) (c : Core) (r : Request) (client : String) :
    ∃ ns, (Service.handle self c r).2.queued client = c.queued client ++ ns ∧
      ∀ n ∈ ns, n.texts = r.texts := by
  -- No request pings a client, so it does not matter who answers; among these nothing is lost.
  let peers : Peers := ⟨fun _ => true, fun _ _ => true, fun _ _ => .taken⟩
  rw [snd_handle self peers]
  rcases quiet_or_commits peers c r.operation with hquiet | ⟨ch, hch, hcommits⟩
  · have hsame := (hquiet.queued client).resolve_right fun h => absurd h.1 nofun
    exact ⟨[], hsame.trans (List.append_nil _).symm, nofun⟩
  · refine ⟨_, hcommits.queued client, fun n hn => ?_⟩
    obtain ⟨l, -, rfl⟩ := List.mem_map.mp hn
    cases r with
    | set | unset => cases hch; rfl
    | _ => cases hch

end Core

/-! ## Frames -/

namespace Service

variable (pid : UInt32) (uptime : UInt64) {c : Core} {r : Request} {stream payload rest : Bytes}

theorem length_encode_le_iff (response : Response) :
    response.encode.length ≤ frameLimit ↔ (utf8 response.text).length ≤ textLimit := by
  rw [Response.length_encode, textLimit, frameLimit, aligned, outside, inlineSize]
  split
  · simp only [List.length_nil]
    omega
  · omega

theorem readFrame_frame_eq_ok_iff :
    readFrame (frame payload) = .ok (payload, []) ↔ payload.length ≤ frameLimit := by
  rw [readFrame_eq_ok_iff, List.append_nil]
  exact and_iff_left rfl

theorem answer_of_readFrame (self : Identity) (hstream : readFrame stream = .ok (payload, rest))
    (hr : Request.decode? payload = some r) :
    answer self c stream =
      (some (frame (handle self c r).1.encode), (handle self c r).2) := by
  simp only [answer, hstream, hr]

theorem readFrame_response_iff (hr : r.encode.length ≤ frameLimit) :
    let response := (handle ⟨pid, uptime, version⟩ c r).1
    readFrame (frame response.encode) = .ok (response.encode, []) ↔ ¬ Overlong c r := by
  intro response
  rw [readFrame_frame_eq_ok_iff, length_encode_le_iff, ← Nat.not_lt, overlong_iff pid uptime hr]

/-- A call gets its result, or what its failure is known by, if the response is not overlong. -/
theorem result_of_not_overlong (t : Target) {call : Call}
    (hfits : call.request.encode.length ≤ frameLimit) (h : ¬ Overlong c call.request) :
    call.result t (.stream (frame (handle ⟨pid, uptime, version⟩ c call.request).1.encode)) =
      (call.direct ⟨pid, uptime, version⟩ c).1.mapError Call.relayed := by
  have hresponse := readFrame_frame_eq_ok_iff.mp ((readFrame_response_iff pid uptime hfits).mpr h)
  rw [Call.result_of_fits t call hresponse, Call.handle_request, Call.accept_response]

/-- A refusal that is overlong is not read, but its length is. -/
theorem readFrame_of_refused (self : Identity) {n : Nat} (hr : r.encode.length ≤ frameLimit)
    (hopen : c.inShutdown = false) (hrefusal : r.refusalLength? = some n) (hn : textLimit < n) :
    readFrame (frame (handle self c r).1.encode) = .error (.overLimit (aligned n 8 + 24)) := by
  obtain ⟨f, hf, hlength⟩ := handle_of_refused self hopen hrefusal
  have hbound := refusalLength?_le hr hrefusal
  have hlong : inlineSize < (utf8 f.message).length := by
    rw [hlength]
    exact (by decide : inlineSize ≤ textLimit).trans_lt hn
  have hencode : (failureResponse f).encode.length = aligned n 8 + 24 := by
    rw [Response.length_encode, failureResponse, Response.text, outside_of_long hlong, hlength]
  have hcapacity : Bytes.capacity 4 = 0x100000000 := rfl
  rw [textLimit, frameLimit] at *
  rw [hf, ← hencode]
  refine readFrame_frame_of_over ?_ ?_
  · rw [hencode, aligned, frameLimit]
    omega
  · rw [hencode, aligned, hcapacity]
    omega

theorem result_of_refused (self : Identity) (t : Target) {call : Call} {n : Nat}
    (hfits : call.request.encode.length ≤ frameLimit) (hopen : c.inShutdown = false)
    (hrefusal : call.request.refusalLength? = some n) (hn : textLimit < n) :
    call.result t (.stream (frame (handle self c call.request).1.encode)) =
      .error (.io (FrameFault.overLimit (aligned n 8 + 24)).message) := by
  simp only [Call.result, Exchange.receive, readFrame_of_refused self hfits hopen hrefusal hn]
  rfl

theorem setsWithin_operation (peers : Peers) (hr : r.encode.length ≤ frameLimit) :
    (Core.Event.ask peers r.operation).SetsWithin textLimit := by
  cases r with
  | set database key value =>
    exact length_le_of_mem_texts (s := value) hr (by simp [Request.texts])
  | _ => exact trivial

/-- Any request that is read off a frame gets a response. One that is not overlong fits into a
frame, and brings the caller the result, or what its failure is known by; a refusal that is overlong
brings its length only. What the request queues for a client fits if and only if the request is
eight bytes below the limit. Where all values came in frames only a refusal can be overlong, and
that stays so. -/
theorem answered_within_limit (t : Target) (hstream : readFrame stream = .ok (payload, rest))
    (hr : Request.decode? payload = some r) :
    let self : Identity := ⟨pid, uptime, version⟩
    let response := (handle self c r).1
    let c' := (handle self c r).2
    r.encode.length ≤ payload.length ∧
      answer self c stream = (some (frame response.encode), c') ∧
      (readFrame (frame response.encode) = .ok (response.encode, []) ↔ ¬ Overlong c r) ∧
      (Overlong c r ↔ textLimit < (utf8 response.text).length) ∧
      (∀ call : Call, call.request = r →
        (¬ Overlong c r → call.result t (.stream (frame response.encode)) =
          (call.direct self c).1.mapError Call.relayed) ∧
        ∀ n, c.inShutdown = false → r.refusalLength? = some n → textLimit < n →
          call.result t (.stream (frame response.encode)) =
            .error (.io (FrameFault.overLimit (aligned n 8 + 24)).message)) ∧
      (∀ client, ∃ ns, c'.queued client = c.queued client ++ ns ∧ ∀ n ∈ ns,
        (Callback.notify n).encode.length = r.encode.length + 8 ∧
          (readFrame (frame (Callback.notify n).encode) = .ok ((Callback.notify n).encode, []) ↔
            r.encode.length + 8 ≤ frameLimit)) ∧
      (c.ValuesWithin textLimit →
        c'.ValuesWithin textLimit ∧ (r.refusalLength? = none → ¬ Overlong c r)) := by
  intro self response c'
  have hle := Request.length_encode_le hr
  have hfits : r.encode.length ≤ frameLimit := hle.trans (readFrame_eq_ok_iff.mp hstream).1
  refine ⟨hle, answer_of_readFrame self hstream hr, readFrame_response_iff pid uptime hfits,
    (overlong_iff pid uptime hfits).symm, ?_, ?_, ?_⟩
  · rintro call rfl
    exact ⟨result_of_not_overlong pid uptime t hfits, fun n => result_of_refused self t hfits⟩
  · intro client
    obtain ⟨ns, hqueued, htexts⟩ := Core.queued_handle self c r client
    refine ⟨ns, hqueued, fun n hn => ?_⟩
    have hlength := Notification.length_encode (htexts n hn)
    exact ⟨hlength, by rw [readFrame_frame_eq_ok_iff, hlength]⟩
  · intro hvalues
    let peers : Peers := ⟨fun _ => true, fun _ _ => true, fun _ _ => .taken⟩
    constructor
    · have hafter : c' = c.meet (.ask peers r.operation) := Core.snd_handle self peers r
      rw [hafter]
      exact Core.valuesWithin_meet hvalues (setsWithin_operation peers hfits)
    · rintro hrefusal ⟨-, hover⟩
      rw [hrefusal] at hover
      obtain ⟨v, hv, hlong⟩ := hover
      cases r with
      | lookup database key => exact Nat.not_lt.mpr (hvalues database key v hv) hlong
      | _ => cases hv

/-- A listener is told of a value, and a relative client address is refused. -/
theorem answered_within_limit_to_listener :
    let self : Identity := ⟨7, 65, version⟩
    let t : Target := ⟨"/run/confd/daemon-7", 2000⟩
    let c := ((Core.start ⟨"/var/confd", "saved"⟩ 60 .empty).subscribe none "/" "/c").2
    let n : Notification := ⟨none, 1, "/k", some "a value"⟩
    (answer self c (frame (Request.set none "/k" "a value").encode)).2.queued "/c" = [n] ∧
      readFrame (frame (Callback.notify n).encode) = .ok ((Callback.notify n).encode, []) ∧
      (Call.addClient "c").received self t c = .error (.failed
        "can't resolve client 'c': protocol error: 'c' is not a socket path") := by
  intro self t c n
  have hset := answered_within_limit 7 65 (c := c) t
    (@readFrame_frame (Request.set none "/k" "a value").encode (by decide +kernel))
    (r := .set none "/k" "a value") (by decide +kernel)
  have hclient := answered_within_limit 7 65 (c := c) t
    (@readFrame_frame (Request.addClient "c").encode (by decide +kernel))
    (r := .addClient "c") (by decide +kernel)
  obtain ⟨-, hanswer, -, -, -, hqueued, -⟩ := hset
  obtain ⟨ns, hns, hfits⟩ := hqueued "/c"
  have hn : ns = [n] := hns.symm
  subst hn
  refine ⟨(congrArg (·.2.queued "/c") hanswer).trans hns,
    (hfits n List.mem_cons_self).2.mpr (by decide +kernel), ?_⟩
  obtain ⟨-, hanswer, hshort, -, hresult, -⟩ := hclient
  refine Eq.trans ?_ ((hresult (.addClient "c") rfl).1 (hshort.mp (by decide +kernel)))
  rw [Call.received, Call.sent, Call.request, hanswer]
  rfl

def letters (n : Nat) : String :=
  String.ofList (List.replicate n 'a')

theorem length_letters (n : Nat) : (utf8 (letters n)).length = n := by
  rw [utf8, letters, String.toList_ofList, Text.Utf8.encode]
  have hletter : (Text.Utf8.encodeChar 'a').length = 1 := rfl
  simp [List.length_flatMap, hletter]

theorem not_isAddress_letters (n : Nat) : Client.isAddress (letters n) = false := by
  rw [Client.isAddress, letters, String.toList_ofList, List.head?_replicate]
  split <;> decide

theorem length_encode_addClient {client : String} (h : inlineSize < (utf8 client).length) :
    (Request.addClient client).encode.length = aligned (utf8 client).length 4 + 32 := by
  rw [Request.length_encode, Request.texts, List.flatMap_singleton, outside_of_long h]

theorem length_encode_set_root {value : String} (h : inlineSize < (utf8 value).length) :
    (Request.set none "/" value).encode.length = aligned (utf8 value).length 4 + 32 := by
  have hroot : outside "/" = [] := by decide
  simp only [Request.length_encode, Request.texts, Option.toList_none, List.nil_append,
    List.flatMap_cons, List.flatMap_nil, List.append_nil, hroot, outside_of_long h]

theorem read_encode (hr : r.encode.length ≤ frameLimit) :
    readFrame (frame r.encode) = .ok (r.encode, []) ∧ Request.decode? r.encode = some r :=
  ⟨readFrame_frame hr, (Request.sound_layout.travels (Request.ofRoot_toRoot r) hr).understood⟩

/-- A relative client address of half the limit is read and refused, but not so that the caller
could read it; a listener is not told of a value that is just short enough for its request; and a
bad key comes back as part of a reason. -/
theorem not_all_answered_within_limit :
    let self : Identity := ⟨7, 65, version⟩
    let t : Target := ⟨"/run/confd/daemon-7", 2000⟩
    let c := ((Core.start ⟨"/var/confd", "saved"⟩ 60 .empty).subscribe none "/" "/c").2
    let refused := Request.addClient (letters 8388580)
    let accepted := Request.set none "/" (letters 16777184)
    let n : Notification := ⟨none, 1, "/", some (letters 16777184)⟩
    (readFrame (frame refused.encode) = .ok (refused.encode, []) ∧
      Request.decode? refused.encode = some refused ∧
      (∃ f, (handle self c refused).1 = failureResponse f) ∧
      readFrame (frame (handle self c refused).1.encode) = .error (.overLimit 16777248)) ∧
    (readFrame (frame accepted.encode) = .ok (accepted.encode, []) ∧
      Request.decode? accepted.encode = some accepted ∧
      (handle self c accepted).1 = .ok ∧ (handle self c accepted).2.queued "/c" = [n] ∧
      readFrame (frame (Callback.notify n).encode) = .error (.overLimit 16777224)) ∧
    (Call.lookup none "a").direct self c = (.error (.badKey "a" "must begin with a slash"), c) ∧
      (Call.lookup none "a").received self t c =
        .error (.badKey "" "bad key 'a': must begin with a slash") := by
  intro self t c refused accepted n
  have hclient : (utf8 (letters 8388580)).length = 8388580 := length_letters _
  have hvalue : (utf8 (letters 16777184)).length = 16777184 := length_letters _
  have hrefused : refused.encode.length = 8388612 := by
    rw [length_encode_addClient (by rw [hclient]; decide), hclient]
    rfl
  have haccepted : accepted.encode.length = frameLimit := by
    rw [length_encode_set_root (by rw [hvalue]; decide), hvalue]
    rfl
  have hrefusal : refused.refusalLength? = some 16777224 := by
    rw [Request.refusalLength?, Client.refusalLength?, not_isAddress_letters, hclient]
    rfl
  have hrefusedFits : refused.encode.length ≤ frameLimit := hrefused ▸ by decide
  have hopen : c.inShutdown = false := by decide +kernel
  -- The runs below are the same for each value, so its letters are never looked at.
  have hset : ∀ v, (handle self c (.set none "/" v)).1 = .ok ∧
      (handle self c (.set none "/" v)).2.queued "/c" = [⟨none, 1, "/", some v⟩] :=
    fun v => ⟨rfl, rfl⟩
  have hnotify : (Callback.notify n).encode.length = 16777224 := by
    rw [Notification.length_encode (r := accepted) rfl, haccepted]
    rfl
  refine ⟨⟨(read_encode hrefusedFits).1, (read_encode hrefusedFits).2, ?_, ?_⟩,
    ⟨(read_encode haccepted.le).1, (read_encode haccepted.le).2, (hset _).1, (hset _).2, ?_⟩,
    by decide +kernel, by decide +kernel⟩
  · obtain ⟨f, hf, -⟩ := handle_of_refused self hopen hrefusal
    exact ⟨f, hf⟩
  · exact readFrame_of_refused self hrefusedFits hopen hrefusal (by decide)
  · rw [← hnotify]
    exact readFrame_frame_of_over (hnotify ▸ by decide) (hnotify ▸ by decide)

end Service

end ConfigDaemon
