import ConfigDaemon.Proofs.Wire.Size

/-! # Payloads in canonical form

Bytes that nothing points to, filler and gaps of any content are lost when a message is read, so
what is written again may be shorter. It is never longer, and it is read as the same message: the
texts of a root that was read have lengths that fit, and move no further away from their fields
than the payload was long.
-/

namespace ConfigDaemon.Wire

variable {payload bytes : Bytes}

def Part.texts : Part → Nat
  | .text | .optionalText => 1
  | .gap _ | .tag _ | .word | .longWord => 0

theorem Part.length_outside_le {part : Part} {v : part.Value}
    (h : (part.outside v).length < 0x40000000) :
    (part.outside v).length ≤ part.texts * 0x3FFFFFFF := by
  cases part with
  | gap | tag | word | longWord => exact Nat.zero_le _
  | text | optionalText => exact Nat.le_of_lt_succ h

def Shape.texts : Shape → Nat
  | [] => 0
  | part :: shape => part.texts + texts shape

theorem Shape.length_outside_le_of_read {root floor field : Nat} {shape : Shape} {row : shape.Row}
    (h : shape.read payload root floor field bytes = some row) (hfloor : floor ≤ root) :
    (shape.outside row).length ≤ shape.texts * 0x3FFFFFFF := by
  induction shape generalizing floor field bytes with
  | nil => exact Nat.le_refl 0
  | cons part shape ih =>
    obtain ⟨v, next, row', rfl, hpart, hrow⟩ := exists_of_read_cons h
    obtain ⟨-, hnext, hshort⟩ := Part.outside_le_of_read hpart (List.length_take_le _ _) hfloor
    rw [Shape.outside, Shape.texts, List.length_append, Nat.add_mul]
    exact Nat.add_le_add (Part.length_outside_le hshort) (ih hrow hnext)

/-- A row that was read fits wherever it is written, near enough to the front. -/
theorem Shape.fits_of_read {root floor field : Nat} {shape : Shape} {row : shape.Row}
    (h : shape.read payload root floor field bytes = some row) (hfloor : floor ≤ root)
    {field' data' : Nat} (hfield : field' + shape.size ≤ 0x80000000) :
    shape.Fits field' data' row := by
  induction shape generalizing floor field bytes field' data' with
  | nil => exact trivial
  | cons part shape ih =>
    obtain ⟨v, next, row', rfl, hpart, hrow⟩ := exists_of_read_cons h
    obtain ⟨-, hnext, hshort⟩ := Part.outside_le_of_read hpart (List.length_take_le _ _) hfloor
    rw [Shape.size] at hfield
    exact ⟨Part.fits_of_short hshort (by omega), ih hrow hnext (by omega)⟩

theorem Layout.Sound.fits_of_read {count : Nat} {l : Layout count} (hl : l.Sound) {r : l.Root}
    (h : l.read payload = some r) (hpayload : payload.length ≤ 0x80000000) : l.Fits r := by
  obtain ⟨root, bytes, -, -, hrow⟩ := exists_of_read h
  have hlength := hl.length_write_le h
  have hsize := hl.size_eq r.1
  -- the fields only move to the front when the root is written again
  rw [hl.length_write] at hlength
  exact Shape.fits_of_read hrow (Nat.zero_le _) (by omega)

theorem Layout.Sound.fits_of_single {count : Nat} {l : Layout count} (hl : l.Sound) {r : l.Root}
    (h : l.read payload = some r) (hone : ∀ i, (l.shape i).texts ≤ 1)
    (hsize : l.alignment + l.size ≤ 0x40000000) : l.Fits r := by
  obtain ⟨root, bytes, -, -, hrow⟩ := exists_of_read h
  have hone := hone r.1
  have hshape := hl.size_eq r.1
  have houtside := Shape.length_outside_le_of_read hrow (Nat.zero_le _)
  have haligned : aligned ((l.shape r.1).outside r.2).length l.alignment ≤
      ((l.shape r.1).outside r.2).length + l.alignment - 1 := Nat.div_mul_le_self _ _
  exact Shape.fits_of_short (by omega) (by omega)

/-- A message read off a payload, written again. Its bytes are no more than those of the payload.
They are read as the same message just when each text is within the reach of an offset from its
field, for no bytes lead further. All texts are within reach if the payload is no longer than that,
and a message that came in a frame goes on in a frame. -/
structure Normalises {M : Type} (encode : M → Bytes) (decode? : Bytes → Option M) (fits : M → Prop)
    (payload : Bytes) (m : M) : Prop where
  length_le : (encode m).length ≤ payload.length
  understood : payload.length ≤ 0x80000000 → decode? (encode m) = some m
  understood_iff : decode? (encode m) = some m ↔ fits m
  travels : ∀ stream rest, readFrame stream = .ok (payload, rest) → Travels encode decode? m

theorem Layout.Sound.normalises {M : Type} {count : Nat} {l : Layout count} (hl : l.Sound)
    {toRoot : M → l.Root} {ofRoot : l.Root → M} (hto : ∀ m, ofRoot (toRoot m) = m)
    (hof : ∀ r, toRoot (ofRoot r) = r) {m : M} (h : (l.read payload).map ofRoot = some m) :
    Normalises (fun m => l.write (toRoot m)) (fun payload => (l.read payload).map ofRoot)
      (fun m => l.Fits (toRoot m)) payload m := by
  obtain ⟨r, hr, rfl⟩ := Option.map_eq_some_iff.mp h
  have hlength : (l.write (toRoot (ofRoot r))).length ≤ payload.length := by
    rw [hof]
    exact hl.length_write_le hr
  have hiff : (l.read (l.write (toRoot (ofRoot r)))).map ofRoot = some (ofRoot r) ↔
      l.Fits (toRoot (ofRoot r)) := by
    rw [← hl.read_write_iff, hof, Option.map_eq_some_iff]
    constructor
    · rintro ⟨r', hread, he⟩
      rw [hread, ← hof r', he, hof]
    · exact fun hread => ⟨r, hread, rfl⟩
  refine ⟨hlength, fun hpayload => hiff.mpr ?_, hiff, fun stream rest hstream => ?_⟩
  · rw [hof]
    exact hl.fits_of_read hr hpayload
  · exact hl.travels (hto _) (Nat.le_trans hlength (readFrame_eq_ok_iff.mp hstream).1)

/-- Messages of no more than one text are understood again however long the payload was. -/
theorem Layout.Sound.understood_of_single {M : Type} {count : Nat} {l : Layout count}
    (hl : l.Sound) {toRoot : M → l.Root} {ofRoot : l.Root → M} (hof : ∀ r, toRoot (ofRoot r) = r)
    (hone : ∀ i, (l.shape i).texts ≤ 1) (hsize : l.alignment + l.size ≤ 0x40000000) {m : M}
    (h : (l.read payload).map ofRoot = some m) :
    (l.read (l.write (toRoot m))).map ofRoot = some m := by
  obtain ⟨r, hr, rfl⟩ := Option.map_eq_some_iff.mp h
  rw [hof, hl.read_write_iff.mpr (hl.fits_of_single hr hone hsize), Option.map_some]

/-- Every payload of every kind of message that is read at all is normalised. A response and a
reply have one text at most, and so are understood again however long the payload was. -/
theorem messages_normalise :
    (∀ payload m, Request.decode? payload = some m →
      Normalises Request.encode Request.decode? (fun m => Request.layout.Fits m.toRoot) payload m) ∧
      (∀ payload m, Response.decode? payload = some m →
        Normalises Response.encode Response.decode? (fun m => Response.layout.Fits m.toRoot)
          payload m ∧ Response.decode? m.encode = some m) ∧
      (∀ payload m, Callback.decode? payload = some m →
        Normalises Callback.encode Callback.decode? (fun m => Callback.layout.Fits m.toRoot)
          payload m) ∧
      ∀ payload m, Reply.decode? payload = some m →
        Normalises Reply.encode Reply.decode? (fun m => Reply.layout.Fits m.toRoot) payload m ∧
          Reply.decode? m.encode = some m := by
  refine ⟨fun payload m h => ?_, fun payload m h => ⟨?_, ?_⟩, fun payload m h => ?_,
    fun payload m h => ⟨?_, ?_⟩⟩
  · exact Request.sound_layout.normalises Request.ofRoot_toRoot Request.toRoot_ofRoot h
  · exact Response.sound_layout.normalises Response.ofRoot_toRoot Response.toRoot_ofRoot h
  · exact Response.sound_layout.understood_of_single Response.toRoot_ofRoot (by decide)
      (by decide) h
  · exact Callback.sound_layout.normalises Callback.ofRoot_toRoot Callback.toRoot_ofRoot h
  · exact Reply.sound_layout.normalises Reply.ofRoot_toRoot Reply.toRoot_ofRoot h
  · exact Reply.sound_layout.understood_of_single Reply.toRoot_ofRoot (by decide) (by decide) h

/-- Stray bytes around a text outside, in gaps, behind the filler and in place of a text that is
missing. -/
theorem messages_normalise_of_stray :
    let request : Bytes := utf8 "??" ++ utf8 "/apps/editor" ++ utf8 "!!" ++
      8 :: utf8 "gap" ++ 0 :: utf8 "never read!" ++
        (lengthMark 12 ++ Bytes.ofNat 4 (0x100000000 - 30)) ++ (utf8 "v" ++ filler :: utf8 "behind")
    let response : Bytes := Bytes.zeros 8 ++ 1 :: List.replicate 23 7
    let callback : Bytes := utf8 "four" ++ 0 :: List.replicate 39 7
    let reply : Bytes := utf8 "four" ++ 2 :: utf8 "gap" ++ utf8 "late" ++ filler :: utf8 "off"
    (Request.decode? request = some (.set none "/apps/editor" "v") ∧
      (Request.encode (.set none "/apps/editor" "v")).length ≤ request.length ∧
      Travels Request.encode Request.decode? (.set none "/apps/editor" "v")) ∧
      (Response.decode? response = some .ok ∧ (Response.encode .ok).length ≤ response.length ∧
        Response.decode? (Response.encode .ok) = some .ok) ∧
      (Callback.decode? callback = some .ping ∧ (Callback.encode .ping).length ≤ callback.length ∧
        Callback.decode? (Callback.encode .ping) = some .ping) ∧
      Reply.decode? reply = some (.error "late") ∧
      (Reply.encode (.error "late")).length ≤ reply.length ∧
      Reply.decode? (Reply.encode (.error "late")) = some (.error "late") := by
  intro request response callback reply
  obtain ⟨hrequest, hresponse, hcallback, hreply⟩ := messages_normalise
  have hset : Request.decode? request = some (.set none "/apps/editor" "v") := by decide +kernel
  have hok : Response.decode? response = some .ok := by decide +kernel
  have hping : Callback.decode? callback = some .ping := by decide +kernel
  have hlate : Reply.decode? reply = some (.error "late") := by decide +kernel
  have hframe : readFrame (frame request) = .ok (request, []) :=
    readFrame_frame (by decide +kernel)
  exact ⟨⟨hset, (hrequest _ _ hset).length_le, (hrequest _ _ hset).travels _ _ hframe⟩,
    ⟨hok, (hresponse _ _ hok).1.length_le, (hresponse _ _ hok).2⟩,
    ⟨hping, (hcallback _ _ hping).length_le,
      (hcallback _ _ hping).understood (by decide +kernel)⟩,
    hlate, (hreply _ _ hlate).1.length_le, (hreply _ _ hlate).2⟩

end ConfigDaemon.Wire
