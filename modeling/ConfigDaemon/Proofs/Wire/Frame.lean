import ConfigDaemon.Proofs.Wire.Archive
import ConfigDaemon.Wire.Codec
import ConfigDaemon.Wire.Frame

/-! # Messages on a stream

A payload is read off a stream just when it stands there in its frame, whatever follows it, and a
frame that is cut short anywhere is refused as such. The layouts of all four kinds of messages are
sound, so every message that fits into a frame arrives as it was sent.
-/

namespace ConfigDaemon

namespace Wire

variable {payload : Bytes}

theorem take_frame (payload rest : Bytes) :
    (frame payload ++ rest).take 4 = Bytes.ofNat 4 payload.length := by
  rw [frame, List.append_assoc, List.take_left' (Bytes.length_ofNat _ _)]

theorem drop_frame (payload rest : Bytes) : (frame payload ++ rest).drop 4 = payload ++ rest := by
  rw [frame, List.append_assoc, List.drop_left' (Bytes.length_ofNat _ _)]

theorem length_frame (payload : Bytes) : (frame payload).length = 4 + payload.length := by
  rw [frame, List.length_append, Bytes.length_ofNat]

theorem toNat_length (h : payload.length ≤ frameLimit) :
    Bytes.toNat (Bytes.ofNat 4 payload.length) = payload.length := by
  have hcapacity : Bytes.capacity 4 = 0x100000000 := rfl
  rw [frameLimit] at h
  rw [Bytes.toNat_ofNat, hcapacity]
  omega

theorem ofNat_toNat (bytes : Bytes) : Bytes.ofNat bytes.length (Bytes.toNat bytes) = bytes := by
  induction bytes with
  | nil => rfl
  | cons b rest ih =>
    have hb := b.toNat_lt
    have hlow : UInt8.ofNat (b.toNat + 0x100 * Bytes.toNat rest) = b := by
      rw [← UInt8.toNat_inj, UInt8.toNat_ofNat']
      omega
    have hhigh : (b.toNat + 0x100 * Bytes.toNat rest) / 0x100 = Bytes.toNat rest := by omega
    rw [List.length_cons, Bytes.toNat, Bytes.ofNat, hlow, hhigh, ih]

/-- What is read off a stream is a payload within the limit that stands there in its frame, and any
such payload is read. -/
theorem readFrame_eq_ok_iff {stream rest : Bytes} :
    readFrame stream = .ok (payload, rest) ↔
      payload.length ≤ frameLimit ∧ stream = frame payload ++ rest := by
  constructor
  · intro h
    unfold readFrame at h
    simp only at h
    split_ifs at h with hshort hover hcut
    cases h
    have hfour : (stream.take 4).length = 4 := by rw [List.length_take]; omega
    have hlength := List.length_take_of_le (Nat.not_lt.mp hcut)
    have hprefix := ofNat_toNat (stream.take 4)
    rw [hfour] at hprefix
    refine ⟨hlength.trans_le (Nat.not_lt.mp hover), ?_⟩
    rw [frame, hlength, hprefix, List.append_assoc, List.take_append_drop, List.take_append_drop]
  · rintro ⟨h, rfl⟩
    have hlong : ¬ (frame payload ++ rest).length < 4 := by
      rw [List.length_append, length_frame]; omega
    have hall : ¬ (payload ++ rest).length < payload.length := by
      rw [List.length_append]; omega
    rw [readFrame, if_neg hlong]
    simp only [take_frame, drop_frame, toNat_length h, if_neg (Nat.not_lt.mpr h), if_neg hall,
      List.take_left, List.drop_left]

theorem readFrame_frame (h : payload.length ≤ frameLimit) :
    readFrame (frame payload) = .ok (payload, []) :=
  readFrame_eq_ok_iff.mpr ⟨h, (List.append_nil _).symm⟩

/-- A payload over the limit is refused with its length, as long as that fits into its bytes. -/
theorem readFrame_frame_of_over (h : frameLimit < payload.length)
    (hcapacity : payload.length < Bytes.capacity 4) :
    readFrame (frame payload) = .error (.overLimit payload.length) := by
  have htake := take_frame payload []
  have hlong : ¬ (frame payload).length < 4 := by rw [length_frame]; omega
  rw [List.append_nil] at htake
  rw [readFrame, if_neg hlong]
  simp only [htake, Bytes.toNat_ofNat, Nat.mod_eq_of_lt hcapacity]
  exact if_pos h

theorem readFrame_take (h : payload.length ≤ frameLimit) {n : Nat}
    (hn : n < (frame payload).length) :
    readFrame ((frame payload).take n) = .error .earlyEnd := by
  rw [length_frame] at hn
  have hlength : ((frame payload).take n).length = n := by
    rw [List.length_take, length_frame]; omega
  by_cases hshort : n < 4
  · rw [readFrame, hlength, if_pos hshort]
  · have htake : ((frame payload).take n).take 4 = Bytes.ofNat 4 payload.length := by
      rw [List.take_take, Nat.min_eq_left (Nat.not_lt.mp hshort)]
      simpa only [List.append_nil] using take_frame payload []
    have hcut : (((frame payload).take n).drop 4).length < payload.length := by
      rw [List.length_drop, hlength]; omega
    rw [readFrame, hlength, if_neg hshort]
    simp only [htake, toNat_length h, if_neg (Nat.not_lt.mpr h), if_pos hcut]

/-- A message is read off a stream as it was sent, whatever follows it, and no part of its frame is
taken for a frame. -/
structure Travels {M : Type} (encode : M → Bytes) (decode? : Bytes → Option M) (m : M) :
    Prop where
  arrives : ∀ rest, readFrame (frame (encode m) ++ rest) = .ok (encode m, rest)
  understood : decode? (encode m) = some m
  cut : ∀ n < (frame (encode m)).length, readFrame ((frame (encode m)).take n) = .error .earlyEnd

theorem Layout.Sound.travels {M : Type} {count : Nat} {l : Layout count} (hl : l.Sound)
    {toRoot : M → l.Root} {ofRoot : l.Root → M} {m : M} (hroot : ofRoot (toRoot m) = m)
    (hm : (l.write (toRoot m)).length ≤ frameLimit) :
    Travels (fun m => l.write (toRoot m)) (fun payload => (l.read payload).map ofRoot) m where
  arrives _ := readFrame_eq_ok_iff.mpr ⟨hm, rfl⟩
  understood := by
    have hfits := hl.fits_of_short (Nat.le_trans hm (by decide))
    rw [hl.read_write_iff.mpr hfits, Option.map_some, hroot]
  cut _ hn := readFrame_take hm hn

end Wire

open Wire

theorem Request.sound_layout : Request.layout.Sound :=
  ⟨by decide, by decide, by decide, by decide⟩

theorem Response.sound_layout : Response.layout.Sound :=
  ⟨by decide, by decide, by decide, by decide⟩

theorem Callback.sound_layout : Callback.layout.Sound :=
  ⟨by decide, by decide, by decide, by decide⟩

theorem Reply.sound_layout : Reply.layout.Sound :=
  ⟨by decide, by decide, by decide, by decide⟩

namespace Wire

/-- Every message that fits into a frame travels. -/
theorem messages_travel :
    (∀ m : Request, m.encode.length ≤ frameLimit → Travels Request.encode Request.decode? m) ∧
      (∀ m : Response, m.encode.length ≤ frameLimit →
        Travels Response.encode Response.decode? m) ∧
      (∀ m : Callback, m.encode.length ≤ frameLimit →
        Travels Callback.encode Callback.decode? m) ∧
      ∀ m : Reply, m.encode.length ≤ frameLimit → Travels Reply.encode Reply.decode? m := by
  refine ⟨fun m hm => ?_, fun m hm => ?_, fun m hm => ?_, fun m hm => ?_⟩
  · exact Request.sound_layout.travels (Request.ofRoot_toRoot m) hm
  · exact Response.sound_layout.travels (Response.ofRoot_toRoot m) hm
  · exact Callback.sound_layout.travels (Callback.ofRoot_toRoot m) hm
  · exact Reply.sound_layout.travels (Reply.ofRoot_toRoot m) hm

/-- Texts of eight bytes in their fields, of nine and of sixty-four outside, and none at all. -/
theorem messages_travel_at_eight_nine_sixty_four :
    let eight := "database"
    let nine := "/café/db"
    let long := "/run/confd/client-1-0.sock-/run/confd/client-1-0.sock-0123456789"
    Travels Request.encode Request.decode? (.subscribe (some eight) nine long) ∧
      Travels Response.encode Response.decode? (.pong 7 0x10000000000 nine) ∧
      Travels Callback.encode Callback.decode? (.notify ⟨none, 1, long, some eight⟩) ∧
      Travels Reply.encode Reply.decode? (.error "") := by
  intro eight nine long
  obtain ⟨hrequest, hresponse, hcallback, hreply⟩ := messages_travel
  refine ⟨?_, ?_, ?_, ?_⟩
  · exact hrequest _ (by decide +kernel)
  · exact hresponse _ (by decide +kernel)
  · exact hcallback _ (by decide +kernel)
  · exact hreply _ (by decide +kernel)

end Wire

end ConfigDaemon
