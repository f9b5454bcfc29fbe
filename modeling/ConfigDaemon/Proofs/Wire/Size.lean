import ConfigDaemon.Proofs.Wire.Frame

/-! # The size of messages

An archive is as long as its root and its outside bytes, aligned. A message that was read off a
payload is never longer when it is written again, for each text that was outside takes its own
stretch of the payload. The notification of a change is eight bytes longer than the request for
the change, and the size of a response is that of its one text.
-/

namespace ConfigDaemon

namespace Wire

open Text

variable {payload bytes : Bytes} {root floor next field : Nat} {s : String}

theorem length_utf8_append (s t : String) :
    (utf8 (s ++ t)).length = (utf8 s).length + (utf8 t).length := by
  rw [utf8, String.toList_append, Utf8.encode_append, List.length_append]
  rfl

theorem length_utf8_le_max (s : String) :
    (utf8 s).length ≤ max inlineSize (outside s).length := by
  unfold outside
  split
  · exact Nat.le_trans ‹_› (Nat.le_max_left _ _)
  · exact Nat.le_max_right _ _

theorem outside_of_long (h : inlineSize < (utf8 s).length) : outside s = utf8 s :=
  if_neg (Nat.not_le.mpr h)

theorem length_outside_le (s : String) : (outside s).length ≤ (utf8 s).length := by
  unfold outside
  split
  · exact Nat.zero_le _
  · exact Nat.le_refl _

theorem aligned_le {n alignment : Nat} (h : n ≤ root) (hroot : root % alignment = 0) :
    aligned n alignment ≤ root := by
  rcases Nat.eq_zero_or_pos alignment with rfl | hpos
  · exact Nat.zero_le _
  · obtain ⟨k, rfl⟩ := Nat.dvd_of_mod_eq_zero hroot
    rw [aligned, Nat.mul_comm alignment k]
    refine Nat.mul_le_mul_right _ (Nat.le_of_lt_succ ?_)
    rw [Nat.div_lt_iff_lt_mul hpos, Nat.succ_mul, Nat.mul_comm k]
    omega

/-- The outside bytes of a text lie between the floor and the next one, and their length is read
off thirty bits. -/
theorem outside_le_of_readText (h : readText payload root floor field bytes = some (s, next))
    (hbytes : bytes.length ≤ inlineSize) (hfloor : floor ≤ root) :
    floor + (outside s).length ≤ next ∧ next ≤ root ∧ (outside s).length < 0x40000000 := by
  unfold readText at h
  dsimp only at h
  split at h
  · generalize (field : Int) + _ = start at h
    split at h
    · rename_i hlies
      obtain ⟨t, ht, he⟩ := Option.map_eq_some_iff.mp h
      cases he
      have hrest : Bytes.toNat ((bytes.drop 1).take 3) < 0x1000000 :=
        Bytes.toNat_lt_capacity (List.length_take_le _ _)
      have hlength := length_utf8_le ht
      rw [List.length_take] at hlength
      have hout := length_outside_le s
      omega
    · cases h
  · obtain ⟨t, ht, he⟩ := Option.map_eq_some_iff.mp h
    cases he
    have hlength := Nat.le_trans (length_utf8_le ht) (List.takeWhile_sublist _).length_le
    rw [outside, if_pos (Nat.le_trans hlength hbytes)]
    exact ⟨Nat.le_refl _, hfloor, by decide⟩

theorem Part.outside_le_of_read {part : Part} {v : part.Value}
    (h : part.read payload root floor field bytes = some (v, next))
    (hbytes : bytes.length ≤ part.size) (hfloor : floor ≤ root) :
    floor + (part.outside v).length ≤ next ∧ next ≤ root ∧
      (part.outside v).length < 0x40000000 := by
  have hsame : ∀ {next : Nat}, floor = next →
      floor ≤ next ∧ next ≤ root ∧ ([] : Bytes).length < 0x40000000 := by
    rintro next rfl
    exact ⟨Nat.le_refl _, hfloor, by decide⟩
  cases part with
  | gap n => exact hsame (congrArg Prod.snd (Option.some.inj h))
  | tag count =>
    simp only [Part.read] at h
    split at h
    · exact hsame (congrArg Prod.snd (Option.some.inj h))
    · cases h
  | word => exact hsame (congrArg Prod.snd (Option.some.inj h))
  | longWord => exact hsame (congrArg Prod.snd (Option.some.inj h))
  | text => exact outside_le_of_readText h hbytes hfloor
  | optionalText =>
    simp only [Part.read] at h
    split at h
    · cases h
      exact hsame rfl
    · obtain ⟨⟨t, next'⟩, ht, he⟩ := Option.map_eq_some_iff.mp h
      cases he
      refine outside_le_of_readText ht ?_ hfloor
      rw [List.length_drop]
      exact Nat.sub_le_of_le_add hbytes
    · cases h

theorem Shape.exists_of_read_cons {part : Part} {shape : Shape} {row : Row (part :: shape)}
    (h : Shape.read payload root floor field bytes (part :: shape) = some row) :
    ∃ v next row', row = (v, row') ∧
      part.read payload root floor field (bytes.take part.size) = some (v, next) ∧
      shape.read payload root next (field + part.size) (bytes.drop part.size) = some row' := by
  rw [Shape.read] at h
  split at h
  · cases h
  · rename_i v next hpart
    obtain ⟨row', hrow, rfl⟩ := Option.map_eq_some_iff.mp h
    exact ⟨v, next, row', rfl, hpart, hrow⟩

theorem Shape.outside_le_of_read {shape : Shape} {row : shape.Row}
    (h : shape.read payload root floor field bytes = some row) (hfloor : floor ≤ root) :
    floor + (shape.outside row).length ≤ root := by
  induction shape generalizing floor field bytes with
  | nil => exact hfloor
  | cons part shape ih =>
    obtain ⟨v, next, row', rfl, hpart, hrow⟩ := exists_of_read_cons h
    obtain ⟨hfirst, hnext, -⟩ := Part.outside_le_of_read hpart (List.length_take_le _ _) hfloor
    have hothers := ih hrow hnext
    rw [Shape.outside, List.length_append]
    omega

namespace Layout

variable {count : Nat} {l : Layout count} {r : l.Root}

theorem exists_of_read (h : l.read payload = some r) :
    ∃ root bytes, payload.length = root + l.size ∧ root % l.alignment = 0 ∧
      (l.shape r.1).read payload root 0 (root + 1) bytes = some r.2 := by
  simp only [Layout.read] at h
  split at h
  · rename_i hfits
    split at h
    · cases h
    · split at h
      · obtain ⟨row, hrow, rfl⟩ := Option.map_eq_some_iff.mp h
        exact ⟨_, _, (Nat.sub_add_cancel hfits.1).symm, hfits.2, hrow⟩
      · cases h
  · cases h

/-- A root that is read off a payload fits into it again. -/
theorem Sound.length_write_le (hl : l.Sound) (h : l.read payload = some r) :
    (l.write r).length ≤ payload.length := by
  obtain ⟨root, bytes, hlength, hroot, hrow⟩ := exists_of_read h
  have houtside := Shape.outside_le_of_read hrow (Nat.zero_le _)
  rw [Nat.zero_add] at houtside
  rw [hl.length_write, hlength]
  exact Nat.add_le_add_right (aligned_le houtside hroot) _

end Layout

end Wire

open Wire

namespace Request

theorem length_encode_le {payload : Bytes} {r : Request} (h : decode? payload = some r) :
    r.encode.length ≤ payload.length := by
  obtain ⟨root, hroot, rfl⟩ := Option.map_eq_some_iff.mp h
  rw [encode, toRoot_ofRoot]
  exact sound_layout.length_write_le hroot

def texts : Request → List String
  | .ping | .shutdown | .getDefaultDatabase => []
  | .getDatabase address => [address]
  | .addClient client | .removeClient client => [client]
  | .subscribe database location client => database.toList ++ [location, client]
  | .unsubscribe database _ => database.toList
  | .set database key value => database.toList ++ [key, value]
  | .unset database key | .lookup database key => database.toList ++ [key]

theorem length_encode (r : Request) :
    r.encode.length = aligned (r.texts.flatMap outside).length 4 + 32 := by
  have houtside : (layout.shape r.toRoot.1).outside r.toRoot.2 = r.texts.flatMap outside := by
    cases r with
    | subscribe database | unsubscribe database | set database | unset database
    | lookup database =>
      cases database <;> simp [toRoot, layout, Shape.outside, Part.outside, texts]
    | _ => simp [toRoot, layout, Shape.outside, Part.outside, texts]
  rw [encode, sound_layout.length_write, houtside]
  rfl

theorem length_text_le {r : Request} {s : String} (h : s ∈ r.texts) :
    (outside s).length + 32 ≤ r.encode.length := by
  have haligned := @le_aligned (r.texts.flatMap outside).length 4 (Nat.zero_lt_succ 3)
  obtain ⟨before, after, htexts⟩ := List.append_of_mem h
  have hparts : (outside s).length ≤ (r.texts.flatMap outside).length := by
    rw [htexts, List.flatMap_append, List.flatMap_cons, List.length_append, List.length_append]
    omega
  rw [length_encode]
  omega

end Request

namespace Response

/-- The text of a response, which has no more than one. -/
def text : Response → String
  | .pong _ _ version => version
  | .database address => address.getD ""
  | .value v => v.getD ""
  | .error _ message => message
  | .ok | .subscribed _ => ""

theorem length_encode (r : Response) :
    r.encode.length = aligned (outside r.text).length 8 + 24 := by
  have houtside : (layout.shape r.toRoot.1).outside r.toRoot.2 = outside r.text := by
    cases r with
    | ok | subscribed id => rfl
    | database v | value v => cases v <;> exact List.append_nil _
    | _ => exact List.append_nil _
  rw [encode, sound_layout.length_write, houtside]
  rfl

end Response

namespace Notification

def texts (n : Notification) : List String :=
  n.database.toList ++ n.key :: n.value.toList

theorem length_encode {n : Notification} {r : Request} (h : n.texts = r.texts) :
    (Callback.notify n).encode.length = r.encode.length + 8 := by
  have houtside : (Callback.layout.shape (Callback.notify n).toRoot.1).outside
      (Callback.notify n).toRoot.2 = n.texts.flatMap outside := by
    obtain ⟨database, id, key, value⟩ := n
    cases database <;> cases value <;>
      simp [Callback.toRoot, Callback.layout, Shape.outside, Part.outside, texts]
  rw [Callback.encode, Callback.sound_layout.length_write, houtside, h, Request.length_encode]
  rfl

end Notification

end ConfigDaemon
