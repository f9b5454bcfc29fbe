import ConfigDaemon.Wire.Archive
import ConfigDaemon.Proofs.Text.Utf8

/-! # Archives read back

Reading a payload undoes writing it just when every length and every offset in it fits into its
word. The floor that reading passes along is where writing put the next long string, so each part
is read back at its own field, and a row from part to part.
-/

namespace ConfigDaemon.Wire

open Text

section Texts

variable {payload : Bytes} {root field data : Nat} {s : String}

theorem ofUtf8?_utf8 (s : String) : ofUtf8? (utf8 s) = some s := by
  rw [ofUtf8?, utf8, Utf8.decode_encode, Option.map_some, String.ofList_toList]

theorem length_textField (field data : Nat) (s : String) :
    (textField field data s).length = inlineSize := by
  simp only [textField]
  split
  · rw [List.length_append, List.length_replicate]; omega
  · rw [List.length_append, lengthMark, List.length_cons, Bytes.length_ofNat, Bytes.length_ofNat]
    rfl

theorem takeWhile_utf8 (s : String) (n : Nat) :
    (utf8 s ++ List.replicate n filler).takeWhile (· ≠ filler) = utf8 s := by
  have hs : ∀ b ∈ utf8 s, decide (b ≠ filler) = true := by
    intro b hb
    have hlt : b.toNat < 0xF8 := Utf8.toNat_lt_of_mem_encode hb
    refine decide_eq_true fun he => ?_
    rw [he] at hlt
    exact absurd hlt (by decide)
  have hn : (List.replicate n filler).takeWhile (· ≠ filler) = [] := by
    cases n <;> rfl
  rw [List.takeWhile_append_of_pos hs, hn, List.append_nil]

theorem headD_utf8 (s : String) (n : Nat) :
    ((utf8 s ++ List.replicate n filler).headD 0).toNat / 0x40 ≠ 2 := by
  rw [utf8]
  cases s.toList with
  | nil =>
    have hfiller : filler.toNat / 0x40 ≠ 2 := by decide
    cases n with
    | zero => decide
    | succ n => exact hfiller
  | cons c rest =>
    obtain ⟨b, bytes, hc, hb⟩ := Utf8.exists_encodeChar_eq_cons c
    rw [Utf8.encode, List.flatMap_cons, hc]
    exact hb

theorem length_utf8_le {bytes : Bytes} (h : ofUtf8? bytes = some s) :
    (utf8 s).length ≤ bytes.length := by
  obtain ⟨cs, hcs, rfl⟩ := Option.map_eq_some_iff.mp h
  rw [utf8, String.toList_ofList]
  exact Utf8.length_encode_le_of_decode hcs

/-- The length of a text that does not fit into its field, and the way from the field to its bytes,
fit into their words. -/
def FieldFits (field data : Nat) (s : String) : Prop :=
  inlineSize < (utf8 s).length → (utf8 s).length < 0x40000000 ∧ field ≤ data + 0x80000000

theorem readText_inside (hs : (utf8 s).length ≤ inlineSize) (floor : Nat) :
    readText payload root floor field (textField field data s) = some (s, floor) := by
  simp only [textField, if_pos hs, readText, if_neg (headD_utf8 s _), takeWhile_utf8, ofUtf8?_utf8,
    Option.map_some]

/-- What is read at the field of a text outside: its length and its offset are cut to their
words. -/
theorem readText_outside (hs : inlineSize < (utf8 s).length) (floor : Nat) :
    readText payload root floor field (textField field data s) =
      let length := (utf8 s).length % 0x40000000
      let offset := (data + 0x100000000 - field) % 0x100000000
      let start : Int :=
        field + (if offset < 0x80000000 then (offset : Int) else offset - 0x100000000)
      if inlineSize < length ∧ (floor : Int) ≤ start ∧ start + length ≤ root then
        (ofUtf8? ((payload.drop start.toNat).take length)).map
          fun s => (s, start.toNat + length)
      else none := by
  generalize hn : (utf8 s).length = n at *
  have hmark : (UInt8.ofNat (0x80 + n % 0x40)).toNat = 0x80 + n % 0x40 :=
    Utf8.toNat_continuation n
  have hhead : ((lengthMark n ++ Bytes.ofNat 4 (data + 0x100000000 - field)).headD 0).toNat =
      0x80 + n % 0x40 := hmark
  have hrest : Bytes.toNat (((lengthMark n ++
      Bytes.ofNat 4 (data + 0x100000000 - field)).drop 1).take 3) = n / 0x40 % 0x1000000 := by
    rw [lengthMark, List.cons_append, List.drop_one, List.tail_cons,
      List.take_left' (Bytes.length_ofNat _ _), Bytes.toNat_ofNat]
    rfl
  have hoffset : Bytes.toNat ((lengthMark n ++
      Bytes.ofNat 4 (data + 0x100000000 - field)).drop 4) =
        (data + 0x100000000 - field) % 0x100000000 := by
    rw [List.drop_left' (by rw [lengthMark, List.length_cons, Bytes.length_ofNat]),
      Bytes.toNat_ofNat]
    rfl
  have houtside : (0x80 + n % 0x40) / 0x40 = 2 := by omega
  have hlength : (0x80 + n % 0x40) % 0x40 + 0x40 * (n / 0x40 % 0x1000000) = n % 0x40000000 := by
    omega
  simp only [textField, hn, if_neg (Nat.not_le.mpr hs), readText, hhead, hrest, hoffset, hlength,
    if_pos houtside]

theorem readText_textField (hdata : outside s <+: payload.drop data)
    (hroot : data + (outside s).length ≤ root) (hfield : root ≤ field)
    (hfits : FieldFits field data s) :
    readText payload root data field (textField field data s) =
      some (s, data + (outside s).length) := by
  by_cases hs : (utf8 s).length ≤ inlineSize
  · rw [outside, if_pos hs]
    exact readText_inside hs data
  · obtain ⟨hlength, hoffset⟩ := hfits (Nat.lt_of_not_le hs)
    rw [outside, if_neg hs] at hdata hroot ⊢
    have htake : (payload.drop data).take (utf8 s).length = utf8 s :=
      (List.prefix_iff_eq_take.mp hdata).symm
    have hstart : (field : Int) + (if (data + 0x100000000 - field) % 0x100000000 < 0x80000000
        then (((data + 0x100000000 - field) % 0x100000000 : Nat) : Int)
        else ((data + 0x100000000 - field) % 0x100000000 : Nat) - 0x100000000) = data := by
      split <;> omega
    rw [readText_outside (Nat.lt_of_not_le hs)]
    simp only [hstart, Nat.mod_eq_of_lt hlength]
    rw [if_pos (by omega), Int.toNat_natCast, htake, ofUtf8?_utf8, Option.map_some]

/-- A text is not read back when its length is cut, nor when its offset is, which then leads past
the root. -/
theorem fieldFits_of_readText_textField {floor next : Nat} (hfield : root ≤ field)
    (h : readText payload root floor field (textField field data s) = some (s, next)) :
    FieldFits field data s := by
  intro hs
  rw [readText_outside hs] at h
  dsimp only at h
  generalize hstart : (field : Int) + _ = start at h
  split at h
  · rename_i hlies
    obtain ⟨t, ht, he⟩ := Option.map_eq_some_iff.mp h
    cases he
    have hle := length_utf8_le ht
    rw [List.length_take] at hle
    have hlength : (utf8 s).length < 0x40000000 := by omega
    refine ⟨hlength, Nat.le_of_not_lt fun hfar => ?_⟩
    -- an offset that is too low is read as one that is not negative
    rw [if_pos (by omega)] at hstart
    omega
  · cases h

end Texts

namespace Part

def Narrow : Part → Prop
  | .tag count => count ≤ 0x100
  | _ => True

instance : DecidablePred Narrow
  | .tag count => inferInstanceAs (Decidable (count ≤ 0x100))
  | .gap _ | .word | .longWord | .text | .optionalText => inferInstanceAs (Decidable True)

theorem length_write (field data : Nat) (part : Part) (v : part.Value) :
    (part.write field data v).length = part.size := by
  cases part with
  | gap n => exact List.length_replicate
  | tag count => rfl
  | word => exact Bytes.length_ofNat _ _
  | longWord => exact Bytes.length_ofNat _ _
  | text => exact length_textField field data v
  | optionalText =>
    cases v with
    | none => rfl
    | some s => exact congrArg (· + 4) (length_textField (field + 4) data s)

def Fits (field data : Nat) : (part : Part) → part.Value → Prop
  | .text, s => FieldFits field data s
  | .optionalText, some s => FieldFits (field + 4) data s
  | _, _ => True

variable {payload : Bytes} {root field data : Nat} {part : Part} {v : part.Value}

theorem read_write (hpart : part.Narrow) (hdata : part.outside v <+: payload.drop data)
    (hroot : data + (part.outside v).length ≤ root) (hfield : root ≤ field)
    (hfits : part.Fits field data v) :
    part.read payload root data field (part.write field data v) =
      some (v, data + (part.outside v).length) := by
  cases part with
  | gap n => rfl
  | tag count =>
    have hi : (UInt8.ofNat v).toNat = v := Utf8.toNat_ofNat_of_lt (Nat.lt_of_lt_of_le v.isLt hpart)
    simp only [Part.read, Part.write, List.headD_cons, hi, v.isLt, dif_pos]
    rfl
  | word =>
    have hn : v.toNat % Bytes.capacity 4 = v.toNat := Nat.mod_eq_of_lt v.toNat_lt
    simp only [Part.read, Part.write, Bytes.toNat_ofNat, hn, UInt32.ofNat_toNat]
    rfl
  | longWord =>
    have hn : v.toNat % Bytes.capacity 8 = v.toNat := Nat.mod_eq_of_lt v.toNat_lt
    simp only [Part.read, Part.write, Bytes.toNat_ofNat, hn, UInt64.ofNat_toNat]
    rfl
  | text => exact readText_textField hdata hroot hfield hfits
  | optionalText =>
    cases v with
    | none => rfl
    | some s =>
      have htext := readText_textField hdata hroot (Nat.le_add_right_of_le hfield) hfits
      exact congrArg (Option.map _) htext

theorem fits_of_read_write {floor next : Nat} (hfield : root ≤ field)
    (h : part.read payload root floor field (part.write field data v) = some (v, next)) :
    part.Fits field data v := by
  cases part with
  | gap | tag | word | longWord => exact trivial
  | text => exact fieldFits_of_readText_textField hfield h
  | optionalText =>
    cases v with
    | none => exact trivial
    | some s =>
      obtain ⟨⟨t, next'⟩, htext, he⟩ := Option.map_eq_some_iff.mp h
      cases he
      exact fieldFits_of_readText_textField (Nat.le_add_right_of_le hfield) htext

theorem fits_of_short (h : (part.outside v).length < 0x40000000)
    (hfield : field + part.size ≤ 0x80000000) : part.Fits field data v := by
  have htext : ∀ {s : String} {field : Nat}, (Wire.outside s).length < 0x40000000 →
      field ≤ 0x80000000 → FieldFits field data s := by
    intro s field hs hfield hlong
    rw [Wire.outside, if_neg (Nat.not_le.mpr hlong)] at hs
    exact ⟨hs, Nat.le_add_left_of_le hfield⟩
  cases part with
  | gap | tag | word | longWord => exact trivial
  | text => exact htext h (Nat.le_trans (Nat.le_add_right _ _) hfield)
  | optionalText =>
    cases v with
    | none => exact trivial
    | some s =>
      rw [Part.size] at hfield
      exact htext h (by omega)

end Part

namespace Shape

theorem length_write (field data : Nat) (shape : Shape) (row : shape.Row) :
    (shape.write field data row).length = shape.size := by
  induction shape generalizing field data with
  | nil => rfl
  | cons part shape ih => rw [write, List.length_append, part.length_write, ih, size]

/-- The texts of a row fit into their fields, each with its outside bytes behind those of the texts
before it. -/
def Fits (field data : Nat) : (shape : Shape) → shape.Row → Prop
  | [], _ => True
  | part :: shape, (v, row) =>
    part.Fits field data v ∧
      Fits (field + part.size) (data + (part.outside v).length) shape row

/-- A row is read back just when its texts fit. -/
theorem read_write_iff {payload : Bytes} {root field data : Nat} {shape : Shape}
    (hshape : ∀ part ∈ shape, part.Narrow) {row : shape.Row}
    (hdata : shape.outside row <+: payload.drop data)
    (hroot : data + (shape.outside row).length ≤ root) (hfield : root ≤ field) :
    shape.read payload root data field (shape.write field data row) = some row ↔
      shape.Fits field data row := by
  induction shape generalizing field data with
  | nil => exact iff_of_true rfl trivial
  | cons part shape ih =>
    obtain ⟨v, row⟩ := row
    obtain ⟨hpart, hparts⟩ := List.forall_mem_cons.mp hshape
    simp only [outside, List.length_append] at hdata hroot
    have hfirst := (List.prefix_append (part.outside v) (outside shape row)).trans hdata
    have hothers : outside shape row <+: payload.drop (data + (part.outside v).length) := by
      obtain ⟨rest, hrest⟩ := hdata
      refine ⟨rest, ?_⟩
      rw [← List.drop_drop, ← hrest, List.append_assoc, List.drop_left]
    have hrow := @ih (field + part.size) _ hparts row hothers (by omega) (by omega)
    rw [write, read, List.take_left' (part.length_write _ _ _),
      List.drop_left' (part.length_write _ _ _), Fits, ← hrow]
    -- the rest is only read from the right place when the part was read back, floor and all
    constructor
    · intro h
      split at h
      · cases h
      · rename_i w next hread
        obtain ⟨row', hrow', he⟩ := Option.map_eq_some_iff.mp h
        cases he
        have hfits := Part.fits_of_read_write hfield hread
        rw [Part.read_write hpart hfirst (by omega) hfield hfits] at hread
        cases hread
        exact ⟨hfits, hrow'⟩
    · rintro ⟨hfits, hrow'⟩
      rw [Part.read_write hpart hfirst (by omega) hfield hfits]
      simp only [hrow', Option.map_some]

theorem fits_of_short {field data : Nat} {shape : Shape} {row : shape.Row}
    (h : (shape.outside row).length < 0x40000000) (hfield : field + shape.size ≤ 0x80000000) :
    shape.Fits field data row := by
  induction shape generalizing field data with
  | nil => exact trivial
  | cons part shape ih =>
    obtain ⟨v, row⟩ := row
    simp only [outside, List.length_append] at h
    simp only [size] at hfield
    exact ⟨Part.fits_of_short (by omega) (by omega), ih (by omega) (by omega)⟩

end Shape

theorem le_aligned (n : Nat) {alignment : Nat} (h : 0 < alignment) : n ≤ aligned n alignment := by
  have hdiv := Nat.div_add_mod (n + alignment - 1) alignment
  have hmod := Nat.mod_lt (n + alignment - 1) h
  rw [Nat.mul_comm] at hdiv
  rw [aligned]
  omega

namespace Layout

variable {count : Nat}

/-- The tag of a root fits into its byte, and with the shape that it selects fills the root. -/
structure Sound (l : Layout count) : Prop where
  count_le : count ≤ 0x100
  alignment_pos : 0 < l.alignment
  size_eq : ∀ i, l.size = (l.shape i).size + 1
  narrow : ∀ i, ∀ part ∈ l.shape i, part.Narrow

def Fits (l : Layout count) (r : l.Root) : Prop :=
  (l.shape r.1).Fits (aligned ((l.shape r.1).outside r.2).length l.alignment + 1) 0 r.2

variable {l : Layout count}

theorem Sound.length_write (hl : l.Sound) (r : l.Root) :
    (l.write r).length = aligned ((l.shape r.1).outside r.2).length l.alignment + l.size := by
  have hle := le_aligned ((l.shape r.1).outside r.2).length hl.alignment_pos
  have hsize := hl.size_eq r.1
  simp only [Layout.write, List.length_append, Bytes.zeros, List.length_replicate,
    List.length_cons, Shape.length_write]
  omega

theorem Sound.fits_of_short (hl : l.Sound) {r : l.Root} (h : (l.write r).length ≤ 0x40000000) :
    l.Fits r := by
  have hle := le_aligned ((l.shape r.1).outside r.2).length hl.alignment_pos
  have hsize := hl.size_eq r.1
  rw [hl.length_write] at h
  exact Shape.fits_of_short (by omega) (by omega)

theorem Sound.read_write_iff (hl : l.Sound) {r : l.Root} :
    l.read (l.write r) = some r ↔ l.Fits r := by
  have hlength := hl.length_write r
  obtain ⟨i, row⟩ := r
  simp only [write, Fits] at hlength ⊢
  generalize hd : (l.shape i).outside row = outer at *
  have hle := le_aligned outer.length hl.alignment_pos
  have hmod : aligned outer.length l.alignment % l.alignment = 0 := Nat.mul_mod_left _ _
  generalize aligned outer.length l.alignment = root at *
  have hfront : (outer ++ Bytes.zeros (root - outer.length)).length = root := by
    rw [List.length_append, Bytes.zeros, List.length_replicate]; omega
  have htag : (UInt8.ofNat i).toNat = i :=
    Utf8.toNat_ofNat_of_lt (Nat.lt_of_lt_of_le i.isLt hl.count_le)
  -- from here on only the place of the root in the payload matters
  generalize hp : outer ++ Bytes.zeros (root - outer.length) ++
    UInt8.ofNat i :: (l.shape i).write (root + 1) 0 row = payload at *
  have hdrop : payload.drop root = UInt8.ofNat i :: (l.shape i).write (root + 1) 0 row := by
    rw [← hp, List.drop_left' hfront]
  have houter : (l.shape i).outside row <+: payload.drop 0 :=
    ⟨_, by rw [hd, List.drop_zero, ← hp, List.append_assoc]⟩
  have hrow := Shape.read_write_iff (hl.narrow i) houter
    (by rw [hd, Nat.zero_add]; exact hle) (Nat.le_succ root)
  have hroot : payload.length - l.size = root := by omega
  have hi : ∀ h, (⟨(UInt8.ofNat i).toNat, h⟩ : Fin count) = i := fun _ => Fin.ext htag
  rw [read, hroot, if_pos ⟨by omega, hmod⟩, hdrop, ← hrow]
  simp only
  rw [dif_pos (htag.symm ▸ i.isLt), hi]
  simp

end Layout

end ConfigDaemon.Wire
