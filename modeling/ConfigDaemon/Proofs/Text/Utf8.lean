import Mathlib.Algebra.Group.Nat.Defs
import Mathlib.Order.Basic
import Mathlib.Tactic.SplitIfs
import ConfigDaemon.Text.Utf8

/-! # UTF-8 read back

Reading undoes writing. An ASCII byte belongs to no longer character, so what stands before it is
read as if nothing followed, even if it breaks off inside a character.
-/

namespace ConfigDaemon.Text.Utf8

section Pieces

variable {u : Unfinished} {b : UInt8} {rest : Bytes} {value low high k : Nat}

theorem step_append (done older : List (Option Char)) (u : Option Unfinished) (b : UInt8) :
    step (done ++ older, u) b = ((step (done, u) b).1 ++ older, (step (done, u) b).2) := by
  have hfresh (done : List (Option Char)) :
      fresh (done ++ older) b = ((fresh done b).1 ++ older, (fresh done b).2) := by
    unfold fresh
    cases start b <;> rfl
  cases u with
  | none => exact hfresh done
  | some u =>
    simp only [step]
    split
    · split <;> rfl
    · exact hfresh (none :: done)

theorem foldl_step_append (done older : List (Option Char)) (u : Option Unfinished)
    (bytes : Bytes) :
    bytes.foldl step (done ++ older, u) =
      ((bytes.foldl step (done, u)).1 ++ older, (bytes.foldl step (done, u)).2) := by
  induction bytes generalizing done u with
  | nil => rfl
  | cons b rest ih => rw [List.foldl_cons, List.foldl_cons, step_append, ih]

theorem pieces_append (u : Option Unfinished) (bytes rest : Bytes) :
    pieces u (bytes ++ rest) = (bytes.foldl step ([], u)).1.reverse ++
      pieces (bytes.foldl step ([], u)).2 rest := by
  rw [pieces, pieces, List.foldl_append]
  generalize bytes.foldl step ([], u) = p
  obtain ⟨done, v⟩ := p
  have h := foldl_step_append [] done v rest
  rw [List.nil_append] at h
  rw [h]
  generalize rest.foldl step ([], v) = q
  rcases q with ⟨later, _ | w⟩ <;> simp [finish]

theorem pieces_cons (u : Option Unfinished) (b : UInt8) (rest : Bytes) :
    pieces u (b :: rest) = (step ([], u) b).1.reverse ++ pieces (step ([], u) b).2 rest :=
  pieces_append u [b] rest

/-- A byte finds a piece or leaves a character unfinished. -/
theorem step_progress (u : Option Unfinished) (b : UInt8) :
    (step ([], u) b).1 ≠ [] ∨ (step ([], u) b).2 ≠ none := by
  have hfresh : ∀ done, (fresh done b).1 ≠ [] ∨ (fresh done b).2 ≠ none := by
    intro done
    unfold fresh
    cases start b <;> simp
  cases u with
  | none => exact hfresh []
  | some u =>
    simp only [step]
    split
    · split <;> simp
    · exact hfresh [none]

theorem pieces_ne_nil {u : Option Unfinished} {bytes : Bytes} (h : u ≠ none ∨ bytes ≠ []) :
    pieces u bytes ≠ [] := by
  induction bytes generalizing u with
  | nil =>
    cases u with
    | none => simp at h
    | some u => exact List.cons_ne_nil _ _
  | cons b rest ih =>
    rw [pieces_cons]
    rcases step_progress u b with hdone | hnext
    · simp [hdone]
    · simp [ih (.inl hnext)]

theorem pieces_none_nil : pieces none [] = [] := rfl

theorem pieces_some (u : Unfinished) (b : UInt8) (rest : Bytes) :
    pieces (some u) (b :: rest) =
      if u.low ≤ b.toNat ∧ b.toNat ≤ u.high then
        if u.owed ≤ 1 then
          some (Char.ofNat (u.value * 0x40 + (b.toNat - 0x80))) :: pieces none rest
        else pieces (some ⟨u.value * 0x40 + (b.toNat - 0x80), u.owed - 1, 0x80, 0xBF⟩) rest
      else none :: pieces none (b :: rest) := by
  rw [pieces_cons, pieces_cons]
  simp only [step]
  split
  · split <;> rfl
  · have hfresh := step_append [] [none] none b
    simp only [step, List.nil_append] at hfresh
    rw [hfresh, List.reverse_append]
    rfl

theorem pieces_next (owed : Nat) (hb : b.toNat = 0x80 + k) (hl : low ≤ 0x80 + k)
    (hh : 0x80 + k ≤ high) :
    pieces (some ⟨value, owed + 2, low, high⟩) (b :: rest) =
      pieces (some ⟨value * 0x40 + k, owed + 1, 0x80, 0xBF⟩) rest := by
  simp only [pieces_some, hb, Nat.add_sub_cancel_left]
  rw [if_pos ⟨hl, hh⟩, if_neg (by omega)]
  rfl

theorem pieces_last (hb : b.toNat = 0x80 + k) (hl : low ≤ 0x80 + k) (hh : 0x80 + k ≤ high) :
    pieces (some ⟨value, 1, low, high⟩) (b :: rest) =
      some (Char.ofNat (value * 0x40 + k)) :: pieces none rest := by
  simp only [pieces_some, hb, Nat.add_sub_cancel_left]
  rw [if_pos ⟨hl, hh⟩, if_pos (by decide)]

theorem pieces_lead (h : start b = .lead u) : pieces none (b :: rest) = pieces (some u) rest := by
  rw [pieces_cons, step, fresh, h]
  rfl

theorem pieces_whole {c : Char} (h : start b = .whole c) :
    pieces none (b :: rest) = some c :: pieces none rest := by
  rw [pieces_cons, step, fresh, h]
  rfl

theorem pieces_stray (h : start b = .stray) :
    pieces none (b :: rest) = none :: pieces none rest := by
  rw [pieces_cons, step, fresh, h]
  rfl

end Pieces

theorem toNat_ofNat_of_lt {n : Nat} (h : n < 0x100) : (UInt8.ofNat n).toNat = n := by
  rw [UInt8.toNat_ofNat']; omega

theorem char_bounds (c : Char) : c.toNat < 0xD800 ∨ 0xDFFF < c.toNat ∧ c.toNat < 0x110000 :=
  c.valid

theorem start_two {n : Nat} (hl : 0x80 ≤ n) (hh : n < 0x800) :
    start (.ofNat (0xC0 + n / 0x40)) = .lead ⟨n / 0x40, 1, 0x80, 0xBF⟩ := by
  have hb : (UInt8.ofNat (0xC0 + n / 0x40)).toNat = 0xC0 + n / 0x40 := toNat_ofNat_of_lt (by omega)
  simp only [start, hb]
  rw [if_neg (by omega), if_neg (by omega), if_pos (by omega), Nat.add_sub_cancel_left]

/-- What the first of three bytes begins; the range of the second depends on it. -/
theorem start_three {n : Nat} (hl : 0x800 ≤ n) (hh : n < 0x10000)
    (hs : n < 0xD800 ∨ 0xDFFF < n) :
    ∃ low high, start (.ofNat (0xE0 + n / 0x1000)) = .lead ⟨n / 0x1000, 2, low, high⟩ ∧
      low ≤ 0x80 + n / 0x40 % 0x40 ∧ 0x80 + n / 0x40 % 0x40 ≤ high := by
  have hb : (UInt8.ofNat (0xE0 + n / 0x1000)).toNat = 0xE0 + n / 0x1000 :=
    toNat_ofNat_of_lt (by omega)
  simp only [start, hb]
  rw [if_neg (by omega), if_neg (by omega), if_neg (by omega)]
  split_ifs with h₁ h₂ h₃
  · have hv : n / 0x1000 = 0 := by omega
    exact ⟨0xA0, 0xBF, by rw [hv], by omega, by omega⟩
  · have hv : n / 0x1000 = 0xD := by omega
    exact ⟨0x80, 0x9F, by rw [hv], by omega, by omega⟩
  · exact ⟨0x80, 0xBF, by rw [Nat.add_sub_cancel_left], by omega, by omega⟩
  all_goals omega

theorem start_four {n : Nat} (hl : 0x10000 ≤ n) (hh : n < 0x110000) :
    ∃ low high, start (.ofNat (0xF0 + n / 0x40000)) = .lead ⟨n / 0x40000, 3, low, high⟩ ∧
      low ≤ 0x80 + n / 0x1000 % 0x40 ∧ 0x80 + n / 0x1000 % 0x40 ≤ high := by
  have hb : (UInt8.ofNat (0xF0 + n / 0x40000)).toNat = 0xF0 + n / 0x40000 :=
    toNat_ofNat_of_lt (by omega)
  simp only [start, hb]
  rw [if_neg (by omega), if_neg (by omega), if_neg (by omega), if_neg (by omega),
    if_neg (by omega), if_neg (by omega)]
  split_ifs with h₁ h₂ h₃
  · have hv : n / 0x40000 = 0 := by omega
    exact ⟨0x90, 0xBF, by rw [hv], by omega, by omega⟩
  · exact ⟨0x80, 0xBF, by rw [Nat.add_sub_cancel_left], by omega, by omega⟩
  · have hv : n / 0x40000 = 4 := by omega
    exact ⟨0x80, 0x8F, by rw [hv], by omega, by omega⟩
  · omega

theorem toNat_continuation (n : Nat) : (UInt8.ofNat (0x80 + n % 0x40)).toNat = 0x80 + n % 0x40 :=
  toNat_ofNat_of_lt (by omega)

theorem pieces_encodeChar (c : Char) (rest : Bytes) :
    pieces none (encodeChar c ++ rest) = some c :: pieces none rest := by
  have hc := char_bounds c
  have he : Char.ofNat c.toNat = c := Char.ofNat_toNat c
  simp only [encodeChar]
  generalize c.toNat = n at hc he ⊢
  split_ifs with h₁ h₂ h₃
  · have hb : (UInt8.ofNat n).toNat = n := toNat_ofNat_of_lt (by omega)
    refine pieces_whole ?_
    simp only [start, hb, if_pos h₁, he]
  · have hn := toNat_continuation n
    have hv : n / 0x40 * 0x40 + n % 0x40 = n := by omega
    rw [List.cons_append, List.cons_append, pieces_lead (start_two (by omega) h₂),
      pieces_last hn (by omega) (by omega), hv, he, List.nil_append]
  · obtain ⟨low, high, hs, hl, hh⟩ := start_three (n := n) (by omega) h₃ (by omega)
    have hm := toNat_continuation (n / 0x40)
    have hn := toNat_continuation n
    have hv : (n / 0x1000 * 0x40 + n / 0x40 % 0x40) * 0x40 + n % 0x40 = n := by omega
    rw [List.cons_append, List.cons_append, List.cons_append, pieces_lead hs,
      pieces_next 0 hm hl hh, pieces_last hn (by omega) (by omega), hv, he, List.nil_append]
  · obtain ⟨low, high, hs, hl, hh⟩ := start_four (n := n) (by omega) (by omega)
    have hk := toNat_continuation (n / 0x1000)
    have hm := toNat_continuation (n / 0x40)
    have hn := toNat_continuation n
    have hv : ((n / 0x40000 * 0x40 + n / 0x1000 % 0x40) * 0x40 + n / 0x40 % 0x40) * 0x40 +
        n % 0x40 = n := by omega
    rw [List.cons_append, List.cons_append, List.cons_append, List.cons_append, pieces_lead hs,
      pieces_next 1 hk hl hh, pieces_next 0 hm (by omega) (by omega),
      pieces_last hn (by omega) (by omega), hv, he, List.nil_append]

theorem pieces_encode (s : List Char) (rest : Bytes) :
    pieces none (encode s ++ rest) = s.map some ++ pieces none rest := by
  induction s with
  | nil => rfl
  | cons c s ih =>
    rw [encode, List.flatMap_cons, List.append_assoc, pieces_encodeChar]
    exact congrArg (some c :: ·) ih

theorem toNat_lt_of_mem_encodeChar {c : Char} {b : UInt8} (h : b ∈ encodeChar c) :
    b.toNat < 0xF8 := by
  have hc := char_bounds c
  simp only [encodeChar] at h
  generalize c.toNat = n at hc h
  have hb : ∀ k < 0xF8, b = UInt8.ofNat k → b.toNat < 0xF8 := fun k hk he => by
    rw [he, toNat_ofNat_of_lt (by omega)]; exact hk
  split_ifs at h
  all_goals simp only [List.mem_cons, List.not_mem_nil, or_false] at h
  · exact hb _ (by omega) h
  · rcases h with h | h <;> exact hb _ (by omega) h
  · rcases h with h | h | h <;> exact hb _ (by omega) h
  · rcases h with h | h | h | h <;> exact hb _ (by omega) h

theorem toNat_lt_of_mem_encode {s : List Char} {b : UInt8} (h : b ∈ encode s) :
    b.toNat < 0xF8 := by
  obtain ⟨c, -, hb⟩ := List.mem_flatMap.mp h
  exact toNat_lt_of_mem_encodeChar hb

theorem exists_encodeChar_eq_cons (c : Char) :
    ∃ b rest, encodeChar c = b :: rest ∧ b.toNat / 0x40 ≠ 2 := by
  have hc := char_bounds c
  simp only [encodeChar]
  generalize c.toNat = n at hc
  split_ifs
  all_goals
    refine ⟨_, _, rfl, ?_⟩
    rw [toNat_ofNat_of_lt (by omega)]
    omega

/-! ## What a byte begins -/

theorem toNat_ofNat_of_isValidChar {n : Nat} (h : n.isValidChar) : (Char.ofNat n).toNat = n := by
  rw [Char.ofNat, dif_pos h]
  rfl

theorem toNat_ofNat_of_not_isValidChar {n : Nat} (h : ¬n.isValidChar) :
    (Char.ofNat n).toNat = 0 := by
  rw [Char.ofNat, dif_neg h]
  rfl

theorem toNat_ofNat_le (n : Nat) : (Char.ofNat n).toNat ≤ n := by
  by_cases h : n.isValidChar
  · exact Nat.le_of_eq (toNat_ofNat_of_isValidChar h)
  · rw [toNat_ofNat_of_not_isValidChar h]
    exact Nat.zero_le n

theorem length_encodeChar_ofNat_le (n : Nat) : (encodeChar (Char.ofNat n)).length ≤
    if n < 0x80 then 1 else if n < 0x800 then 2 else if n < 0x10000 then 3 else 4 := by
  have hn := toNat_ofNat_le n
  simp only [encodeChar]
  split_ifs <;> simp only [List.length_cons, List.length_nil] <;> omega

/-- A character that has some of its bytes and owes the others fits into all of them. -/
structure Unfinished.Fits (u : Unfinished) (had : Nat) : Prop where
  owes : 0 < u.owed
  continues : 0x80 ≤ u.low ∧ u.high ≤ 0xBF
  width : ∀ n, n / 0x40 ^ u.owed = u.value → (encodeChar (Char.ofNat n)).length ≤ had + u.owed

/-- Whatever completes it, the character will not be ASCII. -/
def Unfinished.Wide (u : Unfinished) : Prop :=
  0x80 ≤ (u.value * 0x40 + (u.low - 0x80)) * 0x40 ^ (u.owed - 1)

/-- A byte is a character by itself, or begins one that is not ASCII and fits with the bytes that
it owes. -/
theorem start_spec (b : UInt8) :
    match start b with
    | .whole c => UInt8.ofNat c.toNat = b ∧ (encodeChar c).length ≤ 1
    | .lead u => u.Fits 1 ∧ u.Wide
    | .stray => True := by
  have hb := b.toNat_lt
  simp only [start]
  split_ifs with hascii
  · have hlength := length_encodeChar_ofNat_le b.toNat
    have hvalid := toNat_ofNat_of_isValidChar (.inl (by omega : b.toNat < 0xD800))
    rw [if_pos hascii] at hlength
    simp only [hvalid, UInt8.ofNat_toNat, true_and]
    exact hlength
  all_goals first
    | exact trivial
    | refine ⟨⟨Nat.succ_pos _, ⟨by simp only; omega, by simp only; omega⟩, fun n hn => ?_⟩, ?_⟩
      · refine Nat.le_trans (length_encodeChar_ofNat_le n) ?_
        simp only [Nat.reducePow] at hn ⊢
        split_ifs <;> omega
      · simp only [Unfinished.Wide, Nat.reduceSub, Nat.reducePow]
        omega

theorem spec_of_start_whole {b : UInt8} {c : Char} (h : start b = .whole c) :
    UInt8.ofNat c.toNat = b ∧ (encodeChar c).length ≤ 1 := by
  have hspec := start_spec b
  rwa [h] at hspec

theorem spec_of_start_lead {b : UInt8} {u : Unfinished} (h : start b = .lead u) :
    u.Fits 1 ∧ u.Wide := by
  have hspec := start_spec b
  rwa [h] at hspec

/-! ## Bytes that break off -/

/-- Bytes that break off are read as a part of what is read of all of them, with at most a broken
piece at the end. -/
theorem exists_decodeLenient_take {bytes : Bytes} {k : Nat} (hk : k < bytes.length) :
    ∃ s t, decodeLenient (bytes.take k) = s ++ t ∧ s <+: decodeLenient bytes ∧
      s ≠ decodeLenient bytes ∧ ∀ c ∈ t, c = replacement := by
  have htaken := pieces_append none (bytes.take k) []
  have hall := pieces_append none (bytes.take k) (bytes.drop k)
  rw [List.append_nil] at htaken
  rw [List.take_append_drop] at hall
  generalize (bytes.take k).foldl step ([], none) = p at htaken hall
  obtain ⟨done, v⟩ := p
  have hrest : bytes.drop k ≠ [] := by simpa using hk
  -- Both readings share what is done; then one finds at most a broken piece, the other something.
  refine ⟨done.reverse.map (·.getD replacement), (pieces v []).map (·.getD replacement), ?_, ?_, ?_,
    ?_⟩
  · rw [decodeLenient, htaken, List.map_append]
  · rw [decodeLenient, hall, List.map_append]
    exact List.prefix_append _ _
  · rw [decodeLenient, hall, List.map_append, ne_eq, List.self_eq_append_right, List.map_eq_nil_iff]
    exact pieces_ne_nil (.inr hrest)
  · intro c hc
    cases v with
    | none => cases hc
    | some v => exact List.mem_singleton.mp hc

/-! ## ASCII bytes -/

def AboveAscii (u : Option Unfinished) : Prop :=
  ∀ v ∈ u, 0x80 ≤ v.low

theorem aboveAscii_none : AboveAscii none := by
  rintro _ ⟨⟩

theorem aboveAscii_some {u : Unfinished} (h : 0x80 ≤ u.low) : AboveAscii (some u) := by
  rintro _ ⟨⟩; exact h

theorem aboveAscii_of_start {b : UInt8} {u : Unfinished} (h : start b = .lead u) :
    AboveAscii (some u) :=
  aboveAscii_some (spec_of_start_lead h).1.continues.1

theorem pieces_ascii {u : Option Unfinished} (hu : AboveAscii u) {b : UInt8}
    (hb : b.toNat < 0x80) (rest : Bytes) :
    pieces u (b :: rest) = pieces u [] ++ pieces none (b :: rest) := by
  have hs : start b = .whole (Char.ofNat b.toNat) := by simp only [start, if_pos hb]
  cases u with
  | none => rfl
  | some v =>
    have hv := hu v rfl
    rw [pieces_some, if_neg (by omega)]; rfl

theorem pieces_append_ascii {u : Option Unfinished} (hu : AboveAscii u) (bytes : Bytes)
    {b : UInt8} (hb : b.toNat < 0x80) (rest : Bytes) :
    pieces u (bytes ++ b :: rest) = pieces u bytes ++ pieces none (b :: rest) := by
  induction bytes generalizing u with
  | nil => exact pieces_ascii hu hb rest
  | cons a bytes ih =>
    rw [List.cons_append]
    have fresh : pieces none (a :: (bytes ++ b :: rest)) =
        pieces none (a :: bytes) ++ pieces none (b :: rest) := by
      cases h : start a with
      | whole c => rw [pieces_whole h, pieces_whole h, ih aboveAscii_none, List.cons_append]
      | lead v => rw [pieces_lead h, pieces_lead h, ih (aboveAscii_of_start h)]
      | stray => rw [pieces_stray h, pieces_stray h, ih aboveAscii_none, List.cons_append]
    cases u with
    | none => exact fresh
    | some v =>
      rw [pieces_some, pieces_some]
      split_ifs with hr ho
      · rw [ih aboveAscii_none, List.cons_append]
      · exact ih (aboveAscii_some (by simp only; omega))
      · rw [fresh, List.cons_append]

theorem pieces_none_encode (s : List Char) : pieces none (encode s) = s.map some := by
  have h := pieces_encode s []
  rwa [List.append_nil, pieces_none_nil, List.append_nil] at h

@[simp] theorem decodeLenient_encode (s : List Char) : decodeLenient (encode s) = s := by
  rw [decodeLenient, pieces_none_encode, List.map_map]
  exact List.map_id s

theorem allWhole_eq_some_iff {ps : List (Option Char)} {s : List Char} :
    allWhole ps = some s ↔ ps = s.map some := by
  rw [allWhole]
  constructor
  · intro h
    split at h
    · cases h
    · rename_i hwhole
      cases h
      induction ps with
      | nil => rfl
      | cons p ps ih =>
        rw [List.mem_cons, not_or] at hwhole
        obtain ⟨c, rfl⟩ := Option.ne_none_iff_exists'.mp (Ne.symm hwhole.1)
        exact congrArg (some c :: ·) (ih hwhole.2)
  · rintro rfl
    rw [if_neg (by simp), List.filterMap_map]
    simp

@[simp] theorem decode_encode (s : List Char) : decode (encode s) = some s := by
  rw [decode, pieces_none_encode]
  exact allWhole_eq_some_iff.mpr rfl

theorem start_ascii {c : Char} (hc : c.toNat < 0x80) : start (.ofNat c.toNat) = .whole c := by
  simp only [start, toNat_ofNat_of_lt (by omega : c.toNat < 0x100), if_pos hc, Char.ofNat_toNat]

theorem decodeLenient_append_ascii {c : Char} (hc : c.toNat < 0x80) (bytes rest : Bytes) :
    decodeLenient (bytes ++ .ofNat c.toNat :: rest) =
      decodeLenient bytes ++ c :: decodeLenient rest := by
  have hb : (UInt8.ofNat c.toNat).toNat < 0x80 := by
    rw [toNat_ofNat_of_lt (by omega)]
    exact hc
  simp [decodeLenient, pieces_append_ascii aboveAscii_none bytes hb, pieces_whole (start_ascii hc)]

theorem Unfinished.Wide.next {u : Unfinished} (h : u.Wide) (ho : 1 < u.owed) {b : UInt8}
    (hb : u.low ≤ b.toNat) :
    Wide ⟨u.value * 0x40 + (b.toNat - 0x80), u.owed - 1, 0x80, 0xBF⟩ := by
  apply Nat.le_trans h
  simp only [Nat.sub_self, Nat.add_zero]
  have hpow : 0x40 ^ (u.owed - 1) = 0x40 * 0x40 ^ (u.owed - 1 - 1) := by
    rw [← Nat.pow_succ']
    congr 1
    omega
  rw [hpow, ← Nat.mul_assoc]
  apply Nat.mul_le_mul_right
  apply Nat.mul_le_mul_right
  omega

theorem Unfinished.Wide.last {u : Unfinished} (h : u.Wide) (ho : u.owed ≤ 1) {b : UInt8}
    (hb : u.low ≤ b.toNat) : 0x80 ≤ u.value * 0x40 + (b.toNat - 0x80) := by
  rw [Wide, Nat.sub_eq_zero_of_le ho, Nat.pow_zero, Nat.mul_one] at h
  omega

theorem ofNat_ne_of_wide {n : Nat} (hn : 0x80 ≤ n) {c : Char} (hpos : 0 < c.toNat)
    (hc : c.toNat < 0x80) : Char.ofNat n ≠ c := by
  rintro rfl
  by_cases h : n.isValidChar
  · rw [toNat_ofNat_of_isValidChar h] at hc
    omega
  · rw [toNat_ofNat_of_not_isValidChar h] at hpos
    omega

theorem wide_none : ∀ u ∈ (none : Option Unfinished), u.Wide := by
  rintro _ ⟨⟩

/-- An ASCII character is only read where its byte is. -/
theorem mem_of_mem_pieces {u : Option Unfinished} (hu : ∀ v ∈ u, v.Wide) {bytes : Bytes} {c : Char}
    (hpos : 0 < c.toNat) (hc : c.toNat < 0x80) (h : some c ∈ pieces u bytes) :
    .ofNat c.toNat ∈ bytes := by
  induction bytes generalizing u with
  | nil => cases u <;> simp [pieces, finish] at h
  | cons b rest ih =>
    -- a byte that does not go on with a character is read as after none, so this case comes up
    -- twice
    have fresh : some c ∈ pieces none (b :: rest) → .ofNat c.toNat ∈ b :: rest := by
      intro h
      cases hb : start b with
      | whole c' =>
        rw [pieces_whole hb] at h
        rcases List.mem_cons.mp h with hc' | hrest
        · cases hc'
          simp [(spec_of_start_whole hb).1]
        · exact .tail _ (ih wide_none hrest)
      | lead v =>
        rw [pieces_lead hb] at h
        exact .tail _ (ih (fun w hw => Option.some.inj hw ▸ (spec_of_start_lead hb).2) h)
      | stray =>
        rw [pieces_stray hb] at h
        exact .tail _ (ih wide_none (by simpa using h))
    cases u with
    | none => exact fresh h
    | some v =>
      have hv := hu v rfl
      rw [pieces_some] at h
      split_ifs at h with hr ho
      · rcases List.mem_cons.mp h with hlast | hrest
        · exact absurd (Option.some.inj hlast).symm (ofNat_ne_of_wide (hv.last ho hr.1) hpos hc)
        · exact .tail _ (ih wide_none hrest)
      · have hnext := hv.next (Nat.lt_of_not_le ho) hr.1
        exact .tail _ (ih (fun w hw => Option.some.inj hw ▸ hnext) h)
      · exact fresh (by simpa using h)

theorem mem_of_mem_decodeLenient {bytes : Bytes} {c : Char} (hpos : 0 < c.toNat)
    (hc : c.toNat < 0x80) (h : c ∈ decodeLenient bytes) : .ofNat c.toNat ∈ bytes := by
  obtain ⟨p, hp, hpc⟩ := List.mem_map.mp h
  cases p with
  | none =>
    subst hpc
    exact absurd hc (by decide)
  | some c' =>
    cases hpc
    exact mem_of_mem_pieces wide_none hpos hc hp

/-- Text that begins with an ASCII character is read back after any bytes. -/
theorem decodeLenient_append {c : Char} (hc : c.toNat < 0x80) (bytes : Bytes) (s : List Char) :
    decodeLenient (bytes ++ encode (c :: s)) = decodeLenient bytes ++ c :: s := by
  have he : encode (c :: s) = UInt8.ofNat c.toNat :: encode s := by
    rw [encode, List.flatMap_cons, encodeChar]
    simp only [if_pos hc]; rfl
  have hb : (UInt8.ofNat c.toNat).toNat < 0x80 := by
    rw [toNat_ofNat_of_lt (by omega)]; exact hc
  have hd : decodeLenient (encode (c :: s)) = c :: s := decodeLenient_encode (c :: s)
  rw [decodeLenient] at hd ⊢
  rw [he] at hd ⊢
  rw [pieces_append_ascii aboveAscii_none bytes hb, List.map_append, hd]
  rfl

/-! ## Sizes -/

theorem Unfinished.Fits.next {u : Unfinished} {had : Nat} (h : u.Fits had) (ho : 1 < u.owed)
    {b : UInt8} (hb : u.low ≤ b.toNat ∧ b.toNat ≤ u.high) :
    Fits ⟨u.value * 0x40 + (b.toNat - 0x80), u.owed - 1, 0x80, 0xBF⟩ (had + 1) := by
  obtain ⟨-, ⟨hlow, hhigh⟩, hwidth⟩ := h
  refine ⟨by simp only; omega, ⟨Nat.le_refl _, Nat.le_refl _⟩, fun n hn => ?_⟩
  simp only at hn ⊢
  have hpow : 0x40 ^ u.owed = 0x40 ^ (u.owed - 1) * 0x40 := by
    rw [← Nat.pow_succ]
    congr 1
    omega
  have hvalue : n / 0x40 ^ u.owed = u.value := by
    rw [hpow, ← Nat.div_div_eq_div_mul, hn]
    omega
  have := hwidth n hvalue
  omega

theorem Unfinished.Fits.last {u : Unfinished} {had : Nat} (h : u.Fits had) (ho : u.owed ≤ 1)
    {b : UInt8} (hb : u.low ≤ b.toNat ∧ b.toNat ≤ u.high) :
    (encodeChar (Char.ofNat (u.value * 0x40 + (b.toNat - 0x80)))).length ≤ had + 1 := by
  obtain ⟨howes, ⟨hlow, hhigh⟩, hwidth⟩ := h
  have howed : u.owed = 1 := by omega
  rw [howed] at hwidth
  exact hwidth _ (by omega)

theorem fits_none (had : Nat) : ∀ u ∈ (none : Option Unfinished), u.Fits had := by
  rintro _ ⟨⟩

theorem length_encode_le_of_pieces {u : Option Unfinished} {had : Nat}
    (hu : ∀ v ∈ u, v.Fits had) {bytes : Bytes} {s : List Char}
    (h : pieces u bytes = s.map some) : (encode s).length ≤ had + bytes.length := by
  induction bytes generalizing u had s with
  | nil =>
    cases u with
    | none =>
      obtain rfl : s = [] := List.map_eq_nil_iff.mp h.symm
      exact Nat.zero_le _
    | some v => cases s <;> cases h
  | cons b rest ih =>
    -- a complete character needs no more than the `k` bytes that it was read off
    have hone : ∀ {c : Char} {k : Nat}, (encodeChar c).length ≤ k →
        some c :: pieces none rest = s.map some → (encode s).length ≤ k + rest.length := by
      intro c k hk hs
      cases s with
      | nil => cases hs
      | cons c' s =>
        obtain ⟨hc, hrest⟩ := List.cons.inj hs
        obtain rfl := Option.some.inj hc
        have := ih (fits_none 0) hrest
        rw [encode, List.flatMap_cons, List.length_append, ← encode]
        omega
    rw [List.length_cons]
    cases u with
    | none =>
      cases hb : start b with
      | whole c =>
        rw [pieces_whole hb] at h
        have := hone ((spec_of_start_whole hb).2) h
        omega
      | lead v =>
        rw [pieces_lead hb] at h
        have := ih (fun w hw => Option.some.inj hw ▸ (spec_of_start_lead hb).1) h
        omega
      | stray =>
        rw [pieces_stray hb] at h
        cases s <;> cases h
    | some v =>
      have hv := hu v rfl
      rw [pieces_some] at h
      split_ifs at h with hr ho
      · have := hone (hv.last ho hr) h
        omega
      · have hnext := hv.next (Nat.lt_of_not_le ho) hr
        have := ih (fun w hw => Option.some.inj hw ▸ hnext) h
        omega
      · cases s <;> cases h

/-- What is read takes no more bytes to write again. -/
theorem length_encode_le_of_decode {bytes : Bytes} {s : List Char} (h : decode bytes = some s) :
    (encode s).length ≤ bytes.length := by
  have hpieces := length_encode_le_of_pieces (fits_none 0) (allWhole_eq_some_iff.mp h)
  rwa [Nat.zero_add] at hpieces

end ConfigDaemon.Text.Utf8
