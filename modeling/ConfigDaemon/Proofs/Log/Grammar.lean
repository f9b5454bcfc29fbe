import Mathlib.Data.List.TakeWhile
import Mathlib.Tactic.SplitIfs
import ConfigDaemon.Log.Entry
import ConfigDaemon.Proofs.Text.Quoted

/-! # The texts that spell an entry

A line is read as an entry exactly when it begins with a text that spells this entry: blanks, the
verb, for a listener the digits of its identifier, and fields in quotes. What follows the last
quotation mark is ignored, so a line that is read may be longer, or end at that mark.
-/

namespace ConfigDaemon

namespace Text

theorem trimStart_blanks {b : List Char} (hb : ∀ c ∈ b, isBlank c = true) (s : List Char) :
    trimStart (b ++ s) = trimStart s :=
  List.dropWhile_append_of_pos hb

theorem trimStart_cons {c : Char} (hc : isBlank c = false) (s : List Char) :
    trimStart (c :: s) = c :: s := by
  rw [trimStart, List.dropWhile_cons_of_neg (by simp [hc])]

theorem trimStart_append {t : List Char} (ht : trimStart t ≠ []) (s : List Char) :
    trimStart (t ++ s) = trimStart t ++ s := by
  rw [trimStart, List.dropWhile_append, if_neg]
  · rfl
  · rwa [List.isEmpty_iff]

theorem exists_blanks (s : List Char) :
    ∃ b, (∀ c ∈ b, isBlank c = true) ∧ s = b ++ trimStart s :=
  ⟨s.takeWhile isBlank, fun _ => List.mem_takeWhile_imp, (List.takeWhile_append_dropWhile ..).symm⟩

theorem not_isBlank_of_isDigit {c : Char} (h : isDigit c = true) : isBlank c = false := by
  simp only [isDigit, Bool.and_eq_true, decide_eq_true_eq, Char.le_def, UInt32.le_iff_toNat_le] at h
  have hl : 48 ≤ c.toNat := h.1
  have hh : c.toNat ≤ 57 := h.2
  simp only [isBlank, Bool.or_eq_false_iff, Bool.and_eq_false_iff, decide_eq_false_iff_not,
    beq_eq_false_iff_ne]
  omega

end Text

namespace Log

open Text

namespace Entry

def texts : Entry → List String
  | .addClient c | .removeClient c => [c]
  | .addListener r | .removeListener r => [r.database, r.location, r.client]

def id? : Entry → Option UInt32
  | .addClient _ | .removeClient _ => none
  | .addListener r | .removeListener r => some r.id

/-- No part of the entry counts as missing when it is read. -/
def Complete (e : Entry) : Prop :=
  (∀ t ∈ e.texts, t ≠ "") ∧ ∀ id ∈ e.id?, id ≠ 0

def OneLine (e : Entry) : Prop :=
  ∀ t ∈ e.texts, '\n' ∉ t.toList

instance (e : Entry) : Decidable e.Complete :=
  -- Named, since all identifiers could also be tried one after the other.
  have : Decidable (∀ id ∈ e.id?, id ≠ 0) := e.id?.decidableForallMem
  inferInstanceAs (Decidable ((∀ t ∈ e.texts, t ≠ "") ∧ ∀ id ∈ e.id?, id ≠ 0))

instance (e : Entry) : Decidable e.OneLine :=
  inferInstanceAs (Decidable (∀ t ∈ e.texts, '\n' ∉ t.toList))

def verb : Entry → String
  | .addClient _ => "CLIENTADD"
  | .removeClient _ => "CLIENTREMOVE"
  | .addListener _ => "ADD"
  | .removeListener _ => "REMOVE"

def verbs : List String :=
  ["CLIENTADD", "CLIENTREMOVE", "ADD", "REMOVE"]

theorem verb_mem (e : Entry) : e.verb ∈ verbs := by
  cases e with
  | addClient => exact .head _
  | removeClient => exact .tail _ (.head _)
  | addListener => exact .tail _ (.tail _ (.head _))
  | removeListener => exact .tail _ (.tail _ (.tail _ (.head _)))

theorem exists_verb_eq_cons (e : Entry) :
    ∃ c s, e.verb.toList = c :: s ∧ isBlank c = false ∧ c.toNat < 0x80 := by
  have hverbs : ∀ v ∈ verbs,
      (v.toList.head?.any fun c => !isBlank c && decide (c.toNat < 0x80)) = true := by decide
  obtain ⟨c, hc, h⟩ := (Option.any_eq_true _ _).mp (hverbs _ e.verb_mem)
  obtain ⟨hb, ha⟩ := Bool.and_eq_true_iff.mp h
  exact ⟨c, e.verb.toList.tail, (List.cons_head?_tail hc).symm, by simpa using hb,
    of_decide_eq_true ha⟩

theorem not_isAsciiBlank_verb (e : Entry) : ∀ c ∈ e.verb.toList, (!isAsciiBlank c) = true := by
  have hverbs : ∀ v ∈ verbs, v.toList.all (!isAsciiBlank ·) = true := by decide
  exact List.all_eq_true.mp (hverbs _ e.verb_mem)

/-- The entry that a verb and what follows it spell. -/
def ofParts (verb : String) (rest : List Char) : Except LineFault Entry :=
  if verb = "CLIENTADD" then (readClient rest).map .addClient
  else if verb = "CLIENTREMOVE" then (readClient rest).map .removeClient
  else if verb = "ADD" then (readRecord rest).map .addListener
  else if verb = "REMOVE" then (readRecord rest).map .removeListener
  else .error (.unknownVerb verb.toList)

theorem ofLine_eq {s : List Char} (verb : String)
    (h : (trimStart s).takeWhile (!isAsciiBlank ·) = verb.toList) :
    ofLine s = ofParts verb (afterVerb (trimStart s)) := by
  simp only [ofLine, h, String.toList_inj]
  rfl

theorem ofLine_verb (e : Entry) {b : List Char} (hb : ∀ c ∈ b, isBlank c = true) {a : Char}
    (ha : isAsciiBlank a = true) (s : List Char) :
    ofLine (b ++ (e.verb.toList ++ a :: s)) = ofParts e.verb s := by
  obtain ⟨c, v, hv, hc, -⟩ := e.exists_verb_eq_cons
  have htrim : trimStart (b ++ (e.verb.toList ++ a :: s)) = e.verb.toList ++ a :: s := by
    rw [trimStart_blanks hb, hv, List.cons_append, trimStart_cons hc]
  rw [ofLine_eq e.verb, htrim, afterVerb, List.dropWhile_append_of_pos e.not_isAsciiBlank_verb,
    List.dropWhile_cons_of_neg (by simp [ha])]
  · rfl
  · rw [htrim, List.takeWhile_append_of_pos e.not_isAsciiBlank_verb,
      List.takeWhile_cons_of_neg (by simp [ha]), List.append_nil]

/-! ## Fields -/

/-- Blanks and a field in quotes that is not empty. -/
inductive FieldText : List Char → String → Prop
  | intro (b q : List Char) {v : String} (hb : ∀ c ∈ b, isBlank c = true)
      (hq : Spells q v.toList) (hv : v ≠ "") : FieldText (b ++ '"' :: (q ++ ['"'])) v

namespace FieldText

variable {l : List Char} {v : String}

theorem suffix (h : FieldText l v) : ['"'] <:+ l := by
  obtain ⟨b, q, -, -, -⟩ := h
  exact ⟨b ++ '"' :: q, by simp⟩

theorem ne_empty (h : FieldText l v) : v ≠ "" := by
  obtain ⟨b, q, -, -, hv⟩ := h
  exact hv

theorem sublist (h : FieldText l v) : v.toList.Sublist l := by
  obtain ⟨b, q, -, hq, -⟩ := h
  apply hq.sublist.trans
  exact (List.sublist_append_left _ _).trans
    ((List.sublist_cons_self _ _).trans (List.sublist_append_right _ _))

theorem mem (h : FieldText l v) {c : Char} (hc : c ∈ l) (hblank : isBlank c = false)
    (hmark : c ≠ '"') (hslash : c ≠ '\\') : c ∈ v.toList := by
  obtain ⟨b, q, hb, hq, -⟩ := h
  simp only [List.mem_append, List.mem_cons, List.not_mem_nil, or_false] at hc
  rcases hc with hc | hc | hc | hc
  · exact absurd (hb c hc) (by simp [hblank])
  · exact absurd hc hmark
  · exact hq.mem hc hslash
  · exact absurd hc hmark

theorem exists_eq_cons (h : FieldText l v) : ∃ c s, l = c :: s ∧ isDigit c = false := by
  obtain ⟨b, q, hb, -, -⟩ := h
  cases b with
  | nil => exact ⟨'"', q ++ ['"'], rfl, rfl⟩
  | cons c b =>
    refine ⟨c, b ++ '"' :: (q ++ ['"']), rfl, Bool.eq_false_iff.mpr fun hc => ?_⟩
    have hblank := hb c List.mem_cons_self
    rw [not_isBlank_of_isDigit hc] at hblank
    cases hblank

end FieldText

theorem readField_eq_ok_iff {field : Field} {s rest : List Char} {v : String} :
    readField field s = .ok (v, rest) ↔ ∃ l, FieldText l v ∧ s = l ++ rest := by
  constructor
  · intro h
    unfold readField at h
    split at h
    · cases h
    · cases h
    · rename_i value _ hne hu
      cases h
      obtain ⟨q, hq, hs⟩ := unquote_eq_ok_iff.mp hu
      obtain ⟨b, hb, heq⟩ := exists_blanks s
      refine ⟨b ++ '"' :: (q ++ ['"']), .intro b q hb ?_ ?_, ?_⟩
      · rwa [String.toList_ofList]
      · exact fun he => hne (String.ofList_eq_empty_iff.mp he)
      · rw [heq, hs]
        simp
  · rintro ⟨_, ⟨b, q, hb, hq, hv⟩, rfl⟩
    have hu : unquote (trimStart (b ++ '"' :: (q ++ ['"']) ++ rest)) = .ok (v.toList, rest) := by
      rw [List.append_assoc, trimStart_blanks hb, List.cons_append, trimStart_cons (by decide)]
      exact unquote_eq_ok_iff.mpr ⟨q, hq, by simp⟩
    have hne : v.toList ≠ [] := fun h => hv (String.toList_eq_nil_iff.mp h)
    obtain ⟨c, t, ht⟩ := List.exists_cons_of_ne_nil hne
    rw [readField, hu, ht]
    simp only
    rw [← ht, String.ofList_toList]

theorem readClient_eq_ok_iff {s : List Char} {c : String} :
    readClient s = .ok c ↔ ∃ l t, FieldText l c ∧ s = l ++ t := by
  rw [readClient, map_eq_ok]
  constructor
  · rintro ⟨⟨v, rest⟩, hv, rfl⟩
    obtain ⟨l, hl, hs⟩ := readField_eq_ok_iff.mp hv
    exact ⟨l, rest, hl, hs⟩
  · rintro ⟨l, t, hl, hs⟩
    exact ⟨(c, t), readField_eq_ok_iff.mpr ⟨l, hl, hs⟩, rfl⟩

/-! ## Listeners -/

structure IdText (ds : List Char) (id : UInt32) : Prop where
  digits : ∀ c ∈ ds, isDigit c = true
  value : digitsValue ds = id.toNat
  ne_zero : id ≠ 0

theorem IdText.ne_nil {ds : List Char} {id : UInt32} (h : IdText ds id) : ds ≠ [] := by
  rintro rfl
  have hzero : (0 : Nat) = id.toNat := h.value
  exact h.ne_zero (UInt32.toNat_inj.mp hzero.symm)

theorem readId_eq_ok_iff {ds : List Char} {id : UInt32} :
    readId ds = .ok id ↔ IdText ds id := by
  unfold readId readUInt32 readBelow
  constructor
  · intro h
    split at h
    · cases h
    · rename_i n hn
      split at h
      · cases h
      · rename_i hne
        cases h
        obtain ⟨m, hm, rfl⟩ := Option.map_eq_some_iff.mp hn
        obtain ⟨⟨-, hds, hlt⟩, he⟩ := Option.ite_none_right_eq_some.mp hm
        cases he
        refine ⟨List.all_eq_true.mp hds, ?_, hne⟩
        rw [UInt32.toNat_ofNat_of_lt' hlt]
  · intro h
    have hlt : digitsValue ds < UInt32.size := h.value ▸ id.toNat_lt_size
    rw [if_pos ⟨h.ne_nil, List.all_eq_true.mpr h.digits, hlt⟩, h.value]
    simp [h.ne_zero]

theorem readRecord_digits {b ds : List Char} (hb : ∀ c ∈ b, isBlank c = true)
    (hds : ∀ c ∈ ds, isDigit c = true) (hne : ds ≠ []) {c : Char} (hc : isDigit c = false)
    (s : List Char) :
    readRecord (b ++ (ds ++ c :: s)) = (do
      let id ← readId ds
      let (database, s) ← readField .database (c :: s)
      let (location, s) ← readField .location s
      let (client, _) ← readField .client s
      return { id, database, location, client }) := by
  obtain ⟨x, ds', rfl⟩ := List.exists_cons_of_ne_nil hne
  have hx : isBlank x = false := not_isBlank_of_isDigit (hds x List.mem_cons_self)
  have htrim : trimStart (b ++ (x :: ds' ++ c :: s)) = x :: ds' ++ c :: s := by
    rw [trimStart_blanks hb, List.cons_append, trimStart_cons hx]
  have hdigits : (x :: ds' ++ c :: s).takeWhile isDigit = x :: ds' := by
    rw [List.takeWhile_append_of_pos hds, List.takeWhile_cons_of_neg (by simp [hc]),
      List.append_nil]
  have hfields : (x :: ds' ++ c :: s).dropWhile isDigit = c :: s := by
    rw [List.dropWhile_append_of_pos hds, List.dropWhile_cons_of_neg (by simp [hc])]
  rw [readRecord, htrim, hdigits, hfields]

inductive RecordText : List Char → Record → Prop
  | intro (b ds d l c : List Char) {r : Record} (hb : ∀ c ∈ b, isBlank c = true)
      (hid : IdText ds r.id) (hdatabase : FieldText d r.database)
      (hlocation : FieldText l r.location) (hclient : FieldText c r.client) :
      RecordText (b ++ (ds ++ (d ++ (l ++ c)))) r

theorem readRecord_eq_ok_iff {s : List Char} {r : Record} :
    readRecord s = .ok r ↔ ∃ l t, RecordText l r ∧ s = l ++ t := by
  constructor
  · intro h
    obtain ⟨id, hid, h⟩ := bind_eq_ok.mp h
    obtain ⟨⟨database, s₁⟩, hdatabase, h⟩ := bind_eq_ok.mp h
    obtain ⟨⟨location, s₂⟩, hlocation, h⟩ := bind_eq_ok.mp h
    obtain ⟨⟨client, s₃⟩, hclient, h⟩ := bind_eq_ok.mp h
    cases h
    obtain ⟨d, hd, hs₀⟩ := readField_eq_ok_iff.mp hdatabase
    obtain ⟨l, hl, rfl⟩ := readField_eq_ok_iff.mp hlocation
    obtain ⟨c, hc, rfl⟩ := readField_eq_ok_iff.mp hclient
    obtain ⟨b, hb, heq⟩ := exists_blanks s
    refine ⟨_, s₃, .intro b _ d l c hb (readId_eq_ok_iff.mp hid) hd hl hc, ?_⟩
    calc s = b ++ ((trimStart s).takeWhile isDigit ++ (trimStart s).dropWhile isDigit) := by
          rwa [List.takeWhile_append_dropWhile]
      _ = _ := by
          rw [hs₀]
          simp
  · rintro ⟨_, t, ⟨b, ds, d, l, c, hb, hid, hd, hl, hc⟩, rfl⟩
    obtain ⟨x, d', rfl, hx⟩ := hd.exists_eq_cons
    simp only [List.append_assoc, List.cons_append]
    rw [readRecord_digits hb hid.digits hid.ne_nil hx]
    exact bind_eq_ok.mpr ⟨_, readId_eq_ok_iff.mpr hid, bind_eq_ok.mpr
      ⟨_, readField_eq_ok_iff.mpr ⟨_, hd, rfl⟩, bind_eq_ok.mpr
        ⟨_, readField_eq_ok_iff.mpr ⟨l, hl, rfl⟩, bind_eq_ok.mpr
          ⟨_, readField_eq_ok_iff.mpr ⟨c, hc, rfl⟩, rfl⟩⟩⟩⟩

/-! ## Lines -/

inductive ArgumentsText : List Char → Entry → Prop
  | addClient {l : List Char} {c : String} (h : FieldText l c) : ArgumentsText l (.addClient c)
  | removeClient {l : List Char} {c : String} (h : FieldText l c) :
      ArgumentsText l (.removeClient c)
  | addListener {l : List Char} {r : Record} (h : RecordText l r) :
      ArgumentsText l (.addListener r)
  | removeListener {l : List Char} {r : Record} (h : RecordText l r) :
      ArgumentsText l (.removeListener r)

theorem ofParts_eq_ok_iff {v : String} {s : List Char} {e : Entry} :
    ofParts v s = .ok e ↔ v = e.verb ∧ ∃ l t, ArgumentsText l e ∧ s = l ++ t := by
  constructor
  · intro h
    unfold ofParts at h
    split_ifs at h with h₁ h₂ h₃ h₄
    · obtain ⟨c, hc, rfl⟩ := map_eq_ok.mp h
      obtain ⟨l, t, hl, hs⟩ := readClient_eq_ok_iff.mp hc
      exact ⟨h₁, l, t, .addClient hl, hs⟩
    · obtain ⟨c, hc, rfl⟩ := map_eq_ok.mp h
      obtain ⟨l, t, hl, hs⟩ := readClient_eq_ok_iff.mp hc
      exact ⟨h₂, l, t, .removeClient hl, hs⟩
    · obtain ⟨r, hr, rfl⟩ := map_eq_ok.mp h
      obtain ⟨l, t, hl, hs⟩ := readRecord_eq_ok_iff.mp hr
      exact ⟨h₃, l, t, .addListener hl, hs⟩
    · obtain ⟨r, hr, rfl⟩ := map_eq_ok.mp h
      obtain ⟨l, t, hl, hs⟩ := readRecord_eq_ok_iff.mp hr
      exact ⟨h₄, l, t, .removeListener hl, hs⟩
  · rintro ⟨rfl, l, t, hl, hs⟩
    cases hl with
    | addClient h => exact map_eq_ok.mpr ⟨_, readClient_eq_ok_iff.mpr ⟨l, t, h, hs⟩, rfl⟩
    | removeClient h => exact map_eq_ok.mpr ⟨_, readClient_eq_ok_iff.mpr ⟨l, t, h, hs⟩, rfl⟩
    | addListener h => exact map_eq_ok.mpr ⟨_, readRecord_eq_ok_iff.mpr ⟨l, t, h, hs⟩, rfl⟩
    | removeListener h => exact map_eq_ok.mpr ⟨_, readRecord_eq_ok_iff.mpr ⟨l, t, h, hs⟩, rfl⟩

/-- Blanks, the verb of an entry, one blank and what belongs to the verb. -/
inductive LineText : List Char → Entry → Prop
  | intro (b l : List Char) (a : Char) {e : Entry} (hb : ∀ c ∈ b, isBlank c = true)
      (ha : isAsciiBlank a = true) (h : ArgumentsText l e) :
      LineText (b ++ (e.verb.toList ++ a :: l)) e

theorem RecordText.suffix {l : List Char} {r : Record} (h : RecordText l r) : ['"'] <:+ l := by
  obtain ⟨b, ds, d, l, c, -, -, -, -, hclient⟩ := h
  simp only [← List.append_assoc]
  exact hclient.suffix.trans (List.suffix_append _ _)

theorem ArgumentsText.suffix {l : List Char} {e : Entry} (h : ArgumentsText l e) :
    ['"'] <:+ l := by
  cases h with
  | addClient h => exact h.suffix
  | removeClient h => exact h.suffix
  | addListener h => exact h.suffix
  | removeListener h => exact h.suffix

theorem LineText.suffix {l : List Char} {e : Entry} (h : LineText l e) : ['"'] <:+ l := by
  obtain ⟨b, l, a, -, -, h⟩ := h
  exact (h.suffix.trans (List.suffix_cons _ _)).trans
    ((List.suffix_append _ _).trans (List.suffix_append _ _))

/-- A line is read as an entry exactly when it begins with a text that spells the entry. -/
theorem ofLine_eq_ok_iff {s : List Char} {e : Entry} :
    ofLine s = .ok e ↔ ∃ l t, LineText l e ∧ s = l ++ t := by
  constructor
  · intro h
    rw [ofLine_eq (.ofList _) String.toList_ofList.symm] at h
    obtain ⟨hverb, l, t, hl, hafter⟩ := ofParts_eq_ok_iff.mp h
    obtain ⟨b, hb, heq⟩ := exists_blanks s
    have htake : (trimStart s).takeWhile (!isAsciiBlank ·) = e.verb.toList := by
      rw [← hverb, String.toList_ofList]
    rcases hdrop : (trimStart s).dropWhile (!isAsciiBlank ·) with _ | ⟨a, rest⟩
    -- without a blank nothing follows the verb, not even the last quotation mark
    · rw [afterVerb, hdrop, List.drop_nil] at hafter
      have hnil := (List.append_eq_nil_iff.mp hafter.symm).1
      have hmark := hl.suffix.subset List.mem_cons_self
      rw [hnil] at hmark
      cases hmark
    · have ha : isAsciiBlank a = true := by
        have hhead := List.head?_dropWhile_not (!isAsciiBlank ·) (trimStart s)
        rw [hdrop] at hhead
        simpa using hhead
      have hrest : rest = l ++ t := by
        rw [← hafter, afterVerb, hdrop]
        rfl
      refine ⟨_, t, .intro b l a hb ha hl, ?_⟩
      calc s = b ++ ((trimStart s).takeWhile (!isAsciiBlank ·) ++
            (trimStart s).dropWhile (!isAsciiBlank ·)) := by rwa [List.takeWhile_append_dropWhile]
        _ = _ := by
            rw [htake, hdrop, hrest]
            simp
  · rintro ⟨_, t, ⟨b, l, a, hb, ha, hl⟩, rfl⟩
    have hassoc : b ++ (e.verb.toList ++ a :: l) ++ t = b ++ (e.verb.toList ++ a :: (l ++ t)) := by
      simp
    rw [hassoc, ofLine_verb e hb ha]
    exact ofParts_eq_ok_iff.mpr ⟨rfl, l, t, hl, rfl⟩

theorem RecordText.texts {l : List Char} {r : Record} (h : RecordText l r) :
    r.id ≠ 0 ∧ ∀ t ∈ [r.database, r.location, r.client], t ≠ "" ∧ t.toList.Sublist l := by
  obtain ⟨b, ds, d, l, c, -, hid, hd, hl, hc⟩ := h
  have hfields : (d ++ (l ++ c)).Sublist (b ++ (ds ++ (d ++ (l ++ c)))) :=
    (List.sublist_append_right ds _).trans (List.sublist_append_right b _)
  have hlast : (l ++ c).Sublist (d ++ (l ++ c)) := List.sublist_append_right d _
  refine ⟨hid.ne_zero, ?_⟩
  simp only [List.forall_mem_cons, List.not_mem_nil, false_imp_iff, implies_true, and_true]
  refine ⟨⟨hd.ne_empty, ?_⟩, ⟨hl.ne_empty, ?_⟩, ⟨hc.ne_empty, ?_⟩⟩
  · exact (hd.sublist.trans (List.sublist_append_left d _)).trans hfields
  · exact ((hl.sublist.trans (List.sublist_append_left l _)).trans hlast).trans hfields
  · exact ((hc.sublist.trans (List.sublist_append_right l _)).trans hlast).trans hfields

theorem ArgumentsText.texts {l : List Char} {e : Entry} (h : ArgumentsText l e) :
    e.Complete ∧ ∀ t ∈ e.texts, t.toList.Sublist l := by
  cases h with
  | addClient h | removeClient h =>
    exact ⟨⟨List.forall_mem_singleton.mpr h.ne_empty, nofun⟩,
      List.forall_mem_singleton.mpr h.sublist⟩
  | addListener h | removeListener h =>
    obtain ⟨hid, htexts⟩ := h.texts
    refine ⟨⟨fun t ht => (htexts t ht).1, ?_⟩, fun t ht => (htexts t ht).2⟩
    rintro _ ⟨⟩
    exact hid

/-- What is read from a line is complete, and its fields are characters of the line. -/
theorem ofLine_ok {s : List Char} {e : Entry} (h : ofLine s = .ok e) :
    e.Complete ∧ ∀ t ∈ e.texts, t.toList.Sublist s := by
  obtain ⟨_, t, ⟨b, l, a, -, -, hl⟩, rfl⟩ := ofLine_eq_ok_iff.mp h
  obtain ⟨hcomplete, htexts⟩ := hl.texts
  refine ⟨hcomplete, fun v hv => (htexts v hv).trans ?_⟩
  apply List.Sublist.trans _ (List.sublist_append_left _ t)
  exact ((List.sublist_cons_self a l).trans (List.sublist_append_right _ _)).trans
    (List.sublist_append_right b _)

theorem oneLine_of_ofLine {s : List Char} (hs : '\n' ∉ s) {e : Entry} (h : ofLine s = .ok e) :
    e.OneLine :=
  fun t ht hn => hs (((ofLine_ok h).2 t ht).subset hn)

theorem ofLine_append {s : List Char} {e : Entry} (h : ofLine s = .ok e) (t : List Char) :
    ofLine (s ++ t) = .ok e := by
  obtain ⟨l, u, hl, rfl⟩ := ofLine_eq_ok_iff.mp h
  exact ofLine_eq_ok_iff.mpr ⟨l, u ++ t, hl, List.append_assoc _ _ _⟩

theorem ofLine_mono {s l : List Char} (hs : s <+: l) {e : Entry} (h : ofLine s = .ok e) :
    ofLine l = .ok e := by
  obtain ⟨t, rfl⟩ := hs
  exact ofLine_append h t

/-- An entry ends before the rest of a line in which there is no quotation mark. -/
theorem ofLine_of_append {s t : List Char} {e : Entry} (ht : '"' ∉ t)
    (h : ofLine (s ++ t) = .ok e) : ofLine s = .ok e := by
  obtain ⟨l, u, hl, hs⟩ := ofLine_eq_ok_iff.mp h
  rcases List.append_eq_append_iff.mp hs with ⟨v, rfl, hv⟩ | ⟨v, rfl, -⟩
  · -- The text of the entry reaches into the rest, where its last character cannot be.
    have hmark : '"' ∉ v := fun h => ht (hv ▸ List.mem_append_left u h)
    rcases List.suffix_or_suffix_of_suffix hl.suffix (List.suffix_append s v) with h | h
    · exact absurd (h.subset List.mem_cons_self) hmark
    · rcases List.suffix_cons_iff.mp h with rfl | h
      · exact absurd List.mem_cons_self hmark
      · obtain rfl := List.suffix_nil.mp h
        exact ofLine_eq_ok_iff.mpr ⟨s ++ [], [], hl, by simp⟩
  · exact ofLine_eq_ok_iff.mpr ⟨l, v, hl, rfl⟩

end Entry

end Log

end ConfigDaemon
