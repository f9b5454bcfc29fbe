import ConfigDaemon.Proofs.Log.Grammar

/-! # Lines of entries read back

The line of an entry with nonempty fields and an identifier other than zero is read as that entry,
also after blanks. The line of any other entry is not read at all, and no line is when its last
quotation mark is missing.
-/

namespace ConfigDaemon

namespace Text

theorem trimStart_sublist (s : List Char) : (trimStart s).Sublist s :=
  List.dropWhile_sublist _

end Text

namespace Log

open Text

namespace Entry

def arguments : Entry → List Char
  | .addClient c | .removeClient c => quote c.toList
  | .addListener r | .removeListener r =>
    decimal r.id.toNat ++ fieldLine r.database ++ fieldLine r.location ++ fieldLine r.client

theorem listenerLine_eq (v : String) (r : Record) :
    listenerLine v r = v.toList ++ ' ' :: (decimal r.id.toNat ++ fieldLine r.database ++
      fieldLine r.location ++ fieldLine r.client) := by
  simp only [listenerLine, List.append_assoc, List.cons_append]

theorem line_eq (e : Entry) : e.line = e.verb.toList ++ ' ' :: e.arguments := by
  cases e with
  | addClient c => rfl
  | removeClient c => rfl
  | addListener r => exact listenerLine_eq _ r
  | removeListener r => exact listenerLine_eq _ r

theorem takeWhile_verb (e : Entry) : e.line.takeWhile (!isAsciiBlank ·) = e.verb.toList := by
  rw [line_eq, List.takeWhile_append_of_pos e.not_isAsciiBlank_verb,
    List.takeWhile_cons_of_neg (by decide), List.append_nil]

theorem ofLine_line_eq (e : Entry) {b : List Char} (hb : ∀ c ∈ b, isBlank c = true) :
    ofLine (b ++ e.line) = ofParts e.verb e.arguments := by
  rw [line_eq, ofLine_verb e hb rfl]

/-! ## Complete entries -/

theorem fieldText_quote {v : String} (hv : v ≠ "") : FieldText (quote v.toList) v :=
  .intro [] (escape v.toList) nofun (spells_escape _) hv

theorem fieldText_fieldLine {v : String} (hv : v ≠ "") : FieldText (fieldLine v) v :=
  .intro [' '] (escape v.toList) (List.forall_mem_singleton.mpr rfl) (spells_escape _) hv

theorem readField_fieldLine (field : Field) {v : String} (hv : v ≠ "") (rest : List Char) :
    readField field (fieldLine v ++ rest) = .ok (v, rest) :=
  readField_eq_ok_iff.mpr ⟨_, fieldText_fieldLine hv, rfl⟩

theorem idText_decimal {id : UInt32} (h : id ≠ 0) : IdText (decimal id.toNat) id :=
  ⟨fun _ => isDigit_decimal, digitsValue_decimal _, h⟩

theorem recordText_fields {r : Record} (hid : r.id ≠ 0)
    (h : ∀ t ∈ [r.database, r.location, r.client], t ≠ "") :
    RecordText (decimal r.id.toNat ++ fieldLine r.database ++ fieldLine r.location ++
      fieldLine r.client) r := by
  simp only [List.forall_mem_cons, List.not_mem_nil, false_imp_iff, implies_true, and_true] at h
  obtain ⟨hd, hl, hc⟩ := h
  simp only [List.append_assoc]
  exact .intro [] _ _ _ _ nofun (idText_decimal hid) (fieldText_fieldLine hd)
    (fieldText_fieldLine hl) (fieldText_fieldLine hc)

theorem argumentsText_arguments {e : Entry} (he : e.Complete) :
    ArgumentsText e.arguments e := by
  obtain ⟨htexts, hid⟩ := he
  cases e with
  | addClient c => exact .addClient (fieldText_quote (htexts c (.head _)))
  | removeClient c => exact .removeClient (fieldText_quote (htexts c (.head _)))
  | addListener r => exact .addListener (recordText_fields (hid _ rfl) htexts)
  | removeListener r => exact .removeListener (recordText_fields (hid _ rfl) htexts)

/-- The line of an entry is read as the entry, also after blanks. -/
theorem ofLine_line {e : Entry} (he : e.Complete) {b : List Char}
    (hb : ∀ c ∈ b, isBlank c = true) : ofLine (b ++ e.line) = .ok e := by
  rw [ofLine_line_eq e hb]
  exact ofParts_eq_ok_iff.mpr ⟨rfl, _, [], argumentsText_arguments he, (List.append_nil _).symm⟩

/-! ## What else the line of an entry is read as -/

theorem readRecord_decimal (id : UInt32) (database : String) (s : List Char) :
    readRecord (decimal id.toNat ++ (fieldLine database ++ s)) = (do
      let id ← readId (decimal id.toNat)
      let (database, s) ← readField .database (fieldLine database ++ s)
      let (location, s) ← readField .location s
      let (client, _) ← readField .client s
      return { id, database, location, client }) :=
  readRecord_digits (b := []) nofun (fun _ => isDigit_decimal) (decimal_ne_nil _) (by decide) _

theorem readId_decimal (id : UInt32) :
    readId (decimal id.toNat) = if id = 0 then .error .zeroId else .ok id := by
  rw [readId, readUInt32_decimal]

/-- The line of a listener in a database without a name breaks off where the name should be. -/
theorem ofLine_line_of_unnamed {r : Record} (hid : r.id ≠ 0) (hname : r.database = "") :
    ofLine (addListener r).line = .error .missingField := by
  have hread : readRecord (addListener r).arguments = .error .missingField := by
    rw [arguments, List.append_assoc, List.append_assoc, readRecord_decimal, readId_decimal,
      if_neg hid, hname]
    rfl
  have hline := ofLine_line_eq (addListener r) (b := []) nofun
  rw [List.nil_append] at hline
  rw [hline]
  exact congrArg (·.map addListener) hread

theorem eq_of_readField_fieldLine {field : Field} {v w : String} {rest t : List Char}
    (h : readField field (fieldLine v ++ rest) = .ok (w, t)) : w = v ∧ t = rest := by
  by_cases hv : v = ""
  · subst hv
    cases h
  · rw [readField_fieldLine field hv] at h
    cases h
    exact ⟨rfl, rfl⟩

theorem eq_of_readClient_quote {c d : String} (h : readClient (quote c.toList) = .ok d) :
    d = c := by
  obtain ⟨⟨v, rest⟩, hv, rfl⟩ := map_eq_ok.mp h
  have hline : readField .client (fieldLine c ++ []) = .ok (v, rest) := by
    rw [List.append_nil, fieldLine, ← List.singleton_append, readField,
      trimStart_blanks (List.forall_mem_singleton.mpr rfl)]
    exact hv
  exact (eq_of_readField_fieldLine hline).1

theorem exists_of_readRecord_decimal {id : UInt32} {database location : String} {s : List Char}
    {r : Record}
    (h : readRecord (decimal id.toNat ++ (fieldLine database ++ (fieldLine location ++ s))) =
      .ok r) :
    ∃ client rest, readField .client s = .ok (client, rest) ∧
      r = { id, database, location, client } := by
  rw [readRecord_decimal] at h
  obtain ⟨id', hid, h⟩ := bind_eq_ok.mp h
  obtain ⟨⟨database', s₁⟩, hdatabase, h⟩ := bind_eq_ok.mp h
  obtain ⟨⟨location', s₂⟩, hlocation, h⟩ := bind_eq_ok.mp h
  obtain ⟨⟨client, s₃⟩, hclient, hr⟩ := bind_eq_ok.mp h
  obtain ⟨rfl, rfl⟩ := eq_of_readField_fieldLine hdatabase
  obtain ⟨rfl, rfl⟩ := eq_of_readField_fieldLine hlocation
  have hsame : id' = id := by
    rw [readId_decimal] at hid
    split at hid
    · cases hid
    · exact (Except.ok.inj hid).symm
  cases hr
  exact ⟨client, s₃, hclient, by rw [hsame]⟩

theorem eq_of_readRecord_fields {r s : Record}
    (h : readRecord (decimal r.id.toNat ++ fieldLine r.database ++ fieldLine r.location ++
      fieldLine r.client) = .ok s) : s = r := by
  rw [List.append_assoc, List.append_assoc, ← List.append_nil (fieldLine r.client)] at h
  obtain ⟨client, rest, hclient, rfl⟩ := exists_of_readRecord_decimal h
  obtain ⟨rfl, rfl⟩ := eq_of_readField_fieldLine hclient
  rfl

theorem eq_of_ofParts_arguments {e f : Entry} (h : ofParts e.verb e.arguments = .ok f) : f = e := by
  cases e with
  | addClient c =>
    obtain ⟨d, hd, rfl⟩ := map_eq_ok.mp h
    rw [eq_of_readClient_quote hd]
  | removeClient c =>
    obtain ⟨d, hd, rfl⟩ := map_eq_ok.mp h
    rw [eq_of_readClient_quote hd]
  | addListener r =>
    obtain ⟨s, hs, rfl⟩ := map_eq_ok.mp h
    rw [eq_of_readRecord_fields hs]
  | removeListener r =>
    obtain ⟨s, hs, rfl⟩ := map_eq_ok.mp h
    rw [eq_of_readRecord_fields hs]

/-- The line of an entry of which a part counts as missing is not read as any entry. -/
theorem ofLine_line_of_not_complete {e : Entry} (he : ¬ e.Complete) {b : List Char}
    (hb : ∀ c ∈ b, isBlank c = true) : (ofLine (b ++ e.line)).toOption = none := by
  cases h : ofLine (b ++ e.line) with
  | error fault => rfl
  | ok f =>
    have hf := (ofLine_ok h).1
    rw [ofLine_line_eq e hb] at h
    exact absurd (eq_of_ofParts_arguments h ▸ hf) he

theorem newline_not_mem_line {e : Entry} (he : e.OneLine) : '\n' ∉ e.line := by
  have hfield : ∀ t ∈ e.texts, '\n' ∉ quote t.toList := by
    intro t ht h
    simp only [quote, List.mem_append, List.mem_cons, List.not_mem_nil, or_false] at h
    rcases h with (h | h) | h
    · exact absurd h (by decide)
    · rcases mem_of_mem_escape h with h | h
      · exact he t ht h
      · exact absurd h (by decide)
    · exact absurd h (by decide)
  have hverb : '\n' ∉ e.verb.toList := fun h => absurd (e.not_isAsciiBlank_verb _ h) (by decide)
  have hrecord : ∀ r : Record, (∀ t ∈ [r.database, r.location, r.client], '\n' ∉ quote t.toList) →
      '\n' ∉ decimal r.id.toNat ++ fieldLine r.database ++ fieldLine r.location ++
        fieldLine r.client := by
    intro r hr h
    simp only [fieldLine, List.mem_append, List.mem_cons] at h
    rcases h with ((h | h | h) | h | h) | h | h
    · exact absurd (isDigit_decimal h) (by decide)
    · exact absurd h (by decide)
    · exact hr _ (by simp) h
    · exact absurd h (by decide)
    · exact hr _ (by simp) h
    · exact absurd h (by decide)
    · exact hr _ (by simp) h
  rw [line_eq, List.mem_append, List.mem_cons, not_or, not_or]
  refine ⟨hverb, by decide, ?_⟩
  cases e with
  | addClient c => exact hfield c (.head _)
  | removeClient c => exact hfield c (.head _)
  | addListener r => exact hrecord r hfield
  | removeListener r => exact hrecord r hfield

/-! ## Lines that break off -/

/-- What follows the verb, without the last quotation mark. -/
def openArguments : Entry → List Char
  | .addClient c | .removeClient c => '"' :: escape c.toList
  | .addListener r | .removeListener r =>
    decimal r.id.toNat ++ (fieldLine r.database ++ (fieldLine r.location ++
      ' ' :: '"' :: escape r.client.toList))

theorem arguments_eq (e : Entry) : e.arguments = e.openArguments ++ ['"'] := by
  cases e <;> simp [arguments, openArguments, quote, fieldLine]

theorem readField_open (field : Field) {b : List Char} (hb : ∀ c ∈ b, isBlank c = true)
    (v : String) :
    readField field (b ++ '"' :: escape v.toList) = .error (.badField field .unterminated) := by
  have hu : unquote ('"' :: escape v.toList) = .error .unterminated :=
    (spells_escape v.toList).unescape_eq_error
  rw [readField, trimStart_blanks hb, trimStart_cons (by decide), hu]

theorem ofParts_openArguments (e f : Entry) : ofParts e.verb e.openArguments ≠ .ok f := by
  have hclient : ∀ c d : String, readClient ('"' :: escape c.toList) ≠ .ok d := by
    intro c d h
    obtain ⟨x, hx, -⟩ := map_eq_ok.mp h
    have hopen := readField_open .client (b := []) nofun c
    rw [List.nil_append, hx] at hopen
    cases hopen
  have hrecord : ∀ r s, readRecord (addListener r).openArguments ≠ .ok s := by
    intro r s h
    obtain ⟨client, rest, hclient, -⟩ := exists_of_readRecord_decimal h
    have hopen := readField_open .client (b := [' ']) (List.forall_mem_singleton.mpr rfl) r.client
    rw [List.singleton_append, hclient] at hopen
    cases hopen
  intro h
  cases e with
  | addClient c | removeClient c =>
    obtain ⟨d, hd, -⟩ := map_eq_ok.mp h
    exact hclient c d hd
  | addListener r | removeListener r =>
    obtain ⟨s, hs, -⟩ := map_eq_ok.mp h
    exact hrecord r s hs

/-- The line of an entry that breaks off is not read as any entry, with nothing or something other
than quotation marks in the place of what is missing. -/
theorem ofLine_torn {e : Entry} {s t : List Char} (hs : s <+: e.line) (hne : s ≠ e.line)
    (ht : '"' ∉ t) (f : Entry) : ofLine (s ++ t) ≠ .ok f := by
  intro h
  have hline : e.line = e.verb.toList ++ ' ' :: e.openArguments ++ ['"'] := by
    rw [line_eq, arguments_eq, List.append_assoc, List.cons_append]
  rw [hline] at hs hne
  -- what is read without the last mark would still be read with more of the line behind it
  rcases List.prefix_concat_iff.mp hs with rfl | ⟨u, hu⟩
  · exact hne rfl
  · have hopen := ofLine_append (ofLine_of_append ht h) u
    have hverb := ofLine_verb e (b := []) nofun (rfl : isAsciiBlank ' ' = true) e.openArguments
    rw [hu, ← List.nil_append (e.verb.toList ++ _), hverb] at hopen
    exact ofParts_openArguments e f hopen

/-! ## Lines that do not stand alone -/

theorem readClient_glued {w s : List Char} {c : Char} (hq : c ≠ '"') (hb : c ≠ '\\')
    (hc : isBlank c = false) {a : String} (h : readClient (w ++ c :: s) = .ok a) :
    a.toList.length ≤ w.length ∨ c ∈ a.toList := by
  obtain ⟨l, t, hl, hs⟩ := readClient_eq_ok_iff.mp h
  rcases List.append_eq_append_iff.mp hs with ⟨v, rfl, hv⟩ | ⟨v, rfl, -⟩
  · cases v with
    | nil =>
      left
      simpa using hl.sublist.length_le
    | cons d v =>
      obtain ⟨rfl, -⟩ := List.cons.inj hv
      exact .inr (hl.mem (by simp) hc hq hb)
  · left
    rw [List.length_append]
    exact Nat.le_add_right_of_le hl.sublist.length_le

theorem ofParts_addClient {v : String} {rest : List Char} {a : String}
    (h : ofParts v rest = .ok (addClient a)) : v = "CLIENTADD" ∧ readClient rest = .ok a := by
  unfold ofParts at h
  split_ifs at h with hv
  all_goals obtain ⟨b, hb, he⟩ := map_eq_ok.mp h
  all_goals cases he
  exact ⟨hv, hb⟩

/-- The arrival of a client whose address is longer than a text and has no `C` is not what is read
when its line follows that text. -/
theorem ofLine_glued {t : List Char} (ht : ¬ ∀ c ∈ t, isBlank c = true) {a : String}
    (hlong : t.length < a.toList.length) (hC : 'C' ∉ a.toList) :
    ofLine (t ++ (addClient a).line) ≠ .ok (addClient a) := by
  intro h
  have htrim : trimStart t ≠ [] := fun h => ht (List.dropWhile_eq_nil_iff.mp h)
  obtain ⟨s, hs⟩ : ∃ s, (addClient a).line = 'C' :: s := ⟨_, rfl⟩
  rw [ofLine_eq (.ofList _) String.toList_ofList.symm, trimStart_append htrim] at h
  obtain ⟨hv, hr⟩ := ofParts_addClient h
  -- the text before has no blank, so that the verb runs on, or the address begins within it
  rcases hd : (trimStart t).dropWhile (!isAsciiBlank ·) with _ | ⟨b, w⟩
  · have hall := List.dropWhile_eq_nil_iff.mp hd
    rw [List.takeWhile_append_of_pos hall, takeWhile_verb, ← String.toList_inj,
      String.toList_ofList] at hv
    exact htrim (List.append_left_eq_self.mp hv)
  · have hafter : afterVerb (trimStart t ++ (addClient a).line) = w ++ 'C' :: s := by
      rw [afterVerb, List.dropWhile_append, if_neg (by simp [hd]), hd, hs]
      rfl
    have hw : w.length ≤ t.length := by
      have h := ((List.dropWhile_sublist (!isAsciiBlank ·)).trans (trimStart_sublist t)).length_le
      rw [hd, List.length_cons] at h
      omega
    rw [hafter] at hr
    rcases readClient_glued (by decide) (by decide) (by decide) hr with hl | hm
    · omega
    · exact hC hm

end Entry

end Log

end ConfigDaemon
