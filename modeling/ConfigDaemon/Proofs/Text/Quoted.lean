import Mathlib.Data.List.Basic
import ConfigDaemon.Text.Quoted

/-! # What stands between quotation marks

A quoted field is read exactly where a text between two quotation marks spells it. The text is
over at the first quotation mark that no backslash precedes, so whatever follows is the rest.
-/

namespace ConfigDaemon

theorem map_eq_ok {ε α β : Type} {f : α → β} {x : Except ε α} {b : β} :
    x.map f = .ok b ↔ ∃ a, x = .ok a ∧ f a = b := by
  cases x <;> simp [Except.map]

theorem map_eq_error {ε α β : Type} {f : α → β} {x : Except ε α} {e : ε} :
    x.map f = .error e ↔ x = .error e := by
  cases x <;> simp [Except.map]

theorem bind_eq_ok {ε α β : Type} {f : α → Except ε β} {x : Except ε α} {b : β} :
    x >>= f = .ok b ↔ ∃ a, x = .ok a ∧ f a = .ok b := by
  cases x <;> simp [bind, Except.bind]

namespace Text

/-- Each character of a field stands for itself or follows a backslash; a quotation mark and a
backslash must follow one. -/
inductive Spells : List Char → List Char → Prop
  | nil : Spells [] []
  | plain {c : Char} {s field : List Char} (hq : c ≠ '"') (hb : c ≠ '\\') (h : Spells s field) :
      Spells (c :: s) (c :: field)
  | escaped (c : Char) {s field : List Char} (h : Spells s field) :
      Spells ('\\' :: c :: s) (c :: field)

theorem spells_escape (field : List Char) : Spells (escape field) field := by
  induction field with
  | nil => exact .nil
  | cons c field ih =>
    unfold escape
    split
    · exact .escaped c ih
    · rename_i h
      obtain ⟨hq, hb⟩ := not_or.mp h
      exact .plain hq hb ih

theorem unescape_cons {c : Char} (hq : c ≠ '"') (hb : c ≠ '\\') (s : List Char) :
    unescape (c :: s) = (unescape s).map fun (field, rest) => (c :: field, rest) := by
  rw [unescape, if_neg hq]
  · rintro rfl; exact absurd rfl hb
  · rintro _ _ rfl; exact absurd rfl hb

namespace Spells

variable {s field : List Char}

theorem sublist (h : Spells s field) : field.Sublist s := by
  induction h with
  | nil => exact .slnil
  | plain _ _ _ ih => exact ih.cons_cons _
  | escaped c _ ih => exact (ih.cons_cons c).cons _

theorem mem (h : Spells s field) {c : Char} (hc : c ∈ s) (hslash : c ≠ '\\') : c ∈ field := by
  induction h with
  | nil => exact hc
  | plain _ _ _ ih =>
    rw [List.mem_cons] at hc ⊢
    exact hc.imp_right ih
  | escaped d _ ih =>
    rw [List.mem_cons, List.mem_cons] at hc
    rw [List.mem_cons]
    exact (hc.resolve_left hslash).imp_right ih

theorem unescape_append (h : Spells s field) (rest : List Char) :
    unescape (s ++ '"' :: rest) = .ok (field, rest) := by
  induction h with
  | nil => rfl
  | plain hq hb _ ih =>
    rw [List.cons_append, unescape_cons hq hb, ih]
    rfl
  | escaped c _ ih =>
    simp only [List.cons_append, unescape, ih]
    rfl

theorem unescape_eq_error (h : Spells s field) : unescape s = .error .unterminated := by
  induction h with
  | nil => rfl
  | plain hq hb _ ih =>
    rw [unescape_cons hq hb, ih]
    rfl
  | escaped c _ ih =>
    simp only [unescape, ih]
    rfl

end Spells

theorem exists_spells_of_unescape {s field rest : List Char} (h : unescape s = .ok (field, rest)) :
    ∃ q, Spells q field ∧ s = q ++ '"' :: rest := by
  fun_induction unescape s generalizing field rest with
  | case1 => cases h
  | case2 => cases h
  | case3 c s ih =>
    obtain ⟨⟨field', rest'⟩, hs, he⟩ := map_eq_ok.mp h
    cases he
    obtain ⟨q, hq, rfl⟩ := ih hs
    exact ⟨_, .escaped c hq, rfl⟩
  | case4 s =>
    cases h
    exact ⟨[], .nil, rfl⟩
  | case5 c s hlast hnext hc ih =>
    have hb : c ≠ '\\' := by
      rintro rfl
      cases s with
      | nil => exact hlast rfl rfl
      | cons d s => exact hnext d s rfl rfl
    obtain ⟨⟨field', rest'⟩, hs, he⟩ := map_eq_ok.mp h
    cases he
    obtain ⟨q, hq, rfl⟩ := ih hs
    exact ⟨_, .plain hc hb hq, rfl⟩

/-- A quoted field is read where it is spelt between two quotation marks, and nowhere else. -/
theorem unquote_eq_ok_iff {s field rest : List Char} :
    unquote s = .ok (field, rest) ↔ ∃ q, Spells q field ∧ s = '"' :: (q ++ '"' :: rest) := by
  constructor
  · intro h
    cases s with
    | nil => cases h
    | cons c s =>
      rw [unquote] at h
      split at h
      · rename_i hc
        obtain ⟨q, hq, rfl⟩ := exists_spells_of_unescape h
        exact ⟨q, hq, by rw [hc]⟩
      · cases h
  · rintro ⟨q, hq, rfl⟩
    exact hq.unescape_append rest

theorem mem_of_mem_escape {s : List Char} {c : Char} (h : c ∈ escape s) : c ∈ s ∨ c = '\\' := by
  induction s with
  | nil => cases h
  | cons d s ih =>
    unfold escape at h
    split at h <;> simp only [List.mem_cons] at h ⊢ <;> tauto

/-! ## Items -/

/-- What stands between two quotation marks is a row of these: a character that stands for itself,
or any character behind a backslash. -/
inductive Item
  | plain (c : Char) (hq : c ≠ '"') (hb : c ≠ '\\')
  | escaped (c : Char)
  deriving DecidableEq, Repr

namespace Item

def char : Item → Char
  | .plain c _ _ => c
  | .escaped c => c

def written : Item → List Char
  | .plain c _ _ => [c]
  | .escaped c => ['\\', c]

end Item

/-- The text begins with these items in quotation marks, and this is the rest of it. -/
def Quotes (s : List Char) (items : List Item) (rest : List Char) : Prop :=
  s = '"' :: (items.flatMap Item.written ++ '"' :: rest)

theorem spells_iff {q field : List Char} :
    Spells q field ↔
      ∃ items : List Item, q = items.flatMap Item.written ∧ field = items.map Item.char := by
  constructor
  · intro h
    induction h with
    | nil => exact ⟨[], rfl, rfl⟩
    | plain hq hb _ ih =>
      obtain ⟨items, rfl, rfl⟩ := ih
      exact ⟨.plain _ hq hb :: items, rfl, rfl⟩
    | escaped c _ ih =>
      obtain ⟨items, rfl, rfl⟩ := ih
      exact ⟨.escaped c :: items, rfl, rfl⟩
  · rintro ⟨items, rfl, rfl⟩
    induction items with
    | nil => exact .nil
    | cons item items ih =>
      cases item with
      | plain c hq hb => exact .plain hq hb ih
      | escaped c => exact .escaped c ih

/-- Items that are followed by a quotation mark can be told from the text. -/
theorem items_unique {rest rest' : List Char} : ∀ {items items' : List Item},
    items.flatMap Item.written ++ '"' :: rest = items'.flatMap Item.written ++ '"' :: rest' →
      items = items' ∧ rest = rest'
  | [], [], h => ⟨rfl, (List.cons.inj h).2⟩
  | [], .plain c hq hb :: _, h => absurd (List.cons.inj h).1.symm hq
  | [], .escaped c :: _, h => by cases (List.cons.inj h).1
  | .plain c hq hb :: _, [], h => absurd (List.cons.inj h).1 hq
  | .escaped c :: _, [], h => by cases (List.cons.inj h).1
  | .plain c hq hb :: items, .plain d hq' hb' :: items', h => by
    obtain ⟨rfl, htail⟩ := List.cons.inj h
    obtain ⟨rfl, rfl⟩ := items_unique htail
    exact ⟨rfl, rfl⟩
  | .plain c hq hb :: _, .escaped d :: _, h => absurd (List.cons.inj h).1 hb
  | .escaped c :: _, .plain d hq hb :: _, h => absurd (List.cons.inj h).1.symm hb
  | .escaped c :: items, .escaped d :: items', h => by
    obtain ⟨rfl, htail⟩ := List.cons.inj (List.cons.inj h).2
    obtain ⟨rfl, rfl⟩ := items_unique htail
    exact ⟨rfl, rfl⟩

theorem unescape_ne_notQuoted (s : List Char) : unescape s ≠ .error .notQuoted := by
  fun_induction unescape s with
  | case1 => exact nofun
  | case2 => exact nofun
  | case3 c s ih => exact mt map_eq_error.mp ih
  | case4 s => exact nofun
  | case5 c s _ _ _ ih => exact mt map_eq_error.mp ih

theorem unquote_eq_ok_iff_quotes {s field rest : List Char} :
    unquote s = .ok (field, rest) ↔ ∃ items, Quotes s items rest ∧ field = items.map Item.char := by
  rw [unquote_eq_ok_iff]
  constructor
  · rintro ⟨q, hq, rfl⟩
    obtain ⟨items, rfl, rfl⟩ := spells_iff.mp hq
    exact ⟨items, rfl, rfl⟩
  · rintro ⟨items, rfl, rfl⟩
    exact ⟨_, spells_iff.mpr ⟨items, rfl, rfl⟩, rfl⟩

theorem unquote_eq_notQuoted_iff {s : List Char} :
    unquote s = .error .notQuoted ↔ s.head? ≠ some '"' := by
  cases s with
  | nil => simp [unquote]
  | cons c s =>
    by_cases hc : c = '"'
    · simp [unquote, hc, unescape_ne_notQuoted]
    · simp [unquote, hc]

theorem unquote_eq_unterminated_iff {s : List Char} :
    unquote s = .error .unterminated ↔
      s.head? = some '"' ∧ ∀ items rest, ¬ Quotes s items rest := by
  constructor
  · intro h
    refine ⟨?_, fun items rest hquotes => ?_⟩
    · by_contra hhead
      cases h.symm.trans (unquote_eq_notQuoted_iff.mpr hhead)
    · cases h.symm.trans (unquote_eq_ok_iff_quotes.mpr ⟨items, hquotes, rfl⟩)
  · rintro ⟨hhead, hnone⟩
    rcases h : unquote s with (_ | _) | ⟨field, rest⟩
    · exact absurd hhead (unquote_eq_notQuoted_iff.mp h)
    · rfl
    · obtain ⟨items, hquotes, -⟩ := unquote_eq_ok_iff_quotes.mp h
      exact absurd hquotes (hnone items rest)

/-- A text is read as a quoted field exactly where it begins with items in quotation marks. Items
and rest can be found in one way only. What is read is what the items stand for, and any text can
be quoted to be read. -/
theorem read_item_by_item (s : List Char) :
    (∀ field rest, unquote s = .ok (field, rest) ↔
      ∃ items, Quotes s items rest ∧ field = items.map Item.char) ∧
    (∀ items rest items' rest', Quotes s items rest → Quotes s items' rest' →
      items = items' ∧ rest = rest') ∧
    (unquote s = .error .notQuoted ↔ s.head? ≠ some '"') ∧
    (unquote s = .error .unterminated ↔
      s.head? = some '"' ∧ ∀ items rest, ¬ Quotes s items rest) ∧
    (∀ field rest, unquote (quote field ++ rest) = .ok (field, rest)) ∧
    ∀ field rest, unquote s = .ok (field, rest) →
      (rest <:+ s ∧ rest ≠ s) ∧ unquote (quote field ++ rest) = .ok (field, rest) := by
  refine ⟨fun _ _ => unquote_eq_ok_iff_quotes, fun items rest items' rest' h h' => ?_,
    unquote_eq_notQuoted_iff, unquote_eq_unterminated_iff, unquote_quote, fun field rest h => ?_⟩
  · exact items_unique (List.cons.inj (h.symm.trans h')).2
  · obtain ⟨q, -, rfl⟩ := unquote_eq_ok_iff.mp h
    have hsuffix : rest <:+ '"' :: (q ++ '"' :: rest) :=
      ((List.suffix_cons _ rest).trans (List.suffix_append q _)).trans (List.suffix_cons _ _)
    have hshorter : rest.length < ('"' :: (q ++ '"' :: rest)).length := by
      simp only [List.length_cons, List.length_append]
      omega
    have hne : rest ≠ '"' :: (q ++ '"' :: rest) :=
      fun heq => Nat.ne_of_lt hshorter (congrArg List.length heq)
    exact ⟨⟨hsuffix, hne⟩, unquote_quote field rest⟩

/-- A backslash before the last quotation mark leaves the field open. -/
example : unquote ['"', 'a', '\\', '"'] = .error .unterminated := rfl

end Text

end ConfigDaemon
