import Mathlib.Data.List.Basic
import ConfigDaemon.Text.Lines

/-! # Lines added to a text

A line that is written after a text ends what had no line feed yet. The lines before it stay as
they are.
-/

namespace ConfigDaemon.Text

def unfinished (s : List Char) : List Char :=
  (segments s).2

theorem segments_newline (s : List Char) :
    segments ('\n' :: s) = ([] :: (segments s).1, (segments s).2) := by
  rw [segments, if_pos rfl]

theorem segments_cons_of_nil {c : Char} (hc : c ≠ '\n') {s : List Char}
    (h : (segments s).1 = []) : segments (c :: s) = ([], c :: (segments s).2) := by
  rcases hs : segments s with ⟨ls, t⟩
  obtain rfl : ls = [] := by rw [hs] at h; exact h
  rw [segments, if_neg hc, hs]

theorem segments_cons_of_cons {c : Char} (hc : c ≠ '\n') {s l : List Char}
    {ls : List (List Char)} (h : (segments s).1 = l :: ls) :
    segments (c :: s) = ((c :: l) :: ls, (segments s).2) := by
  rcases hs : segments s with ⟨ls', t⟩
  obtain rfl : ls' = l :: ls := by rw [hs] at h; exact h
  rw [segments, if_neg hc, hs]

theorem segments_line_append {l : List Char} (hl : '\n' ∉ l) (s : List Char) :
    segments (l ++ '\n' :: s) = (l :: (segments s).1, (segments s).2) := by
  induction l with
  | nil => exact segments_newline s
  | cons c l ih =>
    have hc : c ≠ '\n' := fun h => hl (h ▸ List.mem_cons_self)
    have hs := ih fun h => hl (List.mem_cons_of_mem _ h)
    rw [List.cons_append, segments_cons_of_cons hc (by rw [hs]), hs]

theorem segments_of_not_mem {l : List Char} (hl : '\n' ∉ l) : segments l = ([], l) := by
  induction l with
  | nil => rfl
  | cons c l ih =>
    have hc : c ≠ '\n' := fun h => hl (h ▸ List.mem_cons_self)
    have hs := ih fun h => hl (List.mem_cons_of_mem _ h)
    rw [segments_cons_of_nil hc (by rw [hs]), hs]

theorem segments_append_line {l : List Char} (hl : '\n' ∉ l) (s : List Char) :
    segments (s ++ (l ++ ['\n'])) = ((segments s).1 ++ [unfinished s ++ l], []) := by
  induction s with
  | nil => exact segments_line_append hl []
  | cons c s ih =>
    by_cases hc : c = '\n'
    · subst hc
      rw [List.cons_append, segments_newline, ih, unfinished, segments_newline]
      rfl
    · rw [List.cons_append]
      rcases h : (segments s).1 with _ | ⟨m, ls⟩
      · rw [segments_cons_of_cons hc (by rw [ih, h, List.nil_append]), ih, unfinished, unfinished,
          segments_cons_of_nil hc h]
        rfl
      · rw [segments_cons_of_cons hc (by rw [ih, h, List.cons_append]), ih, unfinished, unfinished,
          segments_cons_of_cons hc h]
        rfl

@[simp] theorem unfinished_append_line {l : List Char} (hl : '\n' ∉ l) (s : List Char) :
    unfinished (s ++ (l ++ ['\n'])) = [] := by
  rw [unfinished, segments_append_line hl]

theorem dropReturn_append {c : Char} (hc : c ≠ '\r') (l : List Char) :
    dropReturn (l ++ [c]) = l ++ [c] := by
  induction l with
  | nil => simp [dropReturn, hc]
  | cons d l ih =>
    have hne : l ++ [c] ≠ [] := by simp
    rw [List.cons_append, dropReturn, ih]
    rintro - h; exact hne h

theorem prefix_dropReturn (l : List Char) : dropReturn l <+: l := by
  fun_induction dropReturn l with
  | case1 => exact List.prefix_refl []
  | case2 => exact List.nil_prefix
  | case3 c l _ ih => exact List.prefix_cons_inj c |>.mpr ih

/-- The lines of a text with the line feeds that end them, carriage returns dropped. -/
def wholeLines (s : List Char) : List (List Char) :=
  (segments s).1.map dropReturn

theorem lines_eq (s : List Char) :
    lines s = wholeLines s ++ if (unfinished s).isEmpty then [] else [unfinished s] := rfl

theorem lines_line_append {l : List Char} (hl : '\n' ∉ l) (s : List Char) :
    lines (l ++ '\n' :: s) = dropReturn l :: lines s := by
  rw [lines_eq, lines_eq, wholeLines, wholeLines, unfinished, segments_line_append hl]
  rfl

theorem lines_append_line {l : List Char} (hl : '\n' ∉ l) (s : List Char) :
    lines (s ++ (l ++ ['\n'])) = wholeLines s ++ [dropReturn (unfinished s ++ l)] := by
  rw [lines_eq, unfinished_append_line hl, wholeLines, segments_append_line hl, List.map_append]
  exact List.append_nil _

theorem segments_bounds (s : List Char) :
    (∀ l ∈ (segments s).1, '\n' ∉ l ∧ l.length ≤ s.length) ∧
      '\n' ∉ unfinished s ∧ (unfinished s).length ≤ s.length := by
  induction s with
  | nil => simp [segments, unfinished]
  | cons c s ih =>
    obtain ⟨ihl, ihn, ihb⟩ := ih
    have grown : ∀ l ∈ (segments s).1, '\n' ∉ l ∧ l.length ≤ (c :: s).length :=
      fun l hl => ⟨(ihl l hl).1, Nat.le_succ_of_le (ihl l hl).2⟩
    by_cases hc : c = '\n'
    · subst hc
      rw [unfinished, segments_newline]
      refine ⟨?_, ihn, Nat.le_succ_of_le ihb⟩
      rintro l (_ | ⟨_, hl⟩)
      · exact ⟨List.not_mem_nil, Nat.zero_le _⟩
      · exact grown l hl
    · have joined : ∀ l, '\n' ∉ l → l.length ≤ s.length →
          '\n' ∉ c :: l ∧ (c :: l).length ≤ (c :: s).length := by
        intro l hl hb
        exact ⟨List.not_mem_cons_of_ne_of_not_mem (Ne.symm hc) hl, Nat.succ_le_succ hb⟩
      rcases h : (segments s).1 with _ | ⟨m, ls⟩
      · rw [unfinished, segments_cons_of_nil hc h]
        exact ⟨by simp, joined _ ihn ihb⟩
      · rw [unfinished, segments_cons_of_cons hc h]
        rw [h] at ihl grown
        refine ⟨?_, ihn, Nat.le_succ_of_le ihb⟩
        rintro l (_ | ⟨_, hl⟩)
        · have hm := ihl m List.mem_cons_self
          exact joined m hm.1 hm.2
        · exact grown l (List.mem_cons_of_mem _ hl)

theorem wholeLines_bounds {s l : List Char} (h : l ∈ wholeLines s) :
    '\n' ∉ l ∧ l.length ≤ s.length := by
  obtain ⟨m, hm, rfl⟩ := List.mem_map.mp h
  obtain ⟨hn, hb⟩ := (segments_bounds s).1 m hm
  have hm := prefix_dropReturn m
  exact ⟨fun hc => hn (hm.subset hc), Nat.le_trans hm.length_le hb⟩

theorem lines_bounds {s l : List Char} (h : l ∈ lines s) : '\n' ∉ l ∧ l.length ≤ s.length := by
  rw [lines_eq, List.mem_append] at h
  rcases h with h | h
  · exact wholeLines_bounds h
  · split at h
    · cases h
    · obtain rfl := List.mem_singleton.mp h
      exact (segments_bounds s).2

/-! ## The first line -/

theorem firstLine_of_not_mem {s : List Char} (h : '\n' ∉ s) : firstLine s = s := by
  rw [firstLine, lines_eq, wholeLines, unfinished, segments_of_not_mem h]
  cases s <;> rfl

theorem newline_not_mem_firstLine (s : List Char) : '\n' ∉ firstLine s := by
  rw [firstLine]
  cases h : lines s with
  | nil => exact List.not_mem_nil
  | cons l ls => exact (lines_bounds (h ▸ List.mem_cons_self)).1

end ConfigDaemon.Text
