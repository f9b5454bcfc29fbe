import Mathlib.Data.List.Induction
import ConfigDaemon.Log.Compaction
import ConfigDaemon.Proofs.Log.Entry
import ConfigDaemon.Proofs.Text.Lines
import ConfigDaemon.Proofs.Text.Utf8

/-! # Entries added to a log

Entries that are written after a log are read after those that it held, provided that nothing but
blanks follows its last line feed. Otherwise the first line runs on from what stands there.
-/

namespace ConfigDaemon.Log

open Text

structure Entry.Recordable (e : Entry) : Prop where
  complete : e.Complete
  oneLine : e.OneLine

instance (e : Entry) : Decidable e.Recordable :=
  decidable_of_iff (e.Complete ∧ e.OneLine) ⟨fun h => ⟨h.1, h.2⟩, fun h => ⟨h.complete, h.oneLine⟩⟩

/-- Only blanks follow the last line feed. -/
def Finished (bytes : Bytes) : Prop :=
  ∀ c ∈ unfinished (Utf8.decodeLenient bytes), isBlank c = true

instance (bytes : Bytes) : Decidable (Finished bytes) :=
  List.decidableBAll _ _

theorem finished_nil : Finished [] := by
  rintro c ⟨⟩

theorem Entry.suffix_line (e : Entry) : ['"'] <:+ e.line := by
  have hfield : ∀ v, ['"'] <:+ Entry.fieldLine v := by
    intro v
    exact (List.suffix_append ('"' :: escape v.toList) ['"']).trans (List.suffix_cons _ _)
  cases e with
  | addClient c => exact (hfield c).trans (List.suffix_append _ _)
  | removeClient c => exact (hfield c).trans (List.suffix_append _ _)
  | addListener r => exact (hfield r.client).trans (List.suffix_append _ _)
  | removeListener r => exact (hfield r.client).trans (List.suffix_append _ _)

theorem dropReturn_line (e : Entry) (t : List Char) :
    dropReturn (t ++ e.line) = t ++ e.line := by
  obtain ⟨l, hl⟩ := e.suffix_line
  rw [← hl, ← List.append_assoc, dropReturn_append (by decide)]

theorem decodeLenient_append_entry (bytes : Bytes) (e : Entry) :
    Utf8.decodeLenient (bytes ++ Store.entryBytes e) =
      Utf8.decodeLenient bytes ++ (e.line ++ ['\n']) := by
  obtain ⟨c, s, hs, -, hc⟩ := e.exists_verb_eq_cons
  rw [Store.entryBytes, Entry.line_eq, hs, List.cons_append, List.cons_append,
    Utf8.decodeLenient_append hc]

theorem entriesOfBytes_append_entry {e : Entry} (he : e.OneLine) (bytes : Bytes) :
    entriesOfBytes (bytes ++ Store.entryBytes e) =
      ((wholeLines (Utf8.decodeLenient bytes)).filterMap fun l => (Entry.ofLine l).toOption) ++
        (Entry.ofLine (unfinished (Utf8.decodeLenient bytes) ++ e.line)).toOption.toList := by
  rw [entriesOfBytes, decodeLenient_append_entry, entriesOfText,
    lines_append_line (Entry.newline_not_mem_line he), List.filterMap_append, dropReturn_line]
  congr 1

theorem finished_append_entry {e : Entry} (he : e.OneLine) (bytes : Bytes) :
    Finished (bytes ++ Store.entryBytes e) := by
  rw [Finished, decodeLenient_append_entry, unfinished_append_line (Entry.newline_not_mem_line he)]
  rintro c ⟨⟩

theorem ofLine_blank {s : List Char} (hs : ∀ c ∈ s, isBlank c = true) :
    (Entry.ofLine s).toOption = none := by
  have ht : trimStart s = [] := List.dropWhile_eq_nil_iff.mpr hs
  rw [Entry.ofLine_eq "" (by rw [ht]; rfl)]
  rfl

/-- A log is read from the lines that are ended and from what follows them. -/
theorem entriesOfBytes_eq (bytes : Bytes) :
    entriesOfBytes bytes =
      ((wholeLines (Utf8.decodeLenient bytes)).filterMap fun l => (Entry.ofLine l).toOption) ++
        (Entry.ofLine (unfinished (Utf8.decodeLenient bytes))).toOption.toList := by
  rw [entriesOfBytes, entriesOfText, lines_eq, List.filterMap_append]
  split
  · rename_i hempty
    rw [List.isEmpty_iff.mp hempty]
    rfl
  · congr 1

theorem entriesOfBytes_finished {bytes : Bytes} (hb : Finished bytes) :
    entriesOfBytes bytes =
      (wholeLines (Utf8.decodeLenient bytes)).filterMap fun l => (Entry.ofLine l).toOption := by
  rw [entriesOfBytes_eq, ofLine_blank hb]
  exact List.append_nil _

theorem logBytes_cons (e : Entry) (es : List Entry) :
    logBytes (e :: es) = Store.entryBytes e ++ logBytes es := by
  rw [logBytes, textOfEntries, List.flatMap_cons, Utf8.encode, List.flatMap_append]
  rfl

theorem logBytes_append (es fs : List Entry) :
    logBytes (es ++ fs) = logBytes es ++ logBytes fs := by
  rw [logBytes, textOfEntries, List.flatMap_append, Utf8.encode, List.flatMap_append]
  rfl

theorem finished_append {es : List Entry} (hes : ∀ e ∈ es, e.OneLine) {bytes : Bytes}
    (hb : Finished bytes) : Finished (bytes ++ logBytes es) := by
  induction es generalizing bytes with
  | nil => exact (List.append_nil bytes).symm ▸ hb
  | cons e es ih =>
    rw [logBytes_cons, ← List.append_assoc]
    exact ih (fun f hf => hes f (List.mem_cons_of_mem _ hf))
      (finished_append_entry (hes e List.mem_cons_self) bytes)

/-- Of entries written after a finished log the complete ones are read after its own. -/
theorem entriesOfBytes_append_oneLine {es : List Entry} (hes : ∀ e ∈ es, e.OneLine)
    {bytes : Bytes} (hb : Finished bytes) :
    entriesOfBytes (bytes ++ logBytes es) =
      entriesOfBytes bytes ++ es.filter (·.Complete) := by
  induction es generalizing bytes with
  | nil => exact (congrArg _ (List.append_nil bytes)).trans (List.append_nil _).symm
  | cons e es ih =>
    have he := hes e List.mem_cons_self
    have hone : entriesOfBytes (bytes ++ Store.entryBytes e) =
        entriesOfBytes bytes ++ [e].filter (·.Complete) := by
      rw [entriesOfBytes_append_entry he, entriesOfBytes_finished hb]
      by_cases hcomplete : e.Complete
      · rw [Entry.ofLine_line hcomplete hb, List.filter_singleton, decide_eq_true hcomplete]
        rfl
      · rw [Entry.ofLine_line_of_not_complete hcomplete hb, List.filter_singleton,
          decide_eq_false hcomplete]
        rfl
    rw [logBytes_cons, ← List.append_assoc,
      ih (fun f hf => hes f (List.mem_cons_of_mem _ hf)) (finished_append_entry he bytes),
      hone, List.append_assoc, ← List.filter_append, List.singleton_append]

theorem entriesOfBytes_append {es : List Entry} (hes : ∀ e ∈ es, e.Recordable) {bytes : Bytes}
    (hb : Finished bytes) : entriesOfBytes (bytes ++ logBytes es) = entriesOfBytes bytes ++ es := by
  rw [entriesOfBytes_append_oneLine (fun e he => (hes e he).oneLine) hb,
    List.filter_eq_self.mpr fun e he => decide_eq_true (hes e he).complete]

theorem entriesOfBytes_logBytes {es : List Entry} (hes : ∀ e ∈ es, e.Recordable) :
    entriesOfBytes (logBytes es) = es :=
  (entriesOfBytes_append hes finished_nil :)

theorem finished_logBytes {es : List Entry} (hes : ∀ e ∈ es, e.OneLine) : Finished (logBytes es) :=
  (finished_append hes finished_nil :)

theorem lines_textOfEntries {es : List Entry} (hes : ∀ e ∈ es, e.OneLine) :
    lines (textOfEntries es) = es.map Entry.line := by
  have hsegments : segments (textOfEntries es) = (es.map Entry.line, []) := by
    induction es using List.reverseRecOn with
    | nil => rfl
    | append_singleton es e ih =>
      obtain ⟨hes, he⟩ := List.forall_mem_append.mp hes
      have hline := Entry.newline_not_mem_line (List.forall_mem_singleton.mp he)
      rw [textOfEntries, List.flatMap_append, List.flatMap_singleton, ← textOfEntries,
        segments_append_line hline, unfinished, ih hes, List.map_append]
      rfl
  have hreturn : dropReturn ∘ Entry.line = Entry.line := funext fun e => dropReturn_line e []
  rw [lines_eq, wholeLines, unfinished, hsegments, List.map_map, hreturn]
  exact List.append_nil _

theorem ofLine_of_mem_toOption {l : List Char} {e : Entry} (h : e ∈ (Entry.ofLine l).toOption) :
    Entry.ofLine l = .ok e := by
  cases hl : Entry.ofLine l with
  | error f => rw [hl] at h; cases h
  | ok f => rw [hl] at h; cases h; rfl

theorem recordable_of_mem {bytes : Bytes} {e : Entry} (h : e ∈ entriesOfBytes bytes) :
    e.Recordable ∧ ∀ t ∈ e.texts, t.toList.length ≤ (Utf8.decodeLenient bytes).length := by
  obtain ⟨l, hl, he⟩ := List.mem_filterMap.mp h
  obtain ⟨hn, hlength⟩ := lines_bounds hl
  have hline := ofLine_of_mem_toOption he
  obtain ⟨hcomplete, htexts⟩ := Entry.ofLine_ok hline
  exact ⟨⟨hcomplete, Entry.oneLine_of_ofLine hn hline⟩,
    fun t ht => (htexts t ht).length_le.trans hlength⟩

/-- An entry is read back from its line exactly when it is complete, and whatever is read from a
line is complete. So nothing is lost when a log is written anew from what was read of it. -/
theorem read_back_when_complete :
    (∀ e : Entry, Entry.ofLine e.line = .ok e ↔ e.Complete) ∧
    (∀ s e, Entry.ofLine s = .ok e → Entry.ofLine e.line = .ok e) ∧
    ∀ bytes, entriesOfBytes (logBytes (entriesOfBytes bytes)) = entriesOfBytes bytes := by
  have hline : ∀ {e : Entry}, e.Complete → Entry.ofLine e.line = .ok e := fun he =>
    (Entry.ofLine_line he (b := []) nofun :)
  refine ⟨fun e => ⟨fun h => (Entry.ofLine_ok h).1, hline⟩, ?_, ?_⟩
  · intro s e h
    exact hline (Entry.ofLine_ok h).1
  · intro bytes
    exact entriesOfBytes_logBytes fun e he => (recordable_of_mem he).1

/-- Blanks, leading zeros, a backslash that need not be there and text at the end are not written
again. -/
theorem read_back_untidy :
    let s := "\t ADD 007\"a\\b\"  \"/x y\" \"/c\" and more".toList
    let e := Entry.addListener ⟨7, "ab", "/x y", "/c"⟩
    Entry.ofLine s = .ok e ∧ Entry.ofLine e.line = .ok e ∧ s ≠ e.line := by
  intro s e
  have h : Entry.ofLine s = .ok e := by decide +kernel
  exact ⟨h, read_back_when_complete.2.1 s e h, by decide +kernel⟩

/-- However long a log is, there is a longer address without `C`. -/
theorem exists_long_address (n : Nat) :
    ∃ a : String, n < a.toList.length ∧ a.toList.head? = some '/' ∧
      ∀ c ∈ a.toList, c = '/' ∨ c = 'a' := by
  refine ⟨String.ofList ('/' :: List.replicate n 'a'), ?_⟩
  rw [String.toList_ofList]
  refine ⟨by simp, rfl, fun c hc => ?_⟩
  rw [List.mem_cons, List.mem_replicate] at hc
  exact hc.imp id And.right

/-- The arrival of a client whose address is longer than the log and has no `C` is lost when the
log is not finished. -/
theorem not_mem_entriesOfBytes_append {bytes : Bytes} (hb : ¬ Finished bytes) {a : String}
    (ha : '\n' ∉ a.toList) (hlong : (Utf8.decodeLenient bytes).length < a.toList.length)
    (hC : 'C' ∉ a.toList) :
    .addClient a ∉ entriesOfBytes (bytes ++ Store.entryBytes (.addClient a)) := by
  have hone : (Entry.addClient a).OneLine := List.forall_mem_singleton.mpr ha
  rw [entriesOfBytes_append_entry hone, List.mem_append, not_or]
  constructor
  · intro h
    obtain ⟨l, hl, he⟩ := List.mem_filterMap.mp h
    have hs := ((Entry.ofLine_ok (ofLine_of_mem_toOption he)).2 a (.head _)).length_le
    have := (wholeLines_bounds hl).2
    omega
  · intro h
    have := (segments_bounds (Utf8.decodeLenient bytes)).2.2
    exact Entry.ofLine_glued hb (by omega) hC (ofLine_of_mem_toOption (Option.mem_toList.mp h))

end ConfigDaemon.Log
