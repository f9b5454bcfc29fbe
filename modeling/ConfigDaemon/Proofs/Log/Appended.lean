import ConfigDaemon.Log.Session
import ConfigDaemon.Proofs.Log.Store
import ConfigDaemon.Proofs.Log.Surviving

/-! # Entries that a session appends

While a log is only added to, every append succeeds, and what was appended is read after what the
log held, however often the handle is closed in between. The first entry is the exception: its
line runs on from a line that was not finished.
-/

namespace ConfigDaemon.Log

open Text

/-- What is read of the first entry that is added. An unfinished line that is an entry by itself
hides it. -/
def firstAdded (bytes : Bytes) (e : Entry) : List Entry :=
  let l := unfinished (Utf8.decodeLenient bytes)
  match Entry.ofLine l with
  | .ok _ => []
  | .error _ => (Entry.ofLine (l ++ e.line)).toOption.toList

/-- What is read of the entries that are added; all but the first have lines of their own. -/
def added (bytes : Bytes) : List Entry → List Entry
  | [] => []
  | e :: es => firstAdded bytes e ++ es

theorem entriesOfBytes_append_first {e : Entry} (he : e.OneLine) (bytes : Bytes) :
    entriesOfBytes (bytes ++ Store.entryBytes e) = entriesOfBytes bytes ++ firstAdded bytes e := by
  rw [entriesOfBytes_append_entry he, entriesOfBytes_eq, firstAdded, List.append_assoc]
  congr 1
  cases h : Entry.ofLine (unfinished (Utf8.decodeLenient bytes)) with
  | ok f => rw [Entry.ofLine_append h]; rfl
  | error f => rfl

theorem entriesOfBytes_append_added {es : List Entry} (hes : ∀ e ∈ es, e.Recordable)
    (bytes : Bytes) :
    entriesOfBytes (bytes ++ logBytes es) = entriesOfBytes bytes ++ added bytes es := by
  cases es with
  | nil => exact (congrArg _ (List.append_nil bytes)).trans (List.append_nil _).symm
  | cons e es =>
    obtain ⟨he, hes⟩ := List.forall_mem_cons.mp hes
    rw [logBytes_cons, ← List.append_assoc,
      entriesOfBytes_append hes (finished_append_entry he.oneLine bytes),
      entriesOfBytes_append_first he.oneLine, added, List.append_assoc]

theorem firstAdded_of_finished {bytes : Bytes} (hb : Finished bytes) {e : Entry}
    (he : e.Complete) : firstAdded bytes e = [e] := by
  have hblank := ofLine_blank hb
  rw [firstAdded]
  cases h : Entry.ofLine (unfinished (Utf8.decodeLenient bytes)) with
  | ok f => rw [h] at hblank; cases hblank
  | error f => simp only [Entry.ofLine_line he hb]; rfl

theorem added_of_finished {bytes : Bytes} (hb : Finished bytes) {es : List Entry}
    (hes : ∀ e ∈ es, e.Recordable) : added bytes es = es := by
  cases es with
  | nil => rfl
  | cons e es => rw [added, firstAdded_of_finished hb (hes e List.mem_cons_self).complete]; rfl

/-- Every log that is not finished loses some entry that is added to it. -/
theorem exists_not_mem_added {bytes : Bytes} (hb : ¬ Finished bytes) :
    ∃ a, (Entry.addClient a).Recordable ∧
      .addClient a ∉ entriesOfBytes bytes ++ added bytes [.addClient a] := by
  obtain ⟨a, hlong, hhead, hother⟩ := exists_long_address (Utf8.decodeLenient bytes).length
  have hline : '\n' ∉ a.toList := fun h => absurd (hother _ h) (by decide)
  have hC : 'C' ∉ a.toList := fun h => absurd (hother _ h) (by decide)
  have hne : a ≠ "" := by
    rintro rfl
    cases hhead
  have hone : (Entry.addClient a).OneLine := List.forall_mem_singleton.mpr hline
  refine ⟨a, ⟨⟨List.forall_mem_singleton.mpr hne, nofun⟩, hone⟩, ?_⟩
  rw [added, List.append_nil, ← entriesOfBytes_append_first hone]
  exact not_mem_entriesOfBytes_append hb hline hlong hC

/-! ## Sessions -/

namespace Step

def entries : Step → List Entry
  | .append e => [e]
  | _ => []

/-- The step leaves the log alone or adds an entry to it that can be read back. -/
def Additive : Step → Prop
  | .append e => e.Recordable
  | .read | .close | .closeIfIdle _ _ | .reopen => True
  | .compact _ | .change _ => False

instance : DecidablePred Additive
  | .append e => inferInstanceAs (Decidable e.Recordable)
  | .read | .close | .closeIfIdle _ _ | .reopen => inferInstanceAs (Decidable True)
  | .compact _ | .change _ => inferInstanceAs (Decidable False)

end Step

def appended (steps : List Step) : List Entry :=
  steps.flatMap Step.entries

namespace Session

variable {s : Session} {steps : List Step}

def contents (s : Session) : Bytes :=
  Log.contents s.store.place s.disk

theorem writes_step {x : Step} (hx : x.Additive) :
    s.store.Writes s.disk x.entries (s.step x).2.store (s.step x).2.disk := by
  cases x with
  | append e => exact .append .refl e
  | read =>
    have hclose : (s.store.read s.disk).2 = s.store.close := by
      unfold Store.read
      split <;> rfl
    simp only [step, hclose]
    exact .close .refl
  | close | reopen => exact .close .refl
  | closeIfIdle elapsed limit =>
    simp only [step, Store.closeIfIdle]
    split
    · exact .close .refl
    · exact .refl
  | compact es => exact hx.elim
  | change c => exact hx.elim

theorem writes_run (h : ∀ x ∈ steps, x.Additive) :
    s.store.Writes s.disk (appended steps) (s.run steps).store (s.run steps).disk := by
  induction steps generalizing s with
  | nil => exact .refl
  | cons x steps ih =>
    obtain ⟨hx, hsteps⟩ := List.forall_mem_cons.mp h
    exact (writes_step hx).trans (ih hsteps)

theorem recordable_appended (h : ∀ x ∈ steps, x.Additive) : ∀ e ∈ appended steps, e.Recordable := by
  intro e he
  obtain ⟨x, hx, he⟩ := List.mem_flatMap.mp he
  cases x with
  | append f => exact List.mem_singleton.mp he ▸ h _ hx
  | _ => cases he

/-- While a log is only added to, every append succeeds, and what is read is what survives of the
entries that it held and of those that were added to it. In every case these are all that were
appended if and only if nothing but blanks followed the last line feed at the start. -/
theorem read_appended (hw : Writable s.store.place s.disk) (ha : s.store.Attached s.disk) :
    (∀ steps : List Step, (∀ x ∈ steps, x.Additive) →
      (∀ e, ((s.run steps).step (.append e)).1 = .done (.ok ())) ∧
      ((s.run steps).step .read).1 = .surviving (.ok (.ofEntries
        (entriesOfBytes s.contents ++ added s.contents (appended steps))))) ∧
    ((∀ steps : List Step, (∀ x ∈ steps, x.Additive) →
      ((s.run steps).step .read).1 = .surviving (.ok (.ofEntries
        (entriesOfBytes s.contents ++ appended steps)))) ↔ Finished s.contents) := by
  have hread : ∀ steps : List Step, (∀ x ∈ steps, x.Additive) →
      (∀ e, ((s.run steps).step (.append e)).1 = .done (.ok ())) ∧
      ((s.run steps).step .read).1 = .surviving (.ok (.ofEntries
        (entriesOfBytes s.contents ++ added s.contents (appended steps)))) := by
    intro steps hsteps
    have hb := (writes_run hsteps).becomes hw ha
    have hw' : Writable (s.run steps).store.place (s.run steps).disk := hb.place ▸ hb.clear _ hw
    constructor
    · intro e
      obtain ⟨store, disk, happend, -⟩ := Store.append_spec hw' hb.attached e
      simp only [step, happend]
    · have hcontents := hb.contents
      rw [← hb.place] at hcontents
      simp only [step, Store.read_spec hw', hcontents]
      rw [← entriesOfBytes_append_added (recordable_appended hsteps), contents, hb.place]
  refine ⟨hread, fun h => ?_, fun hf steps hsteps => ?_⟩
  · -- An address that is too long for what stands there is lost, though it should be read.
    by_contra hf
    obtain ⟨a, ha, hlost⟩ := exists_not_mem_added hf
    have hsteps : ∀ x ∈ [Step.append (.addClient a)], x.Additive := List.forall_mem_singleton.mpr ha
    have hsame := Except.ok.inj (Answer.surviving.inj ((hread _ hsteps).2.symm.trans (h _ hsteps)))
    have hholds : (Surviving.ofEntries (entriesOfBytes s.contents ++ [.addClient a])).Holds
        (.addClient a) := by
      rw [Surviving.ofEntries_append, List.foldl_cons, List.foldl_nil]
      exact (Surviving.holds_apply (Surviving.distinct_ofEntries _) _ _).mpr (.inl rfl)
    exact hlost (Surviving.mem_of_holds not_false (hsame ▸ hholds))
  · rw [(hread steps hsteps).2, added_of_finished hf (recordable_appended hsteps)]

/-- Behind a line that broke off in an address an arrival is read as that of another client. -/
theorem read_appended_behind_torn :
    let p : Place := ⟨"/c", "saved"⟩
    let s : Session := ⟨⟨p, none⟩, diskOf p (Utf8.encode "CLIENTADD \"/a".toList), .empty⟩
    let steps := [.append (.addClient "/b"), .close, .append (.addClient "/d")]
    ((s.run steps).step .read).1 = .surviving (.ok ⟨["/aCLIENTADD ", "/d"], []⟩) ∧
      ¬ ∀ steps : List Step, (∀ x ∈ steps, x.Additive) →
        ((s.run steps).step .read).1 = .surviving (.ok (.ofEntries
          (entriesOfBytes s.contents ++ appended steps))) := by
  intro p s steps
  obtain ⟨hread, hall⟩ := read_appended (s := s) (clear_diskOf _ p _) nofun
  have hsteps : ∀ x ∈ steps, x.Additive := by decide +kernel
  have hsurvive : Surviving.ofEntries (entriesOfBytes s.contents ++ added s.contents
      (appended steps)) = ⟨["/aCLIENTADD ", "/d"], []⟩ := by decide +kernel
  refine ⟨?_, hall.not.mpr (by decide +kernel)⟩
  rw [(hread steps hsteps).2, hsurvive]

end Session

end ConfigDaemon.Log
