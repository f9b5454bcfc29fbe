import ConfigDaemon.Proofs.Core.Reordering

/-! # Opening databases

An open database that holds nothing answers as one that is not open. Two daemons that differ only
in which empty databases are open show the same ever after, so nobody can tell whether a database
was opened before its first use.
-/

namespace ConfigDaemon.Core

/-- The operation opens the database at an address, and does nothing else to a daemon on which it
is not open. -/
inductive Operation.Opens (a : String) : Operation → Prop
  | obtain : Opens a (.obtain (some a))
  | unset (key : String) : Opens a (.unset (some a) key)
  | set {key : String} (value : String) (h : Key.fault? key ≠ none) :
    Opens a (.set (some a) key value)

/-- Two daemons that differ at most in which empty databases are open. -/
structure Matches (c c' : Core) : Prop where
  rest : c' = { c with others := c'.others }
  database : ∀ a, c'.database a = c.database a

variable {c c' : Core} {a : String} {op : Operation}

theorem matches_refl (c : Core) : Matches c c :=
  ⟨rfl, fun _ => rfl⟩

/-! ## What is the same -/

theorem Matches.setDatabase (h : Matches c c') (address : Option String) (d : Database) :
    Matches (c.setDatabase address d) (c'.setDatabase address d) := by
  constructor
  · rw [h.rest]
    cases address <;> rfl
  · intro a
    rw [database_setDatabase, database_setDatabase, h.database]

theorem sharesLog_matches : SharesLog Matches where
  rest h := by
    rw [h.rest]
    rfl
  database h := h.database
  recordsIn h := recordsIn_congr fun a => by rw [h.database]
  withState h b := by
    refine ⟨?_, h.database⟩
    rw [h.rest]
    rfl
  setDatabase h := h.setDatabase
  mapDatabases h f hf := by
    constructor
    · rw [h.rest]
      rfl
    · intro a
      rw [database_mapDatabases _ hf, database_mapDatabases _ hf, h.database]
  queueChange h address key value := by
    constructor
    · rw [queueChange, queueChange, h.database, h.rest]
    · exact h.database
  dropCourier h client := by
    constructor
    · rw [h.rest]
    · exact h.database

/-- The same comes to light of daemons that match, and they go on to match. -/
theorem Matches.undergo (h : Matches c c') (x : Happening) :
    c'.shown x = c.shown x ∧ Matches (c.undergo x) (c'.undergo x) := by
  cases x with
  | event e =>
    cases e with
    | ask peers op =>
      obtain ⟨hshown, hafter⟩ := sharesLog_matches.perform h peers op
      exact ⟨by simp only [shown, hshown], hafter⟩
    | deliver peers =>
      refine ⟨?_, ?_, h.database⟩
      · rw [h.rest]
        rfl
      · rw [Core.undergo, Core.meet, h.rest]
        rfl
    | disturb disk =>
      refine ⟨rfl, ?_, h.database⟩
      rw [Core.undergo, Core.meet, h.rest]
      rfl
  | restart =>
    have hsame : Session.restarted c' = Session.restarted c := by
      rw [h.rest]
      rfl
    refine ⟨rfl, ?_⟩
    rw [Core.undergo, Core.undergo, hsame]
    exact matches_refl _

theorem Matches.sights (h : Matches c c') (later : List Happening) :
    c'.sights later = c.sights later := by
  induction later generalizing c c' with
  | nil => rfl
  | cons x xs ih =>
    obtain ⟨hshown, hafter⟩ := h.undergo x
    have hread : (c'.undergo x).readLog = (c.undergo x).readLog := by
      rw [hafter.rest]
      rfl
    rw [Core.sights, Core.sights, hshown, hread, ih hafter]

end ConfigDaemon.Core
