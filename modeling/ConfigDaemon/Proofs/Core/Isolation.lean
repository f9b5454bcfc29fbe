import ConfigDaemon.Proofs.Core.Vocabulary

/-! # Databases apart in the log

The log calls a database by its address and the default database by a name of its own. What reading
the log assigns to a database is just what its listeners are, as long as every address can stand in
the log for itself alone. Otherwise some listener is assigned to no database or to another one.
-/

namespace ConfigDaemon.Core

open Log

variable {v : Vocabulary} {c : Core} {address : Option String} {l : Listener}

/-- Reading the log assigns the listener to the database at an address. -/
def Assigns (c : Core) (address : Option String) (l : Listener) : Prop :=
  ∃ s, c.readLog = .ok s ∧ ∃ r ∈ s.listeners,
    Database.ofLogName r.database = address ∧ ⟨r.id, r.location, r.client⟩ = l

/-- Each listener is assigned to its own database, and what a caller does to the listeners of one
database does not change those of another. -/
structure Isolated (v : Vocabulary) (c : Core) : Prop where
  assigned : ∀ address id s, c.listener? address id = some s →
    c.Assigns address ⟨id, s.location, s.client⟩
  subscribe : ∀ address location client, v.Names address → v.clients client →
    ∀ other, other ≠ address → ∀ l,
      (c.subscribe address location client).2.Assigns other l ↔ c.Assigns other l
  unsubscribe : ∀ address id other, other ≠ address → ∀ l,
    (c.unsubscribe address id).2.Assigns other l ↔ c.Assigns other l

/-- The log of a daemon assigns to each database the listeners that it has. -/
theorem Settled.assigns_iff (h : c.Settled) :
    c.Assigns address l ↔ c.listener? address l.id = some ⟨l.location, l.client⟩ := by
  obtain ⟨s, hs, -, -, hrecords⟩ := h.mirrored
  have hu := h.sound.unambiguous
  constructor
  · rintro ⟨s', hs', r, hr, rfl, rfl⟩
    obtain rfl : s = s' := Except.ok.inj (hs.symm.trans hs')
    exact hu.mem_records.mp (hrecords.mem_iff.mp hr)
  · intro hl
    have hr : recordOf address l ∈ c.records := mem_records.mpr ⟨address, rfl, hl⟩
    have hname := Database.ofLogName_logName (hu.ne_defaultName hl)
    exact ⟨s, hs, _, hrecords.mem_iff.mpr hr, hname, rfl⟩

/-- What is read from a log names no database that the log cannot name. -/
theorem Assigns.plain (h : c.Assigns address l) :
    PlainAddress address ∧ '\n' ∉ l.client.toList := by
  obtain ⟨s, hs, r, hr, rfl, rfl⟩ := h
  obtain rfl := surviving_of_readLog hs
  obtain ⟨hcomplete, hline⟩ := recordable_of_mem_surviving hr
  refine ⟨fun a ha => ?_, hline r.client (by simp [Log.Entry.texts])⟩
  have hname : a = r.database ∧ a ≠ Database.defaultName := by
    unfold Database.ofLogName at ha
    split at ha
    · cases ha
    · rename_i hne
      cases ha
      exact ⟨rfl, hne⟩
  obtain ⟨rfl, hne⟩ := hname
  exact ⟨hcomplete.1 _ (by simp [Log.Entry.texts]), hline _ (by simp [Log.Entry.texts]), hne⟩

theorem listener?_subscribe_of_ne {other : Option String} (h : other ≠ address) (c : Core)
    (location client : String) (i : UInt32) :
    (c.subscribe address location client).2.listener? other i = c.listener? other i := by
  rcases subscribe_spec c address location client with ⟨f, hf⟩ | ⟨id, c', hc', -, hlisteners⟩
  · rw [hf]
  · rw [hc', hlisteners, if_neg fun ⟨ha, _⟩ => h ha]

theorem listener?_unsubscribe_of_ne {other : Option String} (h : other ≠ address) (c : Core)
    (id i : UInt32) : (c.unsubscribe address id).2.listener? other i = c.listener? other i := by
  unfold unsubscribe guarded
  split
  · rfl
  split
  · rfl
  split
  · rfl
  · exact (listener?_setDatabase c address _ other i).trans (if_neg h)

theorem Tidy.isolated (h : c.Tidy) (hv : v.Plain) : Isolated v c where
  assigned _ _ _ hs := h.settled.assigns_iff.mpr hs
  subscribe address location client ha hclient other hne l := by
    have h' : (c.subscribe address location client).2.Tidy :=
      h.act_within hv (a := .subscribe address location client) ⟨ha, hclient⟩
    rw [h'.settled.assigns_iff, h.settled.assigns_iff, listener?_subscribe_of_ne hne]
  unsubscribe address id other hne l := by
    have h' : (c.unsubscribe address id).2.Tidy := h.act (a := .unsubscribe address id) trivial
    rw [h'.settled.assigns_iff, h.settled.assigns_iff, listener?_unsubscribe_of_ne hne]

/-- Where some client can subscribe, the databases are apart in the log of every daemon just when
every name can stand in the log for itself alone. -/
theorem isolated_iff_plain (v : Vocabulary)
    (hv : ∃ client, v.clients client ∧ Client.isAddress client = true) :
    (∀ c, Reached v c → Isolated v c) ↔ v.Plain := by
  constructor
  · intro hall
    refine Vocabulary.plain_of_subscribers hv fun address client ha hclient hvalid => ?_
    obtain ⟨c, hc, hready, hl⟩ := exists_listening ha hclient hvalid
    exact ((hall c hc).assigned address 1 _ hl).plain
  · intro hplain c hc
    exact (hc.tidy hplain).isolated hplain

/-- A database apart from the default one stays so, unless it has that one's name in the log, no
name or one of two lines. -/
theorem isolated_more_not_def :
    let vocabulary (a : String) : Vocabulary := ⟨(· = a), (· = "/c")⟩
    (∀ c, Reached (vocabulary "more") c → Isolated (vocabulary "more") c) ∧
      ∀ a ∈ ["def", "", "x\ny"],
        ¬ ∀ c, Reached (vocabulary a) c → Isolated (vocabulary a) c := by
  intro vocabulary
  have hclient : ∀ a, ∃ client, (vocabulary a).clients client ∧ Client.isAddress client = true :=
    fun a => ⟨"/c", rfl, by decide⟩
  constructor
  · refine (isolated_iff_plain (vocabulary "more") (hclient "more")).mpr ⟨?_, ?_⟩
    · rintro _ rfl _ ⟨⟩
      decide
    · rintro _ rfl -
      decide
  · intro a ha hall
    obtain ⟨hne, hline, hdefault⟩ :=
      ((isolated_iff_plain (vocabulary a) (hclient a)).mp hall).databases a rfl a rfl
    simp only [List.mem_cons, List.not_mem_nil, or_false] at ha
    rcases ha with rfl | rfl | rfl
    · exact hdefault rfl
    · exact hne rfl
    · exact hline (by decide)

end ConfigDaemon.Core
