import ConfigDaemon.Proofs.Core.Vocabulary

/-! # A log that stays legible

Each entry takes one line of the log, and reading the log gives what is there, which has come by
acts that brought it in. That is so of every daemon whose callers use names that can stand in the
log for themselves alone, and other names make the log lose a listener.
-/

namespace ConfigDaemon.Core

open Log

variable {v : Vocabulary} {c : Core} {a : Act} {acts : List Act} {e : Log.Entry}

def logLines (c : Core) : List (List Char) :=
  Text.lines (Text.Utf8.decodeLenient c.logContents)

/-- An act adds a line for each change; one that replaces the log writes a line for each client and
each listener. -/
def WritesLines (c : Core) (a : Act) : Prop :=
  (c.Compacts a → (c.act a).logLines.Perm (c.snapshot.map Log.Entry.line)) ∧
    (¬ c.Compacts a → ∃ es : List Log.Entry, es.Nodup ∧ (∀ e, e ∈ es ↔ Tells c (c.act a) e) ∧
      (c.act a).logLines = c.logLines ++ es.map Log.Entry.line)

def Brought (c : Core) (acts : List Act) (e : Log.Entry) : Prop :=
  ∃ before a after, acts = before ++ a :: after ∧ a.Brings e ∧
    Tells (c.live before) ((c.live before).act a) e

/-- The acts write whole lines. Afterwards nothing is read from the log that was not there before
them or brought in by one of them, and nothing is missing. -/
structure Legible (c : Core) (acts : List Act) : Prop where
  lines : ∀ before a after, acts = before ++ a :: after → WritesLines (c.live before) a
  reads : ∃ s, (c.live acts).readLog = .ok s ∧
    (∀ e ∈ s.entries, c.Holds e ∨ Brought c acts e) ∧ ∀ e ∈ (c.live acts).snapshot, e ∈ s.entries

theorem logLines_of_logBytes {es : List Log.Entry} (hes : ∀ e ∈ es, e.OneLine)
    (h : c.logContents = logBytes es) : c.logLines = es.map Log.Entry.line := by
  rw [logLines, h, logBytes, Text.Utf8.decodeLenient_encode, lines_textOfEntries hes]

theorem writesLines_of_idle (h : a.Idle) (c : Core) : WritesLines c a := by
  refine ⟨fun hcompact => (h.compacts c hcompact).elim, fun _ => ⟨[], .nil, fun e => ?_, ?_⟩⟩
  · rw [h.act, Tells]
    simp
  · rw [h.act, List.map_nil, List.append_nil]

theorem Tidy.writesLines_of_plain (h : c.Tidy) (ha : a.Plain) : WritesLines c a := by
  constructor
  · intro hcompact
    obtain ⟨order, hact⟩ := act_of_compacts hcompact
    obtain ⟨hlines, hbytes⟩ := h.settled.sound.compacted order
    rw [hact, logLines_of_logBytes hlines hbytes]
    exact (c.perm_snapshotIn order).map _
  · intro hcompact
    obtain ⟨es, fs, hlines, hbefore, hafter, hnodup, htells⟩ := h.appended ha hcompact
    refine ⟨fs, hnodup, htells, ?_⟩
    rw [logLines_of_logBytes hlines hafter, List.map_append,
      logLines_of_logBytes (List.forall_mem_append.mp hlines).1 hbefore]

theorem Tidy.holds_act (h : c.Tidy) (ha : a.Plain) (he : ¬ e.IsRemoval)
    (hholds : (c.act a).Holds e) : c.Holds e ∨ a.Brings e ∧ Tells c (c.act a) e := by
  have hc := h.settled.sound
  refine or_iff_not_imp_left.mpr fun hbefore => ⟨?_, hbefore, hholds⟩
  by_cases hcompact : c.Compacts a
  · obtain ⟨order, hact⟩ := act_of_compacts hcompact
    obtain ⟨c', hrun, -, -, hsame, -⟩ := hc.compact order
    rw [hact, hrun] at hholds
    exact absurd ((hsame e).mp hholds) hbefore
  · obtain ⟨es, hes, htold⟩ := logged_act hc ha hcompact
    exact hes e ((htold.tells e).mpr ⟨hbefore, hholds⟩) he

theorem Tidy.writesLines (h : c.Tidy) (hv : v.Plain) (ha : a.Within v) : WritesLines c a := by
  rcases ha.plain_or_idle hv with ha | hidle
  · exact h.writesLines_of_plain ha
  · exact writesLines_of_idle hidle c

theorem Tidy.holds_live (h : c.Tidy) (hv : v.Plain) (hacts : ∀ a ∈ acts, a.Within v)
    (he : ¬ e.IsRemoval) (hholds : (c.live acts).Holds e) : c.Holds e ∨ Brought c acts e := by
  induction acts generalizing c with
  | nil => exact .inl hholds
  | cons a acts ih =>
    obtain ⟨ha, hothers⟩ := List.forall_mem_cons.mp hacts
    rcases ih (h.act_within hv ha) hothers hholds with hone | ⟨before, b, after, rfl, hb, htells⟩
    · rcases ha.plain_or_idle hv with ha | hidle
      · exact (h.holds_act ha he hone).imp_right fun ⟨hbrings, htells⟩ =>
          ⟨[], a, acts, rfl, hbrings, htells⟩
      · exact .inl (hidle.act c ▸ hone)
    · exact .inr ⟨a :: before, b, after, rfl, hb, htells⟩

theorem Tidy.legible (h : c.Tidy) (hv : v.Plain) (hacts : ∀ a ∈ acts, a.Within v) :
    Legible c acts where
  lines before a after hsplit := by
    subst hsplit
    obtain ⟨hbefore, hrest⟩ := List.forall_mem_append.mp hacts
    exact (h.live hv hbefore).writesLines hv (hrest a List.mem_cons_self)
  reads := by
    obtain ⟨s, hs, -, hclients, hrecords⟩ := (h.live hv hacts).settled.mirrored
    have hentries : ∀ e, e ∈ s.entries ↔ e ∈ (c.live acts).snapshot := fun e =>
      ((hclients.map _).append (hrecords.map _)).mem_iff
    refine ⟨s, hs, fun e he => ?_, fun e he => (hentries e).mpr he⟩
    obtain ⟨hadd, hholds⟩ := mem_snapshot.mp ((hentries e).mp he)
    exact h.holds_live hv hacts hadd hholds

theorem recordable_of_reads {s : Surviving} (hs : c.readLog = .ok s)
    (he : e ∈ s.entries) : e.Recordable := by
  obtain rfl := surviving_of_readLog hs
  rw [Surviving.entries, List.mem_append, List.mem_map, List.mem_map] at he
  rcases he with ⟨client, hclient, rfl⟩ | ⟨r, hr, rfl⟩
  · exact recordable_client_of_mem_surviving hclient
  · exact recordable_of_mem_surviving hr

/-- A subscription to the default database and one to a database with its name in the log, of which
the first ends. -/
def clash (client : String) : List Act :=
  [.subscribe none "/" client, .subscribe (some Database.defaultName) "/" client,
    .unsubscribe none 1]

/-- Both listeners have one record, and the end of the first one takes it back. -/
theorem live_clash {client : String} (hvalid : Client.isAddress client = true)
    (hline : '\n' ∉ client.toList) :
    ∃ c, newcomer.live (clash client) = c ∧ c.Ready ∧ c.surviving = ⟨[], []⟩ ∧
      c.listener? (some Database.defaultName) 1 = some ⟨"/", client⟩ := by
  have hroot : Key.fault? "/" = none := by decide
  have hid : Registry.empty.freshId = some 1 := by decide
  have hnamed : some Database.defaultName ≠ none := Option.some_ne_none _
  have hfirst : (newcomer.database none).listeners.freshId = some 1 := by
    rw [database_newcomer]
    exact hid
  obtain ⟨c₁, hact₁, hgrown₁, hopen₁, hothers, hlisteners₁⟩ :=
    subscribe_accepted tidy_newcomer.settled.sound.ready (by decide +kernel) hroot hvalid hfirst
  have hsecond : (c₁.database (some Database.defaultName)).listeners.freshId = some 1 := by
    rw [hothers _ hnamed, database_newcomer]
    exact hid
  obtain ⟨c₂, hact₂, hgrown₂, hopen₂, -, hlisteners₂⟩ :=
    subscribe_accepted hgrown₁.ready hopen₁ hroot hvalid hsecond
  have hmain : c₂.listener? none 1 = some ⟨"/", client⟩ := by
    rw [hlisteners₂, if_neg fun h => hnamed h.1.symm, hlisteners₁, if_pos ⟨rfl, rfl⟩]
  obtain ⟨c₃, hact₃, hgrown₃, hlisteners₃⟩ := unsubscribe_accepted hgrown₂.ready hopen₂ hmain
  refine ⟨c₃, ?_, hgrown₃.ready, ?_, ?_⟩
  · rw [← hact₃, ← hact₂, ← hact₁]
    rfl
  -- both subscriptions have the line of the first, and the third line takes it back
  · have hr := recordable_recordOf (nofun : PlainAddress none) (by decide : (1 : UInt32) ≠ 0) hroot
      hvalid hline
    generalize hrecord : recordOf none ⟨1, "/", client⟩ = r at hr hgrown₁ hgrown₃
    have hsame : recordOf (some Database.defaultName) ⟨1, "/", client⟩ = r := hrecord
    rw [hsame] at hgrown₂
    let es : List Log.Entry := [.addListener r, .addListener r, .removeListener r]
    have hes : ∀ e ∈ es, e.Recordable := by
      simpa [es] using ⟨hr, hr.opposite⟩
    have hempty : newcomer.logContents = [] := by decide +kernel
    have hcontents : c₃.logContents = logBytes es := by
      rw [hgrown₃.contents, hgrown₂.contents, hgrown₁.contents, hempty]
      simp only [es, logBytes_cons, List.nil_append, List.append_assoc]
      exact congrArg _ (congrArg _ (List.append_nil _).symm)
    rw [surviving, hcontents, entriesOfBytes_logBytes hes]
    simp [es, Surviving.ofEntries, Surviving.apply, Surviving.join, Surviving.empty]
  · rw [hlisteners₃, if_neg fun h => hnamed h.1, hlisteners₂, if_pos ⟨rfl, rfl⟩]

/-- A database with the name of the default one in the log loses a listener with it. -/
theorem not_legible_clash {client : String} (hvalid : Client.isAddress client = true)
    (hline : '\n' ∉ client.toList) : ¬ Legible newcomer (clash client) := by
  intro h
  obtain ⟨c, hlive, hready, hsurviving, hl⟩ := live_clash hvalid hline
  obtain ⟨s, hs, -, hkept⟩ := h.reads
  rw [hlive] at hs hkept
  obtain rfl := surviving_of_readLog hs
  have hlost := hkept (.addListener (recordOf (some Database.defaultName) ⟨1, "/", client⟩))
    (mem_snapshot.mpr ⟨not_false, mem_records.mpr ⟨_, rfl, hl⟩⟩)
  rw [hsurviving] at hlost
  cases hlost

/-- Where some client can subscribe, the log of every daemon stays legible just when every name can
stand in it for itself alone. -/
theorem legible_iff_plain (v : Vocabulary)
    (hv : ∃ client, v.clients client ∧ Client.isAddress client = true) :
    (∀ c, Reached v c → ∀ acts : List Act, (∀ a ∈ acts, a.Within v) → Legible c acts) ↔
      v.Plain := by
  constructor
  · intro hall
    have hrecordable : ∀ address client, v.Names address → v.clients client →
        Client.isAddress client = true →
          (Log.Entry.addListener (recordOf address ⟨1, "/", client⟩)).Recordable := by
      intro address client ha hclient hvalid
      obtain ⟨c, hc, hready, hl⟩ := exists_listening ha hclient hvalid
      obtain ⟨s, hs, -, hkept⟩ := (hall c hc [] (List.forall_mem_nil _)).reads
      refine recordable_of_reads hs (hkept _ (mem_snapshot.mpr ⟨not_false, ?_⟩))
      exact mem_records.mpr ⟨address, rfl, hl⟩
    refine Vocabulary.plain_of_subscribers hv fun address client ha hclient hvalid => ?_
    obtain ⟨hcomplete, honeLine⟩ := hrecordable address client ha hclient hvalid
    have hline : '\n' ∉ client.toList := honeLine client (by simp [Log.Entry.texts, recordOf])
    refine ⟨?_, hline⟩
    rintro a rfl
    have hname : a ∈ (Log.Entry.addListener (recordOf (some a) ⟨1, "/", client⟩)).texts := .head _
    refine ⟨hcomplete.1 a hname, honeLine a hname, ?_⟩
    rintro rfl
    have hacts : ∀ act ∈ clash client, act.Within v := by
      have hdefault := ha _ rfl
      simp [clash, Act.Within, Vocabulary.Names, hclient, hdefault]
    exact not_legible_clash hvalid hline
      (hall newcomer (reached_newcomer [] (List.forall_mem_nil _)) _ hacts)
  · intro hplain c hc acts hacts
    exact (hc.tidy hplain).legible hplain hacts

/-- Names with blanks, quotes and backslashes in them leave the log legible. A line feed does not,
in a database or in a client, and neither does the name that the log has for the default database.
-/
theorem legible_quoted_not_two_lines :
    let vocabulary (database client : String) : Vocabulary := ⟨(· = database), (· = client)⟩
    let AllLegible (v : Vocabulary) : Prop :=
      ∀ c, Reached v c → ∀ acts : List Act, (∀ a ∈ acts, a.Within v) → Legible c acts
    AllLegible (vocabulary "x\t\"y\" \\" "/c\r d") ∧ ¬ AllLegible (vocabulary "x\ny" "/c") ∧
      ¬ AllLegible (vocabulary "x" "/c\nd") ∧ ¬ AllLegible (vocabulary "def" "/c") := by
  intro vocabulary AllLegible
  have hiff : ∀ database client, Client.isAddress client = true →
      (AllLegible (vocabulary database client) ↔ (vocabulary database client).Plain) :=
    fun database client h => legible_iff_plain (vocabulary database client) ⟨client, rfl, h⟩
  refine ⟨(hiff _ _ (by decide)).mpr ⟨?_, ?_⟩, fun hall => ?_, fun hall => ?_, fun hall => ?_⟩
  · rintro _ rfl _ ⟨⟩
    decide
  · rintro _ rfl -
    decide
  · obtain ⟨-, hline, -⟩ := ((hiff _ _ (by decide)).mp hall).databases _ rfl _ rfl
    exact hline (by decide)
  · exact ((hiff _ _ (by decide)).mp hall).clients _ rfl (by decide) (by decide)
  · obtain ⟨-, -, hdefault⟩ := ((hiff _ _ (by decide)).mp hall).databases _ rfl _ rfl
    exact hdefault rfl

end ConfigDaemon.Core
