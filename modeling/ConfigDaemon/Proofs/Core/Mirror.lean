import ConfigDaemon.Proofs.Core.Acts

/-! # The log mirrors the state

A log that mirrors the state of the daemon goes on to do so whatever the daemon is asked, if
nothing but blanks follows its last line feed. If something else does, the next line is lost.
-/

namespace ConfigDaemon.Core

open Log

variable {c : Core}

theorem Sound.act (hc : c.Sound) {a : Act} (ha : a.Plain) : (c.act a).Sound := by
  by_cases hcompact : c.Compacts a
  · obtain ⟨order, hact⟩ := act_of_compacts hcompact
    obtain ⟨c', hrun, hsound, -⟩ := hc.compact order
    rw [hact, hrun]
    exact hsound
  · obtain ⟨es, -, h⟩ := logged_act hc ha hcompact
    exact h.sound

theorem Sound.live (hc : c.Sound) {acts : List Act} (hacts : ∀ a ∈ acts, a.Plain) :
    (c.live acts).Sound :=
  live_induction (fun _ _ hc ha => hc.act ha) hc hacts

theorem mirrored_act (hc : c.Sound) (hm : c.Mirrored) (hf : Finished c.logContents) {a : Act}
    (ha : a.Plain) : (c.act a).Mirrored ∧ Finished (c.act a).logContents := by
  by_cases hcompact : c.Compacts a
  · obtain ⟨order, hact⟩ := act_of_compacts hcompact
    obtain ⟨c', hrun, hsound, -, hholds, hbytes⟩ := hc.compact order
    rw [hact, hrun]
    exact hsound.mirrored_of_snapshot hholds (c.perm_snapshotIn order) hbytes
  · obtain ⟨es, -, h⟩ := logged_act hc ha hcompact
    exact h.mirrored hc hm hf

theorem mirrored_live (hc : c.Sound) (hm : c.Mirrored) (hf : Finished c.logContents)
    {acts : List Act} (hacts : ∀ a ∈ acts, a.Plain) :
    (c.live acts).Mirrored ∧ Finished (c.live acts).logContents := by
  have hkept := live_induction
    (P := fun c => c.Sound ∧ c.Mirrored ∧ Finished c.logContents)
    (fun _ _ ⟨hc, hm, hf⟩ ha => ⟨hc.act ha, mirrored_act hc hm hf ha⟩) ⟨hc, hm, hf⟩ hacts
  exact hkept.2

/-- The log has one line more for each client and each listener that came or went. -/
def AppendsChanges (c c' : Core) : Prop :=
  ∃ es : List Log.Entry, es.Nodup ∧ (∀ e, e ∈ es ↔ Tells c c' e) ∧ (∀ e ∈ es, e.OneLine) ∧
    c'.logContents = c.logContents ++ logBytes es

theorem appendsChanges_act (hc : c.Sound) {a : Act} (ha : a.Plain) (hcompact : ¬ c.Compacts a) :
    AppendsChanges c (c.act a) := by
  obtain ⟨es, -, h⟩ := logged_act hc ha hcompact
  exact ⟨es, h.nodup, h.tells, fun e he => (h.recordable hc.recordable e he).oneLine, h.contents⟩

/-- When a log that is not finished mirrors the state, a new client can come and be lost. -/
theorem exists_not_mirrored (hc : c.Sound) (hm : c.Mirrored) (hopen : c.inShutdown = false)
    (hf : ¬ Finished c.logContents) : ∃ a : Act, a.Plain ∧ ¬ (c.act a).Mirrored := by
  obtain ⟨client, hlong, hhead, hother⟩ :=
    exists_long_address (Text.Utf8.decodeLenient c.logContents).length
  have hline : '\n' ∉ client.toList := fun h => absurd (hother _ h) (by decide)
  -- an address that is longer than the log cannot have been read from it
  have hnew : client ∉ c.clients.keys := by
    intro h
    have hmem : .addClient client ∈ c.snapshot := mem_snapshot.mpr ⟨not_false, h⟩
    have := (recordable_of_mem (mem_entriesOfBytes_of_mirrored hc.ready hm hmem)).2 client (.head _)
    exact absurd hlong (not_lt.mpr this)
  have haddress : Client.isAddress client = true := decide_eq_true hhead
  have hact : c.act (.addClient client) =
      { c with clients := c.clients.insert client () }.logChange (.addClient client) := by
    have hwelcome : c.act (.addClient client) = c.welcome client := by
      simp [act, addClient, guarded, hopen, resolveClient_of_isAddress haddress]
    rw [hwelcome, welcome, if_neg (Table.contains_iff_mem_keys.not.mpr hnew)]
  have hready : { c with clients := c.clients.insert client () }.Ready :=
    ⟨hc.ready.writable, hc.ready.attached⟩
  have hgrown := hready.logChange (.addClient client)
  refine ⟨.addClient client, hline, fun hm' => ?_⟩
  rw [hact] at hm'
  have hmem : .addClient client ∈ ({ c with clients := c.clients.insert client () }.logChange
      (.addClient client)).snapshot :=
    mem_snapshot.mpr ⟨not_false, Table.mem_keys_insert.mpr (.inl rfl)⟩
  have hread := mem_entriesOfBytes_of_mirrored hgrown.ready hm' hmem
  rw [hgrown.contents] at hread
  exact not_mem_entriesOfBytes_append hf hline hlong
    (fun h => absurd (hother _ h) (by decide)) hread

/-- From a state that the log mirrors, every act but a compaction adds a line for each change. The
log mirrors every later state if it is finished, and only then. -/
theorem mirrored_live_iff_finished (hready : c.Ready) (hcompactable : c.Compactable)
    (hu : c.Unambiguous) (hm : c.Mirrored) :
    (∀ acts : List Act, (∀ a ∈ acts, a.Plain) → ∀ a : Act, a.Plain →
      ¬ (c.live acts).Compacts a → AppendsChanges (c.live acts) ((c.live acts).act a)) ∧
    (Finished c.logContents →
      ∀ acts : List Act, (∀ a ∈ acts, a.Plain) → (c.live acts).Mirrored) ∧
    (c.inShutdown = false →
      (∀ acts : List Act, (∀ a ∈ acts, a.Plain) → (c.live acts).Mirrored) →
        Finished c.logContents) := by
  have hc : c.Sound := ⟨hready, hcompactable, hu, recordable_of_mirrored hready hm⟩
  refine ⟨fun acts hacts a ha hcompact => ?_, fun hf acts hacts => ?_, fun hopen hall => ?_⟩
  · exact appendsChanges_act (hc.live hacts) ha hcompact
  · exact (mirrored_live hc hm hf hacts).1
  · by_contra hf
    obtain ⟨a, ha, hno⟩ := exists_not_mirrored hc hm hopen hf
    exact hno (hall [a] (List.forall_mem_singleton.mpr ha))

/-- A log that is not there yet mirrors every later state. One that ends in a torn line does not,
though it tells of nothing either. -/
theorem mirrored_live_of_missing_not_of_torn :
    let missing := start ⟨"/state", "log"⟩ 60 .empty
    let torn := start ⟨"/state", "log"⟩ 60
      (diskOf ⟨"/state", "log"⟩ (Text.Utf8.encode "CLIENTADD".toList))
    (∀ acts : List Act, (∀ a ∈ acts, a.Plain) → (missing.live acts).Mirrored) ∧
      torn.Mirrored ∧ ¬ ∀ acts : List Act, (∀ a ∈ acts, a.Plain) → (torn.live acts).Mirrored := by
  intro missing torn
  have hmissing : missing.Mirrored :=
    ⟨⟨[], []⟩, by decide +kernel, ⟨.nil, .nil⟩, .nil, .nil⟩
  have htorn : torn.Mirrored :=
    ⟨⟨[], []⟩, by decide +kernel, ⟨.nil, .nil⟩, .nil, .nil⟩
  have hready : missing.Ready := ⟨trivial, nofun⟩
  have hready' : torn.Ready := ⟨clear_diskOf _ _ _, nofun⟩
  refine ⟨?_, htorn, fun hall => ?_⟩
  · exact (mirrored_live_iff_finished hready trivial rfl hmissing).2.1 finished_nil
  · have hf := (mirrored_live_iff_finished hready' (clear_diskOf _ _ _) rfl htorn).2.2 rfl hall
    exact absurd hf (by decide +kernel)

end ConfigDaemon.Core
