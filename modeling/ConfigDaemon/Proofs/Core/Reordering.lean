import ConfigDaemon.Proofs.Core.Delivered
import ConfigDaemon.Proofs.Core.Rewriting

/-! # The order in which databases are visited

Compactions and sweeps write about the databases in the order in which they come upon them, which
shows when a later daemon reads the log. A replay of a log in another order does the same to each
database, provided that each entry has a line to itself.
-/

namespace ConfigDaemon.Core

open Log

/-! ## Replays -/

/-- What is made of a record: the notice, the database that is put back, and what is logged. -/
def takenUp (accepts : String → Rekeying → Bool) (d : Database) (r : Log.Record) :
    Option Notice × Option Database × List Log.Entry :=
  if r.Valid then
    match d.listeners.subscribe r.location r.client with
    | none => (none, none, [.removeListener r])
    | some (id, listeners) =>
      let rekeying := ⟨Database.ofLogName r.database, r.id, r.location, id⟩
      if accepts r.client rekeying then
        (some ⟨r.client, rekeying, true⟩, some { d with listeners },
          [.removeListener r, .addListener { r with id }])
      else
        (some ⟨r.client, rekeying, false⟩,
          some { d with listeners := listeners.erase id }, [.removeListener r])
  else (none, none, [])

def putBack (c : Core) (address : Option String) : Option Database → Core
  | some d => c.setDatabase address d
  | none => c

theorem setDatabase_setDatabase (c : Core) (address : Option String) (d d' : Database) :
    (c.setDatabase address d).setDatabase address d' = c.setDatabase address d' := by
  cases address with
  | none => rfl
  | some a =>
    have hinsert : (c.others.insert a d).insert a d' = c.others.insert a d' := by
      refine Table.ext_find? fun k => ?_
      simp only [Table.find?_insert]
      split <;> rfl
    simp only [setDatabase, hinsert]

theorem setDatabase_comm (c : Core) {a b : Option String} (hne : a ≠ b) (d d' : Database) :
    (c.setDatabase a d).setDatabase b d' = (c.setDatabase b d').setDatabase a d := by
  cases a with
  | none =>
    cases b with
    | none => exact (hne rfl).elim
    | some b => rfl
  | some a =>
    cases b with
    | none => rfl
    | some b =>
      have hinsert : (c.others.insert a d).insert b d' = (c.others.insert b d').insert a d := by
        refine Table.ext_find? fun k => ?_
        simp only [Table.find?_insert]
        split
        · rename_i hk
          rw [if_neg fun ha => hne (congrArg some (ha.symm.trans hk))]
        · rfl
      simp only [setDatabase, hinsert]

theorem setDatabase_logChange (c : Core) (address : Option String) (d : Database)
    (e : Log.Entry) : (c.logChange e).setDatabase address d =
      (c.setDatabase address d).logChange e := by
  cases address <;> rfl

theorem restoreListener_eq (accepts : String → Rekeying → Bool) (c : Core) (r : Log.Record) :
    c.restoreListener accepts r =
      ((takenUp accepts (c.database (Database.ofLogName r.database)) r).1,
        (c.putBack (Database.ofLogName r.database)
          (takenUp accepts (c.database (Database.ofLogName r.database)) r).2.1).logChanges
            (takenUp accepts (c.database (Database.ofLogName r.database)) r).2.2) := by
  by_cases hr : r.Valid
  · rw [restoreListener_of_valid hr, takenUp, if_pos hr]
    cases (c.database (Database.ofLogName r.database)).listeners.subscribe r.location r.client with
    | none => rfl
    | some found =>
      dsimp only
      rw [setDatabase_logChange]
      split
      · rfl
      · rw [setDatabase_logChange, setDatabase_setDatabase]
        rfl
  · rw [restoreListener_of_not_valid hr, takenUp, if_neg hr]
    rfl

theorem of_mem_takenUp {accepts : String → Rekeying → Bool} {d : Database} {r : Log.Record}
    {e : Log.Entry} (he : e ∈ (takenUp accepts d r).2.2) :
    e = .removeListener r ∨ ∃ id, e = .addListener { r with id } := by
  unfold takenUp at he
  split at he
  · split at he
    · exact .inl (List.mem_singleton.mp he)
    · dsimp only at he
      split at he
      · rcases List.mem_cons.mp he with rfl | he
        · exact .inl rfl
        · exact .inr ⟨_, List.mem_singleton.mp he⟩
      · exact .inl (List.mem_singleton.mp he)
  · cases he

theorem apart_of_mem_takenUp {accepts : String → Rekeying → Bool} {d d' : Database}
    {r s : Log.Record} (hne : r.Apart s) :
    ∀ e ∈ (takenUp accepts d r).2.2, ∀ f ∈ (takenUp accepts d' s).2.2, e.Apart f := by
  intro e he f hf
  rcases of_mem_takenUp he with rfl | ⟨id, rfl⟩ <;>
    rcases of_mem_takenUp hf with rfl | ⟨id', rfl⟩ <;> exact hne

theorem listeners_takenUp {accepts : String → Rekeying → Bool} {d d' : Database} {r : Log.Record}
    (hd : d' ∈ (takenUp accepts d r).2.1) {l : Listener} (hl : l ∈ d'.listeners.toList) :
    (∃ id, l = ⟨id, r.location, r.client⟩) ∨ l ∈ d.listeners.toList := by
  unfold takenUp at hd
  split at hd
  · split at hd
    · cases hd
    · rename_i id listeners hs
      dsimp only at hd
      have hnew : ∀ l ∈ listeners.toList,
          (∃ id, l = ⟨id, r.location, r.client⟩) ∨ l ∈ d.listeners.toList := fun l hl =>
        (Registry.mem_toList_subscribe hs hl).imp_left fun h => ⟨id, h⟩
      split at hd <;> cases hd
      · exact hnew l hl
      · exact hnew l (Registry.mem_toList_of_erase hl)
  · cases hd

theorem database_of_mem_takenUp {accepts : String → Rekeying → Bool} {d : Database}
    {r : Log.Record} {n : Notice} (hn : n ∈ (takenUp accepts d r).1) :
    n.rekeying.database = Database.ofLogName r.database := by
  unfold takenUp at hn
  split at hn
  · split at hn
    · cases hn
    · dsimp only at hn
      split at hn <;> cases hn <;> rfl
  · cases hn

theorem database_putBack (c : Core) {a b : Option String} (hne : b ≠ a) (d : Option Database) :
    (c.putBack a d).database b = c.database b := by
  cases d with
  | none => rfl
  | some d => exact (database_setDatabase c a d b).trans (if_neg hne)

theorem putBack_comm (c : Core) {a b : Option String} (hne : a ≠ b) (d d' : Option Database) :
    (c.putBack a d).putBack b d' = (c.putBack b d').putBack a d := by
  cases d <;> cases d' <;> first | rfl | exact setDatabase_comm c hne _ _

theorem putBack_logChanges (c : Core) (a : Option String) (d : Option Database)
    (es : List Log.Entry) :
    (c.logChanges es).putBack a d = (c.putBack a d).logChanges es := by
  induction es generalizing c with
  | nil => rfl
  | cons e es ih =>
    have hone : (c.logChange e).putBack a d = (c.putBack a d).logChange e := by
      cases d with
      | none => rfl
      | some d => exact setDatabase_logChange c a d e
    exact (ih (c.logChange e)).trans (congrArg (Core.logChanges · es) hone)

theorem database_logChanges (c : Core) (es : List Log.Entry) (a : Option String) :
    (c.logChanges es).database a = c.database a := by
  induction es generalizing c with
  | nil => rfl
  | cons e es ih => exact ih (c.logChange e)

/-- Two records of different databases, one after the other. -/
theorem restoreListener_restoreListener (accepts : String → Rekeying → Bool) (c : Core)
    {r s : Log.Record} (hne : r.Apart s) :
    (c.restoreListener accepts r).2.restoreListener accepts s =
      ((takenUp accepts (c.database (Database.ofLogName s.database)) s).1,
        ((c.putBack (Database.ofLogName r.database)
          (takenUp accepts (c.database (Database.ofLogName r.database)) r).2.1).putBack
            (Database.ofLogName s.database)
            (takenUp accepts (c.database (Database.ofLogName s.database)) s).2.1).logChanges
          ((takenUp accepts (c.database (Database.ofLogName r.database)) r).2.2 ++
            (takenUp accepts (c.database (Database.ofLogName s.database)) s).2.2)) := by
  have haddress : Database.ofLogName s.database ≠ Database.ofLogName r.database := fun h =>
    hne (Database.ofLogName_inj h).symm
  rw [restoreListener_eq, restoreListener_eq, database_logChanges,
    database_putBack c haddress, putBack_logChanges]
  simp only [logChanges, List.foldl_append]

namespace Rewritten

variable {told : Log.Entry → Prop} {S : Bytes → Bytes → Prop} {c c' : Core}

theorem putBack (hS : Tolerant told S) (h : Rewritten told S c c')
    (accepts : String → Rekeying → Bool) {r : Log.Record}
    (hr : ∀ id, told (.addListener { r with id })) :
    Rewritten told S
      (c.putBack (Database.ofLogName r.database)
        (takenUp accepts (c.database (Database.ofLogName r.database)) r).2.1)
      (c'.putBack (Database.ofLogName r.database)
        (takenUp accepts (c.database (Database.ofLogName r.database)) r).2.1) := by
  cases hd : (takenUp accepts (c.database (Database.ofLogName r.database)) r).2.1 with
  | none => exact h
  | some d =>
    refine (congruence hS).setDatabase h _ fun l hl => ?_
    rcases listeners_takenUp hd hl with ⟨id, rfl⟩ | hold
    · rw [recordOf, Database.logName_ofLogName]
      exact hr id
    · exact (congruence hS).told_listener h hold

end Rewritten

/-- Two daemons whose logs hold the same entries, each on one line but perhaps in another order. -/
abbrev Reordered : Core → Core → Prop :=
  Rewritten Log.Entry.OneLine SameEntries

/-- Whatever is there takes one line of the log, and no file breaks off within a line. -/
structure WellWritten (c : Core) : Prop where
  finished : c.disk.Finished
  oneLine : ∀ e ∈ c.snapshot, e.OneLine

def Notice.Apart (n m : Notice) : Prop :=
  n.rekeying.database ≠ m.rekeying.database

theorem Tally.count_comm (t : Tally) (a b : Bool) : (t.count a).count b = (t.count b).count a := by
  cases a <;> cases b <;> rfl

namespace Reordered

variable {c c' c'' : Core}

theorem trans (h : Reordered c c') (h' : Reordered c' c'') : Reordered c c'' where
  rest := by rw [h'.rest, h.rest]
  disk := by
    refine ⟨by rw [h'.disk.rest, h.disk.rest], h'.disk.length.trans h.disk.length, fun n => ?_⟩
    exact (h.disk.contents n).trans (h'.disk.contents n)
  told := h.told

theorem right (h : Reordered c c') : Reordered c' c' where
  rest := rfl
  disk := ⟨rfl, rfl, fun n => sameEntries_self (h.disk.contents n).finished'⟩
  told := by
    have hsnapshot : c'.snapshot = c.snapshot := by rw [h.rest]; rfl
    rw [hsnapshot]
    exact h.told

theorem restoreListener (h : Reordered c c') (accepts : String → Rekeying → Bool)
    {r : Log.Record} (hr : (Log.Entry.addListener r).OneLine) :
    Agrees Reordered (c.restoreListener accepts r) (c'.restoreListener accepts r) :=
  (Rewritten.congruence tolerant_sameEntries).restoreListener h accepts fun _ => hr

theorem restoreListener_comm (h : Reordered c c') (accepts : String → Rekeying → Bool)
    {r s : Log.Record} (hne : r.Apart s) (hr : (Log.Entry.addListener r).OneLine)
    (hs : (Log.Entry.addListener s).OneLine) :
    (c'.restoreListener accepts s).1 =
        ((c.restoreListener accepts r).2.restoreListener accepts s).1 ∧
      ((c'.restoreListener accepts s).2.restoreListener accepts r).1 =
        (c.restoreListener accepts r).1 ∧
      Reordered ((c.restoreListener accepts r).2.restoreListener accepts s).2
        ((c'.restoreListener accepts s).2.restoreListener accepts r).2 := by
  have hsame : ∀ a, c'.database a = c.database a :=
    (Rewritten.congruence tolerant_sameEntries).database h
  have haddress : Database.ofLogName r.database ≠ Database.ofLogName s.database := fun he =>
    hne (Database.ofLogName_inj he)
  rw [restoreListener_restoreListener accepts c hne,
    restoreListener_restoreListener accepts c' hne.symm, restoreListener_eq, restoreListener_eq,
    hsame, hsame, putBack_comm c' haddress.symm]
  refine ⟨rfl, rfl, ?_⟩
  have hput := (h.putBack tolerant_sameEntries accepts (r := r) fun _ => hr).putBack
    tolerant_sameEntries accepts (r := s) fun _ => hs
  rw [database_putBack c haddress.symm] at hput
  have hone : ∀ {d : Database} {r : Log.Record}, (Log.Entry.addListener r).OneLine →
      ∀ e ∈ (takenUp accepts d r).2.2, e.OneLine := by
    intro d r hr e he
    rcases of_mem_takenUp he with rfl | ⟨id, rfl⟩ <;> exact hr
  exact hput.logChanges tolerant_sameEntries (List.forall_mem_append.mpr ⟨hone hr, hone hs⟩)
    (.append_comm (apart_of_mem_takenUp hne))

/-- A replay of the same records in another order. -/
theorem restoreAll {rs rs' : List Log.Record} (hrs : Rearranged Log.Record.Apart rs rs')
    (accepts : String → Rekeying → Bool) (h : Reordered c c')
    (hone : ∀ r ∈ rs, (Log.Entry.addListener r).OneLine) :
    (c'.restoreAll accepts rs').1.1 = (c.restoreAll accepts rs).1.1 ∧
      Rearranged Notice.Apart (c.restoreAll accepts rs).1.2 (c'.restoreAll accepts rs').1.2 ∧
      Reordered (c.restoreAll accepts rs).2 (c'.restoreAll accepts rs').2 := by
  induction hrs generalizing c c' with
  | nil => exact ⟨rfl, .nil, h⟩
  | cons r _ ih =>
    obtain ⟨hr, hrest⟩ := List.forall_mem_cons.mp hone
    obtain ⟨hnotice, hrestored⟩ := h.restoreListener accepts hr
    obtain ⟨htally, hnotices, hafter⟩ := ih hrestored hrest
    simp only [Core.restoreAll, hnotice, htally]
    exact ⟨trivial, hnotices.append_left _, hafter⟩
  | @swap r s hne rest =>
    obtain ⟨hr, hone⟩ := List.forall_mem_cons.mp hone
    obtain ⟨hs, hrest⟩ := List.forall_mem_cons.mp hone
    obtain ⟨hnotice, hnotice', hrestored⟩ := h.restoreListener_comm accepts hne hr hs
    obtain ⟨hsame, hafter⟩ := (Rewritten.congruence tolerant_sameEntries).restoreAll hrestored
      accepts fun t ht _ => hrest t ht
    -- the two notices are about different databases, as the records are
    have hapart : ∀ n ∈ (c.restoreListener accepts r).1.toList,
        ∀ m ∈ ((c.restoreListener accepts r).2.restoreListener accepts s).1.toList,
          n.Apart m := by
      intro n hn m hm he
      rw [Option.mem_toList, restoreListener_eq] at hn hm
      rw [database_of_mem_takenUp hn, database_of_mem_takenUp hm] at he
      exact hne (Database.ofLogName_inj he)
    simp only [Core.restoreAll, hnotice, hnotice', hsame]
    refine ⟨Tally.count_comm _ _ _, ?_, hafter⟩
    rw [← List.append_assoc, ← List.append_assoc]
    exact (Rearranged.append_comm hapart).append_right _
  | trans hrs _ ih ih' =>
    obtain ⟨htally, hnotices, hafter⟩ := ih h hone
    obtain ⟨htally', hnotices', hafter'⟩ := ih' h.right fun r hr =>
      hone r (hrs.perm.mem_iff.mpr hr)
    exact ⟨htally'.trans htally, hnotices.trans hnotices', hafter.trans hafter'⟩

theorem readLog (h : Reordered c c') :
    (∃ f, c.readLog = .error f ∧ c'.readLog = .error f) ∨
      ∃ s s', c.readLog = .ok s ∧ c'.readLog = .ok s' ∧ s.Rearranged s' := by
  have hlog : c'.log = c.log := by rw [h.rest]
  rw [Core.readLog, Core.readLog, Store.read, Store.read, hlog, Disk.read, Disk.read,
    h.disk.find]
  rcases c.disk.find c.log.place.name with f | ⟨n⟩ | ⟨inside⟩
  · have hsame := Surviving.rearranged_refl .empty
    cases f <;> first | exact .inl ⟨_, rfl, rfl⟩ | exact .inr ⟨_, _, rfl, rfl, hsame⟩
  · exact .inr ⟨_, _, rfl, rfl, Surviving.rearranged_ofEntries (h.disk.contents n).entries⟩
  · exact .inl ⟨_, rfl, rfl⟩

theorem closed (h : Reordered c c') :
    Reordered { c with log := c.log.close } { c' with log := c'.log.close } :=
  h.of_withDisk (f := fun c => { c with log := c.log.close }) (fun _ => rfl) rfl h.told

/-- A replay reports the same, and sends the same notices but for their order. -/
theorem performRestore (h : Reordered c c') (peers : Peers) :
    (c'.perform peers .restore).1.1 = (c.perform peers .restore).1.1 ∧
      Rearranged Notice.Apart (c.perform peers .restore).1.2 (c'.perform peers .restore).1.2 ∧
      Reordered (c.perform peers .restore).2 (c'.perform peers .restore).2 := by
  rw [Core.perform, Core.perform, Core.restore, Core.restore, read_eq, read_eq]
  rcases h.readLog with ⟨f, hf, hf'⟩ | ⟨s, s', hs, hs', hsame⟩
  · rw [hf, hf']
    exact ⟨rfl, .nil, h.closed⟩
  · obtain rfl := surviving_of_readLog hs
    obtain ⟨hclients, hrevived⟩ := (Rewritten.congruence tolerant_sameEntries).reviveAll h.closed
      peers.ping fun a (ha : a ∈ c.surviving.clients) =>
        (recordable_client_of_mem_surviving ha).oneLine
    obtain ⟨htally, hnotices, hrestored⟩ := restoreAll hsame.listeners peers.rekey hrevived
      fun r hr => (recordable_of_mem_surviving hr).oneLine
    rw [hs, hs']
    simp only [replay, hsame.clients, hclients, htally]
    exact ⟨trivial, hnotices, hrestored⟩

/-- Every operation gives the same, with the same notices but for their order, in whatever orders it
visits the databases. -/
theorem perform (h : Reordered c c') (peers : Peers) {op op' : Operation}
    (hop : op.Reordered (fun _ _ => True) op') (hbrings : ∀ e, op.Brings e → e.OneLine) :
    (c'.perform peers op').1.1 = (c.perform peers op).1.1 ∧
      Rearranged Notice.Apart (c.perform peers op).1.2 (c'.perform peers op').1.2 ∧
      Reordered (c.perform peers op).2 (c'.perform peers op').2 := by
  by_cases hrestore : op = .restore
  · subst hrestore
    obtain rfl : op' = .restore := hop
    exact h.performRestore peers
  · obtain ⟨hresult, hafter⟩ := (Rewritten.congruence tolerant_sameEntries).perform_of_ne_restore h
      peers hop hbrings hrestore
    exact ⟨congrArg Prod.fst hresult, hresult ▸ .refl _, hafter⟩

end Reordered

/-! ## All that can be seen -/

inductive Happening
  | event (e : Event)
  /-- The daemon ends, and another one starts on the disk. -/
  | restart

/-- A compaction or a sweep may come upon the databases in another order. -/
inductive Happening.Reordered : Happening → Happening → Prop
  | ask (peers : Peers) {op op' : Operation} (h : op.Reordered (fun _ _ => True) op') :
    Happening.Reordered (.event (.ask peers op)) (.event (.ask peers op'))
  | deliver (peers : Peers) :
    Happening.Reordered (.event (.deliver peers)) (.event (.deliver peers))
  | disturb (disk : Disk) : Happening.Reordered (.event (.disturb disk)) (.event (.disturb disk))
  | restart : Happening.Reordered .restart .restart

/-- What comes in takes one line of the log, and other programs leave no file that breaks off within
a line. -/
def Happening.WellWritten : Happening → Prop
  | .event (.ask _ op) => ∀ e, op.Brings e → e.OneLine
  | .event (.disturb disk) => disk.Finished
  | .event (.deliver _) | .restart => True

def undergo (c : Core) : Happening → Core
  | .event e => c.meet e
  | .restart => Session.restarted c

/-- What comes to light: the result and the notices of an operation, or what is handed over. -/
def shown (c : Core) : Happening → Outcome
  | .event (.ask peers op) => ⟨some (c.perform peers op).1.1, (c.perform peers op).1.2, []⟩
  | .event (.deliver peers) => ⟨none, [], deliveries peers c⟩
  | .event (.disturb _) | .restart => ⟨none, [], []⟩

/-- What can be seen of a daemon when something happens: what comes to light, and what the log reads
as afterwards. -/
structure Sight where
  outcome : Outcome
  log : Except Failure Surviving

def sights : Core → List Happening → List Sight
  | _, [] => []
  | c, x :: xs => ⟨c.shown x, (c.undergo x).readLog⟩ :: sights (c.undergo x) xs

structure Sight.Rearranged (v v' : Sight) : Prop where
  result : v'.outcome.result = v.outcome.result
  taken : v'.outcome.taken = v.outcome.taken
  notices : ConfigDaemon.Rearranged Notice.Apart v.outcome.notices v'.outcome.notices
  log : (∃ f, v.log = .error f ∧ v'.log = .error f) ∨
    ∃ s s', v.log = .ok s ∧ v'.log = .ok s' ∧ s.Rearranged s'

namespace Reordered

variable {c c' : Core} {x x' : Happening}

theorem undergo (h : Reordered c c') (hx : x.Reordered x') (hwell : x.WellWritten) :
    Sight.Rearranged ⟨c.shown x, (c.undergo x).readLog⟩ ⟨c'.shown x', (c'.undergo x').readLog⟩ ∧
      Reordered (c.undergo x) (c'.undergo x') := by
  cases hx with
  | ask peers hop =>
    obtain ⟨hresult, hnotices, hafter⟩ := h.perform peers hop hwell
    exact ⟨⟨congrArg some hresult, rfl, hnotices, hafter.readLog⟩, hafter⟩
  | deliver peers =>
    have hafter : Reordered (c.undergo (.event (.deliver peers)))
        (c'.undergo (.event (.deliver peers))) :=
      h.of_withDisk (f := Core.deliver peers) (fun _ => rfl) rfl h.told
    refine ⟨⟨rfl, ?_, .nil, hafter.readLog⟩, hafter⟩
    rw [h.rest]
    rfl
  | disturb disk =>
    have hafter : Reordered (c.undergo (.event (.disturb disk)))
        (c'.undergo (.event (.disturb disk))) := by
      refine ⟨?_, hwell.like, h.told⟩
      rw [h.rest]
      rfl
    exact ⟨⟨rfl, rfl, .nil, hafter.readLog⟩, hafter⟩
  | restart =>
    have hafter : Reordered (c.undergo .restart) (c'.undergo .restart) := by
      refine ⟨?_, h.disk, nofun⟩
      rw [h.rest]
      rfl
    exact ⟨⟨rfl, rfl, .nil, hafter.readLog⟩, hafter⟩

theorem sights {xs xs' : List Happening} (hxs : List.Forall₂ Happening.Reordered xs xs')
    (hwell : ∀ x ∈ xs, x.WellWritten) (h : Reordered c c') :
    List.Forall₂ Sight.Rearranged (c.sights xs) (c'.sights xs') := by
  induction hxs generalizing c c' with
  | nil => exact .nil
  | cons hx _ ih =>
    obtain ⟨hfirst, hrest⟩ := List.forall_mem_cons.mp hwell
    obtain ⟨hsight, hafter⟩ := h.undergo hx hfirst
    exact .cons hsight (ih hrest hafter)

end Reordered

/-- Behind a line that broke off it matters which of two listeners goes first: the line of that one
is lost. -/
example :
    let peers : Peers := ⟨fun _ => false, fun _ _ => true, fun _ _ => .taken⟩
    let place : Place := ⟨"/var/confd", "saved"⟩
    let torn := diskOf place (Text.Utf8.encode
      "ADD 1 \"a\" \"/\" \"/c\"\nADD 1 \"b\" \"/\" \"/c\"\nAD".toList)
    let c := (start place 60 .empty).through
      [.ask peers (.subscribe (some "a") "/" "/c"), .ask peers (.subscribe (some "b") "/" "/c"),
        .disturb torn]
    let listeners (order : List String) :=
      ((c.sweep order peers.ping).2.readLog.map (·.listeners)).toOption
    listeners ["a", "b"] = some [⟨1, "a", "/", "/c"⟩] ∧
      listeners ["b", "a"] = some [⟨1, "b", "/", "/c"⟩] := by
  decide +kernel

/-! ## Without replays -/

end ConfigDaemon.Core
