import ConfigDaemon.Proofs.Core.Generations

/-! # The names that a daemon is given

Callers choose the addresses of databases and of clients. If each of them can stand in the log for
itself alone, every daemon that comes up has a log of whole lines that mirrors its state. Acts that
a daemon refuses because of an address do not matter.
-/

namespace ConfigDaemon.Core

open Log

/-- The addresses of databases and of clients that callers use. -/
structure Vocabulary where
  databases : String → Prop
  clients : String → Prop

namespace Vocabulary

/-- The default database needs no address. -/
def Names (v : Vocabulary) (address : Option String) : Prop :=
  ∀ a ∈ address, v.databases a

/-- Every address that a daemon accepts can stand in the log for itself alone. -/
structure Plain (v : Vocabulary) : Prop where
  databases : ∀ a, v.databases a → PlainAddress (some a)
  clients : ∀ client, v.clients client → Client.isAddress client = true → '\n' ∉ client.toList

theorem Plain.names {v : Vocabulary} (hv : v.Plain) {address : Option String}
    (h : v.Names address) : PlainAddress address := by
  rintro a rfl
  exact hv.databases a (h a rfl) a rfl

/-- Names are plain if those are with which a client can subscribe. -/
theorem plain_of_subscribers {v : Vocabulary}
    (hv : ∃ client, v.clients client ∧ Client.isAddress client = true)
    (h : ∀ address client, v.Names address → v.clients client → Client.isAddress client = true →
      PlainAddress address ∧ '\n' ∉ client.toList) : v.Plain := by
  obtain ⟨client, hclient, hvalid⟩ := hv
  refine ⟨fun a ha => ?_, fun other hother hvalid' => ?_⟩
  · have hnames : v.Names (some a) := by
      rintro _ ⟨⟩
      exact ha
    exact (h (some a) client hnames hclient hvalid).1
  · exact (h none other nofun hother hvalid').2

end Vocabulary

def Act.Within (v : Vocabulary) : Act → Prop
  | .addClient client => v.clients client
  | .subscribe address _ client => v.Names address ∧ v.clients client
  | .obtain address | .set address _ _ | .unset address _ => v.Names address
  | _ => True

/-- A daemon that came up on some disk, after any number of others, and has been asked only for what
the vocabulary names. -/
def Reached (v : Vocabulary) (c : Core) : Prop :=
  ∃ place disk idleLimit gs, Usable place disk ∧ gs ≠ [] ∧
    (∀ g ∈ gs, ∀ a ∈ g.acts, a.Within v) ∧ c = (start place idleLimit disk).generations gs

def Written (c : Core) : Prop :=
  ∃ es : List Log.Entry, (∀ e ∈ es, e.OneLine) ∧ c.logContents = logBytes es

structure Tidy (c : Core) : Prop where
  settled : c.Settled
  written : c.Written

variable {v : Vocabulary} {c : Core} {address : Option String} {location client : String}
  {id : UInt32}

/-! ## Plain names -/

structure Act.Idle (a : Act) : Prop where
  act : ∀ c : Core, c.act a = c
  compacts : ∀ c : Core, ¬ c.Compacts a

theorem act_of_not_isAddress (h : ¬ Client.isAddress client = true) (c : Core)
    (address : Option String) (location : String) :
    c.act (.addClient client) = c ∧ c.act (.subscribe address location client) = c := by
  have hr : ∃ f, resolveClient client = .error f := by
    simp only [resolveClient_eq, if_neg h]
    exact ⟨_, rfl⟩
  obtain ⟨f, hf⟩ := hr
  constructor
  · simp only [act, addClient, guarded, hf]
    split <;> rfl
  · simp only [act, subscribe, guarded, hf]
    split
    · rfl
    · cases Key.fault? location <;> rfl

/-- An act with plain names is plain, if it does anything at all. -/
theorem Act.Within.plain_or_idle (hv : v.Plain) {a : Act} (ha : a.Within v) :
    a.Plain ∨ a.Idle := by
  cases a with
  | addClient client =>
    by_cases h : Client.isAddress client = true
    · exact .inl (hv.clients client ha h)
    · exact .inr ⟨fun c => (act_of_not_isAddress h c none "").1, fun _ => id⟩
  | subscribe address location client =>
    by_cases h : Client.isAddress client = true
    · exact .inl ⟨hv.names ha.1, hv.clients client ha.2 h⟩
    · exact .inr ⟨fun c => (act_of_not_isAddress h c address location).2, fun _ => id⟩
  | obtain address => exact .inl (hv.names ha)
  | set address key value => exact .inl (hv.names ha)
  | unset address key => exact .inl (hv.names ha)
  | _ => exact .inl trivial

theorem Sound.compacted (hc : c.Sound) (order : List String) :
    (∀ e ∈ c.snapshotIn order, e.OneLine) ∧
      (c.compact order).2.logContents = logBytes (c.snapshotIn order) := by
  obtain ⟨c', hrun, -, -, -, hbytes⟩ := hc.compact order
  rw [hrun]
  refine ⟨fun e he => (hc.recordable e ?_).oneLine, hbytes⟩
  exact (c.perm_snapshotIn order).mem_iff.mp he

theorem Tidy.appended (h : c.Tidy) {a : Act} (ha : a.Plain) (hcompact : ¬ c.Compacts a) :
    ∃ es fs : List Log.Entry, (∀ e ∈ es ++ fs, e.OneLine) ∧ c.logContents = logBytes es ∧
      (c.act a).logContents = logBytes (es ++ fs) ∧ fs.Nodup ∧
      ∀ e, e ∈ fs ↔ Tells c (c.act a) e := by
  have hc := h.settled.sound
  obtain ⟨es, hes, hbytes⟩ := h.written
  obtain ⟨fs, -, htold⟩ := logged_act hc ha hcompact
  refine ⟨es, fs, List.forall_mem_append.mpr ⟨hes, fun e he => ?_⟩, hbytes, ?_, htold.nodup,
    htold.tells⟩
  · exact (htold.recordable hc.recordable e he).oneLine
  · rw [htold.contents, hbytes, logBytes_append]

theorem tidy_boot (h : c.Fresh) (peers : Peers) (order : List String) :
    (c.boot peers order).Tidy := by
  refine ⟨settled_boot h peers order, ?_⟩
  obtain ⟨report, notices, c₁, hrestore, htakes⟩ := exists_takesUp h peers
  rw [boot, hrestore]
  exact ⟨c₁.snapshotIn order, htakes.sound.compacted order⟩

theorem Tidy.act (h : c.Tidy) {a : Act} (ha : a.Plain) : (c.act a).Tidy := by
  refine ⟨h.settled.act ha, ?_⟩
  by_cases hcompact : c.Compacts a
  · obtain ⟨order, hact⟩ := act_of_compacts hcompact
    rw [hact]
    exact ⟨c.snapshotIn order, h.settled.sound.compacted order⟩
  · obtain ⟨es, fs, hlines, -, hafter, -⟩ := h.appended ha hcompact
    exact ⟨es ++ fs, hlines, hafter⟩

theorem Tidy.act_within (h : c.Tidy) (hv : v.Plain) {a : Act} (ha : a.Within v) :
    (c.act a).Tidy := by
  rcases ha.plain_or_idle hv with ha | hidle
  · exact h.act ha
  · rw [hidle.act]
    exact h

theorem Tidy.live (h : c.Tidy) (hv : v.Plain) {acts : List Act}
    (hacts : ∀ a ∈ acts, a.Within v) : (c.live acts).Tidy :=
  live_induction (fun _ _ h ha => h.act_within hv ha) h hacts

theorem Reached.tidy (h : Reached v c) (hv : v.Plain) : c.Tidy := by
  obtain ⟨place, disk, idleLimit, gs, hd, hne, hgs, rfl⟩ := h
  have hstarts (c₀ : Core) (peers : Peers) (order : List String) (h : c₀.Fresh) :=
    tidy_boot h peers order
  exact generations_induction (fun _ h => h.settled.sound) hstarts
    (fun _ _ h ha => h.act_within hv ha) (c := start place idleLimit disk)
    (fresh_start hd idleLimit) hne hgs

/-! ## Names in use -/

theorem Ready.logChange_setDatabase (h : c.Ready) (address : Option String) (d : Database)
    (e : Log.Entry) :
    Grown c ((c.setDatabase address d).logChange e) (Store.entryBytes e) := by
  obtain ⟨hlog, hdisk⟩ := log_setDatabase c address d
  have hgrown := (h.congr hlog hdisk).logChange e
  have hcontents : (c.setDatabase address d).logContents = c.logContents := by
    rw [logContents, hlog, hdisk, logContents]
  exact ⟨hgrown.ready, hgrown.place.trans (by rw [hlog]), fun names h =>
    hgrown.clear names (by rwa [hdisk]), hgrown.contents.trans (by rw [hcontents])⟩

theorem subscribe_accepted (hready : c.Ready) (hopen : c.inShutdown = false)
    (hlocation : Key.fault? location = none) (hclient : Client.isAddress client = true)
    (hid : (c.database address).listeners.freshId = some id) :
    ∃ c', c.act (.subscribe address location client) = c' ∧
      Grown c c' (Store.entryBytes (.addListener (recordOf address ⟨id, location, client⟩))) ∧
      c'.inShutdown = false ∧ (∀ a, a ≠ address → c'.database a = c.database a) ∧
      ∀ a i, c'.listener? a i =
        if a = address ∧ i = id then some ⟨location, client⟩ else c.listener? a i := by
  obtain ⟨listeners, hs⟩ : ∃ listeners,
      (c.database address).listeners.subscribe location client = some (id, listeners) := by
    rw [Registry.subscribe, hid]
    exact ⟨_, rfl⟩
  have hact : c.act (.subscribe address location client) =
      (c.setDatabase address { c.database address with listeners }).logChange
        (.addListener (recordOf address ⟨id, location, client⟩)) := by
    simp [act, subscribe, guarded, hopen, hlocation, resolveClient_of_isAddress hclient, hs]
  refine ⟨_, hact, hready.logChange_setDatabase _ _ _, ?_, fun a ha => ?_, fun a i => ?_⟩
  · cases address <;> exact hopen
  · exact (database_setDatabase c address _ a).trans (if_neg ha)
  · exact listener?_subscribed hs a i

theorem unsubscribe_accepted (hready : c.Ready) (hopen : c.inShutdown = false) {s : Subscription}
    (hs : c.listener? address id = some s) :
    ∃ c', c.act (.unsubscribe address id) = c' ∧
      Grown c c' (Store.entryBytes
        (.removeListener (recordOf address ⟨id, s.location, s.client⟩))) ∧
      ∀ a i, c'.listener? a i = if a = address ∧ i = id then none else c.listener? a i := by
  have hget : (c.database address).listeners.get? id = some ⟨id, s.location, s.client⟩ := by
    rw [Registry.get?_eq]
    exact congrArg (Option.map _) hs
  have hact : c.act (.unsubscribe address id) =
      (c.setDatabase address { c.database address with
        listeners := (c.database address).listeners.erase id }).logChange
          (.removeListener (recordOf address ⟨id, s.location, s.client⟩)) := by
    simp [act, unsubscribe_eq, guarded, hopen, hget]
  exact ⟨_, hact, hready.logChange_setDatabase _ _ _, listener?_unsubscribed c address id⟩

def newcomer : Core :=
  (start ⟨"/state", "log"⟩ 60 .empty).boot ⟨fun _ => true, fun _ _ => true, fun _ _ => .taken⟩ []

theorem tidy_newcomer : newcomer.Tidy := by
  have hd : Usable ⟨"/state", "log"⟩ .empty := trivial
  exact tidy_boot (fresh_start hd 60) _ []

theorem reached_newcomer (acts : List Act) (hacts : ∀ a ∈ acts, a.Within v) :
    Reached v (newcomer.live acts) :=
  ⟨⟨"/state", "log"⟩, .empty, 60, [⟨⟨fun _ => true, fun _ _ => true, fun _ _ => .taken⟩, [], acts⟩],
    trivial, List.cons_ne_nil _ _, List.forall_mem_singleton.mpr hacts, rfl⟩

theorem database_newcomer (address : Option String) : newcomer.database address = .empty := by
  have hmain : newcomer.main = .empty := by decide +kernel
  have hothers : newcomer.others = .empty := by decide +kernel
  cases address with
  | none => exact hmain
  | some a => rw [database, database?, hothers]; rfl

/-- Any two names of the vocabulary meet in a listener of some daemon. -/
theorem exists_listening (ha : v.Names address) (hclient : v.clients client)
    (hvalid : Client.isAddress client = true) :
    ∃ c, Reached v c ∧ c.Ready ∧ c.listener? address 1 = some ⟨"/", client⟩ := by
  have hid : (newcomer.database address).listeners.freshId = some 1 := by
    rw [database_newcomer]
    decide
  obtain ⟨c, hact, hgrown, -, -, hlisteners⟩ :=
    subscribe_accepted tidy_newcomer.settled.sound.ready (by decide +kernel)
      (by decide : Key.fault? "/" = none) hvalid hid
  refine ⟨c, ?_, hgrown.ready, (hlisteners _ _).trans (if_pos ⟨rfl, rfl⟩)⟩
  rw [← hact]
  exact reached_newcomer [.subscribe address "/" client]
    (List.forall_mem_singleton.mpr ⟨ha, hclient⟩)

end ConfigDaemon.Core
