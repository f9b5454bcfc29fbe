import ConfigDaemon.Core.Session
import ConfigDaemon.Proofs.Core.Replay

/-! # What operations look at

Operations are made of a few parts: they look up databases and the records of all listeners, put
databases back, queue and drop notifications, tell the log and compact it, and change the rest
without a look at any of these. A relation between daemons that these parts respect is respected by
every operation.
-/

namespace ConfigDaemon.Core

/-- The databases, the queues and the disk of one daemon with all the rest of another. -/
def withRest (c b : Core) : Core :=
  { b with main := c.main, others := c.others, couriers := c.couriers, disk := c.disk }

def Agrees {α : Type} (R : Core → Core → Prop) (r r' : α × Core) : Prop :=
  r'.1 = r.1 ∧ R r.2 r'.2

/-- The parts of operations do not tell related daemons apart, and leave them related, if the log
is told of things of a kind and the databases are visited in orders that go together. -/
structure Congruence (told : Log.Entry → Prop) (orders : List String → List String → Prop)
    (R : Core → Core → Prop) : Prop where
  rest : ∀ {c c'}, R c c' → c' = c'.withRest c
  database : ∀ {c c'}, R c c' → ∀ a, c'.database a = c.database a
  records : ∀ {c c'}, R c c' → c'.records = c.records
  told_snapshot : ∀ {c c'}, R c c' → ∀ e ∈ c.snapshot, told e
  opposite : ∀ {e : Log.Entry}, told e → told e.opposite
  withRest : ∀ {c c'}, R c c' → ∀ b : Core, (∀ a ∈ b.clients.keys, told (.addClient a)) →
    R (c.withRest b) (c'.withRest b)
  setDatabase : ∀ {c c'}, R c c' → ∀ a {d : Database},
    (∀ l ∈ d.listeners.toList, told (.addListener (recordOf a l))) →
      R (c.setDatabase a d) (c'.setDatabase a d)
  queueChange : ∀ {c c'}, R c c' → ∀ a key value,
    R (c.queueChange a key value) (c'.queueChange a key value)
  dropCourier : ∀ {c c'}, R c c' → ∀ client, R { c with couriers := c.couriers.erase client }
    { c' with couriers := c'.couriers.erase client }
  logChange : ∀ {c c'}, R c c' → ∀ {e}, told e → R (c.logChange e) (c'.logChange e)
  dropListeners : ∀ {c c'}, R c c' → ∀ {o o'}, orders o o' → ∀ client,
    R (c.dropListeners o client) (c'.dropListeners o' client)
  compact : ∀ {c c'}, R c c' → ∀ {o o'}, orders o o' → Agrees R (c.compact o) (c'.compact o')

def Operation.Reordered (orders : List String → List String → Prop) : Operation → Operation → Prop
  | .compact o, op' => ∃ o', orders o o' ∧ op' = .compact o'
  | .compactIfNeeded o, op' => ∃ o', orders o o' ∧ op' = .compactIfNeeded o'
  | .sweep o, op' => ∃ o', orders o o' ∧ op' = .sweep o'
  | .housekeep upkeep elapsed unused o, op' =>
    ∃ o', orders o o' ∧ op' = .housekeep upkeep elapsed unused o'
  | op, op' => op' = op

def Operation.Brings : Operation → Log.Entry → Prop
  | .addClient client, e => e = .addClient client
  | .subscribe address location client, e =>
    ∃ id, e = .addListener (recordOf address ⟨id, location, client⟩)
  | _, _ => False

theorem Agrees.map {α : Type} {R : Core → Core → Prop} {r r' : Except Failure α × Core}
    (h : Agrees R r r') (f : α → Value) :
    Agrees R ((r.1.map f, ([] : List Notice)), r.2) ((r'.1.map f, []), r'.2) :=
  ⟨by rw [h.1], h.2⟩

namespace Congruence

variable {told : Log.Entry → Prop} {orders : List String → List String → Prop}
  {R : Core → Core → Prop} (hR : Congruence told orders R) {c c' : Core} (h : R c c')

include hR h

/-! ## Parts of operations -/

theorem clients : c'.clients = c.clients := by
  rw [hR.rest h]
  rfl

theorem inShutdown : c'.inShutdown = c.inShutdown := by
  rw [hR.rest h]
  rfl

theorem log : c'.log = c.log := by
  rw [hR.rest h]
  rfl

theorem needsCompaction : c'.needsCompaction = c.needsCompaction := by
  rw [hR.rest h]
  rfl

theorem told_client {client : String} (hc : client ∈ c.clients.keys) : told (.addClient client) :=
  hR.told_snapshot h _ (mem_snapshot.mpr ⟨not_false, hc⟩)

theorem told_listener {address : Option String} {l : Listener}
    (hl : l ∈ (c.database address).listeners.toList) :
    told (.addListener (recordOf address l)) := by
  refine hR.told_snapshot h _ (mem_snapshot.mpr ⟨not_false, mem_records.mpr ⟨address, rfl, ?_⟩⟩)
  exact Registry.mem_toList.mp hl

theorem aside {f : Core → Core} (hf : ∀ c b : Core, f (c.withRest b) = c.withRest (f b))
    (hclients : ∀ a ∈ (f c).clients.keys, told (.addClient a)) : R (f c) (f c') := by
  have hc : f c = c.withRest (f c) := hf c c
  have hc' : f c' = c'.withRest (f c) := by rw [← hf c' c, ← hR.rest h]
  rw [hc', hc]
  exact hR.withRest h _ hclients

theorem aside_of_clients {f : Core → Core}
    (hf : ∀ c b : Core, f (c.withRest b) = c.withRest (f b))
    (hclients : (f c).clients = c.clients) : R (f c) (f c') :=
  hR.aside h hf fun _ ha => hR.told_client h (hclients ▸ ha)

theorem setListeners (address : Option String) {d : Database}
    (hd : ∀ l ∈ d.listeners.toList, l ∈ (c.database address).listeners.toList) :
    R (c.setDatabase address d) (c'.setDatabase address d) :=
  hR.setDatabase h address fun l hl => hR.told_listener h (hd l hl)

theorem openDatabase (address : Option String) :
    R (c.openDatabase address) (c'.openDatabase address) := by
  rw [Core.openDatabase, Core.openDatabase, hR.database h]
  exact hR.setListeners h address fun _ => id

theorem welcome {client : String} (hclient : told (.addClient client)) :
    R (c.welcome client) (c'.welcome client) := by
  rw [Core.welcome, Core.welcome, hR.clients h]
  split
  · exact h
  · refine hR.logChange ?_ hclient
    refine hR.aside h (f := fun b => { b with clients := c.clients.insert client () })
      (fun _ _ => rfl) fun a ha => ?_
    rcases Table.mem_keys_insert.mp ha with rfl | ha
    · exact hclient
    · exact hR.told_client h ha

theorem dismiss (client : String) : R (c.dismiss client) (c'.dismiss client) := by
  rw [Core.dismiss, Core.dismiss, hR.clients h]
  split
  · rename_i hc
    refine hR.logChange ?_ (hR.opposite (hR.told_client h (Table.contains_iff_mem_keys.mp hc)))
    exact hR.aside h (f := fun b => { b with clients := c.clients.erase client }) (fun _ _ => rfl)
      fun a ha => hR.told_client h (Table.mem_keys_erase.mp ha).2
  · exact h

theorem isIdle : c'.isIdle = c.isIdle := by
  rw [Core.isIdle, Core.isIdle, listenerCount, listenerCount, hR.clients h, hR.records h]

theorem check : c'.check = c.check := by
  rw [Core.check, Core.check, hR.inShutdown h]

theorem guarded {α : Type} {op op' : Except Failure α × Core} (hop : Agrees R op op') :
    Agrees R (c.guarded op) (c'.guarded op') := by
  rw [Core.guarded, Core.guarded, hR.inShutdown h]
  split
  · exact ⟨rfl, h⟩
  · exact hop

/-! ## What callers ask for -/

theorem obtainDatabase (address : Option String) :
    Agrees R (c.obtainDatabase address) (c'.obtainDatabase address) := by
  refine hR.guarded h ?_
  split
  · exact ⟨rfl, h⟩
  · exact ⟨rfl, hR.openDatabase h address⟩

theorem addClient {client : String} (hclient : told (.addClient client)) :
    Agrees R (c.addClient client) (c'.addClient client) := by
  refine hR.guarded h ?_
  cases hr : resolveClient client with
  | error f => exact ⟨rfl, h⟩
  | ok known =>
    obtain ⟨rfl, -⟩ := eq_of_resolveClient hr
    exact ⟨rfl, hR.welcome h hclient⟩

theorem removeClient (client : String) :
    Agrees R (c.removeClient client) (c'.removeClient client) :=
  hR.guarded h ⟨rfl, hR.dismiss h client⟩

theorem subscribe (address : Option String) {location client : String}
    (hnew : ∀ id, told (.addListener (recordOf address ⟨id, location, client⟩))) :
    Agrees R (c.subscribe address location client) (c'.subscribe address location client) := by
  refine hR.guarded h ?_
  cases Key.fault? location with
  | some fault => exact ⟨rfl, h⟩
  | none =>
    cases hr : resolveClient client with
    | error f => exact ⟨rfl, h⟩
    | ok known =>
      obtain ⟨rfl, -⟩ := eq_of_resolveClient hr
      simp only [hR.database h]
      cases hs : (c.database address).listeners.subscribe location _ with
      | none => exact ⟨rfl, h⟩
      | some found =>
        refine ⟨rfl, hR.logChange (hR.setDatabase h address fun l hl => ?_) (hnew _)⟩
        rcases Registry.mem_toList_subscribe hs hl with rfl | hl
        · exact hnew _
        · exact hR.told_listener h hl

theorem unsubscribe (address : Option String) (id : UInt32) :
    Agrees R (c.unsubscribe address id) (c'.unsubscribe address id) := by
  rw [unsubscribe_eq, unsubscribe_eq, hR.database h]
  refine hR.guarded h ?_
  cases hl : (c.database address).listeners.get? id with
  | none => exact ⟨rfl, h⟩
  | some l =>
    have hold := hR.told_listener h (Registry.mem_toList_of_get? hl)
    refine ⟨rfl, hR.logChange (hR.setListeners h address fun _ => ?_) (hR.opposite hold)⟩
    exact Registry.mem_toList_of_erase

theorem set (address : Option String) (key value : String) :
    Agrees R (c.set address key value) (c'.set address key value) := by
  refine hR.guarded h ?_
  rw [hR.database h]
  cases hd : (c.database address).set key value with
  | error fault => exact ⟨rfl, hR.openDatabase h address⟩
  | ok written =>
    obtain ⟨changed, d⟩ := written
    have hsame := Database.listeners_of_set hd
    have hput := hR.setListeners h address (d := d) fun _ => by rw [hsame]; exact id
    cases changed with
    | false => exact ⟨rfl, hput⟩
    | true => exact ⟨rfl, hR.queueChange hput address key _⟩

theorem unset (address : Option String) (key : String) :
    Agrees R (c.unset address key) (c'.unset address key) := by
  refine hR.guarded h ?_
  rw [hR.database h]
  cases hd : (c.database address).unset key with
  | error fault => exact ⟨rfl, hR.openDatabase h address⟩
  | ok erased =>
    obtain ⟨old, d⟩ := erased
    have hsame := Database.listeners_of_unset hd
    have hput := hR.setListeners h address (d := d) fun _ => by rw [hsame]; exact id
    cases old with
    | none => exact ⟨rfl, hput⟩
    | some old => exact ⟨rfl, hR.queueChange hput address key none⟩

theorem lookup (address : Option String) (key : String) :
    c'.lookup address key = c.lookup address key := by
  rw [lookup_eq, lookup_eq, hR.database h, hR.inShutdown h]

/-! ## Housekeeping -/

variable {o o' : List String} (ho : orders o o')

include ho

theorem compactIfNeeded : Agrees R (c.compactIfNeeded o) (c'.compactIfNeeded o') := by
  have hcompact := hR.compact h ho
  rw [Core.compactIfNeeded, Core.compactIfNeeded, hR.needsCompaction h]
  split
  · revert hcompact
    rcases c.compact o with ⟨r, c₁⟩
    rcases c'.compact o' with ⟨r', c₁'⟩
    rintro ⟨hr, hc⟩
    obtain rfl : r' = r := hr
    cases r' <;> exact ⟨rfl, hc⟩
  · exact ⟨rfl, h⟩

theorem forget (client : String) : R (c.forget o client) (c'.forget o' client) :=
  hR.dropListeners (hR.dismiss (hR.dropCourier h client) client) ho client

theorem sweep (ping : String → Bool) : Agrees R (c.sweep o ping) (c'.sweep o' ping) := by
  rw [Core.sweep, Core.sweep, sweepCandidates, sweepCandidates, hR.clients h, hR.records h]
  refine ⟨rfl, ?_⟩
  dsimp only
  generalize List.filter _ _ = dead
  induction dead generalizing c c' with
  | nil => exact h
  | cons client dead ih => exact ih (hR.forget h ho client)

omit ho in
theorem closeIdleLog (elapsed : Nat) :
    Agrees R (c.closeIdleLog elapsed) (c'.closeIdleLog elapsed) := by
  have hrest := hR.rest h
  refine ⟨?_, hR.aside_of_clients h (f := fun b => (b.closeIdleLog elapsed).2) (fun _ _ => rfl) rfl⟩
  rw [hrest]
  rfl

section Alone

variable (k : Housekeeper) (now unused : Nat) (ping : String → Bool)

theorem tidy : (k.tidy (.alone now unused o' ping c')).1 = (k.tidy (.alone now unused o ping c)).1 ∧
    R (k.tidy (.alone now unused o ping c)).2 (k.tidy (.alone now unused o' ping c')).2 := by
  obtain ⟨-, hclosed⟩ := hR.closeIdleLog h unused
  have hswept := (hR.sweep hclosed ho ping).2
  unfold Housekeeper.tidy Tick.alone
  dsimp only
  by_cases hsweep : k.upkeep.sweepInterval ≤ now - k.lastSweep
  · rw [if_pos hsweep, if_pos hsweep]
    dsimp only
    split
    · exact ⟨rfl, (hR.compactIfNeeded hswept ho).2⟩
    · exact ⟨rfl, hswept⟩
  · rw [if_neg hsweep, if_neg hsweep]
    dsimp only
    split
    · exact ⟨rfl, (hR.compactIfNeeded hclosed ho).2⟩
    · exact ⟨rfl, hclosed⟩

theorem checkIdle (limit : Nat) (b b' : Core) :
    (k.checkIdle (.alone now unused o' ping b') limit c').1 =
        (k.checkIdle (.alone now unused o ping b) limit c).1 ∧
      Agrees R (k.checkIdle (.alone now unused o ping b) limit c).2
        (k.checkIdle (.alone now unused o' ping b') limit c').2 := by
  obtain ⟨-, hswept⟩ := hR.sweep h ho ping
  unfold Housekeeper.checkIdle Tick.alone
  dsimp only [id]
  rw [hR.isIdle h]
  split
  · split
    · exact ⟨rfl, rfl, h⟩
    · rw [hR.isIdle hswept]
      split <;> exact ⟨rfl, rfl, hswept⟩
  · exact ⟨rfl, rfl, h⟩

theorem tick : (k.tick (.alone now unused o' ping c')).1 = (k.tick (.alone now unused o ping c)).1 ∧
    Agrees R (k.tick (.alone now unused o ping c)).2
      (k.tick (.alone now unused o' ping c')).2 := by
  have htidied := hR.tidy h ho k now unused ping
  have hdown : (Tick.alone now unused o' ping c').core.inShutdown =
      (Tick.alone now unused o ping c).core.inShutdown := hR.inShutdown h
  rw [Housekeeper.tick, Housekeeper.tick, hdown]
  split
  · exact ⟨rfl, rfl, h⟩
  · revert htidied
    rcases k.tidy (.alone now unused o ping c) with ⟨k₁, c₁⟩
    rcases k.tidy (.alone now unused o' ping c') with ⟨k₁', c₁'⟩
    rintro ⟨hk, h₁⟩
    obtain rfl : k₁' = k₁ := hk
    dsimp only
    cases k₁'.upkeep.idleExit with
    | none => exact ⟨rfl, rfl, h₁⟩
    | some limit =>
      obtain ⟨hexit, hk, hchecked⟩ := hR.checkIdle h₁ ho k₁' now unused ping limit c c'
      exact ⟨congrArg (fun exit : Bool => if exit then Verdict.exit else .goOn) hexit, hk, hchecked⟩

end Alone

/-! ## Replay -/

omit ho

theorem revive (ping : String → Bool) {address : String} (ha : told (.addClient address)) :
    Agrees R (c.revive ping address) (c'.revive ping address) := by
  rw [revive_eq, revive_eq]
  split
  · exact ⟨rfl, hR.welcome h ha⟩
  · exact ⟨rfl, h⟩

theorem reviveAll (ping : String → Bool) {addresses : List String}
    (ha : ∀ address ∈ addresses, told (.addClient address)) :
    Agrees R (c.reviveAll ping addresses) (c'.reviveAll ping addresses) := by
  induction addresses generalizing c c' with
  | nil => exact ⟨rfl, h⟩
  | cons address rest ih =>
    obtain ⟨ha, hrest⟩ := List.forall_mem_cons.mp ha
    obtain ⟨halive, hrevived⟩ := hR.revive h ping ha
    obtain ⟨hn, hrest⟩ := ih hrevived hrest
    exact ⟨by simp only [Core.reviveAll, halive, hn], hrest⟩

theorem restoreListener (accepts : String → Rekeying → Bool) {r : Log.Record}
    (hr : ∀ id, told (.addListener { r with id })) :
    Agrees R (c.restoreListener accepts r) (c'.restoreListener accepts r) := by
  have hlogged := hR.logChange h (hR.opposite (hr r.id))
  by_cases hv : r.Valid
  · simp only [restoreListener_of_valid hv, hR.database h]
    cases hs : (c.database (Database.ofLogName r.database)).listeners.subscribe r.location
        r.client with
    | none => exact ⟨rfl, hlogged⟩
    | some found =>
      obtain ⟨id, listeners⟩ := found
      have hput : R ((c.logChange (.removeListener r)).setDatabase _ _)
          ((c'.logChange (.removeListener r)).setDatabase _ _) :=
        hR.setDatabase hlogged (Database.ofLogName r.database)
          (d := { c.database (Database.ofLogName r.database) with listeners }) fun l hl => by
            rcases Registry.mem_toList_subscribe hs hl with rfl | hl
            · rw [recordOf, Database.logName_ofLogName]
              exact hr _
            · exact hR.told_listener h hl
      dsimp only
      split
      · exact ⟨rfl, hR.logChange hput (hr id)⟩
      · refine ⟨rfl, hR.setListeners hput _ fun l hl => ?_⟩
        rw [database_setDatabase, if_pos rfl]
        exact Registry.mem_toList_of_erase hl
  · rw [restoreListener_of_not_valid hv, restoreListener_of_not_valid hv]
    exact ⟨rfl, h⟩

theorem restoreAll (accepts : String → Rekeying → Bool) {rs : List Log.Record}
    (hrs : ∀ r ∈ rs, ∀ id, told (.addListener { r with id })) :
    Agrees R (c.restoreAll accepts rs) (c'.restoreAll accepts rs) := by
  induction rs generalizing c c' with
  | nil => exact ⟨rfl, h⟩
  | cons r rest ih =>
    obtain ⟨hr, hrest⟩ := List.forall_mem_cons.mp hrs
    obtain ⟨hnotice, hrestored⟩ := hR.restoreListener h accepts hr
    obtain ⟨hnotices, hrest⟩ := ih hrestored hrest
    exact ⟨by simp only [Core.restoreAll, hnotice, hnotices], hrest⟩

/-! ## All operations but replays -/

/-- Operations that differ at most in their orders of visits give the same on related daemons, and
leave them related. -/
theorem perform_of_ne_restore (peers : Peers) {op op' : Operation} (hop : op.Reordered orders op')
    (hbrings : ∀ e, op.Brings e → told e) (hrestore : op ≠ .restore) :
    Agrees R (c.perform peers op) (c'.perform peers op') := by
  cases op with
  | ping => rw [hop]; exact ⟨by rw [Core.perform, hR.check h]; rfl, h⟩
  | shutdown =>
    rw [hop]
    exact ⟨rfl, hR.aside_of_clients h (f := beginShutdown) (fun _ _ => rfl) rfl⟩
  | check => rw [hop]; exact ⟨by rw [Core.perform, hR.check h]; rfl, h⟩
  | obtain address => rw [hop]; exact (hR.obtainDatabase h address).map .text
  | addClient client =>
    rw [hop]; exact (hR.addClient h (hbrings _ rfl)).map fun _ => .nothing
  | removeClient client => rw [hop]; exact (hR.removeClient h client).map fun _ => .nothing
  | subscribe address location client =>
    rw [hop]; exact (hR.subscribe h address fun id => hbrings _ ⟨id, rfl⟩).map .id
  | unsubscribe address id =>
    rw [hop]; exact (hR.unsubscribe h address id).map fun _ => .nothing
  | set address key value => rw [hop]; exact (hR.set h address key value).map fun _ => .nothing
  | unset address key => rw [hop]; exact (hR.unset h address key).map fun _ => .nothing
  | lookup address key => rw [hop]; exact ⟨by rw [Core.perform, hR.lookup h]; rfl, h⟩
  | compact o =>
    obtain ⟨o', ho, rfl⟩ := hop
    exact (hR.compact h ho).map fun _ => .nothing
  | compactIfNeeded o =>
    obtain ⟨o', ho, rfl⟩ := hop
    exact (hR.compactIfNeeded h ho).map .flag
  | restore => exact absurd rfl hrestore
  | sweep o =>
    obtain ⟨o', ho, rfl⟩ := hop
    obtain ⟨hn, hswept⟩ := hR.sweep h ho peers.ping
    exact ⟨congrArg (fun n => (Except.ok (Value.count n), ([] : List Notice))) hn, hswept⟩
  | closeIdleLog elapsed =>
    rw [hop]
    obtain ⟨hb, hclosed⟩ := hR.closeIdleLog h elapsed
    exact ⟨congrArg (fun b => (Except.ok (Value.flag b), ([] : List Notice))) hb, hclosed⟩
  | housekeep upkeep elapsed unused o =>
    obtain ⟨o', ho, rfl⟩ := hop
    obtain ⟨hv, -, hticked⟩ :=
      hR.tick h ho (Housekeeper.start upkeep 0) elapsed unused peers.ping
    exact ⟨congrArg (fun v => (Except.ok (Value.verdict v), ([] : List Notice))) hv, hticked⟩

end Congruence

/-! ## Daemons with one log -/

/-- The databases and the queues of one daemon with all the rest of another, the disk included. -/
def withState (c b : Core) : Core :=
  { b with main := c.main, others := c.others, couriers := c.couriers }

/-- Related daemons share the log and all the rest but databases and queues, and the parts of
operations do not tell them apart. -/
structure SharesLog (R : Core → Core → Prop) : Prop where
  rest : ∀ {c c'}, R c c' → c' = c'.withState c
  database : ∀ {c c'}, R c c' → ∀ a, c'.database a = c.database a
  recordsIn : ∀ {c c'}, R c c' → ∀ order, c'.recordsIn order = c.recordsIn order
  withState : ∀ {c c'}, R c c' → ∀ b : Core, R (c.withState b) (c'.withState b)
  setDatabase : ∀ {c c'}, R c c' → ∀ a d, R (c.setDatabase a d) (c'.setDatabase a d)
  mapDatabases : ∀ {c c'}, R c c' → ∀ f : Database → Database, f .empty = .empty →
    R (c.mapDatabases f) (c'.mapDatabases f)
  queueChange : ∀ {c c'}, R c c' → ∀ a key value,
    R (c.queueChange a key value) (c'.queueChange a key value)
  dropCourier : ∀ {c c'}, R c c' → ∀ client, R { c with couriers := c.couriers.erase client }
    { c' with couriers := c'.couriers.erase client }

namespace SharesLog

variable {R : Core → Core → Prop} (hR : SharesLog R) {c c' : Core}

include hR

theorem aside {f : Core → Core} (hf : ∀ c b : Core, f (c.withState b) = c.withState (f b))
    (h : R c c') : R (f c) (f c') := by
  have hc : f c = c.withState (f c) := hf c c
  have hc' : f c' = c'.withState (f c) := by rw [← hf c' c, ← hR.rest h]
  rw [hc', hc]
  exact hR.withState h _

theorem log (h : R c c') : c'.log = c.log ∧ c'.disk = c.disk ∧ c'.clients = c.clients := by
  rw [hR.rest h]
  exact ⟨rfl, rfl, rfl⟩

theorem logChanges (h : R c c') (es : List Log.Entry) :
    R (c.logChanges es) (c'.logChanges es) := by
  induction es generalizing c c' with
  | nil => exact h
  | cons e es ih => exact ih (hR.aside (f := (Core.logChange · e)) (fun _ _ => rfl) h)

theorem snapshotIn (h : R c c') (order : List String) :
    c'.snapshotIn order = c.snapshotIn order := by
  rw [Core.snapshotIn, Core.snapshotIn, (hR.log h).2.2, hR.recordsIn h]

theorem compact (h : R c c') (order : List String) :
    Agrees R (c.compact order) (c'.compact order) := by
  obtain ⟨hlog, hdisk, -⟩ := hR.log h
  rw [Core.compact, Core.compact, hlog, hdisk, hR.snapshotIn h]
  rcases c.log.compact c.disk (c.snapshotIn order) with ⟨_ | _, log, disk⟩
  · exact ⟨rfl, hR.aside (f := fun b => { b with log, disk }) (fun _ _ => rfl) h⟩
  · exact ⟨rfl, hR.aside (f := fun b => { b with log, disk, needsCompaction := false })
      (fun _ _ => rfl) h⟩

theorem congruence : Congruence (fun _ => True) (fun o o' => o' = o) R where
  rest h := by
    rw [hR.rest h]
    rfl
  database := hR.database
  records h := hR.recordsIn h []
  told_snapshot _ _ _ := trivial
  opposite := id
  withRest {c c'} h b _ := by
    rw [Core.withRest, Core.withRest, (hR.log h).2.1]
    exact hR.withState h { b with disk := c.disk }
  setDatabase h a d _ := hR.setDatabase h a d
  queueChange := hR.queueChange
  dropCourier := hR.dropCourier
  logChange h e _ := hR.aside (f := (Core.logChange · e)) (fun _ _ => rfl) h
  dropListeners h o o' ho client := by
    rw [dropListeners_eq, dropListeners_eq, recordsOf, recordsOf, ho, hR.recordsIn h]
    exact hR.logChanges (hR.mapDatabases h _ rfl) _
  compact h o o' ho := by
    rw [ho]
    exact hR.compact h o

theorem restore (h : R c c') (peers : Peers) : Agrees R (c.restore peers) (c'.restore peers) := by
  have hsame : c'.log.read c'.disk = c.log.read c.disk := by
    rw [(hR.log h).1, (hR.log h).2.1]
  rw [Core.restore, Core.restore, hsame]
  rcases c.log.read c.disk with ⟨f | s, log⟩
  · exact ⟨rfl, hR.aside (f := fun b => { b with log }) (fun _ _ => rfl) h⟩
  · have hread := hR.aside (f := fun b => { b with log }) (fun _ _ => rfl) h
    obtain ⟨hclients, hrevived⟩ :=
      hR.congruence.reviveAll hread peers.ping fun a (_ : a ∈ s.clients) => trivial
    obtain ⟨hnotices, hrestored⟩ :=
      hR.congruence.restoreAll hrevived peers.rekey fun r (_ : r ∈ s.listeners) _ => trivial
    exact ⟨by simp only [replay, hclients, hnotices], hrestored⟩

/-- Every operation gives the same on related daemons, and leaves them related. -/
theorem perform (h : R c c') (peers : Peers) (op : Operation) :
    Agrees R (c.perform peers op) (c'.perform peers op) := by
  by_cases hop : op = .restore
  · subst hop
    have hrestore := hR.restore h peers
    revert hrestore
    rw [Core.perform, Core.perform]
    rcases c.restore peers with ⟨r, c₁⟩
    rcases c'.restore peers with ⟨r', c₁'⟩
    rintro ⟨hr, hc⟩
    obtain rfl : r' = r := hr
    cases r' <;> exact ⟨rfl, hc⟩
  · refine hR.congruence.perform_of_ne_restore h peers ?_ (fun _ _ => trivial) hop
    cases op <;> first | rfl | exact ⟨_, rfl, rfl⟩

end SharesLog

end ConfigDaemon.Core
