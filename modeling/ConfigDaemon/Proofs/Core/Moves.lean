import Mathlib.Logic.Relation
import ConfigDaemon.Proofs.Core.Delivered
import ConfigDaemon.Proofs.Core.Acts

/-! # What operations are made of

Whatever an operation does to the databases and the queues, it does in a few kinds of small moves.
What each kind keeps, every operation keeps, and so does every run.
-/

namespace ConfigDaemon

/-- A property of registries that whatever happens to one keeps. -/
structure Registry.Kept (P : Registry → Prop) : Prop where
  empty : P .empty
  subscribe : ∀ {r r' : Registry} {location client : String} {id : UInt32}, P r →
    Key.fault? location = none → Client.isAddress client = true →
      r.subscribe location client = some (id, r') → P r'
  unsubscribe : ∀ {r : Registry} (id : UInt32), P r → P (r.erase id)
  removeClient : ∀ {r : Registry} (client : String), P r → P (r.removeClient client).2

namespace Core

/-- A small change of the databases or the queues, among clients that answer or do not. -/
inductive Move (ping : String → Bool) (c : Core) : Core → Prop
  /-- Databases and queues stay, and so does a shutdown that has begun. -/
  | aside {c' : Core} (main : c'.main = c.main) (others : c'.others = c.others)
      (couriers : c'.couriers = c.couriers)
      (shutdown : c.inShutdown = true → c'.inShutdown = true) : Move ping c c'
  /-- A database is opened, or its values change. -/
  | store (address : Option String) {d : Database}
      (listeners : d.listeners = (c.database address).listeners) :
      Move ping c (c.setDatabase address d)
  | subscribe (address : Option String) {location client : String} {id : UInt32}
      {listeners : Registry} (valid : Key.fault? location = none)
      (known : Client.isAddress client = true)
      (some : (c.database address).listeners.subscribe location client = some (id, listeners)) :
      Move ping c (c.setDatabase address { c.database address with listeners })
  | unsubscribe (address : Option String) (id : UInt32) :
      Move ping c (c.setDatabase address { c.database address with
        listeners := (c.database address).listeners.erase id })
  | removeClient (client : String) :
      Move ping c (c.mapDatabases fun d =>
        { d with listeners := (d.listeners.removeClient client).2 })
  | queue (address : Option String) {key : String} (value : Option String)
      (valid : Key.fault? key = none) : Move ping c (c.queueChange address key value)
  /-- Who does not answer loses what is on the way there. -/
  | drop {client : String} (dead : ping client = false) :
      Move ping c { c with couriers := c.couriers.erase client }

def Moves (ping : String → Bool) : Core → Core → Prop :=
  Relation.ReflTransGen (Move ping)

variable {ping : String → Bool} {c c' c'' : Core} {address : Option String}

theorem moves_refl (ping : String → Bool) (c : Core) : Moves ping c c :=
  .refl

theorem Move.moves (h : Move ping c c') : Moves ping c c' :=
  .single h

theorem Moves.trans (h : Moves ping c c') (h' : Moves ping c' c'') : Moves ping c c'' :=
  Relation.ReflTransGen.trans h h'

theorem moves_aside (main : c'.main = c.main) (others : c'.others = c.others)
    (couriers : c'.couriers = c.couriers) (shutdown : c.inShutdown = true → c'.inShutdown = true) :
    Moves ping c c' :=
  (Move.aside main others couriers shutdown).moves

theorem moves_store {d : Database} (listeners : d.listeners = (c.database address).listeners) :
    Moves ping c (c.setDatabase address d) :=
  (Move.store address listeners).moves

/-! ## Parts of operations -/

theorem moves_openDatabase : Moves ping c (c.openDatabase address) :=
  moves_store rfl

theorem moves_logChange (e : Log.Entry) : Moves ping c (c.logChange e) :=
  moves_aside rfl rfl rfl id

theorem moves_logChanges (es : List Log.Entry) : Moves ping c (c.logChanges es) := by
  induction es generalizing c with
  | nil => exact moves_refl ping c
  | cons e es ih => exact (moves_logChange e).trans ih

theorem moves_welcome (client : String) : Moves ping c (c.welcome client) := by
  unfold welcome
  split
  · exact moves_refl ping c
  · exact moves_aside rfl rfl rfl id

theorem moves_dismiss (client : String) : Moves ping c (c.dismiss client) := by
  unfold dismiss
  split
  · exact moves_aside rfl rfl rfl id
  · exact moves_refl ping c

theorem moves_compact (order : List String) : Moves ping c (c.compact order).2 := by
  unfold compact
  split <;> exact moves_aside rfl rfl rfl id

theorem moves_compactIfNeeded (order : List String) :
    Moves ping c (c.compactIfNeeded order).2 := by
  have h : Moves ping c (c.compact order).2 := moves_compact order
  unfold compactIfNeeded
  split
  · split <;> rename_i he <;> rwa [he] at h
  · exact moves_refl ping c

theorem moves_dropListeners (order : List String) (client : String) :
    Moves ping c (c.dropListeners order client) :=
  (Move.removeClient client).moves.trans (moves_logChanges _)

theorem moves_forget (order : List String) {client : String} (h : ping client = false) :
    Moves ping c (forget order c client) :=
  (Move.drop h).moves.trans ((moves_dismiss client).trans (moves_dropListeners order client))

theorem moves_forgetAll (order : List String) {dead : List String}
    (h : ∀ client ∈ dead, ping client = false) : Moves ping c (dead.foldl (forget order) c) := by
  induction dead generalizing c with
  | nil => exact moves_refl ping c
  | cons client dead ih =>
    obtain ⟨hclient, hdead⟩ := List.forall_mem_cons.mp h
    exact (moves_forget order hclient).trans (ih hdead)

theorem moves_sweep (order : List String) : Moves ping c (c.sweep order ping).2 := by
  refine moves_forgetAll order fun client h => ?_
  have hdead := (List.mem_filter.mp h).2
  rwa [Bool.not_eq_true'] at hdead

theorem moves_tick (h : Housekeeper) (now unused : Nat) (order : List String) :
    Moves ping c (h.tick (.alone now unused order ping c)).2.2 :=
  Housekeeper.tick_induction (fun _ _ hc => hc.trans (moves_aside rfl rfl rfl id))
    (fun _ hc => hc.trans (moves_sweep order))
    (fun _ hc => hc.trans (moves_compactIfNeeded order)) (fun _ => id) (fun _ => id) h
    (moves_refl ping c)

/-! ## Replays -/

theorem moves_revive (address : String) : Moves ping c (c.revive ping address).2 := by
  unfold revive
  split
  · exact moves_refl ping c
  · split
    · exact moves_welcome _
    · exact moves_refl ping c

theorem moves_reviveAll (addresses : List String) :
    Moves ping c (c.reviveAll ping addresses).2 := by
  induction addresses generalizing c with
  | nil => exact moves_refl ping c
  | cons address rest ih => exact (moves_revive address).trans ih

theorem moves_restoreListener (accepts : String → Rekeying → Bool) (r : Log.Record) :
    Moves ping c (c.restoreListener accepts r).2 := by
  unfold restoreListener
  split
  · rename_i client hlocation hclient
    obtain ⟨rfl, hknown⟩ := eq_of_resolveClient hclient
    generalize hc₁ : c.logChange (.removeListener r) = c₁
    have hlogged : Moves ping c c₁ := hc₁ ▸ moves_logChange _
    dsimp only
    split
    · exact hlogged
    · rename_i id listeners hsome
      have hcome := hlogged.trans (Move.subscribe _ hlocation hknown hsome).moves
      split
      · exact hcome.trans (moves_logChange _)
      · refine hcome.trans ?_
        have hgo : Moves ping (c₁.setDatabase (Database.ofLogName r.database)
            { c₁.database (Database.ofLogName r.database) with listeners }) _ :=
          (Move.unsubscribe (Database.ofLogName r.database) id).moves
        rwa [database_setDatabase, if_pos rfl] at hgo
  · exact moves_refl ping c

theorem moves_restoreAll (accepts : String → Rekeying → Bool) (rs : List Log.Record) :
    Moves ping c (c.restoreAll accepts rs).2 := by
  induction rs generalizing c with
  | nil => exact moves_refl ping c
  | cons r rest ih => exact (moves_restoreListener accepts r).trans ih

theorem moves_restore (peers : Peers) : Moves peers.ping c (c.restore peers).2 := by
  unfold restore
  split
  · exact moves_aside rfl rfl rfl id
  · rename_i s log he
    have hclosed : Moves peers.ping c { c with log } := moves_aside rfl rfl rfl id
    exact hclosed.trans ((moves_reviveAll _).trans (moves_restoreAll _ _))

/-! ## All operations -/

theorem moves_guarded {α : Type} {op : Except Failure α × Core} (h : Moves ping c op.2) :
    Moves ping c (c.guarded op).2 := by
  unfold guarded
  split
  · exact moves_refl ping c
  · exact h

theorem moves_subscribe (location client : String) :
    Moves ping c (c.subscribe address location client).2 := by
  refine moves_guarded ?_
  split
  · exact moves_refl ping c
  · exact moves_refl ping c
  · rename_i client hlocation hclient
    obtain ⟨rfl, hknown⟩ := eq_of_resolveClient hclient
    dsimp only
    split
    · exact moves_refl ping c
    · rename_i hsome
      exact (Move.subscribe _ hlocation hknown hsome).moves.trans (moves_logChange _)

theorem moves_unsubscribe (id : UInt32) : Moves ping c (c.unsubscribe address id).2 := by
  rw [unsubscribe_eq]
  refine moves_guarded ?_
  split
  · exact moves_refl ping c
  · exact (Move.unsubscribe address id).moves.trans (moves_logChange _)

theorem moves_set (key value : String) : Moves ping c (c.set address key value).2 := by
  refine moves_guarded ?_
  cases hf : Key.fault? key with
  | some fault =>
    simp only [Database.set, hf]
    exact moves_openDatabase
  | none =>
    simp only [Database.set, hf]
    split
    · refine Moves.trans ?_ (Move.queue address _ hf).moves
      exact moves_store rfl
    · exact moves_store rfl

theorem moves_unset (key : String) : Moves ping c (c.unset address key).2 := by
  refine moves_guarded ?_
  cases hf : Key.fault? key with
  | some fault =>
    simp only [Database.unset, hf]
    exact moves_openDatabase
  | none =>
    simp only [Database.unset, hf]
    split
    · refine Moves.trans ?_ (Move.queue address _ hf).moves
      exact moves_store rfl
    · exact moves_store rfl

theorem moves_perform (peers : Peers) (c : Core) (op : Operation) :
    Moves peers.ping c (c.perform peers op).2 := by
  cases op with
  | ping | check | lookup => exact moves_refl _ c
  | shutdown => exact moves_aside rfl rfl rfl fun _ => rfl
  | obtain address =>
    refine moves_guarded ?_
    split
    · exact moves_refl _ c
    · exact moves_openDatabase
  | addClient client =>
    refine moves_guarded ?_
    split
    · exact moves_refl _ c
    · exact moves_welcome _
  | removeClient client => exact moves_guarded (moves_dismiss client)
  | subscribe address location client => exact moves_subscribe location client
  | unsubscribe address id => exact moves_unsubscribe id
  | set address key value => exact moves_set key value
  | unset address key => exact moves_unset key
  | compact order => exact moves_compact order
  | compactIfNeeded order => exact moves_compactIfNeeded order
  | restore =>
    have h := moves_restore (c := c) peers
    simp only [perform]
    split <;> rename_i he <;> rw [he] at h <;> exact h
  | sweep order => exact moves_sweep order
  | closeIdleLog => exact moves_aside rfl rfl rfl id
  | housekeep upkeep elapsed unused order => exact moves_tick _ elapsed unused order

/-! ## What moves keep -/

variable {P : Registry → Prop}

theorem inShutdown_setDatabase (c : Core) (address : Option String) (d : Database) :
    (c.setDatabase address d).inShutdown = c.inShutdown := by
  cases address <;> rfl

theorem Move.inShutdown (h : Move ping c c') (hdown : c.inShutdown = true) :
    c'.inShutdown = true := by
  cases h with
  | aside _ _ _ shutdown => exact shutdown hdown
  | store | subscribe | unsubscribe => exact (inShutdown_setDatabase ..).trans hdown
  | removeClient | queue | drop => exact hdown

theorem Moves.inShutdown (h : Moves ping c c') (hdown : c.inShutdown = true) :
    c'.inShutdown = true := by
  induction h with
  | refl => exact hdown
  | tail _ h ih => exact h.inShutdown ih

theorem inShutdown_meet (e : Event) (hdown : c.inShutdown = true) :
    (c.meet e).inShutdown = true := by
  cases e with
  | ask peers op => exact (moves_perform peers c op).inShutdown hdown
  | deliver | disturb => exact hdown

/-- Whatever happens to a daemon, it does not come back from a shutdown. -/
theorem inShutdown_through (es : List Event) (hdown : c.inShutdown = true) :
    (c.through es).inShutdown = true := by
  induction es generalizing c with
  | nil => exact hdown
  | cons e es ih => exact ih (inShutdown_meet e hdown)

theorem Move.registries (hP : Registry.Kept P) (h : Move ping c c')
    (hc : ∀ a, P (c.database a).listeners) (a : Option String) :
    P (c'.database a).listeners := by
  have hset : ∀ {address : Option String} {d : Database}, P d.listeners →
      P ((c.setDatabase address d).database a).listeners := by
    intro address d hd
    rw [database_setDatabase]
    split
    · exact hd
    · exact hc a
  cases h with
  | aside main others _ _ =>
    have hsame : c'.database a = c.database a := by
      cases a
      · exact main
      · rw [database, database?, others, database, database?]
    rw [hsame]
    exact hc a
  | store address listeners => exact hset (listeners ▸ hc address)
  | subscribe address valid known hsome =>
    exact hset (hP.subscribe (hc address) valid known hsome)
  | unsubscribe address id => exact hset (hP.unsubscribe id (hc address))
  | removeClient client =>
    rw [database_mapDatabases c rfl]
    exact hP.removeClient client (hc a)
  | queue | drop => exact hc a

theorem Moves.registries (hP : Registry.Kept P) (h : Moves ping c c')
    (hc : ∀ a, P (c.database a).listeners) : ∀ a, P (c'.database a).listeners := by
  induction h with
  | refl => exact hc
  | tail _ h ih => exact h.registries hP ih

theorem registries_through (hP : Registry.Kept P) (place : Log.Place) (idleLimit : Nat)
    (disk : Disk) (es : List Event) (a : Option String) :
    P (((start place idleLimit disk).through es).database a).listeners := by
  have hstart : ∀ a, P ((start place idleLimit disk).database a).listeners := by
    intro a
    cases a <;> exact hP.empty
  revert a
  induction es using List.reverseRecOn with
  | nil => exact hstart
  | append_singleton es e ih =>
    rw [through_append]
    cases e with
    | ask peers op => exact (moves_perform peers _ op).registries hP ih
    | deliver | disturb => exact ih

end Core

end ConfigDaemon
