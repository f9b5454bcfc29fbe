import Mathlib.Data.List.Induction
import ConfigDaemon.Proofs.Registry

/-! # What a registry is told by

The calls that a registry was asked for, one after the other, tell what it holds and what it
answered. A subscription has the number of the call that made it, and stands until a later call
ends it or all of its client.
-/

namespace ConfigDaemon.Registry

inductive Call
  | subscribe (location client : String)
  | unsubscribe (id : UInt32)
  | removeClient (client : String)
  deriving DecidableEq, Repr

inductive Answer
  | subscribed (id : UInt32)
  | unsubscribed (l : Option Listener)
  | removed (ls : List Listener)
  deriving DecidableEq, Repr

/-- There is no answer when a subscription finds no identifier. -/
def ask (r : Registry) : Call → Option (Answer × Registry)
  | .subscribe location client =>
    (r.subscribe location client).map fun (id, r) => (.subscribed id, r)
  | .unsubscribe id => some ((r.unsubscribe id).map .unsubscribed fun r => r)
  | .removeClient client => some ((r.removeClient client).map .removed fun r => r)

def askAll (r : Registry) : List Call → Option (List Answer × Registry)
  | [] => some ([], r)
  | call :: calls =>
    match r.ask call with
    | none => none
    | some (answer, r) => (r.askAll calls).map fun (answers, r) => (answer :: answers, r)

def Answer.id? : Answer → Option UInt32
  | .subscribed id => some id
  | _ => none

def given (answers : List Answer) : List UInt32 :=
  answers.filterMap Answer.id?

/-! ## The calls alone -/

def Call.isSubscribe : Call → Bool
  | .subscribe _ _ => true
  | _ => false

def made (calls : List Call) : Nat :=
  calls.countP Call.isSubscribe

def Call.Ends (l : Listener) : Call → Prop
  | .subscribe _ _ => False
  | .unsubscribe id => id = l.id
  | .removeClient client => client = l.client

/-- The listener was made by the call of its number, and no later call ended it. -/
def Stands (calls : List Call) (l : Listener) : Prop :=
  ∃ before after, calls = before ++ .subscribe l.location l.client :: after ∧
    l.id.toNat = made before + 1 ∧ ∀ call ∈ after, ¬ call.Ends l

def Foretold (before : List Call) : Call → Answer → Prop
  | .subscribe _ _, .subscribed id => id.toNat = made before + 1
  | .unsubscribe id, .unsubscribed found => ∀ l, found = some l ↔ Stands before l ∧ l.id = id
  | .removeClient client, .removed ls =>
    (∀ l, l ∈ ls ↔ Stands before l ∧ l.client = client) ∧ ls.Pairwise (·.id < ·.id)
  | _, _ => False

section Calls

variable {calls later : List Call} {call : Call} {l : Listener}

theorem made_append (calls later : List Call) : made (calls ++ later) = made calls + made later :=
  List.countP_append

theorem made_concat (calls : List Call) (call : Call) :
    made (calls ++ [call]) = made calls + if call.isSubscribe then 1 else 0 :=
  (made_append calls [call]).trans (congrArg _ List.countP_singleton)

theorem stands_concat :
    Stands (calls ++ [call]) l ↔ (Stands calls l ∧ ¬ call.Ends l) ∨
      (call = .subscribe l.location l.client ∧ l.id.toNat = made calls + 1) := by
  constructor
  · rintro ⟨before, after, hsplit, hid, hends⟩
    rcases List.eq_nil_or_concat after with rfl | ⟨after, last, rfl⟩
    · obtain ⟨rfl, hcall⟩ := List.append_inj' hsplit rfl
      exact .inr ⟨(List.cons.inj hcall).1, hid⟩
    · rw [List.concat_eq_append, ← List.cons_append, ← List.append_assoc] at hsplit
      obtain ⟨rfl, hcall⟩ := List.append_inj' hsplit rfl
      obtain ⟨rfl, -⟩ := List.cons.inj hcall
      rw [List.concat_eq_append, List.forall_mem_append, List.forall_mem_singleton] at hends
      exact .inl ⟨⟨before, after, rfl, hid, hends.1⟩, hends.2⟩
  · rintro (⟨⟨before, after, rfl, hid, hends⟩, hcall⟩ | ⟨rfl, hid⟩)
    · refine ⟨before, after ++ [call], by simp, hid, ?_⟩
      rw [List.forall_mem_append, List.forall_mem_singleton]
      exact ⟨hends, hcall⟩
    · exact ⟨calls, [], rfl, hid, nofun⟩

theorem Stands.le_made (h : Stands calls l) : l.id.toNat ≤ made calls := by
  obtain ⟨before, after, rfl, hid, -⟩ := h
  rw [made_append, hid]
  have hcall : 0 < made (.subscribe l.location l.client :: after) := by
    simp [made, Call.isSubscribe]
  omega

/-- A listener that stands and is not made by the later calls stood before them, and none of them
ended it. -/
theorem Stands.of_append (h : Stands (calls ++ later) l) (hid : l.id.toNat ≤ made calls) :
    Stands calls l ∧ ∀ call ∈ later, ¬ call.Ends l := by
  induction later using List.reverseRecOn with
  | nil => exact ⟨by rwa [List.append_nil] at h, nofun⟩
  | append_singleton later call ih =>
    rw [← List.append_assoc, stands_concat, made_append] at h
    rcases h with ⟨h, hcall⟩ | ⟨-, hnew⟩
    · obtain ⟨hbefore, hlater⟩ := ih h
      rw [List.forall_mem_append, List.forall_mem_singleton]
      exact ⟨hbefore, hlater, hcall⟩
    · omega

theorem Foretold.id?_eq {answer : Answer} (h : Foretold calls call answer) :
    answer.id? = if call.isSubscribe then some (.ofNat (made calls + 1)) else none := by
  cases call <;> cases answer <;> try exact h.elim
  case subscribe.subscribed location client id =>
    have hid : id.toNat = made calls + 1 := h
    rw [← hid, UInt32.ofNat_toNat]
    rfl
  all_goals rfl

end Calls

/-! ## The registry after the calls -/

/-- The registry goes on with the next number and holds what stands. -/
structure Follows (r : Registry) (calls : List Call) : Prop where
  next_eq : r.next = .ofNat (made calls + 1)
  mem_iff : ∀ l, l ∈ r.toList ↔ Stands calls l

section Step

variable {r : Registry} {calls : List Call} {id : UInt32}

theorem follows_empty : empty.Follows [] := by
  refine ⟨rfl, fun l => iff_of_false nofun ?_⟩
  rintro ⟨before, after, hsplit, -⟩
  exact List.append_ne_nil_of_right_ne_nil _ (List.cons_ne_nil _ _) hsplit.symm

theorem Follows.toNat_next (h : r.Follows calls) (hroom : made calls + 1 < UInt32.size) :
    r.next.toNat = made calls + 1 := by
  rw [h.next_eq, UInt32.toNat_ofNat_of_lt' hroom]

theorem Follows.leading (h : r.Follows calls) (hroom : made calls + 1 < UInt32.size) :
    r.Leading := by
  have hnext := h.toNat_next hroom
  constructor
  · intro hzero
    rw [hzero] at hnext
    exact Nat.succ_ne_zero _ hnext.symm
  · intro id hid
    obtain ⟨s, hs⟩ := Option.isSome_iff_exists.mp (Table.mem_keys.mp hid)
    have hstands := (h.mem_iff ⟨id, s.location, s.client⟩).mp (mem_toList.mpr hs)
    rw [UInt32.lt_iff_toNat_lt, hnext]
    exact Nat.lt_succ_of_le hstands.le_made

theorem Follows.subscribe (h : r.Follows calls) (hroom : made calls + 1 < UInt32.size)
    (location client : String) :
    ∃ r', r.subscribe location client = some (r.next, r') ∧
      r'.Follows (calls ++ [.subscribe location client]) := by
  refine ⟨_, (h.leading hroom).subscribe_eq location client, ?_, fun l => ?_⟩
  · rw [made_concat, h.next_eq]
    exact (UInt32.ofNat_add _ _).symm
  · have hnext := h.toNat_next hroom
    rw [stands_concat, ← h.mem_iff, mem_toList, mem_toList, subscriptions_store,
      Table.find?_insert]
    have hid : l.id = r.next ↔ l.id.toNat = made calls + 1 := by
      rw [← hnext, UInt32.toNat_inj]
    split
    · rename_i hl
      have hnot : r.subscriptions.find? l.id ≠ some ⟨l.location, l.client⟩ := by
        intro hfind
        have hbound := ((h.mem_iff l).mp (mem_toList.mpr hfind)).le_made
        rw [hid.mp hl] at hbound
        exact absurd hbound (Nat.not_succ_le_self _)
      simp [hnot, hid.mp hl]
    · rename_i hl
      simp [mt hid.mpr hl, Call.Ends]

theorem Follows.unsubscribe (h : r.Follows calls) (id : UInt32) :
    (r.unsubscribe id).2.Follows (calls ++ [.unsubscribe id]) := by
  constructor
  · rw [made_concat]
    exact h.next_eq
  · intro l
    rw [stands_concat, ← h.mem_iff, mem_toList, mem_toList, Registry.unsubscribe,
      subscriptions_erase, Table.find?_erase]
    by_cases hl : l.id = id
    · simp [hl, Call.Ends]
    · simp [hl, Call.Ends, Ne.symm hl]

theorem Follows.removeClient (h : r.Follows calls) (client : String) :
    (r.removeClient client).2.Follows (calls ++ [.removeClient client]) := by
  constructor
  · rw [made_concat, snd_removeClient]
    exact h.next_eq
  · intro l
    rw [stands_concat, ← h.mem_iff, toList_removeClient, List.mem_filter]
    simp [Call.Ends, @eq_comm _ client]

theorem Follows.get?_eq_some_iff (h : r.Follows calls) {l : Listener} :
    r.get? id = some l ↔ Stands calls l ∧ l.id = id := by
  rw [← h.mem_iff, mem_toList_iff_get?]
  constructor
  · intro hget
    obtain rfl := id_of_find? hget
    exact ⟨hget, rfl⟩
  · rintro ⟨hget, rfl⟩
    exact hget

theorem Follows.ask (h : r.Follows calls) {call : Call}
    (hroom : made (calls ++ [call]) < UInt32.size) :
    ∃ answer r', r.ask call = some (answer, r') ∧ Foretold calls call answer ∧
      r'.Follows (calls ++ [call]) := by
  cases call with
  | subscribe location client =>
    rw [made_concat] at hroom
    obtain ⟨r', hr', hfollows⟩ := h.subscribe hroom location client
    refine ⟨.subscribed r.next, r', ?_, h.toNat_next hroom, hfollows⟩
    rw [Registry.ask, hr', Option.map_some]
  | unsubscribe id =>
    exact ⟨_, _, rfl, fun l => h.get?_eq_some_iff, h.unsubscribe id⟩
  | removeClient client =>
    have hremoved := r.fst_removeClient client
    refine ⟨.removed (r.removeClient client).1, _, rfl, ⟨fun l => ?_, ?_⟩, h.removeClient client⟩
    · rw [hremoved, List.mem_filter, h.mem_iff, decide_eq_true_eq]
    · rw [hremoved]
      exact r.ascending_toList.filter _

end Step

/-- Whatever a registry can be asked for tells of the same listeners. -/
structure Holds (r : Registry) (P : Listener → Prop) : Prop where
  mem_iff : ∀ l, l ∈ r.toList ↔ P l
  ascending : r.toList.Pairwise (·.id < ·.id)
  get?_iff : ∀ id l, r.get? id = some l ↔ P l ∧ l.id = id
  size_eq : r.size = r.toList.length
  client_iff : ∀ client, client ∈ r.clients.keys ↔ ∃ l, P l ∧ l.client = client

structure Answered (calls : List Call) (answers : List Answer) : Prop where
  length_eq : answers.length = calls.length
  foretold : ∀ i call answer, calls[i]? = some call → answers[i]? = some answer →
    Foretold (calls.take i) call answer

section Run

variable {r : Registry} {calls : List Call} {answers : List Answer}

theorem Follows.holds (h : r.Follows calls) : r.Holds (Stands calls) where
  mem_iff := h.mem_iff
  ascending := r.ascending_toList
  get?_iff _ _ := h.get?_eq_some_iff
  size_eq := r.length_toList.symm
  client_iff client := by
    rw [clients, Table.mem_keys_foldl_insert]
    simp only [← h.mem_iff]
    exact or_iff_right (fun hempty => nomatch hempty)

theorem answered_nil : Answered [] [] :=
  ⟨rfl, nofun⟩

theorem Answered.concat (h : Answered calls answers) {call : Call} {answer : Answer}
    (hanswer : Foretold calls call answer) : Answered (calls ++ [call]) (answers ++ [answer]) := by
  constructor
  · simp [h.length_eq]
  · intro i call' answer' hcall' hanswer'
    rcases Nat.lt_trichotomy i calls.length with hi | rfl | hi
    · rw [List.getElem?_append_left hi] at hcall'
      rw [List.getElem?_append_left (h.length_eq ▸ hi)] at hanswer'
      rw [List.take_append_of_le_length (Nat.le_of_lt hi)]
      exact h.foretold i call' answer' hcall' hanswer'
    · rw [List.getElem?_concat_length] at hcall'
      rw [← h.length_eq, List.getElem?_concat_length] at hanswer'
      cases hcall'
      cases hanswer'
      rwa [List.take_left]
    · rw [List.getElem?_eq_none (by rw [List.length_append]; exact hi)] at hcall'
      cases hcall'

theorem askAll_concat (r : Registry) (calls : List Call) (call : Call) :
    r.askAll (calls ++ [call]) = match r.askAll calls with
      | none => none
      | some (answers, r) => (r.ask call).map fun (answer, r) => (answers ++ [answer], r) := by
  induction calls generalizing r with
  | nil => cases h : r.ask call <;> simp [askAll, h]
  | cons first calls ih =>
    rw [List.cons_append, askAll, askAll]
    cases r.ask first with
    | none => rfl
    | some step =>
      obtain ⟨answer, r⟩ := step
      simp only [ih]
      cases r.askAll calls with
      | none => rfl
      | some rest =>
        obtain ⟨answers, r⟩ := rest
        simp only [Option.map_some]
        cases r.ask call <;> rfl

theorem exists_askAll (calls : List Call) (hroom : made calls < UInt32.size) :
    ∃ answers r, empty.askAll calls = some (answers, r) ∧ r.Follows calls ∧
      Answered calls answers ∧
      given answers = (List.range (made calls)).map fun k => .ofNat (k + 1) := by
  induction calls using List.reverseRecOn with
  | nil => exact ⟨[], empty, rfl, follows_empty, answered_nil, rfl⟩
  | append_singleton calls call ih =>
    have hbefore : made calls < UInt32.size :=
      Nat.lt_of_le_of_lt (made_concat calls call ▸ Nat.le_add_right _ _) hroom
    obtain ⟨answers, r, hrun, hfollows, hanswered, hgiven⟩ := ih hbefore
    obtain ⟨answer, r', hask, hforetold, hfollows'⟩ := hfollows.ask hroom
    refine ⟨answers ++ [answer], r', ?_, hfollows', hanswered.concat hforetold, ?_⟩
    · rw [askAll_concat, hrun]
      simp only [hask, Option.map_some]
    · rw [given, List.filterMap_append, ← given, hgiven, made_concat]
      rw [List.filterMap_cons, List.filterMap_nil, hforetold.id?_eq]
      cases call.isSubscribe <;> simp [List.range_succ]

theorem take_eq_append_cons {i j : Nat} (hij : i < j) {call : Call} (hi : calls[i]? = some call) :
    calls.take j = calls.take i ++ call :: (calls.take j).drop (i + 1) := by
  have hget : (calls.take j)[i]? = some call := by
    rw [List.getElem?_take_of_lt hij, hi]
  obtain ⟨hlt, hval⟩ := List.getElem?_eq_some_iff.mp hget
  have htake : (calls.take j).take i = calls.take i := by
    rw [List.take_take, Nat.min_eq_left (Nat.le_of_lt hij)]
  rw [← hval, ← List.drop_eq_getElem_cons hlt, ← htake, List.take_append_drop]

theorem Answered.unsubscribed_once (h : Answered calls answers) {i j : Nat} (hij : i < j)
    {id : UInt32} {l : Listener} (hi : calls[i]? = some (.unsubscribe id))
    (hfound : answers[i]? = some (.unsubscribed (some l)))
    (hj : calls[j]? = some (.unsubscribe id)) : answers[j]? = some (.unsubscribed none) := by
  obtain ⟨answer, hanswer⟩ : ∃ answer, answers[j]? = some answer := by
    have hlt := (List.getElem?_eq_some_iff.mp hj).1
    exact ⟨_, List.getElem?_eq_getElem (h.length_eq ▸ hlt)⟩
  have hlater := h.foretold j _ _ hj hanswer
  rcases answer with id' | found | ls
  · exact hlater.elim
  · cases found with
    | none => exact hanswer
    | some l' =>
      obtain ⟨hstood, hid⟩ := ((h.foretold i _ _ hi hfound) l).mp rfl
      obtain ⟨hstands, hid'⟩ := (hlater l').mp rfl
      -- the first of the two calls is one of those after which the listener would still stand
      rw [take_eq_append_cons hij hi] at hstands
      have hbound : l'.id.toNat ≤ made (calls.take i) := by
        rw [hid', ← hid]
        exact hstood.le_made
      exact absurd hid'.symm ((hstands.of_append hbound).2 _ List.mem_cons_self)
  · exact hlater.elim

theorem given_bounds {n : Nat} (h : n < UInt32.size) :
    let ids := (List.range n).map fun k => UInt32.ofNat (k + 1)
    0 ∉ ids ∧ ids.Pairwise (· < ·) := by
  have htoNat : ∀ k ∈ List.range n, (UInt32.ofNat (k + 1)).toNat = k + 1 := fun k hk =>
    UInt32.toNat_ofNat_of_lt' (Nat.lt_of_le_of_lt (List.mem_range.mp hk) h)
  constructor
  · intro hzero
    obtain ⟨k, hk, he⟩ := List.mem_map.mp hzero
    have hsucc := htoNat k hk
    rw [he] at hsucc
    exact Nat.succ_ne_zero k hsucc.symm
  · refine List.pairwise_map.mpr (List.pairwise_lt_range.imp_of_mem fun {j k} hj hk hlt => ?_)
    rw [UInt32.lt_iff_toNat_lt, htoNat j hj, htoNat k hk]
    exact Nat.succ_lt_succ hlt

/-- The calls alone tell how a registry answers and what it holds, as long as fewer subscriptions
are made than there are identifiers. Every call is answered, the subscriptions with the numbers from
one on, and a listener that was ended once is not found again. -/
theorem told_by_calls (calls : List Call) (hroom : made calls < UInt32.size) :
    ∃ answers r, empty.askAll calls = some (answers, r) ∧ r.Holds (Stands calls) ∧
      Answered calls answers ∧
      (given answers = (List.range (made calls)).map (fun k => .ofNat (k + 1)) ∧
        0 ∉ given answers ∧ (given answers).Pairwise (· < ·)) ∧
      ∀ (i j : Nat) id l, i < j → calls[i]? = some (Call.unsubscribe id) →
        answers[i]? = some (Answer.unsubscribed (some l)) → calls[j]? = some (Call.unsubscribe id) →
          answers[j]? = some (Answer.unsubscribed none) := by
  obtain ⟨answers, r, hrun, hfollows, hanswered, hgiven⟩ := exists_askAll calls hroom
  refine ⟨answers, r, hrun, hfollows.holds, hanswered, ⟨hgiven, ?_⟩, ?_⟩
  · rw [hgiven]
    exact given_bounds hroom
  · intro i j id l hij hi hfound hj
    exact hanswered.unsubscribed_once hij hi hfound hj

/-- A client that subscribes again to the same location gets a new number, and its old one stays
unknown. -/
theorem told_by_calls_of_one_client :
    let calls : List Call := [.subscribe "/a" "/c", .unsubscribe 1, .subscribe "/a" "/c",
      .unsubscribe 1, .removeClient "/c", .subscribe "/b" "/c"]
    made calls < UInt32.size ∧ ∃ r, empty.askAll calls = some ([.subscribed 1,
      .unsubscribed (some ⟨1, "/a", "/c"⟩), .subscribed 2, .unsubscribed none,
      .removed [⟨2, "/a", "/c"⟩], .subscribed 3], r) ∧
      ∀ l, Stands calls l ↔ l = ⟨3, "/b", "/c"⟩ := by
  intro calls
  have hroom : made calls < UInt32.size := by decide
  obtain ⟨answers, r, hrun, hholds, -⟩ := told_by_calls calls hroom
  have hlist : (empty.askAll calls).map (·.2.toList) = some [⟨3, "/b", "/c"⟩] := by decide
  have hanswers : (empty.askAll calls).map (·.1) = some [.subscribed 1,
      .unsubscribed (some ⟨1, "/a", "/c"⟩), .subscribed 2, .unsubscribed none,
      .removed [⟨2, "/a", "/c"⟩], .subscribed 3] := by decide
  rw [hrun, Option.map_some, Option.some.injEq] at hlist hanswers
  refine ⟨hroom, r, by rw [hrun, ← hanswers], fun l => ?_⟩
  rw [← hholds.mem_iff, hlist, List.mem_singleton]

end Run

end ConfigDaemon.Registry
