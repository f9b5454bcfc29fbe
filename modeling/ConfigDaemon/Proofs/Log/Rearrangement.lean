import ConfigDaemon.Proofs.Log.Surviving
import ConfigDaemon.Proofs.Log.Text

/-! # Logs in another order

Entries about listeners of different databases may change places. The same clients survive of such
a log, and of each database the same listeners in the same order.
-/

namespace ConfigDaemon

/-- Neighbours that are apart have changed places, any number of times. -/
inductive Rearranged {α : Type} (apart : α → α → Prop) : List α → List α → Prop
  | nil : Rearranged apart [] []
  | cons (x : α) {xs ys : List α} (h : Rearranged apart xs ys) :
    Rearranged apart (x :: xs) (x :: ys)
  | swap {x y : α} (h : apart x y) (zs : List α) : Rearranged apart (x :: y :: zs) (y :: x :: zs)
  | trans {xs ys zs : List α} (h : Rearranged apart xs ys) (h' : Rearranged apart ys zs) :
    Rearranged apart xs zs

namespace Rearranged

variable {α β : Type} {apart : α → α → Prop} {apart' : β → β → Prop} {xs ys zs ws : List α}

@[refl] theorem refl (xs : List α) : Rearranged apart xs xs := by
  induction xs with
  | nil => exact .nil
  | cons x xs ih => exact ih.cons x

theorem perm (h : Rearranged apart xs ys) : xs.Perm ys := by
  induction h with
  | nil => exact .nil
  | cons x _ ih => exact ih.cons x
  | swap _ zs => exact .swap _ _ zs
  | trans _ _ ih ih' => exact ih.trans ih'

theorem append_left (h : Rearranged apart xs ys) (zs : List α) :
    Rearranged apart (zs ++ xs) (zs ++ ys) := by
  induction zs with
  | nil => exact h
  | cons z zs ih => exact ih.cons z

theorem append_right (h : Rearranged apart xs ys) (zs : List α) :
    Rearranged apart (xs ++ zs) (ys ++ zs) := by
  induction h with
  | nil => exact .refl zs
  | cons x _ ih => exact ih.cons x
  | swap hxy ws => exact .swap hxy (ws ++ zs)
  | trans _ _ ih ih' => exact ih.trans ih'

theorem append (h : Rearranged apart xs ys) (h' : Rearranged apart zs ws) :
    Rearranged apart (xs ++ zs) (ys ++ ws) :=
  (h.append_right zs).trans (h'.append_left ys)

theorem append_comm (h : ∀ x ∈ xs, ∀ y ∈ ys, apart x y) :
    Rearranged apart (xs ++ ys) (ys ++ xs) := by
  induction xs with
  | nil => exact (List.append_nil ys).symm ▸ .refl ys
  | cons x xs ih =>
    obtain ⟨hx, hxs⟩ := List.forall_mem_cons.mp h
    have hmove : Rearranged apart (x :: ys) (ys ++ [x]) := by
      clear h ih hxs
      induction ys with
      | nil => exact .refl [x]
      | cons y ys ih =>
        obtain ⟨hy, hys⟩ := List.forall_mem_cons.mp hx
        exact (swap hy ys).trans ((ih hys).cons y)
    refine ((ih hxs).cons x).trans ?_
    have hrest := hmove.append_right xs
    rwa [List.append_assoc, List.singleton_append] at hrest

theorem map {f : α → β} (hf : ∀ {x y}, apart x y → apart' (f x) (f y))
    (h : Rearranged apart xs ys) : Rearranged apart' (xs.map f) (ys.map f) := by
  induction h with
  | nil => exact .nil
  | cons x _ ih => exact ih.cons (f x)
  | swap hxy zs => exact .swap (hf hxy) (zs.map f)
  | trans _ _ ih ih' => exact ih.trans ih'

theorem filter (p : α → Bool) (h : Rearranged apart xs ys) :
    Rearranged apart (xs.filter p) (ys.filter p) := by
  induction h with
  | nil => exact .nil
  | cons x _ ih =>
    rw [List.filter_cons, List.filter_cons]
    split
    · exact ih.cons x
    · exact ih
  | @swap x y hxy zs =>
    simp only [List.filter_cons]
    split
    · split
      · exact .swap hxy _
      · rfl
    · rfl
  | trans _ _ ih ih' => exact ih.trans ih'

theorem erase [DecidableEq α] (hne : ∀ x, ¬ apart x x) (z : α) (h : Rearranged apart xs ys) :
    Rearranged apart (xs.erase z) (ys.erase z) := by
  induction h with
  | nil => exact .nil
  | @cons x xs ys h ih =>
    rw [List.erase_cons, List.erase_cons]
    split
    · exact h
    · exact ih.cons x
  | @swap x y hxy zs =>
    have hxy' : x ≠ y := fun he => hne y (he ▸ hxy)
    by_cases hx : x = z
    · subst hx
      rw [List.erase_cons_head, List.erase_cons_tail (by simpa using hxy'.symm),
        List.erase_cons_head]
    · rw [List.erase_cons_tail (by simpa using hx)]
      by_cases hy : y = z
      · subst hy
        rw [List.erase_cons_head, List.erase_cons_head]
      · rw [List.erase_cons_tail (by simpa using hy), List.erase_cons_tail (by simpa using hy),
          List.erase_cons_tail (by simpa using hx)]
        exact .swap hxy _
  | trans _ _ ih ih' => exact ih.trans ih'

theorem flatMap {f : β → List α} (hf : ∀ {a b}, a ≠ b → ∀ x ∈ f a, ∀ y ∈ f b, apart x y)
    {as bs : List β} (hnodup : as.Nodup) (h : as.Perm bs) :
    Rearranged apart (as.flatMap f) (bs.flatMap f) := by
  induction h with
  | nil => exact .nil
  | cons a _ ih => exact (ih hnodup.of_cons).append_left (f a)
  | swap a b as =>
    have hne : b ≠ a := fun he => (List.nodup_cons.mp hnodup).1 (he ▸ List.mem_cons_self)
    have hblocks := (append_comm (hf hne)).append_right (as.flatMap f)
    rwa [List.append_assoc, List.append_assoc] at hblocks
  | trans h _ ih ih' => exact (ih hnodup).trans (ih' (h.nodup hnodup))

end Rearranged

namespace Log

open Text

def Record.Apart (r s : Record) : Prop :=
  r.database ≠ s.database

theorem Record.Apart.ne {r s : Record} (h : r.Apart s) : r ≠ s :=
  fun he => h (congrArg Record.database he)

def Entry.Apart : Entry → Entry → Prop
  | .addListener r, .addListener s | .addListener r, .removeListener s
  | .removeListener r, .addListener s | .removeListener r, .removeListener s => r.Apart s
  | _, _ => False

/-- The same clients, and of each database the same listeners in the same order. -/
structure Surviving.Rearranged (s t : Surviving) : Prop where
  clients : t.clients = s.clients
  listeners : ConfigDaemon.Rearranged Record.Apart s.listeners t.listeners

namespace Surviving

variable {s t : Surviving} {es fs : List Entry}

@[refl] theorem rearranged_refl (s : Surviving) : s.Rearranged s :=
  ⟨rfl, .refl _⟩

theorem Rearranged.trans {u : Surviving} (h : s.Rearranged t) (h' : t.Rearranged u) :
    s.Rearranged u :=
  ⟨h'.clients.trans h.clients, h.listeners.trans h'.listeners⟩

theorem rearranged_join {rs rs' : List Record} (h : ConfigDaemon.Rearranged Record.Apart rs rs')
    (r : Record) : ConfigDaemon.Rearranged Record.Apart (join rs r) (join rs' r) := by
  simp only [join, h.perm.mem_iff]
  split
  · exact h
  · exact h.append_right [r]

theorem Rearranged.apply (h : s.Rearranged t) (e : Entry) : (s.apply e).Rearranged (t.apply e) := by
  cases e with
  | addClient a => exact ⟨congrArg (join · a) h.clients, h.listeners⟩
  | removeClient a => exact ⟨congrArg (List.erase · a) h.clients, h.listeners⟩
  | addListener r => exact ⟨h.clients, rearranged_join h.listeners r⟩
  | removeListener r => exact ⟨h.clients, h.listeners.erase (fun _ h => h rfl) r⟩

theorem Rearranged.foldl (h : s.Rearranged t) (es : List Entry) :
    (es.foldl Surviving.apply s).Rearranged (es.foldl Surviving.apply t) := by
  induction es generalizing s t with
  | nil => exact h
  | cons e es ih => exact ih (h.apply e)

theorem join_erase_comm {rs : List Record} {r r' : Record} (hne : r ≠ r') :
    join (rs.erase r') r = (join rs r).erase r' := by
  simp only [join, List.mem_erase_of_ne hne]
  split
  · rfl
  · rw [List.erase_append]
    split
    · rfl
    · rename_i hr'
      rw [List.erase_of_not_mem hr', List.erase_of_not_mem (List.mem_singleton.not.mpr hne.symm)]

theorem rearranged_join_join (rs : List Record) {r r' : Record} (h : r.Apart r') :
    ConfigDaemon.Rearranged Record.Apart (join (join rs r) r') (join (join rs r') r) := by
  unfold join
  by_cases hr : r ∈ rs <;> by_cases hr' : r' ∈ rs <;>
    simp only [hr, hr', h.ne, h.ne.symm, if_true, if_false, List.mem_append, List.mem_singleton,
      or_false, List.append_assoc, List.singleton_append]
  · rfl
  · rfl
  · rfl
  · exact (ConfigDaemon.Rearranged.swap h []).append_left rs

theorem rearranged_apply_apply (s : Surviving) {e f : Entry} (h : e.Apart f) :
    ((s.apply e).apply f).Rearranged ((s.apply f).apply e) := by
  match e, f with
  | .addListener r, .addListener r' => exact ⟨rfl, rearranged_join_join _ h⟩
  | .addListener r, .removeListener r' =>
    refine ⟨rfl, ?_⟩
    simp only [apply, join_erase_comm (Record.Apart.ne h)]
    rfl
  | .removeListener r, .addListener r' =>
    refine ⟨rfl, ?_⟩
    simp only [apply, join_erase_comm (Record.Apart.ne h).symm]
    rfl
  | .removeListener r, .removeListener r' =>
    refine ⟨rfl, ?_⟩
    simp only [apply, List.erase_comm r r']
    rfl

theorem rearranged_ofEntries (h : ConfigDaemon.Rearranged Entry.Apart es fs) :
    (ofEntries es).Rearranged (ofEntries fs) := by
  suffices hall : ∀ s : Surviving, (es.foldl apply s).Rearranged (fs.foldl apply s) from hall _
  induction h with
  | nil => exact rearranged_refl
  | cons e _ ih => exact fun s => ih (s.apply e)
  | swap hef es => exact fun s => (rearranged_apply_apply s hef).foldl es
  | trans _ _ ih ih' => exact fun s => (ih s).trans (ih' s)

end Surviving

/-- Logs that break off nowhere and hold the same entries, perhaps in another order. -/
structure SameEntries (bytes bytes' : Bytes) : Prop where
  finished : Finished bytes
  finished' : Finished bytes'
  entries : Rearranged Entry.Apart (entriesOfBytes bytes) (entriesOfBytes bytes')

theorem SameEntries.trans {bytes bytes' bytes'' : Bytes} (h : SameEntries bytes bytes')
    (h' : SameEntries bytes' bytes'') : SameEntries bytes bytes'' :=
  ⟨h.finished, h'.finished', h.entries.trans h'.entries⟩

theorem sameEntries_self {bytes : Bytes} (h : Finished bytes) : SameEntries bytes bytes :=
  ⟨h, h, .refl _⟩

/-- A relation between logs that stays when entries of a kind are added, also if they are added to
one of them in another order. -/
structure Tolerant (told : Entry → Prop) (S : Bytes → Bytes → Prop) : Prop where
  opposite : ∀ {e}, told e → told e.opposite
  nil : S [] []
  append : ∀ {bytes bytes' es fs}, S bytes bytes' → (∀ e ∈ es, told e) →
    Rearranged Entry.Apart es fs → S (bytes ++ logBytes es) (bytes' ++ logBytes fs)

theorem tolerant_sameEntries : Tolerant Entry.OneLine SameEntries where
  opposite {e} h := by cases e <;> exact h
  nil := ⟨finished_nil, finished_nil, .refl _⟩
  append {_ _ es fs} h hes hrearranged := by
    have hfs : ∀ e ∈ fs, e.OneLine := fun e he => hes e (hrearranged.perm.mem_iff.mpr he)
    refine ⟨finished_append hes h.finished, finished_append hfs h.finished', ?_⟩
    rw [entriesOfBytes_append_oneLine hes h.finished, entriesOfBytes_append_oneLine hfs h.finished']
    exact h.entries.append (hrearranged.filter _)

end Log

end ConfigDaemon
