import ConfigDaemon.Lock.Session
import ConfigDaemon.Proofs.Lock.Openings

/-! # Who loses a lock directory

An owner that gives its directory up looks at the lock on the file that it has open, but takes away
whatever goes by the name of the address file. As long as nobody breaks a lock its own file is
locked by nobody else, so an owner whose file was removed takes away the file of the next one.
-/

namespace ConfigDaemon.Lock

open Disk World

variable {p : Place} {t : Stamp} {w : World}

/-! ## Giving up what another one owns -/

theorem release_of_locked {o : Opening} (h : w.lockedByOther o = true) :
    release p t w o = (.error (.lockNotHeld p.addressPath), w.close o) := by
  rw [release, if_pos h]

theorem release_ne_lockNotHeld {o : Opening} (h : w.lockedByOther o = false) (path : String) :
    (release p t w o).1 ≠ .error (.lockNotHeld path) := by
  intro hrefused
  rw [release, if_neg (ne_true_of_eq_false h)] at hrefused
  dsimp only at hrefused
  split at hrefused
  · cases hrefused
  · split at hrefused
    · cases hrefused
    · split at hrefused <;> cases hrefused

theorem release_of_named {o : Opening} {n : Nat} (ht : p.Fresh w.disk t)
    (h : w.lockedByOther o = false) (hn : w.disk.find addressFile = .ok (.file n)) :
    ∃ w', release p t w o = (.ok (), w') ∧ w'.disk.find addressFile = .error .notFound := by
  obtain ⟨d, locks, next⟩ := w
  obtain ⟨es, files, pinned, rfl, he⟩ := exists_of_find_ok hn
  obtain ⟨site, hrelease, hsite⟩ := release_named (fresh_folder.mp ht) he h
  refine ⟨_, hrelease, ?_⟩
  obtain rfl | rfl := hsite
  · rfl
  · rw [find_folder, Table.find?_erase, if_pos rfl]

/-! ## An owner among others -/

structure Move where
  pid : UInt32
  step : Step

def Step.Names (name : String) : Step → Prop
  | .acquire n _ _ _ | .release n _ | .discard n => n = name
  | _ => False

/-- The step takes locks away from those who hold them. -/
def Step.Breaks : Step → Prop
  | .breakLocks => True
  | _ => False

namespace Session

variable {s : Session} {name : String} {o : Opening} {x : Step}

def move (s : Session) (m : Move) : Session :=
  ({ s with place := { s.place with pid := m.pid } }.step m.step).2

def play (s : Session) (moves : List Move) : Session :=
  moves.foldl move s

/-- What a step does to the openings: it may come upon a new one, and closes none but those that it
names and those from outside. -/
structure Effect (s : Session) (x : Step) (o? : Option Opening) (s' : Session) : Prop where
  openings_le : s.world.nextOpening ≤ s'.world.nextOpening
  fresh : ∀ o ∈ o?, s.world.nextOpening ≤ o.number ∧ o.number < s'.world.nextOpening ∧
    ∀ l ∈ s.world.locks, l.file ≠ o.file
  locks : ∀ l ∈ s'.world.locks, l ∈ s.world.locks ∨ l ∈ o?
  kept : ¬ x.Breaks → ∀ l ∈ s.world.locks, l ∈ s'.world.locks ∨ l ∈ s.outside ∨
    ∃ n, x.Names n ∧ s.owned.find? n = some l
  owned : ∀ n q, s'.owned.find? n = some q → s.owned.find? n = some q ∨ q ∈ o?
  unnamed : ∀ n, ¬ x.Names n → s'.owned.find? n = s.owned.find? n
  outside : ∀ q ∈ s'.outside, q ∈ s.outside ∨ q ∈ o?

theorem effect_of_takes {s' : Session} {o? : Option Opening} (h : Takes s.world o? s'.world)
    (howned : s'.owned = s.owned) (houtside : s'.outside = s.outside) : Effect s x o? s' where
  openings_le := h.openings_le
  fresh := h.fresh
  locks l hl := by rwa [h.locks, List.mem_append, Option.mem_toList] at hl
  kept _ l hl := .inl (h.locks ▸ List.mem_append_left _ hl)
  owned n q hq := .inl (howned ▸ hq)
  unnamed n hn := by rw [howned]
  outside q hq := .inl (houtside ▸ hq)

theorem effect_refl (s : Session) (x : Step) : Effect s x none s :=
  effect_of_takes (takes_refl s.world) rfl rfl

theorem letGo_spec (s : Session) (n : String) :
    (s.letGo n).world.nextOpening = s.world.nextOpening ∧
      (∀ l, l ∈ (s.letGo n).world.locks ↔ l ∈ s.world.locks ∧ s.owned.find? n ≠ some l) ∧
      (∀ m, (s.letGo n).owned.find? m = if m = n then none else s.owned.find? m) ∧
      (s.letGo n).outside = s.outside := by
  unfold Session.letGo
  split
  · rename_i h
    refine ⟨rfl, fun l => by simp [h], fun m => ?_, rfl⟩
    split
    · rename_i hm; rw [hm, h]
    · rfl
  · rename_i q h
    refine ⟨rfl, fun l => ?_, fun m => Table.find?_erase _ _ _, rfl⟩
    rw [close, List.mem_filter, decide_eq_true_eq, h, ne_eq, ne_eq, Option.some.injEq, eq_comm]

theorem exists_effect_acquire (hs : s.world.Numbered) (n : String) (t t' : Stamp)
    (address : Option String) :
    ∃ o?, Effect s (.acquire n t t' address) o? (s.step (.acquire n t t' address)).2 := by
  have htakes := takes_acquire hs s.place t t' address
  rcases hacquire : Lock.acquire s.place t t' s.world address with ⟨_ | q, w⟩
  all_goals
    rw [hacquire] at htakes
    simp only [Session.step, hacquire]
  · exact ⟨_, effect_of_takes htakes rfl rfl⟩
  · have htaken : Effect s (.acquire n t t' address) (some q) { s with world := w } :=
      effect_of_takes htakes rfl rfl
    obtain ⟨hnext, hlocks, howned, houtside⟩ := letGo_spec { s with world := w } n
    refine ⟨some q, ?_⟩
    constructor
    · exact hnext ▸ htaken.openings_le
    · exact hnext ▸ htaken.fresh
    · exact fun l hl => htaken.locks l ((hlocks l).mp hl).1
    -- a lock that had this name before is let go
    · intro _ l hl
      by_cases hn : s.owned.find? n = some l
      · exact .inr (.inr ⟨n, rfl, hn⟩)
      · have hw : l ∈ w.locks := htakes.locks ▸ List.mem_append_left _ hl
        exact .inl ((hlocks l).mpr ⟨hw, hn⟩)
    · intro m r hr
      simp only [Table.find?_insert, howned] at hr
      split at hr
      · exact .inr hr
      · exact .inl hr
    · intro m hm
      have hne : m ≠ n := fun he => hm he.symm
      simp only [Table.find?_insert, howned, if_neg hne]
    · exact fun r hr => .inl (houtside ▸ hr)

theorem effect_of_closed {s' : Session} {n : String} {q : Opening} (hx : x.Names n)
    (hq : s.owned.find? n = some q) (hlocks : s'.world.locks = s.world.locks.filter (· ≠ q))
    (hnext : s'.world.nextOpening = s.world.nextOpening) (howned : s'.owned = s.owned.erase n)
    (houtside : s'.outside = s.outside) : Effect s x none s' := by
  constructor
  · exact hnext.ge
  · exact fun r hr => (Option.not_mem_none r hr).elim
  · exact fun l hl => .inl (List.mem_of_mem_filter (hlocks ▸ hl))
  · intro _ l hl
    by_cases hl' : l = q
    · exact .inr (.inr ⟨n, hx, hl' ▸ hq⟩)
    · exact .inl (hlocks ▸ List.mem_filter.mpr ⟨hl, decide_eq_true hl'⟩)
  · intro m r hr
    rw [howned, Table.find?_erase] at hr
    split at hr
    · cases hr
    · exact .inl hr
  · intro m hm
    rw [howned, Table.find?_erase, if_neg]
    rintro rfl
    exact hm hx
  · exact fun r hr => .inl (houtside ▸ hr)

theorem effect_release (s : Session) (n : String) (t : Stamp) :
    Effect s (.release n t) none (s.step (.release n t)).2 := by
  cases hq : s.owned.find? n with
  | none =>
    simp only [Session.step, hq]
    exact effect_refl s _
  | some q =>
    simp only [Session.step, hq]
    obtain ⟨hlocks, hnext⟩ := locks_release s.place t s.world q
    exact effect_of_closed rfl hq hlocks hnext rfl rfl

theorem effect_discard (s : Session) (n : String) :
    Effect s (.discard n) none (s.step (.discard n)).2 := by
  cases hq : s.owned.find? n with
  | none =>
    simp only [Session.step, Session.letGo, hq]
    exact effect_refl s _
  | some q =>
    simp only [Session.step, Session.letGo, hq]
    exact effect_of_closed rfl hq rfl rfl rfl rfl

theorem exists_effect_lockOutside (hs : s.world.Numbered) :
    ∃ o?, Effect s .lockOutside o? (s.step .lockOutside).2 := by
  simp only [Session.step, Session.lockOutside]
  split
  · rename_i file hfile
    split
    · exact ⟨none, effect_of_takes (takes_openNew s.world file) rfl rfl⟩
    · rename_i w htry
      have htaken : Effect s .lockOutside _ { s with world := w } :=
        effect_of_takes (takes_tryLock hs htry) rfl rfl
      refine ⟨_, { htaken with outside := fun q hq => ?_ }⟩
      rcases List.mem_append.mp hq with hq | hq
      · exact .inl hq
      · exact .inr (congrArg some (List.mem_singleton.mp hq).symm)
  · exact ⟨none, effect_refl s _⟩

theorem effect_unlockOutside (s : Session) :
    Effect s .unlockOutside none (s.step .unlockOutside).2 := by
  obtain ⟨hlocks, hnext⟩ := foldl_close s.outside s.world
  constructor
  · exact hnext.ge
  · exact fun q hq => (Option.not_mem_none q hq).elim
  · exact fun l hl => .inl (List.mem_of_mem_filter (hlocks ▸ hl))
  · intro _ l hl
    by_cases ho : l ∈ s.outside
    · exact .inr (.inl ho)
    · exact .inl (hlocks ▸ List.mem_filter.mpr ⟨hl, decide_eq_true ho⟩)
  · exact fun n q hq => .inl hq
  · exact fun n hn => rfl
  · exact fun q hq => (List.not_mem_nil hq).elim

theorem effect_breakLocks (s : Session) :
    Effect s .breakLocks none (s.step .breakLocks).2 := by
  simp only [Session.step]
  split
  · constructor
    · exact le_rfl
    · exact fun q hq => (Option.not_mem_none q hq).elim
    · exact fun l hl => .inl (List.mem_of_mem_filter hl)
    · exact fun h => (h trivial).elim
    · exact fun n q hq => .inl hq
    · exact fun n hn => rfl
    · exact fun r hr => .inl hr
  · exact effect_refl s _

theorem exists_effect (hs : s.world.Numbered) (x : Step) :
    ∃ o?, Effect s x o? (s.step x).2 := by
  cases x with
  | acquire n t t' address => exact exists_effect_acquire hs n t t' address
  | release n t => exact ⟨none, effect_release s n t⟩
  | discard n => exact ⟨none, effect_discard s n⟩
  | holder => exact ⟨none, effect_refl s _⟩
  | change c => exact ⟨none, effect_of_takes ((takes_refl s.world).withDisk _) rfl rfl⟩
  | lockOutside => exact exists_effect_lockOutside hs
  | unlockOutside => exact ⟨none, effect_unlockOutside s⟩
  | breakLocks => exact ⟨none, effect_breakLocks s⟩

structure Orderly (s : Session) : Prop where
  locked : s.world.Numbered
  owned : ∀ n q, s.owned.find? n = some q → q.number < s.world.nextOpening
  outside : ∀ q ∈ s.outside, q.number < s.world.nextOpening

theorem Effect.orderly {s' : Session} {o? : Option Opening} (h : Effect s x o? s')
    (hs : s.Orderly) : s'.Orderly where
  locked l hl := by
    rcases h.locks l hl with hl | hl
    · exact (hs.locked l hl).trans_le h.openings_le
    · exact (h.fresh l hl).2.1
  owned n q hq := by
    rcases h.owned n q hq with hq | hq
    · exact (hs.owned n q hq).trans_le h.openings_le
    · exact (h.fresh q hq).2.1
  outside q hq := by
    rcases h.outside q hq with hq | hq
    · exact (hs.outside q hq).trans_le h.openings_le
    · exact (h.fresh q hq).2.1

/-- The opening is that of the lock with this name and of no other. -/
structure Outstanding (s : Session) (name : String) (o : Opening) : Prop where
  owned : s.owned.find? name = some o
  others : ∀ n, n ≠ name → s.owned.find? n ≠ some o
  outside : o ∉ s.outside

theorem Effect.outstanding {s' : Session} {o? : Option Opening} (h : Effect s x o? s')
    (hs : s.Orderly) (ho : s.Outstanding name o) (hx : ¬ x.Names name) :
    s'.Outstanding name o := by
  -- openings are numbered in turn, so a new one is none of those that are known
  have hold : o ∉ o? := fun hn =>
    absurd (hs.owned name o ho.owned) (Nat.not_lt.mpr (h.fresh o hn).1)
  refine ⟨(h.unnamed name hx).trans ho.owned, fun n hne hn => ?_, fun hout => ?_⟩
  · exact (h.owned n o hn).elim (ho.others n hne) hold
  · exact (h.outside o hout).elim ho.outside hold

theorem Effect.secures {s' : Session} {o? : Option Opening} (h : Effect s x o? s')
    (ho : s.Outstanding name o) (hx : ¬ x.Names name) (hb : ¬ x.Breaks)
    (hw : s.world.Secures o) : s'.world.Secures o where
  held := by
    rcases h.kept hb o hw.held with hl | hl | ⟨n, hn, hl⟩
    · exact hl
    · exact absurd hl ho.outside
    · by_cases hne : n = name
      · exact absurd (hne ▸ hn) hx
      · exact absurd hl (ho.others n hne)
  alone l hl hfile := by
    rcases h.locks l hl with hl | hl
    · exact hw.alone l hl hfile
    · exact absurd hfile.symm ((h.fresh l hl).2.2 o hw.held)

/-! ## Any number of moves -/

theorem orderly_start (place : Place) (outer : Volume) : (start place outer).Orderly :=
  ⟨nofun, nofun, nofun⟩

theorem exists_effect_move (hs : s.Orderly) (m : Move) : ∃ o?, Effect s m.step o? (s.move m) := by
  obtain ⟨o?, h⟩ := exists_effect
    (s := { s with place := { s.place with pid := m.pid } }) hs.locked m.step
  exact ⟨o?, h.openings_le, h.fresh, h.locks, h.kept, h.owned, h.unnamed, h.outside⟩

theorem Orderly.play (hs : s.Orderly) (moves : List Move) : (s.play moves).Orderly := by
  induction moves generalizing s with
  | nil => exact hs
  | cons m moves ih =>
    obtain ⟨o?, h⟩ := exists_effect_move hs m
    exact ih (h.orderly hs)

theorem Outstanding.play (ho : s.Outstanding name o) (hs : s.Orderly) {moves : List Move}
    (hm : ∀ m ∈ moves, ¬ m.step.Names name) :
    (s.play moves).Outstanding name o ∧
      ((∀ m ∈ moves, ¬ m.step.Breaks) → s.world.Secures o → (s.play moves).world.Secures o) := by
  induction moves generalizing s with
  | nil => exact ⟨ho, fun _ hw => hw⟩
  | cons m moves ih =>
    obtain ⟨hname, hnames⟩ := List.forall_mem_cons.mp hm
    obtain ⟨o?, h⟩ := exists_effect_move hs m
    obtain ⟨houtstanding, hsecures⟩ := ih (h.outstanding hs ho hname) (h.orderly hs) hnames
    refine ⟨houtstanding, fun hb hw => ?_⟩
    obtain ⟨hbreak, hbreaks⟩ := List.forall_mem_cons.mp hb
    exact hsecures hbreaks (h.secures ho hname hbreak hw)

theorem outstanding_acquire (name : String) (hs : s.Orderly) {address : Option String}
    {t t' : Stamp} (h : (Lock.acquire s.place t t' s.world address).1 = .ok o) :
    (s.step (.acquire name t t' address)).2.Outstanding name o ∧
      (s.step (.acquire name t t' address)).2.world.Secures o := by
  have htakes := takes_acquire hs.locked s.place t t' address
  rcases hacquire : Lock.acquire s.place t t' s.world address with ⟨r, w⟩
  rw [hacquire] at h htakes
  obtain rfl : r = .ok o := h
  obtain ⟨-, hlocks, howned, houtside⟩ := letGo_spec { s with world := w } name
  have hnew := (htakes.fresh o rfl).1
  have hnone : ∀ n, s.owned.find? n ≠ some o := fun n hn =>
    absurd (hs.owned n o hn) (Nat.not_lt.mpr hnew)
  simp only [Session.step, hacquire]
  refine ⟨⟨Table.find?_insert_self _ _ _, fun n hne => ?_, fun hout => ?_⟩, ?_⟩
  · rw [Table.find?_insert, if_neg hne, howned, if_neg hne]
    exact hnone n
  · exact absurd (hs.outside o (houtside ▸ hout)) (Nat.not_lt.mpr hnew)
  · have hw := htakes.secures_new
    exact hw.mono ((hlocks o).mpr ⟨hw.held, hnone name⟩) fun l hl => ((hlocks l).mp hl).1

/-- Somebody else has locked the file that goes by the name of the address file. An owner that gives
its directory up is refused, and leaves the directory as it is, just when its own file is locked by
somebody else too. Otherwise it takes that file's name away from under the lock. The refusal needs a
lock that was broken, so without one it never comes. -/
theorem release_spares_iff_own_file_locked (place : Place) (outer : Volume)
    (before after : List Move) (name : String) (first second : Stamp) (address : Option String)
    (o : Opening) :
    let s₀ := (start place outer).play before
    (Lock.acquire s₀.place first second s₀.world address).1 = .ok o →
    (∀ m ∈ after, ¬ m.step.Names name) →
    let s := (s₀.step (.acquire name first second address)).2.play after
    s.owned.find? name = some o ∧
      ∀ l ∈ s.world.locks, l ≠ o → s.world.disk.find addressFile = .ok (.file l.file) →
        ∀ (p : Place) (t : Stamp),
          ((∃ w, release p t s.world o = (.error (.lockNotHeld p.addressPath), w) ∧
              w.disk = s.world.disk) ↔ s.world.lockedByOther o = true) ∧
          (s.world.lockedByOther o = false → p.Fresh s.world.disk t →
            ∃ w, release p t s.world o = (.ok (), w) ∧
              w.disk.find addressFile = .error .notFound ∧ l ∈ w.locks) ∧
          ((∀ m ∈ after, ¬ m.step.Breaks) → s.world.lockedByOther o = false) := by
  intro s₀ hacquire hnames s
  have hs₀ : s₀.Orderly := (orderly_start place outer).play before
  obtain ⟨ho, hsecures⟩ := outstanding_acquire name hs₀ hacquire
  obtain ⟨o?, heffect⟩ := exists_effect hs₀.locked (.acquire name first second address)
  obtain ⟨houtstanding, hkept⟩ := ho.play (heffect.orderly hs₀) hnames
  refine ⟨houtstanding.owned, fun l hl hne hfind p t => ⟨⟨?_, fun hother => ?_⟩, ?_, fun hb => ?_⟩⟩
  · rintro ⟨w, hrelease, -⟩
    by_contra hother
    refine release_ne_lockNotHeld (p := p) (t := t) (Bool.not_eq_true _ ▸ hother) p.addressPath ?_
    rw [hrelease]
  · exact ⟨_, release_of_locked hother, rfl⟩
  · intro hother ht
    obtain ⟨w, hrelease, hgone⟩ := release_of_named ht hother hfind
    have hlocks := (locks_release p t s.world o).1
    rw [hrelease] at hlocks
    exact ⟨w, hrelease, hgone, hlocks ▸ List.mem_filter.mpr ⟨hl, decide_eq_true hne⟩⟩
  · exact (hkept hb hsecures).not_lockedByOther

/-- An owner that cleared a stale file away has its own file removed, and a second one takes the
directory: the first one takes it away. An owner whose lock was broken and whose file was then
locked from outside is refused. -/
theorem release_evicts_second_owner :
    let place : Place := ⟨"confd", 7⟩
    let before : List Move := [⟨6, .change (.put "ior" [0x36])⟩]
    let removed : List Move :=
      [⟨6, .change (.remove "ior")⟩, ⟨8, .acquire "y" ⟨2, 0⟩ ⟨3, 1⟩ (some "/b")⟩]
    let broken : List Move := [⟨7, .breakLocks⟩, ⟨7, .lockOutside⟩]
    let first := ((start place .empty).play before)
    let taken := (first.step (.acquire "x" ⟨0, 0⟩ ⟨1, 1⟩ none)).2
    (∃ w, release place ⟨4, 2⟩ (taken.play removed).world ⟨2, 2⟩ = (.ok (), w) ∧
      w.disk.find addressFile = .error .notFound ∧ ⟨3, 3⟩ ∈ w.locks) ∧
    ∃ w, release place ⟨4, 2⟩ (taken.play broken).world ⟨2, 2⟩ =
        (.error (.lockNotHeld place.addressPath), w) ∧
      w.disk = (taken.play broken).world.disk := by
  intro place before removed broken first taken
  have hacquire : (Lock.acquire first.place ⟨0, 0⟩ ⟨1, 1⟩ first.world none).1 = .ok ⟨2, 2⟩ := by
    decide +kernel
  constructor
  · obtain ⟨-, hothers⟩ := release_spares_iff_own_file_locked place .empty before removed "x"
      ⟨0, 0⟩ ⟨1, 1⟩ none ⟨2, 2⟩ hacquire (by simp [removed, Step.Names])
    obtain ⟨-, hevicts, hkept⟩ :=
      hothers ⟨3, 3⟩ (by decide +kernel) (by decide) (by decide +kernel) place ⟨4, 2⟩
    exact hevicts (hkept (by simp [removed, Step.Breaks])) (by decide +kernel)
  · obtain ⟨-, hothers⟩ := release_spares_iff_own_file_locked place .empty before broken "x"
      ⟨0, 0⟩ ⟨1, 1⟩ none ⟨2, 2⟩ hacquire (by simp [broken, Step.Names])
    obtain ⟨hspares, -⟩ :=
      hothers ⟨2, 3⟩ (by decide +kernel) (by decide) (by decide +kernel) place ⟨4, 2⟩
    exact hspares.mpr (by decide +kernel)

end Session

end ConfigDaemon.Lock
