import ConfigDaemon.Proofs.Lock.Election

/-! # One owner at a time

Processes take a lock directory, give it up again or just go away, in any order. From a directory
that nobody has locked on there is never more than one lock outstanding, its record can be read
all the while, and it stands in the way of every other attempt and of nothing else.
-/

namespace ConfigDaemon.Lock

open Text Disk

/-- A lock that was acquired and is outstanding. -/
structure Holding where
  place : Place
  address : Option String
  opening : Opening
  deriving DecidableEq

namespace Holding

def line (h : Holding) : List Char :=
  Holder.record h.place.pid h.address

end Holding

/-- A lock directory with the locks on it that are outstanding. -/
structure Contest where
  world : World
  held : List Holding

inductive Turn
  | acquire (p : Place) (first second : Stamp) (address : Option String)
  /-- One of the outstanding locks is given up. -/
  | release (i : Nat) (t : Stamp)
  /-- The owner goes away without giving its lock up. -/
  | drop (i : Nat)

namespace Contest

def step (c : Contest) : Turn → Contest
  | .acquire p first second address =>
    match Lock.acquire p first second c.world address with
    | (.error _, w) => { c with world := w }
    | (.ok o, w) => ⟨w, c.held ++ [⟨p, address, o⟩]⟩
  | .release i t =>
    match c.held[i]? with
    | none => c
    | some h => ⟨(Lock.release h.place t c.world h.opening).2, c.held.eraseIdx i⟩
  | .drop i =>
    match c.held[i]? with
    | none => c
    | some h => ⟨c.world.close h.opening, c.held.eraseIdx i⟩

def run (c : Contest) (turns : List Turn) : Contest :=
  turns.foldl step c

end Contest

/-! ## What the directory looks like -/

namespace World

/-- Names and locks belong to files that are stored, and openings are numbered in turn. -/
structure Sound (w : World) : Prop where
  named : ∀ name n, w.disk.find name = .ok (.file n) → n < w.disk.files.length
  locked : ∀ l ∈ w.locks, l.file < w.disk.files.length
  numbered : ∀ l ∈ w.locks, l.number < w.nextOpening

/-- The folder is there or can be made, and there is no address file, or one that nobody has
locked. -/
structure Vacant (w : World) : Prop extends w.Sound where
  reachable : ∀ look make, w.disk.site ≠ .blocked look make
  unlocked : ∀ e, w.disk.find addressFile = .ok e →
    ∃ n, e = .file n ∧ ∀ l ∈ w.locks, l.file ≠ n

/-- The address file is that of the holding, with its record and its lock alone. -/
structure OwnedBy (w : World) (h : Holding) : Prop extends w.Sound where
  published : w.disk.find addressFile = .ok (.file h.opening.file)
  recorded : w.disk.contents h.opening.file = Utf8.encode h.line
  held : h.opening ∈ w.locks
  alone : ∀ l ∈ w.locks, l.file = h.opening.file → l = h.opening

theorem OwnedBy.exists_folder {w : World} {h : Holding} (hw : w.OwnedBy h) :
    ∃ es, w.disk.site = .folder es := by
  obtain ⟨es, files, pinned, hdisk, -⟩ := exists_of_find_ok hw.published
  exact ⟨es, by rw [hdisk]⟩

theorem Sound.later {w w' : World} (hw : w.Sound)
    (hnames : ∀ name e, w'.disk.find name = .ok e → w.disk.find name = .ok e)
    (hfiles : w.disk.files.length ≤ w'.disk.files.length) (hlocks : w'.locks ⊆ w.locks)
    (hnext : w.nextOpening ≤ w'.nextOpening) : w'.Sound where
  named name n h := (hw.named name n (hnames name _ h)).trans_le hfiles
  locked l hl := (hw.locked l (hlocks hl)).trans_le hfiles
  numbered l hl := (hw.numbered l (hlocks hl)).trans_le hnext

section Drop

variable {w : World}

theorem drop_cases (w : World) (name : String) :
    w.drop name = w ∨ ∃ es files pinned, w.disk = ⟨.folder es, files, pinned⟩ ∧
      w.drop name = w.withDisk ⟨.folder (es.erase name), files, pinned⟩ := by
  rw [World.drop]
  cases h : w.disk.unlink name with
  | error f => exact .inl rfl
  | ok d =>
    obtain ⟨es, files, pinned, hdisk, rfl⟩ := exists_of_unlink_ok h
    exact .inr ⟨es, files, pinned, hdisk, rfl⟩

theorem Sound.drop (hw : w.Sound) (name : String) : (w.drop name).Sound := by
  rcases w.drop_cases name with h | ⟨es, files, pinned, hdisk, h⟩
  · rwa [h]
  · rw [h]
    refine hw.later (fun other e hfind => ?_) ?_ (List.Subset.refl _) le_rfl
    · rw [hdisk]
      exact find_of_erase hfind
    · rw [hdisk]
      rfl

theorem Vacant.drop (hw : w.Vacant) (name : String) : (w.drop name).Vacant := by
  refine ⟨hw.toSound.drop name, ?_, ?_⟩ <;>
    rcases w.drop_cases name with h | ⟨es, files, pinned, hdisk, h⟩ <;> rw [h]
  · exact hw.reachable
  · exact nofun
  · exact hw.unlocked
  · intro e hfind
    refine hw.unlocked e ?_
    rw [hdisk]
    exact find_of_erase hfind

theorem OwnedBy.drop {h : Holding} (hw : w.OwnedBy h) {name : String} (hne : name ≠ addressFile) :
    (w.drop name).OwnedBy h := by
  rcases w.drop_cases name with hdrop | ⟨es, files, pinned, hdisk, hdrop⟩
  · rwa [hdrop]
  · have hpublished := hw.published
    have hrecorded := hw.recorded
    have hsound := hw.toSound.drop name
    rw [hdisk, find_folder_eq_ok] at hpublished
    rw [hdisk] at hrecorded
    rw [hdrop] at hsound ⊢
    refine ⟨hsound, ?_, hrecorded, hw.held, hw.alone⟩
    rwa [World.withDisk, find_folder_eq_ok, Table.find?_erase, if_neg hne.symm]

end Drop

end World

open World

variable {p : Place} {address : Option String} {h : Holding} {w : World}
  {es : Table String Entry} {files : List Bytes} {pinned : Bool} {locks : List Opening}
  {next : Nat} {t t' : Stamp}

theorem ownedBy_new (hw : Sound ⟨⟨.folder es, files, pinned⟩, locks, next⟩) :
    OwnedBy ⟨⟨.folder (es.insert addressFile (.file files.length)),
        files ++ [Utf8.encode (Holder.record p.pid address)], pinned⟩,
        locks ++ [⟨files.length, next⟩], next + 1⟩
      ⟨p, address, ⟨files.length, next⟩⟩ where
  named name n hn := by
    rw [find_folder_eq_ok, Table.find?_insert] at hn
    simp only [List.length_append, List.length_singleton]
    split at hn
    · cases hn; exact Nat.lt_succ_self _
    · exact Nat.lt_succ_of_lt (hw.named name n (find_folder_eq_ok.mpr hn))
  locked l hl := by
    simp only [List.length_append, List.length_singleton]
    rcases List.mem_append.mp hl with hl | hl
    · exact Nat.lt_succ_of_lt (hw.locked l hl)
    · obtain rfl := List.mem_singleton.mp hl
      exact Nat.lt_succ_self _
  numbered l hl := by
    rcases List.mem_append.mp hl with hl | hl
    · exact Nat.lt_succ_of_lt (hw.numbered l hl)
    · obtain rfl := List.mem_singleton.mp hl
      exact Nat.lt_succ_self _
  published := find_folder_eq_ok.mpr (Table.find?_insert_self _ _ _)
  recorded := by simp [Disk.contents, Holding.line]
  held := List.mem_append_right _ List.mem_cons_self
  alone l hl hfile := by
    rcases List.mem_append.mp hl with hl | hl
    · exact absurd hfile (Nat.ne_of_lt (hw.locked l hl))
    · exact List.mem_singleton.mp hl

/-! ## What a turn does -/

theorem acquire_vacant_folder (ht : p.Fresh ⟨.folder es, files, pinned⟩ t)
    (ht' : p.Fresh ⟨.folder es, files, pinned⟩ t')
    (hw : Vacant ⟨⟨.folder es, files, pinned⟩, locks, next⟩) :
    ∃ o w', acquire p t t' ⟨⟨.folder es, files, pinned⟩, locks, next⟩ address = (.ok o, w') ∧
      w'.OwnedBy ⟨p, address, o⟩ := by
  rw [fresh_folder] at ht ht'
  rcases he : es.find? addressFile with _ | e
  · exact ⟨_, _, acquire_free ht hw.locked he, ownedBy_new hw.toSound⟩
  · obtain ⟨n, rfl, hfree⟩ := hw.unlocked e (find_folder_eq_ok.mpr he)
    refine ⟨_, _, acquire_unlocked ht ht' hw.locked he hfree,
      ownedBy_new (hw.toSound.later ?_ ?_ ?_ ?_)⟩
    · exact fun name e hfind => find_of_erase hfind
    · simp
    · exact List.Subset.refl _
    · exact Nat.le_add_right _ _

theorem acquire_vacant (ht : p.Fresh w.disk t) (ht' : p.Fresh w.disk t') (hw : w.Vacant)
    (address : Option String) :
    ∃ o w', acquire p t t' w address = (.ok o, w') ∧ w'.OwnedBy ⟨p, address, o⟩ := by
  obtain ⟨⟨site, files, pinned⟩, locks, next⟩ := w
  cases site with
  | missing =>
    have hmade : Vacant ⟨⟨.folder .empty, files, pinned⟩, locks, next⟩ :=
      ⟨⟨hw.named, hw.locked, hw.numbered⟩, nofun, hw.unlocked⟩
    rw [acquire_missing]
    exact acquire_vacant_folder rfl rfl hmade
  | blocked look make => exact absurd rfl (hw.reachable look make)
  | folder es => exact acquire_vacant_folder ht ht' hw

/-- Whatever the temporary names, an attempt at a directory that nobody owns makes an owner of it or
leaves nobody as its owner. -/
theorem acquire_vacant_cases (hw : w.Vacant) (p : Place) (t t' : Stamp)
    (address : Option String) :
    (∃ o w', acquire p t t' w address = (.ok o, w') ∧ w'.OwnedBy ⟨p, address, o⟩) ∨
      ∃ f w', acquire p t t' w address = (.error f, w') ∧ w'.Vacant := by
  by_cases ht : p.Fresh w.disk t
  · by_cases ht' : p.Fresh w.disk t'
    · exact .inl (acquire_vacant ht ht' hw address)
    · obtain ⟨es, files, pinned, -, hdisk, -⟩ := exists_of_not_fresh ht'
      obtain ⟨disk, locks, next⟩ := w
      obtain rfl : disk = _ := hdisk
      have hname := fresh_folder.mp ht
      rcases he : es.find? addressFile with _ | e
      · exact .inl ⟨_, _, acquire_free hname hw.locked he, ownedBy_new hw.toSound⟩
      · obtain ⟨n, rfl, hfree⟩ := hw.unlocked e (find_folder_eq_ok.mpr he)
        refine .inr ⟨_, _, acquire_collides_later hname ht' hw.locked he hfree, Vacant.drop ?_ _⟩
        refine ⟨hw.toSound.later (fun _ _ hfind => find_of_erase hfind) ?_ (List.Subset.refl _) ?_,
          nofun, fun e hfind => ?_⟩
        · simp
        · exact Nat.le_add_right _ _
        · rw [find_folder_eq_ok, Table.find?_erase, if_pos rfl] at hfind
          cases hfind
  · exact .inr ⟨_, _, acquire_collides ht, hw.drop _⟩

/-- One that is owned cannot, and the attempt leaves names and contents as they are. -/
theorem acquire_owned (ht : p.Fresh w.disk t) (t' : Stamp) (hw : w.OwnedBy h)
    (address : Option String) :
    ∃ w', acquire p t t' w address = (.error (.lockHeld p.addressPath (.ofContents h.line)), w') ∧
      w'.disk.listing = w.disk.listing ∧ w'.OwnedBy h := by
  obtain ⟨es, hsite⟩ := hw.exists_folder
  obtain ⟨⟨site, files, pinned⟩, locks, next⟩ := w
  cases hsite
  have hname : es.find? addressFile = some (.file h.opening.file) :=
    find_folder_eq_ok.mp hw.published
  have hnamed : ∀ name n, es.find? name = some (.file n) → n < files.length :=
    fun name n hn => hw.named name n (find_folder_eq_ok.mpr hn)
  have hkept : ∀ more, (files ++ more).getD h.opening.file [] = Utf8.encode h.line :=
    fun more => (getD_append (hnamed _ _ hname) more).trans hw.recorded
  have hnumber := hw.numbered _ hw.held
  refine ⟨_, (acquire_locked (fresh_folder.mp ht) hw.locked hname hw.held rfl hnumber).trans
    (by rw [heldFailure_eq hname (hkept _)]; rfl), listing_append hnamed _, ?_⟩
  have hlater : Sound ⟨⟨.folder es, files ++ [Utf8.encode (Holder.record p.pid address)], pinned⟩,
      locks, next + 1⟩ :=
    hw.toSound.later (fun name e hfind => hfind) (by simp) (List.Subset.refl _) (Nat.le_succ _)
  exact { toSound := hlater, published := hw.published, recorded := hkept _, held := hw.held,
          alone := hw.alone }

theorem acquire_of_owned (hw : w.OwnedBy h) (p : Place) (t t' : Stamp)
    (address : Option String) :
    ∃ f w', acquire p t t' w address = (.error f, w') ∧ w'.OwnedBy h := by
  by_cases ht : p.Fresh w.disk t
  · obtain ⟨w', hacquire, -, hw'⟩ := acquire_owned ht t' hw address
    exact ⟨_, w', hacquire, hw'⟩
  · exact ⟨_, _, acquire_collides ht, hw.drop (temporary_ne p t)⟩

theorem release_owned (ht : h.place.Fresh w.disk t) (hw : w.OwnedBy h) :
    ∃ w', release h.place t w h.opening = (.ok (), w') ∧ w'.Vacant := by
  obtain ⟨es, hsite⟩ := hw.exists_folder
  obtain ⟨⟨site, files, pinned⟩, locks, next⟩ := w
  cases hsite
  obtain ⟨site, hrelease, hsite⟩ := release_named (fresh_folder.mp ht)
    (find_folder_eq_ok.mp hw.published) (lockedByOther_eq_false hw.alone _ _)
  refine ⟨_, hrelease, ⟨hw.toSound.later ?_ le_rfl List.filter_sublist.subset le_rfl, ?_, ?_⟩⟩
  · rintro name e hfind
    obtain rfl | rfl := hsite
    · cases hfind
    · exact find_of_erase hfind
  · rintro look make hblocked
    obtain rfl | rfl := hsite <;> cases hblocked
  · rintro e hfind
    obtain rfl | rfl := hsite
    · cases hfind
    · rw [find_folder_eq_ok, Table.find?_erase, if_pos rfl] at hfind
      cases hfind

/-- An owner that goes away leaves a stale address file. -/
theorem close_owned (hw : w.OwnedBy h) : (w.close h.opening).Vacant where
  toSound := hw.toSound.later (fun _ _ hfind => hfind) le_rfl List.filter_sublist.subset le_rfl
  reachable look make hblocked := by
    obtain ⟨es, hsite⟩ := hw.exists_folder
    cases hblocked.symm.trans hsite
  unlocked e hfind := by
    obtain rfl := Except.ok.inj (hfind.symm.trans hw.published)
    refine ⟨_, rfl, fun l hl hfile => ?_⟩
    obtain ⟨hl, hne⟩ := List.mem_filter.mp hl
    exact of_decide_eq_true hne (hw.alone l hl hfile)

theorem vacant_of_release (hw : w.OwnedBy h) (t : Stamp) :
    (release h.place t w h.opening).2.Vacant := by
  by_cases ht : h.place.Fresh w.disk t
  · obtain ⟨w', hrelease, hw'⟩ := release_owned ht hw
    rwa [hrelease]
  · obtain ⟨es, files, pinned, e, hdisk, he⟩ := exists_of_not_fresh ht
    have hname := hw.published
    rw [hdisk, find_folder_eq_ok] at hname
    have hlink : w.disk.link addressFile (h.place.temporary t) = .error .exists := by
      rw [hdisk]
      exact link_of_taken hname he
    have hfree : w.lockedByOther h.opening = false := lockedByOther_eq_false hw.alone _ _
    simp only [release, hfree, hlink]
    exact close_owned (hw.drop (temporary_ne _ t))

/-! ## Any number of turns -/

/-- Nobody holds the directory, or just one does and it can be seen who. -/
inductive Contest.Settled : Contest → Prop
  | vacant {w : World} (hw : w.Vacant) : Settled ⟨w, []⟩
  | owned {h : Holding} {w : World} (hw : w.OwnedBy h) : Settled ⟨w, [h]⟩

namespace Contest

variable {c : Contest}

theorem Settled.step (hc : c.Settled) (turn : Turn) : (c.step turn).Settled := by
  -- with nobody there only an attempt matters; an owner loses the directory by its own turns alone
  cases hc with
  | vacant hw =>
    cases turn with
    | acquire p t t' address =>
      rcases acquire_vacant_cases hw p t t' address with ⟨o, w', hacquire, hw'⟩ |
        ⟨f, w', hacquire, hw'⟩ <;> simp only [Contest.step, hacquire]
      · exact .owned hw'
      · exact .vacant hw'
    | release i t => exact .vacant hw
    | drop i => exact .vacant hw
  | owned hw =>
    cases turn with
    | acquire p t t' address =>
      obtain ⟨f, w', hacquire, hw'⟩ := acquire_of_owned hw p t t' address
      simp only [Contest.step, hacquire]
      exact .owned hw'
    | release i t =>
      cases i with
      | zero => exact .vacant (vacant_of_release hw t)
      | succ i => exact .owned hw
    | drop i =>
      cases i with
      | zero => exact .vacant (close_owned hw)
      | succ i => exact .owned hw

theorem Settled.run (hc : c.Settled) (turns : List Turn) : (c.run turns).Settled := by
  induction turns generalizing c with
  | nil => exact hc
  | cons turn turns ih => exact ih (hc.step turn)

/-- However a directory that nobody has locked is taken and given up, there is at most one
outstanding lock. While there is one its record stands in the address file and every other attempt
fails with what the record tells, leaving names and contents as they are. While there is none the
next attempt succeeds. Only what an attempt itself does depends on its temporary names not being in
use. -/
theorem one_owner_at_a_time {w : World} (hw : w.Vacant) (turns : List Turn) :
    let c := run ⟨w, []⟩ turns
    c.held.length ≤ 1 ∧
      (∀ h ∈ c.held, c.world.disk.read addressFile = .ok (Utf8.encode h.line) ∧
        ∀ p t t' address, p.Fresh c.world.disk t → ∃ w', acquire p t t' c.world address =
            (.error (.lockHeld p.addressPath (.ofContents h.line)), w') ∧
          w'.disk.listing = c.world.disk.listing) ∧
      (c.held = [] → ∀ p t t' address, p.Fresh c.world.disk t → p.Fresh c.world.disk t' →
        ∃ o w', acquire p t t' c.world address = (.ok o, w')) := by
  intro c
  have hc : c.Settled := (Settled.vacant hw).run turns
  clear_value c
  cases hc with
  | vacant hw =>
    refine ⟨Nat.zero_le _, nofun, fun _ p t t' address ht ht' => ?_⟩
    obtain ⟨o, w', hacquire, -⟩ := acquire_vacant ht ht' hw address
    exact ⟨o, w', hacquire⟩
  | owned hw =>
    refine ⟨le_rfl, ?_, nofun⟩
    rw [List.forall_mem_singleton]
    refine ⟨?_, fun p t t' address ht => ?_⟩
    · rw [Disk.read, hw.published]
      exact congrArg Except.ok hw.recorded
    · obtain ⟨w', hacquire, hlisting, -⟩ := acquire_owned ht t' hw address
      exact ⟨w', hacquire, hlisting⟩

/-- After a stale file one owner goes away and a second one, without an address, follows. -/
theorem second_owner_stands_alone :
    let first : Place := ⟨"confd", 7⟩
    let second : Place := ⟨"confd", 8⟩
    let stale : World :=
      ⟨⟨.folder (Table.empty.insert addressFile (.file 0)), [[0x37, 0x3A, 0x0A]], false⟩, [], 0⟩
    let turns : List Turn :=
      [.acquire first ⟨0, 0⟩ ⟨0, 1⟩ (some "/run/a"), .acquire second ⟨0, 0⟩ ⟨0, 1⟩ none, .drop 0,
        .acquire second ⟨5, 2⟩ ⟨6, 3⟩ none]
    let c := run ⟨stale, []⟩ turns
    c.held = [⟨second, none, ⟨5, 6⟩⟩] ∧ ∃ w',
      acquire first ⟨0, 2⟩ ⟨0, 3⟩ c.world (some "/run/a") =
        (.error (.lockHeld "confd/ior" (.placeholder (some 8))), w') ∧
      w'.disk.listing = c.world.disk.listing := by
  intro first second stale turns c
  have hnone : ∀ name, name ≠ addressFile → stale.disk.find name = .error .notFound := by
    intro name hname
    rw [find_folder, Table.find?_insert, if_neg hname, Table.find?_empty]
  have hstale : stale.Vacant := by
    refine ⟨⟨fun name n hn => ?_, nofun, nofun⟩, nofun, fun e he => ?_⟩
    · by_cases hname : name = addressFile
      · subst hname; cases hn; exact Nat.one_pos
      · rw [hnone name hname] at hn; cases hn
    · cases he; exact ⟨0, rfl, nofun⟩
  have hheld : c.held = [⟨second, none, ⟨5, 6⟩⟩] := by decide +kernel
  have hholder :
      Holder.ofContents (Holding.line ⟨second, none, ⟨5, 6⟩⟩) = .placeholder (some 8) := by
    decide +kernel
  obtain ⟨-, howned, -⟩ := one_owner_at_a_time hstale turns
  have hc : c = run ⟨stale, []⟩ _ := rfl
  rw [← hc] at howned
  obtain ⟨-, hothers⟩ := howned ⟨second, none, ⟨5, 6⟩⟩ (hheld ▸ List.mem_cons_self)
  obtain ⟨w', hacquire, hlisting⟩ := hothers first ⟨0, 2⟩ ⟨0, 3⟩ (some "/run/a")
    (by decide +kernel)
  have hpath : first.addressPath = "confd/ior" := by decide +kernel
  rw [hpath, hholder] at hacquire
  exact ⟨hheld, w', hacquire, hlisting⟩

end Contest

end ConfigDaemon.Lock
