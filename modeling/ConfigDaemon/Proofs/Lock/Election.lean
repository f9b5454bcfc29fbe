import Mathlib.Order.Nat
import ConfigDaemon.Lock.Election
import ConfigDaemon.Proofs.Disk
import ConfigDaemon.Proofs.Text.Utf8

/-! # Taking and giving up a lock directory

What it takes to become the owner of a lock directory, and what is left of the attempt, depends on
the address file alone: it may be free, stale or locked. A temporary name comes and goes; an attempt
whose temporary name is taken fails.
-/

namespace ConfigDaemon.Lock

open Text Disk

/-- No entry has the temporary name. -/
def Place.Fresh (p : Place) (d : Disk) (t : Stamp) : Prop :=
  d.has (p.temporary t) = false

instance (p : Place) (d : Disk) (t : Stamp) : Decidable (p.Fresh d t) :=
  inferInstanceAs (Decidable (_ = _))

/-! ## Temporary names -/

variable {p : Place} {es : Table String Entry} {files : List Bytes} {pinned : Bool}
  {locks : List Opening} {next n : Nat} {o : Opening} {record : Bytes} {t t' : Stamp}

/-- A temporary name begins with a digit. -/
theorem temporary_ne (p : Place) (t : Stamp) : p.temporary t ≠ addressFile := by
  intro he
  have he := congrArg String.toList he
  rw [Place.temporary, String.toList_ofList] at he
  obtain ⟨c, digits, hdigits⟩ := List.exists_cons_of_ne_nil (decimal_ne_nil p.pid.toNat)
  have hdigit : isDigit c = true := isDigit_decimal (hdigits ▸ List.mem_cons_self)
  rw [hdigits] at he
  rw [(List.cons.inj he).1] at hdigit
  exact absurd hdigit (by decide)

theorem exists_of_not_fresh {d : Disk} (h : ¬ p.Fresh d t) :
    ∃ es files pinned e, d = ⟨.folder es, files, pinned⟩ ∧
      es.find? (p.temporary t) = some e := by
  rw [Place.Fresh, Bool.not_eq_false, has] at h
  cases hfind : d.find (p.temporary t) with
  | error f =>
    rw [hfind] at h
    cases h
  | ok e =>
    obtain ⟨es, files, pinned, rfl, he⟩ := exists_of_find_ok hfind
    exact ⟨es, files, pinned, e, rfl, he⟩

theorem fresh_folder : p.Fresh ⟨.folder es, files, pinned⟩ t ↔ es.find? (p.temporary t) = none := by
  rw [Place.Fresh, has_folder, Option.isSome_eq_false_iff, Option.isNone_iff_eq_none]

/-! ## Locks -/

theorem lockedByOther_eq_false (h : ∀ l ∈ locks, l.file = o.file → l = o) (d : Disk) (next : Nat) :
    (⟨d, locks, next⟩ : World).lockedByOther o = false := by
  rw [World.lockedByOther, List.any_eq_false]
  intro l hl hother
  obtain ⟨hf, hn⟩ := of_decide_eq_true hother
  exact hn (congrArg Opening.number (h l hl hf))

theorem tryLock_unlocked (h : ∀ l ∈ locks, l.file ≠ o.file) (d : Disk) (next : Nat) :
    (⟨d, locks, next⟩ : World).tryLock o = some ⟨d, locks ++ [o], next⟩ := by
  have hnot : o ∉ locks := fun ho => h o ho rfl
  rw [World.tryLock, lockedByOther_eq_false fun l hl hf => absurd hf (h l hl)]
  simp [hnot]

theorem close_locked (h : o ∉ locks) (d : Disk) (next : Nat) :
    (⟨d, locks ++ [o], next⟩ : World).close o = ⟨d, locks, next⟩ := by
  have hkeep : locks.filter (· ≠ o) = locks :=
    List.filter_eq_self.mpr fun l hl => decide_eq_true fun he => h (he ▸ hl)
  rw [World.close, List.filter_append, hkeep]
  simp

/-! ## Becoming the owner -/

section Create

variable (pinned next record)

theorem tryLock_newest (hlocks : ∀ l ∈ locks, l.file < files.length) (d : Disk) (number : Nat) :
    (⟨d, locks, next⟩ : World).tryLock ⟨files.length, number⟩ =
      some ⟨d, locks ++ [⟨files.length, number⟩], next⟩ :=
  tryLock_unlocked (fun l hl => (hlocks l hl).ne) d next

theorem createLocked_free (ht : es.find? (p.temporary t) = none)
    (hlocks : ∀ l ∈ locks, l.file < files.length) (h : es.find? addressFile = none) :
    createLocked p t ⟨⟨.folder es, files, pinned⟩, locks, next⟩ record =
      (.ok (some ⟨files.length, next⟩),
        ⟨⟨.folder (es.insert addressFile (.file files.length)), files ++ [record], pinned⟩,
          locks ++ [⟨files.length, next⟩], next + 1⟩) := by
  have hne := temporary_ne p t
  simp only [createLocked, createFile_free ht, World.withDisk, World.openNew,
    tryLock_newest _ hlocks, append_newest]
  generalize p.temporary t = name at hne ht ⊢
  have hlink : (⟨.folder _, files ++ [record], pinned⟩ : Disk).link name addressFile = _ :=
    link_file (Table.find?_insert_self es name (.file files.length))
      ((Table.find?_insert es name addressFile _).trans ((if_neg hne.symm).trans h))
  have hname : ((es.insert name (.file files.length)).insert addressFile
      (.file files.length)).find? name = some (.file files.length) := by
    rw [Table.find?_insert, if_neg hne, Table.find?_insert_self]
  simp only [hlink, World.drop, World.withDisk, unlink_file hname, Except.toOption,
    Option.getD_some, Table.erase_insert_of_ne _ _ hne.symm, Table.erase_insert_self _ ht]

/-- There is an address file: nothing is left of the attempt but a file without a name. -/
theorem createLocked_taken (ht : es.find? (p.temporary t) = none)
    (hlocks : ∀ l ∈ locks, l.file < files.length) {e : Entry}
    (h : es.find? addressFile = some e) :
    createLocked p t ⟨⟨.folder es, files, pinned⟩, locks, next⟩ record =
      (.ok none, ⟨⟨.folder es, files ++ [record], pinned⟩, locks, next + 1⟩) := by
  have hne := temporary_ne p t
  simp only [createLocked, createFile_free ht, World.withDisk, World.openNew,
    tryLock_newest _ hlocks, append_newest]
  generalize p.temporary t = name at hne ht ⊢
  have hname := Table.find?_insert_self es name (.file files.length)
  have hlink : (⟨.folder _, files ++ [record], pinned⟩ : Disk).link name addressFile = _ :=
    link_of_taken hname
      ((Table.find?_insert es name addressFile _).trans ((if_neg hne.symm).trans h))
  have hnot : (⟨files.length, next⟩ : Opening) ∉ locks := fun ho => (hlocks _ ho).ne rfl
  simp only [hlink, World.drop, World.withDisk, unlink_file hname, Except.toOption,
    Option.getD_some, Table.erase_insert_self _ ht, close_locked hnot]

/-- The temporary name is that of something else, which loses it if it is a file. -/
theorem createLocked_collides {w : World} (h : ¬ p.Fresh w.disk t) :
    createLocked p t w record =
      (.error (.lockFailed (p.path (p.temporary t)) "could not create temporary file"
        (some Fault.exists.message)), w.drop (p.temporary t)) := by
  obtain ⟨es, files, pinned, e, hdisk, he⟩ := exists_of_not_fresh h
  simp only [createLocked, hdisk, createFile_taken he]

end Create

theorem clearStale_unlocked (h : es.find? addressFile = some (.file n))
    (hfree : ∀ l ∈ locks, l.file ≠ n) :
    clearStale p ⟨⟨.folder es, files, pinned⟩, locks, next⟩ =
      .ok ⟨⟨.folder (es.erase addressFile), files, pinned⟩, locks, next + 1⟩ := by
  have htry := tryLock_unlocked (o := ⟨n, next⟩) hfree ⟨.folder es, files, pinned⟩ (next + 1)
  have hnot : (⟨n, next⟩ : Opening) ∉ locks := fun ho => hfree _ ho rfl
  simp only [clearStale, find_folder, h, World.openNew, htry, World.drop, World.withDisk,
    unlink_file h, Except.toOption, Option.getD_some]
  rw [close_locked hnot]

theorem clearStale_locked (h : es.find? addressFile = some (.file n)) (ho : o ∈ locks)
    (hfile : o.file = n) (hnumber : o.number ≠ next) :
    clearStale p ⟨⟨.folder es, files, pinned⟩, locks, next⟩ =
      .error (heldFailure p ⟨.folder es, files, pinned⟩) := by
  have hlocked : (⟨⟨.folder es, files, pinned⟩, locks, next + 1⟩ : World).lockedByOther ⟨n, next⟩ =
      true := by
    rw [World.lockedByOther, List.any_eq_true]
    exact ⟨o, ho, decide_eq_true ⟨hfile, hnumber⟩⟩
  simp only [clearStale, find_folder, h, World.openNew, World.tryLock, hlocked]
  rfl

theorem heldFailure_eq (h : es.find? addressFile = some (.file n)) {pid : UInt32}
    {address : Option String}
    (hrecord : files.getD n [] = Utf8.encode (Holder.record pid address)) :
    heldFailure p ⟨.folder es, files, pinned⟩ =
      .lockHeld p.addressPath (.ofContents (Holder.record pid address)) := by
  have hread : (⟨.folder es, files, pinned⟩ : Disk).readText addressFile =
      .ok (Holder.record pid address) := by
    rw [readText, read_file h, hrecord]
    simp only [textOf, Utf8.decode_encode]
  rw [heldFailure, currentHolder, hread]
  rfl

variable {address : Option String}

theorem acquire_missing :
    acquire p t t' ⟨⟨.missing, files, pinned⟩, locks, next⟩ address =
      acquire p t t' ⟨⟨.folder .empty, files, pinned⟩, locks, next⟩ address := rfl

theorem acquire_free (ht : es.find? (p.temporary t) = none)
    (hlocks : ∀ l ∈ locks, l.file < files.length) (h : es.find? addressFile = none) :
    acquire p t t' ⟨⟨.folder es, files, pinned⟩, locks, next⟩ address =
      (.ok ⟨files.length, next⟩,
        ⟨⟨.folder (es.insert addressFile (.file files.length)),
          files ++ [Utf8.encode (Holder.record p.pid address)], pinned⟩,
          locks ++ [⟨files.length, next⟩], next + 1⟩) := by
  simp only [acquire, makeFolder, World.withDisk, createLocked_free pinned next _ ht hlocks h]

theorem acquire_unlocked (ht : es.find? (p.temporary t) = none)
    (ht' : es.find? (p.temporary t') = none) (hlocks : ∀ l ∈ locks, l.file < files.length)
    (h : es.find? addressFile = some (.file n)) (hfree : ∀ l ∈ locks, l.file ≠ n) :
    let record := Utf8.encode (Holder.record p.pid address)
    acquire p t t' ⟨⟨.folder es, files, pinned⟩, locks, next⟩ address =
      (.ok ⟨(files ++ [record]).length, next + 2⟩,
        ⟨⟨.folder ((es.erase addressFile).insert addressFile (.file (files ++ [record]).length)),
          files ++ [record] ++ [record], pinned⟩,
          locks ++ [⟨(files ++ [record]).length, next + 2⟩], next + 3⟩) := by
  intro record
  have hmore : ∀ l ∈ locks, l.file < (files ++ [record]).length := fun l hl => by
    rw [List.length_append]
    exact Nat.lt_add_right _ (hlocks l hl)
  have hgone : (es.erase addressFile).find? addressFile = none := by
    rw [Table.find?_erase, if_pos rfl]
  have hname : (es.erase addressFile).find? (p.temporary t') = none := by
    rw [Table.find?_erase, if_neg (temporary_ne p t'), ht']
  simp only [acquire, makeFolder, World.withDisk,
    createLocked_taken pinned next _ ht hlocks h, clearStale_unlocked h hfree]
  rw [createLocked_free pinned (next + 2) _ hname hmore hgone]

theorem acquire_locked (ht : es.find? (p.temporary t) = none)
    (hlocks : ∀ l ∈ locks, l.file < files.length) (h : es.find? addressFile = some (.file n))
    (ho : o ∈ locks) (hfile : o.file = n) (hnumber : o.number < next) :
    let disk : Disk :=
      ⟨.folder es, files ++ [Utf8.encode (Holder.record p.pid address)], pinned⟩
    acquire p t t' ⟨⟨.folder es, files, pinned⟩, locks, next⟩ address =
      (.error (heldFailure p disk), ⟨disk, locks, next + 1⟩) := by
  simp only [acquire, makeFolder, World.withDisk, createLocked_taken pinned next _ ht hlocks h,
    clearStale_locked h ho hfile (Nat.ne_of_lt (Nat.lt_succ_of_lt hnumber))]

theorem acquire_collides {w : World} (h : ¬ p.Fresh w.disk t) :
    acquire p t t' w address =
      (.error (.lockFailed (p.path (p.temporary t)) "could not create temporary file"
        (some Fault.exists.message)), w.drop (p.temporary t)) := by
  obtain ⟨es, files, pinned, e, hdisk, -⟩ := exists_of_not_fresh h
  have hmake : w.disk.makeFolder = .ok w.disk := by
    rw [hdisk]
    rfl
  simp only [acquire, hmake, World.withDisk, createLocked_collides _ h]

/-- The second name is that of something else, and the stale address file is gone. -/
theorem acquire_collides_later (ht : es.find? (p.temporary t) = none)
    (ht' : ¬ p.Fresh ⟨.folder es, files, pinned⟩ t') (hlocks : ∀ l ∈ locks, l.file < files.length)
    (h : es.find? addressFile = some (.file n)) (hfree : ∀ l ∈ locks, l.file ≠ n) :
    let record := Utf8.encode (Holder.record p.pid address)
    acquire p t t' ⟨⟨.folder es, files, pinned⟩, locks, next⟩ address =
      (.error (.lockFailed (p.path (p.temporary t')) "could not create temporary file"
          (some Fault.exists.message)),
        World.drop ⟨⟨.folder (es.erase addressFile), files ++ [record], pinned⟩, locks, next + 2⟩
          (p.temporary t')) := by
  intro record
  have htaken : ¬ p.Fresh ⟨.folder (es.erase addressFile), files ++ [record], pinned⟩ t' := by
    rw [fresh_folder] at ht' ⊢
    rwa [Table.find?_erase, if_neg (temporary_ne p t')]
  simp only [acquire, makeFolder, World.withDisk,
    createLocked_taken pinned next _ ht hlocks h, clearStale_unlocked h hfree]
  rw [createLocked_collides _ htaken]

/-! ## Giving the directory up -/

/-- What has the name of the address file loses it, unless the file of the opening is locked by
another one. -/
theorem release_named (ht : es.find? (p.temporary t) = none)
    (h : es.find? addressFile = some (.file n))
    (hother : (⟨⟨.folder es, files, pinned⟩, locks, next⟩ : World).lockedByOther o = false) :
    ∃ site, release p t ⟨⟨.folder es, files, pinned⟩, locks, next⟩ o =
      (.ok (), ⟨⟨site, files, pinned⟩, locks.filter (· ≠ o), next⟩) ∧
      (site = .missing ∨ site = .folder (es.erase addressFile)) := by
  have hne := temporary_ne p t
  simp only [release, hother]
  generalize p.temporary t = name at hne ht ⊢
  have hself : (es.insert name (.file n)).find? addressFile = some (.file n) :=
    (Table.find?_insert es name addressFile _).trans ((if_neg hne.symm).trans h)
  have hname : ((es.insert name (.file n)).erase addressFile).find? name = some (.file n) := by
    rw [Table.find?_erase, if_neg hne, Table.find?_insert_self]
  have hleft : ((es.insert name (.file n)).erase addressFile).erase name =
      es.erase addressFile := by
    rw [Table.erase_comm, Table.erase_insert_self _ ht]
  simp only [link_file h ht, unlink_file hself, World.withDisk, World.close,
    unlink_file hname, hleft]
  rcases hremove : (⟨.folder (es.erase addressFile), files, pinned⟩ : Disk).removeFolder with f | d
  · exact ⟨_, rfl, .inr rfl⟩
  · obtain rfl := removeFolder_ok hremove
    exact ⟨_, rfl, .inl rfl⟩

end ConfigDaemon.Lock
