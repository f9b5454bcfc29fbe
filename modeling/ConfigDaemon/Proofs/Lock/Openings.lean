import ConfigDaemon.Proofs.Lock.Election

/-! # Locks that come and go

Whoever tries to become the owner opens files under new numbers. The only lock that this leaves is
the one of a new owner, on a file that nobody had locked; giving a directory up takes none but the
lock of the one who does.
-/

namespace ConfigDaemon.Lock

namespace World

variable {w w' w'' : World} {o : Opening} {o? : Option Opening}

def Numbered (w : World) : Prop :=
  ∀ l ∈ w.locks, l.number < w.nextOpening

/-- Openings have come, and at most one lock, on a file that nobody had locked. -/
structure Takes (w : World) (o? : Option Opening) (w' : World) : Prop where
  openings_le : w.nextOpening ≤ w'.nextOpening
  locks : w'.locks = w.locks ++ o?.toList
  fresh : ∀ o ∈ o?, w.nextOpening ≤ o.number ∧ o.number < w'.nextOpening ∧
    ∀ l ∈ w.locks, l.file ≠ o.file

theorem takes_refl (w : World) : Takes w none w :=
  ⟨le_rfl, (List.append_nil _).symm, nofun⟩

theorem Takes.trans (h : Takes w none w') (h' : Takes w' o? w'') : Takes w o? w'' := by
  have hlocks : w'.locks = w.locks := h.locks.trans (List.append_nil _)
  refine ⟨h.openings_le.trans h'.openings_le, hlocks ▸ h'.locks, fun o ho => ?_⟩
  obtain ⟨hopened, hnumber, hfree⟩ := h'.fresh o ho
  exact ⟨h.openings_le.trans hopened, hnumber, hlocks ▸ hfree⟩

theorem Takes.withDisk (h : Takes w o? w') (d : Disk) : Takes w o? (w'.withDisk d) :=
  ⟨h.openings_le, h.locks, h.fresh⟩

theorem Takes.drop (h : Takes w o? w') (name : String) : Takes w o? (w'.drop name) :=
  h.withDisk _

theorem takes_openNew (w : World) (file : Nat) : Takes w none (w.openNew file).2 :=
  ⟨Nat.le_succ _, (List.append_nil _).symm, nofun⟩

/-- A new opening that gets the lock on its file is the only one to have it. -/
theorem takes_tryLock (hw : w.Numbered) {file : Nat}
    (h : (w.openNew file).2.tryLock (w.openNew file).1 = some w') :
    Takes w (some (w.openNew file).1) w' := by
  have hnumber : ∀ l ∈ w.locks, l.number ≠ w.nextOpening := fun l hl => (hw l hl).ne
  have hnew : (w.openNew file).1 ∉ (w.openNew file).2.locks := fun ho => hnumber _ ho rfl
  rw [tryLock, if_neg hnew] at h
  split at h
  · cases h
  · rename_i hother
    cases h
    refine ⟨Nat.le_succ _, rfl, ?_⟩
    rintro _ ⟨⟩
    refine ⟨le_rfl, Nat.lt_succ_self _, fun l hl hsame => hother ?_⟩
    exact List.any_eq_true.mpr ⟨l, hl, decide_eq_true ⟨hsame, hnumber l hl⟩⟩

theorem Takes.close (hw : w.Numbered) (h : Takes w (some o) w') : Takes w none (w'.close o) := by
  have hnew : ∀ l ∈ w.locks, l ≠ o := by
    rintro l hl rfl
    exact absurd (hw l hl) (Nat.not_lt.mpr (h.fresh l rfl).1)
  refine ⟨h.openings_le, ?_, nofun⟩
  rw [World.close, h.locks, List.filter_append,
    List.filter_eq_self.mpr fun l hl => decide_eq_true (hnew l hl)]
  simp

theorem Takes.numbered (hw : w.Numbered) (h : Takes w o? w') : w'.Numbered := by
  intro l hl
  rw [h.locks, List.mem_append, Option.mem_toList] at hl
  rcases hl with hl | hl
  · exact (hw l hl).trans_le h.openings_le
  · exact (h.fresh l hl).2.1

/-- The opening has the lock on its file, and nobody else can get it. -/
structure Secures (w : World) (o : Opening) : Prop where
  held : o ∈ w.locks
  alone : ∀ l ∈ w.locks, l.file = o.file → l = o

theorem Takes.secures_new (h : Takes w (some o) w') : w'.Secures o where
  held := h.locks ▸ List.mem_append_right _ List.mem_cons_self
  alone l hl hfile := by
    rw [h.locks, List.mem_append] at hl
    rcases hl with hl | hl
    · exact absurd hfile ((h.fresh o rfl).2.2 l hl)
    · exact List.mem_singleton.mp hl

theorem Secures.mono (hw : w.Secures o) (hheld : o ∈ w'.locks)
    (hlocks : w'.locks ⊆ w.locks) : w'.Secures o :=
  ⟨hheld, fun l hl => hw.alone l (hlocks hl)⟩

theorem Secures.not_lockedByOther (hw : w.Secures o) :
    w.lockedByOther o = false :=
  lockedByOther_eq_false hw.alone w.disk w.nextOpening

theorem foldl_close (os : List Opening) (w : World) :
    (os.foldl (·.close ·) w).locks = w.locks.filter (· ∉ os) ∧
      (os.foldl (·.close ·) w).nextOpening = w.nextOpening := by
  induction os generalizing w with
  | nil => simp
  | cons o os ih =>
    obtain ⟨hlocks, hnext⟩ := ih (w.close o)
    refine ⟨hlocks.trans ?_, hnext⟩
    simp only [close, List.filter_filter, List.mem_cons, not_or, Bool.decide_and, ne_eq,
      Bool.and_comm]

end World

open World

variable {p : Place} {w w' : World}

theorem takes_createLocked (hw : w.Numbered) (p : Place) (t : Stamp) (record : Bytes) :
    Takes w (createLocked p t w record).1.toOption.join (createLocked p t w record).2 := by
  unfold createLocked
  simp only
  split
  · exact (takes_refl w).drop _
  · rename_i file disk hcreate
    have hmade := (takes_refl w).withDisk disk
    split
    · exact (hmade.trans (takes_openNew _ file)).drop _
    · rename_i w₁ htry
      have hlocked := hmade.trans (takes_tryLock (hmade.numbered hw) htry)
      have hwritten := hlocked.withDisk (w₁.disk.append file record)
      -- only the opening whose file became the address file stays; else it is closed with its lock
      split
      · exact (hwritten.withDisk _).drop _
      · exact (hwritten.drop _).close hw
      · exact (hwritten.drop _).close hw

theorem takes_clearStale (hw : w.Numbered) (h : clearStale p w = .ok w') : Takes w none w' := by
  unfold clearStale at h
  simp only at h
  split at h
  · cases h; exact takes_refl w
  · cases h
  · cases h
  · split at h
    · cases h
    · rename_i w₁ htry
      cases h
      exact ((takes_tryLock hw htry).drop _).close hw

/-- An attempt to become the owner adds the lock of the new owner, if there is one. -/
theorem takes_acquire (hw : w.Numbered) (p : Place) (t t' : Stamp) (address : Option String) :
    Takes w (acquire p t t' w address).1.toOption (acquire p t t' w address).2 := by
  unfold acquire
  split
  · exact takes_refl w
  · rename_i disk hmake
    have hmade := (takes_refl w).withDisk disk
    have hfirst := takes_createLocked (hmade.numbered hw) p t
      (Text.Utf8.encode (Holder.record p.pid address))
    simp only
    split
    · rename_i hcreate
      rw [hcreate] at hfirst
      exact hmade.trans hfirst
    · rename_i hcreate
      rw [hcreate] at hfirst
      exact hmade.trans hfirst
    · rename_i w₁ hcreate
      rw [hcreate] at hfirst
      have hfirst := hmade.trans hfirst
      split
      · exact hfirst
      · rename_i w₂ hclear
        have hcleared := hfirst.trans (takes_clearStale (hfirst.numbered hw) hclear)
        have hsecond := takes_createLocked (hcleared.numbered hw) p t'
          (Text.Utf8.encode (Holder.record p.pid address))
        split
        all_goals
          rename_i hcreate
          rw [hcreate] at hsecond
          exact hcleared.trans hsecond

theorem locks_release (p : Place) (t : Stamp) (w : World) (o : Opening) :
    (release p t w o).2.locks = w.locks.filter (· ≠ o) ∧
      (release p t w o).2.nextOpening = w.nextOpening := by
  unfold release
  split
  · exact ⟨rfl, rfl⟩
  · simp only
    split
    · exact ⟨rfl, rfl⟩
    · split
      · exact ⟨rfl, rfl⟩
      · split <;> exact ⟨rfl, rfl⟩

end ConfigDaemon.Lock
