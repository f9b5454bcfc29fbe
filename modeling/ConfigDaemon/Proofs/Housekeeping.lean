import ConfigDaemon.Housekeeping

/-! # What a tick does

A tick closes an idle log, sweeps and compacts, each of them or not, among the calls that are
served meanwhile. What all of these keep, it keeps.
-/

namespace ConfigDaemon.Housekeeper

variable {P : Core → Prop} {t : Tick} {c : Core}

theorem tidy_induction (hclose : ∀ c elapsed, P c → P (c.closeIdleLog elapsed).2)
    (hsweep : ∀ c, P c → P (c.sweep t.order t.ping).2)
    (hcompact : ∀ c, P c → P (c.compactIfNeeded t.order).2) (h : Housekeeper) (hc : P t.core) :
    P (h.tidy t).2 := by
  have hclosed : P (t.core.closeIdleLog t.unused).2 := hclose t.core t.unused hc
  unfold tidy
  dsimp only
  by_cases hswept : h.upkeep.sweepInterval ≤ t.now - h.lastSweep
  · rw [if_pos hswept]
    dsimp only
    split
    · exact hcompact _ (hsweep _ hclosed)
    · exact hsweep _ hclosed
  · rw [if_neg hswept]
    dsimp only
    split
    · exact hcompact _ hclosed
    · exact hclosed

theorem checkIdle_induction (hsweep : ∀ c, P c → P (c.sweep t.order t.ping).2)
    (hbetween : ∀ c, P c → P (t.between c)) (h : Housekeeper) (limit : Nat) (hc : P c) :
    P (h.checkIdle t limit c).2.2 := by
  unfold checkIdle
  split
  · dsimp only
    split
    · exact hc
    · split <;> exact hbetween _ (hsweep c hc)
  · exact hc

theorem tick_induction (hclose : ∀ c elapsed, P c → P (c.closeIdleLog elapsed).2)
    (hsweep : ∀ c, P c → P (c.sweep t.order t.ping).2)
    (hcompact : ∀ c, P c → P (c.compactIfNeeded t.order).2)
    (hbefore : ∀ c, P c → P (t.before c)) (hbetween : ∀ c, P c → P (t.between c))
    (h : Housekeeper) (hc : P t.core) : P (h.tick t).2.2 := by
  have htidied := hbefore _ (tidy_induction hclose hsweep hcompact h hc)
  unfold tick
  split
  · exact hc
  · dsimp only
    split
    · exact htidied
    · exact checkIdle_induction hsweep hbetween _ _ htidied

end ConfigDaemon.Housekeeper
