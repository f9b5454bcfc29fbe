import Mathlib.Order.Monotone.Basic
import ConfigDaemon.Housekeeping

/-! # Unbroken idleness

The daemon exits at a tick exactly if all ticks have found it idle for as long as its limit says.
Calls are served while a tick waits for the log and for the clients that it pings, so a tick may
find any state when it looks, and another one when it looks again after its sweep.
-/

namespace ConfigDaemon

namespace Housekeeper

/-! ## One tick -/

variable {h : Housekeeper} {t : Tick} {limit : Nat}

/-- The state that a tick finds when it looks whether the daemon is idle. -/
def found (h : Housekeeper) (t : Tick) : Core :=
  t.before (h.tidy t).2

def foundAgain (h : Housekeeper) (t : Tick) : Core :=
  t.between ((h.found t).sweep t.order t.ping).2

/-- When the tick comes, idleness has lasted for the limit. If the daemon is idle, the tick sweeps
and looks again. -/
def IsDue (h : Housekeeper) (t : Tick) : Prop :=
  ∃ limit ∈ h.upkeep.idleExit, limit ≤ t.now - h.idleSince.getD t.now

def FindsIdle (h : Housekeeper) (t : Tick) : Prop :=
  (h.found t).isIdle = true ∧ (h.IsDue t → (h.foundAgain t).isIdle = true)

instance (h : Housekeeper) (t : Tick) : Decidable (h.IsDue t) :=
  inferInstanceAs (Decidable (∃ limit ∈ h.upkeep.idleExit, limit ≤ t.now - h.idleSince.getD t.now))

instance (h : Housekeeper) (t : Tick) : Decidable (h.FindsIdle t) :=
  inferInstanceAs (Decidable (_ ∧ (h.IsDue t → _)))

@[simp]
theorem tidy_upkeep (h : Housekeeper) (t : Tick) : (h.tidy t).1.upkeep = h.upkeep := by
  unfold tidy
  dsimp only
  split <;> split <;> rfl

@[simp]
theorem tidy_idleSince (h : Housekeeper) (t : Tick) : (h.tidy t).1.idleSince = h.idleSince := by
  unfold tidy
  dsimp only
  split <;> split <;> rfl

theorem isDue_iff (hlimit : h.upkeep.idleExit = some limit) :
    h.IsDue t ↔ limit ≤ t.now - h.idleSince.getD t.now := by
  simp [IsDue, hlimit]

/-- All that a tick does under a limit: what it decides, since when it takes the daemon for idle,
and the state that it leaves. -/
theorem tick_eq (hserving : t.core.inShutdown = false) (hlimit : h.upkeep.idleExit = some limit) :
    h.tick t =
      (if h.FindsIdle t ∧ h.IsDue t then .exit else .goOn,
        { (h.tidy t).1 with
          idleSince := if h.FindsIdle t then some (h.idleSince.getD t.now) else none },
        if (h.found t).isIdle = true ∧ h.IsDue t then h.foundAgain t else h.found t) := by
  have htick : h.tick t =
      let checked := (h.tidy t).1.checkIdle t limit (h.found t)
      (if checked.1 then .exit else .goOn, checked.2) := by
    simp only [tick, hserving, tidy_upkeep, hlimit]
    rfl
  rw [htick, checkIdle, tidy_idleSince]
  cases hidle : (h.found t).isIdle with
  | false => simp [FindsIdle, hidle]
  | true =>
    by_cases hdue : h.IsDue t
    · have hpassed : ¬ t.now - h.idleSince.getD t.now < limit :=
        Nat.not_lt.mpr ((isDue_iff hlimit).mp hdue)
      cases hagain : (h.foundAgain t).isIdle <;> rw [foundAgain] at hagain <;>
        simp [FindsIdle, hidle, hdue, hpassed, hagain, foundAgain]
    · have hearly : t.now - h.idleSince.getD t.now < limit :=
        Nat.lt_of_not_le (mt (isDue_iff hlimit).mpr hdue)
      simp [FindsIdle, hidle, hdue, hearly]

theorem tick_ne_exit (hlimit : h.upkeep.idleExit = none) : (h.tick t).1 ≠ .exit := by
  simp only [tick, tidy_upkeep, hlimit]
  split <;> exact nofun

@[simp]
theorem tick_upkeep (h : Housekeeper) (t : Tick) : (h.tick t).2.1.upkeep = h.upkeep := by
  cases hserving : t.core.inShutdown with
  | true => simp [tick, hserving]
  | false =>
    cases hlimit : h.upkeep.idleExit with
    | none => simp [tick, hserving, hlimit]
    | some limit => rw [tick_eq hserving hlimit, tidy_upkeep]

/-! ## Tick after tick -/

def after (h : Housekeeper) (ticks : ℕ → Tick) : ℕ → Housekeeper
  | 0 => h
  | n + 1 => ((h.after ticks n).tick (ticks n)).2.1

def IdleAt (h : Housekeeper) (ticks : ℕ → Tick) (n : ℕ) : Prop :=
  (h.after ticks n).FindsIdle (ticks n)

instance (h : Housekeeper) (ticks : ℕ → Tick) (n : ℕ) : Decidable (h.IdleAt ticks n) :=
  inferInstanceAs (Decidable ((h.after ticks n).FindsIdle (ticks n)))

/-- The housekeeper decides to exit at the tick of this number. -/
def ExitsAt (h : Housekeeper) (ticks : ℕ → Tick) (n : ℕ) : Prop :=
  ((h.after ticks n).tick (ticks n)).1 = .exit

/-- Since when the daemon would be idle if it is so at the tick of this number. -/
def startOfIdleness (h : Housekeeper) (ticks : ℕ → Tick) (n : ℕ) : Nat :=
  (h.after ticks n).idleSince.getD (ticks n).now

variable {ticks : ℕ → Tick} {n first : ℕ}

theorem after_upkeep (h : Housekeeper) (ticks : ℕ → Tick) (n : ℕ) :
    (h.after ticks n).upkeep = h.upkeep := by
  induction n with
  | zero => rfl
  | succ n ih => rw [after, tick_upkeep, ih]

theorem exitsAt_iff (hserving : (ticks n).core.inShutdown = false)
    (hlimit : h.upkeep.idleExit = some limit) :
    h.ExitsAt ticks n ↔
      h.IdleAt ticks n ∧ limit ≤ (ticks n).now - h.startOfIdleness ticks n := by
  have hkept : (h.after ticks n).upkeep.idleExit = some limit := by rw [after_upkeep, hlimit]
  rw [startOfIdleness, ← isDue_iff hkept, ExitsAt, tick_eq hserving hkept]
  simp only [IdleAt, ite_eq_left_iff, reduceCtorEq, imp_false, not_not]

/-- Idleness goes on at a tick that finds the daemon idle; after another it begins anew. -/
theorem startOfIdleness_succ (hserving : (ticks n).core.inShutdown = false)
    (hlimit : h.upkeep.idleExit = some limit) :
    h.startOfIdleness ticks (n + 1) =
      if h.IdleAt ticks n then h.startOfIdleness ticks n else (ticks (n + 1)).now := by
  have hkept : (h.after ticks n).upkeep.idleExit = some limit := by rw [after_upkeep, hlimit]
  have hmark : (h.after ticks (n + 1)).idleSince =
      if h.IdleAt ticks n then some (h.startOfIdleness ticks n) else none :=
    congrArg (·.2.1.idleSince) (tick_eq hserving hkept)
  rw [startOfIdleness, hmark]
  split <;> rfl

theorem exists_startOfIdleness (hfresh : h.idleSince = none)
    (hlimit : h.upkeep.idleExit = some limit)
    (hserving : ∀ i < n, (ticks i).core.inShutdown = false) :
    ∃ first ≤ n, (ticks first).now = h.startOfIdleness ticks n ∧
      ∀ i, first ≤ i → i < n → h.IdleAt ticks i := by
  induction n with
  | zero => exact ⟨0, le_rfl, by simp [startOfIdleness, after, hfresh], fun i _ hi => by omega⟩
  | succ n ih =>
    rw [startOfIdleness_succ (hserving n n.lt_succ_self) hlimit]
    split
    · rename_i hidle
      obtain ⟨first, hfirst, htime, hsince⟩ := ih fun i hi => hserving i (by omega)
      refine ⟨first, by omega, htime, fun i hge hi => ?_⟩
      rcases Nat.lt_succ_iff_lt_or_eq.mp hi with hi | rfl
      · exact hsince i hge hi
      · exact hidle
    · exact ⟨n + 1, le_rfl, rfl, fun i hge hi => by omega⟩

theorem startOfIdleness_le (htimes : Monotone fun n => (ticks n).now) (hfresh : h.idleSince = none)
    (hlimit : h.upkeep.idleExit = some limit)
    (hserving : ∀ i < n, (ticks i).core.inShutdown = false) (hfirst : first ≤ n)
    (hidle : ∀ i, first ≤ i → i < n → h.IdleAt ticks i) :
    h.startOfIdleness ticks n ≤ (ticks first).now := by
  induction n generalizing first with
  | zero =>
    obtain rfl : first = 0 := by omega
    simp [startOfIdleness, after, hfresh]
  | succ n ih =>
    have hbefore : ∀ {first}, first ≤ n → (∀ i, first ≤ i → i < n → h.IdleAt ticks i) →
        h.startOfIdleness ticks n ≤ (ticks first).now :=
      ih fun i hi => hserving i (by omega)
    rw [startOfIdleness_succ (hserving n n.lt_succ_self) hlimit]
    rcases Nat.le_succ_iff.mp hfirst with hle | rfl
    · rw [if_pos (hidle n hle n.lt_succ_self)]
      exact hbefore hle fun i hge hi => hidle i hge (by omega)
    -- `first` is the tick itself: idleness has gone on since an earlier one, or begins now
    · split
      · have hnow := hbefore le_rfl fun i hge hi => by omega
        exact hnow.trans (htimes n.le_succ)
      · exact le_rfl

/-- Under a limit, the decision to exit says that idleness began at a tick by the limit earlier. -/
theorem exitsAt_iff_idle (htimes : Monotone fun i => (ticks i).now) (hfresh : h.idleSince = none)
    (hlimit : h.upkeep.idleExit = some limit)
    (hserving : ∀ i ≤ n, (ticks i).core.inShutdown = false) :
    h.ExitsAt ticks n ↔ ∃ first ≤ n, (ticks first).now + limit ≤ (ticks n).now ∧
      ∀ i, first ≤ i → i ≤ n → h.IdleAt ticks i := by
  have hbefore : ∀ i < n, (ticks i).core.inShutdown = false := fun i hi => hserving i hi.le
  rw [exitsAt_iff (hserving n le_rfl) hlimit]
  constructor
  · rintro ⟨hidle, hpassed⟩
    obtain ⟨first, hfirst, htime, hsince⟩ := exists_startOfIdleness hfresh hlimit hbefore
    have hnow : (ticks first).now ≤ (ticks n).now := htimes hfirst
    refine ⟨first, hfirst, by omega, fun i hge hi => ?_⟩
    rcases hi.lt_or_eq with hi | rfl
    · exact hsince i hge hi
    · exact hidle
  · rintro ⟨first, hfirst, htime, hidle⟩
    have hstart : h.startOfIdleness ticks n ≤ (ticks first).now :=
      startOfIdleness_le htimes hfresh hlimit hbefore hfirst fun i hge hi => hidle i hge hi.le
    exact ⟨hidle n hfirst le_rfl, by omega⟩

/-- As long as the daemon serves, its housekeeper decides to exit at a tick exactly if this tick and
all ticks back to one that came by the limit earlier have found the daemon idle, each whenever it
looked. So a tick that did not makes it wait for the whole limit again, and without a limit it
never exits. -/
theorem exits_iff_idle_throughout (upkeep : Upkeep) (began : Nat) (ticks : ℕ → Tick) (n : ℕ)
    (htimes : Monotone fun i => (ticks i).now)
    (hserving : ∀ i ≤ n, (ticks i).core.inShutdown = false) :
    let h := start upkeep began
    (h.ExitsAt ticks n ↔
      ∃ limit ∈ upkeep.idleExit, ∃ first ≤ n, (ticks first).now + limit ≤ (ticks n).now ∧
        ∀ i, first ≤ i → i ≤ n → h.IdleAt ticks i) ∧
    ∀ busy ≤ n, ¬ h.IdleAt ticks busy → h.ExitsAt ticks n →
      ∃ limit ∈ upkeep.idleExit, ∃ first ≤ n, busy < first ∧
        (ticks first).now + limit ≤ (ticks n).now := by
  intro h
  have hiff : h.ExitsAt ticks n ↔
      ∃ limit ∈ h.upkeep.idleExit, ∃ first ≤ n, (ticks first).now + limit ≤ (ticks n).now ∧
        ∀ i, first ≤ i → i ≤ n → h.IdleAt ticks i := by
    cases hlimit : h.upkeep.idleExit with
    | none =>
      have hstays : ¬ h.ExitsAt ticks n := tick_ne_exit (by rw [after_upkeep, hlimit])
      simp [hstays]
    | some limit =>
      rw [exitsAt_iff_idle htimes rfl hlimit hserving]
      simp
  refine ⟨hiff, fun busy hbusy hnot hexits => ?_⟩
  obtain ⟨limit, hlimit, first, hfirst, htime, hidle⟩ := hiff.mp hexits
  have hafter : busy < first := by
    by_contra hle
    exact hnot (hidle busy (by omega) hbusy)
  exact ⟨limit, hlimit, first, hfirst, hafter, htime⟩

/-- A client that comes while the tick at 12 sweeps, and is gone at the next tick, keeps the daemon
up beyond 20. -/
theorem exits_after_passing_client :
    let core := Core.start ⟨"/var/confd", "saved"⟩ 60 .empty
    let calm (now : Nat) := Tick.alone now 0 [] (fun _ => true) core
    let ticks : ℕ → Tick
      | 0 => calm 0
      | 1 => { calm 12 with between := fun c => (c.addClient "/run/c").2 }
      | 2 => calm 14
      | 3 => calm 20
      | _ => calm 24
    let h := start ⟨3600, 3600, some 10⟩ 0
    ¬ h.IdleAt ticks 1 ∧ ¬ h.ExitsAt ticks 3 ∧
      h.ExitsAt ticks 4 := by
  intro core calm ticks h
  have htimes : Monotone fun i => (ticks i).now := by
    refine monotone_nat_of_le_succ fun n => ?_
    rcases n with _ | _ | _ | _ | n <;> simp [ticks, calm, Tick.alone]
  have hserving : ∀ n i, i ≤ n → (ticks i).core.inShutdown = false := by
    rintro - (_ | _ | _ | _ | i) - <;> rfl
  have hbusy : ¬ h.IdleAt ticks 1 := by decide +kernel
  refine ⟨hbusy, fun hexits => ?_, ?_⟩
  · obtain ⟨_, ⟨rfl⟩, first, hfirst, hafter, htime⟩ :=
      (exits_iff_idle_throughout ⟨3600, 3600, some 10⟩ 0 ticks 3 htimes (hserving 3)).2
        1 (by omega) hbusy hexits
    have hlate : (ticks 2).now ≤ (ticks first).now := htimes hafter
    exact absurd (htime.trans' (Nat.add_le_add_right hlate 10)) (by decide)
  · have hidle : ∀ i, 2 ≤ i → i ≤ 4 → h.IdleAt ticks i := by
      intro i hge hi
      obtain rfl | rfl | rfl : i = 2 ∨ i = 3 ∨ i = 4 := by omega
      all_goals decide +kernel
    exact (exits_iff_idle_throughout ⟨3600, 3600, some 10⟩ 0 ticks 4 htimes (hserving 4)).1.mpr
      ⟨10, rfl, 2, by omega, by decide, hidle⟩

end Housekeeper

end ConfigDaemon
