/-
  LinuxModules.Lib.WaitEvent

  Sleeping on a wait queue until a condition holds, step by step: the first test
  of the condition, `prepare_to_wait`, the test after it, and the sleep.

  A wakeup marks a task that has prepared itself; in particular it is not lost
  between the second test and the sleep.  What can still go wrong is that the
  condition becomes true and nobody wakes the sleeper.
-/

import Mathlib.Logic.Basic

namespace LinuxModules.Lib

/-- Where a task inside `wait_event` stands; `woken` when a wakeup has come since
    `prepare_to_wait`. -/
inductive Wait where
  | testing
  | preparing
  | prepared (woken : Bool)
  | sleeping (woken : Bool)
  deriving DecidableEq, Repr

/-- One step under a condition that is `ready` now; `none` when the wait is over.
    A task that sleeps and was not woken makes no step. -/
def Wait.step (ready : Bool) : Wait → Option Wait
  | .testing => if ready then none else some .preparing
  | .preparing => some (.prepared false)
  | .prepared woken => if ready then none else some (.sleeping woken)
  | .sleeping woken => if woken then some .preparing else some (.sleeping false)

/-- A `wake_up` of the queue. -/
def Wait.wake : Wait → Wait
  | .prepared _ => .prepared true
  | .sleeping _ => .sleeping true
  | w => w

/-- The task makes no step until it is woken. -/
def Wait.Blocked (w : Wait) : Prop := w = .sleeping false

theorem Wait.not_blocked_wake (w : Wait) : ¬ w.wake.Blocked := by
  cases w <;> simp [Wait.wake, Wait.Blocked]

/-- A task falls asleep only after it saw the condition false. -/
theorem Wait.step_blocked {ready : Bool} {w w' : Wait} (h : w.step ready = some w')
    (hb : w'.Blocked) : w.Blocked ∨ ready = false := by
  subst hb
  cases w with
  | testing => cases ready <;> simp [Wait.step] at h
  | preparing => simp [Wait.step] at h
  | prepared woken => cases ready with
      | true => simp [Wait.step] at h
      | false => exact Or.inr rfl
  | sleeping woken => cases woken with
      | true => simp [Wait.step] at h
      | false => exact Or.inl rfl

/-- The steps to the sleep, or out of the wait, if no wakeup comes. -/
def Wait.rank (ready : Bool) : Wait → Nat
  | .testing => if ready then 1 else 3
  | .preparing => 2
  | .prepared woken => if ready then 1 else if woken then 4 else 1
  | .sleeping woken => if woken then 3 else 0

theorem Wait.rank_step {ready : Bool} {w w' : Wait} (h : w.step ready = some w') :
    w'.rank ready < w.rank ready ∨ (w.Blocked ∧ w' = w) := by
  cases w with
  | testing =>
      cases ready with
      | true => simp [Wait.step] at h
      | false =>
          obtain rfl := Option.some.inj h
          exact Or.inl (by decide)
  | preparing =>
      obtain rfl := Option.some.inj h
      cases ready <;> exact Or.inl (by decide)
  | prepared woken =>
      cases ready with
      | true => simp [Wait.step] at h
      | false =>
          obtain rfl := Option.some.inj h
          cases woken <;> exact Or.inl (by decide)
  | sleeping woken =>
      cases woken with
      | true =>
          obtain rfl := Option.some.inj h
          cases ready <;> exact Or.inl (by decide)
      | false => exact Or.inr ⟨rfl, (Option.some.inj h).symm⟩

/-- The wait is over only when the condition is true. -/
theorem Wait.ready_of_step_none {ready : Bool} {w : Wait} (h : w.step ready = none) :
    ready = true := by
  cases ready with
  | true => rfl
  | false => cases w with
      | sleeping woken => cases woken <;> simp [Wait.step] at h
      | _ => simp [Wait.step] at h

theorem Wait.rank_wake_le (ready : Bool) (w : Wait) : w.wake.rank ready ≤ w.rank ready + 3 := by
  cases w with
  | prepared woken => cases woken <;> cases ready <;> decide
  | sleeping woken => cases woken <;> cases ready <;> decide
  | _ => exact Nat.le_add_right _ _

theorem Wait.rank_ready_le (w : Wait) (ready : Bool) : w.rank true ≤ w.rank ready := by
  cases w with
  | prepared woken => cases woken <;> cases ready <;> decide
  | sleeping woken => cases woken <;> cases ready <;> decide
  | _ => cases ready <;> decide

theorem Wait.one_le_rank_of_step_none {ready : Bool} {w : Wait} (h : w.step ready = none) :
    1 ≤ w.rank ready := by
  obtain rfl := Wait.ready_of_step_none h
  cases w with
  | testing => decide
  | preparing => decide
  | prepared woken => exact Nat.le_refl 1
  | sleeping woken => cases woken <;> simp [Wait.step] at h

end LinuxModules.Lib
