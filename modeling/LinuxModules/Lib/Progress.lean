/-
  LinuxModules.Lib.Progress

  Runs that come to rest.  `A` says which actions may still be taken (what the
  environment no longer does is left out), `I` is an invariant of these, and
  every action that changes the state makes a measure smaller.

  * `length_le_of_decreasing`: no such run makes more changes than the measure
    of its first state.
  * `exists_still`: some run ends where no action changes anything.
-/

import LinuxModules.Lib.Run
import Mathlib.Logic.Basic

namespace LinuxModules.Lib

variable {σ α : Type _}

/-- No action of the kind `A` changes this state. -/
def Still (step : σ → α → σ) (A : α → Prop) (s : σ) : Prop := ∀ a, A a → step s a = s

section

variable {step : σ → α → σ} {A : α → Prop} {I : σ → Prop} {work : σ → Nat}

theorem run_of_forall (hinv : ∀ s a, A a → I s → I (step s a)) {s : σ} {as : List α}
    (hI : I s) (hA : ∀ a ∈ as, A a) : I (run step s as) := by
  induction as generalizing s with
  | nil => exact hI
  | cons a as ih =>
      have ha : A a := hA a (List.mem_cons_self ..)
      exact ih (hinv s a ha hI) fun b hb => hA b (List.mem_cons_of_mem _ hb)

theorem length_le_of_decreasing (hinv : ∀ s a, A a → I s → I (step s a))
    (hdec : ∀ s a, A a → I s → step s a ≠ s → work (step s a) < work s) {s : σ} {as : List α}
    (hI : I s) (h : Guarded step (fun s a => A a ∧ step s a ≠ s) s as) :
    as.length + work (run step s as) ≤ work s := by
  induction as generalizing s with
  | nil => exact Nat.le_of_eq (Nat.zero_add _)
  | cons a as ih =>
      have hlt := hdec s a h.1.1 hI h.1.2
      have hrest := ih (hinv s a h.1.1 hI) h.2
      rw [List.length_cons]
      show as.length + 1 + work (run step (step s a) as) ≤ work s
      omega

theorem exists_still (hinv : ∀ s a, A a → I s → I (step s a))
    (hdec : ∀ s a, A a → I s → step s a ≠ s → work (step s a) < work s) {s : σ} (hI : I s) :
    ∃ as, (∀ a ∈ as, A a) ∧ Still step A (run step s as) := by
  -- on the measure: either nothing changes any more, or one change is made
  induction hw : work s using Nat.strongRecOn generalizing s with
  | ind w ih =>
      by_cases hstill : Still step A s
      · exact ⟨[], fun a ha => absurd ha List.not_mem_nil, hstill⟩
      · rw [Still] at hstill
        push Not at hstill
        obtain ⟨a, ha, hne⟩ := hstill
        obtain ⟨as, hA, hend⟩ := ih (work (step s a)) (hw ▸ hdec s a ha hI hne) (hinv s a ha hI) rfl
        refine ⟨a :: as, fun b hb => ?_, hend⟩
        rcases List.mem_cons.mp hb with rfl | hb
        · exact ha
        · exact hA b hb

end

end LinuxModules.Lib
