/-
  LinuxModules.Lib.Run

  Runs of a deterministic transition function, with every choice of the
  environment (which actor moves, what a system call returned) inside the
  action.  A run is the left fold of its actions.

  * `Along step P s as`: `P` holds in every state the run passes through.
  * `Guarded step ok s as`: every action is taken in a state that admits it;
    `Sometime step ev s as`: some action does `ev`.
  * `along_of_step` turns a one-step fact into a fact about whole runs, and
    `along_iff_guarded` does so for a guard that is also necessary.
  * `outputs_simulation` is forward simulation for step functions that answer.
-/

import Mathlib.Data.List.Basic

namespace LinuxModules.Lib

variable {σ τ α β : Type _}

/-- The state a run ends in. -/
def run (step : σ → α → σ) (s : σ) (as : List α) : σ := as.foldl step s

theorem run_cons (step : σ → α → σ) (s : σ) (a : α) (as : List α) :
    run step s (a :: as) = run step (step s a) as := rfl

/-! ## Invariants along a run -/

/-- `P` holds in every state of the run, its first and last included. -/
def Along (step : σ → α → σ) (P : σ → Prop) : σ → List α → Prop
  | s, [] => P s
  | s, a :: as => P s ∧ Along step P (step s a) as

/-- Every action of the run is admitted by the state it is taken in. -/
def Guarded (step : σ → α → σ) (ok : σ → α → Prop) : σ → List α → Prop
  | _, [] => True
  | s, a :: as => ok s a ∧ Guarded step ok (step s a) as

/-- Some action of the run does `ev` in the state it is taken in. -/
def Sometime (step : σ → α → σ) (ev : σ → α → Prop) : σ → List α → Prop
  | _, [] => False
  | s, a :: as => ev s a ∨ Sometime step ev (step s a) as

theorem Along.head {step : σ → α → σ} {P : σ → Prop} {s : σ} {as : List α}
    (h : Along step P s as) : P s := by
  cases as with
  | nil => exact h
  | cons a as => exact h.1

theorem Along.last {step : σ → α → σ} {P : σ → Prop} {s : σ} {as : List α}
    (h : Along step P s as) : P (run step s as) := by
  induction as generalizing s with
  | nil => exact h
  | cons a as ih => exact ih h.2

theorem Along.mono {step : σ → α → σ} {P Q : σ → Prop} (hPQ : ∀ s, P s → Q s)
    {s : σ} {as : List α} (h : Along step P s as) : Along step Q s as := by
  induction as generalizing s with
  | nil => exact hPQ s h
  | cons a as ih => exact ⟨hPQ s h.1, ih h.2⟩

theorem Along.and {step : σ → α → σ} {P Q : σ → Prop} {s : σ} {as : List α}
    (hP : Along step P s as) (hQ : Along step Q s as) : Along step (fun s => P s ∧ Q s) s as := by
  induction as generalizing s with
  | nil => exact ⟨hP, hQ⟩
  | cons a as ih => exact ⟨⟨hP.1, hQ.1⟩, ih hP.2 hQ.2⟩

/-- What holds in every state of a run decides what its steps may do. -/
theorem Along.guarded {step : σ → α → σ} {P : σ → Prop} {A : α → Prop} {ok : σ → α → Prop}
    (hok : ∀ s a, A a → P s → ok s a) {s : σ} {as : List α} (h : Along step P s as)
    (hA : ∀ a ∈ as, A a) : Guarded step ok s as := by
  induction as generalizing s with
  | nil => trivial
  | cons a as ih =>
      exact ⟨hok s a (hA a (List.mem_cons_self ..)) h.1,
        ih h.2 fun b hb => hA b (List.mem_cons_of_mem _ hb)⟩

/-- The invariant rule: admitted steps preserve `P`, so admitted runs keep it. -/
theorem along_of_step {step : σ → α → σ} {P : σ → Prop} {ok : σ → α → Prop}
    (hstep : ∀ s a, ok s a → P s → P (step s a)) {s : σ} {as : List α}
    (hs : P s) (hok : Guarded step ok s as) : Along step P s as := by
  induction as generalizing s with
  | nil => exact hs
  | cons a as ih => exact ⟨hs, ih (hstep s a hok.1 hs) hok.2⟩

/-- A property that no step can restore holds throughout if it holds at the end. -/
theorem along_of_last {step : σ → α → σ} {P : σ → Prop} (hback : ∀ s a, P (step s a) → P s)
    {s : σ} {as : List α} (h : P (run step s as)) : Along step P s as := by
  induction as generalizing s with
  | nil => exact h
  | cons a as ih =>
      have hrest : Along step P (step s a) as := ih h
      exact ⟨hback s a hrest.head, hrest⟩

/-- When the guard is exactly what a step needs to preserve `P`, a run keeps
    `P` throughout if and only if each of its steps is admitted.  `I` is an
    invariant there to be used; it may speak of the actions still to come. -/
theorem along_iff_guarded_rest {step : σ → α → σ} {P : σ → Prop} {I : σ → List α → Prop}
    {ok : σ → α → Prop} (hinv : ∀ s a as, I s (a :: as) → I (step s a) as)
    (hstep : ∀ s a as, I s (a :: as) → P s → (P (step s a) ↔ ok s a)) {s : σ} {as : List α}
    (hI : I s as) (hP : P s) : Along step P s as ↔ Guarded step ok s as := by
  induction as generalizing s with
  | nil => exact ⟨fun _ => trivial, fun _ => hP⟩
  | cons a as ih =>
      have hiff := hstep s a as hI hP
      -- the first action decides both the next state and the first guard
      constructor
      · intro h
        have hnext : P (step s a) := h.2.head
        exact ⟨hiff.mp hnext, (ih (hinv s a as hI) hnext).mp h.2⟩
      · intro h
        have hnext : P (step s a) := hiff.mpr h.1
        exact ⟨hP, (ih (hinv s a as hI) hnext).mpr h.2⟩

/-- The same for an invariant `I` of all runs whose actions satisfy `A`. -/
theorem along_iff_guarded {step : σ → α → σ} {P I : σ → Prop} {A : α → Prop}
    {ok : σ → α → Prop} (hinv : ∀ s a, A a → I s → I (step s a))
    (hstep : ∀ s a, A a → I s → P s → (P (step s a) ↔ ok s a)) {s : σ} {as : List α}
    (hI : I s) (hP : P s) (hA : ∀ a ∈ as, A a) :
    Along step P s as ↔ Guarded step ok s as := by
  apply along_iff_guarded_rest (I := fun s as => I s ∧ ∀ a ∈ as, A a)
  · intro s a as h
    have ha : A a := h.2 a (List.mem_cons_self ..)
    exact ⟨hinv s a ha h.1, fun b hb => h.2 b (List.mem_cons_of_mem _ hb)⟩
  · exact fun s a as h => hstep s a (h.2 a (List.mem_cons_self ..)) h.1
  · exact ⟨hI, hA⟩
  · exact hP

/-- Where a step that is not admitted destroys `P`, a run that keeps `P` has admitted
    steps only; `J` is an invariant of admitted runs there to be used. -/
theorem guarded_of_along {step : σ → α → σ} {P J : σ → Prop} {ok : σ → α → Prop}
    (hstep : ∀ s a, J s → ok s a → J (step s a)) (hnec : ∀ s a, J s → P (step s a) → ok s a)
    {s : σ} {as : List α} (hJ : J s) (h : Along step P s as) : Guarded step ok s as := by
  induction as generalizing s with
  | nil => trivial
  | cons a as ih =>
      have hok := hnec s a hJ h.2.head
      exact ⟨hok, ih (hstep s a hJ hok) h.2⟩

/-- The same as an equivalence, for a `J` that is stronger than `P`. -/
theorem along_iff_guarded_of_inv {step : σ → α → σ} {P J : σ → Prop} {ok : σ → α → Prop}
    (hJP : ∀ s, J s → P s) (hstep : ∀ s a, J s → ok s a → J (step s a))
    (hnec : ∀ s a, J s → P (step s a) → ok s a) {s : σ} {as : List α} (hJ : J s) :
    Along step P s as ↔ Guarded step ok s as := by
  refine ⟨guarded_of_along hstep hnec hJ, fun h => ?_⟩
  exact (along_of_step (fun s a hok hs => hstep s a hs hok) hJ h).mono hJP

/-- Actions that every state admits make an admitted run. -/
theorem guarded_of_forall {step : σ → α → σ} {ok : σ → α → Prop} {s : σ} {as : List α}
    (h : ∀ a ∈ as, ∀ s, ok s a) : Guarded step ok s as := by
  induction as generalizing s with
  | nil => trivial
  | cons a as ih =>
      exact ⟨h a (List.mem_cons_self ..) s, ih fun b hb => h b (List.mem_cons_of_mem _ hb)⟩

/-- Invariant rule at the end of an unguarded run. -/
theorem run_invariant {step : σ → α → σ} {P : σ → Prop}
    (hstep : ∀ s a, P s → P (step s a)) {s : σ} (hs : P s) (as : List α) :
    P (run step s as) := by
  induction as generalizing s with
  | nil => exact hs
  | cons a as ih => exact ih (hstep s a hs)

/-! ## Runs with answers -/

/-- The state a run of an answering step function ends in. -/
def final (step : σ → α → σ × β) (s : σ) (as : List α) : σ :=
  run (fun s a => (step s a).1) s as

theorem final_append (step : σ → α → σ × β) (s : σ) (as bs : List α) :
    final step s (as ++ bs) = final step (final step s as) bs :=
  List.foldl_append

/-- The answers of a run, in order. -/
def outputs (step : σ → α → σ × β) : σ → List α → List β
  | _, [] => []
  | s, a :: as => (step s a).2 :: outputs step (step s a).1 as

theorem outputs_append (step : σ → α → σ × β) (s : σ) (as bs : List α) :
    outputs step s (as ++ bs) = outputs step s as ++ outputs step (final step s as) bs := by
  induction as generalizing s with
  | nil => rfl
  | cons a as ih =>
      rw [List.cons_append, outputs, ih, outputs, List.cons_append]
      rfl

/-- Forward simulation: related states stay related and answer alike. -/
theorem outputs_simulation {step : σ → α → σ × β} {spec : τ → α → τ × β}
    {R : σ → τ → Prop} {ok : α → Prop}
    (hstep : ∀ s t a, ok a → R s t →
      (step s a).2 = (spec t a).2 ∧ R (step s a).1 (spec t a).1)
    {s : σ} {t : τ} {as : List α} (hR : R s t) (hok : ∀ a ∈ as, ok a) :
    outputs step s as = outputs spec t as ∧ R (final step s as) (final spec t as) := by
  induction as generalizing s t with
  | nil => exact ⟨rfl, hR⟩
  | cons a as ih =>
      -- one step of both, then the rest from related states
      obtain ⟨hout, hR'⟩ := hstep s t a (hok a (List.mem_cons_self ..)) hR
      obtain ⟨houts, hfin⟩ := ih hR' fun b hb => hok b (List.mem_cons_of_mem _ hb)
      exact ⟨by simp only [outputs, hout, houts], hfin⟩

end LinuxModules.Lib
