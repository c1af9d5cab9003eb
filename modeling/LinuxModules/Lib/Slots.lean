/-
  LinuxModules.Lib.Slots

  First-match update of a list: the shape of a `for` loop over an array that
  rewrites the first element satisfying a test and returns at once.

  `updateFirst?_eq_some` is the one fact its users need: a successful update
  splits the list around the element that was rewritten, with no earlier
  element satisfying the test.  At the end, updates of a list at a position.
-/

import Mathlib.Data.List.Basic

namespace LinuxModules.Lib

variable {α : Type _}

/-- Rewrite the first element satisfying `p` by `f`; `none` if there is none. -/
def updateFirst? (p : α → Bool) (f : α → α) : List α → Option (List α)
  | [] => none
  | x :: xs => if p x then some (f x :: xs) else (updateFirst? p f xs).map (x :: ·)

/-- The scan fails exactly when no element satisfies the test. -/
theorem updateFirst?_eq_none {p : α → Bool} {f : α → α} {xs : List α} :
    updateFirst? p f xs = none ↔ ∀ x ∈ xs, p x = false := by
  induction xs with
  | nil => simp [updateFirst?]
  | cons x xs ih =>
      by_cases hx : p x
      · simp [updateFirst?, hx]
      · simp [updateFirst?, hx, ih]

/-- A successful scan rewrites one element and keeps the rest in place. -/
theorem updateFirst?_eq_some {p : α → Bool} {f : α → α} {xs ys : List α}
    (h : updateFirst? p f xs = some ys) :
    ∃ pre x post, xs = pre ++ x :: post ∧ p x = true ∧
      (∀ y ∈ pre, p y = false) ∧ ys = pre ++ f x :: post := by
  induction xs generalizing ys with
  | nil => simp [updateFirst?] at h
  | cons x xs ih =>
      by_cases hx : p x
      · simp only [updateFirst?, hx, if_true, Option.some.injEq] at h
        exact ⟨[], x, xs, rfl, hx, by simp, h.symm⟩
      · simp only [updateFirst?, hx, Bool.false_eq_true, if_false,
          Option.map_eq_some_iff] at h
        obtain ⟨zs, hzs, rfl⟩ := h
        obtain ⟨pre, y, post, rfl, hy, hpre, rfl⟩ := ih hzs
        refine ⟨x :: pre, y, post, rfl, hy, ?_, rfl⟩
        intro z hz
        rcases List.mem_cons.mp hz with rfl | hz
        · simpa using hx
        · exact hpre z hz

theorem updateFirst?_length {p : α → Bool} {f : α → α} {xs ys : List α}
    (h : updateFirst? p f xs = some ys) : ys.length = xs.length := by
  obtain ⟨pre, x, post, rfl, -, -, rfl⟩ := updateFirst?_eq_some h
  simp

/-- Storing what is there changes nothing. -/
theorem set_eq_self {l : List α} {i : Nat} {a : α} (h : l[i]? = some a) : l.set i a = l := by
  obtain ⟨hi, rfl⟩ := List.getElem?_eq_some_iff.mp h
  exact List.set_getElem_self hi

/-- A list around its element number `i`, and what erasing or storing there makes
    of it. -/
theorem around_getElem? {l : List α} {i : Nat} {a : α} (h : l[i]? = some a) :
    l = l.take i ++ a :: l.drop (i + 1) ∧ l.eraseIdx i = l.take i ++ l.drop (i + 1) ∧
      ∀ b, l.set i b = l.take i ++ b :: l.drop (i + 1) := by
  obtain ⟨hi, rfl⟩ := List.getElem?_eq_some_iff.mp h
  refine ⟨?_, List.eraseIdx_eq_take_drop_succ .., fun b => ?_⟩
  · rw [List.getElem_cons_drop, List.take_append_drop]
  · rw [List.set_eq_take_append_cons_drop, if_pos hi]

end LinuxModules.Lib
