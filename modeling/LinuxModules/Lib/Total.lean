/-
  LinuxModules.Lib.Total

  What a list of processes has in all: the sum of a quantity (a number, a bag)
  over its members, and how it moves when one member is replaced or leaves.
  Both sides of such a step are compared against the total of the others.
-/

import Mathlib.Algebra.BigOperators.Group.List.Basic
import Mathlib.Algebra.Order.BigOperators.Group.List
import Mathlib.Algebra.Order.Group.Multiset
import Mathlib.Algebra.Order.Group.Nat
import Mathlib.Data.List.Perm.Basic

namespace LinuxModules.Lib

variable {α β M : Type _} [AddCommMonoid M]

/-- The sum of `f` over the list. -/
def total (f : α → M) (l : List α) : M := (l.map f).sum

@[simp] theorem total_nil (f : α → M) : total f [] = 0 := rfl

@[simp] theorem total_append (f : α → M) (l l' : List α) :
    total f (l ++ l') = total f l + total f l' := by
  rw [total, List.map_append, List.sum_append]
  rfl

@[simp] theorem total_singleton (f : α → M) (a : α) : total f [a] = f a := List.sum_singleton

/-- A member and the others. -/
theorem total_of_getElem? (f : α → M) {l : List α} {i : Nat} {a : α} (h : l[i]? = some a) :
    total f l = f a + total f (l.eraseIdx i) := by
  obtain ⟨hi, rfl⟩ := List.getElem?_eq_some_iff.mp h
  -- a sum does not depend on the order: put the member first
  rw [total, ← ((List.getElem_cons_eraseIdx_perm hi).map f).sum_eq, List.map_cons, List.sum_cons]
  rfl

/-- The member at `i` replaced. -/
theorem total_set (f : α → M) {l : List α} {i : Nat} {a : α} (h : l[i]? = some a) (b : α) :
    total f (l.set i b) = f b + total f (l.eraseIdx i) := by
  obtain ⟨hi, -⟩ := List.getElem?_eq_some_iff.mp h
  rw [total, ((List.set_perm_cons_eraseIdx hi b).map f).sum_eq, List.map_cons, List.sum_cons]
  rfl

/-- A number that is at most 1 for each member is at most their number in all. -/
theorem total_le_length {f : α → Nat} (h : ∀ a, f a ≤ 1) (l : List α) : total f l ≤ l.length := by
  have hle := List.sum_le_card_nsmul (l.map f) 1 (by simpa using fun a _ => h a)
  simpa [total] using hle

/-- A total of bags, as one list. -/
theorem total_coe (f : α → List β) (l : List α) :
    total (fun a => (f a : Multiset β)) l = (l.flatMap f : List β) := by
  induction l with
  | nil => rfl
  | cons a l ih =>
      have hcons : total (fun a => (f a : Multiset β)) (a :: l) =
          (f a : Multiset β) + total (fun a => (f a : Multiset β)) l := List.sum_cons
      rw [hcons, ih, Multiset.coe_add, List.flatMap_cons]

/-- What is in a total of bags is in one of them. -/
theorem mem_total {f : α → Multiset β} {l : List α} {b : β} :
    b ∈ total f l ↔ ∃ a ∈ l, b ∈ f a := by
  induction l with
  | nil => simp
  | cons a l ih =>
      have hcons : total f (a :: l) = f a + total f l := List.sum_cons
      rw [hcons, Multiset.mem_add, ih]
      simp

end LinuxModules.Lib
