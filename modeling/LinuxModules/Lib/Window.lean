/-
  LinuxModules.Lib.Window

  Sliding windows over a log of times, most recent first.  `AtMostPerWindow`
  bounds the entries of every closed window of a given width; a new entry keeps
  the bound exactly when it comes late enough after the entry that many places
  back (`atMostPerWindow_cons`).
-/

import Mathlib.Algebra.Order.Monoid.Defs
import Mathlib.Data.List.Basic

namespace LinuxModules.Lib

variable {α : Type _} [AddCommMonoid α] [LinearOrder α] [IsOrderedCancelAddMonoid α]

/-- The number of entries in `[w, w + width]`. -/
def inWindow (width w : α) (l : List α) : Nat := l.countP fun x => w ≤ x ∧ x ≤ w + width

/-- No window of the given width has more than `n` entries. -/
def AtMostPerWindow (width : α) (n : Nat) (l : List α) : Prop := ∀ w, inWindow width w l ≤ n

omit [IsOrderedCancelAddMonoid α] in
theorem atMostPerWindow_nil (width : α) (n : Nat) : AtMostPerWindow width n [] :=
  fun _ => Nat.zero_le n

omit [IsOrderedCancelAddMonoid α] in
theorem AtMostPerWindow.tail {width a : α} {n : Nat} {l : List α}
    (h : AtMostPerWindow width n (a :: l)) : AtMostPerWindow width n l :=
  fun w => ((List.sublist_cons_self a l).countP_le).trans (h w)

omit [IsOrderedCancelAddMonoid α] in
/-- A window that holds the newest entry and the one `n` places back holds all
    those between them. -/
theorem lt_inWindow_of_le {width a y : α} {n : Nat} {l : List α}
    (hsorted : (a :: l).Pairwise (· ≥ ·)) (hy : l[n]? = some y) (hle : a ≤ y + width) :
    n + 1 < inWindow width y (a :: l) := by
  obtain ⟨hnew, hold⟩ := List.pairwise_cons.mp hsorted
  obtain ⟨hlt, hyn⟩ := List.getElem?_eq_some_iff.mp hy
  -- the first `n + 1` old entries lie between `y` and the newest
  have hall : ∀ x ∈ l.take (n + 1), y ≤ x ∧ x ≤ y + width := by
    intro x hx
    obtain ⟨i, hi, rfl⟩ := List.getElem_of_mem hx
    rw [List.length_take] at hi
    rw [List.getElem_take]
    refine ⟨?_, (hnew _ (List.getElem_mem _)).trans hle⟩
    rw [← hyn]
    rcases Nat.lt_or_eq_of_le (Nat.lt_succ_iff.mp (lt_of_lt_of_le hi (min_le_left _ _))) with hin | rfl
    · exact List.pairwise_iff_getElem.mp hold i n _ hlt hin
    · exact le_refl _
  have hya : y ≤ a := hnew y (List.mem_of_getElem? hy)
  have hcount : (l.take (n + 1)).countP (fun x => y ≤ x ∧ x ≤ y + width) = n + 1 := by
    rw [List.countP_eq_length.mpr (by simpa using hall), List.length_take]
    omega
  have hsub := (List.take_sublist (n + 1) l).countP_le (p := fun x => y ≤ x ∧ x ≤ y + width)
  rw [inWindow, List.countP_cons_of_pos (by simp [hya, hle])]
  omega

/-- Once the entry `n` places back is out of the window of the newest one, at
    most the entries before it share a window with the newest. -/
theorem inWindow_cons_le {width a w : α} {n : Nat} {l : List α}
    (hsorted : (a :: l).Pairwise (· ≥ ·)) (hfar : ∀ y, l[n]? = some y → y + width < a)
    (ha : a ≤ w + width) : inWindow width w (a :: l) ≤ n + 1 := by
  have hold := (List.pairwise_cons.mp hsorted).2
  -- from index `n` on everything is older than the window
  have hout : ∀ x ∈ l.drop n, x < w := by
    intro x hx
    obtain ⟨i, hi, rfl⟩ := List.getElem_of_mem hx
    rw [List.length_drop] at hi
    rw [List.getElem_drop]
    have hn : n < l.length := by omega
    have hback : l[n + i] ≤ l[n] := by
      rcases Nat.eq_zero_or_pos i with rfl | hpos
      · exact le_refl _
      · exact List.pairwise_iff_getElem.mp hold n (n + i) hn _ (by omega)
    have hlt : l[n] + width < w + width := lt_of_lt_of_le (hfar _ (List.getElem?_eq_getElem hn)) ha
    exact lt_of_le_of_lt hback (lt_of_add_lt_add_right hlt)
  have hzero : (l.drop n).countP (fun x => w ≤ x ∧ x ≤ w + width) = 0 := by
    refine List.countP_eq_zero.mpr fun x hx => ?_
    simpa using fun hwx => absurd (hout x hx) (not_lt.mpr hwx)
  have htake : (l.take n).countP (fun x => w ≤ x ∧ x ≤ w + width) ≤ n :=
    List.countP_le_length.trans (List.length_take_le n l)
  have hsplit : l.countP (fun x => w ≤ x ∧ x ≤ w + width) ≤ n := by
    rw [← List.take_append_drop n l, List.countP_append, hzero]
    exact htake
  calc inWindow width w (a :: l) ≤ l.countP (fun x => w ≤ x ∧ x ≤ w + width) + 1 := by
        rw [inWindow, List.countP_cons]
        split <;> omega
    _ ≤ n + 1 := Nat.succ_le_succ hsplit

/-- A new entry keeps the bound exactly if the one `n + 1` places before it is
    more than the width back. -/
theorem atMostPerWindow_cons {width a : α} {n : Nat} {l : List α}
    (hsorted : (a :: l).Pairwise (· ≥ ·)) (hl : AtMostPerWindow width (n + 1) l) :
    AtMostPerWindow width (n + 1) (a :: l) ↔ ∀ y, l[n]? = some y → y + width < a := by
  constructor
  · intro h y hy
    by_contra hle
    exact absurd (h y) (not_le.mpr (lt_inWindow_of_le hsorted hy (not_lt.mp hle)))
  · intro hfar w
    by_cases ha : a ≤ w + width
    · exact inWindow_cons_le hsorted hfar ha
    · -- the newest entry is not in this window
      rw [inWindow, List.countP_cons_of_neg (by simp [ha])]
      exact hl w

end LinuxModules.Lib
