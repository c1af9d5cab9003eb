/-
  LinuxModules.Lib.KeyedStack

  One list of keyed entries used as a stack for each key: an entry is pushed at
  the front, and the first entry with a key is taken out.  `stackOf` is the stack
  of a key; taking out is the `pop` of that stack and touches no other.
-/

import Mathlib.Data.List.Basic

namespace LinuxModules.Lib

variable {κ β : Type _} [DecidableEq κ]

/-- The entries with key `k`, the last pushed first. -/
def stackOf (k : κ) : List (κ × β) → List β
  | [] => []
  | (k', v) :: l => if k' = k then v :: stackOf k l else stackOf k l

/-- Take out the first entry with key `k`. -/
def popKey (k : κ) : List (κ × β) → Option (β × List (κ × β))
  | [] => none
  | (k', v) :: l =>
      if k' = k then some (v, l)
      else
        match popKey k l with
        | none => none
        | some (w, l') => some (w, (k', v) :: l')

@[simp] theorem stackOf_push_self (k : κ) (v : β) (l : List (κ × β)) :
    stackOf k ((k, v) :: l) = v :: stackOf k l := by
  rw [stackOf, if_pos rfl]

theorem stackOf_push_of_ne {k k' : κ} (h : k' ≠ k) (v : β) (l : List (κ × β)) :
    stackOf k ((k', v) :: l) = stackOf k l := by
  rw [stackOf, if_neg h]

theorem popKey_none {k : κ} {l : List (κ × β)} (h : popKey k l = none) : stackOf k l = [] := by
  induction l with
  | nil => rfl
  | cons e l ih =>
      obtain ⟨k', v⟩ := e
      rw [popKey] at h
      split at h
      case isTrue => cases h
      case isFalse hne =>
        rw [stackOf_push_of_ne hne]
        apply ih
        cases hpop : popKey k l with
        | none => rfl
        | some r =>
            rw [hpop] at h
            cases h

/-- What is taken out is the top of its stack. -/
theorem popKey_some {k : κ} {l l' : List (κ × β)} {v : β} (h : popKey k l = some (v, l')) :
    stackOf k l = v :: stackOf k l' ∧ (∀ k', k' ≠ k → stackOf k' l' = stackOf k' l) ∧
      l.length = l'.length + 1 := by
  induction l generalizing l' with
  | nil => cases h
  | cons e l ih =>
      obtain ⟨k₀, v₀⟩ := e
      rw [popKey] at h
      split at h
      case isTrue heq =>
        obtain ⟨rfl, rfl⟩ := Prod.mk.inj (Option.some.inj h)
        subst heq
        refine ⟨stackOf_push_self .., fun k' hk' => ?_, rfl⟩
        rw [stackOf_push_of_ne hk'.symm]
      case isFalse hne =>
        cases hpop : popKey k l with
        | none =>
            rw [hpop] at h
            cases h
        | some r =>
            obtain ⟨w, rest⟩ := r
            rw [hpop] at h
            obtain ⟨rfl, rfl⟩ := Prod.mk.inj (Option.some.inj h)
            obtain ⟨htop, hother, hlen⟩ := ih hpop
            refine ⟨?_, fun k' hk' => ?_, ?_⟩
            · rw [stackOf_push_of_ne hne, stackOf_push_of_ne hne, htop]
            · rw [stackOf, stackOf, hother k' hk']
            · rw [List.length_cons, List.length_cons, hlen]

end LinuxModules.Lib
