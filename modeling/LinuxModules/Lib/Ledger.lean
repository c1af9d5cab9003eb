/-
  LinuxModules.Lib.Ledger

  An account of numbered objects: how many were issued, and the numbers of those
  that are somewhere to be found.  Objects are numbered in the order of issue.

  The last section is about objects that have to be given back: `OnceEach`, and
  `onceEach_append_iff`, by which an account of several calls is settled exactly
  if the account of each call is.
-/

import Mathlib.Data.Multiset.AddSub
import Mathlib.Data.List.Count

namespace LinuxModules.Lib

structure Ledger where
  issued : Nat
  found : Multiset Nat

namespace Ledger

/-- Every object that was issued is found. -/
def Complete (l : Ledger) : Prop := ∀ n < l.issued, n ∈ l.found

/-- Every object that is found was issued. -/
def Genuine (l : Ledger) : Prop := ∀ n ∈ l.found, n < l.issued

/-- A new object is issued and put where it is found. -/
def issue (l : Ledger) : Ledger := ⟨l.issued + 1, l.issued ::ₘ l.found⟩

/-- A new object is issued and lost. -/
def lose (l : Ledger) : Ledger := ⟨l.issued + 1, l.found⟩

/-- At most one new object, and nothing lost. -/
def Keeps (l l' : Ledger) : Prop := l' = l ∨ l' = l.issue

theorem Keeps.complete {l l' : Ledger} (h : l.Keeps l') (hl : l.Complete) : l'.Complete := by
  rcases h with rfl | rfl
  · exact hl
  · intro n hn
    rcases Nat.lt_succ_iff_lt_or_eq.mp hn with hlt | rfl
    · exact Multiset.mem_cons_of_mem (hl n hlt)
    · exact Multiset.mem_cons_self _ _

theorem Keeps.genuine {l l' : Ledger} (h : l.Keeps l') (hl : l.Genuine) : l'.Genuine := by
  rcases h with rfl | rfl
  · exact hl
  · intro n hn
    rcases Multiset.mem_cons.mp hn with rfl | hin
    · exact Nat.lt_succ_self _
    · exact Nat.lt_succ_of_lt (hl n hin)

theorem Genuine.lose {l : Ledger} (h : l.Genuine) : l.lose.Genuine :=
  fun n hn => Nat.lt_succ_of_lt (h n hn)

/-- A lost object stays lost: its number is not among the earlier ones. -/
theorem Genuine.not_complete_lose {l : Ledger} (h : l.Genuine) : ¬ l.lose.Complete :=
  fun hc => Nat.lt_irrefl _ (h _ (hc l.issued (Nat.lt_succ_self _)))

/-- Objects found elsewhere are kept as well. -/
theorem Keeps.add {l l' : Ledger} (h : l.Keeps l') (elsewhere : Multiset Nat) :
    Keeps ⟨l.issued, l.found + elsewhere⟩ ⟨l'.issued, l'.found + elsewhere⟩ := by
  rcases h with rfl | rfl
  · exact Or.inl rfl
  · refine Or.inr ?_
    simp only [issue, Multiset.cons_add]

end Ledger

/-! ## Objects given back -/

/-- The objects `a`, ..., `b - 1` are each given back once, and no other is. -/
def OnceEach (a b : Nat) (rel : List Nat) : Prop :=
  ∀ n, rel.count n = if a ≤ n ∧ n < b then 1 else 0

/-- Only the objects `a`, ..., `b - 1` are given back. -/
def Within (a b : Nat) (rel : List Nat) : Prop := ∀ n ∈ rel, a ≤ n ∧ n < b

section

variable {a b c : Nat} {xs ys : List Nat}

theorem Within.append (hab : a ≤ b) (hbc : b ≤ c) (hx : Within a b xs) (hy : Within b c ys) :
    Within a c (xs ++ ys) := by
  intro n hn
  rcases List.mem_append.mp hn with h | h
  · exact ⟨(hx n h).1, Nat.lt_of_lt_of_le (hx n h).2 hbc⟩
  · exact ⟨Nat.le_trans hab (hy n h).1, (hy n h).2⟩

theorem Within.count_eq_zero (hx : Within a b xs) {n : Nat} (hn : n < a ∨ b ≤ n) :
    xs.count n = 0 := by
  rw [List.count_eq_zero]
  intro hmem
  have hin := hx n hmem
  omega

/-- Two calls that give back only what they took: together they give back
    everything once exactly if each does. -/
theorem onceEach_append_iff (hab : a ≤ b) (hbc : b ≤ c) (hx : Within a b xs)
    (hy : Within b c ys) : OnceEach a c (xs ++ ys) ↔ OnceEach a b xs ∧ OnceEach b c ys := by
  constructor
  · intro h
    constructor
    · intro n
      by_cases hn : n < b
      · have hcount := h n
        rw [List.count_append, hy.count_eq_zero (Or.inl hn), Nat.add_zero] at hcount
        rw [hcount]
        exact if_congr (by omega) rfl rfl
      · rw [hx.count_eq_zero (Or.inr (Nat.le_of_not_lt hn)), if_neg (by omega)]
    · intro n
      by_cases hn : b ≤ n
      · have hcount := h n
        rw [List.count_append, hx.count_eq_zero (Or.inr hn), Nat.zero_add] at hcount
        rw [hcount]
        exact if_congr (by omega) rfl rfl
      · rw [hy.count_eq_zero (Or.inl (Nat.lt_of_not_le hn)), if_neg (by omega)]
  · rintro ⟨h₁, h₂⟩ n
    rw [List.count_append, h₁ n, h₂ n]
    by_cases hn : n < b
    · rw [if_neg (show ¬ (b ≤ n ∧ n < c) by omega), Nat.add_zero]
      exact if_congr (by omega) rfl rfl
    · rw [if_neg (show ¬ (a ≤ n ∧ n < b) by omega), Nat.zero_add]
      exact if_congr (by omega) rfl rfl

end

theorem onceEach_nil (a : Nat) : OnceEach a a [] := by
  intro n
  rw [List.count_nil, if_neg (by omega)]

/-- A single object, given back `k` times. -/
theorem onceEach_replicate_iff (a k : Nat) : OnceEach a (a + 1) (List.replicate k a) ↔ k = 1 := by
  constructor
  · intro h
    have hcount := h a
    rwa [List.count_replicate_self, if_pos (by omega)] at hcount
  · rintro rfl n
    rw [List.count_replicate]
    exact if_congr (by rw [beq_iff_eq]; omega) rfl rfl

end LinuxModules.Lib
