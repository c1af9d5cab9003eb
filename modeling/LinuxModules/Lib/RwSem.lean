/-
  LinuxModules.Lib.RwSem

  A reader/writer semaphore and the threads that hold it.

  The semaphore itself only counts (`RwSem`); who holds it is a function of the
  threads (`holds`).  `RwSem.Agrees` ties the two together and is kept by each of
  the four operations, whichever thread calls it.  Mutual exclusion is a part of
  it, so that a program only has to show where its threads call what.
-/

import Mathlib.Data.Finset.Card
import Mathlib.Data.Fintype.Defs
import Mathlib.Data.Finset.Filter
import Mathlib.Order.Notation

namespace LinuxModules.Lib

/-- How a thread holds the semaphore. -/
inductive Hold where
  | free
  | read
  | write
  deriving DecidableEq, Repr

/-- The state of the semaphore: the readers inside, and whether a writer is. -/
structure RwSem where
  readers : Nat
  writer : Bool
  deriving DecidableEq, Repr

/-- `init_rwsem`. -/
def RwSem.init : RwSem := ⟨0, false⟩

/-- `down_read`; `none` while the caller has to wait. -/
def RwSem.downRead (sem : RwSem) : Option RwSem :=
  if sem.writer then none else some { sem with readers := sem.readers + 1 }

/-- `up_read`. -/
def RwSem.upRead (sem : RwSem) : RwSem := { sem with readers := sem.readers - 1 }

/-- `down_write`; `none` while the caller has to wait. -/
def RwSem.downWrite (sem : RwSem) : Option RwSem :=
  if sem.writer || sem.readers ≠ 0 then none else some { sem with writer := true }

/-- `up_write`. -/
def RwSem.upWrite (sem : RwSem) : RwSem := { sem with writer := false }

section

variable {ι : Type _} [Fintype ι]

/-- The threads that hold the semaphore for reading. -/
def readersOf (holds : ι → Hold) : Finset ι := Finset.univ.filter fun i => holds i = .read

/-- The semaphore counts the threads that hold it, and a writer is alone. -/
structure RwSem.Agrees (sem : RwSem) (holds : ι → Hold) : Prop where
  readers : sem.readers = (readersOf holds).card
  writer : sem.writer = true ↔ ∃ i, holds i = .write
  alone : ∀ i j, holds i = .write → holds j ≠ .free → i = j

variable {sem sem' : RwSem} {holds : ι → Hold} {i : ι}

theorem mem_readersOf {j : ι} : j ∈ readersOf holds ↔ holds j = .read := by
  simp [readersOf]

theorem RwSem.agrees_init (h : ∀ i, holds i = .free) : RwSem.init.Agrees holds where
  readers := by simp [readersOf, h, RwSem.init]
  writer := by simp [h, RwSem.init]
  alone := by simp [h]

/-- Nobody writes unless the semaphore says so. -/
theorem RwSem.Agrees.not_write (h : sem.Agrees holds) (hw : sem.writer = false) (j : ι) :
    holds j ≠ .write := by
  intro hj
  have := h.writer.mpr ⟨j, hj⟩
  rw [hw] at this
  exact Bool.false_ne_true this

/-- A reader gets in unless somebody writes. -/
theorem RwSem.Agrees.downRead_isSome (h : sem.Agrees holds) (hw : ∀ j, holds j ≠ .write) :
    ∃ sem', sem.downRead = some sem' := by
  have hwriter : sem.writer = false := by
    rw [Bool.eq_false_iff]
    intro ht
    obtain ⟨j, hj⟩ := h.writer.mp ht
    exact hw j hj
  exact ⟨_, by rw [RwSem.downRead, hwriter]; rfl⟩

/-- Nobody holds it: it is as `init_rwsem` left it. -/
theorem RwSem.Agrees.eq_init (h : sem.Agrees holds) (hfree : ∀ j, holds j = .free) :
    sem = RwSem.init := by
  have hwriter : sem.writer = false := by
    rw [Bool.eq_false_iff]
    intro ht
    obtain ⟨j, hj⟩ := h.writer.mp ht
    rw [hfree j] at hj
    cases hj
  have hreaders : sem.readers = 0 := by
    rw [h.readers, Finset.card_eq_zero, Finset.eq_empty_iff_forall_notMem]
    intro j hj
    rw [mem_readersOf, hfree j] at hj
    cases hj
  cases sem with
  | mk readers writer =>
      obtain rfl : readers = 0 := hreaders
      obtain rfl : writer = false := hwriter
      rfl

/-- A writer gets in when nobody is inside. -/
theorem RwSem.Agrees.downWrite_isSome (h : sem.Agrees holds) (hfree : ∀ j, holds j = .free) :
    ∃ sem', sem.downWrite = some sem' := by
  rw [h.eq_init hfree]
  exact ⟨_, rfl⟩

variable [DecidableEq ι]

theorem readersOf_update_read (hi : holds i ≠ .read) :
    (readersOf (Function.update holds i .read)).card = (readersOf holds).card + 1 := by
  have hset : readersOf (Function.update holds i .read) = insert i (readersOf holds) := by
    ext j
    rw [Finset.mem_insert, mem_readersOf, mem_readersOf]
    by_cases hj : j = i
    · subst hj
      simp
    · simp [hj]
  rw [hset, Finset.card_insert_of_notMem (fun h => hi (mem_readersOf.mp h))]

theorem readersOf_update_free (hi : holds i = .read) :
    (readersOf (Function.update holds i .free)).card = (readersOf holds).card - 1 := by
  have hset : readersOf (Function.update holds i .free) = (readersOf holds).erase i := by
    ext j
    rw [Finset.mem_erase, mem_readersOf, mem_readersOf]
    by_cases hj : j = i
    · subst hj
      simp
    · simp [hj]
  rw [hset, Finset.card_erase_of_mem (mem_readersOf.mpr hi)]

/-- A change between `free` and `write` does not touch the readers. -/
theorem readersOf_update_of_ne {k : Hold} (hi : holds i ≠ .read) (hk : k ≠ .read) :
    readersOf (Function.update holds i k) = readersOf holds := by
  ext j
  rw [mem_readersOf, mem_readersOf]
  by_cases hj : j = i
  · subst hj
    simp [hi, hk]
  · rw [Function.update_of_ne hj]

theorem RwSem.Agrees.downRead (h : sem.Agrees holds) (hi : holds i = .free)
    (hdown : sem.downRead = some sem') : sem'.Agrees (Function.update holds i .read) := by
  rw [RwSem.downRead] at hdown
  split at hdown
  case isTrue => cases hdown
  case isFalse hw =>
    have hw' : sem.writer = false := by simpa using hw
    have hnone := h.not_write hw'
    obtain rfl := Option.some.inj hdown
    have hnew : ∀ j, Function.update holds i Hold.read j ≠ .write := by
      intro j
      by_cases hj : j = i
      · subst hj
        simp
      · rw [Function.update_of_ne hj]
        exact hnone j
    refine ⟨?_, ?_, fun j _ hj => absurd hj (hnew j)⟩
    · rw [readersOf_update_read (by rw [hi]; decide), ← h.readers]
    · rw [hw']
      exact iff_of_false Bool.false_ne_true (not_exists.mpr hnew)

theorem RwSem.Agrees.upRead (h : sem.Agrees holds) (hi : holds i = .read) :
    sem.upRead.Agrees (Function.update holds i .free) := by
  have hne : ∀ j, holds j ≠ .write := fun j hj => by
    obtain rfl := h.alone j i hj (by rw [hi]; decide)
    rw [hi] at hj
    cases hj
  have hnew : ∀ j, Function.update holds i Hold.free j ≠ .write := by
    intro j
    by_cases hj : j = i
    · subst hj
      simp
    · rw [Function.update_of_ne hj]
      exact hne j
  refine ⟨?_, ?_, fun j _ hj => absurd hj (hnew j)⟩
  · rw [readersOf_update_free hi, ← h.readers]
    rfl
  · show sem.writer = true ↔ _
    rw [h.writer]
    exact iff_of_false (not_exists.mpr hne) (not_exists.mpr hnew)

theorem RwSem.Agrees.downWrite (h : sem.Agrees holds) (hi : holds i = .free)
    (hdown : sem.downWrite = some sem') : sem'.Agrees (Function.update holds i .write) := by
  rw [RwSem.downWrite] at hdown
  split at hdown
  case isTrue => cases hdown
  case isFalse hbusy =>
    have hidle : sem.writer = false ∧ sem.readers = 0 := by simpa using hbusy
    obtain rfl := Option.some.inj hdown
    -- nobody else is inside
    have hfree : ∀ j, holds j = .free := by
      intro j
      have hread : holds j ≠ .read := fun hj => by
        have hpos := Finset.card_pos.mpr ⟨j, mem_readersOf.mpr hj⟩
        rw [← h.readers, hidle.2] at hpos
        exact Nat.lt_irrefl 0 hpos
      have hwrite := h.not_write hidle.1 j
      cases hj : holds j with
      | free => rfl
      | read => exact absurd hj hread
      | write => exact absurd hj hwrite
    have hnew : ∀ j, Function.update holds i Hold.write j ≠ .free → j = i := by
      intro j hj
      by_contra hji
      rw [Function.update_of_ne hji] at hj
      exact hj (hfree j)
    refine ⟨?_, iff_of_true rfl ⟨i, Function.update_self ..⟩, fun j k hj hk => ?_⟩
    · rw [readersOf_update_of_ne (by rw [hi]; decide) (by decide), ← h.readers]
    · rw [hnew j (by rw [hj]; decide), hnew k hk]

theorem RwSem.Agrees.upWrite (h : sem.Agrees holds) (hi : holds i = .write) :
    sem.upWrite.Agrees (Function.update holds i .free) := by
  have hnew : ∀ j, Function.update holds i Hold.free j = .free := by
    intro j
    by_cases hj : j = i
    · subst hj
      simp
    · rw [Function.update_of_ne hj]
      by_contra hne
      exact hj (h.alone i j hi hne).symm
  refine ⟨?_, ?_, fun j _ hj => ?_⟩
  · rw [readersOf_update_of_ne (by rw [hi]; decide) (by decide), ← h.readers]
    rfl
  · refine iff_of_false Bool.false_ne_true (not_exists.mpr fun j hj => ?_)
    rw [hnew j] at hj
    cases hj
  · rw [hnew j] at hj
    cases hj

end

end LinuxModules.Lib
