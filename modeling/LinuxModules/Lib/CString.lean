/-
  LinuxModules.Lib.CString

  C strings in byte buffers: `strncpy`, reading a string up to its NUL, and
  `atoi`.

  A C string is given as the memory it starts at; `cstrOf` cuts it at the first
  NUL.  `cstr?` does the same inside a buffer of known size and fails when the
  buffer holds no NUL, that is when a reader would run past its end.
  `cstrOf_eq_iff` says by which bytes a buffer's string is determined.
-/

import LinuxModules.Lib.Bytes
import Mathlib.Data.List.TakeWhile

namespace LinuxModules.Lib

/-- The characters before the first NUL. -/
def cstrOf (s : List Byte) : List Byte := s.takeWhile (· != 0)

/-- The string a buffer holds, if it is terminated inside the buffer. -/
def cstr? (buf : List Byte) : Option (List Byte) :=
  if 0 ∈ buf then some (cstrOf buf) else none

/-- `strncpy(dst, s, n)`: the `n` bytes written. -/
def strncpy (n : Nat) (s : List Byte) : List Byte :=
  (cstrOf s).take n ++ List.replicate (n - (cstrOf s).length) 0

@[simp] theorem length_strncpy (n : Nat) (s : List Byte) : (strncpy n s).length = n := by
  simp only [strncpy, List.length_append, List.length_take, List.length_replicate]
  omega

theorem zero_not_mem_cstrOf (s : List Byte) : (0 : Byte) ∉ cstrOf s := by
  intro h
  have hne := List.all_eq_true.mp (List.all_takeWhile (l := s) (p := (· != 0))) 0 h
  simp at hne

theorem bne_zero_of_not_mem {s : List Byte} (hs : (0 : Byte) ∉ s) : ∀ b ∈ s, (b != 0) = true := by
  intro b hb
  simpa using fun h0 : b = 0 => hs (h0 ▸ hb)

theorem cstrOf_eq_self {s : List Byte} (hs : (0 : Byte) ∉ s) : cstrOf s = s :=
  List.takeWhile_eq_self_iff.mpr (bne_zero_of_not_mem hs)

/-- What follows a NUL does not belong to the string. -/
theorem cstrOf_append_zero (xs ys : List Byte) : cstrOf (xs ++ 0 :: ys) = cstrOf xs := by
  induction xs with
  | nil => rfl
  | cons x xs ih =>
      rw [List.cons_append, cstrOf, cstrOf, List.takeWhile_cons, List.takeWhile_cons]
      split
      · rw [← cstrOf, ← cstrOf, ih]
      · rfl

/-- A string without NUL, followed by a NUL, reads back. -/
theorem cstr?_append_zero {s rest : List Byte} (hs : (0 : Byte) ∉ s) :
    cstr? (s ++ 0 :: rest) = some s := by
  rw [cstr?, if_pos (by simp), cstrOf_append_zero, cstrOf_eq_self hs]

/-- A string shorter than the destination is copied whole and terminated, and
    reads back whatever follows the destination. -/
theorem cstr?_strncpy_append {n : Nat} {s rest : List Byte} (h : (cstrOf s).length < n) :
    cstr? (strncpy n s ++ rest) = some (cstrOf s) := by
  obtain ⟨k, hk⟩ : ∃ k, n - (cstrOf s).length = k + 1 := ⟨n - (cstrOf s).length - 1, by omega⟩
  rw [strncpy, List.take_of_length_le (by omega), hk, List.replicate_succ, List.append_assoc,
    List.cons_append]
  exact cstr?_append_zero (zero_not_mem_cstrOf s)

/-- A buffer with a NUL is its string, the NUL and the rest. -/
theorem exists_eq_cstrOf_append {s : List Byte} (h : 0 ∈ s) : ∃ rest, s = cstrOf s ++ 0 :: rest := by
  obtain ⟨str, rest, rfl, hstr⟩ := List.eq_append_cons_of_mem h
  exact ⟨rest, by rw [cstrOf_append_zero, cstrOf_eq_self hstr]⟩

theorem cstrOf_append_of_mem {xs : List Byte} (h : 0 ∈ xs) (ys : List Byte) :
    cstrOf (xs ++ ys) = cstrOf xs := by
  obtain ⟨rest, hrest⟩ := exists_eq_cstrOf_append h
  rw [hrest, List.append_assoc, List.cons_append, cstrOf_append_zero, cstrOf_append_zero]

theorem cstrOf_append_of_not_mem {xs : List Byte} (h : (0 : Byte) ∉ xs) (ys : List Byte) :
    cstrOf (xs ++ ys) = xs ++ cstrOf ys :=
  List.takeWhile_append_of_pos (bne_zero_of_not_mem h)

theorem length_cstrOf_lt_iff (s : List Byte) : (cstrOf s).length < s.length ↔ 0 ∈ s := by
  by_cases h : 0 ∈ s
  · obtain ⟨rest, hrest⟩ := exists_eq_cstrOf_append h
    have hlen := congrArg List.length hrest
    rw [List.length_append, List.length_cons] at hlen
    exact iff_of_true (by omega) h
  · exact iff_of_false (by rw [cstrOf_eq_self h]; exact Nat.lt_irrefl _) h

/-- The first NUL lies in the first part of a concatenation exactly if that part
    has one. -/
theorem length_cstrOf_append_lt_iff (xs ys : List Byte) :
    (cstrOf (xs ++ ys)).length < xs.length ↔ 0 ∈ xs := by
  by_cases h : 0 ∈ xs
  · rw [cstrOf_append_of_mem h, length_cstrOf_lt_iff]
  · refine iff_of_false ?_ h
    rw [cstrOf_append_of_not_mem h, List.length_append]
    omega

/-- Padding with NULs does not change the string. -/
theorem cstrOf_append_replicate_zero (xs : List Byte) (k : Nat) :
    cstrOf (xs ++ List.replicate k 0) = cstrOf xs := by
  cases k with
  | zero => rw [List.replicate_zero, List.append_nil]
  | succ k => rw [List.replicate_succ, cstrOf_append_zero]

theorem take_eq_cstrOf_append {s : List Byte} (h : 0 ∈ s) :
    s.take ((cstrOf s).length + 1) = cstrOf s ++ [0] := by
  obtain ⟨rest, hrest⟩ := exists_eq_cstrOf_append h
  nth_rewrite 2 [hrest]
  rw [List.take_length_add_append]
  rfl

/-- Up to its end the string has no NUL. -/
theorem getElem?_eq_zero_iff {s : List Byte} (h : 0 ∈ s) {i : Nat} (hi : i ≤ (cstrOf s).length) :
    s[i]? = some 0 ↔ i = (cstrOf s).length := by
  obtain ⟨rest, hrest⟩ := exists_eq_cstrOf_append h
  rcases Nat.lt_or_eq_of_le hi with hlt | rfl
  · refine iff_of_false (fun hzero => zero_not_mem_cstrOf s ?_) (Nat.ne_of_lt hlt)
    rw [hrest, List.getElem?_append_left hlt] at hzero
    exact List.mem_of_getElem? hzero
  · refine iff_of_true ?_ rfl
    nth_rewrite 1 [hrest]
    rw [List.getElem?_append_right (Nat.le_refl _), Nat.sub_self]
    rfl

/-- Two buffers hold the same string exactly if they agree up to and including
    the NUL of one of them. -/
theorem cstrOf_eq_iff {v w : List Byte} (hv : 0 ∈ v) (hw : 0 ∈ w) :
    cstrOf w = cstrOf v ↔ ∀ i ≤ (cstrOf v).length, w[i]? = v[i]? := by
  constructor
  · intro h i hi
    have htake : w.take ((cstrOf v).length + 1) = v.take ((cstrOf v).length + 1) := by
      rw [take_eq_cstrOf_append hv, ← h, take_eq_cstrOf_append hw]
    rw [← List.getElem?_take_of_lt (Nat.lt_succ_of_le hi), htake,
      List.getElem?_take_of_lt (Nat.lt_succ_of_le hi)]
  · intro h
    have htake : w.take ((cstrOf v).length + 1) = cstrOf v ++ [0] := by
      rw [← take_eq_cstrOf_append hv]
      apply List.ext_getElem?
      intro i
      by_cases hi : i ≤ (cstrOf v).length
      · rw [List.getElem?_take_of_lt (Nat.lt_succ_of_le hi),
          List.getElem?_take_of_lt (Nat.lt_succ_of_le hi), h i hi]
      · rw [List.getElem?_take_eq_none (by omega), List.getElem?_take_eq_none (by omega)]
    rw [← List.take_append_drop ((cstrOf v).length + 1) w, htake, List.append_assoc,
      List.singleton_append, cstrOf_append_zero,
      cstrOf_eq_self (zero_not_mem_cstrOf v)]

/-- `strncpy` leaves a NUL in the destination exactly if the string is shorter. -/
theorem zero_mem_strncpy_iff (n : Nat) (s : List Byte) :
    0 ∈ strncpy n s ↔ (cstrOf s).length < n := by
  have hchars : (0 : Byte) ∉ (cstrOf s).take n :=
    fun h => zero_not_mem_cstrOf s (List.mem_of_mem_take h)
  rw [strncpy, List.mem_append, or_iff_right hchars, List.mem_replicate, and_iff_left rfl]
  omega

/-! ## Numbers -/

/-- `isspace` in the C locale. -/
def isSpace (b : Byte) : Bool := b = 32 || (9 ≤ b.toNat && b.toNat ≤ 13)

/-- The value of the longest prefix of decimal digits. -/
def digitsVal : Nat → List Byte → Nat
  | acc, [] => acc
  | acc, b :: bs =>
      if 48 ≤ b.toNat ∧ b.toNat ≤ 57 then digitsVal (acc * 10 + (b.toNat - 48)) bs else acc

/-- `strtol(s, NULL, 10)` on a 64-bit `long`: leading blanks, a sign, digits;
    out-of-range values are clamped. -/
def strtol (s : List Byte) : Int :=
  match (cstrOf s).dropWhile isSpace with
  | [] => 0
  | b :: bs =>
      if b = 45 then max (-(digitsVal 0 bs : Int)) (-2 ^ 63)
      else if b = 43 then min (digitsVal 0 bs : Int) (2 ^ 63 - 1)
      else min (digitsVal 0 (b :: bs) : Int) (2 ^ 63 - 1)

/-- `atoi`: the low 32 bits of `strtol`. -/
def atoi (s : List Byte) : BitVec 32 := BitVec.ofInt 32 (strtol s)

example : atoi [32, 45, 52, 50, 0, 57] = BitVec.ofInt 32 (-42) := by decide

end LinuxModules.Lib
