/-
  LinuxModules.Lib.Bytes

  Byte strings and fixed-width little-endian integers in them.

  `leBytes k v` writes the low `k` bytes of `v` and `leNat` reads a byte string
  back (`leNat_leBytes`, `leBytes_leNat`).  `field` reads a fixed-width integer at an offset of a
  record, and `field_append_left` / `field_append_right` locate it in a
  concatenation.  `overwrite` is `memcpy` into the middle of a byte string.
-/

import Mathlib.Data.List.Basic
import Mathlib.Tactic.Ring

namespace LinuxModules.Lib

abbrev Byte := BitVec 8

/-- The low `k` bytes of `v`, least significant first. -/
def leBytes : Nat → Nat → List Byte
  | 0, _ => []
  | k + 1, v => BitVec.ofNat 8 v :: leBytes k (v / 256)

/-- The value of a little-endian byte string. -/
def leNat : List Byte → Nat
  | [] => 0
  | b :: bs => b.toNat + 256 * leNat bs

@[simp] theorem length_leBytes (k v : Nat) : (leBytes k v).length = k := by
  induction k generalizing v with
  | zero => rfl
  | succ k ih => simp [leBytes, ih]

theorem leNat_lt (bs : List Byte) : leNat bs < 256 ^ bs.length := by
  induction bs with
  | nil => decide
  | cons b bs ih =>
      have hb : b.toNat < 256 := b.isLt
      rw [leNat, List.length_cons, pow_succ]
      omega

/-- Reading back what was written truncates to the width. -/
theorem leNat_leBytes (k v : Nat) : leNat (leBytes k v) = v % 256 ^ k := by
  induction k generalizing v with
  | zero => simp [leBytes, leNat, Nat.mod_one]
  | succ k ih =>
      have hpow : 256 ^ (k + 1) = 256 * 256 ^ k := by ring
      rw [leBytes, leNat, ih, BitVec.toNat_ofNat, hpow, Nat.mod_mul]

/-- Writing what was read gives the bytes back. -/
theorem leBytes_leNat (bs : List Byte) : leBytes bs.length (leNat bs) = bs := by
  induction bs with
  | nil => rfl
  | cons b bs ih =>
      have hb : b.toNat < 256 := b.isLt
      have hlow : BitVec.ofNat 8 (b.toNat + 256 * leNat bs) = b := by
        apply BitVec.eq_of_toNat_eq
        rw [BitVec.toNat_ofNat]
        omega
      have hrest : (b.toNat + 256 * leNat bs) / 256 = leNat bs := by omega
      rw [List.length_cons, leNat, leBytes, hlow, hrest, ih]

/-! ## Integer fields of a record -/

/-- The `w`-byte integer at offset `off`. -/
def field (off w : Nat) (bs : List Byte) : Nat := leNat ((bs.drop off).take w)

theorem field_lt (off w : Nat) (bs : List Byte) : field off w bs < 256 ^ w :=
  calc field off w bs < 256 ^ ((bs.drop off).take w).length := leNat_lt _
    _ ≤ 256 ^ w := Nat.pow_le_pow_right (by decide) (List.length_take_le w _)

/-- A field that lies in the first part of a concatenation. -/
theorem field_append_left {off w : Nat} {xs ys : List Byte} (h : off + w ≤ xs.length) :
    field off w (xs ++ ys) = field off w xs := by
  have hle : w ≤ (xs.drop off).length := by rw [List.length_drop]; omega
  rw [field, field, List.drop_append_of_le_length (by omega),
    List.take_append_of_le_length hle]

/-- A field that lies in the second part of a concatenation. -/
theorem field_append_right {off w : Nat} {xs ys : List Byte} (h : xs.length ≤ off) :
    field off w (xs ++ ys) = field (off - xs.length) w ys := by
  rw [field, field, List.drop_append, List.drop_eq_nil_of_le h, List.nil_append]

theorem field_drop (off k w : Nat) (bs : List Byte) :
    field off w (bs.drop k) = field (k + off) w bs := by
  rw [field, field, List.drop_drop]

/-- A field written by `leBytes` reads back. -/
theorem field_leBytes (w v : Nat) : field 0 w (leBytes w v) = v % 256 ^ w := by
  have hlen : w = (leBytes w v).length := (length_leBytes w v).symm
  rw [field, List.drop_zero, ← leNat_leBytes]
  nth_rewrite 1 [hlen]
  rw [List.take_length]

/-! ## Overwriting a window -/

/-- `memcpy(dst + off, src, |src|)` inside the byte string `dst`. -/
def overwrite (off : Nat) (src dst : List Byte) : List Byte :=
  dst.take off ++ src ++ dst.drop (off + src.length)

theorem length_overwrite {off : Nat} {src dst : List Byte} (h : off + src.length ≤ dst.length) :
    (overwrite off src dst).length = dst.length := by
  simp only [overwrite, List.length_append, List.length_take, List.length_drop]
  omega

/-- Overwriting exactly the middle part of a concatenation. -/
theorem overwrite_middle {off : Nat} {xs old src ys : List Byte} (hoff : xs.length = off)
    (hlen : old.length = src.length) :
    overwrite off src (xs ++ (old ++ ys)) = xs ++ (src ++ ys) := by
  subst hoff
  rw [overwrite, List.take_left, ← hlen, ← List.append_assoc xs old ys,
    ← List.length_append, List.drop_left, List.append_assoc]

end LinuxModules.Lib
