/-
  LinuxModules.Lib.InetChecksum

  The Internet checksum: the one's complement of the one's complement sum of the
  16-bit words of a byte string, high byte first and a last odd byte padded with
  zero.

  A one's complement sum is the plain sum of the words up to multiples of 0xffff,
  and it is zero only if every word is: `onesSum_mod_wordSum` and
  `onesSum_eq_zero_iff`.  Everything else is arithmetic modulo 0xffff.
-/

import LinuxModules.Lib.Bytes

namespace LinuxModules.Lib

/-- Addition with end-around carry. -/
def onesAdd (a b : Nat) : Nat := (a + b) % 65536 + (a + b) / 65536

/-- The one's complement sum of the words of a byte string. -/
def onesSum : List Byte → Nat
  | [] => 0
  | [a] => a.toNat * 256
  | a :: b :: bs => onesAdd (a.toNat * 256 + b.toNat) (onesSum bs)

/-- The plain sum of the words of a byte string. -/
def wordSum : List Byte → Nat
  | [] => 0
  | [a] => a.toNat * 256
  | a :: b :: bs => a.toNat * 256 + b.toNat + wordSum bs

/-- The complement, as it is stored in a header. -/
def onesCompl (sum : Nat) : Nat := 65535 - sum

theorem onesAdd_le {a b : Nat} (ha : a ≤ 65535) (hb : b ≤ 65535) : onesAdd a b ≤ 65535 := by
  unfold onesAdd
  omega

theorem onesAdd_mod (a b : Nat) : onesAdd a b % 65535 = (a + b) % 65535 := by
  unfold onesAdd
  omega

theorem onesAdd_eq_zero_iff (a b : Nat) : onesAdd a b = 0 ↔ a + b = 0 := by
  unfold onesAdd
  omega

theorem word_le (a b : Byte) : a.toNat * 256 + b.toNat ≤ 65535 := by
  have ha := a.isLt
  have hb := b.isLt
  omega

theorem onesSum_le (bs : List Byte) : onesSum bs ≤ 65535 := by
  fun_induction onesSum bs with
  | case1 => decide
  | case2 a =>
      have ha := a.isLt
      omega
  | case3 a b bs ih => exact onesAdd_le (word_le a b) ih

/-- The carries do not change the sum modulo 0xffff. -/
theorem onesSum_mod_wordSum (bs : List Byte) : onesSum bs % 65535 = wordSum bs % 65535 := by
  fun_induction onesSum bs with
  | case1 => rfl
  | case2 a => rfl
  | case3 a b bs ih =>
      rw [onesAdd_mod, wordSum]
      omega

theorem onesSum_eq_zero_iff (bs : List Byte) : onesSum bs = 0 ↔ wordSum bs = 0 := by
  fun_induction onesSum bs with
  | case1 => exact Iff.rfl
  | case2 a => exact Iff.rfl
  | case3 a b bs ih =>
      rw [onesAdd_eq_zero_iff, wordSum]
      omega

/-- The test of a receiver. -/
theorem onesSum_eq_ffff_iff (bs : List Byte) :
    onesSum bs = 65535 ↔ 0 < wordSum bs ∧ wordSum bs % 65535 = 0 := by
  have hle := onesSum_le bs
  have hmod := onesSum_mod_wordSum bs
  have hzero := onesSum_eq_zero_iff bs
  omega

/-- Two sums, neither of them of zeros only. -/
theorem onesSum_eq_iff {bs bs' : List Byte} (h : 0 < wordSum bs) (h' : 0 < wordSum bs') :
    onesSum bs = onesSum bs' ↔ wordSum bs % 65535 = wordSum bs' % 65535 := by
  have hle := onesSum_le bs
  have hle' := onesSum_le bs'
  have hmod := onesSum_mod_wordSum bs
  have hmod' := onesSum_mod_wordSum bs'
  have hzero := onesSum_eq_zero_iff bs
  have hzero' := onesSum_eq_zero_iff bs'
  omega

/-- Words do not straddle a part of even length. -/
theorem wordSum_append {xs : List Byte} (hxs : xs.length % 2 = 0) (ys : List Byte) :
    wordSum (xs ++ ys) = wordSum xs + wordSum ys := by
  fun_induction wordSum xs with
  | case1 => simp
  | case2 a => simp at hxs
  | case3 a b xs ih =>
      simp only [List.length_cons] at hxs
      rw [List.cons_append, List.cons_append, wordSum, ih (by omega)]
      omega

end LinuxModules.Lib
