/-
  LinuxModules.Mon.Lover

  The private ioctl `ioctl_char128_mon` of `mon.c`: a string of up to 32 bytes
  that one request sets and another reads back.

  Both requests go through one scratch buffer of 128 bytes, which is filled from
  the user's own data first.  `g_lover` has no room for a terminator, so that a
  name of 32 characters and more is stored without one; a later read then runs
  on into what the reader put into the scratch buffer.
-/

import LinuxModules.Lib.CString
import LinuxModules.Lib.Run
import Mathlib.Data.List.Induction

namespace LinuxModules.Mon

open LinuxModules.Lib

/-- `IOCTL_CHAR128` -/
def ioctlChar128 : Nat := 128

/-- `sizeof(g_lover)` -/
def sizeofLover : Nat := 32

/-- The sub-commands of the three private ioctls. -/
inductive MonCmd where
  | hello
  | setLover
  | getLover
  | setMaxsta
  | getMaxsta
  deriving DecidableEq, Repr

/-- `IOCTL_MON_HELLO` and the values after it. -/
def MonCmd.ofFlags (flags : BitVec 16) : Option MonCmd :=
  if flags = 0x11 then some .hello
  else if flags = 0x12 then some .setLover
  else if flags = 0x13 then some .getLover
  else if flags = 0x14 then some .setMaxsta
  else if flags = 0x15 then some .getMaxsta
  else none

/-- `struct iw_point` of a request, with the user's memory that it points to. -/
structure Request where
  flags : BitVec 16
  length : BitVec 16
  pointer : Nat → Byte

/-- What the caller sees: the result, the new `length`, and what was copied to
    its buffer. -/
structure Reply where
  ret : Int
  length : Nat
  toUser : List Byte
  deriving DecidableEq

/-- The globals of the module. -/
structure Globals where
  gLover : List Byte
  gLover_length : gLover.length = sizeofLover

/-- The first `n` bytes at a user pointer. -/
def fromUser (pointer : Nat → Byte) (n : Nat) : List Byte := (List.range n).map pointer

/-- `u->data.length` after the first test. -/
def Request.clipped (r : Request) : Nat :=
  if ioctlChar128 < r.length.toNat then ioctlChar128 else r.length.toNat

/-- `s` after `kzalloc`, `copy_from_user` and the assignment of the last byte. -/
def scratch (r : Request) : List Byte :=
  (overwrite 0 (fromUser r.pointer r.clipped) (List.replicate ioctlChar128 0)).set
    (ioctlChar128 - 1) 0

theorem clipped_eq (r : Request) : r.clipped = min r.length.toNat ioctlChar128 := by
  unfold Request.clipped
  split <;> omega

@[simp] theorem length_fromUser (pointer : Nat → Byte) (n : Nat) : (fromUser pointer n).length = n := by
  rw [fromUser, List.length_map, List.length_range]

theorem length_scratch (r : Request) : (scratch r).length = ioctlChar128 := by
  rw [scratch, List.length_set, length_overwrite, List.length_replicate]
  rw [length_fromUser, List.length_replicate, Nat.zero_add, clipped_eq]
  exact Nat.min_le_right ..

/-- `set_lover` -/
def setLover (buf : List Byte) (hbuf : sizeofLover ≤ buf.length) : Globals where
  gLover := buf.take sizeofLover
  gLover_length := by rw [List.length_take, Nat.min_eq_left hbuf]

/-- `get_lover` -/
def getLover (st : Globals) (buf : List Byte) : List Byte :=
  (overwrite 0 st.gLover buf).set (ioctlChar128 - 1) 0

/-- `ioctl_char128_mon`, with memory and user copies that succeed.  `strlen` ends
    at the last byte of `s` at the latest. -/
def ioctlChar128Mon (st : Globals) (r : Request) : Globals × Reply :=
  let s := scratch r
  match MonCmd.ofFlags r.flags with
  | some .setLover =>
      (setLover s (by rw [length_scratch]; decide), { ret := 0, length := r.clipped, toUser := [] })
  | some .getLover =>
      let s := getLover st s
      let length := (cstrOf s).length + 1
      (st, { ret := 0, length, toUser := s.take length })
  -- `IOCTL_MON_HELLO` and unknown commands only print
  | _ => (st, { ret := 0, length := r.clipped, toUser := [] })

/-- `static char g_lover[32] = {0}` -/
def monStart : Globals where
  gLover := List.replicate sizeofLover 0
  gLover_length := List.length_replicate

/-- A request with `IOCTL_MON_GET_LOVER`. -/
def getRequest (length : BitVec 16) (pointer : Nat → Byte) : Request := ⟨0x13, length, pointer⟩

/-! ## What a reader should get -/

/-- The data of a request. -/
def Request.payload (r : Request) : List Byte := fromUser r.pointer r.length.toNat

def Request.isSet (r : Request) : Bool := MonCmd.ofFlags r.flags = some .setLover

/-- The string of the last request that set one: its data up to a NUL, and at
    most as many bytes as `g_lover` has. -/
def lastLover (rs : List Request) : List Byte :=
  match rs.reverse.find? Request.isSet with
  | some r => cstrOf (r.payload.take sizeofLover)
  | none => []

/-- A reply that is a string, with its terminator. -/
def Reply.str (s : List Byte) : Reply := { ret := 0, length := s.length + 1, toUser := s ++ [0] }

theorem Reply.str_inj {s t : List Byte} (h : Reply.str s = Reply.str t) : s = t :=
  List.append_cancel_right (congrArg Reply.toUser h)

/-! ## The scratch buffer -/

/-- A copy into a buffer of zeros. -/
theorem getElem?_overwrite_fromUser (pointer : Nat → Byte) (n : Nat) {size i : Nat}
    (hi : i < size) :
    (overwrite 0 (fromUser pointer n) (List.replicate size 0))[i]? =
      some (if i < n then pointer i else 0) := by
  have hlen := length_fromUser pointer n
  rw [overwrite, List.take_zero, List.nil_append, Nat.zero_add, hlen]
  by_cases hin : i < n
  · rw [if_pos hin, List.getElem?_append_left (by omega), fromUser, List.getElem?_map,
      List.getElem?_range hin]
    rfl
  · rw [if_neg hin, List.getElem?_append_right (by omega), hlen, List.getElem?_drop,
      List.getElem?_replicate_of_lt (by omega)]

/-- All bytes but the last: the user's, as far as they go, and zeros. -/
theorem getElem?_scratch (r : Request) {i : Nat} (hi : i < ioctlChar128 - 1) :
    (scratch r)[i]? = some (if i < r.length.toNat then r.pointer i else 0) := by
  have hclip := clipped_eq r
  have hiff : i < r.clipped ↔ i < r.length.toNat := by omega
  rw [scratch, List.getElem?_set_ne (by omega),
    getElem?_overwrite_fromUser r.pointer r.clipped (by omega)]
  simp only [hiff]

/-- What `set_lover` keeps. -/
theorem take_scratch (r : Request) :
    (scratch r).take sizeofLover =
      r.payload.take sizeofLover ++ List.replicate (sizeofLover - r.length.toNat) 0 := by
  have hsize : sizeofLover = 32 := rfl
  have hlen : (r.payload.take sizeofLover).length = min sizeofLover r.length.toNat := by
    rw [List.length_take, Request.payload, length_fromUser]
  apply List.ext_getElem?
  intro i
  by_cases hi : i < sizeofLover
  · rw [List.getElem?_take_of_lt hi, getElem?_scratch r (by simp only [ioctlChar128]; omega)]
    by_cases hin : i < r.length.toNat
    · rw [if_pos hin, List.getElem?_append_left (by omega), List.getElem?_take_of_lt hi,
        Request.payload, fromUser, List.getElem?_map, List.getElem?_range hin]
      rfl
    · rw [if_neg hin, List.getElem?_append_right (by omega),
        List.getElem?_replicate_of_lt (by omega)]
  · rw [List.getElem?_eq_none, List.getElem?_eq_none]
    · rw [List.length_append, hlen, List.length_replicate]
      omega
    · rw [List.length_take]
      omega

theorem last_scratch (r : Request) : (scratch r)[ioctlChar128 - 1]? = some 0 := by
  have hlen := length_scratch r
  rw [scratch, List.length_set] at hlen
  rw [scratch, List.getElem?_set_self (by rw [hlen]; decide)]

/-- The stored bytes, and behind them what the request left in the buffer.  The
    last byte is a NUL already. -/
theorem getLover_scratch (st : Globals) (r : Request) :
    getLover st (scratch r) = st.gLover ++ (scratch r).drop sizeofLover := by
  have hlast : (st.gLover ++ (scratch r).drop sizeofLover)[ioctlChar128 - 1]? = some 0 := by
    rw [List.getElem?_append_right (by rw [st.gLover_length]; decide), st.gLover_length,
      List.getElem?_drop]
    exact last_scratch r
  obtain ⟨hlt, hget⟩ := List.getElem?_eq_some_iff.mp hlast
  rw [getLover, overwrite, List.take_zero, List.nil_append, Nat.zero_add, st.gLover_length]
  nth_rewrite 2 [← List.set_getElem_self hlt]
  rw [hget]

/-- `strlen` and the copy to the reader end in the buffer. -/
theorem zero_mem_getLover (st : Globals) (r : Request) : 0 ∈ getLover st (scratch r) := by
  refine List.mem_of_getElem? (i := ioctlChar128 - 1) ?_
  rw [getLover, List.getElem?_set_self]
  rw [overwrite, List.take_zero, List.nil_append, Nat.zero_add, List.length_append,
    st.gLover_length, List.length_drop, length_scratch]
  decide

/-- The answer to a reader. -/
theorem reply_getRequest (st : Globals) (length : BitVec 16) (pointer : Nat → Byte) :
    (ioctlChar128Mon st (getRequest length pointer)).2 =
      .str (cstrOf (st.gLover ++ (scratch (getRequest length pointer)).drop sizeofLover)) := by
  have hnul := zero_mem_getLover st (getRequest length pointer)
  rw [Reply.str, ← getLover_scratch, ← take_eq_cstrOf_append hnul]
  rfl

/-- What the reader's own data adds to a stored string without NUL. -/
theorem cstrOf_drop_scratch_eq_nil_iff (r : Request) :
    cstrOf ((scratch r).drop sizeofLover) = [] ↔
      (if sizeofLover < r.length.toNat then r.pointer sizeofLover else 0) = 0 := by
  have hget := getElem?_scratch r (show sizeofLover < ioctlChar128 - 1 by decide)
  have hhead : ((scratch r).drop sizeofLover)[0]? =
      some (if sizeofLover < r.length.toNat then r.pointer sizeofLover else 0) := by
    rw [List.getElem?_drop]
    exact hget
  cases hrest : (scratch r).drop sizeofLover with
  | nil =>
      rw [hrest] at hhead
      cases hhead
  | cons b rest =>
      rw [hrest, List.getElem?_cons_zero, Option.some.injEq] at hhead
      rw [← hhead, cstrOf, List.takeWhile_cons]
      by_cases hb : b = 0 <;> simp [hb]

/-! ## Runs -/

/-- The string in `g_lover` is that of the last request that set one. -/
theorem cstrOf_gLover (rs : List Request) :
    cstrOf (final ioctlChar128Mon monStart rs).gLover = lastLover rs := by
  induction rs using List.reverseRecOn with
  | nil => rfl
  | append_singleton rs r ih =>
      have hstep : final ioctlChar128Mon monStart (rs ++ [r]) =
          (ioctlChar128Mon (final ioctlChar128Mon monStart rs) r).1 := final_append ..
      rw [hstep, lastLover, List.reverse_append, List.reverse_singleton, List.singleton_append,
        List.find?_cons, Request.isSet, ioctlChar128Mon]
      cases hcmd : MonCmd.ofFlags r.flags with
      | none => exact ih
      | some cmd =>
          cases cmd with
          | setLover =>
              simp only [decide_true]
              show cstrOf ((scratch r).take sizeofLover) = cstrOf (r.payload.take sizeofLover)
              rw [take_scratch, cstrOf_append_replicate_zero]
          | hello => exact ih
          | getLover => exact ih
          | setMaxsta => exact ih
          | getMaxsta => exact ih

/-- `g_lover` has a NUL exactly if the string is shorter. -/
theorem zero_mem_gLover_iff (rs : List Request) :
    0 ∈ (final ioctlChar128Mon monStart rs).gLover ↔ (lastLover rs).length < sizeofLover := by
  rw [← length_cstrOf_lt_iff, cstrOf_gLover, Globals.gLover_length]

/-- A reader gets the string if it has a NUL in `g_lover`, or if the reader left
    the rest of the scratch buffer clear. -/
theorem reply_of_room {rs : List Request} {length : BitVec 16}
    (hroom : (lastLover rs).length < sizeofLover ∨ length.toNat ≤ sizeofLover)
    (pointer : Nat → Byte) :
    (ioctlChar128Mon (final ioctlChar128Mon monStart rs) (getRequest length pointer)).2 =
      .str (lastLover rs) := by
  rw [reply_getRequest, ← cstrOf_gLover]
  by_cases hnul : 0 ∈ (final ioctlChar128Mon monStart rs).gLover
  · rw [cstrOf_append_of_mem hnul]
  · have hshort : length.toNat ≤ sizeofLover :=
      hroom.resolve_left fun h => hnul ((zero_mem_gLover_iff rs).mpr h)
    have hclear := (cstrOf_drop_scratch_eq_nil_iff (getRequest length pointer)).mpr
      (if_neg (Nat.not_lt.mpr hshort))
    rw [cstrOf_append_of_not_mem hnul, hclear, List.append_nil, cstrOf_eq_self hnul]

/-- After any requests, exactly when a reader gets the string that was set last,
    whatever its own buffer holds: the string left room for a NUL in `g_lover`,
    or the reader's data is not longer than that. -/
theorem get_lover_iff (rs : List Request) (length : BitVec 16) (pointer : Nat → Byte) :
    ((ioctlChar128Mon (final ioctlChar128Mon monStart rs) (getRequest length pointer)).2 =
        .str (lastLover rs) ∧
      ∀ pointer', (ioctlChar128Mon (final ioctlChar128Mon monStart rs)
          (getRequest length pointer')).2 =
        (ioctlChar128Mon (final ioctlChar128Mon monStart rs) (getRequest length pointer)).2) ↔
    (lastLover rs).length < 32 ∨ length.toNat ≤ 32 := by
  constructor
  · rintro ⟨-, hsame⟩
    by_contra hroom
    rw [not_or] at hroom
    obtain ⟨hfull, hlong⟩ := hroom
    have hnul : 0 ∉ (final ioctlChar128Mon monStart rs).gLover :=
      fun h => hfull ((zero_mem_gLover_iff rs).mp h)
    -- two readers, one with a clear buffer
    have hclear := (cstrOf_drop_scratch_eq_nil_iff (getRequest length fun _ => 0)).mpr
      (ite_self _)
    have hmarked : cstrOf ((scratch (getRequest length fun _ => 1)).drop sizeofLover) ≠ [] := by
      rw [Ne, cstrOf_drop_scratch_eq_nil_iff]
      show ¬ (if sizeofLover < length.toNat then (1 : Byte) else 0) = 0
      rw [if_pos (show sizeofLover < length.toNat from Nat.lt_of_not_le hlong)]
      decide
    have hreplies := (hsame fun _ => 1).trans (hsame fun _ => 0).symm
    rw [reply_getRequest, reply_getRequest] at hreplies
    have hstr := Reply.str_inj hreplies
    rw [cstrOf_append_of_not_mem hnul, cstrOf_append_of_not_mem hnul, hclear] at hstr
    exact hmarked (List.append_cancel_left hstr)
  · intro hroom
    refine ⟨reply_of_room hroom pointer, fun pointer' => ?_⟩
    rw [reply_of_room hroom pointer', reply_of_room hroom pointer]

/-- Sets a name of 32 times the letter `a`. -/
def fullName : Request := ⟨0x12, 32, fun _ => 0x61⟩

/-- A reader whose buffer of 40 bytes holds the letter `b` gets eight of them. -/
theorem get_lover_full_name :
    (ioctlChar128Mon (final ioctlChar128Mon monStart [fullName]) (getRequest 40 fun _ => 0x62)).2 ≠
        .str (lastLover [fullName]) ∧
      (ioctlChar128Mon (final ioctlChar128Mon monStart [fullName]) (getRequest 40 fun _ => 0x62)).2 ≠
        (ioctlChar128Mon (final ioctlChar128Mon monStart [fullName]) (getRequest 40 fun _ => 0)).2 := by
  constructor
  · decide +kernel
  · decide +kernel

end LinuxModules.Mon
