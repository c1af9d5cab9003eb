/-
  LinuxModules.Net.RawSkb

  Socket buffers by their memory: `alloc_skb`, `skb_reserve`, `skb_put` and
  `skb_push`, and writes through the pointers these return.

  `skb_reserve` moves `data` and `tail` unchecked; `skb_put` and `skb_push` panic
  when they leave the buffer.  `skbOf front body rest` is a buffer written as its
  headroom, its data and its tailroom, and the lemmas below move bytes between
  the three parts.
-/

import LinuxModules.Lib.Layout
import LinuxModules.Lib.Tiles
import LinuxModules.Net.SkBuff

namespace LinuxModules.Net

open LinuxModules.Lib

/-- A linear `struct sk_buff`: `buf` is the memory from `head` to `end`, `data`
    and `tail` are offsets in it. -/
structure RawSkb where
  buf : List Byte
  data : Nat
  tail : Nat

inductive SkbPanic where
  | over
  | under
  deriving DecidableEq, Repr

/-- `skb->len` of a linear buffer. -/
def RawSkb.len (skb : RawSkb) : Nat := skb.tail - skb.data

/-- The bytes from `data` to `tail`, which a driver would send. -/
def RawSkb.bytes (skb : RawSkb) : List Byte := (skb.buf.drop skb.data).take skb.len

/-- What the memory of an allocation holds at `off`, `off + 1`, ... -/
def staleBytes (mem : SkbMem) (off n : Nat) : List Byte :=
  (List.range n).map fun i => mem.stale (off + i)

/-- `alloc_skb`: at least `size` bytes, not cleared, or NULL. -/
def allocSkb (size : BitVec 32) (mem : Option SkbMem) : Option RawSkb :=
  mem.map fun m => { buf := staleBytes m 0 (size.toNat + m.slack), data := 0, tail := 0 }

def skbReserve (skb : RawSkb) (len : Nat) : RawSkb :=
  { skb with data := skb.data + len, tail := skb.tail + len }

/-- `skb_put`: the offset of the new bytes, or `skb_over_panic`. -/
def skbPut (skb : RawSkb) (len : Nat) : Except SkbPanic (Nat × RawSkb) :=
  if skb.buf.length < skb.tail + len then .error .over
  else .ok (skb.tail, { skb with tail := skb.tail + len })

/-- `skb_push`: the offset of the new bytes, or `skb_under_panic`. -/
def skbPush (skb : RawSkb) (len : Nat) : Except SkbPanic (Nat × RawSkb) :=
  if skb.data < len then .error .under
  else .ok (skb.data - len, { skb with data := skb.data - len })

/-- `memcpy(p, src, |src|)` for a pointer into the buffer. -/
def RawSkb.store (skb : RawSkb) (p : Nat) (src : List Byte) : RawSkb :=
  { skb with buf := overwrite p src skb.buf }

/-- A sequence of writes. -/
def RawSkb.storeAll (skb : RawSkb) (ws : List Write) : RawSkb :=
  { skb with buf := writeAll ws skb.buf }

/-- Assignments to fields of the record that `p` points to. -/
def RawSkb.modify {α : Type _} [Layout α] (skb : RawSkb) (p : Nat) (f : α → α) : RawSkb :=
  { skb with buf := modifyAt p f skb.buf }

@[simp] theorem length_staleBytes (mem : SkbMem) (off n : Nat) :
    (staleBytes mem off n).length = n := by
  rw [staleBytes, List.length_map, List.length_range]

theorem staleBytes_add (mem : SkbMem) (off m n : Nat) :
    staleBytes mem off (m + n) = staleBytes mem off m ++ staleBytes mem (off + m) n := by
  rw [staleBytes, List.range_add, List.map_append, List.map_map]
  simp only [staleBytes, Function.comp_def, Nat.add_assoc]

/-! ## A buffer in three parts -/

/-- Headroom, data and tailroom. -/
def skbOf (front body rest : List Byte) : RawSkb where
  buf := front ++ (body ++ rest)
  data := front.length
  tail := front.length + body.length

@[simp] theorem bytes_skbOf (front body rest : List Byte) : (skbOf front body rest).bytes = body := by
  rw [RawSkb.bytes, RawSkb.len, skbOf, Nat.add_sub_cancel_left, List.drop_left, List.take_left]

@[simp] theorem len_skbOf (front body rest : List Byte) :
    (skbOf front body rest).len = body.length :=
  Nat.add_sub_cancel_left ..

theorem skbReserve_empty (front rest : List Byte) :
    skbReserve { buf := front ++ rest, data := 0, tail := 0 } front.length = skbOf front [] rest := by
  simp [skbReserve, skbOf]

theorem skbPut_skbOf (front body new rest : List Byte) :
    skbPut (skbOf front body (new ++ rest)) new.length =
      .ok (front.length + body.length, skbOf front (body ++ new) rest) := by
  have hroom : ¬ (skbOf front body (new ++ rest)).buf.length <
      (skbOf front body (new ++ rest)).tail + new.length := by
    simp only [skbOf, List.length_append]
    omega
  rw [skbPut, if_neg hroom]
  simp [skbOf, Nat.add_assoc]

theorem skbPush_skbOf (front new body rest : List Byte) :
    skbPush (skbOf (front ++ new) body rest) new.length =
      .ok (front.length, skbOf front (new ++ body) rest) := by
  have hroom : ¬ (skbOf (front ++ new) body rest).data < new.length := by
    simp only [skbOf, List.length_append]
    omega
  rw [skbPush, if_neg hroom]
  simp [skbOf, Nat.add_assoc]

/-- Overwriting a part of the data. -/
theorem store_skbOf {p : Nat} (front xs old src ys rest : List Byte)
    (hp : p = front.length + xs.length) (hlen : old.length = src.length) :
    (skbOf front (xs ++ (old ++ ys)) rest).store p src = skbOf front (xs ++ (src ++ ys)) rest := by
  have hbuf : front ++ (xs ++ (old ++ ys) ++ rest) = (front ++ xs) ++ (old ++ (ys ++ rest)) := by
    simp only [List.append_assoc]
  simp only [RawSkb.store, skbOf]
  rw [hbuf, overwrite_middle (by rw [List.length_append, hp]) hlen]
  simp only [List.append_assoc, List.length_append, hlen]

/-- Writes that tile the end of the data. -/
theorem storeAll_skbOf {p : Nat} {ws : List Write} {old : List Byte} (front xs rest : List Byte)
    (hp : front.length + xs.length = p) (h : Tiles p ws) (hlen : old.length = (written ws).length) :
    (skbOf front (xs ++ old) rest).storeAll ws = skbOf front (xs ++ written ws) rest := by
  have hbuf : front ++ (xs ++ old ++ rest) = (front ++ xs) ++ (old ++ rest) := by
    simp only [List.append_assoc]
  simp only [RawSkb.storeAll, skbOf]
  rw [hbuf, writeAll_tiles (by rw [List.length_append, hp]; exact h) hlen]
  simp only [List.append_assoc, List.length_append, hlen]

variable {α : Type _} [Layout α]

/-- Assigning fields of the record at the end of the data. -/
theorem modify_skbOf {old : List Byte} (f : α → α) (front xs rest : List Byte)
    (hold : old.length = Layout.size α) :
    (skbOf front (xs ++ old) rest).modify (front.length + xs.length) f =
      skbOf front (xs ++ Layout.toBytes (f (Layout.ofBytes old))) rest := by
  have hbuf : front ++ (xs ++ old ++ rest) = (front ++ xs) ++ (old ++ rest) := by
    simp only [List.append_assoc]
  simp only [RawSkb.modify, skbOf]
  rw [hbuf, modifyAt_middle f (List.length_append ..) hold]
  simp only [List.append_assoc, List.length_append, hold, Layout.length_toBytes]

/-- Reading the record at the start of the data. -/
theorem loadAt_skbOf (x : α) (front ys rest : List Byte) :
    loadAt α front.length (skbOf front (Layout.toBytes x ++ ys) rest).buf = x := by
  have hbuf : (skbOf front (Layout.toBytes x ++ ys) rest).buf =
      front ++ (Layout.toBytes x ++ (ys ++ rest)) := by
    simp only [skbOf, List.append_assoc]
  rw [hbuf, loadAt_middle rfl (Layout.length_toBytes x), Layout.ofBytes_toBytes]

end LinuxModules.Net
