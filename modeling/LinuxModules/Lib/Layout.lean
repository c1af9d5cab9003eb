/-
  LinuxModules.Lib.Layout

  Records with a fixed layout in memory: a type whose values take `size` bytes
  and are read back from them.  `modifyAt` is an assignment to fields of such a
  record through a pointer: the fields that are not assigned keep what the
  memory held.
-/

import LinuxModules.Lib.Bytes

namespace LinuxModules.Lib

/-- Values of `α` are stored in `size` bytes. -/
class Layout (α : Type _) where
  size : Nat
  toBytes : α → List Byte
  ofBytes : List Byte → α
  length_toBytes : ∀ x, (toBytes x).length = size
  ofBytes_toBytes : ∀ x, ofBytes (toBytes x) = x

attribute [simp] Layout.length_toBytes Layout.ofBytes_toBytes

variable {α : Type _} [Layout α]

theorem toBytes_inj {x y : α} : Layout.toBytes x = Layout.toBytes y ↔ x = y := by
  constructor
  · intro h
    rw [← Layout.ofBytes_toBytes x, h, Layout.ofBytes_toBytes]
  · exact congrArg _

/-- The record at offset `off`. -/
def loadAt (α : Type _) [Layout α] (off : Nat) (mem : List Byte) : α :=
  Layout.ofBytes ((mem.drop off).take (Layout.size α))

/-- Update the record at offset `off` in place. -/
def modifyAt (off : Nat) (f : α → α) (mem : List Byte) : List Byte :=
  overwrite off (Layout.toBytes (f (loadAt α off mem))) mem

theorem loadAt_middle {off : Nat} {xs old ys : List Byte} (hoff : xs.length = off)
    (hold : old.length = Layout.size α) :
    loadAt α off (xs ++ (old ++ ys)) = Layout.ofBytes old := by
  subst hoff
  rw [loadAt, List.drop_left, ← hold, List.take_left]

theorem modifyAt_middle {off : Nat} {xs old ys : List Byte} (f : α → α) (hoff : xs.length = off)
    (hold : old.length = Layout.size α) :
    modifyAt off f (xs ++ (old ++ ys)) = xs ++ (Layout.toBytes (f (Layout.ofBytes old)) ++ ys) := by
  rw [modifyAt, loadAt_middle hoff hold]
  exact overwrite_middle hoff (by rw [hold, Layout.length_toBytes])

end LinuxModules.Lib
