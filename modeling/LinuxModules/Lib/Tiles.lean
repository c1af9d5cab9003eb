/-
  LinuxModules.Lib.Tiles

  Sequences of writes to memory.  Writes that start where the one before ended
  tile an area: the area then holds what was written (`writeAll_tiles`), and each
  of its bytes was written once (`countP_covers_tiles`).
-/

import LinuxModules.Lib.Bytes

namespace LinuxModules.Lib

/-- An offset and the bytes written there. -/
abbrev Write := Nat × List Byte

/-- The write reaches byte `i`. -/
def Write.Covers (i : Nat) (w : Write) : Prop := w.1 ≤ i ∧ i < w.1 + w.2.length

instance (i : Nat) : DecidablePred (Write.Covers i) := fun w =>
  inferInstanceAs (Decidable (w.1 ≤ i ∧ i < w.1 + w.2.length))

def writeAll (ws : List Write) (mem : List Byte) : List Byte :=
  ws.foldl (fun mem w => overwrite w.1 w.2 mem) mem

/-- The bytes of the writes, in order. -/
def written (ws : List Write) : List Byte := ws.flatMap Prod.snd

/-- Each write starts where the one before it ended, the first at `p`. -/
def Tiles : Nat → List Write → Prop
  | _, [] => True
  | p, w :: ws => w.1 = p ∧ Tiles (p + w.2.length) ws

theorem written_cons (w : Write) (ws : List Write) : written (w :: ws) = w.2 ++ written ws :=
  List.flatMap_cons

/-- An area that is tiled holds what was written. -/
theorem writeAll_tiles {xs old : List Byte} {ws : List Write} (h : Tiles xs.length ws)
    (hlen : old.length = (written ws).length) (ys : List Byte) :
    writeAll ws (xs ++ (old ++ ys)) = xs ++ (written ws ++ ys) := by
  induction ws generalizing xs old with
  | nil =>
      obtain rfl := List.length_eq_zero_iff.mp hlen
      rfl
  | cons w ws ih =>
      obtain ⟨hstart, hrest⟩ := h
      rw [written_cons, List.length_append] at hlen
      -- the first write takes its part of the old contents
      obtain ⟨o₁, o₂, rfl, ho₁⟩ : ∃ o₁ o₂, old = o₁ ++ o₂ ∧ o₁.length = w.2.length :=
        ⟨old.take w.2.length, old.drop w.2.length, (List.take_append_drop ..).symm, by
          rw [List.length_take]
          omega⟩
      rw [List.length_append] at hlen
      have hfirst : overwrite w.1 w.2 (xs ++ (o₁ ++ (o₂ ++ ys))) = (xs ++ w.2) ++ (o₂ ++ ys) := by
        rw [overwrite_middle hstart.symm ho₁, List.append_assoc]
      have hih : writeAll ws ((xs ++ w.2) ++ (o₂ ++ ys)) = (xs ++ w.2) ++ (written ws ++ ys) :=
        ih (by rw [List.length_append]; exact hrest) (by omega)
      rw [List.append_assoc o₁, writeAll, List.foldl_cons, hfirst, ← writeAll, hih, written_cons]
      simp only [List.append_assoc]

/-- A byte of a tiled area was written once, any other byte never. -/
theorem countP_covers_tiles {p : Nat} {ws : List Write} (h : Tiles p ws) (i : Nat) :
    ws.countP (Write.Covers i) = if p ≤ i ∧ i < p + (written ws).length then 1 else 0 := by
  induction ws generalizing p with
  | nil =>
      have hno : ¬ (p ≤ i ∧ i < p + (written []).length) := by
        show ¬ (p ≤ i ∧ i < p + 0)
        omega
      rw [List.countP_nil, if_neg hno]
  | cons w ws ih =>
      obtain ⟨hstart, hrest⟩ := h
      rw [List.countP_cons, ih hrest, written_cons, List.length_append]
      simp only [Write.Covers, decide_eq_true_eq, hstart]
      split <;> split <;> split <;> omega

end LinuxModules.Lib
