/-
  LinuxModules.Netlink.UserTab

  The table of registered capture clients of netlink.c: `usertab_init`,
  `user_join`, `user_leave` and `delete_all_user` over the pair
  (`usrtab`, `usrcnt`).

  A slot whose `pid` is 0 is free.  The guards of `user_join` and `user_leave`
  look only at `usrcnt`, the scans only at the slots; `Users.Counted` ties the
  two.  Under it the pair is a bounded bag of pids (`UserTab.members`), and the
  two operations are insertion and removal in that bag.

  `pid` is kept as its 32 bits (the header field is unsigned, the slot field an
  `int`; only equality is ever used).  `usrcnt` is an `Int`: it is incremented
  only below 32 and decremented only above 0, so the C `int` cannot overflow.
-/

import LinuxModules.Lib.Run
import LinuxModules.Lib.Slots
import Mathlib.Data.Multiset.AddSub

namespace LinuxModules.Netlink

open LinuxModules.Lib

/-- `MAX_TAB_SIZE` -/
def maxTabSize : Nat := 32

/-- `struct usrconf` -/
structure Usrconf where
  pid : BitVec 32
  cmd : BitVec 32
deriving DecidableEq, Repr

/-- `usrtab[MAX_TAB_SIZE]` -/
structure UserTab where
  slots : List Usrconf
  size : slots.length = maxTabSize
deriving DecidableEq

/-- The two globals every table operation works on. -/
structure Users where
  usrtab : UserTab
  usrcnt : Int
deriving DecidableEq

/-! ## The operations -/

/-- `usertab_init`: clear both fields of every slot. -/
def usertabInit (t : UserTab) : UserTab where
  slots := t.slots.map fun _ => { pid := 0, cmd := 0 }
  size := by rw [List.length_map]; exact t.size

/-- `delete_all_user`: the table is cleared, `usrcnt` is not touched. -/
def deleteAllUser (u : Users) : Users := { u with usrtab := usertabInit u.usrtab }

/-- The scan of `user_join` and `user_leave`: store `new` in the first slot
    whose pid is `old`. -/
def UserTab.replacePid (old new : BitVec 32) (t : UserTab) : Option UserTab :=
  match h : updateFirst? (·.pid == old) (fun s => { s with pid := new }) t.slots with
  | some slots => some { slots, size := (updateFirst?_length h).trans t.size }
  | none => none

/-- `user_leave`: the new globals and the return value. -/
def userLeave (pid : BitVec 32) (u : Users) : Users × Int :=
  -- "no user": the count decides, not the table
  if u.usrcnt ≤ 0 then (u, 0)
  else
    match u.usrtab.replacePid pid 0 with
    | some t => ({ usrtab := t, usrcnt := u.usrcnt - 1 }, 1)
    | none => (u, 0)

/-- `user_join` -/
def userJoin (pid : BitVec 32) (u : Users) : Users × Int :=
  -- "user maximum"
  if u.usrcnt ≥ maxTabSize then (u, 0)
  else
    match u.usrtab.replacePid 0 pid with
    | some t => ({ usrtab := t, usrcnt := u.usrcnt + 1 }, 1)
    | none => (u, 0)

/-! ## What the table holds -/

/-- The registered pids, with multiplicity. -/
def UserTab.members (t : UserTab) : Multiset (BitVec 32) :=
  ((t.slots.map (·.pid)).filter (· ≠ 0) : List (BitVec 32))

/-- The number of slots with `pid != 0`. -/
def UserTab.occupied (t : UserTab) : Nat := t.slots.countP (·.pid ≠ 0)

/-- The count and the table are in step. -/
def Users.Counted (u : Users) : Prop := u.usrcnt = u.usrtab.occupied

instance (u : Users) : Decidable u.Counted := inferInstanceAs (Decidable (_ = _))

theorem UserTab.card_members (t : UserTab) : t.members.card = t.occupied := by
  simp only [members, occupied, Multiset.coe_card, ← List.countP_eq_length_filter,
    List.countP_map]
  rfl

theorem UserTab.occupied_le (t : UserTab) : t.occupied ≤ maxTabSize :=
  t.size ▸ List.countP_le_length

theorem UserTab.mem_members {t : UserTab} {p : BitVec 32} :
    p ∈ t.members ↔ p ≠ 0 ∧ ∃ s ∈ t.slots, s.pid = p := by
  simp [members, and_comm]

/-- The table has a free slot exactly when it is not fully occupied. -/
theorem UserTab.exists_free_iff {t : UserTab} :
    (∃ s ∈ t.slots, s.pid = 0) ↔ t.occupied < maxTabSize := by
  have hle := t.occupied_le
  have hall : t.occupied = maxTabSize ↔ ∀ s ∈ t.slots, s.pid ≠ 0 := by
    rw [occupied, ← t.size, List.countP_eq_length]
    simp
  constructor
  · rintro ⟨s, hs, h0⟩
    exact lt_of_le_of_ne hle fun heq => hall.mp heq s hs h0
  · intro hlt
    by_contra hno
    exact hlt.ne (hall.mpr fun s hs h0 => hno ⟨s, hs, h0⟩)

@[simp] theorem members_usertabInit (t : UserTab) : (usertabInit t).members = 0 := by
  simp [UserTab.members, usertabInit]

@[simp] theorem occupied_usertabInit (t : UserTab) : (usertabInit t).occupied = 0 := by
  rw [← UserTab.card_members, members_usertabInit, Multiset.card_zero]

/-! ## The scan -/

theorem UserTab.replacePid_eq_none {t : UserTab} {old new : BitVec 32} :
    t.replacePid old new = none ↔ ∀ s ∈ t.slots, s.pid ≠ old := by
  unfold replacePid
  split
  case h_1 slots h =>
    obtain ⟨pre, s, post, hsplit, hs, -, -⟩ := updateFirst?_eq_some h
    simp only [reduceCtorEq, false_iff, not_forall]
    exact ⟨s, by simp [hsplit], by simpa using hs⟩
  case h_2 h =>
    simpa using updateFirst?_eq_none.mp h

/-- A successful scan exchanges one `old` for one `new`. -/
theorem UserTab.replacePid_eq_some {t t' : UserTab} {old new : BitVec 32}
    (h : t.replacePid old new = some t') :
    ∃ pre s post, t.slots = pre ++ s :: post ∧ s.pid = old ∧
      t'.slots = pre ++ { s with pid := new } :: post := by
  unfold replacePid at h
  split at h
  case h_1 slots hs =>
    obtain ⟨pre, s, post, hsplit, hold, -, hnew⟩ := updateFirst?_eq_some hs
    cases h
    exact ⟨pre, s, post, hsplit, by simpa using hold, hnew⟩
  case h_2 => cases h

/-- Filling a free slot with a nonzero pid inserts that pid. -/
theorem UserTab.members_join {t t' : UserTab} {p : BitVec 32} (hp : p ≠ 0)
    (h : t.replacePid 0 p = some t') : t'.members = p ::ₘ t.members := by
  obtain ⟨pre, s, post, hsplit, h0, hnew⟩ := replacePid_eq_some h
  -- the rewritten slot was filtered out before and is not now
  simp only [members, hsplit, hnew, List.map_append, List.map_cons,
    List.filter_append, h0]
  rw [List.filter_cons_of_pos (by simpa using hp), List.filter_cons_of_neg (by simp)]
  exact Multiset.coe_eq_coe.mpr List.perm_middle

/-- Clearing the slot of a nonzero pid removes that pid. -/
theorem UserTab.members_leave {t t' : UserTab} {p : BitVec 32} (hp : p ≠ 0)
    (h : t.replacePid p 0 = some t') : t.members = p ::ₘ t'.members := by
  obtain ⟨pre, s, post, hsplit, hold, hnew⟩ := replacePid_eq_some h
  simp only [members, hsplit, hnew, List.map_append, List.map_cons,
    List.filter_append, hold]
  rw [List.filter_cons_of_pos (by simpa using hp), List.filter_cons_of_neg (by simp)]
  exact Multiset.coe_eq_coe.mpr List.perm_middle

/-- Rewriting a free slot with pid 0 leaves the number of occupied slots. -/
theorem UserTab.occupied_replace_zero {t t' : UserTab}
    (h : t.replacePid 0 0 = some t') : t'.occupied = t.occupied := by
  obtain ⟨pre, s, post, hsplit, h0, hnew⟩ := replacePid_eq_some h
  simp [occupied, hsplit, hnew, h0]

/-! ## One call from a counted state -/

/-- `user_join` of a nonzero pid inserts it while there is room and otherwise
    changes nothing. -/
theorem userJoin_of_counted {u : Users} {p : BitVec 32} (hp : p ≠ 0) (hu : u.Counted) :
    (u.usrtab.members.card < maxTabSize ∧ (userJoin p u).2 = 1 ∧
      (userJoin p u).1.Counted ∧
      (userJoin p u).1.usrtab.members = p ::ₘ u.usrtab.members) ∨
    (¬ u.usrtab.members.card < maxTabSize ∧ userJoin p u = (u, 0)) := by
  have hcard := u.usrtab.card_members
  have hcnt : u.usrcnt = u.usrtab.occupied := hu
  -- `user_join` looks at the count first, then scans for a free slot
  by_cases hfull : u.usrcnt ≥ maxTabSize
  · refine Or.inr ⟨by omega, ?_⟩
    rw [userJoin, if_pos hfull]
  · rw [userJoin, if_neg hfull]
    split
    case h_1 t ht =>
      have hmem := UserTab.members_join hp ht
      have ht' := t.card_members
      rw [hmem, Multiset.card_cons] at ht'
      refine Or.inl ⟨by omega, rfl, ?_, hmem⟩
      simp only [Users.Counted]
      omega
    case h_2 hnone =>
      -- an exhausted scan contradicts the room that `usrcnt` promises
      have hroom : u.usrtab.occupied < maxTabSize := by omega
      obtain ⟨s, hs, h0⟩ := UserTab.exists_free_iff.mpr hroom
      exact absurd h0 (UserTab.replacePid_eq_none.mp hnone s hs)

/-- `user_leave` of a nonzero pid removes one copy of it if there is one and
    otherwise changes nothing. -/
theorem userLeave_of_counted {u : Users} {p : BitVec 32} (hp : p ≠ 0) (hu : u.Counted) :
    (p ∈ u.usrtab.members ∧ (userLeave p u).2 = 1 ∧ (userLeave p u).1.Counted ∧
      u.usrtab.members = p ::ₘ (userLeave p u).1.usrtab.members) ∨
    (p ∉ u.usrtab.members ∧ userLeave p u = (u, 0)) := by
  have hcard := u.usrtab.card_members
  have hcnt : u.usrcnt = u.usrtab.occupied := hu
  -- `user_leave` looks at the count first, then scans for the pid
  by_cases hempty : u.usrcnt ≤ 0
  · refine Or.inr ⟨?_, by rw [userLeave, if_pos hempty]⟩
    have h0 : u.usrtab.members = 0 := Multiset.card_eq_zero.mp (by omega)
    simp [h0]
  · rw [userLeave, if_neg hempty]
    split
    case h_1 t ht =>
      have hmem := UserTab.members_leave hp ht
      have ht' := t.card_members
      rw [hmem, Multiset.card_cons] at hcard
      refine Or.inl ⟨by simp [hmem], rfl, ?_, hmem⟩
      simp only [Users.Counted]
      omega
    case h_2 hnone =>
      refine Or.inr ⟨fun hin => ?_, rfl⟩
      obtain ⟨-, s, hs, hsp⟩ := UserTab.mem_members.mp hin
      exact UserTab.replacePid_eq_none.mp hnone s hs hsp

/-! ## The table as a bounded bag -/

/-- A call of one of the two table operations. -/
inductive UserCall where
  | join (pid : BitVec 32)
  | leave (pid : BitVec 32)
deriving DecidableEq, Repr

def UserCall.pid : UserCall → BitVec 32
  | .join p => p
  | .leave p => p

/-- The call on the globals. -/
def userCall (u : Users) : UserCall → Users × Int
  | .join p => userJoin p u
  | .leave p => userLeave p u

/-- The same call on a bag of at most `MAX_TAB_SIZE` pids. -/
def bagCall (m : Multiset (BitVec 32)) : UserCall → Multiset (BitVec 32) × Int
  | .join p => if m.card < maxTabSize then (p ::ₘ m, 1) else (m, 0)
  | .leave p => if p ∈ m then (m.erase p, 1) else (m, 0)

/-- The globals represent the bag `m`. -/
def Users.Represents (u : Users) (m : Multiset (BitVec 32)) : Prop :=
  u.Counted ∧ u.usrtab.members = m

/-- One call on the globals is the same call on the bag. -/
theorem userCall_simulates (u : Users) (m : Multiset (BitVec 32)) (c : UserCall)
    (hc : c.pid ≠ 0) (h : u.Represents m) :
    (userCall u c).2 = (bagCall m c).2 ∧
      (userCall u c).1.Represents (bagCall m c).1 := by
  obtain ⟨hu, rfl⟩ := h
  cases c with
  | join p =>
      have hp : p ≠ 0 := hc
      rcases userJoin_of_counted hp hu with ⟨hlt, hret, hcnt, hmem⟩ | ⟨hlt, heq⟩
      · simp only [userCall, bagCall, if_pos hlt]
        exact ⟨hret, hcnt, hmem⟩
      · simp only [userCall, bagCall, if_neg hlt, heq]
        exact ⟨trivial, hu, rfl⟩
  | leave p =>
      have hp : p ≠ 0 := hc
      rcases userLeave_of_counted hp hu with ⟨hin, hret, hcnt, hmem⟩ | ⟨hout, heq⟩
      · simp only [userCall, bagCall, if_pos hin]
        refine ⟨hret, hcnt, ?_⟩
        rw [hmem, Multiset.erase_cons_head]
      · simp only [userCall, bagCall, if_neg hout, heq]
        exact ⟨trivial, hu, rfl⟩

/-- What one call with pid `p` may do to the bag: succeed exactly when `can`,
    then turn `m` into a bag satisfying `did`; otherwise change nothing.  The
    other pids keep their multiplicity either way. -/
structure CallSpec (u : Users) (r : Users × Int) (p : BitVec 32) (can : Prop)
    (did : Multiset (BitVec 32) → Prop) : Prop where
  ret_one_iff : r.2 = 1 ↔ can
  of_one : r.2 = 1 → did r.1.usrtab.members
  of_not_one : r.2 ≠ 1 → r = (u, 0)
  others : ∀ q, q ≠ p → r.1.usrtab.members.count q = u.usrtab.members.count q

theorem userJoin_callSpec {u : Users} {p : BitVec 32} (hp : p ≠ 0) (hu : u.Counted) :
    CallSpec u (userJoin p u) p (u.usrtab.members.card < maxTabSize)
      (· = p ::ₘ u.usrtab.members) := by
  rcases userJoin_of_counted hp hu with ⟨hlt, hret, -, hmem⟩ | ⟨hlt, heq⟩
  · refine ⟨by simp [hret, hlt], fun _ => hmem, fun h => absurd hret h, ?_⟩
    intro q hq
    rw [hmem, Multiset.count_cons_of_ne hq]
  · refine ⟨by simp [heq, hlt], ?_, fun _ => heq, fun q _ => by rw [heq]⟩
    intro h
    simp [heq] at h

theorem userLeave_callSpec {u : Users} {p : BitVec 32} (hp : p ≠ 0) (hu : u.Counted) :
    CallSpec u (userLeave p u) p (p ∈ u.usrtab.members)
      (fun m => u.usrtab.members = p ::ₘ m) := by
  rcases userLeave_of_counted hp hu with ⟨hin, hret, -, hmem⟩ | ⟨hout, heq⟩
  · refine ⟨by simp [hret, hin], fun _ => hmem, fun h => absurd hret h, ?_⟩
    intro q hq
    rw [hmem, Multiset.count_cons_of_ne hq]
  · refine ⟨by simp [heq, hout], ?_, fun _ => heq, fun q _ => by rw [heq]⟩
    intro h
    simp [heq] at h

/-- The globals after `usertab_init` with `usrcnt = 0`. -/
def usersInit (t : UserTab) : Users := { usrtab := usertabInit t, usrcnt := 0 }

theorem usersInit_represents (t : UserTab) : (usersInit t).Represents 0 :=
  ⟨by simp [Users.Counted, usersInit], by simp [usersInit]⟩

/-- The table refines the bounded bag: over every run of calls with nonzero
    pids the answers are the bag's, the count is the number of nonzero slots,
    and from the state reached every further call does to the bag exactly what
    its name says. -/
theorem userTab_refines_bag (t : UserTab) (calls : List UserCall)
    (hpid : ∀ c ∈ calls, c.pid ≠ 0) :
    let u := final userCall (usersInit t) calls
    outputs userCall (usersInit t) calls = outputs bagCall 0 calls ∧
      u.usrtab.members = final bagCall 0 calls ∧
      u.usrcnt = u.usrtab.occupied ∧
      u.usrtab.members.card = u.usrtab.occupied ∧
      u.usrtab.members.card ≤ maxTabSize ∧
      (∀ p, p ≠ 0 → CallSpec u (userJoin p u) p
        (u.usrtab.members.card < maxTabSize) (· = p ::ₘ u.usrtab.members)) ∧
      (∀ p, p ≠ 0 → CallSpec u (userLeave p u) p
        (p ∈ u.usrtab.members) (fun m => u.usrtab.members = p ::ₘ m)) := by
  intro u
  obtain ⟨hout, hcnt, hmem⟩ :=
    outputs_simulation userCall_simulates (usersInit_represents t) hpid
  have hcard : u.usrtab.members.card = u.usrtab.occupied := u.usrtab.card_members
  exact ⟨hout, hmem, hcnt, hcard, hcard ▸ u.usrtab.occupied_le,
    fun p hp => userJoin_callSpec hp hcnt, fun p hp => userLeave_callSpec hp hcnt⟩

/-- All slots free. -/
def UserTab.empty : UserTab where
  slots := List.replicate maxTabSize { pid := 0, cmd := 0 }
  size := List.length_replicate

theorem userTab_refines_bag_three_calls :
    (∀ c ∈ [UserCall.join 7, .join 9, .leave 7], c.pid ≠ 0) ∧
      outputs userCall (usersInit .empty) [.join 7, .join 9, .leave 7] = [1, 1, 1] ∧
      (final userCall (usersInit .empty) [.join 7, .join 9, .leave 7]).usrcnt =
        (final userCall (usersInit .empty) [.join 7, .join 9, .leave 7]).usrtab.occupied := by
  have h := userTab_refines_bag .empty [.join 7, .join 9, .leave 7] (by decide)
  exact ⟨by decide, by decide, h.2.2.1⟩

end LinuxModules.Netlink
