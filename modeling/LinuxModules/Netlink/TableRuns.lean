/-
  LinuxModules.Netlink.TableRuns

  Runs of client messages and of `delete_all_user` against the command state of
  netlink.c.

  Two facts are kept twice by the code and updated by different rules:

  * how many clients there are (`usrcnt` and the slots).  pid 0 is both a
    sender-controlled header value and the free-slot marker, and
    `delete_all_user` clears the slots only;
  * who is listening (`cap_nlk_portid` and the slots).  `CAP_ADD` sets the
    portid even when the table is full, `CAP_DEL` resets it whoever else is
    still registered.

  For each, the condition under which one step keeps the two in agreement is
  found exactly, and a run keeps them in agreement throughout if and only if
  each of its steps meets that condition.
-/

import LinuxModules.Netlink.ReceiveMsg

namespace LinuxModules.Netlink

open LinuxModules.Lib LinuxModules.Net

/-- The effect of `app_init` on the command state. -/
def appInitCtl (c : CapCtl) : CapCtl :=
  { c with usrtab := usertabInit c.usrtab, capNlkPortid := 0 }

/-- The command state at the end of `app_init`: the statics start as zeros. -/
def capStart : CapCtl :=
  appInitCtl { usrtab := .empty, usrcnt := 0, capNlkPortid := 0, kcapdTask := none }

theorem capStart_counted : capStart.Counted := by decide

/-- A message with the given type and sender, and nothing else. -/
def capMsg (msgType : BitVec 16) (pid : BitVec 32) : Nlmsghdr where
  nlmsgLen := 16
  nlmsgType := msgType
  nlmsgFlags := 0
  nlmsgSeq := 0
  nlmsgPid := pid

/-! ## The count and the table -/

/-- The events that touch the table. -/
inductive TabEvent where
  | msg (kt : KthreadRun) (h : Nlmsghdr)
  | deleteAllUser
deriving DecidableEq

def tabStep (c : CapCtl) : TabEvent → CapCtl
  | .msg kt h => (capReceiveMsg kt c h).ctl
  | .deleteAllUser => { c with toUsers := deleteAllUser c.toUsers }

/-- `usrcnt` is the number of slots with `pid != 0`; joining a nonzero pid
    succeeds whenever a slot is free, leaving whenever the pid is in the table. -/
def TableOk (c : CapCtl) : Prop :=
  c.Counted ∧
    (∀ p, p ≠ 0 → (∃ s ∈ c.usrtab.slots, s.pid = 0) → (userJoin p c.toUsers).2 = 1) ∧
    (∀ p, p ≠ 0 → (∃ s ∈ c.usrtab.slots, s.pid = p) → (userLeave p c.toUsers).2 = 1)

/-- The two consequences follow from the count alone. -/
theorem tableOk_iff {c : CapCtl} : TableOk c ↔ c.Counted := by
  refine ⟨fun h => h.1, fun hc => ⟨hc, ?_, ?_⟩⟩
  · intro p hp hfree
    rw [UserTab.exists_free_iff, ← UserTab.card_members] at hfree
    exact (userJoin_callSpec hp hc).ret_one_iff.mpr hfree
  · intro p hp hin
    exact (userLeave_callSpec hp hc).ret_one_iff.mpr (UserTab.mem_members.mpr ⟨hp, hin⟩)

/-- Joining pid 0 counts a client that takes no slot, unless it is refused. -/
theorem counted_userJoin_zero {u : Users} (hu : u.Counted) :
    (userJoin 0 u).1.Counted ↔ u.usrtab.occupied = maxTabSize := by
  have hcnt : u.usrcnt = u.usrtab.occupied := hu
  have hle := u.usrtab.occupied_le
  by_cases hfull : u.usrcnt ≥ maxTabSize
  · rw [userJoin, if_pos hfull]
    exact ⟨fun _ => by omega, fun _ => hu⟩
  · rw [userJoin, if_neg hfull]
    have hroom : u.usrtab.occupied ≠ maxTabSize := by omega
    simp only [hroom, iff_false]
    split
    case h_1 t ht =>
      have hocc := UserTab.occupied_replace_zero ht
      simp only [Users.Counted, hocc]
      omega
    case h_2 hnone =>
      obtain ⟨s, hs, h0⟩ := UserTab.exists_free_iff.mpr (lt_of_le_of_ne hle hroom)
      exact absurd h0 (UserTab.replacePid_eq_none.mp hnone s hs)

/-- Leaving with pid 0 "frees" a free slot, if there is one to be found. -/
theorem counted_userLeave_zero {u : Users} (hu : u.Counted) :
    (userLeave 0 u).1.Counted ↔
      u.usrtab.occupied = 0 ∨ u.usrtab.occupied = maxTabSize := by
  have hcnt : u.usrcnt = u.usrtab.occupied := hu
  have hle := u.usrtab.occupied_le
  by_cases hempty : u.usrcnt ≤ 0
  · rw [userLeave, if_pos hempty]
    exact ⟨fun _ => Or.inl (by omega), fun _ => hu⟩
  · rw [userLeave, if_neg hempty]
    -- the scan for pid 0 finds the first free slot, and the count goes down for it
    have hpos : u.usrtab.occupied ≠ 0 := by omega
    simp only [hpos, false_or]
    split
    case h_1 t ht =>
      have hocc := UserTab.occupied_replace_zero ht
      obtain ⟨pre, s, post, hsplit, h0, -⟩ := UserTab.replacePid_eq_some ht
      have hroom : u.usrtab.occupied < maxTabSize :=
        UserTab.exists_free_iff.mp ⟨s, by simp [hsplit], h0⟩
      simp only [Users.Counted, hocc]
      omega
    case h_2 hnone =>
      refine ⟨fun _ => ?_, fun _ => hu⟩
      by_contra hne
      obtain ⟨s, hs, h0⟩ := UserTab.exists_free_iff.mpr (lt_of_le_of_ne hle hne)
      exact UserTab.replacePid_eq_none.mp hnone s hs h0

/-- The event keeps count and table in step: an admitted `CAP_ADD` has a nonzero
    pid or finds the table full, an admitted `CAP_DEL` has a nonzero pid or finds
    it empty or full, `delete_all_user` finds it empty. -/
def KeepsCount (c : CapCtl) : TabEvent → Prop
  | .msg kt h => Admitted kt c h → h.nlmsgPid = 0 →
      (CapType.ofMsgType h.nlmsgType = some .capAdd → c.usrtab.occupied = maxTabSize) ∧
      (CapType.ofMsgType h.nlmsgType = some .capDel →
        c.usrtab.occupied = 0 ∨ c.usrtab.occupied = maxTabSize)
  | .deleteAllUser => c.usrtab.occupied = 0

instance (c : CapCtl) (e : TabEvent) : Decidable (KeepsCount c e) :=
  match e with
  | .msg _ _ => inferInstanceAs (Decidable (_ → _ → _ ∧ _))
  | .deleteAllUser => inferInstanceAs (Decidable (_ = _))

theorem counted_capSwitch {c : CapCtl} (hc : c.Counted) (h : Nlmsghdr) :
    (capSwitch c h).Counted ↔ (h.nlmsgPid = 0 →
      (CapType.ofMsgType h.nlmsgType = some .capAdd → c.usrtab.occupied = maxTabSize) ∧
      (CapType.ofMsgType h.nlmsgType = some .capDel →
        c.usrtab.occupied = 0 ∨ c.usrtab.occupied = maxTabSize)) := by
  unfold capSwitch
  split
  case h_1 htype =>
    by_cases hp : h.nlmsgPid = 0
    · simp only [htype, hp, true_implies, reduceCtorEq, Option.some.injEq,
        false_implies, and_true]
      exact counted_userJoin_zero hc
    · simp only [hp, false_implies, iff_true]
      rcases userJoin_of_counted hp hc with ⟨-, -, hcnt, -⟩ | ⟨-, heq⟩
      · exact hcnt
      · rw [heq]
        exact hc
  case h_2 htype =>
    by_cases hp : h.nlmsgPid = 0
    · simp only [htype, hp, true_implies, reduceCtorEq, Option.some.injEq,
        false_implies, true_and]
      exact counted_userLeave_zero hc
    · simp only [hp, false_implies, iff_true]
      rcases userLeave_of_counted hp hc with ⟨-, -, hcnt, -⟩ | ⟨-, heq⟩
      · exact hcnt
      · rw [heq]
        exact hc
  case h_3 hadd hdel =>
    exact ⟨fun _ _ => ⟨fun h => absurd h hadd, fun h => absurd h hdel⟩, fun _ => hc⟩

/-- One event, from a state in which count and table are in step. -/
theorem counted_tabStep {c : CapCtl} (hc : c.Counted) (e : TabEvent) :
    (tabStep c e).Counted ↔ KeepsCount c e := by
  cases e with
  | msg kt h =>
      rw [tabStep, capReceiveMsg_frame (fun u _ => u.Counted), KeepsCount]
      by_cases hadm : Admitted kt c h
      · simp [hadm, counted_capSwitch hc]
      · simp [hadm, hc]
  | deleteAllUser =>
      have hcnt : c.usrcnt = c.usrtab.occupied := hc
      simp only [tabStep, KeepsCount, Users.Counted, deleteAllUser, occupied_usertabInit]
      omega

/-- Count and table stay in step along a run, and joins and leaves succeed when
    they should, exactly when every step of the run meets `KeepsCount`. -/
theorem tableOk_along_iff_keepsCount (events : List TabEvent) :
    Along tabStep TableOk capStart events ↔ Guarded tabStep KeepsCount capStart events := by
  apply along_iff_guarded (I := fun _ => True) (A := fun _ => True)
  · exact fun _ _ _ _ => trivial
  · intro c e _ _ hc
    rw [tableOk_iff] at hc ⊢
    exact counted_tabStep hc e
  · trivial
  · exact tableOk_iff.mpr capStart_counted
  · exact fun _ _ => trivial

/-- One `CAP_ADD` with header pid 0 makes `usrcnt` 1 over an empty table; after
    thirty-two of them a join with a nonzero pid is refused although every slot
    is free. -/
theorem tableOk_fails_on_zero_pids :
    ¬ Along tabStep TableOk capStart (List.replicate 32 (.msg (.task 1) (capMsg 0 0))) ∧
      (let c := run tabStep capStart (List.replicate 32 (.msg (.task 1) (capMsg 0 0)))
       c.usrcnt = 32 ∧ c.usrtab.occupied = 0 ∧ userJoin 7 c.toUsers = (c.toUsers, 0)) := by
  refine ⟨fun h => ?_, by decide +kernel⟩
  have hlast := tableOk_iff.mp h.last
  revert hlast
  decide +kernel

/-! ## The capture target and the table -/

/-- A client message with the outcome `kthread_run` would have for it. -/
abbrev ClientMsg := KthreadRun × Nlmsghdr

def msgStep (c : CapCtl) (m : ClientMsg) : CapCtl := (capReceiveMsg m.1 c m.2).ctl

/-- `cap_nlk_portid`, if set, is registered; if a client is registered, it is set. -/
def Agree (c : CapCtl) : Prop :=
  (c.capNlkPortid ≠ 0 → c.capNlkPortid ∈ c.usrtab.members) ∧
    (c.usrtab.members ≠ 0 → c.capNlkPortid ≠ 0)

instance (c : CapCtl) : Decidable (Agree c) := inferInstanceAs (Decidable (_ ∧ _))

/-- The message keeps target and table in agreement: an admitted `CAP_ADD` finds
    its sender registered or a slot free, an admitted `CAP_DEL` finds nobody
    registered but one entry of its sender. -/
def KeepsAgree (c : CapCtl) (m : ClientMsg) : Prop :=
  Admitted m.1 c m.2 →
    (CapType.ofMsgType m.2.nlmsgType = some .capAdd →
      m.2.nlmsgPid ∈ c.usrtab.members ∨ c.usrtab.occupied < maxTabSize) ∧
    (CapType.ofMsgType m.2.nlmsgType = some .capDel →
      c.usrtab.members ≤ {m.2.nlmsgPid})

/-- A message with a nonzero pid always keeps count and table in step. -/
theorem counted_msgStep {c : CapCtl} {m : ClientMsg} (hp : m.2.nlmsgPid ≠ 0)
    (hc : c.Counted) : (msgStep c m).Counted :=
  (counted_tabStep hc (.msg m.1 m.2)).mpr fun _ h0 => absurd h0 hp

/-- After a leave the table is empty exactly if it held at most one entry, the
    leaving client's. -/
theorem members_userLeave_eq_zero {u : Users} {p : BitVec 32} (hp : p ≠ 0) (hu : u.Counted) :
    (userLeave p u).1.usrtab.members = 0 ↔ u.usrtab.members ≤ {p} := by
  rcases userLeave_of_counted hp hu with ⟨-, -, -, hmem⟩ | ⟨hout, heq⟩
  · rw [hmem, ← Multiset.cons_zero p, Multiset.cons_le_cons_iff, Multiset.le_zero]
  · rw [heq]
    constructor
    · intro h0
      rw [h0]
      exact Multiset.zero_le _
    · intro hle
      rcases Multiset.le_singleton.mp hle with h0 | h1
      · exact h0
      · exact absurd (h1 ▸ Multiset.mem_singleton_self p) hout

theorem agree_capSwitch {c : CapCtl} {h : Nlmsghdr} (hp : h.nlmsgPid ≠ 0) (hc : c.Counted)
    (hagree : Agree c) :
    Agree (capSwitch c h) ↔
      (CapType.ofMsgType h.nlmsgType = some .capAdd →
        h.nlmsgPid ∈ c.usrtab.members ∨ c.usrtab.occupied < maxTabSize) ∧
      (CapType.ofMsgType h.nlmsgType = some .capDel →
        c.usrtab.members ≤ {h.nlmsgPid}) := by
  unfold capSwitch
  split
  case h_1 htype =>
    simp only [Agree, htype, hp, ne_eq, not_false_eq_true, true_implies, implies_true,
      reduceCtorEq, Option.some.injEq, false_implies, and_true]
    rw [← UserTab.card_members]
    rcases userJoin_of_counted hp hc with ⟨hlt, -, -, hmem⟩ | ⟨hlt, heq⟩
    · rw [hmem]
      simp [hlt]
    · rw [heq]
      simp [hlt]
  case h_2 htype =>
    simp only [Agree, htype, ne_eq, not_true, false_implies, true_implies,
      reduceCtorEq, Option.some.injEq, true_and, imp_false, not_not]
    exact members_userLeave_eq_zero hp hc
  case h_3 hadd hdel =>
    exact ⟨fun _ => ⟨fun h => absurd h hadd, fun h => absurd h hdel⟩, fun _ => hagree⟩

/-- One message with a nonzero pid, from a state in agreement. -/
theorem agree_msgStep {c : CapCtl} {m : ClientMsg} (hp : m.2.nlmsgPid ≠ 0) (hc : c.Counted)
    (hagree : Agree c) : Agree (msgStep c m) ↔ KeepsAgree c m := by
  rw [Agree, msgStep, KeepsAgree,
    capReceiveMsg_frame fun u portid => (portid ≠ 0 → portid ∈ u.usrtab.members) ∧
      (u.usrtab.members ≠ 0 → portid ≠ 0)]
  by_cases hadm : Admitted m.1 c m.2
  · simp only [hadm, if_true, true_implies]
    exact agree_capSwitch hp hc hagree
  · simp only [hadm, if_false, false_implies, iff_true]
    exact hagree

/-- Target and table agree along a run of messages with nonzero pids exactly
    when every message of the run meets `KeepsAgree`. -/
theorem agree_along_iff_keepsAgree (msgs : List ClientMsg)
    (hpid : ∀ m ∈ msgs, m.2.nlmsgPid ≠ 0) :
    Along msgStep Agree capStart msgs ↔ Guarded msgStep KeepsAgree capStart msgs :=
  along_iff_guarded (I := fun c => c.Counted) (A := fun m => m.2.nlmsgPid ≠ 0)
    (fun _ _ hp hc => counted_msgStep hp hc)
    (fun _ _ hp hc hagree => agree_msgStep hp hc hagree)
    capStart_counted (by decide) hpid

theorem agree_along_single_client :
    Along msgStep Agree capStart [(.task 1, capMsg 0 7), (.task 1, capMsg 3 7),
      (.task 1, capMsg 1 7)] := by
  apply (agree_along_iff_keepsAgree _ (by decide)).mpr
  refine ⟨?_, ?_, ?_, trivial⟩ <;> intro _ <;> constructor <;> decide

/-- Two clients register and the second leaves: the first is still in the table,
    but the capture target is 0. -/
theorem agree_fails_on_two_clients :
    (∀ m ∈ [((.task 1 : KthreadRun), capMsg 0 7), (.task 1, capMsg 0 9), (.task 1, capMsg 1 9)],
        m.2.nlmsgPid ≠ 0) ∧
      ¬ Along msgStep Agree capStart
        [(.task 1, capMsg 0 7), (.task 1, capMsg 0 9), (.task 1, capMsg 1 9)] ∧
      (run msgStep capStart
        [(.task 1, capMsg 0 7), (.task 1, capMsg 0 9), (.task 1, capMsg 1 9)]).capNlkPortid = 0 ∧
      7 ∈ (run msgStep capStart
        [(.task 1, capMsg 0 7), (.task 1, capMsg 0 9), (.task 1, capMsg 1 9)]).usrtab.members := by
  refine ⟨by decide, fun h => ?_, by decide, by decide⟩
  have hlast := h.last
  revert hlast
  decide

end LinuxModules.Netlink
