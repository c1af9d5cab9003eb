/-
  LinuxModules.Netlink.ReceiveMsg

  `cap_receive_msg` of netlink.c: the handling of one client message, on the
  command state (`usrtab`, `usrcnt`, `cap_nlk_portid`, `kcapd_task`).

  A message is refused by its type (`cap_netlink_ok`) or by a failed start of
  the kcapd thread; an admitted one reaches the switch.  `capReceiveMsg_cases`
  is the whole case analysis, guards included, and every later fact about
  messages starts from it.
-/

import LinuxModules.Net.Nlmsg
import LinuxModules.Netlink.UserTab

namespace LinuxModules.Netlink

open LinuxModules.Lib LinuxModules.Net

/-! ## The command state -/

/-- A `struct task_struct *` other than NULL. -/
abbrev Task := Nat

/-- The globals `cap_receive_msg` works on; `kcapd_task` is `none` when NULL. -/
structure CapCtl extends Users where
  capNlkPortid : BitVec 32
  kcapdTask : Option Task
deriving DecidableEq

/-- A value for which `IS_ERR` holds, as `PTR_ERR` returns it. -/
abbrev ErrPtr := { e : Int // -4095 ≤ e ∧ e ≤ -1 }

/-- The two outcomes of `kthread_run`. -/
inductive KthreadRun where
  | task (t : Task)
  | err (e : ErrPtr)
deriving DecidableEq

def KthreadRun.isTask : KthreadRun → Bool
  | .task _ => true
  | .err _ => false

/-- The message types of netlink.c. -/
inductive CapType where
  | capAdd
  | capDel
  | capPacket
  | capGetPacket
deriving DecidableEq, Repr

/-- The enumerator a `nlmsg_type` equals, if any. -/
def CapType.ofMsgType (t : BitVec 16) : Option CapType :=
  if t = 0 then some .capAdd
  else if t = 1 then some .capDel
  else if t = 2 then some .capPacket
  else if t = 3 then some .capGetPacket
  else none

/-- `cap_netlink_ok` -/
def capNetlinkOk (msgType : BitVec 16) : Int :=
  match CapType.ofMsgType msgType with
  | some .capAdd => 0
  | some .capDel => 0
  | some .capGetPacket => 0
  | _ => negEinval

/-- The `switch (msg_type)` of `cap_receive_msg`.  The results of `user_join`
    and `user_leave` are dropped. -/
def capSwitch (c : CapCtl) (h : Nlmsghdr) : CapCtl :=
  match CapType.ofMsgType h.nlmsgType with
  | some .capAdd =>
      { c with
        capNlkPortid := h.nlmsgPid
        toUsers := (userJoin h.nlmsgPid c.toUsers).1 }
  | some .capDel =>
      { c with
        capNlkPortid := 0
        toUsers := (userLeave h.nlmsgPid c.toUsers).1 }
  | _ => c

/-- The state after a message, the returned `err`, and the kcapd threads that
    `kthread_run` started on the way. -/
structure MsgResult where
  ctl : CapCtl
  err : Int
  started : List Task
deriving DecidableEq

/-- `cap_receive_msg`; `kt` is what `kthread_run` returns if it is called. -/
def capReceiveMsg (kt : KthreadRun) (c : CapCtl) (h : Nlmsghdr) : MsgResult :=
  let err := capNetlinkOk h.nlmsgType
  if err ≠ 0 then { ctl := c, err, started := [] }
  else
    match c.kcapdTask with
    | some _ => { ctl := capSwitch c h, err := 0, started := [] }
    | none =>
      match kt with
      -- `kcapd_task` is reset to NULL, so the next message tries again
      | .err e => { ctl := { c with kcapdTask := none }, err := e, started := [] }
      | .task t =>
        { ctl := capSwitch { c with kcapdTask := some t } h, err := 0, started := [t] }

/-! ## What one message can do -/

/-- The message passes the type check and a kcapd thread exists or starts. -/
def Admitted (kt : KthreadRun) (c : CapCtl) (h : Nlmsghdr) : Prop :=
  capNetlinkOk h.nlmsgType = 0 ∧ (c.kcapdTask.isSome ∨ kt.isTask)

instance (kt : KthreadRun) (c : CapCtl) (h : Nlmsghdr) : Decidable (Admitted kt c h) :=
  inferInstanceAs (Decidable (_ ∧ _))

/-- The outcomes of `cap_receive_msg`: refused with the state as it was, handled
    by the running kcapd, or handled after kcapd was started. -/
theorem capReceiveMsg_cases (kt : KthreadRun) (c : CapCtl) (h : Nlmsghdr) :
    (¬ Admitted kt c h ∧ (capReceiveMsg kt c h).err ≠ 0 ∧
      (capReceiveMsg kt c h).ctl = c ∧ (capReceiveMsg kt c h).started = []) ∨
    (Admitted kt c h ∧ c.kcapdTask.isSome ∧
      capReceiveMsg kt c h = { ctl := capSwitch c h, err := 0, started := [] }) ∨
    (∃ t, Admitted kt c h ∧ c.kcapdTask = none ∧
      capReceiveMsg kt c h =
        { ctl := capSwitch { c with kcapdTask := some t } h, err := 0, started := [t] }) := by
  unfold Admitted capReceiveMsg
  by_cases htype : capNetlinkOk h.nlmsgType = 0
  · cases htask : c.kcapdTask with
    | some t => simp [htype]
    | none =>
        cases kt with
        | task t => simp [htype, KthreadRun.isTask]
        | err e =>
            refine Or.inl ⟨by simp [KthreadRun.isTask], ?_, ?_, ?_⟩
            · have he := e.property
              simp only [htype, ne_eq, not_true, if_false]
              omega
            · -- `kcapd_task` is put back to the NULL it was
              simp only [htype, ne_eq, not_true, if_false, ← htask]
            · simp [htype]
  · simp [htype]

theorem capSwitch_kcapdTask (c : CapCtl) (h : Nlmsghdr) :
    (capSwitch c h).kcapdTask = c.kcapdTask := by
  unfold capSwitch
  split <;> rfl

/-- A message that is answered with an error leaves the state as it was. -/
theorem capReceiveMsg_of_err {kt : KthreadRun} {c : CapCtl} {h : Nlmsghdr}
    (herr : (capReceiveMsg kt c h).err ≠ 0) : (capReceiveMsg kt c h).ctl = c := by
  rcases capReceiveMsg_cases kt c h with ⟨-, -, hc, -⟩ | ⟨-, -, heq⟩ | ⟨t, -, -, heq⟩
  · exact hc
  · exact absurd (by rw [heq]) herr
  · exact absurd (by rw [heq]) herr

/-- A message keeps any fact about users and portid that its switch keeps. -/
theorem capReceiveMsg_frame (P : Users → BitVec 32 → Prop) (kt : KthreadRun) (c : CapCtl)
    (h : Nlmsghdr) :
    (P (capReceiveMsg kt c h).ctl.toUsers (capReceiveMsg kt c h).ctl.capNlkPortid ↔
      if Admitted kt c h then P (capSwitch c h).toUsers (capSwitch c h).capNlkPortid
      else P c.toUsers c.capNlkPortid) := by
  have hswitch : ∀ t, (capSwitch { c with kcapdTask := t } h).toUsers = (capSwitch c h).toUsers ∧
      (capSwitch { c with kcapdTask := t } h).capNlkPortid = (capSwitch c h).capNlkPortid := by
    intro t
    unfold capSwitch
    split <;> exact ⟨rfl, rfl⟩
  rcases capReceiveMsg_cases kt c h with ⟨hno, -, hc, -⟩ | ⟨hadm, -, heq⟩ | ⟨t, hadm, -, heq⟩
  · rw [if_neg hno, hc]
  · rw [if_pos hadm, heq]
  · rw [if_pos hadm, heq, (hswitch (some t)).1, (hswitch (some t)).2]

end LinuxModules.Netlink
