/-
  LinuxModules.Netlink.Registration

  What a client can rely on when it registers or leaves: one slot a client, and
  an answer that says whether the request took effect.

  `user_join` looks for a free slot and not for the pid, `user_leave` clears the
  first slot it finds, and `cap_receive_msg` drops the results of both.
-/

import LinuxModules.Netlink.System

namespace LinuxModules.Netlink

open LinuxModules.Lib LinuxModules.Net

/-! ## One slot a client -/

/-- No pid occupies two slots. -/
def OneSlotEach (c : CapCtl) : Prop := c.usrtab.members.Nodup

instance (c : CapCtl) : Decidable (OneSlotEach c) :=
  inferInstanceAs (Decidable c.usrtab.members.Nodup)

/-- If the message is a `CAP_DEL`, no slot holds its sender afterwards. -/
def LeavesNoSlot (c : CapCtl) (m : ClientMsg) : Prop :=
  CapType.ofMsgType m.2.nlmsgType = some .capDel →
    m.2.nlmsgPid ∉ (msgStep c m).usrtab.members

/-- The message is not a registration that is carried out a second time: an
    admitted `CAP_ADD` comes from a client that is not registered or finds the
    table full. -/
def RegistersOnce (c : CapCtl) (m : ClientMsg) : Prop :=
  Admitted m.1 c m.2 → CapType.ofMsgType m.2.nlmsgType = some .capAdd →
    m.2.nlmsgPid ∉ c.usrtab.members ∨ c.usrtab.occupied = maxTabSize

/-- The count is right, and nobody is registered before kcapd runs. -/
structure ServedTable (c : CapCtl) : Prop where
  counted : c.Counted
  empty_of_none : c.kcapdTask = none → c.usrtab.members = 0

theorem servedTable_msgStep {c : CapCtl} {m : ClientMsg} (hp : m.2.nlmsgPid ≠ 0)
    (hc : ServedTable c) : ServedTable (msgStep c m) := by
  refine ⟨counted_msgStep hp hc.counted, ?_⟩
  unfold msgStep
  rcases capReceiveMsg_cases m.1 c m.2 with ⟨-, -, hsame, -⟩ | ⟨-, hsome, heq⟩ | ⟨t, -, -, heq⟩
  · rw [hsame]
    exact hc.empty_of_none
  · rw [heq, capSwitch_kcapdTask]
    intro hnone
    rw [hnone] at hsome
    cases hsome
  · rw [heq, capSwitch_kcapdTask]
    intro hnone
    cases hnone

theorem oneSlotEach_capSwitch {c : CapCtl} {h : Nlmsghdr} (hp : h.nlmsgPid ≠ 0)
    (hc : c.Counted) (hone : OneSlotEach c) :
    OneSlotEach (capSwitch c h) ↔ (CapType.ofMsgType h.nlmsgType = some .capAdd →
      h.nlmsgPid ∉ c.usrtab.members ∨ c.usrtab.occupied = maxTabSize) := by
  unfold capSwitch
  split
  case h_1 htype =>
    simp only [OneSlotEach, htype, true_implies]
    have hle := c.usrtab.occupied_le
    rw [← UserTab.card_members] at hle ⊢
    rcases userJoin_of_counted hp hc with ⟨hlt, -, -, hmem⟩ | ⟨hlt, heq⟩
    · -- the pid is added, whether or not it is there
      rw [hmem, Multiset.nodup_cons]
      exact ⟨fun h => Or.inl h.1, fun h => ⟨h.resolve_right (by omega), hone⟩⟩
    · rw [heq]
      exact ⟨fun _ => Or.inr (by omega), fun _ => hone⟩
  case h_2 htype =>
    simp only [OneSlotEach, htype, reduceCtorEq, Option.some.injEq, false_implies, iff_true]
    -- leaving takes one copy out and so cannot make a second one
    rcases userLeave_of_counted hp hc with ⟨-, -, -, hmem⟩ | ⟨-, heq⟩
    · have hnodup : c.usrtab.members.Nodup := hone
      rw [hmem, Multiset.nodup_cons] at hnodup
      exact hnodup.2
    · rw [heq]
      exact hone
  case h_3 hadd hdel => exact ⟨fun _ h => absurd h hadd, fun _ => hone⟩

/-- One message with a nonzero pid. -/
theorem oneSlotEach_msgStep {c : CapCtl} {m : ClientMsg} (hp : m.2.nlmsgPid ≠ 0)
    (hc : c.Counted) (hone : OneSlotEach c) :
    OneSlotEach (msgStep c m) ↔ RegistersOnce c m := by
  -- the table after a refused message is the one before it
  rw [OneSlotEach, msgStep, RegistersOnce, capReceiveMsg_frame fun u _ => u.usrtab.members.Nodup]
  by_cases hadm : Admitted m.1 c m.2
  · simp only [hadm, if_true, true_implies]
    exact oneSlotEach_capSwitch hp hc hone
  · simp only [hadm, if_false, false_implies, iff_true]
    exact hone

/-- Where no pid has two slots, a `CAP_DEL` leaves its sender none. -/
theorem leavesNoSlot_of_oneSlotEach {c : CapCtl} {m : ClientMsg} (hp : m.2.nlmsgPid ≠ 0)
    (hc : ServedTable c) (hone : OneSlotEach c) : LeavesNoSlot c m := by
  intro htype
  show m.2.nlmsgPid ∉ (capReceiveMsg m.1 c m.2).ctl.usrtab.members
  rw [capReceiveMsg_frame fun u _ => m.2.nlmsgPid ∉ u.usrtab.members]
  split
  case isTrue hadm =>
    simp only [capSwitch, htype]
    rcases userLeave_of_counted hp hc.counted with ⟨-, -, -, hmem⟩ | ⟨hout, heq⟩
    · have hnodup : c.usrtab.members.Nodup := hone
      rw [hmem, Multiset.nodup_cons] at hnodup
      exact hnodup.1
    · rw [heq]
      exact hout
  case isFalse hadm =>
    -- a `CAP_DEL` is only refused while kcapd is not there, and then nobody is registered
    have hnone : c.kcapdTask = none := by
      by_contra hsome
      have hok : capNetlinkOk m.2.nlmsgType = 0 := by rw [capNetlinkOk, htype]
      exact hadm ⟨hok, Or.inl (Option.isSome_iff_ne_none.mpr hsome)⟩
    rw [hc.empty_of_none hnone]
    exact Multiset.notMem_zero _

/-- Along a run of messages with nonzero pids every client has at most one slot,
    and none right after its `CAP_DEL`, exactly when no message of the run
    registers a client that is registered already. -/
theorem one_slot_each_iff_registersOnce (msgs : List ClientMsg)
    (hpid : ∀ m ∈ msgs, m.2.nlmsgPid ≠ 0) :
    (Along msgStep OneSlotEach capStart msgs ∧ Guarded msgStep LeavesNoSlot capStart msgs) ↔
      Guarded msgStep RegistersOnce capStart msgs := by
  have hstart : ServedTable capStart := ⟨capStart_counted, fun _ => by decide⟩
  have hiff : Along msgStep OneSlotEach capStart msgs ↔
      Guarded msgStep RegistersOnce capStart msgs :=
    along_iff_guarded (I := ServedTable) (A := fun m => m.2.nlmsgPid ≠ 0)
      (fun _ _ hp hc => servedTable_msgStep hp hc)
      (fun _ _ hp hc hone => oneSlotEach_msgStep hp hc.counted hone) hstart (by decide) hpid
  have hserved : Along msgStep ServedTable capStart msgs :=
    along_of_step (fun _ _ hp hc => servedTable_msgStep hp hc) hstart (guarded_of_forall fun m hm _ => hpid m hm)
  rw [← hiff]
  -- the second half follows from the first at every message
  refine ⟨fun h => h.1, fun hone => ⟨hone, ?_⟩⟩
  exact (hone.and hserved).guarded (A := fun m => m.2.nlmsgPid ≠ 0)
    (fun _ _ hp h => leavesNoSlot_of_oneSlotEach hp h.2 h.1) hpid

theorem one_slot_each_rejoin :
    Along msgStep OneSlotEach capStart
        [(.task 1, capMsg 0 7), (.task 1, capMsg 1 7), (.task 1, capMsg 0 7)] ∧
      Guarded msgStep LeavesNoSlot capStart
        [(.task 1, capMsg 0 7), (.task 1, capMsg 1 7), (.task 1, capMsg 0 7)] := by
  apply (one_slot_each_iff_registersOnce _ (by decide)).mpr
  refine ⟨?_, ?_, ?_, trivial⟩
  · exact fun _ _ => Or.inl (by decide)
  · exact fun _ htype => absurd htype (by decide)
  · exact fun _ _ => Or.inl (by decide)

/-- A client that registers twice has two slots, and after its `CAP_DEL` still
    one. -/
theorem two_slots_after_second_add :
    (∀ m ∈ [((.task 1 : KthreadRun), capMsg 0 7), (.task 1, capMsg 0 7), (.task 1, capMsg 1 7)],
        m.2.nlmsgPid ≠ 0) ∧
      (run msgStep capStart [(.task 1, capMsg 0 7), (.task 1, capMsg 0 7)]).usrtab.members.count 7 =
        2 ∧
      ¬ Along msgStep OneSlotEach capStart [(.task 1, capMsg 0 7), (.task 1, capMsg 0 7)] ∧
      7 ∈ (run msgStep capStart
        [(.task 1, capMsg 0 7), (.task 1, capMsg 0 7), (.task 1, capMsg 1 7)]).usrtab.members := by
  refine ⟨by decide, by decide, fun h => ?_, by decide⟩
  have hlast := h.last
  revert hlast
  decide

/-! ## All or nothing -/

/-- A request that took effect: the table operation reported success, and both
    the table and `cap_nlk_portid` were updated. -/
def TookEffect (c : CapCtl) (h : Nlmsghdr) (c' : CapCtl) : Prop :=
  (CapType.ofMsgType h.nlmsgType = some .capAdd →
    (userJoin h.nlmsgPid c.toUsers).2 = 1 ∧ c'.toUsers = (userJoin h.nlmsgPid c.toUsers).1 ∧
      c'.capNlkPortid = h.nlmsgPid) ∧
  (CapType.ofMsgType h.nlmsgType = some .capDel →
    (userLeave h.nlmsgPid c.toUsers).2 = 1 ∧ c'.toUsers = (userLeave h.nlmsgPid c.toUsers).1 ∧
      c'.capNlkPortid = 0)

/-- The message is answered with 0 and took effect, or with an error and changed
    nothing. -/
def AllOrNothing (c : CapCtl) (m : ClientMsg) : Prop :=
  ((capReceiveMsg m.1 c m.2).err = 0 ∧ TookEffect c m.2 (capReceiveMsg m.1 c m.2).ctl) ∨
    ((capReceiveMsg m.1 c m.2).err ≠ 0 ∧ (capReceiveMsg m.1 c m.2).ctl.toUsers = c.toUsers ∧
      (capReceiveMsg m.1 c m.2).ctl.capNlkPortid = c.capNlkPortid)

/-- The table operation of the message can succeed: a `CAP_ADD` finds the count
    below the maximum and a free slot, a `CAP_DEL` a positive count and a slot of
    its sender. -/
def CanTakeEffect (c : CapCtl) (h : Nlmsghdr) : Prop :=
  (CapType.ofMsgType h.nlmsgType = some .capAdd →
    c.usrcnt < maxTabSize ∧ ∃ s ∈ c.usrtab.slots, s.pid = 0) ∧
  (CapType.ofMsgType h.nlmsgType = some .capDel →
    0 < c.usrcnt ∧ ∃ s ∈ c.usrtab.slots, s.pid = h.nlmsgPid)

/-- `user_join` succeeds exactly if the count leaves room and a slot is free. -/
theorem userJoin_ret_one_iff {u : Users} {p : BitVec 32} :
    (userJoin p u).2 = 1 ↔ u.usrcnt < maxTabSize ∧ ∃ s ∈ u.usrtab.slots, s.pid = 0 := by
  unfold userJoin
  split
  case isTrue hfull =>
    exact ⟨fun h => absurd h (show (0 : Int) ≠ 1 by decide), fun h => absurd h.1 (by omega)⟩
  case isFalse hroom =>
    split
    case h_1 t ht =>
      obtain ⟨pre, s, post, hsplit, h0, -⟩ := UserTab.replacePid_eq_some ht
      exact ⟨fun _ => ⟨by omega, s, by simp [hsplit], h0⟩, fun _ => rfl⟩
    case h_2 hnone =>
      refine ⟨fun h => absurd h (show (0 : Int) ≠ 1 by decide), ?_⟩
      rintro ⟨-, s, hs, h0⟩
      exact absurd h0 (UserTab.replacePid_eq_none.mp hnone s hs)

/-- `user_leave` succeeds exactly if the count is positive and the pid is there. -/
theorem userLeave_ret_one_iff {u : Users} {p : BitVec 32} :
    (userLeave p u).2 = 1 ↔ 0 < u.usrcnt ∧ ∃ s ∈ u.usrtab.slots, s.pid = p := by
  unfold userLeave
  split
  case isTrue hempty =>
    exact ⟨fun h => absurd h (show (0 : Int) ≠ 1 by decide), fun h => absurd h.1 (by omega)⟩
  case isFalse hpos =>
    split
    case h_1 t ht =>
      obtain ⟨pre, s, post, hsplit, hp, -⟩ := UserTab.replacePid_eq_some ht
      exact ⟨fun _ => ⟨by omega, s, by simp [hsplit], hp⟩, fun _ => rfl⟩
    case h_2 hnone =>
      refine ⟨fun h => absurd h (show (0 : Int) ≠ 1 by decide), ?_⟩
      rintro ⟨-, s, hs, hp⟩
      exact absurd hp (UserTab.replacePid_eq_none.mp hnone s hs)

/-- Both assignments of the switch are always made; only the table operation can
    fail to do anything. -/
theorem tookEffect_capSwitch (c : CapCtl) (h : Nlmsghdr) (t : Option Task) :
    TookEffect c h (capSwitch { c with kcapdTask := t } h) ↔ CanTakeEffect c h := by
  unfold TookEffect CanTakeEffect
  rw [← userJoin_ret_one_iff (p := h.nlmsgPid), ← userLeave_ret_one_iff]
  constructor
  · intro hdid
    exact ⟨fun hadd => (hdid.1 hadd).1, fun hdel => (hdid.2 hdel).1⟩
  · intro hcan
    refine ⟨fun hadd => ⟨hcan.1 hadd, ?_⟩, fun hdel => ⟨hcan.2 hdel, ?_⟩⟩
    -- `capSwitch` makes both assignments without looking at a result
    · simp only [capSwitch, hadd, and_self]
    · simp only [capSwitch, hdel, and_self]

/-- One message, in any state: `cap_receive_msg` is all-or-nothing exactly when
    the message is refused or its table operation can succeed. -/
theorem allOrNothing_iff (c : CapCtl) (m : ClientMsg) :
    AllOrNothing c m ↔ (Admitted m.1 c m.2 → CanTakeEffect c m.2) := by
  unfold AllOrNothing
  rcases capReceiveMsg_cases m.1 c m.2 with ⟨hno, herr, hc, -⟩ | ⟨hadm, -, heq⟩ | ⟨t, hadm, -, heq⟩
  · -- refused: an error, and nothing has changed
    rw [hc]
    exact ⟨fun _ hadm => absurd hadm hno, fun _ => Or.inr ⟨herr, rfl, rfl⟩⟩
  · have heff := tookEffect_capSwitch c m.2 c.kcapdTask
    simp only [heq, hadm, true_implies, true_and, ne_eq, not_true, false_and, or_false]
    exact heff
  · have heff := tookEffect_capSwitch c m.2 (some t)
    simp only [heq, hadm, true_implies, true_and, ne_eq, not_true, false_and, or_false]
    exact heff

/-- In every run of the system, whatever hooks and kcapd do in between, every
    client message is all-or-nothing exactly when each is refused or finds its
    table operation able to succeed. -/
theorem all_or_nothing_iff_canTakeEffect (rate : RateState) (events : List SysEvent) :
    Guarded sysStep (fun s e => ∀ kt h, e = .client kt h → AllOrNothing s.g.ctl (kt, h))
        (sysStart rate) events ↔
      Guarded sysStep
        (fun s e => ∀ kt h, e = .client kt h → Admitted kt s.g.ctl h → CanTakeEffect s.g.ctl h)
        (sysStart rate) events := by
  have heq : (fun (s : Sys) (e : SysEvent) =>
        ∀ kt h, e = .client kt h → AllOrNothing s.g.ctl (kt, h)) =
      fun s e => ∀ kt h, e = .client kt h → Admitted kt s.g.ctl h → CanTakeEffect s.g.ctl h := by
    funext s e
    exact propext (forall₂_congr fun kt h => imp_congr_right fun _ => allOrNothing_iff _ _)
  rw [heq]

/-- Thirty-two clients, registered one after the other. -/
def fullHouse : List ClientMsg :=
  (List.range 32).map fun i => (.task 1, capMsg 0 (BitVec.ofNat 32 (i + 1)))

/-- A `CAP_DEL` of a client that is not registered, and a `CAP_ADD` to the full
    table: both are answered with 0, the table stays as it was, and
    `cap_nlk_portid` is overwritten. -/
theorem all_or_nothing_fails :
    (let c := run msgStep capStart [(.task 1, capMsg 0 7)]
     let r := capReceiveMsg (.task 1) c (capMsg 1 9)
     r.err = 0 ∧ userLeave 9 c.toUsers = (c.toUsers, 0) ∧ r.ctl.toUsers = c.toUsers ∧
       c.capNlkPortid = 7 ∧ r.ctl.capNlkPortid = 0) ∧
    (let c := run msgStep capStart fullHouse
     let r := capReceiveMsg (.task 1) c (capMsg 0 99)
     r.err = 0 ∧ userJoin 99 c.toUsers = (c.toUsers, 0) ∧ r.ctl.toUsers = c.toUsers ∧
       c.capNlkPortid = 32 ∧ r.ctl.capNlkPortid = 99) ∧
    ¬ Guarded sysStep (fun s e => ∀ kt h, e = .client kt h → AllOrNothing s.g.ctl (kt, h))
      (sysStart { capRateLimit := 0, hz := 100, lastCheck := 0, packets := 0 })
      [.client (.task 1) (capMsg 0 7), .client (.task 1) (capMsg 1 9)] := by
  refine ⟨by decide, by decide +kernel, fun h => ?_⟩
  have hdel := (allOrNothing_iff _ _).mp (h.2.1 _ _ rfl) (by decide)
  exact absurd (hdel.2 (by decide)).2 (by decide)

end LinuxModules.Netlink
