/-
  LinuxModules.Usersock

  netlink.c and netctrl.c both take `NETLINK_USERSOCK`, so a message of either tool
  reaches whichever of the two modules is loaded.  The numbers of their commands
  overlap: what is `NETCTRL_AUTH_IP` to netctrl.c is `CAP_DEL` to netlink.c.

  * `capture_survives_iff`: commands of app.c leave the clients of netlink.c
    registered, and each `-i` among them turns capturing off.
  * `user_client_runs_no_handler`: user_client.c runs no handler of netctrl.c, its
    `CAP_ADD` is turned down, and each `CAP_DEL` costs netctrl.c a buffer.
-/

import LinuxModules.Netctrl.Commands
import LinuxModules.Netlink.ReceiveSkb
import LinuxModules.Netlink.Session

namespace LinuxModules

open LinuxModules.Lib LinuxModules.Net LinuxModules.Netlink LinuxModules.Netctrl

/-! ## app.c and netlink.c -/

/-- The command state after `cap_receive_skb`. -/
def receivedCtl (c : CapCtl) : Except Fault (Received CapCtl) → CapCtl
  | .ok r => r.st
  | .error _ => c

/-- An invocation of app.c while netlink.c is loaded; `kt` is what `kthread_run`
    returns if it is called. -/
def appToNetlink (c : CapCtl) (e : Invocation × KthreadRun) : CapCtl :=
  (sentBy (main e.1.env e.1.mem e.1.args)).foldl
    (fun c m => receivedCtl c (capReceiveSkb (fun _ => e.2) m.bytes c)) c

/-- The header of the message for an option. -/
def optionHdr (v : Invocation) (o : GetoptResult) : Nlmsghdr := .ofBytes (optionMsg v o).bytes

theorem optionHdr_eq (v : Invocation) (o : GetoptResult) :
    (optionHdr v o).nlmsgType = (o.command v.mem).1 ∧ (optionHdr v o).nlmsgPid = v.env.getpid := by
  rw [optionHdr, optionMsg, commandMsg, Nlmsghdr.ofBytes_toBytes]
  exact ⟨rfl, rfl⟩

theorem chain_optionMsg (v : Invocation) (o : GetoptResult) :
    (optionMsg v o).bytes.length < 2 ^ 30 ∧ Chain (optionMsg v o).bytes 0 [0] := by
  have hle := length_command_le v.mem o
  have hsize : localIpSize = 32 := rfl
  have hhdr : nlmsgHdrlen = 16 := rfl
  have hlen := length_optionMsg v o
  exact ⟨by omega, chain_whole (by omega) (field_optionMsg v o)⟩

/-- One message of app.c in netlink.c. -/
theorem receivedCtl_optionMsg (c : CapCtl) (v : Invocation) (o : GetoptResult) (kt : KthreadRun) :
    receivedCtl c (capReceiveSkb (fun _ => kt) (optionMsg v o).bytes c) =
      (capReceiveMsg kt c (optionHdr v o)).ctl := by
  obtain ⟨hshort, hchain⟩ := chain_optionMsg v o
  rw [capReceiveSkb, receiveSkb_eq _ hshort hchain]
  rfl

theorem appToNetlink_eq (c : CapCtl) (v : Invocation) (kt : KthreadRun) :
    (v.sends = none ∧ appToNetlink c (v, kt) = c) ∨
      ∃ o, v.sends = some o ∧ appToNetlink c (v, kt) = (capReceiveMsg kt c (optionHdr v o)).ctl := by
  have hfold : ∀ (f : CapCtl → SentMsg → CapCtl) (m : SentMsg), [m].foldl f c = f c m :=
    fun _ _ => rfl
  have heq : appToNetlink c (v, kt) = ((v.sends.map (optionMsg v)).toList).foldl
      (fun c m => receivedCtl c (capReceiveSkb (fun _ => kt) m.bytes c)) c := by
    rw [appToNetlink, main_sends]
  cases hsends : v.sends with
  | none =>
      refine Or.inl ⟨rfl, ?_⟩
      rw [heq, hsends]
      rfl
  | some o =>
      refine Or.inr ⟨o, rfl, ?_⟩
      rw [heq, hsends, Option.map_some, Option.toList_some, hfold, receivedCtl_optionMsg]

/-- A command from a process that is not registered, while kcapd runs: the clients
    stay, and only `-i` touches the capture target. -/
theorem capReceiveMsg_option {c : CapCtl} (hrun : c.kcapdTask.isSome) (hc : c.Counted)
    {v : Invocation} (hpid : v.env.getpid ≠ 0) (hout : v.env.getpid ∉ c.usrtab.members)
    {o : GetoptResult} (ho : o.Accepted) (kt : KthreadRun) :
    (capReceiveMsg kt c (optionHdr v o)).ctl =
      if o.c = 'i' then { c with capNlkPortid := 0 } else c := by
  obtain ⟨htype, hhdrpid⟩ := optionHdr_eq v o
  obtain ⟨t, ht⟩ := Option.isSome_iff_exists.mp hrun
  -- by number, `-d` is a `CAP_GET_PACKET`, `-p` a `CAP_PACKET` and `-i` a `CAP_DEL`
  obtain ⟨-, hch | hch | hch⟩ := ho
  · have hnum : (optionHdr v o).nlmsgType = 3 := by rw [htype, GetoptResult.command, if_pos hch]
    simp [capReceiveMsg, capNetlinkOk, CapType.ofMsgType, capSwitch, hnum, ht, hch]
  · have hnum : (optionHdr v o).nlmsgType = 2 := by
      rw [htype, GetoptResult.command, if_neg (by rw [hch]; decide), if_pos hch]
    simp [capReceiveMsg, capNetlinkOk, CapType.ofMsgType, hnum, negEinval, hch]
  · have hnum : (optionHdr v o).nlmsgType = 1 := by
      rw [htype, GetoptResult.command, if_neg (by rw [hch]; decide), if_neg (by rw [hch]; decide)]
    have hleave : userLeave v.env.getpid c.toUsers = (c.toUsers, 0) := by
      rcases userLeave_of_counted hpid hc with ⟨hin, -⟩ | ⟨-, heq⟩
      · exact absurd hin hout
      · exact heq
    simp [capReceiveMsg, capNetlinkOk, CapType.ofMsgType, capSwitch, hnum, ht, hch, hhdrpid,
      hleave]

/-- The invocation sends an `-i`. -/
def SendsIp (v : Invocation) : Prop := ∃ o, v.sends = some o ∧ o.c = 'i'

theorem appToNetlink_running {c : CapCtl} (hrun : c.kcapdTask.isSome) (hc : c.Counted)
    {v : Invocation} (hpid : v.env.getpid ≠ 0) (hout : v.env.getpid ∉ c.usrtab.members)
    (kt : KthreadRun) :
    (SendsIp v ∧ appToNetlink c (v, kt) = { c with capNlkPortid := 0 }) ∨
      (¬ SendsIp v ∧ appToNetlink c (v, kt) = c) := by
  rcases appToNetlink_eq c v kt with ⟨hnone, heq⟩ | ⟨o, hsends, heq⟩
  · refine Or.inr ⟨?_, heq⟩
    rintro ⟨o, ho, -⟩
    rw [hnone] at ho
    cases ho
  · rw [heq, capReceiveMsg_option hrun hc hpid hout (accepted_of_sends hsends)]
    by_cases hch : o.c = 'i'
    · exact Or.inl ⟨⟨o, hsends, hch⟩, if_pos hch⟩
    · refine Or.inr ⟨?_, if_neg hch⟩
      rintro ⟨o', ho', hch'⟩
      rw [hsends] at ho'
      cases ho'
      exact hch hch'

/-- A run of commands resets the capture target if one of them is an `-i`, and does
    nothing otherwise. -/
theorem run_appToNetlink {c : CapCtl} (hrun : c.kcapdTask.isSome) (hc : c.Counted)
    (es : List (Invocation × KthreadRun))
    (hpid : ∀ e ∈ es, e.1.env.getpid ≠ 0 ∧ e.1.env.getpid ∉ c.usrtab.members) :
    ((∃ e ∈ es, SendsIp e.1) ∧ run appToNetlink c es = { c with capNlkPortid := 0 }) ∨
      ((∀ e ∈ es, ¬ SendsIp e.1) ∧ run appToNetlink c es = c) := by
  induction es generalizing c with
  | nil => exact Or.inr ⟨by simp, rfl⟩
  | cons e es ih =>
      obtain ⟨hne, hout⟩ := hpid e (List.mem_cons_self ..)
      have hrest : ∀ e' ∈ es, e'.1.env.getpid ≠ 0 ∧ e'.1.env.getpid ∉ c.usrtab.members :=
        fun e' he' => hpid e' (List.mem_cons_of_mem _ he')
      rw [run_cons]
      rcases appToNetlink_running hrun hc hne hout e.2 with ⟨hip, heq⟩ | ⟨hno, heq⟩
      · -- the target is off: the rest of the run finds it so
        refine Or.inl ⟨⟨e, List.mem_cons_self .., hip⟩, ?_⟩
        rw [heq]
        rcases ih (c := { c with capNlkPortid := 0 }) hrun hc hrest with ⟨-, h⟩ | ⟨-, h⟩
        · exact h
        · exact h
      · rw [heq]
        rcases ih hrun hc hrest with ⟨⟨e', he', hip⟩, h⟩ | ⟨hall, h⟩
        · exact Or.inl ⟨⟨e', List.mem_cons_of_mem _ he', hip⟩, h⟩
        · exact Or.inr ⟨List.forall_mem_cons.mpr ⟨hno, hall⟩, h⟩

/-- While netlink.c captures, any sequence of commands of app.c, from processes that
    are not its clients, leaves all clients registered; and it goes on capturing,
    for the same client, if and only if no command is an `-i`. -/
theorem capture_survives_iff {c : CapCtl} (hrun : c.kcapdTask.isSome) (hc : c.Counted)
    (hon : c.capNlkPortid ≠ 0) (es : List (Invocation × KthreadRun))
    (hpid : ∀ e ∈ es, e.1.env.getpid ≠ 0 ∧ e.1.env.getpid ∉ c.usrtab.members) :
    (run appToNetlink c es).toUsers = c.toUsers ∧
      ((run appToNetlink c es).capNlkPortid = c.capNlkPortid ↔ ∀ e ∈ es, ¬ SendsIp e.1) ∧
      ((run appToNetlink c es).capNlkPortid = 0 ↔ ∃ e ∈ es, SendsIp e.1) := by
  rcases run_appToNetlink hrun hc es hpid with ⟨⟨e, he, hip⟩, heq⟩ | ⟨hall, heq⟩
  · rw [heq]
    exact ⟨rfl, iff_of_false hon.symm fun h => h e he hip, iff_of_true rfl ⟨e, he, hip⟩⟩
  · rw [heq]
    refine ⟨rfl, iff_of_true rfl hall, iff_of_false hon ?_⟩
    rintro ⟨e, he, hip⟩
    exact hall e he hip

/-- Client 7 is registered. -/
def seven : CapCtl := (capReceiveMsg (.task 1) capStart (capMsg 0 7)).ctl

/-- `app -p 80 -i 10.0.0.1` -/
def portThenIpRun : Invocation where
  env := calmApp
  mem := portThenIpMem
  args := portThenIp
  kzalloc := true
  after := fun _ => 0

/-- Client 7 stays registered and gets nothing any more. -/
theorem capture_survives_iff_port_then_ip :
    (run appToNetlink seven [(portThenIpRun, .task 1)]).toUsers = seven.toUsers ∧
      (run appToNetlink seven [(portThenIpRun, .task 1)]).capNlkPortid = 0 := by
  have h := capture_survives_iff (c := seven) (by decide) (by decide) (by decide)
    [(portThenIpRun, .task 1)] (by decide)
  refine ⟨h.1, h.2.2.mpr ⟨(portThenIpRun, .task 1), List.mem_singleton_self _, ⟨'i', 2⟩, ?_, rfl⟩⟩
  decide

/-! ## user_client.c and netctrl.c -/

/-- A message of user_client.c: which of its two, the memory it was built in, and
    what netctrl.c finds when it arrives. -/
structure UserSend where
  pid : BitVec 32
  last : Bool
  stale : Nat → Byte
  kzalloc : Bool
  after : Nat → Byte

/-- The bytes of the message. -/
def UserSend.bytes (u : UserSend) : List Byte :=
  if u.last then (sendToKernel u.pid byeText textLen UserType.capDel.msgType u.stale).nlh
  else (sendToKernel u.pid helloText textLen UserType.capAdd.msgType u.stale).nlh

/-- A message of user_client.c while netctrl.c is loaded. -/
def userToNetctrl (s : NetctrlState) (u : UserSend) : NetctrlState :=
  receivedState s (netctrlReceiveSkb (fun _ => u.kzalloc) u.after u.bytes s)

/-- A message of user_client.c as netctrl.c finds it. -/
theorem UserSend.bytes_eq (u : UserSend) : ∃ seq payload,
    u.bytes = (userHdr u.pid seq (if u.last then .capDel else .capAdd)).toBytes ++ payload ∧
      payload.length = maxPayload ∧
      ∃ rest, payload = strncpy textLen (if u.last then byeText else helloText) ++ rest := by
  have htext : textLen ≤ maxPayload := by decide
  unfold UserSend.bytes
  cases u.last with
  | true => exact sendToKernel_nlh u.pid byeText htext .capDel u.stale
  | false => exact sendToKernel_nlh u.pid helloText htext .capAdd u.stale

/-- The error netctrl.c answers the message with: `CAP_ADD` is none of its commands, and
    `CAP_DEL` is one for which there may be no memory. -/
def UserSend.refusal (u : UserSend) : Option Int :=
  if u.last = false then some negEinval
  else if u.kzalloc = false then some negEnomem
  else none

/-- The skb is one message, and what `netctrl_receive_msg` makes of it. -/
theorem UserSend.received (u : UserSend) (s : NetctrlState) :
    netctrlReceiveSkb (fun _ => u.kzalloc) u.after u.bytes s =
        .ok (Received.handle (fun _ => netctrlReceiveMsg u.kzalloc (kernelMem u.bytes u.after))
          ⟨s, [], []⟩ (0, .ofBytes u.bytes)) ∧
      (netctrlReceiveMsg u.kzalloc (kernelMem u.bytes u.after) s (.ofBytes u.bytes) 0).2 =
        u.refusal.getD 0 ∧
      (Nlmsghdr.ofBytes u.bytes).wantsAck = false ∧
      (u.refusal ≠ none →
        (netctrlReceiveMsg u.kzalloc (kernelMem u.bytes u.after) s (.ofBytes u.bytes) 0).1 = s) := by
  obtain ⟨seq, payload, hbytes, hpay, -⟩ := u.bytes_eq
  have hlength : u.bytes.length = 1616 := by
    rw [hbytes, List.length_append, Nlmsghdr.length_toBytes, hpay]
    rfl
  have hfield : field 0 4 u.bytes = 1616 := by
    rw [hbytes]
    exact field_len_toBytes _ _
  have htype : (Nlmsghdr.ofBytes u.bytes).nlmsgType = if u.last then 1 else 0 := by
    rw [hbytes, Nlmsghdr.ofBytes_toBytes]
    cases u.last <;> rfl
  have hack : (Nlmsghdr.ofBytes u.bytes).wantsAck = false := by
    rw [hbytes, Nlmsghdr.ofBytes_toBytes]
    simp [Nlmsghdr.wantsAck, userHdr]
  refine ⟨?_, ?_, hack, ?_⟩
  · exact netctrlReceiveSkb_whole (by rw [hlength]; decide) (hfield.trans hlength.symm)
      (by omega) _ _ _
  · rw [netctrlReceiveMsg, htype, UserSend.refusal]
    cases u.last <;> cases u.kzalloc <;> rfl
  · rw [netctrlReceiveMsg, htype, UserSend.refusal]
    cases u.last <;> cases u.kzalloc <;> simp [netctrlNetlinkOk, NetctrlType.ofMsgType, negEinval]

/-- A message that `netctrl_receive_msg` turns down has no effect. -/
theorem userToNetctrl_of_refused (s : NetctrlState) {u : UserSend}
    (href : u.last = false ∨ u.kzalloc = false) : userToNetctrl s u = s := by
  obtain ⟨hskb, -, -, hsame⟩ := u.received s
  have hsome : u.refusal ≠ none := by
    rw [UserSend.refusal]
    rcases href with hlast | hmem
    · simp [hlast]
    · rw [if_pos hmem]
      split <;> simp
  rw [userToNetctrl, hskb]
  exact hsame hsome

/-- It is answered with its error, and no other message is answered. -/
theorem UserSend.acks (u : UserSend) (s : NetctrlState) :
    ∃ r, netctrlReceiveSkb (fun _ => u.kzalloc) u.after u.bytes s = .ok r ∧
      r.acks = (u.refusal.map fun err => (Nlmsghdr.ofBytes u.bytes, err)).toList := by
  obtain ⟨hskb, herr, hack, -⟩ := u.received s
  refine ⟨_, hskb, ?_⟩
  rw [Received.handle]
  dsimp only
  rw [herr, hack, UserSend.refusal]
  cases u.last <;> cases u.kzalloc <;> rfl

/-- The text of `CAP_DEL` starts with "By", which is no command. -/
theorem netctrlProcMsg_byeText (rest : List Byte) :
    (netctrlProcMsg (some (strncpy textLen byeText ++ rest))).1 = none := by
  have hfield : field 0 2 (strncpy textLen byeText ++ rest) = 0x7942 := by
    have htext : strncpy textLen byeText = [0x42, 0x79] ++ strncpy 19 (byeText.drop 2) := by decide
    rw [htext]
    simp [field, leNat]
  have hnone : NetctrlType.ofMsgType (BitVec.ofNat 16 0x7942) = none := by decide
  simp only [netctrlProcMsg, hfield, hnone]

/-- `CAP_DEL` is taken for an `NETCTRL_AUTH_IP`, up to the copy of its payload. -/
theorem userToNetctrl_bye (s : NetctrlState) {u : UserSend} (hlast : u.last = true)
    (hmem : u.kzalloc = true) : userToNetctrl s u = ⟨s.ran, s.live + 1⟩ := by
  have hmax : maxPayload = 1600 := rfl
  obtain ⟨seq, payload, hbytes, hpay, rest, htext⟩ := u.bytes_eq
  rw [hlast, if_pos rfl] at hbytes htext
  have hlen : (userHdr u.pid seq .capDel).nlmsgLen.toNat = nlmsgHdrlen + payload.length := by
    rw [hpay]
    rfl
  have hproc : (netctrlProcMsg (some (payload ++ (List.range 4).map u.after))).1 = none := by
    rw [htext, List.append_assoc]
    exact netctrlProcMsg_byeText _
  rw [userToNetctrl, hmem, hbytes, netctrlReceiveSkb_single hlen (by omega) rfl
    (by simp [Nlmsghdr.wantsAck, userHdr]), receivedState, hproc, Option.toList_none,
    List.append_nil]

/-- However often user_client.c starts and stops while netctrl.c is loaded: no handler
    runs, and each `CAP_DEL` for which there is memory loses a buffer.  In every state
    each `CAP_ADD` is answered with `-EINVAL`, a `CAP_DEL` without memory with
    `-ENOMEM`, and nothing else is answered. -/
theorem user_client_runs_no_handler (s : NetctrlState) (us : List UserSend) :
    run userToNetctrl s us =
        ⟨s.ran, s.live + us.countP (fun u => u.last && u.kzalloc)⟩ ∧
      ∀ u ∈ us, ∀ s', ∃ r, netctrlReceiveSkb (fun _ => u.kzalloc) u.after u.bytes s' = .ok r ∧
        r.acks = (u.refusal.map fun err => (Nlmsghdr.ofBytes u.bytes, err)).toList := by
  refine ⟨?_, fun u _ s' => u.acks s'⟩
  induction us generalizing s with
  | nil => rfl
  | cons u us ih =>
      rw [run_cons, ih, List.countP_cons]
      by_cases hboth : u.last = true ∧ u.kzalloc = true
      · obtain ⟨hlast, hmem⟩ := hboth
        rw [userToNetctrl_bye s hlast hmem, hlast, hmem]
        simp only [Bool.and_self, if_true, NetctrlState.mk.injEq, true_and]
        omega
      · have href : u.last = false ∨ u.kzalloc = false := by simpa [or_iff_not_imp_left] using hboth
        have hno : (u.last && u.kzalloc) = false := by simpa using hboth
        rw [userToNetctrl_of_refused s href, hno, if_neg Bool.false_ne_true, Nat.add_zero]

end LinuxModules
