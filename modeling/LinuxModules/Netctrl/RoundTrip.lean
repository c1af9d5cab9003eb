/-
  LinuxModules.Netctrl.RoundTrip

  From the command line to the kernel handler: a command that app.c accepts is
  run by netctrl.c, with the argument of the last option.

  The kernel copies the payload and four bytes more; what a handler reads lies
  before those, so they do not matter.
-/

import LinuxModules.Netctrl.App
import LinuxModules.Netctrl.Kernel

namespace LinuxModules.Netctrl

open LinuxModules.Lib LinuxModules.Net

/-- The handler run an option asks for. -/
def requestedCall (mem : Ptr → List Byte) (o : GetoptResult) : Option AuthCall :=
  match o.c with
  | 'd' => some (.netctrlAuthId (some (atoi (mem o.optarg))))
  | 'p' => some (.netctrlAuthPort (some (atoi (mem o.optarg))))
  | 'i' => some (.netctrlAuthIp (some (cstrOf (mem o.optarg))))
  | _ => none

theorem readInt_leBytes (v : BitVec 32) (rest : List Byte) :
    readInt (leBytes 4 v.toNat ++ rest) = some v := by
  rw [readInt, if_pos (by simp), field_leBytes_append v.isLt, BitVec.ofNat_toNat,
    BitVec.setWidth_eq]

theorem drop_msgBuf (operation : BitVec 16) (buf rest : List Byte) :
    (msgBuf operation buf ++ rest).drop msgBufSize = buf ++ rest := by
  rw [msgBuf, ← List.append_assoc, List.append_assoc]
  exact List.drop_left' (by simp [msgBufSize])

/-- The kernel on a command message: one message, and the handler that
    `netctrl_proc_msg` selects whatever is in the memory behind it. -/
theorem netctrlReceiveSkb_commandMsg (pid : BitVec 32) {operation : BitVec 16} {buf : List Byte}
    {call : AuthCall} (hok : netctrlNetlinkOk operation = 0) (hlen : buf.length ≤ localIpSize)
    (hproc : ∀ rest, netctrlProcMsg (some (msgBuf operation buf ++ rest)) = (some call, 0))
    (after : Nat → Byte) (s : NetctrlState) :
    ∃ r, netctrlReceiveSkb (fun _ => true) after (commandMsg pid operation buf).bytes s = .ok r ∧
      r.calls.length = 1 ∧ r.acks = [] ∧ r.st.ran = s.ran ++ [call] := by
  have hbuf := length_msgBuf operation buf
  have hsize : buf.length ≤ 32 := hlen
  have hhdrlen : nlmsgHdrlen = 16 := rfl
  have hhdr : (BitVec.ofNat 32 (nlmsgLength (msgBuf operation buf).length)).toNat =
      nlmsgHdrlen + (msgBuf operation buf).length := by
    rw [BitVec.toNat_ofNat, nlmsgLength]
    apply Nat.mod_eq_of_lt
    omega
  have hack : (Nlmsghdr.mk (BitVec.ofNat 32 (nlmsgLength (msgBuf operation buf).length))
      operation 0 0 pid).wantsAck = false := by
    show ((0 : BitVec 16) &&& nlmFAck != 0) = false
    decide
  refine ⟨_, netctrlReceiveSkb_single hhdr (by omega) hok hack after s, rfl, rfl, ?_⟩
  rw [hproc]
  rfl

/-- `netctrl_proc_msg` on a command message, for each of the three commands. -/
theorem netctrlProcMsg_msgBuf (operation : BitVec 16) (buf rest : List Byte) :
    netctrlProcMsg (some (msgBuf operation buf ++ rest)) =
      match NetctrlType.ofMsgType operation with
      | some .authIp => (some (.netctrlAuthIp (cstr? (buf ++ rest))), 0)
      | some .authPort => (some (.netctrlAuthPort (readInt (buf ++ rest))), 0)
      | some .authId => (some (.netctrlAuthId (readInt (buf ++ rest))), 0)
      | none => (none, 0) := by
  simp only [netctrlProcMsg, field_type_msgBuf, drop_msgBuf]
  rfl

/-- What it means that a command line reaches the kernel: `sent` is one message,
    the kernel takes it as one message without an error, and runs `call` only. -/
def Delivers (sent : Except Crash (List SentMsg)) (call : AuthCall) : Prop :=
  ∃ m, sent = .ok [m] ∧ m.module = netlinkUsersock ∧
    ∀ (after : Nat → Byte) (s : NetctrlState),
      ∃ r, netctrlReceiveSkb (fun _ => true) after m.bytes s = .ok r ∧
        r.calls.length = 1 ∧ r.acks = [] ∧ r.st.ran = s.ran ++ [call]

theorem delivers_authKernelConfigCmd {env : AppEnv} (henv : env.Succeeds)
    {operation : BitVec 16} {buf : List Byte} {call : AuthCall}
    (hok : netctrlNetlinkOk operation = 0) (hlen : buf.length ≤ localIpSize)
    (hproc : ∀ rest, netctrlProcMsg (some (msgBuf operation buf ++ rest)) = (some call, 0)) :
    Delivers ((authKernelConfigCmd env operation buf).map Prod.fst) call := by
  refine ⟨commandMsg env.getpid operation buf, ?_, rfl, fun after s => ?_⟩
  · rw [authKernelConfigCmd_sends henv operation hlen]
    rfl
  · exact netctrlReceiveSkb_commandMsg env.getpid hok hlen hproc after s

/-- `g_sys_cmd` as a successful last option leaves it reaches the kernel. -/
theorem delivers_syscmdProc {env : AppEnv} (henv : env.Succeeds) {mem : Ptr → List Byte}
    {last : GetoptResult} {cmd : SysCmd} (hret : (parseSwitch mem last cmd 0).2 = 0)
    (hip : last.c = 'i' → (cstrOf (mem last.optarg)).length ≤ 31) :
    ∃ call, requestedCall mem last = some call ∧
      Delivers (syscmdProc env mem (parseSwitch mem last cmd 0).1) call := by
  rcases parseSwitch_ok hret with ⟨hc, hcmd⟩ | ⟨hc, hcmd⟩ | ⟨hc, hcmd⟩
  · refine ⟨.netctrlAuthId (some (atoi (mem last.optarg))), by simp only [requestedCall, hc], ?_⟩
    rw [hcmd]
    apply delivers_authKernelConfigCmd henv rfl (by simp [localIpSize])
    intro rest
    rw [netctrlProcMsg_msgBuf, SysCmd.data_setData, readInt_leBytes]
    rfl
  · refine ⟨.netctrlAuthPort (some (atoi (mem last.optarg))), by simp only [requestedCall, hc], ?_⟩
    rw [hcmd]
    apply delivers_authKernelConfigCmd henv rfl (by simp [localIpSize])
    intro rest
    rw [netctrlProcMsg_msgBuf, SysCmd.data_setData, readInt_leBytes]
    rfl
  · refine ⟨.netctrlAuthIp (some (cstrOf (mem last.optarg))), by simp only [requestedCall, hc], ?_⟩
    rw [hcmd]
    apply delivers_authKernelConfigCmd henv rfl (by simp)
    intro rest
    -- at most 31 characters leave room for the NUL, which ends the string in the copy
    have hshort : (cstrOf (mem last.optarg)).length < localIpSize := Nat.lt_succ_of_le (hip hc)
    rw [netctrlProcMsg_msgBuf, SysCmd.setPdata, SysCmd.pdata, cstr?_strncpy_append hshort]
    rfl

/-- The command round trip: a command line that parses without an error and has
    at least one option is sent as exactly one message; the kernel takes it as
    one message and runs one handler, that of the last option, on the string
    (of at most 31 characters) or number given there, whatever came before that
    option and whatever the memory behind the message holds. -/
theorem netctrl_command_roundTrip {env : AppEnv} (henv : env.Succeeds) (mem : Ptr → List Byte)
    (args : Args) {pre : List GetoptResult} {last : GetoptResult}
    (hopts : args.opts = pre ++ [last]) (hparse : (syscmdParseArgs mem args.opts).2 = 0)
    (hip : last.c = 'i' → (cstrOf (mem last.optarg)).length ≤ 31) :
    ∃ call, requestedCall mem last = some call ∧ Delivers (main env mem args) call := by
  have hargc : ¬ args.argc ≤ 1 := by
    intro hle
    have hnil := args.opts_eq_nil hle
    rw [hopts] at hnil
    exact absurd hnil (by simp)
  rw [hopts, syscmdParseArgs] at hparse
  obtain ⟨cmd, hcmd⟩ := parseLoop_snoc hparse
  have hmain : main env mem args = syscmdProc env mem (parseSwitch mem last cmd 0).1 := by
    rw [main, if_neg hargc]
    dsimp only
    rw [hopts, syscmdParseArgs, if_neg (not_not.mpr hparse), hcmd]
  rw [hmain]
  rw [hcmd] at hparse
  exact delivers_syscmdProc henv hparse hip

/-- A run of the tool in which everything succeeds. -/
def calmApp : AppEnv where
  callocMsg := true
  socket := 3
  bind := 0
  callocNlhdr := true
  sendmsg := 52
  getpid := 4242

/-- `-p 80 -i 10.0.0.1`: the arguments are at addresses 1 and 2. -/
def portThenIp : Args where
  argc := 5
  opts := [⟨'p', 1⟩, ⟨'i', 2⟩]
  opts_eq_nil := by decide

def portThenIpMem (p : Ptr) : List Byte :=
  if p = 1 then [56, 48, 0] else [49, 48, 46, 48, 46, 48, 46, 49, 0]

theorem calmApp_succeeds : calmApp.Succeeds := ⟨rfl, by decide, by decide, rfl, by decide⟩

theorem portThenIp_opts : portThenIp.opts = [⟨'p', 1⟩] ++ [⟨'i', 2⟩] := rfl

theorem netctrl_command_roundTrip_port_then_ip :
    Delivers (main calmApp portThenIpMem portThenIp)
      (.netctrlAuthIp (some [49, 48, 46, 48, 46, 48, 46, 49])) := by
  obtain ⟨call, hcall, hdel⟩ := netctrl_command_roundTrip
    calmApp_succeeds portThenIpMem portThenIp portThenIp_opts (by decide) (by decide)
  obtain rfl : call = .netctrlAuthIp (some [49, 48, 46, 48, 46, 48, 46, 49]) :=
    (Option.some.inj hcall).symm
  exact hdel

end LinuxModules.Netctrl
