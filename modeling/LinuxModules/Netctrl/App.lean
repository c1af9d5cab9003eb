/-
  LinuxModules.Netctrl.App

  app.c, the command line tool of netctrl: options into `g_sys_cmd`, and from
  there into one netlink message.

  `getopt_long` is given by the list of its results.  Strings are pointers into
  the memory of the process, NULL is 0; the union of `struct syscmd` is its eight
  bytes, of which `data` is the lower half and `pdata` the whole.  The results of
  system calls and allocations are in `AppEnv`.
-/

import LinuxModules.Lib.CString
import LinuxModules.Net.Nlmsg

namespace LinuxModules.Netctrl

open LinuxModules.Lib LinuxModules.Net

/-- A pointer of the process. -/
abbrev Ptr := BitVec 64

/-! ## Options -/

/-- What one call of `getopt_long` returns and leaves in `optarg`. -/
structure GetoptResult where
  c : Char
  optarg : Ptr
deriving DecidableEq

/-- The arguments of `main` as `getopt_long` sees them: without arguments there
    are no options. -/
structure Args where
  argc : Int
  opts : List GetoptResult
  opts_eq_nil : argc ≤ 1 → opts = []

/-- `struct syscmd` -/
structure SysCmd where
  type : BitVec 32
  union : BitVec 64
deriving DecidableEq

def SysCmd.data (cmd : SysCmd) : BitVec 32 := cmd.union.setWidth 32

def SysCmd.pdata (cmd : SysCmd) : Ptr := cmd.union

/-- `cmd->data = v` leaves the upper half of the union as it was. -/
def SysCmd.setData (cmd : SysCmd) (v : BitVec 32) : SysCmd :=
  { cmd with union := cmd.union.extractLsb' 32 32 ++ v }

def SysCmd.setPdata (cmd : SysCmd) (p : Ptr) : SysCmd := { cmd with union := p }

/-- `NETCTRL_AUTH_IP` of app.c. -/
def netctrlAuthIpType : BitVec 32 := 1

/-- `NETCTRL_AUTH_PORT` of app.c. -/
def netctrlAuthPortType : BitVec 32 := 2

/-- `NETCTRL_AUTH_ID` of app.c. -/
def netctrlAuthIdType : BitVec 32 := 3

/-- `g_sys_cmd`, a zeroed static. -/
def gSysCmd : SysCmd := { type := 0, union := 0 }

/-- The `switch (c)` of `syscmd_parse_args`, on `g_sys_cmd` and `ret`. -/
def parseSwitch (mem : Ptr → List Byte) (o : GetoptResult) (cmd : SysCmd) (ret : Int) :
    SysCmd × Int :=
  match o.c with
  | 'h' => (cmd, -1)
  | 'd' => ({ cmd with type := netctrlAuthIdType }.setData (atoi (mem o.optarg)), ret)
  | 'p' => ({ cmd with type := netctrlAuthPortType }.setData (atoi (mem o.optarg)), ret)
  | 'i' => ({ cmd with type := netctrlAuthIpType }.setPdata o.optarg, ret)
  | _ => (cmd, -1)

/-- The loop of `syscmd_parse_args`. -/
def parseLoop (mem : Ptr → List Byte) : List GetoptResult → SysCmd → Int → SysCmd × Int
  | [], cmd, ret => (cmd, ret)
  | o :: opts, cmd, ret =>
      -- `break` on a missing argument: later options are not looked at
      if o.optarg = 0 then (cmd, -1)
      else parseLoop mem opts (parseSwitch mem o cmd ret).1 (parseSwitch mem o cmd ret).2

/-- `syscmd_parse_args` -/
def syscmdParseArgs (mem : Ptr → List Byte) (opts : List GetoptResult) : SysCmd × Int :=
  parseLoop mem opts gSysCmd 0

/-! ## Sending -/

/-- `MAX_MSGSIZE` -/
def maxMsgsize : Nat := 2048

/-- `NETLINK_USERSOCK` -/
def netlinkUsersock : BitVec 8 := 2

/-- The results of the system calls and allocations of one run. -/
structure AppEnv where
  callocMsg : Bool
  socket : Int
  bind : Int
  callocNlhdr : Bool
  sendmsg : Int
  getpid : BitVec 32

/-- Every system call and every allocation succeeds. -/
structure AppEnv.Succeeds (env : AppEnv) : Prop where
  callocMsg : env.callocMsg = true
  socket : 0 ≤ env.socket
  bind : 0 ≤ env.bind
  callocNlhdr : env.callocNlhdr = true
  sendmsg : 0 ≤ env.sendmsg

/-- A message that `sendmsg` took, with the netlink protocol of its socket. -/
structure SentMsg where
  module : BitVec 8
  bytes : List Byte
deriving DecidableEq

/-- The process dies. -/
inductive Crash where
  | nullDeref
deriving DecidableEq

/-- `NLMSG_LENGTH` -/
def nlmsgLength (len : Nat) : Nat := nlmsgHdrlen + len

/-- `send_msg_to_kernel`: what was sent and what is returned.  The buffer of the
    message is cleared, so `nlmsg_seq` is 0; its `calloc` is not checked. -/
def sendMsgToKernel (env : AppEnv) (buf : List Byte) (module : BitVec 8) :
    Except Crash (List SentMsg × Int) :=
  if maxMsgsize ≤ buf.length then .ok ([], -1)
  else if env.socket < 0 then .ok ([], -1)
  else if env.bind < 0 then .ok ([], env.bind)
  else if env.callocNlhdr then
    let nlhdr : Nlmsghdr :=
      { nlmsgLen := BitVec.ofNat 32 (nlmsgLength buf.length)
        nlmsgType := BitVec.ofNat 16 (field 0 2 buf)
        nlmsgFlags := 0
        nlmsgSeq := 0
        nlmsgPid := env.getpid }
    if env.sendmsg < 0 then .ok ([], env.sendmsg)
    else .ok ([{ module, bytes := nlhdr.toBytes ++ buf }], env.sendmsg)
  else .error .nullDeref

/-- The `msg_buf_t` of `auth_kernel_config_cmd`. -/
def msgBuf (operation : BitVec 16) (buf : List Byte) : List Byte :=
  leBytes 2 operation.toNat ++ (leBytes 2 buf.length ++ buf)

/-- `auth_kernel_config_cmd`: the result of the send is only printed. -/
def authKernelConfigCmd (env : AppEnv) (operation : BitVec 16) (buf : List Byte) :
    Except Crash (List SentMsg × Int) :=
  if env.callocMsg then do
    let res ← sendMsgToKernel env (msgBuf operation buf) netlinkUsersock
    return (res.1, 0)
  else .ok ([], -1)

/-- The size of `struct local_ip`. -/
def localIpSize : Nat := 32

def syscmdSetAuthPort (env : AppEnv) (cmd : SysCmd) : Except Crash (List SentMsg × Int) :=
  authKernelConfigCmd env (cmd.type.setWidth 16) (leBytes 4 cmd.data.toNat)

def syscmdSetAuthIp (env : AppEnv) (mem : Ptr → List Byte) (cmd : SysCmd) :
    Except Crash (List SentMsg × Int) :=
  authKernelConfigCmd env (cmd.type.setWidth 16) (strncpy localIpSize (mem cmd.pdata))

def syscmdSetAuthId (env : AppEnv) (cmd : SysCmd) : Except Crash (List SentMsg × Int) :=
  authKernelConfigCmd env (cmd.type.setWidth 16) (leBytes 4 cmd.data.toNat)

/-- `syscmd_proc`, which always returns 0: what it sent. -/
def syscmdProc (env : AppEnv) (mem : Ptr → List Byte) (cmd : SysCmd) :
    Except Crash (List SentMsg) :=
  if cmd.type = netctrlAuthIpType then return (← syscmdSetAuthIp env mem cmd).1
  else if cmd.type = netctrlAuthPortType then return (← syscmdSetAuthPort env cmd).1
  else if cmd.type = netctrlAuthIdType then return (← syscmdSetAuthId env cmd).1
  else return []

/-- `main`, which always returns 0: what it sent. -/
def main (env : AppEnv) (mem : Ptr → List Byte) (args : Args) : Except Crash (List SentMsg) :=
  if args.argc ≤ 1 then return []
  else
    let parsed := syscmdParseArgs mem args.opts
    if parsed.2 ≠ 0 then return []
    else syscmdProc env mem parsed.1

/-! ## The last option wins -/

theorem SysCmd.data_setData (cmd : SysCmd) (v : BitVec 32) : (cmd.setData v).data = v := by
  show (cmd.union.extractLsb' 32 32 ++ v).setWidth 32 = v
  exact BitVec.setWidth_append_eq_right

/-- An error is never taken back. -/
theorem parseLoop_of_failed (mem : Ptr → List Byte) (opts : List GetoptResult) (cmd : SysCmd) :
    (parseLoop mem opts cmd (-1)).2 = -1 := by
  induction opts generalizing cmd with
  | nil => rfl
  | cons o opts ih =>
      rw [parseLoop]
      split
      · rfl
      · have hret : (parseSwitch mem o cmd (-1)).2 = -1 := by
          unfold parseSwitch
          split <;> rfl
        rw [hret]
        exact ih _

theorem parseSwitch_ret (mem : Ptr → List Byte) (o : GetoptResult) (cmd : SysCmd) :
    (parseSwitch mem o cmd 0).2 = 0 ∨ (parseSwitch mem o cmd 0).2 = -1 := by
  unfold parseSwitch
  split
  case h_1 => exact Or.inr rfl
  case h_5 => exact Or.inr rfl
  all_goals exact Or.inl rfl

/-- An option without error is one of the three commands. -/
theorem parseSwitch_ok {mem : Ptr → List Byte} {o : GetoptResult} {cmd : SysCmd}
    (h : (parseSwitch mem o cmd 0).2 = 0) :
    (o.c = 'd' ∧ (parseSwitch mem o cmd 0).1 =
      { cmd with type := netctrlAuthIdType }.setData (atoi (mem o.optarg))) ∨
    (o.c = 'p' ∧ (parseSwitch mem o cmd 0).1 =
      { cmd with type := netctrlAuthPortType }.setData (atoi (mem o.optarg))) ∨
    (o.c = 'i' ∧ (parseSwitch mem o cmd 0).1 =
      { cmd with type := netctrlAuthIpType }.setPdata o.optarg) := by
  unfold parseSwitch at h ⊢
  split at h
  case h_1 => cases h
  case h_2 hc => exact Or.inl ⟨hc, rfl⟩
  case h_3 hc => exact Or.inr (Or.inl ⟨hc, rfl⟩)
  case h_4 hc => exact Or.inr (Or.inr ⟨hc, rfl⟩)
  case h_5 => cases h

/-- When parsing succeeds, `g_sys_cmd` is what the last option makes of some
    earlier value. -/
theorem parseLoop_snoc {mem : Ptr → List Byte} {pre : List GetoptResult} {last : GetoptResult}
    {cmd : SysCmd} (h : (parseLoop mem (pre ++ [last]) cmd 0).2 = 0) :
    ∃ cmd', parseLoop mem (pre ++ [last]) cmd 0 = parseSwitch mem last cmd' 0 := by
  induction pre generalizing cmd with
  | nil =>
      refine ⟨cmd, ?_⟩
      rw [List.nil_append, parseLoop] at h ⊢
      split at h
      · cases h
      · rename_i hnull
        rw [if_neg hnull, parseLoop]
  | cons o pre ih =>
      rw [List.cons_append, parseLoop] at h ⊢
      split at h
      · cases h
      · rename_i hnull
        rw [if_neg hnull]
        rcases parseSwitch_ret mem o cmd with hret | hret
        · rw [hret] at h ⊢
          exact ih h
        · -- an earlier error would still be there at the end
          rw [hret, parseLoop_of_failed] at h
          cases h

/-! ## What a command sends -/

/-- The message for the command `operation` with the argument `buf`. -/
def commandMsg (pid : BitVec 32) (operation : BitVec 16) (buf : List Byte) : SentMsg where
  module := netlinkUsersock
  bytes :=
    (Nlmsghdr.mk (BitVec.ofNat 32 (nlmsgLength (msgBuf operation buf).length)) operation 0 0
      pid).toBytes ++ msgBuf operation buf

theorem field_type_msgBuf (operation : BitVec 16) (buf rest : List Byte) :
    BitVec.ofNat 16 (field 0 2 (msgBuf operation buf ++ rest)) = operation := by
  rw [msgBuf, List.append_assoc, field_leBytes_append operation.isLt, BitVec.ofNat_toNat,
    BitVec.setWidth_eq]

theorem length_msgBuf (operation : BitVec 16) (buf : List Byte) :
    (msgBuf operation buf).length = 4 + buf.length := by
  simp only [msgBuf, List.length_append, length_leBytes]
  omega

/-- If nothing fails, a short command is sent as one message whose two types
    agree. -/
theorem authKernelConfigCmd_sends {env : AppEnv} (henv : env.Succeeds) (operation : BitVec 16)
    {buf : List Byte} (hlen : buf.length ≤ localIpSize) :
    authKernelConfigCmd env operation buf = .ok ([commandMsg env.getpid operation buf], 0) := by
  have hfit : ¬ maxMsgsize ≤ (msgBuf operation buf).length := by
    have hmax : maxMsgsize = 2048 := rfl
    have hsize : localIpSize = 32 := rfl
    rw [length_msgBuf]
    omega
  have htype : BitVec.ofNat 16 (field 0 2 (msgBuf operation buf)) = operation := by
    have h := field_type_msgBuf operation buf []
    rwa [List.append_nil] at h
  rw [authKernelConfigCmd, if_pos henv.callocMsg, sendMsgToKernel, if_neg hfit,
    if_neg (not_lt.mpr henv.socket), if_neg (not_lt.mpr henv.bind), if_pos henv.callocNlhdr]
  dsimp only
  rw [if_neg (not_lt.mpr henv.sendmsg), htype]
  rfl

end LinuxModules.Netctrl
