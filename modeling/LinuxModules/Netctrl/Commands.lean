/-
  LinuxModules.Netctrl.Commands

  Runs of the command channel: any sequence of invocations of app.c, each with any
  options and any failures, against netctrl.c.

  What an invocation asks for is stated on its options (`Invocation.command`): all of
  them must be accepted, and the last one counts.  `main_sends` says that this is
  the one message it sends, `netctrlRun_eq` what the kernel makes of it, and
  `commands_run_in_order` that the handlers run are exactly these commands, in
  order.
-/

import LinuxModules.Lib.Run
import LinuxModules.Net.NlmsgBatch
import LinuxModules.Netctrl.RoundTrip

namespace LinuxModules.Netctrl

open LinuxModules.Lib LinuxModules.Net

/-- One run of the tool, and what the kernel finds when its message arrives. -/
structure Invocation where
  env : AppEnv
  mem : Ptr → List Byte
  args : Args
  kzalloc : Bool
  after : Nat → Byte

/-! ## What an invocation asks for -/

/-- The option has an argument and is one of the three commands. -/
def GetoptResult.Accepted (o : GetoptResult) : Prop :=
  o.optarg ≠ 0 ∧ (o.c = 'd' ∨ o.c = 'p' ∨ o.c = 'i')

instance (o : GetoptResult) : Decidable o.Accepted := inferInstanceAs (Decidable (_ ∧ _))

/-- Type and argument of the command an option asks for. -/
def GetoptResult.command (mem : Ptr → List Byte) (o : GetoptResult) : BitVec 16 × List Byte :=
  if o.c = 'd' then (3, leBytes 4 (atoi (mem o.optarg)).toNat)
  else if o.c = 'p' then (2, leBytes 4 (atoi (mem o.optarg)).toNat)
  else (1, strncpy localIpSize (mem o.optarg))

instance (env : AppEnv) : Decidable env.Succeeds :=
  decidable_of_iff (env.callocMsg = true ∧ 0 ≤ env.socket ∧ 0 ≤ env.bind ∧
      env.callocNlhdr = true ∧ 0 ≤ env.sendmsg)
    ⟨fun h => ⟨h.1, h.2.1, h.2.2.1, h.2.2.2.1, h.2.2.2.2⟩,
      fun h => ⟨h.callocMsg, h.socket, h.bind, h.callocNlhdr, h.sendmsg⟩⟩

/-- The option an invocation sends: its last one, if all are accepted and nothing
    fails. -/
def Invocation.sends (v : Invocation) : Option GetoptResult :=
  if v.env.Succeeds ∧ ∀ o ∈ v.args.opts, o.Accepted then v.args.opts.getLast? else none

/-! ## What it sends -/

/-- The messages that reach the kernel; a crash sends none. -/
def sentBy : Except Crash (List SentMsg) → List SentMsg
  | .ok sent => sent
  | .error _ => []

theorem parseSwitch_ok_iff {mem : Ptr → List Byte} {o : GetoptResult} (cmd : SysCmd)
    (harg : o.optarg ≠ 0) : (parseSwitch mem o cmd 0).2 = 0 ↔ o.Accepted := by
  constructor
  · intro h
    rcases parseSwitch_ok h with ⟨hc, -⟩ | ⟨hc, -⟩ | ⟨hc, -⟩
    · exact ⟨harg, Or.inl hc⟩
    · exact ⟨harg, Or.inr (Or.inl hc)⟩
    · exact ⟨harg, Or.inr (Or.inr hc)⟩
  · rintro ⟨-, hc | hc | hc⟩ <;> simp only [parseSwitch, hc]

/-- Parsing succeeds exactly if every option is accepted. -/
theorem parseLoop_ok_iff (mem : Ptr → List Byte) (opts : List GetoptResult) (cmd : SysCmd) :
    (parseLoop mem opts cmd 0).2 = 0 ↔ ∀ o ∈ opts, o.Accepted := by
  induction opts generalizing cmd with
  | nil => simp [parseLoop]
  | cons o opts ih =>
      rw [parseLoop, List.forall_mem_cons]
      by_cases harg : o.optarg = 0
      · rw [if_pos harg]
        refine iff_of_false ?_ fun h => h.1.1 harg
        exact fun h => by cases h
      · rw [if_neg harg, ← parseSwitch_ok_iff cmd harg]
        rcases parseSwitch_ret mem o cmd with hret | hret
        · rw [hret, ih]
          simp
        · rw [hret, parseLoop_of_failed]
          simp

/-- `syscmd_proc` on what an accepted option left in `g_sys_cmd`. -/
theorem syscmdProc_parseSwitch {mem : Ptr → List Byte} {o : GetoptResult} (ho : o.Accepted)
    (env : AppEnv) (cmd : SysCmd) :
    syscmdProc env mem (parseSwitch mem o cmd 0).1 =
      (authKernelConfigCmd env (o.command mem).1 (o.command mem).2).map Prod.fst := by
  have hret : (parseSwitch mem o cmd 0).2 = 0 := (parseSwitch_ok_iff cmd ho.1).mpr ho
  rcases parseSwitch_ok hret with ⟨hc, hcmd⟩ | ⟨hc, hcmd⟩ | ⟨hc, hcmd⟩
  · have hcom : o.command mem = (3, leBytes 4 (atoi (mem o.optarg)).toNat) := by
      simp [GetoptResult.command, hc]
    rw [hcmd, hcom]
    show (authKernelConfigCmd env 3 (leBytes 4 (SysCmd.setData _ _).data.toNat)).map Prod.fst = _
    rw [SysCmd.data_setData]
  · have hcom : o.command mem = (2, leBytes 4 (atoi (mem o.optarg)).toNat) := by
      simp [GetoptResult.command, hc]
    rw [hcmd, hcom]
    show (authKernelConfigCmd env 2 (leBytes 4 (SysCmd.setData _ _).data.toNat)).map Prod.fst = _
    rw [SysCmd.data_setData]
  · have hcom : o.command mem = (1, strncpy localIpSize (mem o.optarg)) := by
      simp [GetoptResult.command, hc]
    rw [hcmd, hcom]
    rfl

/-- A failure on the way sends nothing. -/
theorem sentBy_of_failure {env : AppEnv} (henv : ¬ env.Succeeds) (operation : BitVec 16)
    (buf : List Byte) :
    sentBy ((authKernelConfigCmd env operation buf).map Prod.fst) = [] := by
  unfold authKernelConfigCmd
  split
  case isFalse => rfl
  case isTrue hmsg =>
    unfold sendMsgToKernel
    split
    case isTrue => rfl
    case isFalse =>
      split
      case isTrue => rfl
      case isFalse hsocket =>
        split
        case isTrue => rfl
        case isFalse hbind =>
          split
          case isFalse => rfl
          case isTrue hnlhdr =>
            dsimp only
            split
            case isTrue => rfl
            case isFalse hsendmsg =>
              exact absurd ⟨hmsg, not_lt.mp hsocket, not_lt.mp hbind, hnlhdr, not_lt.mp hsendmsg⟩
                henv

theorem length_command_le (mem : Ptr → List Byte) (o : GetoptResult) :
    (o.command mem).2.length ≤ localIpSize := by
  unfold GetoptResult.command
  split
  · simp [localIpSize]
  · split
    · simp [localIpSize]
    · simp

/-- The message for an option. -/
def optionMsg (v : Invocation) (o : GetoptResult) : SentMsg :=
  commandMsg v.env.getpid (o.command v.mem).1 (o.command v.mem).2

/-- An invocation sends the message of its last option, or nothing. -/
theorem main_sends (v : Invocation) :
    sentBy (main v.env v.mem v.args) = (v.sends.map (optionMsg v)).toList := by
  unfold main Invocation.sends
  rcases List.eq_nil_or_concat v.args.opts with hnil | ⟨pre, last, hopts⟩
  · -- no options: `g_sys_cmd` is not a command
    have hnone : (if v.env.Succeeds ∧ ∀ o ∈ v.args.opts, o.Accepted then v.args.opts.getLast?
        else none) = none := by
      rw [hnil]
      split <;> rfl
    rw [hnone]
    split
    · rfl
    · rw [hnil]
      rfl
  · have hargc : ¬ v.args.argc ≤ 1 := by
      intro hle
      have hnil := v.args.opts_eq_nil hle
      rw [hopts] at hnil
      exact absurd hnil (by simp)
    rw [if_neg hargc]
    dsimp only
    rw [hopts, List.concat_eq_append]
    have hparse := parseLoop_ok_iff v.mem (pre ++ [last]) gSysCmd
    by_cases hall : ∀ o ∈ pre ++ [last], o.Accepted
    · have hret : (syscmdParseArgs v.mem (pre ++ [last])).2 = 0 := hparse.mpr hall
      obtain ⟨cmd, hcmd⟩ := parseLoop_snoc hret
      have hlast : last.Accepted := hall last (by simp)
      rw [if_neg (not_not.mpr hret), syscmdParseArgs, hcmd, syscmdProc_parseSwitch hlast]
      by_cases henv : v.env.Succeeds
      · rw [if_pos ⟨henv, hall⟩, authKernelConfigCmd_sends henv _ (length_command_le _ _),
          List.getLast?_append, List.getLast?_singleton]
        rfl
      · rw [if_neg fun h => henv h.1, sentBy_of_failure henv]
        rfl
    · have hret : (syscmdParseArgs v.mem (pre ++ [last])).2 ≠ 0 := fun h => hall (hparse.mp h)
      rw [if_pos hret, if_neg fun h => hall h.2]
      rfl

/-! ## What the kernel runs -/

/-- The handler run an option leads to, with the four bytes behind its message: a
    string without NUL in its 32 bytes goes on there. -/
def GetoptResult.call (mem : Ptr → List Byte) (after : Nat → Byte) (o : GetoptResult) : AuthCall :=
  if o.c = 'd' then .netctrlAuthId (some (atoi (mem o.optarg)))
  else if o.c = 'p' then .netctrlAuthPort (some (atoi (mem o.optarg)))
  else .netctrlAuthIp (cstr? (strncpy localIpSize (mem o.optarg) ++ (List.range 4).map after))

/-- The handler an invocation runs, if any. -/
def Invocation.runs (v : Invocation) : Option AuthCall :=
  if v.kzalloc then v.sends.map (GetoptResult.call v.mem v.after) else none

/-- The state after `netctrl_receive_skb`. -/
def receivedState (s : NetctrlState) : Except Fault (Received NetctrlState) → NetctrlState
  | .ok r => r.st
  | .error _ => s

/-- An invocation: the tool runs, and the kernel receives what it sends. -/
def netctrlRun (s : NetctrlState) (v : Invocation) : NetctrlState :=
  (sentBy (main v.env v.mem v.args)).foldl
    (fun s m => receivedState s (netctrlReceiveSkb (fun _ => v.kzalloc) v.after m.bytes s)) s

theorem netctrlProcMsg_command (mem : Ptr → List Byte) (after : Nat → Byte) (o : GetoptResult) :
    netctrlNetlinkOk (o.command mem).1 = 0 ∧
      netctrlProcMsg (some (msgBuf (o.command mem).1 (o.command mem).2 ++
        (List.range 4).map after)) = (some (o.call mem after), 0) := by
  rw [netctrlProcMsg_msgBuf]
  unfold GetoptResult.command GetoptResult.call
  split
  · rw [readInt_leBytes]
    exact ⟨rfl, rfl⟩
  · split
    · rw [readInt_leBytes]
      exact ⟨rfl, rfl⟩
    · exact ⟨rfl, rfl⟩

theorem length_optionMsg (v : Invocation) (o : GetoptResult) :
    (optionMsg v o).bytes.length = nlmsgHdrlen + (4 + (o.command v.mem).2.length) := by
  rw [optionMsg, commandMsg, List.length_append, Nlmsghdr.length_toBytes, length_msgBuf]

/-- The length in the header of a message of the tool is that of the message. -/
theorem field_optionMsg (v : Invocation) (o : GetoptResult) :
    field 0 4 (optionMsg v o).bytes = (optionMsg v o).bytes.length := by
  have hle := length_command_le v.mem o
  have hsize : localIpSize = 32 := rfl
  have hhdr : nlmsgHdrlen = 16 := rfl
  rw [length_optionMsg, optionMsg, commandMsg, field_len_toBytes, BitVec.toNat_ofNat,
    nlmsgLength, length_msgBuf]
  exact Nat.mod_eq_of_lt (by omega)

/-- An skb that is one message. -/
theorem netctrlReceiveSkb_whole {b : List Byte} (hmin : nlmsgHdrlen ≤ b.length)
    (hlen : field 0 4 b = b.length) (hshort : b.length < 2 ^ 30) (kzalloc : Bool)
    (after : Nat → Byte) (s : NetctrlState) :
    netctrlReceiveSkb (fun _ => kzalloc) after b s =
      .ok (Received.handle (fun _ => netctrlReceiveMsg kzalloc (kernelMem b after)) ⟨s, [], []⟩
        (0, .ofBytes b)) := by
  rw [netctrlReceiveSkb, receiveSkb_eq _ hshort (chain_whole hmin hlen)]
  rfl

theorem receivedState_whole {b : List Byte} (hmin : nlmsgHdrlen ≤ b.length)
    (hlen : field 0 4 b = b.length) (hshort : b.length < 2 ^ 30) (kzalloc : Bool)
    (after : Nat → Byte) (s : NetctrlState) :
    receivedState s (netctrlReceiveSkb (fun _ => kzalloc) after b s) =
      (netctrlReceiveMsg kzalloc (kernelMem b after) s (.ofBytes b) 0).1 := by
  rw [netctrlReceiveSkb_whole hmin hlen hshort]
  rfl

/-- Without memory for its copy a message of the tool has no effect. -/
theorem receivedState_of_nomem (v : Invocation) (o : GetoptResult) (s : NetctrlState) :
    receivedState s (netctrlReceiveSkb (fun _ => false) v.after (optionMsg v o).bytes s) = s := by
  have hle := length_command_le v.mem o
  have hsize : localIpSize = 32 := rfl
  have hhdr : nlmsgHdrlen = 16 := rfl
  have hlen := length_optionMsg v o
  rw [receivedState_whole (by omega) (field_optionMsg v o) (by omega), netctrlReceiveMsg]
  split <;> rfl

theorem receivedState_optionMsg (v : Invocation) (o : GetoptResult) (s : NetctrlState) :
    receivedState s (netctrlReceiveSkb (fun _ => true) v.after (optionMsg v o).bytes s) =
      ⟨s.ran ++ [o.call v.mem v.after], s.live + 1⟩ := by
  obtain ⟨hok, hproc⟩ := netctrlProcMsg_command v.mem v.after o
  have hle := length_command_le v.mem o
  have hsize : localIpSize = 32 := rfl
  have hbuf := length_msgBuf (o.command v.mem).1 (o.command v.mem).2
  have hfield := field_optionMsg v o
  rw [length_optionMsg, optionMsg, commandMsg, field_len_toBytes] at hfield
  rw [optionMsg, commandMsg, netctrlReceiveSkb_single (by rw [hfield, hbuf]) (by omega) hok
    (by simp [Nlmsghdr.wantsAck]), receivedState, hproc]
  rfl

/-- One invocation from any state. -/
theorem netctrlRun_eq (s : NetctrlState) (v : Invocation) :
    netctrlRun s v = ⟨s.ran ++ v.runs.toList, s.live + v.runs.toList.length⟩ := by
  -- stated for any step: the receive loop is not to be unfolded here
  have hfold : ∀ (f : NetctrlState → SentMsg → NetctrlState) (m : SentMsg), [m].foldl f s = f s m :=
    fun _ _ => rfl
  rw [netctrlRun, main_sends]
  cases hsends : v.sends with
  | none =>
      have hnone : v.runs = none := by simp [Invocation.runs, hsends]
      rw [hnone]
      simp
  | some o =>
      rw [Option.map_some, Option.toList_some, hfold]
      by_cases hmem : v.kzalloc = true
      · have hsome : v.runs = some (o.call v.mem v.after) := by
          simp [Invocation.runs, hsends, hmem]
        rw [hmem, receivedState_optionMsg, hsome]
        rfl
      · have hnone : v.runs = none := by simp [Invocation.runs, hmem]
        rw [Bool.not_eq_true] at hmem
        rw [hmem, receivedState_of_nomem, hnone]
        simp

/-- What a short string or a number asks for does not depend on the memory behind
    the message. -/
theorem call_eq_requestedCall {mem : Ptr → List Byte} {o : GetoptResult} (ho : o.Accepted)
    (hip : o.c = 'i' → (cstrOf (mem o.optarg)).length ≤ 31) (after : Nat → Byte) :
    requestedCall mem o = some (o.call mem after) := by
  obtain ⟨-, hc | hc | hc⟩ := ho
  · simp [requestedCall, GetoptResult.call, hc]
  · simp [requestedCall, GetoptResult.call, hc]
  · have hshort : (cstrOf (mem o.optarg)).length < localIpSize := Nat.lt_succ_of_le (hip hc)
    simp [requestedCall, GetoptResult.call, hc, cstr?_strncpy_append hshort]

theorem accepted_of_sends {v : Invocation} {o : GetoptResult} (h : v.sends = some o) :
    o.Accepted := by
  unfold Invocation.sends at h
  split at h
  case isTrue hall => exact hall.2 o (List.mem_of_getLast? h)
  case isFalse => cases h

/-- After any sequence of invocations, with any options and any failures on both
    sides: the handlers that ran are exactly the last options of the invocations that
    were accepted and did not fail, in their order, each with the string (of at most
    31 characters) or number given there; and as many buffers are lost. -/
theorem commands_run_in_order (vs : List Invocation) :
    (run netctrlRun ⟨[], 0⟩ vs).ran = vs.filterMap Invocation.runs ∧
      (run netctrlRun ⟨[], 0⟩ vs).live = (vs.filterMap Invocation.runs).length ∧
      ∀ v ∈ vs, ∀ o, v.sends = some o → v.kzalloc = true →
        (o.c = 'i' → (cstrOf (v.mem o.optarg)).length ≤ 31) → v.runs = requestedCall v.mem o := by
  have hrun : ∀ (s : NetctrlState) (vs : List Invocation), run netctrlRun s vs =
      ⟨s.ran ++ vs.filterMap Invocation.runs,
        s.live + (vs.filterMap Invocation.runs).length⟩ := by
    intro s vs
    induction vs generalizing s with
    | nil => simp [run]
    | cons v vs ih =>
        rw [run_cons, ih, netctrlRun_eq]
        cases hv : v.runs with
        | none => simp [hv]
        | some call =>
            simp only [List.filterMap_cons, hv, Option.toList_some, List.append_assoc,
              List.singleton_append, List.length_cons, List.length_nil, NetctrlState.mk.injEq]
            exact ⟨trivial, by omega⟩
  refine ⟨?_, ?_, ?_⟩
  · rw [hrun, List.nil_append]
  · rw [hrun, Nat.zero_add]
  · intro v _ o hsends hmem hip
    rw [call_eq_requestedCall (accepted_of_sends hsends) hip v.after, Invocation.runs, hmem,
      if_pos rfl, hsends, Option.map_some]

end LinuxModules.Netctrl
