/-
  LinuxModules.Netctrl.Reads

  What netctrl.c reads of a message, and what it keeps of it.

  Neither `nlmsg_len` nor `msg_len` is compared with what a handler needs, so a
  short payload is read past its end: the inner type of a payload below two
  bytes, the number of one below eight, the string of one without a NUL.  The
  copy `netctrl_receive_msg` allocates is never freed.
-/

import LinuxModules.Netctrl.Dispatch
import LinuxModules.Netctrl.RoundTrip

namespace LinuxModules.Netctrl

open LinuxModules.Lib LinuxModules.Net

/-! ## The bytes a handler reads -/

/-- The indices of the buffer that `netctrl_proc_msg` and its handler read: the
    type, then an `int`, or the string with its NUL.  A string without a NUL in
    the buffer is read on behind it. -/
def procReads (buf : List Byte) : List Nat :=
  List.range 2 ++
    match NetctrlType.ofMsgType (BitVec.ofNat 16 (field 0 2 buf)) with
    | some .authIp => List.range' msgBufSize ((cstrOf (buf.drop msgBufSize)).length + 1)
    | some .authPort => List.range' msgBufSize 4
    | some .authId => List.range' msgBufSize 4
    | none => []

/-- Whatever is read of the buffer passed on for this message lies in the
    message's payload. -/
def ReadsInside (kzalloc : Bool) (mem : Nat → Byte) (h : Nlmsghdr) (nlh : Nat) : Prop :=
  ∀ buf, procBuffer kzalloc mem h nlh = some buf →
    ∀ i ∈ procReads buf, i < h.nlmsgLen.toNat - nlmsgHdrlen

/-- The payload has all that the handler of its inner type reads. -/
def Suffices (payload : List Byte) : Prop :=
  2 ≤ payload.length ∧
    match NetctrlType.ofMsgType (BitVec.ofNat 16 (field 0 2 payload)) with
    | some .authIp => 0 ∈ payload.drop msgBufSize
    | some .authPort => msgBufSize + 4 ≤ payload.length
    | some .authId => msgBufSize + 4 ≤ payload.length
    | none => True

theorem forall_mem_range'_lt {s n k : Nat} (hn : 0 < n) :
    (∀ i ∈ List.range' s n, i < k) ↔ s + n ≤ k := by
  constructor
  · intro h
    have hlast := h (s + (n - 1)) (by rw [List.mem_range'_1]; omega)
    omega
  · intro h i hi
    rw [List.mem_range'_1] at hi
    omega

/-- The string is read inside the payload exactly if the payload has a NUL for
    it. -/
theorem stringReads_inside_iff (payload rest : List Byte) :
    (∀ i ∈ List.range' msgBufSize ((cstrOf ((payload ++ rest).drop msgBufSize)).length + 1),
        i < payload.length) ↔ 0 ∈ payload.drop msgBufSize := by
  rw [forall_mem_range'_lt (Nat.succ_pos _), List.drop_append,
    ← length_cstrOf_append_lt_iff _ (rest.drop (msgBufSize - payload.length)), List.length_drop]
  omega

/-- `netctrl_proc_msg` on a payload with anything behind it. -/
theorem procReads_inside_iff (payload rest : List Byte) :
    (∀ i ∈ procReads (payload ++ rest), i < payload.length) ↔ Suffices payload := by
  have hsize : msgBufSize = 4 := rfl
  have hnum := forall_mem_range'_lt (s := msgBufSize) (n := 4) (k := payload.length) (by decide)
  have hstr := stringReads_inside_iff payload rest
  by_cases hlen : 2 ≤ payload.length
  · have hfield : field 0 2 (payload ++ rest) = field 0 2 payload :=
      field_append_left (by omega)
    have htype : ∀ i ∈ List.range 2, i < payload.length := by
      intro i hi
      rw [List.mem_range] at hi
      omega
    simp only [procReads, Suffices, hfield, List.mem_append, or_imp, forall_and, hlen, true_and]
    rw [and_iff_right htype]
    -- what is left to read depends on the handler
    rcases NetctrlType.ofMsgType (BitVec.ofNat 16 (field 0 2 payload)) with _ | (_ | _ | _)
    · exact ⟨fun _ => trivial, fun _ i => nofun⟩
    · exact hstr
    · exact hnum
    · exact hnum
  · refine ⟨fun h => ?_, fun h => absurd h.1 hlen⟩
    -- not even the type is there
    have hone := h 1 (List.mem_append_left _ (by decide))
    omega

theorem length_payloadAt (mem : Nat → Byte) (h : Nlmsghdr) (nlh : Nat) :
    (payloadAt mem h nlh).length = h.nlmsgLen.toNat - nlmsgHdrlen := length_memcpyFrom _ _ _

theorem readsInside_iff {kzalloc : Bool} {mem : Nat → Byte} {h : Nlmsghdr} {nlh : Nat}
    (hmin : nlmsgHdrlen ≤ h.nlmsgLen.toNat) :
    ReadsInside kzalloc mem h nlh ↔
      (netctrlNetlinkOk h.nlmsgType = 0 → kzalloc = true → Suffices (payloadAt mem h nlh)) := by
  have hproc := procReads_inside_iff (payloadAt mem h nlh)
    (memcpyFrom mem (nlh + h.nlmsgLen.toNat) 4)
  rw [length_payloadAt] at hproc
  constructor
  · intro hread hok hkz
    exact hproc.mp (hread _ ((procBuffer_eq_some mem nlh hmin).mpr ⟨hok, hkz, rfl⟩))
  · intro hsuff buf hbuf
    obtain ⟨hok, hkz, rfl⟩ := (procBuffer_eq_some mem nlh hmin).mp hbuf
    exact hproc.mpr (hsuff hok hkz)

/-! ## The messages of app.c -/

/-- A sequence that does not fail is its two parts, neither of which fails. -/
theorem exists_ok_of_bind {ε α β : Type} {x : Except ε α} {f : α → Except ε β} {b : β}
    (h : x >>= f = .ok b) : ∃ a, x = .ok a ∧ f a = .ok b := by
  cases x with
  | error e => cases h
  | ok a => exact ⟨a, rfl, h⟩

/-- Every way out of `send_msg_to_kernel` but the last sends nothing. -/
theorem mem_sendMsgToKernel {env : AppEnv} {buf : List Byte} {module : BitVec 8}
    {res : List SentMsg × Int} (h : sendMsgToKernel env buf module = .ok res) {m : SentMsg}
    (hm : m ∈ res.1) :
    m = { module, bytes := (Nlmsghdr.mk (BitVec.ofNat 32 (nlmsgLength buf.length))
      (BitVec.ofNat 16 (field 0 2 buf)) 0 0 env.getpid).toBytes ++ buf } := by
  unfold sendMsgToKernel at h
  split at h
  · cases h
    cases hm
  split at h
  · cases h
    cases hm
  split at h
  · cases h
    cases hm
  split at h
  · dsimp only at h
    split at h
    · cases h
      cases hm
    · cases h
      exact List.mem_singleton.mp hm
  · cases h

/-- Whatever fails, `auth_kernel_config_cmd` sends nothing but its message. -/
theorem mem_authKernelConfigCmd {env : AppEnv} {operation : BitVec 16} {buf : List Byte}
    {res : List SentMsg × Int} (h : authKernelConfigCmd env operation buf = .ok res) {m : SentMsg}
    (hm : m ∈ res.1) : m = commandMsg env.getpid operation buf := by
  have htype : BitVec.ofNat 16 (field 0 2 (msgBuf operation buf)) = operation := by
    have hany := field_type_msgBuf operation buf []
    rwa [List.append_nil] at hany
  unfold authKernelConfigCmd at h
  split at h
  case isFalse =>
    cases h
    cases hm
  case isTrue =>
    obtain ⟨sent, hsent, heq⟩ := exists_ok_of_bind h
    cases heq
    have hmsg := mem_sendMsgToKernel hsent hm
    rwa [htype] at hmsg

theorem drop_commandMsg (pid : BitVec 32) (operation : BitVec 16) (buf : List Byte) :
    (commandMsg pid operation buf).bytes.drop nlmsgHdrlen = msgBuf operation buf :=
  List.drop_left' (Nlmsghdr.length_toBytes _)

/-- A command message has what its handler reads: always for a number, and for a
    string if it holds a NUL. -/
theorem suffices_msgBuf (operation : BitVec 16) (buf : List Byte) :
    Suffices (msgBuf operation buf) ↔
      match NetctrlType.ofMsgType operation with
      | some .authIp => 0 ∈ buf
      | some .authPort => 4 ≤ buf.length
      | some .authId => 4 ≤ buf.length
      | none => True := by
  have htype := field_type_msgBuf operation buf []
  have hdrop := drop_msgBuf operation buf []
  rw [List.append_nil] at htype hdrop
  rw [List.append_nil] at hdrop
  have hlen := length_msgBuf operation buf
  have hsize : msgBufSize = 4 := rfl
  unfold Suffices
  rw [htype, hdrop, hlen, hsize, and_iff_right (by omega)]
  rcases NetctrlType.ofMsgType operation with _ | (_ | _ | _)
  · exact Iff.rfl
  · exact Iff.rfl
  · exact ⟨fun h => by omega, fun h => by omega⟩
  · exact ⟨fun h => by omega, fun h => by omega⟩

/-- The string of the command, if it is the command with a string, is at most 31
    characters long. -/
def ShortIp (mem : Ptr → List Byte) (cmd : SysCmd) : Prop :=
  cmd.type = netctrlAuthIpType → (cstrOf (mem cmd.pdata)).length < localIpSize

theorem suffices_syscmdProc {env : AppEnv} {mem : Ptr → List Byte} {cmd : SysCmd}
    {sent : List SentMsg} (h : syscmdProc env mem cmd = .ok sent) {m : SentMsg} (hm : m ∈ sent) :
    Suffices (m.bytes.drop nlmsgHdrlen) ↔ ShortIp mem cmd := by
  unfold syscmdProc at h
  split at h
  case isTrue hip =>
    obtain ⟨res, hres, heq⟩ := exists_ok_of_bind h
    cases heq
    rw [mem_authKernelConfigCmd hres hm, drop_commandMsg, suffices_msgBuf, hip]
    -- exactly 32 characters and more leave no NUL in the copy
    exact (zero_mem_strncpy_iff localIpSize _).trans ⟨fun hlt _ => hlt, fun hlt => hlt hip⟩
  case isFalse hip =>
    have hshort : ShortIp mem cmd := fun hyes => absurd hyes hip
    refine ⟨fun _ => hshort, fun _ => ?_⟩
    split at h
    case isTrue hport =>
      obtain ⟨res, hres, heq⟩ := exists_ok_of_bind h
      cases heq
      rw [mem_authKernelConfigCmd hres hm, drop_commandMsg, suffices_msgBuf, hport]
      exact le_of_eq (length_leBytes _ _).symm
    case isFalse =>
      split at h
      case isTrue hid =>
        obtain ⟨res, hres, heq⟩ := exists_ok_of_bind h
        cases heq
        rw [mem_authKernelConfigCmd hres hm, drop_commandMsg, suffices_msgBuf, hid]
        exact le_of_eq (length_leBytes _ _).symm
      case isFalse =>
        cases h
        cases hm

theorem suffices_main {env : AppEnv} {mem : Ptr → List Byte} {args : Args} {sent : List SentMsg}
    (h : main env mem args = .ok sent) {m : SentMsg} (hm : m ∈ sent) :
    Suffices (m.bytes.drop nlmsgHdrlen) ↔ ShortIp mem (syscmdParseArgs mem args.opts).1 := by
  unfold main at h
  split at h
  · cases h
    cases hm
  · dsimp only at h
    split at h
    · cases h
      cases hm
    · exact suffices_syscmdProc h hm

/-- `netctrl_receive_skb` returns on every skb below `2 ^ 30` bytes, with the
    maximal sequence of its valid messages handed over.  Where it returns, what is
    read for a message lies in its payload exactly if it is refused, gets no buffer,
    or has all that its handler reads; and a message that app.c sends has that
    exactly if it is not an address of 32 characters or more. -/
theorem reads_inside_iff_suffices (kzalloc : Nat → Bool) (after : Nat → Byte) (b : List Byte)
    (s : NetctrlState) :
    (b.length < 2 ^ 30 →
      ∃ os r, Chain b 0 os ∧ netctrlReceiveSkb kzalloc after b s = .ok r ∧
        r.calls = os.map (msgAt b)) ∧
    (∀ r, netctrlReceiveSkb kzalloc after b s = .ok r →
      r.st.ran = s.ran ++ handlerRuns kzalloc (kernelMem b after) 0 r.calls ∧
      ∀ k m, r.calls[k]? = some m →
        (ReadsInside (kzalloc k) (kernelMem b after) m.2 m.1 ↔
          (netctrlNetlinkOk m.2.nlmsgType = 0 → kzalloc k = true →
            Suffices (payloadAt (kernelMem b after) m.2 m.1)))) ∧
    ∀ (env : AppEnv) (mem : Ptr → List Byte) (args : Args) (sent : List SentMsg),
      main env mem args = .ok sent → ∀ m ∈ sent,
        (Suffices (m.bytes.drop nlmsgHdrlen) ↔ ShortIp mem (syscmdParseArgs mem args.opts).1) := by
  refine ⟨fun hb => netctrlReceiveSkb_returns kzalloc after hb s, fun r hr =>
    ⟨netctrlReceiveSkb_ran hr, fun k m hm => ?_⟩, fun env mem args sent h m hm => ?_⟩
  · exact readsInside_iff (netctrlReceiveSkb_len hr hm)
  · exact suffices_main h hm

/-- A port in eight payload bytes is read inside them. -/
theorem reads_inside_port_message :
    ∃ r, netctrlReceiveSkb (fun _ => true) (fun _ => 0) (authIpMsg 2) ⟨[], 0⟩ = .ok r ∧
      ∀ (k : Nat) (m : Nat × Nlmsghdr), r.calls[k]? = some m →
        ReadsInside true (kernelMem (authIpMsg 2) fun _ => 0) m.2 m.1 := by
  obtain ⟨r, hr, hcalls⟩ := calls_authIpMsg 2 fun _ => 0
  refine ⟨r, hr, fun k m hm => ?_⟩
  refine (((reads_inside_iff_suffices _ _ _ _).2.1 r hr).2 k m hm).mpr fun _ _ => ?_
  rw [hcalls] at hm
  obtain rfl : m = (0, Nlmsghdr.mk 24 1 0 0 7) :=
    List.mem_singleton.mp (List.mem_of_getElem? hm)
  exact ⟨by decide, show msgBufSize + 4 ≤ 8 by decide⟩

/-- A message with the inner type of a port and nothing behind it. -/
def emptyPortMsg : List Byte := (Nlmsghdr.mk 20 2 0 0 7).toBytes ++ [2, 0, 0, 0]

/-- `-i` with an address of 32 characters. -/
def longIp : Args where
  argc := 3
  opts := [⟨'i', 1⟩]
  opts_eq_nil := by decide

def longIpMem (_ : Ptr) : List Byte := List.replicate 32 49 ++ [0]

/-- A port is read behind a payload of four bytes, and the address of 32
    characters that app.c sends is read behind its payload. -/
theorem reads_outside_payload :
    (∃ r, netctrlReceiveSkb (fun _ => true) (fun _ => 0) emptyPortMsg ⟨[], 0⟩ = .ok r ∧
      r.calls = [(0, Nlmsghdr.mk 20 2 0 0 7)] ∧
      procReads (memcpyFrom (kernelMem emptyPortMsg fun _ => 0) 16 8) = [0, 1, 4, 5, 6, 7] ∧
      ¬ ReadsInside true (kernelMem emptyPortMsg fun _ => 0) (Nlmsghdr.mk 20 2 0 0 7) 0) ∧
    ∃ m, main calmApp longIpMem longIp = .ok [m] ∧ ¬ Suffices (m.bytes.drop nlmsgHdrlen) := by
  refine ⟨⟨_, netctrlReceiveSkb_single (by simp [nlmsgHdrlen]) (by simp) rfl (by decide) _ _, rfl,
    by decide, fun h => ?_⟩, _, rfl, fun h => ?_⟩
  · have hread := h (memcpyFrom (kernelMem emptyPortMsg fun _ => 0) 16 8) (by decide) 4 (by decide)
    revert hread
    decide
  · exact absurd h.2 (show ¬ (0 : Byte) ∈ List.replicate 32 49 by decide)

/-! ## The buffers that stay allocated -/

/-- The buffers a batch allocates, from message number `k` on. -/
def keptBuffers (kzalloc : Nat → Bool) : Nat → List (Nat × Nlmsghdr) → Nat
  | _, [] => 0
  | k, m :: ms =>
      (if netctrlNetlinkOk m.2.nlmsgType = 0 ∧ kzalloc k = true then 1 else 0) +
        keptBuffers kzalloc (k + 1) ms

theorem netctrlReceiveMsg_live (kzalloc : Bool) (mem : Nat → Byte) (s : NetctrlState)
    (h : Nlmsghdr) (nlh : Nat) :
    (netctrlReceiveMsg kzalloc mem s h nlh).1.live =
      s.live + if netctrlNetlinkOk h.nlmsgType = 0 ∧ kzalloc = true then 1 else 0 := by
  by_cases hok : netctrlNetlinkOk h.nlmsgType = 0
  · cases kzalloc with
    | false => simp [netctrlReceiveMsg, hok]
    | true => simp [netctrlReceiveMsg, hok]
  · simp [netctrlReceiveMsg, hok]

theorem live_foldl_handle (kzalloc : Nat → Bool) (mem : Nat → Byte) (ms : List (Nat × Nlmsghdr))
    (r : Received NetctrlState) :
    (ms.foldl (Received.handle fun k => netctrlReceiveMsg (kzalloc k) mem) r).st.live =
      r.st.live + keptBuffers kzalloc r.calls.length ms := by
  induction ms generalizing r with
  | nil => rfl
  | cons m ms ih =>
      rw [List.foldl_cons, ih]
      simp only [Received.handle, netctrlReceiveMsg_live, List.length_append,
        List.length_singleton, keptBuffers]
      omega

theorem keptBuffers_eq_zero (kzalloc : Nat → Bool) (k : Nat) (ms : List (Nat × Nlmsghdr)) :
    keptBuffers kzalloc k ms = 0 ↔ ∀ i m, ms[i]? = some m →
      netctrlNetlinkOk m.2.nlmsgType = 0 → kzalloc (k + i) = false := by
  induction ms generalizing k with
  | nil => exact ⟨fun _ i m => nofun, fun _ => rfl⟩
  | cons m ms ih =>
      rw [keptBuffers, Nat.add_eq_zero_iff, ih]
      constructor
      · rintro ⟨hfirst, hrest⟩ i m' hm' hok
        cases i with
        | zero =>
            obtain rfl : m = m' := Option.some.inj hm'
            cases hkz : kzalloc (k + 0) with
            | false => rfl
            | true => simp [hok, Nat.add_zero k ▸ hkz] at hfirst
        | succ i =>
            have h := hrest i m' hm' hok
            rwa [Nat.add_right_comm, Nat.add_assoc] at h
      · intro h
        refine ⟨if_neg fun hgo => ?_, fun i m' hm' hok => ?_⟩
        · have hfalse := h 0 m rfl hgo.1
          rw [Nat.add_zero, hgo.2] at hfalse
          cases hfalse
        · have hnext := h (i + 1) m' hm' hok
          rwa [← Nat.add_assoc, Nat.add_right_comm] at hnext

/-- `netctrl_receive_skb` returns on every skb below `2 ^ 30` bytes, with the
    maximal sequence of its valid messages handed over.  Where it returns, one
    buffer stays allocated for every accepted message that got one, so their number
    is what it was exactly if no accepted message of the batch got a buffer. -/
theorem buffers_balanced_iff (kzalloc : Nat → Bool) (after : Nat → Byte) (b : List Byte)
    (s : NetctrlState) :
    (b.length < 2 ^ 30 →
      ∃ os r, Chain b 0 os ∧ netctrlReceiveSkb kzalloc after b s = .ok r ∧
        r.calls = os.map (msgAt b)) ∧
    ∀ r, netctrlReceiveSkb kzalloc after b s = .ok r →
      r.st.live = s.live + keptBuffers kzalloc 0 r.calls ∧
      (r.st.live = s.live ↔ ∀ k m, r.calls[k]? = some m →
        netctrlNetlinkOk m.2.nlmsgType = 0 → kzalloc k = false) := by
  refine ⟨fun hb => netctrlReceiveSkb_returns kzalloc after hb s, fun r hr => ?_⟩
  have hfold := (receiveSkb_ok hr).1
  have hlive : r.st.live = s.live + keptBuffers kzalloc 0 r.calls := by
    rw [hfold, live_foldl_handle, ← hfold]
    rfl
  refine ⟨hlive, ?_⟩
  have hzero := keptBuffers_eq_zero kzalloc 0 r.calls
  simp only [Nat.zero_add] at hzero
  rw [hlive, ← hzero]
  omega

/-- No buffer is left when the only allocation fails. -/
theorem buffers_balanced_out_of_memory :
    ∃ r, netctrlReceiveSkb (fun _ => false) (fun _ => 0) (authIpMsg 1) ⟨[], 0⟩ = .ok r ∧
      r.st.live = 0 := by
  have h := buffers_balanced_iff (fun _ => false) (fun _ => 0) (authIpMsg 1) ⟨[], 0⟩
  obtain ⟨os, r, -, hr, -⟩ := h.1 (by decide)
  exact ⟨r, hr, (h.2 r hr).2.mpr fun _ _ _ _ => rfl⟩

/-- One accepted message leaves one buffer. -/
theorem buffers_leak_on_message :
    ∃ r, netctrlReceiveSkb (fun _ => true) (fun _ => 0) (authIpMsg 1) ⟨[], 0⟩ = .ok r ∧
      r.st.live = 1 ∧ r.st.live ≠ 0 := by
  refine ⟨_, netctrlReceiveSkb_single (by simp [nlmsgHdrlen]) (by simp) rfl (by decide) _ _, rfl, ?_⟩
  decide

end LinuxModules.Netctrl
