/-
  LinuxModules.Netctrl.Dispatch

  Which handler a message of netctrl.c runs, and on which bytes.

  `netctrl_netlink_ok` checks the type in the netlink header, `netctrl_proc_msg`
  dispatches on the type in the first two payload bytes, and nothing compares the
  two.  The copy that is dispatched on is four bytes longer than the payload, so
  for a short payload even the type comes from behind the message.
-/

import LinuxModules.Netctrl.Kernel

namespace LinuxModules.Netctrl

open LinuxModules.Lib LinuxModules.Net

/-- The command whose handler this is. -/
def AuthCall.type : AuthCall → NetctrlType
  | .netctrlAuthIp _ => .authIp
  | .netctrlAuthPort _ => .authPort
  | .netctrlAuthId _ => .authId

/-- The buffer `netctrl_receive_msg` passes to `netctrl_proc_msg`, if it gets
    there. -/
def procBuffer (kzalloc : Bool) (mem : Nat → Byte) (h : Nlmsghdr) (nlh : Nat) :
    Option (List Byte) :=
  if netctrlNetlinkOk h.nlmsgType = 0 ∧ kzalloc = true then
    some (memcpyFrom mem (nlh + nlmsgHdrlen) (datalen h).toNat)
  else none

/-- The handler run `netctrl_receive_msg` makes for a message. -/
def handlerRun (kzalloc : Bool) (mem : Nat → Byte) (h : Nlmsghdr) (nlh : Nat) :
    Option AuthCall :=
  (procBuffer kzalloc mem h nlh).bind fun buf => (netctrlProcMsg (some buf)).1

/-- The handler runs of a batch, from message number `k` on. -/
def handlerRuns (kzalloc : Nat → Bool) (mem : Nat → Byte) :
    Nat → List (Nat × Nlmsghdr) → List AuthCall
  | _, [] => []
  | k, m :: ms => (handlerRun (kzalloc k) mem m.2 m.1).toList ++ handlerRuns kzalloc mem (k + 1) ms

/-- The `msg_type` at the start of a message's payload, or of what is in memory
    there. -/
def innerType (mem : Nat → Byte) (nlh : Nat) : BitVec 16 :=
  BitVec.ofNat 16 (field 0 2 (memcpyFrom mem (nlh + nlmsgHdrlen) 2))

/-! ## The handlers a batch runs -/

theorem netctrlReceiveMsg_ran (kzalloc : Bool) (mem : Nat → Byte) (s : NetctrlState)
    (h : Nlmsghdr) (nlh : Nat) :
    (netctrlReceiveMsg kzalloc mem s h nlh).1.ran =
      s.ran ++ (handlerRun kzalloc mem h nlh).toList := by
  by_cases hok : netctrlNetlinkOk h.nlmsgType = 0
  · cases kzalloc with
    | false => simp [netctrlReceiveMsg, handlerRun, procBuffer, hok]
    | true => simp [netctrlReceiveMsg, handlerRun, procBuffer, hok]
  · simp [netctrlReceiveMsg, handlerRun, procBuffer, hok]

theorem ran_foldl_handle (kzalloc : Nat → Bool) (mem : Nat → Byte) (ms : List (Nat × Nlmsghdr))
    (r : Received NetctrlState) :
    (ms.foldl (Received.handle fun k => netctrlReceiveMsg (kzalloc k) mem) r).st.ran =
      r.st.ran ++ handlerRuns kzalloc mem r.calls.length ms := by
  induction ms generalizing r with
  | nil => simp [handlerRuns]
  | cons m ms ih =>
      -- the number of the message is the number of calls before it
      rw [List.foldl_cons, ih]
      simp only [Received.handle, netctrlReceiveMsg_ran, List.length_append,
        List.length_singleton, handlerRuns, List.append_assoc]

/-- A batch runs the handlers of its messages, in their order, and no others. -/
theorem netctrlReceiveSkb_ran {kzalloc : Nat → Bool} {after : Nat → Byte} {b : List Byte}
    {s : NetctrlState} {r : Received NetctrlState}
    (h : netctrlReceiveSkb kzalloc after b s = .ok r) :
    r.st.ran = s.ran ++ handlerRuns kzalloc (kernelMem b after) 0 r.calls := by
  have hfold := (receiveSkb_ok h).1
  rw [hfold, ran_foldl_handle, ← hfold]
  rfl

theorem netctrlReceiveSkb_returns (kzalloc : Nat → Bool) (after : Nat → Byte) {b : List Byte}
    (hb : b.length < 2 ^ 30) (s : NetctrlState) :
    ∃ os r, Chain b 0 os ∧ netctrlReceiveSkb kzalloc after b s = .ok r ∧
      r.calls = os.map (msgAt b) :=
  receiveSkb_returns _ hb s

/-- The walk hands over no message shorter than its header. -/
theorem netctrlReceiveSkb_len {kzalloc : Nat → Bool} {after : Nat → Byte} {b : List Byte}
    {s : NetctrlState} {r : Received NetctrlState}
    (h : netctrlReceiveSkb kzalloc after b s = .ok r) {k : Nat} {m : Nat × Nlmsghdr}
    (hm : r.calls[k]? = some m) : nlmsgHdrlen ≤ m.2.nlmsgLen.toNat :=
  ((receiveSkb_ok h).2 m (List.mem_of_getElem? hm)).2.2

/-! ## The validated and the executed command -/

theorem take_memcpyFrom (mem : Nat → Byte) (off : Nat) {k n : Nat} (h : k ≤ n) :
    (memcpyFrom mem off n).take k = memcpyFrom mem off k := by
  rw [memcpyFrom, ← List.map_take, List.take_range, min_eq_left h, memcpyFrom]

/-- `netctrl_proc_msg` runs the handler of the type at the start of its buffer. -/
theorem netctrlProcMsg_type (buf : List Byte) :
    (netctrlProcMsg (some buf)).1.map AuthCall.type =
      NetctrlType.ofMsgType (BitVec.ofNat 16 (field 0 2 buf)) := by
  simp only [netctrlProcMsg]
  rcases NetctrlType.ofMsgType (BitVec.ofNat 16 (field 0 2 buf)) with _ | (_ | _ | _) <;> rfl

/-- The dispatch of an accepted message goes by its inner type. -/
theorem handlerRun_type (mem : Nat → Byte) {h : Nlmsghdr} (nlh : Nat)
    (hok : netctrlNetlinkOk h.nlmsgType = 0) (hmin : nlmsgHdrlen ≤ h.nlmsgLen.toNat) :
    (handlerRun true mem h nlh).map AuthCall.type = NetctrlType.ofMsgType (innerType mem nlh) := by
  have hlen := datalen_toNat hmin
  -- the copy is at least four bytes long, so the type is read from it
  have hfield : field 0 2 (memcpyFrom mem (nlh + nlmsgHdrlen) (datalen h).toNat) =
      field 0 2 (memcpyFrom mem (nlh + nlmsgHdrlen) 2) := by
    rw [field, field, List.drop_zero, List.drop_zero, take_memcpyFrom _ _ (by omega),
      take_memcpyFrom _ _ (Nat.le_refl 2)]
  rw [handlerRun, procBuffer, if_pos ⟨hok, rfl⟩, Option.bind_some, netctrlProcMsg_type, hfield,
    innerType]

/-- The value of an enumerator. -/
def NetctrlType.code : NetctrlType → BitVec 16
  | .authIp => 1
  | .authPort => 2
  | .authId => 3

theorem NetctrlType.ofMsgType_eq_some {t : BitVec 16} {c : NetctrlType} :
    ofMsgType t = some c ↔ t = c.code := by
  constructor
  · intro h
    unfold ofMsgType at h
    split at h
    case isTrue h1 => cases h; exact h1
    case isFalse =>
      split at h
      case isTrue h2 => cases h; exact h2
      case isFalse =>
        split at h
        case isTrue h3 => cases h; exact h3
        case isFalse => cases h
  · rintro rfl
    cases c <;> rfl

theorem netctrlNetlinkOk_eq_zero {t : BitVec 16} :
    netctrlNetlinkOk t = 0 ↔ ∃ c, NetctrlType.ofMsgType t = some c := by
  unfold netctrlNetlinkOk
  rcases NetctrlType.ofMsgType t with _ | c
  · exact ⟨fun h => absurd h (by decide), fun ⟨c, hc⟩ => by cases hc⟩
  · exact ⟨fun _ => ⟨c, rfl⟩, fun _ => rfl⟩

/-- For every message of a batch: a handler that runs is that of the checked
    type, and an accepted message runs the handler of the checked type. -/
def ValidatedIsExecuted (kzalloc : Nat → Bool) (mem : Nat → Byte)
    (calls : List (Nat × Nlmsghdr)) : Prop :=
  ∀ k m, calls[k]? = some m →
    (∀ call, handlerRun (kzalloc k) mem m.2 m.1 = some call →
      NetctrlType.ofMsgType m.2.nlmsgType = some call.type) ∧
    (netctrlNetlinkOk m.2.nlmsgType = 0 → ∃ call,
      handlerRun (kzalloc k) mem m.2 m.1 = some call ∧
        NetctrlType.ofMsgType m.2.nlmsgType = some call.type)

/-- Every accepted message of a batch gets its buffer and carries the checked
    type as its inner type, too. -/
def TypesAgree (kzalloc : Nat → Bool) (mem : Nat → Byte) (calls : List (Nat × Nlmsghdr)) : Prop :=
  ∀ k m, calls[k]? = some m → netctrlNetlinkOk m.2.nlmsgType = 0 →
    kzalloc k = true ∧ innerType mem m.1 = m.2.nlmsgType

/-- One message. -/
theorem validatedIsExecuted_msg {kzalloc : Bool} {mem : Nat → Byte} {h : Nlmsghdr} {nlh : Nat}
    (hmin : nlmsgHdrlen ≤ h.nlmsgLen.toNat) :
    ((∀ call, handlerRun kzalloc mem h nlh = some call →
        NetctrlType.ofMsgType h.nlmsgType = some call.type) ∧
      (netctrlNetlinkOk h.nlmsgType = 0 → ∃ call, handlerRun kzalloc mem h nlh = some call ∧
        NetctrlType.ofMsgType h.nlmsgType = some call.type)) ↔
      (netctrlNetlinkOk h.nlmsgType = 0 → kzalloc = true ∧ innerType mem nlh = h.nlmsgType) := by
  by_cases hok : netctrlNetlinkOk h.nlmsgType = 0
  · obtain ⟨c, hc⟩ := netctrlNetlinkOk_eq_zero.mp hok
    simp only [hok, true_implies]
    cases kzalloc with
    | false =>
        -- the allocation failed: accepted, but nothing runs
        have hnone : handlerRun false mem h nlh = none := by simp [handlerRun, procBuffer]
        simp [hnone]
    | true =>
        have htype := handlerRun_type mem nlh hok hmin
        have houter : h.nlmsgType = c.code := NetctrlType.ofMsgType_eq_some.mp hc
        have hinner : innerType mem nlh = h.nlmsgType ↔
            NetctrlType.ofMsgType (innerType mem nlh) = some c := by
          rw [NetctrlType.ofMsgType_eq_some, houter]
        rw [hinner, ← htype, hc]
        constructor
        · rintro ⟨-, call, hcall, hsame⟩
          rw [hcall, Option.map_some, ← hsame]
          exact ⟨rfl, rfl⟩
        · rintro ⟨-, hmap⟩
          obtain ⟨call, hcall, hsame⟩ := Option.map_eq_some_iff.mp hmap
          refine ⟨fun call' hcall' => ?_, call, hcall, by rw [hsame]⟩
          obtain rfl : call = call' := Option.some.inj (hcall.symm.trans hcall')
          rw [hsame]
  · -- refused: nothing runs, and nothing is asked
    have hnone : handlerRun kzalloc mem h nlh = none := by simp [handlerRun, procBuffer, hok]
    simp [hnone, hok]

/-- `netctrl_receive_skb` returns on every skb below `2 ^ 30` bytes, with the
    maximal sequence of its valid messages handed over.  Where it returns, the
    handlers that ran are those of its messages, and the validated commands are the
    executed ones exactly when every accepted message gets its buffer and repeats
    its type in its first two payload bytes. -/
theorem validated_is_executed_iff (kzalloc : Nat → Bool) (after : Nat → Byte) (b : List Byte)
    (s : NetctrlState) :
    (b.length < 2 ^ 30 →
      ∃ os r, Chain b 0 os ∧ netctrlReceiveSkb kzalloc after b s = .ok r ∧
        r.calls = os.map (msgAt b)) ∧
    ∀ r, netctrlReceiveSkb kzalloc after b s = .ok r →
      r.st.ran = s.ran ++ handlerRuns kzalloc (kernelMem b after) 0 r.calls ∧
      (ValidatedIsExecuted kzalloc (kernelMem b after) r.calls ↔
        TypesAgree kzalloc (kernelMem b after) r.calls) := by
  refine ⟨fun hb => netctrlReceiveSkb_returns kzalloc after hb s, fun r hr =>
    ⟨netctrlReceiveSkb_ran hr, ?_⟩⟩
  constructor
  · intro h k m hm
    exact (validatedIsExecuted_msg (netctrlReceiveSkb_len hr hm)).mp (h k m hm)
  · intro h k m hm
    exact (validatedIsExecuted_msg (netctrlReceiveSkb_len hr hm)).mpr (h k m hm)

/-- A message checked as `NETCTRL_AUTH_IP`, with the given inner type. -/
def authIpMsg (inner : BitVec 16) : List Byte :=
  (Nlmsghdr.mk 24 1 0 0 7).toBytes ++ (leBytes 2 inner.toNat ++ leBytes 2 4 ++ leBytes 4 80)

theorem calls_authIpMsg (inner : BitVec 16) (after : Nat → Byte) :
    ∃ r, netctrlReceiveSkb (fun _ => true) after (authIpMsg inner) ⟨[], 0⟩ = .ok r ∧
      r.calls = [(0, Nlmsghdr.mk 24 1 0 0 7)] :=
  ⟨_, netctrlReceiveSkb_single (by simp [nlmsgHdrlen]) (by simp) rfl (by decide) after _, rfl⟩

theorem validated_is_executed_same_type :
    ∃ r, netctrlReceiveSkb (fun _ => true) (fun _ => 0) (authIpMsg 1) ⟨[], 0⟩ = .ok r ∧
      ValidatedIsExecuted (fun _ => true) (kernelMem (authIpMsg 1) fun _ => 0) r.calls := by
  obtain ⟨r, hr, hcalls⟩ := calls_authIpMsg 1 fun _ => 0
  refine ⟨r, hr, ((validated_is_executed_iff _ _ _ _).2 r hr).2.mpr ?_⟩
  intro k m hm hok
  rw [hcalls] at hm
  obtain rfl : m = (0, Nlmsghdr.mk 24 1 0 0 7) :=
    List.mem_singleton.mp (List.mem_of_getElem? hm)
  exact ⟨rfl, by decide⟩

/-- A message checked as `NETCTRL_AUTH_IP` runs the handler of
    `NETCTRL_AUTH_PORT`. -/
theorem validated_ip_executes_port :
    ∃ r, netctrlReceiveSkb (fun _ => true) (fun _ => 0) (authIpMsg 2) ⟨[], 0⟩ = .ok r ∧
      r.st.ran = [.netctrlAuthPort (some 80)] ∧
      ¬ ValidatedIsExecuted (fun _ => true) (kernelMem (authIpMsg 2) fun _ => 0) r.calls := by
  obtain ⟨r, hr, hcalls⟩ := calls_authIpMsg 2 fun _ => 0
  have hrun : handlerRun true (kernelMem (authIpMsg 2) fun _ => 0) (Nlmsghdr.mk 24 1 0 0 7) 0 =
      some (.netctrlAuthPort (some 80)) := by decide
  refine ⟨r, hr, ?_, fun h => ?_⟩
  · rw [netctrlReceiveSkb_ran hr, hcalls, handlerRuns, hrun]
    rfl
  · have htype := (h 0 _ (by rw [hcalls]; rfl)).1 _ hrun
    revert htype
    decide

/-! ## The bytes a handler gets -/

/-- The payload of the message at `nlh`: `nlmsg_len - 16` bytes from
    `NLMSG_DATA` on. -/
def payloadAt (mem : Nat → Byte) (h : Nlmsghdr) (nlh : Nat) : List Byte :=
  memcpyFrom mem (nlh + nlmsgHdrlen) (h.nlmsgLen.toNat - nlmsgHdrlen)

/-- `buf`, passed on for the message at `nlh`, is that message's payload and no
    more; wherever else the same message stands, and whatever is around it there,
    the same buffer is passed on and the same handler runs. -/
structure PassesPayload (mem : Nat → Byte) (h : Nlmsghdr) (nlh : Nat) (buf : List Byte) :
    Prop where
  eq_payload : buf = payloadAt mem h nlh
  inside : buf.length ≤ h.nlmsgLen.toNat - nlmsgHdrlen
  elsewhere : ∀ (mem' : Nat → Byte) (nlh' : Nat),
    (∀ i < h.nlmsgLen.toNat, mem' (nlh' + i) = mem (nlh + i)) →
      procBuffer true mem' h nlh' = some buf ∧
        handlerRun true mem' h nlh' = handlerRun true mem h nlh

/-- Every buffer passed on for a message of the batch is as it should be. -/
def PassesPayloads (kzalloc : Nat → Bool) (mem : Nat → Byte) (calls : List (Nat × Nlmsghdr)) :
    Prop :=
  ∀ k m buf, calls[k]? = some m → procBuffer (kzalloc k) mem m.2 m.1 = some buf →
    PassesPayload mem m.2 m.1 buf

theorem memcpyFrom_add (mem : Nat → Byte) (off n k : Nat) :
    memcpyFrom mem off (n + k) = memcpyFrom mem off n ++ memcpyFrom mem (off + n) k := by
  rw [memcpyFrom, List.range_add, List.map_append, List.map_map]
  congr 1
  apply List.map_congr_left
  intro i _
  show mem (off + (n + i)) = mem (off + n + i)
  rw [Nat.add_assoc]

@[simp] theorem length_memcpyFrom (mem : Nat → Byte) (off n : Nat) :
    (memcpyFrom mem off n).length = n := by
  rw [memcpyFrom, List.length_map, List.length_range]

/-- What is passed on is the payload and the four bytes behind the message. -/
theorem procBuffer_eq_some {kzalloc : Bool} (mem : Nat → Byte) {h : Nlmsghdr} (nlh : Nat)
    {buf : List Byte} (hmin : nlmsgHdrlen ≤ h.nlmsgLen.toNat) :
    procBuffer kzalloc mem h nlh = some buf ↔
      netctrlNetlinkOk h.nlmsgType = 0 ∧ kzalloc = true ∧
        buf = payloadAt mem h nlh ++ memcpyFrom mem (nlh + h.nlmsgLen.toNat) 4 := by
  have hend : nlh + nlmsgHdrlen + (h.nlmsgLen.toNat - nlmsgHdrlen) = nlh + h.nlmsgLen.toNat := by
    omega
  have hcopy : memcpyFrom mem (nlh + nlmsgHdrlen) (datalen h).toNat =
      payloadAt mem h nlh ++ memcpyFrom mem (nlh + h.nlmsgLen.toNat) 4 := by
    rw [datalen_toNat hmin, memcpyFrom_add, hend, payloadAt]
  rw [procBuffer, hcopy]
  split
  case isTrue hgo =>
    rw [Option.some.injEq]
    exact ⟨fun heq => ⟨hgo.1, hgo.2, heq.symm⟩, fun heq => heq.2.2.symm⟩
  case isFalse hstop =>
    constructor
    · intro hno
      cases hno
    · intro hgo
      exact absurd ⟨hgo.1, hgo.2.1⟩ hstop

/-- `netctrl_receive_skb` returns on every skb below `2 ^ 30` bytes, with the
    maximal sequence of its valid messages handed over.  Where it returns, it ran
    the handlers on the buffers passed on, and every such buffer is a payload
    followed by the four bytes behind it in memory.  So no buffer is the payload
    alone: the batch is handled as it should be exactly when none of its accepted
    messages gets a buffer at all. -/
theorem passes_payload_iff (kzalloc : Nat → Bool) (after : Nat → Byte) (b : List Byte)
    (s : NetctrlState) :
    (b.length < 2 ^ 30 →
      ∃ os r, Chain b 0 os ∧ netctrlReceiveSkb kzalloc after b s = .ok r ∧
        r.calls = os.map (msgAt b)) ∧
    ∀ r, netctrlReceiveSkb kzalloc after b s = .ok r →
      r.st.ran = s.ran ++ handlerRuns kzalloc (kernelMem b after) 0 r.calls ∧
      (∀ k m buf, r.calls[k]? = some m →
        procBuffer (kzalloc k) (kernelMem b after) m.2 m.1 = some buf →
        buf = payloadAt (kernelMem b after) m.2 m.1 ++
          memcpyFrom (kernelMem b after) (m.1 + m.2.nlmsgLen.toNat) 4) ∧
      (PassesPayloads kzalloc (kernelMem b after) r.calls ↔
        ∀ k m, r.calls[k]? = some m → netctrlNetlinkOk m.2.nlmsgType = 0 → kzalloc k = false) := by
  refine ⟨fun hb => netctrlReceiveSkb_returns kzalloc after hb s, fun r hr =>
    ⟨netctrlReceiveSkb_ran hr, ?_, ?_⟩⟩
  · intro k m buf hm hbuf
    exact ((procBuffer_eq_some _ _ (netctrlReceiveSkb_len hr hm)).mp hbuf).2.2
  · constructor
    · intro h k m hm hok
      by_contra hkz
      -- an accepted message with a buffer: four bytes too many
      have hbuf := (procBuffer_eq_some (kernelMem b after) m.1
        (netctrlReceiveSkb_len hr hm)).mpr ⟨hok, by simpa using hkz, rfl⟩
      have hinside := (h k m _ hm hbuf).inside
      rw [List.length_append, payloadAt, length_memcpyFrom, length_memcpyFrom] at hinside
      omega
    · intro h k m buf hm hbuf
      obtain ⟨hok, hkz, -⟩ := (procBuffer_eq_some _ _ (netctrlReceiveSkb_len hr hm)).mp hbuf
      rw [h k m hm hok] at hkz
      cases hkz

/-- A message of unknown type. -/
def unknownMsg : List Byte := (Nlmsghdr.mk 16 9 0 0 7).toBytes

theorem passes_payload_unknown_type :
    ∃ r, netctrlReceiveSkb (fun _ => true) (fun _ => 0) unknownMsg ⟨[], 0⟩ = .ok r ∧
      PassesPayloads (fun _ => true) (kernelMem unknownMsg fun _ => 0) r.calls := by
  have h := passes_payload_iff (fun _ => true) (fun _ => 0) unknownMsg ⟨[], 0⟩
  obtain ⟨os, r, -, hr, -⟩ := h.1 (by decide)
  refine ⟨r, hr, (h.2 r hr).2.2.mpr ?_⟩
  intro k m hm hok
  -- there is room for one message only, and its type is refused
  obtain ⟨hin, hmsg, -⟩ := (receiveSkb_ok hr).2 m (List.mem_of_getElem? hm)
  have hlen : unknownMsg.length = nlmsgHdrlen := by decide
  have hzero : m.1 = 0 := by omega
  rw [hmsg, hzero] at hok
  exact absurd hok (by decide)

/-- The eight payload bytes of a message are passed on with four bytes of the
    memory behind the skb. -/
theorem passes_payload_overrun :
    ∃ r, netctrlReceiveSkb (fun _ => true) (fun _ => 0xaa) (authIpMsg 1) ⟨[], 0⟩ = .ok r ∧
      procBuffer true (kernelMem (authIpMsg 1) fun _ => 0xaa) (Nlmsghdr.mk 24 1 0 0 7) 0 =
        some [1, 0, 4, 0, 80, 0, 0, 0, 0xaa, 0xaa, 0xaa, 0xaa] ∧
      ¬ PassesPayloads (fun _ => true) (kernelMem (authIpMsg 1) fun _ => 0xaa) r.calls := by
  obtain ⟨r, hr, hcalls⟩ := calls_authIpMsg 1 fun _ => 0xaa
  have hbuf : procBuffer true (kernelMem (authIpMsg 1) fun _ => 0xaa)
      (Nlmsghdr.mk 24 1 0 0 7) 0 = some [1, 0, 4, 0, 80, 0, 0, 0, 0xaa, 0xaa, 0xaa, 0xaa] := by
    decide
  refine ⟨r, hr, hbuf, fun h => ?_⟩
  have hinside := (h 0 _ _ (by rw [hcalls]; rfl) hbuf).inside
  revert hinside
  decide

end LinuxModules.Netctrl
