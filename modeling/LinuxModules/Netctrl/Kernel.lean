/-
  LinuxModules.Netctrl.Kernel

  netctrl.c, the kernel side of the command channel: `netctrl_receive_skb` and
  what it calls.

  A message carries its type twice: `nlmsg_type`, which `netctrl_netlink_ok`
  checks, and the `msg_type` of the `struct msg_buf` in its payload, which
  selects the handler.  `netctrl_receive_msg` copies four bytes more than the
  payload, so it reads memory behind the message and, for the last one, behind
  the skb; that memory is the parameter `after`.

  A handler only prints its argument, so what it does is recorded as the value
  it reads (`AuthCall`), with `none` for a read past the allocated copy.
-/

import LinuxModules.Lib.CString
import LinuxModules.Net.Nlmsg

namespace LinuxModules.Netctrl

open LinuxModules.Lib LinuxModules.Net

/-- `enum NETCTRL_TYPE` of netctrl.h. -/
inductive NetctrlType where
  | authIp
  | authPort
  | authId
deriving DecidableEq, Repr

/-- The enumerator a message type equals, if any. -/
def NetctrlType.ofMsgType (t : BitVec 16) : Option NetctrlType :=
  if t = 1 then some .authIp
  else if t = 2 then some .authPort
  else if t = 3 then some .authId
  else none

/-- A run of one of the three handlers, with the value it reads. -/
inductive AuthCall where
  | netctrlAuthIp (ip : Option (List Byte))
  | netctrlAuthPort (port : Option (BitVec 32))
  | netctrlAuthId (id : Option (BitVec 32))
deriving DecidableEq

/-- The handlers run so far, and the number of `kzalloc`ed buffers not freed. -/
structure NetctrlState where
  ran : List AuthCall
  live : Nat
deriving DecidableEq

/-- `-ENOMEM` -/
def negEnomem : Int := -12

/-- `NLMSG_ALIGNTO` -/
def nlmsgAlignto : Nat := 4

/-- The size of `struct msg_buf`: `msg_type` and `msg_len`, two bytes each. -/
def msgBufSize : Nat := 4

/-- An `int` read at the start of `data`, if it lies inside the buffer. -/
def readInt (data : List Byte) : Option (BitVec 32) :=
  if 4 ≤ data.length then some (BitVec.ofNat 32 (field 0 4 data)) else none

def netctrlAuthIp (data : List Byte) : AuthCall × Int := (.netctrlAuthIp (cstr? data), 0)

def netctrlAuthPort (data : List Byte) : AuthCall × Int := (.netctrlAuthPort (readInt data), 0)

def netctrlAuthId (data : List Byte) : AuthCall × Int := (.netctrlAuthId (readInt data), 0)

/-- `netctrl_proc_msg`: the handler it runs, if any, and what it returns; `none`
    is the NULL pointer. -/
def netctrlProcMsg (buf : Option (List Byte)) : Option AuthCall × Int :=
  match buf with
  | none => (none, -1)
  | some buf =>
      let data := buf.drop msgBufSize
      match NetctrlType.ofMsgType (BitVec.ofNat 16 (field 0 2 buf)) with
      | some .authIp => (some (netctrlAuthIp data).1, (netctrlAuthIp data).2)
      | some .authPort => (some (netctrlAuthPort data).1, (netctrlAuthPort data).2)
      -- no `break`: control falls into the empty default
      | some .authId => (some (netctrlAuthId data).1, (netctrlAuthId data).2)
      | none => (none, 0)

/-- `netctrl_netlink_ok` -/
def netctrlNetlinkOk (msgType : BitVec 16) : Int :=
  match NetctrlType.ofMsgType msgType with
  | some _ => 0
  | none => negEinval

/-- `datalen` of `netctrl_receive_msg`.  The walk only passes on lengths below
    `2 ^ 31`, so the `int` is not negative. -/
def datalen (h : Nlmsghdr) : BitVec 32 :=
  h.nlmsgLen - BitVec.ofNat 32 (nlmsgSpace 0) + BitVec.ofNat 32 nlmsgAlignto

/-- Kernel memory from `skb->data` on: the skb, then whatever is behind it. -/
def kernelMem (b : List Byte) (after : Nat → Byte) (i : Nat) : Byte :=
  if h : i < b.length then b.get ⟨i, h⟩ else after (i - b.length)

/-- `memcpy` of `n` bytes out of kernel memory. -/
def memcpyFrom (mem : Nat → Byte) (off n : Nat) : List Byte :=
  (List.range n).map fun i => mem (off + i)

/-- `netctrl_receive_msg` on the message at `nlh`; `kzalloc` says whether the
    allocation succeeds.  The copy is not freed, and the result of
    `netctrl_proc_msg` is dropped. -/
def netctrlReceiveMsg (kzalloc : Bool) (mem : Nat → Byte) (s : NetctrlState) (h : Nlmsghdr)
    (nlh : Nat) : NetctrlState × Int :=
  let err := netctrlNetlinkOk h.nlmsgType
  if err ≠ 0 then (s, err)
  else if kzalloc then
    let data := memcpyFrom mem (nlh + nlmsgHdrlen) (datalen h).toNat
    let res := netctrlProcMsg (some data)
    ({ ran := s.ran ++ res.1.toList, live := s.live + 1 }, 0)
  else (s, negEnomem)

/-- `netctrl_receive_skb`; `kzalloc k` is the outcome for message `k`. -/
def netctrlReceiveSkb (kzalloc : Nat → Bool) (after : Nat → Byte) (b : List Byte) (s : NetctrlState) :
    Except Fault (Received NetctrlState) :=
  receiveSkb (fun k => netctrlReceiveMsg (kzalloc k) (kernelMem b after)) b s

/-! ## The copy of a message -/

/-- A copy that starts inside the skb is the rest of the skb, then the memory
    behind it. -/
theorem memcpyFrom_kernelMem (b : List Byte) (after : Nat → Byte) {off : Nat}
    (h : off ≤ b.length) (n : Nat) :
    memcpyFrom (kernelMem b after) off (b.length - off + n) =
      b.drop off ++ (List.range n).map after := by
  rw [memcpyFrom, List.range_add, List.map_append]
  congr 1
  · -- the bytes before the end of the skb
    apply List.ext_getElem
    · simp
    · intro i hi hi'
      have hlt : off + i < b.length := by
        rw [List.length_map, List.length_range] at hi
        omega
      simp [kernelMem, hlt]
  · -- the bytes behind it
    rw [List.map_map]
    apply List.map_congr_left
    intro i _
    have hge : ¬ off + (b.length - off + i) < b.length := by omega
    have hsub : off + (b.length - off + i) - b.length = i := by omega
    simp only [Function.comp_apply, kernelMem, hge, dif_neg, not_false_eq_true, hsub]

/-- The copy is four bytes longer than the payload. -/
theorem datalen_toNat {h : Nlmsghdr} (hmin : nlmsgHdrlen ≤ h.nlmsgLen.toNat) :
    (datalen h).toNat = h.nlmsgLen.toNat - nlmsgHdrlen + 4 := by
  have hlt := h.nlmsgLen.isLt
  have hspace : nlmsgSpace 0 = 16 := rfl
  have hhdr : nlmsgHdrlen = 16 := rfl
  simp only [datalen, hspace, nlmsgAlignto, BitVec.toNat_add, BitVec.toNat_sub, BitVec.toNat_ofNat]
  omega

/-! ## One message in an skb -/

/-- An skb that is one accepted message without padding: it is handed over once
    and the handler gets its payload, followed by four bytes of the memory behind
    the skb. -/
theorem netctrlReceiveSkb_single {hdr : Nlmsghdr} {payload : List Byte}
    (hlen : hdr.nlmsgLen.toNat = nlmsgHdrlen + payload.length) (hshort : payload.length < 2 ^ 29)
    (hok : netctrlNetlinkOk hdr.nlmsgType = 0) (hack : hdr.wantsAck = false)
    (after : Nat → Byte) (s : NetctrlState) :
    netctrlReceiveSkb (fun _ => true) after (hdr.toBytes ++ payload) s =
      .ok {
        st := {
          ran := s.ran ++
            (netctrlProcMsg (some (payload ++ (List.range 4).map after))).1.toList
          live := s.live + 1 }
        calls := [(0, hdr)]
        acks := [] } := by
  have hhdr : nlmsgHdrlen = 16 := rfl
  set b := hdr.toBytes ++ payload with hb
  have hblen : b.length = nlmsgHdrlen + payload.length := by
    rw [hb, List.length_append, Nlmsghdr.length_toBytes]
  have hfield : field 0 4 b = nlmsgHdrlen + payload.length := by
    rw [hb, field_len_toBytes, hlen]
  -- the walk stops after this message: the next offset is not before the end
  have hchain : Chain b 0 [0] := by
    refine .next ⟨by omega, by omega, by omega⟩ (.stop ?_)
    rintro ⟨hroom, -, -⟩
    have hle := le_align4 (field 0 4 b)
    omega
  have hbshort : b.length < 2 ^ 30 := by omega
  have hcopy : memcpyFrom (kernelMem b after) (0 + nlmsgHdrlen) (datalen hdr).toNat =
      payload ++ (List.range 4).map after := by
    have hn : (datalen hdr).toNat = b.length - nlmsgHdrlen + 4 := by
      rw [datalen_toNat (by omega), hlen, hblen]
    rw [Nat.zero_add, hn, memcpyFrom_kernelMem b after (by omega), hb,
      List.drop_left' (Nlmsghdr.length_toBytes _)]
  have hmsg : msgAt b 0 = (0, hdr) := by
    rw [msgAt, List.drop_zero, hb, Nlmsghdr.ofBytes_toBytes]
  rw [netctrlReceiveSkb, receiveSkb_eq _ hbshort hchain]
  simp only [List.map_cons, List.map_nil, hmsg, List.foldl_cons, List.foldl_nil,
    Received.handle, netctrlReceiveMsg, hok, hcopy, hack, ne_eq, not_true, if_false, if_true,
    Bool.false_eq_true, or_self, List.nil_append]

end LinuxModules.Netctrl
