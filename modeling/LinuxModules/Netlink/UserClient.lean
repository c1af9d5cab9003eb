/-
  LinuxModules.Netlink.UserClient

  user_client.c, the listener of netlink.c: `send_to_kernel` registers it and
  leaves the buffer and the `iov` that `recv_from_kernel` then receives into.

  The kernel side pads a captured packet to a multiple of 4 and makes the skb
  that long; the client receives at most `NLMSG_SPACE(MAX_PAYLOAD)` bytes and
  takes the packet's length from what `recvmsg` returned.
-/

import LinuxModules.Lib.CString
import LinuxModules.Netlink.Capture

namespace LinuxModules.Netlink

open LinuxModules.Lib LinuxModules.Net

/-- `MAX_PAYLOAD` -/
def maxPayload : Nat := 1600

/-- The globals of user_client.c: the buffer `nlh` points to and `iov.iov_len`. -/
structure Client where
  nlh : List Byte
  iovLen : Nat

/-- `send_to_kernel`: the whole buffer is sent.  `malloc` does not clear it, and
    `nlmsg_seq` is not set. -/
def sendToKernel (getpid : BitVec 32) (data : List Byte) (len : Nat) (msgType : BitVec 16)
    (stale : Nat → Byte) : Client :=
  let hdr := leBytes 4 (nlmsgSpace maxPayload) ++ (leBytes 2 msgType.toNat ++ (leBytes 2 0 ++
    ((List.range 4).map (fun i => stale (8 + i)) ++ leBytes 4 getpid.toNat)))
  let mem := (List.range (nlmsgSpace maxPayload - nlmsgHdrlen)).map fun i =>
    stale (nlmsgHdrlen + i)
  { nlh := hdr ++ overwrite 0 (strncpy len data) mem, iovLen := nlmsgSpace maxPayload }

/-- `recv_from_kernel`: clear the buffer, receive into it, and report the length
    without the header. -/
def recvFromKernel (c : Client) (skb : List Byte) : Client × Int :=
  let len := min skb.length c.iovLen
  ({ c with nlh := overwrite 0 (skb.take len) (List.replicate (nlmsgSpace maxPayload) 0) },
    (len : Int) - nlmsgHdrlen)

/-- The reported length and the first bytes at `NLMSG_DATA(nlh)` are the packet's. -/
def Recovers (r : Client × Int) (packet : List Byte) : Prop :=
  r.2 = packet.length ∧ (r.1.nlh.drop nlmsgHdrlen).take packet.length = packet

/-- Receiving a padded message recovers its payload exactly when there is no
    padding and the message fits in the receive buffer. -/
theorem recovers_wireMsg_iff {c : Client} (hiov : c.iovLen = nlmsgSpace maxPayload)
    (len : Nat) (portid seq : BitVec 32) (msgType flags : BitVec 16) (packet : List Byte) :
    Recovers (recvFromKernel c (wireMsg len portid seq msgType flags packet)) packet ↔
      packet.length % 4 = 0 ∧ packet.length ≤ maxPayload := by
  have hspace : nlmsgSpace maxPayload = 1616 := by decide
  have hhdr : nlmsgHdrlen = 16 := rfl
  have hmax : maxPayload = 1600 := rfl
  have hsize : nlmsgTotalSize packet.length = (16 + packet.length + 3) / 4 * 4 := rfl
  have htotal := length_wireMsg len portid seq msgType flags packet
  constructor
  · -- the reported length is the padded one, cut at the size of the buffer
    rintro ⟨hlen, -⟩
    simp only [recvFromKernel, htotal, hiov, hspace] at hlen
    omega
  · rintro ⟨hmod, hle⟩
    have hexact : nlmsgTotalSize packet.length = nlmsgHdrlen + packet.length := by omega
    have hpad : padLen (nlmsgHdrlen + packet.length) = 0 :=
      show nlmsgTotalSize packet.length - (nlmsgHdrlen + packet.length) = 0 by omega
    have hmin : min (nlmsgTotalSize packet.length) (nlmsgSpace maxPayload) =
        nlmsgHdrlen + packet.length := by
      rw [hexact, hspace]
      omega
    refine ⟨?_, ?_⟩
    · simp only [recvFromKernel, htotal, hiov, hmin]
      omega
    · -- the message is received whole, to the start of the cleared buffer
      simp only [recvFromKernel, htotal, hiov, hmin]
      have hwhole : (wireMsg len portid seq msgType flags packet).take
          (nlmsgHdrlen + packet.length) = wireMsg len portid seq msgType flags packet :=
        List.take_of_length_le (by rw [htotal, hexact])
      rw [hwhole, overwrite, List.take_zero, List.nil_append, wireMsg, hpad,
        List.replicate_zero, List.append_nil, List.append_assoc,
        List.drop_left' (Nlmsghdr.length_toBytes _), List.take_left]

/-- The capture round trip: the client recovers a packet that the queueing hook
    enqueued exactly when its length is a multiple of 4 and at most
    `MAX_PAYLOAD`. -/
theorem client_recovers_iff {packet : List Byte} {g g' : Cap} {env : HookEnv} {m : SkBuff}
    (hq : hookFuncQueue packet env g = .ok g') (hm : g'.capSkbQueue = g.capSkbQueue ++ [m])
    (getpid : BitVec 32) (hello : List Byte) (helloLen : Nat) (msgType : BitVec 16)
    (stale : Nat → Byte) :
    Recovers (recvFromKernel (sendToKernel getpid hello helloLen msgType stale) m.data) packet ↔
      packet.length % 4 = 0 ∧ packet.length ≤ maxPayload := by
  rw [hookFuncQueue_enqueued hq hm]
  exact recovers_wireMsg_iff rfl _ _ _ _ _ _

theorem client_recovers_twelve_bytes : ∃ g' m,
    hookFuncQueue (List.replicate 12 1) calmEnv (capListening 7) = .ok g' ∧
      g'.capSkbQueue = [m] ∧
      Recovers (recvFromKernel (sendToKernel 7 [104, 105, 0] 3 0 fun _ => 0xee) m.data)
        (List.replicate 12 1) := by
  obtain ⟨g', m, hq, hm⟩ : ∃ g' m,
      hookFuncQueue (List.replicate 12 1) calmEnv (capListening 7) = .ok g' ∧
      g'.capSkbQueue = [m] := ⟨_, _, rfl, rfl⟩
  exact ⟨g', m, hq, hm, (client_recovers_iff hq hm _ _ _ _ _).mpr (by decide)⟩

/-- A 13-byte packet is reported as 16 bytes long. -/
theorem client_misreads_thirteen_bytes : ∃ g' m,
    hookFuncQueue (List.replicate 13 1) calmEnv (capListening 7) = .ok g' ∧
      g'.capSkbQueue = [m] ∧
      ¬ Recovers (recvFromKernel (sendToKernel 7 [104, 105, 0] 3 0 fun _ => 0xee) m.data)
        (List.replicate 13 1) ∧
      (recvFromKernel (sendToKernel 7 [104, 105, 0] 3 0 fun _ => 0xee) m.data).2 = 16 := by
  refine ⟨_, _, rfl, rfl, fun h => ?_, by decide⟩
  have hlen := h.1
  revert hlen
  decide

end LinuxModules.Netlink
