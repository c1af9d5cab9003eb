/-
  LinuxModules.Netlink.Loopback

  `cap_receive` on the system of `System`: the walk of `Net.Nlmsg` with the
  handling of one client message as its body.

  Two kinds of skb reach it, and in both one message fills the skb
  (`capReceive_whole`): what user_client.c sends, and a captured packet that kcapd
  sends while `cap_nlk_portid` is 0.  Portid 0 is the module's own socket, so
  `netlink_unicast` then calls `cap_receive` on the packet.  Its type `NLMSG_DONE`
  is the number of `CAP_GET_PACKET`, and it changes nothing
  (`Looping.capReceive_enqueued`).
-/

import LinuxModules.Netlink.Delivery
import LinuxModules.Netlink.UserClient

namespace LinuxModules.Netlink

open LinuxModules.Lib LinuxModules.Net

/-- `cap_receive`: `cap_receive_skb` under the mutex, with the kcapd threads that
    its messages start. -/
def capReceive (kt : Nat → KthreadRun) (b : List Byte) (s : Sys) : Except Fault (Received Sys) :=
  receiveSkb (fun k s h _ =>
    (sysStep s (.client (kt k) h), (capReceiveMsg (kt k) s.g.ctl h).err)) b s

/-! ## An skb that is one message -/

theorem capReceive_whole (kt : Nat → KthreadRun) {b : List Byte} (hmin : nlmsgHdrlen ≤ b.length)
    (hlen : field 0 4 b = b.length) (hshort : b.length < 2 ^ 30) (s : Sys) :
    let h := Nlmsghdr.ofBytes b
    let err := (capReceiveMsg (kt 0) s.g.ctl h).err
    capReceive kt b s = .ok
      { st := sysStep s (.client (kt 0) h)
        calls := [(0, h)]
        acks := if err ≠ 0 ∨ h.wantsAck then [(h, err)] else [] } := by
  rw [capReceive, receiveSkb_eq _ hshort (chain_whole hmin hlen)]
  rfl

/-! ## What user_client.c sends -/

/-- `CAP_ADD`, `CAP_DEL` and `CAP_GET_PACKET` as user_client.c numbers them: its
    enumeration has no `CAP_PACKET`. -/
inductive UserType where
  | capAdd
  | capDel
  | capGetPacket
deriving DecidableEq

def UserType.msgType : UserType → BitVec 16
  | .capAdd => 0
  | .capDel => 1
  | .capGetPacket => 2

/-- The header of a message of `send_to_kernel`; `seq` is what `malloc` left there. -/
def userHdr (pid seq : BitVec 32) (t : UserType) : Nlmsghdr where
  nlmsgLen := BitVec.ofNat 32 (nlmsgSpace maxPayload)
  nlmsgType := t.msgType
  nlmsgFlags := 0
  nlmsgSeq := seq
  nlmsgPid := pid

/-- What `send_to_kernel` sends is one header and its payload area, which starts with
    the text. -/
theorem sendToKernel_nlh (pid : BitVec 32) (data : List Byte) {len : Nat} (hlen : len ≤ maxPayload)
    (t : UserType) (stale : Nat → Byte) : ∃ seq payload,
      (sendToKernel pid data len t.msgType stale).nlh = (userHdr pid seq t).toBytes ++ payload ∧
      payload.length = maxPayload ∧ ∃ rest, payload = strncpy len data ++ rest := by
  obtain ⟨old, hold, holdlen⟩ : ∃ old, old = (List.range 4).map (fun i => stale (8 + i)) ∧
      old.length = 4 := ⟨_, rfl, by simp⟩
  obtain ⟨mem, hmem, hmemlen⟩ : ∃ mem, mem = (List.range (nlmsgSpace maxPayload - nlmsgHdrlen)).map
      (fun i => stale (nlmsgHdrlen + i)) ∧ mem.length = maxPayload := ⟨_, rfl, by simp; decide⟩
  have hlt : leNat old < 2 ^ 32 := by
    have h := leNat_lt old
    rw [holdlen] at h
    omega
  refine ⟨BitVec.ofNat 32 (leNat old), overwrite 0 (strncpy len data) mem, ?_, ?_,
    mem.drop (0 + (strncpy len data).length), rfl⟩
  · -- the bytes of the old `nlmsg_seq` are those of the number they encode
    have hseq : leBytes 4 (BitVec.ofNat 32 (leNat old)).toNat = old := by
      rw [BitVec.toNat_ofNat, Nat.mod_eq_of_lt hlt]
      nth_rewrite 1 [← holdlen]
      exact leBytes_leNat old
    simp only [sendToKernel, ← hold, ← hmem, userHdr, Nlmsghdr.toBytes, hseq, List.append_assoc]
    rfl
  · rw [length_overwrite, hmemlen]
    rw [length_strncpy, hmemlen]
    omega

/-- A message of user_client.c is handed over alone, and acknowledged only with an
    error. -/
theorem capReceive_user (kt : Nat → KthreadRun) (pid : BitVec 32) (data : List Byte) {len : Nat}
    (hlen : len ≤ maxPayload) (t : UserType) (stale : Nat → Byte) (s : Sys) : ∃ seq,
      let h := userHdr pid seq t
      let err := (capReceiveMsg (kt 0) s.g.ctl h).err
      capReceive kt (sendToKernel pid data len t.msgType stale).nlh s = .ok
        { st := sysStep s (.client (kt 0) h)
          calls := [(0, h)]
          acks := if err ≠ 0 then [(h, err)] else [] } := by
  obtain ⟨seq, payload, hnlh, hpay, -⟩ := sendToKernel_nlh pid data hlen t stale
  have hlength : ((userHdr pid seq t).toBytes ++ payload).length = 1616 := by
    rw [List.length_append, Nlmsghdr.length_toBytes, hpay]
    rfl
  have hfield : field 0 4 ((userHdr pid seq t).toBytes ++ payload) = 1616 := field_len_toBytes _ _
  have hack : (userHdr pid seq t).wantsAck = false := by simp [Nlmsghdr.wantsAck, userHdr]
  have hwhole := capReceive_whole kt (b := (userHdr pid seq t).toBytes ++ payload)
    (by rw [hlength]; decide) (hfield.trans hlength.symm) (by rw [hlength]; decide) s
  simp only [Nlmsghdr.ofBytes_toBytes, hack, Bool.false_eq_true, or_false] at hwhole
  exact ⟨seq, by rw [hnlh]; exact hwhole⟩

/-! ## Captured packets -/

/-- An IPv4 packet: its `tot_len` is a 16-bit field. -/
abbrev Ipv4Packet := { packet : List Byte // packet.length < 2 ^ 16 }

/-- Every message an execution will queue, and every packet it still has to copy,
    is an IPv4 packet's. -/
def HookPc.Copies : HookPc → Prop
  | .entered packet => packet.length < 2 ^ 16
  | .popping packet => packet.length < 2 ^ 16
  | .mallocing packet => packet.length < 2 ^ 16
  | .filling packet _ => packet.length < 2 ^ 16
  | .checking cb => ∀ skb ∈ cb.skb, ∃ portid, ∃ packet : Ipv4Packet,
      skb.data = capturedMsg portid nlmsgDone packet
  | .queueing cb => ∀ skb ∈ cb.skb, ∃ portid, ∃ packet : Ipv4Packet,
      skb.data = capturedMsg portid nlmsgDone packet
  | .freeing _ => True
  | .oopsed => True

/-- The skb is the message of a captured IPv4 packet. -/
def Carries (skb : SkBuff) : Prop :=
  ∃ portid, ∃ packet : Ipv4Packet, skb.data = queuedMsg portid packet

theorem HookPc.Copies.enqueues {pc : HookPc} (hpc : pc.Copies) :
    ∀ skb ∈ pc.enqueues, Carries skb := by
  cases pc with
  | queueing cb =>
      intro skb hskb
      obtain ⟨old, hold, rfl⟩ := Option.mem_map.mp (Option.mem_toList.mp hskb)
      obtain ⟨portid, packet, hdata⟩ := hpc old hold
      exact ⟨portid, packet, setNlmsgLen_data hdata⟩
  | _ =>
      intro skb hskb
      cases hskb

theorem HookPc.Copies.hookStep {env : HookEnv} {g : Cap} {pc pc' : HookPc} (hpc : pc.Copies)
    (h : (hookStep env g pc).2 = some pc') : pc'.Copies := by
  have hmove := hookStep_moves env g pc
  generalize Netlink.hookStep env g pc = r at hmove h
  cases hmove with
  | build packet cb hdata _ _ =>
      cases h
      intro skb hskb
      cases hskb
      exact ⟨_, ⟨packet, hpc⟩, hdata⟩
  | pass packet => cases h
  | refuse cb _ => cases h
  | kfree cb _ => cases h
  | put cb _ => cases h
  | noSkb packet cb =>
      cases h
      trivial
  | noRoom packet cb skb =>
      cases h
      trivial
  | queueNone cb _ =>
      cases h
      trivial
  | queue cb _ =>
      cases h
      trivial
  | oops packet =>
      cases h
      trivial
  | _ =>
      cases h
      exact hpc

/-- The invariant of a system whose hooks see IPv4 packets. -/
structure Looping (s : Sys) : Prop where
  queued : Queued s
  copies : ∀ pc ∈ s.hooks, pc.Copies
  carries : ∀ skb ∈ s.enqueued, Carries skb

theorem looping_sysStart (rate : RateState) : Looping (sysStart rate) :=
  ⟨queued_sysStart rate, by simp [sysStart], by simp [sysStart]⟩

/-- The packet of an event is an IPv4 packet. -/
def Ipv4Event : SysEvent → Prop
  | .hookEnter packet => packet.length < 2 ^ 16
  | .client _ _ => True
  | .hook _ _ => True
  | .kcapd _ _ => True

theorem looping_sysStep {s : Sys} {e : SysEvent} (he : Ipv4Event e) (hs : Looping s) :
    Looping (sysStep s e) := by
  have hqueued := queued_sysStep e hs.queued
  cases e with
  | client kt h => exact ⟨hqueued, hs.copies, hs.carries⟩
  | hookEnter packet =>
      refine ⟨hqueued, fun pc hpc => ?_, hs.carries⟩
      rcases List.mem_append.mp hpc with hold | hnew
      · exact hs.copies pc hold
      · obtain rfl := List.mem_singleton.mp hnew
        exact he
  | hook i env =>
      cases hpc : s.hooks[i]? with
      | none => simpa only [sysStep, hpc] using hs
      | some pc =>
          have hcopies := hs.copies pc (List.mem_of_getElem? hpc)
          refine ⟨hqueued, ?_, ?_⟩
          · simp only [sysStep, hpc]
            intro pc' hmem
            rcases mem_putHook hmem with hold | hnew
            · exact hs.copies pc' hold
            · exact hcopies.hookStep hnew
          · simp only [sysStep, hpc]
            intro skb hskb
            rcases List.mem_append.mp hskb with hold | hnew
            · exact hs.carries skb hold
            · exact hcopies.enqueues skb hnew
  | kcapd i err =>
      refine ⟨hqueued, ?_, ?_⟩
      · simp only [sysStep]
        split <;> exact hs.copies
      · simp only [sysStep]
        split <;> exact hs.carries

/-! ## A captured packet at the module's own socket -/

/-- `CAP_GET_PACKET` leaves the system alone once kcapd runs. -/
theorem sysStep_client_get {s : Sys} (hs : Queued s) (hrun : s.kcapd ≠ []) (kt : KthreadRun)
    {h : Nlmsghdr} (htype : h.nlmsgType = nlmsgDone) :
    sysStep s (.client kt h) = s ∧ (capReceiveMsg kt s.g.ctl h).err = 0 := by
  obtain ⟨t, ht⟩ : ∃ t, s.g.ctl.kcapdTask = some t :=
    Option.ne_none_iff_exists'.mp fun hnone => hrun (hs.task_iff.mp hnone)
  have hmsg : capReceiveMsg kt s.g.ctl h = { ctl := s.g.ctl, err := 0, started := [] } := by
    simp [capReceiveMsg, capNetlinkOk, capSwitch, CapType.ofMsgType, htype, nlmsgDone, ht]
  refine ⟨?_, by rw [hmsg]⟩
  simp only [sysStep, hmsg, List.map_nil, List.append_nil]

/-- What kcapd holds or has queued is, for `cap_receive`, one `CAP_GET_PACKET`:
    nothing changes and nothing is acknowledged. -/
theorem Looping.capReceive_enqueued {s : Sys} (hs : Looping s) (hrun : s.kcapd ≠ [])
    {skb : SkBuff} (hskb : skb ∈ s.enqueued) (kt : Nat → KthreadRun) :
    capReceive kt skb.data s = .ok ⟨s, [(0, .ofBytes skb.data)], []⟩ ∧
      CapType.ofMsgType (Nlmsghdr.ofBytes skb.data).nlmsgType = some .capGetPacket := by
  obtain ⟨portid, ⟨packet, hshort⟩, hdata⟩ := hs.carries skb hskb
  have hsize : nlmsgTotalSize packet.length = (16 + packet.length + 3) / 4 * 4 := rfl
  have hlength : skb.data.length = nlmsgTotalSize packet.length := by
    rw [hdata, queuedMsg, length_wireMsg]
  have hhdr : Nlmsghdr.ofBytes skb.data =
      ⟨BitVec.ofNat 32 (nlmsgTotalSize packet.length), nlmsgDone, 0, 0, portid⟩ := by
    rw [hdata, queuedMsg, wireMsg, Nlmsghdr.ofBytes_toBytes]
  have hfield : field 0 4 skb.data = skb.data.length := by
    rw [hlength, hdata, queuedMsg, wireMsg, field_len_toBytes, BitVec.toNat_ofNat]
    exact Nat.mod_eq_of_lt (show nlmsgTotalSize packet.length < 2 ^ 32 by omega)
  have hmin : nlmsgHdrlen ≤ skb.data.length := by
    rw [hlength, hsize, nlmsgHdrlen]
    omega
  have hwhole := capReceive_whole kt hmin hfield (by omega) s
  obtain ⟨hsame, herr⟩ := sysStep_client_get hs.queued hrun (kt 0)
    (h := Nlmsghdr.ofBytes skb.data) (by rw [hhdr])
  have hack : (Nlmsghdr.ofBytes skb.data).wantsAck = false := by simp [hhdr, Nlmsghdr.wantsAck]
  refine ⟨?_, by rw [hhdr]; rfl⟩
  simpa only [hsame, herr, hack, ne_eq, not_true, Bool.false_eq_true, or_self, if_false]
    using hwhole

end LinuxModules.Netlink
