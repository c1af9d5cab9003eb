/-
  LinuxModules.Netlink.Fragments

  Packets of which a part is in page fragments.  `skb->len` counts all bytes of a
  packet, `skb->data` points to the linear ones only, and both capture encoders
  copy `skb->len` bytes from `skb->data`.

  `Capture` takes the bytes that the `memcpy` gets as they come; here they are
  read out of the memory at `skb->data`, and the indices a hook reads are
  recorded.
-/

import LinuxModules.Netctrl.Kernel
import LinuxModules.Netlink.DirectHook
import LinuxModules.Netlink.Ownership

namespace LinuxModules.Netlink

open LinuxModules.Lib LinuxModules.Net
open LinuxModules.Netctrl (kernelMem memcpyFrom memcpyFrom_kernelMem)

/-- The bytes of a packet the hooks print. -/
def loggedBytes : Nat := 12

/-- An outgoing `sk_buff`: the linear area and what is in page fragments.  The
    log needs twelve linear bytes. -/
structure Packet where
  linear : List Byte
  frags : List Byte
  logged : loggedBytes ≤ linear.length

namespace Packet

/-- `skb->len` -/
def len (p : Packet) : Nat := p.linear.length + p.frags.length

def bytes (p : Packet) : List Byte := p.linear ++ p.frags

/-- What `memcpy(pdata, skb->data, skb->len)` copies, with `after` in memory
    behind the linear area. -/
def copied (p : Packet) (after : Nat → Byte) : List Byte :=
  memcpyFrom (kernelMem p.linear after) 0 p.len

theorem copied_eq (p : Packet) (after : Nat → Byte) :
    p.copied after = p.linear ++ (List.range p.frags.length).map after := by
  have h := memcpyFrom_kernelMem p.linear after (Nat.zero_le _) p.frags.length
  rwa [Nat.sub_zero, List.drop_zero] at h

theorem length_copied (p : Packet) (after : Nat → Byte) : (p.copied after).length = p.len := by
  rw [copied_eq, List.length_append, List.length_map, List.length_range, len]

/-- A linear packet is copied as it is. -/
theorem copied_of_linear {p : Packet} (h : p.frags = []) (after : Nat → Byte) :
    p.copied after = p.bytes := by
  rw [copied_eq, bytes, h]
  rfl

/-- A read of `skb->len` bytes stays in the linear area exactly for a linear
    packet. -/
theorem range_len_inside_iff (p : Packet) :
    (∀ i ∈ List.range p.len, i < p.linear.length) ↔ p.frags = [] := by
  constructor
  · intro h
    by_contra hne
    have hpos := List.length_pos_iff.mpr hne
    -- the first byte behind the linear area
    have hread := h p.linear.length (List.mem_range.mpr (by rw [len]; omega))
    omega
  · intro h i hi
    rw [List.mem_range, len, h, List.length_nil] at hi
    exact hi

end Packet

/-! ## What the hooks read and copy -/

/-- The indices of `skb->data` read while a message is built. -/
def encoderReads (len : Nat) : Build → List Nat
  | .built _ => List.range len
  | _ => []

instance (env : HookEnv) (g : Cap) : Decidable (HasBuffer env g) :=
  inferInstanceAs (Decidable (_ ∨ _))

/-- The indices of `skb->data` a call of `hook_func_queue` reads: twelve bytes for
    the log, and the copy of `cap_buffer_alloc` if it gets there. -/
def hookFuncQueueReads (p : Packet) (after : Nat → Byte) (env : HookEnv) (g : Cap) : List Nat :=
  List.range loggedBytes ++
    if g.ctl.capNlkPortid ≠ 0 ∧ HasBuffer env g then
      encoderReads p.len (buildMsg g.skbAllocs maxSkbBufsize env.mem g.ctl.capNlkPortid 0 nlmsgDone
        0 (p.copied after))
    else []

/-- The indices of `skb->data` a call of `hook_func` reads: the log, and one copy
    for every message `cap_make_reply` made. -/
def hookFuncReads (p : Packet) (after : Nat → Byte) (env : Nat → ReplyEnv) (u : Users) :
    List Nat :=
  List.range loggedBytes ++
    (hookFunc (p.copied after) env u).sent.flatMap fun _ => List.range p.len

/-- The `n` bytes at `nlmsg_data`. -/
def payloadOf (n : Nat) (skb : SkBuff) : List Byte := (skb.data.drop nlmsgHdrlen).take n

/-- A call of `hook_func_queue` reads the linear area only, and the message that
    `cap_buffer_alloc` builds in it has exactly the bytes of the packet. -/
def QueueExact (p : Packet) (after : Nat → Byte) (env : HookEnv) (g : Cap) : Prop :=
  (∀ i ∈ hookFuncQueueReads p after env g, i < p.linear.length) ∧
    (g.ctl.capNlkPortid ≠ 0 → ∀ g' cb skb,
      capBufferAlloc nlmsgDone (p.copied after) env g = .ok (g', some cb) → cb.skb = some skb →
        payloadOf p.len skb = p.bytes)

/-- The same for a call of `hook_func` and the messages of `cap_make_reply`. -/
def DirectExact (p : Packet) (after : Nat → Byte) (env : Nat → ReplyEnv) (u : Users) : Prop :=
  (∀ i ∈ hookFuncReads p after env u, i < p.linear.length) ∧
    ∀ m ∈ (hookFunc (p.copied after) env u).sent, payloadOf p.len m.1 = p.bytes

/-- `hook_func_queue` comes to copy the packet: there is a listener, a buffer and
    a message with room for it. -/
def QueueCopies (p : Packet) (after : Nat → Byte) (env : HookEnv) (g : Cap) : Prop :=
  g.ctl.capNlkPortid ≠ 0 ∧ HasBuffer env g ∧ Builds (p.copied after) env.mem

/-- `hook_func` comes to copy the packet: some client's message is allocated. -/
def DirectCopies (env : Nat → ReplyEnv) (u : Users) : Prop :=
  ∃ (i : Nat) (slot : Usrconf), u.usrtab.slots[i]? = some slot ∧ slot.pid ≠ 0 ∧ (env i).mem.isSome

/-! ## The queueing hook -/

theorem payloadOf_captured {skb : SkBuff} {portid : BitVec 32} {msgType : BitVec 16}
    {packet : List Byte} (h : skb.data = capturedMsg portid msgType packet) :
    payloadOf packet.length skb = packet := by
  rw [payloadOf, h, capturedMsg, wireMsg, List.drop_left' (Nlmsghdr.length_toBytes _),
    List.take_left]

/-- The copy is reached exactly if the message gets built. -/
theorem encoderReads_buildMsg (len id : Nat) (portid : BitVec 32) (packet : List Byte)
    (mem : Option SkbMem) :
    (Builds packet mem ∧ encoderReads len
      (buildMsg id maxSkbBufsize mem portid 0 nlmsgDone 0 packet) = List.range len) ∨
    (¬ Builds packet mem ∧ encoderReads len
      (buildMsg id maxSkbBufsize mem portid 0 nlmsgDone 0 packet) = []) := by
  cases mem with
  | none =>
      refine Or.inr ⟨?_, rfl⟩
      rintro ⟨m, hm, -⟩
      cases hm
  | some m =>
      by_cases hroom : nlmsgTotalSize maxSkbBufsize + m.slack < nlmsgTotalSize packet.length
      · refine Or.inr ⟨?_, ?_⟩
        · rintro ⟨m', hm, hle⟩
          cases hm
          omega
        · simp only [buildMsg, nlmsgNew, Option.map_some, nlmsgPut, hroom, if_true, encoderReads]
      · refine Or.inl ⟨⟨m, rfl, Nat.not_lt.mp hroom⟩, ?_⟩
        simp only [buildMsg, nlmsgNew, Option.map_some, nlmsgPut, hroom, if_false, encoderReads]

/-- `cap_buffer_alloc` returns a buffer only if it had one and built its message. -/
theorem capBufferAlloc_some {packet : List Byte} {env : HookEnv} {g g' : Cap} {cb : CapBuffer}
    (h : capBufferAlloc nlmsgDone packet env g = .ok (g', some cb)) :
    HasBuffer env g ∧ Builds packet env.mem := by
  rcases takeBuffer_cases env g with ⟨-, hpop, hkm⟩ | ⟨hhas, l, n, a, cb₁, htake, -⟩
  · simp only [capBufferAlloc, hpop, hkm, Option.isSome_none, Bool.false_eq_true, if_false,
      capBufferFree, bind, Except.bind] at h
    cases h
  · refine ⟨hhas, ?_⟩
    simp only [capBufferAlloc, htake] at h
    rcases capFill_cases packet env.mem cb₁
        { g with capFreelist := l, capFreelistCount := n, bufAllocs := a } with
      ⟨-, g₂, hfill, -⟩ | ⟨hb, -⟩
    · -- the buffer went back to the freelist, and NULL is returned
      simp only [hfill, bind, Except.bind] at h
      split at h <;> cases h
    · exact hb

theorem queueExact_iff (p : Packet) (after : Nat → Byte) (env : HookEnv) (g : Cap) :
    QueueExact p after env g ↔ (QueueCopies p after env g → p.frags = []) := by
  constructor
  · rintro ⟨hreads, -⟩ ⟨hportid, hhas, hbuilds⟩
    rw [← p.range_len_inside_iff]
    intro i hi
    apply hreads
    rw [hookFuncQueueReads, if_pos ⟨hportid, hhas⟩]
    rcases encoderReads_buildMsg p.len g.skbAllocs g.ctl.capNlkPortid (p.copied after) env.mem with
      ⟨-, heq⟩ | ⟨hnot, -⟩
    · rw [heq]
      exact List.mem_append_right _ hi
    · exact absurd hbuilds hnot
  · intro hlinear
    refine ⟨fun i hi => ?_, fun hportid g' cb skb halloc hskb => ?_⟩
    · rcases List.mem_append.mp hi with hlog | hcopy
      · exact lt_of_lt_of_le (List.mem_range.mp hlog) p.logged
      · -- the copy is only made of a linear packet
        split at hcopy
        case isTrue hgo =>
          rcases encoderReads_buildMsg p.len g.skbAllocs g.ctl.capNlkPortid (p.copied after)
            env.mem with ⟨hbuilds, heq⟩ | ⟨-, heq⟩
          · rw [heq] at hcopy
            exact p.range_len_inside_iff.mpr (hlinear ⟨hgo.1, hgo.2, hbuilds⟩) i hcopy
          · rw [heq] at hcopy
            cases hcopy
        case isFalse => cases hcopy
    · have hfrags := hlinear ⟨hportid, capBufferAlloc_some halloc⟩
      obtain ⟨skb', hskb', hdata⟩ := (capBufferAlloc_ok halloc).2.2 cb rfl
      obtain rfl : skb' = skb := Option.some.inj (hskb'.symm.trans hskb)
      have hpayload := payloadOf_captured hdata
      rw [p.length_copied, p.copied_of_linear hfrags] at hpayload
      exact hpayload

/-! ## The direct hook -/

/-- One slot either sends a message or leaves everything as it was; it sends
    exactly if it is occupied and the allocation succeeds. -/
theorem hookFuncSlot_sent (packet : List Byte) (env : Nat → ReplyEnv) (s : HookFunc) (i : Nat) :
    ((∃ slot, s.users.usrtab.slots[i]? = some slot ∧ slot.pid ≠ 0 ∧ (env i).mem.isSome) ∧
      (hookFuncSlot packet env s i).sent ≠ []) ∨
    (¬ (∃ slot, s.users.usrtab.slots[i]? = some slot ∧ slot.pid ≠ 0 ∧ (env i).mem.isSome) ∧
      hookFuncSlot packet env s i = s) := by
  by_cases hocc : ∃ slot, s.users.usrtab.slots[i]? = some slot ∧ slot.pid ≠ 0
  · obtain ⟨slot, hslot, hpid⟩ := hocc
    cases hmem : (env i).mem with
    | none =>
        refine Or.inr ⟨?_, ?_⟩
        · rintro ⟨-, -, -, hsome⟩
          cases hsome
        · simp only [hookFuncSlot, hslot, ne_eq, hpid, not_false_eq_true, if_true, capMakeReply,
            hmem, buildMsg, nlmsgNew, Option.map_none]
    | some m =>
        refine Or.inl ⟨⟨slot, hslot, hpid, rfl⟩, ?_⟩
        have hreply := capMakeReply_isSome i slot.pid packet m
        rw [← hmem] at hreply
        have hatt := (hookFuncSlot_occupied hslot hpid hreply).1
        intro hnil
        rw [HookFunc.attempts, hnil] at hatt
        simp at hatt
  · refine Or.inr ⟨?_, ?_⟩
    · rintro ⟨slot, hslot, hpid, -⟩
      exact hocc ⟨slot, hslot, hpid⟩
    · apply hookFuncSlot_free
      intro slot hslot
      by_contra hpid
      exact hocc ⟨slot, hslot, hpid⟩

/-- A message once sent stays sent. -/
theorem hookFuncSlot_sent_ne_nil (packet : List Byte) (env : Nat → ReplyEnv) {s : HookFunc}
    (h : s.sent ≠ []) (i : Nat) : (hookFuncSlot packet env s i).sent ≠ [] := by
  rcases hookFuncSlot_sent packet env s i with ⟨-, hsent⟩ | ⟨-, hsame⟩
  · exact hsent
  · rw [hsame]
    exact h

/-- After `k` slots: a message was sent if one of them could be sent to, and
    otherwise nothing has happened. -/
theorem hookFuncLoop_sent (packet : List Byte) (env : Nat → ReplyEnv) (u : Users) (k : Nat) :
    ((∃ i < k, ∃ slot, u.usrtab.slots[i]? = some slot ∧ slot.pid ≠ 0 ∧ (env i).mem.isSome) ∧
      (hookFuncLoop packet env u k).sent ≠ []) ∨
    (¬ (∃ i < k, ∃ slot, u.usrtab.slots[i]? = some slot ∧ slot.pid ≠ 0 ∧ (env i).mem.isSome) ∧
      hookFuncLoop packet env u k = { users := u, sent := [] }) := by
  induction k with
  | zero =>
      refine Or.inr ⟨?_, rfl⟩
      rintro ⟨i, hi, -⟩
      exact absurd hi (Nat.not_lt_zero i)
  | succ k ih =>
      rw [hookFuncLoop_succ]
      rcases ih with ⟨⟨i, hi, hslot⟩, hsent⟩ | ⟨hnone, hsame⟩
      · exact Or.inl ⟨⟨i, Nat.lt_succ_of_lt hi, hslot⟩, hookFuncSlot_sent_ne_nil packet env hsent k⟩
      · rw [hsame]
        rcases hookFuncSlot_sent packet env { users := u, sent := [] } k with
          ⟨hslot, hsent⟩ | ⟨hno, hkeep⟩
        · exact Or.inl ⟨⟨k, Nat.lt_succ_self k, hslot⟩, hsent⟩
        · refine Or.inr ⟨?_, hkeep⟩
          rintro ⟨i, hi, hslot⟩
          rcases Nat.lt_succ_iff_lt_or_eq.mp hi with hlt | rfl
          · exact hnone ⟨i, hlt, hslot⟩
          · exact hno hslot

theorem hookFunc_sent_ne_nil_iff (packet : List Byte) (env : Nat → ReplyEnv) (u : Users) :
    (hookFunc packet env u).sent ≠ [] ↔ DirectCopies env u := by
  have hall : DirectCopies env u ↔ ∃ i < maxTabSize, ∃ slot, u.usrtab.slots[i]? = some slot ∧
      slot.pid ≠ 0 ∧ (env i).mem.isSome := by
    constructor
    · rintro ⟨i, slot, hslot, hrest⟩
      have hlt := (List.getElem?_eq_some_iff.mp hslot).1
      rw [u.usrtab.size] at hlt
      exact ⟨i, hlt, slot, hslot, hrest⟩
    · rintro ⟨i, -, slot, hslot⟩
      exact ⟨i, slot, hslot⟩
  rw [hall]
  rcases hookFuncLoop_sent packet env u maxTabSize with ⟨hex, hsent⟩ | ⟨hno, hsame⟩
  · exact ⟨fun _ => hex, fun _ => hsent⟩
  · refine ⟨fun h => absurd ?_ h, fun h => absurd h hno⟩
    show (hookFuncLoop packet env u maxTabSize).sent = []
    rw [hsame]

theorem directExact_iff (p : Packet) (after : Nat → Byte) (env : Nat → ReplyEnv) (u : Users) :
    DirectExact p after env u ↔ (DirectCopies env u → p.frags = []) := by
  rw [← hookFunc_sent_ne_nil_iff (p.copied after)]
  constructor
  · rintro ⟨hreads, -⟩ hne
    obtain ⟨m, hm⟩ := List.exists_mem_of_ne_nil _ hne
    rw [← p.range_len_inside_iff]
    intro i hi
    exact hreads i (List.mem_append_right _ (List.mem_flatMap.mpr ⟨m, hm, hi⟩))
  · intro hlinear
    refine ⟨fun i hi => ?_, fun m hm => ?_⟩
    · rcases List.mem_append.mp hi with hlog | hcopy
      · exact lt_of_lt_of_le (List.mem_range.mp hlog) p.logged
      · obtain ⟨m, hm, hcopy⟩ := List.mem_flatMap.mp hcopy
        exact p.range_len_inside_iff.mpr (hlinear (List.ne_nil_of_mem hm)) i hcopy
    · have hfrags := hlinear (List.ne_nil_of_mem hm)
      have hpayload := payloadOf_captured (hookFunc_sent hm).2
      rw [p.length_copied, p.copied_of_linear hfrags] at hpayload
      exact hpayload

/-- Both capture encoders stay in the linear area and copy exactly the packet if
    and only if the packet is linear or they do not come to copy it at all. -/
theorem capture_exact_iff_linear (p : Packet) (after : Nat → Byte) :
    (∀ env g, QueueExact p after env g ↔ (QueueCopies p after env g → p.frags = [])) ∧
      ∀ env u, DirectExact p after env u ↔ (DirectCopies env u → p.frags = []) :=
  ⟨queueExact_iff p after, directExact_iff p after⟩

/-- Twelve linear bytes and four in a fragment. -/
def fragmented : Packet where
  linear := List.replicate 12 1
  frags := [2, 3, 4, 5]
  logged := by decide

/-- Both encoders send four bytes of the memory behind the linear area. -/
theorem capture_overreads_fragmented :
    (∃ g' m, hookFuncQueue (fragmented.copied fun _ => 0xaa) calmEnv (capListening 7) = .ok g' ∧
      g'.capSkbQueue = [m] ∧
      payloadOf 16 m = List.replicate 12 1 ++ [0xaa, 0xaa, 0xaa, 0xaa]) ∧
    ((hookFunc (fragmented.copied fun _ => 0xaa) calmReplies
        (userJoin 7 ⟨.empty, 0⟩).1).sent.map fun m => payloadOf 16 m.1) =
      [List.replicate 12 1 ++ [0xaa, 0xaa, 0xaa, 0xaa]] ∧
    ¬ QueueExact fragmented (fun _ => 0xaa) calmEnv (capListening 7) ∧
    ¬ DirectExact fragmented (fun _ => 0xaa) calmReplies (userJoin 7 ⟨.empty, 0⟩).1 := by
  refine ⟨⟨_, _, rfl, rfl, by decide⟩, by decide +kernel, fun h => ?_, fun h => ?_⟩
  · exact absurd (h.1 12 (by decide)) (by decide)
  · exact absurd (h.1 12 (by decide +kernel)) (by decide)

end LinuxModules.Netlink
