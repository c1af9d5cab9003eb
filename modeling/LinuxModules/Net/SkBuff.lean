/-
  LinuxModules.Net.SkBuff

  Socket buffers as a netlink sender fills them: `nlmsg_new`, `nlmsg_put` and
  the `memcpy` into the payload area.

  A buffer is the bytes between `skb->data` and `skb->tail` (so `skb->len` is
  their number), the tailroom behind them and what that memory holds: an
  allocation is not cleared, and `nlmsg_put` clears only the padding.
  `buildMsg_built` shows that none of the old contents survives in a message
  that was built.
-/

import LinuxModules.Net.NlmsgBatch

namespace LinuxModules.Net

open LinuxModules.Lib

/-- A linear `struct sk_buff` under construction.  `id` tells buffers apart,
    `users` is the reference count. -/
structure SkBuff where
  id : Nat
  data : List Byte
  tailroom : Nat
  stale : Nat → Byte
  users : Nat

/-- What a successful allocation provides beyond the requested size, and what
    the memory holds. -/
structure SkbMem where
  slack : Nat
  stale : Nat → Byte

/-- `nlmsg_total_size`: header and payload, aligned. -/
def nlmsgTotalSize (payload : Nat) : Nat := align4 (nlmsgHdrlen + payload)

/-- `nlmsg_new`: an empty buffer with at least `nlmsg_total_size(payload)` bytes
    of tailroom, or NULL. -/
def nlmsgNew (id payload : Nat) (mem : Option SkbMem) : Option SkBuff :=
  mem.map fun m =>
    { id, data := [], tailroom := nlmsgTotalSize payload + m.slack, stale := m.stale, users := 1 }

/-- `nlmsg_put`: fails only for want of tailroom; otherwise appends a header
    with `nlmsg_len = 16 + payload`, the payload area as it is in memory and
    cleared padding.  Returns the buffer and the offset of the header. -/
def nlmsgPut (skb : SkBuff) (portid seq : BitVec 32) (msgType : BitVec 16) (payload : Nat)
    (flags : BitVec 16) : Option (SkBuff × Nat) :=
  if skb.tailroom < nlmsgTotalSize payload then none
  else
    let hdr : Nlmsghdr :=
      { nlmsgLen := BitVec.ofNat 32 (nlmsgHdrlen + payload)
        nlmsgType := msgType
        nlmsgFlags := flags
        nlmsgSeq := seq
        nlmsgPid := portid }
    let area := (List.range payload).map fun i => skb.stale (nlmsgHdrlen + i)
    let pad := List.replicate (padLen (nlmsgHdrlen + payload)) 0
    some
      ({ skb with
          data := skb.data ++ (hdr.toBytes ++ (area ++ pad))
          tailroom := skb.tailroom - nlmsgTotalSize payload
          stale := fun i => skb.stale (nlmsgTotalSize payload + i) },
        skb.data.length)

/-- `memcpy(nlmsg_data(nlh), payload, |payload|)` -/
def copyPayload (skb : SkBuff) (nlh : Nat) (payload : List Byte) : SkBuff :=
  { skb with data := overwrite (nlh + nlmsgHdrlen) payload skb.data }

/-- How far a sender gets: no buffer, a buffer without room, a message. -/
inductive Build where
  | noSkb
  | noRoom (skb : SkBuff)
  | built (skb : SkBuff)

/-- `nlmsg_new(room)`, then `nlmsg_put` for the payload's size, then the copy:
    the sequence `cap_buffer_alloc` and `cap_make_reply` share. -/
def buildMsg (id room : Nat) (mem : Option SkbMem) (portid seq : BitVec 32)
    (msgType flags : BitVec 16) (payload : List Byte) : Build :=
  match nlmsgNew id room mem with
  | none => .noSkb
  | some skb =>
    match nlmsgPut skb portid seq msgType payload.length flags with
    | none => .noRoom skb
    | some (skb', nlh) => .built (copyPayload skb' nlh payload)

/-! ## The message that is built -/

/-- A message on the wire: `nlmsg_len` is `len`, the payload is padded. -/
def wireMsg (len : Nat) (portid seq : BitVec 32) (msgType flags : BitVec 16)
    (payload : List Byte) : List Byte :=
  (Nlmsghdr.mk (BitVec.ofNat 32 len) msgType flags seq portid).toBytes ++
    (payload ++ List.replicate (padLen (nlmsgHdrlen + payload.length)) 0)

theorem length_wireMsg (len : Nat) (portid seq : BitVec 32) (msgType flags : BitVec 16)
    (payload : List Byte) :
    (wireMsg len portid seq msgType flags payload).length = nlmsgTotalSize payload.length := by
  have hle := le_align4 (nlmsgHdrlen + payload.length)
  simp only [wireMsg, List.length_append, Nlmsghdr.length_toBytes, List.length_replicate, padLen,
    nlmsgTotalSize]
  omega

/-- Every byte of a built message is written: the old memory does not show. -/
theorem buildMsg_built {id room : Nat} {mem : Option SkbMem} {portid seq : BitVec 32}
    {msgType flags : BitVec 16} {payload : List Byte} {skb : SkBuff}
    (h : buildMsg id room mem portid seq msgType flags payload = .built skb) :
    skb.data = wireMsg (nlmsgHdrlen + payload.length) portid seq msgType flags payload ∧
      skb.id = id ∧ skb.users = 1 := by
  cases mem with
  | none => cases h
  | some m =>
      simp only [buildMsg, nlmsgNew, Option.map_some, nlmsgPut] at h
      split at h
      · cases h
      · rename_i skb' nlh hput
        split at hput
        · cases hput
        · cases hput
          cases h
          -- the copy covers exactly the payload area between header and padding
          refine ⟨?_, rfl, rfl⟩
          simp only [copyPayload, List.nil_append, List.length_nil, Nat.zero_add, wireMsg]
          exact overwrite_middle (by simp) (by simp)

/-- Rewriting `nlmsg_len` in place. -/
theorem overwrite_len_wireMsg (len len' : Nat) (portid seq : BitVec 32)
    (msgType flags : BitVec 16) (payload : List Byte) :
    overwrite 0 (leBytes 4 (BitVec.ofNat 32 len').toNat)
        (wireMsg len portid seq msgType flags payload) =
      wireMsg len' portid seq msgType flags payload := by
  simp only [wireMsg, Nlmsghdr.toBytes, List.append_assoc]
  rw [← List.nil_append (leBytes 4 (BitVec.ofNat 32 len).toNat ++ _)]
  exact overwrite_middle rfl (by simp)

/-- Two wire messages that differ at most in `nlmsg_len` are equal exactly if
    that field is. -/
theorem wireMsg_eq_iff {len len' : Nat} (hlen : len < 2 ^ 32) (hlen' : len' < 2 ^ 32)
    {portid seq : BitVec 32} {msgType flags : BitVec 16} {payload : List Byte} :
    wireMsg len portid seq msgType flags payload = wireMsg len' portid seq msgType flags payload ↔
      len = len' := by
  constructor
  · intro h
    have hfield := congrArg (field 0 4) h
    simp only [wireMsg, field_len_toBytes, BitVec.toNat_ofNat] at hfield
    rwa [Nat.mod_eq_of_lt hlen, Nat.mod_eq_of_lt hlen'] at hfield
  · rintro rfl
    rfl

end LinuxModules.Net
