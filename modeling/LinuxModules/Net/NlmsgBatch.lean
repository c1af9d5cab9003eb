/-
  LinuxModules.Net.NlmsgBatch

  Batches of netlink messages: what a sender concatenates and what the receive
  walk of `Nlmsg` makes of it.

  A message is its header and its payload; in a batch every message is padded
  with zeros to a multiple of 4.  The walk always advances by the padded length,
  so where a sender leaves out the last padding, the walk skips as many bytes of
  whatever follows (`missingPad`).
-/

import LinuxModules.Net.Nlmsg

namespace LinuxModules.Net

open LinuxModules.Lib

/-- A message whose `nlmsg_len` is the length of header and payload. -/
structure Nlmsg where
  hdr : Nlmsghdr
  payload : List Byte
  len_eq : hdr.nlmsgLen.toNat = nlmsgHdrlen + payload.length

/-- Header and payload, without padding. -/
def Nlmsg.toBytes (m : Nlmsg) : List Byte := m.hdr.toBytes ++ m.payload

/-- The number of padding bytes after a message of length `n`. -/
def padLen (n : Nat) : Nat := align4 n - n

/-- The zero padding after a message. -/
def Nlmsg.padding (m : Nlmsg) : List Byte := List.replicate (padLen m.toBytes.length) 0

/-- The encoding of a batch; the padding of its last message is optional. -/
def encodeBatch (padLast : Bool) : List Nlmsg → List Byte
  | [] => []
  | [m] => m.toBytes ++ if padLast then m.padding else []
  | m :: ms => m.toBytes ++ (m.padding ++ encodeBatch padLast ms)

/-- The padding bytes a batch ends without. -/
def missingPad (padLast : Bool) : List Nlmsg → Nat
  | [] => 0
  | [m] => if padLast then 0 else padLen m.toBytes.length
  | _ :: ms => missingPad padLast ms

/-- Header and payload of the message a byte string starts with. -/
def firstMsg (b : List Byte) : Nlmsghdr × List Byte :=
  (.ofBytes b, (b.drop nlmsgHdrlen).take (field 0 4 b - nlmsgHdrlen))

/-- The walk over `b` finds exactly the messages `ms`. -/
def Decodes (b : List Byte) (ms : List Nlmsg) : Prop :=
  ∃ os, Chain b 0 os ∧
    os.map (fun o => firstMsg (b.drop o)) = ms.map (fun m => (m.hdr, m.payload))

/-! ## Walking a suffix -/

theorem validAt_drop (b : List Byte) (k o : Nat) :
    ValidAt (b.drop k) o ↔ ValidAt b (k + o) := by
  have hhdr : nlmsgHdrlen = 16 := rfl
  simp only [ValidAt, field_drop, List.length_drop]
  omega

/-- The walk of a suffix is the walk of the whole string from there on. -/
theorem Chain.of_drop {b : List Byte} {k o : Nat} {os : List Nat}
    (h : Chain (b.drop k) o os) : Chain b (k + o) (os.map (k + ·)) := by
  induction h with
  | stop hv => exact .stop (by rwa [validAt_drop] at hv)
  | next hv _ ih =>
      rw [validAt_drop] at hv
      rw [field_drop, ← Nat.add_assoc] at ih
      exact .next hv ih

/-! ## Decoding a batch -/

theorem Nlmsg.length_toBytes (m : Nlmsg) : m.toBytes.length = m.hdr.nlmsgLen.toNat := by
  rw [toBytes, List.length_append, Nlmsghdr.length_toBytes, m.len_eq]

/-- A byte string that starts with a message has it as its first message. -/
theorem firstMsg_toBytes (m : Nlmsg) (rest : List Byte) :
    firstMsg (m.toBytes ++ rest) = (m.hdr, m.payload) := by
  have hpay : m.hdr.nlmsgLen.toNat - nlmsgHdrlen = m.payload.length := by
    rw [m.len_eq, Nat.add_sub_cancel_left]
  rw [firstMsg, Nlmsg.toBytes, List.append_assoc, Nlmsghdr.ofBytes_toBytes,
    field_len_toBytes, hpay, List.drop_left' m.hdr.length_toBytes, List.take_left]

theorem validAt_toBytes (m : Nlmsg) (rest : List Byte) :
    ValidAt (m.toBytes ++ rest) 0 ∧ field 0 4 (m.toBytes ++ rest) = m.toBytes.length := by
  have hlen : field 0 4 (m.toBytes ++ rest) = m.toBytes.length := by
    rw [m.length_toBytes, Nlmsg.toBytes, List.append_assoc, field_len_toBytes]
  have hmin : nlmsgHdrlen ≤ m.toBytes.length := by
    rw [m.length_toBytes, m.len_eq]
    exact Nat.le_add_right _ _
  refine ⟨⟨?_, ?_, ?_⟩, hlen⟩
  · rw [List.length_append]
    omega
  · rw [hlen]
    exact hmin
  · rw [hlen, List.length_append]
    omega

/-- Peel one message: what follows it is walked after its padding. -/
theorem Decodes.cons {m : Nlmsg} {rest : List Byte} {ms : List Nlmsg}
    (h : Decodes (rest.drop (padLen m.toBytes.length)) ms) :
    Decodes (m.toBytes ++ rest) (m :: ms) := by
  obtain ⟨hv, hlen⟩ := validAt_toBytes m rest
  obtain ⟨os, hos, hmap⟩ := h
  -- behind the aligned length the string is what follows the padding
  have hdrop : ∀ o, (m.toBytes ++ rest).drop (align4 m.toBytes.length + o) =
      (rest.drop (padLen m.toBytes.length)).drop o := by
    intro o
    have hle := le_align4 m.toBytes.length
    have hadd : align4 m.toBytes.length + o =
        m.toBytes.length + (padLen m.toBytes.length + o) := by
      unfold padLen
      omega
    rw [hadd, ← List.drop_drop, List.drop_left, List.drop_drop]
  have htail : Chain (m.toBytes ++ rest) (0 + align4 m.toBytes.length)
      (os.map (align4 m.toBytes.length + ·)) := by
    have hsuf := hdrop 0
    rw [Nat.add_zero, List.drop_zero] at hsuf
    rw [← hsuf] at hos
    rw [Nat.zero_add]
    exact hos.of_drop
  refine ⟨0 :: os.map (align4 m.toBytes.length + ·), .next hv (hlen ▸ htail), ?_⟩
  rw [List.map_cons, List.map_cons, List.drop_zero, firstMsg_toBytes, List.map_map, ← hmap]
  congr 1
  apply List.map_congr_left
  intro o _
  exact congrArg firstMsg (hdrop o)

theorem Decodes.nil {b : List Byte} (h : ¬ ValidAt b 0) : Decodes b [] := ⟨[], .stop h, rfl⟩

/-- A batch, followed by any tail that has no valid message where the walk
    continues, is decoded to exactly that batch. -/
theorem decodes_encodeBatch (padLast : Bool) (ms : List Nlmsg) (tail : List Byte)
    (htail : ¬ ValidAt (tail.drop (missingPad padLast ms)) 0) :
    Decodes (encodeBatch padLast ms ++ tail) ms := by
  induction ms with
  | nil => exact .nil htail
  | cons m ms ih =>
      cases ms with
      | nil =>
          cases padLast with
          | false =>
              -- the walk skips the missing padding in the tail
              simp only [encodeBatch, Bool.false_eq_true, if_false, List.append_nil]
              exact .cons (.nil htail)
          | true =>
              simp only [encodeBatch, if_true, List.append_assoc]
              apply Decodes.cons
              rw [List.drop_left' (by simp [Nlmsg.padding])]
              exact .nil htail
      | cons m' ms =>
          simp only [encodeBatch, List.append_assoc]
          apply Decodes.cons
          rw [List.drop_left' (by simp [Nlmsg.padding])]
          exact ih htail

/-! ## One message -/

/-- A message as long as its skb is the only one in it. -/
theorem chain_whole {b : List Byte} (hmin : nlmsgHdrlen ≤ b.length)
    (hlen : field 0 4 b = b.length) : Chain b 0 [0] := by
  refine .next ⟨by omega, by omega, by omega⟩ (.stop fun hv => ?_)
  have hle := le_align4 (field 0 4 b)
  have hroom := hv.1
  have hhdr : nlmsgHdrlen = 16 := rfl
  omega

end LinuxModules.Net
