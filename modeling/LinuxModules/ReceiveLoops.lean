/-
  LinuxModules.ReceiveLoops

  `cap_receive_skb` and `netctrl_receive_skb` on arbitrary input: both are the
  walk of `Net.Nlmsg` around their own message function, so both hand over the
  same messages.

  What a batch decodes to depends on where the walk continues behind it: a batch
  that ends without its last padding makes the walk skip as many bytes of what
  follows.
-/

import LinuxModules.Net.NlmsgBatch
import LinuxModules.Netctrl.Kernel
import LinuxModules.Netlink.ReceiveSkb

namespace LinuxModules

open LinuxModules.Lib LinuxModules.Net LinuxModules.Netlink LinuxModules.Netctrl

/-- Both receive functions return, and hand over exactly the messages at `os`. -/
def BothHandOver (kt : Nat → KthreadRun) (kzalloc : Nat → Bool) (after : Nat → Byte)
    (c : CapCtl) (s : NetctrlState) (b : List Byte) (os : List Nat) : Prop :=
  (∃ r, capReceiveSkb kt b c = .ok r ∧ r.calls = os.map (msgAt b)) ∧
    ∃ r, netctrlReceiveSkb kzalloc after b s = .ok r ∧ r.calls = os.map (msgAt b)

section
variable (kt : Nat → KthreadRun) (kzalloc : Nat → Bool) (after : Nat → Byte) (c : CapCtl)
  (s : NetctrlState)

theorem bothHandOver_of_chain {b : List Byte} (hb : b.length < 2 ^ 30) {os : List Nat}
    (h : Chain b 0 os) : BothHandOver kt kzalloc after c s b os := by
  refine ⟨⟨_, receiveSkb_eq _ hb h c, ?_⟩, ⟨_, receiveSkb_eq _ hb h s, ?_⟩⟩
  · rw [calls_foldl_handle, List.nil_append]
  · rw [calls_foldl_handle, List.nil_append]

/-- On every skb below `2 ^ 30` bytes both loops terminate, read no header field
    out of bounds and hand over the maximal sequence of valid messages, each once
    and in order.  A batch, followed by any tail that has no valid message behind
    the padding the batch ends without, is handed over as exactly that batch. -/
theorem receive_loops_exact :
    (∀ b : List Byte, b.length < 2 ^ 30 →
      ∃ os, Chain b 0 os ∧ (∀ os', Chain b 0 os' → os' = os) ∧
        BothHandOver kt kzalloc after c s b os) ∧
    ∀ (padLast : Bool) (ms : List Nlmsg) (tail : List Byte),
      (encodeBatch padLast ms ++ tail).length < 2 ^ 30 →
      ¬ ValidAt (tail.drop (missingPad padLast ms)) 0 →
      ∃ os, BothHandOver kt kzalloc after c s (encodeBatch padLast ms ++ tail) os ∧
        os.map (fun o => firstMsg ((encodeBatch padLast ms ++ tail).drop o)) =
          ms.map fun m => (m.hdr, m.payload) := by
  constructor
  · intro b hb
    obtain ⟨os, hos, -⟩ := Chain.exists b 0
    exact ⟨os, hos, fun os' hos' => hos'.unique hos, bothHandOver_of_chain kt kzalloc after c s hb hos⟩
  · intro padLast ms tail hlen htail
    obtain ⟨os, hos, hmap⟩ := decodes_encodeBatch padLast ms tail htail
    exact ⟨os, bothHandOver_of_chain kt kzalloc after c s hlen hos, hmap⟩

end

/-- A 17-byte message. -/
def oddMsg : Nlmsg where
  hdr := { nlmsgLen := 17, nlmsgType := 3, nlmsgFlags := 0, nlmsgSeq := 0, nlmsgPid := 7 }
  payload := [1]
  len_eq := rfl

/-- One message without its padding and nothing behind it. -/
theorem receive_loops_exact_odd_message :
    ∃ os, BothHandOver (fun _ => .task 1) (fun _ => true) (fun _ => 0xaa) capStart ⟨[], 0⟩
        (encodeBatch false [oddMsg] ++ []) os ∧ os.length = 1 := by
  obtain ⟨os, hboth, hmap⟩ := (receive_loops_exact (fun _ => .task 1) (fun _ => true)
    (fun _ => 0xaa) capStart ⟨[], 0⟩).2 false [oddMsg] [] (by decide) (by decide)
  refine ⟨os, hboth, ?_⟩
  have hlen := congrArg List.length hmap
  rwa [List.length_map] at hlen

/-- Three zero bytes and a 16-byte message. -/
def shiftedTail : List Byte := [0, 0, 0] ++ (capMsg 3 9).toBytes

theorem chain_shiftedTail : Chain (encodeBatch false [oddMsg] ++ shiftedTail) 0 [0, 20] := by
  have hfirst : align4 (field 0 4 (encodeBatch false [oddMsg] ++ shiftedTail)) = 20 := by decide
  have hsecond : align4 (field 20 4 (encodeBatch false [oddMsg] ++ shiftedTail)) = 16 := by decide
  refine .next (by decide) ?_
  rw [hfirst]
  refine .next (by decide) ?_
  rw [hsecond]
  exact .stop (by decide)

/-- These 19 bytes do not start with a valid message, yet behind a 17-byte message
    that ends without its padding both loops find a second message in them. -/
theorem unpadded_batch_decodes_tail :
    ¬ ValidAt shiftedTail 0 ∧ (encodeBatch false [oddMsg] ++ shiftedTail).length < 2 ^ 30 ∧
      BothHandOver (fun _ => .task 1) (fun _ => true) (fun _ => 0xaa) capStart ⟨[], 0⟩
        (encodeBatch false [oddMsg] ++ shiftedTail) [0, 20] ∧
      ([0, 20].map fun o => firstMsg ((encodeBatch false [oddMsg] ++ shiftedTail).drop o)) ≠
        [oddMsg].map fun m => (m.hdr, m.payload) :=
  ⟨by decide, by decide, bothHandOver_of_chain _ _ _ _ _ (by decide) chain_shiftedTail, by simp⟩

end LinuxModules
