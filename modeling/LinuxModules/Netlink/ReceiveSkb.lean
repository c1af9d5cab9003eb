/-
  LinuxModules.Netlink.ReceiveSkb

  `cap_receive_skb` of netlink.c: a batch of client messages in one skb, walked
  by the loop of `Net.Nlmsg` with `cap_receive_msg` as its body.

  `handled` lists what happened to each message of a batch.  The batch as a
  whole is then all-or-nothing per message (`SettledBy`): the final state is that
  of the accepted messages alone, and the acknowledgements are exactly those of
  the refused messages and of the messages that asked for one.
-/

import LinuxModules.Netlink.TableRuns

namespace LinuxModules.Netlink

open LinuxModules.Lib LinuxModules.Net

/-- `cap_receive_skb`; `kt k` is the outcome of `kthread_run` for message `k`. -/
def capReceiveSkb (kt : Nat → KthreadRun) (b : List Byte) (c : CapCtl) :
    Except Fault (Received CapCtl) :=
  receiveSkb (fun k c h _ => ((capReceiveMsg (kt k) c h).ctl, (capReceiveMsg (kt k) c h).err)) b c

/-- One message of a batch: the thread outcome it met, its header, its `err`. -/
structure Handled where
  kt : KthreadRun
  hdr : Nlmsghdr
  err : Int
deriving DecidableEq

/-- The messages of a batch with their results, from message number `k` on. -/
def handled (kt : Nat → KthreadRun) : Nat → CapCtl → List Nlmsghdr → List Handled
  | _, _, [] => []
  | k, c, h :: hs =>
      ⟨kt k, h, (capReceiveMsg (kt k) c h).err⟩ ::
        handled kt (k + 1) (capReceiveMsg (kt k) c h).ctl hs

/-- The state after a list of messages, each handled whatever its result. -/
def foldMsgs (c : CapCtl) (ms : List Handled) : CapCtl :=
  ms.foldl (fun c m => (capReceiveMsg m.kt c m.hdr).ctl) c

theorem foldMsgs_cons (c : CapCtl) (m : Handled) (ms : List Handled) :
    foldMsgs c (m :: ms) = foldMsgs (capReceiveMsg m.kt c m.hdr).ctl ms := rfl

/-- Dropping the refused messages of a batch does not change where it ends. -/
theorem foldMsgs_accepted (kt : Nat → KthreadRun) (k : Nat) (c : CapCtl) (hs : List Nlmsghdr) :
    foldMsgs c ((handled kt k c hs).filter (·.err = 0)) = foldMsgs c (handled kt k c hs) := by
  induction hs generalizing k c with
  | nil => rfl
  | cons h hs ih =>
      -- a refused message is dropped by the filter and left the state alone
      by_cases herr : (capReceiveMsg (kt k) c h).err = 0
      · rw [handled, List.filter_cons_of_pos (by simpa using herr)]
        exact ih (k + 1) _
      · have hsame := capReceiveMsg_of_err herr
        rw [handled, List.filter_cons_of_neg (by simpa using herr), foldMsgs_cons, hsame]
        exact ih (k + 1) c

/-- The body of the loop over a batch, from message number `r.calls.length` on. -/
theorem foldl_handle_cap (kt : Nat → KthreadRun) (ms : List (Nat × Nlmsghdr))
    (r : Received CapCtl) :
    ms.foldl (Received.handle fun k c h _ =>
        ((capReceiveMsg (kt k) c h).ctl, (capReceiveMsg (kt k) c h).err)) r =
      { st := foldMsgs r.st (handled kt r.calls.length r.st (ms.map (·.2)))
        calls := r.calls ++ ms
        acks := r.acks ++
          ((handled kt r.calls.length r.st (ms.map (·.2))).filter
            (fun m => m.err ≠ 0 ∨ m.hdr.wantsAck)).map (fun m => (m.hdr, m.err)) } := by
  induction ms generalizing r with
  | nil => simp [handled, foldMsgs]
  | cons m ms ih =>
      rw [List.foldl_cons, ih]
      simp only [Received.handle, List.length_append, List.length_singleton, List.map_cons,
        handled, List.append_assoc, List.singleton_append]
      by_cases hack : (capReceiveMsg (kt r.calls.length) r.st m.2).err ≠ 0 ∨ m.2.wantsAck
      · rw [if_pos hack, List.filter_cons_of_pos (by simpa using hack)]
        simp only [List.map_cons, List.append_assoc, List.singleton_append]
        rfl
      · rw [if_neg hack, List.filter_cons_of_neg (by simpa using hack)]
        rfl

/-- The batch `hs`, handled from state `c` on, is settled: the final state is that of
    its accepted messages alone, and acknowledged are exactly its refused messages
    and those that asked, each with its `err`. -/
def SettledBy (kt : Nat → KthreadRun) (c : CapCtl) (hs : List Nlmsghdr) (r : Received CapCtl) :
    Prop :=
  r.st = foldMsgs c ((handled kt 0 c hs).filter (·.err = 0)) ∧
    r.acks = ((handled kt 0 c hs).filter (fun m => m.err ≠ 0 ∨ m.hdr.wantsAck)).map
      (fun m => (m.hdr, m.err))

theorem capReceiveSkb_settledBy {kt : Nat → KthreadRun} {b : List Byte} {c : CapCtl}
    {r : Received CapCtl} (hr : capReceiveSkb kt b c = .ok r) :
    SettledBy kt c (r.calls.map (·.2)) r := by
  have hfold := (receiveSkb_ok hr).1
  rw [foldl_handle_cap] at hfold
  constructor
  · rw [foldMsgs_accepted]
    exact congrArg Received.st hfold
  · simpa using congrArg Received.acks hfold

theorem capReceiveSkb_returns (kt : Nat → KthreadRun) {b : List Byte} (hb : b.length < 2 ^ 30)
    (c : CapCtl) :
    ∃ os r, Chain b 0 os ∧ capReceiveSkb kt b c = .ok r ∧ r.calls = os.map (msgAt b) :=
  receiveSkb_returns _ hb c

/-- Refused messages are inert.  From every state and for every outcome of
    `kthread_run` per message: a message answered with an error changes nothing,
    and `cap_receive_skb` returns on every skb below `2 ^ 30` bytes, having handed
    over every message of its maximal sequence, whatever became of the ones before
    it, and with that batch settled. -/
theorem capReceiveSkb_rejections_inert :
    (∀ kt c h, (capReceiveMsg kt c h).err ≠ 0 → (capReceiveMsg kt c h).ctl = c) ∧
    ∀ (kt : Nat → KthreadRun) (b : List Byte) (c : CapCtl),
      (b.length < 2 ^ 30 →
        ∃ os r, Chain b 0 os ∧ capReceiveSkb kt b c = .ok r ∧ r.calls = os.map (msgAt b) ∧
          SettledBy kt c (os.map fun o => (msgAt b o).2) r) ∧
      ∀ r, capReceiveSkb kt b c = .ok r → SettledBy kt c (r.calls.map (·.2)) r := by
  refine ⟨fun kt c h => capReceiveMsg_of_err, fun kt b c => ⟨fun hb => ?_, fun r hr => ?_⟩⟩
  · obtain ⟨os, r, hos, hr, hcalls⟩ := capReceiveSkb_returns kt hb c
    have hset := capReceiveSkb_settledBy hr
    rw [hcalls, List.map_map] at hset
    exact ⟨os, r, hos, hr, hcalls, hset⟩
  · exact capReceiveSkb_settledBy hr

/-- A message of unknown type and a `CAP_ADD` behind it. -/
def refusedThenAdd : List Byte := (capMsg 9 7).toBytes ++ (capMsg 0 7).toBytes

theorem chain_refusedThenAdd : Chain refusedThenAdd 0 [0, 16] := by
  have hfirst : align4 (field 0 4 refusedThenAdd) = 16 := by decide
  have hsecond : align4 (field 16 4 refusedThenAdd) = 16 := by decide
  refine .next (by decide) ?_
  rw [hfirst]
  refine .next (by decide) ?_
  rw [hsecond]
  exact .stop (by decide)

/-- The first message is answered with `-EINVAL`, and the client is registered by
    the second. -/
theorem capReceiveSkb_rejections_inert_pair :
    ∃ r, capReceiveSkb (fun _ => .task 1) refusedThenAdd capStart = .ok r ∧
      r.calls = [(0, capMsg 9 7), (16, capMsg 0 7)] ∧ r.acks = [(capMsg 9 7, negEinval)] ∧
      r.st.usrcnt = 1 ∧ 7 ∈ r.st.usrtab.members := by
  obtain ⟨os, r, hos, hr, hcalls, hst, hacks⟩ := (capReceiveSkb_rejections_inert.2
    (fun _ => .task 1) refusedThenAdd capStart).1 (by decide)
  obtain rfl := hos.unique chain_refusedThenAdd
  exact ⟨r, hr, hcalls.trans (by decide), hacks.trans (by decide), by rw [hst]; decide,
    by rw [hst]; decide⟩

end LinuxModules.Netlink
