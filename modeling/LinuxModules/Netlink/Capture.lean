/-
  LinuxModules.Netlink.Capture

  The capture side of netlink.c, one call at a time: `cap_buffer_alloc`,
  `cap_buffer_free`, `cap_rate_check`, `hook_func_queue`, and the direct path
  `cap_make_reply` / `hook_func`.

  Each critical section and each call that can fail is a definition of its own;
  `hookFuncQueue` composes them for a call that runs undisturbed, and `System`
  interleaves the same pieces.  What an allocation returns and what `jiffies`
  reads is in `HookEnv`.  The fields `data` and `gfp_mask` of a `cap_buffer` are
  never read and are left out; `printk` has no effect here.
-/

import LinuxModules.Net.SkBuff
import LinuxModules.Netlink.ReceiveMsg

namespace LinuxModules.Netlink

open LinuxModules.Lib LinuxModules.Net

/-- `MAX_SKB_BUFSIZE` -/
def maxSkbBufsize : Nat := 2000

/-- `CAP_MAXFREE` -/
def capMaxfree : Int := 1024

/-- `NLMSG_DONE` -/
def nlmsgDone : BitVec 16 := 3

/-- `NLM_F_MULTI` -/
def nlmFMulti : BitVec 16 := 2

/-- `-ECONNREFUSED` -/
def negEconnrefused : Int := -111

/-! ## The rate limiter -/

/-- `cap_rate_limit` and the statics of `cap_rate_check`; `packets` is compared
    as an unsigned value. -/
structure RateState where
  capRateLimit : BitVec 32
  hz : BitVec 64
  lastCheck : BitVec 64
  packets : BitVec 32
deriving DecidableEq

/-- `cap_rate_check`, with `jiffies` reading `now`. -/
def capRateCheck (now : BitVec 64) (r : RateState) : RateState × Int :=
  if r.capRateLimit = 0 then (r, 1)
  else
    let packets := r.packets + 1
    -- below the limit the clock is not looked at
    if packets.toNat < r.capRateLimit.toNat then ({ r with packets }, 1)
    else
      let elapsed := now - r.lastCheck
      -- only here does the counter start again
      if elapsed.toNat > r.hz.toNat then ({ r with lastCheck := now, packets := 0 }, 1)
      else ({ r with packets }, 0)

/-! ## Capture buffers -/

/-- `struct cap_buffer`; `id` tells buffers apart, `skb` is `none` when NULL. -/
structure CapBuffer where
  id : Nat
  skb : Option SkBuff

/-- All globals of netlink.c, with a ledger of what was allocated and freed. -/
structure Cap where
  ctl : CapCtl
  capSkbQueue : List SkBuff
  capFreelist : List CapBuffer
  capFreelistCount : Int
  rate : RateState
  bufAllocs : Nat
  bufFreed : List Nat
  skbAllocs : Nat
  skbFreed : List Nat

/-- A bad memory access inside the kernel. -/
inductive Oops where
  | nullDeref
deriving DecidableEq

/-- The environment of one call: whether `kmalloc` succeeds, what `nlmsg_new`
    gets, what `jiffies` reads. -/
structure HookEnv where
  kmalloc : Bool
  mem : Option SkbMem
  jiffies : BitVec 64

/-- First section of `cap_buffer_alloc`: take the head of the freelist, if any. -/
def freelistPop (g : Cap) : Cap × Option CapBuffer :=
  match g.capFreelist with
  | [] => (g, none)
  | cb :: rest =>
      ({ g with capFreelist := rest, capFreelistCount := g.capFreelistCount - 1 }, some cb)

/-- `kmalloc` of a cleared `cap_buffer`. -/
def capKmalloc (ok : Bool) (g : Cap) : Cap × Option CapBuffer :=
  if ok then ({ g with bufAllocs := g.bufAllocs + 1 }, some { id := g.bufAllocs, skb := none })
  else (g, none)

/-- The message part of `cap_buffer_alloc`, stamped with the current
    `cap_nlk_portid`: the buffer afterwards, and whether it holds a message. -/
def capFill (msgType : BitVec 16) (packet : List Byte) (mem : Option SkbMem) (cb : CapBuffer)
    (g : Cap) : Cap × CapBuffer × Bool :=
  match buildMsg g.skbAllocs maxSkbBufsize mem g.ctl.capNlkPortid 0 msgType 0 packet with
  | .noSkb => (g, { cb with skb := none }, false)
  | .noRoom skb =>
      -- `out_kfree_skb`
      ({ g with skbAllocs := g.skbAllocs + 1, skbFreed := skb.id :: g.skbFreed },
        { cb with skb := none }, false)
  | .built skb => ({ g with skbAllocs := g.skbAllocs + 1 }, { cb with skb := some skb }, true)

/-- `cap_buffer_free`.  Its NULL test is the wrong way round: NULL is
    dereferenced, and the skb of a real buffer is not freed. -/
def capBufferFree (cb : Option CapBuffer) (g : Cap) : Except Oops Cap :=
  match cb with
  | none => .error .nullDeref
  | some cb =>
      if g.capFreelistCount ≥ capMaxfree then .ok { g with bufFreed := cb.id :: g.bufFreed }
      else
        .ok { g with
          capFreelistCount := g.capFreelistCount + 1
          capFreelist := cb :: g.capFreelist }

/-- `cap_buffer_alloc` -/
def capBufferAlloc (msgType : BitVec 16) (packet : List Byte) (env : HookEnv) (g : Cap) :
    Except Oops (Cap × Option CapBuffer) := do
  let (g, popped) := freelistPop g
  let (g, cb?) := if popped.isSome then (g, popped) else capKmalloc env.kmalloc g
  match cb? with
  | none =>
      -- `goto err` with `cb == NULL`
      let g ← capBufferFree none g
      return (g, none)
  | some cb =>
      match capFill msgType packet env.mem cb g with
      | (g, cb, true) => return (g, some cb)
      | (g, cb, false) =>
          let g ← capBufferFree (some cb) g
          return (g, none)

/-! ## The queueing hook -/

/-- `nlh->nlmsg_len = skb->len` -/
def setNlmsgLen (skb : SkBuff) : SkBuff :=
  { skb with data := overwrite 0 (leBytes 4 (BitVec.ofNat 32 skb.data.length).toNat) skb.data }

/-- Rewrite the length, `skb_queue_tail`, `cb->skb = NULL`. -/
def capEnqueue (cb : CapBuffer) (g : Cap) : Cap × CapBuffer :=
  match cb.skb with
  | none => (g, cb)
  | some skb =>
      ({ g with capSkbQueue := g.capSkbQueue ++ [setNlmsgLen skb] }, { cb with skb := none })

/-- `hook_func_queue` on a linear packet, run without interruption.  The verdict
    is always `NF_ACCEPT`. -/
def hookFuncQueue (packet : List Byte) (env : HookEnv) (g : Cap) : Except Oops Cap :=
  if g.ctl.capNlkPortid = 0 then .ok g
  else do
    let (g, cb?) ← capBufferAlloc nlmsgDone packet env g
    match cb? with
    | none => return g
    | some cb =>
        let (rate, admitted) := capRateCheck env.jiffies g.rate
        let g := { g with rate }
        -- over the limit: neither the buffer nor its skb is freed
        if admitted = 0 then return g
        else
          let (g, cb) := capEnqueue cb g
          capBufferFree (some cb) g

/-! ## The direct hook -/

/-- `cap_make_reply` -/
def capMakeReply (id : Nat) (portid seq : BitVec 32) (msgType : BitVec 16) (done multi : Bool)
    (payload : List Byte) (mem : Option SkbMem) : Option SkBuff :=
  let flags := if multi then nlmFMulti else 0
  let t := if done then nlmsgDone else msgType
  match buildMsg id payload.length mem portid seq t flags payload with
  | .built skb => some skb
  | _ => none

/-- The environment of one slot of `hook_func`'s loop: what `nlmsg_new` gets and
    what `netlink_unicast` returns. -/
structure ReplyEnv where
  mem : Option SkbMem
  unicast : Int

/-- What `hook_func` has done so far: the table and the messages it passed to
    `netlink_unicast`, with their destinations. -/
structure HookFunc where
  users : Users
  sent : List (SkBuff × BitVec 32)

/-- One iteration of `hook_func`'s loop. -/
def hookFuncSlot (packet : List Byte) (env : Nat → ReplyEnv) (s : HookFunc) (i : Nat) : HookFunc :=
  match s.users.usrtab.slots[i]? with
  | none => s
  | some slot =>
      if slot.pid ≠ 0 then
        match capMakeReply i slot.pid 0 nlmsgDone true false packet (env i).mem with
        | none => s
        | some tmp =>
            let sent := s.sent ++ [(tmp, slot.pid)]
            -- the table is cleared under the loop that walks it
            if (env i).unicast = negEconnrefused then
              { users := deleteAllUser s.users, sent }
            else { s with sent }
      else s

/-- `hook_func`: the slots are visited in order, each as the table is then. -/
def hookFunc (packet : List Byte) (env : Nat → ReplyEnv) (u : Users) : HookFunc :=
  (List.range maxTabSize).foldl (hookFuncSlot packet env) { users := u, sent := [] }

/-! ## What the pieces leave alone -/

theorem freelistPop_frame (g : Cap) :
    (freelistPop g).1.ctl = g.ctl ∧ (freelistPop g).1.capSkbQueue = g.capSkbQueue := by
  unfold freelistPop
  split <;> exact ⟨rfl, rfl⟩

theorem capKmalloc_frame (ok : Bool) (g : Cap) :
    (capKmalloc ok g).1.ctl = g.ctl ∧ (capKmalloc ok g).1.capSkbQueue = g.capSkbQueue := by
  unfold capKmalloc
  split <;> exact ⟨rfl, rfl⟩

theorem capBufferFree_frame {cb : Option CapBuffer} {g g' : Cap}
    (h : capBufferFree cb g = .ok g') :
    g'.ctl = g.ctl ∧ g'.capSkbQueue = g.capSkbQueue := by
  cases cb with
  | none => cases h
  | some cb =>
      simp only [capBufferFree] at h
      split at h <;> cases h <;> exact ⟨rfl, rfl⟩

/-- The message `cap_buffer_alloc` and `cap_make_reply` build for a packet. -/
def capturedMsg (portid : BitVec 32) (msgType : BitVec 16) (packet : List Byte) : List Byte :=
  wireMsg (nlmsgHdrlen + packet.length) portid 0 msgType 0 packet

/-- A filled buffer holds the message stamped with the portid of this moment. -/
theorem capFill_spec (msgType : BitVec 16) (packet : List Byte) (mem : Option SkbMem)
    (cb : CapBuffer) (g : Cap) :
    (capFill msgType packet mem cb g).1.ctl = g.ctl ∧
      (capFill msgType packet mem cb g).1.capSkbQueue = g.capSkbQueue ∧
      ((capFill msgType packet mem cb g).2.2 = true → ∃ skb,
        (capFill msgType packet mem cb g).2.1.skb = some skb ∧
        skb.data = capturedMsg g.ctl.capNlkPortid msgType packet) := by
  unfold capFill
  split
  case h_1 => exact ⟨rfl, rfl, fun h => by cases h⟩
  case h_2 => exact ⟨rfl, rfl, fun h => by cases h⟩
  case h_3 skb hbuilt => exact ⟨rfl, rfl, fun _ => ⟨skb, rfl, (buildMsg_built hbuilt).1⟩⟩

/-! ## One undisturbed call of the queueing hook -/

/-- `cap_buffer_alloc` returns a buffer only with a complete message in it. -/
theorem capBufferAlloc_ok {msgType : BitVec 16} {packet : List Byte} {env : HookEnv}
    {g g' : Cap} {cb? : Option CapBuffer}
    (h : capBufferAlloc msgType packet env g = .ok (g', cb?)) :
    g'.ctl = g.ctl ∧ g'.capSkbQueue = g.capSkbQueue ∧
      ∀ cb, cb? = some cb → ∃ skb, cb.skb = some skb ∧
        skb.data = capturedMsg g.ctl.capNlkPortid msgType packet := by
  have hpop := freelistPop_frame g
  have hkm := capKmalloc_frame env.kmalloc (freelistPop g).1
  -- the state and the buffer after the freelist and, if that was empty, `kmalloc`
  obtain ⟨g₁, c₁, hpair, hctl, hq⟩ : ∃ g₁ c₁,
      (if (freelistPop g).2.isSome then ((freelistPop g).1, (freelistPop g).2)
        else capKmalloc env.kmalloc (freelistPop g).1) = (g₁, c₁) ∧
      g₁.ctl = g.ctl ∧ g₁.capSkbQueue = g.capSkbQueue := by
    split
    · exact ⟨_, _, rfl, hpop.1, hpop.2⟩
    · exact ⟨_, _, rfl, hkm.1.trans hpop.1, hkm.2.trans hpop.2⟩
  simp only [capBufferAlloc, hpair] at h
  cases c₁ with
  | none => cases h
  | some cb =>
      obtain ⟨hfctl, hfq, hbuilt⟩ := capFill_spec msgType packet env.mem cb g₁
      rw [hctl] at hfctl hbuilt
      rw [hq] at hfq
      rcases hfill : capFill msgType packet env.mem cb g₁ with ⟨g₂, cb₂, built⟩
      simp only [hfill] at h hfctl hfq hbuilt
      cases built with
      | true =>
          cases h
          exact ⟨hfctl, hfq, fun c hc => by cases hc; exact hbuilt rfl⟩
      | false =>
          simp only [bind, Except.bind] at h
          split at h
          · cases h
          · rename_i g₃ hfree
            cases h
            have hfr := capBufferFree_frame hfree
            exact ⟨hfr.1.trans hfctl, hfr.2.trans hfq, fun c hc => by cases hc⟩

/-- The message on the queue: the captured one with `nlmsg_len` rewritten to the
    length of the skb, padding included. -/
def queuedMsg (portid : BitVec 32) (packet : List Byte) : List Byte :=
  wireMsg (nlmsgTotalSize packet.length) portid 0 nlmsgDone 0 packet

theorem setNlmsgLen_data {skb : SkBuff} {portid : BitVec 32} {packet : List Byte}
    (h : skb.data = capturedMsg portid nlmsgDone packet) :
    (setNlmsgLen skb).data = queuedMsg portid packet := by
  simp only [setNlmsgLen, h, capturedMsg, length_wireMsg, queuedMsg]
  exact overwrite_len_wireMsg _ _ _ _ _ _ _

/-- `hook_func_queue` leaves the command state alone and adds at most one message
    to the queue: the packet, stamped with `cap_nlk_portid`. -/
theorem hookFuncQueue_ok {packet : List Byte} {env : HookEnv} {g g' : Cap}
    (h : hookFuncQueue packet env g = .ok g') :
    g'.ctl = g.ctl ∧ (g'.capSkbQueue = g.capSkbQueue ∨
      ∃ m, g'.capSkbQueue = g.capSkbQueue ++ [m] ∧
        m.data = queuedMsg g.ctl.capNlkPortid packet) := by
  unfold hookFuncQueue at h
  split at h
  · cases h
    exact ⟨rfl, Or.inl rfl⟩
  · simp only [bind, Except.bind] at h
    split at h
    · cases h
    · rename_i res hres
      obtain ⟨g₁, cb?⟩ := res
      obtain ⟨hctl, hq, hcb⟩ := capBufferAlloc_ok hres
      cases cb? with
      | none =>
          cases h
          exact ⟨hctl, Or.inl hq⟩
      | some cb =>
          obtain ⟨skb, hskb, hdata⟩ := hcb cb rfl
          simp only [capEnqueue, hskb] at h
          split at h
          · cases h
            exact ⟨hctl, Or.inl hq⟩
          · have hfr := capBufferFree_frame h
            refine ⟨hfr.1.trans hctl, Or.inr ⟨setNlmsgLen skb, ?_, setNlmsgLen_data hdata⟩⟩
            rw [hfr.2, hq]

/-- The message a call of `hook_func_queue` put on the queue. -/
theorem hookFuncQueue_enqueued {packet : List Byte} {env : HookEnv} {g g' : Cap} {m : SkBuff}
    (hq : hookFuncQueue packet env g = .ok g') (hm : g'.capSkbQueue = g.capSkbQueue ++ [m]) :
    m.data = queuedMsg g.ctl.capNlkPortid packet := by
  rcases (hookFuncQueue_ok hq).2 with hsame | ⟨m', hm', hdata⟩
  · rw [hsame] at hm
    exact absurd hm (by simp)
  · rw [hm'] at hm
    obtain rfl : m' = m := by simpa using hm
    exact hdata

/-! ## The two encoders compared -/

/-- What `hook_func` passes to `netlink_unicast` is the captured message of the
    slot it is for, and goes to that slot's pid. -/
theorem hookFunc_sent {packet : List Byte} {env : Nat → ReplyEnv} {u : Users} {d : SkBuff}
    {p : BitVec 32} (h : (d, p) ∈ (hookFunc packet env u).sent) :
    p ≠ 0 ∧ d.data = capturedMsg p nlmsgDone packet := by
  -- one slot sends at most one message, and a good one
  have hstep : ∀ (s : HookFunc) (i : Nat),
      (∀ e ∈ s.sent, e.2 ≠ 0 ∧ e.1.data = capturedMsg e.2 nlmsgDone packet) →
      ∀ e ∈ (hookFuncSlot packet env s i).sent,
        e.2 ≠ 0 ∧ e.1.data = capturedMsg e.2 nlmsgDone packet := by
    intro s i hs
    unfold hookFuncSlot
    split
    case h_1 => exact hs
    case h_2 slot _ =>
      by_cases hpid : slot.pid = 0
      · simpa [hpid] using hs
      · simp only [ne_eq, hpid, not_false_eq_true, if_true]
        split
        case h_1 => exact hs
        case h_2 tmp htmp =>
          have hnew : tmp.data = capturedMsg slot.pid nlmsgDone packet := by
            simp only [capMakeReply, if_true, Bool.false_eq_true, if_false] at htmp
            split at htmp
            · rename_i skb hbuilt
              cases htmp
              exact (buildMsg_built hbuilt).1
            · cases htmp
          have hall : ∀ e ∈ s.sent ++ [(tmp, slot.pid)],
              e.2 ≠ 0 ∧ e.1.data = capturedMsg e.2 nlmsgDone packet := by
            intro e he
            rcases List.mem_append.mp he with he | he
            · exact hs e he
            · obtain rfl := List.mem_singleton.mp he
              exact ⟨hpid, hnew⟩
          -- a refused send clears the table but has been made all the same
          split <;> exact hall
  exact run_invariant hstep (s := { users := u, sent := [] }) (by simp) _ (d, p) h

/-- The message the queueing hook enqueues for a listener equals the one the
    direct hook sends to a slot with the same pid exactly when the packet's
    length is a multiple of 4: otherwise the queued `nlmsg_len` counts the
    padding. -/
theorem queued_eq_direct_iff {packet : List Byte} (hlen : packet.length ≤ maxSkbBufsize)
    {g g' : Cap} {env : HookEnv} {m : SkBuff} {p : BitVec 32} (hp : g.ctl.capNlkPortid = p)
    (hq : hookFuncQueue packet env g = .ok g') (hm : g'.capSkbQueue = g.capSkbQueue ++ [m])
    {u : Users} {renv : Nat → ReplyEnv} {d : SkBuff}
    (hd : (d, p) ∈ (hookFunc packet renv u).sent) :
    m.data = d.data ↔ packet.length % 4 = 0 := by
  have hdata := hookFuncQueue_enqueued hq hm
  rw [hp] at hdata
  have hle : packet.length ≤ 2000 := hlen
  have hhdr : nlmsgHdrlen = 16 := rfl
  have hsize : nlmsgTotalSize packet.length = (16 + packet.length + 3) / 4 * 4 := rfl
  -- the two differ at most in `nlmsg_len`, which is far from wrapping
  rw [hdata, (hookFunc_sent hd).2, queuedMsg, capturedMsg,
    wireMsg_eq_iff (by omega) (by omega)]
  omega

/-- The globals of an idle module whose capture target is `portid`. -/
def capListening (portid : BitVec 32) : Cap where
  ctl := { usrtab := .empty, usrcnt := 0, capNlkPortid := portid, kcapdTask := some 1 }
  capSkbQueue := []
  capFreelist := []
  capFreelistCount := 0
  rate := { capRateLimit := 0, hz := 100, lastCheck := 0, packets := 0 }
  bufAllocs := 0
  bufFreed := []
  skbAllocs := 0
  skbFreed := []

/-- Every allocation succeeds. -/
def calmEnv : HookEnv where
  kmalloc := true
  mem := some { slack := 0, stale := fun _ => 0xaa }
  jiffies := 0

/-- Every allocation and every send succeeds. -/
def calmReplies : Nat → ReplyEnv := fun _ => { mem := some ⟨0, fun _ => 0x55⟩, unicast := 0 }

theorem queued_eq_direct_iff_twelve_bytes : ∃ g' m d,
    hookFuncQueue (List.replicate 12 1) calmEnv (capListening 7) = .ok g' ∧
      g'.capSkbQueue = [m] ∧
      (d, 7) ∈ (hookFunc (List.replicate 12 1) calmReplies (userJoin 7 ⟨.empty, 0⟩).1).sent ∧
      m.data = d.data := by
  obtain ⟨g', m, d, hq, hm, hd⟩ : ∃ g' m d,
      hookFuncQueue (List.replicate 12 1) calmEnv (capListening 7) = .ok g' ∧
      g'.capSkbQueue = [m] ∧
      (d, 7) ∈ (hookFunc (List.replicate 12 1) calmReplies (userJoin 7 ⟨.empty, 0⟩).1).sent :=
    ⟨_, _, _, rfl, rfl, List.mem_cons_self⟩
  exact ⟨g', m, d, hq, hm, hd,
    (queued_eq_direct_iff (by decide) rfl hq hm hd).mpr (by decide)⟩

/-- For a 13-byte packet the two messages differ in `nlmsg_len`: 32 and 29. -/
theorem queued_ne_direct_thirteen_bytes : ∃ g' m d,
    hookFuncQueue (List.replicate 13 1) calmEnv (capListening 7) = .ok g' ∧
      g'.capSkbQueue = [m] ∧
      (d, 7) ∈ (hookFunc (List.replicate 13 1) calmReplies (userJoin 7 ⟨.empty, 0⟩).1).sent ∧
      m.data ≠ d.data ∧ field 0 4 m.data = 32 ∧ field 0 4 d.data = 29 :=
  ⟨_, _, _, rfl, rfl, List.mem_cons_self, by decide, by decide, by decide⟩

end LinuxModules.Netlink
