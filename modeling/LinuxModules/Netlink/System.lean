/-
  LinuxModules.Netlink.System

  netlink.c as a concurrent system: client messages, executions of
  `hook_func_queue` and the kcapd thread, interleaved in any order.

  * A client message is one step (it runs under `cap_cmd_mutex`).
  * Any number of hook executions are in progress; each advances by one read of
    `cap_nlk_portid`, one critical section or one call that can fail at a time
    (`HookPc`, `hookStep`).  `hookExec_eq_hookFuncQueue` ties these steps to the
    undisturbed call.
  * kcapd dequeues, sends to the `cap_nlk_portid` it then reads, and resets that
    variable in a later step if the send was refused (`KcapdPc`, `kcapdStep`).
    Every thread `kthread_run` ever started is in the list, so that there is
    only one is a theorem.

  An event that is not possible in a state leaves it unchanged.  The histories
  `enqueued`, `sent` and `retired` are never read by a step.
-/

import LinuxModules.Netlink.Capture
import LinuxModules.Netlink.TableRuns

namespace LinuxModules.Netlink

open LinuxModules.Lib LinuxModules.Net

/-! ## Hook executions -/

/-- Where an execution of `hook_func_queue` stands: before the test of
    `cap_nlk_portid`, the freelist section, `kmalloc`, the building of the
    message, `cap_rate_check`, `skb_queue_tail`, `cap_buffer_free`; or dead. -/
inductive HookPc where
  | entered (packet : List Byte)
  | popping (packet : List Byte)
  | mallocing (packet : List Byte)
  | filling (packet : List Byte) (cb : CapBuffer)
  | checking (cb : CapBuffer)
  | queueing (cb : CapBuffer)
  | freeing (cb : CapBuffer)
  | oopsed

/-- `cap_buffer_free`, then return from the hook. -/
def hookFree (cb : Option CapBuffer) (g : Cap) : Cap × Option HookPc :=
  match capBufferFree cb g with
  | .ok g' => (g', none)
  | .error _ => (g, some .oopsed)

/-- One step of a hook execution; `none` when it has returned. -/
def hookStep (env : HookEnv) (g : Cap) : HookPc → Cap × Option HookPc
  | .entered packet =>
      -- nobody listens: `NF_ACCEPT` at once
      if g.ctl.capNlkPortid = 0 then (g, none) else (g, some (.popping packet))
  | .popping packet =>
      match freelistPop g with
      | (g', some cb) => (g', some (.filling packet cb))
      | (g', none) => (g', some (.mallocing packet))
  | .mallocing packet =>
      match capKmalloc env.kmalloc g with
      | (g', some cb) => (g', some (.filling packet cb))
      -- `goto err` with `cb == NULL`
      | (g', none) => hookFree none g'
  | .filling packet cb =>
      match capFill nlmsgDone packet env.mem cb g with
      | (g', cb', true) => (g', some (.checking cb'))
      -- `out_kfree_skb` and `err`: the buffer goes back without an skb
      | (g', cb', false) => (g', some (.freeing cb'))
  | .checking cb =>
      -- over the limit the execution returns with the buffer in its hands
      let res := capRateCheck env.jiffies g.rate
      ({ g with rate := res.1 }, if res.2 = 0 then none else some (.queueing cb))
  | .queueing cb => ((capEnqueue cb g).1, some (.freeing (capEnqueue cb g).2))
  | .freeing cb => hookFree (some cb) g
  | .oopsed => (g, some .oopsed)

/-- The skb a step from here puts on the queue. -/
def HookPc.enqueues : HookPc → List SkBuff
  | .queueing cb => (cb.skb.map setNlmsgLen).toList
  | _ => []

/-! ## kcapd -/

/-- Where a kcapd thread stands: at the top of its loop, with a dequeued skb that
    is not yet sent, after a refused send, or stopped by `BUG_ON`. -/
inductive KcapdPc where
  | idle
  | holding (skb : SkBuff)
  | refused (skb : SkBuff)
  | bug

/-- One step of kcapd; `err` is what `netlink_unicast` returns if it is called.
    On an empty queue the thread waits. -/
def kcapdStep (err : Int) (g : Cap) : KcapdPc → Cap × KcapdPc
  | .idle =>
      match g.capSkbQueue with
      | [] => (g, .idle)
      | skb :: rest => ({ g with capSkbQueue := rest }, .holding skb)
  | .holding skb =>
      if err < 0 then
        -- `BUG_ON(err != -ECONNREFUSED)`
        if err ≠ negEconnrefused then (g, .bug) else (g, .refused skb)
      else (g, .idle)
  | .refused _ => ({ g with ctl := { g.ctl with capNlkPortid := 0 } }, .idle)
  | .bug => (g, .bug)

/-- The skb the thread has dequeued and not yet sent. -/
def KcapdPc.held : KcapdPc → List SkBuff
  | .holding skb => [skb]
  | _ => []

/-- The `netlink_unicast` call a step from here makes, with its destination. -/
def KcapdPc.sends (portid : BitVec 32) : KcapdPc → List (SkBuff × BitVec 32)
  | .holding skb => [(skb, portid)]
  | _ => []

/-- The skb for which `kcapd_send_reply` returns in a step from here, with the
    references left: `skb_get` took one, `netlink_unicast` dropped one, and
    `consume_skb` drops one after a successful send. -/
def KcapdPc.retires (err : Int) : KcapdPc → List SkBuff
  | .holding skb => if err < 0 then [] else [{ skb with users := skb.users + 1 - 1 - 1 }]
  | .refused skb => [{ skb with users := skb.users + 1 - 1 }]
  | _ => []

/-! ## The system -/

structure Sys where
  g : Cap
  hooks : List HookPc
  kcapd : List KcapdPc
  enqueued : List SkBuff
  sent : List (SkBuff × BitVec 32)
  retired : List SkBuff

inductive SysEvent where
  | client (kt : KthreadRun) (h : Nlmsghdr)
  | hookEnter (packet : List Byte)
  | hook (i : Nat) (env : HookEnv)
  | kcapd (i : Nat) (err : Int)

/-- The hook executions after number `i` made a step to `pc`. -/
def putHook (hooks : List HookPc) (i : Nat) : Option HookPc → List HookPc
  | some pc => hooks.set i pc
  | none => hooks.eraseIdx i

def sysStep (s : Sys) : SysEvent → Sys
  | .client kt h =>
      let r := capReceiveMsg kt s.g.ctl h
      { s with
        g := { s.g with ctl := r.ctl }
        kcapd := s.kcapd ++ r.started.map fun _ => .idle }
  | .hookEnter packet => { s with hooks := s.hooks ++ [.entered packet] }
  | .hook i env =>
      match s.hooks[i]? with
      | none => s
      | some pc =>
          { s with
            g := (hookStep env s.g pc).1
            hooks := putHook s.hooks i (hookStep env s.g pc).2
            enqueued := s.enqueued ++ pc.enqueues }
  | .kcapd i err =>
      match s.kcapd[i]? with
      | none => s
      | some pc =>
          { s with
            g := (kcapdStep err s.g pc).1
            kcapd := s.kcapd.set i (kcapdStep err s.g pc).2
            sent := s.sent ++ pc.sends s.g.ctl.capNlkPortid
            retired := s.retired ++ pc.retires err }

/-- The end of `app_init`, for any setting of the rate limiter. -/
def sysStart (rate : RateState) : Sys where
  g := { ctl := capStart
         capSkbQueue := []
         capFreelist := []
         capFreelistCount := 0
         rate
         bufAllocs := 0
         bufFreed := []
         skbAllocs := 0
         skbFreed := [] }
  hooks := []
  kcapd := []
  enqueued := []
  sent := []
  retired := []

/-! ## The steps of one hook execution, taken together -/

/-- At most `n` steps of a hook execution, nothing else moving. -/
def hookExec (env : HookEnv) : Nat → Cap → Option HookPc → Cap × Option HookPc
  | 0, g, pc => (g, pc)
  | _ + 1, g, none => (g, none)
  | n + 1, g, some pc => hookExec env n (hookStep env g pc).1 (hookStep env g pc).2

theorem hookExec_none (env : HookEnv) (n : Nat) (g : Cap) :
    hookExec env n g none = (g, none) := by
  cases n <;> rfl

/-- A hook execution that holds a buffer, run to its end: the part of
    `hook_func_queue` from the building of the message on. -/
def hookRest (packet : List Byte) (env : HookEnv) (cb : CapBuffer) (g : Cap) : Cap × Option HookPc :=
  let filled := capFill nlmsgDone packet env.mem cb g
  if filled.2.2 then
    let res := capRateCheck env.jiffies filled.1.rate
    if res.2 = 0 then ({ filled.1 with rate := res.1 }, none)
    else
      let queued := capEnqueue filled.2.1 { filled.1 with rate := res.1 }
      hookFree (some queued.2) queued.1
  else hookFree (some filled.2.1) filled.1

theorem hookFree_some (cb : CapBuffer) (g : Cap) :
    ∃ g', capBufferFree (some cb) g = .ok g' ∧ hookFree (some cb) g = (g', none) := by
  have hok : ∃ g', capBufferFree (some cb) g = .ok g' := by
    unfold capBufferFree
    dsimp only
    split <;> exact ⟨_, rfl⟩
  obtain ⟨g', hg'⟩ := hok
  exact ⟨g', hg', by simp only [hookFree, hg']⟩

theorem hookExec_freeing (env : HookEnv) (n : Nat) (cb : CapBuffer) (g : Cap) :
    hookExec env (n + 1) g (some (.freeing cb)) = hookFree (some cb) g := by
  obtain ⟨g', -, hfree⟩ := hookFree_some cb g
  simp only [hookExec, hookStep, hfree, hookExec_none]

theorem hookExec_filling (packet : List Byte) (env : HookEnv) (n : Nat) (cb : CapBuffer)
    (g : Cap) :
    hookExec env (n + 4) g (some (.filling packet cb)) = hookRest packet env cb g := by
  rcases hfill : capFill nlmsgDone packet env.mem cb g with ⟨g₁, cb₁, built⟩
  cases built with
  | false =>
      simp only [hookExec, hookStep, hookRest, hfill, Bool.false_eq_true, if_false]
      exact hookExec_freeing env (n + 2) cb₁ g₁
  | true =>
      by_cases hrate : (capRateCheck env.jiffies g₁.rate).2 = 0
      · simp only [hookExec, hookStep, hookRest, hfill, if_true, hrate, hookExec_none]
      · simp only [hookExec, hookStep, hookRest, hfill, if_true, hrate, if_false]
        exact hookExec_freeing env n _ _

/-- The undisturbed call, once it holds a buffer. -/
theorem hookFuncQueue_eq_hookRest (packet : List Byte) (env : HookEnv) {g g₁ : Cap}
    {cb : CapBuffer} (hp : g.ctl.capNlkPortid ≠ 0)
    (hcb : (if (freelistPop g).2.isSome then ((freelistPop g).1, (freelistPop g).2)
      else capKmalloc env.kmalloc (freelistPop g).1) = (g₁, some cb)) :
    hookFuncQueue packet env g = .ok (hookRest packet env cb g₁).1 ∧
      (hookRest packet env cb g₁).2 = none := by
  simp only [hookFuncQueue, hp, if_false, capBufferAlloc, hcb, hookRest]
  rcases hfill : capFill nlmsgDone packet env.mem cb g₁ with ⟨g₂, cb₂, built⟩
  cases built with
  | false =>
      obtain ⟨g', hok, hfree⟩ := hookFree_some cb₂ g₂
      simp only [hok, hfree, bind, Except.bind, pure, Except.pure, Bool.false_eq_true, if_false,
        and_self]
  | true =>
      by_cases hrate : (capRateCheck env.jiffies g₂.rate).2 = 0
      · simp only [hrate, bind, Except.bind, pure, Except.pure, if_true, and_self]
      · obtain ⟨g', hok, hfree⟩ := hookFree_some
          (capEnqueue cb₂ { g₂ with rate := (capRateCheck env.jiffies g₂.rate).1 }).2
          (capEnqueue cb₂ { g₂ with rate := (capRateCheck env.jiffies g₂.rate).1 }).1
        simp only [hrate, hok, hfree, bind, Except.bind, pure, Except.pure, if_true, if_false,
          and_self]

/-- Seven steps without interference are one call of `hook_func_queue`. -/
theorem hookExec_eq_hookFuncQueue (packet : List Byte) (env : HookEnv) (g : Cap) :
    hookExec env 7 g (some (.entered packet)) =
      match hookFuncQueue packet env g with
      | .ok g' => (g', none)
      | .error _ => (g, some .oopsed) := by
  by_cases hp : g.ctl.capNlkPortid = 0
  · simp only [hookFuncQueue, hookExec, hookStep, hp, if_true]
  · cases hlist : g.capFreelist with
    | cons cb rest =>
        have hpop : freelistPop g = ({ g with
            capFreelist := rest, capFreelistCount := g.capFreelistCount - 1 }, some cb) := by
          simp only [freelistPop, hlist]
        obtain ⟨hok, hend⟩ := hookFuncQueue_eq_hookRest packet env hp
          (by rw [hpop]; rfl)
        rw [hok]
        simp only [hookExec, hookStep, hp, if_false, hpop]
        rw [← hend]
        exact hookExec_filling packet env 1 cb _
    | nil =>
        have hpop : freelistPop g = (g, none) := by simp only [freelistPop, hlist]
        cases hkm : env.kmalloc with
        | true =>
            obtain ⟨hok, hend⟩ := hookFuncQueue_eq_hookRest packet env hp
              (by rw [hpop, hkm]; rfl)
            rw [hok]
            simp only [hookExec, hookStep, hp, if_false, hpop, hkm, capKmalloc, if_true]
            rw [← hend]
            exact hookExec_filling packet env 0 _ _
        | false =>
            -- `kmalloc` failed: `cap_buffer_free(NULL)`
            simp only [hookFuncQueue, capBufferAlloc, hookExec, hookStep, hp, hpop, hkm,
              capKmalloc, hookFree, capBufferFree, if_false, Bool.false_eq_true,
              Option.isSome_none, bind, Except.bind]

end LinuxModules.Netlink
