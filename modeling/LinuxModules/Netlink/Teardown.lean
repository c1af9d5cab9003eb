/-
  LinuxModules.Netlink.Teardown

  Unloading: `app_exit` releases the socket and unregisters the hook, and does
  nothing else.

  What is left then depends on the history.  kcapd is started by the first
  admitted message and never stopped; if a `BUG_ON` has killed it, it had a
  message to send, so a buffer was allocated and is still on the freelist.
  Hence nothing is left exactly if kcapd was never started.
-/

import LinuxModules.Netlink.Freelist

namespace LinuxModules.Netlink

open LinuxModules.Lib LinuxModules.Net

/-! ## Unloading -/

/-- How far `app_exit` is: the socket is released; the hook is taken off the list
    and the executions in progress are waited for; it has returned. -/
inductive ExitPc where
  | released
  | unhooked
  | exited
deriving DecidableEq

/-- The system while `app_exit` runs and after it. -/
structure Unloading where
  sys : Sys
  pc : ExitPc

inductive ExitEvent where
  | exit
  | sys (e : SysEvent)

/-- The steps of `app_exit` after `netlink_kernel_release`, interleaved with those
    of the system.  No message arrives at a released socket, no execution enters
    through an unregistered hook, and `nf_unregister_hook` returns only when those
    in progress have. -/
def exitStep (m : Unloading) : ExitEvent → Unloading
  | .exit =>
      match m.pc with
      | .released => { m with pc := .unhooked }
      | .unhooked => if m.sys.hooks.isEmpty then { m with pc := .exited } else m
      | .exited => m
  -- no message reaches a released socket
  | .sys (.client _ _) => m
  | .sys (.hookEnter packet) =>
      if m.pc = .released then { m with sys := sysStep m.sys (.hookEnter packet) } else m
  | .sys (.hook i env) => { m with sys := sysStep m.sys (.hook i env) }
  | .sys (.kcapd i err) => { m with sys := sysStep m.sys (.kcapd i err) }

/-- The thread can still take a step. -/
def KcapdPc.running : KcapdPc → Bool
  | .bug => false
  | _ => true

/-- No thread runs, queue and freelist are empty, and the hook is unregistered. -/
def NothingLeft (m : Unloading) : Prop :=
  (∀ pc ∈ m.sys.kcapd, pc.running = false) ∧ m.sys.g.capSkbQueue = [] ∧
    m.sys.g.capFreelist = [] ∧ m.pc ≠ .released

/-! ## What a run leaves behind -/

/-- A step frees a buffer only when the list is full, and otherwise loses none. -/
theorem PoolStep.kept {p p' : Pool} {pc : HookPc} {next : Option HookPc}
    (h : PoolStep 0 p pc p' next) (hp : p.Tidy) :
    (p'.freed = p.freed ∧ p'.freelist.length + total (fun pc => pc.held.length) next.toList ≥
      p.freelist.length + pc.held.length) ∨ capMaxfree ≤ p'.freelist.length := by
  have hcount := hp.count
  cases h with
  | kfree cb l n a f hfull =>
      simp only at hcount
      exact Or.inr (by simp only; omega)
  | drop _ _ hlimit => exact absurd rfl hlimit
  | _ =>
      refine Or.inl ⟨rfl, ?_⟩
      simp [HookPc.held]

/-- Only an execution past the test of `cap_nlk_portid` allocates. -/
theorem PoolStep.allocs_cases {limit : BitVec 32} {p p' : Pool} {pc : HookPc}
    {next : Option HookPc} (h : PoolStep limit p pc p' next) :
    p.allocs ≤ p'.allocs ∧ (p'.allocs = p.allocs ∨ pc.captures) := by
  cases h with
  | malloc l n a f packet => exact ⟨Nat.le_succ a, Or.inr rfl⟩
  | _ => exact ⟨le_refl _, Or.inl rfl⟩

/-- What is true of every reachable state and decides what unloading leaves. -/
structure Traces (s : Sys) : Prop where
  queued : Queued s
  pooled : ∃ peak, Pooled s peak
  kept : s.g.bufFreed ≠ [] →
    capMaxfree ≤ (s.g.capFreelist.length + total (fun pc => pc.held.length) s.hooks : Nat)
  allocs : s.g.bufAllocs ≠ 0 → s.kcapd ≠ []
  dead : (∃ pc ∈ s.kcapd, pc.running = false) → s.sent ≠ []
  enqueued : s.enqueued ≠ [] → s.g.bufAllocs ≠ 0

theorem traces_sysStart {rate : RateState} (h : rate.capRateLimit = 0) :
    Traces (sysStart rate) where
  queued := queued_sysStart rate
  pooled := ⟨0, pooled_sysStart h⟩
  kept := fun hne => absurd rfl hne
  allocs := fun hne => absurd rfl hne
  dead := by simp [sysStart]
  enqueued := fun hne => absurd rfl hne

/-- A buffer in somebody's hands has been allocated. -/
theorem Pooled.allocs_ne_zero {s : Sys} {peak : Nat} (h : Pooled s peak) {pc : HookPc}
    (hmem : pc ∈ s.hooks) (hheld : pc.held ≠ []) : s.g.bufAllocs ≠ 0 := by
  intro hzero
  have hids := h.ids
  have hallocs : s.g.pool.allocs = 0 := hzero
  obtain ⟨i, hi, rfl⟩ := List.getElem_of_mem hmem
  rw [hallocs, Multiset.range_zero, total_of_getElem? HookPc.heldIds (List.getElem?_eq_getElem hi)]
    at hids
  -- counting both sides is enough
  have hcard := congrArg Multiset.card hids
  simp only [Multiset.card_add, Multiset.card_zero, HookPc.heldIds, Multiset.coe_card,
    List.length_map] at hcard
  exact hheld (List.length_eq_zero_iff.mp (by omega))

/-- A step of a hook execution, field by field. -/
theorem Traces.hook {s : Sys} (hs : Traces s) {i : Nat} {pc : HookPc} (hpc : s.hooks[i]? = some pc)
    (env : HookEnv) (hqueued : Queued (sysStep s (.hook i env)))
    (hpooled : ∃ peak, Pooled (sysStep s (.hook i env)) peak) :
    Traces (sysStep s (.hook i env)) := by
  obtain ⟨peak, hpool⟩ := hs.pooled
  have hmem : pc ∈ s.hooks := List.mem_of_getElem? hpc
  obtain ⟨hstep, -⟩ := hookStep_poolStep env s.g pc
  rw [hpool.limit] at hstep
  refine ⟨hqueued, hpooled, ?_, ?_, ?_, ?_⟩
  all_goals simp only [sysStep, hpc]
  · intro hfreed
    have hkept := hs.kept
    rw [total_of_getElem? _ hpc] at hkept
    rw [total_putHook _ hpc]
    rcases hstep.kept hpool.tidy with ⟨hsame, hge⟩ | hfull
    · have hold := hkept (by rw [← show _ = s.g.bufFreed from hsame]; exact hfreed)
      have hge' : s.g.capFreelist.length + pc.held.length ≤
          (hookStep env s.g pc).1.capFreelist.length +
            total (fun pc => pc.held.length) (hookStep env s.g pc).2.toList := hge
      omega
    · have hfull' : capMaxfree ≤ (hookStep env s.g pc).1.capFreelist.length := hfull
      omega
  · intro hne
    rcases hstep.allocs_cases.2 with hsame | hcap
    · exact hs.allocs (by rw [← show _ = s.g.bufAllocs from hsame]; exact hne)
    · exact hs.queued.started (Or.inr (Or.inr ⟨pc, hmem, hcap⟩))
  · exact hs.dead
  · intro hne
    have hle : s.g.bufAllocs ≤ (hookStep env s.g pc).1.bufAllocs := hstep.allocs_cases.1
    have hpos : s.g.bufAllocs ≠ 0 := by
      by_cases hold : s.enqueued = []
      · -- the message queued now comes out of a buffer
        rw [hold, List.nil_append] at hne
        refine hpool.allocs_ne_zero hmem fun hnone => hne ?_
        cases pc with
        | queueing cb => cases hnone
        | _ => rfl
      · exact hs.enqueued hold
    omega

/-- A thread dies only in a step that sends. -/
theorem kcapdStep_dead {err : Int} {g : Cap} {pc : KcapdPc}
    (h : (kcapdStep err g pc).2.running = false) :
    pc.running = false ∨ ∀ portid, pc.sends portid ≠ [] := by
  cases pc with
  | idle =>
      simp only [kcapdStep] at h
      split at h <;> cases h
  | holding skb => exact Or.inr fun _ => List.cons_ne_nil _ _
  | refused skb => cases h
  | bug => exact Or.inl rfl

/-- A step of kcapd: the pool stays as it is. -/
theorem Traces.kcapd {s : Sys} (hs : Traces s) {i : Nat} {pc : KcapdPc}
    (hpc : s.kcapd[i]? = some pc) (err : Int) (hqueued : Queued (sysStep s (.kcapd i err)))
    (hpooled : ∃ peak, Pooled (sysStep s (.kcapd i err)) peak) :
    Traces (sysStep s (.kcapd i err)) := by
  obtain ⟨hpool, -⟩ := kcapdStep_pool err s.g pc
  have hfree : (kcapdStep err s.g pc).1.capFreelist = s.g.capFreelist :=
    congrArg Pool.freelist hpool
  have hfreed : (kcapdStep err s.g pc).1.bufFreed = s.g.bufFreed := congrArg Pool.freed hpool
  have hallocs : (kcapdStep err s.g pc).1.bufAllocs = s.g.bufAllocs := congrArg Pool.allocs hpool
  refine ⟨hqueued, hpooled, ?_, ?_, ?_, ?_⟩
  all_goals simp only [sysStep, hpc]
  · rw [hfree, hfreed]
    exact hs.kept
  · rw [hallocs]
    intro hne hnil
    exact hs.allocs hne (by simpa using hnil)
  · rintro ⟨pc', hmem, hdead⟩ hnil
    obtain ⟨hsent, hsends⟩ := List.append_eq_nil_iff.mp hnil
    rcases List.mem_or_eq_of_mem_set hmem with hold | rfl
    · exact hs.dead ⟨pc', hold, hdead⟩ hsent
    · rcases kcapdStep_dead hdead with hdead' | hsend
      · exact hs.dead ⟨pc, List.mem_of_getElem? hpc, hdead'⟩ hsent
      · exact hsend _ hsends
  · rw [hallocs]
    exact hs.enqueued

theorem traces_sysStep {s : Sys} (e : SysEvent) (hs : Traces s) : Traces (sysStep s e) := by
  have hqueued := queued_sysStep e hs.queued
  have hpooled : ∃ peak, Pooled (sysStep s e) peak := by
    obtain ⟨peak, hpool⟩ := hs.pooled
    have hstart : Pooled (s, peak).1 (s, peak).2 := hpool
    exact ⟨_, pooled_peakStep e hstart⟩
  cases e with
  | client kt h =>
      refine ⟨hqueued, hpooled, hs.kept, ?_, ?_, hs.enqueued⟩
      · intro hne hnil
        exact hs.allocs hne (List.append_eq_nil_iff.mp hnil).1
      · rintro ⟨pc, hmem, hdead⟩
        -- a thread that has just been started is not dead
        rcases List.mem_append.mp hmem with hold | hnew
        · exact hs.dead ⟨pc, hold, hdead⟩
        · obtain ⟨-, -, rfl⟩ := List.mem_map.mp hnew
          cases hdead
  | hookEnter packet =>
      refine ⟨hqueued, hpooled, ?_, hs.allocs, hs.dead, hs.enqueued⟩
      simp only [sysStep, total_append, total_singleton]
      exact hs.kept
  | hook i env =>
      cases hpc : s.hooks[i]? with
      | none => simpa only [sysStep, hpc] using hs
      | some pc => exact hs.hook hpc env hqueued hpooled
  | kcapd i err =>
      cases hpc : s.kcapd[i]? with
      | none => simpa only [sysStep, hpc] using hs
      | some pc => exact hs.kcapd hpc err hqueued hpooled

/-! ## Nothing left -/

/-- With no execution in progress. -/
theorem nothing_left_iff {s : Sys} (hs : Traces s) (hnone : s.hooks = []) :
    ((∀ pc ∈ s.kcapd, pc.running = false) ∧ s.g.capSkbQueue = [] ∧ s.g.capFreelist = []) ↔
      s.g.ctl.kcapdTask = none := by
  obtain ⟨peak, hpool⟩ := hs.pooled
  have hids := hpool.ids
  rw [hnone, total_nil, add_zero] at hids
  have hcard : s.g.capFreelist.length + s.g.bufFreed.length = s.g.bufAllocs := by
    have h := congrArg Multiset.card hids
    simpa [Pool.ids, Cap.pool] using h
  rw [hs.queued.task_iff]
  constructor
  · rintro ⟨hdead, -, hfree⟩
    by_contra hne
    -- the thread is dead, so it has sent, so a buffer was allocated
    obtain ⟨pc, hmem⟩ := List.exists_mem_of_ne_nil _ hne
    have hsent : s.sent ≠ [] := hs.dead ⟨pc, hmem, hdead pc hmem⟩
    have henq : s.enqueued ≠ [] := by
      rw [← hs.queued.fifo]
      simp [hsent]
    have hallocs := hs.enqueued henq
    rw [hfree, List.length_nil] at hcard
    have hfreed : s.g.bufFreed ≠ [] := fun h => by simp [h] at hcard; omega
    -- all buffers freed: but the list must have been full then
    have hkept := hs.kept hfreed
    rw [hfree, hnone, List.length_nil, total_nil] at hkept
    exact absurd hkept (by decide)
  · intro hnil
    -- without a thread no execution has come far enough to allocate or to queue
    have hzero : s.g.bufAllocs = 0 := by
      by_contra hne
      exact hs.allocs hne hnil
    have hqueue : s.g.capSkbQueue = [] := by
      by_contra hne
      exact hs.queued.started (Or.inr (Or.inl hne)) hnil
    refine ⟨by simp [hnil], hqueue, List.length_eq_zero_iff.mp (by omega)⟩

/-- What `app_exit` keeps: the traces of the past, the thread, and, once it has
    returned, that no execution is in progress. -/
structure Exiting (task : Option Task) (m : Unloading) : Prop where
  traces : Traces m.sys
  kcapdTask : m.sys.g.ctl.kcapdTask = task
  quiet : m.pc = .exited → m.sys.hooks = []

theorem exiting_exitStep {task : Option Task} {m : Unloading} (e : ExitEvent)
    (hm : Exiting task m) : Exiting task (exitStep m e) := by
  match e with
  | .exit =>
      simp only [exitStep]
      split
      case h_1 => exact ⟨hm.traces, hm.kcapdTask, fun h => by cases h⟩
      case h_2 =>
        split
        case isTrue hempty => exact ⟨hm.traces, hm.kcapdTask, fun _ => List.isEmpty_iff.mp hempty⟩
        case isFalse => exact hm
      case h_3 => exact hm
  | .sys (.client _ _) => exact hm
  | .sys (.hookEnter packet) =>
      simp only [exitStep]
      split
      case isTrue hrel =>
        refine ⟨traces_sysStep (.hookEnter packet) hm.traces, hm.kcapdTask, fun h => ?_⟩
        rw [show m.pc = .exited from h] at hrel
        cases hrel
      case isFalse => exact hm
  | .sys (.hook i env) =>
      refine ⟨traces_sysStep (.hook i env) hm.traces, ?_, fun h => ?_⟩
      · cases hpc : m.sys.hooks[i]? with
        | none => simpa only [exitStep, sysStep, hpc] using hm.kcapdTask
        | some pc =>
            simp only [exitStep, sysStep, hpc]
            rw [(hookStep_frame env m.sys.g pc).1]
            exact hm.kcapdTask
      · have hnone := hm.quiet h
        simp only [exitStep, sysStep, hnone, List.getElem?_nil]
  | .sys (.kcapd i err) =>
      cases hpc : m.sys.kcapd[i]? with
      | none => simpa only [exitStep, sysStep, hpc] using hm
      | some pc =>
          have htraces := traces_sysStep (.kcapd i err) hm.traces
          simp only [sysStep, hpc] at htraces
          simp only [exitStep, sysStep, hpc]
          exact ⟨htraces, (kcapdStep_frame err m.sys.g pc).1.trans hm.kcapdTask, hm.quiet⟩

/-- From every reachable state, however the last steps of the system fall between
    those of `app_exit`: when it has returned nothing is left exactly if
    `kcapd_task` was NULL when it was called. -/
theorem app_exit_leaves_nothing_iff {rate : RateState} (hrate : rate.capRateLimit = 0)
    (life : List SysEvent) (events : List ExitEvent)
    (hexit : (run exitStep ⟨run sysStep (sysStart rate) life, .released⟩ events).pc = .exited) :
    NothingLeft (run exitStep ⟨run sysStep (sysStart rate) life, .released⟩ events) ↔
      (run sysStep (sysStart rate) life).g.ctl.kcapdTask = none := by
  have htraces : Traces (run sysStep (sysStart rate) life) :=
    run_invariant (fun _ e => traces_sysStep e) (traces_sysStart hrate) life
  have hm : Exiting (run sysStep (sysStart rate) life).g.ctl.kcapdTask
      (run exitStep ⟨run sysStep (sysStart rate) life, .released⟩ events) :=
    run_invariant (fun _ e => exiting_exitStep e) ⟨htraces, rfl, fun h => by cases h⟩ events
  generalize run exitStep ⟨run sysStep (sysStart rate) life, .released⟩ events = m at hm hexit ⊢
  rw [← hm.kcapdTask, ← nothing_left_iff hm.traces (hm.quiet hexit)]
  simp only [NothingLeft, hexit, ne_eq, reduceCtorEq, not_false_eq_true, and_true]

/-- A packet passes while nobody listens, and the module is unloaded. -/
theorem app_exit_leaves_nothing_unused :
    noLimit.capRateLimit = 0 ∧
      (run exitStep ⟨run sysStep (sysStart noLimit) [.hookEnter [1], .hook 0 calmEnv], .released⟩
        [.exit, .exit]).pc = .exited ∧
      NothingLeft (run exitStep
        ⟨run sysStep (sysStart noLimit) [.hookEnter [1], .hook 0 calmEnv], .released⟩
        [.exit, .exit]) :=
  ⟨rfl, rfl, (app_exit_leaves_nothing_iff rfl _ _ rfl).mpr rfl⟩

/-- One client and one captured packet: after `app_exit` kcapd is still there,
    with the packet on its queue and the buffer on the freelist. -/
theorem app_exit_leaves_thread_and_packet :
    (let m := run exitStep
      ⟨run sysStep (sysStart noLimit) ([.client (.task 1) (capMsg 0 7)] ++ captureOne [1, 2, 3]),
        .released⟩ [.exit, .exit]
     m.pc = .exited ∧ m.sys.kcapd.map KcapdPc.running = [true] ∧
       m.sys.g.capSkbQueue.length = 1 ∧ m.sys.g.capFreelist.length = 1) ∧
    ¬ NothingLeft (run exitStep
      ⟨run sysStep (sysStart noLimit) ([.client (.task 1) (capMsg 0 7)] ++ captureOne [1, 2, 3]),
        .released⟩ [.exit, .exit]) := by
  have hqueue : (run exitStep
      ⟨run sysStep (sysStart noLimit) ([.client (.task 1) (capMsg 0 7)] ++ captureOne [1, 2, 3]),
        .released⟩ [.exit, .exit]).sys.g.capSkbQueue.length = 1 := by decide +kernel
  refine ⟨by decide +kernel, fun h => ?_⟩
  rw [h.2.1] at hqueue
  cases hqueue

end LinuxModules.Netlink
