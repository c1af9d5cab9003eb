/-
  LinuxModules.Netlink.Wakeup

  `System` with the sleep of kcapd and the wakeups of the hooks spelled out: an
  execution of `hook_func_queue` queues its message in one step and calls
  `wake_up_interruptible(&kcapd_wait)` in the next, and kcapd enters
  `wait_event_freezable` when it finds the queue empty (`Lib.WaitEvent`).

  * `toSys_wakeStep`: every step is one of `System` or is not seen there.
  * `no_lost_wakeup`: while kcapd sleeps with messages on the queue, an execution
    is between its `skb_queue_tail` and its `wake_up_interruptible`.
  * `captures_are_delivered`: when no more packets and commands come, the threads
    come to rest after a bounded number of steps, and then every queued message
    has been sent, unless a thread died or kcapd is kept inside `netlink_unicast`.

  `netlink_unicast` is called with `nonblock` 0 and sleeps while the receiver's
  buffer is full.  A step of kcapd from `holding` is the return of that call: a
  call that does not return is a thread at `holding` for which no such step comes
  (`Stalled`).  Left out is the freezer: no system suspend.
-/

import LinuxModules.Lib.Progress
import LinuxModules.Lib.Total
import LinuxModules.Lib.WaitEvent
import LinuxModules.Netlink.Delivery

namespace LinuxModules.Netlink

open LinuxModules.Lib LinuxModules.Net

/-! ## The threads -/

/-- An execution of `hook_func_queue`; `owesWake` between `skb_queue_tail` and
    `wake_up_interruptible`. -/
structure HookThread where
  pc : HookPc
  owesWake : Bool

/-- kcapd is in the body of its loop or inside `wait_event_freezable`. -/
inductive KcapdThread where
  | loop (pc : KcapdPc)
  | waiting (w : Wait)

/-- `wake_up_interruptible(&kcapd_wait)`. -/
def KcapdThread.wake : KcapdThread → KcapdThread
  | .loop pc => .loop pc
  | .waiting w => .waiting w.wake

/-- The condition kcapd waits for: `skb_queue_len(&cap_skb_queue)`. -/
def Cap.ready (g : Cap) : Bool := !g.capSkbQueue.isEmpty

/-- One step of the thread; `err` is what `netlink_unicast` returns if it is
    called. -/
def threadStep (err : Int) (g : Cap) : KcapdThread → Cap × KcapdThread
  | .loop .idle =>
      -- `skb_dequeue` found nothing
      if g.capSkbQueue = [] then (g, .waiting .testing)
      else ((kcapdStep err g .idle).1, .loop (kcapdStep err g .idle).2)
  | .loop pc => ((kcapdStep err g pc).1, .loop (kcapdStep err g pc).2)
  | .waiting w =>
      match w.step g.ready with
      | none => (g, .loop .idle)
      | some w' => (g, .waiting w')

/-- In the terms of `System`, a thread that waits is at the top of its loop. -/
def KcapdThread.pc : KcapdThread → KcapdPc
  | .loop pc => pc
  | .waiting _ => .idle

/-- What the thread sends in a step from here. -/
def KcapdThread.sends (portid : BitVec 32) (t : KcapdThread) : List (SkBuff × BitVec 32) :=
  t.pc.sends portid

/-- The thread makes no step until it is woken. -/
def KcapdThread.Blocked (t : KcapdThread) : Prop := t = .waiting (.sleeping false)

/-! ## The system -/

structure WakeSys where
  g : Cap
  hooks : List HookThread
  kcapd : List KcapdThread
  enqueued : List SkBuff
  sent : List (SkBuff × BitVec 32)
  retired : List SkBuff

/-- The step from `queueing` leaves the wakeup to do. -/
def HookPc.queues : HookPc → Bool
  | .queueing _ => true
  | _ => false

/-- The executions after number `i` made a step to `pc`. -/
def putThread (hooks : List HookThread) (i : Nat) (owesWake : Bool) :
    Option HookPc → List HookThread
  | some pc => hooks.set i ⟨pc, owesWake⟩
  | none => hooks.eraseIdx i

def wakeStep (s : WakeSys) : SysEvent → WakeSys
  | .client kt h =>
      let r := capReceiveMsg kt s.g.ctl h
      { s with
        g := { s.g with ctl := r.ctl }
        kcapd := s.kcapd ++ r.started.map fun _ => .loop .idle }
  | .hookEnter packet => { s with hooks := s.hooks ++ [⟨.entered packet, false⟩] }
  | .hook i env =>
      match s.hooks[i]? with
      | none => s
      | some ⟨pc, true⟩ =>
          { s with
            hooks := s.hooks.set i ⟨pc, false⟩
            kcapd := s.kcapd.map KcapdThread.wake }
      | some ⟨pc, false⟩ =>
          { s with
            g := (hookStep env s.g pc).1
            hooks := putThread s.hooks i pc.queues (hookStep env s.g pc).2
            enqueued := s.enqueued ++ pc.enqueues }
  | .kcapd i err =>
      match s.kcapd[i]? with
      | none => s
      | some t =>
          { s with
            g := (threadStep err s.g t).1
            kcapd := s.kcapd.set i (threadStep err s.g t).2
            sent := s.sent ++ t.sends s.g.ctl.capNlkPortid
            retired := s.retired ++ t.pc.retires err }

def wakeStart (rate : RateState) : WakeSys where
  g := (sysStart rate).g
  hooks := []
  kcapd := []
  enqueued := []
  sent := []
  retired := []

/-! ## The view of `System` -/

def WakeSys.toSys (s : WakeSys) : Sys where
  g := s.g
  hooks := s.hooks.map HookThread.pc
  kcapd := s.kcapd.map KcapdThread.pc
  enqueued := s.enqueued
  sent := s.sent
  retired := s.retired

theorem KcapdThread.pc_wake (t : KcapdThread) : t.wake.pc = t.pc := by
  cases t <;> rfl

theorem map_pc_putThread (hooks : List HookThread) (i : Nat) (owesWake : Bool)
    (next : Option HookPc) :
    (putThread hooks i owesWake next).map HookThread.pc =
      putHook (hooks.map HookThread.pc) i next := by
  cases next with
  | none => exact (List.eraseIdx_map ..).symm
  | some pc => exact List.map_set ..

/-- A kcapd step is one of `kcapdStep`, or one inside the wait: nothing but the
    position in the wait changes. -/
theorem threadStep_cases (err : Int) (g : Cap) (t : KcapdThread) :
    ((threadStep err g t).1 = (kcapdStep err g t.pc).1 ∧
        (threadStep err g t).2.pc = (kcapdStep err g t.pc).2) ∨
      ((threadStep err g t).1 = g ∧ t.pc = .idle ∧ (threadStep err g t).2.pc = .idle) := by
  cases t with
  | loop pc =>
      cases pc with
      | idle =>
          by_cases hnil : g.capSkbQueue = []
          · rw [threadStep, if_pos hnil]
            exact Or.inr ⟨rfl, rfl, rfl⟩
          · rw [threadStep, if_neg hnil]
            exact Or.inl ⟨rfl, rfl⟩
      | _ => exact Or.inl ⟨rfl, rfl⟩
  | waiting w =>
      right
      simp only [threadStep]
      cases w.step g.ready <;> exact ⟨rfl, rfl, rfl⟩

/-- Every step is a step of `System`, or `System` does not see it. -/
theorem toSys_wakeStep (s : WakeSys) (e : SysEvent) :
    (wakeStep s e).toSys = sysStep s.toSys e ∨ (wakeStep s e).toSys = s.toSys := by
  cases e with
  | client kt h =>
      left
      simp only [wakeStep, sysStep, WakeSys.toSys, List.map_append, List.map_map]
      rfl
  | hookEnter packet =>
      left
      simp only [wakeStep, sysStep, WakeSys.toSys, List.map_append, List.map_cons, List.map_nil]
  | hook i env =>
      cases hget : s.hooks[i]? with
      | none =>
          right
          simp only [wakeStep, hget]
      | some h =>
          obtain ⟨pc, owes⟩ := h
          have hpc : (s.hooks.map HookThread.pc)[i]? = some pc := by
            rw [List.getElem?_map, hget]
            rfl
          cases owes with
          | true =>
              -- the wakeup
              right
              have hhooks : (s.hooks.set i ⟨pc, false⟩).map HookThread.pc =
                  s.hooks.map HookThread.pc := by
                rw [List.map_set]
                exact set_eq_self hpc
              have hkcapd : (s.kcapd.map KcapdThread.wake).map KcapdThread.pc =
                  s.kcapd.map KcapdThread.pc := by
                rw [List.map_map]
                exact List.map_congr_left fun t _ => t.pc_wake
              simp only [wakeStep, hget, WakeSys.toSys, hhooks, hkcapd]
          | false =>
              left
              simp only [wakeStep, sysStep, hget, WakeSys.toSys, hpc, map_pc_putThread]
  | kcapd i err =>
      cases hget : s.kcapd[i]? with
      | none =>
          right
          simp only [wakeStep, hget]
      | some t =>
          have hpc : (s.kcapd.map KcapdThread.pc)[i]? = some t.pc := by
            rw [List.getElem?_map, hget]
            rfl
          rcases threadStep_cases err s.g t with ⟨hg, hnext⟩ | ⟨hg, hidle, hnext⟩
          · left
            simp only [wakeStep, sysStep, hget, WakeSys.toSys, hpc, hg, List.map_set, hnext,
              KcapdThread.sends]
          · right
            have hkcapd : (s.kcapd.set i (threadStep err s.g t).2).map KcapdThread.pc =
                s.kcapd.map KcapdThread.pc := by
              rw [List.map_set, hnext, ← hidle]
              exact set_eq_self hpc
            simp only [wakeStep, hget, WakeSys.toSys, hg, hkcapd, KcapdThread.sends, hidle,
              KcapdPc.sends, KcapdPc.retires, List.append_nil]

/-- What every step of `System` keeps holds here too. -/
theorem queued_wakeStep {s : WakeSys} (e : SysEvent) (hs : Queued s.toSys) :
    Queued (wakeStep s e).toSys := by
  rcases toSys_wakeStep s e with hstep | hstep
  · rw [hstep]
    exact queued_sysStep e hs
  · rw [hstep]
    exact hs

/-! ## No wakeup is lost -/

/-- A thread that sleeps while messages wait is about to be woken. -/
def WakeOwed (s : WakeSys) : Prop :=
  (∃ t ∈ s.kcapd, t.Blocked) → s.g.capSkbQueue = [] ∨ ∃ h ∈ s.hooks, h.owesWake = true

theorem KcapdThread.not_blocked_wake (t : KcapdThread) : ¬ t.wake.Blocked := by
  cases t with
  | loop pc => simp [KcapdThread.wake, KcapdThread.Blocked]
  | waiting w =>
      intro h
      exact w.not_blocked_wake (KcapdThread.waiting.inj h)

/-- A thread falls asleep on an empty queue only. -/
theorem threadStep_blocked {err : Int} {g : Cap} {t : KcapdThread}
    (h : (threadStep err g t).2.Blocked) : t.Blocked ∨ g.capSkbQueue = [] := by
  cases t with
  | loop pc =>
      cases pc with
      | idle =>
          by_cases hnil : g.capSkbQueue = []
          · exact Or.inr hnil
          · rw [threadStep, if_neg hnil] at h
            cases h
      | _ => cases h
  | waiting w =>
      simp only [threadStep] at h
      cases hstep : w.step g.ready with
      | none =>
          rw [hstep] at h
          cases h
      | some w' =>
          rw [hstep] at h
          rcases Wait.step_blocked hstep (KcapdThread.waiting.inj h) with hb | hready
          · exact Or.inl (congrArg KcapdThread.waiting hb)
          · exact Or.inr (by simpa [Cap.ready] using hready)

/-- A kcapd step only takes from the queue. -/
theorem threadStep_queue {err : Int} {g : Cap} {t : KcapdThread} (h : g.capSkbQueue = []) :
    (threadStep err g t).1.capSkbQueue = [] := by
  rcases threadStep_cases err g t with ⟨hg, -⟩ | ⟨hg, -, -⟩
  · rw [hg]
    cases hpc : t.pc with
    | idle => simp only [kcapdStep, h]
    | holding skb =>
        simp only [kcapdStep]
        split
        · split <;> exact h
        · exact h
    | refused skb => exact h
    | bug => exact h
  · rw [hg]
    exact h

/-- An execution other than the one that moves still owes what it owed. -/
theorem owesWake_set {hooks : List HookThread} {i : Nat} {pc : HookPc}
    (hget : hooks[i]? = some ⟨pc, false⟩) (owes : Bool) (next : Option HookPc)
    (h : ∃ t ∈ hooks, t.owesWake = true) :
    ∃ t ∈ putThread hooks i owes next, t.owesWake = true := by
  obtain ⟨t, hmem, howes⟩ := h
  obtain ⟨j, hj⟩ := List.mem_iff_getElem?.mp hmem
  have hne : i ≠ j := by
    rintro rfl
    rw [hget] at hj
    cases hj
    cases howes
  cases next with
  | some pc' =>
      refine ⟨t, List.mem_iff_getElem?.mpr ⟨j, ?_⟩, howes⟩
      rw [putThread, List.getElem?_set_ne hne]
      exact hj
  | none =>
      refine ⟨t, ?_, howes⟩
      rw [putThread, List.mem_eraseIdx_iff_getElem?]
      exact ⟨j, hne.symm, hj⟩

theorem wakeOwed_wakeStep {s : WakeSys} (e : SysEvent) (hs : WakeOwed s) :
    WakeOwed (wakeStep s e) := by
  cases e with
  | client kt h =>
      rintro ⟨t, hmem, hb⟩
      apply hs
      simp only [wakeStep, List.mem_append, List.mem_map] at hmem
      rcases hmem with hmem | ⟨x, -, rfl⟩
      · exact ⟨t, hmem, hb⟩
      · cases hb
  | hookEnter packet =>
      intro hb
      refine (hs hb).imp_right ?_
      rintro ⟨t, hmem, howes⟩
      exact ⟨t, List.mem_append_left _ hmem, howes⟩
  | hook i env =>
      cases hget : s.hooks[i]? with
      | none =>
          simp only [wakeStep, hget]
          exact hs
      | some h =>
          obtain ⟨pc, owes⟩ := h
          cases owes with
          | true =>
              -- after a wakeup nobody sleeps
              simp only [WakeOwed, wakeStep, hget]
              rintro ⟨t, hmem, hb⟩
              obtain ⟨t', -, rfl⟩ := List.mem_map.mp hmem
              exact absurd hb t'.not_blocked_wake
          | false =>
              simp only [WakeOwed, wakeStep, hget]
              intro hb
              obtain ⟨-, hq⟩ := hookStep_frame env s.g pc
              rcases hs hb with hnil | howed
              · cases pc with
                | queueing cb =>
                    -- the message is on the queue and its wakeup is owed
                    obtain ⟨hi, -⟩ := List.getElem?_eq_some_iff.mp hget
                    exact Or.inr ⟨_, List.mem_set hi _, rfl⟩
                | _ =>
                    left
                    rw [hq, hnil]
                    rfl
              · exact Or.inr (owesWake_set hget _ _ howed)
  | kcapd i err =>
      cases hget : s.kcapd[i]? with
      | none =>
          simp only [wakeStep, hget]
          exact hs
      | some t =>
          simp only [WakeOwed, wakeStep, hget]
          rintro ⟨t', hmem, hb⟩
          have hsleeps : (∃ t ∈ s.kcapd, t.Blocked) ∨ s.g.capSkbQueue = [] := by
            rcases List.mem_or_eq_of_mem_set hmem with hin | rfl
            · exact Or.inl ⟨t', hin, hb⟩
            · exact (threadStep_blocked hb).imp_left fun h =>
                ⟨t, List.mem_of_getElem? hget, h⟩
          rcases hsleeps with hblocked | hnil
          · exact (hs hblocked).imp_left threadStep_queue
          · exact Or.inl (threadStep_queue hnil)

/-- In every state of every run: if kcapd sleeps and no wakeup has come, the queue
    is empty or an execution of the hook has queued a message and is about to call
    `wake_up_interruptible`. -/
theorem no_lost_wakeup (rate : RateState) (events : List SysEvent) :
    Along wakeStep WakeOwed (wakeStart rate) events := by
  have hstart : WakeOwed (wakeStart rate) := fun _ => Or.inl rfl
  exact along_of_step (fun s e _ => wakeOwed_wakeStep e) hstart
    (guarded_of_forall fun _ _ _ => trivial)

/-! ## The threads come to rest -/

/-- Steps of the threads that are there; no new packet and no command. -/
def Internal : SysEvent → Prop
  | .hook _ _ | .kcapd _ _ => True
  | _ => False

/-- A bound on the steps an execution still makes, those it causes in kcapd
    included: seven for a message it will queue, four for a wakeup. -/
def HookPc.work : HookPc → Nat
  | .entered _ => 18
  | .popping _ => 17
  | .mallocing _ => 16
  | .filling _ _ => 15
  | .checking _ => 14
  | .queueing _ => 13
  | .freeing _ => 1
  | .oopsed => 0

def HookThread.work (h : HookThread) : Nat := h.pc.work + if h.owesWake then 4 else 0

def KcapdThread.work (ready : Bool) : KcapdThread → Nat
  | .loop .idle => if ready then 0 else 4
  | .loop (.holding _) => 6
  | .loop (.refused _) => 5
  | .loop .bug => 0
  | .waiting w => w.rank ready

def WakeSys.work (s : WakeSys) : Nat :=
  total HookThread.work s.hooks + 7 * s.g.capSkbQueue.length +
    total (KcapdThread.work s.g.ready) s.kcapd

theorem total_putThread {hooks : List HookThread} {i : Nat} {h : HookThread}
    (hget : hooks[i]? = some h) (owes : Bool) (next : Option HookPc) :
    total HookThread.work (putThread hooks i owes next) + h.work =
      total HookThread.work hooks +
        (next.map fun pc => HookThread.work ⟨pc, owes⟩).getD 0 := by
  rw [total_of_getElem? HookThread.work hget]
  cases next with
  | none =>
      simp only [putThread, Option.map_none, Option.getD_none]
      omega
  | some pc =>
      rw [putThread, total_set HookThread.work hget]
      simp only [Option.map_some, Option.getD_some]
      omega

/-- What a step of an execution leaves to do, with the message it queues. -/
theorem hookStep_work (env : HookEnv) (g : Cap) (pc : HookPc) :
    pc = .oopsed ∨
      ((hookStep env g pc).2.map fun pc' => HookThread.work ⟨pc', pc.queues⟩).getD 0 +
        7 * pc.enqueues.length < pc.work := by
  have hmove := hookStep_moves env g pc
  generalize hookStep env g pc = r at hmove
  cases hmove with
  | dead => exact Or.inl rfl
  | queueNone cb hskb =>
      right
      simp [HookPc.enqueues, hskb, HookThread.work, HookPc.work, HookPc.queues]
  | queue cb hskb =>
      right
      simp [HookPc.enqueues, hskb, HookThread.work, HookPc.work, HookPc.queues]
  | _ =>
      right
      simp [HookPc.enqueues, HookThread.work, HookPc.work, HookPc.queues]

theorem work_idle_le (ready : Bool) : KcapdThread.work ready (.loop .idle) ≤ 4 := by
  cases ready <;> decide

theorem KcapdThread.work_ready_le (t : KcapdThread) (ready : Bool) :
    t.work true ≤ t.work ready := by
  cases t with
  | loop pc => cases pc <;> cases ready <;> simp [KcapdThread.work]
  | waiting w => exact w.rank_ready_le ready

theorem KcapdThread.work_wake_le (t : KcapdThread) (ready : Bool) :
    t.wake.work ready ≤ t.work ready + 3 := by
  cases t with
  | loop pc => exact Nat.le_add_right _ _
  | waiting w => exact w.rank_wake_le ready

/-- A kcapd step brings the thread closer to its sleep, or it sleeps or is dead. -/
theorem threadStep_work (err : Int) (g : Cap) (t : KcapdThread) :
    t.Blocked ∨ t = .loop .bug ∨
      7 * (threadStep err g t).1.capSkbQueue.length +
          (threadStep err g t).2.work (threadStep err g t).1.ready <
        7 * g.capSkbQueue.length + t.work g.ready := by
  cases t with
  | loop pc =>
      cases pc with
      | idle =>
          right; right
          cases hq : g.capSkbQueue with
          | nil => simp [threadStep, hq, KcapdThread.work, Cap.ready, Wait.rank]
          | cons skb rest =>
              simp only [threadStep, hq, kcapdStep, KcapdThread.work, Cap.ready]
              simp
              omega
      | holding skb =>
          right; right
          have hidle := work_idle_le g.ready
          simp only [threadStep, kcapdStep]
          split
          · split <;> simp [KcapdThread.work]
          · show 7 * g.capSkbQueue.length + KcapdThread.work g.ready (.loop .idle) <
              7 * g.capSkbQueue.length + 6
            omega
      | refused skb =>
          right; right
          have hidle := work_idle_le g.ready
          show 7 * g.capSkbQueue.length + KcapdThread.work g.ready (.loop .idle) <
            7 * g.capSkbQueue.length + 5
          omega
      | bug => exact Or.inr (Or.inl rfl)
  | waiting w =>
      simp only [threadStep]
      cases hstep : w.step g.ready with
      | none =>
          right; right
          have hready := Wait.ready_of_step_none hstep
          have hrank := Wait.one_le_rank_of_step_none hstep
          simp only [KcapdThread.work]
          rw [hready] at hrank ⊢
          simp only [if_true]
          omega
      | some w' =>
          rcases Wait.rank_step hstep with hlt | ⟨hb, -⟩
          · right; right
            simp only [KcapdThread.work]
            omega
          · exact Or.inl (congrArg KcapdThread.waiting hb)

/-- With at most one thread, a step of a thread that is not the end of it takes
    away from the work. -/
theorem work_wakeStep {s : WakeSys} {e : SysEvent} (he : Internal e) (hs : Queued s.toSys)
    (hne : wakeStep s e ≠ s) : (wakeStep s e).work < s.work := by
  have hone : s.kcapd.length ≤ 1 := by simpa [WakeSys.toSys] using hs.single
  cases e with
  | client kt h => exact he.elim
  | hookEnter packet => exact he.elim
  | hook i env =>
      cases hget : s.hooks[i]? with
      | none => simp only [wakeStep, hget, ne_eq, not_true_eq_false] at hne
      | some h =>
          obtain ⟨pc, owes⟩ := h
          cases owes with
          | true =>
              -- the wakeup gives kcapd at most three more steps
              have hhooks := total_putThread hget false (some pc)
              have hkcapd : total (KcapdThread.work s.g.ready) (s.kcapd.map KcapdThread.wake) ≤
                  total (KcapdThread.work s.g.ready) s.kcapd + 3 := by
                cases hk : s.kcapd with
                | nil => exact Nat.zero_le _
                | cons t rest =>
                    rw [hk, List.length_cons] at hone
                    obtain rfl : rest = [] := List.length_eq_zero_iff.mp (by omega)
                    simpa using t.work_wake_le s.g.ready
              simp only [wakeStep, hget, WakeSys.work]
              simp only [putThread, HookThread.work, Option.map_some, Option.getD_some, if_true,
                Bool.false_eq_true, if_false] at hhooks
              omega
          | false =>
              have hhooks := total_putThread hget pc.queues (hookStep env s.g pc).2
              obtain ⟨-, hq⟩ := hookStep_frame env s.g pc
              rcases hookStep_work env s.g pc with rfl | hlt
              · -- a dead execution stays where it is
                refine absurd ?_ hne
                simp only [wakeStep, hget, hookStep, putThread, HookPc.queues, HookPc.enqueues,
                  List.append_nil, set_eq_self hget]
              · have hkcapd : total (KcapdThread.work (hookStep env s.g pc).1.ready) s.kcapd ≤
                    total (KcapdThread.work s.g.ready) s.kcapd := by
                  by_cases hnil : pc.enqueues = []
                  · rw [Cap.ready, hq, hnil, List.append_nil]
                    exact Nat.le_refl _
                  · have hready : (hookStep env s.g pc).1.ready = true := by
                      simp [Cap.ready, hq, hnil]
                    rw [hready]
                    exact List.sum_le_sum fun t _ => t.work_ready_le s.g.ready
                simp only [wakeStep, hget, WakeSys.work, hq, List.length_append]
                simp only [HookThread.work, Bool.false_eq_true, if_false] at hhooks hlt
                omega
  | kcapd i err =>
      cases hget : s.kcapd[i]? with
      | none => simp only [wakeStep, hget, ne_eq, not_true_eq_false] at hne
      | some t =>
          obtain ⟨hi, -⟩ := List.getElem?_eq_some_iff.mp hget
          obtain ⟨t', hk⟩ := List.length_eq_one_iff.mp (by omega : s.kcapd.length = 1)
          obtain rfl : i = 0 := by omega
          rw [hk] at hget
          obtain rfl : t' = t := Option.some.inj hget
          have hsame : ∀ w, (threadStep err s.g t') = (s.g, t') → t'.pc.sends w = [] →
              t'.pc.retires err = [] → wakeStep s (.kcapd 0 err) = s := by
            intro w heq hsends hretires
            have hsends' : t'.sends s.g.ctl.capNlkPortid = [] := by
              revert hsends
              rw [KcapdThread.sends]
              cases t'.pc <;> simp [KcapdPc.sends]
            simp only [wakeStep, hk, List.getElem?_cons_zero, heq, List.set_cons_zero, hsends',
              hretires, List.append_nil]
            rw [← hk]
          rcases threadStep_work err s.g t' with hb | hbug | hlt
          · subst hb
            exact absurd (hsame 0 rfl rfl rfl) hne
          · subst hbug
            exact absurd (hsame 0 rfl rfl rfl) hne
          · simp only [wakeStep, hk, List.getElem?_cons_zero, List.set_cons_zero, WakeSys.work,
              total_singleton]
            omega

/-! ## At rest everything has been sent -/

/-- `kmalloc` succeeds, and `netlink_unicast` fails only when nobody listens. -/
def Benign : SysEvent → Prop
  | .hook _ env => env.kmalloc = true
  | .kcapd _ err => 0 ≤ err ∨ err = negEconnrefused
  | _ => True

/-- No execution dereferenced NULL and kcapd did not hit its `BUG_ON`. -/
structure Healthy (s : WakeSys) : Prop where
  hooks : ∀ h ∈ s.hooks, h.pc ≠ .oopsed
  kcapd : ∀ t ∈ s.kcapd, t ≠ .loop .bug

theorem hookStep_ne_oopsed {env : HookEnv} {g : Cap} {pc pc' : HookPc} (hok : env.kmalloc = true)
    (hpc : pc ≠ .oopsed) (h : (hookStep env g pc).2 = some pc') : pc' ≠ .oopsed := by
  rintro rfl
  have hmove := hookStep_moves env g pc
  generalize hr : hookStep env g pc = r at hmove h
  cases hmove with
  | oops packet =>
      -- only after a failed `kmalloc`
      simp only [hookStep, capKmalloc, hok, if_true] at hr
      cases (Prod.mk.inj hr).2
  | dead => exact hpc rfl
  | _ => cases h

theorem threadStep_ne_bug {err : Int} {g : Cap} {t : KcapdThread}
    (hok : 0 ≤ err ∨ err = negEconnrefused) (ht : t ≠ .loop .bug) :
    (threadStep err g t).2 ≠ .loop .bug := by
  intro h
  cases t with
  | loop pc =>
      cases pc with
      | idle =>
          simp only [threadStep, kcapdStep] at h
          split at h
          · cases h
          · split at h <;> cases h
      | holding skb =>
          simp only [threadStep, kcapdStep] at h
          split at h
          case isTrue hneg =>
            rw [if_neg (not_not.mpr (hok.resolve_left (Int.not_le.mpr hneg)))] at h
            cases h
          case isFalse => cases h
      | refused skb => cases h
      | bug => exact ht rfl
  | waiting w =>
      simp only [threadStep] at h
      split at h <;> cases h

theorem healthy_wakeStep {s : WakeSys} {e : SysEvent} (he : Benign e) (hs : Healthy s) :
    Healthy (wakeStep s e) := by
  cases e with
  | client kt h =>
      refine ⟨hs.hooks, fun t hmem => ?_⟩
      simp only [wakeStep, List.mem_append, List.mem_map] at hmem
      rcases hmem with hmem | ⟨x, -, rfl⟩
      · exact hs.kcapd t hmem
      · simp
  | hookEnter packet =>
      refine ⟨fun h hmem => ?_, hs.kcapd⟩
      rcases List.mem_append.mp hmem with hmem | hmem
      · exact hs.hooks h hmem
      · rw [List.mem_singleton.mp hmem]
        simp
  | hook i env =>
      cases hget : s.hooks[i]? with
      | none =>
          simp only [wakeStep, hget]
          exact hs
      | some h =>
          have hpc : h.pc ≠ .oopsed := hs.hooks h (List.mem_of_getElem? hget)
          obtain ⟨pc, owes⟩ := h
          cases owes with
          | true =>
              simp only [wakeStep, hget]
              refine ⟨fun h hmem => ?_, fun t hmem => ?_⟩
              · rcases List.mem_or_eq_of_mem_set hmem with hin | rfl
                · exact hs.hooks h hin
                · exact hpc
              · obtain ⟨t', hin, rfl⟩ := List.mem_map.mp hmem
                cases t' with
                | loop pc => exact hs.kcapd _ hin
                | waiting w => simp [KcapdThread.wake]
          | false =>
              simp only [wakeStep, hget]
              refine ⟨fun h hmem => ?_, hs.kcapd⟩
              cases hnext : (hookStep env s.g pc).2 with
              | none =>
                  rw [hnext] at hmem
                  exact hs.hooks h (List.mem_of_mem_eraseIdx hmem)
              | some pc' =>
                  rw [hnext] at hmem
                  rcases List.mem_or_eq_of_mem_set hmem with hin | rfl
                  · exact hs.hooks h hin
                  · exact hookStep_ne_oopsed he hpc hnext
  | kcapd i err =>
      cases hget : s.kcapd[i]? with
      | none =>
          simp only [wakeStep, hget]
          exact hs
      | some t =>
          simp only [wakeStep, hget]
          refine ⟨hs.hooks, fun t' hmem => ?_⟩
          rcases List.mem_or_eq_of_mem_set hmem with hin | rfl
          · exact hs.kcapd t' hin
          · exact threadStep_ne_bug he (hs.kcapd t (List.mem_of_getElem? hget))

/-- The events of a system that gets no more packets and commands. -/
def Settling (e : SysEvent) : Prop := Internal e ∧ Benign e

/-- What holds in every state of a benign run. -/
structure Sound (s : WakeSys) : Prop where
  queued : Queued s.toSys
  owed : WakeOwed s
  healthy : Healthy s

theorem sound_wakeStep (s : WakeSys) (e : SysEvent) (he : Benign e) (hs : Sound s) :
    Sound (wakeStep s e) :=
  ⟨queued_wakeStep e hs.queued, wakeOwed_wakeStep e hs.owed, healthy_wakeStep he hs.healthy⟩

theorem sound_wakeStart (rate : RateState) : Sound (wakeStart rate) where
  queued := queued_sysStart rate
  owed := fun _ => Or.inl rfl
  healthy := ⟨fun _ hmem => absurd hmem List.not_mem_nil, fun _ hmem => absurd hmem List.not_mem_nil⟩

/-- The event is the return of a `netlink_unicast` kcapd is in. -/
def WakeSys.Returns (s : WakeSys) : SysEvent → Prop
  | .client _ _ => False
  | .hookEnter _ => False
  | .hook _ _ => False
  | .kcapd i _ => ∃ skb, s.kcapd[i]? = some (.loop (.holding skb))

/-- Nothing moves any more unless a `netlink_unicast` returns. -/
def Stalled (s : WakeSys) : Prop := ∀ e, Settling e → ¬ s.Returns e → wakeStep s e = s

/-- Every message that was ever queued has been sent. -/
def Delivered (s : WakeSys) : Prop :=
  s.g.capSkbQueue = [] ∧ s.sent.map Prod.fst = s.enqueued

/-- kcapd is in the `netlink_unicast` of a message; sent are the messages queued
    before it, and still on the queue those behind it. -/
def HeldUp (s : WakeSys) : Prop :=
  ∃ skb, s.kcapd = [.loop (.holding skb)] ∧
    s.sent.map Prod.fst ++ skb :: s.g.capSkbQueue = s.enqueued

theorem stalled_of_still {s : WakeSys} (h : Still wakeStep Settling s) : Stalled s :=
  fun e he _ => h e he

/-- No execution of the hook is left when nothing moves. -/
theorem hooks_of_stalled {s : WakeSys} (hs : Sound s) (h : Stalled s) : s.hooks = [] := by
  cases hh : s.hooks with
  | nil => rfl
  | cons t rest =>
      exfalso
      have hget : s.hooks[0]? = some t := by rw [hh, List.getElem?_cons_zero]
      have hstill := h (.hook 0 calmEnv) ⟨trivial, rfl⟩ id
      have hlive : t.pc ≠ .oopsed := hs.healthy.hooks t (List.mem_of_getElem? hget)
      obtain ⟨pc, owes⟩ := t
      -- in both cases the work of the executions has become less
      cases owes with
      | true =>
          have hwork := total_putThread hget false (some pc)
          have hsame : putThread s.hooks 0 false (some pc) = s.hooks := by
            simpa only [wakeStep, hget, putThread] using congrArg WakeSys.hooks hstill
          rw [hsame] at hwork
          simp [HookThread.work] at hwork
      | false =>
          have hwork := total_putThread hget pc.queues (hookStep calmEnv s.g pc).2
          have hsame : putThread s.hooks 0 pc.queues (hookStep calmEnv s.g pc).2 = s.hooks := by
            simpa only [wakeStep, hget] using congrArg WakeSys.hooks hstill
          have hlt := (hookStep_work calmEnv s.g pc).resolve_left hlive
          rw [hsame] at hwork
          simp only [HookThread.work, Bool.false_eq_true, if_false] at hwork hlt
          omega

/-- A live thread that a step leaves as it is sleeps in its wait. -/
theorem blocked_of_still {s : WakeSys} {t : KcapdThread} (hs : Sound s) (hk : s.kcapd = [t])
    (h : wakeStep s (.kcapd 0 0) = s) : t.Blocked := by
  have hget : s.kcapd[0]? = some t := by rw [hk, List.getElem?_cons_zero]
  rcases threadStep_work 0 s.g t with hb | hbug | hlt
  · exact hb
  · exact absurd hbug (hs.healthy.kcapd t (List.mem_of_getElem? hget))
  · -- a step that makes the work less changes the state
    exfalso
    have hg : (threadStep 0 s.g t).1 = s.g := by
      simpa only [wakeStep, hget] using congrArg WakeSys.g h
    have ht : (threadStep 0 s.g t).2 = t := by
      have hset := congrArg WakeSys.kcapd h
      simpa [wakeStep, hk] using hset
    rw [hg, ht] at hlt
    exact Nat.lt_irrefl _ hlt

/-- When nothing moves, kcapd sleeps on an empty queue and has sent everything, or
    it is inside `netlink_unicast`. -/
theorem delivered_of_stalled {s : WakeSys} (hs : Sound s) (h : Stalled s) :
    Delivered s ∨ HeldUp s := by
  have hhooks := hooks_of_stalled hs h
  have hsingle : s.kcapd.length ≤ 1 := by simpa [WakeSys.toSys] using hs.queued.single
  have hfifo := hs.queued.fifo
  cases hk : s.kcapd with
  | nil =>
      left
      have hnil : s.g.capSkbQueue = [] := by
        by_contra hne
        exact hs.queued.started (Or.inr (Or.inl hne)) (by simp [WakeSys.toSys, hk])
      simp only [WakeSys.toSys, hk, hnil, List.map_nil, List.flatMap_nil, List.append_nil] at hfifo
      exact ⟨hnil, hfifo⟩
  | cons t rest =>
      rw [hk, List.length_cons] at hsingle
      obtain rfl : rest = [] := List.length_eq_zero_iff.mp (by omega)
      have hget : s.kcapd[0]? = some t := by rw [hk, List.getElem?_cons_zero]
      by_cases hsend : ∃ skb, t = .loop (.holding skb)
      · right
        obtain ⟨skb, rfl⟩ := hsend
        refine ⟨skb, hk, ?_⟩
        simpa only [WakeSys.toSys, hk, List.map_cons, List.map_nil, KcapdThread.pc,
          List.flatMap_singleton, KcapdPc.held, List.append_assoc, List.singleton_append] using hfifo
      · left
        have hno : ¬ s.Returns (.kcapd 0 0) := by
          rintro ⟨skb, hskb⟩
          rw [hget] at hskb
          exact hsend ⟨skb, Option.some.inj hskb⟩
        have hblocked := blocked_of_still hs hk (h _ ⟨trivial, Or.inl (Int.le_refl 0)⟩ hno)
        have hnil : s.g.capSkbQueue = [] := by
          rcases hs.owed ⟨t, List.mem_of_getElem? hget, hblocked⟩ with hnil | ⟨t', hmem, -⟩
          · exact hnil
          · rw [hhooks] at hmem
            exact absurd hmem List.not_mem_nil
        rw [hblocked] at hk
        simp only [WakeSys.toSys, hk, hnil, List.map_cons, List.map_nil, KcapdThread.pc,
          List.flatMap_singleton, KcapdPc.held, List.append_nil] at hfifo
        exact ⟨hnil, hfifo⟩

/-- The call of a thread at `holding` would return: it is not at rest. -/
theorem delivered_of_still {s : WakeSys} (hs : Sound s) (h : Still wakeStep Settling s) :
    Delivered s := by
  rcases delivered_of_stalled hs (stalled_of_still h) with hdel | ⟨skb, hk, -⟩
  · exact hdel
  · have hblocked := blocked_of_still hs hk (h _ ⟨trivial, Or.inl (Int.le_refl 0)⟩)
    cases hblocked

/-- Take any run in which `kmalloc` does not fail and `netlink_unicast` fails only
    with `-ECONNREFUSED`, and let no more packets and commands come.  The threads
    that are there make at most `work` more steps.  If every `netlink_unicast`
    returns, they can come to rest, and whenever they have, every execution of the
    hook has returned, the queue is empty, and kcapd has sent every message that was
    ever queued, in order.  If one need not return, the threads at rest have done
    the same or kcapd is inside that call: the messages before the one it sends have
    been sent, and those behind it are on the queue. -/
theorem captures_are_delivered (rate : RateState) (events : List SysEvent)
    (hok : ∀ e ∈ events, Benign e) :
    (∀ more, Guarded wakeStep (fun s e => Settling e ∧ wakeStep s e ≠ s)
        (run wakeStep (wakeStart rate) events) more →
      more.length ≤ (run wakeStep (wakeStart rate) events).work) ∧
    (∃ more, (∀ e ∈ more, Settling e) ∧
      Still wakeStep Settling (run wakeStep (wakeStart rate) (events ++ more))) ∧
    ∀ more, (∀ e ∈ more, Settling e) →
      (Still wakeStep Settling (run wakeStep (wakeStart rate) (events ++ more)) →
        (run wakeStep (wakeStart rate) (events ++ more)).hooks = [] ∧
          Delivered (run wakeStep (wakeStart rate) (events ++ more))) ∧
      (Stalled (run wakeStep (wakeStart rate) (events ++ more)) →
        (run wakeStep (wakeStart rate) (events ++ more)).hooks = [] ∧
          (Delivered (run wakeStep (wakeStart rate) (events ++ more)) ∨
            HeldUp (run wakeStep (wakeStart rate) (events ++ more)))) := by
  have hsound : ∀ es : List SysEvent, (∀ e ∈ es, Benign e) →
      Sound (run wakeStep (wakeStart rate) es) :=
    fun es hes => run_of_forall sound_wakeStep (sound_wakeStart rate) hes
  have hkeep : ∀ s e, Settling e → Sound s → Sound (wakeStep s e) :=
    fun s e he hs => sound_wakeStep s e he.2 hs
  have hdec : ∀ s e, Settling e → Sound s → wakeStep s e ≠ s →
      (wakeStep s e).work < s.work :=
    fun s e he hs hne => work_wakeStep he.1 hs.queued hne
  refine ⟨fun more hmore => ?_, ?_, fun more hmore => ?_⟩
  · have hlen := length_le_of_decreasing hkeep hdec (hsound events hok) hmore
    omega
  · obtain ⟨more, hmore, hstill⟩ := exists_still hkeep hdec (hsound events hok)
    refine ⟨more, hmore, ?_⟩
    rw [run, List.foldl_append]
    exact hstill
  · have hend : Sound (run wakeStep (wakeStart rate) (events ++ more)) := by
      apply hsound
      intro e he
      rcases List.mem_append.mp he with he | he
      · exact hok e he
      · exact (hmore e he).2
    exact ⟨fun h => ⟨hooks_of_stalled hend (stalled_of_still h), delivered_of_still hend h⟩,
      fun h => ⟨hooks_of_stalled hend h, delivered_of_stalled hend h⟩⟩

/-- Client 7 registers; a packet is captured, queued and announced. -/
def captureAnnounced : List SysEvent :=
  .client (.task 1) (capMsg 0 7) :: .hookEnter [1, 2, 3] :: List.replicate 8 (.hook 0 calmEnv)

theorem still_of_asleep {s : WakeSys} (hhooks : s.hooks = [])
    (hkcapd : s.kcapd = [.waiting (.sleeping false)]) : Still wakeStep Settling s := by
  intro e he
  cases e with
  | client kt h => exact he.1.elim
  | hookEnter packet => exact he.1.elim
  | hook i env => simp [wakeStep, hhooks]
  | kcapd i err =>
      cases i with
      | zero =>
          simp only [wakeStep, hkcapd, List.getElem?_cons_zero, threadStep, Wait.step,
            KcapdThread.sends, KcapdThread.pc, KcapdPc.sends, KcapdPc.retires, List.append_nil,
            List.set_cons_zero, Bool.false_eq_true, if_false]
          rw [← hkcapd]
      | succ i => simp [wakeStep, hkcapd]

theorem stalled_of_holding {s : WakeSys} {skb : SkBuff} (hhooks : s.hooks = [])
    (hkcapd : s.kcapd = [.loop (.holding skb)]) : Stalled s := by
  intro e he hno
  cases e with
  | client kt h => exact he.1.elim
  | hookEnter packet => exact he.1.elim
  | hook i env => simp [wakeStep, hhooks]
  | kcapd i err =>
      cases i with
      | zero => exact absurd ⟨skb, by rw [hkcapd, List.getElem?_cons_zero]⟩ hno
      | succ i => simp [wakeStep, hkcapd]

/-- Six steps of kcapd later it sleeps again, and the message has been sent; after
    the first of them it is inside `netlink_unicast`, where a receiver that does not
    read would keep it. -/
theorem captures_are_delivered_one :
    (run wakeStep (wakeStart noLimit) (captureAnnounced ++
      List.replicate 6 (SysEvent.kcapd 0 0))).enqueued.length = 1 ∧
    Delivered (run wakeStep (wakeStart noLimit) (captureAnnounced ++
      List.replicate 6 (SysEvent.kcapd 0 0))) ∧
    (run wakeStep (wakeStart noLimit) (captureAnnounced ++ [SysEvent.kcapd 0 0])).sent = [] ∧
    (Delivered (run wakeStep (wakeStart noLimit) (captureAnnounced ++ [SysEvent.kcapd 0 0])) ∨
      HeldUp (run wakeStep (wakeStart noLimit) (captureAnnounced ++ [SysEvent.kcapd 0 0]))) := by
  have hok : ∀ e ∈ captureAnnounced, Benign e := by
    simp [captureAnnounced, Benign, calmEnv]
  have hmore : ∀ n, ∀ e ∈ List.replicate n (SysEvent.kcapd 0 0), Settling e := by
    simp [Settling, Internal, Benign]
  have hstill := still_of_asleep (s := run wakeStep (wakeStart noLimit)
    (captureAnnounced ++ List.replicate 6 (SysEvent.kcapd 0 0))) rfl rfl
  have hstalled := stalled_of_holding (s := run wakeStep (wakeStart noLimit)
    (captureAnnounced ++ [SysEvent.kcapd 0 0])) rfl rfl
  have h := (captures_are_delivered noLimit captureAnnounced hok).2.2
  exact ⟨by decide +kernel, ((h _ (hmore 6)).1 hstill).2, rfl,
    ((h _ (hmore 1)).2 hstalled).2⟩

end LinuxModules.Netlink
