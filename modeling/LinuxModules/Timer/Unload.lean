/-
  LinuxModules.Timer.Unload

  `stdtimer.c`, `hrtimer.c` and `tasklet.c`: a callback and the function that
  takes it down when the module is unloaded, interleaved in any order
  (`Lib.Deferred`).

  * `my_timer_callback` arms its timer again and `timer_exit_module` calls
    `del_timer`, which does not wait: `stdtimer_unload_iff` says when that is
    enough, and that otherwise the module is freed under a pending timer or a
    running callback.
  * `my_hrtimer_callback` and `my_tasklet_func` run once, and `hrtimer_cancel` and
    `tasklet_kill` wait: `hrtimer_unload` and `tasklet_unload` hold for every run.
  * `stdtimer_counts`: the lines of `my_timer_callback` number its calls, although
    it loads `num` at its start and stores it only after it armed the timer again.
-/

import LinuxModules.Lib.Deferred
import Mathlib.Data.BitVec

namespace LinuxModules.Timer

open LinuxModules.Lib

/-! ## stdtimer.c -/

/-- What `my_timer_callback` does next; `n` is its own `num`, incremented. -/
inductive CallbackPc where
  | load
  | modTimer (n : BitVec 32)
  | store (n : BitVec 32)
  deriving DecidableEq, Repr

/-- The `num` of the module and the counts printed so far. -/
structure StdData where
  num : BitVec 32
  printed : List (BitVec 32)
  deriving DecidableEq, Repr

def myTimerBody (data : StdData) : CallbackPc → StdData × Option CallbackPc
  | .load => ({ data with printed := data.printed ++ [data.num + 1] }, some (.modTimer (data.num + 1)))
  | .modTimer n => (data, some (.store n))
  | .store n => ({ data with num := n }, none)

def CallbackPc.arms : CallbackPc → Bool
  | .modTimer _ => true
  | _ => false

/-- `mod_timer` is still ahead. -/
def CallbackPc.willArm : CallbackPc → Bool
  | .store _ => false
  | _ => true

theorem CallbackPc.willArm_of_arms (pc : CallbackPc) (h : pc.arms = true) : pc.willArm = true := by
  cases pc with
  | store n => cases h
  | _ => rfl

theorem myTimerBody_willArm (data : StdData) (pc pc' : CallbackPc)
    (h : (myTimerBody data pc).2 = some pc') (_ : pc'.willArm = true) : pc.willArm = true := by
  cases pc with
  | store n => cases h
  | _ => rfl

def myTimerCallback : Callback CallbackPc StdData where
  entry := .load
  body := myTimerBody
  arms := CallbackPc.arms
  willArm := CallbackPc.willArm
  arms_le := CallbackPc.willArm_of_arms
  body_le := myTimerBody_willArm

/-- `timer_init_module`: the timer is set up and started. -/
def timerInitModule : Deferred CallbackPc StdData where
  armed := true
  running := none
  phase := .loaded
  data := ⟨0, []⟩

/-- `timer_exit_module` is `del_timer`. -/
def timerStep : Deferred CallbackPc StdData → DeferredEvent → Deferred CallbackPc StdData :=
  deferredStep myTimerCallback Deferred.delete

/-- The callback has still to call `mod_timer`. -/
def BeforeModTimer (d : Deferred CallbackPc StdData) : Prop :=
  d.running = some .load ∨ ∃ n, d.running = some (.modTimer n)

theorem deleteOk_iff (d : Deferred CallbackPc StdData) :
    DeleteOk myTimerCallback d ↔
      (d.phase = .loaded → ¬ BeforeModTimer d) ∧ (d.phase = .leaving → d.running = none) := by
  have hwill : (∀ k, d.running = some k → myTimerCallback.willArm k = false) ↔ ¬ BeforeModTimer d := by
    unfold BeforeModTimer
    cases d.running with
    | none => simp
    | some k => cases k <;> simp [myTimerCallback, CallbackPc.willArm]
  rw [DeleteOk, hwill]

theorem rearms_myTimerCallback : Rearms myTimerCallback where
  entry := rfl
  next := by
    intro data k hwill harms
    cases k with
    | load => exact ⟨_, rfl, rfl⟩
    | modTimer n => cases harms
    | store n => cases hwill

/-- What `timer_exit_module` needs at each of its two steps: `del_timer` is not
    called while a callback has its `mod_timer` still ahead, and the module is not
    freed while a callback is running. -/
def ExitOk (d : Deferred CallbackPc StdData) (e : DeferredEvent) : Prop :=
  e = .exit → (d.phase = .loaded → ¬ BeforeModTimer d) ∧ (d.phase = .leaving → d.running = none)

/-- Over every interleaving of the timer, its callback and the unloading that ends
    with the module gone: no timer is pending and no callback is running then if and
    only if `ExitOk` held at every step of `timer_exit_module`. -/
theorem stdtimer_unload_iff (events : List DeferredEvent)
    (hgone : (run timerStep timerInitModule events).phase = .gone) :
    ((run timerStep timerInitModule events).armed = false ∧
        (run timerStep timerInitModule events).running = none) ↔
      Guarded timerStep ExitOk timerInitModule events := by
  have hstart : Quiet myTimerCallback timerInitModule := by
    refine ⟨?_, ?_, ?_⟩ <;> simp [timerInitModule]
  have hok : ExitOk = fun d e => e = .exit → DeleteOk myTimerCallback d := by
    funext d e
    rw [ExitOk, deleteOk_iff]
  rw [hok]
  exact gone_delete_iff rearms_myTimerCallback hstart hgone

/-- One call of the callback, then the unloading; and `del_timer` between the start
    of the callback and its `mod_timer`, where the timer is pending when the module
    is gone. -/
theorem stdtimer_unload_clean_and_raced :
    Guarded timerStep ExitOk timerInitModule [.fire, .body, .body, .body, .exit, .exit] ∧
    (run timerStep timerInitModule [.fire, .body, .exit, .body, .body, .exit]).armed = true ∧
    ¬ Guarded timerStep ExitOk timerInitModule [.fire, .body, .exit, .body, .body, .exit] := by
  refine ⟨(stdtimer_unload_iff _ (by decide)).mp (by decide), by decide, fun h => ?_⟩
  exact absurd ((stdtimer_unload_iff _ (by decide)).mpr h) (by decide)

/-- How `num` and the copy of a running callback stand to the lines printed. -/
def Counted (d : Deferred CallbackPc StdData) : Prop :=
  match d.running with
  | some (.modTimer n) | some (.store n) => n = BitVec.ofNat 32 d.data.printed.length
  | _ => d.data.num = BitVec.ofNat 32 d.data.printed.length

/-- The counts are 1, 2, 3, ... -/
def Numbered (printed : List (BitVec 32)) : Prop :=
  printed = (List.range printed.length).map fun i => BitVec.ofNat 32 (i + 1)

theorem numbered_append {printed : List (BitVec 32)} {n : BitVec 32} (h : Numbered printed)
    (hn : n = BitVec.ofNat 32 (printed.length + 1)) : Numbered (printed ++ [n]) := by
  rw [Numbered, List.length_append, List.length_singleton, List.range_succ, List.map_append, ← h,
    List.map_cons, List.map_nil, ← hn]

theorem counts_fire {d : Deferred CallbackPc StdData} (h : Counted d) :
    Counted (d.fire myTimerCallback) := by
  unfold Deferred.fire
  split
  case isTrue hfire =>
    have hnone : d.running = none := by simpa using hfire.2.1
    rw [Counted, hnone] at h
    exact h
  case isFalse => exact h

theorem counts_body {d : Deferred CallbackPc StdData} (h : Counted d)
    (hprinted : Numbered d.data.printed) :
    Counted (d.body myTimerCallback) ∧ Numbered (d.body myTimerCallback).data.printed := by
  unfold Deferred.body
  split
  case h_1 => exact ⟨h, hprinted⟩
  case h_2 k hk =>
    split
    case isTrue => exact ⟨h, hprinted⟩
    case isFalse =>
      rw [Counted, hk] at h
      cases k with
      | load =>
          -- `num` is incremented and printed
          have hn : d.data.num + 1 = BitVec.ofNat 32 (d.data.printed.length + 1) := by
            have hnum : d.data.num = BitVec.ofNat 32 d.data.printed.length := h
            rw [hnum, BitVec.ofNat_add]
            rfl
          refine ⟨?_, numbered_append hprinted hn⟩
          simpa [Counted, myTimerCallback, myTimerBody] using hn
      | modTimer n => exact ⟨h, hprinted⟩
      | store n => exact ⟨h, hprinted⟩

theorem counts_delete {d : Deferred CallbackPc StdData} (h : Counted d) : Counted d.delete := by
  unfold Deferred.delete
  split <;> exact h

/-- Over every interleaving, unloading included, the i-th call of the callback
    prints i, as a 32-bit count. -/
theorem stdtimer_counts (events : List DeferredEvent) :
    Along timerStep (fun d => d.data.printed =
      (List.range d.data.printed.length).map fun i => BitVec.ofNat 32 (i + 1))
      timerInitModule events := by
  have hstep : ∀ d e, Counted d ∧ Numbered d.data.printed →
      Counted (timerStep d e) ∧ Numbered (timerStep d e).data.printed := by
    rintro d e ⟨hc, hn⟩
    cases e with
    | fire =>
        refine ⟨counts_fire hc, ?_⟩
        simp only [timerStep, deferredStep, Deferred.fire]
        split <;> exact hn
    | body => exact counts_body hc hn
    | exit =>
        refine ⟨counts_delete hc, ?_⟩
        simp only [timerStep, deferredStep, Deferred.delete]
        split <;> exact hn
  have halong : Along timerStep (fun d => Counted d ∧ Numbered d.data.printed) timerInitModule
      events :=
    along_of_step (fun d e _ => hstep d e) ⟨rfl, rfl⟩ (guarded_of_forall fun _ _ _ => trivial)
  exact halong.mono fun _ h => h.2

/-! ## hrtimer.c and tasklet.c -/

/-- A callback of one step that prints its line and does not arm anything; the
    data is the number of calls. -/
def printOnce : Callback Unit Nat where
  entry := ()
  body := fun calls _ => (calls + 1, none)
  arms := fun _ => false
  willArm := fun _ => false
  arms_le := fun _ h => h
  body_le := fun _ _ _ _ h => h

/-- `my_hrtimer_callback` returns `HRTIMER_NORESTART`. -/
def myHrtimerCallback : Callback Unit Nat := printOnce

def myTaskletFunc : Callback Unit Nat := printOnce

/-- `hrtimer_init_module` starts the timer, `tasklet_init_module` schedules the
    tasklet. -/
def startOnce : Deferred Unit Nat where
  armed := true
  running := none
  phase := .loaded
  data := 0

/-- `hrtimer_exit_module` is `hrtimer_cancel`. -/
def hrtimerStep : Deferred Unit Nat → DeferredEvent → Deferred Unit Nat :=
  deferredStep myHrtimerCallback Deferred.cancel

/-- `tasklet_cleanup_module` is `tasklet_kill`. -/
def taskletStep : Deferred Unit Nat → DeferredEvent → Deferred Unit Nat :=
  deferredStep myTaskletFunc Deferred.kill

/-- The call that is still to come, the one running and those that are over. -/
def callsOf (d : Deferred Unit Nat) : Nat :=
  d.armed.toNat + d.running.isSome.toNat + d.data

theorem calls_fire (d : Deferred Unit Nat) : callsOf (d.fire printOnce) = callsOf d := by
  unfold Deferred.fire
  split
  case isTrue hfire =>
    have hnone : d.running = none := by simpa using hfire.2.1
    simp [callsOf, hfire.1, hnone]
  case isFalse => rfl

theorem calls_body (d : Deferred Unit Nat) : callsOf (d.body printOnce) = callsOf d := by
  unfold Deferred.body
  split
  case h_1 => rfl
  case h_2 k hk =>
    split
    case isTrue => rfl
    case isFalse =>
      simp [callsOf, hk, printOnce]
      omega

/-- In every run the timer's callback is called at most once, and the unloaded
    module leaves no pending timer and no running callback. -/
theorem hrtimer_unload (events : List DeferredEvent) :
    Along hrtimerStep (fun d => Quiet myHrtimerCallback d ∧ d.data ≤ 1) startOnce events := by
  have hquiet : Along hrtimerStep (Quiet myHrtimerCallback) startOnce events :=
    quiet_along_cancel rfl
  have hstep : ∀ d e, callsOf d ≤ 1 → callsOf (hrtimerStep d e) ≤ 1 := by
    intro d e h
    cases e with
    | fire => exact (calls_fire d).trans_le h
    | body => exact (calls_body d).trans_le h
    | exit =>
        simp only [hrtimerStep, deferredStep, Deferred.cancel]
        split
        · split
          · exact h
          · refine Nat.le_trans ?_ h
            simp [callsOf]
        · exact h
        · exact h
  have hcalls : Along hrtimerStep (fun d => callsOf d ≤ 1) startOnce events :=
    along_of_step (fun d e _ => hstep d e) (by decide) (guarded_of_forall fun _ _ _ => trivial)
  refine (hquiet.and hcalls).mono fun d h => ⟨h.1, ?_⟩
  exact Nat.le_trans (Nat.le_add_left _ _) h.2

/-- In every run the unloaded module leaves no scheduled and no running tasklet,
    and by then its function has been called exactly once. -/
theorem tasklet_unload (events : List DeferredEvent) :
    Along taskletStep (fun d => Quiet myTaskletFunc d ∧ (d.phase = .gone → d.data = 1))
      startOnce events := by
  have hstart : Quiet myTaskletFunc startOnce := by
    refine ⟨?_, ?_, ?_⟩ <;> simp [startOnce]
  have hquiet : Along taskletStep (Quiet myTaskletFunc) startOnce events :=
    quiet_along_kill (fun _ => rfl) hstart
  have hstep : ∀ d e, callsOf d = 1 → callsOf (taskletStep d e) = 1 := by
    intro d e h
    cases e with
    | fire => exact (calls_fire d).trans h
    | body => exact (calls_body d).trans h
    | exit =>
        -- `tasklet_kill` only waits
        simp only [taskletStep, deferredStep, Deferred.kill]
        split
        · split <;> exact h
        · split <;> exact h
        · exact h
  have hcalls : Along taskletStep (fun d => callsOf d = 1) startOnce events :=
    along_of_step (fun d e _ => hstep d e) (by decide) (guarded_of_forall fun _ _ _ => trivial)
  refine (hquiet.and hcalls).mono fun d h => ⟨h.1, fun hgone => ?_⟩
  have hone := h.2
  rw [callsOf, h.1.armed (by rw [hgone]; decide), h.1.running hgone] at hone
  simpa using hone

end LinuxModules.Timer
