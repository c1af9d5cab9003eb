/-
  LinuxModules.DeviceModules

  Loading and unloading of nic.c and mon.c.  Both create one interface and ask for
  one shared interrupt; nic.c also registers netfilter hooks.  Both ignore what
  these calls return, load without an interface if its name is taken, and unload by
  releasing everything, whether they got it or not.

  `DevModule` holds what is different between the two.  `LoadHistory` is the
  abstract view of a run: which load is in force, and which loads were unloaded.
  `run_step` says that the kernel's state is a function of it (`DevModule.sysOf`),
  and the two main results read off what the modules leave behind:

  * `nic_load_unload`: nothing stays registered, but each interface is lost as memory.
  * `mon_load_unload`: the destructor frees an interface, if it was registered.
-/

import LinuxModules.Lib.Run
import Mathlib.Data.List.Count

namespace LinuxModules

open LinuxModules.Lib

/-! ## Devices, the interrupt line and the hooks -/

/-- `dev->reg_state`, as far as `unregister_netdev` tells it apart. -/
inductive RegState where
  | uninitialized
  | registered
  | unregistered
  deriving DecidableEq

/-- A `struct net_device`; with `destructor` set to `free_netdev` it is freed when it
    is unregistered. -/
structure NetDevice where
  regState : RegState
  destructor : Bool
  deriving DecidableEq

/-- What the kernel complains about. -/
inductive Warning where
  | neverRegistered
  | alreadyFreeIrq
  | hookNotFound
  deriving DecidableEq

/-- What the kernel holds for the module: its devices in the order of allocation
    (`none` once freed), the `dev_id`s with a handler on the interrupt line, and
    whether its hooks are registered. -/
structure DevKernel where
  devs : List (Option NetDevice)
  irqs : List Nat
  hooks : Bool
  warnings : List Warning
  deriving DecidableEq

/-- `register_netdev`: `failed` leaves the device as it was, `rolledBack` is a
    notifier's veto after the device was registered. -/
inductive RegisterNetdev where
  | ok
  | failed
  | rolledBack
  deriving DecidableEq

def RegisterNetdev.regState : RegisterNetdev → RegState
  | .ok => .registered
  | .failed => .uninitialized
  | .rolledBack => .unregistered

namespace DevKernel

/-- `dev_get_by_name` finds a device of the module, or one of somebody else. -/
def devGetByName (k : DevKernel) (other : Bool) : Bool :=
  other || k.devs.any fun d => d.any fun d => d.regState = .registered

/-- `alloc_etherdev` and the assignments to the new device. -/
def allocEtherdev (k : DevKernel) (destructor : Bool) : DevKernel :=
  { k with devs := k.devs ++ [some ⟨.uninitialized, destructor⟩] }

def registerNetdev (k : DevKernel) (dev : Nat) (r : RegisterNetdev) : DevKernel :=
  { k with devs := k.devs.modify dev (Option.map fun d => { d with regState := r.regState }) }

/-- `unregister_netdev`; `none` is the `BUG_ON` for a device that is not registered
    any more. -/
def unregisterNetdev (k : DevKernel) (dev : Nat) : Option DevKernel :=
  match k.devs[dev]?.join with
  | none => none
  | some d =>
      match d.regState with
      | .registered =>
          let left := if d.destructor then none else some { d with regState := .unregistered }
          some { k with devs := k.devs.set dev left }
      -- a `WARN_ON`; the destructor is not called
      | .uninitialized => some { k with warnings := k.warnings ++ [.neverRegistered] }
      | .unregistered => none

def requestIrq (k : DevKernel) (dev : Nat) (ret : Int) : DevKernel :=
  if ret = 0 then { k with irqs := k.irqs ++ [dev] } else k

def freeIrq (k : DevKernel) (dev : Nat) : DevKernel :=
  if dev ∈ k.irqs then { k with irqs := k.irqs.erase dev }
  else { k with warnings := k.warnings ++ [.alreadyFreeIrq] }

/-- `nf_register_hooks`: all of them or none. -/
def nfRegisterHooks (k : DevKernel) (ret : Int) : DevKernel :=
  if ret = 0 then { k with hooks := true } else k

def nfUnregisterHooks (k : DevKernel) : DevKernel :=
  if k.hooks then { k with hooks := false }
  else { k with warnings := k.warnings ++ [.hookNotFound] }

/-- The devices that are not freed. -/
def live (k : DevKernel) : Nat := k.devs.countP Option.isSome

end DevKernel

/-! ## The two modules -/

/-- What the two modules do differently: whether the device frees itself, what the
    load returns without memory, and whether there are hooks. -/
structure DevModule where
  destructor : Bool
  nomem : Int
  hooks : Bool

/-- What the calls of a load return; `other` is a device of somebody else with the
    name of the interface. -/
structure LoadEnv where
  other : Bool
  alloc : Bool
  register : RegisterNetdev
  irq : Int
  hooks : Int
  deriving DecidableEq

/-- The load: the kernel's state, the global with the device, and the result. -/
def DevModule.init (m : DevModule) (e : LoadEnv) (k : DevKernel) : DevKernel × Option Nat × Int :=
  if k.devGetByName e.other then (k, none, 0)
  else if e.alloc then
    let dev := k.devs.length
    let k := k.allocEtherdev m.destructor
    -- the load goes on and succeeds, whatever these calls return
    let k := k.registerNetdev dev e.register
    let k := k.requestIrq dev e.irq
    let k := if m.hooks then k.nfRegisterHooks e.hooks else k
    (k, some dev, 0)
  else (k, none, m.nomem)

/-- The unload; `none` if it ends in a `BUG`. -/
def DevModule.exit (m : DevModule) (netdev : Option Nat) (k : DevKernel) : Option DevKernel :=
  match netdev with
  | none => some k
  -- everything is released that a load may have got
  | some dev =>
      (k.unregisterNetdev dev).map fun k =>
        let k := k.freeIrq dev
        if m.hooks then k.nfUnregisterHooks else k

def nic : DevModule := { destructor := false, nomem := -12, hooks := true }

def mon : DevModule := { destructor := true, nomem := 0, hooks := false }

def nicInit : LoadEnv → DevKernel → DevKernel × Option Nat × Int := nic.init

def nicFini : Option Nat → DevKernel → Option DevKernel := nic.exit

def createDevMon : LoadEnv → DevKernel → DevKernel × Option Nat × Int := mon.init

def deleteDevMon : Option Nat → DevKernel → Option DevKernel := mon.exit

/-! ## Runs -/

/-- The module, with its global `nic_netdev` or `dev_mon` while it is loaded; `stuck`
    in the unload after a `BUG`. -/
inductive ModState where
  | unloaded
  | loaded (netdev : Option Nat)
  | stuck
  deriving DecidableEq

structure DevSys where
  mod : ModState
  k : DevKernel
  deriving DecidableEq

inductive DevEvent where
  | load (e : LoadEnv)
  | unload
  deriving DecidableEq

/-- `insmod` and `rmmod` of a module with these two functions; a module that failed
    to load is not there. -/
def modStep (init : LoadEnv → DevKernel → DevKernel × Option Nat × Int)
    (exit : Option Nat → DevKernel → Option DevKernel) (s : DevSys) : DevEvent → DevSys
  | .load e =>
      match s.mod with
      | .unloaded =>
          match init e s.k with
          | (k, netdev, ret) => ⟨if ret = 0 then .loaded netdev else .unloaded, k⟩
      | .loaded _ => s
      | .stuck => s
  | .unload =>
      match s.mod with
      | .loaded netdev =>
          match exit netdev s.k with
          | some k => ⟨.unloaded, k⟩
          | none => ⟨.stuck, s.k⟩
      | .unloaded => s
      | .stuck => s

def DevModule.step (m : DevModule) : DevSys → DevEvent → DevSys := modStep m.init m.exit

def nicStep : DevSys → DevEvent → DevSys := modStep nicInit nicFini

def devMonStep : DevSys → DevEvent → DevSys := modStep createDevMon deleteDevMon

def devStart : DevSys := ⟨.unloaded, ⟨[], [], false, []⟩⟩

/-! ## The abstract view -/

/-- The load that is in force, or whose unload does not end. -/
inductive LoadPhase where
  | idle
  | running (e : LoadEnv)
  | stuck (e : LoadEnv)

/-- With the loads that were unloaded, in order. -/
structure LoadHistory where
  phase : LoadPhase
  gone : List LoadEnv

/-- The load creates the interface. -/
def LoadEnv.creates (e : LoadEnv) : Bool := !e.other && e.alloc

namespace DevModule

variable (m : DevModule)

/-- The load succeeds. -/
def loads (e : LoadEnv) : Bool := e.other || e.alloc || m.nomem = 0

def historyStep (t : LoadHistory) : DevEvent → LoadHistory
  | .load e =>
      match t.phase with
      | .idle => { t with phase := if m.loads e then .running e else .idle }
      | .running _ => t
      | .stuck _ => t
  | .unload =>
      match t.phase with
      | .running e =>
          if e.creates = true ∧ e.register = .rolledBack then { t with phase := .stuck e }
          else ⟨.idle, t.gone ++ [e]⟩
      | .idle => t
      | .stuck _ => t

/-- The device a load creates. -/
def made (e : LoadEnv) : List (Option NetDevice) :=
  if e.creates then [some ⟨e.register.regState, m.destructor⟩] else []

/-- What is left of it after the unload. -/
def left (e : LoadEnv) : List (Option NetDevice) :=
  if e.creates then
    [if e.register = .ok then if m.destructor then none else some ⟨.unregistered, m.destructor⟩
      else some ⟨e.register.regState, m.destructor⟩]
  else []

/-- The complaints about the unload. -/
def warnings (e : LoadEnv) : List Warning :=
  if e.creates then
    (if e.register = .ok then [] else [Warning.neverRegistered]) ++
      (if e.irq = 0 then [] else [Warning.alreadyFreeIrq]) ++
      (if m.hooks then if e.hooks = 0 then [] else [Warning.hookNotFound] else [])
  else []

/-- What is left of the devices of earlier loads. -/
def past (gone : List LoadEnv) : List (Option NetDevice) := gone.flatMap m.left

/-- The kernel's state while load `e` is in force. -/
def kernelWith (gone : List LoadEnv) (e : LoadEnv) : DevKernel where
  devs := m.past gone ++ m.made e
  irqs := if e.creates = true ∧ e.irq = 0 then [(m.past gone).length] else []
  hooks := e.creates && m.hooks && e.hooks = 0
  warnings := gone.flatMap m.warnings

/-- The kernel's state while the module is not loaded. -/
def kernelIdle (gone : List LoadEnv) : DevKernel where
  devs := m.past gone
  irqs := []
  hooks := false
  warnings := gone.flatMap m.warnings

/-- The global with the device. -/
def netdevOf (gone : List LoadEnv) (e : LoadEnv) : Option Nat :=
  if e.creates then some (m.past gone).length else none

def sysOf (t : LoadHistory) : DevSys :=
  match t.phase with
  | .idle => ⟨.unloaded, m.kernelIdle t.gone⟩
  | .running e => ⟨.loaded (m.netdevOf t.gone e), m.kernelWith t.gone e⟩
  | .stuck e => ⟨.stuck, m.kernelWith t.gone e⟩

/-! ## One load and one unload -/

/-- No device is registered after its unload. -/
theorem past_not_registered (gone : List LoadEnv) :
    (m.past gone).any (fun d => d.any fun d => decide (d.regState = .registered)) = false := by
  rw [List.any_eq_false]
  intro d hd
  obtain ⟨e, -, hde⟩ := List.mem_flatMap.mp hd
  unfold left at hde
  split at hde
  case isFalse => cases hde
  case isTrue =>
    obtain rfl := List.mem_singleton.mp hde
    split
    case isTrue =>
      split
      · simp
      · simp
    case isFalse hreg =>
      cases hr : e.register with
      | ok => exact absurd hr hreg
      | failed => simp [RegisterNetdev.regState]
      | rolledBack => simp [RegisterNetdev.regState]

theorem devGetByName_kernelIdle (gone : List LoadEnv) (other : Bool) :
    (m.kernelIdle gone).devGetByName other = other := by
  rw [DevKernel.devGetByName, kernelIdle, past_not_registered, Bool.or_false]

theorem devGetByName_kernelWith (gone : List LoadEnv) (e : LoadEnv) (other : Bool) :
    (m.kernelWith gone e).devGetByName other =
      (other || (e.creates && decide (e.register = .ok))) := by
  rw [DevKernel.devGetByName, kernelWith, List.any_append, past_not_registered, Bool.false_or, made]
  cases e.creates with
  | false => rfl
  | true => cases e.register <;> rfl

theorem modify_append_singleton {α : Type} (l : List α) (a : α) (f : α → α) :
    (l ++ [a]).modify l.length f = l ++ [f a] := by
  induction l with
  | nil => rfl
  | cons b l ih => simp [ih]

section

variable {m}

theorem kernelWith_of_not_creates {e : LoadEnv} (h : e.creates = false) (gone : List LoadEnv) :
    m.kernelWith gone e = m.kernelIdle gone ∧ m.netdevOf gone e = none := by
  simp [kernelWith, kernelIdle, netdevOf, made, h]

theorem kernelIdle_of_not_creates {e : LoadEnv} (h : e.creates = false) (gone : List LoadEnv) :
    m.kernelIdle (gone ++ [e]) = m.kernelIdle gone := by
  simp [kernelIdle, past, left, warnings, h]

end

/-- The interrupt line after a request, if the module had no handler there. -/
theorem requestIrq_eq {k : DevKernel} (h : k.irqs = []) (dev : Nat) (ret : Int) :
    k.requestIrq dev ret = { k with irqs := if ret = 0 then [dev] else [] } := by
  unfold DevKernel.requestIrq
  split
  · rw [h, List.nil_append]
  · rw [← h]

theorem freeIrq_eq {k : DevKernel} {dev : Nat} {ret : Int}
    (h : k.irqs = if ret = 0 then [dev] else []) :
    k.freeIrq dev = { k with
      irqs := []
      warnings := k.warnings ++ if ret = 0 then [] else [Warning.alreadyFreeIrq] } := by
  unfold DevKernel.freeIrq
  by_cases hret : ret = 0
  · simp [h, hret]
  · rw [if_neg hret] at h
    simp [h, hret]

theorem nfRegisterHooks_eq {k : DevKernel} (h : k.hooks = false) (ret : Int) :
    k.nfRegisterHooks ret = { k with hooks := decide (ret = 0) } := by
  unfold DevKernel.nfRegisterHooks
  split
  case isTrue hret => rw [decide_eq_true hret]
  case isFalse hret => rw [decide_eq_false hret, ← h]

theorem nfUnregisterHooks_eq {k : DevKernel} {ret : Int} (h : k.hooks = decide (ret = 0)) :
    k.nfUnregisterHooks = { k with
      hooks := false
      warnings := k.warnings ++ if ret = 0 then [] else [Warning.hookNotFound] } := by
  unfold DevKernel.nfUnregisterHooks
  by_cases hret : ret = 0
  · simp [h, hret]
  · rw [decide_eq_false hret] at h
    simp [h, hret]

/-- The end of an unload: the interrupt and the hooks. -/
theorem release_eq {k : DevKernel} {dev : Nat} {e : LoadEnv}
    (hirqs : k.irqs = if e.irq = 0 then [dev] else [])
    (hhooks : k.hooks = (m.hooks && decide (e.hooks = 0))) :
    (if m.hooks then (k.freeIrq dev).nfUnregisterHooks else k.freeIrq dev) =
      { k with
        irqs := []
        hooks := false
        warnings := k.warnings ++ ((if e.irq = 0 then [] else [Warning.alreadyFreeIrq]) ++
          (if m.hooks then if e.hooks = 0 then [] else [Warning.hookNotFound] else [])) } := by
  cases hm : m.hooks with
  | true =>
      rw [hm, Bool.true_and] at hhooks
      have hsame : (k.freeIrq dev).hooks = decide (e.hooks = 0) := by
        rw [freeIrq_eq hirqs]
        exact hhooks
      rw [if_pos rfl, if_pos rfl, nfUnregisterHooks_eq hsame, freeIrq_eq hirqs]
      simp only [List.append_assoc]
  | false =>
      rw [hm, Bool.false_and] at hhooks
      rw [freeIrq_eq hirqs]
      simp [hhooks]

/-- A load from the idle state. -/
theorem init_kernelIdle (gone : List LoadEnv) (e : LoadEnv) :
    m.init e (m.kernelIdle gone) =
      if m.loads e then (m.kernelWith gone e, m.netdevOf gone e, 0)
      else (m.kernelIdle gone, none, m.nomem) := by
  unfold init
  rw [devGetByName_kernelIdle]
  by_cases hc : e.creates = true
  · obtain ⟨hother, halloc⟩ : e.other = false ∧ e.alloc = true := by
      simpa [LoadEnv.creates] using hc
    have hreg : ((m.kernelIdle gone).allocEtherdev m.destructor).registerNetdev
        (m.past gone).length e.register =
        { m.kernelIdle gone with devs := m.past gone ++ m.made e } := by
      simp only [DevKernel.allocEtherdev, DevKernel.registerNetdev, kernelIdle,
        modify_append_singleton, made, hc, if_true, Option.map_some]
    have hlen : (m.kernelIdle gone).devs.length = (m.past gone).length := rfl
    simp only [loads, hother, halloc, hlen, hreg, Bool.false_eq_true, if_false, if_true,
      Bool.or_true, Bool.true_or]
    -- only nic.c goes on to the hooks
    rw [requestIrq_eq rfl]
    cases hhooks : m.hooks with
    | true =>
        rw [if_pos rfl, nfRegisterHooks_eq rfl]
        simp [kernelWith, kernelIdle, netdevOf, hc, hhooks]
    | false => simp [kernelWith, kernelIdle, netdevOf, hc, hhooks]
  · rw [Bool.not_eq_true] at hc
    obtain ⟨hwith, hnone⟩ := kernelWith_of_not_creates (m := m) hc gone
    rw [hwith, hnone]
    cases hother : e.other with
    | true => simp [loads, hother]
    | false =>
        have halloc : e.alloc = false := by simpa [LoadEnv.creates, hother] using hc
        by_cases hnomem : m.nomem = 0
        · simp [loads, hother, halloc, hnomem]
        · simp [loads, hother, halloc, hnomem]

/-- An unload of the load that is in force. -/
theorem exit_kernelWith (gone : List LoadEnv) (e : LoadEnv) :
    m.exit (m.netdevOf gone e) (m.kernelWith gone e) =
      if e.creates = true ∧ e.register = .rolledBack then none
      else some (m.kernelIdle (gone ++ [e])) := by
  by_cases hc : e.creates = true
  · have hget : (m.kernelWith gone e).devs[(m.past gone).length]?.join =
        some ⟨e.register.regState, m.destructor⟩ := by
      simp [kernelWith, made, hc]
    rw [netdevOf, if_pos hc]
    simp only [exit, DevKernel.unregisterNetdev, hget]
    cases hreg : e.register with
    | rolledBack => simp [RegisterNetdev.regState, hc]
    | ok =>
        simp only [RegisterNetdev.regState, Option.map_some]
        rw [release_eq m (e := e) (by simp [kernelWith, hc]) (by simp [kernelWith, hc])]
        simp [kernelWith, kernelIdle, made, past, left, warnings, hc, hreg]
    | failed =>
        simp only [RegisterNetdev.regState, Option.map_some]
        rw [release_eq m (e := e) (by simp [kernelWith, hc]) (by simp [kernelWith, hc])]
        simp [kernelWith, kernelIdle, made, past, left, warnings, hc, hreg, RegisterNetdev.regState]
  · rw [Bool.not_eq_true] at hc
    obtain ⟨hwith, hnone⟩ := kernelWith_of_not_creates (m := m) hc gone
    rw [hwith, hnone, kernelIdle_of_not_creates hc, exit, if_neg (by simp [hc])]

/-! ## Runs -/

theorem step_sysOf (t : LoadHistory) (a : DevEvent) :
    m.step (m.sysOf t) a = m.sysOf (m.historyStep t a) := by
  obtain ⟨phase, gone⟩ := t
  cases a with
  | load e =>
      cases phase with
      | idle =>
          simp only [step, modStep, sysOf, historyStep, init_kernelIdle]
          by_cases hload : m.loads e = true
          · simp only [hload, if_true]
          · have hret : m.nomem ≠ 0 := by
              intro hzero
              exact hload (by simp [loads, hzero])
            simp only [hload, hret, if_false, Bool.false_eq_true]
      | running e' => rfl
      | stuck e' => rfl
  | unload =>
      cases phase with
      | idle => rfl
      | running e =>
          simp only [step, modStep, sysOf, historyStep, exit_kernelWith]
          by_cases hbug : e.creates = true ∧ e.register = .rolledBack
          · simp only [if_pos hbug]
          · simp only [if_neg hbug]
      | stuck e' => rfl

/-- The abstract view of a run from the start. -/
def history (es : List DevEvent) : LoadHistory := run m.historyStep ⟨.idle, []⟩ es

/-- The kernel's state is that of the abstract view. -/
theorem run_step (es : List DevEvent) :
    run m.step devStart es = m.sysOf (m.history es) := by
  have hrun : run m.step (m.sysOf ⟨.idle, []⟩) es =
      m.sysOf (run m.historyStep ⟨.idle, []⟩ es) := List.foldl_hom m.sysOf m.step_sysOf
  exact hrun

end DevModule

/-- An unload that does not end is that of an interface a notifier has vetoed. -/
def LoadHistory.Vetoed (t : LoadHistory) : Prop :=
  ∀ e, t.phase = .stuck e → e.creates = true ∧ e.register = .rolledBack

theorem vetoed_historyStep (m : DevModule) (t : LoadHistory) (a : DevEvent) (ht : t.Vetoed) :
    (m.historyStep t a).Vetoed := by
  obtain ⟨phase, gone⟩ := t
  intro e he
  cases phase with
  | idle =>
      cases a with
      | load e' =>
          simp only [DevModule.historyStep] at he
          split at he <;> cases he
      | unload => cases he
  | running e' =>
      cases a with
      | load e'' => cases he
      | unload =>
          simp only [DevModule.historyStep] at he
          split at he
          case isTrue hbug =>
            cases he
            exact hbug
          case isFalse => cases he
  | stuck e' =>
      cases a with
      | load e'' => exact ht e he
      | unload => exact ht e he

theorem vetoed_start : (LoadHistory.mk .idle []).Vetoed := by
  intro e he
  cases he

/-- The loads for which an unload was started. -/
def LoadHistory.ended (t : LoadHistory) : List LoadEnv :=
  match t.phase with
  | .stuck e => t.gone ++ [e]
  | .idle => t.gone
  | .running _ => t.gone

namespace DevModule

variable (m : DevModule)

/-- All calls of a load succeeded that the module makes. -/
def Succeeds (e : LoadEnv) : Prop :=
  e.register = .ok ∧ e.irq = 0 ∧ (m.hooks = true → e.hooks = 0)

theorem warnings_eq_nil_iff (e : LoadEnv) :
    m.warnings e = [] ↔ (e.creates = true → m.Succeeds e) := by
  unfold warnings Succeeds
  by_cases hc : e.creates = true
  · simp [hc]
  · simp [hc]

/-- Unloads end, and without a complaint, exactly if all calls of the loads that
    created an interface succeeded. -/
theorem quiet_iff (es : List DevEvent) :
    ((run m.step devStart es).mod ≠ .stuck ∧
        (run m.step devStart es).k.warnings = []) ↔
      ∀ e ∈ (m.history es).ended, e.creates = true → m.Succeeds e := by
  have hgone : (m.history es).gone.flatMap m.warnings = [] ↔
      ∀ e ∈ (m.history es).gone, e.creates = true → m.Succeeds e := by
    rw [List.flatMap_eq_nil_iff]
    exact forall₂_congr fun e _ => m.warnings_eq_nil_iff e
  rw [run_step]
  unfold LoadHistory.ended sysOf
  cases hphase : (m.history es).phase with
  | idle => simpa [kernelIdle] using hgone
  | running e => simpa [kernelWith] using hgone
  | stuck e =>
      have hvetoed : (m.history es).Vetoed :=
        run_invariant (vetoed_historyStep m) vetoed_start es
      obtain ⟨hc, hreg⟩ := hvetoed e hphase
      refine iff_of_false (fun h => h.1 rfl) fun h => ?_
      have hok := (h e (by simp) hc).1
      rw [hreg] at hok
      cases hok

/-- What the loads so far have left when the module is not loaded. -/
theorem settled (es : List DevEvent) (h : (run m.step devStart es).mod = .unloaded) :
    (run m.step devStart es).k = m.kernelIdle (m.history es).gone := by
  rw [run_step] at h ⊢
  unfold sysOf at h ⊢
  cases hphase : (m.history es).phase with
  | idle => rfl
  | running e =>
      rw [hphase] at h
      cases h
  | stuck e =>
      rw [hphase] at h
      cases h

/-- The devices that outlive their loads. -/
theorem live_kernelIdle (gone : List LoadEnv) :
    (m.kernelIdle gone).live =
      gone.countP fun e => e.creates && !(decide (e.register = .ok) && m.destructor) := by
  induction gone with
  | nil => rfl
  | cons e gone ih =>
      have hcons : (m.kernelIdle (e :: gone)).live =
          (m.left e).countP Option.isSome + (m.kernelIdle gone).live := by
        simp only [DevKernel.live, kernelIdle, past, List.flatMap_cons, List.countP_append]
      rw [hcons, ih, List.countP_cons, Nat.add_comm]
      congr 1
      unfold left
      cases e.creates with
      | false => rfl
      | true =>
          by_cases hreg : e.register = .ok
          · cases m.destructor <;> simp [hreg]
          · simp [hreg]

end DevModule

/-- nic.c, however often it is loaded and unloaded and whatever fails.  An unloaded
    module leaves no handler, no hook and no interface in the kernel, but the memory
    of every interface it has created; and its unloads run without a `BUG` or a
    complaint if and only if every call had succeeded when an interface was
    created. -/
theorem nic_load_unload (es : List DevEvent) :
    ((run nicStep devStart es).mod = .unloaded →
      (run nicStep devStart es).k.irqs = [] ∧
      (run nicStep devStart es).k.hooks = false ∧
      (∀ other, (run nicStep devStart es).k.devGetByName other = other) ∧
      (run nicStep devStart es).k.live = (nic.history es).gone.countP LoadEnv.creates) ∧
    (((run nicStep devStart es).mod ≠ .stuck ∧
        (run nicStep devStart es).k.warnings = []) ↔
      ∀ e ∈ (nic.history es).ended, e.creates = true →
        e.register = .ok ∧ e.irq = 0 ∧ e.hooks = 0) := by
  constructor
  · intro h
    have hk : (run nicStep devStart es).k = nic.kernelIdle (nic.history es).gone := nic.settled es h
    rw [hk]
    refine ⟨rfl, rfl, nic.devGetByName_kernelIdle _, ?_⟩
    rw [nic.live_kernelIdle]
    simp [nic]
  · refine (nic.quiet_iff es).trans ?_
    simp [DevModule.Succeeds, nic]

/-- mon.c: the memory of an interface is freed with it, except if `register_netdev`
    had failed; then it is lost. -/
theorem mon_load_unload (es : List DevEvent) :
    ((run devMonStep devStart es).mod = .unloaded →
      (run devMonStep devStart es).k.irqs = [] ∧
      (∀ other, (run devMonStep devStart es).k.devGetByName other = other) ∧
      (run devMonStep devStart es).k.live =
        (mon.history es).gone.countP fun e => e.creates && decide (e.register ≠ .ok)) ∧
    (((run devMonStep devStart es).mod ≠ .stuck ∧
        (run devMonStep devStart es).k.warnings = []) ↔
      ∀ e ∈ (mon.history es).ended, e.creates = true → e.register = .ok ∧ e.irq = 0) := by
  constructor
  · intro h
    have hk : (run devMonStep devStart es).k = mon.kernelIdle (mon.history es).gone :=
      mon.settled es h
    rw [hk]
    refine ⟨rfl, mon.devGetByName_kernelIdle _, ?_⟩
    rw [mon.live_kernelIdle]
    simp [mon]
  · refine (mon.quiet_iff es).trans ?_
    simp [DevModule.Succeeds, mon]

end LinuxModules
