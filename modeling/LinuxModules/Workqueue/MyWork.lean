/-
  LinuxModules.Workqueue.MyWork

  `myworkqueue.c`: `wq_init` allocates two items, queues them on its own work
  queue and a third on the system's, and `wq_exit` flushes and destroys its own.
  The items free themselves (`my_wq_func`), and the workers run beside `wq_init`
  as soon as an item is queued.

  After `work2` has been allocated, `wq_init` writes to `work->x`, which by then
  belongs to the worker.  Where the worker has freed `work`, `kmalloc` may have
  returned the same memory for `work2`, and the write changes `work2->x`.

  * `wq_safe_iff`: that write goes through a valid pointer exactly if `work` was
    allocated and its worker has not freed it yet, and `wq_exit` does not wait for
    the third item; nothing else goes wrong.
  * `wq_exit_settles`: when `wq_exit` is over, every item has been printed once
    and freed once, and the values printed are 1 or 2 for `work`, and for `work2`
    what its memory held when it was allocated, or the 2 that was meant for `work`.
-/

import LinuxModules.Lib.Run
import Mathlib.Data.List.Count
import Mathlib.Logic.Function.Basic

namespace LinuxModules.Workqueue

open LinuxModules.Lib

/-- The two items of type `my_work_t`. -/
inductive Which where
  | work
  | work2
  deriving DecidableEq, Repr

/-- An item with its `x`: not allocated, not queued yet, queued, inside
    `my_wq_func` before its `kfree`, freed. -/
inductive Item where
  | absent
  | idle (x : BitVec 32)
  | queued (x : BitVec 32)
  | printed (x : BitVec 32)
  | freed
  deriving DecidableEq, Repr

/-- `INIT_WORK` makes `work3` known; the system's worker runs it once. -/
inductive SysItem where
  | idle
  | queued
  | done
  deriving DecidableEq, Repr

/-- What the module does next.  `assign` is `work->x = 1`, `assign2` the
    `work->x = 2` after the second allocation; `flush` is `flush_workqueue`. -/
inductive ModulePc where
  | create
  | alloc
  | assign
  | queue
  | alloc2
  | assign2
  | queue2
  | schedule
  | loaded
  | flush
  | gone
  | failed
  | oopsed
  deriving DecidableEq, Repr

/-- A write through a pointer that is NULL, or whose object has been freed: whatever
    the memory is used for by then. -/
inductive Fault where
  | nullDeref
  | useAfterFree
  deriving DecidableEq, Repr

/-- `fresh` is what an item's `x` was when it was allocated; `aliased` if `work2` has
    the memory that `work` had; `lines` and `frees` are what `my_wq_func` printed and
    freed. -/
structure Wq where
  pc : ModulePc
  items : Which → Item
  work3 : SysItem
  fault : Option Fault
  fresh : Which → BitVec 32
  aliased : Bool
  lines : List (Which × BitVec 32)
  frees : List Which

def wqStart : Wq where
  pc := .create
  items := fun _ => .absent
  work3 := .idle
  fault := none
  fresh := fun _ => 0
  aliased := false
  lines := []
  frees := []

def Wq.put (s : Wq) (w : Which) (item : Item) : Wq :=
  { s with items := Function.update s.items w item }

/-- The item's memory is allocated. -/
def Item.live : Item → Bool
  | .absent => false
  | .idle _ => true
  | .queued _ => true
  | .printed _ => true
  | .freed => false

/-- A write to `x`, or how it misses the item. -/
def Item.setX (v : BitVec 32) : Item → Except Fault Item
  | .absent => .error .nullDeref
  | .idle _ => .ok (.idle v)
  | .queued _ => .ok (.queued v)
  | .printed _ => .ok (.printed v)
  | .freed => .error .useAfterFree

/-- The worker is done with the item, or never had it. -/
def Item.flushed : Item → Bool
  | .absent => true
  | .idle _ => false
  | .queued _ => false
  | .printed _ => false
  | .freed => true

/-- `queue_work`. -/
def Item.queueWork : Item → Item
  | .absent => .absent
  | .idle x => .queued x
  | .queued x => .queued x
  | .printed x => .printed x
  | .freed => .freed

/-- `kmalloc` and `INIT_WORK` of an item; `junk` is what its memory holds. -/
def Wq.alloc (s : Wq) (w : Which) (junk : BitVec 32) : Wq :=
  { s.put w (.idle junk) with fresh := Function.update s.fresh w junk }

/-- The outcome of an allocation: whether it succeeds, what the memory holds, and
    whether `kmalloc` returns the memory that `work` had, if that has been freed. -/
structure ModuleEnv where
  ok : Bool
  junk : BitVec 32
  reuse : Bool

/-- One step of `wq_init` or, once the module is loaded, of `wq_exit`. -/
def moduleStep (env : ModuleEnv) (s : Wq) : Wq :=
  match s.pc with
  | .create => { s with pc := if env.ok then .alloc else .failed }
  | .alloc =>
      if env.ok then { s.alloc .work env.junk with pc := .assign } else { s with pc := .alloc2 }
  | .assign =>
      match (s.items .work).setX 1 with
      | .ok item => { s.put .work item with pc := .queue }
      | .error fault => { s with fault := some fault, pc := .oopsed }
  | .queue => { s.put .work (s.items .work).queueWork with pc := .alloc2 }
  | .alloc2 =>
      if env.ok then
        { s.alloc .work2 env.junk with
          aliased := env.reuse && decide (s.items .work = .freed)
          pc := .assign2 }
      else { s with pc := .schedule }
  | .assign2 =>
      match (s.items .work).setX 2 with
      | .ok item => { s.put .work item with pc := .queue2 }
      -- an oops ends `wq_init`
      | .error .nullDeref => { s with fault := some .nullDeref, pc := .oopsed }
      -- a write to freed memory goes unnoticed, but `work2` may have got it
      | .error .useAfterFree =>
          { s.put .work2 (if s.aliased then .idle 2 else s.items .work2) with
            fault := some .useAfterFree
            pc := .queue2 }
  | .queue2 => { s.put .work2 (s.items .work2).queueWork with pc := .schedule }
  | .schedule => { s with work3 := .queued, pc := .loaded }
  | .loaded => { s with pc := .flush }
  | .flush =>
      if (s.items .work).flushed && (s.items .work2).flushed then { s with pc := .gone } else s
  | .gone => s
  | .failed => s
  | .oopsed => s

/-- One step of the worker that runs `my_wq_func` for an item. -/
def workerStep (w : Which) (s : Wq) : Wq :=
  match s.items w with
  | .queued x => { s.put w (.printed x) with lines := s.lines ++ [(w, x)] }
  | .printed _ => { s.put w .freed with frees := s.frees ++ [w] }
  | _ => s

inductive WqEvent where
  | module (env : ModuleEnv)
  | worker (w : Which)
  | sysWorker

def wqStep (s : Wq) : WqEvent → Wq
  | .module env => moduleStep env s
  | .worker w => workerStep w s
  -- what would run after the module is gone is not followed
  | .sysWorker => if s.work3 = .queued ∧ s.pc ≠ .gone then { s with work3 := .done } else s

/-! ## The items, by the position of the module -/

/-- Queued with `x`, or later. -/
def Item.FromQueue (good : BitVec 32 → Prop) : Item → Prop
  | .absent => True
  | .idle _ => False
  | .queued x => good x
  | .printed x => good x
  | .freed => True

def WorkOk : ModulePc → Item → Prop
  | .create, item | .alloc, item | .failed, item => item = .absent
  | .assign, item => ∃ x, item = .idle x
  | .queue, item => item = .idle 1
  | .gone, item => item.flushed = true
  | _, item => item.FromQueue fun x => x = 1 ∨ x = 2

/-- What `work2->x` is when `work2` is queued. -/
def Wq.x2 (s : Wq) : BitVec 32 := if s.aliased then 2 else s.fresh .work2

/-- An oops leaves `work2` allocated. -/
def Work2Ok (fresh x2 : BitVec 32) : ModulePc → Item → Prop
  | .assign2, item | .oopsed, item => item = .idle fresh
  | .queue2, item => item = .idle x2
  | .schedule, item | .loaded, item | .flush, item => item.FromQueue fun x => x = x2
  | .gone, item => item.flushed = true
  | _, item => item = .absent

/-- `my_wq_func` has printed its line. -/
def Item.hasPrinted : Item → Bool
  | .absent => false
  | .idle _ => false
  | .queued _ => false
  | .printed _ => true
  | .freed => true

/-- The value a line may show; `x2` is the `x` of `work2` when it was queued. -/
def LineOk (x2 : BitVec 32) : Which × BitVec 32 → Prop
  | (.work, v) => v = 1 ∨ v = 2
  | (.work2, v) => v = x2

structure WqInv (s : Wq) : Prop where
  work : WorkOk s.pc (s.items .work)
  work2 : Work2Ok (s.fresh .work2) s.x2 s.pc (s.items .work2)
  shared : s.aliased = true → s.items .work = .freed
  lines : ∀ w, s.lines.countP (fun l => l.1 = w) = if (s.items w).hasPrinted then 1 else 0
  frees : ∀ w, s.frees.count w = if s.items w = .freed then 1 else 0
  values : ∀ l ∈ s.lines, LineOk s.x2 l

theorem wqInv_wqStart : WqInv wqStart where
  work := rfl
  work2 := rfl
  shared := by simp [wqStart]
  lines := fun _ => rfl
  frees := fun _ => rfl
  values := fun _ h => absurd h List.not_mem_nil

/-- The worker takes an item from one position that the module's position allows
    to the next. -/
theorem WorkOk.printed {pc : ModulePc} {x : BitVec 32} (h : WorkOk pc (.queued x)) :
    WorkOk pc (.printed x) ∧ (x = 1 ∨ x = 2) := by
  cases pc with
  | create => cases h
  | alloc => cases h
  | failed => cases h
  | assign =>
      obtain ⟨y, hy⟩ := h
      cases hy
  | queue => cases h
  | gone => cases h
  | _ => exact ⟨h, h⟩

theorem WorkOk.freed {pc : ModulePc} {x : BitVec 32} (h : WorkOk pc (.printed x)) :
    WorkOk pc .freed := by
  cases pc with
  | create => cases h
  | alloc => cases h
  | failed => cases h
  | assign =>
      obtain ⟨y, hy⟩ := h
      cases hy
  | queue => cases h
  | gone => cases h
  | _ => trivial

theorem Work2Ok.printed {fresh x2 : BitVec 32} {pc : ModulePc} {x : BitVec 32}
    (h : Work2Ok fresh x2 pc (.queued x)) : Work2Ok fresh x2 pc (.printed x) ∧ x = x2 := by
  cases pc with
  | schedule => exact ⟨h, h⟩
  | loaded => exact ⟨h, h⟩
  | flush => exact ⟨h, h⟩
  | _ => cases h

theorem Work2Ok.freed {fresh x2 : BitVec 32} {pc : ModulePc} {x : BitVec 32}
    (h : Work2Ok fresh x2 pc (.printed x)) : Work2Ok fresh x2 pc .freed := by
  cases pc with
  | schedule => trivial
  | loaded => trivial
  | flush => trivial
  | _ => cases h

/-! ## The workers -/

/-- What the worker does to an item, whichever it is. -/
theorem workerStep_cases (w : Which) (s : Wq) :
    (∃ x, s.items w = .queued x ∧
      workerStep w s = { s.put w (.printed x) with lines := s.lines ++ [(w, x)] }) ∨
    (∃ x, s.items w = .printed x ∧
      workerStep w s = { s.put w .freed with frees := s.frees ++ [w] }) ∨
    workerStep w s = s := by
  unfold workerStep
  cases h : s.items w with
  | queued x => exact Or.inl ⟨x, rfl, rfl⟩
  | printed x => exact Or.inr (Or.inl ⟨x, rfl, rfl⟩)
  | _ => exact Or.inr (Or.inr rfl)

/-- A worker leaves an item freed that was, and `work2` in the memory it has. -/
theorem shared_worker {s : Wq} (w : Which) (hs : WqInv s) :
    (workerStep w s).aliased = true → (workerStep w s).items .work = .freed := by
  intro h
  rcases workerStep_cases w s with ⟨x, hitem, hstep⟩ | ⟨x, hitem, hstep⟩ | hstep
  · rw [hstep] at h ⊢
    cases w with
    | work =>
        rw [hs.shared h] at hitem
        cases hitem
    | work2 => simpa [Wq.put] using hs.shared h
  · rw [hstep] at h ⊢
    cases w with
    | work => simp [Wq.put]
    | work2 => simpa [Wq.put] using hs.shared h
  · rw [hstep] at h ⊢
    exact hs.shared h

theorem wqInv_worker {s : Wq} (w : Which) (hs : WqInv s) : WqInv (workerStep w s) := by
  have hshared := shared_worker w hs
  rcases workerStep_cases w s with ⟨x, hitem, hstep⟩ | ⟨x, hitem, hstep⟩ | hstep
  · -- the line is printed
    have hlines : ∀ w', (s.lines ++ [(w, x)]).countP (fun l => l.1 = w') =
        if (Function.update s.items w (.printed x) w').hasPrinted then 1 else 0 := by
      intro w'
      rw [List.countP_append, hs.lines w']
      by_cases hw : w' = w
      · rw [hw, hitem, Function.update_self, List.countP_singleton]
        simp [Item.hasPrinted]
      · simp [Function.update_of_ne hw, Ne.symm hw]
    have hfrees : ∀ w', s.frees.count w' =
        if Function.update s.items w (.printed x) w' = .freed then 1 else 0 := by
      intro w'
      rw [hs.frees w']
      by_cases hw : w' = w
      · subst hw
        simp [hitem]
      · rw [Function.update_of_ne hw]
    rw [hstep] at hshared ⊢
    cases w with
    | work =>
        have hok := hs.work
        rw [hitem] at hok
        refine ⟨?_, ?_, hshared, hlines, hfrees, fun l hl => ?_⟩
        · simpa [Wq.put] using hok.printed.1
        · show Work2Ok (s.fresh .work2) s.x2 s.pc (Function.update s.items .work (.printed x) .work2)
          simpa using hs.work2
        · rcases List.mem_append.mp hl with hl | hl
          · exact hs.values l hl
          · rw [List.mem_singleton.mp hl]
            exact hok.printed.2
    | work2 =>
        have hok := hs.work2
        rw [hitem] at hok
        refine ⟨?_, ?_, hshared, hlines, hfrees, fun l hl => ?_⟩
        · simpa [Wq.put] using hs.work
        · show Work2Ok (s.fresh .work2) s.x2 s.pc (Function.update s.items .work2 (.printed x) .work2)
          simpa using hok.printed.1
        · rcases List.mem_append.mp hl with hl | hl
          · exact hs.values l hl
          · rw [List.mem_singleton.mp hl]
            exact hok.printed.2
  · -- the item is freed
    have hlines : ∀ w', s.lines.countP (fun l => l.1 = w') =
        if (Function.update s.items w .freed w').hasPrinted then 1 else 0 := by
      intro w'
      rw [hs.lines w']
      by_cases hw : w' = w
      · rw [hw, hitem, Function.update_self]
        rfl
      · rw [Function.update_of_ne hw]
    have hfrees : ∀ w', (s.frees ++ [w]).count w' =
        if Function.update s.items w .freed w' = .freed then 1 else 0 := by
      intro w'
      rw [List.count_append, hs.frees w']
      by_cases hw : w' = w
      · subst hw
        simp [hitem]
      · simp [Function.update_of_ne hw, Ne.symm hw]
    rw [hstep] at hshared ⊢
    cases w with
    | work =>
        have hok := hs.work
        rw [hitem] at hok
        refine ⟨?_, ?_, hshared, hlines, hfrees, hs.values⟩
        · simpa [Wq.put] using hok.freed
        · show Work2Ok (s.fresh .work2) s.x2 s.pc (Function.update s.items .work .freed .work2)
          simpa using hs.work2
    | work2 =>
        have hok := hs.work2
        rw [hitem] at hok
        refine ⟨?_, ?_, hshared, hlines, hfrees, hs.values⟩
        · simpa [Wq.put] using hs.work
        · show Work2Ok (s.fresh .work2) s.x2 s.pc (Function.update s.items .work2 .freed .work2)
          simpa using hok.freed
  · rw [hstep]
    exact hs

/-! ## The module -/

/-- The module moves on and touches an item that stays as far with its worker as
    it was. -/
theorem wqInv_put {s s' : Wq} (hs : WqInv s) {w : Which} {item : Item}
    (hitems : s'.items = Function.update s.items w item)
    (hprinted : item.hasPrinted = (s.items w).hasPrinted)
    (hfreed : item = .freed ↔ s.items w = .freed)
    (hwork : WorkOk s'.pc (s'.items .work))
    (hwork2 : Work2Ok (s'.fresh .work2) s'.x2 s'.pc (s'.items .work2))
    (hshared : s'.aliased = true → s'.items .work = .freed)
    (hlines : s'.lines = s.lines) (hfrees : s'.frees = s.frees)
    (hvalues : ∀ l ∈ s.lines, LineOk s'.x2 l) : WqInv s' := by
  refine ⟨hwork, hwork2, hshared, fun w' => ?_, fun w' => ?_, hlines ▸ hvalues⟩
  · rw [hlines, hs.lines w', hitems]
    by_cases hw : w' = w
    · rw [hw, Function.update_self, hprinted]
    · rw [Function.update_of_ne hw]
  · rw [hfrees, hs.frees w', hitems]
    by_cases hw : w' = w
    · rw [hw, Function.update_self]
      simp only [hfreed]
    · rw [Function.update_of_ne hw]

theorem wqInv_putWork {s s' : Wq} (hs : WqInv s) (item : Item)
    (hitems : s'.items = Function.update s.items .work item)
    (hprinted : item.hasPrinted = (s.items .work).hasPrinted)
    (hfreed : item = .freed ↔ s.items .work = .freed) (hwork : WorkOk s'.pc item)
    (hwork2 : Work2Ok (s'.fresh .work2) s'.x2 s'.pc (s.items .work2))
    (haliased : s'.aliased = s.aliased)
    (hlines : s'.lines = s.lines) (hfrees : s'.frees = s.frees)
    (hvalues : ∀ l ∈ s.lines, LineOk s'.x2 l) : WqInv s' := by
  refine wqInv_put hs hitems hprinted hfreed ?_ ?_ ?_ hlines hfrees hvalues
  · rw [hitems, Function.update_self]
    exact hwork
  · have hne : Which.work2 ≠ Which.work := by decide
    rw [hitems, Function.update_of_ne hne]
    exact hwork2
  · rw [haliased, hitems, Function.update_self, hfreed]
    exact hs.shared

theorem wqInv_putWork2 {s s' : Wq} (hs : WqInv s) (item : Item)
    (hitems : s'.items = Function.update s.items .work2 item)
    (hprinted : item.hasPrinted = (s.items .work2).hasPrinted)
    (hfreed : item = .freed ↔ s.items .work2 = .freed) (hwork : WorkOk s'.pc (s.items .work))
    (hwork2 : Work2Ok (s'.fresh .work2) s'.x2 s'.pc item)
    (hshared : s'.aliased = true → s.items .work = .freed)
    (hlines : s'.lines = s.lines) (hfrees : s'.frees = s.frees)
    (hvalues : ∀ l ∈ s.lines, LineOk s'.x2 l) : WqInv s' := by
  have hne : Which.work ≠ Which.work2 := by decide
  refine wqInv_put hs hitems hprinted hfreed ?_ ?_ ?_ hlines hfrees hvalues
  · rw [hitems, Function.update_of_ne hne]
    exact hwork
  · rw [hitems, Function.update_self]
    exact hwork2
  · rw [hitems, Function.update_of_ne hne]
    exact hshared

/-- Only the position of the module changes. -/
theorem wqInv_move {s s' : Wq} (hs : WqInv s) (hitems : s'.items = s.items)
    (hfresh : s'.fresh = s.fresh) (haliased : s'.aliased = s.aliased)
    (hlines : s'.lines = s.lines) (hfrees : s'.frees = s.frees)
    (hwork : WorkOk s'.pc (s.items .work))
    (hwork2 : Work2Ok (s.fresh .work2) s.x2 s'.pc (s.items .work2)) : WqInv s' where
  work := by
    rw [hitems]
    exact hwork
  work2 := by
    rw [hitems, Wq.x2, hfresh, haliased]
    exact hwork2
  shared := by
    rw [hitems, haliased]
    exact hs.shared
  lines := by
    rw [hlines, hitems]
    exact hs.lines
  frees := by
    rw [hfrees, hitems]
    exact hs.frees
  values := by
    rw [hlines, Wq.x2, hfresh, haliased]
    exact hs.values

/-- No line of `work2` is printed before it is allocated. -/
theorem WqInv.values_alloc2 {s : Wq} (hs : WqInv s) (habsent : s.items .work2 = .absent)
    (x2 : BitVec 32) : ∀ l ∈ s.lines, LineOk x2 l := by
  intro l hl
  obtain ⟨w, v⟩ := l
  cases w with
  | work => exact hs.values _ hl
  | work2 =>
      have hcount := hs.lines .work2
      rw [habsent] at hcount
      have hpos : 0 < s.lines.countP fun l => l.1 = .work2 := List.countP_pos_iff.mpr ⟨_, hl, by simp⟩
      rw [hcount] at hpos
      exact absurd hpos (by decide)

theorem setX_ok {v : BitVec 32} {item item' : Item} (h : item.setX v = .ok item') :
    item'.hasPrinted = item.hasPrinted ∧ (item' = .freed ↔ item = .freed) := by
  cases item with
  | absent => cases h
  | idle x => cases h; exact ⟨rfl, by simp⟩
  | queued x => cases h; exact ⟨rfl, by simp⟩
  | printed x => cases h; exact ⟨rfl, by simp⟩
  | freed => cases h

/-- `work->x = 2`, where it hits the item: `work` has been queued. -/
theorem fromQueue_setX {item item' : Item} (hitem : item.FromQueue fun x => x = 1 ∨ x = 2)
    (h : item.setX 2 = .ok item') : item'.FromQueue fun x => x = 1 ∨ x = 2 := by
  cases item with
  | absent => cases h
  | idle x => exact hitem.elim
  | queued x => cases h; exact Or.inr rfl
  | printed x => cases h; exact Or.inr rfl
  | freed => cases h

/-- `work->x = 2`, in all its outcomes. -/
theorem wqInv_assign2 {s : Wq} (env : ModuleEnv) (hs : WqInv s) (hpc : s.pc = .assign2) :
    WqInv (moduleStep env s) := by
  have hwork := hs.work
  have hwork2 := hs.work2
  rw [hpc] at hwork hwork2
  have hidle : s.items .work2 = .idle (s.fresh .work2) := hwork2
  -- as long as `work` is not freed, `work2` has memory of its own
  have hown : s.items .work ≠ .freed → s.x2 = s.fresh .work2 := by
    intro hne
    have hno : ¬ s.aliased = true := fun h => hne (hs.shared h)
    rw [Wq.x2, if_neg hno]
  cases hset : (s.items .work).setX 2 with
  | ok item =>
      have hne : s.items .work ≠ .freed := by
        intro h
        rw [h] at hset
        cases hset
      obtain ⟨hprinted, hfreed⟩ := setX_ok hset
      simp only [moduleStep, hpc, hset]
      refine wqInv_putWork hs item rfl hprinted hfreed (fromQueue_setX hwork hset) ?_ rfl rfl rfl
        hs.values
      show s.items .work2 = .idle s.x2
      rw [hown hne]
      exact hidle
  | error fault =>
      cases fault with
      | nullDeref =>
          simp only [moduleStep, hpc, hset]
          exact wqInv_move hs rfl rfl rfl rfl rfl hwork hwork2
      | useAfterFree =>
          simp only [moduleStep, hpc, hset]
          have hx2 : (if s.aliased then Item.idle 2 else s.items .work2) = .idle s.x2 := by
            rw [Wq.x2, hidle]
            split <;> rfl
          refine wqInv_putWork2 hs (.idle s.x2) (by rw [hx2]; rfl) ?_ ?_ hwork rfl hs.shared rfl rfl
            hs.values
          · rw [hidle]
            rfl
          · rw [hidle]
            simp

theorem wqInv_module {s : Wq} (env : ModuleEnv) (hs : WqInv s) : WqInv (moduleStep env s) := by
  have hwork := hs.work
  have hwork2 := hs.work2
  have hne : Which.work2 ≠ Which.work := by decide
  cases hpc : s.pc with
  | create =>
      rw [hpc] at hwork hwork2
      simp only [moduleStep, hpc]
      cases env.ok <;> exact wqInv_move hs rfl rfl rfl rfl rfl hwork hwork2
  | alloc =>
      rw [hpc] at hwork hwork2
      have habsent : s.items .work = .absent := hwork
      simp only [moduleStep, hpc]
      cases env.ok with
      | false =>
          refine wqInv_move hs rfl rfl rfl rfl rfl ?_ hwork2
          rw [habsent]
          trivial
      | true =>
          have hfresh : Function.update s.fresh .work env.junk .work2 = s.fresh .work2 :=
            Function.update_of_ne hne ..
          have hx2 : (if s.aliased then 2 else Function.update s.fresh .work env.junk .work2) =
              s.x2 := by
            rw [hfresh, Wq.x2]
          refine wqInv_putWork hs (.idle env.junk) rfl ?_ ?_ ⟨env.junk, rfl⟩ hwork2 rfl rfl rfl ?_
          · rw [habsent]
            rfl
          · rw [habsent]
            simp
          · intro l hl
            have hold := hs.values l hl
            rw [← hx2] at hold
            exact hold
  | assign =>
      rw [hpc] at hwork hwork2
      obtain ⟨x, hx⟩ : ∃ x, s.items .work = .idle x := hwork
      simp only [moduleStep, hpc, hx, Item.setX]
      refine wqInv_putWork hs (.idle 1) rfl ?_ ?_ rfl hwork2 rfl rfl rfl hs.values
      · rw [hx]
        rfl
      · rw [hx]
        simp
  | queue =>
      rw [hpc] at hwork hwork2
      have hx : s.items .work = .idle 1 := hwork
      simp only [moduleStep, hpc, hx, Item.queueWork]
      refine wqInv_putWork hs (.queued 1) rfl ?_ ?_ (Or.inl rfl) hwork2 rfl rfl rfl hs.values
      · rw [hx]
        rfl
      · rw [hx]
        simp
  | alloc2 =>
      rw [hpc] at hwork hwork2
      have habsent : s.items .work2 = .absent := hwork2
      simp only [moduleStep, hpc]
      cases env.ok with
      | false =>
          refine wqInv_move hs rfl rfl rfl rfl rfl hwork ?_
          rw [habsent]
          trivial
      | true =>
          refine wqInv_putWork2 hs (.idle env.junk) rfl ?_ ?_ hwork ?_ ?_ rfl rfl
            (hs.values_alloc2 habsent _)
          · rw [habsent]
            rfl
          · rw [habsent]
            simp
          · show Item.idle env.junk = .idle (Function.update s.fresh .work2 env.junk .work2)
            rw [Function.update_self]
          · intro h
            simp only [if_true, Bool.and_eq_true, decide_eq_true_eq] at h
            exact h.2
  | assign2 => exact wqInv_assign2 env hs hpc
  | queue2 =>
      rw [hpc] at hwork hwork2
      have hx : s.items .work2 = .idle s.x2 := hwork2
      simp only [moduleStep, hpc, hx, Item.queueWork]
      refine wqInv_putWork2 hs (.queued s.x2) rfl ?_ ?_ hwork rfl hs.shared rfl rfl hs.values
      · rw [hx]
        rfl
      · rw [hx]
        simp
  | schedule =>
      rw [hpc] at hwork hwork2
      simp only [moduleStep, hpc]
      exact wqInv_move hs rfl rfl rfl rfl rfl hwork hwork2
  | loaded =>
      rw [hpc] at hwork hwork2
      simp only [moduleStep, hpc]
      exact wqInv_move hs rfl rfl rfl rfl rfl hwork hwork2
  | flush =>
      simp only [moduleStep, hpc]
      split
      case isTrue hflushed =>
        rw [Bool.and_eq_true] at hflushed
        exact wqInv_move hs rfl rfl rfl rfl rfl hflushed.1 hflushed.2
      case isFalse => exact hs
  | gone => simpa only [moduleStep, hpc] using hs
  | failed => simpa only [moduleStep, hpc] using hs
  | oopsed => simpa only [moduleStep, hpc] using hs

theorem wqInv_wqStep {s : Wq} (e : WqEvent) (hs : WqInv s) : WqInv (wqStep s e) := by
  cases e with
  | module env => exact wqInv_module env hs
  | worker w => exact wqInv_worker w hs
  | sysWorker =>
      simp only [wqStep]
      split
      · exact wqInv_move hs rfl rfl rfl rfl rfl hs.work hs.work2
      · exact hs

/-! ## What can go wrong -/

/-- The step of `wq_init` that writes `work->x = 2` finds `work` allocated and not
    yet freed. -/
def WritesLive (s : Wq) (e : WqEvent) : Prop :=
  s.pc = .assign2 → (∃ env, e = .module env) → (s.items .work).live = true

/-- `flush_workqueue` returns. -/
def Wq.flushed (s : Wq) : Bool := (s.items .work).flushed && (s.items .work2).flushed

/-- The module does not go before the system's worker has run `work3`. -/
def OutlivesWork3 (s : Wq) (e : WqEvent) : Prop :=
  s.pc = .flush → (∃ env, e = .module env) → s.flushed = true → s.work3 ≠ .queued

/-- Nothing of the module is pending when it is gone. -/
def Wq.Settled (s : Wq) : Prop := s.pc = .gone → s.work3 ≠ .queued

/-- A worker touches nothing but its item. -/
theorem workerStep_frame (w : Which) (s : Wq) :
    (workerStep w s).fault = s.fault ∧ (workerStep w s).pc = s.pc ∧
      (workerStep w s).work3 = s.work3 := by
  rcases workerStep_cases w s with ⟨x, -, hstep⟩ | ⟨x, -, hstep⟩ | hstep <;> rw [hstep] <;>
    exact ⟨rfl, rfl, rfl⟩

/-- Every other access of the module hits its item. -/
theorem fault_moduleStep {s : Wq} (env : ModuleEnv) (hs : WqInv s)
    (hpc : s.pc ≠ .assign2) : (moduleStep env s).fault = s.fault := by
  unfold moduleStep
  split
  case h_2 => split <;> rfl
  case h_3 h =>
    have hwork := hs.work
    rw [h] at hwork
    obtain ⟨x, hx⟩ : ∃ x, s.items .work = .idle x := hwork
    rw [hx]
    rfl
  case h_5 => split <;> rfl
  case h_6 h => exact absurd h hpc
  case h_10 => split <;> rfl
  all_goals rfl

theorem fault_assign2 {s : Wq} (env : ModuleEnv) (hpc : s.pc = .assign2)
    (hnone : s.fault = none) :
    (moduleStep env s).fault = none ↔ (s.items .work).live = true := by
  unfold moduleStep
  rw [hpc]
  cases h : s.items .work with
  | absent => simp [Item.setX, Item.live]
  | idle x => simp [Item.setX, Item.live, Wq.put, hnone]
  | queued x => simp [Item.setX, Item.live, Wq.put, hnone]
  | printed x => simp [Item.setX, Item.live, Wq.put, hnone]
  | freed => simp [Item.setX, Item.live]

/-- Only the end of `wq_exit` takes the module away. -/
theorem gone_of_moduleStep {s : Wq} {env : ModuleEnv}
    (h : (moduleStep env s).pc = .gone) : s.pc = .flush ∨ s.pc = .gone := by
  unfold moduleStep at h
  split at h
  case h_1 => split at h <;> cases h
  case h_2 => split at h <;> cases h
  case h_3 => split at h <;> cases h
  case h_5 => split at h <;> cases h
  case h_6 => split at h <;> cases h
  case h_10 hpc => exact Or.inl hpc
  case h_11 hpc => exact Or.inr hpc
  case h_12 hpc =>
    rw [hpc] at h
    cases h
  case h_13 hpc =>
    rw [hpc] at h
    cases h
  all_goals cases h

theorem settled_moduleStep {s : Wq} (env : ModuleEnv) (hs : s.Settled) :
    (moduleStep env s).Settled ↔ OutlivesWork3 s (.module env) := by
  have hevent : ∃ env', WqEvent.module env = .module env' := ⟨env, rfl⟩
  by_cases hpc : s.pc = .flush
  · by_cases hflushed : s.flushed = true
    · have hstep : moduleStep env s = { s with pc := .gone } := by
        rw [Wq.flushed] at hflushed
        simp only [moduleStep, hpc, hflushed, if_true]
      rw [hstep]
      exact ⟨fun h _ _ _ => h rfl, fun h _ => h hpc hevent hflushed⟩
    · have hstep : moduleStep env s = s := by
        rw [Wq.flushed] at hflushed
        simp only [moduleStep, hpc, hflushed, if_false, Bool.false_eq_true]
      rw [hstep]
      exact iff_of_true hs fun _ _ h => absurd h hflushed
  · refine iff_of_true ?_ fun h => absurd h hpc
    intro h
    have hgone : s.pc = .gone := (gone_of_moduleStep h).resolve_left hpc
    have hstep : moduleStep env s = s := by simp only [moduleStep, hgone]
    rw [hstep]
    exact hs hgone

/-- Over every interleaving of `wq_init`, `wq_exit` and the workers, and for every
    outcome of the allocations: no write of the module goes through a pointer that is
    NULL or whose object has been freed, and nothing of it is pending when it is gone,
    if and only if, whenever `wq_init` executes `work->x = 2`, `work` has been
    allocated and its worker has not freed it, and `wq_exit` ends after the system's
    worker has run `work3`. -/
theorem wq_safe_iff (events : List WqEvent) :
    Along wqStep (fun s => s.fault = none ∧ s.Settled) wqStart events ↔
      Guarded wqStep (fun s e => WritesLive s e ∧ OutlivesWork3 s e) wqStart events := by
  apply along_iff_guarded (I := WqInv) (A := fun _ => True)
  · exact fun s e _ hs => wqInv_wqStep e hs
  · rintro s e - hs ⟨hnone, hsettled⟩
    cases e with
    | module env =>
        refine and_congr ?_ (settled_moduleStep env hsettled)
        by_cases hpc : s.pc = .assign2
        · refine (fault_assign2 env hpc hnone).trans ⟨fun h _ _ => h, fun h => ?_⟩
          exact h hpc ⟨env, rfl⟩
        · refine iff_of_true ?_ fun h => absurd h hpc
          exact (fault_moduleStep env hs hpc).trans hnone
    | worker w =>
        have hother : ¬ ∃ env, WqEvent.worker w = .module env := by
          rintro ⟨env, h⟩
          cases h
        obtain ⟨hfault, hpc, hwork3⟩ := workerStep_frame w s
        refine iff_of_true ⟨hfault.trans hnone, ?_⟩
          ⟨fun _ h => absurd h hother, fun _ h => absurd h hother⟩
        rw [Wq.Settled, wqStep, hpc, hwork3]
        exact hsettled
    | sysWorker =>
        have hother : ¬ ∃ env, WqEvent.sysWorker = .module env := by
          rintro ⟨env, h⟩
          cases h
        refine iff_of_true ?_ ⟨fun _ h => absurd h hother, fun _ h => absurd h hother⟩
        simp only [wqStep]
        split
        case isTrue hqueued => exact ⟨hnone, fun h => absurd h hqueued.2⟩
        case isFalse => exact ⟨hnone, hsettled⟩
  · exact wqInv_wqStart
  · exact ⟨rfl, by simp [Wq.Settled, wqStart]⟩
  · exact fun _ _ => trivial

-- nothing waits for the third item: it is still queued when the module is gone
example : (run wqStep wqStart
      (.module ⟨true, 0, false⟩ :: List.replicate 5 (.module ⟨false, 0, false⟩))).pc = .gone ∧
    (run wqStep wqStart
      (.module ⟨true, 0, false⟩ :: List.replicate 5 (.module ⟨false, 0, false⟩))).work3 = .queued := by
  decide

/-! ## After `wq_exit` -/

/-- In every state of every run: a line of `work` shows 1 or 2, and a line of `work2`
    what its memory held when it was allocated or, where it was given the memory of
    the freed `work`, 2.  When `wq_exit` is over, an item that was allocated has been
    printed exactly once and freed exactly once, and one that was not, never. -/
theorem wq_exit_settles (events : List WqEvent) :
    Along wqStep
      (fun s => (∀ l ∈ s.lines, LineOk s.x2 l) ∧
        (s.pc = .gone → ∀ w,
          (s.items w = .freed ∧ s.lines.countP (fun l => l.1 = w) = 1 ∧ s.frees.count w = 1) ∨
          (s.items w = .absent ∧ s.lines.countP (fun l => l.1 = w) = 0 ∧ s.frees.count w = 0)))
      wqStart events := by
  have halong : Along wqStep WqInv wqStart events :=
    along_of_step (fun _ e _ hs => wqInv_wqStep e hs) wqInv_wqStart
      (guarded_of_forall fun _ _ _ => trivial)
  refine halong.mono fun s hs => ⟨hs.values, fun hgone w => ?_⟩
  have hflushed : (s.items w).flushed = true := by
    cases w with
    | work =>
        have hwork := hs.work
        rw [hgone] at hwork
        exact hwork
    | work2 =>
        have hwork2 := hs.work2
        rw [hgone] at hwork2
        exact hwork2
  have hlines := hs.lines w
  have hfrees := hs.frees w
  cases hitem : s.items w with
  | absent =>
      rw [hitem] at hlines hfrees
      exact Or.inr ⟨rfl, hlines.trans rfl, hfrees.trans rfl⟩
  | freed =>
      rw [hitem] at hlines hfrees
      exact Or.inl ⟨rfl, hlines.trans rfl, hfrees.trans rfl⟩
  | idle x =>
      rw [hitem] at hflushed
      cases hflushed
  | queued x =>
      rw [hitem] at hflushed
      cases hflushed
  | printed x =>
      rw [hitem] at hflushed
      cases hflushed

-- `work` is printed and freed before `work2` is allocated in its place: the write
-- through `work` shows in the line of `work2`
example : (run wqStep wqStart (List.flatten [
      List.replicate 4 (.module ⟨true, 7, false⟩), [.worker .work, .worker .work],
      List.replicate 3 (.module ⟨true, 7, true⟩), [.worker .work2]])).lines =
    [(.work, 1), (.work2, 2)] := by
  decide

end LinuxModules.Workqueue
