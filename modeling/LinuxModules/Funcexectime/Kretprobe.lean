/-
  LinuxModules.Funcexectime.Kretprobe

  `funcexectime.c`: how long each call of a function takes, measured with a return
  probe that has `maxactive` instances.

  Any number of tasks call the function, recursively too.  On entry a free
  instance is taken, `entry_handler` stamps it or, for a kernel thread, gives it
  back; on return the instance that the task took last is found again, and
  `ret_handler` runs with it.  `ret_handler` runs on several processors at once.
  Its `count++` is a load and a later store, and both are over when `trace_printk`
  is called.

  * `durations_are_own`: every line shows the time of the call it is printed for,
    every stamped call is accounted for, and no instance is lost.
  * `numbering_iff`: the lines are numbered 0, 1, 2, ... exactly if no handler loads
    `count` between the load and the store of another, and none prints before
    another that loaded `count` earlier.

  Times are integers (`ktime_t` does not overflow), and what the kernel's return
  probes do on entry and return is as its documentation describes.
-/

import LinuxModules.Lib.KeyedStack
import LinuxModules.Lib.Run
import LinuxModules.Lib.Slots
import Mathlib.Data.BitVec
import Mathlib.Data.List.Perm.Basic
import Mathlib.Data.List.Range

namespace LinuxModules.Funcexectime

open LinuxModules.Lib

/-! ## The probe -/

/-- `modukretp.maxactive`. -/
def maxactive : Nat := 20

/-- A call of the function that has not returned; `probed` if its return address
    was replaced. -/
structure Activation where
  enteredAt : Int
  probed : Bool
  deriving DecidableEq, Repr

/-- How far the `count++` of a handler is; `v` is the number its line will have. -/
inductive CountPc where
  | start
  | loaded (v : BitVec 64)
  | stored (v : BitVec 64)
  deriving DecidableEq, Repr

/-- An execution of `ret_handler`, with the time its call really `took`. -/
structure RetHandler where
  task : Nat
  retval : BitVec 32
  delta : Int
  took : Int
  pc : CountPc
  deriving DecidableEq, Repr

/-- A line of `trace_printk`, with the time the call really `took`. -/
structure Line where
  index : BitVec 64
  retval : BitVec 32
  delta : Int
  took : Int
  deriving DecidableEq, Repr

/-- `used` are the instances of pending calls, by task and with their
    `entry_stamp`, the last taken first; `stamped` is how many calls got one.  The
    handlers that have loaded `count` stand in the order of their loads. -/
structure Fet where
  now : Int
  calls : Nat → List Activation
  used : List (Nat × Int)
  free : Nat
  nmissed : Nat
  count : BitVec 64
  handlers : List RetHandler
  log : List Line
  stamped : Nat

/-- `entry_handler`: the stamp, or `none` when it returns 1. -/
def entryHandler (mm : Bool) (now : Int) : Option Int := if mm then some now else none

/-- `fet_init`, once `register_kretprobe` has succeeded. -/
def fetInit : Fet where
  now := 0
  calls := fun _ => []
  used := []
  free := maxactive
  nmissed := 0
  count := 0
  handlers := []
  log := []
  stamped := 0

inductive FetEvent where
  | tick (ns : Nat)
  | enter (task : Nat) (mm : Bool)
  | ret (task : Nat) (retval : BitVec 32)
  | load (i : Nat)
  | store (i : Nat)
  | print (i : Nat)

/-- The task is inside `ret_handler`. -/
def Fet.busy (s : Fet) (task : Nat) : Bool := s.handlers.any fun h => h.task = task

def Fet.push (s : Fet) (task : Nat) (probed : Bool) : Fet :=
  { s with calls := Function.update s.calls task (⟨s.now, probed⟩ :: s.calls task) }

/-- The task calls the function. -/
def Fet.enter (s : Fet) (task : Nat) (mm : Bool) : Fet :=
  if s.free = 0 then { s.push task false with nmissed := s.nmissed + 1 }
  else
    match entryHandler mm s.now with
    | none => s.push task false
    | some stamp =>
        { s.push task true with
          used := (task, stamp) :: s.used
          free := s.free - 1
          stamped := s.stamped + 1 }

/-- The last call of the task returns `retval`; `a` is that call and `rest` are
    those below it. -/
def Fet.ret (s : Fet) (task : Nat) (retval : BitVec 32) (a : Activation) (rest : List Activation) :
    Fet :=
  let s := { s with calls := Function.update s.calls task rest }
  if a.probed then
    match popKey task s.used with
    | none => s
    | some (entryStamp, used) =>
        { s with
          used
          handlers := s.handlers ++
            [⟨task, retval, s.now - entryStamp, s.now - a.enteredAt, .start⟩] }
  else s

def fetStep (s : Fet) : FetEvent → Fet
  | .tick ns => { s with now := s.now + ns }
  | .enter task mm => if s.busy task then s else s.enter task mm
  | .ret task retval =>
      if s.busy task then s
      else
        match s.calls task with
        | [] => s
        | a :: rest => s.ret task retval a rest
  | .load i =>
      match s.handlers[i]? with
      | none => s
      | some h =>
          match h.pc with
          | .start =>
              { s with handlers := s.handlers.eraseIdx i ++ [{ h with pc := .loaded s.count }] }
          | .loaded _ => s
          | .stored _ => s
  | .store i =>
      match s.handlers[i]? with
      | none => s
      | some h =>
          match h.pc with
          | .start => s
          | .loaded v =>
              { s with
                count := v + 1
                handlers := s.handlers.set i { h with pc := .stored v } }
          | .stored _ => s
  | .print i =>
      match s.handlers[i]? with
      | none => s
      | some h =>
          match h.pc with
          | .start => s
          | .loaded _ => s
          | .stored v =>
              -- the instance is free again
              { s with
                log := s.log ++ [⟨v, h.retval, h.delta, h.took⟩]
                handlers := s.handlers.eraseIdx i
                free := s.free + 1 }

/-! ## Every duration belongs to its call -/

/-- The times at which the probed calls of a task were entered, the last first. -/
def probedTimes (stack : List Activation) : List Int :=
  (stack.filter fun a => a.probed).map Activation.enteredAt

/-- The invariant of the instances. -/
structure Matched (s : Fet) : Prop where
  pool : s.used.length + s.handlers.length + s.free = maxactive
  account : s.log.length + s.handlers.length + s.used.length = s.stamped
  stamps : ∀ task, stackOf task s.used = probedTimes (s.calls task)
  past : ∀ task, ∀ a ∈ s.calls task, a.enteredAt ≤ s.now
  handlers : ∀ h ∈ s.handlers, h.delta = h.took ∧ 0 ≤ h.took
  log : ∀ l ∈ s.log, l.delta = l.took ∧ 0 ≤ l.took

theorem matched_fetInit : Matched fetInit where
  pool := rfl
  account := rfl
  stamps := fun _ => rfl
  past := fun _ _ h => absurd h List.not_mem_nil
  handlers := fun _ h => absurd h List.not_mem_nil
  log := fun _ h => absurd h List.not_mem_nil

theorem past_push {s : Fet} (hs : Matched s) (task : Nat) (probed : Bool) (t : Nat) :
    ∀ a ∈ (s.push task probed).calls t, a.enteredAt ≤ s.now := by
  intro a ha
  by_cases ht : t = task
  · subst ht
    simp only [Fet.push, Function.update_self] at ha
    rcases List.mem_cons.mp ha with rfl | ha
    · exact Int.le_refl _
    · exact hs.past t a ha
  · simp only [Fet.push, Function.update_of_ne ht] at ha
    exact hs.past t a ha

/-- A call without an instance leaves the stamps as they are. -/
theorem stamps_push_false {s : Fet} (hs : Matched s) (task t : Nat) :
    stackOf t s.used = probedTimes ((s.push task false).calls t) := by
  by_cases ht : t = task
  · subst ht
    simp only [Fet.push, Function.update_self]
    exact hs.stamps t
  · simp only [Fet.push, Function.update_of_ne ht]
    exact hs.stamps t

theorem matched_enter {s : Fet} (hs : Matched s) (task : Nat) (mm : Bool) :
    Matched (s.enter task mm) := by
  unfold Fet.enter
  split
  case isTrue =>
    exact ⟨hs.pool, hs.account, stamps_push_false hs task, past_push hs task false, hs.handlers,
      hs.log⟩
  case isFalse hfree =>
    cases mm with
    | false =>
        exact ⟨hs.pool, hs.account, stamps_push_false hs task, past_push hs task false, hs.handlers,
          hs.log⟩
    | true =>
        have hpool := hs.pool
        have haccount := hs.account
        refine ⟨?_, ?_, fun t => ?_, past_push hs task true, hs.handlers, hs.log⟩
        · show (s.used.length + 1) + s.handlers.length + (s.free - 1) = maxactive
          omega
        · show s.log.length + s.handlers.length + (s.used.length + 1) = s.stamped + 1
          omega
        · show stackOf t ((task, s.now) :: s.used) =
            probedTimes (Function.update s.calls task (⟨s.now, true⟩ :: s.calls task) t)
          by_cases ht : t = task
          · subst ht
            rw [Function.update_self, stackOf_push_self, hs.stamps t]
            rfl
          · rw [Function.update_of_ne ht, stackOf_push_of_ne (Ne.symm ht), hs.stamps t]

/-- The instance that is found is the one of the call that returns. -/
theorem matched_ret {s : Fet} (hs : Matched s) {task : Nat} (retval : BitVec 32) {a : Activation}
    {rest : List Activation} (hstack : s.calls task = a :: rest) :
    Matched (s.ret task retval a rest) := by
  have hstamps := hs.stamps task
  have hentered : a.enteredAt ≤ s.now := hs.past task a (by rw [hstack]; exact List.mem_cons_self ..)
  have hpast : ∀ t, ∀ a' ∈ Function.update s.calls task rest t, a'.enteredAt ≤ s.now := by
    intro t a' ha'
    by_cases ht : t = task
    · subst ht
      rw [Function.update_self] at ha'
      exact hs.past t a' (by rw [hstack]; exact List.mem_cons_of_mem _ ha')
    · rw [Function.update_of_ne ht] at ha'
      exact hs.past t a' ha'
  obtain ⟨at', probed⟩ := a
  rw [hstack] at hstamps
  cases probed with
  | false =>
      refine ⟨hs.pool, hs.account, fun t => ?_, hpast, hs.handlers, hs.log⟩
      simp only [Fet.ret, Bool.false_eq_true, if_false]
      by_cases ht : t = task
      · subst ht
        rw [Function.update_self]
        exact hstamps
      · rw [Function.update_of_ne ht]
        exact hs.stamps t
  | true =>
      have htop : stackOf task s.used = at' :: probedTimes rest := hstamps
      cases hpop : popKey task s.used with
      | none =>
          rw [popKey_none hpop] at htop
          cases htop
      | some r =>
          obtain ⟨stamp, used⟩ := r
          obtain ⟨hfound, hother, hlen⟩ := popKey_some hpop
          rw [hfound] at htop
          obtain ⟨rfl, hrest⟩ := List.cons.inj htop
          have hpool := hs.pool
          have haccount := hs.account
          simp only [Fet.ret, if_true, hpop]
          refine ⟨?_, ?_, fun t => ?_, hpast, fun h hmem => ?_, hs.log⟩
          · simp only [List.length_append, List.length_singleton]
            omega
          · simp only [List.length_append, List.length_singleton]
            omega
          · show stackOf t used = probedTimes (Function.update s.calls task rest t)
            by_cases ht : t = task
            · subst ht
              rw [Function.update_self]
              exact hrest
            · rw [Function.update_of_ne ht, hother t ht]
              exact hs.stamps t
          · rcases List.mem_append.mp hmem with hmem | hmem
            · exact hs.handlers h hmem
            · rw [List.mem_singleton.mp hmem]
              exact ⟨rfl, Int.sub_nonneg_of_le hentered⟩

theorem matched_fetStep {s : Fet} (e : FetEvent) (hs : Matched s) : Matched (fetStep s e) := by
  cases e with
  | tick ns =>
      refine ⟨hs.pool, hs.account, hs.stamps, fun t a ha => ?_, hs.handlers, hs.log⟩
      have := hs.past t a ha
      simp only [fetStep]
      omega
  | enter task mm =>
      simp only [fetStep]
      split
      · exact hs
      · exact matched_enter hs task mm
  | ret task retval =>
      simp only [fetStep]
      split
      · exact hs
      · split
        case h_1 => exact hs
        case h_2 a rest hstack => exact matched_ret hs retval hstack
  | load i =>
      simp only [fetStep]
      split
      case h_1 => exact hs
      case h_2 h hget =>
        split
        case h_1 =>
          obtain ⟨hi, -⟩ := List.getElem?_eq_some_iff.mp hget
          have hpool := hs.pool
          have haccount := hs.account
          have hlen := List.length_eraseIdx_of_lt hi
          refine ⟨?_, ?_, hs.stamps, hs.past, fun h' hmem => ?_, hs.log⟩
          · simp only [List.length_append, List.length_singleton, hlen]
            omega
          · simp only [List.length_append, List.length_singleton, hlen]
            omega
          · rcases List.mem_append.mp hmem with hmem | hmem
            · exact hs.handlers h' (List.mem_of_mem_eraseIdx hmem)
            · rw [List.mem_singleton.mp hmem]
              exact hs.handlers h (List.mem_of_getElem? hget)
        case h_2 => exact hs
        case h_3 => exact hs
  | store i =>
      simp only [fetStep]
      split
      case h_1 => exact hs
      case h_2 h hget =>
        split
        case h_1 => exact hs
        case h_2 v hv =>
          refine ⟨?_, ?_, hs.stamps, hs.past, fun h' hmem => ?_, hs.log⟩
          · rw [List.length_set]
            exact hs.pool
          · rw [List.length_set]
            exact hs.account
          · rcases List.mem_or_eq_of_mem_set hmem with hmem | rfl
            · exact hs.handlers h' hmem
            · exact hs.handlers h (List.mem_of_getElem? hget)
        case h_3 => exact hs
  | print i =>
      simp only [fetStep]
      split
      case h_1 => exact hs
      case h_2 h hget =>
        split
        case h_1 => exact hs
        case h_2 => exact hs
        case h_3 v hv =>
          obtain ⟨hi, -⟩ := List.getElem?_eq_some_iff.mp hget
          have hpool := hs.pool
          have haccount := hs.account
          have hlen := List.length_eraseIdx_of_lt hi
          refine ⟨?_, ?_, hs.stamps, hs.past, fun h' hmem => ?_, fun l hmem => ?_⟩
          · simp only [hlen]
            omega
          · simp only [hlen, List.length_append, List.length_singleton]
            omega
          · exact hs.handlers h' (List.mem_of_mem_eraseIdx hmem)
          · rcases List.mem_append.mp hmem with hmem | hmem
            · exact hs.log l hmem
            · rw [List.mem_singleton.mp hmem]
              exact hs.handlers h (List.mem_of_getElem? hget)

/-- In every state of every run: the pending calls with an instance, the handlers
    in progress and the free instances are `maxactive` in all; every stamped call
    is pending, in a handler or has its line; and every line shows the time its
    own call took, which is not negative. -/
theorem durations_are_own (events : List FetEvent) :
    Along fetStep
      (fun s => s.used.length + s.handlers.length + s.free = maxactive ∧
        s.log.length + s.handlers.length + s.used.length = s.stamped ∧
        ∀ l ∈ s.log, l.delta = l.took ∧ 0 ≤ l.delta) fetInit events := by
  have halong : Along fetStep Matched fetInit events :=
    along_of_step (fun _ e _ hs => matched_fetStep e hs) matched_fetInit
      (guarded_of_forall fun _ _ _ => trivial)
  refine halong.mono fun s hs => ⟨hs.pool, hs.account, fun l hmem => ?_⟩
  obtain ⟨heq, hnonneg⟩ := hs.log l hmem
  exact ⟨heq, heq ▸ hnonneg⟩

/-! ## The numbers of the lines -/

/-- The number a handler has loaded. -/
def CountPc.number : CountPc → Option (BitVec 64)
  | .start => none
  | .loaded v => some v
  | .stored v => some v

/-- The number a handler has loaded and not yet stored back. -/
def CountPc.unstored : CountPc → Option (BitVec 64)
  | .start => none
  | .loaded v => some v
  | .stored _ => none

/-- The numbers of the lines, as printed. -/
def Fet.lines (s : Fet) : List (BitVec 64) := s.log.map Line.index

/-- The numbers loaded and not yet printed, in the order of their loads. -/
def Fet.pending (s : Fet) : List (BitVec 64) := s.handlers.filterMap fun h => h.pc.number

/-- The numbers between load and store. -/
def Fet.unstored (s : Fet) : List (BitVec 64) := s.handlers.filterMap fun h => h.pc.unstored

def Fet.numbers (s : Fet) : List (BitVec 64) := s.lines ++ s.pending

/-- A handler loads `count` only while no other is between its load and its store. -/
def LoadsAlone (s : Fet) (e : FetEvent) : Prop :=
  ∀ i h, e = .load i → s.handlers[i]? = some h → h.pc = .start → s.unstored = []

/-- A handler prints only when all that loaded `count` before it have printed. -/
def PrintsInOrder (s : Fet) (e : FetEvent) : Prop :=
  ∀ i h v, e = .print i → s.handlers[i]? = some h → h.pc = .stored v →
    ∀ h' ∈ s.handlers.take i, h'.pc = .start

def InTurn (s : Fet) (e : FetEvent) : Prop := LoadsAlone s e ∧ PrintsInOrder s e

/-! ### What a step does to the numbers -/

/-- The numbers after a step: as they were, or one of the three steps of a handler
    was made. -/
inductive NumberStep (s : Fet) (e : FetEvent) (s' : Fet) : Prop
  | same (hlines : s'.lines = s.lines) (hpending : s'.pending = s.pending)
      (hunstored : s'.unstored = s.unstored) (hcount : s'.count = s.count)
  | load (i : Nat) (h : RetHandler) (he : e = .load i) (hget : s.handlers[i]? = some h)
      (hpc : h.pc = .start) (hlines : s'.lines = s.lines)
      (hpending : s'.pending = s.pending ++ [s.count])
      (hunstored : s'.unstored = s.unstored ++ [s.count]) (hcount : s'.count = s.count)
  | store (v : BitVec 64) (hlines : s'.lines = s.lines) (hpending : s'.pending = s.pending)
      (hunstored : s.unstored.Perm (v :: s'.unstored)) (hcount : s'.count = v + 1)
  | print (i : Nat) (h : RetHandler) (v : BitVec 64) (later : List (BitVec 64))
      (he : e = .print i) (hget : s.handlers[i]? = some h) (hpc : h.pc = .stored v)
      (hlines : s'.lines = s.lines ++ [v])
      (hpending : s.pending = (s.handlers.take i).filterMap (fun h => h.pc.number) ++ v :: later)
      (hpending' : s'.pending = (s.handlers.take i).filterMap (fun h => h.pc.number) ++ later)
      (hunstored : s'.unstored = s.unstored) (hcount : s'.count = s.count)

theorem numberStep_enter (s : Fet) (e : FetEvent) (task : Nat) (mm : Bool) :
    NumberStep s e (s.enter task mm) := by
  unfold Fet.enter
  split
  · exact .same rfl rfl rfl rfl
  · split <;> exact .same rfl rfl rfl rfl

theorem numberStep_ret (s : Fet) (e : FetEvent) (task : Nat) (retval : BitVec 32) (a : Activation)
    (rest : List Activation) : NumberStep s e (s.ret task retval a rest) := by
  simp only [Fet.ret]
  split
  · split
    · exact .same rfl rfl rfl rfl
    · -- the new handler has not loaded anything
      refine .same rfl ?_ ?_ rfl
      · simp [Fet.pending, CountPc.number]
      · simp [Fet.unstored, CountPc.unstored]
  · exact .same rfl rfl rfl rfl

theorem load_numbers {s : Fet} {i : Nat} {h : RetHandler} (hget : s.handlers[i]? = some h)
    (hpc : h.pc = .start) :
    (fetStep s (.load i)).lines = s.lines ∧
      (fetStep s (.load i)).pending = s.pending ++ [s.count] ∧
      (fetStep s (.load i)).unstored = s.unstored ++ [s.count] ∧
      (fetStep s (.load i)).count = s.count := by
  obtain ⟨hold, herase, -⟩ := around_getElem? hget
  have hstep : fetStep s (.load i) =
      { s with handlers := s.handlers.eraseIdx i ++ [{ h with pc := .loaded s.count }] } := by
    simp only [fetStep, hget, hpc]
  rw [hstep]
  refine ⟨rfl, ?_, ?_, rfl⟩
  · conv_rhs => rw [Fet.pending, hold]
    simp [Fet.pending, herase, hpc, CountPc.number]
  · conv_rhs => rw [Fet.unstored, hold]
    simp [Fet.unstored, herase, hpc, CountPc.unstored]

theorem numberStep_store {s : Fet} {i : Nat} {h : RetHandler} {v : BitVec 64}
    (hget : s.handlers[i]? = some h) (hpc : h.pc = .loaded v) :
    NumberStep s (.store i) (fetStep s (.store i)) := by
  obtain ⟨hold, -, hset⟩ := around_getElem? hget
  have hstep : fetStep s (.store i) =
      { s with
        count := v + 1
        handlers := s.handlers.set i { h with pc := .stored v } } := by
    simp only [fetStep, hget, hpc]
  rw [hstep]
  refine .store v rfl ?_ ?_ rfl
  · conv_rhs => rw [Fet.pending, hold]
    simp [Fet.pending, hset, hpc, CountPc.number]
  · conv_lhs => rw [Fet.unstored, hold]
    simp [Fet.unstored, hset, hpc, CountPc.unstored]

theorem print_numbers {s : Fet} {i : Nat} {h : RetHandler} {v : BitVec 64}
    (hget : s.handlers[i]? = some h) (hpc : h.pc = .stored v) :
    ∃ later, (fetStep s (.print i)).lines = s.lines ++ [v] ∧
      s.pending = (s.handlers.take i).filterMap (fun h => h.pc.number) ++ v :: later ∧
      (fetStep s (.print i)).pending =
        (s.handlers.take i).filterMap (fun h => h.pc.number) ++ later ∧
      (fetStep s (.print i)).unstored = s.unstored ∧ (fetStep s (.print i)).count = s.count := by
  obtain ⟨hold, herase, -⟩ := around_getElem? hget
  have hstep : fetStep s (.print i) =
      { s with
        log := s.log ++ [⟨v, h.retval, h.delta, h.took⟩]
        handlers := s.handlers.eraseIdx i
        free := s.free + 1 } := by
    simp only [fetStep, hget, hpc]
  rw [hstep]
  refine ⟨(s.handlers.drop (i + 1)).filterMap fun h => h.pc.number, ?_, ?_, ?_, ?_, rfl⟩
  · simp [Fet.lines]
  · conv_lhs => rw [Fet.pending, hold]
    simp [hpc, CountPc.number]
  · simp [Fet.pending, herase]
  · conv_rhs => rw [Fet.unstored, hold]
    simp [Fet.unstored, herase, hpc, CountPc.unstored]

theorem numberStep_fetStep (s : Fet) (e : FetEvent) : NumberStep s e (fetStep s e) := by
  have hsame : NumberStep s e s := .same rfl rfl rfl rfl
  cases e with
  | tick ns => exact .same rfl rfl rfl rfl
  | enter task mm =>
      simp only [fetStep]
      split
      · exact hsame
      · exact numberStep_enter s _ task mm
  | ret task retval =>
      simp only [fetStep]
      split
      · exact hsame
      · split
        · exact hsame
        · exact numberStep_ret s _ task retval _ _
  | load i =>
      cases hget : s.handlers[i]? with
      | none => simpa only [fetStep, hget] using hsame
      | some h =>
          cases hpc : h.pc with
          | start =>
              obtain ⟨hlines, hpending, hunstored, hcount⟩ := load_numbers hget hpc
              exact .load i h rfl hget hpc hlines hpending hunstored hcount
          | loaded v => simpa only [fetStep, hget, hpc] using hsame
          | stored v => simpa only [fetStep, hget, hpc] using hsame
  | store i =>
      cases hget : s.handlers[i]? with
      | none => simpa only [fetStep, hget] using hsame
      | some h =>
          cases hpc : h.pc with
          | start => simpa only [fetStep, hget, hpc] using hsame
          | loaded v => exact numberStep_store hget hpc
          | stored v => simpa only [fetStep, hget, hpc] using hsame
  | print i =>
      cases hget : s.handlers[i]? with
      | none => simpa only [fetStep, hget] using hsame
      | some h =>
          cases hpc : h.pc with
          | start => simpa only [fetStep, hget, hpc] using hsame
          | loaded v => simpa only [fetStep, hget, hpc] using hsame
          | stored v =>
              obtain ⟨later, hlines, hold, hpending, hunstored, hcount⟩ := print_numbers hget hpc
              exact .print i h v later rfl hget hpc hlines hold hpending hunstored hcount

/-! ### Handlers in turn -/

/-- 0, 1, 2, ... -/
def Consecutive (l : List (BitVec 64)) : Prop := l = (List.range l.length).map (BitVec.ofNat 64)

instance (l : List (BitVec 64)) : Decidable (Consecutive l) := inferInstanceAs (Decidable (_ = _))

theorem Consecutive.getElem? {l : List (BitVec 64)} (h : Consecutive l) {i : Nat}
    (hi : i < l.length) : l[i]? = some (BitVec.ofNat 64 i) := by
  rw [h, List.getElem?_map, List.getElem?_range hi]
  rfl

theorem consecutive_append {l : List (BitVec 64)} (h : Consecutive l) {v : BitVec 64}
    (hv : v = BitVec.ofNat 64 l.length) : Consecutive (l ++ [v]) := by
  rw [Consecutive, List.length_append, List.length_singleton, List.range_succ, List.map_append, ← h,
    List.map_cons, List.map_nil, ← hv]

theorem Consecutive.of_append {l l' : List (BitVec 64)} (h : Consecutive (l ++ l')) :
    Consecutive l := by
  have htake := congrArg (List.take l.length) h
  rwa [List.take_left, ← List.map_take, List.take_range, List.length_append,
    Nat.min_eq_left (Nat.le_add_right _ _)] at htake

/-- As long as the 64 bits do not wrap, no number comes twice. -/
theorem Consecutive.nodup {l : List (BitVec 64)} (h : Consecutive l) (hlen : l.length ≤ 2 ^ 64) :
    l.Nodup := by
  rw [h]
  apply List.Nodup.map_on _ List.nodup_range
  intro i hi j hj heq
  rw [List.mem_range] at hi hj
  have hval := congrArg BitVec.toNat heq
  simp only [BitVec.toNat_ofNat] at hval
  omega

/-- Printed and pending numbers together are 0, 1, 2, ...; at most one handler is
    between load and store, and then its number is the last of them. -/
structure InOrder (s : Fet) : Prop where
  numbers : Consecutive s.numbers
  count : (s.unstored = [] ∧ s.count = BitVec.ofNat 64 s.numbers.length) ∨
    (s.unstored = [s.count] ∧ s.count + 1 = BitVec.ofNat 64 s.numbers.length)

theorem inOrder_fetInit : InOrder fetInit := ⟨rfl, Or.inl ⟨rfl, rfl⟩⟩

theorem inOrder_fetStep {s : Fet} {e : FetEvent} (hs : InOrder s) (hok : InTurn s e) :
    InOrder (fetStep s e) := by
  have hnumbers := hs.numbers
  cases numberStep_fetStep s e with
  | same hlines hpending hunstored hcount =>
      have hsame : (fetStep s e).numbers = s.numbers := by
        rw [Fet.numbers, hlines, hpending, Fet.numbers]
      refine ⟨hsame ▸ hnumbers, ?_⟩
      rw [hsame, hunstored, hcount]
      exact hs.count
  | load i h he hget hpc hlines hpending hunstored hcount =>
      have hnil : s.unstored = [] := hok.1 i h he hget hpc
      have hnext : (fetStep s e).numbers = s.numbers ++ [s.count] := by
        rw [Fet.numbers, hlines, hpending, ← List.append_assoc, Fet.numbers]
      have hc : s.count = BitVec.ofNat 64 s.numbers.length := by
        rcases hs.count with ⟨-, hc⟩ | ⟨hsome, -⟩
        · exact hc
        · rw [hnil] at hsome
          cases hsome
      refine ⟨hnext ▸ consecutive_append hnumbers hc, Or.inr ⟨?_, ?_⟩⟩
      · rw [hunstored, hnil, hcount, List.nil_append]
      · rw [hcount, hnext, List.length_append, List.length_singleton, BitVec.ofNat_add, ← hc]
        rfl
  | store v hlines hpending hunstored hcount =>
      have hsame : (fetStep s e).numbers = s.numbers := by
        rw [Fet.numbers, hlines, hpending, Fet.numbers]
      refine ⟨hsame ▸ hnumbers, Or.inl ?_⟩
      rcases hs.count with ⟨hnil, -⟩ | ⟨hone, hc⟩
      · rw [hnil] at hunstored
        exact absurd hunstored.nil_eq (List.cons_ne_nil _ _).symm
      · -- it was the one handler between load and store
        rw [hone] at hunstored
        obtain ⟨rfl, hnil⟩ := List.cons.inj hunstored.singleton_eq
        rw [hcount, hsame]
        exact ⟨hnil.symm, hc⟩
  | print i h v later he hget hpc hlines hpending hpending' hunstored hcount =>
      -- nobody who loaded before is left, so the number printed is the first one pending
      have hbefore : (s.handlers.take i).filterMap (fun h => h.pc.number) = [] := by
        rw [List.filterMap_eq_nil_iff]
        intro h' hmem
        rw [hok.2 i h v he hget hpc h' hmem]
        rfl
      rw [hbefore, List.nil_append] at hpending hpending'
      have hsame : (fetStep s e).numbers = s.numbers := by
        rw [Fet.numbers, hlines, hpending', Fet.numbers, hpending, List.append_assoc,
          List.singleton_append]
      refine ⟨hsame ▸ hnumbers, ?_⟩
      rw [hsame, hunstored, hcount]
      exact hs.count

/-! ### Handlers out of turn -/

/-- The lines are numbered in order, and no number is loaded twice. -/
structure Unspoilt (s : Fet) : Prop where
  lines : Consecutive s.lines
  nodup : s.numbers.Nodup

/-- Lines stay, and so does a number loaded twice: no step restores what is lost. -/
theorem unspoilt_of_fetStep {s : Fet} {e : FetEvent} (h : Unspoilt (fetStep s e)) : Unspoilt s := by
  obtain ⟨hl, hn⟩ := h
  unfold Fet.numbers at hn
  cases numberStep_fetStep s e with
  | same hlines hpending hunstored hcount =>
      rw [hlines, hpending] at hn
      exact ⟨hlines ▸ hl, hn⟩
  | load i h he hget hpc hlines hpending hunstored hcount =>
      rw [hlines, hpending, ← List.append_assoc] at hn
      exact ⟨hlines ▸ hl, hn.of_append_left⟩
  | store v hlines hpending hunstored hcount =>
      rw [hlines, hpending] at hn
      exact ⟨hlines ▸ hl, hn⟩
  | print i h v later he hget hpc hlines hpending hpending' hunstored hcount =>
      refine ⟨(hlines ▸ hl).of_append, ?_⟩
      -- the number has moved from the pending ones to the lines
      rw [hlines, hpending', List.append_assoc, List.singleton_append] at hn
      rw [Fet.numbers, hpending]
      exact ((List.perm_middle.append_left s.lines).nodup_iff).mpr hn

/-- A handler that loads while another is between load and store takes its number. -/
theorem loadsAlone_of_unspoilt {s : Fet} {e : FetEvent} (hs : InOrder s)
    (h : Unspoilt (fetStep s e)) : LoadsAlone s e := by
  rintro i hd rfl hget hpc
  rcases hs.count with ⟨hnil, -⟩ | ⟨hone, -⟩
  · exact hnil
  · exfalso
    have hmem : s.count ∈ s.pending := by
      have hin : s.count ∈ s.unstored := by
        rw [hone]
        exact List.mem_singleton_self _
      obtain ⟨h', hh', hnum⟩ := List.mem_filterMap.mp hin
      refine List.mem_filterMap.mpr ⟨h', hh', ?_⟩
      cases hpc' : h'.pc with
      | start => simp [hpc', CountPc.unstored] at hnum
      | loaded v => simpa [hpc', CountPc.unstored, CountPc.number] using hnum
      | stored v => simp [hpc', CountPc.unstored] at hnum
    obtain ⟨hlines, hpending, -, -⟩ := load_numbers hget hpc
    have hn := h.nodup
    rw [Fet.numbers, hlines, hpending] at hn
    have htwice := hn.of_append_right
    rw [List.nodup_append] at htwice
    exact htwice.2.2 _ hmem _ (List.mem_singleton_self _) rfl

/-- A handler that prints before one that loaded earlier prints a number too high. -/
theorem printsInOrder_of_unspoilt {s : Fet} {e : FetEvent} (hs : InOrder s) (hm : Matched s)
    (h : Unspoilt (fetStep s e)) : PrintsInOrder s e := by
  rintro i hd v rfl hget hpc h' hmem
  obtain ⟨later, hlines, hpending, -, -, -⟩ := print_numbers hget hpc
  generalize hb : (s.handlers.take i).filterMap (fun h => h.pc.number) = before at hpending
  -- the place of the number among the printed and pending ones, and among the lines
  have hplace : v = BitVec.ofNat 64 (s.lines.length + before.length) := by
    have hget' := hs.numbers.getElem? (i := s.lines.length + before.length) (by
      simp only [Fet.numbers, hpending, List.length_append, List.length_cons]
      omega)
    rw [Fet.numbers, hpending, ← List.append_assoc, List.getElem?_append_right (by simp),
      List.length_append, Nat.sub_self] at hget'
    exact Option.some.inj hget'
  have hline : v = BitVec.ofNat 64 s.lines.length := by
    have hget' := h.lines.getElem? (i := s.lines.length) (by simp [hlines])
    rw [hlines, List.getElem?_append_right (Nat.le_refl _), Nat.sub_self] at hget'
    exact Option.some.inj hget'
  have hshort : before.length ≤ maxactive := by
    have hpool := hm.pool
    have hle : before.length ≤ s.handlers.length := by
      rw [← hb]
      exact (List.length_filterMap_le _ _).trans (List.length_take_le' _ _)
    omega
  have hnil : before = [] := by
    have hval := congrArg BitVec.toNat (hplace.symm.trans hline)
    simp only [BitVec.toNat_ofNat] at hval
    have hmax : maxactive = 20 := rfl
    exact List.length_eq_zero_iff.mp (by omega)
  rw [← hb, List.filterMap_eq_nil_iff] at hnil
  have hnone := hnil h' hmem
  cases hpc' : h'.pc with
  | start => rfl
  | loaded w => simp [hpc', CountPc.number] at hnone
  | stored w => simp [hpc', CountPc.number] at hnone

/-- Over every run: as long as every handler loads `count` alone and prints in the
    order of the loads, the lines are numbered 0, 1, 2, ...  And where a run ends
    with no handler in progress and at most `2 ^ 64` lines, they are numbered so only
    then. -/
theorem numbering_iff (events : List FetEvent) :
    (Guarded fetStep InTurn fetInit events →
      Along fetStep (fun s => Consecutive (s.log.map Line.index)) fetInit events) ∧
    ((run fetStep fetInit events).handlers = [] →
      (run fetStep fetInit events).log.length ≤ 2 ^ 64 →
      (Consecutive ((run fetStep fetInit events).log.map Line.index) ↔
        Guarded fetStep InTurn fetInit events)) := by
  have hif : Guarded fetStep InTurn fetInit events →
      Along fetStep (fun s => Consecutive (s.log.map Line.index)) fetInit events := by
    intro hok
    have halong : Along fetStep InOrder fetInit events :=
      along_of_step (fun _ _ hok hs => inOrder_fetStep hs hok) inOrder_fetInit hok
    exact halong.mono fun s hs => hs.numbers.of_append
  refine ⟨hif, fun hdone hlen => ⟨fun hlines => ?_, fun hok => (hif hok).last⟩⟩
  have hend : Unspoilt (run fetStep fetInit events) := by
    refine ⟨hlines, ?_⟩
    rw [Fet.numbers, Fet.pending, hdone, List.filterMap_nil, List.append_nil]
    exact Consecutive.nodup hlines (by rwa [Fet.lines, List.length_map])
  have halong : Along fetStep Unspoilt fetInit events :=
    along_of_last (fun _ _ h => unspoilt_of_fetStep h) hend
  refine guarded_of_along (J := fun s => InOrder s ∧ Matched s) ?_ ?_
    ⟨inOrder_fetInit, matched_fetInit⟩ halong
  · intro s e hs hok
    exact ⟨inOrder_fetStep hs.1 hok, matched_fetStep e hs.2⟩
  · intro s e hs h
    exact ⟨loadsAlone_of_unspoilt hs.1 h, printsInOrder_of_unspoilt hs.1 hs.2 h⟩

/-- Two tasks return at the same time. -/
def twoReturns : List FetEvent := [.enter 1 true, .enter 2 true, .tick 5, .ret 1 0, .ret 2 0]

/-- Both loads come before the stores: two lines have the number 0.  The second
    handler loads after the first has stored and prints before it: the lines have
    the numbers 1 and 0. -/
theorem numbering_out_of_turn :
    (run fetStep fetInit (twoReturns ++
      [FetEvent.load 0, .load 0, .store 0, .store 1, .print 0, .print 0])).log.map
        Line.index = [0, 0] ∧
    ¬ Guarded fetStep InTurn fetInit (twoReturns ++
      [FetEvent.load 0, .load 0, .store 0, .store 1, .print 0, .print 0]) ∧
    (run fetStep fetInit (twoReturns ++
      [FetEvent.load 0, .store 1, .load 0, .store 1, .print 1, .print 0])).log.map
        Line.index = [1, 0] ∧
    ¬ Guarded fetStep InTurn fetInit (twoReturns ++
      [FetEvent.load 0, .store 1, .load 0, .store 1, .print 1, .print 0]) := by
  refine ⟨by decide, fun h => ?_, by decide, fun h => ?_⟩
  · have hlines := ((numbering_iff _).2 (by decide) (by decide)).mpr h
    revert hlines
    decide
  · have hlines := ((numbering_iff _).2 (by decide) (by decide)).mpr h
    revert hlines
    decide

end LinuxModules.Funcexectime
