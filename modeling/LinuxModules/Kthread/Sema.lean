/-
  LinuxModules.Kthread.Sema

  `kthread_sema.c`: a reader and a writer thread share `number` under the
  semaphore `rwsem`, and `down_read_exit` stops the writer and then the reader.

  Each thread advances by one access to `number`, one call of the semaphore or
  one test of `kthread_should_stop` at a time, so that `number++` is a load and a
  later store.  The lines the threads print are kept in `log`.

  * `sema_linearizable`: the log is that of a counter whose operations are atomic.
  * `sema_unload_iff`: the module can be unloaded from every state it can get
    into, exactly if both threads were created.

  `rwsem.count` is printed too and is not part of the lines here.
-/

import LinuxModules.Lib.Run
import LinuxModules.Lib.RwSem
import Mathlib.Data.BitVec

namespace LinuxModules.Kthread

open LinuxModules.Lib

/-! ## The threads -/

inductive Tid where
  | reader
  | writer
  deriving DecidableEq, Repr

theorem Tid.mem_all (t : Tid) : t ∈ ({.reader, .writer} : Finset Tid) := by
  cases t <;> simp

instance : Fintype Tid := ⟨{.reader, .writer}, Tid.mem_all⟩

/-- What `thread_read_func` does next: the test of `kthread_should_stop`,
    `down_read`, the `printk` of `number`, `up_read` (after `msleep`). -/
inductive ReadPc where
  | test
  | downRead
  | printk
  | upRead
  deriving DecidableEq, Repr

/-- What `thread_write_func` does next; `number++` is `load` and `store`. -/
inductive WritePc where
  | test
  | downWrite
  | load
  | store (v : BitVec 64)
  | printk
  | upWrite
  deriving DecidableEq, Repr

/-- What `down_read_exit` does next: `kthread_stop(wthread)`, waiting for the
    writer and then `kthread_stop(rthread)`, waiting for the reader. -/
inductive ExitPc where
  | stopWriter
  | joinWriter
  | joinReader
  | exited
  | oopsed
  deriving DecidableEq, Repr

/-- A printed line. -/
inductive Line where
  | reading (number : BitVec 64)
  | writeDone (number : BitVec 64)
  deriving DecidableEq, Repr

def Line.tid : Line → Tid
  | .reading _ => .reader
  | .writeDone _ => .writer

def ReadPc.hold : ReadPc → Hold
  | .printk | .upRead => .read
  | _ => .free

def WritePc.hold : WritePc → Hold
  | .test | .downWrite => .free
  | _ => .write

/-! ## The module -/

/-- A thread is `none` when its function has returned or `kthread_run` failed. -/
structure Sema where
  number : BitVec 64
  rwsem : RwSem
  rthread : Option ReadPc
  wthread : Option WritePc
  rstop : Bool
  wstop : Bool
  exit : ExitPc
  log : List Line

/-- Whether `kthread_run` created the threads. -/
structure Created where
  rthread : Bool
  wthread : Bool
  deriving DecidableEq, Repr

/-- `down_read_init`: the results of `kthread_run` are only printed. -/
def downReadInit (c : Created) : Sema where
  number := 0
  rwsem := .init
  rthread := if c.rthread then some .test else none
  wthread := if c.wthread then some .test else none
  rstop := false
  wstop := false
  exit := .stopWriter
  log := []

def threadReadFunc (s : Sema) : ReadPc → Sema
  | .test => { s with rthread := if s.rstop then none else some .downRead }
  | .downRead =>
      match s.rwsem.downRead with
      | none => s
      | some sem => { s with rwsem := sem, rthread := some .printk }
  | .printk => { s with rthread := some .upRead, log := s.log ++ [.reading s.number] }
  | .upRead => { s with rwsem := s.rwsem.upRead, rthread := some .test }

def threadWriteFunc (s : Sema) : WritePc → Sema
  | .test => { s with wthread := if s.wstop then none else some .downWrite }
  | .downWrite =>
      match s.rwsem.downWrite with
      | none => s
      | some sem => { s with rwsem := sem, wthread := some .load }
  | .load => { s with wthread := some (.store (s.number + 1)) }
  | .store v => { s with number := v, wthread := some .printk }
  | .printk => { s with wthread := some .upWrite, log := s.log ++ [.writeDone s.number] }
  | .upWrite => { s with rwsem := s.rwsem.upWrite, wthread := some .test }

/-- `down_read_exit`.  `kthread_stop` of the error pointer that `kthread_run`
    returned is an oops; of a thread, it waits until its function has returned. -/
def downReadExit (c : Created) (s : Sema) : Sema :=
  match s.exit with
  | .stopWriter =>
      if c.wthread then { s with wstop := true, exit := .joinWriter }
      else { s with exit := .oopsed }
  | .joinWriter =>
      if s.wthread ≠ none then s
      else if c.rthread then { s with rstop := true, exit := .joinReader }
      else { s with exit := .oopsed }
  | .joinReader => if s.rthread ≠ none then s else { s with exit := .exited }
  | .exited => s
  | .oopsed => s

/-- Who makes the next step. -/
inductive Actor where
  | reader
  | writer
  | exit
  deriving DecidableEq, Repr

def semaStep (c : Created) (s : Sema) : Actor → Sema
  | .reader =>
      match s.rthread with
      | none => s
      | some pc => threadReadFunc s pc
  | .writer =>
      match s.wthread with
      | none => s
      | some pc => threadWriteFunc s pc
  | .exit => downReadExit c s

/-! ## The counter it is meant to be -/

/-- Each operation at once: the reader prints the counter, the writer increments
    it and prints the result. -/
def counterStep (n : BitVec 64) : Tid → BitVec 64 × Line
  | .reader => (n, .reading n)
  | .writer => (n + 1, .writeDone (n + 1))

/-- The operations the log shows, in its order. -/
def Sema.ops (s : Sema) : List Tid := s.log.map Line.tid

/-- The counter after them. -/
def Sema.counter (s : Sema) : BitVec 64 := final counterStep 0 s.ops

/-! ## The invariant -/

def Sema.holds (s : Sema) : Tid → Hold
  | .reader => (s.rthread.map ReadPc.hold).getD .free
  | .writer => (s.wthread.map WritePc.hold).getD .free

/-- How `number` and the writer stand to the counter of the log: the writer has
    stored a value that it has not printed yet, or is about to store it. -/
def Sema.Written (s : Sema) : Option WritePc → Prop
  | some .printk => s.number = s.counter + 1
  | some (.store v) => s.number = s.counter ∧ v = s.counter + 1
  | _ => s.number = s.counter

structure SemaInv (s : Sema) : Prop where
  agrees : s.rwsem.Agrees s.holds
  log : s.log = outputs counterStep 0 s.ops
  written : s.Written s.wthread

/-- A step of the reader changes only how the reader holds the semaphore. -/
theorem Sema.agrees_of_wthread {s s' : Sema} {k : Hold} (hw : s'.wthread = s.wthread)
    (hk : s'.holds .reader = k) (h : s'.rwsem.Agrees (Function.update s.holds .reader k)) :
    s'.rwsem.Agrees s'.holds := by
  have hholds : s'.holds = Function.update s.holds .reader k := by
    funext t
    cases t with
    | reader => rw [Function.update_self, hk]
    | writer =>
        have hne : Tid.writer ≠ Tid.reader := by decide
        rw [Function.update_of_ne hne, Sema.holds, Sema.holds, hw]
  rw [hholds]
  exact h

theorem Sema.agrees_of_rthread {s s' : Sema} {k : Hold} (hr : s'.rthread = s.rthread)
    (hk : s'.holds .writer = k) (h : s'.rwsem.Agrees (Function.update s.holds .writer k)) :
    s'.rwsem.Agrees s'.holds := by
  have hholds : s'.holds = Function.update s.holds .writer k := by
    funext t
    cases t with
    | reader =>
        have hne : Tid.reader ≠ Tid.writer := by decide
        rw [Function.update_of_ne hne, Sema.holds, Sema.holds, hr]
    | writer => rw [Function.update_self, hk]
  rw [hholds]
  exact h

theorem SemaInv.number_of_not_writing {s : Sema} (hs : SemaInv s) (h : s.holds .writer ≠ .write) :
    s.number = s.counter := by
  have hwritten := hs.written
  cases hpc : s.wthread with
  | none => rwa [hpc] at hwritten
  | some pc =>
      rw [hpc] at hwritten
      cases pc with
      | test => exact hwritten
      | downWrite => exact hwritten
      | _ => exact absurd (by simp [Sema.holds, hpc, WritePc.hold]) h

/-- While the reader is inside, the writer has nothing unprinted. -/
theorem SemaInv.number_of_reading {s : Sema} (hs : SemaInv s) (h : s.holds .reader = .read) :
    s.number = s.counter := by
  apply hs.number_of_not_writing
  intro hw
  have := hs.agrees.alone .writer .reader hw (by rw [h]; decide)
  cases this

/-- A printed line is one more operation of the counter. -/
theorem log_append {log : List Line} {line : Line}
    (hlog : log = outputs counterStep 0 (log.map Line.tid))
    (hline : line = (counterStep (final counterStep 0 (log.map Line.tid)) line.tid).2) :
    log ++ [line] = outputs counterStep 0 ((log ++ [line]).map Line.tid) := by
  rw [List.map_append, outputs_append, ← hlog, List.map_cons, List.map_nil, outputs, outputs,
    ← hline]

theorem counter_append (log : List Line) (line : Line) :
    final counterStep 0 ((log ++ [line]).map Line.tid) =
      (counterStep (final counterStep 0 (log.map Line.tid)) line.tid).1 := by
  rw [List.map_append, final_append]
  rfl

theorem semaInv_reader {s : Sema} {pc : ReadPc} (hpc : s.rthread = some pc) (hs : SemaInv s) :
    SemaInv (threadReadFunc s pc) := by
  have hold : s.holds .reader = pc.hold := by simp [Sema.holds, hpc]
  -- a step that neither takes nor releases the semaphore
  have hstays : s.rwsem.Agrees (Function.update s.holds .reader pc.hold) := by
    rw [← hold, Function.update_eq_self]
    exact hs.agrees
  cases pc with
  | test =>
      refine ⟨Sema.agrees_of_wthread (s := s) rfl ?_ hstays, hs.log, hs.written⟩
      simp only [Sema.holds, threadReadFunc]
      split <;> rfl
  | downRead =>
      cases hdown : s.rwsem.downRead with
      | none =>
          simp only [threadReadFunc, hdown]
          exact hs
      | some sem =>
          simp only [threadReadFunc, hdown]
          have hin := hs.agrees.downRead hold hdown
          exact ⟨Sema.agrees_of_wthread (s := s) rfl rfl hin, hs.log, hs.written⟩
  | printk =>
      have hnumber := hs.number_of_reading hold
      have hcounter : (threadReadFunc s .printk).counter = s.counter :=
        counter_append s.log (.reading s.number)
      refine ⟨Sema.agrees_of_wthread (s := s) rfl rfl hstays, ?_, ?_⟩
      · exact log_append hs.log (by rw [hnumber]; rfl)
      · have hwritten := hs.written
        unfold Sema.Written at hwritten ⊢
        rw [hcounter]
        exact hwritten
  | upRead =>
      have hout := hs.agrees.upRead hold
      exact ⟨Sema.agrees_of_wthread (s := s) rfl rfl hout, hs.log, hs.written⟩

theorem semaInv_writer {s : Sema} {pc : WritePc} (hpc : s.wthread = some pc) (hs : SemaInv s) :
    SemaInv (threadWriteFunc s pc) := by
  have hold : s.holds .writer = pc.hold := by simp [Sema.holds, hpc]
  have hstays : s.rwsem.Agrees (Function.update s.holds .writer pc.hold) := by
    rw [← hold, Function.update_eq_self]
    exact hs.agrees
  have hwritten := hs.written
  rw [hpc] at hwritten
  cases pc with
  | test =>
      refine ⟨Sema.agrees_of_rthread (s := s) rfl ?_ hstays, hs.log, ?_⟩
      · simp only [Sema.holds, threadWriteFunc]
        split <;> rfl
      · simp only [threadWriteFunc]
        split <;> exact hwritten
  | downWrite =>
      cases hdown : s.rwsem.downWrite with
      | none =>
          simp only [threadWriteFunc, hdown]
          exact hs
      | some sem =>
          simp only [threadWriteFunc, hdown]
          have hin := hs.agrees.downWrite hold hdown
          exact ⟨Sema.agrees_of_rthread (s := s) rfl rfl hin, hs.log, hwritten⟩
  | load =>
      have hnumber : s.number = s.counter := hwritten
      refine ⟨Sema.agrees_of_rthread (s := s) rfl rfl hstays, hs.log, hnumber, ?_⟩
      rw [hnumber]
      rfl
  | store v =>
      exact ⟨Sema.agrees_of_rthread (s := s) rfl rfl hstays, hs.log, hwritten.2⟩
  | printk =>
      have hnumber : s.number = s.counter + 1 := hwritten
      have hcounter : (threadWriteFunc s .printk).counter = s.counter + 1 :=
        counter_append s.log (.writeDone s.number)
      refine ⟨Sema.agrees_of_rthread (s := s) rfl rfl hstays, ?_, ?_⟩
      · exact log_append hs.log (by rw [hnumber]; rfl)
      · show s.number = (threadWriteFunc s .printk).counter
        rw [hnumber, hcounter]
  | upWrite =>
      have hout := hs.agrees.upWrite hold
      exact ⟨Sema.agrees_of_rthread (s := s) rfl rfl hout, hs.log, hwritten⟩

theorem downReadExit_frame (c : Created) (s : Sema) :
    (downReadExit c s).number = s.number ∧ (downReadExit c s).rwsem = s.rwsem ∧
      (downReadExit c s).rthread = s.rthread ∧ (downReadExit c s).wthread = s.wthread ∧
      (downReadExit c s).log = s.log := by
  unfold downReadExit
  split
  · split <;> exact ⟨rfl, rfl, rfl, rfl, rfl⟩
  · split
    · exact ⟨rfl, rfl, rfl, rfl, rfl⟩
    · split <;> exact ⟨rfl, rfl, rfl, rfl, rfl⟩
  · split <;> exact ⟨rfl, rfl, rfl, rfl, rfl⟩
  · exact ⟨rfl, rfl, rfl, rfl, rfl⟩
  · exact ⟨rfl, rfl, rfl, rfl, rfl⟩

theorem semaInv_semaStep {c : Created} {s : Sema} (a : Actor) (hs : SemaInv s) :
    SemaInv (semaStep c s a) := by
  cases a with
  | reader =>
      simp only [semaStep]
      split
      case h_1 => exact hs
      case h_2 pc hpc => exact semaInv_reader hpc hs
  | writer =>
      simp only [semaStep]
      split
      case h_1 => exact hs
      case h_2 pc hpc => exact semaInv_writer hpc hs
  | exit =>
      obtain ⟨hn, hsem, hr, hw, hlog⟩ := downReadExit_frame c s
      have hholds : (downReadExit c s).holds = s.holds := by
        funext t
        cases t with
        | reader => simp only [Sema.holds, hr]
        | writer => simp only [Sema.holds, hw]
      have hcounter : (downReadExit c s).counter = s.counter := by
        simp only [Sema.counter, Sema.ops, hlog]
      refine ⟨?_, ?_, ?_⟩
      · simp only [semaStep, hsem, hholds]
        exact hs.agrees
      · simp only [semaStep, Sema.ops, hlog]
        exact hs.log
      · have hwritten := hs.written
        unfold Sema.Written at hwritten ⊢
        simp only [semaStep, hn, hw, hcounter]
        exact hwritten

theorem semaInv_init (c : Created) : SemaInv (downReadInit c) where
  agrees := by
    apply RwSem.agrees_init
    intro t
    cases t with
    | reader => cases hc : c.rthread <;> simp [Sema.holds, downReadInit, hc, ReadPc.hold]
    | writer => cases hc : c.wthread <;> simp [Sema.holds, downReadInit, hc, WritePc.hold]
  log := rfl
  written := by
    cases hc : c.wthread <;> simp only [downReadInit, hc] <;> rfl

/-- In every state of every run: the reader is outside while the writer is inside;
    the lines printed so far are those of the counter, taking its operations one
    after the other; and `number` is the counter whenever nobody writes. -/
theorem sema_linearizable (c : Created) (actors : List Actor) :
    Along (semaStep c)
      (fun s => (s.holds .writer = .write → s.holds .reader = .free) ∧
        s.log = outputs counterStep 0 (s.log.map Line.tid) ∧
        (s.holds .writer ≠ .write → s.number = final counterStep 0 (s.log.map Line.tid)))
      (downReadInit c) actors := by
  have hinv : Along (semaStep c) SemaInv (downReadInit c) actors :=
    along_of_step (fun s a _ => semaInv_semaStep a) (semaInv_init c)
      (guarded_of_forall fun _ _ _ => trivial)
  refine hinv.mono fun s hs => ⟨fun hw => ?_, hs.log, hs.number_of_not_writing⟩
  by_contra hr
  have := hs.agrees.alone .writer .reader hw hr
  cases this

/-! ## Unloading -/

/-- What the position of `down_read_exit` says about the threads. -/
structure ExitInv (c : Created) (s : Sema) : Prop where
  inv : SemaInv s
  writer : s.exit = .joinWriter → c.wthread = true ∧ s.wstop = true
  reader : s.exit = .joinReader →
    c.rthread = true ∧ c.wthread = true ∧ s.rstop = true ∧ s.wthread = none
  exited : s.exit = .exited →
    c.rthread = true ∧ c.wthread = true ∧ s.rthread = none ∧ s.wthread = none

/-- A thread function leaves the rest of the module alone. -/
theorem threadReadFunc_frame (s : Sema) (pc : ReadPc) :
    (threadReadFunc s pc).wthread = s.wthread ∧ (threadReadFunc s pc).rstop = s.rstop ∧
      (threadReadFunc s pc).wstop = s.wstop ∧ (threadReadFunc s pc).exit = s.exit := by
  cases pc with
  | downRead => cases hdown : s.rwsem.downRead <;> simp only [threadReadFunc, hdown, and_self]
  | _ => exact ⟨rfl, rfl, rfl, rfl⟩

theorem threadWriteFunc_frame (s : Sema) (pc : WritePc) :
    (threadWriteFunc s pc).rthread = s.rthread ∧ (threadWriteFunc s pc).rstop = s.rstop ∧
      (threadWriteFunc s pc).wstop = s.wstop ∧ (threadWriteFunc s pc).exit = s.exit := by
  cases pc with
  | downWrite => cases hdown : s.rwsem.downWrite <;> simp only [threadWriteFunc, hdown, and_self]
  | _ => exact ⟨rfl, rfl, rfl, rfl⟩

theorem exitInv_semaStep {c : Created} {s : Sema} (a : Actor) (hs : ExitInv c s) :
    ExitInv c (semaStep c s a) := by
  have hinv := semaInv_semaStep (c := c) a hs.inv
  cases a with
  | reader =>
      cases hpc : s.rthread with
      | none =>
          simp only [semaStep, hpc]
          exact hs
      | some pc =>
          obtain ⟨hw, hrs, hws, hexit⟩ := threadReadFunc_frame s pc
          refine ⟨hinv, ?_, ?_, ?_⟩ <;> simp only [semaStep, hpc, hw, hrs, hws, hexit]
          · exact hs.writer
          · exact hs.reader
          · -- there is no reader left
            intro hdone
            rw [(hs.exited hdone).2.2.1] at hpc
            cases hpc
  | writer =>
      cases hpc : s.wthread with
      | none =>
          simp only [semaStep, hpc]
          exact hs
      | some pc =>
          obtain ⟨hr, hrs, hws, hexit⟩ := threadWriteFunc_frame s pc
          refine ⟨hinv, ?_, ?_, ?_⟩ <;> simp only [semaStep, hpc, hr, hrs, hws, hexit]
          · exact hs.writer
          · intro hjoin
            rw [(hs.reader hjoin).2.2.2] at hpc
            cases hpc
          · intro hdone
            rw [(hs.exited hdone).2.2.2] at hpc
            cases hpc
  | exit =>
      cases hexit : s.exit with
      | stopWriter =>
          cases hc : c.wthread with
          | false =>
              refine ⟨hinv, ?_, ?_, ?_⟩ <;> simp [semaStep, downReadExit, hexit, hc]
          | true =>
              refine ⟨hinv, ?_, ?_, ?_⟩ <;> simp [semaStep, downReadExit, hexit, hc]
      | joinWriter =>
          obtain ⟨hwc, hwstop⟩ := hs.writer hexit
          by_cases hw : s.wthread = none
          · cases hc : c.rthread with
            | false =>
                refine ⟨hinv, ?_, ?_, ?_⟩ <;> simp [semaStep, downReadExit, hexit, hc, hw]
            | true =>
                refine ⟨hinv, ?_, ?_, ?_⟩ <;> simp [semaStep, downReadExit, hexit, hc, hw, hwc]
          · have hsame : semaStep c s .exit = s := by
              simp only [semaStep, downReadExit, hexit, ne_eq, hw, not_false_eq_true, if_true]
            rw [hsame]
            exact hs
      | joinReader =>
          obtain ⟨hrc, hwc, hrstop, hw⟩ := hs.reader hexit
          by_cases hr : s.rthread = none
          · refine ⟨hinv, ?_, ?_, ?_⟩ <;> simp [semaStep, downReadExit, hexit, hr, hw, hrc, hwc]
          · have hsame : semaStep c s .exit = s := by
              simp only [semaStep, downReadExit, hexit, ne_eq, hr, not_false_eq_true, if_true]
            rw [hsame]
            exact hs
      | exited =>
          have hsame : semaStep c s .exit = s := by simp only [semaStep, downReadExit, hexit]
          rw [hsame]
          exact hs
      | oopsed =>
          have hsame : semaStep c s .exit = s := by simp only [semaStep, downReadExit, hexit]
          rw [hsame]
          exact hs

theorem exitInv_init (c : Created) : ExitInv c (downReadInit c) := by
  refine ⟨semaInv_init c, ?_, ?_, ?_⟩ <;> simp [downReadInit]

/-- Some continuation completes `down_read_exit`. -/
def CanExit (c : Created) (s : Sema) : Prop := ∃ more, (run (semaStep c) s more).exit = .exited

theorem CanExit.of_step {c : Created} {s : Sema} (a : Actor) (h : CanExit c (semaStep c s a)) :
    CanExit c s := by
  obtain ⟨more, hmore⟩ := h
  exact ⟨a :: more, hmore⟩

/-- The steps a stopped reader still makes if nobody is in its way. -/
def readLeft : Option ReadPc → Nat
  | none => 0
  | some .test => 1
  | some .upRead => 2
  | some .printk => 3
  | some .downRead => 4

def writeLeft : Option WritePc → Nat
  | none => 0
  | some .test => 1
  | some .upWrite => 2
  | some .printk => 3
  | some (.store _) => 4
  | some .load => 5
  | some .downWrite => 6

section

variable {c : Created} {s : Sema}

theorem readLeft_lt (hs : SemaInv s) (hstop : s.rstop = true) (hw : s.wthread = none)
    {pc : ReadPc} (hpc : s.rthread = some pc) :
    readLeft (semaStep c s .reader).rthread < readLeft s.rthread := by
  rw [hpc]
  cases pc with
  | test => simp [semaStep, hpc, threadReadFunc, hstop, readLeft]
  | downRead =>
      have hout : ∀ t, s.holds t ≠ .write := by
        intro t
        cases t with
        | reader => simp [Sema.holds, hpc, ReadPc.hold]
        | writer => simp [Sema.holds, hw]
      obtain ⟨sem, hdown⟩ := hs.agrees.downRead_isSome hout
      simp [semaStep, hpc, threadReadFunc, hdown, readLeft]
  | printk => simp [semaStep, hpc, threadReadFunc, readLeft]
  | upRead => simp [semaStep, hpc, threadReadFunc, readLeft]

theorem writeLeft_lt (hs : SemaInv s) (hstop : s.wstop = true) (hr : s.holds .reader = .free)
    {pc : WritePc} (hpc : s.wthread = some pc) :
    writeLeft (semaStep c s .writer).wthread < writeLeft s.wthread := by
  rw [hpc]
  cases pc with
  | test => simp [semaStep, hpc, threadWriteFunc, hstop, writeLeft]
  | downWrite =>
      have hout : ∀ t, s.holds t = .free := by
        intro t
        cases t with
        | reader => exact hr
        | writer => simp [Sema.holds, hpc, WritePc.hold]
      obtain ⟨sem, hdown⟩ := hs.agrees.downWrite_isSome hout
      simp [semaStep, hpc, threadWriteFunc, hdown, writeLeft]
  | load => simp [semaStep, hpc, threadWriteFunc, writeLeft]
  | store v => simp [semaStep, hpc, threadWriteFunc, writeLeft]
  | printk => simp [semaStep, hpc, threadWriteFunc, writeLeft]
  | upWrite => simp [semaStep, hpc, threadWriteFunc, writeLeft]

/-- The writer is gone: the reader runs until it sees that it should stop. -/
theorem canExit_of_joinReader (hs : ExitInv c s) (hexit : s.exit = .joinReader) :
    CanExit c s := by
  induction hn : readLeft s.rthread using Nat.strongRecOn generalizing s with
  | ind n ih =>
      obtain ⟨-, -, hstop, hw⟩ := hs.reader hexit
      cases hpc : s.rthread with
      | none => exact CanExit.of_step .exit ⟨[], by simp [run, semaStep, downReadExit, hexit, hpc]⟩
      | some pc =>
          apply CanExit.of_step .reader
          refine ih _ (hn ▸ readLeft_lt hs.inv hstop hw hpc) (exitInv_semaStep .reader hs) ?_ rfl
          rw [semaStep, hpc]
          exact (threadReadFunc_frame s pc).2.2.2.trans hexit

/-- The reader is outside: the writer runs until it sees that it should stop. -/
theorem canExit_of_joinWriter_free (hs : ExitInv c s) (hc : c.rthread = true)
    (hexit : s.exit = .joinWriter) (hr : s.holds .reader = .free) : CanExit c s := by
  induction hn : writeLeft s.wthread using Nat.strongRecOn generalizing s with
  | ind n ih =>
      obtain ⟨-, hstop⟩ := hs.writer hexit
      cases hpc : s.wthread with
      | none =>
          apply CanExit.of_step .exit
          apply canExit_of_joinReader (exitInv_semaStep .exit hs)
          simp [semaStep, downReadExit, hexit, hpc, hc]
      | some pc =>
          obtain ⟨hrt, -, -, hexit'⟩ := threadWriteFunc_frame s pc
          apply CanExit.of_step .writer
          refine ih _ (hn ▸ writeLeft_lt hs.inv hstop hr hpc) (exitInv_semaStep .writer hs) ?_ ?_ rfl
          · rw [semaStep, hpc]
            exact hexit'.trans hexit
          · rw [← hr]
            simp only [semaStep, hpc, Sema.holds, hrt]

theorem canExit_of_joinWriter (hs : ExitInv c s) (hc : c.rthread = true)
    (hexit : s.exit = .joinWriter) : CanExit c s := by
  -- the reader first leaves the critical section, if it is inside
  have hup : ∀ s : Sema, ExitInv c s → s.exit = .joinWriter → s.rthread = some .upRead →
      CanExit c s := by
    intro s hs hexit hpc
    apply CanExit.of_step .reader
    apply canExit_of_joinWriter_free (exitInv_semaStep .reader hs) hc
    · simp [semaStep, hpc, threadReadFunc, hexit]
    · simp [semaStep, hpc, threadReadFunc, Sema.holds, ReadPc.hold]
  cases hpc : s.rthread with
  | none => exact canExit_of_joinWriter_free hs hc hexit (by simp [Sema.holds, hpc])
  | some pc =>
      cases pc with
      | test =>
          exact canExit_of_joinWriter_free hs hc hexit (by simp [Sema.holds, hpc, ReadPc.hold])
      | downRead =>
          exact canExit_of_joinWriter_free hs hc hexit (by simp [Sema.holds, hpc, ReadPc.hold])
      | upRead => exact hup s hs hexit hpc
      | printk =>
          apply CanExit.of_step .reader
          apply hup _ (exitInv_semaStep .reader hs)
          · simp [semaStep, hpc, threadReadFunc, hexit]
          · simp [semaStep, hpc, threadReadFunc]

end

theorem ne_oopsed_of_created {c : Created} (hr : c.rthread = true) (hw : c.wthread = true) (s : Sema)
    (a : Actor) (h : s.exit ≠ .oopsed) : (semaStep c s a).exit ≠ .oopsed := by
  cases a with
  | reader =>
      simp only [semaStep]
      split
      case h_1 => exact h
      case h_2 pc _ =>
        rw [(threadReadFunc_frame s pc).2.2.2]
        exact h
  | writer =>
      simp only [semaStep]
      split
      case h_1 => exact h
      case h_2 pc _ =>
        rw [(threadWriteFunc_frame s pc).2.2.2]
        exact h
  | exit =>
      simp only [semaStep, downReadExit]
      split
      case h_1 => simp [hw]
      case h_2 hexit =>
        split
        · exact h
        · simp
      case h_3 =>
        split
        · exact h
        · simp
      case h_4 => exact h
      case h_5 hoops => exact absurd hoops h

/-- If both threads were created, then whatever they have done so far, unloading
    can be completed, and it leaves no thread and the semaphore free.  If
    `kthread_run` failed for one of them, no run completes it. -/
theorem sema_unload_iff (c : Created) :
    ((c.rthread = true ∧ c.wthread = true) ↔
      ∀ actors, CanExit c (run (semaStep c) (downReadInit c) actors)) ∧
    (¬ (c.rthread = true ∧ c.wthread = true) →
      ∀ actors, (run (semaStep c) (downReadInit c) actors).exit ≠ .exited) ∧
    ∀ actors, (run (semaStep c) (downReadInit c) actors).exit = .exited →
      (run (semaStep c) (downReadInit c) actors).rthread = none ∧
      (run (semaStep c) (downReadInit c) actors).wthread = none ∧
      (run (semaStep c) (downReadInit c) actors).rwsem = .init := by
  have hinv : ∀ actors, ExitInv c (run (semaStep c) (downReadInit c) actors) :=
    fun actors => run_invariant (fun s a hs => exitInv_semaStep a hs) (exitInv_init c) actors
  have hcreated : ∀ actors, (run (semaStep c) (downReadInit c) actors).exit = .exited →
      c.rthread = true ∧ c.wthread = true := by
    intro actors hdone
    obtain ⟨hr, hw, -⟩ := (hinv actors).exited hdone
    exact ⟨hr, hw⟩
  refine ⟨⟨?_, ?_⟩, fun hno actors hdone => hno (hcreated actors hdone), ?_⟩
  · rintro ⟨hr, hw⟩ actors
    have hs := hinv actors
    have hlive : (run (semaStep c) (downReadInit c) actors).exit ≠ .oopsed :=
      run_invariant (P := fun s : Sema => s.exit ≠ .oopsed)
        (fun s a h => ne_oopsed_of_created hr hw s a h) (by simp [downReadInit]) actors
    generalize run (semaStep c) (downReadInit c) actors = s at hs hlive
    cases hexit : s.exit with
    | stopWriter =>
        apply CanExit.of_step .exit
        apply canExit_of_joinWriter (exitInv_semaStep .exit hs) hr
        simp [semaStep, downReadExit, hexit, hw]
    | joinWriter => exact canExit_of_joinWriter hs hr hexit
    | joinReader => exact canExit_of_joinReader hs hexit
    | exited => exact ⟨[], hexit⟩
    | oopsed => exact absurd hexit hlive
  · intro h
    obtain ⟨more, hmore⟩ := h []
    exact hcreated more hmore
  · intro actors hdone
    obtain ⟨-, -, hr, hw⟩ := (hinv actors).exited hdone
    refine ⟨hr, hw, ?_⟩
    have hfree : ∀ t, (run (semaStep c) (downReadInit c) actors).holds t = .free := by
      intro t
      cases t with
      | reader => simp [Sema.holds, hr]
      | writer => simp [Sema.holds, hw]
    exact (hinv actors).inv.agrees.eq_init hfree

end LinuxModules.Kthread
