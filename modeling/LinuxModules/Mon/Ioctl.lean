/-
  LinuxModules.Mon.Ioctl

  The three private ioctls of mon.c on an interface that comes and goes with the
  module.  `g_lover` and `g_maxsta` are statics: a load sets them back.

  `ioctl_char128_mon` tests neither its allocation nor its copy from the caller: it
  dies without memory, and works on with what it got of the caller's data
  (`ioctlChar128MonWith`).  Otherwise it does what the function of `Mon.Lover` does
  with the data that could be read (`ioctlChar128MonWith_eq`).

  The naive device (`naiveStep`) keeps nothing but the requests since its interface
  was created, as far as they could be read, and answers from the last one that set
  the value in question.  `mon_answers` says that the module cannot be told from it.
-/

import LinuxModules.DeviceModules
import LinuxModules.Mon.Lover

namespace LinuxModules.Mon

open LinuxModules.Lib

/-! ## The handlers -/

/-- `-EOPNOTSUPP` -/
def negEopnotsupp : Int := -95

/-- The statics of mon.c that the ioctls use. -/
structure MonStatics where
  lover : Globals
  gMaxsta : BitVec 32

def ioctlSetparaMon (g : MonStatics) (param value : BitVec 32) : MonStatics × Int :=
  if param = 0x14 then ({ g with gMaxsta := value }, 0) else (g, negEopnotsupp)

/-- The result, and what is in `param[0]` afterwards. -/
def ioctlGetparaMon (g : MonStatics) (param : BitVec 32) : BitVec 32 × Int :=
  if param = 0x15 then (g.gMaxsta, 0) else (param, negEopnotsupp)

/-- `-EFAULT` -/
def negEfault : Int := -14

/-- What `ioctl_char128_mon` meets: whether `kzalloc` succeeds, how many bytes of the
    caller's buffer can be read and written, and whether `mon_hello_handler`, which
    prints from the caller's pointer itself, can read the string there. -/
structure Char128Env where
  kzalloc : Bool
  readable : Nat
  writable : Nat
  helloReads : Bool

/-- `s` after `kzalloc`, `copy_from_user` and the assignment of the last byte: the
    result of the copy is dropped, and what it did not fill is zero. -/
def scratchWith (env : Char128Env) (r : Request) : List Byte :=
  (overwrite 0 (fromUser r.pointer (min r.clipped env.readable))
    (List.replicate ioctlChar128 0)).set (ioctlChar128 - 1) 0

theorem length_scratchWith (env : Char128Env) (r : Request) :
    (scratchWith env r).length = ioctlChar128 := by
  have hclip := clipped_eq r
  rw [scratchWith, List.length_set, length_overwrite, List.length_replicate]
  rw [length_fromUser, List.length_replicate, Nat.zero_add]
  omega

/-- `ioctl_char128_mon`; `none` if it dies. -/
def ioctlChar128MonWith (env : Char128Env) (st : Globals) (r : Request) :
    Option (Globals × Reply) :=
  -- `s[IOCTL_CHAR128 - 1]` with `s == NULL`
  if env.kzalloc = false then none
  else
    let s := scratchWith env r
    match MonCmd.ofFlags r.flags with
    | some .hello =>
        if env.helloReads then some (st, { ret := 0, length := r.clipped, toUser := [] }) else none
    | some .setLover =>
        some (setLover s (by rw [length_scratchWith]; decide),
          { ret := 0, length := r.clipped, toUser := [] })
    | some .getLover =>
        let s := getLover st s
        let length := (cstrOf s).length + 1
        some (st,
          { ret := if length ≤ env.writable then 0 else negEfault
            length
            toUser := s.take (min length env.writable) })
    | some .setMaxsta => some (st, { ret := 0, length := r.clipped, toUser := [] })
    | some .getMaxsta => some (st, { ret := 0, length := r.clipped, toUser := [] })
    | none => some (st, { ret := 0, length := r.clipped, toUser := [] })

/-- A request to one of `iw_handlers_mon`. -/
inductive MonRequest where
  | setpara (param value : BitVec 32)
  | getpara (param : BitVec 32)
  | char128 (r : Request) (env : Char128Env)

/-- What the caller gets; `noDevice` if there is no such interface, `oops` if the
    handler dies. -/
inductive MonAnswer where
  | setpara (ret : Int)
  | getpara (param : BitVec 32) (ret : Int)
  | char128 (r : Reply)
  | noDevice
  | oops
  | none

/-- `iw_handlers_mon`; `none` if the handler dies. -/
def iwHandlersMon (g : MonStatics) : MonRequest → Option (MonStatics × MonAnswer)
  | .setpara param value =>
      some ((ioctlSetparaMon g param value).1, .setpara (ioctlSetparaMon g param value).2)
  | .getpara param => some (g, .getpara (ioctlGetparaMon g param).1 (ioctlGetparaMon g param).2)
  | .char128 r env =>
      (ioctlChar128MonWith env g.lover r).map fun res =>
        ({ g with lover := res.1 }, .char128 res.2)

/-- The statics as the module is loaded. -/
def monStatics : MonStatics := ⟨monStart, 1⟩

/-- `dead` once a handler has died: it held the lock that every later request, load
    and unload waits for. -/
structure MonSys where
  dev : DevSys
  g : MonStatics
  dead : Bool

inductive MonEvent where
  | load (e : LoadEnv)
  | unload
  | ioctl (q : MonRequest)

/-- The module, loaded and unloaded, with requests to its interface. -/
def monStep (s : MonSys) (e : MonEvent) : MonSys × MonAnswer :=
  if s.dead then (s, .none)
  else
    match e with
    -- the statics are set when the module is brought in, not when it is there already
    | .load e =>
        ({ s with
            dev := devMonStep s.dev (.load e)
            g := if s.dev.mod = .unloaded then monStatics else s.g }, .none)
    | .unload => ({ s with dev := devMonStep s.dev .unload }, .none)
    -- a request finds the module's interface by its name
    | .ioctl q =>
        if s.dev.k.devGetByName false then
          match iwHandlersMon s.g q with
          | some (g, answer) => ({ s with g }, answer)
          | none => ({ s with dead := true }, .oops)
        else (s, .noDevice)

/-! ## The naive device -/

/-- The value of the last `setmaxsta`, and 1 before the first. -/
def lastMaxsta : List MonRequest → BitVec 32
  | [] => 1
  | .setpara param value :: past => if param = 0x14 then value else lastMaxsta past
  | .getpara _ :: past => lastMaxsta past
  | .char128 _ _ :: past => lastMaxsta past

/-- The request with zeros where its data cannot be read. -/
def Request.asRead (r : Request) (env : Char128Env) : Request :=
  { r with pointer := fun i => if i < env.readable then r.pointer i else 0 }

/-- The 32 bytes of the last `setlover`: its data, filled up with zeros. -/
def storedLover : List MonRequest → List Byte
  | [] => List.replicate sizeofLover 0
  | .char128 r env :: past =>
      if r.isSet then
        (r.asRead env).payload.take sizeofLover ++ List.replicate (sizeofLover - r.length.toNat) 0
      else storedLover past
  | .setpara _ _ :: past => storedLover past
  | .getpara _ :: past => storedLover past

/-- The reply as far as the caller's buffer can be written. -/
def Reply.upTo (r : Reply) (writable : Nat) : Reply :=
  { ret := if r.toUser.length ≤ writable then r.ret else negEfault
    length := r.length
    toUser := r.toUser.take writable }

/-- The request kills its handler. -/
def MonRequest.kills : MonRequest → Bool
  | .setpara _ _ => false
  | .getpara _ => false
  | .char128 r env =>
      !env.kzalloc || (decide (MonCmd.ofFlags r.flags = some .hello) && !env.helloReads)

/-- The answer to a request after the requests `past`, the last one first. -/
def naiveAnswer (past : List MonRequest) : MonRequest → MonAnswer
  | .setpara param _ => .setpara (if param = 0x14 then 0 else negEopnotsupp)
  | .getpara param =>
      if param = 0x15 then .getpara (lastMaxsta past) 0 else .getpara param negEopnotsupp
  | .char128 r env =>
      .char128 (if MonCmd.ofFlags r.flags = some .getLover then
          (Reply.str (cstrOf (storedLover past ++ (scratch (r.asRead env)).drop sizeofLover))).upTo
            env.writable
        else { ret := 0, length := r.clipped, toUser := [] })

/-- The interface is there: the load in force has created and registered it. -/
def interfaceUp (t : LoadHistory) : Bool :=
  match t.phase with
  | .running e => e.creates && decide (e.register = .ok)
  | .idle => false
  | .stuck _ => false

/-- The loads and unloads so far, and the requests since the last load. -/
structure Naive where
  loads : LoadHistory
  past : List MonRequest
  dead : Bool

def naiveStep (t : Naive) (e : MonEvent) : Naive × MonAnswer :=
  if t.dead then (t, .none)
  else
    match e with
    | .load e =>
        ({ t with
            loads := mon.historyStep t.loads (.load e)
            past :=
              match t.loads.phase with
              | .idle => []
              | .running _ => t.past
              | .stuck _ => t.past }, .none)
    | .unload => ({ t with loads := mon.historyStep t.loads .unload }, .none)
    | .ioctl q =>
        if interfaceUp t.loads then
          if q.kills then ({ t with dead := true }, .oops)
          else ({ t with past := q :: t.past }, naiveAnswer t.past q)
        else (t, .noDevice)

/-! ## The module and the naive device -/

/-- The statics hold what was set last. -/
structure MonStatics.Holds (g : MonStatics) (past : List MonRequest) : Prop where
  maxsta : g.gMaxsta = lastMaxsta past
  lover : g.lover.gLover = storedLover past

theorem holds_monStatics : monStatics.Holds [] := ⟨rfl, rfl⟩

theorem flags_of_getLover {flags : BitVec 16} (h : MonCmd.ofFlags flags = some .getLover) :
    flags = 0x13 := by
  unfold MonCmd.ofFlags at h
  split at h
  · cases h
  · split at h
    · cases h
    · split at h
      · assumption
      · split at h
        · cases h
        · split at h <;> cases h

/-- `ioctl_char128_mon` sets the string or answers with it. -/
theorem ioctlChar128Mon_eq (st : Globals) (r : Request) :
    (ioctlChar128Mon st r).1.gLover =
        (if r.isSet then
          r.payload.take sizeofLover ++ List.replicate (sizeofLover - r.length.toNat) 0
        else st.gLover) ∧
      (ioctlChar128Mon st r).2 =
        if MonCmd.ofFlags r.flags = some .getLover then
          .str (cstrOf (st.gLover ++ (scratch r).drop sizeofLover))
        else { ret := 0, length := r.clipped, toUser := [] } := by
  by_cases hget : MonCmd.ofFlags r.flags = some .getLover
  · have hr : r = getRequest r.length r.pointer := by
      rw [getRequest, ← flags_of_getLover hget]
    have hset : r.isSet = false := by simp [Request.isSet, hget]
    rw [if_pos hget, hset]
    refine ⟨?_, by rw [hr]; exact reply_getRequest ..⟩
    simp [ioctlChar128Mon, hget]
  · rw [if_neg hget]
    by_cases hset : MonCmd.ofFlags r.flags = some .setLover
    · rw [← take_scratch, Request.isSet, hset]
      simp [ioctlChar128Mon, hset, setLover]
    · have hno : r.isSet = false := by simp [Request.isSet, hset]
      rw [hno]
      unfold ioctlChar128Mon
      cases hcmd : MonCmd.ofFlags r.flags with
      | none => exact ⟨rfl, rfl⟩
      | some cmd =>
          cases cmd with
          | setLover => exact absurd hcmd hset
          | getLover => exact absurd hcmd hget
          | hello => exact ⟨rfl, rfl⟩
          | setMaxsta => exact ⟨rfl, rfl⟩
          | getMaxsta => exact ⟨rfl, rfl⟩

/-- A copy that ends early leaves the buffer as one of data that ends in zeros. -/
theorem scratchWith_eq (env : Char128Env) (r : Request) :
    scratchWith env r = scratch (r.asRead env) := by
  have hclip : (r.asRead env).clipped = r.clipped := rfl
  have hlen := length_scratchWith env r
  have hlen' := length_scratch (r.asRead env)
  rw [scratchWith, List.length_set] at hlen
  rw [scratch, List.length_set, hclip] at hlen'
  rw [scratchWith, scratch, hclip]
  congr 1
  apply List.ext_getElem?
  intro i
  by_cases hi : i < ioctlChar128
  · rw [getElem?_overwrite_fromUser _ _ hi, getElem?_overwrite_fromUser _ _ hi]
    -- a byte that was asked for and not copied is a zero of `kzalloc`
    by_cases hasked : i < r.clipped <;> by_cases hread : i < env.readable <;>
      simp [Request.asRead, hasked, hread]
  · rw [List.getElem?_eq_none (by omega), List.getElem?_eq_none (by omega)]

/-- Whatever fails, a handler that does not die does what `Mon.Lover` has it do with
    the data that could be read, and answers as far as the caller's buffer goes. -/
theorem ioctlChar128MonWith_eq (env : Char128Env) (st : Globals) (r : Request) :
    ioctlChar128MonWith env st r =
      if (MonRequest.char128 r env).kills then none
      else some ((ioctlChar128Mon st (r.asRead env)).1,
        (ioctlChar128Mon st (r.asRead env)).2.upTo env.writable) := by
  have hflags : (r.asRead env).flags = r.flags := rfl
  have hclip : (r.asRead env).clipped = r.clipped := rfl
  unfold ioctlChar128MonWith MonRequest.kills ioctlChar128Mon
  cases hkz : env.kzalloc with
  | false => simp [hkz]
  | true =>
      simp only [hflags, hclip, scratchWith_eq]
      cases hcmd : MonCmd.ofFlags r.flags with
      | none => simp [Reply.upTo, hkz]
      | some cmd =>
          cases cmd with
          | hello => cases env.helloReads <;> simp [Reply.upTo, hkz]
          | setLover => simp [Reply.upTo, hkz]
          | getLover =>
              -- the string and its terminator are in the buffer
              have htake := take_eq_cstrOf_append (zero_mem_getLover st (r.asRead env))
              have hlen := congrArg List.length htake
              rw [List.length_append, List.length_singleton] at hlen
              simp [Reply.upTo, hkz, hlen, List.take_take, Nat.min_comm]
          | setMaxsta => simp [Reply.upTo, hkz]
          | getMaxsta => simp [Reply.upTo, hkz]

/-- The naive answer, in the words of the handler. -/
theorem naiveAnswer_char128 {st : Globals} {past : List MonRequest}
    (hlover : st.gLover = storedLover past) (r : Request) (env : Char128Env) :
    naiveAnswer past (.char128 r env) =
      .char128 ((ioctlChar128Mon st (r.asRead env)).2.upTo env.writable) := by
  rw [(ioctlChar128Mon_eq st (r.asRead env)).2, hlover, naiveAnswer]
  have hflags : (r.asRead env).flags = r.flags := rfl
  have hclip : (r.asRead env).clipped = r.clipped := rfl
  rw [hflags, hclip]
  split
  · rfl
  · simp [Reply.upTo]

/-- One request. -/
theorem holds_iwHandlersMon {g : MonStatics} {past : List MonRequest} (hg : g.Holds past)
    (q : MonRequest) :
    (q.kills = true ∧ iwHandlersMon g q = none) ∨
      ∃ g', q.kills = false ∧ iwHandlersMon g q = some (g', naiveAnswer past q) ∧
        g'.Holds (q :: past) := by
  cases q with
  | setpara param value =>
      refine Or.inr ⟨(ioctlSetparaMon g param value).1, rfl, ?_, ?_⟩
      · by_cases hparam : param = 0x14
        · simp only [iwHandlersMon, ioctlSetparaMon, naiveAnswer, if_pos hparam]
        · simp only [iwHandlersMon, ioctlSetparaMon, naiveAnswer, if_neg hparam]
      · by_cases hparam : param = 0x14
        · rw [ioctlSetparaMon, if_pos hparam]
          exact ⟨(if_pos hparam).symm, hg.lover⟩
        · rw [ioctlSetparaMon, if_neg hparam]
          exact ⟨hg.maxsta.trans (if_neg hparam).symm, hg.lover⟩
  | getpara param =>
      refine Or.inr ⟨g, rfl, ?_, hg.maxsta, hg.lover⟩
      by_cases hparam : param = 0x15
      · simp only [iwHandlersMon, ioctlGetparaMon, naiveAnswer, if_pos hparam, hg.maxsta]
      · simp only [iwHandlersMon, ioctlGetparaMon, naiveAnswer, if_neg hparam]
  | char128 r env =>
      rw [iwHandlersMon, ioctlChar128MonWith_eq]
      by_cases hkills : (MonRequest.char128 r env).kills = true
      · exact Or.inl ⟨hkills, by rw [if_pos hkills, Option.map_none]⟩
      · refine Or.inr ⟨{ g with lover := (ioctlChar128Mon g.lover (r.asRead env)).1 },
          by simpa using hkills, ?_, hg.maxsta, ?_⟩
        · rw [if_neg hkills, Option.map_some, naiveAnswer_char128 hg.lover]
        · have hset := (ioctlChar128Mon_eq g.lover (r.asRead env)).1
          rw [hg.lover] at hset
          exact hset

/-- The interface can be found exactly while the naive device is up. -/
theorem devGetByName_sysOf {t : LoadHistory} (ht : t.Vetoed) :
    (mon.sysOf t).k.devGetByName false = interfaceUp t := by
  unfold DevModule.sysOf interfaceUp
  cases hphase : t.phase with
  | idle => exact mon.devGetByName_kernelIdle t.gone false
  | running e =>
      show (mon.kernelWith t.gone e).devGetByName false = _
      rw [mon.devGetByName_kernelWith, Bool.false_or]
  | stuck e =>
      show (mon.kernelWith t.gone e).devGetByName false = false
      rw [mon.devGetByName_kernelWith, (ht e hphase).2, Bool.false_or]
      simp

/-- The relation between the module and the naive device. -/
structure Naive.Shows (s : MonSys) (t : Naive) : Prop where
  dev : s.dev = mon.sysOf t.loads
  vetoed : t.loads.Vetoed
  holds : s.g.Holds t.past
  dead : s.dead = t.dead

theorem shows_monStep {s : MonSys} {t : Naive} (h : Naive.Shows s t) (a : MonEvent) :
    (monStep s a).2 = (naiveStep t a).2 ∧ Naive.Shows (monStep s a).1 (naiveStep t a).1 := by
  obtain ⟨dev, g, dead⟩ := s
  obtain ⟨loads, past, dead'⟩ := t
  have hshows := h
  obtain ⟨hdev, hvetoed, hholds, hdead⟩ := h
  simp only at hdev hvetoed hholds hdead
  subst hdev hdead
  cases dead with
  | true => exact ⟨rfl, hshows⟩
  | false =>
      cases a with
      | load e =>
          refine ⟨rfl, mon.step_sysOf loads (.load e), vetoed_historyStep mon _ _ hvetoed, ?_, rfl⟩
          obtain ⟨phase, gone⟩ := loads
          cases phase with
          | idle => simpa [monStep, naiveStep, DevModule.sysOf] using holds_monStatics
          | running e' => simpa [monStep, naiveStep, DevModule.sysOf] using hholds
          | stuck e' => simpa [monStep, naiveStep, DevModule.sysOf] using hholds
      | unload =>
          exact ⟨rfl, mon.step_sysOf loads .unload, vetoed_historyStep mon _ _ hvetoed, hholds, rfl⟩
      | ioctl q =>
          simp only [monStep, naiveStep, devGetByName_sysOf hvetoed, Bool.false_eq_true, if_false]
          by_cases hup : interfaceUp loads = true
          · simp only [if_pos hup]
            rcases holds_iwHandlersMon hholds q with ⟨hkills, hnone⟩ | ⟨g', hlives, hsome, hholds'⟩
            · rw [hnone, if_pos hkills]
              exact ⟨rfl, rfl, hvetoed, hholds, rfl⟩
            · rw [hsome, hlives]
              exact ⟨rfl, rfl, hvetoed, hholds', rfl⟩
          · simp only [if_neg hup]
            exact ⟨trivial, rfl, hvetoed, hholds, rfl⟩

/-- In any run of loads and unloads, with any failures, and of requests, whose copies
    and allocation may fail: every answer is that of a device that keeps nothing but
    the requests since the load that created its interface.  In particular `getmaxsta`
    gives the value set last, whatever happened to the string in between; the string
    does not depend on `setmaxsta`; a `getlover` whose buffer cannot be written is
    answered with `-EFAULT`; and after a request that died nothing is answered. -/
theorem mon_answers (es : List MonEvent) :
    outputs monStep ⟨devStart, monStatics, false⟩ es =
      outputs naiveStep ⟨⟨.idle, []⟩, [], false⟩ es := by
  have hstep : ∀ (s : MonSys) (t : Naive) (a : MonEvent), True → Naive.Shows s t →
      (monStep s a).2 = (naiveStep t a).2 ∧ Naive.Shows (monStep s a).1 (naiveStep t a).1 :=
    fun _ _ a _ h => shows_monStep h a
  have hstart : Naive.Shows ⟨devStart, monStatics, false⟩ ⟨⟨.idle, []⟩, [], false⟩ :=
    ⟨rfl, vetoed_start, holds_monStatics, rfl⟩
  exact (outputs_simulation hstep hstart fun _ _ => trivial).1

end LinuxModules.Mon
