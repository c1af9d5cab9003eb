/-
  LinuxModules.Notifierchain.Modules

  The three modules of notifierchain/: buildchain.c holds the chain, regchain.c
  registers three blocks with it, and notify.c calls it twice as it is loaded.  The
  blocks are memory of regchain.c, so that a block in the chain is good only as long
  as that load of regchain.c lasts.

  `reg_notifier` undoes nothing when a registration fails, and the module is then
  not loaded.  `chain_safe_iff` says that this is the only way to a block of a
  module that is gone, and `notify_reports` what notify.c prints otherwise.
-/

import LinuxModules.Lib.NotifierChain
import LinuxModules.Lib.Run

namespace LinuxModules.Notifierchain

open LinuxModules.Lib

/-! ## The functions -/

/-- `test_notifier1`, `test_notifier2` and `test_notifier3`. -/
inductive TestNotifier where
  | one
  | two
  | three
  deriving DecidableEq, Repr

/-- A block of a load of regchain.c; the loads are numbered. -/
abbrev Block := Nat × TestNotifier

/-- `test_event1` and its likes: they print and return 0. -/
def testEvent (_ : Block) : BitVec 32 := 0

/-- `register_test_notifier`, returning `ret`.  No block sets its priority. -/
def registerTestNotifier (ret : Int) (nb : Block) (chain : List Block) : List Block :=
  if ret = 0 then chainRegister (fun _ => 0) nb chain else chain

/-- `unregister_test_notifier` -/
def unregisterTestNotifier (nb : Block) (chain : List Block) : List Block := chain.erase nb

/-- `test_notifier_call_chain` -/
def testNotifierCallChain (chain : List Block) : List Block × BitVec 32 :=
  callChain testEvent chain 0

/-- What the registrations return. -/
structure RegRets where
  one : Int
  two : Int
  three : Int
  deriving DecidableEq

/-- `reg_notifier` of load `id`. -/
def regNotifier (rets : RegRets) (id : Nat) (chain : List Block) : List Block × Int :=
  let chain := registerTestNotifier rets.one (id, .one) chain
  if rets.one ≠ 0 then (chain, -1)
  else
    -- from here on a failure leaves the blocks registered so far
    let chain := registerTestNotifier rets.two (id, .two) chain
    if rets.two ≠ 0 then (chain, -1)
    else
      let chain := registerTestNotifier rets.three (id, .three) chain
      if rets.three ≠ 0 then (chain, -1) else (chain, rets.three)

/-- `unregister_notifier` -/
def unregisterNotifier (id : Nat) (chain : List Block) : List Block :=
  let chain := unregisterTestNotifier (id, .one) chain
  let chain := unregisterTestNotifier (id, .two) chain
  unregisterTestNotifier (id, .three) chain

/-- A line of output: the block and the number of the event. -/
abbrev Line := TestNotifier × Nat

/-- One call of the chain while load `reg` of regchain.c is there; `none` if it runs
    into a block that is not. -/
def callEvent (reg : Option Nat) (chain : List Block) (event : Nat) :
    Option (List Line × BitVec 32) :=
  let (called, ret) := testNotifierCallChain chain
  if ∀ b ∈ called, reg = some b.1 then some (called.map fun b => (b.2, event), ret) else none

/-- `call_notifier`: the result of the first call is overwritten. -/
def callNotifier (reg : Option Nat) (chain : List Block) : Option (List Line × BitVec 32) :=
  match callEvent reg chain 1 with
  | none => none
  | some (lines, _) =>
      match callEvent reg chain 2 with
      | none => none
      | some (lines', err) => some (lines ++ lines', err)

/-! ## The modules -/

/-- Which modules are loaded: buildchain.c with its chain, regchain.c with the
    number of its load. -/
structure ChainSys where
  build : Option (List Block)
  loads : Nat
  reg : Option Nat
  notify : Bool
  oopsed : Bool
  deriving DecidableEq

inductive ChainEvent where
  | buildLoad
  | buildUnload
  | regLoad (rets : RegRets)
  | regUnload
  | notifyLoad
  | notifyUnload

inductive ChainAnswer where
  | done
  | failed
  | printed (lines : List Line) (err : BitVec 32)
  | oops
  deriving DecidableEq

/-- `insmod` and `rmmod`.  regchain.c and notify.c use symbols of buildchain.c, which
    must be there to load them and cannot go before them. -/
def chainStep (s : ChainSys) (a : ChainEvent) : ChainSys × ChainAnswer :=
  if s.oopsed then (s, .oops)
  else
    match a, s.build with
    | .buildLoad, none => ({ s with build := some [] }, .done)
    | .buildUnload, some _ =>
        if s.reg.isNone ∧ s.notify = false then ({ s with build := none }, .done) else (s, .failed)
    | .regLoad rets, some chain =>
        if s.reg.isNone then
          let (chain, ret) := regNotifier rets s.loads chain
          if ret = 0 then
            ({ s with build := some chain, loads := s.loads + 1, reg := some s.loads }, .done)
          -- the memory of the load is freed, with the blocks in it
          else ({ s with build := some chain, loads := s.loads + 1 }, .failed)
        else (s, .failed)
    | .regUnload, some chain =>
        match s.reg with
        | some id => ({ s with build := some (unregisterNotifier id chain), reg := none }, .done)
        | none => (s, .failed)
    | .notifyLoad, some chain =>
        if s.notify then (s, .failed)
        else
          match callNotifier s.reg chain with
          | none => ({ s with oopsed := true }, .oops)
          | some (lines, err) => ({ s with notify := decide (err = 0) }, .printed lines err)
    | .notifyUnload, some _ =>
        if s.notify then ({ s with notify := false }, .done) else (s, .failed)
    | .buildLoad, some _ => (s, .failed)
    | .buildUnload, none => (s, .failed)
    | .regLoad _, none => (s, .failed)
    | .regUnload, none => (s, .failed)
    | .notifyLoad, none => (s, .failed)
    | .notifyUnload, none => (s, .failed)

def chainStart : ChainSys := ⟨none, 0, none, false, false⟩

/-! ## The chain -/

/-- Every block in the chain is one of the module that is loaded. -/
def ChainSys.Safe (s : ChainSys) : Prop :=
  ∀ chain, s.build = some chain → ∀ b ∈ chain, s.reg = some b.1

/-- The registrations of a load all succeed, or the first one fails. -/
def RegRets.Whole (rets : RegRets) : Prop :=
  rets.one ≠ 0 ∨ (rets.two = 0 ∧ rets.three = 0)

/-- The blocks of a load, in the order of their registration. -/
def blocksOf : Option Nat → List Block
  | none => []
  | some id => [(id, .one), (id, .two), (id, .three)]

/-- Without priorities a block is registered last. -/
theorem registerTestNotifier_eq (ret : Int) (nb : Block) (chain : List Block) :
    registerTestNotifier ret nb chain = if ret = 0 then chain ++ [nb] else chain := by
  rw [registerTestNotifier, chainRegister_eq_append fun _ _ => Int.le_refl 0]

/-- A load of regchain.c with an empty chain. -/
theorem regNotifier_nil (rets : RegRets) (id : Nat) :
    regNotifier rets id [] =
      if rets.one ≠ 0 then ([], -1)
      else if rets.two ≠ 0 then ([(id, .one)], -1)
      else if rets.three ≠ 0 then ([(id, .one), (id, .two)], -1)
      else (blocksOf (some id), 0) := by
  unfold regNotifier
  by_cases hone : rets.one = 0
  · by_cases htwo : rets.two = 0
    · by_cases hthree : rets.three = 0
      · simp [hone, htwo, hthree, registerTestNotifier_eq, blocksOf]
      · simp [hone, htwo, hthree, registerTestNotifier_eq]
    · simp [hone, htwo, registerTestNotifier_eq]
  · simp [hone, registerTestNotifier_eq]

theorem unregisterNotifier_blocksOf (id : Nat) :
    unregisterNotifier id (blocksOf (some id)) = [] := by
  simp [unregisterNotifier, unregisterTestNotifier, blocksOf]

theorem testNotifierCallChain_eq (chain : List Block) : testNotifierCallChain chain = (chain, 0) := by
  have hcalled : (testNotifierCallChain chain).1 = chain :=
    callChain_fst (fun _ _ => by simp [testEvent, notifyStopMask]) 0
  have hret : (testNotifierCallChain chain).2 = 0 := callChain_snd fun _ _ => rfl
  exact Prod.ext hcalled hret

/-- The lines of a load of notify.c. -/
def report (reg : Option Nat) : List Line :=
  (blocksOf reg).map (fun b => (b.2, 1)) ++ (blocksOf reg).map (fun b => (b.2, 2))

theorem callNotifier_blocksOf (reg : Option Nat) :
    callNotifier reg (blocksOf reg) = some (report reg, 0) := by
  have hown : ∀ b ∈ blocksOf reg, reg = some b.1 := by
    cases reg with
    | none => simp [blocksOf]
    | some id => simp [blocksOf]
  have hcall : ∀ event, callEvent reg (blocksOf reg) event =
      some ((blocksOf reg).map (fun b => (b.2, event)), 0) := by
    intro event
    simp only [callEvent, testNotifierCallChain_eq, if_pos hown]
  simp only [callNotifier, hcall, report]

/-! ## Runs -/

/-- A block is in the chain exactly while its load of regchain.c lasts. -/
structure ChainSys.Wired (s : ChainSys) : Prop where
  alive : s.oopsed = false
  chain : ∀ chain, s.build = some chain → chain = blocksOf s.reg
  used : s.build = none → s.reg = none ∧ s.notify = false

theorem wired_none (loads : Nat) : (ChainSys.mk none loads none false false).Wired where
  alive := rfl
  chain := by simp
  used := by simp

theorem wired_some (loads : Nat) (reg : Option Nat) (notify : Bool) :
    (ChainSys.mk (some (blocksOf reg)) loads reg notify false).Wired where
  alive := rfl
  chain := by simp
  used := by simp

theorem ChainSys.Wired.safe {s : ChainSys} (hs : s.Wired) : s.Safe := by
  intro chain hbuild b hb
  rw [hs.chain chain hbuild] at hb
  cases hreg : s.reg with
  | none =>
      rw [hreg] at hb
      cases hb
  | some id =>
      rw [hreg] at hb
      have hid : b.1 = id := by
        simp only [blocksOf, List.mem_cons, List.not_mem_nil, or_false] at hb
        rcases hb with rfl | rfl | rfl <;> rfl
      rw [hid]

/-- A load of regchain.c that takes place is whole. -/
def Admits (s : ChainSys) : ChainEvent → Prop
  | .regLoad rets => s.build.isSome = true → s.reg = none → rets.Whole
  | .buildLoad => True
  | .buildUnload => True
  | .regUnload => True
  | .notifyLoad => True
  | .notifyUnload => True

/-- What is loaded, for a reader who does not look at the chain. -/
structure Loaded where
  build : Bool
  reg : Bool
  notify : Bool

/-- What the modules do as long as all loads of regchain.c are whole. -/
def plainStep (t : Loaded) : ChainEvent → Loaded × ChainAnswer
  | .buildLoad => if t.build then (t, .failed) else ({ t with build := true }, .done)
  | .buildUnload =>
      if t.build && !t.reg && !t.notify then ({ t with build := false }, .done) else (t, .failed)
  | .regLoad rets =>
      if t.build && !t.reg && rets.one = 0 then ({ t with reg := true }, .done) else (t, .failed)
  | .regUnload => if t.reg then ({ t with reg := false }, .done) else (t, .failed)
  | .notifyLoad =>
      if t.build && !t.notify then
        ({ t with notify := true }, .printed (report (if t.reg then some 0 else none)) 0)
      else (t, .failed)
  | .notifyUnload => if t.notify then ({ t with notify := false }, .done) else (t, .failed)

/-- What is loaded of the modules. -/
def ChainSys.loaded (s : ChainSys) : Loaded := ⟨s.build.isSome, s.reg.isSome, s.notify⟩

/-- The lines do not say which load of regchain.c printed them. -/
theorem report_eq (reg : Option Nat) :
    report reg = report (if reg.isSome then some 0 else none) := by
  cases reg with
  | none => rfl
  | some id => rfl

/-- A load of regchain.c with the chain as it should be before. -/
theorem chainStep_regLoad (loads : Nat) (notify : Bool) (rets : RegRets) :
    chainStep ⟨some [], loads, none, notify, false⟩ (.regLoad rets) =
      if rets.one ≠ 0 then (⟨some [], loads + 1, none, notify, false⟩, .failed)
      else if rets.two ≠ 0 then
        (⟨some [(loads, .one)], loads + 1, none, notify, false⟩, .failed)
      else if rets.three ≠ 0 then
        (⟨some [(loads, .one), (loads, .two)], loads + 1, none, notify, false⟩, .failed)
      else (⟨some (blocksOf (some loads)), loads + 1, some loads, notify, false⟩, .done) := by
  simp only [chainStep, regNotifier_nil]
  by_cases hone : rets.one = 0
  · by_cases htwo : rets.two = 0
    · by_cases hthree : rets.three = 0
      · simp [hone, htwo, hthree]
      · simp [hone, htwo, hthree]
    · simp [hone, htwo]
  · simp [hone]

/-- One step that is admitted. -/
theorem wired_chainStep {s : ChainSys} (hs : s.Wired) {a : ChainEvent} (ha : Admits s a) :
    (chainStep s a).1.Wired ∧ (plainStep s.loaded a).2 = (chainStep s a).2 ∧
      (plainStep s.loaded a).1 = (chainStep s a).1.loaded := by
  obtain ⟨build, loads, reg, notify, oopsed⟩ := s
  obtain ⟨halive, hchain, hused⟩ := hs
  simp only at halive
  subst halive
  cases build with
  | none =>
      obtain ⟨rfl, rfl⟩ : reg = none ∧ notify = false := hused rfl
      cases a with
      | buildLoad => exact ⟨wired_some loads none false, rfl, rfl⟩
      | _ => exact ⟨wired_none loads, rfl, rfl⟩
  | some chain =>
      obtain rfl : chain = blocksOf reg := hchain chain rfl
      cases a with
      | buildLoad => exact ⟨wired_some loads reg notify, rfl, rfl⟩
      | buildUnload =>
          cases reg with
          | none =>
              cases notify with
              | false => exact ⟨wired_none loads, rfl, rfl⟩
              | true => exact ⟨wired_some loads none true, rfl, rfl⟩
          | some id => exact ⟨wired_some loads (some id) notify, rfl, rfl⟩
      | regLoad rets =>
          cases reg with
          | none =>
              have hstep := chainStep_regLoad loads notify rets
              by_cases hone : rets.one = 0
              · obtain ⟨htwo, hthree⟩ := (ha rfl rfl).resolve_left (not_not.mpr hone)
                simp only [hone, htwo, hthree, ne_eq, not_true, if_false] at hstep
                simp only [blocksOf, hstep, plainStep, ChainSys.loaded, hone]
                exact ⟨wired_some (loads + 1) (some loads) notify, rfl, rfl⟩
              · -- the first registration fails, and nothing is registered
                simp only [hone, ne_eq, not_false_eq_true, if_true] at hstep
                simp only [blocksOf, hstep, plainStep, ChainSys.loaded, hone]
                exact ⟨wired_some (loads + 1) none notify, rfl, rfl⟩
          | some id => exact ⟨wired_some loads (some id) notify, rfl, rfl⟩
      | regUnload =>
          cases reg with
          | none => exact ⟨wired_some loads none notify, rfl, rfl⟩
          | some id =>
              simp only [chainStep, unregisterNotifier_blocksOf, plainStep, ChainSys.loaded]
              exact ⟨wired_some loads none notify, rfl, rfl⟩
      | notifyLoad =>
          cases notify with
          | true => exact ⟨wired_some loads reg true, rfl, rfl⟩
          | false =>
              simp only [chainStep, callNotifier_blocksOf, plainStep, ChainSys.loaded,
                report_eq reg]
              exact ⟨wired_some loads reg true, rfl, rfl⟩
      | notifyUnload =>
          cases notify with
          | true => exact ⟨wired_some loads reg false, rfl, rfl⟩
          | false => exact ⟨wired_some loads reg false, rfl, rfl⟩

/-- A load of regchain.c that is not whole leaves a block behind. -/
theorem admits_of_safe {s : ChainSys} (hs : s.Wired) {a : ChainEvent}
    (hsafe : (chainStep s a).1.Safe) : Admits s a := by
  cases a with
  | regLoad rets =>
      intro hbuild hreg
      obtain ⟨build, loads, reg, notify, oopsed⟩ := s
      obtain ⟨chain, hchain⟩ := Option.isSome_iff_exists.mp hbuild
      simp only at hchain hreg
      subst hchain hreg
      obtain rfl : chain = [] := hs.chain chain rfl
      obtain rfl : oopsed = false := hs.alive
      rw [chainStep_regLoad] at hsafe
      -- the first block is in the chain, and its load is gone
      by_cases hone : rets.one = 0
      · rw [if_neg (not_not.mpr hone)] at hsafe
        by_cases htwo : rets.two = 0
        · rw [if_neg (not_not.mpr htwo)] at hsafe
          by_cases hthree : rets.three = 0
          · exact Or.inr ⟨htwo, hthree⟩
          · rw [if_pos hthree] at hsafe
            exact absurd (hsafe _ rfl (loads, .one) (by simp)) (by simp)
        · rw [if_pos htwo] at hsafe
          exact absurd (hsafe _ rfl (loads, .one) (by simp)) (by simp)
      · exact Or.inl hone
  | buildLoad => trivial
  | buildUnload => trivial
  | regUnload => trivial
  | notifyLoad => trivial
  | notifyUnload => trivial

/-- In any run of loads and unloads of the three modules: the chain never holds a
    block of a load of regchain.c that is gone if and only if every load of
    regchain.c registers its three blocks or none. -/
theorem chain_safe_iff (as : List ChainEvent) :
    Along (fun s a => (chainStep s a).1) ChainSys.Safe chainStart as ↔
      Guarded (fun s a => (chainStep s a).1) Admits chainStart as :=
  along_iff_guarded_of_inv (J := ChainSys.Wired) (fun _ hs => hs.safe)
    (fun _ _ hs ha => (wired_chainStep hs ha).1) (fun _ _ hs => admits_of_safe hs)
    (wired_none 0)

theorem outputs_of_guarded {s : ChainSys} (hs : s.Wired) {as : List ChainEvent}
    (hok : Guarded (fun s a => (chainStep s a).1) Admits s as) :
    outputs chainStep s as = outputs plainStep s.loaded as := by
  induction as generalizing s with
  | nil => rfl
  | cons a as ih =>
      obtain ⟨hwired, hanswer, hloaded⟩ := wired_chainStep hs hok.1
      rw [outputs, outputs, hanswer, hloaded, ih hwired hok.2]

/-- In such a run nothing goes wrong, and every load of notify.c prints a line for
    each of the two events and each of the three blocks, in the order of their
    registration, or nothing at all if regchain.c is not loaded. -/
theorem notify_reports (as : List ChainEvent)
    (hok : Guarded (fun s a => (chainStep s a).1) Admits chainStart as) :
    outputs chainStep chainStart as = outputs plainStep ⟨false, false, false⟩ as :=
  outputs_of_guarded (wired_none 0) hok

/-- All registrations succeed. -/
def regAll : RegRets := ⟨0, 0, 0⟩

/-- notify.c before and after regchain.c is loaded. -/
theorem notify_reports_twice :
    outputs chainStep chainStart
        [.buildLoad, .notifyLoad, .notifyUnload, .regLoad regAll, .notifyLoad] =
      [.done, .printed [] 0, .done, .done,
        .printed [(.one, 1), (.two, 1), (.three, 1), (.one, 2), (.two, 2), (.three, 2)] 0] := by
  rw [notify_reports]
  · rfl
  · exact ⟨trivial, trivial, trivial, fun _ _ => Or.inr ⟨rfl, rfl⟩, trivial, trivial⟩

end LinuxModules.Notifierchain
