/-
  LinuxModules.Netlink.Delivery

  What every run of `System` does with captured packets.

  * `capture_queue_fifo`: at most one kcapd thread is ever started, kcapd sends
    the queued messages once each and in their order, and no message is queued
    without a thread to send it.
  * `sent_to_stamped_portid`: a message goes to the portid in its header as long
    as `cap_nlk_portid` is not changed under a message that is on its way.

  Both rest on one account of what a hook step can do (`HookMove`,
  `hookStep_moves`); the invariants are then checked event by event.
-/

import LinuxModules.Netlink.System

namespace LinuxModules.Netlink

open LinuxModules.Lib LinuxModules.Net

/-! ## What a hook step can do -/

/-- The test of `cap_nlk_portid` is behind this execution. -/
def HookPc.captures : HookPc → Bool
  | .entered _ => false
  | _ => true

/-- The test of `cap_nlk_portid` is behind this execution, the stamping of the
    message still ahead. -/
def HookPc.unstamped : HookPc → Bool
  | .popping _ | .mallocing _ | .filling _ _ => true
  | _ => false

/-- The stamped message this execution will queue. -/
def HookPc.stamped : HookPc → List SkBuff
  | .checking cb | .queueing cb => cb.skb.toList
  | _ => []

/-- Only an execution past the test puts something on the queue. -/
theorem HookPc.captures_of_enqueues {pc : HookPc} (h : pc.enqueues ≠ []) : pc.captures := by
  cases pc with
  | entered packet => exact absurd rfl h
  | _ => rfl

theorem hookFree_frame (cb : Option CapBuffer) (g : Cap) :
    (hookFree cb g).1.ctl = g.ctl ∧ (hookFree cb g).1.capSkbQueue = g.capSkbQueue ∧
      ((hookFree cb g).2 = none ∨ (hookFree cb g).2 = some .oopsed) := by
  unfold hookFree
  split
  case h_1 g' hok => exact ⟨(capBufferFree_frame hok).1, (capBufferFree_frame hok).2, Or.inl rfl⟩
  case h_2 => exact ⟨rfl, rfl, Or.inr rfl⟩

/-- One step of a hook execution, by its outcome.  `capNlkPortid` is read twice:
    when the hook is entered and when the message is built. -/
inductive HookMove (env : HookEnv) (g : Cap) : HookPc → Cap × Option HookPc → Prop
  | pass (packet : List Byte) : HookMove env g (.entered packet) (g, none)
  | enter (packet : List Byte) (hlistens : g.ctl.capNlkPortid ≠ 0) :
      HookMove env g (.entered packet) (g, some (.popping packet))
  | pop (packet : List Byte) {cb : CapBuffer} {l : List CapBuffer} (hlist : g.capFreelist = cb :: l) :
      HookMove env g (.popping packet)
        ({ g with capFreelist := l, capFreelistCount := g.capFreelistCount - 1 },
          some (.filling packet cb))
  | miss (packet : List Byte) (hlist : g.capFreelist = []) :
      HookMove env g (.popping packet) (g, some (.mallocing packet))
  | malloc (packet : List Byte) :
      HookMove env g (.mallocing packet)
        ({ g with bufAllocs := g.bufAllocs + 1 }, some (.filling packet ⟨g.bufAllocs, none⟩))
  | oops (packet : List Byte) : HookMove env g (.mallocing packet) (g, some .oopsed)
  | build (packet : List Byte) (cb : CapBuffer) {skb : SkBuff}
      (hdata : skb.data = capturedMsg g.ctl.capNlkPortid nlmsgDone packet)
      (hid : skb.id = g.skbAllocs) (husers : skb.users = 1) :
      HookMove env g (.filling packet cb)
        ({ g with skbAllocs := g.skbAllocs + 1 }, some (.checking { cb with skb := some skb }))
  | noSkb (packet : List Byte) (cb : CapBuffer) :
      HookMove env g (.filling packet cb) (g, some (.freeing { cb with skb := none }))
  | noRoom (packet : List Byte) (cb : CapBuffer) (skb : SkBuff) :
      HookMove env g (.filling packet cb)
        ({ g with skbAllocs := g.skbAllocs + 1, skbFreed := skb.id :: g.skbFreed },
          some (.freeing { cb with skb := none }))
  | refuse (cb : CapBuffer) (hrate : (capRateCheck env.jiffies g.rate).2 = 0) :
      HookMove env g (.checking cb) ({ g with rate := (capRateCheck env.jiffies g.rate).1 }, none)
  | check (cb : CapBuffer) :
      HookMove env g (.checking cb)
        ({ g with rate := (capRateCheck env.jiffies g.rate).1 }, some (.queueing cb))
  | queueNone (cb : CapBuffer) (hskb : cb.skb = none) :
      HookMove env g (.queueing cb) (g, some (.freeing cb))
  | queue (cb : CapBuffer) {skb : SkBuff} (hskb : cb.skb = some skb) :
      HookMove env g (.queueing cb)
        ({ g with capSkbQueue := g.capSkbQueue ++ [setNlmsgLen skb] },
          some (.freeing { cb with skb := none }))
  | kfree (cb : CapBuffer) (hfull : capMaxfree ≤ g.capFreelistCount) :
      HookMove env g (.freeing cb) ({ g with bufFreed := cb.id :: g.bufFreed }, none)
  | put (cb : CapBuffer) (hroom : g.capFreelistCount < capMaxfree) :
      HookMove env g (.freeing cb)
        ({ g with
            capFreelistCount := g.capFreelistCount + 1
            capFreelist := cb :: g.capFreelist }, none)
  | dead : HookMove env g .oopsed (g, some .oopsed)

theorem hookStep_moves (env : HookEnv) (g : Cap) (pc : HookPc) :
    HookMove env g pc (hookStep env g pc) := by
  cases pc with
  | entered packet =>
      simp only [hookStep]
      split
      case isTrue => exact .pass packet
      case isFalse hlistens => exact .enter packet hlistens
  | popping packet =>
      simp only [hookStep, freelistPop]
      cases hlist : g.capFreelist with
      | nil => exact .miss packet hlist
      | cons cb l => exact .pop packet hlist
  | mallocing packet =>
      simp only [hookStep, capKmalloc]
      cases env.kmalloc with
      | true => exact .malloc packet
      | false => exact .oops packet
  | filling packet cb =>
      simp only [hookStep, capFill]
      cases hbuild : buildMsg g.skbAllocs maxSkbBufsize env.mem g.ctl.capNlkPortid 0 nlmsgDone 0
        packet with
      | noSkb => exact .noSkb packet cb
      | noRoom skb => exact .noRoom packet cb skb
      | built skb =>
          obtain ⟨hdata, hid, husers⟩ := buildMsg_built hbuild
          exact .build packet cb hdata hid husers
  | checking cb =>
      simp only [hookStep]
      split
      case isTrue hrate => exact .refuse cb hrate
      case isFalse => exact .check cb
  | queueing cb =>
      simp only [hookStep, capEnqueue]
      cases hskb : cb.skb with
      | none => exact .queueNone cb hskb
      | some skb => exact .queue cb hskb
  | freeing cb =>
      simp only [hookStep, hookFree, capBufferFree]
      by_cases hfull : g.capFreelistCount ≥ capMaxfree
      · simp only [hfull, if_true]
        exact .kfree cb hfull
      · simp only [hfull, if_false]
        exact .put cb (by omega)
  | oopsed => exact .dead

/-- A hook step leaves the command state alone; only the step from `queueing`
    touches the queue. -/
theorem hookStep_frame (env : HookEnv) (g : Cap) (pc : HookPc) :
    (hookStep env g pc).1.ctl = g.ctl ∧
      (hookStep env g pc).1.capSkbQueue = g.capSkbQueue ++ pc.enqueues := by
  have hmove := hookStep_moves env g pc
  generalize hookStep env g pc = r at hmove
  cases hmove with
  | queueNone cb hskb =>
      rw [HookPc.enqueues, hskb]
      exact ⟨rfl, (List.append_nil _).symm⟩
  | queue cb hskb =>
      rw [HookPc.enqueues, hskb]
      exact ⟨rfl, rfl⟩
  | _ => exact ⟨rfl, (List.append_nil _).symm⟩

/-- Where a hook execution can be after a step: a message it then holds was there
    before or has just been stamped with the current portid, and a capture begins
    only under a nonzero portid. -/
theorem hookStep_next {env : HookEnv} {g : Cap} {pc pc' : HookPc}
    (h : (hookStep env g pc).2 = some pc') :
    (∀ skb ∈ pc'.stamped, skb ∈ pc.stamped ∨
      (pc.unstamped ∧ ∃ packet, skb.data = capturedMsg g.ctl.capNlkPortid nlmsgDone packet)) ∧
      (pc'.unstamped → pc.unstamped ∨ g.ctl.capNlkPortid ≠ 0) ∧
      (pc'.captures → pc.captures ∨ g.ctl.capNlkPortid ≠ 0) := by
  have hmove := hookStep_moves env g pc
  generalize hookStep env g pc = r at hmove h
  have hnone : ∀ p : HookPc, p.stamped = [] → ∀ skb ∈ p.stamped, skb ∈ pc.stamped ∨
      (pc.unstamped ∧ ∃ packet, skb.data = capturedMsg g.ctl.capNlkPortid nlmsgDone packet) := by
    intro p hp skb hmem
    rw [hp] at hmem
    cases hmem
  cases hmove with
  | pass packet => cases h
  | refuse cb _ => cases h
  | kfree cb _ => cases h
  | put cb _ => cases h
  | enter packet hlistens =>
      cases h
      exact ⟨hnone _ rfl, fun _ => Or.inr hlistens, fun _ => Or.inr hlistens⟩
  | build packet cb hdata _ _ =>
      -- the header has the portid of this moment
      cases h
      refine ⟨fun skb' hmem => ?_, fun _ => Or.inl rfl, fun _ => Or.inl rfl⟩
      have heq := List.mem_singleton.mp hmem
      exact Or.inr ⟨rfl, packet, heq ▸ hdata⟩
  | check cb =>
      cases h
      exact ⟨fun skb' hmem => Or.inl hmem, fun hun => absurd hun Bool.false_ne_true, fun _ => Or.inl rfl⟩
  | queueNone cb _ =>
      cases h
      exact ⟨hnone _ rfl, fun hun => absurd hun Bool.false_ne_true, fun _ => Or.inl rfl⟩
  | queue cb _ =>
      cases h
      exact ⟨hnone _ rfl, fun hun => absurd hun Bool.false_ne_true, fun _ => Or.inl rfl⟩
  | dead =>
      cases h
      exact ⟨hnone _ rfl, fun hun => absurd hun Bool.false_ne_true, fun _ => Or.inl rfl⟩
  | _ =>
      -- from `popping`, `mallocing` and `filling` without a message
      cases h
      exact ⟨hnone _ rfl, fun _ => Or.inl rfl, fun _ => Or.inl rfl⟩

theorem mem_putHook {hooks : List HookPc} {i : Nat} {next : Option HookPc} {pc : HookPc}
    (h : pc ∈ putHook hooks i next) : pc ∈ hooks ∨ next = some pc := by
  cases next with
  | none => exact Or.inl (List.mem_of_mem_eraseIdx h)
  | some pc' =>
      rcases List.mem_or_eq_of_mem_set h with hmem | rfl
      · exact Or.inl hmem
      · exact Or.inr rfl

/-! ## What a kcapd step can do -/

/-- A kcapd step neither starts a thread nor loses a message: what it sends, what
    the thread then holds and the queue are what it held and the queue before. -/
theorem kcapdStep_frame (err : Int) (g : Cap) (pc : KcapdPc) :
    (kcapdStep err g pc).1.ctl.kcapdTask = g.ctl.kcapdTask ∧
      ∀ portid, (pc.sends portid).map Prod.fst ++
        ((kcapdStep err g pc).2.held ++ (kcapdStep err g pc).1.capSkbQueue) =
          pc.held ++ g.capSkbQueue := by
  cases pc with
  | idle =>
      simp only [kcapdStep]
      split
      case h_1 hnil => exact ⟨rfl, fun _ => rfl⟩
      case h_2 skb rest hcons => exact ⟨rfl, fun _ => hcons.symm⟩
  | holding skb =>
      simp only [kcapdStep]
      split
      · split <;> exact ⟨rfl, fun _ => rfl⟩
      · exact ⟨rfl, fun _ => rfl⟩
  | refused skb => exact ⟨rfl, fun _ => rfl⟩
  | bug => exact ⟨rfl, fun _ => rfl⟩

/-! ## One thread, one queue -/

/-- The invariant of the capture queue. -/
structure Queued (s : Sys) : Prop where
  task_iff : s.g.ctl.kcapdTask = none ↔ s.kcapd = []
  single : s.kcapd.length ≤ 1
  fifo : s.sent.map Prod.fst ++ s.kcapd.flatMap KcapdPc.held ++ s.g.capSkbQueue = s.enqueued
  started : s.g.ctl.capNlkPortid ≠ 0 ∨ s.g.capSkbQueue ≠ [] ∨ (∃ pc ∈ s.hooks, pc.captures) →
    s.kcapd ≠ []

theorem queued_sysStart (rate : RateState) : Queued (sysStart rate) where
  task_iff := by simp [sysStart, capStart, appInitCtl]
  single := by simp [sysStart]
  fifo := rfl
  started := by simp [sysStart, capStart, appInitCtl]

theorem queued_client {s : Sys} (hs : Queued s) (kt : KthreadRun) (h : Nlmsghdr) :
    Queued (sysStep s (.client kt h)) := by
  simp only [sysStep]
  rcases capReceiveMsg_cases kt s.g.ctl h with
    ⟨-, -, hctl, hnone⟩ | ⟨-, hsome, heq⟩ | ⟨t, -, htask, heq⟩
  · -- refused: nothing changes
    rw [hctl, hnone, List.map_nil, List.append_nil]
    exact hs
  · have hne : s.kcapd ≠ [] := by
      rw [Ne, ← hs.task_iff]
      exact Option.isSome_iff_ne_none.mp hsome
    rw [heq, List.map_nil, List.append_nil]
    exact {
      task_iff := by
        rw [capSwitch_kcapdTask]
        exact hs.task_iff
      single := hs.single
      fifo := hs.fifo
      started := fun _ => hne }
  · -- the first admitted message: the only thread starts, idle
    have hnil : s.kcapd = [] := hs.task_iff.mp htask
    rw [heq, hnil]
    exact {
      task_iff := by simp [capSwitch_kcapdTask]
      single := by simp
      fifo := by simpa [hnil, KcapdPc.held] using hs.fifo
      started := by simp }

theorem queued_hook {s : Sys} (hs : Queued s) (i : Nat) (env : HookEnv) :
    Queued (sysStep s (.hook i env)) := by
  simp only [sysStep]
  split
  case h_1 => exact hs
  case h_2 pc hpc =>
    have hmem : pc ∈ s.hooks := List.mem_of_getElem? hpc
    obtain ⟨hctl, hq⟩ := hookStep_frame env s.g pc
    refine ⟨?_, hs.single, ?_, ?_⟩
    · rw [hctl]
      exact hs.task_iff
    · rw [hq, ← List.append_assoc, hs.fifo]
    · rw [hctl, hq]
      intro hcause
      apply hs.started
      rcases hcause with hp | hne | ⟨pc', hmem', hcap⟩
      · exact Or.inl hp
      · by_cases hold : s.g.capSkbQueue = []
        · rw [hold, List.nil_append] at hne
          exact Or.inr (Or.inr ⟨pc, hmem, HookPc.captures_of_enqueues hne⟩)
        · exact Or.inr (Or.inl hold)
      · rcases mem_putHook hmem' with hin | hnext
        · exact Or.inr (Or.inr ⟨pc', hin, hcap⟩)
        · rcases (hookStep_next hnext).2.2 hcap with hcap | hp
          · exact Or.inr (Or.inr ⟨pc, hmem, hcap⟩)
          · exact Or.inl hp

theorem queued_kcapd {s : Sys} (hs : Queued s) (i : Nat) (err : Int) :
    Queued (sysStep s (.kcapd i err)) := by
  simp only [sysStep]
  split
  case h_1 => exact hs
  case h_2 pc hpc =>
    -- the thread that moves is the only one
    obtain ⟨hone, rfl⟩ : s.kcapd = [pc] ∧ i = 0 := by
      obtain ⟨hi, hget⟩ := List.getElem?_eq_some_iff.mp hpc
      have hlen := hs.single
      obtain rfl : i = 0 := by omega
      obtain ⟨x, hx⟩ := List.length_eq_one_iff.mp (by omega : s.kcapd.length = 1)
      simp only [hx, List.getElem_cons_zero] at hget
      exact ⟨by rw [hx, hget], rfl⟩
    obtain ⟨htask, hkeep⟩ := kcapdStep_frame err s.g pc
    have hfifo := hs.fifo
    rw [hone, List.flatMap_singleton] at hfifo
    rw [hone, List.set_cons_zero]
    refine ⟨?_, by simp, ?_, by simp⟩
    · rw [htask, hs.task_iff, hone]
      simp
    · rw [List.map_append, List.flatMap_singleton]
      simp only [List.append_assoc] at hfifo ⊢
      rw [hkeep s.g.ctl.capNlkPortid]
      exact hfifo

theorem queued_sysStep {s : Sys} (e : SysEvent) (hs : Queued s) : Queued (sysStep s e) := by
  cases e with
  | client kt h => exact queued_client hs kt h
  | hookEnter packet =>
      refine ⟨hs.task_iff, hs.single, hs.fifo, fun hcause => hs.started ?_⟩
      simpa [sysStep, or_and_right, exists_or, HookPc.captures] using hcause
  | hook i env => exact queued_hook hs i env
  | kcapd i err => exact queued_kcapd hs i err

/-- In every state of every run: at most one kcapd thread was ever started; the
    messages sent, the one kcapd holds and the queue are together the messages
    the hooks enqueued, in order; and while there is a capture target or a queued
    message, kcapd has been started. -/
theorem capture_queue_fifo (rate : RateState) (events : List SysEvent) :
    Along sysStep
      (fun s => s.kcapd.length ≤ 1 ∧
        s.sent.map Prod.fst ++ s.kcapd.flatMap KcapdPc.held ++ s.g.capSkbQueue = s.enqueued ∧
        (s.g.ctl.capNlkPortid ≠ 0 ∨ s.g.capSkbQueue ≠ [] → s.kcapd ≠ []))
      (sysStart rate) events := by
  have hqueued : Along sysStep Queued (sysStart rate) events :=
    along_of_step (fun s e _ => queued_sysStep e) (queued_sysStart rate)
      (guarded_of_forall fun _ _ _ => trivial)
  refine hqueued.mono fun s hs => ⟨hs.single, hs.fifo, fun hcause => hs.started ?_⟩
  exact hcause.imp_right Or.inl

/-! ## Messages on their way -/

/-- The `nlmsg_pid` in the header of a message. -/
def stampedPid (skb : SkBuff) : BitVec 32 := (Nlmsghdr.ofBytes skb.data).nlmsgPid

theorem stampedPid_setNlmsgLen (skb : SkBuff) : stampedPid (setNlmsgLen skb) = stampedPid skb := by
  simp only [stampedPid, setNlmsgLen, Nlmsghdr.ofBytes, overwrite, List.take_zero,
    List.nil_append, length_leBytes]
  rw [field_skip_leBytes (by decide), field_drop]

theorem stampedPid_captured {skb : SkBuff} {portid : BitVec 32} {msgType : BitVec 16}
    {packet : List Byte} (h : skb.data = capturedMsg portid msgType packet) :
    stampedPid skb = portid := by
  rw [stampedPid, h, capturedMsg, wireMsg, Nlmsghdr.ofBytes_toBytes]

/-- The stamped messages that are not yet sent: with kcapd, on the queue, or with
    a hook execution that will queue them. -/
def Sys.waiting (s : Sys) : List SkBuff :=
  s.kcapd.flatMap KcapdPc.held ++ s.g.capSkbQueue ++ s.hooks.flatMap HookPc.stamped

theorem mem_waiting {s : Sys} {skb : SkBuff} :
    skb ∈ s.waiting ↔ (∃ pc ∈ s.kcapd, skb ∈ pc.held) ∨ skb ∈ s.g.capSkbQueue ∨
      ∃ pc ∈ s.hooks, skb ∈ pc.stamped := by
  simp only [Sys.waiting, List.mem_append, List.mem_flatMap, or_assoc]

/-- The value an event assigns to `cap_nlk_portid`, if it assigns one. -/
def newPortid (s : Sys) : SysEvent → Option (BitVec 32)
  | .client kt h =>
      if Admitted kt s.g.ctl h then
        match CapType.ofMsgType h.nlmsgType with
        | some .capAdd => some h.nlmsgPid
        | some .capDel => some 0
        | _ => none
      else none
  | .kcapd i _ =>
      match s.kcapd[i]? with
      | some (.refused _) => some 0
      | _ => none
  | _ => none

theorem portid_sysStep (s : Sys) (e : SysEvent) :
    (sysStep s e).g.ctl.capNlkPortid = (newPortid s e).getD s.g.ctl.capNlkPortid := by
  cases e with
  | client kt h =>
      apply (capReceiveMsg_frame (fun _ p => p = _) kt s.g.ctl h).mpr
      simp only [newPortid]
      split
      · rw [capSwitch]
        rcases CapType.ofMsgType h.nlmsgType with _ | (_ | _ | _ | _) <;> rfl
      · rfl
  | hookEnter packet => rfl
  | hook i env =>
      simp only [sysStep, newPortid]
      split
      case h_1 => rfl
      case h_2 pc hpc => rw [(hookStep_frame env s.g pc).1, Option.getD_none]
  | kcapd i err =>
      simp only [sysStep, newPortid]
      split
      case h_1 hnone => rw [hnone, Option.getD_none]
      case h_2 pc hpc =>
        rw [hpc]
        cases pc with
        | idle =>
            simp only [kcapdStep]
            split <;> rfl
        | holding skb =>
            simp only [kcapdStep]
            split
            · split <;> rfl
            · rfl
        | refused skb => rfl
        | bug => rfl

/-- What a hook step puts on the queue it held stamped before; the length in the
    header is rewritten, the pid is not. -/
theorem HookPc.stamped_of_enqueues {pc : HookPc} {skb : SkBuff} (h : skb ∈ pc.enqueues) :
    ∃ old ∈ pc.stamped, stampedPid skb = stampedPid old := by
  cases pc with
  | queueing cb =>
      simp only [HookPc.enqueues, Option.mem_toList, Option.map_eq_some_iff] at h
      obtain ⟨old, hold, rfl⟩ := h
      refine ⟨old, ?_, stampedPid_setNlmsgLen old⟩
      simp only [HookPc.stamped, hold, Option.toList_some, List.mem_singleton]
  | _ => simp only [HookPc.enqueues, List.not_mem_nil] at h

theorem mem_waiting_hook {s : Sys} {i : Nat} {pc : HookPc} (hpc : s.hooks[i]? = some pc)
    {env : HookEnv} {skb : SkBuff} (h : skb ∈ (sysStep s (.hook i env)).waiting) :
    (∃ old ∈ s.waiting, stampedPid skb = stampedPid old) ∨
      ((∃ pc ∈ s.hooks, pc.unstamped) ∧ stampedPid skb = s.g.ctl.capNlkPortid) := by
  have hmem : pc ∈ s.hooks := List.mem_of_getElem? hpc
  rw [mem_waiting] at h
  simp only [sysStep, hpc] at h
  rw [(hookStep_frame env s.g pc).2, List.mem_append] at h
  rcases h with hheld | (hq | hq) | ⟨pc', hmem', hst⟩
  · exact Or.inl ⟨skb, mem_waiting.mpr (Or.inl hheld), rfl⟩
  · exact Or.inl ⟨skb, mem_waiting.mpr (Or.inr (Or.inl hq)), rfl⟩
  · -- queued in this step
    obtain ⟨old, hold, hpid⟩ := HookPc.stamped_of_enqueues hq
    exact Or.inl ⟨old, mem_waiting.mpr (Or.inr (Or.inr ⟨pc, hmem, hold⟩)), hpid⟩
  · rcases mem_putHook hmem' with hin | hnext
    · exact Or.inl ⟨skb, mem_waiting.mpr (Or.inr (Or.inr ⟨pc', hin, hst⟩)), rfl⟩
    · rcases (hookStep_next hnext).1 skb hst with hold | ⟨hun, packet, hdata⟩
      · exact Or.inl ⟨skb, mem_waiting.mpr (Or.inr (Or.inr ⟨pc, hmem, hold⟩)), rfl⟩
      · exact Or.inr ⟨⟨pc, hmem, hun⟩, stampedPid_captured hdata⟩

theorem mem_waiting_kcapd {s : Sys} {i : Nat} {pc : KcapdPc} (hpc : s.kcapd[i]? = some pc)
    {err : Int} {skb : SkBuff} (h : skb ∈ (sysStep s (.kcapd i err)).waiting) :
    skb ∈ s.waiting := by
  have hmem : pc ∈ s.kcapd := List.mem_of_getElem? hpc
  -- what the thread holds or leaves on the queue was held or queued before
  have hkeep : ∀ x, x ∈ (kcapdStep err s.g pc).2.held ∨
      x ∈ (kcapdStep err s.g pc).1.capSkbQueue → x ∈ s.waiting := by
    intro x hx
    have hin := List.mem_append_right ((pc.sends 0).map Prod.fst) (List.mem_append.mpr hx)
    rw [(kcapdStep_frame err s.g pc).2, List.mem_append] at hin
    rcases hin with hheld | hq
    · exact mem_waiting.mpr (Or.inl ⟨pc, hmem, hheld⟩)
    · exact mem_waiting.mpr (Or.inr (Or.inl hq))
  rw [mem_waiting] at h
  simp only [sysStep, hpc] at h
  rcases h with ⟨pc', hmem', hheld⟩ | hq | hst
  · rcases List.mem_or_eq_of_mem_set hmem' with hin | rfl
    · exact mem_waiting.mpr (Or.inl ⟨pc', hin, hheld⟩)
    · exact hkeep skb (Or.inl hheld)
  · exact hkeep skb (Or.inr hq)
  · exact mem_waiting.mpr (Or.inr (Or.inr hst))

/-- A message that waits after an event was waiting before it, or has just been
    stamped with the current portid. -/
theorem mem_waiting_sysStep {s : Sys} {e : SysEvent} {skb : SkBuff}
    (h : skb ∈ (sysStep s e).waiting) :
    (∃ skb' ∈ s.waiting, stampedPid skb = stampedPid skb') ∨
      (newPortid s e = none ∧ (∃ pc ∈ s.hooks, pc.unstamped) ∧
        stampedPid skb = s.g.ctl.capNlkPortid) := by
  cases e with
  | client kt msg =>
      refine Or.inl ⟨skb, ?_, rfl⟩
      simpa [sysStep, Sys.waiting, KcapdPc.held, List.flatMap_map] using h
  | hookEnter packet =>
      refine Or.inl ⟨skb, ?_, rfl⟩
      simpa [sysStep, Sys.waiting, HookPc.stamped] using h
  | hook i env =>
      cases hpc : s.hooks[i]? with
      | none =>
          simp only [sysStep, hpc] at h
          exact Or.inl ⟨skb, h, rfl⟩
      | some pc =>
          rcases mem_waiting_hook hpc h with hold | ⟨hun, hpid⟩
          · exact Or.inl hold
          · exact Or.inr ⟨rfl, hun, hpid⟩
  | kcapd i err =>
      refine Or.inl ⟨skb, ?_, rfl⟩
      cases hpc : s.kcapd[i]? with
      | none => simpa only [sysStep, hpc] using h
      | some pc => exact mem_waiting_kcapd hpc h

/-- A capture that is under way after an event was so before it, or has just
    passed the test of `cap_nlk_portid`. -/
theorem unstamped_sysStep {s : Sys} {e : SysEvent} {pc : HookPc}
    (hmem : pc ∈ (sysStep s e).hooks) (hun : pc.unstamped) :
    (∃ pc' ∈ s.hooks, pc'.unstamped) ∨
      (newPortid s e = none ∧ s.g.ctl.capNlkPortid ≠ 0) := by
  cases e with
  | client kt msg => exact Or.inl ⟨pc, hmem, hun⟩
  | hookEnter packet =>
      rcases List.mem_append.mp hmem with hin | hnew
      · exact Or.inl ⟨pc, hin, hun⟩
      · obtain rfl := List.mem_singleton.mp hnew
        cases hun
  | hook i env =>
      simp only [sysStep] at hmem
      split at hmem
      case h_1 => exact Or.inl ⟨pc, hmem, hun⟩
      case h_2 old hold =>
        rcases mem_putHook hmem with hin | hnext
        · exact Or.inl ⟨pc, hin, hun⟩
        · rcases (hookStep_next hnext).2.1 hun with hun' | hp
          · exact Or.inl ⟨old, List.mem_of_getElem? hold, hun'⟩
          · exact Or.inr ⟨rfl, hp⟩
  | kcapd i err =>
      simp only [sysStep] at hmem
      split at hmem <;> exact Or.inl ⟨pc, hmem, hun⟩

/-- kcapd sends waiting messages, to the current portid. -/
theorem sent_sysStep {s : Sys} {e : SysEvent} {m : SkBuff × BitVec 32}
    (h : m ∈ (sysStep s e).sent) :
    m ∈ s.sent ∨ (m.1 ∈ s.waiting ∧ m.2 = s.g.ctl.capNlkPortid) := by
  cases e with
  | client kt msg => exact Or.inl h
  | hookEnter packet => exact Or.inl h
  | hook i env =>
      simp only [sysStep] at h
      split at h <;> exact Or.inl h
  | kcapd i err =>
      simp only [sysStep] at h
      split at h
      case h_1 => exact Or.inl h
      case h_2 pc hpc =>
        rcases List.mem_append.mp h with hold | hnew
        · exact Or.inl hold
        · cases pc with
          | holding skb =>
              obtain rfl := List.mem_singleton.mp hnew
              refine Or.inr ⟨mem_waiting.mpr (Or.inl ⟨_, List.mem_of_getElem? hpc, ?_⟩), rfl⟩
              exact List.mem_singleton_self skb
          | _ => cases hnew

/-! ## Messages reach the portid in their header -/

/-- Every message was sent to the portid in its header, which is not 0. -/
def SentOk (s : Sys) : Prop := ∀ m ∈ s.sent, m.2 = stampedPid m.1 ∧ m.2 ≠ 0

/-- The event does not change `cap_nlk_portid` under a message that waits to be
    sent, nor clear it under a capture that has not yet read it. -/
def KeepsTarget (s : Sys) (e : SysEvent) : Prop :=
  ∀ v, newPortid s e = some v → v ≠ s.g.ctl.capNlkPortid →
    s.waiting = [] ∧ (v = 0 → ∀ pc ∈ s.hooks, pc.unstamped = false)

/-- The invariant of such runs. -/
structure Addressed (s : Sys) : Prop where
  sent : SentOk s
  waiting : ∀ skb ∈ s.waiting, stampedPid skb = s.g.ctl.capNlkPortid ∧ s.g.ctl.capNlkPortid ≠ 0
  capturing : ∀ pc ∈ s.hooks, pc.unstamped → s.g.ctl.capNlkPortid ≠ 0

theorem addressed_sysStep {s : Sys} {e : SysEvent} (hok : KeepsTarget s e) (hs : Addressed s) :
    Addressed (sysStep s e) := by
  have hportid := portid_sysStep s e
  -- either the portid stays, or nothing that depends on it is under way
  have hkeep : (sysStep s e).g.ctl.capNlkPortid = s.g.ctl.capNlkPortid ∨
      (newPortid s e ≠ none ∧ s.waiting = [] ∧ ((sysStep s e).g.ctl.capNlkPortid = 0 →
        ∀ pc ∈ s.hooks, pc.unstamped = false)) := by
    cases hnew : newPortid s e with
    | none => exact Or.inl (by rw [hportid, hnew, Option.getD_none])
    | some v =>
        rw [hnew, Option.getD_some] at hportid
        by_cases hv : v = s.g.ctl.capNlkPortid
        · exact Or.inl (hportid.trans hv)
        · obtain ⟨hnil, hzero⟩ := hok v hnew hv
          exact Or.inr ⟨Option.some_ne_none v, hnil, fun h0 => hzero (hportid ▸ h0)⟩
  refine ⟨?_, ?_, ?_⟩
  · intro m hm
    rcases sent_sysStep hm with hold | ⟨hwait, hdst⟩
    · exact hs.sent m hold
    · obtain ⟨hpid, hne⟩ := hs.waiting m.1 hwait
      exact ⟨hdst.trans hpid.symm, hdst ▸ hne⟩
  · intro skb hskb
    rcases mem_waiting_sysStep hskb with ⟨old, hold, hpid⟩ | ⟨hnone, ⟨pc, hpc, hun⟩, hpid⟩
    · rcases hkeep with heq | ⟨-, hnil, -⟩
      · rw [heq, hpid]
        exact hs.waiting old hold
      · rw [hnil] at hold
        cases hold
    · rcases hkeep with heq | ⟨hsome, -, -⟩
      · rw [heq]
        exact ⟨hpid, hs.capturing pc hpc hun⟩
      · exact absurd hnone hsome
  · intro pc hpc hun
    rcases unstamped_sysStep hpc hun with ⟨old, hold, hun'⟩ | ⟨hnone, hne⟩
    · rcases hkeep with heq | ⟨-, -, hzero⟩
      · rw [heq]
        exact hs.capturing old hold hun'
      · intro h0
        rw [hzero h0 old hold] at hun'
        cases hun'
    · rcases hkeep with heq | ⟨hsome, -, -⟩
      · rw [heq]
        exact hne
      · exact absurd hnone hsome

/-- In every run whose events never change the capture target under a message on
    its way, every message is sent to the portid that was stamped into its
    header. -/
theorem sent_to_stamped_portid (rate : RateState) (events : List SysEvent)
    (hok : Guarded sysStep KeepsTarget (sysStart rate) events) :
    Along sysStep SentOk (sysStart rate) events := by
  have hstart : Addressed (sysStart rate) :=
    ⟨by simp [SentOk, sysStart], by simp [Sys.waiting, sysStart], by simp [sysStart]⟩
  exact (along_of_step (fun _ _ => addressed_sysStep) hstart hok).mono fun _ hs => hs.sent

/-- A packet is captured and queued by hook execution 0, undisturbed. -/
def captureOne (packet : List Byte) : List SysEvent :=
  .hookEnter packet :: List.replicate 7 (.hook 0 calmEnv)

/-- The rate limiter as it is compiled: no limit. -/
def noLimit : RateState := { capRateLimit := 0, hz := 100, lastCheck := 0, packets := 0 }

/-- A client registers, a packet is captured, queued and sent, and only then
    another client takes over. -/
theorem sent_to_stamped_portid_handover :
    Along sysStep SentOk (sysStart noLimit)
        ([.client (.task 1) (capMsg 0 7)] ++ captureOne [1, 2, 3] ++
          [.kcapd 0 0, .kcapd 0 0, .client (.task 1) (capMsg 0 9)]) ∧
      (run sysStep (sysStart noLimit)
        ([.client (.task 1) (capMsg 0 7)] ++ captureOne [1, 2, 3] ++
          [.kcapd 0 0, .kcapd 0 0, .client (.task 1) (capMsg 0 9)])).sent.map Prod.snd = [7] := by
  refine ⟨sent_to_stamped_portid noLimit _ ?_, by decide +kernel⟩
  -- only the two registrations assign the portid, with nothing on its way
  refine ⟨?_, ?_, ?_, ?_, ?_, ?_, ?_, ?_, ?_, ?_, ?_, ?_, trivial⟩
  · exact fun v _ _ => ⟨rfl, fun _ pc hpc => by cases hpc⟩
  on_goal 11 => exact fun v hv _ => ⟨rfl, fun h0 => by subst h0; cases hv⟩
  all_goals exact fun v hv => by cases hv

/-- Client 7 registers, a packet is captured and queued, message `h` arrives, and
    then kcapd sends. -/
def overtaken (h : Nlmsghdr) : List SysEvent :=
  [.client (.task 1) (capMsg 0 7)] ++ captureOne [1, 2, 3] ++
    [.client (.task 1) h, .kcapd 0 0, .kcapd 0 0]

/-- A message stamped for client 7 goes to client 9 when 9 registers while it is
    queued, and to portid 0, the module's own socket, when 7 leaves meanwhile. -/
theorem sent_misaddressed_after_change :
    ¬ Along sysStep SentOk (sysStart noLimit) (overtaken (capMsg 0 9)) ∧
      (run sysStep (sysStart noLimit) (overtaken (capMsg 0 9))).sent.map
        (fun m => (stampedPid m.1, m.2)) = [(7, 9)] ∧
      (run sysStep (sysStart noLimit) (overtaken (capMsg 1 7))).sent.map
        (fun m => (stampedPid m.1, m.2)) = [(7, 0)] := by
  have hsent : (run sysStep (sysStart noLimit) (overtaken (capMsg 0 9))).sent.map
      (fun m => (stampedPid m.1, m.2)) = [(7, 9)] := by decide +kernel
  refine ⟨fun h => ?_, hsent, by decide +kernel⟩
  obtain ⟨m, hm, hpair⟩ : ∃ m ∈ (run sysStep (sysStart noLimit) (overtaken (capMsg 0 9))).sent,
      (stampedPid m.1, m.2) = (7, 9) := List.mem_map.mp (hsent ▸ List.mem_singleton_self _)
  have heq := (h.last m hm).1
  rw [(Prod.mk.inj hpair).1, (Prod.mk.inj hpair).2] at heq
  cases heq

end LinuxModules.Netlink
