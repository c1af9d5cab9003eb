/-
  LinuxModules.Netlink.Ownership

  Who owns what after a call of `hook_func_queue` has returned: every
  `cap_buffer` from `kmalloc` and every skb from `nlmsg_new` is in a list of the
  module or has been freed.

  A call has five ways out.  Four give everything back; over the rate limit the
  buffer and its skb are dropped, and without a buffer `cap_buffer_free` is
  handed NULL.
-/

import LinuxModules.Lib.Ledger
import LinuxModules.Netlink.Freelist
import Mathlib.Tactic.Abel

namespace LinuxModules.Netlink

open LinuxModules.Lib LinuxModules.Net

/-! ## The accounts -/

/-- Capture buffers: issued by `kmalloc`, found on the freelist or freed. -/
def Cap.buffers (g : Cap) : Ledger := ⟨g.bufAllocs, g.pool.ids⟩

/-- Message buffers: issued by `nlmsg_new`, found on the queue or freed. -/
def Cap.skbs (g : Cap) : Ledger :=
  ⟨g.skbAllocs, (g.capSkbQueue.map (·.id) : List Nat) + (g.skbFreed : List Nat)⟩

/-- The call can get a capture buffer. -/
def HasBuffer (env : HookEnv) (g : Cap) : Prop := g.capFreelist ≠ [] ∨ env.kmalloc = true

/-- The message for the packet gets built: `nlmsg_new` succeeds and the packet
    fits. -/
def Builds (packet : List Byte) (mem : Option SkbMem) : Prop :=
  ∃ m, mem = some m ∧ nlmsgTotalSize packet.length ≤ nlmsgTotalSize maxSkbBufsize + m.slack

/-- `cap_rate_check` would let a packet through now. -/
def WithinRate (env : HookEnv) (g : Cap) : Prop := (capRateCheck env.jiffies g.rate).2 ≠ 0

/-! ## The parts of a call -/

/-- The buffer comes from the freelist or is new; nothing but the pool changes. -/
theorem takeBuffer_cases (env : HookEnv) (g : Cap) :
    (¬ HasBuffer env g ∧ freelistPop g = (g, none) ∧ capKmalloc env.kmalloc g = (g, none)) ∨
    (HasBuffer env g ∧ ∃ l n a cb,
      (if (freelistPop g).2.isSome then ((freelistPop g).1, (freelistPop g).2)
        else capKmalloc env.kmalloc (freelistPop g).1) =
          ({ g with capFreelist := l, capFreelistCount := n, bufAllocs := a }, some cb) ∧
      g.buffers.Keeps ⟨a, cb.id ::ₘ Pool.ids ⟨l, n, a, g.bufFreed⟩⟩) := by
  obtain ⟨ctl, q, l, n, rate, a, f, sa, sf⟩ := g
  cases l with
  | cons cb l =>
      refine Or.inr ⟨Or.inl (by simp), l, n - 1, a, cb, rfl, Or.inl ?_⟩
      simp only [Cap.buffers, Cap.pool, Pool.ids, List.map_cons, ← Multiset.cons_coe,
        Multiset.cons_add]
  | nil =>
      cases hkm : env.kmalloc with
      -- a new buffer has the next number
      | true => exact Or.inr ⟨Or.inr hkm, [], n, a + 1, ⟨a, none⟩, rfl, Or.inr rfl⟩
      | false => exact Or.inl ⟨by simp [HasBuffer, hkm], rfl, rfl⟩

/-- `cap_buffer_free` of a real buffer puts it where it is found. -/
theorem hookFree_buffers (cb : CapBuffer) (g : Cap) :
    (hookFree (some cb) g).1.buffers = ⟨g.bufAllocs, cb.id ::ₘ g.pool.ids⟩ ∧
      (hookFree (some cb) g).1.skbs = g.skbs := by
  simp only [hookFree, capBufferFree]
  by_cases hfull : g.capFreelistCount ≥ capMaxfree
  · simp only [hfull, if_true, Cap.buffers, Cap.skbs, Cap.pool, Pool.ids, ← Multiset.cons_coe,
      Multiset.add_cons, and_self]
  · simp only [hfull, if_false, Cap.buffers, Cap.skbs, Cap.pool, Pool.ids, List.map_cons,
      ← Multiset.cons_coe, Multiset.cons_add, and_self]

/-- The three outcomes of building the message. -/
theorem capFill_cases (packet : List Byte) (mem : Option SkbMem) (cb : CapBuffer) (g : Cap) :
    (¬ Builds packet mem ∧ ∃ g', capFill nlmsgDone packet mem cb g =
      (g', { cb with skb := none }, false) ∧ g'.pool = g.pool ∧ g.skbs.Keeps g'.skbs) ∨
    (Builds packet mem ∧ ∃ skb, skb.id = g.skbAllocs ∧ capFill nlmsgDone packet mem cb g =
      ({ g with skbAllocs := g.skbAllocs + 1 }, { cb with skb := some skb }, true)) := by
  cases mem with
  | none =>
      refine Or.inl ⟨?_, g, rfl, rfl, Or.inl rfl⟩
      rintro ⟨m, hm, -⟩
      cases hm
  | some m =>
      by_cases hroom : nlmsgTotalSize maxSkbBufsize + m.slack < nlmsgTotalSize packet.length
      · refine Or.inl ⟨?_, ?_⟩
        · rintro ⟨m', hm, hle⟩
          cases hm
          omega
        · simp only [capFill, buildMsg, nlmsgNew, Option.map_some, nlmsgPut, hroom, if_true]
          refine ⟨_, rfl, rfl, Or.inr ?_⟩
          simp only [Cap.skbs, Ledger.issue, ← Multiset.cons_coe, Multiset.add_cons]
      · refine Or.inr ⟨⟨m, rfl, Nat.not_lt.mp hroom⟩, ?_⟩
        simp only [capFill, buildMsg, nlmsgNew, Option.map_some, nlmsgPut, hroom, if_false]
        exact ⟨_, rfl, rfl⟩

/-- A call that holds a buffer: it gives the buffer back and loses no skb, or the
    message was built, the rate is exceeded, and both are lost. -/
theorem hookRest_cases (packet : List Byte) (env : HookEnv) (cb : CapBuffer) (g : Cap) :
    ((Builds packet env.mem → WithinRate env g) ∧
      (hookRest packet env cb g).1.buffers = ⟨g.bufAllocs, cb.id ::ₘ g.pool.ids⟩ ∧
      g.skbs.Keeps (hookRest packet env cb g).1.skbs) ∨
    (Builds packet env.mem ∧ ¬ WithinRate env g ∧
      (hookRest packet env cb g).1.buffers = g.buffers ∧
      (hookRest packet env cb g).1.skbs = g.skbs.lose) := by
  rcases capFill_cases packet env.mem cb g with ⟨hnot, g', hfill, hpool, hskbs⟩ | ⟨hb, skb, hid, hfill⟩
  · refine Or.inl ⟨fun hb => absurd hb hnot, ?_⟩
    simp only [hookRest, hfill, Bool.false_eq_true, if_false]
    -- `nlmsg_new` or `nlmsg_put` failed: the buffer goes back
    obtain ⟨hbuf, hsame⟩ := hookFree_buffers { cb with skb := none } g'
    have hallocs : g'.bufAllocs = g.bufAllocs := congrArg Pool.allocs hpool
    rw [hbuf, hsame, hpool, hallocs]
    exact ⟨rfl, hskbs⟩
  · by_cases hrate : (capRateCheck env.jiffies g.rate).2 = 0
    · refine Or.inr ⟨hb, not_not.mpr hrate, ?_⟩
      -- over the limit: neither account has an entry for what was taken
      simp only [hookRest, hfill, if_true, hrate]
      exact ⟨rfl, rfl⟩
    · refine Or.inl ⟨fun _ => hrate, ?_⟩
      simp only [hookRest, hfill, if_true, hrate, if_false, capEnqueue]
      obtain ⟨hbuf, hsame⟩ := hookFree_buffers { cb with skb := none }
        { g with
          skbAllocs := g.skbAllocs + 1
          rate := (capRateCheck env.jiffies g.rate).1
          capSkbQueue := g.capSkbQueue ++ [setNlmsgLen skb] }
      rw [hbuf, hsame]
      refine ⟨rfl, Or.inr ?_⟩
      simp only [Cap.skbs, Ledger.issue, List.map_append, List.map_cons, List.map_nil,
        setNlmsgLen, hid, ← Multiset.coe_add, Multiset.coe_singleton]
      rw [← Multiset.singleton_add, add_assoc, add_left_comm]

/-- A whole call with a capture target: the NULL buffer, everything given back, or
    buffer and skb lost. -/
theorem hookFuncQueue_cases (packet : List Byte) (env : HookEnv) {g : Cap}
    (hp : g.ctl.capNlkPortid ≠ 0) :
    (¬ HasBuffer env g ∧ hookFuncQueue packet env g = .error .nullDeref) ∨
    (HasBuffer env g ∧ ∃ g', hookFuncQueue packet env g = .ok g' ∧
      (((Builds packet env.mem → WithinRate env g) ∧
          g.buffers.Keeps g'.buffers ∧ g.skbs.Keeps g'.skbs) ∨
        (Builds packet env.mem ∧ ¬ WithinRate env g ∧
          (g.buffers.Genuine → g'.buffers.Genuine) ∧ g'.skbs = g.skbs.lose))) := by
  rcases takeBuffer_cases env g with ⟨hno, hpop, hkm⟩ | ⟨hhas, l, n, a, cb, htake, hkeeps⟩
  · refine Or.inl ⟨hno, ?_⟩
    simp only [hookFuncQueue, hp, if_false, capBufferAlloc, hpop, hkm, Option.isSome_none,
      Bool.false_eq_true, capBufferFree, bind, Except.bind]
  · obtain ⟨hok, -⟩ := hookFuncQueue_eq_hookRest packet env hp htake
    refine Or.inr ⟨hhas, _, hok, ?_⟩
    rcases hookRest_cases packet env cb
        { g with capFreelist := l, capFreelistCount := n, bufAllocs := a } with
      ⟨hrate, hbuf, hskbs⟩ | ⟨hb, hrate, hbuf, hskbs⟩
    · refine Or.inl ⟨hrate, ?_, hskbs⟩
      rw [hbuf]
      exact hkeeps
    · refine Or.inr ⟨hb, hrate, fun hgen => ?_, hskbs⟩
      rw [hbuf]
      exact fun x hx => hkeeps.genuine hgen x (Multiset.mem_cons_of_mem hx)

/-- A call that holds a buffer queues its message exactly if it is built and
    within the rate. -/
theorem hookRest_queue (packet : List Byte) (env : HookEnv) (cb : CapBuffer) (g : Cap) :
    (hookRest packet env cb g).1.capSkbQueue.length ≠ g.capSkbQueue.length ↔
      Builds packet env.mem ∧ WithinRate env g := by
  rcases capFill_cases packet env.mem cb g with ⟨hnot, g', hfill, -, -⟩ | ⟨hb, skb, -, hfill⟩
  · have hq : g'.capSkbQueue = g.capSkbQueue := by
      have hspec := (capFill_spec nlmsgDone packet env.mem cb g).2.1
      rw [hfill] at hspec
      exact hspec
    simp only [hookRest, hfill, Bool.false_eq_true, if_false, (hookFree_frame _ _).2.1, hq, ne_eq,
      not_true, hnot, false_and]
  · by_cases hrate : (capRateCheck env.jiffies g.rate).2 = 0
    · simp [hookRest, hfill, WithinRate, hrate]
    · simp only [hookRest, hfill, if_true, hrate, if_false, capEnqueue, (hookFree_frame _ _).2.1]
      simp [hb, WithinRate, hrate]

/-- A whole call that returns queues a message exactly if there is a capture
    target and a buffer, and the message is built and within the rate. -/
theorem hookFuncQueue_queues_iff {packet : List Byte} {env : HookEnv} {g g' : Cap}
    (h : hookFuncQueue packet env g = .ok g') :
    g'.capSkbQueue.length ≠ g.capSkbQueue.length ↔
      g.ctl.capNlkPortid ≠ 0 ∧ HasBuffer env g ∧ Builds packet env.mem ∧ WithinRate env g := by
  by_cases hp : g.ctl.capNlkPortid = 0
  · simp only [hookFuncQueue, hp, if_true, Except.ok.injEq] at h
    simp [← h, hp]
  · rcases takeBuffer_cases env g with ⟨hno, -, -⟩ | ⟨hhas, l, n, a, cb, htake, -⟩
    · rcases hookFuncQueue_cases packet env hp with ⟨-, herr⟩ | ⟨hhas, -⟩
      · rw [herr] at h
        cases h
      · exact absurd hhas hno
    · rw [(hookFuncQueue_eq_hookRest packet env hp htake).1] at h
      cases h
      have hqueue := hookRest_queue packet env cb
        { g with capFreelist := l, capFreelistCount := n, bufAllocs := a }
      simp only [ne_eq, hp, not_false_eq_true, hhas, true_and]
      exact hqueue

/-! ## Runs of calls -/

/-- The globals, the skbs kcapd has taken off the queue, and whether a NULL
    buffer was dereferenced. -/
structure CaptureRun where
  g : Cap
  dequeued : List SkBuff
  oops : Bool

inductive CaptureEvent where
  | call (packet : List Byte) (env : HookEnv)
  | dequeue
  | client (kt : KthreadRun) (h : Nlmsghdr)

def captureStep (s : CaptureRun) : CaptureEvent → CaptureRun
  | .call packet env =>
      match hookFuncQueue packet env s.g with
      | .ok g => { s with g }
      | .error _ => { s with oops := true }
  | .dequeue =>
      match s.g.capSkbQueue with
      | [] => s
      | skb :: rest =>
          { s with g := { s.g with capSkbQueue := rest }, dequeued := skb :: s.dequeued }
  | .client kt h => { s with g := { s.g with ctl := (capReceiveMsg kt s.g.ctl h).ctl } }

/-- The end of `app_init`, for any setting of the rate limiter. -/
def captureStart (rate : RateState) : CaptureRun where
  g := (sysStart rate).g
  dequeued := []
  oops := false

/-- Every buffer from `kmalloc` is listed or freed, every skb from `nlmsg_new` is
    queued, dequeued or freed, the list has only buffers from `kmalloc`, and no
    NULL buffer was dereferenced. -/
structure NothingOrphaned (s : CaptureRun) : Prop where
  buffers : ∀ n < s.g.bufAllocs, n ∈ s.g.capFreelist.map (·.id) ∨ n ∈ s.g.bufFreed
  skbs : ∀ n < s.g.skbAllocs, n ∈ s.g.capSkbQueue.map (·.id) ∨ n ∈ s.dequeued.map (·.id) ∨
    n ∈ s.g.skbFreed
  listed : ∀ cb ∈ s.g.capFreelist, cb.id < s.g.bufAllocs
  noNull : s.oops = false

/-- The call, if there is a capture target, gets a buffer, and its message is
    within the rate limit if it is built. -/
def GivesBack (s : CaptureRun) : CaptureEvent → Prop
  | .call packet env => s.g.ctl.capNlkPortid ≠ 0 →
      HasBuffer env s.g ∧ (Builds packet env.mem → WithinRate env s.g)
  | .dequeue => True
  | .client _ _ => True

/-- The skbs with those that were dequeued. -/
def CaptureRun.skbs (s : CaptureRun) : Ledger :=
  ⟨s.g.skbs.issued, s.g.skbs.found + (s.dequeued.map (·.id) : List Nat)⟩

/-- What is found was issued; this holds even where things get lost. -/
def Known (s : CaptureRun) : Prop := s.g.buffers.Genuine ∧ s.skbs.Genuine

theorem nothingOrphaned_iff {s : CaptureRun} (hs : Known s) :
    NothingOrphaned s ↔ s.g.buffers.Complete ∧ s.skbs.Complete ∧ s.oops = false := by
  have hbuf : ∀ n, n ∈ s.g.buffers.found ↔ n ∈ s.g.capFreelist.map (·.id) ∨ n ∈ s.g.bufFreed := by
    intro n
    simp only [Cap.buffers, Cap.pool, Pool.ids, Multiset.mem_add, Multiset.mem_coe]
  have hskb : ∀ n, n ∈ s.skbs.found ↔ n ∈ s.g.capSkbQueue.map (·.id) ∨
      n ∈ s.dequeued.map (·.id) ∨ n ∈ s.g.skbFreed := by
    intro n
    simp only [CaptureRun.skbs, Cap.skbs, Multiset.mem_add, Multiset.mem_coe, or_assoc]
    rw [or_comm (a := n ∈ s.g.skbFreed)]
  constructor
  · intro h
    exact ⟨fun n hn => (hbuf n).mpr (h.buffers n hn), fun n hn => (hskb n).mpr (h.skbs n hn),
      h.noNull⟩
  · rintro ⟨hb, hk, hoops⟩
    refine ⟨fun n hn => (hbuf n).mp (hb n hn), fun n hn => (hskb n).mp (hk n hn), ?_, hoops⟩
    exact fun cb hcb => hs.1 cb.id ((hbuf cb.id).mpr (Or.inl (List.mem_map_of_mem hcb)))

/-- Dequeuing only moves an skb. -/
theorem captureStep_dequeue (s : CaptureRun) :
    (captureStep s .dequeue).g.buffers = s.g.buffers ∧
      (captureStep s .dequeue).skbs = s.skbs ∧ (captureStep s .dequeue).oops = s.oops := by
  cases hq : s.g.capSkbQueue with
  | nil => simp only [captureStep, hq, and_self]
  | cons skb rest =>
      simp only [captureStep, hq]
      refine ⟨rfl, ?_, trivial⟩
      simp only [CaptureRun.skbs, Cap.skbs, hq, List.map_cons, ← Multiset.singleton_add,
        ← Multiset.cons_coe]
      congr 1
      abel

/-- A call adds to both accounts, or fails as the guard says. -/
theorem captureStep_call (s : CaptureRun) (packet : List Byte) (env : HookEnv) :
    (GivesBack s (.call packet env) ∧
      s.g.buffers.Keeps (captureStep s (.call packet env)).g.buffers ∧
      s.skbs.Keeps (captureStep s (.call packet env)).skbs ∧
      (captureStep s (.call packet env)).oops = s.oops) ∨
    (¬ GivesBack s (.call packet env) ∧ (captureStep s (.call packet env)).g = s.g ∧
      (captureStep s (.call packet env)).dequeued = s.dequeued ∧
      (captureStep s (.call packet env)).oops = true) ∨
    (¬ GivesBack s (.call packet env) ∧
      (s.g.buffers.Genuine → (captureStep s (.call packet env)).g.buffers.Genuine) ∧
      (captureStep s (.call packet env)).skbs = s.skbs.lose) := by
  by_cases hp : s.g.ctl.capNlkPortid = 0
  · -- nobody listens: the call returns at once
    have hsame : captureStep s (.call packet env) = s := by
      simp only [captureStep, hookFuncQueue, hp, if_true]
    rw [hsame]
    exact Or.inl ⟨fun hne => absurd hp hne, Or.inl rfl, Or.inl rfl, rfl⟩
  · rcases hookFuncQueue_cases packet env hp with
      ⟨hno, herr⟩ | ⟨hhas, g', hok, ⟨hrate, hbuf, hskbs⟩ | ⟨hb, hrate, hbuf, hskbs⟩⟩
    · refine Or.inr (Or.inl ⟨fun h => hno (h hp).1, ?_⟩)
      simp only [captureStep, herr, and_self]
    · refine Or.inl ⟨fun _ => ⟨hhas, hrate⟩, ?_⟩
      simp only [captureStep, hok, and_true]
      exact ⟨hbuf, hskbs.add _⟩
    · refine Or.inr (Or.inr ⟨fun h => hrate ((h hp).2 hb), ?_⟩)
      simp only [captureStep, hok]
      refine ⟨hbuf, ?_⟩
      simp only [CaptureRun.skbs, hskbs, Ledger.lose]

theorem known_captureStep {s : CaptureRun} (e : CaptureEvent) (hs : Known s) :
    Known (captureStep s e) := by
  cases e with
  | call packet env =>
      rcases captureStep_call s packet env with
        ⟨-, hbuf, hskbs, -⟩ | ⟨-, hg, hdeq, -⟩ | ⟨-, hbuf, hskbs⟩
      · exact ⟨hbuf.genuine hs.1, hskbs.genuine hs.2⟩
      · simp only [Known, CaptureRun.skbs, hg, hdeq]
        exact hs
      · exact ⟨hbuf hs.1, hskbs ▸ hs.2.lose⟩
  | dequeue =>
      obtain ⟨hbuf, hskbs, -⟩ := captureStep_dequeue s
      exact ⟨hbuf ▸ hs.1, hskbs ▸ hs.2⟩
  | client kt h => exact hs

/-- One event keeps everything owned exactly if it gives back what it takes. -/
theorem nothingOrphaned_captureStep {s : CaptureRun} (e : CaptureEvent) (hs : Known s)
    (h : NothingOrphaned s) : NothingOrphaned (captureStep s e) ↔ GivesBack s e := by
  rw [nothingOrphaned_iff (known_captureStep e hs)]
  obtain ⟨hb, hk, hoops⟩ := (nothingOrphaned_iff hs).mp h
  cases e with
  | call packet env =>
      rcases captureStep_call s packet env with
        ⟨hgives, hbuf, hskbs, hsame⟩ | ⟨hnot, -, -, htrue⟩ | ⟨hnot, -, hskbs⟩
      · exact ⟨fun _ => hgives, fun _ => ⟨hbuf.complete hb, hskbs.complete hk, hsame.trans hoops⟩⟩
      · refine ⟨fun hall => ?_, fun hgives => absurd hgives hnot⟩
        rw [htrue] at hall
        cases hall.2.2
      · refine ⟨fun hall => ?_, fun hgives => absurd hgives hnot⟩
        rw [hskbs] at hall
        -- the lost skb has a number no other one has
        exact absurd hall.2.1 hs.2.not_complete_lose
  | dequeue =>
      obtain ⟨hbuf, hskbs, hsame⟩ := captureStep_dequeue s
      rw [hbuf, hskbs, hsame]
      exact ⟨fun _ => trivial, fun _ => ⟨hb, hk, hoops⟩⟩
  | client kt hdr => exact ⟨fun _ => trivial, fun _ => ⟨hb, hk, hoops⟩⟩

/-- For every setting of the rate limiter, nothing is orphaned in any state of a
    run exactly when every call of the run that finds a capture target gets a
    buffer and, if its message is built, passes the rate check. -/
theorem nothing_orphaned_iff_givesBack (rate : RateState) (events : List CaptureEvent) :
    Along captureStep NothingOrphaned (captureStart rate) events ↔
      Guarded captureStep GivesBack (captureStart rate) events := by
  apply along_iff_guarded (I := Known) (A := fun _ => True)
  · exact fun s e _ => known_captureStep e
  · exact fun s e _ => nothingOrphaned_captureStep e
  · exact ⟨fun n hn => absurd hn (Multiset.notMem_zero n),
      fun n hn => absurd hn (Multiset.notMem_zero n)⟩
  · exact ⟨fun n hn => absurd hn (Nat.not_lt_zero n), fun n hn => absurd hn (Nat.not_lt_zero n),
      fun cb hcb => absurd hcb List.not_mem_nil, rfl⟩
  · exact fun _ _ => trivial

/-- With a limit of 1 the first packet is already over it, and its buffer and skb
    are lost; with no memory for a buffer NULL is dereferenced. -/
theorem orphaned_over_limit_and_null :
    (let s := run captureStep (captureStart { noLimit with capRateLimit := 1 })
      [.client (.task 1) (capMsg 0 7), .call [1, 2, 3] calmEnv]
     s.g.bufAllocs = 1 ∧ s.g.capFreelist.map (·.id) = [] ∧ s.g.bufFreed = [] ∧
       s.g.skbAllocs = 1 ∧ s.g.capSkbQueue.map (·.id) = [] ∧ s.g.skbFreed = []) ∧
    (run captureStep (captureStart noLimit)
      [.client (.task 1) (capMsg 0 7), .call [1, 2, 3] { calmEnv with kmalloc := false }]).oops =
        true ∧
    ¬ Along captureStep NothingOrphaned (captureStart noLimit)
      [.client (.task 1) (capMsg 0 7), .call [1, 2, 3] { calmEnv with kmalloc := false }] := by
  have hoops : (run captureStep (captureStart noLimit)
      [.client (.task 1) (capMsg 0 7), .call [1, 2, 3] { calmEnv with kmalloc := false }]).oops =
        true := by decide +kernel
  refine ⟨by decide +kernel, hoops, fun h => ?_⟩
  rw [h.last.noNull] at hoops
  cases hoops

end LinuxModules.Netlink
