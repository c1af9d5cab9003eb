/-
  LinuxModules.Netlink.Kcapd

  What kcapd leaves behind: the references to the messages it is done with, and
  the length of the queue it works off.

  `kcapd_send_reply` takes an extra reference "in case we can't send it and we
  want to hold it".  After a refused send nobody holds it and nobody drops it.
  `cap_backlog_limit` is read in one place, where kcapd wakes waiters that do not
  exist; the hooks queue without looking at it.

  That a refused message is not on the queue again rests on the numbers of the
  messages: they are issued once each (`Numbered`), and what was sent is not
  queued (`Queued.fifo`).
-/

import LinuxModules.Netlink.Freelist

namespace LinuxModules.Netlink

open LinuxModules.Lib LinuxModules.Net

/-! ## Messages by number -/

/-- The number and the reference count of a message. -/
def tag (skb : SkBuff) : Nat × Nat := (skb.id, skb.users)

def HookPc.tags (pc : HookPc) : Multiset (Nat × Nat) := (pc.stamped.map tag : List (Nat × Nat))

/-- What a step of a hook execution queues and holds it held before, or it is one
    message with a new number and one reference. -/
theorem hookStep_tags (env : HookEnv) (g : Cap) (pc : HookPc) :
    g.skbAllocs ≤ (hookStep env g pc).1.skbAllocs ∧
    (((pc.enqueues.map tag : List (Nat × Nat)) : Multiset (Nat × Nat)) +
        total HookPc.tags (hookStep env g pc).2.toList ≤ pc.tags ∨
      ((hookStep env g pc).1.skbAllocs = g.skbAllocs + 1 ∧
        ((pc.enqueues.map tag : List (Nat × Nat)) : Multiset (Nat × Nat)) +
          total HookPc.tags (hookStep env g pc).2.toList = {(g.skbAllocs, 1)})) := by
  have hmove := hookStep_moves env g pc
  generalize hookStep env g pc = r at hmove
  cases hmove with
  | build packet cb _ hid husers =>
      -- the message is new: its number is the next one
      refine ⟨Nat.le_succ _, Or.inr ⟨rfl, ?_⟩⟩
      simp [HookPc.enqueues, HookPc.tags, HookPc.stamped, tag, hid, husers]
  | noRoom packet cb skb => exact ⟨Nat.le_succ _, Or.inl (le_refl _)⟩
  | refuse cb _ => exact ⟨le_refl _, Or.inl (Multiset.zero_le _)⟩
  | check cb =>
      refine ⟨le_refl _, Or.inl (le_of_eq ?_)⟩
      simp [HookPc.enqueues, HookPc.tags, HookPc.stamped]
  | queueNone cb hskb =>
      exact ⟨le_refl _, Or.inl (by simp [HookPc.enqueues, HookPc.tags, HookPc.stamped, hskb])⟩
  | queue cb hskb =>
      refine ⟨le_refl _, Or.inl (le_of_eq ?_)⟩
      simp [HookPc.enqueues, HookPc.tags, HookPc.stamped, hskb, tag, setNlmsgLen]
  | _ => exact ⟨le_refl _, Or.inl (le_refl _)⟩

theorem kcapdStep_skbAllocs (err : Int) (g : Cap) (pc : KcapdPc) :
    (kcapdStep err g pc).1.skbAllocs = g.skbAllocs := by
  cases pc with
  | idle =>
      simp only [kcapdStep]
      split <;> rfl
  | holding skb =>
      simp only [kcapdStep]
      split
      · split <;> rfl
      · rfl
  | refused skb => rfl
  | bug => rfl

/-- Only a refused send leads to the point after one. -/
theorem eq_holding_of_refused {err : Int} {g : Cap} {pc : KcapdPc} {skb : SkBuff}
    (h : KcapdPc.refused skb = (kcapdStep err g pc).2) :
    pc = .holding skb ∧ err = negEconnrefused := by
  cases pc with
  | idle =>
      simp only [kcapdStep] at h
      split at h <;> cases h
  | holding old =>
      simp only [kcapdStep] at h
      split at h
      · split at h <;> cases h
        rename_i herr
        exact ⟨rfl, not_not.mp herr⟩
      · cases h
  | refused old => cases h
  | bug => cases h

/-- All messages that were queued or will be. -/
def Sys.tags (s : Sys) : Multiset (Nat × Nat) :=
  (s.enqueued.map tag : List (Nat × Nat)) + total HookPc.tags s.hooks

/-- Every message has a number of its own and one reference. -/
structure Numbered (s : Sys) : Prop where
  nodup : (s.tags.map Prod.fst).Nodup
  issued : ∀ t ∈ s.tags, t.1 < s.g.skbAllocs ∧ t.2 = 1

/-- Fewer messages, or one more with the next number. -/
theorem Numbered.of_tags {s s' : Sys} (hs : Numbered s) (hallocs : s.g.skbAllocs ≤ s'.g.skbAllocs)
    (h : s'.tags ≤ s.tags ∨
      (s'.g.skbAllocs = s.g.skbAllocs + 1 ∧ s'.tags ≤ (s.g.skbAllocs, 1) ::ₘ s.tags)) :
    Numbered s' := by
  rcases h with hle | ⟨hnew, hle⟩
  · refine ⟨Multiset.nodup_of_le (Multiset.map_le_map hle) hs.nodup, fun t ht => ?_⟩
    obtain ⟨hlt, hone⟩ := hs.issued t (Multiset.mem_of_le hle ht)
    exact ⟨lt_of_lt_of_le hlt hallocs, hone⟩
  · refine ⟨Multiset.nodup_of_le (Multiset.map_le_map hle) ?_, fun t ht => ?_⟩
    · rw [Multiset.map_cons, Multiset.nodup_cons]
      refine ⟨fun hmem => ?_, hs.nodup⟩
      -- the old numbers are below the new one
      obtain ⟨t, ht, heq⟩ := Multiset.mem_map.mp hmem
      exact absurd heq (Nat.ne_of_lt (hs.issued t ht).1)
    · rcases Multiset.mem_cons.mp (Multiset.mem_of_le hle ht) with rfl | hold
      · exact ⟨by rw [hnew]; exact Nat.lt_succ_self _, rfl⟩
      · obtain ⟨hlt, hone⟩ := hs.issued t hold
        exact ⟨lt_of_lt_of_le hlt hallocs, hone⟩

theorem numbered_sysStep {s : Sys} (e : SysEvent) (hs : Numbered s) : Numbered (sysStep s e) := by
  cases e with
  | client kt h => exact hs.of_tags (le_refl _) (Or.inl (le_refl _))
  | hookEnter packet =>
      refine hs.of_tags (le_refl _) (Or.inl (le_of_eq ?_))
      have hnone : (HookPc.entered packet).tags = 0 := rfl
      simp only [Sys.tags, sysStep, total_append, total_singleton, hnone, add_zero]
  | hook i env =>
      cases hpc : s.hooks[i]? with
      | none => simpa only [sysStep, hpc] using hs
      | some pc =>
          obtain ⟨hallocs, hcases⟩ := hookStep_tags env s.g pc
          have hnew : (sysStep s (.hook i env)).tags = (s.enqueued.map tag : List (Nat × Nat)) +
              ((pc.enqueues.map tag : List (Nat × Nat)) +
                total HookPc.tags (hookStep env s.g pc).2.toList) +
              total HookPc.tags (s.hooks.eraseIdx i) := by
            simp only [Sys.tags, sysStep, hpc, total_putHook HookPc.tags hpc, List.map_append,
              ← Multiset.coe_add, add_assoc]
          have hold : s.tags = (s.enqueued.map tag : List (Nat × Nat)) + pc.tags +
              total HookPc.tags (s.hooks.eraseIdx i) := by
            rw [Sys.tags, total_of_getElem? HookPc.tags hpc, add_assoc]
          have hstep : (sysStep s (.hook i env)).g = (hookStep env s.g pc).1 := by
            simp only [sysStep, hpc]
          refine hs.of_tags (by rw [hstep]; exact hallocs) ?_
          rw [hnew, hold, hstep]
          rcases hcases with hle | ⟨hsucc, heq⟩
          · exact Or.inl (add_le_add (add_le_add (le_refl _) hle) (le_refl _))
          · refine Or.inr ⟨hsucc, ?_⟩
            rw [heq, ← Multiset.singleton_add, add_assoc, add_left_comm, add_assoc]
            exact add_le_add (le_refl _)
              (add_le_add (le_refl _) (Multiset.le_add_left _ _))
  | kcapd i err =>
      cases hpc : s.kcapd[i]? with
      | none => simpa only [sysStep, hpc] using hs
      | some pc =>
          refine hs.of_tags (le_of_eq ?_) (Or.inl (le_of_eq ?_))
          · simp only [sysStep, hpc, kcapdStep_skbAllocs]
          · simp only [Sys.tags, sysStep, hpc]

/-! ## Messages kcapd is done with -/

/-- Once `kcapd_send_reply` has returned for a message, the module has no
    reference to it, or it is queued for another try. -/
def Settled (s : Sys) : Prop :=
  ∀ skb ∈ s.retired, skb.users = 0 ∨ ∃ q ∈ s.g.capSkbQueue, q.id = skb.id

/-- The event is not the return of `kcapd_send_reply` from a refused send. -/
def ReturnsSent (s : Sys) (e : SysEvent) : Prop :=
  ∀ i err skb, e = .kcapd i err → s.kcapd[i]? ≠ some (.refused skb)

/-- The event is not a `netlink_unicast` of kcapd that is refused. -/
def SendsAccepted (s : Sys) (e : SysEvent) : Prop :=
  ∀ i err skb, e = .kcapd i err → s.kcapd[i]? = some (.holding skb) → err ≠ negEconnrefused

/-- What connects the messages kcapd is done with to those it has sent. -/
structure Reckoned (s : Sys) : Prop where
  queued : Queued s
  numbered : Numbered s
  pending : ∀ skb, .refused skb ∈ s.kcapd → skb ∈ s.sent.map Prod.fst
  done : ∀ skb ∈ s.retired, ∃ m ∈ s.sent, m.1.id = skb.id

theorem reckoned_sysStart (rate : RateState) : Reckoned (sysStart rate) where
  queued := queued_sysStart rate
  numbered := ⟨Multiset.nodup_zero, fun t ht => absurd ht (Multiset.notMem_zero t)⟩
  pending := by simp [sysStart]
  done := by simp [sysStart]

/-- A message that was queued has one reference. -/
theorem Reckoned.users_eq_one {s : Sys} (hs : Reckoned s) {skb : SkBuff} (h : skb ∈ s.enqueued) :
    skb.users = 1 := by
  have hmem : tag skb ∈ s.tags :=
    Multiset.mem_add.mpr (Or.inl (List.mem_map_of_mem h))
  exact (hs.numbered.issued _ hmem).2

/-- A message that was sent is not on the queue. -/
theorem Reckoned.id_ne_of_sent {s : Sys} (hs : Reckoned s) {m : SkBuff × BitVec 32}
    (hm : m ∈ s.sent) {q : SkBuff} (hq : q ∈ s.g.capSkbQueue) : q.id ≠ m.1.id := by
  have hnodup : (s.enqueued.map (·.id)).Nodup := by
    have hle : ((s.enqueued.map (·.id) : List Nat) : Multiset Nat) ≤ s.tags.map Prod.fst := by
      rw [Sys.tags, Multiset.map_add, Multiset.map_coe, List.map_map]
      exact Multiset.le_add_right _ _
    exact Multiset.coe_nodup.mp (Multiset.nodup_of_le hle hs.numbered.nodup)
  rw [← hs.queued.fifo, List.append_assoc, List.map_append, List.nodup_append] at hnodup
  intro heq
  refine hnodup.2.2 m.1.id ?_ q.id ?_ heq.symm
  · exact List.mem_map_of_mem (List.mem_map_of_mem hm)
  · exact List.mem_map_of_mem (List.mem_append_right _ hq)

/-- So nothing kcapd is done with is queued again: being settled is having no
    reference left. -/
theorem Reckoned.settled_iff {s : Sys} (hs : Reckoned s) :
    Settled s ↔ ∀ skb ∈ s.retired, skb.users = 0 := by
  constructor
  · intro h skb hskb
    rcases h skb hskb with hzero | ⟨q, hq, hid⟩
    · exact hzero
    · obtain ⟨m, hm, hmid⟩ := hs.done skb hskb
      exact absurd (hid.trans hmid.symm) (hs.id_ne_of_sent hm hq)
  · exact fun h skb hskb => Or.inl (h skb hskb)

/-- What a kcapd step retires it has just sent or had sent before. -/
theorem retires_of_step {s : Sys} (hs : Reckoned s) {i : Nat} {pc : KcapdPc}
    (hpc : s.kcapd[i]? = some pc) (err : Int) :
    ∀ skb ∈ pc.retires err, ∃ m ∈ s.sent ++ pc.sends s.g.ctl.capNlkPortid, m.1.id = skb.id := by
  intro skb hskb
  cases pc with
  | holding old =>
      refine ⟨(old, s.g.ctl.capNlkPortid), List.mem_append_right _ (List.mem_singleton_self _), ?_⟩
      simp only [KcapdPc.retires] at hskb
      split at hskb
      · cases hskb
      · obtain rfl := List.mem_singleton.mp hskb
        rfl
  | refused old =>
      obtain ⟨m, hm, rfl⟩ := List.mem_map.mp (hs.pending old (List.mem_of_getElem? hpc))
      obtain rfl := List.mem_singleton.mp hskb
      exact ⟨m, List.mem_append_left _ hm, rfl⟩
  | idle => cases hskb
  | bug => cases hskb

theorem reckoned_sysStep {s : Sys} (e : SysEvent) (hs : Reckoned s) : Reckoned (sysStep s e) := by
  have hqueued := queued_sysStep e hs.queued
  have hnumbered := numbered_sysStep e hs.numbered
  cases e with
  | client kt h =>
      refine ⟨hqueued, hnumbered, fun skb hmem => ?_, hs.done⟩
      rcases List.mem_append.mp hmem with hold | hnew
      · exact hs.pending skb hold
      · obtain ⟨-, -, hidle⟩ := List.mem_map.mp hnew
        cases hidle
  | hookEnter packet => exact ⟨hqueued, hnumbered, hs.pending, hs.done⟩
  | hook i env =>
      refine ⟨hqueued, hnumbered, ?_, ?_⟩
      · cases hpc : s.hooks[i]? <;> simpa only [sysStep, hpc] using hs.pending
      · cases hpc : s.hooks[i]? <;> simpa only [sysStep, hpc] using hs.done
  | kcapd i err =>
      cases hpc : s.kcapd[i]? with
      | none => simpa only [sysStep, hpc] using hs
      | some pc =>
          refine ⟨hqueued, hnumbered, ?_, ?_⟩
          · simp only [sysStep, hpc, List.map_append]
            intro skb hmem
            rcases List.mem_or_eq_of_mem_set hmem with hold | heq
            · exact List.mem_append_left _ (hs.pending skb hold)
            · -- the send that was refused has just been made
              obtain ⟨rfl, -⟩ := eq_holding_of_refused heq
              exact List.mem_append_right _ (List.mem_singleton_self _)
          · simp only [sysStep, hpc]
            intro skb hmem
            rcases List.mem_append.mp hmem with hold | hnew
            · obtain ⟨m, hm, hid⟩ := hs.done skb hold
              exact ⟨m, List.mem_append_left _ hm, hid⟩
            · exact retires_of_step hs hpc err skb hnew

/-- A message that kcapd sent keeps no reference; one that was refused does. -/
theorem retires_users {s : Sys} (hs : Reckoned s) {i : Nat} {pc : KcapdPc}
    (hpc : s.kcapd[i]? = some pc) (err : Int) :
    (∀ skb ∈ pc.retires err, skb.users = 0) ↔ ∀ skb, pc ≠ .refused skb := by
  have hmem := List.mem_of_getElem? hpc
  cases pc with
  | holding old =>
      refine ⟨fun _ _ heq => (by cases heq), fun _ skb hskb => ?_⟩
      -- the message is on its way: it has the one reference it was queued with
      have hin : old ∈ s.enqueued := by
        rw [← hs.queued.fifo]
        refine List.mem_append_left _ (List.mem_append_right _ (List.mem_flatMap.mpr ?_))
        exact ⟨_, hmem, List.mem_singleton_self old⟩
      have hone := hs.users_eq_one hin
      simp only [KcapdPc.retires] at hskb
      split at hskb
      · cases hskb
      · obtain rfl := List.mem_singleton.mp hskb
        simp only
        omega
  | refused old =>
      have hin : old ∈ s.enqueued := by
        rw [← hs.queued.fifo]
        exact List.mem_append_left _ (List.mem_append_left _ (hs.pending old hmem))
      have hone := hs.users_eq_one hin
      constructor
      · intro h
        have hzero := h _ (List.mem_singleton_self _)
        simp only at hzero
        omega
      · exact fun h => absurd rfl (h old)
  | idle => exact ⟨fun _ _ heq => (by cases heq), fun _ _ hskb => (by cases hskb)⟩
  | bug => exact ⟨fun _ _ heq => (by cases heq), fun _ _ hskb => (by cases hskb)⟩

theorem settled_sysStep {s : Sys} (e : SysEvent) (hs : Reckoned s) (hset : Settled s) :
    Settled (sysStep s e) ↔ ReturnsSent s e := by
  rw [(reckoned_sysStep e hs).settled_iff]
  rw [hs.settled_iff] at hset
  cases e with
  | client kt h => exact ⟨fun _ i err skb he => (by cases he), fun _ => hset⟩
  | hookEnter packet => exact ⟨fun _ i err skb he => (by cases he), fun _ => hset⟩
  | hook i env =>
      refine ⟨fun _ i err skb he => (by cases he), fun _ => ?_⟩
      cases hpc : s.hooks[i]? <;> simpa only [sysStep, hpc] using hset
  | kcapd i err =>
      cases hpc : s.kcapd[i]? with
      | none =>
          refine ⟨fun _ j err' skb he hj => ?_, fun _ => by simpa only [sysStep, hpc] using hset⟩
          cases he
          rw [hpc] at hj
          cases hj
      | some pc =>
          have husers := retires_users hs hpc err
          have hsplit : (∀ skb ∈ (sysStep s (.kcapd i err)).retired, skb.users = 0) ↔
              ∀ skb ∈ pc.retires err, skb.users = 0 := by
            simp only [sysStep, hpc, List.mem_append]
            exact ⟨fun h skb hskb => h skb (Or.inr hskb), fun h skb hskb =>
              hskb.elim (hset skb) (h skb)⟩
          rw [hsplit, husers]
          constructor
          · intro h j err' skb he hj
            cases he
            rw [hpc] at hj
            exact h skb (Option.some.inj hj)
          · intro h skb heq
            exact h i err skb rfl (by rw [hpc, heq])

/-- Without a refused send no thread comes to the point after one. -/
theorem notRefused_sysStep {s : Sys} (e : SysEvent) (hok : SendsAccepted s e)
    (hs : ∀ skb, .refused skb ∉ s.kcapd) : ∀ skb, .refused skb ∉ (sysStep s e).kcapd := by
  intro skb hmem
  cases e with
  | client kt h =>
      rcases List.mem_append.mp hmem with hold | hnew
      · exact hs skb hold
      · obtain ⟨-, -, hidle⟩ := List.mem_map.mp hnew
        cases hidle
  | hookEnter packet => exact hs skb hmem
  | hook i env =>
      cases hpc : s.hooks[i]? <;> simp only [sysStep, hpc] at hmem <;> exact hs skb hmem
  | kcapd i err =>
      cases hpc : s.kcapd[i]? with
      | none =>
          simp only [sysStep, hpc] at hmem
          exact hs skb hmem
      | some pc =>
          simp only [sysStep, hpc] at hmem
          rcases List.mem_or_eq_of_mem_set hmem with hold | heq
          · exact hs skb hold
          · obtain ⟨rfl, herr⟩ := eq_holding_of_refused heq
            exact hok i err skb rfl hpc herr

/-- Along a run every message kcapd is done with is settled exactly when
    `kcapd_send_reply` never returns from a refused send; and it never does in a
    run without a refused send. -/
theorem settled_iff_returnsSent (rate : RateState) (events : List SysEvent) :
    (Along sysStep Settled (sysStart rate) events ↔
      Guarded sysStep ReturnsSent (sysStart rate) events) ∧
    (Guarded sysStep SendsAccepted (sysStart rate) events →
      Guarded sysStep ReturnsSent (sysStart rate) events) := by
  constructor
  · refine along_iff_guarded (I := Reckoned) (A := fun _ => True)
      (fun _ e _ => reckoned_sysStep e) (fun _ e _ => settled_sysStep e)
      (reckoned_sysStart rate) ?_ fun _ _ => trivial
    simp [Settled, sysStart]
  · intro hok
    have hnever : Along sysStep (fun s => ∀ skb, .refused skb ∉ s.kcapd) (sysStart rate) events :=
      along_of_step (fun _ e => notRefused_sysStep e) (by simp [sysStart]) hok
    refine hnever.guarded (A := fun _ => True) (fun s e _ hs i err skb _ hpc => ?_)
      fun _ _ => trivial
    exact hs skb (List.mem_of_getElem? hpc)

/-- A client registers, and the one packet that is captured reaches it. -/
def listenerStays : List SysEvent :=
  [.client (.task 1) (capMsg 0 7)] ++ captureOne [1, 2, 3] ++ [.kcapd 0 0, .kcapd 0 0]

theorem settled_without_refusal :
    Along sysStep Settled (sysStart noLimit) listenerStays ∧
      (run sysStep (sysStart noLimit) listenerStays).retired.map (·.users) = [0] := by
  have hsends : Guarded sysStep SendsAccepted (sysStart noLimit) listenerStays := by
    apply guarded_of_forall
    intro e he s i err skb heq _
    subst heq
    have hzero : i = 0 ∧ err = 0 := by simpa [listenerStays, captureOne] using he
    rw [hzero.2]
    decide
  refine ⟨?_, by decide +kernel⟩
  exact (settled_iff_returnsSent noLimit _).1.mpr ((settled_iff_returnsSent noLimit _).2 hsends)

/-- A client registers and a packet is captured, but when it is sent the listener
    has gone. -/
def listenerGone : List SysEvent :=
  [.client (.task 1) (capMsg 0 7)] ++ captureOne [1, 2, 3] ++
    [.kcapd 0 0, .kcapd 0 negEconnrefused, .kcapd 0 0]

/-- The refused message is on no queue and has one reference left. -/
theorem refused_message_leaks :
    (run sysStep (sysStart noLimit) listenerGone).retired.map (·.users) = [1] ∧
      (run sysStep (sysStart noLimit) listenerGone).g.capSkbQueue.length = 0 ∧
      ¬ Along sysStep Settled (sysStart noLimit) listenerGone := by
  have husers : (run sysStep (sysStart noLimit) listenerGone).retired.map (·.users) = [1] := by
    decide +kernel
  have hqueue : (run sysStep (sysStart noLimit) listenerGone).g.capSkbQueue.length = 0 := by
    decide +kernel
  refine ⟨husers, hqueue, fun h => ?_⟩
  obtain ⟨skb, hskb, hone⟩ := List.mem_map.mp (husers ▸ List.mem_singleton_self 1)
  rcases h.last skb hskb with hzero | ⟨q, hq, -⟩
  · omega
  · rw [List.length_eq_zero_iff.mp hqueue] at hq
    cases hq

/-! ## The backlog -/

/-- The system with `cap_backlog_limit` and the number of times kcapd has woken
    the waiters of `cap_backlog_wait`. -/
structure BacklogSys where
  sys : Sys
  capBacklogLimit : BitVec 32
  wakeups : Nat

/-- The event is a dequeue of kcapd. -/
def dequeues (s : Sys) : SysEvent → Bool
  | .kcapd i _ =>
      match s.kcapd[i]? with
      | some .idle => !s.g.capSkbQueue.isEmpty
      | _ => false
  | _ => false

/-- A step of the system.  After a dequeue kcapd compares `skb_queue_len`, a
    `u32`, with the limit; nothing else reads it. -/
def backlogStep (s : BacklogSys) (e : SysEvent) : BacklogSys :=
  let sys := sysStep s.sys e
  let below := (BitVec.ofNat 32 sys.g.capSkbQueue.length).toNat ≤ s.capBacklogLimit.toNat
  { s with
    sys
    wakeups := if dequeues s.sys e ∧ below then s.wakeups + 1 else s.wakeups }

def backlogStart (rate : RateState) (limit : BitVec 32) : BacklogSys where
  sys := sysStart rate
  capBacklogLimit := limit
  wakeups := 0

/-- `cap_backlog_limit` as it is compiled. -/
def capBacklogLimit : BitVec 32 := 64

/-- No more messages are queued than the limit allows. -/
def WithinBacklog (s : BacklogSys) : Prop :=
  s.sys.g.capSkbQueue.length ≤ s.capBacklogLimit.toNat

/-- A hook execution that queues a message finds fewer than the limit allows. -/
def FindsRoom (s : BacklogSys) (e : SysEvent) : Prop :=
  ∀ i env pc, e = .hook i env → s.sys.hooks[i]? = some pc → pc.enqueues ≠ [] →
    s.sys.g.capSkbQueue.length < s.capBacklogLimit.toNat

theorem HookPc.length_enqueues (pc : HookPc) : pc.enqueues.length ≤ 1 := by
  cases pc with
  | queueing cb =>
      rw [HookPc.enqueues]
      cases cb.skb <;> simp
  | _ => exact Nat.zero_le 1

/-- kcapd only takes messages off the queue. -/
theorem kcapdStep_length_queue (err : Int) (g : Cap) (pc : KcapdPc) :
    (kcapdStep err g pc).1.capSkbQueue.length ≤ g.capSkbQueue.length := by
  have hkeep := congrArg List.length ((kcapdStep_frame err g pc).2 0)
  have hheld : pc.held.length ≤ ((pc.sends 0).map Prod.fst).length := by
    cases pc <;> simp [KcapdPc.held, KcapdPc.sends]
  simp only [List.length_append] at hkeep
  omega

theorem withinBacklog_backlogStep {s : BacklogSys} (e : SysEvent) (hs : WithinBacklog s) :
    WithinBacklog (backlogStep s e) ↔ FindsRoom s e := by
  show (sysStep s.sys e).g.capSkbQueue.length ≤ s.capBacklogLimit.toNat ↔ _
  unfold WithinBacklog at hs
  cases e with
  | client kt h => exact ⟨fun _ i env pc he => (by cases he), fun _ => hs⟩
  | hookEnter packet => exact ⟨fun _ i env pc he => (by cases he), fun _ => hs⟩
  | hook i env =>
      cases hpc : s.sys.hooks[i]? with
      | none =>
          simp only [sysStep, hpc]
          refine ⟨fun _ j env' pc he hj => ?_, fun _ => hs⟩
          cases he
          rw [hpc] at hj
          cases hj
      | some pc =>
          simp only [sysStep, hpc]
          rw [(hookStep_frame env s.sys.g pc).2, List.length_append]
          have hone := pc.length_enqueues
          constructor
          · intro hle j env' pc' he hj hne
            cases he
            rw [hpc] at hj
            cases hj
            have hpos := List.length_pos_iff.mpr hne
            omega
          · intro hroom
            by_cases hnil : pc.enqueues = []
            · rw [hnil, List.length_nil]
              omega
            · have hlt := hroom i env pc rfl hpc hnil
              omega
  | kcapd i err =>
      refine ⟨fun _ i env pc he => (by cases he), fun _ => ?_⟩
      cases hpc : s.sys.kcapd[i]? with
      | none => simpa only [sysStep, hpc] using hs
      | some pc =>
          simp only [sysStep, hpc]
          exact (kcapdStep_length_queue err s.sys.g pc).trans hs

/-- Along a run the queue stays within the limit exactly when every hook
    execution that queues a message finds room for it: the hooks do not check,
    and kcapd only makes room. -/
theorem backlog_iff_findsRoom (rate : RateState) (limit : BitVec 32) (events : List SysEvent) :
    Along backlogStep WithinBacklog (backlogStart rate limit) events ↔
      Guarded backlogStep FindsRoom (backlogStart rate limit) events :=
  along_iff_guarded (I := fun _ => True) (A := fun _ => True) (fun _ _ _ _ => trivial)
    (fun _ e _ _ => withinBacklog_backlogStep e) trivial (Nat.zero_le _) fun _ _ => trivial

/-- One client, and `n` packets while kcapd does not get to run. -/
def flood (n : Nat) : List SysEvent :=
  .client (.task 1) (capMsg 0 7) :: (List.replicate n (captureOne [1])).flatten

theorem run_backlogStep_limit (s : BacklogSys) (events : List SysEvent) :
    (run backlogStep s events).capBacklogLimit = s.capBacklogLimit := by
  have hstep : ∀ (s' : BacklogSys) (e : SysEvent),
      s'.capBacklogLimit = s.capBacklogLimit →
        (backlogStep s' e).capBacklogLimit = s.capBacklogLimit := fun _ _ h => h
  exact run_invariant hstep rfl events

/-- With the limit as it is compiled, 65 packets in a row are all queued. -/
theorem backlog_exceeded : capBacklogLimit ≠ 0 ∧
    (run backlogStep (backlogStart noLimit capBacklogLimit) (flood 65)).sys.g.capSkbQueue.length =
      65 ∧
    ¬ Along backlogStep WithinBacklog (backlogStart noLimit capBacklogLimit) (flood 65) := by
  have hlen : (run backlogStep (backlogStart noLimit capBacklogLimit)
      (flood 65)).sys.g.capSkbQueue.length = 65 := by decide +kernel
  refine ⟨by decide, hlen, fun h => ?_⟩
  have hle := h.last
  rw [WithinBacklog, hlen, run_backlogStep_limit] at hle
  exact absurd hle (by decide)

end LinuxModules.Netlink
