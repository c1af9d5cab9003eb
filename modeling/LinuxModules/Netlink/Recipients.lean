/-
  LinuxModules.Netlink.Recipients

  Who gets the captured packets of a session.

  * `captured_packet_inert`: a packet that comes back to the module's own socket is
    one `CAP_GET_PACKET` and has no effect.
  * `clients_served_in_order`: the packets each process receives are in the order of
    their capture, no packet is received twice or by two processes, and a process
    deregisters after as many messages as it was asked for.
  * `refusals_after_end`: a message keeps a reference only if it was refused, and it
    is refused only if the process it was sent to has ended, before its `CAP_DEL` or
    after it.
-/

import LinuxModules.Netlink.Session

namespace LinuxModules.Netlink

open LinuxModules.Lib LinuxModules.Net

/-- For `cap_receive`, a message that kcapd is about to send is one
    `CAP_GET_PACKET`, in every state of every session: no state changes and nothing
    is acknowledged, whatever `kthread_run` would do. -/
theorem captured_packet_inert (rate : RateState) (events : List SessionEvent) :
    Along sessionStep
      (fun s => ∀ (i : Nat) (skb : SkBuff) (kt : Nat → KthreadRun),
        s.sys.kcapd[i]? = some (.holding skb) →
        capReceive kt skb.data s.sys = .ok ⟨s.sys, [(0, .ofBytes skb.data)], []⟩ ∧
          CapType.ofMsgType (Nlmsghdr.ofBytes skb.data).nlmsgType = some .capGetPacket)
      (sessionStart rate) events := by
  refine (orderly_along rate events).mono fun s hs i skb kt hi => ?_
  obtain ⟨hrun, hskb⟩ := hs.looping.queued.enqueued_of_holding hi
  exact hs.looping.capReceive_enqueued hrun hskb kt

/-! ## The system inside a session -/

/-- A step of the session is a step of the system or none. -/
theorem SessionMove.sys {s s' : Session} {e : SessionEvent} (h : SessionMove s e s') :
    s'.sys = s.sys ∨ ∃ e', s'.sys = sysStep s.sys e' := by
  cases h with
  | stay => exact Or.inl rfl
  | start => exact Or.inl rfl
  | recv => exact Or.inl rfl
  | finish => exact Or.inl rfl
  | add kt _ seq _ _ _ => exact Or.inr ⟨.client kt _, rfl⟩
  | del kt _ seq _ _ _ => exact Or.inr ⟨.client kt _, rfl⟩
  | inside => exact Or.inl rfl
  | kernel _ e' _ _ => exact Or.inr ⟨e', rfl⟩
  | @away i skb _ _ _ => exact Or.inr ⟨.kcapd i skb.data.length, rfl⟩
  | @deliver i _ skb _ _ _ _ _ => exact Or.inr ⟨.kcapd i skb.data.length, rfl⟩
  | @refuse i => exact Or.inr ⟨.kcapd i negEconnrefused, rfl⟩

theorem sent_of_silent {s : Sys} {e : SysEvent} (h : Silent s e) : (sysStep s e).sent = s.sent := by
  cases e with
  | client kt m => exact absurd h id
  | hookEnter packet => rfl
  | hook i env =>
      simp only [sysStep]
      split <;> rfl
  | kcapd i err =>
      simp only [sysStep]
      split
      case h_1 => rfl
      case h_2 pc hpc =>
        cases pc with
        | holding skb => exact absurd hpc (h skb)
        | _ => exact List.append_nil _

theorem sent_client (s : Sys) (kt : KthreadRun) (h : Nlmsghdr) :
    (sysStep s (.client kt h)).sent = s.sent := rfl

theorem sent_of_holding {s : Sys} {i : Nat} {skb : SkBuff}
    (hi : s.kcapd[i]? = some (.holding skb)) (err : Int) :
    (sysStep s (.kcapd i err)).sent = s.sent ++ [(skb, s.g.ctl.capNlkPortid)] := by
  simp only [sysStep, hi]
  rfl

/-! ## How many messages a process receives -/

/-- The passes through the loop of `main`: `time` is tested after it is
    decremented. -/
def quota (time : BitVec 32) : Nat := if time = 0 then 2 ^ 32 else time.toNat

theorem last_pass_iff {time : BitVec 32} {n : Nat} (hn : n < quota time) :
    time - BitVec.ofNat 32 n - 1 = 0 ↔ n + 1 = quota time := by
  have hlt := time.isLt
  have hone : (1 : BitVec 32).toNat = 1 := rfl
  have hzero : (0 : BitVec 32).toNat = 0 := rfl
  rw [← BitVec.toNat_inj, hzero, BitVec.toNat_sub, BitVec.toNat_sub, hone, BitVec.toNat_ofNat]
  unfold quota at hn ⊢
  by_cases h0 : time = 0
  · -- 0 comes around again only after `2 ^ 32` passes
    rw [if_pos h0] at hn ⊢
    have hnat : time.toNat = 0 := by rw [h0, hzero]
    omega
  · rw [if_neg h0] at hn ⊢
    have hnat : time.toNat ≠ 0 := fun h => h0 (BitVec.eq_of_toNat_eq (h.trans hzero.symm))
    omega

/-- The number of messages received so far fits where the process stands. -/
def Proc.InTime (p : Proc) : Prop :=
  match p.pc with
  | .starting time => time = p.time ∧ p.got = []
  | .receiving time => time = p.time - BitVec.ofNat 32 p.got.length ∧ p.got.length < quota p.time
  | .leaving => p.got.length = quota p.time
  | .exiting => p.got.length = quota p.time
  | .exited => True
  | .killed => True

theorem Proc.InTime.recv {p : Proc} {time : BitVec 32} {m : Inbound} {rest : List Inbound}
    (h : p.InTime) (hpc : p.pc = .receiving time) :
    ({ p with
        pc := if time - 1 = 0 then .leaving else .receiving (time - 1)
        inbox := rest
        got := p.got ++ [m] } : Proc).InTime := by
  simp only [Proc.InTime, hpc] at h
  obtain ⟨rfl, hlt⟩ := h
  have hlen : (p.got ++ [m]).length = p.got.length + 1 := List.length_append
  have hlast := last_pass_iff hlt
  by_cases hz : p.time - BitVec.ofNat 32 p.got.length - 1 = 0
  · simp only [Proc.InTime, hz, if_true, hlen]
    exact hlast.mp hz
  · simp only [Proc.InTime, hz, if_false, hlen]
    refine ⟨?_, lt_of_le_of_ne hlt fun heq => hz (hlast.mpr heq)⟩
    rw [BitVec.ofNat_add, ← BitVec.sub_sub]
    rfl

/-! ## Packets in the sockets -/

/-- The captured packets that reached a process, in the order of its socket. -/
def Proc.packets (p : Proc) : List SkBuff := (p.got ++ p.inbox).filterMap Inbound.skb?

/-- The packets the processes have are packets that kcapd has sent, each once and in
    the order it sent them. -/
structure Served (s : Session) : Prop where
  order : ∀ p ∈ s.procs, p.packets.Sublist (s.sys.sent.map Prod.fst)
  once : total (fun p => (p.packets : Multiset SkBuff)) s.procs ≤
    (s.sys.sent.map Prod.fst : List SkBuff)
  inTime : ∀ p ∈ s.procs, p.InTime

/-- A process moves, and no packet reaches it. -/
theorem Served.set {s : Session} (hs : Served s) {sys : Sys} {net : Unicasts}
    (hsent : sys.sent = s.sys.sent) {j : Nat} {p p' : Proc} (hp : s.procs[j]? = some p)
    (hsub : p'.packets.Sublist p.packets) (htime : p'.InTime) :
    Served ⟨sys, s.procs.set j p', net⟩ := by
  refine ⟨fun q hq => ?_, ?_, fun q hq => ?_⟩
  · show q.packets.Sublist (sys.sent.map Prod.fst)
    rw [hsent]
    rcases List.mem_or_eq_of_mem_set hq with hold | rfl
    · exact hs.order q hold
    · exact hsub.trans (hs.order p (List.mem_of_getElem? hp))
  · have honce := hs.once
    rw [total_of_getElem? _ hp] at honce
    show total (fun p => (p.packets : Multiset SkBuff)) (s.procs.set j p') ≤
      (sys.sent.map Prod.fst : List SkBuff)
    rw [total_set _ hp, hsent]
    calc (p'.packets : Multiset SkBuff) + total (fun p => (p.packets : Multiset SkBuff))
          (s.procs.eraseIdx j)
        ≤ (p.packets : Multiset SkBuff) + total (fun p => (p.packets : Multiset SkBuff))
          (s.procs.eraseIdx j) := add_le_add_left (Multiset.coe_le.mpr hsub.subperm) _
      _ ≤ (s.sys.sent.map Prod.fst : List SkBuff) := honce
  · rcases List.mem_or_eq_of_mem_set hq with hold | rfl
    · exact hs.inTime q hold
    · exact htime

/-- No process moves. -/
theorem Served.grow {s : Session} (hs : Served s) {sys : Sys} {net : Unicasts}
    (hsent : s.sys.sent <+: sys.sent) : Served ⟨sys, s.procs, net⟩ := by
  have hgrow : (s.sys.sent.map Prod.fst).Sublist (sys.sent.map Prod.fst) :=
    hsent.sublist.map Prod.fst
  exact ⟨fun p hp => (hs.order p hp).trans hgrow,
    hs.once.trans (Multiset.coe_le.mpr hgrow.subperm), hs.inTime⟩

/-- The packet that is sent reaches process `j`. -/
theorem Served.deliver {s : Session} (hs : Served s) {i j : Nat} {skb : SkBuff} {p : Proc}
    (hi : s.sys.kcapd[i]? = some (.holding skb)) (hp : s.procs[j]? = some p) (err : Int)
    (net : Unicasts) :
    Served ⟨sysStep s.sys (.kcapd i err),
      s.procs.set j { p with inbox := p.inbox ++ [.packet skb] }, net⟩ := by
  have hsent : (sysStep s.sys (.kcapd i err)).sent.map Prod.fst =
      s.sys.sent.map Prod.fst ++ [skb] := by
    rw [sent_of_holding hi, List.map_append]
    rfl
  have hpackets : ({ p with inbox := p.inbox ++ [.packet skb] } : Proc).packets =
      p.packets ++ [skb] := by
    simp only [Proc.packets, ← List.append_assoc, List.filterMap_append]
    rfl
  refine ⟨fun q hq => ?_, ?_, fun q hq => ?_⟩
  · show q.packets.Sublist ((sysStep s.sys (.kcapd i err)).sent.map Prod.fst)
    rw [hsent]
    rcases List.mem_or_eq_of_mem_set hq with hold | rfl
    · exact (hs.order q hold).trans (List.sublist_append_left _ _)
    · rw [hpackets]
      exact (hs.order p (List.mem_of_getElem? hp)).append (List.Sublist.refl _)
  · show total (fun p => (p.packets : Multiset SkBuff)) (s.procs.set j _) ≤ _
    have honce := hs.once
    rw [total_of_getElem? _ hp] at honce
    rw [total_set _ hp, hpackets, hsent, ← Multiset.coe_add, ← Multiset.coe_add, add_right_comm]
    exact add_le_add_left honce _
  · rcases List.mem_or_eq_of_mem_set hq with hold | rfl
    · exact hs.inTime q hold
    · exact hs.inTime p (List.mem_of_getElem? hp)

/-- Acknowledgements are no packets. -/
theorem packets_acks (p : Proc) (pc : MainPc) (acks : List Int) :
    ({ p with pc, inbox := p.inbox ++ acks.map .ack } : Proc).packets = p.packets := by
  have hnone : (acks.map Inbound.ack).filterMap Inbound.skb? = [] := by
    rw [List.filterMap_map, List.filterMap_eq_nil_iff]
    exact fun _ _ => rfl
  simp only [Proc.packets, ← List.append_assoc, List.filterMap_append, hnone, List.append_nil]

theorem quota_pos (time : BitVec 32) : 0 < quota time := by
  unfold quota
  split
  case isTrue => decide
  case isFalse hne =>
    apply Nat.pos_of_ne_zero
    exact fun h => hne (BitVec.eq_of_toNat_eq h)

theorem MainPc.inTime_ended (p : Proc) :
    ({ p with pc := p.pc.ended, inbox := [] } : Proc).InTime := by
  unfold MainPc.ended
  split <;> trivial

theorem served_sessionStep {s : Session} (e : SessionEvent) (ho : Orderly s) (hs : Served s) :
    Served (sessionStep s e) := by
  have hmove := sessionStep_moves ho.looping e
  generalize sessionStep s e = s' at hmove
  cases hmove with
  | stay => exact hs
  | start pid argv1 hpid =>
      refine ⟨fun q hq => ?_, ?_, fun q hq => ?_⟩
      · rcases List.mem_append.mp hq with hold | hnew
        · exact hs.order q hold
        · obtain rfl := List.mem_singleton.mp hnew
          exact List.nil_sublist _
      · show total (fun p => (p.packets : Multiset SkBuff)) (s.procs ++ _) ≤ _
        rw [total_append, total_singleton]
        exact (add_zero _).trans_le hs.once
      · rcases List.mem_append.mp hq with hold | hnew
        · exact hs.inTime q hold
        · obtain rfl := List.mem_singleton.mp hnew
          exact ⟨rfl, rfl⟩
  | @add j p time kt stale seq acks hp hpc =>
      have htime := hs.inTime p (List.mem_of_getElem? hp)
      simp only [Proc.InTime, hpc] at htime
      obtain ⟨rfl, hgot⟩ := htime
      refine hs.set (sent_client _ _ _) hp ?_ ?_
      · rw [packets_acks]
      · simp only [Proc.InTime, hgot, List.length_nil]
        exact ⟨(BitVec.sub_zero _).symm, quota_pos _⟩
  | del kt stale seq acks hp hpc =>
      have htime := hs.inTime _ (List.mem_of_getElem? hp)
      simp only [Proc.InTime, hpc] at htime
      refine hs.set (sent_client _ _ _) hp ?_ ?_
      · rw [packets_acks]
      · exact htime
  | recv hp hpc hin =>
      refine hs.set rfl hp ?_ ?_
      · -- the message moves from the socket to what was received
        simp only [Proc.packets, hin, List.append_assoc, List.singleton_append]
        exact List.Sublist.refl _
      · exact (hs.inTime _ (List.mem_of_getElem? hp)).recv hpc
  | finish hp hbound =>
      refine hs.set rfl hp ?_ ?_
      · simp only [Proc.packets, List.append_nil, List.filterMap_append]
        exact List.sublist_append_left _ _
      · exact MainPc.inTime_ended _
  | kernel e e' hsilent hsend =>
      exact hs.grow ⟨[], by rw [List.append_nil, sent_of_silent hsilent]⟩
  | inside kt full pc hpc => exact hs.grow (List.prefix_refl _)
  | away kt full hi => exact hs.grow ⟨_, (sent_of_holding hi _).symm⟩
  | deliver kt full hi hp => exact hs.deliver hi hp _ _
  | refuse kt full hi hcall hportid hnone => exact hs.grow ⟨_, (sent_of_holding hi _).symm⟩

/-! ## Whom a message is sent to -/

/-- The process has sent its `CAP_ADD`; one that has exited has also received all it
    was asked for. -/
def Proc.Registered (p : Proc) : Prop :=
  match p.pc with
  | .starting _ => False
  | .receiving _ => True
  | .leaving => True
  | .exiting => True
  | .exited => p.got.length = quota p.time
  | .killed => True

/-- The process has ended: without its `CAP_DEL`, or with all it was asked for
    received and its `CAP_DEL` sent. -/
def Proc.Departed (p : Proc) : Prop :=
  p.pc = .killed ∨ (p.pc = .exited ∧ p.got.length = quota p.time)

theorem Proc.Registered.departed {p : Proc} (h : p.Registered) (hbound : ¬ p.pc.bound) :
    p.Departed := by
  cases hpc : p.pc with
  | killed => exact Or.inl hpc
  | exited =>
      rw [Proc.Registered, hpc] at h
      exact Or.inr ⟨hpc, h⟩
  | _ => simp [hpc, MainPc.bound] at hbound

theorem Proc.registered_of_owes {p : Proc} (h : p.pc.owes) : p.Registered := by
  unfold Proc.Registered
  cases hpc : p.pc with
  | starting time => simp [hpc, MainPc.owes] at h
  | exited => simp [hpc, MainPc.owes] at h
  | _ => trivial

/-- `p'` is the same process, not less far. -/
structure Proc.Continues (p p' : Proc) : Prop where
  pid : p'.pid = p.pid
  registered : p.Registered → p'.Registered
  departed : p.Departed → p'.Departed

theorem Proc.Continues.refl (p : Proc) : p.Continues p := ⟨rfl, id, id⟩

/-- Where a process is in its `main`, it is not departed. -/
theorem Proc.continues_of_bound {p p' : Proc} (hpid : p'.pid = p.pid) (hbound : p.pc.bound)
    (hreg : p.Registered → p'.Registered) : p.Continues p' := by
  refine ⟨hpid, hreg, ?_⟩
  rintro (hpc | ⟨hpc, -⟩)
  · rw [hpc] at hbound
    cases hbound
  · rw [hpc] at hbound
    cases hbound

theorem continues_set {procs : List Proc} {j : Nat} {p₀ p₀' : Proc} (hp : procs[j]? = some p₀)
    (h : p₀.Continues p₀') : ∀ p ∈ procs, ∃ p' ∈ procs.set j p₀', p.Continues p' := by
  intro p hmem
  obtain ⟨k, hk⟩ := List.getElem?_of_mem hmem
  obtain ⟨hj, -⟩ := List.getElem?_eq_some_iff.mp hp
  by_cases hjk : j = k
  · obtain rfl : p = p₀ := by
      rw [← hjk, hp] at hk
      exact (Option.some.inj hk).symm
    exact ⟨p₀', List.mem_set hj _, h⟩
  · refine ⟨p, List.mem_of_getElem? (i := k) ?_, .refl p⟩
    rw [List.getElem?_set_ne hjk, hk]

/-- Every process is there after a step, not less far. -/
theorem SessionMove.continues {s s' : Session} {e : SessionEvent} (h : SessionMove s e s')
    (hs : Served s) : ∀ p ∈ s.procs, ∃ p' ∈ s'.procs, p.Continues p' := by
  have hsame : ∀ p ∈ s.procs, ∃ p' ∈ s.procs, p.Continues p' := fun p hp => ⟨p, hp, .refl p⟩
  cases h with
  | start pid argv1 hpid => exact fun p hp => ⟨p, List.mem_append_left _ hp, .refl p⟩
  | add kt stale seq acks hp hpc =>
      apply continues_set hp
      exact Proc.continues_of_bound rfl (by rw [hpc]; rfl) fun _ => trivial
  | del kt stale seq acks hp hpc =>
      apply continues_set hp
      exact Proc.continues_of_bound rfl (by rw [hpc]; rfl) fun _ => trivial
  | recv hp hpc hin =>
      apply continues_set hp
      refine Proc.continues_of_bound rfl (by rw [hpc]; rfl) fun _ => Proc.registered_of_owes ?_
      split <;> rfl
  | @finish j p hp hbound =>
      apply continues_set hp
      refine Proc.continues_of_bound rfl hbound fun hreg => ?_
      -- a process that exits has sent its `CAP_DEL` when it had received everything
      have htime := hs.inTime p (List.mem_of_getElem? hp)
      unfold MainPc.ended
      cases hpc : p.pc with
      | starting time =>
          rw [Proc.Registered, hpc] at hreg
          exact hreg.elim
      | exiting =>
          rw [Proc.InTime, hpc] at htime
          exact htime
      | receiving time => trivial
      | leaving => trivial
      | exited =>
          rw [hpc] at hbound
          cases hbound
      | killed => trivial
  | deliver kt full hi hp => exact continues_set hp ⟨rfl, id, id⟩
  | _ => exact hsame

/-- The portid a thread has called `netlink_unicast` with. -/
def UnicastPc.portid? : UnicastPc → Option (BitVec 32)
  | .outside => none
  | .called portid => some portid
  | .found portid _ => some portid

/-- A call goes to the portid it was called with, and that was the capture target. -/
theorem SessionMove.calls {s s' : Session} {e : SessionEvent} (h : SessionMove s e s') {i : Nat}
    {portid : BitVec 32} (hcall : (s'.net.calls i).portid? = some portid) :
    (s.net.calls i).portid? = some portid ∨ portid = s.sys.g.ctl.capNlkPortid := by
  -- a thread that leaves its call
  have hleft : ∀ k, (Function.update s.net.calls k .outside i).portid? = some portid →
      (s.net.calls i).portid? = some portid := by
    intro k hk
    by_cases hik : i = k
    · rw [hik, Function.update_self] at hk
      cases hk
    · rwa [Function.update_of_ne hik] at hk
  cases h with
  | @inside k kt full pc hpc =>
      by_cases hik : i = k
      · subst hik
        simp only [Unicasts.goTo, Function.update_self] at hcall
        rcases hpc with ⟨-, rfl⟩ | ⟨q, j, hold, rfl⟩ | ⟨q, j, hold, rfl⟩
        · exact Or.inr (Option.some.inj hcall).symm
        · rw [hold]
          exact Or.inl hcall
        · rw [hold]
          exact Or.inl hcall
      · simp only [Unicasts.goTo, Function.update_of_ne hik] at hcall
        exact Or.inl hcall
  | away kt full hi => exact Or.inl (hleft _ hcall)
  | deliver kt full hi hp => exact Or.inl (hleft _ hcall)
  | refuse kt full hi hnow hportid hnone => exact Or.inl (hleft _ hcall)
  | _ => exact Or.inl hcall

/-- A message is refused when its portid has no socket. -/
theorem SessionMove.refusals {s s' : Session} {e : SessionEvent} (h : SessionMove s e s') :
    s'.net.refusals = s.net.refusals ∨
      ∃ i id portid, s'.net.refusals = s.net.refusals ++ [(id, portid)] ∧
        s.net.calls i = .called portid ∧ portid ≠ 0 ∧
        ∀ p ∈ s.procs, p.pc.bound → p.pid ≠ portid := by
  cases h with
  | @refuse i skb portid kt full hi hcall hportid hnone =>
      exact Or.inr ⟨i, skb.id, portid, rfl, hcall, hportid, hnone⟩
  | _ => exact Or.inl rfl

/-- The process a thread sends to has registered, and the process a refused message
    was sent to has ended. -/
structure Traced (s : Session) : Prop where
  called : ∀ i portid, (s.net.calls i).portid? = some portid → portid ≠ 0 →
    ∃ p ∈ s.procs, p.pid = portid ∧ p.Registered
  refused : ∀ r ∈ s.net.refusals, ∃ p ∈ s.procs, p.pid = r.2 ∧ p.Departed

/-- The capture target is the portid of a process that has registered. -/
theorem Orderly.target_registered {s : Session} (hs : Orderly s)
    (hportid : s.sys.g.ctl.capNlkPortid ≠ 0) :
    ∃ p ∈ s.procs, p.pid = s.sys.g.ctl.capNlkPortid ∧ p.Registered := by
  obtain ⟨p, hp, hpid⟩ := mem_total.mp (hs.target hportid)
  unfold Proc.owing at hpid
  split at hpid
  case isFalse => exact absurd hpid (Multiset.notMem_zero _)
  case isTrue howes => exact ⟨p, hp, (Multiset.mem_singleton.mp hpid).symm, p.registered_of_owes howes⟩

theorem traced_sessionStep {s : Session} (e : SessionEvent) (ho : Orderly s) (hv : Served s)
    (hs : Traced s) : Traced (sessionStep s e) := by
  have hmove := sessionStep_moves ho.looping e
  generalize sessionStep s e = s' at hmove
  have hcontinues := hmove.continues hv
  constructor
  · intro i portid hcall hne
    have hold : ∃ p ∈ s.procs, p.pid = portid ∧ p.Registered := by
      rcases hmove.calls hcall with hcall | rfl
      · exact hs.called i portid hcall hne
      · exact ho.target_registered hne
    obtain ⟨p, hp, hpid, hreg⟩ := hold
    obtain ⟨p', hp', hcont⟩ := hcontinues p hp
    exact ⟨p', hp', hcont.pid.trans hpid, hcont.registered hreg⟩
  · intro r hr
    have hold : ∃ p ∈ s.procs, p.pid = r.2 ∧ p.Departed := by
      rcases hmove.refusals with hsame | ⟨i, id, portid, hnew, hcall, hne, hnone⟩
      · exact hs.refused r (hsame ▸ hr)
      · rcases List.mem_append.mp (hnew ▸ hr) with hr | hr
        · exact hs.refused r hr
        · -- it has registered and has no socket any more
          rw [List.mem_singleton.mp hr]
          obtain ⟨p, hp, hpid, hreg⟩ := hs.called i portid (by rw [hcall]; rfl) hne
          exact ⟨p, hp, hpid, hreg.departed fun hbound => hnone p hp hbound hpid⟩
    obtain ⟨p, hp, hpid, hdep⟩ := hold
    obtain ⟨p', hp', hcont⟩ := hcontinues p hp
    exact ⟨p', hp', hcont.pid.trans hpid, hcont.departed hdep⟩

/-! ## Messages that are not delivered -/

/-- The message was refused. -/
def Session.Refused (s : Session) (skb : SkBuff) : Prop :=
  ∃ portid, (skb.id, portid) ∈ s.net.refusals

/-- A message that is neither sent nor freed was refused. -/
structure RefusedOnly (s : Session) : Prop where
  pending : ∀ skb, KcapdPc.refused skb ∈ s.sys.kcapd → s.Refused skb
  leaked : ∀ skb ∈ s.sys.retired, skb.users ≠ 0 → s.Refused skb

/-- The same kcapd threads, but for new ones at the head of their loop. -/
theorem RefusedOnly.of_idle {s s' : Session} (hs : RefusedOnly s)
    (hnet : s'.net.refusals = s.net.refusals)
    (hkcapd : ∀ pc ∈ s'.sys.kcapd, pc ∈ s.sys.kcapd ∨ pc = .idle)
    (hretired : s'.sys.retired = s.sys.retired) : RefusedOnly s' := by
  refine ⟨fun skb hskb => ?_, fun skb hskb hne => ?_⟩
  · rcases hkcapd _ hskb with hold | hidle
    · obtain ⟨portid, hin⟩ := hs.pending skb hold
      exact ⟨portid, hnet ▸ hin⟩
    · cases hidle
  · obtain ⟨portid, hin⟩ := hs.leaked skb (hretired ▸ hskb) hne
    exact ⟨portid, hnet ▸ hin⟩

/-- A kcapd thread moves; a send of it succeeds or is refused. -/
theorem RefusedOnly.kcapd {s : Session} (hs : RefusedOnly s) (hr : Reckoned s.sys) {i : Nat} {err : Int}
    {pc : KcapdPc} (hpc : s.sys.kcapd[i]? = some pc) {procs : List Proc} {net : Unicasts}
    (hgrow : s.net.refusals <+: net.refusals)
    (hok : ∀ skb, pc = .holding skb → 0 ≤ err ∨ ∃ portid, (skb.id, portid) ∈ net.refusals) :
    RefusedOnly ⟨sysStep s.sys (.kcapd i err), procs, net⟩ := by
  have hmem : pc ∈ s.sys.kcapd := List.mem_of_getElem? hpc
  have hkeep : ∀ skb, s.Refused skb → ∃ portid, (skb.id, portid) ∈ net.refusals := by
    rintro skb ⟨portid, hin⟩
    exact ⟨portid, hgrow.subset hin⟩
  have hkcapd : (sysStep s.sys (.kcapd i err)).kcapd =
      s.sys.kcapd.set i (kcapdStep err s.sys.g pc).2 := by
    simp only [sysStep, hpc]
  have hretired : (sysStep s.sys (.kcapd i err)).retired = s.sys.retired ++ pc.retires err := by
    simp only [sysStep, hpc]
  refine ⟨fun skb hskb => ?_, fun skb hskb hne => ?_⟩
  · have hin : KcapdPc.refused skb ∈ s.sys.kcapd.set i (kcapdStep err s.sys.g pc).2 :=
      hkcapd ▸ hskb
    rcases List.mem_or_eq_of_mem_set hin with hold | hnew
    · exact hkeep skb (hs.pending skb hold)
    · obtain ⟨hhold, href⟩ := eq_holding_of_refused hnew
      rcases hok skb hhold with hpos | hrefused
      · rw [href] at hpos
        exact absurd hpos (by decide)
      · exact hrefused
  · have hin : skb ∈ s.sys.retired ++ pc.retires err := hretired ▸ hskb
    rcases List.mem_append.mp hin with hold | hnew
    · exact hkeep skb (hs.leaked skb hold hne)
    · -- a message keeps a reference only behind a refused send
      by_cases href : ∃ old, pc = .refused old
      · obtain ⟨old, rfl⟩ := href
        obtain rfl := List.mem_singleton.mp hnew
        exact hkeep old (hs.pending old hmem)
      · have hzero := (retires_users hr hpc err).mpr fun old heq => href ⟨old, heq⟩
        exact absurd (hzero skb hnew) hne

theorem refusedOnly_sessionStep {s : Session} (e : SessionEvent) (ho : Orderly s)
    (hr : Reckoned s.sys) (hs : RefusedOnly s) : RefusedOnly (sessionStep s e) := by
  have hmove := sessionStep_moves ho.looping e
  generalize sessionStep s e = s' at hmove
  -- the threads a client message starts are at the head of their loop
  have hclient : ∀ kt h, ∀ pc ∈ (sysStep s.sys (.client kt h)).kcapd,
      pc ∈ s.sys.kcapd ∨ pc = .idle := by
    intro kt h pc hpc
    rcases List.mem_append.mp hpc with hold | hnew
    · exact Or.inl hold
    · obtain ⟨-, -, rfl⟩ := List.mem_map.mp hnew
      exact Or.inr rfl
  have hpos : ∀ skb : SkBuff, (0 : Int) ≤ skb.data.length := fun skb => Int.natCast_nonneg _
  cases hmove with
  | stay => exact hs
  | start => exact hs.of_idle rfl (fun pc hpc => Or.inl hpc) rfl
  | recv => exact hs.of_idle rfl (fun pc hpc => Or.inl hpc) rfl
  | finish => exact hs.of_idle rfl (fun pc hpc => Or.inl hpc) rfl
  | inside => exact hs.of_idle rfl (fun pc hpc => Or.inl hpc) rfl
  | add kt stale seq acks hp hpc => exact hs.of_idle rfl (hclient kt _) rfl
  | del kt stale seq acks hp hpc => exact hs.of_idle rfl (hclient kt _) rfl
  | kernel e e' hsilent hsend =>
      cases e' with
      | client kt h => exact absurd hsilent id
      | hookEnter packet => exact hs.of_idle rfl (fun pc hpc => Or.inl hpc) rfl
      | hook i env =>
          refine hs.of_idle rfl (fun pc hpc => Or.inl ?_) ?_
          · simp only [sysStep] at hpc
            split at hpc <;> exact hpc
          · simp only [sysStep]
            split <;> rfl
      | kcapd i err =>
          cases hpc : s.sys.kcapd[i]? with
          | none =>
              have hsame : sysStep s.sys (.kcapd i err) = s.sys := by simp only [sysStep, hpc]
              rw [hsame]
              exact hs
          | some pc =>
              refine hs.kcapd hr hpc (List.prefix_refl _) fun skb hhold => ?_
              rw [hhold] at hpc
              exact absurd hpc (hsilent skb)
  | away kt full hi => exact hs.kcapd hr hi (List.prefix_refl _) fun _ _ => Or.inl (hpos _)
  | deliver kt full hi hp => exact hs.kcapd hr hi (List.prefix_refl _) fun _ _ => Or.inl (hpos _)
  | refuse kt full hi hcall hportid hnone =>
      refine hs.kcapd hr hi (List.prefix_append _ _) fun skb heq => Or.inr ?_
      cases heq
      exact ⟨_, List.mem_append_right _ (List.mem_singleton_self _)⟩

/-! ## Every session -/

/-- The invariants together. -/
structure Delivering (s : Session) : Prop where
  orderly : Orderly s
  reckoned : Reckoned s.sys
  served : Served s
  traced : Traced s
  refusedOnly : RefusedOnly s

theorem reckoned_sessionStep {s : Session} (e : SessionEvent) (ho : Orderly s)
    (hr : Reckoned s.sys) : Reckoned (sessionStep s e).sys := by
  rcases (sessionStep_moves ho.looping e).sys with hsame | ⟨e', hstep⟩
  · rw [hsame]
    exact hr
  · rw [hstep]
    exact reckoned_sysStep e' hr

theorem delivering_along (rate : RateState) (events : List SessionEvent) :
    Along sessionStep Delivering (sessionStart rate) events := by
  refine along_of_step (fun s e (_ : True) h => ?_) ?_ (guarded_of_forall fun _ _ _ => trivial)
  · exact ⟨orderly_sessionStep e h.orderly, reckoned_sessionStep e h.orderly h.reckoned,
      served_sessionStep e h.orderly h.served, traced_sessionStep e h.orderly h.served h.traced,
      refusedOnly_sessionStep e h.orderly h.reckoned h.refusedOnly⟩
  · refine ⟨orderly_sessionStart rate, reckoned_sysStart rate, ⟨?_, ?_, ?_⟩, ⟨?_, ?_⟩, ⟨?_, ?_⟩⟩
    · exact fun p hp => by cases hp
    · exact Multiset.zero_le _
    · exact fun p hp => by cases hp
    · exact fun i portid hcall => by cases hcall
    · exact fun r hr => by cases hr
    · exact fun skb h => by cases h
    · exact fun skb h => by cases h

/-- The kcapd thread takes a message from the queue, calls `netlink_unicast`, finds
    the socket and delivers. -/
def kcapdSends : List SessionEvent := List.replicate 4 (.kcapd 0 (.task 1) false)

/-- One process, asked for one message: it registers, a packet is captured and sent,
    and it leaves. -/
def oneSession : List SessionEvent :=
  List.flatten [
    [.start 7 [49, 0], .send 0 (.task 1) (fun _ => 0xee),
      .hookEnter ⟨List.replicate 12 1, by decide⟩],
    List.replicate 7 (.hook 0 calmEnv),
    kcapdSends,
    [.recv 0, .send 0 (.task 1) (fun _ => 0xee), .finish 0]]

example : (run sessionStep (sessionStart noLimit) oneSession).procs.map
    (fun p => (p.pc, p.got.length)) = [(.exited, 1)] := by decide +kernel

/-- In every state of every session: a message that a send was refused for, or that is
    left behind with a reference, was refused for a portid; and the process with that
    portid has ended, without its `CAP_DEL` or, having received all it was asked for,
    after it. -/
theorem refusals_after_end (rate : RateState) (events : List SessionEvent) :
    Along sessionStep
      (fun s =>
        (∀ skb, KcapdPc.refused skb ∈ s.sys.kcapd ∨ (skb ∈ s.sys.retired ∧ skb.users ≠ 0) →
          ∃ portid, (skb.id, portid) ∈ s.net.refusals) ∧
        ∀ id portid, (id, portid) ∈ s.net.refusals → ∃ p ∈ s.procs, p.pid = portid ∧
          (p.pc = .killed ∨ (p.pc = .exited ∧ p.got.length = quota p.time)))
      (sessionStart rate) events := by
  refine (delivering_along rate events).mono fun s hs => ⟨fun skb hskb => ?_, fun id portid hr => ?_⟩
  · rcases hskb with hpending | ⟨hretired, hne⟩
    · exact hs.refusedOnly.pending skb hpending
    · exact hs.refusedOnly.leaked skb hretired hne
  · exact hs.traced.refused (id, portid) hr

/-- Two packets are captured for a process that was asked for one message.  kcapd has
    called `netlink_unicast` for the second with its portid when it receives the first,
    deregisters and exits. -/
def overtakenSession : List SessionEvent :=
  List.flatten [
    [.start 7 [49, 0], .send 0 (.task 1) (fun _ => 0xee),
      .hookEnter ⟨List.replicate 12 1, by decide⟩],
    List.replicate 7 (.hook 0 calmEnv),
    [.hookEnter ⟨List.replicate 12 2, by decide⟩],
    List.replicate 7 (.hook 0 calmEnv),
    kcapdSends,
    List.replicate 2 (.kcapd 0 (.task 1) false),
    [.recv 0, .send 0 (.task 1) (fun _ => 0xee), .finish 0],
    List.replicate 2 (.kcapd 0 (.task 1) false)]

-- the second message is refused and keeps a reference, and nobody was killed
example : (run sessionStep (sessionStart noLimit) overtakenSession).procs.map (fun p => p.pc) =
      [.exited] ∧
    (run sessionStep (sessionStart noLimit) overtakenSession).net.refusals.map Prod.snd = [7] ∧
    (run sessionStep (sessionStart noLimit) overtakenSession).sys.retired.map (·.users) = [0, 1] := by
  decide +kernel

end LinuxModules.Netlink
