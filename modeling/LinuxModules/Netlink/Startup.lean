/-
  LinuxModules.Netlink.Startup

  `app_init` with traffic between its steps.  Messages arrive from
  `netlink_kernel_create` on, packets from `cap_hook_init` on; the table, the
  queue and `cap_nlk_portid` are initialised after that.

  What an early registration leaves behind is judged against the run in which
  the same messages come after `app_init`.  A table that is cleared under a
  positive `usrcnt` never recovers, because no message with a nonzero pid changes
  the difference between the count and the occupied slots (`Users.drift`); the
  portid recovers with the next message that assigns it.
-/

import LinuxModules.Netlink.Ownership

namespace LinuxModules.Netlink

open LinuxModules.Lib LinuxModules.Net

/-! ## Starting up -/

/-- A whole client message or a whole call of the hook. -/
inductive Traffic where
  | client (m : ClientMsg)
  | hook (packet : List Byte) (env : HookEnv)

/-- The globals, whether `cap_skb_queue` is initialised, and whether it was used
    before that. -/
structure Startup where
  g : Cap
  queueReady : Bool
  earlyUse : Bool

def trafficStep (s : Startup) : Traffic → Startup
  | .client m => { s with g := { s.g with ctl := msgStep s.g.ctl m } }
  | .hook packet env =>
      match hookFuncQueue packet env s.g with
      | .ok g =>
          { s with
            g
            earlyUse := s.earlyUse ||
              (!s.queueReady && g.capSkbQueue.length != s.g.capSkbQueue.length) }
      | .error _ => s

/-- What arrives before each step of `app_init` and after the last one. -/
structure Interleaving where
  beforeTable : List ClientMsg
  beforeHook : List ClientMsg
  beforeQueue : List Traffic
  beforePortid : List Traffic
  afterInit : List Traffic

/-- The statics as the module is loaded. -/
def startupBegin (rate : RateState) : Startup where
  g := { (sysStart rate).g with
    ctl := { usrtab := .empty, usrcnt := 0, capNlkPortid := 0, kcapdTask := none } }
  queueReady := false
  earlyUse := false

namespace Interleaving

variable (rate : RateState) (i : Interleaving)

/-- When `usertab_init` is called. -/
def atTable : Startup := run trafficStep (startupBegin rate) (i.beforeTable.map .client)

/-- When `cap_hook_init` is called. -/
def atHook : Startup :=
  let s := i.atTable rate
  run trafficStep
    { s with g := { s.g with ctl := { s.g.ctl with usrtab := usertabInit s.g.ctl.usrtab } } }
    (i.beforeHook.map .client)

/-- When `skb_queue_head_init` is called. -/
def atQueue : Startup := run trafficStep (i.atHook rate) i.beforeQueue

/-- When `cap_nlk_portid = 0` is executed. -/
def atPortid : Startup :=
  let s := i.atQueue rate
  run trafficStep { s with g := { s.g with capSkbQueue := [] }, queueReady := true } i.beforePortid

/-- When `app_init` returns. -/
def atReturn : Startup :=
  let s := i.atPortid rate
  { s with g := { s.g with ctl := { s.g.ctl with capNlkPortid := 0 } } }

/-- `app_init` and all the traffic. -/
def final : Startup := run trafficStep (i.atReturn rate) i.afterInit

end Interleaving

/-- The client messages of the traffic. -/
def clients (ts : List Traffic) : List ClientMsg :=
  ts.filterMap fun
    | .client m => some m
    | .hook _ _ => none

def Interleaving.messages (i : Interleaving) : List ClientMsg :=
  i.beforeTable ++ i.beforeHook ++ clients i.beforeQueue ++ clients i.beforePortid ++
    clients i.afterInit

/-- The queue is not used before it is initialised, and table, count and portid
    are as if the messages had come after `app_init`. -/
def Insensitive (rate : RateState) (i : Interleaving) : Prop :=
  (i.final rate).earlyUse = false ∧
    (i.final rate).g.ctl.usrtab = (run msgStep capStart i.messages).usrtab ∧
    (i.final rate).g.ctl.usrcnt = (run msgStep capStart i.messages).usrcnt ∧
    (i.final rate).g.ctl.capNlkPortid = (run msgStep capStart i.messages).capNlkPortid

/-- The call puts a message on the queue. -/
def Queues (s : Startup) : Traffic → Prop
  | .client _ => False
  | .hook packet env => s.g.ctl.capNlkPortid ≠ 0 ∧ HasBuffer env s.g ∧ Builds packet env.mem ∧
      WithinRate env s.g

/-- The message assigns `cap_nlk_portid`. -/
def AssignsPortid (c : CapCtl) (m : ClientMsg) : Prop :=
  Admitted m.1 c m.2 ∧ (CapType.ofMsgType m.2.nlmsgType = some .capAdd ∨
    CapType.ofMsgType m.2.nlmsgType = some .capDel)

instance (c : CapCtl) (m : ClientMsg) : Decidable (AssignsPortid c m) :=
  inferInstanceAs (Decidable (_ ∧ (_ ∨ _)))

/-- `usertab_init` finds nobody registered; no call before `skb_queue_head_init`
    queues a message; `cap_nlk_portid = 0` finds 0 or is made up for by a later
    message that assigns it. -/
def Harmless (rate : RateState) (i : Interleaving) : Prop :=
  (i.atTable rate).g.ctl.usrtab.occupied = 0 ∧
    Guarded trafficStep (fun s t => ¬ Queues s t) (i.atHook rate) i.beforeQueue ∧
    ((i.atPortid rate).g.ctl.capNlkPortid = 0 ∨
      Sometime msgStep AssignsPortid (i.atReturn rate).g.ctl (clients i.afterInit))

/-! ## The command state in traffic -/

theorem ctl_trafficStep_hook (s : Startup) (packet : List Byte) (env : HookEnv) :
    (trafficStep s (.hook packet env)).g.ctl = s.g.ctl := by
  simp only [trafficStep]
  split
  case h_1 g hok => exact (hookFuncQueue_ok hok).1
  case h_2 => rfl

/-- Hook calls leave the command state alone. -/
theorem ctl_run_trafficStep (s : Startup) (ts : List Traffic) :
    (run trafficStep s ts).g.ctl = run msgStep s.g.ctl (clients ts) := by
  induction ts generalizing s with
  | nil => rfl
  | cons t ts ih =>
      have hrest := ih (trafficStep s t)
      cases t with
      -- a message moves the command state, a hook call does not
      | client m => exact hrest
      | hook packet env =>
          rw [ctl_trafficStep_hook] at hrest
          exact hrest

theorem clients_map_client (ms : List ClientMsg) : clients (ms.map .client) = ms := by
  induction ms with
  | nil => rfl
  | cons m ms ih =>
      show m :: clients (ms.map .client) = m :: ms
      rw [ih]

theorem capSwitch_portid (c : CapCtl) (h : Nlmsghdr) (p : BitVec 32) :
    ((CapType.ofMsgType h.nlmsgType = some .capAdd ∨ CapType.ofMsgType h.nlmsgType = some .capDel) ∧
      capSwitch { c with capNlkPortid := p } h = capSwitch c h) ∨
    (¬ (CapType.ofMsgType h.nlmsgType = some .capAdd ∨
        CapType.ofMsgType h.nlmsgType = some .capDel) ∧
      capSwitch { c with capNlkPortid := p } h = { c with capNlkPortid := p } ∧
      capSwitch c h = c) := by
  unfold capSwitch
  split
  case h_1 htype => exact Or.inl ⟨Or.inl htype, rfl⟩
  case h_2 htype => exact Or.inl ⟨Or.inr htype, rfl⟩
  case h_3 hadd hdel => exact Or.inr ⟨fun h => h.elim hadd hdel, rfl, rfl⟩

/-- An admitted message goes to the switch with the same thread, whatever the
    portid is. -/
theorem msgStep_admitted {c : CapCtl} {m : ClientMsg} (hadm : Admitted m.1 c m.2) :
    ∃ t, ∀ p, msgStep { c with capNlkPortid := p } m =
      capSwitch { { c with kcapdTask := t } with capNlkPortid := p } m.2 := by
  obtain ⟨hok, htask⟩ := hadm
  cases hc : c.kcapdTask with
  | some t =>
      refine ⟨some t, fun p => ?_⟩
      simp only [msgStep, capReceiveMsg, hok, ne_eq, not_true, if_false]
  | none =>
      cases hkt : m.1 with
      | task t =>
          refine ⟨some t, fun p => ?_⟩
          simp only [msgStep, capReceiveMsg, hok, ne_eq, not_true, if_false, hkt]
      | err e => simp [hc, hkt, KthreadRun.isTask] at htask

theorem msgStep_refused {c : CapCtl} {m : ClientMsg} (hno : ¬ Admitted m.1 c m.2) :
    msgStep c m = c := by
  rcases capReceiveMsg_cases m.1 c m.2 with ⟨-, -, hc, -⟩ | ⟨hadm, -, -⟩ | ⟨-, hadm, -, -⟩
  · exact hc
  · exact absurd hadm hno
  · exact absurd hadm hno

/-- The portid has no part in what a message does: two states that differ in it
    are the same after a message that assigns it, and else still differ in it
    only. -/
theorem msgStep_portid (c : CapCtl) (m : ClientMsg) (p : BitVec 32) :
    (AssignsPortid c m ∧ msgStep { c with capNlkPortid := p } m = msgStep c m) ∨
    (¬ AssignsPortid c m ∧
      msgStep { c with capNlkPortid := p } m = { msgStep c m with capNlkPortid := p } ∧
      (msgStep c m).capNlkPortid = c.capNlkPortid) := by
  by_cases hadm : Admitted m.1 c m.2
  · obtain ⟨t, ht⟩ := msgStep_admitted hadm
    have hself : msgStep c m = capSwitch { c with kcapdTask := t } m.2 := ht c.capNlkPortid
    rw [ht p, hself]
    rcases capSwitch_portid { c with kcapdTask := t } m.2 p with
      ⟨htype, hswitch⟩ | ⟨htype, hswitch, hkeep⟩
    · exact Or.inl ⟨⟨hadm, htype⟩, hswitch⟩
    · exact Or.inr ⟨fun h => htype h.2, by rw [hswitch, hkeep], by rw [hkeep]⟩
  · have hno : ¬ Admitted m.1 { c with capNlkPortid := p } m.2 := hadm
    rw [msgStep_refused hadm, msgStep_refused hno]
    exact Or.inr ⟨fun h => hadm h.1, rfl, rfl⟩

/-- Two runs that start with different portids: same table and count throughout,
    and in the end the same portid exactly if it was the same or some message
    assigned it. -/
theorem run_msgStep_portid (c : CapCtl) (p : BitVec 32) (ms : List ClientMsg) :
    (run msgStep { c with capNlkPortid := p } ms).toUsers = (run msgStep c ms).toUsers ∧
      ((run msgStep { c with capNlkPortid := p } ms).capNlkPortid =
        (run msgStep c ms).capNlkPortid ↔
          p = c.capNlkPortid ∨ Sometime msgStep AssignsPortid c ms) := by
  induction ms generalizing c with
  | nil => exact ⟨rfl, by simp [Sometime, run]⟩
  | cons m ms ih =>
      have hrun : ∀ c : CapCtl, run msgStep c (m :: ms) = run msgStep (msgStep c m) ms :=
        fun _ => rfl
      rw [hrun, hrun]
      -- from the first assignment on the two runs are one
      rcases msgStep_portid c m p with ⟨hassign, heq⟩ | ⟨hnot, heq, hkeep⟩
      · rw [heq]
        exact ⟨rfl, fun _ => Or.inr (Or.inl hassign), fun _ => rfl⟩
      · obtain ⟨husers, hiff⟩ := ih (msgStep c m)
        rw [hkeep] at hiff
        rw [heq]
        refine ⟨husers, hiff.trans ?_⟩
        simp only [Sometime, hnot, false_or]

/-! ## The count against the table -/

/-- How far `usrcnt` is ahead of the occupied slots. -/
def Users.drift (u : Users) : Int := u.usrcnt - u.usrtab.occupied

theorem Users.counted_iff_drift {u : Users} : u.Counted ↔ u.drift = 0 := by
  unfold Counted drift
  omega

theorem drift_userJoin {p : BitVec 32} (hp : p ≠ 0) (u : Users) :
    (userJoin p u).1.drift = u.drift := by
  unfold userJoin
  split
  case isTrue => rfl
  case isFalse =>
    split
    case h_1 t ht =>
      have hcard := congrArg Multiset.card (UserTab.members_join hp ht)
      rw [Multiset.card_cons, UserTab.card_members, UserTab.card_members] at hcard
      simp only [Users.drift]
      omega
    case h_2 => rfl

theorem drift_userLeave {p : BitVec 32} (hp : p ≠ 0) (u : Users) :
    (userLeave p u).1.drift = u.drift := by
  unfold userLeave
  split
  case isTrue => rfl
  case isFalse =>
    split
    case h_1 t ht =>
      have hcard := congrArg Multiset.card (UserTab.members_leave hp ht)
      rw [Multiset.card_cons, UserTab.card_members, UserTab.card_members] at hcard
      simp only [Users.drift]
      omega
    case h_2 => rfl

/-- No message with a nonzero pid changes the drift. -/
theorem drift_msgStep {c : CapCtl} {m : ClientMsg} (hp : m.2.nlmsgPid ≠ 0) :
    (msgStep c m).drift = c.drift := by
  rw [msgStep, capReceiveMsg_frame fun u _ => u.drift = c.drift]
  split
  case isTrue =>
    unfold capSwitch
    split
    case h_1 => exact drift_userJoin hp _
    case h_2 => exact drift_userLeave hp _
    case h_3 => rfl
  case isFalse => rfl

theorem drift_run {c : CapCtl} {ms : List ClientMsg} (hpid : ∀ m ∈ ms, m.2.nlmsgPid ≠ 0) :
    (run msgStep c ms).drift = c.drift := by
  have hok : Guarded msgStep (fun _ m => m.2.nlmsgPid ≠ 0) c ms :=
    guarded_of_forall fun m hm _ => hpid m hm
  have halong : Along msgStep (fun c' => c'.drift = c.drift) c ms :=
    along_of_step (P := fun c' => c'.drift = c.drift)
      (fun _ _ hp h => (drift_msgStep hp).trans h) rfl hok
  exact halong.last

/-! ## A table that nobody has used -/

/-- No slot has a command. -/
def UserTab.Blank (t : UserTab) : Prop := ∀ s ∈ t.slots, s.cmd = 0

/-- Clearing a table without clients and commands changes nothing. -/
theorem usertabInit_of_blank {t : UserTab} (hb : t.Blank) (hocc : t.occupied = 0) :
    usertabInit t = t := by
  obtain ⟨slots, hsize⟩ := t
  have hslots : slots.map (fun _ => ({ pid := 0, cmd := 0 } : Usrconf)) = slots.map id := by
    refine List.map_congr_left fun s hs => ?_
    have hpid : s.pid = 0 := by simpa using List.countP_eq_zero.mp hocc s hs
    have hcmd : s.cmd = 0 := hb s hs
    obtain ⟨pid, cmd⟩ := s
    cases hpid
    cases hcmd
    rfl
  rw [List.map_id] at hslots
  simp only [usertabInit, hslots]

theorem blank_replacePid {t t' : UserTab} {old new : BitVec 32}
    (h : t.replacePid old new = some t') (hb : t.Blank) : t'.Blank := by
  obtain ⟨pre, s, post, hsplit, -, hnew⟩ := UserTab.replacePid_eq_some h
  intro x hx
  rw [hnew] at hx
  rw [UserTab.Blank, hsplit] at hb
  rcases List.mem_append.mp hx with hpre | hpost
  · exact hb x (List.mem_append_left _ hpre)
  · rcases List.mem_cons.mp hpost with rfl | hin
    · exact hb s (by simp)
    · exact hb x (by simp [hin])

theorem blank_msgStep {c : CapCtl} (m : ClientMsg) (hb : c.usrtab.Blank) :
    (msgStep c m).usrtab.Blank := by
  rw [msgStep, capReceiveMsg_frame fun u _ => u.usrtab.Blank]
  split
  case isTrue =>
    unfold capSwitch
    split
    case h_1 =>
      simp only [userJoin]
      split
      · exact hb
      · split
        case h_1 t ht => exact blank_replacePid ht hb
        case h_2 => exact hb
    case h_2 =>
      simp only [userLeave]
      split
      · exact hb
      · split
        case h_1 t ht => exact blank_replacePid ht hb
        case h_2 => exact hb
    case h_3 => exact hb
  case isFalse => exact hb

/-! ## The queue before it is initialised -/

/-- A call uses the uninitialised queue exactly if it queues a message. -/
theorem earlyUse_trafficStep {s : Startup} (t : Traffic) (hready : s.queueReady = false)
    (hs : s.earlyUse = false) : (trafficStep s t).earlyUse = false ↔ ¬ Queues s t := by
  cases t with
  | client m => exact ⟨fun _ h => h, fun _ => hs⟩
  | hook packet env =>
      simp only [trafficStep]
      split
      case h_1 g hok =>
        rw [Queues, ← hookFuncQueue_queues_iff hok]
        simp [hs, hready]
      case h_2 e herr =>
        refine ⟨fun _ hq => ?_, fun _ => hs⟩
        -- a call that oopses has no buffer
        rcases hookFuncQueue_cases packet env hq.1 with ⟨hno, -⟩ | ⟨-, g', hok, -⟩
        · exact hno hq.2.1
        · rw [hok] at herr
          cases herr

theorem queueReady_trafficStep (s : Startup) (t : Traffic) :
    (trafficStep s t).queueReady = s.queueReady := by
  cases t with
  | client m => rfl
  | hook packet env =>
      simp only [trafficStep]
      split <;> rfl

theorem queueReady_run (s : Startup) (ts : List Traffic) :
    (run trafficStep s ts).queueReady = s.queueReady := by
  induction ts generalizing s with
  | nil => rfl
  | cons t ts ih => exact (ih (trafficStep s t)).trans (queueReady_trafficStep s t)

/-- Once the queue is initialised every use is in time. -/
theorem earlyUse_run_ready {s : Startup} (ts : List Traffic) (hready : s.queueReady = true) :
    (run trafficStep s ts).earlyUse = s.earlyUse := by
  induction ts generalizing s with
  | nil => rfl
  | cons t ts ih =>
      have hnext : (trafficStep s t).queueReady = true :=
        (queueReady_trafficStep s t).trans hready
      have hsame : (trafficStep s t).earlyUse = s.earlyUse := by
        cases t with
        | client m => rfl
        | hook packet env =>
            simp only [trafficStep]
            split
            · simp [hready]
            · rfl
      exact (ih hnext).trans hsame

theorem earlyUse_run_iff {s : Startup} (ts : List Traffic) (hready : s.queueReady = false)
    (hs : s.earlyUse = false) :
    (run trafficStep s ts).earlyUse = false ↔
      Guarded trafficStep (fun s t => ¬ Queues s t) s ts := by
  have hiff : Along trafficStep (fun s => s.earlyUse = false) s ts ↔
      Guarded trafficStep (fun s t => ¬ Queues s t) s ts :=
    along_iff_guarded (I := fun s => s.queueReady = false) (A := fun _ => True)
      (fun s t _ h => (queueReady_trafficStep s t).trans h)
      (fun s t _ hr he => earlyUse_trafficStep t hr he) hready hs (fun _ _ => trivial)
  rw [← hiff]
  refine ⟨along_of_last (P := fun s : Startup => s.earlyUse = false) fun s t h => ?_, fun h => h.last⟩
  -- the flag is never taken back
  cases t with
  | client m => exact h
  | hook packet env =>
      simp only [trafficStep] at h
      split at h
      · exact (Bool.or_eq_false_iff.mp h).1
      · exact h

theorem earlyUse_run_client (s : Startup) (ms : List ClientMsg) :
    (run trafficStep s (ms.map .client)).earlyUse = s.earlyUse := by
  induction ms generalizing s with
  | nil => rfl
  | cons m ms ih => exact ih (trafficStep s (.client m))

/-! ## Early traffic -/

section
variable (rate : RateState) (i : Interleaving)

theorem Interleaving.earlyUse_final_iff :
    (i.final rate).earlyUse = false ↔
      Guarded trafficStep (fun s t => ¬ Queues s t) (i.atHook rate) i.beforeQueue := by
  have hready : (i.atHook rate).queueReady = false := by
    rw [atHook, queueReady_run]
    exact queueReady_run _ _
  have huse : (i.atHook rate).earlyUse = false := by
    rw [atHook, earlyUse_run_client]
    exact earlyUse_run_client _ _
  rw [← earlyUse_run_iff i.beforeQueue hready huse]
  -- from `skb_queue_head_init` on the flag does not change
  have hportid : (i.atPortid rate).earlyUse = (i.atQueue rate).earlyUse :=
    earlyUse_run_ready i.beforePortid rfl
  have hfinal : (i.final rate).earlyUse = (i.atPortid rate).earlyUse :=
    earlyUse_run_ready i.afterInit (queueReady_run _ i.beforePortid)
  rw [hfinal, hportid]
  rfl

/-- The command state at the steps of `app_init` and at the end. -/
theorem Interleaving.ctl_atTable :
    (i.atTable rate).g.ctl = run msgStep capStart i.beforeTable := by
  rw [atTable, ctl_run_trafficStep, clients_map_client]
  rfl

theorem Interleaving.ctl_atPortid :
    (i.atPortid rate).g.ctl =
      run msgStep { (i.atTable rate).g.ctl with usrtab := usertabInit (i.atTable rate).g.ctl.usrtab }
        (i.beforeHook ++ clients i.beforeQueue ++ clients i.beforePortid) := by
  rw [atPortid, ctl_run_trafficStep]
  show run msgStep (i.atQueue rate).g.ctl _ = _
  rw [atQueue, ctl_run_trafficStep, atHook, ctl_run_trafficStep, clients_map_client]
  simp only [run, List.foldl_append]

theorem Interleaving.ctl_final :
    (i.final rate).g.ctl =
      run msgStep { (i.atPortid rate).g.ctl with capNlkPortid := 0 } (clients i.afterInit) := by
  rw [final, ctl_run_trafficStep]
  rfl

/-- The run to compare with, cut where `usertab_init` and `cap_nlk_portid = 0`
    come in. -/
theorem Interleaving.run_messages :
    run msgStep capStart i.messages =
      run msgStep (run msgStep (i.atTable rate).g.ctl
        (i.beforeHook ++ clients i.beforeQueue ++ clients i.beforePortid)) (clients i.afterInit) := by
  rw [i.ctl_atTable rate, messages]
  simp only [run, List.foldl_append]

theorem Interleaving.drift_atTable (hpid : ∀ m ∈ i.messages, m.2.nlmsgPid ≠ 0) :
    (i.atTable rate).g.ctl.drift = 0 := by
  rw [i.ctl_atTable rate, drift_run fun m hm => hpid m ?_]
  · exact Users.counted_iff_drift.mp capStart_counted
  · simp [messages, hm]

/-- Registrations before `usertab_init` leave a count without clients for good. -/
theorem Interleaving.occupied_of_users_eq (hpid : ∀ m ∈ i.messages, m.2.nlmsgPid ≠ 0)
    (hsame : (i.final rate).g.ctl.toUsers = (run msgStep capStart i.messages).toUsers) :
    (i.atTable rate).g.ctl.usrtab.occupied = 0 := by
  have hzero := i.drift_atTable rate hpid
  have hfinal : (i.final rate).g.ctl.drift = (i.atTable rate).g.ctl.usrcnt := by
    -- over the cleared table the drift is the whole count
    rw [i.ctl_final rate, drift_run fun m hm => hpid m ?_]
    · show (i.atPortid rate).g.ctl.drift = _
      rw [i.ctl_atPortid rate, drift_run fun m hm => hpid m ?_]
      · simp [Users.drift]
      · simp only [messages, List.mem_append] at hm ⊢
        tauto
    · simp [messages, hm]
  have href : (run msgStep capStart i.messages).drift = 0 := by
    rw [drift_run hpid]
    exact Users.counted_iff_drift.mp capStart_counted
  have hdrift : (i.final rate).g.ctl.drift = 0 := (congrArg Users.drift hsame).trans href
  simp only [Users.drift] at hzero
  omega

/-- Where nobody registered before `usertab_init`, only the portid can be lost. -/
theorem Interleaving.final_of_empty (hocc : (i.atTable rate).g.ctl.usrtab.occupied = 0) :
    (i.final rate).g.ctl.toUsers = (run msgStep capStart i.messages).toUsers ∧
      ((i.final rate).g.ctl.capNlkPortid = (run msgStep capStart i.messages).capNlkPortid ↔
        (i.atPortid rate).g.ctl.capNlkPortid = 0 ∨
          Sometime msgStep AssignsPortid (i.atReturn rate).g.ctl (clients i.afterInit)) := by
  have hblank : (i.atTable rate).g.ctl.usrtab.Blank := by
    rw [i.ctl_atTable rate]
    refine run_invariant (P := fun c : CapCtl => c.usrtab.Blank) (fun _ m => blank_msgStep m) ?_ _
    unfold UserTab.Blank
    decide
  have hportid := i.ctl_atPortid rate
  rw [usertabInit_of_blank hblank hocc] at hportid
  have href : run msgStep capStart i.messages =
      run msgStep (i.atPortid rate).g.ctl (clients i.afterInit) := by
    rw [i.run_messages rate, hportid]
  -- the two runs over the last messages start with different portids
  obtain ⟨husers, hiff⟩ := run_msgStep_portid (i.atReturn rate).g.ctl
    (i.atPortid rate).g.ctl.capNlkPortid (clients i.afterInit)
  rw [href, i.ctl_final rate]
  exact ⟨husers.symm, eq_comm.trans hiff⟩

/-- For messages with nonzero pids: `app_init` is insensitive to the traffic
    between its steps exactly when `usertab_init` finds nobody registered, no
    hook call uses the queue before it is initialised, and the last assignment
    overwrites nothing that no later message assigns. -/
theorem app_init_insensitive_iff (hpid : ∀ m ∈ i.messages, m.2.nlmsgPid ≠ 0) :
    Insensitive rate i ↔ Harmless rate i := by
  unfold Insensitive Harmless
  rw [i.earlyUse_final_iff rate]
  constructor
  · rintro ⟨huse, htab, hcnt, hportid⟩
    have hsame : (i.final rate).g.ctl.toUsers = (run msgStep capStart i.messages).toUsers := by
      show Users.mk _ _ = Users.mk _ _
      rw [htab, hcnt]
    have hocc := i.occupied_of_users_eq rate hpid hsame
    exact ⟨hocc, huse, (i.final_of_empty rate hocc).2.mp hportid⟩
  · rintro ⟨hocc, huse, hportid⟩
    obtain ⟨husers, hiff⟩ := i.final_of_empty rate hocc
    exact ⟨huse, congrArg Users.usrtab husers, congrArg Users.usrcnt husers, hiff.mpr hportid⟩

end

/-- A client registers after `usertab_init`, and another one when the module is
    up: the portid of the first would have been overwritten anyway. -/
def lateTakeover : Interleaving where
  beforeTable := []
  beforeHook := [(.task 1, capMsg 0 7)]
  beforeQueue := []
  beforePortid := []
  afterInit := [.client (.task 1, capMsg 0 9)]

theorem app_init_insensitive_late_takeover :
    (∀ m ∈ lateTakeover.messages, m.2.nlmsgPid ≠ 0) ∧ Insensitive noLimit lateTakeover := by
  refine ⟨by decide, (app_init_insensitive_iff noLimit lateTakeover (by decide)).mpr ?_⟩
  exact ⟨by decide, trivial, Or.inr (Or.inl (by decide))⟩

/-- A client registers before `usertab_init`. -/
def earlyClient : Interleaving where
  beforeTable := [(.task 1, capMsg 0 7)]
  beforeHook := []
  beforeQueue := []
  beforePortid := []
  afterInit := []

/-- A client registers, and a packet is captured, before `skb_queue_head_init`. -/
def earlyPacket : Interleaving where
  beforeTable := []
  beforeHook := [(.task 1, capMsg 0 7)]
  beforeQueue := [.hook [1, 2, 3] calmEnv]
  beforePortid := []
  afterInit := []

/-- The early client is counted and in no slot, and its portid is gone; the early
    packet goes to a queue that does not exist. -/
theorem app_init_loses_early_client :
    (let c := (earlyClient.final noLimit).g.ctl
     c.usrcnt = 1 ∧ c.usrtab.members = 0 ∧ c.capNlkPortid = 0) ∧
    (let c := run msgStep capStart earlyClient.messages
     c.usrcnt = 1 ∧ c.usrtab.members = {7} ∧ c.capNlkPortid = 7) ∧
    (earlyPacket.final noLimit).earlyUse = true ∧
    ¬ Insensitive noLimit earlyClient ∧ ¬ Insensitive noLimit earlyPacket := by
  have huse : (earlyPacket.final noLimit).earlyUse = true := by decide +kernel
  refine ⟨by decide, by decide, huse, fun h => ?_, fun h => ?_⟩
  · have hportid := h.2.2.2
    revert hportid
    decide
  · rw [h.1] at huse
    cases huse

end LinuxModules.Netlink
