/-
  LinuxModules.Netlink.Session

  The whole protocol: any number of processes of user_client.c, their sockets, and
  the system of `System`, in any interleaving.

  * A process registers, receives as many messages as its argument says, and
    deregisters (`MainPc`).  It can end early at any point: by a signal, or by the
    `exit(-1)` of a failed `malloc`.
  * Its messages are bytes, and reach the module through `cap_receive`
    (`Netlink.Loopback`); acknowledgements of errors go back to its socket.
  * `netlink_unicast` of kcapd takes the portid as its argument when it is called,
    and looks the socket up later (`UnicastPc`).  It calls `cap_receive` if the
    portid is 0, is refused if there is no such socket, and puts the message into the
    socket it has found; where the socket's buffer is full, it sleeps and looks the
    socket up again.

  `SessionMove` says what a step can do.  Every step of the session is a step of
  `System` or none, so what holds of its runs holds here.  Of the history `sent` only
  the messages are used: its portid is the one at the return of the call.

  A `sendmsg` that fails is not seen by the process.  One whose `CAP_DEL` is lost so
  ends, as one that ends at `leaving` does; that a `CAP_ADD` is lost is left out.
  `time--` wraps.
-/

import LinuxModules.Netlink.Kcapd
import LinuxModules.Netlink.Loopback

namespace LinuxModules.Netlink

open LinuxModules.Lib LinuxModules.Net

/-! ## Processes -/

/-- Where a process stands in `main`: with its socket bound and nothing sent, at the
    head of the loop, behind it, or after the second message.  A process that has
    ended between its two messages is `killed`, any other one `exited`. -/
inductive MainPc where
  | starting (time : BitVec 32)
  | receiving (time : BitVec 32)
  | leaving
  | exiting
  | exited
  | killed
deriving DecidableEq

/-- The `CAP_ADD` is sent and the `CAP_DEL` is not. -/
def MainPc.owes : MainPc → Bool
  | .starting _ => false
  | .receiving _ => true
  | .leaving => true
  | .exiting => false
  | .exited => false
  | .killed => true

/-- The socket is open. -/
def MainPc.bound : MainPc → Bool
  | .starting _ => true
  | .receiving _ => true
  | .leaving => true
  | .exiting => true
  | .exited => false
  | .killed => false

/-- The process ends here. -/
def MainPc.ended (pc : MainPc) : MainPc := if pc.owes then .killed else .exited

/-- What a socket receives: a captured packet, or the error of an own message. -/
inductive Inbound where
  | packet (skb : SkBuff)
  | ack (err : Int)

def Inbound.skb? : Inbound → Option SkBuff
  | .packet skb => some skb
  | .ack _ => none

/-- A process of user_client.c: its pid, `atoi(argv[1])`, its socket's queue, and what
    `recv_from_kernel` has received. -/
structure Proc where
  pid : BitVec 32
  pid_ne : pid ≠ 0
  time : BitVec 32
  pc : MainPc
  inbox : List Inbound
  got : List Inbound

/-- Where a kcapd thread stands in `netlink_unicast`: outside of it, called with a
    portid, or with the socket of process `j` found for it. -/
inductive UnicastPc where
  | outside
  | called (portid : BitVec 32)
  | found (portid : BitVec 32) (j : Nat)

/-- The calls of the kcapd threads, and the messages that were refused, by number,
    with the portid they were sent to. -/
structure Unicasts where
  calls : Nat → UnicastPc
  refusals : List (Nat × BitVec 32)

/-- The processes ever started and the calls of `netlink_unicast`, beside the system. -/
structure Session where
  sys : Sys
  procs : List Proc
  net : Unicasts

/-- The process whose socket is bound to a portid. -/
def Session.socket (s : Session) (portid : BitVec 32) : Option Nat :=
  s.procs.findIdx? fun p => p.pc.bound && p.pid == portid

/-! ## The steps -/

inductive SessionEvent where
  | start (pid : BitVec 32) (argv1 : List Byte)
  | send (j : Nat) (kt : KthreadRun) (stale : Nat → Byte)
  | recv (j : Nat)
  | finish (j : Nat)
  | hookEnter (packet : Ipv4Packet)
  | hook (i : Nat) (env : HookEnv)
  | kcapd (i : Nat) (kt : KthreadRun) (full : Bool)

/-- `hello` and `bye` of `main`, with their NUL. -/
def helloText : List Byte := "hello, netlink world".toList.map (fun c => BitVec.ofNat 8 c.toNat) ++ [0]

def byeText : List Byte := "Bye, netlink world".toList.map (fun c => BitVec.ofNat 8 c.toNat) ++ [0]

/-- `strlen(hello) + 1`, the length given for both texts. -/
def textLen : Nat := 21

/-- Process `j` goes on to `next` after `cap_receive` has handled its message. -/
def Session.handled (s : Session) (j : Nat) (p : Proc) (next : MainPc) :
    Except Fault (Received Sys) → Session
  | .error _ => s
  | .ok r =>
      { s with
        sys := r.st
        procs := s.procs.set j
          { p with pc := next, inbox := p.inbox ++ r.acks.map fun a => .ack a.2 } }

/-- The two sends of `main`. -/
def Session.send (s : Session) (j : Nat) (p : Proc) (kt : KthreadRun) (stale : Nat → Byte) :
    Session :=
  match p.pc with
  | .starting time =>
      s.handled j p (.receiving time) (capReceive (fun _ => kt)
        (sendToKernel p.pid helloText textLen UserType.capAdd.msgType stale).nlh s.sys)
  | .leaving =>
      s.handled j p .exiting (capReceive (fun _ => kt)
        (sendToKernel p.pid byeText textLen UserType.capDel.msgType stale).nlh s.sys)
  | .receiving _ => s
  | .exiting => s
  | .exited => s
  | .killed => s

/-- One pass of the loop of `main`; on an empty socket `recvmsg` waits. -/
def Proc.recv (p : Proc) : Proc :=
  match p.pc, p.inbox with
  | .receiving time, m :: rest =>
      { p with
        pc := if time - 1 = 0 then .leaving else .receiving (time - 1)
        inbox := rest
        got := p.got ++ [m] }
  | _, _ => p

/-- `main` returns, or the process ends before; its socket is closed. -/
def Proc.finish (p : Proc) : Proc :=
  if p.pc.bound then { p with pc := p.pc.ended, inbox := [] } else p

/-- A message is put into the socket; a socket that has been closed since it was
    found is thrown away with what is in it. -/
def Proc.accept (skb : SkBuff) (p : Proc) : Proc :=
  if p.pc.bound then { p with inbox := p.inbox ++ [.packet skb] } else p

/-- Thread `i` goes on in its `netlink_unicast`, or leaves it. -/
def Unicasts.goTo (net : Unicasts) (i : Nat) (pc : UnicastPc) : Unicasts :=
  { net with calls := Function.update net.calls i pc }

/-- One step of the `netlink_unicast` of kcapd thread `i`, which holds `skb`; `full` is
    whether the receive buffer of the socket is full. -/
def Session.unicast (s : Session) (i : Nat) (skb : SkBuff) (kt : KthreadRun) (full : Bool) :
    Session :=
  match s.net.calls i with
  | .outside => { s with net := s.net.goTo i (.called s.sys.g.ctl.capNlkPortid) }
  | .called portid =>
      if portid = 0 then
        -- the module's own socket
        match capReceive (fun _ => kt) skb.data s.sys with
        | .error _ => s
        | .ok r =>
            { s with
              sys := sysStep r.st (.kcapd i skb.data.length)
              net := s.net.goTo i .outside }
      else
        match s.socket portid with
        | none =>
            { s with
              sys := sysStep s.sys (.kcapd i negEconnrefused)
              net :=
                { calls := Function.update s.net.calls i .outside
                  refusals := s.net.refusals ++ [(skb.id, portid)] } }
        | some j => { s with net := s.net.goTo i (.found portid j) }
  | .found portid j =>
      if full then { s with net := s.net.goTo i (.called portid) }
      else
        { sys := sysStep s.sys (.kcapd i skb.data.length)
          procs := s.procs.modify j (Proc.accept skb)
          net := s.net.goTo i .outside }

def sessionStep (s : Session) : SessionEvent → Session
  | .start pid argv1 =>
      if hpid : pid ≠ 0 ∧ s.socket pid = none then
        { s with
          procs := s.procs ++
            [{ pid, pid_ne := hpid.1, time := atoi argv1, pc := .starting (atoi argv1)
               inbox := [], got := [] }] }
      -- `bind` fails and the process exits
      else s
  | .send j kt stale =>
      match s.procs[j]? with
      | none => s
      | some p => s.send j p kt stale
  | .recv j => { s with procs := s.procs.modify j Proc.recv }
  | .finish j => { s with procs := s.procs.modify j Proc.finish }
  | .hookEnter packet => { s with sys := sysStep s.sys (.hookEnter packet) }
  | .hook i env => { s with sys := sysStep s.sys (.hook i env) }
  | .kcapd i kt full =>
      match s.sys.kcapd[i]? with
      | some (.holding skb) => s.unicast i skb kt full
      | _ => { s with sys := sysStep s.sys (.kcapd i 0) }

/-- The module is loaded and no process has started. -/
def sessionStart (rate : RateState) : Session where
  sys := sysStart rate
  procs := []
  net := { calls := fun _ => .outside, refusals := [] }

/-! ## What a step can do -/

/-- The event of `System` neither is a client message nor sends one. -/
def Silent (s : Sys) : SysEvent → Prop
  | .client _ _ => False
  | .hookEnter packet => packet.length < 2 ^ 16
  | .hook _ _ => True
  | .kcapd i _ => ∀ skb, s.kcapd[i]? ≠ some (.holding skb)

/-- One step of the session, by its outcome. -/
inductive SessionMove (s : Session) : SessionEvent → Session → Prop
  | stay (e : SessionEvent) (hsend : ∀ j kt stale p time, e = .send j kt stale →
      s.procs[j]? = some p → p.pc ≠ .starting time) : SessionMove s e s
  | start (pid : BitVec 32) (argv1 : List Byte) (hpid : pid ≠ 0) :
      SessionMove s (.start pid argv1)
        { s with procs := s.procs ++ [⟨pid, hpid, atoi argv1, .starting (atoi argv1), [], []⟩] }
  | add {j : Nat} {p : Proc} {time : BitVec 32} (kt : KthreadRun) (stale : Nat → Byte)
      (seq : BitVec 32) (acks : List Int) (hp : s.procs[j]? = some p) (hpc : p.pc = .starting time) :
      SessionMove s (.send j kt stale)
        { s with
          sys := sysStep s.sys (.client kt (userHdr p.pid seq .capAdd))
          procs := s.procs.set j
            { p with pc := .receiving time, inbox := p.inbox ++ acks.map .ack } }
  | del {j : Nat} {p : Proc} (kt : KthreadRun) (stale : Nat → Byte) (seq : BitVec 32)
      (acks : List Int) (hp : s.procs[j]? = some p) (hpc : p.pc = .leaving) :
      SessionMove s (.send j kt stale)
        { s with
          sys := sysStep s.sys (.client kt (userHdr p.pid seq .capDel))
          procs := s.procs.set j { p with pc := .exiting, inbox := p.inbox ++ acks.map .ack } }
  | recv {j : Nat} {p : Proc} {time : BitVec 32} {m : Inbound} {rest : List Inbound}
      (hp : s.procs[j]? = some p) (hpc : p.pc = .receiving time) (hin : p.inbox = m :: rest) :
      SessionMove s (.recv j)
        { s with
          procs := s.procs.set j
            { p with
              pc := if time - 1 = 0 then .leaving else .receiving (time - 1)
              inbox := rest
              got := p.got ++ [m] } }
  | finish {j : Nat} {p : Proc} (hp : s.procs[j]? = some p) (hbound : p.pc.bound) :
      SessionMove s (.finish j)
        { s with procs := s.procs.set j { p with pc := p.pc.ended, inbox := [] } }
  | kernel (e : SessionEvent) (e' : SysEvent) (hsilent : Silent s.sys e')
      (hsend : ∀ j kt stale, e ≠ .send j kt stale) :
      SessionMove s e { s with sys := sysStep s.sys e' }
  | inside {i : Nat} (kt : KthreadRun) (full : Bool) (pc : UnicastPc)
      (hpc : (s.net.calls i = .outside ∧ pc = .called s.sys.g.ctl.capNlkPortid) ∨
        (∃ portid j, s.net.calls i = .called portid ∧ pc = .found portid j) ∨
        ∃ portid j, s.net.calls i = .found portid j ∧ pc = .called portid) :
      SessionMove s (.kcapd i kt full) { s with net := s.net.goTo i pc }
  | away {i : Nat} {skb : SkBuff} (kt : KthreadRun) (full : Bool)
      (hi : s.sys.kcapd[i]? = some (.holding skb)) :
      SessionMove s (.kcapd i kt full)
        { s with
          sys := sysStep s.sys (.kcapd i skb.data.length)
          net := s.net.goTo i .outside }
  | deliver {i j : Nat} {skb : SkBuff} {p : Proc} (kt : KthreadRun) (full : Bool)
      (hi : s.sys.kcapd[i]? = some (.holding skb)) (hp : s.procs[j]? = some p) :
      SessionMove s (.kcapd i kt full)
        { sys := sysStep s.sys (.kcapd i skb.data.length)
          procs := s.procs.set j { p with inbox := p.inbox ++ [.packet skb] }
          net := s.net.goTo i .outside }
  | refuse {i : Nat} {skb : SkBuff} {portid : BitVec 32} (kt : KthreadRun) (full : Bool)
      (hi : s.sys.kcapd[i]? = some (.holding skb)) (hcall : s.net.calls i = .called portid)
      (hportid : portid ≠ 0) (hnone : ∀ p ∈ s.procs, p.pc.bound → p.pid ≠ portid) :
      SessionMove s (.kcapd i kt full)
        { s with
          sys := sysStep s.sys (.kcapd i negEconnrefused)
          net :=
            { calls := Function.update s.net.calls i .outside
              refusals := s.net.refusals ++ [(skb.id, portid)] } }

/-- A held message was enqueued, and there is a thread that holds it. -/
theorem Queued.enqueued_of_holding {s : Sys} (hs : Queued s) {i : Nat} {skb : SkBuff}
    (hi : s.kcapd[i]? = some (.holding skb)) : s.kcapd ≠ [] ∧ skb ∈ s.enqueued := by
  have hmem := List.mem_of_getElem? hi
  refine ⟨List.ne_nil_of_mem hmem, ?_⟩
  rw [← hs.fifo]
  refine List.mem_append_left _ (List.mem_append_right _ (List.mem_flatMap.mpr ?_))
  exact ⟨_, hmem, List.mem_singleton_self skb⟩

/-- The message goes to the socket that was found, or is lost with it. -/
theorem accept_moves {s : Session} {i : Nat} {skb : SkBuff}
    (hi : s.sys.kcapd[i]? = some (.holding skb)) (kt : KthreadRun) (full : Bool) (j : Nat) :
    SessionMove s (.kcapd i kt full)
      { sys := sysStep s.sys (.kcapd i skb.data.length)
        procs := s.procs.modify j (Proc.accept skb)
        net := s.net.goTo i .outside } := by
  rw [List.modify_eq_set_getElem?]
  cases hp : s.procs[j]? with
  | none => exact .away kt full hi
  | some p =>
      simp only [Proc.accept, Option.map_eq_map, Option.map_some, Option.getD_some]
      by_cases hbound : p.pc.bound
      · rw [if_pos hbound]
        exact .deliver kt full hi hp
      · rw [if_neg hbound, set_eq_self hp]
        exact .away kt full hi

theorem unicast_moves {s : Session} (hs : Looping s.sys) {i : Nat} {skb : SkBuff}
    (hi : s.sys.kcapd[i]? = some (.holding skb)) (kt : KthreadRun) (full : Bool) :
    SessionMove s (.kcapd i kt full) (s.unicast i skb kt full) := by
  unfold Session.unicast
  cases hcall : s.net.calls i with
  | outside => exact .inside kt full _ (Or.inl ⟨hcall, rfl⟩)
  | called portid =>
      by_cases hportid : portid = 0
      · -- `cap_receive` leaves the system as it is
        obtain ⟨hrun, hskb⟩ := hs.queued.enqueued_of_holding hi
        simp only [if_pos hportid, (hs.capReceive_enqueued hrun hskb _).1]
        exact .away kt full hi
      · simp only [if_neg hportid]
        cases hsock : s.socket portid with
        | none =>
            refine .refuse kt full hi hcall hportid fun p hp hbound hpid => ?_
            have hno := List.findIdx?_eq_none_iff.mp hsock p hp
            simp [hbound, hpid] at hno
        | some j => exact .inside kt full _ (Or.inr (Or.inl ⟨portid, j, hcall, rfl⟩))
  | found portid j =>
      cases full with
      | true => exact .inside kt true _ (Or.inr (Or.inr ⟨portid, j, hcall, rfl⟩))
      | false => exact accept_moves hi kt false j

/-- A send of process `j`: its message reaches `cap_receive` as one client message. -/
theorem handled_user (s : Session) (j : Nat) (p : Proc) (kt : KthreadRun) (data : List Byte)
    (t : UserType) (stale : Nat → Byte) (next : MainPc) : ∃ seq, ∃ acks : List Int,
      s.handled j p next (capReceive (fun _ => kt)
          (sendToKernel p.pid data textLen t.msgType stale).nlh s.sys) =
        { s with
          sys := sysStep s.sys (.client kt (userHdr p.pid seq t))
          procs := s.procs.set j { p with pc := next, inbox := p.inbox ++ acks.map .ack } } := by
  have hlen : textLen ≤ maxPayload := by decide
  obtain ⟨seq, hrecv⟩ := capReceive_user (fun _ => kt) p.pid data hlen t stale s.sys
  refine ⟨seq, (if (capReceiveMsg kt s.sys.g.ctl (userHdr p.pid seq t)).err ≠ 0 then
    [(userHdr p.pid seq t, (capReceiveMsg kt s.sys.g.ctl (userHdr p.pid seq t)).err)]
    else []).map Prod.snd, ?_⟩
  rw [hrecv, List.map_map]
  rfl

theorem send_moves {s : Session} {j : Nat} {p : Proc} (hp : s.procs[j]? = some p)
    (kt : KthreadRun) (stale : Nat → Byte) :
    SessionMove s (.send j kt stale) (s.send j p kt stale) := by
  -- only at the two sends of `main` does something happen
  have hstay : (∀ time, p.pc ≠ .starting time) → SessionMove s (.send j kt stale) s := by
    intro hpc
    refine .stay _ fun j' kt' stale' p' time he hp' => ?_
    cases he
    rw [hp] at hp'
    cases hp'
    exact hpc time
  unfold Session.send
  cases hpc : p.pc with
  | starting time =>
      obtain ⟨seq, acks, heq⟩ := handled_user s j p kt helloText .capAdd stale (.receiving time)
      simp only [heq]
      exact .add kt stale seq acks hp hpc
  | leaving =>
      obtain ⟨seq, acks, heq⟩ := handled_user s j p kt byeText .capDel stale .exiting
      simp only [heq]
      exact .del kt stale seq acks hp hpc
  | _ => exact hstay (by simp [hpc])

theorem recv_moves {s : Session} {j : Nat} {p : Proc} (hp : s.procs[j]? = some p) :
    SessionMove s (.recv j) { s with procs := s.procs.set j p.recv } := by
  have hstay : p.recv = p →
      SessionMove s (.recv j) { s with procs := s.procs.set j p.recv } := by
    intro heq
    have hsame : s.procs.set j p.recv = s.procs := by
      rw [heq]
      exact set_eq_self hp
    rw [hsame]
    exact .stay _ fun _ _ _ _ _ he => by cases he
  cases hpc : p.pc with
  | receiving time =>
      cases hin : p.inbox with
      | nil => exact hstay (by simp only [Proc.recv, hpc, hin])
      | cons m rest =>
          have heq : p.recv = { p with
              pc := if time - 1 = 0 then .leaving else .receiving (time - 1)
              inbox := rest
              got := p.got ++ [m] } := by
            simp only [Proc.recv, hpc, hin]
          rw [heq]
          exact .recv hp hpc hin
  | _ => exact hstay (by simp only [Proc.recv, hpc])

theorem sessionStep_moves {s : Session} (hs : Looping s.sys) (e : SessionEvent) :
    SessionMove s e (sessionStep s e) := by
  cases e with
  | start pid argv1 =>
      simp only [sessionStep]
      split
      case isTrue hpid => exact .start pid argv1 hpid.1
      case isFalse => exact .stay _ fun _ _ _ _ _ he => by cases he
  | send j kt stale =>
      cases hp : s.procs[j]? with
      | none =>
          simp only [sessionStep, hp]
          refine .stay _ fun j' kt' stale' p time he hp' => ?_
          cases he
          rw [hp] at hp'
          cases hp'
      | some p =>
          simp only [sessionStep, hp]
          exact send_moves hp kt stale
  | recv j =>
      simp only [sessionStep, List.modify_eq_set_getElem?]
      cases hp : s.procs[j]? with
      | none => exact .stay _ fun _ _ _ _ _ he => by cases he
      | some p => exact recv_moves hp
  | finish j =>
      simp only [sessionStep, List.modify_eq_set_getElem?]
      cases hp : s.procs[j]? with
      | none => exact .stay _ fun _ _ _ _ _ he => by cases he
      | some p =>
          by_cases hbound : p.pc.bound
          · simp only [Proc.finish, hbound, if_true, Option.map_eq_map, Option.map_some,
              Option.getD_some]
            exact .finish hp hbound
          · simp only [Proc.finish, hbound, Option.map_eq_map, Option.map_some,
              Option.getD_some, Bool.false_eq_true, if_false, set_eq_self hp]
            exact .stay _ fun _ _ _ _ _ he => by cases he
  | hookEnter packet =>
      exact .kernel _ (.hookEnter packet) packet.property fun _ _ _ he => by cases he
  | hook i env => exact .kernel _ (.hook i env) trivial fun _ _ _ he => by cases he
  | kcapd i kt full =>
      by_cases hold : ∃ skb, s.sys.kcapd[i]? = some (.holding skb)
      · obtain ⟨skb, hi⟩ := hold
        simp only [sessionStep, hi]
        exact unicast_moves hs hi kt full
      · have heq : sessionStep s (.kcapd i kt full) =
            { s with sys := sysStep s.sys (.kcapd i 0) } := by
          simp only [sessionStep]
          split
          case h_1 skb hi => exact absurd ⟨skb, hi⟩ hold
          case h_2 => rfl
        rw [heq]
        exact .kernel _ (.kcapd i 0) (fun skb hi => hold ⟨skb, hi⟩) fun _ _ _ he => by cases he

/-! ## The two messages of a process -/

/-- A kcapd thread exists, or `kthread_run` starts one. -/
def Startable (kt : KthreadRun) (c : CapCtl) : Prop := c.kcapdTask.isSome ∨ kt.isTask

theorem capReceiveMsg_add (kt : KthreadRun) (c : CapCtl) (pid seq : BitVec 32) :
    let c' := (capReceiveMsg kt c (userHdr pid seq .capAdd)).ctl
    (Startable kt c ∧ c'.toUsers = (userJoin pid c.toUsers).1 ∧ c'.capNlkPortid = pid) ∨
      (¬ Startable kt c ∧ c' = c) := by
  have htype : CapType.ofMsgType (userHdr pid seq .capAdd).nlmsgType = some .capAdd := rfl
  have hpid : (userHdr pid seq .capAdd).nlmsgPid = pid := rfl
  rcases capReceiveMsg_cases kt c (userHdr pid seq .capAdd) with
    ⟨hno, -, hctl, -⟩ | ⟨hadm, -, heq⟩ | ⟨t, hadm, -, heq⟩
  · exact Or.inr ⟨fun h => hno ⟨rfl, h⟩, hctl⟩
  · refine Or.inl ⟨hadm.2, ?_, ?_⟩ <;> simp only [heq, capSwitch, htype, hpid]
  · refine Or.inl ⟨hadm.2, ?_, ?_⟩ <;> simp only [heq, capSwitch, htype, hpid]

theorem capReceiveMsg_del (kt : KthreadRun) (c : CapCtl) (pid seq : BitVec 32) :
    let c' := (capReceiveMsg kt c (userHdr pid seq .capDel)).ctl
    (Startable kt c ∧ c'.toUsers = (userLeave pid c.toUsers).1 ∧ c'.capNlkPortid = 0) ∨
      (¬ Startable kt c ∧ c' = c) := by
  have htype : CapType.ofMsgType (userHdr pid seq .capDel).nlmsgType = some .capDel := rfl
  have hpid : (userHdr pid seq .capDel).nlmsgPid = pid := rfl
  rcases capReceiveMsg_cases kt c (userHdr pid seq .capDel) with
    ⟨hno, -, hctl, -⟩ | ⟨hadm, -, heq⟩ | ⟨t, hadm, -, heq⟩
  · exact Or.inr ⟨fun h => hno ⟨rfl, h⟩, hctl⟩
  · refine Or.inl ⟨hadm.2, ?_, ?_⟩ <;> simp only [heq, capSwitch, htype, hpid]
  · refine Or.inl ⟨hadm.2, ?_, ?_⟩ <;> simp only [heq, capSwitch, htype, hpid]

/-- Hooks and kcapd leave the table alone, and the capture target or nothing in its
    place. -/
theorem ctl_sysStep_internal {s : Sys} {e : SysEvent} (he : ∀ kt h, e ≠ .client kt h) :
    (sysStep s e).g.ctl.toUsers = s.g.ctl.toUsers ∧
      ((sysStep s e).g.ctl.capNlkPortid = s.g.ctl.capNlkPortid ∨
        (sysStep s e).g.ctl.capNlkPortid = 0) ∧
      (s.kcapd ≠ [] → (sysStep s e).kcapd ≠ []) := by
  cases e with
  | client kt h => exact absurd rfl (he kt h)
  | hookEnter packet => exact ⟨rfl, Or.inl rfl, id⟩
  | hook i env =>
      simp only [sysStep]
      split
      case h_1 => exact ⟨rfl, Or.inl rfl, id⟩
      case h_2 pc hpc =>
        rw [(hookStep_frame env s.g pc).1]
        exact ⟨rfl, Or.inl rfl, id⟩
  | kcapd i err =>
      simp only [sysStep]
      split
      case h_1 => exact ⟨rfl, Or.inl rfl, id⟩
      case h_2 pc hpc =>
        have hrun : s.kcapd ≠ [] → s.kcapd.set i (kcapdStep err s.g pc).2 ≠ [] := by simp
        cases pc with
        | idle =>
            refine ⟨?_, Or.inl ?_, hrun⟩ <;> simp only [kcapdStep] <;> split <;> rfl
        | holding skb =>
            refine ⟨?_, Or.inl ?_, hrun⟩ <;> simp only [kcapdStep] <;> split <;>
              first | rfl | (split <;> rfl)
        | refused skb => exact ⟨rfl, Or.inr rfl, hrun⟩
        | bug => exact ⟨rfl, Or.inl rfl, hrun⟩

/-! ## The table and the processes -/

/-- The pid of a process between its two messages. -/
def Proc.owing (p : Proc) : Multiset (BitVec 32) := if p.pc.owes then {p.pid} else 0

/-- The pids of the processes that have sent `CAP_ADD` and not `CAP_DEL`, those that
    have ended there included. -/
def Session.owing (s : Session) : Multiset (BitVec 32) := total Proc.owing s.procs

theorem MainPc.owes_ended (pc : MainPc) : pc.ended.owes = pc.owes := by
  cases pc <;> rfl

/-- What holds of every session: the table has at most one entry for each process
    that still owes its `CAP_DEL`, and the capture target is such a process. -/
structure Orderly (s : Session) : Prop where
  looping : Looping s.sys
  counted : s.sys.g.ctl.Counted
  registered : s.sys.g.ctl.usrtab.members ≤ s.owing
  target : s.sys.g.ctl.capNlkPortid ≠ 0 → s.sys.g.ctl.capNlkPortid ∈ s.owing
  started : s.sys.g.ctl.usrtab.members ≠ 0 → s.sys.kcapd ≠ []

theorem orderly_sessionStart (rate : RateState) : Orderly (sessionStart rate) where
  looping := looping_sysStart rate
  counted := capStart_counted
  registered := le_of_eq (members_usertabInit _)
  target := fun h => absurd rfl h
  started := fun h => absurd (members_usertabInit _) h

/-- A step of hooks and kcapd, whatever it does to the processes' sockets. -/
theorem Orderly.internal {s : Session} (hs : Orderly s) {e : SysEvent} {procs : List Proc}
    {net : Unicasts} (he : Ipv4Event e) (hclient : ∀ kt h, e ≠ .client kt h)
    (howing : total Proc.owing procs = s.owing) : Orderly ⟨sysStep s.sys e, procs, net⟩ := by
  obtain ⟨husers, hportid, hrun⟩ := ctl_sysStep_internal (s := s.sys) hclient
  have hsame : (Session.mk (sysStep s.sys e) procs net).owing = s.owing := howing
  refine ⟨looping_sysStep he hs.looping, ?_, ?_, ?_, ?_⟩
  · show (sysStep s.sys e).g.ctl.toUsers.Counted
    rw [husers]
    exact hs.counted
  · rw [hsame]
    show (sysStep s.sys e).g.ctl.toUsers.usrtab.members ≤ s.owing
    rw [husers]
    exact hs.registered
  · rw [hsame]
    intro hne
    rcases hportid with heq | hzero
    · show (sysStep s.sys e).g.ctl.capNlkPortid ∈ s.owing
      rw [heq]
      exact hs.target (heq ▸ hne)
    · exact absurd hzero hne
  · intro hne
    apply hrun
    apply hs.started
    have hmem : (sysStep s.sys e).g.ctl.usrtab.members = s.sys.g.ctl.usrtab.members := by
      show (sysStep s.sys e).g.ctl.toUsers.usrtab.members = _
      rw [husers]
    exact hmem ▸ hne

theorem owing_set {s : Session} {j : Nat} {p : Proc} (hp : s.procs[j]? = some p) (p' : Proc)
    (h : p'.owing = p.owing) : total Proc.owing (s.procs.set j p') = s.owing := by
  rw [total_set Proc.owing hp, Session.owing, total_of_getElem? Proc.owing hp, h]

theorem owing_add {s : Session} {j : Nat} {p : Proc} {time : BitVec 32} (hp : s.procs[j]? = some p)
    (hpc : p.pc = .starting time) (inbox : List Inbound) :
    total Proc.owing (s.procs.set j { p with pc := .receiving time, inbox }) =
      p.pid ::ₘ s.owing := by
  have hnew : ({ p with pc := .receiving time, inbox } : Proc).owing = {p.pid} := rfl
  have hold : p.owing = 0 := by simp [Proc.owing, hpc, MainPc.owes]
  rw [total_set Proc.owing hp, Session.owing, total_of_getElem? Proc.owing hp, hnew, hold,
    zero_add, Multiset.singleton_add]

theorem owing_del {s : Session} {j : Nat} {p : Proc} (hp : s.procs[j]? = some p)
    (hpc : p.pc = .leaving) (inbox : List Inbound) :
    s.owing = p.pid ::ₘ total Proc.owing (s.procs.set j { p with pc := .exiting, inbox }) := by
  have hnew : ({ p with pc := .exiting, inbox } : Proc).owing = 0 := rfl
  have hold : p.owing = {p.pid} := by simp [Proc.owing, hpc, MainPc.owes]
  rw [total_set Proc.owing hp, Session.owing, total_of_getElem? Proc.owing hp, hnew, hold,
    zero_add, Multiset.singleton_add]

/-- A client message with a nonzero pid. -/
theorem Orderly.client {s : Session} (hs : Orderly s) {kt : KthreadRun} {h : Nlmsghdr}
    {procs : List Proc} {net : Unicasts} {c' : CapCtl} (hpid : h.nlmsgPid ≠ 0)
    (hc' : (capReceiveMsg kt s.sys.g.ctl h).ctl = c')
    (hreg : c'.usrtab.members ≤ total Proc.owing procs)
    (htarget : c'.capNlkPortid ≠ 0 → c'.capNlkPortid ∈ total Proc.owing procs)
    (hrun : c'.usrtab.members ≠ 0 → c'.capNlkPortid ≠ 0 ∨ s.sys.kcapd ≠ []) :
    Orderly ⟨sysStep s.sys (.client kt h), procs, net⟩ := by
  have hctl : (sysStep s.sys (.client kt h)).g.ctl = c' := hc'
  have hloop : Looping (sysStep s.sys (.client kt h)) := looping_sysStep trivial hs.looping
  have hcnt : (sysStep s.sys (.client kt h)).g.ctl.Counted :=
    counted_msgStep (m := (kt, h)) hpid hs.counted
  refine ⟨hloop, hcnt, ?_, ?_, ?_⟩
  · show (sysStep s.sys (.client kt h)).g.ctl.usrtab.members ≤ total Proc.owing procs
    rw [hctl]
    exact hreg
  · show (sysStep s.sys (.client kt h)).g.ctl.capNlkPortid ≠ 0 →
      (sysStep s.sys (.client kt h)).g.ctl.capNlkPortid ∈ total Proc.owing procs
    rw [hctl]
    exact htarget
  · intro hne
    rw [hctl] at hne
    rcases hrun hne with hportid | hold
    · exact hloop.queued.started (Or.inl (hctl ▸ hportid))
    · exact List.append_ne_nil_of_left_ne_nil hold _

theorem Orderly.add {s : Session} (hs : Orderly s) {j : Nat} {p : Proc} {time : BitVec 32}
    (hp : s.procs[j]? = some p) (hpc : p.pc = .starting time) (kt : KthreadRun) (seq : BitVec 32)
    (inbox : List Inbound) (net : Unicasts) :
    Orderly ⟨sysStep s.sys (.client kt (userHdr p.pid seq .capAdd)),
      s.procs.set j { p with pc := .receiving time, inbox }, net⟩ := by
  have howing := owing_add hp hpc inbox
  have hgrow : s.sys.g.ctl.usrtab.members ≤ p.pid ::ₘ s.owing :=
    hs.registered.trans (Multiset.le_cons_self _ _)
  have hmsg := capReceiveMsg_add kt s.sys.g.ctl p.pid seq
  generalize hc' : (capReceiveMsg kt s.sys.g.ctl (userHdr p.pid seq .capAdd)).ctl = c' at hmsg
  rcases hmsg with ⟨-, husers, hportid⟩ | ⟨-, rfl⟩
  · refine hs.client p.pid_ne hc' ?_ ?_ fun _ => Or.inl (hportid ▸ p.pid_ne)
    · rw [howing, husers]
      rcases userJoin_of_counted p.pid_ne hs.counted with ⟨-, -, -, hmem⟩ | ⟨-, hfull⟩
      · rw [hmem]
        exact Multiset.cons_le_cons _ hs.registered
      · rw [hfull]
        exact hgrow
    · rw [howing, hportid]
      exact fun _ => Multiset.mem_cons_self _ _
  · refine hs.client p.pid_ne hc' ?_ ?_ fun hne => Or.inr (hs.started hne)
    · rw [howing]
      exact hgrow
    · rw [howing]
      exact fun hne => Multiset.mem_cons_of_mem (hs.target hne)

/-- While no thread was ever started, nothing is registered. -/
theorem Orderly.of_not_startable {s : Session} (hs : Orderly s) {kt : KthreadRun}
    (hno : ¬ Startable kt s.sys.g.ctl) :
    s.sys.g.ctl.usrtab.members = 0 ∧ s.sys.g.ctl.capNlkPortid = 0 := by
  have hnone : s.sys.kcapd = [] := by
    apply hs.looping.queued.task_iff.mp
    by_contra hsome
    exact hno (Or.inl (Option.isSome_iff_ne_none.mpr hsome))
  constructor
  · by_contra hne
    exact hs.started hne hnone
  · by_contra hne
    exact hs.looping.queued.started (Or.inl hne) hnone

theorem Orderly.del {s : Session} (hs : Orderly s) {j : Nat} {p : Proc}
    (hp : s.procs[j]? = some p) (hpc : p.pc = .leaving) (kt : KthreadRun) (seq : BitVec 32)
    (inbox : List Inbound) (net : Unicasts) :
    Orderly ⟨sysStep s.sys (.client kt (userHdr p.pid seq .capDel)),
      s.procs.set j { p with pc := .exiting, inbox }, net⟩ := by
  have howing := owing_del hp hpc inbox
  have hreg := hs.registered
  rw [howing] at hreg
  have hmsg := capReceiveMsg_del kt s.sys.g.ctl p.pid seq
  generalize hc' : (capReceiveMsg kt s.sys.g.ctl (userHdr p.pid seq .capDel)).ctl = c' at hmsg
  rcases hmsg with ⟨-, husers, hportid⟩ | ⟨hno, rfl⟩
  · have htarget : c'.capNlkPortid ≠ 0 → c'.capNlkPortid ∈
        total Proc.owing (s.procs.set j { p with pc := .exiting, inbox }) :=
      fun hne => absurd hportid hne
    rcases userLeave_of_counted p.pid_ne hs.counted with ⟨-, -, -, hmem⟩ | ⟨hout, hsame⟩
    · refine hs.client p.pid_ne hc' ?_ htarget fun _ => Or.inr (hs.started ?_)
      · rw [husers]
        rw [hmem, Multiset.cons_le_cons_iff] at hreg
        exact hreg
      · rw [hmem]
        exact Multiset.cons_ne_zero
    · have husame : c'.toUsers = s.sys.g.ctl.toUsers := by rw [husers, hsame]
      refine hs.client p.pid_ne hc' ?_ htarget fun hne => Or.inr (hs.started ?_)
      · rw [husame]
        exact (Multiset.le_cons_of_notMem hout).mp hreg
      · rwa [husame] at hne
  · obtain ⟨hzero, hoff⟩ := hs.of_not_startable hno
    refine hs.client p.pid_ne hc' ?_ (fun hne => absurd hoff hne) fun hne => absurd hzero hne
    rw [hzero]
    exact Multiset.zero_le _

theorem Silent.internal {s : Sys} {e : SysEvent} (h : Silent s e) :
    Ipv4Event e ∧ ∀ kt m, e ≠ .client kt m := by
  cases e with
  | client kt m => exact absurd h id
  | hookEnter packet => exact ⟨h, fun _ _ he => by cases he⟩
  | hook i env => exact ⟨trivial, fun _ _ he => by cases he⟩
  | kcapd i err => exact ⟨trivial, fun _ _ he => by cases he⟩

theorem orderly_sessionStep {s : Session} (e : SessionEvent) (hs : Orderly s) :
    Orderly (sessionStep s e) := by
  have hkcapd : ∀ i err, Ipv4Event (.kcapd i err) ∧ ∀ kt h, SysEvent.kcapd i err ≠ .client kt h :=
    fun i err => ⟨trivial, fun _ _ he => by cases he⟩
  have hmove := sessionStep_moves hs.looping e
  generalize sessionStep s e = s' at hmove
  -- a step that leaves the system alone and the number of owed `CAP_DEL`s
  have hprocs : ∀ procs net, total Proc.owing procs = s.owing → Orderly ⟨s.sys, procs, net⟩ := by
    intro procs net heq
    have hsame : (Session.mk s.sys procs net).owing = s.owing := heq
    exact ⟨hs.looping, hs.counted, hsame ▸ hs.registered, hsame ▸ hs.target, hs.started⟩
  cases hmove with
  | stay => exact hs
  | start pid argv1 hpid =>
      apply hprocs
      rw [total_append, total_singleton]
      exact add_zero _
  | add kt stale seq acks hp hpc => exact hs.add hp hpc kt seq _ _
  | del kt stale seq acks hp hpc => exact hs.del hp hpc kt seq _ _
  | recv hp hpc hin =>
      apply hprocs
      apply owing_set hp
      simp only [Proc.owing, hpc]
      split <;> rfl
  | finish hp hbound =>
      apply hprocs
      apply owing_set hp
      simp only [Proc.owing, MainPc.owes_ended]
  | kernel e e' hsilent hsend => exact hs.internal hsilent.internal.1 hsilent.internal.2 rfl
  | inside kt full pc hpc => exact hprocs _ _ rfl
  | away kt full hi => exact hs.internal (hkcapd _ _).1 (hkcapd _ _).2 rfl
  | deliver kt full hi hp => exact hs.internal (hkcapd _ _).1 (hkcapd _ _).2 (owing_set hp _ rfl)
  | refuse kt full hi hcall hportid hnone => exact hs.internal (hkcapd _ _).1 (hkcapd _ _).2 rfl

theorem orderly_along (rate : RateState) (events : List SessionEvent) :
    Along sessionStep Orderly (sessionStart rate) events :=
  along_of_step (fun _ e _ => orderly_sessionStep e) (orderly_sessionStart rate)
    (guarded_of_forall fun _ _ _ => trivial)

/-- In every state of every session, in any interleaving: the count is that of the
    table, no process is in the table or the capture target that does not owe its
    `CAP_DEL`, and no process more often than it registered.  When nobody owes one,
    the table is empty and capturing is off. -/
theorem sessions_leave_nothing (rate : RateState) (events : List SessionEvent) :
    Along sessionStep
      (fun s => s.sys.g.ctl.usrcnt = s.sys.g.ctl.usrtab.occupied ∧
        s.sys.g.ctl.usrtab.members ≤ s.owing ∧
        (s.sys.g.ctl.capNlkPortid ≠ 0 → s.sys.g.ctl.capNlkPortid ∈ s.owing) ∧
        ((∀ p ∈ s.procs, p.pc.owes = false) → s.sys.g.ctl.usrtab.members = 0 ∧
          s.sys.g.ctl.usrcnt = 0 ∧ s.sys.g.ctl.capNlkPortid = 0))
      (sessionStart rate) events := by
  refine (orderly_along rate events).mono fun s hs => ⟨hs.counted, hs.registered, hs.target, ?_⟩
  intro hnone
  have hzero : s.owing = 0 := by
    apply List.sum_eq_zero
    intro m hm
    obtain ⟨p, hp, rfl⟩ := List.mem_map.mp hm
    simp [Proc.owing, hnone p hp]
  have hmem : s.sys.g.ctl.usrtab.members = 0 :=
    Multiset.le_zero.mp (hzero ▸ hs.registered)
  refine ⟨hmem, ?_, ?_⟩
  · have hcnt : s.sys.g.ctl.usrcnt = s.sys.g.ctl.usrtab.occupied := hs.counted
    rw [hcnt, ← UserTab.card_members, hmem]
    rfl
  · by_contra hne
    have hin := hs.target hne
    rw [hzero] at hin
    exact Multiset.notMem_zero _ hin

/-! ## When the table is complete -/

/-- The table holds exactly the processes that owe their `CAP_DEL`. -/
def Complete (s : Session) : Prop := s.sys.g.ctl.usrtab.members = s.owing

/-- A process that registers finds a kcapd thread, or one that can be started, and a
    free slot. -/
def Registers (s : Session) (e : SessionEvent) : Prop :=
  ∀ j kt stale p time, e = .send j kt stale → s.procs[j]? = some p → p.pc = .starting time →
    Startable kt s.sys.g.ctl ∧ s.sys.g.ctl.usrtab.members.card < maxTabSize

theorem complete_add {s : Session} (hs : Orderly s) (hall : Complete s) {j : Nat} {p : Proc}
    {time : BitVec 32} (hp : s.procs[j]? = some p) (hpc : p.pc = .starting time) (kt : KthreadRun)
    (seq : BitVec 32) (inbox : List Inbound) (net : Unicasts) :
    Complete ⟨sysStep s.sys (.client kt (userHdr p.pid seq .capAdd)),
        s.procs.set j { p with pc := .receiving time, inbox }, net⟩ ↔
      Startable kt s.sys.g.ctl ∧ s.sys.g.ctl.usrtab.members.card < maxTabSize := by
  show (capReceiveMsg kt s.sys.g.ctl (userHdr p.pid seq .capAdd)).ctl.usrtab.members =
    total Proc.owing (s.procs.set j { p with pc := .receiving time, inbox }) ↔ _
  rw [owing_add hp hpc inbox, ← show s.sys.g.ctl.usrtab.members = s.owing from hall]
  -- a process that is not entered is missing
  have hmiss : s.sys.g.ctl.usrtab.members ≠ p.pid ::ₘ s.sys.g.ctl.usrtab.members := by
    intro h
    have hcard := congrArg Multiset.card h
    rw [Multiset.card_cons] at hcard
    omega
  rcases capReceiveMsg_add kt s.sys.g.ctl p.pid seq with ⟨hstart, husers, -⟩ | ⟨hno, hctl⟩
  · rw [husers]
    rcases userJoin_of_counted p.pid_ne hs.counted with ⟨hroom, -, -, hmem⟩ | ⟨hfull, heq⟩
    · exact iff_of_true hmem ⟨hstart, hroom⟩
    · rw [heq]
      exact iff_of_false hmiss fun h => hfull h.2
  · rw [hctl]
    exact iff_of_false hmiss fun h => hno h.1

theorem complete_del {s : Session} (hs : Orderly s) (hall : Complete s) {j : Nat} {p : Proc}
    (hp : s.procs[j]? = some p) (hpc : p.pc = .leaving) (kt : KthreadRun) (seq : BitVec 32)
    (inbox : List Inbound) (net : Unicasts) :
    Complete ⟨sysStep s.sys (.client kt (userHdr p.pid seq .capDel)),
        s.procs.set j { p with pc := .exiting, inbox }, net⟩ := by
  show (capReceiveMsg kt s.sys.g.ctl (userHdr p.pid seq .capDel)).ctl.usrtab.members =
    total Proc.owing (s.procs.set j { p with pc := .exiting, inbox })
  have hmem : s.sys.g.ctl.usrtab.members =
      p.pid ::ₘ total Proc.owing (s.procs.set j { p with pc := .exiting, inbox }) :=
    hall.trans (owing_del hp hpc inbox)
  rcases capReceiveMsg_del kt s.sys.g.ctl p.pid seq with ⟨-, husers, -⟩ | ⟨hno, -⟩
  · rw [husers]
    rcases userLeave_of_counted p.pid_ne hs.counted with ⟨-, -, -, hleave⟩ | ⟨hout, -⟩
    · rw [hmem, Multiset.cons_inj_right] at hleave
      exact hleave.symm
    · rw [hmem] at hout
      exact absurd (Multiset.mem_cons_self _ _) hout
  · have hzero := (hs.of_not_startable hno).1
    rw [hmem] at hzero
    exact absurd hzero Multiset.cons_ne_zero

theorem complete_sessionStep {s : Session} (e : SessionEvent) (hs : Orderly s)
    (hall : Complete s) : Complete (sessionStep s e) ↔ Registers s e := by
  have hmove := sessionStep_moves hs.looping e
  generalize sessionStep s e = s' at hmove
  -- an event other than a send
  have hother : (∀ j kt stale, e ≠ .send j kt stale) → Registers s e :=
    fun h j kt stale p time he => absurd he (h j kt stale)
  have hprocs : ∀ procs net, total Proc.owing procs = s.owing → Complete ⟨s.sys, procs, net⟩ :=
    fun procs net heq => hall.trans heq.symm
  have hsys : ∀ e' procs net, (∀ kt h, e' ≠ .client kt h) → total Proc.owing procs = s.owing →
      Complete ⟨sysStep s.sys e', procs, net⟩ := by
    intro e' procs net he' heq
    show (sysStep s.sys e').g.ctl.toUsers.usrtab.members = total Proc.owing procs
    rw [(ctl_sysStep_internal he').1, heq]
    exact hall
  cases hmove with
  | stay _ hsend =>
      refine iff_of_true hall fun j kt stale p time he hp hpc => ?_
      exact absurd hpc (hsend j kt stale p time he hp)
  | start pid argv1 hpid =>
      refine iff_of_true (hprocs _ _ ?_) (hother fun _ _ _ he => by cases he)
      rw [total_append, total_singleton]
      exact add_zero _
  | add kt stale seq acks hp hpc =>
      rw [complete_add hs hall hp hpc]
      constructor
      · intro hok j' kt' stale' p' time' he hp' hpc'
        cases he
        exact hok
      · exact fun hreg => hreg _ _ _ _ _ rfl hp hpc
  | del kt stale seq acks hp hpc =>
      refine iff_of_true (complete_del hs hall hp hpc kt seq _ _) ?_
      intro j' kt' stale' p' time' he hp' hpc'
      cases he
      rw [hp] at hp'
      cases hp'
      rw [hpc] at hpc'
      cases hpc'
  | recv hp hpc hin =>
      refine iff_of_true (hprocs _ _ (owing_set hp _ ?_)) (hother fun _ _ _ he => by cases he)
      simp only [Proc.owing, hpc]
      split <;> rfl
  | finish hp hbound =>
      refine iff_of_true (hprocs _ _ (owing_set hp _ ?_)) (hother fun _ _ _ he => by cases he)
      simp only [Proc.owing, MainPc.owes_ended]
  | kernel e e' hsilent hsend => exact iff_of_true (hsys _ _ _ hsilent.internal.2 rfl) (hother hsend)
  | inside kt full pc hpc => exact iff_of_true (hprocs _ _ rfl) (hother fun _ _ _ he => by cases he)
  | away kt full hi =>
      exact iff_of_true (hsys _ _ _ (fun _ _ he => by cases he) rfl)
        (hother fun _ _ _ he => by cases he)
  | deliver kt full hi hp =>
      exact iff_of_true (hsys _ _ _ (fun _ _ he => by cases he) (owing_set hp _ rfl))
        (hother fun _ _ _ he => by cases he)
  | refuse kt full hi hcall hportid hnone =>
      exact iff_of_true (hsys _ _ _ (fun _ _ he => by cases he) rfl)
        (hother fun _ _ _ he => by cases he)

/-- The table holds exactly the processes that have registered and not deregistered,
    throughout a session, if and only if each process that registers finds a kcapd
    thread, running or startable, and a free slot. -/
theorem table_complete_iff (rate : RateState) (events : List SessionEvent) :
    Along sessionStep Complete (sessionStart rate) events ↔
      Guarded sessionStep Registers (sessionStart rate) events :=
  along_iff_guarded (I := Orderly) (A := fun _ => True) (fun _ e _ => orderly_sessionStep e)
    (fun _ e _ hs => complete_sessionStep e hs) (orderly_sessionStart rate)
    (members_usertabInit _) fun _ _ => trivial

end LinuxModules.Netlink
