/-
  LinuxModules.Netlink.DirectHook

  The loop of `hook_func` over the client table.

  A refused send calls `delete_all_user`, which clears the table the loop is
  walking and leaves `usrcnt`.  Up to the first refusal the table is the one the
  call started with; from there on it is empty and nothing more is sent.
-/

import LinuxModules.Netlink.Capture

namespace LinuxModules.Netlink

open LinuxModules.Lib LinuxModules.Net

/-- The pids of the occupied slots, in the order of the table. -/
def UserTab.registered (t : UserTab) : List (BitVec 32) := (t.slots.map (·.pid)).filter (· ≠ 0)

theorem UserTab.coe_registered (t : UserTab) : (t.registered : Multiset (BitVec 32)) = t.members :=
  rfl

/-- The destinations `hook_func` passed to `netlink_unicast`, in order. -/
def HookFunc.attempts (s : HookFunc) : List (BitVec 32) := s.sent.map Prod.snd

/-- Every slot that lost its client is one whose own send was made and returned
    `-ECONNREFUSED`; the skb of slot `i` is the one with that number. -/
def RemovesOnlyRefused (env : Nat → ReplyEnv) (u : Users) (s : HookFunc) : Prop :=
  ∀ (i : Nat) (slot : Usrconf), u.usrtab.slots[i]? = some slot → slot.pid ≠ 0 →
    s.users.usrtab.slots[i]? ≠ some slot →
      (env i).unicast = negEconnrefused ∧ ∃ d, (d, slot.pid) ∈ s.sent ∧ d.id = i

/-- One attempt for every registration, only refused clients removed, and the
    count right. -/
def ServesSlots (env : Nat → ReplyEnv) (u : Users) (s : HookFunc) : Prop :=
  s.attempts = u.usrtab.registered ∧ RemovesOnlyRefused env u s ∧ s.users.Counted

/-- The same with a client counted once however many slots it holds. -/
def ServesPids (env : Nat → ReplyEnv) (u : Users) (s : HookFunc) : Prop :=
  (∀ p, s.attempts.count p = if p ∈ u.usrtab.members then 1 else 0) ∧
    RemovesOnlyRefused env u s ∧ s.users.Counted

/-- No occupied slot among the first `k` has its send refused. -/
def NoRefusalBelow (k : Nat) (env : Nat → ReplyEnv) (u : Users) : Prop :=
  ∀ (i : Nat) (slot : Usrconf), i < k → u.usrtab.slots[i]? = some slot → slot.pid ≠ 0 →
    (env i).unicast ≠ negEconnrefused

/-- No registered client refuses its message. -/
def NoRefusal (env : Nat → ReplyEnv) (u : Users) : Prop := NoRefusalBelow maxTabSize env u

/-- The loop of `hook_func` after its first `k` slots. -/
def hookFuncLoop (packet : List Byte) (env : Nat → ReplyEnv) (u : Users) (k : Nat) : HookFunc :=
  (List.range k).foldl (hookFuncSlot packet env) { users := u, sent := [] }

theorem hookFuncLoop_succ (packet : List Byte) (env : Nat → ReplyEnv) (u : Users) (k : Nat) :
    hookFuncLoop packet env u (k + 1) = hookFuncSlot packet env (hookFuncLoop packet env u k) k := by
  rw [hookFuncLoop, List.range_succ, List.foldl_append]
  rfl

/-! ## One slot -/

/-- A free slot is passed over. -/
theorem hookFuncSlot_free {packet : List Byte} {env : Nat → ReplyEnv} {s : HookFunc} {i : Nat}
    (h : ∀ slot, s.users.usrtab.slots[i]? = some slot → slot.pid = 0) :
    hookFuncSlot packet env s i = s := by
  unfold hookFuncSlot
  split
  case h_1 => rfl
  case h_2 slot hslot =>
    have h0 : ¬ slot.pid ≠ 0 := not_not.mpr (h slot hslot)
    rw [if_neg h0]

/-- An occupied slot is sent to once, and a refusal clears the table. -/
theorem hookFuncSlot_occupied {packet : List Byte} {env : Nat → ReplyEnv} {s : HookFunc} {i : Nat}
    {slot : Usrconf} (hslot : s.users.usrtab.slots[i]? = some slot) (hpid : slot.pid ≠ 0)
    (hreply : (capMakeReply i slot.pid 0 nlmsgDone true false packet (env i).mem).isSome) :
    (hookFuncSlot packet env s i).attempts = s.attempts ++ [slot.pid] ∧
      (hookFuncSlot packet env s i).users =
        if (env i).unicast = negEconnrefused then deleteAllUser s.users else s.users := by
  obtain ⟨tmp, htmp⟩ := Option.isSome_iff_exists.mp hreply
  simp only [hookFuncSlot, hslot, ne_eq, hpid, not_false_eq_true, if_true, htmp]
  split
  case isTrue => exact ⟨by simp [HookFunc.attempts], rfl⟩
  case isFalse => exact ⟨by simp [HookFunc.attempts], rfl⟩

/-- Slot `k` while the table is as the call found it. -/
theorem hookFuncSlot_intact {packet : List Byte} {env : Nat → ReplyEnv} {u : Users} {s : HookFunc}
    (hreply : ∀ i p, (capMakeReply i p 0 nlmsgDone true false packet (env i).mem).isSome)
    (husers : s.users = u) (k : Nat) :
    ((∀ slot, u.usrtab.slots[k]? = some slot → slot.pid ≠ 0 →
        (env k).unicast ≠ negEconnrefused) ∧
      (hookFuncSlot packet env s k).users = u ∧
      (hookFuncSlot packet env s k).attempts =
        s.attempts ++ (u.usrtab.slots[k]?.toList.map (·.pid)).filter (· ≠ 0)) ∨
    (¬ (∀ slot, u.usrtab.slots[k]? = some slot → slot.pid ≠ 0 →
        (env k).unicast ≠ negEconnrefused) ∧
      (hookFuncSlot packet env s k).users = deleteAllUser u) := by
  by_cases hocc : ∃ slot, u.usrtab.slots[k]? = some slot ∧ slot.pid ≠ 0
  · obtain ⟨slot, hslot, hpid⟩ := hocc
    have hslot' : s.users.usrtab.slots[k]? = some slot := by rw [husers, hslot]
    have hone : (([slot].map (·.pid)).filter (· ≠ 0) : List (BitVec 32)) = [slot.pid] :=
      List.filter_cons_of_pos (by simpa using hpid)
    obtain ⟨hatt, husers'⟩ := hookFuncSlot_occupied hslot' hpid (hreply k slot.pid)
    rw [hatt, husers', husers, hslot, Option.toList_some, hone]
    by_cases hrefuse : (env k).unicast = negEconnrefused
    · rw [if_pos hrefuse]
      exact Or.inr ⟨fun h => h slot rfl hpid hrefuse, rfl⟩
    · rw [if_neg hrefuse]
      exact Or.inl ⟨fun _ _ _ => hrefuse, rfl, rfl⟩
  · have hfree : ∀ slot, u.usrtab.slots[k]? = some slot → slot.pid = 0 := by
      intro slot hslot
      by_contra hpid
      exact hocc ⟨slot, hslot, hpid⟩
    have hnone : ((u.usrtab.slots[k]?.toList.map (·.pid)).filter (· ≠ 0) : List (BitVec 32)) = [] := by
      cases hslot : u.usrtab.slots[k]? with
      | none => rfl
      | some slot => simp [hfree slot hslot]
    rw [hookFuncSlot_free (by rw [husers]; exact hfree), hnone, List.append_nil]
    exact Or.inl ⟨fun slot hslot hp => absurd (hfree slot hslot) hp, husers, rfl⟩

/-- Once the table is cleared, the remaining slots are passed over. -/
theorem hookFuncSlot_cleared {packet : List Byte} {env : Nat → ReplyEnv} {u : Users} {s : HookFunc}
    (husers : s.users = deleteAllUser u) (k : Nat) : hookFuncSlot packet env s k = s := by
  apply hookFuncSlot_free
  intro slot hslot
  rw [husers] at hslot
  have hmem := List.mem_of_getElem? hslot
  simp only [deleteAllUser, usertabInit, List.mem_map] at hmem
  obtain ⟨-, -, rfl⟩ := hmem
  rfl

/-! ## The loop -/

theorem noRefusalBelow_succ {k : Nat} {env : Nat → ReplyEnv} {u : Users} :
    NoRefusalBelow (k + 1) env u ↔ NoRefusalBelow k env u ∧
      ∀ slot, u.usrtab.slots[k]? = some slot → slot.pid ≠ 0 →
        (env k).unicast ≠ negEconnrefused := by
  constructor
  · intro h
    exact ⟨fun i slot hi => h i slot (Nat.lt_succ_of_lt hi),
      fun slot => h k slot (Nat.lt_succ_self k)⟩
  · rintro ⟨hbelow, hk⟩ i slot hi
    rcases Nat.lt_succ_iff_lt_or_eq.mp hi with hlt | rfl
    · exact hbelow i slot hlt
    · exact hk slot

/-- The registered pids among the first `k` slots. -/
def UserTab.registeredBelow (t : UserTab) (k : Nat) : List (BitVec 32) :=
  ((t.slots.take k).map (·.pid)).filter (· ≠ 0)

theorem UserTab.registeredBelow_succ (t : UserTab) (k : Nat) :
    t.registeredBelow (k + 1) =
      t.registeredBelow k ++ (t.slots[k]?.toList.map (·.pid)).filter (· ≠ 0) := by
  rw [registeredBelow, registeredBelow, List.take_add_one, List.map_append, List.filter_append]

/-- Where the loop is after `k` slots: it has met no refusal, the table is as it
    was and every registration so far has had its attempt; or it has, and the
    table is empty with the old count. -/
theorem hookFuncLoop_cases {packet : List Byte} {env : Nat → ReplyEnv} (u : Users)
    (hreply : ∀ i p, (capMakeReply i p 0 nlmsgDone true false packet (env i).mem).isSome)
    (k : Nat) :
    (NoRefusalBelow k env u ∧ (hookFuncLoop packet env u k).users = u ∧
      (hookFuncLoop packet env u k).attempts = u.usrtab.registeredBelow k) ∨
    (¬ NoRefusalBelow k env u ∧ (hookFuncLoop packet env u k).users = deleteAllUser u) := by
  -- the second disjunct is the loop after the first refusal: it never leaves it
  induction k with
  | zero => exact Or.inl ⟨fun i slot hi => absurd hi (Nat.not_lt_zero i), rfl, rfl⟩
  | succ k ih =>
      rw [hookFuncLoop_succ, noRefusalBelow_succ, UserTab.registeredBelow_succ]
      rcases ih with ⟨hcalm, husers, hatt⟩ | ⟨href, husers⟩
      · rcases hookFuncSlot_intact hreply husers k with ⟨hk, husers', hatt'⟩ | ⟨hk, husers'⟩
        · rw [hatt] at hatt'
          exact Or.inl ⟨⟨hcalm, hk⟩, husers', hatt'⟩
        · exact Or.inr ⟨fun h => hk h.2, husers'⟩
      · rw [hookFuncSlot_cleared husers]
        exact Or.inr ⟨fun h => href h.1, husers⟩

/-- The whole call: nobody refused and everyone was sent to, or somebody did and
    the table is empty. -/
theorem hookFunc_cases {packet : List Byte} {env : Nat → ReplyEnv} (u : Users)
    (hreply : ∀ i p, (capMakeReply i p 0 nlmsgDone true false packet (env i).mem).isSome) :
    (NoRefusal env u ∧ (hookFunc packet env u).users = u ∧
      (hookFunc packet env u).attempts = u.usrtab.registered) ∨
    (¬ NoRefusal env u ∧ (hookFunc packet env u).users = deleteAllUser u) := by
  have hcases := hookFuncLoop_cases u hreply maxTabSize
  rw [UserTab.registeredBelow, List.take_of_length_le (le_of_eq u.usrtab.size)] at hcases
  exact hcases

/-- After a refusal the count is wrong: it still counts the clients that were
    there, and there was at least the one that refused. -/
theorem noRefusal_of_counted {packet : List Byte} {env : Nat → ReplyEnv} {u : Users}
    (hreply : ∀ i p, (capMakeReply i p 0 nlmsgDone true false packet (env i).mem).isSome)
    (hu : u.Counted) (hafter : (hookFunc packet env u).users.Counted) : NoRefusal env u := by
  rcases hookFunc_cases u hreply with ⟨hcalm, -, -⟩ | ⟨-, husers⟩
  · exact hcalm
  · intro i slot _ hslot hpid
    rw [husers] at hafter
    have hcnt : u.usrcnt = u.usrtab.occupied := hu
    have hzero : u.usrcnt = (usertabInit u.usrtab).occupied := hafter
    rw [occupied_usertabInit] at hzero
    -- the old count over the cleared table is right only if there was nobody
    have hocc : u.usrtab.occupied = 0 := by omega
    have hfree := List.countP_eq_zero.mp hocc slot (List.mem_of_getElem? hslot)
    exact absurd (by simpa using hfree) hpid

/-- Without a refusal the table stays and every registration has its attempt. -/
theorem hookFunc_of_noRefusal {packet : List Byte} {env : Nat → ReplyEnv} {u : Users}
    (hreply : ∀ i p, (capMakeReply i p 0 nlmsgDone true false packet (env i).mem).isSome)
    (hcalm : NoRefusal env u) :
    (hookFunc packet env u).users = u ∧
      (hookFunc packet env u).attempts = u.usrtab.registered := by
  rcases hookFunc_cases u hreply with ⟨-, hsame⟩ | ⟨hrefused, -⟩
  · exact hsame
  · exact absurd hcalm hrefused

theorem removesOnlyRefused_of_users_eq (env : Nat → ReplyEnv) {u : Users} {s : HookFunc}
    (h : s.users = u) : RemovesOnlyRefused env u s := by
  intro i slot hslot _ hchanged
  rw [h] at hchanged
  exact absurd hslot hchanged

/-- From every table whose count is right, provided `cap_make_reply` succeeds:
    every registration has exactly one attempt, only refused clients are removed
    and the count stays right exactly when no registered client refuses; and for
    clients counted by pid exactly when, besides, no pid holds two slots. -/
theorem hook_func_serves_iff (packet : List Byte) (env : Nat → ReplyEnv) {u : Users}
    (hreply : ∀ i p, (capMakeReply i p 0 nlmsgDone true false packet (env i).mem).isSome)
    (hu : u.Counted) :
    (ServesSlots env u (hookFunc packet env u) ↔ NoRefusal env u) ∧
      (ServesPids env u (hookFunc packet env u) ↔
        NoRefusal env u ∧ u.usrtab.members.Nodup) := by
  have hkept : NoRefusal env u → RemovesOnlyRefused env u (hookFunc packet env u) ∧
      (hookFunc packet env u).users.Counted := by
    intro hcalm
    have husers := (hookFunc_of_noRefusal hreply hcalm).1
    refine ⟨removesOnlyRefused_of_users_eq env husers, ?_⟩
    rw [husers]
    exact hu
  have hcount : NoRefusal env u → ∀ p,
      (hookFunc packet env u).attempts.count p = u.usrtab.members.count p := by
    intro hcalm p
    rw [(hookFunc_of_noRefusal hreply hcalm).2, ← UserTab.coe_registered, Multiset.coe_count]
  refine ⟨⟨?_, ?_⟩, ⟨?_, ?_⟩⟩
  · intro h
    exact noRefusal_of_counted hreply hu h.2.2
  · intro hcalm
    exact ⟨(hookFunc_of_noRefusal hreply hcalm).2, hkept hcalm⟩
  · intro h
    have hcalm := noRefusal_of_counted hreply hu h.2.2
    refine ⟨hcalm, Multiset.nodup_iff_count_le_one.mpr fun p => ?_⟩
    -- an attempt each and one attempt only: no pid has two slots
    rw [← hcount hcalm p, h.1 p]
    split <;> omega
  · rintro ⟨hcalm, hnodup⟩
    refine ⟨fun p => ?_, hkept hcalm⟩
    rw [hcount hcalm p]
    split
    case isTrue hin => exact Multiset.count_eq_one_of_mem hnodup hin
    case isFalse hout => exact Multiset.count_eq_zero_of_notMem hout

/-- Two clients, 7 and 9. -/
def twoClients : Users := (userJoin 9 (userJoin 7 ⟨.empty, 0⟩).1).1

/-- The first client's socket is gone; every allocation succeeds. -/
def firstRefuses (i : Nat) : ReplyEnv where
  mem := some ⟨0, fun _ => 0x55⟩
  unicast := if i = 0 then negEconnrefused else 0

theorem capMakeReply_isSome (i : Nat) (p : BitVec 32) (packet : List Byte) (m : SkbMem) :
    (capMakeReply i p 0 nlmsgDone true false packet (some m)).isSome := by
  have hroom : ¬ nlmsgTotalSize packet.length + m.slack < nlmsgTotalSize packet.length := by omega
  simp [capMakeReply, buildMsg, nlmsgNew, nlmsgPut, hroom]

theorem hook_func_serves_two_clients :
    twoClients.Counted ∧ NoRefusal calmReplies twoClients ∧
      ServesPids calmReplies twoClients (hookFunc (List.replicate 12 1) calmReplies twoClients) := by
  have hcalm : NoRefusal calmReplies twoClients :=
    fun _ _ _ _ _ => show (0 : Int) ≠ negEconnrefused by decide
  have hserves := hook_func_serves_iff (List.replicate 12 1) calmReplies (u := twoClients)
    (fun i p => capMakeReply_isSome i p _ _) (by decide)
  exact ⟨by decide, hcalm, hserves.2.mpr ⟨hcalm, by decide⟩⟩

/-- Client 7 refuses: 9 is sent nothing and removed with it, and the count stays
    at 2 over an empty table. -/
theorem hook_func_refusal_drops_all :
    twoClients.Counted ∧ twoClients.usrtab.registered = [7, 9] ∧
      (let s := hookFunc (List.replicate 12 1) firstRefuses twoClients
       s.attempts = [7] ∧ s.users.usrtab.members = 0 ∧ s.users.usrcnt = 2 ∧
         ¬ s.users.Counted) ∧
      ¬ ServesSlots firstRefuses twoClients
        (hookFunc (List.replicate 12 1) firstRefuses twoClients) := by
  refine ⟨by decide, by decide, by decide +kernel, fun h => ?_⟩
  have hcnt := h.2.2
  revert hcnt
  decide +kernel

end LinuxModules.Netlink
