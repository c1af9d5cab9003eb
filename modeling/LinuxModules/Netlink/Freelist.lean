/-
  LinuxModules.Netlink.Freelist

  The pool of capture buffers under any interleaving of `System`.

  `PoolStep` says once what a step of a hook execution can do to the pool;
  every fact below is a case analysis of it.

  The bound on the number of buffers also counts an execution that has found the
  freelist empty and not yet called `kmalloc` (`HookPc.claims`): when it found
  the list empty, every buffer was with an execution.
-/

import LinuxModules.Lib.Total
import LinuxModules.Netlink.Delivery
import Mathlib.Data.Multiset.Range

namespace LinuxModules.Netlink

open LinuxModules.Lib LinuxModules.Net

/-! ## What a hook step does to the pool -/

/-- The globals that account for capture buffers. -/
structure Pool where
  freelist : List CapBuffer
  count : Int
  allocs : Nat
  freed : List Nat

def Cap.pool (g : Cap) : Pool where
  freelist := g.capFreelist
  count := g.capFreelistCount
  allocs := g.bufAllocs
  freed := g.bufFreed

/-- The buffer a hook execution holds. -/
def HookPc.held : HookPc → List CapBuffer
  | .filling _ cb | .checking cb | .queueing cb | .freeing cb => [cb]
  | _ => []

/-- The execution holds a buffer or is about to allocate one. -/
def HookPc.claims : HookPc → Nat
  | .entered _ | .popping _ | .oopsed => 0
  | _ => 1

/-- A buffer on its way to `cap_buffer_free` has no skb. -/
def HookPc.Clean : HookPc → Prop
  | .freeing cb => cb.skb = none
  | _ => True

/-- One step of a hook execution, as far as the pool is concerned.  A buffer is
    only dropped when there is a rate limit. -/
inductive PoolStep (limit : BitVec 32) : Pool → HookPc → Pool → Option HookPc → Prop
  | pass (p : Pool) (packet : List Byte) : PoolStep limit p (.entered packet) p none
  | enter (p : Pool) (packet : List Byte) :
      PoolStep limit p (.entered packet) p (some (.popping packet))
  | pop (cb : CapBuffer) (l : List CapBuffer) (n : Int) (a : Nat) (f : List Nat)
      (packet : List Byte) :
      PoolStep limit ⟨cb :: l, n, a, f⟩ (.popping packet) ⟨l, n - 1, a, f⟩
        (some (.filling packet cb))
  | miss (n : Int) (a : Nat) (f : List Nat) (packet : List Byte) :
      PoolStep limit ⟨[], n, a, f⟩ (.popping packet) ⟨[], n, a, f⟩ (some (.mallocing packet))
  | malloc (l : List CapBuffer) (n : Int) (a : Nat) (f : List Nat) (packet : List Byte) :
      PoolStep limit ⟨l, n, a, f⟩ (.mallocing packet) ⟨l, n, a + 1, f⟩
        (some (.filling packet ⟨a, none⟩))
  | oops (p : Pool) (packet : List Byte) :
      PoolStep limit p (.mallocing packet) p (some .oopsed)
  | fill (p : Pool) (packet : List Byte) (cb cb' : CapBuffer) (hid : cb'.id = cb.id) :
      PoolStep limit p (.filling packet cb) p (some (.checking cb'))
  | giveUp (p : Pool) (packet : List Byte) (cb cb' : CapBuffer) (hid : cb'.id = cb.id)
      (hskb : cb'.skb = none) : PoolStep limit p (.filling packet cb) p (some (.freeing cb'))
  | check (p : Pool) (cb : CapBuffer) : PoolStep limit p (.checking cb) p (some (.queueing cb))
  | drop (p : Pool) (cb : CapBuffer) (hlimit : limit ≠ 0) :
      PoolStep limit p (.checking cb) p none
  | queue (p : Pool) (cb cb' : CapBuffer) (hid : cb'.id = cb.id) (hskb : cb'.skb = none) :
      PoolStep limit p (.queueing cb) p (some (.freeing cb'))
  | put (cb : CapBuffer) (l : List CapBuffer) (n : Int) (a : Nat) (f : List Nat)
      (hroom : n < capMaxfree) :
      PoolStep limit ⟨l, n, a, f⟩ (.freeing cb) ⟨cb :: l, n + 1, a, f⟩ none
  | kfree (cb : CapBuffer) (l : List CapBuffer) (n : Int) (a : Nat) (f : List Nat)
      (hfull : capMaxfree ≤ n) :
      PoolStep limit ⟨l, n, a, f⟩ (.freeing cb) ⟨l, n, a, cb.id :: f⟩ none
  | dead (p : Pool) : PoolStep limit p .oopsed p (some .oopsed)

/-- `cap_rate_check` neither changes the limit nor refuses without one. -/
theorem capRateCheck_limit (now : BitVec 64) (r : RateState) :
    (capRateCheck now r).1.capRateLimit = r.capRateLimit ∧
      ((capRateCheck now r).2 = 0 → r.capRateLimit ≠ 0) := by
  unfold capRateCheck
  split
  case isTrue => exact ⟨rfl, fun h => absurd h one_ne_zero⟩
  case isFalse hne =>
    refine ⟨?_, fun _ => hne⟩
    dsimp only
    split
    · rfl
    · split <;> rfl

/-- Every step of a hook execution is a `PoolStep`, and none changes the limit. -/
theorem hookStep_poolStep (env : HookEnv) (g : Cap) (pc : HookPc) :
    PoolStep g.rate.capRateLimit g.pool pc (hookStep env g pc).1.pool (hookStep env g pc).2 ∧
      (hookStep env g pc).1.rate.capRateLimit = g.rate.capRateLimit := by
  obtain ⟨hlimit, hrefuse⟩ := capRateCheck_limit env.jiffies g.rate
  have hmove := hookStep_moves env g pc
  generalize hookStep env g pc = r at hmove
  cases hmove with
  | pass packet => exact ⟨.pass _ packet, rfl⟩
  | enter packet _ => exact ⟨.enter _ packet, rfl⟩
  | pop packet hlist =>
      rw [Cap.pool, hlist]
      exact ⟨.pop _ _ _ _ _ packet, rfl⟩
  | miss packet hlist =>
      rw [Cap.pool, hlist]
      exact ⟨.miss _ _ _ packet, rfl⟩
  | malloc packet => exact ⟨.malloc _ _ _ _ packet, rfl⟩
  | oops packet => exact ⟨.oops _ packet, rfl⟩
  | build packet cb _ _ _ => exact ⟨.fill _ packet cb _ rfl, rfl⟩
  | noSkb packet cb => exact ⟨.giveUp _ packet cb _ rfl rfl, rfl⟩
  | noRoom packet cb _ => exact ⟨.giveUp _ packet cb _ rfl rfl, rfl⟩
  | refuse cb hrate => exact ⟨.drop _ cb (hrefuse hrate), hlimit⟩
  | check cb => exact ⟨.check _ cb, hlimit⟩
  | queueNone cb hskb => exact ⟨.queue _ cb cb rfl hskb, rfl⟩
  | queue cb _ => exact ⟨.queue _ cb _ rfl rfl, rfl⟩
  | kfree cb hfull => exact ⟨.kfree cb _ _ _ _ hfull, rfl⟩
  | put cb hroom => exact ⟨.put cb _ _ _ _ hroom, rfl⟩
  | dead => exact ⟨.dead _, rfl⟩

/-! ## One step of the pool -/

def Pool.ids (p : Pool) : Multiset Nat := (p.freelist.map (·.id) : List Nat) + (p.freed : List Nat)

def HookPc.heldIds (pc : HookPc) : Multiset Nat := (pc.held.map (·.id) : List Nat)

/-- Without a rate limit no buffer gets lost or doubled, and a new one is new. -/
theorem PoolStep.ids_eq {p p' : Pool} {pc : HookPc} {next : Option HookPc}
    (h : PoolStep 0 p pc p' next) :
    (p'.allocs = p.allocs ∧
      p'.ids + total HookPc.heldIds next.toList = p.ids + pc.heldIds) ∨
    (p'.allocs = p.allocs + 1 ∧
      p'.ids + total HookPc.heldIds next.toList = p.allocs ::ₘ (p.ids + pc.heldIds)) := by
  -- a single buffer is put in front of the others
  have hone : ∀ (m : Multiset Nat) (x : Nat), m + {x} = x ::ₘ m := by
    intro m x
    rw [add_comm, Multiset.singleton_add]
  cases h with
  | malloc l n a f packet =>
      refine Or.inr ⟨rfl, ?_⟩
      simp [Pool.ids, HookPc.heldIds, HookPc.held, hone, -Multiset.cons_coe,
        ← Multiset.cons_coe]
  | drop _ _ hlimit => exact absurd rfl hlimit
  | _ =>
      -- the buffer changes hands, or stays where it is
      refine Or.inl ⟨rfl, ?_⟩
      simp [Pool.ids, HookPc.heldIds, HookPc.held, -Multiset.cons_coe, ← Multiset.cons_coe, *]

/-- What the freelist looks like between the critical sections. -/
structure Pool.Tidy (p : Pool) : Prop where
  count : p.count = p.freelist.length
  bound : p.count ≤ capMaxfree
  clean : ∀ cb ∈ p.freelist, cb.skb = none

theorem PoolStep.tidy {limit : BitVec 32} {p p' : Pool} {pc : HookPc} {next : Option HookPc}
    (h : PoolStep limit p pc p' next) (hp : p.Tidy) (hpc : pc.Clean) :
    p'.Tidy ∧ ∀ pc' ∈ next, pc'.Clean := by
  obtain ⟨hcount, hbound, hclean⟩ := hp
  cases h with
  | pop cb l n a f packet =>
      simp only [List.length_cons] at hcount hbound
      refine ⟨⟨?_, ?_, fun b hb => hclean b (List.mem_cons_of_mem _ hb)⟩, by simp [HookPc.Clean]⟩
      · show n - 1 = (l.length : Int)
        omega
      · show n - 1 ≤ capMaxfree
        omega
  | put cb l n a f hroom =>
      simp only at hcount
      refine ⟨⟨?_, ?_, ?_⟩, by simp⟩
      · simp only [List.length_cons]
        omega
      · show n + 1 ≤ capMaxfree
        omega
      · intro b hb
        rcases List.mem_cons.mp hb with rfl | hin
        · exact hpc
        · exact hclean b hin
  | giveUp _ packet cb cb' hid hskb => exact ⟨⟨hcount, hbound, hclean⟩, by simpa [HookPc.Clean]⟩
  | queue _ cb cb' hid hskb => exact ⟨⟨hcount, hbound, hclean⟩, by simpa [HookPc.Clean]⟩
  | _ => exact ⟨⟨hcount, hbound, hclean⟩, by simp [HookPc.Clean]⟩

/-- A step makes no more claims than it finds, except that of an execution which
    finds the freelist empty. -/
theorem PoolStep.claims_le {limit : BitVec 32} {p p' : Pool} {pc : HookPc} {next : Option HookPc}
    (h : PoolStep limit p pc p' next) :
    p'.freelist.length + total HookPc.claims next.toList ≤ p.freelist.length + pc.claims ∨
      p'.freelist = [] := by
  cases h with
  -- this is where the claim of the execution is new
  | miss n a f packet => exact Or.inr rfl
  | _ =>
      refine Or.inl ?_
      simp [HookPc.claims]

/-! ## The pool along a run -/

theorem total_putHook {M : Type _} [AddCommMonoid M] (f : HookPc → M) {hooks : List HookPc}
    {i : Nat} {pc : HookPc} (h : hooks[i]? = some pc) (next : Option HookPc) :
    total f (putHook hooks i next) = total f next.toList + total f (hooks.eraseIdx i) := by
  cases next with
  | none => simp [putHook]
  | some pc' =>
      rw [Option.toList_some, total_singleton]
      exact total_set f h pc'

theorem kcapdStep_pool (err : Int) (g : Cap) (pc : KcapdPc) :
    (kcapdStep err g pc).1.pool = g.pool ∧ (kcapdStep err g pc).1.rate = g.rate := by
  cases pc with
  | idle =>
      simp only [kcapdStep]
      split <;> exact ⟨rfl, rfl⟩
  | holding skb =>
      simp only [kcapdStep]
      split
      · split <;> exact ⟨rfl, rfl⟩
      · exact ⟨rfl, rfl⟩
  | refused skb => exact ⟨rfl, rfl⟩
  | bug => exact ⟨rfl, rfl⟩

/-- What an event can do to the pool and the hook executions: nothing, start an
    execution, or advance one. -/
theorem sysStep_pool (s : Sys) (e : SysEvent) :
    (sysStep s e).g.rate.capRateLimit = s.g.rate.capRateLimit ∧
    (((sysStep s e).g.pool = s.g.pool ∧ (sysStep s e).hooks = s.hooks) ∨
      ((sysStep s e).g.pool = s.g.pool ∧
        ∃ packet, (sysStep s e).hooks = s.hooks ++ [.entered packet]) ∨
      ∃ i pc next, s.hooks[i]? = some pc ∧
        PoolStep s.g.rate.capRateLimit s.g.pool pc (sysStep s e).g.pool next ∧
        (sysStep s e).hooks = putHook s.hooks i next) := by
  cases e with
  | client kt h => exact ⟨rfl, Or.inl ⟨rfl, rfl⟩⟩
  | hookEnter packet => exact ⟨rfl, Or.inr (Or.inl ⟨rfl, packet, rfl⟩)⟩
  | hook i env =>
      cases hpc : s.hooks[i]? with
      | none => simp only [sysStep, hpc, true_and, true_or]
      | some pc =>
          obtain ⟨hstep, hrate⟩ := hookStep_poolStep env s.g pc
          simp only [sysStep, hpc]
          exact ⟨hrate, Or.inr (Or.inr ⟨i, pc, _, hpc, hstep, rfl⟩)⟩
  | kcapd i err =>
      cases hpc : s.kcapd[i]? with
      | none => simp only [sysStep, hpc, true_and, true_or]
      | some pc =>
          obtain ⟨hpool, hrate⟩ := kcapdStep_pool err s.g pc
          simp only [sysStep, hpc]
          exact ⟨congrArg RateState.capRateLimit hrate, Or.inl ⟨hpool, trivial⟩⟩

/-- The pool and the executions in progress, of which there have been at most
    `peak` at a time. -/
structure Pooled (s : Sys) (peak : Nat) : Prop where
  limit : s.g.rate.capRateLimit = 0
  tidy : s.g.pool.Tidy
  clean : ∀ pc ∈ s.hooks, pc.Clean
  ids : s.g.pool.ids + total HookPc.heldIds s.hooks = Multiset.range s.g.pool.allocs
  claims : s.g.pool.freelist.length + total HookPc.claims s.hooks ≤ peak
  inProgress : s.hooks.length ≤ peak

theorem pooled_sysStart {rate : RateState} (h : rate.capRateLimit = 0) :
    Pooled (sysStart rate) 0 where
  limit := h
  tidy := ⟨rfl, show (0 : Int) ≤ capMaxfree by decide, by simp [sysStart, Cap.pool]⟩
  clean := by simp [sysStart]
  ids := rfl
  claims := le_refl 0
  inProgress := le_refl 0

/-- A hook step, given that the executions after it are at most `peak`. -/
theorem Pooled.advance {s s' : Sys} {peak : Nat} (hs : Pooled s peak)
    (hlimit : s'.g.rate.capRateLimit = s.g.rate.capRateLimit) {i : Nat} {pc : HookPc}
    {next : Option HookPc} (hpc : s.hooks[i]? = some pc)
    (hstep : PoolStep s.g.rate.capRateLimit s.g.pool pc s'.g.pool next)
    (hhooks : s'.hooks = putHook s.hooks i next) (hpeak : s'.hooks.length ≤ peak) :
    Pooled s' peak := by
  rw [hs.limit] at hstep
  have hmem : pc ∈ s.hooks := List.mem_of_getElem? hpc
  obtain ⟨htidy, hclean⟩ := hstep.tidy hs.tidy (hs.clean pc hmem)
  refine ⟨hlimit.trans hs.limit, htidy, ?_, ?_, ?_, hpeak⟩
  · intro pc' hmem'
    rw [hhooks] at hmem'
    rcases mem_putHook hmem' with hold | hnew
    · exact hs.clean pc' hold
    · exact hclean pc' hnew
  · have hids := hs.ids
    rw [total_of_getElem? HookPc.heldIds hpc, ← add_assoc] at hids
    rw [hhooks, total_putHook HookPc.heldIds hpc, ← add_assoc]
    -- the other executions are on both sides of the account
    rcases hstep.ids_eq with ⟨hallocs, heq⟩ | ⟨hallocs, heq⟩
    · rw [heq, hids, hallocs]
    · rw [heq, Multiset.cons_add, hids, hallocs, Multiset.range_succ]
  · have hclaims := hs.claims
    rw [total_of_getElem? HookPc.claims hpc] at hclaims
    rcases hstep.claims_le with hle | hempty
    · rw [hhooks, total_putHook HookPc.claims hpc]
      omega
    · -- the list is empty, so the claims are those of the executions in progress
      have hone : ∀ pc : HookPc, pc.claims ≤ 1 := by
        intro pc
        cases pc <;> simp [HookPc.claims]
      have hle := total_le_length hone s'.hooks
      rw [hempty, List.length_nil]
      omega

/-- The system with the largest number of executions that were in progress at
    one time. -/
def peakStep (sp : Sys × Nat) (e : SysEvent) : Sys × Nat :=
  (sysStep sp.1 e, max sp.2 (sysStep sp.1 e).hooks.length)

theorem Pooled.mono {s : Sys} {peak peak' : Nat} (h : Pooled s peak) (hle : peak ≤ peak') :
    Pooled s peak' :=
  { h with claims := h.claims.trans hle, inProgress := h.inProgress.trans hle }

theorem pooled_peakStep {sp : Sys × Nat} (e : SysEvent) (h : Pooled sp.1 sp.2) :
    Pooled (peakStep sp e).1 (peakStep sp e).2 := by
  have hs : Pooled sp.1 (peakStep sp e).2 := h.mono (le_max_left _ _)
  have hpeak : (sysStep sp.1 e).hooks.length ≤ (peakStep sp e).2 := le_max_right _ _
  show Pooled (sysStep sp.1 e) (peakStep sp e).2
  obtain ⟨hlimit, ⟨hpool, hhooks⟩ | ⟨hpool, packet, hhooks⟩ | ⟨i, pc, next, hpc, hstep, hhooks⟩⟩ :=
    sysStep_pool sp.1 e
  · refine ⟨hlimit.trans hs.limit, ?_, ?_, ?_, ?_, hpeak⟩
    · exact hpool ▸ hs.tidy
    · exact hhooks ▸ hs.clean
    · rw [hpool, hhooks]
      exact hs.ids
    · rw [hpool, hhooks]
      exact hs.claims
  · -- an execution that has just been entered claims nothing
    refine ⟨hlimit.trans hs.limit, ?_, ?_, ?_, ?_, hpeak⟩
    · exact hpool ▸ hs.tidy
    · intro pc hmem
      rw [hhooks] at hmem
      rcases List.mem_append.mp hmem with hold | hnew
      · exact hs.clean pc hold
      · obtain rfl := List.mem_singleton.mp hnew
        trivial
    · have hnone : (HookPc.entered packet).heldIds = 0 := rfl
      rw [hpool, hhooks, total_append, total_singleton, hnone, add_zero]
      exact hs.ids
    · rw [hpool, hhooks, total_append, total_singleton]
      exact hs.claims
  · exact hs.advance hlimit hpc hstep hhooks hpeak

/-- The buffers held by hook executions. -/
def Sys.heldBuffers (s : Sys) : List CapBuffer := s.hooks.flatMap HookPc.held

theorem Sys.length_heldBuffers_le (s : Sys) :
    s.heldBuffers.length ≤ total HookPc.claims s.hooks := by
  have hone : ∀ pc : HookPc, pc.held.length ≤ pc.claims := by
    intro pc
    cases pc <;> simp [HookPc.held, HookPc.claims]
  rw [heldBuffers, List.length_flatMap]
  exact List.sum_le_sum fun pc _ => hone pc

theorem Sys.coe_heldBuffers (s : Sys) :
    ((s.heldBuffers.map (·.id) : List Nat) : Multiset Nat) = total HookPc.heldIds s.hooks := by
  rw [heldBuffers, List.map_flatMap, ← total_coe]
  rfl

/-- No buffer is in two places. -/
theorem Pooled.nodup {s : Sys} {peak : Nat} (h : Pooled s peak) :
    ((s.g.capFreelist ++ s.heldBuffers).map (·.id)).Nodup := by
  rw [← Multiset.coe_nodup, List.map_append, ← Multiset.coe_add, s.coe_heldBuffers]
  -- together with the freed ones they are the numbers below `allocs`, each once
  have hle : ((s.g.capFreelist.map (·.id) : List Nat) : Multiset Nat) +
      total HookPc.heldIds s.hooks ≤ Multiset.range s.g.pool.allocs := by
    rw [← h.ids]
    exact add_le_add_left (Multiset.le_add_right _ _) _
  exact Multiset.nodup_of_le hle (Multiset.nodup_range _)

/-- Without a rate limit, in every state of every run: `cap_freelist_count` is
    the length of the freelist and at most `CAP_MAXFREE`, no buffer is listed
    twice or both listed and held, listed buffers have no skb, and there are no
    more buffers than there ever were hook executions at one time. -/
theorem freelist_accounts_for_buffers {rate : RateState} (hrate : rate.capRateLimit = 0)
    (events : List SysEvent) :
    Along peakStep
      (fun sp => sp.1.g.capFreelistCount = sp.1.g.capFreelist.length ∧
        sp.1.g.capFreelistCount ≤ capMaxfree ∧
        ((sp.1.g.capFreelist ++ sp.1.heldBuffers).map (·.id)).Nodup ∧
        (∀ cb ∈ sp.1.g.capFreelist, cb.skb = none) ∧
        (sp.1.g.capFreelist ++ sp.1.heldBuffers).length ≤ sp.2)
      (sysStart rate, 0) events := by
  have hpooled : Along peakStep (fun sp => Pooled sp.1 sp.2) (sysStart rate, 0) events :=
    along_of_step (fun sp e _ => pooled_peakStep e) (pooled_sysStart hrate)
      (guarded_of_forall fun _ _ _ => trivial)
  refine hpooled.mono fun sp h => ⟨h.tidy.count, h.tidy.bound, h.nodup, h.tidy.clean, ?_⟩
  have hclaims := h.claims
  have hheld := sp.1.length_heldBuffers_le
  rw [List.length_append]
  show sp.1.g.pool.freelist.length + sp.1.heldBuffers.length ≤ sp.2
  omega

/-- Two captures at a time leave two buffers on the list. -/
theorem freelist_two_captures :
    noLimit.capRateLimit = 0 ∧
      (let sp := run peakStep (sysStart noLimit, 0)
        ([.client (.task 1) (capMsg 0 7), .hookEnter [1], .hookEnter [2]] ++
          (List.replicate 7 [.hook 1 calmEnv, .hook 0 calmEnv]).flatten)
       sp.1.g.capFreelistCount = sp.1.g.capFreelist.length ∧
         sp.1.g.capFreelist.length = 2 ∧ sp.2 = 2) := by
  refine ⟨rfl, ?_, by decide +kernel, by decide +kernel⟩
  exact (freelist_accounts_for_buffers rfl _).last.1

end LinuxModules.Netlink
