/-
  LinuxModules.Kprobe.Init

  Registration of the probes of `kprobe.c`.

  `kprobe_init` registers `kp`, `kp0` and the entries of `debug_kprobe`, and
  leaves by a different exit when each of the three fails.  Only the last exit
  undoes anything, and it undoes only table entries.  `jprobe_init` is that last
  stage alone, over `debug_jprobe`.

  `probe_init` ignores the results of both, so that the module stays loaded, and
  `probe_exit` then unregisters whatever is there.
-/

import Mathlib.Data.Finset.Insert
import Mathlib.Data.Finset.Erase
import Mathlib.Data.List.TakeWhile

namespace LinuxModules.Kprobe

/-- The probes of the module; `debug i` and `jprobe i` are table entries. -/
inductive Probe where
  | kp
  | kp0
  | debug (i : Nat)
  | jprobe (i : Nat)
  deriving DecidableEq, Repr

/-- The probes that are registered. -/
abbrev Registered := Finset Probe

/-- `register_kprobe` and `register_jprobe`, returning `ret`. -/
def registerProbe (p : Probe) (ret : Int) (s : Registered) : Registered :=
  if ret < 0 then s else insert p s

/-- `unregister_kprobe` and `unregister_jprobe`: no effect on a probe that is not
    registered. -/
def unregisterProbe (p : Probe) (s : Registered) : Registered := s.erase p

/-- The loop over a table from entry `i` on: the calls return `rets`, until one
    of them fails.  With the index and the result of that one. -/
def registerTable (entry : Nat → Probe) :
    Nat → List Int → Registered → Registered × Option (Nat × Int)
  | _, [], s => (s, none)
  | i, ret :: rets, s =>
      let s := registerProbe (entry i) ret s
      if ret < 0 then (s, some (i, ret)) else registerTable entry (i + 1) rets s

/-- `for (j = 0; j < i; j++)`, unregistering entry `j`. -/
def unregisterTable (entry : Nat → Probe) (i : Nat) (s : Registered) : Registered :=
  (List.range i).foldl (fun s j => unregisterProbe (entry j) s) s

/-- What the calls of `register_kprobe` return, with one result for each entry of
    `debug_kprobe`.  A call that is not reached has no effect. -/
structure KprobeRets where
  kp : Int
  kp0 : Int
  table : List Int

def kprobeInit (o : KprobeRets) (s : Registered) : Registered × Int :=
  let s := registerProbe .kp o.kp s
  if o.kp < 0 then (s, o.kp)
  else
    let s := registerProbe .kp0 o.kp0 s
    if o.kp0 < 0 then (s, o.kp0)
    else
      match registerTable .debug 0 o.table s with
      | (s, none) => (s, 0)
      | (s, some (i, ret)) => (unregisterTable .debug i s, ret)

def jprobeInit (rets : List Int) (s : Registered) : Registered × Int :=
  match registerTable .jprobe 0 rets s with
  | (s, none) => (s, 0)
  | (s, some (i, _)) => (unregisterTable .jprobe i s, -1)

/-- `kprobe_exit` for a table of `n` entries. -/
def kprobeExit (n : Nat) (s : Registered) : Registered :=
  unregisterTable .debug n (unregisterProbe .kp0 (unregisterProbe .kp s))

def jprobeExit (n : Nat) (s : Registered) : Registered := unregisterTable .jprobe n s

def probeInit (o : KprobeRets) (rets : List Int) (s : Registered) : Registered × Int :=
  let s := (kprobeInit o s).1
  let s := (jprobeInit rets s).1
  (s, 0)

def probeExit (kprobes jprobes : Nat) (s : Registered) : Registered :=
  jprobeExit jprobes (kprobeExit kprobes s)

/-! ## The loops -/

/-- How many calls succeed before one fails. -/
def planted (rets : List Int) : Nat := (rets.takeWhile fun r => decide (0 ≤ r)).length

theorem planted_cons_of_neg {ret : Int} (rets : List Int) (hret : ret < 0) :
    planted (ret :: rets) = 0 := by
  rw [planted, List.takeWhile_cons_of_neg (by simpa using hret), List.length_nil]

theorem planted_cons_of_nonneg {ret : Int} (rets : List Int) (hret : ¬ ret < 0) :
    planted (ret :: rets) = planted rets + 1 := by
  rw [planted, List.takeWhile_cons_of_pos (by simpa using hret), List.length_cons, planted]

section

variable (entry : Nat → Probe)

theorem mem_unregisterTable {i : Nat} {s : Registered} {p : Probe} :
    p ∈ unregisterTable entry i s ↔ p ∈ s ∧ ∀ j < i, p ≠ entry j := by
  induction i with
  | zero => simp [unregisterTable]
  | succ i ih =>
      have hstep : unregisterTable entry (i + 1) s =
          unregisterProbe (entry i) (unregisterTable entry i s) := by
        rw [unregisterTable, List.range_succ, List.foldl_append]
        rfl
      rw [hstep, unregisterProbe, Finset.mem_erase, ih, Nat.forall_lt_succ_right]
      exact ⟨fun h => ⟨h.2.1, h.2.2, h.1⟩, fun h => ⟨h.2.2, h.1, h.2.1⟩⟩

/-- What the loop has registered when it ends, either way. -/
theorem mem_registerTable {i : Nat} {rets : List Int} {s : Registered} {p : Probe} :
    p ∈ (registerTable entry i rets s).1 ↔
      p ∈ s ∨ ∃ j, i ≤ j ∧ j < i + planted rets ∧ p = entry j := by
  induction rets generalizing i s with
  | nil =>
      refine ⟨Or.inl, ?_⟩
      rintro (h | ⟨j, hle, hlt, -⟩)
      · exact h
      · exact absurd hlt (Nat.not_lt.mpr hle)
  | cons ret rets ih =>
      by_cases hret : ret < 0
      · simp only [registerTable, registerProbe, if_pos hret, planted_cons_of_neg rets hret]
        refine ⟨Or.inl, ?_⟩
        rintro (h | ⟨j, hle, hlt, -⟩)
        · exact h
        · omega
      · simp only [registerTable, registerProbe, if_neg hret, planted_cons_of_nonneg rets hret, ih,
          Finset.mem_insert]
        constructor
        · rintro ((rfl | h) | ⟨j, hle, hlt, rfl⟩)
          · exact Or.inr ⟨i, Nat.le_refl i, by omega, rfl⟩
          · exact Or.inl h
          · exact Or.inr ⟨j, by omega, by omega, rfl⟩
        · rintro (h | ⟨j, hle, hlt, rfl⟩)
          · exact Or.inl (Or.inr h)
          · rcases Nat.eq_or_lt_of_le hle with rfl | hlt'
            · exact Or.inl (Or.inl rfl)
            · exact Or.inr ⟨j, hlt', by omega, rfl⟩

/-- The loop ends early exactly if some call fails. -/
theorem registerTable_snd (i : Nat) (rets : List Int) (s : Registered) :
    ((registerTable entry i rets s).2 = none ∧ (∀ r ∈ rets, 0 ≤ r) ∧
      planted rets = rets.length) ∨
    ∃ ret, (registerTable entry i rets s).2 = some (i + planted rets, ret) ∧ ret < 0 ∧ ret ∈ rets := by
  induction rets generalizing i s with
  | nil => exact Or.inl ⟨rfl, by simp, rfl⟩
  | cons ret rets ih =>
      by_cases hret : ret < 0
      · refine Or.inr ⟨ret, ?_, hret, List.mem_cons_self ..⟩
        simp only [registerTable, if_pos hret, planted_cons_of_neg rets hret, Nat.add_zero]
      · simp only [registerTable, if_neg hret, planted_cons_of_nonneg rets hret]
        rcases ih (i + 1) (registerProbe (entry i) ret s) with ⟨hend, hall, hlen⟩ | ⟨r, hend, hr, hmem⟩
        · refine Or.inl ⟨hend, ?_, by rw [hlen, List.length_cons]⟩
          rw [List.forall_mem_cons]
          exact ⟨Int.not_lt.mp hret, hall⟩
        · refine Or.inr ⟨r, ?_, hr, List.mem_cons_of_mem _ hmem⟩
          rw [hend, Nat.add_assoc, Nat.add_comm 1]

/-- A table whose calls all succeed is registered whole. -/
theorem registerTable_of_nonneg {rets : List Int} (hall : ∀ r ∈ rets, 0 ≤ r) (s : Registered) :
    ∃ s', registerTable entry 0 rets s = (s', none) ∧
      ∀ p, p ∈ s' ↔ p ∈ s ∨ ∃ j < rets.length, p = entry j := by
  rcases registerTable_snd entry 0 rets s with ⟨hend, -, hlen⟩ | ⟨ret, -, hneg, hmem⟩
  · refine ⟨_, Prod.ext rfl hend, fun p => ?_⟩
    rw [mem_registerTable, hlen]
    simp only [Nat.zero_le, true_and, Nat.zero_add]
  · exact absurd (hall ret hmem) (Int.not_le.mpr hneg)

/-- After a failure, undoing the entries before it undoes the whole loop. -/
theorem registerTable_of_neg {rets : List Int} (hfail : ¬ ∀ r ∈ rets, 0 ≤ r) (s : Registered) :
    ∃ s' i ret, registerTable entry 0 rets s = (s', some (i, ret)) ∧ ret < 0 ∧
      ∀ p, p ∈ unregisterTable entry i s' ↔ p ∈ s ∧ ∀ j < i, p ≠ entry j := by
  rcases registerTable_snd entry 0 rets s with ⟨-, hall, -⟩ | ⟨ret, hend, hneg, -⟩
  · exact absurd hall hfail
  · rw [Nat.zero_add] at hend
    refine ⟨_, planted rets, ret, Prod.ext rfl hend, hneg, fun p => ?_⟩
    rw [mem_unregisterTable, mem_registerTable, Nat.zero_add]
    constructor
    · rintro ⟨h | ⟨j, -, hj, rfl⟩, hne⟩
      · exact ⟨h, hne⟩
      · exact absurd rfl (hne j hj)
    · exact fun h => ⟨Or.inl h.1, h.2⟩

end

/-! ## All or nothing -/

/-- A result of 0 means that all of `ps` are registered, a negative one that none
    is. -/
structure AllOrNothing (ps : Set Probe) (r : Registered × Int) : Prop where
  all : r.2 = 0 → ∀ p ∈ ps, p ∈ r.1
  nothing : r.2 < 0 → ∀ p ∈ ps, p ∉ r.1

/-- The probes of `kprobe_init` for a table of `n` entries. -/
def kprobes (n : Nat) : Set Probe := {p | p = .kp ∨ p = .kp0 ∨ ∃ i < n, p = .debug i}

def jprobes (n : Nat) : Set Probe := {p | ∃ i < n, p = .jprobe i}

theorem allOrNothing_of_all {ps : Set Probe} {s : Registered} (h : ∀ p ∈ ps, p ∈ s) :
    AllOrNothing ps (s, 0) where
  all := fun _ => h
  nothing := fun h => absurd h (Int.lt_irrefl 0)

theorem allOrNothing_neg_iff {ps : Set Probe} {s : Registered} {ret : Int} (hret : ret < 0) :
    AllOrNothing ps (s, ret) ↔ ∀ p ∈ ps, p ∉ s :=
  ⟨fun h => h.nothing hret, fun h => ⟨fun h0 => absurd h0 (Int.ne_of_lt hret), fun _ => h⟩⟩

/-- `jprobe_init` undoes everything it did. -/
theorem jprobeInit_allOrNothing (rets : List Int) :
    AllOrNothing (jprobes rets.length) (jprobeInit rets ∅) := by
  by_cases hall : ∀ r ∈ rets, 0 ≤ r
  · obtain ⟨s, htable, hmem⟩ := registerTable_of_nonneg .jprobe hall ∅
    rw [jprobeInit, htable]
    exact allOrNothing_of_all fun p hp => (hmem p).mpr (Or.inr hp)
  · obtain ⟨s, i, ret, htable, -, hmem⟩ := registerTable_of_neg .jprobe hall ∅
    rw [jprobeInit, htable]
    refine (allOrNothing_neg_iff (by decide)).mpr fun p _ hp => ?_
    exact Finset.notMem_empty p ((hmem p).mp hp).1

/-- The four ways `kprobe_init` ends, and what is registered after each. -/
inductive KprobeInit (o : KprobeRets) (s : Registered) : Registered × Int → Prop
  | kp (hkp : o.kp < 0) : KprobeInit o s (s, o.kp)
  | kp0 (hkp : 0 ≤ o.kp) (hkp0 : o.kp0 < 0) : KprobeInit o s (insert .kp s, o.kp0)
  | done (hkp : 0 ≤ o.kp) (hkp0 : 0 ≤ o.kp0) (hall : ∀ r ∈ o.table, 0 ≤ r) {s' : Registered}
      (hmem : ∀ p, p ∈ s' ↔ p ∈ s ∨ p ∈ kprobes o.table.length) : KprobeInit o s (s', 0)
  | bad (hkp : 0 ≤ o.kp) (hkp0 : 0 ≤ o.kp0) (hfail : ¬ ∀ r ∈ o.table, 0 ≤ r) {s' : Registered}
      {ret : Int} (hret : ret < 0)
      (hmem : ∀ p, (∀ i, p ≠ .debug i) → (p ∈ s' ↔ p ∈ s ∨ p = .kp ∨ p = .kp0))
      (hdebug : ∀ i, .debug i ∈ s' → .debug i ∈ s) : KprobeInit o s (s', ret)

theorem kprobeInit_ends (o : KprobeRets) (s : Registered) : KprobeInit o s (kprobeInit o s) := by
  by_cases hkp : o.kp < 0
  · simp only [kprobeInit, registerProbe, if_pos hkp]
    exact .kp hkp
  by_cases hkp0 : o.kp0 < 0
  · simp only [kprobeInit, registerProbe, if_neg hkp, if_pos hkp0]
    exact .kp0 (Int.not_lt.mp hkp) hkp0
  simp only [kprobeInit, registerProbe, if_neg hkp, if_neg hkp0]
  by_cases hall : ∀ r ∈ o.table, 0 ≤ r
  · obtain ⟨s', htable, hmem⟩ := registerTable_of_nonneg .debug hall (insert .kp0 (insert .kp s))
    rw [htable]
    refine .done (Int.not_lt.mp hkp) (Int.not_lt.mp hkp0) hall fun p => ?_
    simp only [hmem, Finset.mem_insert, kprobes, Set.mem_ofPred_eq, or_assoc, or_left_comm]
  · obtain ⟨s', i, ret, htable, hneg, hmem⟩ := registerTable_of_neg .debug hall
      (insert .kp0 (insert .kp s))
    rw [htable]
    refine .bad (Int.not_lt.mp hkp) (Int.not_lt.mp hkp0) hall hneg (fun p hp => ?_) fun j hj => ?_
    · rw [hmem, Finset.mem_insert, Finset.mem_insert, and_iff_left fun j _ => hp j]
      simp only [or_assoc, or_comm, or_left_comm]
    · have hbefore := ((hmem _).mp hj).1
      rw [Finset.mem_insert, Finset.mem_insert] at hbefore
      simpa using hbefore

/-- Exactly when `kprobe_init` is all or nothing: the first registration fails,
    or none does. -/
theorem kprobeInit_allOrNothing_iff (o : KprobeRets) :
    AllOrNothing (kprobes o.table.length) (kprobeInit o ∅) ↔
      o.kp < 0 ∨ (0 ≤ o.kp0 ∧ ∀ r ∈ o.table, 0 ≤ r) := by
  have hends := kprobeInit_ends o ∅
  generalize kprobeInit o ∅ = r at hends
  have hmemKp : Probe.kp ∈ kprobes o.table.length := Or.inl rfl
  cases hends with
  | kp hkp =>
      refine iff_of_true ((allOrNothing_neg_iff hkp).mpr fun p _ => Finset.notMem_empty p) (Or.inl hkp)
  | kp0 hkp hkp0 =>
      rw [allOrNothing_neg_iff hkp0]
      refine iff_of_false (fun h => h .kp hmemKp (Finset.mem_insert_self ..)) ?_
      omega
  | done hkp hkp0 hall hmem =>
      exact iff_of_true (allOrNothing_of_all fun p hp => (hmem p).mpr (Or.inr hp))
        (Or.inr ⟨hkp0, hall⟩)
  | bad hkp hkp0 hfail hret hmem _ =>
      rw [allOrNothing_neg_iff hret]
      -- the exit at `bad` does not undo `kp`
      have hleft := (hmem .kp fun i h => by cases h).mpr (Or.inr (Or.inl rfl))
      refine iff_of_false (fun h => h .kp hmemKp hleft) ?_
      rintro (h | h)
      · omega
      · exact hfail h.2

/-- The address in the second table entry is none of this kernel's: `EINVAL`. -/
def secondEntryFails : KprobeRets := { kp := 0, kp0 := 0, table := [0, -22] }

/-- `kp` and `kp0` are left registered, with a negative result. -/
theorem kprobeInit_second_entry_fails :
    ¬ AllOrNothing (kprobes secondEntryFails.table.length) (kprobeInit secondEntryFails ∅) := by
  have hrun : kprobeInit secondEntryFails ∅ = ({.kp, .kp0}, -22) := by decide
  intro h
  exact h.nothing (by rw [hrun]; decide) .kp (Or.inl rfl) (by rw [hrun]; decide)

/-! ## Load and unload -/

theorem subset_kprobeInit {o : KprobeRets} {p : Probe} (hp : p ∈ (kprobeInit o ∅).1) :
    p ∈ kprobes o.table.length := by
  have hends := kprobeInit_ends o ∅
  generalize kprobeInit o ∅ = r at hends hp
  cases hends with
  | kp _ => exact absurd hp (Finset.notMem_empty p)
  | kp0 _ _ =>
      rw [Finset.mem_insert, or_iff_left (Finset.notMem_empty p)] at hp
      exact Or.inl hp
  | done _ _ _ hmem => exact ((hmem p).mp hp).resolve_left (Finset.notMem_empty p)
  | bad _ _ _ _ hmem hdebug =>
      by_cases hentry : ∃ i, p = .debug i
      · obtain ⟨i, rfl⟩ := hentry
        exact absurd (hdebug i hp) (Finset.notMem_empty _)
      · rcases (hmem p fun i h => hentry ⟨i, h⟩).mp hp with h | h | h
        · exact absurd h (Finset.notMem_empty p)
        · exact Or.inl h
        · exact Or.inr (Or.inl h)

/-- `jprobe_init` adds only entries of its table. -/
theorem mem_jprobeInit {rets : List Int} {s : Registered} {p : Probe}
    (hp : p ∈ (jprobeInit rets s).1) : p ∈ s ∨ p ∈ jprobes rets.length := by
  by_cases hall : ∀ r ∈ rets, 0 ≤ r
  · obtain ⟨s', htable, hmem⟩ := registerTable_of_nonneg .jprobe hall s
    rw [jprobeInit, htable] at hp
    exact (hmem p).mp hp
  · obtain ⟨s', i, ret, htable, -, hmem⟩ := registerTable_of_neg .jprobe hall s
    rw [jprobeInit, htable] at hp
    exact Or.inl ((hmem p).mp hp).1

/-- Whatever failed when the module was loaded, nothing is registered after it
    is removed. -/
theorem probeExit_probeInit (o : KprobeRets) (rets : List Int) :
    probeExit o.table.length rets.length (probeInit o rets ∅).1 = ∅ := by
  rw [Finset.eq_empty_iff_forall_notMem]
  intro p hp
  rw [probeExit, jprobeExit, kprobeExit, mem_unregisterTable, mem_unregisterTable, unregisterProbe,
    unregisterProbe, Finset.mem_erase, Finset.mem_erase] at hp
  obtain ⟨⟨⟨hkp0, hkp, hin⟩, hdebug⟩, hjprobe⟩ := hp
  rcases mem_jprobeInit hin with h | ⟨i, hi, rfl⟩
  · rcases subset_kprobeInit h with rfl | rfl | ⟨i, hi, rfl⟩
    · exact hkp rfl
    · exact hkp0 rfl
    · exact hdebug i hi rfl
  · exact hjprobe i hi rfl

end LinuxModules.Kprobe
