/-
  LinuxModules.Netlink.Throughput

  How many calls of `cap_rate_check` return 1 over a long stretch of a run.

  A window may see more than `cap_rate_limit` of them (`RateLimit`), but in the
  long run the limiter holds: between two resets lie more than `HZ` ticks, and
  after a reset at most `cap_rate_limit - 1` calls pass without looking at the
  clock.  The calls that passed and those still free to pass are together a
  potential that only resets raise.
-/

import LinuxModules.Netlink.RateLimit

namespace LinuxModules.Netlink

open LinuxModules.Lib LinuxModules.Net

/-- A call with what it returns. -/
def rateCall (s : RateRun) (d : Nat) : RateRun × Int :=
  (rateStep s d, (capRateCheck (BitVec.ofNat 64 (s.now + d)) s.rate).2)

/-- The number of calls that return 1. -/
def passes (s : RateRun) (part : List Nat) : Nat := (outputs rateCall s part).count 1

/-- The calls that return 1 are those in the log. -/
theorem passes_add (s : RateRun) (part : List Nat) :
    passes s part + s.passed.length = (run rateStep s part).passed.length := by
  induction part generalizing s with
  | nil => exact Nat.zero_add _
  | cons d part ih =>
      have hrest : passes (rateStep s d) part + (rateStep s d).passed.length =
          (run rateStep s (d :: part)).passed.length := ih (rateStep s d)
      have hcount : passes s (d :: part) = passes (rateStep s d) part +
          if (capRateCheck (BitVec.ofNat 64 (s.now + d)) s.rate).2 = 1 then 1 else 0 := by
        rw [passes, outputs, List.count_cons, passes]
        simp only [rateCall, beq_iff_eq]
      have hlog : (rateStep s d).passed.length = s.passed.length +
          if (capRateCheck (BitVec.ofNat 64 (s.now + d)) s.rate).2 = 1 then 1 else 0 := by
        simp only [rateStep]
        split <;> rfl
      omega

/-! ## From one reset to the next -/

/-- A reset makes up for its period: a later start fits one period less. -/
theorem periods_succ_le {t now stop hz : Nat} (hreset : t + hz < now) (hstop : now ≤ stop) :
    (stop - now) / (hz + 1) + 1 ≤ (stop - t) / (hz + 1) := by
  rw [← Nat.add_div_right _ (Nat.succ_pos hz)]
  apply Nat.div_le_div_right
  omega

variable {limit : BitVec 32} {hz : BitVec 64}

/-- The calls that passed, and those that may still pass before the next reset. -/
def RateRun.potential (s : RateRun) : Nat :=
  s.passed.length + (s.rate.capRateLimit.toNat - 1 - s.rate.packets.toNat)

/-- A call leaves the potential alone, or is a reset: then more than `HZ` ticks
    have passed since the last one, and the potential rises by a period. -/
theorem potential_rateStep (hlimit : limit ≠ 0) {s : RateRun} {d : Nat} {rest : List Nat}
    (h : Limiting limit hz s (d :: rest)) :
    ((rateStep s d).potential = s.potential ∧ (rateStep s d).rate.lastCheck = s.rate.lastCheck) ∨
    ((rateStep s d).potential ≤ s.potential + limit.toNat ∧
      (rateStep s d).rate.lastCheck = BitVec.ofNat 64 (s.now + d) ∧
      ∀ t ≤ s.now, s.rate.lastCheck = BitVec.ofNat 64 t → t + hz.toNat < s.now + d) := by
  have hne : s.rate.capRateLimit ≠ 0 := by rw [h.limit_eq]; exact hlimit
  have hsucc := h.packets_succ
  have hzero : (0 : BitVec 32).toNat = 0 := rfl
  have hpos : s.rate.capRateLimit.toNat ≠ 0 := fun h0 => hne (BitVec.eq_of_toNat_eq h0)
  unfold RateRun.potential
  rcases rateStep_cases d hne with ⟨hbelow, heq⟩ | ⟨-, hlate, heq⟩ | ⟨habove, heq⟩
  · refine Or.inl ⟨?_, by rw [heq]⟩
    rw [heq, List.length_cons]
    simp only
    omega
  · refine Or.inr ⟨?_, by rw [heq], fun t ht hlast => ?_⟩
    · rw [heq, List.length_cons, ← h.limit_eq]
      simp only
      omega
    · have helapsed := toNat_elapsed_le (ht.trans (Nat.le_add_right s.now d))
      rw [hlast, h.hz_eq] at hlate
      omega
  · refine Or.inl ⟨?_, by rw [heq]⟩
    rw [heq]
    simp only
    omega

/-- With the last reset at `t`, the potential rises by a period for each reset
    that fits between `t` and the end. -/
theorem potential_le_of_last (hlimit : limit ≠ 0) {s : RateRun} {part : List Nat} {t : Nat}
    (h : Limiting limit hz s part) (ht : t ≤ s.now)
    (hlast : s.rate.lastCheck = BitVec.ofNat 64 t) :
    (run rateStep s part).potential ≤
      s.potential + limit.toNat * ((s.now + part.sum - t) / (hz.toNat + 1)) := by
  induction part generalizing s t with
  | nil => exact Nat.le_add_right _ _
  | cons d part ih =>
      have hnext := limiting_rateStep hlimit h
      show (run rateStep (rateStep s d) part).potential ≤ _
      rw [List.sum_cons, ← Nat.add_assoc]
      rcases potential_rateStep hlimit h with ⟨hpot, hcheck⟩ | ⟨hpot, hcheck, hreset⟩
      · have hrest := ih hnext (ht.trans (Nat.le_add_right s.now d)) (hcheck.trans hlast)
        rw [hpot] at hrest
        exact hrest
      · have hrest := ih hnext (Nat.le_refl _) hcheck
        have hperiod := periods_succ_le (hreset t ht hlast) (Nat.le_add_right _ part.sum)
        have hmul := Nat.mul_le_mul_left limit.toNat hperiod
        rw [Nat.mul_succ] at hmul
        have hnow : (rateStep s d).now = s.now + d := rfl
        rw [hnow] at hrest
        omega

/-- Without knowing the last reset: the first one of the stretch comes at `first`
    or later. -/
theorem potential_le_of_first (hlimit : limit ≠ 0) {s : RateRun} {part : List Nat} {first : Nat}
    (h : Limiting limit hz s part) (hfirst : ∀ d ∈ part.head?, first ≤ s.now + d) :
    (run rateStep s part).potential ≤
      s.potential + limit.toNat * ((s.now + part.sum - first) / (hz.toNat + 1) + 1) := by
  induction part generalizing s with
  | nil => exact Nat.le_add_right _ _
  | cons d part ih =>
      have hnext := limiting_rateStep hlimit h
      have hle : first ≤ s.now + d := hfirst d rfl
      have hnow : (rateStep s d).now = s.now + d := rfl
      show (run rateStep (rateStep s d) part).potential ≤ _
      rw [List.sum_cons, ← Nat.add_assoc]
      rcases potential_rateStep hlimit h with ⟨hpot, -⟩ | ⟨hpot, hcheck, -⟩
      · have hrest := ih hnext fun d' _ => hle.trans (Nat.le_add_right _ d')
        rw [hpot] at hrest
        exact hrest
      · -- from here on the last reset is known
        have hrest := potential_le_of_last hlimit hnext (Nat.le_refl _) hcheck
        have hspan : (s.now + d + part.sum - (s.now + d)) / (hz.toNat + 1) ≤
            (s.now + d + part.sum - first) / (hz.toNat + 1) :=
          Nat.div_le_div_right (Nat.sub_le_sub_left hle _)
        have hmul := Nat.mul_le_mul_left limit.toNat hspan
        rw [hnow] at hrest
        rw [Nat.mul_succ]
        omega

/-- Every state of a run of fewer than `2 ^ 31` calls keeps `Limiting` for the
    calls still to come. -/
theorem limiting_run (hlimit : limit ≠ 0) {s : RateRun} {pre rest : List Nat}
    (h : Limiting limit hz s (pre ++ rest)) : Limiting limit hz (run rateStep s pre) rest := by
  induction pre generalizing s with
  | nil => exact h
  | cons d pre ih => exact ih (limiting_rateStep hlimit h)

theorem limiting_append_left {s : RateRun} {part post : List Nat}
    (h : Limiting limit hz s (part ++ post)) : Limiting limit hz s part := by
  have hfew := h.few
  rw [List.length_append] at hfew
  exact { h with few := by omega }

/-- In every part of a run of fewer than `2 ^ 31` calls at nondecreasing times,
    with at most `span` ticks from its first call to its last, at most
    `cap_rate_limit` calls for each period of `HZ + 1` ticks begun and
    `cap_rate_limit - 1` more return 1. -/
theorem rate_throughput (hlimit : limit ≠ 0) (hz : BitVec 64) (now : Nat)
    (pre part post : List Nat) (hfew : (pre ++ part ++ post).length < 2 ^ 31) (span : Nat)
    (hspan : part.tail.sum ≤ span) :
    passes (run rateStep (rateStart limit hz now) pre) part ≤
      limit.toNat * (span / (hz.toNat + 1) + 1) + (limit.toNat - 1) := by
  rw [List.append_assoc] at hfew
  have h : Limiting limit hz (run rateStep (rateStart limit hz now) pre) part :=
    limiting_append_left (limiting_run hlimit (limiting_rateStart limit hz now hfew))
  generalize run rateStep (rateStart limit hz now) pre = s at h
  cases part with
  | nil => exact Nat.zero_le _
  | cons d part =>
      have hlog := passes_add s (d :: part)
      have hfirst : ∀ d' ∈ (d :: part).head?, s.now + d ≤ s.now + d' := by
        intro d' hd'
        obtain rfl : d = d' := Option.some.inj hd'
        exact Nat.le_refl _
      have hbound := potential_le_of_first hlimit h hfirst
      -- from the first call to the last
      have hdiff : s.now + (d :: part).sum - (s.now + d) = part.sum := by
        rw [List.sum_cons]
        omega
      have hdiv : part.sum / (hz.toNat + 1) + 1 ≤ span / (hz.toNat + 1) + 1 :=
        Nat.succ_le_succ (Nat.div_le_div_right hspan)
      have hmul := Nat.mul_le_mul_left limit.toNat hdiv
      rw [hdiff] at hbound
      -- at the start of the part at most `limit - 1` calls are left of a period
      simp only [RateRun.potential, h.limit_eq] at hbound
      omega

/-- A limit of 2 with `HZ = 100`: of the calls after the first, four lie within
    a span of 0 ticks. -/
theorem rate_throughput_burst : (2 : BitVec 32) ≠ 0 ∧
    passes (run rateStep (rateStart 2 100 (2 ^ 32)) [0]) [0, 0, 0, 0] ≤ 3 ∧
    passes (rateStart 2 100 (2 ^ 32)) [0, 0, 0, 0] = 3 := by
  refine ⟨by decide, ?_, by decide⟩
  exact rate_throughput (by decide) 100 (2 ^ 32) [0] [0, 0, 0, 0] [] (by decide) 0 (by decide)

end LinuxModules.Netlink
