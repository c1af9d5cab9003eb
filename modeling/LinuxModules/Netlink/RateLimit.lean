/-
  LinuxModules.Netlink.RateLimit

  Runs of `cap_rate_check` against the limit its comment promises: no more than
  `cap_rate_limit` packets in any second.

  The counter is not reset when a second has passed but when a call is let
  through after it had reached the limit.  Such a call is always far enough from
  the packets before it; the calls let through because the counter is still
  below the limit never look at the clock.
-/

import LinuxModules.Lib.Run
import LinuxModules.Lib.Window
import LinuxModules.Netlink.Capture

namespace LinuxModules.Netlink

open LinuxModules.Lib LinuxModules.Net

/-- The limiter, the current time in ticks, and the times of the calls that
    returned 1, the last one first. -/
structure RateRun where
  rate : RateState
  now : Nat
  passed : List Nat

/-- A call of `cap_rate_check`, `d` ticks after the previous one. -/
def rateStep (s : RateRun) (d : Nat) : RateRun :=
  let now := s.now + d
  let (rate, ret) := capRateCheck (BitVec.ofNat 64 now) s.rate
  { rate, now, passed := if ret = 1 then now :: s.passed else s.passed }

/-- The statics as they start, at an arbitrary time. -/
def rateStart (limit : BitVec 32) (hz : BitVec 64) (now : Nat) : RateRun where
  rate := { capRateLimit := limit, hz, lastCheck := 0, packets := 0 }
  now := now
  passed := []

/-- A call that finds the counter below the limit comes more than `HZ` ticks
    after the call that passed `cap_rate_limit` places before it. -/
def SpacedCall (s : RateRun) (d : Nat) : Prop :=
  (s.rate.packets + 1).toNat < s.rate.capRateLimit.toNat →
    ∀ t ∈ s.passed[s.rate.capRateLimit.toNat - 1]?, t + s.rate.hz.toNat < s.now + d

instance (s : RateRun) (d : Nat) : Decidable (SpacedCall s d) :=
  inferInstanceAs (Decidable (_ → ∀ t ∈ s.passed[s.rate.capRateLimit.toNat - 1]?, _))

/-! ## One call -/

/-- What a call does: pass below the limit, pass and start again after more than
    `HZ` ticks, or refuse. -/
theorem rateStep_cases {s : RateRun} (d : Nat) (hlimit : s.rate.capRateLimit ≠ 0) :
    ((s.rate.packets + 1).toNat < s.rate.capRateLimit.toNat ∧
      rateStep s d = { rate := { s.rate with packets := s.rate.packets + 1 }, now := s.now + d,
                       passed := (s.now + d) :: s.passed }) ∨
    (¬ (s.rate.packets + 1).toNat < s.rate.capRateLimit.toNat ∧
      (BitVec.ofNat 64 (s.now + d) - s.rate.lastCheck).toNat > s.rate.hz.toNat ∧
      rateStep s d = { rate := { s.rate with lastCheck := BitVec.ofNat 64 (s.now + d), packets := 0 },
                       now := s.now + d, passed := (s.now + d) :: s.passed }) ∨
    (¬ (s.rate.packets + 1).toNat < s.rate.capRateLimit.toNat ∧
      rateStep s d = { rate := { s.rate with packets := s.rate.packets + 1 }, now := s.now + d,
                       passed := s.passed }) := by
  simp only [rateStep, capRateCheck, if_neg hlimit]
  by_cases hbelow : (s.rate.packets + 1).toNat < s.rate.capRateLimit.toNat
  · exact Or.inl ⟨hbelow, by simp only [if_pos hbelow, if_true]⟩
  · by_cases hlate : (BitVec.ofNat 64 (s.now + d) - s.rate.lastCheck).toNat > s.rate.hz.toNat
    · refine Or.inr (Or.inl ⟨hbelow, hlate, ?_⟩)
      simp only [if_neg hbelow, if_pos hlate, if_true]
    · refine Or.inr (Or.inr ⟨hbelow, ?_⟩)
      simp only [if_neg hbelow, if_neg hlate, zero_ne_one, if_false]

/-- The clock may wrap, but never shows more than what has passed. -/
theorem toNat_elapsed_le {t now : Nat} (h : t ≤ now) :
    (BitVec.ofNat 64 now - BitVec.ofNat 64 t).toNat ≤ now - t := by
  -- the difference of the clock values is the elapsed time modulo `2 ^ 64`
  have hsplit : BitVec.ofNat 64 now = BitVec.ofNat 64 (now - t) + BitVec.ofNat 64 t := by
    rw [← BitVec.ofNat_add, Nat.sub_add_cancel h]
  rw [hsplit, BitVec.add_sub_cancel, BitVec.toNat_ofNat]
  exact Nat.mod_le _ _

/-! ## The invariant -/

/-- What every run of fewer than `2 ^ 31` calls keeps.  `last_check` is the time
    `t` of a call, and of the calls that passed since then there are as many as
    `packets` says, up to one less than the limit. -/
structure Limiting (limit : BitVec 32) (hz : BitVec 64) (s : RateRun) (rest : List Nat) : Prop where
  limit_eq : s.rate.capRateLimit = limit
  hz_eq : s.rate.hz = hz
  sorted : (s.now :: s.passed).Pairwise (· ≥ ·)
  last : ∃ t ≤ s.now, s.rate.lastCheck = BitVec.ofNat 64 t ∧
    ∀ x, s.passed[min s.rate.packets.toNat (limit.toNat - 1)]? = some x → x = t
  few : s.rate.packets.toNat + rest.length < 2 ^ 31

theorem limiting_rateStart (limit : BitVec 32) (hz : BitVec 64) (now : Nat) {rest : List Nat}
    (hfew : rest.length < 2 ^ 31) : Limiting limit hz (rateStart limit hz now) rest where
  limit_eq := rfl
  hz_eq := rfl
  sorted := List.pairwise_singleton _ _
  last := ⟨0, Nat.zero_le _, rfl, by simp [rateStart]⟩
  few := by simpa [rateStart] using hfew

variable {limit : BitVec 32} {hz : BitVec 64}

/-- The counter does not wrap in a run this short. -/
theorem Limiting.packets_succ {s : RateRun} {d : Nat} {rest : List Nat}
    (h : Limiting limit hz s (d :: rest)) :
    (s.rate.packets + 1).toNat = s.rate.packets.toNat + 1 := by
  have hfew := h.few
  rw [List.length_cons] at hfew
  rw [BitVec.toNat_add]
  exact Nat.mod_eq_of_lt (by simp; omega)

theorem Limiting.sorted_later {s : RateRun} {rest : List Nat} (h : Limiting limit hz s rest)
    (d : Nat) : ((s.now + d) :: s.passed).Pairwise (· ≥ ·) := by
  obtain ⟨hnow, hold⟩ := List.pairwise_cons.mp h.sorted
  exact List.pairwise_cons.mpr ⟨fun x hx => (hnow x hx).trans (Nat.le_add_right _ _), hold⟩

theorem limiting_rateStep (hlimit : limit ≠ 0) {s : RateRun} {d : Nat} {rest : List Nat}
    (h : Limiting limit hz s (d :: rest)) : Limiting limit hz (rateStep s d) rest := by
  have hne : s.rate.capRateLimit ≠ 0 := by rw [h.limit_eq]; exact hlimit
  have hlater := h.sorted_later d
  have hpass : ((s.now + d) :: (s.now + d) :: s.passed).Pairwise (· ≥ ·) :=
    List.pairwise_cons.mpr ⟨fun x hx => (List.mem_cons.mp hx).elim (fun he => he.le)
      ((List.pairwise_cons.mp hlater).1 x), hlater⟩
  have hsucc := h.packets_succ
  have hfew := h.few
  rw [List.length_cons] at hfew
  obtain ⟨t, ht, hlast, hidx⟩ := h.last
  rcases rateStep_cases d hne with ⟨hbelow, heq⟩ | ⟨-, -, heq⟩ | ⟨habove, heq⟩
  · -- one more has passed since `t`
    rw [h.limit_eq, hsucc] at hbelow
    rw [heq]
    refine ⟨h.limit_eq, h.hz_eq, hpass, ⟨t, ht.trans (Nat.le_add_right _ _), hlast, ?_⟩, ?_⟩
    · intro x hx
      have hmin : min (s.rate.packets + 1).toNat (limit.toNat - 1) =
          min s.rate.packets.toNat (limit.toNat - 1) + 1 := by omega
      rw [hmin, List.getElem?_cons_succ] at hx
      exact hidx x hx
    · show (s.rate.packets + 1).toNat + rest.length < 2 ^ 31
      omega
  · -- the call itself is the new `last_check`
    rw [heq]
    refine ⟨h.limit_eq, h.hz_eq, hpass, ⟨s.now + d, le_refl _, rfl, ?_⟩, ?_⟩
    · intro x hx
      simpa using hx.symm
    · show (0 : BitVec 32).toNat + rest.length < 2 ^ 31
      simp
      omega
  -- refused: only the counter moves, and it is past the limit already
  · rw [h.limit_eq, hsucc] at habove
    rw [heq]
    refine ⟨h.limit_eq, h.hz_eq, hlater, ⟨t, ht.trans (Nat.le_add_right _ _), hlast, ?_⟩, ?_⟩
    · intro x hx
      have hmin : min (s.rate.packets + 1).toNat (limit.toNat - 1) =
          min s.rate.packets.toNat (limit.toNat - 1) := by omega
      rw [hmin] at hx
      exact hidx x hx
    · show (s.rate.packets + 1).toNat + rest.length < 2 ^ 31
      omega

/-! ## The limit -/

/-- One call keeps the limit exactly if it is spaced. -/
theorem withinLimit_rateStep (hlimit : limit ≠ 0) {s : RateRun} {d : Nat} {rest : List Nat}
    (h : Limiting limit hz s (d :: rest))
    (hs : AtMostPerWindow hz.toNat limit.toNat s.passed) :
    AtMostPerWindow hz.toNat limit.toNat (rateStep s d).passed ↔ SpacedCall s d := by
  have hne : s.rate.capRateLimit ≠ 0 := by rw [h.limit_eq]; exact hlimit
  have hpos : limit.toNat - 1 + 1 = limit.toNat := by
    have h0 : limit.toNat ≠ 0 := fun h0 => hlimit (BitVec.eq_of_toNat_eq h0)
    omega
  have hcons := atMostPerWindow_cons (n := limit.toNat - 1) (h.sorted_later d)
    (by rw [hpos]; exact hs)
  rw [hpos] at hcons
  unfold SpacedCall
  rcases rateStep_cases d hne with ⟨hbelow, heq⟩ | ⟨hnot, hlate, heq⟩ | ⟨hnot, heq⟩
  -- the clock was not looked at: the guard is exactly what is missing
  · rw [heq, hcons, h.limit_eq, h.hz_eq]
    rw [h.limit_eq] at hbelow
    exact ⟨fun hfar _ t ht => hfar t ht, fun hspaced t ht => hspaced hbelow t ht⟩
  · simp only [heq, hnot, false_implies, iff_true]
    refine hcons.mpr fun x hx => ?_
    -- what passed `limit` places before is the call of `last_check`, or nothing
    obtain ⟨t, ht, hlast, hidx⟩ := h.last
    have hmin : min s.rate.packets.toNat (limit.toNat - 1) = limit.toNat - 1 := by
      rw [h.limit_eq, h.packets_succ] at hnot
      omega
    rw [hmin] at hidx
    have helapsed := toNat_elapsed_le (ht.trans (Nat.le_add_right s.now d))
    rw [hlast, h.hz_eq] at hlate
    have hxt := hidx x hx
    omega
  · simp only [heq, hnot, false_implies, iff_true]
    exact hs

/-- In a run of fewer than `2 ^ 31` calls at nondecreasing times no window of
    `HZ` ticks has more than `cap_rate_limit` calls that pass, exactly when every
    call of the run is spaced. -/
theorem rate_limit_iff_spaced (hlimit : limit ≠ 0) (hz : BitVec 64) (now : Nat)
    (delays : List Nat) (hfew : delays.length < 2 ^ 31) :
    (∀ w, inWindow hz.toNat w (run rateStep (rateStart limit hz now) delays).passed ≤
        limit.toNat) ↔
      Guarded rateStep SpacedCall (rateStart limit hz now) delays := by
  have hiff : Along rateStep (fun s => AtMostPerWindow hz.toNat limit.toNat s.passed)
      (rateStart limit hz now) delays ↔
        Guarded rateStep SpacedCall (rateStart limit hz now) delays :=
    along_iff_guarded_rest (I := Limiting limit hz)
      (fun _ _ _ h => limiting_rateStep hlimit h)
      (fun _ _ _ h hs => withinLimit_rateStep hlimit h hs)
      (limiting_rateStart limit hz now hfew) (atMostPerWindow_nil _ _)
  rw [← hiff]
  constructor
  · intro h
    refine along_of_last (fun s d hs => ?_) h
    -- a call only ever adds to what has passed
    simp only [rateStep] at hs
    split at hs
    · exact hs.tail
    · exact hs
  · exact fun h => h.last

/-- A limit of 2 with `HZ = 100`, and a call every 101 ticks. -/
theorem rate_limit_slow_calls : (2 : BitVec 32) ≠ 0 ∧
    ∀ w, inWindow 100 w (run rateStep (rateStart 2 100 (2 ^ 32)) [0, 101, 101]).passed ≤ 2 := by
  refine ⟨by decide, (rate_limit_iff_spaced (by decide) 100 _ _ (by decide)).mpr ?_⟩
  exact ⟨by decide, by decide, by decide, trivial⟩

/-- A limit of 2 with `HZ = 100`: three calls in one tick all pass, the first two
    and, since the second has started the counter again, the third. -/
theorem rate_limit_burst : [0, 0, 0].length < 2 ^ 31 ∧
    (run rateStep (rateStart 2 100 (2 ^ 32)) [0, 0, 0]).passed =
      [2 ^ 32, 2 ^ 32, 2 ^ 32] ∧
    inWindow 100 (2 ^ 32) (run rateStep (rateStart 2 100 (2 ^ 32)) [0, 0, 0]).passed = 3 := by
  decide

end LinuxModules.Netlink
