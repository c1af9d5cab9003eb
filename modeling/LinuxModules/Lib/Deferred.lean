/-
  LinuxModules.Lib.Deferred

  A callback that the kernel runs later, and the code that takes it down: a timer
  or a tasklet is armed, fires, and its callback runs step by step beside the
  function that unloads the module.  A callback may arm the object again.

  `Quiet` says that the unloaded module leaves nothing behind that would run its
  code.  Whether it holds depends on how the object is taken down:

  * `delete` disarms it and does not look at a running callback
    (`gone_delete_iff` is the exact condition);
  * `cancel` waits for a running callback and then disarms it;
  * `kill` waits until it is not armed and then for a running callback.
-/

import LinuxModules.Lib.Run

namespace LinuxModules.Lib

variable {κ σ : Type _}

/-- The code of a callback over data of type `σ`: where it starts, what one step
    does, whether the step arms the object, and whether this step or a later one
    will. -/
structure Callback (κ σ : Type _) where
  entry : κ
  body : σ → κ → σ × Option κ
  arms : κ → Bool
  willArm : κ → Bool
  arms_le : ∀ k, arms k = true → willArm k = true
  body_le : ∀ data k k', (body data k).2 = some k' → willArm k' = true → willArm k = true

/-- How far the function that unloads the module is. -/
inductive Phase where
  | loaded
  | leaving
  | gone
  deriving DecidableEq, Repr

structure Deferred (κ σ : Type _) where
  armed : Bool
  running : Option κ
  phase : Phase
  data : σ

inductive DeferredEvent where
  | fire
  | body
  | exit
  deriving DecidableEq, Repr

/-- The object fires; its callback is never run twice at the same time.  What would
    run after the module is gone is not followed. -/
def Deferred.fire (cb : Callback κ σ) (d : Deferred κ σ) : Deferred κ σ :=
  if d.armed ∧ d.running.isNone ∧ d.phase ≠ .gone then
    { d with armed := false, running := some cb.entry }
  else d

/-- One step of the running callback. -/
def Deferred.body (cb : Callback κ σ) (d : Deferred κ σ) : Deferred κ σ :=
  match d.running with
  | none => d
  | some k =>
      if d.phase = .gone then d
      else
        { d with
          armed := d.armed || cb.arms k
          running := (cb.body d.data k).2
          data := (cb.body d.data k).1 }

/-- `exit` is one step of the function that unloads the module. -/
def deferredStep (cb : Callback κ σ) (exit : Deferred κ σ → Deferred κ σ) (d : Deferred κ σ) :
    DeferredEvent → Deferred κ σ
  | .fire => d.fire cb
  | .body => d.body cb
  | .exit => exit d

/-! ## Taking it down -/

/-- Disarm it, then return. -/
def Deferred.delete (d : Deferred κ σ) : Deferred κ σ :=
  match d.phase with
  | .loaded => { d with armed := false, phase := .leaving }
  | .leaving => { d with phase := .gone }
  | .gone => d

/-- Try to disarm it until no callback is running, then return. -/
def Deferred.cancel (d : Deferred κ σ) : Deferred κ σ :=
  match d.phase with
  | .loaded => if d.running.isSome then d else { d with armed := false, phase := .leaving }
  | .leaving => { d with phase := .gone }
  | .gone => d

/-- Wait until it is not armed, then until no callback is running, then return. -/
def Deferred.kill (d : Deferred κ σ) : Deferred κ σ :=
  match d.phase with
  | .loaded => if d.armed then d else { d with phase := .leaving }
  | .leaving => if d.running.isSome then d else { d with phase := .gone }
  | .gone => d

/-! ## Nothing is left behind -/

section

variable (cb : Callback κ σ)

/-- While the module is being left, the object is not armed and will not be; when
    it is gone, no callback is running either. -/
structure Quiet (d : Deferred κ σ) : Prop where
  armed : d.phase ≠ .loaded → d.armed = false
  willArm : d.phase = .leaving → ∀ k, d.running = some k → cb.willArm k = false
  running : d.phase = .gone → d.running = none

variable {cb} {d : Deferred κ σ}

theorem quiet_fire (h : Quiet cb d) : Quiet cb (d.fire cb) := by
  unfold Deferred.fire
  split
  case isTrue hfire =>
    -- it only fires while the module is loaded
    have hloaded : d.phase = .loaded := by
      by_contra hne
      have harmed := h.armed hne
      rw [hfire.1] at harmed
      cases harmed
    refine ⟨?_, ?_, ?_⟩ <;> simp [hloaded]
  case isFalse => exact h

theorem quiet_body (h : Quiet cb d) : Quiet cb (d.body cb) := by
  unfold Deferred.body
  split
  case h_1 => exact h
  case h_2 k hk =>
    split
    case isTrue => exact h
    case isFalse hgone =>
      refine ⟨fun hne => ?_, fun hleaving k' hk' => ?_, fun hphase => absurd hphase hgone⟩
      · have hleaving : d.phase = .leaving := by
          cases hp : d.phase with
          | loaded => exact absurd hp hne
          | leaving => rfl
          | gone => exact absurd hp hgone
        have hk' : cb.arms k = false := by
          rw [Bool.eq_false_iff]
          intro harms
          have := cb.arms_le k harms
          rw [h.willArm hleaving k hk] at this
          cases this
        show (d.armed || cb.arms k) = false
        rw [h.armed hne, hk']
        rfl
      · rw [Bool.eq_false_iff]
        intro hwill
        have := cb.body_le d.data k k' hk' hwill
        rw [h.willArm hleaving k hk] at this
        cases this

/-- What `delete` needs in order to leave nothing behind. -/
def DeleteOk (cb : Callback κ σ) (d : Deferred κ σ) : Prop :=
  (d.phase = .loaded → ∀ k, d.running = some k → cb.willArm k = false) ∧
    (d.phase = .leaving → d.running = none)

theorem quiet_delete (h : Quiet cb d) (hok : DeleteOk cb d) : Quiet cb d.delete := by
  unfold Deferred.delete
  cases hp : d.phase with
  | loaded => exact ⟨fun _ => rfl, fun _ => hok.1 hp, by simp⟩
  | leaving => exact ⟨fun _ => h.armed (by rw [hp]; decide), by simp, fun _ => hok.2 hp⟩
  | gone => exact h

/-- The module is being left while the object is armed or will be, or is gone with
    the object armed or its callback running. -/
def Tainted (cb : Callback κ σ) (d : Deferred κ σ) : Prop :=
  (d.phase = .leaving ∧ (d.armed = true ∨ ∃ k, d.running = some k ∧ cb.willArm k = true)) ∨
    (d.phase = .gone ∧ (d.armed = true ∨ d.running ≠ none))

theorem Quiet.not_tainted (h : Quiet cb d) : ¬ Tainted cb d := by
  rintro (⟨hp, harmed | ⟨k, hk, hwill⟩⟩ | ⟨hp, harmed | hrun⟩)
  · rw [h.armed (by rw [hp]; decide)] at harmed
    cases harmed
  · rw [h.willArm hp k hk] at hwill
    cases hwill
  · rw [h.armed (by rw [hp]; decide)] at harmed
    cases harmed
  · exact hrun (h.running hp)

theorem tainted_delete (h : Tainted cb d) : Tainted cb d.delete := by
  rcases h with ⟨hp, h⟩ | ⟨hp, h⟩
  · right
    rw [Deferred.delete, hp]
    refine ⟨rfl, h.imp_right ?_⟩
    rintro ⟨k, hk, -⟩
    simp [hk]
  · rw [Deferred.delete, hp]
    exact Or.inr ⟨hp, h⟩

/-- The callback arms the object whenever it is run from its start to its end. -/
structure Rearms (cb : Callback κ σ) : Prop where
  entry : cb.willArm cb.entry = true
  next : ∀ data k, cb.willArm k = true → cb.arms k = false →
    ∃ k', (cb.body data k).2 = some k' ∧ cb.willArm k' = true

theorem tainted_fire (hcb : Rearms cb) (h : Tainted cb d) : Tainted cb (d.fire cb) := by
  unfold Deferred.fire
  split
  case isTrue hfire =>
    rcases h with ⟨hp, -⟩ | ⟨hp, -⟩
    · exact Or.inl ⟨hp, Or.inr ⟨cb.entry, rfl, hcb.entry⟩⟩
    · exact absurd hp hfire.2.2
  case isFalse => exact h

theorem tainted_body (hcb : Rearms cb) (h : Tainted cb d) : Tainted cb (d.body cb) := by
  unfold Deferred.body
  split
  case h_1 => exact h
  case h_2 k hk =>
    split
    case isTrue => exact h
    case isFalse hgone =>
      rcases h with ⟨hp, h⟩ | ⟨hp, -⟩
      · refine Or.inl ⟨hp, ?_⟩
        rcases h with harmed | ⟨k', hk', hwill⟩
        · exact Or.inl (by simp [harmed])
        · -- the step arms it, or a later one will
          obtain rfl : k = k' := Option.some.inj (hk.symm.trans hk')
          cases harms : cb.arms k with
          | true => exact Or.inl (by simp)
          | false => exact Or.inr (hcb.next d.data k hwill harms)
      · exact absurd hp hgone

/-- What a step of `delete` that misses its condition leaves cannot be undone. -/
theorem tainted_of_not_deleteOk (h : ¬ DeleteOk cb d) : Tainted cb d.delete := by
  unfold DeleteOk at h
  cases hp : d.phase with
  | loaded =>
      simp only [hp, true_implies, reduceCtorEq, false_implies, and_true] at h
      push Not at h
      obtain ⟨k, hk, hwill⟩ := h
      rw [Deferred.delete, hp]
      exact Or.inl ⟨rfl, Or.inr ⟨k, hk, by simpa using hwill⟩⟩
  | leaving =>
      simp only [hp, true_implies, reduceCtorEq, false_implies, true_and] at h
      rw [Deferred.delete, hp]
      exact Or.inr ⟨rfl, Or.inr h⟩
  | gone => simp [hp] at h

/-- A run that takes the object down with `delete` and has come to its end leaves
    the object neither armed nor running if and only if no callback that would still
    arm it was running when it was disarmed, and none at all when the module was
    gone. -/
theorem gone_delete_iff (hcb : Rearms cb) {events : List DeferredEvent} (h : Quiet cb d)
    (hgone : (run (deferredStep cb Deferred.delete) d events).phase = .gone) :
    ((run (deferredStep cb Deferred.delete) d events).armed = false ∧
        (run (deferredStep cb Deferred.delete) d events).running = none) ↔
      Guarded (deferredStep cb Deferred.delete) (fun d e => e = .exit → DeleteOk cb d) d
        events := by
  have hend : ((run (deferredStep cb Deferred.delete) d events).armed = false ∧
      (run (deferredStep cb Deferred.delete) d events).running = none) ↔
        ¬ Tainted cb (run (deferredStep cb Deferred.delete) d events) := by
    simp [Tainted, hgone]
  have halong : Along (deferredStep cb Deferred.delete) (fun d => ¬ Tainted cb d) d events ↔
      Guarded (deferredStep cb Deferred.delete) (fun d e => e = .exit → DeleteOk cb d) d
        events := by
    apply along_iff_guarded_of_inv (J := Quiet cb) (fun _ hq => hq.not_tainted) _ _ h
    · intro d e hq hok
      cases e with
      | fire => exact quiet_fire hq
      | body => exact quiet_body hq
      | exit => exact quiet_delete hq (hok rfl)
    · rintro d e - hclean rfl
      by_contra hno
      exact hclean (tainted_of_not_deleteOk hno)
  rw [hend, ← halong]
  refine ⟨along_of_last (P := fun d => ¬ Tainted cb d) fun d e hclean htaint => hclean ?_,
    Along.last (P := fun d => ¬ Tainted cb d)⟩
  cases e with
  | fire => exact tainted_fire hcb htaint
  | body => exact tainted_body hcb htaint
  | exit => exact tainted_delete htaint

/-- After `cancel` the object is neither armed nor running. -/
structure Off (d : Deferred κ σ) : Prop where
  armed : d.phase ≠ .loaded → d.armed = false
  running : d.phase ≠ .loaded → d.running = none

theorem Off.quiet (h : Off d) : Quiet cb d where
  armed := h.armed
  willArm := by
    intro hleaving k hk
    rw [h.running (by rw [hleaving]; decide)] at hk
    cases hk
  running := fun hgone => h.running (by rw [hgone]; decide)

theorem off_step (e : DeferredEvent) (h : Off d) :
    Off (deferredStep cb Deferred.cancel d e) := by
  cases hp : d.phase with
  | loaded =>
      cases e with
      | fire =>
          simp only [deferredStep, Deferred.fire]
          split
          · exact ⟨fun hne => absurd hp hne, fun hne => absurd hp hne⟩
          · exact h
      | body =>
          simp only [deferredStep, Deferred.body]
          split
          case h_1 => exact h
          case h_2 k hk =>
            split
            · exact h
            · exact ⟨fun hne => absurd hp hne, fun hne => absurd hp hne⟩
      | exit =>
          simp only [deferredStep, Deferred.cancel, hp]
          split
          case isTrue => exact h
          case isFalse hnone => exact ⟨fun _ => rfl, fun _ => by simpa using hnone⟩
  | leaving =>
      have harmed := h.armed (by rw [hp]; decide)
      have hnone := h.running (by rw [hp]; decide)
      cases e with
      | fire => simpa [deferredStep, Deferred.fire, harmed] using h
      | body => simpa [deferredStep, Deferred.body, hnone] using h
      | exit =>
          simp only [deferredStep, Deferred.cancel, hp]
          exact ⟨fun _ => harmed, fun _ => hnone⟩
  | gone =>
      have harmed := h.armed (by rw [hp]; decide)
      have hnone := h.running (by rw [hp]; decide)
      cases e with
      | fire => simpa [deferredStep, Deferred.fire, harmed] using h
      | body => simpa [deferredStep, Deferred.body, hnone] using h
      | exit => simpa [deferredStep, Deferred.cancel, hp] using h

theorem quiet_along_cancel {events : List DeferredEvent} (h : d.phase = .loaded) :
    Along (deferredStep cb Deferred.cancel) (Quiet cb) d events := by
  have hoff : Off d := ⟨fun hne => absurd h hne, fun hne => absurd h hne⟩
  have halong : Along (deferredStep cb Deferred.cancel) Off d events :=
    along_of_step (fun _ e _ hd => off_step e hd) hoff (guarded_of_forall fun _ _ _ => trivial)
  exact halong.mono fun _ hd => hd.quiet

/-- A callback that never arms the object may be taken down with `kill`. -/
theorem quiet_along_kill (hcb : ∀ k, cb.willArm k = false) {events : List DeferredEvent}
    (h : Quiet cb d) : Along (deferredStep cb Deferred.kill) (Quiet cb) d events := by
  apply along_of_step _ h (guarded_of_forall fun _ _ _ => trivial)
  intro d e _ hq
  cases e with
  | fire => exact quiet_fire hq
  | body => exact quiet_body hq
  | exit =>
      simp only [deferredStep, Deferred.kill]
      split
      case h_1 hp =>
        split
        case isTrue => exact hq
        case isFalse harmed =>
          exact ⟨fun _ => by simpa using harmed, fun _ k _ => hcb k, by simp⟩
      case h_2 hp =>
        split
        case isTrue => exact hq
        case isFalse hnone =>
          exact ⟨fun _ => hq.armed (by rw [hp]; decide), by simp, fun _ => by simpa using hnone⟩
      case h_3 => exact hq

end

end LinuxModules.Lib
