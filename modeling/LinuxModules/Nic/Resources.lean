/-
  LinuxModules.Nic.Resources

  What the senders of `nic/` give back: every buffer they allocate, and the
  reference to the device that `dev_get_by_name` takes.

  `dev_queue_xmit` consumes the buffer whatever it returns, and all three
  senders free it once more after a failure.  `create_new_skb` of `tcp.c` and
  `udp.c` also returns early without `dev_put` when there is no memory;
  `garp_init` always reaches its `dev_put`.

  `Settles` is the account of a part of a call.  It composes, so that the loop
  over the addresses is settled exactly if each of its frames is.
-/

import LinuxModules.Lib.Ledger
import LinuxModules.Nic.Garp
import LinuxModules.Nic.Wire

namespace LinuxModules.Nic

open LinuxModules.Lib LinuxModules.Net

/-- From `s` to `s'` every buffer allocated was released exactly once, no other
    was, and the device has as many references as before. -/
structure Balanced (s s' : TxState) : Prop where
  skbs : ∃ rel, s'.released = s.released ++ rel ∧ OnceEach s.allocs s'.allocs rel
  refs : s'.devRefs = s.devRefs

/-- The call returns, and is balanced. -/
def Balances (s : TxState) (r : Except SkbPanic TxState) : Prop := ∃ s', r = .ok s' ∧ Balanced s s'

theorem balances_ok_iff {s s' : TxState} : Balances s (.ok s') ↔ Balanced s s' := by
  constructor
  · rintro ⟨t, ht, hbal⟩
    cases ht
    exact hbal
  · exact fun hbal => ⟨s', rfl, hbal⟩

/-! ## Parts of a call -/

/-- A part of a call that keeps the references and releases only buffers of its
    own, each exactly once if and only if it is `clean`. -/
structure Settles (s s' : TxState) (clean : Prop) : Prop where
  grows : s.allocs ≤ s'.allocs
  refs : s'.devRefs = s.devRefs
  skbs : ∃ rel, s'.released = s.released ++ rel ∧ Within s.allocs s'.allocs rel ∧
    (OnceEach s.allocs s'.allocs rel ↔ clean)

namespace Settles

variable {s s₁ s₂ : TxState} {clean p q : Prop}

theorem refl (s : TxState) : Settles s s True where
  grows := Nat.le_refl _
  refs := rfl
  skbs := ⟨[], (List.append_nil _).symm, fun _ hn => absurd hn List.not_mem_nil,
    iff_of_true (onceEach_nil _) trivial⟩

theorem trans (h₁ : Settles s s₁ p) (h₂ : Settles s₁ s₂ q) : Settles s s₂ (p ∧ q) := by
  obtain ⟨rel₁, hrel₁, hin₁, hiff₁⟩ := h₁.skbs
  obtain ⟨rel₂, hrel₂, hin₂, hiff₂⟩ := h₂.skbs
  refine ⟨Nat.le_trans h₁.grows h₂.grows, h₂.refs.trans h₁.refs, rel₁ ++ rel₂, ?_,
    hin₁.append h₁.grows h₂.grows hin₂, ?_⟩
  · rw [hrel₂, hrel₁, List.append_assoc]
  · rw [onceEach_append_iff h₁.grows h₂.grows hin₁ hin₂, hiff₁, hiff₂]

theorem congr (h : Settles s s₁ p) (hpq : p ↔ q) : Settles s s₁ q := by
  obtain ⟨rel, hrel, hin, hiff⟩ := h.skbs
  exact ⟨h.grows, h.refs, rel, hrel, hin, hiff.trans hpq⟩

/-- `dev_get_by_name` before and `dev_put` after. -/
theorem held (h : Settles s.devHold s₁ clean) : Settles s s₁.devPut clean where
  grows := h.grows
  refs := by
    show s₁.devRefs - 1 = s.devRefs
    rw [h.refs]
    exact Int.add_sub_cancel ..
  skbs := h.skbs

theorem balanced_iff (h : Settles s s₁ clean) : Balanced s s₁ ↔ clean := by
  obtain ⟨rel, hrel, -, hiff⟩ := h.skbs
  constructor
  · rintro ⟨⟨rel', hrel', honce⟩, -⟩
    have heq : rel' = rel := List.append_cancel_left (hrel'.symm.trans hrel)
    exact hiff.mp (heq ▸ honce)
  · exact fun hclean => ⟨⟨rel, hrel, hiff.mpr hclean⟩, h.refs⟩

end Settles

/-! ## One frame -/

/-- A new buffer, `dev_queue_xmit`, and `kfree_skb` after a failure. -/
def TxState.sendFrame (s : TxState) (xmit : Int) (skb : RawSkb) : TxState :=
  let id := s.allocs
  let s := { s with allocs := s.allocs + 1 }.devQueueXmit id skb
  if xmit < 0 then s.kfreeSkb id else s

/-- The buffer is released once by `dev_queue_xmit`, and after a failure once
    more. -/
theorem settles_sendFrame (s : TxState) (xmit : Int) (skb : RawSkb) :
    Settles s (s.sendFrame xmit skb) (0 ≤ xmit) := by
  have hin : ∀ k, Within s.allocs (s.allocs + 1) (List.replicate k s.allocs) := by
    intro k n hn
    have heq := List.eq_of_mem_replicate hn
    omega
  unfold TxState.sendFrame
  split
  case isTrue hfail =>
    refine ⟨Nat.le_succ _, rfl, List.replicate 2 s.allocs, ?_, hin 2, ?_⟩
    · exact List.append_assoc ..
    · exact (onceEach_replicate_iff s.allocs 2).trans (by omega)
  case isFalse hok =>
    refine ⟨Nat.le_succ _, rfl, List.replicate 1 s.allocs, rfl, hin 1, ?_⟩
    exact (onceEach_replicate_iff s.allocs 1).trans (by omega)

/-! ## tcp.c and udp.c -/

theorem transmit_eq_sendFrame (s : TxState) (xmit : Int) (skb : RawSkb) :
    ({ s with allocs := s.allocs + 1 }.transmit xmit s.allocs skb).1 =
      (s.sendFrame xmit skb).devPut := by
  unfold TxState.transmit TxState.sendFrame
  split <;> rfl

/-- Without memory the reference is kept. -/
theorem not_balanced_devHold (s : TxState) : ¬ Balanced s s.devHold := by
  intro h
  have hrefs : s.devRefs + 1 = s.devRefs := h.refs
  omega

theorem balances_createNewSkbWith_iff {hdr : Nat}
    {fill : Sender → Netdev → RawSkb → Except SkbPanic (Sender × RawSkb)} {snd : Sender}
    {s : TxState}
    (hsome : ∀ dev mem xmit, ∃ snd' skb, createNewSkbWith hdr fill (some dev) ⟨some mem, xmit⟩ snd s =
      .ok (snd', { s.devHold with allocs := s.allocs + 1 }.transmit xmit s.allocs skb))
    (dev : Option Netdev) (o : SendOutcome) :
    Balances s ((createNewSkbWith hdr fill dev o snd s).map fun r => r.2.1) ↔
      dev = none ∨ (o.mem ≠ none ∧ 0 ≤ o.xmit) := by
  obtain ⟨mem, xmit⟩ := o
  cases dev with
  | none =>
      have hcall := (Settles.refl s).balanced_iff.mpr trivial
      exact iff_of_true (balances_ok_iff.mpr hcall) (Or.inl rfl)
  | some dev =>
      cases mem with
      | none =>
          refine iff_of_false (fun h => not_balanced_devHold s (balances_ok_iff.mp h)) ?_
          simp
      | some mem =>
          obtain ⟨snd', skb, hcall⟩ := hsome dev mem xmit
          have hsettles := (settles_sendFrame s.devHold xmit skb).held
          rw [← transmit_eq_sendFrame] at hsettles
          rw [hcall]
          exact balances_ok_iff.trans (hsettles.balanced_iff.trans (by simp))

/-! ## garp.c -/

/-- `garp_send`, on any device: nothing without memory, else one frame. -/
theorem settles_garpSend (o : SendOutcome) (destIp : BitVec 32) (dev : Netdev) (srcIp : BitVec 32)
    (destHw srcHw targetHw : Option HwPtr) (s : TxState) :
    ∃ s', garpSend o destIp dev srcIp destHw srcHw targetHw s = .ok s' ∧
      Settles s s' (o.mem = none ∨ 0 ≤ o.xmit) := by
  obtain ⟨mem, xmit⟩ := o
  cases mem with
  | none => exact ⟨s, rfl, (Settles.refl s).congr (by simp)⟩
  | some mem =>
      obtain ⟨front, old, rest, -, hcreate⟩ :=
        garpCreate_some dev mem destIp srcIp destHw srcHw targetHw
      refine ⟨s.sendFrame xmit ((skbOf front ((hwBytes (destHw.getD dev.broadcast) 6 ++
        (hwBytes (srcHw.getD dev.devAddr) 6 ++ [0x08, 0x06])) ++ old) rest).storeAll
          (arpWrites dev destIp srcIp (srcHw.getD dev.devAddr) targetHw (front.length + 14))), ?_,
        (settles_sendFrame ..).congr (by simp)⟩
      simp only [garpSend, hcreate, bind, Except.bind]
      rfl

/-- The loop over the addresses. -/
theorem settles_garpSendGratuitousArp (dev : Netdev) (ifas : List (BitVec 32 × SendOutcome))
    (s : TxState) :
    ∃ s', garpSendGratuitousArp dev ifas s = .ok s' ∧
      Settles s s' (∀ a ∈ ifas, a.2.mem = none ∨ 0 ≤ a.2.xmit) := by
  induction ifas generalizing s with
  | nil => exact ⟨s, rfl, (Settles.refl s).congr (by simp)⟩
  | cons a ifas ih =>
      obtain ⟨s₁, hsend, hfirst⟩ :=
        settles_garpSend a.2 a.1 dev a.1 none (some dev.devAddr) none s
      obtain ⟨s₂, hrest, hothers⟩ := ih s₁
      refine ⟨s₂, ?_, (hfirst.trans hothers).congr (by rw [List.forall_mem_cons])⟩
      simp only [garpSendGratuitousArp, hsend, bind, Except.bind, hrest]

/-- `garp_init`: three rounds between `dev_get_by_name` and `dev_put`. -/
theorem balances_garpInit_iff (dev : Option Netdev)
    (ifas₁ ifas₂ ifas₃ : List (BitVec 32 × SendOutcome)) (s : TxState) :
    Balances s ((garpInit dev ifas₁ ifas₂ ifas₃ s).map Prod.fst) ↔
      dev = none ∨ ∀ a ∈ ifas₁ ++ ifas₂ ++ ifas₃, a.2.mem = none ∨ 0 ≤ a.2.xmit := by
  cases dev with
  | none =>
      have hcall := (Settles.refl s).balanced_iff.mpr trivial
      exact iff_of_true (balances_ok_iff.mpr hcall) (Or.inl rfl)
  | some dev =>
      obtain ⟨s₁, hround₁, hsettles₁⟩ := settles_garpSendGratuitousArp dev ifas₁ s.devHold
      obtain ⟨s₂, hround₂, hsettles₂⟩ := settles_garpSendGratuitousArp dev ifas₂ s₁
      obtain ⟨s₃, hround₃, hsettles₃⟩ := settles_garpSendGratuitousArp dev ifas₃ s₂
      have hsettles := ((hsettles₁.trans hsettles₂).trans hsettles₃).held
      have hcall : (garpInit (some dev) ifas₁ ifas₂ ifas₃ s).map Prod.fst = .ok s₃.devPut := by
        simp only [garpInit, hround₁, hround₂, hround₃, bind, Except.bind]
        rfl
      rw [hcall, balances_ok_iff, hsettles.balanced_iff, List.forall_mem_append,
        List.forall_mem_append, or_iff_right (by simp)]

/-- Exactly when the senders give back what they take.  `tcp.c` and `udp.c` need
    memory and a transmission that does not fail; `garp.c` only that none of the
    frames it could allocate fails, in any of the three rounds. -/
theorem senders_balance_iff (dev : Option Netdev) (s : TxState) :
    (∀ o snd, Balances s ((Tcp.createNewSkb dev o snd s).map fun r => r.2.1) ↔
      dev = none ∨ (o.mem ≠ none ∧ 0 ≤ o.xmit)) ∧
    (∀ o snd, Balances s ((Udp.createNewSkb dev o snd s).map fun r => r.2.1) ↔
      dev = none ∨ (o.mem ≠ none ∧ 0 ≤ o.xmit)) ∧
    ∀ ifas₁ ifas₂ ifas₃, Balances s ((garpInit dev ifas₁ ifas₂ ifas₃ s).map Prod.fst) ↔
      dev = none ∨ ∀ a ∈ ifas₁ ++ ifas₂ ++ ifas₃, a.2.mem = none ∨ 0 ≤ a.2.xmit := by
  refine ⟨fun o snd => ?_, fun o snd => ?_, fun ifas₁ ifas₂ ifas₃ => ?_⟩
  · apply balances_createNewSkbWith_iff
    intro dev mem xmit
    obtain ⟨snd', skb, -, hcall⟩ := Tcp.createNewSkb_some dev mem xmit snd s
    exact ⟨snd', skb, hcall⟩
  · apply balances_createNewSkbWith_iff
    intro dev mem xmit
    obtain ⟨snd', skb, -, hcall⟩ := Udp.createNewSkb_some dev mem xmit snd s
    exact ⟨snd', skb, hcall⟩
  · exact balances_garpInit_iff dev ifas₁ ifas₂ ifas₃ s

/-- On one card: `tcp.c` without memory keeps a reference to the device, and
    `garp.c`, whose second frame is refused in each round, frees its buffer twice. -/
theorem senders_not_balanced_eth0 :
    ¬ Balances txStart ((Tcp.createNewSkb (some eth0) ⟨none, 0⟩ shipped txStart).map fun r => r.2.1) ∧
    ¬ Balances txStart ((garpInit (some eth0) twoAddresses twoAddresses twoAddresses txStart).map Prod.fst) := by
  constructor
  · exact fun h => not_balanced_devHold txStart (balances_ok_iff.mp h)
  · rw [balances_garpInit_iff]
    simp [twoAddresses]

end LinuxModules.Nic
