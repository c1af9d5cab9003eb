/-
  LinuxModules.Nic.Garp

  Gratuitous ARP, `garp.c`: `garp_create` writes an ARP request behind an
  Ethernet header through a pointer that moves by the device's address length,
  and `garp_send_gratuitous_arp` sends one for each address of an interface.
  `garp_init` does that three times.

  The writes to the ARP part are kept in a log.  They tile it, whatever the
  address length is, so that nothing of the old contents shows and the request
  decodes to what was asked for.
-/

import LinuxModules.Nic.Device
import LinuxModules.Nic.Headers

namespace LinuxModules.Nic

open LinuxModules.Lib LinuxModules.Net

/-- `ETH_P_ARP` -/
def ethPArp : BitVec 16 := 0x0806

/-- `ARPOP_REQUEST` -/
def arpopRequest : BitVec 16 := 1

/-- `ARPHRD_IEEE1394` -/
def arphrdIeee1394 : BitVec 16 := 24

/-- `arp_hdr_len`: FireWire has no target hardware address. -/
def arpHdrLen (dev : Netdev) : Nat :=
  if dev.type = arphrdIeee1394 then 8 + dev.addrLen.toNat + 4 * 2
  else 8 + (dev.addrLen.toNat + 4) * 2

/-- A pointer to a hardware address. -/
abbrev HwPtr := Nat → Byte

/-- The first `n` bytes at a pointer. -/
def hwBytes (hw : HwPtr) (n : Nat) : List Byte := (List.range n).map hw

/-! ## garp_create -/

/-- `eth_header` for an Ethernet II type and two addresses: it pushes the header
    and returns its length.  Addresses on Ethernet have six bytes. -/
def ethHeader (skb : RawSkb) (type : BitVec 16) (daddr saddr : HwPtr) :
    Except SkbPanic (Int × RawSkb) := do
  let (eth, skb) ← skbPush skb ethHlen
  let skb := skb.store (eth + 12) (leBytes 2 (htons type).toNat)
  let skb := skb.store (eth + 6) (hwBytes saddr 6)
  let skb := skb.store eth (hwBytes daddr 6)
  return (ethHlen, skb)

/-- The writes through `arp` and `arp_ptr`, in order. -/
def arpWrites (dev : Netdev) (destIp srcIp : BitVec 32) (srcHw : HwPtr) (targetHw : Option HwPtr)
    (arp : Nat) : List Write :=
  let addrLen := dev.addrLen.toNat
  let arHrd := (arp, leBytes 2 (htons dev.type).toNat)
  let arPro := (arp + 2, leBytes 2 (htons ethPIp).toNat)
  let arHln := (arp + 4, [dev.addrLen])
  let arPln := (arp + 5, [4])
  let arOp := (arp + 6, leBytes 2 (htons arpopRequest).toNat)
  let arpPtr := arp + 8
  let sender := (arpPtr, hwBytes srcHw addrLen)
  let arpPtr := arpPtr + addrLen
  let senderIp := (arpPtr, leBytes 4 srcIp.toNat)
  let arpPtr := arpPtr + 4
  let target := match targetHw with
    | some hw => (arpPtr, hwBytes hw addrLen)
    | none => (arpPtr, List.replicate addrLen 0)
  let arpPtr := arpPtr + addrLen
  let targetIp := (arpPtr, leBytes 4 destIp.toNat)
  [arHrd, arPro, arHln, arPln, arOp, sender, senderIp, target, targetIp]

/-- What `garp_create` returns, with the place of the ARP part in the buffer and
    the log of the writes to it. -/
structure GarpSkb where
  skb : RawSkb
  arp : Nat
  writes : List Write

/-- `garp_create`.  The path to `out`, which frees the buffer again, is there for
    an `eth_header` that fails. -/
def garpCreate (mem : Option SkbMem) (destIp : BitVec 32) (dev : Netdev) (srcIp : BitVec 32)
    (destHw srcHw targetHw : Option HwPtr) : Except SkbPanic (Option GarpSkb) :=
  let hlen := llReservedSpace dev
  let tlen : BitVec 32 := dev.neededTailroom.setWidth 32
  match allocSkb (BitVec.ofNat 32 (arpHdrLen dev) + hlen + tlen) mem with
  | none => .ok none
  | some skb => do
      let skb := skbReserve skb hlen.toNat
      let (arp, skb) ← skbPut skb (arpHdrLen dev)
      let srcHw := srcHw.getD dev.devAddr
      let destHw := destHw.getD dev.broadcast
      let (ret, skb) ← ethHeader skb ethPArp destHw srcHw
      if ret < 0 then
        return none
      else
        let writes := arpWrites dev destIp srcIp srcHw targetHw arp
        return some { skb := skb.storeAll writes, arp, writes }

/-! ## garp_send -/

/-- `garp_send`: after a failed transmission the buffer is freed once more. -/
def garpSend (o : SendOutcome) (destIp : BitVec 32) (dev : Netdev) (srcIp : BitVec 32)
    (destHw srcHw targetHw : Option HwPtr) (s : TxState) : Except SkbPanic TxState := do
  match ← garpCreate o.mem destIp dev srcIp destHw srcHw targetHw with
  | none => return s
  | some garp =>
      let id := s.allocs
      let s := { s with allocs := s.allocs + 1 }.devQueueXmit id garp.skb
      return if o.xmit < 0 then s.kfreeSkb id else s

/-- `garp_send_gratuitous_arp`, over the addresses `ifa_local` of the interface
    and what happens to each frame. -/
def garpSendGratuitousArp (dev : Netdev) :
    List (BitVec 32 × SendOutcome) → TxState → Except SkbPanic TxState
  | [], s => .ok s
  | (ifaLocal, o) :: ifaNext, s => do
      let s ← garpSend o ifaLocal dev ifaLocal none (some dev.devAddr) none s
      garpSendGratuitousArp dev ifaNext s

/-- `garp_init`: three rounds over the addresses, each as the list is then. -/
def garpInit (dev : Option Netdev) (ifas₁ ifas₂ ifas₃ : List (BitVec 32 × SendOutcome))
    (s : TxState) : Except SkbPanic (TxState × Int) :=
  match dev with
  | none => .ok (s, -1)
  | some dev => do
      let s := s.devHold
      let s ← garpSendGratuitousArp dev ifas₁ s
      let s ← garpSendGratuitousArp dev ifas₂ s
      let s ← garpSendGratuitousArp dev ifas₃ s
      return (s.devPut, 0)

/-! ## Decoding -/

/-- An ARP packet for protocol addresses of any length. -/
structure Arp where
  hrd : Nat
  pro : Nat
  hln : Byte
  pln : Byte
  op : Nat
  sha : List Byte
  spa : List Byte
  tha : List Byte
  tpa : List Byte
deriving DecidableEq, Repr

/-- A receiver's reading of an ARP packet: the fixed part says how long the four
    addresses are, and nothing may follow them. -/
def decodeArp : List Byte → Option Arp
  | h₁ :: h₂ :: p₁ :: p₂ :: hln :: pln :: o₁ :: o₂ :: addrs =>
      let n := hln.toNat
      let k := pln.toNat
      if addrs.length = n + (k + (n + k)) then
        some
          { hrd := h₁.toNat * 256 + h₂.toNat
            pro := p₁.toNat * 256 + p₂.toNat
            hln
            pln
            op := o₁.toNat * 256 + o₂.toNat
            sha := addrs.take n
            spa := (addrs.drop n).take k
            tha := (addrs.drop (n + k)).take n
            tpa := addrs.drop (n + k + n) }
      else none
  | _ => none

/-- The request that `garp_create` is asked for. -/
def garpRequest (dev : Netdev) (destIp srcIp : BitVec 32) (srcHw targetHw : Option HwPtr) : Arp where
  hrd := dev.type.toNat
  pro := 0x0800
  hln := dev.addrLen
  pln := 4
  op := 1
  sha := hwBytes (srcHw.getD dev.devAddr) dev.addrLen.toNat
  spa := leBytes 4 srcIp.toNat
  tha := match targetHw with
    | some hw => hwBytes hw dev.addrLen.toNat
    | none => List.replicate dev.addrLen.toNat 0
  tpa := leBytes 4 destIp.toNat

@[simp] theorem length_hwBytes (hw : HwPtr) (n : Nat) : (hwBytes hw n).length = n := by
  rw [hwBytes, List.length_map, List.length_range]

/-- The write to the target hardware address has the length of the address in
    both cases. -/
theorem length_tha (dev : Netdev) (destIp srcIp : BitVec 32) (srcHw targetHw : Option HwPtr) :
    (garpRequest dev destIp srcIp srcHw targetHw).tha.length = dev.addrLen.toNat := by
  cases targetHw with
  | none => exact List.length_replicate
  | some hw => exact length_hwBytes hw _

/-- The ARP part after all writes. -/
theorem written_arpWrites (dev : Netdev) (destIp srcIp : BitVec 32)
    (srcHw targetHw : Option HwPtr) (arp : Nat) :
    written (arpWrites dev destIp srcIp (srcHw.getD dev.devAddr) targetHw arp) =
      leBytes 2 (htons dev.type).toNat ++ ([0x08, 0x00] ++ ([dev.addrLen, 4] ++ ([0x00, 0x01] ++
        ((garpRequest dev destIp srcIp srcHw targetHw).sha ++
          ((garpRequest dev destIp srcIp srcHw targetHw).spa ++
            ((garpRequest dev destIp srcIp srcHw targetHw).tha ++
              (garpRequest dev destIp srcIp srcHw targetHw).tpa)))))) := by
  have hpro : leBytes 2 (htons ethPIp).toNat = [0x08, 0x00] := by decide
  have hop : leBytes 2 (htons arpopRequest).toNat = [0x00, 0x01] := by decide
  cases targetHw <;> simp [written, arpWrites, garpRequest, hpro, hop]

theorem tiles_arpWrites (dev : Netdev) (destIp srcIp : BitVec 32) (srcHw : HwPtr)
    (targetHw : Option HwPtr) (arp : Nat) :
    Tiles arp (arpWrites dev destIp srcIp srcHw targetHw arp) := by
  cases targetHw <;> simp [arpWrites, Tiles, Nat.add_assoc]

theorem length_written_arpWrites {dev : Netdev} (hfw : dev.type ≠ arphrdIeee1394)
    (destIp srcIp : BitVec 32) (srcHw targetHw : Option HwPtr) (arp : Nat) :
    (written (arpWrites dev destIp srcIp (srcHw.getD dev.devAddr) targetHw arp)).length =
      arpHdrLen dev := by
  have htha := length_tha dev destIp srcIp srcHw targetHw
  rw [written_arpWrites, arpHdrLen, if_neg hfw]
  simp only [List.length_append, length_leBytes, List.length_cons, List.length_nil, htha]
  simp only [garpRequest, length_hwBytes, length_leBytes]
  omega

/-- A packet whose addresses have the lengths it states decodes. -/
theorem decodeArp_bytes (hrd : BitVec 16) (p₁ p₂ hln pln o₁ o₂ : Byte)
    {sha spa tha tpa : List Byte} (hsha : sha.length = hln.toNat) (hspa : spa.length = pln.toNat)
    (htha : tha.length = hln.toNat) (htpa : tpa.length = pln.toNat) :
    decodeArp (leBytes 2 (htons hrd).toNat ++ ([p₁, p₂] ++ ([hln, pln] ++ ([o₁, o₂] ++
        (sha ++ (spa ++ (tha ++ tpa))))))) =
      some
        { hrd := hrd.toNat
          pro := p₁.toNat * 256 + p₂.toNat
          hln
          pln
          op := o₁.toNat * 256 + o₂.toNat
          sha
          spa
          tha
          tpa } := by
  have hword : (BitVec.ofNat 8 (htons hrd).toNat).toNat * 256 +
      (BitVec.ofNat 8 ((htons hrd).toNat / 256)).toNat = hrd.toNat := by
    have hlt := (htons hrd).isLt
    rw [← wireWord_htons hrd, wireWord, BitVec.toNat_ofNat, BitVec.toNat_ofNat]
    omega
  have hlen : (sha ++ (spa ++ (tha ++ tpa))).length =
      hln.toNat + (pln.toNat + (hln.toNat + pln.toNat)) := by
    simp only [List.length_append, hsha, hspa, htha, htpa]
  have hdropSpa : (sha ++ (spa ++ (tha ++ tpa))).drop hln.toNat = spa ++ (tha ++ tpa) := by
    rw [← hsha, List.drop_left]
  have hdropTha : (sha ++ (spa ++ (tha ++ tpa))).drop (hln.toNat + pln.toNat) = tha ++ tpa := by
    rw [← List.drop_drop, hdropSpa, ← hspa, List.drop_left]
  have hdropTpa : (sha ++ (spa ++ (tha ++ tpa))).drop (hln.toNat + pln.toNat + hln.toNat) = tpa := by
    rw [← List.drop_drop, hdropTha, ← htha, List.drop_left]
  have htakeSha : (sha ++ (spa ++ (tha ++ tpa))).take hln.toNat = sha := by
    rw [← hsha, List.take_left]
  have htakeSpa : (spa ++ (tha ++ tpa)).take pln.toNat = spa := by rw [← hspa, List.take_left]
  have htakeTha : (tha ++ tpa).take hln.toNat = tha := by rw [← htha, List.take_left]
  simp only [leBytes, List.cons_append, List.nil_append, decodeArp]
  rw [if_pos hlen, hword, hdropSpa, hdropTha, hdropTpa, htakeSha, htakeSpa, htakeTha]

theorem decodeArp_written (dev : Netdev) (destIp srcIp : BitVec 32)
    (srcHw targetHw : Option HwPtr) (arp : Nat) :
    decodeArp (written (arpWrites dev destIp srcIp (srcHw.getD dev.devAddr) targetHw arp)) =
      some (garpRequest dev destIp srcIp srcHw targetHw) := by
  rw [written_arpWrites]
  exact decodeArp_bytes dev.type 0x08 0x00 dev.addrLen 4 0x00 0x01 (length_hwBytes ..)
    (length_leBytes ..) (length_tha ..) (length_leBytes ..)

/-! ## The frames -/

/-- The frame is an Ethernet header, with the defaults of `garp_create` for the
    addresses, and exactly `arp_hdr_len` bytes that decode as the request.  The
    log covers each of these bytes once, and no other. -/
structure GarpOk (dev : Netdev) (destIp srcIp : BitVec 32) (destHw srcHw targetHw : Option HwPtr)
    (garp : GarpSkb) : Prop where
  frame : ∃ body, garp.skb.bytes = (hwBytes (destHw.getD dev.broadcast) 6 ++
      (hwBytes (srcHw.getD dev.devAddr) 6 ++ [0x08, 0x06])) ++ body ∧
    body.length = arpHdrLen dev ∧
    decodeArp body = some (garpRequest dev destIp srcIp srcHw targetHw)
  place : garp.arp = garp.skb.data + ethHlen
  once : ∀ i, garp.writes.countP (Write.Covers i) =
    if garp.arp ≤ i ∧ i < garp.arp + arpHdrLen dev then 1 else 0

theorem ethHeader_skbOf {d m t : List Byte} (hd : d.length = 6) (hm : m.length = 6)
    (ht : t.length = 2) (daddr saddr : HwPtr) (front body rest : List Byte) :
    ethHeader (skbOf (front ++ (d ++ (m ++ t))) body rest) ethPArp daddr saddr =
      .ok (ethHlen, skbOf front
        ((hwBytes daddr 6 ++ (hwBytes saddr 6 ++ [0x08, 0x06])) ++ body) rest) := by
  have hpush := skbPush_skbOf front (d ++ (m ++ t)) body rest
  have he : (d ++ (m ++ t)).length = ethHlen := by
    simp only [List.length_append, hd, hm, ht, ethHlen]
  have harp : leBytes 2 (htons ethPArp).toNat = [0x08, 0x06] := by decide
  rw [he, List.append_assoc d, List.append_assoc m] at hpush
  simp only [ethHeader, bind, Except.bind, hpush, harp]
  rw [store_proto _ _ _ hd hm ht, store_source _ _ _ hd (by rw [hm, length_hwBytes]),
    store_dest _ _ _ (by rw [hd, length_hwBytes])]
  simp only [pure, Except.pure, List.append_assoc]

/-- The size that `garp_create` allocates does not wrap. -/
theorem toNat_garpSize (dev : Netdev) :
    (BitVec.ofNat 32 (arpHdrLen dev) + llReservedSpace dev +
      dev.neededTailroom.setWidth 32).toNat =
      (llReservedSpace dev).toNat + (arpHdrLen dev + dev.neededTailroom.toNat) := by
  have haddr := dev.addrLen.isLt
  have hll := llReservedSpace_bounds dev
  have htail := dev.neededTailroom.isLt
  have hlen : arpHdrLen dev ≤ 526 := by
    unfold arpHdrLen
    split <;> omega
  simp only [BitVec.toNat_add, BitVec.toNat_ofNat, BitVec.toNat_setWidth]
  omega

/-- The new buffer: headroom that ends in the place of an Ethernet header, the
    place of the ARP part, tailroom. -/
theorem exists_garpBlank (dev : Netdev) (mem : SkbMem) :
    ∃ front d m t old rest, d.length = 6 ∧ m.length = 6 ∧ t.length = 2 ∧
      (front ++ (d ++ (m ++ t))).length = (llReservedSpace dev).toNat ∧
      old.length = arpHdrLen dev ∧
      allocSkb (BitVec.ofNat 32 (arpHdrLen dev) + llReservedSpace dev +
        dev.neededTailroom.setWidth 32) (some mem) =
          some { buf := (front ++ (d ++ (m ++ t))) ++ (old ++ rest), data := 0, tail := 0 } := by
  obtain ⟨front, d, m, t, hhead, hd, hm, ht⟩ := exists_headroom dev mem
  refine ⟨front, d, m, t, staleBytes mem (llReservedSpace dev).toNat (arpHdrLen dev),
    staleBytes mem ((llReservedSpace dev).toNat + arpHdrLen dev)
      (dev.neededTailroom.toNat + mem.slack), hd, hm, ht, ?_, length_staleBytes .., ?_⟩
  · rw [← hhead, length_staleBytes]
  · rw [← hhead, allocSkb, Option.map_some, toNat_garpSize]
    simp only [Nat.add_assoc, staleBytes_add, Nat.zero_add]

/-- What `garp_create` returns, on any device: the writes go to a part of
    `arp_hdr_len` bytes behind the Ethernet header. -/
theorem garpCreate_some (dev : Netdev) (mem : SkbMem) (destIp srcIp : BitVec 32)
    (destHw srcHw targetHw : Option HwPtr) :
    ∃ front old rest, old.length = arpHdrLen dev ∧
      garpCreate (some mem) destIp dev srcIp destHw srcHw targetHw = .ok (some
        { skb := (skbOf front ((hwBytes (destHw.getD dev.broadcast) 6 ++
            (hwBytes (srcHw.getD dev.devAddr) 6 ++ [0x08, 0x06])) ++ old) rest).storeAll
              (arpWrites dev destIp srcIp (srcHw.getD dev.devAddr) targetHw (front.length + 14))
          arp := front.length + 14
          writes := arpWrites dev destIp srcIp (srcHw.getD dev.devAddr) targetHw
            (front.length + 14) }) := by
  obtain ⟨front, d, m, t, old, rest, hd, hm, ht, hroom, hold, halloc⟩ := exists_garpBlank dev mem
  have hput := skbPut_skbOf (front ++ (d ++ (m ++ t))) [] old rest
  have heth := ethHeader_skbOf hd hm ht (destHw.getD dev.broadcast) (srcHw.getD dev.devAddr) front
    old rest
  have harp : (front ++ (d ++ (m ++ t))).length = front.length + 14 := by
    simp only [List.length_append, hd, hm, ht]
  have hret : ¬ ((ethHlen : Int) < 0) := by decide
  rw [hold] at hput
  refine ⟨front, old, rest, hold, ?_⟩
  simp only [garpCreate, halloc, bind, Except.bind]
  rw [← hroom, skbReserve_empty, hput]
  simp only [List.nil_append, List.length_nil, Nat.add_zero, heth, if_neg hret, harp]
  rfl

/-- The same where the writes have room: they make up the ARP part. -/
theorem garpCreate_eq {dev : Netdev} (hfw : dev.type ≠ arphrdIeee1394) (mem : SkbMem)
    (destIp srcIp : BitVec 32) (destHw srcHw targetHw : Option HwPtr) :
    ∃ front rest, garpCreate (some mem) destIp dev srcIp destHw srcHw targetHw = .ok (some
      { skb := skbOf front ((hwBytes (destHw.getD dev.broadcast) 6 ++
          (hwBytes (srcHw.getD dev.devAddr) 6 ++ [0x08, 0x06])) ++
            written (arpWrites dev destIp srcIp (srcHw.getD dev.devAddr) targetHw
              (front.length + 14))) rest
        arp := front.length + 14
        writes := arpWrites dev destIp srcIp (srcHw.getD dev.devAddr) targetHw
          (front.length + 14) }) := by
  obtain ⟨front, old, rest, hold, hcreate⟩ :=
    garpCreate_some dev mem destIp srcIp destHw srcHw targetHw
  have hstore := storeAll_skbOf front (hwBytes (destHw.getD dev.broadcast) 6 ++
      (hwBytes (srcHw.getD dev.devAddr) 6 ++ [0x08, 0x06])) rest
    (by simp only [List.length_append, length_hwBytes, List.length_cons, List.length_nil])
    (tiles_arpWrites dev destIp srcIp (srcHw.getD dev.devAddr) targetHw (front.length + 14))
    (hold.trans (length_written_arpWrites hfw destIp srcIp srcHw targetHw _).symm)
  exact ⟨front, rest, by rw [hcreate, hstore]⟩

theorem garpCreate_ok {dev : Netdev} (hfw : dev.type ≠ arphrdIeee1394) (mem : SkbMem)
    (destIp srcIp : BitVec 32) (destHw srcHw targetHw : Option HwPtr) :
    ∃ garp, garpCreate (some mem) destIp dev srcIp destHw srcHw targetHw = .ok (some garp) ∧
      GarpOk dev destIp srcIp destHw srcHw targetHw garp := by
  obtain ⟨front, rest, hcreate⟩ := garpCreate_eq hfw mem destIp srcIp destHw srcHw targetHw
  have hlen := length_written_arpWrites hfw destIp srcIp srcHw targetHw (front.length + 14)
  have htiles := tiles_arpWrites dev destIp srcIp (srcHw.getD dev.devAddr) targetHw
    (front.length + 14)
  refine ⟨_, hcreate, ⟨_, bytes_skbOf .., hlen, decodeArp_written ..⟩, rfl, fun i => ?_⟩
  rw [countP_covers_tiles htiles, hlen]

/-- One address: `garp_send` hands over one frame. -/
theorem garpSend_sent {dev : Netdev} (hfw : dev.type ≠ arphrdIeee1394) {o : SendOutcome}
    {mem : SkbMem} (hmem : o.mem = some mem) (destIp srcIp : BitVec 32)
    (destHw srcHw targetHw : Option HwPtr) (s : TxState) :
    ∃ garp s', garpCreate o.mem destIp dev srcIp destHw srcHw targetHw = .ok (some garp) ∧
      GarpOk dev destIp srcIp destHw srcHw targetHw garp ∧
      garpSend o destIp dev srcIp destHw srcHw targetHw s = .ok s' ∧
      s'.sent = s.sent ++ [garp.skb.bytes] := by
  obtain ⟨garp, hcreate, hok⟩ := garpCreate_ok hfw mem destIp srcIp destHw srcHw targetHw
  rw [← hmem] at hcreate
  refine ⟨garp, if o.xmit < 0 then
      ({ s with allocs := s.allocs + 1 }.devQueueXmit s.allocs garp.skb).kfreeSkb s.allocs
    else { s with allocs := s.allocs + 1 }.devQueueXmit s.allocs garp.skb, hcreate, hok, ?_, ?_⟩
  · simp only [garpSend, hcreate, bind, Except.bind]
    rfl
  · split <;> rfl

/-- `f` is the frame of a gratuitous request for the address `a`. -/
def Announces (dev : Netdev) (a : BitVec 32 × SendOutcome) (f : List Byte) : Prop :=
  ∃ garp, garpCreate a.2.mem a.1 dev a.1 none (some dev.devAddr) none = .ok (some garp) ∧
    GarpOk dev a.1 a.1 none (some dev.devAddr) none garp ∧ garp.skb.bytes = f

/-- The loop over the addresses: one frame each, in order. -/
theorem garpSendGratuitousArp_sent {dev : Netdev} (hfw : dev.type ≠ arphrdIeee1394)
    (ifas : List (BitVec 32 × SendOutcome)) (hmem : ∀ a ∈ ifas, a.2.mem ≠ none) (s : TxState) :
    ∃ s' frames, garpSendGratuitousArp dev ifas s = .ok s' ∧ s'.sent = s.sent ++ frames ∧
      List.Forall₂ (Announces dev) ifas frames := by
  induction ifas generalizing s with
  | nil => exact ⟨s, [], rfl, (List.append_nil _).symm, List.Forall₂.nil⟩
  | cons a ifas ih =>
      obtain ⟨mem, hmemA⟩ := Option.ne_none_iff_exists'.mp (hmem a (List.mem_cons_self ..))
      obtain ⟨garp, s₁, hcreate, hok, hsend, hsent⟩ :=
        garpSend_sent hfw hmemA a.1 a.1 none (some dev.devAddr) none s
      obtain ⟨s₂, frames, hrest, hsent', hall⟩ :=
        ih (fun b hb => hmem b (List.mem_cons_of_mem _ hb)) s₁
      refine ⟨s₂, garp.skb.bytes :: frames, ?_, ?_, List.Forall₂.cons ⟨garp, hcreate, hok, rfl⟩ hall⟩
      · simp only [garpSendGratuitousArp, hsend, bind, Except.bind, hrest]
      · rw [hsent', hsent, List.append_assoc, List.singleton_append]

/-- Every frame that `garp_create` returns for a device other than FireWire is
    the request it was asked for, and `garp_send_gratuitous_arp` sends one for
    each address, in order, with the address as sender and as target. -/
theorem garp_frames_decode {dev : Netdev} (hfw : dev.type ≠ arphrdIeee1394) :
    (∀ mem destIp srcIp destHw srcHw targetHw, ∃ garp,
      garpCreate (some mem) destIp dev srcIp destHw srcHw targetHw = .ok (some garp) ∧
        GarpOk dev destIp srcIp destHw srcHw targetHw garp) ∧
    ∀ ifas s, (∀ a ∈ ifas, a.2.mem ≠ none) → ∃ s' frames,
      garpSendGratuitousArp dev ifas s = .ok s' ∧ s'.sent = s.sent ++ frames ∧
        List.Forall₂ (Announces dev) ifas frames :=
  ⟨garpCreate_ok hfw, fun ifas s hmem => garpSendGratuitousArp_sent hfw ifas hmem s⟩

/-- Two addresses of one card; the second frame is refused by the device. -/
def twoAddresses : List (BitVec 32 × SendOutcome) :=
  [(0xc701000a, ⟨some (filledWith 0xaa), 0⟩), (0xc802000a, ⟨some (filledWith 0x55), -1⟩)]

theorem garp_frames_decode_two_addresses :
    eth0.type ≠ arphrdIeee1394 ∧ ∃ s' frames,
      garpSendGratuitousArp eth0 twoAddresses txStart = .ok s' ∧ s'.sent = txStart.sent ++ frames ∧
        List.Forall₂ (Announces eth0) twoAddresses frames := by
  refine ⟨by decide, (garp_frames_decode (by decide)).2 twoAddresses txStart ?_⟩
  simp [twoAddresses]

end LinuxModules.Nic
