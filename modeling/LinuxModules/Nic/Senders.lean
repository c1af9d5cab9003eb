/-
  LinuxModules.Nic.Senders

  `create_new_skb` of `tcp.c` and of `udp.c`: a frame built by hand in a buffer
  that `alloc_skb` does not clear, and handed to `dev_queue_xmit`.

  The two functions differ in the transport header and in what they do about the
  IP checksum.  Both compute the transport checksum before the payload is there.
  `Tcp.fill_eq` and `Udp.fill_eq` say what ends up in the buffer, in terms of the
  headers that its memory happened to hold.
-/

import LinuxModules.Nic.Device
import LinuxModules.Nic.Headers

namespace LinuxModules.Nic

open LinuxModules.Lib LinuxModules.Net

/-! ## The modules' globals -/

/-- `payload`, a static array.  The kernel's code model puts all static data of
    a module within 2 GiB. -/
structure Payload where
  bytes : List Byte
  size_lt : bytes.length < 2 ^ 31

/-- The globals of `tcp.c` and `udp.c`, with `SPORT` and `DPORT`.  `udp.c` does
    not use the sequence numbers, and neither uses `fakeid`. -/
structure Sender where
  payload : Payload
  dstmac : Vector Byte 6
  srcmac : Vector Byte 6
  dstip : Vector Byte 4
  srcip : Vector Byte 4
  sip : BitVec 32
  dip : BitVec 32
  sport : BitVec 16
  dport : BitVec 16
  seq : BitVec 64
  ackSeq : BitVec 64

/-- `sizeof(payload)` -/
def Sender.size (snd : Sender) : Nat := snd.payload.bytes.length

def ipprotoTcp : BitVec 8 := 6

def ipprotoUdp : BitVec 8 := 17

/-- `-ENOMEM` -/
def negEnomem : Int := -12

/-! ## create_new_skb -/

/-- `memcpy(&sip, srcip, ..)` and `memcpy(&dip, dstip, ..)` -/
def Sender.copyAddrs (snd : Sender) : Sender :=
  { snd with
    sip := BitVec.ofNat 32 (leNat snd.srcip.toList)
    dip := BitVec.ofNat 32 (leNat snd.dstip.toList) }

/-- The assignments to `*ih` up to `tot_len`, for a transport header of `hdr`
    bytes.  `id` is not assigned. -/
def Sender.fillIp (snd : Sender) (protocol ttl : BitVec 8) (hdr : Nat) (h : Iphdr) : Iphdr :=
  { h with
    version := 4
    ihl := BitVec.ofNat 4 (20 >>> 2)
    fragOff := 0
    protocol
    tos := 0
    saddr := snd.sip
    daddr := snd.dip
    ttl
    totLen := htons (BitVec.ofNat 16 (snd.size + 20 + hdr)) }

/-- The assignments to `*th`.  `res1`, the flags and `urg_ptr` are not assigned,
    and the sequence numbers do not go through `htonl`. -/
def Sender.fillTcp (snd : Sender) (h : Tcphdr) : Tcphdr :=
  { h with
    source := htons snd.sport
    dest := htons snd.dport
    seq := snd.seq.setWidth 32
    ackSeq := snd.ackSeq.setWidth 32
    doff := 5
    window := htons 5840
    check := 0 }

/-- The assignments to `*uh`. -/
def Sender.fillUdp (snd : Sender) (h : Udphdr) : Udphdr :=
  { h with
    source := htons snd.sport
    dest := htons snd.dport
    len := htons (BitVec.ofNat 16 (8 + snd.size))
    check := 0 }

/-- `seq++` -/
def Sender.nextSeq (snd : Sender) : Sender := { snd with seq := snd.seq + 1 }

/-- `ip_fast_csum((char*)ih, ih->ihl)` -/
def headerCsum (ih : Nat) (skb : RawSkb) : BitVec 16 :=
  ipFastCsum (skb.buf.drop ih) (loadAt Iphdr ih skb.buf).ihl.toNat

/-- The value for the transport checksum, from the data behind the IP header. -/
def Sender.transportCsum (snd : Sender) (protocol : BitVec 8) (ih : Nat) (skb : RawSkb) :
    BitVec 16 :=
  let ihl := (loadAt Iphdr ih skb.buf).ihl.toNat
  let csum := skbChecksum skb (ihl * 4) (skb.len - ihl * 4) 0
  csumTcpudpMagic snd.sip snd.dip (skb.len - ihl * 4) protocol csum

/-- The payload and the Ethernet header, which both senders add last. -/
def Sender.finish (snd : Sender) (skb : RawSkb) : Except SkbPanic RawSkb := do
  let (pdata, skb) ← skbPut skb snd.size
  let skb := skb.store pdata snd.payload.bytes
  let (eh, skb) ← skbPush skb ethHlen
  let skb := skb.store (eh + 12) (leBytes 2 (htons ethPIp).toNat)
  let skb := skb.store eh snd.dstmac.toList
  return skb.store (eh + 6) snd.srcmac.toList

/-- `tcp.c` from `skb_reserve` on. -/
def Tcp.fill (snd : Sender) (dev : Netdev) (skb : RawSkb) : Except SkbPanic (Sender × RawSkb) := do
  let skb := skbReserve skb (llReservedSpace dev).toNat
  let (ih, skb) ← skbPut skb 20
  let snd := snd.copyAddrs
  let skb := skb.modify ih (snd.fillIp ipprotoTcp 0x20 20)
  let skb := skb.modify ih (Iphdr.setCheck 0)
  let (th, skb) ← skbPut skb 20
  let skb := skb.modify th snd.fillTcp
  let snd := snd.nextSeq
  let skb := skb.modify th (Tcphdr.setCheck (snd.transportCsum ipprotoTcp ih skb))
  let skb ← snd.finish skb
  return (snd, skb)

/-- `udp.c` from `skb_reserve` on.  The sum over the IP header is taken with
    `check` as it was in memory. -/
def Udp.fill (snd : Sender) (dev : Netdev) (skb : RawSkb) : Except SkbPanic (Sender × RawSkb) := do
  let skb := skbReserve skb (llReservedSpace dev).toNat
  let (ih, skb) ← skbPut skb 20
  let snd := snd.copyAddrs
  let skb := skb.modify ih (snd.fillIp ipprotoUdp 0x40 8)
  let skb := skb.modify ih (Iphdr.setCheck (headerCsum ih skb))
  let (uh, skb) ← skbPut skb 8
  let skb := skb.modify uh snd.fillUdp
  let skb := skb.modify uh (Udphdr.setCheck (snd.transportCsum ipprotoUdp ih skb))
  let skb ← snd.finish skb
  return (snd, skb)

/-- `dev_queue_xmit` and what follows it.  After a failure the buffer is freed
    once more. -/
def TxState.transmit (s : TxState) (xmit : Int) (id : Nat) (skb : RawSkb) : TxState × Int :=
  let s := s.devQueueXmit id skb
  if xmit < 0 then ((s.kfreeSkb id).devPut, xmit) else (s.devPut, 0)

/-- `create_new_skb` for a transport header of `hdr` bytes.  The early return
    keeps the reference to the device. -/
def createNewSkbWith (hdr : Nat)
    (fill : Sender → Netdev → RawSkb → Except SkbPanic (Sender × RawSkb)) (dev : Option Netdev)
    (o : SendOutcome) (snd : Sender) (s : TxState) : Except SkbPanic (Sender × TxState × Int) :=
  match dev with
  | none => .ok (snd, s, -1)
  | some dev =>
      let s := s.devHold
      let len : BitVec 32 := BitVec.ofNat 32 snd.size + llReservedSpace dev + 20 +
        BitVec.ofNat 32 hdr + dev.neededTailroom.setWidth 32
      match allocSkb len o.mem with
      | none => .ok (snd, s, negEnomem)
      | some skb => do
          let (snd, skb) ← fill snd dev skb
          return (snd, { s with allocs := s.allocs + 1 }.transmit o.xmit s.allocs skb)

def Tcp.createNewSkb (dev : Option Netdev) (o : SendOutcome) (snd : Sender) (s : TxState) :
    Except SkbPanic (Sender × TxState × Int) :=
  createNewSkbWith 20 Tcp.fill dev o snd s

def Udp.createNewSkb (dev : Option Netdev) (o : SendOutcome) (snd : Sender) (s : TxState) :
    Except SkbPanic (Sender × TxState × Int) :=
  createNewSkbWith 8 Udp.fill dev o snd s

/-! ## What the frames hold -/

def Sender.ethHeader (snd : Sender) : List Byte :=
  snd.dstmac.toList ++ (snd.srcmac.toList ++ [0x08, 0x00])

/-- The IP header of a TCP frame, over the one the memory held. -/
def Tcp.ipHeader (snd : Sender) (stale : Iphdr) : Iphdr :=
  (snd.copyAddrs.fillIp ipprotoTcp 0x20 20 stale).setCheck 0

/-- The TCP header.  Its checksum is that of a segment without payload. -/
def Tcp.header (snd : Sender) (stale : Tcphdr) : Tcphdr :=
  (snd.copyAddrs.fillTcp stale).setCheck
    (csumTcpudpMagic snd.copyAddrs.sip snd.copyAddrs.dip 20 ipprotoTcp
      (onesAdd 0 (onesSum (snd.copyAddrs.fillTcp stale).toBytes)))

/-- The IP header of a UDP frame.  The checksum covers the stale `check`. -/
def Udp.ipHeader (snd : Sender) (stale : Iphdr) : Iphdr :=
  (snd.copyAddrs.fillIp ipprotoUdp 0x40 8 stale).setCheck
    (csumFold (onesSum (snd.copyAddrs.fillIp ipprotoUdp 0x40 8 stale).toBytes))

def Udp.header (snd : Sender) (stale : Udphdr) : Udphdr :=
  (snd.copyAddrs.fillUdp stale).setCheck
    (csumTcpudpMagic snd.copyAddrs.sip snd.copyAddrs.dip 8 ipprotoUdp
      (onesAdd 0 (onesSum (snd.copyAddrs.fillUdp stale).toBytes)))

/-- The payload goes to the end and the Ethernet header, in three writes, to the
    front. -/
theorem finish_skbOf (snd : Sender) {d m t p : List Byte} (front body rest : List Byte)
    (hd : d.length = 6) (hm : m.length = 6) (ht : t.length = 2) (hp : p.length = snd.size) :
    snd.finish (skbOf (front ++ (d ++ (m ++ t))) body (p ++ rest)) =
      .ok (skbOf front (snd.ethHeader ++ (body ++ snd.payload.bytes)) rest) := by
  have hput := skbPut_skbOf (front ++ (d ++ (m ++ t))) body p rest
  have hpayload := store_skbOf (front ++ (d ++ (m ++ t))) body p snd.payload.bytes [] rest rfl hp
  have hpush := skbPush_skbOf front (d ++ (m ++ t)) (body ++ snd.payload.bytes) rest
  have he : (d ++ (m ++ t)).length = ethHlen := by
    simp only [List.length_append, hd, hm, ht, ethHlen]
  have hip : leBytes 2 (htons ethPIp).toNat = [0x08, 0x00] := by decide
  rw [hp] at hput
  rw [he, List.append_assoc d, List.append_assoc m] at hpush
  simp only [List.append_nil] at hpayload
  simp only [Sender.finish, hput, bind, Except.bind, hpayload, hpush, hip]
  rw [store_proto _ _ _ hd hm ht, store_dest _ _ _ (by rw [hd, Vector.length_toList]),
    store_source _ _ _ Vector.length_toList (by rw [hm, Vector.length_toList])]
  simp only [pure, Except.pure, Sender.ethHeader, List.append_assoc]

theorem transportCsum_skbOf (snd : Sender) (protocol : BitVec 8) {ip : Iphdr} (hihl : ip.ihl = 5)
    (front seg rest : List Byte) :
    snd.transportCsum protocol front.length (skbOf front (Layout.toBytes ip ++ seg) rest) =
      csumTcpudpMagic snd.sip snd.dip seg.length protocol (onesAdd 0 (onesSum seg)) := by
  have hlen : (Layout.toBytes ip ++ seg).length = 20 + seg.length := by
    rw [List.length_append, Layout.length_toBytes]
    rfl
  have hdrop : (Layout.toBytes ip ++ seg).drop 20 = seg := by
    have hip : (Layout.toBytes ip).length = 20 := Layout.length_toBytes ip
    rw [← hip, List.drop_left]
  have hfive : (5 : BitVec 4).toNat * 4 = 20 := rfl
  simp only [Sender.transportCsum, loadAt_skbOf, hihl, hfive, len_skbOf, hlen, skbChecksum,
    bytes_skbOf, hdrop, Nat.add_sub_cancel_left, List.take_length]

/-- A new buffer: the headroom, with the place of the Ethernet header at its end,
    and behind it the places of the IP header `i`, the transport header `x` and
    the payload `p`. -/
structure Blank (snd : Sender) (dev : Netdev) (hdr : Nat) (front d m t i x p : List Byte) :
    Prop where
  dest : d.length = 6
  source : m.length = 6
  proto : t.length = 2
  headroom : (front ++ (d ++ (m ++ t))).length = (llReservedSpace dev).toNat
  ip : i.length = 20
  transport : x.length = hdr
  payload : p.length = snd.size

/-- What `tcp.c` makes of a new buffer. -/
theorem Tcp.fill_eq (snd : Sender) {dev : Netdev} {front d m t i x p : List Byte}
    (h : Blank snd dev 20 front d m t i x p) (rest : List Byte) :
    Tcp.fill snd dev
        { buf := (front ++ (d ++ (m ++ t))) ++ (i ++ (x ++ (p ++ rest))), data := 0, tail := 0 } =
      .ok (snd.copyAddrs.nextSeq, skbOf front (snd.ethHeader ++
        ((Layout.toBytes (Tcp.ipHeader snd (Layout.ofBytes i)) ++
          Layout.toBytes (Tcp.header snd (Layout.ofBytes x))) ++ snd.payload.bytes)) rest) := by
  have hputIp := skbPut_skbOf (front ++ (d ++ (m ++ t))) [] i (x ++ (p ++ rest))
  have hputTcp := skbPut_skbOf (front ++ (d ++ (m ++ t)))
    (Layout.toBytes (Tcp.ipHeader snd (Layout.ofBytes i))) x (p ++ rest)
  have hcsum := transportCsum_skbOf snd.copyAddrs.nextSeq ipprotoTcp
    (show (Tcp.ipHeader snd (Layout.ofBytes i)).ihl = 5 from rfl) (front ++ (d ++ (m ++ t)))
    (Layout.toBytes (snd.copyAddrs.fillTcp (Layout.ofBytes x))) (p ++ rest)
  rw [h.ip] at hputIp
  rw [h.transport] at hputTcp
  simp only [Tcp.fill, bind, Except.bind]
  -- two rounds of assignments to the IP header, then two to the TCP header
  rw [← h.headroom, skbReserve_empty, hputIp]
  simp only
  rw [modify_skbOf _ _ _ _ h.ip, modify_skbOf _ _ _ _ (Layout.length_toBytes _),
    Layout.ofBytes_toBytes, List.nil_append, ← Tcp.ipHeader, hputTcp]
  simp only
  rw [modify_skbOf _ _ _ _ h.transport, modify_skbOf _ _ _ _ (Layout.length_toBytes _),
    Layout.ofBytes_toBytes, List.length_nil, Nat.add_zero, hcsum,
    finish_skbOf snd.copyAddrs.nextSeq _ _ _ h.dest h.source h.proto h.payload,
    Layout.length_toBytes]
  rfl

theorem headerCsum_skbOf {ip : Iphdr} (hihl : ip.ihl = 5) (front rest : List Byte) :
    headerCsum front.length (skbOf front (Layout.toBytes ip) rest) =
      csumFold (onesSum (Layout.toBytes ip)) := by
  have hload := loadAt_skbOf ip front [] rest
  rw [List.append_nil] at hload
  have htake : ((skbOf front (Layout.toBytes ip) rest).buf.drop front.length).take 20 =
      Layout.toBytes ip := by
    have hip : (Layout.toBytes ip).length = 20 := Layout.length_toBytes ip
    rw [skbOf, List.drop_left, ← hip, List.take_left]
  have hfive : 4 * (5 : BitVec 4).toNat = 20 := rfl
  rw [headerCsum, hload, hihl, ipFastCsum, hfive, htake]

/-- What `udp.c` makes of a new buffer. -/
theorem Udp.fill_eq (snd : Sender) {dev : Netdev} {front d m t i x p : List Byte}
    (h : Blank snd dev 8 front d m t i x p) (rest : List Byte) :
    Udp.fill snd dev
        { buf := (front ++ (d ++ (m ++ t))) ++ (i ++ (x ++ (p ++ rest))), data := 0, tail := 0 } =
      .ok (snd.copyAddrs, skbOf front (snd.ethHeader ++
        ((Layout.toBytes (Udp.ipHeader snd (Layout.ofBytes i)) ++
          Layout.toBytes (Udp.header snd (Layout.ofBytes x))) ++ snd.payload.bytes)) rest) := by
  have hputIp := skbPut_skbOf (front ++ (d ++ (m ++ t))) [] i (x ++ (p ++ rest))
  have hputUdp := skbPut_skbOf (front ++ (d ++ (m ++ t)))
    (Layout.toBytes (Udp.ipHeader snd (Layout.ofBytes i))) x (p ++ rest)
  -- the checksum is taken before `check` is assigned
  have hip : Iphdr.setCheck (headerCsum (front ++ (d ++ (m ++ t))).length
      (skbOf (front ++ (d ++ (m ++ t)))
        (Layout.toBytes (snd.copyAddrs.fillIp ipprotoUdp 0x40 8 (Layout.ofBytes i)))
        (x ++ (p ++ rest)))) (snd.copyAddrs.fillIp ipprotoUdp 0x40 8 (Layout.ofBytes i)) =
      Udp.ipHeader snd (Layout.ofBytes i) := by
    rw [headerCsum_skbOf rfl]
    rfl
  have hcsum := transportCsum_skbOf snd.copyAddrs ipprotoUdp
    (show (Udp.ipHeader snd (Layout.ofBytes i)).ihl = 5 from rfl) (front ++ (d ++ (m ++ t)))
    (Layout.toBytes (snd.copyAddrs.fillUdp (Layout.ofBytes x))) (p ++ rest)
  rw [h.ip] at hputIp
  rw [h.transport] at hputUdp
  simp only [Udp.fill, bind, Except.bind]
  rw [← h.headroom, skbReserve_empty, hputIp]
  simp only
  rw [modify_skbOf _ _ _ _ h.ip, modify_skbOf _ _ _ _ (Layout.length_toBytes _),
    Layout.ofBytes_toBytes, List.length_nil, Nat.add_zero, List.nil_append, List.nil_append, hip,
    hputUdp]
  simp only
  rw [modify_skbOf _ _ _ _ h.transport, modify_skbOf _ _ _ _ (Layout.length_toBytes _),
    Layout.ofBytes_toBytes, hcsum,
    finish_skbOf snd.copyAddrs _ _ _ h.dest h.source h.proto h.payload, Layout.length_toBytes]
  rfl

/-! ## The calls -/

/-- `len` of `create_new_skb` does not wrap. -/
theorem toNat_len (snd : Sender) (dev : Netdev) {hdr : Nat} (hhdr : hdr ≤ 20) :
    (BitVec.ofNat 32 snd.size + llReservedSpace dev + 20 + BitVec.ofNat 32 hdr +
      dev.neededTailroom.setWidth 32).toNat =
      (llReservedSpace dev).toNat + (20 + (hdr + (snd.size + dev.neededTailroom.toNat))) := by
  have hsize : snd.size < 2 ^ 31 := snd.payload.size_lt
  have hll := llReservedSpace_bounds dev
  have htail := dev.neededTailroom.isLt
  have htwenty : (20 : BitVec 32).toNat = 20 := rfl
  simp only [BitVec.toNat_add, BitVec.toNat_ofNat, BitVec.toNat_setWidth, htwenty]
  omega

/-- The headers that the memory held where the code puts its own. -/
def staleIp (dev : Netdev) (mem : SkbMem) : Iphdr :=
  Layout.ofBytes (staleBytes mem (llReservedSpace dev).toNat 20)

def staleTcp (dev : Netdev) (mem : SkbMem) : Tcphdr :=
  Layout.ofBytes (staleBytes mem ((llReservedSpace dev).toNat + 20) 20)

def staleUdp (dev : Netdev) (mem : SkbMem) : Udphdr :=
  Layout.ofBytes (staleBytes mem ((llReservedSpace dev).toNat + 20) 8)

def Tcp.frame (snd : Sender) (ih : Iphdr) (th : Tcphdr) : List Byte :=
  snd.ethHeader ++ ((Layout.toBytes (Tcp.ipHeader snd ih) ++
    Layout.toBytes (Tcp.header snd th)) ++ snd.payload.bytes)

def Udp.frame (snd : Sender) (ih : Iphdr) (uh : Udphdr) : List Byte :=
  snd.ethHeader ++ ((Layout.toBytes (Udp.ipHeader snd ih) ++
    Layout.toBytes (Udp.header snd uh)) ++ snd.payload.bytes)

/-- The new buffer is large enough for all parts. -/
theorem exists_blank (snd : Sender) (dev : Netdev) {hdr : Nat} (hhdr : hdr ≤ 20) (mem : SkbMem) :
    ∃ front d m t p rest,
      Blank snd dev hdr front d m t (staleBytes mem (llReservedSpace dev).toNat 20)
        (staleBytes mem ((llReservedSpace dev).toNat + 20) hdr) p ∧
      allocSkb (BitVec.ofNat 32 snd.size + llReservedSpace dev + 20 + BitVec.ofNat 32 hdr +
        dev.neededTailroom.setWidth 32) (some mem) = some
          { buf := (front ++ (d ++ (m ++ t))) ++ (staleBytes mem (llReservedSpace dev).toNat 20 ++
              (staleBytes mem ((llReservedSpace dev).toNat + 20) hdr ++ (p ++ rest)))
            data := 0
            tail := 0 } := by
  obtain ⟨front, d, m, t, hhead, hd, hm, ht⟩ := exists_headroom dev mem
  refine ⟨front, d, m, t, staleBytes mem ((llReservedSpace dev).toNat + 20 + hdr) snd.size,
    staleBytes mem ((llReservedSpace dev).toNat + 20 + hdr + snd.size)
      (dev.neededTailroom.toNat + mem.slack), ?_, ?_⟩
  · have hroom := congrArg List.length hhead
    rw [length_staleBytes] at hroom
    exact ⟨hd, hm, ht, hroom.symm, length_staleBytes .., length_staleBytes .., length_staleBytes ..⟩
  · rw [← hhead, allocSkb, Option.map_some, toNat_len snd dev hhdr]
    simp only [Nat.add_assoc, staleBytes_add, Nat.zero_add]

/-- The call returns, having handed over the frame `f`. -/
def Hands (r : Except SkbPanic (Sender × TxState × Int)) (s : TxState) (f : List Byte) : Prop :=
  ∃ snd res, r = .ok (snd, res) ∧ res.1.sent = s.sent ++ [f]

theorem sent_transmit (s : TxState) (xmit : Int) (id : Nat) (skb : RawSkb) :
    (s.transmit xmit id skb).1.sent = s.sent ++ [skb.bytes] := by
  unfold TxState.transmit
  split <;> rfl

/-- A call whose buffer was allocated and filled. -/
theorem createNewSkbWith_of_fill {hdr : Nat}
    {fill : Sender → Netdev → RawSkb → Except SkbPanic (Sender × RawSkb)} {dev : Netdev}
    {snd snd' : Sender} {skb skb' : RawSkb} {o : SendOutcome}
    (halloc : allocSkb (BitVec.ofNat 32 snd.size + llReservedSpace dev + 20 + BitVec.ofNat 32 hdr +
      dev.neededTailroom.setWidth 32) o.mem = some skb)
    (hfill : fill snd dev skb = .ok (snd', skb')) (s : TxState) :
    createNewSkbWith hdr fill (some dev) o snd s =
      .ok (snd', { s.devHold with allocs := s.allocs + 1 }.transmit o.xmit s.allocs skb') := by
  simp only [createNewSkbWith, halloc, hfill, bind, Except.bind]
  rfl

/-- `tcp.c` with a buffer: the frame is handed over. -/
theorem Tcp.createNewSkb_some (dev : Netdev) (mem : SkbMem) (xmit : Int) (snd : Sender)
    (s : TxState) :
    ∃ snd' skb, skb.bytes = Tcp.frame snd (staleIp dev mem) (staleTcp dev mem) ∧
      Tcp.createNewSkb (some dev) ⟨some mem, xmit⟩ snd s =
        .ok (snd', { s.devHold with allocs := s.allocs + 1 }.transmit xmit s.allocs skb) := by
  obtain ⟨front, d, m, t, p, rest, hblank, halloc⟩ := exists_blank snd dev (Nat.le_refl 20) mem
  exact ⟨_, _, bytes_skbOf ..,
    createNewSkbWith_of_fill (o := ⟨some mem, xmit⟩) halloc (Tcp.fill_eq snd hblank rest) s⟩

/-- `udp.c` with a buffer. -/
theorem Udp.createNewSkb_some (dev : Netdev) (mem : SkbMem) (xmit : Int) (snd : Sender)
    (s : TxState) :
    ∃ snd' skb, skb.bytes = Udp.frame snd (staleIp dev mem) (staleUdp dev mem) ∧
      Udp.createNewSkb (some dev) ⟨some mem, xmit⟩ snd s =
        .ok (snd', { s.devHold with allocs := s.allocs + 1 }.transmit xmit s.allocs skb) := by
  obtain ⟨front, d, m, t, p, rest, hblank, halloc⟩ := exists_blank snd dev (show 8 ≤ 20 by decide) mem
  exact ⟨_, _, bytes_skbOf ..,
    createNewSkbWith_of_fill (o := ⟨some mem, xmit⟩) halloc (Udp.fill_eq snd hblank rest) s⟩

theorem Tcp.hands_frame (dev : Netdev) (mem : SkbMem) (xmit : Int) (snd : Sender) (s : TxState) :
    Hands (Tcp.createNewSkb (some dev) ⟨some mem, xmit⟩ snd s) s
      (Tcp.frame snd (staleIp dev mem) (staleTcp dev mem)) := by
  obtain ⟨snd', skb, hbytes, hcall⟩ := Tcp.createNewSkb_some dev mem xmit snd s
  exact ⟨snd', _, hcall, by rw [sent_transmit, hbytes]; rfl⟩

theorem Udp.hands_frame (dev : Netdev) (mem : SkbMem) (xmit : Int) (snd : Sender) (s : TxState) :
    Hands (Udp.createNewSkb (some dev) ⟨some mem, xmit⟩ snd s) s
      (Udp.frame snd (staleIp dev mem) (staleUdp dev mem)) := by
  obtain ⟨snd', skb, hbytes, hcall⟩ := Udp.createNewSkb_some dev mem xmit snd s
  exact ⟨snd', _, hcall, by rw [sent_transmit, hbytes]; rfl⟩

/-! ## The layout of the frames -/

/-- `f` is an Ethernet header, the IP header `ih`, a transport header `x` of `hdr`
    bytes and the payload, one right behind the other, and `tot_len` counts the
    bytes of the datagram if it can. -/
structure LaidOut (snd : Sender) (protocol : BitVec 8) (hdr : Nat) (f : List Byte) (ih : Iphdr)
    (x : List Byte) : Prop where
  parts : f = snd.ethHeader ++ (Layout.toBytes ih ++ (x ++ snd.payload.bytes))
  eth : snd.ethHeader.length = 14
  ip : (Layout.toBytes ih).length = 20
  transport : x.length = hdr
  kind : ih.version = 4 ∧ ih.ihl = 5 ∧ ih.protocol = protocol
  totLen : (f.drop 14).length < 65536 → wireWord ih.totLen = (f.drop 14).length

/-- A call that returns without a panic: it hands over one frame, and the frame
    satisfies `P`; or there is no device or no memory, and it hands over none. -/
def HandsOnly (P : List Byte → Prop) (dev : Option Netdev) (o : SendOutcome) (s : TxState)
    (r : Except SkbPanic (Sender × TxState × Int)) : Prop :=
  (dev.isSome ∧ o.mem.isSome ∧ ∃ f, Hands r s f ∧ P f) ∨
  ((dev = none ∨ o.mem = none) ∧ ∃ snd res, r = .ok (snd, res) ∧ res.1.sent = s.sent)

theorem handsOnly_createNewSkbWith {P : List Byte → Prop} {hdr : Nat}
    {fill : Sender → Netdev → RawSkb → Except SkbPanic (Sender × RawSkb)} {snd : Sender}
    {s : TxState}
    (h : ∀ dev mem xmit, ∃ f, Hands (createNewSkbWith hdr fill (some dev) ⟨some mem, xmit⟩ snd s) s f ∧
      P f) (dev : Option Netdev) (o : SendOutcome) :
    HandsOnly P dev o s (createNewSkbWith hdr fill dev o snd s) := by
  obtain ⟨mem, xmit⟩ := o
  cases dev with
  | none => exact Or.inr ⟨Or.inl rfl, _, _, rfl, rfl⟩
  | some dev =>
      cases mem with
      | none => exact Or.inr ⟨Or.inr rfl, _, _, rfl, rfl⟩
      | some mem => exact Or.inl ⟨rfl, rfl, h dev mem xmit⟩

theorem length_ethHeader (snd : Sender) : snd.ethHeader.length = 14 := by
  simp [Sender.ethHeader]

/-- A 16-bit length field that went through `htons`. -/
theorem wireWord_htons_ofNat {n : Nat} (h : n < 65536) : wireWord (htons (BitVec.ofNat 16 n)) = n := by
  rw [wireWord_htons, BitVec.toNat_ofNat, Nat.mod_eq_of_lt h]

/-- A frame of three headers and the payload is laid out. -/
theorem laidOut_of_parts {snd : Sender} {protocol : BitVec 8} {hdr : Nat} {f : List Byte}
    {ih : Iphdr} {x : List Byte}
    (hf : f = snd.ethHeader ++ ((Layout.toBytes ih ++ x) ++ snd.payload.bytes))
    (hx : x.length = hdr) (hkind : ih.version = 4 ∧ ih.ihl = 5 ∧ ih.protocol = protocol)
    (htot : ih.totLen = htons (BitVec.ofNat 16 (snd.size + 20 + hdr))) :
    LaidOut snd protocol hdr f ih x := by
  have hip : (Layout.toBytes ih).length = 20 := Layout.length_toBytes ih
  have hlen : (f.drop 14).length = snd.size + 20 + hdr := by
    rw [hf, ← length_ethHeader snd, List.drop_left]
    simp only [List.length_append, hip, hx, Sender.size]
    omega
  refine ⟨?_, length_ethHeader snd, hip, hx, hkind, fun hfits => ?_⟩
  · rw [hf, List.append_assoc (Layout.toBytes ih)]
  · rw [hlen] at hfits ⊢
    rw [htot, wireWord_htons_ofNat hfits]

/-- What follows the IP header. -/
theorem LaidOut.drop_transport {snd : Sender} {protocol : BitVec 8} {hdr : Nat} {f : List Byte}
    {ih : Iphdr} {x : List Byte} (h : LaidOut snd protocol hdr f ih x) :
    f.drop 34 = x ++ snd.payload.bytes := by
  have hlen : (snd.ethHeader ++ Layout.toBytes ih).length = 34 := by
    rw [List.length_append, h.eth, h.ip]
  rw [h.parts, ← List.append_assoc, ← hlen, List.drop_left]

theorem Tcp.laidOut_frame (snd : Sender) (ih : Iphdr) (th : Tcphdr) :
    LaidOut snd ipprotoTcp 20 (Tcp.frame snd ih th) (Tcp.ipHeader snd ih)
      (Layout.toBytes (Tcp.header snd th)) :=
  laidOut_of_parts rfl (Layout.length_toBytes _) ⟨rfl, rfl, rfl⟩ rfl

theorem Udp.laidOut_frame (snd : Sender) (ih : Iphdr) (uh : Udphdr) :
    LaidOut snd ipprotoUdp 8 (Udp.frame snd ih uh) (Udp.ipHeader snd ih)
      (Layout.toBytes (Udp.header snd uh)) :=
  laidOut_of_parts rfl (Layout.length_toBytes _) ⟨rfl, rfl, rfl⟩ rfl

/-- For every device, payload and outcome neither sender panics, and the frame
    it hands over is laid out as its headers say; `uh->len` counts the bytes of
    the UDP datagram if it can. -/
theorem frames_laid_out (dev : Option Netdev) (o : SendOutcome) (snd : Sender) (s : TxState) :
    HandsOnly (fun f => ∃ (ih : Iphdr) (th : Tcphdr),
        LaidOut snd ipprotoTcp 20 f ih (Layout.toBytes th))
      dev o s (Tcp.createNewSkb dev o snd s) ∧
    HandsOnly (fun f => ∃ (ih : Iphdr) (uh : Udphdr),
        LaidOut snd ipprotoUdp 8 f ih (Layout.toBytes uh) ∧
        ((f.drop 34).length < 65536 → wireWord uh.len = (f.drop 34).length))
      dev o s (Udp.createNewSkb dev o snd s) := by
  constructor
  · refine handsOnly_createNewSkbWith (fun dev mem xmit => ⟨_, Tcp.hands_frame dev mem xmit snd s, ?_⟩)
      dev o
    exact ⟨_, _, Tcp.laidOut_frame snd (staleIp dev mem) (staleTcp dev mem)⟩
  · refine handsOnly_createNewSkbWith (fun dev mem xmit => ⟨_, Udp.hands_frame dev mem xmit snd s, ?_⟩)
      dev o
    have hlaid := Udp.laidOut_frame snd (staleIp dev mem) (staleUdp dev mem)
    refine ⟨_, _, hlaid, fun hfits => ?_⟩
    rw [hlaid.drop_transport, List.length_append, hlaid.transport] at hfits ⊢
    exact wireWord_htons_ofNat hfits

end LinuxModules.Nic
