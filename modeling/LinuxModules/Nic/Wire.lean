/-
  LinuxModules.Nic.Wire

  What a receiver makes of the frames of `tcp.c` and `udp.c`: whether their
  checksums verify, and whether they tell what the memory of the buffer held
  before.

  `tcp.c` leaves the IP checksum at zero, `udp.c` computes it over a `check`
  field it has not cleared, and both take the transport checksum before the
  payload is there and with a length that does not count it.  The fields that no
  assignment reaches go out as they were.
-/

import LinuxModules.Nic.Senders

namespace LinuxModules.Nic

open LinuxModules.Lib LinuxModules.Net

/-! ## Checksums -/

/-- The frame verifies: the words of the IP header sum to 0xffff, and so do those
    of the pseudo-header and the segment behind it. -/
def Verifies (f : List Byte) : Prop :=
  let ih := loadAt Iphdr ethHlen f
  let datagram := f.drop ethHlen
  let segment := datagram.drop (4 * ih.ihl.toNat)
  onesSum (datagram.take (4 * ih.ihl.toNat)) = 65535 ∧
    onesSum (pseudoHeader (leBytes 4 ih.saddr.toNat) (leBytes 4 ih.daddr.toNat) ih.protocol
      segment.length ++ segment) = 65535

instance (f : List Byte) : Decidable (Verifies f) := inferInstanceAs (Decidable (_ ∧ _))

theorem verifies_iff {snd : Sender} {protocol : BitVec 8} {hdr : Nat} {f : List Byte} {ih : Iphdr}
    {x : List Byte} (h : LaidOut snd protocol hdr f ih x) :
    Verifies f ↔ onesSum (Layout.toBytes ih) = 65535 ∧
      onesSum (pseudoHeader (leBytes 4 ih.saddr.toNat) (leBytes 4 ih.daddr.toNat) protocol
        (hdr + snd.size) ++ (x ++ snd.payload.bytes)) = 65535 := by
  obtain ⟨-, hihl, hproto⟩ := h.kind
  have hload : loadAt Iphdr ethHlen f = ih := by
    rw [h.parts, ethHlen, loadAt_middle h.eth (Layout.length_toBytes ih), Layout.ofBytes_toBytes]
  have hdgram : f.drop ethHlen = Layout.toBytes ih ++ (x ++ snd.payload.bytes) := by
    rw [h.parts, ethHlen, ← h.eth, List.drop_left]
  have hip : 4 * ih.ihl.toNat = (Layout.toBytes ih).length := by
    rw [hihl, h.ip]
    rfl
  have hlen : (x ++ snd.payload.bytes).length = hdr + snd.size := by
    rw [List.length_append, h.transport, Sender.size]
  simp only [Verifies, hload, hdgram, hip, List.take_left, List.drop_left, hlen, hproto]

/-- The address words are those of the arrays they were copied from. -/
theorem leBytes_copyAddrs (v : Vector Byte 4) :
    leBytes 4 (BitVec.ofNat 32 (leNat v.toList)).toNat = v.toList := by
  have hlen : v.toList.length = 4 := Vector.length_toList
  have hlt : leNat v.toList < 2 ^ 32 := by
    have hlt := leNat_lt v.toList
    rwa [hlen] at hlt
  have hback := leBytes_leNat v.toList
  rw [hlen] at hback
  rw [BitVec.toNat_ofNat, Nat.mod_eq_of_lt hlt, hback]

/-- A segment whose checksum was taken for `hdr` bytes without payload. -/
theorem onesSum_segment_iff {saddr daddr : BitVec 32} {proto : Byte} (hproto : 0 < proto.toNat)
    {hdr n : Nat} (hlen : hdr + n < 2 ^ 32) {h x : List Byte} (heven : x.length % 2 = 0)
    (hx : wordSum x =
      wordSum h + wireWord (csumTcpudpMagic saddr daddr hdr proto (onesAdd 0 (onesSum h))))
    (payload : List Byte) :
    onesSum (pseudoHeader (leBytes 4 saddr.toNat) (leBytes 4 daddr.toNat) proto (hdr + n) ++
      (x ++ payload)) = 65535 ↔ (n + wordSum payload) % 65535 = 0 := by
  have hs : (leBytes 4 saddr.toNat).length = 4 := length_leBytes ..
  have hd : (leBytes 4 daddr.toNat).length = 4 := length_leBytes ..
  have heven' : (pseudoHeader (leBytes 4 saddr.toNat) (leBytes 4 daddr.toNat) proto
      (hdr + n)).length % 2 = 0 := by
    simp [pseudoHeader]
  -- the sum that was complemented, up to multiples of 0xffff
  have hcsum : onesAdd (onesSum (pseudoHeader (leBytes 4 saddr.toNat) (leBytes 4 daddr.toNat)
      proto hdr)) (onesAdd 0 (onesSum h)) % 65535 =
      (wordSum (leBytes 4 saddr.toNat) + wordSum (leBytes 4 daddr.toNat) + proto.toNat + hdr +
        wordSum h) % 65535 := by
    have hpseudo := onesSum_mod_wordSum (pseudoHeader (leBytes 4 saddr.toNat)
      (leBytes 4 daddr.toNat) proto hdr)
    rw [(wordSum_pseudoHeader hs hd proto (by omega)).2] at hpseudo
    rw [onesAdd_mod, Nat.add_mod, hpseudo, onesAdd_mod, Nat.zero_add, onesSum_mod_wordSum,
      ← Nat.add_mod]
  have hle := onesAdd_le (onesSum_le (pseudoHeader (leBytes 4 saddr.toNat) (leBytes 4 daddr.toNat)
    proto hdr)) (onesAdd_le (Nat.zero_le 65535) (onesSum_le h))
  obtain ⟨hpos, hreal⟩ := wordSum_pseudoHeader hs hd proto hlen
  rw [onesSum_eq_ffff_iff, wordSum_append heven', wordSum_append heven, hx, csumTcpudpMagic,
    wireWord_csumFold]
  omega

theorem wordSum_fillIp (snd : Sender) (protocol ttl : BitVec 8) (hdr : Nat) (stale : Iphdr) :
    wordSum (snd.copyAddrs.fillIp protocol ttl hdr stale).toBytes =
      0x4500 + (snd.size + 20 + hdr) % 65536 + wireWord stale.id +
        (ttl.toNat * 256 + protocol.toNat) + wireWord stale.check +
        wordSum snd.srcip.toList + wordSum snd.dstip.toList := by
  have hfirst : nibbles 4 (BitVec.ofNat 4 (20 >>> 2)) * 256 = 0x4500 := rfl
  have htos : (0 : BitVec 8).toNat = 0 := rfl
  have hfrag : wireWord 0 = 0 := rfl
  have hsize : snd.copyAddrs.size = snd.size := rfl
  rw [Iphdr.wordSum_toBytes]
  simp only [Sender.fillIp, hsize, wireWord_htons, BitVec.toNat_ofNat, hfirst, htos, hfrag]
  simp only [Sender.copyAddrs, leBytes_copyAddrs, Nat.add_zero, Nat.reducePow]

/-- The IP header of `tcp.c` happens to sum to 0xffff with its checksum field at
    zero. -/
def Tcp.SumsUp (snd : Sender) (stale : Iphdr) : Prop :=
  (0x4500 + (snd.size + 40) % 65536 + wireWord stale.id + 0x2006 +
    wordSum snd.srcip.toList + wordSum snd.dstip.toList) % 65535 = 0

/-- The payload and its length add nothing to a one's complement sum. -/
def Sender.PayloadCancels (snd : Sender) : Prop :=
  (snd.size + wordSum snd.payload.bytes) % 65535 = 0

theorem Tcp.onesSum_ipHeader_iff (snd : Sender) (stale : Iphdr) :
    onesSum (Tcp.ipHeader snd stale).toBytes = 65535 ↔ Tcp.SumsUp snd stale := by
  -- the header is that of a stale one whose checksum was zero
  have hsum := wordSum_fillIp snd ipprotoTcp 0x20 20 (stale.setCheck 0)
  have hproto : (0x20 : BitVec 8).toNat * 256 + ipprotoTcp.toNat = 0x2006 := rfl
  have hcheck : (stale.setCheck 0).check = 0 := rfl
  have hzero : wireWord 0 = 0 := rfl
  have hid : (stale.setCheck 0).id = stale.id := rfl
  have hheader : Tcp.ipHeader snd stale = snd.copyAddrs.fillIp ipprotoTcp 0x20 20 (stale.setCheck 0) := rfl
  rw [hproto, hcheck, hzero, hid] at hsum
  rw [onesSum_eq_ffff_iff, hheader, hsum, Tcp.SumsUp]
  omega

/-- Complementing the sum cancels all but what stood in the checksum field. -/
theorem Udp.wordSum_ipHeader (snd : Sender) (stale : Iphdr) :
    0 < wordSum (Udp.ipHeader snd stale).toBytes ∧
      (wordSum (Udp.ipHeader snd stale).toBytes + wireWord stale.check) % 65535 = 0 := by
  have hold := wordSum_fillIp snd ipprotoUdp 0x40 8 stale
  have hnew := wordSum_fillIp snd ipprotoUdp 0x40 8 (Udp.ipHeader snd stale)
  have hheader : snd.copyAddrs.fillIp ipprotoUdp 0x40 8 (Udp.ipHeader snd stale) =
      Udp.ipHeader snd stale := rfl
  have hid : (Udp.ipHeader snd stale).id = stale.id := rfl
  have hcheck : wireWord (Udp.ipHeader snd stale).check =
      65535 - onesSum (snd.copyAddrs.fillIp ipprotoUdp 0x40 8 stale).toBytes :=
    wireWord_csumFold _
  have hmod := onesSum_mod_wordSum (snd.copyAddrs.fillIp ipprotoUdp 0x40 8 stale).toBytes
  have hle := onesSum_le (snd.copyAddrs.fillIp ipprotoUdp 0x40 8 stale).toBytes
  rw [hheader, hid, hcheck] at hnew
  omega

theorem Udp.onesSum_ipHeader_iff (snd : Sender) (stale : Iphdr) :
    onesSum (Udp.ipHeader snd stale).toBytes = 65535 ↔ stale.check = 0 ∨ stale.check = 0xffff := by
  obtain ⟨hpos, hsum⟩ := Udp.wordSum_ipHeader snd stale
  have hlt := wireWord_lt stale.check
  have hzero : wireWord stale.check = 0 ↔ stale.check = 0 := wireWord_inj (w := 0)
  have hffff : wireWord stale.check = 65535 ↔ stale.check = 0xffff := wireWord_inj (w := 0xffff)
  rw [onesSum_eq_ffff_iff, ← hzero, ← hffff]
  omega

theorem Tcp.verifies_frame_iff (snd : Sender) (ih : Iphdr) (th : Tcphdr) :
    Verifies (Tcp.frame snd ih th) ↔ Tcp.SumsUp snd ih ∧ snd.PayloadCancels := by
  have hsize : snd.size < 2 ^ 31 := snd.payload.size_lt
  have heven : (Tcp.header snd th).toBytes.length % 2 = 0 :=
    congrArg (· % 2) (Layout.length_toBytes (Tcp.header snd th))
  have hx := (Tcp.header snd th).wordSum_toBytes
  have hseg := onesSum_segment_iff (h := (snd.copyAddrs.fillTcp th).toBytes) (n := snd.size)
    (show 0 < ipprotoTcp.toNat by decide) (by omega) heven hx snd.payload.bytes
  rw [verifies_iff (Tcp.laidOut_frame snd ih th)]
  exact and_congr (Tcp.onesSum_ipHeader_iff snd ih) hseg

theorem Udp.verifies_frame_iff (snd : Sender) (ih : Iphdr) (uh : Udphdr) :
    Verifies (Udp.frame snd ih uh) ↔
      (ih.check = 0 ∨ ih.check = 0xffff) ∧ snd.PayloadCancels := by
  have hsize : snd.size < 2 ^ 31 := snd.payload.size_lt
  have heven : (Udp.header snd uh).toBytes.length % 2 = 0 :=
    congrArg (· % 2) (Layout.length_toBytes (Udp.header snd uh))
  have hx := (Udp.header snd uh).wordSum_toBytes
  have hseg := onesSum_segment_iff (h := (snd.copyAddrs.fillUdp uh).toBytes) (n := snd.size)
    (show 0 < ipprotoUdp.toNat by decide) (by omega) heven hx snd.payload.bytes
  rw [verifies_iff (Udp.laidOut_frame snd ih uh)]
  exact and_congr (Udp.onesSum_ipHeader_iff snd ih) hseg

/-- When the frames verify.  For `tcp.c`: the stale `id` makes the sum over the IP
    header right, and the payload cancels.  For `udp.c`: the stale `check` was one
    of the two zeros of one's complement, and the payload cancels. -/
theorem frames_verify_iff (dev : Netdev) (mem : SkbMem) (xmit : Int) (snd : Sender) (s : TxState) :
    (∃ f, Hands (Tcp.createNewSkb (some dev) ⟨some mem, xmit⟩ snd s) s f ∧
      (Verifies f ↔ Tcp.SumsUp snd (staleIp dev mem) ∧ snd.PayloadCancels)) ∧
    (∃ f, Hands (Udp.createNewSkb (some dev) ⟨some mem, xmit⟩ snd s) s f ∧
      (Verifies f ↔ ((staleIp dev mem).check = 0 ∨ (staleIp dev mem).check = 0xffff) ∧
        snd.PayloadCancels)) :=
  ⟨⟨_, Tcp.hands_frame dev mem xmit snd s, Tcp.verifies_frame_iff ..⟩,
    ⟨_, Udp.hands_frame dev mem xmit snd s, Udp.verifies_frame_iff ..⟩⟩

/-- The globals of the two modules as they are compiled. -/
def shipped : Sender where
  payload := ⟨"i want to send a packet within kernel".toList.map (fun c => BitVec.ofNat 8 c.toNat) ++ [0],
    by decide⟩
  dstmac := #v[0xd4, 0x3d, 0x7e, 0x12, 0x49, 0x06]
  srcmac := #v[0x44, 0x37, 0xe6, 0xa6, 0xd6, 0xe0]
  dstip := #v[10, 0, 3, 58]
  srcip := #v[10, 0, 1, 199]
  sip := 0
  dip := 0
  sport := 5320
  dport := 5321
  seq := 0
  ackSeq := 0

/-- With the compiled payload neither frame verifies, not even from cleared
    memory. -/
theorem shipped_frames_do_not_verify :
    (∃ f, Hands (Tcp.createNewSkb (some eth0) ⟨some (filledWith 0), 0⟩ shipped txStart) txStart f ∧
      ¬ Verifies f) ∧
    (∃ f, Hands (Udp.createNewSkb (some eth0) ⟨some (filledWith 0), 0⟩ shipped txStart) txStart f ∧
      ¬ Verifies f) :=
  ⟨⟨_, Tcp.hands_frame .., by decide +kernel⟩, ⟨_, Udp.hands_frame .., by decide +kernel⟩⟩

/-! ## Stale memory -/

/-- Frames with the same Ethernet header and payload. -/
theorem frame_parts_inj {α : Type _} [Layout α] (eth payload : List Byte) (ip ip' : Iphdr)
    (x x' : α) :
    eth ++ ((Layout.toBytes ip ++ Layout.toBytes x) ++ payload) =
        eth ++ ((Layout.toBytes ip' ++ Layout.toBytes x') ++ payload) ↔ ip = ip' ∧ x = x' := by
  have hlen : (Layout.toBytes ip).length = (Layout.toBytes ip').length := by
    rw [Layout.length_toBytes, Layout.length_toBytes]
  rw [List.append_cancel_left_eq, List.append_cancel_right_eq]
  constructor
  · intro h
    obtain ⟨hip, hx⟩ := List.append_inj h hlen
    exact ⟨toBytes_inj.mp hip, toBytes_inj.mp hx⟩
  · rintro ⟨rfl, rfl⟩
    rfl

theorem Tcp.ipHeader_eq_iff (snd : Sender) (ih ih' : Iphdr) :
    Tcp.ipHeader snd ih = Tcp.ipHeader snd ih' ↔ ih.id = ih'.id := by
  constructor
  · exact congrArg Iphdr.id
  · intro hid
    simp only [Tcp.ipHeader, Sender.fillIp, Iphdr.setCheck, hid]

/-- The fields of the TCP header that no assignment reaches. -/
def Tcphdr.SameUnset (th th' : Tcphdr) : Prop :=
  th.res1 = th'.res1 ∧ th.flags = th'.flags ∧ th.urgPtr = th'.urgPtr

theorem Tcp.header_eq_iff (snd : Sender) (th th' : Tcphdr) :
    Tcp.header snd th = Tcp.header snd th' ↔ th.SameUnset th' := by
  constructor
  · intro h
    have hres := congrArg Tcphdr.res1 h
    have hflags := congrArg Tcphdr.flags h
    have hurg := congrArg Tcphdr.urgPtr h
    exact ⟨hres, hflags, hurg⟩
  · rintro ⟨hres, hflags, hurg⟩
    have hfill : snd.copyAddrs.fillTcp th = snd.copyAddrs.fillTcp th' := by
      simp only [Sender.fillTcp, hres, hflags, hurg]
    rw [Tcp.header, Tcp.header, hfill]

theorem Tcp.frame_eq_iff (snd : Sender) (ih ih' : Iphdr) (th th' : Tcphdr) :
    Tcp.frame snd ih th = Tcp.frame snd ih' th' ↔ ih.id = ih'.id ∧ th.SameUnset th' := by
  rw [Tcp.frame, Tcp.frame, frame_parts_inj, Tcp.ipHeader_eq_iff, Tcp.header_eq_iff]

/-- Equal as one's complement numbers. -/
def OnesEq (v w : BitVec 16) : Prop :=
  v = w ∨ ((v = 0 ∨ v = 0xffff) ∧ (w = 0 ∨ w = 0xffff))

theorem onesEq_iff (v w : BitVec 16) : OnesEq v w ↔ wireWord v % 65535 = wireWord w % 65535 := by
  have hv := wireWord_lt v
  have hw := wireWord_lt w
  have hzero : ∀ u : BitVec 16, u = 0 ↔ wireWord u = 0 := fun u => (wireWord_inj (w := 0)).symm
  have hffff : ∀ u : BitVec 16, u = 0xffff ↔ wireWord u = 65535 := fun u =>
    (wireWord_inj (w := 0xffff)).symm
  rw [OnesEq, ← wireWord_inj, hzero v, hzero w, hffff v, hffff w]
  omega

theorem Udp.ipHeader_eq_iff (snd : Sender) (ih ih' : Iphdr) :
    Udp.ipHeader snd ih = Udp.ipHeader snd ih' ↔ ih.id = ih'.id ∧ OnesEq ih.check ih'.check := by
  have hsum := wordSum_fillIp snd ipprotoUdp 0x40 8 ih
  have hsum' := wordSum_fillIp snd ipprotoUdp 0x40 8 ih'
  have hle := onesSum_le (snd.copyAddrs.fillIp ipprotoUdp 0x40 8 ih).toBytes
  have hle' := onesSum_le (snd.copyAddrs.fillIp ipprotoUdp 0x40 8 ih').toBytes
  -- the two checksums are equal exactly when the sums are
  have hcheck : (Udp.ipHeader snd ih).check = (Udp.ipHeader snd ih').check ↔
      onesSum (snd.copyAddrs.fillIp ipprotoUdp 0x40 8 ih).toBytes =
        onesSum (snd.copyAddrs.fillIp ipprotoUdp 0x40 8 ih').toBytes := by
    rw [← wireWord_inj]
    simp only [Udp.ipHeader, Iphdr.setCheck, wireWord_csumFold]
    omega
  have hiff : ih.id = ih'.id → (onesSum (snd.copyAddrs.fillIp ipprotoUdp 0x40 8 ih).toBytes =
      onesSum (snd.copyAddrs.fillIp ipprotoUdp 0x40 8 ih').toBytes ↔ OnesEq ih.check ih'.check) := by
    intro hid
    rw [onesSum_eq_iff (by omega) (by omega), onesEq_iff, hsum, hsum', hid]
    omega
  constructor
  · intro h
    have hid := congrArg Iphdr.id h
    exact ⟨hid, (hiff hid).mp (hcheck.mp (congrArg Iphdr.check h))⟩
  · rintro ⟨hid, hones⟩
    have heq := (hiff hid).mpr hones
    rw [Udp.ipHeader, Udp.ipHeader, heq]
    simp only [Sender.fillIp, Iphdr.setCheck, hid]

/-- Every field of the UDP header is assigned. -/
theorem Udp.frame_eq_iff (snd : Sender) (ih ih' : Iphdr) (uh uh' : Udphdr) :
    Udp.frame snd ih uh = Udp.frame snd ih' uh' ↔
      ih.id = ih'.id ∧ OnesEq ih.check ih'.check := by
  have hheader : Udp.header snd uh = Udp.header snd uh' := rfl
  rw [Udp.frame, Udp.frame, frame_parts_inj, Udp.ipHeader_eq_iff]
  exact and_iff_left hheader

/-- When two prior contents of the buffer give the same frame.  For `tcp.c`: they
    agree where the code leaves `id`, `res1`, the flags and `urg_ptr`.  For
    `udp.c`: they agree on `id`, and on `check` as one's complement numbers. -/
theorem frames_equal_iff (dev : Netdev) (mem mem' : SkbMem) (xmit xmit' : Int) (snd : Sender)
    (s s' : TxState) :
    (∃ f f', Hands (Tcp.createNewSkb (some dev) ⟨some mem, xmit⟩ snd s) s f ∧
      Hands (Tcp.createNewSkb (some dev) ⟨some mem', xmit'⟩ snd s') s' f' ∧
      (f = f' ↔ (staleIp dev mem).id = (staleIp dev mem').id ∧
        (staleTcp dev mem).SameUnset (staleTcp dev mem'))) ∧
    (∃ f f', Hands (Udp.createNewSkb (some dev) ⟨some mem, xmit⟩ snd s) s f ∧
      Hands (Udp.createNewSkb (some dev) ⟨some mem', xmit'⟩ snd s') s' f' ∧
      (f = f' ↔ (staleIp dev mem).id = (staleIp dev mem').id ∧
        OnesEq (staleIp dev mem).check (staleIp dev mem').check)) :=
  ⟨⟨_, _, Tcp.hands_frame dev mem xmit snd s, Tcp.hands_frame dev mem' xmit' snd s',
      Tcp.frame_eq_iff ..⟩,
    ⟨_, _, Udp.hands_frame dev mem xmit snd s, Udp.hands_frame dev mem' xmit' snd s',
      Udp.frame_eq_iff ..⟩⟩

/-- Memory full of zeros and memory full of 0xff give different frames. -/
theorem shipped_frames_leak :
    (∃ f f', Hands (Tcp.createNewSkb (some eth0) ⟨some (filledWith 0), 0⟩ shipped txStart) txStart f ∧
      Hands (Tcp.createNewSkb (some eth0) ⟨some (filledWith 0xff), 0⟩ shipped txStart) txStart f' ∧
      f ≠ f') ∧
    (∃ f f', Hands (Udp.createNewSkb (some eth0) ⟨some (filledWith 0), 0⟩ shipped txStart) txStart f ∧
      Hands (Udp.createNewSkb (some eth0) ⟨some (filledWith 0xff), 0⟩ shipped txStart) txStart f' ∧
      f ≠ f') :=
  ⟨⟨_, _, Tcp.hands_frame .., Tcp.hands_frame .., by decide +kernel⟩,
    ⟨_, _, Udp.hands_frame .., Udp.hands_frame .., by decide +kernel⟩⟩

end LinuxModules.Nic
