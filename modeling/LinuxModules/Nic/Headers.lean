/-
  LinuxModules.Nic.Headers

  The headers that `tcp.c` and `udp.c` fill, and the kernel's checksum helpers.

  A field holds the value the C code assigns, on a little-endian machine: a
  number is in network order if it went through `htons`, and bytes copied into a
  `__be32` are in the order they had.  `wireWord` is what the two bytes of such a
  field spell on the wire.

  The helpers compute the Internet checksum of the bytes they are given and
  return it ready to be stored (`wireWord_htons`).
-/

import LinuxModules.Lib.InetChecksum
import LinuxModules.Net.RawSkb

namespace LinuxModules.Nic

open LinuxModules.Lib LinuxModules.Net

/-! ## Byte order -/

/-- The bytes of a stored field, high byte first. -/
def wireWord (v : BitVec 16) : Nat := v.toNat % 256 * 256 + v.toNat / 256

def htons (v : BitVec 16) : BitVec 16 := BitVec.ofNat 16 (wireWord v)

theorem wireWord_lt (v : BitVec 16) : wireWord v < 65536 := by
  have hv := v.isLt
  unfold wireWord
  omega

theorem wireWord_htons (v : BitVec 16) : wireWord (htons v) = v.toNat := by
  have hv := v.isLt
  have hlt := wireWord_lt v
  rw [wireWord, htons, BitVec.toNat_ofNat, Nat.mod_eq_of_lt hlt, wireWord]
  omega

theorem wireWord_inj {v w : BitVec 16} : wireWord v = wireWord w ↔ v = w := by
  refine ⟨fun h => BitVec.eq_of_toNat_eq ?_, congrArg _⟩
  have hv := v.isLt
  have hw := w.isLt
  unfold wireWord at h
  omega

theorem wordSum_leBytes_two (v : BitVec 16) (rest : List Byte) :
    wordSum (leBytes 2 v.toNat ++ rest) = wireWord v + wordSum rest := by
  have hv := v.isLt
  simp only [leBytes, List.cons_append, List.nil_append, wordSum, BitVec.toNat_ofNat, wireWord]
  omega

theorem wordSum_leBytes_four (v : BitVec 32) (rest : List Byte) :
    wordSum (leBytes 4 v.toNat ++ rest) = wordSum (leBytes 4 v.toNat) + wordSum rest :=
  wordSum_append (by rw [length_leBytes]) rest

/-- Two single bytes make a word. -/
theorem wordSum_leBytes_one {a b : Nat} (ha : a < 256) (hb : b < 256) (rest : List Byte) :
    wordSum (leBytes 1 a ++ (leBytes 1 b ++ rest)) = a * 256 + b + wordSum rest := by
  simp only [leBytes, List.cons_append, List.nil_append, wordSum, BitVec.toNat_ofNat]
  omega

/-- Fields of one, two and four bytes read back. -/
theorem field_byte (v : BitVec 8) (rest : List Byte) :
    field 0 1 (leBytes 1 v.toNat ++ rest) = v.toNat :=
  field_leBytes_append v.isLt rest

theorem field_word (v : BitVec 16) (rest : List Byte) :
    field 0 2 (leBytes 2 v.toNat ++ rest) = v.toNat :=
  field_leBytes_append v.isLt rest

theorem field_dword (v : BitVec 32) (rest : List Byte) :
    field 0 4 (leBytes 4 v.toNat ++ rest) = v.toNat :=
  field_leBytes_append v.isLt rest

/-! ## The headers -/

/-- `struct iphdr` without options -/
structure Iphdr where
  version : BitVec 4
  ihl : BitVec 4
  tos : BitVec 8
  totLen : BitVec 16
  id : BitVec 16
  fragOff : BitVec 16
  ttl : BitVec 8
  protocol : BitVec 8
  check : BitVec 16
  saddr : BitVec 32
  daddr : BitVec 32
deriving DecidableEq, Repr

/-- `struct tcphdr`; `flags` are the eight one-bit fields from `fin` to `cwr`. -/
structure Tcphdr where
  source : BitVec 16
  dest : BitVec 16
  seq : BitVec 32
  ackSeq : BitVec 32
  doff : BitVec 4
  res1 : BitVec 4
  flags : BitVec 8
  window : BitVec 16
  check : BitVec 16
  urgPtr : BitVec 16
deriving DecidableEq, Repr

/-- `struct udphdr` -/
structure Udphdr where
  source : BitVec 16
  dest : BitVec 16
  len : BitVec 16
  check : BitVec 16
deriving DecidableEq, Repr

def Iphdr.setCheck (c : BitVec 16) (h : Iphdr) : Iphdr := { h with check := c }

def Tcphdr.setCheck (c : BitVec 16) (h : Tcphdr) : Tcphdr := { h with check := c }

def Udphdr.setCheck (c : BitVec 16) (h : Udphdr) : Udphdr := { h with check := c }

/-- Two four-bit fields that share a byte. -/
def nibbles (high low : BitVec 4) : Nat := high.toNat * 16 + low.toNat

theorem nibbles_lt (high low : BitVec 4) : nibbles high low < 256 := by
  have hhigh := high.isLt
  have hlow := low.isLt
  unfold nibbles
  omega

theorem high_nibbles (high low : BitVec 4) : BitVec.ofNat 4 (nibbles high low / 16) = high := by
  have hlow := low.isLt
  have hdiv : nibbles high low / 16 = high.toNat := by
    unfold nibbles
    omega
  rw [hdiv, BitVec.ofNat_toNat, BitVec.setWidth_eq]

theorem low_nibbles (high low : BitVec 4) : BitVec.ofNat 4 (nibbles high low % 16) = low := by
  have hlow := low.isLt
  have hmod : nibbles high low % 16 = low.toNat := by
    unfold nibbles
    omega
  rw [hmod, BitVec.ofNat_toNat, BitVec.setWidth_eq]

theorem field_nibbles (high low : BitVec 4) (rest : List Byte) :
    field 0 1 (leBytes 1 (nibbles high low) ++ rest) = nibbles high low :=
  field_leBytes_append (nibbles_lt high low) rest

def Iphdr.toBytes (h : Iphdr) : List Byte :=
  leBytes 1 (nibbles h.version h.ihl) ++ (leBytes 1 h.tos.toNat ++ (leBytes 2 h.totLen.toNat ++
    (leBytes 2 h.id.toNat ++ (leBytes 2 h.fragOff.toNat ++ (leBytes 1 h.ttl.toNat ++
      (leBytes 1 h.protocol.toNat ++ (leBytes 2 h.check.toNat ++ (leBytes 4 h.saddr.toNat ++
        (leBytes 4 h.daddr.toNat ++ [])))))))))

def Iphdr.ofBytes (bs : List Byte) : Iphdr where
  version := BitVec.ofNat 4 (field 0 1 bs / 16)
  ihl := BitVec.ofNat 4 (field 0 1 bs % 16)
  tos := BitVec.ofNat 8 (field 1 1 bs)
  totLen := BitVec.ofNat 16 (field 2 2 bs)
  id := BitVec.ofNat 16 (field 4 2 bs)
  fragOff := BitVec.ofNat 16 (field 6 2 bs)
  ttl := BitVec.ofNat 8 (field 8 1 bs)
  protocol := BitVec.ofNat 8 (field 9 1 bs)
  check := BitVec.ofNat 16 (field 10 2 bs)
  saddr := BitVec.ofNat 32 (field 12 4 bs)
  daddr := BitVec.ofNat 32 (field 16 4 bs)

theorem Iphdr.ofBytes_toBytes (h : Iphdr) : ofBytes h.toBytes = h := by
  simp only [ofBytes, toBytes]
  simp (disch := omega) only [field_skip_leBytes, Nat.reduceSub]
  simp only [field_nibbles, field_byte, field_word, field_dword, high_nibbles, low_nibbles,
    BitVec.ofNat_toNat, BitVec.setWidth_eq]

instance : Layout Iphdr where
  size := 20
  toBytes := Iphdr.toBytes
  ofBytes := Iphdr.ofBytes
  length_toBytes := fun h => by simp [Iphdr.toBytes]
  ofBytes_toBytes := Iphdr.ofBytes_toBytes

def Tcphdr.toBytes (h : Tcphdr) : List Byte :=
  leBytes 2 h.source.toNat ++ (leBytes 2 h.dest.toNat ++ (leBytes 4 h.seq.toNat ++
    (leBytes 4 h.ackSeq.toNat ++ (leBytes 1 (nibbles h.doff h.res1) ++ (leBytes 1 h.flags.toNat ++
      (leBytes 2 h.window.toNat ++ (leBytes 2 h.check.toNat ++ (leBytes 2 h.urgPtr.toNat ++ []))))))))

def Tcphdr.ofBytes (bs : List Byte) : Tcphdr where
  source := BitVec.ofNat 16 (field 0 2 bs)
  dest := BitVec.ofNat 16 (field 2 2 bs)
  seq := BitVec.ofNat 32 (field 4 4 bs)
  ackSeq := BitVec.ofNat 32 (field 8 4 bs)
  doff := BitVec.ofNat 4 (field 12 1 bs / 16)
  res1 := BitVec.ofNat 4 (field 12 1 bs % 16)
  flags := BitVec.ofNat 8 (field 13 1 bs)
  window := BitVec.ofNat 16 (field 14 2 bs)
  check := BitVec.ofNat 16 (field 16 2 bs)
  urgPtr := BitVec.ofNat 16 (field 18 2 bs)

theorem Tcphdr.ofBytes_toBytes (h : Tcphdr) : ofBytes h.toBytes = h := by
  simp only [ofBytes, toBytes]
  simp (disch := omega) only [field_skip_leBytes, Nat.reduceSub]
  simp only [field_nibbles, field_byte, field_word, field_dword, high_nibbles, low_nibbles,
    BitVec.ofNat_toNat, BitVec.setWidth_eq]

instance : Layout Tcphdr where
  size := 20
  toBytes := Tcphdr.toBytes
  ofBytes := Tcphdr.ofBytes
  length_toBytes := fun h => by simp [Tcphdr.toBytes]
  ofBytes_toBytes := Tcphdr.ofBytes_toBytes

def Udphdr.toBytes (h : Udphdr) : List Byte :=
  leBytes 2 h.source.toNat ++ (leBytes 2 h.dest.toNat ++ (leBytes 2 h.len.toNat ++
    (leBytes 2 h.check.toNat ++ [])))

def Udphdr.ofBytes (bs : List Byte) : Udphdr where
  source := BitVec.ofNat 16 (field 0 2 bs)
  dest := BitVec.ofNat 16 (field 2 2 bs)
  len := BitVec.ofNat 16 (field 4 2 bs)
  check := BitVec.ofNat 16 (field 6 2 bs)

theorem Udphdr.ofBytes_toBytes (h : Udphdr) : ofBytes h.toBytes = h := by
  simp only [ofBytes, toBytes]
  simp (disch := omega) only [field_skip_leBytes, Nat.reduceSub]
  simp only [field_word, BitVec.ofNat_toNat, BitVec.setWidth_eq]

instance : Layout Udphdr where
  size := 8
  toBytes := Udphdr.toBytes
  ofBytes := Udphdr.ofBytes
  length_toBytes := fun h => by simp [Udphdr.toBytes]
  ofBytes_toBytes := Udphdr.ofBytes_toBytes

/-! ## Sums over headers -/

theorem Iphdr.wordSum_toBytes (h : Iphdr) :
    wordSum h.toBytes = nibbles h.version h.ihl * 256 + h.tos.toNat + wireWord h.totLen +
      wireWord h.id + wireWord h.fragOff + (h.ttl.toNat * 256 + h.protocol.toNat) +
      wireWord h.check + wordSum (leBytes 4 h.saddr.toNat) + wordSum (leBytes 4 h.daddr.toNat) := by
  rw [toBytes, wordSum_leBytes_one (nibbles_lt _ _) h.tos.isLt]
  simp only [wordSum_leBytes_two, wordSum_leBytes_one h.ttl.isLt h.protocol.isLt,
    wordSum_leBytes_four, wordSum]
  omega

/-- The checksum field adds to the rest of the header. -/
theorem Tcphdr.wordSum_toBytes (h : Tcphdr) :
    wordSum h.toBytes = wordSum (h.setCheck 0).toBytes + wireWord h.check := by
  have hzero : wireWord 0 = 0 := rfl
  simp only [toBytes, setCheck, wordSum_leBytes_two, wordSum_leBytes_four,
    wordSum_leBytes_one (nibbles_lt _ _) h.flags.isLt, hzero]
  omega

theorem Udphdr.wordSum_toBytes (h : Udphdr) :
    wordSum h.toBytes = wordSum (h.setCheck 0).toBytes + wireWord h.check := by
  have hzero : wireWord 0 = 0 := rfl
  simp only [toBytes, setCheck, wordSum_leBytes_two, hzero]
  omega

/-! ## Checksum helpers -/

/-- A one's complement sum, complemented and in network order. -/
def csumFold (sum : Nat) : BitVec 16 := htons (BitVec.ofNat 16 (onesCompl sum))

/-- `ip_fast_csum`: the checksum of a header of `ihl` 32-bit words. -/
def ipFastCsum (iph : List Byte) (ihl : Nat) : BitVec 16 := csumFold (onesSum (iph.take (4 * ihl)))

/-- `skb_checksum`: `len` bytes of the buffer from `offset` on, added to `csum`. -/
def skbChecksum (skb : RawSkb) (offset len csum : Nat) : Nat :=
  onesAdd csum (onesSum ((skb.bytes.drop offset).take len))

/-- The pseudo-header of TCP and UDP.  The length has 16 bits there; the bytes
    before them are zero for every length that fits. -/
def pseudoHeader (saddr daddr : List Byte) (proto : Byte) (len : Nat) : List Byte :=
  saddr ++ (daddr ++ ([0, proto] ++ (leBytes 4 len).reverse))

/-- `csum_tcpudp_magic`: the pseudo-header added to `sum`, complemented. -/
def csumTcpudpMagic (saddr daddr : BitVec 32) (len : Nat) (proto : Byte) (sum : Nat) : BitVec 16 :=
  csumFold (onesAdd (onesSum (pseudoHeader (leBytes 4 saddr.toNat) (leBytes 4 daddr.toNat)
    proto len)) sum)

theorem wireWord_csumFold (sum : Nat) : wireWord (csumFold sum) = 65535 - sum := by
  rw [csumFold, wireWord_htons, BitVec.toNat_ofNat, onesCompl]
  omega

/-- The words of the pseudo-header, up to multiples of 0xffff. -/
theorem wordSum_pseudoHeader {saddr daddr : List Byte} (hs : saddr.length = 4)
    (hd : daddr.length = 4) (proto : Byte) {len : Nat} (hlen : len < 2 ^ 32) :
    wordSum saddr + wordSum daddr + proto.toNat ≤ wordSum (pseudoHeader saddr daddr proto len) ∧
      wordSum (pseudoHeader saddr daddr proto len) % 65535 =
        (wordSum saddr + wordSum daddr + proto.toNat + len) % 65535 := by
  have hzero : (0 : Byte).toNat = 0 := rfl
  have hsum : wordSum (pseudoHeader saddr daddr proto len) =
      wordSum saddr + wordSum daddr + proto.toNat + (len / 65536 + len % 65536) := by
    rw [pseudoHeader, wordSum_append (by rw [hs]), wordSum_append (by rw [hd])]
    simp only [leBytes, List.reverse_cons, List.reverse_nil, List.nil_append, List.cons_append,
      wordSum, BitVec.toNat_ofNat]
    omega
  rw [hsum]
  omega

end LinuxModules.Nic
