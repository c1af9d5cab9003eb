/-
  LinuxModules.Nic.Device

  What the packet senders of `nic/` use of a network device and of the kernel's
  transmit path: the device's geometry, `LL_RESERVED_SPACE`, and the account of
  buffers and of device references.

  `dev_queue_xmit` consumes the buffer whatever it returns.
-/

import LinuxModules.Net.RawSkb

namespace LinuxModules.Nic

open LinuxModules.Lib LinuxModules.Net

/-- The fields of `struct net_device` the senders read.  `dev_addr` and
    `broadcast` point to memory of at least `addr_len` bytes. -/
structure Netdev where
  hardHeaderLen : BitVec 16
  neededHeadroom : BitVec 16
  neededTailroom : BitVec 16
  type : BitVec 16
  addrLen : BitVec 8
  devAddr : Nat → Byte
  broadcast : Nat → Byte

/-- `ETH_HLEN` -/
def ethHlen : Nat := 14

/-- `ETH_P_IP` -/
def ethPIp : BitVec 16 := 0x0800

/-- `HH_DATA_MOD` -/
def hhDataMod : BitVec 32 := 16

/-- `LL_RESERVED_SPACE` -/
def llReservedSpace (dev : Netdev) : BitVec 32 :=
  ((dev.hardHeaderLen.setWidth 32 + dev.neededHeadroom.setWidth 32) &&& ~~~(hhDataMod - 1)) +
    hhDataMod

/-- Room for an Ethernet header, and less than 2 ^ 17 bytes. -/
theorem llReservedSpace_bounds (dev : Netdev) :
    16 ≤ (llReservedSpace dev).toNat ∧ (llReservedSpace dev).toNat ≤ 131086 := by
  have hhard := dev.hardHeaderLen.isLt
  have hneeded := dev.neededHeadroom.isLt
  -- masking does not enlarge the sum, and the sum does not wrap
  have hsum : (dev.hardHeaderLen.setWidth 32 + dev.neededHeadroom.setWidth 32).toNat =
      dev.hardHeaderLen.toNat + dev.neededHeadroom.toNat := by
    rw [BitVec.toNat_add, BitVec.toNat_setWidth, BitVec.toNat_setWidth]
    omega
  have hmask : ((dev.hardHeaderLen.setWidth 32 + dev.neededHeadroom.setWidth 32) &&&
      ~~~(hhDataMod - 1)).toNat ≤ dev.hardHeaderLen.toNat + dev.neededHeadroom.toNat := by
    rw [BitVec.toNat_and, ← hsum]
    exact Nat.and_le_left
  have hmod : hhDataMod.toNat = 16 := rfl
  rw [llReservedSpace, BitVec.toNat_add, hmod]
  omega

/-! ## The Ethernet header -/

/-- The headroom ends in the place of an Ethernet header. -/
theorem exists_headroom (dev : Netdev) (mem : SkbMem) :
    ∃ front d m t, staleBytes mem 0 (llReservedSpace dev).toNat = front ++ (d ++ (m ++ t)) ∧
      d.length = 6 ∧ m.length = 6 ∧ t.length = 2 := by
  obtain ⟨hll, -⟩ := llReservedSpace_bounds dev
  obtain ⟨k, hk⟩ : ∃ k, (llReservedSpace dev).toNat = k + (6 + (6 + 2)) :=
    ⟨(llReservedSpace dev).toNat - 14, by omega⟩
  rw [hk, staleBytes_add, staleBytes_add, staleBytes_add]
  exact ⟨_, _, _, _, rfl, length_staleBytes .., length_staleBytes .., length_staleBytes ..⟩

section

variable {d m t : List Byte} (front body rest : List Byte)

theorem store_dest {d' : List Byte} (hd : d.length = d'.length) :
    (skbOf front (d ++ (m ++ (t ++ body))) rest).store front.length d' =
      skbOf front (d' ++ (m ++ (t ++ body))) rest :=
  store_skbOf front [] d d' (m ++ (t ++ body)) rest rfl hd

theorem store_source {m' : List Byte} (hd : d.length = 6) (hm : m.length = m'.length) :
    (skbOf front (d ++ (m ++ (t ++ body))) rest).store (front.length + 6) m' =
      skbOf front (d ++ (m' ++ (t ++ body))) rest :=
  store_skbOf front d m m' (t ++ body) rest (by rw [hd]) hm

theorem store_proto {t' : List Byte} (hd : d.length = 6) (hm : m.length = 6)
    (ht : t.length = t'.length) :
    (skbOf front (d ++ (m ++ (t ++ body))) rest).store (front.length + 12) t' =
      skbOf front (d ++ (m ++ (t' ++ body))) rest := by
  have hstore := store_skbOf (p := front.length + 12) front (d ++ m) t t' body rest
    (by rw [List.length_append, hd, hm]) ht
  simpa only [List.append_assoc] using hstore

end

/-! ## Transmission -/

/-- What the environment decides about one frame: what `alloc_skb` returns and
    what `dev_queue_xmit` does. -/
structure SendOutcome where
  mem : Option SkbMem
  xmit : Int

/-- The frames handed to `dev_queue_xmit`, the number of buffers allocated, the
    buffers released (once for each release) and the references to the device. -/
structure TxState where
  sent : List (List Byte)
  allocs : Nat
  released : List Nat
  devRefs : Int

def TxState.devHold (s : TxState) : TxState := { s with devRefs := s.devRefs + 1 }

def TxState.devPut (s : TxState) : TxState := { s with devRefs := s.devRefs - 1 }

def TxState.kfreeSkb (s : TxState) (id : Nat) : TxState := { s with released := s.released ++ [id] }

/-- `dev_queue_xmit` of buffer `id`. -/
def TxState.devQueueXmit (s : TxState) (id : Nat) (skb : RawSkb) : TxState :=
  { s with sent := s.sent ++ [skb.bytes], released := s.released ++ [id] }

/-- An Ethernet card. -/
def eth0 : Netdev where
  hardHeaderLen := 14
  neededHeadroom := 0
  neededTailroom := 0
  type := 1
  addrLen := 6
  devAddr := fun _ => 0x44
  broadcast := fun _ => 0xff

/-- Memory that holds the same byte everywhere. -/
def filledWith (b : Byte) : SkbMem := { slack := 0, stale := fun _ => b }

def txStart : TxState := { sent := [], allocs := 0, released := [], devRefs := 1 }

end LinuxModules.Nic
