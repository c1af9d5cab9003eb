/-
  LinuxModules.Net.Nlmsg

  Netlink messages as the kernel's receive path sees them: the 16-byte
  `struct nlmsghdr`, the walking macros `nlmsg_ok` / `nlmsg_next` over an
  untrusted byte string, and the `while (nlmsg_ok(nlh, len))` loop that
  `cap_receive_skb` and `netctrl_receive_skb` share.

  Header fields are read with a bounds check: a read past the end of the skb is
  `Fault.outOfBounds`, never a value.  The C integers of the walk are kept
  explicit: `NLMSG_ALIGN` is computed modulo `2 ^ 32`, the remaining count and
  the aligned step are `int`s (`Int.bmod _ (2 ^ 32)`).  Integers in memory are
  little-endian.

  `Chain b o os` says what the walk is for: `os` are the offsets of the maximal
  sequence of valid messages of `b` from `o` on.  `receiveSkb_eq` shows that
  the loop terminates without a fault and hands over exactly that sequence.
-/

import LinuxModules.Lib.Bytes

namespace LinuxModules.Net

open LinuxModules.Lib

/-! ## The header -/

/-- `NLMSG_HDRLEN`, the size of `struct nlmsghdr`. -/
def nlmsgHdrlen : Nat := 16

/-- `NLM_F_ACK` -/
def nlmFAck : BitVec 16 := 4

/-- `-EINVAL` -/
def negEinval : Int := -22

/-- `struct nlmsghdr` -/
structure Nlmsghdr where
  nlmsgLen : BitVec 32
  nlmsgType : BitVec 16
  nlmsgFlags : BitVec 16
  nlmsgSeq : BitVec 32
  nlmsgPid : BitVec 32
deriving DecidableEq, Repr

/-- The header in memory. -/
def Nlmsghdr.toBytes (h : Nlmsghdr) : List Byte :=
  leBytes 4 h.nlmsgLen.toNat ++ (leBytes 2 h.nlmsgType.toNat ++
    (leBytes 2 h.nlmsgFlags.toNat ++ (leBytes 4 h.nlmsgSeq.toNat ++
      leBytes 4 h.nlmsgPid.toNat)))

/-- The header at the start of a byte string. -/
def Nlmsghdr.ofBytes (bs : List Byte) : Nlmsghdr where
  nlmsgLen := BitVec.ofNat 32 (field 0 4 bs)
  nlmsgType := BitVec.ofNat 16 (field 4 2 bs)
  nlmsgFlags := BitVec.ofNat 16 (field 6 2 bs)
  nlmsgSeq := BitVec.ofNat 32 (field 8 4 bs)
  nlmsgPid := BitVec.ofNat 32 (field 12 4 bs)

/-- Does the message ask for an acknowledgement? -/
def Nlmsghdr.wantsAck (h : Nlmsghdr) : Bool := h.nlmsgFlags &&& nlmFAck != 0

@[simp] theorem Nlmsghdr.length_toBytes (h : Nlmsghdr) : h.toBytes.length = nlmsgHdrlen := by
  simp [toBytes, nlmsgHdrlen]

/-- A field of width `w` in front of other bytes reads back. -/
theorem field_leBytes_append {w v : Nat} (hv : v < 256 ^ w) (rest : List Byte) :
    field 0 w (leBytes w v ++ rest) = v := by
  rw [field_append_left (by simp), field_leBytes, Nat.mod_eq_of_lt hv]

/-- Skip a field of width `w` in front of other bytes. -/
theorem field_skip_leBytes {w v off k : Nat} (h : w ≤ off) (rest : List Byte) :
    field off k (leBytes w v ++ rest) = field (off - w) k rest := by
  rw [field_append_right (by simpa using h), length_leBytes]

theorem field_len_toBytes (h : Nlmsghdr) (rest : List Byte) :
    field 0 4 (h.toBytes ++ rest) = h.nlmsgLen.toNat := by
  rw [Nlmsghdr.toBytes, List.append_assoc]
  exact field_leBytes_append h.nlmsgLen.isLt _

/-- Encoding, then decoding a header gives it back, whatever follows it. -/
@[simp] theorem Nlmsghdr.ofBytes_toBytes (h : Nlmsghdr) (rest : List Byte) :
    ofBytes (h.toBytes ++ rest) = h := by
  have hlen := h.nlmsgLen.isLt
  have htype := h.nlmsgType.isLt
  have hflags := h.nlmsgFlags.isLt
  have hseq := h.nlmsgSeq.isLt
  have hpid := h.nlmsgPid.isLt
  simp only [ofBytes, toBytes, List.append_assoc]
  simp (disch := omega) only [field_skip_leBytes, Nat.reduceSub]
  rw [field_leBytes_append hlen, field_leBytes_append htype,
    field_leBytes_append hflags, field_leBytes_append hseq, field_leBytes_append hpid]
  simp only [BitVec.ofNat_toNat, BitVec.setWidth_eq]

/-! ## Walking a byte string -/

/-- What can go wrong in a modelled loop. -/
inductive Fault where
  | outOfBounds
  | outOfFuel
deriving DecidableEq, Repr

/-- `NLMSG_ALIGN` on an unsigned 32-bit length. -/
def nlmsgAlign (len : Nat) : Nat := (len + 3) % 2 ^ 32 / 4 * 4

/-- The header at `nlh`, all of whose fields the loop body may read. -/
def nlmsghdrAt (b : List Byte) (nlh : Nat) : Except Fault Nlmsghdr :=
  if nlh + nlmsgHdrlen ≤ b.length then .ok (.ofBytes (b.drop nlh)) else .error .outOfBounds

/-- `nlmsg_ok`: the length field is read only if `remaining` covers a header. -/
def nlmsgOk (b : List Byte) (nlh : Nat) (remaining : Int) : Except Fault Bool :=
  if remaining < nlmsgHdrlen then .ok false
  else if nlh + 4 ≤ b.length then
    .ok (nlmsgHdrlen ≤ field nlh 4 b ∧ (field nlh 4 b : Int) ≤ remaining)
  else .error .outOfBounds

/-- `nlmsg_next`: the next header and the updated remaining count. -/
def nlmsgNext (h : Nlmsghdr) (nlh : Nat) (remaining : Int) : Nat × Int :=
  let totlen : Int := Int.bmod (nlmsgAlign h.nlmsgLen.toNat) (2 ^ 32)
  ((nlh + totlen).toNat, remaining - totlen)

/-- What the receive loop did: the module state, the messages handed over (with
    their offsets) and the `netlink_ack` calls, both in order. -/
structure Received (σ : Type _) where
  st : σ
  calls : List (Nat × Nlmsghdr)
  acks : List (Nlmsghdr × Int)

variable {σ : Type _}

/-- The body of the receive loop: `recvMsg` gets the message number, the module
    state, the header and its offset, and returns the state and `err`. -/
def Received.handle (recvMsg : Nat → σ → Nlmsghdr → Nat → σ × Int)
    (r : Received σ) (m : Nat × Nlmsghdr) : Received σ :=
  let res := recvMsg r.calls.length r.st m.2 m.1
  { st := res.1
    calls := r.calls ++ [m]
    acks := if res.2 ≠ 0 ∨ m.2.wantsAck then r.acks ++ [(m.2, res.2)] else r.acks }

/-- `while (nlmsg_ok(nlh, len)) { ...; nlh = nlmsg_next(nlh, &len); }` -/
def receiveLoop (recvMsg : Nat → σ → Nlmsghdr → Nat → σ × Int) (b : List Byte) :
    Nat → Nat → Int → Received σ → Except Fault (Received σ)
  | 0, _, _, _ => .error .outOfFuel
  | fuel + 1, nlh, len, r => do
    if ← nlmsgOk b nlh len then
      let h ← nlmsghdrAt b nlh
      let next := nlmsgNext h nlh len
      receiveLoop recvMsg b fuel next.1 next.2 (r.handle recvMsg (nlh, h))
    else
      return r

/-- The receive function over an skb holding `b`: `len = skb->len` as an `int`. -/
def receiveSkb (recvMsg : Nat → σ → Nlmsghdr → Nat → σ × Int) (b : List Byte) (s : σ) :
    Except Fault (Received σ) :=
  receiveLoop recvMsg b (b.length + 1) 0 (Int.bmod b.length (2 ^ 32))
    { st := s, calls := [], acks := [] }

/-! ## The maximal sequence of valid messages -/

/-- At least 16 bytes are left at `o`, and `16 ≤ nlmsg_len ≤ |b| - o`. -/
def ValidAt (b : List Byte) (o : Nat) : Prop :=
  o + nlmsgHdrlen ≤ b.length ∧ nlmsgHdrlen ≤ field o 4 b ∧ o + field o 4 b ≤ b.length

instance (b : List Byte) (o : Nat) : Decidable (ValidAt b o) :=
  inferInstanceAs (Decidable (_ ∧ _ ∧ _))

/-- A length rounded up to a multiple of 4. -/
def align4 (n : Nat) : Nat := (n + 3) / 4 * 4

/-- `NLMSG_SPACE` -/
def nlmsgSpace (len : Nat) : Nat := align4 (nlmsgHdrlen + len)

/-- The offsets of the valid messages of `b` from `o` on, up to the first offset
    without one. -/
inductive Chain (b : List Byte) : Nat → List Nat → Prop where
  | stop {o : Nat} : ¬ ValidAt b o → Chain b o []
  | next {o : Nat} {os : List Nat} : ValidAt b o → Chain b (o + align4 (field o 4 b)) os →
      Chain b o (o :: os)

theorem le_align4 (n : Nat) : n ≤ align4 n := by
  unfold align4
  omega

theorem align4_lt (n : Nat) : align4 n < n + 4 := by
  unfold align4
  omega

/-- Every message takes at least a header, so the walk is finite. -/
theorem Chain.exists (b : List Byte) (o : Nat) :
    ∃ os, Chain b o os ∧ os.length ≤ b.length - o := by
  -- induction on the bytes left: a valid message takes at least a header of them
  induction hn : b.length - o using Nat.strong_induction_on generalizing o with
  | _ n ih =>
      by_cases hv : ValidAt b o
      · have hstep := le_align4 (field o 4 b)
        obtain ⟨hroom, hmin, -⟩ := id hv
        have hhdr : nlmsgHdrlen = 16 := rfl
        have hlt : b.length - (o + align4 (field o 4 b)) < n := by omega
        obtain ⟨os, hos, hle⟩ := ih _ hlt _ rfl
        refine ⟨o :: os, .next hv hos, ?_⟩
        rw [List.length_cons]
        omega
      · exact ⟨[], .stop hv, Nat.zero_le _⟩

theorem Chain.unique {b : List Byte} {o : Nat} {os os' : List Nat}
    (h : Chain b o os) (h' : Chain b o os') : os = os' := by
  induction h generalizing os' with
  | stop hv =>
      cases h' with
      | stop _ => rfl
      | next hv' _ => exact absurd hv' hv
  | next hv _ ih =>
      cases h' with
      | stop hv' => exact absurd hv hv'
      | next _ hrest => rw [ih hrest]

/-! ## The loop hands over the maximal sequence -/

/-- In step with the offset, `nlmsg_ok` decides validity and reads in bounds. -/
theorem nlmsgOk_eq (b : List Byte) (o : Nat) :
    nlmsgOk b o ((b.length : Int) - o) = .ok (decide (ValidAt b o)) := by
  have hhdr : nlmsgHdrlen = 16 := rfl
  by_cases hroom : o + nlmsgHdrlen ≤ b.length
  · have hok : nlmsgHdrlen ≤ field o 4 b ∧ (field o 4 b : Int) ≤ (b.length : Int) - o ↔
        ValidAt b o := by
      unfold ValidAt
      omega
    rw [nlmsgOk, if_neg (by omega), if_pos (by omega),
      decide_eq_decide.mpr hok]
  · have hno : ¬ ValidAt b o := fun hv => hroom hv.1
    rw [nlmsgOk, if_pos (by omega), decide_eq_false hno]

/-- On a valid message of a short skb the C integers of the step do not wrap. -/
theorem nlmsgNext_eq {b : List Byte} {o : Nat} (hb : b.length < 2 ^ 30) (hv : ValidAt b o)
    (rem : Int) :
    nlmsgNext (.ofBytes (b.drop o)) o rem =
      (o + align4 (field o 4 b), rem - align4 (field o 4 b)) := by
  obtain ⟨-, -, hfit⟩ := hv
  -- the header's 32-bit length is the field, its alignment does not wrap
  have hlen : (Nlmsghdr.ofBytes (b.drop o)).nlmsgLen.toNat = field o 4 b := by
    rw [Nlmsghdr.ofBytes, BitVec.toNat_ofNat, field_drop, Nat.add_zero]
    exact Nat.mod_eq_of_lt (by omega)
  have halign : nlmsgAlign (field o 4 b) = align4 (field o 4 b) := by
    unfold nlmsgAlign align4
    omega
  have hlt := align4_lt (field o 4 b)
  have hbmod : Int.bmod (align4 (field o 4 b)) (2 ^ 32) = align4 (field o 4 b) := by
    apply Int.bmod_eq_of_le <;> omega
  have hnlh : ((o : Int) + align4 (field o 4 b)).toNat = o + align4 (field o 4 b) := by omega
  show ((o + Int.bmod (nlmsgAlign _) (2 ^ 32)).toNat, rem - Int.bmod (nlmsgAlign _) (2 ^ 32)) = _
  rw [hlen, halign, hbmod, hnlh]

/-- The message at offset `o`. -/
def msgAt (b : List Byte) (o : Nat) : Nat × Nlmsghdr := (o, .ofBytes (b.drop o))

theorem receiveLoop_eq (recvMsg : Nat → σ → Nlmsghdr → Nat → σ × Int) {b : List Byte}
    (hb : b.length < 2 ^ 30) {o : Nat} {os : List Nat} (h : Chain b o os)
    {fuel : Nat} (hfuel : os.length < fuel) (r : Received σ) :
    receiveLoop recvMsg b fuel o ((b.length : Int) - o) r =
      .ok ((os.map (msgAt b)).foldl (Received.handle recvMsg) r) := by
  -- the remaining count stays `|b| - o`, also where the last step makes it negative
  induction h generalizing fuel r with
  | stop hv =>
      obtain ⟨fuel, rfl⟩ := Nat.exists_eq_succ_of_ne_zero (by omega : fuel ≠ 0)
      simp only [receiveLoop, nlmsgOk_eq, hv]
      rfl
  | @next o os hv _ ih =>
      obtain ⟨fuel, rfl⟩ := Nat.exists_eq_succ_of_ne_zero (by omega : fuel ≠ 0)
      have hhdr : nlmsghdrAt b o = .ok (.ofBytes (b.drop o)) := if_pos hv.1
      have hrem : ((b.length : Int) - o) - align4 (field o 4 b) =
          (b.length : Int) - (o + align4 (field o 4 b) : Nat) := by omega
      have hfuel' : os.length < fuel := by
        rw [List.length_cons] at hfuel
        omega
      have hrest := ih hfuel' (r.handle recvMsg (msgAt b o))
      rw [← hrem] at hrest
      simp only [receiveLoop, nlmsgOk_eq, hv, hhdr, decide_true]
      simp only [bind, Except.bind, if_true, nlmsgNext_eq hb hv]
      exact hrest

/-- The receive function terminates, reads no header field out of bounds, and
    handles the messages of the maximal sequence, each once and in order. -/
theorem receiveSkb_eq (recvMsg : Nat → σ → Nlmsghdr → Nat → σ × Int) {b : List Byte}
    (hb : b.length < 2 ^ 30) {os : List Nat} (h : Chain b 0 os) (s : σ) :
    receiveSkb recvMsg b s =
      .ok ((os.map (msgAt b)).foldl (Received.handle recvMsg) ⟨s, [], []⟩) := by
  have hlen : Int.bmod b.length (2 ^ 32) = (b.length : Int) - (0 : Nat) := by
    rw [Int.bmod_eq_of_le (by omega) (by omega)]
    omega
  -- fuel: there are no more messages than bytes
  have hfuel : os.length < b.length + 1 := by
    obtain ⟨os', h', hle⟩ := Chain.exists b 0
    rw [h.unique h']
    omega
  rw [receiveSkb, hlen]
  exact receiveLoop_eq recvMsg hb h hfuel _

/-! ## What a finished loop has done -/

theorem calls_foldl_handle (recvMsg : Nat → σ → Nlmsghdr → Nat → σ × Int)
    (ms : List (Nat × Nlmsghdr)) (r : Received σ) :
    (ms.foldl (Received.handle recvMsg) r).calls = r.calls ++ ms := by
  induction ms generalizing r with
  | nil => simp
  | cons m ms ih => simp [ih, Received.handle]

/-- The receive function returns, having handed over the maximal sequence of valid
    messages. -/
theorem receiveSkb_returns (recvMsg : Nat → σ → Nlmsghdr → Nat → σ × Int) {b : List Byte}
    (hb : b.length < 2 ^ 30) (s : σ) :
    ∃ os r, Chain b 0 os ∧ receiveSkb recvMsg b s = .ok r ∧ r.calls = os.map (msgAt b) := by
  obtain ⟨os, hos, -⟩ := Chain.exists b 0
  refine ⟨os, _, hos, receiveSkb_eq recvMsg hb hos s, ?_⟩
  rw [calls_foldl_handle, List.nil_append]

/-- A header the walk handed over: it lies inside the skb, and its length covers
    at least a header. -/
def HandedOver (b : List Byte) (m : Nat × Nlmsghdr) : Prop :=
  m.1 + nlmsgHdrlen ≤ b.length ∧ m = msgAt b m.1 ∧ nlmsgHdrlen ≤ m.2.nlmsgLen.toNat

theorem handedOver_of_ok {b : List Byte} {nlh : Nat} {len : Int} {hd : Nlmsghdr}
    (hok : nlmsgOk b nlh len = .ok true) (hhdr : nlmsghdrAt b nlh = .ok hd) :
    HandedOver b (nlh, hd) := by
  unfold nlmsghdrAt at hhdr
  split at hhdr
  case isFalse => cases hhdr
  case isTrue hin =>
    cases hhdr
    have hlen : (Nlmsghdr.ofBytes (b.drop nlh)).nlmsgLen.toNat = field nlh 4 b := by
      rw [Nlmsghdr.ofBytes, BitVec.toNat_ofNat, field_drop, Nat.add_zero]
      exact Nat.mod_eq_of_lt (field_lt nlh 4 b)
    refine ⟨hin, rfl, ?_⟩
    -- the walk goes on only past the lower bound of `nlmsg_ok`
    rw [hlen]
    unfold nlmsgOk at hok
    split at hok
    · cases hok
    · split at hok
      · simp only [Except.ok.injEq, decide_eq_true_eq] at hok
        exact hok.1
      · cases hok

theorem receiveLoop_ok {recvMsg : Nat → σ → Nlmsghdr → Nat → σ × Int} {b : List Byte}
    {fuel nlh : Nat} {len : Int} {r r' : Received σ}
    (h : receiveLoop recvMsg b fuel nlh len r = .ok r') :
    ∃ ms : List (Nat × Nlmsghdr), r' = ms.foldl (Received.handle recvMsg) r ∧
      ∀ m ∈ ms, HandedOver b m := by
  induction fuel generalizing nlh len r with
  | zero => cases h
  | succ fuel ih =>
      simp only [receiveLoop, bind, Except.bind] at h
      cases hok : nlmsgOk b nlh len with
      | error e => simp [hok] at h
      | ok v =>
          cases v with
          | false =>
              simp only [hok, Bool.false_eq_true, if_false, pure, Except.pure,
                Except.ok.injEq] at h
              exact ⟨[], h.symm, by simp⟩
          | true =>
              cases hhdr : nlmsghdrAt b nlh with
              | error e => simp [hok, hhdr] at h
              | ok hd =>
                  simp only [hok, hhdr, if_true] at h
                  obtain ⟨ms, hms, hall⟩ := ih h
                  refine ⟨(nlh, hd) :: ms, hms, ?_⟩
                  intro m hm
                  rcases List.mem_cons.mp hm with rfl | hm
                  · exact handedOver_of_ok hok hhdr
                  · exact hall m hm

/-- Whatever skb it was given, a receive function that returned has handled the
    messages it handed over one after the other. -/
theorem receiveSkb_ok {recvMsg : Nat → σ → Nlmsghdr → Nat → σ × Int} {b : List Byte} {s : σ}
    {r : Received σ} (h : receiveSkb recvMsg b s = .ok r) :
    r = r.calls.foldl (Received.handle recvMsg) ⟨s, [], []⟩ ∧ ∀ m ∈ r.calls, HandedOver b m := by
  obtain ⟨ms, hms, hall⟩ := receiveLoop_ok h
  have hcalls : r.calls = ms := by
    rw [hms, calls_foldl_handle]
    rfl
  rw [hcalls]
  exact ⟨hms, hall⟩

end LinuxModules.Net
