import Mathlib.Data.List.GetD
import IpNdnStack.Proof.Ports
import IpNdnStack.Proof.WellFormed

/-!
# Fragments

The ways to split a datagram's payload into IPv4 fragments (`Splits`), and the
frames that carry one of them (`Carries`). `decode` never looks at the fragment
offset, so whatever the payload has at a fragment's start is taken for a
transport header (`decodeStatus_of_carries`), which does no harm only where
these bytes happen to look like a header that fits, with ports 0
(`notMisread_iff`).
-/

namespace IpNdn

/-! ## Splitting -/

/-- A part of a datagram's payload, from byte `offset` on. -/
structure Fragment where
  offset : Nat
  bytes : List Byte
  /-- The flag "more fragments". -/
  more : Bool
  deriving DecidableEq, Repr

/-- The fragments that `pieces` are from byte `offset` on. -/
def fragments : (offset : Nat) → (pieces : List (List Byte)) → List Fragment
  | _, [] => []
  | offset, bytes :: pieces => ⟨offset, bytes, !pieces.isEmpty⟩ :: fragments (offset + bytes.length) pieces

/-- `pieces` split a payload: all but the last at multiples of 8 bytes. -/
structure Splits (payload : List Byte) (pieces : List (List Byte)) : Prop where
  join : pieces.flatten = payload
  nonempty : [] ∉ pieces
  aligned : ∀ bytes ∈ pieces.dropLast, 8 ∣ bytes.length

/-- The bytes of a fragment are those of the payload at its offset. -/
theorem getD_of_mem_fragments {o : Nat} {pieces : List (List Byte)} {f : Fragment} (hf : f ∈ fragments o pieces) :
    o ≤ f.offset ∧ ∀ i < f.bytes.length, f.bytes.getD i 0 = pieces.flatten.getD (f.offset - o + i) 0 := by
  induction pieces generalizing o with
  | nil => exact absurd hf List.not_mem_nil
  | cons bytes pieces ih =>
    rw [List.flatten_cons]
    rcases List.mem_cons.mp hf with rfl | hf
    · refine ⟨Nat.le_refl o, fun i hi => ?_⟩
      rw [Nat.sub_self, Nat.zero_add, List.getD_append _ _ _ _ hi]
    · obtain ⟨ho, hb⟩ := ih hf
      refine ⟨by omega, fun i hi => ?_⟩
      rw [hb i hi, List.getD_append_right _ _ _ _ (by omega)]
      congr 1
      omega

theorem Splits.getD {payload : List Byte} {pieces : List (List Byte)} (h : Splits payload pieces) {f : Fragment}
    (hf : f ∈ fragments 0 pieces) {i : Nat} (hi : i < f.bytes.length) :
    f.bytes.getD i 0 = payload.getD (f.offset + i) 0 := by
  rw [(getD_of_mem_fragments hf).2 i hi, h.join, Nat.sub_zero]

/-! ## Frames -/

section

variable (mem : Nat → Byte) (capLen : BitVec 32)

/-- The frame carries `f`, captured as far as `capLen`, with anything after it. -/
structure Carries (proto : Byte) (f : Fragment) : Prop extends HasIpHeader mem capLen where
  protocol : protocol mem = proto
  ipLen : be16 mem (ipStart mem + 2) = headerLen mem + f.bytes.length
  /-- the offset in units of 8 bytes, below two flags that are not ours -/
  ipOff : be16 mem (ipStart mem + 6) % 0x4000 = (if f.more then 0x2000 else 0) + f.offset / 8
  bytes : ∀ i < f.bytes.length, ipStart mem + headerLen mem + i < capLen.toNat →
    mem (ipStart mem + headerLen mem + i) = f.bytes.getD i 0

/-- Byte `i` after the IP header: of the payload, or what the buffer has where
the fragment or the capture has ended. -/
def byteAt (payload : List Byte) (f : Fragment) (i : Nat) : Byte :=
  if i < f.bytes.length ∧ ipStart mem + headerLen mem + i < capLen.toNat then payload.getD (f.offset + i) 0
  else mem (ipStart mem + headerLen mem + i)

/-- What follows the IP header looks like a transport header with ports 0 that
is captured. -/
structure Harmless (proto : Byte) (payload : List Byte) (f : Fragment) : Prop where
  ports : ∀ i < 4, byteAt mem capLen payload f i = 0
  tcp : proto = IPPROTO_TCP →
    ipStart mem + headerLen mem + 4 * ((byteAt mem capLen payload f 12).toNat / 16) ≤ capLen.toNat
  udp : proto = IPPROTO_UDP → ipStart mem + headerLen mem + 8 ≤ capLen.toNat
  /-- the captured length is no negative `int` -/
  int : capLen.toNat - ipStart mem < 2 ^ 31

end

/-- The payload of a fragment is not taken for a transport header. -/
def NotMisread (status : PacketStatus) (t : Tuple) : Prop :=
  status ≠ .tcpNotFull ∧ status ≠ .udpNotFull ∧ (status = .valid → t.key.srcPort = 0 ∧ t.key.dstPort = 0)

section

variable {mem : Nat → Byte} {capLen : BitVec 32} {proto : Byte} {f : Fragment}

theorem Carries.byteAt_eq {payload : List Byte} {pieces : List (List Byte)} (h : Carries mem capLen proto f)
    (hs : Splits payload pieces) (hf : f ∈ fragments 0 pieces) (i : Nat) :
    byteAt mem capLen payload f i = mem (ipStart mem + headerLen mem + i) := by
  unfold byteAt
  split
  · rename_i hi
    rw [h.bytes i hi.1 hi.2, hs.getD hf hi.1]
  · rfl

/-- The status of a frame that carries a fragment: as if it were no fragment. -/
theorem decodeStatus_of_carries (h : Carries mem capLen proto f) (hp : proto = IPPROTO_TCP ∨ proto = IPPROTO_UDP) :
    decodeStatus mem capLen =
      if Fits mem capLen (transportEnd mem) then .valid
      else if proto = IPPROTO_TCP then .tcpNotFull
      else .udpNotFull := by
  by_cases hf : Fits mem capLen (transportEnd mem)
  · rw [if_pos hf]
    exact (decodeStatus_valid_iff mem capLen).mpr
      ⟨h.etherType.symm.imp And.left id, h.ipVersion, h.checksum, hf⟩
  · rw [if_neg hf, decodeStatus_eq, h.protocol]
    rcases hp with rfl | rfl
    · rw [if_pos ⟨hf, rfl⟩, if_pos rfl]
    · rw [if_neg fun e => absurd e.2 (by decide), if_pos ⟨hf, rfl⟩, if_neg (by decide)]

theorem ntohs_load16_eq_zero_iff (mem : Nat → Byte) (i : Nat) :
    ntohs (load16 mem i).val = 0 ↔ mem i = 0 ∧ mem (i + 1) = 0 := by
  rw [← BitVec.toNat_inj, ntohs_load16, ← BitVec.toNat_inj, ← BitVec.toNat_inj, be16]
  show _ = 0 ↔ _ = 0 ∧ _ = 0
  omega

/-- The ports that a valid frame's tuple gets are 0 just if four bytes are. -/
theorem ports_eq_zero_iff (hv : decodeStatus mem capLen = .valid)
    (hp : protocol mem = IPPROTO_TCP ∨ protocol mem = IPPROTO_UDP) (actLen : BitVec 32) (ts : Int) (p : Tuple)
    (g : Globals) :
    (decode mem capLen actLen ts p g).val.2.1.key.srcPort = 0 ∧
        (decode mem capLen actLen ts p g).val.2.1.key.dstPort = 0 ↔
      ∀ i < 4, mem (ipStart mem + headerLen mem + i) = 0 := by
  rw [decode_accepted mem capLen actLen ts p g hv, ipHeader_eq]
  obtain ⟨hs, hd⟩ := assignFields_ports mem ts (g.seqCount + 1) (captured mem capLen p) hp
  rw [hs, hd, ntohs_load16_eq_zero_iff, ntohs_load16_eq_zero_iff]
  constructor
  · intro ⟨⟨h0, h1⟩, ⟨h2, h3⟩⟩ i hi
    rcases (by omega : i = 0 ∨ i = 1 ∨ i = 2 ∨ i = 3) with rfl | rfl | rfl | rfl
    · exact h0
    · exact h1
    · exact h2
    · exact h3
  · intro h
    exact ⟨⟨h 0 (by omega), h 1 (by omega)⟩, ⟨h 2 (by omega), h 3 (by omega)⟩⟩

theorem Carries.harmless_iff {payload : List Byte} {pieces : List (List Byte)} (h : Carries mem capLen proto f)
    (hp : proto = IPPROTO_TCP ∨ proto = IPPROTO_UDP) (hs : Splits payload pieces) (hf : f ∈ fragments 0 pieces) :
    Harmless mem capLen proto payload f ↔
      Fits mem capLen (transportEnd mem) ∧ ∀ i < 4, mem (ipStart mem + headerLen mem + i) = 0 := by
  have hb := h.byteAt_eq hs hf
  have hi : proto ≠ IPPROTO_ICMP := by
    rcases hp with rfl | rfl <;> decide
  have ht : ipStart mem + transportEnd mem ≤ capLen.toNat ↔
      (proto = IPPROTO_TCP → ipStart mem + headerLen mem + dataOffset mem ≤ capLen.toNat) ∧
        (proto = IPPROTO_UDP → ipStart mem + headerLen mem + 8 ≤ capLen.toNat) := by
    rw [transportEnd_le_iff, h.protocol, and_iff_right h.header, or_iff_left hi]
  rw [Fits, ht]
  refine ⟨fun hh => ?_, fun h => ?_⟩
  · have hd := hh.tcp
    rw [hb] at hd
    exact ⟨⟨⟨hd, hh.udp⟩, hh.int⟩, fun i hi => (hb i).symm.trans (hh.ports i hi)⟩
  · obtain ⟨⟨⟨hd, hu⟩, hl⟩, hz⟩ := h
    refine ⟨fun i hi => (hb i).trans (hz i hi), ?_, hu, hl⟩
    rw [hb]
    exact hd

end

/-- Whatever way the payload of a TCP or UDP datagram is split, and wherever a
fragment has its place in it: the frame of the fragment is not misread just
when the payload there looks like a captured transport header with ports 0. -/
theorem notMisread_iff (proto : Byte) (hp : proto = IPPROTO_TCP ∨ proto = IPPROTO_UDP) (payload : List Byte)
    (pieces : List (List Byte)) (hs : Splits payload pieces) (f : Fragment) (hf : f ∈ fragments 0 pieces)
    (mem : Nat → Byte) (capLen actLen : BitVec 32) (hc : Carries mem capLen proto f) (ts : Int) (p : Tuple)
    (g : Globals) :
    NotMisread (decode mem capLen actLen ts p g).val.1 (decode mem capLen actLen ts p g).val.2.1 ↔
      Harmless mem capLen proto payload f := by
  rw [hc.harmless_iff hp hs hf, NotMisread, decode_status]
  have hst := decodeStatus_of_carries hc hp
  by_cases hft : Fits mem capLen (transportEnd mem)
  · rw [if_pos hft] at hst
    have hz := ports_eq_zero_iff hst (hc.protocol.symm ▸ hp) actLen ts p g
    simp only [hst, ne_eq, reduceCtorEq, not_false_eq_true, true_and, forall_const, hz, hft]
  · rw [if_neg hft] at hst
    refine iff_of_false ?_ fun h => hft h.1
    rcases hp with rfl | rfl
    · exact fun h => h.1 hst
    · exact fun h => h.2.1 hst

/-! ## Two fragments of a UDP datagram -/

/-- A frame of 60 bytes with the last 16 bytes of a UDP datagram of 32. -/
def lastFragment (bytes : List Byte) : Frame :=
  let header : List Byte :=
    [0, 0, 0, 0, 0, 0, 0, 0, 0, 0, 0, 0, 8, 0, 0x45, 0, 0, 36, 0, 0, 0, 2, 64, 17, 0xf7, 0x71, 192, 168, 1, 4,
      192, 168, 1, 1]
  ⟨fun i => (header ++ bytes).getD i 0, 60, 60⟩

/-- Ports 80 and 443, length 32, and data. -/
def udpHead : List Byte := [0, 80, 1, 187, 0, 32, 0, 0, 1, 2, 3, 4, 5, 6, 7, 8]

theorem carries_lastFragment {bytes : List Byte} (hl : bytes.length = 16) :
    Carries (lastFragment bytes).mem 60 IPPROTO_UDP ⟨16, bytes, false⟩ := by
  have he : be16 (lastFragment bytes).mem 12 = 0x0800 := rfl
  have hi : ipStart (lastFragment bytes).mem = 14 := if_neg (by rw [Tagged, he]; decide)
  have h0 : (lastFragment bytes).mem 14 = 0x45 := rfl
  have hh : headerLen (lastFragment bytes).mem = 20 := by
    rw [headerLen, hi, h0]
    rfl
  have hv : version (lastFragment bytes).mem = 4 := by
    rw [version, hi, h0]
    rfl
  have hc : ChecksumOk (lastFragment bytes).mem := by
    rw [ChecksumOk, hi, hh]
    show OnesComplement.sum 65536 [0x4500, 36, 0, 2, 0x4011, 0xf771, 0xc0a8, 0x0104, 0xc0a8, 0x0101] = 65535
    decide
  have ho : be16 (lastFragment bytes).mem (14 + 6) = 2 := rfl
  refine ⟨⟨.inl he, hv, hh.ge, by rw [hi, hh]; decide, hc⟩, by rw [protocol, hi]; rfl, ?_, ?_, fun i _ _ => ?_⟩
  · rw [hi, hh, hl]
    rfl
  · rw [hi, ho]
    simp
  · rw [hh, hi]
    show List.getD (_ ++ bytes) (34 + i) 0 = bytes.getD i 0
    rw [List.getD_append_right _ _ _ _ (Nat.le_add_right 34 i)]
    exact congrArg (bytes.getD · 0) (Nat.add_sub_cancel_left 34 i)

theorem notMisread_zeros :
    NotMisread (decode (lastFragment (.replicate 16 0)).mem 60 60 0 .new .zero).val.1
      (decode (lastFragment (.replicate 16 0)).mem 60 60 0 .new .zero).val.2.1 :=
  (notMisread_iff IPPROTO_UDP (.inr rfl) (udpHead ++ .replicate 16 0) [udpHead, .replicate 16 0]
    ⟨rfl, by decide, by decide⟩ ⟨16, .replicate 16 0, false⟩ (by decide) _ 60 60 (carries_lastFragment rfl) 0 .new
    .zero).mpr ⟨by decide, by decide, by decide, by decide⟩

/-- Other data: its first bytes become the ports. -/
theorem misread_data :
    let data : List Byte := .replicate 16 7
    Splits (udpHead ++ data) [udpHead, data] ∧ ⟨16, data, false⟩ ∈ fragments 0 [udpHead, data] ∧
      Carries (lastFragment data).mem 60 IPPROTO_UDP ⟨16, data, false⟩ ∧
      ¬ NotMisread (decode (lastFragment data).mem 60 60 0 .new .zero).val.1
        (decode (lastFragment data).mem 60 60 0 .new .zero).val.2.1 := by
  refine ⟨⟨rfl, by decide, by decide⟩, by decide, carries_lastFragment rfl, fun h => ?_⟩
  have hv : (decode (lastFragment (.replicate 16 7)).mem 60 60 0 .new .zero).val.1 = .valid :=
    (decode_status ..).trans (by decide +kernel)
  exact absurd (h.2.2 hv).1 (by decide +kernel)

end IpNdn
