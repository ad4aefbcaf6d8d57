import IpNdnStack.Proof.Reads

/-!
# Which frames are valid

A frame that carries an IPv4 packet (`WellFormed`), and what `decode` asks of
one (`Plausible`): it does not look at the EtherType behind a tag, nor whether
the header lengths are large enough to be header lengths. So it accepts
precisely the well-formed frames just among those that are no counterfeits of
this kind (`decode_valid_iff`).
-/

namespace IpNdn

section

variable (mem : Nat → Byte) (capLen : BitVec 32)

/-- The frame has an IPv4 header, all of it captured. -/
structure HasIpHeader : Prop where
  /-- directly, or behind one 802.1Q tag -/
  etherType : be16 mem 12 = 0x0800 ∨ be16 mem 12 = 0x8100 ∧ be16 mem 16 = 0x0800
  ipVersion : version mem = 4
  /-- `ip_hl` is at least 5 -/
  ihl : 20 ≤ headerLen mem
  header : ipStart mem + headerLen mem ≤ capLen.toNat
  checksum : ChecksumOk mem

/-- The frame carries an IPv4 packet with its headers captured. -/
structure WellFormed : Prop extends HasIpHeader mem capLen where
  /-- `doff` is at least 5, and the TCP header is captured -/
  tcp : protocol mem = IPPROTO_TCP →
    20 ≤ dataOffset mem ∧ ipStart mem + headerLen mem + dataOffset mem ≤ capLen.toNat
  udpIcmp : protocol mem = IPPROTO_UDP ∨ protocol mem = IPPROTO_ICMP →
    ipStart mem + headerLen mem + 8 ≤ capLen.toNat

/-- An EtherType of IPv4 or of a tag, and a version, checksum and transport
header as they should be. -/
structure Plausible : Prop where
  etherType : be16 mem 12 = 0x0800 ∨ be16 mem 12 = 0x8100
  ipVersion : version mem = 4
  checksum : ChecksumOk mem
  transport : ipStart mem + transportEnd mem ≤ capLen.toNat

/-- IPv4 behind the tag, if there is one, and header lengths not below the
least. -/
structure Genuine : Prop where
  inner : Tagged mem → be16 mem 16 = 0x0800
  ihl : 20 ≤ headerLen mem
  doff : protocol mem = IPPROTO_TCP → 20 ≤ dataOffset mem

end

theorem transportEnd_le_iff (mem : Nat → Byte) (n : Nat) :
    ipStart mem + transportEnd mem ≤ n ↔
      ipStart mem + headerLen mem ≤ n ∧
        (protocol mem = IPPROTO_TCP → ipStart mem + headerLen mem + dataOffset mem ≤ n) ∧
        (protocol mem = IPPROTO_UDP ∨ protocol mem = IPPROTO_ICMP → ipStart mem + headerLen mem + 8 ≤ n) := by
  have hut : IPPROTO_UDP ≠ IPPROTO_TCP := by decide
  have hit : IPPROTO_ICMP ≠ IPPROTO_TCP := by decide
  unfold transportEnd
  by_cases ht : protocol mem = IPPROTO_TCP
  · have hn : ¬ (protocol mem = IPPROTO_UDP ∨ protocol mem = IPPROTO_ICMP) := by
      rw [ht]
      exact fun h => h.elim hut.symm hit.symm
    rw [if_pos ht]
    refine ⟨fun h => ⟨by omega, fun _ => by omega, fun e => absurd e hn⟩, fun ⟨_, h, _⟩ => ?_⟩
    have := h ht
    omega
  · by_cases hu : protocol mem = IPPROTO_UDP ∨ protocol mem = IPPROTO_ICMP
    · rw [if_neg ht, if_pos hu]
      simp only [ht, hu, forall_const, false_implies, true_and]
      omega
    · rw [if_neg ht, if_neg hu]
      simp only [ht, hu, false_implies, and_true]

/-- A well-formed frame is a plausible and genuine one. -/
theorem wellFormed_iff (mem : Nat → Byte) (capLen : BitVec 32) :
    WellFormed mem capLen ↔ Plausible mem capLen ∧ Genuine mem := by
  refine ⟨fun h => ?_, fun h => ?_⟩
  · obtain ⟨⟨he, hv, hi, hh, hc⟩, ht, hu⟩ := h
    refine ⟨⟨he.imp id And.left, hv, hc, ?_⟩, ⟨fun h => ?_, hi, fun h => (ht h).1⟩⟩
    · exact (transportEnd_le_iff mem _).mpr ⟨hh, fun h => (ht h).2, hu⟩
    · rcases he with he | he
      · unfold Tagged at h
        omega
      · exact he.2
  · obtain ⟨⟨he, hv, hc, ht⟩, ⟨hin, hi, hd⟩⟩ := h
    obtain ⟨hh, ht, hu⟩ := (transportEnd_le_iff mem _).mp ht
    exact ⟨⟨he.imp id fun h => ⟨h, hin h⟩, hv, hi, hh, hc⟩, fun h => ⟨hd h, ht h⟩, hu⟩

/-- `decode` accepts the plausible frames, with a length that is no negative
`int`. -/
theorem decodeStatus_valid_iff_plausible (mem : Nat → Byte) (capLen : BitVec 32) :
    decodeStatus mem capLen = .valid ↔ Plausible mem capLen ∧ capLen.toNat - ipStart mem < 2 ^ 31 := by
  rw [decodeStatus_valid_iff]
  refine ⟨fun h => ?_, fun h => ?_⟩
  · obtain ⟨he, hv, hc, hf⟩ := h
    exact ⟨⟨he.symm, hv, hc, hf.1⟩, hf.2⟩
  · obtain ⟨⟨he, hv, hc, ht⟩, hl⟩ := h
    exact ⟨he.symm, hv, hc, ht, hl⟩

/-- The addresses and the protocol of a header, in a tuple's key. -/
def HasHeader (k : FlowKey) (mem : Nat → Byte) : Prop :=
  (ntohl k.srcIp).toNat = be32 mem (ipStart mem + 12) ∧ (ntohl k.dstIp).toNat = be32 mem (ipStart mem + 16) ∧
    k.proto = mem (ipStart mem + 9)

theorem hasHeader_of_valid {mem : Nat → Byte} {capLen : BitVec 32} (h : decodeStatus mem capLen = .valid)
    (actLen : BitVec 32) (ts : Int) (p : Tuple) (g : Globals) :
    HasHeader (decode mem capLen actLen ts p g).val.2.1.key mem := by
  rw [decode_accepted mem capLen actLen ts p g h, ipHeader_eq]
  obtain ⟨-, -, -, hs, hd⟩ := assignFields_fields mem ts (captured mem capLen p) (ipStart mem) (g.seqCount + 1)
  refine ⟨?_, ?_, ?_⟩
  · rw [hs, ntohl_load32]
  · rw [hd, ntohl_load32]
  · simp only [assignFields, Logged.val_bind, Logged.val_ite]
    split
    · rfl
    · split <;> rfl

/-- `decode` accepts a frame just if it is well formed, and then has its header
in the key: so it is just if the frame is not plausible, or is as genuine as
its length is no negative `int`. -/
theorem decode_valid_iff (mem : Nat → Byte) (capLen actLen : BitVec 32) (ts : Int) (p : Tuple) (g : Globals) :
    (((decode mem capLen actLen ts p g).val.1 = .valid ↔ WellFormed mem capLen) ∧
        ((decode mem capLen actLen ts p g).val.1 = .valid →
          HasHeader (decode mem capLen actLen ts p g).val.2.1.key mem)) ↔
      (Plausible mem capLen → (capLen.toNat - ipStart mem < 2 ^ 31 ↔ Genuine mem)) := by
  have hh : (decode mem capLen actLen ts p g).val.1 = .valid →
      HasHeader (decode mem capLen actLen ts p g).val.2.1.key mem := by
    rw [decode_status]
    exact fun h => hasHeader_of_valid h actLen ts p g
  rw [and_iff_left hh, decode_status, decodeStatus_valid_iff_plausible, wellFormed_iff]
  exact and_congr_right_iff

/-- An IPv6 EtherType behind a tag, before the bytes of an IPv4 packet. -/
def counterfeit : Frame :=
  { (udpFrame 60).tag with
    mem := fun i => if i = 16 then 0x86 else if i = 17 then 0xdd else (udpFrame 60).tag.mem i }

/-- Its bytes are all captured, and it is accepted. -/
theorem counterfeit_valid :
    (∀ o ∈ (decode counterfeit.mem 64 64 0 .new .zero).log, o < (64 : BitVec 32).toNat) ∧
      ¬ ((decode counterfeit.mem 64 64 0 .new .zero).val.1 = .valid ↔ WellFormed counterfeit.mem 64) := by
  refine ⟨by decide +kernel, fun h => ?_⟩
  have hv : (decode counterfeit.mem 64 64 0 .new .zero).val.1 = .valid := (decode_status ..).trans (by decide +kernel)
  exact absurd (h.mp hv).etherType (by decide)

end IpNdn
