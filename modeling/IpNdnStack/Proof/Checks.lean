import IpNdnStack.Proof.Capture
import IpNdnStack.Proof.Header

/-!
# The checks of `decode`

The status of a frame, from its bytes alone (`decodeStatus_eq`): the checks as
conditions on the frame's fields, the last one that fails first, since each
replaces the status of those before it. So a frame is valid just when it passes
all of them (`decodeStatus_valid_iff`).
-/

namespace IpNdn

/-! ## Fields of a frame -/

section

variable (mem : Nat → Byte)

/-- The frame has an 802.1Q tag. -/
def Tagged : Prop := be16 mem 12 = 0x8100

instance : Decidable (Tagged mem) := by unfold Tagged; infer_instance

/-- Where the IP header starts. -/
def ipStart : Nat := if Tagged mem then 18 else 14

/-- `ip_v` -/
def version : Nat := (mem (ipStart mem)).toNat / 16

/-- The length of the IP header, from `ip_hl`. -/
def headerLen : Nat := 4 * ((mem (ipStart mem)).toNat % 16)

def protocol : Byte := mem (ipStart mem + 9)

/-- The length of a TCP header, from `doff`. -/
def dataOffset : Nat := 4 * ((mem (ipStart mem + headerLen mem + 12)).toNat / 16)

/-- How much of the IP datagram must be there for its transport header: in the
words of `decode`, the TCP header up to its `doff`, and 8 bytes of UDP or ICMP. -/
def transportEnd : Nat :=
  if protocol mem = IPPROTO_TCP then headerLen mem + dataOffset mem
  else if protocol mem = IPPROTO_UDP ∨ protocol mem = IPPROTO_ICMP then headerLen mem + 8
  else headerLen mem

/-- `n` bytes of the IP datagram are captured, as the `int` comparisons of
`decode` see it. -/
def Fits (capLen : BitVec 32) (n : Nat) : Prop :=
  ipStart mem + n ≤ capLen.toNat ∧ capLen.toNat - ipStart mem < 2 ^ 31

instance (capLen : BitVec 32) (n : Nat) : Decidable (Fits mem capLen n) := by unfold Fits; infer_instance

/-- The header's checksum is correct. -/
def ChecksumOk : Prop := OnesComplement.sum 65536 (words mem (ipStart mem) (headerLen mem / 2)) = 65535

instance : Decidable (ChecksumOk mem) := by unfold ChecksumOk; infer_instance

theorem ipStart_cases : ipStart mem = 14 ∨ ipStart mem = 18 := by
  unfold ipStart
  split
  · exact .inr rfl
  · exact .inl rfl

end

/-! ## The checks -/

section

variable {mem : Nat → Byte} {capLen : BitVec 32}

theorem checkEther_val (mem : Nat → Byte) :
    (checkEther mem ETH_LEN .valid).val =
      (ipStart mem, if ¬ Tagged mem ∧ be16 mem 12 ≠ 0x0800 then .nonIp else .valid) := by
  have hv : ntohs (load16 mem 12).val = ETHERTYPE_VLAN ↔ Tagged mem := by
    rw [← BitVec.toNat_inj, ntohs_load16]
    exact Iff.rfl
  have hi : ntohs (load16 mem 12).val = ETH_P_IP ↔ be16 mem 12 = 0x0800 := by
    rw [← BitVec.toNat_inj, ntohs_load16]
    exact Iff.rfl
  simp only [checkEther, Logged.val_ite, Logged.val_bind, Logged.val_pure, hv, ne_eq, hi, ipStart]
  by_cases ht : Tagged mem
  · simp only [ht, if_true, not_true_eq_false, false_and, if_false]
    rfl
  · simp only [ht, if_false, not_false_eq_true, true_and]
    by_cases h8 : be16 mem 12 = 0x0800
    · simp only [h8, not_true_eq_false, if_false]
      rfl
    · simp only [h8, not_false_eq_true, if_true]
      rfl

theorem ipHeader_eq (mem : Nat → Byte) : ipHeader mem = ipStart mem := congrArg Prod.fst (checkEther_val mem)

/-- A comparison with the signed length. -/
theorem not_fits_iff (mem : Nat → Byte) (capLen : BitVec 32) (n : Nat) :
    (capLen - BitVec.ofNat 32 (ipStart mem)).toInt < n ↔ ¬ Fits mem capLen n := by
  have hc := capLen.isLt
  have h : (capLen - BitVec.ofNat 32 (ipStart mem)).toNat =
      if capLen.toNat < ipStart mem then capLen.toNat + (2 ^ 32 - ipStart mem) else capLen.toNat - ipStart mem := by
    have ho : (BitVec.ofNat 32 (ipStart mem)).toNat = ipStart mem := by
      rcases ipStart_cases mem with e | e <;> rw [e] <;> rfl
    have hlt : ipStart mem ≤ 18 := by
      rcases ipStart_cases mem with e | e <;> omega
    rw [BitVec.toNat_sub, ho]
    split <;> omega
  have hlt : ipStart mem ≤ 18 := by
    rcases ipStart_cases mem with e | e <;> omega
  rw [BitVec.toInt_eq_toNat_cond, h]
  unfold Fits
  split <;> split at * <;> omega

theorem ipHl_shift (mem : Nat → Byte) : (loadIpHl mem (ipStart mem)).val <<< 2 = headerLen mem := by
  rw [loadIpHl_val, Nat.shiftLeft_eq, headerLen, Nat.mul_comm]

theorem doff_shift (mem : Nat → Byte) :
    (loadDoff mem (ipStart mem + headerLen mem)).val <<< 2 = dataOffset mem := by
  rw [loadDoff_val, Nat.shiftLeft_eq, dataOffset, Nat.mul_comm]

theorem checkIp_val (mem : Nat → Byte) (capLen : BitVec 32) (status : PacketStatus) :
    (checkIp mem (ipStart mem) (capLen - BitVec.ofNat 32 (ipStart mem)) status).val =
      if ¬ ChecksumOk mem then .ipChksumFail
      else if version mem ≠ 4 then .ipVerFail
      else if ¬ Fits mem capLen (headerLen mem) then .ipNotFull
      else status := by
  have hs : (inChksumIp mem (ipStart mem) (headerLen mem)).val = 0 ↔ ChecksumOk mem := by
    have := inChksumIp_eq_zero_iff mem (ipStart mem) (headerLen mem / 2)
    rwa [show 2 * (headerLen mem / 2) = headerLen mem by unfold headerLen; omega] at this
  simp only [checkIp, Logged.val_bind, Logged.val_pure, ipHl_shift, loadIpV_val, ne_eq, hs, not_fits_iff, version,
    ite_not]

theorem checkL4_val (mem : Nat → Byte) (capLen : BitVec 32) (status : PacketStatus) :
    (checkL4 mem (ipStart mem) (capLen - BitVec.ofNat 32 (ipStart mem)) status).val =
      if Fits mem capLen (transportEnd mem) then status
      else if protocol mem = IPPROTO_TCP then .tcpNotFull
      else if protocol mem = IPPROTO_UDP then .udpNotFull
      else if protocol mem = IPPROTO_ICMP then .icmpNotFull
      else status := by
  have hp : (load8 mem (ipStart mem + 9)).val = protocol mem := rfl
  simp only [checkL4, Logged.val_bind, Logged.val_ite, Logged.val_pure, ipHl_shift, doff_shift, hp, not_fits_iff,
    transportEnd]
  have hut : IPPROTO_UDP ≠ IPPROTO_TCP := by decide
  have hit : IPPROTO_ICMP ≠ IPPROTO_TCP := by decide
  have hiu : IPPROTO_ICMP ≠ IPPROTO_UDP := by decide
  by_cases ht : protocol mem = IPPROTO_TCP
  · simp only [ht, if_true, ite_not]
  · by_cases hu : protocol mem = IPPROTO_UDP
    · simp only [hu, hut, if_false, if_true, true_or, ite_not]
    · by_cases hi : protocol mem = IPPROTO_ICMP
      · simp only [hi, hit, hiu, if_false, if_true, or_true, ite_not]
      · simp only [ht, hu, hi, if_false, or_self, ite_self]

/-- The status of a frame: that of the last check that fails. -/
theorem decodeStatus_eq (mem : Nat → Byte) (capLen : BitVec 32) :
    decodeStatus mem capLen =
      if ¬ Fits mem capLen (transportEnd mem) ∧ protocol mem = IPPROTO_TCP then .tcpNotFull
      else if ¬ Fits mem capLen (transportEnd mem) ∧ protocol mem = IPPROTO_UDP then .udpNotFull
      else if ¬ Fits mem capLen (transportEnd mem) ∧ protocol mem = IPPROTO_ICMP then .icmpNotFull
      else if ¬ ChecksumOk mem then .ipChksumFail
      else if version mem ≠ 4 then .ipVerFail
      else if ¬ Fits mem capLen (headerLen mem) then .ipNotFull
      else if ¬ Tagged mem ∧ be16 mem 12 ≠ 0x0800 then .nonIp
      else .valid := by
  simp only [decodeStatus, ipHeader_eq, checkEther_val, checkIp_val, checkL4_val]
  by_cases hf : Fits mem capLen (transportEnd mem)
  · simp only [hf, if_true, not_true_eq_false, false_and, if_false]
  · simp only [hf, if_false, not_false_eq_true, true_and]

theorem headerLen_le_transportEnd (mem : Nat → Byte) : headerLen mem ≤ transportEnd mem := by
  unfold transportEnd
  split
  · omega
  · split <;> omega

theorem Fits.mono {m n : Nat} (h : Fits mem capLen n) (hmn : m ≤ n) : Fits mem capLen m := by
  unfold Fits at *
  omega

/-- A valid frame passes every check. -/
theorem decodeStatus_valid_iff (mem : Nat → Byte) (capLen : BitVec 32) :
    decodeStatus mem capLen = .valid ↔
      (Tagged mem ∨ be16 mem 12 = 0x0800) ∧ version mem = 4 ∧ ChecksumOk mem ∧
        Fits mem capLen (transportEnd mem) := by
  rw [decodeStatus_eq]
  refine ⟨fun h => ?_, fun h => ?_⟩
  · simp only [ite_eq_iff, reduceCtorEq, and_false, false_or, and_true, not_not, ne_eq] at h
    obtain ⟨ht, hu, hi, hc, hv, hh, he⟩ := h
    refine ⟨?_, hv, hc, ?_⟩
    · by_contra hn
      rw [not_or] at hn
      exact he hn
    · by_contra hf
      have ht : protocol mem ≠ IPPROTO_TCP := fun e => ht ⟨hf, e⟩
      have hu : protocol mem ≠ IPPROTO_UDP := fun e => hu ⟨hf, e⟩
      have hi : protocol mem ≠ IPPROTO_ICMP := fun e => hi ⟨hf, e⟩
      apply hf
      rwa [transportEnd, if_neg ht, if_neg (not_or.mpr ⟨hu, hi⟩)]
  · obtain ⟨he, hv, hc, hf⟩ := h
    have hh := hf.mono (headerLen_le_transportEnd mem)
    have hn : ¬ (¬ Tagged mem ∧ be16 mem 12 ≠ 0x0800) := fun h => he.elim h.1 h.2
    simp only [hf, hc, hv, hh, not_true_eq_false, false_and, if_false, ne_eq]
    rw [if_neg hn]

end

end IpNdn
