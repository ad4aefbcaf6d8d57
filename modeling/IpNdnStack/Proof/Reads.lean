import IpNdnStack.Proof.Checks

/-!
# What `decode` reads and hands on

Where the reads of `decode` are: the flag at a fixed offset, the IP header as
long as it says it is, and the `doff` of a TCP header. They stay inside the
capture just when these do (`decode_reads_iff`). And where the slice is that is
published for a valid frame: it ends inside the capture just when the frame has
no tag (`decode_slice_iff`).
-/

namespace IpNdn

/-! ## Reads -/

section

variable (pkt : Nat → Byte) (n : Nat)

theorem all_load8 (i : Nat) : (load8 pkt i).All (· < n) ↔ i < n := List.forall_mem_singleton

theorem all_load16 (i : Nat) : (load16 pkt i).All (· < n) ↔ i + 1 < n := by
  simp only [load16, Logged.all_bind, all_load8, Logged.all_pure, and_true]
  omega

theorem all_load32 (i : Nat) : (load32 pkt i).All (· < n) ↔ i + 3 < n := by
  simp only [load32, Logged.all_bind, all_load16, Logged.all_pure, and_true]
  omega

theorem all_loadIpHl (i : Nat) : (loadIpHl pkt i).All (· < n) ↔ i < n := by
  simp only [loadIpHl, Logged.all_bind, all_load8, Logged.all_pure, and_true]

theorem all_loadIpV (i : Nat) : (loadIpV pkt i).All (· < n) ↔ i < n := by
  simp only [loadIpV, Logged.all_bind, all_load8, Logged.all_pure, and_true]

theorem all_loadDoff (i : Nat) : (loadDoff pkt i).All (· < n) ↔ i + 12 < n := by
  simp only [loadDoff, Logged.all_bind, all_load8, Logged.all_pure, and_true]

/-- The loop of `in_chksum_ip` reads every word. -/
theorem all_sumWords (w k sum : Nat) : (sumWords pkt w (2 * k) sum).All (· < n) ↔ (0 < k → w + 2 * k ≤ n) := by
  induction k generalizing w sum with
  | zero => exact iff_of_true (Logged.all_pure _) fun h => absurd h (Nat.lt_irrefl 0)
  | succ k ih =>
    rw [show 2 * (k + 1) = 2 * k + 2 by omega, sumWords, Logged.all_bind, all_load16]
    dsimp only
    rw [ih]
    omega

theorem all_inChksumIp (w k : Nat) : (inChksumIp pkt w (2 * k)).All (· < n) ↔ (0 < k → w + 2 * k ≤ n) := by
  obtain ⟨sum, hs, -⟩ := sumWords_even pkt w k (OnesComplement.Folded.refl 0)
  rw [inChksumIp, Logged.all_bind, all_sumWords, hs]
  simp

theorem all_checkEther : (checkEther pkt ETH_LEN .valid).All (· < n) ↔ 13 < n := by
  simp only [checkEther, Logged.all_ite, Logged.all_bind, Logged.all_pure, all_load16]
  simp +contextual [ETH_LEN]

theorem all_checkIp (len : BitVec 32) (status : PacketStatus) :
    (checkIp pkt (ipStart pkt) len status).All (· < n) ↔
      ipStart pkt < n ∧ ipStart pkt + headerLen pkt ≤ n := by
  have hh : headerLen pkt = 2 * (headerLen pkt / 2) := by
    unfold headerLen
    omega
  simp only [checkIp, Logged.all_bind, Logged.all_pure, all_loadIpHl, all_loadIpV, ipHl_shift, and_true]
  rw [hh, all_inChksumIp]
  omega

theorem all_checkL4 (len : BitVec 32) (status : PacketStatus) :
    (checkL4 pkt (ipStart pkt) len status).All (· < n) ↔
      ipStart pkt + 9 < n ∧ (protocol pkt = IPPROTO_TCP → ipStart pkt + headerLen pkt + 12 < n) := by
  have hp : (load8 pkt (ipStart pkt + 9)).val = protocol pkt := rfl
  simp only [checkL4, Logged.all_bind, Logged.all_ite, Logged.all_pure, all_load8, all_loadIpHl, all_loadDoff,
    ipHl_shift, hp, and_true, implies_true]
  refine ⟨fun h => ?_, fun h => ?_⟩
  · obtain ⟨h9, -, ht⟩ := h
    exact ⟨h9, ht⟩
  · obtain ⟨h9, ht⟩ := h
    exact ⟨h9, by omega, ht⟩

theorem all_assignFields (ts : Int) (seq : BitVec 64) (p : Tuple) :
    (assignFields pkt (ipStart pkt) ts seq p).All (· < n) ↔
      ipStart pkt + 19 < n ∧ (protocol pkt = IPPROTO_TCP ∨ protocol pkt = IPPROTO_UDP →
        ipStart pkt + headerLen pkt + 3 < n) := by
  have hp : (load8 pkt (ipStart pkt + 9)).val = protocol pkt := rfl
  simp only [assignFields, Logged.all_bind, Logged.all_ite, Logged.all_pure, all_load8, all_load16, all_load32,
    all_loadIpHl, ipHl_shift, hp, and_true, implies_true]
  refine ⟨fun h => ?_, fun h => ?_⟩
  · obtain ⟨-, h19, -, -, -, ht, hu⟩ := h
    refine ⟨h19, fun h => ?_⟩
    by_cases hT : protocol pkt = IPPROTO_TCP
    · exact (ht hT).2
    · exact (hu hT (h.resolve_left hT)).2
  · obtain ⟨h19, hl⟩ := h
    have hr (h : protocol pkt = IPPROTO_TCP ∨ protocol pkt = IPPROTO_UDP) :
        ipStart pkt + headerLen pkt + 1 < n ∧ ipStart pkt + headerLen pkt + 2 + 1 < n := by
      have := hl h
      omega
    exact ⟨by omega, h19, by omega, by omega, by omega, fun h => hr (.inl h), fun _ h => hr (.inr h)⟩

/-- All reads of `decode`, those for a valid packet last. -/
theorem all_decode (capLen actLen : BitVec 32) (ts : Int) (p : Tuple) (g : Globals) :
    (decode pkt capLen actLen ts p g).All (· < n) ↔
      13 < n ∧ 49 < n ∧ (ipStart pkt < n ∧ ipStart pkt + headerLen pkt ≤ n) ∧
        (ipStart pkt + 9 < n ∧ (protocol pkt = IPPROTO_TCP → ipStart pkt + headerLen pkt + 12 < n)) ∧
        (decodeStatus pkt capLen = .valid → ipStart pkt + 19 < n ∧
          (protocol pkt = IPPROTO_TCP ∨ protocol pkt = IPPROTO_UDP → ipStart pkt + headerLen pkt + 3 < n)) := by
  have he : (checkEther pkt ETH_LEN .valid).val.1 = ipStart pkt := ipHeader_eq pkt
  have hs : (checkL4 pkt (ipStart pkt) (capLen - BitVec.ofNat 32 (ipStart pkt))
      (checkIp pkt (ipStart pkt) (capLen - BitVec.ofNat 32 (ipStart pkt))
        (checkEther pkt ETH_LEN .valid).val.2).val).val = decodeStatus pkt capLen := by
    rw [decodeStatus, ipHeader_eq]
  simp only [decode, Logged.all_bind, Logged.all_ite, Logged.all_pure, he, hs, all_checkEther, all_load16,
    all_checkIp, all_checkL4, all_assignFields, and_true, ne_eq, not_not, implies_true, true_and]

end

/-- The reads of `decode` stay inside the capture just when the capture has the
two bytes at 48, the IP header as long as `ip_hl` says, and byte 12 of a TCP
header. -/
theorem decode_reads_iff (mem : Nat → Byte) (capLen actLen : BitVec 32) (ts : Int) (p : Tuple) (g : Globals) :
    (∀ o ∈ (decode mem capLen actLen ts p g).log, o < capLen.toNat) ↔
      50 ≤ capLen.toNat ∧ ipStart mem + headerLen mem ≤ capLen.toNat ∧
        (protocol mem = IPPROTO_TCP → ipStart mem + headerLen mem + 12 < capLen.toNat) := by
  have ho : ipStart mem ≤ 18 := by rcases ipStart_cases mem with e | e <;> omega
  refine (all_decode mem capLen.toNat capLen actLen ts p g).trans ⟨fun h => ?_, fun h => ?_⟩
  · obtain ⟨-, h49, ⟨-, hh⟩, ⟨-, ht⟩, -⟩ := h
    exact ⟨h49, hh, ht⟩
  · obtain ⟨h50, hh, ht⟩ := h
    refine ⟨by omega, by omega, ⟨by omega, hh⟩, ⟨by omega, ht⟩, fun hv => ⟨by omega, fun hp => ?_⟩⟩
    rcases hp with hT | hU
    · have := ht hT
      omega
    · -- A valid UDP packet has its 8 bytes of header.
      have hf := ((decodeStatus_valid_iff mem capLen).mp hv).2.2.2
      rw [transportEnd, if_neg (by rw [hU]; decide), if_pos (.inl hU)] at hf
      have := hf.1
      omega

/-- A whole UDP datagram without payload: the flag is read after its end. -/
theorem decode_reads_udp :
    decodeStatus (udpFrame 42).mem 42 = .valid ∧
      ¬ ∀ o ∈ (decode (udpFrame 42).mem 42 42 0 .new .zero).log, o < (42 : BitVec 32).toNat := by
  decide +kernel

/-! ## The slice -/

/-- The bytes from `pkt` on, `ipSize` of them, are among the first `n` of the buffer. -/
def SliceInside (t : Tuple) (n : Nat) : Prop := ∃ q, t.pkt = some q ∧ q.off + t.ipSize ≤ n

theorem le_capLen_of_valid {mem : Nat → Byte} {capLen : BitVec 32} (h : decodeStatus mem capLen = .valid) :
    ipStart mem + headerLen mem ≤ capLen.toNat := by
  have hf := ((decodeStatus_valid_iff mem capLen).mp h).2.2.2
  exact (hf.mono (headerLen_le_transportEnd mem)).1

/-- The slice of a valid frame: from its IP header on, as long as the frame
without an Ethernet header. -/
theorem slice_of_valid {mem : Nat → Byte} {capLen : BitVec 32} (h : decodeStatus mem capLen = .valid)
    (actLen : BitVec 32) (ts : Int) (p : Tuple) (g : Globals) :
    (decode mem capLen actLen ts p g).val.2.1.pkt = some ⟨mem, ipStart mem⟩ ∧
      (decode mem capLen actLen ts p g).val.2.1.ipSize = capLen.toNat - 14 := by
  have hl := le_capLen_of_valid h
  have ho := ipStart_cases mem
  rw [decode_accepted mem capLen actLen ts p g h, ipHeader_eq]
  obtain ⟨hp, hi, -⟩ := assignFields_fields mem ts (captured mem capLen p) (ipStart mem) (g.seqCount + 1)
  refine ⟨hp, hi.trans ((ipSize_toNat capLen).trans (if_neg ?_))⟩
  omega

/-- The slice of a frame that `decode` accepts ends inside the capture just when
the frame has no 802.1Q tag. -/
theorem decode_slice_iff (mem : Nat → Byte) (capLen actLen : BitVec 32) (ts : Int) (p : Tuple) (g : Globals)
    (hv : (decode mem capLen actLen ts p g).val.1 = .valid) :
    SliceInside (decode mem capLen actLen ts p g).val.2.1 capLen.toNat ↔ ¬ Tagged mem := by
  rw [decode_status] at hv
  obtain ⟨hp, hi⟩ := slice_of_valid hv actLen ts p g
  have hl := le_capLen_of_valid hv
  have h : SliceInside (decode mem capLen actLen ts p g).val.2.1 capLen.toNat ↔
      ipStart mem + (capLen.toNat - 14) ≤ capLen.toNat := by
    simp only [SliceInside, hp, hi, Option.some.injEq, exists_eq_left']
  rw [h]
  unfold ipStart at hl ⊢
  by_cases ht : Tagged mem
  · rw [if_pos ht] at hl ⊢
    exact iff_of_false (by omega) (not_not.mpr ht)
  · rw [if_neg ht] at hl ⊢
    exact iff_of_true (by omega) ht

theorem decode_slice_udp :
    SliceInside (decode (udpFrame 60).mem 60 60 0 .new .zero).val.2.1 (60 : BitVec 32).toNat :=
  (decode_slice_iff _ _ _ _ _ _ ((decode_status ..).trans (by decide +kernel))).mpr (by decide)

/-- A frame with a tag put in. -/
def Frame.tag (frame : Frame) : Frame where
  mem i := if i < 12 then frame.mem i else if i = 12 then 0x81 else if i < 16 then 0 else frame.mem (i - 4)
  capLen := frame.capLen + 4
  actLen := frame.actLen + 4

/-- The same datagram behind a tag: the slice ends 4 bytes after the capture. -/
theorem decode_slice_tagged :
    (decode (udpFrame 60).tag.mem 64 64 0 .new .zero).val.1 = .valid ∧
      ¬ SliceInside (decode (udpFrame 60).tag.mem 64 64 0 .new .zero).val.2.1 (64 : BitVec 32).toNat := by
  have hv : decodeStatus (udpFrame 60).tag.mem 64 = .valid := by decide +kernel
  obtain ⟨hp, hi⟩ := slice_of_valid hv 64 0 .new .zero
  refine ⟨(decode_status ..).trans hv, fun h => ?_⟩
  obtain ⟨q, hq, hle⟩ := h
  cases hp.symm.trans hq
  rw [hi] at hle
  exact absurd hle (by decide)

end IpNdn
