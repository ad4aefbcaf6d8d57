import IpNdnStack.Proof.Checks

/-!
# The ports in names

`decode` turns the ports of a packet to host order, and `buildName` and
`build4TupleKey` turn what they get once more: so the names have the ports with
their bytes swapped (`portText_ntohs_load16`), which are the ports only if nothing
changes when their bytes are swapped (`portsNamed_iff`).
-/

namespace IpNdn

open Separated (append_cons_inj)

/-- The ports of a valid TCP or UDP packet's tuple. -/
theorem assignFields_ports (mem : Nat → Byte) (ts : Int) (seq : BitVec 64) (p : Tuple)
    (hp : protocol mem = IPPROTO_TCP ∨ protocol mem = IPPROTO_UDP) :
    (assignFields mem (ipStart mem) ts seq p).val.key.srcPort =
        ntohs (load16 mem (ipStart mem + headerLen mem)).val ∧
      (assignFields mem (ipStart mem) ts seq p).val.key.dstPort =
        ntohs (load16 mem (ipStart mem + headerLen mem + 2)).val := by
  have hm : (load8 mem (ipStart mem + 9)).val = protocol mem := rfl
  simp only [assignFields, Logged.val_bind, Logged.val_ite, hm, ipHl_shift]
  by_cases ht : protocol mem = IPPROTO_TCP
  · simp only [if_pos ht]
    exact ⟨rfl, rfl⟩
  · simp only [if_neg ht, if_pos (hp.resolve_left ht)]
    exact ⟨rfl, rfl⟩

/-- The number in the two bytes at `i`, the other way round. -/
theorem portText_ntohs_load16 (mem : Nat → Byte) (i : Nat) :
    portText (ntohs (load16 mem i).val) = natText (256 * (mem (i + 1)).toNat + (mem i).toNat) := by
  rw [portText, ntohs_ntohs]
  exact congrArg natText (toNat_append _ _)

theorem swapped_eq_iff (mem : Nat → Byte) (i : Nat) :
    natText (256 * (mem (i + 1)).toNat + (mem i).toNat) = natText (be16 mem i) ↔ mem i = mem (i + 1) := by
  rw [← BitVec.toNat_inj]
  have h0 := (mem i).isLt
  have h1 := (mem (i + 1)).isLt
  refine ⟨fun h => ?_, fun h => ?_⟩
  · have := natText_inj h
    unfold be16 at this
    omega
  · rw [be16, h]

/-- The uid of names of types 3 and 4 is `s-d-n`, and the last two fields of
the flow's key are `s` and `d`. -/
def PortsNamed (k : FlowKey) (s d : Nat) (n : BitVec 32) : Prop :=
  (buildName k.srcIp k.dstIp k.srcPort k.dstPort 3 n).2 =
      natText s ++ '-' :: natText d ++ '-' :: intText n.toInt ∧
    (buildName k.srcIp k.dstIp k.srcPort k.dstPort 4 n).2 =
      natText s ++ '-' :: natText d ++ '-' :: intText n.toInt ∧
    ((build4TupleKey k.srcIp k.dstIp k.srcPort k.dstPort).splitOn '/').drop 2 = [natText s, natText d]

/-- Names have the ports of a key as `portText`. -/
theorem portsNamed_iff_portText (k : FlowKey) (s d : Nat) (n : BitVec 32) :
    PortsNamed k s d n ↔ portText k.srcPort = natText s ∧ portText k.dstPort = natText d := by
  have hd (m : Nat) : '-' ∉ natText m := notMem_natText (by decide) m
  have hk : (build4TupleKey k.srcIp k.dstIp k.srcPort k.dstPort).splitOn '/' =
      [ipText k.srcIp, ipText k.dstIp, portText k.srcPort, portText k.dstPort] :=
    Flow.splitOn_key ⟨k.srcIp, k.dstIp, k.srcPort, k.dstPort⟩
  have h3 : (buildName k.srcIp k.dstIp k.srcPort k.dstPort 3 n).2 = uidText k.srcPort k.dstPort n := by
    rw [uidText_eq]
    rfl
  have h4 : (buildName k.srcIp k.dstIp k.srcPort k.dstPort 4 n).2 = uidText k.srcPort k.dstPort n := by
    rw [uidText_eq]
    rfl
  rw [PortsNamed, h3, h4, hk, uidText_eq]
  refine ⟨fun h => ?_, fun h => ?_⟩
  · obtain ⟨h, -, -⟩ := h
    simp only [List.append_assoc, List.cons_append] at h
    obtain ⟨hs, h⟩ := append_cons_inj (hd _) (hd _) h
    exact ⟨hs, (append_cons_inj (hd _) (hd _) h).1⟩
  · obtain ⟨hs, hd⟩ := h
    rw [hs, hd]
    exact ⟨rfl, rfl, rfl⟩

/-- For a TCP or UDP packet that `decode` accepts: the names and the key have
the ports of its header just when each port's two bytes are equal. -/
theorem portsNamed_iff (mem : Nat → Byte) (capLen actLen : BitVec 32) (ts : Int) (p : Tuple) (g : Globals)
    (hv : (decode mem capLen actLen ts p g).val.1 = .valid)
    (hp : protocol mem = IPPROTO_TCP ∨ protocol mem = IPPROTO_UDP) (n : BitVec 32) :
    PortsNamed (decode mem capLen actLen ts p g).val.2.1.key (be16 mem (ipStart mem + headerLen mem))
        (be16 mem (ipStart mem + headerLen mem + 2)) n ↔
      mem (ipStart mem + headerLen mem) = mem (ipStart mem + headerLen mem + 1) ∧
        mem (ipStart mem + headerLen mem + 2) = mem (ipStart mem + headerLen mem + 3) := by
  rw [decode_status] at hv
  rw [decode_accepted mem capLen actLen ts p g hv, ipHeader_eq, portsNamed_iff_portText]
  obtain ⟨hs, hd⟩ := assignFields_ports mem ts (g.seqCount + 1) (captured mem capLen p) hp
  rw [hs, hd, portText_ntohs_load16, portText_ntohs_load16, swapped_eq_iff, swapped_eq_iff]

/-- A UDP datagram from and to port 0x5050. -/
def samePortsFrame : Frame := { udpFrame 60 with mem := fun i => if 34 ≤ i ∧ i < 38 then 0x50 else (udpFrame 60).mem i }

theorem portsNamed_samePorts :
    PortsNamed (decode samePortsFrame.mem 60 60 0 .new .zero).val.2.1.key 20560 20560 7 :=
  (portsNamed_iff samePortsFrame.mem 60 60 0 .new .zero ((decode_status ..).trans (by decide +kernel))
    (.inr (by decide)) 7).mpr (by decide)

/-- From port 80 to port 443: the names have the ports 20480 and 47873. -/
theorem not_portsNamed_udp :
    (decode (udpFrame 60).mem 60 60 0 .new .zero).val.1 = .valid ∧ protocol (udpFrame 60).mem = IPPROTO_UDP ∧
      be16 (udpFrame 60).mem 34 = 80 ∧ be16 (udpFrame 60).mem 36 = 443 ∧
      ¬ PortsNamed (decode (udpFrame 60).mem 60 60 0 .new .zero).val.2.1.key 80 443 7 := by
  refine ⟨(decode_status ..).trans (by decide +kernel), by decide, by decide, by decide, fun h => ?_⟩
  exact absurd ((portsNamed_iff_portText _ _ _ _).mp h).1 (by decide +kernel)

end IpNdn
