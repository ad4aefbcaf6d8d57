import IpNdnStack.Framework.Verdict
import IpNdnStack.Proof.Accounting
import IpNdnStack.Proof.Capture

/-!
# The failure that is reported

`decode` makes its five checks whatever the ones before them said, and each
that fails sets the status (`decodeStatus_eq_last`). So of a frame that fails
several, the status and the counter are those of the last one, and they are
those of the first one just when no two checks fail (`reportsFirst_iff`).
-/

namespace IpNdn

/-- The checks of `decode`. -/
inductive Check
  /-- "error checking (Ethernet level)" -/
  | etherType
  /-- "IP header length check" -/
  | ipLength
  /-- "IP version check" -/
  | ipVersion
  /-- "IP checksum check" -/
  | ipChecksum
  /-- "TCP\UDP\ICMP layer test" -/
  | transport
  deriving DecidableEq, Repr

namespace Check

/-- All of them, in the order they are made, from the lowest layer up. -/
def all : List Check := [etherType, ipLength, ipVersion, ipChecksum, transport]

section

variable (mem : Nat → Byte) (capLen : BitVec 32)

def Fails : Check → Prop
  | etherType => ¬ Tagged mem ∧ be16 mem 12 ≠ 0x0800
  | ipLength => ¬ Fits mem capLen (headerLen mem)
  | ipVersion => version mem ≠ 4
  | ipChecksum => ¬ ChecksumOk mem
  | transport => ¬ Fits mem capLen (transportEnd mem) ∧
      (protocol mem = IPPROTO_TCP ∨ protocol mem = IPPROTO_UDP ∨ protocol mem = IPPROTO_ICMP)

instance : (c : Check) → Decidable (c.Fails mem capLen)
  | etherType => inferInstanceAs (Decidable (¬ Tagged mem ∧ be16 mem 12 ≠ 0x0800))
  | ipLength => inferInstanceAs (Decidable (¬ Fits mem capLen (headerLen mem)))
  | ipVersion => inferInstanceAs (Decidable (version mem ≠ 4))
  | ipChecksum => inferInstanceAs (Decidable (¬ ChecksumOk mem))
  | transport => inferInstanceAs (Decidable (¬ Fits mem capLen (transportEnd mem) ∧
      (protocol mem = IPPROTO_TCP ∨ protocol mem = IPPROTO_UDP ∨ protocol mem = IPPROTO_ICMP)))

def transportStatus : PacketStatus :=
  if protocol mem = IPPROTO_TCP then .tcpNotFull
  else if protocol mem = IPPROTO_UDP then .udpNotFull
  else .icmpNotFull

/-- The status that says that the check failed. -/
def status : Check → PacketStatus
  | etherType => .nonIp
  | ipLength => .ipNotFull
  | ipVersion => .ipVerFail
  | ipChecksum => .ipChksumFail
  | transport => transportStatus mem

/-- The checks that a frame fails. -/
def failed : List Check := all.filter fun c => c.Fails mem capLen

/-- The first check that a frame fails. -/
def firstFailed : Option Check := all.find? fun c => c.Fails mem capLen

end

theorem transportStatus_cases (mem : Nat → Byte) :
    transportStatus mem = .tcpNotFull ∨ transportStatus mem = .udpNotFull ∨ transportStatus mem = .icmpNotFull := by
  unfold transportStatus
  split
  · exact .inl rfl
  · split
    · exact .inr (.inl rfl)
    · exact .inr (.inr rfl)

theorem status_inj (mem : Nat → Byte) {a b : Check} (h : a.status mem = b.status mem) : a = b := by
  rcases transportStatus_cases mem with e | e | e <;> cases a <;> cases b <;> simp [status, e] at h ⊢

end Check

section

variable (mem : Nat → Byte) (capLen actLen : BitVec 32) (ts : Int) (p : Tuple) (g : Globals)

/-- The status is that of the last check that fails. -/
theorem decodeStatus_eq_last :
    decodeStatus mem capLen =
      Verdict.last (fun c : Check => decide (c.Fails mem capLen)) (Check.status mem) .valid Check.all := by
  have hut : IPPROTO_UDP ≠ IPPROTO_TCP := by decide
  have hit : IPPROTO_ICMP ≠ IPPROTO_TCP := by decide
  have hiu : IPPROTO_ICMP ≠ IPPROTO_UDP := by decide
  rw [decodeStatus_eq]
  simp only [Verdict.last, Check.all, List.foldl_cons, List.foldl_nil, decide_eq_true_eq]
  simp only [Check.Fails, Check.status, Check.transportStatus]
  by_cases hf : Fits mem capLen (transportEnd mem)
  · simp only [hf, not_true_eq_false, false_and, if_false]
    rfl
  · simp only [hf, not_false_eq_true, true_and]
    by_cases ht : protocol mem = IPPROTO_TCP
    · simp only [ht, if_true, true_or]
    · by_cases hu : protocol mem = IPPROTO_UDP
      · simp only [hu, hut, if_false, if_true, true_or, or_true]
      · by_cases hi : protocol mem = IPPROTO_ICMP
        · simp only [hi, hit, hiu, if_false, if_true, or_true]
        · simp only [ht, hu, hi, if_false, or_self]
          rfl

/-- If the frame fails a check, `decode` returns the status of the first one,
and counts up its counter and no other. -/
def ReportsFirst : Prop :=
  ∀ c, Check.firstFailed mem capLen = some c →
    (decode mem capLen actLen ts p g).val.1 = c.status mem ∧
      ∀ s, s ≠ .init → (decode mem capLen actLen ts p g).val.2.2.packetStat.counter s =
        g.packetStat.counter s + if c.status mem = s then 1 else 0

/-- `decode` counts up the counter of the status it returns. -/
theorem counter_decode {s : PacketStatus} (hs : s ≠ .init) :
    (decode mem capLen actLen ts p g).val.2.2.packetStat.counter s =
      g.packetStat.counter s + if (decode mem capLen actLen ts p g).val.1 = s then 1 else 0 := by
  rw [decode_packetStat, counter_countStatus _ _ _ hs, counter_observe]

/-- The first failure is reported just when there is no other. -/
theorem reportsFirst_iff :
    ReportsFirst mem capLen actLen ts p g ↔ (Check.failed mem capLen).length ≤ 1 := by
  have hn : Check.all.Nodup := by decide
  rw [Check.failed, ← Verdict.last_eq_first_iff PacketStatus.valid hn
    (fun _ _ _ _ h => Check.status_inj mem h), ← decodeStatus_eq_last, ← decode_status mem capLen actLen ts p g]
  have hf : Verdict.first (fun c : Check => decide (c.Fails mem capLen)) (Check.status mem) .valid Check.all =
      ((Check.firstFailed mem capLen).map (Check.status mem)).getD .valid := rfl
  refine ⟨fun h => ?_, fun h c hc => ?_⟩
  · rw [hf]
    rcases hc : Check.firstFailed mem capLen with _ | c
    · -- A frame that fails no check is valid.
      have hl := Verdict.last_eq (fun c : Check => decide (c.Fails mem capLen)) (Check.status mem) .valid Check.all
      rw [Check.firstFailed, ← List.head?_filter, List.head?_eq_none_iff] at hc
      rw [decode_status, decodeStatus_eq_last, hl, hc]
      rfl
    · exact (h c hc).1
  · rw [hf, hc] at h
    refine ⟨h, fun s hs => ?_⟩
    rw [counter_decode mem capLen actLen ts p g hs, h]
    rfl

end

/-- An ARP request, padded to 60 bytes. -/
def arpFrame : Frame :=
  let bytes : List Byte :=
    [255, 255, 255, 255, 255, 255, 2, 0, 0, 0, 0, 1, 8, 6, 0, 1, 8, 0, 6, 4, 0, 1, 2, 0, 0, 0, 0, 1, 192, 168, 1, 4,
      0, 0, 0, 0, 0, 0, 192, 168, 1, 1]
  ⟨fun i => bytes.getD i 0, 60, 60⟩

/-- Its bytes are all captured, and it is reported as an IP packet with a wrong
checksum. -/
theorem not_reportsFirst_arp :
    (∀ o ∈ (decode arpFrame.mem 60 60 0 .new .zero).log, o < (60 : BitVec 32).toNat) ∧
      Check.firstFailed arpFrame.mem 60 = some .etherType ∧
      ¬ ReportsFirst arpFrame.mem 60 60 0 .new .zero := by
  have hc : Check.firstFailed arpFrame.mem 60 = some .etherType := by decide +kernel
  refine ⟨by decide +kernel, hc, fun h => ?_⟩
  have hs : decodeStatus arpFrame.mem 60 = .nonIp := (decode_status ..).symm.trans (h .etherType hc).1
  exact absurd hs (by decide +kernel)

end IpNdn
