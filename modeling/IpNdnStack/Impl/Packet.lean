import Mathlib.Tactic.Common
import IpNdnStack.Framework.Logged
import IpNdnStack.Impl.Tuple

/-!
# `decode`

`libpcapcapture/packet.cpp`: the checks `decode` makes of a captured packet,
the fields it fills in and the counters it keeps, on a little-endian host.
Every byte read from the packet is logged by its offset. `decode` is one
function in the source; its parts (`observe`, `checkEther`, `checkIp`,
`checkL4`, `countStatus`, `assignFields`) are named here in the order it runs
them.
-/

namespace IpNdn

def ETH_LEN : Nat := 14
def ETHERTYPE_VLAN : BitVec 16 := 0x8100
def ETH_P_IP : BitVec 16 := 0x0800

/-- `struct PacketStat`, whose counters are `uint64_t`, but for `used_time`,
which only the speeds in the reports are computed from. -/
structure PacketStat where
  totPktCnt : BitVec 64
  totCapByteCnt : BitVec 64
  totActByteCnt : BitVec 64
  validPktCnt : BitVec 64
  validCapByteCnt : BitVec 64
  validActByteCnt : BitVec 64
  nonIpCnt : BitVec 64
  ipNotFullCnt : BitVec 64
  ipVerFailCnt : BitVec 64
  ipChksumFailCnt : BitVec 64
  ipFragCnt : BitVec 64
  tcpNotFullCnt : BitVec 64
  udpNotFullCnt : BitVec 64
  icmpNotFullCnt : BitVec 64
  undefinedCnt : BitVec 64
  nonGtpCnt : BitVec 64
  nonGprsCnt : BitVec 64
  traceStartTs : Int
  traceEndTs : Int
  deriving DecidableEq, Repr

/-- The static `packet_stat` before any packet, and after `reset_stat`. -/
def PacketStat.zero : PacketStat :=
  ⟨0, 0, 0, 0, 0, 0, 0, 0, 0, 0, 0, 0, 0, 0, 0, 0, 0, 0, 0⟩

/-- The globals of `packet.cpp`: `packet_stat` and `seq_count`. -/
structure Globals where
  packetStat : PacketStat
  seqCount : BitVec 64
  deriving DecidableEq, Repr

def Globals.zero : Globals := ⟨.zero, 0⟩

/-! ## Reading the packet -/

def load8 (pkt : Nat → Byte) (off : Nat) : Logged Nat Byte := ⟨pkt off, [off]⟩

def load16 (pkt : Nat → Byte) (off : Nat) : Logged Nat (BitVec 16) := do
  let lo ← load8 pkt off
  let hi ← load8 pkt (off + 1)
  pure (hi ++ lo)

def load32 (pkt : Nat → Byte) (off : Nat) : Logged Nat (BitVec 32) := do
  let lo ← load16 pkt off
  let hi ← load16 pkt (off + 2)
  pure (hi ++ lo)

/-- `ip_hdr->ip_hl` and `ip_hdr->ip_v`: the halves of the header's first byte. -/
def loadIpHl (pkt : Nat → Byte) (ipHdr : Nat) : Logged Nat Nat := do
  pure ((← load8 pkt ipHdr) &&& 0xF).toNat

def loadIpV (pkt : Nat → Byte) (ipHdr : Nat) : Logged Nat Nat := do
  pure ((← load8 pkt ipHdr) >>> 4).toNat

/-- `tcp_hdr->doff` -/
def loadDoff (pkt : Nat → Byte) (tcpHdr : Nat) : Logged Nat Nat := do
  pure ((← load8 pkt (tcpHdr + 12)) >>> 4).toNat

/-! ## The header checksum -/

/-- `while (len > 1)`: the words from `w` on added to `sum`, folded when bit 31
is set. Returns `w`, `len` and `sum` as the loop leaves them. -/
def sumWords (pkt : Nat → Byte) : (w len sum : Nat) → Logged Nat (Nat × Nat × Nat)
  | w, len + 2, sum => do
    let sum := sum + (← load16 pkt w).toNat
    let sum := if sum &&& 0x80000000 ≠ 0 then (sum &&& 0xFFFF) + (sum >>> 16) else sum
    sumWords pkt (w + 2) len sum
  | w, len, sum => pure (w, len, sum)

/-- A sum with a high part gets smaller when it is folded. -/
theorem fold_lt {sum : Nat} (h : ¬ sum >>> 16 = 0) : (sum &&& 0xFFFF) + (sum >>> 16) < sum := by
  rw [show (0xFFFF : Nat) = 2 ^ 16 - 1 from rfl, Nat.and_two_pow_sub_one_eq_mod, Nat.shiftRight_eq_div_pow] at *
  omega

/-- `while (sum >> 16)` -/
def foldSum (sum : Nat) : Nat :=
  if sum >>> 16 = 0 then sum else foldSum ((sum &&& 0xFFFF) + (sum >>> 16))
termination_by sum
decreasing_by exact fold_lt ‹_›

/-- `in_chksum_ip` of the `len` bytes at `w` -/
def inChksumIp (pkt : Nat → Byte) (w len : Nat) : Logged Nat (BitVec 16) := do
  let (w, len, sum) ← sumWords pkt w len 0
  let sum ← if len ≠ 0 then do pure (sum + (← load16 pkt w).toNat) else pure sum
  pure (~~~ BitVec.ofNat 16 (foldSum sum))

/-! ## The parts of `decode` -/

/-- The counts of every packet, valid or not. -/
def observe (stat : PacketStat) (capLen actLen : BitVec 32) (ts : Int) : PacketStat :=
  { stat with
    totPktCnt := stat.totPktCnt + 1
    traceStartTs := if stat.totPktCnt + 1 = 1 then ts else stat.traceStartTs
    traceEndTs := ts
    totCapByteCnt := stat.totCapByteCnt + capLen.setWidth 64
    totActByteCnt := stat.totActByteCnt + actLen.setWidth 64 }

/-- "error checking (Ethernet level)": the length of the link header, and the
status. -/
def checkEther (pkt : Nat → Byte) (ethLen : Nat) (status : PacketStatus) : Logged Nat (Nat × PacketStatus) :=
  if ethLen = 14 then do
    if ntohs (← load16 pkt 12) = ETHERTYPE_VLAN then pure (18, status)
    else if ntohs (← load16 pkt 12) ≠ ETH_P_IP then pure (ethLen, .nonIp)
    else pure (ethLen, status)
  else if ethLen = 4 then do
    if ntohs (← load16 pkt 2) ≠ ETH_P_IP then pure (ethLen, .nonIp) else pure (ethLen, status)
  else if ethLen ≠ 0 then pure (ethLen, .nonIp)
  else pure (ethLen, status)

/-- "error checking (IP level)": each check is made whatever the ones before it
said, and its status replaces theirs. -/
def checkIp (pkt : Nat → Byte) (ipHdr : Nat) (len : BitVec 32) (status : PacketStatus) :
    Logged Nat PacketStatus := do
  let ipHl ← loadIpHl pkt ipHdr
  let status := if len.toInt < (ipHl <<< 2 : Nat) then .ipNotFull else status
  let ipV ← loadIpV pkt ipHdr
  let status := if ipV ≠ 4 then .ipVerFail else status
  let chksum ← inChksumIp pkt ipHdr (ipHl <<< 2)
  pure (if chksum ≠ 0 then .ipChksumFail else status)

/-- "error checking (TCP\UDP\ICMP layer test)" -/
def checkL4 (pkt : Nat → Byte) (ipHdr : Nat) (len : BitVec 32) (status : PacketStatus) :
    Logged Nat PacketStatus := do
  let ipP ← load8 pkt (ipHdr + 9)
  let ipHl ← loadIpHl pkt ipHdr
  if ipP = IPPROTO_TCP then
    let doff ← loadDoff pkt (ipHdr + (ipHl <<< 2))
    pure (if len.toInt < ((ipHl <<< 2) + (doff <<< 2) : Nat) then .tcpNotFull else status)
  else if ipP = IPPROTO_UDP then
    pure (if len.toInt < ((ipHl <<< 2) + 8 : Nat) then .udpNotFull else status)
  else if ipP = IPPROTO_ICMP then
    pure (if len.toInt < ((ipHl <<< 2) + 8 : Nat) then .icmpNotFull else status)
  else pure status

/-- The `switch` over the status. -/
def countStatus (stat : PacketStat) (capLen actLen : BitVec 32) : PacketStatus → PacketStat
  | .valid =>
    { stat with
      validPktCnt := stat.validPktCnt + 1
      validCapByteCnt := stat.validCapByteCnt + capLen.setWidth 64
      validActByteCnt := stat.validActByteCnt + actLen.setWidth 64 }
  | .nonIp => { stat with nonIpCnt := stat.nonIpCnt + 1 }
  | .ipNotFull => { stat with ipNotFullCnt := stat.ipNotFullCnt + 1 }
  | .ipVerFail => { stat with ipVerFailCnt := stat.ipVerFailCnt + 1 }
  | .ipChksumFail => { stat with ipChksumFailCnt := stat.ipChksumFailCnt + 1 }
  | .ipFrag => { stat with ipFragCnt := stat.ipFragCnt + 1 }
  | .tcpNotFull => { stat with tcpNotFullCnt := stat.tcpNotFullCnt + 1 }
  | .udpNotFull => { stat with udpNotFullCnt := stat.udpNotFullCnt + 1 }
  | .icmpNotFull => { stat with icmpNotFullCnt := stat.icmpNotFullCnt + 1 }
  | .undefined => { stat with undefinedCnt := stat.undefinedCnt + 1 }
  | .nonGtp => { stat with nonGtpCnt := stat.nonGtpCnt + 1 }
  | .nonGprs => { stat with nonGprsCnt := stat.nonGprsCnt + 1 }
  | .init => stat

/-- "assign the fields", for a valid packet; `ntohs` makes the ports host order. -/
def assignFields (pkt : Nat → Byte) (ipHdr : Nat) (ts : Int) (seq : BitVec 64) (p : Tuple) : Logged Nat Tuple := do
  let srcIp ← load32 pkt (ipHdr + 12)
  let dstIp ← load32 pkt (ipHdr + 16)
  let ipP ← load8 pkt (ipHdr + 9)
  let ipLen ← load16 pkt (ipHdr + 2)
  let ipHl ← loadIpHl pkt ipHdr
  let l4Hdr := ipHdr + (ipHl <<< 2)
  let (srcPort, dstPort) ←
    if ipP = IPPROTO_TCP then do
      let source ← load16 pkt l4Hdr
      let dest ← load16 pkt (l4Hdr + 2)
      pure (ntohs source, ntohs dest)
    else if ipP = IPPROTO_UDP then do
      let source ← load16 pkt l4Hdr
      let dest ← load16 pkt (l4Hdr + 2)
      pure (ntohs source, ntohs dest)
    else pure (0, 0)
  pure { p with
    seq := seq
    key := { srcIp := srcIp, dstIp := dstIp, srcPort := srcPort, dstPort := dstPort, proto := ipP }
    pktTs := ts
    size := (ntohs ipLen).setWidth 64
    pkt := some ⟨pkt, ipHdr⟩ }

/-- `decode(pkt, cap_len, act_len, ts, p)`: the status, the tuple and the
globals it leaves. The lengths are of unsigned 32 bits, as is their
difference. -/
def decode (pkt : Nat → Byte) (capLen actLen : BitVec 32) (ts : Int) (p : Tuple) (g : Globals) :
    Logged Nat (PacketStatus × Tuple × Globals) := do
  let p := { p with ipSize := (capLen - BitVec.ofNat 32 ETH_LEN).toNat }
  let stat := observe g.packetStat capLen actLen ts
  let (ethLen, status) ← checkEther pkt ETH_LEN .valid
  let len := capLen - BitVec.ofNat 32 ethLen
  let flag ← load16 pkt 48
  let p := { p with flag := flag }
  let status ← checkIp pkt ethLen len status
  let status ← checkL4 pkt ethLen len status
  let stat := countStatus stat capLen actLen status
  if status ≠ .valid then pure (status, p, { g with packetStat := stat })
  else
    let p ← assignFields pkt ethLen ts (g.seqCount + 1) p
    pure (status, p, { packetStat := stat, seqCount := g.seqCount + 1 })

/-! ## The reports -/

/-- What `report_final_stat_file` prints to. -/
inductive Stream
  | stderr
  | output
  deriving DecidableEq, Repr

/-- The arguments of the second `fprintf`, in order; two of them count up what
they print. -/
def printPacketStat (stat : PacketStat) : PacketStat × List (BitVec 64) :=
  ({ stat with
      ipChksumFailCnt := stat.ipChksumFailCnt + 1
      ipFragCnt := stat.ipFragCnt + 1 },
    [stat.totPktCnt, stat.totCapByteCnt, stat.totActByteCnt, stat.validPktCnt, stat.validCapByteCnt,
      stat.validActByteCnt, stat.nonIpCnt, stat.ipNotFullCnt, stat.ipVerFailCnt, stat.ipChksumFailCnt,
      stat.ipFragCnt, stat.tcpNotFullCnt, stat.udpNotFullCnt, stat.icmpNotFullCnt, stat.undefinedCnt,
      stat.nonGtpCnt, stat.nonGprsCnt])

/-- `report_final_stat_file`: the counters it leaves, where it prints (`opened`:
whether `fopen` gave a file) and the counters it prints. The lines of speeds and
durations, which read the counters only, are left out. -/
def reportFinalStatFile (opened : Bool) (stat : PacketStat) : PacketStat × Stream × List (BitVec 64) :=
  if !opened then
    let (stat, printed) := printPacketStat stat
    (stat, .stderr, printed)
  else
    let (stat, printed) := printPacketStat stat
    (stat, .output, printed)

/-- `reset_stat` sets all of `packet_stat` to zero. -/
def resetStat (_ : PacketStat) : PacketStat := .zero

end IpNdn
