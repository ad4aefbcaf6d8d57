import Mathlib.Algebra.Group.Nat.Defs
import Mathlib.Data.Nat.Notation

/-!
# Packets and their tuples

The data of `libpcapcapture/tuple.h` and `libpcapcapture/packet.h`: what
`decode` fills in for a captured packet, and the statuses it returns. Texts
(`std::string`) are lists of characters, machine words bit vectors.
-/

namespace IpNdn

/-- A `std::string`. -/
abbrev Text := List Char

abbrev Byte := BitVec 8

/-- A pointer into a buffer: the bytes of the buffer, and the offset pointed
at. Bytes past the end of what was captured are whatever the memory holds. -/
structure Pointer where
  mem : Nat → Byte
  off : Nat

/-- The `n` bytes at a pointer. -/
def Pointer.bytes (p : Pointer) (n : Nat) : List Byte :=
  (List.range n).map fun i => p.mem (p.off + i)

/-- `enum PACKET_STATUS` -/
inductive PacketStatus
  | init
  | valid
  | nonIp
  | ipNotFull
  | ipVerFail
  | ipChksumFail
  | ipFrag
  | tcpNotFull
  | udpNotFull
  | icmpNotFull
  | undefined
  | nonGtp
  | nonGprs
  deriving DecidableEq, Repr

/-- `struct FlowKey`: the addresses as in memory (network order), the ports as
`decode` leaves them. -/
structure FlowKey where
  srcIp : BitVec 32
  dstIp : BitVec 32
  srcPort : BitVec 16
  dstPort : BitVec 16
  proto : BitVec 8
  deriving DecidableEq, Repr

/-- `struct Tuple`, but for `next`, which no function uses. -/
structure Tuple where
  key : FlowKey
  /-- the packet's number in its flow -/
  index : BitVec 32
  /-- the packet, from its IP header on; `none` is `nullptr` -/
  pkt : Option Pointer
  flag : BitVec 16
  /-- the time stamp, in ms -/
  pktTs : Int
  seq : BitVec 64
  /-- the length of the IP datagram, from its header -/
  size : BitVec 64
  /-- the length of what was captured of the packet, less `ETH_LEN` -/
  ipSize : Nat

/-- `new tuple_t()`: all zero. -/
def Tuple.new : Tuple :=
  { key := ⟨0, 0, 0, 0, 0⟩, index := 0, pkt := none, flag := 0, pktTs := 0, seq := 0, size := 0, ipSize := 0 }

/-- The bytes that `setContent(pkt, ipSize)` copies; `none` if it would read
from `nullptr`. -/
def Tuple.content (t : Tuple) : Option (List Byte) :=
  match t.pkt with
  | some p => some (p.bytes t.ipSize)
  | none => if t.ipSize = 0 then some [] else none

/-- The protocol numbers of `netinet/in.h`. -/
def IPPROTO_ICMP : BitVec 8 := 1
def IPPROTO_TCP : BitVec 8 := 6
def IPPROTO_UDP : BitVec 8 := 17

/-! ## Byte order -/

/-- `ntohs` on a little-endian host -/
def ntohs (x : BitVec 16) : BitVec 16 := x.extractLsb' 0 8 ++ x.extractLsb' 8 8

/-- `ntohl` on a little-endian host -/
def ntohl (x : BitVec 32) : BitVec 32 :=
  x.extractLsb' 0 8 ++ x.extractLsb' 8 8 ++ x.extractLsb' 16 8 ++ x.extractLsb' 24 8

/-- Bit `i` of the swapped word is bit `i mod 8` of the mirrored byte. -/
theorem getLsbD_ntohs (x : BitVec 16) (i : Nat) :
    (ntohs x).getLsbD i = (decide (i < 16) && x.getLsbD (8 * (1 - i / 8) + i % 8)) := by
  simp only [ntohs, BitVec.getLsbD_append, BitVec.getLsbD_extractLsb']
  rcases (by omega : i < 8 ∨ (8 ≤ i ∧ i < 16) ∨ 16 ≤ i) with h | ⟨h1, h2⟩ | h
  · simp [h, show i < 16 by omega, show i / 8 = 0 by omega, show i % 8 = i by omega]
  · simp [h2, show ¬ i < 8 by omega, show i - 8 < 8 by omega, show i / 8 = 1 by omega,
      show i % 8 = i - 8 by omega]
  · simp [show ¬ i < 16 by omega, show ¬ i < 8 by omega, show ¬ i - 8 < 8 by omega]

theorem getLsbD_ntohl (x : BitVec 32) (i : Nat) :
    (ntohl x).getLsbD i = (decide (i < 32) && x.getLsbD (8 * (3 - i / 8) + i % 8)) := by
  simp only [ntohl, BitVec.getLsbD_append, BitVec.getLsbD_extractLsb']
  rcases (by omega : i < 8 ∨ (8 ≤ i ∧ i < 16) ∨ (16 ≤ i ∧ i < 24) ∨ (24 ≤ i ∧ i < 32) ∨ 32 ≤ i) with
    h | ⟨h1, h2⟩ | ⟨h1, h2⟩ | ⟨h1, h2⟩ | h
  · simp [h, show i < 32 by omega, show i / 8 = 0 by omega, show i % 8 = i by omega]
  · simp [show i < 32 by omega, show ¬ i < 8 by omega, show i - 8 < 8 by omega, show i / 8 = 1 by omega,
      show i % 8 = i - 8 by omega]
  · simp [show i < 32 by omega, show ¬ i < 8 by omega, show ¬ i - 8 < 8 by omega, show i - 8 - 8 < 8 by omega,
      show i / 8 = 2 by omega, show i % 8 = i - 8 - 8 by omega]
  · simp [h2, show ¬ i < 8 by omega, show ¬ i - 8 < 8 by omega, show ¬ i - 8 - 8 < 8 by omega,
      show i - 8 - 8 - 8 < 8 by omega, show i / 8 = 3 by omega, show i % 8 = i - 8 - 8 - 8 by omega]
  · simp [show ¬ i < 32 by omega, show ¬ i < 8 by omega, show ¬ i - 8 < 8 by omega,
      show ¬ i - 8 - 8 < 8 by omega, show ¬ i - 8 - 8 - 8 < 8 by omega]

/-- Swapping the bytes twice changes nothing. -/
@[simp] theorem ntohs_ntohs (x : BitVec 16) : ntohs (ntohs x) = x := by
  apply BitVec.eq_of_getLsbD_eq
  intro i hi
  rw [getLsbD_ntohs, getLsbD_ntohs]
  simp [hi, show 8 * (1 - i / 8) + i % 8 < 16 by omega,
    show 8 * (1 - (8 * (1 - i / 8) + i % 8) / 8) + i % 8 = i by omega]

@[simp] theorem ntohl_ntohl (x : BitVec 32) : ntohl (ntohl x) = x := by
  apply BitVec.eq_of_getLsbD_eq
  intro i hi
  rw [getLsbD_ntohl, getLsbD_ntohl]
  simp [hi, show 8 * (3 - i / 8) + i % 8 < 32 by omega,
    show 8 * (3 - (8 * (3 - i / 8) + i % 8) / 8) + i % 8 = i by omega]

theorem ntohs_inj {x y : BitVec 16} (h : ntohs x = ntohs y) : x = y := by
  rw [← ntohs_ntohs x, h, ntohs_ntohs]

theorem ntohl_inj {x y : BitVec 32} (h : ntohl x = ntohl y) : x = y := by
  rw [← ntohl_ntohl x, h, ntohl_ntohl]

end IpNdn
