import IpNdnStack.Framework.Stdio
import IpNdnStack.Impl.Tuple

/-!
# Flow records as text

`libpcapcapture/packet.cpp`: the line that `print_tuple` writes of a tuple, and
what `read_tuple` reads of a line. Small types are passed to `fprintf` as
`int`.
-/

namespace IpNdn

open Stdio (Arg sprintf sscanf)

/-- `ip2a`: the bytes of an address, in the order of memory. -/
def ip2a (ip : BitVec 32) : Option Text :=
  sprintf "%d.%d.%d.%d".toList
    [.int (ip &&& 0xff), .int ((ip >>> 8) &&& 0xff), .int ((ip >>> 16) &&& 0xff), .int ((ip >>> 24) &&& 0xff)]

/-- A text written to a `char[n]` with its NUL; `none` if it does not fit. -/
def inBuffer (n : Nat) (s : Text) : Option Text := if s.length < n then some s else none

/-- The line that `print_tuple` writes, with its end. -/
def printTuple (t : Tuple) : Option Text := do
  let ip1 ← inBuffer 30 (← ip2a t.key.srcIp)
  let ip2 ← inBuffer 30 (← ip2a t.key.dstIp)
  sprintf "%s(%u) <-> %s(%u) %u %ld\n".toList
    [.string ip1, .int (t.key.srcPort.setWidth 32), .string ip2, .int (t.key.dstPort.setWidth 32),
      .int (t.key.proto.setWidth 32), .long t.size]

/-- The variable that is to take the `i`-th number: what it holds if `sscanf`
stops before. -/
def assigned {w : Nat} (vals : List Nat) (i : Nat) (old : BitVec w) : BitVec w :=
  match vals[i]? with
  | some val => BitVec.ofNat w val
  | none => old

/-- `read_tuple(line, p)`, where `stack i` is what the uninitialised variable
`ip` with number `i` holds. -/
def readTuple (stack : Nat → BitVec 32) (line : Text) (p : Tuple) : Option Tuple := do
  let vals ← sscanf "%u.%u.%u.%u(%hu) <-> %u.%u.%u.%u(%hu) %hhu %lu".toList line
  let ip1 := assigned vals 0 (stack 1)
  let ip2 := assigned vals 1 (stack 2)
  let ip3 := assigned vals 2 (stack 3)
  let ip4 := assigned vals 3 (stack 4)
  let srcPort := assigned vals 4 p.key.srcPort
  let ip5 := assigned vals 5 (stack 5)
  let ip6 := assigned vals 6 (stack 6)
  let ip7 := assigned vals 7 (stack 7)
  let ip8 := assigned vals 8 (stack 8)
  let dstPort := assigned vals 9 p.key.dstPort
  let proto := assigned vals 10 p.key.proto
  let size := assigned vals 11 p.size
  let srcIp := (ip4 <<< 24) ||| (ip3 <<< 16) ||| (ip2 <<< 8) ||| ip1
  let dstIp := (ip8 <<< 24) ||| (ip7 <<< 16) ||| (ip6 <<< 8) ||| ip5
  pure { p with
    key := { srcIp := srcIp, dstIp := dstIp, srcPort := srcPort, dstPort := dstPort, proto := proto }
    size := size }

end IpNdn
