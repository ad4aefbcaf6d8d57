import IpNdnStack.Framework.Stdio
import IpNdnStack.Impl.Tuple

/-!
# `RawSocketHelper`

`helper/RawSocketHelper.cpp`: the address that `sendPacketTo` sends to. It is
`inet_addr` of a text, which the C library reads as one to four numbers with
dots between them, each decimal, octal after a `0` or hexadecimal after a `0x`;
the last number fills the bytes that the others leave.
-/

namespace IpNdn

/-- What `inet_addr` returns of a text that is no address. -/
def INADDR_NONE : BitVec 32 := 0xFFFFFFFF

/-- The value of a digit of a base up to 36. -/
def digitValue (c : Char) : Option Nat :=
  if c.isDigit then some (c.toNat - 48)
  else if c.isUpper then some (c.toNat - 65 + 10)
  else if c.isLower then some (c.toNat - 97 + 10)
  else none

/-- The digits of a number of a base, after those of `n`: the number, and what follows it. -/
def inetDigits (base : Nat) : (n : Nat) → Text → Nat × Text
  | n, [] => (n, [])
  | n, c :: s =>
    match digitValue c with
    | some d => if d < base then inetDigits base (base * n + d) s else (n, c :: s)
    | none => (n, c :: s)

/-- `strtoul(s, &end, 0)` of a text that begins with a digit; a number that
`unsigned long` cannot hold is left as it is. -/
def inetNumber (s : Text) : Nat × Text :=
  match s with
  | '0' :: x :: c :: s' =>
    if (x = 'x' ∨ x = 'X') ∧ (digitValue c).any (· < 16) then inetDigits 16 0 (c :: s')
    else inetDigits 8 0 s
  | '0' :: _ => inetDigits 8 0 s
  | _ => inetDigits 10 0 s

/-- The loop of `inet_addr`: the numbers from `s` on, with at most `dots` dots
between them. Every number but the last is a byte. -/
def inetNumbers (dots : Nat) (s : Text) : Option (List Nat) :=
  if s.head?.any Char.isDigit then
    let (val, rest) := inetNumber s
    if 0xFFFFFFFF < val then none
    else
      match rest with
      | [] => some [val]
      | c :: rest =>
        if c = '.' then
          match dots with
          | 0 => none
          | dots + 1 => if 0xFF < val then none else (inetNumbers dots rest).map (val :: ·)
        else if Stdio.isSpace c then some [val]
        else none
  else none

/-- The address of the numbers, in network order, from byte `i` on. -/
def inetWord : (i : Nat) → List Nat → Option (BitVec 32)
  | _, [] => none
  | i, [val] => if val < 2 ^ (8 * (4 - i)) then some (ntohl (BitVec.ofNat 32 val)) else none
  | i, val :: vals => (inetWord (i + 1) vals).map (BitVec.ofNat 32 val <<< (8 * i) ||| ·)

/-- `inet_addr(ip.c_str())`; a C string ends at its first zero. -/
def inetAddr (ip : Text) : BitVec 32 :=
  ((inetNumbers 3 (ip.takeWhile fun c => c.toNat ≠ 0)).bind (inetWord 0)).getD INADDR_NONE

end IpNdn
