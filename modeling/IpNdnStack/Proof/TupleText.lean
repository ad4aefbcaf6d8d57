import IpNdnStack.Impl.TupleText
import IpNdnStack.Proof.Names

/-!
# A flow record written and read back

`print_tuple` writes addresses byte by byte as in memory, as signed numbers
below 256 (`ip2a_eq`), ports and protocol as unsigned numbers, and the size as
a signed one. `read_tuple` reads unsigned numbers and puts the addresses
together by shifts (`octets_or`), so it gives back the key and the size that
were written (`readTuple_printTuple`), whatever the size.
-/

namespace IpNdn

open Stdio (decimal)
open Stdio.Printf (number)

/-- Byte `k / 8` of an address. -/
def octet (ip : BitVec 32) (k : Nat) : BitVec 32 := (ip >>> k) &&& 0xFF

/-- A byte in its place has the word's bits from `k` on. -/
theorem getLsbD_octet_shiftLeft (ip : BitVec 32) (k : Nat) {i : Nat} (hi : i < 32) :
    (octet ip k <<< k).getLsbD i = (decide (k ≤ i ∧ i < k + 8) && ip.getLsbD i) := by
  rw [octet, BitVec.getLsbD_shiftLeft, getLsbD_octet]
  by_cases h : k ≤ i
  · have hk : i - k < 8 ↔ i < k + 8 := by omega
    simp [hi, h, Nat.not_lt.mpr h, hk, Nat.add_sub_cancel' h, Bool.and_comm]
  · simp [h, Nat.lt_of_not_le h]

/-- The bytes of a word put together again: each bit is in one of them. -/
theorem octets_or (ip : BitVec 32) :
    (octet ip 24 <<< 24) ||| (octet ip 16 <<< 16) ||| (octet ip 8 <<< 8) ||| octet ip 0 = ip := by
  apply BitVec.eq_of_getLsbD_eq
  intro i hi
  have h0 : octet ip 0 = octet ip 0 <<< 0 := (BitVec.shiftLeft_zero _).symm
  rw [h0]
  simp only [BitVec.getLsbD_or, getLsbD_octet_shiftLeft ip _ hi]
  cases ip.getLsbD i
  · simp
  · simp only [Bool.and_true, ← Bool.decide_or, decide_eq_true_eq]
    omega

/-- The text of a byte of an address. -/
def octetText (ip : BitVec 32) (k : Nat) : Text := decimal (number true (octet ip k))

/-- The text of an address. -/
def addressText (ip : BitVec 32) : Text :=
  octetText ip 0 ++ '.' :: (octetText ip 8 ++ '.' :: (octetText ip 16 ++ '.' :: octetText ip 24))

theorem ip2a_eq (ip : BitVec 32) : ip2a ip = some (addressText ip) := by
  have hf : Stdio.Printf.parse "%d.%d.%d.%d".toList =
      some [.int true, .char '.', .int true, .char '.', .int true, .char '.', .int true] := by decide
  have h0 : ip &&& 0xff = octet ip 0 := by rw [octet, BitVec.ushiftRight_zero]
  rw [ip2a, Stdio.sprintf_of_parse hf, h0]
  simp only [Stdio.Printf.write, Option.map_eq_map, Option.map_some, List.append_nil]
  rfl

/-- A byte has at most three digits. -/
theorem length_octetText (ip : BitVec 32) (k : Nat) : (octetText ip k).length ≤ 3 := by
  have hlt : (octet ip k).toNat < 256 := by
    rw [octet, octet_toNat]
    exact Nat.mod_lt _ (by decide)
  have hn : number true (octet ip k) = (octet ip k).toNat := BitVec.toInt_eq_toNat_of_lt (by omega)
  rw [octetText, hn, decimal, if_neg (by omega), Int.natAbs_natCast, Nat.length_toDigits_le_iff (by decide) (by decide)]
  omega

/-- An address and its NUL fit in the buffers of `print_tuple`. -/
theorem inBuffer_addressText (ip : BitVec 32) : inBuffer 30 (addressText ip) = some (addressText ip) := by
  have h0 := length_octetText ip 0
  have h1 := length_octetText ip 8
  have h2 := length_octetText ip 16
  have h3 := length_octetText ip 24
  apply if_pos
  simp only [addressText, List.length_append, List.length_cons]
  omega

/-- The line of a tuple. -/
def tupleLine (t : Tuple) : Text :=
  addressText t.key.srcIp ++ '(' :: (decimal (number false t.key.srcPort) ++ ')' :: ' ' :: '<' :: '-' :: '>' :: ' ' ::
    (addressText t.key.dstIp ++ '(' :: (decimal (number false t.key.dstPort) ++ ')' :: ' ' ::
      (decimal (number false t.key.proto) ++ ' ' :: (decimal (number true t.size) ++ ['\n'])))))

theorem printTuple_eq (t : Tuple) : printTuple t = some (tupleLine t) := by
  have hf : Stdio.Printf.parse "%s(%u) <-> %s(%u) %u %ld\n".toList =
      some [.string, .char '(', .int false, .char ')', .char ' ', .char '<', .char '-', .char '>', .char ' ',
        .string, .char '(', .int false, .char ')', .char ' ', .int false, .char ' ', .long true, .char '\n'] := by
    decide
  have h16 (x : BitVec 16) : number false (x.setWidth 32) = number false x :=
    Stdio.Printf.number_setWidth x (by decide)
  have h8 (x : BitVec 8) : number false (x.setWidth 32) = number false x :=
    Stdio.Printf.number_setWidth x (by decide)
  simp only [printTuple, ip2a_eq, Option.bind_eq_bind, Option.bind_some, inBuffer_addressText]
  rw [Stdio.sprintf_of_parse hf]
  simp only [Stdio.Printf.write, h16, h8, Option.map_eq_map, Option.map_some]
  rfl

-- The sizes from `2 ^ 63` on are written as negative numbers.
example :
    printTuple { Tuple.new with key := ⟨0x0401A8C0, 0x0501A8C0, 80, 443, 6⟩, size := 0x8000000000000000 } =
      some "192.168.1.4(80) <-> 192.168.1.5(443) 6 -9223372036854775808\n".toList := by decide +kernel

/-! ## Reading the line -/

theorem dropWhile_addressText (ip : BitVec 32) (s : Text) :
    (addressText ip ++ s).dropWhile Stdio.isSpace = addressText ip ++ s := by
  rw [addressText, List.append_assoc]
  exact Stdio.dropWhile_decimal _ _

/-- The directives `%u.%u.%u.%u` read an address, if no digit follows. -/
theorem read_addressText (ip : BitVec 32) (ds : List Stdio.Scanf.Directive) {s : Text}
    (hs : s.takeWhile Char.isDigit = []) :
    Stdio.Scanf.read (.unsigned 32 :: .char '.' :: .unsigned 32 :: .char '.' :: .unsigned 32 :: .char '.' ::
        .unsigned 32 :: ds) (addressText ip ++ s) =
      (octet ip 0).toNat :: (octet ip 8).toNat :: (octet ip 16).toNat :: (octet ip 24).toNat ::
        Stdio.Scanf.read ds s := by
  have hd (k : Nat) (ds : List Stdio.Scanf.Directive) {s : Text} (hs : s.takeWhile Char.isDigit = []) :
      Stdio.Scanf.read (.unsigned 32 :: ds) (octetText ip k ++ s) = (octet ip k).toNat :: Stdio.Scanf.read ds s :=
    Stdio.Scanf.read_number (by decide) true (octet ip k) ds hs
  simp only [addressText, List.append_assoc, List.cons_append]
  rw [hd 0 _ rfl, Stdio.Scanf.read_char, hd 8 _ rfl, Stdio.Scanf.read_char, hd 16 _ rfl, Stdio.Scanf.read_char,
    hd 24 _ hs]

/-- The numbers read of a tuple's line. -/
theorem sscanf_tupleLine (t : Tuple) :
    Stdio.sscanf "%u.%u.%u.%u(%hu) <-> %u.%u.%u.%u(%hu) %hhu %lu".toList (tupleLine t) = some
      [(octet t.key.srcIp 0).toNat, (octet t.key.srcIp 8).toNat, (octet t.key.srcIp 16).toNat,
        (octet t.key.srcIp 24).toNat, t.key.srcPort.toNat, (octet t.key.dstIp 0).toNat, (octet t.key.dstIp 8).toNat,
        (octet t.key.dstIp 16).toNat, (octet t.key.dstIp 24).toNat, t.key.dstPort.toNat, t.key.proto.toNat,
        t.size.toNat] := by
  have hf : Stdio.Scanf.parse "%u.%u.%u.%u(%hu) <-> %u.%u.%u.%u(%hu) %hhu %lu".toList =
      some [.unsigned 32, .char '.', .unsigned 32, .char '.', .unsigned 32, .char '.', .unsigned 32, .char '(',
        .unsigned 16, .char ')', .space, .char '<', .char '-', .char '>', .space, .unsigned 32, .char '.',
        .unsigned 32, .char '.', .unsigned 32, .char '.', .unsigned 32, .char '(', .unsigned 16, .char ')', .space,
        .unsigned 8, .space, .unsigned 64] := by decide
  rw [Stdio.sscanf_of_parse hf, tupleLine]
  -- the source, its port, the arrow, the destination, its port, the protocol, the size
  rw [read_addressText _ _ rfl, Stdio.Scanf.read_char, Stdio.Scanf.read_number (by decide) _ _ _ rfl]
  rw [Stdio.Scanf.read_char, Stdio.Scanf.read_space _ rfl, Stdio.Scanf.read_char, Stdio.Scanf.read_char,
    Stdio.Scanf.read_char, Stdio.Scanf.read_space _ (dropWhile_addressText _ _)]
  rw [read_addressText _ _ rfl, Stdio.Scanf.read_char, Stdio.Scanf.read_number (by decide) _ _ _ rfl]
  rw [Stdio.Scanf.read_char, Stdio.Scanf.read_space _ (Stdio.dropWhile_decimal _ _),
    Stdio.Scanf.read_number (by decide) _ _ _ rfl]
  rw [Stdio.Scanf.read_space _ (Stdio.dropWhile_decimal _ _), Stdio.Scanf.read_number (by decide) _ _ _ rfl]
  rfl

/-- What `print_tuple` writes of a tuple, `read_tuple` reads as its key and its
size, into any tuple. -/
theorem readTuple_printTuple (stack : Nat → BitVec 32) (t p : Tuple) :
    ∃ line, printTuple t = some line ∧ readTuple stack line p = some { p with key := t.key, size := t.size } := by
  refine ⟨tupleLine t, printTuple_eq t, ?_⟩
  have hs := octets_or t.key.srcIp
  have hd := octets_or t.key.dstIp
  simp only [readTuple, sscanf_tupleLine, Option.bind_eq_bind, Option.bind_some, assigned, List.getElem?_cons_zero,
    List.getElem?_cons_succ, BitVec.ofNat_toNat, BitVec.setWidth_eq, hs, hd]
  rfl

end IpNdn
