import Mathlib.Algebra.Group.Nat.Defs
import IpNdnStack.Framework.Separated

/-!
# `sprintf` and `sscanf`

The conversions of whole numbers and texts, where `int` has 32 bits and `long`
has 64. `Printf.write` writes a format's arguments, `Scanf.read` gives the
numbers a format assigns: it stops at the first directive that the input does
not match. A numeral is read up to what is no digit, modulo `2 ^ 64`
(`strtoul_decimal`). So a word written as signed or as unsigned is read back
by the unsigned conversion of its width (`Scanf.read_number`).
-/

namespace IpNdn.Stdio

/-- `isspace`, of the locale "C" -/
def isSpace (c : Char) : Bool := c.toNat = 32 || (9 ≤ c.toNat && c.toNat ≤ 13)

/-- The decimal numeral of a whole number. -/
def decimal (z : Int) : List Char :=
  if z < 0 then '-' :: Nat.toDigits 10 z.natAbs else Nat.toDigits 10 z.natAbs

/-- An argument of `printf`, as it is passed. -/
inductive Arg
  | int (x : BitVec 32)
  | long (x : BitVec 64)
  | string (s : List Char)

/-! ## Writing -/

namespace Printf

/-- What a format is made of: `isSigned` tells `%d` from `%u`. -/
inductive Directive
  | char (c : Char)
  | int (isSigned : Bool)
  | long (isSigned : Bool)
  | string
  deriving DecidableEq, Repr

/-- The directives of a format; `none` if it has a conversion that is not here. -/
def parse : List Char → Option (List Directive)
  | '%' :: 'd' :: f => (.int true :: ·) <$> parse f
  | '%' :: 'u' :: f => (.int false :: ·) <$> parse f
  | '%' :: 'l' :: 'd' :: f => (.long true :: ·) <$> parse f
  | '%' :: 'l' :: 'u' :: f => (.long false :: ·) <$> parse f
  | '%' :: 's' :: f => (.string :: ·) <$> parse f
  | '%' :: '%' :: f => (.char '%' :: ·) <$> parse f
  | '%' :: _ => none
  | c :: f => (.char c :: ·) <$> parse f
  | [] => some []

/-- The number that a word is written as. -/
def number {w : Nat} (isSigned : Bool) (x : BitVec w) : Int := if isSigned then x.toInt else x.toNat

/-- `none` if an argument is missing, or is not of the conversion's type;
arguments in excess are ignored. -/
def write : List Directive → List Arg → Option (List Char)
  | [], _ => some []
  | .char c :: ds, args => (c :: ·) <$> write ds args
  | .int isSigned :: ds, .int x :: args => (decimal (number isSigned x) ++ ·) <$> write ds args
  | .long isSigned :: ds, .long x :: args => (decimal (number isSigned x) ++ ·) <$> write ds args
  | .string :: ds, .string s :: args => (s ++ ·) <$> write ds args
  | _, _ => none

end Printf

/-- What `sprintf` writes, but for the NUL. -/
def sprintf (format : List Char) (args : List Arg) : Option (List Char) := do
  Printf.write (← Printf.parse format) args

theorem sprintf_of_parse {format : List Char} {ds : List Printf.Directive} (h : Printf.parse format = some ds)
    (args : List Arg) : sprintf format args = Printf.write ds args := by
  rw [sprintf, h]
  rfl

/-! ## Reading -/

/-- Whether there is a minus sign, and what follows the sign. -/
def sign : List Char → Bool × List Char
  | '-' :: s => (true, s)
  | '+' :: s => (false, s)
  | s => (false, s)

/-- `strtoul`, of base 10: the number, modulo `2 ^ 64` if it has a minus sign
and the greatest one if its digits are of more, and what follows it; `none` if
there are no digits. -/
def strtoul (s : List Char) : Option (BitVec 64 × List Char) :=
  let (neg, s) := sign (s.dropWhile isSpace)
  let digits := s.takeWhile Char.isDigit
  let n := Nat.ofDigitChars 10 digits 0
  if digits = [] then none
  else if 2 ^ 64 ≤ n then some (BitVec.allOnes 64, s.dropWhile Char.isDigit)
  else some (if neg then - BitVec.ofNat 64 n else BitVec.ofNat 64 n, s.dropWhile Char.isDigit)

namespace Scanf

/-- What a format is made of: white space matches any amount of it, and
`unsigned` is the `%u` of a type of so many bits. -/
inductive Directive
  | space
  | char (c : Char)
  | unsigned (bits : Nat)
  deriving DecidableEq, Repr

/-- The directives of a format; `none` if it has a conversion that is not here. -/
def parse : List Char → Option (List Directive)
  | '%' :: 'h' :: 'h' :: 'u' :: f => (.unsigned 8 :: ·) <$> parse f
  | '%' :: 'h' :: 'u' :: f => (.unsigned 16 :: ·) <$> parse f
  | '%' :: 'u' :: f => (.unsigned 32 :: ·) <$> parse f
  | '%' :: 'l' :: 'u' :: f => (.unsigned 64 :: ·) <$> parse f
  | '%' :: _ => none
  | c :: f => ((if isSpace c then .space else .char c) :: ·) <$> parse f
  | [] => some []

/-- The numbers assigned, in order. -/
def read : List Directive → List Char → List Nat
  | [], _ => []
  | .space :: ds, s => read ds (s.dropWhile isSpace)
  | .char c :: ds, s => if s.head? = some c then read ds s.tail else []
  | .unsigned bits :: ds, s =>
    match strtoul s with
    | some (x, s) => x.toNat % 2 ^ bits :: read ds s
    | none => []

end Scanf

/-- The numbers that `sscanf` assigns, in order. -/
def sscanf (format s : List Char) : Option (List Nat) := do
  pure (Scanf.read (← Scanf.parse format) s)

theorem sscanf_of_parse {format : List Char} {ds : List Scanf.Directive} (h : Scanf.parse format = some ds)
    (s : List Char) : sscanf format s = some (Scanf.read ds s) := by
  rw [sscanf, h]
  rfl

/-! ## Numbers written and read back -/

theorem isSpace_of_isDigit {c : Char} (h : c.isDigit) : isSpace c = false := by
  rw [Char.isDigit, Bool.and_eq_true, decide_eq_true_eq] at h
  have hc : 48 ≤ c.toNat := h.1
  rw [isSpace, Bool.or_eq_false_iff, Bool.and_eq_false_iff]
  exact ⟨decide_eq_false (by omega), .inr (decide_eq_false (by omega))⟩

theorem ne_sign_of_isDigit {c : Char} (h : c.isDigit) : c ≠ '-' ∧ c ≠ '+' := by
  refine ⟨fun e => ?_, fun e => ?_⟩
  · rw [e] at h
    exact absurd h (by decide)
  · rw [e] at h
    exact absurd h (by decide)

/-- A numeral begins with no white space. -/
theorem dropWhile_decimal (z : Int) (s : List Char) : (decimal z ++ s).dropWhile isSpace = decimal z ++ s := by
  rw [decimal]
  split
  · rfl
  · obtain ⟨c, cs, e, hc⟩ := Separated.toDigits_eq_digit_cons z.natAbs
    rw [e, List.cons_append, List.dropWhile_cons_of_neg (by simp [isSpace_of_isDigit hc])]

/-- The sign of a numeral, and its digits. -/
theorem sign_decimal (z : Int) (s : List Char) :
    sign (decimal z ++ s) = (decide (z < 0), Nat.toDigits 10 z.natAbs ++ s) := by
  by_cases hz : z < 0
  · rw [decimal, if_pos hz, decide_eq_true hz]
    rfl
  · obtain ⟨c, cs, e, hc⟩ := Separated.toDigits_eq_digit_cons z.natAbs
    obtain ⟨hm, hp⟩ := ne_sign_of_isDigit hc
    rw [decimal, if_neg hz, decide_eq_false hz, e, List.cons_append]
    simp [sign, hm, hp]

/-- The digits of a numeral are read to its end. -/
theorem takeWhile_toDigits (n : Nat) {s : List Char} (hs : s.takeWhile Char.isDigit = []) :
    (Nat.toDigits 10 n ++ s).takeWhile Char.isDigit = Nat.toDigits 10 n ∧
      (Nat.toDigits 10 n ++ s).dropWhile Char.isDigit = s := by
  have hd : ∀ c ∈ Nat.toDigits 10 n, c.isDigit := fun c h => Separated.isDigit_of_mem_toDigits h
  have h := List.takeWhile_append_dropWhile (p := Char.isDigit) (l := s)
  rw [hs, List.nil_append] at h
  rw [List.takeWhile_append_of_pos hd, List.dropWhile_append_of_pos hd, hs, h, List.append_nil]
  exact ⟨rfl, rfl⟩

theorem strtoul_decimal {z : Int} (hz : z.natAbs < 2 ^ 64) {s : List Char} (hs : s.takeWhile Char.isDigit = []) :
    strtoul (decimal z ++ s) = some (BitVec.ofInt 64 z, s) := by
  obtain ⟨ht, hd⟩ := takeWhile_toDigits z.natAbs hs
  simp only [strtoul, dropWhile_decimal, sign_decimal, ht, hd, Nat.ofDigitChars_ten_toDigits]
  rw [if_neg Nat.toDigits_ne_nil, if_neg (Nat.not_le.mpr hz)]
  by_cases h : z < 0
  · rw [decide_eq_true h, if_pos rfl, ← BitVec.ofInt_natCast, ← BitVec.ofInt_neg,
      Int.ofNat_natAbs_of_nonpos (Int.le_of_lt h), Int.neg_neg]
  · rw [decide_eq_false h, if_neg Bool.false_ne_true, ← BitVec.ofInt_natCast, Int.natAbs_of_nonneg (Int.not_lt.mp h)]

namespace Printf

variable {w : Nat} (isSigned : Bool) (x : BitVec w)

/-- A word is written as a number that it is congruent to. -/
theorem number_emod : number isSigned x % (2 ^ w : Nat) = x.toNat := by
  have hx : (x.toNat : Int) % (2 ^ w : Nat) = x.toNat :=
    Int.emod_eq_of_lt (Int.natCast_nonneg _) (Int.ofNat_lt.mpr x.isLt)
  rcases isSigned
  · exact hx
  · exact (congrArg (· % _) (BitVec.toInt_eq_toNat_bmod x)).trans (Int.bmod_emod.trans hx)

theorem natAbs_number_lt : (number isSigned x).natAbs < 2 ^ w := by
  have hx := x.isLt
  rcases isSigned
  · exact hx
  · rw [number, if_pos rfl, BitVec.toInt_eq_toNat_cond]
    split
    · exact hx
    · rename_i h
      omega

/-- A word is written as unsigned as the wider words of the same number are. -/
theorem number_setWidth {v : Nat} (h : w ≤ v) : number false (x.setWidth v) = number false x :=
  congrArg Int.ofNat (BitVec.toNat_setWidth_of_le h)

end Printf

namespace Scanf

theorem read_char (c : Char) (ds : List Directive) (s : List Char) : read (.char c :: ds) (c :: s) = read ds s :=
  if_pos rfl

/-- One blank, if no more follow. -/
theorem read_space (ds : List Directive) {s : List Char} (hs : s.dropWhile isSpace = s) :
    read (.space :: ds) (' ' :: s) = read ds s := congrArg (read ds) hs

/-- A word that is written as signed or unsigned, and read as unsigned of its
width: both are congruent to it. -/
theorem read_number {w : Nat} (hw : w ≤ 64) (isSigned : Bool) (x : BitVec w) (ds : List Directive)
    {s : List Char} (hs : s.takeWhile Char.isDigit = []) :
    read (.unsigned w :: ds) (decimal (Printf.number isSigned x) ++ s) = x.toNat :: read ds s := by
  have hlt := Nat.lt_of_lt_of_le (Printf.natAbs_number_lt isSigned x) (Nat.pow_le_pow_right Nat.two_pos hw)
  have hx : (BitVec.ofInt 64 (Printf.number isSigned x)).toNat % 2 ^ w = x.toNat := by
    apply Int.ofNat_inj.mp
    rw [Int.natCast_emod, BitVec.toNat_ofInt, Int.toNat_of_nonneg (Int.emod_nonneg _ (by decide)),
      Int.emod_emod_of_dvd _ (Int.natCast_dvd_natCast.mpr (Nat.pow_dvd_pow 2 hw)), Printf.number_emod]
  simp only [read, strtoul_decimal hlt hs, hx]

end Scanf

end IpNdn.Stdio
