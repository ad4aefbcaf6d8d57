import IpNdnStack.Framework.Separated
import IpNdnStack.Impl.Tuple

/-!
# The libraries the gateway is linked with

What the gateway uses of ndn-cxx and Boost: names, `boost::split` and
`boost::lexical_cast`. `Libs` has the functions, `Libs.Lawful` what their
documentation says of them. `textLibs` is an instance that works on the URI
text alone; on names without escapes it does what the libraries do
(`textLibs_lawful`).
-/

namespace IpNdn

/-! ## Texts of numbers and names -/

/-- `to_string` of an unsigned number -/
def natText (n : Nat) : Text := Nat.toDigits 10 n

/-- `to_string` of an `int` -/
def intText (z : Int) : Text :=
  if z < 0 then '-' :: natText z.natAbs else natText z.natAbs

/-- The URI of a name with the components `cs`, as they are written in a URI. -/
def uriOf (cs : List Text) : Text := cs.flatMap ('/' :: ·)

/-- A name component that its URI shows as it is: unreserved characters, not
all of them periods. -/
def PlainComponent (c : Text) : Prop :=
  (∀ x ∈ c, x.isAlphanum ∨ x = '-' ∨ x = '.' ∨ x = '_') ∧ ∃ x ∈ c, x ≠ '.'

/-- A URI is the pieces between its slashes, after an empty one. -/
theorem splitOn_uriOf {cs : List Text} (h : ∀ c ∈ cs, '/' ∉ c) : (uriOf cs).splitOn '/' = [] :: cs :=
  Separated.splitOn_flatMap_cons h

theorem PlainComponent.slash {c : Text} (h : PlainComponent c) : '/' ∉ c := fun hm => by
  have := h.1 _ hm
  revert this; decide

/-! ## The libraries -/

structure Libs where
  /-- `ndn::Name` -/
  Name : Type
  /-- `Name(const std::string& uri)` -/
  ofUri : Text → Name
  /-- the components of a name, each as `Component::toUri` writes it -/
  components : Name → List Text
  /-- `Name::toUri` -/
  toUri : Name → Text
  /-- `boost::split(_, s, boost::is_any_of(c))` of a text and one character -/
  split : Text → Char → List Text
  /-- `boost::lexical_cast<int>`; `none` where it throws -/
  lexicalCast : Text → Option (BitVec 32)

structure Libs.Lawful (L : Libs) : Prop where
  /-- A URI of plain components is read as these components. -/
  components_ofUri : ∀ cs, cs ≠ [] → (∀ c ∈ cs, PlainComponent c) → L.components (L.ofUri (uriOf cs)) = cs
  /-- A name's URI has its components in order, each after a slash. -/
  toUri_eq : ∀ n, L.components n ≠ [] → L.toUri n = uriOf (L.components n)
  /-- A slash in a component is escaped. -/
  slash_notMem : ∀ n, ∀ c ∈ L.components n, '/' ∉ c
  /-- `boost::split` cuts at every separator and keeps empty pieces. -/
  split_eq : ∀ s c, L.split s c = s.splitOn c
  /-- A number's decimal text is cast to the number. -/
  lexicalCast_intText : ∀ n : BitVec 32, L.lexicalCast (intText n.toInt) = some n
  /-- The empty text is cast to no number. -/
  lexicalCast_nil : L.lexicalCast [] = none
  /-- A minus can only stand first. -/
  lexicalCast_minus : ∀ c n, L.lexicalCast c = some n → '-' ∈ c → ∃ d, c = '-' :: d

/-- `Name::isPrefixOf`: the first components of `n` are those of `p`. -/
def Libs.isPrefixOf (L : Libs) (p n : L.Name) : Bool := (L.components p).isPrefixOf (L.components n)

/-- What is relied on for names with escapes: `Name(uri)` reads a component that
`Component::toUri` wrote as it was, whatever the last component is. -/
structure Libs.Escapes (L : Libs) : Prop where
  take_ofUri : ∀ (cs : List Text) (rest : Text), (∀ c ∈ cs, ∃ n, c ∈ L.components n) → '/' ∉ rest →
    (L.components (L.ofUri (uriOf cs ++ '/' :: rest))).take cs.length = cs

theorem Libs.Lawful.toUri_ofUri {L : Libs} (hL : L.Lawful) {cs : List Text} (hne : cs ≠ [])
    (h : ∀ c ∈ cs, PlainComponent c) : L.toUri (L.ofUri (uriOf cs)) = uriOf cs := by
  have e := hL.components_ofUri cs hne h
  rw [hL.toUri_eq _ (by rw [e]; exact hne), e]

/-! ## An instance -/

/-- A nonempty text of digits, as a number. -/
def parseNat (s : Text) : Option Nat :=
  if s ≠ [] ∧ s.all Char.isDigit then some (Nat.ofDigitChars 10 s 0) else none

/-- `lexical_cast<int>`: an optional sign, then digits, in the range of an `int`. -/
def parseInt (s : Text) : Option (BitVec 32) :=
  match s with
  | '-' :: ds => (parseNat ds).bind fun n => if n ≤ 2 ^ 31 then some (BitVec.ofInt 32 (-n)) else none
  | '+' :: ds => (parseNat ds).bind fun n => if n < 2 ^ 31 then some (BitVec.ofNat 32 n) else none
  | ds => (parseNat ds).bind fun n => if n < 2 ^ 31 then some (BitVec.ofNat 32 n) else none

theorem parseNat_natText (n : Nat) : parseNat (natText n) = some n := by
  have hd : (natText n).all Char.isDigit := List.all_eq_true.mpr fun _ => Separated.isDigit_of_mem_toDigits
  simp only [parseNat]
  rw [if_pos ⟨Nat.toDigits_ne_nil, hd⟩]
  exact congrArg some Nat.ofDigitChars_ten_toDigits

theorem parseInt_natText (n : Nat) (h : n < 2 ^ 31) : parseInt (natText n) = some (BitVec.ofNat 32 n) := by
  have hd : ∀ x ∈ natText n, x.isDigit := fun _ => Separated.isDigit_of_mem_toDigits
  have hp := parseNat_natText n
  unfold parseInt
  split
  · rename_i ds e
    exact absurd (hd '-' (by rw [e]; exact List.mem_cons_self)) (by decide)
  · rename_i ds e
    exact absurd (hd '+' (by rw [e]; exact List.mem_cons_self)) (by decide)
  · rw [hp, Option.bind_some, if_pos h]

theorem parseInt_intText (n : BitVec 32) : parseInt (intText n.toInt) = some n := by
  have hlo := BitVec.le_toInt n
  have hhi := BitVec.toInt_lt (x := n)
  unfold intText
  split
  · rename_i h
    simp only [parseInt, parseNat_natText, Option.bind_some]
    rw [if_pos (by omega), show -((n.toInt.natAbs : Nat) : Int) = n.toInt by omega, BitVec.ofInt_toInt]
  · rename_i h
    rw [parseInt_natText _ (by omega)]
    have e : ((n.toInt.natAbs : Nat) : Int) = n.toInt := by omega
    rw [← BitVec.ofInt_natCast, e, BitVec.ofInt_toInt]

theorem parseInt_minus {s : Text} {n : BitVec 32} (h : parseInt s = some n) (hm : '-' ∈ s) : ∃ d, s = '-' :: d := by
  have hd : ∀ ds, parseNat ds ≠ none → '-' ∉ ds := fun ds hn hm => by
    unfold parseNat at hn
    split at hn
    · rename_i hc
      exact absurd (List.all_eq_true.mp hc.2 _ hm) (by decide)
    · exact hn rfl
  unfold parseInt at h
  split at h
  · exact ⟨_, rfl⟩
  · rename_i ds
    rcases List.mem_cons.mp hm with hc | hm
    · exact absurd hc (by decide)
    · exact absurd hm (hd ds fun e => by rw [e] at h; cases h)
  · exact absurd hm (hd s fun e => by rw [e] at h; cases h)

/-- The libraries on the URI text: a name is its components as written. -/
def textLibs : Libs where
  Name := { cs : List Text // ∀ c ∈ cs, '/' ∉ c }
  ofUri s := ⟨(s.splitOn '/').tail, fun c hc =>
    Separated.notMem_of_mem_splitOn '/' s c (List.mem_of_mem_tail hc)⟩
  components n := n.1
  toUri n := uriOf n.1
  split s c := s.splitOn c
  lexicalCast := parseInt

theorem textLibs_lawful : textLibs.Lawful where
  components_ofUri cs _ h := by
    show ((uriOf cs).splitOn '/').tail = cs
    rw [splitOn_uriOf fun c hc => (h c hc).slash, List.tail_cons]
  toUri_eq _ _ := rfl
  slash_notMem n := n.2
  split_eq _ _ := rfl
  lexicalCast_intText := parseInt_intText
  lexicalCast_nil := rfl
  lexicalCast_minus _ _ := parseInt_minus

theorem textLibs_escapes : textLibs.Escapes where
  take_ofUri cs rest hc hr := by
    have h : ∀ c ∈ cs ++ [rest], '/' ∉ c := by
      rw [List.forall_mem_append, List.forall_mem_singleton]
      refine ⟨fun c hm => ?_, hr⟩
      obtain ⟨n, hn⟩ := hc c hm
      exact n.2 c hn
    have e : uriOf cs ++ '/' :: rest = uriOf (cs ++ [rest]) := by
      rw [uriOf, uriOf, List.flatMap_append, List.flatMap_singleton]
    show ((uriOf cs ++ '/' :: rest).splitOn '/').tail.take cs.length = cs
    rw [e, splitOn_uriOf h, List.tail_cons, List.take_left]

end IpNdn
