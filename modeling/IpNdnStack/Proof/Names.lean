import IpNdnStack.Impl.NDNHelper

/-!
# The names of packets

What `buildName` and `build4TupleKey` write, as components: `buildName_pre`,
`buildName_data`, `buildName_tcpPre` and `buildName_tcpData` for the four
types, `Flow.splitOn_key` for the key. Addresses and uids are pieces without a slash
that determine what they were written from (`ipText_inj`, `uidText_inj`), so
the names form a prefix-free code (`buildName_prefixFree`), and a Data name
determines its packet (`dataName_inj`).
-/

namespace IpNdn

open Separated (toDigits_inj notMem_toDigits append_cons_inj)

/-! ## Numbers -/

theorem natText_inj {m n : Nat} (h : natText m = natText n) : m = n := toDigits_inj h

theorem notMem_natText {x : Char} (hx : x.isDigit = false) (n : Nat) : x ∉ natText n := notMem_toDigits hx n

theorem natText_ne_nil (n : Nat) : natText n ≠ [] := Nat.toDigits_ne_nil

theorem intText_of_nonneg {z : Int} (h : 0 ≤ z) : intText z = natText z.toNat := by
  rw [intText, if_neg (by omega), Int.natAbs_of_nonneg h |> fun e => show z.natAbs = z.toNat by omega]

theorem intText_inj {y z : Int} (h : intText y = intText z) : y = z := by
  have hd : ∀ n m, '-' :: natText n ≠ natText m := fun n m e =>
    notMem_natText (x := '-') (by decide) m (by rw [← e]; exact List.mem_cons_self)
  unfold intText at h
  split at h <;> split at h
  · have := natText_inj (List.cons.inj h).2; omega
  · exact absurd h (hd _ _)
  · exact absurd h.symm (hd _ _)
  · have := natText_inj h; omega

/-! ## Addresses -/

/-- The text of an address in network order. -/
def ipText (ip : BitVec 32) : Text := dottedQuad (ntohl ip)

theorem octet_toNat (x : BitVec 32) (k : Nat) : ((x >>> k) &&& 0xFF).toNat = x.toNat / 2 ^ k % 256 := by
  rw [BitVec.toNat_and, BitVec.toNat_ushiftRight, Nat.shiftRight_eq_div_pow]
  exact Nat.and_two_pow_sub_one_eq_mod _ 8

theorem getLsbD_octet (x : BitVec 32) (k j : Nat) :
    ((x >>> k) &&& 0xFF).getLsbD j = (x.getLsbD (k + j) && decide (j < 8)) := by
  rw [BitVec.getLsbD_and, BitVec.getLsbD_ushiftRight]
  congr 1
  have : (255 : BitVec 32) = BitVec.ofNat 32 (2 ^ 8 - 1) := rfl
  rw [this, BitVec.getLsbD_ofNat, Nat.testBit_two_pow_sub_one]
  simp
  omega

theorem dottedQuad_inj {x y : BitVec 32} (h : dottedQuad x = dottedQuad y) : x = y := by
  have hd : ∀ n, '.' ∉ natText n := notMem_natText (by decide)
  simp only [dottedQuad, List.append_assoc, List.cons_append] at h
  obtain ⟨h3, h⟩ := append_cons_inj (hd _) (hd _) h
  obtain ⟨h2, h⟩ := append_cons_inj (hd _) (hd _) h
  obtain ⟨h1, h0⟩ := append_cons_inj (hd _) (hd _) h
  have h3 := natText_inj h3
  have h2 := natText_inj h2
  have h1 := natText_inj h1
  have h0 := natText_inj h0
  simp only [octet_toNat] at h0 h1 h2 h3
  have hx := x.isLt
  have hy := y.isLt
  exact BitVec.eq_of_toNat_eq (by omega)

theorem ipText_inj {x y : BitVec 32} (h : ipText x = ipText y) : x = y := ntohl_inj (dottedQuad_inj h)

theorem mem_ipText {c : Char} {ip : BitVec 32} (h : c ∈ ipText ip) : c.isDigit ∨ c = '.' := by
  simp only [ipText, dottedQuad, List.append_assoc, List.cons_append, List.mem_append, List.mem_cons] at h
  have hd : ∀ n, c ∈ natText n → c.isDigit := fun _ => Separated.isDigit_of_mem_toDigits
  rcases h with h | h | h | h | h | h | h <;> first | exact .inl (hd _ h) | exact .inr h

theorem dot_mem_ipText (ip : BitVec 32) : '.' ∈ ipText ip := by
  simp [ipText, dottedQuad]

/-- An address is no fixed component of a name. -/
theorem ipText_ne {c : Text} (h : '.' ∉ c) (ip : BitVec 32) : ipText ip ≠ c := fun e =>
  h (e ▸ dot_mem_ipText ip)

theorem plain_of_digits {c : Text} (h : ∀ x ∈ c, x.isDigit ∨ x = '.' ∨ x = '-') (hd : ∃ x ∈ c, x.isDigit) :
    PlainComponent c := by
  refine ⟨fun x hx => ?_, ?_⟩
  · rcases h x hx with hx | rfl | rfl
    · exact .inl (by simp [Char.isAlphanum, hx])
    · exact .inr (.inr (.inl rfl))
    · exact .inr (.inl rfl)
  · obtain ⟨x, hx, hd⟩ := hd
    exact ⟨x, hx, by rintro rfl; exact absurd hd (by decide)⟩

theorem plain_of_all {c : Text} (h : c.all Char.isAlphanum) (hne : c ≠ []) : PlainComponent c := by
  refine ⟨fun x hx => .inl (List.all_eq_true.mp h x hx), ?_⟩
  obtain ⟨x, hx⟩ := List.exists_mem_of_ne_nil c hne
  refine ⟨x, hx, ?_⟩
  rintro rfl
  exact absurd (List.all_eq_true.mp h _ hx) (by decide)

theorem exists_digit (n : Nat) : ∃ x ∈ natText n, x.isDigit := by
  obtain ⟨x, hx⟩ := List.exists_mem_of_ne_nil _ (natText_ne_nil n)
  exact ⟨x, hx, Separated.isDigit_of_mem_toDigits hx⟩

theorem plain_ipText (ip : BitVec 32) : PlainComponent (ipText ip) := by
  refine plain_of_digits (fun x hx => (mem_ipText hx).imp id .inl) ?_
  obtain ⟨x, hx, hd⟩ := exists_digit ((ntohl ip >>> 24) &&& 0xFF).toNat
  exact ⟨x, by simp only [ipText, dottedQuad, List.append_assoc]; exact List.mem_append_left _ hx, hd⟩

/-! ## The uid of a TCP or UDP packet -/

/-- The text of a port, as the gateway takes it: `ntohs` once more. -/
def portText (port : BitVec 16) : Text := natText (ntohs port).toNat

theorem portText_inj {x y : BitVec 16} (h : portText x = portText y) : x = y :=
  ntohs_inj (BitVec.eq_of_toNat_eq (natText_inj h))

/-- `sourcePort-dstPort-`, what the uids of a flow begin with -/
def flowUid (sport dport : BitVec 16) : Text := portText sport ++ '-' :: portText dport ++ ['-']

def uidText (sport dport : BitVec 16) (seq : BitVec 32) : Text := flowUid sport dport ++ intText seq.toInt

theorem uidText_eq (sport dport : BitVec 16) (seq : BitVec 32) :
    uidText sport dport seq = portText sport ++ '-' :: portText dport ++ '-' :: intText seq.toInt := by
  simp only [uidText, flowUid, List.append_assoc, List.cons_append, List.nil_append]

theorem uidText_inj {sport sport' dport dport' : BitVec 16} {seq seq' : BitVec 32}
    (h : uidText sport dport seq = uidText sport' dport' seq') :
    sport = sport' ∧ dport = dport' ∧ seq = seq' := by
  have hd : ∀ p, '-' ∉ portText p := fun p => notMem_natText (by decide) _
  simp only [uidText_eq, List.append_assoc, List.cons_append] at h
  obtain ⟨hs, h⟩ := append_cons_inj (hd _) (hd _) h
  obtain ⟨hp, h⟩ := append_cons_inj (hd _) (hd _) h
  exact ⟨portText_inj hs, portText_inj hp, BitVec.eq_of_toInt_eq (intText_inj h)⟩

theorem plain_uidText (sport dport : BitVec 16) (seq : BitVec 32) : PlainComponent (uidText sport dport seq) := by
  have hn : ∀ n, ∀ x ∈ natText n, x.isDigit := fun n x => Separated.isDigit_of_mem_toDigits
  refine plain_of_digits (fun x hx => ?_) ?_
  · simp only [uidText, flowUid, portText, intText, List.append_assoc, List.cons_append, List.nil_append,
      List.mem_append, List.mem_cons] at hx
    rcases hx with hx | rfl | hx | rfl | hx
    · exact .inl (hn _ _ hx)
    · exact .inr (.inr rfl)
    · exact .inl (hn _ _ hx)
    · exact .inr (.inr rfl)
    · split at hx
      · rcases List.mem_cons.mp hx with rfl | hx
        · exact .inr (.inr rfl)
        · exact .inl (hn _ _ hx)
      · exact .inl (hn _ _ hx)
  · obtain ⟨x, hx, hd⟩ := exists_digit (ntohs sport).toNat
    refine ⟨x, ?_, hd⟩
    simp only [uidText, flowUid, List.append_assoc]
    exact List.mem_append_left _ hx

/-! ## `buildName` -/

def cIP : Text := "IP".toList
def cTCP : Text := "TCP".toList
def cPre : Text := "pre".toList

/-- The fixed parts of the names, as components. -/
theorem prefixes_eq : PREFIX_PRE_REQUEST = uriOf [cIP, cPre] ∧ PREFIX_REQUEST_DATA = uriOf [cIP] ∧
    PREFIX_TCP_PRE_REQUEST = uriOf [cIP, cTCP, cPre] ∧ PREFIX_TCP_REQUEST_DATA = uriOf [cIP, cTCP] := by
  decide

theorem plain_fixed : PlainComponent cIP ∧ PlainComponent cTCP ∧ PlainComponent cPre := by
  refine ⟨plain_of_all ?_ ?_, plain_of_all ?_ ?_, plain_of_all ?_ ?_⟩ <;> decide

theorem uriOf_cons (c : Text) (cs : List Text) : uriOf (c :: cs) = '/' :: c ++ uriOf cs := by
  rw [uriOf, List.flatMap_cons, uriOf]

theorem uriOf_append (cs ds : List Text) : uriOf (cs ++ ds) = uriOf cs ++ uriOf ds := List.flatMap_append

section

variable (sip dip : BitVec 32) (sport dport : BitVec 16) (seq : BitVec 32) (uid : Text)

theorem buildName_pre :
    (buildName sip dip sport dport 1 seq uid).1 = uriOf [cIP, cPre, ipText dip, ipText sip, uid] := by
  rw [show [cIP, cPre, ipText dip, ipText sip, uid] = [cIP, cPre] ++ [ipText dip, ipText sip, uid] from rfl,
    uriOf_append, ← prefixes_eq.1]
  simp only [buildName, uriOf, List.flatMap_cons, List.flatMap_nil, ipText, List.append_assoc, List.cons_append,
    List.append_nil]

theorem buildName_data :
    (buildName sip dip sport dport 2 seq uid).1 = uriOf [cIP, ipText sip, ipText dip, uid] := by
  rw [show [cIP, ipText sip, ipText dip, uid] = [cIP] ++ [ipText sip, ipText dip, uid] from rfl,
    uriOf_append, ← prefixes_eq.2.1]
  simp only [buildName, uriOf, List.flatMap_cons, List.flatMap_nil, ipText, List.append_assoc, List.cons_append,
    List.append_nil]

theorem buildName_tcpPre :
    (buildName sip dip sport dport 3 seq uid).1 =
      uriOf [cIP, cTCP, cPre, ipText dip, ipText sip, uidText sport dport seq] := by
  rw [show [cIP, cTCP, cPre, ipText dip, ipText sip, uidText sport dport seq] =
    [cIP, cTCP, cPre] ++ [ipText dip, ipText sip, uidText sport dport seq] from rfl,
    uriOf_append, ← prefixes_eq.2.2.1]
  simp only [buildName, uriOf, List.flatMap_cons, List.flatMap_nil, ipText, uidText, flowUid, portText,
    List.append_assoc, List.cons_append, List.nil_append, List.append_nil]

theorem buildName_tcpData :
    (buildName sip dip sport dport 4 seq uid).1 =
      uriOf [cIP, cTCP, ipText sip, ipText dip, uidText sport dport seq] := by
  rw [show [cIP, cTCP, ipText sip, ipText dip, uidText sport dport seq] =
    [cIP, cTCP] ++ [ipText sip, ipText dip, uidText sport dport seq] from rfl,
    uriOf_append, ← prefixes_eq.2.2.2]
  simp only [buildName, uriOf, List.flatMap_cons, List.flatMap_nil, ipText, uidText, flowUid, portText,
    List.append_assoc, List.cons_append, List.nil_append, List.append_nil]

end

/-! ## A prefix-free code -/

/-- The components of a name, as its text has them: what its slashes separate. -/
def nameComponents (name : Text) : List Text := (name.splitOn '/').tail

theorem nameComponents_uriOf {cs : List Text} (h : ∀ c ∈ cs, '/' ∉ c) : nameComponents (uriOf cs) = cs := by
  rw [nameComponents, splitOn_uriOf h, List.tail_cons]

/-- The arguments of a call of `buildName`. -/
structure NameArgs where
  sip : BitVec 32
  dip : BitVec 32
  sport : BitVec 16
  dport : BitVec 16
  type : Int
  seq : BitVec 32
  uid : Text

namespace NameArgs

def name (a : NameArgs) : Text := (buildName a.sip a.dip a.sport a.dport a.type a.seq a.uid).1

/-- One of the four types, and a uid, where it is used, that is one component. -/
structure Valid (a : NameArgs) : Prop where
  type : a.type = 1 ∨ a.type = 2 ∨ a.type = 3 ∨ a.type = 4
  uid : a.type = 1 ∨ a.type = 2 → a.uid ≠ [] ∧ '/' ∉ a.uid

/-- The same type and the same packet. -/
def Same (a b : NameArgs) : Prop :=
  a.type = b.type ∧ a.sip = b.sip ∧ a.dip = b.dip ∧
    if a.type = 1 ∨ a.type = 2 then a.uid = b.uid else a.sport = b.sport ∧ a.dport = b.dport ∧ a.seq = b.seq

/-- The components of a name. -/
def parts (a : NameArgs) : List Text :=
  match a.type with
  | 1 => [cIP, cPre, ipText a.dip, ipText a.sip, a.uid]
  | 2 => [cIP, ipText a.sip, ipText a.dip, a.uid]
  | 3 => [cIP, cTCP, cPre, ipText a.dip, ipText a.sip, uidText a.sport a.dport a.seq]
  | _ => [cIP, cTCP, ipText a.sip, ipText a.dip, uidText a.sport a.dport a.seq]

theorem Valid.name_eq {a : NameArgs} (h : a.Valid) : a.name = uriOf a.parts := by
  rcases h.type with e | e | e | e <;>
    simp only [name, parts, e, buildName_pre, buildName_data, buildName_tcpPre, buildName_tcpData]

/-- What holds of the fixed components, of addresses and uids, holds of all components. -/
theorem Valid.forall_parts {a : NameArgs} (h : a.Valid) {P : Text → Prop} (hIP : P cIP) (hTCP : P cTCP)
    (hPre : P cPre) (hip : ∀ ip, P (ipText ip)) (hn : ∀ sport dport seq, P (uidText sport dport seq))
    (hu : a.type = 1 ∨ a.type = 2 → P a.uid) : ∀ c ∈ a.parts, P c := by
  rcases h.type with e | e | e | e
  · simp [parts, e, hIP, hPre, hip, hu (.inl e)]
  · simp [parts, e, hIP, hip, hu (.inr e)]
  · simp [parts, e, hIP, hTCP, hPre, hip, hn]
  · simp [parts, e, hIP, hTCP, hip, hn]

theorem Valid.slash_parts {a : NameArgs} (h : a.Valid) : ∀ c ∈ a.parts, '/' ∉ c :=
  h.forall_parts (by decide) (by decide) (by decide) (fun _ => (plain_ipText _).slash)
    (fun _ _ _ => (plain_uidText _ _ _).slash) fun ht => (h.uid ht).2

theorem Valid.components {a : NameArgs} (h : a.Valid) : nameComponents a.name = a.parts := by
  rw [h.name_eq, nameComponents_uriOf h.slash_parts]

theorem parts_ne_nil (a : NameArgs) : a.parts ≠ [] := by
  unfold parts
  split <;> exact List.cons_ne_nil _ _

theorem Valid.plain_parts {a : NameArgs} (h : a.Valid) (hu : a.type = 1 ∨ a.type = 2 → PlainComponent a.uid) :
    ∀ c ∈ a.parts, PlainComponent c :=
  h.forall_parts plain_fixed.1 plain_fixed.2.1 plain_fixed.2.2 plain_ipText plain_uidText hu

/-- The libraries read a name whose uid is plain as its components. -/
theorem Valid.components_ofUri {L : Libs} (hL : L.Lawful) {a : NameArgs} (h : a.Valid)
    (hu : a.type = 1 ∨ a.type = 2 → PlainComponent a.uid) : L.components (L.ofUri a.name) = a.parts := by
  rw [h.name_eq, hL.components_ofUri a.parts a.parts_ne_nil (h.plain_parts hu)]

theorem Valid.same_of_prefix {a b : NameArgs} (ha : a.Valid) (hb : b.Valid) (h : a.parts <+: b.parts) : a.Same b := by
  have hpre : ∀ ip, ipText ip ≠ cPre := ipText_ne (by decide)
  have htcp : ∀ ip, ipText ip ≠ cTCP := ipText_ne (by decide)
  have hpt : cPre ≠ cTCP := by decide
  -- A name of one type has a component where one of another type has a different one.
  rcases ha.type with ea | ea | ea | ea <;> rcases hb.type with eb | eb | eb | eb <;>
    simp only [NameArgs.parts, ea, eb, List.cons_prefix_cons, hpre, htcp, hpt, hpt.symm, (hpre _).symm,
      (htcp _).symm, false_and, and_false, true_and, List.prefix_nil, reduceCtorEq, List.prefix_refl, and_true] at h
  · obtain ⟨hd, hs, hu⟩ := h
    simp [NameArgs.Same, ea, eb, ipText_inj hd, ipText_inj hs, hu]
  · obtain ⟨hs, hd, hu⟩ := h
    simp [NameArgs.Same, ea, eb, ipText_inj hd, ipText_inj hs, hu]
  · obtain ⟨hd, hs, hu⟩ := h
    obtain ⟨h1, h2, h3⟩ := uidText_inj hu
    simp [NameArgs.Same, ea, eb, ipText_inj hd, ipText_inj hs, h1, h2, h3]
  · obtain ⟨hs, hd, hu⟩ := h
    obtain ⟨h1, h2, h3⟩ := uidText_inj hu
    simp [NameArgs.Same, ea, eb, ipText_inj hd, ipText_inj hs, h1, h2, h3]

end NameArgs

/-- A name begins another, as components, only if both are of one type and
name one packet. -/
theorem buildName_prefixFree (a b : NameArgs) (ha : a.Valid) (hb : b.Valid)
    (h : nameComponents a.name <+: nameComponents b.name) : a.Same b := by
  rw [ha.components, hb.components] at h
  exact ha.same_of_prefix hb h

/-- Two calls for one packet: the uid passed for type 4 is not in the name. -/
theorem buildName_prefixFree_tcpData :
    NameArgs.Same ⟨0x0401a8c0, 0x0101a8c0, 80, 443, 4, 7, []⟩ ⟨0x0401a8c0, 0x0101a8c0, 80, 443, 4, 7, ['u']⟩ :=
  buildName_prefixFree _ _ ⟨by decide, by decide⟩ ⟨by decide, by decide⟩ (by decide)

/-- So a Data answers no Interest but that for its own packet, where the uids are
plain. -/
theorem NameArgs.Valid.same_of_isPrefixOf {L : Libs} (hL : L.Lawful) {a b : NameArgs} (ha : a.Valid) (hb : b.Valid)
    (hua : a.type = 1 ∨ a.type = 2 → PlainComponent a.uid) (hub : b.type = 1 ∨ b.type = 2 → PlainComponent b.uid)
    (h : L.isPrefixOf (L.ofUri a.name) (L.ofUri b.name)) : a.Same b := by
  rw [Libs.isPrefixOf, List.isPrefixOf_iff_prefix, ha.components_ofUri hL hua, hb.components_ofUri hL hub] at h
  exact ha.same_of_prefix hb h

/-! ## Flows and packets -/

namespace Flow

/-- The fields of a flow's key. -/
theorem splitOn_key (f : Flow) :
    f.key.splitOn '/' = [ipText f.srcIp, ipText f.dstIp, portText f.srcPort, portText f.dstPort] := by
  have hip (ip : BitVec 32) : '/' ∉ ipText ip := (plain_ipText ip).slash
  have hport (port : BitVec 16) : '/' ∉ portText port := notMem_natText (by decide) _
  have h : f.key =
      ipText f.srcIp ++ '/' :: (ipText f.dstIp ++ '/' :: (portText f.srcPort ++ '/' :: portText f.dstPort)) := by
    simp only [key, build4TupleKey, ipText, portText, List.append_assoc, List.cons_append]
  rw [h, List.splitOn_append_cons_self_of_not_mem (hip _), List.splitOn_append_cons_self_of_not_mem (hip _),
    List.splitOn_append_cons_self_of_not_mem (hport _), List.splitOn_eq_singleton (hport _)]

/-- The key of a flow determines it. -/
theorem key_inj {f g : Flow} (h : f.key = g.key) : f = g := by
  have e := congrArg (List.splitOn '/') h
  simp only [splitOn_key, List.cons.injEq, and_true] at e
  obtain ⟨h1, h2, h3, h4⟩ := e
  cases f
  cases g
  simp only [Flow.mk.injEq]
  exact ⟨ipText_inj h1, ipText_inj h2, portText_inj h3, portText_inj h4⟩

def dataParts (f : Flow) (n : BitVec 32) : List Text :=
  [cIP, cTCP, ipText f.srcIp, ipText f.dstIp, uidText f.srcPort f.dstPort n]

def preParts (f : Flow) (n : BitVec 32) : List Text :=
  [cIP, cTCP, cPre, ipText f.dstIp, ipText f.srcIp, uidText f.srcPort f.dstPort n]

theorem dataName_eq (f : Flow) (n : BitVec 32) : f.dataName n = uriOf (f.dataParts n) := buildName_tcpData ..

theorem preName_eq (f : Flow) (n : BitVec 32) : f.preName n = uriOf (f.preParts n) := buildName_tcpPre ..

theorem plain_dataParts (f : Flow) (n : BitVec 32) : ∀ c ∈ f.dataParts n, PlainComponent c := by
  intro c hc
  simp only [dataParts, List.mem_cons, List.not_mem_nil, or_false] at hc
  obtain ⟨h1, h2, -⟩ := plain_fixed
  rcases hc with rfl | rfl | rfl | rfl | rfl
  · exact h1
  · exact h2
  · exact plain_ipText _
  · exact plain_ipText _
  · exact plain_uidText _ _ _

theorem plain_preParts (f : Flow) (n : BitVec 32) : ∀ c ∈ f.preParts n, PlainComponent c := by
  intro c hc
  simp only [preParts, List.mem_cons, List.not_mem_nil, or_false] at hc
  obtain ⟨h1, h2, h3⟩ := plain_fixed
  rcases hc with rfl | rfl | rfl | rfl | rfl | rfl
  · exact h1
  · exact h2
  · exact h3
  · exact plain_ipText _
  · exact plain_ipText _
  · exact plain_uidText _ _ _

/-- A Data name determines its flow and number. -/
theorem dataName_inj {f g : Flow} {m n : BitVec 32} (h : f.dataName m = g.dataName n) : f = g ∧ m = n := by
  rw [dataName_eq, dataName_eq] at h
  have e := Separated.flatMap_cons_inj (fun c hc => (plain_dataParts f m c hc).slash)
    (fun c hc => (plain_dataParts g n c hc).slash) h
  simp only [dataParts, List.cons.injEq, true_and, and_true] at e
  obtain ⟨hs, hd, hu⟩ := e
  obtain ⟨h1, h2, h3⟩ := uidText_inj hu
  cases f
  cases g
  simp only [Flow.mk.injEq]
  exact ⟨⟨ipText_inj hs, ipText_inj hd, h1, h2⟩, h3⟩

end Flow

end IpNdn
