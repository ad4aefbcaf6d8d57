import Mathlib.Data.List.TakeWhile
import IpNdnStack.Impl.RawSocketHelper
import IpNdnStack.Proof.GuessTable

/-!
# From the publisher's names to the receiver's

What the receiver makes of a name that `buildName` wrote: a pre-request gives
the Data name of the same packet, and the Data names of the `NUM_OF_GUEST`
packets after it; a Data name gives the text of its destination, which
`inet_addr` reads as the address it was written from (`inetAddr_ipText`).
-/

namespace IpNdn

open Handler

/-! ## Reading an address -/

theorem toNat_of_isDigit {c : Char} (h : c.isDigit) : 48 ≤ c.toNat ∧ c.toNat ≤ 57 := by
  rw [Char.isDigit, Bool.and_eq_true, decide_eq_true_eq, decide_eq_true_eq] at h
  exact h

/-- A number ends before a character that is no digit of any base. -/
theorem inetDigits_stop {t : Text} (ht : ∀ c ∈ t.head?, digitValue c = none) (base n : Nat) :
    inetDigits base n t = (n, t) := by
  rcases t with _ | ⟨c, t⟩
  · rfl
  · simp only [inetDigits, ht c rfl]

/-- A run of decimal digits is read to its end. -/
theorem inetDigits_append {ds t : Text} (hd : ∀ c ∈ ds, c.isDigit) (ht : ∀ c ∈ t.head?, digitValue c = none)
    (n : Nat) : inetDigits 10 n (ds ++ t) = (Nat.ofDigitChars 10 ds n, t) := by
  induction ds generalizing n with
  | nil => rw [List.nil_append, inetDigits_stop ht, Nat.ofDigitChars_nil]
  | cons d ds ih =>
    obtain ⟨h, hd⟩ := List.forall_mem_cons.mp hd
    have hv : digitValue d = some (d.toNat - 48) := if_pos h
    rw [List.cons_append, inetDigits, hv]
    dsimp only
    have hlt : d.toNat - 48 < 10 := by
      have := toNat_of_isDigit h
      omega
    rw [if_pos hlt, ih hd, Nat.ofDigitChars_cons]
    rfl

/-- Zero is read as an octal number, the others as decimal ones. -/
theorem inetNumber_natText (n : Nat) {t : Text} (ht : ∀ c ∈ t.head?, digitValue c = none) :
    inetNumber (natText n ++ t) = (n, t) := by
  by_cases h0 : n = 0
  · subst h0
    have h8 : inetDigits 8 0 ('0' :: t) = (0, t) := inetDigits_stop ht 8 0
    rcases t with _ | ⟨x, _ | ⟨c, t⟩⟩
    · exact h8
    · exact h8
    · have hn : ¬ ((x = 'x' ∨ x = 'X') ∧ (digitValue c).any (· < 16)) := by
        rintro ⟨rfl | rfl, -⟩ <;> exact absurd (ht _ rfl) (by decide)
      exact (if_neg hn).trans h8
  · obtain ⟨c, cs, e, hc⟩ := Separated.toDigits_eq_cons h0
    have hd : ∀ c ∈ natText n, c.isDigit := fun _ => Separated.isDigit_of_mem_toDigits
    have h : inetNumber (natText n ++ t) = inetDigits 10 0 (natText n ++ t) := by
      rw [natText, e, List.cons_append, inetNumber]
      · intro x c' s' h
        exact hc (List.cons.inj h).1
      · intro s' h
        exact hc (List.cons.inj h).1
    rw [h, inetDigits_append hd ht, natText, Nat.ofDigitChars_ten_toDigits]

theorem head_natText (n : Nat) (t : Text) : (natText n ++ t).head?.any Char.isDigit := by
  obtain ⟨c, cs, e, hc⟩ := Separated.toDigits_eq_digit_cons n
  rw [natText, e]
  exact hc

theorem inetNumbers_last (dots : Nat) {n : Nat} (hn : n < 256) : inetNumbers dots (natText n) = some [n] := by
  have h := head_natText n []
  have hs := inetNumber_natText n (t := []) (fun c hc => nomatch hc)
  rw [List.append_nil] at h hs
  rw [inetNumbers, if_pos h, hs]
  dsimp only
  rw [if_neg (by omega)]

theorem inetNumbers_dot (dots : Nat) {n : Nat} (hn : n < 256) (t : Text) :
    inetNumbers (dots + 1) (natText n ++ '.' :: t) = (inetNumbers dots t).map (n :: ·) := by
  have hs := inetNumber_natText n (t := '.' :: t) (fun c hc => by cases hc; decide)
  rw [inetNumbers, if_pos (head_natText n _), hs]
  dsimp only
  rw [if_neg (by omega), if_pos rfl, if_neg (by omega)]

/-- The numbers of a dotted quad are its bytes. -/
theorem inetNumbers_dottedQuad (x : BitVec 32) :
    inetNumbers 3 (dottedQuad x) = some [((x >>> 24) &&& 0xFF).toNat, ((x >>> 16) &&& 0xFF).toNat,
      ((x >>> 8) &&& 0xFF).toNat, ((x >>> 0) &&& 0xFF).toNat] := by
  have ho (k : Nat) : ((x >>> k) &&& 0xFF).toNat < 256 := by
    rw [octet_toNat]
    omega
  simp only [dottedQuad, List.append_assoc, List.cons_append]
  rw [inetNumbers_dot 2 (ho 24), inetNumbers_dot 1 (ho 16), inetNumbers_dot 0 (ho 8), inetNumbers_last 0 (ho 0)]
  rfl

/-- The bytes of a word, put where `inet_addr` puts them. -/
theorem inetWord_bytes (x : BitVec 32) :
    inetWord 0 [((x >>> 24) &&& 0xFF).toNat, ((x >>> 16) &&& 0xFF).toNat,
      ((x >>> 8) &&& 0xFF).toNat, ((x >>> 0) &&& 0xFF).toNat] = some (ntohl x) := by
  have h0 : ((x >>> 0) &&& 0xFF).toNat < 2 ^ (8 * (4 - 3)) := by
    rw [octet_toNat]
    omega
  simp only [inetWord, if_pos h0, Option.map_some, BitVec.ofNat_toNat, BitVec.setWidth_eq]
  refine congrArg some (BitVec.eq_of_getLsbD_eq fun i hi => ?_)
  simp only [BitVec.getLsbD_or, BitVec.getLsbD_shiftLeft, getLsbD_ntohl, getLsbD_octet]
  rcases (by omega : i < 8 ∨ (8 ≤ i ∧ i < 16) ∨ (16 ≤ i ∧ i < 24) ∨ (24 ≤ i ∧ i < 32)) with
    h | ⟨h1, h2⟩ | ⟨h1, h2⟩ | ⟨h1, h2⟩
  · simp [show i < 32 by omega, show i / 8 = 0 by omega, show i % 8 = i by omega, h, show ¬ 16 ≤ i by omega,
      Nat.add_comm 24 i, show ¬ i + 24 < 8 by omega]
  · simp [show ¬ i < 8 by omega, show i < 32 by omega, show i / 8 = 1 by omega, show i - 8 < 8 by omega,
      show 16 + (i - 8) = 16 + i % 8 by omega, h2, show ¬ 16 + i % 8 < 8 by omega]
  · simp [show ¬ i < 8 by omega, show ¬ i < 16 by omega, show i < 32 by omega, show i / 8 = 2 by omega,
      show ¬ i - 8 < 8 by omega, show i - 16 < 8 by omega, show 8 + (i - 16) = 8 + i % 8 by omega]
  · simp [show ¬ i < 8 by omega, show ¬ i < 16 by omega, h2, show i / 8 = 3 by omega, show ¬ i - 8 < 8 by omega,
      show ¬ i - 16 < 8 by omega, show i % 8 < 8 by omega]

theorem inetAddr_ipText (ip : BitVec 32) : inetAddr (ipText ip) = ip := by
  have hz : (ipText ip).takeWhile (fun c => c.toNat ≠ 0) = ipText ip := by
    rw [List.takeWhile_eq_self_iff]
    intro c hc
    refine decide_eq_true fun h => ?_
    rcases mem_ipText hc with hd | rfl
    · have := toNat_of_isDigit hd
      omega
    · exact absurd h (by decide)
  rw [inetAddr, hz, ipText, inetNumbers_dottedQuad, Option.bind_some, inetWord_bytes, ntohl_ntohl]
  rfl

/-! ## Names -/

section

variable {L : Libs}

/-- The packet itself is no guess of its pre-request, so that its name is taken
from the table does not change which guesses are new. -/
theorem filter_guessesAfter_formal (f : Flow) {n : Nat} (hn : n < 2 ^ 31) (w : Window Text) :
    (guessesAfter f n).filter (· ∉ (w.formal (f.dataName (BitVec.ofNat 32 n))).entries) =
      (guessesAfter f n).filter (· ∉ w.entries) := by
  apply List.filter_congr
  intro x hx
  have hne : x ≠ f.dataName (BitVec.ofNat 32 n) := by
    intro e
    rw [e, ← request_guesses] at hx
    have := (mem_request_iff hn hn).mp hx
    omega
  simp only [Window.formal, Finset.mem_erase, hne, ne_eq, not_false_eq_true, true_and]

/-- A pre-request and what it does to the face and the table: its Data name is
asked for, then the guesses that are not in the table. -/
theorem dealOnInterest_preName_eq (hL : L.Lawful) (f : Flow) {n : Nat} (hn : n + NUM_OF_GUEST < 2 ^ 31)
    {interest : L.Name} (hi : L.toUri interest = f.preName (BitVec.ofNat 32 n)) (g : Gateway) :
    ∃ g', dealOnInterest L interest true true g = .ok ⟨⟩ g' ∧
      g'.face = g.face ++ (f.dataName (BitVec.ofNat 32 n) ::
        (guessesAfter f n).filter (· ∉ g.prefixGuestTable.s)).map (.expressInterest · false true) ∧
      g'.prefixGuestTable.s =
        g.prefixGuestTable.s.erase (f.dataName (BitVec.ofNat 32 n)) ∪ (guessesAfter f n).toFinset := by
  have hlt : n < 2 ^ 31 := by omega
  have h := dealOnInterest_preName hL f (toNat_ofNat_lt hlt) hi g ⟨g.prefixGuestTable.s, []⟩
  rw [Gateway.withWindow_self] at h
  have he := Window.expressed_guesses_eq
    (Window.formal ⟨g.prefixGuestTable.s, []⟩ (f.dataName (BitVec.ofNat 32 n))) (guessesAfter_nodup f hn)
  rw [filter_guessesAfter_formal f hlt] at he
  refine ⟨_, h, ?_, ?_⟩
  · rw [Gateway.withWindow, Window.request, request_guesses]
    dsimp only
    exact congrArg (fun names => g.face ++ names.map (.expressInterest · false true)) he
  · rw [Gateway.withWindow, Window.entries_request, request_guesses]
    rfl

variable (sip dip : BitVec 32) (sport dport : BitVec 16) (seq : BitVec 32)

/-- The name of another packet's pre-request gives the name of its Data. -/
theorem dealOnInterest_preName_other (hL : L.Lawful) {uid : Text} (hu : '/' ∉ uid) {interest : L.Name}
    (hi : L.toUri interest = (buildName sip dip sport dport 1 seq uid).1) (g : Gateway) :
    dealOnInterest L interest true false g = .ok ⟨⟩
      { g with face := g.face ++ [.expressInterest (buildName sip dip sport dport 2 seq uid).1 false false] } := by
  have hp : L.split (L.toUri interest) '/' = [] :: [cIP, cPre, ipText dip, ipText sip, uid] := by
    rw [hi, hL.split_eq, buildName_pre, splitOn_uriOf]
    simp only [List.mem_cons, List.not_mem_nil, or_false]
    rintro c (rfl | rfl | rfl | rfl | rfl)
    · decide
    · decide
    · exact (plain_ipText _).slash
    · exact (plain_ipText _).slash
    · exact hu
  have hf (i : Nat) : (L.split (L.toUri interest) '/')[i]? =
    ([] :: [cIP, cPre, ipText dip, ipText sip, uid])[i]? := by rw [hp]
  exact dealOnOtherPreRequest_ok (hf 3) (hf 4) (hf 5) g

/-- A Data name of any of the two types gives the text of its destination. -/
theorem dealOnData_name (hL : L.Lawful) {isTCP : Bool} {a : NameArgs} (ha : a.Valid)
    (ht : a.type = if isTCP then 4 else 2) {data : L.Name} (hd : L.toUri data = a.name) (content : List Byte)
    (g : Gateway) :
    dealOnData L data content false isTCP g =
      .ok ⟨⟩ { g with rawSocket := g.rawSocket ++ [(content, ipText a.dip)] } := by
  apply dealOnData_ok
  rw [hd, hL.split_eq, ha.name_eq, splitOn_uriOf ha.slash_parts, NameArgs.parts, ht]
  cases isTCP <;> rfl

/-- A name whose uid is plain is a name of the library, with this URI. -/
theorem toUri_name (hL : L.Lawful) {a : NameArgs} (ha : a.Valid)
    (hu : a.type = 1 ∨ a.type = 2 → PlainComponent a.uid) : L.toUri (L.ofUri a.name) = a.name := by
  rw [ha.name_eq, hL.toUri_ofUri a.parts_ne_nil (ha.plain_parts hu)]

/-- What the receiver derives from a name: from a pre-request, the Data name of
its packet and, for TCP and UDP, the Data names of the packets after it, in
order; from a Data name, a text that `inet_addr` reads as the destination. And
there are such names. -/
theorem names_roundTrip (L : Libs) (hL : L.Lawful) :
    (∀ (f : Flow) (n : Nat) (interest : L.Name) (g : Gateway), 1 ≤ n → n ≤ 2 ^ 31 - 61 →
      L.toUri interest = f.preName (BitVec.ofNat 32 n) →
      ∃ g', dealOnInterest L interest true true g = .ok ⟨⟩ g' ∧
        g'.face = g.face ++ (f.dataName (BitVec.ofNat 32 n) ::
          (guessesAfter f n).filter (· ∉ g.prefixGuestTable.s)).map (.expressInterest · false true) ∧
        g'.prefixGuestTable.s =
          g.prefixGuestTable.s.erase (f.dataName (BitVec.ofNat 32 n)) ∪ (guessesAfter f n).toFinset) ∧
    (∀ (sip dip : BitVec 32) (sport dport : BitVec 16) (seq : BitVec 32) (uid : Text) (interest : L.Name)
        (g : Gateway), uid ≠ [] → '/' ∉ uid →
      L.toUri interest = (buildName sip dip sport dport 1 seq uid).1 →
      dealOnInterest L interest true false g = .ok ⟨⟩
        { g with face := g.face ++ [.expressInterest (buildName sip dip sport dport 2 seq uid).1 false false] }) ∧
    (∀ (isTCP : Bool) (a : NameArgs) (data : L.Name) (content : List Byte) (g : Gateway), a.Valid →
      (a.type = if isTCP then 4 else 2) → L.toUri data = a.name →
      ∃ ip, dealOnData L data content false isTCP g =
          .ok ⟨⟩ { g with rawSocket := g.rawSocket ++ [(content, ip)] } ∧
        inetAddr ip = a.dip) ∧
    ∀ a : NameArgs, a.Valid → (a.type = 1 ∨ a.type = 2 → PlainComponent a.uid) →
      L.toUri (L.ofUri a.name) = a.name := by
  have hk : NUM_OF_GUEST = 60 := rfl
  refine ⟨fun f n interest g _ hn hi => ?_, fun sip dip sport dport seq uid interest g _ hu hi => ?_,
    fun isTCP a data content g ha ht hd => ?_, fun a ha hu => toUri_name hL ha hu⟩
  · exact dealOnInterest_preName_eq hL f (by omega) hi g
  · exact dealOnInterest_preName_other sip dip sport dport seq hL hu hi g
  · exact ⟨ipText a.dip, dealOnData_name hL ha ht hd content g, inetAddr_ipText a.dip⟩

/-- A pre-request of a TCP flow, and the pre-request and the Data of another packet. -/
theorem names_roundTrip_textLibs :
    (∃ g', dealOnInterest textLibs (textLibs.ofUri (Flow.preName ⟨1, 2, 3, 4⟩ (BitVec.ofNat 32 7))) true true .init =
        .ok ⟨⟩ g' ∧ .expressInterest (Flow.dataName ⟨1, 2, 3, 4⟩ (BitVec.ofNat 32 7)) false true ∈ g'.face) ∧
      dealOnInterest textLibs (textLibs.ofUri (buildName 1 2 0 0 1 0 ['u']).1) true false .init =
        .ok ⟨⟩ { Gateway.init with face := [.expressInterest (buildName 1 2 0 0 2 0 ['u']).1 false false] } ∧
      ∃ ip, dealOnData textLibs (textLibs.ofUri (NameArgs.name ⟨1, 2, 0, 0, 2, 0, ['u']⟩)) [] false false .init =
          .ok ⟨⟩ { Gateway.init with rawSocket := [([], ip)] } ∧ inetAddr ip = 2 := by
  obtain ⟨h1, h2, h3, h4⟩ := names_roundTrip textLibs textLibs_lawful
  have hpre : NameArgs.Valid ⟨1, 2, 0, 0, 1, 0, ['u']⟩ := ⟨by decide, by decide⟩
  have hv : NameArgs.Valid ⟨1, 2, 0, 0, 2, 0, ['u']⟩ := ⟨by decide, by decide⟩
  have hu : PlainComponent ['u'] := plain_of_all (by decide) (by decide)
  refine ⟨?_, ?_, ?_⟩
  · obtain ⟨g', hg', hf, -⟩ := h1 ⟨1, 2, 3, 4⟩ 7 _ .init (by decide) (by decide)
      (h4 ⟨1, 2, 3, 4, 3, BitVec.ofNat 32 7, []⟩ ⟨by decide, by decide⟩ fun h => absurd h (by decide))
    refine ⟨g', hg', ?_⟩
    rw [hf]
    exact List.mem_append_right _ List.mem_cons_self
  · exact h2 1 2 0 0 0 ['u'] _ .init (by decide) (by decide) (h4 _ hpre fun _ => hu)
  · exact h3 false _ _ [] .init hv rfl (h4 _ hv fun _ => hu)

end

end IpNdn
