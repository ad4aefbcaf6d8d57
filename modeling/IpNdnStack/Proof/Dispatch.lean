import IpNdnStack.Proof.Receiver

/-!
# Which callback a name reaches

The filters of `start` nest as texts, but no address is a fixed component of a
name: so of the four filters of an address, a name matches the one for its
type, if it routes to that address, and no other (`filter_filters`). Of all the
filters it matches one or none (`start_unambiguous`).
-/

namespace IpNdn

open Handler

/-- Four decimal numbers with dots between them. -/
def DottedQuad (ip : Text) : Prop :=
  ∃ a b c d : Text, ip = a ++ '.' :: b ++ '.' :: c ++ '.' :: d ∧
    ∀ x ∈ [a, b, c, d], x ≠ [] ∧ ∀ y ∈ x, y.isDigit

theorem DottedQuad.plain {ip : Text} (h : DottedQuad ip) : PlainComponent ip := by
  obtain ⟨a, b, c, d, rfl, h⟩ := h
  simp only [List.mem_cons, List.not_mem_nil, or_false, forall_eq_or_imp, forall_eq] at h
  obtain ⟨⟨hne, ha⟩, ⟨-, hb⟩, ⟨-, hc⟩, -, hd⟩ := h
  refine plain_of_digits (fun x hx => ?_) ?_
  · simp only [List.append_assoc, List.cons_append, List.mem_append, List.mem_cons] at hx
    rcases hx with hx | rfl | hx | rfl | hx | rfl | hx
    · exact .inl (ha x hx)
    · exact .inr (.inl rfl)
    · exact .inl (hb x hx)
    · exact .inr (.inl rfl)
    · exact .inl (hc x hx)
    · exact .inr (.inl rfl)
    · exact .inl (hd x hx)
  · obtain ⟨x, hx⟩ := List.exists_mem_of_ne_nil a hne
    refine ⟨x, ?_, ha x hx⟩
    simp only [List.append_assoc]
    exact List.mem_append_left _ hx

theorem DottedQuad.dot_mem {ip : Text} (h : DottedQuad ip) : '.' ∈ ip := by
  obtain ⟨a, b, c, d, rfl, -⟩ := h
  simp

theorem dottedQuad_ipText (ip : BitVec 32) : DottedQuad (ipText ip) := by
  refine ⟨_, _, _, _, rfl, ?_⟩
  simp only [List.mem_cons, List.not_mem_nil, or_false, forall_eq_or_imp, forall_eq]
  have h (n : Nat) : natText n ≠ [] ∧ ∀ y ∈ natText n, y.isDigit :=
    ⟨natText_ne_nil n, fun _ => Separated.isDigit_of_mem_toDigits⟩
  exact ⟨h _, h _, h _, h _⟩

namespace NameArgs

/-- The address that a name routes to: it stands first in the name. -/
def routing (a : NameArgs) : BitVec 32 := if a.type = 1 ∨ a.type = 3 then a.dip else a.sip

/-- Whether a name of the type is a pre-request's. -/
def isPre (a : NameArgs) : Bool := a.type = 1 ∨ a.type = 3

/-- Whether a name of the type is of a TCP or UDP flow. -/
def isTCP (a : NameArgs) : Bool := a.type = 3 ∨ a.type = 4

/-- What a filter for the type registers. -/
def filterParts (a : NameArgs) (ip : Text) : List Text :=
  match a.type with
  | 1 => [cIP, cPre, ip]
  | 2 => [cIP, ip]
  | 3 => [cIP, cTCP, cPre, ip]
  | _ => [cIP, cTCP, ip]

end NameArgs

section

variable {L : Libs}

/-- Of the four filters of an address, a name that begins as `a`'s matches the
one for its type if it routes to the address, and none otherwise. -/
theorem filter_filters (hL : L.Lawful) {a : NameArgs} (ha : a.Valid) {cs : List Text}
    (hcs : a.parts.dropLast <+: cs) {ip : Text} (hip : DottedQuad ip) :
    (filters L ip).filter (fun f => (L.components f.registerPrefix).isPrefixOf cs) =
      if ip = ipText a.routing then [⟨L.ofUri (uriOf (a.filterParts ip)), a.isPre, a.isTCP⟩] else [] := by
  obtain ⟨e1, e2, e3, e4⟩ := components_filters hL hip.plain
  have hpt : cPre ≠ cTCP := by decide
  have hpre : ip ≠ cPre := fun e => absurd hip.dot_mem (by rw [e]; decide)
  have htcp : ip ≠ cTCP := fun e => absurd hip.dot_mem (by rw [e]; decide)
  have hpre' : ∀ i, cPre ≠ ipText i := fun i => (ipText_ne (by decide) i).symm
  have htcp' : ∀ i, cTCP ≠ ipText i := fun i => (ipText_ne (by decide) i).symm
  obtain ⟨rest, rfl⟩ := hcs
  simp only [filters, List.filter_cons, List.filter_nil, e1, e2, e3, e4, List.isPrefixOf_iff_prefix]
  -- The fixed components and the address decide each of the four comparisons.
  rcases ha.type with e | e | e | e <;>
    simp [NameArgs.parts, NameArgs.routing, NameArgs.filterParts, NameArgs.isPre, NameArgs.isTCP, e, hpt, hpt.symm,
      hpre, htcp, hpre', htcp']

theorem flatMap_ite_eq {β : Type} {l : List Text} (hd : l.Nodup) (x : Text) (f : Text → List β) :
    (l.flatMap fun a => if a = x then f a else []) = if x ∈ l then f x else [] := by
  induction l with
  | nil => rfl
  | cons a l ih =>
    obtain ⟨ha, hd⟩ := List.nodup_cons.mp hd
    rw [List.flatMap_cons, ih hd]
    by_cases h : a = x
    · subst h
      rw [if_pos rfl, if_neg ha, List.append_nil, if_pos List.mem_cons_self]
    · have hm : x ∈ a :: l ↔ x ∈ l := by simp [Ne.symm h]
      rw [if_neg h, List.nil_append]
      simp only [hm]

/-- Of all filters, a name matches one or none. -/
theorem filter_start (hL : L.Lawful) {registerIp : List Text} (hip : ∀ ip ∈ registerIp, DottedQuad ip)
    (hd : registerIp.Nodup) {a : NameArgs} (ha : a.Valid) {cs : List Text} (hcs : a.parts.dropLast <+: cs) :
    (start L registerIp).filter (fun f => (L.components f.registerPrefix).isPrefixOf cs) =
      if ipText a.routing ∈ registerIp then
        [⟨L.ofUri (uriOf (a.filterParts (ipText a.routing))), a.isPre, a.isTCP⟩]
      else [] := by
  rw [start_eq, List.filter_flatMap]
  refine (List.flatMap_congr fun ip h => filter_filters hL ha hcs (hip ip h)).trans ?_
  exact flatMap_ite_eq hd _ fun ip => [InterestFilter.mk (L.ofUri (uriOf (a.filterParts ip))) a.isPre a.isTCP]

/-- Of the filters for a list of distinct addresses, four for each, a name of
the four types matches one if its routing address is registered, and none
otherwise; the one has the flags of the type. So an Interest whose name begins
as this one, up to the uid, is handled once, with these flags, or not at all. -/
theorem start_unambiguous (L : Libs) (hL : L.Lawful) (registerIp : List Text)
    (hip : ∀ ip ∈ registerIp, DottedQuad ip) (hd : registerIp.Nodup) (a : NameArgs) (ha : a.Valid) :
    (start L registerIp).length = 4 * registerIp.length ∧
      ((start L registerIp).filter fun f =>
          (L.components f.registerPrefix).isPrefixOf (nameComponents a.name)).map (fun f => (f.isPre, f.isTCP)) =
        (if ipText a.routing ∈ registerIp then [(a.isPre, a.isTCP)] else []) ∧
      ∀ (interest : L.Name) (g : Gateway), (nameComponents a.name).dropLast <+: L.components interest →
        processInterest L registerIp interest g =
          if ipText a.routing ∈ registerIp then onInterest L interest a.isPre a.isTCP g else .ok ⟨⟩ g := by
  rw [ha.components]
  refine ⟨?_, ?_, fun interest g hi => ?_⟩
  · rw [start, List.length_flatMap]
    simp [Nat.mul_comm]
  · rw [filter_start hL hip hd ha (List.dropLast_prefix _)]
    split <;> rfl
  · have h := filter_start hL hip hd ha hi
    rw [processInterest]
    simp only [Libs.isPrefixOf, h]
    split
    · rw [List.forM_cons, List.forM_nil, bind_pure_unit]
    · rfl

/-- A pre-request of a TCP flow, at a gateway for its destination. -/
theorem start_unambiguous_tcpPre :
    ((start textLibs ["192.168.1.1".toList]).filter fun f =>
        (textLibs.components f.registerPrefix).isPrefixOf
          (nameComponents (NameArgs.name ⟨0x0401a8c0, 0x0101a8c0, 80, 443, 3, 7, []⟩))).map
      (fun f => (f.isPre, f.isTCP)) = [(true, true)] :=
  (start_unambiguous textLibs textLibs_lawful ["192.168.1.1".toList]
    (fun _ h => List.mem_singleton.mp h ▸ (dottedQuad_ipText 0x0101a8c0 : DottedQuad "192.168.1.1".toList))
    (List.nodup_singleton _) ⟨0x0401a8c0, 0x0101a8c0, 80, 443, 3, 7, []⟩ ⟨by decide, by decide⟩).2.1

end

end IpNdn
