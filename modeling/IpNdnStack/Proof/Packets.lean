import IpNdnStack.Impl.Tunnel
import IpNdnStack.Proof.Guess

/-!
# Packets by their names

What the subscriber makes of the names that `deal` builds, for packets of all
kinds. A packet's names are built from its `PacketId` without loss
(`dataName_inj`, `preName_inj`). Its pre-request, where a filter is set for it,
asks for its Data and perhaps for more (`processInterest_pre`), and its Data goes
to its destination (`onData_id`).
-/

namespace IpNdn

open Handler

/-! ## Names -/

/-- What a packet's names are built from. -/
inductive PacketId
  /-- packet `n` of a flow -/
  | numbered (f : Flow) (n : BitVec 32)
  | other (srcIp dstIp : BitVec 32) (uuid : Uuid)
  deriving DecidableEq

theorem Uuid.plain (uuid : Uuid) : PlainComponent uuid.1 := by
  obtain ⟨u, hne, hu⟩ := uuid
  have hex : "abcdef".toList.all Char.isAlphanum := by decide
  have hc : ∀ x ∈ u, x.isAlphanum ∨ x = '-' := by
    intro x hx
    have h := List.all_eq_true.mp hu x hx
    simp only [uuidChar, Bool.or_eq_true, List.contains_iff_mem, beq_iff_eq] at h
    rcases h with (hd | hm) | rfl
    · exact .inl (by simp [Char.isAlphanum, hd])
    · exact .inl (List.all_eq_true.mp hex x hm)
    · exact .inr rfl
  refine ⟨fun x hx => (hc x hx).imp id .inl, ?_⟩
  obtain ⟨x, hx⟩ := List.exists_mem_of_ne_nil u hne
  refine ⟨x, hx, ?_⟩
  rintro rfl
  exact absurd (hc _ hx) (by decide)

namespace PacketId

def isTCP : PacketId → Bool
  | numbered .. => true
  | other .. => false

def dstIp : PacketId → BitVec 32
  | numbered f _ => f.dstIp
  | other _ dstIp _ => dstIp

def dataName : PacketId → Text
  | numbered f n => f.dataName n
  | other srcIp dstIp uuid => (buildName srcIp dstIp 0 0 2 (-1) uuid.1).1

def preName : PacketId → Text
  | numbered f n => f.preName n
  | other srcIp dstIp uuid => (buildName srcIp dstIp 0 0 1 (-1) uuid.1).1

/-- The formal Interest for a packet. -/
def interest (i : PacketId) : SentInterest := ⟨i.dataName, false, i.isTCP⟩

def dataParts : PacketId → List Text
  | numbered f n => f.dataParts n
  | other srcIp dstIp uuid => [cIP, ipText srcIp, ipText dstIp, uuid.1]

def preParts : PacketId → List Text
  | numbered f n => f.preParts n
  | other srcIp dstIp uuid => [cIP, cPre, ipText dstIp, ipText srcIp, uuid.1]

theorem dataName_eq (i : PacketId) : i.dataName = uriOf i.dataParts := by
  cases i with
  | numbered f n => exact f.dataName_eq n
  | other srcIp dstIp uuid => exact buildName_data ..

theorem preName_eq (i : PacketId) : i.preName = uriOf i.preParts := by
  cases i with
  | numbered f n => exact f.preName_eq n
  | other srcIp dstIp uuid => exact buildName_pre ..

theorem plain_dataParts (i : PacketId) : ∀ c ∈ i.dataParts, PlainComponent c := by
  cases i with
  | numbered f n => exact f.plain_dataParts n
  | other srcIp dstIp uuid =>
    simp only [dataParts, List.forall_mem_cons]
    exact ⟨plain_fixed.1, plain_ipText _, plain_ipText _, uuid.plain, fun _ h => absurd h List.not_mem_nil⟩

theorem plain_preParts (i : PacketId) : ∀ c ∈ i.preParts, PlainComponent c := by
  cases i with
  | numbered f n => exact f.plain_preParts n
  | other srcIp dstIp uuid =>
    simp only [preParts, List.forall_mem_cons]
    exact ⟨plain_fixed.1, plain_fixed.2.2, plain_ipText _, plain_ipText _, uuid.plain,
      fun _ h => absurd h List.not_mem_nil⟩

theorem dataParts_ne_nil (i : PacketId) : i.dataParts ≠ [] := by
  cases i <;> exact List.cons_ne_nil _ _

theorem preParts_ne_nil (i : PacketId) : i.preParts ≠ [] := by
  cases i <;> exact List.cons_ne_nil _ _

/-- Names are as long as their kind says, so they are of one kind. -/
theorem dataParts_inj {i j : PacketId} (h : i.dataParts = j.dataParts) : i = j := by
  cases i with
  | numbered f m =>
    cases j with
    | numbered g n =>
      have e : f.dataName m = g.dataName n := by rw [f.dataName_eq, g.dataName_eq]; exact congrArg uriOf h
      obtain ⟨rfl, rfl⟩ := Flow.dataName_inj e
      rfl
    | other _ _ _ => exact absurd (show 5 = 4 from congrArg List.length h) (by decide)
  | other s d u =>
    cases j with
    | numbered g n => exact absurd (show 4 = 5 from congrArg List.length h) (by decide)
    | other s' d' u' =>
      simp only [dataParts, List.cons.injEq, true_and, and_true] at h
      obtain ⟨hs, hd, hu⟩ := h
      rw [ipText_inj hs, ipText_inj hd, Subtype.ext hu]

theorem preParts_inj {i j : PacketId} (h : i.preParts = j.preParts) : i = j := by
  cases i with
  | numbered f m =>
    cases j with
    | numbered g n =>
      have e : f.dataParts m = g.dataParts n := by
        simp only [preParts, Flow.preParts, List.cons.injEq, true_and, and_true] at h
        simp only [Flow.dataParts, h.1, h.2.1, h.2.2]
      exact dataParts_inj (i := numbered f m) (j := numbered g n) e
    | other _ _ _ => exact absurd (show 6 = 5 from congrArg List.length h) (by decide)
  | other s d u =>
    cases j with
    | numbered g n => exact absurd (show 5 = 6 from congrArg List.length h) (by decide)
    | other s' d' u' =>
      simp only [preParts, List.cons.injEq, true_and, and_true] at h
      obtain ⟨hd, hs, hu⟩ := h
      rw [ipText_inj hs, ipText_inj hd, Subtype.ext hu]

theorem dataName_inj {i j : PacketId} (h : i.dataName = j.dataName) : i = j := by
  rw [dataName_eq, dataName_eq] at h
  exact dataParts_inj (Separated.flatMap_cons_inj (fun c hc => (i.plain_dataParts c hc).slash)
    (fun c hc => (j.plain_dataParts c hc).slash) h)

theorem preName_inj {i j : PacketId} (h : i.preName = j.preName) : i = j := by
  rw [preName_eq, preName_eq] at h
  exact preParts_inj (Separated.flatMap_cons_inj (fun c hc => (i.plain_preParts c hc).slash)
    (fun c hc => (j.plain_preParts c hc).slash) h)

theorem interest_inj {i j : PacketId} (h : i.interest = j.interest) : i = j :=
  dataName_inj (congrArg SentInterest.name h)

end PacketId

/-! ## The callbacks -/

section

variable {L : Libs}

theorem components_dataName (hL : L.Lawful) (i : PacketId) : L.components (L.ofUri i.dataName) = i.dataParts := by
  rw [i.dataName_eq, hL.components_ofUri _ i.dataParts_ne_nil i.plain_dataParts]

theorem components_preName (hL : L.Lawful) (i : PacketId) : L.components (L.ofUri i.preName) = i.preParts := by
  rw [i.preName_eq, hL.components_ofUri _ i.preParts_ne_nil i.plain_preParts]

theorem split_dataName (hL : L.Lawful) (i : PacketId) :
    L.split (L.toUri (L.ofUri i.dataName)) '/' = [] :: i.dataParts := by
  rw [i.dataName_eq]
  exact hL.split_ofUri i.dataParts_ne_nil i.plain_dataParts

theorem split_preName (hL : L.Lawful) (i : PacketId) :
    L.split (L.toUri (L.ofUri i.preName)) '/' = [] :: i.preParts := by
  rw [i.preName_eq]
  exact hL.split_ofUri i.preParts_ne_nil i.plain_preParts

/-- The Data of a packet goes to the packet's destination. -/
theorem onData_id (hL : L.Lawful) (i : PacketId) (content : List Byte) (g : Gateway) :
    onData L (L.ofUri i.dataName) content false i.isTCP g =
      .ok ⟨⟩ { g with rawSocket := g.rawSocket ++ [(content, ipText i.dstIp)] } := by
  apply dealOnData_ok
  rw [split_dataName hL]
  cases i <;> rfl

/-- So it is with the answer to the packet's formal Interest. -/
theorem after_onData_interest (hL : L.Lawful) (i : PacketId) (content : List Byte) (g : Gateway) :
    after (onData L (L.ofUri i.interest.name) content i.interest.isPre i.interest.isTCP) g =
      { g with rawSocket := g.rawSocket ++ [(content, ipText i.dstIp)] } :=
  after_of_ok (onData_id hL i content g)

/-- A number that `lexical_cast` reads back from a name. -/
def PacketId.Low : PacketId → Prop
  | .numbered _ n => n.toNat < 2 ^ 31
  | .other .. => True

def PacketId.call (i : PacketId) : FaceCall := .expressInterest i.dataName false i.isTCP

/-- All that a pre-request asks for are packets. -/
theorem exists_packets {f : Flow} {n : BitVec 32} {names : List Text}
    (h : ∀ x ∈ names, x = (f.request n).1 ∨ x ∈ (f.request n).2) :
    ∃ asked : List (BitVec 32), names = asked.map f.dataName := by
  have hr : names ∈ Set.range (List.map f.dataName) := by
    rw [Set.range_list_map]
    intro x hx
    rcases h x hx with rfl | hx
    · exact ⟨n, rfl⟩
    · obtain ⟨k, -, rfl⟩ := List.mem_map.mp hx
      exact ⟨_, rfl⟩
  obtain ⟨asked, rfl⟩ := hr
  exact ⟨asked, rfl⟩

/-- What a callback does that asks for the packet `i`, and perhaps for others. -/
def Asks (i : PacketId) (g g' : Gateway) : Prop :=
  ∃ asked : List PacketId, i ∈ asked ∧ g'.face = g.face ++ asked.map PacketId.call ∧ g'.rawSocket = g.rawSocket

theorem onInterest_numbered (hL : L.Lawful) (f : Flow) {n : BitVec 32} (hn : n.toNat < 2 ^ 31) (g : Gateway) :
    ∃ g', onInterest L (L.ofUri (f.preName n)) true true g = .ok ⟨⟩ g' ∧ Asks (.numbered f n) g g' := by
  have h := dealOnInterest_pre hL f hn g ⟨g.prefixGuestTable.s, []⟩
  rw [Gateway.withWindow_self] at h
  have hmem : (f.request n).1 ∈ (Window.request ⟨g.prefixGuestTable.s, []⟩ (f.request n)).expressed :=
    (Window.expressed_request _ _).subset (List.mem_append_right _ List.mem_cons_self)
  have hall : ∀ x ∈ (Window.request ⟨g.prefixGuestTable.s, []⟩ (f.request n)).expressed,
      x = (f.request n).1 ∨ x ∈ (f.request n).2 := fun x hx =>
    (Window.mem_of_mem_expressed_request hx).resolve_left List.not_mem_nil
  generalize Window.request ⟨g.prefixGuestTable.s, []⟩ (f.request n) = w at h hmem hall
  obtain ⟨asked, ha⟩ := exists_packets hall
  refine ⟨g.withWindow w, h, asked.map (.numbered f), ?_, ?_, rfl⟩
  · rw [ha] at hmem
    obtain ⟨m, hm, e⟩ := List.mem_map.mp hmem
    rw [← (Flow.dataName_inj e).2]
    exact List.mem_map_of_mem hm
  · simp only [Gateway.withWindow, ha, List.map_map]
    rfl

theorem onInterest_other (hL : L.Lawful) (srcIp dstIp : BitVec 32) (uuid : Uuid) (g : Gateway) :
    ∃ g', onInterest L (L.ofUri (PacketId.other srcIp dstIp uuid).preName) true false g = .ok ⟨⟩ g' ∧
      Asks (.other srcIp dstIp uuid) g g' := by
  have hs := split_preName hL (.other srcIp dstIp uuid)
  have h := dealOnOtherPreRequest_ok (L := L) (by rw [hs]; rfl) (by rw [hs]; rfl) (by rw [hs]; rfl) g
  exact ⟨_, h, [.other srcIp dstIp uuid], List.mem_cons_self, rfl, rfl⟩

/-- A pre-request, handled with its own flags, asks for its packet. -/
theorem onInterest_pre (hL : L.Lawful) {i : PacketId} (hi : i.Low) (g : Gateway) :
    ∃ g', onInterest L (L.ofUri i.preName) true i.isTCP g = .ok ⟨⟩ g' ∧ Asks i g g' := by
  cases i with
  | numbered f n => exact onInterest_numbered hL f hi g
  | other srcIp dstIp uuid => exact onInterest_other hL srcIp dstIp uuid g

/-! ## A pre-request arrives -/

/-- A filter for pre-requests that matches a pre-request is one for its kind. -/
theorem isTCP_of_match (hL : L.Lawful) {registerIp : List Text} (hip : ∀ ip ∈ registerIp, PlainComponent ip)
    {f : InterestFilter L} (hf : f ∈ start L registerIp) {i : PacketId}
    (hm : L.isPrefixOf f.registerPrefix (L.ofUri i.preName)) (hp : f.isPre) : f.isTCP = i.isTCP := by
  rw [start_eq] at hf
  obtain ⟨ip, hi, hf⟩ := List.mem_flatMap.mp hf
  obtain ⟨e1, -, e3, -⟩ := components_filters hL (hip ip hi)
  have hpt : cPre ≠ cTCP := by decide
  simp only [filters, List.mem_cons, List.not_mem_nil, or_false] at hf
  rw [Libs.isPrefixOf, components_preName hL, List.isPrefixOf_iff_prefix] at hm
  rcases hf with rfl | rfl | rfl | rfl
  · rw [e1] at hm
    cases i with
    | numbered f n => exact absurd (List.cons_prefix_cons.mp (List.cons_prefix_cons.mp hm).2).1 hpt
    | other _ _ _ => rfl
  · cases hp
  · rw [e3] at hm
    cases i with
    | numbered f n => rfl
    | other _ _ _ => exact absurd (List.cons_prefix_cons.mp (List.cons_prefix_cons.mp hm).2).1 hpt.symm
  · cases hp

/-- The callbacks for a pre-request, of filters for its kind. -/
theorem onInterest_filters (hL : L.Lawful) {i : PacketId} (hi : i.Low) (fs : List (InterestFilter L))
    (hfs : ∀ f ∈ fs, f.isPre → f.isTCP = i.isTCP) (g : Gateway) :
    ∃ (g' : Gateway) (asked : List PacketId),
      (forM fs fun f => onInterest L (L.ofUri i.preName) f.isPre f.isTCP) g = .ok ⟨⟩ g' ∧
      g'.face = g.face ++ asked.map PacketId.call ∧ g'.rawSocket = g.rawSocket ∧ ((∃ f ∈ fs, f.isPre) → i ∈ asked) := by
  induction fs generalizing g with
  | nil => exact ⟨g, [], rfl, (List.append_nil _).symm, rfl, fun ⟨_, h, _⟩ => absurd h List.not_mem_nil⟩
  | cons f fs ih =>
    obtain ⟨hf, hfs⟩ := List.forall_mem_cons.mp hfs
    rw [List.forM_cons]
    by_cases hp : f.isPre
    · obtain ⟨g₁, h₁, is, his, hface, hraw⟩ := onInterest_pre hL hi g
      obtain ⟨g₂, js, h₂, hface', hraw', -⟩ := ih hfs g₁
      refine ⟨g₂, is ++ js, ?_, ?_, hraw'.trans hraw, fun _ => List.mem_append_left _ his⟩
      · rw [hp, hf hp, bind_of_ok h₁]
        exact h₂
      · rw [hface', hface, List.map_append, List.append_assoc]
    · obtain ⟨g₂, js, h₂, hface, hraw, hjs⟩ := ih hfs g
      have h₁ : onInterest L (L.ofUri i.preName) f.isPre f.isTCP g = .ok ⟨⟩ g := by
        rw [Bool.not_eq_true] at hp
        rw [hp]
        rfl
      refine ⟨g₂, js, ?_, hface, hraw, fun ⟨f', hf', hp'⟩ => hjs ⟨f', ?_, hp'⟩⟩
      · rw [bind_of_ok h₁]
        exact h₂
      · apply (List.mem_cons.mp hf').resolve_left
        intro e
        exact hp (e ▸ hp')

theorem processInterest_pre (hL : L.Lawful) {registerIp : List Text} (hip : ∀ ip ∈ registerIp, PlainComponent ip)
    {i : PacketId} (hi : i.Low)
    (hf : ∃ f ∈ start L registerIp, f.isPre ∧ L.isPrefixOf f.registerPrefix (L.ofUri i.preName)) (g : Gateway) :
    ∃ g', processInterest L registerIp (L.ofUri i.preName) g = .ok ⟨⟩ g' ∧ Asks i g g' := by
  obtain ⟨f, hs, hp, hm⟩ := hf
  obtain ⟨g', asked, h, hface, hraw, hasked⟩ := onInterest_filters hL hi
    ((start L registerIp).filter fun f => L.isPrefixOf f.registerPrefix (L.ofUri i.preName))
    (fun f hf => isTCP_of_match hL hip (List.mem_filter.mp hf).1 (List.mem_filter.mp hf).2) g
  exact ⟨g', h, asked, hasked ⟨f, List.mem_filter.mpr ⟨hs, hm⟩, hp⟩, hface, hraw⟩

end

end IpNdn
