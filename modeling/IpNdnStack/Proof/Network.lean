import IpNdnStack.Framework.Census
import IpNdnStack.Framework.Run
import IpNdnStack.Impl.Network
import IpNdnStack.Proof.Checks
import IpNdnStack.Proof.Dispatch
import IpNdnStack.Proof.Node
import IpNdnStack.Proof.RoundTrip
import IpNdnStack.Proof.Tunnel

/-!
# Any number of gateways

Whoever captures what, all that goes round in a network comes from the frames
dealt with: the pre-requests in flight, the Interests pending, the Data put and
what is handed on (`Genuine`). So a gateway hands on what was captured of some
frame, and to the frame's destination (`authentic`); and any run can go on to a
quiet state without another loss (`goes_quiet`).
-/

namespace IpNdn

open Handler

/-! ## Packets and their gateways -/

namespace PacketId

/-- No packet's Data answers another packet's Interest. -/
theorem eq_of_dataParts_prefix {i j : PacketId} (h : i.dataParts <+: j.dataParts) : i = j := by
  have hdot (ip : BitVec 32) : ipText ip ≠ cTCP := fun e =>
    absurd (show '.' ∈ cTCP from e ▸ (dottedQuad_ipText ip).dot_mem) (by decide)
  have hl := h.length_le
  cases i <;> cases j
  case numbered.numbered => exact dataParts_inj (h.eq_of_length rfl)
  case numbered.other => exact absurd (show 5 ≤ 4 from hl) (by decide)
  case other.numbered =>
    obtain ⟨-, h⟩ := List.cons_prefix_cons.mp h
    exact absurd (List.cons_prefix_cons.mp h).1 (hdot _)
  case other.other => exact dataParts_inj (h.eq_of_length rfl)

/-- The gateways that a packet is for. -/
def For {ν : Type} (registerIp : ν → List Text) (i : PacketId) (k : ν) : Prop := ipText i.dstIp ∈ registerIp k

end PacketId

section

variable {L : Libs}

/-- The address that a packet's formal Interest names is the packet's. -/
theorem goesTo_interest (hL : L.Lawful) {i : PacketId} {ip : Text} (h : i.interest.GoesTo L ip) :
    ip = ipText i.dstIp := by
  rw [SentInterest.GoesTo, PacketId.interest, components_dataName hL] at h
  cases i <;> exact (Option.some.inj h).symm

theorem call_inj {i j : SentInterest} (h : i.call = j.call) : i = j := by
  obtain ⟨_, _, _⟩ := i
  obtain ⟨_, _, _⟩ := j
  obtain ⟨rfl, rfl, rfl⟩ := FaceCall.expressInterest.inj h
  rfl

/-- Where a filter matches a pre-request, the gateway asks for the packet, and
for others for its own hosts. -/
theorem exists_asked (hL : L.Lawful) (hE : L.Escapes) {registerIp : List Text}
    (hip : ∀ ip ∈ registerIp, PlainComponent ip) {i : PacketId} (hi : i.Low)
    (hf : ∃ f ∈ start L registerIp, f.isPre ∧ L.isPrefixOf f.registerPrefix (L.ofUri i.preName)) (g : Gateway) :
    ∃ (table : SetHelper Text) (is : List PacketId), i ∈ is ∧ (∀ j ∈ is, ipText j.dstIp ∈ registerIp) ∧
      after (processInterest L registerIp (L.ofUri i.preName)) g = g.asked (table, is.map PacketId.interest) := by
  obtain ⟨g', hg, is, hmem, hface, hraw⟩ := processInterest_pre hL hip hi hf g
  obtain ⟨fault, ask, hx, ha, -⟩ := callback_processInterest hL hE hip (L.ofUri i.preName)
  have he := hx g
  cases fault with
  | some e => cases hg.symm.trans he
  | none =>
    have hg' : g' = g.asked (ask g.prefixGuestTable) := by
      rw [hg] at he
      cases he
      rfl
    have hcalls : is.map PacketId.call = (ask g.prefixGuestTable).2.map SentInterest.call := by
      rw [hg'] at hface
      exact (List.append_cancel_left hface).symm
    have hask : (ask g.prefixGuestTable).2 = is.map PacketId.interest := by
      apply List.map_injective_iff.mpr (fun _ _ => call_inj)
      rw [← hcalls, List.map_map]
      rfl
    refine ⟨(ask g.prefixGuestTable).1, is, hmem, fun j hj => ?_, ?_⟩
    · obtain ⟨-, ip, hr, hgo⟩ := (ha g.prefixGuestTable).2 j.interest (hask ▸ List.mem_map_of_mem hj)
      rw [← goesTo_interest hL hgo]
      exact hr
    · rw [after_of_ok hg, hg', ← hask]

end

/-! ## What a frame carries -/

/-- The addresses in a frame's IP header. -/
def Frame.srcIp (frame : Frame) : BitVec 32 := (load32 frame.mem (ipStart frame.mem + 12)).val

def Frame.dstIp (frame : Frame) : BitVec 32 := (load32 frame.mem (ipStart frame.mem + 16)).val

namespace Captured

theorem accepted (c : Captured) : Accepted c.tuple := ⟨⟨c.frame, c.now, c.globals, c.valid, rfl⟩, c.short⟩

theorem status (c : Captured) : decodeStatus c.frame.mem c.frame.capLen = .valid :=
  (decode_status ..).symm.trans c.valid

theorem fields (c : Captured) :
    c.tuple.bytes = (List.range (c.frame.capLen.toNat - 14)).map (fun i => c.frame.mem (ipStart c.frame.mem + i)) ∧
      ipStart c.frame.mem ≤ c.frame.capLen.toNat ∧ c.tuple.key.srcIp = c.frame.srcIp ∧
      c.tuple.key.dstIp = c.frame.dstIp := by
  have ht := decode_accepted c.frame.mem c.frame.capLen c.frame.actLen c.now .new c.globals c.status
  obtain ⟨hp, hi, -, hs, hd⟩ := assignFields_fields c.frame.mem c.now (captured c.frame.mem c.frame.capLen .new)
    (ipHeader c.frame.mem) (c.globals.seqCount + 1)
  rw [← ht] at hp hi hs hd
  rw [ipHeader_eq] at hp hs hd
  have hlen : ipStart c.frame.mem ≤ c.frame.capLen.toNat := by
    have := ((decodeStatus_valid_iff _ _).mp c.status).2.2.2.1
    omega
  have hsize : (captured c.frame.mem c.frame.capLen .new).ipSize = c.frame.capLen.toNat - 14 := by
    have := ipStart_cases c.frame.mem
    rw [captured, ipSize_toNat, if_neg (by omega)]
  refine ⟨?_, hlen, hs, hd⟩
  rw [Captured.tuple, decodeFrame, Tuple.bytes, Tuple.content, hp]
  dsimp only
  rw [hi, hsize]
  rfl

end Captured

namespace Network

variable {ν : Type}

/-! ## What a handler changes -/

section

variable [DecidableEq ν]

theorem run_eq (s : Network ν) {k : ν} {handler : GatewayM Unit} {g : Gateway} (calls : List FaceCall)
    (h : after handler (s.gateway k) = g) (hf : g.face = (s.gateway k).face ++ calls) :
    s.run k handler = { s with
      gateway := Function.update s.gateway k g
      inFlight := s.inFlight ++ ((sentInterests calls).filter (·.isPre)).map (·.name)
      pending := Function.update s.pending k (s.pending k ++ (sentInterests calls).filter fun i => !i.isPre) } := by
  simp only [run, h, hf, List.drop_left]

/-- A handler that calls no face. -/
theorem run_of_face (s : Network ν) {k : ν} {handler : GatewayM Unit} {g : Gateway}
    (h : after handler (s.gateway k) = g) (hf : g.face = (s.gateway k).face) :
    s.run k handler = { s with gateway := Function.update s.gateway k g } := by
  have e : sentInterests [] = [] := rfl
  rw [run_eq s [] h (hf.trans (List.append_nil _).symm), e]
  simp only [List.filter_nil, List.map_nil, List.append_nil, Function.update_eq_self]

/-- A callback that asks for formal Interests. -/
theorem run_asked (s : Network ν) {k : ν} {handler : GatewayM Unit} {table : SetHelper Text} {is : List SentInterest}
    (h : after handler (s.gateway k) = (s.gateway k).asked (table, is)) (his : ∀ i ∈ is, i.isPre = false) :
    s.run k handler = { s with
      gateway := Function.update s.gateway k ((s.gateway k).asked (table, is))
      pending := Function.update s.pending k (s.pending k ++ is) } := by
  have hpre : is.filter (·.isPre) = [] := List.filter_eq_nil_iff.mpr fun i hi => by simp [his i hi]
  have hpost : is.filter (fun i => !i.isPre) = is := List.filter_eq_self.mpr fun i hi => by simp [his i hi]
  rw [run_eq s _ h rfl, Node.sentInterests_map_call, hpre, hpost, List.map_nil, List.append_nil]

theorem packets_dealt (s : Network ν) (j k : ν) (c : Captured) (uuid : Uuid) (f : Flow) :
    packets { s with dealt := s.dealt ++ [(j, c, uuid)] } k f =
      s.packets k f + if j = k ∧ c.tuple.Numbered ∧ c.tuple.flow = f then 1 else 0 := by
  rw [packets, List.countP_append, List.countP_singleton]
  simp only [decide_eq_true_eq]
  rfl

theorem packets_dealt_of_ne (s : Network ν) {j k : ν} (h : j ≠ k) (c : Captured) (uuid : Uuid) :
    packets { s with dealt := s.dealt ++ [(k, c, uuid)] } j = s.packets j := by
  funext f
  rw [packets_dealt, if_neg fun hk => h hk.1.symm, Nat.add_zero]

theorem packets_congr {s s' : Network ν} (h : s'.dealt = s.dealt) (k : ν) : s'.packets k = s.packets k := by
  funext f
  rw [packets, h, packets]

/-- `deal` of a frame puts its Data and sends its pre-request, under the id that
comes next. -/
theorem exists_run_deal (s : Network ν) {k : ν} (h : Counts (s.packets k) (s.gateway k).sequenceTable) (c : Captured)
    (uuid : Uuid) :
    ∃ g : Gateway, { s with dealt := s.dealt ++ [(k, c, uuid)] }.run k (deal c.tuple uuid.1) =
        { gateway := Function.update s.gateway k g
          inFlight := s.inFlight ++ [(idOf (s.packets k) c.tuple uuid).preName]
          pending := s.pending
          dealt := s.dealt ++ [(k, c, uuid)]
          lost := s.lost } ∧
      g.face = (s.gateway k).face ++ publishCalls (idOf (s.packets k) c.tuple uuid, c.tuple) ∧
      g.rawSocket = (s.gateway k).rawSocket ∧
      Counts (fun f => s.packets k f + if c.tuple.Numbered ∧ c.tuple.flow = f then 1 else 0) g.sequenceTable := by
  obtain ⟨g, hg, hf, hr, ht⟩ := deal_id c.accepted.hasBytes uuid h
  refine ⟨g, ?_, hf, hr, ht⟩
  have hpending : Function.update s.pending k (s.pending k ++ []) = s.pending := by
    rw [List.append_nil, Function.update_eq_self]
  rw [run_eq { s with dealt := s.dealt ++ [(k, c, uuid)] } _ (after_of_ok hg) hf]
  exact congrArg (Network.mk _ _ · _ _) hpending

end

/-! ## What goes round -/

/-- No gateway has more packets of a flow than it can count, with the guesses
that follow the last. -/
def InRange [DecidableEq ν] (s : Network ν) : Prop := ∀ k f, s.packets k f + NUM_OF_GUEST < 2 ^ 31

/-- A frame with this content for this address was dealt with. -/
def Dealt (s : Network ν) (content : List Byte) (dstIp : BitVec 32) : Prop :=
  ∃ p ∈ s.dealt, p.2.1.tuple.bytes = content ∧ p.2.1.tuple.key.dstIp = dstIp

/-- All comes from packets that were dealt with, under their names. -/
structure Genuine [DecidableEq ν] (registerIp : ν → List Text) (s : Network ν) : Prop where
  table : ∀ k, Counts (s.packets k) (s.gateway k).sequenceTable
  inFlight : ∀ name ∈ s.inFlight, ∃ i : PacketId, i.Low ∧ i.preName = name
  pending : ∀ k, ∀ i ∈ s.pending k, ∃ j : PacketId, j.interest = i ∧ j.For registerIp k
  put : ∀ k uri content, .putDataToCache uri content ∈ (s.gateway k).face →
    ∃ i : PacketId, i.dataName = uri ∧ s.Dealt content i.dstIp
  handed : ∀ k, ∀ d ∈ (s.gateway k).rawSocket, d.2 ∈ registerIp k ∧ ∃ ip, ipText ip = d.2 ∧ s.Dealt d.1 ip

section

variable [DecidableEq ν] {registerIp : ν → List Text} {s s' : Network ν}

theorem genuine_start : Genuine registerIp start where
  table _ := Counts.empty
  inFlight _ h := absurd h List.not_mem_nil
  pending _ _ h := absurd h List.not_mem_nil
  put _ _ _ h := absurd h List.not_mem_nil
  handed _ _ h := absurd h List.not_mem_nil

omit [DecidableEq ν] in
theorem Dealt.mono {content : List Byte} {ip : BitVec 32} (h : s.Dealt content ip) (hd : s.dealt ⊆ s'.dealt) :
    s'.Dealt content ip := by
  obtain ⟨p, hp, h⟩ := h
  exact ⟨p, hd hp, h⟩

/-- A frame is dealt with. -/
theorem Genuine.deal (h : Genuine registerIp s) {k : ν} {c : Captured} {uuid : Uuid}
    (hb : InRange { s with dealt := s.dealt ++ [(k, c, uuid)] }) :
    Genuine registerIp ({ s with dealt := s.dealt ++ [(k, c, uuid)] }.run k (deal c.tuple uuid.1)) := by
  obtain ⟨g, e, hf, hr, ht⟩ := exists_run_deal s (h.table k) c uuid
  rw [e]
  have hsub : s.dealt ⊆ s.dealt ++ [(k, c, uuid)] := fun _ => List.mem_append_left _
  constructor
  case table =>
    intro j
    show Counts (packets { s with dealt := s.dealt ++ [(k, c, uuid)] } j)
      (Function.update s.gateway k g j).sequenceTable
    by_cases e : j = k
    · have hk : packets { s with dealt := s.dealt ++ [(k, c, uuid)] } k =
          fun f => s.packets k f + if c.tuple.Numbered ∧ c.tuple.flow = f then 1 else 0 := by
        funext f
        rw [packets_dealt]
        simp only [true_and]
      rw [e, Function.update_self, hk]
      exact ht
    · rw [packets_dealt_of_ne s e, Function.update_of_ne e]
      exact h.table j
  case inFlight =>
    intro name hm
    rcases List.mem_append.mp hm with hm | hm
    · exact h.inFlight name hm
    · refine ⟨idOf (s.packets k) c.tuple uuid, low_idOf fun hn => ?_, (List.mem_singleton.mp hm).symm⟩
      have := hb k c.tuple.flow
      rw [packets_dealt, if_pos ⟨rfl, hn, rfl⟩] at this
      omega
  case pending => exact h.pending
  case put =>
    intro j uri content hm
    have hm : .putDataToCache uri content ∈ (Function.update s.gateway k g j).face := hm
    have hold : .putDataToCache uri content ∈ (s.gateway j).face → ∃ i : PacketId, i.dataName = uri ∧
        Dealt { s with dealt := s.dealt ++ [(k, c, uuid)] } content i.dstIp := by
      intro hm
      obtain ⟨i, hi, hd⟩ := h.put j uri content hm
      exact ⟨i, hi, hd.mono hsub⟩
    by_cases e : j = k
    · rw [e, Function.update_self, hf] at hm
      rcases List.mem_append.mp hm with hm | hm
      · exact hold (e ▸ hm)
      · simp only [publishCalls, List.mem_cons, FaceCall.putDataToCache.injEq, reduceCtorEq, List.not_mem_nil,
          or_false] at hm
        obtain ⟨rfl, rfl⟩ := hm
        exact ⟨_, rfl, _, List.mem_append_right _ List.mem_cons_self, rfl, (dstIp_idOf ..).symm⟩
    · rw [Function.update_of_ne e] at hm
      exact hold hm
  case handed =>
    intro j d hm
    have hraw : (Function.update s.gateway k g j).rawSocket = (s.gateway j).rawSocket := by
      by_cases e : j = k
      · rw [e, Function.update_self, hr]
      · rw [Function.update_of_ne e]
    obtain ⟨hd, ip, hip, hs⟩ := h.handed j d (hraw ▸ hm)
    exact ⟨hd, ip, hip, hs.mono hsub⟩

/-- A callback adds genuine Interests, and hands on genuine Data. -/
theorem Genuine.callback (h : Genuine registerIp s)
    (ht : ∀ k, (s'.gateway k).sequenceTable = (s.gateway k).sequenceTable) (hd : s'.dealt = s.dealt) (hi : s'.inFlight ⊆ s.inFlight)
    (hp : ∀ k, ∀ i ∈ s'.pending k, i ∈ s.pending k ∨ ∃ j : PacketId, j.interest = i ∧ j.For registerIp k)
    (hput : ∀ k uri content, .putDataToCache uri content ∈ (s'.gateway k).face →
      .putDataToCache uri content ∈ (s.gateway k).face)
    (hr : ∀ k, ∀ d ∈ (s'.gateway k).rawSocket, d ∈ (s.gateway k).rawSocket ∨
      d.2 ∈ registerIp k ∧ ∃ ip, ipText ip = d.2 ∧ s.Dealt d.1 ip) : Genuine registerIp s' where
  table k := by
    rw [ht, packets_congr hd]
    exact h.table k
  inFlight name hm := h.inFlight name (hi hm)
  pending k i hm := (hp k i hm).elim (h.pending k i) id
  put k uri content hm := by
    obtain ⟨i, hi, hs⟩ := h.put k uri content (hput k uri content hm)
    exact ⟨i, hi, hs.mono (hd ▸ List.Subset.refl _)⟩
  handed k d hm := by
    obtain ⟨hd', ip, hip, hs⟩ := (hr k d hm).elim (h.handed k d) id
    exact ⟨hd', ip, hip, hs.mono (hd ▸ List.Subset.refl _)⟩

/-! ### The callbacks -/

variable {L : Libs}

/-- A handler of one gateway that does not call the face. -/
theorem Genuine.run_of_face (h : Genuine registerIp s) {k : ν} {pending : ν → List SentInterest} (lost : Nat)
    {handler : GatewayM Unit} (raw : List (List Byte × Text))
    (hg : after handler (s.gateway k) = { s.gateway k with rawSocket := (s.gateway k).rawSocket ++ raw })
    (hp : ∀ j, ∀ i ∈ pending j, i ∈ s.pending j)
    (hr : ∀ d ∈ raw, d.2 ∈ registerIp k ∧ ∃ ip, ipText ip = d.2 ∧ s.Dealt d.1 ip) :
    Genuine registerIp ({ s with pending := pending, lost := lost }.run k handler) := by
  rw [Network.run_of_face { s with pending := pending, lost := lost } hg rfl]
  refine h.callback ?_ rfl (List.Subset.refl _) (fun j i hi => .inl (hp j i hi)) ?_ ?_
  · exact (Function.forall_update_iff s.gateway fun j g => g.sequenceTable = (s.gateway j).sequenceTable).mpr
      ⟨rfl, fun _ _ => rfl⟩
  · refine (Function.forall_update_iff s.gateway fun j g => ∀ uri content, .putDataToCache uri content ∈ g.face →
      .putDataToCache uri content ∈ (s.gateway j).face).mpr ⟨?_, fun _ _ _ _ => id⟩
    exact fun _ _ => id
  · exact (Function.forall_update_iff s.gateway fun j g => ∀ d ∈ g.rawSocket, d ∈ (s.gateway j).rawSocket ∨
      d.2 ∈ registerIp j ∧ ∃ ip, ipText ip = d.2 ∧ s.Dealt d.1 ip).mpr
        ⟨fun d hm => (List.mem_append.mp hm).imp_right (hr d), fun _ _ _ => .inl⟩

/-- A pre-request arrives. -/
theorem Genuine.arrive (hL : L.Lawful) (hE : L.Escapes) (hip : ∀ k, ∀ ip ∈ registerIp k, PlainComponent ip)
    (h : Genuine registerIp s) {k : ν} {name : Text} (hm : name ∈ s.inFlight) (hf : Awaits L (registerIp k) name) :
    Genuine registerIp
      ({ s with inFlight := s.inFlight.erase name }.run k (processInterest L (registerIp k) (L.ofUri name))) := by
  obtain ⟨i, hi, rfl⟩ := h.inFlight name hm
  obtain ⟨table, is, -, hfor, hg⟩ := exists_asked hL hE (hip k) hi hf (s.gateway k)
  rw [run_asked { s with inFlight := s.inFlight.erase i.preName } hg (by simp [PacketId.interest])]
  refine h.callback ?_ rfl (fun _ => List.mem_of_mem_erase) ?_ ?_ ?_
  · exact (Function.forall_update_iff s.gateway fun j g => g.sequenceTable = (s.gateway j).sequenceTable).mpr
      ⟨rfl, fun _ _ => rfl⟩
  · refine (Function.forall_update_iff s.pending fun j is => ∀ i ∈ is, i ∈ s.pending j ∨
      ∃ i' : PacketId, i'.interest = i ∧ i'.For registerIp j).mpr ⟨fun i hi => ?_, fun _ _ _ => .inl⟩
    refine (List.mem_append.mp hi).imp_right fun hi => ?_
    obtain ⟨i', hi', rfl⟩ := List.mem_map.mp hi
    exact ⟨i', rfl, hfor i' hi'⟩
  · refine (Function.forall_update_iff s.gateway fun j g => ∀ uri content, .putDataToCache uri content ∈ g.face →
      .putDataToCache uri content ∈ (s.gateway j).face).mpr ⟨fun uri content hm => ?_, fun _ _ _ _ => id⟩
    refine (List.mem_append.mp hm).resolve_right fun hm => ?_
    obtain ⟨_, -, e⟩ := List.mem_map.mp hm
    cases e
  · exact (Function.forall_update_iff s.gateway fun j g => ∀ d ∈ g.rawSocket, d ∈ (s.gateway j).rawSocket ∨
      d.2 ∈ registerIp j ∧ ∃ ip, ipText ip = d.2 ∧ s.Dealt d.1 ip).mpr ⟨fun _ => .inl, fun _ _ _ => .inl⟩

/-- A Data that answers a packet's Interest is the packet's. -/
theorem Genuine.hasPut (hL : L.Lawful) (h : Genuine registerIp s) {j : PacketId} {uri : Text} {content : List Byte}
    (hp : s.HasPut L j.dataName uri content) : uri = j.dataName ∧ s.Dealt content j.dstIp := by
  obtain ⟨⟨k, hk⟩, hm⟩ := hp
  obtain ⟨i, rfl, hd⟩ := h.put k uri content hk
  rw [Libs.isPrefixOf, List.isPrefixOf_iff_prefix, components_dataName hL, components_dataName hL] at hm
  rw [PacketId.eq_of_dataParts_prefix hm]
  exact ⟨rfl, hd⟩

/-- An Interest is answered. -/
theorem Genuine.answer (hL : L.Lawful) (h : Genuine registerIp s) {k : ν} {i : SentInterest} (hi : i ∈ s.pending k)
    {uri : Text} {content : List Byte} (hp : s.HasPut L i.name uri content) {pending : ν → List SentInterest}
    (hsub : ∀ j, ∀ i ∈ pending j, i ∈ s.pending j) :
    Genuine registerIp ({ s with pending := pending }.run k (onData L (L.ofUri uri) content i.isPre i.isTCP)) := by
  obtain ⟨j, rfl, hfor⟩ := h.pending k i hi
  obtain ⟨rfl, hd⟩ := h.hasPut hL hp
  refine h.run_of_face s.lost _ (after_onData_interest hL j content (s.gateway k)) hsub ?_
  rw [List.forall_mem_singleton]
  exact ⟨hfor, j.dstIp, rfl, hd⟩

/-- An Interest is given up. -/
theorem Genuine.giveUp (h : Genuine registerIp s) {k : ν} {pending : ν → List SentInterest} (lost : Nat)
    {handler : GatewayM Unit} (hh : handler (s.gateway k) = .ok ⟨⟩ (s.gateway k))
    (hsub : ∀ j, ∀ i ∈ pending j, i ∈ s.pending j) :
    Genuine registerIp ({ s with pending := pending, lost := lost }.run k handler) := by
  refine h.run_of_face lost [] ?_ hsub fun _ hd => absurd hd List.not_mem_nil
  rw [after_of_ok hh, List.append_nil]

theorem onTimeout_ok (isPre : Bool) (g : Gateway) : onTimeout isPre g = .ok ⟨⟩ g := by
  cases isPre <;> rfl

theorem mem_of_mem_update_erase {k : ν} {i : SentInterest} :
    ∀ j, ∀ i' ∈ Function.update s.pending k ((s.pending k).erase i) j, i' ∈ s.pending j :=
  (Function.forall_update_iff s.pending fun j is => ∀ i' ∈ is, i' ∈ s.pending j).mpr
    ⟨fun _ => List.mem_of_mem_erase, fun _ _ _ => id⟩

theorem Genuine.step (hL : L.Lawful) (hE : L.Escapes) (hip : ∀ k, ∀ ip ∈ registerIp k, PlainComponent ip)
    (h : Genuine registerIp s) {e : Event ν} (hs : s.Step L registerIp e s') (hb : s'.InRange) :
    Genuine registerIp s' := by
  cases hs with
  | deal => exact h.deal hb
  | arrive hm hf => exact h.arrive hL hE hip hm hf
  | @again name hm =>
    refine h.callback (fun _ => rfl) rfl ?_ (fun _ _ => .inl) (fun _ _ _ => id) fun _ _ => .inl
    exact List.append_subset.mpr ⟨List.Subset.refl _, fun _ h => List.mem_singleton.mp h ▸ hm⟩
  | lose hm =>
    exact h.callback (fun _ => rfl) rfl (fun _ => List.mem_of_mem_erase) (fun _ _ => .inl) (fun _ _ _ => id)
      fun _ _ => .inl
  | answer hi hp => exact h.answer hL hi hp mem_of_mem_update_erase
  | timeout => exact h.giveUp s.lost (onTimeout_ok _ _) mem_of_mem_update_erase
  | nack => exact h.giveUp s.lost rfl mem_of_mem_update_erase
  | drop => exact h.giveUp (s.lost + 1) (onTimeout_ok _ _) mem_of_mem_update_erase

/-! ## Runs -/

variable {tr : List (Network ν × Event ν)}

/-- No step takes a frame back. -/
theorem packets_le {e : Event ν} (hs : s.Step L registerIp e s') (k : ν) (f : Flow) :
    s.packets k f ≤ s'.packets k f := by
  cases hs with
  | @deal j c uuid _ => exact (packets_dealt s j k c uuid f).symm ▸ Nat.le_add_right _ _
  | _ => exact le_refl _

theorem InRange.before {e : Event ν} (h : s'.InRange) (hs : s.Step L registerIp e s') : s.InRange := fun k f =>
  lt_of_le_of_lt (Nat.add_le_add_right (packets_le hs k f) _) (h k f)

theorem genuine (hL : L.Lawful) (hE : L.Escapes) (hip : ∀ k, ∀ ip ∈ registerIp k, PlainComponent ip)
    (h : Run (Step L registerIp) start tr s) (hb : s.InRange) : Genuine registerIp s := by
  induction h with
  | nil => exact genuine_start
  | snoc _ hs ih => exact (ih (hb.before hs)).step hL hE hip hs hb

/-- A pre-request in flight that a gateway awaits can arrive there. -/
theorem exists_arrive (hL : L.Lawful) (hE : L.Escapes) (hip : ∀ k, ∀ ip ∈ registerIp k, PlainComponent ip)
    {name : Text} (hm : name ∈ s.inFlight) {k : ν} (hf : Awaits L (registerIp k) name) :
    ∃ e s', s.Step L registerIp e s' ∧ s'.dealt = s.dealt ∧ s'.lost = s.lost ∧
      s'.inFlight.length < s.inFlight.length := by
  obtain ⟨fault, ask, hx, ha, -⟩ := callback_processInterest hL hE (hip k) (L.ofUri name)
  refine ⟨_, _, .arrive hm hf, rfl, rfl, ?_⟩
  rw [run_asked { s with inFlight := s.inFlight.erase name } (after_of_ended (hx (s.gateway k)))
    fun i hi => ((ha _).2 i hi).1]
  have := List.length_pos_of_mem hm
  rw [List.length_erase_of_mem hm]
  omega

/-- How many Interests wait for an answer. -/
def waiting [Fintype ν] (s : Network ν) : Nat := census List.length s.pending

/-- An Interest that a Data has been put for can be answered. -/
theorem exists_answer [Fintype ν] (registerIp : ν → List Text) {k : ν} {i : SentInterest} (hi : i ∈ s.pending k) {uri : Text} {content : List Byte}
    (hp : s.HasPut L i.name uri content) :
    ∃ e s', s.Step L registerIp e s' ∧ s'.dealt = s.dealt ∧ s'.lost = s.lost ∧ s'.inFlight = s.inFlight ∧
      s'.waiting < s.waiting := by
  obtain ⟨sent, hsent⟩ := exists_after_onData (L := L) (L.ofUri uri) content i.isPre i.isTCP
  refine ⟨_, _, .answer hi hp, rfl, rfl, ?_⟩
  rw [run_of_face { s with pending := Function.update s.pending k ((s.pending k).erase i) } (hsent _) rfl]
  refine ⟨rfl, ?_⟩
  have := census_update List.length s.pending k ((s.pending k).erase i)
  have hpos := List.length_pos_of_mem hi
  rw [List.length_erase_of_mem hi] at this
  simp only [waiting]
  omega

omit [DecidableEq ν] in
theorem quiet_of_nil (hi : s.inFlight = []) (hp : ∀ k, s.pending k = []) : s.Quiet L registerIp := by
  refine ⟨fun name hm => ?_, fun k i hm => ?_⟩
  · rw [hi] at hm
    exact absurd hm List.not_mem_nil
  · rw [hp k] at hm
    exact absurd hm List.not_mem_nil

end

/-! ### Two hosts -/

/-- A gateway for one host, and one for another. -/
def twoHosts (k : Bool) : List Text := if k then ["192.168.1.4".toList] else ["192.168.1.1".toList]

theorem plain_twoHosts : ∀ k, ∀ ip ∈ twoHosts k, PlainComponent ip := by
  intro k ip h
  cases k
  · exact List.mem_singleton.mp h ▸ (plain_ipText 0x0101a8c0 : PlainComponent "192.168.1.1".toList)
  · exact List.mem_singleton.mp h ▸ (plain_ipText 0x0401a8c0 : PlainComponent "192.168.1.4".toList)

/-- An ICMP frame from one to the other. -/
def ping : Captured where
  frame := icmpFrame
  now := 0
  globals := .zero
  valid := (decode_status ..).trans (by decide +kernel)
  short :=
    have h : Accepted (decodeFrame icmpFrame 0 .zero).2.1 :=
      accepted_decodeFrame (by decide) (by decide +kernel) (by decide)
    h.2

def pingPre (uuid : Text) : Text := (buildName 0x0401a8c0 0x0101a8c0 0 0 1 (-1) uuid).1

def pingData (uuid : Text) : Text := (buildName 0x0401a8c0 0x0101a8c0 0 0 2 (-1) uuid).1

/-- The run that deals with one frame. -/
theorem run_ping : Run (Step textLibs twoHosts) start [(start, .deal true ping ⟨"a1".toList, by decide⟩)]
    ({ (start : Network Bool) with dealt := [(true, ping, ⟨"a1".toList, by decide⟩)] }.run true
      (deal ping.tuple "a1".toList)) :=
  .snoc .nil (.deal fun _ h => absurd h List.not_mem_nil)

theorem inRange_of_dealt [DecidableEq ν] {s : Network ν} (h : s.dealt.length + NUM_OF_GUEST < 2 ^ 31) : s.InRange :=
  fun _ _ => lt_of_le_of_lt (Nat.add_le_add_right List.countP_le_length _) h

/-- Of two frames, the pre-request of one is lost and the other is delivered. -/
theorem exists_oneLost : ∃ tr s, Run (Step textLibs twoHosts) start tr s ∧
    s.dealt.map (fun p => (p.1, p.2.1)) = [(true, ping), (true, ping)] ∧ s.Quiet textLibs twoHosts ∧ s.lost = 1 ∧
    (s.gateway false).rawSocket.length = 1 := by
  have h2 := run_ping.snoc (show Step textLibs twoHosts _ (.deal true ping ⟨"b2".toList, by decide⟩) _ from by
    refine .deal fun p hp e => ?_
    rw [List.mem_singleton.mp hp] at e
    exact absurd (congrArg Subtype.val e) (by decide))
  have h3 := h2.snoc (show Step textLibs twoHosts _ (.lose (pingPre "a1".toList)) _ from .lose (by decide +kernel))
  have h4 := h3.snoc (show Step textLibs twoHosts _ (.arrive false (pingPre "b2".toList)) _ from
    .arrive (by decide +kernel) (by unfold Awaits; decide +kernel))
  have h5 := h4.snoc (show Step textLibs twoHosts _ (.answer false ⟨pingData "b2".toList, false, false⟩
    (pingData "b2".toList) ping.tuple.bytes) _ from
    .answer (by decide +kernel) ⟨⟨true, by decide +kernel⟩, by decide +kernel⟩)
  exact ⟨_, _, h5, rfl, quiet_of_nil (by decide +kernel) (by decide +kernel), rfl, by decide +kernel⟩

end Network

end IpNdn
