import IpNdnStack.Framework.Exchange
import IpNdnStack.Proof.Network

/-!
# What arrives

Where no address is registered twice (`Apart`) and every host sends under its own
addresses (`OwnHosts`), the gateways of a network are an `Exchange` of tuples
under their `PacketId`s, each for the gateway that its destination is registered
at: every step of the network is one of the exchange (`Simulates.step`), so every
run is a run of the exchange (`exists_exchange`). All packets get to their gateway
but for one for each loss (`delivered_but_lost`), and no two Data have one name
(`names_distinct`).
-/

namespace IpNdn

open Handler

namespace PacketId

def srcIp : PacketId → BitVec 32
  | numbered f _ => f.srcIp
  | other srcIp _ _ => srcIp

/-- The gateways that a packet is from. -/
def From {ν : Type} (registerIp : ν → List Text) (i : PacketId) (k : ν) : Prop := ipText i.srcIp ∈ registerIp k

instance {ν : Type} (registerIp : ν → List Text) (i : PacketId) (k : ν) : Decidable (i.From registerIp k) := by
  unfold From
  infer_instance

end PacketId

namespace Network

variable {ν : Type}

/-! ## What is assumed of the hosts -/

/-- No address is registered at two gateways. -/
def Apart (registerIp : ν → List Text) : Prop := ∀ j k, ∀ ip ∈ registerIp j, ip ∈ registerIp k → j = k

/-- Every frame dealt with came from an address that is registered where it was
captured. No code sees to that. -/
def OwnHosts (registerIp : ν → List Text) (s : Network ν) : Prop :=
  ∀ p ∈ s.dealt, ipText p.2.1.tuple.key.srcIp ∈ registerIp p.1

theorem srcIp_idOf (c : Flow → Nat) (t : Tuple) (uuid : Uuid) : (idOf c t uuid).srcIp = t.key.srcIp := by
  unfold idOf
  split <;> rfl

/-! ## The network as an exchange -/

/-- The publisher's calls of a gateway. -/
def puts (g : Gateway) : List FaceCall := g.face.filter (·.publishes)

/-- What a gateway has handed to its raw socket. -/
def handed (g : Gateway) : List (Option (List Byte) × Text) := g.rawSocket.map fun d => (some d.1, d.2)

/-- The state of a network, by packets: the Data put are the store, the
pre-requests in flight what is announced, the Interests pending what is asked
for, and the calls of the raw sockets what is delivered. -/
structure Simulates [DecidableEq ν] (registerIp : ν → List Text) (s : Network ν) (x : Exchange ν PacketId Tuple) :
    Prop where
  puts : puts ∘ s.gateway = fun k => (x.store.filter (·.1.From registerIp k)).flatMap publishCalls
  handed : handed ∘ s.gateway = List.map (fun p => delivery p.2) ∘ x.delivered
  inFlight : s.inFlight = x.announced.map PacketId.preName
  pending : s.pending = List.map PacketId.interest ∘ x.asked
  dealt : x.store.map (·.2) = s.dealt.map (·.2.1.tuple)
  lost : s.lost = x.lost.length
  packet : ∀ p ∈ x.store, (∃ k, p.1.From registerIp k) ∧ p.1.dstIp = p.2.key.dstIp ∧ p.2.HasBytes
  numbers : ∀ k f n, x.Stored (.numbered f n) → (PacketId.numbered f n).From registerIp k →
    ∃ m ≤ s.packets k f, n = BitVec.ofNat 32 m
  uuids : ∀ srcIp dstIp uuid, x.Stored (.other srcIp dstIp uuid) → ∃ p ∈ s.dealt, p.2.2 = uuid

variable [DecidableEq ν] {registerIp : ν → List Text} {s s' : Network ν} {x : Exchange ν PacketId Tuple}

/-- A function of the gateways that a handler leaves as it is. -/
theorem comp_update_of_eq {α β : Type} {F : α → β} {f : ν → α} {k : ν} {a : α} (h : F a = F (f k)) :
    F ∘ Function.update f k a = F ∘ f := by
  rw [Function.comp_update, h]
  exact Function.update_eq_self k (F ∘ f)

theorem simulates_start : Simulates registerIp start .empty where
  puts := rfl
  handed := rfl
  inFlight := rfl
  pending := rfl
  dealt := rfl
  lost := rfl
  packet _ h := absurd h List.not_mem_nil
  numbers _ _ _ h := by
    obtain ⟨_, h⟩ := h
    exact absurd h List.not_mem_nil
  uuids _ _ _ h := by
    obtain ⟨_, h⟩ := h
    exact absurd h List.not_mem_nil

theorem Simulates.handed_eq (h : Simulates registerIp s x) (k : ν) :
    Network.handed (s.gateway k) = (x.delivered k).map fun p => delivery p.2 := congrFun h.handed k

theorem Simulates.pending_eq (h : Simulates registerIp s x) (k : ν) :
    s.pending k = (x.asked k).map PacketId.interest := congrFun h.pending k

theorem Simulates.mem_inFlight (h : Simulates registerIp s x) {name : Text} (hm : name ∈ s.inFlight) :
    ∃ i ∈ x.announced, i.preName = name := List.mem_map.mp (h.inFlight ▸ hm)

theorem Simulates.mem_pending (h : Simulates registerIp s x) {k : ν} {i : SentInterest} (hi : i ∈ s.pending k) :
    ∃ j ∈ x.asked k, j.interest = i := List.mem_map.mp (h.pending_eq k ▸ hi)

theorem Simulates.puts_eq (h : Simulates registerIp s x) (k : ν) :
    Network.puts (s.gateway k) = (x.store.filter (·.1.From registerIp k)).flatMap publishCalls := congrFun h.puts k

/-! ### A frame is dealt with -/

/-- The id of the next packet is new. -/
theorem Simulates.not_stored (h : Simulates registerIp s x) {k : ν} {c : Captured} {uuid : Uuid}
    (hs : ipText c.tuple.key.srcIp ∈ registerIp k) (hb : c.tuple.Numbered → s.packets k c.tuple.flow + 1 < 2 ^ 31)
    (hu : ∀ p ∈ s.dealt, p.2.2 ≠ uuid) : ¬ x.Stored (idOf (s.packets k) c.tuple uuid) := by
  intro hst
  have hfrom : (idOf (s.packets k) c.tuple uuid).From registerIp k := by
    rw [PacketId.From, srcIp_idOf]
    exact hs
  rcases hi : idOf (s.packets k) c.tuple uuid with ⟨f, n⟩ | ⟨a, b, u⟩
  · obtain ⟨ht, rfl, rfl⟩ := idOf_eq_numbered hi
    rw [hi] at hst hfrom
    obtain ⟨m, hm, e⟩ := h.numbers k _ _ hst hfrom
    have := hb ht
    have := ofNat_inj (by omega) (by omega) e
    omega
  · rw [hi] at hst
    obtain ⟨p, hp, e⟩ := h.uuids _ _ _ hst
    exact hu p hp (e.trans (idOf_eq_other hi).symm)

/-- `deal` of a frame from an own host publishes its tuple. -/
theorem Simulates.deal (h : Simulates registerIp s x) (hg : Genuine registerIp s) (hd : Apart registerIp) {k : ν}
    {c : Captured} {uuid : Uuid} (hs : ipText c.tuple.key.srcIp ∈ registerIp k)
    (hb : InRange { s with dealt := s.dealt ++ [(k, c, uuid)] }) (hu : ∀ p ∈ s.dealt, p.2.2 ≠ uuid) :
    ∃ x', x.Step (PacketId.For registerIp) x' ∧
      Simulates registerIp ({ s with dealt := s.dealt ++ [(k, c, uuid)] }.run k (deal c.tuple uuid.1)) x' := by
  have hnew : ¬ x.Stored (idOf (s.packets k) c.tuple uuid) := by
    refine h.not_stored hs (fun hn => ?_) hu
    have hlt := hb k c.tuple.flow
    rw [packets_dealt, if_pos ⟨rfl, hn, rfl⟩] at hlt
    exact lt_of_le_of_lt (Nat.le_add_right _ _) hlt
  refine ⟨_, .publish hnew c.tuple, ?_⟩
  obtain ⟨g, e, hf, hr, -⟩ := exists_run_deal s (hg.table k) c uuid
  rw [e]
  have hi : (idOf (s.packets k) c.tuple uuid).From registerIp k := by
    rw [PacketId.From, srcIp_idOf]
    exact hs
  have hfrom : ∀ j, (idOf (s.packets k) c.tuple uuid).From registerIp j → j = k := fun j hj => hd j k _ hj hi
  constructor
  case puts =>
    funext j
    simp only [Function.comp_apply]
    rw [Function.update_apply, List.filter_append, List.flatMap_append, ← h.puts_eq]
    split
    · rename_i e
      rw [e, List.filter_singleton, decide_eq_true hi, Network.puts, hf, List.filter_append]
      rfl
    · rename_i e
      rw [List.filter_singleton, decide_eq_false fun hj => e (hfrom j hj)]
      exact (List.append_nil _).symm
  case handed =>
    refine (comp_update_of_eq ?_).trans h.handed
    rw [Network.handed, hr, Network.handed]
  case inFlight =>
    simp only [h.inFlight, List.map_append]
    rfl
  case pending => exact h.pending
  case dealt =>
    simp only [List.map_append, h.dealt]
    rfl
  case lost => exact h.lost
  case packet =>
    intro p hp
    rcases List.mem_append.mp hp with hp | hp
    · exact h.packet p hp
    · rw [List.mem_singleton.mp hp]
      exact ⟨⟨k, hi⟩, dstIp_idOf .., c.accepted.hasBytes⟩
  case numbers =>
    intro j f n hst hj
    show ∃ m ≤ packets { s with dealt := s.dealt ++ [(k, c, uuid)] } j f, n = BitVec.ofNat 32 m
    rw [packets_dealt]
    rcases hst.of_append rfl with hst | e
    · obtain ⟨m, hm, e⟩ := h.numbers j f n hst hj
      exact ⟨m, hm.trans (Nat.le_add_right _ _), e⟩
    · have hk := hfrom j (e ▸ hj)
      obtain ⟨ht, rfl, rfl⟩ := idOf_eq_numbered e.symm
      rw [if_pos ⟨hk.symm, ht, rfl⟩, hk]
      exact ⟨_, le_refl _, rfl⟩
  case uuids =>
    intro a b u hst
    rcases hst.of_append rfl with hst | e
    · obtain ⟨p, hp, e⟩ := h.uuids a b u hst
      exact ⟨p, List.mem_append_left _ hp, e⟩
    · exact ⟨(k, c, uuid), List.mem_append_right _ List.mem_cons_self, idOf_eq_other e.symm⟩

/-! ### The callbacks -/

section

variable {L : Libs}

/-- The Data put are those of the store, and each answers one Interest. -/
theorem Simulates.hasPut_iff (hL : L.Lawful) (h : Simulates registerIp s x) (i : PacketId) (uri : Text)
    (content : List Byte) :
    s.HasPut L i.dataName uri content ↔ uri = i.dataName ∧ ∃ t, (i, t) ∈ x.store ∧ t.bytes = content := by
  have hput (k : ν) : .putDataToCache uri content ∈ (s.gateway k).face ↔
      .putDataToCache uri content ∈ (x.store.filter (·.1.From registerIp k)).flatMap publishCalls := by
    rw [← h.puts_eq, Network.puts, List.mem_filter]
    exact (and_iff_left rfl).symm
  refine ⟨fun ⟨⟨k, hk⟩, hm⟩ => ?_, fun ⟨e, t, ht, hc⟩ => ⟨?_, ?_⟩⟩
  · obtain ⟨⟨j, t⟩, hs, hm'⟩ := List.mem_flatMap.mp ((hput k).mp hk)
    simp only [publishCalls, List.mem_cons, FaceCall.putDataToCache.injEq, reduceCtorEq, List.not_mem_nil,
      or_false] at hm'
    obtain ⟨rfl, hc⟩ := hm'
    rw [Libs.isPrefixOf, List.isPrefixOf_iff_prefix, components_dataName hL, components_dataName hL] at hm
    rw [PacketId.eq_of_dataParts_prefix hm]
    exact ⟨rfl, t, (List.mem_filter.mp hs).1, hc.symm⟩
  · obtain ⟨⟨k, hk⟩, -, -⟩ := h.packet _ ht
    refine ⟨k, (hput k).mpr (List.mem_flatMap.mpr ⟨(i, t), List.mem_filter.mpr ⟨ht, decide_eq_true hk⟩, ?_⟩)⟩
    rw [e, ← hc]
    exact List.mem_cons_self
  · rw [e, Libs.isPrefixOf, List.isPrefixOf_iff_prefix]

/-- A step that leaves the publishers' sides as they are. -/
theorem Simulates.subscriber {x' : Exchange ν PacketId Tuple} (h : Simulates registerIp s x)
    (hp : Network.puts ∘ s'.gateway = Network.puts ∘ s.gateway) (hd : s'.dealt = s.dealt) (hs : x'.store = x.store)
    (hh : Network.handed ∘ s'.gateway = List.map (fun p => delivery p.2) ∘ x'.delivered)
    (hi : s'.inFlight = x'.announced.map PacketId.preName) (ha : s'.pending = List.map PacketId.interest ∘ x'.asked)
    (hl : s'.lost = x'.lost.length) : Simulates registerIp s' x' := by
  refine ⟨?_, hh, hi, ha, ?_, hl, ?_, ?_, ?_⟩
  · rw [hp, hs]
    exact h.puts
  · rw [hd, hs, h.dealt]
  · rw [hs]
    exact h.packet
  · intro k f n
    rw [Exchange.Stored, hs, packets_congr hd]
    exact h.numbers k f n
  · intro a b u
    rw [Exchange.Stored, hs, hd]
    exact h.uuids a b u

/-- A pre-request arrives. -/
theorem Simulates.arrive (hL : L.Lawful) (hE : L.Escapes) (hip : ∀ k, ∀ ip ∈ registerIp k, PlainComponent ip)
    (h : Simulates registerIp s x) (hg : Genuine registerIp s) {k : ν} {name : Text} (hm : name ∈ s.inFlight)
    (hf : Awaits L (registerIp k) name) : ∃ x', x.Step (PacketId.For registerIp) x' ∧ Simulates registerIp
      ({ s with inFlight := s.inFlight.erase name }.run k (processInterest L (registerIp k) (L.ofUri name))) x' := by
  obtain ⟨i, hlow, rfl⟩ := hg.inFlight name hm
  obtain ⟨i', hi, e⟩ := h.mem_inFlight hm
  rw [PacketId.preName_inj e] at hi
  obtain ⟨table, is, hmem, hfor, hg⟩ := exists_asked hL hE (hip k) hlow hf (s.gateway k)
  rw [run_asked { s with inFlight := s.inFlight.erase i.preName } hg (by simp [PacketId.interest])]
  have hputs : Network.puts ((s.gateway k).asked (table, is.map PacketId.interest)) = Network.puts (s.gateway k) := by
    have := (Node.filter_calls (show ∀ i ∈ is.map PacketId.interest, i.isPre = false by simp [PacketId.interest])).1
    rw [Network.puts, Gateway.asked, List.filter_append, this, List.append_nil, Network.puts]
  refine ⟨_, .ask hi hmem hfor,
    h.subscriber (comp_update_of_eq hputs) rfl rfl ?_ ?_ ?_ h.lost⟩
  · refine Eq.trans ?_ h.handed
    exact comp_update_of_eq rfl
  · simp only [h.inFlight]
    rw [List.map_erase fun _ _ => PacketId.preName_inj]
  · simp only [h.pending, Function.comp_apply]
    rw [Function.comp_update, List.map_append]

/-- An Interest that is no longer pending, after a callback that may hand a
content to the raw socket. -/
theorem Simulates.unpend (h : Simulates registerIp s x) {k : ν} {i : PacketId} {handler : GatewayM Unit}
    {raw : List (List Byte × Text)} (hg : after handler (s.gateway k) =
      { s.gateway k with rawSocket := (s.gateway k).rawSocket ++ raw })
    (sent : List (PacketId × Tuple)) (hr : (raw.map fun d => (some d.1, d.2)) = sent.map fun p => delivery p.2)
    {delivered : ν → List (PacketId × Tuple)} (hd : delivered = Function.update x.delivered k (x.delivered k ++ sent))
    {lost : Nat} {ids : List PacketId} (hl : lost = ids.length) :
    Simulates registerIp
      ({ s with pending := Function.update s.pending k ((s.pending k).erase i.interest), lost := lost }.run k handler)
      { x with
        asked := Function.update x.asked k ((x.asked k).erase i)
        delivered := delivered
        lost := ids } := by
  rw [run_of_face { s with
    pending := Function.update s.pending k ((s.pending k).erase i.interest)
    lost := lost } hg rfl]
  refine h.subscriber (comp_update_of_eq rfl) rfl rfl ?_ ?_ ?_ hl
  · have hk := h.handed_eq k
    rw [Network.handed] at hk
    simp only [hd]
    rw [Function.comp_update, Function.comp_update, h.handed, List.map_append, ← hr, Network.handed, List.map_append,
      hk]
  · exact h.inFlight
  · simp only [h.pending, Function.comp_apply]
    rw [Function.comp_update, List.map_erase fun _ _ => PacketId.interest_inj]

theorem update_append_nil {α : Type} (f : ν → List α) (k : ν) : f = Function.update f k (f k ++ []) := by
  rw [List.append_nil, Function.update_eq_self]

/-- An Interest that is answered. -/
theorem Simulates.answer (hL : L.Lawful) (h : Simulates registerIp s x) {k : ν} {i : SentInterest}
    (hi : i ∈ s.pending k) {uri : Text} {content : List Byte} (hp : s.HasPut L i.name uri content) :
    ∃ x', x.Step (PacketId.For registerIp) x' ∧ Simulates registerIp
      ({ s with pending := Function.update s.pending k ((s.pending k).erase i) }.run k
        (onData L (L.ofUri uri) content i.isPre i.isTCP)) x' := by
  obtain ⟨j, hj, rfl⟩ := h.mem_pending hi
  obtain ⟨rfl, t, ht, hc⟩ := (h.hasPut_iff hL j uri content).mp hp
  refine ⟨_, .deliver hj ht, h.unpend (after_onData_interest hL j content (s.gateway k)) [(j, t)] ?_ rfl h.lost⟩
  obtain ⟨-, hip, hb⟩ := h.packet _ ht
  rw [List.map_singleton, List.map_singleton, delivery, hb.content_eq, hc, ← hip]

/-- An Interest that is given up. -/
theorem Simulates.giveUp (hL : L.Lawful) (h : Simulates registerIp s x) {k : ν} {i : SentInterest}
    (hi : i ∈ s.pending k) (hp : ∀ uri content, ¬ s.HasPut L i.name uri content) {handler : GatewayM Unit}
    (hh : handler (s.gateway k) = .ok ⟨⟩ (s.gateway k)) :
    ∃ x', x.Step (PacketId.For registerIp) x' ∧ Simulates registerIp
      ({ s with pending := Function.update s.pending k ((s.pending k).erase i) }.run k handler) x' := by
  obtain ⟨j, hj, rfl⟩ := h.mem_pending hi
  have hs : ¬ x.Stored j := by
    intro ⟨t, ht⟩
    exact hp j.dataName t.bytes ((h.hasPut_iff hL j _ _).mpr ⟨rfl, t, ht, rfl⟩)
  have hg : after handler (s.gateway k) =
      { s.gateway k with rawSocket := (s.gateway k).rawSocket ++ [] } := by
    rw [after_of_ok hh, List.append_nil]
  exact ⟨_, .giveUp hj hs, h.unpend hg [] rfl (update_append_nil x.delivered k) h.lost⟩

/-- An Interest that is lost. -/
theorem Simulates.drop (h : Simulates registerIp s x) {k : ν} {i : SentInterest} (hi : i ∈ s.pending k)
    {handler : GatewayM Unit} (hh : handler (s.gateway k) = .ok ⟨⟩ (s.gateway k)) :
    ∃ x', x.Step (PacketId.For registerIp) x' ∧ Simulates registerIp
      ({ s with
        pending := Function.update s.pending k ((s.pending k).erase i)
        lost := s.lost + 1 }.run k handler) x' := by
  obtain ⟨j, hj, rfl⟩ := h.mem_pending hi
  have hg : after handler (s.gateway k) =
      { s.gateway k with rawSocket := (s.gateway k).rawSocket ++ [] } := by
    rw [after_of_ok hh, List.append_nil]
  refine ⟨_, .loseAsked hj, h.unpend hg [] rfl (update_append_nil x.delivered k) ?_⟩
  rw [h.lost, List.length_append]
  rfl

/-- A step of the network is a step of the exchange. -/
theorem Simulates.step (hL : L.Lawful) (hE : L.Escapes) (hip : ∀ k, ∀ ip ∈ registerIp k, PlainComponent ip)
    (hd : Apart registerIp) (h : Simulates registerIp s x) (hg : Genuine registerIp s) {e : Event ν}
    (hs : s.Step L registerIp e s') (ho : s'.OwnHosts registerIp) (hb : s'.InRange) :
    ∃ x', x.Step (PacketId.For registerIp) x' ∧ Simulates registerIp s' x' := by
  cases hs with
  | @deal k c uuid hu =>
    have hs : ipText c.tuple.key.srcIp ∈ registerIp k := ho (k, c, uuid) (List.mem_append_right _ List.mem_cons_self)
    exact h.deal hg hd hs hb hu
  | arrive hm hf => exact h.arrive hL hE hip hg hm hf
  | @again name hm =>
    obtain ⟨i, hi, rfl⟩ := h.mem_inFlight hm
    refine ⟨_, .again hi, h.subscriber rfl rfl rfl h.handed ?_ h.pending h.lost⟩
    simp only [h.inFlight, List.map_append, List.map_singleton]
  | @lose name hm =>
    obtain ⟨i, hi, rfl⟩ := h.mem_inFlight hm
    refine ⟨_, .loseAnnounced hi, h.subscriber rfl rfl rfl h.handed ?_ h.pending ?_⟩
    · simp only [h.inFlight]
      rw [List.map_erase fun _ _ => PacketId.preName_inj]
    · simp only [h.lost, List.length_append, List.length_singleton]
  | answer hi hp => exact h.answer hL hi hp
  | timeout hi hp => exact h.giveUp hL hi hp (onTimeout_ok _ _)
  | nack hi hp => exact h.giveUp hL hi hp rfl
  | drop hi => exact h.drop hi (onTimeout_ok _ _)

/-! ## Runs -/

variable {tr : List (Network ν × Event ν)}

theorem OwnHosts.before {e : Event ν} (h : s'.OwnHosts registerIp) (hs : s.Step L registerIp e s') :
    s.OwnHosts registerIp := by
  cases hs with
  | deal => exact fun p hp => h p (List.mem_append_left _ hp)
  | _ => exact h

/-- A run of the network is a run of the exchange. -/
theorem exists_exchange (hL : L.Lawful) (hE : L.Escapes) (hip : ∀ k, ∀ ip ∈ registerIp k, PlainComponent ip)
    (hd : Apart registerIp) (h : Run (Step L registerIp) start tr s) (ho : s.OwnHosts registerIp) (hb : s.InRange) :
    ∃ x, Exchange.Sound (PacketId.For registerIp) x ∧ Simulates registerIp s x := by
  induction h with
  | nil => exact ⟨(Exchange.empty : Exchange ν PacketId Tuple), Exchange.sound_empty, simulates_start⟩
  | snoc h hs ih =>
    obtain ⟨x, hx, hsim⟩ := ih (ho.before hs) (hb.before hs)
    obtain ⟨x', hx', hsim'⟩ := hsim.step hL hE hip hd (genuine hL hE hip h (hb.before hs)) hs ho hb
    exact ⟨x', hx.step hx', hsim'⟩

theorem Simulates.quiet (hL : L.Lawful) (hip : ∀ k, ∀ ip ∈ registerIp k, PlainComponent ip)
    (h : Simulates registerIp s x) (hq : s.Quiet L registerIp) : x.Quiet (PacketId.For registerIp) where
  announced i hi k hk := by
    refine hq.inFlight i.preName ?_ k (exists_filter hL (hip k) hk)
    rw [h.inFlight]
    exact List.mem_map_of_mem hi
  asked k i hi hs := by
    obtain ⟨t, ht⟩ := hs
    refine hq.pending k i.interest ?_ i.dataName t.bytes ((h.hasPut_iff hL i _ _).mpr ⟨rfl, t, ht, rfl⟩)
    rw [h.pending_eq]
    exact List.mem_map_of_mem hi

/-! ## But for the lost -/

/-- What a gateway should hand on: the packets for its own hosts. -/
def due (registerIp : ν → List Text) (s : Network ν) (k : ν) : List (Option (List Byte) × Text) :=
  (s.dealt.filter fun p => ipText p.2.1.tuple.key.dstIp ∈ registerIp k).map fun p => delivery p.2.1.tuple

omit [DecidableEq ν] in
theorem due_eq (h : x.store.map (·.2) = s.dealt.map (·.2.1.tuple)) (k : ν) :
    due registerIp s k = (x.store.filter fun p => ipText p.2.key.dstIp ∈ registerIp k).map fun p => delivery p.2 := by
  have e := congrArg (fun l => (l.filter fun t : Tuple => ipText t.key.dstIp ∈ registerIp k).map delivery) h
  simp only [List.filter_map, List.map_map] at e
  exact e.symm

/-- When the network is quiet, each gateway has handed on the packets for its
hosts, each at least once, but for one, of all packets, for each pre-request or
Interest that was lost. -/
theorem delivered_but_lost (hL : L.Lawful) (hE : L.Escapes) (hip : ∀ k, ∀ ip ∈ registerIp k, PlainComponent ip)
    (hd : Apart registerIp) (h : Run (Step L registerIp) start tr s) (ho : s.OwnHosts registerIp) (hb : s.InRange)
    (hq : s.Quiet L registerIp) :
    ∃ missing : List (Option (List Byte) × Text), missing.length ≤ s.lost ∧
      ∀ k, (due registerIp s k).Subperm (handed (s.gateway k) ++ missing) := by
  obtain ⟨x, hx, hsim⟩ := exists_exchange hL hE hip hd h ho hb
  obtain ⟨missing, hl, hm⟩ := hx.store_subperm (hsim.quiet hL hip hq) fun i u v hu hv => hd u v _ hu hv
  refine ⟨missing.map fun p => delivery p.2, ?_, fun k => ?_⟩
  · rw [List.length_map, hsim.lost]
    exact hl
  · rw [due_eq hsim.dealt, hsim.handed_eq, ← List.map_append]
    obtain ⟨l, hp, hl⟩ := hm k (x.store.filter fun p => ipText p.2.key.dstIp ∈ registerIp k) List.filter_sublist
      fun p hp => by
        obtain ⟨hp, hk⟩ := List.mem_filter.mp hp
        rw [PacketId.For, (hsim.packet p hp).2.1]
        exact of_decide_eq_true hk
    exact ⟨_, hp.map _, hl.map _⟩

/-! ## Names -/

theorem putNames_publishCalls (store : List (PacketId × Tuple)) :
    putNames (store.flatMap publishCalls) = (store.map (·.1)).map PacketId.dataName := by
  induction store with
  | nil => rfl
  | cons p store ih =>
    rw [List.flatMap_cons, putNames, List.filterMap_append, ← putNames, ← putNames, ih]
    rfl

theorem putNames_puts (g : Gateway) : putNames (puts g) = putNames g.face := by
  rw [putNames, puts, List.filterMap_filter, putNames]
  congr 1
  funext c
  cases c with
  | putDataToCache => rfl
  | expressInterest _ isPre _ => cases isPre <;> rfl

/-- No two Data put by the gateways of the network have one name. -/
theorem names_distinct (hL : L.Lawful) (hE : L.Escapes) (hip : ∀ k, ∀ ip ∈ registerIp k, PlainComponent ip)
    (hd : Apart registerIp) (h : Run (Step L registerIp) start tr s) (ho : s.OwnHosts registerIp) (hb : s.InRange) :
    (∀ k, (putNames (s.gateway k).face).Nodup) ∧
      ∀ j k, j ≠ k → (putNames (s.gateway j).face).Disjoint (putNames (s.gateway k).face) := by
  obtain ⟨x, hx, hsim⟩ := exists_exchange hL hE hip hd h ho hb
  have hnames (k : ν) : putNames (s.gateway k).face =
      ((x.store.filter (·.1.From registerIp k)).map (·.1)).map PacketId.dataName := by
    rw [← putNames_puts, hsim.puts_eq, putNames_publishCalls]
  refine ⟨fun k => ?_, fun j k hjk name hj hk => hjk ?_⟩
  · rw [hnames]
    exact (hx.nodup.sublist (List.filter_sublist.map _)).map fun _ _ => PacketId.dataName_inj
  · have hfrom : ∀ k, name ∈ putNames (s.gateway k).face → ∃ i : PacketId, i.dataName = name ∧ i.From registerIp k := by
      intro k hm
      rw [hnames] at hm
      obtain ⟨i, hi, e⟩ := List.mem_map.mp hm
      obtain ⟨p, hp, rfl⟩ := List.mem_map.mp hi
      exact ⟨p.1, e, of_decide_eq_true (List.mem_filter.mp hp).2⟩
    obtain ⟨i, rfl, hi⟩ := hfrom j hj
    obtain ⟨i', e, hi'⟩ := hfrom k hk
    rw [PacketId.dataName_inj e] at hi'
    exact hd j k _ hi hi'

end

/-! ### Two hosts -/

theorem apart_twoHosts : Apart twoHosts := by
  have h : ∀ j k, ∀ ip ∈ twoHosts j, ip ∈ twoHosts k → j = k := by decide
  exact h

theorem ownHosts_ping {s : Network Bool} (h : s.dealt.map (fun p => (p.1, p.2.1)) = [(true, ping), (true, ping)]) :
    s.OwnHosts twoHosts ∧ s.InRange := by
  have hlen := congrArg List.length h
  rw [List.length_map] at hlen
  refine ⟨fun p hp => ?_, inRange_of_dealt (by rw [hlen]; decide)⟩
  have hm : (p.1, p.2.1) ∈ s.dealt.map fun p => (p.1, p.2.1) := List.mem_map_of_mem hp
  simp only [h, List.mem_cons, List.not_mem_nil, or_false, or_self, Prod.mk.injEq] at hm
  rw [hm.1, hm.2]
  decide +kernel

theorem delivered_but_lost_one : ∃ tr s, Run (Step textLibs twoHosts) start tr s ∧ s.lost = 1 ∧
    (due twoHosts s false).length = 2 ∧ ∃ missing : List (Option (List Byte) × Text), missing.length ≤ s.lost ∧
      ∀ k, (due twoHosts s k).Subperm (handed (s.gateway k) ++ missing) := by
  obtain ⟨tr, s, h, hd, hq, hl, -⟩ := exists_oneLost
  obtain ⟨ho, hb⟩ := ownHosts_ping hd
  have hdue : due twoHosts s false = ((s.dealt.map fun p => (p.1, p.2.1)).filter fun p =>
      ipText p.2.tuple.key.dstIp ∈ twoHosts false).map fun p => delivery p.2.tuple := by
    rw [List.filter_map, List.map_map]
    rfl
  refine ⟨tr, s, h, hl, ?_, delivered_but_lost textLibs_lawful textLibs_escapes plain_twoHosts apart_twoHosts h ho hb
    hq⟩
  rw [hdue, hd]
  decide +kernel

theorem names_distinct_one : ∃ tr s, Run (Step textLibs twoHosts) start tr s ∧
    (∀ k, (putNames (s.gateway k).face).Nodup) ∧
      ∀ j k, j ≠ k → (putNames (s.gateway j).face).Disjoint (putNames (s.gateway k).face) := by
  obtain ⟨tr, s, h, hd, -⟩ := exists_oneLost
  obtain ⟨ho, hb⟩ := ownHosts_ping hd
  exact ⟨tr, s, h, names_distinct textLibs_lawful textLibs_escapes plain_twoHosts apart_twoHosts h ho hb⟩

end Network

end IpNdn
