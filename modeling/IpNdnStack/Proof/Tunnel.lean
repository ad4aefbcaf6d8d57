import IpNdnStack.Framework.Relay
import IpNdnStack.Framework.Run
import IpNdnStack.Proof.Capture
import IpNdnStack.Proof.Packets

/-!
# The tunnel loses nothing

Two gateways are a `Relay` of tuples under their `PacketId`s: every step of the
tunnel is one of the relay (`Simulates.step`), so every run is a run of the
relay (`exists_relay`). Any tuples can be dealt with (`exists_dealt`), any run
can go on to a quiet state (`exists_quiet`), and in a quiet state each tuple has
gone to the raw socket (`tunnel_lossless`).
-/

namespace IpNdn

open Handler

/-! ## The tunnel as a relay -/

/-- The calls for a tuple published as the packet `p.1`. -/
def publishCalls (p : PacketId × Tuple) : List FaceCall :=
  [.putDataToCache p.1.dataName p.2.bytes, .expressInterest p.1.preName true false]

/-- The id that a tuple is published under, after `c` packets of each flow. -/
def idOf (c : Flow → Nat) (t : Tuple) (uuid : Uuid) : PacketId :=
  if t.Numbered then .numbered t.flow (BitVec.ofNat 32 (c t.flow + 1)) else .other t.key.srcIp t.key.dstIp uuid

theorem idOf_eq_numbered {c : Flow → Nat} {t : Tuple} {uuid : Uuid} {f : Flow} {n : BitVec 32}
    (h : idOf c t uuid = .numbered f n) : t.Numbered ∧ t.flow = f ∧ n = BitVec.ofNat 32 (c f + 1) := by
  unfold idOf at h
  split at h
  · obtain ⟨rfl, rfl⟩ := PacketId.numbered.inj h
    exact ⟨‹_›, rfl, rfl⟩
  · cases h

theorem idOf_eq_other {c : Flow → Nat} {t : Tuple} {uuid u : Uuid} {a b : BitVec 32}
    (h : idOf c t uuid = .other a b u) : uuid = u := by
  unfold idOf at h
  split at h
  · cases h
  · exact (PacketId.other.inj h).2.2

theorem dstIp_idOf (c : Flow → Nat) (t : Tuple) (uuid : Uuid) : (idOf c t uuid).dstIp = t.key.dstIp := by
  unfold idOf
  split <;> rfl

theorem low_idOf {c : Flow → Nat} {t : Tuple} {uuid : Uuid} (h : t.Numbered → c t.flow + 1 < 2 ^ 31) :
    (idOf c t uuid).Low := by
  unfold idOf
  split
  · exact toNat_ofNat_lt (h ‹_›)
  · trivial

/-- A tuple with its bytes is published, and counted if its flow has numbers. -/
theorem deal_id {t : Tuple} (hp : t.HasBytes) (uuid : Uuid) {c : Flow → Nat} {g : Gateway}
    (hc : Counts c g.sequenceTable) :
    ∃ g', deal t uuid.1 g = .ok ⟨⟩ g' ∧ g'.face = g.face ++ publishCalls (idOf c t uuid, t) ∧
      g'.rawSocket = g.rawSocket ∧
      Counts (fun f => c f + if t.Numbered ∧ t.flow = f then 1 else 0) g'.sequenceTable := by
  by_cases ht : t.Numbered
  · refine ⟨_, deal_numbered uuid.1 ht hp hc, ?_, rfl, ?_⟩
    · rw [idOf, if_pos ht]
      rfl
    · have hu : Function.update c t.flow (c t.flow + 1) = fun f => c f + if t.Numbered ∧ t.flow = f then 1 else 0 := by
        funext f
        rw [Function.update_apply]
        by_cases e : f = t.flow
        · rw [if_pos e, if_pos ⟨ht, e.symm⟩, e]
        · rw [if_neg e, if_neg fun h => e h.2.symm, Nat.add_zero]
      exact hu ▸ hc.update t.flow
  · refine ⟨_, deal_other uuid.1 g ht hp, ?_, rfl, ?_⟩
    · rw [idOf, if_neg ht]
      rfl
    · simp only [ht, false_and, if_false, Nat.add_zero]
      exact hc

/-- What a tuple's delivery hands to the raw socket. -/
def delivery (t : Tuple) : Option (List Byte) × Text := (t.content, ipText t.key.dstIp)

/-- The state of a tunnel, by packets: the Data put are the store, the
pre-requests in flight what is announced, the Interests pending what is asked
for, and the calls of the raw socket what is delivered. -/
structure Simulates (s : Tunnel) (r : Relay PacketId Tuple) : Prop where
  table : Counts s.packets s.publisher.sequenceTable
  face : s.publisher.face = r.store.flatMap publishCalls
  dealt : r.store.map (·.2) = s.dealt.map (·.1)
  inFlight : s.inFlight = r.announced.map PacketId.preName
  pending : s.pending = r.asked.map PacketId.interest
  rawSocket : s.subscriber.rawSocket.map (fun d => (some d.1, d.2)) = r.delivered.map fun p => delivery p.2
  dstIp : ∀ i t, (i, t) ∈ r.store → i.dstIp = t.key.dstIp
  hasBytes : ∀ i t, (i, t) ∈ r.store → t.HasBytes
  numbers : ∀ f n, r.Stored (.numbered f n) → ∃ k ≤ s.packets f, n = BitVec.ofNat 32 k
  uuids : ∀ srcIp dstIp uuid, r.Stored (.other srcIp dstIp uuid) → ∃ p ∈ s.dealt, p.2 = uuid

theorem simulates_start : Simulates .start .empty where
  table := Counts.empty
  face := rfl
  dealt := rfl
  inFlight := rfl
  pending := rfl
  rawSocket := rfl
  dstIp _ _ h := absurd h List.not_mem_nil
  hasBytes _ _ h := absurd h List.not_mem_nil
  numbers _ _ h := by
    obtain ⟨_, h⟩ := h
    exact absurd h List.not_mem_nil
  uuids _ _ _ h := by
    obtain ⟨_, h⟩ := h
    exact absurd h List.not_mem_nil

theorem sentInterests_map (is : List PacketId) :
    sentInterests (is.map PacketId.call) = is.map PacketId.interest := by
  rw [sentInterests, List.filterMap_map]
  exact congrFun List.filterMap_eq_map' is

theorem packets_dealt (s : Tunnel) (t : Tuple) (uuid : Uuid) (f : Flow) :
    Tunnel.packets { s with dealt := s.dealt ++ [(t, uuid)] } f =
      s.packets f + if t.Numbered ∧ t.flow = f then 1 else 0 := by
  rw [Tunnel.packets, List.countP_append, List.countP_singleton]
  simp only [decide_eq_true_eq]
  rfl

theorem packets_congr {s s' : Tunnel} (h : s'.dealt = s.dealt) (f : Flow) : s'.packets f = s.packets f := by
  rw [Tunnel.packets, h, Tunnel.packets]

/-- A valid packet has its bytes. -/
theorem Accepted.hasBytes {t : Tuple} (h : Accepted t) : t.HasBytes := by
  obtain ⟨⟨frame, now, g, hv, rfl⟩, -⟩ := h
  exact hasBytes_decodeFrame_iff.mpr (.inl ((decode_status ..).symm.trans hv))

/-- An untagged frame that `decode` accepts and that is short enough. -/
theorem accepted_decodeFrame {frame : Frame} (hu : ntohs (load16 frame.mem 12).val ≠ ETHERTYPE_VLAN)
    (hv : decodeStatus frame.mem frame.capLen = .valid)
    (hs : (frame.capLen - BitVec.ofNat 32 ETH_LEN).toNat < 8600) : Accepted (decodeFrame frame 0 .zero).2.1 := by
  have hv' : (decodeFrame frame 0 .zero).1 = .valid := (decode_status ..).trans hv
  exact ⟨⟨frame, 0, .zero, hv', rfl⟩, (decodeFrame_content hu hv').1.trans_lt hs⟩

theorem decodeFrame_dstIp {frame : Frame} (hu : ntohs (load16 frame.mem 12).val ≠ ETHERTYPE_VLAN)
    (hv : decodeStatus frame.mem frame.capLen = .valid) :
    (decodeFrame frame 0 .zero).2.1.key.dstIp = (load32 frame.mem 30).val := by
  have ht := decode_accepted frame.mem frame.capLen frame.actLen 0 .new .zero hv
  rw [ipHeader_untagged frame.mem hu] at ht
  obtain ⟨-, -, -, -, hd⟩ := assignFields_fields frame.mem 0 (captured frame.mem frame.capLen .new) 14 1
  rw [decodeFrame, ht]
  exact hd

variable {s s' : Tunnel} {r : Relay PacketId Tuple}

/-- The id of the next tuple is new. -/
theorem Simulates.not_stored (h : Simulates s r) {t : Tuple} {uuid : Uuid}
    (hb : t.Numbered → s.packets t.flow + 1 < 2 ^ 31) (hu : ∀ p ∈ s.dealt, p.2 ≠ uuid) :
    ¬ r.Stored (idOf s.packets t uuid) := by
  intro hs
  rcases hi : idOf s.packets t uuid with ⟨f, n⟩ | ⟨a, b, u⟩
  · obtain ⟨ht, rfl, rfl⟩ := idOf_eq_numbered hi
    rw [hi] at hs
    obtain ⟨k, hk, e⟩ := h.numbers _ _ hs
    have := hb ht
    have := ofNat_inj (by omega) (by omega) e
    omega
  · rw [hi] at hs
    obtain ⟨p, hm, e⟩ := h.uuids _ _ _ hs
    exact hu p hm (e.trans (idOf_eq_other hi).symm)

/-- `deal` publishes a tuple under its id. -/
theorem Simulates.deal (h : Simulates s r) {t : Tuple} {uuid : Uuid} (hp : t.HasBytes)
    (hb : t.Numbered → s.packets t.flow + 1 < 2 ^ 31) (hu : ∀ p ∈ s.dealt, p.2 ≠ uuid) :
    ∃ r', r.Step r' ∧ Simulates ({ s with dealt := s.dealt ++ [(t, uuid)] }.publish (deal t uuid.1)) r' := by
  refine ⟨_, .publish (h.not_stored hb hu) t, ?_⟩
  obtain ⟨g, hd, hf, -, ht⟩ := deal_id hp uuid h.table
  have hg : after (IpNdn.deal t uuid.1) s.publisher = g := after_of_ok hd
  have hc : Tunnel.packets { s with dealt := s.dealt ++ [(t, uuid)] } =
      fun f => s.packets f + if t.Numbered ∧ t.flow = f then 1 else 0 := funext (packets_dealt s t uuid)
  have hstored : ∀ j, (∃ m, (j, m) ∈ r.store ++ [(idOf s.packets t uuid, t)]) →
      r.Stored j ∨ idOf s.packets t uuid = j := by
    intro j ⟨m, hm⟩
    rcases List.mem_append.mp hm with hm | hm
    · exact .inl ⟨m, hm⟩
    · exact .inr (congrArg Prod.fst (List.mem_singleton.mp hm)).symm
  have hstore : ∀ j u, (j, u) ∈ r.store ++ [(idOf s.packets t uuid, t)] →
      (j, u) ∈ r.store ∨ j = idOf s.packets t uuid ∧ u = t := by
    intro j u hm
    rwa [List.mem_append, List.mem_singleton, Prod.mk.injEq] at hm
  constructor
  case table =>
    simp only [Tunnel.publish, hg]
    exact hc ▸ ht
  case face =>
    simp only [Tunnel.publish, hg]
    rw [hf, h.face, List.flatMap_append, List.flatMap_singleton]
  case dealt =>
    simp only [Tunnel.publish, List.map_append, h.dealt]
    rfl
  case inFlight =>
    simp only [Tunnel.publish, hg, hf, List.drop_left, h.inFlight, List.map_append]
    rfl
  case pending => exact h.pending
  case rawSocket => exact h.rawSocket
  case dstIp =>
    intro j u hm
    rcases hstore j u hm with hm | ⟨rfl, rfl⟩
    · exact h.dstIp j u hm
    · exact dstIp_idOf ..
  case hasBytes =>
    intro j u hm
    rcases hstore j u hm with hm | ⟨rfl, rfl⟩
    · exact h.hasBytes j u hm
    · exact hp
  case numbers =>
    intro f n hs
    simp only [Tunnel.publish]
    refine (packets_dealt s t uuid f).symm ▸ ?_
    rcases hstored _ hs with hs | e
    · obtain ⟨k, hk, rfl⟩ := h.numbers f n hs
      exact ⟨k, by omega, rfl⟩
    · obtain ⟨hn, rfl, rfl⟩ := idOf_eq_numbered e
      exact ⟨_, le_of_eq (by rw [if_pos ⟨hn, rfl⟩]), rfl⟩
  case uuids =>
    intro a b u hs
    rcases hstored _ hs with hs | e
    · obtain ⟨p, hp, hu⟩ := h.uuids a b u hs
      exact ⟨p, List.mem_append_left _ hp, hu⟩
    · exact ⟨(t, uuid), List.mem_append_right _ List.mem_cons_self, idOf_eq_other e⟩

section

variable {L : Libs}

/-- The Data put are those of the store. -/
theorem Simulates.hasPut_iff (hL : L.Lawful) (h : Simulates s r) (i : PacketId) (content : List Byte) :
    s.HasPut L (L.ofUri i.dataName) content ↔ ∃ t, (i, t) ∈ r.store ∧ t.bytes = content := by
  refine ⟨fun h => ?_, fun h => ?_⟩
  · obtain ⟨uri, hm, e⟩ := h
    rw [h.face] at hm
    obtain ⟨⟨j, t⟩, hs, hm⟩ := List.mem_flatMap.mp hm
    simp only [publishCalls, List.mem_cons, FaceCall.putDataToCache.injEq, reduceCtorEq, List.not_mem_nil,
      or_false] at hm
    obtain ⟨rfl, hc⟩ := hm
    have hp := congrArg L.components e
    rw [components_dataName hL, components_dataName hL] at hp
    rw [← PacketId.dataParts_inj hp]
    exact ⟨t, hs, hc.symm⟩
  · obtain ⟨t, hs, hc⟩ := h
    refine ⟨i.dataName, ?_, rfl⟩
    rw [h.face, ← hc]
    exact List.mem_flatMap.mpr ⟨(i, t), hs, List.mem_cons_self⟩

/-- What is announced can be read. -/
theorem Simulates.low (h : Simulates s r) (hb : ∀ f, s.packets f < 2 ^ 31) {i : PacketId} (hs : r.Stored i) :
    i.Low := by
  cases i with
  | numbered f n =>
    obtain ⟨k, hk, rfl⟩ := h.numbers f n hs
    exact toNat_ofNat_lt (lt_of_le_of_lt hk (hb f))
  | other _ _ _ => trivial

/-- A step of the subscriber: the publisher's side stays as it is. -/
theorem Simulates.subscriber {r' : Relay PacketId Tuple} (h : Simulates s r) (hp : s'.publisher = s.publisher)
    (hd : s'.dealt = s.dealt) (hs : r'.store = r.store) (hi : s'.inFlight = r'.announced.map PacketId.preName)
    (ha : s'.pending = r'.asked.map PacketId.interest)
    (hr : s'.subscriber.rawSocket.map (fun d => (some d.1, d.2)) = r'.delivered.map fun p => delivery p.2) :
    Simulates s' r' := by
  have hn : ∀ f, s'.packets f = s.packets f := packets_congr hd
  refine ⟨?_, ?_, ?_, hi, ha, hr, ?_, ?_, ?_, ?_⟩
  · rw [hp, show s'.packets = s.packets from funext hn]
    exact h.table
  · rw [hp, hs, h.face]
  · rw [hd, hs, h.dealt]
  · rw [hs]
    exact h.dstIp
  · rw [hs]
    exact h.hasBytes
  · intro f n
    rw [Relay.Stored, hs, hn]
    exact h.numbers f n
  · intro srcIp dstIp uuid
    rw [Relay.Stored, hs, hd]
    exact h.uuids srcIp dstIp uuid

theorem Simulates.arrive (hL : L.Lawful) {registerIp : List Text} (hip : ∀ ip ∈ registerIp, PlainComponent ip)
    (h : Simulates s r) (hr : r.Lossless) (hb : ∀ f, s.packets f < 2 ^ 31) {name : Text} (hm : name ∈ s.inFlight)
    (hf : ∃ f ∈ start L registerIp, f.isPre ∧ L.isPrefixOf f.registerPrefix (L.ofUri name)) :
    ∃ r', r.Step r' ∧ Simulates
      ({ s with inFlight := s.inFlight.erase name }.callback (processInterest L registerIp (L.ofUri name))) r' := by
  rw [h.inFlight] at hm
  obtain ⟨i, hi, rfl⟩ := List.mem_map.mp hm
  obtain ⟨g, hg, asked, hmem, hface, hraw⟩ :=
    processInterest_pre hL hip (h.low hb (hr.announced i hi)) hf s.subscriber
  have hg : after (processInterest L registerIp (L.ofUri i.preName)) s.subscriber = g := after_of_ok hg
  refine ⟨_, .ask hi hmem, h.subscriber rfl rfl rfl ?_ ?_ ?_⟩
  · simp only [Tunnel.callback, h.inFlight]
    rw [List.map_erase fun _ _ => PacketId.preName_inj]
  · simp only [Tunnel.callback, hg, hface, List.drop_left, sentInterests_map, h.pending, List.map_append]
  · simp only [Tunnel.callback, hg, hraw]
    exact h.rawSocket

/-- An Interest that is no longer pending, after a callback that calls no face. -/
theorem Simulates.unpend (h : Simulates s r) {i : PacketId} {handler : GatewayM Unit} (sent : List (PacketId × Tuple))
    (hf : (after handler s.subscriber).face = s.subscriber.face)
    (hr : (after handler s.subscriber).rawSocket.map (fun d => (some d.1, d.2)) =
      s.subscriber.rawSocket.map (fun d => (some d.1, d.2)) ++ sent.map fun p => delivery p.2) :
    Simulates ({ s with pending := s.pending.erase i.interest }.callback handler)
      { r with asked := r.asked.erase i, delivered := r.delivered ++ sent } := by
  refine h.subscriber rfl rfl rfl h.inFlight ?_ ?_
  · simp only [Tunnel.callback, hf, List.drop_length, h.pending]
    rw [List.map_erase fun _ _ => PacketId.interest_inj]
    exact List.append_nil _
  · simp only [Tunnel.callback, hr, h.rawSocket, List.map_append]

theorem Simulates.answer (hL : L.Lawful) (h : Simulates s r) {i : SentInterest} (hi : i ∈ s.pending)
    {content : List Byte} (hp : s.HasPut L (L.ofUri i.name) content) :
    ∃ r', r.Step r' ∧ Simulates
      ({ s with pending := s.pending.erase i }.callback (onData L (L.ofUri i.name) content i.isPre i.isTCP)) r' := by
  rw [h.pending] at hi
  obtain ⟨j, hj, rfl⟩ := List.mem_map.mp hi
  obtain ⟨t, ht, hc⟩ := (h.hasPut_iff hL j content).mp hp
  have hd := after_onData_interest hL j content s.subscriber
  refine ⟨_, .deliver hj ht, h.unpend [(j, t)] (by rw [hd]) ?_⟩
  rw [hd, List.map_append, List.map_singleton, List.map_singleton, delivery, (h.hasBytes j t ht).content_eq, hc,
    h.dstIp j t ht]

theorem Simulates.giveUp (hL : L.Lawful) (h : Simulates s r) {i : SentInterest} (hi : i ∈ s.pending)
    (hp : ∀ content, ¬ s.HasPut L (L.ofUri i.name) content) {handler : GatewayM Unit}
    (hh : handler s.subscriber = .ok ⟨⟩ s.subscriber) :
    ∃ r', r.Step r' ∧ Simulates ({ s with pending := s.pending.erase i }.callback handler) r' := by
  rw [h.pending] at hi
  obtain ⟨j, hj, rfl⟩ := List.mem_map.mp hi
  have hs : ¬ r.Stored j := by
    intro ⟨t, ht⟩
    exact hp t.bytes ((h.hasPut_iff hL j _).mpr ⟨t, ht, rfl⟩)
  have ha := after_of_ok hh
  have hu := h.unpend (i := j) [] (congrArg Gateway.face ha) (by rw [ha, List.map_nil, List.append_nil])
  rw [List.append_nil] at hu
  exact ⟨_, .giveUp hj hs, hu⟩

/-- A step of the tunnel is a step of the relay. -/
theorem Simulates.step (hL : L.Lawful) {registerIp : List Text} (hip : ∀ ip ∈ registerIp, PlainComponent ip)
    (h : Simulates s r) (hr : r.Lossless) {e : Tunnel.Event} (hs : s.Step L registerIp e s')
    (hb : ∀ f, s'.packets f < 2 ^ 31) : ∃ r', r.Step r' ∧ Simulates s' r' := by
  cases hs with
  | @deal t ht uuid hu =>
    refine h.deal ht.hasBytes (fun hn => ?_) hu
    have := (packets_dealt s t uuid t.flow).symm.trans_lt (hb t.flow)
    rwa [if_pos ⟨hn, rfl⟩] at this
  | arrive hm hf => exact h.arrive hL hip hr hb hm hf
  | answer hi hp => exact h.answer hL hi hp
  | @timeout i hi hp =>
    refine h.giveUp hL hi hp ?_
    cases i.isPre <;> rfl
  | nack hi hp => exact h.giveUp hL hi hp rfl

end

/-! ## Runs -/

section

variable {L : Libs} {registerIp : List Text} {tr : List (Tunnel × Tunnel.Event)}

/-- No step takes a tuple back. -/
theorem packets_le {e : Tunnel.Event} (hs : s.Step L registerIp e s') (f : Flow) : s.packets f ≤ s'.packets f := by
  cases hs with
  | deal => exact (packets_dealt ..).symm ▸ Nat.le_add_right _ _
  | arrive | answer | timeout | nack => exact le_refl _

/-- A run of the tunnel is a run of the relay. -/
theorem exists_relay (hL : L.Lawful) (hip : ∀ ip ∈ registerIp, PlainComponent ip)
    (h : Run (Tunnel.Step L registerIp) .start tr s) (hb : ∀ f, s.packets f < 2 ^ 31) :
    ∃ r, Relation.ReflTransGen Relay.Step .empty r ∧ Simulates s r := by
  induction h with
  | nil => exact ⟨.empty, .refl, simulates_start⟩
  | snoc _ hs ih =>
    obtain ⟨r, hr, hsim⟩ := ih fun f => lt_of_le_of_lt (packets_le hs f) (hb f)
    obtain ⟨r', hr', hsim'⟩ := hsim.step hL hip (.reachable hr) hs hb
    exact ⟨r', hr.tail hr', hsim'⟩

theorem Simulates.quiet (hL : L.Lawful) (h : Simulates s r) (hq : s.Quiet L) : r.Quiet where
  announced := List.map_eq_nil_iff.mp (h.inFlight.symm.trans hq.inFlight)
  asked i hi hs := by
    obtain ⟨t, ht⟩ := hs
    refine hq.pending i.interest ?_ t.bytes ((h.hasPut_iff hL i _).mpr ⟨t, ht, rfl⟩)
    rw [h.pending]
    exact List.mem_map_of_mem hi

/-! ## Every run can end quietly -/

/-- Any accepted tuples can be dealt with one after another. -/
theorem exists_dealt (L : Libs) (registerIp : List Text) (l : List (Tuple × Uuid)) (ha : ∀ p ∈ l, Accepted p.1)
    (hn : (l.map (·.2)).Nodup) : ∃ tr s, Run (Tunnel.Step L registerIp) .start tr s ∧ s.dealt = l := by
  induction l using List.reverseRecOn with
  | nil => exact ⟨[], .start, .nil, rfl⟩
  | append_singleton l p ih =>
    obtain ⟨ha, hp⟩ := List.forall_mem_append.mp ha
    rw [List.map_append, List.map_singleton, ← List.concat_eq_append, List.nodup_concat] at hn
    obtain ⟨tr, s, h, hd⟩ := ih ha hn.2
    have hu : ∀ q ∈ s.dealt, q.2 ≠ p.2 := by
      intro q hq e
      rw [hd] at hq
      exact hn.1 (List.mem_map.mpr ⟨q, hq, e⟩)
    refine ⟨_, _, h.snoc (.deal (hp p List.mem_cons_self) hu), ?_⟩
    exact congrArg (· ++ [p]) hd

/-- A pre-request for a registered address matches its filter. -/
theorem exists_filter (hL : L.Lawful) (hip : ∀ ip ∈ registerIp, PlainComponent ip) {i : PacketId}
    (hi : ipText i.dstIp ∈ registerIp) :
    ∃ f ∈ start L registerIp, f.isPre ∧ L.isPrefixOf f.registerPrefix (L.ofUri i.preName) := by
  have he (ip : Text) (h : ip ∈ registerIp) := components_filters hL (hip ip h)
  simp only [start_eq, Libs.isPrefixOf, components_preName hL, List.isPrefixOf_iff_prefix]
  cases i with
  | numbered f n =>
    refine ⟨⟨L.ofUri (uriOf [cIP, cTCP, cPre, ipText f.dstIp]), true, true⟩, ?_, rfl, ?_⟩
    · exact List.mem_flatMap.mpr ⟨_, hi, by simp [filters, PacketId.dstIp]⟩
    · rw [(he (ipText f.dstIp) hi).2.2.1]
      exact ⟨[ipText f.srcIp, uidText f.srcPort f.dstPort n], rfl⟩
  | other srcIp dstIp uuid =>
    refine ⟨⟨L.ofUri (uriOf [cIP, cPre, ipText dstIp]), true, false⟩, ?_, rfl, ?_⟩
    · exact List.mem_flatMap.mpr ⟨_, hi, by simp [filters, PacketId.dstIp]⟩
    · rw [(he (ipText dstIp) hi).1]
      exact ⟨[ipText srcIp, uuid.1], rfl⟩

theorem Simulates.registered (h : Simulates s r) (hreg : ∀ p ∈ s.dealt, ipText p.1.key.dstIp ∈ registerIp)
    {i : PacketId} (hi : r.Stored i) : ipText i.dstIp ∈ registerIp := by
  obtain ⟨t, ht⟩ := hi
  have hm : t ∈ s.dealt.map (·.1) := by
    rw [← h.dealt]
    exact List.mem_map.mpr ⟨(i, t), ht, rfl⟩
  obtain ⟨p, hp, rfl⟩ := List.mem_map.mp hm
  rw [h.dstIp i p.1 ht]
  exact hreg p hp

/-- A pre-request in flight to a registered address can arrive. -/
theorem exists_arrive (hL : L.Lawful) (hip : ∀ ip ∈ registerIp, PlainComponent ip)
    (h : Run (Tunnel.Step L registerIp) .start tr s) (hb : ∀ f, s.packets f < 2 ^ 31)
    (hreg : ∀ p ∈ s.dealt, ipText p.1.key.dstIp ∈ registerIp) (hne : s.inFlight ≠ []) :
    ∃ e s', s.Step L registerIp e s' ∧ s'.dealt = s.dealt ∧ s'.inFlight.length < s.inFlight.length := by
  obtain ⟨r, hr, hsim⟩ := exists_relay hL hip h hb
  obtain ⟨name, hm⟩ := List.exists_mem_of_ne_nil _ hne
  have hm' := hm
  rw [hsim.inFlight] at hm'
  obtain ⟨i, hi, rfl⟩ := List.mem_map.mp hm'
  have hf := exists_filter hL hip (hsim.registered hreg ((Relay.Lossless.reachable hr).announced i hi))
  refine ⟨_, _, .arrive hm hf, rfl, ?_⟩
  simp only [Tunnel.callback]
  have hpos := List.length_pos_of_mem hm
  rw [List.length_erase_of_mem hm]
  omega

/-- An Interest whose Data has been put can be answered. -/
theorem exists_answer (hL : L.Lawful) (hip : ∀ ip ∈ registerIp, PlainComponent ip)
    (h : Run (Tunnel.Step L registerIp) .start tr s) (hb : ∀ f, s.packets f < 2 ^ 31) {i : SentInterest}
    (hi : i ∈ s.pending) {content : List Byte} (hp : s.HasPut L (L.ofUri i.name) content) :
    ∃ e s', s.Step L registerIp e s' ∧ s'.dealt = s.dealt ∧ s'.inFlight = s.inFlight ∧
      s'.pending.length < s.pending.length := by
  obtain ⟨r, -, hsim⟩ := exists_relay hL hip h hb
  have hi' := hi
  rw [hsim.pending] at hi'
  obtain ⟨j, -, rfl⟩ := List.mem_map.mp hi'
  have hd := after_onData_interest hL j content s.subscriber
  refine ⟨_, _, .answer hi hp, rfl, rfl, ?_⟩
  simp only [Tunnel.callback, hd, List.drop_length, sentInterests, List.filterMap_nil, List.append_nil]
  have hpos := List.length_pos_of_mem hi
  rw [List.length_erase_of_mem hi]
  omega

/-- Where all destinations are registered, a run can go on to a quiet state
without another tuple. -/
theorem exists_quiet (hL : L.Lawful) (hip : ∀ ip ∈ registerIp, PlainComponent ip)
    (h : Run (Tunnel.Step L registerIp) .start tr s) (hb : ∀ f, s.packets f < 2 ^ 31)
    (hreg : ∀ p ∈ s.dealt, ipText p.1.key.dstIp ∈ registerIp) :
    ∃ tr' s', Run (Tunnel.Step L registerIp) .start tr' s' ∧ tr <+: tr' ∧ s'.dealt = s.dealt ∧ s'.Quiet L := by
  have hb' : ∀ s' : Tunnel, s'.dealt = s.dealt → ∀ f, s'.packets f < 2 ^ 31 := fun s' hd f =>
    (packets_congr hd f).trans_lt (hb f)
  -- First all that is in flight arrives, then all that can be answered is.
  have harrive : ∀ tr' s', Run (Tunnel.Step L registerIp) .start tr' s' → s'.dealt = s.dealt → s'.inFlight ≠ [] →
      ∃ e s'', s'.Step L registerIp e s'' ∧ s''.dealt = s.dealt ∧ s''.inFlight.length < s'.inFlight.length := by
    intro tr' s' h' hd hne
    obtain ⟨e, s'', hs, hd', hl⟩ := exists_arrive hL hip h' (hb' s' hd) (hd ▸ hreg) hne
    exact ⟨e, s'', hs, hd'.trans hd, hl⟩
  have hanswer : ∀ tr' s', Run (Tunnel.Step L registerIp) .start tr' s' →
      s'.dealt = s.dealt ∧ s'.inFlight = [] → ¬ s'.Quiet L →
      ∃ e s'', s'.Step L registerIp e s'' ∧ (s''.dealt = s.dealt ∧ s''.inFlight = []) ∧
        s''.pending.length < s'.pending.length := by
    intro tr' s' h' ⟨hd, ha⟩ hq
    obtain ⟨i, hi, content, hp⟩ : ∃ i ∈ s'.pending, ∃ content, s'.HasPut L (L.ofUri i.name) content := by
      by_contra hc
      exact hq ⟨ha, fun i hi content hp => hc ⟨i, hi, content, hp⟩⟩
    obtain ⟨e, s'', hs, hd', ha', hl⟩ := exists_answer hL hip h' (hb' s' hd) hi hp
    exact ⟨e, s'', hs, ⟨hd'.trans hd, ha'.trans ha⟩, hl⟩
  obtain ⟨tr₁, s₁, h₁, hp₁, hd₁, ha₁⟩ := h.exists_done (fun s' => s'.dealt = s.dealt) (fun s' => s'.inFlight = [])
    (fun s' => s'.inFlight.length) harrive rfl
  obtain ⟨tr₂, s₂, h₂, hp₂, ⟨hd₂, -⟩, hq⟩ := h₁.exists_done (fun s' => s'.dealt = s.dealt ∧ s'.inFlight = [])
    (fun s' => s'.Quiet L) (fun s' => s'.pending.length) hanswer ⟨hd₁, ha₁⟩
  exact ⟨tr₂, s₂, h₂, hp₁.trans hp₂, hd₂, hq⟩

/-! ## Nothing is lost -/

/-- The contents of the Data put, in order. -/
def putContents (calls : List FaceCall) : List (List Byte) :=
  calls.filterMap fun
    | .putDataToCache _ content => some content
    | .expressInterest .. => none

theorem putContents_publishCalls (store : List (PacketId × Tuple)) :
    putContents (store.flatMap publishCalls) = (store.map (·.2)).map Tuple.bytes := by
  induction store with
  | nil => rfl
  | cons p store ih =>
    rw [List.flatMap_cons, putContents, List.filterMap_append, ← putContents, ← putContents, ih]
    rfl

/-- When the tunnel is quiet, the content put for each tuple has gone to the
raw socket with the address of the tuple's destination, once for each tuple at
least. -/
theorem tunnel_lossless (hL : L.Lawful) (hip : ∀ ip ∈ registerIp, PlainComponent ip)
    (h : Run (Tunnel.Step L registerIp) .start tr s) (hb : ∀ f, s.packets f < 2 ^ 31 - 61) (hq : s.Quiet L) :
    (putContents s.publisher.face).map some = s.dealt.map (·.1.content) ∧
      (s.dealt.map fun p => (p.1.content, ipText p.1.key.dstIp)).Subperm
        (s.subscriber.rawSocket.map fun d => (some d.1, d.2)) := by
  obtain ⟨r, hr, hsim⟩ := exists_relay hL hip h fun f => by
    have := hb f
    omega
  constructor
  · have hd : s.dealt.map (·.1.content) = r.store.map (·.2.content) := by
      have e := congrArg (List.map Tuple.content) hsim.dealt
      rw [List.map_map, List.map_map] at e
      exact e.symm
    rw [hsim.face, putContents_publishCalls, hd, List.map_map, List.map_map]
    exact List.map_congr_left fun p hp => (hsim.hasBytes p.1 p.2 hp).content_eq.symm
  · have hd : s.dealt.map (fun p => (p.1.content, ipText p.1.key.dstIp)) = r.store.map fun p => delivery p.2 := by
      have e := congrArg (List.map delivery) hsim.dealt
      rw [List.map_map, List.map_map] at e
      exact e.symm
    obtain ⟨l, hp, hl⟩ := (Relay.Lossless.reachable hr).store_subperm (hsim.quiet hL hq)
    rw [hd, hsim.rawSocket]
    exact ⟨_, hp.map _, hl.map _⟩

end

/-- A frame with an ICMP message to 192.168.1.1. -/
def icmpFrame : Frame :=
  let bytes : List Byte :=
    [0, 0, 0, 0, 0, 0, 0, 0, 0, 0, 0, 0, 8, 0, 0x45, 0, 0, 28, 0, 0, 0, 0, 64, 1, 0xf7, 0x8b, 192, 168, 1, 4,
      192, 168, 1, 1, 8, 0, 0xf7, 0xff, 0, 0, 0, 0]
  ⟨fun i => bytes.getD i 0, 42, 42⟩

/-- A UDP and an ICMP packet. -/
theorem tunnel_lossless_two :
    ∃ tr s, Run (Tunnel.Step textLibs ["192.168.1.1".toList]) .start tr s ∧ s.Quiet textLibs ∧
      [delivery (decodeFrame (udpFrame 42) 0 .zero).2.1, delivery (decodeFrame icmpFrame 0 .zero).2.1].Subperm
        (s.subscriber.rawSocket.map fun d => (some d.1, d.2)) := by
  have hvu : decodeStatus (udpFrame 42).mem (udpFrame 42).capLen = .valid := by decide +kernel
  have hvi : decodeStatus icmpFrame.mem icmpFrame.capLen = .valid := by decide +kernel
  have hu := decodeFrame_dstIp (by decide) hvu
  have hi := decodeFrame_dstIp (by decide) hvi
  have au := accepted_decodeFrame (by decide) hvu (by decide)
  have ai := accepted_decodeFrame (by decide) hvi (by decide)
  generalize (decodeFrame (udpFrame 42) 0 .zero).2.1 = t at hu au ⊢
  generalize (decodeFrame icmpFrame 0 .zero).2.1 = t' at hi ai ⊢
  have hip : ∀ ip ∈ ["192.168.1.1".toList], PlainComponent ip := fun ip h =>
    List.mem_singleton.mp h ▸ (plain_ipText 0x0101a8c0 : PlainComponent "192.168.1.1".toList)
  obtain ⟨tr, s, h, hd⟩ := exists_dealt textLibs ["192.168.1.1".toList]
    [(t, ⟨"a1".toList, by decide⟩), (t', ⟨"b2".toList, by decide⟩)] (by simp [au, ai])
    (by simp only [List.map_cons, List.map_nil]; decide)
  have hreg : ∀ p ∈ s.dealt, ipText p.1.key.dstIp ∈ ["192.168.1.1".toList] := by
    rw [hd, List.forall_mem_cons, List.forall_mem_singleton, hu, hi]
    decide
  have hb : ∀ s : Tunnel, s.dealt.length = 2 → ∀ f, s.packets f < 2 ^ 31 - 61 := fun s h2 f =>
    lt_of_le_of_lt List.countP_le_length (by rw [h2]; decide)
  have h2 := congrArg List.length hd
  have hb' : ∀ f, s.packets f < 2 ^ 31 := fun f => (hb s h2 f).trans (by decide)
  obtain ⟨tr', s', h', -, hd', hq⟩ := exists_quiet textLibs_lawful hip h hb' hreg
  have hl := (tunnel_lossless textLibs_lawful hip h' (hb s' (hd' ▸ h2)) hq).2
  rw [hd', hd] at hl
  exact ⟨tr', s', h', hq, hl⟩

end IpNdn
