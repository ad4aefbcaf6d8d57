import IpNdnStack.Proof.Isolation
import IpNdnStack.Proof.Delivery

/-!
# What the guesses are for

A step of the network only adds to what a gateway has asked for and handed on,
and takes an Interest off by an answer or by giving it up (`Step.grows`). So what
a gateway asked for waits, was given up or was answered (`asked_cases`). A packet
is asked for just when the pre-request for it or for one of the `NUM_OF_GUEST`
before it arrives (`asked_iff`), so a packet whose own pre-request is lost is
delivered all the same where one of theirs arrived, if every host sends under its
own addresses (`guess_recovers`).
-/

namespace IpNdn

open Handler

namespace Network

variable {ν : Type} {L : Libs} {registerIp : ν → List Text} {s s' t : Network ν} {tr : List (Network ν × Event ν)}

/-! ## What a step adds -/

/-- A handler adds to what a gateway has asked for and handed on. -/
def Adds (x : GatewayM Unit) : Prop :=
  ∀ g, ∃ calls rs, (after x g).face = g.face ++ calls ∧ g.rawSocket <+: (after x g).rawSocket ∧
    (after x g).window = g.window.run rs

/-- The Interest that an event gives up. -/
def Event.givesUp : Event ν → Option (ν × SentInterest)
  | .timeout k i => some (k, i)
  | .nack k i => some (k, i)
  | .drop k i => some (k, i)
  | _ => none

/-- The Interest that an event takes off. -/
def Event.takes : Event ν → Option (ν × SentInterest)
  | .answer k i _ _ => some (k, i)
  | e => e.givesUp

/-- What a step that takes an Interest off changes. -/
structure Grows (s s' : Network ν) (taken : Option (ν × SentInterest)) : Prop where
  face : ∀ k, ∃ calls, (s'.gateway k).face = (s.gateway k).face ++ calls ∧
    ∀ i : SentInterest, i.isPre = false → i.call ∈ calls → i ∈ s'.pending k
  rawSocket : ∀ k, (s.gateway k).rawSocket <+: (s'.gateway k).rawSocket
  window : ∀ k, ∃ rs, (s'.gateway k).window = (s.gateway k).window.run rs
  pending : ∀ k, ∀ i ∈ s.pending k, taken = some (k, i) ∨ i ∈ s'.pending k

theorem window_deal (t : Tuple) (uuid : Text) (g : Gateway) : (after (deal t uuid) g).window = g.window := by
  obtain ⟨F, hF, hpub⟩ := exists_deal t uuid
  rw [after_of_ended (hF g)]
  exact Gateway.window_append _ (tcpInterests_of_publishes (hpub _))

theorem after_onTimeout (isPre : Bool) (g : Gateway) : after (onTimeout isPre) g = g :=
  after_of_ok (onTimeout_ok isPre g)

theorem adds_of_eq {x : GatewayM Unit} (h : ∀ g, after x g = g) : Adds x := by
  intro g
  rw [h]
  exact ⟨[], [], (List.append_nil _).symm, List.prefix_refl _, rfl⟩

theorem adds_deal (t : Tuple) (uuid : Text) : Adds (deal t uuid) := by
  obtain ⟨F, hF, -⟩ := exists_deal t uuid
  intro g
  refine ⟨(F g.sequenceTable).2, [], ?_, ?_, window_deal t uuid g⟩
  · rw [after_of_ended (hF g)]
  · rw [after_of_ended (hF g)]

theorem adds_processInterest (hL : L.Lawful) (hE : L.Escapes) {registerIp : List Text}
    (hip : ∀ ip ∈ registerIp, PlainComponent ip) (interest : L.Name) :
    Adds (processInterest L registerIp interest) := by
  obtain ⟨fault, ask, hx, -⟩ := callback_processInterest hL hE hip interest
  obtain ⟨rs, hrs, -⟩ := (asks_processInterest hL registerIp interest).after
  intro g
  have hg : after (processInterest L registerIp interest) g = g.asked (ask g.prefixGuestTable) :=
    after_of_ended (hx g)
  refine ⟨(ask g.prefixGuestTable).2.map SentInterest.call, rs, ?_, ?_, hrs g⟩
  · rw [hg]
    rfl
  · rw [hg]
    exact List.prefix_refl _

theorem adds_onData (name : L.Name) (content : List Byte) (isPre isTCP : Bool) :
    Adds (onData L name content isPre isTCP) := by
  obtain ⟨sent, hsent⟩ := exists_after_onData (L := L) name content isPre isTCP
  intro g
  refine ⟨[], [], ?_, ?_, window_onData name content isPre isTCP g⟩
  · rw [hsent, List.append_nil]
  · rw [hsent]
    exact List.prefix_append _ _

section

variable [DecidableEq ν]

theorem grows_run (s t : Network ν) {x : GatewayM Unit} (hx : Adds x) {taken : Option (ν × SentInterest)}
    (hg : t.gateway = s.gateway) (hp : ∀ k, ∀ i ∈ s.pending k, taken = some (k, i) ∨ i ∈ t.pending k) (k : ν) :
    Grows s (t.run k x) taken := by
  obtain ⟨calls, rs, hf, hr, hw⟩ := hx (t.gateway k)
  rw [run_eq t calls rfl hf]
  rw [hg] at hf hr hw ⊢
  constructor
  case face =>
    intro j
    by_cases e : j = k
    · rw [e]
      refine ⟨calls, ?_, fun i hi hc => ?_⟩
      · simp only [Function.update_self, hf]
      · simp only [Function.update_self]
        refine List.mem_append_right _ (List.mem_filter.mpr ⟨?_, by simp [hi]⟩)
        exact List.mem_filterMap.mpr ⟨i.call, hc, rfl⟩
    · refine ⟨[], ?_, fun _ _ h => absurd h List.not_mem_nil⟩
      simp only [Function.update_of_ne e, List.append_nil]
  case rawSocket =>
    intro j
    by_cases e : j = k
    · rw [e]
      simpa only [Function.update_self] using hr
    · simp only [Function.update_of_ne e]
      exact List.prefix_refl _
  case window =>
    intro j
    by_cases e : j = k
    · rw [e]
      exact ⟨rs, by simpa only [Function.update_self] using hw⟩
    · exact ⟨[], by simp only [Function.update_of_ne e]; rfl⟩
  case pending =>
    intro j i hi
    refine (hp j i hi).imp_right fun h => ?_
    by_cases e : j = k
    · rw [e] at h ⊢
      simp only [Function.update_self]
      exact List.mem_append_left _ h
    · simpa only [Function.update_of_ne e] using h

/-- With one Interest taken off. -/
theorem mem_update_erase (s : Network ν) (k : ν) (i : SentInterest) :
    ∀ j, ∀ i' ∈ s.pending j, some (k, i) = some (j, i') ∨
      i' ∈ Function.update s.pending k ((s.pending k).erase i) j := by
  intro j i' hi'
  by_cases e : (k, i) = (j, i')
  · exact .inl (congrArg some e)
  · refine .inr ?_
    by_cases hj : j = k
    · rw [hj] at hi' e ⊢
      rw [Function.update_self]
      refine (List.mem_erase_of_ne fun h => e ?_).mpr hi'
      rw [h]
    · rwa [Function.update_of_ne hj]

theorem Step.grows (hL : L.Lawful) (hE : L.Escapes) (hip : ∀ k, ∀ ip ∈ registerIp k, PlainComponent ip) {e : Event ν}
    (h : s.Step L registerIp e s') : Grows s s' e.takes := by
  have same {s' : Network ν} (hg : s'.gateway = s.gateway) (hp : s'.pending = s.pending) : Grows s s' none := by
    refine ⟨fun k => ⟨[], ?_, fun _ _ h => absurd h List.not_mem_nil⟩, fun k => ?_, fun k => ⟨[], ?_⟩,
      fun k i hi => .inr ?_⟩
    · rw [hg, List.append_nil]
    · rw [hg]
    · rw [hg]
      rfl
    · rwa [hp]
  have took {k : ν} {i : SentInterest} {x : GatewayM Unit} (hx : Adds x) (lost : Nat) : Grows s
      ({ s with pending := Function.update s.pending k ((s.pending k).erase i), lost := lost }.run k x) (some (k, i)) :=
    grows_run s { s with pending := Function.update s.pending k ((s.pending k).erase i), lost := lost } hx rfl
      (mem_update_erase s k i) k
  cases h with
  | @deal k c uuid hu =>
    exact grows_run s { s with dealt := s.dealt ++ [(k, c, uuid)] } (adds_deal c.tuple uuid.1) rfl (fun _ _ => .inr) k
  | @arrive k name hm hf =>
    exact grows_run s { s with inFlight := s.inFlight.erase name } (adds_processInterest hL hE (hip k) _) rfl
      (fun _ _ => .inr) k
  | again hm => exact same rfl rfl
  | lose hm => exact same rfl rfl
  | @answer k i hi uri content hp => exact took (adds_onData (L.ofUri uri) content i.isPre i.isTCP) s.lost
  | @timeout k i hi hp => exact took (adds_of_eq (after_onTimeout i.isPre)) s.lost
  | @nack k i hi hp => exact took (adds_of_eq fun _ => rfl) s.lost
  | @drop k i hi => exact took (adds_of_eq (after_onTimeout i.isPre)) (s.lost + 1)

/-! ## What becomes of an Interest -/

omit [DecidableEq ν] in
/-- A Data that answers an Interest stays put. -/
theorem HasPut.grows {taken : Option (ν × SentInterest)} (hg : Grows s s' taken) {name uri : Text} {content : List Byte}
    (h : s.HasPut L name uri content) : s'.HasPut L name uri content := by
  obtain ⟨⟨k, hk⟩, hm⟩ := h
  obtain ⟨calls, hf, -⟩ := hg.face k
  refine ⟨⟨k, ?_⟩, hm⟩
  rw [hf]
  exact List.mem_append_left _ hk

/-- An Interest was answered with a Data put, which was handed on. -/
def Answered (L : Libs) (s : Network ν) (k : ν) (i : SentInterest) : Prop :=
  ∃ uri content, s.HasPut L i.name uri content ∧ ∀ ip, i.GoesTo L ip → (content, ip) ∈ (s.gateway k).rawSocket

omit [DecidableEq ν] in
theorem Answered.grows {taken : Option (ν × SentInterest)} (hg : Grows s s' taken) {k : ν} {i : SentInterest}
    (h : Answered L s k i) : Answered L s' k i := by
  obtain ⟨uri, content, hp, hr⟩ := h
  exact ⟨uri, content, hp.grows hg, fun ip hip => (hg.rawSocket k).subset (hr ip hip)⟩

theorem Step.takes (hL : L.Lawful) (hE : L.Escapes) (hip : ∀ k, ∀ ip ∈ registerIp k, PlainComponent ip) {e : Event ν}
    (h : s.Step L registerIp e s') {k : ν} {i : SentInterest} (hi : i.isPre = false) (ht : e.takes = some (k, i)) :
    e.givesUp = some (k, i) ∨ Answered L s' k i := by
  have hg := h.grows hL hE hip
  cases h with
  | @answer k' i' hm uri content hp =>
    obtain ⟨rfl, rfl⟩ := Prod.mk.inj (Option.some.inj ht)
    refine .inr ⟨uri, content, hp.grows hg, fun ip hgo => ?_⟩
    have hx := after_of_ok (onData_goesTo hL hgo hp.2 content (s.gateway k'))
    rw [← hi] at hx
    rw [run_of_face { s with pending := Function.update s.pending k' ((s.pending k').erase i') } hx rfl]
    simp only [Function.update_self]
    exact List.mem_append_right _ List.mem_cons_self
  | timeout _ _ => exact .inl ht
  | nack _ _ => exact .inl ht
  | drop _ => exact .inl ht
  | _ => cases ht

/-- What a gateway asked for waits, was given up or was answered. -/
theorem asked_cases (hL : L.Lawful) (hE : L.Escapes) (hip : ∀ k, ∀ ip ∈ registerIp k, PlainComponent ip)
    (h : Run (Step L registerIp) start tr s) {k : ν} {i : SentInterest} (hi : i.isPre = false)
    (ha : i.call ∈ (s.gateway k).face) :
    i ∈ s.pending k ∨ (∃ p ∈ tr, p.2.givesUp = some (k, i)) ∨ Answered L s k i := by
  induction h with
  | nil => exact absurd ha List.not_mem_nil
  | @snoc tr s e s' _ he ih =>
    have hg := he.grows hL hE hip
    obtain ⟨calls, hf, hc⟩ := hg.face k
    rw [hf] at ha
    rcases List.mem_append.mp ha with ha | ha
    · rcases ih ha with hp | ⟨p, hp, hup⟩ | hans
      · rcases hg.pending k i hp with ht | hp
        · rcases he.takes hL hE hip hi ht with hup | hans
          · exact .inr (.inl ⟨(s, e), List.mem_append_right _ List.mem_cons_self, hup⟩)
          · exact .inr (.inr hans)
        · exact .inl hp
      · exact .inr (.inl ⟨p, List.mem_append_left _ hp, hup⟩)
      · exact .inr (.inr (hans.grows hg))
    · exact .inl (hc i hi ha)

/-! ## What a pre-request asks for -/

/-- All that a gateway's table has was asked for. -/
def Recorded (k : ν) (s : Network ν) : Prop := (s.gateway k).window.Covered fun _ => False

omit [DecidableEq ν] in
theorem recorded_start (k : ν) : Recorded k start := Window.covered_empty _

/-- A gateway has asked for a packet. -/
def HasAsked (k : ν) (name : Text) (s : Network ν) : Prop := name ∈ (s.gateway k).window.expressed

omit [DecidableEq ν] in
theorem mem_face_iff {k : ν} {name : Text} :
    HasAsked k name s ↔ .expressInterest name false true ∈ (s.gateway k).face := by
  rw [HasAsked, Gateway.window, tcpInterests, List.mem_filterMap]
  constructor
  · rintro ⟨c, hc, e⟩
    split at e
    · rw [← Option.some.inj e]
      exact hc
    · cases e
  · exact fun h => ⟨_, h, rfl⟩

omit [DecidableEq ν] in
theorem Recorded.grows {taken : Option (ν × SentInterest)} (hg : Grows s s' taken) {k : ν} (h : Recorded k s) :
    Recorded k s' := by
  obtain ⟨rs, hrs⟩ := hg.window k
  rw [Recorded, hrs]
  exact h.run rs

omit [DecidableEq ν] in
theorem HasAsked.grows {taken : Option (ν × SentInterest)} (hg : Grows s s' taken) {k : ν} {name : Text}
    (h : HasAsked k name s) : HasAsked k name s' := by
  obtain ⟨rs, hrs⟩ := hg.window k
  rw [HasAsked, hrs]
  exact (Window.expressed_run _ rs).subset h

/-- What a pre-request makes of the window. -/
def requestsOf : PacketId → List (Text × List Text)
  | .numbered f n => [f.request n]
  | .other .. => []

theorem window_onInterest (hL : L.Lawful) {i : PacketId} (hi : i.Low) (g : Gateway) :
    ∃ g', onInterest L (L.ofUri i.preName) true i.isTCP g = .ok ⟨⟩ g' ∧ g'.window = g.window.run (requestsOf i) := by
  cases i with
  | numbered f n =>
    have hx := dealOnInterest_pre hL f hi g ⟨g.prefixGuestTable.s, []⟩
    rw [Gateway.withWindow_self] at hx
    rw [requestsOf]
    generalize f.request n = r at hx ⊢
    exact ⟨_, hx, g.window_request r⟩
  | other srcIp dstIp uuid =>
    have hs := split_preName hL (.other srcIp dstIp uuid)
    have hx := dealOnOtherPreRequest_ok (L := L) (by rw [hs]; rfl) (by rw [hs]; rfl) (by rw [hs]; rfl) g
    exact ⟨_, hx, g.window_append rfl⟩

/-- A pre-request, for the filters that match it: its requests once for each. -/
theorem window_filters (hL : L.Lawful) {i : PacketId} (hi : i.Low) (fs : List (InterestFilter L))
    (hfs : ∀ φ ∈ fs, φ.isPre → φ.isTCP = i.isTCP) (g : Gateway) :
    ∃ g', (forM fs fun φ => onInterest L (L.ofUri i.preName) φ.isPre φ.isTCP) g = .ok ⟨⟩ g' ∧
      g'.window = g.window.run ((fs.filter (·.isPre)).flatMap fun _ => requestsOf i) := by
  induction fs generalizing g with
  | nil => exact ⟨g, rfl, rfl⟩
  | cons φ fs ih =>
    rw [List.forall_mem_cons] at hfs
    rw [List.forM_cons, List.filter_cons]
    rcases hp : φ.isPre with _ | _
    · exact ih hfs.2 g
    · obtain ⟨g₁, h₁, hw₁⟩ := window_onInterest hL hi g
      obtain ⟨g', hg', hw⟩ := ih hfs.2 g₁
      refine ⟨g', ?_, ?_⟩
      · rw [hfs.1 hp, bind_of_ok h₁]
        exact hg'
      · rw [hw, hw₁, if_pos rfl, List.flatMap_cons, Window.run_append]

theorem window_arrive (hL : L.Lawful) {registerIp : List Text} (hip : ∀ ip ∈ registerIp, PlainComponent ip)
    {i : PacketId} (hi : i.Low) (ha : Awaits L registerIp i.preName) (g : Gateway) :
    ∃ rs, (after (processInterest L registerIp (L.ofUri i.preName)) g).window = g.window.run rs ∧
      ∀ r, r ∈ rs ↔ r ∈ requestsOf i := by
  obtain ⟨φ, hφ, hpre, hmatch⟩ := ha
  obtain ⟨g', hg', hw⟩ := window_filters hL hi
    ((IpNdn.start L registerIp).filter fun φ => L.isPrefixOf φ.registerPrefix (L.ofUri i.preName))
    (fun φ hφ => isTCP_of_match hL hip (List.mem_filter.mp hφ).1 (List.mem_filter.mp hφ).2) g
  refine ⟨_, (congrArg Gateway.window (after_of_ok hg')).trans hw, fun r => ?_⟩
  · rw [List.mem_flatMap]
    exact ⟨fun ⟨_, _, hr⟩ => hr, fun hr => ⟨φ, List.mem_filter.mpr ⟨List.mem_filter.mpr ⟨hφ, hmatch⟩, hpre⟩, hr⟩⟩

/-- No other step of the network changes a gateway's window. -/
theorem Step.window_eq {e : Event ν} (h : s.Step L registerIp e s') {k : ν} (hk : ∀ name, e ≠ .arrive k name) :
    (s'.gateway k).window = (s.gateway k).window := by
  have one (t : Network ν) {j : ν} {x : GatewayM Unit} (hx : ∀ g, (after x g).window = g.window) :
      ((t.run j x).gateway k).window = (t.gateway k).window := by
    rw [run]
    simp only [Function.update_apply]
    split
    · rename_i e
      rw [hx, e]
    · rfl
  cases h with
  | @deal j c uuid hu => exact one _ (window_deal c.tuple uuid.1)
  | @arrive j name hm hf =>
    have e : k ≠ j := fun e => hk name (by rw [e])
    rw [run]
    simp only [Function.update_of_ne e]
  | again hm => rfl
  | lose hm => rfl
  | @answer j i hi uri content hp => exact one _ (window_onData (L.ofUri uri) content i.isPre i.isTCP)
  | @timeout j i hi hp => exact one _ fun g => congrArg _ (after_onTimeout i.isPre g)
  | @nack j i hi hp => exact one _ fun _ => rfl
  | @drop j i hi => exact one _ fun g => congrArg _ (after_onTimeout i.isPre g)

/-- A pre-request asks for its packet and for those after it. -/
theorem mem_requestsOf_iff {f : Flow} {n : Nat} (hn : n < 2 ^ 31) {i : PacketId} (hi : i.Low) :
    (∃ r ∈ requestsOf i, f.dataName (BitVec.ofNat 32 n) = r.1 ∨ f.dataName (BitVec.ofNat 32 n) ∈ r.2) ↔
      ∃ m ≤ n, n ≤ m + NUM_OF_GUEST ∧ i = .numbered f (BitVec.ofNat 32 m) := by
  cases i with
  | other _ _ _ =>
    constructor
    · rintro ⟨_, h, _⟩
      exact absurd h List.not_mem_nil
    · rintro ⟨_, _, _, h⟩
      cases h
  | numbered g b =>
    obtain ⟨k, hk, rfl⟩ : ∃ k < 2 ^ 31, b = BitVec.ofNat 32 k := ⟨b.toNat, hi, by simp⟩
    simp only [requestsOf, List.mem_singleton, exists_eq_left, mem_request_iff hn hk, PacketId.numbered.injEq]
    constructor
    · rintro (e | ⟨rfl, hlt, hle⟩)
      · obtain ⟨rfl, hnk⟩ := Flow.dataName_inj (show f.dataName _ = g.dataName _ from e)
        exact ⟨n, le_refl n, Nat.le_add_right _ _, rfl, hnk.symm⟩
      · exact ⟨k, hlt.le, hle, rfl, rfl⟩
    · rintro ⟨m, hmn, hnm, rfl, e⟩
      rw [ofNat_inj (by omega) (by omega) e]
      rcases hmn.eq_or_lt with rfl | hlt
      · exact .inl rfl
      · exact .inr ⟨rfl, hlt, hnm⟩

/-! ## What is asked for -/

/-- A gateway asks for a packet where a pre-request for it or for one of those
before it arrives. -/
theorem hasAsked_of_arrive (hL : L.Lawful) (hE : L.Escapes) (hip : ∀ k, ∀ ip ∈ registerIp k, PlainComponent ip)
    (h : Run (Step L registerIp) start tr s) {k : ν} {f : Flow} {m n : Nat} (hmn : m ≤ n) (hnm : n ≤ m + NUM_OF_GUEST)
    (hn : n < 2 ^ 31) (ha : ∃ p ∈ tr, p.2 = .arrive k (f.preName (BitVec.ofNat 32 m))) :
    HasAsked k (f.dataName (BitVec.ofNat 32 n)) s := by
  refine h.of_mem (B := fun _ e => e = .arrive k (f.preName (BitVec.ofNat 32 m))) (recorded_start k)
    (fun _ _ _ hc he => Recorded.grows (he.grows hL hE hip) hc) ?_
    (fun _ _ _ hq he => HasAsked.grows (he.grows hL hE hip) hq) ha
  rintro s _ s' hc he rfl
  cases he with
  | arrive hm hf =>
    have hi : (PacketId.numbered f (BitVec.ofNat 32 m)).Low := toNat_ofNat_lt (by omega)
    obtain ⟨rs, hw, hrs⟩ := window_arrive hL (hip k) hi hf (s.gateway k)
    obtain ⟨r, hr, hname⟩ := (mem_requestsOf_iff hn hi).mpr ⟨m, hmn, hnm, rfl⟩
    rw [HasAsked, run]
    simp only [Function.update_self]
    refine hw ▸ (Window.Covered.mem_run hc ((hrs r).mpr hr) hname).resolve_left id

/-- A step that makes a gateway ask for a packet is such an arrival. -/
theorem Genuine.asked (hg : Genuine registerIp s) (hL : L.Lawful)
    (hip : ∀ k, ∀ ip ∈ registerIp k, PlainComponent ip) {e : Event ν} (h : s.Step L registerIp e s') {k : ν} {f : Flow}
    {n : Nat} (hn : n < 2 ^ 31) (ha : HasAsked k (f.dataName (BitVec.ofNat 32 n)) s') :
    HasAsked k (f.dataName (BitVec.ofNat 32 n)) s ∨
      ∃ m ≤ n, n ≤ m + NUM_OF_GUEST ∧ e = .arrive k (f.preName (BitVec.ofNat 32 m)) := by
  by_cases hk : ∀ name, e ≠ .arrive k name
  · rw [HasAsked, h.window_eq hk] at ha
    exact .inl ha
  · simp only [not_forall, not_not] at hk
    obtain ⟨name, rfl⟩ := hk
    cases h with
    | arrive hm hf =>
      obtain ⟨i, hlow, rfl⟩ := hg.inFlight name hm
      obtain ⟨rs, hw, hrs⟩ := window_arrive hL (hip k) hlow hf (s.gateway k)
      rw [HasAsked, run] at ha
      simp only [Function.update_self] at ha
      rw [hw] at ha
      refine (Window.mem_of_mem_expressed_run ha).imp_right ?_
      rintro ⟨r, hr, hname⟩
      obtain ⟨m, hmn, hnm, rfl⟩ := (mem_requestsOf_iff hn hlow).mp ⟨r, (hrs r).mp hr, hname⟩
      exact ⟨m, hmn, hnm, rfl⟩

/-- A gateway asks for a packet of a flow just when a pre-request for it or for
one of the `NUM_OF_GUEST` before it arrives there. -/
theorem asked_iff (hL : L.Lawful) (hE : L.Escapes) (hip : ∀ k, ∀ ip ∈ registerIp k, PlainComponent ip)
    (h : Run (Step L registerIp) start tr s) (hb : s.InRange) (k : ν) (f : Flow) {n : Nat} (hn : n < 2 ^ 31) :
    .expressInterest (f.dataName (BitVec.ofNat 32 n)) false true ∈ (s.gateway k).face ↔
      ∃ m ≤ n, n ≤ m + NUM_OF_GUEST ∧ ∃ p ∈ tr, p.2 = .arrive k (f.preName (BitVec.ofNat 32 m)) := by
  refine mem_face_iff.symm.trans ⟨fun ha => ?_, fun ⟨m, hmn, hnm, ha⟩ => hasAsked_of_arrive hL hE hip h hmn hnm hn ha⟩
  induction h with
  | nil => exact absurd ha List.not_mem_nil
  | @snoc tr s e s' h he ih =>
    rcases (genuine hL hE hip h (hb.before he)).asked hL hip he hn ha with ha | ⟨m, hmn, hnm, rfl⟩
    · obtain ⟨m, hmn, hnm, p, hp, e⟩ := ih (hb.before he) ha
      exact ⟨m, hmn, hnm, p, List.mem_append_left _ hp, e⟩
    · exact ⟨m, hmn, hnm, _, List.mem_append_right _ List.mem_cons_self, rfl⟩

/-- A packet whose own pre-request may be lost: where the pre-request for it or
for one of the `NUM_OF_GUEST` packets before it arrived, and its Interest was
not given up and waits no more, the content put for it was handed on. -/
theorem guess_recovers (hL : L.Lawful) (hE : L.Escapes) (hip : ∀ k, ∀ ip ∈ registerIp k, PlainComponent ip)
    (hd : Apart registerIp) (h : Run (Step L registerIp) start tr s) (ho : s.OwnHosts registerIp) (hb : s.InRange)
    {k : ν} {f : Flow} {m n : Nat} (hmn : m ≤ n) (hnm : n ≤ m + NUM_OF_GUEST) (hn : n < 2 ^ 31)
    (ha : ∃ p ∈ tr, p.2 = .arrive k (f.preName (BitVec.ofNat 32 m)))
    (hg : ∀ p ∈ tr, p.2.givesUp ≠ some (k, ⟨f.dataName (BitVec.ofNat 32 n), false, true⟩))
    (hw : ⟨f.dataName (BitVec.ofNat 32 n), false, true⟩ ∉ s.pending k) {j : ν} {content : List Byte}
    (hp : .putDataToCache (f.dataName (BitVec.ofNat 32 n)) content ∈ (s.gateway j).face) :
    (content, ipText f.dstIp) ∈ (s.gateway k).rawSocket := by
  have hcall := mem_face_iff.mp (hasAsked_of_arrive hL hE hip h hmn hnm hn ha)
  rcases asked_cases hL hE hip h (i := ⟨_, false, true⟩) rfl hcall with hp | ⟨p, hm, hup⟩ | ⟨uri, content', hput, hr⟩
  · exact absurd hp hw
  · exact absurd hup (hg p hm)
  obtain ⟨x, hx, hsim⟩ := exists_exchange hL hE hip hd h ho hb
  have hput' : s.HasPut L (f.dataName (BitVec.ofNat 32 n)) (f.dataName (BitVec.ofNat 32 n)) content :=
    ⟨⟨j, hp⟩, List.isPrefixOf_iff_prefix.mpr (List.prefix_refl _)⟩
  obtain ⟨-, t, ht, hc⟩ := (hsim.hasPut_iff hL (.numbered f (BitVec.ofNat 32 n)) _ _).mp hput'
  obtain ⟨-, t', ht', hc'⟩ := (hsim.hasPut_iff hL (.numbered f (BitVec.ofNat 32 n)) _ _).mp hput
  -- One name, one Data: what was answered is what was put.
  have e : t = t' := congrArg Prod.snd (List.inj_on_of_nodup_map hx.nodup ht ht' rfl)
  rw [← e, hc] at hc'
  rw [hc']
  refine hr _ ?_
  have hcs := components_dataName hL (.numbered f (BitVec.ofNat 32 n))
  exact congrArg (·[3]?) hcs

end

/-! ### Two packets of a flow -/

/-- A UDP frame from one of two hosts to the other. -/
def udpPing : Captured where
  frame := udpFrame 42
  now := 0
  globals := .zero
  valid := (decode_status ..).trans (by decide +kernel)
  short :=
    have h : Accepted (decodeFrame (udpFrame 42) 0 .zero).2.1 :=
      accepted_decodeFrame (by decide) (by decide +kernel) (by decide)
    h.2

/-- The Interest for the second packet. -/
def second : SentInterest := ⟨udpPing.tuple.flow.dataName 2, false, true⟩

/-- The pre-request for the second is lost, and that for the first arrives. -/
theorem exists_guessed : ∃ tr s, Run (Step textLibs twoHosts) start tr s ∧ s.OwnHosts twoHosts ∧ s.InRange ∧
    s.lost = 1 ∧ (∃ p ∈ tr, p.2 = .arrive false (udpPing.tuple.flow.preName 1)) ∧ (∀ p ∈ tr, p.2.givesUp = none) ∧
    (s.pending false).count second = 1 ∧
    .putDataToCache second.name udpPing.tuple.bytes ∈ (s.gateway true).face := by
  have h1 : Run (Step textLibs twoHosts) start [(start, .deal true udpPing ⟨"a1".toList, by decide⟩)] _ :=
    .snoc .nil (.deal fun _ h => absurd h List.not_mem_nil)
  have h2 := h1.snoc (show Step textLibs twoHosts _ (.deal true udpPing ⟨"b2".toList, by decide⟩) _ from by
    refine .deal fun p hp e => ?_
    rw [List.mem_singleton.mp hp] at e
    exact absurd (congrArg Subtype.val e) (by decide))
  have h3 := h2.snoc (show Step textLibs twoHosts _ (.lose (udpPing.tuple.flow.preName 2)) _ from
    .lose (by decide +kernel))
  have h4 := h3.snoc (show Step textLibs twoHosts _ (.arrive false (udpPing.tuple.flow.preName 1)) _ from
    .arrive (by decide +kernel) (by unfold Awaits; decide +kernel))
  refine ⟨_, _, h4, ?_, inRange_of_dealt (by decide), rfl, ⟨_, List.mem_append_right _ List.mem_cons_self, rfl⟩, ?_,
    by decide +kernel, by decide +kernel⟩
  · have hsrc : ipText udpPing.tuple.key.srcIp ∈ twoHosts true := by decide +kernel
    exact List.forall_mem_cons.mpr ⟨hsrc, List.forall_mem_singleton.mpr hsrc⟩
  · simp only [List.forall_mem_append, List.forall_mem_singleton]
    exact ⟨⟨⟨rfl, rfl⟩, rfl⟩, rfl⟩

theorem asked_iff_guessed : ∃ tr s, Run (Step textLibs twoHosts) start tr s ∧ s.lost = 1 ∧ ∀ (k : Bool) (f : Flow),
    .expressInterest (f.dataName 2) false true ∈ (s.gateway k).face ↔
      ∃ m ≤ 2, 2 ≤ m + NUM_OF_GUEST ∧ ∃ p ∈ tr, p.2 = .arrive k (f.preName (BitVec.ofNat 32 m)) := by
  obtain ⟨tr, s, h, -, hb, hl, -⟩ := exists_guessed
  exact ⟨tr, s, h, hl, fun k f => asked_iff textLibs_lawful textLibs_escapes plain_twoHosts h hb k f (n := 2)
    (by decide)⟩

/-- The Interest for the second is answered. -/
theorem guess_recovers_guessed : ∃ tr s, Run (Step textLibs twoHosts) start tr s ∧ s.lost = 1 ∧
    (udpPing.tuple.bytes, ipText udpPing.tuple.flow.dstIp) ∈ (s.gateway false).rawSocket := by
  obtain ⟨tr, s, h, ho, hb, hl, ⟨p, hp, ha⟩, hg, hc, hput⟩ := exists_guessed
  have hmem : second ∈ s.pending false := List.count_pos_iff.mp (by omega)
  have h' := h.snoc (show Step textLibs twoHosts s (.answer false second second.name udpPing.tuple.bytes) _ from
    .answer hmem ⟨⟨true, hput⟩, List.isPrefixOf_iff_prefix.mpr (List.prefix_refl _)⟩)
  have hx : after (onData textLibs (textLibs.ofUri second.name) _ second.isPre second.isTCP) (s.gateway false) = _ :=
    after_onData_interest textLibs_lawful (.numbered udpPing.tuple.flow 2) udpPing.tuple.bytes _
  rw [run_of_face { s with pending := Function.update s.pending false ((s.pending false).erase second) } hx rfl] at h'
  refine ⟨_, _, h', hl, guess_recovers textLibs_lawful textLibs_escapes plain_twoHosts apart_twoHosts h' ho hb
    (m := 1) (n := 2) (by decide) (by decide) (by decide) ⟨p, List.mem_append_left _ hp, ha⟩ ?_ ?_ (j := true) hput⟩
  · rw [List.forall_mem_append, List.forall_mem_singleton]
    exact ⟨fun q hq => by rw [hg q hq]; exact nofun, nofun⟩
  · have hn : ((s.pending false).erase second).count second = 0 := by rw [List.count_erase_self, hc]
    simp only [Function.update_self]
    exact List.count_eq_zero.mp hn

end Network

end IpNdn
