import IpNdnStack.Framework.Numbering
import IpNdnStack.Impl.LibPcapHelper
import IpNdnStack.Proof.Names

/-!
# What `deal` publishes

`deal` of one tuple takes its number from the table, if its flow has numbers, and
then publishes it (`deal_eq`, `deal_other_eq`), unless its bytes would be read
from `nullptr` (`publish_nullRead`). The table counts the tuples of every flow
(`Counts`), so a run of `deal` numbers each flow's tuples from 1 on
(`dealAll_numbered`), and no two tuples of the run have one name
(`dealAll_gapFree`).
-/

namespace IpNdn

open Handler IpNdn.Numbering

/-- A packet of a flow with numbers: TCP or UDP. -/
def Tuple.Numbered (t : Tuple) : Prop := t.key.proto = IPPROTO_TCP ∨ t.key.proto = IPPROTO_UDP

instance (t : Tuple) : Decidable t.Numbered := by unfold Tuple.Numbered; infer_instance

/-- The packet is there, or it has no bytes. -/
def Tuple.HasBytes (t : Tuple) : Prop := t.pkt ≠ none ∨ t.ipSize = 0

instance (t : Tuple) : Decidable t.HasBytes := inferInstanceAs (Decidable (_ ∨ _))

/-- The packet's bytes, where it has them. -/
def Tuple.bytes (t : Tuple) : List Byte := t.content.getD []

theorem Tuple.HasBytes.content_eq {t : Tuple} (h : t.HasBytes) : t.content = some t.bytes := by
  rcases hp : t.pkt with _ | p
  · have h0 : t.ipSize = 0 := h.resolve_left fun hn => hn hp
    simp only [bytes, content, hp, h0, if_true, Option.getD_some]
  · simp only [bytes, content, hp, Option.getD_some]

theorem Tuple.content_of_not {t : Tuple} (h : ¬ t.HasBytes) : t.content = none := by
  rw [HasBytes, not_or, not_not] at h
  simp only [content, h.1, if_neg h.2]

/-- The calls for a tuple that is packet `n` of its flow: its Data, then its
pre-request. -/
def numberedCalls (t : Tuple) (n : BitVec 32) : List FaceCall :=
  [.putDataToCache (t.flow.dataName n) t.bytes, .expressInterest (t.flow.preName n) true false]

/-- The name of the Data of a tuple of another protocol, and of its pre-request. -/
def Tuple.otherDataName (t : Tuple) (uuid : Text) : Text :=
  (buildName t.key.srcIp t.key.dstIp t.key.srcPort t.key.dstPort 2 (-1) uuid).1

def Tuple.otherPreName (t : Tuple) (uuid : Text) : Text :=
  (buildName t.key.srcIp t.key.dstIp t.key.srcPort t.key.dstPort 1 (-1) uuid).1

/-- The calls for it. -/
def otherCalls (t : Tuple) (uuid : Text) : List FaceCall :=
  [.putDataToCache (t.otherDataName uuid) t.bytes, .expressInterest (t.otherPreName uuid) true false]

/-- The table has the number of packets of each flow, and no entry for a flow
without packets. -/
def Counts (c : Flow → Nat) (m : MapCacheHelper (BitVec 32)) : Prop :=
  ∀ f : Flow, m.get f.key = if c f = 0 then none else some (BitVec.ofNat 32 (c f))

theorem Counts.empty : Counts (fun _ => 0) .empty := fun _ => rfl

/-- One more packet of `f`. -/
theorem Counts.update {c : Flow → Nat} {m : MapCacheHelper (BitVec 32)} (h : Counts c m) (f : Flow) :
    Counts (Function.update c f (c f + 1))
      ⟨Function.update m.ipPacketCache f.key (some (BitVec.ofNat 32 (c f + 1)))⟩ := by
  intro f'
  rw [MapCacheHelper.get_update]
  by_cases e : f' = f
  · subst e
    rw [if_pos rfl, Function.update_self, if_neg (Nat.succ_ne_zero _)]
  · rw [if_neg fun hk => e (Flow.key_inj hk), Function.update_of_ne e, h f']

/-! ## One tuple -/

/-- What every branch ends with. -/
def publish (dataName preName : Text) (t : Tuple) : GatewayM Unit := do
  putDataToCache dataName t
  expressInterest preName

theorem publish_ok (dataName preName : Text) {t : Tuple} (ht : t.HasBytes) (g : Gateway) :
    publish dataName preName t g = .ok ⟨⟩
      { g with face := g.face ++ [.putDataToCache dataName t.bytes, .expressInterest preName true false] } := by
  simp only [publish, putDataToCache, ht.content_eq, expressInterest]
  rw [bind_of_ok (modify_apply _ _), modify_apply]
  simp only [List.append_assoc, List.singleton_append]

/-- Without its bytes, nothing of a tuple goes out. -/
theorem publish_nullRead (dataName preName : Text) {t : Tuple} (ht : ¬ t.HasBytes) (g : Gateway) :
    publish dataName preName t g = .error .nullRead g := by
  simp only [publish, putDataToCache, Tuple.content_of_not ht]
  exact bind_of_error (throw_apply _ _)

/-- The number of the next packet of a flow. -/
def nextNumber (m : MapCacheHelper (BitVec 32)) (f : Flow) : BitVec 32 := (m.get f.key).elim 1 (· + 1)

/-- The gateway with this number for a flow. -/
def Gateway.numbered (g : Gateway) (f : Flow) (n : BitVec 32) : Gateway :=
  { g with sequenceTable := ⟨Function.update g.sequenceTable.ipPacketCache f.key (some n)⟩ }

/-- The gateway after it has published a tuple as packet `n` of its flow. -/
def Gateway.published (g : Gateway) (t : Tuple) (n : BitVec 32) : Gateway :=
  { g with
    sequenceTable := ⟨Function.update g.sequenceTable.ipPacketCache t.flow.key (some n)⟩
    face := g.face ++ numberedCalls t n }

/-- The two branches for TCP and UDP, for a first packet and for those after it,
give numbers and publish in the same way. -/
theorem deal_eq {t : Tuple} (ht : t.Numbered) (uuid : Text) (g : Gateway) :
    deal t uuid g =
      publish (t.flow.dataName (nextNumber g.sequenceTable t.flow))
        (t.flow.preName (nextNumber g.sequenceTable t.flow)) t
        (g.numbered t.flow (nextNumber g.sequenceTable t.flow)) := by
  unfold Tuple.Numbered at ht
  have hk : t.flow.key = build4TupleKey t.key.srcIp t.key.dstIp t.key.srcPort t.key.dstPort := rfl
  rw [deal, if_pos ht]
  dsimp only
  rw [bind_of_ok (get_apply g), ← hk]
  rcases hg : g.sequenceTable.get t.flow.key with _ | v
  · simp only [MapCacheHelper.save_of_none hg, Bool.not_true, Bool.false_eq_true, if_false]
    rw [bind_of_ok (set_apply _ _)]
    simp only [nextNumber, hg]
    rfl
  · simp only [MapCacheHelper.getAndIncreaseSequence_of_some hg, Bool.not_true, Bool.false_eq_true, if_false]
    rw [bind_of_ok (set_apply _ _)]
    simp only [nextNumber, hg]
    rfl

theorem deal_other_eq {t : Tuple} (ht : ¬ t.Numbered) (uuid : Text) (g : Gateway) :
    deal t uuid g = publish (t.otherDataName uuid) (t.otherPreName uuid) t g := by
  unfold Tuple.Numbered at ht
  rw [deal, if_neg ht]
  rfl

/-- A tuple of a flow with numbers, with its bytes. -/
theorem deal_next {t : Tuple} (ht : t.Numbered) (hb : t.HasBytes) (uuid : Text) (g : Gateway) :
    deal t uuid g = .ok ⟨⟩ (g.published t (nextNumber g.sequenceTable t.flow)) := by
  rw [deal_eq ht, publish_ok _ _ hb]
  rfl

/-- The number is the one that the count says. -/
theorem deal_numbered {t : Tuple} (uuid : Text) {c : Flow → Nat} {g : Gateway} (ht : t.Numbered) (hb : t.HasBytes)
    (hc : Counts c g.sequenceTable) :
    deal t uuid g = .ok ⟨⟩ (g.published t (BitVec.ofNat 32 (c t.flow + 1))) := by
  rw [deal_next ht hb, nextNumber, hc t.flow]
  by_cases h0 : c t.flow = 0
  · rw [if_pos h0, h0]
    rfl
  · rw [if_neg h0, BitVec.ofNat_add]
    rfl

theorem deal_other {t : Tuple} (uuid : Text) (g : Gateway) (ht : ¬ t.Numbered) (hb : t.HasBytes) :
    deal t uuid g = .ok ⟨⟩ { g with face := g.face ++ otherCalls t uuid } := by
  rw [deal_other_eq ht, publish_ok _ _ hb]
  rfl

/-! ## A run -/

/-- `deal` of tuples one after another, each with what `generateUUID` would
return for it. -/
def dealAll (l : List (Tuple × Text)) : GatewayM Unit := forM l fun p => deal p.1 p.2

/-- How many tuples of a run are of a flow. -/
def packets (f : Flow) (l : List (Tuple × Text)) : Nat := count (·.1.flow) f l

/-- A run numbers the tuples by flow, from what the table has counted on. -/
theorem dealAll_numbered {l : List (Tuple × Text)} (hl : ∀ p ∈ l, p.1.Numbered) (hp : ∀ p ∈ l, p.1.HasBytes)
    (c : Flow → Nat) (g : Gateway) (hc : Counts c g.sequenceTable) :
    ∃ g', dealAll l g = .ok ⟨⟩ g' ∧
      g'.face = g.face ++
        (numbered (·.1.flow) c l).flatMap (fun q => numberedCalls q.1.1 (BitVec.ofNat 32 q.2)) ∧
      Counts (l.foldl (tick (·.1.flow)) c) g'.sequenceTable := by
  induction l generalizing c g with
  | nil => exact ⟨g, rfl, (List.append_nil _).symm, hc⟩
  | cons p l ih =>
    have hd := deal_numbered p.2 (hl p List.mem_cons_self) (hp p List.mem_cons_self) hc
    obtain ⟨g', hg', hf, ht⟩ := ih (fun q hq => hl q (List.mem_cons_of_mem _ hq))
      (fun q hq => hp q (List.mem_cons_of_mem _ hq))
      (tick (·.1.flow) c p) (g.published p.1 (BitVec.ofNat 32 (c p.1.flow + 1))) (hc.update p.1.flow)
    refine ⟨g', ?_, ?_, ht⟩
    · rw [dealAll, List.forM_cons, bind_of_ok hd]
      exact hg'
    · rw [hf, numbered, List.flatMap_cons, Gateway.published, List.append_assoc]

/-- The names put, in order. -/
def putNames (calls : List FaceCall) : List Text :=
  calls.filterMap fun
    | .putDataToCache name _ => some name
    | .expressInterest .. => none

theorem putNames_numbered (qs : List ((Tuple × Text) × Nat)) :
    putNames (qs.flatMap fun q => numberedCalls q.1.1 (BitVec.ofNat 32 q.2)) =
      (qs.map fun q => (q.1.1.flow, q.2)).map fun q => q.1.dataName (BitVec.ofNat 32 q.2) := by
  induction qs with
  | nil => rfl
  | cons q qs ih =>
    rw [List.flatMap_cons, putNames, List.filterMap_append, ← putNames, ← putNames, ih]
    rfl

theorem ofNat_inj {m n : Nat} (hm : m < 2 ^ 32) (hn : n < 2 ^ 32) (h : BitVec.ofNat 32 m = BitVec.ofNat 32 n) :
    m = n := by
  have := congrArg BitVec.toNat h
  rwa [BitVec.toNat_ofNat, BitVec.toNat_ofNat, Nat.mod_eq_of_lt hm, Nat.mod_eq_of_lt hn] at this

theorem toInt_ofNat {n : Nat} (h : n < 2 ^ 31) : (BitVec.ofNat 32 n).toInt = n := by
  have e : (BitVec.ofNat 32 n).toNat = n := by rw [BitVec.toNat_ofNat, Nat.mod_eq_of_lt (by omega)]
  rw [BitVec.toInt_eq_toNat_of_lt (by omega), e]

/-- From an empty table, tuple `i` of a run, all with their bytes, is published and announced as
packet `k` of its flow, the `k`-th such tuple; the table ends with the number
of tuples of each flow; and no name is put twice. -/
theorem dealAll_gapFree (l : List (Tuple × Text)) (g : Gateway) (hl : ∀ p ∈ l, p.1.Numbered)
    (hp : ∀ p ∈ l, p.1.HasBytes) (hg : g.sequenceTable = .empty) (hb : ∀ f, packets f l < 2 ^ 31) :
    ∃ g' calls, dealAll l g = .ok ⟨⟩ g' ∧ g'.face = g.face ++ calls ∧
      calls = l.zipIdx.flatMap (fun q =>
        numberedCalls q.1.1 (BitVec.ofNat 32 (packets q.1.1.flow (l.take (q.2 + 1))))) ∧
      (∀ p ∈ l, ∃ v, g'.sequenceTable.get p.1.flow.key = some v ∧ v.toInt = packets p.1.flow l) ∧
      (∀ f, packets f l = 0 → g'.sequenceTable.get f.key = none) ∧
      (putNames calls).Nodup := by
  obtain ⟨g', hr, hf, ht⟩ := dealAll_numbered hl hp (fun _ => 0) g (hg ▸ Counts.empty)
  have hc : ∀ f, l.foldl (tick (·.1.flow)) (fun _ => 0) f = packets f l := fun f => by
    rw [foldl_count_eq, Nat.zero_add, packets]
  refine ⟨g', _, hr, hf, ?_, fun p hp => ?_, fun f h0 => ?_, ?_⟩
  · rw [numbered_eq, List.flatMap_map]
    simp only [Nat.zero_add, packets]
  · have h1 : packets p.1.flow l ≠ 0 := by
      have : 0 < packets p.1.flow l := List.countP_pos_iff.mpr ⟨p, hp, decide_eq_true rfl⟩
      omega
    refine ⟨BitVec.ofNat 32 (packets p.1.flow l), ?_, ?_⟩
    · rw [ht, hc, if_neg h1]
    · exact toInt_ofNat (hb p.1.flow)
  · rw [ht, hc, if_pos h0]
  · rw [putNames_numbered]
    refine List.Nodup.map_on (fun x hx y hy e => ?_) (numbered_nodup (fun p : Tuple × Text => p.1.flow) _ _)
    obtain ⟨a, ha, rfl⟩ := List.mem_map.mp hx
    obtain ⟨b, hb', rfl⟩ := List.mem_map.mp hy
    obtain ⟨hk, hn⟩ := Flow.dataName_inj e
    have ha := le_of_mem_numbered _ ha
    have hb' := le_of_mem_numbered _ hb'
    have h1 := hb a.1.1.flow
    have h2 := hb b.1.1.flow
    unfold packets at h1 h2
    exact Prod.ext hk (ofNat_inj (by omega) (by omega) hn)

/-- A TCP tuple from 192.168.1.4 to 192.168.1.1, to port 80 as in memory. -/
def tcpTuple (srcPort : BitVec 16) : Tuple :=
  { Tuple.new with key := ⟨0x0401a8c0, 0x0101a8c0, srcPort, 80, IPPROTO_TCP⟩ }

/-- Two flows, in turn. -/
theorem dealAll_gapFree_twoFlows :
    ∃ g', dealAll [(tcpTuple 1, []), (tcpTuple 2, []), (tcpTuple 1, [])] .init = .ok ⟨⟩ g' ∧
      g'.face = numberedCalls (tcpTuple 1) 1 ++ numberedCalls (tcpTuple 2) 1 ++ numberedCalls (tcpTuple 1) 2 := by
  obtain ⟨g', calls, hr, hf, rfl, -⟩ := dealAll_gapFree [(tcpTuple 1, []), (tcpTuple 2, []), (tcpTuple 1, [])]
    .init (by decide) (by decide) rfl fun f => lt_of_le_of_lt List.countP_le_length (by decide)
  exact ⟨g', hr, hf⟩

end IpNdn
