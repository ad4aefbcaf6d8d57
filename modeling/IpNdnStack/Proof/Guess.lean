import IpNdnStack.Proof.Publisher
import IpNdnStack.Proof.Receiver

/-!
# Runs of pre-requests

A pre-request built by `buildName` is a request of the window for its packet,
with guesses for the `NUM_OF_GUEST` packets after it (`dealOnInterest_pre`), so
what `Window` says of runs holds of the gateway: every packet a pre-request
names or guesses is asked for (`preRequests_window`), and packets are asked for
once just when no pre-request is for a packet another guessed
(`preRequests_once_iff`).
-/

namespace IpNdn

open Handler

/-- What a pre-request for packet `n` asks for: the packet, and the packets
after it. -/
def Flow.request (f : Flow) (n : BitVec 32) : Text × List Text :=
  (f.dataName n, (List.range NUM_OF_GUEST).map fun i => f.dataName (n + BitVec.ofNat 32 (i + 1)))

section

variable {L : Libs}

theorem split_uidText (hL : L.Lawful) (sport dport : BitVec 16) {n : BitVec 32} (hn : n.toNat < 2 ^ 31) :
    L.split (uidText sport dport n) '-' = [portText sport, portText dport, intText n.toInt] := by
  have hd : ∀ p, '-' ∉ portText p := fun p => notMem_natText (by decide) _
  have hi : '-' ∉ intText n.toInt := by
    rw [intText_of_nonneg (by rw [BitVec.toInt_eq_toNat_of_lt (by omega)]; omega)]
    exact notMem_natText (by decide) _
  rw [hL.split_eq, uidText_eq, splitOn_uid (hd _) (hd _), List.splitOn_eq_singleton hi]

theorem guessPrefix_eq (f : Flow) (uid : Text) :
    guessPrefix (ipText f.srcIp) (ipText f.dstIp) ++ '/' :: uid =
      uriOf [cIP, cTCP, ipText f.srcIp, ipText f.dstIp, uid] := by
  have h (t a b c : Text) : t ++ uriOf [a, b, c] = t ++ '/' :: a ++ '/' :: b ++ '/' :: c := by
    simp only [uriOf, List.flatMap_cons, List.flatMap_nil, List.append_assoc, List.cons_append, List.append_nil]
  have h' := uriOf_append [cIP, cTCP] [ipText f.srcIp, ipText f.dstIp, uid]
  rw [← prefixes_eq.2.2.2, h] at h'
  exact h'.symm

theorem Flow.split_preName (hL : L.Lawful) (f : Flow) (n : BitVec 32) :
    L.split (f.preName n) '/' = [] :: f.preParts n := by
  rw [hL.split_eq, f.preName_eq, splitOn_uriOf fun c hc => (f.plain_preParts n c hc).slash]

/-- The receiver turns the name of a pre-request into the names of Data. -/
theorem dealOnInterest_preName (hL : L.Lawful) (f : Flow) {n : BitVec 32} (hn : n.toNat < 2 ^ 31)
    {interest : L.Name} (hi : L.toUri interest = f.preName n) (g : Gateway) (w : Window Text) :
    dealOnInterest L interest true true (g.withWindow w) =
      .ok ⟨⟩ (g.withWindow (w.request (f.request n))) := by
  have hp : L.split (L.toUri interest) '/' = [] :: f.preParts n := by rw [hi, f.split_preName hL]
  have hu := split_uidText hL f.srcPort f.dstPort hn
  have hf (i : Nat) : (L.split (L.toUri interest) '/')[i]? = ([] :: f.preParts n)[i]? := by rw [hp]
  have hv (i : Nat) : (L.split (uidText f.srcPort f.dstPort n) '-')[i]? =
    [portText f.srcPort, portText f.dstPort, intText n.toInt][i]? := by rw [hu]
  have h := dealOnTcpPreRequest_ok (hf 4) (hf 5) (hf 6) (hv 0) (hv 1) (hv 2) (hL.lexicalCast_intText n) g w
  have hg (m : BitVec 32) : guessPrefix (ipText f.srcIp) (ipText f.dstIp) ++ '/' :: portText f.srcPort ++
      '-' :: portText f.dstPort ++ ['-'] ++ intText m.toInt = f.dataName m := by
    rw [f.dataName_eq, Flow.dataParts, ← guessPrefix_eq]
    simp only [uidText, flowUid, List.append_assoc, List.cons_append, List.nil_append]
  rw [guessPrefix_eq, ← Flow.dataParts, ← f.dataName_eq] at h
  simp only [guessNames, hg] at h
  exact h

theorem Flow.toUri_preName (hL : L.Lawful) (f : Flow) (n : BitVec 32) :
    L.toUri (L.ofUri (f.preName n)) = f.preName n := by
  rw [f.preName_eq]
  exact hL.toUri_ofUri (List.cons_ne_nil _ _) (f.plain_preParts n)

theorem dealOnInterest_pre (hL : L.Lawful) (f : Flow) {n : BitVec 32} (hn : n.toNat < 2 ^ 31) (g : Gateway)
    (w : Window Text) :
    dealOnInterest L (L.ofUri (f.preName n)) true true (g.withWindow w) =
      .ok ⟨⟩ (g.withWindow (w.request (f.request n))) :=
  dealOnInterest_preName hL f hn (f.toUri_preName hL n) g w

/-! ## Runs -/

theorem toNat_ofNat_lt {n : Nat} (h : n < 2 ^ 31) : (BitVec.ofNat 32 n).toNat < 2 ^ 31 := by
  rwa [BitVec.toNat_ofNat, Nat.mod_eq_of_lt (by omega)]

/-- Pre-requests for the given packets, handled one after another. -/
def preRequests (L : Libs) (rs : List (Flow × Nat)) : GatewayM Unit :=
  forM rs fun r => dealOnInterest L (L.ofUri (r.1.preName (BitVec.ofNat 32 r.2))) true true

/-- The run as the window sees it. -/
def requests (rs : List (Flow × Nat)) : List (Text × List Text) := rs.map fun r => r.1.request (BitVec.ofNat 32 r.2)

theorem preRequests_ok (hL : L.Lawful) {rs : List (Flow × Nat)} (hr : ∀ r ∈ rs, r.2 < 2 ^ 31) (g : Gateway)
    (w : Window Text) :
    preRequests L rs (g.withWindow w) = .ok ⟨⟩ (g.withWindow (w.run (requests rs))) := by
  induction rs generalizing w with
  | nil => rfl
  | cons r rs ih =>
    have hn := toNat_ofNat_lt (hr r List.mem_cons_self)
    have h := ih (fun q hq => hr q (List.mem_cons_of_mem _ hq)) (w.request (r.1.request (BitVec.ofNat 32 r.2)))
    rw [preRequests, List.forM_cons, bind_of_ok (dealOnInterest_pre hL r.1 hn g w), requests, List.map_cons,
      Window.run_cons]
    exact h

/-- From an empty table, a run's calls are what an empty window expresses. -/
theorem preRequests_empty (hL : L.Lawful) {g : Gateway} (hg : g.prefixGuestTable = .empty)
    {rs : List (Flow × Nat)} (hr : ∀ r ∈ rs, r.2 < 2 ^ 31) :
    ∃ g', preRequests L rs g = .ok ⟨⟩ g' ∧
      g'.face = g.face ++ (Window.empty.run (requests rs)).expressed.map (.expressInterest · false true) := by
  have h := preRequests_ok hL hr g ⟨g.prefixGuestTable.s, []⟩
  rw [Gateway.withWindow_self, hg] at h
  exact ⟨_, h, rfl⟩

/-- From an empty table, once a pre-request for packet `m` of a flow was
handled, packets `m` to `m + NUM_OF_GUEST` have been asked for. -/
theorem preRequests_window (hL : L.Lawful) (g : Gateway) (hg : g.prefixGuestTable = .empty)
    (rs : List (Flow × Nat)) (hr : ∀ r ∈ rs, r.2 + NUM_OF_GUEST < 2 ^ 31) :
    ∃ g' calls, preRequests L rs g = .ok ⟨⟩ g' ∧ g'.face = g.face ++ calls ∧
      ∀ r ∈ rs, ∀ j ≤ NUM_OF_GUEST,
        .expressInterest (r.1.dataName (BitVec.ofNat 32 (r.2 + j))) false true ∈ calls := by
  obtain ⟨g', hg', hf⟩ := preRequests_empty hL hg fun r h => lt_of_le_of_lt (Nat.le_add_right _ _) (hr r h)
  refine ⟨g', _, hg', hf, fun r h j hj => List.mem_map_of_mem ?_⟩
  have hm : r.1.request (BitVec.ofNat 32 r.2) ∈ requests rs := List.mem_map_of_mem h
  refine ((Window.covered_empty fun _ => False).mem_run hm ?_).resolve_left id
  rcases j with _ | i
  · exact .inl rfl
  · refine .inr (List.mem_map.mpr ⟨i, List.mem_range.mpr hj, ?_⟩)
    rw [BitVec.ofNat_add r.2]

/-- The last number whose guesses are still numbers, and another flow's first. -/
theorem preRequests_window_edge :
    ∃ g' calls, preRequests textLibs [(⟨1, 2, 3, 4⟩, 2 ^ 31 - 61), (⟨2, 1, 4, 3⟩, 1)] .init = .ok ⟨⟩ g' ∧
      g'.face = [] ++ calls ∧
      .expressInterest (Flow.dataName ⟨1, 2, 3, 4⟩ (BitVec.ofNat 32 (2 ^ 31 - 61 + 60))) false true ∈ calls := by
  obtain ⟨g', calls, hg', hf, h⟩ := preRequests_window textLibs_lawful .init rfl
    [(⟨1, 2, 3, 4⟩, 2 ^ 31 - 61), (⟨2, 1, 4, 3⟩, 1)] (by decide)
  exact ⟨g', calls, hg', hf, h _ List.mem_cons_self 60 (by decide)⟩

/-! ## No packet twice -/

/-- The names of the Interests expressed, in order. -/
def interestNames (calls : List FaceCall) : List Text :=
  calls.filterMap fun
    | .expressInterest name .. => some name
    | .putDataToCache .. => none

theorem interestNames_map (names : List Text) :
    interestNames (names.map (.expressInterest · false true)) = names := by
  rw [interestNames, List.filterMap_map]
  exact List.filterMap_some

/-- Data for the packets `ds`, handled one after another. -/
def onDataAll (L : Libs) (content : Flow × BitVec 32 → List Byte) (ds : List (Flow × BitVec 32)) : GatewayM Unit :=
  forM ds fun d => onData L (L.ofUri (d.1.dataName d.2)) (content d) false true

/-- Each name is asked for at most once; and from then on, with at most one
Data for each Interest, each packet goes to the raw socket at most once,
whatever the Data are and in whatever order they come. -/
def NoDuplicate (L : Libs) (g : Gateway) (rs : List (Flow × Nat)) : Prop :=
  ∃ g' calls, preRequests L rs g = .ok ⟨⟩ g' ∧ g'.face = g.face ++ calls ∧ (interestNames calls).Nodup ∧
    ∀ ds : List (Flow × BitVec 32), List.Subperm (ds.map fun d => d.1.dataName d.2) (interestNames calls) →
      ∀ content, ∃ g'', onDataAll L content ds g' = .ok ⟨⟩ g'' ∧
        g''.rawSocket = g'.rawSocket ++ ds.map (fun d => (content d, ipText d.1.dstIp)) ∧ ds.Nodup

theorem onData_packet (hL : L.Lawful) (d : Flow × BitVec 32) (content : List Byte) (g : Gateway) :
    onData L (L.ofUri (d.1.dataName d.2)) content false true g =
      .ok ⟨⟩ { g with rawSocket := g.rawSocket ++ [(content, ipText d.1.dstIp)] } := by
  have hp : L.split (L.toUri (L.ofUri (d.1.dataName d.2))) '/' = [] :: d.1.dataParts d.2 := by
    rw [Flow.dataName_eq]
    exact hL.split_ofUri (List.cons_ne_nil _ _) (d.1.plain_dataParts d.2)
  exact dealOnData_ok (by rw [hp]; rfl) content g

theorem onDataAll_ok (hL : L.Lawful) (content : Flow × BitVec 32 → List Byte) (ds : List (Flow × BitVec 32))
    (g : Gateway) :
    onDataAll L content ds g = .ok ⟨⟩
      { g with rawSocket := g.rawSocket ++ ds.map fun d => (content d, ipText d.1.dstIp) } := by
  induction ds generalizing g with
  | nil => simp only [List.map_nil, List.append_nil]; rfl
  | cons d ds ih =>
    have h := ih { g with rawSocket := g.rawSocket ++ [(content d, ipText d.1.dstIp)] }
    rw [onDataAll, List.forM_cons, bind_of_ok (onData_packet hL d (content d) g), List.map_cons]
    exact h.trans (by simp only [List.append_assoc, List.singleton_append])

theorem NoDuplicate.nodup (hL : L.Lawful) {g : Gateway} (hg : g.prefixGuestTable = .empty)
    {rs : List (Flow × Nat)} (hr : ∀ r ∈ rs, r.2 < 2 ^ 31) (h : NoDuplicate L g rs) :
    (Window.empty.run (requests rs)).expressed.Nodup := by
  obtain ⟨g', hg', hf⟩ := preRequests_empty hL hg hr
  obtain ⟨g₁, calls, h₁, hf₁, hn, -⟩ := h
  cases h₁.symm.trans hg'
  rwa [List.append_cancel_left (hf₁.symm.trans hf), interestNames_map] at hn

/-- A packet is a guess of another just when it is one of the `NUM_OF_GUEST`
packets after it in its flow. -/
theorem mem_request_iff {f g : Flow} {m n : Nat} (hm : m < 2 ^ 31) (hn : n < 2 ^ 31) :
    f.dataName (BitVec.ofNat 32 m) ∈ (g.request (BitVec.ofNat 32 n)).2 ↔
      f = g ∧ n < m ∧ m ≤ n + NUM_OF_GUEST := by
  have hk : NUM_OF_GUEST = 60 := rfl
  have e (i : Nat) : BitVec.ofNat 32 n + BitVec.ofNat 32 (i + 1) = BitVec.ofNat 32 (n + (i + 1)) :=
    (BitVec.ofNat_add ..).symm
  simp only [Flow.request, List.mem_map, List.mem_range, e]
  refine ⟨fun h => ?_, fun h => ?_⟩
  · obtain ⟨i, hi, h⟩ := h
    obtain ⟨rfl, hb⟩ := Flow.dataName_inj h
    have := ofNat_inj (by omega) (by omega) hb
    exact ⟨rfl, by omega, by omega⟩
  · obtain ⟨rfl, h1, h2⟩ := h
    exact ⟨m - n - 1, by omega, by rw [show n + (m - n - 1 + 1) = m by omega]⟩

theorem nodup_requests_iff {rs : List (Flow × Nat)} (hr : ∀ r ∈ rs, r.2 < 2 ^ 31) (hd : rs.Nodup) :
    (Window.empty.run (requests rs)).expressed.Nodup ↔
      ∀ r ∈ rs, ∀ q ∈ rs, r.1 = q.1 → q.2 < r.2 → q.2 + NUM_OF_GUEST < r.2 := by
  have hdist : ((requests rs).map (·.1)).Nodup := by
    rw [requests, List.map_map]
    refine List.Nodup.map_on (fun r h q hq e => ?_) hd
    obtain ⟨h1, h2⟩ := Flow.dataName_inj e
    have hr1 := hr r h
    have hq1 := hr q hq
    exact Prod.ext h1 (ofNat_inj (by omega) (by omega) h2)
  have hown : ∀ r ∈ requests rs, r.1 ∉ r.2 := fun r h hm => by
    obtain ⟨q, hq, rfl⟩ := List.mem_map.mp h
    have := (mem_request_iff (hr q hq) (hr q hq)).mp hm
    omega
  rw [Window.nodup_run_iff hdist hown]
  simp only [requests, List.forall_mem_map]
  refine forall₂_congr fun r h => forall₂_congr fun q hq => ?_
  rw [show (r.1.request (BitVec.ofNat 32 r.2)).1 = r.1.dataName (BitVec.ofNat 32 r.2) from rfl,
    mem_request_iff (hr r h) (hr q hq)]
  refine ⟨fun hn he hlt => ?_, fun hn h => ?_⟩
  · by_contra hle
    exact hn ⟨he, hlt, by omega⟩
  · obtain ⟨he, hlt, hle⟩ := h
    have := hn he hlt
    omega

/-- From an empty table, distinct pre-requests ask for no packet twice just
when no two of one flow are for packets at most `NUM_OF_GUEST` apart. -/
theorem preRequests_once_iff (hL : L.Lawful) (g : Gateway) (hg : g.prefixGuestTable = .empty)
    (rs : List (Flow × Nat)) (hr : ∀ r ∈ rs, r.2 < 2 ^ 31) (hd : rs.Nodup) :
    NoDuplicate L g rs ↔ ∀ r ∈ rs, ∀ q ∈ rs, r.1 = q.1 → q.2 < r.2 → q.2 + NUM_OF_GUEST < r.2 := by
  rw [← nodup_requests_iff hr hd]
  refine ⟨fun h => h.nodup hL hg hr, fun hn => ?_⟩
  obtain ⟨g', hg', hf⟩ := preRequests_empty hL hg hr
  refine ⟨g', _, hg', hf, by rwa [interestNames_map], fun ds hs content => ?_⟩
  refine ⟨_, onDataAll_ok hL content ds g', rfl, ?_⟩
  rw [interestNames_map] at hs
  obtain ⟨l, hp, hl⟩ := hs
  exact List.Nodup.of_map _ (hp.nodup_iff.mp (hl.nodup hn))

/-- Packets 1 and 62 of one flow: nothing is asked for twice. -/
theorem preRequests_once_apart : NoDuplicate textLibs .init [(⟨1, 2, 3, 4⟩, 1), (⟨1, 2, 3, 4⟩, 62)] :=
  (preRequests_once_iff textLibs_lawful .init rfl _ (by decide) (by decide)).mpr (by decide)

/-- Packets 1 and 2: the second is guessed with the first, and asked for again. -/
theorem preRequests_not_once : ¬ NoDuplicate textLibs .init [(⟨1, 2, 3, 4⟩, 1), (⟨1, 2, 3, 4⟩, 2)] := by
  intro h
  have hc := (nodup_requests_iff (by decide) (by decide)).mp (h.nodup textLibs_lawful rfl (by decide))
  exact absurd hc (by decide)

end

end IpNdn
