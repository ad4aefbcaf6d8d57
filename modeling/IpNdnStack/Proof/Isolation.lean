import IpNdnStack.Proof.Guess
import IpNdnStack.Proof.Node

/-!
# One flow's pre-requests and another's

All TCP and UDP flows share one table of guesses, and all their Interests go out
on one face. A pre-request still asks for Interests of its own flow only
(`AsksFor`), so what a gateway asks for of a flow, and what its table has of it, is
what the flow's own pre-requests make of them, whatever else the gateway handles
in between (`Node.flows_independent`).
-/

namespace IpNdn

open Handler

/-! ## Flows in names -/

/-- The flow of a name `/IP/TCP/sip/dip/sport-dport-seq`: all of it but `seq`. -/
def flowOf (name : Text) : List Text × List Text :=
  ((name.splitOn '/').dropLast, (((name.splitOn '/').getLastD []).splitOn '-').take 2)

theorem flowOf_uriOf {cs : List Text} {uid : Text} (hc : ∀ c ∈ cs, '/' ∉ c) (hu : '/' ∉ uid) :
    flowOf (uriOf cs ++ '/' :: uid) = ([] :: cs, (uid.splitOn '-').take 2) := by
  have e : uriOf cs ++ '/' :: uid = uriOf (cs ++ [uid]) := by
    rw [uriOf_append, uriOf_cons]
    exact congrArg _ (List.append_nil _).symm
  have hs : (uriOf cs ++ '/' :: uid).splitOn '/' = ([] :: cs) ++ [uid] := by
    rw [e, splitOn_uriOf, List.cons_append]
    rw [List.forall_mem_append, List.forall_mem_singleton]
    exact ⟨hc, hu⟩
  rw [flowOf, hs, List.dropLast_concat, List.getLastD_concat]

theorem flowOf_guessPrefix {dip sip uid : Text} (hd : '/' ∉ dip) (hs : '/' ∉ sip) (hu : '/' ∉ uid) :
    flowOf (guessPrefix dip sip ++ '/' :: uid) = ([[], cIP, cTCP, dip, sip], (uid.splitOn '-').take 2) := by
  have hc : ∀ c ∈ [cIP, cTCP, dip, sip], '/' ∉ c := by
    simp only [List.forall_mem_cons]
    exact ⟨plain_fixed.1.slash, plain_fixed.2.1.slash, hd, hs, fun _ h => absurd h List.not_mem_nil⟩
  rw [guessPrefix_uriOf, flowOf_uriOf hc hu]

/-- Packets have the same flow in their names just when they are of one flow. -/
theorem flowOf_dataName_iff (f g : Flow) (m n : BitVec 32) :
    flowOf (f.dataName m) = flowOf (g.dataName n) ↔ f = g := by
  have h (f : Flow) (n : BitVec 32) : flowOf (f.dataName n) =
      ([[], cIP, cTCP, ipText f.srcIp, ipText f.dstIp], [portText f.srcPort, portText f.dstPort]) := by
    have hp : ∀ c ∈ [cIP, cTCP, ipText f.srcIp, ipText f.dstIp, uidText f.srcPort f.dstPort n], '/' ∉ c :=
      fun c hc => (f.plain_dataParts n c hc).slash
    simp only [List.forall_mem_cons] at hp
    have hd : ∀ p, '-' ∉ portText p := fun p => notMem_natText (by decide) _
    rw [f.dataName_eq, Flow.dataParts, ← guessPrefix_eq, flowOf_guessPrefix hp.2.2.1 hp.2.2.2.1 hp.2.2.2.2.1,
      uidText_eq, splitOn_uid (hd _) (hd _)]
    rfl
  rw [h, h]
  simp only [Prod.mk.injEq, List.cons.injEq, true_and, and_true]
  constructor
  · rintro ⟨⟨hs, hd⟩, hp, hq⟩
    obtain ⟨srcIp, dstIp, srcPort, dstPort⟩ := f
    rw [Flow.mk.injEq]
    exact ⟨ipText_inj hs, ipText_inj hd, portText_inj hp, portText_inj hq⟩
  · intro e
    rw [e]
    exact ⟨⟨rfl, rfl⟩, rfl, rfl⟩

/-! ## What a gateway has asked for -/

/-- The TCP and UDP packets asked for, in order. -/
def tcpInterests (calls : List FaceCall) : List Text :=
  calls.filterMap fun
    | .expressInterest name false true => some name
    | _ => none

/-- The table of guesses, and all that was asked for. -/
def Gateway.window (g : Gateway) : Window Text := ⟨g.prefixGuestTable.s, tcpInterests g.face⟩

theorem tcpInterests_append (calls calls' : List FaceCall) :
    tcpInterests (calls ++ calls') = tcpInterests calls ++ tcpInterests calls' := List.filterMap_append

theorem tcpInterests_map (names : List Text) : tcpInterests (names.map (.expressInterest · false true)) = names := by
  rw [tcpInterests, List.filterMap_map]
  exact List.filterMap_some

/-- The publisher asks for no packet. -/
theorem tcpInterests_of_publishes {calls : List FaceCall} (h : ∀ c ∈ calls, c.publishes) : tcpInterests calls = [] := by
  refine List.filterMap_eq_nil_iff.mpr fun c hc => ?_
  have := h c hc
  cases c with
  | putDataToCache => rfl
  | expressInterest name isPre isTCP =>
    rw [FaceCall.publishes] at this
    rw [this]

/-- A gateway that asks for no TCP or UDP packet. -/
theorem Gateway.window_append (g : Gateway) {calls : List FaceCall} (h : tcpInterests calls = []) :
    Gateway.window { g with face := g.face ++ calls } = g.window := by
  rw [window, tcpInterests_append, h, List.append_nil, window]

theorem Gateway.window_request (g : Gateway) (r : Text × List Text) :
    (g.withWindow (Window.request ⟨g.prefixGuestTable.s, []⟩ r)).window = g.window.request r := by
  have e : g.window = Window.asked (tcpInterests g.face) ⟨g.prefixGuestTable.s, []⟩ := by
    rw [window, Window.asked, List.append_nil]
  rw [e, Window.asked_request, window, withWindow, Window.asked]
  simp only [tcpInterests_append, tcpInterests_map]

/-! ## What a pre-request asks for -/

section

variable {L : Libs} {n : Nat} {next : Option Text} {x y : GatewayM Unit}

theorem window_onData (name : L.Name) (content : List Byte) (isPre isTCP : Bool) (g : Gateway) :
    (after (onData L name content isPre isTCP) g).window = g.window := by
  obtain ⟨sent, hsent⟩ := exists_after_onData (L := L) name content isPre isTCP
  rw [hsent]
  rfl

/-- A request for `next`, and guesses of its flow. -/
def OfFlow (next : Option Text) (r : Text × List Text) : Prop := next = some r.1 ∧ ∀ a ∈ r.2, flowOf a = flowOf r.1

/-- A callback that asks at most `n` times for `next`, and each time for packets
of its flow only, whatever the gateway is. -/
def AsksFor (n : Nat) (next : Option Text) (x : GatewayM Unit) : Prop :=
  ∃ (fault : Option Fault) (f : Gateway → Gateway) (rs : List (Text × List Text)), (∀ g, x g = ended fault (f g)) ∧
    (∀ g, (f g).window = g.window.run rs) ∧ rs.length ≤ n ∧ ∀ r ∈ rs, OfFlow next r

/-- A callback that asks for no TCP or UDP packet. -/
theorem AsksFor.nothing (fault : Option Fault) {f : Gateway → Gateway} (hx : ∀ g, x g = ended fault (f g))
    (hw : ∀ g, (f g).window = g.window) : AsksFor n next x :=
  ⟨fault, f, [], hx, hw, Nat.zero_le n, fun _ h => absurd h List.not_mem_nil⟩

theorem AsksFor.pure : AsksFor n next (pure ()) := AsksFor.nothing (f := id) none (fun _ => rfl) fun _ => rfl

theorem AsksFor.seq {m : Nat} (hx : AsksFor n next x) (hy : AsksFor m next y) : AsksFor (n + m) next (do x; y) := by
  obtain ⟨fault, f, rs, hx, hf, hl, hr⟩ := hx
  obtain ⟨fault', f', rs', hy, hf', hl', hr'⟩ := hy
  cases fault with
  | some e => exact ⟨some e, f, rs, fun g => bind_of_error (hx g), hf, hl.trans (Nat.le_add_right n m), hr⟩
  | none =>
    refine ⟨fault', fun g => f' (f g), rs ++ rs', fun g => ?_, fun g => ?_, ?_, ?_⟩
    · rw [bind_of_ok (hx g), hy]
    · rw [hf', hf, Window.run_append]
    · rw [List.length_append]
      exact Nat.add_le_add hl hl'
    · rw [List.forall_mem_append]
      exact ⟨hr, hr'⟩

theorem AsksFor.forM {α : Type} {f : α → GatewayM Unit} {n : α → Nat} (as : List α)
    (h : ∀ a ∈ as, AsksFor (n a) next (f a)) : AsksFor (as.map n).sum next (forM as f) := by
  induction as with
  | nil => exact AsksFor.pure
  | cons a as ih =>
    rw [List.forall_mem_cons] at h
    rw [List.forM_cons, List.map_cons, List.sum_cons]
    exact h.1.seq (ih h.2)

/-- However a callback ends, it made its requests. -/
theorem AsksFor.after (h : AsksFor n next x) :
    ∃ rs, (∀ g, (after x g).window = g.window.run rs) ∧ rs.length ≤ n ∧ ∀ r ∈ rs, OfFlow next r := by
  obtain ⟨fault, f, rs, hx, hf, hr⟩ := h
  refine ⟨rs, fun g => ?_, hr⟩
  cases fault with
  | none => rw [after_of_ok (hx g), hf]
  | some e => rw [after_of_error (hx g), hf]

/-- The Interest that a TCP or UDP pre-request asks for. -/
def nextName (L : Libs) (interest : L.Name) : Option Text := do
  let fields := L.split (L.toUri interest) '/'
  let sip ← fields[4]?
  let dip ← fields[5]?
  let uid ← fields[6]?
  some (guessPrefix dip sip ++ '/' :: uid)

theorem asks_tcp (hL : L.Lawful) (interest : L.Name) :
    AsksFor 1 (nextName L interest) (dealOnTcpPreRequest L (L.toUri interest)) := by
  have hs := hL.split_eq (L.toUri interest) '/'
  by_cases hl : (L.split (L.toUri interest) '/').length < 7
  · apply AsksFor.nothing (f := id) (some .outOfRange) _ fun _ => rfl
    exact dealOnTcpPreRequest_short hl
  obtain ⟨sip, h4⟩ := exists_field (show 4 < (L.split (L.toUri interest) '/').length by omega)
  obtain ⟨dip, h5⟩ := exists_field (show 5 < (L.split (L.toUri interest) '/').length by omega)
  obtain ⟨uid, h6⟩ := exists_field (show 6 < (L.split (L.toUri interest) '/').length by omega)
  have slash {i : Nat} {p : Text} (h : (L.split (L.toUri interest) '/')[i]? = some p) : '/' ∉ p := by
    rw [hs] at h
    exact Separated.notMem_of_mem_splitOn '/' _ p (List.mem_of_getElem? h)
  have hn : nextName L interest = some (guessPrefix dip sip ++ '/' :: uid) := by
    simp only [nextName, h4, h5, h6, Option.bind_eq_bind, Option.bind_some]
  obtain ⟨fault, gs, hx, -, hgs, -⟩ := dealOnTcpPreRequest_request hL h4 h5 h6 (slash h6)
  refine ⟨fault, _, [_], hx, fun g => g.window_request _, le_refl 1, List.forall_mem_singleton.mpr ⟨hn, fun a ha => ?_⟩⟩
  obtain ⟨rest, hr, ht, rfl⟩ := hgs a ha
  rw [flowOf_guessPrefix (slash h5) (slash h4) hr, flowOf_guessPrefix (slash h5) (slash h4) (slash h6), ht]

theorem asks_other (name : Text) : AsksFor n next (dealOnOtherPreRequest L name) := by
  by_cases hl : (L.split name '/').length < 6
  · apply AsksFor.nothing (f := id) (some .outOfRange) _ fun _ => rfl
    exact dealOnOtherPreRequest_short hl
  obtain ⟨sip, h3⟩ := exists_field (show 3 < (L.split name '/').length by omega)
  obtain ⟨dip, h4⟩ := exists_field (show 4 < (L.split name '/').length by omega)
  obtain ⟨uid, h5⟩ := exists_field (show 5 < (L.split name '/').length by omega)
  exact AsksFor.nothing none (dealOnOtherPreRequest_ok h3 h4 h5) fun g => g.window_append rfl

/-- A filter for TCP and UDP pre-requests asks once. -/
theorem asks_onInterest (hL : L.Lawful) (interest : L.Name) (isPre isTCP : Bool) :
    AsksFor (if isPre && isTCP then 1 else 0) (nextName L interest) (onInterest L interest isPre isTCP) := by
  rw [onInterest, dealOnInterest]
  cases isPre with
  | false => exact AsksFor.pure
  | true =>
    cases isTCP with
    | true => exact asks_tcp hL interest
    | false => exact asks_other _

/-- How many filters for TCP and UDP pre-requests a name matches. -/
def tcpPreFilters (L : Libs) (registerIp : List Text) (interest : L.Name) : Nat :=
  (start L registerIp).countP fun f => (f.isPre && f.isTCP) && L.isPrefixOf f.registerPrefix interest

theorem asks_processInterest (hL : L.Lawful) (registerIp : List Text) (interest : L.Name) :
    AsksFor (tcpPreFilters L registerIp interest) (nextName L interest) (processInterest L registerIp interest) := by
  have h := AsksFor.forM ((start L registerIp).filter fun f => L.isPrefixOf f.registerPrefix interest) fun f _ =>
    asks_onInterest hL interest f.isPre f.isTCP
  rwa [sum_map_ite (fun f : InterestFilter L => f.isPre && f.isTCP), Nat.one_mul, List.countP_filter] at h

end

/-! ## Runs -/

namespace Node

variable {L : Libs} {registerIp : List Text} {s : Node} {tr : List (Node × Event L)}

/-- How many filters for TCP and UDP pre-requests an event calls. -/
def Event.filters (registerIp : List Text) : Event L → Nat
  | .interest name => tcpPreFilters L registerIp name
  | _ => 0

/-- The packet that an event asks for, if a filter calls back. -/
def Event.next (registerIp : List Text) (e : Event L) : Option Text :=
  match e with
  | .interest name => if e.filters registerIp = 0 then none else nextName L name
  | _ => none

/-- The flow that an event asks for packets of. -/
def Event.flow (registerIp : List Text) (e : Event L) : Option (List Text × List Text) :=
  (e.next registerIp).map flowOf

/-- What a handler asks for is what its event does, with guesses of its flow. -/
theorem exists_requests (hL : L.Lawful) (registerIp : List Text) (e : Event L) :
    ∃ rs, (∀ g, (after (handler L registerIp e) g).window = g.window.run rs) ∧ rs.length ≤ e.filters registerIp ∧
      ∀ r ∈ rs, OfFlow (e.next registerIp) r := by
  have nothing {e : Event L} (h : ∀ g, (after (handler L registerIp e) g).window = g.window) :
      ∃ rs, (∀ g, (after (handler L registerIp e) g).window = g.window.run rs) ∧ rs.length ≤ e.filters registerIp ∧
        ∀ r ∈ rs, OfFlow (e.next registerIp) r :=
    ⟨[], h, Nat.zero_le _, fun _ h => absurd h List.not_mem_nil⟩
  cases e with
  | capture error next now uuid =>
    obtain ⟨F, hF, hpub⟩ := exists_handleRead error next now uuid
    refine nothing fun g => ?_
    rw [handler, after_of_ended (hF g)]
    exact Gateway.window_append _ (tcpInterests_of_publishes (hpub _))
  | interest name =>
    obtain ⟨rs, hrs, hl, hnext⟩ := (asks_processInterest hL registerIp name).after
    refine ⟨rs, hrs, hl, fun r hr => ?_⟩
    have hpos : tcpPreFilters L registerIp name ≠ 0 := by
      have := List.length_pos_of_mem hr
      omega
    rw [Event.next, Event.filters, if_neg hpos]
    exact hnext r hr
  | data i name content => exact nothing (window_onData name content i.isPre i.isTCP)
  | timeout i =>
    refine nothing fun g => ?_
    rw [handler, onTimeout, ite_self]
    rfl
  | nack i => exact nothing fun g => rfl

/-- All that is asked for, by the events that ask for it. -/
theorem window_handleAll {reqs : Event L → List (Text × List Text)}
    (h : ∀ e g, (after (handler L registerIp e) g).window = g.window.run (reqs e)) (es : List (Event L)) (g : Gateway) :
    (handleAll L registerIp es g).window = g.window.run (es.flatMap reqs) := by
  induction es generalizing g with
  | nil => rfl
  | cons e es ih =>
    rw [List.flatMap_cons, Window.run_append, ← h, ← ih]
    rfl

/-- Flows do not disturb each other: in every run, the packets asked for of a
flow, and the guesses that the table has of it, are those of a gateway that
handles the flow's own pre-requests and nothing else. -/
theorem flows_independent (hL : L.Lawful) (h : Run (Step L registerIp) start tr s) (k : List Text × List Text) :
    s.gateway.window.restrict (flowOf · = k) =
      (handleAll L registerIp ((tr.map (·.2)).filter (·.flow registerIp = some k)) .init).window := by
  choose reqs hreqs _ hnext using exists_requests hL registerIp
  have hflow (e : Event L) (r : Text × List Text) (hr : r ∈ reqs e) : e.flow registerIp = some (flowOf r.1) := by
    rw [Event.flow, (hnext e r hr).1, Option.map_some]
  have hown (e : Event L) : (reqs e).filter (fun r => flowOf r.1 = k) =
      if decide (e.flow registerIp = some k) then reqs e else [] := by
    by_cases he : e.flow registerIp = some k
    · rw [if_pos (decide_eq_true he)]
      refine List.filter_eq_self.mpr fun r hr => decide_eq_true ?_
      exact Option.some.inj ((hflow e r hr).symm.trans he)
    · rw [if_neg (by simpa using he)]
      refine List.filter_eq_nil_iff.mpr fun r hr hk => he ?_
      rw [hflow e r hr, of_decide_eq_true hk]
  rw [gateway_eq h, window_handleAll hreqs, window_handleAll hreqs, Window.restrict_run, filter_flatMap_eq hown]
  · rfl
  · intro r hr a ha
    obtain ⟨e, -, hr⟩ := List.mem_flatMap.mp hr
    rw [(hnext e r hr).2 a ha]

/-- Another flow's pre-request, after one of the flow. -/
theorem flows_independent_two : ∃ tr s k, Run (Step textLibs oneHost) start tr s ∧
    (tr.map fun p => decide (p.2.flow oneHost = some k)) = [true, false] ∧
    s.gateway.window.restrict (flowOf · = k) =
      (handleAll textLibs oneHost ((tr.map (·.2)).filter (·.flow oneHost = some k)) .init).window := by
  let k : List Text × List Text :=
    ([[], cIP, cTCP, "192.168.1.4".toList, "192.168.1.1".toList], ["80".toList, "443".toList])
  have h := (run_interest tcpPre).snoc (.interest (by decide +kernel)
    (textLibs.ofUri "/IP/TCP/pre/192.168.1.1/192.168.1.4/81-443-7".toList))
  exact ⟨_, _, k, h, by decide +kernel, flows_independent textLibs_lawful h k⟩

end Node

end IpNdn
