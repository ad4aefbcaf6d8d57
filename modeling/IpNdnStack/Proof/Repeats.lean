import IpNdnStack.Proof.Isolation

/-!
# How often a packet is asked for

An Interest is answered, or given up, or waits, as often as it was sent
(`count_sent`). A packet may be asked for before its pre-request, by it, and
once more after it, when a pre-request from before it comes late: so it is asked
for, and handed on, at most twice for each time its pre-request arrives, and
once more (`Node.repeats_le`).
-/

namespace IpNdn

open Handler

namespace Node

variable {L : Libs} {registerIp : List Text} {s s' : Node} {tr : List (Node × Event L)}

/-- The Interest that an event answers. -/
def Event.answers : Event L → Option SentInterest
  | .data i _ _ => some i
  | _ => none

/-- The Interest that an event takes off. -/
def Event.takes : Event L → Option SentInterest
  | .timeout i => some i
  | .nack i => some i
  | e => e.answers

theorem Event.takes_of_answers {e : Event L} {i : SentInterest} (h : e.answers = some i) : e.takes = some i := by
  cases e with
  | data _ _ _ => exact h
  | _ => cases h

theorem count_sentInterests (calls : List FaceCall) (i : SentInterest) :
    (sentInterests calls).count i = calls.count i.call := by
  rw [sentInterests, List.count_eq_countP, List.countP_filterMap, List.count_eq_countP]
  refine List.countP_congr fun c _ => ?_
  obtain ⟨_, _, _⟩ := i
  cases c <;> simp [SentInterest.call]

/-- A handler calls the face after what it called before. -/
theorem face_handler (hL : L.Lawful) (hE : L.Escapes) (hip : ∀ ip ∈ registerIp, PlainComponent ip) (e : Event L)
    (g : Gateway) : ∃ calls, (after (handler L registerIp e) g).face = g.face ++ calls := by
  have nothing {e : Event L} (h : (after (handler L registerIp e) g).face = g.face) :
      ∃ calls, (after (handler L registerIp e) g).face = g.face ++ calls := ⟨[], by rw [h, List.append_nil]⟩
  cases e with
  | capture error next now uuid =>
    obtain ⟨F, hF, -⟩ := exists_handleRead error next now uuid
    refine ⟨(F (g.sequenceTable, g.globals)).2.2, ?_⟩
    rw [handler, after_of_ended (hF g)]
    rfl
  | interest name =>
    obtain ⟨fault, ask, hx, -⟩ := callback_processInterest hL hE hip name
    refine ⟨(ask g.prefixGuestTable).2.map SentInterest.call, ?_⟩
    exact congrArg Gateway.face (after_of_ended (hx g))
  | data i name content =>
    obtain ⟨sent, hsent⟩ := exists_after_onData (L := L) name content i.isPre i.isTCP
    refine nothing ?_
    rw [handler, hsent]
  | timeout i =>
    refine nothing ?_
    rw [handler, onTimeout, ite_self]
    rfl
  | nack i => exact nothing rfl

theorem count_run (s : Node) {handler : GatewayM Unit} {calls : List FaceCall}
    (h : (after handler s.gateway).face = s.gateway.face ++ calls) (i : SentInterest) :
    (s.run handler).pending.count i + s.gateway.face.count i.call =
      s.pending.count i + (s.run handler).gateway.face.count i.call := by
  simp only [run, h, List.drop_left, List.count_append, count_sentInterests]
  omega

theorem Step.count_sent (hL : L.Lawful) (hE : L.Escapes) (hip : ∀ ip ∈ registerIp, PlainComponent ip) {e : Event L}
    (h : Step L registerIp s e s') (i : SentInterest) :
    s'.pending.count i + (if e.takes = some i then 1 else 0) + s.gateway.face.count i.call =
      s.pending.count i + s'.gateway.face.count i.call := by
  -- One Interest less, and then what the handler sends.
  have taken {j : SentInterest} {e : Event L} (hj : j ∈ s.pending) (he : e.takes = some j) :
      ({ s with pending := s.pending.erase j }.run (handler L registerIp e)).pending.count i +
          (if e.takes = some i then 1 else 0) + s.gateway.face.count i.call =
        s.pending.count i +
          ({ s with pending := s.pending.erase j }.run (handler L registerIp e)).gateway.face.count i.call := by
    obtain ⟨calls, hf⟩ := face_handler hL hE hip e s.gateway
    have hrun := count_run { s with pending := s.pending.erase j } hf i
    have herase : (s.pending.erase j).count i + (if j = i then 1 else 0) = s.pending.count i := by
      rw [List.count_erase]
      by_cases e : j = i
      · have := List.count_pos_iff.mpr hj
        subst e
        simp only [BEq.rfl, if_true]
        omega
      · simp [e]
    simp only [he, Option.some.injEq]
    simp only at hrun
    omega
  cases h with
  | capture h error next now uuid =>
    obtain ⟨calls, hf⟩ := face_handler hL hE hip (.capture error next now uuid) s.gateway
    exact count_run s hf i
  | interest h name =>
    obtain ⟨calls, hf⟩ := face_handler hL hE hip (.interest name) s.gateway
    exact count_run s hf i
  | data h hj hn content => exact taken hj rfl
  | timeout h hj => exact taken hj rfl
  | nack h hj => exact taken hj rfl

/-- As often as an Interest was sent, it waits or was taken off. -/
theorem count_sent (hL : L.Lawful) (hE : L.Escapes) (hip : ∀ ip ∈ registerIp, PlainComponent ip)
    (h : Run (Step L registerIp) start tr s) (i : SentInterest) :
    s.pending.count i + (tr.countP fun p => p.2.takes = some i) = s.gateway.face.count i.call := by
  induction h with
  | nil => rfl
  | @snoc tr s e s' _ he ih =>
    have := he.count_sent hL hE hip i
    rw [List.countP_append, List.countP_singleton]
    simp only [decide_eq_true_eq]
    omega

theorem countP_tcpInterests (calls : List FaceCall) (name : Text) :
    (tcpInterests calls).countP (· = name) = calls.count (.expressInterest name false true) := by
  rw [tcpInterests, List.countP_filterMap, List.count_eq_countP]
  refine List.countP_congr fun c _ => ?_
  cases c with
  | expressInterest other isPre isTCP => cases isPre <;> cases isTCP <;> simp
  | putDataToCache _ _ => simp

/-! ## How often a pre-request arrives -/

theorem countP_flatMap_le {α β : Type} {f : α → List β} {P : β → Bool} {Q : α → Bool}
    (h : ∀ a, (f a).countP P ≤ if Q a then 1 else 0) (as : List α) : (as.flatMap f).countP P ≤ as.countP Q := by
  induction as with
  | nil => exact le_refl 0
  | cons a as ih =>
    rw [List.flatMap_cons, List.countP_append, List.countP_cons, Nat.add_comm]
    exact Nat.add_le_add ih (h a)

theorem filters_le (hL : L.Lawful) (hip : ∀ ip ∈ registerIp, PlainComponent ip) (hnd : registerIp.Nodup)
    (e : Event L) : e.filters registerIp ≤ 1 := by
  cases e with
  | interest name =>
    refine le_trans (List.countP_mono_left fun f _ h => ?_) (countP_pre_le hL hip hnd name)
    simp only [Bool.and_eq_true] at h ⊢
    exact ⟨h.1.1, h.2⟩
  | _ => exact Nat.zero_le 1

/-- Whatever the network does, a packet of a flow is handed on no more often than
it was asked for, and it was asked for at most twice for each time that its
pre-request arrived, and once more. -/
theorem repeats_le (hL : L.Lawful) (hE : L.Escapes) (hip : ∀ ip ∈ registerIp, PlainComponent ip)
    (hnd : registerIp.Nodup) (h : Run (Step L registerIp) start tr s) (name : Text) :
    (tr.countP fun p => p.2.answers = some ⟨name, false, true⟩) ≤
        s.gateway.face.count (.expressInterest name false true) ∧
      s.gateway.face.count (.expressInterest name false true) ≤
        2 * (tr.countP fun p => p.2.next registerIp = some name) + 1 := by
  constructor
  · have hsent := count_sent hL hE hip h ⟨name, false, true⟩
    have hle : (tr.countP fun p => p.2.answers = some ⟨name, false, true⟩) ≤
        tr.countP fun p => p.2.takes = some ⟨name, false, true⟩ := by
      refine List.countP_mono_left fun p _ ha => ?_
      exact decide_eq_true (Event.takes_of_answers (of_decide_eq_true ha))
    exact hle.trans ((Nat.le_add_left _ _).trans hsent.le)
  · choose reqs hreqs hlen hnext using exists_requests hL registerIp
    have hw : s.gateway.window = Window.empty.run ((tr.map (·.2)).flatMap reqs) := by
      rw [gateway_eq h, window_handleAll hreqs]
      rfl
    have hle := Window.countP_run_le ((tr.map (·.2)).flatMap reqs) name
    rw [← hw] at hle
    rw [← countP_tcpInterests]
    have hown (e : Event L) :
        ((reqs e).countP fun r => r.1 = name) ≤ if decide (e.next registerIp = some name) then 1 else 0 := by
      by_cases he : e.next registerIp = some name
      · rw [if_pos (decide_eq_true he)]
        exact List.countP_le_length.trans ((hlen e).trans (filters_le hL hip hnd e))
      · rw [if_neg (by simpa using he)]
        refine le_of_eq (List.countP_eq_zero.mpr fun r hr hn => he ?_)
        rw [(hnext e r hr).1, of_decide_eq_true hn]
    have hsum := countP_flatMap_le hown (tr.map (·.2))
    rw [List.countP_map] at hsum
    exact hle.trans (Nat.add_le_add_right (Nat.mul_le_mul_left 2 hsum) 1)

/-- One pre-request. -/
theorem repeats_le_one : ∃ tr s, Run (Step textLibs oneHost) start tr s ∧
    (tr.countP fun p => p.2.next oneHost = some "/IP/TCP/192.168.1.4/192.168.1.1/80-443-7".toList) = 1 ∧
    s.gateway.face.count (.expressInterest "/IP/TCP/192.168.1.4/192.168.1.1/80-443-7".toList false true) ≤ 3 := by
  have h := run_interest tcpPre
  have hk : ([(start, Event.interest tcpPre)].countP fun p => p.2.next oneHost =
      some "/IP/TCP/192.168.1.4/192.168.1.1/80-443-7".toList) = 1 := by decide +kernel
  have := (repeats_le textLibs_lawful textLibs_escapes plain_oneHost (List.nodup_singleton _) h
    "/IP/TCP/192.168.1.4/192.168.1.1/80-443-7".toList).2
  rw [hk] at this
  exact ⟨_, _, h, hk, this⟩

end Node

end IpNdn
