import IpNdnStack.Proof.Node
import IpNdnStack.Proof.Publisher
import IpNdnStack.Proof.Totals

/-!
# The loop that captures

`asyncRead`, from one read to the next, counts what it reads and publishes the
tuples that are short enough (`handleRead_calls`), up to the first error, or to
the first frame whose bytes are read from `nullptr`, which ends the process. So
it numbers the packets of each flow from 1 on, whatever comes between them
(`asyncRead_publishes`).
-/

namespace IpNdn

open Handler IpNdn.Numbering

/-! ## A tuple, but for its sequence number -/

/-- Tuples that `deal` makes no difference between. -/
structure Tuple.Alike (t u : Tuple) : Prop where
  key : t.key = u.key
  content : t.content = u.content

theorem publish_congr {t u : Tuple} (h : t.content = u.content) (dataName preName : Text) :
    publish dataName preName t = publish dataName preName u := by
  simp only [publish, putDataToCache, h]

theorem deal_congr {t u : Tuple} (h : t.Alike u) (uuid : Text) : deal t uuid = deal u uuid := by
  have hf : t.flow = u.flow := by rw [Tuple.flow, h.key, Tuple.flow]
  have hn : t.Numbered ↔ u.Numbered := by rw [Tuple.Numbered, h.key, Tuple.Numbered]
  funext g
  by_cases ht : t.Numbered
  · rw [deal_eq ht, deal_eq (hn.mp ht), publish_congr h.content, hf]
  · rw [deal_other_eq ht, deal_other_eq (hn.not.mp ht), publish_congr h.content, Tuple.otherDataName,
      Tuple.otherPreName, h.key]
    rfl

theorem assignFields_alike (mem : Nat → Byte) (ipHdr : Nat) (ts : Int) (m n : BitVec 64) (p : Tuple) :
    (assignFields mem ipHdr ts m p).val.key = (assignFields mem ipHdr ts n p).val.key := by
  simp only [assignFields, Logged.val_bind, Logged.val_ite]
  split
  · rfl
  · split <;> rfl

/-- The counters make no difference to a frame's tuple but for its sequence number. -/
theorem decodeFrame_alike (frame : Frame) (now : Int) (g : Globals) :
    (decodeFrame frame now g).2.1.Alike (decodeFrame frame now .zero).2.1 ∧
      (decodeFrame frame now g).2.1.ipSize = (decodeFrame frame now .zero).2.1.ipSize := by
  by_cases hv : decodeStatus frame.mem frame.capLen = .valid
  · have h (g : Globals) := decode_accepted frame.mem frame.capLen frame.actLen now .new g hv
    have hf (n : BitVec 64) :=
      assignFields_fields frame.mem now (captured frame.mem frame.capLen .new) (ipHeader frame.mem) n
    simp only [decodeFrame, h]
    refine ⟨⟨assignFields_alike .., ?_⟩, ?_⟩
    · rw [Tuple.content, (hf _).1, (hf _).2.1, Tuple.content, (hf _).1, (hf _).2.1]
    · rw [(hf _).2.1, (hf _).2.1]
  · have h (g : Globals) := decode_rejected frame.mem frame.capLen frame.actLen now .new g hv
    rw [decodeFrame, h, decodeFrame, h]
    exact ⟨⟨rfl, rfl⟩, rfl⟩

/-! ## What the loop reads -/

namespace Capture

/-- The call of `decode` for a read. -/
def call (c : Capture) : Option StatCall :=
  match c.next with
  | .packet frame => some (.decode frame.mem frame.capLen frame.actLen c.now .new)
  | .error _ => none
  | .timedOut _ => none

/-- The tuple that a read brings `deal`, with what `generateUUID` would return. -/
def tuple (c : Capture) : Option (Tuple × Text) :=
  match c.next with
  | .packet frame =>
    let t := (decodeFrame frame c.now .zero).2.1
    if t.ipSize < 8600 then some (t, c.uuid) else none
  | .error _ => none
  | .timedOut _ => none

end Capture

/-- The reads before the first error. -/
def beforeError (cs : List Capture) : List Capture := cs.takeWhile fun c => !c.error

/-- Those of them before the first that ends the process. -/
def beforeEnd (cs : List Capture) : List Capture := (beforeError cs).takeWhile fun c => ¬ c.next.ReadsNull

/-- Those that the loop counts: also the one that ends the process. -/
def counted (cs : List Capture) : List Capture := (beforeError cs).take ((beforeEnd cs).length + 1)

/-- What the loop deals with to the end. -/
def dealtWith (cs : List Capture) : List (Tuple × Text) := (beforeEnd cs).filterMap Capture.tuple

/-- The fault that the loop ends with. -/
def endOf (cs : List Capture) : Option Fault :=
  if ∃ c ∈ beforeError cs, c.next.ReadsNull then some .nullRead else none

/-- The globals after some calls, from `g` on. -/
def countAll (calls : List StatCall) (g : Globals) : Globals := (calls.foldl StatRun.step ⟨g, []⟩).globals

theorem countAll_cons (call : StatCall) (calls : List StatCall) (g : Globals) :
    countAll (call :: calls) g = countAll calls (StatRun.step ⟨g, []⟩ call).globals := by
  have h (calls : List StatCall) (l l' : List PacketStatus) (g : Globals) :
      (calls.foldl StatRun.step ⟨g, l⟩).globals = (calls.foldl StatRun.step ⟨g, l'⟩).globals := by
    induction calls generalizing l l' g with
    | nil => rfl
    | cons call calls ih => cases call <;> exact ih _ _ _
  exact h calls (StatRun.step ⟨g, []⟩ call).returned [] (StatRun.step ⟨g, []⟩ call).globals

theorem countAll_append (calls calls' : List StatCall) (g : Globals) :
    countAll (calls ++ calls') g = countAll calls' (countAll calls g) := by
  induction calls generalizing g with
  | nil => rfl
  | cons call calls ih => rw [List.cons_append, countAll_cons, ih, countAll_cons]

/-! ## One read -/

/-- What a tuple is numbered by: its flow, if its packets have numbers. -/
def flowKey (p : Tuple × Text) : Option Flow := if p.1.Numbered then some p.1.flow else none

/-- The calls for a tuple that is packet `n` of its flow, if it has a number. -/
def callsFor (p : Tuple × Text) (n : Nat) : List FaceCall :=
  if p.1.Numbered then numberedCalls p.1 (BitVec.ofNat 32 n) else otherCalls p.1 p.2

/-- The calls for tuples, from these counters on. -/
def callsFrom (c : Option Flow → Nat) (l : List (Tuple × Text)) : List FaceCall :=
  (numbered flowKey c l).flatMap fun q => callsFor q.1 q.2

/-- The table has the counts of the flows. -/
def CountsFlows (c : Option Flow → Nat) (g : Gateway) : Prop := Counts (fun f => c (some f)) g.sequenceTable

theorem callsFrom_append (c : Option Flow → Nat) (l l' : List (Tuple × Text)) :
    callsFrom c (l ++ l') = callsFrom c l ++ callsFrom (l.foldl (tick flowKey) c) l' := by
  rw [callsFrom, numbered_append, List.flatMap_append]
  rfl

/-- A tuple of any protocol is published under its number, if it has one. -/
theorem deal_calls {p : Tuple × Text} (hb : p.1.HasBytes) {c : Option Flow → Nat} {g : Gateway}
    (hc : CountsFlows c g) :
    ∃ g', deal p.1 p.2 g = .ok ⟨⟩ g' ∧ g'.face = g.face ++ callsFrom c [p] ∧ g'.globals = g.globals ∧
      CountsFlows (tick flowKey c p) g' := by
  have hcalls : callsFrom c [p] = callsFor p (c (flowKey p) + 1) := List.append_nil _
  rw [hcalls]
  by_cases ht : p.1.Numbered
  · have hk : flowKey p = some p.1.flow := if_pos ht
    refine ⟨_, deal_numbered p.2 ht hb hc, ?_, rfl, ?_⟩
    · rw [callsFor, if_pos ht, hk]
      rfl
    · have hu : Function.update (fun f => c (some f)) p.1.flow (c (some p.1.flow) + 1) =
          fun f => tick flowKey c p (some f) := by
        funext f
        simp only [tick, hk, Function.update_apply, Option.some.injEq]
      rw [CountsFlows, ← hu]
      exact hc.update p.1.flow
  · have hk : flowKey p = none := if_neg ht
    refine ⟨_, deal_other p.2 g ht hb, ?_, rfl, ?_⟩
    · rw [callsFor, if_neg ht]
    · have hu : (fun f => c (some f)) = fun f => tick flowKey c p (some f) := by
        funext f
        simp only [tick, hk, Function.update_apply, reduceCtorEq, if_false]
      rw [CountsFlows, ← hu]
      exact hc

/-- A read that is no error and does not end the process: what it captures is
counted, then published. -/
theorem handleRead_calls {r : Capture} (he : r.error = false) (hn : ¬ r.next.ReadsNull) {c : Option Flow → Nat}
    {g : Gateway} (hc : CountsFlows c g) :
    ∃ g', handleRead r.error r.next r.now r.uuid g = .ok ⟨⟩ g' ∧ g'.face = g.face ++ callsFrom c r.tuple.toList ∧
      g'.globals = countAll r.call.toList g.globals ∧ CountsFlows (r.tuple.toList.foldl (tick flowKey) c) g' := by
  obtain ⟨error, next, now, uuid⟩ := r
  subst he
  have nothing (g' : Gateway) (h : g'.face = g.face) : g'.face = g.face ++ callsFrom c [] := by
    rw [h]
    exact (List.append_nil _).symm
  cases next with
  | error | timedOut => exact ⟨g, rfl, nothing g rfl, rfl, hc⟩
  | packet frame =>
    obtain ⟨ha, hs⟩ := decodeFrame_alike frame now g.globals
    have hg : (g.decoded frame now).globals =
      countAll [.decode frame.mem frame.capLen frame.actLen now .new] g.globals := rfl
    by_cases hlt : (decodeFrame frame now .zero).2.1.ipSize < 8600
    · have ht : Capture.tuple ⟨false, .packet frame, now, uuid⟩ = some ((decodeFrame frame now .zero).2.1, uuid) :=
        if_pos hlt
      obtain ⟨g', hg', hf, hG, hc'⟩ := deal_calls (p := ((decodeFrame frame now .zero).2.1, uuid))
        (hasBytes_of_not_readsNull hn hlt) (show CountsFlows c (g.decoded frame now) from hc)
      rw [handleRead_short (hs ▸ hlt), deal_congr ha, ht]
      exact ⟨g', hg', hf, hG.trans hg, hc'⟩
    · have ht : Capture.tuple ⟨false, .packet frame, now, uuid⟩ = none := if_neg hlt
      rw [handleRead_long (hs ▸ hlt), ht]
      exact ⟨g.decoded frame now, rfl, nothing _ rfl, hg, hc⟩

/-! ## The loop -/

theorem beforeError_cons {r : Capture} (he : r.error = false) (cs : List Capture) :
    beforeError (r :: cs) = r :: beforeError cs := List.takeWhile_cons_of_pos (by simp [he])

theorem beforeEnd_cons {r : Capture} (he : r.error = false) (hn : ¬ r.next.ReadsNull) (cs : List Capture) :
    beforeEnd (r :: cs) = r :: beforeEnd cs := by
  rw [beforeEnd, beforeError_cons he, List.takeWhile_cons_of_pos (by simp [hn]), beforeEnd]

theorem dealtWith_cons {r : Capture} (he : r.error = false) (hn : ¬ r.next.ReadsNull) (cs : List Capture) :
    dealtWith (r :: cs) = r.tuple.toList ++ dealtWith cs := by
  rw [dealtWith, beforeEnd_cons he hn, List.filterMap_cons]
  cases r.tuple <;> rfl

theorem counted_cons {r : Capture} (he : r.error = false) (hn : ¬ r.next.ReadsNull) (cs : List Capture) :
    counted (r :: cs) = r :: counted cs := by
  rw [counted, beforeEnd_cons he hn, beforeError_cons he]
  rfl

theorem endOf_cons {r : Capture} (he : r.error = false) (hn : ¬ r.next.ReadsNull) (cs : List Capture) :
    endOf (r :: cs) = endOf cs := by
  rw [endOf, beforeError_cons he, endOf]
  simp only [List.exists_mem_cons_iff, hn, false_or]

/-- At a frame that ends the process nothing is dealt with any more. -/
theorem ends_of_readsNull {r : Capture} (he : r.error = false) (hn : r.next.ReadsNull) (cs : List Capture) :
    dealtWith (r :: cs) = [] ∧ counted (r :: cs) = [r] ∧ endOf (r :: cs) = some .nullRead := by
  have hend : beforeEnd (r :: cs) = [] := by
    rw [beforeEnd, beforeError_cons he, List.takeWhile_cons_of_neg (by simp [hn])]
  refine ⟨?_, ?_, ?_⟩
  · rw [dealtWith, hend]
    rfl
  · rw [counted, hend, beforeError_cons he]
    rfl
  · rw [endOf, beforeError_cons he, if_pos ⟨r, List.mem_cons_self, hn⟩]

/-- At an error nothing is read any more. -/
theorem ends_of_error {r : Capture} (he : r.error = true) (cs : List Capture) :
    dealtWith (r :: cs) = [] ∧ counted (r :: cs) = [] ∧ endOf (r :: cs) = none := by
  have hbefore : beforeError (r :: cs) = [] := List.takeWhile_cons_of_neg (by simp [he])
  refine ⟨?_, ?_, ?_⟩
  · rw [dealtWith, beforeEnd, hbefore]
    rfl
  · rw [counted, hbefore]
    rfl
  · rw [endOf, hbefore, if_neg (by simp)]

/-- An error stops the loop. -/
theorem asyncRead_error {r : Capture} (he : r.error = true) (cs : List Capture) (g : Gateway) :
    asyncRead (r :: cs) g = .ok ⟨⟩ g := by
  have hr : handleRead r.error r.next r.now r.uuid g = .ok ⟨⟩ g := by
    rw [he]
    rfl
  rw [asyncRead, bind_of_ok hr, if_pos he]
  rfl

/-- A frame that ends the process is still counted. -/
theorem asyncRead_nullRead {r : Capture} (he : r.error = false) (hn : r.next.ReadsNull) (cs : List Capture)
    (g : Gateway) :
    asyncRead (r :: cs) g = .error .nullRead { g with globals := countAll r.call.toList g.globals } := by
  obtain ⟨error, next, now, uuid⟩ := r
  subst he
  cases next with
  | error | timedOut => exact absurd hn id
  | packet frame =>
    rw [asyncRead, bind_of_error (handleRead_nullRead hn now uuid g)]
    rfl

/-- The loop publishes what it deals with, and counts that and the frame that
ends the process. -/
theorem asyncRead_calls (cs : List Capture) {c : Option Flow → Nat} {g : Gateway} (hc : CountsFlows c g) :
    ∃ g', asyncRead cs g = ended (endOf cs) g' ∧ g'.face = g.face ++ callsFrom c (dealtWith cs) ∧
      g'.globals = countAll ((counted cs).filterMap Capture.call) g.globals ∧
      CountsFlows ((dealtWith cs).foldl (tick flowKey) c) g' := by
  induction cs generalizing c g with
  | nil => exact ⟨g, rfl, (List.append_nil _).symm, rfl, hc⟩
  | cons r cs ih =>
    rcases he : r.error with _ | _
    · by_cases hn : r.next.ReadsNull
      · obtain ⟨hdealt, hcount, hfault⟩ := ends_of_readsNull he hn cs
        rw [hdealt, hcount, hfault]
        refine ⟨_, asyncRead_nullRead he hn cs g, (List.append_nil _).symm, ?_, hc⟩
        cases h : r.call <;> simp [h]
      · obtain ⟨g₁, h₁, hf₁, hG₁, hc₁⟩ := handleRead_calls he hn hc
        obtain ⟨g', hg', hf, hG, hc'⟩ := ih hc₁
        rw [dealtWith_cons he hn, counted_cons he hn, endOf_cons he hn]
        refine ⟨g', ?_, ?_, ?_, ?_⟩
        · rw [asyncRead, bind_of_ok h₁, if_neg (by simp [he]), hg']
        · rw [hf, hf₁, callsFrom_append, List.append_assoc]
        · rw [hG, hG₁, ← countAll_append, List.filterMap_cons]
          cases r.call <;> rfl
        · rw [List.foldl_append]
          exact hc'
    · obtain ⟨hdealt, hcount, hfault⟩ := ends_of_error he cs
      rw [hdealt, hcount, hfault]
      exact ⟨g, asyncRead_error he cs g, (List.append_nil _).symm, rfl, hc⟩

/-- From the start on, the loop publishes each tuple that it reads before the
first error and before the first frame that ends the process, in order, a TCP or
UDP tuple under its number among those of its flow, and the table ends with
these numbers; it counts every frame that it reads, also the one that ends the
process. -/
theorem asyncRead_publishes (cs : List Capture)
    (hb : ∀ f, ((dealtWith cs).countP fun p => flowKey p = some f) < 2 ^ 31) :
    ∃ g, asyncRead cs .init = ended (endOf cs) g ∧
      g.face = (dealtWith cs).zipIdx.flatMap (fun q =>
        callsFor q.1 (((dealtWith cs).take (q.2 + 1)).countP fun p => flowKey p = flowKey q.1)) ∧
      (∀ f, (g.sequenceTable.get f.key).elim 0 BitVec.toInt = (dealtWith cs).countP fun p => flowKey p = some f) ∧
      g.globals = (statRun ((counted cs).filterMap Capture.call)).globals := by
  obtain ⟨g, hg, hf, hG, hc⟩ := asyncRead_calls cs (c := fun _ => 0) (g := .init) Counts.empty
  refine ⟨g, hg, ?_, fun f => ?_, hG⟩
  · rw [hf, callsFrom, numbered_eq, List.flatMap_map]
    simp only [Nat.zero_add]
    rfl
  · have hcount : (dealtWith cs).foldl (tick flowKey) (fun _ => 0) (some f) =
        (dealtWith cs).countP fun p => flowKey p = some f := by
      rw [foldl_count_eq, Nat.zero_add, count]
    rw [hc f]
    simp only [hcount]
    split
    · rename_i h0
      rw [h0]
      rfl
    · exact toInt_ofNat (hb f)

/-- A frame that ends the process, between two frames of a flow. -/
def frameBetween : List Capture :=
  [⟨false, .packet (udpFrame 42), 0, []⟩, ⟨false, .packet (zeroFrame 60), 0, []⟩,
    ⟨false, .packet (udpFrame 42), 0, []⟩]

theorem asyncRead_publishes_one : (dealtWith frameBetween).length = 1 ∧ (counted frameBetween).length = 2 ∧
    ∃ g, asyncRead frameBetween .init = .error .nullRead g ∧
      g.face = (dealtWith frameBetween).zipIdx.flatMap fun q =>
        callsFor q.1 (((dealtWith frameBetween).take (q.2 + 1)).countP fun p => flowKey p = flowKey q.1) := by
  have hd : (dealtWith frameBetween).length = 1 := by decide +kernel
  obtain ⟨g, hg, hf, -⟩ := asyncRead_publishes frameBetween fun f =>
    lt_of_le_of_lt List.countP_le_length (by rw [hd]; decide)
  rw [show endOf frameBetween = some .nullRead by decide +kernel] at hg
  exact ⟨hd, by decide +kernel, g, hg, hf⟩

end IpNdn
