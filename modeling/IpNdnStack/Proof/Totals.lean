import IpNdnStack.Proof.Accounting

/-!
# What a report prints

Every number of a report, after any run of `decode`, reports and resets, in
terms of the packets since the last reset (`report_prints`), and the sequence
numbers of the valid packets of the whole run (`sequence_gapFree`).
-/

namespace IpNdn

/-- A packet that `decode` was called for. -/
structure Observed where
  capLen : BitVec 32
  actLen : BitVec 32
  ts : Int
  status : PacketStatus

/-- The packets since the last reset. -/
def observed (calls : List StatCall) : List Observed :=
  calls.foldl (fun l call =>
    match call with
    | .decode pkt capLen actLen ts _ => l ++ [⟨capLen, actLen, ts, decodeStatus pkt capLen⟩]
    | .report _ => l
    | .reset => []) []

theorem observed_snoc (calls : List StatCall) (call : StatCall) :
    observed (calls ++ [call]) =
      match call with
      | .decode pkt capLen actLen ts _ => observed calls ++ [⟨capLen, actLen, ts, decodeStatus pkt capLen⟩]
      | .report _ => observed calls
      | .reset => [] := by
  rw [observed, List.foldl_append, ← observed]
  rfl

def valid (l : List Observed) : List Observed := l.filter (·.status = .valid)

def capBytes (l : List Observed) : Nat := (l.map (·.capLen.toNat)).sum

def actBytes (l : List Observed) : Nat := (l.map (·.actLen.toNat)).sum

/-! ## Bytes and times -/

/-- The sums of bytes and the times that the counters hold, of the packets `l`. -/
structure Tallied (stat : PacketStat) (l : List Observed) : Prop where
  cap : stat.totCapByteCnt = BitVec.ofNat 64 (capBytes l)
  act : stat.totActByteCnt = BitVec.ofNat 64 (actBytes l)
  validCap : stat.validCapByteCnt = BitVec.ofNat 64 (capBytes (valid l))
  validAct : stat.validActByteCnt = BitVec.ofNat 64 (actBytes (valid l))
  startTs : l.length < 2 ^ 64 → stat.traceStartTs = (l.head?.map (·.ts)).getD 0
  endTs : stat.traceEndTs = (l.getLast?.map (·.ts)).getD 0

theorem Tallied.zero : Tallied .zero [] := ⟨rfl, rfl, rfl, rfl, fun _ => rfl, rfl⟩

theorem countStatus_totals (stat : PacketStat) (capLen actLen : BitVec 32) (s : PacketStatus) :
    (countStatus stat capLen actLen s).totCapByteCnt = stat.totCapByteCnt ∧
      (countStatus stat capLen actLen s).totActByteCnt = stat.totActByteCnt ∧
      (countStatus stat capLen actLen s).traceStartTs = stat.traceStartTs ∧
      (countStatus stat capLen actLen s).traceEndTs = stat.traceEndTs := by
  cases s <;> exact ⟨rfl, rfl, rfl, rfl⟩

theorem countStatus_valid (stat : PacketStat) (capLen actLen : BitVec 32) (s : PacketStatus) :
    (countStatus stat capLen actLen s).validCapByteCnt =
        stat.validCapByteCnt + (if s = .valid then capLen.setWidth 64 else 0) ∧
      (countStatus stat capLen actLen s).validActByteCnt =
        stat.validActByteCnt + (if s = .valid then actLen.setWidth 64 else 0) := by
  cases s <;> simp [countStatus]

theorem capBytes_snoc (l : List Observed) (o : Observed) : capBytes (l ++ [o]) = capBytes l + o.capLen.toNat := by
  rw [capBytes, List.map_append, List.sum_append, ← capBytes, List.map_singleton, List.sum_singleton]

theorem actBytes_snoc (l : List Observed) (o : Observed) : actBytes (l ++ [o]) = actBytes l + o.actLen.toNat := by
  rw [actBytes, List.map_append, List.sum_append, ← actBytes, List.map_singleton, List.sum_singleton]

theorem valid_snoc (l : List Observed) (o : Observed) :
    valid (l ++ [o]) = valid l ++ if o.status = .valid then [o] else [] := by
  rw [valid, List.filter_append, List.filter_singleton, ← valid]
  by_cases h : o.status = .valid <;> simp [h]

/-- The bytes of the valid packets, with one packet more. -/
theorem ofNat_capBytes_valid_snoc (l : List Observed) (o : Observed) :
    BitVec.ofNat 64 (capBytes (valid (l ++ [o]))) =
      BitVec.ofNat 64 (capBytes (valid l)) + if o.status = .valid then o.capLen.setWidth 64 else 0 := by
  rw [valid_snoc]
  split
  · rw [capBytes_snoc, BitVec.ofNat_add, BitVec.ofNat_toNat]
  · rw [List.append_nil]
    exact (BitVec.add_zero _).symm

theorem ofNat_actBytes_valid_snoc (l : List Observed) (o : Observed) :
    BitVec.ofNat 64 (actBytes (valid (l ++ [o]))) =
      BitVec.ofNat 64 (actBytes (valid l)) + if o.status = .valid then o.actLen.setWidth 64 else 0 := by
  rw [valid_snoc]
  split
  · rw [actBytes_snoc, BitVec.ofNat_add, BitVec.ofNat_toNat]
  · rw [List.append_nil]
    exact (BitVec.add_zero _).symm

/-- The packet counter is 1 after the first packet only. -/
theorem ofNat_add_one_eq_one_iff {n : Nat} (h : n + 1 < 2 ^ 64) : BitVec.ofNat 64 n + 1 = 1 ↔ n = 0 := by
  have e : BitVec.ofNat 64 n + 1 = BitVec.ofNat 64 (n + 1) := by
    rw [BitVec.ofNat_add]
    rfl
  rw [e, ← BitVec.toNat_inj, BitVec.toNat_ofNat, Nat.mod_eq_of_lt h, show (1 : BitVec 64).toNat = 1 from rfl]
  omega

theorem Tallied.decode {stat : PacketStat} {l : List Observed} (h : Tallied stat l)
    (ht : stat.totPktCnt = BitVec.ofNat 64 l.length) (o : Observed) :
    Tallied (countStatus (observe stat o.capLen o.actLen o.ts) o.capLen o.actLen o.status) (l ++ [o]) := by
  obtain ⟨hc, ha, hs, he⟩ := countStatus_totals (observe stat o.capLen o.actLen o.ts) o.capLen o.actLen o.status
  obtain ⟨hvc, hva⟩ := countStatus_valid (observe stat o.capLen o.actLen o.ts) o.capLen o.actLen o.status
  constructor
  case cap =>
    rw [hc, capBytes_snoc, BitVec.ofNat_add, ← h.cap, BitVec.ofNat_toNat]
    rfl
  case act =>
    rw [ha, actBytes_snoc, BitVec.ofNat_add, ← h.act, BitVec.ofNat_toNat]
    rfl
  case validCap =>
    rw [hvc, ofNat_capBytes_valid_snoc, ← h.validCap]
    rfl
  case validAct =>
    rw [hva, ofNat_actBytes_valid_snoc, ← h.validAct]
    rfl
  case startTs =>
    intro hl
    rw [List.length_append, List.length_singleton] at hl
    have h1 : stat.totPktCnt + 1 = 1 ↔ l = [] := by
      rw [ht, ofNat_add_one_eq_one_iff hl, List.length_eq_zero_iff]
    rw [hs]
    simp only [observe, h1]
    split
    · rename_i e
      rw [e]
      rfl
    · rename_i e
      rw [h.startTs (by omega), List.head?_append_of_ne_nil _ e]
  case endTs =>
    rw [he, List.getLast?_append]
    rfl

theorem Tallied.report {stat : PacketStat} {l : List Observed} (h : Tallied stat l) (opened : Bool) :
    Tallied (reportFinalStatFile opened stat).1 l := by
  cases opened <;> exact ⟨h.cap, h.act, h.validCap, h.validAct, h.startTs, h.endTs⟩

theorem returned_eq (calls : List StatCall) : (statRun calls).returned = (observed calls).map (·.status) := by
  induction calls using List.reverseRecOn with
  | nil => rfl
  | append_singleton calls call ih =>
    rw [statRun_snoc, observed_snoc]
    cases call with
    | decode pkt capLen actLen ts p =>
      simp only [StatRun.step, ih, List.map_append, List.map_singleton, decode_status]
    | report opened => exact ih
    | reset => rfl

theorem Tallied.run (calls : List StatCall) : Tallied (statRun calls).globals.packetStat (observed calls) := by
  induction calls using List.reverseRecOn with
  | nil => exact .zero
  | append_singleton calls call ih =>
    rw [statRun_snoc, observed_snoc]
    cases call with
    | decode pkt capLen actLen ts p =>
      have ht := (Balanced.run calls).total
      rw [returned_eq, List.length_map] at ht
      simp only [StatRun.step, decode_packetStat, decode_status]
      exact ih.decode ht ⟨capLen, actLen, ts, decodeStatus pkt capLen⟩
    | report opened => exact ih.report opened
    | reset => exact .zero

/-! ## The report -/

/-- The packets of a status. -/
def ofStatus (l : List Observed) (s : PacketStatus) : Nat := (l.map (·.status)).count s

/-- The numbers of a report, of the packets `l` and after `reports` reports of
them. No packet is a fragment, and none gets one of the last three statuses. -/
def reportOf (l : List Observed) (reports : Nat) : List Nat :=
  [l.length, capBytes l, actBytes l, (valid l).length, capBytes (valid l), actBytes (valid l), ofStatus l .nonIp,
    ofStatus l .ipNotFull, ofStatus l .ipVerFail, ofStatus l .ipChksumFail + reports, reports,
    ofStatus l .tcpNotFull, ofStatus l .udpNotFull, ofStatus l .icmpNotFull, 0, 0, 0]

theorem decodeStatus_ne (mem : Nat → Byte) (capLen : BitVec 32) :
    decodeStatus mem capLen ∉ [.ipFrag, .undefined, .nonGtp, .nonGprs] := by
  simp only [List.mem_cons, List.not_mem_nil, or_false, not_or]
  rw [decodeStatus_eq]
  refine ⟨?_, ?_, ?_, ?_⟩ <;>
  · intro h
    simp only [ite_eq_iff, reduceCtorEq, and_false, or_false] at h

theorem status_observed (calls : List StatCall) :
    ∀ o ∈ observed calls, o.status ∉ [.ipFrag, .undefined, .nonGtp, .nonGprs] := by
  induction calls using List.reverseRecOn with
  | nil => exact fun _ h => absurd h List.not_mem_nil
  | append_singleton calls call ih =>
    rw [observed_snoc]
    cases call with
    | decode pkt capLen actLen ts p =>
      rw [List.forall_mem_append, List.forall_mem_singleton]
      exact ⟨ih, decodeStatus_ne pkt capLen⟩
    | report opened => exact ih
    | reset => exact fun _ h => absurd h List.not_mem_nil

theorem ofStatus_eq_zero (calls : List StatCall) :
    ∀ s ∈ [.ipFrag, .undefined, .nonGtp, .nonGprs], ofStatus (observed calls) s = 0 := by
  intro s hs
  apply List.count_eq_zero.mpr
  intro hm
  obtain ⟨o, ho, rfl⟩ := List.mem_map.mp hm
  exact status_observed calls o ho hs

theorem ofStatus_valid (l : List Observed) : ofStatus l .valid = (valid l).length := by
  rw [ofStatus, List.count, List.countP_map, valid, List.countP_eq_length_filter]
  congr 1

/-- A counter, as the packets and the reports say. -/
theorem counter_run (calls : List StatCall) {s : PacketStatus} (hs : s ≠ .init) :
    (statRun calls).globals.packetStat.counter s =
      BitVec.ofNat 64 (ofStatus (observed calls) s +
        if s = .ipChksumFail ∨ s = .ipFrag then reportsSinceReset calls else 0) := by
  rw [(Balanced.run calls).counter s hs, returned_eq, BitVec.ofNat_add, ofStatus]
  split <;> rfl

/-- A report prints the totals and the counters. -/
theorem printed_eq (opened : Bool) (stat : PacketStat) :
    (reportFinalStatFile opened stat).2.2 =
      [stat.totPktCnt, stat.totCapByteCnt, stat.totActByteCnt, stat.counter .valid, stat.validCapByteCnt,
        stat.validActByteCnt, stat.counter .nonIp, stat.counter .ipNotFull, stat.counter .ipVerFail,
        stat.counter .ipChksumFail, stat.counter .ipFrag, stat.counter .tcpNotFull, stat.counter .udpNotFull,
        stat.counter .icmpNotFull, stat.counter .undefined, stat.counter .nonGtp, stat.counter .nonGprs] := by
  cases opened <;> rfl

/-- After any run of `decode`, reports and resets, a report prints the packets
and the bytes since the last reset, in all and valid, and the packets of each
status, but that the checksum failures and the fragments are counted up by each
report before; and the trace lasts from the first of these packets to the last. -/
theorem report_prints (calls : List StatCall) (opened : Bool) :
    (reportFinalStatFile opened (statRun calls).globals.packetStat).2.2 =
        (reportOf (observed calls) (reportsSinceReset calls)).map (BitVec.ofNat 64) ∧
      ((observed calls).length < 2 ^ 64 →
        (statRun calls).globals.packetStat.traceStartTs = ((observed calls).head?.map (·.ts)).getD 0) ∧
      (statRun calls).globals.packetStat.traceEndTs = ((observed calls).getLast?.map (·.ts)).getD 0 := by
  have ht := Tallied.run calls
  have htot := (Balanced.run calls).total
  rw [returned_eq, List.length_map] at htot
  have hnone := ofStatus_eq_zero calls
  simp only [List.forall_mem_cons] at hnone
  refine ⟨?_, ht.startTs, ht.endTs⟩
  rw [printed_eq]
  simp only [reportOf, List.map_cons, List.map_nil, htot, ht.cap, ht.act, ht.validCap, ht.validAct, counter_run, ne_eq,
    reduceCtorEq, not_false_eq_true, ofStatus_valid, hnone, or_false, or_true, if_true, if_false, Nat.add_zero,
    Nat.zero_add]

/-! ## Sequence numbers -/

/-- The sequence number that a call gives to its packet, if the packet is valid. -/
def StatRun.given (r : StatRun) : StatCall → List (BitVec 64)
  | .decode pkt capLen actLen ts p =>
    let (status, tuple, _) := (IpNdn.decode pkt capLen actLen ts p r.globals).val
    if status = .valid then [tuple.seq] else []
  | .report _ => []
  | .reset => []

/-- The sequence numbers given in a run, in order. -/
def sequenceNumbers (calls : List StatCall) : List (BitVec 64) :=
  calls.zipIdx.flatMap fun q => (statRun (calls.take q.2)).given q.1

/-- A call that finds a packet valid. -/
def StatCall.isValid : StatCall → Bool
  | .decode pkt capLen .. => decodeStatus pkt capLen = .valid
  | .report _ => false
  | .reset => false

theorem assignFields_seq (mem : Nat → Byte) (ipHdr : Nat) (ts : Int) (seq : BitVec 64) (p : Tuple) :
    (assignFields mem ipHdr ts seq p).val.seq = seq := by
  simp only [assignFields, Logged.val_bind, Logged.val_ite]
  split
  · rfl
  · split <;> rfl

theorem decode_seqCount (pkt : Nat → Byte) (capLen actLen : BitVec 32) (ts : Int) (p : Tuple) (g : Globals) :
    (decode pkt capLen actLen ts p g).val.2.2.seqCount =
      g.seqCount + if decodeStatus pkt capLen = .valid then 1 else 0 := by
  rw [← decode_status pkt capLen actLen ts p g]
  simp only [decode, Logged.val_bind, Logged.val_ite]
  split
  · rename_i h
    rw [Logged.val_pure, if_neg h]
    exact (BitVec.add_zero _).symm
  · rename_i h
    rw [Logged.val_pure, if_pos (not_not.mp h)]

theorem seqCount_run (calls : List StatCall) :
    (statRun calls).globals.seqCount = BitVec.ofNat 64 (calls.countP (·.isValid)) := by
  induction calls using List.reverseRecOn with
  | nil => rfl
  | append_singleton calls call ih =>
    rw [statRun_snoc, List.countP_append, BitVec.ofNat_add, ← ih, List.countP_singleton]
    cases call with
    | decode pkt capLen actLen ts p =>
      simp only [StatRun.step, decode_seqCount, StatCall.isValid, decide_eq_true_eq]
      split <;> rfl
    | report opened => exact (BitVec.add_zero _).symm
    | reset => exact (BitVec.add_zero _).symm

/-- The valid packets of a run are numbered from 1 on, modulo `2 ^ 64`, whatever
is rejected, reported or reset between them. -/
theorem sequence_gapFree (calls : List StatCall) :
    sequenceNumbers calls = (List.range' 1 (calls.countP (·.isValid))).map (BitVec.ofNat 64) := by
  induction calls using List.reverseRecOn with
  | nil => rfl
  | append_singleton calls call ih =>
    have hpre : (calls.zipIdx.flatMap fun q => (statRun ((calls ++ [call]).take q.2)).given q.1) =
        sequenceNumbers calls := by
      apply List.flatMap_congr
      intro q hq
      have := (List.mem_zipIdx' hq).1
      rw [List.take_append_of_le_length (by omega)]
    rw [sequenceNumbers, List.zipIdx_append, List.flatMap_append, hpre, ih, List.countP_append, List.countP_singleton]
    simp only [List.zipIdx_singleton, List.flatMap_singleton, Nat.zero_add, List.take_left]
    cases call with
    | decode pkt capLen actLen ts p =>
      have hc : (StatCall.decode pkt capLen actLen ts p).isValid = decide (decodeStatus pkt capLen = .valid) := rfl
      simp only [StatRun.given, hc, decode_status, decide_eq_true_eq]
      by_cases hv : decodeStatus pkt capLen = .valid
      · rw [if_pos hv, if_pos hv, decode_accepted _ _ _ _ _ _ hv, assignFields_seq, seqCount_run, List.range'_1_concat,
          List.map_append, List.map_singleton, Nat.add_comm 1, BitVec.ofNat_add]
        rfl
      · rw [if_neg hv, if_neg hv, List.append_nil]
        rfl
    | report opened => exact List.append_nil _
    | reset => exact List.append_nil _

end IpNdn
