import IpNdnStack.Proof.Checks

/-!
# The counters of `decode`

A run of `decode`, `report_final_stat_file` and `reset_stat` on the globals of
`packet.cpp`. Every counter is what the statuses returned since the last reset
say (`Balanced.run`), but that each report counts up two of them; so the
accounts are right just when there is no report in the run (`accounted_iff`).
-/

namespace IpNdn

/-- A call of one of the three functions. -/
inductive StatCall
  | decode (pkt : Nat → Byte) (capLen actLen : BitVec 32) (ts : Int) (p : Tuple)
  | report (opened : Bool)
  | reset

/-- The globals after some calls, with the statuses that `decode` has returned
since the last reset. -/
structure StatRun where
  globals : Globals
  returned : List PacketStatus

def StatRun.init : StatRun := ⟨.zero, []⟩

def StatRun.step (r : StatRun) : StatCall → StatRun
  | .decode pkt capLen actLen ts p =>
    let (status, _, globals) := (IpNdn.decode pkt capLen actLen ts p r.globals).val
    ⟨globals, r.returned ++ [status]⟩
  | .report opened =>
    ⟨{ r.globals with packetStat := (reportFinalStatFile opened r.globals.packetStat).1 }, r.returned⟩
  | .reset => ⟨{ r.globals with packetStat := resetStat r.globals.packetStat }, []⟩

def statRun (calls : List StatCall) : StatRun := calls.foldl StatRun.step .init

/-! ## Counters -/

/-- The counter of a status; no counter is for `init`. -/
def PacketStat.counter (stat : PacketStat) : PacketStatus → BitVec 64
  | .init => 0
  | .valid => stat.validPktCnt
  | .nonIp => stat.nonIpCnt
  | .ipNotFull => stat.ipNotFullCnt
  | .ipVerFail => stat.ipVerFailCnt
  | .ipChksumFail => stat.ipChksumFailCnt
  | .ipFrag => stat.ipFragCnt
  | .tcpNotFull => stat.tcpNotFullCnt
  | .udpNotFull => stat.udpNotFullCnt
  | .icmpNotFull => stat.icmpNotFullCnt
  | .undefined => stat.undefinedCnt
  | .nonGtp => stat.nonGtpCnt
  | .nonGprs => stat.nonGprsCnt

/-- The statuses of the failure counters. -/
def failures : List PacketStatus :=
  [.nonIp, .ipNotFull, .ipVerFail, .ipChksumFail, .ipFrag, .tcpNotFull, .udpNotFull, .icmpNotFull, .undefined,
    .nonGtp, .nonGprs]

theorem counter_countStatus (stat : PacketStat) (capLen actLen : BitVec 32) {status s : PacketStatus}
    (hs : s ≠ .init) :
    (countStatus stat capLen actLen status).counter s = stat.counter s + if status = s then 1 else 0 := by
  cases status <;> cases s <;> simp [countStatus, PacketStat.counter] at hs ⊢

theorem totPktCnt_countStatus (stat : PacketStat) (capLen actLen : BitVec 32) (status : PacketStatus) :
    (countStatus stat capLen actLen status).totPktCnt = stat.totPktCnt := by
  cases status <;> rfl

theorem counter_observe (stat : PacketStat) (capLen actLen : BitVec 32) (ts : Int) (s : PacketStatus) :
    (observe stat capLen actLen ts).counter s = stat.counter s := by
  cases s <;> rfl

theorem counter_report (stat : PacketStat) (opened : Bool) (s : PacketStatus) :
    (reportFinalStatFile opened stat).1.counter s =
      stat.counter s + if s = .ipChksumFail ∨ s = .ipFrag then 1 else 0 := by
  cases opened <;> cases s <;> simp [reportFinalStatFile, printPacketStat, PacketStat.counter]

theorem totPktCnt_report (stat : PacketStat) (opened : Bool) :
    (reportFinalStatFile opened stat).1.totPktCnt = stat.totPktCnt := by
  cases opened <;> rfl

/-- The counters that `decode` leaves. -/
theorem decode_packetStat (pkt : Nat → Byte) (capLen actLen : BitVec 32) (ts : Int) (p : Tuple) (g : Globals) :
    (decode pkt capLen actLen ts p g).val.2.2.packetStat =
      countStatus (observe g.packetStat capLen actLen ts) capLen actLen (decode pkt capLen actLen ts p g).val.1 := by
  simp only [decode, Logged.val_bind, Logged.val_ite]
  split <;> rfl

theorem decode_ne_init (pkt : Nat → Byte) (capLen actLen : BitVec 32) (ts : Int) (p : Tuple) (g : Globals) :
    (decode pkt capLen actLen ts p g).val.1 ≠ .init := by
  rw [decode_status, decodeStatus_eq]
  intro h
  simp only [ite_eq_iff, reduceCtorEq, and_false, or_false] at h

/-! ## Runs -/

/-- How many times `decode` was called since the last reset. -/
def decodesSinceReset (calls : List StatCall) : Nat :=
  calls.foldl (fun n call =>
    match call with
    | .decode .. => n + 1
    | .report _ => n
    | .reset => 0) 0

/-- The counters are the statuses returned, and `n` reports. -/
structure Balanced (r : StatRun) (n : Nat) : Prop where
  total : r.globals.packetStat.totPktCnt = BitVec.ofNat 64 r.returned.length
  counter : ∀ s, s ≠ .init → r.globals.packetStat.counter s =
    BitVec.ofNat 64 (r.returned.count s) + if s = .ipChksumFail ∨ s = .ipFrag then BitVec.ofNat 64 n else 0
  init : .init ∉ r.returned

theorem Balanced.zero (g : Globals) : Balanced ⟨{ g with packetStat := .zero }, []⟩ 0 := by
  refine ⟨rfl, fun s _ => ?_, List.not_mem_nil⟩
  cases s <;> rfl

theorem Balanced.decode {r : StatRun} {n : Nat} (h : Balanced r n) (pkt : Nat → Byte) (capLen actLen : BitVec 32)
    (ts : Int) (p : Tuple) : Balanced (r.step (.decode pkt capLen actLen ts p)) n := by
  have hd := decode_packetStat pkt capLen actLen ts p r.globals
  have hi := decode_ne_init pkt capLen actLen ts p r.globals
  refine ⟨?_, fun s hs => ?_, ?_⟩
  · have ht : (observe r.globals.packetStat capLen actLen ts).totPktCnt = r.globals.packetStat.totPktCnt + 1 := rfl
    simp only [StatRun.step, hd, totPktCnt_countStatus, ht, h.total, List.length_append, List.length_singleton]
    rw [BitVec.ofNat_add]
    rfl
  · simp only [StatRun.step, hd, counter_countStatus _ _ _ hs, counter_observe, h.counter s hs, List.count_append,
      List.count_singleton, BitVec.ofNat_add]
    have hc (a b c : BitVec 64) : a + b + c = a + c + b := by
      rw [BitVec.add_assoc, BitVec.add_comm b, ← BitVec.add_assoc]
    rw [hc]
    by_cases e : (IpNdn.decode pkt capLen actLen ts p r.globals).val.1 = s
    · simp [e]
    · simp [e]
  · simp only [StatRun.step, List.mem_append, List.mem_singleton, not_or]
    exact ⟨h.init, hi.symm⟩

theorem Balanced.report {r : StatRun} {n : Nat} (h : Balanced r n) (opened : Bool) :
    Balanced (r.step (.report opened)) (n + 1) := by
  refine ⟨?_, fun s hs => ?_, h.init⟩
  · exact (totPktCnt_report _ opened).trans h.total
  · refine (counter_report _ opened s).trans ?_
    rw [h.counter s hs]
    by_cases hc : s = .ipChksumFail ∨ s = .ipFrag
    · simp only [hc, if_true]
      rw [BitVec.add_assoc, BitVec.ofNat_add]
      rfl
    · simp only [hc, if_false]
      exact BitVec.add_zero _

/-- How many reports there were since the last reset. -/
def reportsSinceReset (calls : List StatCall) : Nat :=
  calls.foldl (fun n call =>
    match call with
    | .decode .. => n
    | .report _ => n + 1
    | .reset => 0) 0

theorem statRun_snoc (calls : List StatCall) (call : StatCall) :
    statRun (calls ++ [call]) = (statRun calls).step call := by
  rw [statRun, List.foldl_append, ← statRun]
  rfl

theorem Balanced.run (calls : List StatCall) : Balanced (statRun calls) (reportsSinceReset calls) := by
  induction calls using List.reverseRecOn with
  | nil => exact Balanced.zero .zero
  | append_singleton calls call ih =>
    rw [statRun_snoc, reportsSinceReset, List.foldl_append, ← reportsSinceReset]
    cases call with
    | decode pkt capLen actLen ts p => exact ih.decode pkt capLen actLen ts p
    | report opened => exact ih.report opened
    | reset => exact Balanced.zero _

theorem length_returned (calls : List StatCall) : (statRun calls).returned.length = decodesSinceReset calls := by
  induction calls using List.reverseRecOn with
  | nil => rfl
  | append_singleton calls call ih =>
    rw [statRun_snoc, decodesSinceReset, List.foldl_append, ← decodesSinceReset, ← ih]
    cases call with
    | decode pkt capLen actLen ts p => simp only [StatRun.step, List.length_append, List.length_singleton]; rfl
    | report opened => rfl
    | reset => rfl

/-! ## Accounts -/

/-- The accounts at the end of a run: the total is the calls of `decode` since
the last reset, and the sum of the other counters; and each failure counter is
the calls that returned its status. -/
structure Conserved (calls : List StatCall) : Prop where
  total : (statRun calls).globals.packetStat.totPktCnt.toNat = decodesSinceReset calls
  sum : (statRun calls).globals.packetStat.totPktCnt.toNat =
    (statRun calls).globals.packetStat.validPktCnt.toNat +
      (failures.map fun s => ((statRun calls).globals.packetStat.counter s).toNat).sum
  each : ∀ s ∈ failures,
    ((statRun calls).globals.packetStat.counter s).toNat = (statRun calls).returned.count s

/-- No report of a run changes a counter. -/
def ReportsQuiet (calls : List StatCall) : Prop :=
  ∀ l₁ opened l₂, calls = l₁ ++ .report opened :: l₂ →
    (statRun (l₁ ++ [.report opened])).globals.packetStat = (statRun l₁).globals.packetStat

theorem sum_count_cons (a : PacketStatus) (l fs : List PacketStatus) :
    (fs.map fun s => (a :: l).count s).sum = (fs.map fun s => l.count s).sum + fs.count a := by
  induction fs with
  | nil => rfl
  | cons s fs ih =>
    have hc : (a :: l).count s = l.count s + if s = a then 1 else 0 := by
      rw [List.count_cons]
      by_cases e : s = a
      · simp [e]
      · simp [e, Ne.symm e]
    rw [List.map_cons, List.map_cons, List.sum_cons, List.sum_cons, ih, hc, List.count_cons]
    simp only [beq_iff_eq]
    omega

/-- Every status but `init` is valid or a failure. -/
theorem length_eq_sum {l : List PacketStatus} (h : .init ∉ l) :
    l.length = l.count .valid + (failures.map fun s => l.count s).sum := by
  induction l with
  | nil => rfl
  | cons a l ih =>
    rw [List.mem_cons, not_or] at h
    have ha : (if a = .valid then 1 else 0) + failures.count a = 1 := by
      cases a
      · exact absurd rfl h.1
      all_goals rfl
    rw [sum_count_cons, List.length_cons, ih h.2, List.count_cons]
    simp only [beq_iff_eq]
    omega

theorem toNat_ofNat_count {l : List PacketStatus} (h : l.length < 2 ^ 64) (s : PacketStatus) :
    (BitVec.ofNat 64 (l.count s)).toNat = l.count s := by
  have := l.count_le_length (a := s)
  rw [BitVec.toNat_ofNat, Nat.mod_eq_of_lt (by omega)]

/-- The accounts are right at the end just when the reports since the last
reset, counted as the counters count, are none. -/
theorem conserved_iff (calls : List StatCall) :
    Conserved calls ↔ decodesSinceReset calls < 2 ^ 64 ∧ 2 ^ 64 ∣ reportsSinceReset calls := by
  obtain ⟨ht, hc, hi⟩ := Balanced.run calls
  have hl := length_returned calls
  refine ⟨fun h => ?_, fun h => ?_⟩
  · obtain ⟨htot, -, heach⟩ := h
    have hlt : decodesSinceReset calls < 2 ^ 64 := htot ▸ BitVec.isLt _
    refine ⟨hlt, ?_⟩
    have h := heach .ipFrag (by decide)
    rw [hc .ipFrag (by decide), if_pos (.inr rfl), ← BitVec.ofNat_add, BitVec.toNat_ofNat] at h
    have hle := (statRun calls).returned.count_le_length (a := .ipFrag)
    omega
  · obtain ⟨hlt, hd⟩ := h
    have h0 : BitVec.ofNat 64 (reportsSinceReset calls) = 0 := by
      apply BitVec.eq_of_toNat_eq
      rw [BitVec.toNat_ofNat, Nat.mod_eq_zero_of_dvd hd]
      rfl
    have hcount (s : PacketStatus) (hs : s ≠ .init) :
        ((statRun calls).globals.packetStat.counter s).toNat = (statRun calls).returned.count s := by
      rw [hc s hs, h0, ite_self]
      exact (congrArg BitVec.toNat (BitVec.add_zero _)).trans (toNat_ofNat_count (by omega) s)
    have htot : (statRun calls).globals.packetStat.totPktCnt.toNat = decodesSinceReset calls := by
      rw [ht, BitVec.toNat_ofNat, Nat.mod_eq_of_lt (by omega), hl]
    have hne : ∀ s ∈ failures, s ≠ .init := by decide
    refine ⟨htot, ?_, fun s hs => hcount s (hne s hs)⟩
    rw [htot, ← hl, length_eq_sum hi, ← hcount .valid (by decide)]
    exact congrArg (_ + ·) (congrArg List.sum (List.map_congr_left fun s hs => (hcount s (hne s hs)).symm))

theorem reportsSinceReset_eq_zero {calls : List StatCall} (h : ∀ opened, .report opened ∉ calls) :
    reportsSinceReset calls = 0 := by
  induction calls using List.reverseRecOn with
  | nil => rfl
  | append_singleton calls call ih =>
    have ih := ih fun opened hm => h opened (List.mem_append_left _ hm)
    rw [reportsSinceReset, List.foldl_append, ← reportsSinceReset, ih]
    cases call with
    | decode pkt capLen actLen ts p => rfl
    | report opened => exact absurd (List.mem_append_right _ List.mem_cons_self) (h opened)
    | reset => rfl

/-- A report counts up a checksum failure that was none. -/
theorem ReportsQuiet.notMem {calls : List StatCall} (h : ReportsQuiet calls) (opened : Bool) :
    .report opened ∉ calls := by
  intro hm
  obtain ⟨l₁, l₂, rfl⟩ := List.append_of_mem hm
  have he := congrArg (fun stat => stat.counter .ipChksumFail) (h l₁ opened l₂ rfl)
  rw [statRun_snoc] at he
  have hr := counter_report (statRun l₁).globals.packetStat opened .ipChksumFail
  rw [if_pos (.inl rfl)] at hr
  have e := congrArg BitVec.toNat (hr.symm.trans he)
  have h1 : (1 : BitVec 64).toNat = 1 := rfl
  rw [BitVec.toNat_add, h1] at e
  omega

/-- In a run of `decode`, reports and resets, the accounts are right at the end
and no report changes them just when there is no report, and fewer calls of
`decode` since the last reset than the counters can count. -/
theorem accounted_iff (calls : List StatCall) :
    Conserved calls ∧ ReportsQuiet calls ↔
      (∀ opened, .report opened ∉ calls) ∧ decodesSinceReset calls < 2 ^ 64 := by
  rw [conserved_iff]
  refine ⟨fun h => ?_, fun h => ?_⟩
  · obtain ⟨⟨hlt, -⟩, hq⟩ := h
    exact ⟨hq.notMem, hlt⟩
  · obtain ⟨hn, hlt⟩ := h
    refine ⟨⟨hlt, ?_⟩, ?_⟩
    · rw [reportsSinceReset_eq_zero hn]
      exact dvd_zero _
    · rintro l₁ opened l₂ rfl
      exact absurd (List.mem_append_right _ List.mem_cons_self) (hn opened)

/-- A valid packet, then a report: it counts a checksum failure and a fragment. -/
theorem not_accounted_report :
    ¬ (Conserved [.decode (udpFrame 60).mem 60 60 0 .new, .report true] ∧
      ReportsQuiet [.decode (udpFrame 60).mem 60 60 0 .new, .report true]) :=
  fun h => h.2.notMem true (List.mem_cons_of_mem _ List.mem_cons_self)

end IpNdn
