import IpNdnStack.Proof.Guess

/-!
# How far the numbers go

The numbers that `deal` gives are `int`s, and the receiver counts on from them.
A packet's number and its guesses are `int`s just when the packet is one of the
first `2^31 - 61` of its flow (`accepts_iff`), so a run is free of overflows just
when no flow has more packets in it (`dealAll_accepts_iff`).
-/

namespace IpNdn

open Handler IpNdn.Numbering

/-! ## Where a number can overflow -/

/-- `res.first + 1` in `getAndIncreaseSequence` overflows. -/
def increaseOverflows (m : MapCacheHelper (BitVec 32)) (key : Text) : Bool :=
  match m.get key with
  | none => false
  | some first => first.saddOverflow 1

/-- `++num_of_sequence` overflows in one of the next `n` turns of the loop in
`dealOnInterest`. -/
def guessOverflows : (n : Nat) → (numOfSequence : BitVec 32) → Bool
  | 0, _ => false
  | n + 1, numOfSequence => numOfSequence.saddOverflow 1 || guessOverflows n (numOfSequence + 1)

theorem saddOverflow_one {n : Nat} (hn : n < 2 ^ 31) :
    (BitVec.ofNat 32 n).saddOverflow 1 = false ↔ n + 1 < 2 ^ 31 := by
  have h1 : (1 : BitVec 32).toInt = 1 := rfl
  simp only [BitVec.saddOverflow, toInt_ofNat hn, h1, Bool.or_eq_false_iff, decide_eq_false_iff_not]
  omega

theorem guessOverflows_iff (k : Nat) {n : Nat} (hn : n < 2 ^ 31) :
    guessOverflows k (BitVec.ofNat 32 n) = false ↔ n + k < 2 ^ 31 := by
  induction k generalizing n with
  | zero => exact ⟨fun _ => hn, fun _ => rfl⟩
  | succ k ih =>
    rw [guessOverflows, Bool.or_eq_false_iff, saddOverflow_one hn]
    have e : BitVec.ofNat 32 n + 1 = BitVec.ofNat 32 (n + 1) := (BitVec.ofNat_add ..).symm
    refine ⟨fun h => ?_, fun h => ?_⟩
    · obtain ⟨h1, h⟩ := h
      rw [e, ih h1] at h
      omega
    · have h1 : n + 1 < 2 ^ 31 := by omega
      refine ⟨h1, ?_⟩
      rw [e, ih h1]
      omega

section

variable (L : Libs)

/-- The number that `dealOnInterest` reads from a name. -/
def numberRead (interest : L.Name) : Option (BitVec 32) := do
  let uid ← (L.split (L.toUri interest) '/')[6]?
  let field ← (L.split uid '-')[2]?
  L.lexicalCast field

/-- The next tuple is published and announced as packet `n` of its flow, where
`n` is counted up without overflow and positive; and every receiver of the
announcement handles it to the end, reads a number and counts on from it
without overflow. -/
def Accepts (g : Gateway) (t : Tuple) (uuid : Text) : Prop :=
  increaseOverflows g.sequenceTable t.flow.key = false ∧
    ∃ g' n, deal t uuid g = .ok ⟨⟩ g' ∧ g'.face = g.face ++ numberedCalls t n ∧ 0 < n.toInt ∧
      (∀ r, ∃ r', dealOnInterest L (L.ofUri (t.flow.preName n)) true true r = .ok ⟨⟩ r') ∧
      ∃ m, numberRead L (L.ofUri (t.flow.preName n)) = some m ∧ guessOverflows NUM_OF_GUEST m = false

variable {L}

theorem numberRead_preName (hL : L.Lawful) (f : Flow) {n : BitVec 32} (hn : n.toNat < 2 ^ 31) :
    numberRead L (L.ofUri (f.preName n)) = some n := by
  rw [numberRead, f.toUri_preName hL, f.split_preName hL]
  show (L.split (uidText f.srcPort f.dstPort n) '-')[2]?.bind L.lexicalCast = some n
  rw [split_uidText hL _ _ hn]
  exact hL.lexicalCast_intText n

/-- With `c` packets of the flow before it. -/
theorem accepts_iff (hL : L.Lawful) {c : Flow → Nat} {g : Gateway} (hc : Counts c g.sequenceTable) {t : Tuple}
    (ht : t.Numbered) (hp : t.HasBytes) (uuid : Text) (hlt : c t.flow + 1 < 2 ^ 31) :
    Accepts L g t uuid ↔ c t.flow + 1 + NUM_OF_GUEST < 2 ^ 31 := by
  have hd := deal_numbered uuid ht hp hc
  have hread := numberRead_preName hL t.flow (toNat_ofNat_lt hlt)
  refine ⟨fun h => ?_, fun h => ?_⟩
  · obtain ⟨-, g', n, hg', hf, -, -, m, hm, ho⟩ := h
    cases hg'.symm.trans hd
    have e := List.append_cancel_left hf
    simp only [numberedCalls, List.cons.injEq, FaceCall.expressInterest.injEq, and_true] at e
    obtain ⟨-, rfl⟩ := Flow.dataName_inj (FaceCall.putDataToCache.inj e.1).1
    cases hread.symm.trans hm
    exact (guessOverflows_iff _ hlt).mp ho
  · refine ⟨?_, _, _, hd, rfl, ?_, fun r => ?_, _, hread, (guessOverflows_iff _ hlt).mpr h⟩
    · rw [increaseOverflows, hc t.flow]
      by_cases h0 : c t.flow = 0
      · rw [if_pos h0]
      · rw [if_neg h0]
        exact (saddOverflow_one (by omega)).mpr hlt
    · rw [toInt_ofNat hlt]
      omega
    · have hr := dealOnInterest_pre hL t.flow (toNat_ofNat_lt hlt) r ⟨r.prefixGuestTable.s, []⟩
      rw [Gateway.withWindow_self] at hr
      exact ⟨_, hr⟩

/-! ## Runs -/

variable (L) in
/-- Every tuple of a run is accepted when it is its turn. -/
def AllAccepted (g : Gateway) (l : List (Tuple × Text)) : Prop :=
  ∀ l₁ p l₂, l = l₁ ++ p :: l₂ → ∀ g₁, dealAll l₁ g = .ok ⟨⟩ g₁ → Accepts L g₁ p.1 p.2

/-- What the table has counted after a run. -/
theorem counts_dealAll {l : List (Tuple × Text)} (hl : ∀ p ∈ l, p.1.Numbered) (hp : ∀ p ∈ l, p.1.HasBytes)
    {g : Gateway} (hg : g.sequenceTable = .empty) :
    ∃ g', dealAll l g = .ok ⟨⟩ g' ∧ Counts (packets · l) g'.sequenceTable := by
  obtain ⟨g', hg', -, ht⟩ := dealAll_numbered hl hp (fun _ => 0) g (hg ▸ Counts.empty)
  have e : l.foldl (tick (·.1.flow)) (fun _ => 0) = (packets · l) := by
    funext f
    rw [foldl_count_eq, Nat.zero_add, packets]
  exact ⟨g', hg', e ▸ ht⟩

/-- The packet after the first `2^31 - 61` of its flow is not accepted. -/
theorem not_allAccepted (hL : L.Lawful) {l : List (Tuple × Text)} (hl : ∀ p ∈ l, p.1.Numbered)
    (hp : ∀ p ∈ l, p.1.HasBytes) {g : Gateway} (hg : g.sequenceTable = .empty) {f : Flow}
    (hf : 2 ^ 31 - 61 < packets f l) : ¬ AllAccepted L g l := by
  intro h
  obtain ⟨l₁, p, l₂, rfl, hk, hn⟩ := exists_of_lt_count _ hf
  obtain ⟨hl₁, ht, -⟩ := List.forall_mem_append.mp hl |>.imp id List.forall_mem_cons.mp
  obtain ⟨hp₁, hb, -⟩ := List.forall_mem_append.mp hp |>.imp id List.forall_mem_cons.mp
  obtain ⟨g₁, hg₁, hc⟩ := counts_dealAll hl₁ hp₁ hg
  have hn : packets p.1.flow l₁ = 2 ^ 31 - 61 := hk ▸ hn
  have := (accepts_iff hL hc ht hb p.2 (by omega)).mp (h l₁ p l₂ rfl g₁ hg₁)
  rw [hn] at this
  exact absurd this (by decide)

/-- From an empty table, every tuple of a run, all with their bytes, is accepted just when no flow has
more than `2^31 - 61` of them. -/
theorem dealAll_accepts_iff (L : Libs) (hL : L.Lawful) (g : Gateway) (hg : g.sequenceTable = .empty)
    (l : List (Tuple × Text)) (hl : ∀ p ∈ l, p.1.Numbered) (hp : ∀ p ∈ l, p.1.HasBytes) :
    AllAccepted L g l ↔ ∀ f, packets f l ≤ 2 ^ 31 - 61 := by
  refine ⟨fun h f => ?_, fun h l₁ p l₂ e g₁ hg₁ => ?_⟩
  · by_contra hf
    exact not_allAccepted hL hl hp hg (Nat.lt_of_not_le hf) h
  · subst e
    obtain ⟨hl₁, ht, -⟩ := List.forall_mem_append.mp hl |>.imp id List.forall_mem_cons.mp
    obtain ⟨hp₁, hb, -⟩ := List.forall_mem_append.mp hp |>.imp id List.forall_mem_cons.mp
    obtain ⟨g', hg', hc⟩ := counts_dealAll hl₁ hp₁ hg
    cases hg'.symm.trans hg₁
    have hlt := h p.1.flow
    rw [packets, count_append, count_cons, if_pos rfl, ← packets] at hlt
    have hk : NUM_OF_GUEST = 60 := rfl
    exact (accepts_iff hL hc ht hb p.2 (by omega)).mpr (by omega)

/-- Two packets of a flow. -/
theorem dealAll_accepts_two : AllAccepted textLibs .init [(tcpTuple 1, []), (tcpTuple 1, [])] :=
  (dealAll_accepts_iff textLibs textLibs_lawful .init rfl _ (by decide) (by decide)).mpr fun f =>
    le_trans List.countP_le_length (by decide)

/-- The same packet over and over. -/
theorem not_allAccepted_replicate {n : Nat} (hn : 2 ^ 31 - 61 < n) :
    ¬ AllAccepted textLibs .init (List.replicate n (tcpTuple 1, [])) := by
  have hp : packets (tcpTuple 1).flow (List.replicate n (tcpTuple 1, [])) = n := by
    rw [packets, count, List.countP_replicate, if_pos (by decide)]
  refine not_allAccepted textLibs_lawful (fun p h => ?_) (fun p h => ?_) rfl (f := (tcpTuple 1).flow) (by rwa [hp])
  · rw [List.eq_of_mem_replicate h]
    exact .inl rfl
  · rw [List.eq_of_mem_replicate h]
    exact .inr rfl

/-- Packet `2^31 - 60` of a flow: the last of its guesses overflows. -/
theorem dealAll_not_accepted :
    (∀ p ∈ List.replicate (2 ^ 31 - 60) (tcpTuple 1, ([] : Text)), p.1.Numbered ∧ p.1.HasBytes) ∧
      ¬ AllAccepted textLibs .init (List.replicate (2 ^ 31 - 60) (tcpTuple 1, [])) := by
  refine ⟨fun p h => ?_, not_allAccepted_replicate (by decide)⟩
  rw [List.eq_of_mem_replicate h]
  exact ⟨.inl rfl, .inr rfl⟩

end

end IpNdn
