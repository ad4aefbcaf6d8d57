import IpNdnStack.Proof.Guess

/-!
# What is in the table of guesses

The table after a run of pre-requests, from the run alone: a packet is in it
just when it was guessed and has not been asked for since
(`mem_entries_requests_iff`). So after a flow's first `n` pre-requests, in
order, the `NUM_OF_GUEST` packets after them are left in it
(`entries_inOrder`), and they stay whatever other flows do
(`guessTable_contents`).
-/

namespace IpNdn

open Handler

/-- The pre-requests for the first `n` packets of a flow, in order. -/
def inOrder (f : Flow) (n : Nat) : List (Flow × Nat) := (List.range n).map fun i => (f, i + 1)

/-- The packets after packet `n` that its pre-request guesses. -/
def guessesAfter (f : Flow) (n : Nat) : List Text :=
  (List.range NUM_OF_GUEST).map fun i => f.dataName (BitVec.ofNat 32 (n + (i + 1)))

/-- Packet `k` of a flow was guessed in the run, and not asked for since. -/
def Guessed (rs : List (Flow × Nat)) (f : Flow) (k : Nat) : Prop :=
  ∃ l₁ m l₂, rs = l₁ ++ (f, m) :: l₂ ∧ m < k ∧ k ≤ m + NUM_OF_GUEST ∧ (f, k) ∉ l₂

/-! ## From names to packets -/

theorem request_guesses (f : Flow) (n : Nat) : (f.request (BitVec.ofNat 32 n)).2 = guessesAfter f n := by
  have e (i : Nat) : BitVec.ofNat 32 n + BitVec.ofNat 32 (i + 1) = BitVec.ofNat 32 (n + (i + 1)) :=
    (BitVec.ofNat_add ..).symm
  simp only [Flow.request, e, guessesAfter]

theorem guessesAfter_nodup (f : Flow) {n : Nat} (hn : n + NUM_OF_GUEST < 2 ^ 31) : (guessesAfter f n).Nodup := by
  refine List.Nodup.map_on (fun i hi j hj e => ?_) List.nodup_range
  have hi := List.mem_range.mp hi
  have hj := List.mem_range.mp hj
  have := ofNat_inj (by omega) (by omega) (Flow.dataName_inj e).2
  omega

/-- No request of a run is for packet `k`, as names and as packets. -/
theorem forall_requests_iff {rs : List (Flow × Nat)} (hr : ∀ r ∈ rs, r.2 < 2 ^ 31) {f : Flow} {k : Nat}
    (hk : k < 2 ^ 31) :
    (∀ q ∈ requests rs, f.dataName (BitVec.ofNat 32 k) ≠ q.1) ↔ (f, k) ∉ rs := by
  simp only [requests, List.forall_mem_map]
  constructor
  · intro h hm
    exact h _ hm rfl
  · intro h r hm e
    obtain ⟨hf, hn⟩ := Flow.dataName_inj e
    have hr := hr r hm
    apply h
    rwa [show (f, k) = r from Prod.ext hf (ofNat_inj (by omega) (by omega) hn)]

/-- What a run leaves in the table, by packets. -/
theorem mem_entries_requests_iff {rs : List (Flow × Nat)} (hr : ∀ r ∈ rs, r.2 < 2 ^ 31) (w : Window Text)
    (f : Flow) {k : Nat} (hk : k < 2 ^ 31) :
    f.dataName (BitVec.ofNat 32 k) ∈ (w.run (requests rs)).entries ↔
      (f.dataName (BitVec.ofNat 32 k) ∈ w.entries ∧ (f, k) ∉ rs) ∨ Guessed rs f k := by
  rw [Window.mem_entries_run_iff, forall_requests_iff hr hk]
  refine or_congr Iff.rfl ⟨fun h => ?_, fun h => ?_⟩
  · obtain ⟨l₁, q, l₂, h, hq, hl⟩ := h
    obtain ⟨a, b, rfl, -, hb⟩ := List.map_eq_append_iff.mp h
    obtain ⟨r, b, rfl, rfl, rfl⟩ := List.map_eq_cons_iff.mp hb
    simp only [List.mem_append, List.mem_cons] at hr
    obtain ⟨rfl, hlt, hle⟩ := (mem_request_iff hk (hr r (.inr (.inl rfl)))).mp hq
    have hb := (forall_requests_iff (fun x hx => hr x (.inr (.inr hx))) hk).mp hl
    exact ⟨a, r.2, b, rfl, hlt, hle, hb⟩
  · obtain ⟨a, m, b, rfl, hlt, hle, hb⟩ := h
    simp only [List.mem_append, List.mem_cons] at hr
    have hm : m < 2 ^ 31 := by omega
    refine ⟨requests a, f.request (BitVec.ofNat 32 m), requests b, ?_, ?_, ?_⟩
    · rw [requests, List.map_append, List.map_cons, requests, requests]
    · exact (mem_request_iff hk hm).mpr ⟨rfl, hlt, hle⟩
    · exact (forall_requests_iff (fun x hx => hr x (.inr (.inr hx))) hk).mpr hb

/-- A run leaves nothing in an empty table but packets it guessed. -/
theorem exists_of_mem_entries {rs : List (Flow × Nat)} (hr : ∀ r ∈ rs, r.2 + NUM_OF_GUEST < 2 ^ 31) {x : Text}
    (hx : x ∈ (Window.empty.run (requests rs)).entries) :
    ∃ (f : Flow) (k : Nat), k < 2 ^ 31 ∧ x = f.dataName (BitVec.ofNat 32 k) := by
  rcases (Window.mem_entries_run_iff _ _ _).mp hx with ⟨h, -⟩ | ⟨l₁, q, l₂, h, hq, -⟩
  · exact absurd h (Finset.notMem_empty x)
  · have hm : q ∈ requests rs := by
      rw [h]
      exact List.mem_append_right _ List.mem_cons_self
    obtain ⟨r, hrs, rfl⟩ := List.mem_map.mp hm
    rw [request_guesses] at hq
    obtain ⟨i, hi, rfl⟩ := List.mem_map.mp hq
    have hr := hr r hrs
    have hi := List.mem_range.mp hi
    exact ⟨r.1, r.2 + (i + 1), by omega, rfl⟩

/-! ## Packets in order -/

theorem mem_inOrder {f : Flow} {n : Nat} {r : Flow × Nat} : r ∈ inOrder f n ↔ r.1 = f ∧ 1 ≤ r.2 ∧ r.2 ≤ n := by
  simp only [inOrder, List.mem_map, List.mem_range]
  refine ⟨fun h => ?_, fun h => ?_⟩
  · obtain ⟨i, hi, rfl⟩ := h
    exact ⟨rfl, by omega, by omega⟩
  · obtain ⟨rfl, h1, h2⟩ := h
    exact ⟨r.2 - 1, by omega, Prod.ext rfl (by omega)⟩

theorem inOrder_sorted (f : Flow) (n : Nat) : (inOrder f n).Pairwise fun r q => r.2 < q.2 := by
  apply List.Pairwise.map (R := fun i j => i < j)
  · intro i j h
    omega
  · exact List.pairwise_lt_range

/-- The packets in the run were asked for after they were guessed. -/
theorem guessed_inOrder_iff {f : Flow} {n : Nat} (hn : 1 ≤ n) (g : Flow) (k : Nat) :
    Guessed (inOrder f n) g k ↔ g = f ∧ n < k ∧ k ≤ n + NUM_OF_GUEST := by
  refine ⟨fun h => ?_, fun h => ?_⟩
  · obtain ⟨a, m, b, h, hlt, hle, hb⟩ := h
    have hm : (g, m) ∈ inOrder f n := by
      rw [h]
      exact List.mem_append_right _ List.mem_cons_self
    obtain ⟨hg, h1, hmn⟩ := mem_inOrder.mp hm
    refine ⟨hg, ?_, by omega⟩
    by_contra hk
    have hs := inOrder_sorted f n
    have hk : (g, k) ∈ inOrder f n := mem_inOrder.mpr ⟨hg, by omega, by omega⟩
    rw [h] at hs hk
    -- Packet `k` comes after packet `m`, so its request is one of `b`.
    rcases List.mem_append.mp hk with hk | hk
    · have := (List.pairwise_append.mp hs).2.2 _ hk _ List.mem_cons_self
      omega
    · rcases List.mem_cons.mp hk with hk | hk
      · have := (Prod.mk.inj hk).2
        omega
      · exact hb hk
  · obtain ⟨rfl, hlt, hle⟩ := h
    obtain ⟨i, rfl⟩ : ∃ i, n = i + 1 := ⟨n - 1, by omega⟩
    refine ⟨inOrder g i, i + 1, [], ?_, hlt, hle, List.not_mem_nil⟩
    rw [inOrder, List.range_succ, List.map_append, inOrder]
    rfl

theorem entries_inOrder (f : Flow) {n : Nat} (hn : 1 ≤ n) (hb : n + NUM_OF_GUEST < 2 ^ 31) :
    (Window.empty.run (requests (inOrder f n))).entries = (guessesAfter f n).toFinset := by
  have hr : ∀ r ∈ inOrder f n, r.2 + NUM_OF_GUEST < 2 ^ 31 := fun r h => by
    have := mem_inOrder.mp h
    omega
  have hr' : ∀ r ∈ inOrder f n, r.2 < 2 ^ 31 := fun r h => by
    have := hr r h
    omega
  apply Finset.ext
  intro x
  rw [List.mem_toFinset]
  refine ⟨fun hx => ?_, fun hx => ?_⟩
  · obtain ⟨g, k, hk, rfl⟩ := exists_of_mem_entries hr hx
    rcases (mem_entries_requests_iff hr' _ g hk).mp hx with ⟨h, -⟩ | h
    · exact absurd h (Finset.notMem_empty _)
    · obtain ⟨rfl, hlt, hle⟩ := (guessed_inOrder_iff hn g k).mp h
      refine List.mem_map.mpr ⟨k - n - 1, List.mem_range.mpr (by omega), ?_⟩
      rw [show n + (k - n - 1 + 1) = k by omega]
  · obtain ⟨i, hi, rfl⟩ := List.mem_map.mp hx
    have hi := List.mem_range.mp hi
    refine (mem_entries_requests_iff hr' _ f (by omega)).mpr (.inr ?_)
    exact (guessed_inOrder_iff hn f _).mpr ⟨rfl, by omega, by omega⟩

/-! ## The gateway -/

section

variable {L : Libs}

/-- A run from any gateway, with the table it leaves. -/
theorem preRequests_table (hL : L.Lawful) {rs : List (Flow × Nat)} (hr : ∀ r ∈ rs, r.2 < 2 ^ 31) (g : Gateway) :
    ∃ g', preRequests L rs g = .ok ⟨⟩ g' ∧
      g'.prefixGuestTable.s = ((⟨g.prefixGuestTable.s, []⟩ : Window Text).run (requests rs)).entries := by
  have h := preRequests_ok hL hr g ⟨g.prefixGuestTable.s, []⟩
  rw [Gateway.withWindow_self] at h
  exact ⟨_, h, rfl⟩

/-- From an empty table, a run of pre-requests leaves the packets that were
guessed and not asked for since, and nothing else; a flow's first `n` in order
leave the packets after `n`; and pre-requests of other flows, from any table,
change no packet of a flow. -/
theorem guessTable_contents (L : Libs) (hL : L.Lawful) :
    (∀ (g : Gateway) (rs : List (Flow × Nat)), g.prefixGuestTable = .empty →
      (∀ r ∈ rs, 1 ≤ r.2 ∧ r.2 ≤ 2 ^ 31 - 61) →
      ∃ g', preRequests L rs g = .ok ⟨⟩ g' ∧
        (∀ (f : Flow) (k : Nat), k < 2 ^ 31 →
          (f.dataName (BitVec.ofNat 32 k) ∈ g'.prefixGuestTable.s ↔ Guessed rs f k)) ∧
        ∀ x ∈ g'.prefixGuestTable.s, ∃ (f : Flow) (k : Nat), k < 2 ^ 31 ∧ x = f.dataName (BitVec.ofNat 32 k)) ∧
    (∀ (g : Gateway) (f : Flow) (n : Nat), g.prefixGuestTable = .empty → 1 ≤ n → n ≤ 2 ^ 31 - 61 →
      ∃ g', preRequests L (inOrder f n) g = .ok ⟨⟩ g' ∧
        g'.prefixGuestTable.s = (guessesAfter f n).toFinset ∧ (guessesAfter f n).Nodup) ∧
    ∀ (g : Gateway) (rs : List (Flow × Nat)) (f : Flow), (∀ r ∈ rs, 1 ≤ r.2 ∧ r.2 ≤ 2 ^ 31 - 61) →
      (∀ r ∈ rs, r.1 ≠ f) →
      ∃ g', preRequests L rs g = .ok ⟨⟩ g' ∧
        ∀ k : Nat, k < 2 ^ 31 → (f.dataName (BitVec.ofNat 32 k) ∈ g'.prefixGuestTable.s ↔
          f.dataName (BitVec.ofNat 32 k) ∈ g.prefixGuestTable.s) := by
  have hk : NUM_OF_GUEST = 60 := rfl
  refine ⟨fun g rs hg hr => ?_, fun g f n hg hn hb => ?_, fun g rs f hr hf => ?_⟩
  · have hr' : ∀ r ∈ rs, r.2 < 2 ^ 31 := fun r h => by have := hr r h; omega
    obtain ⟨g', hg', ht⟩ := preRequests_table hL hr' g
    rw [hg] at ht
    refine ⟨g', hg', fun f k hk => ?_, fun x hx => ?_⟩
    · rw [ht]
      refine (mem_entries_requests_iff hr' Window.empty f hk).trans (or_iff_right fun h => ?_)
      exact absurd h.1 (Finset.notMem_empty _)
    · rw [ht] at hx
      exact exists_of_mem_entries (fun r h => by have := hr r h; omega) hx
  · have hr' : ∀ r ∈ inOrder f n, r.2 < 2 ^ 31 := fun r h => by have := mem_inOrder.mp h; omega
    obtain ⟨g', hg', ht⟩ := preRequests_table hL hr' g
    rw [hg] at ht
    exact ⟨g', hg', ht.trans (entries_inOrder f hn (by omega)), guessesAfter_nodup f (by omega)⟩
  · have hr' : ∀ r ∈ rs, r.2 < 2 ^ 31 := fun r h => by have := hr r h; omega
    obtain ⟨g', hg', ht⟩ := preRequests_table hL hr' g
    refine ⟨g', hg', fun k hk => ?_⟩
    rw [ht, mem_entries_requests_iff hr' _ f hk]
    refine ⟨fun h => ?_, fun h => .inl ⟨h, fun hm => hf _ hm rfl⟩⟩
    rcases h with h | ⟨a, m, b, rfl, -⟩
    · exact h.1
    · exact absurd rfl (hf (f, m) (List.mem_append_right _ List.mem_cons_self))

/-- The first two packets of a flow, the second one first: packet 2 is left in
the table. -/
theorem guessTable_contents_reordered :
    ∃ g', preRequests textLibs [(⟨1, 2, 3, 4⟩, 2), (⟨1, 2, 3, 4⟩, 1)] .init = .ok ⟨⟩ g' ∧
      Flow.dataName ⟨1, 2, 3, 4⟩ 2 ∈ g'.prefixGuestTable.s := by
  obtain ⟨g', hg', h, -⟩ := (guessTable_contents textLibs textLibs_lawful).1 .init
    [(⟨1, 2, 3, 4⟩, 2), (⟨1, 2, 3, 4⟩, 1)] rfl (by decide)
  refine ⟨g', hg', (h ⟨1, 2, 3, 4⟩ 2 (by decide)).mpr ?_⟩
  exact ⟨[(⟨1, 2, 3, 4⟩, 2)], 1, [], rfl, by decide, by decide, by decide⟩

end

end IpNdn
