import IpNdnStack.Framework.OnesComplement
import IpNdnStack.Impl.Packet

/-!
# Headers as numbers

What the parts of `decode` compute, in terms of the bytes of the frame read in
network order: the fields of the IP header, and its checksum, which is correct
just when the one's complement sum of its words is all ones
(`inChksumIp_eq_zero_iff`), whatever the byte order of the host.
-/

namespace IpNdn

open OnesComplement (Folded)

/-! ## Numbers in network order -/

/-- The number in the two bytes at `i`, in network order. -/
def be16 (mem : Nat → Byte) (i : Nat) : Nat := 256 * (mem i).toNat + (mem (i + 1)).toNat

/-- The number in the four bytes at `i`, in network order. -/
def be32 (mem : Nat → Byte) (i : Nat) : Nat := 65536 * be16 mem i + be16 mem (i + 2)

theorem ntohs_append (a b : Byte) : ntohs (a ++ b) = b ++ a := by
  apply BitVec.eq_of_getLsbD_eq
  intro i hi
  rw [getLsbD_ntohs]
  simp only [BitVec.getLsbD_append]
  rcases (by omega : i < 8 ∨ (8 ≤ i ∧ i < 16)) with h | ⟨h1, h2⟩
  · simp [h, show i / 8 = 0 by omega, show i < 16 by omega, show i % 8 = i by omega]
  · simp [hi, show i / 8 = 1 by omega, show ¬ i < 8 by omega, show i % 8 = i - 8 by omega, show i - 8 < 8 by omega]

theorem ntohl_append (a b : BitVec 16) : ntohl (a ++ b) = ntohs b ++ ntohs a := by
  apply BitVec.eq_of_getLsbD_eq
  intro i hi
  rw [getLsbD_ntohl]
  simp only [BitVec.getLsbD_append, getLsbD_ntohs]
  rcases (by omega : i < 8 ∨ (8 ≤ i ∧ i < 16) ∨ (16 ≤ i ∧ i < 24) ∨ (24 ≤ i ∧ i < 32)) with
    h | ⟨h1, h2⟩ | ⟨h1, h2⟩ | ⟨h1, h2⟩
  · simp [show i < 16 by omega, hi, show i / 8 = 0 by omega, show i % 8 = i by omega,
      show ¬ 24 + i < 16 by omega, show 24 + i - 16 = 8 + i by omega]
  · simp [h2, hi, show i / 8 = 1 by omega, show ¬ 16 + i % 8 < 16 by omega,
      show 16 + i % 8 - 16 = i % 8 by omega]
  · simp [show ¬ i < 16 by omega, hi, show i - 16 < 16 by omega, show i / 8 = 2 by omega,
      show 8 + i % 8 < 16 by omega, show (i - 16) / 8 = 0 by omega, show (i - 16) % 8 = i % 8 by omega]
  · simp [show ¬ i < 16 by omega, hi, show i - 16 < 16 by omega, show i / 8 = 3 by omega,
      show i % 8 < 16 by omega, show (i - 16) / 8 = 1 by omega, show (i - 16) % 8 = i % 8 by omega]

theorem toNat_append (a b : Byte) : (a ++ b).toNat = 256 * a.toNat + b.toNat := by
  rw [BitVec.toNat_append, ← Nat.shiftLeft_add_eq_or_of_lt b.isLt, Nat.shiftLeft_eq]
  omega

theorem toNat_append16 (a b : BitVec 16) : (a ++ b).toNat = 65536 * a.toNat + b.toNat := by
  rw [BitVec.toNat_append, ← Nat.shiftLeft_add_eq_or_of_lt b.isLt, Nat.shiftLeft_eq]
  omega

/-- `ntohs` of a word in memory is the number in network order. -/
theorem ntohs_load16 (mem : Nat → Byte) (i : Nat) : (ntohs (load16 mem i).val).toNat = be16 mem i := by
  show (ntohs (mem (i + 1) ++ mem i)).toNat = be16 mem i
  rw [ntohs_append, toNat_append, be16]

theorem ntohl_load32 (mem : Nat → Byte) (i : Nat) : (ntohl (load32 mem i).val).toNat = be32 mem i := by
  show (ntohl ((load16 mem (i + 2)).val ++ (load16 mem i).val)).toNat = be32 mem i
  rw [ntohl_append, toNat_append16, ntohs_load16, ntohs_load16, be32]

theorem loadIpHl_val (mem : Nat → Byte) (i : Nat) : (loadIpHl mem i).val = (mem i).toNat % 16 := by
  show ((mem i) &&& 0xF).toNat = _
  rw [BitVec.toNat_and]
  exact Nat.and_two_pow_sub_one_eq_mod _ 4

theorem loadIpV_val (mem : Nat → Byte) (i : Nat) : (loadIpV mem i).val = (mem i).toNat / 16 := by
  show ((mem i) >>> 4).toNat = _
  rw [BitVec.toNat_ushiftRight, Nat.shiftRight_eq_div_pow]

theorem loadDoff_val (mem : Nat → Byte) (i : Nat) : (loadDoff mem i).val = (mem (i + 12)).toNat / 16 := by
  show ((mem (i + 12)) >>> 4).toNat = _
  rw [BitVec.toNat_ushiftRight, Nat.shiftRight_eq_div_pow]

/-! ## The header checksum -/

/-- The `n` words at `i`, as numbers in network order. -/
def words (mem : Nat → Byte) : (i n : Nat) → List Nat
  | _, 0 => []
  | i, n + 1 => be16 mem i :: words mem (i + 2) n

/-- The halves of the words. -/
def halves (mem : Nat → Byte) : (i n : Nat) → List (Nat × Nat)
  | _, 0 => []
  | i, n + 1 => ((mem i).toNat, (mem (i + 1)).toNat) :: halves mem (i + 2) n

theorem words_eq (mem : Nat → Byte) (i n : Nat) :
    words mem i n = (halves mem i n).map (OnesComplement.joinHalves 256) := by
  induction n generalizing i with
  | zero => rfl
  | succ n ih =>
    rw [words, halves, List.map_cons, ih]
    rfl

theorem words_lt (mem : Nat → Byte) (i n : Nat) : ∀ w ∈ words mem i n, w < 65536 := by
  induction n generalizing i with
  | zero => exact fun _ h => absurd h List.not_mem_nil
  | succ n ih =>
    refine List.forall_mem_cons.mpr ⟨?_, ih (i + 2)⟩
    have h1 := (mem i).isLt
    have h2 := (mem (i + 1)).isLt
    unfold be16
    omega

/-- The two folds of the source. -/
theorem fold_eq (s : Nat) : (s &&& 0xFFFF) + (s >>> 16) = OnesComplement.fold 65536 s := by
  rw [show (0xFFFF : Nat) = 2 ^ 16 - 1 from rfl, Nat.and_two_pow_sub_one_eq_mod, Nat.shiftRight_eq_div_pow]
  rfl

/-- The plain sum of the words as the host reads them. -/
def hostSum (mem : Nat → Byte) (i n : Nat) : Nat :=
  ((halves mem i n).map fun p => OnesComplement.joinHalves 256 p.swap).sum

theorem hostSum_succ (mem : Nat → Byte) (i n : Nat) :
    hostSum mem i (n + 1) = (load16 mem i).val.toNat + hostSum mem (i + 2) n := by
  have hw : (load16 mem i).val.toNat = OnesComplement.joinHalves 256 ((mem (i + 1)).toNat, (mem i).toNat) :=
    toNat_append _ _
  rw [hw, hostSum, halves, List.map_cons, List.sum_cons, hostSum]
  rfl

/-- The loop of `in_chksum_ip` adds the words, with carries added back now and
then. -/
theorem sumWords_even (mem : Nat → Byte) (w n : Nat) {sum t : Nat} (h : Folded 65536 sum t) :
    ∃ sum', (sumWords mem w (2 * n) sum).val = (w + 2 * n, 0, sum') ∧ Folded 65536 sum' (t + hostSum mem w n) := by
  induction n generalizing w sum t with
  | zero => exact ⟨sum, rfl, h⟩
  | succ n ih =>
    rw [show 2 * (n + 1) = 2 * n + 2 by omega, sumWords, Logged.val_bind, hostSum_succ]
    dsimp only
    rw [fold_eq, ← Nat.add_assoc t, show w + (2 * n + 2) = w + 2 + 2 * n by omega]
    apply ih
    split
    · exact (h.add _).fold (by decide)
    · exact h.add _

theorem foldSum_spec {s t : Nat} (h : Folded 65536 s t) :
    foldSum s < 65536 ∧ Folded 65536 (foldSum s) t := by
  induction s using foldSum.induct with
  | case1 s hs =>
    rw [foldSum, if_pos hs]
    rw [Nat.shiftRight_eq_div_pow] at hs
    exact ⟨by omega, h⟩
  | case2 s hs ih =>
    rw [foldSum, if_neg hs]
    rw [fold_eq] at ih ⊢
    exact ih (h.fold (by decide))

theorem not_ofNat_eq_zero_iff {s : Nat} (h : s < 65536) : ~~~ BitVec.ofNat 16 s = 0 ↔ s = 65536 - 1 := by
  have e : (~~~ BitVec.ofNat 16 s).toNat = 65535 - s := by
    rw [BitVec.toNat_not, BitVec.toNat_ofNat, Nat.mod_eq_of_lt h]
  have e0 : (0 : BitVec 16).toNat = 0 := rfl
  refine ⟨fun h0 => ?_, fun hs => ?_⟩
  · rw [h0, e0] at e
    omega
  · apply BitVec.eq_of_toNat_eq
    rw [e, e0]
    omega

/-- What `in_chksum_ip` returns is the complement of the plain sum, folded. -/
theorem inChksumIp_val (mem : Nat → Byte) (i n : Nat) :
    ∃ s, s < 65536 ∧ Folded 65536 s (hostSum mem i n) ∧ (inChksumIp mem i (2 * n)).val = ~~~ BitVec.ofNat 16 s := by
  obtain ⟨s, hs, h⟩ := sumWords_even mem i n (Folded.refl 0)
  rw [Nat.zero_add] at h
  obtain ⟨hlt, hf⟩ := foldSum_spec h
  refine ⟨foldSum s, hlt, hf, ?_⟩
  simp only [inChksumIp, Logged.val_bind, hs]
  rfl

/-- `in_chksum_ip` finds no error just when the one's complement sum of the
words, in network order, is all ones. -/
theorem inChksumIp_eq_zero_iff (mem : Nat → Byte) (i n : Nat) :
    (inChksumIp mem i (2 * n)).val = 0 ↔ OnesComplement.sum 65536 (words mem i n) = 65535 := by
  obtain ⟨s, hlt, hf, hv⟩ := inChksumIp_val mem i n
  rw [hv, not_ofNat_eq_zero_iff hlt, hf.eq_ones_iff (by decide) hlt,
    OnesComplement.sum_eq_ones_iff (by decide) (words_lt mem i n), words_eq, ne_eq, ne_eq]
  refine and_congr (not_congr ?_) ?_
  · exact OnesComplement.sum_swap_eq_zero_iff (C := 256) (by decide) (halves mem i n)
  · exact OnesComplement.dvd_sum_swap_iff (C := 256) (by decide) (halves mem i n)

end IpNdn
