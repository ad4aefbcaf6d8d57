import Mathlib.Data.Nat.Bitwise
import IpNdnStack.Proof.Header

/-!
# The header checksum

`in_chksum_ip` is the Internet checksum (`inChksumIp_internet`): the complement
of the one's complement sum of the words. Its sum, a `long`, never gets past
bit 31 before it is folded (`sumWords_lt`).
-/

namespace IpNdn

open OnesComplement (Folded)

/-- The `n` words at `i`, as the host reads them. -/
def hostWords (mem : Nat → Byte) : (i n : Nat) → List Nat
  | _, 0 => []
  | i, n + 1 => (load16 mem i).val.toNat :: hostWords mem (i + 2) n

theorem sum_hostWords (mem : Nat → Byte) (i n : Nat) : (hostWords mem i n).sum = hostSum mem i n := by
  induction n generalizing i with
  | zero => rfl
  | succ n ih => rw [hostWords, List.sum_cons, ih, hostSum_succ]

theorem hostWords_lt (mem : Nat → Byte) (i n : Nat) : ∀ w ∈ hostWords mem i n, w < 65536 := by
  induction n generalizing i with
  | zero => exact fun _ h => absurd h List.not_mem_nil
  | succ n ih => exact List.forall_mem_cons.mpr ⟨(load16 mem i).val.isLt, ih (i + 2)⟩

/-- Bit 31 of a number below `2 ^ 32` is set just if it is no number below `2 ^ 31`. -/
theorem and_bit31_eq_zero_iff {s : Nat} (h : s < 2 ^ 32) : s &&& 0x80000000 = 0 ↔ s < 2 ^ 31 := by
  rw [Nat.and_comm, show (0x80000000 : Nat) = 2 ^ 31 from rfl, Nat.two_pow_and, Nat.testBit_eq_decide_div_mod_eq]
  by_cases hb : s / 2 ^ 31 % 2 = 1
  · simp only [hb, decide_true, Bool.toNat_true]
    omega
  · simp only [hb, decide_false, Bool.toNat_false]
    omega

/-- One turn of the loop: the sum with the next word is below `2 ^ 32`, and
below `2 ^ 31` once folded. -/
theorem turn_lt {sum w : Nat} (hs : sum < 2 ^ 31) (hw : w < 65536) :
    (if (sum + w) &&& 0x80000000 ≠ 0 then ((sum + w) &&& 0xFFFF) + ((sum + w) >>> 16) else sum + w) < 2 ^ 31 := by
  have hb := and_bit31_eq_zero_iff (s := sum + w) (by omega)
  split
  · rw [fold_eq, OnesComplement.fold]
    omega
  · rename_i h
    exact hb.mp (not_not.mp h)

/-- The sum after any number of turns. -/
theorem sumWords_lt (mem : Nat → Byte) (w n : Nat) {sum : Nat} (h : sum < 2 ^ 31) :
    (sumWords mem w (2 * n) sum).val.2.2 < 2 ^ 31 := by
  induction n generalizing w sum with
  | zero => exact h
  | succ n ih =>
    rw [show 2 * (n + 1) = 2 * n + 2 by omega, sumWords, Logged.val_bind]
    exact ih _ (turn_lt h (load16 mem w).val.isLt)

/-- For the words of any even length, wherever they are: the loop adds all of
them, and its sum stays below `2 ^ 31`; the result is the complement of their
one's complement sum. So it is 0 just when the plain sum is a multiple of 65535
other than 0, which is so just when the words in network order have a correct
sum. -/
theorem inChksumIp_internet (mem : Nat → Byte) (i n : Nat) :
    (∃ s, (sumWords mem i (2 * n) 0).val = (i + 2 * n, 0, s) ∧ s < 2 ^ 31) ∧
      (inChksumIp mem i (2 * n)).val = ~~~ BitVec.ofNat 16 (OnesComplement.sum 65536 (hostWords mem i n)) ∧
      ((inChksumIp mem i (2 * n)).val = 0 ↔ (hostWords mem i n).sum ≠ 0 ∧ 65535 ∣ (hostWords mem i n).sum) ∧
      ((inChksumIp mem i (2 * n)).val = 0 ↔ OnesComplement.sum 65536 (words mem i n) = 65535) := by
  obtain ⟨s, hlt, hf, hv⟩ := inChksumIp_val mem i n
  rw [← sum_hostWords] at hf
  refine ⟨?_, ?_, ?_, inChksumIp_eq_zero_iff mem i n⟩
  · obtain ⟨s, hs, -⟩ := sumWords_even mem i n (Folded.refl 0)
    have hlt := sumWords_lt mem i n (show 0 < 2 ^ 31 by decide)
    rw [hs] at hlt
    exact ⟨s, hs, hlt⟩
  · have hsum := OnesComplement.folded_sum (B := 65536) (by decide) (hostWords mem i n)
    rw [hv, hf.unique (by decide) hsum hlt (OnesComplement.sum_lt (by decide) (hostWords_lt mem i n))]
  · rw [hv, not_ofNat_eq_zero_iff hlt]
    exact hf.eq_ones_iff (by decide) hlt

end IpNdn
