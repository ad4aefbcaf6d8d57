import Mathlib.Algebra.BigOperators.Group.Finset.Piecewise
import Mathlib.Algebra.Order.BigOperators.Group.Finset
import Mathlib.Data.Fintype.BigOperators
import Mathlib.Tactic.Abel

/-!
# Sums over a family

The parts of a system, `s : ι → α`, and what they add up to under a measure of
one part: how many are in some state, or the multiset of what they hold.
`census_update` is what a step of one part changes.
-/

namespace IpNdn

variable {ι α M : Type} [Fintype ι]

def census [AddCommMonoid M] (w : α → M) (s : ι → α) : M := ∑ i, w (s i)

theorem census_update [AddCommMonoid M] [DecidableEq ι] (w : α → M) (s : ι → α) (i : ι) (a : α) :
    census w (Function.update s i a) + w (s i) = census w s + w a := by
  have h (f : ι → M) : ∑ j, f j = f i + ∑ j ∈ Finset.univ \ {i}, f j :=
    Finset.sum_eq_add_sum_sdiff_singleton_of_mem (Finset.mem_univ i) f
  have e : ∑ j ∈ Finset.univ \ {i}, w (Function.update s i a j) = ∑ j ∈ Finset.univ \ {i}, w (s j) := by
    apply Finset.sum_congr rfl
    intro j hj
    rw [Function.update_of_ne (Finset.notMem_singleton.mp (Finset.mem_sdiff.mp hj).2)]
  rw [census, census, h, h fun j => w (s j), e, Function.update_self]
  abel

/-! ## Numbers -/

variable {s t : ι → α} {w : α → Nat}

/-- When each part grows by at most one. -/
theorem census_le (h : ∀ i, w (t i) ≤ w (s i) + 1) : census w t ≤ census w s + Fintype.card ι := by
  have := Finset.sum_le_sum fun i (_ : i ∈ Finset.univ) => h i
  rwa [Finset.sum_add_distrib, ← Fintype.card_eq_sum_ones] at this

end IpNdn
