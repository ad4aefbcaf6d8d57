import Mathlib.Data.Int.ModEq

/-!
# One's complement sums

Sums of digits of base `B` with the carries added back (`add`, `sum`). However
often a sum is folded on the way, it stays what it is modulo `B - 1`, and is
zero only if it was (`Folded`); so a digit got from a plain sum in this way is
all ones just when the sum is a multiple of `B - 1` other than zero
(`Folded.eq_ones_iff`), and is the one's complement sum (`Folded.unique`). Of
digits with two halves, this does not depend on the order of the halves
(`dvd_sum_swap_iff`).
-/

namespace IpNdn.OnesComplement

/-- The carry added back, once. -/
def fold (B s : Nat) : Nat := s % B + s / B

def add (B a b : Nat) : Nat := fold B (a + b)

def sum (B : Nat) (ws : List Nat) : Nat := ws.foldl (add B) 0

variable {B : Nat}

theorem fold_modEq (hB : 1 < B) (s : Nat) : fold B s ≡ s [MOD B - 1] := by
  have h : B ≡ 1 [MOD B - 1] := (Nat.modEq_iff_dvd' hB.le).mpr (dvd_refl (B - 1)) |>.symm
  calc fold B s = s % B + 1 * (s / B) := by rw [fold, Nat.one_mul]
    _ ≡ s % B + B * (s / B) [MOD B - 1] := (Nat.ModEq.refl _).add (h.symm.mul_right _)
    _ = s := Nat.mod_add_div s B

theorem fold_eq_zero_iff (s : Nat) : fold B s = 0 ↔ s = 0 := by
  refine ⟨fun h => ?_, fun h => ?_⟩
  · obtain ⟨hm, hd⟩ := Nat.add_eq_zero_iff.mp h
    rw [← Nat.mod_add_div s B, hm, hd, Nat.mul_zero]
  · obtain rfl := h
    rw [fold, Nat.zero_mod, Nat.zero_div]

theorem fold_of_lt {s : Nat} (h : s < B) : fold B s = s := by
  rw [fold, Nat.mod_eq_of_lt h, Nat.div_eq_of_lt h, Nat.add_zero]

/-- The sum of two digits is a digit. -/
theorem add_lt {a b : Nat} (ha : a < B) (hb : b < B) : add B a b < B := by
  by_cases h : a + b < B
  · rw [add, fold_of_lt h]
    exact h
  · have hd : (a + b) / B = 1 := Nat.div_eq_of_lt_le (by omega) (by omega)
    have hm : (a + b) % B = a + b - B := by
      have := Nat.mod_add_div (a + b) B
      rw [hd] at this
      omega
    rw [add, fold, hd, hm]
    omega

theorem foldl_add_lt {ws : List Nat} (hws : ∀ w ∈ ws, w < B) {s : Nat} (hs : s < B) : ws.foldl (add B) s < B := by
  induction ws generalizing s with
  | nil => exact hs
  | cons w ws ih =>
    obtain ⟨hw, hws⟩ := List.forall_mem_cons.mp hws
    exact ih hws (add_lt hs hw)

/-! ## Folded sums -/

/-- `s` is `t`, with carries added back. -/
def Folded (B s t : Nat) : Prop := s ≡ t [MOD B - 1] ∧ (s = 0 ↔ t = 0)

theorem Folded.refl (s : Nat) : Folded B s s := ⟨Nat.ModEq.refl s, Iff.rfl⟩

theorem Folded.fold (hB : 1 < B) {s t : Nat} (h : Folded B s t) : Folded B (fold B s) t :=
  ⟨(fold_modEq hB s).trans h.1, (fold_eq_zero_iff s).trans h.2⟩

theorem Folded.add {s t : Nat} (h : Folded B s t) (x : Nat) : Folded B (s + x) (t + x) := by
  refine ⟨h.1.add_right x, ?_⟩
  have := h.2
  omega

theorem Folded.foldl_add (hB : 1 < B) (ws : List Nat) {s t : Nat} (h : Folded B s t) :
    Folded B (ws.foldl (OnesComplement.add B) s) (t + ws.sum) := by
  induction ws generalizing s t with
  | nil => exact h
  | cons w ws ih =>
    rw [List.foldl_cons, List.sum_cons, ← Nat.add_assoc]
    exact ih ((h.add w).fold hB)

/-- A digit is all ones just when the plain sum is a multiple of all ones other
than zero. -/
theorem Folded.eq_ones_iff (hB : 1 < B) {s t : Nat} (h : Folded B s t) (hs : s < B) :
    s = B - 1 ↔ t ≠ 0 ∧ B - 1 ∣ t := by
  rw [← h.1.dvd_iff (dvd_refl (B - 1)), ne_eq, ← h.2]
  refine ⟨fun h => ?_, fun h => ?_⟩
  · obtain rfl := h
    exact ⟨by omega, dvd_refl _⟩
  · obtain ⟨hne, hd⟩ := h
    have := Nat.le_of_dvd (Nat.pos_of_ne_zero hne) hd
    omega

/-- A digit is determined by a plain sum that it is, with carries added back. -/
theorem Folded.unique (hB : 1 < B) {s s' t : Nat} (h : Folded B s t) (h' : Folded B s' t) (hs : s < B)
    (hs' : s' < B) : s = s' := by
  by_cases ho : s = B - 1
  · rw [ho, (h'.eq_ones_iff hB hs').mpr ((h.eq_ones_iff hB hs).mp ho)]
  · have ho' : s' ≠ B - 1 := fun e => ho ((h.eq_ones_iff hB hs).mpr ((h'.eq_ones_iff hB hs').mp e))
    exact (h.1.trans h'.1.symm).eq_of_lt_of_lt (by omega) (by omega)

theorem folded_sum (hB : 1 < B) (ws : List Nat) : Folded B (sum B ws) ws.sum := by
  have h := (Folded.refl 0).foldl_add hB ws
  rwa [Nat.zero_add] at h

theorem sum_lt (hB : 1 < B) {ws : List Nat} (hws : ∀ w ∈ ws, w < B) : sum B ws < B := foldl_add_lt hws (by omega)

theorem sum_eq_ones_iff (hB : 1 < B) {ws : List Nat} (hws : ∀ w ∈ ws, w < B) :
    sum B ws = B - 1 ↔ ws.sum ≠ 0 ∧ B - 1 ∣ ws.sum := (folded_sum hB ws).eq_ones_iff hB (sum_lt hB hws)

/-! ## Halves -/

/-- A digit of base `C * C` from its halves, the high one first. -/
def joinHalves (C : Nat) (p : Nat × Nat) : Nat := C * p.1 + p.2

theorem one_modEq_mul_self {C : Nat} (hC : 1 < C) : 1 ≡ C * C [MOD C * C - 1] :=
  (Nat.modEq_iff_dvd' (Nat.le_of_lt (Nat.lt_of_lt_of_le hC (Nat.le_mul_of_pos_left C (by omega))))).mpr (dvd_refl _)

/-- Multiplying by `C` swaps the halves of every digit. -/
theorem sum_swap_modEq {C : Nat} (hC : 1 < C) (ps : List (Nat × Nat)) :
    (ps.map fun p => joinHalves C p.swap).sum ≡ C * (ps.map (joinHalves C)).sum [MOD C * C - 1] := by
  induction ps with
  | nil => exact Nat.ModEq.refl _
  | cons p ps ih =>
    rw [List.map_cons, List.map_cons, List.sum_cons, List.sum_cons, Nat.mul_add]
    refine Nat.ModEq.add ?_ ih
    have := (Nat.ModEq.refl (n := C * C - 1) (C * p.2)).add ((one_modEq_mul_self hC).mul_right p.1)
    rw [Nat.one_mul, Nat.mul_assoc, Nat.add_comm (C * p.2) (C * (C * p.1)), ← Nat.mul_add] at this
    exact this

theorem sum_swap_eq_zero_iff {C : Nat} (hC : 1 < C) (ps : List (Nat × Nat)) :
    (ps.map fun p => joinHalves C p.swap).sum = 0 ↔ (ps.map (joinHalves C)).sum = 0 := by
  induction ps with
  | nil => exact Iff.rfl
  | cons p ps ih =>
    have h0 : C ≠ 0 := by omega
    simp only [List.map_cons, List.sum_cons, joinHalves, Prod.fst_swap, Prod.snd_swap, Nat.add_eq_zero_iff,
      Nat.mul_eq_zero, h0, false_or] at ih ⊢
    rw [ih, and_comm (a := p.2 = 0)]

/-- A sum of swapped digits is a multiple of all ones just when the sum of the
digits is. -/
theorem dvd_sum_swap_iff {C : Nat} (hC : 1 < C) (ps : List (Nat × Nat)) :
    C * C - 1 ∣ (ps.map fun p => joinHalves C p.swap).sum ↔ C * C - 1 ∣ (ps.map (joinHalves C)).sum := by
  rw [(sum_swap_modEq hC ps).dvd_iff (dvd_refl _)]
  refine ⟨fun h => ?_, fun h => Dvd.dvd.mul_left h C⟩
  have hm := (one_modEq_mul_self hC).mul_right (ps.map (joinHalves C)).sum
  rw [Nat.one_mul, Nat.mul_assoc] at hm
  exact (hm.dvd_iff (dvd_refl _)).mpr (Dvd.dvd.mul_left h C)

end IpNdn.OnesComplement
