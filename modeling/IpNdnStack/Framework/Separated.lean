import Mathlib.Data.List.Basic

/-!
# Lists cut at a separator

Pieces that do not contain the separator come back when each is written after
a separator (`splitOn_flatMap_cons`), so this way of writing them is injective
(`flatMap_cons_inj`), and so is writing two of them around one
(`append_cons_inj`). Decimal numerals are pieces for every separator that is
not a digit (`toDigits_inj`, `notMem_toDigits`), and have no leading zeros
(`toDigits_eq_cons`).
-/

namespace IpNdn.Separated

variable {α : Type} [DecidableEq α]

/-- No piece of a list cut at `x` has `x`. -/
theorem notMem_of_mem_splitOn (x : α) (l : List α) : ∀ p ∈ l.splitOn x, x ∉ p := by
  induction l with
  | nil => simp
  | cons y l ih =>
    rw [List.splitOn_cons_eq_if_modifyHead]
    split
    · simpa using ih
    · rename_i hy
      obtain ⟨p, ps, e⟩ := List.exists_cons_of_ne_nil (List.splitOn_ne_nil x l)
      rw [e] at ih ⊢
      simp only [beq_iff_eq] at hy
      simp only [List.mem_cons, forall_eq_or_imp] at ih
      simp only [List.modifyHead_cons, List.mem_cons, forall_eq_or_imp, not_or]
      exact ⟨⟨fun h => hy h.symm, ih.1⟩, ih.2⟩

/-- What is in a piece is in the list. -/
theorem mem_of_mem_splitOn {x y : α} {l p : List α} (hp : p ∈ l.splitOn x) (hy : y ∈ p) : y ∈ l := by
  induction l generalizing p with
  | nil =>
    rw [List.splitOn_nil, List.mem_singleton] at hp
    exact hp ▸ hy
  | cons z l ih =>
    rw [List.splitOn_cons_eq_if_modifyHead] at hp
    obtain ⟨q, qs, e⟩ := List.exists_cons_of_ne_nil (List.splitOn_ne_nil x l)
    rw [e] at hp ih
    split at hp
    · rcases List.mem_cons.mp hp with rfl | hp
      · cases hy
      · exact List.mem_cons_of_mem _ (ih hp hy)
    · rw [List.modifyHead_cons] at hp
      rcases List.mem_cons.mp hp with rfl | hp
      · rcases List.mem_cons.mp hy with rfl | hy
        · exact List.mem_cons_self
        · exact List.mem_cons_of_mem _ (ih List.mem_cons_self hy)
      · exact List.mem_cons_of_mem _ (ih (List.mem_cons_of_mem _ hp) hy)

/-- Pieces each written after an `x`: cut at `x`, they come back after an empty one. -/
theorem splitOn_flatMap_cons {x : α} {ps : List (List α)} (h : ∀ p ∈ ps, x ∉ p) :
    (ps.flatMap (x :: ·)).splitOn x = [] :: ps := by
  induction ps with
  | nil => rfl
  | cons p ps ih =>
    simp only [List.mem_cons, forall_eq_or_imp] at h
    rw [List.flatMap_cons, List.cons_append, List.splitOn_cons_eq_if_modifyHead, if_pos (by simp)]
    have ih := ih h.2
    cases ps with
    | nil => simp [List.splitOn_eq_singleton h.1]
    | cons q ps =>
      rw [List.flatMap_cons, List.cons_append, List.splitOn_cons_eq_if_modifyHead, if_pos (by simp),
        List.cons.injEq] at ih
      rw [List.flatMap_cons, List.cons_append, List.splitOn_append_cons_self_of_not_mem h.1, ih.2]

theorem flatMap_cons_inj {x : α} {ps qs : List (List α)} (hp : ∀ p ∈ ps, x ∉ p) (hq : ∀ q ∈ qs, x ∉ q)
    (h : ps.flatMap (x :: ·) = qs.flatMap (x :: ·)) : ps = qs := by
  have := congrArg (List.splitOn x) h
  rw [splitOn_flatMap_cons hp, splitOn_flatMap_cons hq, List.cons.injEq] at this
  exact this.2

/-- What stands before the first `x` and what stands after it. -/
theorem append_cons_inj {x : α} {p q r s : List α} (hp : x ∉ p) (hq : x ∉ q)
    (h : p ++ x :: r = q ++ x :: s) : p = q ∧ r = s := by
  have hs := congrArg (List.splitOn x) h
  rw [List.splitOn_append_cons_self_of_not_mem hp, List.splitOn_append_cons_self_of_not_mem hq,
    List.cons.injEq] at hs
  obtain ⟨rfl, -⟩ := hs
  exact ⟨rfl, (List.cons.inj (List.append_cancel_left h)).2⟩

/-! ## Decimal numerals -/

theorem toDigits_inj {m n : Nat} (h : Nat.toDigits 10 m = Nat.toDigits 10 n) : m = n := by
  rw [← Nat.ofDigitChars_ten_toDigits (n := m), h, Nat.ofDigitChars_ten_toDigits]

theorem isDigit_of_mem_toDigits {n : Nat} {x : Char} (h : x ∈ Nat.toDigits 10 n) : x.isDigit :=
  Nat.isDigit_of_mem_toDigits (by decide) (by decide) h

theorem notMem_toDigits {x : Char} (hx : x.isDigit = false) (n : Nat) : x ∉ Nat.toDigits 10 n := fun h => by
  rw [isDigit_of_mem_toDigits h] at hx
  cases hx

/-- A numeral begins with a digit. -/
theorem toDigits_eq_digit_cons (n : Nat) : ∃ c cs, Nat.toDigits 10 n = c :: cs ∧ c.isDigit := by
  obtain ⟨c, cs, e⟩ := List.exists_cons_of_ne_nil (Nat.toDigits_ne_nil (n := n) (b := 10))
  exact ⟨c, cs, e, isDigit_of_mem_toDigits (n := n) (by rw [e]; exact List.mem_cons_self)⟩

/-- A numeral begins with no zero, but for that of zero. -/
theorem toDigits_eq_cons {n : Nat} (hn : n ≠ 0) : ∃ c cs, Nat.toDigits 10 n = c :: cs ∧ c ≠ '0' := by
  induction n using Nat.strongRecOn with
  | ind n ih =>
    by_cases hb : n < 10
    · refine ⟨n.digitChar, [], Nat.toDigits_of_lt_base hb, ?_⟩
      rcases (by omega : n = 1 ∨ n = 2 ∨ n = 3 ∨ n = 4 ∨ n = 5 ∨ n = 6 ∨ n = 7 ∨ n = 8 ∨ n = 9) with
        rfl | rfl | rfl | rfl | rfl | rfl | rfl | rfl | rfl <;> decide
    · obtain ⟨c, cs, e, hc⟩ := ih (n / 10) (by omega) (by omega)
      refine ⟨c, cs ++ [(n % 10).digitChar], ?_, hc⟩
      rw [Nat.toDigits_of_base_le (by decide) (by omega), e, List.cons_append]

end IpNdn.Separated
