import Mathlib.Data.List.Nodup
import Mathlib.Logic.Function.Basic

/-!
# Numbering by key

The elements of a list numbered among those with the same key: `numbered` does
it with one counter a key, `numbered_eq` says which number that is. A key gets
each number once (`numbered_nodup`) and no number past the elements it has
(`le_of_mem_numbered`); the counters end at how many these are
(`foldl_count_eq`).
-/

namespace IpNdn.Numbering

variable {α κ : Type} [DecidableEq κ] (key : α → κ)

/-- How many elements have the key `k`. -/
def count (k : κ) (l : List α) : Nat := l.countP fun a => key a = k

/-- The counters after one more element. -/
def tick (c : κ → Nat) (a : α) : κ → Nat := Function.update c (key a) (c (key a) + 1)

/-- Each element with its number, from the counters `c` on. -/
def numbered (c : κ → Nat) : List α → List (α × Nat)
  | [] => []
  | a :: l => (a, c (key a) + 1) :: numbered (tick key c a) l

theorem count_cons (k : κ) (a : α) (l : List α) :
    count key k (a :: l) = count key k l + if key a = k then 1 else 0 := by
  simp only [count, List.countP_cons, decide_eq_true_eq]

theorem tick_apply (c : κ → Nat) (a : α) (k : κ) : tick key c a k = c k + if key a = k then 1 else 0 := by
  unfold tick
  by_cases h : key a = k
  · subst h; simp
  · simp [Function.update_of_ne (Ne.symm h), h]

theorem foldl_count_eq (c : κ → Nat) (l : List α) (k : κ) : l.foldl (tick key) c k = c k + count key k l := by
  induction l generalizing c with
  | nil => rfl
  | cons a l ih =>
    rw [List.foldl_cons, ih, tick_apply, count_cons]
    omega

theorem numbered_append (c : κ → Nat) (l l' : List α) :
    numbered key c (l ++ l') = numbered key c l ++ numbered key (l.foldl (tick key) c) l' := by
  induction l generalizing c with
  | nil => rfl
  | cons a l ih =>
    rw [List.cons_append, numbered, ih]
    rfl

theorem numbered_eq (c : κ → Nat) (l : List α) :
    numbered key c l = l.zipIdx.map fun p => (p.1, c (key p.1) + count key (key p.1) (l.take (p.2 + 1))) := by
  induction l generalizing c with
  | nil => rfl
  | cons a l ih =>
    rw [numbered, ih, List.zipIdx_cons, List.zipIdx_succ, List.map_cons, List.map_map]
    simp only [Nat.zero_add, List.take_succ_cons, List.take_zero, count_cons, if_pos]
    refine congrArg₂ _ (by simp [count]) (List.map_congr_left fun p _ => ?_)
    simp only [Function.comp, tick_apply]
    exact congrArg _ (by omega)

theorem lt_of_mem_numbered {c : κ → Nat} {l : List α} {p : α × Nat} (h : p ∈ numbered key c l) :
    c (key p.1) < p.2 := by
  induction l generalizing c with
  | nil => cases h
  | cons a l ih =>
    rcases List.mem_cons.mp h with rfl | h
    · exact Nat.lt_succ_self _
    · have := ih h
      rw [tick_apply] at this
      omega

theorem le_of_mem_numbered {c : κ → Nat} {l : List α} {p : α × Nat} (h : p ∈ numbered key c l) :
    p.2 ≤ c (key p.1) + count key (key p.1) l := by
  induction l generalizing c with
  | nil => cases h
  | cons a l ih =>
    rw [count_cons]
    rcases List.mem_cons.mp h with rfl | h
    · show c (key a) + 1 ≤ c (key a) + (count key (key a) l + if key a = key a then 1 else 0)
      rw [if_pos rfl]
      omega
    · have := ih h
      rw [tick_apply] at this
      omega

/-- The element that follows `n` of its key. -/
theorem exists_of_lt_count {k : κ} {l : List α} {n : Nat} (h : n < count key k l) :
    ∃ l₁ a l₂, l = l₁ ++ a :: l₂ ∧ key a = k ∧ count key k l₁ = n := by
  induction l generalizing n with
  | nil => exact absurd h (Nat.not_lt_zero n)
  | cons a l ih =>
    rw [count_cons] at h
    by_cases hk : key a = k
    · rw [if_pos hk] at h
      rcases n with _ | n
      · exact ⟨[], a, l, rfl, hk, rfl⟩
      · obtain ⟨l₁, b, l₂, rfl, hb, hn⟩ := ih (n := n) (by omega)
        refine ⟨a :: l₁, b, l₂, rfl, hb, ?_⟩
        rw [count_cons, if_pos hk, hn]
    · rw [if_neg hk] at h
      obtain ⟨l₁, b, l₂, rfl, hb, hn⟩ := ih h
      refine ⟨a :: l₁, b, l₂, rfl, hb, ?_⟩
      rw [count_cons, if_neg hk, hn, Nat.add_zero]

theorem count_append (k : κ) (l₁ l₂ : List α) : count key k (l₁ ++ l₂) = count key k l₁ + count key k l₂ :=
  List.countP_append

/-- No key gets a number twice. -/
theorem numbered_nodup (c : κ → Nat) (l : List α) :
    ((numbered key c l).map fun p => (key p.1, p.2)).Nodup := by
  induction l generalizing c with
  | nil => exact List.nodup_nil
  | cons a l ih =>
    rw [numbered, List.map_cons, List.nodup_cons]
    refine ⟨fun h => ?_, ih _⟩
    obtain ⟨p, hp, e⟩ := List.mem_map.mp h
    obtain ⟨hk, hn⟩ : key p.1 = key a ∧ p.2 = c (key a) + 1 := Prod.mk.inj e
    have := lt_of_mem_numbered key hp
    rw [tick_apply, if_pos hk.symm, hk] at this
    omega

end IpNdn.Numbering
