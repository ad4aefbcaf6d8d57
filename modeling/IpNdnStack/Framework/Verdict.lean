import Mathlib.Data.List.Induction
import Mathlib.Data.List.Nodup

/-!
# Checks that overwrite one verdict

A list of checks is made in order, and each that fails sets the verdict,
whatever it was (`last`): so the verdict is that of the last check that fails
(`last_eq`). It is that of the first one (`first`) just when no two checks
fail, if their verdicts tell them apart (`last_eq_first_iff`).
-/

namespace IpNdn.Verdict

variable {κ σ : Type} (fails : κ → Bool) (verdict : κ → σ) (pass : σ)

/-- The verdict after all checks. -/
def last (checks : List κ) : σ := checks.foldl (fun s c => if fails c then verdict c else s) pass

/-- The verdict of the first check that fails. -/
def first (checks : List κ) : σ := ((checks.find? fails).map verdict).getD pass

theorem last_snoc (checks : List κ) (c : κ) :
    last fails verdict pass (checks ++ [c]) = if fails c then verdict c else last fails verdict pass checks :=
  List.foldl_append

theorem last_eq (checks : List κ) :
    last fails verdict pass checks = ((checks.filter fails).getLast?.map verdict).getD pass := by
  induction checks using List.reverseRecOn with
  | nil => rfl
  | append_singleton checks c ih =>
    rw [last_snoc, ih, List.filter_append]
    by_cases hc : fails c
    · simp [hc]
    · simp [hc]

theorem first_eq (checks : List κ) :
    first fails verdict pass checks = ((checks.filter fails).head?.map verdict).getD pass := by
  rw [first, List.head?_filter]

/-- The ends of a list without duplicates are equal just if it has no two. -/
theorem head?_eq_getLast?_iff {l : List κ} (hn : l.Nodup) : l.head? = l.getLast? ↔ l.length ≤ 1 := by
  rcases l with _ | ⟨a, _ | ⟨b, l⟩⟩
  · exact iff_of_true rfl (Nat.zero_le 1)
  · exact iff_of_true rfl (Nat.le_refl 1)
  · refine iff_of_false (fun h => ?_) (by simp)
    rw [List.head?_cons, List.getLast?_cons_cons] at h
    exact (List.nodup_cons.mp hn).1 (List.mem_of_getLast? h.symm)

variable {fails verdict}

/-- Where the verdicts of the checks differ from each other. -/
theorem last_eq_first_iff {checks : List κ} (hn : checks.Nodup)
    (hi : ∀ a ∈ checks, ∀ b ∈ checks, verdict a = verdict b → a = b) :
    last fails verdict pass checks = first fails verdict pass checks ↔ (checks.filter fails).length ≤ 1 := by
  have hm : ∀ a ∈ checks.filter fails, a ∈ checks := fun a h => (List.mem_filter.mp h).1
  rw [← head?_eq_getLast?_iff (hn.filter _), last_eq, first_eq]
  generalize checks.filter fails = l at hm
  rcases l with _ | ⟨a, l⟩
  · simp
  · obtain ⟨b, hb⟩ : ∃ b, (a :: l).getLast? = some b := ⟨_, List.getLast?_eq_some_getLast (List.cons_ne_nil a l)⟩
    have hbm : b ∈ checks := hm b (List.mem_of_getLast? hb)
    rw [hb, List.head?_cons]
    simp only [Option.map_some, Option.getD_some, Option.some.injEq]
    exact ⟨fun h => hi a (hm a List.mem_cons_self) b hbm h.symm, fun h => by rw [h]⟩

end IpNdn.Verdict
