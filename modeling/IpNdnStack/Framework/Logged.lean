import Mathlib.Data.List.Basic

/-!
# Values with a log

A computation that only reads: a value and the list of what it read on the
way, oldest first. `val_bind` and `log_bind` take a computation apart: its
value is computed as if nothing were logged, its log is its parts' logs in
order, and so is what holds of all it logs (`all_bind`).
-/

namespace IpNdn

structure Logged (ω α : Type) where
  val : α
  log : List ω

namespace Logged

variable {ω α β : Type}

instance : Monad (Logged ω) where
  pure a := ⟨a, []⟩
  bind x f := ⟨(f x.val).val, x.log ++ (f x.val).log⟩

@[simp] theorem val_pure (a : α) : (pure a : Logged ω α).val = a := rfl

@[simp] theorem log_pure (a : α) : (pure a : Logged ω α).log = [] := rfl

@[simp] theorem val_bind (x : Logged ω α) (f : α → Logged ω β) : (x >>= f).val = (f x.val).val := rfl

@[simp] theorem log_bind (x : Logged ω α) (f : α → Logged ω β) :
    (x >>= f).log = x.log ++ (f x.val).log := rfl

@[simp] theorem val_ite {c : Prop} [Decidable c] (x y : Logged ω α) :
    (if c then x else y).val = if c then x.val else y.val := by
  split <;> rfl

@[simp] theorem log_ite {c : Prop} [Decidable c] (x y : Logged ω α) :
    (if c then x else y).log = if c then x.log else y.log := by
  split <;> rfl

/-! ## What is logged -/

/-- All that is logged has the property `P`. -/
def All (P : ω → Prop) (x : Logged ω α) : Prop := ∀ o ∈ x.log, P o

variable {P : ω → Prop}

@[simp] theorem all_pure (a : α) : All P (pure a : Logged ω α) := by
  simp only [All, log_pure, List.not_mem_nil, false_implies, implies_true]

@[simp] theorem all_bind (x : Logged ω α) (f : α → Logged ω β) :
    All P (x >>= f) ↔ All P x ∧ All P (f x.val) := by
  simp only [All, log_bind, List.forall_mem_append]

@[simp] theorem all_ite {c : Prop} [Decidable c] (x y : Logged ω α) :
    All P (if c then x else y) ↔ (c → All P x) ∧ (¬ c → All P y) := by
  simp only [All, log_ite]
  split <;> simp [*]

end Logged

end IpNdn
