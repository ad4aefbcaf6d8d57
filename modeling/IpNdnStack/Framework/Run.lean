import Mathlib.Algebra.GroupWithZero.Nat
import Mathlib.Data.List.Basic

/-!
# Runs

A run of a step relation: the steps taken, each with the state before it, and
the state reached. `Run.forall_states` carries an invariant along the runs
whose steps keep it, `Run.of_mem` what one step brings about;
`Run.forall_states_iff` says of a property that a step keeps just under a
condition that it holds along a run just when each step met the condition;
`Run.amortized` bounds what the steps of a run cost; and `Run.exists_done` takes
a run on, by steps that leave less to do.
-/

namespace IpNdn

variable {σ ε : Type}

inductive Run (step : σ → ε → σ → Prop) (s₀ : σ) : List (σ × ε) → σ → Prop
  | nil : Run step s₀ [] s₀
  | snoc {tr : List (σ × ε)} {s : σ} {e : ε} {s' : σ} :
    Run step s₀ tr s → step s e s' → Run step s₀ (tr ++ [(s, e)]) s'

/-- The states a run goes through. -/
def states (tr : List (σ × ε)) (s : σ) : List σ := tr.map (·.1) ++ [s]

theorem states_snoc (tr : List (σ × ε)) (s : σ) (e : ε) (s' : σ) :
    states (tr ++ [(s, e)]) s' = states tr s ++ [s'] := by
  rw [states, List.map_append]
  rfl

theorem mem_states_self (tr : List (σ × ε)) (s : σ) : s ∈ states tr s :=
  List.mem_append_right _ List.mem_cons_self

variable {step : σ → ε → σ → Prop} {s₀ s : σ} {tr : List (σ × ε)}

theorem Run.forall_states {Inv : σ → Prop} {C : σ → ε → Prop} (h0 : Inv s₀)
    (hs : ∀ s e s', Inv s → step s e s' → C s e → Inv s') (h : Run step s₀ tr s) (hc : ∀ p ∈ tr, C p.1 p.2) :
    ∀ t ∈ states tr s, Inv t := by
  induction h with
  | nil => exact List.forall_mem_singleton.mpr h0
  | @snoc tr s e s' _ he ih =>
    rw [List.forall_mem_append, List.forall_mem_singleton] at hc
    have ih := ih hc.1
    rw [states_snoc, List.forall_mem_append, List.forall_mem_singleton]
    exact ⟨ih, hs s e s' (ih s (mem_states_self tr s)) he hc.2⟩

theorem Run.invariant {Inv : σ → Prop} (h0 : Inv s₀) (hs : ∀ s e s', Inv s → step s e s' → Inv s')
    (h : Run step s₀ tr s) : Inv s := by
  induction h with
  | nil => exact h0
  | snoc _ he ih => exact hs _ _ _ ih he

/-- What one step of a run brings about and every step keeps holds at its end. -/
theorem Run.of_mem {Inv Q : σ → Prop} {B : σ → ε → Prop} (h0 : Inv s₀)
    (hs : ∀ s e s', Inv s → step s e s' → Inv s') (hb : ∀ s e s', Inv s → step s e s' → B s e → Q s')
    (hq : ∀ s e s', Q s → step s e s' → Q s') (h : Run step s₀ tr s) (hm : ∃ p ∈ tr, B p.1 p.2) : Q s := by
  induction h with
  | nil =>
    obtain ⟨_, hm, _⟩ := hm
    cases hm
  | @snoc tr s e s' hr he ih =>
    obtain ⟨p, hm, hp⟩ := hm
    rcases List.mem_append.mp hm with hm | hm
    · exact hq s e s' (ih ⟨p, hm, hp⟩) he
    · rw [List.mem_singleton.mp hm] at hp
      exact hb s e s' (hr.invariant h0 hs) he hp

theorem Run.forall_states_iff {P : σ → Prop} {C : σ → ε → Prop} (h0 : P s₀)
    (hs : ∀ s e s', P s → step s e s' → (P s' ↔ C s e)) (h : Run step s₀ tr s) :
    (∀ t ∈ states tr s, P t) ↔ ∀ p ∈ tr, C p.1 p.2 := by
  refine ⟨fun hp => ?_, h.forall_states h0 fun s e s' hi he hc => (hs s e s' hi he).mpr hc⟩
  induction h with
  | nil => exact fun _ hm => absurd hm List.not_mem_nil
  | @snoc tr s e s' _ he ih =>
    rw [states_snoc, List.forall_mem_append, List.forall_mem_singleton] at hp
    rw [List.forall_mem_append, List.forall_mem_singleton]
    exact ⟨ih hp.1, (hs s e s' (hp.1 s (mem_states_self tr s)) he).mp hp.2⟩

/-- What the steps of a run cost is paid out of the potential it starts with and
the credit that its steps bring. -/
theorem Run.amortized (Inv : σ → Prop) (potential : σ → Nat) (cost credit : ε → Nat) (h0 : Inv s₀)
    (hi : ∀ s e s', Inv s → step s e s' → Inv s')
    (hs : ∀ s e s', Inv s → step s e s' → potential s' + cost e ≤ potential s + credit e)
    (h : Run step s₀ tr s) :
    potential s + (tr.map fun p => cost p.2).sum ≤ potential s₀ + (tr.map fun p => credit p.2).sum := by
  induction h with
  | nil => exact Nat.le_refl _
  | snoc hr he ih =>
    have := hs _ _ _ (hr.invariant h0 hi) he
    simp only [List.map_append, List.sum_append, List.map_cons, List.map_nil, List.sum_singleton]
    omega

/-- A run goes on until it is done, if from every state that is not done there
is a step that leaves less to do. -/
theorem Run.exists_done (Inv Done : σ → Prop) (todo : σ → Nat)
    (hs : ∀ tr s, Run step s₀ tr s → Inv s → ¬ Done s → ∃ e s', step s e s' ∧ Inv s' ∧ todo s' < todo s)
    (h : Run step s₀ tr s) (hi : Inv s) : ∃ tr' s', Run step s₀ tr' s' ∧ tr <+: tr' ∧ Inv s' ∧ Done s' := by
  induction hn : todo s using Nat.strongRecOn generalizing tr s with
  | ind n ih =>
    by_cases hd : Done s
    · exact ⟨tr, s, h, List.prefix_refl _, hi, hd⟩
    · obtain ⟨e, s', he, hi', hlt⟩ := hs tr s h hi hd
      obtain ⟨tr', s'', h', hp, hi'', hd'⟩ := ih (todo s') (hn ▸ hlt) (h.snoc he) hi' rfl
      exact ⟨tr', s'', h', (List.prefix_append _ _).trans hp, hi'', hd'⟩

end IpNdn
