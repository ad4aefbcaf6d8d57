import Mathlib.Data.Finset.Basic
import Mathlib.Data.Finset.Lattice.Lemmas

/-!
# Asking ahead

A client asks for what it is told of and guesses what it will be told of next.
`entries` is the table of guesses that keeps it from guessing twice, and
`expressed` is everything it has asked for. A request erases its own entry and
is made whatever the table says. Every entry has been asked for (`Covered`), so
all a request names gets asked for (`Covered.mem_run`); the table has the guesses
that no later request took out (`mem_entries_run_iff`); and a run asks for nothing
twice just when no request is a guess of another (`nodup_run_iff`), and for
nothing more often than twice for each request of its own, and once more
(`countP_run_le`). Requests that have nothing to do with each other do not
disturb each other (`restrict_run`).
-/

namespace IpNdn

structure Window (α : Type) where
  entries : Finset α
  expressed : List α

namespace Window

variable {α : Type} [DecidableEq α]

def empty : Window α := ⟨∅, []⟩

/-- Asks for `a` unless it is in the table. -/
def guess (w : Window α) (a : α) : Window α :=
  if a ∈ w.entries then w else ⟨insert a w.entries, w.expressed ++ [a]⟩

/-- Asks for `a`, and takes it out of the table. -/
def formal (w : Window α) (a : α) : Window α := ⟨w.entries.erase a, w.expressed ++ [a]⟩

/-- Asks for `r.1`, then guesses `r.2`. -/
def request (w : Window α) (r : α × List α) : Window α := r.2.foldl guess (w.formal r.1)

def run (w : Window α) (rs : List (α × List α)) : Window α := rs.foldl request w

theorem run_cons (w : Window α) (r : α × List α) (rs : List (α × List α)) :
    w.run (r :: rs) = (w.request r).run rs := rfl

theorem run_append (w : Window α) (rs qs : List (α × List α)) : w.run (rs ++ qs) = (w.run rs).run qs :=
  List.foldl_append

/-! ## What is asked for stays asked for -/

theorem expressed_guess (w : Window α) (a : α) : w.expressed <+: (w.guess a).expressed := by
  unfold guess
  split
  · exact List.prefix_refl _
  · exact List.prefix_append _ _

theorem expressed_guesses (w : Window α) (gs : List α) : w.expressed <+: (gs.foldl guess w).expressed := by
  induction gs generalizing w with
  | nil => exact List.prefix_refl _
  | cons a gs ih => exact (expressed_guess w a).trans (ih _)

theorem expressed_request (w : Window α) (r : α × List α) :
    w.expressed ++ [r.1] <+: (w.request r).expressed := expressed_guesses (w.formal r.1) r.2

/-- Nothing is asked for but what a request names. -/
theorem mem_of_mem_expressed_guesses {w : Window α} {gs : List α} {a : α} (h : a ∈ (gs.foldl guess w).expressed) :
    a ∈ w.expressed ∨ a ∈ gs := by
  induction gs generalizing w with
  | nil => exact .inl h
  | cons b gs ih =>
    rcases ih h with h | h
    · unfold guess at h
      split at h
      · exact .inl h
      · rcases List.mem_append.mp h with h | h
        · exact .inl h
        · exact .inr (List.mem_cons.mpr (.inl (List.mem_singleton.mp h)))
    · exact .inr (List.mem_cons_of_mem _ h)

theorem mem_of_mem_expressed_request {w : Window α} {r : α × List α} {a : α} (h : a ∈ (w.request r).expressed) :
    a ∈ w.expressed ∨ a = r.1 ∨ a ∈ r.2 := by
  rcases mem_of_mem_expressed_guesses h with h | h
  · exact (List.mem_append.mp h).imp id fun h => .inl (List.mem_singleton.mp h)
  · exact .inr (.inr h)

theorem length_expressed_guesses (w : Window α) (gs : List α) :
    (gs.foldl guess w).expressed.length ≤ w.expressed.length + gs.length := by
  induction gs generalizing w with
  | nil => exact Nat.le_refl _
  | cons a gs ih =>
    have h : (w.guess a).expressed.length ≤ w.expressed.length + 1 := by
      unfold guess
      split
      · exact Nat.le_succ _
      · rw [List.length_append, List.length_singleton]
    have := ih (w.guess a)
    simp only [List.foldl_cons, List.length_cons]
    omega

theorem length_expressed_request (w : Window α) (r : α × List α) :
    (w.request r).expressed.length ≤ w.expressed.length + 1 + r.2.length := by
  have := length_expressed_guesses (w.formal r.1) r.2
  rwa [formal, List.length_append, List.length_singleton] at this

theorem expressed_run (w : Window α) (rs : List (α × List α)) : w.expressed <+: (w.run rs).expressed := by
  induction rs generalizing w with
  | nil => exact List.prefix_refl _
  | cons r rs ih => exact ((List.prefix_append _ _).trans (expressed_request w r)).trans (ih _)

theorem mem_of_mem_expressed_run {w : Window α} {rs : List (α × List α)} {a : α} (h : a ∈ (w.run rs).expressed) :
    a ∈ w.expressed ∨ ∃ r ∈ rs, a = r.1 ∨ a ∈ r.2 := by
  induction rs generalizing w with
  | nil => exact .inl h
  | cons r rs ih =>
    rcases ih h with h | ⟨q, hq, hm⟩
    · exact (mem_of_mem_expressed_request h).imp_right fun hm => ⟨r, List.mem_cons_self, hm⟩
    · exact .inr ⟨q, List.mem_cons_of_mem _ hq, hm⟩

/-! ## Every guess is asked for -/

/-- Everything in the table is accounted for (`P`) or has been asked for. -/
def Covered (P : α → Prop) (w : Window α) : Prop := ∀ a ∈ w.entries, P a ∨ a ∈ w.expressed

omit [DecidableEq α] in
theorem covered_empty (P : α → Prop) : (empty : Window α).Covered P := fun _ h => absurd h (Finset.notMem_empty _)

variable {P : α → Prop} {w : Window α}

theorem Covered.guess (h : w.Covered P) (a : α) : (w.guess a).Covered P := by
  unfold Window.guess
  split
  · exact h
  · intro b hb
    rcases Finset.mem_insert.mp hb with rfl | hb
    · exact .inr (List.mem_append_right _ List.mem_cons_self)
    · exact (h b hb).imp id (List.mem_append_left _)

theorem Covered.formal (h : w.Covered P) (a : α) : (w.formal a).Covered P := fun b hb =>
  (h b (Finset.mem_of_mem_erase hb)).imp id (List.mem_append_left _)

theorem Covered.guesses (h : w.Covered P) (gs : List α) : (gs.foldl Window.guess w).Covered P := by
  induction gs generalizing w with
  | nil => exact h
  | cons a gs ih => exact ih (h.guess a)

theorem Covered.request (h : w.Covered P) (r : α × List α) : (w.request r).Covered P :=
  (h.formal r.1).guesses r.2

theorem Covered.run (h : w.Covered P) (rs : List (α × List α)) : (w.run rs).Covered P := by
  induction rs generalizing w with
  | nil => exact h
  | cons r rs ih => exact ih (h.request r)

/-- A guess is asked for now, or was accounted for before. -/
theorem Covered.mem_guess (h : w.Covered P) (a : α) : P a ∨ a ∈ (w.guess a).expressed := by
  unfold Window.guess
  split
  · exact h a ‹_›
  · exact .inr (List.mem_append_right _ List.mem_cons_self)

theorem Covered.mem_guesses (h : w.Covered P) {gs : List α} {a : α} (ha : a ∈ gs) :
    P a ∨ a ∈ (gs.foldl Window.guess w).expressed := by
  induction gs generalizing w with
  | nil => cases ha
  | cons b gs ih =>
    rcases List.mem_cons.mp ha with rfl | ha
    · exact (h.mem_guess a).imp id ((expressed_guesses _ gs).subset ·)
    · exact ih (h.guess b) ha

theorem entries_guess (w : Window α) (a : α) : (w.guess a).entries = insert a w.entries := by
  unfold Window.guess
  split
  · rw [Finset.insert_eq_of_mem ‹_›]
  · rfl

/-- Guesses are in the table, and take nothing out of it. -/
theorem entries_guesses (w : Window α) (gs : List α) :
    (gs.foldl Window.guess w).entries = w.entries ∪ gs.toFinset := by
  induction gs generalizing w with
  | nil => simp only [List.foldl_nil, List.toFinset_nil, Finset.union_empty]
  | cons a gs ih =>
    rw [List.foldl_cons, ih, entries_guess, List.toFinset_cons, Finset.insert_union, Finset.union_insert]

/-- Of distinct guesses, those that are not in the table are asked for, in order. -/
theorem expressed_guesses_eq (w : Window α) {gs : List α} (hd : gs.Nodup) :
    (gs.foldl Window.guess w).expressed = w.expressed ++ gs.filter (· ∉ w.entries) := by
  induction gs generalizing w with
  | nil => rw [List.foldl_nil, List.filter_nil, List.append_nil]
  | cons a gs ih =>
    obtain ⟨ha, hd⟩ := List.nodup_cons.mp hd
    have hf : gs.filter (· ∉ (w.guess a).entries) = gs.filter (· ∉ w.entries) := by
      refine List.filter_congr fun b hb => ?_
      have hne : b ≠ a := fun e => ha (e ▸ hb)
      simp only [entries_guess, Finset.mem_insert, hne, false_or]
    rw [List.foldl_cons, ih _ hd, hf, List.filter_cons]
    unfold Window.guess
    split
    · rw [if_neg (by simpa using ‹_›)]
    · rw [if_pos (by simpa using ‹_›), List.append_assoc, List.singleton_append]

theorem entries_request (w : Window α) (r : α × List α) :
    (w.request r).entries = w.entries.erase r.1 ∪ r.2.toFinset := entries_guesses (w.formal r.1) r.2

/-- What the table has after a run: what it had and no request took out, and
what a request guessed and no later one took out. -/
theorem mem_entries_run_iff (w : Window α) (rs : List (α × List α)) (a : α) :
    a ∈ (w.run rs).entries ↔ (a ∈ w.entries ∧ ∀ r ∈ rs, a ≠ r.1) ∨
      ∃ l₁ r l₂, rs = l₁ ++ r :: l₂ ∧ a ∈ r.2 ∧ ∀ q ∈ l₂, a ≠ q.1 := by
  induction rs generalizing w with
  | nil =>
    refine ⟨fun h => .inl ⟨h, fun _ hr => absurd hr List.not_mem_nil⟩, fun h => ?_⟩
    rcases h with h | ⟨l₁, r, l₂, h, -⟩
    · exact h.1
    · exact absurd h.symm (List.append_ne_nil_of_right_ne_nil l₁ (List.cons_ne_nil r l₂))
  | cons r rs ih =>
    rw [run_cons, ih, entries_request, Finset.mem_union, Finset.mem_erase, List.mem_toFinset, List.forall_mem_cons]
    refine ⟨fun h => ?_, fun h => ?_⟩
    · rcases h with ⟨⟨hn, hw⟩ | hr, hrs⟩ | ⟨l₁, q, l₂, rfl, hq, hl⟩
      · exact .inl ⟨hw, hn, hrs⟩
      · exact .inr ⟨[], r, rs, rfl, hr, hrs⟩
      · exact .inr ⟨r :: l₁, q, l₂, rfl, hq, hl⟩
    · rcases h with ⟨hw, hn, hrs⟩ | ⟨l₁, q, l₂, h, hq, hl⟩
      · exact .inl ⟨.inl ⟨hn, hw⟩, hrs⟩
      · rcases List.cons_eq_append_iff.mp h with ⟨-, h⟩ | ⟨l, -, h⟩
        · obtain ⟨rfl, rfl⟩ := List.cons.inj h
          exact .inl ⟨.inr hq, hl⟩
        · exact .inr ⟨l, q, l₂, h, hq, hl⟩

/-- What a request of a run asks for or guesses has been asked for at its end. -/
theorem Covered.mem_run (h : w.Covered P) {rs : List (α × List α)} {r : α × List α} (hr : r ∈ rs) {a : α}
    (ha : a = r.1 ∨ a ∈ r.2) : P a ∨ a ∈ (w.run rs).expressed := by
  induction rs generalizing w with
  | nil => cases hr
  | cons q rs ih =>
    rcases List.mem_cons.mp hr with rfl | hr
    · rcases ha with rfl | ha
      · have hm := (expressed_request w r).subset (List.mem_append_right _ List.mem_cons_self)
        exact .inr ((expressed_run _ rs).subset hm)
      · exact ((h.formal r.1).mem_guesses ha).imp id ((expressed_run _ rs).subset ·)
    · exact ih (h.request q) hr

/-! ## When nothing is asked for twice -/

/-- Nothing was asked for twice; the table has guesses only (`P`), and what was
asked for is in it or is a request handled so far. -/
structure Tidy (P : α → Prop) (handled : List α) (w : Window α) : Prop where
  nodup : w.expressed.Nodup
  guesses : ∀ a ∈ w.entries, P a
  origin : ∀ a ∈ w.expressed, a ∈ w.entries ∨ a ∈ handled

theorem Tidy.guess {handled : List α} (h : w.Tidy P handled) {a : α} (hp : P a)
    (ha : a ∉ handled) : (w.guess a).Tidy P handled := by
  unfold Window.guess
  split
  · exact h
  · rename_i hn
    have hx : a ∉ w.expressed := fun hm => (h.origin a hm).elim hn ha
    refine ⟨?_, fun b hb => ?_, fun b hb => ?_⟩
    · exact h.nodup.append (List.nodup_singleton a) (List.disjoint_singleton.mpr hx)
    · exact (Finset.mem_insert.mp hb).elim (fun e => e ▸ hp) (h.guesses b)
    · rcases List.mem_append.mp hb with hb | hb
      · exact (h.origin b hb).imp Finset.mem_insert_of_mem id
      · exact .inl (List.mem_singleton.mp hb ▸ Finset.mem_insert_self _ _)

theorem Tidy.guesses_run {handled : List α} (h : w.Tidy P handled) {gs : List α}
    (hgs : ∀ a ∈ gs, P a ∧ a ∉ handled) : (gs.foldl Window.guess w).Tidy P handled := by
  induction gs generalizing w with
  | nil => exact h
  | cons a gs ih =>
    obtain ⟨hp, ha⟩ := hgs a List.mem_cons_self
    exact ih (h.guess hp ha) fun b hb => hgs b (List.mem_cons_of_mem _ hb)

theorem Tidy.formal {handled : List α} (h : w.Tidy P handled) {a : α} (hp : ¬ P a)
    (ha : a ∉ handled) : (w.formal a).Tidy P (a :: handled) := by
  have hn : a ∉ w.entries := fun hm => hp (h.guesses a hm)
  have hx : a ∉ w.expressed := fun hm => (h.origin a hm).elim hn ha
  refine ⟨?_, fun b hb => h.guesses b (Finset.mem_of_mem_erase hb), fun b hb => ?_⟩
  · exact h.nodup.append (List.nodup_singleton a) (List.disjoint_singleton.mpr hx)
  · rcases List.mem_append.mp hb with hb | hb
    · rcases h.origin b hb with he | hh
      · exact .inl (Finset.mem_erase.mpr ⟨fun e => hn (e ▸ he), he⟩)
      · exact .inr (List.mem_cons_of_mem _ hh)
    · exact .inr (List.mem_singleton.mp hb ▸ List.mem_cons_self)

/-- Requests that are no guesses, each made once, keep a window tidy. -/
theorem Tidy.run {handled : List α} (h : w.Tidy P handled)
    {rs : List (α × List α)} (hf : ∀ r ∈ rs, ¬ P r.1) (hg : ∀ r ∈ rs, ∀ a ∈ r.2, P a)
    (hh : ∀ a ∈ handled, ¬ P a) (hd : (handled ++ rs.map (·.1)).Nodup) : (w.run rs).expressed.Nodup := by
  induction rs generalizing w handled with
  | nil => exact h.nodup
  | cons r rs ih =>
    have hp := hf r List.mem_cons_self
    rw [List.map_cons, List.nodup_middle, List.nodup_cons, List.mem_append, not_or] at hd
    obtain ⟨⟨ha, hr⟩, hd⟩ := hd
    have hh' : ∀ a ∈ r.1 :: handled, ¬ P a := List.forall_mem_cons.mpr ⟨hp, hh⟩
    refine ih ((h.formal hp ha).guesses_run fun a hm => ?_) (fun q hq => hf q (List.mem_cons_of_mem _ hq))
      (fun q hq => hg q (List.mem_cons_of_mem _ hq)) hh' ?_
    · have := hg r List.mem_cons_self a hm
      exact ⟨this, fun hc => hh' a hc this⟩
    · rw [List.cons_append, List.nodup_cons, List.mem_append, not_or]
      exact ⟨⟨ha, hr⟩, hd⟩

/-- `a` was asked for, and is in the table only if something was asked for
twice: so it is from its request on. -/
def Late (a : α) (w : Window α) : Prop := a ∈ w.expressed ∧ (a ∈ w.entries → ¬ w.expressed.Nodup)

theorem Late.guess {a : α} (h : w.Late a) (b : α) : (w.guess b).Late a := by
  refine ⟨(expressed_guess w b).subset h.1, fun he hd => ?_⟩
  have hd' := (expressed_guess w b).sublist.nodup hd
  unfold Window.guess at he hd
  split at he
  · exact h.2 he hd'
  · rename_i hn
    rw [if_neg hn] at hd
    rcases Finset.mem_insert.mp he with rfl | he
    · exact List.disjoint_of_nodup_append hd h.1 List.mem_cons_self
    · exact h.2 he hd'

theorem Late.guesses {a : α} (h : w.Late a) (gs : List α) : (gs.foldl Window.guess w).Late a := by
  induction gs generalizing w with
  | nil => exact h
  | cons b gs ih => exact ih (h.guess b)

theorem Late.formal {a : α} (h : w.Late a) (b : α) : (w.formal b).Late a :=
  ⟨List.mem_append_left _ h.1, fun he hd =>
    h.2 (Finset.mem_of_mem_erase he) ((List.prefix_append _ _).sublist.nodup hd)⟩

theorem late_formal (a : α) (w : Window α) : (w.formal a).Late a :=
  ⟨List.mem_append_right _ List.mem_cons_self, fun he => absurd rfl (Finset.ne_of_mem_erase he)⟩

/-- A guess of what was requested before is asked for again. -/
theorem Late.not_nodup_guesses {a : α} (h : w.Late a) {gs : List α} (ha : a ∈ gs) :
    ¬ (gs.foldl Window.guess w).expressed.Nodup := by
  induction gs generalizing w with
  | nil => cases ha
  | cons b gs ih =>
    rcases List.mem_cons.mp ha with rfl | ha
    · intro hd
      have hd := (expressed_guesses _ gs).sublist.nodup hd
      refine (h.guess a).2 ?_ hd
      unfold Window.guess
      split
      · exact ‹_›
      · exact Finset.mem_insert_self _ _
    · exact ih (h.guess b) ha

theorem Late.not_nodup_run {a : α} (h : w.Late a) {rs : List (α × List α)} {q : α × List α}
    (hq : q ∈ rs) (ha : a ∈ q.2) : ¬ (w.run rs).expressed.Nodup := by
  induction rs generalizing w with
  | nil => cases hq
  | cons r rs ih =>
    rcases List.mem_cons.mp hq with rfl | hq
    · exact fun hd => (h.formal q.1).not_nodup_guesses ha ((expressed_run _ rs).sublist.nodup hd)
    · exact ih ((h.formal r.1).guesses r.2) hq

/-- Of distinct requests, none among its own guesses, nothing is asked for
twice just when none is a guess of another. -/
theorem nodup_run_iff {rs : List (α × List α)} (hd : (rs.map (·.1)).Nodup) (ho : ∀ r ∈ rs, r.1 ∉ r.2) :
    ((empty : Window α).run rs).expressed.Nodup ↔ ∀ r ∈ rs, ∀ q ∈ rs, r.1 ∉ q.2 := by
  constructor
  · intro hn r hr q hq ha
    obtain ⟨l₁, l₂, rfl⟩ := List.append_of_mem hr
    rw [run_append, run_cons] at hn
    rcases List.mem_append.mp hq with hq | hq
    -- The guess came first, and the request asks again.
    · have hm := ((covered_empty fun _ => False).mem_run hq (.inr ha)).resolve_left id
      have hn := (expressed_run _ l₂).sublist.nodup hn
      have hn := (expressed_request _ r).sublist.nodup hn
      exact List.disjoint_of_nodup_append hn hm List.mem_cons_self
    -- The request came first, and took the entry out of the table.
    · rcases List.mem_cons.mp hq with rfl | hq
      · exact ho q hr ha
      · exact ((late_formal r.1 _).guesses r.2).not_nodup_run hq ha hn
  · intro h
    have h0 : (empty : Window α).Tidy (fun a => ∃ q ∈ rs, a ∈ q.2) [] :=
      ⟨List.nodup_nil, fun a ha => absurd ha (Finset.notMem_empty _), fun a ha => absurd ha List.not_mem_nil⟩
    exact h0.run (fun r hr ⟨q, hq, ha⟩ => h r hr q hq ha) (fun r hr a ha => ⟨r, hr, ha⟩)
      (fun a ha => absurd ha List.not_mem_nil) hd

theorem nodup_request {r : α × List α} (h : r.1 ∉ r.2) : ((empty : Window α).request r).expressed.Nodup := by
  have hr : ∀ q ∈ [r], q.1 ∉ q.2 := List.forall_mem_singleton.mpr h
  have hd : ([r].map (·.1)).Nodup := List.nodup_singleton r.1
  refine (nodup_run_iff hd hr).mpr fun q hq p hp => ?_
  rw [List.mem_singleton.mp hq, List.mem_singleton.mp hp]
  exact h

/-! ## How often something is asked for -/

/-- `a` was asked for at most `n` times, and once more if it is in the table. -/
def Bounded (a : α) (n : Nat) (w : Window α) : Prop := w.expressed.countP (· = a) ≤ n + if a ∈ w.entries then 1 else 0

variable {a : α} {n : Nat}

theorem Bounded.guess (h : w.Bounded a n) (b : α) : (w.guess b).Bounded a n := by
  unfold Window.guess
  split
  · exact h
  · rename_i hn
    rw [Bounded] at h ⊢
    by_cases e : b = a
    · subst e
      rw [if_neg hn] at h
      rw [List.countP_append, List.countP_singleton, if_pos (decide_eq_true rfl), if_pos (Finset.mem_insert_self b _)]
      omega
    · rw [List.countP_append, List.countP_singleton, if_neg (by simpa using e)]
      simpa [Finset.mem_insert, Ne.symm e] using h

theorem Bounded.guesses (h : w.Bounded a n) (gs : List α) : (gs.foldl Window.guess w).Bounded a n := by
  induction gs generalizing w with
  | nil => exact h
  | cons b gs ih => exact ih (h.guess b)

/-- A request may forget that its own was asked for as a guess. -/
theorem Bounded.formal (h : w.Bounded a n) (b : α) : (w.formal b).Bounded a (n + if b = a then 2 else 0) := by
  rw [Bounded] at h
  rw [Bounded, Window.formal, List.countP_append, List.countP_singleton]
  by_cases e : b = a
  · subst e
    rw [if_pos (decide_eq_true rfl), if_pos rfl]
    split at h <;> omega
  · rw [if_neg (by simpa using e), if_neg e]
    simpa [Finset.mem_erase, Ne.symm e] using h

theorem Bounded.run (h : w.Bounded a n) (rs : List (α × List α)) :
    (w.run rs).Bounded a (n + 2 * rs.countP fun r => r.1 = a) := by
  induction rs generalizing w n with
  | nil => exact h
  | cons r rs ih =>
    have e : n + 2 * ((rs.countP fun r => r.1 = a) + if r.1 = a then 1 else 0) =
        (n + if r.1 = a then 2 else 0) + 2 * rs.countP fun r => r.1 = a := by
      split <;> omega
    rw [run_cons, List.countP_cons]
    simp only [decide_eq_true_eq]
    rw [e]
    exact ih ((h.formal r.1).guesses r.2)

/-- Nothing is asked for more often than twice for each request of its own, and
once more. -/
theorem countP_run_le (rs : List (α × List α)) (a : α) :
    ((empty : Window α).run rs).expressed.countP (· = a) ≤ 2 * rs.countP (fun r => r.1 = a) + 1 := by
  have h0 : (empty : Window α).Bounded a 0 := Nat.zero_le _
  have h := h0.run rs
  rw [Bounded, Nat.zero_add] at h
  split at h <;> omega

/-- Guessed, requested, and guessed again. -/
example : (Window.run empty [(0, [1]), (1, []), (0, [1])]).expressed.countP (· = 1) = 3 := by decide

/-! ## A part of a window -/

/-- The part of a window that `P` holds of. -/
def restrict (P : α → Bool) (w : Window α) : Window α := ⟨w.entries.filter (P ·), w.expressed.filter P⟩

theorem restrict_guess (P : α → Bool) (w : Window α) (a : α) :
    (w.guess a).restrict P = if P a then (w.restrict P).guess a else w.restrict P := by
  rcases hp : P a with _ | _
  · by_cases ha : a ∈ w.entries
    · simp [guess, ha]
    · simp [guess, ha, restrict, Finset.filter_insert, hp]
  · have he : a ∈ (w.restrict P).entries ↔ a ∈ w.entries := by simp [restrict, hp]
    by_cases ha : a ∈ w.entries
    · simp only [guess, if_pos ha, if_pos (he.mpr ha), if_true]
    · simp only [guess, if_neg ha, if_neg (he.not.mpr ha), if_true]
      simp [restrict, Finset.filter_insert, hp]

theorem restrict_formal (P : α → Bool) (w : Window α) (a : α) :
    (w.formal a).restrict P = if P a then (w.restrict P).formal a else w.restrict P := by
  rcases hp : P a with _ | _ <;> simp [formal, restrict, Finset.filter_erase, hp]

theorem restrict_guesses {P : α → Bool} {b : Bool} {gs : List α} (h : ∀ a ∈ gs, P a = b) (w : Window α) :
    (gs.foldl guess w).restrict P = if b then gs.foldl guess (w.restrict P) else w.restrict P := by
  induction gs generalizing w with
  | nil => exact (ite_self _).symm
  | cons a gs ih =>
    rw [List.forall_mem_cons] at h
    rw [List.foldl_cons, ih h.2, restrict_guess, h.1]
    cases b <;> rfl

/-- Where a request and its guesses are in `P` together, the part in `P` is what
the requests in `P` make of it. -/
theorem restrict_run {P : α → Bool} {rs : List (α × List α)} (h : ∀ r ∈ rs, ∀ a ∈ r.2, P a = P r.1) (w : Window α) :
    (w.run rs).restrict P = (w.restrict P).run (rs.filter fun r => P r.1) := by
  induction rs generalizing w with
  | nil => rfl
  | cons r rs ih =>
    rw [List.forall_mem_cons] at h
    rw [run_cons, ih h.2, request, restrict_guesses h.1, restrict_formal, List.filter_cons]
    split <;> rfl

/-- The window of one who asked for `l` before. -/
def asked (l : List α) (w : Window α) : Window α := ⟨w.entries, l ++ w.expressed⟩

theorem asked_request (l : List α) (w : Window α) (r : α × List α) :
    (w.asked l).request r = (w.request r).asked l := by
  have guesses (gs : List α) (w : Window α) : gs.foldl guess (w.asked l) = (gs.foldl guess w).asked l := by
    induction gs generalizing w with
    | nil => rfl
    | cons a gs ih =>
      rw [List.foldl_cons, List.foldl_cons, ← ih]
      congr 1
      unfold guess asked
      split
      · rfl
      · rw [List.append_assoc]
  have formal : (w.asked l).formal r.1 = (w.formal r.1).asked l := by
    simp only [Window.formal, asked, List.append_assoc]
  rw [request, formal, guesses, request]

end Window

end IpNdn
