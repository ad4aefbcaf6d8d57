import IpNdnStack.Framework.Census
import IpNdnStack.Framework.Run
import IpNdnStack.Impl.ThreadPool

/-!
# Runs of the pool

`Transition` says what each step of the pool can do (`step_iff`). Every run
takes the accepted tasks out of the queue in order, each once (`tasks_once`);
while a worker sleeps, each task in the queue has a wake-up on its way
(`Alert`); what the workers do is paid by what they are asked to
(`steps_le`); a pool in which nothing can go on is idle (`Resting.idle`) or
destroyed (`Resting.destructor`), with all tasks done (`Resting.finished_perm`);
and once it is stopped, its workers return and so does the destructor
(`destructor_returns`).
-/

namespace IpNdn.ThreadPool

variable {n : Nat} {τ : Type} {s s' : ThreadPool n τ} {e : Event n τ}

/-! ## The steps -/

inductive Transition (s : ThreadPool n τ) : Event n τ → ThreadPool n τ → Prop
  | enqueue {task : τ} (h : s.stop = false) :
    Transition s (.enqueue task) { s with tasks := s.tasks ++ [task], notifying := s.notifying + 1 }
  | refuse {task : τ} (h : s.stop = true) : Transition s (.refuse task) s
  | notifySome {i : Fin n} (h : s.notifying ≠ 0) (hi : s.worker i = .asleep) :
    Transition s (.notifyOne (some i)) ({ s with notifying := s.notifying - 1 }.goto i .waking)
  | notifyNone (h : s.notifying ≠ 0) (hi : ∀ i, s.worker i ≠ .asleep) :
    Transition s (.notifyOne none) { s with notifying := s.notifying - 1 }
  | sleep {i : Fin n} (hi : s.worker i = .waking) (h : s.stop = false) (ht : s.tasks = []) :
    Transition s (.lock i) (s.goto i .asleep)
  | leave {i : Fin n} (hi : s.worker i = .waking) (h : s.stop = true) (ht : s.tasks = []) :
    Transition s (.lock i) (s.goto i .returned)
  | take {i : Fin n} {task : τ} {tasks : List τ} (hi : s.worker i = .waking) (ht : s.tasks = task :: tasks) :
    Transition s (.lock i) ({ s with tasks := tasks }.goto i (.running task))
  | finish {i : Fin n} {task : τ} (hi : s.worker i = .running task) : Transition s (.finish i) (s.goto i .waking)
  | wakeUp {i : Fin n} (hi : s.worker i = .asleep) : Transition s (.wakeUp i) (s.goto i .waking)
  | shutDown (h : s.destructor = .notCalled) :
    Transition s .shutDown { s with stop := true, destructor := .notify }
  | notifyAll (h : s.destructor = .notify) :
    Transition s .notifyAll { s with worker := fun i => (s.worker i).wake, destructor := .join 0 }
  | join {joined : Nat} (h : s.destructor = .join joined) (hj : joined < n)
      (hw : s.worker ⟨joined, hj⟩ = .returned) :
    Transition s .join { s with destructor := .join (joined + 1) }

@[simp] theorem isAsleep_iff (w : Worker τ) : w.isAsleep = true ↔ w = .asleep := by
  cases w <;> simp [Worker.isAsleep]

@[simp] theorem isAsleep_eq_false_iff (w : Worker τ) : w.isAsleep = false ↔ w ≠ .asleep := by
  rw [← Bool.not_eq_true, isAsleep_iff]

theorem Step.transition (h : Step s e s') : Transition s e s' := by
  unfold Step at h
  cases e with
  | enqueue task =>
    simp only [step, Option.ite_none_left_eq_some, Option.some.injEq, Bool.not_eq_true] at h
    obtain ⟨hs, rfl⟩ := h
    exact .enqueue hs
  | refuse task =>
    simp only [step, Option.ite_none_right_eq_some, Option.some.injEq] at h
    obtain ⟨hs, rfl⟩ := h
    exact .refuse hs
  | notifyOne woken =>
    simp only [step, Option.ite_none_left_eq_some] at h
    obtain ⟨hn, h⟩ := h
    cases woken with
    | some i =>
      simp only [Option.ite_none_right_eq_some, Option.some.injEq, isAsleep_iff] at h
      obtain ⟨hi, rfl⟩ := h
      exact .notifySome hn hi
    | none =>
      simp only [Option.ite_none_right_eq_some, Option.some.injEq, Bool.not_eq_true', isAsleep_eq_false_iff] at h
      obtain ⟨hi, rfl⟩ := h
      exact .notifyNone hn hi
  | lock i =>
    simp only [step] at h
    split at h
    · rename_i hi
      rcases ht : s.tasks with _ | ⟨task, tasks⟩
      · rcases hs : s.stop with _ | _ <;> simp [ht, hs] at h <;> subst h
        · exact .sleep hi hs ht
        · exact .leave hi hs ht
      · simp [ht] at h
        subst h
        exact .take hi ht
    · cases h
  | finish i =>
    simp only [step] at h
    split at h <;> cases h
    exact .finish ‹_›
  | wakeUp i =>
    simp only [step, Option.ite_none_right_eq_some, Option.some.injEq, isAsleep_iff] at h
    obtain ⟨hi, rfl⟩ := h
    exact .wakeUp hi
  | shutDown =>
    simp only [step] at h
    split at h <;> cases h
    exact .shutDown ‹_›
  | notifyAll =>
    simp only [step] at h
    split at h <;> cases h
    exact .notifyAll ‹_›
  | join =>
    simp only [step] at h
    split at h
    · split at h
      · split at h <;> cases h
        exact .join ‹_› ‹_› ‹_›
      · cases h
    · cases h

theorem step_iff : Step s e s' ↔ Transition s e s' := by
  refine ⟨Step.transition, fun h => ?_⟩
  cases h with
  | enqueue h | refuse h | shutDown h | notifyAll h => simp [Step, step, h]
  | notifySome h hi => simp [Step, step, h, hi]
  | notifyNone h hi => simp [Step, step, h, hi]
  | sleep hi h ht | leave hi h ht => simp [Step, step, hi, h, ht]
  | take hi ht => simp [Step, step, hi, ht]
  | finish hi => simp [Step, step, hi]
  | wakeUp hi => simp [Step, step, hi]
  | join h hj hw => simp [Step, step, h, hj, hw]

theorem wake_ne_asleep (w : Worker τ) : w.wake ≠ .asleep := by
  cases w <;> exact nofun

theorem wake_eq_returned_iff (w : Worker τ) : w.wake = .returned ↔ w = .returned := by
  cases w <;> simp [Worker.wake]

@[simp, grind =] theorem goto_worker (i : Fin n) (w : Worker τ) (j : Fin n) :
    (s.goto i w).worker j = if j = i then w else s.worker j := by
  simp only [goto, Function.update_apply]

@[simp, grind =] theorem goto_tasks (i : Fin n) (w : Worker τ) : (s.goto i w).tasks = s.tasks := rfl

@[simp, grind =] theorem goto_stop (i : Fin n) (w : Worker τ) : (s.goto i w).stop = s.stop := rfl

@[simp, grind =] theorem goto_notifying (i : Fin n) (w : Worker τ) : (s.goto i w).notifying = s.notifying := rfl

@[simp, grind =] theorem goto_destructor (i : Fin n) (w : Worker τ) : (s.goto i w).destructor = s.destructor := rfl

theorem census_goto {M : Type} [AddCommMonoid M] (m : Worker τ → M) (i : Fin n) (w : Worker τ) :
    census m (s.goto i w).worker + m (s.worker i) = census m s.worker + m w := census_update m s.worker i w

/-! ## Each task once -/

/-- The task that a worker runs. -/
def held : Worker τ → Multiset τ
  | .running task => {task}
  | _ => 0

theorem held_wake (w : Worker τ) : held w.wake = held w := by
  cases w <;> rfl

/-- A step takes the first task out of the queue, or puts one in last. -/
theorem Step.queue (h : Step s e s') :
    s.tasks ++ (accepted (s, e)).toList = (started (s, e)).toList ++ s'.tasks := by
  cases h.transition with
  | enqueue h => rfl
  | sleep hi h ht | leave hi h ht | take hi ht => simp [accepted, started, ht]
  | _ => exact List.append_nil _

/-- A task is held from when it is taken out of the queue until it ends. -/
theorem Step.held (h : Step s e s') :
    census held s.worker + (started (s, e)).toList = (finished (s, e)).toList + census held s'.worker := by
  have hg (s : ThreadPool n τ) (i : Fin n) (w : Worker τ) := census_goto (s := s) ThreadPool.held i w
  cases h.transition with
  | @notifySome i h hi =>
    have := hg { s with notifying := s.notifying - 1 } i .waking
    simpa [ThreadPool.held, started, finished, hi] using this.symm
  | @sleep i hi h ht =>
    have := hg s i .asleep
    simpa [ThreadPool.held, started, finished, hi, ht] using this.symm
  | @leave i hi h ht =>
    have := hg s i .returned
    simpa [ThreadPool.held, started, finished, hi, ht] using this.symm
  | @take i task tasks hi ht =>
    have := hg { s with tasks := tasks } i (.running task)
    simpa [ThreadPool.held, started, finished, hi, ht] using this.symm
  | @finish i task hi =>
    have := hg s i .waking
    simpa [ThreadPool.held, started, finished, hi, add_comm] using this.symm
  | @wakeUp i hi =>
    have := hg s i .waking
    simpa [ThreadPool.held, started, finished, hi] using this.symm
  | notifyAll h => simp [started, finished, census, held_wake]
  | _ => simp [started, finished]

theorem filterMap_snoc {α β : Type} (f : α → Option β) (l : List α) (a : α) :
    (l ++ [a]).filterMap f = l.filterMap f ++ (f a).toList := by
  rw [List.filterMap_append]
  cases h : f a <;> simp [h]

variable {tr : List (ThreadPool n τ × Event n τ)}

theorem accepted_eq (h : Run Step (launch n τ) tr s) :
    tr.filterMap accepted = tr.filterMap started ++ s.tasks := by
  induction h with
  | nil => rfl
  | snoc _ he ih => rw [filterMap_snoc, filterMap_snoc, ih, List.append_assoc, he.queue, List.append_assoc]

theorem started_eq (h : Run Step (launch n τ) tr s) :
    (tr.filterMap started : Multiset τ) = tr.filterMap finished + census held s.worker := by
  induction h with
  | nil => simp [launch, census, held]
  | snoc _ he ih =>
    rw [filterMap_snoc, filterMap_snoc, ← Multiset.coe_add, ← Multiset.coe_add, ih, add_assoc, he.held, add_assoc]

/-- In every run, the tasks are started in the order in which they were
accepted, and each task started ends once or is still held by one worker. -/
theorem tasks_once (h : Run Step (launch n τ) tr s) :
    tr.filterMap accepted = tr.filterMap started ++ s.tasks ∧
      (tr.filterMap started : Multiset τ) = tr.filterMap finished + census held s.worker :=
  ⟨accepted_eq h, started_eq h⟩

/-- Two workers, two tasks; the first has ended. -/
theorem exists_run_two : ∃ tr s, Run Step (launch 2 Nat) tr s ∧ tr.filterMap accepted = [7, 8] ∧
    tr.filterMap started = [7] ∧ tr.filterMap finished = [7] ∧ s.tasks = [8] ∧ s.worker 1 = .asleep := by
  have h0 : Run Step (launch 2 Nat) [] _ := .nil
  have h1 := h0.snoc (show Step _ (.lock 0) _ from rfl)
  have h2 := h1.snoc (show Step _ (.lock 1) _ from rfl)
  have h3 := h2.snoc (show Step _ (.enqueue 7) _ from rfl)
  have h4 := h3.snoc (show Step _ (.notifyOne (some 0)) _ from rfl)
  have h5 := h4.snoc (show Step _ (.lock 0) _ from rfl)
  have h6 := h5.snoc (show Step _ (.enqueue 8) _ from rfl)
  have h7 := h6.snoc (show Step _ (.finish 0) _ from rfl)
  exact ⟨_, _, h7, rfl, rfl, rfl, rfl, rfl⟩

theorem tasks_once_two : ∃ tr s, Run Step (launch 2 Nat) tr s ∧ tr.filterMap accepted = [7, 8] ∧ s.tasks = [8] ∧
    tr.filterMap accepted = tr.filterMap started ++ s.tasks ∧
    (tr.filterMap started : Multiset Nat) = tr.filterMap finished + census held s.worker := by
  obtain ⟨tr, s, h, ha, -, -, ht, -⟩ := exists_run_two
  exact ⟨tr, s, h, ha, ht, tasks_once h⟩

/-! ## No wake-up is lost -/

def wakes : Worker τ → Nat
  | .waking => 1
  | _ => 0

/-- While a worker sleeps, each task in the queue has a `notify_one` to come or
a worker that is about to look. -/
def Alert (s : ThreadPool n τ) : Prop :=
  (∃ i, s.worker i = .asleep) → s.tasks.length ≤ s.notifying + census wakes s.worker

theorem exists_asleep {i : Fin n} {w : Worker τ} (hw : w ≠ .asleep) (h : ∃ j, (s.goto i w).worker j = .asleep) :
    ∃ j, s.worker j = .asleep := by
  obtain ⟨j, hj⟩ := h
  rw [goto_worker] at hj
  split at hj
  · exact absurd hj hw
  · exact ⟨j, hj⟩

theorem Alert.step (h : Alert s) (hs : Step s e s') : Alert s' := by
  intro ha
  have hg (s : ThreadPool n τ) (i : Fin n) (w : Worker τ) := census_goto (s := s) wakes i w
  cases hs.transition with
  | enqueue _ =>
    have := h ha
    simp only [List.length_append, List.length_singleton]
    omega
  | @notifySome i hn hi =>
    have hb := exists_asleep (w := .waking) nofun ha
    have := h hb
    have := hg { s with notifying := s.notifying - 1 } i .waking
    simp only [hi, wakes, goto_tasks, goto_notifying] at this ⊢
    omega
  | notifyNone _ hi => exact absurd ha.choose_spec (hi _)
  | sleep _ _ ht | leave _ _ ht => simp [ht]
  | @take i task tasks hi ht =>
    have hb := exists_asleep (w := .running task) nofun ha
    have := h hb
    have := hg { s with tasks := tasks } i (.running task)
    simp only [hi, ht, wakes, goto_tasks, goto_notifying, List.length_cons] at *
    omega
  | @finish i task hi =>
    have := h (exists_asleep (w := .waking) nofun ha)
    have := hg s i .waking
    simp only [hi, wakes, goto_tasks, goto_notifying] at *
    omega
  | @wakeUp i hi =>
    have := h (exists_asleep (w := .waking) nofun ha)
    have := hg s i .waking
    simp only [hi, wakes, goto_tasks, goto_notifying] at *
    omega
  | refuse _ | shutDown _ | join _ _ _ => exact h ha
  | notifyAll _ => exact absurd ha.choose_spec (wake_ne_asleep _)

theorem alert_launch : Alert (launch n τ) := fun _ => Nat.zero_le _

/-- In every state of every run, there is a wake-up to come for each task that
sleeping workers could do. -/
theorem wakeUps_suffice (h : Run Step (launch n τ) tr s) : ∀ t ∈ states tr s, Alert t :=
  h.forall_states (C := fun _ _ => True) alert_launch (fun _ _ _ ha hs _ => ha.step hs) fun _ _ => trivial

/-- One worker sleeps while a task is in the queue. -/
theorem wakeUps_suffice_two : ∃ tr s, Run Step (launch 2 Nat) tr s ∧ s.tasks = [8] ∧ s.worker 1 = .asleep ∧
    ∀ t ∈ states tr s, Alert t := by
  obtain ⟨tr, s, h, -, -, -, ht, hw⟩ := exists_run_two
  exact ⟨tr, s, h, ht, hw, wakeUps_suffice h⟩

/-! ## The destructor -/

/-- How far the destructor has got. -/
structure Orderly (s : ThreadPool n τ) : Prop where
  stop : s.stop = true ↔ s.destructor ≠ .notCalled
  returned : ∀ i, s.worker i = .returned → s.stop = true ∧ s.tasks = []
  awake : ∀ joined, s.destructor = .join joined → ∀ i, s.worker i ≠ .asleep
  le : ∀ joined, s.destructor = .join joined → joined ≤ n
  joined : ∀ joined, s.destructor = .join joined → ∀ i : Fin n, i.1 < joined → s.worker i = .returned

theorem orderly_launch : Orderly (launch n τ) := ⟨by simp [launch], nofun, nofun, nofun, nofun⟩

theorem Orderly.step (h : Orderly s) (hs : Step s e s') : Orderly s' := by
  obtain ⟨stop, returned, awake, le, joined⟩ := h
  cases hs.transition with
  | @join k h hj hw =>
    refine ⟨by simp [stop, h], returned, fun _ _ => awake k h, fun _ hk => ?_, fun _ hk i hi => ?_⟩
    · cases hk
      exact hj
    · cases hk
      rcases Nat.lt_succ_iff_lt_or_eq.mp hi with hi | rfl
      · exact joined k h i hi
      · exact hw
  | notifyAll h =>
    refine ⟨by simp [stop, h], fun i hi => returned i ((wake_eq_returned_iff _).mp hi), fun _ _ i => wake_ne_asleep _,
      fun _ hk => ?_, fun _ hk i hi => ?_⟩
    · cases hk
      exact Nat.zero_le n
    · cases hk
      cases hi
  | _ => constructor <;> grind

theorem orderly (h : Run Step (launch n τ) tr s) : Orderly s :=
  h.invariant orderly_launch fun _ _ _ ho hs => ho.step hs

/-! ## The work to do -/

/-- A step that the pool takes by itself, once the tasks it was given end. -/
def Event.work : Event n τ → Nat
  | .notifyOne _ | .lock _ | .finish _ | .notifyAll | .join => 1
  | .enqueue _ | .refuse _ | .wakeUp _ | .shutDown => 0

/-- How many such steps another step can bring about. -/
def Event.credit : Event n τ → Nat
  | .enqueue _ => 4
  | .wakeUp _ => 1
  | .shutDown => 2 * n + 1
  | _ => 0

def effort : Worker τ → Nat
  | .waking => 1
  | .running _ => 2
  | .asleep | .returned => 0

/-- The destructor's own steps, and those of the workers that it wakes. -/
def Destructor.effort (n : Nat) : Destructor → Nat
  | .notCalled => 0
  | .notify => 2 * n + 1
  | .join joined => n - joined

def todo (s : ThreadPool n τ) : Nat :=
  2 * s.tasks.length + 2 * s.notifying + census effort s.worker + Destructor.effort n s.destructor

theorem todo_goto (s : ThreadPool n τ) (i : Fin n) (w : Worker τ) :
    (s.goto i w).todo + effort (s.worker i) = s.todo + effort w := by
  have := census_goto (s := s) effort i w
  simp only [todo, goto_tasks, goto_notifying, goto_destructor]
  omega

theorem Step.todo (hs : Step s e s') : s'.todo + e.work ≤ s.todo + e.credit := by
  cases hs.transition with
  | enqueue _ =>
    simp only [ThreadPool.todo, Event.work, Event.credit, List.length_append, List.length_singleton]
    omega
  | refuse _ => exact Nat.le_refl _
  | @notifySome i hn hi =>
    have := todo_goto { s with notifying := s.notifying - 1 } i .waking
    simp only [hi, effort, ThreadPool.todo, Event.work, Event.credit] at this ⊢
    omega
  | notifyNone hn _ =>
    simp only [ThreadPool.todo, Event.work, Event.credit]
    omega
  | @sleep i hi _ _ =>
    have := todo_goto s i .asleep
    simp only [hi, effort, Event.work, Event.credit] at this ⊢
    omega
  | @leave i hi _ _ =>
    have := todo_goto s i .returned
    simp only [hi, effort, Event.work, Event.credit] at this ⊢
    omega
  | @take i task tasks hi ht =>
    have := todo_goto { s with tasks := tasks } i (.running task)
    simp only [hi, ht, effort, ThreadPool.todo, Event.work, Event.credit, List.length_cons] at this ⊢
    omega
  | @finish i task hi =>
    have := todo_goto s i .waking
    simp only [hi, effort, Event.work, Event.credit] at this ⊢
    omega
  | @wakeUp i hi =>
    have := todo_goto s i .waking
    simp only [hi, effort, Event.work, Event.credit] at this ⊢
    omega
  | shutDown h =>
    simp only [ThreadPool.todo, Event.work, Event.credit, h, Destructor.effort]
    omega
  | notifyAll h =>
    have hw : ∀ w : Worker τ, effort w.wake ≤ effort w + 1 := fun w => by cases w <;> simp [Worker.wake, effort]
    have := census_le (t := fun i => (s.worker i).wake) fun i => hw (s.worker i)
    rw [Fintype.card_fin] at this
    simp only [ThreadPool.todo, Event.work, Event.credit, h, Destructor.effort]
    omega
  | join h hj _ =>
    simp only [ThreadPool.todo, Event.work, Event.credit, h, Destructor.effort]
    omega

theorem todo_launch : (launch n τ).todo = n := by
  simp [todo, launch, census, effort, Destructor.effort]

/-- Four steps for an accepted task, one for a wake-up that nobody sent,
`2 n + 1` for the destructor, and `n` for the start. -/
theorem steps_le (h : Run Step (launch n τ) tr s) :
    (tr.map fun p => p.2.work).sum ≤ n + (tr.map fun p => p.2.credit).sum := by
  have := h.amortized (fun _ => True) ThreadPool.todo Event.work Event.credit trivial (fun _ _ _ _ _ => trivial)
    fun _ _ _ _ hs => hs.todo
  rw [todo_launch] at this
  omega

/-! ## At rest -/

/-- Nothing goes on unless a task comes, a worker wakes up unasked, or the
destructor is called. -/
def Resting (s : ThreadPool n τ) : Prop := ∀ e s', Step s e s' → e.work = 0

/-- All workers wait for tasks. -/
structure Idle (s : ThreadPool n τ) : Prop where
  notCalled : s.destructor = .notCalled
  tasks : s.tasks = []
  asleep : ∀ i, s.worker i = .asleep

theorem Resting.not_transition (h : Resting s) (ht : Transition s e s') : e.work = 0 := h e s' (step_iff.mpr ht)

theorem Resting.notifying (h : Resting s) : s.notifying = 0 := by
  by_contra hn
  by_cases hi : ∃ i, s.worker i = .asleep
  · obtain ⟨i, hi⟩ := hi
    cases h.not_transition (.notifySome hn hi)
  · cases h.not_transition (.notifyNone hn fun i hc => hi ⟨i, hc⟩)

/-- A worker goes on unless it sleeps or has returned. -/
theorem Resting.worker (h : Resting s) (i : Fin n) : s.worker i = .asleep ∨ s.worker i = .returned := by
  cases hi : s.worker i with
  | waking =>
    rcases ht : s.tasks with _ | ⟨task, tasks⟩
    · rcases hs : s.stop with _ | _
      · cases h.not_transition (.sleep hi hs ht)
      · cases h.not_transition (.leave hi hs ht)
    · cases h.not_transition (.take hi ht)
  | asleep => exact .inl rfl
  | running task => cases h.not_transition (.finish hi)
  | returned => exact .inr rfl

theorem Resting.census (h : Resting s) {M : Type} [AddCommMonoid M] {m : Worker τ → M} (ha : m .asleep = 0)
    (hr : m .returned = 0) : census m s.worker = 0 := by
  apply Finset.sum_eq_zero
  intro i _
  rcases h.worker i with hi | hi <;> rw [hi] <;> assumption

/-- The destructor goes on unless it has not been called or has returned. -/
theorem Resting.destructor (h : Resting s) (ho : Orderly s) : s.destructor = .notCalled ∨ Destroyed s := by
  cases hd : s.destructor with
  | notCalled => exact .inl rfl
  | notify => cases h.not_transition (.notifyAll hd)
  | join joined =>
    right
    rcases (ho.le joined hd).lt_or_eq with hj | rfl
    · have hw := (h.worker ⟨joined, hj⟩).resolve_left (ho.awake joined hd _)
      cases h.not_transition (.join hd hj hw)
    · exact hd

/-- Then nothing goes on, either. -/
theorem resting_of (hn : s.notifying = 0) (hw : ∀ i, s.worker i = .asleep ∨ s.worker i = .returned)
    (hd : s.destructor = .notCalled ∨ Destroyed s) : Resting s := by
  intro e s' hs
  have hawake : ∀ i w, s.worker i = w → w = .asleep ∨ w = .returned := fun i w hi => hi ▸ hw i
  cases hs.transition with
  | notifySome h _ | notifyNone h _ => exact absurd hn h
  | sleep hi _ _ | leave hi _ _ | take hi _ | finish hi => rcases hawake _ _ hi with e | e <;> cases e
  | notifyAll h => rcases hd with hd | hd <;> cases h.symm.trans hd
  | join h hj _ =>
    rcases hd with hd | hd
    · cases h.symm.trans hd
    · cases h.symm.trans hd
      exact absurd hj (Nat.lt_irrefl _)
  | _ => rfl

theorem Destroyed.returned (h : Destroyed s) (ho : Orderly s) (i : Fin n) : s.worker i = .returned :=
  ho.joined n h i i.2

theorem Destroyed.tasks (h : Destroyed s) (ho : Orderly s) (hn : 0 < n) : s.tasks = [] :=
  (ho.returned ⟨0, hn⟩ (h.returned ho _)).2

theorem Resting.idle (h : Resting s) (ho : Orderly s) (ha : Alert s) (hn : 0 < n) (hd : s.destructor = .notCalled) :
    Idle s := by
  have hs : ¬ s.stop = true := fun hs => ho.stop.mp hs hd
  have hw (i : Fin n) : s.worker i = .asleep := (h.worker i).resolve_right fun hr => hs (ho.returned i hr).1
  refine ⟨hd, ?_, hw⟩
  have := ha ⟨⟨0, hn⟩, hw _⟩
  rw [h.notifying, h.census rfl rfl] at this
  exact List.length_eq_zero_iff.mp (Nat.le_zero.mp this)

/-- With no task in the queue and none held, all accepted tasks have ended. -/
theorem finished_perm (h : Run Step (launch n τ) tr s) (ht : s.tasks = []) (hh : census held s.worker = 0) :
    (tr.filterMap finished).Perm (tr.filterMap accepted) := by
  rw [accepted_eq h, ht, List.append_nil, ← Multiset.coe_eq_coe, started_eq h, hh, add_zero]

theorem Resting.finished_perm (hr : Resting s) (h : Run Step (launch n τ) tr s) (hn : 0 < n) :
    (Idle s ∨ Destroyed s) ∧ (tr.filterMap finished).Perm (tr.filterMap accepted) := by
  have ho := orderly h
  have ha : Alert s := h.invariant alert_launch fun _ _ _ ha hs => ha.step hs
  have hd : Idle s ∨ Destroyed s := (hr.destructor ho).imp_left (hr.idle ho ha hn)
  refine ⟨hd, ThreadPool.finished_perm h ?_ (hr.census rfl rfl)⟩
  rcases hd with hi | hd
  · exact hi.tasks
  · exact hd.tasks ho hn

/-- What a pool of workers does by itself in a run is bounded by what is asked
of it; and when it comes to rest, all workers wait for tasks or have been
joined, and each accepted task has ended, once. -/
theorem comes_to_rest (hn : 0 < n) (h : Run Step (launch n τ) tr s) :
    (tr.map fun p => p.2.work).sum ≤ n + (tr.map fun p => p.2.credit).sum ∧
      (Resting s → (Idle s ∨ Destroyed s) ∧ (tr.filterMap finished).Perm (tr.filterMap accepted)) :=
  ⟨steps_le h, fun hr => hr.finished_perm h hn⟩

/-- One worker, which has done one task. -/
theorem comes_to_rest_one : ∃ tr s, Run Step (launch 1 Nat) tr s ∧ tr.filterMap accepted = [7] ∧
    s.worker 0 = .asleep ∧
    (tr.map fun p => p.2.work).sum ≤ 1 + (tr.map fun p => p.2.credit).sum ∧
    (tr.filterMap finished).Perm (tr.filterMap accepted) := by
  have h0 : Run Step (launch 1 Nat) [] _ := .nil
  have h1 := h0.snoc (show Step _ (.enqueue 7) _ from rfl)
  have h2 := h1.snoc (show Step _ (.lock 0) _ from rfl)
  have h3 := h2.snoc (show Step _ (.notifyOne none) _ from rfl)
  have h4 := h3.snoc (show Step _ (.finish 0) _ from rfl)
  have h5 := h4.snoc (show Step _ (.lock 0) _ from rfl)
  obtain ⟨hle, hd⟩ := comes_to_rest Nat.one_pos h5
  have hr := hd (resting_of rfl (fun i => .inl (by rw [Subsingleton.elim i 0]; rfl)) (.inl rfl))
  exact ⟨_, _, h5, rfl, rfl, hle, hr.2⟩

/-! ## After `stop` -/

def sleeps : Worker τ → Nat
  | .asleep => 1
  | _ => 0

theorem sleeps_wake_le (w : Worker τ) : sleeps w.wake ≤ sleeps w := by
  cases w <;> simp [Worker.wake, sleeps]

/-- A step that is not a refusal. -/
def Event.counts : Event n τ → Nat
  | .refuse _ => 0
  | _ => 1

/-- Nobody falls asleep any more, so that wake-ups that nobody sent run out too. -/
theorem Step.stopped (hs : Step s e s') (ho : Orderly s) (h : s.stop = true) :
    s'.stop = true ∧ s'.todo + 2 * census sleeps s'.worker + e.counts ≤ s.todo + 2 * census sleeps s.worker := by
  have ht := hs.todo
  have hg (s : ThreadPool n τ) (i : Fin n) (w : Worker τ) := census_goto (s := s) sleeps i w
  cases hs.transition with
  | enqueue hf | sleep _ hf _ => rw [hf] at h; cases h
  | refuse _ => exact ⟨h, Nat.le_refl _⟩
  | shutDown hd => exact absurd hd (ho.stop.mp h)
  | @notifySome i _ hi =>
    have := hg { s with notifying := s.notifying - 1 } i .waking
    simp only [hi, sleeps, Event.work, Event.credit, Event.counts] at this ht ⊢
    exact ⟨h, by omega⟩
  | @leave i hi _ _ =>
    have := hg s i .returned
    simp only [hi, sleeps, Event.work, Event.credit, Event.counts] at this ht ⊢
    exact ⟨h, by omega⟩
  | @take i task tasks hi _ =>
    have := hg { s with tasks := tasks } i (.running task)
    simp only [hi, sleeps, Event.work, Event.credit, Event.counts] at this ht ⊢
    exact ⟨h, by omega⟩
  | @finish i task hi =>
    have := hg s i .waking
    simp only [hi, sleeps, Event.work, Event.credit, Event.counts] at this ht ⊢
    exact ⟨h, by omega⟩
  | @wakeUp i hi =>
    have := hg s i .waking
    simp only [hi, sleeps, Event.work, Event.credit, Event.counts] at this ht ⊢
    exact ⟨h, by omega⟩
  | notifyAll _ =>
    have : census sleeps (fun i => (s.worker i).wake) ≤ census sleeps s.worker :=
      Finset.sum_le_sum fun i _ => sleeps_wake_le (s.worker i)
    simp only [Event.work, Event.credit, Event.counts] at ht ⊢
    exact ⟨h, by omega⟩
  | notifyNone _ _ | join _ _ _ =>
    simp only [Event.work, Event.credit, Event.counts] at ht ⊢
    exact ⟨h, by omega⟩

/-- Once `stop` is set, a pool of workers has only so many steps left, in any
order, but for refusals; it can go on until the destructor has returned; and
then all workers have, and each accepted task has ended, once. -/
theorem destructor_returns (hn : 0 < n) (h : Run Step (launch n τ) tr s) (hs : s.stop = true) :
    (∀ tr' s', Run Step s tr' s' →
      (tr'.map fun p => p.2.counts).sum ≤ s.todo + 2 * census sleeps s.worker) ∧
      (Resting s → Destroyed s) ∧
      (Destroyed s → (∀ i, s.worker i = .returned) ∧ (tr.filterMap finished).Perm (tr.filterMap accepted)) := by
  have ho := orderly h
  refine ⟨fun tr' s' h' => ?_, fun hr => ?_, fun hd => ⟨hd.returned ho, ?_⟩⟩
  · have := h'.amortized (fun s => Orderly s ∧ s.stop = true) (fun s => s.todo + 2 * census sleeps s.worker)
      Event.counts (fun _ => 0) ⟨ho, hs⟩ (fun _ _ _ hi hs => ⟨hi.1.step hs, (hs.stopped hi.1 hi.2).1⟩)
      fun _ _ _ hi hs => (hs.stopped hi.1 hi.2).2
    have hz : (tr'.map fun _ => 0).sum = 0 := by simp
    omega
  · exact (hr.destructor ho).resolve_left (ho.stop.mp hs)
  · apply finished_perm h (hd.tasks ho hn)
    apply Finset.sum_eq_zero
    intro i _
    rw [hd.returned ho i]
    rfl

/-- One worker, joined after its task. -/
theorem destructor_returns_one : ∃ tr s, Run Step (launch 1 Nat) tr s ∧ tr.filterMap accepted = [7] ∧ Destroyed s ∧
    (∀ i, s.worker i = .returned) ∧ (tr.filterMap finished).Perm (tr.filterMap accepted) := by
  have h0 : Run Step (launch 1 Nat) [] _ := .nil
  have h1 := h0.snoc (show Step _ (.enqueue 7) _ from rfl)
  have h2 := h1.snoc (show Step _ (.lock 0) _ from rfl)
  have h3 := h2.snoc (show Step _ .shutDown _ from rfl)
  have h4 := h3.snoc (show Step _ .notifyAll _ from rfl)
  have h5 := h4.snoc (show Step _ (.finish 0) _ from rfl)
  have h6 := h5.snoc (show Step _ (.lock 0) _ from rfl)
  have h7 := h6.snoc (show Step _ .join _ from rfl)
  exact ⟨_, _, h7, rfl, rfl, (destructor_returns Nat.one_pos h7 rfl).2.2 rfl⟩

/-! ## One worker -/

def current : Worker τ → Option τ
  | .running task => some task
  | _ => none

theorem current_wake (w : Worker τ) : current w.wake = current w := by
  cases w <;> rfl

theorem Step.current {s s' : ThreadPool 1 τ} {e : Event 1 τ} (h : Step s e s') :
    (current (s.worker 0)).toList ++ (started (s, e)).toList =
      (finished (s, e)).toList ++ (current (s'.worker 0)).toList := by
  have h0 : ∀ i : Fin 1, i = 0 := fun i => Subsingleton.elim i 0
  cases h.transition with
  | @notifySome i _ hi | @sleep i hi _ ht | @leave i hi _ ht | @take i task tasks hi ht | @finish i task hi
  | @wakeUp i hi =>
    cases h0 i
    simp [ThreadPool.current, started, finished, *]
  | notifyAll _ => simp [current_wake, started, finished]
  | _ => exact List.append_nil _

/-- A pool of one worker does the tasks in the order in which they were
accepted, one at a time, and all of them before the destructor returns. -/
theorem one_worker {s : ThreadPool 1 τ} {tr : List (ThreadPool 1 τ × Event 1 τ)} (h : Run Step (launch 1 τ) tr s) :
    tr.filterMap accepted = tr.filterMap finished ++ (current (s.worker 0)).toList ++ s.tasks ∧
      (Destroyed s → tr.filterMap finished = tr.filterMap accepted) := by
  have hc : tr.filterMap started = tr.filterMap finished ++ (current (s.worker 0)).toList := by
    induction h with
    | nil => rfl
    | snoc _ he ih => rw [filterMap_snoc, filterMap_snoc, ih, List.append_assoc, he.current, List.append_assoc]
  have e := accepted_eq h
  rw [hc] at e
  refine ⟨e, fun hd => ?_⟩
  rw [e, hd.tasks (orderly h) Nat.one_pos, hd.returned (orderly h)]
  simp [current]

/-- Two tasks, of which it is at the first. -/
theorem one_worker_two : ∃ tr s, Run Step (launch 1 Nat) tr s ∧ tr.filterMap accepted = [7, 8] ∧
    s.worker 0 = .running 7 ∧
    tr.filterMap accepted = tr.filterMap finished ++ (current (s.worker 0)).toList ++ s.tasks := by
  have h0 : Run Step (launch 1 Nat) [] _ := .nil
  have h1 := h0.snoc (show Step _ (.enqueue 7) _ from rfl)
  have h2 := h1.snoc (show Step _ (.enqueue 8) _ from rfl)
  have h3 := h2.snoc (show Step _ (.lock 0) _ from rfl)
  exact ⟨_, _, h3, rfl, rfl, (one_worker h3).1⟩

end IpNdn.ThreadPool
