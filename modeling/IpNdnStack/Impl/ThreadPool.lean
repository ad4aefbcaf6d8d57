import Mathlib.Data.Fintype.Pi
import Mathlib.Logic.Function.Basic

/-!
# `ThreadPool`

`helper/ThreadPool.h`: the workers' loop, `enqueue` and the destructor, run by
several threads. What a thread does under `queue_mutex` is one step, and so is
each call outside of it: `notify_one`, `notify_all`, a task, a `join`. A task
is what its closure is; `packaged_task` keeps its exceptions from the worker.
-/

namespace IpNdn

/-- Where a worker is in its loop. -/
inductive Worker (τ : Type)
  /-- before it has `queue_mutex`: at first, after a task, or woken up -/
  | waking
  /-- in `condition.wait` -/
  | asleep
  | running (task : τ)
  /-- it returned -/
  | returned
  deriving DecidableEq, Repr

namespace Worker

variable {τ : Type}

def isAsleep : Worker τ → Bool
  | asleep => true
  | _ => false

/-- What `notify_all` does to a worker. -/
def wake : Worker τ → Worker τ
  | asleep => waking
  | w => w

end Worker

/-- Where the destructor is. -/
inductive Destructor
  | notCalled
  /-- `stop` is set, and `notify_all` comes next -/
  | notify
  /-- so many workers have been joined -/
  | join (joined : Nat)
  deriving DecidableEq, Repr

/-- A pool of `n` workers. -/
structure ThreadPool (n : Nat) (τ : Type) where
  worker : Fin n → Worker τ
  tasks : List τ
  stop : Bool
  /-- how many calls of `enqueue` have given `queue_mutex` back and not yet called `notify_one` -/
  notifying : Nat
  destructor : Destructor

namespace ThreadPool

variable {n : Nat} {τ : Type}

/-- The constructor launches the workers. -/
def launch (n : Nat) (τ : Type) : ThreadPool n τ := ⟨fun _ => .waking, [], false, 0, .notCalled⟩

def goto (s : ThreadPool n τ) (i : Fin n) (w : Worker τ) : ThreadPool n τ :=
  { s with worker := Function.update s.worker i w }

inductive Event (n : Nat) (τ : Type)
  /-- `enqueue` puts a task into the queue -/
  | enqueue (task : τ)
  /-- `enqueue` throws -/
  | refuse (task : τ)
  /-- `enqueue` calls `notify_one`, which wakes this worker if any sleeps -/
  | notifyOne (woken : Option (Fin n))
  /-- a worker has `queue_mutex`, until it waits, returns or has a task -/
  | lock (i : Fin n)
  /-- a worker's task ends -/
  | finish (i : Fin n)
  /-- a worker wakes up without being told -/
  | wakeUp (i : Fin n)
  /-- the destructor sets `stop` -/
  | shutDown
  | notifyAll
  /-- the destructor's next `join` ends -/
  | join
  deriving DecidableEq, Repr

def step (s : ThreadPool n τ) : Event n τ → Option (ThreadPool n τ)
  | .enqueue task =>
    if s.stop then none else some { s with tasks := s.tasks ++ [task], notifying := s.notifying + 1 }
  | .refuse _ => if s.stop then some s else none
  | .notifyOne woken =>
    if s.notifying = 0 then none
    else match woken with
      | some i =>
        if (s.worker i).isAsleep then some ({ s with notifying := s.notifying - 1 }.goto i .waking) else none
      | none =>
        if ∀ i, !(s.worker i).isAsleep then some { s with notifying := s.notifying - 1 } else none
  | .lock i =>
    match s.worker i with
    | .waking =>
      -- the predicate of `wait`, then the worker's own test
      if !(s.stop || !s.tasks.isEmpty) then some (s.goto i .asleep)
      else match s.tasks with
        | [] => some (s.goto i .returned)
        | task :: tasks => some ({ s with tasks := tasks }.goto i (.running task))
    | _ => none
  | .finish i =>
    match s.worker i with
    | .running _ => some (s.goto i .waking)
    | _ => none
  | .wakeUp i => if (s.worker i).isAsleep then some (s.goto i .waking) else none
  | .shutDown =>
    match s.destructor with
    | .notCalled => some { s with stop := true, destructor := .notify }
    | _ => none
  | .notifyAll =>
    match s.destructor with
    | .notify => some { s with worker := fun i => (s.worker i).wake, destructor := .join 0 }
    | _ => none
  | .join =>
    match s.destructor with
    | .join joined =>
      if h : joined < n then
        match s.worker ⟨joined, h⟩ with
        | .returned => some { s with destructor := .join (joined + 1) }
        | _ => none
      else none
    | _ => none

def Step (s : ThreadPool n τ) (e : Event n τ) (s' : ThreadPool n τ) : Prop := s.step e = some s'

/-- The destructor has returned. -/
def Destroyed (s : ThreadPool n τ) : Prop := s.destructor = .join n

/-! ## What becomes of the tasks -/

/-- The task that a step puts into the queue. -/
def accepted : ThreadPool n τ × Event n τ → Option τ
  | (_, .enqueue task) => some task
  | _ => none

/-- The task that a step takes out of the queue. -/
def started : ThreadPool n τ × Event n τ → Option τ
  | (s, .lock _) => s.tasks.head?
  | _ => none

/-- The task that ends with a step. -/
def finished : ThreadPool n τ × Event n τ → Option τ
  | (s, .finish i) =>
    match s.worker i with
    | .running task => some task
    | _ => none
  | _ => none

end ThreadPool

end IpNdn
