import Mathlib.Data.List.Nodup
import Mathlib.Data.List.Perm.Subperm
import Mathlib.Logic.Relation

/-!
# Relays

A publisher stores messages under ids and announces each id. A subscriber asks
for the ids it is told of, and for others if it likes; an id that is asked for
and stored gets delivered, and one that is not stored may be given up.
Announcements arrive in any order. Nothing is lost: a message is announced,
asked for or delivered (`Lossless.reachable`), so when nothing is left to do
all of them have been delivered (`Lossless.store_subperm`).
-/

namespace IpNdn

structure Relay (ι μ : Type) where
  store : List (ι × μ)
  /-- what was announced and has not arrived -/
  announced : List ι
  /-- what was asked for and has not been answered -/
  asked : List ι
  delivered : List (ι × μ)

namespace Relay

variable {ι μ : Type}

def empty : Relay ι μ := ⟨[], [], [], []⟩

/-- There is a message under `i`. -/
def Stored (s : Relay ι μ) (i : ι) : Prop := ∃ m, (i, m) ∈ s.store

inductive Step [DecidableEq ι] (s : Relay ι μ) : Relay ι μ → Prop
  | publish {i : ι} (h : ¬ s.Stored i) (m : μ) :
    Step s { s with store := s.store ++ [(i, m)], announced := s.announced ++ [i] }
  | ask {i : ι} (h : i ∈ s.announced) {is : List ι} (hi : i ∈ is) :
    Step s { s with announced := s.announced.erase i, asked := s.asked ++ is }
  | deliver {i : ι} (h : i ∈ s.asked) {m : μ} (hm : (i, m) ∈ s.store) :
    Step s { s with asked := s.asked.erase i, delivered := s.delivered ++ [(i, m)] }
  | giveUp {i : ι} (h : i ∈ s.asked) (hm : ¬ s.Stored i) : Step s { s with asked := s.asked.erase i }

/-- Nothing is left to arrive, or to be answered. -/
structure Quiet (s : Relay ι μ) : Prop where
  announced : s.announced = []
  asked : ∀ i ∈ s.asked, ¬ s.Stored i

/-- Each message has an id of its own and is on its way. -/
structure Lossless (s : Relay ι μ) : Prop where
  unique : ∀ i m m', (i, m) ∈ s.store → (i, m') ∈ s.store → m = m'
  nodup : s.store.Nodup
  announced : ∀ i ∈ s.announced, s.Stored i
  onItsWay : ∀ p ∈ s.store, p.1 ∈ s.announced ∨ p.1 ∈ s.asked ∨ p ∈ s.delivered

theorem lossless_empty : Lossless (empty : Relay ι μ) :=
  ⟨fun _ _ _ h => absurd h List.not_mem_nil, List.nodup_nil, fun _ h => absurd h List.not_mem_nil,
    fun _ h => absurd h List.not_mem_nil⟩

variable [DecidableEq ι] {s s' : Relay ι μ}

/-- Erasing an id from a list keeps the others. -/
theorem mem_erase_or_eq {l : List ι} {a : ι} (h : a ∈ l) (b : ι) : a ∈ l.erase b ∨ a = b := by
  by_cases e : a = b
  · exact .inr e
  · exact .inl ((List.mem_erase_of_ne e).mpr h)

omit [DecidableEq ι] in
theorem Lossless.publish (h : Lossless s) {i : ι} (hi : ¬ s.Stored i) (m : μ) :
    Lossless { s with store := s.store ++ [(i, m)], announced := s.announced ++ [i] } := by
  refine ⟨fun j n n' hn hn' => ?_, ?_, fun j hj => ?_, fun p hp => ?_⟩
  · rw [List.mem_append, List.mem_singleton, Prod.mk.injEq] at hn hn'
    rcases hn with hn | ⟨rfl, rfl⟩ <;> rcases hn' with hn' | ⟨e, rfl⟩
    · exact h.unique j n n' hn hn'
    · exact absurd ⟨n, e ▸ hn⟩ hi
    · exact absurd ⟨n', hn'⟩ hi
    · rfl
  · rw [← List.concat_eq_append, List.nodup_concat]
    exact ⟨fun hm => hi ⟨m, hm⟩, h.nodup⟩
  · rcases List.mem_append.mp hj with hj | hj
    · obtain ⟨n, hn⟩ := h.announced j hj
      exact ⟨n, List.mem_append_left _ hn⟩
    · rw [List.mem_singleton.mp hj]
      exact ⟨m, List.mem_append_right _ List.mem_cons_self⟩
  · rcases List.mem_append.mp hp with hp | hp
    · exact (h.onItsWay p hp).imp (List.mem_append_left _) id
    · rw [List.mem_singleton.mp hp]
      exact .inl (List.mem_append_right _ List.mem_cons_self)

theorem Lossless.ask (h : Lossless s) {i : ι} {is : List ι} (hi : i ∈ is) :
    Lossless { s with announced := s.announced.erase i, asked := s.asked ++ is } := by
  refine ⟨h.unique, h.nodup, fun j hj => h.announced j (List.mem_of_mem_erase hj), fun p hp => ?_⟩
  rcases h.onItsWay p hp with ha | ha | hd
  · rcases mem_erase_or_eq ha i with he | rfl
    · exact .inl he
    · exact .inr (.inl (List.mem_append_right _ hi))
  · exact .inr (.inl (List.mem_append_left _ ha))
  · exact .inr (.inr hd)

theorem Lossless.deliver (h : Lossless s) {i : ι} {m : μ} (hm : (i, m) ∈ s.store) :
    Lossless { s with asked := s.asked.erase i, delivered := s.delivered ++ [(i, m)] } := by
  refine ⟨h.unique, h.nodup, h.announced, fun p hp => ?_⟩
  rcases h.onItsWay p hp with ha | ha | hd
  · exact .inl ha
  · rcases mem_erase_or_eq ha i with he | rfl
    · exact .inr (.inl he)
    · rw [h.unique _ _ _ hm hp]
      exact .inr (.inr (List.mem_append_right _ List.mem_cons_self))
  · exact .inr (.inr (List.mem_append_left _ hd))

theorem Lossless.giveUp (h : Lossless s) {i : ι} (hi : ¬ s.Stored i) :
    Lossless { s with asked := s.asked.erase i } := by
  refine ⟨h.unique, h.nodup, h.announced, fun p hp => ?_⟩
  rcases h.onItsWay p hp with ha | ha | hd
  · exact .inl ha
  · rcases mem_erase_or_eq ha i with he | rfl
    · exact .inr (.inl he)
    · exact absurd ⟨p.2, hp⟩ hi
  · exact .inr (.inr hd)

theorem Lossless.step (h : Lossless s) (hs : Step s s') : Lossless s' := by
  cases hs with
  | publish hi m => exact h.publish hi m
  | ask _ hi => exact h.ask hi
  | deliver _ hm => exact h.deliver hm
  | giveUp _ hm => exact h.giveUp hm

theorem Lossless.reachable (hs : Relation.ReflTransGen Step empty s) : Lossless s := by
  induction hs with
  | refl => exact lossless_empty
  | tail _ hs ih => exact ih.step hs

omit [DecidableEq ι] in
/-- In the end every message has been delivered, each for itself. -/
theorem Lossless.store_subperm (h : Lossless s) (hq : s.Quiet) : s.store.Subperm s.delivered := by
  apply List.subperm_of_subset h.nodup
  intro p hp
  rcases h.onItsWay p hp with ha | ha | hd
  · rw [hq.announced] at ha
    cases ha
  · exact absurd ⟨p.2, hp⟩ (hq.asked p.1 ha)
  · exact hd

end Relay

end IpNdn
