import Mathlib.Logic.Function.Basic
import IpNdnStack.Framework.Relay

/-!
# Exchanges

Several parties on a network that loses, repeats and reorders. Messages are
stored under ids, and ids are announced; a party that an id is announced to asks
for it, and for others if it likes; an id that is asked for and stored gets
delivered to the party that asked. Only messages that are stored are delivered
(`Sound.delivered`), and when nothing is left to do, each stored message has
been delivered but for one for each loss (`Sound.store_subperm`).
-/

namespace IpNdn

structure Exchange (ν ι μ : Type) where
  store : List (ι × μ)
  /-- what was announced and has not arrived -/
  announced : List ι
  /-- what each party has asked for and got no answer to -/
  asked : ν → List ι
  delivered : ν → List (ι × μ)
  /-- the ids of the announcements and of the requests that were lost -/
  lost : List ι

namespace Exchange

variable {ν ι μ : Type} [DecidableEq ν] [DecidableEq ι]

def empty : Exchange ν ι μ := ⟨[], [], fun _ => [], fun _ => [], []⟩

/-- There is a message under `i`. -/
def Stored (s : Exchange ν ι μ) (i : ι) : Prop := ∃ m, (i, m) ∈ s.store

omit [DecidableEq ν] [DecidableEq ι] in
theorem Stored.of_append {s s' : Exchange ν ι μ} {i j : ι} {m : μ} (hs : s'.store = s.store ++ [(i, m)])
    (h : s'.Stored j) : s.Stored j ∨ j = i := by
  obtain ⟨n, hn⟩ := h
  rw [hs] at hn
  rcases List.mem_append.mp hn with hn | hn
  · exact .inl ⟨n, hn⟩
  · exact .inr (congrArg Prod.fst (List.mem_singleton.mp hn))

inductive Step (dest : ι → ν → Prop) (s : Exchange ν ι μ) : Exchange ν ι μ → Prop
  | publish {i : ι} (h : ¬ s.Stored i) (m : μ) :
    Step dest s { s with store := s.store ++ [(i, m)], announced := s.announced ++ [i] }
  /-- an announcement that is repeated -/
  | again {i : ι} (h : i ∈ s.announced) : Step dest s { s with announced := s.announced ++ [i] }
  | ask {i : ι} (h : i ∈ s.announced) {v : ν} {is : List ι} (hi : i ∈ is) (hd : ∀ j ∈ is, dest j v) :
    Step dest s { s with
      announced := s.announced.erase i
      asked := Function.update s.asked v (s.asked v ++ is) }
  | deliver {i : ι} {v : ν} (h : i ∈ s.asked v) {m : μ} (hm : (i, m) ∈ s.store) :
    Step dest s { s with
      asked := Function.update s.asked v ((s.asked v).erase i)
      delivered := Function.update s.delivered v (s.delivered v ++ [(i, m)]) }
  | giveUp {i : ι} {v : ν} (h : i ∈ s.asked v) (hm : ¬ s.Stored i) :
    Step dest s { s with asked := Function.update s.asked v ((s.asked v).erase i) }
  | loseAnnounced {i : ι} (h : i ∈ s.announced) :
    Step dest s { s with announced := s.announced.erase i, lost := s.lost ++ [i] }
  | loseAsked {i : ι} {v : ν} (h : i ∈ s.asked v) :
    Step dest s { s with
      asked := Function.update s.asked v ((s.asked v).erase i)
      lost := s.lost ++ [i] }

/-- Nothing is left to arrive where it is for, or to be answered. -/
structure Quiet (dest : ι → ν → Prop) (s : Exchange ν ι μ) : Prop where
  announced : ∀ i ∈ s.announced, ∀ v, ¬ dest i v
  asked : ∀ v, ∀ i ∈ s.asked v, ¬ s.Stored i

/-- Each message has an id of its own, is on its way or is lost, and is
delivered only to the parties it is for. -/
structure Sound (dest : ι → ν → Prop) (s : Exchange ν ι μ) : Prop where
  nodup : (s.store.map (·.1)).Nodup
  announced : ∀ i ∈ s.announced, s.Stored i
  asked : ∀ v, ∀ i ∈ s.asked v, dest i v
  delivered : ∀ v, ∀ p ∈ s.delivered v, p ∈ s.store ∧ dest p.1 v
  onItsWay : ∀ p ∈ s.store, p.1 ∈ s.announced ∨ (∃ v, p.1 ∈ s.asked v) ∨ (∃ v, p ∈ s.delivered v) ∨ p.1 ∈ s.lost

variable {dest : ι → ν → Prop} {s s' : Exchange ν ι μ}

omit [DecidableEq ν] [DecidableEq ι] in
theorem sound_empty : Sound dest (empty : Exchange ν ι μ) :=
  ⟨List.nodup_nil, fun _ h => absurd h List.not_mem_nil, fun _ _ h => absurd h List.not_mem_nil,
    fun _ _ h => absurd h List.not_mem_nil, fun _ h => absurd h List.not_mem_nil⟩

omit [DecidableEq ν] [DecidableEq ι] in
theorem Sound.publish (h : Sound dest s) {i : ι} (hi : ¬ s.Stored i) (m : μ) :
    Sound dest { s with store := s.store ++ [(i, m)], announced := s.announced ++ [i] } := by
  refine ⟨?_, ?_, h.asked, fun v p hp => ?_, fun p hp => ?_⟩
  · rw [List.map_append, List.map_singleton, ← List.concat_eq_append, List.nodup_concat]
    refine ⟨fun hm => ?_, h.nodup⟩
    obtain ⟨p, hp, e⟩ := List.mem_map.mp hm
    exact hi ⟨p.2, (show p.1 = i from e) ▸ hp⟩
  · rw [List.forall_mem_append, List.forall_mem_singleton]
    refine ⟨fun j hj => ?_, m, List.mem_append_right _ List.mem_cons_self⟩
    obtain ⟨n, hn⟩ := h.announced j hj
    exact ⟨n, List.mem_append_left _ hn⟩
  · exact ⟨List.mem_append_left _ (h.delivered v p hp).1, (h.delivered v p hp).2⟩
  · rcases List.mem_append.mp hp with hp | hp
    · exact (h.onItsWay p hp).imp (List.mem_append_left _) id
    · rw [List.mem_singleton.mp hp]
      exact .inl (List.mem_append_right _ List.mem_cons_self)

/-- What a party has asked for, after it asks for more. -/
theorem mem_update {α : Type} {f : ν → List α} {v : ν} {l : List α} (hl : ∀ a ∈ f v, a ∈ l) {a : α} (h : ∃ u, a ∈ f u) :
    ∃ u, a ∈ Function.update f v l u := by
  obtain ⟨u, hu⟩ := h
  refine ⟨u, ?_⟩
  rw [Function.update_apply]
  split
  · rename_i e
    exact hl a (e ▸ hu)
  · exact hu

theorem forall_update {α : Type} {f : ν → List α} {v : ν} {l : List α} {P : ν → α → Prop} (h : ∀ u, ∀ a ∈ f u, P u a)
    (hl : ∀ a ∈ l, P v a) : ∀ u, ∀ a ∈ Function.update f v l u, P u a := by
  intro u a ha
  rw [Function.update_apply] at ha
  split at ha
  · rename_i e
    exact e ▸ hl a ha
  · exact h u a ha

theorem Sound.ask (h : Sound dest s) {i : ι} {v : ν} {is : List ι} (hi : i ∈ is) (hd : ∀ j ∈ is, dest j v) :
    Sound dest { s with
      announced := s.announced.erase i
      asked := Function.update s.asked v (s.asked v ++ is) } := by
  refine ⟨h.nodup, fun j hj => h.announced j (List.mem_of_mem_erase hj), ?_, h.delivered, fun p hp => ?_⟩
  · apply forall_update h.asked
    rw [List.forall_mem_append]
    exact ⟨h.asked v, hd⟩
  · rcases h.onItsWay p hp with ha | ha | hl
    · rcases Relay.mem_erase_or_eq ha i with he | rfl
      · exact .inl he
      · refine .inr (.inl ⟨v, ?_⟩)
        show p.1 ∈ Function.update s.asked v (s.asked v ++ is) v
        rw [Function.update_self]
        exact List.mem_append_right _ hi
    · exact .inr (.inl (mem_update (fun _ => List.mem_append_left _) ha))
    · exact .inr (.inr hl)

/-- A request that is no longer waited for: what it asked for has been
delivered or is lost, or there is no such message. -/
theorem Sound.unask (h : Sound dest s) (i : ι) (v : ν) {delivered : ν → List (ι × μ)} {lost : List ι}
    (hd : ∀ u, ∀ p ∈ delivered u, p ∈ s.store ∧ dest p.1 u) (hk : ∀ p, (∃ u, p ∈ s.delivered u) → ∃ u, p ∈ delivered u)
    (hl : ∀ j ∈ s.lost, j ∈ lost) (hi : ∀ p ∈ s.store, p.1 = i → (∃ u, p ∈ delivered u) ∨ p.1 ∈ lost) :
    Sound dest { s with
      asked := Function.update s.asked v ((s.asked v).erase i)
      delivered := delivered
      lost := lost } := by
  refine ⟨h.nodup, h.announced, forall_update h.asked fun j hj => h.asked v j (List.mem_of_mem_erase hj), hd,
    fun p hp => ?_⟩
  rcases h.onItsWay p hp with ha | ⟨u, hu⟩ | ha | ha
  · exact .inl ha
  · by_cases e : p.1 = i
    · exact .inr (.inr (hi p hp e))
    · refine .inr (.inl ⟨u, ?_⟩)
      show p.1 ∈ Function.update s.asked v ((s.asked v).erase i) u
      rw [Function.update_apply]
      split
      · rename_i e'
        exact (List.mem_erase_of_ne e).mpr (e' ▸ hu)
      · exact hu
  · exact .inr (.inr (.inl (hk p ha)))
  · exact .inr (.inr (.inr (hl p.1 ha)))

theorem Sound.step (h : Sound dest s) (hs : Step dest s s') : Sound dest s' := by
  cases hs with
  | publish hi m => exact h.publish hi m
  | @again i hi =>
    refine ⟨h.nodup, ?_, h.asked, h.delivered, fun p hp => (h.onItsWay p hp).imp (List.mem_append_left _) id⟩
    rw [List.forall_mem_append, List.forall_mem_singleton]
    exact ⟨h.announced, h.announced i hi⟩
  | ask _ hi hd => exact h.ask hi hd
  | @deliver i v hi m hm =>
    have hu : ∀ a ∈ s.delivered v, a ∈ s.delivered v ++ [(i, m)] := fun _ => List.mem_append_left _
    refine h.unask i v ?_ (fun p => mem_update hu) (fun _ => id) fun p hp e => .inl ⟨v, ?_⟩
    · apply forall_update h.delivered
      rw [List.forall_mem_append, List.forall_mem_singleton]
      exact ⟨h.delivered v, hm, h.asked v i hi⟩
    · rw [Function.update_self]
      have : p = (i, m) := List.inj_on_of_nodup_map h.nodup hp hm e
      rw [this]
      exact List.mem_append_right _ List.mem_cons_self
  | @giveUp i v _ hm =>
    exact h.unask i v h.delivered (fun _ => id) (fun _ => id) fun p hp e => absurd ⟨p.2, e ▸ hp⟩ hm
  | @loseAnnounced i _ =>
    refine ⟨h.nodup, fun j hj => h.announced j (List.mem_of_mem_erase hj), h.asked, h.delivered, fun p hp => ?_⟩
    rcases h.onItsWay p hp with ha | ha | ha | ha
    · rcases Relay.mem_erase_or_eq ha i with he | rfl
      · exact .inl he
      · exact .inr (.inr (.inr (List.mem_append_right _ List.mem_cons_self)))
    · exact .inr (.inl ha)
    · exact .inr (.inr (.inl ha))
    · exact .inr (.inr (.inr (List.mem_append_left _ ha)))
  | @loseAsked i v _ =>
    exact h.unask i v h.delivered (fun _ => id) (fun _ => List.mem_append_left _)
      fun p _ e => .inr (List.mem_append_right _ (List.mem_singleton.mpr e))

omit [DecidableEq ν] in
/-- In the end, where each id is for one party at most, a party has got all
messages that are for it, each for itself, but for one for each loss. -/
theorem Sound.store_subperm (h : Sound dest s) (hq : s.Quiet dest) (hd : ∀ i u v, dest i u → dest i v → u = v) :
    ∃ missing : List (ι × μ), missing.length ≤ s.lost.length ∧
      ∀ v, ∀ mine : List (ι × μ), mine.Sublist s.store → (∀ p ∈ mine, dest p.1 v) →
        mine.Subperm (s.delivered v ++ missing) := by
  have hn : ∀ l : List (ι × μ), l.Sublist s.store → (l.map (·.1)).Nodup := fun l hl => h.nodup.sublist (hl.map _)
  refine ⟨s.store.filter (·.1 ∈ s.lost), ?_, fun v mine hs hv => ?_⟩
  · have hl : ∀ i ∈ (s.store.filter (·.1 ∈ s.lost)).map (·.1), i ∈ s.lost := by
      intro i hi
      obtain ⟨p, hp, rfl⟩ := List.mem_map.mp hi
      exact of_decide_eq_true (List.mem_filter.mp hp).2
    have := ((hn _ List.filter_sublist).subperm hl).length_le
    rwa [List.length_map] at this
  · apply List.subperm_of_subset (hn _ hs).of_map
    intro p hp
    have hst := hs.subset hp
    rw [List.mem_append]
    rcases h.onItsWay p hst with ha | ⟨u, ha⟩ | ⟨u, ha⟩ | ha
    · exact absurd (hv p hp) (hq.announced p.1 ha v)
    · exact absurd ⟨p.2, hst⟩ (hq.asked u p.1 ha)
    · rw [hd p.1 v u (hv p hp) (h.delivered u p ha).2]
      exact .inl ha
    · exact .inr (List.mem_filter.mpr ⟨hst, decide_eq_true ha⟩)

end Exchange

end IpNdn
